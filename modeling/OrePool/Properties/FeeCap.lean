import OrePool.Processors.FeeSelection

/-!
# The fee cap

With dynamic fees enabled `priority_fee_cap` is the most that is paid for a compute unit, by its
help text.  `dynamic_fee` applies it to what it works out, and `pool_submission_processor` once more
to what it raises.

Two ways go past both.  Where the service gives no answer `dynamic_fee` returns early with a default
fee, and where the answer cannot be used the static fee is taken.  The cap is kept exactly when
these two are below it, or the default fee is raised (`feeCap`).
-/

namespace OrePool

/-! ## The property -/

/-- **The cap.**  What is put into the transaction is no more than the cap. -/
def Capped (args : FeeArgs) (price : Option UInt64) : Prop :=
  ∀ cap ∈ args.priorityFeeCap, ∀ fee ∈ price, fee ≤ cap

/-! ## The condition -/

/-- The service gives no answer, or none in JSON. -/
def Unanswered (host : String) (answers : FeeAnswers) : Prop :=
  FeeStrategy.select host ≠ .LOCAL ∧ ∀ response, answers.http ≠ .json response

/-- There is no fee where the strategy looks for one. -/
def FeeStrategy.Lacks (serde : Serde) (response : Value)
    (recent : Option (List RpcPrioritizationFee)) : FeeStrategy → Prop
  | .helius => ((response.index "result").index "priorityFeeEstimate").asF64 = none
  | .quiknode => (((response.index "result").index "per_compute_unit").index "medium").asF64 = none
  | .alchemy => (response.index "result").asArray = none
  | .triton => serde.fromValue (response.index "result") = none
  | .LOCAL => recent = none ∨ recent = some []

/-- There is an answer, and no fee in it. -/
def Unusable (serde : Serde) (host : String) (answers : FeeAnswers) : Prop :=
  let strategy := FeeStrategy.select host
  ∃ response, strategy.response answers.http = some response ∧
    strategy.Lacks serde response answers.recent

/-! ## What `dynamic_fee` returns -/

lemma FeeStrategy.response_eq_none {strategy : FeeStrategy} {http : HttpOutcome} :
    strategy.response http = none ↔ strategy ≠ .LOCAL ∧ ∀ response, http ≠ .json response := by
  cases http with
  | json response => cases strategy <;> simp [FeeStrategy.response]
  | sendFailed | notJson => cases strategy <;> simp [FeeStrategy.response]

lemma okOr_eq_error {ε α : Type} {error : ε} {o : Option α} :
    (∃ e, okOr error o = .error e) ↔ o = none := by
  cases o with
  | none => exact ⟨fun _ => rfl, fun _ => ⟨error, rfl⟩⟩
  | some a => exact ⟨nofun, nofun⟩

/-- There is an error exactly where there is no fee. -/
lemma FeeStrategy.lacks_iff {serde : Serde} {response : Value}
    {recent : Option (List RpcPrioritizationFee)} {strategy : FeeStrategy} :
    strategy.Lacks serde response recent ↔
      ∃ e, strategy.calculatedFee serde response recent = some (.error e) := by
  have hmap : ∀ {α : Type} {f : α → UInt64} {o : Option α},
      ¬ ∃ e : FeeError, (o.map fun a => Except.ok (f a)) = some (.error e) := by
    intro α f o
    cases o with
    | none => exact nofun
    | some a => exact nofun
  cases strategy with
  | helius | quiknode =>
      simp only [FeeStrategy.calculatedFee, FeeStrategy.Lacks, Option.some.injEq, okOr_eq_error,
        Option.map_eq_none_iff]
  | alchemy =>
      simp only [FeeStrategy.calculatedFee, FeeStrategy.Lacks]
      cases (response.index "result").asArray with
      | none => simp
      | some arr => exact iff_of_false (Option.some_ne_none arr) hmap
  | triton =>
      simp only [FeeStrategy.calculatedFee, FeeStrategy.Lacks]
      cases serde.fromValue (response.index "result") with
      | none => simp
      | some fees => exact iff_of_false (Option.some_ne_none fees) (hmap (f := id))
  | LOCAL =>
      rcases recent with _ | _ | ⟨fee, fees⟩
      · simp [FeeStrategy.calculatedFee, FeeStrategy.Lacks, localDynamicFee]
      · simp [FeeStrategy.calculatedFee, FeeStrategy.Lacks, localDynamicFee]
      · exact iff_of_false (by simp [FeeStrategy.Lacks]) hmap

section Estimate

variable {serde : Serde} {host : String} {answers : FeeAnswers} {priorityFeeCap : Option UInt64}

/-- Without an answer the default fee is returned, which the cap has not been applied to. -/
lemma dynamicFee_of_unanswered (serde : Serde) (priorityFeeCap : Option UInt64)
    (h : Unanswered host answers) :
    dynamicFee serde host answers priorityFeeCap = some (.ok DEFAULT_PRIORITY_FEE) := by
  rw [dynamicFee, FeeStrategy.response_eq_none.mpr h]

/-- An answer without a fee is an error, and nothing else is. -/
lemma unusable_iff (priorityFeeCap : Option UInt64) : Unusable serde host answers ↔
    ∃ e, dynamicFee serde host answers priorityFeeCap = some (.error e) := by
  simp only [Unusable, FeeStrategy.lacks_iff]
  rw [dynamicFee]
  cases (FeeStrategy.select host).response answers.http with
  | none => simp
  | some response =>
      cases hcalculated : (FeeStrategy.select host).calculatedFee serde response answers.recent with
      | none => simp [hcalculated]
      | some calculated => cases calculated <;> simp [hcalculated, Except.map]

/-- A fee from an answer is within the cap. -/
lemma dynamicFee_le (hanswered : ¬ Unanswered host answers) {fee : UInt64}
    (h : dynamicFee serde host answers priorityFeeCap = some (.ok fee)) :
    ∀ cap ∈ priorityFeeCap, fee ≤ cap := by
  obtain ⟨response, hresponse⟩ :=
    Option.ne_none_iff_exists'.mp (mt FeeStrategy.response_eq_none.mp hanswered)
  rw [dynamicFee, hresponse] at h
  obtain ⟨calculated, -, hfee⟩ := Option.map_eq_some_iff.mp h
  cases calculated with
  | error e => cases hfee
  | ok estimate =>
      obtain rfl := Except.ok.inj hfee
      rintro cap rfl
      have hmin : (min estimate cap).toNat ≤ cap.toNat := by
        rw [UInt64.toNat_min]
        exact min_le_right _ _
      exact UInt64.le_iff_toNat_le.mpr hmin

end Estimate

/-! ## The cap -/

/-- A fee that is within the cap stays within it when it is raised. -/
lemma FeeArgs.forDifficulty_le {args : FeeArgs} {cap prioFee : UInt64} {difficulty : UInt32}
    (hcap : args.priorityFeeCap = some cap) :
    args.forDifficulty prioFee difficulty ≤ cap ↔
      args.extraFeeDifficulty ≤ difficulty ∨ prioFee ≤ cap := by
  rw [FeeArgs.forDifficulty]
  split
  · rename_i hprecious
    have hle := args.raised_le prioFee
    rw [hcap] at hle
    exact iff_of_true hle (.inl hprecious)
  · rename_i hprecious
    exact (or_iff_right hprecious).symm

/-- **The cap.**  With dynamic fees enabled and a cap set, the price is within the cap exactly when
the default fee is, or is raised, in case the service gives no answer, and the static fee is in case
there is no fee in the answer. -/
theorem feeCap {args : FeeArgs} {cap : UInt64} (serde : Serde) (host : String)
    (answers : FeeAnswers) (difficulty : UInt32) (hdynamic : args.dynamicFee = true)
    (hcap : args.priorityFeeCap = some cap) :
    Capped args (computeUnitPrice serde host answers args difficulty) ↔
      (Unanswered host answers →
        args.extraFeeDifficulty ≤ difficulty ∨ DEFAULT_PRIORITY_FEE ≤ cap) ∧
      (Unusable serde host answers → args.priorityFee.getD 0 ≤ cap) := by
  have hcapped : ∀ price, Capped args price ↔ ∀ fee ∈ price, fee ≤ cap := by
    intro price
    simp [Capped, hcap]
  rw [hcapped, computeUnitPrice, FeeArgs.fee, if_pos hdynamic]
  by_cases hanswered : Unanswered host answers
  · -- the default fee
    have hdefault := dynamicFee_of_unanswered serde (some cap) hanswered
    have husable : ¬ Unusable serde host answers := by
      rw [unusable_iff (some cap), hdefault]
      exact nofun
    simp [hcap, hdefault, hanswered, husable, FeeArgs.forDifficulty_le hcap]
  · by_cases hunusable : Unusable serde host answers
    · -- the static fee
      obtain ⟨e, he⟩ := (unusable_iff (some cap)).mp hunusable
      simp [hcap, he, hanswered, hunusable, FeeArgs.static]
    · -- a fee within the cap, or none
      refine iff_of_true ?_ ⟨fun h => absurd h hanswered, fun h => absurd h hunusable⟩
      intro price hprice
      obtain ⟨estimate, hestimate, rfl⟩ := Option.map_eq_some_iff.mp hprice
      cases estimate with
      | error e => exact absurd ((unusable_iff _).mpr ⟨e, hestimate⟩) hunusable
      | ok fee =>
          rw [FeeArgs.forDifficulty_le hcap]
          exact .inr (dynamicFee_le hanswered hestimate cap hcap)

/-! ## Examples -/

namespace Replay

/-- The defaults of the command line, with dynamic fees enabled and a cap. -/
def feeArgs (cap : UInt64) : FeeArgs where
  priorityFee := some 100
  priorityFeeCap := some cap
  dynamicFee := true
  extraFeeDifficulty := 29
  extraFeePercent := 0

/-- The host of a fee service. -/
def heliusHost : String := "mainnet.helius-rpc.com"

/-- The service cannot be reached. -/
def unreachable : FeeAnswers := ⟨.sendFailed, none⟩

/-- A deserialiser that accepts nothing. -/
def noSerde : Serde := ⟨fun _ => none⟩

end Replay

/-- With the default cap an ordinary solution is within it though the service cannot be reached. -/
theorem feeCap_unreachable :
    Capped (Replay.feeArgs 100000)
        (computeUnitPrice Replay.noSerde Replay.heliusHost Replay.unreachable
          (Replay.feeArgs 100000) 20) ↔
      (Unanswered Replay.heliusHost Replay.unreachable → (29 : UInt32) ≤ 20 ∨
        DEFAULT_PRIORITY_FEE ≤ 100000) ∧
      (Unusable Replay.noSerde Replay.heliusHost Replay.unreachable → (100 : UInt64) ≤ 100000) :=
  feeCap _ _ _ _ rfl rfl

/-- The service cannot be reached, and the default fee goes past the cap. -/
theorem not_feeCap :
    ¬ ∀ serde host answers (args : FeeArgs) difficulty, args.dynamicFee = true →
      Capped args (computeUnitPrice serde host answers args difficulty) := by
  intro h
  have hprice : computeUnitPrice Replay.noSerde Replay.heliusHost Replay.unreachable
      (Replay.feeArgs 5000) 20 = some 10000 := by
    decide +kernel
  have hle := h _ _ _ _ _ rfl 5000 rfl 10000 hprice
  exact absurd hle (by decide)

end OrePool
