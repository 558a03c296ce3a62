import OrePool.Properties.FeeCap

/-!
# A precious solution pays no less

The fee is raised for solutions from `extra_fee_difficulty` on, to land them quickly.
`NeverCheaper` says that a harder solution never gets a lower price than an easier one.

A raised fee is limited and an ordinary one is not, so a base fee above the limit is lowered
instead.  The price follows the difficulty exactly when the base fee is within the limit and its
hundredfold fits into a `u64`, or when every solution is precious (`preciousFee`).
-/

namespace OrePool

/-- **Never cheaper.**  The price does not fall when the difficulty rises. -/
def NeverCheaper (price : UInt32 → Option UInt64) : Prop :=
  ∀ difficulty difficulty', difficulty ≤ difficulty' →
    ∀ fee ∈ price difficulty, ∀ fee' ∈ price difficulty', fee ≤ fee'

/-- The fee that is raised for a precious solution: the static one, or the estimate if there is
one. -/
def FeeArgs.baseFee (args : FeeArgs) (estimate : Option (Except FeeError UInt64)) :
    Option UInt64 :=
  if args.dynamicFee then estimate.bind Except.toOption else some args.static

lemma FeeArgs.fee_of_baseFee {args : FeeArgs} {estimate : Option (Except FeeError UInt64)}
    {baseFee : UInt64} (h : args.baseFee estimate = some baseFee) (difficulty : UInt32) :
    args.fee estimate difficulty = some (args.forDifficulty baseFee difficulty) := by
  cases hdynamic : args.dynamicFee with
  | true =>
      rw [FeeArgs.baseFee, if_pos hdynamic] at h
      rw [FeeArgs.fee, if_pos hdynamic]
      obtain ⟨estimate, rfl, hfee⟩ := Option.bind_eq_some_iff.mp h
      cases estimate with
      | error e => cases hfee
      | ok fee => rw [← Option.some.inj hfee, Option.map_some]
  | false =>
      have hstatic : ¬ args.dynamicFee = true := Bool.eq_false_iff.mp hdynamic
      rw [FeeArgs.baseFee, if_neg hstatic] at h
      rw [FeeArgs.fee, if_neg hstatic, Option.some.inj h]

/-- The price follows the difficulty when every solution is precious, or a precious one pays no
less. -/
lemma FeeArgs.neverCheaper_iff (args : FeeArgs) (baseFee : UInt64) :
    NeverCheaper (fun difficulty => some (args.forDifficulty baseFee difficulty)) ↔
      args.extraFeeDifficulty = 0 ∨ baseFee ≤ args.raised baseFee := by
  refine ⟨?_, ?_⟩
  · intro h
    refine or_iff_not_imp_left.mpr fun hpos => ?_
    have hlt : ¬ args.extraFeeDifficulty ≤ 0 := by
      intro hle
      exact hpos (UInt32.le_antisymm hle (UInt32.zero_le ..))
    have hle := h 0 args.extraFeeDifficulty (UInt32.zero_le ..) _ rfl _ rfl
    rwa [FeeArgs.forDifficulty, if_neg hlt, FeeArgs.forDifficulty,
      if_pos (UInt32.le_refl _)] at hle
  · intro h difficulty difficulty' hle fee hfee fee' hfee'
    rw [← Option.some.inj hfee, ← Option.some.inj hfee', FeeArgs.forDifficulty,
      FeeArgs.forDifficulty]
    split
    · rename_i hprecious
      rw [if_pos (UInt32.le_trans hprecious hle)]
      exact UInt64.le_refl _
    · rename_i hordinary
      split
      · refine h.resolve_left fun hzero => hordinary ?_
        rw [hzero]
        exact UInt32.zero_le ..
      · exact UInt64.le_refl _

/-- **Never cheaper.**  For a base fee the price follows the difficulty exactly when every solution
is precious, or the base fee is within the limit and its hundredfold fits. -/
theorem preciousFee {serde : Serde} {host : String} {answers : FeeAnswers} {args : FeeArgs}
    {baseFee : UInt64}
    (h : args.baseFee (dynamicFee serde host answers args.priorityFeeCap) = some baseFee) :
    NeverCheaper (computeUnitPrice serde host answers args) ↔
      args.extraFeeDifficulty = 0 ∨
        baseFee ≤ args.priorityFeeCap.getD UNCAPPED_LIMIT ∧ baseFee.toNat * 100 < 2 ^ 64 := by
  have hprice : computeUnitPrice serde host answers args =
      fun difficulty => some (args.forDifficulty baseFee difficulty) :=
    funext fun difficulty => FeeArgs.fee_of_baseFee h difficulty
  rw [hprice, FeeArgs.neverCheaper_iff, FeeArgs.le_raised_iff]

/-! ## Examples -/

/-- The default fee of an unreachable service is raised, not lowered. -/
theorem preciousFee_unreachable :
    NeverCheaper (computeUnitPrice Replay.noSerde Replay.heliusHost Replay.unreachable
        (Replay.feeArgs 100000)) ↔
      (29 : UInt32) = 0 ∨ (10000 : UInt64) ≤ 100000 ∧ (10000 : UInt64).toNat * 100 < 2 ^ 64 :=
  preciousFee (by decide +kernel)

/-- A static fee above the cap. -/
def Replay.staticArgs : FeeArgs :=
  { feeArgs 100000 with dynamicFee := false, priorityFee := some 500000 }

/-- A static fee above the cap is paid for an ordinary solution, and the cap for a precious one. -/
theorem not_preciousFee :
    ¬ ∀ serde host answers (args : FeeArgs) baseFee,
      args.baseFee (dynamicFee serde host answers args.priorityFeeCap) = some baseFee →
      NeverCheaper (computeUnitPrice serde host answers args) := by
  intro h
  have hle : (500000 : UInt64) ≤ 100000 :=
    h Replay.noSerde Replay.heliusHost Replay.unreachable Replay.staticArgs 500000 rfl 28 29
      (by decide) 500000 rfl 100000 rfl
  exact absurd hle (by decide)

end OrePool
