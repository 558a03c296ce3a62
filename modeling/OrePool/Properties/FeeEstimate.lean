import OrePool.Core.Traversal
import OrePool.Lemmas.Percentiles
import OrePool.Properties.FeeCap

/-!
# The fee estimate and the submission loop

`pool_submission_processor` asks for an estimate while new missions are paused, and falls back to
the static fee when it gets an error.  `Estimated` says that it gets one or the other: `dynamic_fee`
does not panic, and no sum it forms overflows.

Three of the five strategies always return, the local one because its percentiles are within the
slice (`localDynamicFee_isSome`).  The two that read rows of a service do so exactly when the rows
are as expected (`feeEstimate`).
-/

namespace OrePool

open Traversal

/-! ## The property -/

/-- The fees that are summed up, of what the response holds. -/
def FeeStrategy.summedFees (serde : Serde) (response : Value) : FeeStrategy → List UInt64
  | .alchemy => ((response.index "result").asArray.bind alchemyFees).getD []
  | .triton => ((serde.fromValue (response.index "result")).map lastTwenty).getD []
  | .helius | .quiknode | .LOCAL => []

/-- **Estimated.**  `dynamic_fee` returns, and the sum it forms fits into a `u64`. -/
def Estimated (serde : Serde) (host : String) (answers : FeeAnswers)
    (priorityFeeCap : Option UInt64) : Prop :=
  (dynamicFee serde host answers priorityFeeCap).isSome ∧
    ∀ response ∈ (FeeStrategy.select host).response answers.http,
      (((FeeStrategy.select host).summedFees serde response).map UInt64.toNat).sum < 2 ^ 64

/-! ## The condition -/

/-- The rows are as the strategy expects them: each has a fee, there is one, and their fees fit. -/
def FeeStrategy.RowsExpected (serde : Serde) (response : Value) : FeeStrategy → Prop
  | .alchemy => ∀ arr ∈ (response.index "result").asArray,
      (∀ row ∈ arr, ((row.index "prioritizationFee").asU64).isSome) ∧
      (arr.map fun row => ((row.index "prioritizationFee").asU64.getD 0).toNat).sum < 2 ^ 64
  | .triton => ∀ fees ∈ serde.fromValue (response.index "result"),
      fees ≠ [] ∧ ((lastTwenty fees).map UInt64.toNat).sum < 2 ^ 64
  | .helius | .quiknode | .LOCAL => True

/-! ## The local strategy -/

/-- The local strategy returns, whatever fees it is given. -/
lemma localDynamicFee_isSome (recent : Option (List RpcPrioritizationFee)) :
    (localDynamicFee percentileIndex recent).isSome := by
  match recent with
  | none => rfl
  | some [] => rfl
  | some (fee :: fees) =>
      simp only [localDynamicFee, Option.isSome_map]
      refine isSome_foldlM (fun chunk hchunk _ => ?_) []
      exact isSome_calculatePercentiles (List.mem_of_mem_take hchunk)

/-! ## Rows of a service -/

/-- The fees of a document can be read when each row has one. -/
lemma alchemyFees_isSome {arr : List Value} :
    (alchemyFees arr).isSome ↔ ∀ row ∈ arr, ((row.index "prioritizationFee").asU64).isSome :=
  isSome_mapM_iff

/-- The fees read are those of the rows. -/
lemma map_alchemyFees {arr : List Value} {fees : List UInt64} (h : alchemyFees arr = some fees) :
    fees.map UInt64.toNat =
      arr.map fun row => ((row.index "prioritizationFee").asU64.getD 0).toNat := by
  have hall := forall₂_of_mapM h
  clear h
  induction hall with
  | nil => rfl
  | cons hfee _ ih => rw [List.map_cons, List.map_cons, ih, hfee, Option.getD_some]

lemma estimatePrioritizationFeeMicroLamports_isSome {fees : List RpcPrioritizationFee} :
    (estimatePrioritizationFeeMicroLamports fees).isSome ↔ fees ≠ [] := by
  have hempty : lastTwenty fees = [] ↔ fees = [] := by
    simp [lastTwenty]
  rw [estimatePrioritizationFeeMicroLamports, Ne, ← hempty]
  split
  · rename_i h
    exact iff_of_false nofun (not_not_intro h)
  · rename_i h
    exact iff_of_true rfl h

/-- A strategy returns, and its sum fits, exactly when the rows are as it expects them. -/
lemma FeeStrategy.rowsExpected_iff (serde : Serde) (response : Value)
    (recent : Option (List RpcPrioritizationFee)) (strategy : FeeStrategy) :
    ((strategy.calculatedFee serde response recent).isSome ∧
      ((strategy.summedFees serde response).map UInt64.toNat).sum < 2 ^ 64) ↔
      strategy.RowsExpected serde response := by
  cases strategy with
  | helius | quiknode =>
      have hsum : (([] : List UInt64).map UInt64.toNat).sum < 2 ^ 64 := by decide
      exact iff_of_true ⟨rfl, hsum⟩ trivial
  | LOCAL =>
      have hsum : (([] : List UInt64).map UInt64.toNat).sum < 2 ^ 64 := by decide
      exact iff_of_true ⟨localDynamicFee_isSome recent, hsum⟩ trivial
  | alchemy =>
      simp only [FeeStrategy.calculatedFee, FeeStrategy.summedFees, FeeStrategy.RowsExpected]
      cases (response.index "result").asArray with
      | none => simp
      | some arr =>
          simp only [Option.isSome_map, Option.bind_some, Option.mem_def, Option.some.injEq,
            forall_eq', alchemyFees_isSome]
          refine and_congr_right fun hrows => ?_
          obtain ⟨fees, hfees⟩ := Option.isSome_iff_exists.mp (alchemyFees_isSome.mpr hrows)
          rw [hfees, Option.getD_some, map_alchemyFees hfees]
  | triton =>
      simp only [FeeStrategy.calculatedFee, FeeStrategy.summedFees, FeeStrategy.RowsExpected]
      cases serde.fromValue (response.index "result") with
      | none => simp
      | some fees => simp [estimatePrioritizationFeeMicroLamports_isSome]

/-! ## The estimate -/

/-- **Estimated.**  `dynamic_fee` returns without a panic or an overflow exactly when the service
gives no answer, or the rows of the answer are as the strategy expects them. -/
theorem feeEstimate (serde : Serde) (host : String) (answers : FeeAnswers)
    (priorityFeeCap : Option UInt64) :
    Estimated serde host answers priorityFeeCap ↔
      ∀ response ∈ (FeeStrategy.select host).response answers.http,
        (FeeStrategy.select host).RowsExpected serde response := by
  rw [Estimated, dynamicFee]
  cases (FeeStrategy.select host).response answers.http with
  | none => simp
  | some response =>
      simp only [Option.isSome_map, Option.mem_def, Option.some.injEq, forall_eq']
      exact FeeStrategy.rowsExpected_iff serde response answers.recent (FeeStrategy.select host)

/-! ## An empty answer -/

/-- The host of a service whose rows are averaged. -/
def Replay.tritonHost : String := "miner.rpcpool.com"

/-- A deserialiser that reads the empty array, as any does. -/
def Replay.emptySerde : Serde := ⟨fun
  | .array [] => some []
  | _ => none⟩

/-- An answer without rows, as for accounts nobody has written to. -/
def Replay.noRows : FeeAnswers := ⟨.json (.object [("result", .array [])]), none⟩

/-- The answer without rows is a panic. -/
theorem not_feeEstimate :
    ¬ ∀ serde host answers priorityFeeCap, Estimated serde host answers priorityFeeCap := by
  intro h
  have hsome := (h Replay.emptySerde Replay.tritonHost Replay.noRows none).1
  have hnone : dynamicFee Replay.emptySerde Replay.tritonHost Replay.noRows none = none := by
    decide +kernel
  rw [hnone] at hsome
  cases hsome

end OrePool
