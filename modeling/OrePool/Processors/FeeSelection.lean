import OrePool.Model.DynamicFee

/-!
# The priority fee of a mine transaction

What `pool_submission_processor` puts into a transaction as the price of a compute unit.  The base
fee is the estimate when dynamic fees are enabled and there is one, and the static fee of the
command line otherwise.  A solution of at least `extra_fee_difficulty` is precious: its fee is
raised by `extra_fee_percent` and then limited.  The two blocks that raise the fee are the same.
-/

namespace OrePool

/-- The command-line arguments about fees. -/
structure FeeArgs where
  priorityFee : Option UInt64
  priorityFeeCap : Option UInt64
  dynamicFee : Bool
  extraFeeDifficulty : UInt32
  extraFeePercent : UInt64
  deriving DecidableEq

/-- `u64::saturating_add`. -/
def saturatingAddU64 (a b : UInt64) : UInt64 := UInt64.ofNatClamp (a.toNat + b.toNat)

/-- `u64::saturating_mul`. -/
def saturatingMulU64 (a b : UInt64) : UInt64 := UInt64.ofNatClamp (a.toNat * b.toNat)

/-- The limit of a raised fee where no cap is set. -/
def UNCAPPED_LIMIT : UInt64 := 300000

/-- The fee for a precious solution. -/
def FeeArgs.raised (args : FeeArgs) (prioFee : UInt64) : UInt64 :=
  min (args.priorityFeeCap.getD UNCAPPED_LIMIT)
    (saturatingMulU64 prioFee (saturatingAddU64 100 args.extraFeePercent) / 100)

/-- The fee for a solution of some difficulty. -/
def FeeArgs.forDifficulty (args : FeeArgs) (prioFee : UInt64) (difficulty : UInt32) : UInt64 :=
  if args.extraFeeDifficulty ≤ difficulty then args.raised prioFee else prioFee

/-- The static fee. -/
def FeeArgs.static (args : FeeArgs) : UInt64 := args.priorityFee.getD 0

/-- The choice of the fee, given what `dynamic_fee` returns.  An error falls back to the static fee,
precious or not. -/
def FeeArgs.fee (args : FeeArgs) (estimate : Option (Except FeeError UInt64))
    (difficulty : UInt32) : Option UInt64 :=
  if args.dynamicFee then
    estimate.map fun
      | .ok fee => args.forDifficulty fee difficulty
      | .error _ => args.static
  else
    some (args.forDifficulty args.static difficulty)

/-- `set_compute_unit_price(fee)`: the price in the transaction, `none` where the loop panics. -/
def computeUnitPrice (serde : Serde) (host : String) (answers : FeeAnswers) (args : FeeArgs)
    (difficulty : UInt32) : Option UInt64 :=
  args.fee (dynamicFee serde host answers args.priorityFeeCap) difficulty

/-! ## Raised fees -/

lemma toNat_ofNatClamp (n : ℕ) : (UInt64.ofNatClamp n).toNat = min n (2 ^ 64 - 1) := by
  rw [UInt64.ofNatClamp]
  split
  · rename_i h
    have hsize : UInt64.size = 2 ^ 64 := rfl
    rw [UInt64.toNat_ofNatLT]
    omega
  · rename_i h
    have hsize : UInt64.size = 2 ^ 64 := rfl
    rw [UInt64.toNat_ofNatLT]
    omega

/-- A raised fee is within the limit. -/
lemma FeeArgs.raised_le (args : FeeArgs) (prioFee : UInt64) :
    args.raised prioFee ≤ args.priorityFeeCap.getD UNCAPPED_LIMIT := by
  rw [UInt64.le_iff_toNat_le, FeeArgs.raised, UInt64.toNat_min]
  exact min_le_left _ _

/-- A raised fee is no less than the base fee exactly when the limit is not, and a hundred times the
base fee fits into a `u64`. -/
lemma FeeArgs.le_raised_iff (args : FeeArgs) (prioFee : UInt64) :
    prioFee ≤ args.raised prioFee ↔
      prioFee ≤ args.priorityFeeCap.getD UNCAPPED_LIMIT ∧ prioFee.toNat * 100 < 2 ^ 64 := by
  have hpercent : 100 ≤ (saturatingAddU64 100 args.extraFeePercent).toNat := by
    have h100 : (100 : UInt64).toNat = 100 := rfl
    rw [saturatingAddU64, toNat_ofNatClamp, h100]
    omega
  have hraised : prioFee.toNat * 100 ≤
      prioFee.toNat * (saturatingAddU64 100 args.extraFeePercent).toNat :=
    Nat.mul_le_mul_left _ hpercent
  have hdiv : ∀ x : UInt64, (x / 100).toNat = x.toNat / 100 := fun x => UInt64.toNat_div x 100
  rw [UInt64.le_iff_toNat_le, FeeArgs.raised, UInt64.toNat_min, le_min_iff,
    ← UInt64.le_iff_toNat_le, hdiv, saturatingMulU64, toNat_ofNatClamp]
  refine and_congr_right fun _ => ?_
  omega

end OrePool
