import Mathlib.Data.Int.Basic
import OrePool.Model.Utils

/-!
# Cutoffs as integers

A cutoff is computed in wrapping 64-bit arithmetic from unsigned settings cast to signed.  As long
as its true value fits, it is that value.
-/

namespace OrePool

/-- A cast from `u64` to `i64` wraps. -/
lemma toInt_toInt64 (n : UInt64) : n.toInt64.toInt = (n.toNat : ℤ).bmod UInt64.size := by
  rw [← Int64.toInt_toBitVec, UInt64.toBitVec_toInt64, BitVec.toInt_eq_toNat_bmod]
  rfl

/-- A value that fits does not wrap. -/
lemma bmod_of_fits {x : ℤ} (hmin : Int64.minValue.toInt ≤ x) (hmax : x ≤ Int64.maxValue.toInt) :
    x.bmod UInt64.size = x := by
  have hsize : UInt64.size = 2 ^ 64 := rfl
  rw [Int64.toInt_minValue] at hmin
  rw [Int64.toInt_maxValue] at hmax
  rw [hsize]
  apply Int.bmod_eq_of_le <;> omega

/-- The true value of a cutoff. -/
def Args.trueCutoff (args : Args) (proof : Proof) (unixTimestamp : Int64) : ℤ :=
  proof.lastHashAt.toInt + 60 + args.riskTime.toNat - args.bufferTime.toNat - unixTimestamp.toInt

/-- Neither the cutoff nor the negated buffer time overflows. -/
def Args.CutoffFits (args : Args) (proof : Proof) (unixTimestamp : Int64) : Prop :=
  Int64.minValue.toInt ≤ args.trueCutoff proof unixTimestamp ∧
    args.trueCutoff proof unixTimestamp ≤ Int64.maxValue.toInt ∧
    Int64.minValue.toInt ≤ -(args.bufferTime.toNat : ℤ)

instance (args : Args) (proof : Proof) (unixTimestamp : Int64) :
    Decidable (args.CutoffFits proof unixTimestamp) :=
  inferInstanceAs (Decidable (_ ∧ _ ∧ _))

lemma Args.toInt_cutoff (args : Args) (proof : Proof) (unixTimestamp : Int64) :
    (args.cutoff proof unixTimestamp).toInt =
      (args.trueCutoff proof unixTimestamp).bmod UInt64.size := by
  have hsize : UInt64.size = 2 ^ 64 := rfl
  rw [Args.cutoff]
  split
  · simp [getCutoffWithRisk, Args.trueCutoff, toInt_toInt64, hsize]
  · have hzero : args.riskTime = 0 := by grind
    simp [getCutoff, Args.trueCutoff, hzero, toInt_toInt64, hsize]

/-- The submission gate: a cutoff passed by the buffer time means that the minute of the proof and
the risk time are over. -/
theorem Args.over_of_cutoff {args : Args} {proof : Proof} {unixTimestamp : Int64}
    (hfits : args.CutoffFits proof unixTimestamp)
    (h : args.cutoff proof unixTimestamp ≤ -args.bufferTime.toInt64) :
    proof.lastHashAt.toInt + 60 + args.riskTime.toNat ≤ unixTimestamp.toInt := by
  obtain ⟨hmin, hmax, hbuf⟩ := hfits
  have hneg : (-args.bufferTime.toInt64).toInt = -(args.bufferTime.toNat : ℤ) := by
    have hpos : -(args.bufferTime.toNat : ℤ) ≤ Int64.maxValue.toInt := by
      rw [Int64.toInt_maxValue]
      omega
    rw [← bmod_of_fits hbuf hpos]
    simp [toInt_toInt64, show UInt64.size = 2 ^ 64 from rfl]
  rw [Int64.le_iff_toInt_le, args.toInt_cutoff, bmod_of_fits hmin hmax, hneg] at h
  rw [Args.trueCutoff] at h
  omega

end OrePool
