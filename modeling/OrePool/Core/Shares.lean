import Mathlib.Algebra.BigOperators.Ring.Finset
import Mathlib.Algebra.BigOperators.Ring.List
import Mathlib.Algebra.Order.BigOperators.Group.List
import Mathlib.Algebra.Order.Field.Basic
import Mathlib.Data.Nat.Cast.Order.Field
import Mathlib.Tactic.FieldSimp
import Mathlib.Tactic.GCongr
import Mathlib.Tactic.Linarith
import Mathlib.Tactic.Ring

/-!
# Shares

An amount is split in proportion to weights with naturals alone: each weight is first expressed in
a fixed number of `parts` of the total, rounded down, and its share is as many parts of the amount,
rounded down again.

* `sum_share_le` — no more is given away than there is.
* `lt_sum_share` — for each weight at most a part of the amount and one unit are lost.
* `share_mono` — who has more weight does not get less.
-/

namespace Shares

variable {parts weight weight' total amount d : ℕ} {weights : List ℕ}

/-- A weight in `parts` of the total. -/
def portion (parts total weight : ℕ) : ℕ := weight * parts / total

/-- The share of a weight in an amount. -/
def share (parts total amount weight : ℕ) : ℕ := portion parts total weight * amount / parts

lemma portion_mono (h : weight ≤ weight') :
    portion parts total weight ≤ portion parts total weight' :=
  Nat.div_le_div_right (Nat.mul_le_mul_right parts h)

lemma share_mono (h : weight ≤ weight') :
    share parts total amount weight ≤ share parts total amount weight' :=
  Nat.div_le_div_right (Nat.mul_le_mul_right amount (portion_mono h))

lemma portion_le (h : weight ≤ total) : portion parts total weight ≤ parts := by
  rcases total.eq_zero_or_pos with rfl | htotal
  · simp [portion]
  · calc portion parts total weight ≤ total * parts / total :=
        Nat.div_le_div_right (Nat.mul_le_mul_right parts h)
      _ = parts := Nat.mul_div_cancel_left parts htotal

lemma share_le (h : weight ≤ total) : share parts total amount weight ≤ amount := by
  rcases parts.eq_zero_or_pos with rfl | hparts
  · simp [share]
  · calc share parts total amount weight ≤ parts * amount / parts :=
        Nat.div_le_div_right (Nat.mul_le_mul_right amount (portion_le h))
      _ = amount := Nat.mul_div_cancel_left amount hparts

/-! ## Sums from above -/

/-- Rounding each summand down gives no more than rounding the sum down. -/
lemma sum_div_le (l : List ℕ) : (l.map (· / d)).sum ≤ l.sum / d := by
  induction l with
  | nil => simp
  | cons a l ih =>
      rw [List.map_cons, List.sum_cons, List.sum_cons]
      exact (Nat.add_le_add_left ih _).trans Nat.div_add_div_le_add_div

lemma sum_portion_le (h : weights.sum ≤ total) :
    (weights.map (portion parts total)).sum ≤ parts := by
  calc (weights.map (portion parts total)).sum
      = ((weights.map (· * parts)).map (· / total)).sum := by rw [List.map_map]; rfl
    _ ≤ (weights.map (· * parts)).sum / total := sum_div_le _
    _ = portion parts total weights.sum := by rw [List.sum_map_mul_right, List.map_id', portion]
    _ ≤ parts := portion_le h

/-- **No more than there is.** -/
theorem sum_share_le (h : weights.sum ≤ total) :
    (weights.map (share parts total amount)).sum ≤ amount := by
  have hportions : (weights.map (portion parts total)).sum ≤ parts := sum_portion_le h
  rcases parts.eq_zero_or_pos with rfl | hparts
  · simp [share, List.sum_eq_zero]
  · calc (weights.map (share parts total amount)).sum
        = ((weights.map fun w => portion parts total w * amount).map (· / parts)).sum := by
          rw [List.map_map]
          rfl
      _ ≤ (weights.map fun w => portion parts total w * amount).sum / parts := sum_div_le _
      _ = (weights.map (portion parts total)).sum * amount / parts := by
          rw [List.sum_map_mul_right]
      _ ≤ parts * amount / parts := Nat.div_le_div_right (Nat.mul_le_mul_right amount hportions)
      _ = amount := Nat.mul_div_cancel_left amount hparts

/-! ## Sums from below -/

section Field

variable {K : Type} [Field K] [LinearOrder K] [IsStrictOrderedRing K]

/-- Rounding down loses less than one. -/
lemma div_lt_add_one (a : ℕ) (hd : 0 < d) : (a : K) / d < (a / d : ℕ) + 1 := by
  have hd' : (0 : K) < d := Nat.cast_pos.mpr hd
  rw [div_lt_iff₀ hd']
  exact_mod_cast Nat.lt_mul_of_div_lt (Nat.lt_succ_self (a / d)) hd

/-- A share falls short of the exact one by less than a part of the amount and one. -/
lemma lt_share (hparts : 0 < parts) (htotal : 0 < total) (weight : ℕ) :
    ((weight : K) / total - 1 / parts) * amount - 1 < share parts total amount weight := by
  have hparts' : (0 : K) < parts := Nat.cast_pos.mpr hparts
  have hportion : (weight : K) / total - 1 / parts ≤ (portion parts total weight : K) / parts := by
    have h := div_lt_add_one (K := K) (weight * parts) htotal
    rw [le_div_iff₀ hparts']
    calc ((weight : K) / total - 1 / parts) * parts
        = ((weight * parts : ℕ) : K) / total - 1 := by
          rw [Nat.cast_mul]
          field_simp
      _ ≤ portion parts total weight := by
          rw [portion]
          linarith
  have hshare := div_lt_add_one (K := K) (portion parts total weight * amount) hparts
  calc ((weight : K) / total - 1 / parts) * amount - 1
      ≤ (portion parts total weight : K) / parts * amount - 1 := by gcongr
    _ = ((portion parts total weight * amount : ℕ) : K) / parts - 1 := by
        rw [Nat.cast_mul]
        ring
    _ < share parts total amount weight := by
        rw [share]
        linarith

/-- **Dust.**  What is not given away is less than a part of the amount and one for each weight. -/
theorem lt_sum_share (hparts : 0 < parts) (hne : weights ≠ []) (hsum : weights.sum = total)
    (htotal : 0 < total) :
    (amount : K) - (weights.map (share parts total amount)).sum <
      weights.length * ((amount : K) / parts + 1) := by
  have htotal' : (total : K) ≠ 0 := Nat.cast_ne_zero.mpr htotal.ne'
  have hexact : ∀ l : List ℕ,
      (l.map fun w : ℕ => ((w : K) / total - 1 / parts) * amount - 1).sum =
        ((l.sum : K) / total - l.length / parts) * amount - l.length := by
    intro l
    induction l with
    | nil => simp
    | cons w l ih =>
        rw [List.map_cons, List.sum_cons, ih, List.sum_cons, List.length_cons]
        push_cast
        ring
  have hlt := List.sum_lt_sum_of_ne_nil hne
    (fun w : ℕ => ((w : K) / total - 1 / parts) * amount - 1)
    (fun w => ((share parts total amount w : ℕ) : K))
    fun w _ => lt_share hparts htotal w
  rw [hexact, hsum, div_self htotal'] at hlt
  have hcast : ((weights.map (share parts total amount)).sum : K) =
      (weights.map fun w => ((share parts total amount w : ℕ) : K)).sum := by
    rw [Nat.cast_list_sum, List.map_map]
    rfl
  rw [hcast]
  calc (amount : K) - (weights.map fun w => ((share parts total amount w : ℕ) : K)).sum
      < amount - ((1 - (weights.length : K) / parts) * amount - weights.length) := by linarith
    _ = weights.length * ((amount : K) / parts + 1) := by ring

end Field

end Shares
