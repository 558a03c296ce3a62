import Mathlib.Data.List.Basic
import Mathlib.Data.List.Sort
import Mathlib.Tactic.Common

/-!
# Order statistics

The `k`-th smallest element of a list is told by how many elements are below it and how many are not
above it, so it does not depend on the order of the list (`KthSmallest.unique`).  It grows with `k`
(`KthSmallest.le`), and it is what stands at the place of `k` when the list is sorted
(`kthSmallest_getElem`).

In a list with its elements in strict order the place of an element is the number of those before it
(`countP_getElem`), and a block of places is a filter on that number (`filter_block`).
-/

namespace OrderStatistics

variable {α : Type}

/-- A list is counted in two parts. -/
lemma countP_eq_take_add_drop (p : α → Bool) (l : List α) (i : ℕ) :
    l.countP p = (l.take i).countP p + (l.drop i).countP p := by
  rw [← List.countP_append, List.take_append_drop]

/-! ## The smallest but some -/

section Kth

variable [LE α] [LT α] [DecidableLE α] [DecidableLT α]

/-- `a` is the `k`-th smallest element, counted from one. -/
structure KthSmallest (l : List α) (k : ℕ) (a : α) : Prop where
  mem : a ∈ l
  below : l.countP (· < a) < k
  upTo : k ≤ l.countP (· ≤ a)

variable {l l' : List α} {j k : ℕ} {a b : α}

lemma KthSmallest.perm (h : KthSmallest l k a) (hperm : l.Perm l') : KthSmallest l' k a :=
  ⟨hperm.mem_iff.mp h.mem, hperm.countP_eq _ ▸ h.below, hperm.countP_eq _ ▸ h.upTo⟩

/-- No element is above the last. -/
lemma KthSmallest.le_last (h : KthSmallest l l.length a) (hb : b ∈ l) : b ≤ a := by
  have hall := List.countP_eq_length.mp (List.countP_le_length.antisymm h.upTo)
  exact of_decide_eq_true (hall b hb)

variable [Std.IsLinearOrder α] [Std.LawfulOrderLT α]

/-- **Monotony.** -/
theorem KthSmallest.le (hjk : j ≤ k) (ha : KthSmallest l j a) (hb : KthSmallest l k b) : a ≤ b := by
  refine Std.not_lt.mp fun hlt => ?_
  have hcount : l.countP (· ≤ b) ≤ l.countP (· < a) := by
    refine List.countP_mono_left fun x _ hx => ?_
    exact decide_eq_true (Std.lt_of_le_of_lt (of_decide_eq_true hx) hlt)
  have hbelow := ha.below
  have hupTo := hb.upTo
  omega

/-- **There is one.** -/
theorem KthSmallest.unique (ha : KthSmallest l k a) (hb : KthSmallest l k b) : a = b :=
  Std.le_antisymm (ha.le le_rfl hb) (hb.le le_rfl ha)

/-- What stands in a sorted list has its place for its rank. -/
theorem kthSmallest_getElem (hsorted : l.Pairwise (· ≤ ·)) {i : ℕ} (hi : i < l.length) :
    KthSmallest l (i + 1) l[i] := by
  rw [List.pairwise_iff_getElem] at hsorted
  refine ⟨List.getElem_mem hi, ?_, ?_⟩
  · have hrest : (l.drop i).countP (· < l[i]) = 0 := by
      refine List.countP_eq_zero.mpr fun x hx hlt => ?_
      obtain ⟨m, hm, rfl⟩ := List.mem_drop_iff_getElem.mp hx
      have hle : l[i] ≤ l[i + m] := by
        rcases m.eq_zero_or_pos with rfl | hpos
        · exact Std.le_refl _
        · exact hsorted i (i + m) hi (by omega) (by omega)
      exact Std.not_lt.mpr hle (of_decide_eq_true hlt)
    have hfront : (l.take i).countP (· < l[i]) ≤ (l.take i).length := List.countP_le_length
    rw [countP_eq_take_add_drop _ l i, hrest]
    rw [List.length_take] at hfront
    omega
  · have hall : (l.take (i + 1)).countP (· ≤ l[i]) = (l.take (i + 1)).length := by
      refine List.countP_eq_length.mpr fun x hx => decide_eq_true ?_
      obtain ⟨m, hm, rfl⟩ := List.mem_take_iff_getElem.mp hx
      rcases Nat.lt_or_ge m i with hlt | hge
      · exact hsorted m i (by omega) hi hlt
      · obtain rfl : m = i := by omega
        exact Std.le_refl _
    rw [List.length_take, Nat.min_eq_left hi] at hall
    have hle : (l.take (i + 1)).countP (· ≤ l[i]) ≤ l.countP (· ≤ l[i]) :=
      (List.take_sublist _ l).countP_le
    rwa [hall] at hle

end Kth

/-! ## Places -/

section Places

variable {l : List α}

/-- The place of an element is the number of those that come before it. -/
lemma countP_getElem {r : α → α → Prop} [DecidableRel r] (hl : l.Pairwise r)
    (hasymm : ∀ a b, r a b → ¬ r b a) {i : ℕ} (hi : i < l.length) :
    l.countP (fun a => r a l[i]) = i := by
  rw [List.pairwise_iff_getElem] at hl
  have hfront : (l.take i).countP (fun a => r a l[i]) = (l.take i).length := by
    refine List.countP_eq_length.mpr fun x hx => decide_eq_true ?_
    obtain ⟨m, hm, rfl⟩ := List.mem_take_iff_getElem.mp hx
    exact hl m i (by omega) hi (by omega)
  have hrest : (l.drop i).countP (fun a => r a l[i]) = 0 := by
    refine List.countP_eq_zero.mpr fun x hx hr => ?_
    have hr := of_decide_eq_true hr
    obtain ⟨m, hm, rfl⟩ := List.mem_drop_iff_getElem.mp hx
    rcases m.eq_zero_or_pos with rfl | hpos
    · exact hasymm _ _ hr hr
    · exact hasymm _ _ (hl i (i + m) hi (by omega) (by omega)) hr
  rw [countP_eq_take_add_drop _ l i, hfront, hrest, List.length_take]
  omega

/-- A block of `n` places. -/
lemma filter_block {place : α → ℕ} (hplace : ∀ i (hi : i < l.length), place l[i] = i) {n : ℕ}
    (hn : 0 < n) (j : ℕ) :
    l.filter (fun a => place a / n = j) = (l.drop (j * n)).take n := by
  have hfront : (l.take (j * n)).filter (fun a => place a / n = j) = [] := by
    refine List.filter_eq_nil_iff.mpr fun x hx hp => ?_
    obtain ⟨m, hm, rfl⟩ := List.mem_take_iff_getElem.mp hx
    have hp := of_decide_eq_true hp
    rw [hplace] at hp
    have hlt := (Nat.div_lt_iff_lt_mul hn).mpr (Nat.lt_min.mp hm).1
    omega
  have hblock : ((l.drop (j * n)).take n).filter (fun a => place a / n = j) =
      (l.drop (j * n)).take n := by
    refine List.filter_eq_self.mpr fun x hx => decide_eq_true ?_
    obtain ⟨m, hm, rfl⟩ := List.mem_take_iff_getElem.mp hx
    rw [List.getElem_drop, hplace, Nat.add_comm, Nat.add_mul_div_right _ _ hn,
      Nat.div_eq_of_lt (Nat.lt_min.mp hm).1, Nat.zero_add]
  have hrest : ((l.drop (j * n)).drop n).filter (fun a => place a / n = j) = [] := by
    refine List.filter_eq_nil_iff.mpr fun x hx hp => ?_
    obtain ⟨m, hm, rfl⟩ := List.mem_drop_iff_getElem.mp hx
    have hp := of_decide_eq_true hp
    have hindex : j * n + (n + m) = m + (j + 1) * n := by
      rw [Nat.add_mul, Nat.one_mul]
      omega
    rw [List.getElem_drop, hplace, hindex, Nat.add_mul_div_right _ _ hn] at hp
    generalize m / n = q at hp
    omega
  calc l.filter (fun a => place a / n = j)
      = (l.take (j * n) ++ ((l.drop (j * n)).take n ++ (l.drop (j * n)).drop n)).filter
          (fun a => place a / n = j) := by
        rw [List.take_append_drop, List.take_append_drop]
    _ = (l.drop (j * n)).take n := by
        rw [List.filter_append, List.filter_append, hfront, hblock, hrest, List.nil_append,
          List.append_nil]

end Places

end OrderStatistics
