import Mathlib.Order.Monotone.Basic

/-!
# Growth

How much a quantity that is read again and again has grown: the sum of its rises, whatever it has
fallen by in between.

* `Growth.growth_add_rise` — the rise between two readings fits into what is added to the growth,
  so rises over intervals that do not overlap add up to no more.
* `Growth.Rising` — the quantity does not fall over an interval, so that it is at least at its end
  what it is at its beginning (`Rising.le`).
* `Growth.growth_eq` — for a quantity that never falls it is the difference of its last reading
  and its first.
-/

namespace Growth

variable {b b' : ℕ → ℕ} {i j k : ℕ}

/-- The sum of the rises of `b` up to reading `k`. -/
def growth (b : ℕ → ℕ) : ℕ → ℕ
  | 0 => 0
  | k + 1 => growth b k + (b (k + 1) - b k)

lemma growth_mono (b : ℕ → ℕ) : Monotone (growth b) :=
  monotone_nat_of_le_succ fun _ => Nat.le_add_right _ _

/-- **Rises add up.**  The rise over an interval fits into the growth over it. -/
theorem growth_add_rise (h : i ≤ j) : growth b i + (b j - b i) ≤ growth b j := by
  induction j, h using Nat.le_induction with
  | base => rw [Nat.sub_self, Nat.add_zero]
  | succ j _ ih =>
      rw [growth]
      omega

/-- Only the readings so far count. -/
lemma growth_congr (h : ∀ i ≤ k, b i = b' i) : growth b k = growth b' k := by
  induction k with
  | zero => rfl
  | succ k ih =>
      rw [growth, growth, ih fun i hi => h i (Nat.le_succ_of_le hi), h (k + 1) le_rfl,
        h k (Nat.le_succ k)]

/-! ## Without a fall -/

/-- `b` does not fall from `i` to `j`. -/
def Rising (b : ℕ → ℕ) (i j : ℕ) : Prop := ∀ k < j, i ≤ k → b k ≤ b (k + 1)

instance : Decidable (Rising b i j) := inferInstanceAs (Decidable (∀ k < j, _ → _))

/-- There is no fall in an interval that is empty. -/
lemma Rising.of_le (h : j ≤ i) : Rising b i j := fun _ hlt hle => absurd hlt (by omega)

lemma Rising.shrink {i' j' : ℕ} (h : Rising b i j) (hi : i ≤ i') (hj : j' ≤ j) : Rising b i' j' :=
  fun k hlt hle => h k (hlt.trans_le hj) (hi.trans hle)

lemma Rising.le (h : Rising b i j) (hij : i ≤ j) : b i ≤ b j := by
  induction j, hij using Nat.le_induction with
  | base => exact le_rfl
  | succ j hle ih =>
      exact (ih (h.shrink le_rfl (Nat.le_succ j))).trans (h j (Nat.lt_succ_self j) hle)

lemma Rising.congr (h : Rising b i j) (heq : ∀ k ≤ j, b k = b' k) : Rising b' i j := by
  intro k hlt hle
  rw [← heq k hlt.le, ← heq (k + 1) hlt]
  exact h k hlt hle

/-- A quantity that has never fallen has grown by the difference. -/
theorem growth_eq (h : Rising b 0 k) : growth b k + b 0 = b k := by
  induction k with
  | zero => exact Nat.zero_add _
  | succ k ih =>
      have hrise := h k (Nat.lt_succ_self k) (Nat.zero_le k)
      have hbefore := ih (h.shrink le_rfl (Nat.le_succ k))
      rw [growth]
      omega

end Growth
