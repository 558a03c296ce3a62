import Mathlib.Algebra.Order.BigOperators.Group.List
import OrePool.Core.Observer

/-!
# Budgets

That something happens at most as often as something else is shown by what a state holds in
reserve: a step that spends takes from the reserve, one that brings something in may add to it.
The quantities are of any ordered monoid, so that a budget can be kept by name, as a multiset, as
well as in numbers.

* `Budget.covered` — in every run what has been spent and what is held is covered by what has come
  in.
* `held` — what the tasks of a table hold together, and what becomes of it when one of them moves.
* `Budget.trans` — what one budget spends may be what another brings in.
-/

namespace Interleaving

variable {σ α η β : Type} [AddCommMonoid β]

/-- The quantity `g` of the notes is the sum of `f` over the steps. -/
structure Observer.Sums (O : Observer σ α η) (f : σ → α → β) (g : η → β) : Prop where
  start : ∀ s, g (O.start s) = 0
  note : ∀ s a n, g (O.note s a n) = g n + f s a

/-! ## What tasks hold -/

section Held

variable {τ : Type} {f : τ → β} {tasks : List τ} {i : ℕ} {t t' : τ}

/-- What a table of tasks holds together. -/
def held (f : τ → β) (tasks : List τ) : β := (tasks.map f).sum

@[simp] lemma held_nil : held f [] = 0 := rfl

lemma held_append (tasks' : List τ) : held f (tasks ++ tasks') = held f tasks + held f tasks' := by
  rw [held, List.map_append, List.sum_append, held, held]

lemma held_singleton : held f [t] = f t := by
  rw [held, List.map_singleton, List.sum_singleton]

/-- A task that moves keeps the rest as it is. -/
lemma held_set (h : tasks[i]? = some t) :
    held f (tasks.set i t') + f t = held f tasks + f t' := by
  induction tasks generalizing i with
  | nil => cases h
  | cons u tasks ih =>
      simp only [held, List.map_cons, List.sum_cons] at ih ⊢
      cases i with
      | zero =>
          obtain rfl : u = t := by simpa using h
          rw [List.set_cons_zero, List.map_cons, List.sum_cons, add_right_comm, add_comm (f t'),
            add_right_comm]
      | succ i =>
          rw [List.set_cons_succ, List.map_cons, List.sum_cons, add_assoc, add_assoc,
            ih (by simpa using h)]

end Held

/-! ## Budgets -/

variable [PartialOrder β] [IsOrderedAddMonoid β]

/-- What the states of `M` hold, what a step brings in and what it spends, in runs whose steps
meet `C`. -/
structure Budget (M : Machine σ α) (C : σ → α → Prop) (β : Type) [AddCommMonoid β]
    [PartialOrder β] where
  holds : σ → β
  gain : σ → α → β
  spend : σ → α → β
  init : ∀ s, M.init s → holds s ≤ 0
  step : ∀ s a s', Reach M C s → C s a → M.step s a = some s' →
    holds s' + spend s a ≤ holds s + gain s a

variable {M : Machine σ α} {C : σ → α → Prop} {O : Observer σ α η}

/-- **Covered.**  What has been spent, with what is held, does not exceed what has come in. -/
theorem Budget.covered (B : Budget M C β) {spent gained : η → β} (hspent : O.Sums B.spend spent)
    (hgained : O.Sums B.gain gained) {D : σ × η → α → Prop} (hD : ∀ x a, D x a → C x.1 a)
    {x : σ × η} (h : Reach (M.observe O) D x) : B.holds x.1 + spent x.2 ≤ gained x.2 := by
  refine h.observed_invariant (I := fun s n => B.holds s + spent n ≤ gained n) ?_ ?_
  · intro s h0
    rw [hspent.start, hgained.start, add_zero]
    exact B.init s h0
  · intro s n a s' hr hi hc hs
    have hstep := B.step s a s' (hr.forget hD) (hD _ _ hc) hs
    calc B.holds s' + spent (O.note s a n)
        = B.holds s' + B.spend s a + spent n := by rw [hspent.note, add_comm (spent n), add_assoc]
      _ ≤ B.holds s + B.gain s a + spent n := add_le_add_left hstep _
      _ = B.holds s + spent n + B.gain s a := add_right_comm _ _ _
      _ ≤ gained n + B.gain s a := add_le_add_left hi _
      _ = gained (O.note s a n) := (hgained.note s a n).symm

/-- One budget after the other. -/
def Budget.trans (B B' : Budget M C β) (h : B'.gain = B.spend) : Budget M C β where
  holds s := B.holds s + B'.holds s
  gain := B.gain
  spend := B'.spend
  init s h0 := (add_le_add (B.init s h0) (B'.init s h0)).trans_eq (add_zero 0)
  step s a s' hr hc hs := by
    have h₁ := B.step s a s' hr hc hs
    have h₂ := B'.step s a s' hr hc hs
    rw [h] at h₂
    calc B.holds s' + B'.holds s' + B'.spend s a
        = B.holds s' + (B'.holds s' + B'.spend s a) := add_assoc _ _ _
      _ ≤ B.holds s' + (B'.holds s + B.spend s a) := add_le_add_right h₂ _
      _ = B.holds s' + B.spend s a + B'.holds s := by rw [add_comm (B'.holds s), add_assoc]
      _ ≤ B.holds s + B.gain s a + B'.holds s := add_le_add_left h₁ _
      _ = B.holds s + B'.holds s + B.gain s a := add_right_comm _ _ _

end Interleaving
