import Mathlib.Order.Lattice
import Mathlib.Tactic.Common

/-!
# Folds that join

A step that joins something to what is observed of a state, in an order with suprema, can be taken
in any order and any number of times: what is observed after a list of them depends on its elements
alone (`obs_foldl_congr`).  The step need only join where it applies, as long as a step leaves
applicable what was.
-/

namespace Joins

variable {σ α L : Type} [SemilatticeSup L] {step : σ → α → σ} {obs : σ → L} {f : α → L}
  {applies : σ → α → Prop} {s : σ} {l l' : List α}

/-- Where a step applies it joins its contribution to what is observed, and leaves applicable what
was. -/
structure Joining (step : σ → α → σ) (obs : σ → L) (f : α → L) (applies : σ → α → Prop) : Prop where
  join : ∀ s a, applies s a → obs (step s a) = obs s ⊔ f a
  keep : ∀ s a b, applies s a → applies s b → applies (step s a) b

/-- What the steps that apply keep is kept by a list of them. -/
theorem Joining.invariant (h : Joining step obs f applies) {I : σ → Prop}
    (hI : ∀ s a, applies s a → I s → I (step s a)) (hs : I s) (hl : ∀ a ∈ l, applies s a) :
    I (l.foldl step s) := by
  induction l generalizing s with
  | nil => exact hs
  | cons a l ih =>
      have ha : applies s a := hl a List.mem_cons_self
      exact ih (hI s a ha hs) fun b hb => h.keep s a b ha (hl b (List.mem_cons_of_mem a hb))

/-- What is observed after a list of steps is the least upper bound of what was before and of the
contributions. -/
theorem obs_foldl_le_iff (h : Joining step obs f applies) (hl : ∀ a ∈ l, applies s a) {u : L} :
    obs (l.foldl step s) ≤ u ↔ obs s ≤ u ∧ ∀ a ∈ l, f a ≤ u := by
  induction l generalizing s with
  | nil => simp
  | cons a l ih =>
      have ha : applies s a := hl a List.mem_cons_self
      have hrest : ∀ b ∈ l, applies (step s a) b :=
        fun b hb => h.keep s a b ha (hl b (List.mem_cons_of_mem a hb))
      rw [List.foldl_cons, ih hrest, h.join s a ha, sup_le_iff, List.forall_mem_cons, and_assoc]

/-- **Order and repetition do not matter.** -/
theorem obs_foldl_congr (h : Joining step obs f applies) (hl : ∀ a ∈ l, applies s a)
    (hmem : ∀ a, a ∈ l ↔ a ∈ l') : obs (l.foldl step s) = obs (l'.foldl step s) := by
  have hl' : ∀ a ∈ l', applies s a := fun a ha => hl a ((hmem a).mpr ha)
  refine eq_of_forall_ge_iff fun u => ?_
  rw [obs_foldl_le_iff h hl, obs_foldl_le_iff h hl']
  refine and_congr_right fun _ => ?_
  exact ⟨fun hu a ha => hu a ((hmem a).mpr ha), fun hu a ha => hu a ((hmem a).mp ha)⟩

end Joins
