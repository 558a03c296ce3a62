import Mathlib.Data.List.Basic
import Mathlib.Tactic.Common

/-!
# Machines and guarded runs

A `Machine` is a partial step function together with the states it may start in.  Many tasks
sharing one memory are one machine: an action names the task that moves next, so a run is an
interleaving and a statement about every run is a statement about every interleaving.

`Reach M C s` says that some run of `M` ends in `s` with every one of its steps meeting `C`, a
condition on the state before the step and the action taken.  `C := fun _ _ => True` gives all
runs; a narrower `C` is how a result says "in every run in which …".

* `Reach.invariant` — the induction every safety result goes through.
* `exec`, `Reach.of_exec` — replaying a list of actions, so that a concrete run is one
  evaluation.
-/

namespace Interleaving

/-- A machine over states `σ` and actions `α`: where it may start, and what an action does,
`none` when the action cannot be taken. -/
structure Machine (σ α : Type) where
  init : σ → Prop
  step : σ → α → Option σ

variable {σ α : Type} {M : Machine σ α} {C : σ → α → Prop}

/-- The states in which a run of `M` can end whose every step meets `C`. -/
inductive Reach (M : Machine σ α) (C : σ → α → Prop) : σ → Prop
  | init {s : σ} : M.init s → Reach M C s
  | step {s s' : σ} {a : α} : Reach M C s → C s a → M.step s a = some s' → Reach M C s'

/-- The condition that excludes no run. -/
def Any (_ : σ) (_ : α) : Prop := True

instance : DecidableRel (Any : σ → α → Prop) := fun _ _ => isTrue trivial

/-- **Invariants.**  What holds initially and is kept by every step that meets the condition
holds in every state reached.  The step may use that the state it starts in is reached, hence
any invariant proved before. -/
theorem Reach.invariant {I : σ → Prop} (hinit : ∀ s, M.init s → I s)
    (hstep : ∀ s a s', Reach M C s → I s → C s a → M.step s a = some s' → I s')
    {s : σ} (h : Reach M C s) : I s := by
  induction h with
  | init h0 => exact hinit _ h0
  | step hr hc hs ih => exact hstep _ _ _ hr ih hc hs

/-- A run that meets a condition meets any weaker one. -/
theorem Reach.mono {D : σ → α → Prop} (hCD : ∀ s a, C s a → D s a) {s : σ} (h : Reach M C s) :
    Reach M D s := by
  induction h with
  | init h0 => exact .init h0
  | step _ hc hs ih => exact .step ih (hCD _ _ hc) hs

/-! ## Replaying a run -/

/-- Takes the actions in order, stopping at the first that cannot be taken or fails the
condition. -/
def exec (M : Machine σ α) (C : σ → α → Prop) [DecidableRel C] : σ → List α → Option σ
  | s, [] => some s
  | s, a :: as => if C s a then (M.step s a).bind fun s' => exec M C s' as else none

/-- Replaying takes the first step, then the rest. -/
lemma exec_cons_eq_some {s s' : σ} {a : α} {as : List α} :
    exec M Any s (a :: as) = some s' ↔ ∃ s₁, M.step s a = some s₁ ∧ exec M Any s₁ as = some s' := by
  rw [exec, if_pos (show Any s a from trivial), Option.bind_eq_some_iff]

/-- A replayed list of actions is a run. -/
theorem Reach.of_exec [DecidableRel C] :
    ∀ {s s' : σ} {as : List α}, Reach M C s → exec M C s as = some s' → Reach M C s'
  | s, s', [], hs, h => by
      simp only [exec, Option.some.injEq] at h
      exact h ▸ hs
  | s, s', a :: as, hs, h => by
      simp only [exec] at h
      split at h
      · rename_i hc
        obtain ⟨s₁, h₁, h₂⟩ := Option.bind_eq_some_iff.mp h
        exact Reach.of_exec (.step hs hc h₁) h₂
      · cases h

/-- If replaying from a start ends in a state with `p`, such a state is reached. -/
theorem exists_of_exec [DecidableRel C] {s : σ} {as : List α} {p : σ → Bool} (hs : M.init s)
    (h : (exec M C s as).any p = true) : ∃ s', Reach M C s' ∧ p s' = true := by
  cases he : exec M C s as with
  | none => simp [he] at h
  | some s' => exact ⟨s', Reach.of_exec (.init hs) he, by simpa [he] using h⟩

end Interleaving
