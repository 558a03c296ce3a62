import OrePool.Core.Machine

/-!
# Observers

A property may speak of things a run leaves no trace of: what a task read before it acted, when
something arrived.  `Machine.observe` runs a machine next to an `Observer` that writes down what
it sees at each step.  No step looks at the notes and the observer refuses none, so the runs
observed are the runs there are (`Reach.forget`); conditions and properties may look at both.
-/

namespace Interleaving

variable {σ α η : Type}

/-- Who takes notes `η`: what they say at the start and how a step adds to them. -/
structure Observer (σ α η : Type) where
  start : σ → η
  note : σ → α → η → η

/-- A machine with an observer. -/
def Machine.observe (M : Machine σ α) (O : Observer σ α η) : Machine (σ × η) α where
  init x := M.init x.1 ∧ x.2 = O.start x.1
  step x a := (M.step x.1 a).map fun s' => (s', O.note x.1 a x.2)

variable {M : Machine σ α} {O : Observer σ α η} {C : σ × η → α → Prop} {D : σ → α → Prop}

/-- Forgetting the notes leaves a run of the machine. -/
theorem Reach.forget (hCD : ∀ x a, C x a → D x.1 a) {x : σ × η}
    (h : Reach (M.observe O) C x) : Reach M D x.1 := by
  induction h with
  | init h0 => exact .init h0.1
  | step _ hc hs ih =>
      obtain ⟨s', hs', rfl⟩ := Option.map_eq_some_iff.mp hs
      exact .step ih (hCD _ _ hc) hs'

/-- **Invariants of the state and the notes.** -/
theorem Reach.observed_invariant {I : σ → η → Prop} (hinit : ∀ s, M.init s → I s (O.start s))
    (hstep : ∀ s n a s', Reach (M.observe O) C (s, n) → I s n → C (s, n) a →
      M.step s a = some s' → I s' (O.note s a n))
    {x : σ × η} (h : Reach (M.observe O) C x) : I x.1 x.2 := by
  refine h.invariant (I := fun x => I x.1 x.2) (fun x h0 => h0.2 ▸ hinit x.1 h0.1) ?_
  intro x a y hr hi hc hs
  obtain ⟨s', hs', rfl⟩ := Option.map_eq_some_iff.mp hs
  exact hstep x.1 x.2 a s' hr hi hc hs'

end Interleaving
