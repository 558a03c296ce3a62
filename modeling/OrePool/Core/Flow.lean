import Mathlib.Data.Set.Insert
import OrePool.Core.Observer

/-!
# Flows

What a machine handles lies about in its state: in tables, in the locals of tasks, in messages
sent.  A `Flow` says what lies about where and what a step lets in from outside; everything else
that turns up after a step is a copy of something that was there.

* `Flow.traced` — what can be said of everything as it is let in, and is not lost by a step, can be
  said of everything there is.
* `Flow.traced_observed` — the same of what an observer has noted, so of what came in along the way.
-/

namespace Interleaving

variable {σ α η : Type}

/-- Where items are in a state of `M`, and which a step lets in. -/
structure Flow (M : Machine σ α) (ι : Type) where
  items : σ → Set ι
  source : σ → α → Set ι
  init : ∀ s, M.init s → items s = ∅
  step : ∀ s a s', Reach M Any s → M.step s a = some s' → items s' ⊆ items s ∪ source s a

variable {M : Machine σ α} {O : Observer σ α η} {ι : Type}

/-- **Tracing back.**  If `P` holds of what is let in when it is let in, and no step takes it
away, it holds of every item of every state reached. -/
theorem Flow.traced (F : Flow M ι) {C : σ → α → Prop} {P : σ → ι → Prop}
    (hkeep : ∀ s a s', M.step s a = some s' → ∀ x, P s x → P s' x)
    (hsource : ∀ s a s', Reach M C s → M.step s a = some s' → ∀ x ∈ F.source s a, P s' x)
    {s : σ} (h : Reach M C s) : ∀ x ∈ F.items s, P s x := by
  refine h.invariant (I := fun s => ∀ x ∈ F.items s, P s x) ?_ ?_
  · intro s h0 x hx
    rw [F.init s h0] at hx
    cases hx
  · intro s a s' hr hi _ hs x hx
    rcases F.step s a s' (hr.mono fun _ _ _ => trivial) hs hx with hx | hx
    · exact hkeep s a s' hs x (hi x hx)
    · exact hsource s a s' hr hs x hx

/-- A flow under observation. -/
def Flow.observe (F : Flow M ι) (O : Observer σ α η) : Flow (M.observe O) ι where
  items y := F.items y.1
  source y := F.source y.1
  init _ h := F.init _ h.1
  step y a y' hr hs := by
    obtain ⟨s', hs', rfl⟩ := Option.map_eq_some_iff.mp hs
    exact F.step y.1 a s' (hr.forget fun _ _ _ => trivial) hs'

/-- Tracing back with an observer's notes. -/
theorem Flow.traced_observed (F : Flow M ι) {C : σ × η → α → Prop} {P : σ → η → ι → Prop}
    (hkeep : ∀ s n a s', M.step s a = some s' → ∀ x, P s n x → P s' (O.note s a n) x)
    (hsource : ∀ s n a s', Reach (M.observe O) C (s, n) → M.step s a = some s' →
      ∀ x ∈ F.source s a, P s' (O.note s a n) x)
    {y : σ × η} (h : Reach (M.observe O) C y) : ∀ x ∈ F.items y.1, P y.1 y.2 x := by
  refine (F.observe O).traced (P := fun y => P y.1 y.2) ?_ ?_ h
  · intro y a y' hs x hx
    obtain ⟨s', hs', rfl⟩ := Option.map_eq_some_iff.mp hs
    exact hkeep y.1 y.2 a s' hs' x hx
  · intro y a y' hr hs x hx
    obtain ⟨s', hs', rfl⟩ := Option.map_eq_some_iff.mp hs
    exact hsource y.1 y.2 a s' hr hs' x hx

end Interleaving
