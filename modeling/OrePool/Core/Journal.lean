import Mathlib.Data.List.Basic
import Mathlib.Tactic.Common

/-!
# Journals

A journal lists events, newest first, each with the party behind it.  Five readings of it
are used to state what a run has done so far:

* `eventsBy who f` — what one party did, seen through `f`;
* `latest f` — the latest event that `f` keeps, and who was behind it;
* `since cut` — the events after the latest one that meets `cut`, the part of a history that
  belongs to the current period when `cut` marks where a period begins;
* `after j₀` — the events since the journal was `j₀`;
* `Each P` — every event stands in the relation `P` to what came before it.
-/

namespace Interleaving

variable {A E β : Type}

/-! ## One party's events -/

section EventsBy

variable [DecidableEq A] {who w : A} {f : E → Option β} {e : E} {j : List (A × E)}

/-- The events of `who` that `f` keeps, newest first. -/
def eventsBy (who : A) (f : E → Option β) (j : List (A × E)) : List β :=
  j.filterMap fun ev => if ev.1 = who then f ev.2 else none

lemma eventsBy_cons_self : eventsBy who f ((who, e) :: j) = (f e).toList ++ eventsBy who f j := by
  cases h : f e <;> simp [eventsBy, h]

lemma eventsBy_cons_ne (h : w ≠ who) : eventsBy who f ((w, e) :: j) = eventsBy who f j := by
  simp [eventsBy, h]

/-- A party that has not acted has no events. -/
lemma eventsBy_eq_nil (h : ∀ e, (who, e) ∉ j) : eventsBy who f j = [] := by
  rw [eventsBy, List.filterMap_eq_nil_iff]
  rintro ⟨w, e⟩ hm
  have hw : w ≠ who := fun hw => h e (hw ▸ hm)
  simp [hw]

end EventsBy

/-! ## The latest event of a kind -/

section Latest

variable {w : A} {f : E → Option β} {e : E} {j : List (A × E)} {x : A × β}

/-- The latest event that `f` keeps. -/
def latest (f : E → Option β) (j : List (A × E)) : Option (A × β) :=
  j.findSome? fun ev => (f ev.2).map fun b => (ev.1, b)

lemma latest_cons_some {b : β} (h : f e = some b) : latest f ((w, e) :: j) = some (w, b) := by
  simp [latest, h]

lemma latest_cons_none (h : f e = none) : latest f ((w, e) :: j) = latest f j := by
  simp [latest, h]

lemma mem_of_latest (h : latest f j = some x) : ∃ e, (x.1, e) ∈ j ∧ f e = some x.2 := by
  obtain ⟨ev, hm, he⟩ := List.exists_of_findSome?_eq_some h
  obtain ⟨b, hb, rfl⟩ := Option.map_eq_some_iff.mp he
  exact ⟨ev.2, hm, hb⟩

end Latest

/-! ## The current period -/

section Since

variable {cut : A × E → Bool} {ev : A × E} {j : List (A × E)}

/-- The events after the latest that meets `cut`, or all if none does. -/
def since (cut : A × E → Bool) (j : List (A × E)) : List (A × E) :=
  j.takeWhile fun ev => !cut ev

@[simp] lemma since_nil : since cut [] = [] := rfl

/-- A cut begins a new period. -/
lemma since_cons_cut (h : cut ev = true) : since cut (ev :: j) = [] := by
  simp [since, h]

/-- Any other event belongs to the running one. -/
lemma since_cons (h : cut ev = false) : since cut (ev :: j) = ev :: since cut j := by
  simp [since, h]

lemma mem_of_mem_since (h : ev ∈ since cut j) : ev ∈ j :=
  (List.takeWhile_prefix _).subset h

end Since

/-! ## From a moment on -/

section After

variable {ev : A × E} {j₀ j : List (A × E)}

/-- The events of `j` since the journal was `j₀`. -/
def after (j₀ j : List (A × E)) : List (A × E) := j.take (j.length - j₀.length)

lemma after_cons (h : j₀.length ≤ j.length) : after j₀ (ev :: j) = ev :: after j₀ j := by
  rw [after, List.length_cons, Nat.succ_sub h, List.take_succ_cons, ← after]

end After

/-! ## Every event at its time -/

section Each

variable {P : A × E → List (A × E) → Prop} {ev : A × E} {j : List (A × E)}

/-- Of every event, with the journal as it was before. -/
def Each (P : A × E → List (A × E) → Prop) (j : List (A × E)) : Prop :=
  ∀ newer ev older, j = newer ++ ev :: older → P ev older

lemma Each.nil : Each P [] := fun newer _ _ h => by simp at h

lemma Each.cons (hev : P ev j) (h : Each P j) : Each P (ev :: j) := by
  intro newer x older hx
  cases newer with
  | nil =>
      obtain ⟨rfl, rfl⟩ := List.cons.inj hx
      exact hev
  | cons y newer => exact h newer x older (List.cons.inj hx).2

end Each

end Interleaving
