import Mathlib.Data.List.Basic
import Mathlib.Tactic.Common

/-!
# Numbered slots

A list that is only ever extended at its end and overwritten in place gives its entries stable
numbers, as a table of spawned tasks does.  The lemmas say what is in which slot afterwards.
-/

namespace Interleaving

variable {α : Type} {l : List α} {x y : α} {i j : ℕ}

/-- After an append, a slot is an old one or the new one. -/
lemma slot_append : (l ++ [x])[j]? = some y ↔ l[j]? = some y ∨ (j = l.length ∧ x = y) := by
  rcases Nat.lt_trichotomy j l.length with h | h | h
  · rw [List.getElem?_append_left h]
    exact ⟨.inl, fun h' => h'.elim id fun ⟨h', _⟩ => absurd h' (Nat.ne_of_lt h)⟩
  · subst h
    simp
  · have hnone : l[j]? = none := List.getElem?_eq_none (Nat.le_of_lt h)
    have hnone' : (l ++ [x])[j]? = none := List.getElem?_eq_none (by simp; omega)
    simp [hnone, hnone', Nat.ne_of_gt h]

/-- What is in a slot stays there when entries are appended. -/
lemma slot_append_left (h : l[j]? = some y) (l' : List α) : (l ++ l')[j]? = some y := by
  rw [List.getElem?_append_left (List.getElem?_eq_some_iff.mp h).1]
  exact h

/-- After overwriting slot `i`, which was in use, it holds the new value and the others what
they held. -/
lemma slot_set (hi : l[i]? = some x) :
    (l.set i y)[j]? = if i = j then some y else l[j]? := by
  rw [List.getElem?_set]
  split
  · simp [(List.getElem?_eq_some_iff.mp hi).1]
  · rfl

/-- An entry is still there after overwriting slot `i`, unless it was the one overwritten. -/
lemma mem_set_or (hi : l[i]? = some x) {u : α} (hu : u ∈ l) : u = x ∨ u ∈ l.set i y := by
  obtain ⟨j, hj⟩ := List.getElem?_of_mem hu
  by_cases hij : i = j
  · subst hij
    exact .inl (by simpa [hi] using hj.symm)
  · exact .inr (List.mem_of_getElem? (by rw [slot_set hi, if_neg hij]; exact hj))

/-- Overwriting a slot does not show in what `f` sees of it, if `f` sees no difference. -/
lemma map_set_of_eq {β : Type} {f : α → β} (hi : l[i]? = some x) (hf : f y = f x) :
    (l.set i y).map f = l.map f := by
  refine List.ext_getElem? ?_
  intro j
  rw [List.getElem?_map, List.getElem?_map, slot_set hi]
  split
  · rename_i hij
    subst hij
    simp [hi, hf]
  · rfl

end Interleaving
