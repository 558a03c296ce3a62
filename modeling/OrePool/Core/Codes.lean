import Mathlib.Data.List.Basic
import Mathlib.Data.Vector.Basic
import Mathlib.Logic.Equiv.Basic
import Mathlib.Tactic.Common

/-!
# Codes of fixed width

A `Code` writes each value with the same number of symbols and reads one back from the front of a
text.  What is read is exactly what would have been written, so that a value has one text and a text
at most one value.

* `Code.vector` — symbols as they are.
* `Code.prod` — one value after another.
* `Code.transport` — the same texts for other values, along a bijection.
* `Code.readAll` — a text that is one value and nothing else.
-/

namespace Codes

/-- A code for `α` with `width` symbols of `β`. -/
structure Code (β α : Type) where
  width : ℕ
  write : α → List β
  read : List β → Option (α × List β)
  length_write : ∀ a, (write a).length = width
  read_eq_some : ∀ {l a rest}, read l = some (a, rest) ↔ l = write a ++ rest

variable {β α γ : Type}

/-! ## Reading -/

lemma Code.read_write (c : Code β α) (a : α) (rest : List β) :
    c.read (c.write a ++ rest) = some (a, rest) :=
  c.read_eq_some.mpr rfl

/-- No two values have the same text. -/
lemma Code.write_injective (c : Code β α) : Function.Injective c.write := by
  intro a b h
  have ha := c.read_write a []
  rw [h, c.read_write b []] at ha
  exact (Prod.mk.inj (Option.some.inj ha)).1.symm

/-- The value of a whole text. -/
def Code.readAll (c : Code β α) (l : List β) : Option α :=
  match c.read l with
  | some (a, []) => some a
  | _ => none

lemma Code.readAll_eq_some (c : Code β α) {l : List β} {a : α} :
    c.readAll l = some a ↔ l = c.write a := by
  rw [← List.append_nil (c.write a), ← c.read_eq_some, Code.readAll]
  split
  · rename_i b h
    simp [h]
  · rename_i h
    exact iff_of_false nofun (h a)

/-! ## Codes from codes -/

/-- Symbols as they are. -/
def Code.vector (β : Type) (n : ℕ) : Code β (Vector β n) where
  width := n
  write v := v.toList
  read l :=
    if h : n ≤ l.length then some (⟨(l.take n).toArray, by simpa using h⟩, l.drop n) else none
  length_write v := v.length_toList
  read_eq_some := by
    intro l v rest
    constructor
    · intro h
      split at h
      · obtain ⟨rfl, rfl⟩ := Prod.mk.inj (Option.some.inj h)
        simp
      · cases h
    · rintro rfl
      have hlen : n ≤ (v.toList ++ rest).length := by simp
      have htake : (v.toList ++ rest).take n = v.toList := List.take_left' v.length_toList
      have hdrop : (v.toList ++ rest).drop n = rest := List.drop_left' v.length_toList
      rw [dif_pos hlen, hdrop]
      refine congrArg (fun v => some (v, rest)) (Vector.toList_inj.mp ?_)
      exact htake

/-- One value after another. -/
def Code.prod (c : Code β α) (d : Code β γ) : Code β (α × γ) where
  width := c.width + d.width
  write x := c.write x.1 ++ d.write x.2
  read l := (c.read l).bind fun (a, tail) => (d.read tail).map fun (b, rest) => ((a, b), rest)
  length_write x := by rw [List.length_append, c.length_write, d.length_write]
  read_eq_some := by
    intro l x rest
    constructor
    · intro h
      obtain ⟨⟨a, tail⟩, hc, h⟩ := Option.bind_eq_some_iff.mp h
      obtain ⟨⟨b, rest'⟩, hd, h⟩ := Option.map_eq_some_iff.mp h
      obtain ⟨rfl, rfl⟩ := Prod.mk.inj h
      have hl := c.read_eq_some.mp hc
      rw [d.read_eq_some.mp hd, ← List.append_assoc] at hl
      exact hl
    · rintro rfl
      rw [List.append_assoc, c.read_write, Option.bind_some]
      dsimp only
      rw [d.read_write]
      rfl

/-- The same texts for other values. -/
def Code.transport (c : Code β α) (e : α ≃ γ) : Code β γ where
  width := c.width
  write x := c.write (e.symm x)
  read l := (c.read l).map fun (a, rest) => (e a, rest)
  length_write x := c.length_write (e.symm x)
  read_eq_some := by
    intro l x rest
    rw [← c.read_eq_some, Option.map_eq_some_iff]
    constructor
    · rintro ⟨⟨a, tail⟩, hread, h⟩
      obtain ⟨rfl, rfl⟩ := Prod.mk.inj h
      rw [hread, e.symm_apply_apply]
    · intro hread
      exact ⟨_, hread, congrArg (fun y => (y, rest)) (e.apply_symm_apply x)⟩

end Codes
