import Mathlib.Data.List.Basic
import Mathlib.Tactic.Common

/-!
# A counter that hands out ranges

A counter hands out consecutive ranges of one width and is set back to zero now and then.  Each
range is remembered with its start and with how often the counter had been set back by then, its
generation.

`Laid` is what holds of the ranges handed out so far: within a generation they lie one after the
other, those of the running generation below the counter.  Ranges that were handed out and then
thrown away do not disturb it (`Laid.sublist`).
-/

namespace Allocator

/-- A range that was handed out. -/
structure Cut where
  gen : ℕ
  start : ℕ

/-- What holds of the ranges handed out, oldest first, with the counter at `next` in generation
`gen`. -/
structure Laid (width next gen : ℕ) (cuts : List Cut) : Prop where
  past : ∀ c ∈ cuts, c.gen ≤ gen
  below : ∀ c ∈ cuts, c.gen = gen → c.start + width ≤ next
  apart : cuts.Pairwise fun c d => c.gen = d.gen → c.start + width ≤ d.start

variable {width next gen : ℕ} {cuts cuts' : List Cut}

/-- Nothing has been handed out. -/
theorem Laid.nil : Laid width next gen [] where
  past := by simp
  below := by simp
  apart := .nil

/-- Handing out the next range. -/
theorem Laid.take (h : Laid width next gen cuts) :
    Laid width (next + width) gen (cuts ++ [⟨gen, next⟩]) where
  past c hc := by
    rcases List.mem_append.mp hc with hc | hc
    · exact h.past c hc
    · simp_all
  below c hc hg := by
    rcases List.mem_append.mp hc with hc | hc
    · have := h.below c hc hg
      omega
    · simp_all
  apart := by
    rw [List.pairwise_append]
    refine ⟨h.apart, List.pairwise_singleton _ _, ?_⟩
    intro c hc d hd hg
    obtain rfl : d = ⟨gen, next⟩ := by simpa using hd
    exact h.below c hc hg

/-- Setting the counter back begins a generation of which nothing has been handed out. -/
theorem Laid.reset (h : Laid width next gen cuts) : Laid width 0 (gen + 1) cuts where
  past c hc := Nat.le_succ_of_le (h.past c hc)
  below c hc hg := absurd (h.past c hc) (by omega)
  apart := h.apart

/-- Ranges may be forgotten. -/
theorem Laid.sublist (h : Laid width next gen cuts) (hs : cuts'.Sublist cuts) :
    Laid width next gen cuts' where
  past c hc := h.past c (hs.subset hc)
  below c hc := h.below c (hs.subset hc)
  apart := h.apart.sublist hs

/-- **Disjointness.**  Two ranges of one generation do not overlap. -/
theorem Laid.disjoint (h : Laid width next gen cuts) {i j : ℕ} {c d : Cut} (hc : cuts[i]? = some c)
    (hd : cuts[j]? = some d) (hij : i ≠ j) (hg : c.gen = d.gen) :
    c.start + width ≤ d.start ∨ d.start + width ≤ c.start := by
  obtain ⟨hi, rfl⟩ := List.getElem?_eq_some_iff.mp hc
  obtain ⟨hj, rfl⟩ := List.getElem?_eq_some_iff.mp hd
  rcases Nat.lt_or_gt_of_ne hij with hlt | hlt
  · exact .inl (List.pairwise_iff_getElem.mp h.apart i j hi hj hlt hg)
  · exact .inr (List.pairwise_iff_getElem.mp h.apart j i hj hi hlt hg.symm)

end Allocator
