import Mathlib.Data.List.Forall2
import Mathlib.Tactic.Common

/-!
# Traversals that may fail

A list is walked through with a computation that has a result or none, which collects the results
(`mapM`) or carries one along (`foldlM`).  The walk succeeds when each step does, and then there is
one result for each element.
-/

namespace Traversal

variable {α β : Type} {f : α → Option β} {l : List α} {l' : List β}

/-- A traversal has one result for each element, in their order. -/
lemma forall₂_of_mapM (h : l.mapM f = some l') : List.Forall₂ (fun a b => f a = some b) l l' := by
  induction l generalizing l' with
  | nil =>
      simp only [List.mapM_nil, Option.pure_def, Option.some.injEq] at h
      exact h ▸ .nil
  | cons a l ih =>
      simp only [List.mapM_cons, Option.bind_eq_bind, Option.bind_eq_some_iff, Option.pure_def,
        Option.some.injEq] at h
      obtain ⟨b, hb, l₁, hl₁, rfl⟩ := h
      exact .cons hb (ih hl₁)

lemma mapM_eq_map {g : α → β} (h : ∀ a ∈ l, f a = some (g a)) : l.mapM f = some (l.map g) := by
  induction l with
  | nil => rfl
  | cons a l ih =>
      have hrest : l.mapM f = some (l.map g) := ih fun b hb => h b (List.mem_cons_of_mem a hb)
      rw [List.mapM_cons, h a List.mem_cons_self, hrest]
      rfl

lemma isSome_mapM (h : ∀ a ∈ l, (f a).isSome) : (l.mapM f).isSome := by
  induction l with
  | nil => rfl
  | cons a l ih =>
      obtain ⟨b, hb⟩ := Option.isSome_iff_exists.mp (h a List.mem_cons_self)
      have hrest : (l.mapM f).isSome := ih fun x hx => h x (List.mem_cons_of_mem _ hx)
      obtain ⟨l', hl'⟩ := Option.isSome_iff_exists.mp hrest
      simp [hb, hl']

lemma exists_of_forall₂_right {R : α → β → Prop} (h : List.Forall₂ R l l') {b : β} (hb : b ∈ l') :
    ∃ a ∈ l, R a b := by
  induction h with
  | nil => cases hb
  | cons hR _ ih =>
      rcases List.mem_cons.mp hb with rfl | hb
      · exact ⟨_, List.mem_cons_self, hR⟩
      · obtain ⟨a, ha, hR⟩ := ih hb
        exact ⟨a, List.mem_cons_of_mem _ ha, hR⟩

lemma exists_of_forall₂_left {R : α → β → Prop} (h : List.Forall₂ R l l') {a : α} (ha : a ∈ l) :
    ∃ b ∈ l', R a b :=
  exists_of_forall₂_right h.flip ha

/-- Related elements with the same value under two functions. -/
lemma map_eq_of_forall₂ {γ : Type} {R : α → β → Prop} {g : α → γ} {g' : β → γ}
    (h : List.Forall₂ R l l') (hg : ∀ a b, R a b → g a = g' b) : l.map g = l'.map g' := by
  induction h with
  | nil => rfl
  | cons hR _ ih => rw [List.map_cons, List.map_cons, hg _ _ hR, ih]

/-- Results are collected when all of them are there. -/
lemma mapM_id_eq_some {l : List (Option α)} {l' : List α} :
    l.mapM id = some l' ↔ l = l'.map some := by
  constructor
  · intro h
    have hmap := map_eq_of_forall₂ (forall₂_of_mapM h) fun _ _ h => h
    rwa [List.map_id] at hmap
  · rintro rfl
    induction l' with
    | nil => rfl
    | cons a l ih => simp [ih]

/-- A traversal succeeds exactly when each element does. -/
lemma isSome_mapM_iff : (l.mapM f).isSome ↔ ∀ a ∈ l, (f a).isSome := by
  refine ⟨?_, isSome_mapM⟩
  intro h a ha
  obtain ⟨l', hl'⟩ := Option.isSome_iff_exists.mp h
  obtain ⟨b, -, hb⟩ := exists_of_forall₂_left (forall₂_of_mapM hl') ha
  exact Option.isSome_iff_exists.mpr ⟨b, hb⟩

/-- A walk that carries a result along succeeds when no step fails, whatever it was given. -/
lemma isSome_foldlM {step : β → α → Option β} (h : ∀ a ∈ l, ∀ b, (step b a).isSome) (b : β) :
    (l.foldlM step b).isSome := by
  induction l generalizing b with
  | nil => rfl
  | cons a l ih =>
      obtain ⟨b', hb'⟩ := Option.isSome_iff_exists.mp (h a List.mem_cons_self b)
      rw [List.foldlM_cons, hb']
      exact ih (fun x hx => h x (List.mem_cons_of_mem _ hx)) b'

/-- Where each step forgets what it was given, the last one decides. -/
lemma foldlM_forget (h : ∀ a ∈ l, (f a).isSome) (hne : l ≠ []) (b : β) :
    l.foldlM (fun _ a => f a) b = f (l.getLast hne) := by
  induction l generalizing b with
  | nil => exact absurd rfl hne
  | cons a l ih =>
      obtain ⟨b', hb'⟩ := Option.isSome_iff_exists.mp (h a List.mem_cons_self)
      rw [List.foldlM_cons, hb', Option.bind_eq_bind, Option.bind_some]
      cases l with
      | nil => exact hb'.symm
      | cons a' l =>
          rw [List.getLast_cons (List.cons_ne_nil a' l)]
          exact ih (fun x hx => h x (List.mem_cons_of_mem _ hx)) (List.cons_ne_nil a' l) b'

end Traversal
