import Mathlib.Algebra.Ring.Int.Defs
import Mathlib.Data.List.Basic
import Mathlib.Data.List.Dedup
import Mathlib.Data.List.Nodup
import Mathlib.Tactic.Common

/-!
# Tables

A table is the list of its rows in the order in which they were inserted.  Statements pick rows
out by the value of one column, so `select` and `update` take the column and the value.

* `Unique` — what a unique index says, kept by `insertUnique` and by every update that leaves the
  indexed column alone.
* `Unique.of_determined` — a column that determines a unique one is unique itself, with no index
  of its own.
* `newest` — the row of a value that was inserted last.
* `nextId` — the next value of an automatic primary key, above all that are there.
* `groups` — the values of a column, one for each group of `GROUP BY column`.  The sums of the
  groups are the parts of one sum (`sum_total_groups`).
-/

namespace Tables

variable {ρ κ ι : Type} {column : ρ → κ} {other : ρ → ι} {k k' : κ} {f : ρ → ρ} {row : ρ}
  {rows rows' : List ρ}

/-! ## Statements -/

section Statements

variable [DecidableEq κ]

/-- `SELECT … WHERE column = k`. -/
def select (column : ρ → κ) (k : κ) (rows : List ρ) : List ρ :=
  rows.filter fun r => column r = k

/-- `UPDATE … WHERE column = k`, each row changed by `f`. -/
def update (column : ρ → κ) (k : κ) (f : ρ → ρ) (rows : List ρ) : List ρ :=
  rows.map fun r => if column r = k then f r else r

/-- `INSERT` under a unique index on `column`, `none` where the index refuses the row. -/
def insertUnique (column : ρ → κ) (row : ρ) (rows : List ρ) : Option (List ρ) :=
  if column row ∈ rows.map column then none else some (rows ++ [row])

/-- `SELECT … WHERE column = k`, the first row in descending order of the primary key. -/
def newest (column : ρ → κ) (k : κ) (rows : List ρ) : Option ρ := (select column k rows).getLast?

/-- `SELECT SUM(value) … WHERE column = k`. -/
def total (column : ρ → κ) (value : ρ → ℤ) (k : κ) (rows : List ρ) : ℤ :=
  ((select column k rows).map value).sum

/-- The primary key of the next row. -/
def nextId (ids : List ℤ) : ℤ := ids.foldr max 0 + 1

/-- An insertion that goes through adds the row at the end. -/
lemma insertUnique_eq_some (h : insertUnique column row rows = some rows') :
    column row ∉ rows.map column ∧ rows' = rows ++ [row] := by
  rw [insertUnique] at h
  split at h
  · cases h
  · exact ⟨‹_›, (Option.some.inj h).symm⟩

lemma mem_select : row ∈ select column k rows ↔ row ∈ rows ∧ column row = k := by
  simp [select]

lemma select_append :
    select column k (rows ++ rows') = select column k rows ++ select column k rows' :=
  List.filter_append ..

/-- What is inserted later is newer. -/
lemma newest_append :
    newest column k (rows ++ rows') = (newest column k rows').or (newest column k rows) := by
  rw [newest, select_append, List.getLast?_append]
  rfl

lemma mem_of_newest (h : newest column k rows = some row) : row ∈ rows ∧ column row = k :=
  mem_select.mp (List.mem_of_getLast? h)

/-- Where there is a row of the value there is a newest one. -/
lemma exists_newest (hrow : row ∈ rows) (hk : column row = k) :
    ∃ row', newest column k rows = some row' := by
  have hne : select column k rows ≠ [] := List.ne_nil_of_mem (mem_select.mpr ⟨hrow, hk⟩)
  exact ⟨_, List.getLast?_eq_some_getLast hne⟩

lemma total_append (value : ρ → ℤ) : total column value k (rows ++ rows') =
    total column value k rows + total column value k rows' := by
  simp [total, select_append]

lemma select_singleton : select column k [row] = if column row = k then [row] else [] := by
  simp [select, List.filter_singleton, Bool.cond_decide]

/-- Changing every row leaves the rows of a value where they are, if the column is left alone. -/
lemma select_map {g : ρ → ρ} (hg : ∀ r, column (g r) = column r) :
    select column k (rows.map g) = (select column k rows).map g := by
  rw [select, select, List.filter_map]
  refine congrArg (List.map g) (List.filter_congr ?_)
  intro r _
  simp [hg]

/-- An update shows in the rows it picks … -/
lemma select_update (hf : ∀ r, column (f r) = column r) :
    select column k (update column k f rows) = (select column k rows).map f := by
  induction rows with
  | nil => rfl
  | cons r rows ih =>
      simp only [select, update, List.map_cons, List.filter_cons] at ih ⊢
      by_cases h : column r = k
      · simp [h, hf, ih]
      · simp [h, ih]

/-- … and in no other. -/
lemma select_update_ne (hf : ∀ r, column (f r) = column r) (hk : k ≠ k') :
    select column k (update column k' f rows) = select column k rows := by
  induction rows with
  | nil => rfl
  | cons r rows ih =>
      simp only [select, update, List.map_cons, List.filter_cons] at ih ⊢
      by_cases h : column r = k'
      · simp [h, hf, ih, hk.symm]
      · simp [h, ih]

/-- Only what becomes of the rows picked matters. -/
lemma update_congr {g : ρ → ρ} (h : ∀ r ∈ rows, column r = k → f r = g r) :
    update column k f rows = update column k g rows := by
  refine List.map_congr_left fun r hr => ?_
  split
  · exact h r hr ‹_›
  · rfl

lemma update_of_select_eq_nil (h : select column k rows = []) :
    update column k f rows = rows := by
  simp only [select, List.filter_eq_nil_iff, decide_eq_true_eq] at h
  calc update column k f rows = rows.map id := List.map_congr_left fun r hr => if_neg (h r hr)
    _ = rows := List.map_id rows

/-- An update that picks one row changes it where it stands. -/
lemma update_of_select_eq_singleton (h : select column k rows = [row]) :
    ∃ l₁ l₂, rows = l₁ ++ row :: l₂ ∧ update column k f rows = l₁ ++ f row :: l₂ ∧
      column row = k ∧ ∀ r ∈ l₁ ++ l₂, column r ≠ k := by
  obtain ⟨l₁, l₂, rfl, h₁, hrow, h₂⟩ := List.filter_eq_cons_iff.mp h
  simp only [decide_eq_true_eq] at h₁ hrow
  have h₁' : select column k l₁ = [] := by simpa [select] using h₁
  refine ⟨l₁, l₂, rfl, ?_, hrow, ?_⟩
  · have hu₁ : update column k f l₁ = l₁ := update_of_select_eq_nil h₁'
    have hu₂ : update column k f l₂ = l₂ := update_of_select_eq_nil h₂
    simp only [update] at hu₁ hu₂
    simp [update, hrow, hu₁, hu₂]
  · simp only [List.filter_eq_nil_iff, decide_eq_true_eq] at h₂
    intro r hr
    exact (List.mem_append.mp hr).elim (h₁ r) (h₂ r)

end Statements

/-! ## Groups -/

section Groups

variable [DecidableEq κ]

/-- The values of `GROUP BY column`. -/
def groups (column : ρ → κ) (rows : List ρ) : List κ := (rows.map column).dedup

lemma exists_of_mem_groups (h : k ∈ groups column rows) : ∃ r ∈ rows, column r = k := by
  simpa [groups] using h

lemma groups_eq_nil (column : ρ → κ) : groups column rows = [] ↔ rows = [] := by
  rw [groups, List.dedup_eq_nil, List.map_eq_nil_iff]

/-- A row adds to the sum of the group it is in, and to no other. -/
lemma sum_map_ite_of_nodup {ks : List κ} (hnodup : ks.Nodup) (hk : k ∈ ks) (x : ℤ) (f : κ → ℤ) :
    (ks.map fun k' => (if k = k' then x else 0) + f k').sum = x + (ks.map f).sum := by
  induction ks with
  | nil => cases hk
  | cons k' ks ih =>
      obtain ⟨hfresh, hnodup⟩ := List.nodup_cons.mp hnodup
      rw [List.map_cons, List.sum_cons, List.map_cons, List.sum_cons]
      by_cases h : k = k'
      · subst h
        have hrest : (ks.map fun k' => (if k = k' then x else 0) + f k') = ks.map f := by
          refine List.map_congr_left fun k' hk' => ?_
          have hne : k ≠ k' := fun h => hfresh (h ▸ hk')
          rw [if_neg hne, zero_add]
        rw [hrest, if_pos rfl]
        omega
      · rw [ih hnodup ((List.mem_cons.mp hk).resolve_left h), if_neg h]
        omega

/-- **The sums of the groups add up.** -/
theorem sum_total_groups (column : ρ → κ) (value : ρ → ℤ) :
    ((groups column rows).map fun k => total column value k rows).sum = (rows.map value).sum := by
  -- with any values that cover the rows, so that the induction can keep them
  have hcover : ∀ (ks : List κ) (rows : List ρ), ks.Nodup → (∀ r ∈ rows, column r ∈ ks) →
      (ks.map fun k => total column value k rows).sum = (rows.map value).sum := by
    intro ks rows hnodup hks
    induction rows with
    | nil => simp [total, select]
    | cons r rows ih =>
        have hcons : ∀ k, total column value k (r :: rows) =
            (if column r = k then value r else 0) + total column value k rows := by
          intro k
          simp only [total, select, List.filter_cons]
          split <;> simp_all
        simp only [hcons]
        rw [sum_map_ite_of_nodup hnodup (hks r List.mem_cons_self), List.map_cons, List.sum_cons,
          ih fun r' hr' => hks r' (List.mem_cons_of_mem _ hr')]
  exact hcover _ _ (List.nodup_dedup _) fun r hr =>
    List.mem_dedup.mpr (List.mem_map_of_mem hr)

end Groups

/-! ## Unique indexes -/

/-- No two rows agree in the column. -/
def Unique (column : ρ → κ) (rows : List ρ) : Prop := (rows.map column).Nodup

lemma Unique.eq (h : Unique column rows) {r r' : ρ} (hr : r ∈ rows) (hr' : r' ∈ rows)
    (he : column r = column r') : r = r' := List.inj_on_of_nodup_map h hr hr' he

lemma Unique.append (h : Unique column rows) (hrow : column row ∉ rows.map column) :
    Unique column (rows ++ [row]) := by
  rw [Unique, List.map_append, List.map_singleton, List.nodup_append]
  refine ⟨h, List.nodup_singleton _, ?_⟩
  rintro a ha b hb rfl
  exact hrow (List.mem_singleton.mp hb ▸ ha)

lemma map_update [DecidableEq κ] (hf : ∀ r, other (f r) = other r) :
    (update column k f rows).map other = rows.map other := by
  rw [update, List.map_map]
  refine List.map_congr_left ?_
  intro r _
  show other (if column r = k then f r else r) = other r
  split
  · exact hf r
  · rfl

lemma Unique.update [DecidableEq κ] (h : Unique other rows) (hf : ∀ r, other (f r) = other r) :
    Unique other (update column k f rows) := by
  rw [Unique, map_update hf]
  exact h

/-- A unique column picks at most one row. -/
lemma Unique.select_le_one [DecidableEq κ] (h : Unique column rows) (k : κ) :
    (select column k rows).length ≤ 1 := by
  have hnodup : ((select column k rows).map column).Nodup :=
    h.sublist (List.filter_sublist.map column)
  rw [List.map_congr_left (g := fun _ => k) fun r hr => (mem_select.mp hr).2,
    List.map_const'] at hnodup
  exact List.nodup_replicate.mp hnodup

/-- What determines a unique column is unique. -/
lemma Unique.of_determined {g : ι → κ} (h : Unique column rows)
    (hg : ∀ r ∈ rows, column r = g (other r)) : Unique other rows := by
  refine List.Nodup.map_on ?_ (List.Nodup.of_map _ h)
  intro r hr r' hr' he
  exact h.eq hr hr' (by rw [hg r hr, hg r' hr', he])

/-! ## Primary keys -/

lemma lt_nextId {ids : List ℤ} {i : ℤ} (h : i ∈ ids) : i < nextId ids := by
  induction ids with
  | nil => cases h
  | cons j ids ih =>
      simp only [nextId, List.foldr_cons] at ih ⊢
      rcases List.mem_cons.mp h with rfl | h
      · omega
      · have := ih h
        omega

lemma nextId_pos (ids : List ℤ) : 0 < nextId ids := by
  induction ids with
  | nil => decide
  | cons j ids ih =>
      simp only [nextId, List.foldr_cons] at ih ⊢
      omega

end Tables
