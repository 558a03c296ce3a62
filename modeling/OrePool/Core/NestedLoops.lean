import Mathlib.Data.List.AList
import Mathlib.Data.Multiset.Bind
import Mathlib.Tactic.Common

/-!
# Nested loops

Two lists are joined by one loop inside another.  Which loop is outside makes no difference to what
comes out but for its order (`nestedLoop_comm`), and where one of the lists is a map and the rows
match by its key, looking up the key does the same (`nestedLoop_lookup`).

`innerJoin` is the `INNER JOIN` of two tables.  A row of one table that matches at most one of the
other is in the join once or not at all (`map_fst_innerJoin`, `map_snd_innerJoin`), so that a sum
over the join is one over the table.  `Once` says so of a column, through any number of joins, and
`Single` is what makes it so where the tables are joined by columns that are a key of neither.
-/

namespace NestedLoops

variable {α β γ κ ν : Type}

/-- For every left row, the right rows that match it. -/
def nestedLoop (row : α → β → Option γ) (l : List α) (r : List β) : List γ :=
  l.flatMap fun a => r.filterMap (row a)

/-- **Either loop may be outside.** -/
theorem nestedLoop_comm (row : α → β → Option γ) (l : List α) (r : List β) :
    (nestedLoop row l r).Perm (nestedLoop (fun b a => row a b) r l) := by
  rw [← Multiset.coe_eq_coe, nestedLoop, nestedLoop, ← Multiset.coe_bind, ← Multiset.coe_bind]
  simp only [List.filterMap_eq_flatMap_toList, ← Multiset.coe_bind]
  exact Multiset.bind_bind _ _

/-! ## A map -/

section Map

variable [DecidableEq κ]

/-- Of the entries of a map, the one with a key. -/
lemma filterMap_entries (m : AList fun _ : κ => ν) (k : κ) (f : ν → γ) :
    m.entries.filterMap (fun entry => if k = entry.1 then some (f entry.2) else none) =
      ((m.lookup k).map f).toList := by
  obtain ⟨entries, hnodup⟩ := m
  show _ = ((entries.dlookup k).map f).toList
  induction entries with
  | nil => rfl
  | cons entry entries ih =>
      obtain ⟨k', v⟩ := entry
      obtain ⟨hfresh, hnodup⟩ := List.nodupKeys_cons.mp hnodup
      have ih := ih hnodup
      dsimp only at ih ⊢
      by_cases hk : k = k'
      · -- no other entry has this key
        subst hk
        rw [List.dlookup_eq_none.mpr hfresh] at ih
        rw [List.filterMap_cons, if_pos rfl, ih, List.dlookup_cons_eq]
        rfl
      · rw [List.filterMap_cons, if_neg hk, ih, List.dlookup_cons_ne _ _ hk]

/-- **A lookup in place of the outer loop.** -/
theorem nestedLoop_lookup (m : AList fun _ : κ => ν) (key : β → κ) (f : ν → β → γ) (r : List β) :
    (nestedLoop (fun entry b => if key b = entry.1 then some (f entry.2 b) else none)
        m.entries r).Perm
      (r.filterMap fun b => (m.lookup (key b)).map fun v => f v b) := by
  refine (nestedLoop_comm _ _ _).trans ?_
  rw [nestedLoop, List.filterMap_eq_flatMap_toList]
  exact List.Perm.of_eq (congrArg (List.flatMap · r) (funext fun b =>
    filterMap_entries m (key b) fun v => f v b))

end Map

/-! ## Two tables -/

/-- `l INNER JOIN r ON on`. -/
def innerJoin (on : α → β → Bool) (l : List α) (r : List β) : List (α × β) :=
  nestedLoop (fun a b => if on a b then some (a, b) else none) l r

section Join

variable {on : α → β → Bool} {l : List α} {r : List β}

lemma mem_innerJoin {x : α × β} :
    x ∈ innerJoin on l r ↔ x.1 ∈ l ∧ x.2 ∈ r ∧ on x.1 x.2 = true := by
  obtain ⟨a, b⟩ := x
  simp only [innerJoin, nestedLoop, List.mem_flatMap, List.mem_filterMap]
  constructor
  · rintro ⟨a', ha, b', hb, h⟩
    split at h
    · obtain ⟨rfl, rfl⟩ := Prod.mk.inj (Option.some.inj h)
      exact ⟨ha, hb, ‹_›⟩
    · cases h
  · rintro ⟨ha, hb, h⟩
    exact ⟨a, ha, b, hb, if_pos h⟩

/-- The rows that match one row. -/
lemma filterMap_on (on : α → β → Bool) (a : α) :
    r.filterMap (fun b => if on a b then some (a, b) else none) =
      (r.filter (on a)).map (Prod.mk a) := by
  induction r with
  | nil => rfl
  | cons b r ih => cases h : on a b <;> simp [h, ih]

/-- A condition on the joined rows is one more condition to join by. -/
lemma filter_innerJoin (p : α × β → Bool) :
    (innerJoin on l r).filter p = innerJoin (fun a b => on a b && p (a, b)) l r := by
  rw [innerJoin, innerJoin, nestedLoop, nestedLoop, List.filter_flatMap]
  refine congrArg (List.flatMap · l) (funext fun a => ?_)
  rw [filterMap_on, filterMap_on fun a b => on a b && p (a, b), List.filter_map,
    List.filter_filter]
  simp only [Function.comp_def, Bool.and_comm]

/-- **Once or not at all.**  Where a left row matches at most one right row, the left rows of the
join are those that match one. -/
theorem map_fst_innerJoin (h : ∀ a ∈ l, (r.filter (on a)).length ≤ 1) :
    (innerJoin on l r).map Prod.fst = l.filter fun a => r.any (on a) := by
  induction l with
  | nil => rfl
  | cons a l ih =>
      have hrest := ih fun b hb => h b (List.mem_cons_of_mem _ hb)
      rw [innerJoin, nestedLoop] at hrest ⊢
      rw [List.flatMap_cons, List.map_append, hrest, filterMap_on, List.map_map]
      have hone : ((r.filter (on a)).map (Prod.fst ∘ Prod.mk a)) =
          if r.any (on a) then [a] else [] := by
        cases hmatch : r.filter (on a) with
        | nil =>
            rw [if_neg]
            · rfl
            · simpa using List.filter_eq_nil_iff.mp hmatch
        | cons b rest =>
            have hlen := h a List.mem_cons_self
            rw [hmatch] at hlen
            obtain rfl : rest = [] := List.length_eq_zero_iff.mp (by simpa using hlen)
            obtain ⟨hb, hon⟩ := List.mem_filter.mp (hmatch ▸ List.mem_singleton_self b)
            rw [if_pos (List.any_eq_true.mpr ⟨b, hb, hon⟩)]
            rfl
      rw [hone, List.filter_cons]
      split
      · rfl
      · rfl

/-- Exchanging the tables exchanges the columns. -/
lemma map_snd_innerJoin_perm :
    ((innerJoin on l r).map Prod.snd).Perm
      ((innerJoin (fun b a => on a b) r l).map Prod.fst) := by
  have hswap : (innerJoin (fun b a => on a b) r l).map Prod.fst =
      (nestedLoop (fun b a => if on a b then some (a, b) else none) r l).map Prod.snd := by
    simp only [innerJoin, nestedLoop, List.map_flatMap, List.map_filterMap]
    refine congrArg (List.flatMap · r) (funext fun b => congrArg (List.filterMap · l) ?_)
    funext a
    split <;> rfl
  rw [hswap]
  exact (nestedLoop_comm _ l r).map Prod.snd

/-- The same for the right rows, in some order. -/
theorem map_snd_innerJoin (h : ∀ b ∈ r, (l.filter fun a => on a b).length ≤ 1) :
    ((innerJoin on l r).map Prod.snd).Perm (r.filter fun b => l.any fun a => on a b) :=
  map_snd_innerJoin_perm.trans (.of_eq (map_fst_innerJoin h))

end Join

/-! ## Columns of joins -/

/-- In any of the rows of `l`, the column `f` has rows of the table `t`, none of them twice. -/
def Once (f : α → γ) (l : List α) (t : List γ) : Prop :=
  ∀ p : α → Bool, ∃ p' : γ → Bool, ((l.filter p).map f).Perm (t.filter p')

section Once

variable {on : α → β → Bool} {l : List α} {r : List β} {f : α → γ} {t : List γ}

lemma Once.filter (h : Once f l t) (w : α → Bool) : Once f (l.filter w) t := by
  intro p
  rw [List.filter_filter]
  exact h _

lemma Once.map {g : β → α} {l : List β} (h : Once (f ∘ g) l t) : Once f (l.map g) t := by
  intro p
  rw [List.filter_map, List.map_map]
  exact h _

/-- No row is there more often than in its table. -/
lemma Once.subperm (h : Once f l t) : (l.map f).Subperm t := by
  obtain ⟨p', hp'⟩ := h fun _ => true
  rw [List.filter_true] at hp'
  exact hp'.subperm.trans List.filter_sublist.subperm

/-- There are no more rows with a property than in the table. -/
lemma Once.length_le (h : Once f l t) {p : α → Bool} {p' : γ → Bool}
    (hp : ∀ a ∈ l, p a = true → p' (f a) = true) :
    (l.filter p).length ≤ (t.filter p').length := by
  obtain ⟨p'', hp''⟩ := h p
  have hall : ((l.filter p).map f).filter p' = (l.filter p).map f := by
    refine List.filter_eq_self.mpr fun c hc => ?_
    obtain ⟨a, ha, rfl⟩ := List.mem_map.mp hc
    exact hp a (List.mem_filter.mp ha).1 (List.mem_filter.mp ha).2
  calc (l.filter p).length = (((l.filter p).map f).filter p').length := by
        rw [hall, List.length_map]
    _ = ((t.filter p').filter p'').length := by rw [(hp''.filter p').length_eq, List.filter_comm]
    _ ≤ (t.filter p').length := List.filter_sublist.length_le

/-- The rows of the table are those that are in the column. -/
lemma Once.perm [DecidableEq γ] (h : Once f l t) (p : α → Bool) :
    ((l.filter p).map f).Perm (t.filter (· ∈ (l.filter p).map f)) := by
  obtain ⟨p', hp'⟩ := h p
  refine hp'.trans (.of_eq (List.filter_congr fun c hc => ?_))
  rw [Bool.eq_iff_iff, decide_eq_true_iff, hp'.mem_iff, List.mem_filter]
  exact ⟨fun hp => ⟨hc, hp⟩, And.right⟩

/-- A column stays a column when each row is joined with at most one row. -/
theorem Once.innerJoin (hf : Once f l t) (h : ∀ a ∈ l, (r.filter (on a)).length ≤ 1) :
    Once (fun x => f x.1) (innerJoin on l r) t := by
  intro p
  have hfst : ((NestedLoops.innerJoin on l r).filter p).map Prod.fst =
      l.filter fun a => r.any fun b => on a b && p (a, b) := by
    rw [filter_innerJoin]
    refine map_fst_innerJoin fun a ha => ?_
    rw [← List.filter_filter, List.filter_comm]
    exact (List.filter_sublist.length_le).trans (h a ha)
  obtain ⟨p', hp'⟩ := hf fun a => r.any fun b => on a b && p (a, b)
  refine ⟨p', ?_⟩
  rw [← hfst, List.map_map] at hp'
  exact hp'

/-- A table is its own column. -/
lemma once_self (l : List α) : Once id l l := fun p => ⟨p, by rw [List.map_id]⟩

/-- The right rows of a join, where each is joined with at most one row. -/
theorem once_snd (h : ∀ b ∈ r, (l.filter fun a => on a b).length ≤ 1) :
    Once Prod.snd (innerJoin on l r) r := by
  intro p
  rw [filter_innerJoin]
  refine ⟨_, map_snd_innerJoin fun b hb => ?_⟩
  rw [← List.filter_filter, List.filter_comm]
  exact (List.filter_sublist.length_le).trans (h b hb)

end Once

/-! ## Keys on two sides -/

section Keys

variable [DecidableEq κ] {ks ks' new : List κ} {k : κ}

/-- A key that is on both sides is there once. -/
def Single (ks ks' : List κ) (k : κ) : Prop :=
  k ∈ ks → k ∈ ks' → ks.count k = 1 ∧ ks'.count k = 1

instance : Decidable (Single ks ks' k) :=
  inferInstanceAs (Decidable (k ∈ ks → k ∈ ks' → ks.count k = 1 ∧ ks'.count k = 1))

lemma Single.symm (h : Single ks ks' k) : Single ks' ks k := fun hk' hk => (h hk hk').symm

/-- Other keys make no difference. -/
lemma Single.append (h : Single ks ks' k) (hk : k ∉ new) : Single (ks ++ new) ks' k := by
  intro hmem hk'
  rw [List.count_append, List.count_eq_zero.mpr hk, add_zero]
  exact h ((List.mem_append.mp hmem).resolve_right hk) hk'

/-- The rows with a key are as many as the key is often in the column. -/
lemma count_map_eq (key : β → κ) (r : List β) (k : κ) :
    (r.map key).count k = (r.filter fun b => key b = k).length := by
  rw [List.count, List.countP_map, List.countP_eq_length_filter]
  exact congrArg List.length (List.filter_congr fun b _ => beq_eq_decide _ _)

/-- A key of one side has at most one row on the other. -/
lemma Single.filter_le {key : β → κ} {r : List β} (h : Single ks (r.map key) k) (hk : k ∈ ks) :
    (r.filter fun b => key b = k).length ≤ 1 := by
  rw [← count_map_eq]
  by_cases hk' : k ∈ r.map key
  · exact (h hk hk').2.le
  · rw [List.count_eq_zero.mpr hk']
    exact Nat.zero_le 1

end Keys

end NestedLoops
