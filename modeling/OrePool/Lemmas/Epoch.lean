import OrePool.Core.Journal
import OrePool.Lemmas.Rounds

/-!
# The running epoch

`epoch_hashes` is a summary of what was inserted since the last reset.  `EpochHashes.record` says
which summary: an entry is the latest insert for its key, the best hash the first insert that no
other exceeds in difficulty.  `epochHashes_eq` says that the running server keeps to it, whichever
tasks insert and reset.
-/

namespace OrePool

open Interleaving

/-! ## The journal of the running epoch -/

/-- The effect opens an epoch. -/
def Effect.opens : Effect → Bool
  | .resetEpoch _ _ _ => true
  | _ => false

/-- The submission an effect accepts. -/
def Effect.accepted : Effect → Option Submission
  | .accept sub => some sub
  | _ => Option.none

/-- What happened in the running epoch, newest first. -/
def Sys.epochJournal (s : Sys) : List Event := since (fun ev => ev.2.opens) s.journal

/-- The submissions inserted in the running epoch, newest first. -/
def Sys.recorded (s : Sys) : List Submission := s.epochJournal.filterMap fun ev => ev.2.inserted

lemma Effect.not_opens {e : Effect} (h : e.ofEpoch = false) : e.opens = false := by
  cases e <;> first | rfl | cases h

lemma Effect.not_inserted {e : Effect} (h : e.ofEpoch = false) : e.inserted = Option.none := by
  cases e <;> first | rfl | cases h

lemma Sys.epochJournal_cons {s s' : Sys} {who : Actor} {e : Effect}
    (hj : s'.journal = (who, e) :: s.journal) (h : e.opens = false) :
    s'.epochJournal = (who, e) :: s.epochJournal := by
  rw [Sys.epochJournal, hj, since_cons h, ← Sys.epochJournal]

lemma Sys.epochJournal_opens {s s' : Sys} {who : Actor} {e : Effect}
    (hj : s'.journal = (who, e) :: s.journal) (h : e.opens = true) : s'.epochJournal = [] := by
  rw [Sys.epochJournal, hj, since_cons_cut h]

lemma Sys.recorded_cons {s s' : Sys} {who : Actor} {e : Effect}
    (hj : s'.journal = (who, e) :: s.journal) (h : e.opens = false) :
    s'.recorded = e.inserted.toList ++ s.recorded := by
  rw [Sys.recorded, Sys.epochJournal_cons hj h]
  cases he : e.inserted <;> simp [he, Sys.recorded]

lemma Sys.recorded_opens {s s' : Sys} {who : Actor} {e : Effect}
    (hj : s'.journal = (who, e) :: s.journal) (h : e.opens = true) : s'.recorded = [] := by
  rw [Sys.recorded, Sys.epochJournal_opens hj h, List.filterMap_nil]

lemma Sys.mem_recorded {s : Sys} {sub : Submission} (h : sub ∈ s.recorded) :
    ∃ who, (who, Effect.insertContribution sub) ∈ s.epochJournal := by
  obtain ⟨⟨who, e⟩, hm, he⟩ := List.mem_filterMap.mp h
  cases e <;> simp only [Effect.inserted, reduceCtorEq, Option.some.injEq] at he
  exact ⟨who, he ▸ hm⟩

/-! ## What a list of inserts amounts to -/

/-- An empty `epoch_hashes` after the inserts `subs`, newest first. -/
def EpochHashes.record (challenge : Challenge) (subs : List Submission) : EpochHashes :=
  subs.foldr (fun sub e => e.insertContribution sub) ⟨challenge, ⟨none, 0⟩, ∅⟩

variable {challenge : Challenge} {sub : Submission} {subs : List Submission}

lemma EpochHashes.record_cons : EpochHashes.record challenge (sub :: subs) =
    (EpochHashes.record challenge subs).insertContribution sub := rfl

/-- An entry is the latest insert for its key. -/
theorem EpochHashes.lookup_record (pubkey : Pubkey) :
    (EpochHashes.record challenge subs).contributions.lookup pubkey =
      (subs.find? (·.pubkey = pubkey)).map Submission.contribution := by
  induction subs with
  | nil => rfl
  | cons sub subs ih =>
      rw [EpochHashes.record_cons, EpochHashes.insertContribution]
      by_cases h : sub.pubkey = pubkey
      · subst h
        simp [AList.lookup_insert]
      · rw [AList.lookup_insert_ne (Ne.symm h), ih, List.find?_cons_of_neg (by simpa using h)]

/-- No insert is more difficult than the best hash. -/
theorem EpochHashes.le_best_record {x : Submission} (hx : x ∈ subs) :
    x.diff ≤ (EpochHashes.record challenge subs).bestHash.difficulty := by
  induction subs with
  | nil => cases hx
  | cons sub subs ih =>
      rw [EpochHashes.record_cons, EpochHashes.insertContribution]
      dsimp only
      rcases List.mem_cons.mp hx with rfl | hx
      · split
        · exact UInt32.le_refl _
        · exact UInt32.not_lt.mp ‹_›
      · split
        · exact UInt32.le_of_lt (UInt32.lt_of_le_of_lt (ih hx) ‹_›)
        · exact ih hx

/-- The best difficulty is the maximum over the inserts, zero if there are none. -/
theorem EpochHashes.best_record_max :
    (EpochHashes.record challenge subs).bestHash.difficulty =
      (subs.map Submission.diff).foldr max 0 := by
  induction subs with
  | nil => rfl
  | cons sub subs ih =>
      rw [EpochHashes.record_cons, EpochHashes.insertContribution, List.map_cons, List.foldr_cons,
        ← ih]
      dsimp only
      have hmax : ∀ a b : UInt32, max a b = if a ≤ b then b else a := fun _ _ => rfl
      split
      · rename_i hlt
        rw [hmax, if_neg (UInt32.not_le.mpr hlt)]
      · rename_i hlt
        rw [hmax, if_pos (UInt32.not_lt.mp hlt)]

/-- There is a best solution exactly if the best difficulty is positive. -/
theorem EpochHashes.best_record_eq_none :
    (EpochHashes.record challenge subs).bestHash.solution = none ↔
      (EpochHashes.record challenge subs).bestHash.difficulty = 0 := by
  induction subs with
  | nil => exact ⟨fun _ => rfl, fun _ => rfl⟩
  | cons sub subs ih =>
      rw [EpochHashes.record_cons, EpochHashes.insertContribution]
      dsimp only
      split
      · rename_i hlt
        have hpos : sub.diff ≠ 0 := fun h0 => by
          rw [h0] at hlt
          exact absurd hlt (UInt32.not_lt.mpr UInt32.zero_le)
        simp [hpos]
      · exact ih

/-- The best solution is that of the first insert no other exceeds in difficulty. -/
theorem EpochHashes.best_record_first {solution : Solution}
    (h : (EpochHashes.record challenge subs).bestHash.solution = some solution) :
    ∃ newer sub older, subs = newer ++ sub :: older ∧ sub.solution = solution ∧
      sub.diff = (EpochHashes.record challenge subs).bestHash.difficulty ∧
      ∀ x ∈ older, x.diff < sub.diff := by
  induction subs with
  | nil => cases h
  | cons sub subs ih =>
      rw [EpochHashes.record_cons, EpochHashes.insertContribution] at h ⊢
      dsimp only at h ⊢
      split at h
      · rename_i hlt
        rw [if_pos hlt]
        exact ⟨[], sub, subs, rfl, by simpa using h, rfl, fun x hx =>
          UInt32.lt_of_le_of_lt (EpochHashes.le_best_record hx) hlt⟩
      · rename_i hlt
        rw [if_neg hlt]
        obtain ⟨newer, x, older, rfl, hs, hd, hold⟩ := ih h
        exact ⟨sub :: newer, x, older, rfl, hs, hd, hold⟩

/-! ## The server keeps to it -/

/-- **The epoch's summary.**  In every run `epoch_hashes` is what the inserts since the last
reset make of an empty one. -/
theorem epochHashes_eq {srv : Server} {C : Sys → Action → Prop} {s : Sys}
    (h : Reach (machine srv) C s) :
    s.shared.epochHashes = EpochHashes.record s.shared.epochHashes.challenge s.recorded := by
  refine h.invariant (I := fun s => s.shared.epochHashes =
    EpochHashes.record s.shared.epochHashes.challenge s.recorded) ?_ ?_
  · rintro _ ⟨p, rfl⟩
    rfl
  · intro s act s' _ hi _ hs
    cases Sys.step_epochMove hs with
    | keep who e hj hno _ he _ _ =>
        rw [he, Sys.recorded_cons hj (Effect.not_opens hno), Effect.not_inserted hno]
        exact hi
    | insert who sub _ hj he _ =>
        have hrec : s'.recorded = sub :: s.recorded := Sys.recorded_cons hj rfl
        rw [he, hrec, EpochHashes.record_cons, EpochHashes.insertContribution]
        conv_lhs => rw [hi]
        rfl
    | reset who opened stored _ hj he _ _ =>
        rw [he, Sys.recorded_opens hj rfl]
        rfl

section Reached

variable {srv : Server} {C : Sys → Action → Prop} {s : Sys}

/-- Every entry was inserted in the running epoch. -/
theorem recorded_of_lookup (h : Reach (machine srv) C s) {pubkey : Pubkey}
    {c : InternalMessageContribution}
    (hc : s.shared.epochHashes.contributions.lookup pubkey = some c) :
    ∃ sub ∈ s.recorded, sub.pubkey = pubkey ∧ sub.contribution = c := by
  rw [epochHashes_eq h, EpochHashes.lookup_record, Option.map_eq_some_iff] at hc
  obtain ⟨sub, hsub, rfl⟩ := hc
  exact ⟨sub, List.mem_of_find?_eq_some hsub, by simpa using List.find?_some hsub, rfl⟩

/-- The best solution was inserted in the running epoch. -/
theorem recorded_of_best (h : Reach (machine srv) C s) {solution : Solution}
    (hb : s.shared.epochHashes.bestHash.solution = some solution) :
    ∃ sub ∈ s.recorded, sub.solution = solution := by
  rw [epochHashes_eq h] at hb
  obtain ⟨newer, sub, older, hsubs, hs, -⟩ := EpochHashes.best_record_first hb
  exact ⟨sub, by rw [hsubs]; simp, hs⟩

end Reached

end OrePool
