import OrePool.Lemmas.Submissions
import OrePool.Replay

/-!
# A miner's best result

The contributions map is to hold each miner's best submission of the epoch.  `BestResult` says so
once the miner's tasks are through, of every submission that was in range, valid and difficult
enough when its task looked.  An observer notes these.

A task decides on the entry it read and inserts later, under another lock and without looking
again.  Of two racing tasks the lesser can come last (`not_bestResult`).  And a task that does not
find a connection under the address its frame came from drops the submission.  When neither
happens, and no reset comes between, the best result is kept (`bestResult`).
-/

namespace OrePool

open Interleaving

/-! ## What is observed -/

/-- A submission in range, valid and as difficult as asked for. -/
structure Qualified where
  pubkey : Pubkey
  solution : Solution
  diff : UInt32
  deriving DecidableEq

/-- A task's submission, if it is valid for the challenge of `app_proof` and difficult enough. -/
def BestTask.qualified (srv : Server) (sh : Shared) (t : BestTask) : Option Qualified :=
  let diff := srv.drillx.difficulty t.solution
  if srv.drillx.isValid t.solution sh.appProof.challenge ∧
      srv.args.expectedMinDifficulty ≤ diff then
    some ⟨t.pubkey, t.solution, diff⟩
  else
    none

/-- The submission of a task whose nonce was in range and whose connection is gone. -/
def BestTask.stranded (srv : Server) (sh : Shared) (t : BestTask) : Option Qualified :=
  match t.pc with
  | .readSocket _ => if (sh.sockets.lookup t.addr).isNone then t.qualified srv sh else none
  | _ => none

/-- The submission of a task whose nonce was in range: at the check of its validity, or at the
lookup before, if the task ends there. -/
def BestTask.qualifying (srv : Server) (sh : Shared) (t : BestTask) : Option Qualified :=
  match t.pc with
  | .readProof _ _ => t.qualified srv sh
  | _ => t.stranded srv sh

/-- The same for a step of the system. -/
def Sys.stranded (srv : Server) (s : Sys) : Action → Option Qualified
  | .best i => (s.bestTasks[i]?).bind fun t => t.stranded srv s.shared
  | _ => none

def Sys.qualifying (srv : Server) (s : Sys) : Action → Option Qualified
  | .best i => (s.bestTasks[i]?).bind fun t => t.qualifying srv s.shared
  | _ => none

/-- Notes the submissions of the running epoch that qualify. -/
def submissionObserver (srv : Server) : Observer Sys Action (List Qualified) where
  start _ := []
  note s act n := if (s.opening act).isSome then [] else (s.qualifying srv act).toList ++ n

/-! ## The property -/

/-- The entry has the difficulty, the nonce and the hashpower of the submission. -/
def Qualified.Entered (q : Qualified) (c : InternalMessageContribution) : Prop :=
  c.suppliedDiff = q.diff ∧ c.suppliedNonce = q.solution.nonce ∧ c.hashpower = hashpower q.diff

/-- **Best result.**  Once the tasks of a miner are done, its entry is that of one of its
submissions, and none of them is more difficult; it has no entry if there are none. -/
def BestResult (x : Sys × List Qualified) : Prop :=
  ∀ pubkey, (∀ t ∈ x.1.bestTasks, t.pubkey = pubkey → t.pc = .done) →
    match x.1.shared.epochHashes.contributions.lookup pubkey with
    | none => ∀ q ∈ x.2, q.pubkey ≠ pubkey
    | some c => ∃ q ∈ x.2, q.pubkey = pubkey ∧ q.Entered c ∧
        ∀ y ∈ x.2, y.pubkey = pubkey → y.diff ≤ q.diff

/-- The entry about to be replaced is of no higher difficulty. -/
def NoDowngrade (s : Sys) (act : Action) : Prop :=
  ∀ sub ∈ s.inserting act, ∀ old ∈ s.shared.epochHashes.contributions.lookup sub.pubkey,
    old.suppliedDiff ≤ sub.diff

instance : DecidableRel NoDowngrade := fun s act =>
  inferInstanceAs (Decidable (∀ sub ∈ s.inserting act,
    ∀ old ∈ s.shared.epochHashes.contributions.lookup sub.pubkey, old.suppliedDiff ≤ sub.diff))

/-- The runs in which no race ends with the lesser result, no reset intervenes and no submission
that qualifies finds its connection gone. -/
def BestResultCondition (srv : Server) (s : Sys) (act : Action) : Prop :=
  NoDowngrade s act ∧ QuietReset s act ∧ s.stranded srv act = none

instance (srv : Server) : DecidableRel (BestResultCondition srv) := fun s act =>
  inferInstanceAs (Decidable (NoDowngrade s act ∧ QuietReset s act ∧ s.stranded srv act = none))

/-! ## Carried and settled -/

/-- The entry of a submission's key is at least as difficult. -/
def Sys.Settled (s : Sys) (x : Submission) : Prop :=
  ∃ c, s.shared.epochHashes.contributions.lookup x.pubkey = some c ∧ x.diff ≤ c.suppliedDiff

/-- What is accepted is carried or settled; what is carried or recorded was accepted. -/
structure InFlight (s : Sys) : Prop where
  carried : ∀ t ∈ s.bestTasks, ∀ sub ∈ t.pc.carrying, sub.pubkey = t.pubkey ∧ sub ∈ s.accepted
  recorded : ∀ sub ∈ s.recorded, sub ∈ s.accepted
  accepted : ∀ x ∈ s.accepted, (∃ t ∈ s.bestTasks, t.pc.carrying = some x) ∨ s.Settled x

/-- An insert that does not downgrade settles its submission and unsettles none. -/
lemma Sys.Settled.insert {s s' : Sys} {sub : Submission}
    (he : s'.shared.epochHashes = s.shared.epochHashes.insertContribution sub)
    (hno : ∀ old ∈ s.shared.epochHashes.contributions.lookup sub.pubkey,
      old.suppliedDiff ≤ sub.diff) :
    s'.Settled sub ∧ ∀ x, s.Settled x → s'.Settled x := by
  have hnew : s'.Settled sub := by
    refine ⟨sub.contribution, ?_, UInt32.le_refl _⟩
    rw [he]
    exact AList.lookup_insert _
  refine ⟨hnew, fun x ⟨c, hc, hle⟩ => ?_⟩
  by_cases hpk : x.pubkey = sub.pubkey
  · obtain ⟨c', hc', -⟩ := hnew
    refine ⟨sub.contribution, ?_, UInt32.le_trans hle (hno c (hpk ▸ hc))⟩
    rw [he, hpk]
    exact AList.lookup_insert _
  · refine ⟨c, ?_, hle⟩
    rw [he]
    exact (AList.lookup_insert_ne hpk).trans hc

/-- A step that neither accepts nor inserts, and after which the same submissions are carried. -/
lemma InFlight.other {srv : Server} {s s' : Sys} {act : Action} (hi : InFlight s)
    (hc : BestResultCondition srv s act) (hs : s.step srv act = some s') {who : Actor} {e : Effect}
    (hj : s'.journal = (who, e) :: s.journal) (hsh : s'.shared = s.shared.apply e)
    (hacc : e.accepted = none) (hins : e.inserted = none)
    (hold : ∀ t ∈ s.bestTasks, ∀ sub ∈ t.pc.carrying,
      ∃ u ∈ s'.bestTasks, u.pc.carrying = some sub)
    (hnew : ∀ u ∈ s'.bestTasks, ∀ sub ∈ u.pc.carrying,
      ∃ t ∈ s.bestTasks, t.pc.carrying = some sub ∧ t.pubkey = u.pubkey) : InFlight s' := by
  cases ho : e.opens with
  | true =>
      -- a new epoch: nothing is accepted or recorded in it, and nothing carried into it
      have hquiet := hc.2.1 (by rw [Sys.opening_of_opens hs hj ho]; rfl)
      refine ⟨?_, ?_, ?_⟩
      · intro u hu sub hsub
        obtain ⟨t, ht, hcar, -⟩ := hnew u hu sub hsub
        simp [hquiet t ht] at hcar
      · simp [Sys.recorded_opens hj ho]
      · simp [Sys.accepted_opens hj ho]
  | false =>
      have hacc' : s'.accepted = s.accepted := by rw [Sys.accepted_cons hj ho, hacc]; rfl
      have hrec' : s'.recorded = s.recorded := by rw [Sys.recorded_cons hj ho, hins]; rfl
      have hepoch : s'.shared.epochHashes = s.shared.epochHashes := by
        rw [hsh, (Shared.apply_epoch_of_not_ofEpoch (Effect.not_ofEpoch ho hins) _).1]
      refine ⟨?_, hrec' ▸ hacc' ▸ hi.recorded, ?_⟩
      · intro u hu sub hsub
        obtain ⟨t, ht, hcar, hpk⟩ := hnew u hu sub hsub
        exact hacc' ▸ hpk ▸ hi.carried t ht sub hcar
      · intro x hx
        rcases hi.accepted x (hacc' ▸ hx) with ⟨t, ht, hcar⟩ | ⟨c, hl, hle⟩
        · exact .inl (hold t ht x hcar)
        · exact .inr ⟨c, hepoch ▸ hl, hle⟩

/-- A section of task `i` that neither accepts nor inserts and lets go of nothing. -/
lemma InFlight.same {srv : Server} {s : Sys} {i : ℕ} {t t' : BestTask} {e : Effect}
    (hi : InFlight s) (hc : BestResultCondition srv s (.best i)) (ht : s.bestTasks[i]? = some t)
    (hs : s.step srv (.best i) =
      some ({ s with bestTasks := s.bestTasks.set i t' }.perform (.best i) e))
    (hacc : e.accepted = none) (hins : e.inserted = none) (hpk : t'.pubkey = t.pubkey)
    (hcar : t'.pc.carrying = t.pc.carrying) :
    InFlight ({ s with bestTasks := s.bestTasks.set i t' }.perform (.best i) e) := by
  have hi' := (List.getElem?_eq_some_iff.mp ht).1
  refine hi.other hc hs rfl rfl hacc hins ?_ ?_
  · intro u hu sub hsub
    rcases mem_set_or (y := t') ht hu with rfl | hu
    · exact ⟨t', List.mem_set hi' t', hcar.trans hsub⟩
    · exact ⟨u, hu, hsub⟩
  · intro u hu sub hsub
    rcases List.mem_or_eq_of_mem_set hu with hu | rfl
    · exact ⟨u, hu, hsub, rfl⟩
    · exact ⟨t, List.mem_of_getElem? ht, hcar ▸ hsub, hpk.symm⟩

/-- Task `i` starts to carry a submission that it accepts. -/
lemma InFlight.accept {s : Sys} {i : ℕ} {t : BestTask} {sub : Submission} (hi : InFlight s)
    (ht : s.bestTasks[i]? = some t) (hcar : t.pc.carrying = none) (hpk : sub.pubkey = t.pubkey) :
    InFlight ({ s with bestTasks := s.bestTasks.set i { t with pc := .readContributions sub }
      }.perform (.best i) (.accept sub)) := by
  have hlt := (List.getElem?_eq_some_iff.mp ht).1
  refine ⟨?_, ?_, ?_⟩
  · intro u hu x hx
    rw [Sys.accepted_cons rfl rfl]
    rcases List.mem_or_eq_of_mem_set hu with hu | rfl
    · obtain ⟨hk, hm⟩ := hi.carried u hu x hx
      exact ⟨hk, List.mem_cons_of_mem _ hm⟩
    · simp only [BestPc.carrying, Option.mem_some_iff] at hx
      subst hx
      exact ⟨hpk, List.mem_cons_self⟩
  · intro x hx
    rw [Sys.recorded_cons rfl rfl] at hx
    rw [Sys.accepted_cons rfl rfl]
    exact List.mem_cons_of_mem _ (hi.recorded x hx)
  · intro x hx
    rw [Sys.accepted_cons rfl rfl] at hx
    rcases List.mem_cons.mp hx with rfl | hx
    · exact .inl ⟨_, List.mem_set hlt _, rfl⟩
    · rcases hi.accepted x hx with ⟨u, hu, hux⟩ | hset
      · rcases mem_set_or ht hu with rfl | hu
        · simp [hcar] at hux
        · exact .inl ⟨u, hu, hux⟩
      · exact .inr hset

/-- Task `i` lets go of a submission that is settled afterwards. -/
lemma InFlight.settle {s s' : Sys} {i : ℕ} {t : BestTask} {sub : Submission} {who : Actor}
    {e : Effect} (hi : InFlight s) (ht : s.bestTasks[i]? = some t)
    (hcar : t.pc.carrying = some sub)
    (htasks : s'.bestTasks = s.bestTasks.set i { t with pc := .done })
    (hj : s'.journal = (who, e) :: s.journal) (ho : e.opens = false) (hacc : e.accepted = none)
    (hins : ∀ x ∈ e.inserted, x = sub) (hset : s'.Settled sub)
    (hkeep : ∀ x, s.Settled x → s'.Settled x) : InFlight s' := by
  have hacc' : s'.accepted = s.accepted := by rw [Sys.accepted_cons hj ho, hacc]; rfl
  refine ⟨?_, ?_, ?_⟩
  · intro u hu x hx
    rcases List.mem_or_eq_of_mem_set (htasks ▸ hu) with hu | rfl
    · exact hacc' ▸ hi.carried u hu x hx
    · simp [BestPc.carrying] at hx
  · intro x hx
    rw [Sys.recorded_cons hj ho, List.mem_append, Option.mem_toList] at hx
    rw [hacc']
    rcases hx with hx | hx
    · rw [hins x hx]
      exact (hi.carried t (List.mem_of_getElem? ht) sub hcar).2
    · exact hi.recorded x hx
  · intro x hx
    rcases hi.accepted x (hacc' ▸ hx) with ⟨u, hu, hux⟩ | hx
    · rcases mem_set_or ht hu with rfl | hu
      · rw [hcar, Option.some.injEq] at hux
        exact .inr (hux ▸ hset)
      · exact .inl ⟨u, htasks ▸ hu, hux⟩
    · exact .inr (hkeep x hx)

theorem InFlight.step {srv : Server} {s s' : Sys} {act : Action} (hi : InFlight s)
    (hc : BestResultCondition srv s act) (hs : s.step srv act = some s') : InFlight s' := by
  cases Sys.step_taskMove hs with
  | other who e hj hsh hacc hins htasks =>
      have htasks' : ∃ l, s'.bestTasks = s.bestTasks ++ l ∧ ∀ t ∈ l, t.pc.carrying = none := by
        rcases htasks with h | ⟨addr, solution, pubkey, h, -⟩
        · exact ⟨[], by simp [h], by simp⟩
        · exact ⟨_, h, by simp [BestTask.spawn, BestPc.carrying]⟩
      obtain ⟨l, hl, hnone⟩ := htasks'
      refine hi.other hc hs hj hsh hacc hins ?_ ?_
      · intro t ht sub hsub
        exact ⟨t, hl ▸ List.mem_append_left l ht, hsub⟩
      · intro u hu sub hsub
        rcases List.mem_append.mp (hl ▸ hu) with hu | hu
        · exact ⟨u, hu, hsub, rfl⟩
        · simp [hnone u hu] at hsub
  | task i t t' e hact ht hmove hs' =>
      subst hact hs'
      have hlt := (List.getElem?_eq_some_iff.mp ht).1
      have hmem := List.mem_of_getElem? ht
      have hsame := hi.same hc ht hs
      cases hmove with
      | refuse why hpc _ => exact hsame rfl rfl rfl (by rw [hpc]; rfl)
      | inRange hpc _ _ => exact hsame rfl rfl rfl (by rw [hpc]; rfl)
      | socket hpc _ => exact hsame rfl rfl rfl (by rw [hpc]; rfl)
      | drop hpc =>
          refine hsame rfl rfl rfl ?_
          rcases hpc with ⟨_, hpc⟩ | ⟨_, _, hpc⟩ <;> rw [hpc] <;> rfl
      | decide hpc _ _ => exact hsame rfl rfl rfl (by rw [hpc]; rfl)
      | accept hpc _ _ hsub => exact hi.accept ht (by rw [hpc]; rfl) (by rw [hsub])
      | discard hpc ho hle =>
          exact hi.settle ht (by rw [hpc]; rfl) rfl rfl rfl rfl (by simp [Effect.inserted])
            ⟨_, ho, UInt32.not_lt.mp hle⟩ fun _ h => h
      | write hpc =>
          rename_i sub _
          have hins : s.inserting (.best i) = some sub := by
            simp [Sys.inserting, ht, hpc, BestPc.writing]
          have he : (({ s with
                bestTasks := s.bestTasks.set i { t with pc := .done } } : Sys).perform
              (.best i) (.insertContribution sub)).shared.epochHashes =
              s.shared.epochHashes.insertContribution sub := rfl
          obtain ⟨hset, hkeep⟩ := Sys.Settled.insert he (hc.1 sub hins)
          exact hi.settle ht (by rw [hpc]; rfl) rfl rfl rfl rfl (by simp [Effect.inserted])
            hset hkeep

/-! ## What is noted was accepted -/

/-- What qualifies about a submission. -/
def Submission.qualified (sub : Submission) : Qualified := ⟨sub.pubkey, sub.solution, sub.diff⟩

lemma Submission.qualified_entered (sub : Submission) :
    sub.qualified.Entered sub.contribution := ⟨rfl, rfl, rfl⟩

/-- A task accepts what qualifies, unless its connection is gone. -/
lemma BestTask.step_qualifying {srv : Server} {sh : Shared} {t t' : BestTask} {e : Effect}
    (h : t.step srv sh = some (t', e)) (hsocket : t.stranded srv sh = none) :
    t.qualifying srv sh = e.accepted.map Submission.qualified := by
  cases hpc : t.pc with
  | readProof nonceRange conn =>
      simp only [BestTask.step, hpc] at h
      simp only [BestTask.qualifying, hpc, BestTask.qualified]
      split at h <;> rename_i hok <;> simp only [Option.some.injEq, Prod.mk.injEq] at h <;>
        obtain ⟨-, rfl⟩ := h
      · exact if_pos hok
      · exact if_neg hok
  | _ =>
      -- what qualifies would be stranded, and nothing is accepted
      simp only [BestTask.qualifying, hpc, hsocket]
      cases BestTask.step_move h with
      | accept hpc' => cases hpc.symm.trans hpc'
      | _ => rfl

/-- A step accepts what qualifies, unless its connection is gone. -/
lemma Sys.step_qualifying {srv : Server} {s s' : Sys} {act : Action}
    (hs : s.step srv act = some s') (hsocket : s.stranded srv act = none) :
    ∃ who e, s'.journal = (who, e) :: s.journal ∧
      s.qualifying srv act = e.accepted.map Submission.qualified := by
  cases Sys.step_move hs with
  | best ht ht' =>
      refine ⟨_, _, rfl, ?_⟩
      simp only [Sys.qualifying, Sys.stranded, ht, Option.bind_some] at hsocket ⊢
      exact BestTask.step_qualifying ht' hsocket
  | _ =>
      cases Sys.step_taskMove hs with
      | other who e hj _ hacc _ _ => exact ⟨who, e, hj, by rw [hacc]; rfl⟩
      | task i _ _ _ hact => cases hact

/-- While no submission is stranded, the notes are the submissions accepted. -/
lemma qualified_accepted_step {srv : Server} {s s' : Sys} {act : Action} {n : List Qualified}
    (hn : n = s.accepted.map Submission.qualified) (hsocket : s.stranded srv act = none)
    (hs : s.step srv act = some s') :
    (submissionObserver srv).note s act n = s'.accepted.map Submission.qualified := by
  by_cases hopening : (s.opening act).isSome
  · obtain ⟨who, e, hj, ho⟩ := Sys.opens_of_opening hs hopening
    rw [Sys.accepted_opens hj ho]
    exact if_pos hopening
  · obtain ⟨who, e, hj, hq⟩ := Sys.step_qualifying hs hsocket
    have ho : e.opens = false := by
      refine Bool.eq_false_iff.mpr fun ho => hopening ?_
      rw [Sys.opening_of_opens hs hj ho]
      rfl
    rw [Sys.accepted_cons hj ho, List.map_append, ← hn]
    simp only [submissionObserver, if_neg hopening, hq]
    cases e.accepted <;> rfl

/-! ## Every run -/

/-- **Best result.**  In every run in which no insert replaces an entry of higher difficulty, no
reset overtakes a carried submission and none that qualifies is stranded, every miner's best
result is kept. -/
theorem bestResult {srv : Server} {x : Sys × List Qualified}
    (h : Reach ((machine srv).observe (submissionObserver srv))
      (fun x act => BestResultCondition srv x.1 act) x) : BestResult x := by
  have hr : Reach (machine srv) (BestResultCondition srv) x.1 := h.forget fun _ _ hc => hc
  have hi : InFlight x.1 := by
    refine hr.invariant ?_ fun s act s' _ hi hc hs => hi.step hc hs
    rintro _ ⟨p, rfl⟩
    exact ⟨by simp [Sys.start], by simp [Sys.start, Sys.recorded, Sys.epochJournal],
      by simp [Sys.start, Sys.accepted, Sys.epochJournal]⟩
  have hn : x.2 = x.1.accepted.map Submission.qualified := by
    refine h.observed_invariant (I := fun s n => n = s.accepted.map Submission.qualified) ?_
      fun s n act s' _ hn hc hs => qualified_accepted_step hn hc.2.2 hs
    rintro _ ⟨p, rfl⟩
    rfl
  intro pubkey hdone
  -- with the tasks done nothing is carried, so everything that qualified is settled
  have hsettled : ∀ q ∈ x.2, q.pubkey = pubkey →
      ∃ c, x.1.shared.epochHashes.contributions.lookup pubkey = some c ∧
        q.diff ≤ c.suppliedDiff := by
    intro q hq hpk
    rw [hn] at hq
    obtain ⟨sub, hsub, rfl⟩ := List.mem_map.mp hq
    change sub.pubkey = pubkey at hpk
    rcases hi.accepted sub hsub with ⟨t, ht, hcar⟩ | hset
    · have hown := (hi.carried t ht sub hcar).1
      rw [hdone t ht (hown.symm.trans hpk)] at hcar
      cases hcar
    · exact hpk ▸ hset
  cases hl : x.1.shared.epochHashes.contributions.lookup pubkey with
  | none =>
      intro q hq hpk
      obtain ⟨c, hc, -⟩ := hsettled q hq hpk
      rw [hl] at hc
      cases hc
  | some c =>
      obtain ⟨sub, hsub, hpk, rfl⟩ := recorded_of_lookup hr hl
      refine ⟨sub.qualified, hn ▸ List.mem_map_of_mem (hi.recorded sub hsub), hpk,
        sub.qualified_entered, ?_⟩
      intro q hq hqpk
      obtain ⟨c, hc, hle⟩ := hsettled q hq hqpk
      rw [hl, Option.some.injEq] at hc
      subst hc
      exact hle

/-- Two submissions of a miner, one after the other, meet the condition of `bestResult`. -/
theorem bestResult_inTurn :
    ∃ x, Reach ((machine (Replay.server .unavailable)).observe
        (submissionObserver (Replay.server .unavailable)))
        (fun x act => BestResultCondition (Replay.server .unavailable) x.1 act) x ∧
      x.2.map Qualified.diff = [20, 10] ∧ BestResult x := by
  obtain ⟨x, hr, hx⟩ := exists_of_replayObserved (Replay.server .unavailable)
    (submissionObserver (Replay.server .unavailable))
    (fun x act => BestResultCondition (Replay.server .unavailable) x.1 act) (Replay.proofAt 1 0)
    (Replay.served ++ Replay.solve 1 5 1 1 (Replay.solution 1 20))
    (fun x => decide (x.2.map Qualified.diff = [20, 10])) (by decide +kernel)
  exact ⟨x, hr, by simpa only [decide_eq_true_eq] using hx, bestResult hr⟩

/-- Without the condition a miner's best result can be lost: two first submissions race, each
finds no entry, and the lesser is inserted last. -/
theorem not_bestResult :
    ¬ ∀ srv x, Reach ((machine srv).observe (submissionObserver srv))
      (fun x act => Honest x.1 act) x → BestResult x := by
  refine not_forall_of_replayObserved (O := submissionObserver)
    (C := fun _ x act => Honest x.1 act) (P := fun _ x => BestResult x)
    (Replay.server .unavailable) (Replay.proofAt 1 0)
    ([.connect 1 (Replay.key 1) .V1] ++ Replay.mission 0 1 ++
      Replay.solve 0 4 1 1 (Replay.solution 1 10) ++
      Replay.solve 1 5 1 1 (Replay.solution 1 20) ++ [.best 0])
    (fun x => (x.1.bestTasks.all fun t => decide (t.pc = .done)) &&
      (x.1.shared.epochHashes.contributions.lookup (Replay.key 1)).any fun c =>
        x.2.any fun q => decide (q.pubkey = Replay.key 1 ∧ c.suppliedDiff < q.diff))
    ?_ (by decide +kernel)
  intro x hx hc
  simp only [Bool.and_eq_true, List.all_eq_true, decide_eq_true_eq, Option.any_eq_true,
    List.any_eq_true] at hx
  obtain ⟨hdone, c, hl, q, hq, hpk, hlt⟩ := hx
  have hbest := hc (Replay.key 1) fun t ht _ => hdone t ht
  rw [hl] at hbest
  obtain ⟨best, -, -, ⟨hdiff, -⟩, hmax⟩ := hbest
  exact absurd (hdiff ▸ hlt) (UInt32.not_lt.mpr (hmax q hq hpk))

end OrePool
