import OrePool.Core.Journal
import OrePool.Lemmas.Missions
import OrePool.Replay

/-!
# The range check and honest miners

A miner that solves the mission it was sent should pass the range check.  `HonestServed` says so
of the state in which its `BestSolution` task looks at the range table.  An observer notes which
missions had been sent when the frame of a task came in.

The table is written by the mission's task after the message has been sent, and has one entry for
a key whatever its connections: the miner's answer can overtake the entry
(`not_honestServed`), and a later mission replaces it.  `honestServed_iff` says exactly when
honest answers pass: when the mission recorded last for the key has the nonce.
-/

namespace OrePool

open Interleaving

/-! ## What is observed -/

/-- The number of a `BestSolution` task and the missions sent before its frame came in. -/
structure FrameNote where
  task : ℕ
  sent : List Mission
  deriving DecidableEq

/-- The missions sent so far. -/
def Sys.missionsSent (s : Sys) : List Mission :=
  (s.missions.filter MissionTask.sent).map MissionTask.mission

/-- Notes the missions sent whenever a frame with a solution comes in. -/
def frameObserver (srv : Server) : Observer Sys Action (List FrameNote) where
  start _ := []
  note s act n :=
    match act with
    | .receive who m =>
        match received srv.signatures who m with
        | some (.bestSolution _ _ _) => ⟨s.bestTasks.length, s.missionsSent⟩ :: n
        | _ => n
    | _ => n

/-! ## The property -/

/-- The frame of task `i` answers a mission: one that was sent to its key before the frame came in,
is for the current challenge and has the nonce in its range. -/
structure HonestReply (x : Sys × List FrameNote) (i : ℕ) (t : BestTask) (m : Mission) : Prop where
  sent : ∃ note ∈ x.2, note.task = i ∧ m ∈ note.sent
  pubkey : m.pubkey = t.pubkey
  challenge : m.msg.challenge = x.1.shared.appProof.challenge
  inRange : m.nonceRange.contains t.solution.nonce = true

/-- **Honest miners are served.**  No task that is at the range check with an honest answer is
refused there. -/
def HonestServed (srv : Server) (x : Sys × List FrameNote) : Prop :=
  ∀ (i : ℕ) (t : BestTask) (m : Mission) (s' : Sys), x.1.bestTasks[i]? = some t →
    t.pc = .readRange → HonestReply x i t m → x.1.step srv (.best i) = some s' →
    ∀ why, s'.journal ≠ (.best i, .refuse t.pubkey why) :: x.1.journal

/-! ## The range table and its history -/

/-- The range an effect records for a key. -/
def Effect.recordsFor (pubkey : Pubkey) : Effect → Option NonceRange
  | .insertRange pk range => if pk = pubkey then some range else Option.none
  | _ => Option.none

/-- Mission task `j` is the last to have recorded a range for a key. -/
def Sys.LastRecorded (s : Sys) (pubkey : Pubkey) (j : ℕ) : Prop :=
  ∃ range, latest (Effect.recordsFor pubkey) s.journal = some (.mission j, range)

/-- The mission recorded last for the key of a task has its nonce. -/
def Sys.LastCovers (s : Sys) (t : BestTask) : Prop :=
  ∃ j u, s.LastRecorded t.pubkey j ∧ s.missions[j]? = some u ∧
    u.mission.nonceRange.contains t.solution.nonce = true

/-- It does for every honest answer at the range check. -/
def LastCovers (x : Sys × List FrameNote) : Prop :=
  ∀ (i : ℕ) (t : BestTask) (m : Mission), x.1.bestTasks[i]? = some t → t.pc = .readRange →
    HonestReply x i t m → x.1.LastCovers t

/-- The range table holds what was recorded last, and a mission task records its own range for
its own key. -/
structure Table (s : Sys) : Prop where
  lookup : ∀ pubkey, s.shared.clientNonceRanges.lookup pubkey =
    (latest (Effect.recordsFor pubkey) s.journal).map Prod.snd
  recorded : ∀ who pubkey range, (who, Effect.insertRange pubkey range) ∈ s.journal →
    ∃ j u, who = .mission j ∧ s.missions[j]? = some u ∧ u.mission.pubkey = pubkey ∧
      u.mission.nonceRange = range

@[simp] lemma Effect.recordsFor_insertRange (pk pubkey : Pubkey) (range : NonceRange) :
    (Effect.insertRange pk range).recordsFor pubkey =
      if pk = pubkey then some range else Option.none := rfl

lemma Shared.apply_ranges {e : Effect} (h : ∀ pubkey range, e ≠ .insertRange pubkey range)
    (sh : Shared) : (sh.apply e).clientNonceRanges = sh.clientNonceRanges := by
  cases e <;> first | rfl | exact absurd rfl (h _ _)

theorem Table.step {srv : Server} {s s' : Sys} {act : Action} (hi : Table s)
    (hs : s.step srv act = some s') : Table s' := by
  have hgrow : ∀ {who pubkey range}, (∃ j u, who = Actor.mission j ∧ s.missions[j]? = some u ∧
      u.mission.pubkey = pubkey ∧ u.mission.nonceRange = range) →
      ∃ j u, who = Actor.mission j ∧ s'.missions[j]? = some u ∧ u.mission.pubkey = pubkey ∧
        u.mission.nonceRange = range := by
    rintro who pubkey range ⟨j, u, hw, hu, hpk, hr⟩
    obtain ⟨u', hu', hm⟩ := Sys.missions_grow hs hu
    exact ⟨j, u', hw, hu', hm ▸ hpk, hm ▸ hr⟩
  -- a step that records no range
  have hquiet : ∀ who e, s'.journal = (who, e) :: s.journal → s'.shared = s.shared.apply e →
      (∀ pubkey range, e ≠ .insertRange pubkey range) → Table s' := by
    intro who e hj hsh hne
    refine ⟨?_, ?_⟩
    · intro pubkey
      have hnone : e.recordsFor pubkey = none := by
        cases e <;> first | rfl | exact absurd rfl (hne _ _)
      rw [hsh, Shared.apply_ranges hne, hj, latest_cons_none hnone, hi.lookup]
    · intro w pubkey range hm
      rw [hj, List.mem_cons, Prod.mk.injEq] at hm
      rcases hm with ⟨-, rfl⟩ | hm
      · exact absurd rfl (hne _ _)
      · exact hgrow (hi.recorded w pubkey range hm)
  cases Sys.step_missionMove hs with
  | other who e he hsh hj _ _ =>
      exact hquiet who e hj hsh fun _ _ h => by rw [h] at he; cases he
  | loop reply pc e _ hstep hs' =>
      refine hquiet .missions e (by rw [hs']; rfl) (by rw [hs']; rfl) ?_
      intro _ _ h
      rcases ReadyPc.step_effect hstep with h' | h' | ⟨_, h'⟩ | ⟨_, h'⟩ <;> rw [h'] at h <;> cases h
  | task i t t' e _ ht hstep hs' =>
      rcases MissionTask.step_effect hstep with ⟨-, -, rfl⟩ | ⟨-, rfl, rfl⟩
      · exact hquiet (.mission i) _ (by rw [hs']; rfl) (by rw [hs']; rfl) fun _ _ => by simp
      · refine ⟨?_, ?_⟩
        · intro pubkey
          rw [hs', Sys.perform_shared, Sys.perform_journal]
          by_cases hpk : t.mission.pubkey = pubkey
          · subst hpk
            rw [latest_cons_some (b := t.mission.nonceRange) (by simp)]
            exact AList.lookup_insert _
          · rw [latest_cons_none (by simp [hpk])]
            exact (AList.lookup_insert_ne (Ne.symm hpk)).trans (hi.lookup pubkey)
        · intro w pubkey range hm
          rw [hs', Sys.perform_journal, List.mem_cons, Prod.mk.injEq,
            Effect.insertRange.injEq] at hm
          rcases hm with ⟨rfl, rfl, rfl⟩ | hm
          · exact hgrow ⟨i, t, rfl, ht, rfl, rfl⟩
          · exact hgrow (hi.recorded w pubkey range hm)

/-- The latest entry is the range of a mission of the key. -/
lemma Table.mission_of_latest {s : Sys} (hi : Table s) {pubkey : Pubkey} {who : Actor}
    {range : NonceRange}
    (h : latest (Effect.recordsFor pubkey) s.journal = some (who, range)) :
    ∃ j u, who = .mission j ∧ s.missions[j]? = some u ∧ u.mission.pubkey = pubkey ∧
      u.mission.nonceRange = range := by
  obtain ⟨e, hmem, he⟩ := mem_of_latest h
  cases e <;> simp only [Effect.recordsFor, reduceCtorEq, Option.ite_none_right_eq_some,
    Option.some.injEq] at he
  obtain ⟨rfl, rfl⟩ := he
  exact hi.recorded _ _ _ hmem

theorem table {srv : Server} {C : Sys → Action → Prop} {s : Sys}
    (h : Reach (machine srv) C s) : Table s := by
  refine h.invariant ?_ fun s act s' _ hi _ hs => hi.step hs
  rintro _ ⟨p, rfl⟩
  exact ⟨fun _ => rfl, by simp [Sys.start]⟩

/-! ## When honest miners are served -/

/-- A task is refused at the range check exactly when the table has no range with its nonce. -/
lemma BestTask.refused_iff {srv : Server} {s s' : Sys} {i : ℕ} {t : BestTask}
    (ht : s.bestTasks[i]? = some t) (hpc : t.pc = .readRange)
    (hs : s.step srv (.best i) = some s') :
    (∃ why, s'.journal = (.best i, .refuse t.pubkey why) :: s.journal) ↔
      ∀ range, s.shared.clientNonceRanges.lookup t.pubkey = some range →
        range.contains t.solution.nonce = false := by
  cases Sys.step_move hs with
  | best hu hstep =>
      rw [ht, Option.some.injEq] at hu
      subst hu
      cases BestTask.step_move hstep with
      | refuse why _ hr => exact ⟨fun _ => hr, fun _ => ⟨why, rfl⟩⟩
      | inRange _ hr hn =>
          refine ⟨fun ⟨why, hj⟩ => by simp at hj, fun h => ?_⟩
          rw [h _ hr] at hn
          cases hn
      | socket h _ | accept h _ _ _ | decide h _ _ | discard h _ _ | write h =>
          rw [hpc] at h
          cases h
      | drop h =>
          rcases h with ⟨_, h⟩ | ⟨_, _, h⟩ <;> rw [hpc] at h <;> cases h

/-- A task at the range check can take its step. -/
lemma BestTask.exists_step (srv : Server) {s : Sys} {i : ℕ} {t : BestTask}
    (ht : s.bestTasks[i]? = some t) (hpc : t.pc = .readRange) :
    ∃ s', s.step srv (.best i) = some s' := by
  have hstep : (t.step srv s.shared).isSome := by
    rw [BestTask.step]
    rw [hpc]
    dsimp only
    split
    · rfl
    · split <;> rfl
  obtain ⟨⟨t', e⟩, hte⟩ := Option.isSome_iff_exists.mp hstep
  simp [Sys.step, ht, hte]

/-- A task passes the range check exactly when the mission recorded last for its key has its
nonce. -/
lemma Table.passes_iff {srv : Server} {s s' : Sys} (htable : Table s) {i : ℕ} {t : BestTask}
    (ht : s.bestTasks[i]? = some t) (hpc : t.pc = .readRange)
    (hs : s.step srv (.best i) = some s') :
    (∀ why, s'.journal ≠ (.best i, .refuse t.pubkey why) :: s.journal) ↔ s.LastCovers t := by
  have hrefused := BestTask.refused_iff ht hpc hs
  constructor
  · intro hserved
    have hnot : ¬ ∀ range, s.shared.clientNonceRanges.lookup t.pubkey = some range →
        range.contains t.solution.nonce = false := fun hall => by
      obtain ⟨why, hwhy⟩ := hrefused.mpr hall
      exact hserved why hwhy
    simp only [not_forall, Bool.not_eq_false] at hnot
    obtain ⟨range, hlook, hin⟩ := hnot
    rw [htable.lookup, Option.map_eq_some_iff] at hlook
    obtain ⟨⟨who, _⟩, hlast, rfl⟩ := hlook
    obtain ⟨j, u, rfl, hu, -, hr⟩ := htable.mission_of_latest hlast
    exact ⟨j, u, ⟨_, hlast⟩, hu, hr ▸ hin⟩
  · rintro ⟨j, u, ⟨range, hlast⟩, hu, hin⟩ why hj
    have hout := hrefused.mp ⟨why, hj⟩ range (by rw [htable.lookup, hlast]; rfl)
    obtain ⟨k, v, hk, hv, -, rfl⟩ := htable.mission_of_latest hlast
    rw [Actor.mission.injEq] at hk
    rw [← hk, hu, Option.some.injEq] at hv
    rw [← hv, hin] at hout
    cases hout

/-- **Honest miners.**  In every state of every run, honest answers pass the range check if and
only if the mission recorded last for their key has their nonce. -/
theorem honestServed_iff {srv : Server} {x : Sys × List FrameNote}
    (h : Reach ((machine srv).observe (frameObserver srv)) Any x) :
    HonestServed srv x ↔ LastCovers x := by
  have htable : Table x.1 := table (h.forget (D := Any) fun _ _ _ => trivial)
  constructor
  · intro hserved i t m ht hpc hm
    obtain ⟨s', hs⟩ := BestTask.exists_step srv ht hpc
    exact (htable.passes_iff ht hpc hs).mp (hserved i t m s' ht hpc hm hs)
  · intro hcov i t m s' ht hpc hm hs
    exact (htable.passes_iff ht hpc hs).mpr (hcov i t m ht hpc hm)

/-- `honestServed_iff` at a state in which an answer waits for the check. -/
theorem honestServed_iff_waiting :
    ∃ x, Reach ((machine (Replay.server .unavailable)).observe
        (frameObserver (Replay.server .unavailable))) Any x ∧
      x.2.map (fun note => (note.task, note.sent.length)) = [(0, 1)] ∧
      (HonestServed (Replay.server .unavailable) x ↔ LastCovers x) := by
  obtain ⟨x, hr, hx⟩ := exists_of_replayObserved (Replay.server .unavailable)
    (frameObserver (Replay.server .unavailable)) Any (Replay.proofAt 1 0)
    ([.connect 1 (Replay.key 1) .V1] ++ Replay.mission 0 1 ++
      Replay.solve 0 0 1 1 (Replay.solution 1 10))
    (fun x => decide (x.2.map (fun note => (note.task, note.sent.length)) = [(0, 1)]))
    (by decide +kernel)
  exact ⟨x, hr, by simpa only [decide_eq_true_eq] using hx, honestServed_iff hr⟩

/-- Honest miners are not always served: the mission has been sent but not recorded, and the
answer is refused. -/
theorem not_honestServed :
    ¬ ∀ srv x, Reach ((machine srv).observe (frameObserver srv)) (fun x act => Honest x.1 act) x →
      HonestServed srv x := by
  refine not_forall_of_replayObserved (O := frameObserver)
    (C := fun _ x act => Honest x.1 act) (P := HonestServed) (Replay.server .unavailable)
    (Replay.proofAt 1 0)
    ([.connect 1 (Replay.key 1) .V1] ++ Replay.assign 0 1 ++ [.mission 0] ++
      Replay.solve 0 0 1 1 (Replay.solution 1 10))
    (fun x => decide (x.1.bestTasks[0]? =
        some (BestTask.spawn 1 (Replay.solution 1 10) (Replay.key 1))) &&
      decide (x.1.shared.clientNonceRanges.lookup (Replay.key 1) = none) &&
      x.2.any fun note => decide (note.task = 0) && note.sent.any fun m =>
        decide (m.pubkey = Replay.key 1 ∧ m.msg.challenge = x.1.shared.appProof.challenge ∧
          m.nonceRange.contains (Replay.solution 1 10).nonce = true))
    ?_ (by decide +kernel)
  intro x hx hc
  simp only [Bool.and_eq_true, decide_eq_true_eq, List.any_eq_true] at hx
  obtain ⟨⟨ht, hnone⟩, note, hnote, htask, m, hm, hpk, hch, hin⟩ := hx
  obtain ⟨s', hstep⟩ := BestTask.exists_step (Replay.server .unavailable) ht rfl
  obtain ⟨why, hj⟩ := (BestTask.refused_iff ht rfl hstep).mpr fun range hr => by
    rw [BestTask.spawn, hnone] at hr
    cases hr
  exact hc 0 _ m s' ht rfl ⟨⟨note, hnote, htask, hm⟩, hpk, hch, hin⟩ hstep why hj

end OrePool
