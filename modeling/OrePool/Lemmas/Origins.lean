import OrePool.Core.Flow
import OrePool.Lemmas.Connections
import OrePool.Lemmas.Missions
import OrePool.Lemmas.Stages

/-!
# Where things come from

What a `BestSolution` task knows it has read at different times, so each part is followed on its
own, as a `Flow` of the running server: the frames of the tasks, the connections and the ranges
they have found, the submissions they have made of them, and the solutions of the rounds.
-/

namespace OrePool

open Interleaving

/-! ## Frames -/

/-- The frame a task was started for. -/
def BestTask.frame (t : BestTask) : SocketAddr × Pubkey × Solution := (t.addr, t.pubkey, t.solution)

/-- A task was there before, was started for the frame that came in, or has just moved. -/
lemma Sys.step_bestTask {srv : Server} {s s' : Sys} {act : Action} (hs : s.step srv act = some s')
    {u : BestTask} (hu : u ∈ s'.bestTasks) :
    u ∈ s.bestTasks ∨
      (∃ who m, act = .receive who m ∧ u.pc = .readRange ∧ u.addr = who ∧
        received srv.signatures who m = some (.bestSolution who u.solution u.pubkey)) ∨
      ∃ (i : ℕ) (t : BestTask) (e : Effect), act = .best i ∧ s.bestTasks[i]? = some t ∧
        BestTask.Move srv s.shared t u e := by
  cases Sys.step_move hs with
  | receive who m =>
      rcases hm : received srv.signatures who m with _ | msg
      · rw [hm] at hu
        exact .inl hu
      · rw [hm] at hu
        cases msg with
        | bestSolution addr solution pubkey =>
            rcases List.mem_append.mp hu with hu | hu
            · exact .inl hu
            · obtain rfl := List.mem_singleton.mp hu
              obtain ⟨rfl, -⟩ := received_bestSolution hm
              exact .inr (.inl ⟨addr, m, rfl, rfl, rfl, hm⟩)
        | ready _ | mining _ | pong _ => exact .inl hu
  | best ht hstep =>
      rcases List.mem_or_eq_of_mem_set hu with hu | rfl
      · exact .inl hu
      · exact .inr (.inr ⟨_, _, _, rfl, ht, BestTask.step_move hstep⟩)
  | notify _ _ | connect _ _ | disconnect _ | ready _ | missions _ | mission _ _ | submission _
  | attender _ _ | land _ _ _ _ _ | account _ => exact .inl hu

lemma BestTask.Move.frame_eq {srv : Server} {sh : Shared} {t t' : BestTask} {e : Effect}
    (h : BestTask.Move srv sh t t' e) : t'.frame = t.frame := by
  cases h <;> rfl

/-- The frames of the tasks come in over the websockets. -/
def frameFlow (srv : Server) : Flow (machine srv) (SocketAddr × Pubkey × Solution) where
  items s := {x | ∃ t ∈ s.bestTasks, t.frame = x}
  source _ act := {x | ∃ m, act = .receive x.1 m ∧
    received srv.signatures x.1 m = some (.bestSolution x.1 x.2.2 x.2.1)}
  init := by
    rintro _ ⟨p, rfl⟩
    simp [Sys.start]
  step := by
    rintro s act s' - hs _ ⟨u, hu, rfl⟩
    rcases Sys.step_bestTask hs hu with hu | ⟨who, m, rfl, -, rfl, hm⟩ | ⟨i, t, e, -, ht, hmove⟩
    · exact .inl ⟨u, hu, rfl⟩
    · exact .inr ⟨m, rfl, hm⟩
    · exact .inl ⟨t, List.mem_of_getElem? ht, hmove.frame_eq.symm⟩

/-! ## Connections -/

/-- The connections stored and those the tasks have found, by address, come from handshakes. -/
def connectionFlow (srv : Server) : Flow (machine srv) (SocketAddr × ClientConnection) where
  items s := {x | s.shared.sockets.lookup x.1 = some x.2 ∨
    ∃ t ∈ s.bestTasks, t.addr = x.1 ∧ x.2 ∈ t.pc.connection}
  source _ act := {x | act = .connect x.1 x.2.pubkey x.2.clientVersion ∧ srv.Registered x.2}
  init := by
    rintro _ ⟨p, rfl⟩
    ext x
    simp [Sys.start]
  step := by
    rintro s act s' - hs x (hl | ⟨u, hu, haddr, hc⟩)
    · exact (Sys.step_sockets hs hl).imp .inl id
    · rcases Sys.step_bestTask hs hu with hu | ⟨who, m, -, hpc, -, -⟩ | ⟨i, t, e, -, ht, hmove⟩
      · exact .inl (.inr ⟨u, hu, haddr, hc⟩)
      · rw [hpc] at hc
        cases hc
      · have ht' : t.addr = x.1 := (congrArg Prod.fst hmove.frame_eq).symm.trans haddr
        rcases hmove.connection hc with hc | hl
        · exact .inl (.inr ⟨t, List.mem_of_getElem? ht, ht', hc⟩)
        · exact .inl (.inl (ht' ▸ hl))

/-! ## Ranges -/

/-- The range a task has found its nonce in. -/
def BestPc.nonceRange : BestPc → Option NonceRange
  | .readSocket r => some r
  | .readProof r _ => some r
  | _ => none

/-- A task has its range from before, or finds it in the table. -/
lemma BestTask.Move.nonceRange {srv : Server} {sh : Shared} {t t' : BestTask} {e : Effect}
    (h : BestTask.Move srv sh t t' e) {r : NonceRange} (hr : t'.pc.nonceRange = some r) :
    t.pc.nonceRange = some r ∨
      sh.clientNonceRanges.lookup t.pubkey = some r ∧ r.contains t.solution.nonce = true := by
  cases h with
  | inRange _ hl hn =>
      obtain rfl := Option.some.inj hr
      exact .inr ⟨hl, hn⟩
  | socket hpc _ => exact .inl (by rw [hpc]; exact hr)
  | refuse _ _ _ | accept _ _ _ _ | drop _ | decide _ _ _ | discard _ _ _ | write _ => cases hr

/-- A range in the table was there before or is recorded by a mission task. -/
lemma Sys.step_clientNonceRanges {srv : Server} {s s' : Sys} {act : Action}
    (hs : s.step srv act = some s') {pubkey : Pubkey} {r : NonceRange}
    (hl : s'.shared.clientNonceRanges.lookup pubkey = some r) :
    s.shared.clientNonceRanges.lookup pubkey = some r ∨
      ∃ t ∈ s.missions, t.sent ∧ t.mission.pubkey = pubkey ∧ t.mission.nonceRange = r := by
  cases Sys.step_missionMove hs with
  | other who e he hsh _ _ _ =>
      have hsame : (s.shared.apply e).clientNonceRanges = s.shared.clientNonceRanges := by
        cases e <;> first | rfl | cases he
      exact .inl (hsame ▸ hsh ▸ hl)
  | loop reply pc e _ hstep hs' =>
      rw [hs'] at hl
      rcases ReadyPc.step_effect hstep with rfl | rfl | ⟨_, rfl⟩ | ⟨_, rfl⟩ <;> exact .inl hl
  | task i t t' e _ ht hstep hs' =>
      rw [hs'] at hl
      rcases MissionTask.step_effect hstep with ⟨-, -, rfl⟩ | ⟨hpc, -, rfl⟩
      · exact .inl hl
      · rcases HashMap.lookup_of_insert hl with ⟨rfl, rfl⟩ | hl
        · exact .inr ⟨t, List.mem_of_getElem? ht, by simp [MissionTask.sent, hpc], rfl, rfl⟩
        · exact .inl hl

/-- A mission that is sent after a step was sent before or by the step. -/
lemma Sys.step_missionSent {srv : Server} {s s' : Sys} {act : Action}
    (hs : s.step srv act = some s') {u : MissionTask} (hu : u ∈ s'.missions) (hsent : u.sent) :
    (∃ t ∈ s.missions, t.sent ∧ t.mission = u.mission) ∨
      ∃ i t, act = .mission i ∧ s.missions[i]? = some t ∧ t.pc = .send ∧ t.mission = u.mission := by
  cases Sys.step_missionMove hs with
  | other _ _ _ _ _ _ hm => exact .inl ⟨u, hm ▸ hu, hsent, rfl⟩
  | loop reply pc e _ hstep hs' =>
      rw [hs', Sys.perform_missions, List.mem_append] at hu
      rcases hu with hu | hu
      · exact .inl ⟨u, hu, hsent, rfl⟩
      · -- a mission is spawned with its message still to be sent
        rcases ReadyPc.step_effect hstep with rfl | rfl | ⟨_, rfl⟩ | ⟨_, rfl⟩ <;>
          simp only [Effect.mission, List.not_mem_nil, List.mem_singleton] at hu
        subst hu
        exact absurd rfl hsent
  | task i t t' e hact ht hstep hs' =>
      have hmis : e.mission = [] := by
        rcases MissionTask.step_effect hstep with ⟨-, -, rfl⟩ | ⟨-, -, rfl⟩ <;> rfl
      rw [hs', Sys.perform_missions, hmis, List.append_nil] at hu
      rcases List.mem_or_eq_of_mem_set hu with hu | rfl
      · exact .inl ⟨u, hu, hsent, rfl⟩
      · rcases MissionTask.step_effect hstep with ⟨hpc, rfl, -⟩ | ⟨hpc, rfl, -⟩
        · exact .inr ⟨i, t, hact, ht, hpc, rfl⟩
        · exact .inl ⟨t, List.mem_of_getElem? ht, by simp [MissionTask.sent, hpc], rfl⟩

/-- The range of a mission with the key it is for. -/
def Mission.offer (m : Mission) : Pubkey × NonceRange := (m.pubkey, m.nonceRange)

/-- The ranges in the table, those of missions sent and those the tasks have found, by key, come
from the missions as they are sent. -/
def rangeFlow (srv : Server) : Flow (machine srv) (Pubkey × NonceRange) where
  items s := {x | s.shared.clientNonceRanges.lookup x.1 = some x.2 ∨
    (∃ t ∈ s.missions, t.sent ∧ t.mission.offer = x) ∨
    ∃ t ∈ s.bestTasks, t.pubkey = x.1 ∧ t.pc.nonceRange = some x.2}
  source s act := {x | ∃ i t, act = .mission i ∧ s.missions[i]? = some t ∧ t.pc = .send ∧
    t.mission.offer = x}
  init := by
    rintro _ ⟨p, rfl⟩
    ext x
    simp [Sys.start]
  step := by
    rintro s act s' - hs x (hl | ⟨u, hu, hsent, rfl⟩ | ⟨u, hu, hpk, hr⟩)
    · rcases Sys.step_clientNonceRanges hs hl with hl | ⟨t, ht, hsent, hpk, hr⟩
      · exact .inl (.inl hl)
      · exact .inl (.inr (.inl ⟨t, ht, hsent, Prod.ext hpk hr⟩))
    · rcases Sys.step_missionSent hs hu hsent with ⟨t, ht, hsent, hm⟩ | ⟨i, t, hact, ht, hpc, hm⟩
      · exact .inl (.inr (.inl ⟨t, ht, hsent, congrArg Mission.offer hm⟩))
      · exact .inr ⟨i, t, hact, ht, hpc, congrArg Mission.offer hm⟩
    · rcases Sys.step_bestTask hs hu with hu | ⟨who, m, -, hpc, -, -⟩ | ⟨i, t, e, -, ht, hmove⟩
      · exact .inl (.inr (.inr ⟨u, hu, hpk, hr⟩))
      · rw [hpc] at hr
        cases hr
      · have ht' : t.pubkey = x.1 := hmove.frame.1.symm.trans hpk
        rcases hmove.nonceRange hr with hr | ⟨hl, -⟩
        · exact .inl (.inr (.inr ⟨t, List.mem_of_getElem? ht, ht', hr⟩))
        · exact .inl (.inl (ht' ▸ hl))

/-- Every task has found its own nonce in its range. -/
theorem inRange {srv : Server} {C : Sys → Action → Prop} {s : Sys} (h : Reach (machine srv) C s) :
    ∀ t ∈ s.bestTasks, ∀ r, t.pc.nonceRange = some r → r.contains t.solution.nonce = true := by
  refine h.invariant (I := fun s => ∀ t ∈ s.bestTasks, ∀ r, t.pc.nonceRange = some r →
    r.contains t.solution.nonce = true) ?_ ?_
  · rintro _ ⟨p, rfl⟩ t ht
    cases ht
  · intro s act s' _ hi _ hs u hu r hr
    rcases Sys.step_bestTask hs hu with hu | ⟨who, m, -, hpc, -, -⟩ | ⟨i, t, e, -, ht, hmove⟩
    · exact hi u hu r hr
    · rw [hpc] at hr
      cases hr
    · rw [hmove.frame.2]
      rcases hmove.nonceRange hr with hr | ⟨-, hn⟩
      · exact hi t (List.mem_of_getElem? ht) r hr
      · exact hn

/-! ## Submissions -/

/-- What is about to be inserted is carried by a task. -/
lemma Sys.carrying_of_inserting {s : Sys} {act : Action} {sub : Submission}
    (h : s.inserting act = some sub) : ∃ t ∈ s.bestTasks, t.pc.carrying = some sub := by
  cases act <;> simp only [Sys.inserting, reduceCtorEq] at h
  obtain ⟨t, ht, hw⟩ := Option.bind_eq_some_iff.mp h
  refine ⟨t, List.mem_of_getElem? ht, ?_⟩
  cases hpc : t.pc <;> rw [hpc] at hw <;>
    simp only [BestPc.writing, reduceCtorEq, Option.some.injEq] at hw
  exact congrArg some hw

/-- The submissions tasks carry and those inserted come from the tasks that check them. -/
def submissionFlow (srv : Server) : Flow (machine srv) Submission where
  items s := {sub | (∃ t ∈ s.bestTasks, t.pc.carrying = some sub) ∨
    ∃ who, (who, Effect.insertContribution sub) ∈ s.journal}
  source s act := {sub | ∃ t ∈ s.bestTasks, ∃ r conn, t.pc = .readProof r conn ∧
    srv.drillx.isValid t.solution s.shared.appProof.challenge = true ∧
    srv.args.expectedMinDifficulty ≤ srv.drillx.difficulty t.solution ∧
    sub = ⟨t.pubkey, t.solution, r, conn, s.shared.appProof.challenge,
      srv.drillx.difficulty t.solution⟩}
  init := by
    rintro _ ⟨p, rfl⟩
    ext x
    simp [Sys.start]
  step := by
    rintro s act s' - hs sub (⟨u, hu, hcar⟩ | ⟨who, hm⟩)
    · rcases Sys.step_bestTask hs hu with hu | ⟨who, m, -, hpc, -, -⟩ | ⟨i, t, e, -, ht, hmove⟩
      · exact .inl (.inl ⟨u, hu, hcar⟩)
      · rw [hpc] at hcar
        cases hcar
      · have hmem := List.mem_of_getElem? ht
        cases hmove with
        | accept hpc hv hd hsub =>
            obtain rfl := Option.some.inj hcar
            exact .inr ⟨t, hmem, _, _, hpc, hv, hd, hsub⟩
        | decide hpc _ _ => exact .inl (.inl ⟨t, hmem, by rw [hpc]; exact hcar⟩)
        | refuse _ _ _ | inRange _ _ _ | socket _ _ | drop _ | discard _ _ _ | write _ => cases hcar
    · cases Sys.step_epochMove hs with
      | keep w e hj hno _ _ _ _ =>
          rw [hj, List.mem_cons, Prod.mk.injEq] at hm
          rcases hm with ⟨-, rfl⟩ | hm
          · cases hno
          · exact .inl (.inr ⟨who, hm⟩)
      | insert w x hins hj _ _ =>
          rw [hj, List.mem_cons, Prod.mk.injEq, Effect.insertContribution.injEq] at hm
          rcases hm with ⟨-, rfl⟩ | hm
          · exact .inl (.inl (Sys.carrying_of_inserting hins))
          · exact .inl (.inr ⟨who, hm⟩)
      | reset w opened stored _ hj _ _ _ =>
          rw [hj, List.mem_cons, Prod.mk.injEq] at hm
          rcases hm with ⟨-, hm⟩ | hm
          · cases hm
          · exact .inl (.inr ⟨who, hm⟩)

end OrePool
