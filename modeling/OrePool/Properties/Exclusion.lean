import OrePool.Lemmas.Missions
import OrePool.Lemmas.Stages
import OrePool.Replay

/-!
# Missions and submissions

`PAUSED` is to keep missions from going out while a round is submitted.  `Excluded` says that no
mission is sent between the moment it is set and the moment it is cleared.

The mission loop looks at the flag once an iteration, then waits for locks and for the clock, and
leaves the sending to tasks of their own; a pause that falls in between does not stop them
(`not_excluded`).  When rounds begin only while no mission is on its way, the two exclude each
other (`excluded`).
-/

namespace OrePool

open Interleaving

/-! ## The property -/

/-- What an effect sets `PAUSED` to. -/
def Effect.setsPaused : Effect → Option Bool
  | .setPaused paused => some paused
  | _ => Option.none

/-- `PAUSED` is set, going by the journal. -/
def PausedAfter (j : List Event) : Prop := ∃ who, latest Effect.setsPaused j = some (who, true)

/-- **Exclusion.**  No mission was sent while `PAUSED` was set. -/
def Excluded (s : Sys) : Prop :=
  Each (fun ev older => ev.2.sentMission.isSome → ¬ PausedAfter older) s.journal

/-- The mission loop has passed its test of `PAUSED` and has clients left to serve. -/
def ReadyPc.serving : ReadyPc → Bool
  | .snapshot => false
  | .checkPaused _ => false
  | .readProof clients => !clients.isEmpty
  | .readClock clients _ => !clients.isEmpty
  | .readBest clients => !clients.isEmpty
  | .readChallenge clients _ => !clients.isEmpty
  | .takeNonce _ _ clients => !clients.isEmpty
  | .readSockets _ _ _ _ => true
  | .removeReady _ _ _ clients => !clients.isEmpty

/-- No mission is on its way. -/
def Sys.NoneUnderWay (s : Sys) : Prop :=
  s.missionLoop.serving = false ∧ ∀ t ∈ s.missions, t.sent

/-- A round begins only while no mission is on its way. -/
def PausesClear (s : Sys) : Action → Prop
  | .submission _ => s.submission.pc.pausing.isSome → s.NoneUnderWay
  | _ => True

instance (s : Sys) : Decidable s.NoneUnderWay := inferInstanceAs (Decidable (_ ∧ _))

instance : DecidableRel PausesClear := fun s act =>
  match act with
  | .submission _ =>
      inferInstanceAs (Decidable (s.submission.pc.pausing.isSome → s.NoneUnderWay))
  | .notify .. | .connect .. | .disconnect .. | .receive .. | .ready .. | .best .. | .missions ..
  | .mission .. | .attender .. | .land .. | .account .. => isTrue trivial

/-! ## Steps, as the flag sees them -/

lemma Shared.apply_paused (sh : Shared) (e : Effect) :
    (sh.apply e).paused = e.setsPaused.getD sh.paused := by
  cases e <;> rfl

/-- A paused mission loop takes on no client. -/
lemma ReadyPc.step_serving {srv : Server} {sh : Shared} {reply : Reply} {pc pc' : ReadyPc}
    {e : Effect} (h : pc.step srv sh reply = some (pc', e)) (hpaused : sh.paused = true)
    (hno : pc.serving = false) : pc'.serving = false ∧ e.mission = [] := by
  cases ReadyPc.step_move h with
  | go hgo _ => exact absurd hpaused hgo
  | take | spawn _ | gone _ => cases hno
  | snapshot | rest | solved | done => exact ⟨rfl, rfl⟩
  | proof | late | early | unsolved | challenge | remove => exact ⟨hno, rfl⟩

lemma ReadyPc.step_quiet {srv : Server} {sh : Shared} {reply : Reply} {pc pc' : ReadyPc}
    {e : Effect} (h : pc.step srv sh reply = some (pc', e)) :
    e.setsPaused = none ∧ e.sentMission = none := by
  rcases ReadyPc.step_effect h with rfl | rfl | ⟨_, rfl⟩ | ⟨_, rfl⟩ <;> exact ⟨rfl, rfl⟩

/-- `PAUSED` is set only by the submission loop at the start of a round. -/
lemma Sys.pausing_of_step {srv : Server} {s s' : Sys} {act : Action} {who : Actor} {e : Effect}
    (hs : s.step srv act = some s') (hj : s'.journal = (who, e) :: s.journal)
    (he : e.setsPaused = some true) :
    ∃ reply, act = .submission reply ∧ s.submission.pc.pausing.isSome := by
  obtain rfl : e = .setPaused true := by
    cases e <;> simp only [Effect.setsPaused, reduceCtorEq, Option.some.injEq] at he
    rw [he]
  rcases Sys.step_roundMove hs with ⟨_, _, -, -, he', -, -, hj', -, -⟩ |
    ⟨reply, sub, e', rfl, hsub, rfl⟩ | ⟨i, reply, a, a', e', rfl, ha, hsa, rfl⟩
  · rw [hj, List.cons.injEq, Prod.mk.injEq] at hj'
    rw [← hj'.1.2] at he'
    cases he'
  · obtain ⟨⟨-, rfl⟩, -⟩ := List.cons.inj hj |>.imp_left Prod.mk.inj
    refine ⟨reply, rfl, ?_⟩
    cases Submitter.step_move hsub with
    | pause hpc => rw [hpc]; rfl
  · obtain ⟨⟨-, rfl⟩, -⟩ := List.cons.inj hj |>.imp_left Prod.mk.inj
    cases Attender.step_move hsa

/-! ## The invariant -/

/-- The flag is what the journal says, nothing is on its way while it is set, and nothing was sent
while it was. -/
structure Guarded (s : Sys) : Prop where
  flag : s.shared.paused = true ↔ PausedAfter s.journal
  clear : s.shared.paused = true → s.NoneUnderWay
  excluded : Excluded s

/-- The flag and the journal change together. -/
lemma PausedAfter.cons {j : List Event} {sh : Shared} (hflag : sh.paused = true ↔ PausedAfter j)
    (who : Actor) (e : Effect) : (sh.apply e).paused = true ↔ PausedAfter ((who, e) :: j) := by
  rw [Shared.apply_paused, PausedAfter]
  cases he : e.setsPaused with
  | none => rw [latest_cons_none he]; exact hflag
  | some paused => simp [latest_cons_some he]

theorem Guarded.step {srv : Server} {s s' : Sys} {act : Action} (hi : Guarded s)
    (hc : PausesClear s act) (hs : s.step srv act = some s') : Guarded s' := by
  cases Sys.step_missionMove hs with
  | other who e he hsh hj hloop hm =>
      have hsent : e.sentMission = none := by cases e <;> first | rfl | cases he
      refine ⟨hsh ▸ hj ▸ PausedAfter.cons hi.flag who e, ?_, ?_⟩
      · intro hp
        rw [Sys.NoneUnderWay, hloop, hm, ← Sys.NoneUnderWay]
        rw [hsh, Shared.apply_paused] at hp
        cases hset : e.setsPaused with
        | none => exact hi.clear (by simpa [hset] using hp)
        | some paused =>
            obtain rfl : paused = true := by simpa [hset] using hp
            obtain ⟨reply, rfl, hpause⟩ := Sys.pausing_of_step hs hj hset
            exact hc hpause
      · rw [Excluded, hj]
        exact Each.cons (by simp [hsent]) hi.excluded
  | loop reply pc e _ hstep hs' =>
      subst hs'
      obtain ⟨hset, hsent⟩ := ReadyPc.step_quiet hstep
      refine ⟨PausedAfter.cons hi.flag _ e, ?_, Each.cons (by simp [hsent]) hi.excluded⟩
      intro hp
      rw [Sys.perform_shared, Shared.apply_paused, hset, Option.getD_none] at hp
      obtain ⟨hno, htasks⟩ := hi.clear hp
      obtain ⟨hno', hmis⟩ := ReadyPc.step_serving hstep hp hno
      exact ⟨hno', by simpa [hmis] using htasks⟩
  | task i t t' e _ ht hstep hs' =>
      subst hs'
      rcases MissionTask.step_effect hstep with ⟨hpc, rfl, rfl⟩ | ⟨hpc, rfl, rfl⟩
      · -- the message leaves, so its task was still to send it and the flag is not set
        have hno : ¬ s.shared.paused = true := fun hp =>
          (hi.clear hp).2 t (List.mem_of_getElem? ht) hpc
        exact ⟨PausedAfter.cons hi.flag _ _, fun hp => absurd hp hno,
          Each.cons (fun _ hp => hno (hi.flag.mpr hp)) hi.excluded⟩
      · refine ⟨PausedAfter.cons hi.flag _ _, ?_,
          Each.cons (by simp [Effect.sentMission]) hi.excluded⟩
        intro hp
        obtain ⟨hno, htasks⟩ := hi.clear hp
        refine ⟨hno, ?_⟩
        intro u hu
        simp only [Sys.perform_missions, Effect.mission, List.append_nil] at hu
        rcases List.mem_or_eq_of_mem_set hu with hu | rfl
        · exact htasks u hu
        · intro h
          cases h

/-- **Exclusion.**  In every run in which rounds begin only while no mission is on its way, no
mission is sent while `PAUSED` is set. -/
theorem excluded {srv : Server} {s : Sys} (h : Reach (machine srv) PausesClear s) :
    Excluded s := by
  have hi : Guarded s := by
    refine h.invariant ?_ fun s act s' _ hi hc hs => hi.step hc hs
    rintro _ ⟨p, rfl⟩
    exact ⟨by simp [Sys.start, PausedAfter, latest], nofun, .nil⟩
  exact hi.excluded

/-- Two missions with a settled round between them meet the condition of `excluded`. -/
theorem excluded_settledRound :
    ∃ s, Reach (machine (Replay.server .unavailable)) PausesClear s ∧
      (s.submission.rounds = 1 ∧ s.missions.length = 2) ∧ Excluded s := by
  obtain ⟨s, hr, hs⟩ := exists_of_replay (Replay.server .unavailable) PausesClear
    (Replay.proofAt 1 0) (Replay.settledRound ++ Replay.mission 1 1)
    (fun s => decide (s.submission.rounds = 1 ∧ s.missions.length = 2)) (by decide +kernel)
  exact ⟨s, hr, by simpa using hs, excluded hr⟩

/-- A mission whose task is still to send it goes out in the middle of the round. -/
theorem not_excluded : ¬ ∀ srv s, Reach (machine srv) Honest s → Excluded s := by
  refine not_forall_of_replay (P := fun _ => Excluded) (Replay.server .unavailable)
    (Replay.proofAt 1 0)
    (Replay.served ++ Replay.assign 1 1 ++ Replay.pause 60 ++ [.mission 1])
    (fun s => decide ((s.journal.head?.bind fun ev => ev.2.sentMission).isSome ∧
      latest Effect.setsPaused s.journal.tail = some (.submission, true)))
    ?_ (by decide +kernel)
  intro s hs hc
  simp only [decide_eq_true_eq] at hs
  obtain ⟨hsent, hlast⟩ := hs
  cases hj : s.journal with
  | nil => simp [hj] at hsent
  | cons ev older =>
      exact hc [] ev older hj (by simpa [hj] using hsent) ⟨_, by simpa [hj] using hlast⟩

end OrePool
