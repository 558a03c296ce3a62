import OrePool.Lemmas.Epoch

/-!
# Submissions on their way

Between passing the checks and being inserted, dropped or lost, a submission is carried by its
`BestSolution` task.  `Sys.TaskMove` takes apart what a step does to the tasks;
`QuietReset` is the condition that no reset of the epoch overtakes a carried submission.
-/

namespace OrePool

open Interleaving

/-- The submission a task carries. -/
def BestPc.carrying : BestPc → Option Submission
  | .readContributions sub => some sub
  | .writeContribution sub _ => some sub
  | _ => none

/-- The submissions accepted in the running epoch, newest first. -/
def Sys.accepted (s : Sys) : List Submission := s.epochJournal.filterMap fun ev => ev.2.accepted

lemma Sys.accepted_cons {s s' : Sys} {who : Actor} {e : Effect}
    (hj : s'.journal = (who, e) :: s.journal) (h : e.opens = false) :
    s'.accepted = e.accepted.toList ++ s.accepted := by
  rw [Sys.accepted, Sys.epochJournal_cons hj h]
  cases he : e.accepted <;> simp [he, Sys.accepted]

lemma Sys.accepted_opens {s s' : Sys} {who : Actor} {e : Effect}
    (hj : s'.journal = (who, e) :: s.journal) (h : e.opens = true) : s'.accepted = [] := by
  rw [Sys.accepted, Sys.epochJournal_opens hj h, List.filterMap_nil]

/-! ## Steps, as the tasks see them -/

/-- A step is an atomic section of a task, or it leaves the tasks alone but for starting one. -/
inductive Sys.TaskMove (srv : Server) (s : Sys) (act : Action) (s' : Sys) : Prop
  | other (who : Actor) (e : Effect) (hj : s'.journal = (who, e) :: s.journal)
      (hsh : s'.shared = s.shared.apply e) (hacc : e.accepted = none) (hins : e.inserted = none)
      (htasks : s'.bestTasks = s.bestTasks ∨ ∃ addr solution pubkey,
        s'.bestTasks = s.bestTasks ++ [BestTask.spawn addr solution pubkey] ∧
          ∃ sig, srv.signatures.verify sig pubkey solution.hashNonceMessage = true)
  | task (i : ℕ) (t t' : BestTask) (e : Effect) (hact : act = .best i)
      (ht : s.bestTasks[i]? = some t) (hmove : BestTask.Move srv s.shared t t' e)
      (hs' : s' = { s with bestTasks := s.bestTasks.set i t' }.perform (.best i) e)

lemma Effect.not_accepted {e : Effect} (h : e.inRound = true) :
    e.accepted = Option.none ∧ e.inserted = Option.none := by
  cases e <;> first | exact ⟨rfl, rfl⟩ | cases h

theorem Sys.step_taskMove {srv : Server} {s s' : Sys} {act : Action}
    (h : s.step srv act = some s') : Sys.TaskMove srv s act s' := by
  cases Sys.step_move h with
  | notify k p => exact .other _ _ rfl rfl rfl rfl (.inl rfl)
  | connect _ _ => exact .other _ _ rfl rfl rfl rfl (.inl rfl)
  | disconnect _ => exact .other _ _ rfl rfl rfl rfl (.inl rfl)
  | receive who m =>
      obtain ⟨hsh, -, -, -, -, -, hj⟩ := s.spawnFor_fields (received srv.signatures who m)
      refine .other .clients .none (by simp [hj]) (by simp [hsh]) rfl rfl ?_
      rcases hm : received srv.signatures who m with _ | msg
      · exact .inl rfl
      · cases msg with
        | bestSolution addr solution pubkey =>
            exact .inr ⟨addr, solution, pubkey, rfl, (received_bestSolution hm).2⟩
        | _ => exact .inl rfl
  | ready _ => exact .other _ _ rfl rfl rfl rfl (.inl rfl)
  | best ht hs => exact .task _ _ _ _ rfl ht (BestTask.step_move hs) rfl
  | missions hs =>
      refine .other _ _ rfl rfl ?_ ?_ (.inl rfl) <;>
        rcases ReadyPc.step_effect hs with rfl | rfl | ⟨_, rfl⟩ | ⟨_, rfl⟩ <;> rfl
  | mission ht hs =>
      refine .other _ _ rfl rfl ?_ ?_ (.inl rfl) <;>
        rcases MissionTask.step_effect hs with ⟨-, -, rfl⟩ | ⟨-, -, rfl⟩ <;> rfl
  | submission hs =>
      obtain ⟨hacc, hins⟩ := Effect.not_accepted (Submitter.step_inRound hs)
      exact .other _ _ rfl rfl hacc hins (.inl rfl)
  | attender ha hs =>
      obtain ⟨hacc, hins⟩ := Effect.not_accepted (Attender.step_inRound hs)
      exact .other _ _ rfl rfl hacc hins (.inl rfl)
  | land _ _ _ _ _ => exact .other _ _ rfl rfl rfl rfl (.inl rfl)
  | account _ => exact .other _ _ rfl rfl rfl rfl (.inl rfl)

/-! ## Resets -/

/-- The challenge of the epoch an action opens, if it opens one. -/
def Sys.opening (s : Sys) : Action → Option Challenge
  | .submission _ => s.submission.pc.clearing.map fun _ => s.shared.appProof.challenge
  | .attender i _ => (s.attenders[i]?).bind (·.pc.resetting)
  | _ => none

lemma Sys.Resetting.opening {s : Sys} {act : Action} {who : Actor} {opened : Challenge}
    (h : s.Resetting act who opened) : s.opening act = some opened := by
  rcases h with ⟨reply, r, rfl, -, hpc, rfl⟩ | ⟨i, reply, a, rfl, -, ha, hc⟩
  · simp [Sys.opening, hpc, SubmissionPc.clearing]
  · simp [Sys.opening, ha, hc]

/-- An effect that opens an epoch comes from such an action. -/
lemma Sys.opening_of_opens {srv : Server} {s s' : Sys} {act : Action} {who : Actor} {e : Effect}
    (hs : s.step srv act = some s') (hj : s'.journal = (who, e) :: s.journal)
    (ho : e.opens = true) : s.opening act = some s'.shared.ghost.epoch := by
  cases Sys.step_epochMove hs with
  | keep _ _ hj' hno _ _ _ _ =>
      rw [hj, List.cons.injEq, Prod.mk.injEq] at hj'
      rw [← hj'.1.2] at hno
      rw [Effect.not_opens hno] at ho
      cases ho
  | insert _ _ _ hj' _ _ =>
      rw [hj, List.cons.injEq, Prod.mk.injEq] at hj'
      rw [hj'.1.2] at ho
      cases ho
  | reset _ _ _ hwho _ _ hg _ => exact hg ▸ hwho.opening

lemma Submitter.step_opens {srv : Server} {sh : Shared} {as : List Attender}
    {txs : List MineTx} {reply : Reply} {sub sub' : Submitter} {e : Effect}
    (h : sub.step srv sh as txs reply = some (sub', e)) :
    e.opens = sub.pc.clearing.isSome := by
  cases Submitter.step_move h <;>
    simp only [*, SubmissionPc.clearing, Effect.opens, Option.isSome_some, Option.isSome_none]

lemma Attender.step_opens {srv : Server} {sh : Shared} {reply : Reply} {a a' : Attender}
    {e : Effect} (h : a.step srv sh reply = some (a', e)) :
    e.opens = a.pc.resetting.isSome := by
  cases Attender.step_move h <;>
    simp only [*, AttenderPc.resetting, Effect.opens, Option.isSome_some, Option.isSome_none]

/-- Such an action has an effect that opens an epoch. -/
lemma Sys.opens_of_opening {srv : Server} {s s' : Sys} {act : Action}
    (hs : s.step srv act = some s') (h : (s.opening act).isSome) :
    ∃ who e, s'.journal = (who, e) :: s.journal ∧ e.opens = true := by
  cases Sys.step_move hs with
  | submission hsub =>
      refine ⟨_, _, rfl, (Submitter.step_opens hsub).trans ?_⟩
      simpa only [Sys.opening, Option.isSome_map] using h
  | attender ha hatt =>
      refine ⟨_, _, rfl, (Attender.step_opens hatt).trans ?_⟩
      simpa only [Sys.opening, ha, Option.bind_some] using h
  | _ => cases h

/-- An effect that neither opens an epoch nor inserts leaves `epoch_hashes` alone. -/
lemma Effect.not_ofEpoch {e : Effect} (ho : e.opens = false)
    (hi : e.inserted = Option.none) :
    e.ofEpoch = false := by
  cases e <;> first | rfl | (cases ho; done) | cases hi

/-- No reset of the epoch overtakes a submission that a task carries. -/
def QuietReset (s : Sys) (act : Action) : Prop :=
  (s.opening act).isSome → ∀ t ∈ s.bestTasks, t.pc.carrying = none

instance : DecidableRel QuietReset := fun s act =>
  inferInstanceAs (Decidable ((s.opening act).isSome → ∀ t ∈ s.bestTasks, t.pc.carrying = none))

end OrePool
