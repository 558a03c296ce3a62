import OrePool.Core.Locks
import OrePool.Lemmas.Fuel

/-!
# The running server with its locks

`machine` takes one atomic section after the other.  In the server the tasks run on several threads
and meet in three mutexes and three fair read-write locks, so that sections under different locks,
and sections that only read, go on at the same time.

`lockedMachine` is that server: a task asks for the lock of its next section, waits for its turn,
works on what it found when it was let in, and lets go.  No section holds two locks.  Each changes
what its lock guards and nothing else that is guarded (`Sys.disciplined`), nor does it look at
anything else (`Sys.step_restore`).  So whatever the tasks do at the same time, the states are those
of `machine` (`lockedMachine_reach`, `lockedMachine_of_machine`), and no lock is ever stuck
(`lockedMachine_progress`).
-/

namespace OrePool

open Interleaving Locking

/-! ## Locks -/

/-- The locks `main` shares out.  `app_proof`, `app_nonce` and `ready_clients` are mutexes. -/
inductive LockName
  | appProof
  | appNonce
  | epochHashes
  | clientNonceRanges
  | readyClients
  | sockets
  deriving DecidableEq

/-- `sh` with what a lock guards as it is in `seen`. -/
def Shared.restore (seen : Shared) (k : LockName) (sh : Shared) : Shared :=
  match k with
  | .appProof => { sh with appProof := seen.appProof }
  | .appNonce => { sh with appNonce := seen.appNonce }
  | .epochHashes => { sh with epochHashes := seen.epochHashes }
  | .clientNonceRanges => { sh with clientNonceRanges := seen.clientNonceRanges }
  | .readyClients => { sh with readyClients := seen.readyClients }
  | .sockets => { sh with sockets := seen.sockets }

/-- The lock that guards what an effect changes. -/
def Effect.lock : Effect → Option LockName
  | .writeProof _ => some .appProof
  | .insertSocket _ _ | .removeSocket _ => some .sockets
  | .insertReady _ | .removeReady _ => some .readyClients
  | .takeNonce | .resetNonce => some .appNonce
  | .insertRange _ _ => some .clientNonceRanges
  | .insertContribution _ | .resetEpoch _ _ _ => some .epochHashes
  | _ => Option.none

/-- An effect leaves what other locks guard, and does not look at it. -/
lemma Shared.restore_apply {k : LockName} {e : Effect} (h : e.lock ≠ some k) (seen sh : Shared) :
    seen.restore k (sh.apply e) = (seen.restore k sh).apply e := by
  cases e <;> cases k <;> first | rfl | exact absurd rfl h

/-! ## The lock of a section -/

/-- `lock().await` of a mutex. -/
def mutex (k : LockName) : Access LockName := ⟨k, .write, false⟩

/-- `read().await` and `write().await`. -/
def readLock (k : LockName) : Access LockName := ⟨k, .read, false⟩

def writeLock (k : LockName) : Access LockName := ⟨k, .write, false⟩

def BestPc.access : BestPc → Option (Access LockName)
  | .readRange => some (readLock .clientNonceRanges)
  | .readSocket _ => some (readLock .sockets)
  | .readProof _ _ => some (mutex .appProof)
  | .readContributions _ => some (readLock .epochHashes)
  | .writeContribution _ _ => some (writeLock .epochHashes)
  | .done => none

def ReadyPc.access : ReadyPc → Option (Access LockName)
  | .snapshot => some (mutex .readyClients)
  | .readProof _ | .readChallenge _ _ => some (mutex .appProof)
  | .readBest _ => some (readLock .epochHashes)
  | .takeNonce _ _ (_ :: _) => some (mutex .appNonce)
  | .readSockets _ _ _ _ => some (readLock .sockets)
  | .removeReady _ _ _ _ => some (mutex .readyClients)
  | .checkPaused _ | .readClock _ _ | .takeNonce _ _ [] => none

def MissionPc.access : MissionPc → Option (Access LockName)
  | .insertRange => some (writeLock .clientNonceRanges)
  | .send | .done => none

/-- The old proof is read where `try_lock` gets the mutex. -/
def SubmissionPc.access : SubmissionPc → Option (Access LockName)
  | .readOldProof => some ⟨.appProof, .write, true⟩
  | .readBest _ | .capture _ _ => some (readLock .epochHashes)
  | .readSockets _ _ => some (readLock .sockets)
  | .failWriteProof _ _ => some (mutex .appProof)
  | .failResetNonce _ => some (mutex .appNonce)
  | .failResetEpoch _ => some (writeLock .epochHashes)
  | _ => none

def AttenderPc.access : AttenderPc → Option (Access LockName)
  | .check | .rpcWriteProof _ | .rpcReadProof _ | .readLatest _ | .writeProof _ =>
      some (mutex .appProof)
  | .rpcResetNonce _ _ | .resetNonce _ => some (mutex .appNonce)
  | .snapshot _ _ => some (readLock .epochHashes)
  | .rpcResetEpoch _ _ | .resetEpoch _ => some (writeLock .epochHashes)
  | _ => none

/-! ## Tasks -/

/-- The tasks that move.  One for each address enters and removes its connections. -/
inductive Task
  | tracker
  | connection (addr : SocketAddr)
  | clients
  | ready (i : ℕ)
  | best (i : ℕ)
  | missions
  | mission (i : ℕ)
  | submission
  | attender (i : ℕ)
  | chain
  deriving DecidableEq

/-- The task whose section an action is. -/
def Action.task : Action → Task
  | .notify _ _ => .tracker
  | .connect addr _ _ | .disconnect addr => .connection addr
  | .receive _ _ => .clients
  | .ready i => .ready i
  | .best i => .best i
  | .missions _ => .missions
  | .mission i => .mission i
  | .submission _ => .submission
  | .attender i _ => .attender i
  | .land _ _ | .account _ => .chain

/-- The lock a task needs for its next section. -/
def Sys.access (s : Sys) : Task → Option (Access LockName)
  | .tracker => some (mutex .appProof)
  | .connection _ => some (writeLock .sockets)
  | .ready i => (s.readyTasks[i]?).join.map fun _ => mutex .readyClients
  | .best i => (s.bestTasks[i]?).bind fun t => t.pc.access
  | .missions => s.missionLoop.access
  | .mission i => (s.missions[i]?).bind fun t => t.pc.access
  | .submission => s.submission.pc.access
  | .attender i => (s.attenders[i]?).bind fun a => a.pc.access
  | .clients | .chain => none

/-- `s` with what a lock guards as it is in `seen`. -/
def Sys.restore (seen : Sys) (k : LockName) (s : Sys) : Sys :=
  { s with shared := seen.shared.restore k s.shared }

/-- The server and its locks. -/
def guarded (srv : Server) : Guarded Task LockName Sys Action where
  init s := ∃ p, s = Sys.start srv p
  step := Sys.step srv
  takes i act := act.task = i
  guard := Sys.access
  restore k seen s := seen.restore k s
  refused act := act = .submission .busy

/-- The server as a machine of tasks with locks. -/
def lockedMachine (srv : Server) :
    Machine (Locked Task LockName Sys) (LockAction Task LockName Action) :=
  (guarded srv).locked

/-! ## Discipline -/

section Sections

variable {srv : Server} {sh : Shared} {reply : Reply} {e : Effect} {k : LockName}

lemma BestTask.step_lock {t t' : BestTask} (h : t.step srv sh = some (t', e))
    (hk : e.lock = some k) : t.pc.access = some (writeLock k) := by
  cases BestTask.step_move h with
  | write hpc =>
      obtain rfl := Option.some.inj hk
      rw [hpc]
      rfl
  | _ => cases hk

lemma ReadyPc.step_lock {pc pc' : ReadyPc} (h : pc.step srv sh reply = some (pc', e))
    (hk : e.lock = some k) : pc.access = some (mutex k) := by
  cases ReadyPc.step_move h with
  | take | remove =>
      obtain rfl := Option.some.inj hk
      rfl
  | _ => cases hk

lemma MissionTask.step_lock {t t' : MissionTask} (h : t.step = some (t', e))
    (hk : e.lock = some k) : t.pc.access = some (writeLock k) := by
  rw [MissionTask.step] at h
  split at h
  · obtain ⟨-, rfl⟩ := Prod.mk.inj (Option.some.inj h)
    cases hk
  · rename_i hpc
    obtain ⟨-, rfl⟩ := Prod.mk.inj (Option.some.inj h)
    obtain rfl := Option.some.inj hk
    rw [hpc]
    rfl
  · cases h

lemma Submitter.step_lock {as : List Attender} {txs : List MineTx} {sub sub' : Submitter}
    (h : sub.step srv sh as txs reply = some (sub', e)) (hk : e.lock = some k) :
    sub.pc.access = some (writeLock k) := by
  cases Submitter.step_move h with
  | writeProof hpc | resetNonce hpc | resetEpoch hpc =>
      obtain rfl := Option.some.inj hk
      rw [hpc]
      rfl
  | _ => cases hk

lemma Attender.step_lock {a a' : Attender} (h : a.step srv sh reply = some (a', e))
    (hk : e.lock = some k) : a.pc.access = some (writeLock k) := by
  cases Attender.step_move h with
  | rpcWriteProof hpc | rpcResetNonce hpc | rpcResetEpoch hpc | writeProof hpc | resetNonce hpc
  | resetEpoch hpc =>
      obtain rfl := Option.some.inj hk
      rw [hpc]
      rfl
  | _ => cases hk

end Sections

section Steps

variable {srv : Server} {s s' : Sys} {act : Action}

/-- A step changes the memory by an effect, having locked what that changes. -/
lemma Sys.step_lock (h : s.step srv act = some s') :
    ∃ e, s'.shared = s.shared.apply e ∧
      ∀ k, e.lock = some k → s.access act.task = some (writeLock k) := by
  cases Sys.step_move h with
  | notify _ p =>
      refine ⟨.writeProof p, rfl, fun k hk => ?_⟩
      obtain rfl := Option.some.inj hk
      rfl
  | @connect addr pubkey version id _ _ =>
      refine ⟨.insertSocket addr ⟨pubkey, id, version⟩, rfl, fun k hk => ?_⟩
      obtain rfl := Option.some.inj hk
      rfl
  | disconnect addr =>
      refine ⟨.removeSocket addr, rfl, fun k hk => ?_⟩
      obtain rfl := Option.some.inj hk
      rfl
  | receive who m =>
      exact ⟨.none, (s.spawnFor_fields (received srv.signatures who m)).1, fun k hk => by cases hk⟩
  | @ready i addr ht =>
      refine ⟨.insertReady addr, rfl, fun k hk => ?_⟩
      obtain rfl := Option.some.inj hk
      simp only [Action.task, Sys.access, ht]
      rfl
  | best ht hs =>
      refine ⟨_, rfl, fun k hk => ?_⟩
      simp only [Action.task, Sys.access, ht, Option.bind_some]
      exact BestTask.step_lock hs hk
  | missions hs => exact ⟨_, rfl, fun k hk => ReadyPc.step_lock hs hk⟩
  | mission ht hs =>
      refine ⟨_, rfl, fun k hk => ?_⟩
      simp only [Action.task, Sys.access, ht, Option.bind_some]
      exact MissionTask.step_lock hs hk
  | submission hs => exact ⟨_, rfl, fun k hk => Submitter.step_lock hs hk⟩
  | attender ha hs =>
      refine ⟨_, rfl, fun k hk => ?_⟩
      simp only [Action.task, Sys.access, ha, Option.bind_some]
      exact Attender.step_lock hs hk
  | land _ _ _ _ _ | account _ => exact ⟨.none, rfl, fun k hk => by cases hk⟩

/-! A task is where it was when the others have moved. -/

lemma Sys.readyTask_kept {i : ℕ} {t : Option SocketAddr} (h : s.step srv act = some s')
    (hact : act ≠ .ready i) (ht : s.readyTasks[i]? = some t) : s'.readyTasks[i]? = some t := by
  cases Sys.step_move h with
  | ready _ =>
      refine (List.getElem?_set_ne ?_).trans ht
      rintro rfl
      exact hact rfl
  | receive who m =>
      rw [Sys.perform_readyTasks]
      rcases received srv.signatures who m with _ | msg
      · exact ht
      · cases msg with
        | ready _ => exact slot_append_left ht _
        | _ => exact ht
  | _ => exact ht

lemma Sys.bestTask_kept {i : ℕ} {t : BestTask} (h : s.step srv act = some s')
    (hact : act ≠ .best i) (ht : s.bestTasks[i]? = some t) : s'.bestTasks[i]? = some t := by
  cases Sys.step_move h with
  | best _ _ =>
      refine (List.getElem?_set_ne ?_).trans ht
      rintro rfl
      exact hact rfl
  | receive who m =>
      rw [Sys.perform_bestTasks]
      rcases received srv.signatures who m with _ | msg
      · exact ht
      · cases msg with
        | bestSolution _ _ _ => exact slot_append_left ht _
        | _ => exact ht
  | _ => exact ht

lemma Sys.mission_kept {i : ℕ} {t : MissionTask} (h : s.step srv act = some s')
    (hact : act ≠ .mission i) (ht : s.missions[i]? = some t) : s'.missions[i]? = some t := by
  cases Sys.step_move h with
  | mission _ _ =>
      refine slot_append_left ((List.getElem?_set_ne ?_).trans ht) _
      rintro rfl
      exact hact rfl
  | receive who m =>
      refine slot_append_left ?_ _
      rw [(s.spawnFor_fields (received srv.signatures who m)).2.2.1]
      exact ht
  | _ => exact slot_append_left ht _

lemma Sys.attender_kept {i : ℕ} {a : Attender} (h : s.step srv act = some s')
    (hact : ∀ reply, act ≠ .attender i reply) (ha : s.attenders[i]? = some a) :
    s'.attenders[i]? = some a := by
  cases Sys.step_move h with
  | attender _ _ =>
      refine slot_append_left ((List.getElem?_set_ne ?_).trans ha) _
      rintro rfl
      exact hact _ rfl
  | receive who m =>
      refine slot_append_left ?_ _
      rw [(s.spawnFor_fields (received srv.signatures who m)).2.2.2.2.1]
      exact ha
  | _ => exact slot_append_left ha _

lemma Sys.missionLoop_kept (h : s.step srv act = some s') (hact : ∀ reply, act ≠ .missions reply) :
    s'.missionLoop = s.missionLoop := by
  cases Sys.step_move h with
  | missions _ => exact absurd rfl (hact _)
  | receive who m => exact (s.spawnFor_fields (received srv.signatures who m)).2.1
  | _ => rfl

/-- No task changes what lock another one needs. -/
lemma Sys.access_kept {i : Task} {acc : Access LockName} (h : s.step srv act = some s')
    (hi : i ≠ act.task) (hacc : s.access i = some acc) : s'.access i = some acc := by
  cases i with
  | tracker | connection _ => exact hacc
  | clients | chain => cases hacc
  | ready i =>
      obtain ⟨addr, haddr, rfl⟩ := Option.map_eq_some_iff.mp hacc
      have ht := Sys.readyTask_kept h (by rintro rfl; exact hi rfl)
        (Option.join_eq_some_iff.mp haddr)
      rw [Sys.access, ht]
      rfl
  | best i =>
      obtain ⟨t, ht, hacc⟩ := Option.bind_eq_some_iff.mp hacc
      rw [Sys.access, Sys.bestTask_kept h (by rintro rfl; exact hi rfl) ht]
      exact hacc
  | missions =>
      rw [Sys.access, Sys.missionLoop_kept h (by rintro _ rfl; exact hi rfl)]
      exact hacc
  | mission i =>
      obtain ⟨t, ht, hacc⟩ := Option.bind_eq_some_iff.mp hacc
      rw [Sys.access, Sys.mission_kept h (by rintro rfl; exact hi rfl) ht]
      exact hacc
  | submission =>
      rw [Sys.access, Sys.step_submission_eq h (by rintro _ rfl; exact hi rfl)]
      exact hacc
  | attender i =>
      obtain ⟨a, ha, hacc⟩ := Option.bind_eq_some_iff.mp hacc
      rw [Sys.access, Sys.attender_kept h (by rintro _ rfl; exact hi rfl) ha]
      exact hacc

/-- Where `try_lock` fails nothing changes. -/
lemma Sys.step_busy {acc : Access LockName} (h : s.step srv (.submission .busy) = some s')
    (hacc : s.access .submission = some acc) (htries : acc.tries = true) :
    s'.shared = s.shared := by
  have hpc : s.submission.pc = .readOldProof := by
    cases hpc : s.submission.pc <;> rw [Sys.access, hpc] at hacc <;> cases hacc <;>
      first | rfl | cases htries
  obtain ⟨⟨sub, e⟩, hs, rfl⟩ := Option.map_eq_some_iff.mp h
  rw [Submitter.step, hpc] at hs
  obtain ⟨-, rfl⟩ := Prod.mk.inj (Option.some.inj hs)
  rfl

end Steps

lemma Sys.restore_eq_self {seen s : Sys} {k : LockName} :
    seen.restore k s = s ↔ seen.shared.restore k s.shared = s.shared :=
  ⟨congrArg Sys.shared, fun h => by rw [Sys.restore, h]⟩

/-- Every section changes what its lock guards and nothing else that is guarded. -/
theorem Sys.disciplined (srv : Server) : Disciplined (guarded srv) where
  restore_self k s := by
    cases k <;> rfl
  frame := by
    intro s s' i act htask hs k hk seen hseen
    obtain rfl : act.task = i := of_decide_eq_true htask
    obtain ⟨e, hshared, hlock⟩ := Sys.step_lock hs
    have hne : e.lock ≠ some k := fun he => hk ⟨writeLock k, hlock k he, rfl, rfl⟩
    refine Sys.restore_eq_self.mpr ?_
    rw [hshared, Shared.restore_apply hne, Sys.restore_eq_self.mp hseen]
  refused := by
    intro s s' i act acc htask hacc htries hrefused hs k seen hseen
    obtain rfl : act.task = i := of_decide_eq_true htask
    obtain rfl : act = .submission .busy := of_decide_eq_true hrefused
    refine Sys.restore_eq_self.mpr ?_
    rw [Sys.step_busy hs hacc htries]
    exact Sys.restore_eq_self.mp hseen
  kept := by
    intro s s' i j act acc htask hs hne hacc
    obtain rfl : act.task = i := of_decide_eq_true htask
    exact Sys.access_kept hs hne hacc

/-! ## What a section reads -/

section Reads

variable {srv : Server} {sh seen : Shared} {reply : Reply} {k : LockName}

lemma BestTask.step_restore {t : BestTask} (h : ∀ acc ∈ t.pc.access, acc.lock ≠ k) :
    t.step srv (seen.restore k sh) = t.step srv sh := by
  unfold BestTask.step
  cases hpc : t.pc <;> rw [hpc] at h <;> cases k <;>
    first | rfl | exact absurd rfl (h _ rfl)

lemma ReadyPc.step_restore {pc : ReadyPc} (h : ∀ acc ∈ pc.access, acc.lock ≠ k) :
    pc.step srv (seen.restore k sh) reply = pc.step srv sh reply := by
  cases pc with
  | takeNonce _ _ clients =>
      cases clients <;> cases k <;> first | rfl | exact absurd rfl (h _ rfl)
  | _ => cases k <;> first | rfl | exact absurd rfl (h _ rfl)

lemma Attender.step_restore {a : Attender} (h : ∀ acc ∈ a.pc.access, acc.lock ≠ k) :
    a.step srv (seen.restore k sh) reply = a.step srv sh reply := by
  unfold Attender.step
  cases hpc : a.pc <;> rw [hpc] at h <;> cases k <;>
    first | rfl | exact absurd rfl (h _ rfl)

/-- The reset after a failed round names the challenge of `app_proof`, for the record. -/
lemma Submitter.step_restore {as : List Attender} {txs : List MineTx} {sub : Submitter}
    (h : ∀ acc ∈ sub.pc.access, acc.lock ≠ k) (hreset : ∀ r, sub.pc ≠ .failResetEpoch r) :
    sub.step srv (seen.restore k sh) as txs reply = sub.step srv sh as txs reply := by
  unfold Submitter.step
  cases hpc : sub.pc with
  | failResetEpoch r => exact absurd hpc (hreset r)
  | _ => rw [hpc] at h <;> cases k <;> first | rfl | exact absurd rfl (h _ rfl)

/-- Carrying out an effect under one lock has nothing to do with what another one guards. -/
lemma Sys.perform_restore {seen s s' : Sys} {who : Actor} {e : Effect} (h : e.lock ≠ some k)
    (hs : s' = seen.restore k s) :
    some (s'.perform who e) = (some (s.perform who e)).map (seen.restore k) := by
  subst hs
  simp only [Option.map_some, Sys.perform, Sys.restore, Shared.restore_apply h]

/-- The same for a section that may not be open to the task. -/
lemma Sys.map_perform_restore {seen : Sys} {who : Actor} {β : Type} {taken : Option (β × Effect)}
    {f g : β × Effect → Sys} (hlock : ∀ x, taken = some x → x.2.lock ≠ some k)
    (hfg : ∀ x, g x = seen.restore k (f x)) :
    (taken.map fun x => (g x).perform who x.2) =
      (taken.map fun x => (f x).perform who x.2).map (seen.restore k) := by
  cases htaken : taken with
  | none => rfl
  | some x => exact Sys.perform_restore (hlock x htaken) (hfg x)

/-- The lock of a section's effect is that of the section. -/
lemma Effect.lock_ne {e : Effect} {access : Option (Access LockName)}
    (hlock : ∀ k, e.lock = some k → access = some (writeLock k))
    (h : ∀ acc ∈ access, acc.lock ≠ k) : e.lock ≠ some k := fun he =>
  h _ (hlock k he) rfl

/-- **Reads.**  A section neither changes nor looks at what other locks guard, whatever is there.
The reset after a failed round apart: for the record, it names the challenge of `app_proof`. -/
theorem Sys.step_restore {seen s : Sys} {act : Action}
    (h : ∀ acc ∈ s.access act.task, acc.lock ≠ k)
    (hreset : act.task = .submission → ∀ r, s.submission.pc ≠ .failResetEpoch r) :
    (seen.restore k s).step srv act = (s.step srv act).map (seen.restore k) := by
  cases act with
  | notify n p =>
      have hne : LockName.appProof ≠ k := h _ rfl
      exact Sys.perform_restore (fun he => hne (Option.some.inj he)) rfl
  | connect addr pubkey version =>
      have hne : LockName.sockets ≠ k := h _ rfl
      have hsockets : (seen.restore k s).shared.sockets = s.shared.sockets := by
        cases k <;> first | rfl | exact absurd rfl hne
      simp only [Sys.step, hsockets]
      split
      · rfl
      · cases srv.minerIdFor pubkey with
        | none => rfl
        | some id => exact Sys.perform_restore (fun he => hne (Option.some.inj he)) rfl
  | disconnect addr =>
      have hne : LockName.sockets ≠ k := h _ rfl
      exact Sys.perform_restore (fun he => hne (Option.some.inj he)) rfl
  | receive who m =>
      have hspawn : (seen.restore k s).spawnFor (received srv.signatures who m) =
          seen.restore k (s.spawnFor (received srv.signatures who m)) := by
        rcases received srv.signatures who m with _ | msg
        · rfl
        · cases msg <;> rfl
      simp only [Sys.step, hspawn]
      exact Sys.perform_restore (fun he => by cases he) rfl
  | ready i =>
      have htasks : (seen.restore k s).readyTasks = s.readyTasks := rfl
      simp only [Sys.step, htasks]
      split
      · rename_i addr ht
        have hne : LockName.readyClients ≠ k := by
          refine h (mutex .readyClients) ?_
          rw [Action.task, Sys.access, ht]
          rfl
        exact Sys.perform_restore (fun he => hne (Option.some.inj he)) rfl
      · rfl
  | best i =>
      have htasks : (seen.restore k s).bestTasks = s.bestTasks := rfl
      simp only [Sys.step, htasks]
      cases ht : s.bestTasks[i]? with
      | none => rfl
      | some t =>
          have h : ∀ acc ∈ t.pc.access, acc.lock ≠ k := by
            simpa [Action.task, Sys.access, ht] using h
          have hstep : t.step srv (seen.restore k s).shared = t.step srv s.shared :=
            BestTask.step_restore h
          simp only [Option.bind_some, hstep]
          refine Sys.map_perform_restore (fun _ hs => ?_) fun _ => ?_
          · exact Effect.lock_ne (fun _ => BestTask.step_lock hs) h
          · rfl
  | missions reply =>
      have hstep : (seen.restore k s).missionLoop.step srv (seen.restore k s).shared reply =
          s.missionLoop.step srv s.shared reply := ReadyPc.step_restore h
      simp only [Sys.step, hstep]
      refine Sys.map_perform_restore (fun _ hs => ?_) fun _ => ?_
      · exact Effect.lock_ne (fun _ => ReadyPc.step_lock hs) h
      · rfl
  | mission i =>
      have htasks : (seen.restore k s).missions = s.missions := rfl
      simp only [Sys.step, htasks]
      cases ht : s.missions[i]? with
      | none => rfl
      | some t =>
          have h : ∀ acc ∈ t.pc.access, acc.lock ≠ k := by
            simpa [Action.task, Sys.access, ht] using h
          simp only [Option.bind_some]
          refine Sys.map_perform_restore (fun _ hs => ?_) fun _ => ?_
          · exact Effect.lock_ne (fun _ => MissionTask.step_lock hs) h
          · rfl
  | submission reply =>
      have hstep : (seen.restore k s).submission.step srv (seen.restore k s).shared
          (seen.restore k s).attenders (seen.restore k s).chain.txs reply =
          s.submission.step srv s.shared s.attenders s.chain.txs reply :=
        Submitter.step_restore h (hreset rfl)
      simp only [Sys.step, hstep]
      refine Sys.map_perform_restore (fun _ hs => ?_) fun _ => ?_
      · exact Effect.lock_ne (fun _ => Submitter.step_lock hs) h
      · rfl
  | attender i reply =>
      have htasks : (seen.restore k s).attenders = s.attenders := rfl
      simp only [Sys.step, htasks]
      cases ha : s.attenders[i]? with
      | none => rfl
      | some a =>
          have h : ∀ acc ∈ a.pc.access, acc.lock ≠ k := by
            simpa [Action.task, Sys.access, ha] using h
          have hstep : a.step srv (seen.restore k s).shared reply = a.step srv s.shared reply :=
            Attender.step_restore h
          simp only [Option.bind_some, hstep]
          refine Sys.map_perform_restore (fun _ hs => ?_) fun _ => ?_
          · exact Effect.lock_ne (fun _ => Attender.step_lock hs) h
          · rfl
  | land i p =>
      have hchain : (seen.restore k s).chain = s.chain := rfl
      simp only [Sys.step, hchain]
      cases s.chain.txs[i]? with
      | none => rfl
      | some tx =>
          cases s.chain.challenge with
          | none => rfl
          | some challenge =>
              simp only [Option.bind_some]
              split
              · exact Sys.perform_restore (fun he => by cases he) rfl
              · rfl
  | account p =>
      have hchain : (seen.restore k s).chain = s.chain := rfl
      simp only [Sys.step, hchain]
      split
      · exact Sys.perform_restore (fun he => by cases he) rfl
      · rfl

end Reads
/-! ## A task that has its lock can go on -/

section Enabled

variable {srv : Server} {sh : Shared} {acc : Access LockName}

lemma BestTask.isSome_of_access {t : BestTask} (h : t.pc.access = some acc) :
    (t.step srv sh).isSome = true := by
  rw [BestTask.step]
  cases hpc : t.pc with
  | readRange =>
      simp only
      split
      · rfl
      · split <;> rfl
  | readSocket _ | readProof _ _ =>
      simp only
      split <;> rfl
  | readContributions _ =>
      simp only
      split
      · split <;> rfl
      · rfl
  | writeContribution _ _ => rfl
  | done =>
      rw [hpc] at h
      cases h

lemma ReadyPc.isSome_of_access {pc : ReadyPc} (h : pc.access = some acc) :
    ∃ reply, (pc.step srv sh reply).isSome = true := by
  cases pc with
  | snapshot =>
      refine ⟨.order sh.readyClients.toList, ?_⟩
      simp [ReadyPc.step, Finset.nodup_toList]
  | readProof _ | readChallenge _ _ => exact ⟨.go, rfl⟩
  | readBest _ =>
      refine ⟨.go, ?_⟩
      rw [ReadyPc.step]
      split <;> rfl
  | takeNonce _ _ clients =>
      cases clients with
      | nil => cases h
      | cons _ _ => exact ⟨.go, rfl⟩
  | readSockets _ _ _ _ =>
      refine ⟨.go, ?_⟩
      rw [ReadyPc.step]
      split <;> rfl
  | removeReady _ _ _ _ => exact ⟨.go, rfl⟩
  | checkPaused _ | readClock _ _ => cases h

lemma MissionTask.isSome_of_access {t : MissionTask} (h : t.pc.access = some acc) :
    t.step.isSome = true := by
  rw [MissionTask.step]
  cases hpc : t.pc with
  | insertRange | send => rfl
  | done =>
      rw [hpc] at h
      cases h

lemma Submitter.isSome_of_access {as : List Attender} {txs : List MineTx} {sub : Submitter}
    (h : sub.pc.access = some acc) : (sub.step srv sh as txs .go).isSome = true := by
  cases hpc : sub.pc with
  | readOldProof | readBest _ | failWriteProof _ _ | failResetNonce _ | failResetEpoch _ =>
      simp only [Submitter.step, hpc, Option.isSome_some]
  | readSockets _ _ | capture _ _ =>
      simp only [Submitter.step, hpc]
      split <;> rfl
  | _ =>
      rw [hpc] at h
      cases h

lemma Attender.active_of_access {a : Attender} (h : a.pc.access = some acc) : a.active := by
  rw [Attender.active]
  cases hpc : a.pc with
  | rpcAddChallenge _ | rpcFindChallenge _ | ended _ =>
      rw [hpc] at h
      cases h
  | _ => rfl

end Enabled

theorem guarded_live (srv : Server) : (guarded srv).Live := by
  intro s i acc hacc
  cases i with
  | tracker => exact ⟨.notify 0 s.shared.appProof, rfl, rfl, rfl⟩
  | connection addr => exact ⟨.disconnect addr, by simp [guarded, Action.task], rfl, rfl⟩
  | clients | chain => cases hacc
  | ready i =>
      obtain ⟨addr, haddr, -⟩ := Option.map_eq_some_iff.mp hacc
      refine ⟨.ready i, by simp [guarded, Action.task], rfl, ?_⟩
      simp [guarded, Sys.step, Option.join_eq_some_iff.mp haddr]
  | best i =>
      obtain ⟨t, ht, hacc⟩ := Option.bind_eq_some_iff.mp hacc
      refine ⟨.best i, by simp [guarded, Action.task], rfl, ?_⟩
      simp [guarded, Sys.step, ht, BestTask.isSome_of_access hacc]
  | missions =>
      obtain ⟨reply, hreply⟩ := ReadyPc.isSome_of_access hacc
      refine ⟨.missions reply, by simp [guarded, Action.task], rfl, ?_⟩
      simpa [guarded, Sys.step] using hreply
  | mission i =>
      obtain ⟨t, ht, hacc⟩ := Option.bind_eq_some_iff.mp hacc
      refine ⟨.mission i, by simp [guarded, Action.task], rfl, ?_⟩
      simp [guarded, Sys.step, ht, MissionTask.isSome_of_access hacc]
  | submission =>
      refine ⟨.submission .go, by simp [guarded, Action.task], rfl, ?_⟩
      simp [guarded, Sys.step, Submitter.isSome_of_access hacc]
  | attender i =>
      obtain ⟨a, ha, hacc⟩ := Option.bind_eq_some_iff.mp hacc
      refine ⟨.attender i a.pc.answer, by simp [guarded, Action.task], rfl, ?_⟩
      simp [guarded, Sys.step, ha, Attender.isSome_step (Attender.active_of_access hacc)]

/-! ## The server with its locks -/

section Runs

variable {srv : Server} {C : Locked Task LockName Sys → LockAction Task LockName Action → Prop}
  {D : Sys → Action → Prop} {x : Locked Task LockName Sys}

/-- **Atomic sections.**  However many tasks hold their locks at the same time, the states of the
server are those of `machine`: what holds in every run of `machine` holds of the server. -/
theorem lockedMachine_reach (hCD : ∀ x i act, C x (.act i act) → D x.state act)
    (h : Reach (lockedMachine srv) C x) : Reach (machine srv) D x.state :=
  serialisable (Sys.disciplined srv) hCD h

/-- The other way round, a run of `machine` in which `try_lock` does not fail can be had with the
locks, one section after the other. -/
theorem lockedMachine_of_machine {s : Sys}
    (h : Reach (machine srv) (fun _ act => decide (act = .submission .busy) = false) s) :
    Reach (lockedMachine srv) Any (Locked.unlocked s) :=
  sequential (Sys.disciplined srv) (fun act => ⟨act.task, decide_eq_true rfl⟩) h

/-- What a task has read under a lock is still so when it lets go. -/
theorem lockedMachine_current (h : Reach (lockedMachine srv) C x) {k : LockName}
    {holder : Holder Task Sys} (hmem : holder ∈ (x.locks k).holders) :
    holder.seen.restore k x.state = x.state :=
  (sound (Sys.disciplined srv) h k).current holder hmem

/-- **No deadlock.**  A lock that is taken or waited for can be let go or passed on. -/
theorem lockedMachine_progress (h : Reach (lockedMachine srv) C x) {k : LockName}
    (hbusy : (x.locks k).isFree = false) :
    (∃ holder ∈ (x.locks k).holders, ∃ act,
        ((lockedMachine srv).step x (.act holder.task act)).isSome = true) ∨
      ((lockedMachine srv).step x (.grant k)).isSome = true :=
  progress (Sys.disciplined srv) (guarded_live srv) h hbusy

end Runs

end OrePool
