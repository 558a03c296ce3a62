import OrePool.Core.Journal
import OrePool.Lemmas.Missions
import OrePool.Replay

/-!
# No `Ready` is lost

A client that is ready again after a mission stays on the ready list until the next mission for
its address is scheduled.  `ReadyKept` says so of every `Ready` received after a mission had gone
out to the client's connection.

The mission loop spawns the task that sends the mission first and takes the address off the list
last, so a client can answer in between, and the list holds its address only once
(`not_readyKept`).  When no such answer falls between the two, none is lost (`readyKept`).
-/

namespace OrePool

open Interleaving

/-! ## What is observed -/

/-- A `Ready` has arrived: the task spawned for it and the journal at that moment. -/
structure Receipt where
  task : ℕ
  addr : SocketAddr
  heard : List Event

/-- Notes every `Ready` that arrives. -/
def readyObserver (srv : Server) : Observer Sys Action (List Receipt) where
  start _ := []
  note
    | s, .receive who m, receipts =>
        match received srv.signatures who m with
        | some (.ready addr) => ⟨s.readyTasks.length, addr, s.journal⟩ :: receipts
        | _ => receipts
    | _, _, receipts => receipts

/-- The server with its arrivals of `Ready`. -/
abbrev readyMachine (srv : Server) : Machine (Sys × List Receipt) Action :=
  (machine srv).observe (readyObserver srv)

/-! ## The property -/

/-- The connection at `addr` begins or ends. -/
def Effect.connects (addr : SocketAddr) : Effect → Bool
  | .insertSocket a _ => a = addr
  | .removeSocket a => a = addr
  | _ => false

/-- A mission for `addr` is scheduled. -/
def Effect.schedules (addr : SocketAddr) : Effect → Bool
  | .spawnMission m => m.addr = addr
  | _ => false

/-- A mission for the present connection at `addr` was scheduled, and its message has left. -/
def Served (addr : SocketAddr) (j : List Event) : Prop :=
  ∃ sent ∈ since (fun ev => ev.2.connects addr) j, ∃ m ∈ sent.2.sentMission, m.addr = addr ∧
    ∃ scheduled ∈ since (fun ev => ev.2.connects addr) j, scheduled.2 = .spawnMission m

/-- The `Ready` answers a mission and, since it arrived, the connection has stayed and no
further mission was scheduled for it. -/
def Receipt.Due (r : Receipt) (j : List Event) : Prop :=
  Served r.addr r.heard ∧
    ∀ ev ∈ after r.heard j, ev.2.connects r.addr = false ∧ ev.2.schedules r.addr = false

/-- The `Ready` is still to be answered with a mission. -/
def Receipt.Open (r : Receipt) (s : Sys) : Prop :=
  (s.shared.sockets.lookup r.addr).isSome ∧ r.Due s.journal

/-- **No `Ready` is lost.**  Once its task has put the address on the ready list, an open `Ready`
is found there. -/
def ReadyKept (s : Sys) (receipts : List Receipt) : Prop :=
  ∀ r ∈ receipts, r.Open s → (Actor.ready r.task, Effect.insertReady r.addr) ∈ s.journal →
    r.addr ∈ s.shared.readyClients

/-- The client the mission loop is about to take off the ready list. -/
def ReadyPc.removing : ReadyPc → Option SocketAddr
  | .removeReady _ _ client _ => some client
  | _ => none

/-- No open `Ready` is put on the list between a mission's being scheduled for its address and
the mission loop's taking the address off. -/
def AnswersClear (x : Sys × List Receipt) : Action → Prop
  | .ready i => ∀ r ∈ x.2, r.task = i → r.Open x.1 → x.1.missionLoop.removing ≠ some r.addr
  | _ => True

instance (addr : SocketAddr) (j : List Event) : Decidable (Served addr j) :=
  inferInstanceAs (Decidable (∃ sent ∈ since _ j, ∃ m ∈ sent.2.sentMission, m.addr = addr ∧
    ∃ scheduled ∈ since _ j, scheduled.2 = .spawnMission m))

instance (r : Receipt) (j : List Event) : Decidable (r.Due j) :=
  inferInstanceAs (Decidable (_ ∧ _))

instance (r : Receipt) (s : Sys) : Decidable (r.Open s) :=
  inferInstanceAs (Decidable (_ ∧ _))

instance : DecidableRel AnswersClear := fun x act =>
  match act with
  | .ready i =>
      inferInstanceAs (Decidable (∀ r ∈ x.2, r.task = i → r.Open x.1 →
        x.1.missionLoop.removing ≠ some r.addr))
  | .notify .. | .connect .. | .disconnect .. | .receive .. | .best .. | .missions ..
  | .mission .. | .submission .. | .attender .. | .land .. | .account .. => isTrue trivial

/-! ## Steps, as the ready list sees them -/

/-- A step puts an address on the list, is one of the mission loop, or leaves both alone. -/
inductive Sys.ReadyMove (srv : Server) (s : Sys) (act : Action) (s' : Sys) : Prop
  | other (who : Actor) (e : Effect) (hact : ∀ i, act ≠ .ready i) (hwho : ∀ i, who ≠ .ready i)
      (hshared : s'.shared = s.shared.apply e) (hjournal : s'.journal = (who, e) :: s.journal)
      (hloop : s'.missionLoop = s.missionLoop)
      (hready : s'.shared.readyClients = s.shared.readyClients)
      (htasks : s.readyTasks.length ≤ s'.readyTasks.length)
  | ready (i : ℕ) (addr : SocketAddr) (hact : act = .ready i)
      (ht : s.readyTasks[i]? = some (some addr))
      (hs' : s' = { s with readyTasks := s.readyTasks.set i none }.perform (.ready i)
        (.insertReady addr))
  | loop (reply : Reply) (pc : ReadyPc) (e : Effect) (hact : act = .missions reply)
      (hmove : ReadyPc.Move srv s.shared reply s.missionLoop pc e)
      (hs' : s' = { s with missionLoop := pc }.perform .missions e)

lemma Shared.apply_ready_of_inRound {e : Effect} (h : e.inRound = true) (sh : Shared) :
    (sh.apply e).readyClients = sh.readyClients := by
  cases e <;> first | rfl | cases h

lemma Sys.spawnFor_readyTasks (s : Sys) (msg : Option ClientMessage) :
    s.readyTasks.length ≤ (s.spawnFor msg).readyTasks.length := by
  unfold Sys.spawnFor
  split <;> simp

theorem Sys.step_readyMove {srv : Server} {s s' : Sys} {act : Action}
    (h : s.step srv act = some s') : Sys.ReadyMove srv s act s' := by
  cases Sys.step_move h with
  | ready ht => exact .ready _ _ rfl ht rfl
  | missions hs => exact .loop _ _ _ rfl (ReadyPc.step_move hs) rfl
  | receive who m =>
      obtain ⟨hsh, hloop, -, -, -, -, hj⟩ := s.spawnFor_fields (received srv.signatures who m)
      exact .other .clients .none (by simp) (by simp) (by simp [hsh]) (by simp [hj])
        (by simp [hloop]) (by simp [hsh, Shared.apply]) (s.spawnFor_readyTasks _)
  | best ht hs =>
      refine .other _ _ (by simp) (by simp) rfl rfl rfl ?_ le_rfl
      cases BestTask.step_move hs <;> rfl
  | mission ht hs =>
      refine .other _ _ (by simp) (by simp) rfl rfl rfl ?_ le_rfl
      rcases MissionTask.step_effect hs with ⟨-, -, rfl⟩ | ⟨-, -, rfl⟩ <;> rfl
  | submission hs =>
      exact .other _ _ (by simp) (by simp) rfl rfl rfl
        (Shared.apply_ready_of_inRound (Submitter.step_inRound hs) _) le_rfl
  | attender ha hs =>
      exact .other _ _ (by simp) (by simp) rfl rfl rfl
        (Shared.apply_ready_of_inRound (Attender.step_inRound hs) _) le_rfl
  | notify _ _ | connect _ _ | disconnect _ | land _ _ _ _ _ | account _ =>
      exact .other _ _ (by simp) (by simp) rfl rfl rfl rfl le_rfl

/-- A receipt noted at a step was noted before, or is of the task spawned at it. -/
lemma mem_readyObserver_note {srv : Server} {s : Sys} {act : Action} {receipts : List Receipt}
    {r : Receipt} (h : r ∈ (readyObserver srv).note s act receipts) :
    r ∈ receipts ∨ (∃ who m, act = .receive who m) ∧ r.task = s.readyTasks.length ∧
      r.heard = s.journal := by
  cases act with
  | receive who m =>
      simp only [readyObserver] at h
      split at h
      · rcases List.mem_cons.mp h with rfl | h
        · exact .inr ⟨⟨_, _, rfl⟩, rfl, rfl⟩
        · exact .inl h
      · exact .inl h
  | _ => exact .inl h

/-! ## The invariant -/

/-- A connection is found before a step as after it, unless the step begins or ends it. -/
lemma Shared.apply_lookup {addr : SocketAddr} {e : Effect} (h : e.connects addr = false)
    (sh : Shared) : (sh.apply e).sockets.lookup addr = sh.sockets.lookup addr := by
  cases e with
  | insertSocket a conn =>
      have ha : a ≠ addr := by simpa [Effect.connects] using h
      exact AList.lookup_insert_ne ha.symm
  | removeSocket a =>
      have ha : a ≠ addr := by simpa [Effect.connects] using h
      exact AList.lookup_erase_ne ha.symm
  | _ => rfl

/-- What is open after a step was so before it, and the step had nothing to do with it. -/
lemma Receipt.Open.of_step {r : Receipt} {s s' : Sys} {who : Actor} {e : Effect}
    (hshared : s'.shared = s.shared.apply e) (hjournal : s'.journal = (who, e) :: s.journal)
    (hheard : r.heard.length ≤ s.journal.length) (h : r.Open s') :
    r.Open s ∧ e.connects r.addr = false ∧ e.schedules r.addr = false := by
  obtain ⟨hconn, hserved, hquiet⟩ := h
  rw [hjournal, after_cons hheard, List.forall_mem_cons] at hquiet
  obtain ⟨he, hquiet⟩ := hquiet
  rw [hshared, Shared.apply_lookup he.1] at hconn
  exact ⟨⟨hconn, hserved, hquiet⟩, he⟩

/-- Receipts are no older than they can be, only spawned tasks have acted, and an open `Ready`
whose task has acted is on the list and not about to be taken off it. -/
structure Kept (s : Sys) (receipts : List Receipt) : Prop where
  heard : ∀ r ∈ receipts, r.heard.length ≤ s.journal.length
  acted : ∀ i e, (Actor.ready i, e) ∈ s.journal → i < s.readyTasks.length
  kept : ∀ r ∈ receipts, r.Open s → (Actor.ready r.task, Effect.insertReady r.addr) ∈ s.journal →
    r.addr ∈ s.shared.readyClients ∧ s.missionLoop.removing ≠ some r.addr

/-- The mission loop leaves an open `Ready` on the list. -/
lemma ReadyPc.Move.keeps {srv : Server} {s : Sys} {reply : Reply} {pc : ReadyPc} {e : Effect}
    {r : Receipt} (h : ReadyPc.Move srv s.shared reply s.missionLoop pc e) (hopen : r.Open s)
    (hno : e.schedules r.addr = false) (hmem : r.addr ∈ s.shared.readyClients)
    (hrem : s.missionLoop.removing ≠ some r.addr) :
    r.addr ∈ (s.shared.apply e).readyClients ∧ pc.removing ≠ some r.addr := by
  cases hpc : s.missionLoop <;> rw [hpc] at h hrem <;> cases h
  case readSockets.spawn => exact ⟨hmem, by simpa [Effect.schedules, ReadyPc.removing] using hno⟩
  case readSockets.gone hsender =>
    refine ⟨hmem, ?_⟩
    intro hclient
    obtain rfl := Option.some.inj hclient
    exact absurd hopen.1 (by simp [hsender])
  case removeReady.remove =>
    have hne : r.addr ≠ _ := fun h => hrem (congrArg some h.symm)
    exact ⟨Finset.mem_erase.mpr ⟨hne, hmem⟩, nofun⟩
  all_goals exact ⟨hmem, nofun⟩

theorem Kept.step {srv : Server} {s s' : Sys} {receipts : List Receipt} {act : Action}
    (hi : Kept s receipts) (hc : AnswersClear (s, receipts) act) (hs : s.step srv act = some s') :
    Kept s' ((readyObserver srv).note s act receipts) := by
  have hheard : ∀ r ∈ (readyObserver srv).note s act receipts,
      r.heard.length ≤ s.journal.length := by
    intro r hr
    rcases mem_readyObserver_note hr with hr | ⟨-, -, hr⟩
    · exact hi.heard r hr
    · rw [hr]
  cases Sys.step_readyMove hs with
  | other who e hact hwho hshared hjournal hloop hready htasks =>
      have hacted : ∀ i e', (Actor.ready i, e') ∈ s'.journal → (Actor.ready i, e') ∈ s.journal := by
        intro i e' hm
        rw [hjournal, List.mem_cons, Prod.mk.injEq] at hm
        exact hm.resolve_left fun h => hwho i h.1.symm
      refine ⟨?_, ?_, ?_⟩
      · intro r hr
        rw [hjournal]
        exact Nat.le_succ_of_le (hheard r hr)
      · intro i e' hm
        exact (hi.acted i e' (hacted i e' hm)).trans_le htasks
      · intro r hr hopen hm
        obtain ⟨hopen, -⟩ := hopen.of_step hshared hjournal (hheard r hr)
        rw [hready, hloop]
        rcases mem_readyObserver_note hr with hr | ⟨-, htask, -⟩
        · exact hi.kept r hr hopen (hacted _ _ hm)
        · -- the task has only been spawned at this step
          exact absurd (hi.acted _ _ (hacted _ _ hm)) (by omega)
  | ready i addr hact ht hs' =>
      subst hact hs'
      refine ⟨fun r hr => Nat.le_succ_of_le (hi.heard r hr), ?_, ?_⟩
      · intro j e' hm
        simp only [Sys.perform_readyTasks, List.length_set]
        rcases List.mem_cons.mp hm with h | h
        · obtain rfl := Actor.ready.inj (Prod.mk.inj h).1
          exact (List.getElem?_eq_some_iff.mp ht).1
        · exact hi.acted j e' h
      · intro r hr hopen hm
        have ho := (hopen.of_step (s := s) rfl rfl (hi.heard r hr)).1
        rcases List.mem_cons.mp hm with h | h
        · simp only [Prod.mk.injEq, Actor.ready.injEq, Effect.insertReady.injEq] at h
          obtain ⟨htask, rfl⟩ := h
          exact ⟨Finset.mem_insert_self _ _, hc r hr htask ho⟩
        · obtain ⟨hmem, hrem⟩ := hi.kept r hr ho h
          exact ⟨Finset.mem_insert_of_mem hmem, hrem⟩
  | loop reply pc e hact hmove hs' =>
      subst hact hs'
      refine ⟨fun r hr => Nat.le_succ_of_le (hi.heard r hr), ?_, ?_⟩
      · intro j e' hm
        exact hi.acted j e' (by simpa using hm)
      · intro r hr hopen hm
        obtain ⟨hopen, -, hno⟩ := hopen.of_step (s := s) rfl rfl (hi.heard r hr)
        obtain ⟨hmem, hrem⟩ := hi.kept r hr hopen (by simpa using hm)
        exact hmove.keeps hopen hno hmem hrem

/-- **No `Ready` is lost** in a run in which none is put on the list between a mission's being
scheduled for its address and the mission loop's taking the address off. -/
theorem readyKept {srv : Server} {x : Sys × List Receipt}
    (h : Reach (readyMachine srv) AnswersClear x) : ReadyKept x.1 x.2 := by
  have hi : Kept x.1 x.2 := by
    refine h.observed_invariant ?_ fun s receipts act s' _ hi hc hs => hi.step hc hs
    rintro _ ⟨p, rfl⟩
    exact ⟨nofun, by simp [Sys.start], nofun⟩
  exact fun r hr hopen hm => (hi.kept r hr hopen hm).1

/-- A `Ready` that comes in when the mission loop is through is kept. -/
theorem readyKept_afterMission :
    ∃ x, Reach (readyMachine (Replay.server .unavailable)) AnswersClear x ∧
      (∃ r ∈ x.2, r.Open x.1 ∧ (Actor.ready r.task, Effect.insertReady r.addr) ∈ x.1.journal) ∧
      ReadyKept x.1 x.2 := by
  obtain ⟨x, hr, hx⟩ := exists_of_replayObserved (Replay.server .unavailable)
    (readyObserver (Replay.server .unavailable)) AnswersClear (Replay.proofAt 1 0)
    ([.connect 1 (Replay.key 1) .V1] ++ Replay.mission 0 1 ++
      [.receive 1 (.binary [0]), .ready 1])
    (fun x => decide (∃ r ∈ x.2, r.Open x.1 ∧
      (Actor.ready r.task, Effect.insertReady r.addr) ∈ x.1.journal)) (by decide +kernel)
  exact ⟨x, hr, by simpa only [decide_eq_true_eq] using hx, readyKept hr⟩

/-- A client that answers its mission before the mission loop has taken it off the list is taken
off with its answer. -/
theorem not_readyKept :
    ¬ ∀ srv x, Reach (readyMachine srv) (fun x => Honest x.1) x → ReadyKept x.1 x.2 := by
  refine not_forall_of_replayObserved (O := readyObserver)
    (C := fun _ x => Honest x.1) (P := fun _ x => ReadyKept x.1 x.2)
    (Replay.server .unavailable) (Replay.proofAt 1 0)
    [.connect 1 (Replay.key 1) .V1, .receive 1 (.binary [0]), .ready 0, .missions (.order [1]),
      .missions .go, .missions .go, .missions (.clock 0), .missions .go, .missions .go,
      .missions .go, .mission 0, .receive 1 (.binary [0]), .ready 1, .missions .go]
    (fun x => decide (∃ r ∈ x.2, r.Open x.1 ∧
      (Actor.ready r.task, Effect.insertReady r.addr) ∈ x.1.journal ∧
      r.addr ∉ x.1.shared.readyClients))
    ?_ (by decide +kernel)
  intro x hx hk
  simp only [decide_eq_true_eq] at hx
  obtain ⟨r, hr, hopen, hm, hno⟩ := hx
  exact hno (hk r hr hopen hm)

end OrePool
