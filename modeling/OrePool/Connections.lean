import OrePool.Lemmas.Moves
import OrePool.Processors.ConnectionChecks
import OrePool.Processors.Handshake

/-!
# The server around its connections

The tasks that use `AppState.sockets`: the handshakes, as far as they look at it, `handle_socket`,
the two checks, and `client_message_processor` for the pongs.  A step is one atomic section, so that
every interleaving is a run; an address may be used by any number of websockets.

With a SQLite database the handshakes are those of the ledger and do not look at the sockets, so any
connection may come out of one.
-/

namespace OrePool

open Interleaving

/-! ## The state -/

/-- The sockets, the pongs and the tasks at work on them.  The client channel has, with every
message, the websocket it came in on, which no step reads.  `registrations` counts the entries made
in `sockets`. -/
structure Connections where
  sockets : Sockets
  registrations : ℕ
  tasks : List SocketTask
  channel : List (ℕ × ClientMessage)
  pongs : Pongs
  pingCheck : PingCheckPc
  pongTracking : PongTrackingPc
  clock : ℕ

/-- The keys with a connection. -/
def Connections.connected (s : Connections) : List Pubkey :=
  s.sockets.entries.map fun x => x.2.connection.pubkey

/-- A handshake has been let through: its websocket is handed to `handle_socket`. -/
def Connections.upgrade (s : Connections) (who : SocketAddr) (connection : ClientConnection) :
    Connections :=
  { s with tasks := s.tasks ++ [⟨who, connection, s.registrations, .ping⟩] }

/-- Carries out what task `i` does. -/
def Connections.perform (s : Connections) (i : ℕ) : SocketEffect → Connections
  | .none => s
  | .insert who connection =>
      { s with
        sockets := s.sockets.insert who ⟨connection, i, s.registrations⟩
        registrations := s.registrations + 1 }
  | .remove who => { s with sockets := s.sockets.erase who }
  | .send msg => { s with channel := s.channel ++ [(i, msg)] }

/-- Carries out what the ping check does. -/
def Connections.performPing (s : Connections) : SocketEffect → Connections
  | .remove who => { s with sockets := s.sockets.erase who }
  | _ => s

/-- Carries out what the pong tracker does. -/
def Connections.performPong (s : Connections) : PongEffect → Connections
  | .none => s
  | .removeSocket who => { s with sockets := s.sockets.erase who }
  | .removePong who => { s with pongs := s.pongs.erase who }

/-- `client_message_processor` on a message: a pong is entered in the table. -/
def Connections.deliver (s : Connections) : ℕ × ClientMessage → Connections
  | (sender, .pong addr) => { s with pongs := s.pongs.insert addr ⟨s.clock, sender⟩ }
  | _ => s

/-! ## Steps -/

/-- Which task moves, with what the surroundings decide. -/
inductive ConnectionAction
  | tick (ms : ℕ)
  /-- A request comes in at one of the endpoints, without a database. -/
  | request (who : SocketAddr) (req : Request) (now : UInt64)
  /-- A handshake with the database is let through. -/
  | admitted (who : SocketAddr) (connection : ClientConnection)
  | socket (i : ℕ) (input : SocketInput)
  /-- `client_message_processor` takes a message from the channel. -/
  | clientMessage
  | pingCheck (order : SocketList)
  | pingDone (k : ℕ) (outcome : PingOutcome)
  | pongTracking (order : PongList)
  deriving DecidableEq

def Connections.step (host : Host) (s : Connections) : ConnectionAction → Option Connections
  | .tick ms => some { s with clock := s.clock + ms }
  | .request who req now =>
      if host.poweredByDbms = .sqlite then
        none
      else
        match req.open host now s.connected with
        | .accepted connection => some (s.upgrade who connection)
        | _ => some s
  | .admitted who connection =>
      if host.poweredByDbms = .sqlite then some (s.upgrade who connection) else none
  | .socket i input =>
      (s.tasks[i]?).bind fun t => (t.step host.signatures s.sockets input).map fun (t', e) =>
        { s with tasks := s.tasks.set i t' }.perform i e
  | .clientMessage =>
      match s.channel with
      | [] => none
      | msg :: channel => some ({ s with channel := channel }.deliver msg)
  | .pingCheck order =>
      (s.pingCheck.step s.sockets s.clock order).map fun (pc, e) =>
        { s with pingCheck := pc }.performPing e
  | .pingDone k outcome => some { s with pingCheck := s.pingCheck.finish k outcome }
  | .pongTracking order =>
      (s.pongTracking.step s.pongs s.clock order).map fun (pc, e) =>
        { s with pongTracking := pc }.performPong e

/-- No connection, and the two checks about to begin. -/
def Connections.start : Connections := ⟨∅, 0, [], [], ∅, .sleep 0, .sleep 0, 0⟩

/-- The connections of a server as a machine. -/
def connections (host : Host) : Machine Connections ConnectionAction where
  init s := s = .start
  step := Connections.step host

/-! ## Who enters and who is removed -/

/-- The connection an address is removed for, and the address: the one whose task leaves, the one
whose ping could not be sent, the one whose pong is overdue. -/
def Connections.removing (s : Connections) : ConnectionAction → Option (ℕ × SocketAddr)
  | .socket i _ =>
      match s.tasks[i]? with
      | some ⟨who, _, _, .remove⟩ => some (i, who)
      | _ => none
  | .pingCheck _ =>
      match s.pingCheck with
      | .remove handle _ => some (handle.entry.socket, handle.who)
      | _ => none
  | .pongTracking _ =>
      match s.pongTracking with
      | .removeSocket who pong _ => some (pong.sender, who)
      | _ => none
  | _ => none

/-- The task about to enter its connection, and its number. -/
def Connections.registering (s : Connections) : ConnectionAction → Option (ℕ × SocketTask)
  | .socket i _ =>
      match s.tasks[i]? with
      | some t =>
          if t.pc = .register ∧ s.sockets.lookup t.who = none then some (i, t) else none
      | none => none
  | _ => none

/-! ## What a step can do -/

/-- What `SocketTask.step` can do. -/
inductive SocketTask.Move (sockets : Sockets) (t : SocketTask) : SocketTask → SocketEffect → Prop
  | pinged (hpc : t.pc = .ping) : Move sockets t (t.goto .register) .none
  | unreachable (hpc : t.pc = .ping) : Move sockets t (t.goto .returned) .none
  | taken (hpc : t.pc = .register) (htaken : (sockets.lookup t.who).isSome) :
      Move sockets t (t.goto .returned) .none
  | register (hpc : t.pc = .register) (hfree : sockets.lookup t.who = none) :
      Move sockets t (t.goto .receive) (.insert t.who t.connection)
  | skip (hpc : t.pc = .receive) : Move sockets t t .none
  | send (hpc : t.pc = .receive) (msg : ClientMessage) : Move sockets t t (.send msg)
  | leave (hpc : t.pc = .receive) : Move sockets t (t.goto .remove) .none
  | remove (hpc : t.pc = .remove) : Move sockets t (t.goto .returned) (.remove t.who)

theorem SocketTask.step_move {sigs : Signatures} {sockets : Sockets} {input : SocketInput}
    {t t' : SocketTask} {e : SocketEffect} (h : t.step sigs sockets input = some (t', e)) :
    SocketTask.Move sockets t t' e := by
  revert h
  fun_cases SocketTask.step sigs sockets input t <;> intro h <;>
    simp only [Option.some.injEq, Prod.mk.injEq, reduceCtorEq] at h <;> obtain ⟨rfl, rfl⟩ := h
  case case1 hpc => exact .pinged hpc
  case case2 hpc => exact .unreachable hpc
  case case4 hpc htaken => exact .taken hpc htaken
  case case5 hpc hfree => exact .register hpc (by simpa using hfree)
  case case6 hpc _ _ _ => exact .send hpc _
  case case7 hpc _ _ => exact .skip hpc
  case case8 hpc _ _ _ => exact .leave hpc
  case case9 hpc _ _ => exact .leave hpc
  case case10 hpc => exact .leave hpc
  case case12 hpc => exact .remove hpc

/-- The ping check removes an address only where it has found a ping that could not be sent. -/
lemma PingCheckPc.step_effect {sockets : Sockets} {clock : ℕ} {order : SocketList}
    {pc pc' : PingCheckPc} {e : SocketEffect}
    (h : pc.step sockets clock order = some (pc', e)) :
    ((∀ handle handles, pc ≠ .remove handle handles) ∧ e = .none) ∨
      ∃ handle handles, pc = .remove handle handles ∧ e = .remove handle.who := by
  revert h
  fun_cases PingCheckPc.step sockets clock order pc <;> intro h <;>
    simp only [Option.some.injEq, Prod.mk.injEq, reduceCtorEq] at h <;> obtain ⟨rfl, rfl⟩ := h
  case case8 => exact .inr ⟨_, _, rfl, rfl⟩
  all_goals exact .inl ⟨by simp, rfl⟩

/-- The pong tracker removes an address only where it has found an overdue pong. -/
lemma PongTrackingPc.step_effect {pongs : Pongs} {clock : ℕ} {order : PongList}
    {pc pc' : PongTrackingPc} {e : PongEffect}
    (h : pc.step pongs clock order = some (pc', e)) :
    ((∀ who pong rest, pc ≠ .removeSocket who pong rest) ∧
        (e = .none ∨ ∃ who, e = .removePong who)) ∨
      ∃ who pong rest, pc = .removeSocket who pong rest ∧ e = .removeSocket who := by
  revert h
  fun_cases PongTrackingPc.step pongs clock order pc <;> intro h <;>
    simp only [Option.some.injEq, Prod.mk.injEq, reduceCtorEq] at h <;> obtain ⟨rfl, rfl⟩ := h
  case case6 => exact .inr ⟨_, _, _, rfl, rfl⟩
  all_goals exact .inl ⟨by simp, by simp⟩

/-- What a step does to the sockets and to the tasks behind them. -/
inductive Connections.Move (host : Host) (s : Connections) (act : ConnectionAction)
    (s' : Connections) : Prop
  | idle (hrem : s.removing act = none) (hsockets : s'.sockets = s.sockets)
      (hreg : s'.registrations = s.registrations) (htasks : s'.tasks = s.tasks)
  | upgrade (who : SocketAddr) (connection : ClientConnection)
      (hwho : act = .admitted who connection ∧ host.poweredByDbms = .sqlite ∨
        host.poweredByDbms ≠ .sqlite ∧ connection.pubkey ∉ s.connected ∧
          connection.minerId = Int64.maxValue)
      (hs' : s' = s.upgrade who connection)
  | goto (i : ℕ) (t : SocketTask) (pc : SocketPc) (ht : s.tasks[i]? = some t)
      (hrem : s.removing act = none) (hpc : pc = .returned ∧ (t.pc = .ping ∨ t.pc = .register) ∨
        pc = .remove ∧ t.pc = .receive ∨ pc = .register ∧ t.pc = .ping)
      (hsockets : s'.sockets = s.sockets) (hreg : s'.registrations = s.registrations)
      (htasks : s'.tasks = s.tasks.set i (t.goto pc))
  | register (i : ℕ) (t : SocketTask) (ht : s.tasks[i]? = some t) (hpc : t.pc = .register)
      (hfree : s.sockets.lookup t.who = none) (hrem : s.removing act = none)
      (hnew : s.registering act = some (i, t))
      (hsockets : s'.sockets = s.sockets.insert t.who ⟨t.connection, i, s.registrations⟩)
      (hreg : s'.registrations = s.registrations + 1)
      (htasks : s'.tasks = s.tasks.set i (t.goto .receive))
  | remove (i : ℕ) (who : SocketAddr) (hrem : s.removing act = some (i, who))
      (hsockets : s'.sockets = s.sockets.erase who) (hreg : s'.registrations = s.registrations)
      (htasks : s'.tasks = s.tasks ∨ ∃ t, s.tasks[i]? = some t ∧ t.who = who ∧
        t.pc = .remove ∧ s'.tasks = s.tasks.set i (t.goto .returned))

theorem Connections.step_move {host : Host} {s s' : Connections} {act : ConnectionAction}
    (h : s.step host act = some s') : Connections.Move host s act s' := by
  cases act with
  | tick ms =>
      obtain rfl := Option.some.inj h
      exact .idle rfl rfl rfl rfl
  | request who req now =>
      simp only [Connections.step] at h
      split at h
      · cases h
      · rename_i hdb
        split at h
        · rename_i connection hopen
          obtain rfl := Option.some.inj h
          obtain ⟨-, -, userPubkey, -, hfree, -, rfl⟩ := Request.open_eq_accepted hopen
          exact .upgrade who _ (.inr ⟨hdb, hfree, rfl⟩) rfl
        · obtain rfl := Option.some.inj h
          exact .idle rfl rfl rfl rfl
  | admitted who connection =>
      simp only [Connections.step] at h
      split at h
      · rename_i hdb
        obtain rfl := Option.some.inj h
        exact .upgrade who connection (.inl ⟨rfl, hdb⟩) rfl
      · cases h
  | socket i input =>
      obtain ⟨t, ht, h⟩ := Option.bind_eq_some_iff.mp h
      obtain ⟨⟨t', e⟩, hs, rfl⟩ := Option.map_eq_some_iff.mp h
      have hrem : t.pc ≠ .remove → s.removing (.socket i input) = none := by
        intro hpc
        obtain ⟨who, connection, checked, pc⟩ := t
        simp only [Connections.removing, ht]
        cases pc <;> first | rfl | exact absurd rfl hpc
      have hself : s.tasks.set i t = s.tasks := by
        obtain ⟨hi, rfl⟩ := List.getElem?_eq_some_iff.mp ht
        exact List.set_getElem_self hi
      cases SocketTask.step_move hs with
      | pinged hpc =>
          exact .goto i t _ ht (hrem (by simp [hpc])) (.inr (.inr ⟨rfl, hpc⟩)) rfl rfl rfl
      | unreachable hpc =>
          exact .goto i t _ ht (hrem (by simp [hpc])) (.inl ⟨rfl, .inl hpc⟩) rfl rfl rfl
      | taken hpc _ =>
          exact .goto i t _ ht (hrem (by simp [hpc])) (.inl ⟨rfl, .inr hpc⟩) rfl rfl rfl
      | register hpc hfree =>
          exact .register i t ht hpc hfree (hrem (by simp [hpc]))
            (by simp [Connections.registering, ht, hpc, hfree]) rfl rfl rfl
      | skip hpc => exact .idle (hrem (by simp [hpc])) rfl rfl hself
      | send hpc msg => exact .idle (hrem (by simp [hpc])) rfl rfl hself
      | leave hpc =>
          exact .goto i t _ ht (hrem (by simp [hpc])) (.inr (.inl ⟨rfl, hpc⟩)) rfl rfl rfl
      | remove hpc =>
          refine .remove i t.who ?_ rfl rfl (.inr ⟨t, ht, rfl, hpc, rfl⟩)
          obtain ⟨who, connection, checked, pc⟩ := t
          obtain rfl : pc = .remove := hpc
          simp only [Connections.removing, ht]
  | clientMessage =>
      simp only [Connections.step] at h
      split at h
      · cases h
      · rename_i msg channel hch
        obtain rfl := Option.some.inj h
        obtain ⟨sender, msg⟩ := msg
        cases msg <;> exact .idle rfl rfl rfl rfl
  | pingCheck order =>
      obtain ⟨⟨pc, e⟩, hs, rfl⟩ := Option.map_eq_some_iff.mp h
      rcases PingCheckPc.step_effect hs with ⟨hpc, rfl⟩ | ⟨handle, handles, hpc, rfl⟩
      · refine .idle ?_ rfl rfl rfl
        rw [Connections.removing]
        split
        · exact absurd ‹_› (hpc _ _)
        · rfl
      · exact .remove handle.entry.socket handle.who (by simp [Connections.removing, hpc]) rfl rfl
          (.inl rfl)
  | pingDone k outcome =>
      obtain rfl := Option.some.inj h
      exact .idle rfl rfl rfl rfl
  | pongTracking order =>
      obtain ⟨⟨pc, e⟩, hs, rfl⟩ := Option.map_eq_some_iff.mp h
      rcases PongTrackingPc.step_effect hs with ⟨hpc, he⟩ | ⟨who, pong, pongs, hpc, rfl⟩
      · have hrem : s.removing (.pongTracking order) = none := by
          rw [Connections.removing]
          split
          · exact absurd ‹_› (hpc _ _ _)
          · rfl
        rcases he with rfl | ⟨who, rfl⟩
        · exact .idle hrem rfl rfl rfl
        · exact .idle hrem rfl rfl rfl
      · exact .remove pong.sender who (by simp [Connections.removing, hpc]) rfl rfl (.inl rfl)

/-! ## The connections of the whole server -/

/-- The sockets without their websockets. -/
def Connections.Shows (s : Connections) (sh : Shared) : Prop :=
  ∀ addr, sh.sockets.lookup addr = (s.sockets.lookup addr).map SocketEntry.connection

/-- A connection that comes out of a handshake with the database has the id of its key. -/
def Registered (srv : Server) (_ : Connections) (act : ConnectionAction) : Prop :=
  ∀ who connection, act = .admitted who connection →
    srv.minersId connection.pubkey = some connection.minerId

/-- The steps of the whole server that are about its connections. -/
def ConnectionsOnly (_ : Sys) (act : Action) : Prop :=
  (∃ addr pubkey version, act = .connect addr pubkey version) ∨ ∃ addr, act = .disconnect addr

/-- Every task has a connection the server can give its key. -/
def Connections.Known (srv : Server) (s : Connections) : Prop :=
  ∀ t ∈ s.tasks, srv.minerIdFor t.connection.pubkey = some t.connection.minerId

lemma Connections.Known.step {host : Host} {srv : Server} {s s' : Connections}
    {act : ConnectionAction} (hdbms : srv.poweredByDbms = host.poweredByDbms)
    (hi : s.Known srv) (hc : Registered srv s act) (hs : s.step host act = some s') :
    s'.Known srv := by
  have hset : ∀ {i t pc}, s.tasks[i]? = some t → s'.tasks = s.tasks.set i (t.goto pc) →
      s'.Known srv := by
    intro i t pc ht htasks u hu
    rw [htasks] at hu
    rcases List.mem_or_eq_of_mem_set hu with hu | rfl
    · exact hi u hu
    · exact hi t (List.mem_of_getElem? ht)
  cases Connections.step_move hs with
  | idle _ _ _ htasks =>
      rw [Connections.Known, htasks]
      exact hi
  | upgrade who connection hwho hs' =>
      subst hs'
      intro t ht
      rcases List.mem_append.mp ht with ht | ht
      · exact hi t ht
      · obtain rfl := List.mem_singleton.mp ht
        show srv.minerIdFor connection.pubkey = some connection.minerId
        rcases hwho with ⟨hact, hdb⟩ | ⟨hdb, -, hid⟩
        · rw [Server.minerIdFor, if_pos (hdbms.trans hdb)]
          exact hc who connection hact
        · rw [Server.minerIdFor, if_neg (hdbms ▸ hdb), hid]
  | goto i t pc ht _ _ _ _ htasks => exact hset ht htasks
  | register i t ht _ _ _ _ _ _ htasks => exact hset ht htasks
  | remove i who _ _ _ htasks =>
      rcases htasks with htasks | ⟨t, ht, -, -, htasks⟩
      · rw [Connections.Known, htasks]
        exact hi
      · exact hset ht htasks

/-- **Refinement.**  The sockets of a run are those of a run of the whole server in which
connections come and go. -/
theorem Connections.refines {host : Host} {srv : Server}
    (hdbms : srv.poweredByDbms = host.poweredByDbms) {s : Connections}
    (h : Reach (connections host) (Registered srv) s) :
    ∃ t, Reach (machine srv) ConnectionsOnly t ∧ s.Shows t.shared := by
  suffices hboth : s.Known srv ∧ ∃ t, Reach (machine srv) ConnectionsOnly t ∧ s.Shows t.shared from
    hboth.2
  refine h.invariant (I := fun s => s.Known srv ∧
    ∃ t, Reach (machine srv) ConnectionsOnly t ∧ s.Shows t.shared) ?_ ?_
  · intro s h0
    obtain rfl : s = .start := h0
    refine ⟨fun t ht => absurd ht List.not_mem_nil, ?_⟩
    exact ⟨Sys.start srv ⟨0, Vector.replicate 32 0, 0⟩, .init ⟨_, rfl⟩, fun addr => rfl⟩
  · rintro s act s' - ⟨hknown, t, ht, hshows⟩ hc hs
    refine ⟨hknown.step hdbms hc hs, ?_⟩
    cases Connections.step_move hs with
    | idle _ hsockets _ _ | goto _ _ _ _ _ _ hsockets _ _ =>
        exact ⟨t, ht, fun addr => hsockets ▸ hshows addr⟩
    | upgrade who connection _ hs' => exact ⟨t, ht, hs' ▸ hshows⟩
    | register i task htask _ hfree _ _ hsockets _ _ =>
        have hid := hknown task (List.mem_of_getElem? htask)
        refine ⟨t.perform .connections (.insertSocket task.who ⟨task.connection.pubkey,
          task.connection.minerId, task.connection.clientVersion⟩), ?_, ?_⟩
        · refine .step (a := .connect task.who task.connection.pubkey
            task.connection.clientVersion) ht (.inl ⟨_, _, _, rfl⟩) ?_
          show Sys.step srv t (.connect _ _ _) = _
          rw [Sys.step, if_neg (by simp [hshows task.who, hfree]), hid]
          rfl
        · intro addr
          rw [hsockets]
          show (t.shared.sockets.insert task.who _).lookup addr = _
          by_cases haddr : addr = task.who
          · subst haddr
            simp
          · rw [AList.lookup_insert_ne haddr, AList.lookup_insert_ne haddr]
            exact hshows addr
    | remove i who _ hsockets _ _ =>
        refine ⟨t.perform .connections (.removeSocket who), ?_, ?_⟩
        · exact .step (a := .disconnect who) ht (.inr ⟨who, rfl⟩) rfl
        · intro addr
          rw [hsockets]
          show (t.shared.sockets.erase who).lookup addr = _
          by_cases haddr : addr = who
          · subst haddr
            simp
          · rw [AList.lookup_erase_ne haddr, AList.lookup_erase_ne haddr]
            exact hshows addr

end OrePool
