import OrePool.ConnectionReplay

/-!
# Who owns an entry of the sockets

A `handle_socket` that has entered its connection relies on the entry while its receive loop runs:
missions and results are sent through it.  `Owned` says that the entry is there and is its own, and
`OwnOnly` that no address was removed from under another connection.

Three tasks remove entries, all of them by address, and none asks whose the entry is or whether its
receive loop still runs.

* A pong is kept when its connection has ended, and so is what the ping check has copied.  A later
  connection from the same address loses its entry to them (`not_connectionOwned`).
* The two checks also take out a connection whose receive loop goes on, when a ping to it fails or
  its last pong is overdue.  What it takes out itself, when it ends, can be the entry of another.

As long as a connection is entered under an address that nothing of an earlier one is left of, and
the checks find fault with ended connections only, both hold (`connectionOwned`).
-/

namespace OrePool

open Interleaving

/-! ## The property -/

/-- Every running receive loop has its own connection under its address. -/
def Connections.Owned (s : Connections) : Prop :=
  ∀ i t, s.tasks[i]? = some t → t.pc = .receive →
    ∃ entry, s.sockets.lookup t.who = some entry ∧ entry.socket = i ∧
      entry.connection = t.connection

/-- A removal: the connection it was for and the entry that went. -/
structure Removal where
  behalf : ℕ
  entry : Option SocketEntry

/-- What removals there have been. -/
def removals : Observer Connections ConnectionAction (List Removal) where
  start _ := []
  note s act notes :=
    match s.removing act with
    | some (behalf, who) => ⟨behalf, s.sockets.lookup who⟩ :: notes
    | none => notes

/-- No removal took the entry of another connection. -/
def OwnOnly (notes : List Removal) : Prop :=
  ∀ removal ∈ notes, ∀ entry ∈ removal.entry, entry.socket = removal.behalf

/-- **Ownership.** -/
def ConnectionOwned (x : Connections × List Removal) : Prop := x.1.Owned ∧ OwnOnly x.2

/-- The receive loop of websocket `i` runs. -/
def Connections.Receives (s : Connections) (i : ℕ) : Prop :=
  ∃ t ∈ s.tasks[i]?, t.pc = .receive

instance (s : Connections) (i : ℕ) : Decidable (s.Receives i) :=
  inferInstanceAs (Decidable (∃ t ∈ s.tasks[i]?, t.pc = .receive))

/-! ## What is left of a connection -/

/-- The receive loop of websocket `i` has ended. -/
def Connections.Ended (s : Connections) (i : ℕ) : Prop :=
  ∃ t ∈ s.tasks[i]?, t.pc = .remove ∨ t.pc = .returned

instance (s : Connections) (i : ℕ) : Decidable (s.Ended i) :=
  inferInstanceAs (Decidable (∃ t ∈ s.tasks[i]?, t.pc = .remove ∨ t.pc = .returned))

/-- The connection is entered and its task is still to take the address out. -/
def SocketPc.entered : SocketPc → Bool
  | .receive => true
  | .remove => true
  | _ => false

/-- The handles the ping check has yet to be through with. -/
def PingCheckPc.handles : PingCheckPc → List PingHandle
  | .sleep _ => []
  | .await handles => handles
  | .remove handle handles => handle :: handles

/-- The pongs of the copy that the pong tracker may yet remove an address for. -/
def PongTrackingPc.pongs : PongTrackingPc → PongList
  | .sleep _ => []
  | .check pongs => pongs
  | .removeSocket who pong pongs => ⟨who, pong⟩ :: pongs
  | .removePong _ pongs => pongs

/-- The address a message says has answered a ping. -/
def ClientMessage.pongOf : ClientMessage → Option SocketAddr
  | .pong addr => some addr
  | _ => none

/-- What an address may yet be removed for by the two checks: the pongs on their way, in the table
and in the tracker's copy, and the pings under way.  Each with its address and its websocket. -/
def Connections.traces (s : Connections) : List (SocketAddr × ℕ) :=
  (s.channel.filterMap fun x => x.2.pongOf.map fun addr => (addr, x.1)) ++
    (s.pongs.entries.map fun x => (x.1, x.2.sender)) ++
    (s.pongTracking.pongs.map fun x => (x.1, x.2.sender)) ++
    s.pingCheck.handles.map fun handle => (handle.who, handle.entry.socket)

/-- A connection is entered under an address that nothing of an earlier one is left of: no pong and
no ping, and no task that is still to take the address out. -/
def EntersFresh (s : Connections) (act : ConnectionAction) : Prop :=
  ∀ new ∈ s.registering act, (∀ x ∈ s.traces, x.1 ≠ new.2.who) ∧
    ∀ t ∈ s.tasks, t.pc.entered = true → t.who ≠ new.2.who

instance : DecidableRel EntersFresh := fun s act =>
  inferInstanceAs (Decidable (∀ new ∈ s.registering act, (∀ x ∈ s.traces, x.1 ≠ new.2.who) ∧
    ∀ t ∈ s.tasks, t.pc.entered = true → t.who ≠ new.2.who))

/-- The websocket a check is about to find fault with: its ping could not be sent, or its pong is
overdue. -/
def Connections.evicting (s : Connections) : ConnectionAction → Option ℕ
  | .pingCheck _ =>
      match s.pingCheck with
      | .await (handle :: _) =>
          if handle.outcome = some .failed then some handle.entry.socket else none
      | _ => none
  | .pongTracking _ =>
      match s.pongTracking with
      | .check (⟨_, pong⟩ :: _) => if pong.overdue s.clock then some pong.sender else none
      | _ => none
  | _ => none

/-- The checks find fault with ended connections only. -/
def EvictsEnded (s : Connections) (act : ConnectionAction) : Prop :=
  ∀ i ∈ s.evicting act, s.Ended i

instance : DecidableRel EvictsEnded := fun s act =>
  inferInstanceAs (Decidable (∀ i ∈ s.evicting act, s.Ended i))

/-- The runs in which addresses are not used again too early and no running connection is
evicted. -/
def TableCondition (x : Connections × List Removal) (act : ConnectionAction) : Prop :=
  EntersFresh x.1 act ∧ EvictsEnded x.1 act

instance : DecidableRel TableCondition := fun x act =>
  inferInstanceAs (Decidable (EntersFresh x.1 act ∧ EvictsEnded x.1 act))

/-! ## Tasks after a step -/

/-- The connection of websocket `i` is entered under `who` and not yet taken out by its task. -/
def Connections.Active (s : Connections) (i : ℕ) (who : SocketAddr) : Prop :=
  ∃ t, s.tasks[i]? = some t ∧ t.who = who ∧ t.pc.entered = true

section Step

variable {host : Host} {s s' : Connections} {act : ConnectionAction} {i : ℕ} {who : SocketAddr}

/-- Who is active after a step was so before, or has just been entered. -/
lemma Connections.active_before (hs : s.step host act = some s') (h : s'.Active i who) :
    s.Active i who ∨ ∃ t, s.registering act = some (i, t) ∧ t.who = who := by
  obtain ⟨u, hu, hwho, hpc⟩ := h
  cases Connections.step_move hs with
  | idle _ _ _ htasks => exact .inl ⟨u, htasks ▸ hu, hwho, hpc⟩
  | upgrade addr connection _ hs' =>
      subst hs'
      rcases slot_append.mp hu with hu | ⟨-, rfl⟩
      · exact .inl ⟨u, hu, hwho, hpc⟩
      · cases hpc
  | goto j t pc ht _ hpcs _ _ htasks =>
      rw [htasks, slot_set ht] at hu
      split at hu
      · rename_i hij
        obtain rfl := Option.some.inj hu
        refine .inl ⟨t, hij ▸ ht, hwho, ?_⟩
        rcases hpcs with ⟨rfl, -⟩ | ⟨-, hreceive⟩ | ⟨rfl, -⟩
        · cases hpc
        · rw [hreceive]
          rfl
        · cases hpc
      · exact .inl ⟨u, hu, hwho, hpc⟩
  | register j t ht _ _ _ hnew _ _ htasks =>
      rw [htasks, slot_set ht] at hu
      split at hu
      · rename_i hij
        obtain rfl := Option.some.inj hu
        exact .inr ⟨t, hij ▸ hnew, hwho⟩
      · exact .inl ⟨u, hu, hwho, hpc⟩
  | remove j addr _ _ _ htasks =>
      rcases htasks with htasks | ⟨t, ht, -, -, htasks⟩
      · exact .inl ⟨u, htasks ▸ hu, hwho, hpc⟩
      · rw [htasks, slot_set ht] at hu
        split at hu
        · obtain rfl := Option.some.inj hu
          cases hpc
        · exact .inl ⟨u, hu, hwho, hpc⟩

/-- Who is active before a step stays so, unless the step takes the address out. -/
lemma Connections.active_after (hs : s.step host act = some s') (h : s.Active i who) :
    s'.Active i who ∨ s'.sockets = s.sockets.erase who := by
  obtain ⟨u, hu, hwho, hpc⟩ := h
  cases Connections.step_move hs with
  | idle _ _ _ htasks => exact .inl ⟨u, htasks ▸ hu, hwho, hpc⟩
  | upgrade addr connection _ hs' =>
      subst hs'
      exact .inl ⟨u, slot_append.mpr (.inl hu), hwho, hpc⟩
  | goto j t pc ht _ hpcs _ _ htasks =>
      refine .inl ?_
      by_cases hij : j = i
      · subst hij
        obtain rfl : t = u := Option.some.inj (ht.symm.trans hu)
        refine ⟨t.goto pc, by rw [htasks, slot_set ht, if_pos rfl], hwho, ?_⟩
        rcases hpcs with ⟨-, hping | hregister⟩ | ⟨rfl, -⟩ | ⟨-, hping⟩
        · rw [hping] at hpc
          cases hpc
        · rw [hregister] at hpc
          cases hpc
        · rfl
        · rw [hping] at hpc
          cases hpc
      · exact ⟨u, by rw [htasks, slot_set ht, if_neg hij]; exact hu, hwho, hpc⟩
  | register j t ht hregister _ _ _ _ _ htasks =>
      refine .inl ⟨u, ?_, hwho, hpc⟩
      rw [htasks, slot_set ht, if_neg]
      · exact hu
      · rintro rfl
        obtain rfl : t = u := Option.some.inj (ht.symm.trans hu)
        rw [hregister] at hpc
        cases hpc
  | remove j addr _ hsockets _ htasks =>
      rcases htasks with htasks | ⟨t, ht, haddr, -, htasks⟩
      · exact .inl ⟨u, htasks ▸ hu, hwho, hpc⟩
      · by_cases hij : j = i
        · subst hij
          obtain rfl : t = u := Option.some.inj (ht.symm.trans hu)
          exact .inr (by rw [hsockets, ← haddr, hwho])
        · exact .inl ⟨u, by rw [htasks, slot_set ht, if_neg hij]; exact hu, hwho, hpc⟩

/-- A receive loop that has ended does not start again. -/
lemma Connections.ended_after (hs : s.step host act = some s') (h : s.Ended i) : s'.Ended i := by
  obtain ⟨u, hu, hpc⟩ := h
  -- the slot is another one, or its task moves on to its end
  have hset : ∀ {j t pc}, s.tasks[j]? = some t →
      (t.pc = .remove ∨ t.pc = .returned → pc = .returned) →
      s'.tasks = s.tasks.set j (t.goto pc) → s'.Ended i := by
    intro j t pc ht hend htasks
    by_cases hij : j = i
    · subst hij
      obtain rfl : t = u := Option.some.inj (ht.symm.trans hu)
      exact ⟨t.goto pc, by rw [htasks, slot_set ht, if_pos rfl]; rfl, .inr (hend hpc)⟩
    · exact ⟨u, by rw [htasks, slot_set ht, if_neg hij]; exact hu, hpc⟩
  cases Connections.step_move hs with
  | idle _ _ _ htasks => exact ⟨u, htasks ▸ hu, hpc⟩
  | upgrade addr connection _ hs' =>
      subst hs'
      exact ⟨u, slot_append.mpr (.inl hu), hpc⟩
  | goto j t pc ht _ hpcs _ _ htasks =>
      refine hset ht (fun hend => ?_) htasks
      rcases hpcs with ⟨rfl, -⟩ | ⟨-, hreceive⟩ | ⟨-, hping⟩
      · rfl
      · simp [hreceive] at hend
      · simp [hping] at hend
  | register j t ht hregister _ _ _ _ _ htasks =>
      exact hset ht (fun hend => by simp [hregister] at hend) htasks
  | remove j addr _ _ _ htasks =>
      rcases htasks with htasks | ⟨t, ht, -, -, htasks⟩
      · exact ⟨u, htasks ▸ hu, hpc⟩
      · exact hset ht (fun _ => rfl) htasks

/-- An entry found after a step was there before, or has just been made. -/
lemma Connections.entry_before (hs : s.step host act = some s') {entry : SocketEntry}
    (h : s'.sockets.lookup who = some entry) :
    s.sockets.lookup who = some entry ∨ s'.Active entry.socket who := by
  cases Connections.step_move hs with
  | idle _ hsockets _ _ | goto _ _ _ _ _ _ hsockets _ _ => exact .inl (hsockets ▸ h)
  | upgrade addr connection _ hs' => exact .inl (hs' ▸ h :)
  | register j t ht _ _ _ _ hsockets _ htasks =>
      rw [hsockets] at h
      rcases HashMap.lookup_of_insert h with ⟨rfl, rfl⟩ | h
      · exact .inr ⟨t.goto .receive, by rw [htasks, slot_set ht, if_pos rfl], rfl, rfl⟩
      · exact .inl h
  | remove j addr _ hsockets _ _ => exact .inl (HashMap.lookup_of_erase (hsockets ▸ h))

end Step

/-! ## Traces after a step -/

/-- The four places a trace can be in. -/
inductive Connections.Trace (s : Connections) (who : SocketAddr) (i : ℕ) : Prop
  | sent (msg : ClientMessage) (hmem : (i, msg) ∈ s.channel) (hpong : msg.pongOf = some who)
  | kept (pong : Pong) (hpong : s.pongs.lookup who = some pong) (hsender : pong.sender = i)
  | copied (pong : Pong) (hmem : ⟨who, pong⟩ ∈ s.pongTracking.pongs) (hsender : pong.sender = i)
  | pinged (handle : PingHandle) (hmem : handle ∈ s.pingCheck.handles) (hwho : handle.who = who)
      (hsocket : handle.entry.socket = i)

lemma Connections.mem_traces {s : Connections} {who : SocketAddr} {i : ℕ} :
    (who, i) ∈ s.traces ↔ s.Trace who i := by
  simp only [Connections.traces, List.mem_append, List.mem_filterMap, List.mem_map, Prod.exists,
    Sigma.exists, Option.map_eq_some_iff, Prod.mk.injEq]
  refine ⟨?_, ?_⟩
  · rintro (((⟨sender, msg, hmem, addr, haddr, rfl, rfl⟩ | ⟨addr, pong, hmem, rfl, rfl⟩) |
      ⟨addr, pong, hmem, rfl, rfl⟩) | ⟨handle, hmem, hwho, hsocket⟩)
    · exact .sent msg hmem haddr
    · exact .kept pong (AList.mem_lookup_iff.mpr hmem) rfl
    · exact .copied pong hmem rfl
    · exact .pinged handle hmem hwho hsocket
  · rintro (⟨msg, hmem, hpong⟩ | ⟨pong, hpong, hsender⟩ | ⟨pong, hmem, hsender⟩ |
      ⟨handle, hmem, hwho, hsocket⟩)
    · exact .inl (.inl (.inl ⟨i, msg, hmem, who, hpong, rfl, rfl⟩))
    · exact .inl (.inl (.inr ⟨who, pong, AList.mem_lookup_iff.mp hpong, rfl, hsender⟩))
    · exact .inl (.inr ⟨who, pong, hmem, rfl, hsender⟩)
    · exact .inr ⟨handle, hmem, hwho, hsocket⟩

/-- What a task sends on is in the name of its address, and its receive loop runs. -/
lemma SocketTask.step_send {sigs : Signatures} {sockets : Sockets} {input : SocketInput}
    {t t' : SocketTask} {msg : ClientMessage}
    (h : t.step sigs sockets input = some (t', .send msg)) :
    t.pc = .receive ∧ msg.addr = t.who := by
  revert h
  fun_cases SocketTask.step sigs sockets input t <;> intro h <;>
    simp only [Option.some.injEq, Prod.mk.injEq, reduceCtorEq, and_false,
      SocketEffect.send.injEq] at h
  case case6 hpc _ _ hm =>
    obtain ⟨-, rfl⟩ := h
    exact ⟨hpc, processMessage_addr hm⟩

/-- The pings under way are for entries of the copy. -/
lemma PingCheckPc.step_handles {sockets : Sockets} {clock : ℕ} {order : SocketList}
    {pc pc' : PingCheckPc} {e : SocketEffect} (h : pc.step sockets clock order = some (pc', e))
    {handle : PingHandle} (hmem : handle ∈ pc'.handles) :
    handle ∈ pc.handles ∨ sockets.lookup handle.who = some handle.entry := by
  revert h
  fun_cases PingCheckPc.step sockets clock order pc <;> intro h <;>
    simp only [Option.some.injEq, Prod.mk.injEq, reduceCtorEq] at h <;> obtain ⟨rfl, -⟩ := h
  case case1 horder =>
    obtain ⟨x, hx, rfl⟩ := List.mem_map.mp hmem
    exact .inr (AList.mem_lookup_iff.mpr (horder.2.subset hx))
  all_goals
    first
    | exact .inl hmem
    | exact .inl (List.mem_cons_of_mem _ hmem)

/-- A ping that comes to its end stays for the connection it was for. -/
lemma PingCheckPc.mem_finish {k : ℕ} {outcome : PingOutcome} {pc : PingCheckPc}
    {handle : PingHandle} (hmem : handle ∈ (pc.finish k outcome).handles) :
    ∃ old ∈ pc.handles, old.who = handle.who ∧ old.entry = handle.entry := by
  have hmodify : ∀ handles : List PingHandle,
      handle ∈ handles.modify k (PingHandle.finish outcome) →
        ∃ old ∈ handles, old.who = handle.who ∧ old.entry = handle.entry := by
    intro handles hmem
    obtain ⟨j, hj⟩ := List.mem_iff_getElem?.mp hmem
    rw [List.getElem?_modify] at hj
    obtain ⟨old, hold, rfl⟩ := Option.map_eq_some_iff.mp hj
    refine ⟨old, List.mem_of_getElem? hold, ?_⟩
    split <;> exact ⟨rfl, rfl⟩
  cases pc with
  | sleep due => cases hmem
  | await handles => exact hmodify handles hmem
  | remove first handles =>
      rcases List.mem_cons.mp hmem with rfl | hmem
      · exact ⟨handle, List.mem_cons_self, rfl, rfl⟩
      · obtain ⟨old, hold, hsame⟩ := hmodify handles hmem
        exact ⟨old, List.mem_cons_of_mem _ hold, hsame⟩

/-- The pongs to go through are those of the copy. -/
lemma PongTrackingPc.step_pongs {pongs : Pongs} {clock : ℕ} {order : PongList}
    {pc pc' : PongTrackingPc} {e : PongEffect} (h : pc.step pongs clock order = some (pc', e))
    {who : SocketAddr} {pong : Pong} (hmem : ⟨who, pong⟩ ∈ pc'.pongs) :
    ⟨who, pong⟩ ∈ pc.pongs ∨ pongs.lookup who = some pong := by
  revert h
  fun_cases PongTrackingPc.step pongs clock order pc <;> intro h <;>
    simp only [Option.some.injEq, Prod.mk.injEq, reduceCtorEq] at h <;> obtain ⟨rfl, -⟩ := h
  case case1 horder => exact .inr (AList.mem_lookup_iff.mpr (horder.2.subset hmem))
  all_goals
    first
    | exact .inl hmem
    | exact .inl (List.mem_cons_of_mem _ hmem)

section Step

variable {host : Host} {s s' : Connections} {act : ConnectionAction} {i : ℕ} {who : SocketAddr}

/-- Where the four places are the same, the traces are. -/
lemma Connections.Trace.same (h : s'.Trace who i) (hchannel : s'.channel = s.channel)
    (hpongs : s'.pongs = s.pongs) (htracking : s'.pongTracking = s.pongTracking)
    (hping : s'.pingCheck = s.pingCheck) : s.Trace who i := by
  cases h with
  | sent msg hmem hpong => exact .sent msg (hchannel ▸ hmem) hpong
  | kept pong hpong hsender => exact .kept pong (hpongs ▸ hpong) hsender
  | copied pong hmem hsender => exact .copied pong (htracking ▸ hmem) hsender
  | pinged handle hmem hwho hsocket => exact .pinged handle (hping ▸ hmem) hwho hsocket

/-- A trace was there before the step, or has just been left by a connection that is entered. -/
lemma Connections.trace_before (hs : s.step host act = some s') (h : s'.Trace who i) :
    s.Trace who i ∨ s.Active i who ∨
      ∃ entry, s.sockets.lookup who = some entry ∧ entry.socket = i := by
  cases act with
  | tick ms =>
      obtain rfl := Option.some.inj hs
      exact .inl (h.same rfl rfl rfl rfl)
  | request addr req now =>
      simp only [Connections.step] at hs
      split at hs
      · cases hs
      · split at hs <;> obtain rfl := Option.some.inj hs <;>
          exact .inl (h.same rfl rfl rfl rfl)
  | admitted addr connection =>
      simp only [Connections.step] at hs
      split at hs
      · obtain rfl := Option.some.inj hs
        exact .inl (h.same rfl rfl rfl rfl)
      · cases hs
  | socket j input =>
      obtain ⟨t, ht, hs⟩ := Option.bind_eq_some_iff.mp hs
      obtain ⟨⟨t', e⟩, hstep, rfl⟩ := Option.map_eq_some_iff.mp hs
      cases e with
      | send msg =>
          cases h with
          | sent m hm hpong =>
              rcases List.mem_append.mp hm with hm | hm
              · exact .inl (.sent m hm hpong)
              · -- the pong is the message just sent on
                simp only [List.mem_singleton, Prod.mk.injEq] at hm
                obtain ⟨rfl, rfl⟩ := hm
                obtain ⟨hpc, haddr⟩ := SocketTask.step_send hstep
                refine .inr (.inl ⟨t, ht, ?_, by rw [hpc]; rfl⟩)
                cases m <;>
                  simp only [ClientMessage.pongOf, reduceCtorEq, Option.some.injEq] at hpong
                exact haddr.symm.trans hpong
          | kept pong hpong hsender => exact .inl (.kept pong hpong hsender)
          | copied pong hmem hsender => exact .inl (.copied pong hmem hsender)
          | pinged handle hmem hwho hsocket => exact .inl (.pinged handle hmem hwho hsocket)
      | none | insert _ _ | remove _ => exact .inl (h.same rfl rfl rfl rfl)
  | clientMessage =>
      simp only [Connections.step] at hs
      split at hs
      · cases hs
      · rename_i msg channel hch
        obtain rfl := Option.some.inj hs
        obtain ⟨sender, msg⟩ := msg
        have hmem : ∀ x ∈ channel, x ∈ s.channel := fun x hx => hch ▸ List.mem_cons_of_mem _ hx
        cases h with
        | sent m hm hpong =>
            refine .inl (.sent m (hmem _ ?_) hpong)
            cases msg <;> exact hm
        | kept pong hpong hsender =>
            cases msg with
            | pong addr =>
                rcases HashMap.lookup_of_insert hpong with ⟨rfl, rfl⟩ | hpong
                · refine .inl (.sent (.pong who) ?_ rfl)
                  rw [hch]
                  exact hsender ▸ List.mem_cons_self
                · exact .inl (.kept pong hpong hsender)
            | ready _ | mining _ | bestSolution _ _ _ => exact .inl (.kept pong hpong hsender)
        | copied pong hm hsender =>
            refine .inl (.copied pong ?_ hsender)
            cases msg <;> exact hm
        | pinged handle hm hwho hsocket =>
            refine .inl (.pinged handle ?_ hwho hsocket)
            cases msg <;> exact hm
  | pingCheck order =>
      obtain ⟨⟨pc, e⟩, hstep, rfl⟩ := Option.map_eq_some_iff.mp hs
      have h' : ({ s with pingCheck := pc } : Connections).Trace who i := by
        cases e <;> exact h.same rfl rfl rfl rfl
      cases h' with
      | sent msg hmem hpong => exact .inl (.sent msg hmem hpong)
      | kept pong hpong hsender => exact .inl (.kept pong hpong hsender)
      | copied pong hmem hsender => exact .inl (.copied pong hmem hsender)
      | pinged handle hmem hwho hsocket =>
          rcases PingCheckPc.step_handles hstep hmem with hmem | hentry
          · exact .inl (.pinged handle hmem hwho hsocket)
          · exact .inr (.inr ⟨handle.entry, hwho ▸ hentry, hsocket⟩)
  | pingDone k outcome =>
      obtain rfl := Option.some.inj hs
      cases h with
      | sent msg hmem hpong => exact .inl (.sent msg hmem hpong)
      | kept pong hpong hsender => exact .inl (.kept pong hpong hsender)
      | copied pong hmem hsender => exact .inl (.copied pong hmem hsender)
      | pinged handle hmem hwho hsocket =>
          obtain ⟨old, hold, hsame, hentry⟩ := PingCheckPc.mem_finish hmem
          exact .inl (.pinged old hold (hsame.trans hwho) (by rw [hentry, hsocket]))
  | pongTracking order =>
      obtain ⟨⟨pc, e⟩, hstep, rfl⟩ := Option.map_eq_some_iff.mp hs
      cases h with
      | sent msg hmem hpong =>
          refine .inl (.sent msg ?_ hpong)
          cases e <;> exact hmem
      | kept pong hpong hsender =>
          refine .inl (.kept pong ?_ hsender)
          cases e with
          | removePong addr => exact HashMap.lookup_of_erase hpong
          | none | removeSocket _ => exact hpong
      | copied pong hmem hsender =>
          have hmem' : ⟨who, pong⟩ ∈ pc.pongs := by cases e <;> exact hmem
          rcases PongTrackingPc.step_pongs hstep hmem' with hmem | hpong
          · exact .inl (.copied pong hmem hsender)
          · exact .inl (.kept pong hpong hsender)
      | pinged handle hmem hwho hsocket =>
          refine .inl (.pinged handle ?_ hwho hsocket)
          cases e <;> exact hmem

end Step

/-! ## Removals decided on -/

/-- The websocket a check has found fault with and is about to remove the address for. -/
def PingCheckPc.decided : PingCheckPc → Option ℕ
  | .remove handle _ => some handle.entry.socket
  | _ => none

/-- The same for the pong tracker. -/
def PongTrackingPc.decided : PongTrackingPc → Option ℕ
  | .removeSocket _ pong _ => some pong.sender
  | _ => none

/-- The websockets an address is about to be removed for by a check. -/
def Connections.decided (s : Connections) : List ℕ :=
  s.pingCheck.decided.toList ++ s.pongTracking.decided.toList

lemma PingCheckPc.step_decided {sockets : Sockets} {clock : ℕ} {order : SocketList}
    {pc pc' : PingCheckPc} {e : SocketEffect} (h : pc.step sockets clock order = some (pc', e))
    {i : ℕ} (hi : pc'.decided = some i) :
    ∃ handle handles, pc = .await (handle :: handles) ∧ handle.outcome = some .failed ∧
      handle.entry.socket = i := by
  revert h
  fun_cases PingCheckPc.step sockets clock order pc <;> intro h <;>
    simp only [Option.some.injEq, Prod.mk.injEq, reduceCtorEq] at h <;> obtain ⟨rfl, -⟩ := h
  case case4 houtcome => exact ⟨_, _, rfl, houtcome, Option.some.inj hi⟩
  all_goals cases hi

lemma PongTrackingPc.step_decided {pongs : Pongs} {clock : ℕ} {order : PongList}
    {pc pc' : PongTrackingPc} {e : PongEffect} (h : pc.step pongs clock order = some (pc', e))
    {i : ℕ} (hi : pc'.decided = some i) :
    ∃ who pong rest, pc = .check (⟨who, pong⟩ :: rest) ∧ pong.overdue clock = true ∧
      pong.sender = i := by
  revert h
  fun_cases PongTrackingPc.step pongs clock order pc <;> intro h <;>
    simp only [Option.some.injEq, Prod.mk.injEq, reduceCtorEq] at h <;> obtain ⟨rfl, -⟩ := h
  case case4 hoverdue => exact ⟨_, _, _, rfl, hoverdue, Option.some.inj hi⟩
  all_goals cases hi

lemma Connections.mem_decided {s : Connections} {i : ℕ} :
    i ∈ s.decided ↔ s.pingCheck.decided = some i ∨ s.pongTracking.decided = some i := by
  simp [Connections.decided]

/-- A removal is decided on where a check finds fault. -/
lemma Connections.decided_before {host : Host} {s s' : Connections} {act : ConnectionAction}
    {i : ℕ} (hs : s.step host act = some s') (h : i ∈ s'.decided) :
    i ∈ s.decided ∨ s.evicting act = some i := by
  rw [mem_decided] at h ⊢
  cases act with
  | tick ms =>
      obtain rfl := Option.some.inj hs
      exact .inl h
  | request addr req now =>
      simp only [Connections.step] at hs
      split at hs
      · cases hs
      · split at hs <;> obtain rfl := Option.some.inj hs <;> exact .inl h
  | admitted addr connection =>
      simp only [Connections.step] at hs
      split at hs
      · obtain rfl := Option.some.inj hs
        exact .inl h
      · cases hs
  | socket j input =>
      obtain ⟨t, ht, hs⟩ := Option.bind_eq_some_iff.mp hs
      obtain ⟨⟨t', e⟩, hstep, rfl⟩ := Option.map_eq_some_iff.mp hs
      cases e <;> exact .inl h
  | clientMessage =>
      simp only [Connections.step] at hs
      split at hs
      · cases hs
      · rename_i msg channel hch
        obtain rfl := Option.some.inj hs
        obtain ⟨sender, msg⟩ := msg
        cases msg <;> exact .inl h
  | pingCheck order =>
      obtain ⟨⟨pc, e⟩, hstep, rfl⟩ := Option.map_eq_some_iff.mp hs
      have h' : pc.decided = some i ∨ s.pongTracking.decided = some i := by cases e <;> exact h
      rcases h' with hping | hpong
      · obtain ⟨handle, handles, hpc, houtcome, rfl⟩ := PingCheckPc.step_decided hstep hping
        exact .inr (by simp [Connections.evicting, hpc, houtcome])
      · exact .inl (.inr hpong)
  | pingDone k outcome =>
      obtain rfl := Option.some.inj hs
      refine .inl (h.imp_left fun hping => ?_)
      rw [← hping]
      cases s.pingCheck <;> rfl
  | pongTracking order =>
      obtain ⟨⟨pc, e⟩, hstep, rfl⟩ := Option.map_eq_some_iff.mp hs
      have h' : s.pingCheck.decided = some i ∨ pc.decided = some i := by cases e <;> exact h
      rcases h' with hping | hpong
      · exact .inl (.inl hping)
      · obtain ⟨who, pong, rest, hpc, hoverdue, rfl⟩ := PongTrackingPc.step_decided hstep hpong
        exact .inr (by simp [Connections.evicting, hpc, hoverdue])

/-! ## The invariant -/

/-- Who owns an address, and who may yet take it out: under an address one connection is active, and
entries and traces are its own; what is decided to be removed has ended. -/
structure Connections.Orderly (s : Connections) : Prop where
  unique : ∀ i j who, s.Active i who → s.Active j who → i = j
  entry : ∀ who entry, s.sockets.lookup who = some entry → s.Active entry.socket who
  traced : ∀ who i j, s.Trace who i → s.Active j who → j = i
  decided : ∀ i ∈ s.decided, s.Ended i
  owned : s.Owned

/-- A removal is for a connection that has ended, and no other is active under its address. -/
lemma Connections.Orderly.removing {s : Connections} (hi : s.Orderly) {act : ConnectionAction}
    {i : ℕ} {who : SocketAddr} (h : s.removing act = some (i, who)) :
    s.Ended i ∧ ∀ j, s.Active j who → j = i := by
  cases act with
  | socket k input =>
      simp only [Connections.removing] at h
      split at h
      · rename_i ht
        simp only [Option.some.injEq, Prod.mk.injEq] at h
        obtain ⟨rfl, rfl⟩ := h
        exact ⟨⟨_, ht, .inl rfl⟩, fun j hj => hi.unique j k _ hj ⟨_, ht, rfl, rfl⟩⟩
      · cases h
  | pingCheck order =>
      simp only [Connections.removing] at h
      split at h
      · rename_i handle handles hpc
        simp only [Option.some.injEq, Prod.mk.injEq] at h
        obtain ⟨rfl, rfl⟩ := h
        refine ⟨hi.decided _ (mem_decided.mpr (.inl (by rw [hpc]; rfl))), fun j hj => ?_⟩
        exact hi.traced _ _ j (.pinged handle (by rw [hpc]; exact List.mem_cons_self) rfl rfl) hj
      · cases h
  | pongTracking order =>
      simp only [Connections.removing] at h
      split at h
      · rename_i addr pong rest hpc
        simp only [Option.some.injEq, Prod.mk.injEq] at h
        obtain ⟨rfl, rfl⟩ := h
        refine ⟨hi.decided _ (mem_decided.mpr (.inr (by rw [hpc]; rfl))), fun j hj => ?_⟩
        exact hi.traced _ _ j (.copied pong (by rw [hpc]; exact List.mem_cons_self) rfl) hj
      · cases h
  | _ => cases h

/-- A receive loop that runs after a step of another kind than its own registration ran before. -/
lemma Connections.receiving_before {s s' : Connections} {i : ℕ} {t : SocketTask} {pc : SocketPc}
    (ht : s.tasks[i]? = some t) (hpc : pc ≠ .receive)
    (htasks : s'.tasks = s.tasks.set i (t.goto pc)) {j : ℕ} {u : SocketTask}
    (hu : s'.tasks[j]? = some u) (hrun : u.pc = .receive) : s.tasks[j]? = some u := by
  rw [htasks, slot_set ht] at hu
  split at hu
  · obtain rfl := Option.some.inj hu
    exact absurd hrun hpc
  · exact hu

/-- What one step does to ownership, if what is removed has ended and nothing else is active under
its address. -/
lemma Connections.Owned.step {host : Host} {s s' : Connections} {act : ConnectionAction}
    (hi : s.Owned) (hrem : ∀ {i who}, s.removing act = some (i, who) →
      s.Ended i ∧ ∀ j, s.Active j who → j = i)
    (hs : s.step host act = some s') : s'.Owned := by
  intro j u hu hrun
  cases Connections.step_move hs with
  | idle _ hsockets _ htasks =>
      rw [hsockets]
      exact hi j u (htasks ▸ hu) hrun
  | upgrade who connection _ hs' =>
      subst hs'
      rcases slot_append.mp hu with hu | ⟨-, rfl⟩
      · exact hi j u hu hrun
      · cases hrun
  | goto i t pc ht _ hpc hsockets _ htasks =>
      have hne : pc ≠ .receive := by rcases hpc with ⟨rfl, -⟩ | ⟨rfl, -⟩ | ⟨rfl, -⟩ <;> simp
      rw [hsockets]
      exact hi j u (receiving_before ht hne htasks hu hrun) hrun
  | register i t ht _ hfree _ _ hsockets _ htasks =>
      rw [htasks, slot_set ht] at hu
      rw [hsockets]
      split at hu
      · rename_i hij
        obtain rfl := Option.some.inj hu
        exact ⟨_, AList.lookup_insert _, hij, rfl⟩
      · obtain ⟨entry, hentry, hown⟩ := hi j u hu hrun
        -- the address that was free is not that of a running loop
        have hwho : u.who ≠ t.who := by
          intro hwho
          rw [hwho, hfree] at hentry
          cases hentry
        exact ⟨entry, (AList.lookup_insert_ne hwho).trans hentry, hown⟩
  | remove i who hremoving hsockets _ htasks =>
      have hu' : s.tasks[j]? = some u := by
        rcases htasks with htasks | ⟨t, ht, -, -, htasks⟩
        · exact htasks ▸ hu
        · exact receiving_before ht (by simp) htasks hu hrun
      obtain ⟨entry, hentry, hown⟩ := hi j u hu' hrun
      obtain ⟨⟨t, ht, hended⟩, honly⟩ := hrem hremoving
      -- under the address removed, only a loop that has ended is active
      have hwho : u.who ≠ who := by
        intro hwho
        obtain rfl : j = i := honly j ⟨u, hu', hwho, by rw [hrun]; rfl⟩
        obtain rfl : t = u := Option.some.inj ((Option.mem_def.mp ht).symm.trans hu')
        simp [hrun] at hended
      exact ⟨entry, hsockets ▸ (AList.lookup_erase_ne hwho).trans hentry, hown⟩

/-- An empty table, and nothing under way. -/
lemma Connections.orderly_start : Connections.start.Orderly := by
  have hidle : ∀ i who, ¬ Connections.start.Active i who := by
    rintro i who ⟨t, ht, -⟩
    cases ht
  refine ⟨fun i j who h => absurd h (hidle i who), ?_, fun who i j _ h => absurd h (hidle j who),
    ?_, ?_⟩
  · intro who entry h
    cases h
  · exact List.forall_mem_nil _
  · intro i t ht
    cases ht

section Fresh

variable {s : Connections} {act : ConnectionAction} {i j : ℕ} {t : SocketTask}

/-- Nothing is active under the address of a connection about to be entered, and nothing is left
under it. -/
lemma EntersFresh.not_active (hc : EntersFresh s act) (hnew : s.registering act = some (j, t)) :
    ¬ s.Active i t.who := by
  rintro ⟨u, hu, hwho, hpc⟩
  exact (hc (j, t) hnew).2 u (List.mem_of_getElem? hu) hpc hwho

lemma EntersFresh.not_trace (hc : EntersFresh s act) (hnew : s.registering act = some (j, t)) :
    ¬ s.Trace t.who i := by
  intro htrace
  exact (hc (j, t) hnew).1 (t.who, i) (Connections.mem_traces.mpr htrace) rfl

end Fresh

theorem Connections.Orderly.step {host : Host} {s s' : Connections} {notes : List Removal}
    {act : ConnectionAction} (hi : s.Orderly) (hc : TableCondition (s, notes) act)
    (hs : s.step host act = some s') : s'.Orderly where
  unique i j who hi' hj' := by
    rcases Connections.active_before hs hi' with hi' | ⟨t, hnew, rfl⟩ <;>
      rcases Connections.active_before hs hj' with hj' | ⟨u, hnew', hwho⟩
    · exact hi.unique i j who hi' hj'
    · exact absurd (hwho ▸ hi') (hc.1.not_active hnew')
    · exact absurd hj' (hc.1.not_active hnew)
    · exact congrArg Prod.fst (Option.some.inj (hnew.symm.trans hnew'))
  entry who entry h := by
    rcases Connections.entry_before hs h with hold | hnew
    · rcases Connections.active_after hs (hi.entry who entry hold) with hactive | herase
      · exact hactive
      · rw [herase, AList.lookup_erase] at h
        cases h
    · exact hnew
  traced who i j htrace hj' := by
    -- what has just been left is left by a connection active under the address
    have htrace' : s.Trace who i ∨ s.Active i who := by
      rcases Connections.trace_before hs htrace with h | h | ⟨entry, hentry, rfl⟩
      · exact .inl h
      · exact .inr h
      · exact .inr (hi.entry who entry hentry)
    rcases Connections.active_before hs hj' with hj' | ⟨t, hnew, rfl⟩
    · exact htrace'.elim (fun h => hi.traced who i j h hj') fun h => hi.unique j i who hj' h
    · exact htrace'.elim (fun h => absurd h (hc.1.not_trace hnew)) fun h =>
        absurd h (hc.1.not_active hnew)
  decided i h := by
    rcases Connections.decided_before hs h with h | h
    · exact Connections.ended_after hs (hi.decided i h)
    · exact Connections.ended_after hs (hc.2 i h)
  owned := hi.owned.step hi.removing hs

/-- A removal takes the entry of the connection it is for, or none. -/
lemma OwnOnly.note {s : Connections} {notes : List Removal} {act : ConnectionAction}
    (hi : OwnOnly notes) (hs : s.Orderly) : OwnOnly (removals.note s act notes) := by
  simp only [removals]
  split
  · rename_i behalf who hrem
    intro removal hremoval
    rcases List.mem_cons.mp hremoval with rfl | hremoval
    · exact fun entry hentry => (hs.removing hrem).2 entry.socket (hs.entry who entry hentry)
    · exact hi removal hremoval
  · exact hi

/-- **Ownership.**  In every run in which a connection is entered only under an address that nothing
of an earlier one is left of, and the checks find fault with ended connections only, every running
receive loop has its own connection under its address, and no removal takes the entry of another. -/
theorem connectionOwned {host : Host} {x : Connections × List Removal}
    (h : Reach ((connections host).observe removals) TableCondition x) : ConnectionOwned x := by
  have hi : x.1.Orderly ∧ OwnOnly x.2 := by
    refine h.observed_invariant (I := fun s notes => s.Orderly ∧ OwnOnly notes) ?_ ?_
    · intro s h0
      obtain rfl : s = .start := h0
      exact ⟨Connections.orderly_start, List.forall_mem_nil _⟩
    · intro s notes act s' _ hi hc hs
      exact ⟨hi.1.step hc hs, hi.2.note hi.1⟩
  exact ⟨hi.1.owned, hi.2⟩

/-! ## Runs -/

/-- A connection that comes after another has departed meets the condition of `connectionOwned` when
it comes from another address. -/
theorem connectionOwned_departed :
    ∃ x, Reach ((connections Replay.hostWithout).observe removals) TableCondition x ∧
      (x.1.Receives 1 ∧ x.2.length = 2) ∧ ConnectionOwned x := by
  obtain ⟨x, hr, hx⟩ := exists_of_connectionsObserved Replay.hostWithout removals TableCondition
    (Replay.departed ++ Replay.enter 1 8 ++ Replay.trackPong 7 ⟨10000, 0⟩)
    (fun x => decide (x.1.Receives 1 ∧ x.2.length = 2)) (by decide +kernel)
  exact ⟨x, hr, by simpa using hx, connectionOwned hr⟩

/-- When it comes from the same address, the pong of the connection that has departed takes away
its entry. -/
theorem not_connectionOwned :
    ¬ ∀ host x, Reach ((connections host).observe removals) Any x → ConnectionOwned x := by
  intro h
  obtain ⟨x, hr, hx⟩ := exists_of_connectionsObserved Replay.hostWithout removals Any
    (Replay.departed ++ Replay.enter 1 7 ++ Replay.trackPong 7 ⟨10000, 0⟩)
    (fun x => decide (x.1.sockets.lookup 7 = none) &&
      (x.1.tasks[1]?).any fun t : SocketTask => t.who = 7 && t.pc = .receive) (by decide +kernel)
  simp only [Bool.and_eq_true, decide_eq_true_eq, Option.any_eq_true] at hx
  obtain ⟨hnone, t, ht, hwho, hpc⟩ := hx
  obtain ⟨entry, hentry, -⟩ := (h _ x hr).1 1 t ht hpc
  rw [hwho, hnone] at hentry
  cases hentry

end OrePool
