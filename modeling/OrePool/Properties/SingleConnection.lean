import OrePool.ConnectionReplay

/-!
# One connection for each wallet

Without a database a wallet is not to be connected twice: both endpoints look for its key among the
sockets and turn it down if it is there.  `OnePerKey` says that no key has two entries.

The look comes in the handshake and the entry is made by `handle_socket`, after the upgrade and a
ping, and that looks at the address alone.  Two handshakes of one wallet can both be through before
either is entered (`not_onePerKey`).  As long as no connection of the key is entered between a
handshake and its own entry and stays, all is well (`onePerKey`).
-/

namespace OrePool

open Interleaving

/-! ## The property -/

/-- **One connection.**  No key is connected under two addresses. -/
def OnePerKey (s : Connections) : Prop :=
  ∀ addr addr' entry entry', s.sockets.lookup addr = some entry →
    s.sockets.lookup addr' = some entry' →
    entry.connection.pubkey = entry'.connection.pubkey → addr = addr'

/-- When a connection is entered, every other of its key was entered before its handshake. -/
def EntersAlone (s : Connections) (act : ConnectionAction) : Prop :=
  ∀ entering ∈ s.registering act, ∀ x ∈ s.sockets.entries,
    x.2.connection.pubkey = entering.2.connection.pubkey → x.2.registration < entering.2.checked

instance : DecidableRel EntersAlone := fun s act =>
  inferInstanceAs (Decidable (∀ entering ∈ s.registering act, ∀ x ∈ s.sockets.entries,
    x.2.connection.pubkey = entering.2.connection.pubkey → x.2.registration < entering.2.checked))

/-! ## The handshake's look -/

/-- The connection is not entered yet. -/
def SocketPc.pending : SocketPc → Bool
  | .ping | .register => true
  | _ => false

/-- What a handshake has seen: of the connections of its key only those entered since are there. -/
structure Connections.Seen (s : Connections) : Prop where
  counted : ∀ t ∈ s.tasks, t.checked ≤ s.registrations
  later : ∀ t ∈ s.tasks, t.pc.pending = true → ∀ addr entry, s.sockets.lookup addr = some entry →
    entry.connection.pubkey = t.connection.pubkey → t.checked ≤ entry.registration

lemma Connections.not_mem_connected {s : Connections} {pubkey : Pubkey}
    (h : pubkey ∉ s.connected) {addr : SocketAddr} {entry : SocketEntry}
    (hentry : s.sockets.lookup addr = some entry) : entry.connection.pubkey ≠ pubkey := by
  rintro rfl
  exact h (List.mem_map_of_mem (f := fun x : Sigma fun _ : SocketAddr => SocketEntry =>
    x.2.connection.pubkey) (AList.mem_lookup_iff.mp hentry))

/-- Tasks that have moved on are no reason to look again. -/
lemma Connections.Seen.mono {s s' : Connections} (hi : s.Seen)
    (hsockets : ∀ addr entry, s'.sockets.lookup addr = some entry →
      s.sockets.lookup addr = some entry)
    (hreg : s'.registrations = s.registrations)
    (htasks : ∀ t ∈ s'.tasks, ∃ u ∈ s.tasks, t.checked = u.checked ∧
      t.connection = u.connection ∧ (t.pc.pending = true → u.pc.pending = true)) : s'.Seen where
  counted t ht := by
    obtain ⟨u, hu, hchecked, -, -⟩ := htasks t ht
    rw [hchecked, hreg]
    exact hi.counted u hu
  later t ht hpc addr entry hentry hkey := by
    obtain ⟨u, hu, hchecked, hconn, hpending⟩ := htasks t ht
    rw [hchecked]
    exact hi.later u hu (hpending hpc) addr entry (hsockets addr entry hentry) (hconn ▸ hkey)

/-- The tasks after one of them has moved to a position that is pending only where it was. -/
lemma Connections.tasks_goto {s s' : Connections} {i : ℕ} {t : SocketTask} {pc : SocketPc}
    (ht : s.tasks[i]? = some t) (hpc : pc.pending = true → t.pc.pending = true)
    (htasks : s'.tasks = s.tasks.set i (t.goto pc)) : ∀ u ∈ s'.tasks, ∃ v ∈ s.tasks,
      u.checked = v.checked ∧ u.connection = v.connection ∧
        (u.pc.pending = true → v.pc.pending = true) := by
  intro u hu
  rw [htasks] at hu
  rcases List.mem_or_eq_of_mem_set hu with hu | rfl
  · exact ⟨u, hu, rfl, rfl, id⟩
  · exact ⟨t, List.mem_of_getElem? ht, rfl, rfl, hpc⟩

theorem Connections.Seen.step {host : Host} (hdb : host.poweredByDbms ≠ .sqlite)
    {s s' : Connections} {act : ConnectionAction} (hi : s.Seen)
    (hs : s.step host act = some s') : s'.Seen := by
  cases Connections.step_move hs with
  | idle _ hsockets hreg htasks =>
      refine hi.mono (fun addr entry h => hsockets ▸ h) hreg ?_
      intro t ht
      exact ⟨t, htasks ▸ ht, rfl, rfl, id⟩
  | upgrade who connection hwho hs' =>
      subst hs'
      obtain ⟨-, hfree, -⟩ := hwho.resolve_left fun h => hdb h.2
      refine ⟨?_, ?_⟩
      · intro t ht
        rcases List.mem_append.mp ht with ht | ht
        · exact hi.counted t ht
        · obtain rfl := List.mem_singleton.mp ht
          exact Nat.le_refl _
      · intro t ht hpc addr entry hentry hkey
        rcases List.mem_append.mp ht with ht | ht
        · exact hi.later t ht hpc addr entry hentry hkey
        · obtain rfl := List.mem_singleton.mp ht
          exact absurd hkey (not_mem_connected hfree hentry)
  | goto i t pc ht _ hpc hsockets hreg htasks =>
      refine hi.mono (fun addr entry h => hsockets ▸ h) hreg (tasks_goto ht ?_ htasks)
      rcases hpc with ⟨rfl, -⟩ | ⟨rfl, -⟩ | ⟨rfl, hping⟩
      · simp [SocketPc.pending]
      · simp [SocketPc.pending]
      · simp [SocketPc.pending, hping]
  | register i t ht _ _ _ _ hsockets hreg htasks =>
      have hpending : SocketPc.receive.pending = true → t.pc.pending = true := nofun
      have htasks' := tasks_goto ht hpending htasks
      refine ⟨?_, ?_⟩
      · intro u hu
        obtain ⟨v, hv, hchecked, -, -⟩ := htasks' u hu
        rw [hchecked, hreg]
        exact Nat.le_succ_of_le (hi.counted v hv)
      · intro u hu hpc addr entry hentry hkey
        obtain ⟨v, hv, hchecked, hconn, hpending⟩ := htasks' u hu
        rw [hchecked]
        rw [hsockets] at hentry
        rcases HashMap.lookup_of_insert hentry with ⟨-, rfl⟩ | hentry
        · exact hi.counted v hv
        · exact hi.later v hv (hpending hpc) addr entry hentry (hconn ▸ hkey)
  | remove i who _ hsockets hreg htasks =>
      refine hi.mono (fun addr entry h => HashMap.lookup_of_erase (hsockets ▸ h)) hreg ?_
      rcases htasks with htasks | ⟨t, ht, -, -, htasks⟩
      · intro t ht
        exact ⟨t, htasks ▸ ht, rfl, rfl, id⟩
      · exact tasks_goto ht (by simp [SocketPc.pending]) htasks

theorem seen {host : Host} (hdb : host.poweredByDbms ≠ .sqlite)
    {C : Connections → ConnectionAction → Prop} {s : Connections}
    (h : Reach (connections host) C s) : s.Seen := by
  refine h.invariant ?_ fun _ _ _ _ hi _ hs => hi.step hdb hs
  intro s h0
  obtain rfl : s = .start := h0
  exact ⟨fun t ht => absurd ht List.not_mem_nil, fun t ht => absurd ht List.not_mem_nil⟩

/-! ## The entry -/

/-- A smaller map has no more entries of a key. -/
lemma OnePerKey.mono {s s' : Connections} (hi : OnePerKey s)
    (hsockets : ∀ addr entry, s'.sockets.lookup addr = some entry →
      s.sockets.lookup addr = some entry) : OnePerKey s' :=
  fun addr addr' entry entry' h h' => hi addr addr' entry entry' (hsockets _ _ h) (hsockets _ _ h')

theorem OnePerKey.step {host : Host} {s s' : Connections} {act : ConnectionAction}
    (hi : OnePerKey s) (hseen : s.Seen) (hc : EntersAlone s act)
    (hs : s.step host act = some s') : OnePerKey s' := by
  cases Connections.step_move hs with
  | idle _ hsockets _ _ | goto _ _ _ _ _ _ hsockets _ _ =>
      exact hi.mono fun addr entry h => hsockets ▸ h
  | upgrade who connection _ hs' => exact hi.mono fun addr entry h => (hs' ▸ h :)
  | remove i who _ hsockets _ _ =>
      exact hi.mono fun addr entry h => HashMap.lookup_of_erase (hsockets ▸ h)
  | register i t ht hpc _ _ hnew hsockets _ _ =>
      -- of the key entered there was no connection before
      have hnone : ∀ addr entry, s.sockets.lookup addr = some entry →
          entry.connection.pubkey ≠ t.connection.pubkey := by
        intro addr entry hentry hkey
        have hbefore := hc (i, t) hnew ⟨addr, entry⟩ (AList.mem_lookup_iff.mp hentry) hkey
        have hsince := hseen.later t (List.mem_of_getElem? ht) (by simp [SocketPc.pending, hpc])
          addr entry hentry hkey
        exact absurd hbefore (Nat.not_lt.mpr hsince)
      intro addr addr' entry entry' h h' hkey
      rw [hsockets] at h h'
      rcases HashMap.lookup_of_insert h with ⟨haddr, rfl⟩ | h
      · rcases HashMap.lookup_of_insert h' with ⟨haddr', -⟩ | h'
        · rw [haddr, haddr']
        · exact absurd hkey.symm (hnone addr' entry' h')
      · rcases HashMap.lookup_of_insert h' with ⟨-, rfl⟩ | h'
        · exact absurd hkey (hnone addr entry h)
        · exact hi addr addr' entry entry' h h' hkey

/-- **One connection.**  Without a database, in every run in which no connection of a key is entered
between a handshake of the key and its own entry and is still there, no key is connected twice. -/
theorem onePerKey {host : Host} (hdb : host.poweredByDbms ≠ .sqlite) {s : Connections}
    (h : Reach (connections host) EntersAlone s) : OnePerKey s := by
  refine h.invariant ?_ fun s act s' hr hi hc hs => hi.step (seen hdb hr) hc hs
  intro s h0 addr addr' entry entry' hentry
  obtain rfl : s = .start := h0
  cases hentry

/-! ## Runs -/

/-- A wallet that comes back after it has left meets the condition of `onePerKey`. -/
theorem onePerKey_back :
    ∃ s, Reach (connections Replay.hostWithout) EntersAlone s ∧ s.registrations = 2 ∧
      OnePerKey s := by
  obtain ⟨s, hr, hs⟩ := exists_of_connections Replay.hostWithout EntersAlone
    (Replay.enter 0 7 ++ Replay.depart 0 ++ Replay.enter 1 8)
    (fun s => decide (s.registrations = 2)) (by decide +kernel)
  exact ⟨s, hr, of_decide_eq_true hs, onePerKey (by decide) hr⟩

/-- A wallet whose two handshakes are both through before either is entered is connected twice, on
whichever endpoints they came in. -/
theorem not_onePerKey :
    ¬ ∀ host s, host.poweredByDbms ≠ .sqlite → Reach (connections host) Any s → OnePerKey s := by
  intro h
  obtain ⟨s, hr, hs⟩ := exists_of_connections Replay.hostWithout Any
    [.request 7 { Replay.request with version := .V0 } 110, .request 8 Replay.request 110,
      .socket 0 (.pinged true), .socket 0 .go, .socket 1 (.pinged true), .socket 1 .go]
    (fun s => (s.sockets.lookup 7).any fun entry => (s.sockets.lookup 8).any fun entry' =>
      entry.connection.pubkey = entry'.connection.pubkey) (by decide +kernel)
  simp only [Option.any_eq_true, decide_eq_true_eq] at hs
  obtain ⟨entry, hentry, entry', hentry', hkey⟩ := hs
  exact absurd (h _ s (by decide) hr 7 8 entry entry' hentry hentry' hkey) (by decide)

end OrePool
