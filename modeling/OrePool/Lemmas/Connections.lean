import OrePool.Lemmas.Submissions

/-!
# Connections and frames

What is known of a connection and of a frame wherever the code looks at them: the id stored with a
connection is the one its handshake got for its key, and a frame carries a solution that its key
has signed.  Nothing ties the two keys together.
-/

namespace OrePool

open Interleaving

/-! ## The sockets map -/

/-- Effects on the sockets map. -/
def Effect.ofSockets : Effect → Bool
  | .insertSocket _ _ => true
  | .removeSocket _ => true
  | _ => false

lemma Shared.apply_sockets {e : Effect} (h : e.ofSockets = false) (sh : Shared) :
    (sh.apply e).sockets = sh.sockets := by
  cases e <;> first | rfl | cases h

lemma Effect.not_ofSockets {e : Effect} (h : e.inRound = true) : e.ofSockets = false := by
  cases e <;> first | rfl | cases h

lemma BestTask.step_ofSockets {srv : Server} {sh : Shared} {t t' : BestTask} {e : Effect}
    (h : t.step srv sh = some (t', e)) : e.ofSockets = false := by
  cases BestTask.step_move h <;> rfl

/-- What a handshake stores with a connection: the id it got for the connection's key. -/
def Server.Registered (srv : Server) (conn : ClientConnection) : Prop :=
  srv.minerIdFor conn.pubkey = some conn.minerId

/-- A connection found after a step was there before or has just been registered. -/
lemma Sys.step_sockets {srv : Server} {s s' : Sys} {act : Action} (h : s.step srv act = some s')
    {addr : SocketAddr} {conn : ClientConnection}
    (hl : s'.shared.sockets.lookup addr = some conn) :
    s.shared.sockets.lookup addr = some conn ∨
      act = .connect addr conn.pubkey conn.clientVersion ∧ srv.Registered conn := by
  cases Sys.step_move h with
  | connect hfree hid =>
      rcases HashMap.lookup_of_insert hl with ⟨rfl, rfl⟩ | hl
      · exact .inr ⟨rfl, hid⟩
      · exact .inl hl
  | disconnect a => exact .inl (HashMap.lookup_of_erase hl)
  | receive who m =>
      obtain ⟨hsh, -⟩ := s.spawnFor_fields (received srv.signatures who m)
      rw [Sys.perform_shared, hsh] at hl
      exact .inl hl
  | best ht hs => exact .inl (Shared.apply_sockets (BestTask.step_ofSockets hs) _ ▸ hl)
  | missions hs =>
      refine .inl (Shared.apply_sockets ?_ _ ▸ hl)
      rcases ReadyPc.step_effect hs with rfl | rfl | ⟨_, rfl⟩ | ⟨_, rfl⟩ <;> rfl
  | mission ht hs =>
      refine .inl (Shared.apply_sockets ?_ _ ▸ hl)
      rcases MissionTask.step_effect hs with ⟨-, -, rfl⟩ | ⟨-, -, rfl⟩ <;> rfl
  | submission hs =>
      exact .inl (Shared.apply_sockets (Effect.not_ofSockets (Submitter.step_inRound hs)) _ ▸ hl)
  | attender ha hs =>
      exact .inl (Shared.apply_sockets (Effect.not_ofSockets (Attender.step_inRound hs)) _ ▸ hl)
  | notify _ _ => exact .inl hl
  | ready _ => exact .inl hl
  | land _ _ _ _ _ => exact .inl hl
  | account _ => exact .inl hl

/-! ## Frames -/

/-- The key has signed the solution. -/
def Server.Signed (srv : Server) (pubkey : Pubkey) (solution : Solution) : Prop :=
  ∃ sig, srv.signatures.verify sig pubkey solution.hashNonceMessage = true

/-- The connection a task has found under its frame's address. -/
def BestPc.connection : BestPc → Option ClientConnection
  | .readProof _ conn => some conn
  | .readContributions sub => some sub.conn
  | .writeContribution sub _ => some sub.conn
  | _ => none

/-- What is known of the connections stored, of those the tasks have found, and of the tasks'
frames. -/
structure Known (srv : Server) (s : Sys) : Prop where
  stored : ∀ addr conn, s.shared.sockets.lookup addr = some conn → srv.Registered conn
  found : ∀ t ∈ s.bestTasks, ∀ conn ∈ t.pc.connection, srv.Registered conn
  signed : ∀ t ∈ s.bestTasks, srv.Signed t.pubkey t.solution
  carried : ∀ t ∈ s.bestTasks, ∀ sub ∈ t.pc.carrying,
    sub.pubkey = t.pubkey ∧ sub.solution = t.solution

/-- A task keeps its frame. -/
lemma BestTask.Move.frame {srv : Server} {sh : Shared} {t t' : BestTask} {e : Effect}
    (h : BestTask.Move srv sh t t' e) : t'.pubkey = t.pubkey ∧ t'.solution = t.solution := by
  cases h <;> exact ⟨rfl, rfl⟩

/-- A task has its connection from before, or finds it in the sockets map. -/
lemma BestTask.Move.connection {srv : Server} {sh : Shared} {t t' : BestTask} {e : Effect}
    (h : BestTask.Move srv sh t t' e) {conn : ClientConnection}
    (hc : t'.pc.connection = some conn) :
    t.pc.connection = some conn ∨ sh.sockets.lookup t.addr = some conn := by
  cases h with
  | socket _ hl =>
      simp only [BestPc.connection, Option.some.injEq] at hc
      exact .inr (hc ▸ hl)
  | accept hpc _ _ hsub =>
      simp only [BestPc.connection, hsub] at hc
      exact .inl (by rw [hpc]; exact hc)
  | decide hpc _ _ => exact .inl (by rw [hpc]; exact hc)
  | refuse _ _ _ | inRange _ _ _ | drop _ | discard _ _ _ | write _ => cases hc

/-- What a task carries it has made of its frame, or carried before. -/
lemma BestTask.Move.carrying {srv : Server} {sh : Shared} {t t' : BestTask} {e : Effect}
    (h : BestTask.Move srv sh t t' e) {sub : Submission} (hc : t'.pc.carrying = some sub) :
    t.pc.carrying = some sub ∨ sub.pubkey = t.pubkey ∧ sub.solution = t.solution := by
  cases h with
  | accept _ _ _ hsub =>
      simp only [BestPc.carrying, Option.some.injEq] at hc
      subst hc
      exact .inr (by simp [hsub])
  | decide hpc _ _ => exact .inl (by rw [hpc]; exact hc)
  | refuse _ _ _ | inRange _ _ _ | socket _ _ | drop _ | discard _ _ _ | write _ => cases hc

theorem Known.step {srv : Server} {s s' : Sys} {act : Action} (hi : Known srv s)
    (hs : s.step srv act = some s') : Known srv s' := by
  have hstored : ∀ addr conn, s'.shared.sockets.lookup addr = some conn → srv.Registered conn :=
    fun addr conn hl => (Sys.step_sockets hs hl).elim (hi.stored addr conn) And.right
  cases Sys.step_taskMove hs with
  | other who e _ _ _ _ htasks =>
      rcases htasks with h | ⟨addr, solution, pubkey, h, hsig⟩
      · exact ⟨hstored, h ▸ hi.found, h ▸ hi.signed, h ▸ hi.carried⟩
      · refine ⟨hstored, ?_, ?_, ?_⟩ <;>
          simp only [h, List.mem_append, List.mem_singleton] <;> rintro t (ht | rfl)
        · exact hi.found t ht
        · exact nofun
        · exact hi.signed t ht
        · exact hsig
        · exact hi.carried t ht
        · exact nofun
  | task i t t' e _ ht hmove hs' =>
      have hmem := List.mem_of_getElem? ht
      obtain ⟨hpk, hsol⟩ := hmove.frame
      have htasks : s'.bestTasks = s.bestTasks.set i t' := by rw [hs']; rfl
      refine ⟨hstored, ?_, ?_, ?_⟩ <;> rw [htasks] <;> intro u hu <;>
        rcases List.mem_or_eq_of_mem_set hu with hu | rfl
      · exact hi.found u hu
      · exact fun conn hc => (hmove.connection hc).elim (hi.found t hmem conn)
          (hi.stored t.addr conn)
      · exact hi.signed u hu
      · rw [hpk, hsol]
        exact hi.signed t hmem
      · exact hi.carried u hu
      · rw [hpk, hsol]
        exact fun sub hc => (hmove.carrying hc).elim (hi.carried t hmem sub) id

theorem known {srv : Server} {C : Sys → Action → Prop} {s : Sys}
    (h : Reach (machine srv) C s) : Known srv s := by
  refine h.invariant ?_ fun s act s' _ hi _ hs => hi.step hs
  rintro _ ⟨p, rfl⟩
  exact ⟨by simp [Sys.start], by simp [Sys.start], by simp [Sys.start], by simp [Sys.start]⟩

/-- A submission about to be inserted: its key has signed its solution, and its connection is a
registered one. -/
lemma Known.inserting {srv : Server} {s : Sys} (hi : Known srv s) {act : Action}
    {sub : Submission} (h : s.inserting act = some sub) :
    srv.Signed sub.pubkey sub.solution ∧ srv.Registered sub.conn := by
  cases act <;> simp only [Sys.inserting, reduceCtorEq] at h
  obtain ⟨t, ht, hw⟩ := Option.bind_eq_some_iff.mp h
  have hmem := List.mem_of_getElem? ht
  cases hpc : t.pc <;> rw [hpc] at hw <;>
    simp only [BestPc.writing, reduceCtorEq, Option.some.injEq] at hw
  subst hw
  obtain ⟨hpk, hsol⟩ := hi.carried t hmem _ (by rw [hpc]; rfl)
  refine ⟨?_, hi.found t hmem _ (by rw [hpc]; rfl)⟩
  rw [hpk, hsol]
  exact hi.signed t hmem

end OrePool
