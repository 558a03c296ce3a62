import OrePool.Lemmas.Origins
import OrePool.Properties.Attribution
import OrePool.Properties.BestSolution

/-!
# Where payments come from

The chain pays for a solution and the pool passes the reward on, so that whoever can make the
server submit or pay for something it was not sent can take from the others.  `Authentic` says that
every contribution of every payment, and the solution of every transaction, goes back to one frame:
it was signed by the key that is credited, has its nonce in a range that a mission sent to that key
names, is difficult enough, and was valid for a challenge that `app_proof` held when it was checked.
It came in at an address under which a connection was registered at some time, perhaps another one
than the frame's own.
-/

namespace OrePool

open Interleaving

/-! ## What came in -/

/-- The websocket messages that came in, with the addresses they came from, and the challenges
`app_proof` has held. -/
structure Intake where
  frames : List (SocketAddr × Message)
  challenges : List Challenge

/-- The messages after an action. -/
def Intake.receive (n : Intake) : Action → List (SocketAddr × Message)
  | .receive who m => (who, m) :: n.frames
  | _ => n.frames

def intakeObserver : Observer Sys Action Intake where
  start _ := ⟨[], []⟩
  note s act n := ⟨n.receive act, s.shared.appProof.challenge :: n.challenges⟩

/-! ## The property -/

/-- A frame brought the solution, under this key. -/
def Intake.Brought (srv : Server) (n : Intake) (x : SocketAddr × Pubkey × Solution) : Prop :=
  ∃ m, (x.1, m) ∈ n.frames ∧
    received srv.signatures x.1 m = some (.bestSolution x.1 x.2.2 x.2.1) ∧ srv.Signed x.2.1 x.2.2

/-- The connection was registered at some time under this address, with the id of its key. -/
def Sys.Connected (srv : Server) (s : Sys) (x : SocketAddr × ClientConnection) : Prop :=
  (Actor.connections, Effect.insertSocket x.1 x.2) ∈ s.journal ∧ srv.Registered x.2

/-- A mission sent to the key names this range. -/
def Sys.Offered (s : Sys) (x : Pubkey × NonceRange) : Prop :=
  ∃ who m, (who, Effect.sendMission m) ∈ s.journal ∧ m.pubkey = x.1 ∧ m.nonceRange = x.2

/-- A submission with all that was checked of it.  Its frame and its connection share an address. -/
structure Vetted (srv : Server) (s : Sys) (n : Intake) (sub : Submission) : Prop where
  brought : ∃ addr, n.Brought srv (addr, sub.pubkey, sub.solution) ∧
    s.Connected srv (addr, sub.conn)
  offered : s.Offered (sub.pubkey, sub.nonceRange)
  inRange : sub.nonceRange.contains sub.solution.nonce = true
  held : sub.challenge ∈ n.challenges
  valid : srv.drillx.isValid sub.solution sub.challenge = true
  difficulty : sub.diff = srv.drillx.difficulty sub.solution
  difficult : srv.args.expectedMinDifficulty ≤ sub.diff

/-- **Authenticity.**  What is paid for, what it is paid with and what is submitted to the chain
are vetted submissions. -/
structure Authentic (srv : Server) (s : Sys) (n : Intake) : Prop where
  contributions : ∀ who msg, (who, Effect.sendMineSuccess msg) ∈ s.journal →
    ∀ pubkey c, msg.contributions.lookup pubkey = some c →
      ∃ sub, Vetted srv s n sub ∧ sub.pubkey = pubkey ∧ sub.contribution = c
  bestNonce : ∀ who msg, (who, Effect.sendMineSuccess msg) ∈ s.journal →
    ∃ sub, Vetted srv s n sub ∧ sub.solution.nonce = msg.bestNonce
  submitted : ∀ tx ∈ s.chain.txs, ∃ sub, Vetted srv s n sub ∧ sub.solution = tx.solution

/-! ## Nothing is forgotten -/

section Kept

variable {srv : Server} {s s' : Sys} {n : Intake} {act : Action}

lemma Intake.frames_subset (s : Sys) (act : Action) :
    n.frames ⊆ (intakeObserver.note s act n).frames := by
  cases act with
  | receive who m => exact List.subset_cons_self _ _
  | _ => exact List.Subset.refl _

lemma Intake.Brought.kept {x : SocketAddr × Pubkey × Solution} (h : n.Brought srv x) (s : Sys)
    (act : Action) : (intakeObserver.note s act n).Brought srv x := by
  obtain ⟨m, hm, hx⟩ := h
  exact ⟨m, n.frames_subset s act hm, hx⟩

lemma Sys.Connected.kept {x : SocketAddr × ClientConnection} (h : s.Connected srv x)
    (hs : s.step srv act = some s') : s'.Connected srv x := by
  obtain ⟨ev, hj⟩ := Sys.step_journal hs
  exact ⟨hj ▸ List.mem_cons_of_mem _ h.1, h.2⟩

lemma Sys.Offered.kept {x : Pubkey × NonceRange} (h : s.Offered x)
    (hs : s.step srv act = some s') : s'.Offered x := by
  obtain ⟨ev, hj⟩ := Sys.step_journal hs
  obtain ⟨who, m, hm, hx⟩ := h
  exact ⟨who, m, hj ▸ List.mem_cons_of_mem _ hm, hx⟩

lemma Vetted.kept {sub : Submission} (h : Vetted srv s n sub) (hs : s.step srv act = some s') :
    Vetted srv s' (intakeObserver.note s act n) sub := by
  obtain ⟨addr, hbrought, hconnected⟩ := h.brought
  exact { h with
    brought := ⟨addr, hbrought.kept s act, hconnected.kept hs⟩
    offered := h.offered.kept hs
    held := List.mem_cons_of_mem _ h.held }

end Kept

/-! ## Solutions -/

/-- The submission loop sends the solution it prepares. -/
lemma Submitter.step_tx {srv : Server} {sh : Shared} {as : List Attender} {txs : List MineTx}
    {reply : Reply} {sub sub' : Submitter} {e : Effect}
    (h : sub.step srv sh as txs reply = some (sub', e)) :
    e.tx = [] ∨ ∃ r n solution cfg, sub.pc = .send r n solution cfg ∧
      e.tx = [⟨r.id, solution, false⟩] := by
  cases Submitter.step_move h with
  | send hpc => exact .inr ⟨_, _, _, _, hpc, rfl⟩
  | _ => exact .inl rfl

/-- A transaction was sent before, whether or not it has landed since, or carries the captured
solution. -/
lemma Sys.step_tx {srv : Server} {s s' : Sys} {act : Action} (hi : Serial s)
    (hs : s.step srv act = some s') {tx : MineTx} (htx : tx ∈ s'.chain.txs) :
    (∃ old ∈ s.chain.txs, old.solution = tx.solution) ∨
      s.submission.pc.captured = some tx.solution := by
  have hkeep : ∀ {e : Effect} {txs : List MineTx}, txs = s.chain.txs → e.ofRound = false →
      tx ∈ txs ++ e.tx → ∃ old ∈ s.chain.txs, old.solution = tx.solution := by
    intro e txs htxs he hm
    rw [Effect.tx_of_not_ofRound he, List.append_nil] at hm
    exact ⟨tx, htxs ▸ hm, rfl⟩
  cases Sys.step_move hs with
  | submission hstep =>
      rcases List.mem_append.mp htx with htx | htx
      · exact .inl ⟨tx, htx, rfl⟩
      · rcases Submitter.step_tx hstep with he | ⟨r, n, solution, cfg, hpc, he⟩
        · rw [he] at htx
          cases htx
        · rw [he] at htx
          obtain rfl := List.mem_singleton.mp htx
          have hcoh := hi.coherent
          rw [hpc] at hcoh
          exact .inr (by rw [hpc]; exact hcoh)
  | attender ha hstep =>
      rw [Sys.perform_txs, (Attender.step_spawns hstep).2, List.append_nil] at htx
      exact .inl ⟨tx, htx, rfl⟩
  | land htx' _ _ _ _ =>
      rcases List.mem_append.mp htx with htx | htx
      · rcases List.mem_or_eq_of_mem_set htx with htx | rfl
        · exact .inl ⟨tx, htx, rfl⟩
        · exact .inl ⟨_, List.mem_of_getElem? htx', rfl⟩
      · cases htx
  | receive who m =>
      obtain ⟨-, -, -, -, -, hch, -⟩ := s.spawnFor_fields (received srv.signatures who m)
      exact .inl (hkeep (congrArg Chain.txs hch) rfl htx)
  | best _ hstep => exact .inl (hkeep rfl (BestTask.step_ofRound hstep) htx)
  | missions hstep => exact .inl (hkeep rfl (ReadyPc.step_ofRound hstep) htx)
  | mission _ hstep => exact .inl (hkeep rfl (MissionTask.step_ofRound hstep) htx)
  | notify _ _ | connect _ _ | disconnect _ | ready _ | account _ => exact .inl (hkeep rfl rfl htx)

/-- The attender of a round is started with the captured solution. -/
lemma Sys.step_landing {srv : Server} {s s' : Sys} {act : Action} (hi : Serial s)
    (hs : s.step srv act = some s') {b : Attender} (hb : b ∈ s'.attenders) :
    (∃ a ∈ s.attenders, a.landing = b.landing) ∨
      s.submission.pc.captured = some b.landing.solution := by
  rcases Sys.step_roundMove hs with ⟨-, -, -, -, -, -, -, -, -, hatt⟩ |
    ⟨reply, sub, e, -, hsub, rfl⟩ | ⟨i, reply, a, a', e, -, ha, hsa, rfl⟩
  · exact .inl ⟨b, hatt ▸ hb, rfl⟩
  · rcases List.mem_append.mp hb with hb | hb
    · exact .inl ⟨b, hb, rfl⟩
    · rcases Submitter.step_spawns hsub with ⟨he, -⟩ |
        ⟨r, n, solution, cfg, tx, l, hpc, rfl, -, hsol, -⟩
      · rw [he] at hb
        cases hb
      · obtain rfl := List.mem_singleton.mp hb
        have hcoh := hi.coherent
        rw [hpc] at hcoh
        exact .inr (by rw [hpc]; exact hcoh.trans (congrArg some hsol.symm))
  · rw [Sys.perform_attenders, (Attender.step_spawns hsa).1, List.append_nil] at hb
    rcases List.mem_or_eq_of_mem_set hb with hb | rfl
    · exact .inl ⟨b, hb, rfl⟩
    · exact .inl ⟨a, List.mem_of_getElem? ha, (Attender.step_landing hsa).symm⟩

/-- The solutions captured, sent and attended to come from the stored best solution. -/
def solutionFlow (srv : Server) : Flow (machine srv) Solution where
  items s := {x | s.submission.pc.captured = some x ∨ (∃ a ∈ s.attenders, a.landing.solution = x) ∨
    ∃ tx ∈ s.chain.txs, tx.solution = x}
  source s _ := {x | s.shared.epochHashes.bestHash.solution = some x}
  init := by
    rintro _ ⟨p, rfl⟩
    ext x
    simp [Sys.start, SubmissionPc.captured]
  step := by
    rintro s act s' hr hs x (hx | ⟨b, hb, rfl⟩ | ⟨tx, htx, rfl⟩)
    · rcases Sys.step_roundMove hs with ⟨-, -, -, -, -, -, -, -, hsub, -⟩ |
        ⟨reply, sub, e, -, hsub, rfl⟩ | ⟨i, reply, a, a', e, -, -, -, rfl⟩
      · exact .inl (.inl (hsub ▸ hx))
      · rcases (Submitter.step_captured hsub hx).2.2 with hx | hx
        · exact .inl (.inl hx)
        · exact .inr hx
      · exact .inl (.inl hx)
    · rcases Sys.step_landing (serial hr) hs hb with ⟨a, ha, hl⟩ | hx
      · exact .inl (.inr (.inl ⟨a, ha, congrArg Landing.solution hl⟩))
      · exact .inl (.inl hx)
    · rcases Sys.step_tx (serial hr) hs htx with ⟨old, hold, hsol⟩ | hx
      · exact .inl (.inr (.inr ⟨old, hold, hsol⟩))
      · exact .inl (.inl hx)

/-! ## Every submission is vetted -/

section Traced

variable {srv : Server} {C : Sys × Intake → Action → Prop} {x : Sys × Intake}

lemma brought (h : Reach ((machine srv).observe intakeObserver) C x) :
    ∀ t ∈ x.1.bestTasks, x.2.Brought srv t.frame := by
  intro t ht
  refine (frameFlow srv).traced_observed (P := fun _ n => n.Brought srv) ?_ ?_ h t.frame
    ⟨t, ht, rfl⟩
  · intro s n act s' _ y hy
    exact hy.kept s act
  · rintro s n act s' - - y ⟨m, rfl, hm⟩
    exact ⟨m, List.mem_cons_self, hm, (received_bestSolution hm).2⟩

lemma connected (h : Reach ((machine srv).observe intakeObserver) C x) :
    ∀ t ∈ x.1.bestTasks, ∀ conn ∈ t.pc.connection, x.1.Connected srv (t.addr, conn) := by
  intro t ht conn hconn
  refine (connectionFlow srv).traced_observed (P := fun s _ => s.Connected srv) ?_ ?_ h
    (t.addr, conn) (.inr ⟨t, ht, rfl, hconn⟩)
  · intro s n act s' hs y hy
    exact hy.kept hs
  · rintro s n act s' - hs y ⟨rfl, hreg⟩
    have hs : s.step srv (.connect y.1 y.2.pubkey y.2.clientVersion) = some s' := hs
    cases Sys.step_move hs with
    | connect hfree hid =>
        obtain rfl := Option.some.inj (hid.symm.trans hreg)
        exact ⟨List.mem_cons_self, hreg⟩

lemma offered (h : Reach ((machine srv).observe intakeObserver) C x) :
    ∀ t ∈ x.1.bestTasks, ∀ r, t.pc.nonceRange = some r → x.1.Offered (t.pubkey, r) := by
  intro t ht r hr
  refine (rangeFlow srv).traced_observed (P := fun s _ => s.Offered) ?_ ?_ h (t.pubkey, r)
    (.inr (.inr ⟨t, ht, rfl, hr⟩))
  · intro s n act s' hs y hy
    exact hy.kept hs
  · rintro s n act s' - hs y ⟨i, u, rfl, hu, hpc, rfl⟩
    have hs : s.step srv (.mission i) = some s' := hs
    cases Sys.step_move hs with
    | mission hu' hstep =>
        obtain rfl := Option.some.inj (hu.symm.trans hu')
        rcases MissionTask.step_effect hstep with ⟨-, -, rfl⟩ | ⟨hpc', -, -⟩
        · exact ⟨_, u.mission, List.mem_cons_self, rfl, rfl⟩
        · rw [hpc] at hpc'
          cases hpc'

/-- What a task carries or has inserted is vetted. -/
theorem vetted (h : Reach ((machine srv).observe intakeObserver) C x) :
    ∀ sub ∈ (submissionFlow srv).items x.1, Vetted srv x.1 x.2 sub := by
  refine (submissionFlow srv).traced_observed (P := Vetted srv) ?_ ?_ h
  · intro s n act s' hs sub hsub
    exact hsub.kept hs
  · rintro s n act s' hr hs _ ⟨t, ht, r, conn, hpc, hv, hd, rfl⟩
    have hrange : t.pc.nonceRange = some r := by rw [hpc]; rfl
    have hconn : conn ∈ t.pc.connection := by rw [hpc]; rfl
    refine ⟨⟨t.addr, (brought hr t ht).kept s act, (connected hr t ht conn hconn).kept hs⟩,
      (offered hr t ht r hrange).kept hs, ?_, List.mem_cons_self, hv, rfl, hd⟩
    exact inRange (hr.forget (D := Any) fun _ _ _ => trivial) t ht r hrange

end Traced

/-! ## Every solution was inserted -/

/-- The solution was inserted for the epoch. -/
def Inserted (j : List Event) (solution : Solution) : Prop :=
  ∃ who sub, (who, Effect.insertContribution sub) ∈ j ∧ sub.solution = solution

lemma Inserted.cons {j : List Event} {solution : Solution} (h : Inserted j solution) (ev : Event) :
    Inserted (ev :: j) solution := by
  obtain ⟨who, sub, hm, hsub⟩ := h
  exact ⟨who, sub, List.mem_cons_of_mem _ hm, hsub⟩

theorem inserted_of_solution {srv : Server} {C : Sys → Action → Prop} {s : Sys}
    (h : Reach (machine srv) C s) :
    ∀ solution ∈ (solutionFlow srv).items s, Inserted s.journal solution := by
  refine (solutionFlow srv).traced (P := fun s => Inserted s.journal) ?_ ?_ h
  · intro s act s' hs x hx
    obtain ⟨ev, hj⟩ := Sys.step_journal hs
    exact hj ▸ hx.cons ev
  · intro s act s' hr hs x hx
    obtain ⟨ev, hj⟩ := Sys.step_journal hs
    obtain ⟨sub, hsub, rfl⟩ := recorded_of_best hr hx
    obtain ⟨who, hm⟩ := Sys.mem_recorded hsub
    have hins : Inserted s.journal sub.solution := ⟨who, sub, mem_of_mem_since hm, rfl⟩
    exact hj ▸ hins.cons ev

/-- What is paid with was inserted. -/
theorem payments_inserted {srv : Server} {C : Sys → Action → Prop} {s : Sys}
    (h : Reach (machine srv) C s) : Payments (fun j l _ => Inserted j l.solution) s := by
  refine h.invariant ?_ fun s act s' hr hp _ hs => hp.step ?_ ?_ hs
  · rintro _ ⟨p, rfl⟩
    exact .start srv p
  · intro ev j l c hj
    exact hj.cons ev
  · intro i a ha _ _
    exact inserted_of_solution hr _ (.inr (.inl ⟨a, List.mem_of_getElem? ha, rfl⟩))

/-! ## Runs -/

/-- **Authenticity.**  In every run whatever is paid for, paid with or submitted goes back to a
frame that its key has signed and that passed every check. -/
theorem authentic {srv : Server} {C : Sys × Intake → Action → Prop} {x : Sys × Intake}
    (h : Reach ((machine srv).observe intakeObserver) C x) : Authentic srv x.1 x.2 := by
  have hr : Reach (machine srv) Any x.1 := h.forget fun _ _ _ => trivial
  have hvetted : ∀ who sub, (who, Effect.insertContribution sub) ∈ x.1.journal →
      Vetted srv x.1 x.2 sub := fun who sub hm => vetted h sub (.inr ⟨who, hm⟩)
  have hsolution : ∀ solution, Inserted x.1.journal solution →
      ∃ sub, Vetted srv x.1 x.2 sub ∧ sub.solution = solution := by
    rintro _ ⟨who, sub, hm, rfl⟩
    exact ⟨sub, hvetted who sub hm, rfl⟩
  refine ⟨?_, ?_, ?_⟩
  · intro who msg hm pubkey c hc
    obtain ⟨l, -, -, hfrom⟩ := (payments_fromInserts hr).sent who msg hm
    obtain ⟨w, sub, hsub, hpk, hcon⟩ := hfrom pubkey c hc
    exact ⟨sub, hvetted w sub hsub, hpk, hcon⟩
  · intro who msg hm
    obtain ⟨l, -, hnonce, hins⟩ := (payments_inserted hr).sent who msg hm
    obtain ⟨sub, hsub, hsol⟩ := hsolution _ hins
    exact ⟨sub, hsub, hsol ▸ hnonce.symm⟩
  · intro tx htx
    exact hsolution _ (inserted_of_solution hr _ (.inr (.inr ⟨tx, htx, rfl⟩)))

/-- A round that is paid for. -/
theorem authentic_paidRound :
    ∃ x, Reach ((machine (Replay.server .unavailable)).observe intakeObserver) Any x ∧
      (x.1.journal.any fun ev => (ev.2.mineSuccess).any fun msg =>
        decide (msg.contributions.entries.length = 1)) = true ∧
      Authentic (Replay.server .unavailable) x.1 x.2 := by
  obtain ⟨x, hr, hx⟩ := exists_of_replayObserved (Replay.server .unavailable) intakeObserver Any
    (Replay.proofAt 1 0) Replay.settledRound
    (fun x => x.1.journal.any fun ev => (ev.2.mineSuccess).any
      fun msg : MessageInternalMineSuccess => decide (msg.contributions.entries.length = 1))
    (by decide +kernel)
  exact ⟨x, hr, hx, authentic hr⟩

end OrePool
