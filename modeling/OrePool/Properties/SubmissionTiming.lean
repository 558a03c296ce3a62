import OrePool.Lemmas.Cutoffs
import OrePool.Lemmas.Rounds
import OrePool.Replay

/-!
# No transaction is sent early

A solution may be sent once the minute of its proof and the risk time are over on the chain's
clock.  `NeverEarly` says so of every transaction: for each version of the proof account that its
solution is valid for, the clock last read had passed that point.

The submission loop puts the proof it reads first to this test, and captures the best solution
later.  A solution found for a proof that has come in between goes out on the strength of the old
proof's minute (`not_neverEarly`).  Where each transaction's solution is for a proof no later
than the one tested, none is early (`neverEarly`).
-/

namespace OrePool

open Interleaving

/-! ## What is observed -/

/-- A transaction at the time it is sent: its solution, the account's versions so far, and the
clock the submission loop has read last. -/
structure Sending where
  solution : Solution
  versions : List Proof
  clock : Option Int64
  deriving DecidableEq

/-- The clock as anyone has read it last, as the submission loop has, and the transactions
sent. -/
structure ClockNotes where
  latest : Option Int64
  clock : Option Int64
  sent : List Sending

/-- The clock a reply brings. -/
def Reply.reading : Reply → Option Int64
  | .clock unixTimestamp => some unixTimestamp
  | _ => none

/-- The clock read at a step. -/
def Action.reading : Action → Option Int64
  | .missions reply => reply.reading
  | .submission reply => reply.reading
  | _ => none

/-- The solution sent at a step. -/
def Sys.sending (s : Sys) : Action → Option Solution
  | .submission (.blockhash true) =>
      match s.submission.pc with
      | .send _ _ solution _ => some solution
      | _ => none
  | _ => none

/-- Notes the clocks read and the transactions sent. -/
def clockObserver : Observer Sys Action ClockNotes where
  start _ := ⟨none, none, []⟩
  note s act n :=
    { latest := act.reading <|> n.latest
      clock :=
        match act with
        | .submission reply => reply.reading <|> n.clock
        | _ => n.clock
      sent :=
        match s.sending act with
        | some solution => ⟨solution, s.chain.versions, n.clock⟩ :: n.sent
        | none => n.sent }

/-! ## The property -/

/-- The minute after a proof and the risk time are over. -/
def Args.MinuteOver (args : Args) (proof : Proof) (clock : Int64) : Prop :=
  proof.lastHashAt.toInt + 60 + args.riskTime.toNat ≤ clock.toInt

/-- **Never early.**  When a transaction was sent, the minute was over for every version its
solution is valid for. -/
def NeverEarly (srv : Server) (n : ClockNotes) : Prop :=
  ∀ tx ∈ n.sent, ∀ p ∈ tx.versions, srv.drillx.isValid tx.solution p.challenge = true →
    ∃ t, tx.clock = some t ∧ srv.args.MinuteOver p t

/-- The cutoff the submission loop computes at a step: of which proof, at which clock. -/
def Sys.testing (s : Sys) : Action → Option (Proof × Int64)
  | .submission (.clock unixTimestamp) =>
      match s.submission.pc with
      | .readClock oldProof => some (oldProof, unixTimestamp)
      | _ => none
  | _ => none

/-- The clock does not run backwards, and the cutoffs of the submission loop fit. -/
def ClocksRun (srv : Server) (x : Sys × ClockNotes) (act : Action) : Prop :=
  (∀ t ∈ act.reading, ∀ u ∈ x.2.latest, u.toInt ≤ t.toInt) ∧
    ∀ c ∈ x.1.testing act, srv.args.CutoffFits c.1 c.2

/-- A transaction is sent only with a solution valid for no version later than the proof tested
for the round. -/
def SentForTested (srv : Server) (s : Sys) (act : Action) : Prop :=
  ∀ solution ∈ s.sending act, ∀ r ∈ s.submission.pc.round, ∀ p ∈ s.chain.versions,
    srv.drillx.isValid solution p.challenge = true →
      p.lastHashAt.toInt ≤ r.oldProof.lastHashAt.toInt

-- the readings are looked at one by one, not all `Int64`
instance (srv : Server) : DecidableRel (ClocksRun srv) := fun x act =>
  haveI : Decidable (∀ t ∈ act.reading, ∀ u ∈ x.2.latest, u.toInt ≤ t.toInt) :=
    @Option.decidableForallMem _ _
      (fun _ => @Option.decidableForallMem _ _ (fun _ => Int.decLe _ _) _) _
  inferInstanceAs (Decidable (_ ∧ _))

instance (srv : Server) : DecidableRel (SentForTested srv) := fun s act =>
  inferInstanceAs (Decidable (∀ solution ∈ s.sending act, ∀ r ∈ s.submission.pc.round,
    ∀ p ∈ s.chain.versions, srv.drillx.isValid solution p.challenge = true →
      p.lastHashAt.toInt ≤ r.oldProof.lastHashAt.toInt))

/-! ## The invariant -/

/-- The proof that has been tested for the transaction being prepared. -/
def SubmissionPc.tested : SubmissionPc → Option Proof
  | .readBest oldProof => some oldProof
  | .readSockets oldProof _ => some oldProof
  | .capture oldProof _ => some oldProof
  | .pause r => some r.oldProof
  | .loadConfig r _ => some r.oldProof
  | .clock r _ _ _ => some r.oldProof
  | .send r _ _ _ => some r.oldProof
  | .confirm r _ _ _ _ => some r.oldProof
  | _ => none

lemma Submitter.nextAttempt_tested {sub : Submitter} {r : Round} {n : ℕ} {p : Proof}
    (h : p ∈ (sub.nextAttempt r n).pc.tested) : p = r.oldProof := by
  rcases sub.nextAttempt_pc r n with ⟨m, hpc⟩ | hpc <;> rw [hpc] at h
  · exact (Option.some.inj h).symm
  · cases h

/-- A proof is tested by its cutoff, and is the one tested until the next iteration. -/
lemma Submitter.Move.tested {srv : Server} {s : Sys} {reply : Reply} {sub : Submitter} {e : Effect}
    (h : Submitter.Move srv s.shared s.attenders s.chain.txs reply s.submission sub e) :
    (∀ p ∈ sub.pc.tested, p ∈ s.submission.pc.tested) ∨
      ∃ p t, reply = .clock t ∧ s.testing (.submission reply) = some (p, t) ∧
        sub.pc.tested = some p ∧ srv.args.cutoff p t ≤ -srv.args.bufferTime.toInt64 := by
  cases h with
  | due hpc hreply hcutoff =>
      exact .inr ⟨_, _, hreply, by simp [Sys.testing, hreply, hpc], rfl, hcutoff.2⟩
  | noBest hpc _ | noBlockhash hpc | failed hpc _ =>
      refine .inl ?_
      intro p hp
      rw [hpc, Submitter.nextAttempt_tested hp]
      rfl
  | capture hpc _ hr => exact .inl (by rw [hpc, hr]; exact fun _ h => h)
  | oldProof _ | early _ | noSolution _ _ | wait _ _ | outdated _ _ _ _ | landed _ _
  | hashInvalid _ _ | released _ _ _ | refreshed _ _ | notRefreshed _ | writeProof _
  | resetNonce _ | resetEpoch _ | unpause _ => exact .inl nofun
  | busy _ => exact .inl fun _ h => h
  | best hpc | solution hpc _ | pause hpc | config hpc _ _ _ | noConfig hpc _ _ | clock hpc
  | send hpc => exact .inl (by rw [hpc]; exact fun _ h => h)

/-- The submission loop's clock is one read by anyone; the proof tested has its minute over; and
no transaction was early. -/
structure Timed (srv : Server) (s : Sys) (n : ClockNotes) : Prop where
  ordered : ∀ t ∈ n.clock, ∃ u, n.latest = some u ∧ t.toInt ≤ u.toInt
  tested : ∀ p ∈ s.submission.pc.tested, ∃ t, n.clock = some t ∧ srv.args.MinuteOver p t
  sent : NeverEarly srv n

/-- What the clock has passed it has passed for good. -/
lemma ClocksRun.later {srv : Server} {s : Sys} {n : ClockNotes} {act : Action}
    (hc : ClocksRun srv (s, n) act)
    (hord : ∀ t ∈ n.clock, ∃ u, n.latest = some u ∧ t.toInt ≤ u.toInt) {t : Int64}
    (ht : n.clock = some t) :
    ∃ u, (clockObserver.note s act n).clock = some u ∧ t.toInt ≤ u.toInt := by
  obtain ⟨l, hl, hle⟩ := hord t ht
  cases act with
  | submission reply =>
      cases hr : reply.reading with
      | none => exact ⟨t, by simp [clockObserver, hr, ht], le_rfl⟩
      | some u => exact ⟨u, by simp [clockObserver, hr], hle.trans (hc.1 u hr l hl)⟩
  | _ => exact ⟨t, ht, le_rfl⟩

/-- The submission loop's clock is not ahead of the latest. -/
lemma ClocksRun.ordered {srv : Server} {s : Sys} {n : ClockNotes} {act : Action}
    (hc : ClocksRun srv (s, n) act)
    (hord : ∀ t ∈ n.clock, ∃ u, n.latest = some u ∧ t.toInt ≤ u.toInt) :
    ∀ t ∈ (clockObserver.note s act n).clock,
      ∃ u, (clockObserver.note s act n).latest = some u ∧ t.toInt ≤ u.toInt := by
  intro t ht
  cases hr : act.reading with
  | none =>
      have ht' : n.clock = some t := by
        cases act <;> simp_all [clockObserver, Action.reading]
      simpa [clockObserver, hr] using hord t ht'
  | some u =>
      refine ⟨u, by simp [clockObserver, hr], ?_⟩
      cases act with
      | submission reply =>
          obtain rfl : u = t := by
            simpa [clockObserver, show reply.reading = some u from hr] using ht
          exact le_rfl
      | missions reply =>
          obtain ⟨l, hl, hle⟩ := hord t ht
          exact hle.trans (hc.1 u hr l hl)
      | _ => cases hr

/-- A transaction is sent for the proof tested. -/
lemma Timed.sending {srv : Server} {s : Sys} {n : ClockNotes} {act : Action}
    (hi : Timed srv s n) (hc : SentForTested srv s act) :
    NeverEarly srv (clockObserver.note s act n) := by
  cases hsol : s.sending act with
  | none => simpa [NeverEarly, clockObserver, hsol] using hi.sent
  | some solution =>
      intro tx htx p hp hvalid
      simp only [clockObserver, hsol, List.mem_cons] at htx
      rcases htx with rfl | htx
      · obtain ⟨r, hround, htested⟩ : ∃ r, s.submission.pc.round = some r ∧
            s.submission.pc.tested = some r.oldProof := by
          unfold Sys.sending at hsol
          split at hsol
          · split at hsol
            · rename_i hpc
              exact ⟨_, by rw [hpc]; rfl, by rw [hpc]; rfl⟩
            · cases hsol
          · cases hsol
        obtain ⟨t, ht, hover⟩ := hi.tested _ htested
        have hle := hc solution hsol r hround p hp hvalid
        refine ⟨t, ht, ?_⟩
        rw [Args.MinuteOver] at hover ⊢
        omega
      · exact hi.sent tx htx p hp hvalid

theorem Timed.step {srv : Server} {s s' : Sys} {n : ClockNotes} {act : Action}
    (hi : Timed srv s n) (hc : ClocksRun srv (s, n) act) (hsent : SentForTested srv s act)
    (hs : s.step srv act = some s') : Timed srv s' (clockObserver.note s act n) := by
  refine ⟨hc.ordered hi.ordered, ?_, hi.sending hsent⟩
  intro p hp
  have hkeep : p ∈ s.submission.pc.tested →
      ∃ t, (clockObserver.note s act n).clock = some t ∧ srv.args.MinuteOver p t := by
    intro hp
    obtain ⟨t, ht, hover⟩ := hi.tested p hp
    obtain ⟨u, hu, hle⟩ := hc.later hi.ordered ht
    exact ⟨u, hu, hover.trans hle⟩
  by_cases hact : ∃ reply, act = .submission reply
  · obtain ⟨reply, rfl⟩ := hact
    obtain ⟨⟨sub, e⟩, hstep, rfl⟩ := Option.map_eq_some_iff.mp hs
    rcases (Submitter.step_move hstep).tested with hsub | ⟨q, t, rfl, htest, hq, hcut⟩
    · exact hkeep (hsub p hp)
    · obtain rfl : q = p := Option.some.inj (hq.symm.trans hp)
      have hfits : srv.args.CutoffFits q t := hc.2 (q, t) htest
      have hover : srv.args.MinuteOver q t := Args.over_of_cutoff hfits hcut
      exact ⟨t, rfl, hover⟩
  · rw [Sys.step_submission_eq hs fun reply h => hact ⟨reply, h⟩] at hp
    exact hkeep hp

/-- **Never early**, in every run whose clock does not run backwards and in which transactions are
sent only with solutions for proofs no later than the one tested. -/
theorem neverEarly {srv : Server} {x : Sys × ClockNotes}
    (h : Reach ((machine srv).observe clockObserver)
      (fun x act => ClocksRun srv x act ∧ SentForTested srv x.1 act) x) : NeverEarly srv x.2 := by
  have hi : Timed srv x.1 x.2 := by
    refine h.observed_invariant ?_ fun s n act s' _ hi hc hs => hi.step hc.1 hc.2 hs
    rintro _ ⟨p, rfl⟩
    exact ⟨nofun, nofun, nofun⟩
  exact hi.sent

/-- A transaction sent when the minute of its proof is over. -/
theorem neverEarly_onTime :
    ∃ x, Reach ((machine (Replay.server .unavailable)).observe clockObserver)
        (fun x act => ClocksRun (Replay.server .unavailable) x act ∧
          SentForTested (Replay.server .unavailable) x.1 act) x ∧
      x.2.sent = [⟨Replay.solution 1 10, [Replay.proofAt 1 0], some 61⟩] ∧
      NeverEarly (Replay.server .unavailable) x.2 := by
  obtain ⟨x, hr, hx⟩ := exists_of_replayObserved (Replay.server .unavailable) clockObserver
    (fun x act => ClocksRun (Replay.server .unavailable) x act ∧
      SentForTested (Replay.server .unavailable) x.1 act) (Replay.proofAt 1 0)
    (Replay.served ++ Replay.pause 60 ++ Replay.attemptAt 61 (Replay.proofAt 1 0))
    (fun x => decide (x.2.sent = [⟨Replay.solution 1 10, [Replay.proofAt 1 0], some 61⟩]))
    (by decide +kernel)
  exact ⟨x, hr, by simpa only [decide_eq_true_eq] using hx, neverEarly hr⟩

/-- After a round given up for lost the submission loop tests the old proof again.  While it waits
for the clock the lost transaction lands, and a solution for the new challenge comes in: the old
proof's minute is over and the solution is sent, its own minute just begun. -/
theorem not_neverEarly :
    ¬ ∀ srv x, Reach ((machine srv).observe clockObserver)
      (fun x act => Honest x.1 act ∧ ClocksRun srv x act) x →
      NeverEarly srv x.2 := by
  refine not_forall_of_replayObserved (O := fun _ => clockObserver)
    (C := fun srv x act => Honest x.1 act ∧ ClocksRun srv x act)
    (P := fun srv x => NeverEarly srv x.2) (Replay.server .unavailable) (Replay.proofAt 1 0)
    (List.flatten [Replay.served, Replay.pause 60,
      (List.replicate 5 (Replay.attemptAt 61 (Replay.proofAt 1 0) ++
        [Action.submission (.outcome .otherError)])).flatten,
      .submission (.proof (some (Replay.proofAt 1 0))) :: List.replicate 5 (.submission .go),
      [.land 4 (Replay.proofAt 2 70), .notify 1 (Replay.proofAt 2 70), .receive 1 (.binary [0]),
        .ready 1, .missions (.order [1]), .missions .go, .missions .go, .missions (.clock 71),
        .missions .go, .missions .go, .missions .go, .mission 1, .mission 1],
      Replay.solve 1 5 1 1 (Replay.solution 2 10),
      .submission (.clock 75) :: List.replicate 4 (.submission .go),
      Replay.attemptAt 76 (Replay.proofAt 2 70)])
    (fun x => decide (x.2.sent.head? = some ⟨Replay.solution 2 10,
      [Replay.proofAt 1 0, Replay.proofAt 2 70], some 76⟩))
    ?_ (by decide +kernel)
  intro x hx hnever
  simp only [decide_eq_true_eq] at hx
  obtain ⟨t, ht, hover⟩ := hnever _ (List.mem_of_mem_head? hx) (Replay.proofAt 2 70) (by simp)
    (by decide)
  obtain rfl := Option.some.inj ht
  exact absurd hover (by unfold Args.MinuteOver; decide)

end OrePool
