import OrePool.Lemmas.Stages
import OrePool.Replay

/-!
# The best solution is paid for

The payment names the nonce of the best solution, and `pool_mine_success_processor` looks for a
contribution with that nonce until it finds one.  `BestContributed` says that the message carries
one.

The best solution is captured when the round begins and the contributions are snapshot when the
transaction has landed.  In between its miner can better its entry, which replaces the nonce
(`not_bestContributed`); and a racing insert can replace the best entry at any time.  When no
insert displaces the stored best solution without becoming it, nor the captured one before the
snapshot, the message carries it (`bestContributed`).
-/

namespace OrePool

open Interleaving

/-! ## The property -/

/-- One of the contributions has the nonce. -/
def Supplies (contributions : Contributions) (nonce : UInt64) : Prop :=
  ∃ pubkey c, contributions.lookup pubkey = some c ∧ c.suppliedNonce = nonce

/-- **The best solution is among the contributions.**  Every message sent for payment has a
contribution with the best nonce. -/
def BestContributed (s : Sys) : Prop :=
  ∀ who msg, (who, Effect.sendMineSuccess msg) ∈ s.journal →
    Supplies msg.contributions msg.bestNonce

/-! ## The condition -/

/-- The solution captured for the round, from the capture to the end of the attempts or the
wait. -/
def SubmissionPc.captured : SubmissionPc → Option Solution
  | .pause r => r.bestSolution
  | .loadConfig r _ => r.bestSolution
  | .clock r _ _ _ => r.bestSolution
  | .send r _ _ _ => r.bestSolution
  | .confirm r _ _ _ _ => r.bestSolution
  | .await r _ => r.bestSolution
  | _ => none

/-- Nothing has been snapshot yet. -/
def Settlement.isPending : Settlement → Bool
  | .pending => true
  | _ => false

/-- The awaited attender, if there is one, has not taken its snapshot. -/
def Sys.beforeSnapshot (s : Sys) : Bool :=
  match s.submission.pc with
  | .await _ i => (s.attenders[i]?).any (·.pc.settlement.isPending)
  | _ => true

/-- The solution a round has captured, until its attender takes the snapshot. -/
def Sys.captured (s : Sys) : Option Solution :=
  if s.beforeSnapshot then s.submission.pc.captured else none

/-- Inserting `sub` replaces the entry with the nonce of `solution` by one with another. -/
def Sys.Displaces (s : Sys) (sub : Submission) (solution : Solution) : Prop :=
  ∃ old ∈ s.shared.epochHashes.contributions.lookup sub.pubkey,
    old.suppliedNonce = solution.nonce ∧ sub.solution.nonce ≠ solution.nonce

instance (s : Sys) (sub : Submission) (solution : Solution) :
    Decidable (s.Displaces sub solution) :=
  inferInstanceAs (Decidable (∃ old ∈ s.shared.epochHashes.contributions.lookup sub.pubkey,
    old.suppliedNonce = solution.nonce ∧ sub.solution.nonce ≠ solution.nonce))

/-- An insert displaces the stored best solution only by becoming it, and the captured one not
before the snapshot. -/
def NoDisplacement (s : Sys) (act : Action) : Prop :=
  ∀ sub ∈ s.inserting act,
    (∀ solution ∈ s.shared.epochHashes.bestHash.solution,
      sub.diff ≤ s.shared.epochHashes.bestHash.difficulty → ¬ s.Displaces sub solution) ∧
    ∀ solution ∈ s.captured, ¬ s.Displaces sub solution

instance : DecidableRel NoDisplacement := fun s act =>
  inferInstanceAs (Decidable (∀ sub ∈ s.inserting act,
    (∀ solution ∈ s.shared.epochHashes.bestHash.solution,
      sub.diff ≤ s.shared.epochHashes.bestHash.difficulty → ¬ s.Displaces sub solution) ∧
    ∀ solution ∈ s.captured, ¬ s.Displaces sub solution))

/-! ## The captured solution -/

lemma Attender.step_isPending {srv : Server} {sh : Shared} {reply : Reply} {a a' : Attender}
    {e : Effect} (h : a.step srv sh reply = some (a', e))
    (hp : a'.pc.settlement.isPending = true) :
    a.pc.settlement.isPending = true ∧ e.opens = false := by
  cases Attender.step_move h <;>
    simp_all [Attender.goto, AttenderPc.settlement, Settlement.isPending, Effect.opens]

/-- After a failed attempt the captured solution is still the round's, if there is one. -/
lemma Submitter.nextAttempt_captured {sub : Submitter} {r : Round} {n : ℕ} {solution : Solution}
    (h : (sub.nextAttempt r n).pc.captured = some solution) : r.bestSolution = some solution := by
  rcases sub.nextAttempt_pc r n with ⟨m, hpc⟩ | hpc <;> rw [hpc] at h <;>
    first
    | exact h
    | cases h

/-- The submission loop captures the stored best solution or keeps what it has captured. -/
lemma Submitter.step_captured {srv : Server} {sh : Shared} {as : List Attender}
    {txs : List MineTx} {reply : Reply} {sub sub' : Submitter} {e : Effect} {solution : Solution}
    (h : sub.step srv sh as txs reply = some (sub', e)) (hx : sub'.pc.captured = some solution) :
    e.opens = false ∧ (∀ r i, sub.pc ≠ .await r i) ∧
      (sub.pc.captured = some solution ∨ sh.epochHashes.bestHash.solution = some solution) := by
  cases Submitter.step_move h with
  | capture hpc _ hr =>
      subst hr
      exact ⟨rfl, by simp [hpc], .inr hx⟩
  | noBest hpc _ | noBlockhash hpc | failed hpc _ =>
      exact ⟨rfl, by simp [hpc], .inl (by rw [hpc]; exact Submitter.nextAttempt_captured hx)⟩
  | _ => simp_all [Submitter.goto, SubmissionPc.captured, Effect.opens]

/-- What is captured was captured before, or it is the stored best solution and the step inserts
nothing; and the step opens no epoch. -/
theorem Sys.step_captured {srv : Server} {s s' : Sys} {act : Action} (hi : Serial s)
    (hs : s.step srv act = some s') {solution : Solution} (hx : s'.captured = some solution) :
    (∃ who e, s'.journal = (who, e) :: s.journal ∧ e.opens = false) ∧
      (s.captured = some solution ∨
        s.inserting act = none ∧ s.shared.epochHashes.bestHash.solution = some solution) := by
  simp only [Sys.captured, Option.ite_none_right_eq_some] at hx
  rcases Sys.step_roundMove hs with ⟨who, e, -, -, he, -, -, hj, hsub, hatt⟩ |
    ⟨reply, sub, e, rfl, hsub, rfl⟩ | ⟨i, reply, a, a', e, rfl, ha, hsa, rfl⟩
  · have ho : e.opens = false := by cases e <;> first | rfl | cases he
    rw [Sys.beforeSnapshot, hsub, hatt, ← Sys.beforeSnapshot] at hx
    exact ⟨⟨who, e, hj, ho⟩, .inl (Option.ite_none_right_eq_some.mpr hx)⟩
  · obtain ⟨ho, hne, h⟩ := Submitter.step_captured hsub hx.2
    refine ⟨⟨_, e, rfl, ho⟩, h.imp ?_ fun h => ⟨rfl, h⟩⟩
    intro h
    have hbefore : s.beforeSnapshot = true := by
      rw [Sys.beforeSnapshot]
      split
      · exact absurd ‹_› (hne _ _)
      · rfl
    rw [Sys.captured, if_pos hbefore, h]
  · obtain ⟨hspawn, -⟩ := Attender.step_spawns hsa
    obtain ⟨hbefore, hx⟩ := hx
    simp only [Sys.beforeSnapshot, Sys.perform_submission, Sys.perform_attenders, hspawn,
      List.append_nil] at hbefore
    by_cases hw : ∃ r, s.submission.pc = .await r i
    · -- the awaited attender has no snapshot, so it had none before
      obtain ⟨r, hw⟩ := hw
      simp only [hw, slot_set ha, if_true, Option.any_some] at hbefore
      obtain ⟨hp, ho⟩ := Attender.step_isPending hsa hbefore
      refine ⟨⟨_, e, rfl, ho⟩, .inl (Option.ite_none_right_eq_some.mpr ⟨?_, hx⟩)⟩
      simp [Sys.beforeSnapshot, hw, ha, hp]
    · refine ⟨⟨_, e, rfl, hi.not_opens ha hsa hw⟩,
        .inl (Option.ite_none_right_eq_some.mpr ⟨?_, hx⟩)⟩
      rw [← hbefore, Sys.beforeSnapshot]
      cases hpc : s.submission.pc with
      | await r j =>
          have hij : i ≠ j := fun h => hw ⟨r, h ▸ hpc⟩
          simp [slot_set ha, hij]
      | _ => rfl

/-! ## Both are supplied -/

/-- The stored and the captured best solution are among the contributions. -/
structure BestSupplied (s : Sys) : Prop where
  stored : ∀ solution, s.shared.epochHashes.bestHash.solution = some solution →
    Supplies s.shared.epochHashes.contributions solution.nonce
  captured : ∀ solution, s.captured = some solution →
    Supplies s.shared.epochHashes.contributions solution.nonce

/-- An insert that does not displace a solution leaves it among the contributions. -/
lemma Supplies.insert {s : Sys} {sub : Submission} {solution : Solution}
    (h : Supplies s.shared.epochHashes.contributions solution.nonce)
    (hno : ¬ s.Displaces sub solution) :
    Supplies (s.shared.epochHashes.insertContribution sub).contributions solution.nonce := by
  obtain ⟨pubkey, c, hl, hn⟩ := h
  by_cases hpk : pubkey = sub.pubkey
  · -- the miner's own entry is replaced, by one with the same nonce
    refine ⟨sub.pubkey, sub.contribution, AList.lookup_insert _, ?_⟩
    by_contra hne
    exact hno ⟨c, hpk ▸ hl, hn, hne⟩
  · exact ⟨pubkey, c, (AList.lookup_insert_ne hpk).trans hl, hn⟩

theorem BestSupplied.step {srv : Server} {s s' : Sys} {act : Action} (hb : BestSupplied s)
    (hi : Serial s) (hc : NoDisplacement s act) (hs : s.step srv act = some s') :
    BestSupplied s' := by
  cases Sys.step_epochMove hs with
  | keep _ _ _ _ _ he _ _ =>
      refine ⟨he ▸ hb.stored, fun x hx => he ▸ ?_⟩
      rcases (Sys.step_captured hi hs hx).2 with hx | ⟨-, hx⟩
      · exact hb.captured x hx
      · exact hb.stored x hx
  | insert who sub hins hj he _ =>
      obtain ⟨hstored, hcaptured⟩ := hc sub hins
      refine ⟨?_, ?_⟩
      · intro x hx
        rw [he] at hx ⊢
        simp only [EpochHashes.insertContribution] at hx
        split at hx
        · -- it becomes the best solution
          simp only [Option.some.injEq] at hx
          subst hx
          exact ⟨sub.pubkey, sub.contribution, AList.lookup_insert _, rfl⟩
        · exact (hb.stored x hx).insert (hstored x hx (UInt32.not_lt.mp ‹_›))
      · intro x hx
        rw [he]
        rcases (Sys.step_captured hi hs hx).2 with hx | ⟨hnone, -⟩
        · exact (hb.captured x hx).insert (hcaptured x hx)
        · rw [hins] at hnone
          cases hnone
  | reset who opened stored _ hj he _ _ =>
      refine ⟨?_, ?_⟩
      · intro x hx
        rw [he] at hx
        cases hx
      · intro x hx
        obtain ⟨⟨w, e, hj', ho⟩, -⟩ := Sys.step_captured hi hs hx
        rw [hj, List.cons.injEq, Prod.mk.injEq] at hj'
        rw [← hj'.1.2] at ho
        cases ho

/-! ## Messages -/

/-- A pending attender's solution is the captured one. -/
lemma Serial.captured_of_pending {s : Sys} (hi : Serial s) {i : ℕ} {a : Attender}
    (ha : s.attenders[i]? = some a) (hact : a.active) (hset : a.pc.settlement = .pending) :
    s.captured = some a.landing.solution := by
  obtain ⟨r, hpc⟩ := hi.active i a ha hact
  obtain ⟨b, hb, -, hsol⟩ := hi.awaited r i hpc
  rw [ha, Option.some.injEq] at hb
  subst hb
  simp [Sys.captured, Sys.beforeSnapshot, hpc, ha, hset, Settlement.isPending,
    SubmissionPc.captured, hsol]

/-- **The best solution is among the contributions.**  In every run in which no insert displaces
the stored best solution without becoming it, nor the captured one before the snapshot, every
message sent for payment has a contribution with the best nonce. -/
theorem bestContributed {srv : Server} {s : Sys} (h : Reach (machine srv) NoDisplacement s) :
    BestContributed s := by
  have hbest : ∀ {s}, Reach (machine srv) NoDisplacement s → BestSupplied s := by
    intro s h
    refine h.invariant ?_ fun s act s' hr hb hc hs => hb.step (serial hr) hc hs
    rintro _ ⟨p, rfl⟩
    exact ⟨nofun, nofun⟩
  have hpay : Payments (fun _ l contributions => Supplies contributions l.solution.nonce) s := by
    refine h.invariant ?_ fun s act s' hr hp _ hs => hp.step (fun _ _ _ _ h => h) ?_ hs
    · rintro _ ⟨p, rfl⟩
      exact .start srv p
    · intro i a ha hact hpend
      exact (hbest hr).captured _ ((serial hr).captured_of_pending ha hact hpend)
  intro who msg hm
  obtain ⟨l, -, hn, hsup⟩ := hpay.sent who msg hm
  exact hn ▸ hsup

/-- A settled round meets the condition of `bestContributed`. -/
theorem bestContributed_settledRound :
    ∃ s, Reach (machine (Replay.server .unavailable)) NoDisplacement s ∧
      (∃ ev ∈ s.journal, ev.2.mineSuccess.isSome) ∧ BestContributed s := by
  obtain ⟨s, hr, hs⟩ := exists_of_replay (Replay.server .unavailable) NoDisplacement
    (Replay.proofAt 1 0) Replay.settledRound
    (fun s => s.journal.any fun ev => ev.2.mineSuccess.isSome) (by decide +kernel)
  exact ⟨s, hr, by simpa using hs, bestContributed hr⟩

/-- Without the condition the best solution can be missing: its miner betters it while the
transaction is on its way. -/
theorem not_bestContributed :
    ¬ ∀ srv s, Reach (machine srv) Honest s → BestContributed s := by
  refine not_forall_of_replay (P := fun _ => BestContributed) (Replay.server .unavailable)
    (Replay.proofAt 1 0)
    (Replay.served ++ Replay.pause 60 ++ Replay.attempt (Replay.proofAt 1 0) ++
      Replay.solve 1 5 1 1 (Replay.solution 1 20) ++
      [.land 0 (Replay.proofAt 2 60), .submission (.outcome .ok),
      .notify 1 (Replay.proofAt 2 60)] ++ List.replicate 4 (.attender 0 .go))
    (fun s => s.journal.any fun ev => (ev.2.mineSuccess).any fun msg =>
      msg.contributions.entries.all fun c => decide (c.2.suppliedNonce ≠ msg.bestNonce))
    ?_ (by decide +kernel)
  intro s hs hc
  simp only [List.any_eq_true, Option.any_eq_true, List.all_eq_true, decide_eq_true_eq] at hs
  obtain ⟨⟨who, e⟩, hm, msg, he, hne⟩ := hs
  cases e <;> simp only [Effect.mineSuccess, reduceCtorEq, Option.some.injEq] at he
  subst he
  obtain ⟨pubkey, c, hl, hn⟩ := hc _ _ hm
  exact hne ⟨pubkey, c⟩ (AList.mem_lookup_iff.mp hl) hn

end OrePool
