import OrePool.Lemmas.Stages
import OrePool.Lemmas.Submissions
import OrePool.Replay

/-!
# Epochs do not mix

An epoch belongs to the challenge its opening reset names.  `Isolated` says that only solutions
checked against that challenge are recorded in it, and that a payment for a challenge carries
contributions checked against that challenge.

The check reads `app_proof` under one lock and the insert happens later under another.  In
between the epoch can be reset (`not_isolated`); and `app_proof` can be ahead of the epoch when
the check reads it, or ahead of a round when the round begins.  In runs without any of these the
epochs do not mix (`isolated`).
-/

namespace OrePool

open Interleaving

/-! ## The property -/

/-- A submission was checked against a challenge and found valid. -/
structure Server.Checked (srv : Server) (sub : Submission) (challenge : Challenge) : Prop where
  against : sub.challenge = challenge
  valid : srv.drillx.isValid sub.solution challenge = true

/-- Every one of the contributions was inserted for a submission checked against `challenge`. -/
def Server.AllChecked (srv : Server) (j : List Event) (contributions : Contributions)
    (challenge : Challenge) : Prop :=
  ∀ pubkey c, contributions.lookup pubkey = some c → ∃ who sub,
    (who, Effect.insertContribution sub) ∈ j ∧ sub.pubkey = pubkey ∧ sub.contribution = c ∧
      srv.Checked sub challenge

/-- **Isolation.**  What is recorded in an epoch was checked against the epoch's challenge, its
best solution too, and what is paid for a challenge was checked against that challenge. -/
structure Isolated (srv : Server) (s : Sys) : Prop where
  recorded : ∀ sub ∈ s.recorded, srv.Checked sub s.shared.ghost.epoch
  bestHash : ∀ solution, s.shared.epochHashes.bestHash.solution = some solution →
    ∃ sub ∈ s.recorded, sub.solution = solution ∧ srv.Checked sub s.shared.ghost.epoch
  paid : ∀ who msg, (who, Effect.sendMineSuccess msg) ∈ s.journal →
    srv.AllChecked s.journal msg.contributions msg.challenge

/-! ## The three ways it goes wrong -/

/-- The task is about to check its solution. -/
def BestPc.checking : BestPc → Bool
  | .readProof _ _ => true
  | _ => false

/-- A solution that passes is checked against the challenge of the running epoch. -/
def ChecksCurrent (srv : Server) (s : Sys) : Action → Prop
  | .best i => ∀ t ∈ s.bestTasks[i]?, t.pc.checking = true →
      srv.drillx.isValid t.solution s.shared.appProof.challenge = true →
      s.shared.appProof.challenge = s.shared.ghost.epoch
  | _ => True

/-- A reset overtakes no submission that was checked against another challenge than that of the
epoch it opens. -/
def ResetsClean (s : Sys) (act : Action) : Prop :=
  ∀ opened ∈ s.opening act, ∀ t ∈ s.bestTasks, ∀ sub ∈ t.pc.carrying, sub.challenge = opened

/-- A round begins for the challenge of the running epoch. -/
def RoundsCurrent (s : Sys) : Action → Prop
  | .submission _ => ∀ r ∈ s.submission.pc.pausing, r.oldProof.challenge = s.shared.ghost.epoch
  | _ => True

/-- The runs in which none of this goes wrong. -/
def IsolationCondition (srv : Server) (s : Sys) (act : Action) : Prop :=
  ChecksCurrent srv s act ∧ ResetsClean s act ∧ RoundsCurrent s act

instance (srv : Server) : DecidableRel (ChecksCurrent srv) := fun s act =>
  match act with
  | .best i =>
      inferInstanceAs (Decidable (∀ t ∈ s.bestTasks[i]?, t.pc.checking = true →
        srv.drillx.isValid t.solution s.shared.appProof.challenge = true →
        s.shared.appProof.challenge = s.shared.ghost.epoch))
  | .notify .. | .connect .. | .disconnect .. | .receive .. | .ready .. | .missions ..
  | .mission .. | .submission .. | .attender .. | .land .. | .account .. => isTrue trivial

instance : DecidableRel ResetsClean := fun s act =>
  inferInstanceAs (Decidable (∀ opened ∈ s.opening act, ∀ t ∈ s.bestTasks,
    ∀ sub ∈ t.pc.carrying, sub.challenge = opened))

instance : DecidableRel RoundsCurrent := fun s act =>
  match act with
  | .submission _ =>
      inferInstanceAs (Decidable (∀ r ∈ s.submission.pc.pausing,
        r.oldProof.challenge = s.shared.ghost.epoch))
  | .notify .. | .connect .. | .disconnect .. | .receive .. | .ready .. | .best .. | .missions ..
  | .mission .. | .attender .. | .land .. | .account .. => isTrue trivial

instance (srv : Server) : DecidableRel (IsolationCondition srv) := fun s act =>
  inferInstanceAs (Decidable (ChecksCurrent srv s act ∧ ResetsClean s act ∧ RoundsCurrent s act))

/-! ## Submissions -/

/-- What is carried or recorded was checked against the challenge of the running epoch. -/
structure CheckedFlow (srv : Server) (s : Sys) : Prop where
  carried : ∀ t ∈ s.bestTasks, ∀ sub ∈ t.pc.carrying, srv.Checked sub s.shared.ghost.epoch
  recorded : ∀ sub ∈ s.recorded, srv.Checked sub s.shared.ghost.epoch

theorem CheckedFlow.step {srv : Server} {s s' : Sys} {act : Action} (hi : CheckedFlow srv s)
    (hc : IsolationCondition srv s act) (hs : s.step srv act = some s') : CheckedFlow srv s' := by
  cases Sys.step_taskMove hs with
  | other who e hj hsh hacc hins htasks =>
      have hnew : ∀ u ∈ s'.bestTasks, ∀ sub ∈ u.pc.carrying,
          ∃ t ∈ s.bestTasks, sub ∈ t.pc.carrying := by
        intro u hu sub hsub
        rcases htasks with h | ⟨addr, solution, pubkey, h, -⟩
        · exact ⟨u, h ▸ hu, hsub⟩
        · rcases List.mem_append.mp (h ▸ hu) with hu | hu
          · exact ⟨u, hu, hsub⟩
          · simp [List.mem_singleton.mp hu, BestTask.spawn, BestPc.carrying] at hsub
      cases ho : e.opens with
      | true =>
          -- a new epoch: the carried submissions were checked against its challenge already
          have hopen := Sys.opening_of_opens hs hj ho
          refine ⟨?_, by simp [Sys.recorded_opens hj ho]⟩
          intro u hu sub hsub
          obtain ⟨t, ht, hcar⟩ := hnew u hu sub hsub
          have hch := hc.2.1 _ hopen t ht sub hcar
          have hold := hi.carried t ht sub hcar
          exact ⟨hch, hch ▸ hold.against ▸ hold.valid⟩
      | false =>
          have hep : s'.shared.ghost.epoch = s.shared.ghost.epoch :=
            hsh ▸ Shared.apply_epoch_of_not_opens ho _
          have hrec : s'.recorded = s.recorded := by rw [Sys.recorded_cons hj ho, hins]; rfl
          refine ⟨?_, hep ▸ hrec ▸ hi.recorded⟩
          intro u hu sub hsub
          obtain ⟨t, ht, hcar⟩ := hnew u hu sub hsub
          exact hep ▸ hi.carried t ht sub hcar
  | task i t t' e hact ht hmove hs' =>
      subst hact hs'
      have hold := hi.carried t (List.mem_of_getElem? ht)
      obtain ⟨ho, hcar, hins⟩ : e.opens = false ∧
          (∀ sub ∈ t'.pc.carrying, srv.Checked sub s.shared.ghost.epoch) ∧
          ∀ sub ∈ e.inserted, srv.Checked sub s.shared.ghost.epoch := by
        cases hmove with
        | refuse _ _ _ | inRange _ _ _ | socket _ _ | drop _ | discard _ _ _ =>
            exact ⟨rfl, by simp [BestPc.carrying], by simp [Effect.inserted]⟩
        | accept hpc hv _ hsub =>
            refine ⟨rfl, ?_, by simp [Effect.inserted]⟩
            intro sub h
            simp only [BestPc.carrying, Option.mem_some_iff] at h
            subst h hsub
            have hcur := hc.1 t ht (by rw [hpc]; rfl) hv
            exact ⟨hcur, hcur ▸ hv⟩
        | decide hpc _ _ =>
            exact ⟨rfl, by simpa [hpc, BestPc.carrying] using hold, by simp [Effect.inserted]⟩
        | write hpc =>
            exact ⟨rfl, by simp [BestPc.carrying],
              by simpa [hpc, BestPc.carrying, Effect.inserted] using hold⟩
      have hep : (s.shared.apply e).ghost.epoch = s.shared.ghost.epoch :=
        Shared.apply_epoch_of_not_opens ho _
      refine ⟨?_, ?_⟩
      · intro u hu sub hsub
        rw [Sys.perform_shared, hep]
        rcases List.mem_or_eq_of_mem_set hu with hu | rfl
        · exact hi.carried u hu sub hsub
        · exact hcar sub hsub
      · intro sub hsub
        rw [Sys.recorded_cons rfl ho, List.mem_append, Option.mem_toList] at hsub
        rw [Sys.perform_shared, hep]
        exact hsub.elim (hins sub) (hi.recorded sub)

/-! ## Rounds and payments -/

/-- An open round is for the challenge of the running epoch. -/
def OpenRoundCurrent (s : Sys) : Prop :=
  ∀ r, s.openRound = some r → r.oldProof.challenge = s.shared.ghost.epoch

theorem OpenRoundCurrent.step {srv : Server} {s s' : Sys} {act : Action} (ho : OpenRoundCurrent s)
    (hi : Serial s) (hc : RoundsCurrent s act) (hs : s.step srv act = some s') :
    OpenRoundCurrent s' := by
  intro r hr
  obtain ⟨hep, h⟩ := Sys.step_openRound hi hs hr
  rw [hep]
  rcases h with h | ⟨reply, rfl, hp⟩
  · exact ho r h
  · exact hc r hp

lemma Server.AllChecked.cons {srv : Server} {j : List Event} {contributions : Contributions}
    {challenge : Challenge} (h : srv.AllChecked j contributions challenge) (ev : Event) :
    srv.AllChecked (ev :: j) contributions challenge := by
  intro pubkey c hl
  obtain ⟨who, sub, hm, hrest⟩ := h pubkey c hl
  exact ⟨who, sub, List.mem_cons_of_mem _ hm, hrest⟩

/-- The contributions of the running epoch were checked against its challenge. -/
lemma CheckedFlow.allChecked {srv : Server} {C : Sys → Action → Prop} {s : Sys}
    (hi : CheckedFlow srv s) (h : Reach (machine srv) C s) :
    srv.AllChecked s.journal s.shared.epochHashes.contributions s.shared.ghost.epoch := by
  intro pubkey c hl
  obtain ⟨sub, hsub, hpk, hcon⟩ := recorded_of_lookup h hl
  obtain ⟨who, hm⟩ := Sys.mem_recorded hsub
  exact ⟨who, sub, mem_of_mem_since hm, hpk, hcon, hi.recorded sub hsub⟩

/-- An active attender's round is open, unless it has reset the epoch. -/
lemma Serial.openRound_of_pending {s : Sys} (hi : Serial s) {i : ℕ} {a : Attender}
    (ha : s.attenders[i]? = some a) (hact : a.active) (hset : a.pc.settlement = .pending) :
    s.openRound = some a.landing.round := by
  obtain ⟨r, hpc⟩ := hi.active i a ha hact
  obtain ⟨b, hb, hround, -⟩ := hi.awaited r i hpc
  rw [ha, Option.some.injEq] at hb
  subst hb
  have hstage : a.pc.stage.beforeReset = true := by
    cases h : a.pc with
    | ended how => cases how <;> simp_all [Attender.active, AttenderPc.oneshot]
    | _ => simp_all [AttenderPc.settlement, AttenderPc.stage, Stage.beforeReset]
  simp [Sys.openRound, Submitter.stage_await hpc ha, hstage, hpc, SubmissionPc.round, hround]

/-- **Isolation.**  In every run in which solutions are checked against the running epoch's
challenge, resets overtake no submission checked against another challenge, and rounds begin for
the running epoch, the epochs do not mix. -/
theorem isolated {srv : Server} {s : Sys} (h : Reach (machine srv) (IsolationCondition srv) s) :
    Isolated srv s := by
  have hflow : ∀ {s}, Reach (machine srv) (IsolationCondition srv) s → CheckedFlow srv s := by
    intro s h
    refine h.invariant ?_ fun s act s' _ hi hc hs => hi.step hc hs
    rintro _ ⟨p, rfl⟩
    exact ⟨by simp [Sys.start], by simp [Sys.start, Sys.recorded, Sys.epochJournal]⟩
  have hopen : ∀ {s}, Reach (machine srv) (IsolationCondition srv) s → OpenRoundCurrent s := by
    intro s h
    refine h.invariant ?_ fun s act s' hr hi hc hs => hi.step (serial hr) hc.2.2 hs
    rintro _ ⟨p, rfl⟩ r hr
    cases hr
  have hpay : Payments (fun j l contributions =>
      srv.AllChecked j contributions l.round.oldProof.challenge) s := by
    refine h.invariant ?_ fun s act s' hr hp _ hs => hp.step (fun _ _ _ _ h => h.cons _) ?_ hs
    · rintro _ ⟨p, rfl⟩
      exact .start srv p
    · -- the snapshot is of the running epoch, which is the round's
      intro i a ha hact hpend
      rw [hopen hr _ ((serial hr).openRound_of_pending ha hact hpend)]
      exact (hflow hr).allChecked hr
  refine ⟨(hflow h).recorded, ?_, ?_⟩
  · intro solution hb
    obtain ⟨sub, hsub, hsol⟩ := recorded_of_best h hb
    exact ⟨sub, hsub, hsol, (hflow h).recorded sub hsub⟩
  · intro who msg hm
    obtain ⟨l, hch, -, hall⟩ := hpay.sent who msg hm
    exact hch ▸ hall

/-- Two epochs with a payment for the first meet the condition of `isolated`. -/
theorem isolated_settledRound :
    ∃ s, Reach (machine (Replay.server .unavailable))
        (IsolationCondition (Replay.server .unavailable)) s ∧
      s.recorded.length = 1 ∧ Isolated (Replay.server .unavailable) s := by
  obtain ⟨s, hr, hs⟩ := exists_of_replay (Replay.server .unavailable)
    (IsolationCondition (Replay.server .unavailable)) (Replay.proofAt 1 0)
    (Replay.settledRound ++ Replay.mission 1 1 ++
      Replay.solve 1 5 1 1 (Replay.solution 2 10))
    (fun s => decide (s.recorded.length = 1)) (by decide +kernel)
  exact ⟨s, hr, by simpa using hs, isolated hr⟩

/-- Without the condition epochs can mix: a submission checked against the first challenge is
inserted after the reset that opens the second epoch. -/
theorem not_isolated : ¬ ∀ srv s, Reach (machine srv) Honest s → Isolated srv s := by
  refine not_forall_of_replay (P := Isolated) (Replay.server .unavailable) (Replay.proofAt 1 0)
    (Replay.served ++ Replay.solve 1 4 1 1 (Replay.solution 1 20) ++ Replay.pause 60 ++
      Replay.attempt (Replay.proofAt 1 0) ++ [.land 0 (Replay.proofAt 2 60),
      .submission (.outcome .ok), .notify 1 (Replay.proofAt 2 60)] ++
      List.replicate 9 (.attender 0 .go) ++ [.best 1])
    (fun s => s.recorded.any fun sub => decide (sub.challenge ≠ s.shared.ghost.epoch))
    ?_ (by decide +kernel)
  intro s hs hc
  simp only [List.any_eq_true, decide_eq_true_eq] at hs
  obtain ⟨sub, hsub, hne⟩ := hs
  exact hne (hc.recorded sub hsub).against

end OrePool
