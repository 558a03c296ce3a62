import OrePool.Lemmas.Epoch

/-!
# Where a round stands

Two readings of an attender's position.  Its `Settlement` is how far it has got with the payment,
its `Stage` how much of the pool's state it has put back.  Read together with the submission
loop's own position the stage says whether the round is open: paused for, and the epoch not reset
yet.
-/

namespace OrePool

open Interleaving

/-! ## Settlement -/

/-- How far an attender has settled its round. -/
inductive Settlement
  | pending
  | snapshot (contributions : Contributions)
  | sent
  | closed
  /-- On the branch of an RPC answer, which does not settle. -/
  | bypassed

/-- The settlement at each position. -/
def AttenderPc.settlement : AttenderPc → Settlement
  | .sendMineSuccess _ _ contributions => .snapshot contributions
  | .writeProof _ => .sent
  | .resetNonce _ => .sent
  | .resetEpoch _ => .sent
  | .unpause => .closed
  | .signal => .closed
  | .ended .byTracker => .closed
  | .rpcWriteProof _ => .bypassed
  | .rpcReadProof _ => .bypassed
  | .rpcResetNonce _ _ => .bypassed
  | .rpcResetEpoch _ _ => .bypassed
  | .rpcUnpause _ => .bypassed
  | .rpcSignal _ => .bypassed
  | .rpcAddChallenge _ => .bypassed
  | .rpcFindChallenge _ => .bypassed
  | .ended .byRpc => .bypassed
  | _ => .pending

/-- The snapshot is taken, the reset still to come. -/
def Settlement.running : Settlement → Bool
  | .snapshot _ => true
  | .sent => true
  | _ => false

lemma Attender.active_of_running {a : Attender} (h : a.pc.settlement.running = true) :
    a.active := by
  rw [Attender.active]
  cases hpc : a.pc with
  | ended how => cases how <;> simp [hpc, AttenderPc.settlement, Settlement.running] at h
  | _ => simp_all [AttenderPc.settlement, Settlement.running, AttenderPc.oneshot]

/-- The message an effect sends for payment. -/
def Effect.mineSuccess : Effect → Option MessageInternalMineSuccess
  | .sendMineSuccess msg => some msg
  | _ => Option.none

/-! ## Stage -/

/-- How much of the restoration is done: the nonce, then the epoch as well, then the flag. -/
inductive Stage
  | nothing
  | nonce
  | epoch
  | all

/-- The stage an attender has reached. -/
def AttenderPc.stage : AttenderPc → Stage
  | .rpcResetEpoch _ _ => .nonce
  | .resetEpoch _ => .nonce
  | .rpcUnpause _ => .epoch
  | .unpause => .epoch
  | .rpcSignal _ => .all
  | .rpcAddChallenge _ => .all
  | .rpcFindChallenge _ => .all
  | .signal => .all
  | .ended .byRpc => .all
  | .ended .byTracker => .all
  | _ => .nothing

/-- The stage the round has reached; the loop waits while its attender restores. -/
def Submitter.stage (sub : Submitter) (attenders : List Attender) : Stage :=
  match sub.pc with
  | .await _ i => (attenders[i]?).elim .nothing (·.pc.stage)
  | .failResetEpoch _ => .nonce
  | .failUnpause _ => .epoch
  | .readOldProof | .readClock _ | .readBest _ | .readSockets _ _ | .capture _ _ | .pause _ => .all
  | _ => .nothing

/-- An attender that lets go of its round without giving up has restored everything. -/
lemma Attender.stage_of_not_active {a : Attender} (h : ¬ a.active)
    (hkeen : a.pc ≠ .ended .gaveUp) : a.pc.stage = .all := by
  rw [Attender.active] at h
  cases hpc : a.pc with
  | ended how =>
      cases how with
      | gaveUp => exact absurd hpc hkeen
      | byRpc | byTracker => rfl
  | _ => simp_all [AttenderPc.stage, AttenderPc.oneshot]

lemma Submitter.nextAttempt_stage (sub : Submitter) (r : Round) (n : ℕ)
    (as : List Attender) : (sub.nextAttempt r n).stage as = .nothing := by
  rcases sub.nextAttempt_pc r n with ⟨m, h⟩ | h <;> simp [Submitter.stage, h]

lemma Submitter.stage_await {sub : Submitter} {as : List Attender} {i : ℕ} {a : Attender}
    {r : Round} (h : sub.pc = .await r i) (ha : as[i]? = some a) : sub.stage as = a.pc.stage := by
  simp [Submitter.stage, h, ha]

/-- An attender nobody waits for does not count. -/
lemma Submitter.stage_set {sub : Submitter} {as : List Attender} {i : ℕ} {a a' : Attender}
    (ha : as[i]? = some a) (h : ∀ r, sub.pc ≠ .await r i) :
    sub.stage (as.set i a') = sub.stage as := by
  cases hpc : sub.pc with
  | await r j =>
      have hij : i ≠ j := by rintro rfl; exact h r hpc
      simp [Submitter.stage, hpc, slot_set ha, hij]
  | _ => simp [Submitter.stage, hpc]

/-! ## What an attender sends -/

/-- The snapshot is that of the contributions as they are. -/
lemma Attender.step_snapshot {srv : Server} {sh : Shared} {reply : Reply} {a a' : Attender}
    {e : Effect} {contributions : Contributions} (h : a.step srv sh reply = some (a', e))
    (hset : a'.pc.settlement = .snapshot contributions) :
    a.pc.settlement = .pending ∧ a.active ∧ contributions = sh.epochHashes.contributions := by
  cases Attender.step_move h with
  | snapshot hpc =>
      obtain rfl := Settlement.snapshot.inj hset
      simp [Attender.active, hpc, AttenderPc.settlement, AttenderPc.oneshot]
  | _ => cases hset

/-- The message sent carries the snapshot, for the round's challenge and solution. -/
lemma Attender.step_sends {srv : Server} {sh : Shared} {reply : Reply} {a a' : Attender}
    {msg : MessageInternalMineSuccess} (h : a.step srv sh reply = some (a', .sendMineSuccess msg)) :
    a.pc.settlement = .snapshot msg.contributions ∧ msg.challenge = a.oldProof.challenge ∧
      msg.bestNonce = a.landing.solution.nonce := by
  cases Attender.step_move h with
  | sendMineSuccess hpc => exact ⟨by rw [hpc]; rfl, rfl, rfl⟩

/-- Every message goes out with the total of its contributions. -/
lemma Attender.step_total {srv : Server} {sh : Shared} {reply : Reply} {a a' : Attender}
    {msg : MessageInternalMineSuccess} (h : a.step srv sh reply = some (a', .sendMineSuccess msg)) :
    msg.totalHashpower = totalHashpower msg.contributions := by
  cases Attender.step_move h with
  | sendMineSuccess hpc => rfl

lemma Submitter.step_not_sends {srv : Server} {sh : Shared} {as : List Attender}
    {txs : List MineTx} {reply : Reply} {sub sub' : Submitter} {msg : MessageInternalMineSuccess} :
    sub.step srv sh as txs reply ≠ some (sub', .sendMineSuccess msg) := by
  intro h
  cases Submitter.step_move h

/-- A message in the journal was there before, or an attender has just sent it. -/
lemma Sys.step_sent {srv : Server} {s s' : Sys} {act : Action} (hs : s.step srv act = some s')
    {who : Actor} {msg : MessageInternalMineSuccess}
    (hm : (who, Effect.sendMineSuccess msg) ∈ s'.journal) :
    (who, Effect.sendMineSuccess msg) ∈ s.journal ∨
      ∃ (i : ℕ) (reply : Reply) (a a' : Attender), s.attenders[i]? = some a ∧
        a.step srv s.shared reply = some (a', .sendMineSuccess msg) := by
  rcases Sys.step_roundMove hs with ⟨w, e, -, -, he, -, -, hj, -, -⟩ |
    ⟨reply, sub, e, -, hsub, rfl⟩ | ⟨i, reply, a, a', e, -, ha, hsa, rfl⟩
  · rw [hj, List.mem_cons, Prod.mk.injEq] at hm
    rcases hm with ⟨-, rfl⟩ | hm
    · cases he
    · exact .inl hm
  · rw [Sys.perform_journal, List.mem_cons, Prod.mk.injEq] at hm
    rcases hm with ⟨-, rfl⟩ | hm
    · exact absurd hsub Submitter.step_not_sends
    · exact .inl hm
  · rw [Sys.perform_journal, List.mem_cons, Prod.mk.injEq] at hm
    rcases hm with ⟨-, rfl⟩ | hm
    · exact .inr ⟨i, reply, a, a', ha, hsa⟩
    · exact .inl hm

/-- An attender was there before, has just been spawned, or has just moved. -/
lemma Sys.step_attender {srv : Server} {s s' : Sys} {act : Action} (hs : s.step srv act = some s')
    {b : Attender} (hb : b ∈ s'.attenders) :
    b ∈ s.attenders ∨ (∃ l, b = Attender.spawn l) ∨
      ∃ (i : ℕ) (reply : Reply) (a : Attender) (e : Effect), s.attenders[i]? = some a ∧
        a.step srv s.shared reply = some (b, e) := by
  rcases Sys.step_roundMove hs with ⟨w, e, -, -, -, -, -, -, -, hatt⟩ |
    ⟨reply, sub, e, -, -, rfl⟩ | ⟨i, reply, a, a', e, -, ha, hsa, rfl⟩
  · exact .inl (hatt ▸ hb)
  · rcases List.mem_append.mp hb with hb | hb
    · exact .inl hb
    · cases e <;> simp only [Effect.attender, List.not_mem_nil, List.mem_singleton] at hb
      exact .inr (.inl ⟨_, hb⟩)
  · simp only [Sys.perform_attenders, (Attender.step_spawns hsa).1, List.append_nil] at hb
    rcases List.mem_or_eq_of_mem_set hb with hb | rfl
    · exact .inl hb
    · exact .inr (.inr ⟨i, reply, a, e, ha, hsa⟩)

/-- The journal grows by one event a step. -/
lemma Sys.step_journal {srv : Server} {s s' : Sys} {act : Action}
    (hs : s.step srv act = some s') : ∃ ev, s'.journal = ev :: s.journal := by
  rcases Sys.step_roundMove hs with ⟨_, _, -, -, -, -, -, hj, -, -⟩ | ⟨_, _, _, -, -, rfl⟩ |
    ⟨_, _, _, _, _, -, -, -, rfl⟩
  · exact ⟨_, hj⟩
  · exact ⟨_, rfl⟩
  · exact ⟨_, rfl⟩

/-! ## Payments -/

/-- `P`, which may speak of the journal, holds of what is snapshot for a landing, and of what has
been sent for one. -/
structure Payments (P : List Event → Landing → Contributions → Prop) (s : Sys) : Prop where
  snapshot : ∀ a ∈ s.attenders, ∀ contributions, a.pc.settlement = .snapshot contributions →
    P s.journal a.landing contributions
  sent : ∀ who msg, (who, Effect.sendMineSuccess msg) ∈ s.journal →
    ∃ l : Landing, msg.challenge = l.round.oldProof.challenge ∧
      msg.bestNonce = l.solution.nonce ∧ P s.journal l msg.contributions

/-- For payments to have a property it is enough that the contributions have it whenever an
attender can take its snapshot. -/
theorem Payments.step {P : List Event → Landing → Contributions → Prop}
    (hmono : ∀ ev j l c, P j l c → P (ev :: j) l c) {srv : Server} {s s' : Sys} {act : Action}
    (hp : Payments P s)
    (hnow : ∀ (i : ℕ) (a : Attender), s.attenders[i]? = some a → a.active →
      a.pc.settlement = .pending → P s.journal a.landing s.shared.epochHashes.contributions)
    (hs : s.step srv act = some s') : Payments P s' := by
  obtain ⟨ev, hj⟩ := Sys.step_journal hs
  refine ⟨?_, ?_⟩
  · intro b hb c hset
    rw [hj]
    apply hmono
    rcases Sys.step_attender hs hb with hb | ⟨l, rfl⟩ | ⟨i, reply, a, e, ha, hsa⟩
    · exact hp.snapshot b hb c hset
    · cases hset
    · obtain ⟨hpend, hact, rfl⟩ := Attender.step_snapshot hsa hset
      rw [Attender.step_landing hsa]
      exact hnow i a ha hact hpend
  · intro w msg hm
    rw [hj]
    rcases Sys.step_sent hs hm with hm | ⟨i, reply, a, a', ha, hsa⟩
    · obtain ⟨l, hch, hn, hP⟩ := hp.sent w msg hm
      exact ⟨l, hch, hn, hmono _ _ _ _ hP⟩
    · obtain ⟨hset, hch, hn⟩ := Attender.step_sends hsa
      have hP := hp.snapshot a (List.mem_of_getElem? ha) _ hset
      exact ⟨a.landing, hch, hn, hmono _ _ _ _ hP⟩

theorem Payments.start {P : List Event → Landing → Contributions → Prop} (srv : Server)
    (p : Proof) : Payments P (Sys.start srv p) :=
  ⟨by simp [Sys.start], by simp [Sys.start]⟩

/-! ## Open rounds -/

/-- The epoch of the round is still to be reset. -/
def Stage.beforeReset : Stage → Bool
  | .nothing => true
  | .nonce => true
  | _ => false

/-- The round that has been paused for and whose epoch has not been reset yet. -/
def Sys.openRound (s : Sys) : Option Round :=
  if (s.submission.stage s.attenders).beforeReset then s.submission.pc.round else none

/-- The round about to be paused for. -/
def SubmissionPc.pausing : SubmissionPc → Option Round
  | .pause r => some r
  | _ => none

lemma Attender.step_beforeReset {srv : Server} {sh : Shared} {reply : Reply} {a a' : Attender}
    {e : Effect} (h : a.step srv sh reply = some (a', e))
    (hbefore : a'.pc.stage.beforeReset = true) :
    a.pc.stage.beforeReset = true ∧ e.opens = false := by
  cases Attender.step_move h <;>
    simp_all [Attender.goto, AttenderPc.stage, Stage.beforeReset, Effect.opens]

lemma Submitter.nextAttempt_round (sub : Submitter) (r : Round) (n : ℕ) :
    (sub.nextAttempt r n).pc.round = some r := by
  rcases sub.nextAttempt_pc r n with ⟨m, h⟩ | h <;> rw [h] <;> rfl

/-- The submission loop stays with its round until it resets the epoch or is released. -/
lemma Submitter.step_round {srv : Server} {sh : Shared} {as : List Attender} {txs : List MineTx}
    {reply : Reply} {sub sub' : Submitter} {e : Effect} {r : Round}
    (h : sub.step srv sh as txs reply = some (sub', e))
    (hbefore : (sub'.stage (as ++ e.attender)).beforeReset = true) (hr : sub'.pc.round = some r) :
    e.opens = false ∧ (sub.pc.pausing = some r ∨
      (sub.stage as).beforeReset = true ∧ sub.pc.round = some r) := by
  cases Submitter.step_move h with
  | pause hpc => exact ⟨rfl, .inl (by rw [hpc]; exact hr)⟩
  | noBest hpc _ | noBlockhash hpc | failed hpc _ =>
      rw [Submitter.nextAttempt_round] at hr
      exact ⟨rfl, .inr (by rw [Submitter.stage, hpc]; exact ⟨rfl, hr⟩)⟩
  | _ =>
      simp_all [Submitter.goto, Submitter.stage, Stage.beforeReset, SubmissionPc.round,
        Effect.opens]

lemma Shared.apply_epoch_of_not_opens {e : Effect} (h : e.opens = false) (sh : Shared) :
    (sh.apply e).ghost.epoch = sh.ghost.epoch := by
  cases e <;> first | rfl | cases h

/-- An attender nobody waits for opens no epoch. -/
lemma Serial.not_opens {s : Sys} (hi : Serial s) {srv : Server} {i : ℕ} {reply : Reply}
    {a a' : Attender} {e : Effect} (ha : s.attenders[i]? = some a)
    (hsa : a.step srv s.shared reply = some (a', e)) (hw : ¬ ∃ r, s.submission.pc = .await r i) :
    e.opens = false := by
  cases e with
  | resetEpoch _ _ _ =>
      obtain ⟨hpc, -⟩ := Attender.step_reset hsa
      exact absurd (hi.active i a ha (Attender.active_of_resetting hpc)) hw
  | _ => rfl

/-- **Open rounds.**  A round is open from its pause on, and as long as it is open no step resets
the epoch. -/
theorem Sys.step_openRound {srv : Server} {s s' : Sys} {act : Action} (hi : Serial s)
    (hs : s.step srv act = some s') {r : Round} (hr : s'.openRound = some r) :
    s'.shared.ghost.epoch = s.shared.ghost.epoch ∧
      (s.openRound = some r ∨
        ∃ reply, act = .submission reply ∧ s.submission.pc.pausing = some r) := by
  simp only [Sys.openRound, Option.ite_none_right_eq_some] at hr ⊢
  rcases Sys.step_roundMove hs with ⟨who, e, -, -, he, -, hsh, -, hsub, hatt⟩ |
    ⟨reply, sub, e, rfl, hsub, rfl⟩ | ⟨i, reply, a, a', e, rfl, ha, hsa, rfl⟩
  · rw [hsub, hatt] at hr
    have ho : e.opens = false := by cases e <;> first | rfl | cases he
    exact ⟨hsh ▸ Shared.apply_epoch_of_not_opens ho _, .inl hr⟩
  · obtain ⟨ho, h⟩ := Submitter.step_round hsub hr.1 hr.2
    refine ⟨Shared.apply_epoch_of_not_opens ho _, ?_⟩
    rcases h with hp | h
    · exact .inr ⟨reply, rfl, hp⟩
    · exact .inl h
  · obtain ⟨hspawn, -⟩ := Attender.step_spawns hsa
    simp only [Sys.perform_submission, Sys.perform_attenders, hspawn, List.append_nil] at hr
    by_cases hw : ∃ r, s.submission.pc = .await r i
    · -- the awaited attender is at work on the round
      obtain ⟨r', hw⟩ := hw
      rw [Submitter.stage_await hw (a := a') (by simp [slot_set ha])] at hr
      obtain ⟨hb, ho⟩ := Attender.step_beforeReset hsa hr.1
      rw [Submitter.stage_await hw ha]
      exact ⟨Shared.apply_epoch_of_not_opens ho _, .inl ⟨hb, hr.2⟩⟩
    · -- any other has let go of its round
      rw [Submitter.stage_set ha fun r hr => hw ⟨r, hr⟩] at hr
      exact ⟨Shared.apply_epoch_of_not_opens (hi.not_opens ha hsa hw) _, .inl hr⟩

end OrePool
