import OrePool.Lemmas.Stages
import OrePool.Replay

/-!
# Landed work is not discarded

When no attempt of a round succeeded, the submission loop clears the contributions without a
payment.  `NoDiscard` says that it does so only when nothing has landed: no transaction of the
round, and the chain is still at the round's challenge.

The loop goes by what `send_and_confirm` returns, and a transaction can land although that was an
error; the next attempt then finds the solution outdated and leaves the loop (`not_noDiscard`).
If transactions land only while they are waited for, errors are only reported for transactions
that have not landed, and rounds begin for the challenge on chain, nothing landed is discarded
(`noDiscard`).
-/

namespace OrePool

open Interleaving

/-! ## The property -/

/-- **No discard.**  Whenever the submission loop is about to clear the contributions of a failed
round, no transaction of the round has landed and the chain is at the round's challenge. -/
def NoDiscard (s : Sys) : Prop :=
  ∀ r, s.submission.pc.clearing = some r →
    (∀ tx ∈ s.chain.txs, tx.round = r.id → tx.landed = false) ∧
      s.chain.challenge = some r.oldProof.challenge

/-! ## The conditions -/

/-- The round in whose attempts, or in the clean-up after them, the submission loop is. -/
def SubmissionPc.attempting : SubmissionPc → Option Round
  | .loadConfig r _ => some r
  | .clock r _ _ _ => some r
  | .send r _ _ _ => some r
  | .confirm r _ _ _ _ => some r
  | .failGetProof r => some r
  | .failWriteProof r _ => some r
  | .failResetNonce r => some r
  | .failResetEpoch r => some r
  | _ => none

/-- During the attempts of a round a transaction lands only while its own confirmation is waited
for, an error is reported only for a transaction that has not landed, and a round begins only for
the challenge on chain. -/
def LandingCondition (s : Sys) : Action → Prop
  | .land i _ => s.submission.pc.attempting.isSome → s.submission.pc.confirming = some i
  | .submission reply =>
      (∀ i ∈ s.submission.pc.confirming, reply ≠ .outcome .ok → s.chain.landed i = false) ∧
        ∀ r ∈ s.submission.pc.pausing, s.chain.challenge = some r.oldProof.challenge
  | _ => True

instance : DecidableRel LandingCondition := fun s act =>
  match act with
  | .land i _ =>
      inferInstanceAs (Decidable (s.submission.pc.attempting.isSome →
        s.submission.pc.confirming = some i))
  | .submission reply =>
      inferInstanceAs (Decidable ((∀ i ∈ s.submission.pc.confirming,
        reply ≠ .outcome .ok → s.chain.landed i = false) ∧
          ∀ r ∈ s.submission.pc.pausing, s.chain.challenge = some r.oldProof.challenge))
  | .notify .. | .connect .. | .disconnect .. | .receive .. | .ready .. | .best .. | .missions ..
  | .mission .. | .attender .. | .account .. => isTrue trivial

/-! ## Steps, as the chain sees them -/

/-- A step is one of the submission loop, a transaction landing, or one that leaves the loop, the
transactions and the challenge on chain alone. -/
inductive Sys.ChainMove (srv : Server) (s : Sys) (act : Action) (s' : Sys) : Prop
  | other (hsub : s'.submission = s.submission) (htxs : s'.chain.txs = s.chain.txs)
      (hch : s'.chain.challenge = s.chain.challenge)
  | submission (reply : Reply) (sub : Submitter) (e : Effect) (hact : act = .submission reply)
      (hs : s.submission.step srv s.shared s.attenders s.chain.txs reply = some (sub, e))
      (hsub : s'.submission = sub) (htxs : s'.chain.txs = s.chain.txs ++ e.tx)
      (hch : s'.chain.challenge = s.chain.challenge)
  | land (i : ℕ) (p : Proof) (tx : MineTx) (hact : act = .land i p)
      (htx : s.chain.txs[i]? = some tx) (hsub : s'.submission = s.submission)
      (htxs : s'.chain.txs = s.chain.txs.set i tx.land)

theorem Sys.step_chainMove {srv : Server} {s s' : Sys} {act : Action}
    (h : s.step srv act = some s') : Sys.ChainMove srv s act s' := by
  cases Sys.step_move h with
  | notify k p => exact .other rfl (by simp [Effect.tx]) rfl
  | connect _ _ => exact .other rfl (by simp [Effect.tx]) rfl
  | disconnect _ => exact .other rfl (by simp [Effect.tx]) rfl
  | receive who m =>
      obtain ⟨-, -, -, hsub, -, hchain, -⟩ := s.spawnFor_fields (received srv.signatures who m)
      exact .other (by simp [hsub]) (by simp [hchain, Effect.tx])
        (by simp [Chain.challenge, Chain.current, hchain])
  | ready _ => exact .other rfl (by simp [Effect.tx]) rfl
  | best ht hs =>
      exact .other rfl (by simp [Effect.tx_of_not_ofRound (BestTask.step_ofRound hs)]) rfl
  | missions hs =>
      exact .other rfl (by simp [Effect.tx_of_not_ofRound (ReadyPc.step_ofRound hs)]) rfl
  | mission ht hs =>
      exact .other rfl (by simp [Effect.tx_of_not_ofRound (MissionTask.step_ofRound hs)]) rfl
  | submission hs => exact .submission _ _ _ rfl hs rfl rfl rfl
  | attender ha hs => exact .other rfl (by simp [(Attender.step_spawns hs).2]) rfl
  | land htx _ _ _ _ => exact .land _ _ _ rfl htx rfl (by simp [Effect.tx])
  | account hc =>
      refine .other rfl (by simp [Effect.tx]) ?_
      simpa [Chain.challenge, Chain.current] using hc.symm

/-! ## Attempts -/

lemma Submitter.nextAttempt_attempting (sub : Submitter) (r : Round) (n : ℕ) :
    (sub.nextAttempt r n).pc.attempting = some r ∧ (sub.nextAttempt r n).pc.confirming = none ∧
      (sub.nextAttempt r n).pc.pausing = none ∧ (sub.nextAttempt r n).rounds = sub.rounds := by
  rcases sub.nextAttempt_pc r n with ⟨m, h⟩ | h <;> rw [h] <;> exact ⟨rfl, rfl, rfl, rfl⟩

/-- Inside a round the submission loop begins it, goes on without a transaction on its way, sends
one, or learns that its transaction failed. -/
lemma Submitter.step_attempting {srv : Server} {sh : Shared} {as : List Attender}
    {txs : List MineTx} {reply : Reply} {sub sub' : Submitter} {e : Effect} {r : Round}
    (h : sub.step srv sh as txs reply = some (sub', e)) (hr : sub'.pc.attempting = some r) :
    (sub.pc.pausing = some r ∧ sub'.pc.confirming = none ∧ e.tx = [] ∧
        sub'.rounds = sub.rounds + 1) ∨
      (sub.pc.attempting = some r ∧ sub'.rounds = sub.rounds ∧
        ((sub.pc.confirming = none ∧ sub'.pc.confirming = none ∧ e.tx = []) ∨
          (sub.pc.confirming = none ∧ sub'.pc.confirming = some txs.length ∧
            ∃ solution, e.tx = [⟨r.id, solution, false⟩]) ∨
          ∃ i, sub.pc.confirming = some i ∧ reply ≠ .outcome .ok ∧ sub'.pc.confirming = none ∧
            e.tx = [])) := by
  cases Submitter.step_move h with
  | pause hpc => exact .inl ⟨by rw [hpc]; exact hr, rfl, rfl, rfl⟩
  | noBest hpc _ | noBlockhash hpc =>
      obtain ⟨hatt, hconf, -, hrounds⟩ := Submitter.nextAttempt_attempting sub _ _
      rw [hatt] at hr
      exact .inr ⟨by rw [hpc]; exact hr, hrounds, .inl ⟨by rw [hpc]; rfl, hconf, rfl⟩⟩
  | send hpc =>
      obtain rfl := Option.some.inj hr
      exact .inr ⟨by rw [hpc]; rfl, rfl, .inr (.inl ⟨by rw [hpc]; rfl, rfl, _, rfl⟩)⟩
  | failed hpc hreply =>
      obtain ⟨hatt, hconf, -, hrounds⟩ := Submitter.nextAttempt_attempting sub _ _
      rw [hatt] at hr
      exact .inr ⟨by rw [hpc]; exact hr, hrounds,
        .inr (.inr ⟨_, by rw [hpc]; rfl, hreply, hconf, rfl⟩)⟩
  | hashInvalid hpc hreply =>
      exact .inr ⟨by rw [hpc]; exact hr, rfl,
        .inr (.inr ⟨_, by rw [hpc]; rfl, by simp [hreply], rfl, rfl⟩)⟩
  | _ =>
      simp_all [Submitter.goto, SubmissionPc.attempting, SubmissionPc.confirming, Effect.tx]

/-- A round is numbered when it is captured, and its transactions carry its number. -/
lemma Submitter.step_ids {srv : Server} {sh : Shared} {as : List Attender} {txs : List MineTx}
    {reply : Reply} {sub sub' : Submitter} {e : Effect}
    (h : sub.step srv sh as txs reply = some (sub', e)) :
    (∀ r, sub'.pc.pausing = some r → r.id = sub'.rounds) ∧ sub.rounds ≤ sub'.rounds ∧
      ∀ tx ∈ e.tx, ∃ r, sub.pc.attempting = some r ∧ tx.round = r.id := by
  cases Submitter.step_move h with
  | capture hpc _ hr => exact ⟨by simp [SubmissionPc.pausing, hr], le_rfl, nofun⟩
  | send hpc => exact ⟨nofun, le_rfl, by simp [Effect.tx, hpc, SubmissionPc.attempting]⟩
  | noBest | noBlockhash | failed =>
      obtain ⟨-, -, hpause, hrounds⟩ := Submitter.nextAttempt_attempting sub _ _
      exact ⟨by simp [hpause], hrounds.ge, nofun⟩
  | _ => simp_all [Submitter.goto, SubmissionPc.pausing, Effect.tx]

/-- Rounds are numbered in order, and every transaction belongs to a round that has begun. -/
structure RoundIds (s : Sys) : Prop where
  txs : ∀ tx ∈ s.chain.txs, tx.round < s.submission.rounds
  pausing : ∀ r, s.submission.pc.pausing = some r → r.id = s.submission.rounds
  attempting : ∀ r, s.submission.pc.attempting = some r → r.id < s.submission.rounds

theorem RoundIds.step {srv : Server} {s s' : Sys} {act : Action} (hi : RoundIds s)
    (hs : s.step srv act = some s') : RoundIds s' := by
  cases Sys.step_chainMove hs with
  | other hsub htxs _ => exact ⟨hsub ▸ htxs ▸ hi.txs, hsub ▸ hi.pausing, hsub ▸ hi.attempting⟩
  | submission reply sub e _ hstep hsub htxs _ =>
      subst hsub
      obtain ⟨hpause, hle, htx⟩ := Submitter.step_ids hstep
      refine ⟨?_, hpause, ?_⟩
      · intro tx h
        rcases List.mem_append.mp (htxs ▸ h) with h | h
        · exact Nat.lt_of_lt_of_le (hi.txs tx h) hle
        · obtain ⟨r, hr, hid⟩ := htx tx h
          exact hid ▸ Nat.lt_of_lt_of_le (hi.attempting r hr) hle
      · intro r hr
        rcases Submitter.step_attempting hstep hr with ⟨hp, -, -, hrounds⟩ | ⟨ha, hrounds, -⟩
        · rw [hrounds, hi.pausing r hp]
          exact Nat.lt_succ_self _
        · exact hrounds ▸ hi.attempting r ha
  | land i p tx _ htx hsub htxs =>
      refine ⟨?_, hsub ▸ hi.pausing, hsub ▸ hi.attempting⟩
      intro x hx
      rw [hsub]
      rcases List.mem_or_eq_of_mem_set (htxs ▸ hx) with hx | rfl
      · exact hi.txs x hx
      · exact hi.txs tx (List.mem_of_getElem? htx)

/-! ## Nothing lands unnoticed -/

/-- Inside a round nothing has landed but the transaction waited for. -/
structure Untouched (s : Sys) (r : Round) : Prop where
  landed : ∀ i tx, s.chain.txs[i]? = some tx → tx.round = r.id → tx.landed = true →
    s.submission.pc.confirming = some i
  challenge : s.chain.challenge = some r.oldProof.challenge ∨
    ∃ i ∈ s.submission.pc.confirming, s.chain.landed i = true

/-- Nothing of a round has landed, and the chain is at its challenge. -/
def Clean (s : Sys) (r : Round) : Prop :=
  (∀ tx ∈ s.chain.txs, tx.round = r.id → tx.landed = false) ∧
    s.chain.challenge = some r.oldProof.challenge

/-- A round is clean when the transaction waited for, if any, has not landed. -/
lemma Untouched.clean {s : Sys} {r : Round} (hu : Untouched s r)
    (hno : ∀ i ∈ s.submission.pc.confirming, s.chain.landed i = false) : Clean s r := by
  refine ⟨fun tx htx hid => ?_, hu.challenge.resolve_right fun ⟨i, hi, hl⟩ => ?_⟩
  · obtain ⟨i, hi⟩ := List.getElem?_of_mem htx
    by_contra hl
    have hfalse := hno i (hu.landed i tx hi hid (by simpa using hl))
    simp [Chain.landed, hi, hl] at hfalse
  · rw [hno i hi] at hl
    cases hl

lemma Clean.untouched {s : Sys} {r : Round} (hc : Clean s r) : Untouched s r := by
  refine ⟨?_, .inl hc.2⟩
  intro i tx hi hid hl
  rw [hc.1 tx (List.mem_of_getElem? hi) hid] at hl
  cases hl

/-- Every round in its attempts is untouched. -/
def AllUntouched (s : Sys) : Prop :=
  ∀ r, s.submission.pc.attempting = some r → Untouched s r

theorem AllUntouched.step {srv : Server} {s s' : Sys} {act : Action} (hu : AllUntouched s)
    (hid : RoundIds s) (hc : LandingCondition s act) (hs : s.step srv act = some s') :
    AllUntouched s' := by
  intro r hr
  cases Sys.step_chainMove hs with
  | other hsub htxs hch =>
      obtain ⟨hl, hcc⟩ := hu r (hsub ▸ hr)
      refine ⟨hsub ▸ htxs ▸ hl, ?_⟩
      simp only [hch, hsub, Chain.landed, htxs]
      exact hcc
  | land i p tx hact htx hsub htxs =>
      subst hact
      rw [hsub] at hr
      have hconf : s.submission.pc.confirming = some i := hc (by rw [hr]; rfl)
      refine ⟨?_, .inr ⟨i, by rw [hsub]; exact hconf, ?_⟩⟩
      · intro j x hx hid' hl
        rw [hsub]
        rw [htxs, slot_set htx] at hx
        split at hx
        · rename_i hij
          exact hij ▸ hconf
        · exact (hu r hr).landed j x hx hid' hl
      · simp [Chain.landed, htxs, slot_set htx, MineTx.land]
  | submission reply sub e hact hstep hsub htxs hch =>
      subst hact hsub
      rcases Submitter.step_attempting hstep hr with ⟨hp, -, htx, -⟩ | ⟨ha, -, h⟩
      · -- the round begins: no transaction is its own yet
        rw [htx, List.append_nil] at htxs
        refine ⟨?_, .inl (hch ▸ hc.2 r hp)⟩
        intro i x hx hxid _
        have hlt := hid.txs x (List.mem_of_getElem? (htxs ▸ hx))
        rw [hxid, hid.pausing r hp] at hlt
        exact absurd hlt (Nat.lt_irrefl _)
      · -- a transaction that was waited for has not landed, and one that is sent has not either
        obtain ⟨hno, hsent⟩ : (∀ i ∈ s.submission.pc.confirming, s.chain.landed i = false) ∧
            ∀ tx ∈ e.tx, tx.landed = false := by
          rcases h with ⟨hnone, -, htx⟩ | ⟨hnone, -, _, htx⟩ | ⟨i, hconf, hreply, -, htx⟩
          · simp [hnone, htx]
          · simp [hnone, htx]
          · exact ⟨fun j hj => hc.1 j hj hreply, by simp [htx]⟩
        obtain ⟨hclean, hchal⟩ := (hu r ha).clean hno
        refine Clean.untouched ⟨?_, hch ▸ hchal⟩
        intro tx hx hxid
        rcases List.mem_append.mp (htxs ▸ hx) with hx | hx
        · exact hclean tx hx hxid
        · exact hsent tx hx

/-- **No discard.**  In every run in which transactions land only while they are waited for,
errors are reported only for transactions that have not landed, and rounds begin for the
challenge on chain, the submission loop discards nothing that has landed. -/
theorem noDiscard {srv : Server} {s : Sys} (h : Reach (machine srv) LandingCondition s) :
    NoDiscard s := by
  have hids : ∀ {s}, Reach (machine srv) LandingCondition s → RoundIds s := by
    intro s h
    refine h.invariant ?_ fun s act s' _ hi _ hs => hi.step hs
    rintro _ ⟨p, rfl⟩
    exact ⟨by simp [Sys.start], nofun, nofun⟩
  have hall : AllUntouched s := by
    refine h.invariant ?_ fun s act s' hr hu hc hs => hu.step (hids hr) hc hs
    rintro _ ⟨p, rfl⟩ r hr
    cases hr
  intro r hr
  have hpc : s.submission.pc = .failResetEpoch r := by
    cases hpc : s.submission.pc <;> rw [hpc] at hr <;> cases hr
    rfl
  exact (hall r (by rw [hpc]; rfl)).clean (by simp [hpc, SubmissionPc.confirming])

/-- A failed round meets the condition of `noDiscard`. -/
theorem noDiscard_failedRound :
    ∃ s, Reach (machine (Replay.server .unavailable)) LandingCondition s ∧
      s.submission.pc.clearing.isSome ∧ s.chain.txs.length = 5 ∧ NoDiscard s := by
  obtain ⟨s, hr, hs⟩ := exists_of_replay (Replay.server .unavailable) LandingCondition
    (Replay.proofAt 1 0) Replay.failedRound.dropLast.dropLast
    (fun s => decide (s.submission.pc.clearing.isSome ∧ s.chain.txs.length = 5))
    (by decide +kernel)
  simp only [decide_eq_true_eq] at hs
  exact ⟨s, hr, hs.1, hs.2, noDiscard hr⟩

/-- Without the condition landed work can be discarded: the transaction lands and its
confirmation fails, the next attempt finds the solution outdated, and the loop goes on to clear
the contributions. -/
theorem not_noDiscard : ¬ ∀ srv s, Reach (machine srv) Honest s → NoDiscard s := by
  refine not_forall_of_replay (P := fun _ => NoDiscard) (Replay.server .unavailable)
    (Replay.proofAt 1 0)
    (Replay.served ++ Replay.pause 60 ++ Replay.attempt (Replay.proofAt 1 0) ++
      [.land 0 (Replay.proofAt 2 60), .submission (.outcome .otherError),
      .submission (.configAndProof (some (⟨1000⟩, Replay.proofAt 2 60))),
      .submission (.proof (some (Replay.proofAt 2 60)))] ++ List.replicate 2 (.submission .go))
    (fun s => s.submission.pc.clearing.any fun r =>
      s.chain.txs.any fun tx => decide (tx.round = r.id) && tx.landed)
    ?_ (by decide +kernel)
  intro s hs hc
  simp only [Option.any_eq_true, List.any_eq_true, Bool.and_eq_true, decide_eq_true_eq] at hs
  obtain ⟨r, hr, tx, htx, hid, hl⟩ := hs
  rw [(hc r hr).1 tx htx hid] at hl
  cases hl

end OrePool
