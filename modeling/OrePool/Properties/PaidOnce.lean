import OrePool.Core.Growth
import OrePool.Lemmas.Cutoffs
import OrePool.Lemmas.Split
import OrePool.Lemmas.Stages
import OrePool.Properties.ProofVersions

/-!
# What the proof gains is paid once

A round pays the difference between the balance its attender finds and the balance the round was
begun with.  The two are read from `app_proof` at different times by different tasks, and nothing
compares what one round has been paid for with what the next one starts from.  `PaidOnce` says that
the rewards sent for payment over a whole run are covered by what the balance of the proof account
has grown by.

The websocket may be late and `app_proof` may go back: the proof an attender pays for has come
over the websocket, and what comes over the websocket later is later.  So the intervals between
the versions the rounds are paid for do not overlap, and an interval that runs backwards pays
nothing (`paidOnce`), unless there was a claim in it (`not_paidOnce`).
-/

namespace OrePool

open Growth Interleaving

/-! ## The property -/

/-- The balance of the proof account at version `k`. -/
def Chain.balance (c : Chain) (k : ℕ) : ℕ := (c.versions[k]?).elim 0 fun p => p.balance.toNat

/-- How much the balance has grown since the server was started, not counting what was claimed. -/
def Chain.growth (c : Chain) : ℕ := Growth.growth c.balance (c.versions.length - 1)

/-- The reward an effect sends for payment, nothing if it is negative. -/
def Effect.promises (e : Effect) : ℕ := e.mineSuccess.elim 0 fun msg => msg.rewards.toInt.toNat

/-- All that has been sent for payment. -/
def promised (j : List Event) : ℕ := (j.map fun ev => ev.2.promises).sum

/-- **Paid once.**  The rewards sent are covered by the growth of the balance; if nothing was ever
claimed, that is the difference to the balance at the start. -/
structure PaidOnce (s : Sys) : Prop where
  covered : promised s.journal ≤ s.chain.growth
  unclaimed : Rising s.chain.balance 0 (s.chain.versions.length - 1) →
    promised s.journal + s.chain.balance 0 ≤ s.chain.balance (s.chain.versions.length - 1)

/-- The balances the proof account has had are below 2^63, as the supply of the token is. -/
def SmallBalances (s : Sys) : Prop := ∀ p ∈ s.chain.versions, p.balance.toNat < 2 ^ 63

/-- A notification that comes after a later version does not take `app_proof` back behind a
claim. -/
def ClaimsKept (x : Sys × VersionNotes) : Action → Prop
  | .notify k _ => Rising x.1.chain.balance k x.2.held
  | _ => True

instance (s : Sys) : Decidable (SmallBalances s) := inferInstanceAs (Decidable (∀ p ∈ _, _))

instance : DecidableRel ClaimsKept := fun x act =>
  match act with
  | .notify k _ => inferInstanceAs (Decidable (Rising x.1.chain.balance k x.2.held))
  | .connect .. | .disconnect .. | .receive .. | .ready .. | .best .. | .missions ..
  | .mission .. | .submission .. | .attender .. | .land .. | .account .. => isTrue trivial

/-! ## Rewards -/

/-- The difference of two small balances comes out with its sign. -/
lemma toInt_sub_toInt64 {x y : UInt64} (hx : x.toNat < 2 ^ 63) (hy : y.toNat < 2 ^ 63) :
    (x - y).toInt64.toInt = (x.toNat : ℤ) - y.toNat := by
  have hmax : Int64.maxValue.toInt = 2 ^ 63 - 1 := rfl
  have hmin : Int64.minValue.toInt = -2 ^ 63 := rfl
  rw [UInt64.toInt64_sub, Int64.toInt_sub, toInt_toInt64_of_lt hx, toInt_toInt64_of_lt hy]
  exact bmod_of_fits (by omega) (by omega)

/-- A reward is the rise between the two versions it was worked out from. -/
lemma SmallBalances.rewards {s : Sys} (hsmall : SmallBalances s) {a : Attender} (id : Int64)
    {latestProof : Proof} (contributions : Contributions) {base latest : ℕ}
    (hbase : s.chain.versions[base]? = some a.oldProof)
    (hlatest : s.chain.versions[latest]? = some latestProof) :
    (a.mineSuccess id latestProof contributions).rewards.toInt.toNat =
      s.chain.balance latest - s.chain.balance base := by
  have hold := hsmall _ (List.mem_of_getElem? hbase)
  have hnew := hsmall _ (List.mem_of_getElem? hlatest)
  have hdiff : (a.mineSuccess id latestProof contributions).rewards.toInt =
      (latestProof.balance.toNat : ℤ) - a.oldProof.balance.toNat := toInt_sub_toInt64 hnew hold
  rw [hdiff, Chain.balance, Chain.balance, hbase, hlatest, Option.elim_some, Option.elim_some]
  omega

/-! ## The proof a round starts from -/

/-- The payment is still to come. -/
def Settlement.due : Settlement → Bool
  | .pending => true
  | .snapshot _ => true
  | _ => false

/-- The proof the submission loop goes by, as long as the round may still succeed. -/
def SubmissionPc.oldProof : SubmissionPc → Option Proof
  | .readClock oldProof => some oldProof
  | .readBest oldProof => some oldProof
  | .readSockets oldProof _ => some oldProof
  | .capture oldProof _ => some oldProof
  | .pause r => some r.oldProof
  | .loadConfig r _ => some r.oldProof
  | .clock r _ _ _ => some r.oldProof
  | .send r _ _ _ => some r.oldProof
  | .confirm r _ _ _ _ => some r.oldProof
  | .await r _ => some r.oldProof
  | _ => none

/-- The proof from which a payment still to come will be counted. -/
def Sys.basis (s : Sys) : Option Proof :=
  match s.submission.pc with
  | .await _ i =>
      (s.attenders[i]?).bind fun a => if a.pc.settlement.due then some a.oldProof else none
  | pc => pc.oldProof

lemma Sys.basis_of_not_await {s : Sys} (h : ∀ r i, s.submission.pc ≠ .await r i) :
    s.basis = s.submission.pc.oldProof := by
  rw [Sys.basis]
  split
  · exact absurd ‹_› (h _ _)
  · rfl

lemma Sys.basis_of_await {s : Sys} {r : Round} {i : ℕ} {a : Attender}
    (h : s.submission.pc = .await r i) (ha : s.attenders[i]? = some a) :
    s.basis = if a.pc.settlement.due then some a.oldProof else none := by
  rw [Sys.basis, h]
  simp only [ha, Option.bind_some]

/-- The submission loop keeps the proof it has read, until it reads the next. -/
lemma Submitter.step_oldProof {srv : Server} {sh : Shared} {as : List Attender}
    {txs : List MineTx} {reply : Reply} {sub sub' : Submitter} {e : Effect} {p : Proof}
    (h : sub.step srv sh as txs reply = some (sub', e)) (hp : sub'.pc.oldProof = some p) :
    (∀ r i, sub.pc ≠ .await r i) ∧
      (sub.pc.oldProof = some p ∨ sub.pc = .readOldProof ∧ p = sh.appProof) := by
  have hnext : ∀ r n, (sub.nextAttempt r n).pc.oldProof = some p → r.oldProof = p := by
    intro r n hp
    rcases sub.nextAttempt_pc r n with ⟨m, hpc⟩ | hpc <;> rw [hpc] at hp
    · exact Option.some.inj hp
    · cases hp
  cases Submitter.step_move h with
  | oldProof hpc => exact ⟨by simp [hpc], .inr ⟨hpc, (Option.some.inj hp).symm⟩⟩
  | noBest hpc _ | noBlockhash hpc | failed hpc _ =>
      refine ⟨by simp [hpc], .inl ?_⟩
      rw [hpc, ← hnext _ _ hp]
      rfl
  | busy hpc =>
      rw [hpc] at hp
      cases hp
  | early hpc | noSolution hpc _ | wait hpc _ | outdated hpc _ _ _ | hashInvalid hpc _
  | released hpc _ _ | refreshed hpc _ | notRefreshed hpc | writeProof hpc | resetNonce hpc
  | resetEpoch hpc | unpause hpc => cases hp
  | capture hpc _ hr =>
      subst hr
      exact ⟨by simp [hpc], .inl (by rw [hpc]; exact hp)⟩
  | due hpc _ _ | best hpc | solution hpc _ | pause hpc | config hpc _ _ _ | noConfig hpc _ _
  | clock hpc | send hpc | landed hpc _ =>
      exact ⟨by simp [hpc], .inl (by rw [hpc]; exact hp)⟩

/-- An attender whose payment is due was waiting to pay before. -/
lemma Attender.step_due {srv : Server} {sh : Shared} {reply : Reply} {a a' : Attender}
    {e : Effect} (h : a.step srv sh reply = some (a', e)) (hdue : a'.pc.settlement.due = true) :
    a.pc.settlement.due = true ∧ e.mineSuccess = Option.none := by
  cases Attender.step_move h <;>
    simp_all [Attender.goto, AttenderPc.settlement, Settlement.due, Effect.mineSuccess]

/-- A step keeps the proof the next payment will be counted from, or begins with the one in
`app_proof`. -/
theorem Sys.step_basis {srv : Server} {s s' : Sys} {act : Action} {p : Proof}
    (h : s.step srv act = some s') (hp : s'.basis = some p) :
    s.basis = some p ∨ s.submission.pc = .readOldProof ∧ p = s.shared.appProof := by
  rcases Sys.step_roundMove h with ⟨w, e, -, -, -, -, -, -, hsub, hatt⟩ |
    ⟨reply, sub, e, -, hs, rfl⟩ | ⟨i, reply, a, a', e, -, ha, hs, rfl⟩
  · left
    rw [Sys.basis, hsub, hatt] at hp
    exact hp
  · have hold : sub.pc.oldProof = some p := by
      rcases Submitter.step_spawns hs with ⟨-, hpc⟩ |
        ⟨r, n, solution, cfg, tx, l, hpc, rfl, hl, -, hpc'⟩
      · rwa [Sys.basis_of_not_await (by simpa using hpc)] at hp
      · rw [Sys.basis_of_await (a := Attender.spawn l) (by simpa using hpc')
          (by simp [Effect.attender])] at hp
        rw [hpc', ← hp, ← hl]
        rfl
    obtain ⟨hnot, hfrom⟩ := Submitter.step_oldProof hs hold
    rw [Sys.basis_of_not_await hnot]
    exact hfrom
  · obtain ⟨hspawn, -⟩ := Attender.step_spawns hs
    left
    by_cases hw : ∃ r, s.submission.pc = .await r i
    · obtain ⟨r, hw⟩ := hw
      rw [Sys.basis_of_await (r := r) (i := i) (a := a') (by simpa using hw)
        (by simp [hspawn, slot_set ha])] at hp
      rw [Sys.basis_of_await hw ha]
      split at hp
      · rename_i hdue
        rw [if_pos (Attender.step_due hs hdue).1, ← hp, Attender.oldProof, Attender.oldProof,
          Attender.step_landing hs]
      · cases hp
    · -- nobody waits for this attender
      rw [← hp]
      cases hpc : s.submission.pc with
      | await r j =>
          have hij : i ≠ j := by
            rintro rfl
            exact hw ⟨r, hpc⟩
          simp [Sys.basis, hpc, hspawn, slot_set ha, hij]
      | _ => simp [Sys.basis, hpc]

/-! ## Versions -/

/-- The notes are right about `app_proof` and the copies, and neither is older than what has been
paid for. -/
structure Tracked (s : Sys) (n : VersionNotes) (paid : ℕ) : Prop where
  tracks : s.chain.versions[n.held]? = some s.shared.appProof
  copies : ∀ who p, s.copy who = some p →
    s.chain.versions[n.copies who]? = some p ∧ paid ≤ n.copies who
  held : paid ≤ n.held
  notified : paid < s.chain.nextNotified

/-- Somebody handles the proof. -/
lemma Tracked.handle {s s' : Sys} {n : VersionNotes} {paid : ℕ} {who : Actor}
    {handling : Handling} (hi : Tracked s n paid) (hch : s'.chain.versions = s.chain.versions)
    (hnext : s'.chain.nextNotified = s.chain.nextNotified)
    (hothers : ∀ w, w ≠ who → s'.copy w = s.copy w)
    (hdone : handling.Done s.chain.current (s.copy who) (s'.copy who) s.shared.appProof
      s'.shared.appProof) :
    Tracked s' (n.handle s who handling) paid := by
  have hnotified : paid < s'.chain.nextNotified := hnext ▸ hi.notified
  -- the party's copy becomes version `k`
  have hcopied : ∀ k, paid ≤ k → (∀ p ∈ s'.copy who, s.chain.versions[k]? = some p) →
      s'.shared.appProof = s.shared.appProof →
      Tracked s' { n with copies := Function.update n.copies who k } paid := by
    intro k hk hcopy happ
    refine ⟨by rw [hch, happ]; exact hi.tracks, ?_, hi.held, hnotified⟩
    intro w p hp
    rw [hch]
    by_cases hw : w = who
    · subst hw
      simpa using ⟨hcopy p hp, hk⟩
    · rw [hothers w hw] at hp
      simpa [Function.update_of_ne hw] using hi.copies w p hp
  cases handling with
  | none =>
      obtain ⟨happ, hcopy⟩ := hdone
      refine ⟨by rw [hch, happ]; exact hi.tracks, ?_, hi.held, hnotified⟩
      intro w p hp
      rw [hch]
      by_cases hw : w = who
      · exact hi.copies w p (hw ▸ hcopy p (hw ▸ hp))
      · exact hi.copies w p (hothers w hw ▸ hp)
  | fetch =>
      have hlt := (List.getElem?_eq_some_iff.mp hi.tracks).1
      have hheld := hi.held
      refine hcopied _ (by omega) ?_ hdone.1
      intro p hp
      rw [← hdone.2 p hp, Chain.current, List.getLast?_eq_getElem?]
  | read =>
      refine hcopied _ hi.held ?_ hdone.1
      intro p hp
      rw [hdone.2 p hp]
      exact hi.tracks
  | write =>
      obtain ⟨hcopy, hnone⟩ := hdone
      obtain ⟨hver, hle⟩ := hi.copies who _ hcopy
      refine ⟨hch ▸ hver, ?_, hle, hnotified⟩
      intro w p hp
      by_cases hw : w = who
      · rw [hw, hnone] at hp
        cases hp
      · rw [hch]
        exact hi.copies w p (hothers w hw ▸ hp)

/-- The steps of the other tasks, as the proof sees them. -/
structure Sys.Quiet (s s' : Sys) : Prop where
  versions : ∃ new, s'.chain.versions = s.chain.versions ++ new
  notified : s'.chain.nextNotified = s.chain.nextNotified
  appProof : s'.shared.appProof = s.shared.appProof
  submission : s'.submission = s.submission
  attenders : s'.attenders = s.attenders
  promised : promised s'.journal = promised s.journal

/-- What a step does with the proof. -/
inductive Sys.ProofMove (srv : Server) (s : Sys) (n : VersionNotes) :
    Action → Sys → VersionNotes → Prop
  | notify (k : ℕ) (p : Proof) : ProofMove srv s n (.notify k p)
      ({ s with chain := { s.chain with nextNotified := k + 1 } }.perform .tracker (.writeProof p))
      (n.put k)
  | submission {reply : Reply} {sub : Submitter} {e : Effect}
      (hs : s.submission.step srv s.shared s.attenders s.chain.txs reply = some (sub, e)) :
      ProofMove srv s n (.submission reply) ({ s with submission := sub }.perform .submission e)
        (n.handle s .submission s.submission.pc.handling)
  | attender {i : ℕ} {reply : Reply} {a a' : Attender} {e : Effect}
      (ha : s.attenders[i]? = some a) (hs : a.step srv s.shared reply = some (a', e)) :
      ProofMove srv s n (.attender i reply)
        ({ s with attenders := s.attenders.set i a' }.perform (.attender i) e)
        (n.handle s (.attender i) a.pc.handling)
  | other {act : Action} {s' : Sys} (h : s.Quiet s') : ProofMove srv s n act s' n

/-- An effect of another task leaves the proof and what is promised alone. -/
lemma Sys.Quiet.of_effect {s s' : Sys} {who : Actor} {e : Effect} (he : e.ofRound = false)
    (hw : ∀ p, e ≠ .writeProof p) (hch : s'.chain = { s.chain with txs := s.chain.txs ++ e.tx })
    (hsh : s'.shared = s.shared.apply e) (hsub : s'.submission = s.submission)
    (hatt : s'.attenders = s.attenders ++ e.attender) (hj : s'.journal = (who, e) :: s.journal) :
    s.Quiet s' where
  versions := ⟨[], by simp [hch]⟩
  notified := by rw [hch]
  appProof := by rw [hsh, Shared.apply_appProof he hw]
  submission := hsub
  attenders := by rw [hatt, Effect.attender_of_not_ofRound he, List.append_nil]
  promised := by
    rw [hj]
    cases e <;> first | exact Nat.zero_add _ | cases he

theorem Sys.step_proofMove {srv : Server} {s s' : Sys} {n : VersionNotes} {act : Action}
    (h : s.step srv act = some s') :
    Sys.ProofMove srv s n act s' (versionObserver.note s act n) := by
  cases Sys.step_move h with
  | notify k p => exact .notify k p
  | submission hs => exact .submission hs
  | attender ha hs =>
      simp only [versionObserver, ha]
      exact .attender ha hs
  | receive who m =>
      obtain ⟨hsh, -, -, hsub, hatt, hch, hj⟩ := s.spawnFor_fields (received srv.signatures who m)
      exact .other ⟨⟨[], by simp [hch]⟩, by rw [← hch]; rfl,
        by simp [hsh, Shared.apply], by simp [hsub], by simp [hatt, Effect.attender],
        by simp [promised, hj, Effect.promises, Effect.mineSuccess]⟩
  | best ht hs =>
      refine .other (.of_effect (BestTask.step_ofRound hs) ?_ rfl rfl rfl rfl rfl)
      cases BestTask.step_move hs <;> simp
  | missions hs =>
      refine .other (.of_effect (ReadyPc.step_ofRound hs) ?_ rfl rfl rfl rfl rfl)
      rcases ReadyPc.step_effect hs with rfl | rfl | ⟨_, rfl⟩ | ⟨_, rfl⟩ <;> simp
  | mission ht hs =>
      refine .other (.of_effect (MissionTask.step_ofRound hs) ?_ rfl rfl rfl rfl rfl)
      rcases MissionTask.step_effect hs with ⟨-, -, rfl⟩ | ⟨-, -, rfl⟩ <;> simp
  | land _ _ _ _ _ | account _ =>
      exact .other ⟨⟨_, rfl⟩, rfl, rfl, rfl, List.append_nil _, Nat.zero_add _⟩
  | connect _ _ | disconnect _ | ready _ =>
      exact .other (.of_effect rfl (by simp) rfl rfl rfl rfl rfl)

/-- What is on its way is no older than what has been paid for, whatever the step. -/
theorem Tracked.step {srv : Server} {s s' : Sys} {n n' : VersionNotes} {act : Action} {paid : ℕ}
    (hi : Tracked s n paid) (hd : ProofsDelivered s act) (h : Sys.ProofMove srv s n act s' n') :
    Tracked s' n' paid := by
  have hnotified := hi.notified
  cases h with
  | notify k p =>
      obtain ⟨hnext, hver⟩ := hd
      refine ⟨hver, ?_, ?_, ?_⟩
      · intro who q hq
        exact hi.copies who q (by simpa [Sys.copy, Effect.attender] using hq)
      · exact (hnotified.trans_le hnext).le
      · exact hnotified.trans_le (Nat.le_succ_of_le hnext)
  | submission hs =>
      refine hi.handle rfl rfl ?_ ((Submitter.step_move hs).handled hd)
      intro w hw
      cases w with
      | submission => exact absurd rfl hw
      | attender i => exact Effect.attender_copy _ _ i
      | _ => rfl
  | attender ha hs =>
      rename_i i reply a a' e
      obtain ⟨hspawn, -⟩ := Attender.step_spawns hs
      have hcopy : s.copy (.attender i) = a.pc.copy := by simp [Sys.copy, ha]
      have hcopy' : ({ s with attenders := s.attenders.set i a' }.perform (.attender i) e).copy
          (.attender i) = a'.pc.copy := by
        simp [Sys.copy, hspawn, slot_set ha]
      refine hi.handle rfl rfl ?_ (by rw [hcopy, hcopy']; exact (Attender.step_move hs).handled hd)
      intro w hw
      cases w with
      | attender j =>
          have hij : i ≠ j := fun h => hw (h ▸ rfl)
          simp [Sys.copy, hspawn, slot_set ha, hij]
      | _ => rfl
  | other h =>
      obtain ⟨new, hnew⟩ := h.versions
      have hgrow : ∀ {k : ℕ} {p : Proof}, s.chain.versions[k]? = some p →
          s'.chain.versions[k]? = some p := by
        intro k p hk
        rw [hnew, List.getElem?_append_left (List.getElem?_eq_some_iff.mp hk).1, hk]
      refine ⟨by rw [h.appProof]; exact hgrow hi.tracks, ?_, hi.held, h.notified ▸ hnotified⟩
      intro who p hp
      obtain ⟨hver, hle⟩ := hi.copies who p (Sys.copy_congr h.submission h.attenders who ▸ hp)
      exact ⟨hgrow hver, hle⟩

/-! ## Intervals -/

/-- `app_proof` has shown another challenge, and the balance is still to be read. -/
def AttenderPc.updated : AttenderPc → Bool
  | .getOldChallenge _ => true
  | .addOldChallenge _ => true
  | .findOldChallenge _ => true
  | .addNewChallenge _ _ => true
  | .findNewChallenge _ _ => true
  | .readLatest _ => true
  | _ => false

/-- The balance has been read, and the payment is still to be sent. -/
def AttenderPc.paying : AttenderPc → Bool
  | .snapshot _ _ => true
  | .sendMineSuccess _ _ _ => true
  | _ => false

/-- The versions up to `paid` are paid for, and a payment still to come is counted from version
`base`.  The version it is counted to has been notified, and no claim lies between the two. -/
structure PaidUpTo (s : Sys) (n : VersionNotes) (base paid : ℕ) : Prop where
  tracked : Tracked s n paid
  based : base < s.chain.versions.length
  basis : ∀ p, s.basis = some p → s.chain.versions[base]? = some p ∧ paid ≤ base ∧
    Rising s.chain.balance n.held base ∧ (n.held = base ∨ n.held < s.chain.nextNotified)
  updated : ∀ (i : ℕ) (a : Attender), s.attenders[i]? = some a → a.pc.updated = true →
    n.held < s.chain.nextNotified
  paying : ∀ (i : ℕ) (a : Attender), s.attenders[i]? = some a → a.pc.paying = true →
    n.copies (.attender i) < s.chain.nextNotified ∧ n.copies (.attender i) ≤ n.held ∧
      Rising s.chain.balance (n.copies (.attender i)) base
  covered : promised s.journal ≤ growth s.chain.balance paid

/-- What comes later does not change the balances so far. -/
lemma Chain.balance_append {c c' : Chain} {new : List Proof} {k : ℕ}
    (h : c'.versions = c.versions ++ new) (hk : k < c.versions.length) :
    c.balance k = c'.balance k := by
  rw [Chain.balance, Chain.balance, h, List.getElem?_append_left hk]

/-- An attender at work on a payment is the awaited one. -/
lemma Serial.basis_of_due {s : Sys} (hs : Serial s) {i : ℕ} {a : Attender}
    (ha : s.attenders[i]? = some a) (hact : a.active) (hdue : a.pc.settlement.due = true) :
    s.basis = some a.oldProof := by
  obtain ⟨r, hr⟩ := hs.active i a ha hact
  rw [Sys.basis_of_await hr ha, if_pos hdue]

/-- Another task. -/
lemma PaidUpTo.other {s s' : Sys} {n : VersionNotes} {base paid : ℕ} (hp : PaidUpTo s n base paid)
    (ht : Tracked s' n paid) (h : s.Quiet s') : PaidUpTo s' n base paid := by
  obtain ⟨new, hnew⟩ := h.versions
  have hbalance : ∀ k ≤ base, s.chain.balance k = s'.chain.balance k := fun k hk =>
    Chain.balance_append hnew (hk.trans_lt hp.based)
  have hlen : s.chain.versions.length ≤ s'.chain.versions.length := by
    rw [hnew, List.length_append]
    exact Nat.le_add_right _ _
  have hbasis : s'.basis = s.basis := by
    unfold Sys.basis
    rw [h.submission, h.attenders]
  refine ⟨ht, hp.based.trans_le hlen, ?_, ?_, ?_, ?_⟩
  · intro p hp'
    obtain ⟨hver, hpaid, hrising, hheld⟩ := hp.basis p (hbasis ▸ hp')
    refine ⟨?_, hpaid, hrising.congr hbalance, h.notified ▸ hheld⟩
    rw [hnew, List.getElem?_append_left hp.based, hver]
  · rw [h.notified, h.attenders]
    exact hp.updated
  · rw [h.notified, h.attenders]
    intro i a ha hpaying
    obtain ⟨hnext, hheld, hrising⟩ := hp.paying i a ha hpaying
    exact ⟨hnext, hheld, hrising.congr hbalance⟩
  · have hlt := (List.getElem?_eq_some_iff.mp hp.tracked.tracks).1
    have hheld := hp.tracked.held
    rw [h.promised, growth_congr fun k hk => (Chain.balance_append hnew (k := k) (by omega)).symm]
    exact hp.covered

/-- A notification.  What it brings is later than anything notified before. -/
lemma PaidUpTo.notify {s : Sys} {n : VersionNotes} {base paid k : ℕ} {p : Proof}
    (hp : PaidUpTo s n base paid) (hnext : s.chain.nextNotified ≤ k)
    (hc : Rising s.chain.balance k n.held)
    (ht : Tracked ({ s with chain := { s.chain with nextNotified := k + 1 } }.perform .tracker
      (.writeProof p)) (n.put k) paid) :
    PaidUpTo ({ s with chain := { s.chain with nextNotified := k + 1 } }.perform .tracker
      (.writeProof p)) (n.put k) base paid := by
  have hatt : ({ s with chain := { s.chain with nextNotified := k + 1 } }.perform .tracker
      (.writeProof p)).attenders = s.attenders := List.append_nil _
  refine ⟨ht, hp.based, ?_, fun _ _ _ _ => Nat.lt_succ_self k, ?_, ?_⟩
  · intro q hq
    have hq : s.basis = some q := by
      simpa [Sys.basis, Effect.attender] using hq
    obtain ⟨hver, hpaid, hrising, hheld⟩ := hp.basis q hq
    refine ⟨hver, hpaid, ?_, .inr (Nat.lt_succ_self k)⟩
    rcases hheld with heq | hlt
    · exact heq ▸ hc
    · exact hrising.shrink (hlt.le.trans hnext) le_rfl
  · rw [hatt]
    intro i a ha hpaying
    obtain ⟨hlt, -, hrising⟩ := hp.paying i a ha hpaying
    exact ⟨(hlt.trans_le hnext).trans (Nat.lt_succ_self k), (hlt.trans_le hnext).le, hrising⟩
  · refine (Nat.zero_add _).trans_le ?_
    exact hp.covered

/-! The submission loop. -/

lemma AttenderPc.active_of_updated {a : Attender} (h : a.pc.updated = true) :
    a.active ∧ a.pc.settlement.due = true := by
  rw [Attender.active]
  cases hpc : a.pc <;> simp_all [AttenderPc.updated, AttenderPc.oneshot, AttenderPc.settlement,
    Settlement.due]

lemma AttenderPc.active_of_paying {a : Attender} (h : a.pc.paying = true) :
    a.active ∧ a.pc.settlement.due = true := by
  rw [Attender.active]
  cases hpc : a.pc <;> simp_all [AttenderPc.paying, AttenderPc.oneshot, AttenderPc.settlement,
    Settlement.due]

/-- While the submission loop moves no attender is active, but for one it spawns. -/
lemma Serial.idle {srv : Server} {s : Sys} (hs : Serial s) {reply : Reply} {sub : Submitter}
    {e : Effect}
    (hstep : s.submission.step srv s.shared s.attenders s.chain.txs reply = some (sub, e))
    {i : ℕ} {a : Attender} (ha : (s.attenders ++ e.attender)[i]? = some a) :
    ¬ a.active ∨ a.pc = .check := by
  rw [List.getElem?_append] at ha
  split at ha
  · refine .inl fun hact => ?_
    obtain ⟨r, hr⟩ := hs.active i a ha hact
    obtain ⟨⟨b, hb, hnot⟩, -⟩ := Submitter.step_await hr hstep
    rw [ha] at hb
    exact hnot (Option.some.inj hb ▸ hact)
  · obtain ⟨l, rfl⟩ : ∃ l, a = Attender.spawn l := by
      have hmem := List.mem_of_getElem? ha
      cases e <;> simp only [Effect.attender, List.not_mem_nil, List.mem_singleton] at hmem
      exact ⟨_, hmem⟩
    exact .inr rfl

/-- The submission loop handles the proof only after its round has failed. -/
lemma Sys.handling_of_basis {s : Sys} (h : s.basis.isSome) :
    s.submission.pc.handling = .none := by
  cases hpc : s.submission.pc with
  | failGetProof r | failWriteProof r p =>
      rw [Sys.basis_of_not_await (by simp [hpc]), hpc] at h
      cases h
  | _ => rfl

/-- The submission loop.  What it reads is the version the next payment is counted from. -/
lemma PaidUpTo.submission {srv : Server} {s : Sys} {n : VersionNotes} {base paid : ℕ}
    {reply : Reply} {sub : Submitter} {e : Effect} (hp : PaidUpTo s n base paid)
    (hserial : Serial s)
    (hs : s.submission.step srv s.shared s.attenders s.chain.txs reply = some (sub, e))
    (hstep : s.step srv (.submission reply) =
      some ({ s with submission := sub }.perform .submission e))
    (ht : Tracked ({ s with submission := sub }.perform .submission e)
      (n.handle s .submission s.submission.pc.handling) paid) :
    ∃ base', PaidUpTo ({ s with submission := sub }.perform .submission e)
      (n.handle s .submission s.submission.pc.handling) base' paid := by
  have hidle : ∀ (i : ℕ) (a : Attender), (s.attenders ++ e.attender)[i]? = some a →
      a.pc.updated = false ∧ a.pc.paying = false := by
    intro i a ha
    rcases hserial.idle hs ha with hnot | hpc
    · refine ⟨?_, ?_⟩
      · exact Bool.eq_false_iff.mpr fun h => hnot (AttenderPc.active_of_updated h).1
      · exact Bool.eq_false_iff.mpr fun h => hnot (AttenderPc.active_of_paying h).1
    · rw [hpc]
      exact ⟨rfl, rfl⟩
  have hcovered : promised ((.submission, e) :: s.journal) ≤ growth s.chain.balance paid := by
    have hnone : e.promises = 0 := by cases Submitter.step_move hs <;> rfl
    simp only [promised, List.map_cons, List.sum_cons, hnone, Nat.zero_add]
    exact hp.covered
  have hlen := (List.getElem?_eq_some_iff.mp hp.tracked.tracks).1
  -- where the invariant speaks of `base` nothing is handled
  have hbuild : ∀ base', base' < s.chain.versions.length →
      (∀ p, ({ s with submission := sub }.perform .submission e).basis = some p →
        s.chain.versions[base']? = some p ∧ paid ≤ base' ∧
          Rising s.chain.balance n.held base' ∧
            (n.held = base' ∨ n.held < s.chain.nextNotified)) →
      PaidUpTo ({ s with submission := sub }.perform .submission e)
        (n.handle s .submission s.submission.pc.handling) base' paid := by
    intro base' hlt hbasis
    refine ⟨ht, hlt, ?_, ?_, ?_, hcovered⟩
    · intro p hp'
      have hnone : s.submission.pc.handling = .none := by
        rcases Sys.step_basis hstep hp' with hbefore | ⟨hpc, -⟩
        · exact Sys.handling_of_basis (by rw [hbefore]; rfl)
        · rw [hpc]
          rfl
      rw [hnone]
      exact hbasis p hp'
    · intro i a ha hu
      rw [(hidle i a ha).1] at hu
      cases hu
    · intro i a ha hpay
      rw [(hidle i a ha).2] at hpay
      cases hpay
  by_cases hread : s.submission.pc = .readOldProof
  · refine ⟨n.held, hbuild _ hlen ?_⟩
    intro p hp'
    rcases Sys.step_basis hstep hp' with hbefore | ⟨-, rfl⟩
    · rw [Sys.basis, hread] at hbefore
      cases hbefore
    · exact ⟨hp.tracked.tracks, hp.tracked.held, .of_le le_rfl, .inl rfl⟩
  · refine ⟨base, hbuild _ hp.based ?_⟩
    intro p hp'
    rcases Sys.step_basis hstep hp' with hbefore | ⟨hpc, -⟩
    · exact hp.basis p hbefore
    · exact absurd hpc hread

/-! An attender. -/

/-- An attender that writes its copy holds the round, and has its payment behind it or none to
make. -/
lemma Attender.step_write {srv : Server} {sh : Shared} {reply : Reply} {a a' : Attender}
    {e : Effect} (h : a.step srv sh reply = some (a', e)) (hw : a.pc.handling = .write) :
    a.active ∧ a'.pc.settlement.due = false := by
  cases Attender.step_move h <;>
    simp_all [AttenderPc.handling, Attender.active, AttenderPc.oneshot, AttenderPc.settlement,
      Settlement.due, Attender.goto]

lemma Attender.handling_of_not_active {a : Attender} (h : ¬ a.active) :
    a.pc.handling = .none := by
  rw [Attender.active] at h
  cases hpc : a.pc <;> simp_all [AttenderPc.handling, AttenderPc.oneshot]

/-- The branch of an updated `app_proof` begins where `app_proof` shows another challenge. -/
lemma Attender.step_updated {srv : Server} {sh : Shared} {reply : Reply} {a a' : Attender}
    {e : Effect} (h : a.step srv sh reply = some (a', e)) (hu : a'.pc.updated = true) :
    a.pc.handling = .none ∧ (a.pc.updated = true ∨
      a.active ∧ a.pc.settlement.due = true ∧ a.oldProof.challenge ≠ sh.appProof.challenge) := by
  cases Attender.step_move h <;>
    simp_all [AttenderPc.updated, AttenderPc.handling, Attender.active, AttenderPc.oneshot,
      AttenderPc.settlement, Settlement.due, Attender.goto]

lemma Attender.step_paying {srv : Server} {sh : Shared} {reply : Reply} {a a' : Attender}
    {e : Effect} (h : a.step srv sh reply = some (a', e)) (hp : a'.pc.paying = true) :
    a.pc.handling = .none ∧ a.pc.paying = true ∨
      a.pc.handling = .read ∧ a.pc.updated = true := by
  cases Attender.step_move h <;>
    simp_all [AttenderPc.updated, AttenderPc.paying, AttenderPc.handling, Attender.goto]

/-- An attender, what it sends for payment left aside. -/
lemma PaidUpTo.attender {srv : Server} {s s' : Sys} {n : VersionNotes} {base paid paid' : ℕ}
    {i : ℕ} {reply : Reply} {a a' : Attender} {e : Effect} (hp : PaidUpTo s n base paid)
    (hserial : Serial s) (ha : s.attenders[i]? = some a)
    (hs : a.step srv s.shared reply = some (a', e))
    (hs' : s' = { s with attenders := s.attenders.set i a' }.perform (.attender i) e)
    (hstep : s.step srv (.attender i reply) = some s')
    (ht : Tracked s' (n.handle s (.attender i) a.pc.handling) paid')
    (hpaid : s'.basis.isSome → paid' ≤ base)
    (hcovered : promised s'.journal ≤ growth s.chain.balance paid') :
    PaidUpTo s' (n.handle s (.attender i) a.pc.handling) base paid' := by
  obtain ⟨hspawn, -⟩ := Attender.step_spawns hs
  have hatt : ∀ j, s'.attenders[j]? = if i = j then some a' else s.attenders[j]? := by
    intro j
    simp [hs', hspawn, slot_set ha]
  have hsub : s'.submission = s.submission := by rw [hs']; rfl
  have hch : s'.chain.versions = s.chain.versions := by rw [hs']; rfl
  have hnext : s'.chain.nextNotified = s.chain.nextNotified := by rw [hs']; rfl
  have hbalance : s'.chain.balance = s.chain.balance := by
    funext k
    rw [Chain.balance, Chain.balance, hch]
  -- no other attender holds the round
  have hothers : ∀ (j : ℕ) (b : Attender), i ≠ j → s.attenders[j]? = some b → b.active →
      a.pc.handling = .none := by
    intro j b hij hb hact
    refine Attender.handling_of_not_active fun hact' => ?_
    exact hij (hserial.unique ha hb hact' hact)
  refine ⟨ht, hch ▸ hp.based, ?_, ?_, ?_, hbalance ▸ hcovered⟩
  · intro p hbasis
    rcases Sys.step_basis hstep hbasis with hbefore | ⟨hread, -⟩
    · have hheld : (n.handle s (.attender i) a.pc.handling).held = n.held := by
        cases hh : a.pc.handling with
        | write =>
            obtain ⟨hact, hdue⟩ := Attender.step_write hs hh
            obtain ⟨r, hr⟩ := hserial.active i a ha hact
            rw [Sys.basis_of_await (hsub ▸ hr) (by rw [hatt, if_pos rfl]), hdue] at hbasis
            cases hbasis
        | none | fetch | read => rfl
      obtain ⟨hver, -, hrising, hlate⟩ := hp.basis p hbefore
      rw [hch, hbalance, hnext, hheld]
      exact ⟨hver, hpaid (by rw [hbasis]; rfl), hrising, hlate⟩
    · rw [Sys.basis, hsub, hread] at hbasis
      cases hbasis
  · intro j b hb hu
    rw [hatt] at hb
    rw [hnext]
    split at hb
    · obtain rfl := Option.some.inj hb
      obtain ⟨hnone, hfrom⟩ := Attender.step_updated hs hu
      rw [hnone]
      rcases hfrom with hu | ⟨hact, hdue, hne⟩
      · exact hp.updated i a ha hu
      · obtain ⟨hver, -, -, hlate⟩ := hp.basis _ (hserial.basis_of_due ha hact hdue)
        refine hlate.resolve_left fun heq => hne ?_
        rw [← heq, hp.tracked.tracks] at hver
        rw [Option.some.inj hver]
    · rw [hothers j b ‹_› hb (AttenderPc.active_of_updated hu).1]
      exact hp.updated j b hb hu
  · intro j b hb hpay
    rw [hatt] at hb
    rw [hnext, hbalance]
    split at hb
    · rename_i hij
      subst hij
      obtain rfl := Option.some.inj hb
      rcases Attender.step_paying hs hpay with ⟨hnone, hpay⟩ | ⟨hread, hu⟩
      · rw [hnone]
        exact hp.paying i a ha hpay
      · obtain ⟨hact, hdue⟩ := AttenderPc.active_of_updated hu
        obtain ⟨-, -, hrising, -⟩ := hp.basis _ (hserial.basis_of_due ha hact hdue)
        rw [hread, VersionNotes.handle]
        simp only [Function.update_self]
        exact ⟨hp.updated i a ha hu, le_rfl, hrising⟩
    · rw [hothers j b ‹_› hb (AttenderPc.active_of_paying hpay).1]
      exact hp.paying j b hb hpay

/-- The payment reaches from the version the round was begun with to the attender's copy. -/
lemma PaidUpTo.send {srv : Server} {s s' : Sys} {n : VersionNotes} {base paid : ℕ}
    {i : ℕ} {reply : Reply} {a a' : Attender} {msg : MessageInternalMineSuccess}
    (hp : PaidUpTo s n base paid) (hserial : Serial s) (hsmall : SmallBalances s)
    (ha : s.attenders[i]? = some a)
    (hs : a.step srv s.shared reply = some (a', .sendMineSuccess msg))
    (hs' : s' = { s with attenders := s.attenders.set i a' }.perform (.attender i)
      (.sendMineSuccess msg))
    (hstep : s.step srv (.attender i reply) = some s')
    (ht : Tracked s' (n.handle s (.attender i) a.pc.handling) paid) :
    ∃ paid', PaidUpTo s' (n.handle s (.attender i) a.pc.handling) base paid' := by
  cases Attender.step_move hs with
  | @sendMineSuccess id latestProof contributions hpc =>
    have hact : a.active := by rw [Attender.active, hpc]; rfl
    have hcopy : s.copy (.attender i) = some latestProof := by
      simp [Sys.copy, ha, hpc, AttenderPc.copy]
    obtain ⟨hver, hpaid, -, -⟩ :=
      hp.basis _ (hserial.basis_of_due ha hact (by rw [hpc]; rfl))
    obtain ⟨hlatest, hle⟩ := hp.tracked.copies _ _ hcopy
    obtain ⟨hnotified, hheld, hrising⟩ := hp.paying i a ha (by rw [hpc]; rfl)
    have hnotes : n.handle s (.attender i) a.pc.handling = n := by rw [hpc]; rfl
    have hpromised : promised s'.journal =
        (s.chain.balance (n.copies (.attender i)) - s.chain.balance base) +
          promised s.journal := by
      rw [← hsmall.rewards id contributions hver hlatest, hs']
      rfl
    have hdone : ¬ s'.basis.isSome := by
      obtain ⟨r, hr⟩ := hserial.active i a ha hact
      rw [Sys.basis_of_await (r := r) (i := i) (a := a.goto (.writeProof latestProof))
        (by simpa [hs'] using hr) (by simp [hs', slot_set ha, Effect.attender])]
      simp [Attender.goto, AttenderPc.settlement, Settlement.due]
    rcases le_or_gt base (n.copies (.attender i)) with hbase | hbase
    · refine ⟨n.copies (.attender i), hp.attender hserial ha hs hs' hstep ?_
        (fun h => absurd h hdone) ?_⟩
      · rw [hnotes] at ht ⊢
        refine ⟨ht.tracks, ?_, hheld, by rw [hs']; exact hnotified⟩
        intro who p hp'
        -- nobody else has a copy
        have hwho : who = .attender i := by
          by_contra hne
          have hothers : s'.copy who = s.copy who := by
            cases who with
            | attender j =>
                have hij : i ≠ j := fun h => hne (h ▸ rfl)
                simp [hs', Sys.copy, Effect.attender, slot_set ha, hij]
            | submission => simp [hs', Sys.copy]
            | _ => rfl
          exact hne (hserial.copy_unique hcopy (hothers ▸ hp'))
        exact ⟨(ht.copies who p hp').1, (congrArg n.copies hwho).ge⟩
      · rw [hpromised, Nat.add_comm]
        exact (Nat.add_le_add_right (hp.covered.trans (growth_mono _ hpaid)) _).trans
          (growth_add_rise hbase)
    · -- an interval that runs backwards pays nothing
      have hfall := hrising.le hbase.le
      refine ⟨paid, hp.attender hserial ha hs hs' hstep ht (fun h => absurd h hdone) ?_⟩
      rw [hpromised, Nat.sub_eq_zero_of_le hfall, Nat.zero_add]
      exact hp.covered

/-! ## Runs -/

/-- What is delivered agrees with the chain, no notification takes `app_proof` back behind a claim,
and balances are small. -/
def Orderly (x : Sys × VersionNotes) (act : Action) : Prop :=
  ProofsDelivered x.1 act ∧ ClaimsKept x act ∧ SmallBalances x.1

instance : DecidableRel Orderly := fun _ _ => inferInstanceAs (Decidable (_ ∧ _ ∧ _))

theorem PaidUpTo.step {srv : Server} {s s' : Sys} {n : VersionNotes} {act : Action}
    {base paid : ℕ} (hp : PaidUpTo s n base paid) (hserial : Serial s) (hc : Orderly (s, n) act)
    (hs : s.step srv act = some s') :
    ∃ base' paid', PaidUpTo s' (versionObserver.note s act n) base' paid' := by
  obtain ⟨hd, hclaims, hsmall⟩ := hc
  have hmove := Sys.step_proofMove (n := n) hs
  have ht := hp.tracked.step hd hmove
  generalize versionObserver.note s act n = n' at hmove ht ⊢
  cases hmove with
  | notify k p => exact ⟨base, paid, hp.notify hd.1 hclaims ht⟩
  | submission hsub =>
      obtain ⟨base', h⟩ := hp.submission hserial hsub hs ht
      exact ⟨base', paid, h⟩
  | @attender i reply a a' e ha hatt =>
      by_cases hsend : ∃ msg, e = .sendMineSuccess msg
      · obtain ⟨msg, rfl⟩ := hsend
        exact ⟨base, hp.send hserial hsmall ha hatt rfl hs ht⟩
      · refine ⟨base, paid, hp.attender hserial ha hatt rfl hs ht ?_ ?_⟩
        · intro hsome
          obtain ⟨p, hbasis⟩ := Option.isSome_iff_exists.mp hsome
          rcases Sys.step_basis hs hbasis with hbefore | ⟨hread, -⟩
          · exact (hp.basis p hbefore).2.1
          · rw [Sys.basis, Sys.perform_submission, hread] at hbasis
            cases hbasis
        · have hnone : e.promises = 0 := by
            cases e <;> first | rfl | exact absurd ⟨_, rfl⟩ hsend
          simp only [Sys.perform_journal, promised, List.map_cons, List.sum_cons, hnone,
            Nat.zero_add]
          exact hp.covered
  | other h => exact ⟨base, paid, hp.other ht h⟩

theorem paidUpTo {srv : Server} {x : Sys × VersionNotes}
    (h : Reach ((machine srv).observe versionObserver) Orderly x) :
    ∃ base paid, PaidUpTo x.1 x.2 base paid := by
  refine h.observed_invariant (I := fun s n => ∃ base paid, PaidUpTo s n base paid) ?_ ?_
  · rintro _ ⟨p, rfl⟩
    refine ⟨0, 0, ⟨rfl, ?_, le_rfl, Nat.one_pos⟩, Nat.one_pos, nofun, by simp [Sys.start],
      by simp [Sys.start], le_rfl⟩
    intro who q hq
    rcases Sys.copy_eq_some hq with ⟨-, r, hr⟩ | ⟨i, a, -, ha, -⟩
    · cases hr
    · simp [Sys.start] at ha
  · intro s n act s' hr ⟨base, paid, hp⟩ hc hs
    exact hp.step (serial (hr.forget (D := Any) fun _ _ _ => trivial)) hc hs

/-- What is paid for is a version the chain has gone through. -/
lemma PaidUpTo.promised_le {s : Sys} {n : VersionNotes} {base paid : ℕ}
    (hp : PaidUpTo s n base paid) : promised s.journal ≤ s.chain.growth := by
  have hlen := (List.getElem?_eq_some_iff.mp hp.tracked.tracks).1
  have hheld := hp.tracked.held
  exact hp.covered.trans (growth_mono _ (by omega))

/-- **Paid once.**  In every run in which no notification takes `app_proof` back behind a claim, the
rewards sent for payment are covered by the growth of the balance. -/
theorem paidOnce {srv : Server} {x : Sys × VersionNotes}
    (h : Reach ((machine srv).observe versionObserver) Orderly x) : PaidOnce x.1 := by
  obtain ⟨base, paid, hp⟩ := paidUpTo h
  refine ⟨hp.promised_le, fun hrising => ?_⟩
  rw [← growth_eq hrising]
  exact Nat.add_le_add_right hp.promised_le _

/-- Two rounds, each settled for the 100 its transaction has brought. -/
theorem paidOnce_twoRounds :
    ∃ x, Reach ((machine (Replay.server .unavailable)).observe versionObserver) Orderly x ∧
      (promised x.1.journal = 200 ∧ x.1.chain.growth = 200) ∧ PaidOnce x.1 := by
  obtain ⟨x, hr, hx⟩ := exists_of_replayObserved (Replay.server .unavailable) versionObserver
    Orderly (Replay.proofAt 1 0)
    (Replay.settledRound ++ Replay.mission 1 1 ++ Replay.solve 1 5 1 1 (Replay.solution 2 20) ++
      Replay.pause 120 ++ Replay.attempt (Replay.proofAt 2 60) ++
      [.land 1 (Replay.proofAt 3 120), .submission (.outcome .ok),
        .notify 2 (Replay.proofAt 3 120)] ++ List.replicate 4 (.attender 1 .go))
    (fun x => decide (promised x.1.journal = 200 ∧ x.1.chain.growth = 200)) (by decide +kernel)
  exact ⟨x, hr, by simpa only [decide_eq_true_eq] using hx, paidOnce hr⟩

/-- The proof account before a claim and after it. -/
def Replay.unclaimed : Proof := { Replay.proofAt 1 0 with balance := 1000 }

def Replay.claimed : Proof := { Replay.proofAt 2 60 with balance := 0 }

/-- A round fails though its last transaction lands, and everything is claimed before the proof is
refreshed.  The next round pays what the claim has taken out, for it is told only now of a version
from before. -/
theorem not_paidOnce :
    ¬ ∀ srv x, Reach ((machine srv).observe versionObserver)
      (fun x act => ProofsDelivered x.1 act ∧ SmallBalances x.1) x → PaidOnce x.1 := by
  refine not_forall_of_replayObserved (O := fun _ => versionObserver)
    (C := fun _ x act => ProofsDelivered x.1 act ∧ SmallBalances x.1)
    (P := fun _ x => PaidOnce x.1) (Replay.server .unavailable) Replay.unclaimed
    ([.account Replay.unclaimed] ++ Replay.served ++ Replay.pause 60 ++
      (List.replicate 5 (Replay.attempt Replay.unclaimed ++
        [.submission (.outcome .otherError)])).flatten ++
      [.land 4 { Replay.claimed with balance := 1010 }, .account Replay.claimed,
        .submission (.proof (some Replay.claimed))] ++ List.replicate 4 (.submission .go) ++
      Replay.mission 1 1 ++ Replay.solve 1 5 1 1 (Replay.solution 2 20) ++ Replay.pause 120 ++
      Replay.attempt Replay.claimed ++
      [.land 5 { Replay.proofAt 3 120 with balance := 10 }, .submission (.outcome .ok),
        .notify 1 Replay.unclaimed] ++ List.replicate 4 (.attender 0 .go))
    (fun x => decide (promised x.1.journal = 1000 ∧ x.1.chain.growth = 20)) ?_
    (by decide +kernel)
  intro x hx hpaid
  simp only [decide_eq_true_eq] at hx
  have hcovered := hpaid.covered
  omega

end OrePool
