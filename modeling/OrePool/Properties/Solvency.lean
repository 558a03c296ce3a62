import OrePool.LedgerReplay
import OrePool.PoolServer
import OrePool.Properties.FallingBalance
import OrePool.Properties.PaidOnce

/-!
# The pool pays out what it has earned

The mining side and the database meet in one place: the channel on which attenders send
`MessageInternalMineSuccess` to `pool_mine_success_processor`.  In `poolServer` they stand next to
each other, with the channel in between.  The server may be stopped at any moment and started again
later; what is left then are the tables (`History`), while messages under way, handshakes and
payments half made are lost.

`Solvent` is what the operator relies on.  Every row of `earnings` is one of a round that has been
paid for, none is written twice, and neither what is booked as earned nor what the miners have on
their balances exceeds what the balance of the proof account has grown by while the server was
running.  It holds in every run in which the rewards are gains (`solvent`), whatever calls to the
database fail and whenever the server was stopped.
-/

namespace OrePool

open Growth Interleaving Tables

/-! ## The property -/

/-- What earlier runs have left behind: the tables, the messages received and the growth of the
balance meanwhile. -/
structure Past where
  db : Database
  msgs : List MessageInternalMineSuccess
  growth : ℕ

/-- The balance read and the contributions, when the payment is about to be sent. -/
def AttenderPc.sending : AttenderPc → Option (Proof × Contributions)
  | .sendMineSuccess _ latestProof contributions => some (latestProof, contributions)
  | _ => none

/-- A payment is for a gain, and its hashpowers add up in a `u64`. -/
def Gaining (s : Sys) : Action → Prop
  | .attender i _ => ∀ a ∈ s.attenders[i]?, ∀ x ∈ a.pc.sending,
      a.oldProof.balance ≤ x.1.balance ∧ (hashpowers x.2).sum < 2 ^ 64
  | _ => True

/-- Rounds pay for gains.  Whenever the payment processor writes, no miner has two rows in
`rewards`, and the growth fits an `i64`. -/
def Prudent (past : Past) (x : PoolServer VersionNotes) : LinkedAction Action LedgerAction → Prop
  | .sender act => Orderly x.sender act ∧ Gaining x.sender.1 act
  | .receiver (.payment _) => Unique RewardRow.minerId x.receiver.db.rewards ∧
      past.growth + x.sender.1.chain.growth ≤ Int64.maxValue.toInt
  | _ => True

/-- Runs one after the other, each stopped where it happened to be. -/
inductive History (srv : Server) (host : Host) : Past → Prop
  | fresh : History srv host ⟨.init, [], 0⟩
  | stopped {past : Past} {x : PoolServer VersionNotes} (h : History srv host past)
      (hx : Reach (poolServer versionObserver srv host past.db) (Prudent past) x) :
      History srv host ⟨x.receiver.db, past.msgs ++ receivedMessages x,
        past.growth + x.sender.1.chain.growth⟩

instance : DecidableRel Gaining := fun s act =>
  match act with
  | .attender i _ => inferInstanceAs (Decidable (∀ a ∈ s.attenders[i]?, ∀ x ∈ a.pc.sending, _ ∧ _))
  | .notify .. | .connect .. | .disconnect .. | .receive .. | .ready .. | .best .. | .missions ..
  | .mission .. | .submission .. | .land .. | .account .. => isTrue trivial

instance (past : Past) : DecidableRel (Prudent past) := fun x act =>
  match act with
  | .sender act => inferInstanceAs (Decidable (Orderly x.sender act ∧ Gaining x.sender.1 act))
  | .receiver (.payment _) => inferInstanceAs (Decidable ((List.map _ _).Nodup ∧ _ ≤ _))
  | .take | .receiver (.request ..) | .receiver (.handshake ..) | .receiver (.mineSuccess _)
  | .receiver (.addPool _) | .receiver (.addChallenge ..) => isTrue trivial

/-! ## What is sent -/

/-- A message for a gain is sound. -/
lemma Attender.sound {a : Attender} {latestProof : Proof} {contributions : Contributions}
    (id : Int64) (hold : a.oldProof.balance.toNat < 2 ^ 63)
    (hlatest : latestProof.balance.toNat < 2 ^ 63)
    (hrisen : a.oldProof.balance ≤ latestProof.balance)
    (hsum : (hashpowers contributions).sum < 2 ^ 64) :
    (a.mineSuccess id latestProof contributions).Sound where
  total := totalHashpower_eq_sum hsum
  rewards := by
    have hle := UInt64.le_iff_toNat_le.mp hrisen
    have hdiff : (a.mineSuccess id latestProof contributions).rewards.toInt =
        (latestProof.balance.toNat : ℤ) - a.oldProof.balance.toNat :=
      toInt_sub_toInt64 hlatest hold
    omega

/-- Rewards that are sound are what they promise. -/
lemma rewardsOf_sent {j : List Event} (hsound : ∀ ev ∈ j, ∀ msg ∈ ev.2.mineSuccess, msg.Sound) :
    rewardsOf (j.filterMap fun ev => ev.2.mineSuccess).reverse = promised j := by
  induction j with
  | nil => rfl
  | cons ev j ih =>
      obtain ⟨hev, hj⟩ := List.forall_mem_cons.mp hsound
      have ih := ih hj
      cases hmsg : ev.2.mineSuccess with
      | none =>
          simp only [List.filterMap_cons, hmsg]
          rw [ih, promised, promised, List.map_cons, List.sum_cons, Effect.promises, hmsg,
            Option.elim_none, Nat.zero_add]
      | some msg =>
          have hpos := (hev msg hmsg).rewards
          have hcons : (promised (ev :: j) : ℤ) = msg.rewards.toInt + promised j := by
            rw [promised, promised, List.map_cons, List.sum_cons, Effect.promises, hmsg,
              Option.elim_some, Nat.cast_add, Int.toNat_of_nonneg hpos]
          rw [hcons, ← ih]
          simp only [List.filterMap_cons, hmsg, List.reverse_cons, rewardsOf, List.map_append,
            List.sum_append, List.map_singleton, List.sum_singleton]
          exact Int.add_comm _ _

/-- The first messages are worth no more than all of them. -/
lemma rewardsOf_take {msgs : List MessageInternalMineSuccess} (h : ∀ msg ∈ msgs, msg.Sound)
    (n : ℕ) : rewardsOf (msgs.take n) ≤ rewardsOf msgs :=
  ((List.take_sublist n msgs).map _).sum_le_sum
    (List.forall_mem_map.mpr fun msg hmsg => (h msg hmsg).rewards)

section Sender

variable {srv : Server} {x : Sys × VersionNotes}

/-- In a run in which the rewards are gains, every message is sound. -/
theorem sound_of_gaining (h : Reach ((machine srv).observe versionObserver)
    (fun x act => Orderly x act ∧ Gaining x.1 act) x) :
    ∀ ev ∈ x.1.journal, ∀ msg ∈ ev.2.mineSuccess, msg.Sound := by
  refine h.observed_invariant
    (I := fun s _ => ∀ ev ∈ s.journal, ∀ msg ∈ ev.2.mineSuccess, msg.Sound) ?_ ?_
  · rintro _ ⟨p, rfl⟩
    exact nofun
  · intro s n act s' hr hi ⟨horderly, hgaining⟩ hs
    rcases Sys.step_roundMove hs with ⟨who, e, -, -, he, -, -, hj, -, -⟩ |
      ⟨reply, sub, e, -, hsub, rfl⟩ | ⟨i, reply, a, a', e, rfl, ha, hatt, rfl⟩
    · rw [hj]
      refine List.forall_mem_cons.mpr ⟨?_, hi⟩
      intro msg hmsg
      cases e with
      | sendMineSuccess _ => cases he
      | _ => cases hmsg
    · refine List.forall_mem_cons.mpr ⟨?_, hi⟩
      intro msg hmsg
      cases Submitter.step_move hsub <;> cases hmsg
    · refine List.forall_mem_cons.mpr ⟨?_, hi⟩
      intro msg hmsg
      cases Attender.step_move hatt with
      | @sendMineSuccess id latestProof contributions hpc =>
          obtain rfl := Option.some.inj hmsg
          obtain ⟨base, paid, hp⟩ := paidUpTo (hr.mono fun _ _ hc => hc.1)
          have hserial : Serial s := serial (hr.forget (D := Any) fun _ _ _ => trivial)
          obtain ⟨hver, -⟩ := hp.basis _ (hserial.basis_of_due ha
            (by rw [Attender.active, hpc]; rfl) (by rw [hpc]; rfl))
          obtain ⟨hlatest, -⟩ := hp.tracked.copies (.attender i) latestProof
            (by simp [Sys.copy, ha, hpc, AttenderPc.copy])
          obtain ⟨hrisen, hsum⟩ := hgaining a ha (latestProof, contributions) (by rw [hpc]; rfl)
          exact a.sound id (horderly.2.2 _ (List.mem_of_getElem? hver))
            (horderly.2.2 _ (List.mem_of_getElem? hlatest)) hrisen hsum
      | _ => cases hmsg

end Sender

/-! ## Runs -/

/-- The tables left behind are covered. -/
structure Past.Covered (host : Host) (past : Past) : Prop where
  books : Books host ⟨past.db, [], .receive⟩ past.msgs
  growth : rewardsOf past.msgs ≤ past.growth

section Server

variable {srv : Server} {host : Host} {past : Past} {x : PoolServer VersionNotes}

/-- The messages sent are sound, and those received are worth no more than the growth. -/
lemma worth_le (h : Reach (poolServer versionObserver srv host past.db) (Prudent past) x) :
    (∀ msg ∈ x.sender.1.sentMessages, msg.Sound) ∧
      rewardsOf (receivedMessages x) ≤ x.sender.1.chain.growth := by
  have hsender : Reach ((machine srv).observe versionObserver)
      (fun x act => Orderly x act ∧ Gaining x.1 act) x.sender :=
    Channel.sender_reach (fun _ _ hc => hc) h
  have hsound := sound_of_gaining hsender
  have hmsgs : ∀ msg ∈ x.sender.1.sentMessages, msg.Sound := by
    intro msg hmsg
    obtain ⟨ev, hev, hmsg⟩ := List.mem_filterMap.mp (List.mem_reverse.mp hmsg)
    exact hsound ev hev msg hmsg
  obtain ⟨base, paid, hp⟩ := paidUpTo (hsender.mono fun _ _ hc => hc.1)
  refine ⟨hmsgs, (rewardsOf_take hmsgs _).trans ?_⟩
  rw [Sys.sentMessages, rewardsOf_sent hsound]
  exact_mod_cast hp.promised_le

lemma rewardsOf_append (msgs msgs' : List MessageInternalMineSuccess) :
    rewardsOf (msgs ++ msgs') = rewardsOf msgs + rewardsOf msgs' := by
  rw [rewardsOf, List.map_append, List.sum_append, rewardsOf, rewardsOf]

/-- The books are right at every moment of a run. -/
theorem Past.Covered.books_of_reach (hpast : past.Covered host)
    (h : Reach (poolServer versionObserver srv host past.db) (Prudent past) x) :
    Books host x.receiver (past.msgs ++ receivedMessages x) := by
  refine Reach.observed_invariant (I := fun s msgs => Books host s (past.msgs ++ msgs))
    (C := fun y => Accountable (y.1, past.msgs ++ y.2)) ?_ ?_
    (Channel.receiver_reach (K := mineSuccessChannel versionObserver srv host past.db) ?_ ?_ h)
  · rintro s rfl
    exact hpast.books.append_nil
  · intro s msgs act s' _ hi hc hs
    have hnext := hi.step hc hs
    rw [List.append_assoc] at hnext
    exact hnext
  · intro y msg hy _ hmsg
    exact (worth_le hy).1 msg hmsg
  · intro y act hy hc hnone
    cases act with
    | mineSuccess msg => cases hnone
    | payment fault =>
        refine ⟨hc.1, le_trans ?_ hc.2⟩
        rw [rewardsOf_append]
        exact add_le_add hpast.growth (worth_le hy).2
    | _ => trivial

/-- Whatever is under way when the server is stopped, what is left is covered. -/
theorem History.covered (h : History srv host past) : past.Covered host := by
  induction h with
  | fresh => exact ⟨⟨nofun, List.Sublist.refl _, le_rfl, nofun, nofun⟩, le_rfl⟩
  | @stopped past x _ hx ih =>
      have hbooks := ih.books_of_reach hx
      refine ⟨⟨hbooks.sound, ?_, ?_, hbooks.plain, nofun⟩, ?_⟩
      · show (x.receiver.db.earnings ++ []).Sublist _
        rw [List.append_nil]
        exact (List.sublist_append_left _ _).trans hbooks.booked
      · have hpending :=
          splitAmounts_nonneg fun r hr => hbooks.rows r (List.mem_append_right _ hr)
        have hcredited := hbooks.credited
        show balances x.receiver.db.rewards + 0 ≤ rewardsOf (past.msgs ++ receivedMessages x)
        omega
      · rw [rewardsOf_append]
        exact_mod_cast add_le_add ih.growth (worth_le hx).2

end Server

/-! ## An example -/

namespace Replay

/-- The pool's row, and the miner's handshake. -/
def registration : List LedgerAction :=
  [.addPool none] ++ connect 0 [none, none, none, none, none]

end Replay

end OrePool
