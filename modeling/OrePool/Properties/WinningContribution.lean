import OrePool.Lemmas.Handshakes
import OrePool.LedgerReplay

/-!
# The winning contribution

When a round is paid, the row of its challenge is linked to the contribution that won it.
`WinningLinked` says that the id written there is that of a contribution to the same challenge, with
the winning nonce.

The id is looked up by the nonce alone, and nonces start over with every epoch.  The newest row with
the nonce is the right one if the message's own batch has been inserted, but a batch that fails is
merely logged: then the newest is a row of an earlier epoch (`not_winningLinked`).  As long as that
does not happen the link is right (`winningLinked`).
-/

namespace OrePool

open Interleaving Tables Traversal

/-! ## The property -/

/-- **Winning contribution.**  The id that goes into the row of the challenge is that of a
contribution to it with the best nonce. -/
def WinningLinked (s : Ledger) : Prop :=
  ∀ msg contributionId, s.payment = .updateChallenge msg contributionId →
    ∃ row ∈ s.db.contributions, row.id = contributionId ∧ row.challengeId = msg.challengeId ∧
      row.nonce = msg.bestNonce.toInt64

/-- The best nonce of the message was supplied in one of its contributions. -/
def MessageInternalMineSuccess.Won (msg : MessageInternalMineSuccess) : Prop :=
  ∃ entry ∈ msg.contributions.entries, entry.2.suppliedNonce = msg.bestNonce

instance (msg : MessageInternalMineSuccess) : Decidable msg.Won :=
  inferInstanceAs (Decidable (∃ entry ∈ msg.contributions.entries,
    entry.2.suppliedNonce = msg.bestNonce))

/-- The best nonce of every message is one of its own. -/
def Winning (_ : Ledger) : LedgerAction → Prop
  | .mineSuccess msg => msg.Won
  | _ => True

instance : DecidableRel Winning := fun _ act =>
  match act with
  | .mineSuccess msg => inferInstanceAs (Decidable msg.Won)
  | .request .. | .handshake .. | .payment .. | .addPool .. | .addChallenge .. => isTrue trivial

/-- The row that is newest for the best nonce, if there is one, is of the message's challenge. -/
def MessageInternalMineSuccess.Newest (msg : MessageInternalMineSuccess) (db : Database) : Prop :=
  ∀ row ∈ newest ContributionRow.nonce msg.bestNonce.toInt64 db.contributions,
    row.challengeId = msg.challengeId

instance (msg : MessageInternalMineSuccess) (db : Database) : Decidable (msg.Newest db) :=
  inferInstanceAs (Decidable (∀ row ∈ newest ContributionRow.nonce msg.bestNonce.toInt64
    db.contributions, row.challengeId = msg.challengeId))

/-- The contributions of a message are inserted, or the newest row for its nonce is of its challenge
without them. -/
def PaymentPc.Stores (db : Database) (fault : Option Fault) : PaymentPc → Prop
  | .addContributions msg rows =>
      (db.addNewContributionsBatch fault (rows.map MinerRows.contribution)).2.isOk = true ∨
        msg.Newest db
  | _ => True

instance (db : Database) (fault : Option Fault) : DecidablePred (PaymentPc.Stores db fault) :=
  fun pc =>
    match pc with
    | .addContributions _ _ => inferInstanceAs (Decidable (_ ∨ _))
    | .receive | .addEarnings _ _ | .updateRewards _ _ | .updatePool _ | .getContributionId _
    | .updateChallenge _ _ | .panicked => isTrue trivial

/-- What goes wrong around the payment processor's call, if it is its turn. -/
def LedgerAction.paymentFault : LedgerAction → Option (Option Fault)
  | .payment fault => some fault
  | _ => none

/-- The runs in which winning contributions are stored. -/
def WinnerStored (s : Ledger) (act : LedgerAction) : Prop :=
  Winning s act ∧ ∀ fault ∈ act.paymentFault, s.payment.Stores s.db fault

instance : DecidableRel WinnerStored := fun s act =>
  inferInstanceAs (Decidable (Winning s act ∧
    ∀ fault ∈ act.paymentFault, s.payment.Stores s.db fault))

/-! ## What is written -/

/-- The rows of a message cover its contributions and name its challenge. -/
lemma MessageInternalMineSuccess.rows_contribution {msg : MessageInternalMineSuccess}
    {poolId : Int32} {rows : List MinerRows} (hrows : msg.rows poolId = some rows) :
    (∀ entry ∈ msg.contributions.entries, ∃ r ∈ rows,
        r.contribution.nonce = entry.2.suppliedNonce) ∧
      ∀ r ∈ rows, r.contribution.challengeId = msg.challengeId := by
  have hall := forall₂_of_mapM hrows
  refine ⟨?_, ?_⟩
  · intro entry hentry
    obtain ⟨r, hr, hrow⟩ := exists_of_forall₂_left hall hentry
    exact ⟨r, hr, (msg.minerRows_ids hrow).2⟩
  · intro r hr
    obtain ⟨entry, -, hrow⟩ := exists_of_forall₂_right hall hr
    obtain ⟨earned, -, rfl⟩ := Option.map_eq_some_iff.mp hrow
    rfl

/-- When the batch of a message has been inserted, the newest row for its nonce is its own. -/
lemma MessageInternalMineSuccess.newest_of_batch {msg : MessageInternalMineSuccess} {poolId : Int32}
    {rows : List MinerRows} (hwon : msg.Won) (hrows : msg.rows poolId = some rows) {db : Database}
    {fault : Option Fault}
    (hok : (db.addNewContributionsBatch fault (rows.map MinerRows.contribution)).2.isOk = true) :
    msg.Newest (db.addNewContributionsBatch fault (rows.map MinerRows.contribution)).1 := by
  rcases db.addNewContributionsBatch_cases fault (rows.map MinerRows.contribution) with
    ⟨-, hfail⟩ | ⟨new, hnew, heq⟩
  · rw [hfail] at hok
    cases hok
  · obtain ⟨hcover, hchallenge⟩ := msg.rows_contribution hrows
    obtain ⟨entry, hentry, hnonce⟩ := hwon
    obtain ⟨r, hr, hrnonce⟩ := hcover entry hentry
    obtain ⟨row, hrow, hrecords⟩ := exists_of_forall₂_left hnew (List.mem_map_of_mem hr)
    have hkey : row.nonce = msg.bestNonce.toInt64 := by rw [hrecords.nonce, hrnonce, hnonce]
    obtain ⟨latest, hlatest⟩ : ∃ latest,
        newest ContributionRow.nonce msg.bestNonce.toInt64 new = some latest :=
      exists_newest hrow hkey
    intro row' hrow'
    rw [heq, newest_append, hlatest] at hrow'
    obtain rfl := Option.some.inj hrow'
    obtain ⟨c, hc, hrecords'⟩ := exists_of_forall₂_right hnew (mem_of_newest hlatest).1
    obtain ⟨r', hr', rfl⟩ := List.mem_map.mp hc
    rw [hrecords'.challengeId, hchallenge r' hr']

/-! ## Runs -/

/-- What the payment processor has made sure of at each of its positions. -/
def PaymentPc.Linked (host : Host) (db : Database) : PaymentPc → Prop
  | .addEarnings msg rows | .updateRewards msg rows | .addContributions msg rows =>
      msg.Won ∧ msg.rows host.poolId = some rows
  | .updatePool msg | .getContributionId msg => msg.Newest db
  | .updateChallenge msg contributionId => ∃ row ∈ db.contributions, row.id = contributionId ∧
      row.challengeId = msg.challengeId ∧ row.nonce = msg.bestNonce.toInt64
  | .receive | .panicked => True

/-- That depends on the contributions alone. -/
lemma PaymentPc.Linked.congr {host : Host} {db db' : Database} {pc : PaymentPc}
    (hdb : db'.contributions = db.contributions) (h : pc.Linked host db) : pc.Linked host db' := by
  cases pc with
  | updatePool msg | getContributionId msg =>
      intro row hrow
      exact h row (hdb ▸ hrow)
  | updateChallenge msg contributionId =>
      obtain ⟨row, hrow, hids⟩ := h
      exact ⟨row, hdb ▸ hrow, hids⟩
  | addEarnings _ _ | updateRewards _ _ | addContributions _ _ => exact h
  | receive | panicked => trivial

lemma PaymentPc.Linked.open {host : Host} {db : Database} {msg : MessageInternalMineSuccess}
    (hwon : msg.Won) : (PaymentPc.open host msg).Linked host db := by
  rw [PaymentPc.open]
  split
  · split
    · trivial
    · rename_i hrows
      -- a message that was won has a row
      obtain ⟨entry, hentry, -⟩ := hwon
      obtain ⟨r, hr, -⟩ := (msg.rows_contribution hrows).1 entry hentry
      cases hr
    · exact ⟨hwon, ‹_›⟩
  · trivial

theorem PaymentPc.Linked.step {host : Host} {db db' : Database} {fault : Option Fault}
    {pc pc' : PaymentPc} (hi : pc.Linked host db) (hc : pc.Stores db fault)
    (h : pc.step host db fault = some (pc', db')) : pc'.Linked host db' := by
  cases pc with
  | receive | panicked => cases h
  | addEarnings msg rows | updateRewards msg rows =>
      obtain ⟨rfl, rfl⟩ := Prod.mk.inj (Option.some.inj h)
      exact hi
  | addContributions msg rows =>
      obtain ⟨rfl, rfl⟩ := Prod.mk.inj (Option.some.inj h)
      by_cases hok :
          (db.addNewContributionsBatch fault (rows.map MinerRows.contribution)).2.isOk = true
      · exact MessageInternalMineSuccess.newest_of_batch hi.1 hi.2 hok
      · rcases db.addNewContributionsBatch_cases fault (rows.map MinerRows.contribution) with
          ⟨hdb, -⟩ | ⟨new, hnew, heq⟩
        · rw [hdb]
          exact hc.resolve_left hok
        · -- a batch with rows does not fail for want of them
          obtain ⟨entry, hentry, -⟩ := hi.1
          obtain ⟨r, hr, -⟩ := (msg.rows_contribution hi.2).1 entry hentry
          have hlen : (rows.map MinerRows.contribution).length ≠ 0 := by
            simpa using List.ne_nil_of_mem hr
          rw [heq, if_neg hlen] at hok
          exact absurd rfl hok
  | updatePool msg =>
      obtain ⟨rfl, rfl⟩ := Prod.mk.inj (Option.some.inj h)
      have hdb : (db.updatePoolRewards host.sql fault host.wallet msg.rewards).1.contributions =
          db.contributions :=
        db.write_contributions host.sql fault
          (w := .updatePoolRewards host.wallet msg.rewards) nofun
      split
      · exact PaymentPc.Linked.congr hdb (show (getContributionId msg).Linked host db from hi)
      · exact PaymentPc.Linked.congr hdb (show (updatePool msg).Linked host db from hi)
  | getContributionId msg =>
      rw [PaymentPc.step] at h
      split at h
      · rename_i contributionId hget
        obtain ⟨rfl, rfl⟩ := Prod.mk.inj (Option.some.inj h)
        obtain ⟨row, hrow, hid⟩ := Option.map_eq_some_iff.mp (queryRow_eq_ok hget).2
        obtain ⟨hmem, hnonce⟩ := mem_of_newest hrow
        exact ⟨row, hmem, hid, hi row hrow, hnonce⟩
      · obtain ⟨rfl, rfl⟩ := Prod.mk.inj (Option.some.inj h)
        exact hi
  | updateChallenge msg contributionId =>
      obtain ⟨rfl, rfl⟩ := Prod.mk.inj (Option.some.inj h)
      trivial

theorem Ledger.linked_step {host : Host} {s s' : Ledger} {act : LedgerAction}
    (hi : s.payment.Linked host s.db) (hc : WinnerStored s act) (hs : s.step host act = some s') :
    s'.payment.Linked host s'.db := by
  cases Ledger.step_move hs with
  | request _ _ _ => exact hi
  | handshake _ hstep =>
      refine hi.congr ?_
      rcases HandshakePc.step_writes hstep with rfl | ⟨w, hw, rfl⟩
      · rfl
      · exact Database.write_contributions _ _ _ (by cases hw <;> nofun)
  | mineSuccess msg _ => exact .open hc.1
  | payment hstep => exact hi.step (hc.2 _ rfl) hstep
  | addPool fault =>
      exact hi.congr (s.db.write_contributions host.sql fault
        (w := .addNewPool host.wallet host.walletProof) nofun)
  | addChallenge challenge fault =>
      exact hi.congr (s.db.write_contributions host.sql fault
        (w := .addNewChallenge challenge) nofun)

/-- **Winning contribution.**  In every run in which the contributions of every message are
inserted, or the newest row for its nonce is of its challenge all the same, the id written to a
challenge is that of a contribution to it with the best nonce. -/
theorem winningLinked {host : Host} {s : Ledger} (h : Reach (ledger host) WinnerStored s) :
    WinningLinked s := by
  have hlinked : s.payment.Linked host s.db := by
    refine h.invariant (I := fun s => s.payment.Linked host s.db) ?_ ?_
    · intro s h0
      obtain rfl : s = .start := h0
      trivial
    · intro s act s' _ hi hc hs
      exact Ledger.linked_step hi hc hs
  intro msg contributionId hpc
  rw [hpc] at hlinked
  exact hlinked

/-! ## Examples -/

/-- The call that links a challenge to a contribution is next. -/
def PaymentPc.Links (challengeId contributionId : Int64) (pc : PaymentPc) : Prop :=
  ∃ msg, pc = .updateChallenge msg contributionId ∧ msg.challengeId = challengeId

/-- The same, as a check. -/
def PaymentPc.links (challengeId contributionId : Int64) : PaymentPc → Bool
  | .updateChallenge msg id => msg.challengeId = challengeId && id = contributionId
  | _ => false

lemma PaymentPc.Links.of_links {challengeId contributionId : Int64} {pc : PaymentPc}
    (h : pc.links challengeId contributionId = true) : pc.Links challengeId contributionId := by
  cases pc with
  | updateChallenge msg id =>
      simp only [PaymentPc.links, Bool.and_eq_true, decide_eq_true_eq] at h
      exact ⟨msg, by rw [h.2], h.1⟩
  | _ => cases h

/-- The pool exists, and a message has been paid but for the last call. -/
def Replay.paid : List LedgerAction := [.addPool none] ++ pay 100 (List.replicate 5 none)

/-- A message paid without a fault meets the condition of `winningLinked`. -/
theorem winningLinked_paid :
    ∃ s, Reach (ledger Replay.host) WinnerStored s ∧ s.payment.Links 1 1 ∧ WinningLinked s := by
  obtain ⟨s, hr, hs⟩ := exists_of_ledger Replay.host WinnerStored Replay.paid
    (fun s => s.payment.links 1 1) (by decide +kernel)
  exact ⟨s, hr, .of_links hs, winningLinked hr⟩

/-- A second message with the same nonce, for the next challenge, whose contributions are not
inserted. -/
def Replay.nextMineSuccess : MessageInternalMineSuccess :=
  { mineSuccess 1 100 with challengeId := 2, challenge := Vector.replicate 32 2 }

/-- Without the condition the challenge can be linked to a contribution of an earlier one. -/
theorem not_winningLinked :
    ¬ ∀ host s, Reach (ledger host) Winning s → WinningLinked s := by
  intro h
  obtain ⟨s, hr, hs⟩ := exists_of_ledger Replay.host Winning
    (Replay.paid ++ [.payment none, .mineSuccess Replay.nextMineSuccess, .payment none,
      .payment none, .payment (some .query), .payment none, .payment none])
    (fun s => s.payment.links 2 1 && s.db.contributions.all fun row => row.challengeId = 1)
    (by decide +kernel)
  obtain ⟨hpc, hrows⟩ := Bool.and_eq_true_iff.mp hs
  obtain ⟨msg, hpc, hid⟩ := PaymentPc.Links.of_links hpc
  obtain ⟨row, hrow, -, hchallenge, -⟩ := h _ s hr _ _ hpc
  have h1 : row.challengeId = 1 := of_decide_eq_true (List.all_eq_true.mp hrows row hrow)
  rw [hid, h1] at hchallenge
  exact absurd hchallenge (by decide)

end OrePool
