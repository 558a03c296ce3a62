import OrePool.LedgerReplay
import OrePool.Lemmas.Balances

/-!
# Ledger agreement

What a miner has earned is written twice, as rows of `earnings` and as an increase of its balance
in `rewards`, by two calls that do not know of each other: the processor only logs what they
report, and an update of a miner without a rewards row is not even an error.

The two agree after every message if at each update of the rewards the balances are raised just
where earnings have been written (`Balanced`, `ledgerAgreement`).
-/

namespace OrePool

open Interleaving Tables

/-! ## The property -/

/-- A message has been paid out: each balance has grown by the earnings written, all of them for
the message's challenge. -/
def Agrees (before : Database) (msg : MessageInternalMineSuccess) (after : Database) : Prop :=
  ∃ earnings, after.earnings = before.earnings ++ earnings ∧
    (∀ e ∈ earnings, e.challengeId = msg.challengeId) ∧
    ∀ minerId, after.balanceOf minerId = before.balanceOf minerId + earnedBy minerId earnings

/-- What `auditor` keeps: the last message with the tables as they were when it came in, and
whether its earnings have been written. -/
structure Audit where
  last : Option (Database × MessageInternalMineSuccess)
  earned : Bool

/-- The notes after a call of the processor. -/
def Audit.after (n : Audit) (db : Database) (fault : Option Fault) : PaymentPc → Audit
  | .addEarnings _ rows =>
      ⟨n.last, (db.addNewEarningsBatch fault (rows.map MinerRows.earning)).2.isOk⟩
  | _ => n

def auditor : Observer Ledger LedgerAction Audit where
  start _ := ⟨none, false⟩
  note s act n :=
    match act with
    | .mineSuccess msg => ⟨some (s.db, msg), false⟩
    | .payment fault => n.after s.db fault s.payment
    | _ => n

/-- Whenever the processor waits for a message, the last one has been paid out, and the balances
are integers that say what has been earned so far. -/
structure LedgerAgreement (s : Ledger) (n : Audit) : Prop where
  integers : ∀ row ∈ s.db.rewards, row.balance.IsInt
  message : s.payment = .receive → ∀ before msg, n.last = some (before, msg) →
    Agrees before msg s.db
  total : s.payment = .receive → ∀ minerId,
    s.db.balanceOf minerId = earnedBy minerId s.db.earnings

/-! ## The condition -/

/-- The update of the rewards raises the balance of each miner it pays once if the earnings have
been written, and else not at all; and no balance leaves the integers. -/
def UpdateBalanced (db : Database) (earned : Bool) (fault : Option Fault)
    (updates : List UpdateReward) : Prop :=
  (∀ u ∈ updates, (amounts updates u.minerId).sum ≠ 0 →
    (if fault = none then (select RewardRow.minerId u.minerId db.rewards).length else 0) =
      if earned then 1 else 0) ∧
    (fault = none → AllAccrue updates db.rewards)

/-- The update of the rewards the processor is about to ask for. -/
def PaymentPc.updating : PaymentPc → Option (List UpdateReward)
  | .updateRewards _ rows => some (rows.map MinerRows.reward)
  | _ => none

/-- Every update of the rewards is balanced. -/
def Balanced (x : Ledger × Audit) : LedgerAction → Prop
  | .payment fault =>
      ∀ updates ∈ x.1.payment.updating, UpdateBalanced x.1.db x.2.earned fault updates
  | _ => True

instance (updates : List UpdateReward) (rows : List RewardRow) :
    Decidable (AllAccrue updates rows) :=
  inferInstanceAs (Decidable (∀ row ∈ rows, _))

instance (db : Database) (earned : Bool) (fault : Option Fault) (updates : List UpdateReward) :
    Decidable (UpdateBalanced db earned fault updates) :=
  inferInstanceAs (Decidable ((∀ u ∈ updates, _) ∧ (_ → _)))

instance : DecidableRel Balanced := fun x a =>
  match a with
  | .payment fault =>
      inferInstanceAs (Decidable (∀ updates ∈ x.1.payment.updating,
        UpdateBalanced x.1.db x.2.earned fault updates))
  | .request .. | .mineSuccess .. | .handshake .. | .addPool .. | .addChallenge .. => isTrue trivial

/-! ## Rows of a message -/

/-- The earnings and the update of a miner say the same. -/
def Coherent (msg : MessageInternalMineSuccess) (rows : List MinerRows) : Prop :=
  ∀ r ∈ rows, r.earning.minerId = r.reward.minerId ∧ r.earning.amount = r.reward.balance ∧
    r.earning.challengeId = msg.challengeId

lemma MessageInternalMineSuccess.coherent_rows {msg : MessageInternalMineSuccess} {poolId : Int32}
    {rows : List MinerRows} (h : msg.rows poolId = some rows) : Coherent msg rows := by
  intro r hr
  obtain ⟨pubkey, contribution, -, hrows⟩ := MessageInternalMineSuccess.entry_of_rows h hr
  obtain ⟨earned, -, rfl⟩ := Option.map_eq_some_iff.mp hrows
  exact ⟨rfl, rfl, rfl⟩

lemma Coherent.earnedBy {msg : MessageInternalMineSuccess} {rows : List MinerRows}
    (h : Coherent msg rows) (minerId : Int64) :
    earnedBy minerId (rows.map MinerRows.earning) =
      (amounts (rows.map MinerRows.reward) minerId).sum := by
  induction rows with
  | nil => rfl
  | cons r rows ih =>
      obtain ⟨hid, hamount, -⟩ := h r List.mem_cons_self
      have ih := ih fun r' hr' => h r' (List.mem_cons_of_mem _ hr')
      simp only [OrePool.earnedBy, amounts, total, select, List.map_cons, List.filter_cons, hid,
        decide_eq_true_eq] at ih ⊢
      split
      · simp only [List.map_cons, List.sum_cons, hamount, ih]
      · exact ih

/-! ## The two calls -/

section Calls

variable {sql : Sqlite} {db db' : Database} {fault : Option Fault}

/-- The batch is written as a whole or not at all. -/
lemma Database.addNewEarningsBatch_eq (db : Database) (fault : Option Fault)
    (earnings : List InsertEarning) :
    (db.addNewEarningsBatch fault earnings).1 = { db with earnings := db.earnings ++
      if (db.addNewEarningsBatch fault earnings).2.isOk then earnings else [] } := by
  rw [Database.addNewEarningsBatch]
  rcases db.executeBatch_cases fault .failedToInsertRow
    (some ({ db with earnings := db.earnings ++ earnings }, earnings.length)) with
    ⟨hdb, hfail⟩ | ⟨db', n, -, hresult, hdone⟩
  · rw [hdb, hfail]
    simp
  · obtain ⟨rfl, rfl⟩ := Prod.mk.inj (Option.some.inj hresult)
    rw [hdone]
    split
    · rename_i hzero
      simp [List.length_eq_zero_iff.mp hzero]
    · rfl

lemma Database.updateRewards_eq (updates : List UpdateReward) :
    (db.updateRewards sql fault updates).1 =
      if fault = none then { db with rewards := (creditAll sql updates db.rewards).1 } else db := by
  cases fault with
  | none => rfl
  | some fault => cases fault <;> rfl

/-- The same earnings and balances. -/
structure SameAccounts (db db' : Database) : Prop where
  earnings : db'.earnings = db.earnings
  balances : ∀ minerId, db'.balanceOf minerId = db.balanceOf minerId
  integers : (∀ row ∈ db.rewards, row.balance.IsInt) → ∀ row ∈ db'.rewards, row.balance.IsInt

/-- No other call touches them: a new rewards row starts at nothing. -/
lemma Database.write_sameAccounts (sql : Sqlite) (db : Database) (fault : Option Fault) (w : Write)
    (hearnings : ∀ earnings, w ≠ .addNewEarningsBatch earnings)
    (hrewards : ∀ rewards, w ≠ .updateRewards rewards) :
    SameAccounts db (db.write sql fault w).1 := by
  refine db.write_induction sql fault w ⟨rfl, fun _ => rfl, id⟩ fun db' hmove => ?_
  cases hmove with
  | addNewEarningsBatch earnings => exact absurd rfl (hearnings earnings)
  | updateRewards rewards => exact absurd rfl (hrewards rewards)
  | addNewReward reward =>
      refine ⟨rfl, ?_, ?_⟩
      · intro minerId
        simp only [Database.balanceOf, total_append]
        have hzero : total RewardRow.minerId (fun row => row.balance.toInt) minerId
            [⟨reward.minerId, reward.poolId, .int 0⟩] = 0 := by
          rw [total, select_singleton]
          split
          · rfl
          · rfl
        rw [hzero, add_zero]
      · intro hint row hrow
        rcases List.mem_append.mp hrow with hrow | hrow
        · exact hint row hrow
        · obtain rfl := List.mem_singleton.mp hrow
          exact ⟨0, rfl⟩
  | _ => exact ⟨rfl, fun _ => rfl, id⟩

lemma HandshakePc.step_sameAccounts {host : Host} {req : Request} {pc pc' : HandshakePc}
    (h : pc.step host req db fault = some (pc', db')) : SameAccounts db db' := by
  rcases HandshakePc.step_writes h with rfl | ⟨w, hw, rfl⟩
  · exact ⟨rfl, fun _ => rfl, id⟩
  · refine Database.write_sameAccounts _ _ _ _ ?_ ?_
    · intro _ hne
      subst hne
      cases hw
    · intro _ hne
      subst hne
      cases hw

/-- A balanced update raises each balance by what its miner has earned. -/
lemma UpdateBalanced.balanceOf {msg : MessageInternalMineSuccess} {rows : List MinerRows}
    {earned : Bool} (sql : Sqlite) (h : UpdateBalanced db earned fault (rows.map MinerRows.reward))
    (hrows : Coherent msg rows) (hint : ∀ row ∈ db.rewards, row.balance.IsInt) (minerId : Int64) :
    (db.updateRewards sql fault (rows.map MinerRows.reward)).1.balanceOf minerId =
      db.balanceOf minerId +
        OrePool.earnedBy minerId (if earned then rows.map MinerRows.earning else []) := by
  have hearned : OrePool.earnedBy minerId (if earned then rows.map MinerRows.earning else []) =
      if earned then (amounts (rows.map MinerRows.reward) minerId).sum else 0 := by
    split
    · exact hrows.earnedBy minerId
    · rfl
  -- the number of times the miner is paid is the number of times its earnings are written
  have htimes : (amounts (rows.map MinerRows.reward) minerId).sum ≠ 0 →
      (if fault = none then (select RewardRow.minerId minerId db.rewards).length else 0) =
        if earned then 1 else 0 := by
    intro hsum
    have hne : select UpdateReward.minerId minerId (rows.map MinerRows.reward) ≠ [] := by
      intro hnil
      exact hsum (by rw [amounts, hnil]; rfl)
    obtain ⟨u, hu⟩ := List.exists_mem_of_ne_nil _ hne
    obtain ⟨hmem, rfl⟩ := mem_select.mp hu
    exact h.1 u hmem hsum
  rw [Database.updateRewards_eq, hearned]
  by_cases hfault : fault = none
  · rw [if_pos hfault, Database.balanceOf, total_creditAll hint (h.2 hfault)]
    refine congrArg _ ?_
    by_cases hsum : (amounts (rows.map MinerRows.reward) minerId).sum = 0
    · simp [hsum]
    · have hlen := htimes hsum
      rw [if_pos hfault] at hlen
      rw [hlen]
      cases earned <;> simp
  · rw [if_neg hfault]
    by_cases hsum : (amounts (rows.map MinerRows.reward) minerId).sum = 0
    · simp [hsum]
    · have hlen := htimes hsum
      rw [if_neg hfault] at hlen
      cases earned
      · simp
      · cases hlen

end Calls

/-! ## Runs -/

/-- The balances say what has been earned. -/
def Database.Settled (db : Database) : Prop :=
  ∀ minerId, db.balanceOf minerId = earnedBy minerId db.earnings

/-- What holds between two calls for a message: the earnings have been written or not, and the
balances are still what they were, until both have been dealt with. -/
def PaymentPc.Accounted (db : Database) (n : Audit) : PaymentPc → Prop
  | .receive => db.Settled ∧ ∀ before msg, n.last = some (before, msg) → Agrees before msg db
  | .addEarnings msg rows => Coherent msg rows ∧ ∃ before, n.last = some (before, msg) ∧
      before.Settled ∧ db.earnings = before.earnings ∧
      ∀ minerId, db.balanceOf minerId = before.balanceOf minerId
  | .updateRewards msg rows => Coherent msg rows ∧ ∃ before, n.last = some (before, msg) ∧
      before.Settled ∧
      db.earnings = before.earnings ++ (if n.earned then rows.map MinerRows.earning else []) ∧
      ∀ minerId, db.balanceOf minerId = before.balanceOf minerId
  | .addContributions msg _ | .updatePool msg | .getContributionId msg | .updateChallenge msg _ =>
      ∃ before, n.last = some (before, msg) ∧ before.Settled ∧ Agrees before msg db
  | .panicked => True

/-- The balances are integers and the message under way is accounted for. -/
structure Audited (s : Ledger) (n : Audit) : Prop where
  integers : ∀ row ∈ s.db.rewards, row.balance.IsInt
  payment : s.payment.Accounted s.db n

section Audited

variable {host : Host} {db db' before : Database} {n : Audit} {msg : MessageInternalMineSuccess}
  {rows : List MinerRows} {fault : Option Fault} {pc pc' : PaymentPc}

lemma Agrees.refl (db : Database) (msg : MessageInternalMineSuccess) : Agrees db msg db := by
  refine ⟨[], (List.append_nil _).symm, List.forall_mem_nil _, ?_⟩
  intro minerId
  show db.balanceOf minerId = db.balanceOf minerId + 0
  omega

lemma Agrees.settled (h : Agrees before msg db) (hb : before.Settled) : db.Settled := by
  obtain ⟨earnings, hearnings, -, hbalances⟩ := h
  intro minerId
  rw [hbalances, hb, hearnings, earnedBy, earnedBy, earnedBy, total_append]

lemma Agrees.congr (h : Agrees before msg db) (hs : SameAccounts db db') :
    Agrees before msg db' := by
  obtain ⟨earnings, hearnings, hchallenge, hbalances⟩ := h
  exact ⟨earnings, hs.earnings.trans hearnings, hchallenge, fun minerId =>
    (hs.balances minerId).trans (hbalances minerId)⟩

lemma PaymentPc.Accounted.congr (hi : pc.Accounted db n) (hs : SameAccounts db db') :
    pc.Accounted db' n := by
  cases pc with
  | receive =>
      refine ⟨?_, fun before msg hlast => (hi.2 before msg hlast).congr hs⟩
      intro minerId
      rw [hs.balances, hs.earnings]
      exact hi.1 minerId
  | addEarnings msg rows | updateRewards msg rows =>
      obtain ⟨hrows, before, hlast, hb, hearnings, hbalances⟩ := hi
      exact ⟨hrows, before, hlast, hb, hs.earnings.trans hearnings, fun minerId =>
        (hs.balances minerId).trans (hbalances minerId)⟩
  | addContributions msg _ | updatePool msg | getContributionId msg | updateChallenge msg _ =>
      obtain ⟨before, hlast, hb, hagrees⟩ := hi
      exact ⟨before, hlast, hb, hagrees.congr hs⟩
  | panicked => trivial

/-- A message comes in with everything settled. -/
lemma PaymentPc.accounted_open (hb : db.Settled) (earned : Bool) :
    (PaymentPc.open host msg).Accounted db ⟨some (db, msg), earned⟩ := by
  rw [PaymentPc.open]
  split
  · split
    · trivial
    · exact ⟨db, rfl, hb, .refl db msg⟩
    · rename_i hrows
      exact ⟨MessageInternalMineSuccess.coherent_rows hrows, db, rfl, hb, rfl, fun _ => rfl⟩
  · refine ⟨hb, ?_⟩
    intro before msg' hlast
    obtain ⟨rfl, rfl⟩ := Prod.mk.inj (Option.some.inj hlast)
    exact .refl db msg

/-- One call of the processor. -/
lemma PaymentPc.Accounted.step (hi : pc.Accounted db n)
    (hint : ∀ row ∈ db.rewards, row.balance.IsInt)
    (hc : ∀ updates ∈ pc.updating, UpdateBalanced db n.earned fault updates)
    (h : pc.step host db fault = some (pc', db')) :
    (∀ row ∈ db'.rewards, row.balance.IsInt) ∧ pc'.Accounted db' (n.after db fault pc) := by
  cases pc with
  | receive | panicked => cases h
  | addEarnings msg rows =>
      obtain ⟨rfl, rfl⟩ := Prod.mk.inj (Option.some.inj h)
      obtain ⟨hrows, before, hlast, hb, hearnings, hbalances⟩ := hi
      have hdb := db.addNewEarningsBatch_eq fault (rows.map MinerRows.earning)
      refine ⟨?_, hrows, before, hlast, hb, ?_, ?_⟩
      · rw [hdb]
        exact hint
      · rw [hdb, ← hearnings]
        rfl
      · intro minerId
        rw [hdb]
        exact hbalances minerId
  | updateRewards msg rows =>
      obtain ⟨rfl, rfl⟩ := Prod.mk.inj (Option.some.inj h)
      obtain ⟨hrows, before, hlast, hb, hearnings, hbalances⟩ := hi
      have hbalanced := hc _ rfl
      have hgrown := hbalanced.balanceOf host.sql hrows hint
      rw [Database.updateRewards_eq] at hgrown ⊢
      refine ⟨?_, before, hlast, hb, if n.earned then rows.map MinerRows.earning else [], ?_, ?_,
        ?_⟩
      · split
        · exact creditAll_isInt hint (hbalanced.2 ‹_›)
        · exact hint
      · split
        · exact hearnings
        · exact hearnings
      · intro e he
        split at he
        · obtain ⟨r, hr, rfl⟩ := List.mem_map.mp he
          exact (hrows r hr).2.2
        · cases he
      · intro minerId
        rw [hgrown minerId, hbalances minerId]
  | addContributions msg rows =>
      obtain ⟨rfl, rfl⟩ := Prod.mk.inj (Option.some.inj h)
      obtain ⟨before, hlast, hb, hagrees⟩ := hi
      have hs := db.write_sameAccounts host.sql fault
        (.addNewContributionsBatch (rows.map MinerRows.contribution)) (by simp) (by simp)
      exact ⟨hs.integers hint, before, hlast, hb, hagrees.congr hs⟩
  | updatePool msg =>
      obtain ⟨rfl, rfl⟩ := Prod.mk.inj (Option.some.inj h)
      obtain ⟨before, hlast, hb, hagrees⟩ := hi
      have hs := db.write_sameAccounts host.sql fault
        (.updatePoolRewards host.wallet msg.rewards) (by simp) (by simp)
      refine ⟨hs.integers hint, ?_⟩
      split
      · exact ⟨before, hlast, hb, hagrees.congr hs⟩
      · exact ⟨before, hlast, hb, hagrees.congr hs⟩
  | getContributionId msg =>
      simp only [PaymentPc.step] at h
      split at h
      · obtain ⟨rfl, rfl⟩ := Prod.mk.inj (Option.some.inj h)
        exact ⟨hint, hi⟩
      · obtain ⟨rfl, rfl⟩ := Prod.mk.inj (Option.some.inj h)
        exact ⟨hint, hi⟩
  | updateChallenge msg contributionId =>
      obtain ⟨rfl, rfl⟩ := Prod.mk.inj (Option.some.inj h)
      obtain ⟨before, hlast, hb, hagrees⟩ := hi
      have hs := db.write_sameAccounts host.sql fault
        (.updateChallengeRewards msg.challenge.toList contributionId msg.rewards)
        (by simp) (by simp)
      refine ⟨hs.integers hint, (hagrees.congr hs).settled hb, ?_⟩
      intro before' msg' hlast'
      obtain ⟨rfl, rfl⟩ := Prod.mk.inj (Option.some.inj (hlast.symm.trans hlast'))
      exact hagrees.congr hs

/-- One step of whichever task. -/
theorem Audited.step {s s' : Ledger} {act : LedgerAction} (hi : Audited s n)
    (hc : Balanced (s, n) act) (hs : s.step host act = some s') :
    Audited s' (auditor.note s act n) := by
  have hother : ∀ {db' handshakes}, SameAccounts s.db db' →
      Audited ⟨db', handshakes, s.payment⟩ n := fun h =>
    ⟨h.integers hi.integers, hi.payment.congr h⟩
  cases Ledger.step_move hs with
  | request req now connected => exact ⟨hi.integers, hi.payment⟩
  | handshake hpc hstep => exact hother (HandshakePc.step_sameAccounts hstep)
  | mineSuccess msg hpc =>
      have hsettled := hi.payment
      rw [hpc] at hsettled
      exact ⟨hi.integers, PaymentPc.accounted_open hsettled.1 false⟩
  | payment hstep =>
      obtain ⟨hint, hpayment⟩ := hi.payment.step hi.integers hc hstep
      exact ⟨hint, hpayment⟩
  | addPool fault =>
      exact hother (s.db.write_sameAccounts host.sql fault
        (.addNewPool host.wallet host.walletProof) (by simp) (by simp))
  | addChallenge challenge fault =>
      exact hother (s.db.write_sameAccounts host.sql fault
        (.addNewChallenge challenge) (by simp) (by simp))

end Audited

/-- **Ledger agreement.**  In every run in which every update of the rewards is balanced, whenever
the processor waits for a message each balance has grown by the earnings written for the last one,
and says what has been earned so far. -/
theorem ledgerAgreement {host : Host} {x : Ledger × Audit}
    (h : Reach ((ledger host).observe auditor) Balanced x) : LedgerAgreement x.1 x.2 := by
  have hi : Audited x.1 x.2 := by
    refine h.observed_invariant ?_ fun s n act s' _ hi hc hs => hi.step hc hs
    rintro _ rfl
    refine ⟨List.forall_mem_nil _, fun _ => rfl, ?_⟩
    intro before msg hlast
    cases hlast
  have hpayment := hi.payment
  refine ⟨hi.integers, ?_, ?_⟩
  · intro hpc
    rw [hpc] at hpayment
    exact hpayment.2
  · intro hpc
    rw [hpc] at hpayment
    exact hpayment.1

/-- A registered miner is paid. -/
theorem ledgerAgreement_paid :
    ∃ x, Reach ((ledger Replay.host).observe auditor) Balanced x ∧
      (x.1.payment = .receive ∧ x.1.db.balanceOf 1 = 1000) ∧ LedgerAgreement x.1 x.2 := by
  obtain ⟨x, hr, hx⟩ := exists_of_ledgerObserved Replay.host auditor Balanced
    ([.addPool none] ++ Replay.connect 0 [none, none, none, none, none] ++
      Replay.pay 1000 [none, none, none, none, none, none])
    (fun x => decide (x.1.payment = .receive ∧ x.1.db.balanceOf 1 = 1000)) (by decide +kernel)
  exact ⟨x, hr, by simpa only [decide_eq_true_eq] using hx, ledgerAgreement hr⟩

/-- The earnings are written, and for the update of the rewards there is no connection. -/
theorem not_ledgerAgreement :
    ¬ ∀ host x, host.poweredByDbms = .sqlite → Reach ((ledger host).observe auditor) Any x →
      LedgerAgreement x.1 x.2 := by
  intro hall
  obtain ⟨x, hr, hx⟩ := exists_of_ledgerObserved Replay.host auditor Any
    ([.addPool none] ++ Replay.connect 0 [none, none, none, none, none] ++
      Replay.pay 1000 [none, some .connection, none, none, none, none])
    (fun x => decide (x.1.payment = .receive ∧ x.1.db.balanceOf 1 = 0 ∧
      earnedBy 1 x.1.db.earnings = 1000)) (by decide +kernel)
  simp only [decide_eq_true_eq] at hx
  have htotal := (hall Replay.host x rfl hr).total hx.1 1
  rw [hx.2.1, hx.2.2] at htotal
  cases htotal

end OrePool
