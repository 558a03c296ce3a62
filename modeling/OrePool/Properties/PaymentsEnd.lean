import OrePool.Core.Budget
import OrePool.Properties.PoolTotal
import OrePool.Properties.WinningContribution

/-!
# Payments end

`pool_mine_success_processor` pays one message after the other.  On the way are two loops: the
pool's total and the id of the winning contribution are asked for again after every error.
`PaymentsEnd` says what that comes to.  A message takes six calls to the database at most, and one
more for each call in a loop that has failed; every other call brings the processor forward.

One failure does not pass.  A batch of contributions that is not inserted is merely logged.  Then
there may be no row with the winning nonce, and nobody but the processor would insert one: the
message is `lost`.  The processor asks for the row forever, and no other message is received however
well the database is again.  That happens only after a batch has failed or when the winning nonce is
not among the contributions of its message.
-/

namespace OrePool

open Interleaving Tables Traversal

/-! ## What is counted -/

/-- The calls a message still takes if they go through. -/
def PaymentPc.fuel : PaymentPc → ℕ
  | .receive => 0
  | .addEarnings _ _ => 6
  | .updateRewards _ _ => 5
  | .addContributions _ _ => 4
  | .updatePool _ => 3
  | .getContributionId _ => 2
  | .updateChallenge _ _ => 1
  | .panicked => 0

/-- The call is one in a loop and does not go through: something goes wrong around it, or the row
is missing. -/
def PaymentPc.retried (host : Host) (db : Database) (fault : Option Fault) : PaymentPc → Bool
  | .updatePool _ =>
      fault.isSome || (select PoolRow.authorityPubkey host.wallet db.pools).isEmpty
  | .getContributionId msg => fault.isSome ||
      (select ContributionRow.nonce msg.bestNonce.toInt64 db.contributions).isEmpty
  | _ => false

/-- The message whose winning contribution has no row when it comes to the loops. -/
def PaymentPc.lost (db : Database) : PaymentPc → Option MessageInternalMineSuccess
  | .updatePool msg | .getContributionId msg =>
      if (select ContributionRow.nonce msg.bestNonce.toInt64 db.contributions).isEmpty then some msg
      else none
  | _ => none

def LedgerAction.messages : LedgerAction → ℕ
  | .mineSuccess _ => 1
  | _ => 0

def LedgerAction.calls : LedgerAction → ℕ
  | .payment _ => 1
  | _ => 0

def Ledger.retries (host : Host) (s : Ledger) : LedgerAction → ℕ
  | .payment fault => if s.payment.retried host s.db fault then 1 else 0
  | _ => 0

/-- The winning contribution does not get into the table: the batch fails, or the message comes
without it. -/
def Ledger.unstored (s : Ledger) : LedgerAction → Bool
  | .mineSuccess msg => !msg.Won
  | .payment fault =>
      match s.payment with
      | .addContributions _ rows =>
          !(s.db.addNewContributionsBatch fault (rows.map MinerRows.contribution)).2.isOk
      | _ => false
  | _ => false

/-- The messages received, the calls made for them and those of them that went wrong in a loop, a
message that was lost, and whether a winning contribution has not been stored. -/
structure Calls where
  messages : ℕ
  calls : ℕ
  retries : ℕ
  lost : Option MessageInternalMineSuccess
  unstored : Bool

def callObserver (host : Host) : Observer Ledger LedgerAction Calls where
  start _ := ⟨0, 0, 0, none, false⟩
  note s act n := ⟨n.messages + act.messages, n.calls + act.calls, n.retries + s.retries host act,
    n.lost.or (s.payment.lost s.db), n.unstored || s.unstored act⟩

/-! ## The property -/

/-- **Payments end** unless a winning contribution has no row, and then the processor receives
nothing more. -/
structure PaymentsEnd (host : Host) (s : Ledger) (n : Calls) : Prop where
  bounded : n.calls ≤ 6 * n.messages + n.retries
  going : ∀ fault, 0 < s.payment.fuel → s.payment.retried host s.db fault = false →
    ∃ pc db, s.payment.step host s.db fault = some (pc, db) ∧ pc.fuel < s.payment.fuel
  wedged : ∀ msg ∈ n.lost, s.payment.lost s.db = some msg ∧
    ∀ msg', s.step host (.mineSuccess msg') = none
  cause : n.lost.isSome → n.unstored = true

/-! ## One call -/

section Call

variable {host : Host} {db db' : Database} {fault : Option Fault} {pc pc' : PaymentPc}
  {msg : MessageInternalMineSuccess}

/-- A pool with one row is found. -/
lemma Database.updatePoolRewards_isOk {sql : Sqlite} {authority : String} {earned : Int64}
    (h : (select PoolRow.authorityPubkey authority db.pools).length = 1) :
    (db.updatePoolRewards sql none authority earned).2.isOk = true := by
  simp only [Database.updatePoolRewards, Database.execute, h, ne_eq, not_true_eq_false, if_false]
  rfl

/-- A contribution with a row is found. -/
lemma Database.getContributionId_isOk {nonce : UInt64}
    (h : select ContributionRow.nonce nonce.toInt64 db.contributions ≠ []) :
    ∃ contributionId, db.getContributionIdWithNonce none nonce = .ok contributionId := by
  rw [Database.getContributionIdWithNonce, List.getLast?_eq_some_getLast h]
  exact ⟨_, rfl⟩

/-- One without is not. -/
lemma Database.getContributionId_missing {nonce : UInt64}
    (h : select ContributionRow.nonce nonce.toInt64 db.contributions = []) (id : Int64) :
    db.getContributionIdWithNonce fault nonce ≠ .ok id := by
  intro hok
  obtain ⟨-, hrow⟩ := queryRow_eq_ok hok
  rw [h] at hrow
  cases hrow

/-- A call brings the processor forward or is to be made again. -/
lemma PaymentPc.step_fuel (hunique : Unique PoolRow.authorityPubkey db.pools)
    (h : pc.step host db fault = some (pc', db')) :
    pc'.fuel + 1 ≤ pc.fuel + if pc.retried host db fault then 1 else 0 := by
  cases pc with
  | receive | panicked => cases h
  | addEarnings _ _ | updateRewards _ _ | addContributions _ _ | updateChallenge _ _ =>
      obtain ⟨rfl, rfl⟩ := Prod.mk.inj (Option.some.inj h)
      exact le_rfl
  | updatePool msg =>
      obtain ⟨rfl, rfl⟩ := Prod.mk.inj (Option.some.inj h)
      cases hretried : (updatePool msg).retried host db fault with
      | true =>
          split
          · exact Nat.le_succ 3
          · exact le_rfl
      | false =>
          simp only [PaymentPc.retried, Bool.or_eq_false_iff, Option.isSome_eq_false_iff,
            Option.isNone_iff_eq_none] at hretried
          obtain ⟨rfl, hrow⟩ := hretried
          have hne := List.length_pos_of_ne_nil (List.isEmpty_eq_false_iff.mp hrow)
          have hle := hunique.select_le_one host.wallet
          rw [if_pos (Database.updatePoolRewards_isOk (by omega))]
          exact le_rfl
  | getContributionId msg =>
      rw [PaymentPc.step] at h
      split at h
      · obtain ⟨rfl, rfl⟩ := Prod.mk.inj (Option.some.inj h)
        exact Nat.le_add_right 2 _
      · rename_i e hget
        obtain ⟨rfl, rfl⟩ := Prod.mk.inj (Option.some.inj h)
        cases hretried : (getContributionId msg).retried host db fault with
        | true => exact le_rfl
        | false =>
            simp only [PaymentPc.retried, Bool.or_eq_false_iff, Option.isSome_eq_false_iff,
              Option.isNone_iff_eq_none] at hretried
            obtain ⟨rfl, hrow⟩ := hretried
            obtain ⟨id, hid⟩ := Database.getContributionId_isOk (List.isEmpty_eq_false_iff.mp hrow)
            rw [hid] at hget
            cases hget

lemma PaymentPc.lost_eq_some :
    pc.lost db = some msg ↔ (pc = .updatePool msg ∨ pc = .getContributionId msg) ∧
      select ContributionRow.nonce msg.bestNonce.toInt64 db.contributions = [] := by
  cases pc <;> simp [PaymentPc.lost, List.isEmpty_iff] <;> grind

/-- A message that is lost stays so. -/
lemma PaymentPc.lost_step (hlost : pc.lost db = some msg)
    (h : pc.step host db fault = some (pc', db')) : pc'.lost db' = some msg := by
  obtain ⟨hpc, hrow⟩ := PaymentPc.lost_eq_some.mp hlost
  rcases hpc with rfl | rfl
  · obtain ⟨rfl, rfl⟩ := Prod.mk.inj (Option.some.inj h)
    refine PaymentPc.lost_eq_some.mpr ⟨?_, ?_⟩
    · split
      · exact .inr rfl
      · exact .inl rfl
    · have hdb := db.write_contributions host.sql fault
        (w := .updatePoolRewards host.wallet msg.rewards) (by rintro _ ⟨⟩)
      exact (congrArg _ hdb).trans hrow
  · rw [PaymentPc.step] at h
    split at h
    · exact absurd ‹_› (Database.getContributionId_missing hrow _)
    · obtain ⟨rfl, rfl⟩ := Prod.mk.inj (Option.some.inj h)
      exact hlost

/-- A batch that is inserted has a row for the contribution that has won. -/
lemma MessageInternalMineSuccess.stored_of_batch (hwon : msg.Won) {poolId : Int32}
    {rows : List MinerRows} (hrows : msg.rows poolId = some rows)
    (hok : (db.addNewContributionsBatch fault (rows.map MinerRows.contribution)).2.isOk = true) :
    select ContributionRow.nonce msg.bestNonce.toInt64 (db.addNewContributionsBatch fault
      (rows.map MinerRows.contribution)).1.contributions ≠ [] := by
  rcases db.addNewContributionsBatch_cases fault (rows.map MinerRows.contribution) with
    ⟨-, hfail⟩ | ⟨new, hnew, heq⟩
  · rw [hfail] at hok
    cases hok
  · obtain ⟨entry, hentry, hnonce⟩ := hwon
    obtain ⟨r, hr, hrnonce⟩ := (msg.rows_contribution hrows).1 entry hentry
    obtain ⟨row, hrow, hrecords⟩ := exists_of_forall₂_left hnew (List.mem_map_of_mem hr)
    rw [heq]
    refine List.ne_nil_of_mem (mem_select.mpr ⟨List.mem_append_right _ hrow, ?_⟩)
    rw [hrecords.nonce, hrnonce, hnonce]

/-- The winning contribution is still to be inserted, or has a row. -/
def PaymentPc.Stored (host : Host) (db : Database) : PaymentPc → Prop
  | .addEarnings msg rows | .updateRewards msg rows | .addContributions msg rows =>
      msg.Won ∧ msg.rows host.poolId = some rows
  | .updatePool msg | .getContributionId msg =>
      select ContributionRow.nonce msg.bestNonce.toInt64 db.contributions ≠ []
  | .receive | .updateChallenge _ _ | .panicked => True

lemma PaymentPc.Stored.congr (hdb : db'.contributions = db.contributions)
    (h : pc.Stored host db) : pc.Stored host db' := by
  cases pc with
  | updatePool msg | getContributionId msg =>
      rw [PaymentPc.Stored, hdb]
      exact h
  | addEarnings _ _ | updateRewards _ _ | addContributions _ _ => exact h
  | receive | updateChallenge _ _ | panicked => trivial

lemma PaymentPc.Stored.not_lost (h : pc.Stored host db) : pc.lost db = none := by
  cases hlost : pc.lost db with
  | none => rfl
  | some msg =>
      obtain ⟨rfl | rfl, hrow⟩ := PaymentPc.lost_eq_some.mp hlost
      · exact absurd hrow h
      · exact absurd hrow h

/-- A message that has been won has something to insert. -/
lemma PaymentPc.stored_open (hwon : msg.Won) : (PaymentPc.open host msg).Stored host db := by
  rw [PaymentPc.open]
  split
  · split
    · trivial
    · rename_i hrows
      obtain ⟨entry, hentry, -⟩ := hwon
      obtain ⟨r, hr, -⟩ := (msg.rows_contribution hrows).1 entry hentry
      cases hr
    · exact ⟨hwon, ‹_›⟩
  · trivial

end Call

/-! ## One step -/

section Step

variable {host : Host} {s s' : Ledger} {act : LedgerAction}

/-- Contributions are inserted by the payment processor alone. -/
lemma Ledger.step_contributions (h : s.step host act = some s') :
    (s'.db.contributions = s.db.contributions ∧ s'.payment = s.payment) ∨
      (∃ msg, act = .mineSuccess msg ∧ s.payment = .receive ∧
        s' = { s with payment := .open host msg }) ∨
      ∃ fault pc db, act = .payment fault ∧ s.payment.step host s.db fault = some (pc, db) ∧
        s' = { s with db := db, payment := pc } := by
  cases Ledger.step_move h with
  | request _ _ _ => exact .inl ⟨rfl, rfl⟩
  | handshake _ hs =>
      refine .inl ⟨?_, rfl⟩
      rcases HandshakePc.step_writes hs with rfl | ⟨w, hw, rfl⟩
      · rfl
      · refine Database.write_contributions _ _ _ ?_
        rintro _ rfl
        cases hw
  | mineSuccess msg hpc => exact .inr (.inl ⟨msg, rfl, hpc, rfl⟩)
  | payment hs => exact .inr (.inr ⟨_, _, _, rfl, hs, rfl⟩)
  | addPool fault =>
      exact .inl ⟨s.db.write_contributions host.sql fault
        (w := .addNewPool host.wallet host.walletProof) (by rintro _ ⟨⟩), rfl⟩
  | addChallenge challenge fault =>
      exact .inl ⟨s.db.write_contributions host.sql fault (w := .addNewChallenge challenge)
        (by rintro _ ⟨⟩), rfl⟩

theorem Ledger.lost_step {msg : MessageInternalMineSuccess} (hlost : s.payment.lost s.db = some msg)
    (h : s.step host act = some s') : s'.payment.lost s'.db = some msg := by
  rcases Ledger.step_contributions h with ⟨hdb, hpc⟩ | ⟨_, -, hpc, -⟩ | ⟨_, _, _, -, hs, rfl⟩
  · rw [PaymentPc.lost_eq_some] at hlost ⊢
    rw [hdb, hpc]
    exact hlost
  · rw [hpc] at hlost
    cases hlost
  · exact PaymentPc.lost_step hlost hs

/-- As long as every winning contribution gets into the table, it has its row when it is asked
for. -/
theorem Ledger.stored_step (hi : s.payment.Stored host s.db) (hc : s.unstored act = false)
    (h : s.step host act = some s') : s'.payment.Stored host s'.db := by
  rcases Ledger.step_contributions h with
    ⟨hdb, hpc⟩ | ⟨msg, rfl, -, rfl⟩ | ⟨fault, pc, db, rfl, hs, rfl⟩
  · rw [hpc]
    exact hi.congr hdb
  · exact PaymentPc.stored_open (by simpa [Ledger.unstored] using hc)
  · revert hi hc hs
    cases hpc : s.payment with
    | receive | panicked => exact fun _ _ hs => by cases hs
    | addEarnings msg rows | updateRewards msg rows =>
        intro hi _ hs
        obtain ⟨rfl, rfl⟩ := Prod.mk.inj (Option.some.inj hs)
        exact hi
    | addContributions msg rows =>
        intro hi hc hs
        obtain ⟨rfl, rfl⟩ := Prod.mk.inj (Option.some.inj hs)
        exact MessageInternalMineSuccess.stored_of_batch hi.1 hi.2
          (by simpa [Ledger.unstored, hpc] using hc)
    | updatePool msg =>
        intro hi _ hs
        obtain ⟨rfl, rfl⟩ := Prod.mk.inj (Option.some.inj hs)
        have hdb := s.db.write_contributions host.sql fault
          (w := .updatePoolRewards host.wallet msg.rewards) (by rintro _ ⟨⟩)
        show PaymentPc.Stored host _ (if _ then _ else _)
        split
        · exact PaymentPc.Stored.congr hdb
            (show (PaymentPc.getContributionId msg).Stored host s.db from hi)
        · exact PaymentPc.Stored.congr hdb
            (show (PaymentPc.updatePool msg).Stored host s.db from hi)
    | getContributionId msg =>
        intro hi _ hs
        rw [PaymentPc.step] at hs
        split at hs
        · obtain ⟨rfl, rfl⟩ := Prod.mk.inj (Option.some.inj hs)
          trivial
        · obtain ⟨rfl, rfl⟩ := Prod.mk.inj (Option.some.inj hs)
          exact hi
    | updateChallenge _ _ =>
        intro _ _ hs
        obtain ⟨rfl, rfl⟩ := Prod.mk.inj (Option.some.inj hs)
        trivial

end Step

/-! ## Runs -/

/-- No authority has two pools. -/
lemma unique_authority {host : Host} {C : Ledger → LedgerAction → Prop} {s : Ledger}
    (h : Reach (ledger host) C s) : Unique PoolRow.authorityPubkey s.db.pools :=
  (poolsKept (Ledger.refines h)).unique_authority

/-- A message brings in six calls, a call that is to be made again one. -/
def callBudget (host : Host) : Budget (ledger host) Any ℕ where
  holds s := s.payment.fuel
  gain s act := 6 * act.messages + s.retries host act
  spend _ act := act.calls
  init := by
    rintro s rfl
    exact le_rfl
  step s act s' hr _ hs := by
    cases Ledger.step_move hs with
    | mineSuccess msg hpc =>
        have hopen : (PaymentPc.open host msg).fuel ≤ 6 := by
          rw [PaymentPc.open]
          split
          · split <;> simp [PaymentPc.fuel]
          · simp [PaymentPc.fuel]
        exact hopen.trans (Nat.le_add_left _ _)
    | payment hstep =>
        have hcall := PaymentPc.step_fuel (unique_authority hr) hstep
        simpa [LedgerAction.messages, LedgerAction.calls, Ledger.retries] using hcall
    | request _ _ _ | handshake _ _ | addPool _ | addChallenge _ _ => exact le_rfl

section Runs

variable {host : Host} {C : Ledger × Calls → LedgerAction → Prop} {x : Ledger × Calls}

lemma sums_calls : (callObserver host).Sums (callBudget host).spend Calls.calls :=
  ⟨fun _ => rfl, fun _ _ _ => rfl⟩

lemma sums_owed : (callObserver host).Sums (callBudget host).gain
    (fun n => 6 * n.messages + n.retries) := by
  refine ⟨fun _ => rfl, fun s act n => ?_⟩
  show 6 * (n.messages + act.messages) + (n.retries + s.retries host act) =
    6 * n.messages + n.retries + (6 * act.messages + s.retries host act)
  omega

/-- What is lost stays lost, and nothing is lost as long as everything is stored. -/
lemma lost_of_reach (h : Reach ((ledger host).observe (callObserver host)) C x) :
    (∀ msg ∈ x.2.lost, x.1.payment.lost x.1.db = some msg) ∧
      (x.2.unstored = false → x.1.payment.Stored host x.1.db) := by
  refine h.observed_invariant (I := fun s n => (∀ msg ∈ n.lost, s.payment.lost s.db = some msg) ∧
    (n.unstored = false → s.payment.Stored host s.db)) ?_ ?_
  · rintro s rfl
    refine ⟨fun msg hmsg => ?_, fun _ => trivial⟩
    cases hmsg
  · intro s n act s' _ ⟨hlost, hstored⟩ _ hs
    refine ⟨?_, ?_⟩
    · intro msg hmsg
      rcases Option.or_eq_some_iff.mp hmsg with hmsg | ⟨-, hmsg⟩
      · exact Ledger.lost_step (hlost msg hmsg) hs
      · exact Ledger.lost_step hmsg hs
    · intro hn
      obtain ⟨hn, hact⟩ := Bool.or_eq_false_iff.mp hn
      exact Ledger.stored_step (hstored hn) hact hs

/-- **Payments end.**  In every run the messages received take at most six calls each, and one more
for each call in a loop that fails; but after a message has come to the loops without a row for its
winning contribution, no other one is received. -/
theorem paymentsEnd (h : Reach ((ledger host).observe (callObserver host)) C x) :
    PaymentsEnd host x.1 x.2 := by
  obtain ⟨hlost, hstored⟩ := lost_of_reach h
  have hcalls := (callBudget host).covered sums_calls sums_owed (fun _ _ _ => trivial) h
  have hunique := unique_authority (h.forget (D := Any) fun _ _ _ => trivial)
  refine ⟨(Nat.le_add_left _ _).trans hcalls, ?_, ?_, ?_⟩
  · intro fault hfuel hretried
    have hstep : ∃ pc db, x.1.payment.step host x.1.db fault = some (pc, db) := by
      cases hpc : x.1.payment with
      | receive | panicked =>
          rw [hpc] at hfuel
          cases hfuel
      | getContributionId msg =>
          rw [PaymentPc.step]
          split <;> exact ⟨_, _, rfl⟩
      | _ => exact ⟨_, _, rfl⟩
    obtain ⟨pc, db, hs⟩ := hstep
    have hcall := PaymentPc.step_fuel hunique hs
    rw [hretried] at hcall
    exact ⟨pc, db, hs, hcall⟩
  · intro msg hmsg
    refine ⟨hlost msg hmsg, fun msg' => if_neg fun hpc => ?_⟩
    have hno := hlost msg hmsg
    rw [hpc] at hno
    cases hno
  · intro hsome
    obtain ⟨msg, hmsg⟩ := Option.isSome_iff_exists.mp hsome
    by_contra hn
    have hno := (hstored (Bool.not_eq_true _ ▸ hn)).not_lost
    rw [hlost msg hmsg] at hno
    cases hno

end Runs

/-! ## An example -/

/-- A second message whose nonce is a new one. -/
def Replay.otherNonce : MessageInternalMineSuccess :=
  { mineSuccess 1 100 with
    bestNonce := 11
    contributions := (∅ : Contributions).insert minerKey ⟨1, 11, 10, 160⟩ }

/-- A message is paid; the contributions of the next one are not inserted, and it is lost. -/
theorem paymentsEnd_lost :
    ∃ x, Reach ((ledger Replay.host).observe (callObserver Replay.host)) (fun _ _ => True) x ∧
      (x.2.messages = 2 ∧ x.2.calls = 12 ∧ x.2.retries = 2 ∧ x.2.lost.isSome) ∧
      PaymentsEnd Replay.host x.1 x.2 := by
  obtain ⟨x, hr, hx⟩ := exists_of_ledgerObserved Replay.host (callObserver Replay.host)
    (fun _ _ => True)
    (Replay.paid ++ [.payment none, .mineSuccess Replay.otherNonce, .payment none, .payment none,
      .payment (some .query)] ++ List.replicate 3 (.payment none))
    (fun x => decide (x.2.messages = 2 ∧ x.2.calls = 12 ∧ x.2.retries = 2 ∧ x.2.lost.isSome))
    (by decide +kernel)
  exact ⟨x, hr, of_decide_eq_true hx, paymentsEnd hr⟩

end OrePool
