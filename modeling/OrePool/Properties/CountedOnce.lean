import OrePool.Core.Traversal
import OrePool.LedgerReplay
import OrePool.Lemmas.Reports

/-!
# Each earning is counted once

The report adds up what a miner has earned for the challenges it has contributed to in the last day.
The query joins the two tables by miner and challenge, which is a key of neither.  `CountedOnce`
says that it comes to the same.

The payment processor inserts a row of each for a key in its message, and keys can share a miner:
the key of a contribution is in the message of the client, the id of the miner is that of its
connection.  Two keys of a miner make four rows of the join (`not_countedOnce`).  As long as no
batch gives a miner with both kinds of rows for a challenge a second of either, the report is right
(`countedOnce`).
-/

namespace OrePool

open Interleaving NestedLoops Tables Traversal

/-! ## The property -/

section Property

variable (db : Database) (q : Reporting) (poolId : Int32)

/-- A miner has contributed to a challenge in the window. -/
def Database.ContributedTo (minerId challengeId : Int64) : Prop :=
  ∃ c ∈ db.contributions, c.minerId = minerId ∧ c.challengeId = challengeId ∧
    q.inWindow c = true

instance (minerId challengeId : Int64) : Decidable (db.ContributedTo q minerId challengeId) :=
  inferInstanceAs (Decidable (∃ c ∈ db.contributions, _ ∧ _ ∧ _))

/-- The earnings of a miner for the challenges it has contributed to in the window. -/
def Database.earningsInWindow (minerId : Int64) : List InsertEarning :=
  db.earnings.filter fun e => e.minerId = minerId ∧ e.poolId = poolId ∧
    db.ContributedTo q minerId e.challengeId

/-- Its contributions to those of them that have an earning. -/
def Database.contributionsInWindow (minerId : Int64) : List ContributionRow :=
  db.contributions.filter fun c => c.minerId = minerId ∧ db.ContributedTo q minerId c.challengeId ∧
    ∃ e ∈ db.earnings, e.minerId = minerId ∧ e.poolId = poolId ∧ e.challengeId = c.challengeId

/-- **Counted once.**  The join has no row of a table twice, and what is returned of a miner are the
sum of its earnings and the number of its contributions. -/
structure CountedOnce : Prop where
  contributions :
    ((db.reportRows q poolId).map ReportRow.contribution).Subperm db.contributions
  earnings : ((db.reportRows q poolId).map ReportRow.earning).Subperm db.earnings
  summaries : ∀ fault summaries,
    db.getSummariesForLast24Hours q poolId fault = some (.ok summaries) →
    ∀ summary ∈ summaries, ∃ miner ∈ db.miners, miner.pubkey = summary.minerPubkey ∧
      summary.earningSubTotal.toInt =
        ((db.earningsInWindow q poolId miner.id).map fun e => e.amount.toInt).sum ∧
      summary.numOfContributions.toInt = (db.contributionsInWindow q poolId miner.id).length

end Property

/-! ## The condition -/

/-- The columns of `ContributionRow.pair`. -/
def InsertContribution.pair (contribution : InsertContribution) : Int64 × Int64 :=
  (contribution.minerId, contribution.challengeId)

/-- The batch that is inserted next leaves a miner that has earned for a challenge and contributed
to it with one row of each. -/
def PaymentPc.Paired (poolId : Int32) (db : Database) : PaymentPc → Prop
  | .addEarnings _ rows => ∀ r ∈ rows,
      Single (db.earnedPairs poolId ++
          (select InsertEarning.poolId poolId (rows.map MinerRows.earning)).map InsertEarning.pair)
        db.contributedPairs r.earning.pair
  | .addContributions _ rows => ∀ r ∈ rows,
      Single (db.contributedPairs ++
          (rows.map MinerRows.contribution).map InsertContribution.pair)
        (db.earnedPairs poolId) r.contribution.pair
  | _ => True

instance (poolId : Int32) (db : Database) : DecidablePred (PaymentPc.Paired poolId db) := fun pc =>
  match pc with
  | .addEarnings _ rows | .addContributions _ rows =>
      inferInstanceAs (Decidable (∀ r ∈ rows, _))
  | .receive | .updateRewards _ _ | .updatePool _ | .getContributionId _ | .updateChallenge _ _
  | .panicked => isTrue trivial

/-- Every batch that goes through does. -/
def InsertsOnce (host : Host) (s : Ledger) : LedgerAction → Prop
  | .payment none => s.payment.Paired host.poolId s.db
  | _ => True

instance (host : Host) : DecidableRel (InsertsOnce host) := fun s act =>
  match act with
  | .payment none => inferInstanceAs (Decidable (s.payment.Paired host.poolId s.db))
  | .payment (some _) | .request .. | .handshake .. | .mineSuccess _ | .addPool _
  | .addChallenge .. => isTrue trivial

/-! ## The batches -/

/-- What a step of the payment processor does to the two tables. -/
lemma PaymentPc.step_inserts {host : Host} {db db' : Database} {fault : Option Fault}
    {pc pc' : PaymentPc} (h : pc.step host db fault = some (pc', db')) :
    (db'.earnings = db.earnings ∧ db'.contributions = db.contributions) ∨
      (∃ msg rows, fault = none ∧ pc = .addEarnings msg rows ∧
        db'.earnings = db.earnings ++ rows.map MinerRows.earning ∧
        db'.contributions = db.contributions) ∨
      ∃ msg rows new, fault = none ∧ pc = .addContributions msg rows ∧
        List.Forall₂ ContributionRow.Records (rows.map MinerRows.contribution) new ∧
        db'.contributions = db.contributions ++ new ∧ db'.earnings = db.earnings := by
  cases pc with
  | receive | panicked => cases h
  | addEarnings msg rows =>
      obtain ⟨rfl, rfl⟩ := Prod.mk.inj (Option.some.inj h)
      cases fault with
      | none => exact .inr (.inl ⟨msg, rows, rfl, rfl, rfl, rfl⟩)
      | some fault => cases fault <;> exact .inl ⟨rfl, rfl⟩
  | addContributions msg rows =>
      obtain ⟨rfl, rfl⟩ := Prod.mk.inj (Option.some.inj h)
      cases fault with
      | none =>
          rcases db.addNewContributionsBatch_cases none (rows.map MinerRows.contribution) with
            ⟨hdb, -⟩ | ⟨new, hnew, hdb⟩
          · rw [hdb]
            exact .inl ⟨rfl, rfl⟩
          · rw [hdb]
            exact .inr (.inr ⟨msg, rows, new, rfl, rfl, hnew, rfl, rfl⟩)
      | some fault => cases fault <;> exact .inl ⟨rfl, rfl⟩
  | updateRewards msg rows | updatePool msg | getContributionId msg | updateChallenge msg id =>
      refine .inl ?_
      rcases PaymentPc.step_writes h with rfl | ⟨w, hw, rfl⟩
      · exact ⟨rfl, rfl⟩
      · refine ⟨db.write_earnings host.sql fault ?_, db.write_contributions host.sql fault ?_⟩
        · rintro _ rfl
          cases hw
        · rintro _ rfl
          cases hw

/-- The new rows have the columns of the contributions. -/
lemma contributedPairs_records {contributions : List InsertContribution}
    {rows : List ContributionRow}
    (h : List.Forall₂ ContributionRow.Records contributions rows) :
    rows.map ContributionRow.pair = contributions.map InsertContribution.pair :=
  (map_eq_of_forall₂ h fun _ _ hrecords =>
    Prod.ext hrecords.minerId.symm hrecords.challengeId.symm).symm

lemma Database.Paired.congr {db db' : Database} {poolId : Int32} (hi : db.Paired poolId)
    (hearnings : db'.earnings = db.earnings)
    (hcontributions : db'.contributions = db.contributions) : db'.Paired poolId := by
  intro pair
  rw [Database.earnedPairs, Database.contributedPairs, hearnings, hcontributions]
  exact hi pair

/-- No other call makes a difference. -/
lemma Database.Paired.write {db : Database} {poolId : Int32} (hi : db.Paired poolId) (sql : Sqlite)
    (fault : Option Fault) {w : Write}
    (hearnings : ∀ earnings, w ≠ .addNewEarningsBatch earnings)
    (hcontributions : ∀ contributions, w ≠ .addNewContributionsBatch contributions) :
    (db.write sql fault w).1.Paired poolId := by
  exact hi.congr (db.write_earnings sql fault hearnings)
    (db.write_contributions sql fault hcontributions)

/-- A batch that meets the condition keeps the rows paired. -/
theorem Database.Paired.payment {host : Host} {db db' : Database} {fault : Option Fault}
    {pc pc' : PaymentPc} (hi : db.Paired host.poolId)
    (hc : fault = none → pc.Paired host.poolId db)
    (h : pc.step host db fault = some (pc', db')) : db'.Paired host.poolId := by
  rcases PaymentPc.step_inserts h with ⟨hearnings, hcontributions⟩ |
    ⟨msg, rows, hfault, rfl, hearnings, hcontributions⟩ |
    ⟨msg, rows, new, hfault, rfl, hnew, hcontributions, hearnings⟩
  · exact hi.congr hearnings hcontributions
  · intro pair
    rw [Database.earnedPairs, Database.contributedPairs, hearnings, hcontributions, select_append,
      List.map_append]
    by_cases hpair : pair ∈ (select InsertEarning.poolId host.poolId
        (rows.map MinerRows.earning)).map InsertEarning.pair
    · obtain ⟨e, he, rfl⟩ := List.mem_map.mp hpair
      obtain ⟨r, hr, rfl⟩ := List.mem_map.mp (mem_select.mp he).1
      exact hc hfault r hr
    · exact (hi pair).append hpair
  · intro pair
    refine Single.symm ?_
    rw [Database.earnedPairs, Database.contributedPairs, hearnings, hcontributions,
      List.map_append, contributedPairs_records hnew]
    by_cases hpair :
        pair ∈ (rows.map MinerRows.contribution).map InsertContribution.pair
    · obtain ⟨c, hc', rfl⟩ := List.mem_map.mp hpair
      obtain ⟨r, hr, rfl⟩ := List.mem_map.mp hc'
      exact hc hfault r hr
    · exact (hi pair).symm.append hpair

/-! ## Runs -/

theorem paired {host : Host} {s : Ledger} (h : Reach (ledger host) (InsertsOnce host) s) :
    s.db.Paired host.poolId := by
  refine h.invariant (I := fun s => s.db.Paired host.poolId) ?_ ?_
  · rintro s rfl
    intro pair hpair
    cases hpair
  · intro s act s' _ hi hc hs
    cases Ledger.step_move hs with
    | request _ _ _ | mineSuccess _ _ => exact hi
    | payment hstep =>
        refine hi.payment ?_ hstep
        rintro rfl
        exact hc
    | handshake _ hstep =>
        rcases HandshakePc.step_writes hstep with rfl | ⟨w, hw, rfl⟩
        · exact hi
        · refine hi.write _ _ ?_ ?_
          · rintro _ rfl
            cases hw
          · rintro _ rfl
            cases hw
    | addPool fault =>
        exact hi.write host.sql fault (w := .addNewPool host.wallet host.walletProof) nofun nofun
    | addChallenge challenge fault =>
        exact hi.write host.sql fault (w := .addNewChallenge challenge) nofun nofun

/-! ## The report -/

section Report

variable {db : Database} {q : Reporting} {poolId : Int32}

/-- The rows of a group are those of its miner. -/
lemma ReportRow.Joined.mem_group {row row' : ReportRow} (hkeyed : db.Keyed)
    (h : row.Joined db q poolId) :
    row' ∈ select ReportRow.pubkey row.pubkey (db.reportRows q poolId) ↔
      row'.Joined db q poolId ∧ row'.miner = row.miner := by
  rw [mem_select, Database.mem_reportRows]
  refine and_congr_right fun h' => ⟨?_, congrArg Miner.pubkey⟩
  exact hkeyed.pubkeys.eq h'.miner h.miner

/-- What a group has in a column is in a row of its miner. -/
lemma ReportRow.Joined.mem_map_group {α : Type} {f : ReportRow → α} {x : α} {row : ReportRow}
    (hkeyed : db.Keyed) (h : row.Joined db q poolId) :
    x ∈ (select ReportRow.pubkey row.pubkey (db.reportRows q poolId)).map f ↔
      ∃ row' : ReportRow, row'.Joined db q poolId ∧ row'.miner = row.miner ∧ f row' = x := by
  rw [List.mem_map]
  refine exists_congr fun row' => ?_
  rw [h.mem_group hkeyed, and_assoc]

/-- Another contribution and another earning of the miner make a row with it. -/
lemma ReportRow.Joined.exchange {row : ReportRow} (h : row.Joined db q poolId)
    {c : ContributionRow} {e : InsertEarning} (hc : c ∈ db.contributions) (he : e ∈ db.earnings)
    (hcontributor : c.minerId = row.miner.id) (hearner : e.minerId = row.miner.id)
    (hpool : e.poolId = poolId) (hchallenge : c.challengeId = e.challengeId)
    (hwindow : q.inWindow c = true) : ReportRow.Joined db q poolId ⟨c, row.miner, e, row.pool⟩ where
  contribution := hc
  miner := h.miner
  earning := he
  pool := h.pool
  contributor := hcontributor
  challenge := hchallenge
  earner := hcontributor.trans hearner.symm
  earningPool := hpool
  poolRow := by rw [← h.poolRow, h.earningPool, hpool]
  window := hwindow
  enabled := h.enabled

/-- The earnings in a group are those of its miner. -/
lemma Database.earnings_group (hkeyed : db.Keyed) (hpaired : db.Paired poolId) {row : ReportRow}
    (hrow : row.Joined db q poolId) :
    ((select ReportRow.pubkey row.pubkey (db.reportRows q poolId)).map ReportRow.earning).Perm
      (db.earningsInWindow q poolId row.miner.id) := by
  refine ((Database.earnings_once hkeyed hpaired).perm _).trans
    (.of_eq (List.filter_congr fun e he => ?_))
  rw [Bool.eq_iff_iff, decide_eq_true_iff, decide_eq_true_iff]
  refine (hrow.mem_map_group hkeyed).trans ?_
  constructor
  · rintro ⟨row', h, hminer, rfl⟩
    have hcontributor : row'.contribution.minerId = row.miner.id := hminer ▸ h.contributor
    exact ⟨h.earner.symm.trans hcontributor, h.earningPool, row'.contribution, h.contribution,
      hcontributor, h.challenge, h.window⟩
  · rintro ⟨hearner, hpool, c, hc, hcontributor, hchallenge, hwindow⟩
    have h := hrow.exchange hc he hcontributor hearner hpool hchallenge hwindow
    exact ⟨_, h, rfl, rfl⟩

/-- The contributions in a group are those of its miner. -/
lemma Database.contributions_group (hkeyed : db.Keyed) (hpaired : db.Paired poolId)
    {row : ReportRow} (hrow : row.Joined db q poolId) :
    ((select ReportRow.pubkey row.pubkey (db.reportRows q poolId)).map ReportRow.contribution).Perm
      (db.contributionsInWindow q poolId row.miner.id) := by
  refine ((Database.contributions_once hkeyed hpaired).perm _).trans
    (.of_eq (List.filter_congr fun c hc => ?_))
  rw [Bool.eq_iff_iff, decide_eq_true_iff, decide_eq_true_iff]
  refine (hrow.mem_map_group hkeyed).trans ?_
  constructor
  · rintro ⟨row', h, hminer, rfl⟩
    have hcontributor : row'.contribution.minerId = row.miner.id := hminer ▸ h.contributor
    exact ⟨hcontributor, ⟨_, hc, hcontributor, rfl, h.window⟩, row'.earning, h.earning,
      h.earner.symm.trans hcontributor, h.earningPool, h.challenge.symm⟩
  · rintro ⟨hminer, ⟨c', hc', hminer', hchallenge', hwindow⟩, e, he, hearner, hpool, hchallenge⟩
    -- of the miner's contributions to the challenge there is only one, so it is in the window
    obtain rfl : c = c' := by
      refine hpaired.contribution_eq he hpool hc hc' ?_ ?_
      · exact Prod.ext (hminer.trans hearner.symm) hchallenge.symm
      · exact Prod.ext (hminer'.trans hearner.symm) (hchallenge'.trans hchallenge.symm)
    have h := hrow.exchange hc he hminer hearner hpool hchallenge.symm hwindow
    exact ⟨_, h, rfl, rfl⟩

/-- **Counted once**, where the rows are paired. -/
theorem CountedOnce.of_paired (hkeyed : db.Keyed) (hpaired : db.Paired poolId) :
    CountedOnce db q poolId where
  contributions := (Database.contributions_once hkeyed hpaired).subperm
  earnings := (Database.earnings_once hkeyed hpaired).subperm
  summaries fault summaries h summary hsummary := by
    obtain ⟨rows, hrows, hread⟩ := Database.getSummaries_eq_ok h
    obtain ⟨row, hrow, hsome⟩ : ∃ row ∈ rows, row.read = some summary :=
      List.mem_map.mp (hread ▸ List.mem_map_of_mem hsummary)
    have hsums := (Database.summaryRows_eq_some hrows).2 row hrow
    obtain ⟨hpubkey, hcount, hsub⟩ := SummaryRow.read_eq_some hsome
    obtain ⟨joined, hmem, hgroup⟩ := exists_of_mem_groups hsums.group
    have hjoined := Database.mem_reportRows.mp hmem
    refine ⟨joined.miner, hjoined.miner, hgroup.trans hpubkey.symm, ?_, ?_⟩
    · rw [hsub, hsums.subTotal, ← hgroup, ReportRow.subTotal, total,
        ← ((Database.earnings_group hkeyed hpaired hjoined).map _).sum_eq, List.map_map]
      rfl
    · rw [hcount, hsums.count, ← hgroup,
        ← (Database.contributions_group hkeyed hpaired hjoined).length_eq, List.length_map]

end Report

/-- **Counted once.**  In every run in which no batch gives a miner with earnings and contributions
for a challenge a second row of either, every report is right. -/
theorem countedOnce {host : Host} {s : Ledger}
    (h : Reach (ledger host) (InsertsOnce host) s) (q : Reporting) :
    CountedOnce s.db q host.poolId :=
  .of_paired (keyed (Ledger.refines h)) (paired h)

/-! ## Two runs -/

namespace Replay

/-- The miner is registered and paid for a challenge, and then for another. -/
def paidTwice : List LedgerAction :=
  [.addPool none] ++ connect 0 [none, none, none, none, none] ++
    pay 100 [none, none, none, none, none, none] ++
    .mineSuccess { mineSuccess 1 50 with challengeId := 2 } :: List.replicate 3 (.payment none)

/-- A message in which two keys have come over the connection of one miner. -/
def sharedMiner : MessageInternalMineSuccess :=
  let contributions := ((∅ : Contributions).insert minerKey ⟨1, 6, 10, 10⟩).insert
    (Vector.replicate 32 2) ⟨1, 5, 10, 10⟩
  { mineSuccess 1 100 with contributions, totalHashpower := 20 }

/-- The miner is registered and paid twice for the same challenge. -/
def paidShared : List LedgerAction :=
  [.addPool none] ++ connect 0 [none, none, none, none, none] ++
    .mineSuccess sharedMiner :: List.replicate 3 (.payment none)

end Replay

/-- Two challenges make two rows of the join. -/
theorem countedOnce_paidTwice : ∃ s, Reach (ledger Replay.host) (InsertsOnce Replay.host) s ∧
    (s.db.reportRows Replay.reporting 1).length = 2 ∧ CountedOnce s.db Replay.reporting 1 := by
  obtain ⟨s, hr, hs⟩ := exists_of_ledger Replay.host (InsertsOnce Replay.host) Replay.paidTwice
    (fun s => decide ((s.db.reportRows Replay.reporting 1).length = 2)) (by decide +kernel)
  exact ⟨s, hr, of_decide_eq_true hs, countedOnce hr Replay.reporting⟩

/-- The first miner reported has not earned what the report says. -/
def Database.misreports (db : Database) (q : Reporting) (poolId : Int32) : Bool :=
  match db.getSummariesForLast24Hours q poolId none with
  | some (.ok (summary :: _)) => decide (∀ miner ∈ db.miners,
      summary.earningSubTotal.toInt ≠
        ((db.earningsInWindow q poolId miner.id).map fun e => e.amount.toInt).sum)
  | _ => false

/-- Without the condition a miner can be reported with twice what it has earned. -/
theorem not_countedOnce : ¬ ∀ host s, Reach (ledger host) Any s →
    ∀ q, CountedOnce s.db q host.poolId := by
  intro h
  obtain ⟨s, hr, hs⟩ := exists_of_ledger Replay.host Any Replay.paidShared
    (fun s => s.db.misreports Replay.reporting 1) (by decide +kernel)
  rw [Database.misreports] at hs
  split at hs
  · rename_i summary summaries hget
    obtain ⟨miner, hminer, -, hearned, -⟩ :=
      (h _ s hr Replay.reporting).summaries none _ hget summary List.mem_cons_self
    exact of_decide_eq_true hs miner hminer hearned
  · cases hs

end OrePool
