import OrePool.Core.Traversal
import OrePool.Lemmas.Keys
import OrePool.Model.Report

/-!
# What the report is made of

`ReportRow.Joined` says which rows are in the join.  Where a miner that has earnings and
contributions for a challenge has one of each, no row of a table is in the join twice
(`contributions_once`, `earnings_once`).  A summary is made of the rows of one group
(`SummaryRow.Sums`).
-/

namespace OrePool

open NestedLoops Tables Traversal

variable {db : Database} {q : Reporting} {poolId : Int32}

/-! ## The join -/

/-- The rows of the join. -/
structure ReportRow.Joined (db : Database) (q : Reporting) (poolId : Int32) (row : ReportRow) :
    Prop where
  contribution : row.contribution ∈ db.contributions
  miner : row.miner ∈ db.miners
  earning : row.earning ∈ db.earnings
  pool : row.pool ∈ db.pools
  contributor : row.contribution.minerId = row.miner.id
  challenge : row.contribution.challengeId = row.earning.challengeId
  earner : row.contribution.minerId = row.earning.minerId
  earningPool : row.earning.poolId = poolId
  poolRow : row.earning.poolId.toInt64 = row.pool.id
  window : q.inWindow row.contribution = true
  enabled : row.miner.enabled = true

lemma Database.mem_reportRows {row : ReportRow} :
    row ∈ db.reportRows q poolId ↔ row.Joined db q poolId := by
  simp only [Database.reportRows, List.mem_map, List.mem_filter, mem_innerJoin,
    Bool.and_eq_true, decide_eq_true_eq]
  constructor
  · rintro ⟨x, ⟨⟨⟨⟨hc, hm, hcontributor⟩, he, hchallenge, hearner, hearningPool⟩, hp, hpool⟩,
      hwindow, henabled⟩, rfl⟩
    exact ⟨hc, hm, he, hp, hcontributor, hchallenge, hearner, hearningPool, hpool, hwindow,
      henabled⟩
  · intro h
    exact ⟨(((row.contribution, row.miner), row.earning), row.pool),
      ⟨⟨⟨⟨h.contribution, h.miner, h.contributor⟩, h.earning, h.challenge, h.earner,
        h.earningPool⟩, h.pool, h.poolRow⟩, h.window, h.enabled⟩, rfl⟩

/-- The columns that contributions and earnings are joined by. -/
def ContributionRow.pair (row : ContributionRow) : Int64 × Int64 := (row.minerId, row.challengeId)

/-- The same columns. -/
def InsertEarning.pair (earning : InsertEarning) : Int64 × Int64 :=
  (earning.minerId, earning.challengeId)

/-- Who has earned in the pool for which challenge, one entry a row. -/
def Database.earnedPairs (db : Database) (poolId : Int32) : List (Int64 × Int64) :=
  (select InsertEarning.poolId poolId db.earnings).map InsertEarning.pair

/-- Who has contributed to which challenge, one entry a row. -/
def Database.contributedPairs (db : Database) : List (Int64 × Int64) :=
  db.contributions.map ContributionRow.pair

/-- A miner that has earned for a challenge and contributed to it has done so once. -/
def Database.Paired (db : Database) (poolId : Int32) : Prop :=
  ∀ pair, Single (db.earnedPairs poolId) db.contributedPairs pair

/-- The earnings a contribution is joined with. -/
lemma Database.Paired.earnings_le (h : db.Paired poolId) {c : ContributionRow}
    (hc : c ∈ db.contributions) :
    (db.earnings.filter fun e => c.challengeId = e.challengeId ∧ c.minerId = e.minerId ∧
      e.poolId = poolId).length ≤ 1 := by
  refine le_of_eq_of_le ?_ ((h c.pair).symm.filter_le (List.mem_map_of_mem hc))
  rw [select, List.filter_filter]
  refine congrArg List.length (List.filter_congr fun e _ => ?_)
  rw [Bool.eq_iff_iff, Bool.and_eq_true]
  simp only [ContributionRow.pair, InsertEarning.pair, decide_eq_true_eq, Prod.mk.injEq]
  tauto

/-- The contributions an earning of the pool is joined with. -/
lemma Database.Paired.contributions_le (h : db.Paired poolId) {e : InsertEarning}
    (he : e ∈ db.earnings) (hpool : e.poolId = poolId) :
    (db.contributions.filter fun c => c.pair = e.pair).length ≤ 1 :=
  (h e.pair).filter_le (List.mem_map_of_mem (mem_select.mpr ⟨he, hpool⟩))

/-- There is one contribution to an earning of the pool. -/
lemma Database.Paired.contribution_eq (h : db.Paired poolId) {e : InsertEarning}
    (he : e ∈ db.earnings) (hpool : e.poolId = poolId) {c c' : ContributionRow}
    (hc : c ∈ db.contributions) (hc' : c' ∈ db.contributions) (hpair : c.pair = e.pair)
    (hpair' : c'.pair = e.pair) : c = c' := by
  have hmem : c ∈ db.contributions.filter fun c => c.pair = e.pair :=
    List.mem_filter.mpr ⟨hc, decide_eq_true hpair⟩
  have hmem' : c' ∈ db.contributions.filter fun c => c.pair = e.pair :=
    List.mem_filter.mpr ⟨hc', decide_eq_true hpair'⟩
  obtain ⟨c₀, hsingle⟩ := List.length_eq_one_iff.mp
    (le_antisymm (h.contributions_le he hpool) (List.length_pos_of_mem hmem))
  rw [hsingle] at hmem hmem'
  exact (List.mem_singleton.mp hmem).trans (List.mem_singleton.mp hmem').symm

/-- A unique column matches one value of another table once. -/
lemma unique_le {ρ κ : Type} [DecidableEq κ] {column : ρ → κ} {rows : List ρ}
    (h : Unique column rows) (k : κ) : (rows.filter fun r => k = column r).length ≤ 1 := by
  simpa only [select, eq_comm] using h.select_le_one k

/-- **No contribution twice.** -/
theorem Database.contributions_once (hkeyed : db.Keyed) (hpaired : db.Paired poolId) :
    Once ReportRow.contribution (db.reportRows q poolId) db.contributions := by
  refine Once.map (Once.filter ?_ _)
  refine Once.innerJoin (f := fun x : (ContributionRow × Miner) × InsertEarning => x.1.1) ?_
    fun x _ => unique_le hkeyed.pools x.2.poolId.toInt64
  refine Once.innerJoin (f := fun x : ContributionRow × Miner => x.1) ?_ fun x hx =>
    hpaired.earnings_le (mem_innerJoin.mp hx).1
  exact Once.innerJoin (once_self _) fun c _ => unique_le hkeyed.miners c.minerId

/-- **No earning twice.** -/
theorem Database.earnings_once (hkeyed : db.Keyed) (hpaired : db.Paired poolId) :
    Once ReportRow.earning (db.reportRows q poolId) db.earnings := by
  refine Once.map (Once.filter ?_ _)
  refine Once.innerJoin (f := fun x : (ContributionRow × Miner) × InsertEarning => x.2) ?_
    fun x _ => unique_le hkeyed.pools x.2.poolId.toInt64
  refine once_snd fun e he => ?_
  by_cases hpool : e.poolId = poolId
  · have hcontributor := Once.innerJoin (once_self db.contributions)
      fun c _ => unique_le hkeyed.miners c.minerId
    refine (hcontributor.length_le fun x _ hx => ?_).trans (hpaired.contributions_le he hpool)
    obtain ⟨hchallenge, hminer, -⟩ := of_decide_eq_true hx
    exact decide_eq_true (Prod.ext hminer hchallenge)
  · -- an earning of another pool is not joined at all
    rw [List.filter_eq_nil_iff.mpr fun x _ hx => hpool (of_decide_eq_true hx).2.2]
    exact Nat.zero_le 1

/-! ## Sums -/

/-- A sum that does not overflow is the sum. -/
lemma toInt_sqlSum {values : List Int64} {s : Int64} (h : sqlSum values = some s) :
    s.toInt = (values.map Int64.toInt).sum := by
  have hfrom : ∀ (values : List Int64) (start : Int64), values.foldlM
      (fun s x => if Fits (s.toInt + x.toInt) then some (s + x) else none) start = some s →
      s.toInt = start.toInt + (values.map Int64.toInt).sum := by
    intro values
    induction values with
    | nil =>
        intro start h
        obtain rfl := Option.some.inj h
        simp
    | cons x values ih =>
        intro start h
        obtain ⟨start', hstart, h⟩ := Option.bind_eq_some_iff.mp h
        dsimp only at hstart
        split at hstart
        · rename_i hfits
          obtain rfl := Option.some.inj hstart
          rw [ih _ h, Int64.toInt_add, bmod_of_fits hfits.1 hfits.2, List.map_cons, List.sum_cons]
          omega
        · cases hstart
  simpa using hfrom values 0 h

/-- What has been earned in all. -/
def Database.totalReported (db : Database) (q : Reporting) (poolId : Int32) : ℤ :=
  ((db.reportRows q poolId).map fun row => row.amount.toInt).sum

/-- The sum of a group. -/
def ReportRow.subTotal (rows : List ReportRow) (pubkey : String) : ℤ :=
  total ReportRow.pubkey (fun row => row.amount.toInt) pubkey rows

lemma toInt_subTotal {rows : List ReportRow} {pubkey : String} {s : Int64}
    (h : subTotal rows pubkey = some s) : s.toInt = ReportRow.subTotal rows pubkey := by
  rw [toInt_sqlSum h, List.map_map]
  rfl

/-! ## Summaries -/

/-- What a row of the query says of its group. -/
structure SummaryRow.Sums (rows : List ReportRow) (row : SummaryRow) : Prop where
  group : row.minerPubkey ∈ groups ReportRow.pubkey rows
  count : row.numOfContributions = (select ReportRow.pubkey row.minerPubkey rows).length
  subTotal : row.earningSubTotal.toInt = ReportRow.subTotal rows row.minerPubkey
  minDiff : row.minDiff.isSome = true
  maxDiff : row.maxDiff.isSome = true
  percent : row.percent.isSome = true ↔ (rows.map fun row => row.amount.toInt).sum ≠ 0

/-- **The rows of the query.**  There is a row where the join has one, and each says what its group
sums up to. -/
theorem Database.summaryRows_eq_some {rows : List SummaryRow}
    (h : db.summaryRows q poolId = some rows) :
    (rows = [] ↔ db.reportRows q poolId = []) ∧
      ∀ row ∈ rows, row.Sums (db.reportRows q poolId) := by
  obtain ⟨subTotals, hsubs, h⟩ := Option.bind_eq_some_iff.mp h
  obtain ⟨sum, hsum, rfl⟩ := Option.map_eq_some_iff.mp h
  have hall := forall₂_of_mapM hsubs
  have hperm := q.orderByDesc_perm SummaryRow.percent
    (subTotals.map fun group =>
      q.summaryRow (db.reportRows q poolId) group.1 group.2 sum)
  have htotal : sum.toInt = ((db.reportRows q poolId).map fun row => row.amount.toInt).sum := by
    rw [toInt_sqlSum hsum, List.map_map, ← sum_total_groups ReportRow.pubkey]
    refine congrArg List.sum (map_eq_of_forall₂ hall fun pubkey st hst => ?_).symm
    obtain ⟨s, hs, rfl⟩ := Option.map_eq_some_iff.mp hst
    exact (toInt_subTotal hs).symm
  refine ⟨?_, ?_⟩
  · rw [← groups_eq_nil ReportRow.pubkey, ← List.length_eq_zero_iff,
      ← List.length_eq_zero_iff, hperm.length_eq, List.length_map, hall.length_eq]
  · intro row hrow
    obtain ⟨⟨pubkey, s⟩, hmem, rfl⟩ := List.mem_map.mp (hperm.mem_iff.mp hrow)
    obtain ⟨pubkey', hgroup, hst⟩ := exists_of_forall₂_right hall hmem
    obtain ⟨s', hs, heq⟩ := Option.map_eq_some_iff.mp hst
    obtain ⟨rfl, rfl⟩ := Prod.mk.inj heq
    have hne : (select ReportRow.pubkey pubkey' (db.reportRows q poolId)).map
        (fun row => row.contribution.difficulty) ≠ [] := by
      obtain ⟨r, hr, hpubkey⟩ := exists_of_mem_groups hgroup
      exact List.ne_nil_of_mem (List.mem_map_of_mem (mem_select.mpr ⟨hr, hpubkey⟩))
    refine ⟨hgroup, rfl, toInt_subTotal hs, List.isSome_min?_of_ne_nil hne,
      List.isSome_max?_of_ne_nil hne, ?_⟩
    show (q.percent s' sum).isSome = true ↔ _
    rw [← htotal, Reporting.percent, ← Int64.toInt_zero, ne_eq, Int64.toInt_inj]
    split
    · simp [*]
    · simp [*]

/-- **Reading.**  A row is read where its count fits and there is something to take a percentage
of. -/
theorem SummaryRow.Sums.isSome_read {rows : List ReportRow} {row : SummaryRow}
    (h : row.Sums rows) :
    row.read.isSome = true ↔ row.numOfContributions ≤ Int32.maxValue.toInt ∧
      (rows.map fun row => row.amount.toInt).sum ≠ 0 := by
  obtain ⟨minDiff, hmin⟩ := Option.isSome_iff_exists.mp h.minDiff
  obtain ⟨maxDiff, hmax⟩ := Option.isSome_iff_exists.mp h.maxDiff
  rw [← h.percent, SummaryRow.read, hmin, hmax]
  split
  · simp [*]
  · simp [*]

/-- What is read is in the row. -/
lemma SummaryRow.read_eq_some {row : SummaryRow} {summary : Summary}
    (h : row.read = some summary) :
    summary.minerPubkey = row.minerPubkey ∧
      summary.numOfContributions.toInt = row.numOfContributions ∧
      summary.earningSubTotal = row.earningSubTotal := by
  rw [SummaryRow.read] at h
  split at h
  · rename_i hcount
    obtain ⟨minDiff, -, h⟩ := Option.bind_eq_some_iff.mp h
    obtain ⟨maxDiff, -, h⟩ := Option.bind_eq_some_iff.mp h
    obtain ⟨percent, -, rfl⟩ := Option.map_eq_some_iff.mp h
    refine ⟨rfl, ?_, rfl⟩
    rw [Int32.toInt_maxValue] at hcount
    exact Int32.toInt_ofNat_of_lt (by omega)
  · cases h

/-- What is returned is what SQLite has returned, all of it. -/
lemma Database.getSummaries_eq_ok {fault : Option ReportFault} {summaries : List Summary}
    (h : db.getSummariesForLast24Hours q poolId fault = some (.ok summaries)) :
    ∃ rows, db.summaryRows q poolId = some rows ∧
      rows.map SummaryRow.read = summaries.map some := by
  have hitems : summaryItems (db.summaryRows q poolId) fault = summaries.map some := by
    unfold Database.getSummariesForLast24Hours at h
    split at h
    · cases h
    · cases h
    · split at h
      · cases h
      · cases h
      · rename_i hitems
        obtain ⟨l, hl, heq⟩ := Option.map_eq_some_iff.mp h
        cases heq
        rw [hitems]
        exact mapM_id_eq_some.mp hl
  -- no item is an error
  have hall : none ∉ summaryItems (db.summaryRows q poolId) fault := by
    rw [hitems]
    simp
  cases hrows : db.summaryRows q poolId with
  | none =>
      rw [hrows] at hall
      exact absurd List.mem_cons_self hall
  | some rows =>
      refine ⟨rows, rfl, ?_⟩
      rw [← hitems, hrows]
      rw [hrows] at hall
      cases fault with
      | none => rfl
      | some fault =>
          cases fault with
          | connection | interaction => rfl
          | step returned =>
              rw [summaryItems] at hall ⊢
              split at hall
              · exact absurd (List.mem_append_right _ List.mem_cons_self) hall
              · rename_i hlong
                rw [if_neg hlong]

end OrePool
