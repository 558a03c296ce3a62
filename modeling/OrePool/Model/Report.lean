import OrePool.Core.Binary64
import OrePool.Core.NestedLoops
import OrePool.Model.Database

/-!
# The report

`get_summaries_for_last_24_hours` of `database.rs`: a query over four tables, its rows as
`models::Summary`, and what becomes of rows that do not convert.

The query joins a contribution to the earnings of its miner for its challenge.  Neither table has an
index that says there is one.
-/

namespace OrePool

open Binary64 NestedLoops Tables

/-- A row of the query before it is read, with `none` for `NULL`. -/
structure SummaryRow where
  minerPubkey : String
  numOfContributions : ℕ
  minDiff : Option Int16
  avgDiff : Float
  maxDiff : Option Int16
  earningSubTotal : Int64
  percent : Option Float

/-- What the query takes from the clock and from SQLite: when a contribution was inserted, by its
id, `datetime('now', '-24 hour')`, and functions of SQL.  `ORDER BY` leaves open the order of rows
that agree in the column. -/
structure Reporting where
  created : Int64 → String
  dayAgo : String
  avg : List Int16 → Float
  round : Float → ℕ → Float
  orderByDesc : (SummaryRow → Option Float) → List SummaryRow → List SummaryRow
  orderByDesc_perm : ∀ column rows, (orderByDesc column rows).Perm rows

/-! ## The join -/

/-- A row of the join. -/
structure ReportRow where
  contribution : ContributionRow
  miner : Miner
  earning : InsertEarning
  pool : PoolRow
  deriving DecidableEq

/-- The column of `GROUP BY`. -/
def ReportRow.pubkey (row : ReportRow) : String := row.miner.pubkey

/-- The column that is summed up. -/
def ReportRow.amount (row : ReportRow) : Int64 := row.earning.amount

/-- The conditions on `c.created`.  `'now'` is a text here, and any timestamp comes before it. -/
def Reporting.inWindow (q : Reporting) (c : ContributionRow) : Bool :=
  q.dayAgo ≤ q.created c.id ∧ q.created c.id < "now"

/-- `FROM` and `WHERE`. -/
def Database.reportRows (db : Database) (q : Reporting) (poolId : Int32) : List ReportRow :=
  let withMiners := innerJoin (fun c m => c.minerId = m.id) db.contributions db.miners
  let withEarnings := innerJoin (fun cm e => cm.1.challengeId = e.challengeId ∧
    cm.1.minerId = e.minerId ∧ e.poolId = poolId) withMiners db.earnings
  let withPools := innerJoin (fun cme p => cme.2.poolId.toInt64 = p.id) withEarnings db.pools
  (withPools.filter fun x => q.inWindow x.1.1.1 && x.1.1.2.enabled).map fun x =>
    ⟨x.1.1.1, x.1.1.2, x.1.2, x.2⟩

/-! ## The rows of the query -/

/-- `SUM`, `none` for the error "integer overflow". -/
def sqlSum (values : List Int64) : Option Int64 :=
  values.foldlM (fun s x => if Fits (s.toInt + x.toInt) then some (s + x) else none) 0

/-- `SUM(e.amount)` of a group. -/
def subTotal (rows : List ReportRow) (pubkey : String) : Option Int64 :=
  sqlSum ((select ReportRow.pubkey pubkey rows).map ReportRow.amount)

/-- `ROUND(CAST(SUM(…) AS REAL) / CAST(SUM(SUM(…)) OVER () AS REAL) * 100, 2)`.  A division by zero
is `NULL`. -/
def Reporting.percent (q : Reporting) (earningSubTotal total : Int64) : Option Float :=
  if total = 0 then none
  else some (q.round (ofInt64 earningSubTotal / ofInt64 total * 100.0) 2)

/-- The columns of a group. -/
def Reporting.summaryRow (q : Reporting) (rows : List ReportRow) (pubkey : String)
    (earningSubTotal total : Int64) : SummaryRow :=
  let group := select ReportRow.pubkey pubkey rows
  let difficulties := group.map fun row => row.contribution.difficulty
  { minerPubkey := pubkey
    numOfContributions := group.length
    minDiff := difficulties.min?
    avgDiff := q.round (q.avg difficulties) 2
    maxDiff := difficulties.max?
    earningSubTotal
    percent := q.percent earningSubTotal total }

/-- The rows of the query, `none` where a sum overflows. -/
def Database.summaryRows (db : Database) (q : Reporting) (poolId : Int32) :
    Option (List SummaryRow) :=
  let rows := db.reportRows q poolId
  ((groups ReportRow.pubkey rows).mapM fun pubkey =>
      (subTotal rows pubkey).map fun earningSubTotal => (pubkey, earningSubTotal)).bind
    fun subTotals => (sqlSum (subTotals.map Prod.snd)).map fun total =>
      q.orderByDesc SummaryRow.percent
        (subTotals.map fun (pubkey, earningSubTotal) =>
          q.summaryRow rows pubkey earningSubTotal total)

/-! ## Reading them -/

/-- `models::Summary`. -/
structure Summary where
  minerPubkey : String
  numOfContributions : Int32
  minDiff : Int16
  avgDiff : Float
  maxDiff : Int16
  earningSubTotal : Int64
  percent : Float

/-- A row as a `Summary`, `none` where a column does not convert. -/
def SummaryRow.read (row : SummaryRow) : Option Summary :=
  if row.numOfContributions ≤ Int32.maxValue.toInt then
    row.minDiff.bind fun minDiff => row.maxDiff.bind fun maxDiff => row.percent.map fun percent =>
      { minerPubkey := row.minerPubkey
        numOfContributions := Int32.ofNat row.numOfContributions
        minDiff
        avgDiff := row.avgDiff
        maxDiff
        earningSubTotal := row.earningSubTotal
        percent }
  else
    none

/-- What can go wrong around the query: no connection, an interaction that fails, an error of
SQLite's once it has returned some rows. -/
inductive ReportFault
  | connection
  | interaction
  | step (returned : ℕ)
  deriving DecidableEq

/-- The items of `query_map`, `none` for an error.  A sum that overflows is found out before the
first row, and nothing comes after an error of SQLite's. -/
def summaryItems (rows : Option (List SummaryRow)) (fault : Option ReportFault) :
    List (Option Summary) :=
  match rows, fault with
  | none, _ => [none]
  | some rows, some (.step returned) =>
      if returned ≤ rows.length then (rows.take returned).map SummaryRow.read ++ [none]
      else rows.map SummaryRow.read
  | some rows, _ => rows.map SummaryRow.read

/-- `get_summaries_for_last_24_hours`, `none` where it panics: at its `todo!()` for no items, and
where it unwraps an error behind an item without one. -/
def Database.getSummariesForLast24Hours (db : Database) (q : Reporting) (poolId : Int32)
    (fault : Option ReportFault) : Option (Except DatabaseError (List Summary)) :=
  match fault with
  | some .connection => some (.error .failedToGetConnectionFromPool)
  | some .interaction => some (.error .interactionFailed)
  | _ =>
      match summaryItems (db.summaryRows q poolId) fault with
      | [] => none
      | none :: _ => some (.error .queryFailed)
      | some summary :: items => ((some summary :: items).mapM id).map .ok

end OrePool
