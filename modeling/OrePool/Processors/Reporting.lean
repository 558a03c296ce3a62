import OrePool.Model.Report

/-!
# `reporting_processor`

With a SQLite database the server writes the summaries of the last 24 hours to its log from time to
time.  A turn of the loop looks at the clock and sleeps, reports or leaves the loop.
-/

namespace OrePool

open Binary64

/-! ## Texts -/

/-- The two parts of a text at an offset in bytes, `none` if it is not a boundary of characters. -/
def splitBytes : ℕ → List Char → Option (List Char × List Char)
  | 0, cs => some ([], cs)
  | _ + 1, [] => none
  | n + 1, c :: cs =>
      if c.utf8Size ≤ n + 1 then
        (splitBytes (n + 1 - c.utf8Size) cs).map fun (front, back) => (c :: front, back)
      else
        none

/-- `format!("{}...{}", &mp[0..6], &mp[len - 4..len])`, `none` where a slice panics. -/
def shortPubkey (mp : String) : Option String :=
  let chars := mp.toList
  let len := (chars.map Char.utf8Size).sum
  (splitBytes 6 chars).bind fun (front, _) =>
    if 4 ≤ len then
      (splitBytes (len - 4) chars).map fun (_, back) =>
        String.ofList front ++ "..." ++ String.ofList back
    else
      none

/-- A number in a column of the given width. -/
def padLeft (width : ℕ) (text : String) : String :=
  String.ofList (List.replicate (width - text.length) ' ') ++ text

/-- What is needed to write a report: the grains in an ORE, the formatting of floats with a number
of decimals and without one, and `report_time`. -/
structure ReportDisplay where
  decimals : Float
  fixed : ℕ → Float → String
  plain : Float → String
  reportTime : String

/-- `line`. -/
def Summary.line (display : ReportDisplay) (summary : Summary) : Option String :=
  (shortPubkey summary.minerPubkey).map fun shortMp =>
    let earnedRewardsDec := ofInt64 summary.earningSubTotal / display.decimals
    shortMp ++ "    " ++ padLeft 17 (toString summary.numOfContributions) ++
    "   " ++ padLeft 8 (toString summary.minDiff) ++
    "   " ++ padLeft 8 (display.plain summary.avgDiff) ++
    "   " ++ padLeft 8 (toString summary.maxDiff) ++
    "       " ++ display.fixed 11 earnedRewardsDec ++
    "   " ++ padLeft 6 (display.fixed 2 summary.percent) ++ "%"

/-- A report, `none` where it panics. -/
def reportLines (display : ReportDisplay) (summaries : List Summary) : Option (List String) :=
  (summaries.mapM (Summary.line display)).map fun lines =>
    ("[" ++ display.reportTime ++ "] Miner summaries for last 24 hours:") ::
    ("miner_pubkey     num_contributions   min_diff   avg_diff   max_diff   " ++
      "earning_sub_total   percent") :: lines

/-! ## The loop -/

/-- The variables of the loop, in seconds. -/
structure Reporter where
  timeToNextReporting : UInt64
  timer : UInt64
  deriving DecidableEq

/-- The first report comes after five minutes. -/
def Reporter.start (now : UInt64) : Reporter := ⟨300, now⟩

/-- How a turn ends. -/
inductive Turn
  | reported (lines : List String) (next : Reporter)
  | failed (e : DatabaseError) (next : Reporter)
  | sleep (seconds : UInt64)
  | exit

/-- Where the loop goes on after a report. -/
def Turn.next : Turn → Option Reporter
  | .reported _ next | .failed _ next => some next
  | .sleep _ | .exit => none

/-- A turn of the loop, `none` where it panics: `now` when it begins, `done` when the timer is set
again. -/
def Reporter.turn (host : Host) (q : Reporting) (display : ReportDisplay)
    (intervalInHrs : UInt64) (db : Database) (fault : Option ReportFault) (now done : UInt64)
    (r : Reporter) : Option Turn :=
  let currentTimestamp := now - r.timer
  if r.timeToNextReporting ≤ currentTimestamp then
    if host.poweredByDbms = .sqlite then
      let next : Reporter := ⟨intervalInHrs * 3600, done⟩
      (db.getSummariesForLast24Hours q host.poolId fault).bind fun
        | .ok summaries => (reportLines display summaries).map fun lines => .reported lines next
        | .error e => some (.failed e next)
    else
      some .exit
  else
    some (.sleep (r.timeToNextReporting - currentTimestamp))

end OrePool
