import OrePool.Core.Traversal
import OrePool.LedgerReplay
import OrePool.Lemmas.Reports
import OrePool.Processors.Reporting

/-!
# Reporting goes on

A report that panics ends `reporting_processor`, and there is no report after it.  `ReportSurvives`
says that the query is answered and the loop goes on.

The rows come one by one, each read or not, and only the first is looked at before all of them are
unwrapped; where there is none, the code is not finished.  So a day without contributions ends the
reporting (`not_reportSurvives`).  `Reportable` lists the ways through, and there is no other
(`reportSurvives`).
-/

namespace OrePool

open Interleaving NestedLoops Tables Traversal

/-! ## The property -/

/-- **Reporting survives.**  The query is answered by an error or by all of its rows, and the loop
goes on to the next report. -/
structure ReportSurvives (host : Host) (q : Reporting) (display : ReportDisplay) (db : Database)
    (fault : Option ReportFault) : Prop where
  answered : ∃ result, db.getSummariesForLast24Hours q host.poolId fault = some result ∧
    ∀ summaries, result = .ok summaries → ∃ rows, db.summaryRows q host.poolId = some rows ∧
      rows.map SummaryRow.read = summaries.map some
  goesOn : ∀ (r : Reporter) (intervalInHrs now done : UInt64),
    r.timeToNextReporting ≤ now - r.timer →
    ∃ turn, r.turn host q display intervalInHrs db fault now done = some turn ∧
      turn.next = some ⟨intervalInHrs * 3600, done⟩

/-- A text of at least six ASCII characters.  The texts of keys have 32 to 44 of them. -/
def AsciiText (text : String) : Prop :=
  6 ≤ text.toList.length ∧ ∀ c ∈ text.toList, c.val ≤ 127

/-- The count of a row fits into an `i32`. -/
def SummaryRow.CountFits (row : SummaryRow) : Prop :=
  row.numOfContributions ≤ Int32.maxValue.toInt

instance : DecidablePred SummaryRow.CountFits := fun row =>
  inferInstanceAs (Decidable ((row.numOfContributions : ℤ) ≤ Int32.maxValue.toInt))

/-- The ways through: an error before the first row, a first row that cannot be read because nothing
has been earned in all or its count does not fit, and rows that can all be read. -/
inductive Reportable (db : Database) (q : Reporting) (poolId : Int32) : Option ReportFault → Prop
  | connection : Reportable db q poolId (some .connection)
  | interaction : Reportable db q poolId (some .interaction)
  | firstStep : Reportable db q poolId (some (.step 0))
  | overflow (fault : Option ReportFault) (h : db.summaryRows q poolId = none) :
      Reportable db q poolId fault
  | firstUnread (fault : Option ReportFault) {row : SummaryRow} {rows : List SummaryRow}
      (h : db.summaryRows q poolId = some (row :: rows))
      (hunread : db.totalReported q poolId = 0 ∨ ¬ row.CountFits) : Reportable db q poolId fault
  | allRead (fault : Option ReportFault) {row : SummaryRow} {rows : List SummaryRow}
      (h : db.summaryRows q poolId = some (row :: rows)) (htotal : db.totalReported q poolId ≠ 0)
      (hcounts : ∀ row' ∈ row :: rows, row'.CountFits)
      (hsteps : ∀ returned, fault = some (.step returned) → (row :: rows).length < returned) :
      Reportable db q poolId fault

/-! ## The query -/

section Query

variable {db : Database} {q : Reporting} {poolId : Int32} {fault : Option ReportFault}

/-- A list of results is unwrapped where all of them are there. -/
lemma isSome_mapM_id_iff {α : Type} {items : List (Option α)} :
    (items.mapM id).isSome = true ↔ none ∉ items := by
  rw [isSome_mapM_iff]
  constructor
  · intro h hnone
    cases h none hnone
  · intro h item hitem
    exact Option.isSome_iff_ne_none.mpr fun hnone => h (hnone ▸ hitem)

/-- The function panics for no items, and for an error behind an item without one. -/
lemma Database.isSome_getSummaries
    (hfault : fault ≠ some .connection ∧ fault ≠ some .interaction) :
    (db.getSummariesForLast24Hours q poolId fault).isSome = true ↔
      (summaryItems (db.summaryRows q poolId) fault).head? = some none ∨
        summaryItems (db.summaryRows q poolId) fault ≠ [] ∧
          none ∉ summaryItems (db.summaryRows q poolId) fault := by
  unfold Database.getSummariesForLast24Hours
  split
  · exact absurd rfl hfault.1
  · exact absurd rfl hfault.2
  · split
    · rename_i hitems
      simp [hitems]
    · rename_i hitems
      simp [hitems]
    · rename_i summary items hitems
      rw [hitems, Option.isSome_map, isSome_mapM_id_iff]
      simp

/-- What comes of the rows. -/
lemma summaryItems_some (rows : List SummaryRow) (fault : Option ReportFault) :
    (∃ returned, fault = some (.step returned) ∧ returned ≤ rows.length ∧
        summaryItems (some rows) fault = (rows.take returned).map SummaryRow.read ++ [none]) ∨
      (∀ returned, fault = some (.step returned) → rows.length < returned) ∧
        summaryItems (some rows) fault = rows.map SummaryRow.read := by
  cases fault with
  | none => exact .inr ⟨nofun, rfl⟩
  | some fault =>
      cases fault with
      | connection | interaction => exact .inr ⟨nofun, rfl⟩
      | step returned =>
          by_cases hlong : returned ≤ rows.length
          · exact .inl ⟨returned, rfl, hlong, if_pos hlong⟩
          · refine .inr ⟨?_, if_neg hlong⟩
            rintro _ ⟨⟩
            omega

/-- A row is read where there is something to take a percentage of and its count fits. -/
lemma Database.read_eq_none_iff {rows : List SummaryRow} (h : db.summaryRows q poolId = some rows)
    {row : SummaryRow} (hrow : row ∈ rows) :
    row.read = none ↔ db.totalReported q poolId = 0 ∨ ¬ row.CountFits := by
  rw [← Option.not_isSome_iff_eq_none, ((Database.summaryRows_eq_some h).2 row hrow).isSome_read]
  show ¬ (row.CountFits ∧ db.totalReported q poolId ≠ 0) ↔ _
  tauto

lemma Reportable.of_unread {row : SummaryRow} {rows : List SummaryRow}
    (hrows : db.summaryRows q poolId = some (row :: rows)) (hunread : row.read = none) :
    Reportable db q poolId fault :=
  .firstUnread fault hrows ((Database.read_eq_none_iff hrows List.mem_cons_self).mp hunread)

lemma Reportable.of_read {row : SummaryRow} {rows : List SummaryRow}
    (hrows : db.summaryRows q poolId = some (row :: rows))
    (hread : ∀ row' ∈ row :: rows, row'.read ≠ none)
    (hsteps : ∀ returned, fault = some (.step returned) → (row :: rows).length < returned) :
    Reportable db q poolId fault := by
  have hfits : ∀ row' ∈ row :: rows, db.totalReported q poolId ≠ 0 ∧ row'.CountFits := by
    intro row' hrow'
    have h := mt (Database.read_eq_none_iff hrows hrow').mpr (hread row' hrow')
    exact ⟨fun h0 => h (.inl h0), of_not_not fun hc => h (.inr hc)⟩
  exact .allRead fault hrows (hfits row List.mem_cons_self).1
    (fun row' hrow' => (hfits row' hrow').2) hsteps

/-- A query that does not panic went one of the ways. -/
lemma Reportable.of_isSome (h : (db.getSummariesForLast24Hours q poolId fault).isSome = true) :
    Reportable db q poolId fault := by
  by_cases hconnection : fault = some .connection
  · exact hconnection ▸ .connection
  by_cases hinteraction : fault = some .interaction
  · exact hinteraction ▸ .interaction
  have h := (Database.isSome_getSummaries ⟨hconnection, hinteraction⟩).mp h
  cases hrows : db.summaryRows q poolId with
  | none => exact .overflow fault hrows
  | some rows =>
      rw [hrows] at h
      rcases summaryItems_some rows fault with ⟨returned, rfl, hlong, hitems⟩ | ⟨hsteps, hitems⟩
      · rw [hitems] at h
        cases returned with
        | zero => exact .firstStep
        | succ returned =>
            cases rows with
            | nil => cases hlong
            | cons row rows =>
                -- an error comes at the end, so the first row is not read
                exact .of_unread hrows (by simpa using h)
      · rw [hitems] at h
        cases rows with
        | nil => simp at h
        | cons row rows =>
            by_cases hfirst : row.read = none
            · exact .of_unread hrows hfirst
            · refine .of_read hrows ?_ hsteps
              intro row' hrow' hnone
              refine (h.resolve_left fun hhead => hfirst (Option.some.inj hhead)).2 ?_
              exact List.mem_map.mpr ⟨row', hrow', hnone⟩

/-- None of the ways panics. -/
lemma Reportable.isSome (h : Reportable db q poolId fault) :
    (db.getSummariesForLast24Hours q poolId fault).isSome = true := by
  by_cases hconnection : fault = some .connection
  · subst hconnection
    rfl
  by_cases hinteraction : fault = some .interaction
  · subst hinteraction
    rfl
  rw [Database.isSome_getSummaries ⟨hconnection, hinteraction⟩]
  cases h with
  | connection => exact absurd rfl hconnection
  | interaction => exact absurd rfl hinteraction
  | firstStep =>
      cases db.summaryRows q poolId with
      | none => exact .inl rfl
      | some rows => exact .inl rfl
  | overflow _ hrows =>
      rw [hrows]
      exact .inl rfl
  | @firstUnread _ row rows hrows hunread =>
      have hfirst := (Database.read_eq_none_iff hrows List.mem_cons_self).mpr hunread
      rw [hrows]
      rcases summaryItems_some (row :: rows) fault with ⟨returned, rfl, -, hitems⟩ | ⟨-, hitems⟩
      · rw [hitems]
        cases returned with
        | zero => exact .inl rfl
        | succ returned => exact .inl (congrArg some hfirst)
      · rw [hitems]
        exact .inl (congrArg some hfirst)
  | @allRead _ row rows hrows htotal hcounts hsteps =>
      have hitems := ((summaryItems_some (row :: rows) fault).resolve_left
        fun ⟨returned, hfault, hlong, _⟩ => (hsteps returned hfault).not_ge hlong).2
      rw [hrows, hitems]
      refine .inr ⟨List.cons_ne_nil _ _, ?_⟩
      intro hnone
      obtain ⟨row', hrow', hread⟩ := List.mem_map.mp hnone
      exact ((Database.read_eq_none_iff hrows hrow').mp hread).elim htotal
        fun hcount => hcount (hcounts row' hrow')

end Query

/-! ## The lines -/

/-- In ASCII every offset is a boundary. -/
lemma isSome_splitBytes {cs : List Char} (hascii : ∀ c ∈ cs, c.utf8Size = 1) {n : ℕ}
    (hn : n ≤ cs.length) : (splitBytes n cs).isSome = true := by
  induction cs generalizing n with
  | nil =>
      obtain rfl : n = 0 := Nat.le_zero.mp hn
      rfl
  | cons c cs ih =>
      cases n with
      | zero => rfl
      | succ n =>
          have hrest := ih (fun c hc => hascii c (List.mem_cons_of_mem _ hc))
            (Nat.le_of_succ_le_succ hn)
          rw [splitBytes, hascii c List.mem_cons_self, if_pos (Nat.le_add_left 1 n),
            Option.isSome_map]
          exact hrest

/-- Such a text is long enough to be shortened. -/
lemma AsciiText.isSome_shortPubkey {text : String} (h : AsciiText text) :
    (shortPubkey text).isSome = true := by
  obtain ⟨hlen, hascii⟩ := h
  have hone : ∀ c ∈ text.toList, c.utf8Size = 1 := fun c hc =>
    Char.utf8Size_eq_one_iff.mpr (hascii c hc)
  have hsum : (text.toList.map Char.utf8Size).sum = text.toList.length := by
    rw [List.map_congr_left hone, List.map_const', List.sum_replicate, nsmul_one, Nat.cast_id]
  obtain ⟨⟨front, rest⟩, hfront⟩ := Option.isSome_iff_exists.mp (isSome_splitBytes hone hlen)
  have hback := isSome_splitBytes hone (Nat.sub_le text.toList.length 4)
  rw [shortPubkey, hsum, hfront, Option.bind_some]
  dsimp only
  rw [if_pos (by omega), Option.isSome_map]
  exact hback

section Lines

variable {host : Host} {db : Database} {q : Reporting} {fault : Option ReportFault}

/-- What is reported are keys of miners. -/
lemma Database.Named.summary (hnamed : db.Named host) {poolId : Int32} {summaries : List Summary}
    (h : db.getSummariesForLast24Hours q poolId fault = some (.ok summaries)) {summary : Summary}
    (hsummary : summary ∈ summaries) : ∃ key, summary.minerPubkey = host.keys.toString key := by
  obtain ⟨rows, hrows, hread⟩ := Database.getSummaries_eq_ok h
  obtain ⟨row, hrow, hsome⟩ : ∃ row ∈ rows, row.read = some summary :=
    List.mem_map.mp (hread ▸ List.mem_map_of_mem hsummary)
  obtain ⟨joined, hmem, hgroup⟩ :=
    exists_of_mem_groups ((Database.summaryRows_eq_some hrows).2 row hrow).group
  obtain ⟨key, hkey⟩ := hnamed _ (Database.mem_reportRows.mp hmem).miner
  exact ⟨key, (SummaryRow.read_eq_some hsome).1.trans (hgroup.symm.trans hkey)⟩

/-- Where the query is answered the loop goes on. -/
theorem Reporter.turn_goesOn (hdb : host.poweredByDbms = .sqlite)
    (htexts : ∀ key, AsciiText (host.keys.toString key)) (hnamed : db.Named host)
    {result : Except DatabaseError (List Summary)}
    (h : db.getSummariesForLast24Hours q host.poolId fault = some result)
    (display : ReportDisplay) (r : Reporter) (intervalInHrs now done : UInt64)
    (hdue : r.timeToNextReporting ≤ now - r.timer) :
    ∃ turn, r.turn host q display intervalInHrs db fault now done = some turn ∧
      turn.next = some ⟨intervalInHrs * 3600, done⟩ := by
  simp only [Reporter.turn, if_pos hdue, if_pos hdb, h, Option.bind_some]
  cases result with
  | error e => exact ⟨_, rfl, rfl⟩
  | ok summaries =>
      have hlines : (reportLines display summaries).isSome = true := by
        rw [reportLines, Option.isSome_map]
        refine isSome_mapM fun summary hsummary => ?_
        obtain ⟨key, hkey⟩ := hnamed.summary h hsummary
        rw [Summary.line, Option.isSome_map, hkey]
        exact (htexts key).isSome_shortPubkey
      obtain ⟨lines, hlines⟩ := Option.isSome_iff_exists.mp hlines
      dsimp only
      rw [hlines]
      exact ⟨_, rfl, rfl⟩

end Lines

/-- **Reporting survives** in a state in one of the listed ways, and in no other.  The texts of keys
are of ASCII characters. -/
theorem reportSurvives {host : Host} (hdb : host.poweredByDbms = .sqlite)
    (htexts : ∀ key, AsciiText (host.keys.toString key)) {s : Ledger}
    (h : Reach (ledger host) Any s) (q : Reporting) (display : ReportDisplay)
    (fault : Option ReportFault) :
    ReportSurvives host q display s.db fault ↔ Reportable s.db q host.poolId fault := by
  constructor
  · intro hsurvives
    obtain ⟨result, hresult, -⟩ := hsurvives.answered
    exact .of_isSome (Option.isSome_iff_exists.mpr ⟨result, hresult⟩)
  · intro hreportable
    obtain ⟨result, hresult⟩ := Option.isSome_iff_exists.mp hreportable.isSome
    refine ⟨⟨result, hresult, ?_⟩, Reporter.turn_goesOn hdb htexts (named h) hresult display⟩
    rintro summaries rfl
    exact Database.getSummaries_eq_ok hresult

/-! ## Two days -/

namespace Replay

/-- Two letters for each byte. -/
def letters : List UInt8 → List Char
  | [] => []
  | b :: bytes =>
      Char.ofNat (65 + b.toNat / 16) :: Char.ofNat (65 + b.toNat % 16) :: letters bytes

/-- The bytes of the letters. -/
def ofLetters : List Char → List UInt8
  | c :: d :: cs => (16 * (c.toNat - 65) + (d.toNat - 65)).toUInt8 :: ofLetters cs
  | _ => []

lemma letter_toNat : ∀ n < 16, (Char.ofNat (65 + n)).toNat = 65 + n := by decide

lemma ofLetters_letters (bytes : List UInt8) : ofLetters (letters bytes) = bytes := by
  induction bytes with
  | nil => rfl
  | cons b bytes ih =>
      have hlt := b.toNat_lt
      rw [letters, ofLetters, ih, letter_toNat _ (by omega), letter_toNat _ (by omega)]
      have hb : 16 * (65 + b.toNat / 16 - 65) + (65 + b.toNat % 16 - 65) = b.toNat := by omega
      rw [hb]
      simp

/-- Keys in letters. -/
def letterKeys : Keys where
  toString key := String.ofList (letters key.toList)
  fromStr text :=
    let bytes := ofLetters text.toList
    if h : bytes.length = 32 then some ⟨bytes.toArray, h⟩ else none
  fromStr_toString key := by
    simp [ofLetters_letters, Vector.toList]

lemma ascii_letters (bytes : List UInt8) :
    (letters bytes).length = 2 * bytes.length ∧ ∀ c ∈ letters bytes, c.val ≤ 127 := by
  induction bytes with
  | nil => exact ⟨rfl, nofun⟩
  | cons b bytes ih =>
      have hlt := b.toNat_lt
      have hletter : ∀ n < 16, (Char.ofNat (65 + n)).val ≤ 127 := by decide
      refine ⟨by simp [letters, ih.1]; omega, ?_⟩
      intro c hc
      rcases List.mem_cons.mp hc with rfl | hc
      · exact hletter _ (by omega)
      · rcases List.mem_cons.mp hc with rfl | hc
        · exact hletter _ (by omega)
        · exact ih.2 c hc

/-- A host whose keys are such texts. -/
def letterHost : Host := { host with keys := letterKeys }

lemma ascii_letterHost (key : Pubkey) : AsciiText (letterHost.keys.toString key) := by
  obtain ⟨hlen, hascii⟩ := ascii_letters key.toList
  have htext : (letterHost.keys.toString key).toList = letters key.toList :=
    String.toList_ofList
  rw [AsciiText, htext, hlen, Vector.length_toList]
  exact ⟨by decide, hascii⟩

/-- The miner connects, is registered and paid. -/
def letterPaid : List LedgerAction :=
  [.addPool none, .request { request with username := letterKeys.toString minerKey } 110 []] ++
    List.replicate 5 (.handshake 0 none) ++
    .mineSuccess (mineSuccess 1 100) :: List.replicate 3 (.payment none)

def reportDisplay : ReportDisplay := ⟨100000000000, fun _ _ => "", fun _ => "", ""⟩

end Replay

/-- The rows can all be read. -/
def Database.allRead (db : Database) (q : Reporting) (poolId : Int32) : Bool :=
  match db.summaryRows q poolId with
  | some (row :: rows) =>
      decide (db.totalReported q poolId ≠ 0 ∧ ∀ row' ∈ row :: rows, row'.CountFits)
  | _ => false

/-- A day with a contribution is reported. -/
theorem reportSurvives_paid : ∃ s, Reach (ledger Replay.letterHost) Any s ∧
    s.db.contributions.length = 1 ∧
    ReportSurvives Replay.letterHost Replay.reporting Replay.reportDisplay s.db none := by
  obtain ⟨s, hr, hs⟩ := exists_of_ledger Replay.letterHost Any Replay.letterPaid
    (fun s => decide (s.db.contributions.length = 1) && s.db.allRead Replay.reporting 1)
    (by decide +kernel)
  obtain ⟨hlen, hread⟩ := Bool.and_eq_true_iff.mp hs
  refine ⟨s, hr, of_decide_eq_true hlen, (reportSurvives rfl Replay.ascii_letterHost hr
    Replay.reporting Replay.reportDisplay none).mpr ?_⟩
  rw [Database.allRead] at hread
  split at hread
  · rename_i row rows hrows
    obtain ⟨htotal, hcounts⟩ := of_decide_eq_true hread
    exact .allRead none hrows htotal hcounts nofun
  · cases hread

/-- A day without contributions ends the reporting. -/
theorem not_reportSurvives : ¬ ∀ host s, host.poweredByDbms = .sqlite →
    (∀ key, AsciiText (host.keys.toString key)) → Reach (ledger host) Any s →
    ∀ q display fault, ReportSurvives host q display s.db fault := by
  intro h
  have hsurvives := h Replay.letterHost .start rfl Replay.ascii_letterHost (.init rfl)
    Replay.reporting Replay.reportDisplay none
  obtain ⟨result, hresult, -⟩ := hsurvives.answered
  have hpanic : Database.init.getSummariesForLast24Hours Replay.reporting 1 none = none := rfl
  cases hpanic.symm.trans hresult

end OrePool
