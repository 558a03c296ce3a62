import Mathlib.Data.List.Sort
import OrePool.Ledger
import OrePool.Model.Report
import OrePool.Replay

/-!
# Replaying the ledger

Pieces of concrete runs of `ledger`: a host with a wallet and a miner whose keys have short texts,
the miner's handshake, a message that pays it, and a day to report on.
-/

namespace OrePool

open Interleaving

/-- A run of calls and requests that ends in a state with `check`. -/
theorem exists_of_ledger (host : Host) (C : Ledger → LedgerAction → Prop) [DecidableRel C]
    (as : List LedgerAction) (check : Ledger → Bool)
    (h : (exec (ledger host) C .start as).any check = true) :
    ∃ s, Reach (ledger host) C s ∧ check s = true :=
  exists_of_exec rfl h

/-- The same with an observer. -/
theorem exists_of_ledgerObserved {η : Type} (host : Host) (O : Observer Ledger LedgerAction η)
    (C : Ledger × η → LedgerAction → Prop) [DecidableRel C] (as : List LedgerAction)
    (check : Ledger × η → Bool)
    (h : (exec ((ledger host).observe O) C (.start, O.start .start) as).any check = true) :
    ∃ x, Reach ((ledger host).observe O) C x ∧ check x = true :=
  exists_of_exec (s := (Ledger.start, O.start .start)) ⟨rfl, rfl⟩ h

namespace Replay

/-! ## A host -/

/-- The pool operator's key. -/
def walletKey : Pubkey := Vector.replicate 32 0

/-- A miner's key. -/
def minerKey : Pubkey := (Vector.replicate 32 0).set 31 1

def walletText : String := "11111111111111111111111111111111"

def minerText : String := "11111111111111111111111111111112"

/-- The bytes of a key as characters. -/
def rawText (key : Pubkey) : String :=
  String.ofList ('#' :: key.toList.map fun b => Char.ofNat b.toNat)

/-- The key in such a text. -/
def ofRawText (text : String) : Option Pubkey :=
  let bytes := text.toList.tail.map fun c => c.toNat.toUInt8
  if h : bytes.length = 32 then some ⟨bytes.toArray, h⟩ else none

lemma ofRawText_rawText (key : Pubkey) : ofRawText (rawText key) = some key := by
  have hchar : ∀ b : UInt8, (Char.ofNat b.toNat).toNat.toUInt8 = b := fun b => by
    have hvalid : b.toNat.isValidChar := .inl (by have := b.toNat_lt; omega)
    rw [Char.ofNat, dif_pos hvalid]
    show b.toNat.toUInt8 = b
    exact UInt8.ofNat_toNat
  have hbytes : ((rawText key).toList.tail.map fun c => c.toNat.toUInt8) = key.toList := by
    simp [rawText, Function.comp_def, hchar]
  rw [ofRawText]
  rw [hbytes]
  simp [Vector.toList]

/-- The wallet and the miner in base 58, other keys byte by byte. -/
def keys : Keys where
  toString key :=
    if key = walletKey then walletText else if key = minerKey then minerText else rawText key
  fromStr text :=
    if text = walletText then some walletKey
    else if text = minerText then some minerKey
    else ofRawText text
  fromStr_toString key := by
    have hwallet : rawText key ≠ walletText := fun h => by
      have := congrArg String.toList h
      simp [rawText, walletText] at this
    have hminer : rawText key ≠ minerText := fun h => by
      have := congrArg String.toList h
      simp [rawText, minerText] at this
    by_cases h₁ : key = walletKey
    · simp [h₁]
    · by_cases h₂ : key = minerKey
      · simp [h₂, show minerKey ≠ walletKey by decide, show minerText ≠ walletText by decide]
      · simp [h₁, h₂, hwallet, hminer, ofRawText_rawText]

/-- A host with a SQLite database. -/
def host : Host where
  poweredByDbms := .sqlite
  sql := ⟨fun _ _ => .real 0⟩
  keys := keys
  signatures := signatures
  proofPubkey key := key.map (· + 1)
  walletPubkey := walletKey
  poolId := 1

/-- The same without a database. -/
def hostWithout : Host := { host with poweredByDbms := .unavailable }

/-- The tables with the wallet's pool. -/
def pooled : Database := (Database.init.addNewPool none host.wallet host.walletProof).1

lemma pooled_reach : Reach (tables host.sql) (fun _ a => host.Legit a.1) pooled :=
  .step (a := (.addNewPool host.wallet host.walletProof, none)) (.init rfl) host.legit_addPool rfl

/-- The same with the miner registered. -/
def registered : Database :=
  let withMiner := (pooled.addNewMiner none minerText true "Enrolled").1
  (withMiner.addNewReward none ⟨1, 1⟩).1

/-! ## Pieces of a run -/

/-- The miner connects.  Its signature starts with the first byte of its key. -/
def request : Request where
  version := .V1
  username := minerText
  password := String.ofList ((sign 0 (toLeBytes 100)).map fun b => Char.ofNat b.toNat)
  timestamp := 100

/-- The same with another client's signature. -/
def forgedRequest : Request :=
  let signature := sign 1 (toLeBytes 100)
  { request with password := String.ofList (signature.map fun b => Char.ofNat b.toNat) }

/-- The miner's handshake, number `i`, with what goes wrong around its calls. -/
def connect (i : ℕ) (faults : List (Option Fault)) : List LedgerAction :=
  .request request 110 [] :: faults.map fun fault => .handshake i fault

/-- A message in which the miner with `id` has earned everything. -/
def mineSuccess (id : Int64) (rewards : Int64) : MessageInternalMineSuccess where
  difficulty := 10
  totalBalance := 0
  rewards := rewards
  challengeId := 1
  challenge := Vector.replicate 32 1
  bestNonce := 10
  totalHashpower := 160
  oreConfig := none
  contributions := (∅ : Contributions).insert minerKey ⟨id, 10, 10, 160⟩

/-- A message with two contributions, one with twice the hashpower of the other. -/
def twoShares : MessageInternalMineSuccess :=
  let contributions := ((∅ : Contributions).insert minerKey ⟨1, 6, 10, 10⟩).insert walletKey
    ⟨2, 5, 20, 5⟩
  { mineSuccess 1 100 with contributions, totalHashpower := 15 }

/-- The miner with id 1 is paid, with what goes wrong around the calls. -/
def pay (rewards : Int64) (faults : List (Option Fault)) : List LedgerAction :=
  .mineSuccess (mineSuccess 1 rewards) :: faults.map fun fault => .payment fault

/-- The last day, with everything inserted in it. -/
def reporting : Reporting where
  created _ := "2024-09-06 02:53:57"
  dayAgo := "2024-09-05 12:00:00"
  avg difficulties :=
    (difficulties.map fun d => Binary64.ofInt64 d.toInt64).sum / Float.ofNat difficulties.length
  round x digits := (x * Float.ofNat (10 ^ digits)).round / Float.ofNat (10 ^ digits)
  orderByDesc column rows :=
    rows.insertionSort fun row row' => (column row').getD 0 ≤ (column row).getD 0
  orderByDesc_perm _ rows := List.perm_insertionSort _ rows

end Replay

end OrePool
