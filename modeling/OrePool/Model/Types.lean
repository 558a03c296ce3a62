import Mathlib.Data.List.AList
import Mathlib.Data.Finset.Erase
import Mathlib.Data.Finset.Insert
import Mathlib.Tactic.Common

/-!
# The pool server's data

The records of `main.rs`, `message.rs` and of the chain program's account types, with the
fields the modelled code reads.  Machine integers are Lean's own fixed-width types, so addition,
subtraction and casts wrap as they do in a release build.

`Drillx` and `Signatures` stand for crates that are not part of the repository: the proof of
work (whether a solution is valid for a challenge, and how difficult its hash is) and the
signatures under frames.
-/

namespace OrePool

/-- `[u8; 32]`. -/
abbrev Challenge := Vector UInt8 32

/-- An account's public key, `[u8; 32]`. -/
abbrev Pubkey := Vector UInt8 32

/-- A peer's address.  The code only compares addresses. -/
abbrev SocketAddr := ℕ

/-- A hash map. -/
abbrev HashMap (α β : Type) [DecidableEq α] := AList (fun _ : α => β)

section HashMap

variable {α β : Type} [DecidableEq α] {m : HashMap α β} {a a' : α} {b b' : β}

/-- What is found after an insertion is what was inserted or was there before. -/
lemma HashMap.lookup_of_insert (h : (AList.insert a b m).lookup a' = some b') :
    a' = a ∧ b' = b ∨ m.lookup a' = some b' := by
  by_cases ha : a' = a
  · subst ha
    rw [AList.lookup_insert, Option.some.injEq] at h
    exact .inl ⟨rfl, h.symm⟩
  · exact .inr ((AList.lookup_insert_ne ha).symm.trans h)

/-- What is found after a removal was there before. -/
lemma HashMap.lookup_of_erase (h : (AList.erase a m).lookup a' = some b') :
    m.lookup a' = some b' := by
  by_cases ha : a' = a
  · subst ha
    rw [AList.lookup_erase] at h
    cases h
  · exact (AList.lookup_erase_ne ha).symm.trans h

end HashMap

/-- `u64::from_le_bytes`. -/
def fromLeBytes (n : Vector UInt8 8) : UInt64 :=
  n.toList.foldr (fun b acc => b.toUInt64 + 256 * acc) 0

/-! ## The proof-of-work crate -/

/-- A solution: the digest `d` and the nonce bytes `n`. -/
structure Solution where
  d : Vector UInt8 16
  n : Vector UInt8 8
  deriving DecidableEq

/-- The nonce of a solution, `u64::from_le_bytes(solution.n)`. -/
def Solution.nonce (s : Solution) : UInt64 := fromLeBytes s.n

/-- The proof-of-work functions: `Solution::is_valid`, and `Solution::to_hash` followed by
`Hash::difficulty`. -/
structure Drillx where
  isValid : Solution → Challenge → Bool
  difficulty : Solution → UInt32

/-! ## Signatures -/

/-- A signature, `[u8; 64]`. -/
abbrev Signature := Vector UInt8 64

/-- The signature functions: `Signature::from_str`, `none` for its error, and
`Signature::verify`. -/
structure Signatures where
  fromStr : String → Option Signature
  verify : Signature → Pubkey → List UInt8 → Bool

/-- The bytes a client signs for a solution, `hash_nonce_message`. -/
def Solution.hashNonceMessage (s : Solution) : List UInt8 := s.d.toList ++ s.n.toList

/-! ## Accounts of the chain program -/

/-- The pool's proof account. -/
structure Proof where
  balance : UInt64
  challenge : Challenge
  lastHashAt : Int64
  deriving DecidableEq

/-- The program's config account. -/
structure Config where
  topBalance : UInt64
  deriving DecidableEq

/-! ## Records of the server -/

/-- Protocol version of a client, by the endpoint it came through. -/
inductive ClientVersion
  | V0
  | V1
  deriving DecidableEq

/-- A registered connection.  The socket itself is its address. -/
structure ClientConnection where
  pubkey : Pubkey
  minerId : Int64
  clientVersion : ClientVersion
  deriving DecidableEq

/-- A half-open range of nonces, `start..end`. -/
structure NonceRange where
  start : UInt64
  stop : UInt64
  deriving DecidableEq

/-- `Range::contains`. -/
def NonceRange.contains (r : NonceRange) (nonce : UInt64) : Bool :=
  decide (r.start ≤ nonce) && decide (nonce < r.stop)

/-- What one miner contributed to the current epoch. -/
structure InternalMessageContribution where
  minerId : Int64
  suppliedDiff : UInt32
  suppliedNonce : UInt64
  hashpower : UInt64
  deriving DecidableEq

/-- The contributions of an epoch, one per miner. -/
abbrev Contributions := HashMap Pubkey InternalMessageContribution

/-- The best solution so far. -/
structure BestHash where
  solution : Option Solution
  difficulty : UInt32
  deriving DecidableEq

/-- The running epoch: its challenge, its best hash and who contributed. -/
structure EpochHashes where
  challenge : Challenge
  bestHash : BestHash
  contributions : Contributions
  deriving DecidableEq

/-- A mission as it goes to a client. -/
structure ServerMessageStartMining where
  challenge : Challenge
  cutoff : Int64
  nonceRangeStart : UInt64
  nonceRangeEnd : UInt64
  deriving DecidableEq

/-- What the attender of a landed transaction reports for payment.  `totalBalance` is kept in
grains where the source divides it into a float; the multiplier, a float computed from
`totalBalance` and `oreConfig`, is left out. -/
structure MessageInternalMineSuccess where
  difficulty : UInt32
  totalBalance : UInt64
  rewards : Int64
  challengeId : Int64
  challenge : Challenge
  bestNonce : UInt64
  totalHashpower : UInt64
  oreConfig : Option Config
  contributions : Contributions
  deriving DecidableEq

/-- What `process_message` hands to `client_message_processor`. -/
inductive ClientMessage
  | ready (addr : SocketAddr)
  | mining (addr : SocketAddr)
  | pong (addr : SocketAddr)
  | bestSolution (addr : SocketAddr) (solution : Solution) (pubkey : Pubkey)
  deriving DecidableEq

/-! ## Settings -/

/-- The database behind the server, from `POWERED_BY_DBMS`. -/
inductive PoweredByDbms
  | mysql
  | postgres
  | sqlite
  | unavailable
  deriving DecidableEq

/-- Command-line arguments read by the modelled processors. -/
structure Args where
  bufferTime : UInt64
  riskTime : UInt64
  expectedMinDifficulty : UInt32
  sendTpuMineTx : Bool
  deriving DecidableEq

/-- Everything fixed while the server runs: its settings, the proof-of-work and signature
functions and the `miners` table as a lookup from a registered key to its `id`. -/
structure Server where
  args : Args
  poweredByDbms : PoweredByDbms
  drillx : Drillx
  signatures : Signatures
  minersId : Pubkey → Option Int64

/-- The miner id a handshake gives a connection: the registered one with a database, the
default `i64::MAX` without. -/
def Server.minerIdFor (srv : Server) (pubkey : Pubkey) : Option Int64 :=
  if srv.poweredByDbms = .sqlite then srv.minersId pubkey else some Int64.maxValue

/-! ## Constants of `main.rs` -/

def MIN_HASHPOWER : UInt64 := 5
def MIN_DIFF : UInt32 := 5
def SUBMIT_LIMIT : ℕ := 5
def CHECK_LIMIT : ℕ := 30

/-- Nonces per mission: "suppose max hashes possible in 60s for a single client". -/
def MISSION_NONCES : UInt64 := 4000000

/-- Where a mission's range ends, `start + 4_000_000`.  With the constant in front the sum does
not unfold on an unknown `start`. -/
def missionEnd (start : UInt64) : UInt64 := MISSION_NONCES + start

end OrePool
