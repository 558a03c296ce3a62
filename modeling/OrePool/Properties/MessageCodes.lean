import OrePool.Core.Codes
import OrePool.Model.ServerMessages

/-!
# Messages are read back

A client is sent two kinds of binary messages, told apart by their first byte.  The rest is the
fields of the message one after another, each of a fixed width, without a separator or a name.

`UniquelyDecodable` says what a decoder makes of them: it tells the kinds apart and finds every
field.  There is such a decoder (`uniquelyDecodable`), since the fields of a message are a product
of codes.
-/

namespace OrePool

open Codes

/-! ## The property -/

/-- A message of the server, of either kind. -/
inductive ServerMessage
  | startMining (msg : ServerMessageStartMining)
  | poolSubmissionResult (msg : ServerMessagePoolSubmissionResult)
  deriving DecidableEq

/-- What goes over the websocket. -/
def ServerMessage.toMessageBinary : ServerMessage → List UInt8
  | .startMining msg => msg.toMessageBinary
  | .poolSubmissionResult msg => msg.toMessageBinary

/-- **Uniquely decodable.**  The decoder finds the kind and every field of what has been encoded,
and takes nothing else for a message.  The encodings have fixed lengths, those of different kinds
differ, and so do those of different messages of a kind. -/
structure UniquelyDecodable (decode : List UInt8 → Option ServerMessage) : Prop where
  startMining : ∀ msg : ServerMessageStartMining,
    decode msg.toMessageBinary = some (.startMining msg)
  poolSubmissionResult : ∀ msg : ServerMessagePoolSubmissionResult,
    decode msg.toMessageBinary = some (.poolSubmissionResult msg)
  encoded : ∀ d msg, decode d = some msg → d = msg.toMessageBinary
  startMining_length : ∀ msg : ServerMessageStartMining, msg.toMessageBinary.length = 57
  poolSubmissionResult_length : ∀ msg : ServerMessagePoolSubmissionResult,
    msg.toMessageBinary.length = 101
  kinds : ∀ (msg : ServerMessageStartMining) (msg' : ServerMessagePoolSubmissionResult),
    msg.toMessageBinary ≠ msg'.toMessageBinary
  startMining_injective : Function.Injective ServerMessageStartMining.toMessageBinary
  poolSubmissionResult_injective :
    Function.Injective ServerMessagePoolSubmissionResult.toMessageBinary

/-! ## Numbers -/

/-- The number that little-endian bytes stand for. -/
def ofLeBytes : List UInt8 → ℕ
  | [] => 0
  | b :: bytes => b.toNat + 256 * ofLeBytes bytes

@[simp] lemma length_leBytes (width n : ℕ) : (leBytes width n).length = width := by
  induction width generalizing n with
  | zero => rfl
  | succ width ih => rw [leBytes, List.length_cons, ih]

lemma ofLeBytes_lt (bytes : List UInt8) : ofLeBytes bytes < 256 ^ bytes.length := by
  induction bytes with
  | nil => exact Nat.one_pos
  | cons b bytes ih =>
      have hb := b.toNat_lt
      rw [ofLeBytes, List.length_cons, pow_succ]
      omega

lemma ofLeBytes_leBytes {width n : ℕ} (h : n < 256 ^ width) :
    ofLeBytes (leBytes width n) = n := by
  induction width generalizing n with
  | zero =>
      rw [pow_zero] at h
      exact (Nat.lt_one_iff.mp h).symm
  | succ width ih =>
      rw [pow_succ, mul_comm] at h
      rw [leBytes, ofLeBytes, ih (Nat.div_lt_of_lt_mul h), UInt8.toNat_ofNat']
      exact Nat.mod_add_div n 256

lemma leBytes_ofLeBytes (bytes : List UInt8) :
    leBytes bytes.length (ofLeBytes bytes) = bytes := by
  induction bytes with
  | nil => rfl
  | cons b bytes ih =>
      have hb := b.toNat_lt
      have hdiv : (b.toNat + 256 * ofLeBytes bytes) / 256 = ofLeBytes bytes := by omega
      have hmod : UInt8.ofNat (b.toNat + 256 * ofLeBytes bytes) = b := by
        rw [← UInt8.toNat_inj, UInt8.toNat_ofNat']
        omega
      rw [ofLeBytes, List.length_cons, leBytes, hdiv, hmod, ih]

/-- As many bytes as there are digits to base 256. -/
def bytesEquiv (width : ℕ) : Vector UInt8 width ≃ Fin (256 ^ width) where
  toFun v := ⟨ofLeBytes v.toList, by simpa using ofLeBytes_lt v.toList⟩
  invFun n := ⟨(leBytes width n).toArray, by simp⟩
  left_inv v := by
    refine Vector.toList_inj.mp ?_
    have h := leBytes_ofLeBytes v.toList
    rwa [v.length_toList] at h
  right_inv n := Fin.ext (ofLeBytes_leBytes n.isLt)

/-- A word of 32 bits. -/
def u32Code : Code UInt8 UInt32 :=
  ((Code.vector UInt8 4).transport (bytesEquiv 4)).transport
    { toFun := fun n => UInt32.ofNat n
      invFun := fun u => ⟨u.toNat, u.toNat_lt⟩
      left_inv := fun n => Fin.ext (UInt32.toNat_ofNat_of_lt' n.isLt)
      right_inv := fun _ => UInt32.ofNat_toNat }

/-- A word of 64 bits. -/
def u64Code : Code UInt8 UInt64 :=
  ((Code.vector UInt8 8).transport (bytesEquiv 8)).transport
    { toFun := fun n => UInt64.ofNat n
      invFun := fun u => ⟨u.toNat, u.toNat_lt⟩
      left_inv := fun n => Fin.ext (UInt64.toNat_ofNat_of_lt' n.isLt)
      right_inv := fun _ => UInt64.ofNat_toNat }

/-- A signed word, in two's complement. -/
def i64Code : Code UInt8 Int64 :=
  u64Code.transport
    { toFun := UInt64.toInt64
      invFun := Int64.toUInt64
      left_inv := fun u => UInt64.toUInt64_toInt64 u
      right_inv := fun i => Int64.toInt64_toUInt64 i }

/-! ## Messages -/

/-- The fields of a mission. -/
def startMiningCode : Code UInt8 ServerMessageStartMining :=
  ((Code.vector UInt8 32).prod <| i64Code.prod <| u64Code.prod u64Code).transport
    { toFun := fun (challenge, cutoff, nonceRangeStart, nonceRangeEnd) =>
        { challenge, cutoff, nonceRangeStart, nonceRangeEnd }
      invFun := fun msg => (msg.challenge, msg.cutoff, msg.nonceRangeStart, msg.nonceRangeEnd)
      left_inv := fun _ => rfl
      right_inv := fun _ => rfl }

/-- The fields of a result. -/
def poolSubmissionResultCode : Code UInt8 ServerMessagePoolSubmissionResult :=
  (u32Code.prod <| u64Code.prod <| u64Code.prod <| u64Code.prod <| u64Code.prod <| u32Code.prod <|
    (Code.vector UInt8 32).prod <| u64Code.prod <| u32Code.prod <| u64Code.prod u64Code).transport
    { toFun := fun (difficulty, totalBalance, totalRewards, topStake, multiplier, activeMiners,
          challenge, bestNonce, minerSuppliedDifficulty, minerEarnedRewards, minerPercentage) =>
        { difficulty, totalBalance, totalRewards, topStake, multiplier, activeMiners, challenge,
          bestNonce, minerSuppliedDifficulty, minerEarnedRewards, minerPercentage }
      invFun := fun msg => (msg.difficulty, msg.totalBalance, msg.totalRewards, msg.topStake,
        msg.multiplier, msg.activeMiners, msg.challenge, msg.bestNonce,
        msg.minerSuppliedDifficulty, msg.minerEarnedRewards, msg.minerPercentage)
      left_inv := fun _ => rfl
      right_inv := fun _ => rfl }

/-- A mission goes out as its fields behind a zero. -/
lemma startMining_eq (msg : ServerMessageStartMining) :
    msg.toMessageBinary = 0 :: startMiningCode.write msg := by
  simp only [ServerMessageStartMining.toMessageBinary, List.flatten_cons, List.flatten_nil,
    List.append_nil]
  rfl

/-- A result goes out as its fields behind a one. -/
lemma poolSubmissionResult_eq (msg : ServerMessagePoolSubmissionResult) :
    msg.toMessageBinary = 1 :: poolSubmissionResultCode.write msg := by
  simp only [ServerMessagePoolSubmissionResult.toMessageBinary, List.flatten_cons,
    List.flatten_nil, List.append_nil]
  rfl

/-- The decoder. -/
def ServerMessage.decode : List UInt8 → Option ServerMessage
  | 0 :: fields => (startMiningCode.readAll fields).map .startMining
  | 1 :: fields => (poolSubmissionResultCode.readAll fields).map .poolSubmissionResult
  | _ => none

/-- **The decoder is exact.** -/
theorem ServerMessage.decode_eq_some {d : List UInt8} {msg : ServerMessage} :
    ServerMessage.decode d = some msg ↔ d = msg.toMessageBinary := by
  constructor
  · intro h
    unfold ServerMessage.decode at h
    split at h
    · obtain ⟨m, hread, rfl⟩ := Option.map_eq_some_iff.mp h
      rw [startMiningCode.readAll_eq_some.mp hread]
      exact (startMining_eq m).symm
    · obtain ⟨m, hread, rfl⟩ := Option.map_eq_some_iff.mp h
      rw [poolSubmissionResultCode.readAll_eq_some.mp hread]
      exact (poolSubmissionResult_eq m).symm
    · cases h
  · rintro rfl
    cases msg with
    | startMining m =>
        have hread := startMiningCode.readAll_eq_some.mpr (rfl : startMiningCode.write m = _)
        rw [ServerMessage.toMessageBinary, startMining_eq, ServerMessage.decode, hread]
        rfl
    | poolSubmissionResult m =>
        have hread := poolSubmissionResultCode.readAll_eq_some.mpr
          (rfl : poolSubmissionResultCode.write m = _)
        rw [ServerMessage.toMessageBinary, poolSubmissionResult_eq, ServerMessage.decode, hread]
        rfl

/-- **Uniquely decodable.**  One decoder reads back every message of either kind. -/
theorem uniquelyDecodable : UniquelyDecodable ServerMessage.decode where
  startMining msg := ServerMessage.decode_eq_some.mpr rfl
  poolSubmissionResult msg := ServerMessage.decode_eq_some.mpr rfl
  encoded d msg := ServerMessage.decode_eq_some.mp
  startMining_length msg := by
    rw [startMining_eq, List.length_cons, startMiningCode.length_write]
    rfl
  poolSubmissionResult_length msg := by
    rw [poolSubmissionResult_eq, List.length_cons, poolSubmissionResultCode.length_write]
    rfl
  kinds msg msg' := by
    rw [startMining_eq, poolSubmissionResult_eq]
    intro h
    cases (List.cons.inj h).1
  startMining_injective := by
    intro msg msg' h
    rw [startMining_eq, startMining_eq] at h
    exact startMiningCode.write_injective (List.cons.inj h).2
  poolSubmissionResult_injective := by
    intro msg msg' h
    rw [poolSubmissionResult_eq, poolSubmissionResult_eq] at h
    exact poolSubmissionResultCode.write_injective (List.cons.inj h).2

end OrePool
