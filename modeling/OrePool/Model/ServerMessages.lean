import OrePool.Model.Types

/-!
# Messages of the server

What the server sends to its clients, `message.rs`: a mission, and what came of a round.  An `f64`
goes out as its 64 bits, and the message keeps it that way.
-/

namespace OrePool

/-- `to_le_bytes`, of an integer of `width` bytes. -/
def leBytes : ℕ → ℕ → List UInt8
  | 0, _ => []
  | width + 1, n => UInt8.ofNat n :: leBytes width (n / 256)

/-- `to_message_binary`. -/
def ServerMessageStartMining.toMessageBinary (msg : ServerMessageStartMining) : List UInt8 :=
  0 :: List.flatten
    [msg.challenge.toList,
      leBytes 8 msg.cutoff.toUInt64.toNat,
      leBytes 8 msg.nonceRangeStart.toNat,
      leBytes 8 msg.nonceRangeEnd.toNat]

/-- The result of a submission, as a client of version 1 is told. -/
structure ServerMessagePoolSubmissionResult where
  difficulty : UInt32
  totalBalance : UInt64
  totalRewards : UInt64
  topStake : UInt64
  multiplier : UInt64
  activeMiners : UInt32
  challenge : Challenge
  bestNonce : UInt64
  minerSuppliedDifficulty : UInt32
  minerEarnedRewards : UInt64
  minerPercentage : UInt64
  deriving DecidableEq

/-- `to_message_binary`. -/
def ServerMessagePoolSubmissionResult.toMessageBinary (msg : ServerMessagePoolSubmissionResult) :
    List UInt8 :=
  1 :: List.flatten
    [leBytes 4 msg.difficulty.toNat,
      leBytes 8 msg.totalBalance.toNat,
      leBytes 8 msg.totalRewards.toNat,
      leBytes 8 msg.topStake.toNat,
      leBytes 8 msg.multiplier.toNat,
      leBytes 4 msg.activeMiners.toNat,
      msg.challenge.toList,
      leBytes 8 msg.bestNonce.toNat,
      leBytes 4 msg.minerSuppliedDifficulty.toNat,
      leBytes 8 msg.minerEarnedRewards.toNat,
      leBytes 8 msg.minerPercentage.toNat]

end OrePool
