import OrePool.Model.Types

/-!
# Rows

The records of `models.rs` that the server reads from its database and writes to it.
-/

namespace OrePool

/-! ## What is read -/

/-- A row of `pools`. -/
structure Pool where
  id : Int32
  proofPubkey : String
  authorityPubkey : String
  totalRewards : Int64
  claimedRewards : Int64
  deriving DecidableEq

/-- A row of `miners`. -/
structure Miner where
  id : Int64
  pubkey : String
  enabled : Bool
  status : String
  deriving DecidableEq

/-! ## What is written -/

/-- A row for `challenges`. -/
structure InsertChallenge where
  poolId : Int32
  challenge : List UInt8
  rewardsEarned : Option Int64
  deriving DecidableEq

/-- A row for `earnings`. -/
structure InsertEarning where
  minerId : Int64
  poolId : Int32
  challengeId : Int64
  amount : Int64
  deriving DecidableEq

/-- A row for `contributions`. -/
structure InsertContribution where
  minerId : Int64
  challengeId : Int64
  nonce : UInt64
  difficulty : Int16
  deriving DecidableEq

/-- A row for `rewards`. -/
structure InsertReward where
  minerId : Int64
  poolId : Int32
  deriving DecidableEq

/-- An update of `rewards`. -/
structure UpdateReward where
  minerId : Int64
  balance : Int64
  deriving DecidableEq

end OrePool
