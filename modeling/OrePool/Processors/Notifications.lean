import OrePool.Core.Binary64
import OrePool.Model.ServerMessages
import OrePool.Processors.PoolMineSuccess

/-!
# What the miners are told

For one `MessageInternalMineSuccess`, `pool_mine_success_processor` tells every connected miner with
a contribution what the pool and the miner have earned: a client of version 0 by a text, one of
version 1 by a binary message.

With a SQLite database it goes through the contributions, and through all connections for each of
them.  Without one it goes through the connections and looks up the contribution of each.  The
arithmetic is written twice, once with a cast to `i64` and once to `u64`.
-/

namespace OrePool

open Binary64

/-- What comes from outside the repository: the number of grains in an ORE as a float, and the
formatting of a float with a number of decimals. -/
structure Display where
  decimals : Float
  fixed : ℕ → Float → String

/-- The fields of a `MessageInternalMineSuccess` that are floats. -/
structure MineSuccessFloats where
  totalBalance : Float
  multiplier : Float

/-- A websocket message on its way out. -/
inductive Outgoing
  | text (message : String)
  | binary (data : List UInt8)
  deriving DecidableEq

/-- A message to the client at an address, with the integer amount it was made from. -/
structure Notification where
  addr : SocketAddr
  earnedRewards : ℤ
  message : Outgoing
  deriving DecidableEq

section Branches

variable (display : Display) (floats : MineSuccessFloats)
  (sockets : HashMap SocketAddr ClientConnection) (msg : MessageInternalMineSuccess)

/-- `top_stake`. -/
def MessageInternalMineSuccess.topStake : Float :=
  match msg.oreConfig with
  | some config => config.topBalance.toFloat / display.decimals
  | none => 1.0

/-- `pool_rewards_dec`. -/
def MessageInternalMineSuccess.poolRewardsDec : Float := ofInt64 msg.rewards / display.decimals

/-- `percentage`, zero where there is nothing to divide by. -/
def percentage (earnedRewardsDec poolRewardsDec : Float) : Float :=
  if poolRewardsDec != 0.0 then earnedRewardsDec / poolRewardsDec * 100.0 else 0.0

/-- The text for a client of version 0. -/
def MessageInternalMineSuccess.text (suppliedDiff : UInt32) (earnedRewardsDec : Float) : String :=
  let poolRewardsDec := msg.poolRewardsDec display
  "Pool Submitted Difficulty: " ++ toString msg.difficulty ++
  "\nPool Earned:  " ++ display.fixed 11 poolRewardsDec ++ " ORE" ++
  "\nPool Balance: " ++ display.fixed 11 floats.totalBalance ++ " ORE" ++
  "\nTop Stake:    " ++ display.fixed 11 (msg.topStake display) ++ " ORE" ++
  "\nPool Multiplier: " ++ display.fixed 2 floats.multiplier ++ "x" ++
  "\n----------------------" ++
  "\nActive Miners: " ++ toString sockets.entries.length ++
  "\n----------------------" ++
  "\nMiner Submitted Difficulty: " ++ toString suppliedDiff ++
  "\nMiner Earned: " ++ display.fixed 11 earnedRewardsDec ++ " ORE\n" ++
  display.fixed 2 (percentage earnedRewardsDec poolRewardsDec) ++ "% of total pool reward"

/-- The message for a client of version 1. -/
def MessageInternalMineSuccess.result (suppliedDiff : UInt32) (earnedRewardsDec : Float) :
    ServerMessagePoolSubmissionResult where
  difficulty := msg.difficulty
  totalBalance := floats.totalBalance.toBits
  totalRewards := (msg.poolRewardsDec display).toBits
  topStake := (msg.topStake display).toBits
  multiplier := floats.multiplier.toBits
  activeMiners := sockets.entries.length.toUInt32
  challenge := msg.challenge
  bestNonce := msg.bestNonce
  minerSuppliedDifficulty := suppliedDiff
  minerEarnedRewards := earnedRewardsDec.toBits
  minerPercentage := (percentage earnedRewardsDec (msg.poolRewardsDec display)).toBits

/-- What a client is sent, by its version. -/
def MessageInternalMineSuccess.outgoing (suppliedDiff : UInt32) (earnedRewardsDec : Float) :
    ClientVersion → Outgoing
  | .V0 => .text (msg.text display floats sockets suppliedDiff earnedRewardsDec)
  | .V1 => .binary (msg.result display floats sockets suppliedDiff earnedRewardsDec).toMessageBinary

/-- The branch with a SQLite database, `none` where it panics. -/
def MessageInternalMineSuccess.notifySqlite : Option (List Notification) :=
  (msg.contributions.entries.mapM fun entry =>
    (earnedRewards entry.2.hashpower msg.totalHashpower msg.rewards).map fun earned =>
      let earnedRewards := Int64.ofNat earned
      let earnedRewardsDec := ofInt64 earnedRewards / display.decimals
      sockets.entries.filterMap fun socket =>
        if socket.2.pubkey = entry.1 then
          some (Notification.mk socket.1 earnedRewards.toInt
            (msg.outgoing display floats sockets entry.2.suppliedDiff earnedRewardsDec
              socket.2.clientVersion))
        else
          none).map List.flatten

/-- The body of the loop of the other branch: the notification for a connection, if there is one. -/
def MessageInternalMineSuccess.notifyConnection (addr : SocketAddr) (conn : ClientConnection) :
    Option (Option Notification) :=
  match msg.contributions.lookup conn.pubkey with
  | some contribution =>
      (earnedRewards contribution.hashpower msg.totalHashpower msg.rewards).map fun earned =>
        let earnedRewards := UInt64.ofNat earned
        let earnedRewardsDec := earnedRewards.toFloat / display.decimals
        some ⟨addr, earnedRewards.toNat,
          msg.outgoing display floats sockets contribution.suppliedDiff earnedRewardsDec
            conn.clientVersion⟩
  | none => some none

/-- The branch without a SQLite database, `none` where it panics. -/
def MessageInternalMineSuccess.notifyUnavailable : Option (List Notification) :=
  (sockets.entries.mapM fun socket =>
    msg.notifyConnection display floats sockets socket.1 socket.2).map List.reduceOption

end Branches

end OrePool
