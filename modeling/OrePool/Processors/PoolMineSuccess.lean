import OrePool.Core.Traversal
import OrePool.Model.Database

/-!
# `pool_mine_success_processor`

What the processor makes of one `MessageInternalMineSuccess` with a SQLite database: for every
contribution an earnings row, a contributions row and an update of the miner's rewards.  The
three batches and the pool's total are written one after the other, each on its own.

The division of the reward is done in `u128`.  Such numbers are naturals here, with the
saturation and the panic of a division by zero spelled out.
-/

namespace OrePool

open Traversal

/-! ## The reward of a miner -/

/-- `u128::MAX`. -/
def U128_MAX : ℕ := 0xffffffffffffffffffffffffffffffff

/-- `i64 as u128`: the sign is extended. -/
def asU128 (x : Int64) : ℕ := (x.toInt % (U128_MAX + 1)).toNat

/-- `u128::saturating_mul`. -/
def saturatingMul (a b : ℕ) : ℕ := min (a * b) U128_MAX

/-- `u128::saturating_div`, `none` for its panic. -/
def saturatingDiv (a b : ℕ) : Option ℕ := if b = 0 then none else some (a / b)

/-- `hashpower_percent`, in millionths. -/
def hashpowerPercent (hashpower totalHashpower : UInt64) : Option ℕ :=
  saturatingDiv (saturatingMul hashpower.toNat 1000000) totalHashpower.toNat

/-- `earned_rewards` before its cast. -/
def earnedRewards (hashpower totalHashpower : UInt64) (rewards : Int64) : Option ℕ :=
  (hashpowerPercent hashpower totalHashpower).bind fun percent =>
    saturatingDiv (saturatingMul percent (asU128 rewards)) 1000000

/-! ## Rows -/

/-- What is written for one contribution. -/
structure MinerRows where
  earning : InsertEarning
  contribution : InsertContribution
  reward : UpdateReward
  deriving DecidableEq

/-- The miner ids in the rows. -/
def MinerRows.minerIds (r : MinerRows) : List Int64 :=
  [r.earning.minerId, r.contribution.minerId, r.reward.minerId]

/-- The rows for one contribution, `none` where the processor panics. -/
def MessageInternalMineSuccess.minerRows (msg : MessageInternalMineSuccess) (poolId : Int32)
    (contribution : InternalMessageContribution) : Option MinerRows :=
  (earnedRewards contribution.hashpower msg.totalHashpower msg.rewards).map fun earned =>
    let earnedRewards := Int64.ofNat earned
    { earning := ⟨contribution.minerId, poolId, msg.challengeId, earnedRewards⟩
      contribution := ⟨contribution.minerId, msg.challengeId, contribution.suppliedNonce,
        contribution.suppliedDiff.toUInt16.toInt16⟩
      reward := ⟨contribution.minerId, earnedRewards⟩ }

/-- The rows for all contributions, in the order of the map. -/
def MessageInternalMineSuccess.rows (msg : MessageInternalMineSuccess) (poolId : Int32) :
    Option (List MinerRows) :=
  msg.contributions.entries.mapM fun entry => msg.minerRows poolId entry.2

/-- The rows of a contribution name its miner and its nonce. -/
lemma MessageInternalMineSuccess.minerRows_ids {msg : MessageInternalMineSuccess} {poolId : Int32}
    {contribution : InternalMessageContribution} {r : MinerRows}
    (h : msg.minerRows poolId contribution = some r) :
    (∀ id ∈ r.minerIds, id = contribution.minerId) ∧
      r.contribution.nonce = contribution.suppliedNonce := by
  obtain ⟨earned, -, rfl⟩ := Option.map_eq_some_iff.mp h
  simp [MinerRows.minerIds]

/-- Every row written belongs to an entry of the message. -/
lemma MessageInternalMineSuccess.entry_of_rows {msg : MessageInternalMineSuccess} {poolId : Int32}
    {rows : List MinerRows} {r : MinerRows} (h : msg.rows poolId = some rows) (hr : r ∈ rows) :
    ∃ pubkey contribution, msg.contributions.lookup pubkey = some contribution ∧
      msg.minerRows poolId contribution = some r := by
  obtain ⟨⟨pubkey, contribution⟩, hmem, hrows⟩ := exists_of_forall₂_right (forall₂_of_mapM h) hr
  exact ⟨pubkey, contribution, AList.mem_lookup_iff.mpr hmem, hrows⟩

/-! ## The writes -/

/-- Where the processor stands with a message, between two calls. -/
inductive PaymentPc
  | receive
  | addEarnings (msg : MessageInternalMineSuccess) (rows : List MinerRows)
  | updateRewards (msg : MessageInternalMineSuccess) (rows : List MinerRows)
  | addContributions (msg : MessageInternalMineSuccess) (rows : List MinerRows)
  | updatePool (msg : MessageInternalMineSuccess)
  | getContributionId (msg : MessageInternalMineSuccess)
  | updateChallenge (msg : MessageInternalMineSuccess) (contributionId : Int64)
  | panicked
  deriving DecidableEq

/-- A message is received.  Batches without rows are not written, and without a database there is
nothing to write. -/
def PaymentPc.open (host : Host) (msg : MessageInternalMineSuccess) : PaymentPc :=
  if host.poweredByDbms = .sqlite then
    match msg.rows host.poolId with
    | none => .panicked
    | some [] => .updatePool msg
    | some (row :: rows) => .addEarnings msg (row :: rows)
  else
    .receive

/-- One call.  What the three batches report is only logged; the pool's total and the id of the
contribution are asked for until there is an answer. -/
def PaymentPc.step (host : Host) (db : Database) (fault : Option Fault) :
    PaymentPc → Option (PaymentPc × Database)
  | .receive | .panicked => none
  | .addEarnings msg rows =>
      some (.updateRewards msg rows,
        (db.addNewEarningsBatch fault (rows.map MinerRows.earning)).1)
  | .updateRewards msg rows =>
      some (.addContributions msg rows,
        (db.updateRewards host.sql fault (rows.map MinerRows.reward)).1)
  | .addContributions msg rows =>
      some (.updatePool msg,
        (db.addNewContributionsBatch fault (rows.map MinerRows.contribution)).1)
  | .updatePool msg =>
      let updated := db.updatePoolRewards host.sql fault host.wallet msg.rewards
      some (if updated.2.isOk then .getContributionId msg else .updatePool msg, updated.1)
  | .getContributionId msg =>
      match db.getContributionIdWithNonce fault msg.bestNonce with
      | .ok contributionId => some (.updateChallenge msg contributionId, db)
      | .error _ => some (.getContributionId msg, db)
  | .updateChallenge msg contributionId =>
      some (.receive,
        (db.updateChallengeRewards fault msg.challenge.toList contributionId msg.rewards).1)

end OrePool
