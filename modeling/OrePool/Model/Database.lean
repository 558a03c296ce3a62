import OrePool.Core.Table
import OrePool.Model.Models

/-!
# The database

The SQLite side of `database.rs` over the tables of `init.sql`: the calls made by the handshakes
and by `pool_mine_success_processor`.  A statement takes effect as a whole or not at all, and so
does a batch, which runs in a transaction.

What can go wrong around a statement is a `Fault` chosen from outside; what the statement itself
reports, a refused row or an unexpected number of rows, follows from the tables.

`id`s are kept where something reads them.  SQLite gives a new row the largest `id` plus one and
looks for a free one when there is no such integer; here the insertion then fails.
-/

namespace OrePool

open Tables

/-! ## Numbers in columns -/

/-- What fits into an `i64`. -/
def Fits (x : ℤ) : Prop := Int64.minValue.toInt ≤ x ∧ x ≤ Int64.maxValue.toInt

instance (x : ℤ) : Decidable (Fits x) := inferInstanceAs (Decidable (_ ∧ _))

/-- A `BIGINT` cell: an integer, or a float once a sum has not fitted. -/
inductive SqlNumber
  | int (n : Int64)
  | real (bits : UInt64)
  deriving DecidableEq

/-- SQLite's own arithmetic: a sum with a float in it, or one that does not fit an integer, as the
column then stores it. -/
structure Sqlite where
  realSum : SqlNumber → Int64 → SqlNumber

/-- `column + ?`. -/
def SqlNumber.add (sql : Sqlite) : SqlNumber → Int64 → SqlNumber
  | .int n, m => if Fits (n.toInt + m.toInt) then .int (n + m) else sql.realSum (.int n) m
  | .real bits, m => sql.realSum (.real bits) m

/-! ## Tables -/

/-- `pools`, with a unique index on `proof_pubkey`. -/
structure PoolRow where
  id : Int64
  proofPubkey : String
  authorityPubkey : String
  totalRewards : SqlNumber
  claimedRewards : Int64
  deriving DecidableEq

/-- `rewards`. -/
structure RewardRow where
  minerId : Int64
  poolId : Int32
  balance : SqlNumber
  deriving DecidableEq

/-- `contributions`. -/
structure ContributionRow where
  id : Int64
  minerId : Int64
  challengeId : Int64
  nonce : Int64
  difficulty : Int16
  deriving DecidableEq

/-- `challenges`. -/
structure ChallengeRow where
  poolId : Int32
  contributionId : Option Int64
  challenge : List UInt8
  rewardsEarned : Option Int64
  deriving DecidableEq

/-- The tables.  `miners` has a unique index on `pubkey`. -/
structure Database where
  pools : List PoolRow
  miners : List Miner
  rewards : List RewardRow
  earnings : List InsertEarning
  contributions : List ContributionRow
  challenges : List ChallengeRow
  deriving DecidableEq

/-- What `init.sql` sets up. -/
def Database.init : Database := ⟨[], [], [], [], [], []⟩

/-- The `id` of the next row. -/
def nextRowid (ids : List Int64) : Option Int64 :=
  let id := nextId (ids.map Int64.toInt)
  if id ≤ Int64.maxValue.toInt then some (Int64.ofInt id) else none

/-- A row as `models::Pool`, `none` where a column does not convert. -/
def PoolRow.read (row : PoolRow) : Option Pool :=
  match row.totalRewards with
  | .int total =>
      if row.id.toInt32.toInt64 = row.id then
        some ⟨row.id.toInt32, row.proofPubkey, row.authorityPubkey, total, row.claimedRewards⟩
      else
        none
  | .real _ => none

/-! ## Statements -/

inductive DatabaseError
  | failedToGetConnectionFromPool
  | failedToUpdateRow
  | failedToInsertRow
  | interactionFailed
  | queryFailed
  deriving DecidableEq

/-- What can go wrong from outside: no connection, an interaction that fails, an error of SQLite's
while it runs the statement.  None of them leaves a change behind. -/
inductive Fault
  | connection
  | interaction
  | query
  deriving DecidableEq

/-- `query_row_and_then`: no row is an error like any other. -/
def queryRow {α : Type} (fault : Option Fault) (row : Option α) : Except DatabaseError α :=
  match fault, row with
  | some .connection, _ => .error .failedToGetConnectionFromPool
  | some .interaction, _ => .error .interactionFailed
  | some .query, _ | none, none => .error .queryFailed
  | none, some a => .ok a

/-- `execute` of a statement that is to change one row.  The number of rows is looked at when they
have been changed. -/
def Database.execute (db : Database) (fault : Option Fault) (unlessOne : DatabaseError)
    (result : Option (Database × ℕ)) : Database × Except DatabaseError Unit :=
  match fault, result with
  | some .connection, _ => (db, .error .failedToGetConnectionFromPool)
  | some .interaction, _ => (db, .error .interactionFailed)
  | some .query, _ | none, none => (db, .error .queryFailed)
  | none, some (db', n) => (db', if n ≠ 1 then .error unlessOne else .ok ())

/-- A batch in a transaction.  An error inside is unwrapped: the interaction panics and the
transaction is rolled back. -/
def Database.executeBatch (db : Database) (fault : Option Fault) (ifZero : DatabaseError)
    (result : Option (Database × ℕ)) : Database × Except DatabaseError Unit :=
  match fault, result with
  | some .connection, _ => (db, .error .failedToGetConnectionFromPool)
  | some .interaction, _ | some .query, _ | none, none => (db, .error .interactionFailed)
  | none, some (db', n) => (db', if n = 0 then .error ifZero else .ok ())

/-! ## Pools -/

def Database.getPoolByAuthorityPubkey (db : Database) (fault : Option Fault)
    (poolPubkey : String) : Except DatabaseError Pool :=
  queryRow fault ((select PoolRow.authorityPubkey poolPubkey db.pools).head?.bind PoolRow.read)

def Database.addNewPool (db : Database) (fault : Option Fault)
    (authorityPubkey proofPubkey : String) : Database × Except DatabaseError Unit :=
  db.execute fault .failedToInsertRow <|
    (nextRowid (db.pools.map PoolRow.id)).bind fun id =>
      (insertUnique PoolRow.proofPubkey ⟨id, proofPubkey, authorityPubkey, .int 0, 0⟩ db.pools).map
        fun pools => ({ db with pools := pools }, 1)

/-- `total_rewards = total_rewards + ?`. -/
def PoolRow.earn (sql : Sqlite) (earnedRewards : Int64) (row : PoolRow) : PoolRow :=
  { row with totalRewards := row.totalRewards.add sql earnedRewards }

def Database.updatePoolRewards (sql : Sqlite) (db : Database) (fault : Option Fault)
    (poolAuthorityPubkey : String) (earnedRewards : Int64) : Database × Except DatabaseError Unit :=
  let changed := (select PoolRow.authorityPubkey poolAuthorityPubkey db.pools).length
  let pools :=
    update PoolRow.authorityPubkey poolAuthorityPubkey (PoolRow.earn sql earnedRewards) db.pools
  db.execute fault .failedToUpdateRow (some ({ db with pools := pools }, changed))

/-! ## Miners and their rewards -/

def Database.addNewMiner (db : Database) (fault : Option Fault) (minerPubkey : String)
    (isEnabled : Bool) (status : String) : Database × Except DatabaseError Unit :=
  db.execute fault .failedToInsertRow <|
    (nextRowid (db.miners.map Miner.id)).bind fun id =>
      (insertUnique Miner.pubkey ⟨id, minerPubkey, isEnabled, status⟩ db.miners).map
        fun miners => ({ db with miners := miners }, 1)

def Database.getMinerByPubkeyStr (db : Database) (fault : Option Fault) (minerPubkey : String) :
    Except DatabaseError Miner :=
  queryRow fault (select Miner.pubkey minerPubkey db.miners).head?

def Database.addNewReward (db : Database) (fault : Option Fault) (reward : InsertReward) :
    Database × Except DatabaseError Unit :=
  let rewards := db.rewards ++ [⟨reward.minerId, reward.poolId, .int 0⟩]
  db.execute fault .failedToInsertRow (some ({ db with rewards := rewards }, 1))

/-- `balance = balance + ?`. -/
def RewardRow.credit (sql : Sqlite) (amount : Int64) (row : RewardRow) : RewardRow :=
  { row with balance := row.balance.add sql amount }

/-- One update after the other, with the number of rows changed. -/
def creditAll (sql : Sqlite) : List UpdateReward → List RewardRow → List RewardRow × ℕ
  | [], rows => (rows, 0)
  | reward :: rewards, rows =>
      let changed := (select RewardRow.minerId reward.minerId rows).length
      let credited := creditAll sql rewards
        (update RewardRow.minerId reward.minerId (RewardRow.credit sql reward.balance) rows)
      (credited.1, changed + credited.2)

def Database.updateRewards (sql : Sqlite) (db : Database) (fault : Option Fault)
    (rewards : List UpdateReward) : Database × Except DatabaseError Unit :=
  let credited := creditAll sql rewards db.rewards
  db.executeBatch fault .failedToUpdateRow
    (some ({ db with rewards := credited.1 }, credited.2))

/-! ## Earnings, contributions and challenges -/

def Database.addNewEarningsBatch (db : Database) (fault : Option Fault)
    (earnings : List InsertEarning) : Database × Except DatabaseError Unit :=
  db.executeBatch fault .failedToInsertRow
    (some ({ db with earnings := db.earnings ++ earnings }, earnings.length))

/-- One insertion after the other, `none` when the integers run out. -/
def insertContributions : List InsertContribution → List ContributionRow →
    Option (List ContributionRow)
  | [], rows => some rows
  | c :: cs, rows =>
      (nextRowid (rows.map ContributionRow.id)).bind fun id =>
        insertContributions cs
          (rows ++ [⟨id, c.minerId, c.challengeId, c.nonce.toInt64, c.difficulty⟩])

def Database.addNewContributionsBatch (db : Database) (fault : Option Fault)
    (contributions : List InsertContribution) : Database × Except DatabaseError Unit :=
  db.executeBatch fault .failedToInsertRow <|
    (insertContributions contributions db.contributions).map fun rows =>
      ({ db with contributions := rows }, contributions.length)

def Database.getContributionIdWithNonce (db : Database) (fault : Option Fault) (nonce : UInt64) :
    Except DatabaseError Int64 :=
  queryRow fault
    ((select ContributionRow.nonce nonce.toInt64 db.contributions).getLast?.map ContributionRow.id)

def Database.addNewChallenge (db : Database) (fault : Option Fault) (challenge : InsertChallenge) :
    Database × Except DatabaseError Unit :=
  let challenges := db.challenges ++
    [⟨challenge.poolId, none, challenge.challenge, challenge.rewardsEarned⟩]
  db.execute fault .failedToInsertRow (some ({ db with challenges := challenges }, 1))

def Database.updateChallengeRewards (db : Database) (fault : Option Fault)
    (challenge : List UInt8) (contributionId rewards : Int64) :
    Database × Except DatabaseError Unit :=
  let changed := (select ChallengeRow.challenge challenge db.challenges).length
  let challenges := update ChallengeRow.challenge challenge
    (fun row => { row with rewardsEarned := some rewards, contributionId := some contributionId })
    db.challenges
  db.execute fault .failedToUpdateRow (some ({ db with challenges := challenges }, changed))

/-! ## Writes -/

/-- A call that writes. -/
inductive Write
  | addNewPool (authorityPubkey proofPubkey : String)
  | updatePoolRewards (poolAuthorityPubkey : String) (earnedRewards : Int64)
  | addNewMiner (minerPubkey : String) (isEnabled : Bool) (status : String)
  | addNewReward (reward : InsertReward)
  | updateRewards (rewards : List UpdateReward)
  | addNewEarningsBatch (earnings : List InsertEarning)
  | addNewContributionsBatch (contributions : List InsertContribution)
  | addNewChallenge (challenge : InsertChallenge)
  | updateChallengeRewards (challenge : List UInt8) (contributionId rewards : Int64)
  deriving DecidableEq

/-- The tables after a call, and what the caller is told. -/
def Database.write (sql : Sqlite) (db : Database) (fault : Option Fault) :
    Write → Database × Except DatabaseError Unit
  | .addNewPool authority proof => db.addNewPool fault authority proof
  | .updatePoolRewards authority earned => db.updatePoolRewards sql fault authority earned
  | .addNewMiner pubkey enabled status => db.addNewMiner fault pubkey enabled status
  | .addNewReward reward => db.addNewReward fault reward
  | .updateRewards rewards => db.updateRewards sql fault rewards
  | .addNewEarningsBatch earnings => db.addNewEarningsBatch fault earnings
  | .addNewContributionsBatch contributions => db.addNewContributionsBatch fault contributions
  | .addNewChallenge challenge => db.addNewChallenge fault challenge
  | .updateChallengeRewards challenge id rewards =>
      db.updateChallengeRewards fault challenge id rewards

/-! ## Settings -/

/-- Public keys as texts, `Pubkey::from_str` and `Pubkey::to_string`.  A key is read back from the
text it is written as. -/
structure Keys where
  fromStr : String → Option Pubkey
  toString : Pubkey → String
  fromStr_toString : ∀ key, fromStr (toString key) = some key

/-- What is fixed around the database while the server runs: the settings and the wallet, with the
functions of the crates on keys and signatures. -/
structure Host where
  poweredByDbms : PoweredByDbms
  sql : Sqlite
  keys : Keys
  signatures : Signatures
  proofPubkey : Pubkey → Pubkey
  walletPubkey : Pubkey
  poolId : Int32

/-- The text of the wallet's key. -/
def Host.wallet (host : Host) : String := host.keys.toString host.walletPubkey

/-- The text of its proof account's key. -/
def Host.walletProof (host : Host) : String :=
  host.keys.toString (host.proofPubkey host.walletPubkey)

lemma Keys.toString_injective (keys : Keys) : Function.Injective keys.toString := by
  intro a b h
  have hb := keys.fromStr_toString b
  rw [← h, keys.fromStr_toString] at hb
  exact Option.some.inj hb

end OrePool
