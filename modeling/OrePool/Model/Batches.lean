import OrePool.Core.Transaction
import OrePool.Model.Database

/-!
# Batches, statement by statement

`add_new_earnings_batch`, `add_new_contributions_batch` and `update_rewards` as the loops they are:
one statement an entry, inside a transaction that can be interrupted anywhere.  That each comes to
the call of `OrePool.Model.Database`, which takes effect as a whole, is what the equations below
say.
-/

namespace OrePool

open Tables Transactions

/-! ## The batches -/

/-- What can go wrong around a batch: no connection, an interaction that is not run, an error of a
statement or of the commit. -/
inductive BatchFault
  | connection
  | interaction
  | inside (interruption : Interruption)
  deriving DecidableEq

/-- What the caller is told of a transaction.  An error inside is unwrapped, so the interaction
panics. -/
def report (ifZero : DatabaseError) :
    Database × Option ℕ → Database × Except DatabaseError Unit
  | (db, some rows) => (db, if rows = 0 then .error ifZero else .ok ())
  | (db, none) => (db, .error .interactionFailed)

/-- A prepared statement executed for each entry, in a transaction. -/
def Database.batch (db : Database) (fault : Option BatchFault) (ifZero : DatabaseError)
    (statements : List (Database → Option (Database × ℕ))) :
    Database × Except DatabaseError Unit :=
  match fault with
  | some .connection => (db, .error .failedToGetConnectionFromPool)
  | some .interaction => (db, .error .interactionFailed)
  | some (.inside interruption) => report ifZero (transaction (some interruption) statements db)
  | none => report ifZero (transaction none statements db)

/-- `INSERT INTO earnings`. -/
def insertEarning (earning : InsertEarning) (db : Database) : Option (Database × ℕ) :=
  some ({ db with earnings := db.earnings ++ [earning] }, 1)

/-- `INSERT INTO contributions`. -/
def insertContribution (c : InsertContribution) (db : Database) : Option (Database × ℕ) :=
  (nextRowid (db.contributions.map ContributionRow.id)).map fun id =>
    ({ db with contributions := db.contributions ++
        [⟨id, c.minerId, c.challengeId, c.nonce.toInt64, c.difficulty⟩] }, 1)

/-- `UPDATE rewards SET balance = balance + ? WHERE miner_id = ?`. -/
def updateReward (sql : Sqlite) (reward : UpdateReward) (db : Database) :
    Option (Database × ℕ) :=
  let changed := (select RewardRow.minerId reward.minerId db.rewards).length
  let rewards :=
    update RewardRow.minerId reward.minerId (RewardRow.credit sql reward.balance) db.rewards
  some ({ db with rewards := rewards }, changed)

def Database.earningsBatch (db : Database) (fault : Option BatchFault)
    (earnings : List InsertEarning) : Database × Except DatabaseError Unit :=
  db.batch fault .failedToInsertRow (earnings.map insertEarning)

def Database.contributionsBatch (db : Database) (fault : Option BatchFault)
    (contributions : List InsertContribution) : Database × Except DatabaseError Unit :=
  db.batch fault .failedToInsertRow (contributions.map insertContribution)

def Database.rewardsBatch (sql : Sqlite) (db : Database) (fault : Option BatchFault)
    (rewards : List UpdateReward) : Database × Except DatabaseError Unit :=
  db.batch fault .failedToUpdateRow (rewards.map (updateReward sql))

/-! ## As a whole -/

/-- The fault as it looks from outside a batch of `n` entries. -/
def BatchFault.outside (n : ℕ) : BatchFault → Option Fault
  | .connection => some .connection
  | .interaction => some .interaction
  | .inside interruption => if interruption.Hits n then some .query else none

/-- Interrupted or not, a batch takes effect as a whole. -/
theorem Database.batch_eq (db : Database) (fault : Option BatchFault) (ifZero : DatabaseError)
    (statements : List (Database → Option (Database × ℕ))) :
    db.batch fault ifZero statements =
      db.executeBatch (fault.bind (BatchFault.outside statements.length)) ifZero
        (runAll statements db) := by
  have hwhole : ∀ interruption, (∀ i ∈ interruption, ¬ i.Hits statements.length) →
      report ifZero (transaction interruption statements db) =
        db.executeBatch none ifZero (runAll statements db) := by
    intro interruption h
    rw [transaction_of_not_hits h]
    cases runAll statements db with
    | none => rfl
    | some r => rfl
  match fault with
  | none => exact hwhole none nofun
  | some .connection | some .interaction => rfl
  | some (.inside i) =>
      rw [Option.bind_some, BatchFault.outside]
      split
      · rename_i hhits
        rw [Database.batch, transaction_of_hits hhits]
        rfl
      · rename_i hhits
        refine hwhole (some i) ?_
        rintro _ ⟨⟩
        exact hhits

lemma runAll_insertEarning (db : Database) (earnings : List InsertEarning) :
    runAll (earnings.map insertEarning) db =
      some ({ db with earnings := db.earnings ++ earnings }, earnings.length) := by
  induction earnings generalizing db with
  | nil => rw [List.append_nil]; rfl
  | cons e es ih =>
      rw [List.map_cons, runAll, insertEarning, Option.bind_some, ih]
      simp [Nat.add_comm]

lemma runAll_insertContribution (db : Database) (contributions : List InsertContribution) :
    runAll (contributions.map insertContribution) db =
      (insertContributions contributions db.contributions).map fun rows =>
        ({ db with contributions := rows }, contributions.length) := by
  induction contributions generalizing db with
  | nil => rfl
  | cons c cs ih =>
      rw [List.map_cons, runAll, insertContribution, insertContributions]
      cases nextRowid (db.contributions.map ContributionRow.id) with
      | none => rfl
      | some id =>
          rw [Option.map_some, Option.bind_some, Option.bind_some, ih, Option.map_map]
          simp [Function.comp_def, Nat.add_comm]

lemma runAll_updateReward (sql : Sqlite) (db : Database) (rewards : List UpdateReward) :
    runAll (rewards.map (updateReward sql)) db =
      some ({ db with rewards := (creditAll sql rewards db.rewards).1 },
        (creditAll sql rewards db.rewards).2) := by
  induction rewards generalizing db with
  | nil => rfl
  | cons u us ih =>
      rw [List.map_cons, runAll, updateReward, Option.bind_some, ih]
      rfl

/-- `add_new_earnings_batch`. -/
theorem Database.earningsBatch_eq (db : Database) (fault : Option BatchFault)
    (earnings : List InsertEarning) :
    db.earningsBatch fault earnings =
      db.addNewEarningsBatch (fault.bind (BatchFault.outside earnings.length)) earnings := by
  rw [Database.earningsBatch, Database.batch_eq, runAll_insertEarning, List.length_map]
  rfl

/-- `add_new_contributions_batch`. -/
theorem Database.contributionsBatch_eq (db : Database) (fault : Option BatchFault)
    (contributions : List InsertContribution) :
    db.contributionsBatch fault contributions =
      db.addNewContributionsBatch (fault.bind (BatchFault.outside contributions.length))
        contributions := by
  rw [Database.contributionsBatch, Database.batch_eq, runAll_insertContribution, List.length_map]
  rfl

/-- `update_rewards`. -/
theorem Database.rewardsBatch_eq (sql : Sqlite) (db : Database) (fault : Option BatchFault)
    (rewards : List UpdateReward) :
    db.rewardsBatch sql fault rewards =
      db.updateRewards sql (fault.bind (BatchFault.outside rewards.length)) rewards := by
  rw [Database.rewardsBatch, Database.batch_eq, runAll_updateReward, List.length_map]
  rfl

end OrePool
