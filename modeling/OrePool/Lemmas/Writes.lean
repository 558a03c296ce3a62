import OrePool.Ledger
import OrePool.Lemmas.Cutoffs

/-!
# What a call can do

One lemma a call: it leaves the tables alone and reports an error, or it has done its work.
`Write.Move` has what the work is, for every call at once, and `Database.write_induction` proves
what holds after a call from it.
-/

namespace OrePool

open Interleaving Tables

/-! ## Statements -/

section Statements

variable (db : Database) (fault : Option Fault) (e : DatabaseError)
  (result : Option (Database × ℕ))

lemma Database.execute_cases :
    ((db.execute fault e result).1 = db ∧ (db.execute fault e result).2.isOk = false) ∨
      ∃ db' n, fault = none ∧ result = some (db', n) ∧
        db.execute fault e result = (db', if n ≠ 1 then .error e else .ok ()) := by
  unfold Database.execute
  split
  · exact .inl ⟨rfl, rfl⟩
  · exact .inl ⟨rfl, rfl⟩
  · exact .inl ⟨rfl, rfl⟩
  · exact .inl ⟨rfl, rfl⟩
  · exact .inr ⟨_, _, rfl, rfl, rfl⟩

lemma Database.executeBatch_cases :
    ((db.executeBatch fault e result).1 = db ∧ (db.executeBatch fault e result).2.isOk = false) ∨
      ∃ db' n, fault = none ∧ result = some (db', n) ∧
        db.executeBatch fault e result = (db', if n = 0 then .error e else .ok ()) := by
  unfold Database.executeBatch
  split
  · exact .inl ⟨rfl, rfl⟩
  · exact .inl ⟨rfl, rfl⟩
  · exact .inl ⟨rfl, rfl⟩
  · exact .inl ⟨rfl, rfl⟩
  · exact .inr ⟨_, _, rfl, rfl, rfl⟩

end Statements

lemma nextRowid_not_mem {ids : List Int64} {id : Int64} (h : nextRowid ids = some id) :
    id ∉ ids := by
  simp only [nextRowid] at h
  split at h
  · rename_i hmax
    obtain rfl := Option.some.inj h
    have hpos := nextId_pos (ids.map Int64.toInt)
    have hid : (Int64.ofInt (nextId (ids.map Int64.toInt))).toInt =
        nextId (ids.map Int64.toInt) := by
      rw [Int64.toInt_ofInt]
      exact bmod_of_fits (by rw [Int64.toInt_minValue]; omega) hmax
    intro hmem
    have hlt := lt_nextId (List.mem_map_of_mem (f := Int64.toInt) hmem)
    omega
  · cases h

/-! ## Calls -/

section Calls

variable (sql : Sqlite) (db : Database) (fault : Option Fault)

lemma Database.addNewPool_cases (authorityPubkey proofPubkey : String) :
    ((db.addNewPool fault authorityPubkey proofPubkey).1 = db ∧
        (db.addNewPool fault authorityPubkey proofPubkey).2.isOk = false) ∨
      ∃ id, id ∉ db.pools.map PoolRow.id ∧ proofPubkey ∉ db.pools.map PoolRow.proofPubkey ∧
        db.addNewPool fault authorityPubkey proofPubkey =
          ({ db with pools := db.pools ++ [⟨id, proofPubkey, authorityPubkey, .int 0, 0⟩] },
            .ok ()) := by
  rw [Database.addNewPool]
  refine (Database.execute_cases _ _ _ _).imp_right ?_
  rintro ⟨db', n, -, hresult, heq⟩
  obtain ⟨id, hid, hresult⟩ := Option.bind_eq_some_iff.mp hresult
  obtain ⟨pools, hpools, hresult⟩ := Option.map_eq_some_iff.mp hresult
  obtain ⟨hfree, rfl⟩ := insertUnique_eq_some hpools
  obtain ⟨rfl, rfl⟩ := Prod.mk.inj hresult
  exact ⟨id, nextRowid_not_mem hid, hfree, heq⟩

lemma Database.addNewMiner_cases (minerPubkey : String) (isEnabled : Bool) (status : String) :
    ((db.addNewMiner fault minerPubkey isEnabled status).1 = db ∧
        (db.addNewMiner fault minerPubkey isEnabled status).2.isOk = false) ∨
      ∃ id, id ∉ db.miners.map Miner.id ∧ minerPubkey ∉ db.miners.map Miner.pubkey ∧
        db.addNewMiner fault minerPubkey isEnabled status =
          ({ db with miners := db.miners ++ [⟨id, minerPubkey, isEnabled, status⟩] }, .ok ()) := by
  rw [Database.addNewMiner]
  refine (Database.execute_cases _ _ _ _).imp_right ?_
  rintro ⟨db', n, -, hresult, heq⟩
  obtain ⟨id, hid, hresult⟩ := Option.bind_eq_some_iff.mp hresult
  obtain ⟨miners, hminers, hresult⟩ := Option.map_eq_some_iff.mp hresult
  obtain ⟨hfree, rfl⟩ := insertUnique_eq_some hminers
  obtain ⟨rfl, rfl⟩ := Prod.mk.inj hresult
  exact ⟨id, nextRowid_not_mem hid, hfree, heq⟩

lemma Database.addNewReward_cases (reward : InsertReward) :
    ((db.addNewReward fault reward).1 = db ∧ (db.addNewReward fault reward).2.isOk = false) ∨
      db.addNewReward fault reward =
        ({ db with rewards := db.rewards ++ [⟨reward.minerId, reward.poolId, .int 0⟩] },
          .ok ()) := by
  rw [Database.addNewReward]
  refine (Database.execute_cases _ _ _ _).imp_right ?_
  rintro ⟨db', n, -, hresult, heq⟩
  obtain ⟨rfl, rfl⟩ := Prod.mk.inj (Option.some.inj hresult)
  exact heq

/-- What a row of `contributions` says of the contribution it was inserted for. -/
structure ContributionRow.Records (contribution : InsertContribution) (row : ContributionRow) :
    Prop where
  minerId : row.minerId = contribution.minerId
  challengeId : row.challengeId = contribution.challengeId
  nonce : row.nonce = contribution.nonce.toInt64
  difficulty : row.difficulty = contribution.difficulty

/-- The rows inserted stand behind the others, one for each contribution and in their order. -/
lemma insertContributions_eq_some {contributions : List InsertContribution}
    {rows rows' : List ContributionRow} (h : insertContributions contributions rows = some rows') :
    ∃ new, rows' = rows ++ new ∧ List.Forall₂ ContributionRow.Records contributions new := by
  induction contributions generalizing rows with
  | nil => exact ⟨[], by simpa using (Option.some.inj h).symm, .nil⟩
  | cons c cs ih =>
      obtain ⟨id, -, h⟩ := Option.bind_eq_some_iff.mp h
      obtain ⟨new, rfl, hnew⟩ := ih h
      exact ⟨_ :: new, List.append_assoc .., .cons ⟨rfl, rfl, rfl, rfl⟩ hnew⟩

/-- The ids of the rows stay apart. -/
lemma insertContributions_unique {contributions : List InsertContribution}
    {rows rows' : List ContributionRow} (hi : Unique ContributionRow.id rows)
    (h : insertContributions contributions rows = some rows') :
    Unique ContributionRow.id rows' := by
  induction contributions generalizing rows with
  | nil => exact Option.some.inj h ▸ hi
  | cons c cs ih =>
      obtain ⟨id, hid, h⟩ := Option.bind_eq_some_iff.mp h
      exact ih (hi.append (nextRowid_not_mem hid)) h

lemma Database.addNewContributionsBatch_cases (contributions : List InsertContribution) :
    ((db.addNewContributionsBatch fault contributions).1 = db ∧
        (db.addNewContributionsBatch fault contributions).2.isOk = false) ∨
      ∃ new, List.Forall₂ ContributionRow.Records contributions new ∧
        db.addNewContributionsBatch fault contributions =
          ({ db with contributions := db.contributions ++ new },
            if contributions.length = 0 then .error .failedToInsertRow else .ok ()) := by
  rw [Database.addNewContributionsBatch]
  refine (Database.executeBatch_cases _ _ _ _).imp_right ?_
  rintro ⟨db', n, -, hresult, heq⟩
  obtain ⟨rows, hrows, hresult⟩ := Option.map_eq_some_iff.mp hresult
  obtain ⟨new, rfl, hnew⟩ := insertContributions_eq_some hrows
  obtain ⟨rfl, rfl⟩ := Prod.mk.inj hresult
  exact ⟨new, hnew, heq⟩

lemma Database.addNewContributionsBatch_unique {contributions : List InsertContribution}
    (hi : Unique ContributionRow.id db.contributions) :
    Unique ContributionRow.id
      (db.addNewContributionsBatch fault contributions).1.contributions := by
  rw [Database.addNewContributionsBatch]
  rcases db.executeBatch_cases fault .failedToInsertRow
      ((insertContributions contributions db.contributions).map fun rows =>
        ({ db with contributions := rows }, contributions.length)) with
    ⟨hdb, -⟩ | ⟨db', n, -, hresult, heq⟩
  · rw [hdb]
    exact hi
  · obtain ⟨rows, hrows, hresult⟩ := Option.map_eq_some_iff.mp hresult
    obtain ⟨rfl, rfl⟩ := Prod.mk.inj hresult
    rw [heq]
    exact insertContributions_unique hi hrows

/-- Where no row or several rows are picked, the call reports an error, in the second case having
changed them. -/
lemma Database.updatePoolRewards_cases (authority : String) (earned : Int64) :
    ((db.updatePoolRewards sql fault authority earned).1 = db ∧
        (db.updatePoolRewards sql fault authority earned).2.isOk = false) ∨
      (db.updatePoolRewards sql fault authority earned).1 = { db with
          pools := update PoolRow.authorityPubkey authority (PoolRow.earn sql earned) db.pools } ∧
        ((db.updatePoolRewards sql fault authority earned).2.isOk = true ↔
          (select PoolRow.authorityPubkey authority db.pools).length = 1) := by
  rw [Database.updatePoolRewards]
  refine (Database.execute_cases _ _ _ _).imp_right ?_
  rintro ⟨db', n, -, hresult, heq⟩
  obtain ⟨rfl, rfl⟩ := Prod.mk.inj (Option.some.inj hresult)
  refine ⟨congrArg Prod.fst heq, ?_⟩
  rw [heq]
  split
  · rename_i hn
    exact iff_of_false (by simp [Except.isOk, Except.toBool]) hn
  · rename_i hn
    exact iff_of_true rfl (not_not.mp hn)

/-- What a call does to the tables when it does something. -/
inductive Write.Move (sql : Sqlite) (db : Database) : Write → Database → Prop
  | addNewPool {authorityPubkey proofPubkey : String} (id : Int64)
      (hfree : proofPubkey ∉ db.pools.map PoolRow.proofPubkey) :
      Move sql db (.addNewPool authorityPubkey proofPubkey)
        { db with pools := db.pools ++ [⟨id, proofPubkey, authorityPubkey, .int 0, 0⟩] }
  | updatePoolRewards (authority : String) (earned : Int64) :
      Move sql db (.updatePoolRewards authority earned) { db with
        pools := update PoolRow.authorityPubkey authority (PoolRow.earn sql earned) db.pools }
  | addNewMiner {pubkey status : String} {isEnabled : Bool} {id : Int64}
      (hid : id ∉ db.miners.map Miner.id) (hfree : pubkey ∉ db.miners.map Miner.pubkey) :
      Move sql db (.addNewMiner pubkey isEnabled status)
        { db with miners := db.miners ++ [⟨id, pubkey, isEnabled, status⟩] }
  | addNewReward (reward : InsertReward) :
      Move sql db (.addNewReward reward)
        { db with rewards := db.rewards ++ [⟨reward.minerId, reward.poolId, .int 0⟩] }
  | updateRewards (rewards : List UpdateReward) :
      Move sql db (.updateRewards rewards)
        { db with rewards := (creditAll sql rewards db.rewards).1 }
  | addNewEarningsBatch (earnings : List InsertEarning) :
      Move sql db (.addNewEarningsBatch earnings) { db with earnings := db.earnings ++ earnings }
  | addNewContributionsBatch {contributions : List InsertContribution}
      (rows : List ContributionRow) :
      Move sql db (.addNewContributionsBatch contributions) { db with contributions := rows }
  | addNewChallenge {challenge : InsertChallenge} (challenges : List ChallengeRow) :
      Move sql db (.addNewChallenge challenge) { db with challenges := challenges }
  | updateChallengeRewards {challenge : List UInt8} {contributionId rewards : Int64}
      (challenges : List ChallengeRow) :
      Move sql db (.updateChallengeRewards challenge contributionId rewards)
        { db with challenges := challenges }

theorem Database.write_move (w : Write) :
    (db.write sql fault w).1 = db ∨ Write.Move sql db w (db.write sql fault w).1 := by
  cases w with
  | addNewPool authorityPubkey proofPubkey =>
      rcases db.addNewPool_cases fault authorityPubkey proofPubkey with ⟨h, -⟩ | ⟨id, -, hfree, h⟩
      · exact .inl h
      · exact .inr (congrArg Prod.fst h ▸ .addNewPool id hfree)
  | updatePoolRewards authorityPubkey earned =>
      rcases db.updatePoolRewards_cases sql fault authorityPubkey earned with ⟨h, -⟩ | ⟨h, -⟩
      · exact .inl h
      · exact .inr (h ▸ .updatePoolRewards authorityPubkey earned)
  | addNewMiner pubkey isEnabled status =>
      rcases db.addNewMiner_cases fault pubkey isEnabled status with ⟨h, -⟩ | ⟨id, hid, hfree, h⟩
      · exact .inl h
      · exact .inr (congrArg Prod.fst h ▸ .addNewMiner hid hfree)
  | addNewReward reward =>
      rcases db.addNewReward_cases fault reward with ⟨h, -⟩ | h
      · exact .inl h
      · exact .inr (congrArg Prod.fst h ▸ .addNewReward reward)
  | updateRewards rewards =>
      refine (db.executeBatch_cases _ _ _).imp And.left ?_
      rintro ⟨db', n, -, hresult, h⟩
      obtain ⟨rfl, -⟩ := Prod.mk.inj (Option.some.inj hresult)
      exact congrArg Prod.fst h ▸ .updateRewards rewards
  | addNewEarningsBatch earnings =>
      refine (db.executeBatch_cases _ _ _).imp And.left ?_
      rintro ⟨db', n, -, hresult, h⟩
      obtain ⟨rfl, -⟩ := Prod.mk.inj (Option.some.inj hresult)
      exact congrArg Prod.fst h ▸ .addNewEarningsBatch earnings
  | addNewContributionsBatch contributions =>
      refine (db.executeBatch_cases _ _ _).imp And.left ?_
      rintro ⟨db', n, -, hresult, h⟩
      obtain ⟨rows, -, hresult⟩ := Option.map_eq_some_iff.mp hresult
      obtain ⟨rfl, -⟩ := Prod.mk.inj hresult
      exact congrArg Prod.fst h ▸ .addNewContributionsBatch rows
  | addNewChallenge challenge =>
      refine (db.execute_cases _ _ _).imp And.left ?_
      rintro ⟨db', n, -, hresult, h⟩
      obtain ⟨rfl, -⟩ := Prod.mk.inj (Option.some.inj hresult)
      exact congrArg Prod.fst h ▸ .addNewChallenge _
  | updateChallengeRewards challenge contributionId rewards =>
      refine (db.execute_cases _ _ _).imp And.left ?_
      rintro ⟨db', n, -, hresult, h⟩
      obtain ⟨rfl, -⟩ := Prod.mk.inj (Option.some.inj hresult)
      exact congrArg Prod.fst h ▸ .updateChallengeRewards _

/-- **Frame.**  What holds of the tables as they are, and of whatever the call makes of them, holds
after the call. -/
@[elab_as_elim]
theorem Database.write_induction {motive : Database → Prop} (w : Write) (hsame : motive db)
    (hmove : ∀ db', Write.Move sql db w db' → motive db') : motive (db.write sql fault w).1 := by
  rcases db.write_move sql fault w with h | h
  · rw [h]
    exact hsame
  · exact hmove _ h

/-! ## Calls that leave a table -/

variable {w : Write}

lemma Database.write_miners (h : ∀ pubkey enabled status, w ≠ .addNewMiner pubkey enabled status) :
    (db.write sql fault w).1.miners = db.miners := by
  refine db.write_induction sql fault w rfl fun db' hmove => ?_
  cases hmove with
  | addNewMiner _ _ => exact absurd rfl (h _ _ _)
  | _ => rfl

lemma Database.write_earnings (h : ∀ earnings, w ≠ .addNewEarningsBatch earnings) :
    (db.write sql fault w).1.earnings = db.earnings := by
  refine db.write_induction sql fault w rfl fun db' hmove => ?_
  cases hmove with
  | addNewEarningsBatch _ => exact absurd rfl (h _)
  | _ => rfl

lemma Database.write_contributions
    (h : ∀ contributions, w ≠ .addNewContributionsBatch contributions) :
    (db.write sql fault w).1.contributions = db.contributions := by
  refine db.write_induction sql fault w rfl fun db' hmove => ?_
  cases hmove with
  | addNewContributionsBatch _ => exact absurd rfl (h _)
  | _ => rfl

end Calls

end OrePool
