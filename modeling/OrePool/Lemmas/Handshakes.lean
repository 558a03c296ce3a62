import OrePool.Lemmas.Writes

/-!
# What a handshake can do

`HandshakePc.Move` lists the calls of a handshake with what they find or change.  None is made
twice, so that after seven of them there is an answer (`HandshakePc.Move.calls`).
-/

namespace OrePool

open Interleaving Tables

/-! ## Lookups -/

section Lookups

variable {db : Database} {fault : Option Fault} {pubkey : String}

lemma queryRow_eq_ok {α : Type} {row : Option α} {a : α} (h : queryRow fault row = .ok a) :
    fault = none ∧ row = some a := by
  unfold queryRow at h
  split at h
  · cases h
  · cases h
  · cases h
  · cases h
  · cases h
    exact ⟨rfl, rfl⟩

lemma Database.getMiner_eq_ok {miner : Miner}
    (h : db.getMinerByPubkeyStr fault pubkey = .ok miner) :
    fault = none ∧ miner ∈ db.miners ∧ miner.pubkey = pubkey := by
  obtain ⟨hfault, hrow⟩ := queryRow_eq_ok h
  exact ⟨hfault, mem_select.mp (List.mem_of_mem_head? hrow)⟩

lemma Database.getMiner_of_mem (h : ∃ miner ∈ db.miners, miner.pubkey = pubkey) :
    ∃ miner, db.getMinerByPubkeyStr none pubkey = .ok miner := by
  obtain ⟨miner, hmem, hpubkey⟩ := h
  have hne : select Miner.pubkey pubkey db.miners ≠ [] :=
    List.ne_nil_of_mem (mem_select.mpr ⟨hmem, hpubkey⟩)
  obtain ⟨row, rows, hrows⟩ := List.exists_cons_of_ne_nil hne
  refine ⟨row, ?_⟩
  rw [Database.getMinerByPubkeyStr, hrows]
  rfl

/-- A pool that is read is a row of its authority. -/
lemma Database.getPool_eq_ok {pool : Pool}
    (h : db.getPoolByAuthorityPubkey fault pubkey = .ok pool) :
    ∃ row ∈ db.pools, row.authorityPubkey = pubkey ∧ row.id = pool.id.toInt64 := by
  obtain ⟨-, hrow⟩ := queryRow_eq_ok h
  obtain ⟨row, hhead, hread⟩ := Option.bind_eq_some_iff.mp hrow
  obtain ⟨hmem, hauthority⟩ := mem_select.mp (List.mem_of_mem_head? hhead)
  refine ⟨row, hmem, hauthority, ?_⟩
  rw [PoolRow.read] at hread
  split at hread
  · split at hread
    · rename_i hid
      rw [← Option.some.inj hread]
      exact hid.symm
    · cases hread
  · cases hread

end Lookups

/-! ## Steps -/

/-- What `HandshakePc.step` can do. -/
inductive HandshakePc.Move (host : Host) (req : Request) (db : Database) (fault : Option Fault) :
    HandshakePc → HandshakePc → Database → Prop
  | found {userPubkey : Pubkey} {miner : Miner}
      (hminer : db.getMinerByPubkeyStr fault req.username = .ok miner) :
      Move host req db fault (.getMiner userPubkey) (req.authorize host userPubkey miner) db
  | missing {userPubkey : Pubkey} :
      Move host req db fault (.getMiner userPubkey) (.addMiner userPubkey) db
  | minerAdded {userPubkey : Pubkey} {id : Int64} (hid : id ∉ db.miners.map Miner.id)
      (hfree : host.keys.toString userPubkey ∉ db.miners.map Miner.pubkey)
      (hok : (db.addNewMiner fault (host.keys.toString userPubkey) true "Enrolled").2.isOk = true) :
      Move host req db fault (.addMiner userPubkey) (.getNewMiner userPubkey true)
        { db with miners :=
            db.miners ++ [⟨id, host.keys.toString userPubkey, true, "Enrolled"⟩] }
  | minerRefused {userPubkey : Pubkey}
      (hfail :
        (db.addNewMiner fault (host.keys.toString userPubkey) true "Enrolled").2.isOk = false) :
      Move host req db fault (.addMiner userPubkey) (.getNewMiner userPubkey false) db
  | newMiner {userPubkey : Pubkey} {miner : Miner} {minerAdded : Bool}
      (hminer : db.getMinerByPubkeyStr fault (host.keys.toString userPubkey) = .ok miner) :
      Move host req db fault (.getNewMiner userPubkey minerAdded)
        (.getPool userPubkey miner minerAdded) db
  | pool {userPubkey : Pubkey} {miner : Miner} {minerAdded : Bool} {pool : Pool}
      (hpool : db.getPoolByAuthorityPubkey fault host.wallet = .ok pool) :
      Move host req db fault (.getPool userPubkey miner minerAdded)
        (.register userPubkey miner pool minerAdded true) db
  | poolMissing {userPubkey : Pubkey} {miner : Miner} {minerAdded : Bool} :
      Move host req db fault (.getPool userPubkey miner minerAdded)
        (.addPool userPubkey miner minerAdded) db
  | addPool {userPubkey : Pubkey} {miner : Miner} {minerAdded : Bool} (poolAdded : Bool) :
      Move host req db fault (.addPool userPubkey miner minerAdded)
        (.getNewPool userPubkey miner minerAdded poolAdded)
        (db.addNewPool fault host.wallet host.walletProof).1
  | newPool {userPubkey : Pubkey} {miner : Miner} {minerAdded poolAdded : Bool} {pool : Pool}
      (hpool : db.getPoolByAuthorityPubkey fault host.wallet = .ok pool) :
      Move host req db fault (.getNewPool userPubkey miner minerAdded poolAdded)
        (.register userPubkey miner pool minerAdded poolAdded) db
  | rewardAdded {userPubkey : Pubkey} {miner : Miner} {pool : Pool}
      (hok : (db.addNewReward fault ⟨miner.id, pool.id⟩).2.isOk = true) :
      Move host req db fault (.addReward userPubkey miner pool)
        (req.authorize host userPubkey miner)
        { db with rewards := db.rewards ++ [⟨miner.id, pool.id, .int 0⟩] }
  | rewardRefused {userPubkey : Pubkey} {miner : Miner} {pool : Pool}
      (hfail : (db.addNewReward fault ⟨miner.id, pool.id⟩).2.isOk = false) :
      Move host req db fault (.addReward userPubkey miner pool) (.rejected .rewardsTracker) db
  | minerUnavailable {userPubkey : Pubkey} :
      Move host req db fault (.getMiner userPubkey) (.rejected .internalServerError) db
  | poolUnavailable {userPubkey : Pubkey} {miner : Miner} {minerAdded : Bool} :
      Move host req db fault (.getPool userPubkey miner minerAdded)
        (.rejected .internalServerError) db
  | newMinerPanic {userPubkey : Pubkey} {minerAdded : Bool} :
      Move host req db fault (.getNewMiner userPubkey minerAdded) .panicked db
  | newPoolPanic {userPubkey : Pubkey} {miner : Miner} {minerAdded poolAdded : Bool} :
      Move host req db fault (.getNewPool userPubkey miner minerAdded poolAdded) .panicked db

theorem HandshakePc.step_move {host : Host} {req : Request} {db db' : Database}
    {fault : Option Fault} {pc pc' : HandshakePc}
    (h : pc.step host req db fault = some (pc', db')) :
    HandshakePc.Move host req db fault pc pc' db' := by
  cases pc with
  | getMiner userPubkey =>
      simp only [HandshakePc.step] at h
      split at h
      · obtain ⟨rfl, rfl⟩ := Prod.mk.inj (Option.some.inj h)
        exact .found ‹_›
      · obtain ⟨rfl, rfl⟩ := Prod.mk.inj (Option.some.inj h)
        split
        · exact .missing
        · exact .minerUnavailable
  | addMiner userPubkey =>
      obtain ⟨rfl, rfl⟩ := Prod.mk.inj (Option.some.inj h)
      rcases db.addNewMiner_cases fault (host.keys.toString userPubkey) true "Enrolled" with
        ⟨hdb, hfail⟩ | ⟨id, hid, hfree, hdone⟩
      · rw [hdb, hfail]
        exact .minerRefused hfail
      · have hok : (db.addNewMiner fault (host.keys.toString userPubkey) true "Enrolled").2.isOk =
            true := by
          rw [hdone]
          rfl
        rw [hok, hdone]
        exact .minerAdded hid hfree hok
  | getNewMiner userPubkey minerAdded =>
      simp only [HandshakePc.step] at h
      split at h
      · obtain ⟨rfl, rfl⟩ := Prod.mk.inj (Option.some.inj h)
        exact .newMiner ‹_›
      · obtain ⟨rfl, rfl⟩ := Prod.mk.inj (Option.some.inj h)
        exact .newMinerPanic
  | getPool userPubkey miner minerAdded =>
      simp only [HandshakePc.step] at h
      split at h
      · obtain ⟨rfl, rfl⟩ := Prod.mk.inj (Option.some.inj h)
        exact .pool ‹_›
      · obtain ⟨rfl, rfl⟩ := Prod.mk.inj (Option.some.inj h)
        split
        · exact .poolMissing
        · exact .poolUnavailable
  | addPool userPubkey miner minerAdded =>
      obtain ⟨rfl, rfl⟩ := Prod.mk.inj (Option.some.inj h)
      exact .addPool _
  | getNewPool userPubkey miner minerAdded poolAdded =>
      simp only [HandshakePc.step] at h
      split at h
      · obtain ⟨rfl, rfl⟩ := Prod.mk.inj (Option.some.inj h)
        exact .newPool ‹_›
      · obtain ⟨rfl, rfl⟩ := Prod.mk.inj (Option.some.inj h)
        exact .newPoolPanic
  | addReward userPubkey miner pool =>
      obtain ⟨rfl, rfl⟩ := Prod.mk.inj (Option.some.inj h)
      rcases db.addNewReward_cases fault ⟨miner.id, pool.id⟩ with
        ⟨hdb, hfail⟩ | hdone
      · rw [hdb, hfail]
        exact .rewardRefused hfail
      · have hok : (db.addNewReward fault ⟨miner.id, pool.id⟩).2.isOk = true := by
          rw [hdone]
          rfl
        rw [hok, hdone]
        exact .rewardAdded hok
  | accepted _ | rejected _ | panicked => cases h

/-! ## Calls still to make -/

/-- The calls it takes at most until there is an answer. -/
def HandshakePc.calls : HandshakePc → ℕ
  | .getMiner _ => 7
  | .addMiner _ => 6
  | .getNewMiner _ _ => 5
  | .getPool _ _ _ => 4
  | .addPool _ _ _ => 3
  | .getNewPool _ _ _ _ => 2
  | .addReward _ _ _ => 1
  | .accepted _ | .rejected _ | .panicked => 0

section Calls

variable {host : Host} {req : Request} {db db' : Database} {fault : Option Fault}
  {pc pc' : HandshakePc}

/-- Once none is left, the handshake has been answered or its task has panicked. -/
lemma HandshakePc.answer_of_calls (h : pc.calls = 0) :
    pc = .panicked ∨ ∃ answer, pc.answer = some answer := by
  cases pc with
  | accepted connection => exact .inr ⟨_, rfl⟩
  | rejected why => exact .inr ⟨_, rfl⟩
  | panicked => exact .inl rfl
  | _ => cases h

lemma Request.calls_verify (userPubkey : Pubkey) (minerId : Int64) :
    (req.verify host userPubkey minerId).calls = 0 := by
  rcases req.verify_cases host userPubkey minerId with ⟨connection, h⟩ | ⟨why, h⟩
  · rw [h]
    rfl
  · rw [h]
    rfl

lemma Request.calls_authorize (userPubkey : Pubkey) (miner : Miner) :
    (req.authorize host userPubkey miner).calls = 0 := by
  rw [Request.authorize]
  split
  · exact Request.calls_verify userPubkey miner.id
  · rfl

lemma HandshakePc.calls_register (userPubkey : Pubkey) (miner : Miner) (pool : Pool)
    (minerAdded poolAdded : Bool) :
    (HandshakePc.register userPubkey miner pool minerAdded poolAdded).calls ≤ 1 := by
  rw [HandshakePc.register]
  split
  · exact le_rfl
  · exact Nat.zero_le 1

lemma HandshakePc.Move.calls (h : HandshakePc.Move host req db fault pc pc' db') :
    pc'.calls < pc.calls := by
  cases h with
  | found _ | rewardAdded _ =>
      rw [Request.calls_authorize]
      exact Nat.succ_pos _
  | pool _ | newPool _ =>
      refine (HandshakePc.calls_register _ _ _ _ _).trans_lt ?_
      simp [HandshakePc.calls]
  | _ => simp [HandshakePc.calls]

/-- Before the first call all of them are left at most. -/
lemma Request.calls_open (now : UInt64) (connected : List Pubkey) :
    (req.open host now connected).calls ≤ 7 := by
  by_cases hdb : host.poweredByDbms = .sqlite
  · rcases Request.open_sqlite hdb req now connected with ⟨userPubkey, h⟩ | h | h
    · rw [h]
      exact le_rfl
    · rw [h]
      exact Nat.zero_le 7
    · rw [h]
      exact Nat.zero_le 7
  · rcases Request.open_without hdb req now connected with ⟨connection, h⟩ | ⟨why, h⟩
    · rw [h]
      exact Nat.zero_le 7
    · rw [h]
      exact Nat.zero_le 7

end Calls

end OrePool
