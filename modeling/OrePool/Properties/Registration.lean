import OrePool.Core.Slots
import OrePool.LedgerReplay
import OrePool.Lemmas.Handshakes

/-!
# Registration

A registered miner has one row in `rewards`, for the wallet's pool: without it what the miner earns
is lost.  The handler inserts the miner's row and the rewards row by separate calls.  A handshake
that finds the first skips the second, whether or not the one that inserted it has come that far,
or ever will.

`registrar` notes the keys whose miner row is there and whose rewards row is not.  As long as no
handshake is admitted by a lookup of such a key, whoever is accepted has a rewards row
(`registrationComplete`).
-/

namespace OrePool

open Interleaving Tables

/-! ## The property -/

/-- The pools for which a miner has a rewards row, one entry a row. -/
def Database.trackers (db : Database) (minerId : Int64) : List Int32 :=
  (select RewardRow.minerId minerId db.rewards).map RewardRow.poolId

/-- Exactly one rewards row, and it is for the wallet's pool. -/
def Database.Registered (host : Host) (db : Database) (minerId : Int64) : Prop :=
  ∃ pool ∈ db.pools, pool.authorityPubkey = host.wallet ∧
    (db.trackers minerId).map Int32.toInt64 = [pool.id]

/-- Whoever has been accepted is registered. -/
def RegistrationComplete (host : Host) (s : Ledger) : Prop :=
  ∀ req c, (req, .accepted c) ∈ s.handshakes → s.db.Registered host c.minerId

/-! ## The condition -/

/-- Notes the keys, as texts, between the insertion of their miner row and that of their rewards
row. -/
def registrar (host : Host) : Observer Ledger LedgerAction (List String) where
  start _ := []
  note s act pending :=
    match act with
    | .handshake i fault =>
        match s.handshakes[i]? with
        | some (_, .addMiner userPubkey) =>
            let pubkey := host.keys.toString userPubkey
            if (s.db.addNewMiner fault pubkey true "Enrolled").2.isOk then pubkey :: pending
            else pending
        | some (_, .addReward userPubkey miner pool) =>
            if (s.db.addNewReward fault ⟨miner.id, pool.id⟩).2.isOk then
              pending.erase (host.keys.toString userPubkey)
            else
              pending
        | _ => pending
    | _ => pending

/-- The key that a handshake looks up and is admitted with. -/
def Ledger.admits (host : Host) (s : Ledger) (i : ℕ) (fault : Option Fault) : Option String :=
  match s.handshakes[i]? with
  | some (req, .getMiner userPubkey) =>
      match s.db.getMinerByPubkeyStr fault req.username with
      | .ok miner =>
          match req.authorize host userPubkey miner with
          | .accepted _ => some req.username
          | _ => none
      | .error _ => none
  | _ => none

/-- No handshake is admitted by looking up a key whose registration has begun and not ended. -/
def AdmitsRegistered (host : Host) (x : Ledger × List String) : LedgerAction → Prop
  | .handshake i fault => ∀ pubkey ∈ x.1.admits host i fault, pubkey ∉ x.2
  | _ => True

instance (host : Host) : DecidableRel (AdmitsRegistered host) := fun x a =>
  match a with
  | .handshake i fault =>
      inferInstanceAs (Decidable (∀ pubkey ∈ x.1.admits host i fault, pubkey ∉ x.2))
  | .request .. | .mineSuccess .. | .payment .. | .addPool .. | .addChallenge .. => isTrue trivial

/-! ## Writes that no registration sees -/

/-- The same miners and trackers, and the pools there were. -/
structure SameRegistry (db db' : Database) : Prop where
  miners : db'.miners = db.miners
  trackers : ∀ minerId, db'.trackers minerId = db.trackers minerId
  pools : ∀ row ∈ db.pools, ∃ row' ∈ db'.pools,
    row'.authorityPubkey = row.authorityPubkey ∧ row'.id = row.id

lemma creditAll_trackers (sql : Sqlite) (updates : List UpdateReward) (rows : List RewardRow)
    (minerId : Int64) :
    (select RewardRow.minerId minerId (creditAll sql updates rows).1).map RewardRow.poolId =
      (select RewardRow.minerId minerId rows).map RewardRow.poolId := by
  induction updates generalizing rows with
  | nil => rfl
  | cons u updates ih =>
      have hcredit : ∀ r, (RewardRow.credit sql u.balance r).minerId = r.minerId := fun _ => rfl
      rw [creditAll, ih]
      by_cases h : minerId = u.minerId
      · rw [h, select_update hcredit, List.map_map]
        rfl
      · rw [select_update_ne hcredit h]

lemma SameRegistry.refl (db : Database) : SameRegistry db db :=
  ⟨rfl, fun _ => rfl, fun row hrow => ⟨row, hrow, rfl, rfl⟩⟩

lemma Database.write_sameRegistry (sql : Sqlite) (db : Database) (fault : Option Fault) (w : Write)
    (hminer : ∀ pubkey enabled status, w ≠ .addNewMiner pubkey enabled status)
    (hreward : ∀ reward, w ≠ .addNewReward reward) :
    SameRegistry db (db.write sql fault w).1 := by
  refine db.write_induction sql fault w (.refl db) fun db' hmove => ?_
  cases hmove with
  | addNewMiner _ _ => exact absurd rfl (hminer _ _ _)
  | addNewReward reward => exact absurd rfl (hreward reward)
  | addNewPool id _ =>
      exact ⟨rfl, fun _ => rfl, fun row hrow => ⟨row, List.mem_append_left _ hrow, rfl, rfl⟩⟩
  | updatePoolRewards authority earned =>
      refine ⟨rfl, fun _ => rfl, fun row hrow => ⟨_, List.mem_map_of_mem hrow, ?_⟩⟩
      split
      · exact ⟨rfl, rfl⟩
      · exact ⟨rfl, rfl⟩
  | updateRewards rewards =>
      exact ⟨rfl, creditAll_trackers sql rewards db.rewards, (SameRegistry.refl db).pools⟩
  | _ => exact ⟨rfl, fun _ => rfl, (SameRegistry.refl db).pools⟩

/-- No payment is a registration. -/
lemma PaymentPc.step_sameRegistry {host : Host} {db db' : Database} {fault : Option Fault}
    {pc pc' : PaymentPc} (h : pc.step host db fault = some (pc', db')) : SameRegistry db db' := by
  rcases PaymentPc.step_writes h with rfl | ⟨w, hw, rfl⟩
  · exact .refl _
  · refine db.write_sameRegistry host.sql fault w ?_ ?_
    · intro _ _ _ hne
      subst hne
      cases hw
    · intro _ hne
      subst hne
      cases hw

lemma Database.Registered.congr {host : Host} {db db' : Database} {minerId : Int64}
    (h : db.Registered host minerId) (htrackers : db'.trackers minerId = db.trackers minerId)
    (hpools : ∀ row ∈ db.pools, ∃ row' ∈ db'.pools,
      row'.authorityPubkey = row.authorityPubkey ∧ row'.id = row.id) :
    db'.Registered host minerId := by
  obtain ⟨pool, hpool, hauthority, hids⟩ := h
  obtain ⟨pool', hpool', hauthority', hid'⟩ := hpools pool hpool
  exact ⟨pool', hpool', hauthority'.trans hauthority, by rw [htrackers, hids, hid']⟩

/-! ## The tables -/

/-- Every miner is registered or noted, the noted ones having no rewards row yet. -/
structure RegistryKept (host : Host) (db : Database) (pending : List String) : Prop where
  ids : Unique Miner.id db.miners
  pubkeys : Unique Miner.pubkey db.miners
  nodup : pending.Nodup
  noted : ∀ pubkey ∈ pending, pubkey ∈ db.miners.map Miner.pubkey
  unknown : ∀ id, id ∉ db.miners.map Miner.id → db.trackers id = []
  waiting : ∀ miner ∈ db.miners, miner.pubkey ∈ pending → db.trackers miner.id = []
  complete : ∀ miner ∈ db.miners, miner.pubkey ∉ pending → db.Registered host miner.id

section Registry

variable {host : Host} {db db' : Database} {pending : List String}

lemma RegistryKept.congr (hi : RegistryKept host db pending) (h : SameRegistry db db') :
    RegistryKept host db' pending := by
  refine ⟨h.miners ▸ hi.ids, h.miners ▸ hi.pubkeys, hi.nodup, h.miners ▸ hi.noted, ?_, ?_, ?_⟩
  · intro id hid
    rw [h.miners] at hid
    rw [h.trackers, hi.unknown id hid]
  · intro miner hmem hpending
    rw [h.miners] at hmem
    rw [h.trackers, hi.waiting miner hmem hpending]
  · intro miner hmem hpending
    rw [h.miners] at hmem
    exact (hi.complete miner hmem hpending).congr (h.trackers _) h.pools

/-- A miner's row is inserted: its key is noted. -/
lemma RegistryKept.addMiner (hi : RegistryKept host db pending) {miner : Miner}
    (hid : miner.id ∉ db.miners.map Miner.id) (hfree : miner.pubkey ∉ db.miners.map Miner.pubkey) :
    RegistryKept host { db with miners := db.miners ++ [miner] } (miner.pubkey :: pending) := by
  have hne : ∀ m ∈ db.miners, m.pubkey ≠ miner.pubkey := fun m hm h =>
    hfree (h ▸ List.mem_map_of_mem hm)
  refine ⟨hi.ids.append hid, hi.pubkeys.append hfree, ?_, ?_, ?_, ?_, ?_⟩
  · exact List.nodup_cons.mpr ⟨fun h => hfree (hi.noted _ h), hi.nodup⟩
  · intro pubkey hpubkey
    rw [List.map_append, List.mem_append]
    rcases List.mem_cons.mp hpubkey with rfl | hpubkey
    · exact .inr List.mem_cons_self
    · exact .inl (hi.noted pubkey hpubkey)
  · intro id hid'
    rw [List.map_append, List.mem_append, not_or] at hid'
    exact hi.unknown id hid'.1
  · intro m hm hpending
    rcases List.mem_append.mp hm with hm | hm
    · rcases List.mem_cons.mp hpending with h | hpending
      · exact absurd h (hne m hm)
      · exact hi.waiting m hm hpending
    · obtain rfl := List.mem_singleton.mp hm
      exact hi.unknown _ hid
  · intro m hm hpending
    rw [List.mem_cons, not_or] at hpending
    rcases List.mem_append.mp hm with hm | hm
    · exact hi.complete m hm hpending.2
    · obtain rfl := List.mem_singleton.mp hm
      exact absurd rfl hpending.1

/-- The rewards row of a noted miner is inserted: its key is struck out. -/
lemma RegistryKept.addReward (hi : RegistryKept host db pending) {miner : Miner} {pool : PoolRow}
    {poolId : Int32} (hminer : miner ∈ db.miners) (hpending : miner.pubkey ∈ pending)
    (hpool : pool ∈ db.pools) (hauthority : pool.authorityPubkey = host.wallet)
    (hid : pool.id = poolId.toInt64) :
    RegistryKept host { db with rewards := db.rewards ++ [⟨miner.id, poolId, .int 0⟩] }
      (pending.erase miner.pubkey) := by
  have htrackers : ∀ id, Database.trackers
      { db with rewards := db.rewards ++ [⟨miner.id, poolId, .int 0⟩] } id =
      db.trackers id ++ if miner.id = id then [poolId] else [] := by
    intro id
    simp only [Database.trackers, select_append, select_singleton, List.map_append]
    split
    · rfl
    · rfl
  -- another miner has another id, and its trackers are what they were
  have hother : ∀ m ∈ db.miners, m.pubkey ≠ miner.pubkey → miner.id ≠ m.id := fun m hm hne h =>
    hne (congrArg Miner.pubkey (hi.ids.eq hm hminer h.symm))
  refine ⟨hi.ids, hi.pubkeys, hi.nodup.erase _,
    fun pubkey h => hi.noted _ (List.mem_of_mem_erase h), ?_, ?_, ?_⟩
  · intro id hid'
    have hne : miner.id ≠ id := fun h => hid' (h ▸ List.mem_map_of_mem hminer)
    rw [htrackers, if_neg hne, hi.unknown id hid', List.append_nil]
  · intro m hm hwait
    obtain ⟨hne, hwait⟩ := hi.nodup.mem_erase_iff.mp hwait
    rw [htrackers, if_neg (hother m hm hne), hi.waiting m hm hwait, List.append_nil]
  · intro m hm hdone
    by_cases hpubkey : m.pubkey = miner.pubkey
    · obtain rfl := hi.pubkeys.eq hm hminer hpubkey
      refine ⟨pool, hpool, hauthority, ?_⟩
      rw [htrackers, hi.waiting m hm hpending, if_pos rfl, hid]
      rfl
    · have hnot : m.pubkey ∉ pending := fun h => hdone ((List.mem_erase_of_ne hpubkey).mpr h)
      refine (hi.complete m hm hnot).congr ?_ fun row hrow => ⟨row, hrow, rfl, rfl⟩
      rw [htrackers, if_neg (hother m hm hpubkey), List.append_nil]

end Registry

/-! ## The handshakes -/

/-- Whose registration a handshake has begun and not ended. -/
def HandshakePc.owner : HandshakePc → Option Pubkey
  | .getNewMiner userPubkey true | .getPool userPubkey _ true | .addPool userPubkey _ true
  | .getNewPool userPubkey _ true _ | .addReward userPubkey _ _ => some userPubkey
  | _ => none

/-- What a handshake knows of the tables: the miner it has read is there, the key whose
registration it has begun is noted, the pool it has read is the wallet's, and who is accepted is
not noted. -/
def HandshakePc.Sound (host : Host) (db : Database) (pending : List String) : HandshakePc → Prop
  | .getNewMiner userPubkey minerAdded =>
      minerAdded = true → host.keys.toString userPubkey ∈ pending
  | .getPool userPubkey miner minerAdded | .addPool userPubkey miner minerAdded
  | .getNewPool userPubkey miner minerAdded _ =>
      (miner ∈ db.miners ∧ miner.pubkey = host.keys.toString userPubkey) ∧
        (minerAdded = true → host.keys.toString userPubkey ∈ pending)
  | .addReward userPubkey miner pool =>
      (miner ∈ db.miners ∧ miner.pubkey = host.keys.toString userPubkey) ∧
        host.keys.toString userPubkey ∈ pending ∧
        ∃ row ∈ db.pools, row.authorityPubkey = host.wallet ∧ row.id = pool.id.toInt64
  | .accepted c => ∃ miner ∈ db.miners, miner.id = c.minerId ∧ miner.pubkey ∉ pending
  | .getMiner _ | .addMiner _ | .rejected _ | .panicked => True

/-- Every handshake is sound, and no two have begun the same registration. -/
structure TasksKept (host : Host) (handshakes : List (Request × HandshakePc)) (db : Database)
    (pending : List String) : Prop where
  sound : ∀ (i : ℕ) (h : Request × HandshakePc), handshakes[i]? = some h →
    h.2.Sound host db pending
  owners : ∀ (i j : ℕ) (h h' : Request × HandshakePc) (userPubkey : Pubkey),
    handshakes[i]? = some h → handshakes[j]? = some h' → h.2.owner = some userPubkey →
    h'.2.owner = some userPubkey → i = j

section Tasks

variable {host : Host} {req : Request} {db db' : Database} {pending pending' : List String}
  {fault : Option Fault} {pc pc' : HandshakePc} {handshakes : List (Request × HandshakePc)} {i : ℕ}

lemma HandshakePc.Sound.mono (hi : pc.Sound host db pending)
    (hminers : ∀ miner ∈ db.miners, miner ∈ db'.miners)
    (hpools : ∀ row ∈ db.pools, ∃ row' ∈ db'.pools,
      row'.authorityPubkey = row.authorityPubkey ∧ row'.id = row.id)
    (howner : ∀ userPubkey, pc.owner = some userPubkey →
      host.keys.toString userPubkey ∈ pending → host.keys.toString userPubkey ∈ pending')
    (hdone : ∀ miner ∈ db.miners, miner.pubkey ∉ pending → miner.pubkey ∉ pending') :
    pc.Sound host db' pending' := by
  cases pc with
  | getNewMiner userPubkey minerAdded =>
      intro hadded
      subst hadded
      exact howner _ rfl (hi rfl)
  | getPool userPubkey miner minerAdded | addPool userPubkey miner minerAdded
  | getNewPool userPubkey miner minerAdded _ =>
      refine ⟨⟨hminers _ hi.1.1, hi.1.2⟩, ?_⟩
      intro hadded
      subst hadded
      exact howner _ rfl (hi.2 rfl)
  | addReward userPubkey miner pool =>
      obtain ⟨hminer, hpending, row, hrow, hauthority, hid⟩ := hi
      obtain ⟨row', hrow', hauthority', hid'⟩ := hpools row hrow
      exact ⟨⟨hminers _ hminer.1, hminer.2⟩, howner _ rfl hpending, row', hrow',
        hauthority'.trans hauthority, hid'.trans hid⟩
  | accepted c =>
      obtain ⟨miner, hmem, hid, hpending⟩ := hi
      exact ⟨miner, hminers _ hmem, hid, hdone miner hmem hpending⟩
  | getMiner _ | addMiner _ | rejected _ | panicked => trivial

lemma HandshakePc.Sound.owner {userPubkey : Pubkey} (hi : pc.Sound host db pending)
    (h : pc.owner = some userPubkey) : host.keys.toString userPubkey ∈ pending := by
  unfold HandshakePc.owner at h
  split at h
  · exact Option.some.inj h ▸ hi rfl
  · exact Option.some.inj h ▸ hi.2 rfl
  · exact Option.some.inj h ▸ hi.2 rfl
  · exact Option.some.inj h ▸ hi.2 rfl
  · exact Option.some.inj h ▸ hi.2.1
  · cases h

/-- One handshake moves, the others staying sound. -/
lemma TasksKept.set (hi : TasksKept host handshakes db pending)
    (hpc : handshakes[i]? = some (req, pc))
    (hothers : ∀ (j : ℕ) (h : Request × HandshakePc), j ≠ i → handshakes[j]? = some h →
      h.2.Sound host db pending → h.2.Sound host db' pending')
    (hsound : pc'.Sound host db' pending')
    (hfree : ∀ userPubkey, pc'.owner = some userPubkey →
      ∀ (j : ℕ) (h : Request × HandshakePc), j ≠ i → handshakes[j]? = some h →
        h.2.owner ≠ some userPubkey) :
    TasksKept host (handshakes.set i (req, pc')) db' pending' := by
  refine ⟨?_, ?_⟩
  · intro j h hj
    rw [slot_set hpc] at hj
    split at hj
    · obtain rfl := Option.some.inj hj
      exact hsound
    · rename_i hij
      exact hothers j h (Ne.symm hij) hj (hi.sound j h hj)
  · intro j k h h' userPubkey hj hk hown hown'
    rw [slot_set hpc] at hj hk
    split at hj <;> split at hk
    · exact (‹i = j›).symm.trans ‹i = k›
    · obtain rfl := Option.some.inj hj
      exact absurd hown' (hfree _ hown k h' (Ne.symm ‹_›) hk)
    · obtain rfl := Option.some.inj hk
      exact absurd hown (hfree _ hown' j h (Ne.symm ‹_›) hj)
    · exact hi.owners j k h h' userPubkey hj hk hown hown'

/-- A handshake moves on with its own registration, and the registry does not see it. -/
lemma TasksKept.advance (hi : TasksKept host handshakes db pending)
    (hpc : handshakes[i]? = some (req, pc)) (hreg : SameRegistry db db')
    (hsound : pc'.Sound host db' pending)
    (howner : ∀ userPubkey, pc'.owner = some userPubkey → pc.owner = some userPubkey) :
    TasksKept host (handshakes.set i (req, pc')) db' pending := by
  refine hi.set hpc (fun j h _ _ hs => hs.mono ?_ hreg.pools (fun _ _ => id) fun _ _ => id)
    hsound ?_
  · intro miner hmem
    rw [hreg.miners]
    exact hmem
  · intro userPubkey hown j h hj hh hown'
    exact hj (hi.owners j i h _ userPubkey hh hpc hown' (howner userPubkey hown))

lemma TasksKept.congr (hi : TasksKept host handshakes db pending) (hreg : SameRegistry db db') :
    TasksKept host handshakes db' pending := by
  refine ⟨fun i h hh => (hi.sound i h hh).mono ?_ hreg.pools (fun _ _ => id) fun _ _ => id,
    hi.owners⟩
  intro miner hmem
  rw [hreg.miners]
  exact hmem

lemma Request.sound_authorize (host : Host) (req : Request) (userPubkey : Pubkey) {miner : Miner}
    (hmem : miner ∈ db.miners)
    (hdone : req.authorize host userPubkey miner = .accepted ⟨userPubkey, miner.id, req.version⟩ →
      miner.pubkey ∉ pending) :
    (req.authorize host userPubkey miner).Sound host db pending ∧
      (req.authorize host userPubkey miner).owner = none := by
  rcases req.authorize_cases host userPubkey miner with ⟨why, h⟩ | ⟨h, -, -⟩
  · rw [h]
    exact ⟨trivial, rfl⟩
  · have hpending := hdone h
    rw [h]
    exact ⟨⟨miner, hmem, rfl, hpending⟩, rfl⟩

/-- The handshake that goes on to the rewards row has inserted the miner's row itself. -/
lemma HandshakePc.sound_register {userPubkey : Pubkey} {miner : Miner} {minerAdded : Bool}
    {pool : Pool}
    (hminer : miner ∈ db.miners ∧ miner.pubkey = host.keys.toString userPubkey)
    (hadded : minerAdded = true → host.keys.toString userPubkey ∈ pending)
    (hpool : db.getPoolByAuthorityPubkey fault host.wallet = .ok pool) (poolAdded : Bool) :
    (HandshakePc.register userPubkey miner pool minerAdded poolAdded).Sound host db pending ∧
      ∀ u, (HandshakePc.register userPubkey miner pool minerAdded poolAdded).owner = some u →
        u = userPubkey ∧ minerAdded = true := by
  rw [HandshakePc.register]
  split
  · rename_i h
    obtain ⟨hm, -⟩ := Bool.and_eq_true_iff.mp h
    refine ⟨⟨hminer, hadded hm, Database.getPool_eq_ok hpool⟩, ?_⟩
    intro u hu
    exact ⟨(Option.some.inj hu).symm, hm⟩
  · exact ⟨trivial, fun u hu => by cases hu⟩

end Tasks

/-! ## Runs -/

/-- The tables and the handshakes. -/
structure Enrolled (host : Host) (s : Ledger) (pending : List String) : Prop where
  registry : RegistryKept host s.db pending
  tasks : TasksKept host s.handshakes s.db pending

section Enrolled

variable {host : Host} {s s' : Ledger} {pending : List String} {i : ℕ} {req : Request}

/-- A handshake inserts its miner's row. -/
lemma Enrolled.addMiner {userPubkey : Pubkey} {id : Int64} (hi : Enrolled host s pending)
    (hpc : s.handshakes[i]? = some (req, .addMiner userPubkey))
    (hid : id ∉ s.db.miners.map Miner.id)
    (hfree : host.keys.toString userPubkey ∉ s.db.miners.map Miner.pubkey) :
    Enrolled host { s with
        db := { s.db with miners :=
          s.db.miners ++ [⟨id, host.keys.toString userPubkey, true, "Enrolled"⟩] }
        handshakes := s.handshakes.set i (req, .getNewMiner userPubkey true) }
      (host.keys.toString userPubkey :: pending) := by
  have hnew : ∀ m ∈ s.db.miners, m.pubkey ≠ host.keys.toString userPubkey := fun m hm he =>
    hfree (he ▸ List.mem_map_of_mem hm)
  refine ⟨hi.registry.addMiner hid hfree, hi.tasks.set hpc ?_ ?_ ?_⟩
  · intro j h _ _ hs
    refine hs.mono (fun m hm => List.mem_append_left _ hm) (SameRegistry.refl _).pools
      (fun u _ hu => List.mem_cons_of_mem _ hu) ?_
    intro m hm hpending hmem
    exact (List.mem_cons.mp hmem).elim (hnew m hm) hpending
  · exact fun _ => List.mem_cons_self
  · -- whoever else had begun this registration would have inserted the row
    intro u hu j h _ hj hown
    obtain rfl : userPubkey = u := Option.some.inj hu
    exact hfree (hi.registry.noted _ ((hi.tasks.sound j h hj).owner hown))

/-- A handshake inserts its miner's rewards row, and its registration ends. -/
lemma Enrolled.addReward {userPubkey : Pubkey} {miner : Miner} {pool : Pool}
    (hi : Enrolled host s pending)
    (hpc : s.handshakes[i]? = some (req, .addReward userPubkey miner pool)) :
    Enrolled host { s with
        db := { s.db with rewards := s.db.rewards ++ [⟨miner.id, pool.id, .int 0⟩] }
        handshakes := s.handshakes.set i (req, req.authorize host userPubkey miner) }
      (pending.erase (host.keys.toString userPubkey)) := by
  obtain ⟨⟨hmem, hpubkey⟩, hpending, row, hrow, hauthority, hid⟩ := hi.tasks.sound i _ hpc
  have hdone : miner.pubkey ∉ pending.erase (host.keys.toString userPubkey) := by
    rw [hpubkey]
    exact fun h => (hi.registry.nodup.mem_erase_iff.mp h).1 rfl
  let db' : Database := { s.db with rewards := s.db.rewards ++ [⟨miner.id, pool.id, .int 0⟩] }
  have hmem' : miner ∈ db'.miners := hmem
  have hauthorize := req.sound_authorize host userPubkey hmem' fun _ => hdone
  refine ⟨?_, hi.tasks.set hpc ?_ hauthorize.1 ?_⟩
  · rw [← hpubkey] at hpending ⊢
    exact hi.registry.addReward hmem hpending hrow hauthority hid
  · intro j h hj hh hs
    refine hs.mono (fun _ => id) (SameRegistry.refl _).pools ?_
      fun m _ hdone hmem' => hdone (List.mem_of_mem_erase hmem')
    intro u hown hu
    refine (List.mem_erase_of_ne ?_).mpr hu
    intro he
    obtain rfl := host.keys.toString_injective he
    exact hj (hi.tasks.owners j i h _ u hh hpc hown rfl)
  · intro u hu
    rw [hauthorize.2] at hu
    cases hu

lemma Enrolled.handshake {fault : Option Fault} {pc pc' : HandshakePc} {db' : Database}
    (hi : Enrolled host s pending) (hpc : s.handshakes[i]? = some (req, pc))
    (hc : AdmitsRegistered host (s, pending) (.handshake i fault))
    (h : HandshakePc.Move host req s.db fault pc pc' db') :
    Enrolled host { s with db := db', handshakes := s.handshakes.set i (req, pc') }
      ((registrar host).note s (.handshake i fault) pending) := by
  have hsound := hi.tasks.sound i _ hpc
  cases h with
  | @found userPubkey miner hminer =>
      simp only [registrar, hpc]
      obtain ⟨-, hmem, hpubkey⟩ := Database.getMiner_eq_ok hminer
      have hauthorize := req.sound_authorize host userPubkey hmem fun hacc => by
        rw [hpubkey]
        exact hc req.username (by simp [Ledger.admits, hpc, hminer, hacc])
      refine ⟨hi.registry, hi.tasks.advance hpc (.refl _) hauthorize.1 ?_⟩
      intro u hu
      rw [hauthorize.2] at hu
      cases hu
  | missing | minerUnavailable | poolUnavailable | newMinerPanic | newPoolPanic =>
      simp only [registrar, hpc]
      exact ⟨hi.registry, hi.tasks.advance hpc (.refl _) trivial fun u hu => by cases hu⟩
  | @minerAdded userPubkey id hid hfree hok =>
      simp only [registrar, hpc, hok, if_true]
      exact hi.addMiner hpc hid hfree
  | minerRefused hfail =>
      simp only [registrar, hpc, hfail]
      refine ⟨hi.registry, hi.tasks.advance hpc (.refl _) ?_ fun u hu => by cases hu⟩
      exact fun hadded => by cases hadded
  | @newMiner _ _ minerAdded hminer =>
      simp only [registrar, hpc]
      obtain ⟨-, hmem, hpubkey⟩ := Database.getMiner_eq_ok hminer
      refine ⟨hi.registry, hi.tasks.advance hpc (.refl _) ⟨⟨hmem, hpubkey⟩, hsound⟩ ?_⟩
      intro u hu
      cases minerAdded with
      | true => exact hu
      | false => cases hu
  | pool hpool =>
      simp only [registrar, hpc]
      obtain ⟨hreg, hown⟩ := HandshakePc.sound_register hsound.1 hsound.2 hpool true
      refine ⟨hi.registry, hi.tasks.advance hpc (.refl _) hreg ?_⟩
      intro u hu
      obtain ⟨rfl, rfl⟩ := hown u hu
      rfl
  | @poolMissing _ _ minerAdded =>
      simp only [registrar, hpc]
      refine ⟨hi.registry, hi.tasks.advance hpc (.refl _) hsound ?_⟩
      intro u hu
      cases minerAdded with
      | true => exact hu
      | false => cases hu
  | @addPool _ _ minerAdded poolAdded =>
      simp only [registrar, hpc]
      have hreg := s.db.write_sameRegistry host.sql fault
        (.addNewPool host.wallet host.walletProof) (by simp) (by simp)
      refine ⟨hi.registry.congr hreg, hi.tasks.advance hpc hreg ?_ ?_⟩
      · refine ⟨⟨?_, hsound.1.2⟩, hsound.2⟩
        exact hreg.miners ▸ hsound.1.1
      · intro u hu
        cases minerAdded with
        | true => exact hu
        | false => cases hu
  | newPool hpool =>
      simp only [registrar, hpc]
      obtain ⟨hreg, hown⟩ := HandshakePc.sound_register hsound.1 hsound.2 hpool _
      refine ⟨hi.registry, hi.tasks.advance hpc (.refl _) hreg ?_⟩
      intro u hu
      obtain ⟨rfl, rfl⟩ := hown u hu
      rfl
  | @rewardAdded userPubkey miner pool hok =>
      simp only [registrar, hpc, hok, if_true]
      exact hi.addReward hpc
  | rewardRefused hfail =>
      simp only [registrar, hpc, hfail]
      exact ⟨hi.registry, hi.tasks.advance hpc (.refl _) trivial fun u hu => by cases hu⟩

/-- A request that has come in owns nothing yet. -/
lemma Enrolled.request {pc : HandshakePc} (hi : Enrolled host s pending)
    (hsound : pc.Sound host s.db pending) (howner : pc.owner = none) :
    Enrolled host { s with handshakes := s.handshakes ++ [(req, pc)] } pending := by
  refine ⟨hi.registry, ?_, ?_⟩
  · intro i h hh
    rcases slot_append.mp hh with hh | ⟨-, rfl⟩
    · exact hi.tasks.sound i h hh
    · exact hsound
  · intro i j h h' u hh hh' hown hown'
    rcases slot_append.mp hh with hh | ⟨-, rfl⟩
    · rcases slot_append.mp hh' with hh' | ⟨-, rfl⟩
      · exact hi.tasks.owners i j h h' u hh hh' hown hown'
      · rw [howner] at hown'
        cases hown'
    · rw [howner] at hown
      cases hown

theorem Enrolled.step {act : LedgerAction} (hsql : host.poweredByDbms = .sqlite)
    (hi : Enrolled host s pending) (hc : AdmitsRegistered host (s, pending) act)
    (hs : s.step host act = some s') :
    Enrolled host s' ((registrar host).note s act pending) := by
  have hother : ∀ {db'}, SameRegistry s.db db' →
      Enrolled host { s with db := db' } pending := fun hreg =>
    ⟨hi.registry.congr hreg, hi.tasks.congr hreg⟩
  cases Ledger.step_move hs with
  | request req now connected =>
      rcases Request.open_sqlite hsql req now connected with ⟨userPubkey, h⟩ | h | h
      · rw [h]
        exact hi.request trivial rfl
      · rw [h]
        exact hi.request trivial rfl
      · rw [h]
        exact hi.request trivial rfl
  | handshake hpc hstep => exact hi.handshake hpc hc (HandshakePc.step_move hstep)
  | mineSuccess msg hpc => exact ⟨hi.registry, hi.tasks⟩
  | payment hstep =>
      have hi' := hother (PaymentPc.step_sameRegistry hstep)
      exact ⟨hi'.registry, hi'.tasks⟩
  | addPool fault =>
      exact hother (s.db.write_sameRegistry host.sql fault
        (.addNewPool host.wallet host.walletProof) (by simp) (by simp))
  | addChallenge challenge fault =>
      exact hother (s.db.write_sameRegistry host.sql fault
        (.addNewChallenge challenge) (by simp) (by simp))

end Enrolled

/-- **Registration.**  In every run in which no handshake is admitted by looking up a key whose
registration has begun and not ended, whoever has been accepted has exactly one rewards row, and
it is for the wallet's pool. -/
theorem registrationComplete {host : Host} (hsql : host.poweredByDbms = .sqlite)
    {x : Ledger × List String}
    (h : Reach ((ledger host).observe (registrar host)) (AdmitsRegistered host) x) :
    RegistrationComplete host x.1 := by
  have hi : Enrolled host x.1 x.2 := by
    refine h.observed_invariant ?_ fun s pending act s' _ hi hc hs => hi.step hsql hc hs
    rintro _ rfl
    refine ⟨⟨List.nodup_nil, List.nodup_nil, List.nodup_nil, ?_, fun _ _ => rfl, ?_, ?_⟩, ?_, ?_⟩
    · intro pubkey hpubkey
      cases hpubkey
    · intro miner hminer
      cases hminer
    · intro miner hminer
      cases hminer
    · intro i h hh
      cases hh
    · intro i j h h' userPubkey hh
      cases hh
  intro req c hmem
  obtain ⟨i, hpc⟩ := List.getElem?_of_mem hmem
  obtain ⟨miner, hminer, hid, hpending⟩ := hi.tasks.sound i _ hpc
  rw [← hid]
  exact hi.registry.complete miner hminer hpending

/-- A miner registers and connects again. -/
theorem registrationComplete_again :
    ∃ x, Reach ((ledger Replay.host).observe (registrar Replay.host))
        (AdmitsRegistered Replay.host) x ∧
      (∀ h ∈ x.1.handshakes, h.2 = .accepted ⟨Replay.minerKey, 1, .V1⟩) ∧
      x.1.handshakes.length = 2 ∧ RegistrationComplete Replay.host x.1 := by
  obtain ⟨x, hr, hx⟩ := exists_of_ledgerObserved Replay.host (registrar Replay.host)
    (AdmitsRegistered Replay.host)
    ([.addPool none] ++ Replay.connect 0 [none, none, none, none, none] ++ Replay.connect 1 [none])
    (fun x => decide ((∀ h ∈ x.1.handshakes, h.2 = .accepted ⟨Replay.minerKey, 1, .V1⟩) ∧
      x.1.handshakes.length = 2)) (by decide +kernel)
  simp only [decide_eq_true_eq] at hx
  exact ⟨x, hr, hx.1, hx.2, registrationComplete rfl hr⟩

/-- The first handshake cannot look the pool up and ends; the second finds the miner. -/
theorem not_registrationComplete :
    ¬ ∀ host s, host.poweredByDbms = .sqlite → Reach (ledger host) Any s →
      RegistrationComplete host s := by
  intro hall
  obtain ⟨s, hr, hs⟩ := exists_of_ledger Replay.host Any
    ([.addPool none] ++ Replay.connect 0 [none, none, none, some .connection] ++
      Replay.connect 1 [none])
    (fun s => decide ((Replay.request, .accepted ⟨Replay.minerKey, 1, .V1⟩) ∈ s.handshakes ∧
      s.db.trackers 1 = [])) (by decide +kernel)
  simp only [decide_eq_true_eq] at hs
  obtain ⟨pool, -, -, hids⟩ := hall Replay.host s rfl hr _ _ hs.1
  rw [hs.2] at hids
  cases hids

end OrePool
