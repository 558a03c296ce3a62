import OrePool.Lemmas.Handshakes

/-!
# Keys of the tables

The primary keys of `miners` and `pools`, and the key of a miner, pick out one row (`keyed`).  The
key of a miner is the text of a public key (`named`).
-/

namespace OrePool

open Interleaving Tables

/-! ## Unique columns -/

/-- What picks out one row. -/
structure Database.Keyed (db : Database) : Prop where
  miners : Unique Miner.id db.miners
  pubkeys : Unique Miner.pubkey db.miners
  pools : Unique PoolRow.id db.pools

section Calls

variable (sql : Sqlite) (db : Database) (fault : Option Fault)

lemma Database.addNewPool_unique {authorityPubkey proofPubkey : String}
    (hi : Unique PoolRow.id db.pools) :
    Unique PoolRow.id (db.addNewPool fault authorityPubkey proofPubkey).1.pools := by
  rcases db.addNewPool_cases fault authorityPubkey proofPubkey with ⟨hdb, -⟩ | ⟨id, hid, -, hdb⟩
  · rw [hdb]
    exact hi
  · rw [hdb]
    exact hi.append hid

/-- A call keeps the keys. -/
theorem Database.Keyed.write (w : Write) (hi : db.Keyed) : (db.write sql fault w).1.Keyed := by
  by_cases hpool : ∃ authority proof, w = .addNewPool authority proof
  · obtain ⟨authority, proof, rfl⟩ := hpool
    have hminers : (db.addNewPool fault authority proof).1.miners = db.miners :=
      db.write_miners sql fault (w := .addNewPool authority proof) nofun
    exact ⟨hminers ▸ hi.miners, hminers ▸ hi.pubkeys, db.addNewPool_unique fault hi.pools⟩
  · refine db.write_induction sql fault w hi fun db' hmove => ?_
    cases hmove with
    | addNewPool _ _ => exact absurd ⟨_, _, rfl⟩ hpool
    | addNewMiner hid hfree => exact ⟨hi.miners.append hid, hi.pubkeys.append hfree, hi.pools⟩
    | updatePoolRewards authority earned =>
        exact ⟨hi.miners, hi.pubkeys, hi.pools.update fun _ => rfl⟩
    | _ => exact ⟨hi.miners, hi.pubkeys, hi.pools⟩

end Calls

/-- **Keys.**  The tables of every run are keyed. -/
theorem keyed {sql : Sqlite} {C : Database → Write × Option Fault → Prop} {db : Database}
    (h : Reach (tables sql) C db) : db.Keyed := by
  refine h.invariant ?_ ?_
  · rintro db rfl
    exact ⟨List.nodup_nil, List.nodup_nil, List.nodup_nil⟩
  · intro db a db' _ hi _ hs
    obtain rfl := Option.some.inj hs
    exact hi.write sql db a.2 a.1

/-! ## Texts of keys -/

/-- The key of a miner is the text of a public key. -/
def Database.Named (host : Host) (db : Database) : Prop :=
  ∀ miner ∈ db.miners, ∃ key, miner.pubkey = host.keys.toString key

lemma Database.Named.congr {host : Host} {db db' : Database} (hi : db.Named host)
    (h : db'.miners = db.miners) : db'.Named host := by
  intro miner hminer
  exact hi miner (h ▸ hminer)

lemma Database.Named.handshake {host : Host} {req : Request} {db db' : Database}
    {fault : Option Fault} {pc pc' : HandshakePc} (hi : db.Named host)
    (h : pc.step host req db fault = some (pc', db')) : db'.Named host := by
  cases HandshakePc.step_move h with
  | minerAdded hid hfree hok =>
      intro miner hminer
      rcases List.mem_append.mp hminer with hminer | hminer
      · exact hi miner hminer
      · obtain rfl := List.mem_singleton.mp hminer
        exact ⟨_, rfl⟩
  | addPool _ =>
      exact hi.congr (db.write_miners host.sql fault
        (w := .addNewPool host.wallet host.walletProof) nofun)
  | _ => exact hi

lemma Database.Named.payment {host : Host} {db db' : Database} {fault : Option Fault}
    {pc pc' : PaymentPc} (hi : db.Named host) (h : pc.step host db fault = some (pc', db')) :
    db'.Named host := by
  rcases PaymentPc.step_writes h with rfl | ⟨w, hw, rfl⟩
  · exact hi
  · refine hi.congr (db.write_miners host.sql fault ?_)
    intro _ _ _ hne
    subst hne
    cases hw

/-- **Texts of keys**, in every run. -/
theorem named {host : Host} {C : Ledger → LedgerAction → Prop} {s : Ledger}
    (h : Reach (ledger host) C s) : s.db.Named host := by
  refine h.invariant (I := fun s => s.db.Named host) ?_ ?_
  · rintro s rfl
    exact fun miner hminer => absurd hminer List.not_mem_nil
  · intro s act s' _ hi _ hs
    cases Ledger.step_move hs with
    | request _ _ _ | mineSuccess _ _ => exact hi
    | handshake _ hstep => exact hi.handshake hstep
    | payment hstep => exact hi.payment hstep
    | addPool fault =>
        exact hi.congr (s.db.write_miners host.sql fault
          (w := .addNewPool host.wallet host.walletProof) nofun)
    | addChallenge challenge fault =>
        exact hi.congr (s.db.write_miners host.sql fault (w := .addNewChallenge challenge) nofun)

end OrePool
