import OrePool.LedgerReplay
import OrePool.Lemmas.Handshakes

/-!
# Rejected handshakes

The handler registers a miner it has not found before it looks at the signature.  A request that
is turned down for its signature has therefore left rows behind, unless the server runs without a
database or the first lookup has found the miner (`rejectedUnchanged`).
-/

namespace OrePool

open Interleaving Tables

/-- The request is turned down because its signature does not parse or does not verify. -/
def Rejection.ofSignature : Rejection → Bool
  | .invalidSignature | .sigVerificationFailed => true
  | _ => false

/-- That is what the client is told, in one of two texts. -/
lemma Rejection.ofSignature_iff (why : Rejection) :
    why.ofSignature = true ↔
      (HandshakePc.rejected why).answer = some (.error (401, "Invalid signature")) ∨
        (HandshakePc.rejected why).answer = some (.error (401, "Sig verification failed")) := by
  cases why <;> simp [Rejection.ofSignature, HandshakePc.answer, Rejection.statusCode,
    Rejection.text]

/-- The tables a handshake can write to. -/
structure SameTables (db db' : Database) : Prop where
  miners : db'.miners = db.miners
  pools : db'.pools = db.pools
  rewards : db'.rewards = db.rewards

/-- With a database, the first lookup goes through and finds a row. -/
def Request.Known (host : Host) (req : Request) (faults : List (Option Fault)) (db : Database) :
    Prop :=
  host.poweredByDbms = .sqlite →
    faults.head? = some none ∧ ∃ miner ∈ db.miners, miner.pubkey = req.username

instance (host : Host) (req : Request) (faults : List (Option Fault)) (db : Database) :
    Decidable (req.Known host faults db) := inferInstanceAs (Decidable (_ → _))

/-! ## After a lookup that finds nothing -/

/-- Where the way through the insertions stands, `n` miners having been there before: a miner is
counted once its insertion has gone through, and only then does the signature get looked at. -/
def HandshakePc.Added (n : ℕ) (db : Database) : HandshakePc → Prop
  | .getMiner _ => False
  | .addMiner _ => n ≤ db.miners.length
  | .getNewMiner _ minerAdded | .getPool _ _ minerAdded | .addPool _ _ minerAdded
  | .getNewPool _ _ minerAdded _ => minerAdded = true → n < db.miners.length
  | .addReward _ _ _ => n < db.miners.length
  | .rejected why => why.ofSignature = true → n < db.miners.length
  | .accepted _ | .panicked => True

section Added

variable {host : Host} {req : Request} {n : ℕ} {db db' : Database} {fault : Option Fault}
  {pc pc' : HandshakePc}

lemma Request.added_authorize (h : n < db.miners.length) (userPubkey : Pubkey) (miner : Miner) :
    (req.authorize host userPubkey miner).Added n db := by
  rw [Request.authorize, Request.verify]
  split
  · split
    · split
      · trivial
      · exact fun _ => h
    · exact fun _ => h
  · exact fun _ => h

lemma HandshakePc.added_register {minerAdded : Bool} (h : minerAdded = true → n < db.miners.length)
    (userPubkey : Pubkey) (miner : Miner) (pool : Pool) (poolAdded : Bool) :
    (HandshakePc.register userPubkey miner pool minerAdded poolAdded).Added n db := by
  rw [HandshakePc.register]
  split
  · rename_i hadded
    exact h (Bool.and_eq_true_iff.mp hadded).1
  · exact fun hwhy => by cases hwhy

lemma Database.addNewPool_miners (db : Database) (fault : Option Fault)
    (authorityPubkey proofPubkey : String) :
    (db.addNewPool fault authorityPubkey proofPubkey).1.miners = db.miners := by
  rcases db.addNewPool_cases fault authorityPubkey proofPubkey with ⟨h, -⟩ | ⟨id, -, -, h⟩
  · rw [h]
  · rw [h]

lemma HandshakePc.Added.step (hi : pc.Added n db)
    (h : pc.step host req db fault = some (pc', db')) : pc'.Added n db' := by
  cases HandshakePc.step_move h with
  | found _ | missing => exact hi.elim
  | minerAdded hid hfree _ =>
      intro _
      have hle : n ≤ db.miners.length := hi
      simp only [List.length_append, List.length_singleton]
      omega
  | minerRefused _ => exact fun hadded => by cases hadded
  | newMiner _ | poolMissing => exact hi
  | pool _ | newPool _ => exact HandshakePc.added_register hi _ _ _ _
  | addPool poolAdded =>
      intro hadded
      rw [Database.addNewPool_miners]
      exact hi hadded
  | rewardAdded _ =>
      have hlt : n < db.miners.length := hi
      exact Request.added_authorize hlt _ _
  | rewardRefused _ | minerUnavailable | poolUnavailable => exact fun hwhy => by cases hwhy
  | newMinerPanic | newPoolPanic => trivial

lemma HandshakePc.Added.respond {faults : List (Option Fault)} (hi : pc.Added n db)
    (h : req.respond host faults pc db = (pc', db')) : pc'.Added n db' := by
  induction faults generalizing pc db with
  | nil =>
      obtain ⟨rfl, rfl⟩ := Prod.mk.inj h
      exact hi
  | cons fault faults ih =>
      simp only [Request.respond] at h
      split at h
      · rename_i hstep
        exact ih (hi.step hstep) h
      · obtain ⟨rfl, rfl⟩ := Prod.mk.inj h
        exact hi

end Added

/-! ## The answer -/

section Answer

variable {host : Host} {req : Request} {now : UInt64} {connected : List Pubkey} {db db' : Database}
  {faults : List (Option Fault)}

lemma Request.respond_of_answered {pc : HandshakePc}
    (h : ∀ fault, pc.step host req db fault = none) :
    req.respond host faults pc db = (pc, db) := by
  cases faults with
  | nil => rfl
  | cons fault faults => simp [Request.respond, h]

lemma Request.verify_answered (userPubkey : Pubkey) (minerId : Int64) (fault : Option Fault) :
    (req.verify host userPubkey minerId).step host req db fault = none := by
  rw [Request.verify]
  split
  · split <;> rfl
  · rfl

lemma Request.authorize_answered (userPubkey : Pubkey) (miner : Miner) (fault : Option Fault) :
    (req.authorize host userPubkey miner).step host req db fault = none := by
  rw [Request.authorize]
  split
  · exact Request.verify_answered _ _ _
  · rfl

/-- Without a database the handler opens with its answer. -/
lemma Request.open_answered (h : host.poweredByDbms ≠ .sqlite) (fault : Option Fault) :
    (req.open host now connected).step host req db fault = none := by
  rw [Request.open]
  split
  · rfl
  · split
    · rfl
    · split
      · rfl
      · exact Request.verify_answered _ _ _

/-- **Rejected handshakes.**  A request turned down for its signature has left the tables as they
were if and only if the server runs without a database or the first lookup went through and found
the miner. -/
theorem rejectedUnchanged {why : Rejection}
    (hrun : req.respond host faults (req.open host now connected) db = (.rejected why, db'))
    (hwhy : why.ofSignature = true) :
    SameTables db db' ↔ req.Known host faults db := by
  by_cases hsql : host.poweredByDbms = .sqlite
  · rcases Request.open_sqlite hsql req now connected with ⟨userPubkey, hopen⟩ | hopen | hopen
    · rw [hopen] at hrun
      cases faults with
      | nil => cases hrun
      | cons fault faults =>
          cases hlookup : db.getMinerByPubkeyStr fault req.username with
          | ok miner =>
              simp only [Request.respond, HandshakePc.step, hlookup] at hrun
              rw [Request.respond_of_answered (Request.authorize_answered _ _)] at hrun
              obtain ⟨-, rfl⟩ := Prod.mk.inj hrun
              obtain ⟨rfl, hmem, hpubkey⟩ := Database.getMiner_eq_ok hlookup
              exact iff_of_true ⟨rfl, rfl, rfl⟩ fun _ => ⟨rfl, miner, hmem, hpubkey⟩
          | error e =>
              simp only [Request.respond, HandshakePc.step, hlookup] at hrun
              have hadded : (if e.saysMissing = true then .addMiner userPubkey
                  else HandshakePc.rejected .internalServerError).Added db.miners.length db := by
                split
                · exact le_rfl
                · exact fun h => by cases h
              have hlt := hadded.respond hrun hwhy
              refine iff_of_false ?_ ?_
              · intro hsame
                rw [hsame.miners] at hlt
                exact lt_irrefl _ hlt
              · intro hknown
                obtain ⟨hfault, hminer⟩ := hknown hsql
                obtain rfl : fault = none := by simpa using hfault
                obtain ⟨miner, hok⟩ := Database.getMiner_of_mem hminer
                rw [hok] at hlookup
                cases hlookup
    · rw [hopen, Request.respond_of_answered fun _ => rfl] at hrun
      cases hrun
      cases hwhy
    · rw [hopen, Request.respond_of_answered fun _ => rfl] at hrun
      cases hrun
      cases hwhy
  · rw [Request.respond_of_answered (Request.open_answered hsql)] at hrun
    obtain ⟨-, rfl⟩ := Prod.mk.inj hrun
    exact iff_of_true ⟨rfl, rfl, rfl⟩ fun h => absurd h hsql

end Answer

/-- A registered miner with a wrong signature is turned down and nothing changes. -/
theorem rejectedUnchanged_registered :
    SameTables Replay.registered Replay.registered ∧
      Replay.forgedRequest.respond Replay.host [none]
        (Replay.forgedRequest.open Replay.host 110 []) Replay.registered =
      (.rejected .sigVerificationFailed, Replay.registered) := by
  have hrun : Replay.forgedRequest.respond Replay.host [none]
      (Replay.forgedRequest.open Replay.host 110 []) Replay.registered =
    (.rejected .sigVerificationFailed, Replay.registered) := by decide +kernel
  exact ⟨(rejectedUnchanged hrun rfl).mpr (by decide +kernel), hrun⟩

/-- Whoever knows a key can have it registered. -/
theorem not_rejectedUnchanged :
    ¬ ∀ host req now connected faults db db' why,
      Request.respond host req faults (Request.open host req now connected) db =
        (.rejected why, db') → why.ofSignature = true → SameTables db db' := by
  intro hall
  have hsame := hall Replay.host Replay.forgedRequest 110 [] (List.replicate 5 none) Replay.pooled
    (Replay.forgedRequest.respond Replay.host (List.replicate 5 none)
      (Replay.forgedRequest.open Replay.host 110 []) Replay.pooled).2 .sigVerificationFailed
    (by decide +kernel) rfl
  exact absurd hsame.miners (by decide +kernel)

end OrePool
