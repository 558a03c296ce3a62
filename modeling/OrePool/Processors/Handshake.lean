import OrePool.Model.Database

/-!
# `ws_handler` and `ws_handler_v1`

A websocket request is answered by one of two handlers that differ in the client version alone.
With a SQLite database the handler makes a chain of calls before it looks at the signature: it
looks the miner up and, where there is none, inserts a row for the miner, one for the pool if that
is missing too, and one for the miner's rewards.

Between two calls other tasks may run, so a handshake is a `HandshakePc` that takes one call a
step.
-/

namespace OrePool

/-- `u64::to_le_bytes`. -/
def toLeBytes (n : UInt64) : List UInt8 :=
  (List.range 8).map fun i => (n >>> (8 * i.toUInt64)).toUInt8

/-- A request: the endpoint, the basic authorization and the query. -/
structure Request where
  version : ClientVersion
  username : String
  password : String
  timestamp : UInt64
  deriving DecidableEq

/-! ## Answers -/

/-- The reasons to turn a request down. -/
inductive Rejection
  | timestampTooOld
  | invalidPubkey
  | alreadyConnected
  | internalServerError
  | minerRecord
  | rewardsTracker
  | notAuthorized
  | sigVerificationFailed
  | invalidSignature
  deriving DecidableEq

/-- The HTTP status of the answer. -/
def Rejection.statusCode : Rejection → ℕ
  | .internalServerError => 500
  | .alreadyConnected => 429
  | _ => 401

/-- The text of the answer. -/
def Rejection.text : Rejection → String
  | .timestampTooOld =>
      "Timestamp too old. Please double check your device time sync with internet."
  | .invalidPubkey => "Invalid pubkey"
  | .alreadyConnected => "A client is already connected with that wallet"
  | .internalServerError => "Internal Server Error"
  | .minerRecord => "Failed to add miner record to database"
  | .rewardsTracker => "Failed to add miner rewards tracker to database"
  | .notAuthorized => "pubkey is not authorized to mine"
  | .sigVerificationFailed => "Sig verification failed"
  | .invalidSignature => "Invalid signature"

/-! ## The handler -/

/-- Where a handshake stands, with the locals it still needs: whether the insertion of the miner
and of the pool went through.  `accepted` ends in `handle_socket` with the connection it is
given. -/
inductive HandshakePc
  | getMiner (userPubkey : Pubkey)
  | addMiner (userPubkey : Pubkey)
  | getNewMiner (userPubkey : Pubkey) (minerAdded : Bool)
  | getPool (userPubkey : Pubkey) (miner : Miner) (minerAdded : Bool)
  | addPool (userPubkey : Pubkey) (miner : Miner) (minerAdded : Bool)
  | getNewPool (userPubkey : Pubkey) (miner : Miner) (minerAdded poolAdded : Bool)
  | addReward (userPubkey : Pubkey) (miner : Miner) (pool : Pool)
  | accepted (connection : ClientConnection)
  | rejected (why : Rejection)
  | panicked
  deriving DecidableEq

/-- The answer, once there is one: the connection the request is upgraded to, or the status and the
text of the error. -/
def HandshakePc.answer : HandshakePc → Option (Except (ℕ × String) ClientConnection)
  | .accepted connection => some (.ok connection)
  | .rejected why => some (.error (why.statusCode, why.text))
  | _ => none

/-- The signature over the timestamp, the last thing looked at. -/
def Request.verify (host : Host) (req : Request) (userPubkey : Pubkey) (minerId : Int64) :
    HandshakePc :=
  match host.signatures.fromStr req.password with
  | some signature =>
      if host.signatures.verify signature userPubkey (toLeBytes req.timestamp) then
        .accepted ⟨userPubkey, minerId, req.version⟩
      else
        .rejected .sigVerificationFailed
  | none => .rejected .invalidSignature

/-- What follows once there is a miner. -/
def Request.authorize (host : Host) (req : Request) (userPubkey : Pubkey) (miner : Miner) :
    HandshakePc :=
  if miner.enabled then req.verify host userPubkey miner.id else .rejected .notAuthorized

/-- What comes before the first call: the age of the timestamp, a difference of unsigned numbers,
and the key.  Without a database the answer is known at once; `connected` are the keys with a
connection. -/
def Request.open (host : Host) (req : Request) (now : UInt64) (connected : List Pubkey) :
    HandshakePc :=
  if 30 ≤ now - req.timestamp then
    .rejected .timestampTooOld
  else
    match host.keys.fromStr req.username with
    | none => .rejected .invalidPubkey
    | some userPubkey =>
        if host.poweredByDbms = .sqlite then .getMiner userPubkey
        else if userPubkey ∈ connected then .rejected .alreadyConnected
        else req.verify host userPubkey Int64.maxValue

/-- `ws_handler`. -/
def wsHandler (host : Host) (username password : String) (timestamp now : UInt64)
    (connected : List Pubkey) : HandshakePc :=
  Request.open host ⟨.V0, username, password, timestamp⟩ now connected

/-- `ws_handler_v1`. -/
def wsHandlerV1 (host : Host) (username password : String) (timestamp now : UInt64)
    (connected : List Pubkey) : HandshakePc :=
  Request.open host ⟨.V1, username, password, timestamp⟩ now connected

/-- A request is answered by the handler of its version. -/
lemma Request.open_eq (host : Host) (req : Request) (now : UInt64) (connected : List Pubkey) :
    req.open host now connected =
      match req.version with
      | .V0 => wsHandler host req.username req.password req.timestamp now connected
      | .V1 => wsHandlerV1 host req.username req.password req.timestamp now connected := by
  obtain ⟨version, username, password, timestamp⟩ := req
  cases version with
  | V0 => rfl
  | V1 => rfl

/-- What the password has to be. -/
def Request.Signed (host : Host) (req : Request) (userPubkey : Pubkey) : Prop :=
  ∃ signature, host.signatures.fromStr req.password = some signature ∧
    host.signatures.verify signature userPubkey (toLeBytes req.timestamp) = true

lemma Request.verify_eq_accepted {host : Host} {req : Request} {userPubkey : Pubkey}
    {minerId : Int64} {connection : ClientConnection}
    (h : req.verify host userPubkey minerId = .accepted connection) :
    req.Signed host userPubkey ∧ connection = ⟨userPubkey, minerId, req.version⟩ := by
  rw [Request.verify] at h
  split at h
  · rename_i signature hsig
    split at h
    · rename_i hverify
      exact ⟨⟨signature, hsig, hverify⟩, (HandshakePc.accepted.inj h).symm⟩
    · cases h
  · cases h

/-- The last part makes no calls. -/
lemma Request.verify_cases (host : Host) (req : Request) (userPubkey : Pubkey) (minerId : Int64) :
    (∃ connection, req.verify host userPubkey minerId = .accepted connection) ∨
      ∃ why, req.verify host userPubkey minerId = .rejected why := by
  rw [Request.verify]
  split
  · split
    · exact .inl ⟨_, rfl⟩
    · exact .inr ⟨_, rfl⟩
  · exact .inr ⟨_, rfl⟩

/-- A miner that is enabled is let in with a valid signature, as the key and the id it has. -/
lemma Request.authorize_cases (host : Host) (req : Request) (userPubkey : Pubkey) (miner : Miner) :
    (∃ why, req.authorize host userPubkey miner = .rejected why) ∨
      req.authorize host userPubkey miner = .accepted ⟨userPubkey, miner.id, req.version⟩ ∧
        miner.enabled = true ∧ req.Signed host userPubkey := by
  rw [Request.authorize]
  split
  · rename_i henabled
    rcases req.verify_cases host userPubkey miner.id with ⟨connection, h⟩ | ⟨why, h⟩
    · obtain ⟨hsigned, rfl⟩ := Request.verify_eq_accepted h
      exact .inr ⟨h, henabled, hsigned⟩
    · exact .inl ⟨why, h⟩
  · exact .inl ⟨_, rfl⟩

/-- With a database the handler opens with the first lookup, or with a rejection that has nothing
to do with the signature. -/
lemma Request.open_sqlite {host : Host} (h : host.poweredByDbms = .sqlite) (req : Request)
    (now : UInt64) (connected : List Pubkey) :
    (∃ userPubkey, req.open host now connected = .getMiner userPubkey) ∨
      req.open host now connected = .rejected .timestampTooOld ∨
      req.open host now connected = .rejected .invalidPubkey := by
  rw [Request.open]
  split
  · exact .inr (.inl rfl)
  · split
    · exact .inr (.inr rfl)
    · exact .inl ⟨_, rfl⟩

lemma Request.open_eq_getMiner {host : Host} {req : Request} {now : UInt64}
    {connected : List Pubkey} {userPubkey : Pubkey}
    (h : req.open host now connected = .getMiner userPubkey) :
    now - req.timestamp < 30 ∧ host.keys.fromStr req.username = some userPubkey := by
  rw [Request.open] at h
  split at h
  · cases h
  · rename_i hage
    split at h
    · cases h
    · rename_i key hkey
      split at h
      · obtain rfl := HandshakePc.getMiner.inj h
        exact ⟨by simpa using hage, hkey⟩
      · split at h
        · cases h
        · rcases req.verify_cases host key Int64.maxValue with ⟨_, hverify⟩ | ⟨_, hverify⟩
          · cases hverify.symm.trans h
          · cases hverify.symm.trans h

/-- Without a database the answer is known at once. -/
lemma Request.open_without {host : Host} (hdb : host.poweredByDbms ≠ .sqlite) (req : Request)
    (now : UInt64) (connected : List Pubkey) :
    (∃ connection, req.open host now connected = .accepted connection) ∨
      ∃ why, req.open host now connected = .rejected why := by
  rw [Request.open]
  split
  · exact .inr ⟨_, rfl⟩
  · split
    · exact .inr ⟨_, rfl⟩
    · split
      · exact .inr ⟨_, rfl⟩
      · exact req.verify_cases host _ Int64.maxValue

/-- What comes before the first call lets a request through only without a database, and only where
the key has no connection. -/
lemma Request.open_eq_accepted {host : Host} {req : Request} {now : UInt64}
    {connected : List Pubkey} {connection : ClientConnection}
    (h : req.open host now connected = .accepted connection) :
    host.poweredByDbms ≠ .sqlite ∧ now - req.timestamp < 30 ∧
      ∃ userPubkey, host.keys.fromStr req.username = some userPubkey ∧
        userPubkey ∉ connected ∧ req.Signed host userPubkey ∧
        connection = ⟨userPubkey, Int64.maxValue, req.version⟩ := by
  rw [Request.open] at h
  split at h
  · cases h
  · rename_i hage
    split at h
    · cases h
    · rename_i userPubkey hkey
      split at h
      · cases h
      · rename_i hdb
        split at h
        · cases h
        · rename_i hfree
          exact ⟨hdb, by simpa using hage, userPubkey, hkey, hfree, Request.verify_eq_accepted h⟩

/-- The errors that are taken to mean that there is no such record. -/
def DatabaseError.saysMissing : DatabaseError → Bool
  | .queryFailed | .interactionFailed => true
  | .failedToGetConnectionFromPool | .failedToUpdateRow | .failedToInsertRow => false

/-- With a miner and a pool: the rewards tracker, unless an insertion has failed. -/
def HandshakePc.register (userPubkey : Pubkey) (miner : Miner) (pool : Pool)
    (minerAdded poolAdded : Bool) : HandshakePc :=
  if minerAdded && poolAdded then .addReward userPubkey miner pool else .rejected .minerRecord

/-- One call. -/
def HandshakePc.step (host : Host) (req : Request) (db : Database) (fault : Option Fault) :
    HandshakePc → Option (HandshakePc × Database)
  | .getMiner userPubkey =>
      match db.getMinerByPubkeyStr fault req.username with
      | .ok miner => some (req.authorize host userPubkey miner, db)
      | .error e =>
          some (if e.saysMissing then .addMiner userPubkey else .rejected .internalServerError, db)
  | .addMiner userPubkey =>
      let added := db.addNewMiner fault (host.keys.toString userPubkey) true "Enrolled"
      some (.getNewMiner userPubkey added.2.isOk, added.1)
  | .getNewMiner userPubkey minerAdded =>
      match db.getMinerByPubkeyStr fault (host.keys.toString userPubkey) with
      | .ok miner => some (.getPool userPubkey miner minerAdded, db)
      | .error _ => some (.panicked, db)
  | .getPool userPubkey miner minerAdded =>
      match db.getPoolByAuthorityPubkey fault host.wallet with
      | .ok pool => some (.register userPubkey miner pool minerAdded true, db)
      | .error e =>
          some (if e.saysMissing then .addPool userPubkey miner minerAdded
            else .rejected .internalServerError, db)
  | .addPool userPubkey miner minerAdded =>
      let added := db.addNewPool fault host.wallet host.walletProof
      some (.getNewPool userPubkey miner minerAdded added.2.isOk, added.1)
  | .getNewPool userPubkey miner minerAdded poolAdded =>
      match db.getPoolByAuthorityPubkey fault host.wallet with
      | .ok pool => some (.register userPubkey miner pool minerAdded poolAdded, db)
      | .error _ => some (.panicked, db)
  | .addReward userPubkey miner pool =>
      let added := db.addNewReward fault ⟨miner.id, pool.id⟩
      some (if added.2.isOk then req.authorize host userPubkey miner else .rejected .rewardsTracker,
        added.1)
  | .accepted _ | .rejected _ | .panicked => none

/-- A handshake that has the database to itself, with what goes wrong around each call. -/
def Request.respond (host : Host) (req : Request) :
    List (Option Fault) → HandshakePc → Database → HandshakePc × Database
  | [], pc, db => (pc, db)
  | fault :: faults, pc, db =>
      match pc.step host req db fault with
      | some (pc', db') => req.respond host faults pc' db'
      | none => (pc, db)

end OrePool
