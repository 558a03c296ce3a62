import OrePool.Model.Utils

/-!
# Shared memory

The server's tasks meet in a handful of locks, one atomic flag and one database table.  `Shared`
is that memory and `Effect` lists everything one atomic section (the code between two awaits or
two lock acquisitions) can do to the outside: write the memory, send a message, spawn a task.
A task's step reads `Shared` and answers with the task's next state and one `Effect`;
`Shared.apply` is the only place where the memory changes.

The fields of `Ghost` are bookkeeping of this development: no step reads them.
-/

namespace OrePool

/-- A solution on its way through a `BestSolution` task, with what the task has read for it:
the range its nonce was found in, the connection found under the sender's address, and the
challenge it was checked against. -/
structure Submission where
  pubkey : Pubkey
  solution : Solution
  nonceRange : NonceRange
  conn : ClientConnection
  challenge : Challenge
  diff : UInt32
  deriving DecidableEq

/-- Hashpower of a difficulty, capped: `MIN_HASHPOWER * 2u64.pow(diff - MIN_DIFF)`. -/
def hashpower (diff : UInt32) : UInt64 :=
  let hashpower := MIN_HASHPOWER * 2 ^ (diff - MIN_DIFF).toNat
  if 655360 < hashpower then 655360 else hashpower

/-- The map entry a submission turns into. -/
def Submission.contribution (sub : Submission) : InternalMessageContribution where
  minerId := sub.conn.minerId
  suppliedDiff := sub.diff
  suppliedNonce := sub.solution.nonce
  hashpower := hashpower sub.diff

/-- A mission handed to a spawned task: send the message, then record the range.  `gen` is the
value of `Ghost.nonceGen` when the range was taken. -/
structure Mission where
  addr : SocketAddr
  pubkey : Pubkey
  msg : ServerMessageStartMining
  gen : ℕ
  deriving DecidableEq

/-- The range a mission's message names. -/
def Mission.nonceRange (m : Mission) : NonceRange :=
  ⟨m.msg.nonceRangeStart, m.msg.nonceRangeEnd⟩

/-- What the submission loop fixes for one round: the proof and the best solution it submits
for.  `id` numbers the rounds. -/
structure Round where
  id : ℕ
  oldProof : Proof
  bestSolution : Option Solution
  numContributions : ℕ
  deriving DecidableEq

/-- A mine transaction sent to the network in some round. -/
structure MineTx where
  round : ℕ
  solution : Solution
  landed : Bool
  deriving DecidableEq

/-- What the attender of a landed transaction is started with. -/
structure Landing where
  round : Round
  solution : Solution
  difficulty : UInt32
  oreConfig : Option Config
  deriving DecidableEq

/-- Why a `BestSolution` task turns a frame away at the range table. -/
inductive Refusal
  | rangeNotSet
  | outOfRange
  deriving DecidableEq

/-- Bookkeeping: how often `app_nonce` was reset, the count at which the current contributions
map was opened, and the challenge of the epoch the last reset opened. -/
structure Ghost where
  nonceGen : ℕ
  epochGen : ℕ
  epoch : Challenge
  deriving DecidableEq

/-- The memory shared by all tasks.  `challenges` is the table of that name, a row's `id` being
its position counted from one. -/
structure Shared where
  appProof : Proof
  appNonce : UInt64
  epochHashes : EpochHashes
  paused : Bool
  clientNonceRanges : HashMap Pubkey NonceRange
  readyClients : Finset SocketAddr
  sockets : HashMap SocketAddr ClientConnection
  challenges : List Challenge
  ghost : Ghost

/-- What one atomic section does to the rest of the system. -/
inductive Effect
  | none
  /-- `*app_proof = p`. -/
  | writeProof (p : Proof)
  | insertSocket (addr : SocketAddr) (conn : ClientConnection)
  | removeSocket (addr : SocketAddr)
  | insertReady (addr : SocketAddr)
  | removeReady (addr : SocketAddr)
  /-- `*nonce += 4_000_000`. -/
  | takeNonce
  | spawnMission (m : Mission)
  /-- A `StartMining` message leaves for a client. -/
  | sendMission (m : Mission)
  | insertRange (pubkey : Pubkey) (range : NonceRange)
  | refuse (pubkey : Pubkey) (why : Refusal)
  /-- A solution passed the checks and counts for the epoch. -/
  | accept (sub : Submission)
  | insertContribution (sub : Submission)
  /-- The miner already supplied as much: the submission is dropped. -/
  | discard (sub : Submission)
  | setPaused (paused : Bool)
  | sendTx (tx : MineTx)
  | spawnAttender (l : Landing)
  | sendMineSuccess (msg : MessageInternalMineSuccess)
  | resetNonce
  /-- Clears best hash and contributions (`cleared`), setting `epoch_hashes.challenge` when
  `stored`; `opened` is the challenge of the epoch that begins. -/
  | resetEpoch (opened : Challenge) (stored : Bool) (cleared : Contributions)
  | addChallenge (challenge : Challenge)
  deriving DecidableEq

/-- The insert of a `BestSolution` task, under the write lock of `epoch_hashes`. -/
def EpochHashes.insertContribution (e : EpochHashes) (sub : Submission) : EpochHashes where
  challenge := e.challenge
  contributions := e.contributions.insert sub.pubkey sub.contribution
  bestHash :=
    if e.bestHash.difficulty < sub.diff then ⟨some sub.solution, sub.diff⟩ else e.bestHash

/-- The three reset sites: best hash and contributions are emptied, the challenge is replaced
at two of them. -/
def EpochHashes.reset (e : EpochHashes) (opened : Challenge) (stored : Bool) : EpochHashes where
  challenge := if stored then opened else e.challenge
  contributions := ∅
  bestHash := ⟨none, 0⟩

/-- How an effect changes the shared memory. -/
def Shared.apply (sh : Shared) : Effect → Shared
  | .writeProof p => { sh with appProof := p }
  | .insertSocket addr conn => { sh with sockets := sh.sockets.insert addr conn }
  | .removeSocket addr => { sh with sockets := sh.sockets.erase addr }
  | .insertReady addr => { sh with readyClients := insert addr sh.readyClients }
  | .removeReady addr => { sh with readyClients := sh.readyClients.erase addr }
  | .takeNonce => { sh with appNonce := missionEnd sh.appNonce }
  | .insertRange pubkey range =>
      { sh with clientNonceRanges := sh.clientNonceRanges.insert pubkey range }
  | .insertContribution sub =>
      { sh with epochHashes := sh.epochHashes.insertContribution sub }
  | .setPaused paused => { sh with paused := paused }
  | .resetNonce =>
      { sh with appNonce := 0, ghost := { sh.ghost with nonceGen := sh.ghost.nonceGen + 1 } }
  | .resetEpoch opened stored _ =>
      { sh with
        epochHashes := sh.epochHashes.reset opened stored
        ghost := { sh.ghost with epochGen := sh.ghost.nonceGen, epoch := opened } }
  | .addChallenge challenge => { sh with challenges := sh.challenges ++ [challenge] }
  | _ => sh

/-- `get_challenge_by_challenge`: the `id` of the first row with this challenge. -/
def Shared.getChallenge (sh : Shared) (challenge : Challenge) : Option Int64 :=
  (sh.challenges.findIdx? (· = challenge)).map fun i => Int64.ofNat (i + 1)

/-! ## Answers from outside

What the surroundings decide at a step: the result of an RPC or database call, the clock, the
order in which a hash set is iterated.
-/

/-- How `send_and_confirm` ends, by what the attempt loop does with it: success; the program's
`NeedsReset` or `HashInvalid` error; another custom program error; anything else, a timeout
included. -/
inductive SendOutcome
  | ok
  | needsReset
  | hashInvalid
  | customError
  | otherError
  deriving DecidableEq

inductive Reply
  /-- Nothing from outside is needed. -/
  | go
  /-- `try_lock` failed. -/
  | busy
  | clock (unixTimestamp : Int64)
  | proof (p : Option Proof)
  | configAndProof (cp : Option (Config × Proof))
  | blockhash (ok : Bool)
  | outcome (o : SendOutcome)
  /-- Whether a database call went through. -/
  | db (ok : Bool)
  | order (clients : List SocketAddr)
  deriving DecidableEq

end OrePool
