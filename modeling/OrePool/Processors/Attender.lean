import OrePool.Model.Shared

/-!
# The landed-tx attender

The task `pool_submission_processor` spawns when a mine transaction is reported successful.  It
polls the tracked proof until the challenge has moved, at most `CHECK_LIMIT` times, asking the
RPC node as well after each look in vain.  What it does next depends on which of the two showed
the new challenge first:

* `app_proof` did: it looks after the challenge rows, reads the new balance, snapshots the
  contributions, sends them for payment, writes the proof back and resets the epoch;
* the RPC node did: it stores that proof and resets the epoch.

Either way the submission loop is released through a oneshot channel.  After `CHECK_LIMIT` looks
the task just ends, which drops the sender.
-/

namespace OrePool

/-- How an attender ended. -/
inductive AttenderEnd
  | gaveUp
  | byRpc
  | byTracker
  deriving DecidableEq

/-- Where an attender stands, with the locals it still needs.  The first group is the search, the
second the RPC branch, the third the branch of an updated `app_proof`. -/
inductive AttenderPc
  | check
  | getProof
  | rpcWriteProof (p : Proof)
  | rpcReadProof (p : Proof)
  | rpcResetNonce (p latestProof : Proof)
  | rpcResetEpoch (p latestProof : Proof)
  | rpcUnpause (latestProof : Proof)
  | rpcSignal (latestProof : Proof)
  | rpcAddChallenge (latestProof : Proof)
  | rpcFindChallenge (latestProof : Proof)
  | getOldChallenge (latestProof : Proof)
  | addOldChallenge (latestProof : Proof)
  | findOldChallenge (latestProof : Proof)
  | addNewChallenge (id : Int64) (latestProof : Proof)
  | findNewChallenge (id : Int64) (latestProof : Proof)
  | readLatest (id : Int64)
  | snapshot (id : Int64) (latestProof : Proof)
  | sendMineSuccess (id : Int64) (latestProof : Proof) (contributions : Contributions)
  | writeProof (latestProof : Proof)
  | resetNonce (latestProof : Proof)
  | resetEpoch (latestProof : Proof)
  | unpause
  | signal
  | ended (how : AttenderEnd)
  deriving DecidableEq

/-- A landed-tx attender. -/
structure Attender where
  landing : Landing
  numChecking : ℕ
  pc : AttenderPc
  deriving DecidableEq

/-- The attender of a landing as it is spawned. -/
def Attender.spawn (l : Landing) : Attender := ⟨l, 0, .check⟩

/-- The proof the round was submitted for. -/
def Attender.oldProof (a : Attender) : Proof := a.landing.round.oldProof

/-- `total_hashpower`, summed over the snapshot. -/
def totalHashpower (contributions : Contributions) : UInt64 :=
  contributions.entries.foldl (fun total contribution => total + contribution.2.hashpower) 0

/-- The message sent for payment. -/
def Attender.mineSuccess (a : Attender) (id : Int64) (latestProof : Proof)
    (contributions : Contributions) : MessageInternalMineSuccess where
  difficulty := a.landing.difficulty
  totalBalance := latestProof.balance
  rewards := (latestProof.balance - a.oldProof.balance).toInt64
  challengeId := id
  challenge := a.oldProof.challenge
  bestNonce := a.landing.solution.nonce
  totalHashpower := totalHashpower contributions
  oreConfig := a.landing.oreConfig
  contributions := contributions

/-- Moves to another position. -/
def Attender.goto (a : Attender) (pc : AttenderPc) : Attender := { a with pc := pc }

/-- One atomic section of an attender. -/
def Attender.step (srv : Server) (sh : Shared) (reply : Reply) (a : Attender) :
    Option (Attender × Effect) :=
  match a.pc with
  | .check =>
      if a.oldProof.challenge = sh.appProof.challenge then
        let a := { a with numChecking := a.numChecking + 1 }
        if CHECK_LIMIT ≤ a.numChecking then
          some (a.goto (.ended .gaveUp), .none)
        else
          some (a.goto .getProof, .none)
      else if srv.poweredByDbms = .sqlite then
        some (a.goto (.getOldChallenge sh.appProof), .none)
      else
        some (a.goto (.readLatest Int64.maxValue), .none)
  | .getProof =>
      match reply with
      | .proof (some p) =>
          if a.oldProof.challenge ≠ p.challenge then
            some (a.goto (.rpcWriteProof p), .none)
          else
            some (a.goto .check, .none)
      | .proof none => some (a.goto .check, .none)
      | _ => none
  -- the RPC node was first
  | .rpcWriteProof p => some (a.goto (.rpcReadProof p), .writeProof p)
  | .rpcReadProof p => some (a.goto (.rpcResetNonce p sh.appProof), .none)
  | .rpcResetNonce p latestProof => some (a.goto (.rpcResetEpoch p latestProof), .resetNonce)
  | .rpcResetEpoch p latestProof =>
      some (a.goto (.rpcUnpause latestProof),
        .resetEpoch p.challenge true sh.epochHashes.contributions)
  | .rpcUnpause latestProof => some (a.goto (.rpcSignal latestProof), .setPaused false)
  | .rpcSignal latestProof =>
      if srv.poweredByDbms = .sqlite then
        some (a.goto (.rpcAddChallenge latestProof), .none)
      else
        some (a.goto (.ended .byRpc), .none)
  | .rpcAddChallenge latestProof =>
      match reply with
      | .db true => some (a.goto (.ended .byRpc), .addChallenge latestProof.challenge)
      | .db false => some (a.goto (.rpcFindChallenge latestProof), .none)
      | _ => none
  | .rpcFindChallenge latestProof =>
      match reply with
      | .db ok =>
          if ok ∧ (sh.getChallenge latestProof.challenge).isSome then
            some (a.goto (.ended .byRpc), .none)
          else
            some (a.goto (.rpcAddChallenge latestProof), .none)
      | _ => none
  -- the tracked proof was first: the id of the old challenge row, inserting it if necessary
  | .getOldChallenge latestProof =>
      match reply with
      | .db ok =>
          match (if ok then sh.getChallenge a.oldProof.challenge else none) with
          | some id => some (a.goto (.addNewChallenge id latestProof), .none)
          | none => some (a.goto (.addOldChallenge latestProof), .none)
      | _ => none
  | .addOldChallenge latestProof =>
      match reply with
      | .db true => some (a.goto (.getOldChallenge latestProof), .addChallenge a.oldProof.challenge)
      | .db false => some (a.goto (.findOldChallenge latestProof), .none)
      | _ => none
  | .findOldChallenge latestProof =>
      match reply with
      | .db ok =>
          if ok ∧ (sh.getChallenge a.oldProof.challenge).isSome then
            some (a.goto (.getOldChallenge latestProof), .none)
          else
            some (a.goto (.addOldChallenge latestProof), .none)
      | _ => none
  | .addNewChallenge id latestProof =>
      match reply with
      | .db true => some (a.goto (.readLatest id), .addChallenge latestProof.challenge)
      | .db false => some (a.goto (.findNewChallenge id latestProof), .none)
      | _ => none
  | .findNewChallenge id latestProof =>
      match reply with
      | .db ok =>
          if ok ∧ (sh.getChallenge latestProof.challenge).isSome then
            some (a.goto (.readLatest id), .none)
          else
            some (a.goto (.addNewChallenge id latestProof), .none)
      | _ => none
  -- payment, then the reset
  | .readLatest id => some (a.goto (.snapshot id sh.appProof), .none)
  | .snapshot id latestProof =>
      some (a.goto (.sendMineSuccess id latestProof sh.epochHashes.contributions), .none)
  | .sendMineSuccess id latestProof contributions =>
      some (a.goto (.writeProof latestProof),
        .sendMineSuccess (a.mineSuccess id latestProof contributions))
  | .writeProof latestProof => some (a.goto (.resetNonce latestProof), .writeProof latestProof)
  | .resetNonce latestProof => some (a.goto (.resetEpoch latestProof), .resetNonce)
  | .resetEpoch latestProof =>
      some (a.goto .unpause,
        .resetEpoch latestProof.challenge true sh.epochHashes.contributions)
  | .unpause => some (a.goto .signal, .setPaused false)
  | .signal => some (a.goto (.ended .byTracker), .none)
  | .ended _ => none

/-! ## The oneshot channel to the submission loop -/

/-- What the receiving end of the channel sees. -/
inductive Oneshot
  | pending
  | sent
  | dropped
  deriving DecidableEq

/-- The channel after the attender has come to a position. -/
def AttenderPc.oneshot : AttenderPc → Oneshot
  | .rpcAddChallenge _ => .sent
  | .rpcFindChallenge _ => .sent
  | .ended .byRpc => .sent
  | .ended .byTracker => .sent
  | .ended .gaveUp => .dropped
  | _ => .pending

/-- An attender holds its round open while the channel is pending. -/
def Attender.active (a : Attender) : Prop := a.pc.oneshot = .pending

instance (a : Attender) : Decidable a.active := inferInstanceAs (Decidable (_ = _))

end OrePool
