import OrePool.Processors.Attender

/-!
# `pool_submission_processor`

The loop that submits.  It reads the tracked proof, waits until its cutoff has passed by the
buffer time, captures the best solution, pauses new missions and makes up to `SUBMIT_LIMIT`
attempts.  On a reported success it spawns the attender and waits for it; when no attempt
succeeded it refreshes the proof, resets the epoch and resumes.

The fee and the other instructions of the transaction leave no trace in the shared memory and
are not part of this loop's model.
-/

namespace OrePool

/-- Where the submission loop stands, with the locals it still needs. -/
inductive SubmissionPc
  | readOldProof
  | readClock (oldProof : Proof)
  | readBest (oldProof : Proof)
  | readSockets (oldProof : Proof) (solution : Option Solution)
  | capture (oldProof : Proof) (numActiveMiners : ℕ)
  | pause (r : Round)
  | loadConfig (r : Round) (attempt : ℕ)
  | clock (r : Round) (attempt : ℕ) (solution : Solution) (oreConfig : Option Config)
  | send (r : Round) (attempt : ℕ) (solution : Solution) (oreConfig : Option Config)
  | confirm (r : Round) (attempt : ℕ) (solution : Solution) (oreConfig : Option Config) (tx : ℕ)
  | await (r : Round) (attender : ℕ)
  | failGetProof (r : Round)
  | failWriteProof (r : Round) (p : Proof)
  | failResetNonce (r : Round)
  | failResetEpoch (r : Round)
  | failUnpause (r : Round)
  deriving DecidableEq

/-- The submission loop: its position, the waiting counter that survives its iterations, and the
number of rounds begun. -/
structure Submitter where
  pc : SubmissionPc
  numWaiting : ℕ
  rounds : ℕ
  deriving DecidableEq

/-- Moves to another position. -/
def Submitter.goto (sub : Submitter) (pc : SubmissionPc) : Submitter := { sub with pc := pc }

/-- The next iteration of `for i in 0..SUBMIT_LIMIT`; past the last one nothing has landed. -/
def Submitter.nextAttempt (sub : Submitter) (r : Round) (attempt : ℕ) : Submitter :=
  sub.goto (if attempt + 1 < SUBMIT_LIMIT then .loadConfig r (attempt + 1) else .failGetProof r)

/-- One atomic section of the submission loop.  `attenders` and `txs` are read for the awaited
attender's channel and for the numbers the next spawn or send will get. -/
def Submitter.step (srv : Server) (sh : Shared) (attenders : List Attender) (txs : List MineTx)
    (reply : Reply) (sub : Submitter) : Option (Submitter × Effect) :=
  match sub.pc with
  | .readOldProof =>
      match reply with
      | .busy => some (sub, .none)
      | _ => some (sub.goto (.readClock sh.appProof), .none)
  | .readClock oldProof =>
      match reply with
      | .clock unixTimestamp =>
          let cutoff := srv.args.cutoff oldProof unixTimestamp
          if cutoff ≤ 0 ∧ cutoff ≤ -srv.args.bufferTime.toInt64 then
            some (sub.goto (.readBest oldProof), .none)
          else
            some (sub.goto .readOldProof, .none)
      | _ => none
  | .readBest oldProof =>
      some (sub.goto (.readSockets oldProof sh.epochHashes.bestHash.solution), .none)
  | .readSockets oldProof solution =>
      if solution.isSome then
        some (sub.goto (.capture oldProof sh.sockets.entries.length), .none)
      else
        some (sub.goto .readOldProof, .none)
  | .capture oldProof numActiveMiners =>
      let numContributions := sh.epochHashes.contributions.entries.length
      if numContributions ≠ numActiveMiners ∧ sub.numWaiting < 6 then
        some ({ sub with pc := .readOldProof, numWaiting := sub.numWaiting + 1 }, .none)
      else
        let r := ⟨sub.rounds, oldProof, sh.epochHashes.bestHash.solution, numContributions⟩
        some ({ sub with pc := .pause r, numWaiting := 0 }, .none)
  | .pause r =>
      some ({ sub with pc := .loadConfig r 0, rounds := sub.rounds + 1 }, .setPaused true)
  | .loadConfig r attempt =>
      match r.bestSolution with
      | none => some (sub.nextAttempt r attempt, .none)
      | some solution =>
          match reply with
          | .configAndProof (some (config, loadedProof)) =>
              if srv.drillx.isValid solution loadedProof.challenge then
                some (sub.goto (.clock r attempt solution (some config)), .none)
              else
                -- "SOLUTION IS NOT VALID ANYMORE": out of the attempt loop
                some (sub.goto (.failGetProof r), .none)
          | .configAndProof none => some (sub.goto (.clock r attempt solution none), .none)
          | _ => none
  | .clock r attempt solution oreConfig =>
      match reply with
      | .clock _ => some (sub.goto (.send r attempt solution oreConfig), .none)
      | _ => none
  | .send r attempt solution oreConfig =>
      match reply with
      | .blockhash true =>
          some (sub.goto (.confirm r attempt solution oreConfig txs.length),
            .sendTx ⟨r.id, solution, false⟩)
      | .blockhash false => some (sub.nextAttempt r attempt, .none)
      | _ => none
  | .confirm r attempt solution oreConfig _ =>
      match reply with
      | .outcome .ok =>
          some (sub.goto (.await r attenders.length),
            .spawnAttender ⟨r, solution, srv.drillx.difficulty solution, oreConfig⟩)
      | .outcome .hashInvalid =>
          -- only the RPC route looks into the error
          if srv.args.sendTpuMineTx then
            some (sub.nextAttempt r attempt, .none)
          else
            some (sub.goto (.failGetProof r), .none)
      | .outcome _ => some (sub.nextAttempt r attempt, .none)
      | _ => none
  | .await _ attender =>
      match attenders[attender]? with
      | some a => if a.active then none else some (sub.goto .readOldProof, .none)
      | none => none
  -- no attempt succeeded
  | .failGetProof r =>
      match reply with
      | .proof (some p) => some (sub.goto (.failWriteProof r p), .none)
      | .proof none => some (sub.goto (.failResetNonce r), .none)
      | _ => none
  | .failWriteProof r p => some (sub.goto (.failResetNonce r), .writeProof p)
  | .failResetNonce r => some (sub.goto (.failResetEpoch r), .resetNonce)
  | .failResetEpoch r =>
      some (sub.goto (.failUnpause r),
        .resetEpoch sh.appProof.challenge false sh.epochHashes.contributions)
  | .failUnpause _ => some (sub.goto .readOldProof, .setPaused false)

/-- The round that has been paused for and is not over yet. -/
def SubmissionPc.round : SubmissionPc → Option Round
  | .loadConfig r _ => some r
  | .clock r _ _ _ => some r
  | .send r _ _ _ => some r
  | .confirm r _ _ _ _ => some r
  | .await r _ => some r
  | .failGetProof r => some r
  | .failWriteProof r _ => some r
  | .failResetNonce r => some r
  | .failResetEpoch r => some r
  | .failUnpause r => some r
  | _ => none

end OrePool
