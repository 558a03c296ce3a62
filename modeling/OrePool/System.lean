import OrePool.Core.Machine
import OrePool.Processors.ClientMessage
import OrePool.Processors.ProcessMessage
import OrePool.Processors.ReadyClients
import OrePool.Processors.PoolSubmission

/-!
# The running server

`Sys` puts the tasks, their shared memory and the chain next to each other; `Action` says which
of them moves.  Every interleaving of the processors of `main.rs` is a run of `machine`.

Two components are not the server's own:

* `Chain` holds the versions the pool's proof account has gone through and the transactions sent.
  A transaction lands only while its solution is valid for the current challenge, and landing
  puts up another challenge.
* `journal` records, newest first, who did what.  No step reads it; results about messages sent
  and epochs gone by are stated on it.

What an RPC node or a websocket delivers is part of the action and is not restricted here.
`Honest` is the condition that it agrees with the chain.
-/

namespace OrePool

open Interleaving

/-! ## The chain -/

/-- The pool's proof account through time, oldest version first, the version the websocket
delivers next, and the transactions sent. -/
structure Chain where
  versions : List Proof
  nextNotified : ℕ
  txs : List MineTx

/-- The proof account now. -/
def Chain.current (c : Chain) : Option Proof := c.versions.getLast?

/-- The challenge a solution has to be valid for now. -/
def Chain.challenge (c : Chain) : Option Challenge := c.current.map Proof.challenge

/-! ## The state -/

/-- Who takes an atomic section. -/
inductive Actor
  | tracker
  | connections
  | clients
  | ready (i : ℕ)
  | best (i : ℕ)
  | missions
  | mission (i : ℕ)
  | submission
  | attender (i : ℕ)
  | chain
  deriving DecidableEq

/-- What was done, and by whom. -/
abbrev Event := Actor × Effect

/-- The state of the whole system.  The lists of tasks only grow; a task keeps its number. -/
structure Sys where
  shared : Shared
  readyTasks : List (Option SocketAddr)
  bestTasks : List BestTask
  missionLoop : ReadyPc
  missions : List MissionTask
  submission : Submitter
  attenders : List Attender
  chain : Chain
  journal : List Event

/-- The task an effect spawns, if any, for each kind of task, and the transaction it sends. -/
def Effect.mission : Effect → List MissionTask
  | .spawnMission m => [⟨m, .send⟩]
  | _ => []

def Effect.attender : Effect → List Attender
  | .spawnAttender l => [Attender.spawn l]
  | _ => []

def Effect.tx : Effect → List MineTx
  | .sendTx tx => [tx]
  | _ => []

/-- Carries out an effect: shared memory, spawned tasks, sent transactions, journal. -/
def Sys.perform (s : Sys) (who : Actor) (e : Effect) : Sys where
  shared := s.shared.apply e
  readyTasks := s.readyTasks
  bestTasks := s.bestTasks
  missionLoop := s.missionLoop
  missions := s.missions ++ e.mission
  submission := s.submission
  attenders := s.attenders ++ e.attender
  chain := { s.chain with txs := s.chain.txs ++ e.tx }
  journal := (who, e) :: s.journal

/-! ## Steps -/

/-- Which task moves, with what the surroundings decide. -/
inductive Action
  /-- The websocket delivers version `k` of the proof account. -/
  | notify (k : ℕ) (p : Proof)
  /-- `handle_socket` registers a connection. -/
  | connect (addr : SocketAddr) (pubkey : Pubkey) (version : ClientVersion)
  /-- The entry of a connection is removed, by whichever task. -/
  | disconnect (addr : SocketAddr)
  /-- A websocket message of connection `who` is processed and, if it comes to that, received by
  `client_message_processor`. -/
  | receive (who : SocketAddr) (m : Message)
  | ready (i : ℕ)
  | best (i : ℕ)
  | missions (reply : Reply)
  | mission (i : ℕ)
  | submission (reply : Reply)
  | attender (i : ℕ) (reply : Reply)
  /-- Transaction `i` lands and leaves the account as `p`. -/
  | land (i : ℕ) (p : Proof)
  /-- The account changes but for its challenge: a claim or a stake. -/
  | account (p : Proof)
  deriving DecidableEq

/-- The tasks `client_message_processor` spawns for what comes out of the channel. -/
def Sys.spawnFor (s : Sys) : Option ClientMessage → Sys
  | some (.ready addr) => { s with readyTasks := s.readyTasks ++ [some addr] }
  | some (.bestSolution addr solution pubkey) =>
      { s with bestTasks := s.bestTasks ++ [BestTask.spawn addr solution pubkey] }
  | _ => s

/-- A transaction has landed. -/
def MineTx.land (tx : MineTx) : MineTx := { tx with landed := true }

/-- One step of the system. -/
def Sys.step (srv : Server) (s : Sys) : Action → Option Sys
  | .notify k p =>
      some ({ s with chain := { s.chain with nextNotified := k + 1 } }.perform .tracker
        (.writeProof p))
  | .connect addr pubkey version =>
      if (s.shared.sockets.lookup addr).isSome then
        none
      else
        (srv.minerIdFor pubkey).map fun id =>
          s.perform .connections (.insertSocket addr ⟨pubkey, id, version⟩)
  | .disconnect addr => some (s.perform .connections (.removeSocket addr))
  | .receive who m => some ((s.spawnFor (received srv.signatures who m)).perform .clients .none)
  | .ready i =>
      match s.readyTasks[i]? with
      | some (some addr) =>
          some ({ s with readyTasks := s.readyTasks.set i none }.perform (.ready i)
            (.insertReady addr))
      | _ => none
  | .best i =>
      (s.bestTasks[i]?).bind fun t => (t.step srv s.shared).map fun (t', e) =>
        { s with bestTasks := s.bestTasks.set i t' }.perform (.best i) e
  | .missions reply =>
      (s.missionLoop.step srv s.shared reply).map fun (pc, e) =>
        { s with missionLoop := pc }.perform .missions e
  | .mission i =>
      (s.missions[i]?).bind fun t => t.step.map fun (t', e) =>
        { s with missions := s.missions.set i t' }.perform (.mission i) e
  | .submission reply =>
      (s.submission.step srv s.shared s.attenders s.chain.txs reply).map fun (sub, e) =>
        { s with submission := sub }.perform .submission e
  | .attender i reply =>
      (s.attenders[i]?).bind fun a => (a.step srv s.shared reply).map fun (a', e) =>
        { s with attenders := s.attenders.set i a' }.perform (.attender i) e
  | .land i p =>
      (s.chain.txs[i]?).bind fun tx => (s.chain.challenge).bind fun challenge =>
        if ¬ tx.landed ∧ srv.drillx.isValid tx.solution challenge ∧ p.challenge ≠ challenge then
          some ({ s with chain := { s.chain with
            versions := s.chain.versions ++ [p], txs := s.chain.txs.set i tx.land }
            }.perform .chain .none)
        else
          none
  | .account p =>
      if s.chain.challenge = some p.challenge then
        some ({ s with chain := { s.chain with versions := s.chain.versions ++ [p] }
          }.perform .chain .none)
      else
        none

/-- The state `main` sets up around the proof it loads. -/
def Sys.start (srv : Server) (p : Proof) : Sys where
  shared :=
    { appProof := p
      appNonce := 0
      epochHashes := ⟨p.challenge, ⟨none, 0⟩, ∅⟩
      paused := false
      clientNonceRanges := ∅
      readyClients := ∅
      sockets := ∅
      challenges := if srv.poweredByDbms = .sqlite then [p.challenge] else []
      ghost := ⟨0, 0, p.challenge⟩ }
  readyTasks := []
  bestTasks := []
  missionLoop := .snapshot
  missions := []
  submission := ⟨.readOldProof, 0, 0⟩
  attenders := []
  chain := ⟨[p], 1, []⟩
  journal := []

/-- The server as a machine. -/
def machine (srv : Server) : Machine Sys Action where
  init s := ∃ p, s = Sys.start srv p
  step := Sys.step srv

/-! ## Honest surroundings -/

/-- The proof a reply brings from the RPC node. -/
def Reply.fetched : Reply → Option Proof
  | .proof p => p
  | .configAndProof cp => cp.map Prod.snd
  | _ => none

/-- The transaction whose confirmation the submission loop waits for. -/
def SubmissionPc.confirming : SubmissionPc → Option ℕ
  | .confirm _ _ _ _ tx => some tx
  | _ => none

/-- Transaction `i` has landed. -/
def Chain.landed (c : Chain) (i : ℕ) : Bool := (c.txs[i]?).any MineTx.landed

/-- What is delivered from outside agrees with the chain: notifications come in order, though
late or not at all; a proof fetched over RPC is the current one; a transaction reported
successful has landed. -/
def Honest (s : Sys) : Action → Prop
  | .notify k p => s.chain.nextNotified ≤ k ∧ s.chain.versions[k]? = some p
  | .submission reply =>
      (∀ p ∈ reply.fetched, s.chain.current = some p) ∧
        (reply = .outcome .ok → ∀ tx ∈ s.submission.pc.confirming, s.chain.landed tx)
  | .attender _ reply => ∀ p ∈ reply.fetched, s.chain.current = some p
  | _ => True

instance : DecidableRel Honest := fun s a =>
  match a with
  | .notify k p =>
      inferInstanceAs (Decidable (s.chain.nextNotified ≤ k ∧ s.chain.versions[k]? = some p))
  | .submission reply =>
      inferInstanceAs (Decidable ((∀ p ∈ reply.fetched, s.chain.current = some p) ∧
        (reply = .outcome .ok → ∀ tx ∈ s.submission.pc.confirming, s.chain.landed tx)))
  | .attender _ reply =>
      inferInstanceAs (Decidable (∀ p ∈ reply.fetched, s.chain.current = some p))
  | .connect .. | .disconnect .. | .receive .. | .ready .. | .best .. | .missions ..
  | .mission .. | .land .. | .account .. => isTrue trivial

end OrePool
