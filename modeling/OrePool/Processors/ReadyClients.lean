import OrePool.Model.Shared

/-!
# `ready_clients_processor`

One loop, once a second: snapshot the ready clients and, unless paused, read the proof, compute
the cutoff, read the proof again for the challenge, and for each client take a range from the
counter, spawn a task that sends the mission and records the range, and take the client off the
ready list.
-/

namespace OrePool

/-- Where the mission loop stands, with the locals it still needs. -/
inductive ReadyPc
  | snapshot
  | checkPaused (clients : List SocketAddr)
  | readProof (clients : List SocketAddr)
  | readClock (clients : List SocketAddr) (proof : Proof)
  | readBest (clients : List SocketAddr)
  | readChallenge (clients : List SocketAddr) (cutoff : Int64)
  | takeNonce (challenge : Challenge) (cutoff : Int64) (clients : List SocketAddr)
  | readSockets (msg : ServerMessageStartMining) (gen : ℕ) (client : SocketAddr)
      (clients : List SocketAddr)
  | removeReady (challenge : Challenge) (cutoff : Int64) (client : SocketAddr)
      (clients : List SocketAddr)
  deriving DecidableEq

/-- One atomic section of the mission loop. -/
def ReadyPc.step (srv : Server) (sh : Shared) (reply : Reply) : ReadyPc → Option (ReadyPc × Effect)
  | .snapshot =>
      match reply with
      | .order clients =>
          if clients.Nodup ∧ clients.toFinset = sh.readyClients then
            some (.checkPaused clients, .none)
          else
            none
      | _ => none
  | .checkPaused clients =>
      if ¬ sh.paused ∧ 0 < clients.length then
        some (.readProof clients, .none)
      else
        some (.snapshot, .none)
  | .readProof clients => some (.readClock clients sh.appProof, .none)
  | .readClock clients proof =>
      match reply with
      | .clock unixTimestamp =>
          let cutoff := srv.args.cutoff proof unixTimestamp
          if cutoff ≤ 0 then
            some (.readBest clients, .none)
          else
            some (.readChallenge clients cutoff, .none)
      | _ => none
  | .readBest clients =>
      if sh.epochHashes.bestHash.solution.isSome then
        some (.snapshot, .none)
      else
        some (.readChallenge clients 0, .none)
  | .readChallenge clients cutoff =>
      some (.takeNonce sh.appProof.challenge cutoff clients, .none)
  | .takeNonce _ _ [] => some (.snapshot, .none)
  | .takeNonce challenge cutoff (client :: clients) =>
      let start := sh.appNonce
      let msg := ⟨challenge, cutoff, start, missionEnd start⟩
      some (.readSockets msg sh.ghost.nonceGen client clients, .takeNonce)
  | .readSockets msg gen client clients =>
      let next := .removeReady msg.challenge msg.cutoff client clients
      match sh.sockets.lookup client with
      | some sender => some (next, .spawnMission ⟨client, sender.pubkey, msg, gen⟩)
      | none => some (next, .none)
  | .removeReady challenge cutoff client clients =>
      some (.takeNonce challenge cutoff clients, .removeReady client)

/-! ## The spawned mission task -/

/-- Where a mission task stands. -/
inductive MissionPc
  | send
  | insertRange
  | done
  deriving DecidableEq

/-- A mission task. -/
structure MissionTask where
  mission : Mission
  pc : MissionPc
  deriving DecidableEq

/-- The message has been sent. -/
def MissionTask.sent (t : MissionTask) : Prop := t.pc ≠ .send

instance (t : MissionTask) : Decidable t.sent := inferInstanceAs (Decidable (_ ≠ _))

/-- One atomic section of a mission task: the message first, the range table after it. -/
def MissionTask.step (t : MissionTask) : Option (MissionTask × Effect) :=
  match t.pc with
  | .send => some ({ t with pc := .insertRange }, .sendMission t.mission)
  | .insertRange =>
      some ({ t with pc := .done }, .insertRange t.mission.pubkey t.mission.nonceRange)
  | .done => none

end OrePool
