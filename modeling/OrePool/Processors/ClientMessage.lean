import OrePool.Model.Shared

/-!
# `client_message_processor`

Each `Ready` and each `BestSolution` message is handled by a task of its own.  A message that
waits in the channel and a task that has not run yet look the same from outside, so the model
starts the task when the message arrives.

A `BestSolution` task takes six atomic sections: it reads the range table, the sockets map, the
tracked proof and the contributions map, decides on what it read, and writes.
-/

namespace OrePool

/-- Where a `BestSolution` task stands, with the locals it still needs. -/
inductive BestPc
  | readRange
  | readSocket (nonceRange : NonceRange)
  | readProof (nonceRange : NonceRange) (conn : ClientConnection)
  | readContributions (sub : Submission)
  | writeContribution (sub : Submission) (oldSub : Option InternalMessageContribution)
  | done
  deriving DecidableEq

/-- A `BestSolution` task: the frame it was started for and its position. -/
structure BestTask where
  addr : SocketAddr
  solution : Solution
  pubkey : Pubkey
  pc : BestPc
  deriving DecidableEq

/-- The task `client_message_processor` spawns for a frame. -/
def BestTask.spawn (addr : SocketAddr) (solution : Solution) (pubkey : Pubkey) : BestTask :=
  ⟨addr, solution, pubkey, .readRange⟩

/-- One atomic section of a `BestSolution` task. -/
def BestTask.step (srv : Server) (sh : Shared) (t : BestTask) : Option (BestTask × Effect) :=
  match t.pc with
  | .readRange =>
      match sh.clientNonceRanges.lookup t.pubkey with
      | none => some ({ t with pc := .done }, .refuse t.pubkey .rangeNotSet)
      | some nonceRange =>
          if nonceRange.contains t.solution.nonce then
            some ({ t with pc := .readSocket nonceRange }, .none)
          else
            some ({ t with pc := .done }, .refuse t.pubkey .outOfRange)
  | .readSocket nonceRange =>
      match sh.sockets.lookup t.addr with
      | some conn => some ({ t with pc := .readProof nonceRange conn }, .none)
      | none => some ({ t with pc := .done }, .none)
  | .readProof nonceRange conn =>
      let challenge := sh.appProof.challenge
      let diff := srv.drillx.difficulty t.solution
      if srv.drillx.isValid t.solution challenge ∧ srv.args.expectedMinDifficulty ≤ diff then
        let sub := ⟨t.pubkey, t.solution, nonceRange, conn, challenge, diff⟩
        some ({ t with pc := .readContributions sub }, .accept sub)
      else
        some ({ t with pc := .done }, .none)
  | .readContributions sub =>
      match sh.epochHashes.contributions.lookup sub.pubkey with
      | some oldSub =>
          if oldSub.suppliedDiff < sub.diff then
            some ({ t with pc := .writeContribution sub (some oldSub) }, .none)
          else
            some ({ t with pc := .done }, .discard sub)
      | none => some ({ t with pc := .writeContribution sub none }, .none)
  | .writeContribution sub _ => some ({ t with pc := .done }, .insertContribution sub)
  | .done => none

end OrePool
