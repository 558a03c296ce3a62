import OrePool.Core.Observer
import OrePool.System

/-!
# Replaying the server

That some state is reached, or that a property fails in some run, is shown by listing the
actions of a run and evaluating it.  The first part turns such an evaluation into a statement
about runs.  The second has the pieces that lists of actions are put together from: a proof of
work in which a digest names the challenge it solves, signatures that spell out who signed what,
and what it takes to serve a client a mission, to hand in a solution and to get a transaction on
its way.
-/

namespace OrePool

open Interleaving

/-- Takes the actions in order from the state around `p`, as long as they meet `C`. -/
def replay (srv : Server) (C : Sys → Action → Prop) [DecidableRel C] (p : Proof)
    (as : List Action) : Option Sys :=
  exec (machine srv) C (Sys.start srv p) as

/-- A replay that ends in a state with `check` shows that such a state is reached. -/
theorem exists_of_replay (srv : Server) (C : Sys → Action → Prop) [DecidableRel C] (p : Proof)
    (as : List Action) (check : Sys → Bool) (h : (replay srv C p as).any check = true) :
    ∃ s, Reach (machine srv) C s ∧ check s = true :=
  exists_of_exec ⟨p, rfl⟩ h

/-- A property that fails where a replay ends does not hold of every run. -/
theorem not_forall_of_replay {C : Sys → Action → Prop} [DecidableRel C]
    {P : Server → Sys → Prop} (srv : Server) (p : Proof) (as : List Action) (check : Sys → Bool)
    (hcheck : ∀ s, check s = true → ¬ P srv s) (h : (replay srv C p as).any check = true) :
    ¬ ∀ srv s, Reach (machine srv) C s → P srv s := by
  obtain ⟨s, hr, hc⟩ := exists_of_replay srv C p as check h
  exact fun hall => hcheck s hc (hall srv s hr)

/-! The same with an observer. -/

section Observed

variable {η : Type}

/-- Takes the actions in order with the observer taking notes. -/
def replayObserved (srv : Server) (O : Observer Sys Action η) (C : Sys × η → Action → Prop)
    [DecidableRel C] (p : Proof) (as : List Action) : Option (Sys × η) :=
  exec ((machine srv).observe O) C (Sys.start srv p, O.start (Sys.start srv p)) as

theorem exists_of_replayObserved (srv : Server) (O : Observer Sys Action η)
    (C : Sys × η → Action → Prop) [DecidableRel C] (p : Proof) (as : List Action)
    (check : Sys × η → Bool) (h : (replayObserved srv O C p as).any check = true) :
    ∃ x, Reach ((machine srv).observe O) C x ∧ check x = true :=
  exists_of_exec ⟨⟨p, rfl⟩, rfl⟩ h

theorem not_forall_of_replayObserved {O : Server → Observer Sys Action η}
    {C : Server → Sys × η → Action → Prop} [∀ srv, DecidableRel (C srv)]
    {P : Server → Sys × η → Prop} (srv : Server) (p : Proof) (as : List Action)
    (check : Sys × η → Bool) (hcheck : ∀ x, check x = true → ¬ P srv x)
    (h : (replayObserved srv (O srv) (C srv) p as).any check = true) :
    ¬ ∀ srv x, Reach ((machine srv).observe (O srv)) (C srv) x → P srv x := by
  obtain ⟨x, hr, hc⟩ := exists_of_replayObserved srv (O srv) (C srv) p as check h
  exact fun hall => hcheck x hc (hall srv x hr)

end Observed

/-! ## Pieces of a run -/

namespace Replay

/-- The key of client `b`. -/
def key (b : UInt8) : Pubkey := Vector.replicate 32 b

/-- The proof account at its `b`-th challenge. -/
def proofAt (b : UInt8) (lastHashAt : Int64) : Proof where
  balance := 100 * b.toUInt64
  challenge := Vector.replicate 32 b
  lastHashAt := lastHashAt

/-- A solution for the `b`-th challenge. -/
def solution (b nonce : UInt8) : Solution where
  d := Vector.replicate 16 b
  n := #v[nonce, 0, 0, 0, 0, 0, 0, 0]

/-- A proof of work whose digests repeat the challenge they solve; the nonce sets the
difficulty. -/
def drillx : Drillx where
  isValid solution challenge := solution.d.toList = challenge.toList.take 16
  difficulty solution := solution.nonce.toUInt32 % 64

/-- What client `b` signs comes out as `b` and the message. -/
def sign (b : UInt8) (message : List UInt8) : List UInt8 := b :: message

/-- The signatures of `sign`, padded to 64 bytes. -/
def signatures : Signatures where
  fromStr text :=
    let bytes := text.toByteArray.data.toList
    if bytes.length ≤ 64 then some (Vector.ofFn fun i => bytes.getD i 0) else none
  verify sig pubkey message := sig.toList.take (message.length + 1) = sign pubkey[0] message

/-- The frame for a solution of client `b`. -/
def frame (b : UInt8) (solution : Solution) : Message :=
  .binary (2 :: solution.d.toList ++ solution.n.toList ++ (key b).toList ++
    sign b solution.hashNonceMessage)

/-- A frame is decoded to what went into it. -/
example : received signatures 7 (frame 2 (solution 1 10)) =
    some (.bestSolution 7 (solution 1 10) (key 2)) := by
  decide +kernel

/-- A server with two registered miners. -/
def server (dbms : PoweredByDbms) : Server where
  args := ⟨5, 0, 8, false⟩
  poweredByDbms := dbms
  drillx := drillx
  signatures := signatures
  minersId pubkey := if pubkey = key 1 then some 1 else if pubkey = key 2 then some 2 else none

/-- Client `addr`, the only one ready, gets mission `i` as far as its task being spawned. -/
def assign (i : ℕ) (addr : SocketAddr) : List Action :=
  [.receive addr (.binary [0]), .ready i, .missions (.order [addr]), .missions .go, .missions .go,
    .missions (.clock 0), .missions .go, .missions .go, .missions .go, .missions .go, .missions .go]

/-- Mission `i` is assigned, sent and recorded. -/
def mission (i : ℕ) (addr : SocketAddr) : List Action :=
  assign i addr ++ [.mission i, .mission i]

/-- A solution of client `b` arrives and its task, number `i`, takes `n` of its sections. -/
def solve (i n : ℕ) (addr : SocketAddr) (b : UInt8) (solution : Solution) : List Action :=
  .receive addr (frame b solution) :: List.replicate n (.best i)

/-- The submission loop finds the cutoff passed and a best solution, and pauses. -/
def pause (unixTimestamp : Int64) : List Action :=
  [.submission .go, .submission (.clock unixTimestamp), .submission .go, .submission .go,
    .submission .go, .submission .go]

/-- An attempt, as far as its transaction being sent. -/
def attempt (p : Proof) : List Action :=
  [.submission (.configAndProof (some (⟨1000⟩, p))), .submission (.clock 0),
    .submission (.blockhash true)]

/-- The same at a given time on the chain's clock. -/
def attemptAt (unixTimestamp : Int64) (p : Proof) : List Action :=
  [.submission (.configAndProof (some (⟨1000⟩, p))), .submission (.clock unixTimestamp),
    .submission (.blockhash true)]

/-- The only client gets a mission and hands in a solution. -/
def served : List Action :=
  [.connect 1 (key 1) .V1] ++ mission 0 1 ++ solve 0 5 1 1 (solution 1 10)

/-- A round for it whose transaction lands and is reported successful. -/
def landedRound : List Action :=
  served ++ pause 60 ++ attempt (proofAt 1 0) ++
    [.land 0 (proofAt 2 60), .submission (.outcome .ok)]

/-- A landed round that its attender settles, the websocket being first with the news. -/
def settledRound : List Action :=
  landedRound ++ [.notify 1 (proofAt 2 60)] ++ List.replicate 9 (.attender 0 .go) ++
    [.submission .go]

/-- A round that fails: all its transactions get lost, and the loop restores. -/
def failedRound : List Action :=
  served ++ pause 60 ++
    (List.replicate 5 (attempt (proofAt 1 0) ++ [.submission (.outcome .otherError)])).flatten ++
    [.submission (.proof (some (proofAt 1 0)))] ++ List.replicate 4 (.submission .go)

end Replay

end OrePool
