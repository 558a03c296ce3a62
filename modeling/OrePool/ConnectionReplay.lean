import OrePool.Connections
import OrePool.Core.Observer
import OrePool.LedgerReplay

/-!
# Replaying the connections

Pieces of concrete runs of `connections`, on a host without a database: the miner's requests, the
websockets they get, and what the pong tracker makes of them.
-/

namespace OrePool

open Interleaving

/-- A run of the connections that ends in a state with `check`. -/
theorem exists_of_connections (host : Host) (C : Connections → ConnectionAction → Prop)
    [DecidableRel C] (as : List ConnectionAction) (check : Connections → Bool)
    (h : (exec (connections host) C .start as).any check = true) :
    ∃ s, Reach (connections host) C s ∧ check s = true :=
  exists_of_exec rfl h

/-- The same with an observer. -/
theorem exists_of_connectionsObserved {η : Type} (host : Host)
    (O : Observer Connections ConnectionAction η) (C : Connections × η → ConnectionAction → Prop)
    [DecidableRel C] (as : List ConnectionAction) (check : Connections × η → Bool)
    (h : (exec ((connections host).observe O) C (.start, O.start .start) as).any check = true) :
    ∃ x, Reach ((connections host).observe O) C x ∧ check x = true :=
  exists_of_exec (s := (Connections.start, O.start .start)) ⟨rfl, rfl⟩ h

namespace Replay

/-- The miner's request is let through from an address, as websocket `i`, and entered. -/
def enter (i : ℕ) (addr : SocketAddr) : List ConnectionAction :=
  [.request addr request 110, .socket i (.pinged true), .socket i .go]

/-- Its stream ends and it takes its address out. -/
def depart (i : ℕ) : List ConnectionAction := [.socket i (.next none), .socket i .go]

/-- The pong tracker wakes up to one pong and takes two sections more.  A pong that is not overdue
it leaves and sleeps again, an overdue one it removes from the sockets. -/
def trackPong (addr : SocketAddr) (pong : Pong) : List ConnectionAction :=
  [.pongTracking [⟨addr, pong⟩], .pongTracking [], .pongTracking []]

/-- A connection answers a ping ten seconds after the start and is gone at the next look of the pong
tracker. -/
def departed : List ConnectionAction :=
  [.pongTracking [], .pongTracking [], .tick 10000] ++ enter 0 7 ++
    [.socket 0 (.next (some .pong)), .clientMessage] ++ depart 0 ++ [.tick 35000] ++
    trackPong 7 ⟨10000, 0⟩ ++ [.tick 45000]

end Replay

end OrePool
