import OrePool.Processors.HandleSocket

/-!
# `ping_check_processor` and `pong_tracking_processor`

Two loops that take connections out of `AppState.sockets`, by address.

* The first copies the map every thirty seconds, pings every connection of the copy in a task of its
  own, and awaits the tasks in turn, removing the address where the ping could not be sent.
* The second copies the table of pongs every forty-five seconds, and goes through the copy, removing
  the address of each pong that is older than that from the sockets and from the table.

Times are in milliseconds on the server's own clock.
-/

namespace OrePool

/-! ## `ping_check_processor` -/

/-- How the task of a ping ended. -/
inductive PingOutcome
  | sent
  | failed
  | panicked
  deriving DecidableEq

/-- The handle of a ping, with its outcome once there is one. -/
structure PingHandle where
  who : SocketAddr
  entry : SocketEntry
  outcome : Option PingOutcome
  deriving DecidableEq

/-- Where the ping check stands, with the handles it still awaits. -/
inductive PingCheckPc
  | sleep (due : ℕ)
  | await (handles : List PingHandle)
  | remove (handle : PingHandle) (handles : List PingHandle)
  deriving DecidableEq

/-- The copy of the sockets map, in the order of an iteration over it. -/
abbrev SocketList := List (Sigma fun _ : SocketAddr => SocketEntry)

/-- The task of a ping. -/
def PingHandle.spawn (x : Sigma fun _ : SocketAddr => SocketEntry) : PingHandle :=
  ⟨x.1, x.2, none⟩

/-- One atomic section of the ping check. -/
def PingCheckPc.step (sockets : Sockets) (clock : ℕ) (order : SocketList) :
    PingCheckPc → Option (PingCheckPc × SocketEffect)
  | .sleep due =>
      if due ≤ clock ∧ order.Perm sockets.entries then
        some (.await (order.map PingHandle.spawn), .none)
      else
        none
  | .await [] => some (.sleep (clock + 30000), .none)
  | .await (handle :: handles) =>
      match handle.outcome with
      | some .failed => some (.remove handle handles, .none)
      | some .sent | some .panicked => some (.await handles, .none)
      | none => none
  | .remove handle handles => some (.await handles, .remove handle.who)

/-- A ping comes to its end. -/
def PingHandle.finish (outcome : PingOutcome) (handle : PingHandle) : PingHandle :=
  { handle with outcome := handle.outcome.or (some outcome) }

/-- The `k`-th ping still awaited comes to its end. -/
def PingCheckPc.finish (k : ℕ) (outcome : PingOutcome) : PingCheckPc → PingCheckPc
  | .sleep due => .sleep due
  | .await handles => .await (handles.modify k (PingHandle.finish outcome))
  | .remove handle handles => .remove handle (handles.modify k (PingHandle.finish outcome))

/-! ## `pong_tracking_processor` -/

/-- An entry of `LastPong.pongs`: when the pong was taken from the channel.  `sender` is the
websocket it came in on; no step reads it. -/
structure Pong where
  instant : ℕ
  sender : ℕ
  deriving DecidableEq

/-- `LastPong.pongs`. -/
abbrev Pongs := HashMap SocketAddr Pong

/-- The copy of the table of pongs, in the order of an iteration over it. -/
abbrev PongList := List (Sigma fun _ : SocketAddr => Pong)

/-- `pong.elapsed().as_secs() > 45`. -/
def Pong.overdue (pong : Pong) (clock : ℕ) : Bool := 45 < (clock - pong.instant) / 1000

/-- Where the pong tracker stands, with what it still has to go through. -/
inductive PongTrackingPc
  | sleep (due : ℕ)
  | check (pongs : PongList)
  | removeSocket (who : SocketAddr) (pong : Pong) (pongs : PongList)
  | removePong (who : SocketAddr) (pongs : PongList)
  deriving DecidableEq

/-- What the pong tracker does: to the sockets, or to the table of pongs. -/
inductive PongEffect
  | none
  | removeSocket (who : SocketAddr)
  | removePong (who : SocketAddr)
  deriving DecidableEq

/-- One atomic section of the pong tracker. -/
def PongTrackingPc.step (pongs : Pongs) (clock : ℕ) (order : PongList) :
    PongTrackingPc → Option (PongTrackingPc × PongEffect)
  | .sleep due =>
      if due ≤ clock ∧ order.Perm pongs.entries then some (.check order, .none) else none
  | .check [] => some (.sleep (clock + 45000), .none)
  | .check (⟨who, pong⟩ :: rest) =>
      if pong.overdue clock then
        some (.removeSocket who pong rest, .none)
      else
        some (.check rest, .none)
  | .removeSocket who _ rest => some (.removePong who rest, .removeSocket who)
  | .removePong who rest => some (.check rest, .removePong who)

end OrePool
