import OrePool.Processors.ProcessMessage

/-!
# `handle_socket`

The task of one websocket after its upgrade.  It pings the client, enters the connection under its
address unless the address is taken, passes messages on until the stream ends or the client closes,
and takes the address out again.

A websocket is known by the number of its task.  The entry in `AppState.sockets` holds its sender
half, so it carries that number.
-/

namespace OrePool

/-- An entry of `AppState.sockets`: the connection and its websocket.  `registration` counts the
entries made before; no step reads it. -/
structure SocketEntry where
  connection : ClientConnection
  socket : ℕ
  registration : ℕ
  deriving DecidableEq

/-- `AppState.sockets`. -/
abbrev Sockets := HashMap SocketAddr SocketEntry

/-- Where a `handle_socket` task stands. -/
inductive SocketPc
  | ping
  | register
  | receive
  | remove
  | returned
  deriving DecidableEq

/-- A `handle_socket` task with its arguments.  `checked` counts the entries made before its
handshake was let through; no step reads it. -/
structure SocketTask where
  who : SocketAddr
  connection : ClientConnection
  checked : ℕ
  pc : SocketPc
  deriving DecidableEq

/-- What the websocket brings: whether the ping could be sent, and the next message, `none` when the
stream has ended. -/
inductive SocketInput
  | go
  | pinged (ok : Bool)
  | next (m : Option Message)
  deriving DecidableEq

/-- What a task does to the sockets map and to the client channel. -/
inductive SocketEffect
  | none
  | insert (who : SocketAddr) (connection : ClientConnection)
  | remove (who : SocketAddr)
  | send (msg : ClientMessage)
  deriving DecidableEq

/-- Moves to another position. -/
def SocketTask.goto (t : SocketTask) (pc : SocketPc) : SocketTask := { t with pc := pc }

/-- One atomic section.  The receive loop is a task of its own: a panic in it ends it, and what
follows is done all the same. -/
def SocketTask.step (sigs : Signatures) (sockets : Sockets) (input : SocketInput)
    (t : SocketTask) : Option (SocketTask × SocketEffect) :=
  match t.pc with
  | .ping =>
      match input with
      | .pinged true => some (t.goto .register, .none)
      | .pinged false => some (t.goto .returned, .none)
      | _ => none
  | .register =>
      if (sockets.lookup t.who).isSome then
        some (t.goto .returned, .none)
      else
        some (t.goto .receive, .insert t.who t.connection)
  | .receive =>
      match input with
      | .next (some m) =>
          match processMessage sigs t.who m with
          | some (some msg, .continue) => some (t, .send msg)
          | some (none, .continue) => some (t, .none)
          | some (_, .break) | none => some (t.goto .remove, .none)
      | .next none => some (t.goto .remove, .none)
      | _ => none
  | .remove => some (t.goto .returned, .remove t.who)
  | .returned => none

end OrePool
