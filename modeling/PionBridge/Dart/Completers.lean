import PionBridge.Dart.Connection

/-!
# `PionBridge.Dart.Completers`: calls that throw, and the completers they leave

`request` puts the completer into `_pendingRequests` before it calls `serialize` and `sendFrame`.
Either can throw: the data may hold a value that msgpack does not know, and the session of the
shared library may be gone. `handleFrame` takes the completer out before it reads the fields of an
error frame, and the cast of a field can throw.

`Connection.lean` follows the futures that callers hold. Here it is the completers: every entry of
the map has one, also an entry whose call has thrown. `completes` lists the completers that an
action completes, and `thrown` records the ids of the calls that threw after their entry was
made.
-/

set_option autoImplicit false

namespace PionBridge.Dart

open PionBridge.Lib

/-- What becomes of the frame of a request. -/
inductive HandOver
  | encodeThrows
  | sendThrows
  | sent
  deriving DecidableEq

/-- How a call of `request` ends: it throws, or it returns the future of an id. -/
inductive CallResult
  | threw
  | returned (id : Int)
  deriving DecidableEq

namespace BridgeConnection

/-- `request` between the check of `isConnected` and the frame: the id and the entry. -/
def register (s : BridgeConnection) : BridgeConnection :=
  { s with
    nextRequestId := s.nextRequestId + 1
    pendingRequests := s.pendingRequests ++ [s.nextRequestId] }

/-- `request`, with the calls that throw. -/
def requestCall (s : BridgeConnection) (handOver : HandOver) (type : String)
    (handle : Option String) (data : List (String × Value)) : BridgeConnection × CallResult :=
  if s.connected then
    let id := s.nextRequestId
    match handOver with
    | .encodeThrows | .sendThrows => (s.register, .threw)
    | .sent =>
      ({ s.register with
          timers := s.timers ++ [id]
          frames := s.frames ++ [⟨type, id, handle, data⟩]
          requests := s.requests ++ [id]
          log := s.log ++ [.sent id] }, .returned id)
  else (s, .threw)

/-- The completers that an ack or an error frame completes. -/
def answerCompletes (s : BridgeConnection) (msg : WsMessage Decoded) : List (Int × Outcome) :=
  if msg.id ∈ s.pendingRequests then ((answerOf msg).map fun o => (msg.id, o)).toList else []

/-- The completers that `handleFrame` completes. -/
def frameCompletes (s : BridgeConnection) (decoded : Option Decoded) : List (Int × Outcome) :=
  match decoded with
  | some (.map entries) =>
    match WsMessage.fromDecoded entries with
    | some msg => if isAck msg.type ∨ msg.type = "error" then s.answerCompletes msg else []
    | none => []
  | _ => []

/-- The completers that `failPending` completes. -/
def failCompletes (s : BridgeConnection) (reason : String) : List (Int × Outcome) :=
  s.pendingRequests.map fun id => (id, connectionLost reason)

/-- The completers that an action completes. A timer completes a future, and no completer. -/
def completes (s : BridgeConnection) : ConnectionAction → List (Int × Outcome)
  | .frame decoded => s.frameCompletes decoded
  | .failPending reason => s.failCompletes reason
  | .disconnect reason => if s.disconnectHandled then [] else s.failCompletes reason
  | .close => s.failCompletes "Connection closed"
  | _ => []

end BridgeConnection

/-- A connection with the record of its completers. -/
structure CompleterWorld where
  conn : BridgeConnection
  thrown : List Int
  completed : List (Int × Outcome)

/-- A call of `request` that ends as the transport lets it, or any other turn of the event loop. -/
inductive CompleterAction
  | request (handOver : HandOver) (type : String) (handle : Option String)
      (data : List (String × Value))
  | other (a : ConnectionAction)

def CompleterWorld.step (w : CompleterWorld) : CompleterAction → Option CompleterWorld
  | .request handOver type handle data =>
    match w.conn.requestCall handOver type handle data with
    | (conn, .threw) =>
      some { w with conn := conn
                    thrown := w.thrown ++ if w.conn.connected then [w.conn.nextRequestId] else [] }
    | (conn, .returned _) => some { w with conn := conn }
  | .other a =>
    (w.conn.step a).map fun conn =>
      { w with conn := conn, completed := w.completed ++ w.conn.completes a }

/-- All runs of one connection, with the calls that throw. -/
def completerSystem : StepSystem CompleterWorld CompleterAction where
  init := ⟨BridgeConnection.new, [], []⟩
  step := CompleterWorld.step

end PionBridge.Dart
