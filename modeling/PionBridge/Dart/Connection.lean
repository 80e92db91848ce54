import PionBridge.Dart.Settings
import PionBridge.Lib.StepSystem

/-!
# `PionBridge.Dart.Connection`: requests and their answers (`bridge_connection.dart`)

`BridgeConnection` gives every request an id, keeps a completer per id, and completes it from the
answer, from the timer of `future.timeout`, or from `failPending`. `ws_message.dart` and
`exception.dart` read the decoded frames, and a cast that fails throws, which is `none` here. The
disconnect path is the one of `websocket_connection.dart`.

`future.timeout` completes the future of a request and cancels its timer in one microtask, before
the next frame or timer runs. So the completion of a completer and of the future is one step, and
`timers` lists the requests whose future is still open.

`requests`, `completions`, `events` and `log` record what happened. The log lists the sent
requests and everything that can complete one, whether or not it did.
-/

set_option autoImplicit false

namespace PionBridge.Dart

open PionBridge.Lib

/-! ### Decoded frames -/

/-- A value that `msgpack_dart` returns. A double comes with the result of `toInt()`, which throws
on a value that is not finite. The keys of a map are distinct. -/
inductive Decoded
  | null
  | bool (b : Bool)
  | int (n : Int)
  | double (toInt : Option Int)
  | str (s : String)
  | bytes (b : List UInt8)
  | list (items : List Decoded)
  | map (entries : List (String × Decoded))

namespace Decoded

/-- `map[key]`. -/
def get (entries : List (String × Decoded)) (key : String) : Decoded :=
  (entries.lookup key).getD .null

/-- `value as String`. -/
def asString : Decoded → Option String
  | .str s => some s
  | _ => none

/-- `value as String?`. -/
def asStringOrNull : Decoded → Option (Option String)
  | .null => some none
  | .str s => some (some s)
  | _ => none

/-- `value as bool?`. -/
def asBoolOrNull : Decoded → Option (Option Bool)
  | .null => some none
  | .bool b => some (some b)
  | _ => none

/-- `(value as num).toInt()`. -/
def asInt : Decoded → Option Int
  | .int n => some n
  | .double toInt => toInt
  | _ => none

end Decoded

/-- `WsMessage`. The values of its data are those that are sent or those that were decoded. -/
structure WsMessage (V : Type) where
  type : String
  id : Int
  handle : Option String
  data : List (String × V)

/-- `WsMessage.fromDecoded`. -/
def WsMessage.fromDecoded (decoded : List (String × Decoded)) : Option (WsMessage Decoded) :=
  (Decoded.get decoded "type").asString.bind fun type =>
  (Decoded.get decoded "id").asInt.bind fun id =>
  (Decoded.get decoded "handle").asStringOrNull.bind fun handle =>
    some { type := type, id := id, handle := handle
           data := match Decoded.get decoded "data" with
             | .map entries => entries
             | _ => [] }

/-- `PionException`. -/
structure PionException where
  code : String
  message : String
  fatal : Bool := false
  handle : Option String := none
  deriving DecidableEq

/-- `PionException.fromWsMessage`. -/
def PionException.fromWsMessage (msg : WsMessage Decoded) : Option PionException :=
  (Decoded.get msg.data "code").asStringOrNull.bind fun code =>
  (Decoded.get msg.data "message").asStringOrNull.bind fun message =>
  (Decoded.get msg.data "fatal").asBoolOrNull.bind fun fatal =>
  (Decoded.get msg.data "handle").asStringOrNull.bind fun handle =>
    some { code := code.getD "UNKNOWN", message := message.getD "Unknown error"
           fatal := fatal.getD false, handle := handle }

/-- `type.endsWith(':ack')`. -/
def isAck (type : String) : Bool := decide (":ack".toList <:+ type.toList)

/-! ### The connection -/

/-- How the future of a request completes. -/
inductive Outcome
  | data (entries : List (String × Decoded))
  | error (e : PionException)

/-- The error of `failPending`. -/
def connectionLost (reason : String) : Outcome :=
  .error { code := "CONNECTION_LOST", message := reason, fatal := true }

/-- The error of `onTimeout`. -/
def operationTimeout : Outcome :=
  .error { code := "OPERATION_TIMEOUT", message := "Request timed out" }

/-- A request that was sent, or something that completes requests: an answer, a timer that fires,
or a call of `failPending`. -/
inductive LogEntry
  | sent (id : Int)
  | answered (id : Int) (o : Outcome)
  | timedOut (id : Int)
  | failed (reason : String)

/-- A Dart `int` holds more ids than requests can be made, so ids are plain integers. -/
structure BridgeConnection where
  connected : Bool
  disconnectHandled : Bool
  nextRequestId : Int
  pendingRequests : List Int
  timers : List Int
  frames : List (WsMessage Value)
  requests : List Int
  completions : List (Int × Outcome)
  events : List (WsMessage Decoded)
  log : List LogEntry

namespace BridgeConnection

/-- The constructor. -/
def new : BridgeConnection where
  connected := false
  disconnectHandled := false
  nextRequestId := 1
  pendingRequests := []
  timers := []
  frames := []
  requests := []
  completions := []
  events := []
  log := []

/-- A completer completes, and with it the future of the request and its timer. -/
def settle (s : BridgeConnection) (id : Int) (o : Outcome) : BridgeConnection :=
  if id ∈ s.timers then
    { s with timers := s.timers.erase id, completions := s.completions ++ [(id, o)] }
  else s

/-- `onMessage`. -/
def onMessage (s : BridgeConnection) (msg : WsMessage Decoded) : BridgeConnection :=
  { s with events := s.events ++ [msg] }

/-- What an ack or an error frame completes its request with. `none` is an error frame whose
fields cannot be read. -/
def answerOf (msg : WsMessage Decoded) : Option Outcome :=
  if msg.type = "error" then (PionException.fromWsMessage msg).map .error
  else some (.data msg.data)

/-- `handleFrame` on an ack or an error. -/
def handleAnswer (s : BridgeConnection) (msg : WsMessage Decoded) : BridgeConnection :=
  if msg.id ∈ s.pendingRequests then
    let s := { s with pendingRequests := s.pendingRequests.erase msg.id }
    match answerOf msg with
    | some o => s.settle msg.id o
    -- The exception is swallowed after the entry is gone.
    | none => s
  else if msg.id = 0 then s.onMessage msg
  else s

/-- `handleFrame`, on the result of `deserialize` (`none` when it throws). -/
def handleFrame (s : BridgeConnection) (decoded : Option Decoded) : BridgeConnection :=
  match decoded with
  | some (.map entries) =>
    match WsMessage.fromDecoded entries with
    | some msg =>
      if isAck msg.type ∨ msg.type = "error" then
        { s.handleAnswer msg with
          log := s.log ++ ((answerOf msg).map fun o => LogEntry.answered msg.id o).toList }
      else s.onMessage msg
    | none => s
  | _ => s

/-- `failPending`. -/
def failPending (s : BridgeConnection) (reason : String) : BridgeConnection :=
  { s.pendingRequests.foldl (fun s id => s.settle id (connectionLost reason))
      { s with pendingRequests := [] } with
    log := s.log ++ [.failed reason] }

/-- `send`. -/
def send (s : BridgeConnection) (type : String) (handle : Option String)
    (data : List (String × Value)) : Option BridgeConnection :=
  if s.connected then some { s with frames := s.frames ++ [⟨type, 0, handle, data⟩] } else none

/-- `request`, up to the future that it returns. -/
def request (s : BridgeConnection) (type : String) (handle : Option String)
    (data : List (String × Value)) : Option BridgeConnection :=
  if s.connected then
    let id := s.nextRequestId
    some { s with
      nextRequestId := id + 1
      pendingRequests := s.pendingRequests ++ [id]
      timers := s.timers ++ [id]
      frames := s.frames ++ [⟨type, id, handle, data⟩]
      requests := s.requests ++ [id]
      log := s.log ++ [.sent id] }
  else none

/-- The timer of a request fires: `onTimeout`. -/
def timeout (s : BridgeConnection) (id : Int) : Option BridgeConnection :=
  if id ∈ s.timers then
    some { s with
      pendingRequests := s.pendingRequests.erase id
      timers := s.timers.erase id
      completions := s.completions ++ [(id, operationTimeout)]
      log := s.log ++ [.timedOut id] }
  else none

/-- `_handleDisconnect`, but for the callback. -/
def handleDisconnect (s : BridgeConnection) (reason : String) : BridgeConnection :=
  if s.disconnectHandled then s
  else { s with disconnectHandled := true, connected := false }.failPending reason

/-- `close`. -/
def close (s : BridgeConnection) : BridgeConnection :=
  { s with disconnectHandled := true, connected := false }.failPending "Connection closed"

end BridgeConnection

/-- One turn of the event loop. -/
inductive ConnectionAction
  | connect
  | send (type : String) (handle : Option String) (data : List (String × Value))
  | request (type : String) (handle : Option String) (data : List (String × Value))
  | frame (decoded : Option Decoded)
  | timeout (id : Int)
  | failPending (reason : String)
  | disconnect (reason : String)
  | close

def BridgeConnection.step (s : BridgeConnection) : ConnectionAction → Option BridgeConnection
  | .connect => some { s with connected := true }
  | .send type handle data => s.send type handle data
  | .request type handle data => s.request type handle data
  | .frame decoded => some (s.handleFrame decoded)
  | .timeout id => s.timeout id
  | .failPending reason => some (s.failPending reason)
  | .disconnect reason => some (s.handleDisconnect reason)
  | .close => some s.close

/-- All runs of one connection. -/
def connectionSystem : StepSystem BridgeConnection ConnectionAction where
  init := BridgeConnection.new
  step := BridgeConnection.step

end PionBridge.Dart
