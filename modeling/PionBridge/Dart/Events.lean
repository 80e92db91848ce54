import PionBridge.Dart.Connection
import PionBridge.Lib.Broadcast
import PionBridge.Lib.GoMap

/-!
# `PionBridge.Dart.Events`: from the dispatcher to the streams of the application

`EventDispatcher` (`event_dispatcher.dart`) has a broadcast controller per handle and keeps the
events of a handle that nobody listens to yet. `PionDataChannel` and `PionPeerConnection`
(`data_channel.dart`, `peer_connection.dart`) listen to their handle in the constructor, and
`_route` hands each event to a `BufferedBroadcast` (`buffered_broadcast.dart`), one for each kind of
event.

A step is a call, or the microtask that hands one event to one callback. `_route` may throw in a
cast. The event is then gone, and the subscription goes on. A wrapper subscribes under its own
number, so the subscriptions of a controller are named by wrappers.

The record: `sent` lists the calls of `broadcast`. A wrapper has the number of them at its
construction, the events that were routed, and for each stream the number of these when its first
listener came.
-/

set_option autoImplicit false

namespace PionBridge.Dart

open PionBridge.Lib

abbrev Event := WsMessage Decoded

/-! ### What `_route` makes of an event -/

/-- The two kinds of `PionResource`. -/
inductive ResourceKind
  | dataChannel
  | peerConnection
  deriving DecidableEq

/-- The streams of a `PionDataChannel` and of a `PionPeerConnection`. -/
inductive StreamType
  | message
  | opened
  | closed
  | bufferedAmountLow
  | error
  | iceCandidate
  | iceGatheringComplete
  | dataChannel
  | connectionStateChange
  | track
  deriving DecidableEq

/-- The wrapper that has the stream. -/
def StreamType.kind : StreamType → ResourceKind
  | .message | .opened | .closed | .bufferedAmountLow | .error => .dataChannel
  | _ => .peerConnection

inductive ConnectionState
  | newConnection
  | connecting
  | connected
  | disconnected
  | failed
  | closed
  deriving DecidableEq

/-- `ConnectionState.fromString`, which throws on a name that does not exist. -/
def ConnectionState.fromString : String → Option ConnectionState
  | "new" => some .newConnection
  | "newConnection" => some .newConnection
  | "connecting" => some .connecting
  | "connected" => some .connected
  | "disconnected" => some .disconnected
  | "failed" => some .failed
  | "closed" => some .closed
  | _ => none

/-- What a listener is given. A `PionDataChannel` is the number of its wrapper. -/
inductive Payload
  | message (bytes : List UInt8) (isBinary : Bool)
  | void
  | error (text : String)
  | iceCandidate (candidate sdpMid : String) (sdpMlineIndex : Int)
  | dataChannel (wrapper : Nat)
  | state (state : ConnectionState)
  | track (audio : Bool) (trackId streamId codec : String)
  deriving DecidableEq

/-- `(value as num?)?.toInt()`. -/
def Decoded.asIntOrNull : Decoded → Option (Option Int)
  | .null => some none
  | .int n => some (some n)
  | .double toInt => toInt.map some
  | _ => none

/-- `(msg.data[key] as String?) ?? fallback`. -/
def WsMessage.string (msg : Event) (key fallback : String) : Option String :=
  (Decoded.get msg.data key).asStringOrNull.map (·.getD fallback)

/-- The bytes of a message. Only `bin` decodes to a `Uint8List`, and a decoded array is no
`List<int>`. -/
def messageBytes : Decoded → List UInt8
  | .bytes b => b
  | .str s => s.toUTF8.data.toList
  | _ => []

/-- `_route` of `PionDataChannel`: the stream and what it is given. `none` is an event of another
type or one whose data have a type that the casts refuse. `toStr` is `toString()` of a value that is
neither null nor a string. -/
def routeDataChannel (toStr : Decoded → String) (msg : Event) : Option (StreamType × Payload) :=
  if msg.type = "event:dataChannelMessage" then
    (Decoded.get msg.data "is_binary").asBoolOrNull.map fun isBinary =>
      (.message, .message (messageBytes (Decoded.get msg.data "data")) (isBinary.getD false))
  else if msg.type = "event:dataChannelOpen" then some (.opened, .void)
  else if msg.type = "event:dataChannelClose" then some (.closed, .void)
  else if msg.type = "event:bufferedAmountLow" then some (.bufferedAmountLow, .void)
  else if msg.type = "event:dc:error" then
    some (.error, .error (match Decoded.get msg.data "error" with
      | .null => ""
      | .str text => text
      | value => toStr value))
  else none

/-- The handle of the `PionDataChannel` that an `event:dataChannel` makes. -/
def incomingHandle (msg : Event) : Option String :=
  if msg.type = "event:dataChannel" then
    (msg.string "label" "").bind fun _ => msg.string "dc_handle" ""
  else none

/-- `_route` of `PionPeerConnection`. A data channel that it constructs is the wrapper `child`. -/
def routePeerConnection (child : Nat) (msg : Event) : Option (StreamType × Payload) :=
  if msg.type = "event:iceCandidate" then
    (msg.string "candidate" "").bind fun candidate =>
    (msg.string "sdp_mid" "").bind fun sdpMid =>
    (Decoded.get msg.data "sdp_mline_index").asIntOrNull.map fun index =>
      (.iceCandidate, .iceCandidate candidate sdpMid (index.getD 0))
  else if msg.type = "event:iceGatheringComplete" then some (.iceGatheringComplete, .void)
  else if msg.type = "event:dataChannel" then
    (incomingHandle msg).map fun _ => (.dataChannel, .dataChannel child)
  else if msg.type = "event:connectionStateChange" then
    (msg.string "state" "new").bind fun state =>
    (ConnectionState.fromString state).map fun state => (.connectionStateChange, .state state)
  else if msg.type = "event:track" then
    (msg.string "track_id" "").bind fun trackId =>
    (msg.string "stream_id" "").bind fun streamId =>
    (msg.string "codec" "").map fun codec =>
      (.track, .track (match Decoded.get msg.data "kind" with
        | .str kind => kind == "audio"
        | _ => false) trackId streamId codec)
  else none

/-- `_route` of a wrapper of either kind. -/
def routeOf (toStr : Decoded → String) (kind : ResourceKind) (child : Nat) (msg : Event) :
    Option (StreamType × Payload) :=
  match kind with
  | .dataChannel => routeDataChannel toStr msg
  | .peerConnection => routePeerConnection child msg

/-! ### `BufferedBroadcast` -/

def maxBuffered : Nat := 128

/-- The listeners are numbered in the order in which they come. `onListen` is set as long as
`_pending` is not null. -/
structure BufferedBroadcast (α : Type) where
  pending : Option (List α)
  controller : Controller Nat α
  listeners : Nat

namespace BufferedBroadcast

variable {α : Type}

def new : BufferedBroadcast α := ⟨some [], .new, 0⟩

def add (b : BufferedBroadcast α) (event : α) : BufferedBroadcast α :=
  match b.pending with
  | some pending => { b with pending := some (offer maxBuffered pending event) }
  | none => if b.controller.closed then b else { b with controller := b.controller.add event }

/-- `stream.listen`. `onListen` runs when there is no other listener. -/
def listen (b : BufferedBroadcast α) : BufferedBroadcast α :=
  let controller := b.controller.subscribe b.listeners
  if b.controller.active = [] then
    { pending := none
      controller := controller.addAll (b.pending.getD [])
      listeners := b.listeners + 1 }
  else { b with controller := controller, listeners := b.listeners + 1 }

/-- The next event is handed to the listener `k`. -/
def deliver (b : BufferedBroadcast α) (k : Nat) : Option (BufferedBroadcast α) :=
  (b.controller.deliver k).map fun r => { b with controller := r.2 }

def cancel (b : BufferedBroadcast α) (k : Nat) : BufferedBroadcast α :=
  { b with controller := b.controller.cancel k }

def close (b : BufferedBroadcast α) : BufferedBroadcast α :=
  { b with pending := none, controller := b.controller.close }

end BufferedBroadcast

/-! ### `EventDispatcher` -/

def maxBufferedPerHandle : Nat := 128

def maxClosedHandles : Nat := 4096

/-- The controller of a handle. `onListen` has the events to replay, and its listeners are
wrappers. -/
structure HandleController where
  handle : String
  onListen : Option (List Event)
  controller : Controller Nat Event

structure EventDispatcher where
  listeners : GoMap String Nat
  buffered : GoMap String (List Event)
  closedHandles : List String
  closed : Bool
  controllers : Nat → HandleController
  made : Nat

namespace EventDispatcher

def new : EventDispatcher where
  listeners := ∅
  buffered := ∅
  closedHandles := []
  closed := false
  controllers := fun _ => ⟨"", none, .new⟩
  made := 0

def withController (d : EventDispatcher) (c : Nat) (f : HandleController → HandleController) :
    EventDispatcher :=
  { d with controllers := Function.update d.controllers c (f (d.controllers c)) }

def broadcast (d : EventDispatcher) (message : Event) : EventDispatcher :=
  if d.closed then d
  else
    match message.handle with
    | none => d
    | some handle =>
      match d.listeners.get handle with
      | some c => d.withController c fun hc => { hc with controller := hc.controller.add message }
      | none =>
        if handle ∈ d.closedHandles then d
        else
          let buffer := (d.buffered.get handle).getD []
          { d with buffered := d.buffered.set handle (offer maxBufferedPerHandle buffer message) }

/-- `listen`, with the controller whose stream it returns. -/
def listen (d : EventDispatcher) (handle : String) : Nat × EventDispatcher :=
  match d.listeners.get handle with
  | some c => (c, d)
  | none =>
    let onListen := (d.buffered.get handle).filter (· ≠ [])
    (d.made, { d with
      listeners := d.listeners.set handle d.made
      closedHandles := d.closedHandles.erase handle
      buffered := d.buffered.delete handle
      controllers := Function.update d.controllers d.made ⟨handle, onListen, .new⟩
      made := d.made + 1 })

/-- `stream.listen` on the stream of the controller `c`, by the wrapper `w`. -/
def subscribe (d : EventDispatcher) (c w : Nat) : EventDispatcher :=
  d.withController c fun hc =>
    let controller := hc.controller.subscribe w
    if hc.controller.active = [] then
      { hc with onListen := none, controller := controller.addAll (hc.onListen.getD []) }
    else { hc with controller := controller }

/-- `_closedHandles.add`, and the eviction of the oldest entry. -/
def tombstone (d : EventDispatcher) (handle : String) : List String :=
  let closedHandles :=
    if handle ∈ d.closedHandles then d.closedHandles else d.closedHandles ++ [handle]
  if maxClosedHandles < closedHandles.length then closedHandles.tail else closedHandles

def unsubscribe (d : EventDispatcher) (handle : String) : EventDispatcher :=
  let d' := { d with buffered := d.buffered.delete handle, closedHandles := d.tombstone handle }
  match d.listeners.get handle with
  | some c =>
    { d' with listeners := d.listeners.delete handle }.withController c fun hc =>
      { hc with controller := hc.controller.close }
  | none => d'

def closeAll (d : EventDispatcher) : EventDispatcher where
  listeners := ∅
  buffered := ∅
  closedHandles := []
  closed := true
  controllers := fun c =>
    let hc := d.controllers c
    if d.listeners.get hc.handle = some c then { hc with controller := hc.controller.close } else hc
  made := d.made

/-- The next event of the controller `c` for the wrapper `w`. -/
def deliver (d : EventDispatcher) (c w : Nat) : Option (Event × EventDispatcher) :=
  ((d.controllers c).controller.deliver w).map fun r =>
    (r.1, d.withController c fun hc => { hc with controller := r.2 })

end EventDispatcher

/-- A call of `broadcast`, `listen` or `unsubscribe`. -/
inductive DispatcherCall
  | broadcast (message : Event)
  | listen (handle : String)
  | unsubscribe (handle : String)

namespace EventDispatcher

def call (d : EventDispatcher) : DispatcherCall → EventDispatcher
  | .broadcast message => d.broadcast message
  | .listen handle => (d.listen handle).2
  | .unsubscribe handle => d.unsubscribe handle

/-- A sequence of calls. -/
def calls (d : EventDispatcher) (cs : List DispatcherCall) : EventDispatcher := cs.foldl call d

end EventDispatcher

/-! ### Wrappers -/

/-- An event that `_route` was called with, and the number that a wrapper made by this call has. -/
structure Routed where
  msg : Event
  child : Nat

/-- A `PionDataChannel` or a `PionPeerConnection`. It subscribes to the controller `source`. -/
structure Wrapper where
  kind : ResourceKind
  handle : String
  disposed : Bool
  source : Nat
  streams : StreamType → BufferedBroadcast Payload
  children : List Nat
  born : Nat
  routed : List Routed
  opened : StreamType → Option Nat

def Wrapper.new (kind : ResourceKind) (handle : String) (source born : Nat) : Wrapper where
  kind := kind
  handle := handle
  disposed := false
  source := source
  streams := fun _ => .new
  children := []
  born := born
  routed := []
  opened := fun _ => none

namespace Wrapper

def withStream (v : Wrapper) (type : StreamType)
    (f : BufferedBroadcast Payload → BufferedBroadcast Payload) : Wrapper :=
  { v with streams := Function.update v.streams type (f (v.streams type)) }

/-- A listener of a stream. -/
def listen (v : Wrapper) (type : StreamType) : Wrapper :=
  { v.withStream type .listen with
    opened := Function.update v.opened type ((v.opened type).or (some v.routed.length)) }

end Wrapper

structure EventWorld where
  dispatcher : EventDispatcher
  wrappers : Nat → Option Wrapper
  created : Nat
  sent : List Event

/-- A call, or a microtask. `construct` has the `PionPeerConnection` that keeps the new wrapper as a
child, when there is one. -/
inductive EventAction
  | broadcast (msg : Event)
  | construct (kind : ResourceKind) (handle : String) (parent : Option Nat)
  | route (w : Nat)
  | listen (w : Nat) (type : StreamType)
  | deliver (w : Nat) (type : StreamType) (k : Nat)
  | cancel (w : Nat) (type : StreamType) (k : Nat)
  | dispose (w : Nat)
  | closeAll

namespace EventWorld

def new : EventWorld where
  dispatcher := .new
  wrappers := fun _ => none
  created := 0
  sent := []

def withWrapper (s : EventWorld) (w : Nat) (f : Wrapper → Wrapper) : EventWorld :=
  { s with wrappers := Function.update s.wrappers w ((s.wrappers w).map f) }

/-- The constructor of a wrapper: `onEvent().listen(_route)`. -/
def construct (s : EventWorld) (kind : ResourceKind) (handle : String) : EventWorld :=
  let (c, d) := s.dispatcher.listen handle
  { s with
    dispatcher := d.subscribe c s.created
    wrappers := Function.update s.wrappers s.created
      (some (Wrapper.new kind handle c s.sent.length))
    created := s.created + 1 }

/-- `_children.add`. -/
def adopt (s : EventWorld) (parent child : Nat) : EventWorld :=
  s.withWrapper parent fun v => { v with children := v.children ++ [child] }

/-- `_route` of the wrapper `w`, with an event that it was given. -/
def routed (toStr : Decoded → String) (s : EventWorld) (w : Nat) (v : Wrapper) (msg : Event) :
    EventWorld :=
  let child := s.created
  let s := s.withWrapper w fun v => { v with routed := v.routed ++ [⟨msg, child⟩] }
  match routeOf toStr v.kind child msg with
  | none => s
  | some (type, payload) =>
    let s :=
      match v.kind, incomingHandle msg with
      | .peerConnection, some handle => (s.construct .dataChannel handle).adopt w child
      | _, _ => s
    s.withWrapper w (·.withStream type (·.add payload))

/-- The next event of the wrapper `w`. -/
def route (toStr : Decoded → String) (s : EventWorld) (w : Nat) : Option EventWorld :=
  (s.wrappers w).bind fun v =>
    (s.dispatcher.deliver v.source w).map fun r =>
      { s with dispatcher := r.2 }.routed toStr w v r.1

/-- `disposeLocal`, without the children. -/
def release (s : EventWorld) (w : Nat) : EventWorld :=
  match s.wrappers w with
  | none => s
  | some v =>
    if v.disposed then s
    else
      { s with
        dispatcher := (s.dispatcher.unsubscribe v.handle).withController v.source fun hc =>
          { hc with controller := hc.controller.cancel w } }.withWrapper w fun v =>
            { v with disposed := true, streams := fun type => (v.streams type).close }

/-- The children of a wrapper that is not disposed. Only a `PionPeerConnection` has some. -/
def childrenOf (s : EventWorld) (w : Nat) : List Nat :=
  match s.wrappers w with
  | some v => if v.disposed then [] else v.children
  | none => []

/-- `disposeLocal`. A second call returns before it comes to the children. -/
def disposeLocal (s : EventWorld) (w : Nat) : EventWorld :=
  if (s.wrappers w).any Wrapper.disposed then s
  else
    ((s.childrenOf w).foldl release (s.release w)).withWrapper w fun v => { v with children := [] }

/-- `onMessage`. -/
def broadcast (s : EventWorld) (msg : Event) : EventWorld :=
  { s with dispatcher := s.dispatcher.broadcast msg, sent := s.sent ++ [msg] }

def step (toStr : Decoded → String) (s : EventWorld) : EventAction → Option EventWorld
  | .broadcast msg => some (s.broadcast msg)
  | .construct kind handle parent =>
    some (match parent with
      | none => s.construct kind handle
      | some p => (s.construct kind handle).adopt p s.created)
  | .route w => s.route toStr w
  | .listen w type =>
    (s.wrappers w).bind fun v =>
      if type.kind = v.kind then some (s.withWrapper w (·.listen type)) else none
  | .deliver w type k =>
    (s.wrappers w).bind fun v => ((v.streams type).deliver k).map fun b =>
      s.withWrapper w (·.withStream type fun _ => b)
  | .cancel w type k => some (s.withWrapper w (·.withStream type (·.cancel k)))
  | .dispose w => some (s.disposeLocal w)
  | .closeAll => some { s with dispatcher := s.dispatcher.closeAll }

end EventWorld

/-- All runs of the dispatcher and its wrappers. -/
def eventSystem (toStr : Decoded → String) : StepSystem EventWorld EventAction where
  init := EventWorld.new
  step := EventWorld.step toStr

end PionBridge.Dart
