import PionBridge.Lib.Panic
import PionBridge.Server.Bridge

/-!
# `PionBridge.Server.Process`: one frame, from decoding to the response

`processFrame` in `server.go` and all handlers that `HandleMessage` in `handler.go` dispatches to,
each as one uninterrupted run. `Bridge.lean` cuts the requests that create and end resources where
other goroutines come between. Here every type of request is complete, with its checks, its texts
and what it does when a call out of the bridge fails. For the requests that are in both files,
`Proofs/Process/Simulation.lean` shows that they agree.

A handler reads and changes a `ServerState`: the registry, the `Handler` of the session and the
tracing flag. It ends in an `Exit`: the response that it returned, the text that it panicked with,
or the end of the process, and the state as it left it. `processFrame` recovers from a panic.

The calls into pion and into the embedder's hook are a `ForeignCall`. Its type argument is what the
call returns, and any of them can panic. `Surroundings` has the answers to the calls of one frame
beside the other things that the code does not decide: the generated handle, the new send state and
the clock.

The send states are pointers here. What `closeState`, `setThreshold` and the queue of a state do is
in `DCSend.lean`: `dc:send` ends where the work item is queued, and no response is returned for it.
-/

set_option autoImplicit false

namespace PionBridge.Server

open PionBridge.Lib

/-! ### Calls out of the bridge -/

/-- `webrtc.SDPType`. -/
inductive SDPType
  | offer | pranswer | answer | rollback
  deriving DecidableEq

/-- `webrtc.SessionDescription`. -/
structure SessionDescription where
  type : SDPType
  sdp : String

/-- `webrtc.ICECandidateInit`, as far as `handlePCAddIce` fills it. -/
structure ICECandidateInit where
  candidate : String
  sdpMid : Option String
  sdpMLineIndex : Option Int

/-- `webrtc.RTPTransceiverDirection`, without the unknown one. -/
inductive RTPTransceiverDirection
  | sendrecv | sendonly | recvonly | inactive
  deriving DecidableEq

/-- A call into pion, or of the embedder's hook. PeerConnections and DataChannels are given by
their objects. `setupPCCallbacks` and `setupDCCallbacks` stand for the calls that set the callbacks
of an object, `transceivers` for `len(pc.GetTransceivers())`. -/
inductive ForeignCall : Type → Type
  | newPeerConnection (profile : ApiProfile) (config : Configuration) :
      ForeignCall (Except String Nat)
  | setupPCCallbacks (pc : Nat) (handle : Handle) : ForeignCall Unit
  | createOffer (pc : Nat) : ForeignCall (Except String String)
  | createAnswer (pc : Nat) : ForeignCall (Except String String)
  | setLocalDescription (pc : Nat) (desc : SessionDescription) : ForeignCall (Except String Unit)
  | setRemoteDescription (pc : Nat) (desc : SessionDescription) : ForeignCall (Except String Unit)
  | signalingState (pc : Nat) : ForeignCall String
  | addICECandidate (pc : Nat) (init : ICECandidateInit) : ForeignCall (Except String Unit)
  | addTransceiverFromKind (pc : Nat) (kind : CodecType) (direction : RTPTransceiverDirection) :
      ForeignCall (Except String Unit)
  | transceivers (pc : Nat) : ForeignCall Nat
  | createDataChannel (pc : Nat) (label : String) (init : DataChannelInit) :
      ForeignCall (Except String Nat)
  | setBufferedAmountLowThreshold (dc : Nat) (threshold : Nat) : ForeignCall Unit
  | onBufferedAmountLow (dc : Nat) : ForeignCall Unit
  | setupDCCallbacks (dc : Nat) (handle : Handle) (profile : ApiProfile) : ForeignCall Unit
  | label (dc : Nat) : ForeignCall String
  | close (res : Resource) : ForeignCall (Except String Unit)
  | notifyPCClosed (handle : Handle) : ForeignCall Unit

/-- What one frame finds outside. An error of `answer` is the text of a panic. -/
structure Surroundings where
  answer : {α : Type} → ForeignCall α → Except String α
  /-- `fmt.Sprint(data[key])`. -/
  sprint : Option Value → String
  /-- `webrtc.NewRTPCodecType`, with `none` for 0. -/
  newRTPCodecType : String → Option CodecType
  /-- `webrtc.NewRTPTransceiverDirection`, with `none` for the unknown direction. -/
  newRTPTransceiverDirection : String → Option RTPTransceiverDirection
  /-- `generateHandle`. -/
  handle : Handle
  /-- The pointer that `newDCSendState` returns. -/
  state : StateRef
  /-- `time.Now()` in `Lookup` and in a registration. -/
  now : Int
  /-- `time.Now()` in the `Touch` of the frame. -/
  clock : Nat → Int

/-- `closeCollected`. An error of `Close` is only logged. -/
def Surroundings.closeAll (out : Surroundings) : List Registry.CloseEvent → Except String Unit
  | [] => .ok ()
  | .closeState _ _ :: events => out.closeAll events
  | .close _ res :: events =>
    match out.answer (.close res) with
    | .ok _ => out.closeAll events
    | .error text => .error text

/-! ### Handlers -/

/-- What the handlers of one session read and change. -/
structure ServerState where
  reg : Registry
  handler : Handler
  tracing : Bool

/-- The end of a handler. -/
abbrev Turn := Exit ServerState Message

/-- What comes of a frame: the messages that are enqueued on the session's writer and the state, or
the end of the process. -/
inductive FrameEnd
  | sent (msgs : List Message) (st : ServerState)
  | died

/-- `parseSdpType`. -/
def parseSdpType : String → SDPType
  | "offer" => .offer
  | "pranswer" => .pranswer
  | "answer" => .answer
  | "rollback" => .rollback
  | _ => .offer

namespace ServerState

/-- An error response, and nothing else. -/
def refuse (st : ServerState) (id : Int) (code text : String) (handle : Handle) : Turn :=
  .ret st (errorResponse id code text false handle)

/-- A call that returns a value or an error. The response to an error is `INTERNAL_ERROR`. -/
def attempt {α : Type} (st : ServerState) (id : Int) (handle : Handle)
    (call : Except String (Except String α)) (next : α → Turn) : Turn :=
  .after st call fun
    | .ok a => next a
    | .error err => st.refuse id "INTERNAL_ERROR" err handle

section

variable (env : Platform) (out : Surroundings)

/-- A handler that starts with `lookupPC` or `lookupDC`. -/
def lookupThen (st : ServerState) (msg : Message)
    (find : Registry → Message → Except Message Nat) (next : Nat → ServerState → Turn) : Turn :=
  let st := if msg.handle = "" then st
    else { st with reg := (st.reg.lookup msg.handle out.now).2 }
  match find st.reg msg with
  | .error resp => .ret st resp
  | .ok obj => next obj st

/-- `handleInit`, with the call of `StartTracing`. -/
def handleInit (st : ServerState) (msg : Message) : Turn :=
  let (h, tracing, resp) := Server.handleInit env st.handler msg
  .ret { st with handler := h, tracing := st.tracing || tracing } resp

/-- `handlePCCreate`. -/
def handlePCCreate (st : ServerState) (msg : Message) : Turn :=
  match st.handler.createProfile env msg.data with
  | .error err => .ret st (profileErrorResponse msg.id err)
  | .ok (profile, h) =>
    let st := { st with handler := h }
    st.attempt msg.id "" (out.answer (.newPeerConnection profile (pcConfiguration msg.data)))
      fun pc =>
        let st : ServerState := { st with
          reg := st.reg.register ⟨.peerConnection, pc⟩ out.handle out.now
          handler := st.handler.setPCProfile out.handle profile }
        .after st (out.answer (.setupPCCallbacks pc out.handle)) fun _ =>
          .ret st (ackResponse "pc:create" msg.id out.handle
            [("handle", .str out.handle), ("state", .str "new")])

/-- The common part of `handlePCOffer` and `handlePCAnswer`. -/
def handleCreateDesc (type : String) (call : Nat → ForeignCall (Except String String))
    (st : ServerState) (msg : Message) : Turn :=
  st.lookupThen out msg lookupPC fun pc st =>
    st.attempt msg.id msg.handle (out.answer (call pc)) fun sdp =>
      .ret st (ackResponse type msg.id msg.handle [("sdp", .str sdp)])

/-- `handlePCOffer`. -/
def handlePCOffer : ServerState → Message → Turn :=
  handleCreateDesc out "pc:offer" .createOffer

/-- `handlePCAnswer`. -/
def handlePCAnswer : ServerState → Message → Turn :=
  handleCreateDesc out "pc:answer" .createAnswer

/-- The common part of `handlePCSetLocalDesc` and `handlePCSetRemoteDesc`. -/
def handleSetDesc (type : String)
    (call : Nat → SessionDescription → ForeignCall (Except String Unit)) (st : ServerState)
    (msg : Message) : Turn :=
  st.lookupThen out msg lookupPC fun pc st =>
    let sdp := (msg.data.str? "sdp").getD ""
    let sdpType := (msg.data.str? "type").getD ""
    if sdp = "" ∨ sdpType = "" then
      st.refuse msg.id "INVALID_REQUEST" "missing sdp or type" msg.handle
    else
      st.attempt msg.id msg.handle (out.answer (call pc ⟨parseSdpType sdpType, sdp⟩)) fun _ =>
        .after st (out.answer (.signalingState pc)) fun state =>
          .ret st (ackResponse type msg.id msg.handle [("state", .str state)])

/-- `handlePCSetLocalDesc`. -/
def handlePCSetLocalDesc : ServerState → Message → Turn :=
  handleSetDesc out "pc:setLocalDesc" .setLocalDescription

/-- `handlePCSetRemoteDesc`. -/
def handlePCSetRemoteDesc : ServerState → Message → Turn :=
  handleSetDesc out "pc:setRemoteDesc" .setRemoteDescription

/-- `handlePCAddIce`. -/
def handlePCAddIce (st : ServerState) (msg : Message) : Turn :=
  st.lookupThen out msg lookupPC fun pc st =>
    let candidate := (msg.data.str? "candidate").getD ""
    if candidate = "" then st.refuse msg.id "INVALID_REQUEST" "missing candidate" msg.handle
    else
      let init : ICECandidateInit :=
        ⟨candidate, msg.data.str? "sdp_mid", env.uint16? msg.data "sdp_mline_index"⟩
      st.attempt msg.id msg.handle (out.answer (.addICECandidate pc init)) fun _ =>
        .ret st (ackResponse "pc:addIce" msg.id msg.handle [])

/-- `handlePCClose`. The profile is forgotten before `Close`, and the hook runs after it. -/
def handlePCClose (st : ServerState) (msg : Message) : Turn :=
  st.lookupThen out msg lookupPC fun pc st =>
    let st := { st with handler := st.handler.forgetPCProfile msg.handle }
    (st.attempt msg.id msg.handle (out.answer (.close ⟨.peerConnection, pc⟩)) fun _ =>
      .ret st (ackResponse "pc:close" msg.id msg.handle [])).deferred
        (out.answer (.notifyPCClosed msg.handle))

/-- `handlePCAddTransceiver`. -/
def handlePCAddTransceiver (st : ServerState) (msg : Message) : Turn :=
  st.lookupThen out msg lookupPC fun pc st =>
    match out.newRTPCodecType (out.sprint (msg.data.get "kind")) with
    | none => st.refuse msg.id "INVALID_REQUEST" "kind must be video or audio" msg.handle
    | some kind =>
      match out.newRTPTransceiverDirection (out.sprint (msg.data.get "direction")) with
      | none => st.refuse msg.id "INVALID_REQUEST"
          "direction must be sendrecv, sendonly, recvonly or inactive" msg.handle
      | some direction =>
        st.attempt msg.id msg.handle (out.answer (.addTransceiverFromKind pc kind direction))
          fun _ => .after st (out.answer (.transceivers pc)) fun count =>
            .ret st (ackResponse "pc:addTransceiver" msg.id msg.handle
              [("index", .int .int (count - 1))])

/-- `startDCSendGoroutine`, up to the start of the goroutine. -/
def startDCSendGoroutine (st : ServerState) (dc : Nat) (dcHandle : Handle)
    (next : ServerState → Turn) : Turn :=
  -- `make(chan dcSendWork, n)` in `newDCSendState`.
  match env.makeChan st.handler.dcConfig.sendQueueDepth with
  | .outOfRange => .panic st "makechan: size out of range"
  | .outOfMemory => .die st
  | .made =>
    let (fresh, reg) := st.reg.registerDCSendState dcHandle out.state
    let st := { st with reg := reg }
    if fresh then
      .after st (out.answer (.setBufferedAmountLowThreshold dc
          st.handler.dcConfig.bufferedAmountLowThreshold)) fun _ =>
        .after st (out.answer (.onBufferedAmountLow dc)) fun _ => next st
    else next st

/-- `handlePCCreateDc`. -/
def handlePCCreateDc (st : ServerState) (msg : Message) : Turn :=
  st.lookupThen out msg lookupPC fun pc st =>
    let label := (msg.data.str? "label").getD ""
    if label = "" then st.refuse msg.id "INVALID_REQUEST" "missing label" msg.handle
    else
      st.attempt msg.id msg.handle
        (out.answer (.createDataChannel pc label (dcInit env msg.data))) fun dc =>
          let st : ServerState := { st with
            reg := st.reg.registerChild ⟨.dataChannel, dc⟩ msg.handle out.handle out.now }
          let profile := st.handler.pcProfile msg.handle
          st.startDCSendGoroutine env out dc out.handle fun st =>
            .after st (out.answer (.setupDCCallbacks dc out.handle profile)) fun _ =>
              .after st (out.answer (.label dc)) fun dcLabel =>
                .ret st (ackResponse "pc:createDc" msg.id msg.handle
                  [("dc_handle", .str out.handle), ("label", .str dcLabel),
                    ("state", .str "connecting")])

/-- `handleDCSend`. The empty message is no response: the item that was queued is answered later. -/
def handleDCSend (st : ServerState) (msg : Message) : Turn :=
  match st.reg.lookupDCSendState msg.handle with
  | none => st.refuse msg.id "NOT_FOUND" ("dc:send on unknown handle: " ++ msg.handle) msg.handle
  | some _ =>
    match msg.data.get "data" with
    | some (.bin _) | some (.str _) => .ret st ⟨"", 0, "", []⟩
    | _ => st.refuse msg.id "INVALID_REQUEST" "data must be string or binary" msg.handle

/-- `handleDCSetBufferedAmountLowThreshold`. -/
def handleDCSetBufferedAmountLowThreshold (st : ServerState) (msg : Message) : Turn :=
  st.lookupThen out msg lookupDC fun dc st =>
    match env.uint64? msg.data "threshold" with
    | none => st.refuse msg.id "INVALID_REQUEST" "missing or invalid threshold" msg.handle
    | some threshold =>
      .after st (out.answer (.setBufferedAmountLowThreshold dc threshold.toNat)) fun _ =>
        .ret st (ackResponse "dc:setBufferedAmountLowThreshold" msg.id msg.handle [])

/-- `handleDCClose`. The send state is stopped before `Close`. -/
def handleDCClose (st : ServerState) (msg : Message) : Turn :=
  st.lookupThen out msg lookupDC fun dc st =>
    let st := { st with reg := (st.reg.removeDCSendState msg.handle).2 }
    st.attempt msg.id msg.handle (out.answer (.close ⟨.dataChannel, dc⟩)) fun _ =>
      .ret st (ackResponse "dc:close" msg.id msg.handle [])

/-- The part of `handleResourceDelete` after the locked part of `Delete`. -/
def afterDelete (st : ServerState) (msg : Message) :
    Except String (List Registry.CloseEvent) → Turn
  | .error err => st.refuse msg.id "NOT_FOUND" err msg.handle
  | .ok events => .after st (out.closeAll events) fun _ =>
      .ret st (ackResponse "resource:delete" msg.id msg.handle [])

/-- `handleResourceDelete`. The result is `none` when `Delete` runs out of fuel. -/
def handleResourceDelete (st : ServerState) (msg : Message) : Option Turn :=
  if msg.handle = "" then some (st.refuse msg.id "INVALID_REQUEST" "missing handle" "")
  else
    let (res, reg) := st.reg.lookup msg.handle out.now
    let isPC := res.any (·.kind = .peerConnection)
    -- The profile is forgotten before `Delete` finds out whether the handle is registered.
    let handler := st.handler.forgetPCProfile msg.handle
    (reg.delete msg.handle).map fun (deleted, reg) =>
      let turn := { st with reg := reg, handler := handler }.afterDelete out msg deleted
      if isPC then turn.deferred (out.answer (.notifyPCClosed msg.handle)) else turn

/-- `HandleMessage`. -/
def handleMessage (st : ServerState) (msg : Message) : Option Turn :=
  match msg.type with
  | "init" => some (st.handleInit env msg)
  | "pc:create" => some (st.handlePCCreate env out msg)
  | "pc:offer" => some (st.handlePCOffer out msg)
  | "pc:answer" => some (st.handlePCAnswer out msg)
  | "pc:setLocalDesc" => some (st.handlePCSetLocalDesc out msg)
  | "pc:setRemoteDesc" => some (st.handlePCSetRemoteDesc out msg)
  | "pc:addIce" => some (st.handlePCAddIce env out msg)
  | "pc:close" => some (st.handlePCClose out msg)
  | "pc:addTransceiver" => some (st.handlePCAddTransceiver out msg)
  | "pc:createDc" => some (st.handlePCCreateDc env out msg)
  | "dc:send" => some (st.handleDCSend msg)
  | "dc:setBufferedAmountLowThreshold" =>
      some (st.handleDCSetBufferedAmountLowThreshold env out msg)
  | "dc:close" => some (st.handleDCClose out msg)
  | "resource:delete" => st.handleResourceDelete out msg
  | type => some (st.refuse msg.id "INVALID_REQUEST" ("unknown message type: " ++ type) "")

/-- The `Touch` of `processFrame`, which refreshes the stamps of the handle and its ancestors. -/
def touch (st : ServerState) (msg : Message) : Option ServerState :=
  if msg.handle = "" then some st
  else (st.reg.touch msg.handle out.clock).map fun reg => { st with reg := reg }

/-- The end of `processFrame`, after the handler. -/
def finish (turn : Turn) : FrameEnd :=
  -- The deferred function is made before the message is, so it cannot use the id of the request.
  match turn.recover fun text => errorResponse 0 "FATAL_PANIC" text true "" with
  | some (resp, st) => .sent (if resp.type = "" then [] else [resp]) st
  | none => .died

/-- `processFrame` on a frame with the given result of `msgpack.Unmarshal`. The result is `none`
when `Touch` or `Delete` runs out of fuel. -/
def processFrame (st : ServerState) (frame : Except String Message) : Option FrameEnd :=
  match frame with
  | .error err =>
    some (.sent [errorResponse 0 "INVALID_REQUEST" ("invalid msgpack: " ++ err) false ""] st)
  | .ok msg =>
    (st.touch out msg).bind fun st => (st.handleMessage env out msg).map finish

end

end ServerState

end PionBridge.Server
