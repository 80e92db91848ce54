import PionBridge.Server.Handler
import PionBridge.Server.RegistryCalls

/-!
# `PionBridge.Server.Bridge`: sessions, connections and channels

All sessions of one bridge over its one registry (`handler.go`, `processFrame` in
`server.go`). A session has a `Handler` and a reader goroutine that handles its frames one
after the other. Pion runs `OnDataChannel` callbacks in goroutines of their own, and other
goroutines sweep the registry. The requests here are those that create and end resources:
`init`, `pc:create`, `pc:createDc`, `pc:close`, `dc:close` and `resource:delete`.

A step is what one goroutine does between two points at which others can see or change
something: a locked operation on the registry or on the maps of a handler, or a call into
pion. The registry part of the state is a `CallWorld`, and every step moves it by its own
step function or not at all. So what is proved there of all interleavings of registry calls
holds here.

What the code keeps in pion's objects and goroutines is state here: the profile a
PeerConnection was created with, the callbacks that are set, and the senders that run.
`channels` lists the send states that were made, and `out` the messages in order.
-/

set_option autoImplicit false

namespace PionBridge.Server

open PionBridge.Lib

/-- A goroutine that runs the code of a handler. -/
inductive Thread
  | reader (s : Session)
  | callback (n : Nat)
  deriving DecidableEq

/-- A `*webrtc.PeerConnection`: the profile whose API made it, and its configuration. -/
structure Peer where
  profile : ApiProfile
  config : Configuration

/-- A `*webrtc.DataChannel`, with the options it was created with. -/
structure ChannelObject where
  label : String
  init : DataChannelInit

/-- `dc.Ordered()`. Pion's channels are ordered unless they are told otherwise. -/
def ChannelObject.ordered (c : ChannelObject) : Bool := c.init.ordered.getD true

/-- A DataChannel on its way into the registry: the session whose handler does it, the
`pc:createDc` request (none in the callback), the PeerConnection with its handle, and the
channel. Objects are given by their index. -/
structure Making where
  session : Session
  request : Option Message
  parent : Handle
  peer : Nat
  channel : Nat

/-- The handle that `RegisterChild` returned, and whether the parent handle was registered for
that PeerConnection at that moment. -/
structure Child where
  handle : Handle
  parented : Bool

/-- Where a goroutine stands: the next thing it does. In `making` it registers the channel and
reads the profile, in an order that depends on the caller, and then makes the send state. -/
inductive ThreadPc
  | idle
  | dispatch (msg : Message)
  | register (msg : Message) (profile : ApiProfile) (peer : Nat)
  | setPCProfile (msg : Message) (handle : Handle) (profile : ApiProfile) (peer : Nat)
  | setupPCCallbacks (msg : Message) (handle : Handle) (peer : Nat)
  | createDataChannel (msg : Message) (peer : Nat)
  | making (m : Making) (child : Option Child) (profile : Option ApiProfile)
  | startSender (m : Making) (child : Child) (profile : ApiProfile) (state : StateRef)
  | setupDCCallbacks (m : Making) (child : Child) (profile : ApiProfile)
  | forgetPCProfile (msg : Message)
  | closePC (msg : Message)
  | delete (msg : Message)
  | deleting (msg : Message)
  | removeState (msg : Message)
  | closeState (msg : Message) (state : StateRef)
  | closeDC (msg : Message)

/-- A send state that was made for a registered channel. The profile is the one that
`startDCSendGoroutine` and `setupDCCallbacks` get. -/
structure ChannelStart where
  making : Making
  child : Child
  profile : ApiProfile
  cfg : DCConfig

structure Bridge where
  calls : CallWorld
  /-- `Trace.enabled`. -/
  tracing : Bool
  handlers : Session → Handler
  threads : Thread → ThreadPc
  peers : List Peer
  objects : List ChannelObject
  /-- The `OnDataChannel` callback of a PeerConnection: its handle and the handler. -/
  hooks : Nat → Option (Handle × Session)
  stateCount : Nat
  channels : List ChannelStart
  /-- The sender goroutines that run. -/
  senders : List (Handle × StateRef)
  /-- The states closed by `stopDCSendGoroutine`. -/
  stopped : List StateRef
  out : List (Session × Message)

/-- One step. The arguments are the choices that the code does not make: the frames that
arrive, what pion returns, the generated handles and the clock. -/
inductive BridgeAction
  | frame (s : Session) (msg : Message) (clock : Nat → Int)
  | dispatch (s : Session) (now : Int) (failure : Option String)
  | register (s : Session) (handle : Handle) (now : Int)
  | setPCProfile (s : Session)
  | setupPCCallbacks (s : Session)
  | createDataChannel (s : Session) (failure : Option String)
  | onDataChannel (n : Nat) (peer : Nat) (label : String) (ordered : Bool)
  | registerChild (t : Thread) (handle : Handle) (now : Int)
  | readProfile (t : Thread)
  | registerState (t : Thread)
  | startSender (t : Thread)
  | setupDCCallbacks (t : Thread)
  | forgetPCProfile (s : Session)
  | closePC (s : Session) (failure : Option String)
  | delete (s : Session)
  | deleted (s : Session)
  | removeState (s : Session)
  | closeState (s : Session)
  | closeDC (s : Session) (failure : Option String)
  | call (a : CallAction)
  | exit (handle : Handle) (state : StateRef)

/-- The requests of this file. -/
def resourceRequests : List String :=
  ["init", "pc:create", "pc:createDc", "pc:close", "dc:close", "resource:delete"]

/-- The calls of a session's reader and of a sweeper are different goroutines. -/
def readerCall (s : Session) : Goroutine := 2 * s

/-- The registry steps that are no request's own: the sweepers', the shutdown calls of a
running `Delete`, the `Touch` of an event, and changes of a connection's state. -/
def CallAction.isFree : CallAction → Bool
  | .op (.touch _ _) => true
  | .op _ => false
  | .connection _ _ => true
  | .delete _ _ => false
  | .scan g _ _ _ => g % 2 = 1
  | .judge _ | .reap _ | .close _ | .refresh _ _ => true
  | .ret g => g % 2 = 1

/-- The common part of `lookupPC` and `lookupDC`: the object, or the response. -/
def lookupKind (kind : ResourceKind) (wrong : String) (reg : Registry) (msg : Message) :
    Except Message Nat :=
  if msg.handle = "" then
    .error (errorResponse msg.id "INVALID_REQUEST" "missing handle" false "")
  else
    match reg.resources.get msg.handle with
    | none =>
      .error (errorResponse msg.id "NOT_FOUND" ("handle not found: " ++ msg.handle) false
        msg.handle)
    | some res =>
      if res.kind = kind then .ok res.obj
      else .error (errorResponse msg.id "INVALID_REQUEST" wrong false msg.handle)

/-- `lookupPC`. -/
def lookupPC : Registry → Message → Except Message Nat :=
  lookupKind .peerConnection "handle is not a PeerConnection"

/-- `lookupDC`. -/
def lookupDC : Registry → Message → Except Message Nat :=
  lookupKind .dataChannel "handle is not a DataChannel"

namespace Bridge

def reg (w : Bridge) : Registry := w.calls.reg

/-- A step of the registry part. -/
def callStep (w : Bridge) (a : CallAction) : Option Bridge :=
  (w.calls.step a).map fun calls => { w with calls := calls }

def goto (w : Bridge) (t : Thread) (pc : ThreadPc) : Bridge :=
  { w with threads := Function.update w.threads t pc }

def withHandler (w : Bridge) (s : Session) (h : Handler) : Bridge :=
  { w with handlers := Function.update w.handlers s h }

def send (w : Bridge) (s : Session) (msg : Message) : Bridge :=
  { w with out := w.out ++ [(s, msg)] }

/-- The end of a request: its response. -/
def reply (w : Bridge) (s : Session) (msg : Message) : Bridge :=
  (w.goto (.reader s) .idle).send s msg

/-- `registry.Lookup(msg.Handle)`, which is not called without a handle. -/
def lookup (w : Bridge) (msg : Message) (now : Int) : Option Bridge :=
  if msg.handle = "" then some w else w.callStep (.op (.lookup msg.handle now))

/-- The response after a call of pion: an error, or the ack without data. -/
def finish (w : Bridge) (s : Session) (msg : Message) : Option String → Bridge
  | some err => w.reply s (errorResponse msg.id "INTERNAL_ERROR" err false msg.handle)
  | none => w.reply s (ackResponse msg.type msg.id msg.handle [])

/-- A request that starts with a lookup: the error response, or the next place. -/
def lookupThen (w : Bridge) (s : Session) (msg : Message) (now : Int)
    (find : Registry → Message → Except Message Nat) (next : Nat → Bridge → Bridge) :
    Option Bridge :=
  (w.lookup msg now).map fun w =>
    match find w.reg msg with
    | .error resp => w.reply s resp
    | .ok obj => next obj w

section

variable (env : Platform)

/-- `handlePCCreate`, up to and with `NewPeerConnection`. -/
def handlePCCreate (w : Bridge) (s : Session) (msg : Message) (failure : Option String) :
    Bridge :=
  match (w.handlers s).createProfile env msg.data with
  | .error err => w.reply s (profileErrorResponse msg.id err)
  | .ok (profile, h) =>
    match failure with
    -- The profile stays in the cache when `NewPeerConnection` fails.
    | some err =>
      (w.withHandler s h).reply s (errorResponse msg.id "INTERNAL_ERROR" err false "")
    | none =>
      let peer : Peer := ⟨profile, pcConfiguration msg.data⟩
      { w.withHandler s h with peers := w.peers ++ [peer] }.goto (.reader s)
        (.register msg profile w.peers.length)

/-- `HandleMessage`: the whole of `init`, and the other requests up to the first point at
which another goroutine can come between. -/
def handleMessage (w : Bridge) (s : Session) (msg : Message) (now : Int)
    (failure : Option String) : Option Bridge :=
  match msg.type with
  | "init" =>
    let (h, tracing, resp) := handleInit env (w.handlers s) msg
    some ({ w.withHandler s h with tracing := w.tracing || tracing }.reply s resp)
  | "pc:create" => some (w.handlePCCreate env s msg failure)
  | "pc:createDc" =>
    w.lookupThen s msg now lookupPC fun peer w =>
      if (msg.data.str? "label").getD "" = "" then
        w.reply s (errorResponse msg.id "INVALID_REQUEST" "missing label" false msg.handle)
      else w.goto (.reader s) (.createDataChannel msg peer)
  | "pc:close" =>
    w.lookupThen s msg now lookupPC fun _ w => w.goto (.reader s) (.forgetPCProfile msg)
  | "dc:close" =>
    w.lookupThen s msg now lookupDC fun _ w => w.goto (.reader s) (.removeState msg)
  | "resource:delete" =>
    if msg.handle = "" then
      some (w.reply s (errorResponse msg.id "INVALID_REQUEST" "missing handle" false ""))
    else (w.lookup msg now).map fun w => w.goto (.reader s) (.forgetPCProfile msg)
  | _ => none

/-! ### The steps of a request -/

def stepRequest (w : Bridge) : BridgeAction → Option Bridge
  | .frame s msg clock =>
    match w.threads (.reader s) with
    | .idle =>
      if msg.type ∈ resourceRequests then
        -- `processFrame` touches the handle of every frame before it dispatches.
        if msg.handle = "" then some (w.goto (.reader s) (.dispatch msg))
        else (w.callStep (.op (.touch msg.handle clock))).map fun w =>
          w.goto (.reader s) (.dispatch msg)
      else none
    | _ => none
  | .dispatch s now failure =>
    match w.threads (.reader s) with
    | .dispatch msg => w.handleMessage env s msg now failure
    | _ => none
  | .register s handle now =>
    match w.threads (.reader s) with
    | .register msg profile peer =>
      (w.callStep (.op (.register ⟨.peerConnection, peer⟩ handle now))).map fun w =>
        w.goto (.reader s) (.setPCProfile msg handle profile peer)
    | _ => none
  | .setPCProfile s =>
    match w.threads (.reader s) with
    | .setPCProfile msg handle profile peer =>
      some ((w.withHandler s ((w.handlers s).setPCProfile handle profile)).goto (.reader s)
        (.setupPCCallbacks msg handle peer))
    | _ => none
  | .setupPCCallbacks s =>
    match w.threads (.reader s) with
    | .setupPCCallbacks msg handle peer =>
      some ({ w with hooks := Function.update w.hooks peer (some (handle, s)) }.reply s
        (ackResponse "pc:create" msg.id handle
          [("handle", .str handle), ("state", .str "new")]))
    | _ => none
  | .createDataChannel s failure =>
    match w.threads (.reader s) with
    | .createDataChannel msg peer =>
      match failure with
      | some err =>
        some (w.reply s (errorResponse msg.id "INTERNAL_ERROR" err false msg.handle))
      | none =>
        let object : ChannelObject :=
          ⟨(msg.data.str? "label").getD "", dcInit env msg.data⟩
        some ({ w with objects := w.objects ++ [object] }.goto (.reader s)
          (.making ⟨s, some msg, msg.handle, peer, w.objects.length⟩ none none))
    | _ => none
  | .forgetPCProfile s =>
    match w.threads (.reader s) with
    | .forgetPCProfile msg =>
      -- `resource:delete` forgets the profile before it knows whether `Delete` succeeds.
      some ((w.withHandler s ((w.handlers s).forgetPCProfile msg.handle)).goto (.reader s)
        (if msg.type = "pc:close" then .closePC msg else .delete msg))
    | _ => none
  | .closePC s failure =>
    match w.threads (.reader s) with
    | .closePC msg => some (w.finish s msg failure)
    | _ => none
  | .delete s =>
    match w.threads (.reader s) with
    | .delete msg =>
      -- The check and the collecting pass are in one critical section of `Delete`.
      if w.reg.resources.Has msg.handle then
        (w.callStep (.delete (readerCall s) msg.handle)).map fun w =>
          w.goto (.reader s) (.deleting msg)
      else some (w.reply s (errorResponse msg.id "NOT_FOUND"
        ("handle not found: " ++ msg.handle) false msg.handle))
    | _ => none
  | .deleted s =>
    match w.threads (.reader s) with
    | .deleting msg =>
      (w.callStep (.ret (readerCall s))).map fun w => w.finish s msg none
    | _ => none
  | .removeState s =>
    match w.threads (.reader s) with
    | .removeState msg =>
      (w.callStep (.op (.removeDCSendState msg.handle))).map fun w' =>
        match w.reg.lookupDCSendState msg.handle with
        | some state => w'.goto (.reader s) (.closeState msg state)
        | none => w'.goto (.reader s) (.closeDC msg)
    | _ => none
  | .closeState s =>
    match w.threads (.reader s) with
    | .closeState msg state =>
      some ({ w with stopped := w.stopped ++ [state] }.goto (.reader s) (.closeDC msg))
    | _ => none
  | .closeDC s failure =>
    match w.threads (.reader s) with
    | .closeDC msg => some (w.finish s msg failure)
    | _ => none
  | _ => none

/-! ### The steps of a DataChannel in the making -/

/-- `pcProfile` comes after `RegisterChild` in `handlePCCreateDc`, and before it in the
callback. -/
def profileFirst (m : Making) : Bool := m.request.isNone

/-- The end of the creation: the ack of the request, or the event of the callback. -/
def announce (w : Bridge) (t : Thread) (m : Making) (child : Child) : Bridge :=
  let label := ((w.objects[m.channel]?).map (·.label)).getD ""
  let ordered := ((w.objects[m.channel]?).map (·.ordered)).getD true
  match m.request with
  | some msg => (w.goto t .idle).send m.session (ackResponse "pc:createDc" msg.id msg.handle
      [("dc_handle", .str child.handle), ("label", .str label), ("state", .str "connecting")])
  | none => (w.goto t .idle).send m.session (event "event:dataChannel" m.parent
      [("type", .str "dataChannel"), ("dc_handle", .str child.handle), ("label", .str label),
        ("ordered", .bool ordered)])

/-- A panic in a thread is recovered: `processFrame` answers, a callback only logs. -/
def recovered (w : Bridge) (t : Thread) (m : Making) (text : String) : Bridge :=
  match m.request with
  | some _ => (w.goto t .idle).send m.session (errorResponse 0 "FATAL_PANIC" text true "")
  | none => w.goto t .idle

def stepMaking (w : Bridge) : BridgeAction → Option Bridge
  | .registerChild t handle now =>
    match w.threads t with
    | .making m none profile =>
      if profileFirst m && profile.isNone then none
      else
        -- The parent was looked up earlier, and `RegisterChild` does not look again.
        let parented := w.reg.resources.get m.parent == some ⟨.peerConnection, m.peer⟩
        (w.callStep (.op (.registerChild ⟨.dataChannel, m.channel⟩ m.parent handle now))).map
          fun w => w.goto t (.making m (some ⟨handle, parented⟩) profile)
    | _ => none
  | .readProfile t =>
    match w.threads t with
    | .making m child none =>
      if !profileFirst m && child.isNone then none
      else some (w.goto t (.making m child (some ((w.handlers m.session).pcProfile m.parent))))
    | _ => none
  | .registerState t =>
    match w.threads t with
    | .making m (some child) (some profile) =>
      -- `startDCSendGoroutine` reads the configuration here, not at the request.
      let cfg := (w.handlers m.session).dcConfig
      match env.makeChan cfg.sendQueueDepth with
      | .outOfRange => some (w.recovered t m "makechan: size out of range")
      -- The process is gone. Its runs end in the state before.
      | .outOfMemory => none
      | .made =>
        (w.callStep (.op (.registerDCSendState child.handle w.stateCount))).map fun w' =>
          let made : Bridge := { w' with
            stateCount := w.stateCount + 1
            channels := w.channels ++ [⟨m, child, profile, cfg⟩] }
          -- A handle that has a state already gets no sender.
          if (w.reg.registerDCSendState child.handle w.stateCount).1 then
            made.goto t (.startSender m child profile w.stateCount)
          else made.goto t (.setupDCCallbacks m child profile)
    | _ => none
  | .startSender t =>
    match w.threads t with
    | .startSender m child profile state =>
      some ({ w with senders := w.senders ++ [(child.handle, state)] }.goto t
        (.setupDCCallbacks m child profile))
    | _ => none
  | .setupDCCallbacks t =>
    match w.threads t with
    | .setupDCCallbacks m child _ => some (w.announce t m child)
    | _ => none
  | _ => none

/-- `done` of a state is closed: `closeCollected` or `stopDCSendGoroutine` came to it. -/
def stateClosed (w : Bridge) (state : StateRef) : Bool :=
  state ∈ w.stopped || w.calls.closed.any fun
    | .closeState _ s => s == state
    | .close _ _ => false

def step (w : Bridge) : BridgeAction → Option Bridge
  | .call a => if a.isFree then w.callStep a else none
  | .onDataChannel n peer label ordered =>
    match w.threads (.callback n), w.hooks peer with
    | .idle, some (handle, s) =>
      let object : ChannelObject := ⟨label, { ordered := some ordered }⟩
      some ({ w with objects := w.objects ++ [object] }.goto (.callback n)
        (.making ⟨s, none, handle, peer, w.objects.length⟩ none none))
    | _, _ => none
  | .exit handle state =>
    if (handle, state) ∈ w.senders ∧ w.stateClosed state then
      some { w with senders := w.senders.erase (handle, state) }
    else none
  | .registerChild t handle now => w.stepMaking env (.registerChild t handle now)
  | .readProfile t => w.stepMaking env (.readProfile t)
  | .registerState t => w.stepMaking env (.registerState t)
  | .startSender t => w.stepMaking env (.startSender t)
  | .setupDCCallbacks t => w.stepMaking env (.setupDCCallbacks t)
  | a => w.stepRequest env a

end

end Bridge

/-- A bridge without resources: every session that connects starts with a new handler. -/
def newBridge : Bridge where
  calls := callSystem.init
  tracing := false
  handlers _ := newHandler
  threads _ := .idle
  peers := []
  objects := []
  hooks _ := none
  stateCount := 0
  channels := []
  senders := []
  stopped := []
  out := []

/-- All interleavings of the bridge. -/
def bridgeSystem (env : Platform) : StepSystem Bridge BridgeAction where
  init := newBridge
  step := Bridge.step env

end PionBridge.Server
