import PionBridge.Lib.StepSystem
import PionBridge.Server.Message
import PionBridge.Server.Registry

/-!
# `PionBridge.Server.DCSend`: the send pipeline of one DataChannel

One `DCSendState` with everybody who works on it (`dcsend.go` and the `dc:send` part of
`handler.go`): any number of sessions whose readers run `handleDCSend` and
`handleDCSetBufferedAmountLowThreshold`, the sender goroutine with `runDCSend` and
`waitForBuffer`, any number of goroutines that call `closeState`, and pion's side of the
channel.

Every goroutine has a program counter, and a step is one atomic action of one goroutine. A
`select` with several ready cases is several enabled steps. The mutex of the condition
variable is held over several steps by the sender only (`SenderPc.holdsLock`); the other
critical sections are one step each, enabled while the sender does not hold it. A call of
`sendEvent` is one step that always returns.

`requests`, `taken` and `emitted` record what happened: the `dc:send` frames in the order in
which `handleDCSend` ran, the items that the sender took up, and the messages that went out.
-/

set_option autoImplicit false

namespace PionBridge.Server

open PionBridge.Lib

/-- `DCConfig`. -/
structure DCConfig where
  bufferedAmountLowThreshold : Nat
  sendQueueDepth : Int
  deriving DecidableEq, Repr

/-- `DefaultDCConfig`. -/
def defaultDCConfig : DCConfig := ⟨512 * 1024, 32⟩

/-- A connection with its `Handler` and its reader goroutine. -/
abbrev Session := Nat

/-- `dcSendWork`. `session` stands for the `sendEvent` closure of the session that issued
the send. -/
structure DCSendWork where
  data : List UInt8
  text : String
  isText : Bool
  msgID : Int
  handle : Handle
  awaitDrain : Bool
  session : Session

/-- One run of `handleDCSend`, on a `dc:send` frame for this channel. `found` is the result of
`LookupDCSendState`. -/
structure Request where
  index : Nat
  session : Session
  msg : Message
  found : Bool

/-- The switch of `handleDCSend` on the payload. -/
def Request.work (r : Request) : Option DCSendWork :=
  match r.msg.data.get "data" with
  | some (.bin payload) =>
      some { data := payload, text := "", isText := false, msgID := r.msg.id,
             handle := r.msg.handle, session := r.session,
             awaitDrain := (r.msg.data.bool? "await_drain").getD true }
  | some (.str payload) =>
      some { data := [], text := payload, isText := true, msgID := r.msg.id,
             handle := r.msg.handle, session := r.session, awaitDrain := false }
  | _ => none

/-- A work item together with the request that it was made for. -/
structure Item where
  request : Request
  work : DCSendWork
  found : request.found = true
  made : request.work = some work

/-- A message goes out through the `sendEvent` of a session, or as the return value of the
handler, which `processFrame` queues on the session's writer. -/
inductive Route
  | sendEvent
  | returned
  deriving DecidableEq, Repr

/-- A message that went out. `request` is the `dc:send` that it answers, if any. -/
structure Emission where
  request : Option Request
  session : Session
  route : Route
  msg : Message

/-- The pion call that sends a work item. -/
inductive PionSend
  | sendText (text : String)
  | send (data : List UInt8)
  | writeDataChannel (data : List UInt8) (isString : Bool)

/-- `doSend` up to the pion call. `raw` tells whether `setDetached` has run. -/
def doSend (detach raw : Bool) (w : DCSendWork) : Except String PionSend :=
  if detach then
    if raw then
      .ok (if w.isText then .writeDataChannel w.text.toUTF8.toList true
        else .writeDataChannel w.data false)
    else .error "data channel is not open"
  else .ok (if w.isText then .sendText w.text else .send w.data)

/-! ### Program counters -/

/-- The reader of a session. `failingOwn` is the `done` case of the outer select, and
`failing` holds a reclaimed item. -/
inductive ReaderPc
  | idle
  | enqueue (i : Item)
  | recheck
  | reclaim
  | failing (i : Item)
  | failingOwn (i : Item)
  | returning (r : Option Request) (m : Message)
  | setPion (id : Int) (t : Nat)
  | findState (id : Int) (t : Nat)
  | setState (id : Int) (t : Nat)

/-- The sender goroutine. From `lock` to `parked` it is inside `waitForBuffer`. -/
inductive SenderPc
  | select
  | run (i : Item)
  | sending (i : Item) (call : PionSend)
  | failing (i : Item) (err : String)
  | reporting (i : Item) (err : String)
  | lock (i : Item)
  | check (i : Item)
  | checkDone (i : Item)
  | park (i : Item)
  | parked (i : Item)
  | closing (i : Item)
  | acking (i : Item)
  | exited

def SenderPc.holdsLock : SenderPc → Bool
  | .check _ | .checkDone _ | .park _ => true
  | _ => false

/-- `Broadcast` lets a parked sender go on to take the lock again. -/
def SenderPc.wake : SenderPc → SenderPc
  | .parked i => .lock i
  | pc => pc

/-- A goroutine that calls `closeState`. `calling` stands before `closeOnce.Do`. -/
inductive CloserPc
  | idle
  | calling
  | closing
  | draining
  | failing (i : Item)
  | returned

/-- `closeOnce`. -/
inductive Once
  | fresh
  | running
  | finished
  deriving DecidableEq, Repr

/-! ### States -/

/-- What is fixed about the channel. The depth of the work channel is at least 1. -/
structure Channel where
  handle : Handle
  creator : Session
  detach : Bool
  cfg : DCConfig
  depth_pos : 1 ≤ cfg.sendQueueDepth

def Channel.depth (c : Channel) : Nat := c.cfg.sendQueueDepth.toNat

/-- The send state, the goroutines, pion's side of the channel and the record of the run.
`registered` is the entry of the channel in `dcSendStates`, `callbacks` counts the
`OnBufferedAmountLow` calls that have not reached `signalLow` yet, `reading` tells whether
`readDetached` runs, `closeEmitted` is the once of the close event, and `reported` is set when
the end of the channel has been reported to the bridge. -/
structure ChannelState where
  work : List Item
  done : Bool
  threshold : Nat
  once : Once
  registered : Bool
  readers : Session → ReaderPc
  sender : SenderPc
  closers : Nat → CloserPc
  raw : Bool
  reading : Bool
  isOpen : Bool
  buffered : Nat
  lowThreshold : Nat
  callbacks : Nat
  closeEmitted : Bool
  reported : Bool
  requests : List Request
  taken : List Item
  emitted : List Emission

/-- The channel after `startDCSendGoroutine`. -/
def Channel.start (c : Channel) : ChannelState where
  work := []
  done := false
  threshold := c.cfg.bufferedAmountLowThreshold
  once := .fresh
  registered := true
  readers := fun _ => .idle
  sender := .select
  closers := fun _ => .idle
  raw := false
  reading := false
  isOpen := true
  buffered := 0
  lowThreshold := c.cfg.bufferedAmountLowThreshold
  callbacks := 0
  closeEmitted := false
  reported := false
  requests := []
  taken := []
  emitted := []

/-! ### Messages -/

/-- The answer to an item that leaves the queue unsent. -/
def closedBeforeSend (w : DCSendWork) : Message :=
  errorResponse w.msgID "DC_CLOSED" "data channel closed before send" false w.handle

/-- `handleDCSend` up to the outer select: the item to enqueue, or the error to return. -/
def handleDCSend (r : Request) : ReaderPc :=
  if hfound : r.found = true then
    match hmade : r.work with
    | some work => .enqueue ⟨r, work, hfound, hmade⟩
    | none => .returning (some r) (errorResponse r.msg.id "INVALID_REQUEST"
        "data must be string or binary" false r.msg.handle)
  else .returning (some r) (errorResponse r.msg.id "NOT_FOUND"
    ("dc:send on unknown handle: " ++ r.msg.handle) false r.msg.handle)

/-- The ack of `handleDCSetBufferedAmountLowThreshold`. -/
def thresholdAck (c : Channel) (id : Int) : Message :=
  ackResponse "dc:setBufferedAmountLowThreshold" id c.handle []

/-! ### Steps -/

/-- How the bridge learns that the channel has ended. -/
inductive CloseReport
  | onClose
  | readDetached
  | pcClose
  deriving DecidableEq, Repr

/-- One atomic action. The first group are steps of the reader of a session, then come the
sender, the goroutines that call `closeState`, and pion. -/
inductive SendAction
  | dcSend (s : Session) (msg : Message)
  | enqueue (s : Session)
  | enqueueClosed (s : Session)
  | recheck (s : Session)
  | reclaim (s : Session)
  | fail (s : Session)
  | ret (s : Session)
  | setThreshold (s : Session) (id : Int) (t : Nat)
  | setPion (s : Session)
  | findState (s : Session)
  | setState (s : Session)
  | take
  | stop
  | doSend
  | sendReturn (res : Except String Nat)
  | sendError
  | errorEvent
  | lock
  | check
  | checkDone
  | park
  | closedAnswer
  | ack
  | callClose (g : Nat)
  | closeOnce (g : Nat)
  | broadcast (g : Nat)
  | drain (g : Nat)
  | closerFail (g : Nat)
  | detached
  | release (n : Nat)
  | callback
  | pionClose
  | reportClose (how : CloseReport)

/-- Steps that a goroutine of the bridge takes on its own, once it has started. The others
come from outside: frames, calls of `closeState`, and what pion does. A pion send call
returns, so `sendReturn` is a step of the sender. -/
def SendAction.isInternal : SendAction → Bool
  | .dcSend _ _ | .setThreshold _ _ _ | .callClose _ | .detached | .release _ | .pionClose
  | .reportClose _ => false
  | _ => true

namespace ChannelState

def withReader (w : ChannelState) (s : Session) (pc : ReaderPc) : ChannelState :=
  { w with readers := Function.update w.readers s pc }

def withSender (w : ChannelState) (pc : SenderPc) : ChannelState := { w with sender := pc }

def withCloser (w : ChannelState) (g : Nat) (pc : CloserPc) : ChannelState :=
  { w with closers := Function.update w.closers g pc }

/-- A response to the request `r`. -/
def answer (w : ChannelState) (r : Option Request) (s : Session) (route : Route)
    (m : Message) : ChannelState :=
  { w with emitted := w.emitted ++ [⟨r, s, route, m⟩] }

/-- Steps of the reader of the session `s`. -/
def stepReader (c : Channel) (w : ChannelState) (s : Session) :
    SendAction → Option ChannelState
  | .dcSend _ msg =>
    match w.readers s with
    | .idle =>
      -- The lookup, the switch on the payload and `work.sendEvent` come before the select.
      let r : Request := ⟨w.requests.length, s, msg, w.registered⟩
      some { w.withReader s (handleDCSend r) with requests := w.requests ++ [r] }
    | _ => none
  | .enqueue _ =>
    match w.readers s with
    | .enqueue i =>
      -- `state.work <- work` is ready while the channel has room, also when `done` is closed.
      if w.work.length < c.depth then
        some { w.withReader s .recheck with work := w.work ++ [i] }
      else none
    | _ => none
  | .enqueueClosed _ =>
    match w.readers s with
    -- `<-state.done` of the same select.
    | .enqueue i => if w.done then some (w.withReader s (.failingOwn i)) else none
    | _ => none
  | .recheck _ =>
    match w.readers s with
    | .recheck => some (w.withReader s (if w.done then .reclaim else .idle))
    | _ => none
  | .reclaim _ =>
    match w.readers s, w.work with
    -- What it receives need not be the item that it enqueued.
    | .reclaim, i :: rest => some { w.withReader s (.failing i) with work := rest }
    -- `default`: somebody else has received it.
    | .reclaim, [] => some (w.withReader s .idle)
    | _, _ => none
  | .fail _ =>
    match w.readers s with
    | .failing i =>
      some ((w.withReader s .idle).answer (some i.request) i.work.session .sendEvent
        (closedBeforeSend i.work))
    -- This branch answers through `h.sendEvent` and takes id and handle from the message.
    | .failingOwn i =>
      some ((w.withReader s .idle).answer (some i.request) s .sendEvent
        (errorResponse i.request.msg.id "DC_CLOSED" "data channel closed before send" false
          i.request.msg.handle))
    | _ => none
  | .ret _ =>
    match w.readers s with
    | .returning r m => some ((w.withReader s .idle).answer r s .returned m)
    | _ => none
  | .setThreshold _ id t =>
    match w.readers s with
    | .idle => some (w.withReader s (.setPion id t))
    | _ => none
  | .setPion _ =>
    match w.readers s with
    | .setPion id t => some { w.withReader s (.findState id t) with lowThreshold := t }
    | _ => none
  | .findState _ =>
    match w.readers s with
    | .findState id t =>
      some (w.withReader s
        (if w.registered then .setState id t else .returning none (thresholdAck c id)))
    | _ => none
  | .setState _ =>
    match w.readers s with
    | .setState id t =>
      -- `setThreshold`: store and broadcast in one critical section.
      if w.sender.holdsLock then none
      else some { (w.withReader s (.returning none (thresholdAck c id))).withSender
        w.sender.wake with threshold := t }
    | _ => none
  | _ => none

/-- Steps of the sender goroutine. -/
def stepSender (c : Channel) (w : ChannelState) : SendAction → Option ChannelState
  | .take =>
    match w.sender, w.work with
    | .select, i :: rest =>
      some { w.withSender (.run i) with work := rest, taken := w.taken ++ [i] }
    | _, _ => none
  -- With an item queued and `done` closed, `take` and `stop` are both enabled.
  | .stop =>
    match w.sender with
    | .select => if w.done then some (w.withSender .exited) else none
    | _ => none
  | .doSend =>
    match w.sender with
    | .run i =>
      some (w.withSender
        (match Server.doSend c.detach w.raw i.work with
        | .error err => .failing i err
        | .ok call => .sending i call))
    | _ => none
  | .sendReturn res =>
    match w.sender, res with
    | .sending i _, .error err => some (w.withSender (.failing i err))
    | .sending i _, .ok n =>
      -- A closed channel takes up no bytes, and pion answers a send on it with an error.
      if w.isOpen then
        -- Text, and binary without `await_drain`, is acked without a wait.
        some { w.withSender (if i.work.awaitDrain then .lock i else .acking i) with
          buffered := w.buffered + n }
      else none
    | _, _ => none
  | .sendError =>
    match w.sender with
    | .failing i err =>
      some ((w.withSender (.reporting i err)).answer (some i.request) i.work.session .sendEvent
        (errorResponse i.work.msgID "DC_SEND_ERROR" err false c.handle))
    | _ => none
  | .errorEvent =>
    match w.sender with
    | .reporting i err =>
      some ((w.withSender .select).answer none i.work.session .sendEvent
        (event "event:dc:error" c.handle [("error", .str err)]))
    | _ => none
  | .lock =>
    match w.sender with
    | .lock i => some (w.withSender (.check i))
    | _ => none
  | .check =>
    match w.sender with
    -- The condition of the loop in `waitForBuffer`, under the lock.
    | .check i =>
      some (w.withSender (if w.threshold < w.buffered then .checkDone i else .acking i))
    | _ => none
  | .checkDone =>
    match w.sender with
    | .checkDone i => some (w.withSender (if w.done then .closing i else .park i))
    | _ => none
  | .park =>
    match w.sender with
    -- `cond.Wait` releases the lock and sleeps in one step.
    | .park i => some (w.withSender (.parked i))
    | _ => none
  | .closedAnswer =>
    match w.sender with
    | .closing i =>
      some ((w.withSender .select).answer (some i.request) i.work.session .sendEvent
        (errorResponse i.work.msgID "DC_CLOSED" "data channel closed during send" false
          c.handle))
    | _ => none
  | .ack =>
    match w.sender with
    | .acking i =>
      some ((w.withSender .select).answer (some i.request) i.work.session .sendEvent
        (ackResponse "dc:send" i.work.msgID c.handle []))
    | _ => none
  | _ => none

/-- Steps of the goroutine `g` that calls `closeState`. `callClose` is what comes before:
the caller took the state out of `dcSendStates`. -/
def stepCloser (w : ChannelState) (g : Nat) : SendAction → Option ChannelState
  | .callClose _ =>
    match w.closers g with
    | .idle => some { w.withCloser g .calling with registered := false }
    | _ => none
  | .closeOnce _ =>
    match w.closers g, w.once with
    | .calling, .fresh => some { w.withCloser g .closing with done := true, once := .running }
    -- Between the two, `Do` blocks: a later caller waits for the first one to finish.
    | .calling, .finished => some (w.withCloser g .returned)
    | _, _ => none
  | .broadcast _ =>
    match w.closers g with
    | .closing =>
      if w.sender.holdsLock then none
      else some ((w.withCloser g .draining).withSender w.sender.wake)
    | _ => none
  | .drain _ =>
    match w.closers g, w.work with
    | .draining, i :: rest => some { w.withCloser g (.failing i) with work := rest }
    -- `default` ends the loop, and with it the function of the once.
    | .draining, [] => some { w.withCloser g .returned with once := .finished }
    | _, _ => none
  | .closerFail _ =>
    match w.closers g with
    | .failing i =>
      some ((w.withCloser g .draining).answer (some i.request) i.work.session .sendEvent
        (closedBeforeSend i.work))
    | _ => none
  | _ => none

/-- The event of the bridge's close callbacks, sent once. -/
def emitClose (c : Channel) (w : ChannelState) : ChannelState :=
  if w.closeEmitted then w
  else { w with closeEmitted := true }.answer none c.creator .sendEvent
    (event "event:dataChannelClose" c.handle [("type", .str "close")])

/-- Steps of pion. The amount changes and the callback fires only while the channel is open,
and the callback fires when a release takes the amount from above pion's threshold to at or
below it. -/
def stepPion (c : Channel) (w : ChannelState) : SendAction → Option ChannelState
  | .detached =>
    -- `OnOpen` starts the read loop, and `setDetached` needs the state to be registered.
    if c.detach ∧ w.isOpen then some { w with raw := w.raw || w.registered, reading := true }
    else none
  | .release n =>
    if w.isOpen ∧ n ≤ w.buffered then
      some { w with
        buffered := n
        callbacks := if w.lowThreshold < w.buffered ∧ n ≤ w.lowThreshold then w.callbacks + 1
          else w.callbacks }
    else none
  | .callback =>
    if w.sender.holdsLock ∨ w.callbacks = 0 then none
    else some ({ w.withSender w.sender.wake with callbacks := w.callbacks - 1 }.answer none
      c.creator .sendEvent (event "event:bufferedAmountLow" c.handle []))
  | .pionClose => if w.isOpen then some { w with isOpen := false } else none
  | .reportClose how =>
    match how with
    | .onClose => if w.isOpen then none else some { w.emitClose c with reported := true }
    -- The read loop returns on any error, also while pion still has the channel open.
    | .readDetached =>
      if w.reading then some { w.emitClose c with reported := true, reading := false } else none
    -- `pc:close` acks and emits no event for its channels.
    | .pcClose => if w.isOpen then none else some { w with reported := true }
  | _ => none

def step (c : Channel) (w : ChannelState) (a : SendAction) : Option ChannelState :=
  match a with
  | .dcSend s _ | .enqueue s | .enqueueClosed s | .recheck s | .reclaim s | .fail s | .ret s
  | .setThreshold s _ _ | .setPion s | .findState s | .setState s => w.stepReader c s a
  | .take | .stop | .doSend | .sendReturn _ | .sendError | .errorEvent | .lock | .check
  | .checkDone | .park | .closedAnswer | .ack => w.stepSender c a
  | .callClose g | .closeOnce g | .broadcast g | .drain g | .closerFail g => w.stepCloser g a
  | .detached | .release _ | .callback | .pionClose | .reportClose _ => w.stepPion c a

/-- No goroutine of the bridge has a step left. -/
def Quiescent (c : Channel) (w : ChannelState) : Prop :=
  ∀ a : SendAction, a.isInternal = true → w.step c a = none

end ChannelState

/-- All interleavings on one channel. -/
def sendSystem (c : Channel) : StepSystem ChannelState SendAction where
  init := c.start
  step := ChannelState.step c

end PionBridge.Server
