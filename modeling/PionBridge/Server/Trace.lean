import PionBridge.Server.Bridge

/-!
# `PionBridge.Server.Trace`: trace slots beside the registry (`trace.go`)

`Trace` gives every DataChannel that sends a slot for its counters. `DCIdx` assigns the slot on
first use, and `ReleaseDC` takes it back. The table `dcIndex` is global, as the registry is, and
each has a mutex of its own. So the two agree only as far as the callers see to it:

- `collectLocked` releases the slot of every handle that it removes;
- `stopDCSendGoroutine` releases the slot of the handle of a `dc:close`;
- `handleDCSend` and `runDCSend` call `DCIdx` while tracing is on.

The system is that of `Server/Bridge.lean` with the readers and the senders of `dc:send`. A sender
is given by its handle and its state, as there. `Server/DCSend.lean` has the send pipeline of one
channel in more detail; here the queue of each state is kept, and a send returns in one step with
any of its outcomes.

The releases of a step come with the step. Nobody else can see the registry in between, since
`collectLocked` holds its lock. The counters of the slots are left out.
-/

set_option autoImplicit false

namespace PionBridge.Server

open PionBridge.Lib

/-- The part of `PionTrace` that assigns the slots. The last entry of `freeIdx` is used first. The
counter `nextIdx` is an `int` that is taken not to overflow. -/
structure PionTrace where
  dcIndex : GoMap Handle Nat
  nextIdx : Nat
  freeIdx : List Nat

namespace PionTrace

/-- The global `Trace` at the start. -/
def new : PionTrace := ⟨∅, 0, []⟩

/-- `DCIdx`. -/
def dcIdx (t : PionTrace) (dcHandle : Handle) : Nat × PionTrace :=
  match t.dcIndex.get dcHandle with
  | some idx => (idx, t)
  | none =>
    let (idx, t) := match t.freeIdx.getLast? with
      | some idx => (idx, { t with freeIdx := t.freeIdx.dropLast })
      -- From the seventeenth on, new channels share the slot 15.
      | none => (if 16 ≤ t.nextIdx then 15 else t.nextIdx, { t with nextIdx := t.nextIdx + 1 })
    (idx, { t with dcIndex := t.dcIndex.set dcHandle idx })

/-- `ReleaseDC`. -/
def releaseDC (t : PionTrace) (dcHandle : Handle) : PionTrace :=
  match t.dcIndex.get dcHandle with
  | some idx =>
    { t with
      dcIndex := t.dcIndex.delete dcHandle
      -- The shared slot is not recycled.
      freeIdx := if idx < 15 then t.freeIdx ++ [idx] else t.freeIdx }
  | none => t

/-- The number of handles that have a slot. -/
def live (t : PionTrace) : Nat := t.dcIndex.keys.card

end PionTrace

/-- A call on `Trace`. Each runs under the mutex. -/
inductive TraceCall
  | dcIdx (dcHandle : Handle)
  | releaseDC (dcHandle : Handle)
  deriving DecidableEq

/-- `Trace` after a call. -/
def PionTrace.call (t : PionTrace) : TraceCall → PionTrace
  | .dcIdx dcHandle => (t.dcIdx dcHandle).2
  | .releaseDC dcHandle => t.releaseDC dcHandle

/-- All sequences of calls on `Trace`. -/
def slotSystem : StepSystem PionTrace TraceCall where
  init := .new
  step t c := some (t.call c)

/-- The handles that a step takes out of the registry, in the order of `collectLocked`. -/
def CallWorld.collected (w : CallWorld) : CallAction → List Handle
  | .delete _ handle =>
    match w.reg.deleteLocked handle with
    | some (.ok c, _) => c.released
    | _ => []
  | .reap g =>
    match w.calls g with
    | .judging [] reap _ =>
      match Registry.reapLocked w.reg.fuel w.reg reap with
      | some (_, c) => c.released
      | none => []
    | _ => []
  | _ => []

/-- The same for a step of the bridge. -/
def Bridge.collected (w : Bridge) : BridgeAction → List Handle
  | .delete s =>
    match w.threads (.reader s) with
    | .delete msg => w.calls.collected (.delete (readerCall s) msg.handle)
    | _ => []
  | .call a => w.calls.collected a
  | _ => []

/-- The `ReleaseDC` calls of a step. `stopDCSendGoroutine` makes its call after `closeState`, or
at once when there is no state. -/
def Bridge.released (w : Bridge) : BridgeAction → List Handle
  | .removeState s =>
    match w.threads (.reader s) with
    | .removeState msg => if (w.reg.lookupDCSendState msg.handle).isNone then [msg.handle] else []
    | _ => []
  | .closeState s =>
    match w.threads (.reader s) with
    | .closeState msg _ => [msg.handle]
    | _ => []
  | a => w.collected a

/-- Where the reader of a session stands in a `dc:send`. -/
inductive SendPc
  | idle
  | dispatch (msg : Message)
  | trace (i : Item) (state : StateRef)
  | enqueue (i : Item) (state : StateRef)
  | recheck (state : StateRef)
  | reclaim (state : StateRef)

def SendPc.isIdle : SendPc → Bool
  | .idle => true
  | _ => false

/-- Where a sender stands: in its select, or with an item before and after `DCIdx`. -/
inductive SenderPlace
  | select
  | run (i : Item)
  | sending (i : Item)

def SenderPlace.isSelect : SenderPlace → Bool
  | .select => true
  | _ => false

/-- How `runDCSend` ends. -/
inductive SendOutcome
  | failed (err : String)
  | closed
  | acked

structure TracedBridge where
  bridge : Bridge
  trace : PionTrace
  /-- The sessions whose connection has ended. -/
  ended : Session → Bool
  sends : Session → SendPc
  places : Handle × StateRef → SenderPlace
  /-- The work channel of each state. -/
  work : StateRef → List Item

/-- One step: of the bridge, of a reader in a `dc:send`, of a sender, of a `closeState` that
drains, or the end of a connection. -/
inductive TracedAction
  | bridge (a : BridgeAction)
  | send (s : Session) (msg : Message) (clock : Nat → Int)
  | lookup (s : Session)
  | trace (s : Session)
  | enqueue (s : Session)
  | enqueueClosed (s : Session)
  | recheck (s : Session)
  | reclaim (s : Session)
  | take (x : Handle × StateRef)
  | traceSend (x : Handle × StateRef)
  | sent (x : Handle × StateRef) (outcome : SendOutcome)
  | drain (state : StateRef)
  | disconnect (s : Session)

namespace TracedBridge

def reg (w : TracedBridge) : Registry := w.bridge.reg

def goto (w : TracedBridge) (s : Session) (pc : SendPc) : TracedBridge :=
  { w with sends := Function.update w.sends s pc }

def place (w : TracedBridge) (x : Handle × StateRef) (p : SenderPlace) : TracedBridge :=
  { w with places := Function.update w.places x p }

def queue (w : TracedBridge) (state : StateRef) (items : List Item) : TracedBridge :=
  { w with work := Function.update w.work state items }

/-- `sendEvent` of a session. -/
def emit (w : TracedBridge) (s : Session) (msg : Message) : TracedBridge :=
  { w with bridge := w.bridge.send s msg }

/-- `if Trace.Enabled() { Trace.DCIdx(dcHandle) }`. -/
def dcIdx (w : TracedBridge) (dcHandle : Handle) : TracedBridge :=
  if w.bridge.tracing then { w with trace := (w.trace.dcIdx dcHandle).2 } else w

/-- The reader of the session waits for the next frame. -/
def waits (w : TracedBridge) (s : Session) : Bool :=
  match w.bridge.threads (.reader s) with
  | .idle => (w.sends s).isIdle && !w.ended s
  | _ => false

/-- A reader does one request after the other, and a sender ends in its select. -/
def allows (w : TracedBridge) : BridgeAction → Bool
  | .frame s _ _ => w.waits s
  | .exit handle state => (w.places (handle, state)).isSelect
  | _ => true

/-- The capacity of the work channel of a state. -/
def depth (w : TracedBridge) (state : StateRef) : Nat :=
  ((w.bridge.channels[state]?).map fun c => c.cfg.sendQueueDepth.toNat).getD 0

/-- `handleDCSend` in its steps, with the `Touch` of `processFrame`. -/
def stepReader (w : TracedBridge) : TracedAction → Option TracedBridge
  | .send s msg clock =>
    if w.waits s ∧ msg.type = "dc:send" then
      if msg.handle = "" then some (w.goto s (.dispatch msg))
      else (w.bridge.callStep (.op (.touch msg.handle clock))).map fun b =>
        { w with bridge := b }.goto s (.dispatch msg)
    else none
  | .lookup s =>
    match w.sends s with
    | .dispatch msg =>
      let found := w.reg.lookupDCSendState msg.handle
      match found, Server.handleDCSend ⟨0, s, msg, found.isSome⟩ with
      | some state, .enqueue i => some (w.goto s (.trace i state))
      | _, .returning _ m => some ((w.goto s .idle).emit s m)
      | _, _ => none
    | _ => none
  | .trace s =>
    match w.sends s with
    | .trace i state => some ((w.dcIdx i.work.handle).goto s (.enqueue i state))
    | _ => none
  | .enqueue s =>
    match w.sends s with
    | .enqueue i state =>
      if (w.work state).length < w.depth state then
        some ((w.queue state (w.work state ++ [i])).goto s (.recheck state))
      else none
    | _ => none
  | .enqueueClosed s =>
    match w.sends s with
    | .enqueue i state =>
      if w.bridge.stateClosed state then
        some ((w.goto s .idle).emit s (errorResponse i.request.msg.id "DC_CLOSED"
          "data channel closed before send" false i.request.msg.handle))
      else none
    | _ => none
  | .recheck s =>
    match w.sends s with
    | .recheck state =>
      some (w.goto s (if w.bridge.stateClosed state then .reclaim state else .idle))
    | _ => none
  | .reclaim s =>
    match w.sends s with
    | .reclaim state =>
      match w.work state with
      | i :: rest =>
        some (((w.queue state rest).goto s .idle).emit i.work.session (closedBeforeSend i.work))
      | [] => some (w.goto s .idle)
    | _ => none
  | _ => none

/-- Senders are compared as pairs. -/
instance lawfulBEq_sender : LawfulBEq (Handle × StateRef) := inferInstance

/-- `runDCSend` in its steps, and the drain of `closeState`. -/
def stepSender (w : TracedBridge) : TracedAction → Option TracedBridge
  | .take x =>
    match w.places x, w.work x.2 with
    | .select, i :: rest =>
      -- With `done` closed the select may still receive.
      if x ∈ w.bridge.senders then some ((w.queue x.2 rest).place x (.run i)) else none
    | _, _ => none
  | .traceSend x =>
    match w.places x with
    | .run i => some ((w.dcIdx x.1).place x (.sending i))
    | _ => none
  | .sent x outcome =>
    match w.places x with
    | .sending i =>
      match outcome with
      | .failed err =>
        some (((w.place x .select).emit i.work.session
          (errorResponse i.work.msgID "DC_SEND_ERROR" err false x.1)).emit i.work.session
          (event "event:dc:error" x.1 [("error", .str err)]))
      | .closed =>
        if i.work.awaitDrain ∧ w.bridge.stateClosed x.2 then
          some ((w.place x .select).emit i.work.session (errorResponse i.work.msgID "DC_CLOSED"
            "data channel closed during send" false x.1))
        else none
      | .acked =>
        some ((w.place x .select).emit i.work.session
          (ackResponse "dc:send" i.work.msgID x.1 []))
    | _ => none
  | .drain state =>
    match w.work state with
    | i :: rest =>
      if w.bridge.stateClosed state then
        some ((w.queue state rest).emit i.work.session (closedBeforeSend i.work))
      else none
    | [] => none
  | _ => none

def step (env : Platform) (w : TracedBridge) : TracedAction → Option TracedBridge
  | .bridge a =>
    if w.allows a then
      (w.bridge.step env a).map fun b =>
        { w with bridge := b, trace := (w.bridge.released a).foldl PionTrace.releaseDC w.trace }
    else none
  -- The read loop ends between two frames.
  | .disconnect s =>
    if w.waits s then some { w with ended := Function.update w.ended s true } else none
  | .take x => w.stepSender (.take x)
  | .traceSend x => w.stepSender (.traceSend x)
  | .sent x outcome => w.stepSender (.sent x outcome)
  | .drain state => w.stepSender (.drain state)
  | a => w.stepReader a

/-- No request, sender step, sweep or other registry call is in progress. -/
def AtRest (w : TracedBridge) : Prop :=
  (∀ t, w.bridge.threads t = .idle) ∧ (∀ g, w.bridge.calls.calls g = .idle) ∧
    (∀ s, w.sends s = .idle) ∧ ∀ x, w.places x = .select

end TracedBridge

/-- All interleavings of the bridge with its traced sends. -/
def tracedSystem (env : Platform) : StepSystem TracedBridge TracedAction where
  init := ⟨newBridge, PionTrace.new, fun _ => false, fun _ => .idle, fun _ => .select, fun _ => []⟩
  step := TracedBridge.step env

end PionBridge.Server
