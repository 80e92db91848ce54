import PionBridge.Dart.Connection

/-!
# `PionBridge.Dart.Reconnect`: the reconnecting connection (`reconnect.dart`)

`ReconnectingWebSocketConnection` over the `WebSocketConnection`s that it makes
(`websocket_connection.dart`). A step is what runs without an `await` in between: the start of a
call, its part after an `await`, a timer that fires, or a notification of a socket. Notifications
of a socket come in any number once its stream is listened to.

`connect` and a reconnect attempt go through the same places (`AttemptPc`), so they share
`advance`. `first` is the `connect` call of the application. It may be called again after it has
thrown.

The record is a list of outages, the last one first. An outage starts when `_onDisconnect` sets
`_reconnecting`, and it counts its attempts, those that threw, and its `onDisconnected` calls.
`early` marks an outage that starts before the first `connect` has returned. `stray` counts the
`onDisconnected` calls that `_onDisconnect` makes itself.
-/

set_option autoImplicit false

namespace PionBridge.Dart

open PionBridge.Lib

/-! ### Sockets -/

/-- A call of `close()`, or a call of the `onDisconnect` callback. -/
inductive SocketEvent
  | closed
  | notified
  deriving DecidableEq

/-- `WebSocketConnection`. `listening` is set when `connect` listens to the stream, and `history`
records the calls in their order. -/
structure WebSocketConnection where
  conn : BridgeConnection
  listening : Bool
  history : List SocketEvent

namespace WebSocketConnection

def new : WebSocketConnection := ⟨BridgeConnection.new, false, []⟩

/-- `connect`, after the `await` of the socket. -/
def opened (c : WebSocketConnection) : WebSocketConnection :=
  { c with conn := { c.conn with connected := true }, listening := true }

/-- `close`, up to its first `await`. -/
def close (c : WebSocketConnection) : WebSocketConnection :=
  { c with conn := c.conn.close, history := c.history ++ [.closed] }

/-- `_handleDisconnect`, when it has not run before. -/
def disconnect (c : WebSocketConnection) (reason : String) : WebSocketConnection :=
  { c with conn := c.conn.handleDisconnect reason, history := c.history ++ [.notified] }

end WebSocketConnection

/-! ### Backoff -/

/-- A Dart `int`: two's complement in 64 bits. -/
def wrap64 (n : Int) : Int := (n + 2 ^ 63) % 2 ^ 64 - 2 ^ 63

structure ReconnectConfig where
  autoReconnect : Bool
  maxAttempts : Option Nat
  baseDelay : Int
  maxDelay : Int

/-- `_backoffDelay`, in milliseconds. -/
def ReconnectConfig.backoffDelay (cfg : ReconnectConfig) (attempt : Nat) : Int :=
  max 0 (min (wrap64 (cfg.baseDelay * wrap64 (2 ^ attempt))) cfg.maxDelay)

/-! ### States -/

/-- Where an attempt to connect stands: it waits for the socket `i`, the socket is open and
`_teardownIfClosed` has not looked at `_closed` yet, it has found it false, or it has found it
true and waits for the socket to close. -/
inductive AttemptPc
  | connecting (i : Nat)
  | opened (i : Nat)
  | checked
  | closing (i : Nat)
  deriving DecidableEq

/-- The `connect` call of the application. -/
inductive FirstPc
  | idle
  | running (pc : AttemptPc)
  | returned
  deriving DecidableEq

structure Outage where
  early : Bool
  attempts : Nat
  failed : Nat
  disconnected : Nat
  deriving DecidableEq

/-- The fields, the sockets `0, ..., created - 1`, the calls in progress and the record. `timers`
lists the delays of the scheduled attempts, and `closing` counts the `close()` calls that have not
returned. -/
structure ReconnectingConnection where
  conn : Option Nat
  closed : Bool
  attempts : Nat
  reconnecting : Bool
  sockets : Nat → WebSocketConnection
  created : Nat
  first : FirstPc
  timers : List Int
  inFlight : List AttemptPc
  closing : Nat
  outages : List Outage
  reconnected : Nat
  stray : Nat

/-- What happens to an attempt to connect. -/
inductive AttemptStep
  | connectOk
  | connectFail
  | resume
  | finish
  | tornDown
  | teardownFail
  deriving DecidableEq

/-- Where an attempt is after a step: at a place, at the end of its `try` block, back from a
teardown, or in the `catch`. -/
inductive AttemptResult
  | at (pc : AttemptPc)
  | finished
  | aborted
  | threw

inductive ReconnectAction
  | connect
  | first (e : AttemptStep)
  | attempt (k : Nat) (e : AttemptStep)
  | timer (k : Nat)
  | disconnect (i : Nat) (reason : String)
  | close
  | closeReturn

namespace ReconnectingConnection

/-- The constructor. -/
def new : ReconnectingConnection where
  conn := none
  closed := false
  attempts := 0
  reconnecting := false
  sockets := fun _ => .new
  created := 0
  first := .idle
  timers := []
  inFlight := []
  closing := 0
  outages := []
  reconnected := 0
  stray := 0

def withSocket (s : ReconnectingConnection) (i : Nat)
    (f : WebSocketConnection → WebSocketConnection) : ReconnectingConnection :=
  { s with sockets := Function.update s.sockets i (f (s.sockets i)) }

/-- An entry of the record of the current outage. -/
def withOutage (s : ReconnectingConnection) (f : Outage → Outage) : ReconnectingConnection :=
  { s with outages := s.outages.modifyHead f }

/-- `_connectOnce`, up to its `await`. The new socket is `s.created`. -/
def connectOnce (s : ReconnectingConnection) : ReconnectingConnection :=
  { s with conn := some s.created, created := s.created + 1 }

/-- `_teardownIfClosed` in the case that `_closed` is set. -/
def teardown (s : ReconnectingConnection) (i : Nat) : ReconnectingConnection :=
  { s with
    reconnecting := false
    conn := if s.conn = some i then none else s.conn }.withSocket i .close

/-- `_scheduleReconnect`. -/
def scheduleReconnect (cfg : ReconnectConfig) (s : ReconnectingConnection) :
    ReconnectingConnection :=
  if cfg.maxAttempts.any (· ≤ s.attempts) then
    { s with reconnecting := false }.withOutage fun o =>
      { o with disconnected := o.disconnected + 1 }
  else
    { s with attempts := s.attempts + 1, timers := s.timers ++ [cfg.backoffDelay s.attempts] }

/-- `_onDisconnect`. -/
def onDisconnect (cfg : ReconnectConfig) (s : ReconnectingConnection) : ReconnectingConnection :=
  if s.closed ∨ ¬ cfg.autoReconnect then { s with stray := s.stray + 1 }
  else if s.reconnecting then s
  else
    { s with
      reconnecting := true
      outages := ⟨decide (s.first ≠ FirstPc.returned), 0, 0, 0⟩ :: s.outages }.scheduleReconnect cfg

/-- One step of an attempt to connect, of either kind. -/
def advance (s : ReconnectingConnection) :
    AttemptPc → AttemptStep → Option (ReconnectingConnection × AttemptResult)
  | .connecting i, .connectOk => some (s.withSocket i .opened, .at (.opened i))
  | .connecting _, .connectFail => some (s, .threw)
  | .opened i, .resume =>
    if s.closed then some (s.teardown i, .at (.closing i)) else some (s, .at .checked)
  | .checked, .finish => some (s, .finished)
  | .closing _, .tornDown => some (s, .aborted)
  | .closing _, .teardownFail => some (s, .threw)
  | _, _ => none

/-- `connect` after a step of its attempt. Both a teardown and an error make it throw. -/
def firstResult (s : ReconnectingConnection) : AttemptResult → ReconnectingConnection
  | .at pc => { s with first := .running pc }
  | .finished => { s with first := .returned, attempts := 0 }
  | .aborted => { s with first := .idle }
  | .threw => { s with first := .idle }

/-- The callback of `Future.delayed` after a step of the attempt at position `k`. -/
def attemptResult (cfg : ReconnectConfig) (s : ReconnectingConnection) (k : Nat) :
    AttemptResult → ReconnectingConnection
  | .at pc => { s with inFlight := s.inFlight.set k pc }
  | .finished =>
    { s with
      inFlight := s.inFlight.eraseIdx k
      attempts := 0, reconnecting := false, reconnected := s.reconnected + 1 }
  | .aborted => { s with inFlight := s.inFlight.eraseIdx k }
  | .threw =>
    ({ s with inFlight := s.inFlight.eraseIdx k }.withOutage fun o =>
      { o with failed := o.failed + 1 }).scheduleReconnect cfg

/-- The timer at position `k` fires. -/
def timer (s : ReconnectingConnection) (k : Nat) : ReconnectingConnection :=
  let s := { s with timers := s.timers.eraseIdx k }
  if s.closed then { s with reconnecting := false }
  else
    { s.connectOnce with inFlight := s.inFlight ++ [AttemptPc.connecting s.created] }.withOutage
      fun o => { o with attempts := o.attempts + 1 }

/-- `close`, up to its first `await`. -/
def close (s : ReconnectingConnection) : ReconnectingConnection :=
  let s := { s with closed := true, closing := s.closing + 1 }
  match s.conn with
  | some i => s.withSocket i .close
  | none => s

def step (cfg : ReconnectConfig) (s : ReconnectingConnection) :
    ReconnectAction → Option ReconnectingConnection
  | .connect =>
    match s.first with
    | .idle => some { s.connectOnce with first := .running (.connecting s.created) }
    | _ => none
  | .first e =>
    match s.first with
    | .running pc => (s.advance pc e).map fun r => r.1.firstResult r.2
    | _ => none
  | .attempt k e =>
    s.inFlight[k]?.bind fun pc => (s.advance pc e).map fun r => r.1.attemptResult cfg k r.2
  | .timer k => if k < s.timers.length then some (s.timer k) else none
  | .disconnect i reason =>
    if (s.sockets i).listening then
      -- `_disconnectHandled` guards the callback.
      if (s.sockets i).conn.disconnectHandled then some s
      else some ((s.withSocket i (·.disconnect reason)).onDisconnect cfg)
    else none
  | .close => some s.close
  | .closeReturn =>
    if 0 < s.closing then some { s with closing := s.closing - 1, conn := none } else none

end ReconnectingConnection

/-- All runs of one reconnecting connection. -/
def reconnectSystem (cfg : ReconnectConfig) :
    StepSystem ReconnectingConnection ReconnectAction where
  init := ReconnectingConnection.new
  step := ReconnectingConnection.step cfg

end PionBridge.Dart
