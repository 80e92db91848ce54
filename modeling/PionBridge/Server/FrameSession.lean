import PionBridge.Lib.Gate
import PionBridge.Lib.StepSystem
import PionBridge.Server.DCSend
import PionBridge.Server.Message

/-!
# `PionBridge.Server.FrameSession`: the in-process transport

`frame_session.go` and the `connWriter` of `server.go`: any number of goroutines in `enqueue` and
in `Push`, the writer and the reader of the session, and any number of `Close` calls. A step is
one atomic action of one goroutine. A `select` with several ready cases is several enabled steps.

`enqueue` and `Push` are the two calls of a gate (`Lib/Gate.lean`), on `cw.ch` with `cw.done` and
on `in` with `done`. The goroutine inside `processFrame` is a producer like any other, so the
reader only takes frames up here.

`delivered` lists the frames passed to `deliver`, in the order of the calls.
-/

set_option autoImplicit false

namespace PionBridge.Server

open PionBridge.Lib

/-- A serialised frame. -/
abbrev Frame := List UInt8

/-- `writeChanSize`. -/
def writeChanSize : Nat := 8192

/-- `errConnClosed`. -/
def errConnClosed : String := "connection closed"

/-- `ErrSessionClosed`. -/
def errSessionClosed : String := "frame session closed"

/-- `connWriter.enqueue` up to its selects: `msgpack.Marshal` and its error. -/
def enqueueData (marshal : Message → Except String Frame) (msg : Message) : Except String Frame :=
  (marshal msg).mapError fun err => "msgpack marshal error: " ++ err

/-! ### Program counters -/

/-- The writer goroutine. `recheck` holds a received frame before the second look at `cw.done`,
`calling` after it, and `delivering` is inside `deliver`. `returning` stands before the deferred
`close(writerDone)`. -/
inductive WriterPc
  | select
  | recheck (frame : Frame)
  | calling (frame : Frame)
  | delivering (frame : Frame)
  | returning
  | stopped
  deriving DecidableEq

/-- The reader goroutine. `calling` holds a received frame before the call of `processFrame`, and
`processing` is inside the call. -/
inductive FeedPc
  | select
  | calling (frame : Frame)
  | processing (frame : Frame)
  | exited
  deriving DecidableEq

/-- A `Close` call. `marking` stands between `close(fs.done)` and `cw.close()`, inside the once,
and `waiting` before the receive from `writerDone`. -/
inductive ClosePc
  | idle
  | calling
  | marking
  | waiting
  | returned
  deriving DecidableEq

structure FrameSession where
  inbound : Gate Frame String writeChanSize
  cw : Gate Frame String writeChanSize
  once : Once
  writer : WriterPc
  writerDone : Bool
  reader : FeedPc
  closers : Nat → ClosePc
  delivered : List Frame

/-- `NewFrameSession`. -/
def FrameSession.new : FrameSession where
  inbound := Gate.new
  cw := Gate.new
  once := .fresh
  writer := .select
  writerDone := false
  reader := .select
  closers := fun _ => .idle
  delivered := []

/-! ### Steps -/

/-- One atomic action. `enqueue` and `push` are the calls, and `enqueueStep` and `pushStep` the
steps inside of them. -/
inductive SessionAction
  | enqueue (g : Nat) (msg : Message)
  | enqueueStep (a : OfferStep)
  | push (g : Nat) (frame : Frame)
  | pushStep (a : OfferStep)
  | take
  | recheck
  | deliver
  | deliverReturn
  | writerStop
  | writerExit
  | read
  | process
  | processed
  | readerStop
  | close (g : Nat)
  | closeOnce (g : Nat)
  | closeWriter (g : Nat)
  | closeReturn (g : Nat)

namespace FrameSession

def withCloser (s : FrameSession) (g : Nat) (pc : ClosePc) : FrameSession :=
  { s with closers := Function.update s.closers g pc }

/-- Steps of the writer. -/
def stepWriter (s : FrameSession) : SessionAction → Option FrameSession
  | .take =>
    match s.writer with
    | .select => s.cw.recv.map fun r => { s with cw := r.2, writer := .recheck r.1 }
    | _ => none
  -- With a frame queued and `cw.done` closed, `take` and `writerStop` are both enabled.
  | .writerStop =>
    match s.writer with
    | .select => if s.cw.done then some { s with writer := .returning } else none
    | _ => none
  | .recheck =>
    match s.writer with
    | .recheck frame =>
      some { s with writer := if s.cw.done then .returning else .calling frame }
    | _ => none
  | .deliver =>
    match s.writer with
    | .calling frame =>
      some { s with writer := .delivering frame, delivered := s.delivered ++ [frame] }
    | _ => none
  | .deliverReturn =>
    match s.writer with
    | .delivering _ => some { s with writer := .select }
    | _ => none
  | .writerExit =>
    match s.writer with
    | .returning => some { s with writer := .stopped, writerDone := true }
    | _ => none
  | _ => none

/-- Steps of the reader. -/
def stepReader (s : FrameSession) : SessionAction → Option FrameSession
  | .read =>
    match s.reader with
    | .select => s.inbound.recv.map fun r => { s with inbound := r.2, reader := .calling r.1 }
    | _ => none
  -- Unlike the writer, the reader does not look at `done` again.
  | .process =>
    match s.reader with
    | .calling frame => some { s with reader := .processing frame }
    | _ => none
  | .processed =>
    match s.reader with
    | .processing _ => some { s with reader := .select }
    | _ => none
  | .readerStop =>
    match s.reader with
    | .select => if s.inbound.done then some { s with reader := .exited } else none
    | _ => none
  | _ => none

/-- Steps of the goroutine `g` that calls `Close`. -/
def stepCloser (s : FrameSession) (g : Nat) : SessionAction → Option FrameSession
  | .close _ =>
    match s.closers g with
    | .idle => some (s.withCloser g .calling)
    | _ => none
  | .closeOnce _ =>
    match s.closers g, s.once with
    | .calling, .fresh =>
      some { s.withCloser g .marking with inbound := s.inbound.close, once := .running }
    -- While another call is inside the once, `Do` blocks.
    | .calling, .finished => some (s.withCloser g .waiting)
    | _, _ => none
  | .closeWriter _ =>
    match s.closers g with
    | .marking => some { s.withCloser g .waiting with cw := s.cw.close, once := .finished }
    | _ => none
  | .closeReturn _ =>
    match s.closers g with
    | .waiting => if s.writerDone then some (s.withCloser g .returned) else none
    | _ => none
  | _ => none

def step (marshal : Message → Except String Frame) (s : FrameSession) (a : SessionAction) :
    Option FrameSession :=
  match a with
  | .enqueue g msg => (s.cw.call g (enqueueData marshal msg)).map fun cw => { s with cw := cw }
  | .enqueueStep b => (s.cw.step errConnClosed b).map fun cw => { s with cw := cw }
  | .push g frame => (s.inbound.call g (.ok frame)).map fun inbound =>
      { s with inbound := inbound }
  | .pushStep b => (s.inbound.step errSessionClosed b).map fun inbound =>
      { s with inbound := inbound }
  | .take | .recheck | .deliver | .deliverReturn | .writerStop | .writerExit => s.stepWriter a
  | .read | .process | .processed | .readerStop => s.stepReader a
  | .close g | .closeOnce g | .closeWriter g | .closeReturn g => s.stepCloser g a

end FrameSession

/-- All interleavings of one session. -/
def frameSystem (marshal : Message → Except String Frame) :
    StepSystem FrameSession SessionAction where
  init := FrameSession.new
  step := FrameSession.step marshal

end PionBridge.Server
