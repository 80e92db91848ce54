import PionBridge.Lib.Pool
import PionBridge.Server.FrameSession

/-!
# `PionBridge.Server.MessagePool`: requests decoded into recycled messages

`messagePool`, `getMessage` and `putMessage` of `server.go`, and `processFrame` as far as it uses
them. Any number of goroutines are in `processFrame` at a time, one for each session, and the pool
is shared by all of them.

`msgpack.Unmarshal` is a list of writes into the message that it is given, and an end: it returns,
it returns an error, or it panics. Both depend on the frame alone. A field that the frame does not
have is not written, an entry of `data` goes into the map that is there, and an error or a panic
comes after the writes that were made before it (`Decoding`).

`putMessage` is deferred, so it runs after the handler, after a decoding error and after a panic.
The handler may leave the message in any state. What `processFrame` passes to `HandleMessage`, or
reports instead, goes to `record`.
-/

set_option autoImplicit false

namespace PionBridge.Server

open PionBridge.Lib

namespace Data

/-- `delete(data, key)`. -/
def delete (data : Data) (key : String) : Data := data.filter fun e => e.1 ≠ key

/-- `data[key] = v`. -/
def set (data : Data) (key : String) (v : Value) : Data := (key, v) :: data.delete key

/-- `for k := range data { delete(data, k) }`. -/
def clear (data : Data) : Data := data.foldl (fun rest e => rest.delete e.1) data

end Data

/-! ### Messages of the pool -/

/-- The `Message` struct with its map, which may be nil. -/
structure PooledMessage where
  type : String
  id : Int
  handle : String
  data : Option Data

namespace PooledMessage

/-- `Message{}`. -/
def zero : PooledMessage := ⟨"", 0, "", none⟩

/-- `messagePool.New`. -/
def new : PooledMessage := ⟨"", 0, "", some []⟩

/-- What a reader finds. A nil map reads as an empty one. -/
def view (m : PooledMessage) : Message := ⟨m.type, m.id, m.handle, m.data.getD []⟩

/-- `putMessage`, up to the `Put`. -/
def clear (m : PooledMessage) : PooledMessage := ⟨"", 0, "", m.data.map Data.clear⟩

end PooledMessage

/-! ### Decoding -/

/-- A write of `msgpack.Unmarshal` into the message. `dataMap` is the head of a map, which makes one
where there is none. -/
inductive DecodeWrite
  | type (s : String)
  | id (n : Int)
  | handle (s : String)
  | dataNil
  | dataMap
  | dataEntry (key : String) (v : Value)

def DecodeWrite.apply (m : PooledMessage) : DecodeWrite → PooledMessage
  | .type s => { m with type := s }
  | .id n => { m with id := n }
  | .handle s => { m with handle := s }
  | .dataNil => { m with data := none }
  | .dataMap => { m with data := some (m.data.getD []) }
  | .dataEntry key v => { m with data := some ((m.data.getD []).set key v) }

inductive DecodeEnd
  | ok
  | error (err : String)
  | panics (text : String)

/-- What `msgpack.Unmarshal` does with a frame. -/
structure Decoding where
  writes : List DecodeWrite
  ending : DecodeEnd

/-- What `processFrame` makes of a frame: it calls `HandleMessage`, it answers `INVALID_REQUEST`
with the text of the error, or it recovers from the panic. -/
inductive FrameOutcome
  | passed (msg : Message)
  | invalid (err : String)
  | panicked (text : String)

/-- The outcome when the writes have left the message `m`. -/
def DecodeEnd.outcome (m : PooledMessage) : DecodeEnd → FrameOutcome
  | .ok => .passed m.view
  | .error err => .invalid err
  | .panics text => .panicked text

/-- The outcome of decoding into a message of its own. -/
def Decoding.fresh (d : Decoding) : FrameOutcome :=
  d.ending.outcome (d.writes.foldl DecodeWrite.apply .zero)

/-! ### Goroutines -/

/-- A goroutine outside of `processFrame`, in `msgpack.Unmarshal` with the writes that it has still
to make, in `HandleMessage`, and before the deferred `putMessage`. -/
inductive FrameCall
  | idle
  | decoding (frame : Frame) (rest : List DecodeWrite)
  | handling
  | leaving

structure PoolWorld where
  pool : Pool PooledMessage
  calls : Nat → FrameCall
  record : List (Frame × FrameOutcome)

/-- `start` takes up a frame with the message that `Get` hands out, or with a new one. `handled` is
the end of `HandleMessage`, by a return or a panic, with what it has done to the message. -/
inductive PoolAction
  | start (g : Nat) (frame : Frame) (choice : Option Nat)
  | write (g : Nat)
  | decoded (g : Nat)
  | handled (g : Nat) (f : PooledMessage → PooledMessage)
  | put (g : Nat)
  | drop (r : Nat)

namespace PoolWorld

def new : PoolWorld where
  pool := ⟨fun _ => .zero, 0, [], fun _ => none⟩
  calls := fun _ => .idle
  record := []

def withCall (w : PoolWorld) (g : Nat) (call : FrameCall) : PoolWorld :=
  { w with calls := Function.update w.calls g call }

/-- The end of `msgpack.Unmarshal`. -/
def decoded (w : PoolWorld) (unmarshal : Frame → Decoding) (g : Nat) (frame : Frame)
    (m : PooledMessage) : PoolWorld :=
  let ending := (unmarshal frame).ending
  let next := match ending with
    | .ok => .handling
    | .error _ => .leaving
    | .panics _ => .leaving
  { w.withCall g next with record := w.record ++ [(frame, ending.outcome m)] }

def step (unmarshal : Frame → Decoding) (w : PoolWorld) : PoolAction → Option PoolWorld
  | .start g frame choice =>
    match w.calls g with
    | .idle => (w.pool.get .new g choice).map fun pool =>
        { w with pool := pool }.withCall g (.decoding frame (unmarshal frame).writes)
    | _ => none
  | .write g =>
    match w.calls g with
    | .decoding frame (e :: rest) =>
      some ({ w with pool := w.pool.modify g (e.apply ·) }.withCall g (.decoding frame rest))
    | _ => none
  | .decoded g =>
    match w.calls g with
    | .decoding frame [] => (w.pool.obj g).map fun m => w.decoded unmarshal g frame m
    | _ => none
  | .handled g f =>
    match w.calls g with
    | .handling => some ({ w with pool := w.pool.modify g f }.withCall g .leaving)
    | _ => none
  | .put g =>
    match w.calls g with
    | .leaving => some ({ w with pool := w.pool.put PooledMessage.clear g }.withCall g .idle)
    | _ => none
  | .drop r => some { w with pool := w.pool.drop r }

end PoolWorld

/-- All runs of the goroutines over one pool. -/
def poolSystem (unmarshal : Frame → Decoding) : StepSystem PoolWorld PoolAction where
  init := PoolWorld.new
  step := PoolWorld.step unmarshal

end PionBridge.Server
