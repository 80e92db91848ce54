import Mathlib.Algebra.Group.Nat.Defs
import Mathlib.Data.List.Basic
import PionBridge.Lib.StepSystem

/-!
# `PionBridge.Server.Inbound`: messages that pion delivers (`handler.go`)

A message reaches the bridge through `OnMessage`, or through `readDetached` on a detached channel.
Either way it becomes one `event:dataChannelMessage`. A Go string is any bytes, and msgpack writes
them as they are, so the values of an event are modelled as they are written. A nil slice is written
as nil.

`readDetached` reads into a buffer that starts with at most 65536 bytes and is doubled up to the
limit while a message does not fit. Pion keeps a message queued on a short buffer. `ReadBuffer` is a
buffer length between 1 and the limit, which is why the retries end. The loop ends with a read error
or with a message that is longer than the limit.

`readSystem` is the same loop turn by turn, one call of `ReadDataChannel` a step, with the length of
the buffer as a plain number.
-/

set_option autoImplicit false

namespace PionBridge.Server

open PionBridge.Lib

/-! ### Events on the wire -/

/-- A value of an event, as msgpack writes it. -/
inductive WireValue
  | nil
  | bool (b : Bool)
  | str (bytes : List UInt8)
  | bin (bytes : List UInt8)
  deriving DecidableEq

namespace WireValue

/-- A string literal. -/
def text (s : String) : WireValue := .str s.toUTF8.data.toList

/-- A `[]byte`, nil or not. -/
def slice : Option (List UInt8) → WireValue
  | none => .nil
  | some bytes => .bin bytes

end WireValue

/-- An event as it is written. -/
structure WireEvent where
  type : String
  handle : String
  data : List (String × WireValue)
  deriving DecidableEq

/-! ### `OnMessage` -/

/-- The `OnMessage` callback, for a `DataChannelMessage`. -/
def onMessage (dcHandle : String) (data : Option (List UInt8)) (isString : Bool) : WireEvent where
  type := "event:dataChannelMessage"
  handle := dcHandle
  data :=
    if isString then
      [("type", .text "message"), ("is_binary", .bool false), ("data", .str (data.getD []))]
    else [("type", .text "message"), ("is_binary", .bool true), ("data", .slice data)]

/-! ### `readDetached` -/

/-- The limit of a message: pion's default when none is set. -/
def readLimit (maxMessageSize : Int) : Nat :=
  if maxMessageSize ≤ 0 then 1073741823 else maxMessageSize.toNat

theorem readLimit_pos (maxMessageSize : Int) : 0 < readLimit maxMessageSize := by
  unfold readLimit
  split
  · decide
  · omega

/-- The length of the buffer. -/
structure ReadBuffer (limit : Nat) where
  len : Nat
  pos : 0 < len
  le : len ≤ limit

namespace ReadBuffer

variable {limit : Nat}

/-- The first buffer. -/
def new (hlimit : 0 < limit) : ReadBuffer limit :=
  ⟨min limit 65536, by omega, by omega⟩

/-- The buffer after a short read. -/
def grow (buf : ReadBuffer limit) : ReadBuffer limit :=
  have hpos := buf.pos
  have hle := buf.le
  ⟨min limit (2 * buf.len), by omega, by omega⟩

theorem lt_grow {buf : ReadBuffer limit} (h : buf.len < limit) : buf.len < buf.grow.len := by
  have hpos := buf.pos
  show buf.len < min limit (2 * buf.len)
  omega

end ReadBuffer

/-- A message in pion's queue. -/
structure Incoming where
  bytes : List UInt8
  isString : Bool

/-- The event for a message that was read into the buffer. The copy of an empty slice is nil. -/
def readEvent (dcHandle : String) (m : Incoming) : WireEvent where
  type := "event:dataChannelMessage"
  handle := dcHandle
  data := [("type", .text "message"), ("is_binary", .bool !m.isString),
    ("data", if m.isString then .str m.bytes
      else .slice (if m.bytes = [] then none else some m.bytes))]

/-- The reads up to the next event: the buffer they leave and the event, or `none` when the loop
returns. -/
def readMessage {limit : Nat} (dcHandle : String) (buf : ReadBuffer limit) (m : Incoming) :
    Option (ReadBuffer limit × WireEvent) :=
  if m.bytes.length ≤ buf.len then some (buf, readEvent dcHandle m)
  else if h : buf.len < limit then
    have := ReadBuffer.lt_grow h
    readMessage dcHandle buf.grow m
  else none
termination_by limit - buf.len

/-- The event of `emitClose`. -/
def closeEvent (dcHandle : String) : WireEvent :=
  ⟨"event:dataChannelClose", dcHandle, [("type", .text "close")]⟩

/-- The loop on the messages that come before a read error, with its deferred `emitClose`. -/
def readLoop {limit : Nat} (dcHandle : String) (buf : ReadBuffer limit) :
    List Incoming → List WireEvent
  | [] => [closeEvent dcHandle]
  | m :: rest =>
    match readMessage dcHandle buf m with
    | some (buf, event) => event :: readLoop dcHandle buf rest
    | none => [closeEvent dcHandle]

/-- `readDetached`. -/
def readDetached (dcHandle : String) (maxMessageSize : Int) (incoming : List Incoming) :
    List WireEvent :=
  readLoop dcHandle (.new (readLimit_pos maxMessageSize)) incoming

/-! ### `readDetached`, turn by turn -/

/-- The loop between two calls of `ReadDataChannel`. `queue` holds the messages that come before the
read error, `sent` records the events, and `short` counts the short reads since the last message. -/
structure ReadState where
  buf : Nat
  queue : List Incoming
  returned : Bool
  sent : List WireEvent
  short : Nat

namespace ReadState

/-- The function returns, with its deferred `emitClose`. -/
def finish (dcHandle : String) (s : ReadState) : ReadState :=
  { s with returned := true, sent := s.sent ++ [closeEvent dcHandle] }

/-- One turn of the loop. -/
def turn (dcHandle : String) (limit : Nat) (s : ReadState) : Option ReadState :=
  if s.returned then none
  else
    match s.queue with
    | [] => some (s.finish dcHandle)
    | m :: rest =>
      if m.bytes.length ≤ s.buf then
        some { s with queue := rest, sent := s.sent ++ [readEvent dcHandle m], short := 0 }
      else if s.buf < limit then
        some { s with buf := min limit (2 * s.buf), short := s.short + 1 }
      -- `io.ErrShortBuffer` with a full buffer is an error like any other.
      else some (s.finish dcHandle)

end ReadState

/-- The loop on the messages that come before a read error. -/
def readSystem (dcHandle : String) (maxMessageSize : Int) (incoming : List Incoming) :
    StepSystem ReadState Unit where
  init := ⟨min (readLimit maxMessageSize) 65536, incoming, false, [], 0⟩
  step s _ := s.turn dcHandle (readLimit maxMessageSize)

end PionBridge.Server
