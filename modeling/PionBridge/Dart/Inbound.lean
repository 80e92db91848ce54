import PionBridge.Dart.Events
import PionBridge.Server.Inbound

/-!
# `PionBridge.Dart.Inbound`: an event frame in Dart

`msgpack_dart` turns an event frame into a map. Binary data become a `Uint8List`, and a string goes
through `Utf8Codec().decode`, which discards a byte order mark at the front and throws if the rest
is malformed. `handleFrame` swallows the exception.

`decodeStr` is the decoder of strings. `DartUtf8` is what is assumed of it.
-/

set_option autoImplicit false

namespace PionBridge.Dart

open PionBridge.Server

/-- The encoding of the byte order mark. -/
def utf8Bom : List UInt8 := [0xEF, 0xBB, 0xBF]

/-- The bytes without a byte order mark at the front. -/
def dropBom (bytes : List UInt8) : List UInt8 :=
  if utf8Bom <+: bytes then bytes.drop utf8Bom.length else bytes

/-- The decoder of `dart:convert`. After a byte order mark it accepts exactly the UTF-8 encodings of
texts, and returns the text. -/
def DartUtf8 (decodeStr : List UInt8 → Option String) : Prop :=
  ∀ bytes s, decodeStr bytes = some s ↔ s.toUTF8.data.toList = dropBom bytes

section
variable (decodeStr : List UInt8 → Option String)

def decodeValue : WireValue → Option Decoded
  | .nil => some .null
  | .bool b => some (.bool b)
  | .str bytes => (decodeStr bytes).map .str
  | .bin bytes => some (.bytes bytes)

def decodeText (s : String) : Option String := decodeStr s.toUTF8.data.toList

/-- `msgpack.deserialize` on the frame of an event. The handle is left out when it is empty. -/
def deserialize (e : WireEvent) : Option Decoded :=
  (decodeText decodeStr e.type).bind fun type =>
  (decodeText decodeStr e.handle).bind fun handle =>
  (e.data.mapM fun entry =>
    (decodeText decodeStr entry.1).bind fun key =>
    (decodeValue decodeStr entry.2).map fun value => (key, value)).map fun data =>
      .map ([("type", .str type), ("id", .int 0)] ++
        (if handle = "" then [] else [("handle", .str handle)]) ++ [("data", .map data)])

/-- What `handleFrame` passes to `onMessage` for a frame. -/
def BridgeConnection.eventsFrom (c : BridgeConnection) (e : WireEvent) : List Event :=
  (c.handleFrame (deserialize decodeStr e)).events.drop c.events.length

/-- The frames of events arrive. `onMessage` is the `broadcast` of the dispatcher. -/
def receiveAll : List WireEvent → BridgeConnection × EventWorld → BridgeConnection × EventWorld
  | [], r => r
  | e :: rest, (c, s) => receiveAll rest
      (c.handleFrame (deserialize decodeStr e), (c.eventsFrom decodeStr e).foldl .broadcast s)

end

end PionBridge.Dart
