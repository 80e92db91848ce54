import Mathlib.Logic.Function.Basic

/-!
# `PionBridge.Server.Message`: decoded values and messages

The values that msgpack decoding leaves in `map[string]interface{}` fields, the `Message`
struct, and the constructors of responses and events (`types.go`). A value keeps the Go type
it was decoded to, because the handlers switch on it: an integer carries its kind, and text
(`string`) is another type than binary (`[]byte`).

A missing map entry reads as nil in Go. `Data.get` returns an option, and the readers below
treat `none` as they treat `nil`: the type assertion fails.
-/

set_option autoImplicit false

namespace PionBridge.Server

/-- The Go integer types that a type switch tells apart. -/
inductive IntKind
  | int | int8 | int16 | int32 | int64
  | uint | uint8 | uint16 | uint32 | uint64
  deriving DecidableEq, Repr

/-- A value decoded into `interface{}`. -/
inductive Value
  | nil
  | bool (b : Bool)
  | int (kind : IntKind) (n : Int)
  | float32 (bits : BitVec 32)
  | float64 (bits : BitVec 64)
  | str (s : String)
  | bin (bytes : List UInt8)
  | list (items : List Value)
  | map (entries : List (String × Value))

/-- `map[string]interface{}`. -/
abbrev Data := List (String × Value)

namespace Data

/-- `data[key]`. -/
def get (data : Data) (key : String) : Option Value := data.lookup key

/-- `data[key].(bool)`. -/
def bool? (data : Data) (key : String) : Option Bool :=
  match data.get key with
  | some (.bool b) => some b
  | _ => none

/-- `data[key].(string)`. -/
def str? (data : Data) (key : String) : Option String :=
  match data.get key with
  | some (.str s) => some s
  | _ => none

/-- `data[key].(map[string]interface{})`. -/
def map? (data : Data) (key : String) : Option Data :=
  match data.get key with
  | some (.map entries) => some entries
  | _ => none

/-- `data[key].([]interface{})`. -/
def list? (data : Data) (key : String) : Option (List Value) :=
  match data.get key with
  | some (.list items) => some items
  | _ => none

end Data

/-- The `Message` struct: a request, a response or an event. -/
structure Message where
  type : String
  id : Int
  handle : String
  data : Data

/-- `ErrorResponse`. -/
def errorResponse (id : Int) (code message : String) (fatal : Bool) (handle : String) :
    Message where
  type := "error"
  id := id
  handle := ""
  data := [("code", .str code), ("message", .str message), ("fatal", .bool fatal)] ++
    if handle = "" then [] else [("handle", .str handle)]

/-- `AckResponse`. -/
def ackResponse (reqType : String) (id : Int) (handle : String) (data : Data) : Message where
  type := reqType ++ ":ack"
  id := id
  handle := handle
  data := data

/-- `Event`: its id is always 0. -/
def event (eventType handle : String) (data : Data) : Message where
  type := eventType
  id := 0
  handle := handle
  data := data

end PionBridge.Server
