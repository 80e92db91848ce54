import Mathlib.Algebra.Group.Int.Defs
import Mathlib.Algebra.Group.Nat.Defs
import PionBridge.Server.Message

/-!
# `PionBridge.Server.Platform`: Go conversions and what lies outside the bridge

The conversions between Go's integer types, the helpers `toInt`, `toUint64` and `toUint16`
that the handlers use on decoded numbers, and the parameters of the model: what the Go
runtime, `encoding/json` and pion decide.

An integer type is an `IntKind`, and its values are the integers that it holds. `int` and
`uint` have the word size of the target, 32 bits on `armeabi-v7a` and 64 on the others, so it
is a parameter. A conversion to an integer type wraps. A float loses its fraction. Go leaves
the result to the implementation when the integral part does not fit the target type, so that
result is a parameter too.
-/

set_option autoImplicit false

namespace PionBridge.Server

/-- The word size of a target. -/
inductive WordSize
  | w32
  | w64
  deriving DecidableEq, Repr

def WordSize.bits : WordSize → Nat
  | w32 => 32
  | w64 => 64

namespace IntKind

def width (word : WordSize) : IntKind → Nat
  | int8 | uint8 => 8
  | int16 | uint16 => 16
  | int32 | uint32 => 32
  | int64 | uint64 => 64
  | int | uint => word.bits

def signed : IntKind → Bool
  | int | int8 | int16 | int32 | int64 => true
  | uint | uint8 | uint16 | uint32 | uint64 => false

/-- The values of the type. -/
def Holds (kind : IntKind) (word : WordSize) (n : Int) : Prop :=
  if kind.signed then -2 ^ (kind.width word - 1) ≤ n ∧ n < 2 ^ (kind.width word - 1)
  else 0 ≤ n ∧ n < 2 ^ kind.width word

instance (kind : IntKind) (word : WordSize) (n : Int) : Decidable (kind.Holds word n) :=
  inferInstanceAs (Decidable (if kind.signed then _ ∧ _ else _ ∧ _))

/-- The conversion of an integer to the type. -/
def wrap (kind : IntKind) (word : WordSize) (n : Int) : Int :=
  if kind.signed then n.bmod (2 ^ kind.width word) else n % 2 ^ kind.width word

/-- Facts about all types need only be shown for the widths that there are. -/
theorem width_cases (kind : IntKind) (word : WordSize) :
    kind.width word = 8 ∨ kind.width word = 16 ∨ kind.width word = 32 ∨ kind.width word = 64 := by
  cases kind <;> cases word <;> simp [width, WordSize.bits]

end IntKind

/-- The integral part of a float with `e` exponent bits and `f` fraction bits. There is none
for a NaN or an infinity. -/
def truncate (e f bits : Nat) : Option Int :=
  let frac := bits % 2 ^ f
  let exp := bits / 2 ^ f % 2 ^ e
  if exp = 2 ^ e - 1 then none
  else
    let mantissa := if exp = 0 then frac else frac + 2 ^ f
    -- The exponent that puts the point to the right of the mantissa.
    let point := 2 ^ (e - 1) - 1 + f
    let size := mantissa * 2 ^ (max exp 1 - point) / 2 ^ (point - max exp 1)
    some (if bits / 2 ^ (e + f) % 2 = 1 then -size else size)

/-- `time.Millisecond`. -/
def millisecond : Int := 1000000

/-- `webrtc.RTCPFeedback`. -/
structure RTCPFeedback where
  type : String
  parameter : String := ""
  deriving DecidableEq, Repr

/-- The kind of a codec, `webrtc.RTPCodecType`. -/
inductive CodecType
  | audio
  | video
  deriving DecidableEq, Repr

/-- `webrtc.RTPCodecParameters`, with the type it is registered under. -/
structure Codec where
  mimeType : String
  clockRate : Nat
  channels : Nat := 0
  sdpFmtpLine : String
  rtcpFeedback : List RTCPFeedback := []
  payloadType : Nat
  kind : CodecType
  deriving DecidableEq, Repr

/-- What `make(chan dcSendWork, n)` comes to. A length that the runtime does not refuse can be too
much for the memory. That is a fatal error, and no `recover` sees it. -/
inductive MakeChan
  | made
  | outOfRange
  | outOfMemory
  deriving DecidableEq

/-- What lies outside the bridge. A function that returns an option gives the text of an
error. -/
structure Platform where
  /-- The size of `int` and `uint`. -/
  word : WordSize
  /-- The conversion of a float to an integer type whose range it is not in. -/
  overflow : IntKind → Value → Int
  /-- `make(chan dcSendWork, n)`. -/
  makeChan : Int → MakeChan
  /-- `json.Marshal` of the two payloads of a profile. -/
  profileKey : Option Data → Option Data → Except String String
  /-- `%q`. -/
  quote : String → String
  setEphemeralUDPPortRange : Int → Int → Option String
  /-- `SetICERenomination`, with the interval in nanoseconds if one is given. -/
  setICERenomination : Option Int → Option String
  /-- `RegisterCodec` on a media engine that has the codecs of the list: the codecs that it has
  afterwards, or an error. A codec that it has already is accepted and not added again. -/
  registerCodec : List Codec → Codec → Except String (List Codec)
  /-- `RegisterDefaultInterceptorsWithOptions`, with the NACK interval in nanoseconds. -/
  registerInterceptors : List Codec → Option Int → Option String

namespace Platform

variable (env : Platform)

/-- A type holds a number on this platform. -/
abbrev Holds (kind : IntKind) (n : Int) : Prop := kind.Holds env.word n

/-- A conversion on this platform. -/
abbrev wrap (kind : IntKind) (n : Int) : Int := kind.wrap env.word n

/-- The conversion does not change a value of the type. -/
theorem wrap_of_holds {env : Platform} {kind : IntKind} {n : Int} (h : env.Holds kind n) :
    env.wrap kind n = n := by
  unfold Holds IntKind.Holds at h
  unfold wrap IntKind.wrap
  cases hs : kind.signed with
  | true =>
      obtain hw | hw | hw | hw := kind.width_cases env.word <;>
        simp only [hs, hw, if_true, Int.bmod_def] at h ⊢ <;> omega
  | false =>
      obtain hw | hw | hw | hw := kind.width_cases env.word <;>
        simp only [hs, hw, Bool.false_eq_true, if_false] at h ⊢ <;> omega

/-- `time.Duration(ms) * time.Millisecond`. -/
def milliseconds (ms : Int) : Int := env.wrap .int64 (ms * millisecond)

/-- The conversion of a float with the integral part `part`. -/
def ofFloat (kind : IntKind) (v : Value) (part : Option Int) : Int :=
  match part with
  | some n => if env.Holds kind n then n else env.wrap kind (env.overflow kind v)
  | none => env.wrap kind (env.overflow kind v)

/-- The type switch that `toInt`, `toUint64` and `toUint16` have in common. -/
def toKind (kind : IntKind) : Value → Option Int
  | .int _ n => some (env.wrap kind n)
  | .float32 bits => some (env.ofFloat kind (.float32 bits) (truncate 8 23 bits.toNat))
  | .float64 bits => some (env.ofFloat kind (.float64 bits) (truncate 11 52 bits.toNat))
  | _ => none

/-- `toInt`. -/
def toInt : Value → Option Int := env.toKind .int64

/-- `toUint64`. -/
def toUint64 : Value → Option Int := env.toKind .uint64

/-- `toUint16`. -/
def toUint16 : Value → Option Int := env.toKind .uint16

/-- `toInt(data[key])`. -/
def int? (data : Data) (key : String) : Option Int := (data.get key).bind env.toInt

/-- `toUint64(data[key])`. -/
def uint64? (data : Data) (key : String) : Option Int := (data.get key).bind env.toUint64

/-- `toUint16(data[key])`. -/
def uint16? (data : Data) (key : String) : Option Int := (data.get key).bind env.toUint16

end Platform

-- 3.75 and -0.5 as float64, and 1e10 as float32.
example : truncate 11 52 0x400E000000000000 = some 3 ∧ truncate 11 52 0xBFE0000000000000 = some 0 ∧
    truncate 8 23 0x501502F9 = some 10000000000 := by decide

end PionBridge.Server
