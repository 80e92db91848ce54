import PionBridge.Lib.Json
import PionBridge.Lib.Shortest
import PionBridge.Lib.Utf8
import PionBridge.Server.Handler

/-!
# `PionBridge.Server.Payload`: payloads as they are decoded, and their JSON text

The key of the profile cache is the JSON text of the two payloads. It depends on more of a value
than the handlers see, so a payload is given here as msgpack leaves it. A string, and a key of a
map too, is any sequence of bytes. `decoded` is the payload in the terms of `Server/Message.lean`,
whose texts have characters only. Different strings are different texts there (`Lib/Utf8.lean`).

`marshal` is `json.Marshal`: keys sorted by their bytes, byte slices as base 64, floats in their
shortest form with an exponent outside of `1e-6` to `1e21`, an error for a NaN or an infinity. A
byte that is not part of UTF-8 becomes U+FFFD. Its documentation leaves open whether this
character is written as itself or as an escape, and so does the model.

A map here is the list of its entries, and the first entry of a key counts.
-/

set_option autoImplicit false

namespace PionBridge.Server

open PionBridge.Lib

/-- A Go string. -/
abbrev GoString := List UInt8

/-- A value that msgpack decodes into `interface{}`. -/
inductive RawValue
  | nil
  | bool (b : Bool)
  | int (kind : IntKind) (n : Int)
  | float32 (bits : BitVec 32)
  | float64 (bits : BitVec 64)
  | str (s : GoString)
  | bin (bytes : List UInt8)
  | list (items : List RawValue)
  | map (entries : List (GoString × RawValue))

/-- `map[string]interface{}`. -/
abbrev RawData := List (GoString × RawValue)

/-- The `settings_engine` and the `media_engine` of a profile. A payload that is missing is nil. -/
abbrev RawPayload := Option RawData × Option RawData

/-- A Go string as a text of the model. -/
def GoString.text (s : GoString) : String := textOf (runes s)

namespace RawValue

mutual

def decoded : RawValue → Value
  | .nil => .nil
  | .bool b => .bool b
  | .int kind n => .int kind n
  | .float32 bits => .float32 bits
  | .float64 bits => .float64 bits
  | .str s => .str (GoString.text s)
  | .bin bytes => .bin bytes
  | .list items => .list (decodedItems items)
  | .map entries => .map (decodedEntries entries)

def decodedItems : List RawValue → List Value
  | [] => []
  | v :: items => v.decoded :: decodedItems items

def decodedEntries : List (GoString × RawValue) → Data
  | [] => []
  | (k, v) :: entries => (GoString.text k, v.decoded) :: decodedEntries entries

end

end RawValue

/-- The payload that the handlers see. -/
def RawPayload.decoded (x : RawPayload) : Option Data × Option Data :=
  (x.1.map RawValue.decodedEntries, x.2.map RawValue.decodedEntries)

/-! ### `json.Marshal` -/

/-- How U+FFFD is written for a byte that is not part of UTF-8. -/
inductive Replacement
  | escaped
  | verbatim
  deriving DecidableEq

/-- The character that stands for such a byte. -/
def replacementChar : Char := '�'

/-- A rune inside quotes. -/
def Replacement.write (form : Replacement) : Rune → List Char
  | .inl c => escape c
  | .inr _ =>
    match form with
    | .escaped => unicodeEscape replacementChar
    | .verbatim => [replacementChar]

/-- The text of a `float32`. -/
def float32Numeral (bits : BitVec 32) : Option Numeral :=
  floatNumeral 8 23 0x358637BD 0x6258D727 bits.toNat

/-- The text of a `float64`. -/
def float64Numeral (bits : BitVec 64) : Option Numeral :=
  floatNumeral 11 52 0x3EB0C6F7A0B5ED8D 0x444B1AE4D6E2EF50 bits.toNat

/-- The error for a NaN or an infinity, given by its sign and the bits of its fraction. -/
def unsupportedValue (neg : Bool) (frac : Nat) : String :=
  "json: unsupported value: " ++ if frac ≠ 0 then "NaN" else if neg then "-Inf" else "+Inf"

/-- Puts an entry in its place. It replaces an entry with the same key. -/
def insertEntry {β : Type} (k : GoString) (v : β) : List (GoString × β) → List (GoString × β)
  | [] => [(k, v)]
  | (k', v') :: entries =>
    if k = k' then (k, v) :: entries
    else if k < k' then (k, v) :: (k', v') :: entries
    else (k', v') :: insertEntry k v entries

/-- The entries of a map in the order of their keys. -/
def sortEntries {β : Type} : List (GoString × β) → List (GoString × β)
  | [] => []
  | (k, v) :: entries => insertEntry k v (sortEntries entries)

/-- The results, or the first error. -/
def collect {β : Type} : List (Except String β) → Except String (List β)
  | [] => .ok []
  | x :: xs => do
    let a ← x
    let as ← collect xs
    return a :: as

namespace RawValue

mutual

/-- The JSON value of a value. -/
def json : RawValue → Except String (Json Rune)
  | .nil => .ok .null
  | .bool b => .ok (.bool b)
  | .int _ n => .ok (.num (.ofInt n))
  | .float32 bits =>
    match float32Numeral bits with
    | some n => .ok (.num n)
    | none => .error (unsupportedValue bits.msb (bits.toNat % 2 ^ 23))
  | .float64 bits =>
    match float64Numeral bits with
    | some n => .ok (.num n)
    | none => .error (unsupportedValue bits.msb (bits.toNat % 2 ^ 52))
  | .str s => .ok (.str (runes s))
  | .bin bytes => .ok (.str ((base64 bytes).map .inl))
  | .list items => (collect (jsonItems items)).map .arr
  | .map entries => (collect ((sortEntries (jsonEntries entries)).map member)).map .obj

def jsonItems : List RawValue → List (Except String (Json Rune))
  | [] => []
  | v :: items => v.json :: jsonItems items

def jsonEntries : List (GoString × RawValue) → List (GoString × Except String (Json Rune))
  | [] => []
  | (k, v) :: entries => (k, v.json) :: jsonEntries entries

/-- A member of an object. -/
def member (e : GoString × Except String (Json Rune)) : Except String (List Rune × Json Rune) :=
  e.2.map fun j => (runes e.1, j)

end

end RawValue

namespace RawPayload

/-- The JSON value of one of the payloads. -/
def part : Option RawData → Except String (Json Rune)
  | none => .ok .null
  | some entries => (RawValue.map entries).json

/-- The JSON value of `[]interface{}{cfg, media}`. -/
def json (x : RawPayload) : Except String (Json Rune) :=
  (collect [part x.1, part x.2]).map .arr

/-- `json.Marshal([]interface{}{cfg, media})`. -/
def marshal (form : Replacement) (x : RawPayload) : Except String String :=
  x.json.map fun j => String.ofList (j.text form.write)

end RawPayload

/-- The keys of the profile cache are those of `json.Marshal`. -/
def Platform.Marshals (env : Platform) (form : Replacement) : Prop :=
  ∀ x : RawPayload, env.profileKey x.decoded.1 x.decoded.2 = x.marshal form

/-! ### Calls of `profileFor` -/

section

variable (env : Platform)

/-- `profileFor`. A call that fails leaves the handler as it is. -/
def Handler.serve (h : Handler) (x : RawPayload) : Option ApiProfile × Handler :=
  match h.profileFor env x.decoded.1 x.decoded.2 with
  | .ok (p, h) => (some p, h)
  | .error _ => (none, h)

/-- The handler after calls of `profileFor`. -/
def Handler.serveAll (h : Handler) (calls : List RawPayload) : Handler :=
  calls.foldl (fun h x => (h.serve env x).2) h

/-- What `buildProfile` gives. -/
def RawPayload.built (x : RawPayload) : Option ApiProfile :=
  (buildProfile env x.decoded.1 x.decoded.2).toOption

/-- After the calls, `profileFor` fails exactly if `buildProfile` does, and otherwise returns the
profile that `buildProfile` would build. -/
def Transparent (calls : List RawPayload) (x : RawPayload) : Prop :=
  ((newHandler.serveAll env calls).serve env x).1 = x.built env

end

end PionBridge.Server
