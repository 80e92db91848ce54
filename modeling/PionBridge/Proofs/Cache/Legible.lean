import PionBridge.Proofs.Cache.Lookups
import PionBridge.Proofs.Cache.Text

/-!
# `PionBridge.Proofs.Cache.Legible`: values that can be told from their text

The lookups of `buildProfile` make integers, names and lists of names out of values. What they make
of a legible value can be told from its text.

A number must have a text with the integer that `toInt` makes of it. This is so for all integers,
for a `float64` below 2^53 and for a `float32` below 2^24 (`legible_int`, `legible_float64`,
`legible_float32`). A name must be UTF-8, and a string rather than a slice of bytes. A codec may be
anything but a slice of bytes whose base 64 is the name of a codec, which happens for audio only
(`legibleCodec_isVideoCodec`).
-/

set_option autoImplicit false

namespace PionBridge.Server

open PionBridge.Lib

/-! ### Readings of a value -/

namespace RawValue

def isNil : RawValue → Bool
  | .nil => true
  | _ => false

/-- `v.(bool)`. -/
def flag : RawValue → Option Bool
  | .bool b => some b
  | _ => none

/-- `v.(string)`. -/
def name : RawValue → Option String
  | .str s => some (GoString.text s)
  | _ => none

/-- `v.([]interface{})`. -/
def items : RawValue → Option (List RawValue)
  | .list items => some items
  | _ => none

/-- The text of a number. -/
def numeral : RawValue → Option Numeral
  | .int _ n => some (.ofInt n)
  | .float32 bits => float32Numeral bits
  | .float64 bits => float64Numeral bits
  | _ => none

/-- What stands in quotes. -/
def chars : RawValue → Option (List Char)
  | .str s => some ((runes s).map runeChar)
  | .bin bytes => some (base64 bytes)
  | _ => none

/-- What is read from the text of a value. -/
structure Reading (v : RawValue) (j : Json Char) : Prop where
  isNil : v.isNil = j.isNull
  flag : v.flag = j.bool?
  numeral : v.numeral = j.num?
  chars : v.chars = j.str?
  items : Option.Rel (List.Forall₂ Denotes) v.items j.arr?

theorem Denotes.reading {v : RawValue} {j : Json Char} (h : v.Denotes j) : v.Reading j := by
  cases v with
  | list items =>
      obtain ⟨js, rfl, hjs⟩ := h.list
      exact ⟨rfl, rfl, rfl, rfl, .some hjs⟩
  | map entries =>
      obtain ⟨ms, rfl, -⟩ := h.map
      exact ⟨rfl, rfl, rfl, rfl, .none⟩
  | float32 bits | float64 bits =>
      obtain ⟨t, ht, rfl⟩ := h
      rw [json] at ht
      split at ht
      · rename_i n hn
        cases ht
        rw [Json.map]
        exact ⟨rfl, rfl, hn, rfl, .none⟩
      · cases ht
  | bin bytes =>
      obtain ⟨t, ht, rfl⟩ := h
      cases ht
      rw [Json.map, List.map_map]
      exact ⟨rfl, rfl, rfl, congrArg some (List.map_id _).symm, .none⟩
  | nil | bool b | int kind n | str s =>
      obtain ⟨t, ht, rfl⟩ := h
      cases ht
      rw [Json.map]
      exact ⟨rfl, rfl, rfl, rfl, .none⟩

/-- A value without the text of a number is none. -/
theorem Denotes.toInt_eq_none {v : RawValue} {j : Json Char} (h : v.Denotes j) (env : Platform)
    (hn : v.numeral = none) : env.toInt v.decoded = none := by
  cases v with
  | int kind n => cases hn
  | float32 bits | float64 bits =>
      obtain ⟨t, ht, -⟩ := h
      rw [json] at ht
      split at ht
      · rename_i n hsome
        rw [numeral, hsome] at hn
        cases hn
      · cases ht
  | nil | bool b | str s | bin bytes | list items | map entries => rw [decoded]; rfl

end RawValue

theorem forall₂_agree {items items' : List RawValue} {js : List (Json Char)}
    (h : List.Forall₂ RawValue.Denotes items js) (h' : List.Forall₂ RawValue.Denotes items' js) :
    List.Forall₂ Agree items items' := by
  induction h generalizing items' with
  | nil =>
      cases h'
      exact .nil
  | cons hv hitems ih =>
      cases h' with
      | cons hv' hitems' => exact .cons ⟨_, hv, hv'⟩ (ih hitems')

/-- The readings of two values with the same text. -/
structure SameReading (v v' : RawValue) : Prop where
  isNil : v.isNil = v'.isNil
  flag : v.flag = v'.flag
  numeral : v.numeral = v'.numeral
  chars : v.chars = v'.chars
  items : Option.Rel (List.Forall₂ Agree) v.items v'.items

theorem Agree.reading {v v' : RawValue} (h : Agree v v') : SameReading v v' := by
  obtain ⟨j, hj, hj'⟩ := h
  have hv := hj.reading
  have hv' := hj'.reading
  constructor
  · rw [hv.isNil, hv'.isNil]
  · rw [hv.flag, hv'.flag]
  · rw [hv.numeral, hv'.numeral]
  · rw [hv.chars, hv'.chars]
  · refine rel_mono ?_ (rel_of_common hv.items hv'.items)
    intro items _ items' _ hcommon
    obtain ⟨js, hjs, hjs'⟩ := hcommon
    exact forall₂_agree hjs hjs'

/-! ### Lookups through the raw payload -/

section

variable {key : String} (hkey : PlainKey key) (data : RawData)

include hkey

theorem PlainKey.int?_eq (env : Platform) :
    env.int? (RawValue.decodedEntries data) key
      = (RawData.get data key).bind fun v => env.toInt v.decoded := by
  rw [Platform.int?, hkey.get_decodedEntries, Option.bind_map]
  rfl

theorem PlainKey.bool?_eq :
    (RawValue.decodedEntries data).bool? key = (RawData.get data key).bind RawValue.flag := by
  unfold Data.bool?
  rw [hkey.get_decodedEntries]
  cases RawData.get data key with
  | none => rfl
  | some v => cases v <;> rfl

theorem PlainKey.str?_eq :
    (RawValue.decodedEntries data).str? key = (RawData.get data key).bind RawValue.name := by
  unfold Data.str?
  rw [hkey.get_decodedEntries]
  cases RawData.get data key with
  | none => rfl
  | some v => cases v <;> rfl

theorem PlainKey.list?_eq :
    (RawValue.decodedEntries data).list? key
      = ((RawData.get data key).bind RawValue.items).map RawValue.decodedItems := by
  unfold Data.list?
  rw [hkey.get_decodedEntries]
  cases RawData.get data key with
  | none => rfl
  | some v => cases v <;> rfl

end

/-! ### Numbers -/

/-- The text of a number has the integer that `toInt` makes of it. -/
def LegibleNumber (env : Platform) (v : RawValue) : Prop :=
  ∀ n, v.numeral = some n → env.toInt v.decoded = some (env.wrap .int64 n.trunc)

theorem Agree.toInt_eq {env : Platform} {v v' : RawValue} (h : Agree v v')
    (hv : LegibleNumber env v) (hv' : LegibleNumber env v') :
    env.toInt v.decoded = env.toInt v'.decoded := by
  cases hn : v.numeral with
  | some n => rw [hv n hn, hv' n (h.reading.numeral ▸ hn)]
  | none =>
      have hn' : v'.numeral = none := h.reading.numeral ▸ hn
      obtain ⟨j, hj, hj'⟩ := h
      rw [hj.toInt_eq_none env hn, hj'.toInt_eq_none env hn']

theorem legible_int (env : Platform) (kind : IntKind) (n : Int) :
    LegibleNumber env (.int kind n) := by
  intro n' hn
  cases hn
  rw [Numeral.trunc_ofInt]
  rfl

section

variable {e f small large bits : Nat} {n : Numeral}
  (h : floatNumeral e f small large bits = some n) (hmin : 2 ^ (e - 1) - 1 + f ≤ 1075)
  (hexp : max (bits / 2 ^ f % 2 ^ e) 1 ≤ 2 ^ (e - 1) - 1 + f)

include h hmin hexp

theorem sign_and_size_of_floatNumeral :
    n.neg = decide (bits / 2 ^ (e + f) % 2 = 1) ∧
      n.magnitude = (binaryOf e f bits).mant
        / 2 ^ (2 ^ (e - 1) - 1 + f - max (bits / 2 ^ f % 2 ^ e) 1) := by
  generalize hpoint : 2 ^ (e - 1) - 1 + f = point at hmin hexp ⊢
  have hbinary : (binaryOf e f bits).exp
      = ((max (bits / 2 ^ f % 2 ^ e) 1 : Nat) : Int) - (point : Nat) := by
    rw [← hpoint]
    rfl
  obtain ⟨hneg, hsize⟩ := trunc_floatNumeral h (by omega) (by omega)
  have hshift : (-(binaryOf e f bits).exp).toNat = point - max (bits / 2 ^ f % 2 ^ e) 1 := by omega
  rw [hshift] at hsize
  exact ⟨hneg, hsize⟩

/-- The conversion cuts off what the text has after the point. -/
theorem truncate_of_floatNumeral : truncate e f bits = some n.trunc := by
  obtain ⟨hneg, hsize⟩ := sign_and_size_of_floatNumeral h hmin hexp
  have hfinite : bits / 2 ^ f % 2 ^ e ≠ 2 ^ e - 1 := by
    intro hfull
    rw [floatNumeral, if_pos hfull] at h
    cases h
  unfold truncate
  simp only
  rw [if_neg hfinite, Nat.sub_eq_zero_of_le hexp, Nat.pow_zero, Nat.mul_one, Numeral.trunc, hneg,
    hsize]
  simp only [decide_eq_true_eq]
  rfl

theorem holds_of_floatNumeral (hf : f ≤ 52) (word : WordSize) :
    IntKind.int64.Holds word n.trunc := by
  obtain ⟨-, hsize⟩ := sign_and_size_of_floatNumeral h hmin hexp
  have hmant : (binaryOf e f bits).mant < 2 ^ 53 := by
    have hfrac : bits % 2 ^ f < 2 ^ f := Nat.mod_lt _ (Nat.two_pow_pos f)
    have hpow : 2 ^ f ≤ 2 ^ 52 := Nat.pow_le_pow_right (by decide) hf
    show (if bits / 2 ^ f % 2 ^ e = 0 then bits % 2 ^ f else bits % 2 ^ f + 2 ^ f) < 2 ^ 53
    split <;> omega
  have hlt : n.magnitude < 2 ^ 53 := by
    rw [hsize]
    exact Nat.lt_of_le_of_lt (Nat.div_le_self _ _) hmant
  show -2 ^ 63 ≤ n.trunc ∧ n.trunc < 2 ^ 63
  unfold Numeral.trunc
  split <;> omega

theorem ofFloat_of_floatNumeral (hf : f ≤ 52) (env : Platform) (v : Value) :
    env.ofFloat .int64 v (truncate e f bits) = env.wrap .int64 n.trunc := by
  have hholds := holds_of_floatNumeral h hmin hexp hf env.word
  rw [truncate_of_floatNumeral h hmin hexp, Platform.ofFloat]
  rw [if_pos hholds]
  exact (Platform.wrap_of_holds hholds).symm

end

/-- A `float64` below 2^53 is legible. -/
theorem legible_float64 (env : Platform) (bits : BitVec 64)
    (h : bits.toNat / 2 ^ 52 % 2 ^ 11 ≤ 1075) : LegibleNumber env (.float64 bits) := by
  intro n hn
  have hexp : max (bits.toNat / 2 ^ 52 % 2 ^ 11) 1 ≤ 2 ^ (11 - 1) - 1 + 52 := by omega
  exact congrArg some
    (ofFloat_of_floatNumeral hn (by decide) hexp (by decide) env (.float64 bits))

/-- A `float32` below 2^24 is legible. -/
theorem legible_float32 (env : Platform) (bits : BitVec 32)
    (h : bits.toNat / 2 ^ 23 % 2 ^ 8 ≤ 150) : LegibleNumber env (.float32 bits) := by
  intro n hn
  have hexp : max (bits.toNat / 2 ^ 23 % 2 ^ 8) 1 ≤ 2 ^ (8 - 1) - 1 + 23 := by omega
  exact congrArg some
    (ofFloat_of_floatNumeral hn (by decide) hexp (by decide) env (.float32 bits))

/-! ### Names -/

/-- A string is UTF-8, and there is no slice of bytes. -/
def LegibleName : RawValue → Prop
  | .str s => ∃ t, s = utf8Bytes t
  | .bin _ => False
  | _ => True

theorem name_of_legible {v : RawValue} (hv : LegibleName v) :
    v.name = v.chars.map fun cs => textOf (cs.map .inl) := by
  cases v with
  | str s =>
      obtain ⟨t, rfl⟩ := hv
      show some (GoString.text _) = some (textOf (((runes _).map runeChar).map .inl))
      rw [GoString.text, runes_utf8Bytes, List.map_map, List.map_map]
      rfl
  | bin bytes => exact hv.elim
  | nil | bool b | int kind n | float32 bits | float64 bits | list items | map entries => rfl

theorem Agree.name_eq {v v' : RawValue} (h : Agree v v') (hv : LegibleName v)
    (hv' : LegibleName v') : v.name = v'.name := by
  rw [name_of_legible hv, name_of_legible hv', h.reading.chars]

/-- For a name that counts only if it is not empty, there may also be an empty slice. -/
theorem name_of_legible_or_empty {v : RawValue} (hv : v = .bin [] ∨ LegibleName v) :
    v.name.filter (· ≠ "")
      = (v.chars.map fun cs => textOf (cs.map .inl)).filter (· ≠ "") := by
  rcases hv with rfl | hv
  · -- No name on one side, and the empty one on the other.
    decide
  · rw [name_of_legible hv]

theorem Agree.name_filter_eq {v v' : RawValue} (h : Agree v v')
    (hv : v = .bin [] ∨ LegibleName v) (hv' : v' = .bin [] ∨ LegibleName v') :
    v.name.filter (· ≠ "") = v'.name.filter (· ≠ "") := by
  rw [name_of_legible_or_empty hv, name_of_legible_or_empty hv', h.reading.chars]

/-! ### Codecs -/

/-- A slice of bytes does not have the name of a codec as its base 64. -/
def LegibleCodec (known : String → Bool) (v : RawValue) : Prop :=
  ∀ bytes, v = .bin bytes → known (String.ofList (base64 bytes)) = false

section

variable {known : String → Bool}

/-- A known name in one of the values is in the other one. -/
theorem Agree.name_of_known (hknown : ∀ s, known s = true → PlainKey s) {v v' : RawValue}
    (h : Agree v v') (hv' : LegibleCodec known v') {s : String} (hs : known s = true)
    (hname : v.name = some s) : v'.name = some s := by
  have hplain := hknown s hs
  -- The name stands in the text of the second value too.
  have hchars : v'.chars = some s.toList := by
    cases v with
    | str b =>
        have hb : utf8Bytes s = b := (hplain.text_eq_iff b).mp (Option.some.inj hname).symm
        rw [← h.reading.chars]
        exact congrArg some ((hplain.chars_eq_iff b).mpr hb).symm
    | _ => cases hname
  cases v' with
  | str b =>
      have hb : utf8Bytes s = b := (hplain.chars_eq_iff b).mp (Option.some.inj hchars).symm
      exact congrArg some ((hplain.text_eq_iff b).mpr hb).symm
  | bin bytes =>
      -- Bytes with this text would be illegible.
      have hbytes : base64 bytes = s.toList := Option.some.inj hchars
      have hno := hv' bytes rfl
      rw [hbytes, String.ofList_toList, hs] at hno
      cases hno
  | _ => cases hchars

theorem Agree.codec_eq (hknown : ∀ s, known s = true → PlainKey s) {v v' : RawValue}
    (h : Agree v v') (hv : LegibleCodec known v) (hv' : LegibleCodec known v') :
    v.name.filter known = v'.name.filter known := by
  have hsymm : Agree v' v := by
    obtain ⟨j, hj, hj'⟩ := h
    exact ⟨j, hj', hj⟩
  apply Option.ext
  intro s
  rw [Option.filter_eq_some_iff, Option.filter_eq_some_iff]
  constructor
  · intro ⟨hname, hs⟩
    exact ⟨h.name_of_known hknown hv' hs hname, hs⟩
  · intro ⟨hname, hs⟩
    exact ⟨hsymm.name_of_known hknown hv hs hname, hs⟩

/-! ### Lists of names -/

theorem stringItems_cons (known : String → Bool) (v : RawValue) (items : List RawValue) :
    ((stringItems (RawValue.decodedItems (v :: items))).toOption.filter fun ns => ns.all known)
      = (v.name.filter known).bind fun s =>
        ((stringItems (RawValue.decodedItems items)).toOption.filter fun ns =>
          ns.all known).map (s :: ·) := by
  rw [RawValue.decodedItems]
  cases v with
  | str b =>
      rw [RawValue.decoded, stringItems, toOption_map, RawValue.name, Option.filter_some]
      cases (stringItems (RawValue.decodedItems items)).toOption with
      | none => cases known (GoString.text b) <;> rfl
      | some ns =>
          rw [Option.map_some, Option.filter_some, Option.filter_some, List.all_cons]
          cases known (GoString.text b) <;> cases ns.all known <;> rfl
  | _ => rw [RawValue.decoded]; rfl

theorem names_eq {items items' : List RawValue}
    (h : List.Forall₂ (fun v v' => v.name.filter known = v'.name.filter known) items items') :
    ((stringItems (RawValue.decodedItems items)).toOption.filter fun ns => ns.all known)
      = (stringItems (RawValue.decodedItems items')).toOption.filter fun ns => ns.all known := by
  induction h with
  | nil => rfl
  | cons hv hitems ih => rw [stringItems_cons, stringItems_cons, hv, ih]

end

/-- The items of legible lists agree one by one. -/
theorem forall₂_of_legible {items items' : List RawValue} {L : RawValue → Prop}
    {R : RawValue → RawValue → Prop} (hR : ∀ v v', Agree v v' → L v → L v' → R v v')
    (h : List.Forall₂ Agree items items') (hitems : ∀ v ∈ items, L v)
    (hitems' : ∀ v ∈ items', L v) : List.Forall₂ R items items' := by
  induction h with
  | nil => exact .nil
  | cons hv hvs ih =>
      rw [List.forall_mem_cons] at hitems hitems'
      exact .cons (hR _ _ hv hitems.1 hitems'.1) (ih hitems.2 hitems'.2)

/-- The two loops over strings differ in their errors only. -/
theorem toOption_allowedNames (items : List Value) :
    (allowedNames items).toOption = (stringItems items).toOption := by
  induction items with
  | nil => rfl
  | cons v items ih =>
      cases v with
      | str s => rw [allowedNames, stringItems, toOption_map, toOption_map, ih]
      | _ => rfl

/-- Lists of legible names. -/
theorem strings_eq {items items' : List RawValue} (h : List.Forall₂ Agree items items')
    (hitems : ∀ v ∈ items, LegibleName v) (hitems' : ∀ v ∈ items', LegibleName v) :
    (stringItems (RawValue.decodedItems items)).toOption
      = (stringItems (RawValue.decodedItems items')).toOption := by
  have hall : ∀ names : Option (List String),
      (names.filter fun ns => ns.all fun _ => true) = names := by
    intro names
    cases names <;> simp
  have hnames := names_eq (forall₂_of_legible (fun v v' hagree hv hv' =>
    congrArg (Option.filter fun _ => true) (hagree.name_eq hv hv')) h hitems hitems')
  rwa [hall, hall] at hnames

theorem knownNames_decoded (known : String → Bool) (v : RawValue) :
    knownNames known (some v.decoded) =
      match v.items with
      | some items =>
        (stringItems (RawValue.decodedItems items)).toOption.filter fun ns => ns.all known
      | none => if v.isNil then some [] else none := by
  cases v <;> rw [RawValue.decoded] <;> rfl

/-- Lists of legible codecs. -/
theorem Agree.knownNames_eq {known : String → Bool} {media media' : RawData}
    (h : Agree (.map media) (.map media')) {key : String} (hkey : PlainKey key)
    (hknown : ∀ s, known s = true → PlainKey s)
    (hv : ∀ items ∈ (RawData.get media key).bind RawValue.items,
      ∀ v ∈ items, LegibleCodec known v)
    (hv' : ∀ items ∈ (RawData.get media' key).bind RawValue.items,
      ∀ v ∈ items, LegibleCodec known v) :
    knownNames known ((RawValue.decodedEntries media).get key)
      = knownNames known ((RawValue.decodedEntries media').get key) := by
  have hrel := h.get hkey
  rw [hkey.get_decodedEntries, hkey.get_decodedEntries]
  generalize RawData.get media key = raw at hrel hv ⊢
  generalize RawData.get media' key = raw' at hrel hv' ⊢
  cases hrel with
  | none => rfl
  | some hagree =>
      rename_i v v'
      have hitems := hagree.reading.items
      rw [Option.bind_some] at hv hv'
      rw [Option.map_some, Option.map_some, knownNames_decoded, knownNames_decoded,
        hagree.reading.isNil]
      generalize v.items = items at hitems hv ⊢
      generalize v'.items = items' at hitems hv' ⊢
      cases hitems with
      | none => rfl
      | some hitems =>
          exact names_eq (forall₂_of_legible (fun v v' hagree hv hv' =>
            hagree.codec_eq hknown hv hv') hitems (hv _ rfl) (hv' _ rfl))

/-! ### Codec names -/

theorem plainKey_of_map {f : Char → Char} {s : String} {cs : List Char}
    (h : s.toList.map f = cs) (hmark : f mark ∉ cs) (hreplacement : f replacementChar ∉ cs) :
    PlainKey s := by
  subst h
  constructor
  · intro hs
    exact hmark (List.mem_map_of_mem hs)
  · intro hs
    exact hreplacement (List.mem_map_of_mem hs)

/-- The names of the video codecs. -/
theorem upper_of_isVideoCodec {s : String} (h : isVideoCodec s = true) :
    s.toUpper = "VP8" ∨ s.toUpper = "VP9" ∨ s.toUpper = "AV1" := by
  unfold isVideoCodec videoCodecDefs at h
  split at h
  · rename_i heq
    exact .inl heq
  · rename_i heq
    exact .inr (.inl heq)
  · rename_i heq
    exact .inr (.inr heq)
  · cases h

theorem toList_toUpper (s : String) : s.toUpper.toList = s.toList.map Char.toUpper :=
  String.toList_map

theorem plainKey_of_isVideoCodec {s : String} (h : isVideoCodec s = true) : PlainKey s := by
  have hmap := toList_toUpper s
  rcases upper_of_isVideoCodec h with hs | hs | hs
  all_goals
    rw [hs] at hmap
    exact plainKey_of_map hmap.symm (by decide) (by decide)

theorem plainKey_of_foldsToOpus {s : String} (h : foldsToOpus s = true) : PlainKey s := by
  unfold foldsToOpus at h
  exact plainKey_of_map (beq_iff_eq.mp h) (by decide) (by decide)

/-- The name of a video codec has three characters, so it is no base 64. -/
theorem legibleCodec_isVideoCodec (v : RawValue) : LegibleCodec isVideoCodec v := by
  intro bytes _
  by_contra hknown
  rw [Bool.not_eq_false] at hknown
  have hlen := congrArg List.length (toList_toUpper (String.ofList (base64 bytes)))
  rw [List.length_map, String.toList_ofList] at hlen
  have hmod := length_base64_mod bytes
  rcases upper_of_isVideoCodec hknown with hs | hs | hs
  all_goals
    rw [hs] at hlen
    rw [← hlen] at hmod
    exact absurd hmod (by decide)

end PionBridge.Server
