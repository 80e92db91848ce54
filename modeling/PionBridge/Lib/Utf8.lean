import Mathlib.Data.List.Basic

/-!
# `PionBridge.Lib.Utf8`: strings of bytes

A string of a language such as Go is any sequence of bytes, read as UTF-8 where it is UTF-8.
`runes` decodes it: a character, or a byte at which no character starts. Nothing is lost
(`flatMap_bytes_runes`), so different strings have different runes.

A text of Lean has characters only. `textOf` puts any string into a text: a character is itself,
and a byte at which no character starts is put in as two characters, a mark and the byte. The mark
itself is put in twice. So different strings are different texts (`textOf_injective`), and a string
that is UTF-8 and has no mark is its own text (`textOf_utf8Bytes`).

`base64` is the standard encoding with padding.
-/

set_option autoImplicit false

namespace PionBridge.Lib

/-- A character, or a byte at which no character starts. -/
abbrev Rune := Char ⊕ UInt8

/-- The bytes of a rune. -/
def Rune.bytes : Rune → List UInt8
  | .inl c => String.utf8EncodeChar c
  | .inr b => [b]

/-- The runes of at most `n` bytes. -/
def runesOf : Nat → List UInt8 → List Rune
  | 0, _ => []
  | _ + 1, [] => []
  | n + 1, b :: bs =>
    match (b :: bs).toByteArray.utf8DecodeChar? 0 with
    | some c => .inl c :: runesOf n ((b :: bs).drop c.utf8Size)
    | none => .inr b :: runesOf n bs

/-- The runes of a string. -/
def runes (bytes : List UInt8) : List Rune := runesOf bytes.length bytes

/-- The bytes of a text. -/
def utf8Bytes (s : String) : List UInt8 := s.toList.flatMap String.utf8EncodeChar

/-! ### Decoding -/

/-- The first character of a string is what its encoding begins with. -/
theorem decode_append (c : Char) (bs : List UInt8) :
    (String.utf8EncodeChar c ++ bs).toByteArray.utf8DecodeChar? 0 = some c := by
  rw [List.toByteArray_append]
  exact ByteArray.utf8DecodeChar?_utf8EncodeChar_append

theorem eq_append_of_decode {bs : List UInt8} {c : Char}
    (h : bs.toByteArray.utf8DecodeChar? 0 = some c) :
    bs = String.utf8EncodeChar c ++ bs.drop c.utf8Size := by
  obtain ⟨rest, hrest⟩ := ByteArray.exists_of_utf8DecodeChar?_eq_some h
  have hlist : bs = String.utf8EncodeChar c ++ rest.data.toList := by
    rw [← List.toByteArray_inj, List.toByteArray_append, hrest]
    congr 1
    exact ByteArray.ext (by simp)
  rw [hlist, ← String.length_utf8EncodeChar, List.drop_left]

theorem runesOf_append (n : Nat) (c : Char) (bs : List UInt8) :
    runesOf (n + 1) (String.utf8EncodeChar c ++ bs) = .inl c :: runesOf n bs := by
  have hpos := c.utf8Size_pos
  cases henc : String.utf8EncodeChar c ++ bs with
  | nil =>
      have hlen := congrArg List.length henc
      rw [List.length_append, String.length_utf8EncodeChar, List.length_nil] at hlen
      omega
  | cons b rest =>
      rw [runesOf, ← henc, decode_append]
      show Sum.inl c :: runesOf n _ = _
      rw [← String.length_utf8EncodeChar, List.drop_left]

/-- The runes have the bytes of the string. -/
theorem flatMap_bytes_runesOf {n : Nat} {bs : List UInt8} (h : bs.length ≤ n) :
    (runesOf n bs).flatMap Rune.bytes = bs := by
  induction n generalizing bs with
  | zero =>
      rw [List.eq_nil_of_length_eq_zero (Nat.le_zero.mp h)]
      rfl
  | succ n ih =>
      cases bs with
      | nil => rfl
      | cons b bs =>
          rw [List.length_cons] at h
          cases hdec : (b :: bs).toByteArray.utf8DecodeChar? 0 with
          | none =>
              rw [runesOf, hdec]
              show [b] ++ (runesOf n bs).flatMap Rune.bytes = b :: bs
              rw [ih (by omega)]
              rfl
          | some c =>
              have hsplit := eq_append_of_decode hdec
              have hpos := c.utf8Size_pos
              rw [runesOf, hdec]
              show String.utf8EncodeChar c ++ (runesOf n _).flatMap Rune.bytes = b :: bs
              rw [ih (by rw [List.length_drop, List.length_cons]; omega), ← hsplit]

theorem flatMap_bytes_runes (bs : List UInt8) : (runes bs).flatMap Rune.bytes = bs :=
  flatMap_bytes_runesOf (Nat.le_refl _)

theorem runes_injective : Function.Injective runes := by
  intro bs bs' h
  rw [← flatMap_bytes_runes bs, h, flatMap_bytes_runes]

theorem runesOf_flatMap {n : Nat} {cs : List Char}
    (h : (cs.flatMap String.utf8EncodeChar).length ≤ n) :
    runesOf n (cs.flatMap String.utf8EncodeChar) = cs.map .inl := by
  induction cs generalizing n with
  | nil => cases n <;> rfl
  | cons c cs ih =>
      have hpos := c.utf8Size_pos
      rw [List.flatMap_cons, List.length_append, String.length_utf8EncodeChar] at h
      obtain ⟨n, rfl⟩ : ∃ k, n = k + 1 := ⟨n - 1, by omega⟩
      rw [List.flatMap_cons, runesOf_append, ih (by omega), List.map_cons]

/-- The runes of a text are its characters. -/
@[simp] theorem runes_utf8Bytes (s : String) : runes (utf8Bytes s) = s.toList.map .inl :=
  runesOf_flatMap (Nat.le_refl _)

/-! ### Strings as texts -/

/-- The mark before a byte. -/
def mark : Char := Char.ofNat 0x10FFFF

/-- A rune in a text. -/
def Rune.chars : Rune → List Char
  | .inl c => if c = mark then [mark, mark] else [c]
  | .inr b => [mark, Char.ofNat b.toNat]

/-- Runes as a text. -/
def textOf (rs : List Rune) : String := String.ofList (rs.flatMap Rune.chars)

theorem byteChar_injective : Function.Injective fun b : UInt8 => Char.ofNat b.toNat := by
  intro b b' h
  have hall : ∀ n : Fin 256, (Char.ofNat n.val).toNat = n.val := by decide +kernel
  have hnat := congrArg Char.toNat h
  simp only [hall ⟨b.toNat, b.toNat_lt⟩, hall ⟨b'.toNat, b'.toNat_lt⟩] at hnat
  exact UInt8.toNat_inj.mp hnat

theorem byteChar_ne_mark (b : UInt8) : Char.ofNat b.toNat ≠ mark := by
  have hall : ∀ n : Fin 256, Char.ofNat n.val ≠ mark := by decide +kernel
  exact hall ⟨b.toNat, b.toNat_lt⟩

/-- A rune can be read off the front of a text. -/
theorem chars_split {x y : Rune} {t t' : List Char} (h : x.chars ++ t = y.chars ++ t') :
    x = y ∧ t = t' := by
  cases x with
  | inl c =>
      cases y with
      | inl d =>
          simp only [Rune.chars] at h
          split at h <;> split at h
          · rename_i hc hd
            cases h
            exact ⟨by rw [hc, hd], rfl⟩
          · rename_i hc hd
            exact absurd (List.cons.inj h).1.symm hd
          · rename_i hc hd
            exact absurd (List.cons.inj h).1 hc
          · cases h
            exact ⟨rfl, rfl⟩
      | inr b =>
          simp only [Rune.chars] at h
          split at h
          · exact absurd (List.cons.inj (List.cons.inj h).2).1.symm (byteChar_ne_mark b)
          · rename_i hc
            exact absurd (List.cons.inj h).1 hc
  | inr b =>
      cases y with
      | inl d =>
          simp only [Rune.chars] at h
          split at h
          · exact absurd (List.cons.inj (List.cons.inj h).2).1 (byteChar_ne_mark b)
          · rename_i hd
            exact absurd (List.cons.inj h).1.symm hd
      | inr b' =>
          have htail := (List.cons.inj h).2
          rw [byteChar_injective (List.cons.inj htail).1]
          exact ⟨rfl, (List.cons.inj htail).2⟩

theorem chars_ne_nil (x : Rune) (t : List Char) : x.chars ++ t ≠ [] := by
  cases x with
  | inl c =>
      simp only [Rune.chars]
      split <;> simp
  | inr b => simp [Rune.chars]

theorem textOf_injective : Function.Injective textOf := by
  intro xs ys h
  have hchars : xs.flatMap Rune.chars = ys.flatMap Rune.chars := String.ofList_injective h
  clear h
  induction xs generalizing ys with
  | nil =>
      cases ys with
      | nil => rfl
      | cons y ys => exact absurd hchars.symm (chars_ne_nil y _)
  | cons x xs ih =>
      cases ys with
      | nil => exact absurd hchars (chars_ne_nil x _)
      | cons y ys =>
          rw [List.flatMap_cons, List.flatMap_cons] at hchars
          obtain ⟨rfl, hrest⟩ := chars_split hchars
          rw [ih hrest]

/-- Characters other than the mark are themselves. -/
theorem textOf_map_inl {cs : List Char} (h : mark ∉ cs) :
    textOf (cs.map .inl) = String.ofList cs := by
  have hchars : (cs.map Sum.inl).flatMap Rune.chars = cs := by
    induction cs with
    | nil => rfl
    | cons c cs ih =>
        rw [List.mem_cons, not_or] at h
        show Rune.chars (.inl c) ++ (cs.map Sum.inl).flatMap Rune.chars = c :: cs
        rw [ih h.2, Rune.chars, if_neg (Ne.symm h.1)]
        rfl
  rw [textOf, hchars]

theorem textOf_utf8Bytes {s : String} (h : mark ∉ s.toList) :
    textOf (runes (utf8Bytes s)) = s := by
  rw [runes_utf8Bytes, textOf_map_inl h, String.ofList_toList]

/-! ### Base 64 -/

/-- One of the 64 digits. -/
def base64Digit (n : Nat) : Char :=
  if n < 26 then Char.ofNat (65 + n)
  else if n < 52 then Char.ofNat (71 + n)
  else if n < 62 then Char.ofNat (n - 4)
  else if n = 62 then '+' else '/'

/-- Three bytes are four digits, and what is missing at the end is filled up. -/
def base64 : List UInt8 → List Char
  | [] => []
  | [a] =>
    let n := a.toNat * 16
    [base64Digit (n / 64), base64Digit (n % 64), '=', '=']
  | [a, b] =>
    let n := (a.toNat * 256 + b.toNat) * 4
    [base64Digit (n / 4096), base64Digit (n / 64 % 64), base64Digit (n % 64), '=']
  | a :: b :: c :: bytes =>
    let n := (a.toNat * 256 + b.toNat) * 256 + c.toNat
    base64Digit (n / 262144) :: base64Digit (n / 4096 % 64) :: base64Digit (n / 64 % 64) ::
      base64Digit (n % 64) :: base64 bytes

theorem length_base64_mod (bytes : List UInt8) : (base64 bytes).length % 4 = 0 := by
  fun_induction base64 bytes with
  | case1 => rfl
  | case2 => simp
  | case3 => simp
  | case4 a b c bytes n ih =>
      simp only [List.length_cons]
      omega

example : base64 (utf8Bytes "pion") = "cGlvbg==".toList := by decide

example : runes [0x68, 0xC3, 0xA9, 0xFF] = [.inl 'h', .inl 'é', .inr 0xFF] := by decide +kernel

end PionBridge.Lib
