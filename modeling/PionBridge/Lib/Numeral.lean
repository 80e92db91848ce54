import Mathlib.Algebra.Group.Int.Defs
import Mathlib.Algebra.Group.Nat.Defs
import Mathlib.Data.List.Basic

/-!
# `PionBridge.Lib.Numeral`: numbers as decimal text

A numeral has a sign, a whole part, digits after the point and an exponent, of which the last two
may be missing. `text` writes it. The text can be split off the front of a longer one, as long as
what follows cannot continue a number (`text_split`), so a text is that of one numeral only.

`trunc` is the integral part of the number that a numeral stands for. `ofInt` is the numeral of an
integer. `plain` and `scientific` are the two ways to write `d * 10 ^ p`, and `trunc` does not
depend on which of them is used.
-/

set_option autoImplicit false

namespace PionBridge.Lib

/-! ### Splitting a text -/

/-- The text does not go on with a character of the class. -/
def Stops (p : Char → Bool) (r : List Char) : Prop := ∀ c ∈ r.head?, p c = false

theorem stops_nil {p : Char → Bool} : Stops p [] := by
  intro c hc
  cases hc

theorem stops_cons {p : Char → Bool} {c : Char} {r : List Char} (h : p c = false) :
    Stops p (c :: r) := by
  intro d hd
  cases hd
  exact h

/-- A text ends where the class of its characters ends. -/
theorem split_of_stops {p : Char → Bool} {l l' r r' : List Char} (hl : ∀ c ∈ l, p c = true)
    (hl' : ∀ c ∈ l', p c = true) (hr : Stops p r) (hr' : Stops p r') (h : l ++ r = l' ++ r') :
    l = l' ∧ r = r' := by
  -- Both are the longest part of the text in the class.
  have htake : ∀ {s t : List Char}, (∀ c ∈ s, p c = true) → Stops p t →
      (s ++ t).takeWhile p = s := by
    intro s t hs ht
    rw [List.takeWhile_append_of_pos hs]
    cases t with
    | nil => simp
    | cons c t => simp [ht c rfl]
  have heq : l = l' := by rw [← htake hl hr, h, htake hl' hr']
  subst heq
  exact ⟨rfl, List.append_cancel_left h⟩

/-! ### Digits -/

/-- The number that a list of digits stands for, the first digit being the highest. -/
def digitsValue (ds : List (Fin 10)) : Nat := ds.foldl (fun n d => 10 * n + d.val) 0

/-- The last `k` digits of a number. -/
def fixedDigits : Nat → Nat → List (Fin 10)
  | 0, _ => []
  | k + 1, n => fixedDigits k (n / 10) ++ [⟨n % 10, Nat.mod_lt n (by decide)⟩]

/-- The characters of a list of digits. -/
def digitChars (ds : List (Fin 10)) : List Char := ds.map fun d => d.val.digitChar

@[simp] theorem length_fixedDigits (k n : Nat) : (fixedDigits k n).length = k := by
  induction k generalizing n with
  | zero => rfl
  | succ k ih => simp [fixedDigits, ih]

theorem digitsValue_fixedDigits (k n : Nat) : digitsValue (fixedDigits k n) = n % 10 ^ k := by
  induction k generalizing n with
  | zero => simp [fixedDigits, digitsValue, Nat.mod_one]
  | succ k ih =>
      have hlow := ih (n / 10)
      unfold digitsValue at hlow
      show (fixedDigits k (n / 10) ++ _).foldl _ 0 = n % 10 ^ (k + 1)
      rw [List.foldl_append, hlow, Nat.pow_succ', Nat.mod_mul]
      show 10 * (n / 10 % 10 ^ k) + n % 10 = _
      omega

theorem isDigit_digitChar (d : Fin 10) : (d.val.digitChar).isDigit = true := by
  rw [Nat.isDigit_digitChar]
  simp

theorem isDigit_of_mem_digitChars {ds : List (Fin 10)} {c : Char} (h : c ∈ digitChars ds) :
    c.isDigit = true := by
  obtain ⟨d, -, rfl⟩ := List.mem_map.mp h
  exact isDigit_digitChar d

theorem digitChars_injective : Function.Injective digitChars := by
  refine List.map_injective_iff.mpr ?_
  intro d d' h
  have hnat := congrArg Char.toNat h
  rw [Nat.toNat_digitChar_of_lt_ten d.isLt, Nat.toNat_digitChar_of_lt_ten d'.isLt] at hnat
  exact Fin.ext (by omega)

theorem isDigit_of_mem_toDigits {n : Nat} {c : Char} (h : c ∈ Nat.toDigits 10 n) :
    c.isDigit = true :=
  Nat.isDigit_of_mem_toDigits (by decide) (by decide) h

theorem toDigits_injective : Function.Injective (Nat.toDigits 10) := by
  intro m n h
  rw [← Nat.ofDigitChars_ten_toDigits (n := m), h, Nat.ofDigitChars_ten_toDigits]

/-! ### Numerals -/

/-- A number as text. Without digits after the point there is no point. -/
structure Numeral where
  neg : Bool
  whole : Nat
  frac : List (Fin 10)
  exp : Option Int
  deriving DecidableEq

namespace Numeral

/-- The sign. -/
def signText (neg : Bool) : List Char := if neg then ['-'] else []

/-- The point and the digits after it. -/
def fracText : List (Fin 10) → List Char
  | [] => []
  | d :: ds => '.' :: digitChars (d :: ds)

/-- The exponent. -/
def expText : Option Int → List Char
  | none => []
  | some e => 'e' :: (if e < 0 then '-' else '+') :: Nat.toDigits 10 e.natAbs

def text (n : Numeral) : List Char :=
  signText n.neg ++ (Nat.toDigits 10 n.whole ++ (fracText n.frac ++ expText n.exp))

/-- The number without its sign, cut off after the whole part. -/
def magnitude (n : Numeral) : Nat :=
  let e := n.exp.getD 0 - n.frac.length
  (n.whole * 10 ^ n.frac.length + digitsValue n.frac) * 10 ^ e.toNat / 10 ^ (-e).toNat

/-- The integral part. -/
def trunc (n : Numeral) : Int := if n.neg then -n.magnitude else n.magnitude

/-- An integer. -/
def ofInt (n : Int) : Numeral := ⟨decide (n < 0), n.natAbs, [], none⟩

/-- `d * 10 ^ p` with all its digits. -/
def plain (neg : Bool) (d : Nat) (p : Int) : Numeral :=
  if 0 ≤ p then ⟨neg, d * 10 ^ p.toNat, [], none⟩
  else ⟨neg, d / 10 ^ (-p).toNat, fixedDigits (-p).toNat d, none⟩

/-- `d * 10 ^ p` with one digit before the point. -/
def scientific (neg : Bool) (d : Nat) (p : Int) : Numeral :=
  let k := (Nat.toDigits 10 d).length - 1
  ⟨neg, d / 10 ^ k, fixedDigits k d, some (p + k)⟩

@[simp] theorem trunc_ofInt (n : Int) : (ofInt n).trunc = n := by
  have hmagnitude : (ofInt n).magnitude = n.natAbs := by simp [ofInt, magnitude, digitsValue]
  rw [trunc, hmagnitude]
  simp only [ofInt, decide_eq_true_eq]
  split <;> omega

@[simp] theorem neg_plain (neg : Bool) (d : Nat) (p : Int) : (plain neg d p).neg = neg := by
  unfold plain
  split <;> rfl

theorem magnitude_plain (neg : Bool) (d : Nat) (p : Int) :
    (plain neg d p).magnitude = d * 10 ^ p.toNat / 10 ^ (-p).toNat := by
  unfold plain
  split
  · rename_i hp
    have hneg : (-p).toNat = 0 := by omega
    simp [magnitude, digitsValue, hneg]
  · rename_i hp
    have hpos : p.toNat = 0 := by omega
    have hlen : (-((0 : Int) - ((-p).toNat : Int))).toNat = (-p).toNat := by omega
    have hzero : ((0 : Int) - ((-p).toNat : Int)).toNat = 0 := by omega
    simp only [magnitude, length_fixedDigits, Option.getD_none, digitsValue_fixedDigits,
      Nat.div_add_mod', hlen, hzero, hpos]

theorem magnitude_scientific (neg : Bool) (d : Nat) (p : Int) :
    (scientific neg d p).magnitude = d * 10 ^ p.toNat / 10 ^ (-p).toNat := by
  simp [scientific, magnitude, digitsValue_fixedDigits, Nat.div_add_mod']

/-! ### Reading -/

/-- The characters that can go on in a number. -/
def continues (c : Char) : Bool := c.isDigit || c == '.' || c == 'e'

theorem stops_isDigit {r : List Char} (h : Stops continues r) : Stops Char.isDigit r := by
  intro c hc
  have hstop := h c hc
  simp only [continues, Bool.or_eq_false_iff] at hstop
  exact hstop.1.1

/-- The exponent can be read. -/
theorem expText_split {e e' : Option Int} {r r' : List Char} (hr : Stops continues r)
    (hr' : Stops continues r') (h : expText e ++ r = expText e' ++ r') : e = e' ∧ r = r' := by
  have hstart : ∀ {e : Int} {r t : List Char}, Stops continues r → expText (some e) ++ t ≠ r := by
    rintro e r t hr rfl
    cases hr 'e' rfl
  cases e with
  | none =>
      cases e' with
      | none => exact ⟨rfl, h⟩
      | some e' => exact absurd h.symm (hstart hr)
  | some e =>
      cases e' with
      | none => exact absurd h (hstart hr')
      | some e' =>
          simp only [expText, List.cons_append, List.cons.injEq, true_and] at h
          obtain ⟨hsign, hdigits⟩ := h
          obtain ⟨habs, hrest⟩ := split_of_stops (fun _ hc => isDigit_of_mem_toDigits hc)
            (fun _ hc => isDigit_of_mem_toDigits hc) (stops_isDigit hr) (stops_isDigit hr') hdigits
          have hnat := toDigits_injective habs
          refine ⟨congrArg some ?_, hrest⟩
          -- The same sign and the same digits.
          split at hsign <;> split at hsign
          · omega
          · cases hsign
          · cases hsign
          · omega

theorem expText_stops {e : Option Int} {r : List Char} (hr : Stops continues r) :
    Stops Char.isDigit (expText e ++ r) := by
  cases e with
  | none => exact stops_isDigit hr
  | some e => exact stops_cons (by decide)

/-- The digits after the point can be read. -/
theorem fracText_split {ds ds' : List (Fin 10)} {e e' : Option Int} {r r' : List Char}
    (hr : Stops continues r) (hr' : Stops continues r')
    (h : fracText ds ++ (expText e ++ r) = fracText ds' ++ (expText e' ++ r')) :
    ds = ds' ∧ expText e ++ r = expText e' ++ r' := by
  have hstart : ∀ {d : Fin 10} {ds : List (Fin 10)} {e : Option Int} {r t : List Char},
      Stops continues r → fracText (d :: ds) ++ t ≠ expText e ++ r := by
    intro d ds e r t hr heq
    cases e with
    | none =>
        have hpoint := hr '.' (by rw [show r = expText none ++ r from rfl, ← heq]; rfl)
        cases hpoint
    | some e => cases heq
  cases ds with
  | nil =>
      cases ds' with
      | nil => exact ⟨rfl, h⟩
      | cons d' ds' => exact absurd h.symm (hstart hr)
  | cons d ds =>
      cases ds' with
      | nil => exact absurd h (hstart hr')
      | cons d' ds' =>
          simp only [fracText, List.cons_append, List.cons.injEq, true_and] at h
          obtain ⟨hdigits, hrest⟩ := split_of_stops (fun _ hc => isDigit_of_mem_digitChars hc)
            (fun _ hc => isDigit_of_mem_digitChars hc) (expText_stops hr) (expText_stops hr') h
          exact ⟨digitChars_injective hdigits, hrest⟩

theorem fracText_stops {ds : List (Fin 10)} {e : Option Int} {r : List Char}
    (hr : Stops continues r) : Stops Char.isDigit (fracText ds ++ (expText e ++ r)) := by
  cases ds with
  | nil => exact expText_stops hr
  | cons d ds => exact stops_cons (by decide)

/-- The whole part starts with a digit. -/
theorem exists_toDigits (n : Nat) : ∃ c t, Nat.toDigits 10 n = c :: t ∧ c.isDigit = true := by
  obtain ⟨c, t, hct⟩ := List.exists_cons_of_ne_nil (Nat.toDigits_ne_nil (n := n) (b := 10))
  refine ⟨c, t, hct, isDigit_of_mem_toDigits (n := n) ?_⟩
  rw [hct]
  exact List.mem_cons_self

/-- A numeral starts with its sign or with a digit. -/
theorem exists_text (n : Numeral) :
    ∃ c t, n.text = c :: t ∧ (c = '-' ∧ n.neg = true ∨ c.isDigit = true ∧ n.neg = false) := by
  obtain ⟨c, t, hct, hc⟩ := exists_toDigits n.whole
  unfold text signText
  cases n.neg with
  | true => exact ⟨'-', _, rfl, Or.inl ⟨rfl, rfl⟩⟩
  | false =>
      rw [hct]
      exact ⟨c, _, rfl, Or.inr ⟨hc, rfl⟩⟩

/-- A numeral can be read off the front of a text. -/
theorem text_split {n n' : Numeral} {r r' : List Char} (hr : Stops continues r)
    (hr' : Stops continues r') (h : n.text ++ r = n'.text ++ r') : n = n' ∧ r = r' := by
  have hneg : n.neg = n'.neg := by
    obtain ⟨c, t, hct, hc⟩ := n.exists_text
    obtain ⟨c', t', hct', hc'⟩ := n'.exists_text
    rw [hct, hct'] at h
    have hhead : c = c' := (List.cons.inj h).1
    subst hhead
    rcases hc with ⟨rfl, hn⟩ | ⟨hd, hn⟩ <;> rcases hc' with ⟨hm, hn'⟩ | ⟨hd', hn'⟩
    · rw [hn, hn']
    · cases hd'
    · subst hm
      cases hd
    · rw [hn, hn']
  obtain ⟨neg, whole, frac, exp⟩ := n
  obtain ⟨neg', whole', frac', exp'⟩ := n'
  simp only at hneg
  subst hneg
  simp only [text, List.append_assoc] at h
  obtain ⟨hwhole, hfrac⟩ := split_of_stops (fun _ hc => isDigit_of_mem_toDigits hc)
    (fun _ hc => isDigit_of_mem_toDigits hc) (fracText_stops hr) (fracText_stops hr')
    (List.append_cancel_left h)
  obtain ⟨rfl, hexp⟩ := fracText_split hr hr' hfrac
  obtain ⟨rfl, hrest⟩ := expText_split hr hr' hexp
  rw [toDigits_injective hwhole]
  exact ⟨rfl, hrest⟩

end Numeral

end PionBridge.Lib
