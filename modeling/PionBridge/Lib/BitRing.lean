import Mathlib.Algebra.Group.Nat.Defs
import Mathlib.Data.Finset.Card
import Mathlib.Data.Finset.Range
import Mathlib.Data.Nat.ModEq

/-!
# `PionBridge.Lib.BitRing`: a ring of words as a set of numbers

A list of 64-bit words is read as a ring of bits. The number `n` has the bit `n % 64` of the word
`n / 64 % words`, so two numbers share a bit exactly when they agree modulo the number of bits
(`ringBit_congr`, `ringIndex_eq_iff`). `ringBit_modify` says what a change of the word of one number
does to the bits of all others.

For the bits of counters that wrap, `wrap_mod_iff` says when the ring does not confuse them.
`trailingZeros` finds the lowest bit of a word and `popCount` counts its bits.
-/

set_option autoImplicit false

namespace PionBridge.Lib

/-- The word of the number `n` in a ring of `words` words. -/
def ringIndex (words n : Nat) : Nat := n / 64 % words

/-- The bit of the number `n`. -/
def ringBit (ws : List (BitVec 64)) (n : Nat) : Bool :=
  (ws.getD (ringIndex ws.length n) 0).getLsbD (n % 64)

/-- The ring after a change of the word of the number `n`. -/
def ringModify (ws : List (BitVec 64)) (n : Nat) (f : BitVec 64 → BitVec 64) : List (BitVec 64) :=
  ws.set (ringIndex ws.length n) (f (ws.getD (ringIndex ws.length n) 0))

@[simp] theorem length_ringModify (ws : List (BitVec 64)) (n : Nat) (f : BitVec 64 → BitVec 64) :
    (ringModify ws n f).length = ws.length := by
  simp [ringModify]

/-- Two numbers have the same word and the same place in it when they agree modulo the ring. -/
theorem ringIndex_eq_iff {words m n : Nat} :
    (ringIndex words m = ringIndex words n ∧ m % 64 = n % 64) ↔
      m % (64 * words) = n % (64 * words) := by
  unfold ringIndex
  rw [Nat.mod_mul, Nat.mod_mul]
  constructor
  · rintro ⟨hword, hplace⟩
    rw [hword, hplace]
  · intro h
    have hm : m % 64 < 64 := Nat.mod_lt _ (by omega)
    have hn : n % 64 < 64 := Nat.mod_lt _ (by omega)
    omega

/-- Numbers that agree modulo the ring share their bit. -/
theorem ringBit_congr {ws : List (BitVec 64)} {m n : Nat}
    (h : m % (64 * ws.length) = n % (64 * ws.length)) : ringBit ws m = ringBit ws n := by
  obtain ⟨hword, hplace⟩ := ringIndex_eq_iff.mpr h
  unfold ringBit
  rw [hword, hplace]

/-- A change of one word, seen from any number. -/
theorem ringBit_modify {ws : List (BitVec 64)} (hws : 0 < ws.length) (n : Nat)
    (f : BitVec 64 → BitVec 64) (m : Nat) :
    ringBit (ringModify ws n f) m =
      if ringIndex ws.length m = ringIndex ws.length n then
        (f (ws.getD (ringIndex ws.length n) 0)).getLsbD (m % 64)
      else ringBit ws m := by
  have hn : ringIndex ws.length n < ws.length := Nat.mod_lt _ hws
  unfold ringBit
  rw [length_ringModify]
  unfold ringModify
  split
  · rename_i h
    rw [h, List.getD_eq_getElem?_getD, List.getElem?_set_self hn, Option.getD_some]
  · rename_i h
    rw [List.getD_eq_getElem?_getD, List.getElem?_set_ne (fun he => h he.symm),
      ← List.getD_eq_getElem?_getD]

/-- A function that gives the bit `n % 64` the value `v` and leaves the other bits of a word gives
the bit of `n` that value, and leaves the numbers that do not share its place. -/
theorem ringBit_modifyBit {ws : List (BitVec 64)} (hws : 0 < ws.length) {f : BitVec 64 → BitVec 64}
    {v : Bool} {n : Nat} (hf : ∀ x i, (f x).getLsbD i = if n % 64 = i then v else x.getLsbD i)
    (m : Nat) :
    ringBit (ringModify ws n f) m =
      if m % (64 * ws.length) = n % (64 * ws.length) then v else ringBit ws m := by
  rw [ringBit_modify hws, hf]
  simp only [← ringIndex_eq_iff]
  by_cases hword : ringIndex ws.length m = ringIndex ws.length n
  · simp only [hword, true_and, if_true, eq_comm]
    unfold ringBit
    rw [hword]
  · simp only [hword, false_and, if_false]

/-- The word with one bit. -/
theorem getLsbD_bit (n i : Nat) : (1#64 <<< (n % 64)).getLsbD i = decide (n % 64 = i) := by
  rw [← BitVec.twoPow_eq, BitVec.getLsbD_twoPow, decide_eq_true (Nat.mod_lt _ (by omega)),
    Bool.true_and]

/-- Setting the bit of `n`. -/
theorem ringBit_setBit {ws : List (BitVec 64)} (hws : 0 < ws.length) (n m : Nat) :
    ringBit (ringModify ws n fun v => v ||| 1#64 <<< (n % 64)) m =
      (decide (m % (64 * ws.length) = n % (64 * ws.length)) || ringBit ws m) := by
  rw [ringBit_modifyBit hws (v := true)]
  · split <;> simp_all
  · intro x i
    rw [BitVec.getLsbD_or, getLsbD_bit]
    split <;> simp_all

/-- Clearing the bit of `n`. -/
theorem ringBit_clearBit {ws : List (BitVec 64)} (hws : 0 < ws.length) (n m : Nat) :
    ringBit (ringModify ws n fun v => v &&& ~~~(1#64 <<< (n % 64))) m =
      (!decide (m % (64 * ws.length) = n % (64 * ws.length)) && ringBit ws m) := by
  rw [ringBit_modifyBit hws (v := false)]
  · split <;> simp_all
  · intro x i
    rw [BitVec.getLsbD_and, BitVec.getLsbD_not, getLsbD_bit]
    split
    · simp_all
    · -- beyond the word both sides are zero
      by_cases hi : i < 64 <;> simp_all

/-! ### Numbers that share a bit -/

/-- Numbers less than a whole ring apart that agree modulo its size are equal. -/
theorem eq_of_mod_eq {size m n : Nat} (h : m % size = n % size) (hmn : m < n + size)
    (hnm : n < m + size) : m = n := by
  cases Nat.le_total m n with
  | inl hle =>
      have hdvd : size ∣ n - m := (Nat.modEq_iff_dvd' hle).mp h
      have hzero := Nat.eq_zero_of_dvd_of_lt hdvd (by omega)
      omega
  | inr hle =>
      have hdvd : size ∣ m - n := (Nat.modEq_iff_dvd' hle).mp h.symm
      have hzero := Nat.eq_zero_of_dvd_of_lt hdvd (by omega)
      omega

/-- Counters that start again at `range`. In an interval that does not reach over the start, or
when the size of the ring divides the range, they share a bit exactly when the numbers they count
agree modulo the size. -/
theorem wrap_mod_iff {range size lo hi m n : Nat}
    (h : size ∣ range ∨ lo / range = hi / range) (hm : lo ≤ m ∧ m ≤ hi) (hn : lo ≤ n ∧ n ≤ hi) :
    m % range % size = n % range % size ↔ m % size = n % size := by
  cases h with
  | inl hdvd => rw [Nat.mod_mod_of_dvd _ hdvd, Nat.mod_mod_of_dvd _ hdvd]
  | inr hblock =>
      have hturn : m / range = n / range := by
        have h1 : lo / range ≤ m / range := Nat.div_le_div_right hm.1
        have h2 : m / range ≤ hi / range := Nat.div_le_div_right hm.2
        have h3 : lo / range ≤ n / range := Nat.div_le_div_right hn.1
        have h4 : n / range ≤ hi / range := Nat.div_le_div_right hn.2
        omega
      have hm' : m % size = (range * (n / range) + m % range) % size := by
        rw [← hturn, Nat.div_add_mod]
      have hn' : n % size = (range * (n / range) + n % range) % size := by
        rw [Nat.div_add_mod]
      rw [hm', hn']
      exact ⟨Nat.ModEq.add_left _, Nat.ModEq.add_left_cancel' _⟩

/-! ### Bits of one word -/

/-- The bits from `offset` on, `n` of them. -/
def bitsMask (n offset : Nat) : BitVec 64 :=
  if n < 64 then ((1#64 <<< n) - 1#64) <<< offset else BitVec.allOnes 64

theorem getLsbD_bitsMask {n offset i : Nat} (hi : i < 64) (hn : offset + n ≤ 64) :
    (bitsMask n offset).getLsbD i = decide (offset ≤ i ∧ i < offset + n) := by
  unfold bitsMask
  split
  · rename_i hlt
    have hones : (1#64 <<< n) - 1#64 = BitVec.ofNat 64 (2 ^ n - 1) := by
      apply BitVec.eq_of_toNat_eq
      have hpow : 2 ^ n < 2 ^ 64 := Nat.pow_lt_pow_right (by omega) hlt
      have hpos : 0 < 2 ^ n := Nat.two_pow_pos n
      have hone : 1 % 2 ^ 64 * 2 ^ n = 2 ^ n := by omega
      simp only [BitVec.toNat_sub, BitVec.toNat_shiftLeft, BitVec.toNat_ofNat, Nat.shiftLeft_eq,
        hone]
      omega
    rw [hones, BitVec.getLsbD_shiftLeft, BitVec.getLsbD_ofNat, Nat.testBit_two_pow_sub_one,
      Bool.eq_iff_iff]
    simp
    omega
  · have hall : offset ≤ i ∧ i < offset + n := by omega
    rw [BitVec.getLsbD_allOnes]
    simp [hi, hall]

/-- The test that a program makes for one bit of a word. -/
theorem and_bit_ne_zero (v : BitVec 64) {i : Nat} (hi : i < 64) :
    (v &&& (1#64 <<< i) != 0) = v.getLsbD i := by
  rw [Bool.eq_iff_iff, bne_iff_ne, ne_eq]
  constructor
  · intro hne
    by_contra hbit
    apply hne
    apply BitVec.eq_of_getLsbD_eq
    intro j hj
    simp only [BitVec.getLsbD_and, BitVec.getLsbD_shiftLeft, BitVec.getLsbD_one]
    by_cases hji : j = i
    · subst hji
      simp [hbit]
    · simp
      omega
  · intro hbit hzero
    have hcleared : (v &&& (1#64 <<< i)).getLsbD i = false := by
      rw [hzero]
      simp
    rw [BitVec.getLsbD_and, hbit, BitVec.getLsbD_shiftLeft, BitVec.getLsbD_one] at hcleared
    simp [hi] at hcleared

/-- Clearing `k` bits of the word of `p`, from the one of `p` on. -/
theorem ringBit_clearBits {ws : List (BitVec 64)} (hws : 0 < ws.length) {p k : Nat}
    (hk : p % 64 + k ≤ 64) (m : Nat) :
    ringBit (ringModify ws p fun v => v &&& ~~~bitsMask k (p % 64)) m =
      (!decide (∃ i < k, m % (64 * ws.length) = (p + i) % (64 * ws.length)) && ringBit ws m) := by
  have hm : m % 64 < 64 := Nat.mod_lt _ (by omega)
  -- the numbers `p + i` stay in the word of `p`
  have hword (i : Nat) (hi : i < k) :
      ringIndex ws.length (p + i) = ringIndex ws.length p ∧ (p + i) % 64 = p % 64 + i := by
    unfold ringIndex
    have hdiv : (p + i) / 64 = p / 64 := by omega
    rw [hdiv]
    exact ⟨rfl, by omega⟩
  rw [ringBit_modify hws]
  split
  · rename_i hidx
    have hmask : (∃ i < k, m % (64 * ws.length) = (p + i) % (64 * ws.length)) ↔
        p % 64 ≤ m % 64 ∧ m % 64 < p % 64 + k := by
      constructor
      · rintro ⟨i, hi, heq⟩
        have hplace := (ringIndex_eq_iff.mpr heq).2
        have := (hword i hi).2
        omega
      · intro hin
        have hi : m % 64 - p % 64 < k := by omega
        refine ⟨m % 64 - p % 64, hi, ringIndex_eq_iff.mp ⟨?_, ?_⟩⟩
        · rw [hidx, (hword _ hi).1]
        · rw [(hword _ hi).2]
          omega
    simp only [BitVec.getLsbD_and, BitVec.getLsbD_not, hm, decide_true, Bool.true_and,
      getLsbD_bitsMask hm hk, hmask]
    unfold ringBit
    rw [hidx, Bool.and_comm]
  · rename_i hidx
    have hnone : ¬ ∃ i < k, m % (64 * ws.length) = (p + i) % (64 * ws.length) := by
      rintro ⟨i, hi, heq⟩
      apply hidx
      rw [(ringIndex_eq_iff.mpr heq).1, (hword i hi).1]
    simp [hnone]

/-- The number of bits that are set. -/
def popCount (v : BitVec 64) : Nat := (List.range 64).countP fun i => v.getLsbD i

/-- Counting over the numbers below `n`, as a list and as a set. -/
theorem countP_range_eq_card (p : Nat → Bool) (n : Nat) :
    (List.range n).countP p = ((Finset.range n).filter fun i => p i = true).card := by
  induction n with
  | zero => simp
  | succ n ih =>
      rw [List.range_succ, List.countP_append, ih, Finset.range_add_one, Finset.filter_insert]
      cases hp : p n with
      | false => simp [hp]
      | true => simp [hp]

theorem popCount_eq_card (v : BitVec 64) :
    popCount v = ((Finset.range 64).filter fun i => v.getLsbD i = true).card :=
  countP_range_eq_card _ 64

/-- The bits that `ringBit_clearBits` clears, counted. -/
theorem popCount_and_bitsMask (ws : List (BitVec 64)) {p k : Nat} (hk : p % 64 + k ≤ 64) :
    popCount (ws.getD (ringIndex ws.length p) 0 &&& bitsMask k (p % 64)) =
      ((Finset.range k).filter fun i => ringBit ws (p + i) = true).card := by
  rw [popCount_eq_card]
  symm
  apply Finset.card_bij (fun i _ => p % 64 + i)
  · intro i hi
    have hik : i < k := Finset.mem_range.mp (Finset.mem_filter.mp hi).1
    have hbit := (Finset.mem_filter.mp hi).2
    have hdiv : (p + i) / 64 = p / 64 := by omega
    have hmod : (p + i) % 64 = p % 64 + i := by omega
    unfold ringBit ringIndex at hbit
    rw [hdiv, hmod] at hbit
    have hlt : p % 64 + i < 64 := by omega
    rw [Finset.mem_filter, Finset.mem_range, BitVec.getLsbD_and, getLsbD_bitsMask hlt hk]
    refine ⟨hlt, ?_⟩
    unfold ringIndex
    rw [hbit]
    simp
    omega
  · intro i _ j _ hij
    omega
  · intro j hj
    obtain ⟨hj64, hbit⟩ := Finset.mem_filter.mp hj
    have hlt : j < 64 := Finset.mem_range.mp hj64
    rw [BitVec.getLsbD_and, getLsbD_bitsMask hlt hk, Bool.and_eq_true, decide_eq_true_eq] at hbit
    obtain ⟨hset, hlo, hhi⟩ := hbit
    refine ⟨j - p % 64, ?_, by omega⟩
    have hdiv : (p + (j - p % 64)) / 64 = p / 64 := by omega
    have hmod : (p + (j - p % 64)) % 64 = j := by omega
    rw [Finset.mem_filter, Finset.mem_range]
    refine ⟨by omega, ?_⟩
    unfold ringBit ringIndex
    rw [hdiv, hmod]
    exact hset

/-- The place of the lowest bit that is set, or 64. -/
def trailingZeros (v : BitVec 64) : Nat := (List.range 64).findIdx fun i => v.getLsbD i

theorem getLsbD_of_lt_trailingZeros {v : BitVec 64} {i : Nat} (h : i < trailingZeros v) :
    v.getLsbD i = false := by
  have hi := List.not_of_lt_findIdx h
  rw [List.getElem_range] at hi
  simpa using hi

theorem getLsbD_trailingZeros {v : BitVec 64} (h : trailingZeros v < 64) :
    v.getLsbD (trailingZeros v) = true := by
  have hlen : (List.range 64).findIdx (fun i => v.getLsbD i) < (List.range 64).length := by
    rwa [List.length_range]
  have hbit := List.findIdx_getElem (w := hlen)
  rwa [List.getElem_range] at hbit

end PionBridge.Lib
