import Mathlib.Algebra.Group.Nat.Defs
import Mathlib.Data.Nat.Init

/-!
# `PionBridge.Lib.Serial`: serial numbers

A serial number is a counter of `w` bits that starts again at zero. Of two numbers the later one is
the one that is reached first by counting up from the other, so the order is only meaningful for
numbers that are less than half of the range apart. At half of the range exactly, `serialGT` holds
in both directions and `serialLT` in none.

`ahead a b` counts the steps from `a` up to `b`. `serialLT_iff` and `serialGT_iff` say what the two
comparisons are in terms of it. For the numbers of a window they are the order of the offsets from
its base (`serialLT_add`, `serialGT_add`, `serialLTE_add`).
-/

set_option autoImplicit false

namespace PionBridge.Lib

variable {w : Nat}

/-- `i1` comes before `i2`. -/
def serialLT (i1 i2 : BitVec w) : Bool :=
  (decide (i1 < i2) && decide ((i2 - i1).toNat < 2 ^ (w - 1))) ||
    (decide (i2 < i1) && decide (2 ^ (w - 1) < (i1 - i2).toNat))

/-- `i1` comes before `i2` or is `i2`. -/
def serialLTE (i1 i2 : BitVec w) : Bool := decide (i1 = i2) || serialLT i1 i2

/-- `i1` comes after `i2`. -/
def serialGT (i1 i2 : BitVec w) : Bool :=
  (decide (i1 < i2) && decide (2 ^ (w - 1) ≤ (i2 - i1).toNat)) ||
    (decide (i2 < i1) && decide ((i1 - i2).toNat ≤ 2 ^ (w - 1)))

/-- The number of steps from `a` up to `b`. -/
def ahead (a b : BitVec w) : Nat := (b - a).toNat

theorem ahead_lt (a b : BitVec w) : ahead a b < 2 ^ w := (b - a).isLt

@[simp] theorem ahead_self (a : BitVec w) : ahead a a = 0 := by
  simp [ahead]

/-- Counting up from `a` by `ahead a b` ends at `b`. -/
theorem add_ahead (a b : BitVec w) : a + BitVec.ofNat w (ahead a b) = b := by
  unfold ahead
  rw [BitVec.ofNat_toNat, BitVec.setWidth_eq, BitVec.add_comm, BitVec.sub_add_cancel]

/-- The steps are the ones that were made, up to a whole turn. -/
theorem ahead_add (a : BitVec w) {n : Nat} (hn : n < 2 ^ w) :
    ahead a (a + BitVec.ofNat w n) = n := by
  unfold ahead
  rw [BitVec.add_comm, BitVec.add_sub_cancel, BitVec.toNat_ofNat, Nat.mod_eq_of_lt hn]

theorem ahead_eq_zero {a b : BitVec w} : ahead a b = 0 ↔ a = b := by
  constructor
  · intro h
    have hb := add_ahead a b
    rw [h] at hb
    simpa using hb
  · intro h
    rw [h, ahead_self]

/-- Both numbers counted from a common base. -/
theorem ahead_add_add (a : BitVec w) {m n : Nat} (hmn : m ≤ n) (hn : n < 2 ^ w + m) :
    ahead (a + BitVec.ofNat w m) (a + BitVec.ofNat w n) = n - m := by
  obtain ⟨k, rfl⟩ := Nat.exists_eq_add_of_le hmn
  rw [BitVec.ofNat_add, ← BitVec.add_assoc, ahead_add _ (by omega)]
  omega

/-- The way back is the rest of the turn. -/
theorem ahead_swap {a b : BitVec w} (h : a ≠ b) : ahead b a = 2 ^ w - ahead a b := by
  have hpos : 0 < ahead a b := Nat.pos_of_ne_zero fun h0 => h (ahead_eq_zero.mp h0)
  have hlt := ahead_lt a b
  have hback : a - b = -(b - a) := by
    rw [BitVec.neg_sub, BitVec.sub_eq_add_neg, BitVec.add_comm]
  unfold ahead at hpos hlt ⊢
  rw [hback, BitVec.toNat_neg, Nat.mod_eq_of_lt (by omega)]

private theorem two_pow_half (hw : 0 < w) : 2 ^ w = 2 * 2 ^ (w - 1) := by
  have hsucc : w = w - 1 + 1 := by omega
  rw [hsucc, Nat.pow_succ, Nat.mul_comm, Nat.add_sub_cancel]

/-- `serialLT` in steps: fewer than half of the range, and at least one. -/
theorem serialLT_iff (hw : 0 < w) (a b : BitVec w) :
    serialLT a b = true ↔ 0 < ahead a b ∧ ahead a b < 2 ^ (w - 1) := by
  have hhalf := two_pow_half hw
  by_cases hab : a = b
  · subst hab
    simp [serialLT]
  · have hswap : (a - b).toNat = 2 ^ w - (b - a).toNat := ahead_swap hab
    have hpos : 0 < (b - a).toNat := Nat.pos_of_ne_zero fun h0 => hab (ahead_eq_zero.mp h0)
    have hlt := ahead_lt a b
    have hne : a.toNat ≠ b.toNat := fun h => hab (BitVec.eq_of_toNat_eq h)
    unfold serialLT
    unfold ahead at hlt ⊢
    simp only [Bool.or_eq_true, Bool.and_eq_true, decide_eq_true_eq, BitVec.lt_def, hswap]
    omega

/-- `serialGT` in steps: at most half of the range, and at least one. -/
theorem serialGT_iff (hw : 0 < w) (a b : BitVec w) :
    serialGT a b = true ↔ 0 < ahead b a ∧ ahead b a ≤ 2 ^ (w - 1) := by
  have hhalf := two_pow_half hw
  by_cases hab : b = a
  · subst hab
    simp [serialGT]
  · have hswap : (b - a).toNat = 2 ^ w - (a - b).toNat := ahead_swap hab
    have hpos : 0 < (a - b).toNat := Nat.pos_of_ne_zero fun h0 => hab (ahead_eq_zero.mp h0)
    have hlt := ahead_lt b a
    have hne : a.toNat ≠ b.toNat := fun h => hab (BitVec.eq_of_toNat_eq h.symm)
    unfold serialGT
    unfold ahead at hlt ⊢
    simp only [Bool.or_eq_true, Bool.and_eq_true, decide_eq_true_eq, BitVec.lt_def, hswap]
    omega

theorem serialLTE_iff (hw : 0 < w) (a b : BitVec w) :
    serialLTE a b = true ↔ ahead a b < 2 ^ (w - 1) := by
  have hpos : 0 < 2 ^ (w - 1) := Nat.two_pow_pos _
  simp only [serialLTE, Bool.or_eq_true, decide_eq_true_eq, serialLT_iff hw, ← ahead_eq_zero]
  omega

/-! ### Windows -/

section Window

variable (a : BitVec w) {m n : Nat}

/-- The steps from one number of a window to another, forwards or over the end of the range. -/
theorem ahead_window (hmn : m < n + 2 ^ w) (hnm : n < m + 2 ^ w) :
    ahead (a + BitVec.ofNat w m) (a + BitVec.ofNat w n) =
      if m ≤ n then n - m else 2 ^ w - (m - n) := by
  split
  · rename_i hle
    exact ahead_add_add a hle (by omega)
  · rename_i hlt
    have hback := ahead_add_add a (Nat.le_of_not_le hlt) (by omega)
    have hne : a + BitVec.ofNat w n ≠ a + BitVec.ofNat w m := by
      intro h
      rw [h, ahead_self] at hback
      omega
    rw [ahead_swap hne, hback]

/-- In a window of half of the range `serialLT` compares the numbers. -/
theorem serialLT_add (hw : 0 < w) (hmn : m < n + 2 ^ (w - 1)) (hnm : n < m + 2 ^ (w - 1)) :
    serialLT (a + BitVec.ofNat w m) (a + BitVec.ofNat w n) = decide (m < n) := by
  have hhalf := two_pow_half hw
  rw [Bool.eq_iff_iff, serialLT_iff hw, ahead_window a (by omega) (by omega), decide_eq_true_eq]
  split <;> omega

/-- So does `serialGT`. -/
theorem serialGT_add (hw : 0 < w) (hmn : m < n + 2 ^ (w - 1)) (hnm : n < m + 2 ^ (w - 1)) :
    serialGT (a + BitVec.ofNat w m) (a + BitVec.ofNat w n) = decide (n < m) := by
  have hhalf := two_pow_half hw
  rw [Bool.eq_iff_iff, serialGT_iff hw, ahead_window a (by omega) (by omega), decide_eq_true_eq]
  split <;> omega

/-- And so does `serialLTE`. -/
theorem serialLTE_add (hw : 0 < w) (hmn : m < n + 2 ^ (w - 1)) (hnm : n < m + 2 ^ (w - 1)) :
    serialLTE (a + BitVec.ofNat w m) (a + BitVec.ofNat w n) = decide (m ≤ n) := by
  have hhalf := two_pow_half hw
  rw [Bool.eq_iff_iff, serialLTE_iff hw, ahead_window a (by omega) (by omega), decide_eq_true_eq]
  split <;> omega

/-- A number anywhere in the range against one in the first half. -/
theorem serialGT_add_iff (hw : 0 < w) (hm : m < 2 ^ w) (hn : n < 2 ^ (w - 1)) :
    serialGT (a + BitVec.ofNat w m) (a + BitVec.ofNat w n) = true ↔
      n < m ∧ m ≤ n + 2 ^ (w - 1) := by
  have hhalf := two_pow_half hw
  rw [serialGT_iff hw, ahead_window a (by omega) (by omega)]
  split <;> omega

/-- A number anywhere in the range against the base. -/
theorem serialLTE_base_iff (hw : 0 < w) (hm : m < 2 ^ w) :
    serialLTE (a + BitVec.ofNat w m) a = true ↔ m = 0 ∨ 2 ^ (w - 1) < m := by
  have hhalf := two_pow_half hw
  have hsteps := ahead_window a (m := m) (n := 0) (by omega) (by omega)
  rw [BitVec.add_zero] at hsteps
  rw [serialLTE_iff hw, hsteps]
  split <;> omega

end Window

end PionBridge.Lib
