import PionBridge.Lib.Numeral

/-!
# `PionBridge.Lib.Shortest`: the shortest decimal of a binary number

A positive number `mant * 2 ^ exp` of a binary format is nearer to some decimals than every other
number of the format is. These decimals are its rounding interval. `shortest` is the decimal
`d * 10 ^ p` with the largest `p` in the interval, so with the fewest digits, and of those the
nearest to the number.

Everything is computed with natural numbers. For a given `p`, the number, the ends of its interval
and the grid of the multiples of `10 ^ p` are brought to one scale.

The decimal need not be the number. `trunc_shortest` says that its integral part is that of the
number as long as the format has all integers around it, that is, for `exp ≤ 0`.
-/

set_option autoImplicit false

namespace PionBridge.Lib

/-- The number `mant * 2 ^ exp` of a binary format. -/
structure Binary where
  mant : Nat
  exp : Int
  /-- The next smaller number of the format is only half as far away as the next larger one. -/
  low : Bool

namespace Binary

variable (x : Binary) (p : Int)

/-- The scale at which the number is `4 * mant`, if it is not a fraction. -/
def scale : Nat := 2 ^ x.exp.toNat * 10 ^ (-p).toNat

/-- `10 ^ p`. -/
def unit : Nat := 4 * 2 ^ (-x.exp).toNat * 10 ^ p.toNat

/-- The lower end of the rounding interval. -/
def lower : Nat := (if x.low then 4 * x.mant - 1 else 4 * x.mant - 2) * x.scale p

/-- The upper end of the rounding interval. -/
def upper : Nat := (4 * x.mant + 2) * x.scale p

/-- `d * 10 ^ p` is rounded to the number. The ends are, if the number is even. -/
def inside (d : Nat) : Bool :=
  if x.mant % 2 = 0 then x.lower p ≤ d * x.unit p && d * x.unit p ≤ x.upper p
  else x.lower p < d * x.unit p && d * x.unit p < x.upper p

/-- The nearest multiple of `10 ^ p` in the interval. -/
def pick : Option Nat :=
  let value := 4 * x.mant * x.scale p
  let d := value / x.unit p
  match x.inside p d, x.inside p (d + 1) with
  | true, true =>
    if 2 * value < (2 * d + 1) * x.unit p then some d
    else if (2 * d + 1) * x.unit p < 2 * value then some (d + 1)
    else some (if d % 2 = 0 then d else d + 1)
  | true, false => some d
  | false, true => some (d + 1)
  | false, false => none

/-- The first of `n` grids that has a point in the interval, from `10 ^ p` downwards. -/
def search : Nat → Int → Option (Nat × Int)
  | 0, _ => none
  | n + 1, p =>
    match x.pick p with
    | some d => some (d, p)
    | none => search n (p - 1)

/-- The shortest decimal of a number from `2 ^ -1074` to `10 ^ 309`. -/
def shortest : Nat × Int := (x.search 640 308).getD (0, 0)

variable {x p}

/-! ### The search -/

theorem inside_of_pick {d : Nat} (h : x.pick p = some d) : x.inside p d = true := by
  unfold pick at h
  dsimp only at h
  split at h
  · rename_i hdown hup
    split at h
    · cases h
      exact hdown
    split at h
    · cases h
      exact hup
    · cases h
      split
      · exact hdown
      · exact hup
  · rename_i hdown _
    cases h
    exact hdown
  · rename_i _ hup
    cases h
    exact hup
  · cases h

theorem pick_isSome_of_inside (h : x.inside p (4 * x.mant * x.scale p / x.unit p) = true) :
    (x.pick p).isSome = true := by
  unfold pick
  dsimp only
  rw [h]
  split
  · repeat' split
    all_goals rfl
  · rfl
  · rename_i hdown _
    cases hdown
  · rename_i hdown _
    cases hdown

theorem search_spec {n : Nat} {q : Int} {d : Nat} (h : x.search n p = some (d, q)) :
    x.pick q = some d ∧ ∀ r, q < r → r ≤ p → x.pick r = none := by
  induction n generalizing p with
  | zero => cases h
  | succ n ih =>
      unfold search at h
      split at h
      · rename_i d' hpick
        cases h
        exact ⟨hpick, fun r hlo hhi => absurd hlo (by omega)⟩
      · rename_i hpick
        obtain ⟨hq, hnone⟩ := ih h
        refine ⟨hq, fun r hlo hhi => ?_⟩
        by_cases hr : r = p
        · rw [hr]
          exact hpick
        · exact hnone r hlo (by omega)

theorem search_isSome {n : Nat} {q : Int} (hq : (x.pick q).isSome = true) (hlo : p - n < q)
    (hhi : q ≤ p) : (x.search n p).isSome = true := by
  induction n generalizing p with
  | zero => omega
  | succ n ih =>
      unfold search
      split
      · rfl
      · rename_i hnone
        have hne : q ≠ p := by
          rintro rfl
          rw [hnone] at hq
          cases hq
        exact ih (by omega) (by omega)

theorem unit_pos : 0 < x.unit p := by
  exact Nat.mul_pos (Nat.mul_pos (by decide) (Nat.two_pow_pos _)) (Nat.pow_pos (by decide))

theorem scale_pos : 0 < x.scale p := by
  exact Nat.mul_pos (Nat.two_pow_pos _) (Nat.pow_pos (by decide))

/-- A grid that is fine enough has a point in the interval. -/
theorem pick_isSome_of_fine (hx : 0 < x.mant) (h : x.unit p ≤ x.scale p) :
    (x.pick p).isSome = true := by
  refine pick_isSome_of_inside ?_
  have hunit := x.unit_pos (p := p)
  have hdiv := Nat.div_add_mod (4 * x.mant * x.scale p) (x.unit p)
  have hmod := Nat.mod_lt (4 * x.mant * x.scale p) hunit
  -- The point below the number is less than a unit away.
  have hpoint : 4 * x.mant * x.scale p / x.unit p * x.unit p ≤ 4 * x.mant * x.scale p ∧
      4 * x.mant * x.scale p < 4 * x.mant * x.scale p / x.unit p * x.unit p + x.unit p := by
    rw [Nat.mul_comm _ (x.unit p)]
    omega
  have hlower : x.lower p + x.scale p ≤ 4 * x.mant * x.scale p := by
    have hfactor : (if x.low then 4 * x.mant - 1 else 4 * x.mant - 2) + 1 ≤ 4 * x.mant := by
      split <;> omega
    calc x.lower p + x.scale p
        = ((if x.low then 4 * x.mant - 1 else 4 * x.mant - 2) + 1) * x.scale p := by
          unfold lower
          grind
      _ ≤ 4 * x.mant * x.scale p := Nat.mul_le_mul_right _ hfactor
  have hupper : 4 * x.mant * x.scale p < x.upper p :=
    Nat.mul_lt_mul_of_pos_right (by omega) x.scale_pos
  unfold inside
  split <;> simp only [Bool.and_eq_true, decide_eq_true_eq] <;> omega

theorem two_pow_le_ten_pow (n : Nat) {a b : Nat} (ha : a ≤ 98 * n) (hb : 30 * n ≤ b) :
    2 ^ a ≤ 10 ^ b := by
  calc 2 ^ a ≤ 2 ^ (98 * n) := Nat.pow_le_pow_right (by decide) ha
    _ = (2 ^ 98) ^ n := Nat.pow_mul 2 98 n
    _ ≤ (10 ^ 30) ^ n := Nat.pow_le_pow_left (by decide) n
    _ = 10 ^ (30 * n) := (Nat.pow_mul 10 30 n).symm
    _ ≤ 10 ^ b := Nat.pow_le_pow_right (by decide) hb

/-- The search succeeds for all numbers of the range. -/
theorem shortest_spec (hx : 0 < x.mant) (hexp : -1074 ≤ x.exp) :
    x.pick x.shortest.2 = some x.shortest.1 ∧
      ∀ r, x.shortest.2 < r → r ≤ 308 → x.pick r = none := by
  have hfine : x.unit (-330) ≤ x.scale (-330) := by
    calc x.unit (-330) = 2 ^ ((-x.exp).toNat + 2) := by
          simp [unit, Nat.pow_add, Nat.mul_comm]
      _ ≤ 10 ^ (-(-330) : Int).toNat := two_pow_le_ten_pow 11 (by omega) (by decide)
      _ ≤ x.scale (-330) := Nat.le_mul_of_pos_left _ (Nat.two_pow_pos _)
  have hsome : (x.search 640 308).isSome = true :=
    search_isSome (pick_isSome_of_fine hx hfine) (by decide) (by decide)
  obtain ⟨⟨d, q⟩, hsearch⟩ := Option.isSome_iff_exists.mp hsome
  have hshortest : x.shortest = (d, q) := by rw [shortest, hsearch, Option.getD_some]
  rw [hshortest]
  exact search_spec hsearch

/-! ### The integral part -/

theorem bounds_of_inside {d : Nat} (h : x.inside p d = true) :
    (4 * x.mant - 2) * x.scale p ≤ d * x.unit p ∧ d * x.unit p ≤ (4 * x.mant + 2) * x.scale p := by
  have hlower : (4 * x.mant - 2) * x.scale p ≤ x.lower p := by
    refine Nat.mul_le_mul_right _ ?_
    split <;> omega
  unfold inside upper at h
  split at h <;> simp only [Bool.and_eq_true, decide_eq_true_eq] at h <;> omega

/-- A decimal without a fraction is the number itself. -/
theorem exact_of_inside {d : Nat} (hexp : x.exp ≤ 0) (hp : 0 ≤ p) (h : x.inside p d = true) :
    d * 10 ^ p.toNat * 2 ^ (-x.exp).toNat = x.mant := by
  obtain ⟨hlo, hhi⟩ := bounds_of_inside h
  have hscale : x.scale p = 1 := by
    have h1 : x.exp.toNat = 0 := by omega
    have h2 : (-p).toNat = 0 := by omega
    simp [scale, h1, h2]
  have hunit : d * x.unit p = 4 * (d * 10 ^ p.toNat * 2 ^ (-x.exp).toNat) := by
    unfold unit
    grind
  rw [hscale, hunit] at hlo hhi
  omega

/-- An integer is its own decimal. -/
theorem pick_zero_isSome (hexp : x.exp ≤ 0) (hx : 0 < x.mant)
    (hdvd : 2 ^ (-x.exp).toNat ∣ x.mant) : (x.pick 0).isSome = true := by
  obtain ⟨n, hn⟩ := hdvd
  have hscale : x.scale 0 = 1 := by
    have h1 : x.exp.toNat = 0 := by omega
    simp [scale, h1]
  have hunit : x.unit 0 = 4 * 2 ^ (-x.exp).toNat := by simp [unit]
  have hvalue : 4 * x.mant * x.scale 0 = n * x.unit 0 := by
    rw [hscale, hunit, hn]
    grind
  refine pick_isSome_of_inside ?_
  rw [hvalue, Nat.mul_div_cancel _ unit_pos]
  have hpoint : n * x.unit 0 = 4 * x.mant := by rw [← hvalue, hscale, Nat.mul_one]
  have hlower : x.lower 0 < 4 * x.mant := by
    unfold lower
    rw [hscale, Nat.mul_one]
    split <;> omega
  have hupper : 4 * x.mant < x.upper 0 := by
    unfold upper
    rw [hscale]
    omega
  unfold inside
  rw [hpoint]
  split <;> simp only [Bool.and_eq_true, decide_eq_true_eq] <;> omega

/-- A fraction lies between the same integers as its decimal. -/
theorem div_eq_of_inside {d : Nat} (hexp : x.exp ≤ 0) (hp : p < 0)
    (hdvd : ¬ 2 ^ (-x.exp).toNat ∣ x.mant) (h : x.inside p d = true) :
    d / 10 ^ (-p).toNat = x.mant / 2 ^ (-x.exp).toNat := by
  obtain ⟨hlo, hhi⟩ := bounds_of_inside h
  have hscale : x.scale p = 10 ^ (-p).toNat := by
    have h1 : x.exp.toNat = 0 := by omega
    simp [scale, h1]
  have hunit : d * x.unit p = 4 * (d * 2 ^ (-x.exp).toNat) := by
    have h1 : p.toNat = 0 := by omega
    rw [unit, h1]
    grind
  rw [hscale, hunit] at hlo hhi
  have hT : 0 < 10 ^ (-p).toNat := Nat.pow_pos (by decide)
  have hK : 0 < 2 ^ (-x.exp).toNat := Nat.two_pow_pos _
  have hr : 0 < x.mant % 2 ^ (-x.exp).toNat :=
    Nat.pos_of_ne_zero fun h0 => hdvd (Nat.dvd_of_mod_eq_zero h0)
  have hr' := Nat.mod_lt x.mant hK
  have hm := Nat.div_add_mod x.mant (2 ^ (-x.exp).toNat)
  generalize 10 ^ (-p).toNat = T at hlo hhi hT ⊢
  generalize 2 ^ (-x.exp).toNat = K at hlo hhi hK hr hr' hm ⊢
  generalize x.mant / K = n at hm ⊢
  generalize x.mant % K = r at hr hr' hm
  -- The number is at least one unit of the format away from the integers around it.
  refine Nat.div_eq_of_lt_le ?_ ?_
  · have hbelow : 4 * (n * T * K) ≤ 4 * (d * K) := by
      calc 4 * (n * T * K) = 4 * (K * n) * T := by grind
        _ ≤ (4 * x.mant - 2) * T := Nat.mul_le_mul_right _ (by omega)
        _ ≤ 4 * (d * K) := hlo
    have hcancel : n * T * K ≤ d * K := by omega
    exact Nat.le_of_mul_le_mul_right hcancel hK
  · have habove : 4 * (d * K) < 4 * ((n + 1) * T * K) := by
      calc 4 * (d * K) ≤ (4 * x.mant + 2) * T := hhi
        _ < 4 * (K * n + K) * T := Nat.mul_lt_mul_of_pos_right (by omega) hT
        _ = 4 * ((n + 1) * T * K) := by grind
    have hcancel : d * K < (n + 1) * T * K := by omega
    exact Nat.lt_of_mul_lt_mul_right hcancel

/-- The integral part of the shortest decimal is that of the number. -/
theorem trunc_shortest (hx : 0 < x.mant) (hmin : -1074 ≤ x.exp) (hexp : x.exp ≤ 0) :
    x.shortest.1 * 10 ^ x.shortest.2.toNat / 10 ^ (-x.shortest.2).toNat
      = x.mant / 2 ^ (-x.exp).toNat := by
  obtain ⟨hpick, hnone⟩ := shortest_spec hx hmin
  have hinside := inside_of_pick hpick
  by_cases hp : 0 ≤ x.shortest.2
  · have hexact := exact_of_inside hexp hp hinside
    have hneg : (-x.shortest.2).toNat = 0 := by omega
    rw [hneg, Nat.pow_zero, Nat.div_one]
    refine (Nat.div_eq_of_eq_mul_left (Nat.two_pow_pos _) ?_).symm
    exact hexact.symm
  · -- The grid of the integers has no point in the interval, so the number is no integer.
    have hdvd : ¬ 2 ^ (-x.exp).toNat ∣ x.mant := by
      intro hdvd
      have hzero := pick_zero_isSome hexp hx hdvd
      rw [hnone 0 (by omega) (by decide)] at hzero
      cases hzero
    have hpos : x.shortest.2.toNat = 0 := by omega
    rw [hpos, Nat.pow_zero, Nat.mul_one]
    exact div_eq_of_inside hexp (by omega) hdvd hinside

end Binary

/-! ### Floats -/

/-- The number with the bits `bits`, without its sign, in a format with `e` bits for the exponent
and `f` for the fraction. -/
def binaryOf (e f bits : Nat) : Binary where
  mant := if bits / 2 ^ f % 2 ^ e = 0 then bits % 2 ^ f else bits % 2 ^ f + 2 ^ f
  exp := (max (bits / 2 ^ f % 2 ^ e) 1 : Nat) - (2 ^ (e - 1) - 1 + f : Nat)
  low := bits % 2 ^ f = 0 && 1 < bits / 2 ^ f % 2 ^ e

/-- A float as text. There is none for a NaN or an infinity. A number whose bits are below those of
`small` or not below those of `large` has an exponent. -/
def floatNumeral (e f small large bits : Nat) : Option Numeral :=
  let neg := decide (bits / 2 ^ (e + f) % 2 = 1)
  let abs := bits % 2 ^ (e + f)
  if bits / 2 ^ f % 2 ^ e = 2 ^ e - 1 then none
  else if abs = 0 then some (.plain neg 0 0)
  else
    let (d, p) := (binaryOf e f bits).shortest
    some (if abs < small ∨ large ≤ abs then .scientific neg d p else .plain neg d p)

theorem mant_binaryOf_eq_zero_iff (e f bits : Nat) :
    (binaryOf e f bits).mant = 0 ↔ bits % 2 ^ (e + f) = 0 := by
  have hpos : 0 < 2 ^ f := Nat.two_pow_pos f
  rw [Nat.add_comm, Nat.pow_add, Nat.mod_mul]
  show (if bits / 2 ^ f % 2 ^ e = 0 then bits % 2 ^ f else bits % 2 ^ f + 2 ^ f) = 0 ↔ _
  split
  · rename_i hexp
    rw [hexp, Nat.mul_zero, Nat.add_zero]
  · rename_i hexp
    have hmul := Nat.mul_pos hpos (Nat.pos_of_ne_zero hexp)
    omega

/-- A float with the point inside of its mantissa or right after it has a text with the same sign
and the same integral part. -/
theorem trunc_floatNumeral {e f small large bits : Nat} {n : Numeral}
    (h : floatNumeral e f small large bits = some n) (hmin : -1074 ≤ (binaryOf e f bits).exp)
    (hexp : (binaryOf e f bits).exp ≤ 0) :
    n.neg = decide (bits / 2 ^ (e + f) % 2 = 1) ∧
      n.magnitude = (binaryOf e f bits).mant / 2 ^ (-(binaryOf e f bits).exp).toNat := by
  unfold floatNumeral at h
  simp only at h
  split at h
  · cases h
  · split at h
    · rename_i hzero
      cases h
      rw [(mant_binaryOf_eq_zero_iff e f bits).mpr hzero, Numeral.magnitude_plain, Nat.zero_div]
      exact ⟨Numeral.neg_plain _ _ _, by simp⟩
    · rename_i hzero
      have hmant : 0 < (binaryOf e f bits).mant :=
        Nat.pos_of_ne_zero fun hm => hzero ((mant_binaryOf_eq_zero_iff e f bits).mp hm)
      rw [← Binary.trunc_shortest hmant hmin hexp]
      cases h
      -- The form of the text makes no difference to the value.
      split
      · exact ⟨rfl, Numeral.magnitude_scientific _ _ _⟩
      · exact ⟨Numeral.neg_plain _ _ _, Numeral.magnitude_plain _ _ _⟩

end PionBridge.Lib
