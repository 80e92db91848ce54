import PionBridge.Dart.Reconnect

/-!
# `PionBridge.Proofs.Dart.Reconnect.Backoff`: the delay before an attempt

`_backoffDelay` forms the power and the product in 64 bits and clamps afterwards. So the delay of
the attempt `n` is the exact `min (baseDelay * 2 ^ n) maxDelay` as long as the product fits. Past
that point the clamp sees the wrapped product: the delay is exact only if the wrapped product still
reaches `maxDelay`.

From the attempt 64 on the product wraps to zero, so the law fails there for every positive
`baseDelay` and `maxDelay`. With one second and thirty seconds, the defaults, it fails at the
attempt 54.
-/

set_option autoImplicit false

namespace PionBridge.Dart

/-! ### Wrapping -/

/-- Wrapping drops a multiple of the modulus. -/
theorem wrap64_eq_sub (n : Int) : ∃ k, wrap64 n = n - 2 ^ 64 * k := by
  refine ⟨(n + 2 ^ 63) / 2 ^ 64, ?_⟩
  show (n + 2 ^ 63) % 2 ^ 64 - 2 ^ 63 = n - 2 ^ 64 * ((n + 2 ^ 63) / 2 ^ 64)
  omega

/-- A factor may be wrapped before the product is. -/
theorem wrap64_mul_wrap64 (a b : Int) : wrap64 (a * wrap64 b) = wrap64 (a * b) := by
  obtain ⟨k, hk⟩ := wrap64_eq_sub b
  have hmul : a * wrap64 b + 2 ^ 63 = a * b + 2 ^ 63 + 2 ^ 64 * (-(a * k)) := by
    rw [hk, Int.mul_sub, Int.mul_left_comm, Int.mul_neg]
    omega
  show (a * wrap64 b + 2 ^ 63) % 2 ^ 64 - 2 ^ 63 = (a * b + 2 ^ 63) % 2 ^ 64 - 2 ^ 63
  rw [hmul, Int.add_mul_emod_self_left]

theorem wrap64_of_lt {n : Int} (hn : 0 ≤ n) (hlt : n < 2 ^ 63) : wrap64 n = n := by
  show (n + 2 ^ 63) % 2 ^ 64 - 2 ^ 63 = n
  omega

theorem wrap64_lt (n : Int) : wrap64 n < 2 ^ 63 := by
  show (n + 2 ^ 63) % 2 ^ 64 - 2 ^ 63 < 2 ^ 63
  omega

theorem wrap64_mul_two_pow_64 (n : Int) : wrap64 (n * 2 ^ 64) = 0 := by
  show (n * 2 ^ 64 + 2 ^ 63) % 2 ^ 64 - 2 ^ 63 = 0
  omega

/-! ### The law -/

namespace ReconnectConfig

variable (cfg : ReconnectConfig)

/-- The delay that the attempt should wait for. -/
def exactDelay (attempt : Nat) : Int := min (cfg.baseDelay * 2 ^ attempt) cfg.maxDelay

/-- The product fits, or the clamp hides that it does not. -/
def ExactAt (attempt : Nat) : Prop :=
  cfg.baseDelay * 2 ^ attempt < 2 ^ 63 ∨ cfg.maxDelay = 0 ∨
    cfg.maxDelay ≤ wrap64 (cfg.baseDelay * 2 ^ attempt)

instance (attempt : Nat) : Decidable (cfg.ExactAt attempt) :=
  inferInstanceAs (Decidable (_ ∨ _ ∨ _))

/-- One wrap of the exact product is what the code computes. -/
theorem backoffDelay_eq (attempt : Nat) : cfg.backoffDelay attempt =
    max 0 (min (wrap64 (cfg.baseDelay * 2 ^ attempt)) cfg.maxDelay) := by
  show max 0 (min (wrap64 (cfg.baseDelay * wrap64 (2 ^ attempt))) cfg.maxDelay) = _
  rw [wrap64_mul_wrap64]

variable {cfg}

theorem product_nonneg (hbase : 0 ≤ cfg.baseDelay) (attempt : Nat) :
    0 ≤ cfg.baseDelay * 2 ^ attempt :=
  Int.mul_nonneg hbase (Int.pow_nonneg (by decide))

theorem le_product (hbase : 0 ≤ cfg.baseDelay) {m n : Nat} (hmn : m ≤ n) :
    cfg.baseDelay * 2 ^ m ≤ cfg.baseDelay * 2 ^ n := by
  have hpow : (2 : Int) ^ m ≤ 2 ^ n := by
    exact_mod_cast Nat.pow_le_pow_right (by decide : 0 < 2) hmn
  exact Int.mul_le_mul_of_nonneg_left hpow hbase

/-- The law holds at an attempt exactly when its product is not spoiled. -/
theorem backoffDelay_eq_iff (hbase : 0 ≤ cfg.baseDelay) (hmax : 0 ≤ cfg.maxDelay) (attempt : Nat) :
    cfg.backoffDelay attempt = cfg.exactDelay attempt ↔ cfg.ExactAt attempt := by
  have hnonneg := product_nonneg hbase attempt
  have hwrap := wrap64_lt (cfg.baseDelay * 2 ^ attempt)
  rw [backoffDelay_eq, exactDelay, ExactAt]
  by_cases hfits : cfg.baseDelay * 2 ^ attempt < 2 ^ 63
  · rw [wrap64_of_lt hnonneg hfits]
    omega
  · -- The wrapped product is below the exact one: only the clamp can make the two agree.
    omega

/-- At the attempt 64 nothing is left of the base delay. -/
theorem exactAt_64 (hbase : 0 ≤ cfg.baseDelay) (hmax : 0 ≤ cfg.maxDelay) :
    cfg.ExactAt 64 ↔ cfg.baseDelay = 0 ∨ cfg.maxDelay = 0 := by
  rw [ExactAt, wrap64_mul_two_pow_64]
  omega

theorem forall_exactAt_iff (hbase : 0 ≤ cfg.baseDelay) (hmax : 0 ≤ cfg.maxDelay) :
    (∀ attempt, cfg.ExactAt attempt) ↔ cfg.baseDelay = 0 ∨ cfg.maxDelay = 0 := by
  refine ⟨fun h => (exactAt_64 hbase hmax).mp (h 64), fun h attempt => ?_⟩
  obtain h | h := h
  · left
    rw [h, Int.zero_mul]
    decide
  · exact .inr (.inl h)

theorem exactDelay_mono (hbase : 0 ≤ cfg.baseDelay) {m n : Nat} (hmn : m ≤ n) :
    cfg.exactDelay m ≤ cfg.exactDelay n := by
  have := le_product hbase hmn
  show min _ _ ≤ min _ _
  omega

theorem exactDelay_pos (hbase : 0 < cfg.baseDelay) (hmax : 0 < cfg.maxDelay) (attempt : Nat) :
    0 < cfg.exactDelay attempt := by
  have : 0 < cfg.baseDelay * 2 ^ attempt := Int.mul_pos hbase (Int.pow_pos (by decide))
  show 0 < min _ _
  omega

/-- The backoff law holds at an attempt exactly when its product fits in 64 bits or the clamp hides
that it does not. Among these attempts the delay never decreases, and it is positive for positive
delays. They are all attempts only if one of the two delays is zero. -/
theorem backoffDelay_law_iff (cfg : ReconnectConfig) (hbase : 0 ≤ cfg.baseDelay)
    (hmax : 0 ≤ cfg.maxDelay) :
    (∀ n, cfg.backoffDelay n = min (cfg.baseDelay * 2 ^ n) cfg.maxDelay ↔ cfg.ExactAt n) ∧
    (∀ m n, m ≤ n → cfg.ExactAt m → cfg.ExactAt n → cfg.backoffDelay m ≤ cfg.backoffDelay n) ∧
    (0 < cfg.baseDelay → 0 < cfg.maxDelay → ∀ n, cfg.ExactAt n → 0 < cfg.backoffDelay n) ∧
    ((∀ n, cfg.ExactAt n) ↔ cfg.baseDelay = 0 ∨ cfg.maxDelay = 0) := by
  have hlaw := backoffDelay_eq_iff hbase hmax
  refine ⟨hlaw, fun m n hmn hm hn => ?_, fun hbase' hmax' n hn => ?_,
    forall_exactAt_iff hbase hmax⟩
  · rw [(hlaw m).mpr hm, (hlaw n).mpr hn]
    exact exactDelay_mono hbase hmn
  · rw [(hlaw n).mpr hn]
    exact exactDelay_pos hbase' hmax' n

/-- The defaults of the constructor, with no bound on the attempts. -/
def defaults : ReconnectConfig :=
  { autoReconnect := true, maxAttempts := none, baseDelay := 1000, maxDelay := 30000 }

/-- With the defaults the law holds up to the attempt 53, and the delay of the attempt 5 is the
bound. -/
theorem backoffDelay_law_default :
    (∀ n ≤ 53, defaults.ExactAt n) ∧ defaults.backoffDelay 5 = 30000 := by
  refine ⟨by decide, ?_⟩
  have h := ((backoffDelay_law_iff defaults (by decide) (by decide)).1 5).mpr (by decide)
  exact h.trans (by decide)

/-- With the defaults the attempt 54 waits for no time at all. -/
theorem backoffDelay_54 : defaults.backoffDelay 54 = 0 ∧
    min (defaults.baseDelay * 2 ^ 54) defaults.maxDelay = 30000 := by decide

end ReconnectConfig

end PionBridge.Dart
