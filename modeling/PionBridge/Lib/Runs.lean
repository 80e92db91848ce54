import Mathlib.Data.List.Basic

/-!
# `PionBridge.Lib.Runs`: the maximal runs of a set of numbers

`runs S lo n` lists the maximal runs of numbers in `S` among the `n` numbers from `lo` on, each with
its first and its last number. It is found one number at a time. A program that moves in larger
steps is compared with it by two rules: `runs_skip` passes over numbers outside `S`, and
`runs_block` takes a whole run.

`covered_runs` says which numbers lie in one of the runs, and `separated_runs` that the runs go up
and leave out a number between two of them.
-/

set_option autoImplicit false

namespace PionBridge.Lib

/-- A run that begins at `lo` put in front of the runs behind it. -/
def joinRun (lo : Nat) : List (Nat × Nat) → List (Nat × Nat)
  | [] => [(lo, lo)]
  | (s, e) :: rest => if s = lo + 1 then (lo, e) :: rest else (lo, lo) :: (s, e) :: rest

/-- The maximal runs of `S` among `lo, ..., lo + n - 1`. -/
def runs (S : Nat → Bool) : Nat → Nat → List (Nat × Nat)
  | _, 0 => []
  | lo, n + 1 => if S lo then joinRun lo (runs S (lo + 1) n) else runs S (lo + 1) n

/-- The number lies in one of the runs. -/
def Covered (blocks : List (Nat × Nat)) (d : Nat) : Prop := ∃ b ∈ blocks, b.1 ≤ d ∧ d ≤ b.2

/-- The runs go up from `lo` on, with a number between one and the next. -/
def Separated : Nat → List (Nat × Nat) → Prop
  | _, [] => True
  | lo, (s, e) :: rest => lo ≤ s ∧ s ≤ e ∧ Separated (e + 2) rest

theorem Separated.mono {lo lo' : Nat} {blocks : List (Nat × Nat)} (h : Separated lo blocks)
    (hle : lo' ≤ lo) : Separated lo' blocks := by
  cases blocks with
  | nil => trivial
  | cons b rest => exact ⟨Nat.le_trans hle h.1, h.2⟩

theorem Separated.take {lo : Nat} {blocks : List (Nat × Nat)} (h : Separated lo blocks) (n : Nat) :
    Separated lo (blocks.take n) := by
  induction blocks generalizing lo n with
  | nil => simp [Separated]
  | cons b rest ih =>
      cases n with
      | zero => trivial
      | succ n => exact ⟨h.1, h.2.1, ih h.2.2 n⟩

theorem covered_cons {b : Nat × Nat} {rest : List (Nat × Nat)} {d : Nat} :
    Covered (b :: rest) d ↔ (b.1 ≤ d ∧ d ≤ b.2) ∨ Covered rest d := by
  simp [Covered]

theorem Covered.of_take {blocks : List (Nat × Nat)} {n d : Nat} (h : Covered (blocks.take n) d) :
    Covered blocks d := by
  obtain ⟨b, hb, hd⟩ := h
  exact ⟨b, List.mem_of_mem_take hb, hd⟩

variable {S : Nat → Bool}

/-- Numbers outside the set are passed over. -/
theorem runs_skip {lo n i : Nat} (hi : i ≤ n) (hS : ∀ k < i, S (lo + k) = false) :
    runs S lo n = runs S (lo + i) (n - i) := by
  induction i generalizing lo n with
  | zero => simp
  | succ i ih =>
      obtain ⟨m, rfl⟩ : ∃ m, n = m + 1 := ⟨n - 1, by omega⟩
      have h0 : S lo = false := hS 0 (by omega)
      have hrest := @ih (lo + 1) m (by omega) fun k hk => by
        rw [show lo + 1 + k = lo + (k + 1) by omega]
        exact hS (k + 1) (by omega)
      rw [runs, h0, if_neg (by simp), hrest]
      congr 1 <;> omega

/-- The runs from a number outside the set on do not begin with it. -/
theorem joinRun_of_false {lo n : Nat} (h : n = 0 ∨ S (lo + 1) = false) :
    joinRun lo (runs S (lo + 1) n) = (lo, lo) :: runs S (lo + 1) n := by
  have hfirst : ∀ b ∈ (runs S (lo + 1) n).head?, b.1 ≠ lo + 1 := by
    rcases h with hn | hS
    · subst hn
      simp [runs]
    · cases n with
      | zero => simp [runs]
      | succ n =>
          rw [runs, hS, if_neg (by simp)]
          intro b hb heq
          have := first_le n (lo + 2) b hb
          omega
  cases hr : runs S (lo + 1) n with
  | nil => rfl
  | cons b rest =>
      rw [hr] at hfirst
      have hne := hfirst b (by simp)
      simp [joinRun, hne]
where
  /-- The runs begin at or behind the first number. -/
  first_le (n lo : Nat) : ∀ b ∈ (runs S lo n).head?, lo ≤ b.1 := by
    induction n generalizing lo with
    | zero => simp [runs]
    | succ n ih =>
        intro b hb
        rw [runs] at hb
        split at hb
        · cases hr : runs S (lo + 1) n with
          | nil =>
              rw [hr] at hb
              simp [joinRun] at hb
              simp [← hb]
          | cons c rest =>
              obtain ⟨s, e⟩ := c
              rw [hr] at hb
              simp only [joinRun] at hb
              split at hb
              · simp at hb
                simp [← hb]
              · simp at hb
                simp [← hb]
        · have := ih (lo + 1) b hb
          omega

/-- A whole run: all numbers up to `lo + i` are in the set and the next one is not. -/
theorem runs_block {lo n i : Nat} (hi : i < n) (hS : ∀ k ≤ i, S (lo + k) = true)
    (hend : i + 1 = n ∨ S (lo + i + 1) = false) :
    runs S lo n = (lo, lo + i) :: runs S (lo + i + 1) (n - i - 1) := by
  induction i generalizing lo n with
  | zero =>
      obtain ⟨m, rfl⟩ : ∃ m, n = m + 1 := ⟨n - 1, by omega⟩
      have h0 : S lo = true := hS 0 (by omega)
      rw [runs, h0, if_pos rfl, joinRun_of_false]
      · simp
      · rcases hend with hend | hend
        · exact .inl (by omega)
        · exact .inr hend
  | succ i ih =>
      obtain ⟨m, rfl⟩ : ∃ m, n = m + 1 := ⟨n - 1, by omega⟩
      have h0 : S lo = true := hS 0 (by omega)
      have hrest := @ih (lo + 1) m (by omega)
        (fun k hk => by
          rw [show lo + 1 + k = lo + (k + 1) by omega]
          exact hS (k + 1) (by omega))
        (by
          rw [show lo + 1 + i + 1 = lo + (i + 1) + 1 by omega]
          rcases hend with hend | hend
          · exact .inl (by omega)
          · exact .inr hend)
      rw [runs, h0, if_pos rfl, hrest]
      simp only [joinRun, if_true]
      rw [show lo + 1 + i = lo + (i + 1) by omega, show m + 1 - (i + 1) - 1 = m - i - 1 by omega]

theorem covered_joinRun {lo d : Nat} {blocks : List (Nat × Nat)} (h : Separated (lo + 1) blocks) :
    Covered (joinRun lo blocks) d ↔ d = lo ∨ Covered blocks d := by
  cases blocks with
  | nil =>
      simp [joinRun, Covered]
      omega
  | cons b rest =>
      obtain ⟨s, e⟩ := b
      have hle : lo + 1 ≤ s := h.1
      have hse : s ≤ e := h.2.1
      by_cases hrest : Covered rest d
      · simp only [joinRun]
        split
        · simp [covered_cons, hrest]
        · simp [covered_cons, hrest]
      · simp only [joinRun]
        split
        · simp only [covered_cons, hrest, or_false]
          omega
        · simp only [covered_cons, hrest, or_false]
          omega

theorem separated_joinRun {lo : Nat} {blocks : List (Nat × Nat)} (h : Separated (lo + 1) blocks) :
    Separated lo (joinRun lo blocks) := by
  cases blocks with
  | nil => exact ⟨Nat.le_refl _, Nat.le_refl _, trivial⟩
  | cons b rest =>
      obtain ⟨s, e⟩ := b
      have hle : lo + 1 ≤ s := h.1
      have hse : s ≤ e := h.2.1
      simp only [joinRun]
      split
      · exact ⟨Nat.le_refl _, by omega, h.2.2⟩
      · exact ⟨Nat.le_refl _, Nat.le_refl _, by omega, hse, h.2.2⟩

/-- The runs are separated. -/
theorem separated_runs (lo n : Nat) : Separated lo (runs S lo n) := by
  induction n generalizing lo with
  | zero => trivial
  | succ n ih =>
      rw [runs]
      split
      · exact separated_joinRun (ih (lo + 1))
      · exact (ih (lo + 1)).mono (by omega)

/-- The runs cover the numbers of the set. -/
theorem covered_runs {lo n d : Nat} :
    Covered (runs S lo n) d ↔ lo ≤ d ∧ d < lo + n ∧ S d = true := by
  induction n generalizing lo with
  | zero =>
      simp [runs, Covered]
      omega
  | succ n ih =>
      -- the first number apart, the others by the induction
      have hrange : (lo + 1 ≤ d ∧ d < lo + 1 + n ∧ S d = true) ↔
          d ≠ lo ∧ lo ≤ d ∧ d < lo + (n + 1) ∧ S d = true := by
        constructor
        · rintro ⟨hlo, hhi, hS⟩
          exact ⟨by omega, by omega, by omega, hS⟩
        · rintro ⟨hne, hlo, hhi, hS⟩
          exact ⟨by omega, by omega, hS⟩
      rw [runs]
      split
      · rename_i hS
        rw [covered_joinRun (separated_runs _ _), ih, hrange]
        by_cases hd : d = lo
        · subst hd
          simp [hS]
        · simp [hd]
      · rename_i hS
        rw [ih, hrange]
        by_cases hd : d = lo
        · subst hd
          simp [hS]
        · simp [hd]

end PionBridge.Lib
