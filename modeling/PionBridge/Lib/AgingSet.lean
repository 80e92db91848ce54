import Mathlib.Data.Finset.Card
import Mathlib.Data.Finset.Dedup
import Mathlib.Data.List.Nodup

/-!
# `PionBridge.Lib.AgingSet`: a set in the order of insertion, with a cap

A set is a list without repetition, the oldest element first. `remember` adds an element at the end,
unless it is there already, and drops the oldest one when the cap is passed. An element may also be
removed from the middle.

An element is dropped only after `cap` others were added since it was: whatever stands behind it
was added later (`Young`), and at the time it is dropped there are `cap` elements behind it
(`Young.remember`). Removals from the middle take elements away from behind it (`Young.erase`), and
adding an element again does not move it.
-/

set_option autoImplicit false

namespace PionBridge.Lib

variable {α : Type} {cap : Nat} {l : List α} {x y : α} {since : Finset α}

section
variable [DecidableEq α]

/-- Adds an element at the end, unless it is there. -/
def adjoin (l : List α) (x : α) : List α := if x ∈ l then l else l ++ [x]

/-- Adds an element, and drops the oldest one when there are more than `cap`. -/
def remember (cap : Nat) (l : List α) (x : α) : List α :=
  if cap < (adjoin l x).length then (adjoin l x).tail else adjoin l x

/-- The element, if it is new. -/
def newly (l : List α) (x : α) : List α := if x ∈ l then [] else [x]

theorem remember_of_mem (hlen : l.length ≤ cap) (hx : x ∈ l) : remember cap l x = l := by
  rw [remember, adjoin, if_pos hx]
  exact if_neg (Nat.not_lt.mpr hlen)

theorem remember_of_not_mem (hx : x ∉ l) : remember cap l x =
    if cap < l.length + 1 then (l ++ [x]).tail else l ++ [x] := by
  rw [remember, adjoin, if_neg hx, List.length_append, List.length_singleton]

omit [DecidableEq α] in
theorem nodup_append_singleton (hnodup : l.Nodup) (hx : x ∉ l) : (l ++ [x]).Nodup :=
  List.Nodup.append hnodup (List.nodup_singleton x) (by simpa using hx)

theorem nodup_remember (hnodup : l.Nodup) (hlen : l.length ≤ cap) (x : α) :
    (remember cap l x).Nodup := by
  by_cases hx : x ∈ l
  · rw [remember_of_mem hlen hx]
    exact hnodup
  · rw [remember_of_not_mem hx]
    split
    · exact (nodup_append_singleton hnodup hx).tail
    · exact nodup_append_singleton hnodup hx

theorem length_remember (hlen : l.length ≤ cap) (x : α) : (remember cap l x).length ≤ cap := by
  by_cases hx : x ∈ l
  · rw [remember_of_mem hlen hx]
    exact hlen
  · rw [remember_of_not_mem hx]
    split
    · rw [List.length_tail, List.length_append, List.length_singleton]
      omega
    · rw [List.length_append, List.length_singleton]
      omega

theorem mem_of_mem_remember (hy : y ∈ remember cap l x) : y ∈ l ∨ y = x := by
  have hadded : y ∈ adjoin l x := by
    unfold remember at hy
    split at hy
    · exact List.mem_of_mem_tail hy
    · exact hy
  unfold adjoin at hadded
  split at hadded
  · exact .inl hadded
  · simpa using hadded

end

/-! ### How long an element stays -/

/-- The element is there, and what stands behind it was added `since`. -/
def Young (l : List α) (x : α) (since : Finset α) : Prop :=
  ∃ before after, l = before ++ x :: after ∧ ∀ y ∈ after, y ∈ since

theorem Young.mem (h : Young l x since) : x ∈ l := by
  obtain ⟨before, after, rfl, -⟩ := h
  exact List.mem_append_right _ List.mem_cons_self

variable [DecidableEq α]

/-- A new element is the youngest. -/
theorem young_remember (hcap : 0 < cap) (hx : x ∉ l) : Young (remember cap l x) x ∅ := by
  rw [remember_of_not_mem hx]
  split
  · rename_i hfull
    cases l with
    | nil =>
        rw [List.length_nil] at hfull
        omega
    | cons z rest => exact ⟨rest, [], rfl, by simp⟩
  · exact ⟨l, [], rfl, by simp⟩

/-- Another element is removed. -/
theorem Young.erase (h : Young l x since) (hne : y ≠ x) : Young (l.erase y) x since := by
  obtain ⟨before, after, rfl, hafter⟩ := h
  by_cases hy : y ∈ before
  · exact ⟨before.erase y, after, List.erase_append_left _ hy, hafter⟩
  · refine ⟨before, after.erase y, ?_, fun z hz => hafter z (List.mem_of_mem_erase hz)⟩
    rw [List.erase_append_right _ hy, List.erase_cons_tail (by simpa using Ne.symm hne)]

/-- An element is added while fewer than `cap` others were added since `x` was: `x` stays. -/
theorem Young.remember (h : Young l x since) (hnodup : l.Nodup) (hlen : l.length ≤ cap)
    (hfew : ((since ∪ (newly l y).toFinset).erase x).card < cap) :
    Young (remember cap l y) x (since ∪ (newly l y).toFinset) := by
  obtain ⟨before, after, rfl, hafter⟩ := h
  by_cases hy : y ∈ before ++ x :: after
  · rw [remember_of_mem hlen hy]
    exact ⟨before, after, rfl, fun z hz => Finset.mem_union_left _ (hafter z hz)⟩
  · have hnew : (newly (before ++ x :: after) y).toFinset = {y} := by simp [newly, hy]
    rw [hnew] at hfew ⊢
    have hbehind : ∀ z ∈ after ++ [y], z ∈ since ∪ {y} := by
      intro z hz
      obtain hz | hz := List.mem_append.mp hz
      · exact Finset.mem_union_left _ (hafter z hz)
      · exact Finset.mem_union_right _ (by simpa using hz)
    rw [remember_of_not_mem hy]
    split
    · rename_i hfull
      cases before with
      | cons b rest => exact ⟨rest, after ++ [y], by simp, hbehind⟩
      | nil =>
          -- `x` is the oldest, so everything else was added since it was, and is not `x`.
          have hlist : (x :: (after ++ [y])).Nodup := by
            simpa using nodup_append_singleton hnodup hy
          obtain ⟨hx, hrest⟩ := List.nodup_cons.mp hlist
          have hsub : (after ++ [y]).toFinset ⊆ (since ∪ {y}).erase x := by
            intro z hz
            have hz := List.mem_toFinset.mp hz
            exact Finset.mem_erase.mpr ⟨fun heq => hx (heq ▸ hz), hbehind z hz⟩
          have hcard := Finset.card_le_card hsub
          rw [List.toFinset_card_of_nodup hrest, List.length_append, List.length_singleton] at hcard
          rw [List.nil_append, List.length_cons] at hfull
          omega
    · exact ⟨before, after ++ [y], by simp, hbehind⟩

end PionBridge.Lib
