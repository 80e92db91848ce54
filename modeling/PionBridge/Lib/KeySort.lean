import Mathlib.Algebra.GroupWithZero.Nat
import Mathlib.Data.List.Nodup
import Mathlib.Data.List.Pairwise
import Mathlib.Data.List.Sort

/-!
# `PionBridge.Lib.KeySort`: lists sorted by a key

A list of images of numbered things, sorted by a comparison of the images that agrees with the
numbers on the things in the list, though it need not be an order on all images
(`insertionSort_map_eq`). One more thing is added to a selection (`filter_insert_perm`), or one of
the images is replaced where a search finds it (`set_findIdx_map`). In a sum over the list one term
changes (`sum_map_update`).
-/

set_option autoImplicit false

namespace PionBridge.Lib

variable {α β : Type}

/-- Sorting the images gives the images in the order of their keys. -/
theorem insertionSort_map_eq (f : α → β) (key : α → Nat) (r : β → β → Prop) [DecidableRel r]
    {l l' : List α} (hperm : l'.Perm l) (hsorted : l'.Pairwise fun a b => key a < key b)
    (hr : ∀ a ∈ l, ∀ b ∈ l, (key a ≤ key b ↔ r (f a) (f b))) :
    (l.map f).insertionSort r = l'.map f := by
  -- the keys of the sorted list are distinct, so those of the given one are
  have hinj : ∀ a b, a ∈ l → b ∈ l' → key a ≤ key b → key b ≤ key a → a = b := by
    intro a b ha hb hab hba
    have ha' := hperm.mem_iff.mpr ha
    by_contra hne
    have hsymm : Std.Symm fun a b : α => key a ≠ key b := ⟨fun _ _ h => Ne.symm h⟩
    have hne' : l'.Pairwise fun a b => key a ≠ key b := hsorted.imp fun h => Nat.ne_of_lt h
    exact hne'.forall ha' hb hne (Nat.le_antisymm hab hba)
  have hsort : l.insertionSort (fun a b => key a ≤ key b) = l' := by
    have htotal : Std.Total (fun a b : α => key a ≤ key b) := ⟨fun a b => Nat.le_total _ _⟩
    have htrans : IsTrans α (fun a b => key a ≤ key b) := ⟨fun _ _ _ => Nat.le_trans⟩
    have hle : l'.Pairwise fun a b => key a ≤ key b := hsorted.imp fun h => Nat.le_of_lt h
    refine List.Perm.eq_of_pairwise ?_ (List.pairwise_insertionSort _ l) hle
      ((List.perm_insertionSort _ _).trans hperm.symm)
    intro a b ha hb
    exact hinj a b ((List.perm_insertionSort _ _).mem_iff.mp ha) hb
  rw [← List.map_insertionSort (fun a b => key a ≤ key b) r f l hr, hsort]

/-- The selection with one more of the list. -/
theorem filter_insert_perm {l : List α} {p p' : α → Bool} {m : α} (hl : l.Nodup) (hm : m ∈ l)
    (hnot : p m = false) (hp : ∀ x ∈ l, p' x = true ↔ p x = true ∨ x = m) :
    (l.filter p').Perm (l.filter p ++ [m]) := by
  have hout : m ∉ l.filter p := by
    simp [List.mem_filter, hnot]
  rw [List.perm_ext_iff_of_nodup (hl.filter _)
    (List.nodup_append.mpr ⟨hl.filter _, List.nodup_singleton _, by
      intro a ha b hb heq
      rw [List.mem_singleton] at hb
      exact hout (hb ▸ heq ▸ ha)⟩)]
  intro a
  simp only [List.mem_filter, List.mem_append, List.mem_singleton]
  constructor
  · rintro ⟨ha, hpa⟩
    rcases (hp a ha).mp hpa with hold | heq
    · exact .inl ⟨ha, hold⟩
    · exact .inr heq
  · rintro (⟨ha, hold⟩ | heq)
    · exact ⟨ha, (hp a ha).mpr (.inl hold)⟩
    · subst heq
      exact ⟨hm, (hp a hm).mpr (.inr rfl)⟩

/-- The image of `m` is found and replaced. -/
theorem set_findIdx_map {l : List α} {f g : α → β} {p : β → Bool} {m : α} (hl : l.Nodup)
    (hm : m ∈ l) (hp : ∀ x ∈ l, p (f x) = true ↔ x = m) (hf : ∀ x ∈ l, x ≠ m → g x = f x) :
    ∃ i, (l.map f).findIdx? p = some i ∧ (l.map f)[i]? = some (f m) ∧
      (l.map f).set i (g m) = l.map g := by
  induction l with
  | nil => simp at hm
  | cons x xs ih =>
      rw [List.nodup_cons] at hl
      by_cases hx : x = m
      · subst hx
        have hpx : p (f x) = true := (hp x (by simp)).mpr rfl
        have hrest : xs.map g = xs.map f := by
          apply List.map_congr_left
          intro y hy
          exact hf y (by simp [hy]) fun heq => hl.1 (heq ▸ hy)
        exact ⟨0, by simp [List.findIdx?_cons, hpx], by simp, by simp [hrest]⟩
      · have hpx : p (f x) = false := by
          rw [← Bool.not_eq_true]
          exact fun h => hx ((hp x (by simp)).mp h)
        have hmem : m ∈ xs := by
          rcases List.mem_cons.mp hm with heq | hmem
          · exact absurd heq.symm hx
          · exact hmem
        obtain ⟨i, hfind, hget, hset⟩ := ih hl.2 hmem (fun y hy => hp y (by simp [hy]))
          fun y hy => hf y (by simp [hy])
        refine ⟨i + 1, ?_, ?_, ?_⟩
        · simp [List.findIdx?_cons, hpx, hfind]
        · simpa using hget
        · simp [hset, hf x (by simp) hx]

/-- A sum in which one term changes. -/
theorem sum_map_update {l : List α} {f g : α → Nat} {m : α} (hl : l.Nodup) (hm : m ∈ l)
    (hfg : ∀ x ∈ l, x ≠ m → g x = f x) : (l.map g).sum + f m = (l.map f).sum + g m := by
  induction l with
  | nil => simp at hm
  | cons x xs ih =>
      rw [List.nodup_cons] at hl
      rw [List.map_cons, List.map_cons, List.sum_cons, List.sum_cons]
      by_cases hx : x = m
      · subst hx
        have hrest : xs.map g = xs.map f := by
          apply List.map_congr_left
          intro y hy
          exact hfg y (by simp [hy]) fun heq => hl.1 (heq ▸ hy)
        rw [hrest]
        omega
      · have hmem : m ∈ xs := by
          rcases List.mem_cons.mp hm with heq | hmem
          · exact absurd heq.symm hx
          · exact hmem
        have hih := ih hl.2 hmem fun y hy => hfg y (by simp [hy])
        have hxe := hfg x (by simp) hx
        omega

end PionBridge.Lib
