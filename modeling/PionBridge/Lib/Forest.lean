import Mathlib.Data.Finset.Card
import Mathlib.Data.List.Nodup
import Mathlib.Logic.Relation

/-!
# `PionBridge.Lib.Forest`: parent pointers without a cycle

A partial function `f : α → Option α` sends a node to its parent. `Anc f a x` says that `a`
is `x` or above it, and `Above f a x` that it is strictly above. Each node has at most one
parent, so the nodes above `x` form a chain (`Anc.total`), and the end of that chain is
unique (`Root.unique`).

When finitely many nodes have a parent and no node is above itself, both directions are
measured by a natural number: `exists_depth` falls along a step up, and `exists_height`
falls along a step down. A loop that follows parents and a recursion that follows children
end for these reasons.
-/

set_option autoImplicit false

namespace PionBridge.Lib.Forest

open Relation

variable {α : Type} {f g : α → Option α} {a b c p x y : α}

/-- `p` is the parent of `x`. -/
def Up (f : α → Option α) (x p : α) : Prop := f x = some p

/-- `a` is `x` or above it. -/
def Anc (f : α → Option α) (a x : α) : Prop := ReflTransGen (Up f) x a

/-- `a` is strictly above `x`. -/
def Above (f : α → Option α) (a x : α) : Prop := TransGen (Up f) x a

/-- No node is above itself. -/
def Acyclic (f : α → Option α) : Prop := ∀ x, ¬ Above f x x

/-- `r` is the end of the chain of parents that starts at `x`. -/
def Root (f : α → Option α) (r x : α) : Prop := Anc f r x ∧ f r = none

theorem Anc.refl (x : α) : Anc f x x := ReflTransGen.refl

theorem Anc.trans (h : Anc f a b) (h' : Anc f b c) : Anc f a c := ReflTransGen.trans h' h

theorem Anc.of_parent (h : f x = some p) : Anc f p x := ReflTransGen.single h

theorem Above.anc (h : Above f a x) : Anc f a x := TransGen.to_reflTransGen h

theorem Above.trans_anc (h : Above f a b) (h' : Anc f b c) : Above f a c :=
  TransGen.trans_right h' h

theorem Above.of_parent (h : f x = some p) : Above f p x := TransGen.single h

/-- A node that is `x` or above is `x`, or is the parent of `x` or above it. -/
theorem anc_iff : Anc f a x ↔ a = x ∨ ∃ p, f x = some p ∧ Anc f a p := by
  constructor
  · intro h
    rcases ReflTransGen.cases_head h with h | ⟨p, hp, h⟩
    · exact Or.inl h.symm
    · exact Or.inr ⟨p, hp, h⟩
  · rintro (rfl | ⟨p, hp, h⟩)
    · exact Anc.refl a
    · exact ReflTransGen.head hp h

/-- Strictly above `x` is the parent of `x` or above that. -/
theorem above_iff : Above f a x ↔ ∃ p, f x = some p ∧ Anc f a p := by
  constructor
  · intro h
    obtain ⟨p, hp, h⟩ := TransGen.head'_iff.mp h
    exact ⟨p, hp, h⟩
  · rintro ⟨p, hp, h⟩
    exact TransGen.head'_iff.mpr ⟨p, hp, h⟩

theorem Anc.eq_or_above (h : Anc f a x) : a = x ∨ Above f a x := by
  rcases anc_iff.mp h with h | h
  · exact Or.inl h
  · exact Or.inr (above_iff.mpr h)

/-- Only the node itself is above a node without a parent. -/
theorem Anc.eq_of_none (h : Anc f a x) (hx : f x = none) : a = x := by
  rcases anc_iff.mp h with h | ⟨p, hp, -⟩
  · exact h
  · rw [hx] at hp
    cases hp

/-- One level down: `x` is above `y` exactly when a child of `x` is `y` or above it. -/
theorem above_iff_child : Above f x y ↔ ∃ c, f c = some x ∧ Anc f c y := by
  constructor
  · intro h
    obtain ⟨c, hyc, hc⟩ := TransGen.tail'_iff.mp h
    exact ⟨c, hc, hyc⟩
  · rintro ⟨c, hc, hyc⟩
    exact TransGen.tail'_iff.mpr ⟨c, hyc, hc⟩

/-- Parents are unique, so two nodes above the same node are comparable. -/
theorem Anc.total (ha : Anc f a x) (hb : Anc f b x) : Anc f a b ∨ Anc f b a := by
  have huniq : Relator.RightUnique (Up f) := by
    intro x p q hp hq
    exact Option.some.inj (hp.symm.trans hq)
  rcases ReflTransGen.total_of_right_unique huniq ha hb with h | h
  · exact Or.inr h
  · exact Or.inl h

/-- The end of the chain above a node is unique. -/
theorem Root.unique (ha : Root f a x) (hb : Root f b x) : a = b := by
  rcases ha.1.total hb.1 with h | h
  · exact h.eq_of_none hb.2
  · exact (h.eq_of_none ha.2).symm

/-- Nodes on one chain have the same end. -/
theorem Root.of_anc (hr : Root f a x) (h : Anc f y x) : Root f a y := by
  rcases hr.1.total h with h' | h'
  · exact ⟨h', hr.2⟩
  · have hy : y = a := h'.eq_of_none hr.2
    exact ⟨hy ▸ Anc.refl y, hr.2⟩

theorem Root.trans_anc (hr : Root f a y) (h : Anc f y x) : Root f a x := ⟨hr.1.trans h, hr.2⟩

/-! ### Fewer parents, and one parent more -/

/-- The chain of `x` depends only on the parents of its own nodes. -/
theorem Anc.congr (h : ∀ y, Anc f y x → g y = f y) : Anc g a x ↔ Anc f a x := by
  constructor
  · intro ha
    induction ha with
    | refl => exact Anc.refl x
    | tail _ hstep ih => exact ReflTransGen.tail ih ((h _ ih).symm.trans hstep)
  · intro ha
    induction ha with
    | refl => exact Anc.refl x
    | tail hx hstep ih => exact ReflTransGen.tail ih ((h _ hx).trans hstep)

theorem Root.congr (h : ∀ y, Anc f y x → g y = f y) : Root g a x ↔ Root f a x := by
  unfold Root
  rw [Anc.congr h]
  constructor
  · rintro ⟨ha, hend⟩
    exact ⟨ha, (h a ha).symm.trans hend⟩
  · rintro ⟨ha, hend⟩
    exact ⟨ha, (h a ha).trans hend⟩

/-- Dropping parents drops ancestors. -/
theorem Above.mono (hfg : ∀ x p, f x = some p → g x = some p) (h : Above f a x) :
    Above g a x := by
  have hle : Up f ≤ Up g := hfg
  exact TransGen.mono hle x a h

theorem Acyclic.mono (hg : Acyclic g) (hfg : ∀ x p, f x = some p → g x = some p) :
    Acyclic f :=
  fun x h => hg x (h.mono hfg)

/-- A new node `x` under `p` closes no cycle when no node has `x` as its parent. -/
theorem Acyclic.add (hf : Acyclic f) (hgx : g x = some p)
    (hg : ∀ y, y ≠ x → g y = f y) (hnew : ∀ y, f y ≠ some x) (hxp : x ≠ p) : Acyclic g := by
  -- No parent pointer of `g` leads into `x`, so no chain passes through it.
  have hin : ∀ y, g y ≠ some x := by
    intro y hy
    by_cases hyx : y = x
    · rw [hyx, hgx] at hy
      exact hxp (Option.some.inj hy).symm
    · rw [hg y hyx] at hy
      exact hnew y hy
  intro y h
  by_cases hyx : y = x
  · subst hyx
    obtain ⟨c, -, hc⟩ := TransGen.tail'_iff.mp h
    exact hin c hc
  · -- A chain that starts away from `x` never enters it, so it is a chain of `f`.
    have key : ∀ z, Above g z y → Above f z y ∧ z ≠ x := by
      intro z hz
      induction hz with
      | single hz => exact ⟨TransGen.single (by rw [Up, ← hg y hyx]; exact hz),
          fun h => hin y (h ▸ hz)⟩
      | @tail b c _ hbc ih =>
          exact ⟨TransGen.tail ih.1 (by rw [Up, ← hg b ih.2]; exact hbc),
            fun h => hin b (h ▸ hbc)⟩
    exact hf y (key y h).1

/-! ### The two measures -/

open Classical in
/-- A number that falls along every step up, bounded by the number of nodes with a
parent: how many such nodes lie on the chain. -/
theorem exists_depth (K : Finset α) (hK : ∀ x p, f x = some p → x ∈ K) (hf : Acyclic f) :
    ∃ d : α → Nat, (∀ x p, f x = some p → d p < d x) ∧ ∀ x, d x ≤ K.card := by
  refine ⟨fun x => (K.filter fun y => Anc f y x).card, ?_, fun x => Finset.card_filter_le _ _⟩
  intro x p hp
  apply Finset.card_lt_card
  rw [Finset.ssubset_iff_of_subset]
  · -- `x` counts for itself and not for its parent, which it is not above.
    refine ⟨x, Finset.mem_filter.mpr ⟨hK x p hp, Anc.refl x⟩, ?_⟩
    intro hx
    exact hf p ((Above.of_parent hp).trans_anc (Finset.mem_filter.mp hx).2)
  · intro y hy
    rw [Finset.mem_filter] at hy ⊢
    exact ⟨hy.1, hy.2.trans (Anc.of_parent hp)⟩

open Classical in
/-- A number that falls along every step down, bounded by the number of nodes with a
parent: how many nodes lie strictly below. -/
theorem exists_height (K : Finset α) (hK : ∀ x p, f x = some p → x ∈ K) (hf : Acyclic f) :
    ∃ e : α → Nat, (∀ x p, f x = some p → e x < e p) ∧ ∀ x, e x ≤ K.card := by
  refine ⟨fun x => (K.filter fun y => Above f x y).card, ?_,
    fun x => Finset.card_filter_le _ _⟩
  intro x p hp
  apply Finset.card_lt_card
  rw [Finset.ssubset_iff_of_subset]
  · refine ⟨x, Finset.mem_filter.mpr ⟨hK x p hp, Above.of_parent hp⟩, ?_⟩
    intro hx
    exact hf x (Finset.mem_filter.mp hx).2
  · intro y hy
    rw [Finset.mem_filter] at hy ⊢
    exact ⟨hy.1, (Above.of_parent hp).trans_anc hy.2.anc⟩

end PionBridge.Lib.Forest
