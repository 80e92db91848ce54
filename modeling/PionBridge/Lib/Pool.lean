import Mathlib.Data.List.Nodup
import Mathlib.Logic.Function.Basic

/-!
# `PionBridge.Lib.Pool`: objects that are used again

Threads take objects from a pool, change them and put them back. An object is given by its
reference, and `heap` has its content. `get` hands out an object that was put back, or makes a new
one. `put` resets the object first. `drop` is the garbage collector, which may take an object out of
the pool at any time.

A pool is `Sound blank` when nobody shares an object and every object in it is `blank`. The rules
below say that every operation keeps this, that `get` hands out a blank object, and that an
operation of one thread does not change the object of another.
-/

set_option autoImplicit false

namespace PionBridge.Lib

/-- The content of each reference, the references `0, ..., created - 1` made so far, those in the
pool, and the one that each thread holds. -/
structure Pool (α : Type) where
  heap : Nat → α
  created : Nat
  free : List Nat
  holder : Nat → Option Nat

namespace Pool

variable {α : Type}

/-- The content of the object that the thread holds. -/
def obj (p : Pool α) (g : Nat) : Option α := (p.holder g).map p.heap

/-- The thread takes the object `r` out of the pool, or a new one with the content `new`. -/
def get (p : Pool α) (new : α) (g : Nat) : Option Nat → Option (Pool α)
  | some r =>
    if r ∈ p.free then
      some { p with free := p.free.erase r, holder := Function.update p.holder g (some r) }
    else none
  | none =>
    some { p with
      heap := Function.update p.heap p.created new
      created := p.created + 1
      holder := Function.update p.holder g (some p.created) }

/-- The thread changes its object. -/
def modify (p : Pool α) (g : Nat) (f : α → α) : Pool α :=
  match p.holder g with
  | some r => { p with heap := Function.update p.heap r (f (p.heap r)) }
  | none => p

/-- The thread resets its object and puts it into the pool. -/
def put (p : Pool α) (reset : α → α) (g : Nat) : Pool α :=
  match p.holder g with
  | some r =>
    { p with
      heap := Function.update p.heap r (reset (p.heap r))
      free := r :: p.free
      holder := Function.update p.holder g none }
  | none => p

/-- The collector takes the object `r`. -/
def drop (p : Pool α) (r : Nat) : Pool α := { p with free := p.free.erase r }

/-- Every reference is in one place, and the objects of the pool are blank. -/
structure Sound (blank : α → Prop) (p : Pool α) : Prop where
  nodup : p.free.Nodup
  freeLt : ∀ r ∈ p.free, r < p.created
  heldLt : ∀ g r, p.holder g = some r → r < p.created
  apart : ∀ g r, p.holder g = some r → r ∉ p.free
  alone : ∀ g g' r, p.holder g = some r → p.holder g' = some r → g = g'
  blank : ∀ r ∈ p.free, blank (p.heap r)

variable {blank : α → Prop} {p p' : Pool α} {g : Nat}

/-- The objects of the other threads are the same. -/
def Frame (g : Nat) (p p' : Pool α) : Prop := ∀ g', g' ≠ g → p'.obj g' = p.obj g'

/-- A change of one reference is not seen by a thread that holds another one. -/
theorem map_update_of_ne {f : Nat → α} {r : Nat} {x : α} {o : Option Nat} (h : o ≠ some r) :
    o.map (Function.update f r x) = o.map f := by
  cases o with
  | none => rfl
  | some r' =>
      have hne : r' ≠ r := fun heq => h (congrArg some heq)
      rw [Option.map_some, Option.map_some, Function.update_of_ne hne]

/-- Who holds what when one thread has got something else. -/
theorem holds_update {f : Nat → Option Nat} {o : Option Nat} {g' r' : Nat}
    (h : Function.update f g o g' = some r') : g' = g ∧ o = some r' ∨ g' ≠ g ∧ f g' = some r' := by
  by_cases hne : g' = g
  · subst hne
    rw [Function.update_self] at h
    exact Or.inl ⟨rfl, h⟩
  · rw [Function.update_of_ne hne] at h
    exact Or.inr ⟨hne, h⟩

/-- A thread takes an object of the pool. -/
theorem Sound.take (hp : p.Sound blank) (g : Nat) {r : Nat} (hr : r ∈ p.free) :
    Sound blank
      { p with free := p.free.erase r, holder := Function.update p.holder g (some r) } where
  nodup := hp.nodup.erase r
  freeLt r' hr' := hp.freeLt r' (List.mem_of_mem_erase hr')
  heldLt g' r' hold := by
    obtain ⟨-, ⟨⟩⟩ | ⟨-, hold⟩ := holds_update hold
    · exact hp.freeLt r hr
    · exact hp.heldLt g' r' hold
  apart g' r' hold hmem := by
    obtain ⟨-, ⟨⟩⟩ | ⟨-, hold⟩ := holds_update hold
    · exact hp.nodup.not_mem_erase hmem
    · exact hp.apart g' r' hold (List.mem_of_mem_erase hmem)
  alone g₁ g₂ r' h₁ h₂ := by
    -- The reference was in the pool, so no other thread holds it.
    obtain ⟨rfl, ⟨⟩⟩ | ⟨-, h₁⟩ := holds_update h₁
    · obtain ⟨rfl, -⟩ | ⟨-, h₂⟩ := holds_update h₂
      · rfl
      · exact absurd hr (hp.apart g₂ r h₂)
    · obtain ⟨-, ⟨⟩⟩ | ⟨-, h₂⟩ := holds_update h₂
      · exact absurd hr (hp.apart g₁ r h₁)
      · exact hp.alone g₁ g₂ r' h₁ h₂
  blank r' hr' := hp.blank r' (List.mem_of_mem_erase hr')

/-- A new object is as good as one that lies in the pool. -/
theorem Sound.grow (hp : p.Sound blank) {new : α} (hnew : blank new) :
    Sound blank { p with
      heap := Function.update p.heap p.created new
      created := p.created + 1
      free := p.created :: p.free } where
  nodup := by
    refine List.nodup_cons.mpr ⟨fun hmem => ?_, hp.nodup⟩
    exact Nat.lt_irrefl _ (hp.freeLt _ hmem)
  freeLt r hr := by
    show r < p.created + 1
    obtain rfl | hr := List.mem_cons.mp hr
    · omega
    · have := hp.freeLt r hr
      omega
  heldLt g' r hold := Nat.lt_succ_of_lt (hp.heldLt g' r hold)
  apart g' r hold hmem := by
    obtain rfl | hmem := List.mem_cons.mp hmem
    · exact Nat.lt_irrefl _ (hp.heldLt g' _ hold)
    · exact hp.apart g' r hold hmem
  alone := hp.alone
  blank r hr := by
    obtain rfl | hr := List.mem_cons.mp hr
    · show blank (Function.update p.heap p.created new p.created)
      rw [Function.update_self]
      exact hnew
    · have := hp.freeLt r hr
      show blank (Function.update p.heap p.created new r)
      rw [Function.update_of_ne (by omega)]
      exact hp.blank r hr

/-- The rule for `get`. -/
theorem Sound.get (hp : p.Sound blank) {new : α} (hnew : blank new) {choice : Option Nat}
    (h : p.get new g choice = some p') :
    p'.Sound blank ∧ (∃ x, p'.obj g = some x ∧ blank x) ∧ Frame g p p' := by
  cases choice with
  | some r =>
      simp only [Pool.get] at h
      split at h
      · rename_i hr
        cases h
        refine ⟨hp.take g hr, ⟨p.heap r, ?_, hp.blank r hr⟩, fun g' hne => ?_⟩
        · simp [obj]
        · simp [obj, hne]
      · cases h
  | none =>
      cases h
      -- As if the new object were put into the pool and taken out again.
      have hgrown := hp.grow hnew
      have htaken := hgrown.take g (r := p.created) List.mem_cons_self
      simp only [List.erase_cons_head] at htaken
      refine ⟨htaken, ⟨new, ?_, hnew⟩, fun g' hne => ?_⟩
      · simp [obj]
      · have hother : p.holder g' ≠ some p.created := by
          intro hold
          exact Nat.lt_irrefl _ (hp.heldLt g' _ hold)
        show Option.map _ (Function.update p.holder g _ g') = _
        rw [Function.update_of_ne hne, map_update_of_ne hother]
        rfl

/-- The content of a reference that lies outside of the pool is free. -/
theorem Sound.setHeap (hp : p.Sound blank) {r : Nat} (hr : r ∉ p.free) (x : α) :
    Sound blank { p with heap := Function.update p.heap r x } where
  nodup := hp.nodup
  freeLt := hp.freeLt
  heldLt := hp.heldLt
  apart := hp.apart
  alone := hp.alone
  blank r' hr' := by
    have hne : r' ≠ r := fun heq => hr (heq ▸ hr')
    show blank (Function.update p.heap r x r')
    rw [Function.update_of_ne hne]
    exact hp.blank r' hr'

/-- The rule for `modify`. -/
theorem Sound.modify (hp : p.Sound blank) (g : Nat) (f : α → α) :
    (p.modify g f).Sound blank ∧ (p.modify g f).obj g = (p.obj g).map f ∧
      Frame g p (p.modify g f) := by
  unfold Pool.modify
  cases hg : p.holder g with
  | none =>
      refine ⟨hp, ?_, fun _ _ => rfl⟩
      simp [obj, hg]
  | some r =>
      refine ⟨hp.setHeap (hp.apart g r hg) _, ?_, fun g' hne => ?_⟩
      · simp [obj, hg]
      · refine map_update_of_ne fun hold => hne ?_
        exact hp.alone g' g r hold hg

/-- The rule for `put`. -/
theorem Sound.put (hp : p.Sound blank) {reset : α → α} (hreset : ∀ x, blank (reset x)) (g : Nat) :
    (p.put reset g).Sound blank ∧ (p.put reset g).holder g = none ∧
      Frame g p (p.put reset g) := by
  unfold Pool.put
  cases hg : p.holder g with
  | none => exact ⟨hp, hg, fun _ _ => rfl⟩
  | some r =>
      -- The thread was the only one that held the reference.
      have hother : ∀ g', g' ≠ g → p.holder g' ≠ some r := by
        intro g' hne hold
        exact hne (hp.alone g' g r hold hg)
      have hold : ∀ g' r', Function.update p.holder g none g' = some r' →
          g' ≠ g ∧ p.holder g' = some r' := by
        intro g' r' h
        exact (holds_update h).resolve_left nofun
      refine ⟨⟨?_, ?_, ?_, ?_, ?_, ?_⟩, Function.update_self .., fun g' hne => ?_⟩
      · exact List.nodup_cons.mpr ⟨hp.apart g r hg, hp.nodup⟩
      · intro r' hr'
        obtain rfl | hr' := List.mem_cons.mp hr'
        · exact hp.heldLt g _ hg
        · exact hp.freeLt r' hr'
      · intro g' r' h
        exact hp.heldLt g' r' (hold g' r' h).2
      · intro g' r' h hmem
        obtain ⟨hne, hheld⟩ := hold g' r' h
        obtain rfl | hmem := List.mem_cons.mp hmem
        · exact hother g' hne hheld
        · exact hp.apart g' r' hheld hmem
      · intro g₁ g₂ r' h₁ h₂
        exact hp.alone g₁ g₂ r' (hold g₁ r' h₁).2 (hold g₂ r' h₂).2
      · intro r' hr'
        show blank (Function.update p.heap r (reset (p.heap r)) r')
        by_cases heq : r' = r
        · subst heq
          rw [Function.update_self]
          exact hreset _
        · rw [Function.update_of_ne heq]
          exact hp.blank r' ((List.mem_cons.mp hr').resolve_left heq)
      · show Option.map _ (Function.update p.holder g none g') = _
        rw [Function.update_of_ne hne, map_update_of_ne (hother g' hne)]
        rfl

/-- The rule for `drop`. -/
theorem Sound.drop (hp : p.Sound blank) (r : Nat) : (p.drop r).Sound blank where
  nodup := hp.nodup.erase r
  freeLt r' hr' := hp.freeLt r' (List.mem_of_mem_erase hr')
  heldLt := hp.heldLt
  apart g r' hold hmem := hp.apart g r' hold (List.mem_of_mem_erase hmem)
  alone := hp.alone
  blank r' hr' := hp.blank r' (List.mem_of_mem_erase hr')

end Pool

end PionBridge.Lib
