import Mathlib.Data.Finmap

/-!
# `PionBridge.Lib.GoMap`: finite maps with the operations of a Go map

A Go map is a finite map without an order. The model is Mathlib's `Finmap` at a constant
value type, under the three operations the language has: the comma-ok read, assignment and
`delete`. `get_set` and `get_delete` are the two equations every proof uses, `has_set` and
`has_delete` say the same of the keys, and `ext` compares two maps read by read.

`range` visits the keys in an order the language leaves open. `Ranges m order` says that
`order` is one of these orders.
-/

set_option autoImplicit false

namespace PionBridge.Lib

/-- A map from `κ` to `ν` with finitely many keys. -/
abbrev GoMap (κ ν : Type) := Finmap (fun _ : κ => ν)

namespace GoMap

variable {κ ν : Type} [DecidableEq κ]

/-- `v, ok := m[k]`. -/
def get (m : GoMap κ ν) (k : κ) : Option ν := m.lookup k

/-- `m[k] = v`. -/
def set (m : GoMap κ ν) (k : κ) (v : ν) : GoMap κ ν := m.insert k v

/-- `delete(m, k)`. -/
def delete (m : GoMap κ ν) (k : κ) : GoMap κ ν := m.erase k

/-- `k` is a key of `m`. -/
def Has (m : GoMap κ ν) (k : κ) : Prop := m.get k ≠ none

instance (m : GoMap κ ν) (k : κ) : Decidable (m.Has k) :=
  decidable_of_iff ((m.get k).isSome = true) Option.isSome_iff_ne_none

@[simp] theorem get_empty (k : κ) : (∅ : GoMap κ ν).get k = none :=
  Finmap.lookup_empty k

theorem get_set (m : GoMap κ ν) (k : κ) (v : ν) (a : κ) :
    (m.set k v).get a = if a = k then some v else m.get a := by
  unfold get set
  split
  · rename_i h
    subst h
    exact Finmap.lookup_insert m
  · rename_i h
    exact Finmap.lookup_insert_of_ne m h

theorem get_delete (m : GoMap κ ν) (k a : κ) :
    (m.delete k).get a = if a = k then none else m.get a := by
  unfold get delete
  split
  · rename_i h
    subst h
    exact Finmap.lookup_erase a m
  · rename_i h
    exact Finmap.lookup_erase_ne h

@[simp] theorem get_set_self (m : GoMap κ ν) (k : κ) (v : ν) : (m.set k v).get k = some v := by
  simp [get_set]

theorem get_set_of_ne (m : GoMap κ ν) {k a : κ} (v : ν) (h : a ≠ k) :
    (m.set k v).get a = m.get a := by
  simp [get_set, h]

theorem get_delete_of_ne (m : GoMap κ ν) {k a : κ} (h : a ≠ k) :
    (m.delete k).get a = m.get a := by
  simp [get_delete, h]

theorem has_set {m : GoMap κ ν} {k a : κ} {v : ν} : (m.set k v).Has a ↔ a = k ∨ m.Has a := by
  unfold Has
  rw [get_set]
  by_cases ha : a = k
  · simp [ha]
  · simp [ha]

theorem has_delete {m : GoMap κ ν} {k a : κ} : (m.delete k).Has a ↔ a ≠ k ∧ m.Has a := by
  unfold Has
  rw [get_delete]
  by_cases ha : a = k
  · simp [ha]
  · simp [ha]

/-- An assignment removes no key. -/
theorem Has.set {m : GoMap κ ν} {a : κ} (h : m.Has a) (k : κ) (v : ν) : (m.set k v).Has a :=
  has_set.mpr (Or.inr h)

/-- Two maps with the same reads are equal. -/
theorem ext {m m' : GoMap κ ν} (h : ∀ k, m.get k = m'.get k) : m = m' :=
  Finmap.ext_lookup h

/-- Deleting changes a map exactly when the key is there. -/
theorem delete_eq_self_iff {m : GoMap κ ν} {k : κ} : m.delete k = m ↔ ¬ m.Has k := by
  constructor
  · intro h hhas
    have hget : m.get k = none := by rw [← h, get_delete, if_pos rfl]
    exact hhas hget
  · intro h
    refine ext fun a => ?_
    rw [get_delete]
    split
    · rename_i ha
      rw [ha, not_not.mp h]
    · rfl

/-- The keys of a map, as a finite set. -/
theorem mem_keys_iff {m : GoMap κ ν} {k : κ} : k ∈ m.keys ↔ m.Has k := by
  rw [Finmap.mem_keys, ← Finmap.lookup_isSome, Option.isSome_iff_ne_none]
  rfl

/-- `order` is an order in which `range` may visit `m`: every key once. -/
def Ranges (m : GoMap κ ν) (order : List κ) : Prop :=
  order.Nodup ∧ order.toFinset = m.keys

instance (m : GoMap κ ν) (order : List κ) : Decidable (m.Ranges order) :=
  inferInstanceAs (Decidable (_ ∧ _))

theorem Ranges.mem_iff {m : GoMap κ ν} {order : List κ} (h : m.Ranges order) (k : κ) :
    k ∈ order ↔ m.Has k := by
  rw [← mem_keys_iff, ← h.2, List.mem_toFinset]

end GoMap

end PionBridge.Lib
