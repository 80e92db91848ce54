import Mathlib.Data.List.Nodup

/-!
# `PionBridge.Lib.Decode`: writing optional fields and reading them back

A record with optional fields is sent as a map that has an entry for each field that is set.
`ofFields` builds the map from the list of keys with their optional values, and
`lookup_ofFields` reads it back: with distinct keys, a read gives the value of the field of
that key, and nothing when the field is not set or no field has the key.

A decoder that can fail is a computation in `Except`. The last two rules take a successful one
apart.
-/

set_option autoImplicit false

namespace PionBridge.Lib

variable {κ β γ : Type}

/-- The entries of the fields that are set. -/
def ofFields (fields : List (κ × Option β)) : List (κ × β) :=
  fields.filterMap fun f => f.2.map fun v => (f.1, v)

/-- A key of the map is a key of the fields. -/
theorem keys_ofFields_sublist (fields : List (κ × Option β)) :
    ((ofFields fields).map Prod.fst).Sublist (fields.map Prod.fst) := by
  induction fields with
  | nil => exact .slnil
  | cons f fields ih =>
      obtain ⟨key, v⟩ := f
      cases v with
      | none => exact ih.cons key
      | some v => exact ih.cons_cons key

variable [DecidableEq κ]

theorem lookup_eq_none_of_not_mem {entries : List (κ × β)} {key : κ}
    (h : key ∉ entries.map Prod.fst) : entries.lookup key = none := by
  rw [List.lookup_eq_none_iff]
  intro e he
  have hne : key ≠ e.1 := fun heq => h (heq ▸ List.mem_map_of_mem he)
  simpa using hne

/-- Reading the map reads the field. -/
theorem lookup_ofFields {fields : List (κ × Option β)} (h : (fields.map Prod.fst).Nodup)
    (key : κ) : (ofFields fields).lookup key = (fields.lookup key).join := by
  induction fields with
  | nil => rfl
  | cons f fields ih =>
      obtain ⟨k, v⟩ := f
      obtain ⟨hk, hrest⟩ := List.nodup_cons.mp h
      by_cases heq : key = k
      · subst heq
        -- No later field has this key.
        have hgone : (ofFields fields).lookup key = none :=
          lookup_eq_none_of_not_mem fun hmem => hk ((keys_ofFields_sublist fields).mem hmem)
        cases v with
        | none => simpa [ofFields] using hgone
        | some v => simp [ofFields]
      · have hne : (key == k) = false := by simpa using heq
        have ih := ih hrest
        cases v with
        | none => simpa [ofFields, List.lookup_cons, hne] using ih
        | some v => simpa [ofFields, List.lookup_cons, hne] using ih

/-- Reading a map whose values have been translated. -/
theorem lookup_map_snd (f : β → γ) (entries : List (κ × β)) (key : κ) :
    (entries.map fun e => (e.1, f e.2)).lookup key = (entries.lookup key).map f := by
  induction entries with
  | nil => rfl
  | cons e entries ih =>
      rw [List.map_cons, List.lookup_cons, List.lookup_cons, ih]
      cases key == e.1 <;> rfl

/-- A sequence that succeeds has a first part that succeeds. -/
theorem exists_of_bind_ok {ε α δ : Type} {x : Except ε α} {f : α → Except ε δ} {b : δ}
    (h : x >>= f = .ok b) : ∃ a, x = .ok a ∧ f a = .ok b := by
  cases x with
  | error e => cases h
  | ok a => exact ⟨a, rfl, h⟩

/-- Changing the error changes no success. -/
theorem ok_of_mapError_ok {ε ε' α : Type} {x : Except ε α} {f : ε → ε'} {a : α}
    (h : x.mapError f = .ok a) : x = .ok a := by
  cases x with
  | error e => cases h
  | ok b =>
      cases h
      rfl

end PionBridge.Lib
