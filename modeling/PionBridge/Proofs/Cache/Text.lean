import PionBridge.Lib.Decode
import PionBridge.Server.Payload

/-!
# `PionBridge.Proofs.Cache.Text`: what the text of a payload tells

`v.Denotes j` says that `v` has a text and that the text is read as `j`. Bytes that are not part of
UTF-8 are read as U+FFFD, a slice of bytes as a string, and all kinds of numbers as numerals. This
is all that is lost: payloads with the same text denote the same values under the same keys
(`agree_of_marshal`).

The keys here are those of the handlers. None of them has a U+FFFD or the mark in it.
-/

set_option autoImplicit false

namespace PionBridge.Server

open PionBridge.Lib

/-! ### Runes -/

/-- The character as which a rune is read. -/
def runeChar : Rune → Char
  | .inl c => c
  | .inr _ => replacementChar

/-- Both forms of writing a string can be read back rune by rune, and no rune is written with a
quote at its start. A byte that is not part of UTF-8 is read as U+FFFD in either form. -/
theorem escapes_write (form : Replacement) : Escapes form.write runeChar := by
  constructor
  · -- what is written for a rune is read as one character
    intro r rest
    cases r with
    | inl c => exact readChar_escape c rest
    | inr b =>
        cases form with
        | escaped => exact readChar_unicodeEscape (by decide) rest
        | verbatim => rfl
  · -- so the quote that ends a string is never taken for the start of a rune
    intro r rest
    cases r with
    | inl c => exact escape_ne_quote c rest
    | inr b =>
        cases form with
        | escaped =>
            show some '\\' ≠ some '"'
            decide
        | verbatim =>
            show some replacementChar ≠ some '"'
            decide

/-- Runes are known from their characters if there is no U+FFFD among them. -/
theorem eq_map_inl_of_runeChar {rs : List Rune} {cs : List Char} (h : rs.map runeChar = cs)
    (hcs : replacementChar ∉ cs) : rs = cs.map .inl := by
  subst h
  induction rs with
  | nil => rfl
  | cons r rs ih =>
      rw [List.map_cons, List.mem_cons, not_or] at hcs
      cases r with
      | inl c =>
          rw [List.map_cons, List.map_cons, ← ih hcs.2]
          rfl
      | inr b =>
          -- Such a byte is read as U+FFFD.
          exact absurd rfl hcs.1

/-! ### Lookups -/

section

variable {α β γ : Type}

/-- A lookup as an `if` on the equality, so that two lookups can be compared branch by branch. -/
theorem lookup_cons_eq_ite [BEq α] [LawfulBEq α] [DecidableEq α] (a k : α) (v : β)
    (entries : List (α × β)) :
    ((k, v) :: entries).lookup a = if a = k then some v else entries.lookup a := by
  rw [List.lookup_cons]
  by_cases hak : a = k
  · rw [if_pos hak, beq_iff_eq.mpr hak]
  · rw [if_neg hak, beq_false_of_ne hak]

/-- A relation to a mapped option is one to the option itself. -/
theorem rel_of_rel_map {R : γ → β → Prop} (f : α → γ) {a : Option α} {b : Option β}
    (h : Option.Rel R (a.map f) b) : Option.Rel (fun x y => R (f x) y) a b := by
  cases a with
  | none =>
      cases h
      exact .none
  | some x =>
      cases h with
      | some h => exact .some h

/-- A filter after a `bind` can be moved into the second step. -/
theorem filter_bind (a : Option α) (f : α → Option β) (p : β → Bool) :
    (a.bind f).filter p = a.bind fun x => (f x).filter p := by
  cases a <;> rfl

/-- Values that are related after `f` give related options. -/
theorem rel_map {R : β → β → Prop} {f : α → β} {a a' : Option α}
    (h : Option.Rel (fun x x' => R (f x) (f x')) a a') : Option.Rel R (a.map f) (a'.map f) := by
  cases h with
  | none => exact .none
  | some h => exact .some h

/-- A relation between two options may be weakened, for the values that are there. -/
theorem rel_mono {R S : α → β → Prop} {a : Option α} {b : Option β}
    (hRS : ∀ x ∈ a, ∀ y ∈ b, R x y → S x y) (h : Option.Rel R a b) : Option.Rel S a b := by
  cases h with
  | none => exact .none
  | some h => exact .some (hRS _ rfl _ rfl h)

/-- The rule for the second step of a lookup: if it relates related values, so does the whole. -/
theorem rel_bind {R : α → α → Prop} {S : β → β → Prop} {f : α → Option β} {a a' : Option α}
    (hf : ∀ x x', R x x' → Option.Rel S (f x) (f x')) (h : Option.Rel R a a') :
    Option.Rel S (a.bind f) (a'.bind f) := by
  cases h with
  | none => exact .none
  | some h => exact hf _ _ h

/-- If the second step does not tell related values apart, related options have the same outcome. -/
theorem bind_eq_of_rel {R : α → α → Prop} {f : α → Option β} {a a' : Option α}
    (hf : ∀ x ∈ a, ∀ x' ∈ a', R x x' → f x = f x') (h : Option.Rel R a a') :
    a.bind f = a'.bind f := by
  cases h with
  | none => rfl
  | some h => exact hf _ rfl _ rfl h

/-- Two options that are related to the same one are related to each other through its value. In
particular both are there, or neither is. -/
theorem rel_of_common {R : α → β → Prop} {a a' : Option α} {b : Option β} (h : Option.Rel R a b)
    (h' : Option.Rel R a' b) : Option.Rel (fun x x' => ∃ y, R x y ∧ R x' y) a a' := by
  cases h with
  | none =>
      cases h'
      exact .none
  | some h =>
      cases h' with
      | some h' => exact .some ⟨_, h, h'⟩

end

/-! ### Keys -/

/-- A key that is its own text and is read as itself. -/
structure PlainKey (key : String) : Prop where
  mark : mark ∉ key.toList
  replacement : replacementChar ∉ key.toList

instance (key : String) : Decidable (PlainKey key) :=
  decidable_of_iff (mark ∉ key.toList ∧ replacementChar ∉ key.toList)
    ⟨fun h => ⟨h.1, h.2⟩, fun h => ⟨h.mark, h.replacement⟩⟩

/-- `data[key]`. -/
def RawData.get (data : RawData) (key : String) : Option RawValue := data.lookup (utf8Bytes key)

section

variable {key : String} (hkey : PlainKey key)

include hkey

/-- A plain key is the text of its own bytes and of no other string, because the text of a string
determines the string. -/
theorem PlainKey.text_eq_iff (k : GoString) : key = GoString.text k ↔ utf8Bytes key = k := by
  constructor
  · intro h
    -- without the mark in it, the key is a text of the kind that `textOf` writes
    rw [← textOf_utf8Bytes hkey.mark] at h
    exact runes_injective (textOf_injective h)
  · intro h
    rw [← h, GoString.text, textOf_utf8Bytes hkey.mark]

/-- The characters that are read from the text of a key are those of a plain key only if the bytes
are its bytes. Without U+FFFD in the key no broken byte can be read as part of it. -/
theorem PlainKey.chars_eq_iff (k : GoString) :
    key.toList = (runes k).map runeChar ↔ utf8Bytes key = k := by
  constructor
  · intro h
    apply runes_injective
    rw [runes_utf8Bytes, eq_map_inl_of_runeChar h.symm hkey.replacement]
  · intro h
    rw [← h, runes_utf8Bytes, List.map_map]
    exact (List.map_id _).symm

/-- The handlers look up what is under the bytes of the key. -/
theorem PlainKey.get_decodedEntries (data : RawData) :
    (RawValue.decodedEntries data).get key = (RawData.get data key).map RawValue.decoded := by
  induction data with
  | nil => rfl
  | cons e data ih =>
      obtain ⟨k, v⟩ := e
      unfold Data.get RawData.get at ih ⊢
      -- one lookup compares texts and the other bytes; for a plain key the tests agree
      rw [RawValue.decodedEntries, lookup_cons_eq_ite, lookup_cons_eq_ite, ih,
        apply_ite (Option.map RawValue.decoded)]
      exact if_congr (hkey.text_eq_iff k) rfl rfl

end

/-! ### Sorted entries -/

section

variable {β : Type}

/-- A lookup after an insertion into the sorted entries finds the new value under its key, and what
was there under all others. -/
theorem lookup_insertEntry (a k : GoString) (v : β) (entries : List (GoString × β)) :
    (insertEntry k v entries).lookup a = if a = k then some v else entries.lookup a := by
  induction entries with
  | nil => rw [insertEntry, lookup_cons_eq_ite]
  | cons e entries ih =>
      obtain ⟨k', v'⟩ := e
      unfold insertEntry
      split
      · -- The entry replaces the one with its key.
        rename_i hkk
        rw [lookup_cons_eq_ite, lookup_cons_eq_ite, ← hkk]
        split <;> rfl
      · rename_i hkk
        split
        · rw [lookup_cons_eq_ite]
        · rw [lookup_cons_eq_ite, lookup_cons_eq_ite, ih]
          -- An entry before the new one has another key.
          by_cases hak : a = k
          · subst hak
            rw [if_neg hkk, if_pos rfl, if_pos rfl]
          · rw [if_neg hak, if_neg hak]

/-- Sorting does not change what is found, also when a key is there more than once: the first entry
wins, as it does in the list. -/
theorem lookup_sortEntries (a : GoString) (entries : List (GoString × β)) :
    (sortEntries entries).lookup a = entries.lookup a := by
  induction entries with
  | nil => rfl
  | cons e entries ih =>
      obtain ⟨k, v⟩ := e
      rw [sortEntries, lookup_insertEntry, ih, lookup_cons_eq_ite]

/-- When `collect` succeeds, every part has succeeded, in the same order. -/
theorem forall₂_of_collect {xs : List (Except String β)} {as : List β}
    (h : collect xs = .ok as) : List.Forall₂ (fun x a => x = .ok a) xs as := by
  induction xs generalizing as with
  | nil =>
      cases h
      exact .nil
  | cons x xs ih =>
      obtain ⟨a, hx, h⟩ := exists_of_bind_ok h
      obtain ⟨as', hxs, h⟩ := exists_of_bind_ok h
      cases h
      exact .cons hx (ih hxs)

end

/-! ### What a value denotes -/

/-- The value has a text, and this is what is read from it. -/
def RawValue.Denotes (v : RawValue) (j : Json Char) : Prop :=
  ∃ t, v.json = .ok t ∧ t.map runeChar = j

/-- The two have the same text, as far as it can be read. -/
def Agree (v v' : RawValue) : Prop := ∃ j, v.Denotes j ∧ v'.Denotes j

/-- The items of a list denote what is read from their texts, one by one. -/
theorem denotes_items {items : List RawValue} {ts : List (Json Rune)}
    (h : List.Forall₂ (fun x a => x = .ok a) (RawValue.jsonItems items) ts) :
    List.Forall₂ RawValue.Denotes items (Json.mapItems runeChar ts) := by
  induction items generalizing ts with
  | nil =>
      cases h
      rw [Json.mapItems]
      exact .nil
  | cons v items ih =>
      rw [RawValue.jsonItems] at h
      cases h with
      | cons hv hitems =>
          rw [Json.mapItems]
          exact .cons ⟨_, hv, rfl⟩ (ih hitems)

/-- The text of a list is read as an array of what its items denote. -/
theorem RawValue.Denotes.list {items : List RawValue} {j : Json Char}
    (h : (RawValue.list items).Denotes j) :
    ∃ js, j = .arr js ∧ List.Forall₂ RawValue.Denotes items js := by
  obtain ⟨t, ht, rfl⟩ := h
  rw [RawValue.json] at ht
  cases hc : collect (RawValue.jsonItems items) with
  | error e =>
      rw [hc] at ht
      cases ht
  | ok ts =>
      rw [hc] at ht
      cases ht
      exact ⟨_, by rw [Json.map], denotes_items (forall₂_of_collect hc)⟩

/-- The texts of the entries are found under the keys of the entries. -/
theorem lookup_jsonEntries (a : GoString) (data : RawData) :
    (RawValue.jsonEntries data).lookup a = (data.lookup a).map RawValue.json := by
  induction data with
  | nil => rfl
  | cons e data ih =>
      obtain ⟨k, v⟩ := e
      rw [RawValue.jsonEntries, lookup_cons_eq_ite, lookup_cons_eq_ite, ih,
        apply_ite (Option.map RawValue.json)]
      rfl

/-- A member is found under its key. -/
theorem lookup_members {key : String} (hkey : PlainKey key)
    {entries : List (GoString × Except String (Json Rune))} {ms : List (List Rune × Json Rune)}
    (h : List.Forall₂ (fun x a => x = .ok a) (entries.map RawValue.member) ms) :
    Option.Rel (fun x j => ∃ t, x = .ok t ∧ t.map runeChar = j) (entries.lookup (utf8Bytes key))
      ((Json.mapMembers runeChar ms).lookup key.toList) := by
  induction entries generalizing ms with
  | nil =>
      cases h
      rw [Json.mapMembers]
      exact .none
  | cons e entries ih =>
      obtain ⟨k, x⟩ := e
      rw [List.map_cons] at h
      cases h with
      | cons hm hms =>
          cases x with
          | error e =>
              -- a member without a text would have ended `collect`
              cases hm
          | ok t =>
              cases hm
              rw [Json.mapMembers, lookup_cons_eq_ite, lookup_cons_eq_ite,
                if_congr (hkey.chars_eq_iff k) rfl rfl]
              split
              · exact .some ⟨t, rfl, rfl⟩
              · exact ih hms

/-- The text of a map is read as an object. Under a plain key it has what the value under that key
denotes, or nothing if the map has nothing there. -/
theorem RawValue.Denotes.map {data : RawData} {j : Json Char}
    (h : (RawValue.map data).Denotes j) :
    ∃ ms, j = .obj ms ∧ ∀ key, PlainKey key →
      Option.Rel RawValue.Denotes (RawData.get data key) (ms.lookup key.toList) := by
  obtain ⟨t, ht, rfl⟩ := h
  rw [RawValue.json] at ht
  cases hc : collect ((sortEntries (RawValue.jsonEntries data)).map RawValue.member) with
  | error e =>
      rw [hc] at ht
      cases ht
  | ok ts =>
      rw [hc] at ht
      cases ht
      refine ⟨_, by rw [Json.map], ?_⟩
      intro key hkey
      -- the members are sorted by their keys, which no lookup notices
      have hlookup := lookup_members hkey (forall₂_of_collect hc)
      rw [lookup_sortEntries, lookup_jsonEntries] at hlookup
      exact rel_of_rel_map RawValue.json hlookup

/-- Maps with the same text have the same keys, and under them values with the same text. -/
theorem Agree.get {data data' : RawData} (h : Agree (.map data) (.map data')) {key : String}
    (hkey : PlainKey key) : Option.Rel Agree (RawData.get data key) (RawData.get data' key) := by
  obtain ⟨j, hj, hj'⟩ := h
  obtain ⟨ms, rfl, hms⟩ := hj.map
  obtain ⟨ms', heq, hms'⟩ := hj'.map
  cases heq
  exact rel_of_common (hms key hkey) (hms' key hkey)

/-! ### Payloads -/

/-- The two parts of a payload that has a text. -/
theorem parts_of_marshal {form : Replacement} {x : RawPayload} {k : String}
    (h : x.marshal form = .ok k) :
    ∃ t u, RawPayload.part x.1 = .ok t ∧ RawPayload.part x.2 = .ok u ∧
      k = String.ofList ((Json.arr [t, u]).text form.write) := by
  unfold RawPayload.marshal RawPayload.json at h
  cases ht : RawPayload.part x.1 with
  | error e =>
      rw [ht] at h
      cases h
  | ok t =>
      cases hu : RawPayload.part x.2 with
      | error e =>
          rw [ht, hu] at h
          cases h
      | ok u =>
          rw [ht, hu] at h
          cases h
          exact ⟨t, u, rfl, rfl, rfl⟩

/-- A part that is missing has another text than one that is not. -/
theorem agree_of_part {data data' : Option RawData} {t t' : Json Rune}
    (ht : RawPayload.part data = .ok t) (ht' : RawPayload.part data' = .ok t')
    (h : t.map runeChar = t'.map runeChar) :
    Option.Rel (fun data data' => Agree (.map data) (.map data')) data data' := by
  cases data with
  | none =>
      cases data' with
      | none => exact .none
      | some data' =>
          -- `null` is no object
          cases ht
          obtain ⟨ms, hms, -⟩ := RawValue.Denotes.map ⟨t', ht', h.symm⟩
          rw [Json.map] at hms
          cases hms
  | some data =>
      cases data' with
      | none =>
          cases ht'
          obtain ⟨ms, hms, -⟩ := RawValue.Denotes.map ⟨t, ht, h⟩
          rw [Json.map] at hms
          cases hms
      | some data' => exact .some ⟨_, ⟨t, ht, rfl⟩, ⟨t', ht', h.symm⟩⟩

/-- Payloads with the same text agree part by part. -/
theorem agree_of_marshal {form : Replacement} {x y : RawPayload} {k : String}
    (hx : x.marshal form = .ok k) (hy : y.marshal form = .ok k) :
    Option.Rel (fun data data' => Agree (.map data) (.map data')) x.1 y.1 ∧
      Option.Rel (fun data data' => Agree (.map data) (.map data')) x.2 y.2 := by
  obtain ⟨t, u, ht, hu, rfl⟩ := parts_of_marshal hx
  obtain ⟨t', u', ht', hu', htext⟩ := parts_of_marshal hy
  -- the two texts are equal, so what is read from them is
  have hmap := Json.map_eq_of_text (escapes_write form) (String.ofList_injective htext)
  simp only [Json.map, Json.mapItems, Json.arr.injEq, List.cons.injEq, and_true] at hmap
  exact ⟨agree_of_part ht ht' hmap.1, agree_of_part hu hu' hmap.2⟩

/-! ### Decoded payloads -/

/-- The text of a Go string determines its bytes: what is not UTF-8 is marked byte by byte. -/
theorem text_injective : Function.Injective GoString.text := by
  intro s s' h
  exact runes_injective (textOf_injective h)

mutual

/-- A value is known from what the handlers see of it. The proof goes through the two values side by
side: different constructors are decoded to different ones, and the strings inside are known from
their texts. -/
theorem eq_of_decoded : ∀ (v v' : RawValue), v.decoded = v'.decoded → v = v'
  | .nil, v', h => by
      cases v' <;> simp [RawValue.decoded] at h ⊢
  | .bool b, v', h => by
      cases v' <;> simp [RawValue.decoded] at h ⊢
      exact h
  | .int kind n, v', h => by
      cases v' <;> simp [RawValue.decoded] at h ⊢
      exact h
  | .float32 bits, v', h => by
      cases v' <;> simp [RawValue.decoded] at h ⊢
      exact h
  | .float64 bits, v', h => by
      cases v' <;> simp [RawValue.decoded] at h ⊢
      exact h
  | .str s, v', h => by
      cases v' <;> simp [RawValue.decoded] at h ⊢
      exact text_injective h
  | .bin bytes, v', h => by
      cases v' <;> simp [RawValue.decoded] at h ⊢
      exact h
  | .list items, v', h => by
      cases v' <;> simp [RawValue.decoded] at h ⊢
      exact eq_of_decodedItems items _ h
  | .map entries, v', h => by
      cases v' <;> simp [RawValue.decoded] at h ⊢
      exact eq_of_decodedEntries entries _ h

/-- The same for the items of a list, position by position. -/
theorem eq_of_decodedItems : ∀ items items' : List RawValue,
    RawValue.decodedItems items = RawValue.decodedItems items' → items = items'
  | [], items', h => by
      cases items' with
      | nil => rfl
      | cons v' items' => simp [RawValue.decodedItems] at h
  | v :: items, items', h => by
      cases items' with
      | nil => simp [RawValue.decodedItems] at h
      | cons v' items' =>
          rw [RawValue.decodedItems, RawValue.decodedItems, List.cons.injEq] at h
          rw [eq_of_decoded v v' h.1, eq_of_decodedItems items items' h.2]

/-- The same for the entries of a map, with their keys. -/
theorem eq_of_decodedEntries : ∀ entries entries' : RawData,
    RawValue.decodedEntries entries = RawValue.decodedEntries entries' → entries = entries'
  | [], entries', h => by
      cases entries' with
      | nil => rfl
      | cons e' entries' => simp [RawValue.decodedEntries] at h
  | (k, v) :: entries, entries', h => by
      cases entries' with
      | nil => simp [RawValue.decodedEntries] at h
      | cons e' entries' =>
          obtain ⟨k', v'⟩ := e'
          rw [RawValue.decodedEntries, RawValue.decodedEntries, List.cons.injEq,
            Prod.mk.injEq] at h
          rw [text_injective h.1.1, eq_of_decoded v v' h.1.2,
            eq_of_decodedEntries entries entries' h.2]

end

/-- The handlers see all of a payload. -/
theorem decoded_injective : Function.Injective RawPayload.decoded := by
  have hpart : Function.Injective RawValue.decodedEntries := fun a b => eq_of_decodedEntries a b
  intro x y h
  exact Prod.ext (Option.map_injective hpart (congrArg Prod.fst h))
    (Option.map_injective hpart (congrArg Prod.snd h))

end PionBridge.Server
