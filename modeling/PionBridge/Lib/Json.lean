import PionBridge.Lib.Numeral

/-!
# `PionBridge.Lib.Json`: JSON values and their text

A JSON value whose strings are lists of symbols of any kind. `text` writes the value without
blanks, given how a symbol is written inside quotes. `escape` writes a character so that the text
is safe inside HTML: it escapes quotes, backslashes, control characters, `<`, `>`, `&` and the two
line separators.

Each symbol stands for a character, and two symbols may stand for the same one. `Escapes` says
that the character can be read from what is written for the symbol. Then the text of a value
determines the value up to this reading (`text_split`): what two values with the same text have in
their strings stands for the same characters, and everything else is the same.
-/

set_option autoImplicit false

namespace PionBridge.Lib

/-! ### Characters inside quotes -/

/-- The escape of a character by its number. -/
def unicodeEscape (c : Char) : List Char :=
  ['\\', 'u', (c.toNat / 4096 % 16).digitChar, (c.toNat / 256 % 16).digitChar,
    (c.toNat / 16 % 16).digitChar, (c.toNat % 16).digitChar]

/-- A character inside quotes. -/
def escape (c : Char) : List Char :=
  if c = '"' ∨ c = '\\' then ['\\', c]
  else if c = '\x08' then ['\\', 'b']
  else if c = '\x0c' then ['\\', 'f']
  else if c = '\n' then ['\\', 'n']
  else if c = '\r' then ['\\', 'r']
  else if c = '\t' then ['\\', 't']
  else if c.toNat < 32 ∨ c = '<' ∨ c = '>' ∨ c = '&' ∨ c = '\u2028' ∨ c = '\u2029' then
    unicodeEscape c
  else [c]

/-- The value of a hexadecimal digit. -/
def hexValue (c : Char) : Nat := if c.isDigit then c.toNat - 48 else c.toNat - 87

/-- The character after a backslash that is not followed by `u`. -/
def shortEscape : Char → Char
  | 'b' => '\x08'
  | 'f' => '\x0c'
  | 'n' => '\n'
  | 'r' => '\r'
  | 't' => '\t'
  | c => c

/-- Reads one character of a quoted text. -/
def readChar : List Char → Option (Char × List Char)
  | '\\' :: 'u' :: a :: b :: c :: d :: r =>
    some (Char.ofNat (((hexValue a * 16 + hexValue b) * 16 + hexValue c) * 16 + hexValue d), r)
  | '\\' :: c :: r => some (shortEscape c, r)
  | c :: r => some (c, r)
  | [] => none

theorem hexValue_digitChar {n : Nat} (h : n < 16) : hexValue n.digitChar = n := by
  have hall : ∀ n : Fin 16, hexValue n.val.digitChar = n.val := by decide
  exact hall ⟨n, h⟩

theorem readChar_unicodeEscape {c : Char} (hc : c.toNat < 65536) (r : List Char) :
    readChar (unicodeEscape c ++ r) = some (c, r) := by
  show some (Char.ofNat _, r) = some (c, r)
  rw [hexValue_digitChar (Nat.mod_lt _ (by decide)), hexValue_digitChar (Nat.mod_lt _ (by decide)),
    hexValue_digitChar (Nat.mod_lt _ (by decide)), hexValue_digitChar (Nat.mod_lt _ (by decide))]
  have hsum : ((c.toNat / 4096 % 16 * 16 + c.toNat / 256 % 16) * 16 + c.toNat / 16 % 16) * 16 +
      c.toNat % 16 = c.toNat := by omega
  rw [hsum, Char.ofNat_toNat]

theorem readChar_escape (c : Char) (r : List Char) : readChar (escape c ++ r) = some (c, r) := by
  unfold escape
  split
  · rename_i h
    rcases h with rfl | rfl <;> rfl
  split
  · subst_vars
    rfl
  split
  · subst_vars
    rfl
  split
  · subst_vars
    rfl
  split
  · subst_vars
    rfl
  split
  · subst_vars
    rfl
  split
  · rename_i h
    refine readChar_unicodeEscape ?_ r
    rcases h with h | rfl | rfl | rfl | rfl | rfl
    · omega
    all_goals decide
  · -- A character that is not escaped is no backslash.
    rename_i hquote _ _ _ _ _ _
    have hne : c ≠ '\\' := fun h => hquote (Or.inr h)
    show readChar (c :: r) = some (c, r)
    unfold readChar
    split
    · rename_i h
      exact absurd (List.cons.inj h).1 hne
    · rename_i h
      exact absurd (List.cons.inj h).1 hne
    · rename_i h
      cases h
      rfl
    · rename_i h
      cases h

theorem escape_ne_quote (c : Char) (r : List Char) : (escape c ++ r).head? ≠ some '"' := by
  unfold escape
  repeat' split
  all_goals simp_all [unicodeEscape]

/-- The symbols are written so that the character `char a` can be read from `write a`. -/
structure Escapes {α : Type} (write : α → List Char) (char : α → Char) : Prop where
  read : ∀ a r, readChar (write a ++ r) = some (char a, r)
  ne_quote : ∀ a r, (write a ++ r).head? ≠ some '"'

/-! ### Values -/

/-- A JSON value. The members of an object are in the order of the text. -/
inductive Json (α : Type)
  | null
  | bool (b : Bool)
  | num (n : Numeral)
  | str (s : List α)
  | arr (items : List (Json α))
  | obj (members : List (List α × Json α))

namespace Json

section

variable {α : Type}

def isNull : Json α → Bool
  | null => true
  | _ => false

def bool? : Json α → Option Bool
  | bool b => some b
  | _ => none

def num? : Json α → Option Numeral
  | num n => some n
  | _ => none

def str? : Json α → Option (List α)
  | str s => some s
  | _ => none

def arr? : Json α → Option (List (Json α))
  | arr items => some items
  | _ => none

end

section

variable {α β : Type} (f : α → β)

mutual

/-- The value with other symbols. -/
def map : Json α → Json β
  | null => .null
  | bool b => .bool b
  | num n => .num n
  | str s => .str (s.map f)
  | arr items => .arr (mapItems items)
  | obj members => .obj (mapMembers members)

def mapItems : List (Json α) → List (Json β)
  | [] => []
  | x :: xs => x.map :: mapItems xs

def mapMembers : List (List α × Json α) → List (List β × Json β)
  | [] => []
  | (k, x) :: xs => (k.map f, x.map) :: mapMembers xs

end

end

section

variable {α : Type} (write : α → List Char)

/-- A string in quotes. -/
def quoted (s : List α) : List Char := '"' :: (s.flatMap write ++ ['"'])

mutual

def text : Json α → List Char
  | null => ['n', 'u', 'l', 'l']
  | bool true => ['t', 'r', 'u', 'e']
  | bool false => ['f', 'a', 'l', 's', 'e']
  | num n => n.text
  | str s => quoted write s
  | arr [] => ['[', ']']
  | arr (x :: xs) => '[' :: (x.text ++ itemsText xs)
  | obj [] => ['\x7b', '\x7d']
  | obj ((k, x) :: xs) => '\x7b' :: (quoted write k ++ ':' :: (x.text ++ membersText xs))

/-- The items after the first. -/
def itemsText : List (Json α) → List Char
  | [] => [']']
  | x :: xs => ',' :: (x.text ++ itemsText xs)

/-- The members after the first. -/
def membersText : List (List α × Json α) → List Char
  | [] => ['\x7d']
  | (k, x) :: xs => ',' :: (quoted write k ++ ':' :: (x.text ++ membersText xs))

end

/-! ### Reading -/

/-- The kinds of values. -/
inductive Kind
  | null | bool | num | str | arr | obj

def kind : Json α → Kind
  | null => .null
  | bool _ => .bool
  | num _ => .num
  | str _ => .str
  | arr _ => .arr
  | obj _ => .obj

/-- The kind of the value that starts with a character. -/
def kindOf (c : Char) : Kind :=
  if c = 'n' then .null
  else if c = 't' ∨ c = 'f' then .bool
  else if c = '"' then .str
  else if c = '[' then .arr
  else if c = '\x7b' then .obj
  else .num

theorem kindOf_of_isDigit {c : Char} (h : c.isDigit = true) : kindOf c = .num := by
  unfold kindOf
  repeat' split
  all_goals first
    | rfl
    | (rename_i hc; first | (subst hc; cases h) | (rcases hc with rfl | rfl <;> cases h))

/-- The first character tells the kind, and it is no closing bracket. -/
theorem exists_text (j : Json α) :
    ∃ c t, j.text write = c :: t ∧ kindOf c = j.kind ∧ c ≠ ']' := by
  cases j with
  | null => exact ⟨'n', _, by rw [text], rfl, by decide⟩
  | bool b =>
      cases b with
      | true => exact ⟨'t', _, by rw [text], rfl, by decide⟩
      | false => exact ⟨'f', _, by rw [text], rfl, by decide⟩
  | num n =>
      obtain ⟨c, t, hct, hc⟩ := n.exists_text
      refine ⟨c, t, by rw [text, hct], ?_⟩
      rcases hc with ⟨rfl, -⟩ | ⟨hc, -⟩
      · exact ⟨rfl, by decide⟩
      · refine ⟨kindOf_of_isDigit hc, ?_⟩
        rintro rfl
        cases hc
  | str s => exact ⟨'"', _, by rw [text, quoted], rfl, by decide⟩
  | arr items =>
      cases items with
      | nil => exact ⟨'[', _, by rw [text], rfl, by decide⟩
      | cons x xs => exact ⟨'[', _, by rw [text], rfl, by decide⟩
  | obj members =>
      cases members with
      | nil => exact ⟨'\x7b', _, by rw [text], rfl, by decide⟩
      | cons m ms =>
          obtain ⟨k, x⟩ := m
          exact ⟨'\x7b', _, by rw [text], rfl, by decide⟩

theorem kind_eq_of_text {j j' : Json α} {r r' : List Char}
    (h : j.text write ++ r = j'.text write ++ r') : j.kind = j'.kind := by
  obtain ⟨c, t, hct, hc, -⟩ := j.exists_text write
  obtain ⟨c', t', hct', hc', -⟩ := j'.exists_text write
  rw [hct, hct'] at h
  rw [← hc, ← hc', (List.cons.inj h).1]

theorem text_ne_bracket (j : Json α) (r t : List Char) : j.text write ++ r ≠ ']' :: t := by
  obtain ⟨c, u, hcu, -, hc⟩ := j.exists_text write
  rw [hcu]
  intro h
  exact hc (List.cons.inj h).1

/-- After an item comes a comma or a bracket. -/
theorem stops_itemsText (xs : List (Json α)) (r : List Char) :
    Stops Numeral.continues (itemsText write xs ++ r) := by
  cases xs with
  | nil =>
      rw [itemsText]
      exact stops_cons (by decide)
  | cons x xs =>
      rw [itemsText]
      exact stops_cons (by decide)

theorem stops_membersText (ms : List (List α × Json α)) (r : List Char) :
    Stops Numeral.continues (membersText write ms ++ r) := by
  cases ms with
  | nil =>
      rw [membersText]
      exact stops_cons (by decide)
  | cons m ms =>
      obtain ⟨k, x⟩ := m
      rw [membersText]
      exact stops_cons (by decide)

variable {write} {char : α → Char}

/-- A string can be read up to its closing quote. -/
theorem quoted_split (hw : Escapes write char) {s s' : List α} {r r' : List Char}
    (h : quoted write s ++ r = quoted write s' ++ r') : s.map char = s'.map char ∧ r = r' := by
  simp only [quoted, List.cons_append, List.append_assoc, List.cons.injEq, true_and,
    List.nil_append] at h
  induction s generalizing s' with
  | nil =>
      cases s' with
      | nil => exact ⟨rfl, (List.cons.inj h).2⟩
      | cons b s' =>
          rw [List.flatMap_cons, List.append_assoc] at h
          exact absurd (congrArg List.head? h).symm (hw.ne_quote b _)
  | cons a s ih =>
      cases s' with
      | nil =>
          rw [List.flatMap_cons, List.append_assoc] at h
          exact absurd (congrArg List.head? h) (hw.ne_quote a _)
      | cons b s' =>
          rw [List.flatMap_cons, List.flatMap_cons, List.append_assoc, List.append_assoc] at h
          -- The first characters are read the same, and so is what comes after them.
          have hread := congrArg readChar h
          rw [hw.read, hw.read, Option.some.injEq, Prod.mk.injEq] at hread
          obtain ⟨hmap, hrest⟩ := ih hread.2
          exact ⟨by rw [List.map_cons, List.map_cons, hread.1, hmap], hrest⟩

/-- A key can be read up to the value after it. -/
theorem key_split (hw : Escapes write char) {k l : List α} {t t' r r' : List Char}
    (h : quoted write k ++ ':' :: t ++ r = quoted write l ++ ':' :: t' ++ r') :
    k.map char = l.map char ∧ t ++ r = t' ++ r' := by
  rw [List.append_assoc, List.append_assoc] at h
  obtain ⟨hk, hrest⟩ := quoted_split hw h
  exact ⟨hk, (List.cons.inj hrest).2⟩

mutual

/-- A value can be read off the front of a text, up to what its symbols stand for. -/
theorem text_split (hw : Escapes write char) :
    ∀ (j j' : Json α) {r r' : List Char}, Stops Numeral.continues r → Stops Numeral.continues r' →
      j.text write ++ r = j'.text write ++ r' → j.map char = j'.map char ∧ r = r'
  | null, j', r, r', _, _, h => by
      have hkind := kind_eq_of_text write h
      cases j' <;> cases hkind
      rw [text] at h
      exact ⟨rfl, List.append_cancel_left h⟩
  | bool b, j', r, r', _, _, h => by
      have hkind := kind_eq_of_text write h
      cases j' <;> cases hkind
      rename_i b'
      cases b <;> cases b' <;> simp only [text, List.cons_append, List.nil_append,
        List.cons.injEq, true_and] at h
      · exact ⟨rfl, h⟩
      · exact absurd h.1 (by decide)
      · exact absurd h.1 (by decide)
      · exact ⟨rfl, h⟩
  | num n, j', r, r', hr, hr', h => by
      have hkind := kind_eq_of_text write h
      cases j' <;> cases hkind
      rename_i n'
      rw [text, text] at h
      obtain ⟨rfl, hrest⟩ := Numeral.text_split hr hr' h
      exact ⟨rfl, hrest⟩
  | str s, j', r, r', _, _, h => by
      have hkind := kind_eq_of_text write h
      cases j' <;> cases hkind
      rename_i s'
      rw [text, text] at h
      obtain ⟨hs, hrest⟩ := quoted_split hw h
      exact ⟨by rw [map, map, hs], hrest⟩
  | arr [], j', r, r', _, _, h => by
      have hkind := kind_eq_of_text write h
      cases j' <;> cases hkind
      rename_i items'
      cases items' with
      | nil =>
          rw [text] at h
          exact ⟨rfl, List.append_cancel_left h⟩
      | cons y ys =>
          simp only [text, List.cons_append, List.append_assoc, List.cons.injEq, true_and] at h
          exact absurd h.symm (text_ne_bracket write y _ _)
  | arr (x :: xs), j', r, r', _, _, h => by
      have hkind := kind_eq_of_text write h
      cases j' <;> cases hkind
      rename_i items'
      cases items' with
      | nil =>
          simp only [text, List.cons_append, List.append_assoc, List.cons.injEq, true_and] at h
          exact absurd h (text_ne_bracket write x _ _)
      | cons y ys =>
          rw [text, text, List.cons_append, List.cons_append, List.append_assoc,
            List.append_assoc] at h
          obtain ⟨hx, hrest⟩ := text_split hw x y (stops_itemsText write xs r)
            (stops_itemsText write ys r') (List.cons.inj h).2
          obtain ⟨hxs, hrest⟩ := itemsText_split hw xs ys hrest
          exact ⟨by rw [map, map, mapItems, mapItems, hx, hxs], hrest⟩
  | obj [], j', r, r', _, _, h => by
      have hkind := kind_eq_of_text write h
      cases j' <;> cases hkind
      rename_i members'
      cases members' with
      | nil =>
          rw [text] at h
          exact ⟨rfl, List.append_cancel_left h⟩
      | cons m ms =>
          obtain ⟨l, y⟩ := m
          rw [text, text, quoted] at h
          exact absurd (List.cons.inj (List.cons.inj h).2).1 (by decide)
  | obj ((k, x) :: xs), j', r, r', _, _, h => by
      have hkind := kind_eq_of_text write h
      cases j' <;> cases hkind
      rename_i members'
      cases members' with
      | nil =>
          rw [text, text, quoted] at h
          exact absurd (List.cons.inj (List.cons.inj h).2).1 (by decide)
      | cons m ms =>
          obtain ⟨l, y⟩ := m
          rw [text, text, List.cons_append, List.cons_append] at h
          obtain ⟨hk, hrest⟩ := key_split hw (List.cons.inj h).2
          rw [List.append_assoc, List.append_assoc] at hrest
          obtain ⟨hx, hrest⟩ := text_split hw x y (stops_membersText write xs r)
            (stops_membersText write ms r') hrest
          obtain ⟨hxs, hrest⟩ := membersText_split hw xs ms hrest
          exact ⟨by rw [map, map, mapMembers, mapMembers, hk, hx, hxs], hrest⟩

theorem itemsText_split (hw : Escapes write char) :
    ∀ (xs ys : List (Json α)) {r r' : List Char},
      itemsText write xs ++ r = itemsText write ys ++ r' →
        mapItems char xs = mapItems char ys ∧ r = r'
  | [], ys, r, r', h => by
      cases ys with
      | nil =>
          rw [itemsText] at h
          exact ⟨rfl, List.append_cancel_left h⟩
      | cons y ys =>
          rw [itemsText, itemsText] at h
          exact absurd (List.cons.inj h).1 (by decide)
  | x :: xs, ys, r, r', h => by
      cases ys with
      | nil =>
          rw [itemsText, itemsText] at h
          exact absurd (List.cons.inj h).1 (by decide)
      | cons y ys =>
          rw [itemsText, itemsText, List.cons_append, List.cons_append, List.append_assoc,
            List.append_assoc] at h
          obtain ⟨hx, hrest⟩ := text_split hw x y (stops_itemsText write xs r)
            (stops_itemsText write ys r') (List.cons.inj h).2
          obtain ⟨hxs, hrest⟩ := itemsText_split hw xs ys hrest
          exact ⟨by rw [mapItems, mapItems, hx, hxs], hrest⟩

theorem membersText_split (hw : Escapes write char) :
    ∀ (xs ys : List (List α × Json α)) {r r' : List Char},
      membersText write xs ++ r = membersText write ys ++ r' →
        mapMembers char xs = mapMembers char ys ∧ r = r'
  | [], ys, r, r', h => by
      cases ys with
      | nil =>
          rw [membersText] at h
          exact ⟨rfl, List.append_cancel_left h⟩
      | cons y ys =>
          rw [membersText, membersText] at h
          exact absurd (List.cons.inj h).1 (by decide)
  | (k, x) :: xs, ys, r, r', h => by
      cases ys with
      | nil =>
          rw [membersText, membersText] at h
          exact absurd (List.cons.inj h).1 (by decide)
      | cons y ys =>
          obtain ⟨l, y⟩ := y
          rw [membersText, membersText, List.cons_append, List.cons_append] at h
          obtain ⟨hk, hrest⟩ := key_split hw (List.cons.inj h).2
          rw [List.append_assoc, List.append_assoc] at hrest
          obtain ⟨hx, hrest⟩ := text_split hw x y (stops_membersText write xs r)
            (stops_membersText write ys r') hrest
          obtain ⟨hxs, hrest⟩ := membersText_split hw xs ys hrest
          exact ⟨by rw [mapMembers, mapMembers, hk, hx, hxs], hrest⟩

end

/-- Two values with the same text are the same, up to what their symbols stand for. -/
theorem map_eq_of_text (hw : Escapes write char) {j j' : Json α}
    (h : j.text write = j'.text write) : j.map char = j'.map char := by
  have hnil : j.text write ++ [] = j'.text write ++ [] := by rw [h]
  exact (text_split hw j j' stops_nil stops_nil hnil).1

end

end Json

end PionBridge.Lib
