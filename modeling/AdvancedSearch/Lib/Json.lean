import Mathlib.Data.List.Lex
import AdvancedSearch.Lib.Decimal

/-!
# JSON values

Objects keep their fields in JavaScript's property order: array indices first and ascending, the
other keys in the order they were added. `putField` is the assignment `o[key] = value`,
`Json.stringify` is `JSON.stringify`, and strings are compared as `Array.prototype.sort` compares
them, by UTF-16 code units.
-/

namespace Js

/-- A JSON value. -/
inductive Json where
  | null
  | bool (b : Bool)
  | number (n : Decimal)
  | string (s : String)
  | array (items : List Json)
  | object (fields : List (String × Json))

/-- The fields of an object, in property order. -/
abbrev Fields := List (String × Json)

/-! ## Property order -/

/-- A key that is an array index, as the number it spells. -/
def arrayIndex? (key : String) : Option ℕ :=
  let n := Nat.ofDigitChars 10 key.toList 0
  if key.toList.all Char.isDigit ∧ n.repr = key ∧ n < 2 ^ 32 - 1 then some n else none

/-- Whether a new key is listed before one that is there. -/
def precedes (key other : String) : Bool :=
  match arrayIndex? key, arrayIndex? other with
  | some i, some j => i < j
  | some _, none => true
  | none, _ => false

/-- `o[key]`. -/
def field (fields : Fields) (key : String) : Option Json := fields.lookup key

/-- `o[key] = value` for a key that `o` does not have. -/
def addField (key : String) (value : Json) : Fields → Fields
  | [] => [(key, value)]
  | f :: fields => if precedes key f.1 then (key, value) :: f :: fields else f :: addField key value fields

/-- `o[key] = value`. -/
def putField (fields : Fields) (key : String) (value : Json) : Fields :=
  if fields.any (fun f => f.1 = key) then
    fields.map fun f => if f.1 = key then (f.1, value) else f
  else addField key value fields

theorem field_addField_self (key : String) (value : Json) {fields : Fields}
    (h : field fields key = none) : field (addField key value fields) key = some value := by
  induction fields with
  | nil => simp [addField, field]
  | cons f fields ih =>
    unfold field at h ih ⊢
    rw [List.lookup_cons] at h
    unfold addField
    by_cases hp : precedes key f.1
    · rw [if_pos hp, List.lookup_cons_self]
    · rw [if_neg hp, List.lookup_cons]
      cases hk : key == f.1 with
      | true => simp [hk] at h
      | false =>
        simp only [hk] at h
        exact ih h

theorem field_eq_none {fields : Fields} {key : String} :
    field fields key = none ↔ fields.any (fun f => f.1 = key) = false := by
  unfold field
  rw [List.lookup_eq_none_iff, List.any_eq_false]
  refine forall₂_congr fun f _ => ?_
  rw [bne_iff_ne, decide_eq_true_iff, ne_comm]

/-- An assigned key reads back. -/
theorem field_putField_self (fields : Fields) (key : String) (value : Json) :
    field (putField fields key value) key = some value := by
  unfold putField
  split_ifs with h
  · induction fields with
    | nil => simp at h
    | cons f fields ih =>
      rw [List.map_cons]
      unfold field at ih ⊢
      by_cases hk : f.1 = key
      · rw [if_pos hk, List.lookup_cons, hk, beq_self_eq_true]
      · have hb : (key == f.1) = false := beq_eq_false_iff_ne.mpr (Ne.symm hk)
        rw [if_neg hk, List.lookup_cons, hb]
        refine ih ?_
        simpa [hk] using h
  · exact field_addField_self key value (field_eq_none.mpr (Bool.eq_false_of_not_eq_true h))

theorem field_addField_of_ne {key other : String} (h : other ≠ key) (value : Json) (fields : Fields) :
    field (addField key value fields) other = field fields other := by
  have hne : (other == key) = false := beq_eq_false_iff_ne.mpr h
  induction fields with
  | nil =>
    show List.lookup other [(key, value)] = none
    rw [List.lookup_cons, hne]
    rfl
  | cons f fields ih =>
    unfold addField
    unfold field at ih ⊢
    split
    · rw [List.lookup_cons, hne]
    · rw [List.lookup_cons, List.lookup_cons, ih]

/-- The other keys are left alone. -/
theorem field_putField_of_ne {key other : String} (h : other ≠ key) (fields : Fields) (value : Json) :
    field (putField fields key value) other = field fields other := by
  have hmap : field (fields.map fun f => if f.1 = key then (f.1, value) else f) other =
      field fields other := by
    induction fields with
    | nil => rfl
    | cons f fields ih =>
      unfold field at ih ⊢
      rw [List.map_cons]
      by_cases hk : f.1 = key
      · rw [if_pos hk, List.lookup_cons, List.lookup_cons, hk, beq_eq_false_iff_ne.mpr h, ih]
      · rw [if_neg hk, List.lookup_cons, List.lookup_cons, ih]
  unfold putField
  split
  · exact hmap
  · exact field_addField_of_ne h value fields

/-! ## The order of strings -/

/-- The UTF-16 code units of a character. -/
def charUnits (c : Char) : List ℕ :=
  if c.toNat < 0x10000 then [c.toNat]
  else [0xD800 + (c.toNat - 0x10000) / 0x400, 0xDC00 + (c.toNat - 0x10000) % 0x400]

/-- The UTF-16 code units of a string. -/
def codeUnits (s : String) : List ℕ := s.toList.flatMap charUnits

/-- The order `Array.prototype.sort` puts strings in. -/
def stringLe (a b : String) : Bool := decide (codeUnits a ≤ codeUnits b)

/-! ## Printing -/

/-- The hexadecimal digit of a number below 16. -/
def hexDigit (n : ℕ) : Char := Nat.digitChar n

/-- A character between the quotes of a JSON string. -/
def escape (c : Char) : List Char :=
  if c = '"' then ['\\', '"']
  else if c = '\\' then ['\\', '\\']
  else if c = '\x08' then ['\\', 'b']
  else if c = '\x0c' then ['\\', 'f']
  else if c = '\n' then ['\\', 'n']
  else if c = '\r' then ['\\', 'r']
  else if c = '\t' then ['\\', 't']
  else if c.toNat < 0x20 then ['\\', 'u', '0', '0', hexDigit (c.toNat / 16), hexDigit (c.toNat % 16)]
  else [c]

/-- A string as JSON. -/
def quote (s : String) : List Char := '"' :: s.toList.flatMap escape ++ ['"']

namespace Json

mutual

/-- `JSON.stringify`, as characters. -/
def chars : Json → List Char
  | null => ['n', 'u', 'l', 'l']
  | bool true => ['t', 'r', 'u', 'e']
  | bool false => ['f', 'a', 'l', 's', 'e']
  | number n => n.text
  | string s => quote s
  | array [] => ['[', ']']
  | array (item :: items) => '[' :: (chars item ++ itemsChars items)
  | object [] => ['{', '}']
  | object ((key, value) :: fields) =>
    '{' :: (quote key ++ ':' :: (chars value ++ fieldsChars fields))

/-- The rest of an array, after its first item. -/
def itemsChars : List Json → List Char
  | [] => [']']
  | item :: items => ',' :: (chars item ++ itemsChars items)

/-- The rest of an object, after its first field. -/
def fieldsChars : List (String × Json) → List Char
  | [] => ['}']
  | (key, value) :: fields => ',' :: (quote key ++ ':' :: (chars value ++ fieldsChars fields))

end

/-- `JSON.stringify`. -/
def stringify (j : Json) : String := String.ofList j.chars

end Json

end Js
