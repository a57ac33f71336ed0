import AdvancedSearch.Lib.Json

/-!
# Reading JSON

`Json.parse` is `JSON.parse`: it reads the whole JSON grammar, escapes and white space included, and
assigns the fields of an object in order, so that a repeated key keeps its last value. A string is read
as UTF-16 code units, which must pair up. `Json.parse_stringify`: reading undoes printing, for objects
that list their fields in property order.
-/

namespace Js

/-! ## Strings -/

/-- A string of code units; a surrogate without its partner has no character. -/
def decodeUnits : List ℕ → Option (List Char)
  | [] => some []
  | u :: units =>
    if 0xD800 ≤ u ∧ u < 0xDC00 then
      match units with
      | [] => none
      | v :: units =>
        if 0xDC00 ≤ v ∧ v < 0xE000 then
          (decodeUnits units).map
            (Char.ofNat (0x10000 + (u - 0xD800) * 0x400 + (v - 0xDC00)) :: ·)
        else none
    else if 0xDC00 ≤ u ∧ u < 0xE000 then none
    else (decodeUnits units).map (Char.ofNat u :: ·)

/-- The value of a hexadecimal digit. -/
def hexValue (c : Char) : Option ℕ :=
  if c.isDigit then some (c.toNat - '0'.toNat)
  else if 'a' ≤ c ∧ c ≤ 'f' then some (c.toNat - 'a'.toNat + 10)
  else if 'A' ≤ c ∧ c ≤ 'F' then some (c.toNat - 'A'.toNat + 10)
  else none

/-- What a character stands for after a backslash. -/
def unescape (c : Char) : Option ℕ :=
  if c = '"' ∨ c = '\\' ∨ c = '/' then some c.toNat
  else if c = 'b' then some 0x08
  else if c = 'f' then some 0x0c
  else if c = 'n' then some 0x0a
  else if c = 'r' then some 0x0d
  else if c = 't' then some 0x09
  else none

/-- The number that hexadecimal digits spell. -/
def readHex (digits : List Char) : Option ℕ :=
  digits.foldl (fun n c => n.bind fun n => (hexValue c).map (n * 16 + ·)) (some 0)

/-- The code units of a string up to its closing quote, and what follows. -/
def readUnits : List Char → Option (List ℕ × List Char)
  | [] => none
  | c :: cs =>
    if c = '"' then some ([], cs)
    else if c = '\\' then
      match cs with
      | [] => none
      | e :: cs =>
        if e = 'u' then
          match cs with
          | h₁ :: h₂ :: h₃ :: h₄ :: cs =>
            match readHex [h₁, h₂, h₃, h₄] with
            | some u => (readUnits cs).map fun r => (u :: r.1, r.2)
            | none => none
          | _ => none
        else
          match unescape e with
          | some u => (readUnits cs).map fun r => (u :: r.1, r.2)
          | none => none
    else if c.toNat < 0x20 then none
    else (readUnits cs).map fun r => (charUnits c ++ r.1, r.2)

/-- A string, after its opening quote. -/
def readString (cs : List Char) : Option (String × List Char) := do
  let (units, cs) ← readUnits cs
  let chars ← decodeUnits units
  return (String.ofList chars, cs)

/-! ### Printed strings are read back -/

theorem decodeUnits_append (c : Char) (units : List ℕ) :
    decodeUnits (charUnits c ++ units) = (decodeUnits units).map (c :: ·) := by
  have hvalid : c.toNat < 0xD800 ∨ (0xDFFF < c.toNat ∧ c.toNat < 0x110000) := c.valid
  unfold charUnits
  by_cases h : c.toNat < 0x10000
  · rw [if_pos h, List.singleton_append, decodeUnits.eq_def]
    simp only
    rw [if_neg (by omega), if_neg (by omega), Char.ofNat_toNat]
  · have hback : 0x10000 + (0xD800 + (c.toNat - 0x10000) / 0x400 - 0xD800) * 0x400 +
        (0xDC00 + (c.toNat - 0x10000) % 0x400 - 0xDC00) = c.toNat := by omega
    rw [if_neg h, List.cons_append, List.singleton_append, decodeUnits.eq_def]
    simp only
    rw [if_pos (by omega), if_pos (by omega), hback, Char.ofNat_toNat]

theorem decodeUnits_flatMap (cs : List Char) : decodeUnits (cs.flatMap charUnits) = some cs := by
  induction cs with
  | nil => rfl
  | cons c cs ih => rw [List.flatMap_cons, decodeUnits_append, ih, Option.map_some]

theorem readHex_control : ∀ n < 0x20,
    readHex ['0', '0', hexDigit (n / 16), hexDigit (n % 16)] = some n := by decide

/-- A backslash and one of the letters of JSON. -/
theorem readUnits_unescape {e : Char} {u : ℕ} (hu : unescape e = some u) (he : e ≠ 'u')
    (cs : List Char) :
    readUnits ('\\' :: e :: cs) = (readUnits cs).map fun r => (u :: r.1, r.2) := by
  rw [readUnits.eq_def]
  simp only [he, hu, if_false, if_true, show ('\\' : Char) ≠ '"' by decide]

theorem readUnits_escape (c : Char) (cs : List Char) :
    readUnits (escape c ++ cs) = (readUnits cs).map fun r => (charUnits c ++ r.1, r.2) := by
  unfold escape
  split_ifs with h1 h2 h3 h4 h5 h6 h7 h8
  · subst h1; exact readUnits_unescape rfl (by decide) cs
  · subst h2; exact readUnits_unescape rfl (by decide) cs
  · subst h3; exact readUnits_unescape rfl (by decide) cs
  · subst h4; exact readUnits_unescape rfl (by decide) cs
  · subst h5; exact readUnits_unescape rfl (by decide) cs
  · subst h6; exact readUnits_unescape rfl (by decide) cs
  · subst h7; exact readUnits_unescape rfl (by decide) cs
  · simp only [List.cons_append, List.nil_append]
    rw [readUnits.eq_def]
    simp only [if_false, if_true, show ('\\' : Char) ≠ '"' by decide, readHex_control _ h8]
    unfold charUnits
    rw [if_pos (by omega)]
    rfl
  · rw [List.singleton_append, readUnits.eq_def]
    simp only [h1, h2, h8, if_false]

theorem readUnits_quoted (cs rest : List Char) :
    readUnits (cs.flatMap escape ++ '"' :: rest) = some (cs.flatMap charUnits, rest) := by
  induction cs with
  | nil =>
    rw [List.flatMap_nil, List.nil_append, readUnits.eq_def]
    simp only [if_true, List.flatMap_nil]
  | cons c cs ih =>
    rw [List.flatMap_cons, List.append_assoc, readUnits_escape, ih, List.flatMap_cons]
    rfl

/-- A printed string, after its opening quote, is read back. -/
theorem readString_quoted (s : String) (rest : List Char) :
    readString (s.toList.flatMap escape ++ '"' :: rest) = some (s, rest) := by
  unfold readString
  rw [readUnits_quoted]
  simp only [Option.bind_eq_bind, Option.bind_some, decodeUnits_flatMap, String.ofList_toList]
  rfl

/-! ## Values -/

def isWhiteSpace (c : Char) : Bool := c = ' ' ∨ c = '\t' ∨ c = '\n' ∨ c = '\r'

def skip (cs : List Char) : List Char := cs.dropWhile isWhiteSpace

/-- A fixed word at the front. -/
def readWord (word : List Char) (value : Json) (cs : List Char) : Option (Json × List Char) :=
  if word <+: cs then some (value, cs.drop word.length) else none

mutual

/-- A value at the front of the text. -/
def readValue : ℕ → List Char → Option (Json × List Char)
  | 0, _ => none
  | fuel + 1, cs =>
    match skip cs with
    | [] => none
    | c :: rest =>
      if c = 'n' then readWord "null".toList .null (c :: rest)
      else if c = 't' then readWord "true".toList (.bool true) (c :: rest)
      else if c = 'f' then readWord "false".toList (.bool false) (c :: rest)
      else if c = '"' then (readString rest).map fun r => (.string r.1, r.2)
      else if c = '[' then
        if (skip rest).head? = some ']' then some (.array [], (skip rest).tail)
        else (readItems fuel rest).map fun r => (.array r.1, r.2)
      else if c = '{' then
        if (skip rest).head? = some '}' then some (.object [], (skip rest).tail)
        else (readFields fuel [] rest).map fun r => (.object r.1, r.2)
      else (readNumber (c :: rest)).map fun r => (.number r.1, r.2)

/-- The items of an array, at least one. -/
def readItems : ℕ → List Char → Option (List Json × List Char)
  | 0, _ => none
  | fuel + 1, cs => do
    let (item, rest) ← readValue fuel cs
    match skip rest with
    | [] => none
    | c :: rest =>
      if c = ',' then (readItems fuel rest).map fun r => (item :: r.1, r.2)
      else if c = ']' then some ([item], rest)
      else none

/-- The fields of an object, at least one, assigned to those already read. -/
def readFields : ℕ → Fields → List Char → Option (Fields × List Char)
  | 0, _, _ => none
  | fuel + 1, fields, cs => do
    if (skip cs).head? ≠ some '"' then none
    let (key, rest) ← readString (skip cs).tail
    if (skip rest).head? ≠ some ':' then none
    let (value, rest) ← readValue fuel (skip rest).tail
    match skip rest with
    | [] => none
    | c :: rest =>
      if c = ',' then readFields fuel (putField fields key value) rest
      else if c = '}' then some (putField fields key value, rest)
      else none

end

namespace Json

/-- `JSON.parse`; nothing where it throws. -/
def parse (text : String) : Option Json := do
  let (j, rest) ← readValue (text.toList.length + 1) text.toList
  if skip rest = [] then return j else none

/-! ## Printed values are read back -/

mutual

/-- Every object lists its fields in property order. -/
def Ordered : Json → Prop
  | array items => itemsOrdered items
  | object fields => fieldsOrdered fields ∧ fields.foldl (fun o f => putField o f.1 f.2) [] = fields
  | _ => True

def itemsOrdered : List Json → Prop
  | [] => True
  | item :: items => Ordered item ∧ itemsOrdered items

def fieldsOrdered : List (String × Json) → Prop
  | [] => True
  | (_, value) :: fields => Ordered value ∧ fieldsOrdered fields

end

end Json

theorem skip_cons {c : Char} (h : isWhiteSpace c = false) (cs : List Char) :
    skip (c :: cs) = c :: cs := by
  unfold skip
  rw [List.dropWhile_cons, h]
  rfl

theorem endsNumber_cons {c : Char}
    (h : c.isDigit = false ∧ c ≠ '.' ∧ c ≠ 'e' ∧ c ≠ 'E') (cs : List Char) : EndsNumber (c :: cs) := by
  intro c' cs' he
  cases he
  exact h

theorem endsNumber_nil : EndsNumber [] := fun _ _ h => by cases h

/-- What follows an item of an array. -/
theorem itemsChars_cons (items : List Json) : ∃ c cs, Json.itemsChars items = c :: cs ∧
    (c = ',' ∨ c = ']') := by
  cases items with
  | nil => exact ⟨']', [], rfl, Or.inr rfl⟩
  | cons item items => exact ⟨',', _, rfl, Or.inl rfl⟩

theorem fieldsChars_cons (fields : Fields) : ∃ c cs, Json.fieldsChars fields = c :: cs ∧
    (c = ',' ∨ c = '}') := by
  cases fields with
  | nil => exact ⟨'}', [], rfl, Or.inr rfl⟩
  | cons f fields => exact ⟨',', _, rfl, Or.inl rfl⟩

theorem endsNumber_itemsChars (items : List Json) (rest : List Char) :
    EndsNumber (Json.itemsChars items ++ rest) := by
  obtain ⟨c, cs, hc, rfl | rfl⟩ := itemsChars_cons items <;> rw [hc, List.cons_append] <;>
    exact endsNumber_cons (by decide) _

theorem endsNumber_fieldsChars (fields : Fields) (rest : List Char) :
    EndsNumber (Json.fieldsChars fields ++ rest) := by
  obtain ⟨c, cs, hc, rfl | rfl⟩ := fieldsChars_cons fields <;> rw [hc, List.cons_append] <;>
    exact endsNumber_cons (by decide) _

/-- A printed number starts with a digit or a minus sign. -/
theorem head_text (x : Decimal) : ∃ c cs, x.text = c :: cs ∧ (c.isDigit ∨ c = '-') := by
  unfold Decimal.text
  by_cases h : x.mantissa < 0
  · rw [if_pos h]
    exact ⟨'-', _, rfl, Or.inr rfl⟩
  · rw [if_neg h, List.nil_append]
    obtain ⟨c, cs, hc, hd⟩ := @head_layout (Nat.toDigits 10 x.mantissa.natAbs) x.exponent
      Nat.length_toDigits_pos (fun c hc => isDigit_of_mem_digits hc)
    exact ⟨c, cs, hc, Or.inl hd⟩

/-- The characters that a printed number starts with start no other value. -/
theorem number_start {c : Char} (h : c.isDigit ∨ c = '-') :
    isWhiteSpace c = false ∧ c ≠ 'n' ∧ c ≠ 't' ∧ c ≠ 'f' ∧ c ≠ '"' ∧ c ≠ '[' ∧ c ≠ '{' ∧ c ≠ ']' := by
  have hne : ∀ d : Char, d.isDigit = false → d ≠ '-' → c ≠ d := by
    rintro d hd hm rfl
    rcases h with h | h
    · rw [hd] at h; cases h
    · exact hm h
  have hspace : isWhiteSpace c = false := by
    unfold isWhiteSpace
    simp only [hne ' ' (by decide) (by decide), hne '\t' (by decide) (by decide),
      hne '\n' (by decide) (by decide), hne '\r' (by decide) (by decide), or_self, decide_false]
  refine ⟨hspace, ?_, ?_, ?_, ?_, ?_, ?_, ?_⟩ <;> exact hne _ (by decide) (by decide)

/-- A printed value starts neither with white space nor with a closing bracket. -/
theorem head_chars (j : Json) : ∃ c cs, j.chars = c :: cs ∧ isWhiteSpace c = false ∧ c ≠ ']' := by
  cases j with
  | null => exact ⟨'n', _, rfl, by decide⟩
  | bool b => cases b <;> exact ⟨_, _, rfl, by decide⟩
  | number n =>
    obtain ⟨c, cs, hc, hd⟩ := head_text n
    obtain ⟨hs, -, -, -, -, -, -, hb⟩ := number_start hd
    exact ⟨c, cs, hc, hs, hb⟩
  | string s => exact ⟨'"', _, rfl, by decide⟩
  | array items => cases items <;> exact ⟨'[', _, rfl, by decide⟩
  | object fields => cases fields <;> exact ⟨'{', _, rfl, by decide⟩

theorem readWord_append {word : List Char} {value : Json} (rest : List Char) :
    readWord word value (word ++ rest) = some (value, rest) := by
  unfold readWord
  rw [if_pos (List.prefix_append _ _), List.drop_left]

theorem readValue_number (n : Decimal) (fuel : ℕ) {rest : List Char} (hr : EndsNumber rest) :
    readValue (fuel + 1) (n.text ++ rest) = some (.number n, rest) := by
  obtain ⟨c, cs, hc, hd⟩ := head_text n
  obtain ⟨hs, h1, h2, h3, h4, h5, h6, -⟩ := number_start hd
  have hread := readNumber_text n hr
  rw [hc, List.cons_append] at hread ⊢
  unfold readValue
  rw [skip_cons hs]
  simp only [h1, h2, h3, h4, h5, h6, if_false, hread, Option.map_some]

theorem readValue_string (s : String) (fuel : ℕ) (rest : List Char) :
    readValue (fuel + 1) (quote s ++ rest) = some (.string s, rest) := by
  have hq : quote s ++ rest = '"' :: (s.toList.flatMap escape ++ '"' :: rest) := by
    simp [quote]
  rw [hq]
  unfold readValue
  rw [skip_cons (by decide)]
  simp only [if_true, readString_quoted, Option.map_some]
  rfl

theorem readValue_word {word : List Char} {value : Json} {c : Char} {cs : List Char}
    (hword : word = c :: cs) (hc : (c = 'n' ∧ word = "null".toList ∧ value = .null) ∨
      (c = 't' ∧ word = "true".toList ∧ value = .bool true) ∨
      (c = 'f' ∧ word = "false".toList ∧ value = .bool false)) (fuel : ℕ) (rest : List Char) :
    readValue (fuel + 1) (word ++ rest) = some (value, rest) := by
  have happend := @readWord_append word value rest
  subst hword
  rw [List.cons_append] at happend ⊢
  unfold readValue
  rcases hc with ⟨rfl, hw, rfl⟩ | ⟨rfl, hw, rfl⟩ | ⟨rfl, hw, rfl⟩ <;> rw [skip_cons (by decide)] <;>
    rw [hw] at happend
  · exact happend
  · exact happend
  · exact happend

/-- After an opening bracket, the items that were printed. -/
theorem readValue_array {item : Json} {items : List Json} {fuel : ℕ} {rest : List Char}
    (h : readItems fuel (item.chars ++ Json.itemsChars items ++ rest) = some (item :: items, rest)) :
    readValue (fuel + 1) ((Json.array (item :: items)).chars ++ rest) =
      some (.array (item :: items), rest) := by
  obtain ⟨c, cs, hc, hs, hb⟩ := head_chars item
  have hchars : (Json.array (item :: items)).chars ++ rest =
      '[' :: (item.chars ++ Json.itemsChars items ++ rest) := rfl
  have hhead : (skip (item.chars ++ Json.itemsChars items ++ rest)).head? ≠ some ']' := by
    rw [hc, List.cons_append, List.cons_append, skip_cons hs, List.head?_cons]
    exact fun he => hb (Option.some.inj he)
  rw [hchars]
  unfold readValue
  rw [skip_cons (by decide)]
  simp only [if_false, if_true, hhead, h, Option.map_some, show ('[' : Char) ≠ 'n' by decide,
    show ('[' : Char) ≠ 't' by decide, show ('[' : Char) ≠ 'f' by decide,
    show ('[' : Char) ≠ '"' by decide]

theorem readValue_object {f : String × Json} {fields read : Fields} {fuel : ℕ} {rest : List Char}
    (h : readFields fuel [] (quote f.1 ++ ':' :: (f.2.chars ++ Json.fieldsChars fields ++ rest)) =
      some (read, rest)) :
    readValue (fuel + 1) ((Json.object (f :: fields)).chars ++ rest) = some (.object read, rest) := by
  have hchars : (Json.object (f :: fields)).chars ++ rest =
      '{' :: (quote f.1 ++ ':' :: (f.2.chars ++ Json.fieldsChars fields ++ rest)) := by
    simp [Json.chars]
  have hhead : (skip (quote f.1 ++ ':' :: (f.2.chars ++ Json.fieldsChars fields ++ rest))).head? ≠
      some '}' := by
    unfold quote
    rw [List.cons_append, List.cons_append, skip_cons (by decide), List.head?_cons]
    decide
  rw [hchars]
  unfold readValue
  rw [skip_cons (by decide)]
  simp only [if_false, if_true, hhead, h, Option.map_some, show ('{' : Char) ≠ 'n' by decide,
    show ('{' : Char) ≠ 't' by decide, show ('{' : Char) ≠ 'f' by decide,
    show ('{' : Char) ≠ '"' by decide, show ('{' : Char) ≠ '[' by decide]

/-- One item, then the others. -/
theorem readItems_step {item : Json} {items : List Json} {fuel : ℕ} {rest : List Char}
    (hitem : readValue fuel (item.chars ++ (Json.itemsChars items ++ rest)) =
      some (item, Json.itemsChars items ++ rest))
    (hitems : ∀ next more, items = next :: more →
      readItems fuel (next.chars ++ Json.itemsChars more ++ rest) = some (items, rest)) :
    readItems (fuel + 1) (item.chars ++ Json.itemsChars items ++ rest) = some (item :: items, rest) := by
  rw [List.append_assoc]
  unfold readItems
  simp only [hitem, Option.bind_eq_bind, Option.bind_some]
  cases items with
  | nil =>
    rw [show Json.itemsChars [] ++ rest = ']' :: rest from rfl, skip_cons (by decide)]
    simp only [if_true, if_false, show (']' : Char) ≠ ',' by decide]
  | cons next more =>
    rw [show Json.itemsChars (next :: more) ++ rest =
      ',' :: (next.chars ++ Json.itemsChars more ++ rest) from rfl, skip_cons (by decide)]
    simp only [if_true, hitems next more rfl, Option.map_some]

/-- One field, then the others. -/
theorem readFields_step {key : String} {value : Json} {fields acc : Fields} {fuel : ℕ}
    {rest : List Char}
    (hvalue : readValue fuel (value.chars ++ (Json.fieldsChars fields ++ rest)) =
      some (value, Json.fieldsChars fields ++ rest))
    (hfields : ∀ f more, fields = f :: more →
      readFields fuel (putField acc key value)
          (quote f.1 ++ ':' :: (f.2.chars ++ Json.fieldsChars more ++ rest)) =
        some (fields.foldl (fun o f => putField o f.1 f.2) (putField acc key value), rest)) :
    readFields (fuel + 1) acc
        (quote key ++ ':' :: (value.chars ++ Json.fieldsChars fields ++ rest)) =
      some (((key, value) :: fields).foldl (fun o f => putField o f.1 f.2) acc, rest) := by
  have hquote : quote key ++ ':' :: (value.chars ++ Json.fieldsChars fields ++ rest) =
      '"' :: (key.toList.flatMap escape ++
        '"' :: ':' :: (value.chars ++ (Json.fieldsChars fields ++ rest))) := by
    simp [quote]
  rw [hquote]
  unfold readFields
  rw [skip_cons (by decide)]
  simp only [List.head?_cons, List.tail_cons, ne_eq, not_true, if_false, readString_quoted,
    Option.bind_eq_bind, Option.bind_some]
  rw [skip_cons (by decide)]
  simp only [List.head?_cons, List.tail_cons, not_true, if_false, hvalue, Option.bind_some,
    List.foldl_cons]
  cases fields with
  | nil =>
    rw [show Json.fieldsChars [] ++ rest = '}' :: rest from rfl, skip_cons (by decide)]
    simp only [if_true, if_false, show ('}' : Char) ≠ ',' by decide, List.foldl_nil]
  | cons f more =>
    have hnext : Json.fieldsChars (f :: more) ++ rest =
        ',' :: (quote f.1 ++ ':' :: (f.2.chars ++ Json.fieldsChars more ++ rest)) := by
      simp [Json.fieldsChars]
    rw [hnext, skip_cons (by decide)]
    simp only [if_true, hfields f more rfl]

namespace Json

theorem length_chars_pos (j : Json) : 0 < j.chars.length := by
  obtain ⟨c, cs, hc, -⟩ := head_chars j
  rw [hc]
  exact Nat.succ_pos _

/-- The reader gets printed values of a length back. -/
def ReadsValues (fuel : ℕ) : Prop :=
  ∀ j : Json, j.Ordered → j.chars.length ≤ fuel → ∀ rest, EndsNumber rest →
    readValue fuel (j.chars ++ rest) = some (j, rest)

def ReadsItems (fuel : ℕ) : Prop :=
  ∀ item items, itemsOrdered (item :: items) → (item.chars ++ itemsChars items).length ≤ fuel →
    ∀ rest, readItems fuel (item.chars ++ itemsChars items ++ rest) = some (item :: items, rest)

def ReadsFields (fuel : ℕ) : Prop :=
  ∀ f fields, fieldsOrdered (f :: fields) →
    (quote f.1 ++ ':' :: (f.2.chars ++ fieldsChars fields)).length ≤ fuel → ∀ acc rest,
      readFields fuel acc (quote f.1 ++ ':' :: (f.2.chars ++ fieldsChars fields ++ rest)) =
        some ((f :: fields).foldl (fun o f => putField o f.1 f.2) acc, rest)

variable {fuel : ℕ}

theorem readsValues_succ (hitems : ReadsItems fuel) (hfields : ReadsFields fuel) :
    ReadsValues (fuel + 1) := by
  intro j h hf rest hr
  cases j with
  | null => exact readValue_word rfl (Or.inl ⟨rfl, rfl, rfl⟩) fuel rest
  | bool b =>
    cases b with
    | true => exact readValue_word rfl (Or.inr (Or.inl ⟨rfl, rfl, rfl⟩)) fuel rest
    | false => exact readValue_word rfl (Or.inr (Or.inr ⟨rfl, rfl, rfl⟩)) fuel rest
  | number n => exact readValue_number n fuel hr
  | string s => exact readValue_string s fuel rest
  | array items =>
    cases items with
    | nil =>
      rw [show (array []).chars ++ rest = '[' :: ']' :: rest from rfl]
      unfold readValue
      rw [skip_cons (by decide)]
      rfl
    | cons item items =>
      refine readValue_array (hitems item items h ?_ rest)
      simp only [chars, List.length_cons] at hf
      omega
  | object fields =>
    cases fields with
    | nil =>
      rw [show (object []).chars ++ rest = '{' :: '}' :: rest from rfl]
      unfold readValue
      rw [skip_cons (by decide)]
      rfl
    | cons f fields =>
      have hread := hfields f fields h.1 (by simp only [chars, List.length_cons] at hf; omega) [] rest
      rw [h.2] at hread
      exact readValue_object hread

theorem readsItems_succ (hvalues : ReadsValues fuel) (hitems : ReadsItems fuel) :
    ReadsItems (fuel + 1) := by
  intro item items h hf rest
  rw [List.length_append] at hf
  obtain ⟨c, cs, hc, -⟩ := itemsChars_cons items
  have hlen : 0 < (itemsChars items).length := by rw [hc]; exact Nat.succ_pos _
  have hpos := length_chars_pos item
  refine readItems_step (hvalues item h.1 (by omega) _ (endsNumber_itemsChars _ _)) ?_
  rintro next more rfl
  refine hitems next more h.2 ?_ rest
  simp only [itemsChars, List.length_cons] at hf
  omega

theorem readsFields_succ (hvalues : ReadsValues fuel) (hfields : ReadsFields fuel) :
    ReadsFields (fuel + 1) := by
  intro f fields h hf acc rest
  simp only [List.length_append, List.length_cons] at hf
  refine readFields_step (hvalues f.2 h.1 (by omega) _ (endsNumber_fieldsChars _ _)) ?_
  rintro g more rfl
  refine hfields g more h.2 ?_ _ rest
  simp only [fieldsChars, List.length_cons, List.length_append] at hf ⊢
  omega

theorem reads (fuel : ℕ) : ReadsValues fuel ∧ ReadsItems fuel ∧ ReadsFields fuel := by
  induction fuel with
  | zero =>
    refine ⟨fun j _ hf => ?_, fun item items _ hf => ?_, fun f fields _ hf => ?_⟩
    · have := length_chars_pos j
      omega
    · have := length_chars_pos item
      rw [List.length_append] at hf
      omega
    · simp at hf
  | succ fuel ih =>
    obtain ⟨hvalues, hitems, hfields⟩ := ih
    exact ⟨readsValues_succ hitems hfields, readsItems_succ hvalues hitems,
      readsFields_succ hvalues hfields⟩

/-- **Round trip.** Parsing a printed value gives the value. -/
theorem parse_stringify {j : Json} (h : j.Ordered) : parse j.stringify = some j := by
  have hread := (reads (j.chars.length + 1)).1 j h (Nat.le_succ _) [] endsNumber_nil
  unfold parse stringify
  rw [String.toList_ofList]
  rw [List.append_nil] at hread
  rw [hread]
  rfl

/-- Printing tells ordered values apart. -/
theorem stringify_injective {j k : Json} (hj : j.Ordered) (hk : k.Ordered)
    (h : j.stringify = k.stringify) : j = k :=
  Option.some.inj (by rw [← parse_stringify hj, h, parse_stringify hk])

end Json

/-! ### Objects with ordinary keys -/

theorem addField_last {fields : Fields} {key : String} (value : Json)
    (h : arrayIndex? key = none) : addField key value fields = fields ++ [(key, value)] := by
  induction fields with
  | nil => rfl
  | cons f fields ih =>
    unfold addField precedes
    rw [h]
    simp [ih]

/-- Distinct keys that are not array indices are listed as they were assigned. -/
theorem foldl_putField {fields acc : Fields} (hkeys : ∀ f ∈ fields, arrayIndex? f.1 = none)
    (hnodup : ((acc ++ fields).map (·.1)).Nodup) :
    fields.foldl (fun o f => putField o f.1 f.2) acc = acc ++ fields := by
  induction fields generalizing acc with
  | nil => simp
  | cons f fields ih =>
    have hnew : acc.any (fun g => g.1 = f.1) = false := by
      rw [List.any_eq_false]
      intro g hg
      simp only [decide_eq_true_eq]
      intro he
      rw [List.map_append, List.map_cons] at hnodup
      have := (List.nodup_append.mp hnodup).2.2 g.1 (List.mem_map_of_mem hg) f.1 List.mem_cons_self
      exact this he
    have hput : putField acc f.1 f.2 = acc ++ [f] := by
      unfold putField
      rw [hnew, if_neg Bool.false_ne_true, addField_last f.2 (hkeys f List.mem_cons_self)]
    rw [List.foldl_cons, hput, ih (fun g hg => hkeys g (List.mem_cons_of_mem _ hg)) (by simpa using hnodup)]
    simp

/-- Distinct keys, none an array index. -/
def OrdinaryKeys (keys : List String) : Prop := (∀ k ∈ keys, arrayIndex? k = none) ∧ keys.Nodup

instance (keys : List String) : Decidable (OrdinaryKeys keys) := by
  unfold OrdinaryKeys
  infer_instance

/-- An object with ordinary keys is ordered when its values are. -/
theorem Json.ordered_object (keys : List String) {fields : Fields} (hkeys : fields.map (·.1) = keys)
    (h : OrdinaryKeys keys) (hvalues : Json.fieldsOrdered fields) : (Json.object fields).Ordered := by
  subst hkeys
  refine ⟨hvalues, ?_⟩
  simpa using @foldl_putField fields [] (fun f hf => h.1 _ (List.mem_map_of_mem hf)) (by simpa using h.2)

theorem Json.itemsOrdered_iff {items : List Json} :
    Json.itemsOrdered items ↔ ∀ j ∈ items, j.Ordered := by
  induction items with
  | nil => exact ⟨fun _ _ h => absurd h List.not_mem_nil, fun _ => trivial⟩
  | cons item items ih =>
    show item.Ordered ∧ Json.itemsOrdered items ↔ _
    rw [ih, List.forall_mem_cons]

theorem Json.ordered_single {key : String} {value : Json} (hkey : arrayIndex? key = none)
    (h : value.Ordered) : (Json.object [(key, value)]).Ordered := by
  refine Json.ordered_object [key] rfl ⟨?_, ?_⟩ ⟨h, trivial⟩
  · exact List.forall_mem_singleton.mpr hkey
  · exact List.nodup_cons.mpr ⟨List.not_mem_nil, List.nodup_nil⟩

end Js
