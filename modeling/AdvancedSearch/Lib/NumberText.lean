import AdvancedSearch.Lib.JsonParse
import AdvancedSearch.Lib.Number
import AdvancedSearch.Lib.PercentEncoding
import AdvancedSearch.Lib.Text

/-!
# Numbers from texts

`Number(text)` of a string: a decimal literal with an optional sign, `Infinity`, or an unsigned integer
in base 2, 8 or 16, with white space around it; nothing at all is zero.
-/

namespace Js

/-- A decimal literal without its sign. -/
def readDecimal (cs : List Char) : Option ℚ :=
  let (int, cs) := readDigits cs
  let (fraction, cs) := match cs with
    | '.' :: cs => readDigits cs
    | cs => ([], cs)
  match readExponent cs with
  | some (e, []) =>
    if int ++ fraction = [] then none
    else some (Nat.ofDigitChars 10 (int ++ fraction) 0 * 10 ^ (e - fraction.length))
  | _ => none

/-- The digits of an integer in a base, at least one. -/
def readBase (base : ℕ) (digits : List Char) : Option ℕ :=
  if digits = [] then none
  else
    (digits.mapM fun c => (hexValue c).filter (· < base)).map fun ds =>
      ds.foldl (fun n d => n * base + d) 0

namespace Number

/-- A literal without a base, its sign read. -/
def ofSigned (neg : Bool) (cs : List Char) : Number :=
  if cs = "Infinity".toList then infinity neg
  else
    match readDecimal cs with
    | some q => ofRat (if neg then -q else q)
    | none => nan

/-- An integer with a base. -/
def ofBase (base : ℕ) (digits : List Char) : Number :=
  match readBase base digits with
  | some n => ofRat n
  | none => nan

/-- `Number(text)`. -/
def ofText (text : String) : Number :=
  match (trim text).toList with
  | [] => ofRat 0
  | '+' :: cs => ofSigned false cs
  | '-' :: cs => ofSigned true cs
  | '0' :: c :: cs =>
    if c = 'x' ∨ c = 'X' then ofBase 16 cs
    else if c = 'o' ∨ c = 'O' then ofBase 8 cs
    else if c = 'b' ∨ c = 'B' then ofBase 2 cs
    else ofSigned false ('0' :: c :: cs)
  | cs => ofSigned false cs

/-- A finite number is written as a literal. -/
theorem readNumber_finite (x : Double) :
    readNumber (finite x).text.toList = some (shortestDecimal x.value, []) := by
  have h := readNumber_text (shortestDecimal x.value) endsNumber_nil
  rw [List.append_nil] at h
  rw [text, String.toList_ofList]
  exact h

/-- What is not finite is written as a word. -/
theorem text_ne_finite {x : Number} (hx : x.isFinite = false) (y : Double) : x.text ≠ (finite y).text := by
  intro h
  have hword : readNumber x.text.toList = none := by
    rcases x with _ | (_ | _) | _
    · decide
    · decide
    · decide
    · cases hx
  rw [h, readNumber_finite] at hword
  cases hword

/-- The text of a number determines it. -/
theorem text_injective {x y : Number} (h : x.text = y.text) : x = y := by
  cases x with
  | finite d =>
    cases y with
    | finite e =>
      have hread := readNumber_finite d
      rw [h, readNumber_finite, Option.some.injEq, Prod.mk.injEq] at hread
      rw [← ofDecimal_shortestDecimal d, ← hread.1, ofDecimal_shortestDecimal]
    | nan => exact absurd h.symm (text_ne_finite rfl d)
    | infinity => exact absurd h.symm (text_ne_finite rfl d)
  | nan =>
    rcases y with _ | (_ | _) | e
    · rfl
    · exact absurd h (by decide)
    · exact absurd h (by decide)
    · exact absurd h (text_ne_finite rfl e)
  | infinity neg =>
    rcases y with _ | neg' | e
    · cases neg <;> exact absurd h (by decide)
    · cases neg <;> cases neg' <;> first | rfl | exact absurd h (by decide)
    · exact absurd h (text_ne_finite rfl e)

/-- White space is zero. -/
theorem ofText_of_blank {text : String} (h : trim text = "") : ofText text = ofRat 0 := by
  unfold ofText
  rw [h]
  rfl

/-! ## Reading what was written -/

theorem fraction_of_no_point (cs : List Char) :
    (match cs with
      | '.' :: cs => readDigits cs
      | cs => ([], cs)) = ([], cs) ∨ ∃ rest, cs = '.' :: rest := by
  split
  · exact Or.inr ⟨_, rfl⟩
  · exact Or.inl rfl

/-- What digits, a fraction and the rest come to. -/
def decimalOf (int : List Char) (parts : List Char × List Char) : Option ℚ :=
  match readExponent parts.2 with
  | some (e, []) =>
    if int ++ parts.1 = [] then none
    else some (Nat.ofDigitChars 10 (int ++ parts.1) 0 * 10 ^ (e - parts.1.length))
  | _ => none

theorem readDecimal_point {cs int digits : List Char} (h : readDigits cs = (int, '.' :: digits)) :
    readDecimal cs = decimalOf int (readDigits digits) := by
  unfold readDecimal
  rw [h]
  rfl

theorem readDecimal_no_point {cs int rest : List Char} (h : readDigits cs = (int, rest))
    (hdot : ∀ digits, rest ≠ '.' :: digits) : readDecimal cs = decimalOf int ([], rest) := by
  have hplain := (fraction_of_no_point rest).resolve_right fun ⟨digits, heq⟩ => hdot digits heq
  unfold readDecimal
  rw [h]
  dsimp only
  rw [hplain]
  rfl

/-- Digits, a fraction and an exponent are read as they are of the JSON grammar. -/
theorem readDecimal_parts {cs int rest fraction rest' : List Char} {e : ℤ}
    (hdigits : readDigits cs = (int, rest)) (hfraction : readFraction rest = some (fraction, rest'))
    (hexponent : readExponent rest' = some (e, [])) (hne : int ++ fraction ≠ []) :
    readDecimal cs =
      some (((Nat.ofDigitChars 10 (int ++ fraction) 0 : ℕ) : ℚ) * 10 ^ (e - fraction.length)) := by
  have hvalue : decimalOf int (fraction, rest') =
      some (((Nat.ofDigitChars 10 (int ++ fraction) 0 : ℕ) : ℚ) * 10 ^ (e - fraction.length)) := by
    unfold decimalOf
    rw [hexponent]
    exact if_neg hne
  rw [← hvalue]
  by_cases hpoint : ∃ digits, rest = '.' :: digits
  · obtain ⟨digits, hrest⟩ := hpoint
    rw [hrest] at hdigits hfraction
    rw [readDecimal_point hdigits]
    have hread : (if (readDigits digits).1 = [] then none else some (readDigits digits)) =
        some (fraction, rest') := hfraction
    split_ifs at hread
    rw [Option.some.inj hread]
  · have hdot : ∀ digits, rest ≠ '.' :: digits := fun digits heq => hpoint ⟨digits, heq⟩
    rw [readDecimal_no_point hdigits hdot]
    unfold readFraction at hfraction
    split at hfraction
    · exact absurd rfl (hdot _)
    · rw [Option.some.inj hfraction]

/-- A literal of the JSON grammar is read as the decimal it is. -/
theorem readDecimal_of_readUnsigned {neg : Bool} {cs : List Char} {x : Decimal}
    (h : readUnsigned neg cs = some (x, [])) :
    ∃ (m : ℕ) (e : ℤ), readDecimal cs = some ((m : ℚ) * 10 ^ e) ∧ x = Decimal.ofScaled neg m e := by
  unfold readUnsigned at h
  dsimp only at h
  split at h
  · cases h
  rename_i hint
  obtain ⟨⟨fraction, cs'⟩, hfraction, h⟩ := Option.bind_eq_some_iff.mp h
  obtain ⟨⟨e, cs''⟩, hexponent, h⟩ := Option.bind_eq_some_iff.mp h
  cases h
  exact ⟨_, _, readDecimal_parts rfl hfraction hexponent
    fun hnil => hint (Or.inl (List.append_eq_nil_iff.mp hnil).1), rfl⟩

/-- What follows its sign is read with it. -/
theorem ofSigned_of_readUnsigned {neg : Bool} {cs : List Char} {x : Decimal}
    (h : readUnsigned neg cs = some (x, [])) : ofSigned neg cs = ofDecimal x := by
  have hword : cs ≠ "Infinity".toList := by
    rintro rfl
    have hnone : readUnsigned neg "Infinity".toList = none := by cases neg <;> decide
    rw [hnone] at h
    cases h
  obtain ⟨m, e, hread, rfl⟩ := readDecimal_of_readUnsigned h
  unfold ofSigned ofDecimal
  rw [if_neg hword, hread]
  dsimp only
  rw [ofScaled_value]
  cases neg <;> simp

/-- The character after a zero that begins a literal is not that of a base. -/
theorem not_base_of_readUnsigned {neg : Bool} {c : Char} {cs : List Char} {x : Decimal}
    (h : readUnsigned neg ('0' :: c :: cs) = some (x, [])) :
    ¬ (c = 'x' ∨ c = 'X') ∧ ¬ (c = 'o' ∨ c = 'O') ∧ ¬ (c = 'b' ∨ c = 'B') := by
  have hstuck : c.isDigit = false → c ≠ '.' → c ≠ 'e' → c ≠ 'E' → False := by
    intro hdigit hdot he hE
    have hzero : ∀ d ∈ ['0'], d.isDigit := fun d hd => by
      rw [List.mem_singleton.mp hd]
      rfl
    have hread : readDigits ('0' :: c :: cs) = (['0'], c :: cs) :=
      @readDigits_append ['0'] (c :: cs) hzero fun d ds heq => (List.cons.inj heq).1 ▸ hdigit
    have hfraction : readFraction (c :: cs) = some ([], c :: cs) := by
      unfold readFraction
      split
      · rename_i heq
        exact absurd (List.cons.inj heq).1 hdot
      · rfl
    have hexponent : readExponent (c :: cs) = some (0, c :: cs) := by
      unfold readExponent
      split
      · rename_i heq
        exact absurd (List.cons.inj heq).1 he
      · rename_i heq
        exact absurd (List.cons.inj heq).1 hE
      · rfl
    unfold readUnsigned at h
    rw [hread] at h
    simp [hfraction, hexponent] at h
  refine ⟨?_, ?_, ?_⟩ <;> rintro (rfl | rfl) <;>
    exact hstuck (by decide) (by decide) (by decide) (by decide)

theorem isTrimmed_of_isDigit {c : Char} (h : c.isDigit) : isTrimmed c = false := by
  have hrange := Char.isDigit_iff_toNat.mp h
  by_contra hblank
  have := toNat_of_isTrimmed (eq_true_of_ne_false hblank)
  simp at hrange
  omega

/-- The characters of a literal are no white space. -/
theorem isTrimmed_of_mem_layout {ds : List Char} {e : ℤ} (hd : ∀ c ∈ ds, c.isDigit) {c : Char}
    (h : c ∈ Decimal.layout ds e) : isTrimmed c = false := by
  have hzeros : ∀ {n : ℕ}, c ∈ List.replicate n '0' → isTrimmed c = false := by
    intro n hc
    rw [List.eq_of_mem_replicate hc]
    decide
  have hdigits : ∀ {cs : List Char}, cs ⊆ ds → c ∈ cs → isTrimmed c = false := fun hcs hc =>
    isTrimmed_of_isDigit (hd c (hcs hc))
  have hexponent : ∀ {n : ℕ}, c ∈ Nat.toDigits 10 n → isTrimmed c = false := fun hc =>
    isTrimmed_of_isDigit (isDigit_of_mem_digits hc)
  unfold Decimal.layout at h
  dsimp only at h
  split_ifs at h <;> simp only [List.mem_append, List.mem_cons, List.not_mem_nil, or_false] at h
  · exact h.elim (hdigits (List.Subset.refl ds)) hzeros
  · rcases h with h | rfl | h
    · exact hdigits (List.take_subset _ _) h
    · decide
    · exact hdigits (List.drop_subset _ _) h
  · rcases h with rfl | rfl | h | h
    · decide
    · decide
    · exact hzeros h
    · exact hdigits (List.Subset.refl ds) h
  · rcases h with h | rfl | rfl | h
    · exact hdigits (List.take_subset _ _) h
    · decide
    · decide
    · exact hexponent h
  · rcases h with h | rfl | rfl | h
    · exact hdigits (List.take_subset _ _) h
    · decide
    · decide
    · exact hexponent h
  · rcases h with (h | rfl | h) | rfl | rfl | h
    · exact hdigits (List.take_subset _ _) h
    · decide
    · exact hdigits (List.drop_subset _ _) h
    · decide
    · decide
    · exact hexponent h
  · rcases h with (h | rfl | h) | rfl | rfl | h
    · exact hdigits (List.take_subset _ _) h
    · decide
    · exact hdigits (List.drop_subset _ _) h
    · decide
    · decide
    · exact hexponent h

theorem trim_text (x : Double) : trim (finite x).text = (finite x).text := by
  have hplain : ∀ c ∈ (finite x).text.toList, isTrimmed c = false := by
    intro c hc
    rw [text, String.toList_ofList, Decimal.text] at hc
    rcases List.mem_append.mp hc with hc | hc
    · split_ifs at hc
      · rw [List.mem_singleton.mp hc]
        decide
      · cases hc
    · exact isTrimmed_of_mem_layout (fun c hc => isDigit_of_mem_digits hc) hc
  have h := @trim_surrounded "" (finite x).text "" rfl hplain rfl
  simpa using h

/-- **Round trip.** `Number(String(x))` is `x`, for a finite `x`. -/
theorem ofText_text (x : Double) : ofText (finite x).text = finite x := by
  have hread := readNumber_finite x
  unfold ofText
  rw [trim_text]
  generalize (finite x).text.toList = cs at hread
  unfold readNumber at hread
  split at hread
  · rename_i rest
    show ofSigned true rest = _
    rw [ofSigned_of_readUnsigned hread, ofDecimal_shortestDecimal]
  · rename_i hneg
    have hsigned : ofSigned false cs = finite x := by
      rw [ofSigned_of_readUnsigned hread, ofDecimal_shortestDecimal]
    split
    · cases hread
    · rename_i rest
      exact absurd hread (by simp [readUnsigned, readDigits])
    · exact absurd rfl (hneg _)
    · rename_i c rest
      obtain ⟨hx, ho, hb⟩ := not_base_of_readUnsigned hread
      rw [if_neg hx, if_neg ho, if_neg hb]
      exact hsigned
    · exact hsigned

end Number

example : Number.ofText " 12.50 " = .ofRat (25 / 2) ∧ Number.ofText "0x1F" = .ofRat 31 ∧
    Number.ofText "1e3" = .ofRat 1000 ∧ Number.ofText "12a" = .nan := by decide +kernel

end Js
