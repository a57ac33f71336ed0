import Mathlib.Data.Nat.Init
import Mathlib.Data.List.Basic
import Mathlib.Tactic.NormNum
import Mathlib.Tactic.IntervalCases
import Mathlib.Tactic.Ring

/-!
# Numbers as decimals

A finite JavaScript number is determined by the shortest decimal that reads back to it, which is
also what it prints. `Decimal` is that decimal, `mantissa * 10 ^ exponent` with no trailing zero in
the mantissa. `Decimal.text` lays the digits out as `Number::toString` does, in its four shapes, and
`readNumber` reads the JSON number grammar. `readNumber_text`: reading undoes printing.
-/

namespace Js

/-- A finite number: `mantissa * 10 ^ exponent`, the mantissa not ending in zero. -/
structure Decimal where
  mantissa : ℤ
  exponent : ℤ
  normal : mantissa % 10 ≠ 0 ∨ (mantissa = 0 ∧ exponent = 0)
  deriving DecidableEq

namespace Decimal

@[ext] theorem ext {x y : Decimal} (hm : x.mantissa = y.mantissa) (he : x.exponent = y.exponent) :
    x = y := by
  cases x; cases y; cases hm; cases he; rfl

instance : Zero Decimal := ⟨⟨0, 0, Or.inr ⟨rfl, rfl⟩⟩⟩

/-! ## Normal form -/

/-- Moves trailing zeros from the mantissa to the exponent. -/
def strip : ℕ → ℕ → ℤ → ℕ × ℤ
  | 0, m, e => (m, e)
  | fuel + 1, m, e => if m % 10 = 0 then strip fuel (m / 10) (e + 1) else (m, e)

/-- What stripping gives: all the zeros and nothing else. -/
theorem strip_eq {m j fuel : ℕ} (hm : m % 10 ≠ 0) (hf : m * 10 ^ j ≤ fuel) (e : ℤ) :
    strip fuel (m * 10 ^ j) e = (m, e + j) := by
  have hpos : 0 < m := by omega
  induction j generalizing fuel e with
  | zero =>
    rw [pow_zero, Nat.mul_one, Nat.cast_zero, add_zero]
    cases fuel with
    | zero => rfl
    | succ fuel => rw [strip, if_neg hm]
  | succ j ih =>
    have hsplit : m * 10 ^ (j + 1) = 10 * (m * 10 ^ j) := by ring
    have hp : 0 < m * 10 ^ j := Nat.mul_pos hpos (by positivity)
    rw [hsplit] at hf ⊢
    obtain ⟨fuel, rfl⟩ : ∃ k, fuel = k + 1 := ⟨fuel - 1, by omega⟩
    rw [strip, if_pos (Nat.mul_mod_right 10 _), Nat.mul_div_cancel_left _ (by norm_num),
      ih (by omega), Nat.cast_succ]
    congr 1
    ring

theorem exists_strip {m : ℕ} (h : m ≠ 0) : ∃ m' j, m' % 10 ≠ 0 ∧ m = m' * 10 ^ j := by
  induction m using Nat.strong_induction_on with
  | _ m ih =>
    by_cases h10 : m % 10 = 0
    · obtain ⟨m', j, hm', hj⟩ := ih (m / 10) (by omega) (by omega)
      refine ⟨m', j + 1, hm', ?_⟩
      calc m = m / 10 * 10 := by omega
        _ = m' * 10 ^ (j + 1) := by rw [hj]; ring
    · exact ⟨m, 0, h10, by simp⟩

theorem strip_normal {m : ℕ} (h : m ≠ 0) (e : ℤ) : (strip m m e).1 % 10 ≠ 0 := by
  obtain ⟨m', j, hm', hj⟩ := exists_strip h
  have := strip_eq hm' (le_of_eq hj.symm) e
  rw [← hj] at this
  rw [this]
  exact hm'

/-- The number `± m * 10 ^ e`. -/
def ofScaled (neg : Bool) (m : ℕ) (e : ℤ) : Decimal :=
  if h : m = 0 then 0
  else
    { mantissa := if neg then -((strip m m e).1 : ℤ) else (strip m m e).1
      exponent := (strip m m e).2
      normal := Or.inl (by have := strip_normal h e; split_ifs <;> omega) }

/-- A natural number. -/
def ofNat (n : ℕ) : Decimal := ofScaled false n 0

/-- Any scaling of a number's own digits gives the number back. -/
theorem ofScaled_self (x : Decimal) (j : ℕ) :
    ofScaled (decide (x.mantissa < 0)) (x.mantissa.natAbs * 10 ^ j) (x.exponent - j) = x := by
  unfold ofScaled
  by_cases h0 : x.mantissa = 0
  · have he : x.exponent = 0 := by
      rcases x.normal with h | h
      · exact absurd (by simp [h0]) h
      · exact h.2
    rw [dif_pos (by simp [h0])]
    exact ext h0.symm he.symm
  · have hm : x.mantissa.natAbs % 10 ≠ 0 := by
      rcases x.normal with h | h
      · omega
      · exact absurd h.1 h0
    have hne : x.mantissa.natAbs * 10 ^ j ≠ 0 := by
      have : 0 < x.mantissa.natAbs := by omega
      positivity
    rw [dif_neg hne]
    apply ext <;> simp only [strip_eq hm le_rfl, sub_add_cancel]
    by_cases hneg : x.mantissa < 0
    · simp only [hneg, decide_true, if_true]; omega
    · simp only [hneg, decide_false, Bool.false_eq_true, if_false]; omega

/-! ## Printing -/

/-- `Number::toString` of a positive number with these digits and this exponent. -/
def layout (digits : List Char) (e : ℤ) : List Char :=
  let k : ℤ := digits.length
  let n : ℤ := k + e
  if k ≤ n ∧ n ≤ 21 then digits ++ List.replicate e.toNat '0'
  else if 0 < n ∧ n ≤ 21 then digits.take n.toNat ++ '.' :: digits.drop n.toNat
  else if -6 < n ∧ n ≤ 0 then '0' :: '.' :: (List.replicate (-n).toNat '0' ++ digits)
  else
    digits.take 1 ++ (if k = 1 then [] else '.' :: digits.drop 1) ++
      'e' :: (if n - 1 < 0 then '-' else '+') :: Nat.toDigits 10 (n - 1).natAbs

/-- The text of a number. -/
def text (x : Decimal) : List Char :=
  (if x.mantissa < 0 then ['-'] else []) ++ layout (Nat.toDigits 10 x.mantissa.natAbs) x.exponent

end Decimal

/-! ## Reading -/

/-- A run of digits and what follows it. -/
def readDigits (cs : List Char) : List Char × List Char :=
  (cs.takeWhile Char.isDigit, cs.dropWhile Char.isDigit)

/-- The fraction of a number: none, or a point and at least one digit. -/
def readFraction : List Char → Option (List Char × List Char)
  | '.' :: cs => if (readDigits cs).1 = [] then none else some (readDigits cs)
  | cs => some ([], cs)

/-- A sign and at least one digit. -/
def readSigned : List Char → Option (ℤ × List Char)
  | '-' :: cs =>
    if (readDigits cs).1 = [] then none
    else some (-(Nat.ofDigitChars 10 (readDigits cs).1 0 : ℤ), (readDigits cs).2)
  | '+' :: cs =>
    if (readDigits cs).1 = [] then none
    else some ((Nat.ofDigitChars 10 (readDigits cs).1 0 : ℤ), (readDigits cs).2)
  | cs =>
    if (readDigits cs).1 = [] then none
    else some ((Nat.ofDigitChars 10 (readDigits cs).1 0 : ℤ), (readDigits cs).2)

/-- The exponent of a number, zero when there is none. -/
def readExponent : List Char → Option (ℤ × List Char)
  | 'e' :: cs => readSigned cs
  | 'E' :: cs => readSigned cs
  | cs => some (0, cs)

/-- A number without its sign. -/
def readUnsigned (neg : Bool) (cs : List Char) : Option (Decimal × List Char) := do
  let (int, cs) := readDigits cs
  if int = [] ∨ (int.head? = some '0' ∧ int ≠ ['0']) then none
  else
    let (fraction, cs) ← readFraction cs
    let (e, cs) ← readExponent cs
    return (Decimal.ofScaled neg (Nat.ofDigitChars 10 (int ++ fraction) 0) (e - fraction.length), cs)

/-- A number of the JSON grammar, at the front of the text. -/
def readNumber : List Char → Option (Decimal × List Char)
  | '-' :: cs => readUnsigned true cs
  | cs => readUnsigned false cs

/-- What may follow a number: nothing that could belong to it. -/
def EndsNumber (rest : List Char) : Prop :=
  ∀ c cs, rest = c :: cs → c.isDigit = false ∧ c ≠ '.' ∧ c ≠ 'e' ∧ c ≠ 'E'

theorem readDigits_append {ds rest : List Char} (hd : ∀ c ∈ ds, c.isDigit)
    (hr : ∀ c cs, rest = c :: cs → c.isDigit = false) : readDigits (ds ++ rest) = (ds, rest) := by
  unfold readDigits
  rw [List.takeWhile_append_of_pos hd, List.dropWhile_append_of_pos hd]
  cases rest with
  | nil => simp
  | cons c cs =>
    have hc := hr c cs rfl
    rw [List.takeWhile_cons_of_neg (by simp [hc]), List.dropWhile_cons_of_neg (by simp [hc]),
      List.append_nil]

/-! ### Reading undoes printing -/

theorem isDigit_of_mem_digits {n : ℕ} {c : Char} (h : c ∈ Nat.toDigits 10 n) : c.isDigit :=
  Nat.isDigit_of_mem_toDigits (by norm_num) (by norm_num) h

/-- The numeral of a positive number does not start with a zero. -/
theorem head_digits_ne_zero {n : ℕ} (h : n ≠ 0) : (Nat.toDigits 10 n).head? ≠ some '0' := by
  induction n using Nat.strong_induction_on with
  | _ n ih =>
    rw [Nat.toDigits_eq_if (by norm_num)]
    split_ifs with hlt
    · interval_cases n
      · exact absurd rfl h
      all_goals decide
    · have hne : Nat.toDigits 10 (n / 10) ≠ [] := by
        intro he
        have := Nat.length_toDigits_pos (b := 10) (n := n / 10)
        simp [he] at this
      rw [List.head?_append_of_ne_nil _ hne]
      exact ih (n / 10) (by omega) (by omega)

theorem readDigits_of_endsNumber {ds rest : List Char} (hd : ∀ c ∈ ds, c.isDigit)
    (hr : EndsNumber rest) : readDigits (ds ++ rest) = (ds, rest) :=
  readDigits_append hd fun c cs h => (hr c cs h).1

theorem readFraction_of_endsNumber {rest : List Char} (hr : EndsNumber rest) :
    readFraction rest = some ([], rest) := by
  unfold readFraction
  split
  · exact absurd rfl (hr _ _ rfl).2.1
  · rfl

theorem readExponent_of_endsNumber {rest : List Char} (hr : EndsNumber rest) :
    readExponent rest = some (0, rest) := by
  unfold readExponent
  split
  · exact absurd rfl (hr _ _ rfl).2.2.1
  · exact absurd rfl (hr _ _ rfl).2.2.2
  · rfl

theorem readFraction_digits {ds rest : List Char} (hne : ds ≠ []) (hd : ∀ c ∈ ds, c.isDigit)
    (hr : ∀ c cs, rest = c :: cs → c.isDigit = false) :
    readFraction ('.' :: (ds ++ rest)) = some (ds, rest) := by
  have hread := readDigits_append hd hr
  unfold readFraction
  simp only [hread, if_neg hne]

/-- The printed exponent is read back. -/
theorem readExponent_text (z : ℤ) {rest : List Char} (hr : EndsNumber rest) :
    readExponent ('e' :: (if z < 0 then '-' else '+') :: (Nat.toDigits 10 z.natAbs ++ rest)) =
      some (z, rest) := by
  have hread := @readDigits_of_endsNumber (Nat.toDigits 10 z.natAbs) rest
    (fun c hc => isDigit_of_mem_digits hc) hr
  have hne : Nat.toDigits 10 z.natAbs ≠ [] := by
    intro he
    have := Nat.length_toDigits_pos (b := 10) (n := z.natAbs)
    simp [he] at this
  unfold readExponent readSigned
  by_cases hz : z < 0
  · simp only [if_pos hz, hread, hne, if_false, Nat.ofDigitChars_ten_toDigits, Option.some.injEq,
      Prod.mk.injEq, and_true]
    omega
  · simp only [if_neg hz, hread, hne, if_false, Nat.ofDigitChars_ten_toDigits, Option.some.injEq,
      Prod.mk.injEq, and_true]
    omega

/-- Digits, a fraction and an exponent make a number. -/
theorem readUnsigned_parts (neg : Bool) {int fraction tail tail' rest : List Char} {z : ℤ}
    (hne : int ≠ []) (hd : ∀ c ∈ int, c.isDigit) (hhead : int.head? = some '0' → int = ['0'])
    (ht : ∀ c cs, tail = c :: cs → c.isDigit = false)
    (hf : readFraction tail = some (fraction, tail')) (he : readExponent tail' = some (z, rest)) :
    readUnsigned neg (int ++ tail) =
      some (Decimal.ofScaled neg (Nat.ofDigitChars 10 (int ++ fraction) 0) (z - fraction.length),
        rest) := by
  have hint : ¬ (int = [] ∨ (int.head? = some '0' ∧ int ≠ ['0'])) := by
    rintro (h | ⟨h, h'⟩)
    · exact hne h
    · exact h' (hhead h)
  unfold readUnsigned
  rw [readDigits_append hd ht]
  simp only [hint, if_false, hf, he, Option.bind_eq_bind, Option.bind_some, pure]

/-- A printed number is read as some scaling of its own digits. -/
theorem readUnsigned_layout (neg : Bool) {m : ℕ} {e : ℤ} (hz : m = 0 → e = 0) {rest : List Char}
    (hr : EndsNumber rest) :
    ∃ j : ℕ, readUnsigned neg (Decimal.layout (Nat.toDigits 10 m) e ++ rest) =
      some (Decimal.ofScaled neg (m * 10 ^ j) (e - j), rest) := by
  have hval : Nat.ofDigitChars 10 (Nat.toDigits 10 m) 0 = m := Nat.ofDigitChars_ten_toDigits
  have hdig : ∀ c ∈ Nat.toDigits 10 m, c.isDigit := fun c hc => isDigit_of_mem_digits hc
  have hpos : 0 < (Nat.toDigits 10 m).length := Nat.length_toDigits_pos
  have hhead : m ≠ 0 → (Nat.toDigits 10 m).head? ≠ some '0' := head_digits_ne_zero
  have hzero : m = 0 → Nat.toDigits 10 m = ['0'] := by rintro rfl; rfl
  generalize Nat.toDigits 10 m = ds at hval hdig hpos hhead hzero
  have hlen0 : m = 0 → ds.length = 1 := fun h => by rw [hzero h]; rfl
  have hdot : ∀ cs c cs', '.' :: cs = c :: cs' → c.isDigit = false := by
    intro cs c cs' h
    rw [← (List.cons.inj h).1]
    decide
  unfold Decimal.layout
  by_cases h1 : (ds.length : ℤ) ≤ ds.length + e ∧ (ds.length : ℤ) + e ≤ 21
  · -- digits and zeros, no point
    rw [if_pos h1]
    refine ⟨e.toNat, ?_⟩
    have hall : ∀ c ∈ ds ++ List.replicate e.toNat '0', c.isDigit := by
      intro c hc
      rcases List.mem_append.mp hc with hc | hc
      · exact hdig c hc
      · rw [List.eq_of_mem_replicate hc]; decide
    have hne : ds ≠ [] := List.length_pos_iff.mp hpos
    rw [readUnsigned_parts neg (List.append_ne_nil_of_left_ne_nil hne _) hall ?_
      (fun c cs h => (hr c cs h).1) (readFraction_of_endsNumber hr) (readExponent_of_endsNumber hr)]
    · rw [List.append_nil, Nat.ofDigitChars_append, Nat.ofDigitChars_replicate_zero, hval,
        List.length_nil, Nat.mul_comm, show e - (e.toNat : ℤ) = 0 by omega, Nat.cast_zero, sub_zero]
    · rw [List.head?_append_of_ne_nil _ hne]
      intro h
      by_cases hm : m = 0
      · rw [hzero hm, hz hm]; rfl
      · exact absurd h (hhead hm)
  rw [if_neg h1]
  have hm : m ≠ 0 := by
    intro h
    have := hz h
    have := hlen0 h
    omega
  by_cases h2 : 0 < (ds.length : ℤ) + e ∧ (ds.length : ℤ) + e ≤ 21
  · -- the point inside the digits
    rw [if_pos h2, List.append_assoc, List.cons_append]
    refine ⟨0, ?_⟩
    obtain ⟨i, hi⟩ : ∃ i : ℕ, ((ds.length : ℤ) + e).toNat = i := ⟨_, rfl⟩
    rw [hi]
    have htake : ds.take i ≠ [] := by
      rw [ne_eq, ← List.length_eq_zero_iff, List.length_take]
      omega
    have hdrop : ds.drop i ≠ [] := by
      rw [ne_eq, ← List.length_eq_zero_iff, List.length_drop]
      omega
    rw [readUnsigned_parts neg htake (fun c hc => hdig c (List.mem_of_mem_take hc)) ?_ (hdot _)
      (readFraction_digits hdrop (fun c hc => hdig c (List.mem_of_mem_drop hc))
        (fun c cs h => (hr c cs h).1)) (readExponent_of_endsNumber hr)]
    · rw [List.take_append_drop, hval, List.length_drop, pow_zero, Nat.mul_one]
      congr 3
      omega
    · rw [List.head?_take, if_neg (by omega)]
      exact fun h => absurd h (hhead hm)
  rw [if_neg h2]
  by_cases h3 : -6 < (ds.length : ℤ) + e ∧ (ds.length : ℤ) + e ≤ 0
  · -- zeros after the point
    rw [if_pos h3]
    refine ⟨0, ?_⟩
    obtain ⟨i, hi⟩ : ∃ i : ℕ, (-((ds.length : ℤ) + e)).toNat = i := ⟨_, rfl⟩
    rw [hi]
    have hall : ∀ c ∈ List.replicate i '0' ++ ds, c.isDigit := by
      intro c hc
      rcases List.mem_append.mp hc with hc | hc
      · rw [List.eq_of_mem_replicate hc]; decide
      · exact hdig c hc
    have hne : List.replicate i '0' ++ ds ≠ [] :=
      List.append_ne_nil_of_right_ne_nil _ (List.length_pos_iff.mp hpos)
    have hzero : ∀ c ∈ ['0'], c.isDigit := by
      intro c hc
      rw [List.mem_singleton.mp hc]
      decide
    have hparts := @readUnsigned_parts neg ['0'] _ _ _ _ _ (by decide) hzero (fun _ => rfl)
      (hdot (List.replicate i '0' ++ ds ++ rest))
      (readFraction_digits hne hall (fun c cs h => (hr c cs h).1)) (readExponent_of_endsNumber hr)
    rw [List.cons_append, List.cons_append]
    refine hparts.trans ?_
    rw [List.length_append, List.length_replicate, List.singleton_append, Nat.ofDigitChars_cons,
      Nat.ofDigitChars_append, show 10 * 0 + ('0'.toNat - '0'.toNat) = 0 from rfl,
      Nat.ofDigitChars_replicate_zero, Nat.mul_zero, hval, pow_zero, Nat.mul_one]
    congr 3
    push_cast
    omega
  · -- digits, a point after the first, an exponent
    rw [if_neg h3]
    refine ⟨0, ?_⟩
    obtain ⟨z, hz'⟩ : ∃ z, (ds.length : ℤ) + e - 1 = z := ⟨_, rfl⟩
    have htake : ds.take 1 ≠ [] := by
      rw [ne_eq, ← List.length_eq_zero_iff, List.length_take]
      omega
    have hE : ∀ cs c cs', 'e' :: cs = c :: cs' → c.isDigit = false := by
      intro cs c cs' h
      rw [← (List.cons.inj h).1]
      decide
    have hhead1 : (ds.take 1).head? = some '0' → ds.take 1 = ['0'] := by
      rw [List.head?_take, if_neg (by omega)]
      exact fun h => absurd h (hhead hm)
    have hdig1 : ∀ c ∈ ds.take 1, c.isDigit := fun c hc => hdig c (List.mem_of_mem_take hc)
    have hexp := readExponent_text z hr
    rw [hz', List.append_assoc, List.append_assoc, List.cons_append, List.cons_append]
    by_cases hk : (ds.length : ℤ) = 1
    · rw [if_pos hk, List.nil_append, readUnsigned_parts neg htake hdig1 hhead1 (hE _) rfl hexp,
        List.append_nil, List.take_of_length_le (by omega), hval, pow_zero, Nat.mul_one,
        List.length_nil]
      congr 3
      omega
    · have hdrop : ds.drop 1 ≠ [] := by
        rw [ne_eq, ← List.length_eq_zero_iff, List.length_drop]
        omega
      rw [if_neg hk, List.cons_append, readUnsigned_parts neg htake hdig1 hhead1 (hdot _)
        (readFraction_digits hdrop (fun c hc => hdig c (List.mem_of_mem_drop hc)) (hE _)) hexp,
        List.take_append_drop, hval, List.length_drop, pow_zero, Nat.mul_one]
      congr 3
      omega

theorem head_layout {ds : List Char} (e : ℤ) (hpos : 0 < ds.length) (hd : ∀ c ∈ ds, c.isDigit) :
    ∃ c cs, Decimal.layout ds e = c :: cs ∧ c.isDigit := by
  cases ds with
  | nil => exact absurd hpos (by decide)
  | cons d ds =>
    have hdd : d.isDigit := hd d List.mem_cons_self
    unfold Decimal.layout
    dsimp only
    split_ifs with h1 h2 h3
    · exact ⟨d, _, rfl, hdd⟩
    · obtain ⟨i, hi⟩ : ∃ i : ℕ, (((d :: ds).length : ℤ) + e).toNat = i + 1 :=
        ⟨(((d :: ds).length : ℤ) + e).toNat - 1, by omega⟩
      rw [hi, List.take_succ_cons, List.cons_append]
      exact ⟨d, _, rfl, hdd⟩
    · exact ⟨'0', _, rfl, by decide⟩
    all_goals exact ⟨d, _, rfl, hdd⟩

/-- **Round trip.** Reading a printed number gives the number and what follows it. -/
theorem readNumber_text (x : Decimal) {rest : List Char} (hr : EndsNumber rest) :
    readNumber (x.text ++ rest) = some (x, rest) := by
  have hz : x.mantissa.natAbs = 0 → x.exponent = 0 := by
    intro h
    rcases x.normal with hn | hn
    · omega
    · exact hn.2
  obtain ⟨j, hj⟩ := readUnsigned_layout (decide (x.mantissa < 0)) hz hr
  rw [Decimal.ofScaled_self] at hj
  unfold Decimal.text
  by_cases hneg : x.mantissa < 0
  · rw [decide_eq_true hneg] at hj
    rw [if_pos hneg]
    exact hj
  · rw [decide_eq_false hneg] at hj
    rw [if_neg hneg, List.nil_append]
    obtain ⟨c, cs, hc, hd⟩ := @head_layout (Nat.toDigits 10 x.mantissa.natAbs) x.exponent
      Nat.length_toDigits_pos (fun c hc => isDigit_of_mem_digits hc)
    rw [hc] at hj ⊢
    unfold readNumber
    split
    · next h =>
      rw [List.cons_append] at h
      rw [(List.cons.inj h).1] at hd
      exact absurd hd (by decide)
    · exact hj

end Js
