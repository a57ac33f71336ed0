import Mathlib.Data.Nat.Init
import Mathlib.Tactic.NormNum
import Mathlib.Tactic.Positivity
import Mathlib.Tactic.Ring

/-!
# Whole numbers held by a double

A JavaScript number that is a non-negative integer is a natural number that 53 significant bits
hold exactly (`Whole`). Reading a decimal numeral rounds to the nearest such number, ties to even
(`Whole.ofNat?`, `none` for `Infinity`), adding one rounds again (`Whole.succ`), and printing
writes the shortest decimal that reads back to the number (`Whole.toString`).

Below `2 ^ 53` all of it is exact: `roundToDouble_of_lt`, `Whole.succ_val_of_lt`,
`Whole.toString_of_lt`.
-/

namespace Js

/-- The nearest number with 53 significant bits, ties to even. -/
def roundToDouble (n : ℕ) : ℕ :=
  let e := n.log2 - 52
  let q := n / 2 ^ e
  let r := n % 2 ^ e
  if 2 * r < 2 ^ e ∨ (2 * r = 2 ^ e ∧ q % 2 = 0) then q * 2 ^ e else (q + 1) * 2 ^ e

/-! ## Rounding -/

theorem two_pow_lt {k : ℕ} (h : k < 1024) : 2 ^ k < 2 ^ 1024 := by
  rw [Nat.pow_lt_pow_iff_right Nat.one_lt_two]
  exact h

theorem roundToDouble_of_lt {n : ℕ} (h : n < 2 ^ 53) : roundToDouble n = n := by
  have he : n.log2 - 52 = 0 := by
    by_cases h0 : n = 0
    · subst h0; decide
    · have := (Nat.log2_lt h0).mpr h
      omega
  unfold roundToDouble
  simp [he, Nat.mod_one]

/-- The significand and the exponent of a number of more than 53 bits. -/
theorem significand_bounds {n : ℕ} (h : 2 ^ 53 ≤ n) :
    1 ≤ n.log2 - 52 ∧ 2 ^ 52 ≤ n / 2 ^ (n.log2 - 52) ∧ n / 2 ^ (n.log2 - 52) < 2 ^ 53 := by
  have h0 : n ≠ 0 := by rintro rfl; exact absurd h (by norm_num)
  have hlog : 53 ≤ n.log2 := (Nat.le_log2 h0).mpr h
  have hlo : 2 ^ n.log2 ≤ n := (Nat.le_log2 h0).mp le_rfl
  have hhi : n < 2 ^ (n.log2 + 1) := (Nat.log2_lt h0).mp (Nat.lt_succ_self _)
  refine ⟨by omega, ?_, ?_⟩
  · rw [Nat.le_div_iff_mul_le (by positivity), ← pow_add]
    rwa [show 52 + (n.log2 - 52) = n.log2 by omega]
  · rw [Nat.div_lt_iff_lt_mul (by positivity), ← pow_add]
    rwa [show 53 + (n.log2 - 52) = n.log2 + 1 by omega]

theorem log2_scaled {q e : ℕ} (h1 : 2 ^ 52 ≤ q) (h2 : q < 2 ^ 53) : (q * 2 ^ e).log2 = 52 + e := by
  have h0 : q * 2 ^ e ≠ 0 := by
    have : 0 < q := lt_of_lt_of_le (by norm_num) h1
    positivity
  have hlo : 52 + e ≤ (q * 2 ^ e).log2 := by
    rw [Nat.le_log2 h0, pow_add]
    exact Nat.mul_le_mul_right _ h1
  have hhi : (q * 2 ^ e).log2 < 52 + e + 1 := by
    rw [Nat.log2_lt h0, show 52 + e + 1 = 53 + e by omega, pow_add]
    exact Nat.mul_lt_mul_of_pos_right h2 (by positivity)
  omega

/-- A number of 53 significant bits is its own rounding. -/
theorem roundToDouble_scaled {q e : ℕ} (h1 : 2 ^ 52 ≤ q) (h2 : q < 2 ^ 53) :
    roundToDouble (q * 2 ^ e) = q * 2 ^ e := by
  unfold roundToDouble
  simp only [log2_scaled h1 h2, Nat.add_sub_cancel_left, Nat.mul_mod_left, Nat.mul_zero]
  rw [if_pos (Or.inl (by positivity)), Nat.mul_div_cancel _ (by positivity)]

theorem roundToDouble_scaled_le {q e : ℕ} (h1 : 2 ^ 52 ≤ q) (h2 : q ≤ 2 ^ 53) :
    roundToDouble (q * 2 ^ e) = q * 2 ^ e := by
  rcases Nat.lt_or_eq_of_le h2 with h | rfl
  · exact roundToDouble_scaled h1 h
  · rw [show 2 ^ 53 * 2 ^ e = 2 ^ 52 * 2 ^ (e + 1) by ring]
    exact roundToDouble_scaled le_rfl (by norm_num)

/-- What rounding gives past `2 ^ 53`: one of the two neighbours. -/
theorem roundToDouble_cases {n : ℕ} (h : 2 ^ 53 ≤ n) :
    ∃ q, 2 ^ 52 ≤ q ∧ q ≤ 2 ^ 53 ∧ roundToDouble n = q * 2 ^ (n.log2 - 52) := by
  obtain ⟨-, hlo, hhi⟩ := significand_bounds h
  unfold roundToDouble
  simp only
  split_ifs
  · exact ⟨_, hlo, hhi.le, rfl⟩
  · exact ⟨_, by omega, by omega, rfl⟩

theorem roundToDouble_idem (n : ℕ) : roundToDouble (roundToDouble n) = roundToDouble n := by
  by_cases h : n < 2 ^ 53
  · rw [roundToDouble_of_lt h, roundToDouble_of_lt h]
  · obtain ⟨q, h1, h2, hq⟩ := roundToDouble_cases (not_lt.mp h)
    rw [hq, roundToDouble_scaled_le h1 h2]

/-- Rounding does not cross a power of two. -/
theorem two_pow_le_roundToDouble {n k : ℕ} (hk : 53 ≤ k) (h : 2 ^ k ≤ n) : 2 ^ k ≤ roundToDouble n := by
  have h53 : 2 ^ 53 ≤ n := (Nat.pow_le_pow_right (by norm_num) hk).trans h
  have hlog : k ≤ n.log2 := (Nat.le_log2 (by rintro rfl; exact absurd h53 (by norm_num))).mpr h
  obtain ⟨q, h1, -, hq⟩ := roundToDouble_cases h53
  rw [hq]
  calc 2 ^ k = 2 ^ 52 * 2 ^ (k - 52) := by rw [← pow_add]; congr 1; omega
    _ ≤ q * 2 ^ (n.log2 - 52) := Nat.mul_le_mul h1 (Nat.pow_le_pow_right (by norm_num) (by omega))

theorem le_roundToDouble {n : ℕ} (h : 2 ^ 53 ≤ n) : 2 ^ 53 ≤ roundToDouble n :=
  two_pow_le_roundToDouble le_rfl h

/-- Below `2 ^ 53` only the number itself rounds to a number. -/
theorem eq_of_roundToDouble_eq {m n : ℕ} (hn : n < 2 ^ 53) (h : roundToDouble m = n) : m = n := by
  by_cases hm : m < 2 ^ 53
  · rwa [roundToDouble_of_lt hm] at h
  · have := le_roundToDouble (not_lt.mp hm)
    omega

/-- Between `2 ^ 53` and `2 ^ 54` the even numbers are held, and every other odd one rounds up. -/
theorem roundToDouble_of_lt_two_pow {n : ℕ} (hn : 2 ^ 53 ≤ n) (h : n < 2 ^ 54) :
    roundToDouble n = if n % 2 = 0 then n else if n % 4 = 1 then n - 1 else n + 1 := by
  have h0 : n ≠ 0 := by omega
  have hlog : n.log2 - 52 = 1 := by
    have hlo : 53 ≤ n.log2 := (Nat.le_log2 h0).mpr hn
    have hhi : n.log2 < 54 := (Nat.log2_lt h0).mpr h
    omega
  unfold roundToDouble
  simp only [hlog, pow_one]
  split_ifs <;> omega

/-- There only every other even number is what no odd number rounds to. -/
theorem eq_of_roundToDouble_eq_even {m n : ℕ} (hn : n < 2 ^ 54) (h4 : n % 4 = 2)
    (h : roundToDouble m = n) : m = n := by
  by_cases hm : m < 2 ^ 53
  · rwa [roundToDouble_of_lt hm] at h
  by_cases hm' : m < 2 ^ 54
  · rw [roundToDouble_of_lt_two_pow (not_lt.mp hm) hm'] at h
    split_ifs at h <;> omega
  · have hle := two_pow_le_roundToDouble (k := 54) (by norm_num) (not_lt.mp hm')
    omega

/-! ## The numbers -/

/-- A non-negative integer that a double holds. -/
structure Whole where
  val : ℕ
  exact : roundToDouble val = val
  finite : val < 2 ^ 1024
  deriving DecidableEq

namespace Whole

@[ext] theorem ext {a b : Whole} (h : a.val = b.val) : a = b := by
  cases a; cases b; cases h; rfl

instance : LE Whole := ⟨fun a b => a.val ≤ b.val⟩
instance : LT Whole := ⟨fun a b => a.val < b.val⟩

theorem lt_def {a b : Whole} : a < b ↔ a.val < b.val := Iff.rfl

instance (a b : Whole) : Decidable (a ≤ b) := inferInstanceAs (Decidable (a.val ≤ b.val))
instance (a b : Whole) : Decidable (a < b) := inferInstanceAs (Decidable (a.val < b.val))

/-- The number a decimal numeral reads as; `none` is `Infinity`. -/
def ofNat? (n : ℕ) : Option Whole :=
  if h : roundToDouble n < 2 ^ 1024 then some ⟨roundToDouble n, roundToDouble_idem n, h⟩ else none

/-- A small number, for which rounding is the identity. -/
def small (n : ℕ) (h : n < 2 ^ 53) : Whole :=
  ⟨n, roundToDouble_of_lt h, lt_trans h (two_pow_lt (by norm_num))⟩

@[simp] theorem small_val (n : ℕ) (h : n < 2 ^ 53) : (small n h).val = n := rfl

theorem ofNat?_eq_some {n : ℕ} {a : Whole} (h : roundToDouble n = a.val) : ofNat? n = some a := by
  unfold ofNat?
  rw [dif_pos (h ▸ a.finite)]
  exact congrArg some (ext h)

/-! ### Adding one -/

/-- From `2 ^ 53` on a number is a multiple of a power of two that one does not complete, or reaches the
even one of two neighbours. -/
theorem roundToDouble_succ {n : ℕ} (he : roundToDouble n = n) (hn : 2 ^ 53 ≤ n) :
    roundToDouble (n + 1) = if n < 2 ^ 54 ∧ n % 4 = 2 then n + 2 else n := by
  obtain ⟨q, h1, h2, hq⟩ := roundToDouble_cases hn
  obtain ⟨hpos, -, -⟩ := significand_bounds hn
  obtain ⟨e, hexp⟩ : ∃ e, n.log2 - 52 = e := ⟨_, rfl⟩
  rw [hexp] at hq hpos
  rw [he] at hq
  have h2' : q < 2 ^ 53 := by
    rcases Nat.lt_or_eq_of_le h2 with h | rfl
    · exact h
    · have hlog : n.log2 = 52 + (e + 1) := by
        rw [hq, show 2 ^ 53 * 2 ^ e = 2 ^ 52 * 2 ^ (e + 1) by ring, log2_scaled le_rfl (by norm_num)]
      omega
  have hpow : 2 ≤ 2 ^ e := by
    calc 2 = 2 ^ 1 := rfl
      _ ≤ 2 ^ e := Nat.pow_le_pow_right (by norm_num) hpos
  have hlt : n + 1 < (q + 1) * 2 ^ e := by rw [hq, Nat.add_mul]; omega
  have hlog : (n + 1).log2 = 52 + e := by
    have h0 : n + 1 ≠ 0 := by omega
    have hlo : 52 + e ≤ (n + 1).log2 := by
      rw [Nat.le_log2 h0, pow_add]
      calc 2 ^ 52 * 2 ^ e ≤ q * 2 ^ e := Nat.mul_le_mul_right _ h1
        _ ≤ n + 1 := by omega
    have hhi : (n + 1).log2 < 52 + e + 1 := by
      rw [Nat.log2_lt h0, show 52 + e + 1 = 53 + e by omega, pow_add]
      exact lt_of_lt_of_le hlt (Nat.mul_le_mul_right _ h2')
    omega
  have hdiv : (n + 1) / 2 ^ e = q := by
    apply Nat.div_eq_of_lt_le
    · omega
    · exact hlt
  have hmod : (n + 1) % 2 ^ e = 1 := by
    rw [hq, Nat.mul_comm, Nat.mul_add_mod]
    exact Nat.mod_eq_of_lt hpow
  unfold roundToDouble
  simp only [hlog, Nat.add_sub_cancel_left, hdiv, hmod]
  by_cases he1 : e = 1
  · subst he1
    rw [pow_one] at *
    split_ifs <;> omega
  · have h4 : 2 ^ 2 ≤ 2 ^ e := Nat.pow_le_pow_right (by norm_num) (by omega)
    have hlarge : 2 ^ 54 ≤ n := by
      calc 2 ^ 54 = 2 ^ 52 * 2 ^ 2 := by norm_num
        _ ≤ q * 2 ^ e := Nat.mul_le_mul h1 h4
        _ = n := hq.symm
    rw [if_pos (Or.inl (by omega)), if_neg fun h => absurd h.1 (not_lt.mpr hlarge)]
    exact hq.symm

theorem roundToDouble_succ_lt {n : ℕ} (he : roundToDouble n = n) (hf : n < 2 ^ 1024) :
    n ≤ roundToDouble (n + 1) ∧ roundToDouble (n + 1) < 2 ^ 1024 := by
  by_cases hs : n + 1 < 2 ^ 53
  · rw [roundToDouble_of_lt hs]
    exact ⟨by omega, lt_trans hs (two_pow_lt (by norm_num))⟩
  by_cases h53 : n + 1 = 2 ^ 53
  · rw [h53, show (2 : ℕ) ^ 53 = 2 ^ 52 * 2 ^ 1 by norm_num,
      roundToDouble_scaled le_rfl (by norm_num)]
    exact ⟨by omega, two_pow_lt (k := 53) (by norm_num)⟩
  rw [roundToDouble_succ he (by omega)]
  split_ifs with hsmall
  · exact ⟨by omega, lt_of_le_of_lt (by omega) (two_pow_lt (k := 55) (by norm_num))⟩
  · exact ⟨le_rfl, hf⟩

/-- `n + 1` in double arithmetic. -/
def succ (n : Whole) : Whole :=
  ⟨roundToDouble (n.val + 1), roundToDouble_idem _, (roundToDouble_succ_lt n.exact n.finite).2⟩

theorem le_succ (n : Whole) : n ≤ n.succ := (roundToDouble_succ_lt n.exact n.finite).1

theorem succ_val_of_lt {n : Whole} (h : n.val + 1 < 2 ^ 53) : n.succ.val = n.val + 1 :=
  roundToDouble_of_lt h

/-- Adding one gives a larger number below `2 ^ 53`, and for every other number below `2 ^ 54`. -/
theorem lt_succ_iff {n : Whole} :
    n < n.succ ↔ n.val < 2 ^ 53 ∨ n.val < 2 ^ 54 ∧ n.val % 4 = 2 := by
  rw [lt_def, show n.succ.val = roundToDouble (n.val + 1) from rfl]
  by_cases hs : n.val + 1 < 2 ^ 53
  · rw [roundToDouble_of_lt hs]
    omega
  by_cases h53 : n.val + 1 = 2 ^ 53
  · rw [h53, show (2 : ℕ) ^ 53 = 2 ^ 52 * 2 ^ 1 by norm_num,
      roundToDouble_scaled le_rfl (by norm_num)]
    omega
  rw [roundToDouble_succ n.exact (by omega)]
  split_ifs with hsmall <;> omega

/-! ### Printing -/

/-- The multiple of `10 ^ e` nearest to `n` that reads back as `n`, as its significant digits. -/
def digitsAt (n e : ℕ) : Option ℕ :=
  let lo := n / 10 ^ e
  let hi := lo + 1
  let loReads := lo ≠ 0 ∧ roundToDouble (lo * 10 ^ e) = n
  let hiReads := roundToDouble (hi * 10 ^ e) = n
  if loReads ∧ (¬ hiReads ∨ n - lo * 10 ^ e ≤ hi * 10 ^ e - n) then some lo
  else if hiReads then some hi
  else none

/-- The shortest decimal of `n`, looked for from `e` trailing zeros down: digits and zeros. -/
def shortest (n : ℕ) : ℕ → ℕ × ℕ
  | 0 => (n, 0)
  | e + 1 =>
    match digitsAt n (e + 1) with
    | some s => (s, e + 1)
    | none => shortest n e

/-- `Number::toString`. -/
def toString (n : Whole) : String :=
  let (s, e) := shortest n.val (Nat.toDigits 10 n.val).length
  let digits := Nat.toDigits 10 s
  if digits.length + e ≤ 21 then (s * 10 ^ e).repr
  else
    let fraction := if digits.tail = [] then "" else "." ++ String.ofList digits.tail
    String.ofList (digits.take 1) ++ fraction ++ "e+" ++ (digits.length + e - 1).repr

theorem digitsAt_reads {n e s : ℕ} (h : digitsAt n e = some s) : roundToDouble (s * 10 ^ e) = n := by
  unfold digitsAt at h
  simp only at h
  split_ifs at h with h1 h2
  · cases h; exact h1.1.2
  · cases h; exact h2

/-- The shortest decimal reads back as the number. -/
theorem shortest_reads {n : ℕ} (hn : roundToDouble n = n) (e : ℕ) :
    roundToDouble ((shortest n e).1 * 10 ^ (shortest n e).2) = n := by
  induction e with
  | zero => simpa [shortest] using hn
  | succ e ih =>
    unfold shortest
    split
    · next s hs => exact digitsAt_reads hs
    · exact ih

/-- A number below `10 ^ 21` that nothing else rounds to is printed digit by digit. -/
theorem toString_eq_repr {n : Whole} (hreads : ∀ m, roundToDouble m = n.val → m = n.val)
    (h : n.val < 10 ^ 21) : n.toString = n.val.repr := by
  have hr := hreads _ (shortest_reads n.exact (Nat.toDigits 10 n.val).length)
  unfold toString
  generalize hse : shortest n.val (Nat.toDigits 10 n.val).length = se at hr
  obtain ⟨s, e⟩ := se
  simp only at hr ⊢
  by_cases h0 : s = 0
  · subst h0
    rw [Nat.zero_mul] at hr
    rw [← hr] at hse ⊢
    simp only [show shortest 0 (Nat.toDigits 10 0).length = (0, 0) by decide, Prod.mk.injEq] at hse
    rw [← hse.2]
    rfl
  · -- twenty-one digits, the zeros included
    have h21 : s * 10 ^ e < 10 ^ 21 := hr ▸ h
    have he : e < 21 := by
      by_contra hge
      have h1 : 10 ^ 21 ≤ 10 ^ e := Nat.pow_le_pow_right (by norm_num) (not_lt.mp hge)
      have h2 : 10 ^ e ≤ s * 10 ^ e := Nat.le_mul_of_pos_left _ (Nat.pos_of_ne_zero h0)
      omega
    have hlen : (Nat.toDigits 10 s).length ≤ 21 - e := by
      rw [Nat.length_toDigits_le_iff (by norm_num) (by omega)]
      rw [show 21 = (21 - e) + e by omega, pow_add] at h21
      exact lt_of_mul_lt_mul_right h21 (Nat.zero_le _)
    rw [if_pos (by omega), hr]

theorem toString_of_lt {n : Whole} (h : n.val < 2 ^ 53) : n.toString = n.val.repr :=
  toString_eq_repr (fun _ => eq_of_roundToDouble_eq h) (h.trans (by norm_num))

/-! ### No two numbers are printed alike -/

/-- The significant digits of an exponent form, with a point after the first. -/
def mantissa (s : ℕ) : String :=
  let digits := Nat.toDigits 10 s
  String.ofList (digits.take 1) ++
    (if digits.tail = [] then "" else "." ++ String.ofList digits.tail)

/-- How a number is printed: as a decimal that reads back to it, with or without an exponent. -/
theorem toString_forms (n : Whole) : ∃ s e, roundToDouble (s * 10 ^ e) = n.val ∧
    (n.toString = (s * 10 ^ e).repr ∨ ∃ k, n.toString = mantissa s ++ "e+" ++ k.repr ∧
      k + 1 = (Nat.toDigits 10 s).length + e) := by
  refine ⟨_, _, shortest_reads n.exact (Nat.toDigits 10 n.val).length, ?_⟩
  unfold toString
  generalize shortest n.val (Nat.toDigits 10 n.val).length = se
  obtain ⟨s, e⟩ := se
  simp only
  by_cases hlen : (Nat.toDigits 10 s).length + e ≤ 21
  · exact Or.inl (if_pos hlen)
  · refine Or.inr ⟨_, if_neg hlen, ?_⟩
    omega

theorem digit_of_mem {n : ℕ} {c : Char} (h : c ∈ Nat.toDigits 10 n) : c.isDigit :=
  Nat.isDigit_of_mem_toDigits (by norm_num) (by norm_num) h

theorem mantissa_toList (s : ℕ) : (mantissa s).toList =
    (Nat.toDigits 10 s).take 1 ++
      (if (Nat.toDigits 10 s).tail = [] then [] else '.' :: (Nat.toDigits 10 s).tail) := by
  unfold mantissa
  simp only [String.toList_append, String.toList_ofList]
  split_ifs <;> simp

theorem notMem_mantissa (s : ℕ) : 'e' ∉ (mantissa s).toList := by
  have hdigits : 'e' ∉ Nat.toDigits 10 s := fun h => absurd (digit_of_mem h) (by decide)
  rw [mantissa_toList, List.mem_append, not_or]
  refine ⟨fun h => hdigits (List.mem_of_mem_take h), ?_⟩
  split_ifs
  · exact List.not_mem_nil
  · rw [List.mem_cons, not_or]
    exact ⟨by decide, fun h => hdigits (List.mem_of_mem_tail h)⟩

/-- Without its point a mantissa is the digits. -/
theorem filter_mantissa (s : ℕ) : (mantissa s).toList.filter (· ≠ '.') = Nat.toDigits 10 s := by
  have hkeep : ∀ l : List Char, (∀ c ∈ l, c ∈ Nat.toDigits 10 s) → l.filter (· ≠ '.') = l := by
    intro l hl
    rw [List.filter_eq_self]
    intro c hc
    have hdigit := digit_of_mem (hl c hc)
    exact decide_eq_true fun he => absurd (he ▸ hdigit) (by decide)
  have hsplit : (Nat.toDigits 10 s).take 1 ++ (Nat.toDigits 10 s).tail = Nat.toDigits 10 s := by
    rw [← List.drop_one]
    exact List.take_append_drop 1 _
  rw [mantissa_toList, List.filter_append, hkeep _ fun c h => List.mem_of_mem_take h]
  split_ifs with htail
  · rw [htail] at hsplit
    exact hsplit
  · rw [List.filter_cons_of_neg (by simp), hkeep _ fun c h => List.mem_of_mem_tail h]
    exact hsplit

theorem eq_of_repr_eq {a b : ℕ} (h : a.repr = b.repr) : a = b := by
  have hlist := congrArg String.toList h
  rw [Nat.toList_repr, Nat.toList_repr] at hlist
  rw [← Nat.ofDigitChars_ten_toDigits (n := a), hlist, Nat.ofDigitChars_ten_toDigits]

/-- Two numbers are printed alike only when they are the same. -/
theorem toString_injective {m n : Whole} (h : m.toString = n.toString) : m = n := by
  obtain ⟨s, e, hs, hm⟩ := m.toString_forms
  obtain ⟨s', e', hs', hn⟩ := n.toString_forms
  have hplain : ∀ (a b k : ℕ), a.repr ≠ mantissa b ++ "e+" ++ k.repr := by
    intro a b k he
    have hmem : 'e' ∈ a.repr.toList := by rw [he]; simp
    rw [Nat.toList_repr] at hmem
    exact absurd (digit_of_mem hmem) (by decide)
  apply ext
  rcases hm with hm | ⟨k, hm, hk⟩ <;> rcases hn with hn | ⟨k', hn, hk'⟩ <;> rw [hm, hn] at h
  · rw [← hs, ← hs', eq_of_repr_eq h]
  · exact absurd h (hplain _ _ _)
  · exact absurd h.symm (hplain _ _ _)
  · have hlist := congrArg String.toList h
    have hdigits : ∀ j : ℕ, 'e' ∉ '+' :: j.repr.toList := by
      intro j hmem
      rw [Nat.toList_repr, List.mem_cons] at hmem
      exact absurd (digit_of_mem (hmem.resolve_left (by decide))) (by decide)
    simp only [String.toList_append, List.append_assoc, show "e+".toList = ['e', '+'] from rfl,
      List.cons_append, List.nil_append] at hlist
    obtain ⟨hmantissa, -, hrest⟩ :=
      (List.append_cons_inj_of_notMem (notMem_mantissa s) (hdigits k)).mp hlist
    have hsame : s = s' := by
      rw [← Nat.ofDigitChars_ten_toDigits (n := s), ← Nat.ofDigitChars_ten_toDigits (n := s'),
        ← filter_mantissa, hmantissa, filter_mantissa]
    subst hsame
    have hexp : k = k' := eq_of_repr_eq (String.toList_inj.mp (List.cons.inj hrest).2)
    rw [← hs, ← hs', show e = e' by omega]

end Whole

end Js
