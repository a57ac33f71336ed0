import Mathlib.Data.Int.Log
import Mathlib.Data.Rat.Floor
import Mathlib.Tactic.Linarith
import Mathlib.Tactic.NormNum
import AdvancedSearch.Lib.Decimal

/-!
# Numbers

A JavaScript number is `NaN`, an infinity or a finite double, here its exact rational value (zero
has one sign: no operation below can tell the two apart). Arithmetic is exact and then rounded:
`nearestDouble` rounds to the nearest double, ties to even, and `Number.ofRat` overflows.
-/

namespace Js

/-! ## Rounding -/

/-- The nearest integer, the even one of two. -/
def roundHalfEven (x : ℚ) : ℤ :=
  if x - ⌊x⌋ < 1 / 2 then ⌊x⌋
  else if 1 / 2 < x - ⌊x⌋ then ⌊x⌋ + 1
  else if ⌊x⌋ % 2 = 0 then ⌊x⌋
  else ⌊x⌋ + 1

/-- The exponent of the last bit of a double next to `q`; subnormals share the smallest. -/
def lastBit (q : ℚ) : ℤ := max (Int.log 2 |q| - 52) (-1074)

/-- The nearest double, exponents unbounded above. -/
def nearestDouble (q : ℚ) : ℚ := roundHalfEven (q / 2 ^ lastBit q) * 2 ^ lastBit q

@[simp] theorem roundHalfEven_intCast (z : ℤ) : roundHalfEven (z : ℚ) = z := by
  unfold roundHalfEven
  rw [Int.floor_intCast, sub_self, if_pos (by norm_num)]

theorem roundHalfEven_bounds (x : ℚ) : ⌊x⌋ ≤ roundHalfEven x ∧ roundHalfEven x ≤ ⌊x⌋ + 1 := by
  unfold roundHalfEven
  split_ifs <;> omega

theorem abs_roundHalfEven_le {x : ℚ} {b : ℤ} (h : |x| < b) : |roundHalfEven x| ≤ b := by
  obtain ⟨hlo, hhi⟩ := abs_lt.mp h
  obtain ⟨h1, h2⟩ := roundHalfEven_bounds x
  have hf : ⌊x⌋ < b := Int.floor_lt.mpr hhi
  have hb : -b ≤ ⌊x⌋ := Int.le_floor.mpr (by push_cast; exact hlo.le)
  exact abs_le.mpr ⟨by omega, by omega⟩

theorem abs_lt_lastBit {q : ℚ} (hq : q ≠ 0) : |q| < 2 ^ (lastBit q + 53) := by
  have hlog : Int.log 2 |q| < lastBit q + 53 := by
    have := le_max_left (Int.log 2 |q| - 52) (-1074)
    unfold lastBit
    omega
  exact_mod_cast (Int.lt_zpow_iff_log_lt (b := 2) (by norm_num) (abs_pos.mpr hq)).mpr hlog

theorem lastBit_le {q : ℚ} {e : ℤ} (hq : q ≠ 0) (he : -1074 ≤ e) (h : |q| < 2 ^ (e + 53)) :
    lastBit q ≤ e := by
  have hlog : Int.log 2 |q| < e + 53 :=
    (Int.lt_zpow_iff_log_lt (b := 2) (by norm_num) (abs_pos.mpr hq)).mp (by exact_mod_cast h)
  exact max_le (by omega) he

/-- A multiple of the last bit is a double. -/
theorem nearestDouble_of_multiple {m k : ℤ} {q : ℚ} (hk : lastBit q ≤ k) (hq : q = m * 2 ^ k) :
    nearestDouble q = q := by
  obtain ⟨j, hj⟩ : ∃ j : ℕ, k = lastBit q + j := ⟨(k - lastBit q).toNat, by omega⟩
  have hpos : (0 : ℚ) < 2 ^ lastBit q := zpow_pos (by norm_num) _
  have hdiv : q / 2 ^ lastBit q = ((m * 2 ^ j : ℤ) : ℚ) := by
    rw [div_eq_iff hpos.ne']
    push_cast
    calc q = m * 2 ^ (lastBit q + (j : ℤ)) := by rw [← hj]; exact hq
      _ = m * 2 ^ j * 2 ^ lastBit q := by rw [zpow_add₀ (by norm_num), zpow_natCast]; ring
  unfold nearestDouble
  rw [hdiv, roundHalfEven_intCast, ← hdiv, div_mul_cancel₀ _ hpos.ne']

theorem nearestDouble_idem (q : ℚ) : nearestDouble (nearestDouble q) = nearestDouble q := by
  by_cases hq : q = 0
  · subst hq
    have h0 : nearestDouble 0 = 0 := by
      unfold nearestDouble
      rw [zero_div, show roundHalfEven (0 : ℚ) = 0 from roundHalfEven_intCast 0, Int.cast_zero, zero_mul]
    rw [h0, h0]
  obtain ⟨m, hm⟩ : ∃ m, roundHalfEven (q / 2 ^ lastBit q) = m := ⟨_, rfl⟩
  have hpos : (0 : ℚ) < 2 ^ lastBit q := zpow_pos (by norm_num) _
  have hbound : |m| ≤ 2 ^ 53 := by
    have hx : |q / 2 ^ lastBit q| < ((2 ^ 53 : ℤ) : ℚ) := by
      rw [abs_div, abs_of_pos hpos, div_lt_iff₀ hpos]
      calc |q| < 2 ^ (lastBit q + 53) := abs_lt_lastBit hq
        _ = ((2 ^ 53 : ℤ) : ℚ) * 2 ^ lastBit q := by
          rw [zpow_add₀ (by norm_num)]; push_cast; ring
    rw [← hm]
    exact abs_roundHalfEven_le hx
  have hr : nearestDouble q = m * 2 ^ lastBit q := by rw [nearestDouble, hm]
  have he : -1074 ≤ lastBit q := le_max_right _ _
  rw [hr]
  by_cases hm0 : m = 0
  · subst hm0
    refine nearestDouble_of_multiple (m := 0) (k := lastBit ((0 : ℤ) * 2 ^ lastBit q)) le_rfl ?_
    push_cast
    ring
  have hne : (m : ℚ) * 2 ^ lastBit q ≠ 0 := mul_ne_zero (by exact_mod_cast hm0) hpos.ne'
  have habs : |(m : ℚ) * 2 ^ lastBit q| = |m| * 2 ^ lastBit q := by
    rw [abs_mul, abs_of_pos hpos, Int.cast_abs]
  by_cases hlt : |m| < 2 ^ 53
  · refine nearestDouble_of_multiple (lastBit_le hne he ?_) rfl
    rw [habs, zpow_add₀ (by norm_num), mul_comm]
    refine mul_lt_mul_of_pos_left ?_ hpos
    exact_mod_cast hlt
  · -- rounded up to the next power of two: one bit fewer carries it
    have hm53 : |m| = 2 ^ 53 := le_antisymm hbound (not_lt.mp hlt)
    obtain ⟨h, hh⟩ : ∃ h : ℤ, m = h * 2 := by
      rcases abs_cases m with ⟨hc, -⟩ | ⟨hc, -⟩
      · exact ⟨2 ^ 52, by omega⟩
      · exact ⟨-2 ^ 52, by omega⟩
    refine nearestDouble_of_multiple (m := h) (lastBit_le (e := lastBit q + 1) hne (by omega) ?_) ?_
    · rw [habs, show lastBit q + 1 + 53 = lastBit q + 54 by ring, zpow_add₀ (by norm_num), mul_comm]
      refine mul_lt_mul_of_pos_left ?_ hpos
      rw [hm53]
      norm_num
    · rw [hh, zpow_add₀ (by norm_num)]
      push_cast
      ring

/-! ## Numbers and their arithmetic -/

/-- A finite double. -/
structure Double where
  value : ℚ
  exact : nearestDouble value = value
  finite : |value| < 2 ^ 1024
  deriving DecidableEq

/-- A JavaScript number. -/
inductive Number where
  | nan
  | infinity (neg : Bool)
  | finite (x : Double)
  deriving DecidableEq

namespace Number

/-- The number an exact result rounds to. -/
def ofRat (q : ℚ) : Number :=
  if h : |nearestDouble q| < 2 ^ 1024 then finite ⟨nearestDouble q, nearestDouble_idem q, h⟩
  else infinity (q < 0)

/-- `x * c`, for a positive number `c`. -/
def mul (x : Number) (c : ℚ) : Number :=
  match x with
  | nan => nan
  | infinity neg => infinity neg
  | finite x => ofRat (x.value * c)

/-- `x / c`, for a positive number `c`. -/
def div (x : Number) (c : ℚ) : Number :=
  match x with
  | nan => nan
  | infinity neg => infinity neg
  | finite x => ofRat (x.value / c)

/-- `Math.round`: the nearest integer, the larger of two. -/
def round : Number → Number
  | finite x => ofRat ⌊x.value + 1 / 2⌋
  | x => x

/-- `Number.isFinite`. -/
def isFinite : Number → Bool
  | finite _ => true
  | _ => false

/-- `Number.isInteger`. -/
def isInteger : Number → Bool
  | finite x => x.value.den = 1
  | _ => false

/-- `x < 0`. -/
def isNegative : Number → Bool
  | nan => false
  | infinity neg => neg
  | finite x => x.value < 0

/-- `x <= 0`. -/
def isAtMostZero : Number → Bool
  | nan => false
  | infinity neg => neg
  | finite x => x.value ≤ 0

/-- `Math.max(x, c)`. -/
def max (x : Number) (c : ℚ) : Number :=
  match x with
  | nan => nan
  | infinity false => infinity false
  | infinity true => ofRat c
  | finite x => if x.value ≤ c then ofRat c else finite x

/-- `x + y`. -/
def add : Number → Number → Number
  | nan, _ | _, nan => nan
  | infinity neg, infinity neg' => if neg = neg' then infinity neg else nan
  | infinity neg, finite _ | finite _, infinity neg => infinity neg
  | finite x, finite y => ofRat (x.value + y.value)

/-- `-x`. -/
def neg : Number → Number
  | nan => nan
  | infinity neg => infinity !neg
  | finite x => ofRat (-x.value)

/-- `x - y`. -/
def sub (x y : Number) : Number := x.add y.neg

/-- `x * y`. -/
def times : Number → Number → Number
  | nan, _ | _, nan => nan
  | infinity neg, infinity neg' => infinity (neg != neg')
  | infinity neg, finite x | finite x, infinity neg =>
    if x.value = 0 then nan else infinity (neg != decide (x.value < 0))
  | finite x, finite y => ofRat (x.value * y.value)

/-- `x < y`. -/
def lt : Number → Number → Bool
  | nan, _ | _, nan => false
  | infinity neg, infinity neg' => neg && !neg'
  | infinity neg, finite _ => neg
  | finite _, infinity neg => !neg
  | finite x, finite y => x.value < y.value

/-- `x <= y`. -/
def le : Number → Number → Bool
  | nan, _ | _, nan => false
  | infinity neg, infinity neg' => neg || !neg'
  | infinity neg, finite _ => neg
  | finite _, infinity neg => !neg
  | finite x, finite y => x.value ≤ y.value

/-! ### Printing -/

/-- A decimal of `k` digits that reads as the positive double `x`, `10 ^ n` being the power of ten
above it. -/
def digitsOf (x : ℚ) (n : ℤ) (k : ℕ) : Option ℤ :=
  let scaled := x / 10 ^ (n - k)
  [roundHalfEven scaled, ⌊scaled⌋, ⌊scaled⌋ + 1].find? fun s => nearestDouble (s * 10 ^ (n - k)) = x

/-- The fewest digits, from `k` on, that read as `x`. -/
def searchDigits (x : ℚ) (n : ℤ) : ℕ → ℕ → Option (ℕ × ℤ)
  | 0, _ => none
  | fuel + 1, k =>
    match digitsOf x n k with
    | some s => some (k, s)
    | none => searchDigits x n fuel (k + 1)

/-- The shortest decimal of a double; no double has 1400 digits. -/
def shortestDecimal (x : ℚ) : Decimal :=
  if x = 0 then 0
  else
    let n := Int.log 10 |x| + 1
    match searchDigits |x| n 1400 1 with
    | some (k, s) => Decimal.ofScaled (x < 0) s.toNat (n - k)
    | none => 0

/-- `String(x)`. -/
def text : Number → String
  | nan => "NaN"
  | infinity true => "-Infinity"
  | infinity false => "Infinity"
  | finite x => String.ofList (shortestDecimal x.value).text

/-- The number a decimal reads as. -/
def ofDecimal (x : Decimal) : Number := ofRat (x.mantissa * 10 ^ x.exponent)

/-! ### Arithmetic of doubles -/

theorem ofRat_eq {q : ℚ} {x : Double} (h : nearestDouble q = x.value) : ofRat q = finite x := by
  have hlt : |nearestDouble q| < 2 ^ 1024 := by rw [h]; exact x.finite
  unfold ofRat
  rw [dif_pos hlt]
  congr 1
  cases x
  simp only [Double.mk.injEq]
  exact h

@[simp] theorem ofRat_value (x : Double) : ofRat x.value = finite x := ofRat_eq x.exact

/-- Zero. -/
def zero : Double := ⟨0, by decide +kernel, by norm_num⟩

/-- One. -/
def one : Double :=
  ⟨1, by decide +kernel, by rw [abs_one]; exact one_lt_pow₀ (by norm_num) (by norm_num)⟩

theorem ofRat_zero : ofRat 0 = finite zero := ofRat_value zero

theorem finite_zero_times (x : Double) : (finite zero).times (finite x) = finite zero := by
  show ofRat (0 * x.value) = _
  rw [zero_mul, ofRat_zero]

theorem finite_zero_add (x : Double) : (finite zero).add (finite x) = finite x := by
  show ofRat (0 + x.value) = _
  rw [zero_add, ofRat_value]

@[simp] theorem lt_finite (x y : Double) : lt (finite x) (finite y) = decide (x.value < y.value) := rfl

@[simp] theorem lt_self (x : Number) : lt x x = false := by
  cases x with
  | nan => rfl
  | infinity neg => cases neg <;> rfl
  | finite x => simp

theorem finite_eq_of_not_lt {x y : Double} (hxy : lt (finite x) (finite y) = false)
    (hyx : lt (finite y) (finite x) = false) : finite x = finite y := by
  rw [lt_finite, decide_eq_false_iff_not, not_lt] at hxy hyx
  have hval : x.value = y.value := le_antisymm hyx hxy
  cases x
  cases y
  simp only at hval
  subst hval
  rfl

/-- Whole numbers below `2 ^ 53` are doubles. -/
theorem exists_double_natCast {n : ℕ} (h : n < 2 ^ 53) :
    ∃ x : Double, ofRat n = finite x ∧ x.value = n := by
  have hlt : |(n : ℚ)| < 2 ^ (0 + 53 : ℤ) := by
    rw [abs_of_nonneg (Nat.cast_nonneg n)]
    exact_mod_cast h
  have hexact : nearestDouble (n : ℚ) = n := by
    by_cases h0 : (n : ℚ) = 0
    · rw [h0]
      exact zero.exact
    · exact nearestDouble_of_multiple (m := n) (lastBit_le h0 (by omega) hlt) (by simp)
  have hfinite : |(n : ℚ)| < 2 ^ 1024 :=
    hlt.trans_le (by rw [zero_add]; exact_mod_cast Nat.pow_le_pow_right (n := 2) (by omega) (by omega))
  exact ⟨⟨n, hexact, hfinite⟩, ofRat_eq hexact, rfl⟩

/-! ### Printed numbers read back -/

theorem digitsOf_reads {x : ℚ} {n : ℤ} {k : ℕ} {s : ℤ} (h : digitsOf x n k = some s) :
    nearestDouble (s * 10 ^ (n - k)) = x := by
  unfold digitsOf at h
  simpa using List.find?_some h

theorem digitsOf_nonneg {x : ℚ} {n : ℤ} {k : ℕ} {s : ℤ} (hx : 0 ≤ x) (h : digitsOf x n k = some s) :
    0 ≤ s := by
  have hfloor : 0 ≤ ⌊x / 10 ^ (n - k)⌋ :=
    Int.floor_nonneg.mpr (div_nonneg hx (zpow_pos (by norm_num) _).le)
  have hround := (roundHalfEven_bounds (x / 10 ^ (n - k))).1
  unfold digitsOf at h
  have hmem := List.mem_of_find?_eq_some h
  simp only [List.mem_cons, List.not_mem_nil, or_false] at hmem
  omega

theorem searchDigits_some {x : ℚ} {n : ℤ} {fuel k k' : ℕ} {s : ℤ}
    (h : searchDigits x n fuel k = some (k', s)) : digitsOf x n k' = some s := by
  induction fuel generalizing k with
  | zero => cases h
  | succ fuel ih =>
    unfold searchDigits at h
    cases hd : digitsOf x n k with
    | some s' =>
      rw [hd] at h
      cases h
      exact hd
    | none =>
      rw [hd] at h
      exact ih h

theorem searchDigits_isSome {x : ℚ} {n : ℤ} {fuel k j : ℕ} (hj : (digitsOf x n j).isSome)
    (hk : k ≤ j) (hf : j < k + fuel) : (searchDigits x n fuel k).isSome := by
  induction fuel generalizing k with
  | zero => omega
  | succ fuel ih =>
    unfold searchDigits
    cases hd : digitsOf x n k with
    | some s => rfl
    | none =>
      refine ih ?_ (by omega)
      rcases Nat.eq_or_lt_of_le hk with rfl | hlt
      · rw [hd] at hj
        cases hj
      · omega

/-- A double has no more decimals than its last bit has. -/
theorem exists_decimals {x : ℚ} {d : ℕ} (hx : nearestDouble x = x) (hd : -(d : ℤ) ≤ lastBit x) :
    ∃ m : ℤ, x * 10 ^ (d : ℤ) = m := by
  obtain ⟨m, hm⟩ : ∃ m : ℤ, x = m * 2 ^ lastBit x := ⟨_, hx.symm⟩
  obtain ⟨j, hj⟩ : ∃ j : ℕ, lastBit x = j - d := ⟨(lastBit x + d).toNat, by omega⟩
  refine ⟨m * 2 ^ j * 5 ^ d, ?_⟩
  have hsplit : (10 : ℚ) ^ (d : ℤ) = 2 ^ (d : ℤ) * 5 ^ (d : ℤ) := by
    rw [← mul_zpow]
    norm_num
  rw [hm, hj, hsplit]
  calc (m : ℚ) * 2 ^ ((j : ℤ) - d) * (2 ^ (d : ℤ) * 5 ^ (d : ℤ))
      = m * (2 ^ ((j : ℤ) - d) * 2 ^ (d : ℤ)) * 5 ^ (d : ℤ) := by ring
    _ = m * 2 ^ (j : ℤ) * 5 ^ (d : ℤ) := by
      rw [← zpow_add₀ (by norm_num), sub_add_cancel]
    _ = ((m * 2 ^ j * 5 ^ d : ℤ) : ℚ) := by push_cast; norm_cast

/-- All the decimals of a double read back. -/
theorem digitsOf_isSome {x : ℚ} {n : ℤ} {k d : ℕ} (hx : nearestDouble x = x)
    (hd : -(d : ℤ) ≤ lastBit x) (hk : n - k = -d) : (digitsOf x n k).isSome := by
  obtain ⟨m, hm⟩ := exists_decimals hx hd
  have hscaled : x / 10 ^ (n - k : ℤ) = m := by
    rw [hk, zpow_neg, div_inv_eq_mul, hm]
  unfold digitsOf
  rw [List.find?_isSome]
  refine ⟨m, ?_, ?_⟩
  · simp only [hscaled, roundHalfEven_intCast]
    exact List.mem_cons_self
  · rw [decide_eq_true_eq, ← hscaled, div_mul_cancel₀ _ (zpow_pos (by norm_num) _).ne', hx]

theorem neg_le_log {x : ℚ} {d : ℕ} (hpos : 0 < x) (hx : nearestDouble x = x)
    (hd : -(d : ℤ) ≤ lastBit x) : -(d : ℤ) ≤ Int.log 10 x := by
  obtain ⟨m, hm⟩ := exists_decimals hx hd
  have hten : (0 : ℚ) < 10 ^ (d : ℤ) := zpow_pos (by norm_num) _
  have hm0 : (0 : ℚ) < m := hm ▸ mul_pos hpos hten
  have hm1 : (1 : ℚ) ≤ m := by
    have h : 0 < m := by exact_mod_cast hm0
    exact_mod_cast h
  refine (Int.zpow_le_iff_le_log (b := 10) (by norm_num) hpos).mp ?_
  calc ((10 : ℕ) : ℚ) ^ (-(d : ℤ)) = (10 ^ (d : ℤ))⁻¹ := by rw [zpow_neg, Nat.cast_ofNat]
    _ ≤ x := by rw [inv_le_iff_one_le_mul₀ hten, hm]; exact hm1

theorem two_pow_le_ten_pow (k : ℕ) : (2 : ℚ) ^ (16 * k) ≤ 10 ^ (5 * k) := by
  rw [pow_mul, pow_mul]
  exact pow_le_pow_left₀ (by norm_num) (by norm_num) k

/-- The search for digits ends. -/
theorem searchDigits_double {x : ℚ} (hpos : 0 < x) (hx : nearestDouble x = x) (hlt : x < 2 ^ 1024) :
    (searchDigits x (Int.log 10 x + 1) 1400 1).isSome := by
  have hbit : -((1074 : ℕ) : ℤ) ≤ lastBit x := le_max_right _ _
  have hlow := neg_le_log hpos hx hbit
  have hhigh : Int.log 10 x < 320 := by
    refine (Int.lt_zpow_iff_log_lt (b := 10) (by norm_num) hpos).mp ?_
    calc x < 2 ^ 1024 := hlt
      _ ≤ 10 ^ (5 * 64) := two_pow_le_ten_pow 64
      _ = ((10 : ℕ) : ℚ) ^ (320 : ℤ) := (zpow_natCast _ _).symm
  refine searchDigits_isSome (j := (Int.log 10 x + 1 + 1074).toNat)
    (digitsOf_isSome (d := 1074) hx hbit ?_) (by omega) (by omega)
  omega

/-! ### The number a printed double reads as -/

theorem roundHalfEven_neg (x : ℚ) : roundHalfEven (-x) = -roundHalfEven x := by
  by_cases h0 : x - ⌊x⌋ = 0
  · obtain ⟨f, hf⟩ : ∃ f : ℤ, x = f := ⟨⌊x⌋, sub_eq_zero.mp h0⟩
    rw [hf, roundHalfEven_intCast, ← Int.cast_neg, roundHalfEven_intCast]
  · have hlow : 0 < x - ⌊x⌋ := lt_of_le_of_ne (sub_nonneg.mpr (Int.floor_le x)) (Ne.symm h0)
    have hhigh : x < ⌊x⌋ + 1 := Int.lt_floor_add_one x
    have hfloor : ⌊-x⌋ = -⌊x⌋ - 1 := by
      rw [Int.floor_eq_iff]
      push_cast
      constructor <;> linarith
    -- the fractions of `x` and `-x` add up to one
    unfold roundHalfEven
    rw [hfloor]
    push_cast
    split_ifs <;> first | omega | (exfalso; linarith)

theorem nearestDouble_neg (x : ℚ) : nearestDouble (-x) = -nearestDouble x := by
  unfold nearestDouble lastBit
  rw [abs_neg, neg_div, roundHalfEven_neg]
  push_cast
  ring

/-- The value of a scaled decimal. -/
theorem ofScaled_value (neg : Bool) (m : ℕ) (e : ℤ) :
    ((Decimal.ofScaled neg m e).mantissa : ℚ) * 10 ^ (Decimal.ofScaled neg m e).exponent =
      (if neg then -(m : ℚ) else m) * 10 ^ e := by
  unfold Decimal.ofScaled
  by_cases h : m = 0
  · rw [dif_pos h, h]
    have h0 : ((0 : Decimal).mantissa : ℚ) = 0 := rfl
    rw [h0]
    simp
  · rw [dif_neg h]
    obtain ⟨m', j, hm', hj⟩ := Decimal.exists_strip h
    have hstrip := Decimal.strip_eq hm' (le_of_eq hj.symm) e
    rw [← hj] at hstrip
    simp only [hstrip]
    have hval : (m : ℚ) * 10 ^ e = m' * 10 ^ (e + j) := by
      rw [hj, zpow_add₀ (by norm_num), zpow_natCast]
      push_cast
      ring
    cases neg with
    | false =>
      simp only [Bool.false_eq_true, if_false]
      rw [hval]
      norm_cast
    | true =>
      simp only [if_true]
      rw [neg_mul, hval]
      push_cast
      ring

/-- **Round trip.** The text of a double reads as the double. -/
theorem ofDecimal_shortestDecimal (x : Double) :
    ofDecimal (shortestDecimal x.value) = finite x := by
  have key : nearestDouble ((shortestDecimal x.value).mantissa *
      10 ^ (shortestDecimal x.value).exponent) = x.value := by
    unfold shortestDecimal
    by_cases h0 : x.value = 0
    · rw [if_pos h0]
      have hz : ((0 : Decimal).mantissa : ℚ) = 0 := rfl
      rw [hz, zero_mul, ← h0, x.exact]
    · have hpos : 0 < |x.value| := abs_pos.mpr h0
      have habs : nearestDouble |x.value| = |x.value| := by
        rcases abs_choice x.value with h | h <;> rw [h]
        · exact x.exact
        · rw [nearestDouble_neg, x.exact]
      obtain ⟨⟨k, s⟩, hs⟩ := Option.isSome_iff_exists.mp (searchDigits_double hpos habs x.finite)
      have hd := searchDigits_some hs
      have hnonneg := digitsOf_nonneg hpos.le hd
      have hreads := digitsOf_reads hd
      have hcast : ((s.toNat : ℕ) : ℚ) = s := by
        exact_mod_cast Int.toNat_of_nonneg hnonneg
      rw [if_neg h0]
      simp only [hs]
      rw [ofScaled_value, hcast]
      by_cases hneg : x.value < 0
      · rw [decide_eq_true hneg, if_pos rfl, neg_mul, nearestDouble_neg, hreads, abs_of_neg hneg,
          neg_neg]
      · rw [decide_eq_false hneg, if_neg Bool.false_ne_true, hreads, abs_of_nonneg (not_lt.mp hneg)]
  exact ofRat_eq key

end Number

end Js
