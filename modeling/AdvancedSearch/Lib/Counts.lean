import Mathlib.Tactic.Positivity
import Mathlib.Tactic.Push
import Mathlib.Algebra.Order.Floor.Div
import AdvancedSearch.Lib.Number

/-!
# Natural numbers among the numbers

Counts, offsets and page numbers are natural numbers below `2 ^ 53`, which are doubles. Their sums and
products are exact before rounding, comparing with one of them is right however large the other number
is, and the quotient of two rounds up to the right page (`ceil_dividedBy`).
-/

namespace Js

/-! ## Rounding near a multiple of the last bit -/

theorem le_nearestDouble {q : ℚ} {m : ℤ} (h : m * 2 ^ lastBit q ≤ q) :
    m * 2 ^ lastBit q ≤ nearestDouble q := by
  have hpos : (0 : ℚ) < 2 ^ lastBit q := zpow_pos (by norm_num) _
  have hm : m ≤ ⌊q / 2 ^ lastBit q⌋ := Int.le_floor.mpr ((le_div_iff₀ hpos).mpr h)
  have hround := (roundHalfEven_bounds (q / 2 ^ lastBit q)).1
  unfold nearestDouble
  exact mul_le_mul_of_nonneg_right (by exact_mod_cast hm.trans hround) hpos.le

theorem nearestDouble_le {q : ℚ} {m : ℤ} (h : q ≤ m * 2 ^ lastBit q) :
    nearestDouble q ≤ m * 2 ^ lastBit q := by
  have hpos : (0 : ℚ) < 2 ^ lastBit q := zpow_pos (by norm_num) _
  have hx : q / 2 ^ lastBit q ≤ m := (div_le_iff₀ hpos).mpr h
  have hround : roundHalfEven (q / 2 ^ lastBit q) ≤ m := by
    rcases hx.eq_or_lt with heq | hlt
    · rw [heq, roundHalfEven_intCast]
    · have hfloor : ⌊q / 2 ^ lastBit q⌋ < m := Int.floor_lt.mpr hlt
      have hround := (roundHalfEven_bounds (q / 2 ^ lastBit q)).2
      omega
  unfold nearestDouble
  exact mul_le_mul_of_nonneg_right (by exact_mod_cast hround) hpos.le

/-- What lies more than half a last bit above a multiple of it rounds above that multiple. -/
theorem lt_nearestDouble {q : ℚ} {m : ℤ} (h : m * 2 ^ lastBit q + 2 ^ lastBit q / 2 < q) :
    m * 2 ^ lastBit q < nearestDouble q := by
  have hpos : (0 : ℚ) < 2 ^ lastBit q := zpow_pos (by norm_num) _
  have hx : (m : ℚ) + 1 / 2 < q / 2 ^ lastBit q := by
    rw [lt_div_iff₀ hpos]
    linarith
  have hround : m < roundHalfEven (q / 2 ^ lastBit q) := by
    have hfloor : m ≤ ⌊q / 2 ^ lastBit q⌋ := Int.le_floor.mpr (by linarith)
    rcases hfloor.eq_or_lt with heq | hlt
    · unfold roundHalfEven
      rw [← heq, if_neg (by linarith), if_pos (by linarith)]
      exact Int.lt_add_one_iff.mpr le_rfl
    · exact hlt.trans_le (roundHalfEven_bounds _).1
  unfold nearestDouble
  exact mul_lt_mul_of_pos_right (by exact_mod_cast hround) hpos

theorem two_pow_lastBit_le {q : ℚ} (hq : 0 < q) (h : -1074 < lastBit q) : 2 ^ (lastBit q + 52) ≤ q := by
  have hlog : lastBit q + 52 = Int.log 2 |q| := by
    unfold lastBit at h ⊢
    omega
  rw [hlog, abs_of_pos hq]
  exact_mod_cast Int.zpow_log_le_self (b := 2) (by norm_num) hq

/-! ## Rounding and powers of two -/

theorem nearestDouble_nonneg {q : ℚ} (h : 0 ≤ q) : 0 ≤ nearestDouble q := by
  have hle := le_nearestDouble (q := q) (m := 0) (by rwa [Int.cast_zero, zero_mul])
  rwa [Int.cast_zero, zero_mul] at hle

/-- What is at least a power of two stays so when it is rounded. -/
theorem two_pow_le_nearestDouble {q : ℚ} {k : ℤ} (hk : -1021 ≤ k) (h : 2 ^ k ≤ q) :
    2 ^ k ≤ nearestDouble q := by
  have hpos : 0 < q := lt_of_lt_of_le (zpow_pos (by norm_num) k) h
  have hlog : k ≤ Int.log 2 |q| := by
    rw [abs_of_pos hpos]
    exact (Int.zpow_le_iff_le_log (b := 2) (by norm_num) hpos).mp (by exact_mod_cast h)
  have hlast : k - 52 ≤ lastBit q := le_trans (by omega) (le_max_left _ _)
  have hle : 2 ^ (lastBit q + 52) ≤ q := two_pow_lastBit_le hpos (by omega)
  have hmultiple : (2 : ℚ) ^ (lastBit q + 52) = (2 ^ 52 : ℤ) * 2 ^ lastBit q := by
    rw [zpow_add₀ (by norm_num), mul_comm]
    norm_num
  calc (2 : ℚ) ^ k ≤ 2 ^ (lastBit q + 52) := zpow_le_zpow_right₀ (by norm_num) (by omega)
    _ = (2 ^ 52 : ℤ) * 2 ^ lastBit q := hmultiple
    _ ≤ nearestDouble q := le_nearestDouble (hmultiple ▸ hle)

theorem nearestDouble_le_two_pow {q : ℚ} {k : ℤ} (hk : -1074 ≤ k) (h : q ≤ 2 ^ k) :
    nearestDouble q ≤ 2 ^ k := by
  have htwo : (0 : ℚ) < 2 ^ k := zpow_pos (by norm_num) k
  rcases le_or_gt q 0 with hneg | hpos
  · have hle := nearestDouble_le (q := q) (m := 0) (by rwa [Int.cast_zero, zero_mul])
    rw [Int.cast_zero, zero_mul] at hle
    exact hle.trans htwo.le
  · have hlast : lastBit q ≤ k := by
      refine lastBit_le hpos.ne' hk ?_
      rw [abs_of_pos hpos]
      exact lt_of_le_of_lt h (zpow_lt_zpow_right₀ (by norm_num) (by omega))
    have hmultiple : (2 : ℚ) ^ k = ((2 ^ (k - lastBit q).toNat : ℤ) : ℚ) * 2 ^ lastBit q := by
      have hnat : ((k - lastBit q).toNat : ℤ) = k - lastBit q := Int.toNat_of_nonneg (by omega)
      rw [Int.cast_pow, Int.cast_ofNat, ← zpow_natCast, hnat, ← zpow_add₀ (by norm_num), sub_add_cancel]
    rw [hmultiple] at h ⊢
    exact nearestDouble_le h

theorem abs_nearestDouble_le_two_pow {q : ℚ} {k : ℤ} (hk : -1074 ≤ k) (h : |q| ≤ 2 ^ k) :
    |nearestDouble q| ≤ 2 ^ k := by
  rw [abs_le] at h ⊢
  refine ⟨?_, nearestDouble_le_two_pow hk h.2⟩
  have hneg := nearestDouble_le_two_pow hk (neg_le.mp h.1)
  rw [Number.nearestDouble_neg] at hneg
  exact neg_le.mp hneg

/-! ## Rounding keeps the order -/

theorem roundHalfEven_mono {x y : ℚ} (h : x ≤ y) : roundHalfEven x ≤ roundHalfEven y := by
  have hfloor : ⌊x⌋ ≤ ⌊y⌋ := Int.floor_le_floor h
  rcases hfloor.eq_or_lt with heq | hlt
  · have hfraction : x - ⌊x⌋ ≤ y - ⌊y⌋ := by
      rw [heq]
      linarith
    unfold roundHalfEven
    rw [heq] at hfraction ⊢
    split_ifs <;> first | omega | (exfalso; linarith)
  · have hx := (roundHalfEven_bounds x).2
    have hy := (roundHalfEven_bounds y).1
    omega

theorem nearestDouble_mono_of_pos {q r : ℚ} (hq : 0 < q) (h : q ≤ r) :
    nearestDouble q ≤ nearestDouble r := by
  have hr : 0 < r := hq.trans_le h
  have hlog : Int.log 2 |q| ≤ Int.log 2 |r| := by
    rw [abs_of_pos hq, abs_of_pos hr]
    exact Int.log_mono_right hq h
  have hlast : lastBit q ≤ lastBit r := max_le_max (by omega) le_rfl
  rcases hlast.eq_or_lt with heq | hlt
  · have hpos : (0 : ℚ) < 2 ^ lastBit r := zpow_pos (by norm_num) _
    unfold nearestDouble
    rw [heq]
    refine mul_le_mul_of_nonneg_right ?_ hpos.le
    exact_mod_cast roundHalfEven_mono (div_le_div_of_nonneg_right h hpos.le)
  · -- a power of two lies between them
    have hbit : lastBit r = Int.log 2 |r| - 52 := by
      have hle := le_max_right (Int.log 2 |q| - 52) (-1074)
      unfold lastBit at hlt ⊢
      omega
    have hk : -1021 ≤ Int.log 2 |r| := by
      have hle := le_max_right (Int.log 2 |q| - 52) (-1074)
      unfold lastBit at hlt hbit
      omega
    have hlow : q < 2 ^ Int.log 2 |r| := by
      have hlt' : Int.log 2 |q| < Int.log 2 |r| := by
        have hle := le_max_left (Int.log 2 |q| - 52) (-1074)
        unfold lastBit at hlt hbit
        omega
      rw [abs_of_pos hq] at hlt'
      exact_mod_cast (Int.lt_zpow_iff_log_lt (b := 2) (by norm_num) hq).mpr hlt'
    have hhigh : (2 : ℚ) ^ Int.log 2 |r| ≤ r := by
      conv_rhs => rw [← abs_of_pos hr]
      exact_mod_cast Int.zpow_log_le_self (b := 2) (by norm_num) (abs_pos.mpr hr.ne')
    exact (nearestDouble_le_two_pow (by omega) hlow.le).trans (two_pow_le_nearestDouble hk hhigh)

theorem nearestDouble_mono {q r : ℚ} (h : q ≤ r) : nearestDouble q ≤ nearestDouble r := by
  rcases lt_or_ge 0 q with hq | hq
  · exact nearestDouble_mono_of_pos hq h
  · have hneg : nearestDouble q ≤ 0 := by
      have hle := nearestDouble_nonneg (neg_nonneg.mpr hq)
      rw [Number.nearestDouble_neg] at hle
      linarith
    rcases lt_or_ge r 0 with hr | hr
    · have hle := nearestDouble_mono_of_pos (neg_pos.mpr hr) (neg_le_neg h)
      rw [Number.nearestDouble_neg, Number.nearestDouble_neg] at hle
      linarith
    · exact hneg.trans (nearestDouble_nonneg hr)

/-- A whole number rounds to one. -/
theorem exists_nearestDouble_intCast (z : ℤ) : ∃ y : ℤ, nearestDouble z = y := by
  rcases le_or_gt (lastBit z) 0 with hlast | hlast
  · exact ⟨z, nearestDouble_of_multiple (m := z) hlast (by rw [zpow_zero, mul_one])⟩
  · refine ⟨roundHalfEven (z / 2 ^ lastBit z) * 2 ^ (lastBit z).toNat, ?_⟩
    have hnat : ((lastBit z).toNat : ℤ) = lastBit z := Int.toNat_of_nonneg hlast.le
    unfold nearestDouble
    rw [Int.cast_mul, Int.cast_pow, Int.cast_ofNat, ← zpow_natCast (2 : ℚ), hnat]

namespace Number

/-! ## Arithmetic -/

/-- The value of a finite number. -/
def value? : Number → Option ℚ
  | finite x => some x.value
  | _ => none

theorem value?_natCast {n : ℕ} (h : n < 2 ^ 53) : (ofRat n).value? = some (n : ℚ) := by
  obtain ⟨x, hx, hval⟩ := exists_double_natCast h
  rw [hx]
  exact congrArg some hval

/-- A natural number reads back. -/
theorem ofDecimal_ofNat (n : ℕ) : ofDecimal (Decimal.ofNat n) = ofRat n := by
  have hvalue := ofScaled_value false n 0
  rw [if_neg Bool.false_ne_true, zpow_zero, mul_one] at hvalue
  unfold ofDecimal Decimal.ofNat
  rw [hvalue]

theorem natCast_inj {m n : ℕ} (hm : m < 2 ^ 53) (hn : n < 2 ^ 53) (h : ofRat m = ofRat n) : m = n := by
  have hval := congrArg value? h
  rw [value?_natCast hm, value?_natCast hn, Option.some.injEq] at hval
  exact_mod_cast hval

theorem natCast_add {m n : ℕ} (hm : m < 2 ^ 53) (hn : n < 2 ^ 53) :
    (ofRat m).add (ofRat n) = ofRat (m + n : ℕ) := by
  obtain ⟨x, hx, hxval⟩ := exists_double_natCast hm
  obtain ⟨y, hy, hyval⟩ := exists_double_natCast hn
  rw [hx, hy]
  show ofRat (x.value + y.value) = _
  rw [hxval, hyval, Nat.cast_add]

theorem natCast_times {m n : ℕ} (hm : m < 2 ^ 53) (hn : n < 2 ^ 53) :
    (ofRat m).times (ofRat n) = ofRat (m * n : ℕ) := by
  obtain ⟨x, hx, hxval⟩ := exists_double_natCast hm
  obtain ⟨y, hy, hyval⟩ := exists_double_natCast hn
  rw [hx, hy]
  show ofRat (x.value * y.value) = _
  rw [hxval, hyval, Nat.cast_mul]

/-- `x - 1`. -/
theorem sub_one (x : Double) : (finite x).sub (ofRat 1) = ofRat (x.value - 1) := by
  obtain ⟨y, hy, hyval⟩ := exists_double_natCast (n := 1) (by norm_num)
  rw [Nat.cast_one] at hy hyval
  have hneg : nearestDouble (-y.value) = -y.value := by rw [nearestDouble_neg, y.exact]
  have hfinite : |nearestDouble (-y.value)| < 2 ^ 1024 := by
    rw [hneg, abs_neg]
    exact y.finite
  rw [hy]
  show (finite x).add (ofRat (-y.value)) = _
  unfold ofRat
  rw [dif_pos hfinite]
  show ofRat (x.value + nearestDouble (-y.value)) = _
  rw [hneg, hyval, sub_eq_add_neg]
  rfl

/-! ## Comparison -/

/-- At least `2 ^ 53`. -/
def Large : Number → Prop
  | nan => False
  | infinity neg => neg = false
  | finite x => 2 ^ 53 ≤ x.value

theorem large_ofRat {q : ℚ} (h : 2 ^ 53 ≤ q) : (ofRat q).Large := by
  unfold ofRat
  split_ifs
  · show (2 : ℚ) ^ 53 ≤ nearestDouble q
    exact_mod_cast two_pow_le_nearestDouble (k := 53) (by norm_num) (by exact_mod_cast h)
  · exact decide_eq_false (not_lt.mpr (le_trans (by norm_num) h))

/-- Large numbers stay so when they are multiplied by one or more. -/
theorem Large.times {x : Number} (hx : x.Large) {y : Double} (hy : 1 ≤ y.value) :
    (x.times (finite y)).Large := by
  have hpos : 0 < y.value := lt_of_lt_of_le zero_lt_one hy
  cases x with
  | nan => exact hx
  | infinity neg =>
    cases hx
    show (if y.value = 0 then nan else infinity (false != decide (y.value < 0))).Large
    rw [if_neg hpos.ne', decide_eq_false (not_lt.mpr hpos.le)]
    rfl
  | finite x =>
    have hx' : (2 : ℚ) ^ 53 ≤ x.value := hx
    refine large_ofRat (hx'.trans (le_mul_of_one_le_right (le_trans (by norm_num) hx') hy))

/-- And when something is added. -/
theorem Large.add {x : Number} (hx : x.Large) {y : Double} (hy : 0 ≤ y.value) :
    (x.add (finite y)).Large := by
  cases x with
  | nan => exact hx
  | infinity neg => exact hx
  | finite x =>
    have hx' : (2 : ℚ) ^ 53 ≤ x.value := hx
    exact large_ofRat (le_add_of_le_of_nonneg hx' hy)

theorem Large.lt {x : Number} (hx : x.Large) {n : ℕ} (hn : n < 2 ^ 53) : lt (ofRat n) x := by
  obtain ⟨y, hy, hyval⟩ := exists_double_natCast hn
  rw [hy]
  cases x with
  | nan => exact absurd hx id
  | infinity neg =>
    cases hx
    rfl
  | finite x =>
    have hx' : (2 : ℚ) ^ 53 ≤ x.value := hx
    rw [lt_finite, hyval]
    exact decide_eq_true (lt_of_lt_of_le (by exact_mod_cast hn) hx')

/-- Comparing with a whole number below `2 ^ 53` is exact, however large the other one. -/
theorem lt_natCast {m n : ℕ} (hm : m < 2 ^ 53) : lt (ofRat m) (ofRat n) = decide (m < n) := by
  by_cases hn : n < 2 ^ 53
  · obtain ⟨x, hx, hxval⟩ := exists_double_natCast hm
    obtain ⟨y, hy, hyval⟩ := exists_double_natCast hn
    rw [hx, hy, lt_finite, hxval, hyval]
    exact decide_eq_decide.mpr Nat.cast_lt
  · have hlarge : (2 : ℚ) ^ 53 ≤ n := by exact_mod_cast not_lt.mp hn
    rw [decide_eq_true (hm.trans_le (not_lt.mp hn))]
    exact (large_ofRat hlarge).lt hm

/-! ## Order -/

@[simp] theorem le_finite (x y : Double) : le (finite x) (finite y) = decide (x.value ≤ y.value) := rfl

theorem not_lt_of_le {x y : Number} (h : le x y) : lt y x = false := by
  cases x with
  | nan => cases h
  | infinity neg =>
    cases y with
    | nan => cases h
    | infinity neg' => cases neg <;> cases neg' <;> first | rfl | cases h
    | finite y => cases neg <;> first | rfl | cases h
  | finite x =>
    cases y with
    | nan => cases h
    | infinity neg => cases neg <;> first | rfl | cases h
    | finite y =>
      rw [le_finite, decide_eq_true_eq] at h
      rw [lt_finite, decide_eq_false_iff_not]
      exact not_lt.mpr h

theorem le_infinity {x : Number} (hx : x ≠ nan) : le x (infinity false) := by
  cases x with
  | nan => exact absurd rfl hx
  | infinity neg => exact Bool.or_true neg
  | finite x => rfl

theorem infinity_le {x : Number} (hx : x ≠ nan) : le (infinity true) x := by
  cases x with
  | nan => exact absurd rfl hx
  | infinity neg => rfl
  | finite x => rfl

theorem ofRat_ne_nan (q : ℚ) : ofRat q ≠ nan := by
  unfold ofRat
  split_ifs <;> simp

/-- Rounding keeps the order, overflow included. -/
theorem ofRat_le {p q : ℚ} (h : p ≤ q) : le (ofRat p) (ofRat q) := by
  have hmono := nearestDouble_mono h
  by_cases hp : |nearestDouble p| < 2 ^ 1024
  · by_cases hq : |nearestDouble q| < 2 ^ 1024
    · unfold ofRat
      rw [dif_pos hp, dif_pos hq, le_finite, decide_eq_true_eq]
      exact hmono
    · have hpos : ¬ q < 0 := fun hneg => by
        have hle := nearestDouble_mono hneg.le
        rw [show nearestDouble 0 = 0 from zero.exact] at hle
        rw [abs_of_nonpos hle] at hq
        exact hq ((neg_le_neg hmono).trans_lt (neg_lt.mp (abs_lt.mp hp).1))
      rw [show ofRat q = infinity (q < 0) from dif_neg hq, decide_eq_false hpos]
      exact le_infinity (ofRat_ne_nan p)
  · by_cases hneg : p < 0
    · rw [show ofRat p = infinity (p < 0) from dif_neg hp, decide_eq_true hneg]
      exact infinity_le (ofRat_ne_nan q)
    · have hpnonneg := nearestDouble_nonneg (not_lt.mp hneg)
      rw [abs_of_nonneg hpnonneg] at hp
      have hq : ¬ |nearestDouble q| < 2 ^ 1024 := by
        rw [abs_of_nonneg (hpnonneg.trans hmono)]
        exact not_lt.mpr ((not_lt.mp hp).trans hmono)
      rw [show ofRat q = infinity (q < 0) from dif_neg hq,
        decide_eq_false (not_lt.mpr ((not_lt.mp hneg).trans h))]
      exact le_infinity (ofRat_ne_nan p)

/-- So does `Math.round`. -/
theorem round_le {x y : Number} (h : le x y) : le x.round y.round := by
  match x, y with
  | nan, _ => cases h
  | infinity neg, nan => cases h
  | finite x, nan => cases h
  | infinity neg, infinity neg' => exact h
  | infinity neg, finite y =>
    have hneg : neg = true := h
    subst hneg
    exact infinity_le (ofRat_ne_nan _)
  | finite x, infinity neg =>
    have hneg : neg = false := (Bool.not_eq_true' neg).mp h
    subst hneg
    exact le_infinity (ofRat_ne_nan _)
  | finite x, finite y =>
    rw [le_finite, decide_eq_true_eq] at h
    refine ofRat_le ?_
    exact_mod_cast Int.floor_mono (add_le_add_left h _)

/-- And `Math.max` with a double. -/
theorem max_le {x y : Number} (h : le x y) (c : Double) : le (x.max c.value) (y.max c.value) := by
  match x, y with
  | nan, _ => cases h
  | infinity neg, nan => cases h
  | finite x, nan => cases h
  | infinity true, infinity true =>
    show le (ofRat c.value) (ofRat c.value)
    exact ofRat_le le_rfl
  | infinity true, infinity false => exact le_infinity (ofRat_ne_nan _)
  | infinity false, infinity false => rfl
  | infinity true, finite y =>
    show le (ofRat c.value) (if y.value ≤ c.value then ofRat c.value else finite y)
    rw [ofRat_value]
    split_ifs with hy
    · exact decide_eq_true le_rfl
    · exact decide_eq_true (not_le.mp hy).le
  | finite x, infinity neg =>
    have hneg : neg = false := (Bool.not_eq_true' neg).mp h
    subst hneg
    show le (if x.value ≤ c.value then ofRat c.value else finite x) (infinity false)
    refine le_infinity ?_
    split_ifs
    · exact ofRat_ne_nan _
    · exact fun h => by cases h
  | finite x, finite y =>
    rw [le_finite, decide_eq_true_eq] at h
    show le (if x.value ≤ c.value then ofRat c.value else finite x)
      (if y.value ≤ c.value then ofRat c.value else finite y)
    rw [ofRat_value]
    split_ifs with hx hy hy
    · exact decide_eq_true le_rfl
    · exact decide_eq_true (not_le.mp hy).le
    · exact absurd (h.trans hy) hx
    · exact decide_eq_true h

/-! ## Quotients -/

/-- `x / y`, for a positive number `y`. -/
def dividedBy : Number → Number → Number
  | nan, _ | _, nan => nan
  | infinity _, infinity _ => nan
  | infinity neg, finite _ => infinity neg
  | finite _, infinity _ => finite zero
  | finite x, finite y => ofRat (x.value / y.value)

/-- `Math.ceil`. -/
def ceil : Number → Number
  | finite x => ofRat ⌈x.value⌉
  | x => x

/-- A quotient of whole numbers is not rounded over a whole number. -/
theorem ceil_nearestDouble {n k : ℕ} (hn : n < 2 ^ 53) (hk : 0 < k) (hfinite : (k : ℚ) < 2 ^ 1024) :
    ⌈nearestDouble (n / k)⌉ = ⌈(n / k : ℚ)⌉ := by
  rcases Nat.eq_zero_or_pos n with rfl | hpos
  · rw [Nat.cast_zero, zero_div]
    exact congrArg Int.ceil zero.exact
  have hk' : (0 : ℚ) < k := by exact_mod_cast hk
  have hn' : (0 : ℚ) < n := by exact_mod_cast hpos
  obtain ⟨q, hq⟩ : ∃ q : ℚ, q = n / k := ⟨_, rfl⟩
  have hqpos : 0 < q := by rw [hq]; positivity
  have hqle : q < 2 ^ 53 := by
    calc q ≤ n := by rw [hq]; exact div_le_self hn'.le (by exact_mod_cast hk)
      _ < 2 ^ 53 := by exact_mod_cast hn
  rw [← hq]
  -- the last bit of a quotient below `2 ^ 53` divides every whole number
  have hlast : lastBit q ≤ 0 :=
    lastBit_le hqpos.ne' (by norm_num) (by rw [abs_of_pos hqpos]; exact_mod_cast hqle)
  have hwhole : ∀ z : ℤ, (z : ℚ) = ((z * 2 ^ (-lastBit q).toNat : ℤ) : ℚ) * 2 ^ lastBit q := by
    intro z
    have hneg : ((-lastBit q).toNat : ℤ) = -lastBit q := Int.toNat_of_nonneg (by omega)
    have hcancel : (2 : ℚ) ^ (-lastBit q).toNat * 2 ^ lastBit q = 1 := by
      rw [← zpow_natCast, hneg, ← zpow_add₀ (by norm_num), neg_add_cancel, zpow_zero]
    push_cast
    rw [mul_assoc, hcancel, mul_one]
  -- above the whole number below it, the quotient lies by more than half its last bit
  have hhalf : (2 : ℚ) ^ lastBit q / 2 < 1 / k := by
    rw [div_lt_div_iff₀ (by norm_num) hk', one_mul]
    rcases eq_or_lt_of_le (show -1074 ≤ lastBit q from le_max_right _ _) with hmin | hmin
    · rw [← hmin]
      calc (2 : ℚ) ^ (-1074 : ℤ) * k < 2 ^ (-1074 : ℤ) * 2 ^ 1024 :=
            mul_lt_mul_of_pos_left hfinite (zpow_pos (by norm_num) _)
        _ = 2 ^ (-1074 + (1024 : ℕ) : ℤ) := by rw [zpow_add₀ (by norm_num), zpow_natCast]
        _ < 2 := by norm_num
    · have hle : (2 : ℚ) ^ (lastBit q + 52) * k ≤ n := by
        have hle := two_pow_lastBit_le hqpos hmin
        rw [hq] at hle ⊢
        exact (le_div_iff₀ hk').mp hle
      have hlt : (2 : ℚ) ^ (lastBit q + 52) * k < 2 ^ 53 := hle.trans_lt (by exact_mod_cast hn)
      have hsplit : (2 : ℚ) ^ (lastBit q + 52) = 2 ^ lastBit q * 2 ^ 52 := by
        rw [zpow_add₀ (by norm_num)]
        norm_num
      rw [hsplit] at hlt
      have h53 : (2 : ℚ) ^ 53 = 2 * 2 ^ 52 := by norm_num
      rw [h53] at hlt
      nlinarith [show (0 : ℚ) < 2 ^ 52 by norm_num]
  have hceil := Int.ceil_eq_iff.mp (show ⌈q⌉ = ⌈q⌉ from rfl)
  have hgap : ((⌈q⌉ - 1 : ℤ) : ℚ) + 1 / k ≤ q := by
    have hnat : ((⌈q⌉ - 1 : ℤ) : ℚ) * k < n := by
      rw [← lt_div_iff₀ hk', ← hq]
      push_cast
      exact hceil.1
    have hint : (⌈q⌉ - 1) * (k : ℤ) + 1 ≤ n := by
      have : (⌈q⌉ - 1) * (k : ℤ) < n := by exact_mod_cast hnat
      omega
    rw [hq, le_div_iff₀ hk', add_mul, one_div, inv_mul_cancel₀ hk'.ne', ← hq]
    exact_mod_cast hint
  refine Int.ceil_eq_iff.mpr ⟨?_, ?_⟩
  · have hlt := hwhole (⌈q⌉ - 1) ▸ lt_nearestDouble (q := q)
      (m := (⌈q⌉ - 1) * 2 ^ (-lastBit q).toNat) (by rw [← hwhole]; linarith)
    push_cast at hlt
    exact hlt
  · exact hwhole ⌈q⌉ ▸ nearestDouble_le (q := q) (m := ⌈q⌉ * 2 ^ (-lastBit q).toNat)
      (by rw [← hwhole]; exact hceil.2)

/-- `Math.ceil(n / k)`: how many `k` it takes to hold `n`. -/
theorem ceil_dividedBy {n k : ℕ} {y : Double} (hn : n < 2 ^ 53) (hy : y.value = k) (hk : 0 < k) :
    ((ofRat n).dividedBy (finite y)).ceil = ofRat (n ⌈/⌉ k : ℕ) := by
  obtain ⟨x, hx, hxval⟩ := exists_double_natCast hn
  have hk' : (0 : ℚ) < k := by exact_mod_cast hk
  have hceil : ⌈(n / k : ℚ)⌉ = (n ⌈/⌉ k : ℕ) := by
    rw [← Int.natCast_ceil_eq_ceil (by positivity), Nat.cast_inj]
    refine eq_of_forall_ge_iff fun c => ?_
    rw [Nat.ceil_le, ceilDiv_le_iff_le_mul hk, div_le_iff₀ hk', mul_comm]
    exact_mod_cast Iff.rfl
  have hround : ⌈nearestDouble (n / k)⌉ = (n ⌈/⌉ k : ℕ) :=
    (ceil_nearestDouble hn hk (hy ▸ (abs_lt.mp y.finite).2)).trans hceil
  have hfinite : |nearestDouble (n / k)| < 2 ^ 1024 := by
    have hlower : 0 ≤ nearestDouble (n / k) := nearestDouble_nonneg (by positivity)
    have hupper : nearestDouble (n / k) ≤ x.value := by
      have hle : n ⌈/⌉ k ≤ n := (ceilDiv_le_iff_le_mul hk).mpr (Nat.le_mul_of_pos_left n hk)
      rw [hxval]
      exact (Int.ceil_le.mp hround.le).trans (by exact_mod_cast hle)
    rw [abs_of_nonneg hlower]
    exact hupper.trans_lt (abs_lt.mp x.finite).2
  have hquotient : ofRat (n / k) = finite ⟨nearestDouble (n / k), nearestDouble_idem _, hfinite⟩ :=
    dif_pos hfinite
  rw [hx]
  show (ofRat (x.value / y.value)).ceil = _
  rw [hxval, hy, hquotient]
  show ofRat ⌈nearestDouble (n / k)⌉ = _
  rw [hround, Int.cast_natCast]

end Number

end Js
