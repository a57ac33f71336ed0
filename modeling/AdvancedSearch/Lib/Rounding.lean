import AdvancedSearch.Lib.Counts

/-!
# Decimals with few digits

The double next to a decimal `m / c` with a scaled value below `2 ^ 51` still says which decimal it was:
scaling it up again rounds to `m` (`round_nearestDouble_quotient`), no other decimal at that scale reads
as the same double (`quotient_inj`), and printing it prints the decimal (`shortestDecimal_quotient`).
-/

namespace Js

/-! ## The error of one rounding -/

theorem abs_roundHalfEven_sub_le (x : ℚ) : |roundHalfEven x - x| ≤ 1 / 2 := by
  have hlo := Int.floor_le x
  have hhi := Int.lt_floor_add_one x
  rw [abs_le]
  unfold roundHalfEven
  split_ifs <;> constructor <;> push_cast <;> linarith

theorem abs_nearestDouble_sub_le (q : ℚ) : |nearestDouble q - q| ≤ 2 ^ lastBit q / 2 := by
  have hpos : (0 : ℚ) < 2 ^ lastBit q := zpow_pos (by norm_num) _
  have hsplit : nearestDouble q - q =
      (roundHalfEven (q / 2 ^ lastBit q) - q / 2 ^ lastBit q) * 2 ^ lastBit q := by
    unfold nearestDouble
    rw [sub_mul, div_mul_cancel₀ _ hpos.ne']
  calc |nearestDouble q - q|
      = |(roundHalfEven (q / 2 ^ lastBit q) : ℚ) - q / 2 ^ lastBit q| * 2 ^ lastBit q := by
        rw [hsplit, abs_mul, abs_of_pos hpos]
    _ ≤ 1 / 2 * 2 ^ lastBit q := mul_le_mul_of_nonneg_right (abs_roundHalfEven_sub_le _) hpos.le
    _ = 2 ^ lastBit q / 2 := by ring

/-- Above the subnormals the error is relative. -/
theorem abs_nearestDouble_sub_le_div {q : ℚ} (hq : 2 ^ (-1021 : ℤ) ≤ q) :
    |nearestDouble q - q| ≤ q / 2 ^ 53 := by
  have hpos : 0 < q := (zpow_pos (by norm_num) _).trans_le hq
  have hlog : -1021 ≤ Int.log 2 |q| := by
    rw [abs_of_pos hpos]
    exact (Int.zpow_le_iff_le_log (b := 2) (by norm_num) hpos).mp (by exact_mod_cast hq)
  have hbit : -1074 < lastBit q := lt_max_of_lt_left (by omega)
  have hscale := two_pow_lastBit_le hpos hbit
  rw [zpow_add₀ (by norm_num), show (2 : ℚ) ^ (52 : ℤ) = 2 ^ 52 by norm_cast] at hscale
  calc |nearestDouble q - q| ≤ 2 ^ lastBit q / 2 := abs_nearestDouble_sub_le q
    _ = 2 ^ lastBit q * 2 ^ 52 / 2 ^ 53 := by ring
    _ ≤ q / 2 ^ 53 := div_le_div_of_nonneg_right hscale (by positivity)

/-! ## Scaled up again -/

section Quotient

variable {m c : ℕ}

/-- The double next to `m / c` is off by a part in `2 ^ 53`. -/
theorem abs_quotient_sub_le (hc : 0 < c) (hbig : c ≤ 2 ^ 1000) :
    |nearestDouble (m / c) * c - m| ≤ m / 2 ^ 53 := by
  have hc' : (0 : ℚ) < c := by exact_mod_cast hc
  rcases Nat.eq_zero_or_pos m with rfl | hm
  · rw [Nat.cast_zero, zero_div, show nearestDouble 0 = 0 from Number.zero.exact]
    norm_num
  have hq : (2 : ℚ) ^ (-1021 : ℤ) ≤ m / c := by
    have hbig' : (c : ℚ) ≤ 2 ^ 1000 := by exact_mod_cast hbig
    have hm' : (1 : ℚ) ≤ m := by exact_mod_cast hm
    calc (2 : ℚ) ^ (-1021 : ℤ) ≤ 2 ^ (-1000 : ℤ) := zpow_le_zpow_right₀ (by norm_num) (by norm_num)
      _ = 1 / 2 ^ 1000 := by
        rw [show (-1000 : ℤ) = -((1000 : ℕ) : ℤ) from rfl, zpow_neg, zpow_natCast, one_div]
      _ ≤ 1 / c := one_div_le_one_div_of_le hc' hbig'
      _ ≤ m / c := div_le_div_of_nonneg_right hm' hc'.le
  calc |nearestDouble (m / c) * c - m| = |nearestDouble (m / c) - m / c| * c := by
        rw [← abs_of_pos hc', ← abs_mul, abs_of_pos hc', sub_mul, div_mul_cancel₀ _ hc'.ne']
    _ ≤ m / c / 2 ^ 53 * c :=
        mul_le_mul_of_nonneg_right (abs_nearestDouble_sub_le_div hq) hc'.le
    _ = m / 2 ^ 53 := by field_simp

/-- Scaling up and rounding gives the scaled value back. -/
theorem round_nearestDouble_quotient (hc : 0 < c) (hbig : c ≤ 2 ^ 1000) (hm : m < 2 ^ 51) :
    ⌊nearestDouble (nearestDouble (m / c) * c) + 1 / 2⌋ = m := by
  rcases Nat.eq_zero_or_pos m with rfl | hpos
  · rw [Nat.cast_zero, zero_div, show nearestDouble 0 = 0 from Number.zero.exact, zero_mul,
      show nearestDouble 0 = 0 from Number.zero.exact]
    norm_num
  have hm1 : (1 : ℚ) ≤ m := by exact_mod_cast hpos
  have hm2 : (m : ℚ) + 1 ≤ 2 ^ 51 := by exact_mod_cast hm
  obtain ⟨q, hq⟩ : ∃ q : ℚ, q = nearestDouble (m / c) * c := ⟨_, rfl⟩
  have hfirst := abs_le.mp (abs_quotient_sub_le (m := m) hc hbig)
  rw [← hq] at hfirst ⊢
  have hnormal : (2 : ℚ) ^ (-1021 : ℤ) ≤ q := by
    calc (2 : ℚ) ^ (-1021 : ℤ) ≤ 2 ^ (-1 : ℤ) := zpow_le_zpow_right₀ (by norm_num) (by norm_num)
      _ ≤ q := by norm_num; linarith
  have hsecond := abs_le.mp (abs_nearestDouble_sub_le_div hnormal)
  rw [Int.floor_eq_iff, Int.cast_natCast]
  constructor <;> linarith

/-- Different scaled values are different doubles. -/
theorem quotient_inj (hc : 0 < c) (hbig : c ≤ 2 ^ 1000) (hm : m < 2 ^ 51) {m' : ℕ}
    (h : nearestDouble (m' / c) = nearestDouble (m / c)) : m' = m := by
  have hm' : (m : ℚ) + 1 ≤ 2 ^ 51 := by exact_mod_cast hm
  have hfirst := abs_le.mp (abs_quotient_sub_le (m := m) hc hbig)
  have hsecond := abs_le.mp (abs_quotient_sub_le (m := m') hc hbig)
  rw [h] at hsecond
  have hlt : (m : ℚ) < m' + 1 := by linarith
  have hgt : (m' : ℚ) < m + 1 := by linarith
  have hlt' : m < m' + 1 := by exact_mod_cast hlt
  have hgt' : m' < m + 1 := by exact_mod_cast hgt
  omega

end Quotient

namespace Number

/-! ## Order -/

/-- Scaling up keeps the order, overflow included. -/
theorem mul_le {x y : Number} {c : ℚ} (hc : 0 < c) (h : le x y) : le (x.mul c) (y.mul c) := by
  match x, y with
  | nan, _ => cases h
  | infinity neg, nan => cases h
  | finite x, nan => cases h
  | infinity neg, infinity neg' => exact h
  | infinity neg, finite y =>
    have hneg : neg = true := h
    subst hneg
    exact infinity_le (ofRat_ne_nan _)
  | finite x, infinity neg =>
    have hneg : neg = false := (Bool.not_eq_true' neg).mp h
    subst hneg
    exact le_infinity (ofRat_ne_nan _)
  | finite x, finite y =>
    rw [le_finite, decide_eq_true_eq] at h
    exact ofRat_le (mul_le_mul_of_nonneg_right h hc.le)

/-- Dividing is scaling by the inverse: both round once. -/
theorem div_eq_mul (x : Number) (c : ℚ) : x.div c = x.mul c⁻¹ := by
  cases x with
  | finite x =>
    show ofRat (x.value / c) = ofRat (x.value * c⁻¹)
    rw [div_eq_mul_inv]
  | _ => rfl

/-! ## Printed -/

/-- The search stops at the first number of digits that reads. -/
theorem searchDigits_le {x : ℚ} {n : ℤ} {fuel k j : ℕ} (hj : (digitsOf x n j).isSome) (hk : k ≤ j)
    (hf : j < k + fuel) : ∃ k' s, searchDigits x n fuel k = some (k', s) ∧ k' ≤ j := by
  induction fuel generalizing k with
  | zero => omega
  | succ fuel ih =>
    unfold searchDigits
    cases hd : digitsOf x n k with
    | some s => exact ⟨k, s, rfl, hk⟩
    | none =>
      refine ih ?_ (by omega)
      rcases Nat.eq_or_lt_of_le hk with rfl | hlt
      · rw [hd] at hj
        cases hj
      · omega

/-- A decimal with `d` digits after the point that a double reads is among those tried. -/
theorem digitsOf_quotient {m d : ℕ} (hd : 10 ^ d ≤ 2 ^ 1000) (hm : m < 2 ^ 51) {n : ℤ} {k : ℕ}
    (hk : n - k = -d) : (digitsOf (nearestDouble (m / 10 ^ d)) n k).isSome := by
  have hc : 0 < 10 ^ d := by positivity
  have hclose := abs_le.mp (abs_quotient_sub_le (m := m) hc hd)
  push_cast at hclose
  have hm' : (m : ℚ) + 1 ≤ 2 ^ 51 := by exact_mod_cast hm
  have hscaled : nearestDouble (m / 10 ^ d) / 10 ^ (n - k : ℤ) = nearestDouble (m / 10 ^ d) * 10 ^ d := by
    rw [hk, zpow_neg, div_inv_eq_mul, zpow_natCast]
  have hround := abs_le.mp (abs_roundHalfEven_sub_le (nearestDouble (m / 10 ^ d) * 10 ^ d))
  have heq : roundHalfEven (nearestDouble (m / 10 ^ d) * 10 ^ d) = m := by
    obtain ⟨r, hr⟩ : ∃ r, r = roundHalfEven (nearestDouble (m / 10 ^ d) * 10 ^ d) := ⟨_, rfl⟩
    rw [← hr] at hround ⊢
    have hlt : ((m : ℤ) : ℚ) < ((r + 1 : ℤ) : ℚ) := by
      push_cast
      linarith
    have hgt : (r : ℚ) < ((m + 1 : ℤ) : ℚ) := by
      push_cast
      linarith
    have hlt' := Int.cast_lt.mp hlt
    have hgt' := Int.cast_lt.mp hgt
    omega
  unfold digitsOf
  rw [List.find?_isSome]
  refine ⟨m, ?_, ?_⟩
  · simp only [hscaled, heq]
    exact List.mem_cons_self
  · rw [decide_eq_true_eq, hk, zpow_neg, zpow_natCast, Int.cast_natCast, ← div_eq_mul_inv]

/-- Trailing zeros do not count. -/
theorem ofScaled_mul_pow (neg : Bool) (s j : ℕ) (e : ℤ) :
    Decimal.ofScaled neg (s * 10 ^ j) (e - j) = Decimal.ofScaled neg s e := by
  unfold Decimal.ofScaled
  by_cases h : s = 0
  · rw [dif_pos h, dif_pos (by rw [h, Nat.zero_mul])]
  · obtain ⟨s', i, hs', hi⟩ := Decimal.exists_strip h
    have hj : s * 10 ^ j = s' * 10 ^ (i + j) := by rw [hi, pow_add, Nat.mul_assoc]
    have hne : s * 10 ^ j ≠ 0 := Nat.mul_ne_zero h (by positivity)
    have hstrip : Decimal.strip s s e = (s', e + i) := by
      conv_lhs => arg 2; rw [hi]
      exact Decimal.strip_eq hs' hi.ge e
    have hstrip' : Decimal.strip (s * 10 ^ j) (s * 10 ^ j) (e - j) = (s', e + i) := by
      conv_lhs => arg 2; rw [hj]
      rw [Decimal.strip_eq hs' hj.ge (e - j)]
      congr 1
      push_cast
      ring
    rw [dif_neg h, dif_neg hne]
    simp only [hstrip, hstrip']

/-- The double next to a decimal with `d` digits after the point prints as that decimal. -/
theorem shortestDecimal_quotient {m d : ℕ} (hd : 10 ^ d ≤ 2 ^ 1000)
    (hlow : (1 : ℚ) / 10 ^ d ≤ nearestDouble (1 / 10 ^ d)) (hm : m < 2 ^ 51) :
    shortestDecimal (nearestDouble (m / 10 ^ d)) = Decimal.ofScaled false m (-d) := by
  obtain ⟨x, hx⟩ : ∃ x, x = nearestDouble (m / 10 ^ d) := ⟨_, rfl⟩
  rw [← hx]
  rcases Nat.eq_zero_or_pos m with rfl | hpos
  · rw [Nat.cast_zero, zero_div, show nearestDouble 0 = 0 from zero.exact] at hx
    rw [hx]
    rfl
  have hc : 0 < 10 ^ d := by positivity
  have hten : (0 : ℚ) < 10 ^ d := by positivity
  have hm1 : (1 : ℚ) ≤ m := by exact_mod_cast hpos
  have hxlow : (1 : ℚ) / 10 ^ d ≤ x := by
    rw [hx]
    exact hlow.trans (nearestDouble_mono (div_le_div_of_nonneg_right hm1 hten.le))
  have hxpos : 0 < x := (by positivity : (0 : ℚ) < 1 / 10 ^ d).trans_le hxlow
  have hxhigh : x ≤ 2 ^ (51 : ℤ) := by
    rw [hx]
    refine nearestDouble_le_two_pow (by norm_num) ?_
    calc (m : ℚ) / 10 ^ d ≤ m := div_le_self (by linarith) (one_le_pow₀ (by norm_num))
      _ ≤ 2 ^ (51 : ℤ) := by exact_mod_cast hm.le
  have hnlow : -(d : ℤ) ≤ Int.log 10 x := by
    refine (Int.zpow_le_iff_le_log (b := 10) (by norm_num) hxpos).mp ?_
    rw [zpow_neg, zpow_natCast, Nat.cast_ofNat, ← one_div]
    exact hxlow
  have hnhigh : Int.log 10 x < 16 := by
    refine (Int.lt_zpow_iff_log_lt (b := 10) (by norm_num) hxpos).mp (hxhigh.trans_lt ?_)
    norm_num
  obtain ⟨k, hk⟩ : ∃ k : ℕ, (k : ℤ) = Int.log 10 x + 1 + d := ⟨(Int.log 10 x + 1 + d).toNat, by omega⟩
  have hsome : (digitsOf x (Int.log 10 x + 1) k).isSome := by
    rw [hx] at hk ⊢
    exact digitsOf_quotient hd hm (by omega)
  have hdsmall : d ≤ 1000 := by
    have htwo : 2 ^ d ≤ 10 ^ d := pow_le_pow_left₀ (by decide) (by decide) d
    exact (pow_le_pow_iff_right₀ Nat.one_lt_two).mp (htwo.trans hd)
  obtain ⟨k', s, hs, hk'⟩ : ∃ k' s, searchDigits x (Int.log 10 x + 1) 1400 1 = some (k', s) ∧ k' ≤ k :=
    searchDigits_le hsome (by omega) (by omega)
  have hdigits := searchDigits_some hs
  have hnonneg := digitsOf_nonneg hxpos.le hdigits
  -- what was found is a decimal with at most `d` digits after the point, so it is this one
  obtain ⟨j, hj⟩ : ∃ j : ℕ, (j : ℤ) = Int.log 10 x + 1 - k' + d :=
    ⟨(Int.log 10 x + 1 - k' + d).toNat, by omega⟩
  have hvalue : (s : ℚ) * 10 ^ (Int.log 10 x + 1 - k') =
      ((s.toNat * 10 ^ j : ℕ) : ℚ) / ((10 ^ d : ℕ) : ℚ) := by
    rw [show Int.log 10 x + 1 - k' = j - d by omega, zpow_sub₀ (by norm_num), zpow_natCast, zpow_natCast]
    have hcast : ((s.toNat : ℕ) : ℚ) = s := by exact_mod_cast Int.toNat_of_nonneg hnonneg
    push_cast
    rw [hcast, mul_div_assoc]
  have hreads := digitsOf_reads hdigits
  rw [hvalue, hx] at hreads
  have heq : s.toNat * 10 ^ j = m := quotient_inj hc hd hm (by rw [hreads]; push_cast; rfl)
  unfold shortestDecimal
  rw [if_neg hxpos.ne', abs_of_pos hxpos]
  simp only [hs, decide_eq_false (not_lt.mpr hxpos.le)]
  rw [← heq, show (-d : ℤ) = Int.log 10 x + 1 - k' - j by omega, ofScaled_mul_pow]

end Number

end Js
