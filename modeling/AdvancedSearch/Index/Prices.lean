import AdvancedSearch.Index.Dataset
import AdvancedSearch.Lib.Rounding

/-!
# Prices

A price is rounded to cents when a record is loaded. Below `2 ^ 51` cents this happens once and for all:
what is kept is a whole number of cents, prints as such and is read back as the same price; and however
large the amounts, prices keep their order (`prices_kept`). So what an index holds is itself a dataset,
and loading that again changes nothing (`load_reload`).
-/

namespace AdvancedSearch

open Js Number

/-- Rounding to cents keeps the order. -/
theorem roundToCents_le {x y : Number} (h : le x y) : le (roundToCents x) (roundToCents y) := by
  unfold roundToCents
  rw [div_eq_mul, div_eq_mul]
  exact mul_le (by positivity) (round_le (mul_le (by positivity) h))

/-- An amount of less than `2 ^ 51` cents. -/
def Moderate (amount : Double) : Prop := 0 ≤ amount.value ∧ amount.value * 100 < 2 ^ 51

/-- The cents an amount is rounded to. -/
def centsOf (amount : Double) : ℕ := ⌊nearestDouble (amount.value * 100) + 1 / 2⌋.toNat

/-- Nothing overflows up to `2 ^ 52`. -/
theorem exists_ofRat_eq {q : ℚ} (h0 : 0 ≤ q) (h : q ≤ 2 ^ 52) :
    ∃ x : Double, ofRat q = finite x ∧ x.value = nearestDouble q := by
  have hnonneg := nearestDouble_nonneg h0
  have hle := nearestDouble_le_two_pow (q := q) (k := 52) (by norm_num) (by exact_mod_cast h)
  have hfinite : |nearestDouble q| < 2 ^ 1024 := by
    rw [abs_of_nonneg hnonneg]
    refine hle.trans_lt ?_
    rw [show (52 : ℤ) = ((52 : ℕ) : ℤ) from rfl, zpow_natCast]
    exact pow_lt_pow_right₀ (by norm_num) (by decide)
  exact ⟨⟨nearestDouble q, nearestDouble_idem q, hfinite⟩, dif_pos hfinite, rfl⟩

section Cents

variable {amount : Double}

theorem centsOf_eq (h : 0 ≤ amount.value) :
    (centsOf amount : ℤ) = ⌊nearestDouble (amount.value * 100) + 1 / 2⌋ := by
  have hnonneg := nearestDouble_nonneg (mul_nonneg h (by norm_num : (0 : ℚ) ≤ 100))
  exact Int.toNat_of_nonneg (Int.floor_nonneg.mpr (by linarith))

theorem centsOf_le (h : Moderate amount) : centsOf amount ≤ 2 ^ 51 := by
  have hle := nearestDouble_le_two_pow (q := amount.value * 100) (k := 51) (by norm_num)
    (by exact_mod_cast h.2.le)
  have hfloor : ⌊nearestDouble (amount.value * 100) + 1 / 2⌋ < 2 ^ 51 + 1 := by
    rw [Int.floor_lt]
    push_cast
    norm_num at hle ⊢
    linarith
  have heq := centsOf_eq h.1
  omega

/-- Scaling up and dividing again each round once. -/
theorem roundToCents_eq (h0 : 0 ≤ amount.value) (h : amount.value * 100 ≤ 2 ^ 52)
    (hm : centsOf amount ≤ 2 ^ 51) : ∃ price : Double,
      ((finite amount).mul 100).round = ofRat (centsOf amount) ∧
      roundToCents (finite amount) = finite price ∧
      price.value = nearestDouble (centsOf amount / 100) := by
  obtain ⟨scaled, hscaled, hvalue⟩ := exists_ofRat_eq (mul_nonneg h0 (by norm_num)) h
  obtain ⟨cents, hcents, hwhole⟩ := exists_double_natCast (n := centsOf amount) (by omega)
  have hm' : (centsOf amount : ℚ) ≤ 2 ^ 52 := by exact_mod_cast hm.trans (by norm_num)
  obtain ⟨price, hprice, heq⟩ := exists_ofRat_eq (q := (centsOf amount : ℚ) / 100) (by positivity)
    ((div_le_self (by positivity) (by norm_num)).trans hm')
  have hround : ((finite amount).mul 100).round = ofRat (centsOf amount) := by
    show (ofRat (amount.value * 100)).round = _
    rw [hscaled]
    show ofRat ⌊scaled.value + 1 / 2⌋ = _
    rw [hvalue, ← centsOf_eq h0, Int.cast_natCast]
  refine ⟨price, hround, ?_, heq⟩
  have hfactor : (10 : ℚ) ^ currencyDecimals = 100 := by norm_num [currencyDecimals]
  unfold roundToCents
  rw [hfactor, hround, hcents]
  show ofRat (cents.value / 100) = _
  rw [hwhole, hprice]

/-- The cents are those of the amount, up to one rounding. -/
theorem abs_centsOf_sub_le (h : Moderate amount) :
    |(centsOf amount : ℚ) - amount.value * 100| ≤ 5 / 8 := by
  obtain ⟨h0, hle⟩ := h
  have hfloor := Int.floor_le (nearestDouble (amount.value * 100) + 1 / 2)
  have hlt := Int.lt_floor_add_one (nearestDouble (amount.value * 100) + 1 / 2)
  rw [← centsOf_eq h0, Int.cast_natCast] at hfloor hlt
  have herror : |nearestDouble (amount.value * 100) - amount.value * 100| ≤ 1 / 8 := by
    rcases h0.eq_or_lt with hzero | hpos
    · rw [← hzero, zero_mul, show nearestDouble 0 = 0 from zero.exact]
      norm_num
    have hbit : lastBit (amount.value * 100) ≤ -2 := by
      refine lastBit_le (by positivity) (by norm_num) ?_
      rw [abs_of_pos (by positivity)]
      norm_num
      linarith
    have htwo : (2 : ℚ) ^ lastBit (amount.value * 100) ≤ 2 ^ (-2 : ℤ) :=
      zpow_le_zpow_right₀ (by norm_num) hbit
    have hle := abs_nearestDouble_sub_le (amount.value * 100)
    norm_num at htwo
    linarith
  rw [abs_le] at herror ⊢
  constructor <;> linarith

theorem hundred_le : 100 ≤ 2 ^ 1000 :=
  le_trans (by norm_num : 100 ≤ 2 ^ 7) (pow_le_pow_right₀ (by omega) (by omega))

/-- Whole cents are scaled back to these cents. -/
theorem round_cents {m : ℕ} (hm : m ≤ 2 ^ 51) :
    ⌊nearestDouble (nearestDouble (m / 100) * 100) + 1 / 2⌋ = m := by
  rcases hm.lt_or_eq with hlt | rfl
  · have hround := round_nearestDouble_quotient (c := 100) (by norm_num) hundred_le hlt
    push_cast at hround
    exact hround
  · decide +kernel

/-- The double next to whole cents is small enough and stands for these cents. -/
theorem centsOf_price {price : Double} {m : ℕ} (hm : m ≤ 2 ^ 51)
    (hprice : price.value = nearestDouble (m / 100)) :
    0 ≤ price.value ∧ price.value * 100 ≤ 2 ^ 52 ∧ centsOf price = m := by
  have hm' : (m : ℚ) ≤ 2 ^ 51 := by exact_mod_cast hm
  have hclose := abs_le.mp (abs_quotient_sub_le (m := m) (c := 100) (by norm_num) hundred_le)
  push_cast at hclose
  rw [← hprice] at hclose
  refine ⟨?_, by linarith, ?_⟩
  · rw [hprice]
    exact nearestDouble_nonneg (by positivity)
  · unfold centsOf
    rw [hprice, round_cents hm, Int.toNat_natCast]

/-- Whole cents stay as they are. -/
theorem roundToCents_price {price : Double} {m : ℕ} (hm : m ≤ 2 ^ 51)
    (hprice : price.value = nearestDouble (m / 100)) :
    ((finite price).mul 100).round = ofRat m ∧ roundToCents (finite price) = finite price := by
  obtain ⟨h0, hle, hcents⟩ := centsOf_price hm hprice
  obtain ⟨again, hround, hagain, hvalue⟩ := roundToCents_eq h0 hle (by rwa [hcents])
  rw [hcents] at hround hvalue
  refine ⟨hround, ?_⟩
  rw [hagain, ← ofRat_value again, hvalue, ← hprice, ofRat_value]

/-- Whole cents print as they are. -/
theorem text_price {price : Double} {m : ℕ} (hm : m ≤ 2 ^ 51)
    (hprice : price.value = nearestDouble (m / 100)) :
    (finite price).text = String.ofList (Decimal.ofScaled false m (-2)).text := by
  have hprint : shortestDecimal (nearestDouble (m / 100)) = Decimal.ofScaled false m (-2) := by
    rcases hm.lt_or_eq with hlt | rfl
    · have hlow : (1 : ℚ) / 10 ^ 2 ≤ nearestDouble (1 / 10 ^ 2) := by decide +kernel
      have hprint := shortestDecimal_quotient (d := 2) hundred_le hlow hlt
      norm_num at hprint
      exact hprint
    · decide +kernel
  show String.ofList (shortestDecimal price.value).text = _
  rw [hprice, hprint]

end Cents

theorem Money.of_eq {amount : Double} (h : 0 ≤ amount.value) (currency : String) :
    Money.of (finite amount) currency = .ok ⟨roundToCents (finite amount), currency⟩ := by
  unfold Money.of
  rw [if_neg]
  show ¬ (true = false ∨ decide (amount.value < 0) = true)
  simpa using h

/-- Prices keep the order of the amounts, however large these are. A moderate amount is priced at the
double next to a whole number of cents, that of the amount up to one rounding; this prints as these
cents, is scaled to exactly these cents, and is priced at itself. -/
theorem prices_kept (currency : String) :
    (∀ cheap dear : Double, 0 ≤ cheap.value → cheap.value ≤ dear.value →
      ∃ p q : Money, Money.of (finite cheap) currency = .ok p ∧ Money.of (finite dear) currency = .ok q ∧
        le p.amount q.amount) ∧
    ∀ amount : Double, Moderate amount → ∃ (m : ℕ) (price : Double),
      m ≤ 2 ^ 51 ∧ |(m : ℚ) - amount.value * 100| ≤ 5 / 8 ∧
      price.value = nearestDouble (m / 100) ∧
      (finite price).text = String.ofList (Decimal.ofScaled false m (-2)).text ∧
      ((finite price).mul 100).round = ofRat m ∧
      Money.of (finite amount) currency = .ok ⟨finite price, currency⟩ ∧
      Money.of (finite price) currency = .ok ⟨finite price, currency⟩ := by
  constructor
  · intro cheap dear h0 hle
    refine ⟨_, _, Money.of_eq h0 currency, Money.of_eq (h0.trans hle) currency, ?_⟩
    exact roundToCents_le (decide_eq_true hle)
  · intro amount h
    have hm := centsOf_le h
    obtain ⟨price, -, hround, hprice⟩ := roundToCents_eq h.1 (by linarith [h.2]) hm
    obtain ⟨hscaled, hagain⟩ := roundToCents_price hm hprice
    refine ⟨centsOf amount, price, hm, abs_centsOf_sub_le h, hprice, text_price hm hprice, hscaled, ?_, ?_⟩
    · rw [Money.of_eq h.1, hround]
    · rw [Money.of_eq (centsOf_price hm hprice).1, hagain]

/-- 19.994. -/
def drillAmount : Double :=
  ⟨nearestDouble (19994 / 1000), nearestDouble_idem _, by decide +kernel⟩

theorem prices_kept_drill : centsOf drillAmount = 1999 ∧ ∃ (m : ℕ) (price : Double),
    m ≤ 2 ^ 51 ∧ |(m : ℚ) - drillAmount.value * 100| ≤ 5 / 8 ∧
    price.value = nearestDouble (m / 100) ∧
    (finite price).text = String.ofList (Decimal.ofScaled false m (-2)).text ∧
    ((finite price).mul 100).round = ofRat m ∧
    Money.of (finite drillAmount) "USD" = .ok ⟨finite price, "USD"⟩ ∧
    Money.of (finite price) "USD" = .ok ⟨finite price, "USD"⟩ :=
  ⟨by decide +kernel, (prices_kept "USD").2 drillAmount ⟨by decide +kernel, by decide +kernel⟩⟩

/-! ## Loading again -/

/-- A document taken as a record of the dataset. -/
def RawProduct.ofDocument (document : ProductDocument) : RawProduct where
  id := document.id
  name := document.name
  description := document.description
  category := document.category
  subcategories := document.subcategories
  location := document.location
  price := document.price
  popularity := document.popularity
  createdAt := document.createdAt

/-- A product is what it was made from. -/
theorem Product.create_props {props : ProductProps} {product : Product}
    (h : Product.create props = .ok product) : props =
      { id := product.id, name := product.name, description := product.description
        category := product.category, subcategories := product.subcategories
        location := product.location, price := product.price, popularity := product.popularity
        createdAt := some product.createdAt } := by
  obtain ⟨id, name, description, category, subcategories, location, price, popularity, createdAt⟩ := props
  unfold Product.create at h
  split_ifs at h
  cases createdAt with
  | none => cases h
  | some time =>
    cases h
    rfl

/-- The price of a loaded record is whole cents. -/
theorem money_of_record {amount : Number} {money : Money}
    (hmoderate : ∀ x, amount = finite x → x.value * 100 < 2 ^ 51) (h : Money.of amount = .ok money) :
    Money.of money.amount = .ok money := by
  cases amount with
  | nan => cases h
  | infinity neg => cases h
  | finite x =>
    by_cases h0 : 0 ≤ x.value
    · have hx : Moderate x := ⟨h0, hmoderate x rfl⟩
      have hm := centsOf_le hx
      obtain ⟨price, -, hround, hprice⟩ := roundToCents_eq h0 (by linarith [hx.2]) hm
      rw [Money.of_eq h0, hround] at h
      cases h
      rw [Money.of_eq (centsOf_price hm hprice).1, (roundToCents_price hm hprice).2]
    · unfold Money.of at h
      rw [if_pos (.inr (decide_eq_true (not_le.mp h0)))] at h
      cases h

section Reload

variable {parseDate : String → Option ℤ}

theorem toProduct_reload (hdate : ∀ text t, parseDate text = some t → parseDate (toISOString t) = some t)
    {record : RawProduct} {product : Product}
    (hmoderate : ∀ x, record.price = finite x → x.value * 100 < 2 ^ 51)
    (h : toProduct parseDate record = .ok product) :
    toProduct parseDate (.ofDocument (toProductDocument product)) = .ok product := by
  unfold toProduct at h ⊢
  cases hmoney : Money.of record.price with
  | error e =>
    rw [hmoney] at h
    cases h
  | ok money =>
    rw [hmoney] at h
    have hcreate : Product.create
        { id := record.id, name := record.name, description := record.description
          category := record.category, subcategories := record.subcategories
          location := record.location, price := money, popularity := record.popularity
          createdAt := parseDate record.createdAt } = .ok product := h
    have hprops := Product.create_props hcreate
    have hprice : money = product.price := congrArg ProductProps.price hprops
    have hcreated : parseDate record.createdAt = some product.createdAt :=
      congrArg ProductProps.createdAt hprops
    have hagain : Money.of product.price.amount = .ok product.price :=
      hprice ▸ money_of_record hmoderate hmoney
    rw [hprops] at hcreate
    show (Money.of product.price.amount >>= fun price => Product.create _) = _
    rw [hagain]
    show Product.create _ = _
    rw [show parseDate (RawProduct.ofDocument (toProductDocument product)).createdAt =
      some product.createdAt from hdate _ _ hcreated]
    exact hcreate

theorem loadProducts_of_ok {records : List RawProduct} {products : List Product}
    (h : records.map (toProduct parseDate) = products.map .ok) :
    loadProducts parseDate records = ⟨products, []⟩ := by
  rw [loadProducts_eq]
  induction records generalizing products with
  | nil =>
    cases products with
    | nil => rfl
    | cons product products => cases h
  | cons record records ih =>
    cases products with
    | nil => cases h
    | cons product products =>
      simp only [List.map_cons, List.cons.injEq] at h
      obtain ⟨hrecord, hrest⟩ := h
      have htail := ih hrest
      simp only [DatasetLoadResult.mk.injEq] at htail ⊢
      simp only [List.filterMap_cons, hrecord]
      exact ⟨congrArg (product :: ·) htail.1, htail.2⟩

/-- What was loaded, stored and taken as a dataset is loaded as it is: no record is rejected and every
product is the same, its price included. -/
theorem load_reload (hdate : ∀ text t, parseDate text = some t → parseDate (toISOString t) = some t)
    {records : List RawProduct}
    (hmoderate : ∀ record ∈ records, ∀ x, record.price = finite x → x.value * 100 < 2 ^ 51) :
    loadProducts parseDate ((loadProducts parseDate records).products.map fun product =>
      .ofDocument (toProductDocument product)) = ⟨(loadProducts parseDate records).products, []⟩ := by
  have hall : ∀ product ∈ (loadProducts parseDate records).products,
      toProduct parseDate (.ofDocument (toProductDocument product)) = .ok product := by
    intro product hproduct
    rw [loadProducts_eq] at hproduct
    obtain ⟨record, hrecord, hload⟩ := List.mem_filterMap.mp hproduct
    cases hr : toProduct parseDate record with
    | error e =>
      rw [hr] at hload
      cases hload
    | ok loaded =>
      rw [hr] at hload
      cases hload
      exact toProduct_reload hdate (hmoderate record hrecord) hr
  refine loadProducts_of_ok ?_
  rw [List.map_map]
  exact List.map_congr_left hall

end Reload

/-- A reader of the one date that it prints. -/
def parseOneDate (text : String) : Option ℤ :=
  if text = "2000-02-29" ∨ text = toISOString 951782400000 then some 951782400000 else none

/-- A record priced 19.994 and one without a name. -/
def pricedRecords : List RawProduct :=
  [{ id := "p-1", name := "Drill", description := "", category := "Tools", subcategories := ["Power"]
     location := "Lisbon", price := finite drillAmount, popularity := finite zero
     createdAt := "2000-02-29" },
   { id := "p-2", name := " ", description := "", category := "Tools", subcategories := []
     location := "Lisbon", price := finite zero, popularity := finite zero, createdAt := "2000-02-29" }]

theorem load_reload_priced : (loadProducts parseOneDate pricedRecords).products.length = 1 ∧
    loadProducts parseOneDate ((loadProducts parseOneDate pricedRecords).products.map fun product =>
      .ofDocument (toProductDocument product)) =
      ⟨(loadProducts parseOneDate pricedRecords).products, []⟩ := by
  refine ⟨by decide +kernel, load_reload ?_ ?_⟩
  · intro text t h
    unfold parseOneDate at h
    split_ifs at h
    cases h
    exact if_pos (.inr rfl)
  · intro record hrecord x hx
    simp only [pricedRecords, List.mem_cons, List.not_mem_nil, or_false] at hrecord
    rcases hrecord with rfl | rfl
    · cases hx
      decide +kernel
    · cases hx
      decide +kernel

end AdvancedSearch
