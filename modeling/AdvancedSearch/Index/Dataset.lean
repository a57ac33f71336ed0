import AdvancedSearch.Lib.Number
import AdvancedSearch.Lib.Text

/-!
# The seed dataset

Raw records become domain products or are reported with a reason, and a product is indexed as a
plain document. How a date text is read is left to the platform (`parseDate`, `none` for an invalid
date); how a date is printed is not.

`catalogue` is what an index that holds exactly a list of products has under an id: the document of
the last product with that id.
-/

namespace AdvancedSearch

open Js

/-! ## Domain -/

/-- `InvariantViolationError`: a domain invariant was violated. -/
structure InvariantViolationError where
  message : String
  deriving DecidableEq, Repr

/-- `CURRENCY_DECIMALS`. -/
def currencyDecimals : ℕ := 2

def roundToCents (value : Number) : Number :=
  ((value.mul (10 ^ currencyDecimals)).round).div (10 ^ currencyDecimals)

/-- An amount in a currency. -/
structure Money where
  amount : Number
  currency : String
  deriving DecidableEq

def Money.of (amount : Number) (currency : String := "USD") : Except InvariantViolationError Money :=
  if amount.isFinite = false ∨ amount.isNegative then
    .error ⟨"Money amount must be a non-negative finite number, got: " ++ amount.text⟩
  else .ok ⟨roundToCents amount, currency⟩

/-- Whether a text is empty once trimmed. -/
def isBlank (s : String) : Bool := s.toList.all isTrimmed

/-- What a product is made from; an invalid date has no time value. -/
structure ProductProps where
  id : String
  name : String
  description : String
  category : String
  subcategories : List String
  location : String
  price : Money
  popularity : Number
  createdAt : Option ℤ

/-- A product; only `Product.create` makes one. -/
structure Product where
  id : String
  name : String
  description : String
  category : String
  subcategories : List String
  location : String
  price : Money
  popularity : Number
  createdAt : ℤ
  named : isBlank id = false ∧ isBlank name = false
  counted : popularity.isInteger ∧ popularity.isNegative = false

def Product.create (props : ProductProps) : Except InvariantViolationError Product :=
  if hid : isBlank props.id then .error ⟨"Product id must not be empty"⟩
  else if hname : isBlank props.name then .error ⟨"Product name must not be empty"⟩
  else if hpop : props.popularity.isInteger = false ∨ props.popularity.isNegative then
    .error ⟨"Product popularity must be a non-negative integer"⟩
  else
    match props.createdAt with
    | none => .error ⟨"Product createdAt must be a valid date"⟩
    | some time =>
      .ok
        { props with
          createdAt := time
          named := ⟨Bool.eq_false_of_not_eq_true hid, Bool.eq_false_of_not_eq_true hname⟩
          counted := by simpa [not_or] using hpop }

/-! ## Loading -/

/-- A record of the dataset file. -/
structure RawProduct where
  id : String
  name : String
  description : String
  category : String
  subcategories : List String
  location : String
  price : Number
  popularity : Number
  createdAt : String

structure InvalidRecord where
  id : Option String
  reason : String
  deriving DecidableEq, Repr

structure DatasetLoadResult where
  products : List Product
  invalid : List InvalidRecord

section Load

variable (parseDate : String → Option ℤ)

def toProduct (record : RawProduct) : Except InvariantViolationError Product := do
  let price ← Money.of record.price
  Product.create
    { id := record.id
      name := record.name
      description := record.description
      category := record.category
      subcategories := record.subcategories
      location := record.location
      price := price
      popularity := record.popularity
      createdAt := parseDate record.createdAt }

/-- Valid records as products, the others with a reason. -/
def loadProducts (records : List RawProduct) : DatasetLoadResult :=
  records.foldl
    (fun loaded record =>
      match toProduct parseDate record with
      | .ok product => { loaded with products := loaded.products ++ [product] }
      | .error error =>
        { loaded with invalid := loaded.invalid ++ [⟨some record.id, error.message⟩] })
    ⟨[], []⟩

theorem Product.create_id {props : ProductProps} {product : Product}
    (h : Product.create props = .ok product) : product.id = props.id := by
  unfold Product.create at h
  split_ifs at h
  split at h
  · cases h
  · cases h; rfl

theorem toProduct_id {record : RawProduct} {product : Product}
    (h : toProduct parseDate record = .ok product) : product.id = record.id := by
  unfold toProduct at h
  cases hm : Money.of record.price with
  | error e => rw [hm] at h; cases h
  | ok price => rw [hm] at h; exact Product.create_id h

theorem loadProducts_eq (records : List RawProduct) :
    loadProducts parseDate records =
      ⟨records.filterMap fun r => (toProduct parseDate r).toOption,
        records.filterMap fun r =>
          match toProduct parseDate r with
          | .ok _ => none
          | .error error => some ⟨some r.id, error.message⟩⟩ := by
  unfold loadProducts
  have h : ∀ (loaded : DatasetLoadResult), records.foldl
      (fun loaded record =>
        match toProduct parseDate record with
        | .ok product => { loaded with products := loaded.products ++ [product] }
        | .error error =>
          { loaded with invalid := loaded.invalid ++ [⟨some record.id, error.message⟩] }) loaded =
      ⟨loaded.products ++ records.filterMap fun r => (toProduct parseDate r).toOption,
        loaded.invalid ++ records.filterMap fun r =>
          match toProduct parseDate r with
          | .ok _ => none
          | .error error => some ⟨some r.id, error.message⟩⟩ := by
    induction records with
    | nil => intro loaded; simp
    | cons record records ih =>
      intro loaded
      rw [List.foldl_cons, ih, List.filterMap_cons, List.filterMap_cons]
      cases toProduct parseDate record <;> simp [Except.toOption]
  simpa using h ⟨[], []⟩

/-- Nothing is invalid: every record became its product. -/
theorem loadProducts_of_valid {records : List RawProduct}
    (h : (loadProducts parseDate records).invalid = []) :
    records.map (fun r => toProduct parseDate r) =
      (loadProducts parseDate records).products.map .ok := by
  rw [loadProducts_eq] at h ⊢
  simp only at h ⊢
  induction records with
  | nil => rfl
  | cons record records ih =>
    rw [List.filterMap_cons] at h ⊢
    cases hr : toProduct parseDate record with
    | error e => simp [hr] at h
    | ok product =>
      simp only [hr] at h
      simp only [List.map_cons, hr, Except.toOption, ih h]

end Load

/-! ## Documents -/

/-- A number of at least `width` digits. -/
def padded (width n : ℕ) : String := String.ofList (List.leftpad width '0' n.repr.toList)

/-- The year, the month and the day of a day counted from 1 January 1970. -/
def civil (day : ℤ) : ℤ × ℕ × ℕ :=
  -- years start in March, so that the leap day is the last
  let z := day + 719468
  let era := z / 146097
  let doe := z % 146097
  let yoe := (doe - doe / 1460 + doe / 36524 - doe / 146096) / 365
  let doy := doe - (365 * yoe + yoe / 4 - yoe / 100)
  let march := (5 * doy + 2) / 153
  let month := if march < 10 then march + 3 else march - 9
  let year := yoe + era * 400 + if month ≤ 2 then 1 else 0
  (year, month.toNat, (doy - (153 * march + 2) / 5 + 1).toNat)

/-- `Date.prototype.toISOString` of a time value. -/
def toISOString (time : ℤ) : String :=
  let (year, month, day) := civil (time / 86400000)
  let ms := (time % 86400000).toNat
  let years :=
    if 0 ≤ year ∧ year ≤ 9999 then padded 4 year.toNat
    else (if year < 0 then "-" else "+") ++ padded 6 year.natAbs
  years ++ "-" ++ padded 2 month ++ "-" ++ padded 2 day ++ "T" ++ padded 2 (ms / 3600000) ++ ":" ++
    padded 2 (ms / 60000 % 60) ++ ":" ++ padded 2 (ms / 1000 % 60) ++ "." ++ padded 3 (ms % 1000) ++ "Z"

/-- A product as it is stored. -/
structure ProductDocument where
  id : String
  name : String
  description : String
  category : String
  subcategories : List String
  location : String
  price : Number
  popularity : Number
  createdAt : String
  deriving DecidableEq

def toProductDocument (product : Product) : ProductDocument where
  id := product.id
  name := product.name
  description := product.description
  category := product.category
  subcategories := product.subcategories
  location := product.location
  price := product.price.amount
  popularity := product.popularity
  createdAt := toISOString product.createdAt

example : toISOString 951782400000 = "2000-02-29T00:00:00.000Z" := by decide +kernel

/-! ## What an index holds -/

/-- The documents of an index, by id. -/
abbrev Documents := String → Option ProductDocument

/-- Stores products by id, later ones over earlier ones. -/
def Documents.upsert (documents : Documents) (products : List Product) : Documents :=
  products.foldl (fun docs p => Function.update docs p.id (some (toProductDocument p))) documents

/-- The documents of exactly these products: for each id, the last product that has it. -/
def catalogue (products : List Product) : Documents :=
  fun id => (products.reverse.find? fun p => p.id = id).map toProductDocument

@[simp] theorem upsert_nil (documents : Documents) : documents.upsert [] = documents := rfl

@[simp] theorem upsert_cons (documents : Documents) (p : Product) (products : List Product) :
    documents.upsert (p :: products) =
      Documents.upsert (Function.update documents p.id (some (toProductDocument p))) products := rfl

/-- The last product of an id decides; an id of no product is left alone. -/
theorem upsert_apply (documents : Documents) (products : List Product) (id : String) :
    documents.upsert products id = (catalogue products id).or (documents id) := by
  unfold catalogue
  induction products generalizing documents with
  | nil => rfl
  | cons p products ih =>
    rw [upsert_cons, ih, List.reverse_cons, List.find?_append]
    cases products.reverse.find? (fun p => p.id = id) with
    | some q => rfl
    | none =>
      by_cases hp : p.id = id
      · subst hp
        simp
      · simp [hp, Function.update_of_ne (Ne.symm hp)]

@[simp] theorem upsert_empty (products : List Product) :
    Documents.upsert (fun _ => none) products = catalogue products := by
  funext id
  rw [upsert_apply, Option.or_none]

theorem catalogue_eq_none {products : List Product} {id : String} :
    catalogue products id = none ↔ ∀ p ∈ products, p.id ≠ id := by
  unfold catalogue
  rw [Option.map_eq_none_iff, List.find?_eq_none]
  simp only [List.mem_reverse, decide_eq_true_eq]

/-- Loading in place gives the catalogue exactly when nothing else was there. -/
theorem upsert_eq_catalogue_iff (documents : Documents) (products : List Product) :
    documents.upsert products = catalogue products ↔
      ∀ id, documents id ≠ none → ∃ p ∈ products, p.id = id := by
  constructor
  · intro h id hid
    by_contra hno
    have hnone : catalogue products id = none :=
      catalogue_eq_none.mpr fun p hp hpid => hno ⟨p, hp, hpid⟩
    have heq := congrFun h id
    rw [upsert_apply, hnone, Option.none_or] at heq
    exact hid heq
  · intro h
    funext id
    rw [upsert_apply]
    cases hc : catalogue products id with
    | some d => rfl
    | none =>
      by_contra hne
      obtain ⟨p, hp, hpid⟩ := h id hne
      exact catalogue_eq_none.mp hc p hp hpid

/-- The documents of the records themselves: for each id, that of the last record that has it. -/
def recordDocuments (parseDate : String → Option ℤ) (records : List RawProduct) : Documents :=
  fun id => (records.reverse.find? fun r => r.id = id).bind fun r =>
    (toProduct parseDate r).toOption.map toProductDocument

/-- Each is the document of a record with its id. -/
theorem exists_record {parseDate : String → Option ℤ} {records : List RawProduct} {id : String}
    {doc : ProductDocument} (h : recordDocuments parseDate records id = some doc) :
    ∃ r ∈ records, r.id = id ∧ ∃ p, toProduct parseDate r = .ok p ∧ toProductDocument p = doc := by
  obtain ⟨r, hfind, hdoc⟩ := Option.bind_eq_some_iff.mp h
  obtain ⟨p, hp, hdoc⟩ := Option.map_eq_some_iff.mp hdoc
  refine ⟨r, List.mem_reverse.mp (List.mem_of_find?_eq_some hfind), ?_, p, ?_, hdoc⟩
  · simpa using List.find?_some hfind
  · cases hr : toProduct parseDate r with
    | error e =>
      rw [hr] at hp
      cases hp
    | ok q =>
      rw [hr] at hp
      exact congrArg _ (Option.some.inj hp)

theorem catalogue_of_valid {parseDate : String → Option ℤ} {records : List RawProduct}
    (h : (loadProducts parseDate records).invalid = []) :
    catalogue (loadProducts parseDate records).products = recordDocuments parseDate records := by
  have hrev := congrArg List.reverse (loadProducts_of_valid parseDate h)
  rw [← List.map_reverse, ← List.map_reverse] at hrev
  funext id
  unfold catalogue recordDocuments
  generalize (loadProducts parseDate records).products.reverse = products at hrev
  generalize records.reverse = rs at hrev
  induction rs generalizing products with
  | nil =>
    obtain rfl : products = [] := List.map_eq_nil_iff.mp hrev.symm
    rfl
  | cons r rs ih =>
    cases products with
    | nil => cases hrev
    | cons p products =>
      rw [List.map_cons, List.map_cons, List.cons.injEq] at hrev
      have hid : p.id = r.id := toProduct_id parseDate hrev.1
      by_cases hr : r.id = id
      · rw [List.find?_cons_of_pos (by simp [hid, hr]), List.find?_cons_of_pos (by simp [hr])]
        simp [hrev.1, Except.toOption]
      · rw [List.find?_cons_of_neg (by simp [hid, hr]), List.find?_cons_of_neg (by simp [hr])]
        exact ih products hrev.2

theorem mem_products_of_valid {parseDate : String → Option ℤ} {records : List RawProduct}
    (h : (loadProducts parseDate records).invalid = []) (id : String) :
    (∃ p ∈ (loadProducts parseDate records).products, p.id = id) ↔ ∃ r ∈ records, r.id = id := by
  have hmap := loadProducts_of_valid parseDate h
  constructor
  · rintro ⟨p, hp, rfl⟩
    have hmem : Except.ok p ∈ records.map fun r => toProduct parseDate r := by
      rw [hmap]
      exact List.mem_map_of_mem hp
    obtain ⟨r, hr, hrp⟩ := List.mem_map.mp hmem
    exact ⟨r, hr, (toProduct_id parseDate hrp).symm⟩
  · rintro ⟨r, hr, rfl⟩
    have hmem : toProduct parseDate r ∈ (loadProducts parseDate records).products.map .ok := by
      rw [← hmap]
      exact List.mem_map_of_mem hr
    obtain ⟨p, hp, hpr⟩ := List.mem_map.mp hmem
    exact ⟨p, hp, toProduct_id parseDate hpr.symm⟩

end AdvancedSearch
