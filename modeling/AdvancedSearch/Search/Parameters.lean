import AdvancedSearch.Lib.NumberText
import AdvancedSearch.Search.Pages

/-!
# Query parameters

From the decoded pairs of a query string to the criteria of a search: the query parser, the transforms
and the validators of `SearchQueryDto`, the page size limit and the defaults. A repeated subcategory is
not split at its commas as a single one is (`occurrences_concatenate_iff`).
-/

namespace AdvancedSearch

open Js

/-! ## The query -/

inductive SearchParameter where
  | q | category | subcategory | location | minPrice | maxPrice | sort | order | page | pageSize
  deriving DecidableEq

namespace SearchParameter

def name : SearchParameter → String
  | q => "q"
  | category => "category"
  | subcategory => "subcategory"
  | location => "location"
  | minPrice => "minPrice"
  | maxPrice => "maxPrice"
  | sort => "sort"
  | order => "order"
  | page => "page"
  | pageSize => "pageSize"

/-- In the order of the declaration. -/
def all : List SearchParameter :=
  [q, category, subcategory, location, minPrice, maxPrice, sort, order, page, pageSize]

theorem mem_all (p : SearchParameter) : p ∈ all := by cases p <;> decide

theorem name_injective {p r : SearchParameter} (h : p.name = r.name) : p = r := by
  cases p <;> cases r <;> first | rfl | exact absurd h (by decide)

end SearchParameter

/-- The names and values of a query string, decoded. -/
abbrev QueryPairs := List (String × String)

/-- A string, or an array. -/
inductive QueryValue (α : Type) where
  | one (a : α)
  | many (as : List α)
  deriving DecidableEq

namespace QueryValue

variable {α β : Type}

def map (f : α → β) : QueryValue α → QueryValue β
  | one a => .one (f a)
  | many as => .many (as.map f)

def one? : QueryValue α → Option α
  | one a => some a
  | many _ => none

end QueryValue

/-- What the query parser yields for the occurrences of a name. -/
def parseOccurrences : List String → Option (QueryValue String)
  | [] => none
  | [s] => some (.one s)
  | ss => some (.many ss)

def occurrences (query : QueryPairs) (name : String) : List String :=
  (query.filter fun pair => pair.1 = name).map Prod.snd

/-- `query[name]`. -/
def rawValue (query : QueryPairs) (p : SearchParameter) : Option (QueryValue String) :=
  parseOccurrences (occurrences query p.name)

/-! ## Transforms -/

/-- A trimmed list without empty items; only a string is split. -/
def toStringArray (value : QueryValue String) : List String :=
  let raw := match value with
    | .many items => items
    | .one s => split s ','
  (raw.map trim).filter (· ≠ "")

/-- The instance of `SearchQueryDto` that `plainToInstance` makes. -/
structure SearchQueryInstance where
  q : Option (QueryValue String)
  category : Option (QueryValue String)
  subcategory : Option (List String)
  location : Option (QueryValue String)
  minPrice : Option (QueryValue Number)
  maxPrice : Option (QueryValue Number)
  sort : Option (QueryValue String)
  order : Option (QueryValue String)
  page : Option (QueryValue Number)
  pageSize : Option (QueryValue Number)

/-- `@Type(() => Number)` applies `Number` to a string, or to each of an array. -/
def typedNumber (value : Option (QueryValue String)) : Option (QueryValue Number) :=
  value.map (·.map Number.ofText)

def plainToInstance (query : QueryPairs) : SearchQueryInstance where
  q := rawValue query .q
  category := rawValue query .category
  subcategory := (rawValue query .subcategory).map toStringArray
  location := rawValue query .location
  minPrice := typedNumber (rawValue query .minPrice)
  maxPrice := typedNumber (rawValue query .maxPrice)
  sort := rawValue query .sort
  order := rawValue query .order
  page := typedNumber (rawValue query .page)
  pageSize := typedNumber (rawValue query .pageSize)

/-! ## Validators -/

/-- `@IsOptional()` skips what is absent; the rest is for a value that is no array. -/
def optionally {α : Type} (accepts : α → Bool) : Option (QueryValue α) → Bool
  | none => true
  | some (.one a) => accepts a
  | some (.many _) => false

/-- `@IsString()` and `@MaxLength(max)`, by a count of lengths. -/
def isText (length : String → ℕ) (max : ℕ) : Option (QueryValue String) → Bool :=
  optionally fun s => length s ≤ max

/-- `@IsIn(values)`. -/
def isIn (values : List String) : Option (QueryValue String) → Bool := optionally fun s => s ∈ values

/-- `@IsNumber()` and `@Min(0)`. -/
def isPrice : Option (QueryValue Number) → Bool := optionally fun x => x.isFinite && ! x.isNegative

/-- `@IsInt()` and `@Min(1)`. -/
def isCount : Option (QueryValue Number) → Bool :=
  optionally fun x => x.isInteger && Number.le (.ofRat 1) x

/-- `@IsString({ each: true })`, `@MaxLength(max, { each: true })` and `@ArrayMaxSize(size)`. -/
def isTextArray (length : String → ℕ) (max size : ℕ) : Option (List String) → Bool
  | none => true
  | some items => items.all (fun s => length s ≤ max) && items.length ≤ size

/-- `@IsNotBelowMinPrice()`: each bound is validated on its own elsewhere. -/
def isNotBelowMinPrice (minPrice value : Option (QueryValue Number)) : Bool :=
  match value, minPrice with
  | some (.one value), some (.one minPrice) => Number.le minPrice value
  | _, _ => true

def SORT_FIELDS : List SortField := [.relevance, .popularity, .createdAt]
def SORT_ORDERS : List SortOrder := [.asc, .desc]

/-- Whether a property passes its validators. -/
def SearchQueryInstance.accepts (length : String → ℕ) (i : SearchQueryInstance) :
    SearchParameter → Bool
  | .q => isText length MAX_QUERY_LENGTH i.q
  | .category => isText length MAX_TERM_LENGTH i.category
  | .subcategory => isTextArray length MAX_TERM_LENGTH MAX_SUBCATEGORIES i.subcategory
  | .location => isText length MAX_TERM_LENGTH i.location
  | .minPrice => isPrice i.minPrice
  | .maxPrice => isPrice i.maxPrice && isNotBelowMinPrice i.minPrice i.maxPrice
  | .sort => isIn (SORT_FIELDS.map SortField.text) i.sort
  | .order => isIn (SORT_ORDERS.map SortOrder.text) i.order
  | .page => isCount i.page
  | .pageSize => isCount i.pageSize

/-- The instance as its class types it, once validated. -/
def SearchQueryInstance.toDto (i : SearchQueryInstance) : SearchQueryDto where
  q := i.q.bind (·.one?)
  category := i.category.bind (·.one?)
  subcategory := i.subcategory
  location := i.location.bind (·.one?)
  minPrice := i.minPrice.bind (·.one?)
  maxPrice := i.maxPrice.bind (·.one?)
  sort := (i.sort.bind (·.one?)).bind fun s => SORT_FIELDS.find? (·.text = s)
  order := (i.order.bind (·.one?)).bind fun s => SORT_ORDERS.find? (·.text = s)
  page := i.page.bind (·.one?)
  pageSize := i.pageSize.bind (·.one?)

/-! ## The pipe -/

/-- The `ValidationPipe` with `whitelist`, `forbidNonWhitelisted` and `transform`, over class-transformer
and class-validator, none of which is in this repository: which other names it refuses and how it counts
lengths is left open, and how it goes by the decorators of the class is assumed. -/
structure ValidationPipe where
  /-- What a query becomes, or the properties that are rejected. -/
  transform : QueryPairs → Except (List String) SearchQueryDto
  /-- Whether a name is refused because the class has no such property. -/
  forbids : String → Bool
  /-- The length of a text for `@MaxLength`. -/
  length : String → ℕ
  /-- The properties of the class are whitelisted. -/
  whitelisted : ∀ p : SearchParameter, forbids p.name = false
  /-- A query is accepted when none of its names is refused and every property passes its validators, and
  it becomes the instance of the class. -/
  accepted_iff : ∀ query dto, transform query = .ok dto ↔ (∀ pair ∈ query, forbids pair.1 = false) ∧
    (∀ p, (plainToInstance query).accepts length p = true) ∧ (plainToInstance query).toDto = dto

/-- Why a search is answered 400. -/
inductive BadRequest where
  | properties (rejected : List String)
  | message (text : String)

/-- `SearchController.search`, up to the criteria. -/
def searchCriteria (pipe : ValidationPipe) (config : SearchConfig) (query : QueryPairs) :
    Except BadRequest SearchCriteria := do
  let dto ← (pipe.transform query).mapError .properties
  (assertPageSizeWithinLimit config dto.pageSize).mapError .message
  return toSearchCriteria dto config

/-! ## What is accepted -/

theorem searchCriteria_eq_ok {pipe : ValidationPipe} {config : SearchConfig} {query : QueryPairs}
    {criteria : SearchCriteria} :
    searchCriteria pipe config query = .ok criteria ↔ ∃ dto, pipe.transform query = .ok dto ∧
      assertPageSizeWithinLimit config dto.pageSize = .ok () ∧ toSearchCriteria dto config = criteria := by
  unfold searchCriteria
  cases hpipe : pipe.transform query with
  | error rejected => exact ⟨nofun, fun ⟨_, h, _⟩ => nomatch h⟩
  | ok dto =>
    cases hlimit : assertPageSizeWithinLimit config dto.pageSize with
    | error message =>
      refine ⟨fun h => ?_, fun ⟨_, rfl, h, _⟩ => ?_⟩
      · simp only [Except.mapError, bind, Except.bind, hlimit] at h
        cases h
      · rw [hlimit] at h
        cases h
    | ok _ =>
      refine ⟨fun h => ⟨dto, rfl, hlimit, ?_⟩, fun ⟨_, rfl, _, h⟩ => ?_⟩
      · simp only [Except.mapError, bind, Except.bind, hlimit] at h
        exact Except.ok.inj h
      · simp only [Except.mapError, bind, Except.bind, hlimit]
        exact congrArg Except.ok h

theorem one?_of_optionally {α : Type} {accepts : α → Bool} {value : Option (QueryValue α)} {a : α}
    (h : optionally accepts value = true) (ha : value.bind (·.one?) = some a) : accepts a = true := by
  rcases value with _ | a' | _
  · cases ha
  · cases ha
    exact h
  · cases ha

theorem price_of_isPrice {value : Option (QueryValue Number)} {x : Number} (h : isPrice value = true)
    (hx : value.bind (·.one?) = some x) : x.isFinite ∧ x.isNegative = false := by
  unfold isPrice at h
  have hprice := one?_of_optionally h hx
  rwa [Bool.and_eq_true, Bool.not_eq_true'] at hprice

theorem count_of_isCount {value : Option (QueryValue Number)} {x : Number} (h : isCount value = true)
    (hx : value.bind (·.one?) = some x) : x.isInteger ∧ Number.lt x (.ofRat 1) = false := by
  unfold isCount at h
  have hcount := one?_of_optionally h hx
  obtain ⟨hinteger, hmin⟩ := Bool.and_eq_true_iff.mp hcount
  exact ⟨hinteger, Number.not_lt_of_le hmin⟩

theorem not_lt_of_isNotBelowMinPrice {lower upper : Option (QueryValue Number)} {l u : Number}
    (h : isNotBelowMinPrice lower upper = true) (hl : lower.bind (·.one?) = some l)
    (hu : upper.bind (·.one?) = some u) : Number.lt u l = false := by
  rcases lower with _ | l' | _ <;> rcases upper with _ | u' | _ <;> cases hl <;> cases hu
  exact Number.not_lt_of_le h

/-- What the pipe lets through is valid. -/
theorem ValidationPipe.valid (pipe : ValidationPipe) {query : QueryPairs} {dto : SearchQueryDto}
    (h : pipe.transform query = .ok dto) : dto.Valid := by
  obtain ⟨-, haccepts, rfl⟩ := (pipe.accepted_iff query dto).mp h
  obtain ⟨hprice, hbelow⟩ := Bool.and_eq_true_iff.mp (haccepts .maxPrice)
  exact
    { minPrice := fun _ hp => price_of_isPrice (haccepts .minPrice) hp
      maxPrice := fun _ hp =>
        ⟨(price_of_isPrice hprice hp).1, (price_of_isPrice hprice hp).2, fun _ hm =>
          not_lt_of_isNotBelowMinPrice hbelow hm hp⟩
      page := fun _ hp => count_of_isCount (haccepts .page) hp
      pageSize := fun _ hp => count_of_isCount (haccepts .pageSize) hp }

/-- A pipe that refuses every other name and counts characters. -/
def plainPipe : ValidationPipe where
  transform query :=
    let unknown := ((query.map Prod.fst).filter fun name =>
      name ∉ SearchParameter.all.map SearchParameter.name).dedup
    let rejected := unknown ++ (SearchParameter.all.filter fun p =>
      ! (plainToInstance query).accepts String.length p).map SearchParameter.name
    if rejected = [] then .ok (plainToInstance query).toDto else .error rejected
  forbids name := name ∉ SearchParameter.all.map SearchParameter.name
  length := String.length
  whitelisted p := by simpa using ⟨p, p.mem_all, rfl⟩
  accepted_iff query dto := by
    rw [← and_assoc]
    have hnone : ((query.map Prod.fst).filter fun name =>
        name ∉ SearchParameter.all.map SearchParameter.name).dedup ++
          (SearchParameter.all.filter fun p =>
            ! (plainToInstance query).accepts String.length p).map SearchParameter.name = [] ↔
        (∀ pair ∈ query, decide (pair.1 ∉ SearchParameter.all.map SearchParameter.name) = false) ∧
          ∀ p, (plainToInstance query).accepts String.length p = true := by
      rw [List.append_eq_nil_iff, List.dedup_eq_nil, List.map_eq_nil_iff, List.filter_eq_nil_iff,
        List.filter_eq_nil_iff, List.forall_mem_map]
      simp only [SearchParameter.mem_all, forall_const, Bool.not_eq_true', Bool.not_eq_false,
        Bool.not_eq_true]
    rw [← hnone]
    dsimp only
    split_ifs with h
    · exact ⟨fun heq => ⟨h, Except.ok.inj heq⟩, fun heq => congrArg Except.ok heq.2⟩
    · exact ⟨nofun, fun heq => absurd heq.1 h⟩

/-! ## Repeated subcategories -/

theorem toStringArray_one_of_notMem {s : String} (h : ',' ∉ s.toList) :
    toStringArray (.one s) = ([s].map trim).filter (· ≠ "") := by
  unfold toStringArray
  dsimp only
  rw [split_of_notMem h]

/-- An item of a single occurrence has no comma. -/
theorem notMem_of_mem_toStringArray {s item : String} (h : item ∈ toStringArray (.one s)) :
    ',' ∉ item.toList := by
  obtain ⟨part, hpart, rfl⟩ := List.mem_map.mp (List.mem_of_mem_filter h)
  intro hcomma
  exact notMem_of_mem_split hpart ((mem_trim (by decide)).mp hcomma)

/-- An occurrence with a comma is an item of an array. -/
theorem mem_toStringArray_many {ss : List String} {s : String} (hs : s ∈ ss) (h : ',' ∈ s.toList) :
    trim s ∈ toStringArray (.many ss) := by
  refine List.mem_filter.mpr ⟨List.mem_map_of_mem hs, decide_eq_true fun hempty => ?_⟩
  have hcomma := (mem_trim (s := s) (c := ',') (by decide)).mpr h
  rw [hempty] at hcomma
  cases hcomma

/-- **Repeated and comma-separated subcategories.** Several occurrences mean what each of them means
alone, one after the other, exactly when there is but one or none of them has a comma. -/
theorem occurrences_concatenate_iff (s : String) (ss : List String) :
    (parseOccurrences (s :: ss)).map toStringArray =
        some ((s :: ss).flatMap fun t => toStringArray (.one t)) ↔
      ss = [] ∨ ∀ t ∈ s :: ss, ',' ∉ t.toList := by
  rcases ss with _ | ⟨s', ss⟩
  · refine iff_of_true ?_ (Or.inl rfl)
    rw [List.flatMap_singleton]
    rfl
  show some (toStringArray (.many (s :: s' :: ss))) = _ ↔ _
  rw [Option.some.injEq]
  constructor
  · intro h
    refine Or.inr fun t ht hcomma => ?_
    have hmem := mem_toStringArray_many ht hcomma
    rw [h] at hmem
    obtain ⟨u, -, hu⟩ := List.mem_flatMap.mp hmem
    exact notMem_of_mem_toStringArray hu ((mem_trim (by decide)).mpr hcomma)
  · rintro (h | h)
    · cases h
    · have halone : ((s :: s' :: ss).flatMap fun t => toStringArray (.one t)) =
          (s :: s' :: ss).flatMap fun t => ([t].map trim).filter (· ≠ "") :=
        List.flatMap_congr fun t ht => toStringArray_one_of_notMem (h t ht)
      rw [halone]
      unfold toStringArray
      dsimp only
      generalize s :: s' :: ss = ts
      induction ts with
      | nil => rfl
      | cons t ts ih => rw [List.map_cons, List.flatMap_cons, ← ih, ← List.filter_append]; rfl

/-- `subcategory=Drills,Saws&subcategory=Hammers` filters on a subcategory `Drills,Saws`. -/
theorem occurrences_not_concatenated :
    (parseOccurrences ["Drills,Saws", "Hammers"]).map toStringArray =
        some ["Drills,Saws", "Hammers"] ∧
      (["Drills,Saws", "Hammers"].flatMap fun t => toStringArray (.one t)) =
        ["Drills", "Saws", "Hammers"] := by
  decide +kernel

end AdvancedSearch
