import AdvancedSearch.Search.Facets
import AdvancedSearch.Search.Parameters

/-!
# Blank parameters

A search parameter that is given with nothing but white space, against the same search without it. It is
rejected, or it changes nothing, except that white space is a category or a location to filter on and a
blank `maxPrice` asks for what is free (`blank_harmless_iff`).
-/

namespace AdvancedSearch

open Js

/-! ## The same matches -/

/-- A finite price that is not negative. -/
def ProductDocument.NonNegative (doc : ProductDocument) : Prop := ∃ x, doc.numeric "price" = some x ∧ 0 ≤ x

/-- Two searches match the same documents, whatever the text queries match. -/
def SameMatches (c c' : SearchCriteria) : Prop :=
  ∀ (engine : SearchEngine) (catalogue : List ProductDocument) (relevance : RelevanceConfig)
    (from_ size : Number), (∀ doc ∈ catalogue, doc.NonNegative) →
      engine.selected catalogue (buildSearchRequest c' relevance from_ size) =
        engine.selected catalogue (buildSearchRequest c relevance from_ size)

theorem matchAll_selected (doc : ProductDocument) (c : SearchCriteria) :
    matchAll.selected [doc] (buildSearchRequest c defaultRelevance (.ofRat 0) (.ofRat 1)) =
      [doc].filter (accepts c.filters none) := by
  rw [selected_request]
  unfold SearchEngine.matching
  rw [get_query]
  rfl

/-- With one query between them, two searches match the same exactly when they accept the same. -/
theorem sameMatches_iff {c c' : SearchCriteria} (hquery : c'.query = c.query) :
    SameMatches c c' ↔
      ∀ doc : ProductDocument, doc.NonNegative → accepts c'.filters none doc = accepts c.filters none doc := by
  constructor
  · intro h doc hdoc
    have hone := h matchAll [doc] defaultRelevance (.ofRat 0) (.ofRat 1)
      fun d hd => List.mem_singleton.mp hd ▸ hdoc
    rw [matchAll_selected, matchAll_selected, List.filter_singleton, List.filter_singleton] at hone
    cases h' : accepts c'.filters none doc <;> cases h : accepts c.filters none doc <;> simp [h, h'] at hone ⊢
  · intro h engine catalogue relevance from_ size hcatalogue
    rw [selected_request, selected_request, matching_request engine catalogue hquery]
    exact List.filter_congr fun doc hdoc => h doc (hcatalogue doc (List.mem_of_mem_filter hdoc))

theorem accepts_congr {f g : SearchFilters} (hselection : ∀ d, f.selection d = g.selection d)
    {doc : ProductDocument}
    (hprice : withinPrice f.minPrice f.maxPrice doc = withinPrice g.minPrice g.maxPrice doc) :
    accepts f none doc = accepts g none doc := by
  rw [Bool.eq_iff_iff, accepts_iff, accepts_iff, hprice]
  simp only [hselection]

/-! ## One more parameter -/

section

variable {pre post : QueryPairs} {p r : SearchParameter}

theorem rawValue_supplied_of_ne {text : String} (h : r ≠ p) :
    rawValue (pre ++ (p.name, text) :: post) r = rawValue (pre ++ post) r := by
  have hname : ¬ p.name = r.name := fun hname => h (SearchParameter.name_injective hname).symm
  unfold rawValue occurrences
  rw [List.filter_append, List.filter_cons_of_neg (by simpa using hname), ← List.filter_append]

theorem rawValue_supplied_self (text : String) (habsent : occurrences (pre ++ post) p.name = []) :
    rawValue (pre ++ (p.name, text) :: post) p = some (.one text) := by
  unfold occurrences at habsent
  rw [List.filter_append, List.map_append, List.append_eq_nil_iff, List.map_eq_nil_iff,
    List.map_eq_nil_iff] at habsent
  unfold rawValue occurrences
  rw [List.filter_append, List.filter_cons_of_pos (by simp), habsent.1, habsent.2]
  rfl

theorem rawValue_absent (habsent : occurrences (pre ++ post) p.name = []) :
    rawValue (pre ++ post) p = none := by
  unfold rawValue
  rw [habsent]
  rfl

/-- One more parameter of the class is no reason to refuse a query. -/
theorem allowed_supplied {pipe : ValidationPipe} (text : String)
    (h : ∀ pair ∈ pre ++ post, pipe.forbids pair.1 = false) :
    ∀ pair ∈ pre ++ (p.name, text) :: post, pipe.forbids pair.1 = false := by
  intro pair hpair
  rw [List.mem_append, List.mem_cons] at hpair
  rcases hpair with hpair | rfl | hpair
  · exact h pair (List.mem_append_left _ hpair)
  · exact pipe.whitelisted p
  · exact h pair (List.mem_append_right _ hpair)

/-- What one more text of a parameter puts into the instance. -/
def SearchQueryInstance.supply (i : SearchQueryInstance) (text : String) :
    SearchParameter → SearchQueryInstance
  | .q => { i with q := some (.one text) }
  | .category => { i with category := some (.one text) }
  | .subcategory => { i with subcategory := some (toStringArray (.one text)) }
  | .location => { i with location := some (.one text) }
  | .minPrice => { i with minPrice := some (.one (Number.ofText text)) }
  | .maxPrice => { i with maxPrice := some (.one (Number.ofText text)) }
  | .sort => { i with sort := some (.one text) }
  | .order => { i with order := some (.one text) }
  | .page => { i with page := some (.one (Number.ofText text)) }
  | .pageSize => { i with pageSize := some (.one (Number.ofText text)) }

theorem plainToInstance_supplied (text : String) (habsent : occurrences (pre ++ post) p.name = []) :
    plainToInstance (pre ++ (p.name, text) :: post) = (plainToInstance (pre ++ post)).supply text p := by
  have hself := rawValue_supplied_self text habsent
  cases p <;>
  · unfold plainToInstance
    simp only [hself, rawValue_supplied_of_ne, ne_eq, reduceCtorEq, not_false_eq_true]
    rfl

end

/-- Answered 400, or with the same matches. -/
def Harmless (pipe : ValidationPipe) (config : SearchConfig) (supplied : QueryPairs)
    (criteria : SearchCriteria) : Prop :=
  match searchCriteria pipe config supplied with
  | .error _ => True
  | .ok criteria' => SameMatches criteria criteria'

section

variable {pipe : ValidationPipe} {config : SearchConfig} {supplied : QueryPairs}
  {criteria : SearchCriteria}

theorem harmless_of_not_accepts {p : SearchParameter}
    (h : (plainToInstance supplied).accepts pipe.length p = false) :
    Harmless pipe config supplied criteria := by
  unfold Harmless
  cases hs : searchCriteria pipe config supplied with
  | error _ => trivial
  | ok criteria' =>
    obtain ⟨dto, hpipe, -, -⟩ := searchCriteria_eq_ok.mp hs
    rw [((pipe.accepted_iff _ _).mp hpipe).2.1 p] at h
    cases h

theorem harmless_of_same
    (h : SameMatches criteria (toSearchCriteria (plainToInstance supplied).toDto config)) :
    Harmless pipe config supplied criteria := by
  unfold Harmless
  cases hs : searchCriteria pipe config supplied with
  | error _ => trivial
  | ok criteria' =>
    obtain ⟨dto, hpipe, -, rfl⟩ := searchCriteria_eq_ok.mp hs
    obtain ⟨-, -, rfl⟩ := (pipe.accepted_iff _ _).mp hpipe
    exact h

theorem harmless_iff_same (hallowed : ∀ pair ∈ supplied, pipe.forbids pair.1 = false)
    (haccepts : ∀ p, (plainToInstance supplied).accepts pipe.length p = true)
    (hlimit : assertPageSizeWithinLimit config (plainToInstance supplied).toDto.pageSize = .ok ()) :
    Harmless pipe config supplied criteria ↔
      SameMatches criteria (toSearchCriteria (plainToInstance supplied).toDto config) := by
  refine ⟨fun h => ?_, harmless_of_same⟩
  have hs : searchCriteria pipe config supplied =
      .ok (toSearchCriteria (plainToInstance supplied).toDto config) :=
    searchCriteria_eq_ok.mpr ⟨_, (pipe.accepted_iff _ _).mpr ⟨hallowed, haccepts, rfl⟩, hlimit, rfl⟩
  unfold Harmless at h
  rw [hs] at h
  exact h

end

/-! ## A document that is accepted -/

/-- What a selection accepts, at a price. -/
def sample (filters : SearchFilters) (price : Number) : ProductDocument where
  id := "p1"
  name := "Drill"
  description := "A drill"
  category := filters.category.getD ""
  subcategories := filters.subcategories.getD []
  location := filters.location.getD ""
  price := price
  popularity := .ofRat 1
  createdAt := "2026-01-01"

theorem sample_accepted {filters : SearchFilters} {price : Number}
    (hprice : withinPrice filters.minPrice filters.maxPrice (sample filters price) = true) :
    accepts filters none (sample filters price) = true := by
  refine accepts_iff.mpr ⟨fun d _ => ?_, fun _ => hprice⟩
  unfold chooses
  cases d with
  | category =>
    show selectedText filters.category = [] ∨ ∃ v ∈ selectedText filters.category,
      v ∈ [filters.category.getD ""]
    unfold selectedText
    split_ifs with h
    · exact Or.inl rfl
    · exact Or.inr ⟨_, List.mem_singleton_self _, List.mem_singleton_self _⟩
  | subcategories =>
    show filters.subcategories.getD [] = [] ∨ ∃ v ∈ filters.subcategories.getD [],
      v ∈ filters.subcategories.getD []
    rcases filters.subcategories.getD [] with _ | ⟨v, vs⟩
    · exact Or.inl rfl
    · exact Or.inr ⟨v, List.mem_cons_self, List.mem_cons_self⟩
  | location =>
    show selectedText filters.location = [] ∨ ∃ v ∈ selectedText filters.location,
      v ∈ [filters.location.getD ""]
    unfold selectedText
    split_ifs with h
    · exact Or.inl rfl
    · exact Or.inr ⟨_, List.mem_singleton_self _, List.mem_singleton_self _⟩

theorem exists_double_of_price {x : Number} (h : x.isFinite ∧ x.isNegative = false) :
    ∃ d : Double, x = .finite d ∧ 0 ≤ d.value := by
  cases x with
  | nan => cases h.1
  | infinity neg => cases h.1
  | finite d => exact ⟨d, rfl, not_lt.mp (of_decide_eq_false h.2)⟩

theorem finiteBound_minPrice {dto : SearchQueryDto} (hdto : dto.Valid) : FiniteBound dto.minPrice :=
  fun _ hx => (hdto.minPrice _ hx).1

theorem finiteBound_maxPrice {dto : SearchQueryDto} (hdto : dto.Valid) : FiniteBound dto.maxPrice :=
  fun _ hx => (hdto.maxPrice _ hx).1

theorem numeric_price {doc : ProductDocument} {price : Double} (h : doc.price = .finite price) :
    doc.numeric "price" = some price.value := by
  unfold ProductDocument.numeric
  rw [if_pos rfl, h]
  rfl

/-- There is a price within valid bounds: the lower one, or the upper one, or any. -/
theorem exists_price {dto : SearchQueryDto} (hdto : dto.Valid) :
    ∃ price : Double, 0 ≤ price.value ∧ ∀ doc : ProductDocument, doc.price = .finite price →
      withinPrice dto.minPrice dto.maxPrice doc = true := by
  have hlower := hdto.minPrice
  have hupper := hdto.maxPrice
  have hfmin := finiteBound_minPrice hdto
  have hfmax := finiteBound_maxPrice hdto
  rcases hmin : dto.minPrice with _ | m
  · rcases hmax : dto.maxPrice with _ | u
    · exact ⟨Number.zero, le_refl _, fun _ _ => rfl⟩
    · obtain ⟨d, rfl, hd⟩ :=
        exists_double_of_price ⟨(hupper u hmax).1, (hupper u hmax).2.1⟩
      rw [hmin] at hfmin
      rw [hmax] at hfmax
      refine ⟨d, hd, fun doc hdoc => ?_⟩
      rw [withinPrice_eq hfmin hfmax (Or.inr (Option.some_ne_none _)), numeric_price hdoc]
      simp [Number.value?]
  · obtain ⟨d, rfl, hd⟩ := exists_double_of_price (hlower m hmin)
    rw [hmin] at hfmin
    refine ⟨d, hd, fun doc hdoc => ?_⟩
    rw [withinPrice_eq hfmin hfmax (Or.inl (Option.some_ne_none _)), numeric_price hdoc]
    rcases hmax : dto.maxPrice with _ | u
    · simp [Number.value?]
    · obtain ⟨hfinite, hnonneg, hbelow⟩ := hupper u hmax
      obtain ⟨e, rfl, -⟩ := exists_double_of_price ⟨hfinite, hnonneg⟩
      have hle := hbelow _ hmin
      rw [Number.lt_finite, decide_eq_false_iff_not, not_lt] at hle
      simpa [Number.value?] using hle

theorem finiteBound_none : FiniteBound none := fun _ h => by cases h

theorem finiteBound_zero : FiniteBound (some (.ofRat 0)) := by
  rintro _ ⟨⟩
  rw [Number.ofRat_zero]
  rfl

/-- A price from nothing on. -/
theorem withinPrice_zero {max : Option Number} (hmax : FiniteBound max) {doc : ProductDocument}
    (hdoc : doc.NonNegative) : withinPrice (some (.ofRat 0)) max doc = withinPrice none max doc := by
  obtain ⟨x, hx, hnonneg⟩ := hdoc
  have hbound : (some (Number.ofRat 0)).bind Number.value? = some 0 := by
    rw [Number.ofRat_zero]
    rfl
  rw [withinPrice_eq finiteBound_zero hmax (Or.inl (Option.some_ne_none _)), hx, hbound]
  rcases max with _ | m
  · simp [withinPrice, buildPriceRange, hnonneg]
  · rw [withinPrice_eq finiteBound_none hmax (Or.inr (Option.some_ne_none _)), hx]
    simp [hnonneg]

/-- An upper bound of zero leaves out what costs a dollar. -/
theorem exists_not_free {f f' : SearchFilters}
    (hlower : f.minPrice = none ∨ f.minPrice = some (.ofRat 0)) (hupper : f.maxPrice = none)
    (hmin : f'.minPrice = f.minPrice) (hmax : f'.maxPrice = some (.ofRat 0)) :
    ∃ doc : ProductDocument, doc.NonNegative ∧ accepts f none doc = true ∧ accepts f' none doc = false := by
  obtain ⟨one, -, hone⟩ := Number.exists_double_natCast (show 1 < 2 ^ 53 by norm_num)
  have hprice : (sample f (.finite one)).numeric "price" = some 1 := by
    rw [numeric_price rfl, hone, Nat.cast_one]
  have hdoc : (sample f (.finite one)).NonNegative := ⟨1, hprice, zero_le_one⟩
  have hany : ∀ max, FiniteBound max → withinPrice f.minPrice max (sample f (.finite one)) =
      withinPrice none max (sample f (.finite one)) := by
    intro max hfinite
    rcases hlower with hlower | hlower <;> rw [hlower]
    exact withinPrice_zero hfinite hdoc
  refine ⟨_, hdoc, sample_accepted ?_, ?_⟩
  · rw [hupper, hany none finiteBound_none]
    rfl
  · refine eq_false_of_ne_true fun haccepts => ?_
    have hwithin := (accepts_iff.mp haccepts).2 nofun
    rw [hmin, hmax, hany _ finiteBound_zero,
      withinPrice_eq finiteBound_none finiteBound_zero (Or.inr (Option.some_ne_none _)), hprice,
      Number.ofRat_zero] at hwithin
    have hfree : (1 : ℚ) ≤ 0 := by simpa [Number.value?, Number.zero] using hwithin
    exact absurd hfree (by norm_num)

/-- One more selected text accepts the same only when it is empty. -/
theorem accepts_term_iff {f f' : SearchFilters} {d : TermsDimension} {text : String}
    {price : Double} (hpositive : 0 ≤ price.value) (hwithin : ∀ doc : ProductDocument,
      doc.price = .finite price → withinPrice f.minPrice f.maxPrice doc = true)
    (hother : ∀ e ≠ d, f'.selection e = f.selection e) (hself : f'.selection d = selectedText (some text))
    (hnone : f.selection d = []) (hmin : f'.minPrice = f.minPrice) (hmax : f'.maxPrice = f.maxPrice)
    (hkeywords : (sample f (.finite price)).keywords d.name = [""]) :
    (∀ doc : ProductDocument, doc.NonNegative → accepts f' none doc = accepts f none doc) ↔ text = "" := by
  constructor
  · intro h
    have hsample := sample_accepted (hwithin (sample f (.finite price)) rfl)
    rw [← h _ ⟨_, numeric_price rfl, hpositive⟩] at hsample
    have hchooses := (accepts_iff.mp hsample).1 d nofun
    unfold chooses at hchooses
    rw [hself, hkeywords] at hchooses
    by_contra hne
    rw [selectedText_some hne] at hchooses
    simp [hne] at hchooses
  · rintro rfl doc -
    refine accepts_congr (fun e => ?_) (by rw [hmin, hmax])
    by_cases he : e = d
    · rw [he, hself, hnone]
      rfl
    · exact hother e he

/-! ## One parameter after the other -/

section

variable {pipe : ValidationPipe} {config : SearchConfig} {pre post : QueryPairs} {p : SearchParameter}
  {text : String} {criteria : SearchCriteria}

/-- A text that is one of several is not blank. -/
theorem harmless_enumeration (habsent : occurrences (pre ++ post) p.name = [])
    (hblank : trim text = "") (hp : p = .sort ∨ p = .order) :
    Harmless pipe config (pre ++ (p.name, text) :: post) criteria := by
  refine harmless_of_not_accepts (p := p) ?_
  rw [plainToInstance_supplied text habsent]
  rcases hp with rfl | rfl
  · refine decide_eq_false fun h => ?_
    simp only [SORT_FIELDS, List.map_cons, List.map_nil, List.mem_cons, List.not_mem_nil, or_false] at h
    rcases h with rfl | rfl | rfl <;> exact absurd hblank (by decide)
  · refine decide_eq_false fun h => ?_
    simp only [SORT_ORDERS, List.map_cons, List.map_nil, List.mem_cons, List.not_mem_nil, or_false] at h
    rcases h with rfl | rfl <;> exact absurd hblank (by decide)

/-- Zero is no page and no size of one. -/
theorem harmless_count (habsent : occurrences (pre ++ post) p.name = []) (hblank : trim text = "")
    (hp : p = .page ∨ p = .pageSize) :
    Harmless pipe config (pre ++ (p.name, text) :: post) criteria := by
  have hzero : isCount (some (.one (Number.ofText text))) = false := by
    rw [Number.ofText_of_blank hblank]
    decide +kernel
  refine harmless_of_not_accepts (p := p) ?_
  rw [plainToInstance_supplied text habsent]
  rcases hp with rfl | rfl
  · exact hzero
  · exact hzero

/-- The query is trimmed. -/
theorem harmless_q (habsent : occurrences (pre ++ post) SearchParameter.q.name = [])
    (hblank : trim text = "") (hvalid : searchCriteria pipe config (pre ++ post) = .ok criteria) :
    Harmless pipe config (pre ++ (SearchParameter.q.name, text) :: post) criteria := by
  obtain ⟨dto, hpipe, -, rfl⟩ := searchCriteria_eq_ok.mp hvalid
  obtain ⟨-, -, rfl⟩ := (pipe.accepted_iff _ _).mp hpipe
  have hcriteria : toSearchCriteria (plainToInstance (pre ++ (SearchParameter.q.name, text) :: post)).toDto
      config = toSearchCriteria (plainToInstance (pre ++ post)).toDto config := by
    have hnone : (plainToInstance (pre ++ post)).toDto.q = none := by
      show (rawValue (pre ++ post) .q).bind (·.one?) = none
      rw [rawValue_absent habsent]
      rfl
    rw [plainToInstance_supplied text habsent]
    unfold toSearchCriteria
    rw [hnone]
    simp only [SearchQueryInstance.supply, SearchQueryInstance.toDto, Option.bind_some, QueryValue.one?,
      hblank, if_true]
  refine harmless_of_same ?_
  rw [hcriteria]
  exact fun _ _ _ _ _ _ => rfl

/-- Nothing is left of a blank list. -/
theorem harmless_subcategory (habsent : occurrences (pre ++ post) SearchParameter.subcategory.name = [])
    (hblank : trim text = "") (hvalid : searchCriteria pipe config (pre ++ post) = .ok criteria) :
    Harmless pipe config (pre ++ (SearchParameter.subcategory.name, text) :: post) criteria := by
  obtain ⟨dto, hpipe, -, rfl⟩ := searchCriteria_eq_ok.mp hvalid
  obtain ⟨-, -, rfl⟩ := (pipe.accepted_iff _ _).mp hpipe
  have hcomma : ',' ∉ text.toList := fun h => by
    have hcomma := (mem_trim (by decide)).mpr h
    rw [hblank] at hcomma
    cases hcomma
  have hempty : toStringArray (.one text) = [] := by
    rw [toStringArray_one_of_notMem hcomma, List.map_singleton, hblank]
    rfl
  have hnone : (plainToInstance (pre ++ post)).subcategory = none := by
    show (rawValue (pre ++ post) .subcategory).map toStringArray = none
    rw [rawValue_absent habsent]
    rfl
  refine harmless_of_same ?_
  rw [plainToInstance_supplied text habsent]
  refine (sameMatches_iff (by rfl)).mpr fun doc _ => accepts_congr (fun d => ?_) (by rfl)
  cases d with
  | category => rfl
  | subcategories =>
    show toStringArray (.one text) = (plainToInstance (pre ++ post)).subcategory.getD []
    rw [hnone, hempty]
    rfl
  | location => rfl

/-- A category and a location are filtered on as they are given. -/
theorem harmless_term_iff (habsent : occurrences (pre ++ post) p.name = [])
    (hvalid : searchCriteria pipe config (pre ++ post) = .ok criteria) (hp : p = .category ∨ p = .location) :
    Harmless pipe config (pre ++ (p.name, text) :: post) criteria ↔
      text = "" ∨ MAX_TERM_LENGTH < pipe.length text := by
  obtain ⟨dto, hpipe, hlimit, rfl⟩ := searchCriteria_eq_ok.mp hvalid
  have hdto := pipe.valid hpipe
  obtain ⟨hnames, haccepts, rfl⟩ := (pipe.accepted_iff _ _).mp hpipe
  obtain ⟨price, hpositive, hwithin⟩ := exists_price hdto
  have hinstance := plainToInstance_supplied text habsent
  have hnone := rawValue_absent habsent
  have hallowed := allowed_supplied (p := p) text hnames
  by_cases hlength : pipe.length text ≤ MAX_TERM_LENGTH
  · rw [or_iff_left (not_lt.mpr hlength)]
    rcases hp with rfl | rfl
    · rw [harmless_iff_same hallowed ?_ (by rw [hinstance]; exact hlimit), hinstance]
      · refine (sameMatches_iff (by rfl)).trans
          (accepts_term_iff (d := .category) hpositive hwithin ?_ (by rfl) ?_ (by rfl) (by rfl) ?_)
        · intro e he
          cases e <;> first | exact absurd rfl he | rfl
        · show selectedText ((rawValue (pre ++ post) .category).bind (·.one?)) = []
          rw [hnone]
          rfl
        · show [((rawValue (pre ++ post) .category).bind (·.one?)).getD ""] = [""]
          rw [hnone]
          rfl
      · rw [hinstance]
        intro r
        have hr := haccepts r
        cases r with
        | category => exact decide_eq_true hlength
        | _ => exact hr
    · rw [harmless_iff_same hallowed ?_ (by rw [hinstance]; exact hlimit), hinstance]
      · refine (sameMatches_iff (by rfl)).trans
          (accepts_term_iff (d := .location) hpositive hwithin ?_ (by rfl) ?_ (by rfl) (by rfl) ?_)
        · intro e he
          cases e <;> first | exact absurd rfl he | rfl
        · show selectedText ((rawValue (pre ++ post) .location).bind (·.one?)) = []
          rw [hnone]
          rfl
        · show [((rawValue (pre ++ post) .location).bind (·.one?)).getD ""] = [""]
          rw [hnone]
          rfl
      · rw [hinstance]
        intro r
        have hr := haccepts r
        cases r with
        | location => exact decide_eq_true hlength
        | _ => exact hr
  · refine iff_of_true (harmless_of_not_accepts (p := p) ?_) (Or.inr (not_le.mp hlength))
    rw [hinstance]
    rcases hp with rfl | rfl
    · exact decide_eq_false hlength
    · exact decide_eq_false hlength

/-- A blank `minPrice` is zero. -/
theorem harmless_minPrice (habsent : occurrences (pre ++ post) SearchParameter.minPrice.name = [])
    (hblank : trim text = "") (hvalid : searchCriteria pipe config (pre ++ post) = .ok criteria) :
    Harmless pipe config (pre ++ (SearchParameter.minPrice.name, text) :: post) criteria := by
  obtain ⟨dto, hpipe, -, rfl⟩ := searchCriteria_eq_ok.mp hvalid
  have hmax := finiteBound_maxPrice (pipe.valid hpipe)
  obtain ⟨-, -, rfl⟩ := (pipe.accepted_iff _ _).mp hpipe
  have hinstance : plainToInstance (pre ++ (SearchParameter.minPrice.name, text) :: post) =
      { plainToInstance (pre ++ post) with minPrice := some (.one (.ofRat 0)) } := by
    rw [plainToInstance_supplied text habsent, SearchQueryInstance.supply, Number.ofText_of_blank hblank]
  have hnone : (plainToInstance (pre ++ post)).toDto.minPrice = none := by
    show (typedNumber (rawValue (pre ++ post) .minPrice)).bind (·.one?) = none
    rw [rawValue_absent habsent]
    rfl
  refine harmless_of_same ?_
  rw [hinstance]
  refine (sameMatches_iff (by rfl)).mpr fun doc hdoc => accepts_congr (fun d => by cases d <;> rfl) ?_
  show withinPrice (some (.ofRat 0)) (plainToInstance (pre ++ post)).toDto.maxPrice doc =
    withinPrice (plainToInstance (pre ++ post)).toDto.minPrice _ doc
  rw [hnone]
  exact withinPrice_zero hmax hdoc

/-- A blank `maxPrice` is zero: it goes through when there is no lower bound but zero, and asks for what
is free. -/
theorem harmless_maxPrice_iff (habsent : occurrences (pre ++ post) SearchParameter.maxPrice.name = [])
    (hblank : trim text = "") (hvalid : searchCriteria pipe config (pre ++ post) = .ok criteria) :
    Harmless pipe config (pre ++ (SearchParameter.maxPrice.name, text) :: post) criteria ↔
      ¬ ∀ m, (plainToInstance (pre ++ post)).minPrice = some m → m = .one (.ofRat 0) := by
  obtain ⟨dto, hpipe, hlimit, rfl⟩ := searchCriteria_eq_ok.mp hvalid
  obtain ⟨hnames, haccepts, rfl⟩ := (pipe.accepted_iff _ _).mp hpipe
  have hallowed := allowed_supplied (p := .maxPrice) text hnames
  have hinstance : plainToInstance (pre ++ (SearchParameter.maxPrice.name, text) :: post) =
      { plainToInstance (pre ++ post) with maxPrice := some (.one (.ofRat 0)) } := by
    rw [plainToInstance_supplied text habsent, SearchQueryInstance.supply, Number.ofText_of_blank hblank]
  by_cases hfree : ∀ m, (plainToInstance (pre ++ post)).minPrice = some m → m = .one (.ofRat 0)
  · refine iff_of_false (fun hharmless => ?_) (not_not_intro hfree)
    have hmin : (plainToInstance (pre ++ post)).minPrice = none ∨
        (plainToInstance (pre ++ post)).minPrice = some (.one (.ofRat 0)) := by
      rcases hmin : (plainToInstance (pre ++ post)).minPrice with _ | m
      · exact Or.inl rfl
      · exact Or.inr (congrArg some (hfree m hmin))
    have hsame := (harmless_iff_same hallowed ?_ (by rw [hinstance]; exact hlimit)).mp hharmless
    · rw [hinstance] at hsame
      have hupper : (plainToInstance (pre ++ post)).toDto.maxPrice = none := by
        show (typedNumber (rawValue (pre ++ post) .maxPrice)).bind (·.one?) = none
        rw [rawValue_absent habsent]
        rfl
      have hlower : (plainToInstance (pre ++ post)).toDto.minPrice = none ∨
          (plainToInstance (pre ++ post)).toDto.minPrice = some (.ofRat 0) := by
        show (plainToInstance (pre ++ post)).minPrice.bind (·.one?) = none ∨
          (plainToInstance (pre ++ post)).minPrice.bind (·.one?) = some (.ofRat 0)
        rcases hmin with hmin | hmin <;> rw [hmin]
        · exact Or.inl rfl
        · exact Or.inr rfl
      obtain ⟨doc, hdoc, haccepted, hrejected⟩ := @exists_not_free
        (toSearchCriteria (plainToInstance (pre ++ post)).toDto config).filters
        (toSearchCriteria { plainToInstance (pre ++ post) with
          maxPrice := some (.one (.ofRat 0)) }.toDto config).filters hlower hupper rfl rfl
      have heq := (sameMatches_iff (by rfl)).mp hsame doc hdoc
      rw [haccepted, hrejected] at heq
      cases heq
    · rw [hinstance]
      intro r
      have hr := haccepts r
      cases r with
      | maxPrice =>
        show (isPrice (some (.one (.ofRat 0))) &&
          isNotBelowMinPrice (plainToInstance (pre ++ post)).minPrice (some (.one (.ofRat 0)))) = true
        rcases hmin with hmin | hmin <;> rw [hmin] <;> decide +kernel
      | _ => exact hr
  · refine iff_of_true (harmless_of_not_accepts (p := .maxPrice) ?_) hfree
    push Not at hfree
    obtain ⟨m, hm, hne⟩ := hfree
    have hprice : isPrice (plainToInstance (pre ++ post)).minPrice = true := haccepts .minPrice
    rw [hm] at hprice
    rcases m with x | xs
    · obtain ⟨d, rfl, hd⟩ := exists_double_of_price (price_of_isPrice hprice rfl)
      have hpos : d.value ≠ 0 := fun h0 => hne (by rw [← Number.ofRat_value d, h0])
      rw [hinstance]
      show (isPrice (some (.one (.ofRat 0))) &&
        isNotBelowMinPrice (plainToInstance (pre ++ post)).minPrice (some (.one (.ofRat 0)))) = false
      rw [hm, Number.ofRat_zero]
      refine Bool.and_eq_false_iff.mpr (Or.inr ?_)
      show Number.le (.finite d) (.finite Number.zero) = false
      rw [Number.le_finite, decide_eq_false_iff_not, not_le]
      exact lt_of_le_of_ne hd (Ne.symm hpos)
    · cases hprice

end

/-! ## Blank parameters -/

/-- White space read as a category or a location that is short enough, or as an upper bound of zero where
no lower one but zero is given. -/
def Misread (pipe : ValidationPipe) (query : QueryPairs) (p : SearchParameter) (text : String) : Prop :=
  (p = .category ∨ p = .location) ∧ text ≠ "" ∧ pipe.length text ≤ MAX_TERM_LENGTH ∨
    p = .maxPrice ∧ ∀ m, (plainToInstance query).minPrice = some m → m = .one (.ofRat 0)

/-- **Blank parameters.** One more parameter with nothing but white space, in a query that is accepted
without it, is answered 400 or matches the same documents, for every catalogue without negative prices,
exactly when it is not misread. -/
theorem blank_harmless_iff {pipe : ValidationPipe} {config : SearchConfig} {pre post : QueryPairs}
    {p : SearchParameter} {text : String} {criteria : SearchCriteria}
    (habsent : occurrences (pre ++ post) p.name = [])
    (hvalid : searchCriteria pipe config (pre ++ post) = .ok criteria) (hblank : isBlank text = true) :
    Harmless pipe config (pre ++ (p.name, text) :: post) criteria ↔
      ¬ Misread pipe (pre ++ post) p text := by
  have hempty : trim text = "" := trim_eq_empty.mpr hblank
  unfold Misread
  cases p with
  | q => exact iff_of_true (harmless_q habsent hempty hvalid) (by simp)
  | category => rw [harmless_term_iff habsent hvalid (Or.inl rfl)]; simp [or_iff_not_imp_left]
  | subcategory => exact iff_of_true (harmless_subcategory habsent hempty hvalid) (by simp)
  | location => rw [harmless_term_iff habsent hvalid (Or.inr rfl)]; simp [or_iff_not_imp_left]
  | minPrice => exact iff_of_true (harmless_minPrice habsent hempty hvalid) (by simp)
  | maxPrice => rw [harmless_maxPrice_iff habsent hempty hvalid]; simp
  | sort => exact iff_of_true (harmless_enumeration habsent hempty (Or.inl rfl)) (by simp)
  | order => exact iff_of_true (harmless_enumeration habsent hempty (Or.inr rfl)) (by simp)
  | page => exact iff_of_true (harmless_count habsent hempty (Or.inl rfl)) (by simp)
  | pageSize => exact iff_of_true (harmless_count habsent hempty (Or.inr rfl)) (by simp)

/-- Every product but the free ones, and every category but one of white space, is gone. -/
theorem blank_misread : ∃ criteria,
    searchCriteria plainPipe (buildConfig (deployment 5)).search [] = .ok criteria ∧
      ¬ Harmless plainPipe (buildConfig (deployment 5)).search [("maxPrice", "")] criteria ∧
      ¬ Harmless plainPipe (buildConfig (deployment 5)).search [("category", " ")] criteria := by
  refine ⟨_, rfl, fun h => ?_, fun h => ?_⟩
  · exact (@harmless_maxPrice_iff plainPipe _ [] [] "" _ rfl (by decide) rfl).mp h fun _ hm => by cases hm
  · have hterm := (@harmless_term_iff plainPipe _ [] [] .category " " _ rfl rfl (Or.inl rfl)).mp h
    exact absurd hterm (by decide)

/-- A blank `q` browses. -/
theorem blank_harmless_iff_q : ∃ criteria,
    searchCriteria plainPipe (buildConfig (deployment 5)).search [("category", "Tools")] = .ok criteria ∧
      Harmless plainPipe (buildConfig (deployment 5)).search [("category", "Tools"), ("q", "  ")]
        criteria := by
  refine ⟨_, rfl, (@blank_harmless_iff plainPipe _ [("category", "Tools")] [] .q "  " _ rfl rfl
    (by decide)).mpr ?_⟩
  rintro (⟨hterm | hterm, -⟩ | ⟨hprice, -⟩)
  · cases hterm
  · cases hterm
  · cases hprice

end AdvancedSearch
