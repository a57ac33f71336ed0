import AdvancedSearch.Search.Alike
import AdvancedSearch.Search.Engine

/-!
# What a facet counts

A bucket of a terms facet counts what selecting its value returns (`facet_count`), however the other
dimensions are filtered. A price bucket leaves out what is priced at its upper bound, which the filter
includes (`price_bucket_count`).
-/

namespace AdvancedSearch

open Js Ranking

/-! ## The parts of a body -/

/-- The filter of the hits, when there is one. -/
def postFilterField (filters : SearchFilters) : Fields :=
  if buildFilterClauses filters none ≠ [] then
    [("post_filter", .object [("bool", .object [("filter", .array (buildFilterClauses filters none))])])]
  else []

/-- The suggesters, when there is a query. -/
def suggestField (query : Option String) : Fields :=
  match query with
  | some query => if query = "" then [] else [("suggest", buildSuggest query)]
  | none => []

theorem suggestField_cases (query : Option String) :
    suggestField query = [] ∨ suggestField query = [("suggest", buildSuggest (query.getD ""))] := by
  unfold suggestField
  cases query with
  | none => exact Or.inl rfl
  | some query =>
    by_cases h : query = ""
    · exact Or.inl (if_pos h)
    · exact Or.inr (if_neg h)

section

variable {criteria : SearchCriteria} {relevance : RelevanceConfig} {from_ size : Number}

theorem buildSearchRequest_eq : buildSearchRequest criteria relevance from_ size =
    .object
      ([("from", toJson from_), ("size", toJson size), ("track_total_hits", .bool true),
          ("query", buildTextQuery criteria.query relevance)] ++ postFilterField criteria.filters ++
        [("aggregations", buildFacetAggregations criteria.filters)] ++ suggestField criteria.query ++
        [("sort", buildSort criteria.sort criteria.order)]) := rfl

theorem get_query : (buildSearchRequest criteria relevance from_ size).get "query" =
    some (buildTextQuery criteria.query relevance) := rfl

theorem get_from :
    (buildSearchRequest criteria relevance from_ size).get "from" = some (toJson from_) := rfl

theorem get_size :
    (buildSearchRequest criteria relevance from_ size).get "size" = some (toJson size) := rfl

theorem get_post_filter : (buildSearchRequest criteria relevance from_ size).get "post_filter" =
    if buildFilterClauses criteria.filters none ≠ [] then
      some (.object [("bool", .object [("filter", .array (buildFilterClauses criteria.filters none))])])
    else none := by
  rw [buildSearchRequest_eq]
  unfold postFilterField
  by_cases h : buildFilterClauses criteria.filters none ≠ []
  · rw [if_pos h, if_pos h]
    rfl
  · rw [if_neg h, if_neg h]
    rcases suggestField_cases criteria.query with hsuggest | hsuggest <;> rw [hsuggest] <;> rfl

theorem get_aggregations : (buildSearchRequest criteria relevance from_ size).get "aggregations" =
    some (buildFacetAggregations criteria.filters) := by
  rw [buildSearchRequest_eq]
  unfold postFilterField
  by_cases h : buildFilterClauses criteria.filters none ≠ []
  · rw [if_pos h]
    rfl
  · rw [if_neg h]
    rfl

theorem get_sort : (buildSearchRequest criteria relevance from_ size).get "sort" =
    some (buildSort criteria.sort criteria.order) := by
  rw [buildSearchRequest_eq]
  unfold postFilterField
  by_cases h : buildFilterClauses criteria.filters none ≠ []
  · rw [if_pos h]
    rcases suggestField_cases criteria.query with hsuggest | hsuggest <;> rw [hsuggest] <;> rfl
  · rw [if_neg h]
    rcases suggestField_cases criteria.query with hsuggest | hsuggest <;> rw [hsuggest] <;> rfl

end

/-! ## What a selection accepts -/

/-- A document satisfies the clauses of a selection. -/
def accepts (filters : SearchFilters) (exclude : Option FacetDimension) (doc : ProductDocument) : Bool :=
  (buildFilterClauses filters exclude).all (satisfiesClause doc)

/-- The dimensions whose values a terms facet lists. -/
inductive TermsDimension where
  | category | subcategories | location
  deriving DecidableEq

namespace TermsDimension

def dimension : TermsDimension → FacetDimension
  | category => .category
  | subcategories => .subcategories
  | location => .location

/-- The field. -/
def name : TermsDimension → String
  | category => "category"
  | subcategories => "subcategories"
  | location => "location"

/-- The facet of an outcome. -/
def buckets (facets : Facets) : TermsDimension → List FacetBucket
  | category => facets.categories
  | subcategories => facets.subcategories
  | location => facets.locations

end TermsDimension

/-- A text selects itself unless it is empty. -/
def selectedText (text : Option String) : List String :=
  if text.getD "" = "" then [] else [text.getD ""]

/-- The values selected on a dimension; none selects everything. -/
def SearchFilters.selection (filters : SearchFilters) : TermsDimension → List String
  | .category => selectedText filters.category
  | .subcategories => filters.subcategories.getD []
  | .location => selectedText filters.location

/-- Any of the selected values, or anything when none is. -/
def chooses (values : List String) (doc : ProductDocument) (name : String) : Prop :=
  values = [] ∨ ∃ v ∈ values, v ∈ doc.keywords name

/-- The clause on the price is satisfied, when there is one. -/
def withinPrice (min max : Option Number) (doc : ProductDocument) : Bool :=
  (buildPriceRange min max).toList.all (satisfiesClause doc)

/-- The clause on a keyword is satisfied. -/
theorem all_termClause (text : Option String) (doc : ProductDocument) (name : String) (p : Prop)
    [Decidable p] :
    ((if p ∧ text.getD "" ≠ "" then
        [Json.object [("term", .object [(name, .object [("value", .string (text.getD ""))])])]]
      else []).all (satisfiesClause doc)) ↔ (p → chooses (selectedText text) doc name) := by
  have hterm : satisfiesClause doc
      (.object [("term", .object [(name, .object [("value", .string (text.getD ""))])])]) =
        decide (text.getD "" ∈ doc.keywords name) := rfl
  unfold chooses selectedText
  by_cases hempty : text.getD "" = ""
  · simp [hempty]
  · by_cases hp : p
    · simp [hp, hempty, hterm]
    · simp [hp]

theorem all_termsClause (values : List String) (doc : ProductDocument) (p : Prop) [Decidable p] :
    ((if p ∧ values ≠ [] then [subcategoriesClause values] else []).all (satisfiesClause doc)) ↔
      (p → chooses values doc "subcategories") := by
  have hterms : satisfiesClause doc (subcategoriesClause values) =
      values.any fun v => v ∈ doc.keywords "subcategories" := by
    show (values.map Json.string).any _ = _
    rw [List.any_map]
    rfl
  unfold chooses
  by_cases hempty : values = []
  · simp [hempty]
  · by_cases hp : p
    · simp [hp, hempty, hterms]
    · simp [hp]

/-- A selection accepts what each dimension chooses and the price bounds admit. -/
theorem accepts_iff {filters : SearchFilters} {exclude : Option FacetDimension} {doc : ProductDocument} :
    accepts filters exclude doc ↔
      (∀ d : TermsDimension, exclude ≠ some d.dimension → chooses (filters.selection d) doc d.name) ∧
        (exclude ≠ some .price → withinPrice filters.minPrice filters.maxPrice doc) := by
  have hprice : ((if exclude ≠ some .price then
      (buildPriceRange filters.minPrice filters.maxPrice).toList else []).all (satisfiesClause doc)) ↔
        (exclude ≠ some .price → withinPrice filters.minPrice filters.maxPrice doc) := by
    unfold withinPrice
    split_ifs with h <;> simp [h]
  unfold accepts
  rw [buildFilterClauses_eq]
  simp only [List.all_append, Bool.and_eq_true]
  rw [all_termClause, all_termsClause, all_termClause, hprice]
  constructor
  · rintro ⟨⟨⟨hcategory, hsubcategories⟩, hlocation⟩, hprice⟩
    refine ⟨fun d => ?_, hprice⟩
    cases d
    · exact hcategory
    · exact hsubcategories
    · exact hlocation
  · rintro ⟨hdimensions, hprice⟩
    exact ⟨⟨⟨hdimensions .category, hdimensions .subcategories⟩, hdimensions .location⟩, hprice⟩

theorem aggregated_facet (docs : List ProductDocument) (filters : SearchFilters)
    (dimension : FacetDimension) (values : Json) :
    aggregated docs (facet filters dimension values) = docs.filter (accepts filters (some dimension)) := rfl

/-- Hits are what the query matches and the selection accepts. -/
theorem selected_request (engine : SearchEngine) (catalogue : List ProductDocument)
    (criteria : SearchCriteria) (relevance : RelevanceConfig) (from_ size : Number) :
    engine.selected catalogue (buildSearchRequest criteria relevance from_ size) =
      (engine.matching catalogue (buildSearchRequest criteria relevance from_ size)).filter
        (accepts criteria.filters none) := by
  unfold SearchEngine.selected
  rw [get_post_filter]
  refine List.filter_congr fun doc _ => ?_
  split_ifs with h
  · rfl
  · unfold accepts
    rw [not_not.mp h]
    rfl

/-- What the query matches does not depend on the selection. -/
theorem matching_request (engine : SearchEngine) (catalogue : List ProductDocument)
    {c₁ c₂ : SearchCriteria} (h : c₁.query = c₂.query) (relevance : RelevanceConfig)
    (from_ size : Number) :
    engine.matching catalogue (buildSearchRequest c₁ relevance from_ size) =
      engine.matching catalogue (buildSearchRequest c₂ relevance from_ size) := by
  unfold SearchEngine.matching
  rw [get_query, get_query, h]

/-! ## Terms facets -/

/-- The selection on one dimension replaced by one value. -/
def SearchFilters.select (filters : SearchFilters) (d : TermsDimension) (value : String) : SearchFilters :=
  match d with
  | .category => { filters with category := some value }
  | .subcategories => { filters with subcategories := some [value] }
  | .location => { filters with location := some value }

def SearchCriteria.select (criteria : SearchCriteria) (d : TermsDimension) (value : String) :
    SearchCriteria :=
  { criteria with filters := criteria.filters.select d value }

theorem selectedText_some {value : String} (h : value ≠ "") : selectedText (some value) = [value] :=
  if_neg h

theorem selection_select_self {filters : SearchFilters} {d : TermsDimension} {value : String}
    (h : value ≠ "") : (filters.select d value).selection d = [value] := by
  cases d
  · exact selectedText_some h
  · rfl
  · exact selectedText_some h

theorem selection_select_of_ne {filters : SearchFilters} {d e : TermsDimension} {value : String}
    (h : e ≠ d) : (filters.select d value).selection e = filters.selection e := by
  cases d <;> cases e <;> first | rfl | exact absurd rfl h

theorem prices_select {filters : SearchFilters} {d : TermsDimension} {value : String} :
    (filters.select d value).minPrice = filters.minPrice ∧
      (filters.select d value).maxPrice = filters.maxPrice := by
  cases d <;> exact ⟨rfl, rfl⟩

theorem chooses_singleton {doc : ProductDocument} {name value : String} :
    chooses [value] doc name ↔ value ∈ doc.keywords name := by
  unfold chooses
  simp

/-- Selecting a value accepts what the other selections accept and has the value. -/
theorem accepts_select {filters : SearchFilters} {d : TermsDimension} {value : String}
    (h : value ≠ "") {doc : ProductDocument} :
    accepts (filters.select d value) none doc ↔
      accepts filters (some d.dimension) doc ∧ value ∈ doc.keywords d.name := by
  rw [accepts_iff, accepts_iff, prices_select.1, prices_select.2]
  have hapart : ∀ e : TermsDimension, some d.dimension ≠ some e.dimension ↔ e ≠ d := by
    intro e
    cases d <;> cases e <;> decide
  have hprice : some d.dimension ≠ some FacetDimension.price := by
    cases d <;> decide
  constructor
  · rintro ⟨hchosen, hwithin⟩
    refine ⟨⟨fun e he => ?_, fun _ => hwithin nofun⟩, ?_⟩
    · have hsame := hchosen e nofun
      rw [selection_select_of_ne ((hapart e).mp he)] at hsame
      exact hsame
    · have hself := hchosen d nofun
      rw [selection_select_self h] at hself
      exact chooses_singleton.mp hself
  · rintro ⟨⟨hchosen, hwithin⟩, hvalue⟩
    refine ⟨fun e _ => ?_, fun _ => hwithin hprice⟩
    by_cases he : e = d
    · subst he
      rw [selection_select_self h]
      exact chooses_singleton.mpr hvalue
    · rw [selection_select_of_ne he]
      exact hchosen e ((hapart e).mpr he)

section

open TermsDimension

variable (engine : SearchEngine) (catalogue : List ProductDocument) (criteria : SearchCriteria)
  (relevance : RelevanceConfig) (from_ size : Number) (d : TermsDimension)

/-- The documents that a facet counts: the other dimensions' selections narrow them. -/
def facetDocs : List ProductDocument :=
  (engine.matching catalogue (buildSearchRequest criteria relevance from_ size)).filter
    (accepts criteria.filters (some d.dimension))

/-- The distinct values among them. -/
def facetValues : List String :=
  ((facetDocs engine catalogue criteria relevance from_ size d).flatMap fun doc =>
    doc.keywords d.name).dedup

/-- The total of a search with these criteria. -/
def totalOf : Number :=
  totalHits (engine.respond catalogue (buildSearchRequest criteria relevance from_ size)).total

/-- The buckets of a terms facet: its values with the most documents. -/
theorem buckets_respond :
    d.buckets (toFacets (engine.respond catalogue
        (buildSearchRequest criteria relevance from_ size)).aggregations) =
      (termsBuckets (facetDocs engine catalogue criteria relevance from_ size d) d.name
        FACET_TERMS_SIZE).map fun bucket => { key := bucket.key.toText, count := bucket.count } := by
  have hagg (name : String) (facet : Json) (hname : (buildFacetAggregations criteria.filters).get name =
      some facet) :
      (((buildSearchRequest criteria relevance from_ size).get "aggregations").bind (·.get name)) =
        some facet := by
    rw [get_aggregations]
    exact hname
  have hterms : ∀ docs, termsAgg docs (termsFacet criteria.filters d.dimension d.name) =
      some { values := some (some (termsBuckets (docs.filter (accepts criteria.filters (some d.dimension)))
        d.name FACET_TERMS_SIZE)) } := by
    intro docs
    have hsize : natOf (some (.number (.ofNat FACET_TERMS_SIZE))) = FACET_TERMS_SIZE :=
      natOf_ofNat (by norm_num [FACET_TERMS_SIZE])
    rw [← aggregated_facet docs criteria.filters d.dimension, ← hsize]
    rfl
  unfold SearchEngine.respond toFacets toFacetBuckets
  cases d with
  | category =>
    dsimp only [TermsDimension.buckets, Option.bind_some]
    rw [hagg "categories" (termsFacet criteria.filters (dimension .category) (name .category)) rfl,
      Option.bind_some, hterms]
    rfl
  | subcategories =>
    dsimp only [TermsDimension.buckets, Option.bind_some]
    rw [hagg "subcategories"
        (termsFacet criteria.filters (dimension .subcategories) (name .subcategories)) rfl,
      Option.bind_some, hterms]
    rfl
  | location =>
    dsimp only [TermsDimension.buckets, Option.bind_some]
    rw [hagg "locations" (termsFacet criteria.filters (dimension .location) (name .location)) rfl,
      Option.bind_some, hterms]
    rfl

/-- Documents of the facet with a value are the hits of selecting it. -/
theorem countValue_facetDocs {value : String} (h : value ≠ "") :
    countValue (facetDocs engine catalogue criteria relevance from_ size d) d.name value =
      (engine.selected catalogue
        (buildSearchRequest (criteria.select d value) relevance from_ size)).length := by
  have hquery : (criteria.select d value).query = criteria.query := rfl
  rw [selected_request, matching_request engine catalogue hquery, ← List.countP_eq_length_filter]
  unfold countValue facetDocs
  rw [List.countP_filter]
  refine List.countP_congr fun doc _ => ?_
  rw [Bool.and_eq_true, decide_eq_true_eq]
  exact and_comm.trans (accepts_select h).symm

/-- **Facet counts.** A bucket counts what the same search returns with its value alone selected on the
dimension; with at most fifty values every value that returns something has a bucket. -/
theorem facet_count :
    (∀ bucket ∈ d.buckets (toFacets (engine.respond catalogue
        (buildSearchRequest criteria relevance from_ size)).aggregations), bucket.key ≠ "" →
      bucket.count = totalOf engine catalogue (criteria.select d bucket.key) relevance from_ size) ∧
    ((facetValues engine catalogue criteria relevance from_ size d).length ≤ 50 →
      ∀ value, value ≠ "" →
        totalOf engine catalogue (criteria.select d value) relevance from_ size ≠ .ofRat 0 →
        ∃ bucket ∈ d.buckets (toFacets (engine.respond catalogue
          (buildSearchRequest criteria relevance from_ size)).aggregations), bucket.key = value) := by
  have htotal : ∀ value, value ≠ "" →
      totalOf engine catalogue (criteria.select d value) relevance from_ size =
        .ofRat (countValue (facetDocs engine catalogue criteria relevance from_ size d) d.name value) := by
    intro value hvalue
    rw [countValue_facetDocs engine catalogue criteria relevance from_ size d hvalue]
    rfl
  rw [buckets_respond]
  constructor
  · intro bucket hbucket hkey
    obtain ⟨terms, hterms, rfl⟩ := List.mem_map.mp hbucket
    obtain ⟨value, rfl⟩ := eq_of_mem_termsBuckets hterms
    exact (htotal value hkey).symm
  · intro hfew value hvalue hsome
    have hcount : 0 < countValue (facetDocs engine catalogue criteria relevance from_ size d) d.name
        value := by
      rw [htotal value hvalue] at hsome
      refine Nat.pos_of_ne_zero fun hzero => hsome ?_
      rw [hzero, Nat.cast_zero]
    exact ⟨_, List.mem_map_of_mem (mem_termsBuckets hfew hcount), rfl⟩

end

/-! ## Price buckets -/

/-- The price bounds replaced. -/
def SearchCriteria.priced (criteria : SearchCriteria) (min max : Option Number) : SearchCriteria :=
  { criteria with filters := { criteria.filters with minPrice := min, maxPrice := max } }

/-- A bound that is a finite number, when it is there. -/
def FiniteBound (bound : Option Number) : Prop := ∀ x ∈ bound, x.isFinite

theorem satisfiesBound_toJson {bound : Number} (h : bound.isFinite) (x : ℚ) :
    satisfiesBound x ("gte", toJson bound) = bound.value?.all (fun m => m ≤ x) ∧
      satisfiesBound x ("lte", toJson bound) = bound.value?.all (fun m => x ≤ m) := by
  cases bound with
  | nan => cases h
  | infinity => cases h
  | finite d =>
    have hread : (toJson (.finite d)).number?.bind Number.value? = some d.value := by
      show (Number.ofDecimal (Number.shortestDecimal d.value)).value? = _
      rw [Number.ofDecimal_shortestDecimal]
      rfl
    unfold satisfiesBound
    dsimp only
    rw [hread]
    exact ⟨rfl, rfl⟩

/-- The price filter includes both of its bounds. -/
theorem withinPrice_eq {min max : Option Number} (hmin : FiniteBound min) (hmax : FiniteBound max)
    (hsome : min ≠ none ∨ max ≠ none) (doc : ProductDocument) :
    withinPrice min max doc = (doc.numeric "price").any fun x =>
      (min.bind Number.value?).all (fun m => m ≤ x) && (max.bind Number.value?).all (fun m => x ≤ m) := by
  unfold withinPrice buildPriceRange
  cases min with
  | none =>
    cases max with
    | none => simp at hsome
    | some max =>
      have hbound x := (satisfiesBound_toJson (hmax max rfl) x).2
      rw [if_neg (by simp)]
      show (((doc.numeric "price").any fun x => [("lte", toJson max)].all (satisfiesBound x)) && true) = _
      simp [hbound]
  | some min =>
    have hlower x := (satisfiesBound_toJson (hmin min rfl) x).1
    cases max with
    | none =>
      rw [if_neg (by simp)]
      show (((doc.numeric "price").any fun x => [("gte", toJson min)].all (satisfiesBound x)) && true) = _
      simp [hlower]
    | some max =>
      have hupper x := (satisfiesBound_toJson (hmax max rfl) x).2
      rw [if_neg (by simp)]
      show (((doc.numeric "price").any fun x =>
        [("gte", toJson min), ("lte", toJson max)].all (satisfiesBound x)) && true) = _
      simp [hlower, hupper]

/-- Replaced price bounds accept what the other selections accept within the bounds. -/
theorem accepts_priced {criteria : SearchCriteria} {min max : Option Number} {doc : ProductDocument} :
    accepts (criteria.priced min max).filters none doc ↔
      accepts criteria.filters (some .price) doc ∧ withinPrice min max doc := by
  have hselection : ∀ d, (criteria.priced min max).filters.selection d = criteria.filters.selection d := by
    intro d
    cases d <;> rfl
  have hdimension : ∀ d : TermsDimension, some FacetDimension.price ≠ some d.dimension := by
    intro d
    cases d <;> decide
  rw [accepts_iff, accepts_iff]
  simp only [hselection]
  constructor
  · rintro ⟨hchosen, hwithin⟩
    exact ⟨⟨fun d _ => hchosen d nofun, fun h => absurd rfl h⟩, hwithin nofun⟩
  · rintro ⟨⟨hchosen, -⟩, hwithin⟩
    exact ⟨fun d _ => hchosen d (hdimension d), fun _ => hwithin⟩

/-- Exactly the upper bound. -/
def pricedAt (upper : Option Number) (doc : ProductDocument) : Bool :=
  (upper.bind Number.value?).any fun u => doc.numeric "price" = some u

/-- A bucket's range is the filter's range without its upper bound. -/
theorem inRange_iff {lower upper : Option Number} (hlower : FiniteBound lower)
    (hupper : FiniteBound upper) (hsome : lower ≠ none ∨ upper ≠ none) (doc : ProductDocument) :
    ((doc.numeric "price").any (inRange (lower.bind Number.value?) (upper.bind Number.value?))) =
      (withinPrice lower upper doc && ! pricedAt upper doc) := by
  rw [withinPrice_eq hlower hupper hsome]
  unfold pricedAt inRange
  cases doc.numeric "price" with
  | none => rfl
  | some x =>
    rw [Option.any_some, Option.any_some]
    cases upper.bind Number.value? with
    | none => simp
    | some u =>
      rw [Option.any_some, Option.all_some, Option.all_some, Bool.and_assoc]
      congr 1
      rw [Bool.eq_iff_iff]
      simp only [decide_eq_true_eq, Bool.and_eq_true, Bool.not_eq_true', decide_eq_false_iff_not,
        Option.some.injEq]
      exact lt_iff_le_and_ne

section

variable (engine : SearchEngine) (catalogue : List ProductDocument) (criteria : SearchCriteria)
  (relevance : RelevanceConfig) (from_ size : Number)

/-- The documents that the price facet counts. -/
def priceDocs : List ProductDocument :=
  (engine.matching catalogue (buildSearchRequest criteria relevance from_ size)).filter
    (accepts criteria.filters (some .price))

theorem priceBuckets_respond :
    (toFacets (engine.respond catalogue
        (buildSearchRequest criteria relevance from_ size)).aggregations).priceRanges =
      (rangeBuckets (priceDocs engine catalogue criteria relevance from_ size) "price"
        PRICE_RANGES.items).map fun bucket =>
          { from_ := bucket.from_, to_ := bucket.to_, count := bucket.count } := by
  unfold SearchEngine.respond toFacets toPriceBuckets
  dsimp only [Option.bind_some]
  rw [get_aggregations]
  rfl

/-- Every range has a bound, and its bounds are numbers. -/
theorem range_bounds {range : Json} (h : range ∈ PRICE_RANGES.items) :
    FiniteBound ((range.get "from").bind Json.number?) ∧ FiniteBound ((range.get "to").bind Json.number?) ∧
      ((range.get "from").bind Json.number? ≠ none ∨ (range.get "to").bind Json.number? ≠ none) := by
  have hnone : FiniteBound none := fun x hx => by cases hx
  have hread {n : ℕ} (hn : n < 2 ^ 53) : FiniteBound (Json.number? (.number (.ofNat n))) := by
    intro x hx
    obtain ⟨y, hy, -⟩ := Number.exists_double_natCast hn
    cases hx
    rw [Number.ofDecimal_ofNat, hy]
    rfl
  simp only [PRICE_RANGES, Json.items, List.mem_cons, List.not_mem_nil, or_false] at h
  rcases h with rfl | rfl | rfl | rfl
  · exact ⟨hnone, hread (by norm_num), Or.inr nofun⟩
  · exact ⟨hread (by norm_num), hread (by norm_num), Or.inr nofun⟩
  · exact ⟨hread (by norm_num), hread (by norm_num), Or.inr nofun⟩
  · exact ⟨hread (by norm_num), hnone, Or.inl nofun⟩

/-- **Price buckets.** A bucket counts what the same search returns between its bounds without what is
priced exactly at the upper one, and so all of it when nothing is. -/
theorem price_bucket_count :
    ∀ bucket ∈ (toFacets (engine.respond catalogue
        (buildSearchRequest criteria relevance from_ size)).aggregations).priceRanges,
      let inside := engine.selected catalogue
        (buildSearchRequest (criteria.priced bucket.from_ bucket.to_) relevance from_ size)
      bucket.count = .ofRat (inside.countP fun doc => ! pricedAt bucket.to_ doc) ∧
        ((∀ doc ∈ inside, pricedAt bucket.to_ doc = false) →
          bucket.count =
            totalOf engine catalogue (criteria.priced bucket.from_ bucket.to_) relevance from_ size) := by
  rw [priceBuckets_respond]
  intro bucket hbucket
  obtain ⟨_, hmem, rfl⟩ := List.mem_map.mp hbucket
  obtain ⟨range, hrange, rfl⟩ := List.mem_map.mp hmem
  obtain ⟨hlower, hupper, hsome⟩ := range_bounds hrange
  dsimp only
  have hquery : (criteria.priced ((range.get "from").bind Json.number?)
      ((range.get "to").bind Json.number?)).query = criteria.query := rfl
  have hcount : countRange (priceDocs engine catalogue criteria relevance from_ size) "price"
      (((range.get "from").bind Json.number?).bind Number.value?)
      (((range.get "to").bind Json.number?).bind Number.value?) =
        (engine.selected catalogue (buildSearchRequest (criteria.priced
          ((range.get "from").bind Json.number?) ((range.get "to").bind Json.number?)) relevance from_
            size)).countP fun doc => ! pricedAt ((range.get "to").bind Json.number?) doc := by
    rw [selected_request, matching_request engine catalogue hquery]
    unfold countRange priceDocs
    rw [List.countP_filter, List.countP_filter]
    refine List.countP_congr fun doc _ => ?_
    rw [inRange_iff hlower hupper hsome]
    simp only [Bool.and_eq_true]
    rw [accepts_priced]
    tauto
  refine ⟨congrArg (fun n : ℕ => Number.ofRat n) hcount, fun hnone => ?_⟩
  refine congrArg (fun n : ℕ => Number.ofRat n)
    (hcount.trans (List.countP_eq_length.mpr fun doc hdoc => ?_))
  rw [hnone doc hdoc]
  rfl

end

/-- An engine that matches everything. -/
def matchAll : SearchEngine where
  matchesQuery _ _ := true
  score _ := 0
  millis _ := 0
  suggest _ := { didYouMean := none, related := none }

/-- A product at the upper bound of the first range. -/
def fiftyDollarDrill : ProductDocument where
  id := "p1"
  name := "Drill"
  description := "A drill"
  category := "tools"
  subcategories := ["drills"]
  location := "Caracas"
  price := .ofRat (50 : ℕ)
  popularity := .ofRat (1 : ℕ)
  createdAt := "2026-01-01"

/-- A search without a query or a selection. -/
def browse (pageSize : ℕ) : SearchCriteria where
  query := none
  filters :=
    { category := none, subcategories := none, location := none, minPrice := none, maxPrice := none }
  sort := .popularity
  order := .desc
  page := .ofRat (1 : ℕ)
  pageSize := .ofRat pageSize

def defaultRelevance : RelevanceConfig := (buildConfig (deployment 5)).relevance

/-- The bucket below fifty dollars counts nothing where the only product is at fifty. -/
theorem price_bucket_count_fifty :
    Number.ofRat (0 : ℕ) = .ofRat ((matchAll.selected [fiftyDollarDrill] (buildSearchRequest
      ((browse 20).priced none (some (.ofRat (50 : ℕ)))) defaultRelevance (.ofRat 0)
        (.ofRat (20 : ℕ)))).countP fun doc => ! pricedAt (some (.ofRat (50 : ℕ))) doc) := by
  have hbucket : { from_ := none, to_ := some (.ofRat (50 : ℕ)), count := .ofRat (0 : ℕ) } ∈
      (toFacets (matchAll.respond [fiftyDollarDrill] (buildSearchRequest (browse 20) defaultRelevance
        (.ofRat 0) (.ofRat (20 : ℕ)))).aggregations).priceRanges := by
    rw [priceBuckets_respond]
    decide +kernel
  exact (price_bucket_count matchAll [fiftyDollarDrill] (browse 20) defaultRelevance (.ofRat 0)
    (.ofRat (20 : ℕ)) _ hbucket).1

/-- A product priced at a boundary is missing from the bucket below it and found by its filter. -/
theorem price_bucket_boundary :
    ∃ bucket ∈ (toFacets (matchAll.respond [fiftyDollarDrill]
        (buildSearchRequest (browse 20) defaultRelevance (.ofRat 0) (.ofRat (20 : ℕ)))).aggregations).priceRanges,
      bucket.count ≠ totalOf matchAll [fiftyDollarDrill] ((browse 20).priced bucket.from_ bucket.to_)
        defaultRelevance (.ofRat 0) (.ofRat (20 : ℕ)) := by
  rw [priceBuckets_respond]
  decide +kernel

end AdvancedSearch
