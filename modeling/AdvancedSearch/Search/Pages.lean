import AdvancedSearch.Search.Facets

/-!
# Pages

How the hits are cut into pages and which pages a response advertises. Pages neither repeat nor skip a
hit (`pages_concatenate`). A page is answered when it ends within the result window, so that the last
one advertised may be refused (`advertised_pages`).
-/

namespace AdvancedSearch

open Js Ranking

/-! ## The body as a text -/

section

open Json

theorem buildFilterClauses_ordered (filters : SearchFilters) (exclude : Option FacetDimension) :
    ∀ clause ∈ buildFilterClauses filters exclude, clause.Ordered := by
  have hterm : ∀ (name value : String) (p : Prop) [Decidable p], arrayIndex? name = none →
      ∀ clause ∈ (if p then
        [object [("term", object [(name, object [("value", string value)])])]] else []), clause.Ordered := by
    intro name value p _ hname clause hclause
    split_ifs at hclause
    · rw [List.mem_singleton.mp hclause]
      exact ordered_single (by decide) (ordered_single hname (ordered_single (by decide) trivial))
    · exact absurd hclause List.not_mem_nil
  have hterms : ∀ (values : List String) (p : Prop) [Decidable p],
      ∀ clause ∈ (if p then [subcategoriesClause values] else []), clause.Ordered := by
    intro values p _ clause hclause
    split_ifs at hclause
    · rw [List.mem_singleton.mp hclause]
      exact ordered_single (by decide) (ordered_single (by decide) (ofStrings_ordered values))
    · exact absurd hclause List.not_mem_nil
  have hprice : ∀ (p : Prop) [Decidable p], ∀ clause ∈ (if p then
      (buildPriceRange filters.minPrice filters.maxPrice).toList else []), clause.Ordered := by
    intro p _ clause hclause
    split_ifs at hclause
    · unfold buildPriceRange at hclause
      split_ifs at hclause
      · exact absurd hclause List.not_mem_nil
      · rw [List.mem_singleton.mp hclause]
        refine ordered_single (by decide) (ordered_single (by decide) ?_)
        cases filters.minPrice with
        | none =>
          cases filters.maxPrice with
          | none => exact ordered_object [] rfl (by decide) trivial
          | some max => exact ordered_single (by decide) (toJson_ordered max)
        | some min =>
          cases filters.maxPrice with
          | none => exact ordered_single (by decide) (toJson_ordered min)
          | some max =>
            exact ordered_object ["gte", "lte"] rfl (by decide)
              ⟨toJson_ordered min, toJson_ordered max, trivial⟩
    · exact absurd hclause List.not_mem_nil
  rw [buildFilterClauses_eq]
  simp only [List.forall_mem_append]
  exact ⟨⟨⟨hterm _ _ _ (by decide), hterms _ _⟩, hterm _ _ _ (by decide)⟩, hprice _⟩

theorem filter_ordered (filters : SearchFilters) (exclude : Option FacetDimension) :
    (object [("bool", object [("filter", array (buildFilterClauses filters exclude))])]).Ordered :=
  ordered_single (by decide) (ordered_single (by decide)
    (itemsOrdered_iff.mpr (buildFilterClauses_ordered filters exclude)))

theorem facet_ordered (filters : SearchFilters) (dimension : FacetDimension) {values : Json}
    (h : values.Ordered) : (facet filters dimension values).Ordered :=
  ordered_object ["filter", "aggs"] rfl (by decide)
    ⟨filter_ordered filters (some dimension), ordered_single (by decide) h, trivial⟩

theorem buildFacetAggregations_ordered (filters : SearchFilters) :
    (buildFacetAggregations filters).Ordered := by
  have hterms (dimension : FacetDimension) (name : String) :
      (termsFacet filters dimension name).Ordered :=
    facet_ordered filters dimension (ordered_single (by decide)
      (ordered_object ["field", "size"] rfl (by decide) ⟨trivial, trivial, trivial⟩))
  have hranges : PRICE_RANGES.Ordered :=
    ⟨ordered_single (by decide) trivial,
      ordered_object ["from", "to"] rfl (by decide) ⟨trivial, trivial, trivial⟩,
      ordered_object ["from", "to"] rfl (by decide) ⟨trivial, trivial, trivial⟩,
      ordered_single (by decide) trivial, trivial⟩
  have hprice : (priceFacet filters).Ordered :=
    facet_ordered filters .price (ordered_single (by decide)
      (ordered_object ["field", "ranges"] rfl (by decide) ⟨trivial, hranges, trivial⟩))
  exact ordered_object ["categories", "subcategories", "locations", "priceRanges"] rfl (by decide)
    ⟨hterms _ _, hterms _ _, hterms _ _, hprice, trivial⟩

theorem buildTextQuery_ordered (query : Option String) (relevance : RelevanceConfig) :
    (buildTextQuery query relevance).Ordered := by
  have hmatch : ∀ text : String, (object [("multi_match", object
      [("query", string text), ("type", string "best_fields"), ("fields", ofStrings FIELD_BOOSTS),
        ("fuzziness", string "AUTO"), ("operator", string "or"),
        ("minimum_should_match", string "60%")])]).Ordered := fun text =>
    ordered_single (by decide) (ordered_object
      ["query", "type", "fields", "fuzziness", "operator", "minimum_should_match"] rfl (by decide)
      ⟨trivial, trivial, ofStrings_ordered _, trivial, trivial, trivial, trivial⟩)
  have hall : (object [("match_all", object [])]).Ordered :=
    ordered_single (by decide) (ordered_object [] rfl (by decide) trivial)
  have hpopularity : (object [("field_value_factor", object
      [("field", string "popularity"), ("modifier", string "ln1p"),
        ("factor", toJson relevance.popularityFactor)])]).Ordered :=
    ordered_single (by decide) (ordered_object ["field", "modifier", "factor"] rfl (by decide)
      ⟨trivial, trivial, toJson_ordered _, trivial⟩)
  have hrecency : (object [("gauss", object [("createdAt", object
      [("origin", string "now"), ("scale", string relevance.recencyScale),
        ("offset", string RECENCY_OFFSET), ("decay", toJson relevance.recencyDecay)])])]).Ordered :=
    ordered_single (by decide) (ordered_single (by decide)
      (ordered_object ["origin", "scale", "offset", "decay"] rfl (by decide)
        ⟨trivial, trivial, trivial, toJson_ordered _, trivial⟩))
  refine ordered_single (by decide) (ordered_object
    ["query", "functions", "score_mode", "boost_mode"] rfl (by decide)
    ⟨?_, ⟨hpopularity, hrecency, trivial⟩, trivial, trivial, trivial⟩)
  cases query with
  | none => exact hall
  | some text =>
    show (if text = "" then _ else _ : Json).Ordered
    split_ifs
    · exact hall
    · exact hmatch text

theorem buildSuggest_ordered (text : String) : (buildSuggest text).Ordered := by
  have hphrase : (object
      [("field", string "suggest_text.trigram"), ("suggest_mode", string "always")]).Ordered :=
    ordered_object ["field", "suggest_mode"] rfl (by decide) ⟨trivial, trivial, trivial⟩
  refine ordered_object ["text", "did_you_mean", "related"] rfl (by decide)
    ⟨trivial, ordered_single (by decide) ?_, ordered_single (by decide) ?_, trivial⟩
  · exact ordered_object ["field", "size", "gram_size", "max_errors", "direct_generator", "collate"]
      rfl (by decide) ⟨trivial, trivial, trivial, trivial, ⟨hphrase, trivial⟩,
        ordered_object ["query", "prune"] rfl (by decide)
          ⟨ordered_single (by decide) trivial, trivial, trivial⟩, trivial⟩
  · exact ordered_object ["field", "suggest_mode", "size"] rfl (by decide)
      ⟨trivial, trivial, trivial, trivial⟩

theorem buildSort_ordered (sort : SortField) (order : SortOrder) : (buildSort sort order).Ordered := by
  have hby : ∀ {field : String} (order : String), arrayIndex? field = none →
      (object [(field, object [("order", string order)])]).Ordered := fun order hfield =>
    ordered_single hfield (ordered_single (by decide) trivial)
  cases sort with
  | relevance => exact ⟨hby _ (by decide), hby _ (by decide), trivial⟩
  | popularity => exact ⟨hby _ (by decide), hby _ (by decide), hby _ (by decide), trivial⟩
  | createdAt => exact ⟨hby _ (by decide), hby _ (by decide), hby _ (by decide), trivial⟩

/-- The text of a body reads back as the body. -/
theorem buildSearchRequest_ordered (criteria : SearchCriteria) (relevance : RelevanceConfig)
    (from_ size : Number) : (buildSearchRequest criteria relevance from_ size).Ordered := by
  rw [buildSearchRequest_eq]
  have hpost : postFilterField criteria.filters = [] ∨ postFilterField criteria.filters =
      [("post_filter", object [("bool", object
        [("filter", array (buildFilterClauses criteria.filters none))])])] := by
    unfold postFilterField
    split_ifs
    · exact Or.inr rfl
    · exact Or.inl rfl
  have hhead := toJson_ordered from_
  have hsize := toJson_ordered size
  have hquery := buildTextQuery_ordered criteria.query relevance
  have hfilter := filter_ordered criteria.filters none
  have haggs := buildFacetAggregations_ordered criteria.filters
  have hsuggest := buildSuggest_ordered (criteria.query.getD "")
  have hsort := buildSort_ordered criteria.sort criteria.order
  rcases hpost with hpost | hpost <;> rcases suggestField_cases criteria.query with hs | hs <;>
    rw [hpost, hs]
  · exact ordered_object ["from", "size", "track_total_hits", "query", "aggregations", "sort"] rfl
      (by decide) ⟨hhead, hsize, trivial, hquery, haggs, hsort, trivial⟩
  · exact ordered_object ["from", "size", "track_total_hits", "query", "aggregations", "suggest", "sort"]
      rfl (by decide) ⟨hhead, hsize, trivial, hquery, haggs, hsuggest, hsort, trivial⟩
  · exact ordered_object
      ["from", "size", "track_total_hits", "query", "post_filter", "aggregations", "sort"] rfl
      (by decide) ⟨hhead, hsize, trivial, hquery, hfilter, haggs, hsort, trivial⟩
  · exact ordered_object
      ["from", "size", "track_total_hits", "query", "post_filter", "aggregations", "suggest", "sort"]
      rfl (by decide) ⟨hhead, hsize, trivial, hquery, hfilter, haggs, hsuggest, hsort, trivial⟩

/-- The client answers the body that was sent. -/
theorem client_request (engine : SearchEngine) (catalogue : List ProductDocument) (index : String)
    (criteria : SearchCriteria) (relevance : RelevanceConfig) (from_ size : Number) :
    engine.client catalogue index (buildSearchRequest criteria relevance from_ size).stringify =
      .ok (engine.respond catalogue (buildSearchRequest criteria relevance from_ size)) := by
  unfold SearchEngine.client
  rw [parse_stringify (buildSearchRequest_ordered criteria relevance from_ size)]

end

/-! ## The response -/

structure SearchMetaDto where
  total : Number
  page : Number
  pageSize : Number
  totalPages : Number
  sort : SortField
  order : SortOrder

structure SearchResponseDto where
  data : List ProductSummary
  meta_ : SearchMetaDto
  facets : Facets
  suggestions : SearchSuggestions

def toSearchResponseDto (outcome : SearchOutcome) (criteria : SearchCriteria) : SearchResponseDto :=
  let totalPages :=
    if Number.lt (.ofRat 0) criteria.pageSize then (outcome.total.dividedBy criteria.pageSize).ceil
    else .ofRat 0
  { data := outcome.items
    meta_ :=
      { total := outcome.total
        page := criteria.page
        pageSize := criteria.pageSize
        totalPages := totalPages
        sort := criteria.sort
        order := criteria.order }
    facets := outcome.facets
    suggestions := outcome.suggestions }

/-- As many pages as it takes to hold the hits. -/
theorem totalPages_eq {outcome : SearchOutcome} {criteria : SearchCriteria} {total k : ℕ} {size : Double}
    (htotal : outcome.total = .ofRat total) (hsafe : total < 2 ^ 53)
    (hsize : criteria.pageSize = .finite size) (hk : size.value = k) (hpos : 0 < k) :
    (toSearchResponseDto outcome criteria).meta_.totalPages = .ofRat (pagesFor total k : ℕ) := by
  have hsome : Number.lt (.ofRat 0) (.finite size) := by
    rw [Number.ofRat_zero, Number.lt_finite, hk]
    exact decide_eq_true (Nat.cast_pos.mpr hpos)
  show (if Number.lt (.ofRat 0) criteria.pageSize then (outcome.total.dividedBy criteria.pageSize).ceil
    else .ofRat 0) = _
  rw [hsize, if_pos hsome, htotal, Number.ceil_dividedBy hsafe hk hpos]
  rfl

/-! ## The window -/

section

variable {ε : Type} {adapter : SearchAdapter} {page size : Double} {p k w : ℕ}

/-- A page that ends within the window is given its exact offset. -/
theorem resolveWindow_ok (hpage : page.value = p) (hsize : size.value = k) (hp : 0 < p) (hk : 0 < k)
    (hw : w < 2 ^ 53) (hwindow : adapter.maxResultWindow = .ofRat w) (h : p * k ≤ w) :
    (adapter.resolveWindow (.finite page) (.finite size) : Except (SearchError ε) (Number × Number)) =
      .ok (.ofRat ((p - 1) * k : ℕ), .finite size) := by
  have hend : (p - 1) * k + k = p * k := by
    rw [Nat.sub_mul, Nat.one_mul]
    exact Nat.sub_add_cancel (Nat.le_mul_of_pos_left k hp)
  have hp' : p ≤ w := (Nat.le_mul_of_pos_right p hk).trans h
  have hk' : k ≤ w := (Nat.le_mul_of_pos_left k hp).trans h
  have hcast : (p : ℚ) - 1 = (p - 1 : ℕ) := by rw [Nat.cast_sub hp, Nat.cast_one]
  unfold SearchAdapter.resolveWindow
  rw [Number.sub_one, hpage, hcast, ← Number.ofRat_value size, hsize,
    Number.natCast_times (by omega) (by omega)]
  dsimp only
  rw [Number.natCast_add (by omega) (by omega), hend, hwindow, Number.lt_natCast hw,
    decide_eq_false (not_lt.mpr h)]
  rfl

/-- A page that does not is refused, however far away it is. -/
theorem resolveWindow_refuses (hpage : page.value = p) (hsize : size.value = k) (hp : 0 < p) (hk : 0 < k)
    (hw : w < 2 ^ 53) (hwindow : adapter.maxResultWindow = .ofRat w) (h : w < p * k) :
    ∃ message, (adapter.resolveWindow (.finite page) (.finite size) :
      Except (SearchError ε) (Number × Number)) =
        .error (.resultWindowExceeded adapter.maxResultWindow message) := by
  have hend : (p - 1) * k + k = p * k := by
    rw [Nat.sub_mul, Nat.one_mul]
    exact Nat.sub_add_cancel (Nat.le_mul_of_pos_left k hp)
  have hone : 1 ≤ size.value := by
    rw [hsize]
    exact_mod_cast hk
  have hcast : page.value - 1 = (p - 1 : ℕ) := by rw [hpage, Nat.cast_sub hp, Nat.cast_one]
  have hbeyond : Number.lt (.ofRat w)
      ((((Number.finite page).sub (.ofRat 1)).times (.finite size)).add (.finite size)) := by
    rw [Number.sub_one, hcast]
    by_cases hoffset : (p - 1) * k < 2 ^ 53
    · obtain ⟨before, hbefore, hvalue⟩ :=
        Number.exists_double_natCast ((Nat.le_mul_of_pos_right (p - 1) hk).trans_lt hoffset)
      obtain ⟨offset, hoff, hoffvalue⟩ := Number.exists_double_natCast hoffset
      rw [hbefore]
      show Number.lt (.ofRat w) ((Number.ofRat (before.value * size.value)).add (.finite size))
      rw [hvalue, hsize, ← Nat.cast_mul, hoff]
      show Number.lt (.ofRat w) (.ofRat (offset.value + size.value))
      rw [hoffvalue, hsize, ← Nat.cast_add, hend, Number.lt_natCast hw]
      exact decide_eq_true h
    · -- past the safe integers every rounded step stays past them
      have hlarge : ((Number.ofRat (p - 1 : ℕ)).times (.finite size)).Large := by
        by_cases hbefore : p - 1 < 2 ^ 53
        · obtain ⟨before, hbefore, hvalue⟩ := Number.exists_double_natCast hbefore
          rw [hbefore]
          show (Number.ofRat (before.value * size.value)).Large
          rw [hvalue, hsize, ← Nat.cast_mul]
          exact Number.large_ofRat (by exact_mod_cast not_lt.mp hoffset)
        · exact (Number.large_ofRat (by exact_mod_cast not_lt.mp hbefore)).times hone
      exact (hlarge.add (le_trans zero_le_one hone)).lt hw
  unfold SearchAdapter.resolveWindow
  rw [hwindow]
  exact ⟨_, if_pos hbeyond⟩

end

/-! ## The order of the hits -/

namespace SearchEngine

variable (engine : SearchEngine)

/-- What the query matches and the selection accepts. -/
def hits (catalogue : List ProductDocument) (criteria : SearchCriteria) (relevance : RelevanceConfig) :
    List ProductDocument :=
  catalogue.filter fun doc =>
    accepts criteria.filters none doc && engine.matchesQuery (buildTextQuery criteria.query relevance) doc

theorem selected_eq_hits (catalogue : List ProductDocument) (criteria : SearchCriteria)
    (relevance : RelevanceConfig) (from_ size : Number) :
    engine.selected catalogue (buildSearchRequest criteria relevance from_ size) =
      engine.hits catalogue criteria relevance := by
  rw [selected_request]
  exact List.filter_filter

/-- Documents with one id are one document. -/
theorem eq_of_mem_hits {catalogue : List ProductDocument} (hids : (catalogue.map (·.id)).Nodup)
    {criteria : SearchCriteria} {relevance : RelevanceConfig} {a b : ProductDocument}
    (ha : a ∈ engine.hits catalogue criteria relevance) (hb : b ∈ engine.hits catalogue criteria relevance)
    (h : a.id = b.id) : a = b :=
  List.inj_on_of_nodup_map hids (List.mem_of_mem_filter ha) (List.mem_of_mem_filter hb) h

theorem transCmp_compareField (name : String) (descending : Bool) :
    Std.TransCmp (engine.compareField name descending) := by
  unfold compareField
  split_ifs <;> infer_instance

instance (sort : Json) : Std.TransCmp (engine.compareSort sort) := by
  refine transCmp_lexicographic fun compare hcompare => ?_
  obtain ⟨criterion, -, hentry⟩ := List.mem_flatMap.mp hcompare
  obtain ⟨entry, -, rfl⟩ := List.mem_map.mp hentry
  exact engine.transCmp_compareField entry.1 _

/-- Every sort ends with the id. -/
theorem id_of_compareSort_eq {sort : SortField} {order : SortOrder} {a b : ProductDocument}
    (h : engine.compareSort (buildSort sort order) a b = .eq) : a.id = b.id := by
  have hmem : ∀ criterion, criterion ∈ (buildSort sort order).items →
      ∀ entry ∈ criterion.entries, engine.compareField entry.1
        (((entry.2.get "order").bind Json.text?) = some "desc") a b = .eq := by
    intro criterion hcriterion entry hentry
    exact lexicographic_eq.mp h _
      (List.mem_flatMap.mpr ⟨criterion, hcriterion, List.mem_map.mpr ⟨entry, hentry, rfl⟩⟩)
  have hlast : .object [("id", .object [("order", .string "asc")])] ∈ (buildSort sort order).items := by
    cases sort <;> simp [buildSort, Json.items]
  have hid : compare a.id b.id = .eq := hmem _ hlast _ (List.mem_singleton.mpr rfl)
  exact Std.LawfulEqOrd.eq_of_compare hid

/-- **A total order.** However many products tie on the first criterion, the sort puts one of any two
hits before the other. -/
theorem strictTotalOn_hits {catalogue : List ProductDocument} (hids : (catalogue.map (·.id)).Nodup)
    (criteria : SearchCriteria) (relevance : RelevanceConfig) :
    StrictTotalOn (engine.hits catalogue criteria relevance)
      (engine.compareSort (buildSort criteria.sort criteria.order)) :=
  strictTotalOn fun _ ha _ hb h => engine.eq_of_mem_hits hids ha hb (engine.id_of_compareSort_eq h)

/-- The hits from first to last. -/
def ordered (catalogue : List ProductDocument) (criteria : SearchCriteria) (relevance : RelevanceConfig) :
    List ProductDocument :=
  rank (engine.compareSort (buildSort criteria.sort criteria.order))
    (engine.hits catalogue criteria relevance)

theorem ranked_eq_ordered (catalogue : List ProductDocument) (criteria : SearchCriteria)
    (relevance : RelevanceConfig) (from_ size : Number) :
    engine.ranked catalogue (buildSearchRequest criteria relevance from_ size) =
      engine.ordered catalogue criteria relevance := by
  unfold ranked ordered
  rw [get_sort, selected_eq_hits]
  rfl

/-- What a hit becomes. -/
def summary (doc : ProductDocument) : ProductSummary where
  id := doc.id
  name := doc.name
  description := doc.description
  category := doc.category
  subcategories := doc.subcategories
  location := doc.location
  price := doc.price
  currency := DEFAULT_CURRENCY
  popularity := doc.popularity
  createdAt := doc.createdAt
  score := some (.ofRat (engine.score doc))

end SearchEngine

/-! ## Answers -/

/-- A page of a search. -/
def SearchCriteria.onPage (criteria : SearchCriteria) (page : Number) : SearchCriteria :=
  { criteria with page := page }

section

variable {adapter : SearchAdapter} (engine : SearchEngine) (catalogue : List ProductDocument)
  (criteria : SearchCriteria)

/-- An answer lists the hits of its window and counts all of them. -/
theorem search_of_window {page from_ size : Number}
    (hwindow : adapter.resolveWindow page criteria.pageSize =
      (.ok (from_, size) : Except (SearchError String) (Number × Number))) :
    ∃ outcome, adapter.search (engine.client catalogue) (criteria.onPage page) = .ok outcome ∧
      outcome.total = .ofRat (engine.hits catalogue criteria adapter.relevance).length ∧
      outcome.items = (Ranking.page (natOf (some (toJson from_))) (natOf (some (toJson size)))
        (engine.ordered catalogue criteria adapter.relevance)).map engine.summary := by
  have hhits : engine.selected catalogue
      (buildSearchRequest (criteria.onPage page) adapter.relevance from_ size) =
        engine.hits catalogue criteria adapter.relevance := engine.selected_eq_hits ..
  have hranked : engine.ranked catalogue
      (buildSearchRequest (criteria.onPage page) adapter.relevance from_ size) =
        engine.ordered catalogue criteria adapter.relevance := engine.ranked_eq_ordered ..
  have hitems : ∀ docs : List ProductDocument,
      (docs.map fun doc => SearchHit.mk (some doc.id) (some doc)
        (some (.ofRat (engine.score doc)))).mapM toProductSummary =
          (.ok (docs.map engine.summary) : Except (SearchError String) (List ProductSummary)) := by
    intro docs
    rw [List.mapM_map]
    exact List.mapM_pure
  unfold SearchAdapter.search
  rw [show (criteria.onPage page).page = page from rfl,
    show (criteria.onPage page).pageSize = criteria.pageSize from rfl, hwindow]
  simp only [bind, Except.bind, client_request]
  unfold SearchAdapter.toOutcome SearchEngine.respond
  rw [hhits, hranked, get_from, get_size]
  dsimp only
  rw [hitems]
  exact ⟨_, rfl, rfl, rfl⟩

/-- Whatever page is answered, its total is that of the search. -/
theorem total_of_search {page : Number} {outcome : SearchOutcome}
    (h : adapter.search (engine.client catalogue) (criteria.onPage page) = .ok outcome) :
    outcome.total = .ofRat (engine.hits catalogue criteria adapter.relevance).length := by
  cases hwindow : (adapter.resolveWindow page criteria.pageSize :
      Except (SearchError String) (Number × Number)) with
  | error error =>
    unfold SearchAdapter.search at h
    rw [show (criteria.onPage page).page = page from rfl,
      show (criteria.onPage page).pageSize = criteria.pageSize from rfl, hwindow] at h
    cases h
  | ok window =>
    obtain ⟨answer, hanswer, htotal, -⟩ := search_of_window engine catalogue criteria hwindow
    rw [h] at hanswer
    cases hanswer
    exact htotal

end

/-- A positive integer of the environment. -/
theorem exists_nat_of_isPositiveInt {x : Number} (h : IsPositiveInt x) :
    ∃ n : ℕ, x = .ofRat n ∧ 0 < n ∧ n < 2 ^ 53 := by
  obtain ⟨⟨d, rfl, z, hz, hsafe⟩, hpos⟩ := h
  rw [Number.ofRat_zero, Number.lt_finite, hz, decide_eq_true_eq] at hpos
  have hz' : 0 < z := Int.cast_pos.mp (show (0 : ℚ) < z from hpos)
  obtain ⟨n, rfl⟩ := Int.eq_ofNat_of_zero_le hz'.le
  refine ⟨n, ?_, by exact_mod_cast hz', ?_⟩
  · rw [← Number.ofRat_value d, hz]
    rfl
  · rw [abs_of_pos hz'] at hsafe
    exact_mod_cast hsafe

/-- A page that ends within the window lists the hits it stands for. -/
theorem search_page {adapter : SearchAdapter} (engine : SearchEngine) (catalogue : List ProductDocument)
    (criteria : SearchCriteria) {k w i : ℕ} {size : Double} (hsize : criteria.pageSize = .finite size)
    (hk : size.value = k) (hpos : 0 < k) (hwindow : adapter.maxResultWindow = .ofRat w)
    (hw : w < 2 ^ 53) (hi : (i + 1) * k ≤ w) :
    ∃ outcome, adapter.search (engine.client catalogue) (criteria.onPage (.ofRat (i + 1 : ℕ))) =
        .ok outcome ∧
      outcome.items = (page (i * k) k (engine.ordered catalogue criteria adapter.relevance)).map
        engine.summary := by
  have hlast : i + 1 ≤ w := (Nat.le_mul_of_pos_right _ hpos).trans hi
  have hsplit : (i + 1) * k = i * k + k := by rw [Nat.add_mul, Nat.one_mul]
  obtain ⟨number, hnumber, hvalue⟩ := Number.exists_double_natCast (n := i + 1) (by omega)
  have hresolve := @resolveWindow_ok String adapter number size (i + 1) k w hvalue hk (Nat.succ_pos i)
    hpos hw hwindow hi
  rw [Nat.add_sub_cancel, ← hsize, ← hnumber] at hresolve
  obtain ⟨outcome, houtcome, -, hitems⟩ := search_of_window engine catalogue criteria hresolve
  rw [hsize, ← Number.ofRat_value size, hk, natOf_toJson (by omega), natOf_toJson (by omega)] at hitems
  exact ⟨outcome, houtcome, hitems⟩

/-- Answers collected one page after another. -/
theorem mapM_of_answers {ε α β : Type} {f : ℕ → Except ε α} {g : α → List β} {h : ℕ → List β} {p : ℕ}
    (hanswers : ∀ i < p, ∃ a, f i = .ok a ∧ g a = h i) :
    ∃ answers, (List.range p).mapM f = .ok answers ∧ answers.flatMap g = (List.range p).flatMap h := by
  induction p with
  | zero => exact ⟨[], rfl, rfl⟩
  | succ p ih =>
    obtain ⟨answers, hmap, hflat⟩ := ih fun i hi => hanswers i (Nat.lt_succ_of_lt hi)
    obtain ⟨last, hlast, hitems⟩ := hanswers p (Nat.lt_succ_self p)
    refine ⟨answers ++ [last], ?_, ?_⟩
    · rw [List.range_succ, List.mapM_append, hmap, List.mapM_cons, hlast]
      rfl
    · rw [List.range_succ, List.flatMap_append, List.flatMap_append, hflat]
      simp [hitems]

/-- **Pagination.** The sort puts the hits in a strict total order. The first pages, as many as end
within the result window, list its first hits, each once; and the last page that is not empty is the
one that the response reports. -/
theorem pages_concatenate {env : Env} (henv : env.Accepted) (engine : SearchEngine)
    {catalogue : List ProductDocument} (hids : (catalogue.map (·.id)).Nodup) (criteria : SearchCriteria)
    {k : ℕ} {size : Double} (hsize : criteria.pageSize = .finite size) (hk : size.value = k)
    (hpos : 0 < k) :
    let adapter := SearchAdapter.of (buildConfig env)
    let hits := engine.hits catalogue criteria adapter.relevance
    let compare := engine.compareSort (buildSort criteria.sort criteria.order)
    StrictTotalOn hits compare ∧
      ∃ ordered : List ProductDocument, ordered.Perm hits ∧ ordered.Pairwise (compare · · = .lt) ∧
        (∀ p : ℕ, Number.lt env.SEARCH_MAX_RESULT_WINDOW (.ofRat (p * k : ℕ)) = false →
          ∃ outcomes, (List.range p).mapM (fun i => adapter.search (engine.client catalogue)
              (criteria.onPage (.ofRat (i + 1 : ℕ)))) = .ok outcomes ∧
            outcomes.flatMap (·.items) =
              (ordered.take (min (p * k) hits.length)).map engine.summary) ∧
        (∀ page outcome, adapter.search (engine.client catalogue) (criteria.onPage page) = .ok outcome →
          outcome.total = .ofRat hits.length) ∧
        (0 < hits.length → hits.length < 2 ^ 53 →
          ∀ page outcome, outcome.total = .ofRat hits.length →
            ∃ last : ℕ, (toSearchResponseDto outcome (criteria.onPage page)).meta_.totalPages =
                .ofRat last ∧ 0 < last ∧ Ranking.page ((last - 1) * k) k ordered ≠ [] ∧
              ∀ i > last, Ranking.page ((i - 1) * k) k ordered = []) := by
  intro adapter hits compare
  obtain ⟨w, hwindow, -, hw⟩ := exists_nat_of_isPositiveInt henv.maxResultWindow
  have hperm : (engine.ordered catalogue criteria adapter.relevance).Perm hits := rank_perm compare hits
  have hnodup : hits.Nodup := (List.Nodup.of_map _ hids).filter _
  refine ⟨engine.strictTotalOn_hits hids criteria adapter.relevance,
    engine.ordered catalogue criteria adapter.relevance, hperm, ?_, ?_, ?_, ?_⟩
  · exact pairwise_rank (fun _ ha _ hb h =>
      engine.eq_of_mem_hits hids ha hb (engine.id_of_compareSort_eq h)) hnodup
  · intro p hp
    have hfit : p * k ≤ w := by
      rw [hwindow, Number.lt_natCast hw, decide_eq_false_iff_not] at hp
      exact not_lt.mp hp
    have hanswers : ∀ i < p, ∃ outcome, adapter.search (engine.client catalogue)
        (criteria.onPage (.ofRat (i + 1 : ℕ))) = .ok outcome ∧ outcome.items =
          (Ranking.page (i * k) k (engine.ordered catalogue criteria adapter.relevance)).map
            engine.summary := fun i hi =>
      search_page engine catalogue criteria hsize hk hpos hwindow hw
        ((Nat.mul_le_mul_right k hi).trans hfit)
    obtain ⟨outcomes, hmap, hflat⟩ := mapM_of_answers hanswers
    refine ⟨outcomes, hmap, hflat.trans ?_⟩
    rw [← List.map_flatMap, flatMap_page, ← hperm.length_eq, ← List.take_eq_take_min]
  · exact fun page outcome h => total_of_search engine catalogue criteria h
  · intro hsome hsafe page outcome htotal
    refine ⟨pagesFor hits.length k, totalPages_eq htotal hsafe hsize hk hpos, ?_⟩
    rw [← hperm.length_eq] at hsome ⊢
    exact last_page hpos hsome

/-- Two products that are equally popular, and a more popular one. -/
def drillShelf : List ProductDocument :=
  [{ fiftyDollarDrill with id := "p3" }, fiftyDollarDrill,
    { fiftyDollarDrill with id := "p2", popularity := .ofRat (5 : ℕ) }]

/-- They are listed on two pages: the popular one first, then the tie by id. -/
theorem pages_concatenate_shelf :
    ∃ outcomes, (List.range 2).mapM (fun i => (SearchAdapter.of (buildConfig (deployment 5))).search
        (matchAll.client drillShelf) ((browse 2).onPage (.ofRat (i + 1 : ℕ)))) = .ok outcomes ∧
      (outcomes.flatMap (·.items)).map (·.id) = ["p2", "p1", "p3"] := by
  obtain ⟨size, hsize, hvalue⟩ := Number.exists_double_natCast (n := 2) (by norm_num)
  have hids : (drillShelf.map (·.id)).Nodup := by decide
  have haccepted : (deployment 5).Accepted := deployment_accepted (by norm_num)
  obtain ⟨horder, ordered, hperm, hsorted, hpages, -⟩ :=
    pages_concatenate haccepted matchAll hids (browse 2) hsize hvalue (by norm_num)
  have hhits : matchAll.hits drillShelf (browse 2)
      (SearchAdapter.of (buildConfig (deployment 5))).relevance = drillShelf := rfl
  obtain ⟨outcomes, hanswers, hitems⟩ := hpages 2 (by
    rw [show (deployment 5).SEARCH_MAX_RESULT_WINDOW = .ofRat (10000 : ℕ) from rfl,
      Number.lt_natCast (by norm_num)]
    rfl)
  rw [hhits] at horder hperm hitems
  -- a strict order lists the products in one way only
  have hlisted : ordered = drillShelf.reverse := by
    refine (hperm.trans (List.reverse_perm _).symm).eq_of_pairwise (fun x y hx hy hxy hyx => ?_) hsorted
      (by decide +kernel)
    have hx' := hperm.mem_iff.mp hx
    exact absurd (horder.trans x hx' y (List.mem_reverse.mp hy) x hx' hxy hyx) (horder.irrefl x hx')
  refine ⟨outcomes, hanswers, ?_⟩
  rw [hitems, hlisted]
  rfl

/-! ## Advertised pages -/

/-- `SearchController.assertPageSizeWithinLimit`, or the text of a `BadRequestException`. -/
def assertPageSizeWithinLimit (searchConfig : SearchConfig) (pageSize : Option Number) :
    Except String Unit :=
  match pageSize with
  | some pageSize =>
    if Number.lt searchConfig.maxPageSize pageSize then
      .error ("pageSize must not exceed " ++ searchConfig.maxPageSize.text)
    else .ok ()
  | none => .ok ()

/-- Page 1 and the pages up to `meta.totalPages`. -/
def SearchResponseDto.advertises (response : SearchResponseDto) (page : ℕ) : Prop :=
  page = 1 ∨ 0 < page ∧ Number.lt response.meta_.totalPages (.ofRat page) = false

/-- `resolveWindow` does not throw. -/
def SearchAdapter.answers (adapter : SearchAdapter) (page pageSize : Number) : Prop :=
  (adapter.resolveWindow page pageSize : Except (SearchError String) (Number × Number)).isOk

/-- What the validators of page numbers and sizes accept. -/
theorem exists_nat_of_isInteger {x : Number} (hinteger : x.isInteger)
    (hmin : Number.lt x (.ofRat 1) = false) :
    ∃ (d : Double) (n : ℕ), x = .finite d ∧ d.value = n ∧ 0 < n := by
  obtain ⟨one, hone, hone'⟩ := Number.exists_double_natCast (n := 1) (by norm_num)
  rw [Nat.cast_one] at hone hone'
  cases x with
  | nan => cases hinteger
  | infinity neg => cases hinteger
  | finite d =>
    rw [hone, Number.lt_finite, hone', decide_eq_false_iff_not, not_lt] at hmin
    have hwhole : (d.value.num : ℚ) = d.value :=
      (Rat.den_eq_one_iff _).mp (of_decide_eq_true hinteger)
    have hpos : 0 < d.value.num := Rat.num_pos.mpr (lt_of_lt_of_le zero_lt_one hmin)
    obtain ⟨n, hn⟩ := Int.eq_ofNat_of_zero_le hpos.le
    rw [hn] at hwhole hpos
    exact ⟨d, n, rfl, hwhole.symm, by exact_mod_cast hpos⟩

/-- The page sizes that the controller accepts are whole numbers. -/
theorem exists_nat_pageSize {env : Env} (henv : env.Accepted) {dto : SearchQueryDto} (hdto : dto.Valid)
    (hlimit : assertPageSizeWithinLimit (buildConfig env).search dto.pageSize = .ok ()) :
    ∃ k : ℕ, (toSearchCriteria dto (buildConfig env).search).pageSize = .ofRat k ∧ 0 < k ∧
      k < 2 ^ 53 := by
  show ∃ k : ℕ, dto.pageSize.getD env.SEARCH_DEFAULT_PAGE_SIZE = .ofRat k ∧ 0 < k ∧ k < 2 ^ 53
  cases hsize : dto.pageSize with
  | none => exact exists_nat_of_isPositiveInt henv.defaultPageSize
  | some pageSize =>
    obtain ⟨d, k, rfl, hk, hpos⟩ := exists_nat_of_isInteger (hdto.pageSize _ hsize).1
      (hdto.pageSize _ hsize).2
    obtain ⟨max, hmax, -, hsafe⟩ := exists_nat_of_isPositiveInt henv.maxPageSize
    obtain ⟨limit, hlim, hlimvalue⟩ := Number.exists_double_natCast hsafe
    have hle : k ≤ max := by
      rw [hsize] at hlimit
      unfold assertPageSizeWithinLimit at hlimit
      dsimp only at hlimit
      split_ifs at hlimit with hlt
      rw [show (buildConfig env).search.maxPageSize = .finite limit from hmax.trans hlim,
        Number.lt_finite, decide_eq_true_eq, not_lt, hk, hlimvalue] at hlt
      exact_mod_cast hlt
    refine ⟨k, ?_, hpos, hle.trans_lt hsafe⟩
    rw [Option.getD_some, ← hk, Number.ofRat_value]

/-- A page is answered when it ends within the window. -/
theorem answers_iff {adapter : SearchAdapter} {page size : Double} {p k w : ℕ} (hpage : page.value = p)
    (hsize : size.value = k) (hp : 0 < p) (hk : 0 < k) (hw : w < 2 ^ 53)
    (hwindow : adapter.maxResultWindow = .ofRat w) :
    adapter.answers (.finite page) (.finite size) ↔ p * k ≤ w := by
  unfold SearchAdapter.answers
  by_cases h : p * k ≤ w
  · rw [resolveWindow_ok hpage hsize hp hk hw hwindow h]
    exact iff_of_true rfl h
  · obtain ⟨message, hrefused⟩ :=
      @resolveWindow_refuses String _ _ _ _ _ _ hpage hsize hp hk hw hwindow (not_le.mp h)
    rw [hrefused]
    exact iff_of_false Bool.false_ne_true h

/-- **Advertised pages.** One that a response advertises is answered exactly when it ends within the
result window. So all of them are exactly when a page fits into the window and the whole pages that do
hold every match. -/
theorem advertised_pages {env : Env} (henv : env.Accepted) {dto : SearchQueryDto} (hdto : dto.Valid)
    (hlimit : assertPageSizeWithinLimit (buildConfig env).search dto.pageSize = .ok ()) {total : ℕ}
    (htotal : Number.lt env.SEARCH_MAX_RESULT_WINDOW (.ofRat total) = false) :
    let criteria := toSearchCriteria dto (buildConfig env).search
    let adapter := SearchAdapter.of (buildConfig env)
    ∃ pageSize window : ℕ, criteria.pageSize.value? = some (pageSize : ℚ) ∧
      env.SEARCH_MAX_RESULT_WINDOW.value? = some (window : ℚ) ∧
      ∀ outcome : SearchOutcome, outcome.total = .ofRat total →
        (∀ page, (toSearchResponseDto outcome criteria).advertises page →
          (adapter.answers (.ofRat page) criteria.pageSize ↔ page * pageSize ≤ window)) ∧
        ((∀ page, (toSearchResponseDto outcome criteria).advertises page →
            adapter.answers (.ofRat page) criteria.pageSize) ↔
          pageSize ≤ window ∧ total ≤ window / pageSize * pageSize) := by
  intro criteria adapter
  obtain ⟨k, hk, hpos, hk'⟩ := exists_nat_pageSize henv hdto hlimit
  obtain ⟨w, hwindow, hwpos, hw⟩ := exists_nat_of_isPositiveInt henv.maxResultWindow
  have hle : total ≤ w := by
    rw [hwindow, Number.lt_natCast hw, decide_eq_false_iff_not] at htotal
    exact not_lt.mp htotal
  refine ⟨k, w, ?_, ?_, fun outcome houtcome => ?_⟩
  · rw [hk, Number.value?_natCast hk']
  · rw [hwindow, Number.value?_natCast hw]
  obtain ⟨size, hsize, hvalue⟩ := Number.exists_double_natCast hk'
  have hpages : (toSearchResponseDto outcome criteria).meta_.totalPages = .ofRat (pagesFor total k : ℕ) :=
    totalPages_eq houtcome (by omega) (hk.trans hsize) hvalue hpos
  have hcount : pagesFor total k ≤ total :=
    (pagesFor_le_iff hpos).mpr (Nat.le_mul_of_pos_left total hpos)
  have hadvertises : ∀ page, (toSearchResponseDto outcome criteria).advertises page ↔
      page = 1 ∨ 0 < page ∧ page ≤ pagesFor total k := by
    intro page
    unfold SearchResponseDto.advertises
    rw [hpages, Number.lt_natCast (by omega), decide_eq_false_iff_not, not_lt]
  have hanswers : ∀ page, (toSearchResponseDto outcome criteria).advertises page →
      (adapter.answers (.ofRat page) criteria.pageSize ↔ page * k ≤ w) := by
    intro page hpage
    have hpage' : 0 < page ∧ page < 2 ^ 53 := by
      rcases (hadvertises page).mp hpage with rfl | ⟨hp, hlast⟩
      · norm_num
      · omega
    obtain ⟨number, hnumber, hpagevalue⟩ := Number.exists_double_natCast hpage'.2
    show adapter.answers _ (toSearchCriteria dto (buildConfig env).search).pageSize ↔ _
    rw [hk, hsize, hnumber]
    exact answers_iff hpagevalue hvalue hpage'.1 hpos hw hwindow
  refine ⟨hanswers, fun hall => ?_, fun ⟨hfits, hholds⟩ page hpage => ?_⟩
  · have hfirst := (hanswers 1 (Or.inl rfl)).mp (hall 1 (Or.inl rfl))
    rw [Nat.one_mul] at hfirst
    refine ⟨hfirst, ?_⟩
    rw [Nat.mul_comm, ← pagesFor_le_iff hpos, Nat.le_div_iff_mul_le hpos]
    rcases Nat.eq_zero_or_pos (pagesFor total k) with hnone | hsome
    · rw [hnone, Nat.zero_mul]
      exact Nat.zero_le w
    · have hlast := (hadvertises _).mpr (Or.inr ⟨hsome, le_refl _⟩)
      exact (hanswers _ hlast).mp (hall _ hlast)
  · refine (hanswers page hpage).mpr ?_
    rcases (hadvertises page).mp hpage with rfl | ⟨-, hlast⟩
    · rwa [Nat.one_mul]
    · rw [Nat.mul_comm, ← pagesFor_le_iff hpos, Nat.le_div_iff_mul_le hpos] at hholds
      exact (Nat.mul_le_mul_right k hlast).trans hholds

/-- Thirty products a page. -/
def thirtyPerPage : SearchQueryDto where
  q := none
  category := none
  subcategory := none
  location := none
  minPrice := none
  maxPrice := none
  sort := none
  order := none
  page := none
  pageSize := some (.ofRat (30 : ℕ))

/-- As many matches as the default window holds. -/
def tenThousand : SearchOutcome where
  items := []
  total := .ofRat (10000 : ℕ)
  facets := { categories := [], subcategories := [], locations := [], priceRanges := [] }
  suggestions := { didYouMean := none, related := [] }

theorem thirtyPerPage_valid : thirtyPerPage.Valid where
  minPrice := nofun
  maxPrice := nofun
  page := nofun
  pageSize := by
    intro p hp
    cases hp
    decide +kernel

theorem thirtyPerPage_withinLimit :
    assertPageSizeWithinLimit (buildConfig (deployment 5)).search thirtyPerPage.pageSize = .ok () := by
  decide +kernel

theorem tenThousand_withinWindow :
    Number.lt (deployment 5).SEARCH_MAX_RESULT_WINDOW (.ofRat (10000 : ℕ)) = false := by
  decide +kernel

/-- The whole pages of ten thousand matches are answered. -/
theorem advertised_pages_whole :
    (SearchAdapter.of (buildConfig (deployment 5))).answers (.ofRat (333 : ℕ))
      (toSearchCriteria thirtyPerPage (buildConfig (deployment 5)).search).pageSize := by
  have haccepted : (deployment 5).Accepted := deployment_accepted (by norm_num)
  obtain ⟨pageSize, window, hsize, hwindow, hall⟩ := advertised_pages haccepted thirtyPerPage_valid
    thirtyPerPage_withinLimit tenThousand_withinWindow
  have hthirty : (Number.ofRat (30 : ℕ)).value? = some (pageSize : ℚ) := hsize
  have hdefault : (Number.ofRat (10000 : ℕ)).value? = some (window : ℚ) := hwindow
  rw [Number.value?_natCast (by norm_num), Option.some.injEq, Nat.cast_inj] at hthirty hdefault
  refine ((hall tenThousand rfl).1 333 (Or.inr ⟨by norm_num, by decide +kernel⟩)).mpr ?_
  rw [← hthirty, ← hdefault]
  norm_num

/-- The last page of ten thousand matches is advertised and refused. -/
theorem advertised_page_refused :
    ¬ ∀ (env : Env) (dto : SearchQueryDto) (total : ℕ) (outcome : SearchOutcome) (page : ℕ),
      env.Accepted → dto.Valid →
      assertPageSizeWithinLimit (buildConfig env).search dto.pageSize = .ok () →
      Number.lt env.SEARCH_MAX_RESULT_WINDOW (.ofRat total) = false → outcome.total = .ofRat total →
      (toSearchResponseDto outcome (toSearchCriteria dto (buildConfig env).search)).advertises page →
      (SearchAdapter.of (buildConfig env)).answers (.ofRat page)
        (toSearchCriteria dto (buildConfig env).search).pageSize := by
  intro h
  have hlast := h (deployment 5) thirtyPerPage 10000 tenThousand 334 (deployment_accepted (by norm_num))
    thirtyPerPage_valid thirtyPerPage_withinLimit tenThousand_withinWindow rfl
    (Or.inr ⟨by norm_num, by decide +kernel⟩)
  have hrefused : ((SearchAdapter.of (buildConfig (deployment 5))).resolveWindow (.ofRat (334 : ℕ))
      (.ofRat (30 : ℕ)) : Except (SearchError String) (Number × Number)).isOk = false := by
    decide +kernel
  exact absurd (hlast.symm.trans hrefused) (by decide)

end AdvancedSearch
