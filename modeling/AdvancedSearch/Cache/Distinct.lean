import AdvancedSearch.Cache.Key
import AdvancedSearch.Lib.JsonOrder
import AdvancedSearch.Search.Pages

/-!
# What the key distinguishes

Searches are normalised to one text exactly when their bodies differ at most in the order of
subcategories (`normalize_eq_iff`). Sorting the values of the clauses on subcategories makes such bodies
equal, and what is normalised can be read off a sorted body.
-/

namespace AdvancedSearch

open Js

/-! ## Sorted texts -/

/-- Texts in the order of `Array.prototype.sort`. -/
def sortTexts (texts : List String) : List String := texts.insertionSort fun a b => stringLe a b

/-! ## Sorted bodies -/

/-- The values of a clause on subcategories sorted. -/
def sortClause (json : Json) : Json :=
  match json with
  | .object [(kind, .object [(name, .array values)])] =>
    if kind = "terms" ∧ name = "subcategories" then
      subcategoriesClause (sortTexts (values.filterMap Json.text?))
    else json
  | _ => json

/-- The subcategories sorted. -/
def SearchFilters.sorted (filters : SearchFilters) : SearchFilters :=
  { filters with subcategories := some (sortTexts (filters.subcategories.getD [])) }

def SearchCriteria.sorted (criteria : SearchCriteria) : SearchCriteria :=
  { criteria with filters := criteria.filters.sorted }

theorem rewrite_toJson (f : Json → Json) (x : Number) : Json.rewrite f (toJson x) = toJson x := by
  cases x <;> rfl

theorem rewrite_ofStrings (f : Json → Json) (texts : List String) :
    Json.rewrite f (ofStrings texts) = ofStrings texts := by
  refine congrArg Json.array ?_
  induction texts with
  | nil => rfl
  | cons text texts ih => exact congrArg (Json.string text :: ·) ih

theorem rewrite_subcategoriesClause (values : List String) :
    Json.rewrite sortClause (subcategoriesClause values) = subcategoriesClause (sortTexts values) := by
  have htexts : (values.map Json.string).filterMap Json.text? = values := by
    rw [List.filterMap_map]
    exact List.filterMap_some
  unfold subcategoriesClause
  simp only [Json.rewrite, Json.rewriteFields, rewrite_ofStrings]
  show subcategoriesClause (sortTexts ((values.map Json.string).filterMap Json.text?)) = _
  rw [htexts]
  rfl

/-- Sorting makes reordered bodies equal. -/
theorem rewrite_eq_of_reordered {a b : Json} (h : Reordered a b) :
    Json.rewrite sortClause a = Json.rewrite sortClause b := by
  refine Json.rewrite_eq_of_closure ?_ h
  rintro _ _ ⟨xs, ys, hperm, rfl, rfl⟩
  rw [rewrite_subcategoriesClause, rewrite_subcategoriesClause]
  exact congrArg subcategoriesClause
    (insertionSort_eq_of_perm hperm fun _ _ _ _ hab hba => stringLe_antisymm hab hba)

theorem rewriteItems_ite (p : Prop) [Decidable p] (clause : Json) :
    Json.rewriteItems sortClause (if p then [clause] else []) =
      if p then [Json.rewrite sortClause clause] else [] := by
  split_ifs <;> rfl

theorem rewriteItems_buildPriceRange (min max : Option Number) (p : Prop) [Decidable p] :
    Json.rewriteItems sortClause (if p then (buildPriceRange min max).toList else []) =
      if p then (buildPriceRange min max).toList else [] := by
  split_ifs
  · rcases min with _ | _ | _ | _ <;> rcases max with _ | _ | _ | _ <;> rfl
  · rfl

theorem sortTexts_eq_nil {texts : List String} : sortTexts texts = [] ↔ texts = [] := by
  unfold sortTexts
  rw [← List.length_eq_zero_iff, List.length_insertionSort, List.length_eq_zero_iff]

/-- Sorted clauses are the clauses of the sorted selection. -/
theorem rewriteItems_buildFilterClauses (filters : SearchFilters) (exclude : Option FacetDimension) :
    Json.rewriteItems sortClause (buildFilterClauses filters exclude) =
      buildFilterClauses filters.sorted exclude := by
  rw [buildFilterClauses_eq, buildFilterClauses_eq]
  simp only [Json.rewriteItems_append]
  rw [rewriteItems_ite, rewriteItems_ite, rewriteItems_ite, rewriteItems_buildPriceRange,
    rewrite_subcategoriesClause]
  have hempty : filters.subcategories.getD [] ≠ [] ↔ filters.sorted.subcategories.getD [] ≠ [] :=
    not_congr sortTexts_eq_nil.symm
  simp only [hempty]
  rfl

theorem rewrite_filter (filters : SearchFilters) (exclude : Option FacetDimension) :
    Json.rewrite sortClause (.object [("bool", .object
        [("filter", .array (buildFilterClauses filters exclude))])]) =
      .object [("bool", .object [("filter", .array (buildFilterClauses filters.sorted exclude))])] := by
  rw [← rewriteItems_buildFilterClauses]
  rfl

theorem rewrite_facet (filters : SearchFilters) (dimension : FacetDimension) {values : Json}
    (h : Json.rewrite sortClause values = values)
    (hvalues : sortClause (.object [("values", values)]) = .object [("values", values)]) :
    Json.rewrite sortClause (facet filters dimension values) = facet filters.sorted dimension values := by
  unfold facet
  rw [← rewriteItems_buildFilterClauses]
  simp only [Json.rewrite, Json.rewriteFields]
  rw [h, hvalues]
  rfl

theorem sortClause_cons_cons (f g : String × Json) (fields : Fields) :
    sortClause (.object (f :: g :: fields)) = .object (f :: g :: fields) := by
  unfold sortClause
  split
  · rename_i heq
    cases heq
  · rfl

theorem sortClause_single (kind : String) (f g : String × Json) (fields : Fields) :
    sortClause (.object [(kind, .object (f :: g :: fields))]) =
      .object [(kind, .object (f :: g :: fields))] := by
  unfold sortClause
  split
  · rename_i heq
    cases heq
  · rfl

theorem rewrite_buildFacetAggregations (filters : SearchFilters) :
    Json.rewrite sortClause (buildFacetAggregations filters) =
      buildFacetAggregations filters.sorted := by
  have hterms (dimension : FacetDimension) (name : String) :
      Json.rewrite sortClause (termsFacet filters dimension name) =
        termsFacet filters.sorted dimension name := rewrite_facet filters dimension rfl rfl
  have hprice : Json.rewrite sortClause (priceFacet filters) = priceFacet filters.sorted :=
    rewrite_facet filters .price rfl rfl
  unfold buildFacetAggregations
  simp only [Json.rewrite, Json.rewriteFields]
  rw [hterms, hterms, hterms, hprice, sortClause_cons_cons]

theorem rewrite_buildTextQuery (query : Option String) (relevance : RelevanceConfig) :
    Json.rewrite sortClause (buildTextQuery query relevance) = buildTextQuery query relevance := by
  unfold buildTextQuery
  cases query with
  | none =>
    simp only [Json.rewrite, Json.rewriteFields, Json.rewriteItems, rewrite_toJson, sortClause_cons_cons,
      sortClause_single]
    rfl
  | some text =>
    dsimp only
    split_ifs
    · simp only [Json.rewrite, Json.rewriteFields, Json.rewriteItems, rewrite_toJson,
        sortClause_cons_cons, sortClause_single]
      rfl
    · simp only [Json.rewrite, Json.rewriteFields, Json.rewriteItems, rewrite_toJson,
        sortClause_cons_cons, sortClause_single, rewrite_ofStrings]
      rfl

theorem rewrite_buildSort (sort : SortField) (order : SortOrder) :
    Json.rewrite sortClause (buildSort sort order) = buildSort sort order := by
  cases sort <;> rfl

theorem rewriteFields_postFilterField (filters : SearchFilters) :
    Json.rewriteFields sortClause (postFilterField filters) = postFilterField filters.sorted := by
  have hclauses := rewriteItems_buildFilterClauses filters none
  have hempty : buildFilterClauses filters none ≠ [] ↔ buildFilterClauses filters.sorted none ≠ [] := by
    rw [← hclauses]
    cases buildFilterClauses filters none with
    | nil => exact Iff.rfl
    | cons clause clauses => exact iff_of_true (List.cons_ne_nil _ _) (List.cons_ne_nil _ _)
  unfold postFilterField
  by_cases h : buildFilterClauses filters none ≠ []
  · rw [if_pos h, if_pos (hempty.mp h), ← rewrite_filter]
    rfl
  · rw [if_neg h, if_neg (mt hempty.mpr h)]
    rfl

/-- A sorted body is the body of the sorted criteria. -/
theorem rewrite_buildSearchRequest (criteria : SearchCriteria) (relevance : RelevanceConfig)
    (from_ size : Number) :
    Json.rewrite sortClause (buildSearchRequest criteria relevance from_ size) =
      buildSearchRequest criteria.sorted relevance from_ size := by
  have hsuggest : Json.rewriteFields sortClause (suggestField criteria.query) =
      suggestField criteria.query := by
    rcases suggestField_cases criteria.query with h | h <;> rw [h] <;> rfl
  rw [buildSearchRequest_eq, buildSearchRequest_eq]
  simp only [Json.rewrite, Json.rewriteFields_append, rewriteFields_postFilterField, hsuggest,
    Json.rewriteFields, rewrite_toJson, rewrite_buildTextQuery, rewrite_buildFacetAggregations,
    rewrite_buildSort]
  exact sortClause_cons_cons _ _ _

/-! ## What a body says -/

/-- The text of a query. -/
def queryText (json : Json) : String :=
  ((((json.get "function_score").bind (·.get "query")).bind (·.get "multi_match")).bind
    (·.get "query")).bind Json.text? |>.getD ""

theorem queryText_buildTextQuery (query : Option String) (relevance : RelevanceConfig) :
    queryText (buildTextQuery query relevance) = query.getD "" := by
  cases query with
  | none => rfl
  | some text =>
    unfold buildTextQuery
    dsimp only
    split_ifs with h
    · exact h.symm
    · rfl

theorem buildSort_injective {s₁ s₂ : SortField} {o₁ o₂ : SortOrder}
    (h : buildSort s₁ o₁ = buildSort s₂ o₂) : s₁ = s₂ ∧ o₁ = o₂ := by
  cases s₁ <;> cases s₂ <;> cases o₁ <;> cases o₂ <;>
    first | exact ⟨rfl, rfl⟩ | simp [buildSort, SortOrder.text] at h

/-- The clauses of the hits. -/
def postClauses (body : Json) : List Json :=
  (((body.get "post_filter").bind (·.get "bool")).bind (·.get "filter")).map Json.items |>.getD []

theorem postClauses_buildSearchRequest (criteria : SearchCriteria) (relevance : RelevanceConfig)
    (from_ size : Number) :
    postClauses (buildSearchRequest criteria relevance from_ size) =
      buildFilterClauses criteria.filters none := by
  unfold postClauses
  rw [get_post_filter]
  split_ifs with h
  · rfl
  · exact (not_not.mp h).symm

/-- What a clause of a kind says on a field. -/
def clauseOn (kind name : String) (clause : Json) : Option Json := (clause.get kind).bind (·.get name)

/-- What the clauses of a kind say on a field. -/
def clausesOn (kind name : String) (clauses : List Json) : Option Json :=
  clauses.findSome? (clauseOn kind name)

theorem clausesOn_append (kind name : String) (before after : List Json) :
    clausesOn kind name (before ++ after) =
      (clausesOn kind name before).or (clausesOn kind name after) := List.findSome?_append

theorem clausesOn_ite (kind name : String) (p : Prop) [Decidable p] (clause : Json) :
    clausesOn kind name (if p then [clause] else []) =
      if p then clauseOn kind name clause else none := by
  split_ifs
  · exact List.findSome?_singleton
  · rfl

theorem clausesOn_toList (kind name : String) (p : Prop) [Decidable p] (clause : Option Json) :
    clausesOn kind name (if p then clause.toList else []) =
      if p then clause.bind (clauseOn kind name) else none := by
  split_ifs
  · cases clause with
    | none => rfl
    | some clause => exact List.findSome?_singleton
  · rfl

theorem clausesOn_buildFilterClauses (kind name : String) (filters : SearchFilters) :
    clausesOn kind name (buildFilterClauses filters none) =
      (((if filters.category.getD "" ≠ "" then clauseOn kind name (.object [("term", .object
          [("category", .object [("value", .string (filters.category.getD ""))])])]) else none).or
        (if filters.subcategories.getD [] ≠ [] then
          clauseOn kind name (subcategoriesClause (filters.subcategories.getD [])) else none)).or
        (if filters.location.getD "" ≠ "" then clauseOn kind name (.object [("term", .object
          [("location", .object [("value", .string (filters.location.getD ""))])])]) else none)).or
        ((buildPriceRange filters.minPrice filters.maxPrice).bind (clauseOn kind name)) := by
  rw [buildFilterClauses_eq, clausesOn_append, clausesOn_append, clausesOn_append, clausesOn_ite,
    clausesOn_ite, clausesOn_ite, clausesOn_toList]
  simp only [ne_eq, reduceCtorEq, not_false_eq_true, if_true, true_and]

section

variable (filters : SearchFilters)

theorem rangeClause_says_nothing {kind name : String} (h : kind ≠ "range") (min max : Option Number) :
    (buildPriceRange min max).bind (clauseOn kind name) = none := by
  unfold buildPriceRange
  split_ifs
  · rfl
  · show (Option.bind (field [("range", _)] kind) _) = none
    unfold field
    rw [List.lookup_cons, beq_eq_false_iff_ne.mpr h]
    rfl

theorem category_of_clauses :
    (((clausesOn "term" "category" (buildFilterClauses filters none)).bind (·.get "value")).bind
      Json.text?).getD "" = filters.category.getD "" := by
  rw [clausesOn_buildFilterClauses, rangeClause_says_nothing (by decide)]
  show Option.getD (((((if _ then some (Json.object [("value", .string _)]) else none).or
    (if _ then none else none)).or (if _ then none else none)).or none).bind _ |>.bind _) "" = _
  rw [ite_self, ite_self, Option.or_none, Option.or_none, Option.or_none]
  split_ifs with h
  · rfl
  · exact (not_not.mp h).symm

theorem location_of_clauses :
    (((clausesOn "term" "location" (buildFilterClauses filters none)).bind (·.get "value")).bind
      Json.text?).getD "" = filters.location.getD "" := by
  rw [clausesOn_buildFilterClauses, rangeClause_says_nothing (by decide)]
  show Option.getD (((((if _ then none else none).or (if _ then none else none)).or
    (if _ then some (Json.object [("value", .string _)]) else none)).or none).bind _ |>.bind _) "" = _
  rw [ite_self, ite_self, Option.none_or, Option.none_or, Option.or_none]
  split_ifs with h
  · rfl
  · exact (not_not.mp h).symm

theorem subcategories_of_clauses :
    (clausesOn "terms" "subcategories" (buildFilterClauses filters none)).getD (ofStrings []) =
      ofStrings (filters.subcategories.getD []) := by
  rw [clausesOn_buildFilterClauses, rangeClause_says_nothing (by decide)]
  show ((((if _ then none else none).or (if _ then some (ofStrings _) else none)).or
    (if _ then none else none)).or none).getD _ = _
  rw [ite_self, ite_self, Option.none_or, Option.or_none, Option.or_none]
  split_ifs with h
  · rfl
  · rw [not_not.mp h]
    rfl

theorem prices_of_clauses :
    (clausesOn "range" "price" (buildFilterClauses filters none)).bind (·.get "gte") =
        filters.minPrice.map toJson ∧
      (clausesOn "range" "price" (buildFilterClauses filters none)).bind (·.get "lte") =
        filters.maxPrice.map toJson := by
  rw [clausesOn_buildFilterClauses]
  show ((((if _ then none else none).or (if _ then none else none)).or
    (if _ then none else none)).or _).bind _ = _ ∧ ((((if _ then none else none).or
      (if _ then none else none)).or (if _ then none else none)).or _).bind _ = _
  rw [ite_self, ite_self, ite_self, Option.none_or, Option.none_or, Option.none_or]
  cases filters.minPrice <;> cases filters.maxPrice <;> exact ⟨rfl, rfl⟩

end

/-- One list of clauses, one selection: absent or empty alike, the subcategories sorted. -/
theorem selection_of_clauses {filters₁ filters₂ : SearchFilters}
    (h : buildFilterClauses filters₁.sorted none = buildFilterClauses filters₂.sorted none) :
    filters₁.category.getD "" = filters₂.category.getD "" ∧
      ofStrings (sortTexts (filters₁.subcategories.getD [])) =
        ofStrings (sortTexts (filters₂.subcategories.getD [])) ∧
      filters₁.location.getD "" = filters₂.location.getD "" ∧
      filters₁.minPrice.map toJson = filters₂.minPrice.map toJson ∧
      filters₁.maxPrice.map toJson = filters₂.maxPrice.map toJson := by
  have hcategory := category_of_clauses filters₁.sorted
  have hsubcategories := subcategories_of_clauses filters₁.sorted
  have hlocation := location_of_clauses filters₁.sorted
  have hprices := prices_of_clauses filters₁.sorted
  rw [h] at hcategory hsubcategories hlocation hprices
  exact ⟨hcategory.symm.trans (category_of_clauses filters₂.sorted),
    hsubcategories.symm.trans (subcategories_of_clauses filters₂.sorted),
    hlocation.symm.trans (location_of_clauses filters₂.sorted),
    hprices.1.symm.trans (prices_of_clauses filters₂.sorted).1,
    hprices.2.symm.trans (prices_of_clauses filters₂.sorted).2⟩

/-! ## Criteria and their bodies -/

/-- Criteria as a request makes them. -/
structure SearchCriteria.Valid (criteria : SearchCriteria) : Prop where
  minPrice : ∀ p ∈ criteria.filters.minPrice, p.isFinite ∧ p.isNegative = false
  maxPrice : ∀ p ∈ criteria.filters.maxPrice, p.isFinite ∧ p.isNegative = false
  page : criteria.page.isInteger ∧ Number.lt criteria.page (.ofRat 1) = false
  pageSize : criteria.pageSize.isInteger ∧ Number.lt criteria.pageSize (.ofRat 1) = false

theorem SearchCriteria.Valid.finite {criteria : SearchCriteria} (h : criteria.Valid) :
    criteria.Finite where
  minPrice p hp := (h.minPrice p hp).1
  maxPrice p hp := (h.maxPrice p hp).1
  page := isFinite_of_isInteger h.page.1
  pageSize := isFinite_of_isInteger h.pageSize.1

theorem normalize_eq (criteria : SearchCriteria) : normalize criteria = .object
    [("q", .string (criteria.query.getD "")),
      ("category", .string (criteria.filters.category.getD "")),
      ("subcategories", ofStrings (sortTexts (criteria.filters.subcategories.getD []))),
      ("location", .string (criteria.filters.location.getD "")),
      ("minPrice", (criteria.filters.minPrice.map toJson).getD .null),
      ("maxPrice", (criteria.filters.maxPrice.map toJson).getD .null),
      ("sort", .string criteria.sort.text),
      ("order", .string criteria.order.text),
      ("page", toJson criteria.page),
      ("pageSize", toJson criteria.pageSize)] := by
  have hprice (price : Option Number) : priceJson price = (price.map toJson).getD .null := by
    cases price <;> rfl
  rw [← hprice, ← hprice]
  rfl

theorem natCast_toJson_inj {m n : ℕ} (hm : m < 2 ^ 53) (hn : n < 2 ^ 53)
    (h : toJson (.ofRat m) = toJson (.ofRat n)) : m = n := by
  obtain ⟨x, hx, -⟩ := Number.exists_double_natCast hm
  exact Number.natCast_inj hm hn (toJson_inj (by rw [hx]; rfl) h)

/-- An accepted window tells the page and its size. -/
theorem page_of_window {ε : Type} {env : Env} (henv : env.Accepted) {criteria : SearchCriteria}
    (h : criteria.Valid) {from_ size : Number}
    (hwindow : (SearchAdapter.of (buildConfig env)).resolveWindow criteria.page criteria.pageSize =
      (.ok (from_, size) : Except (SearchError ε) (Number × Number))) :
    ∃ p k : ℕ, criteria.page = .ofRat p ∧ criteria.pageSize = .ofRat k ∧ 0 < p ∧ 0 < k ∧
      (p - 1) * k < 2 ^ 53 ∧ k < 2 ^ 53 ∧ from_ = .ofRat ((p - 1) * k : ℕ) ∧ size = .ofRat k := by
  obtain ⟨page, p, hpage, hp, hpos⟩ := exists_nat_of_isInteger h.page.1 h.page.2
  obtain ⟨pageSize, k, hsize, hk, hkpos⟩ := exists_nat_of_isInteger h.pageSize.1 h.pageSize.2
  obtain ⟨w, hwindowSize, -, hsafe⟩ := exists_nat_of_isPositiveInt henv.maxResultWindow
  have hw : (SearchAdapter.of (buildConfig env)).maxResultWindow = .ofRat w := hwindowSize
  rw [hpage, hsize] at hwindow
  by_cases hfit : p * k ≤ w
  · rw [resolveWindow_ok hp hk hpos hkpos hsafe hw hfit] at hwindow
    obtain ⟨rfl, rfl⟩ : Number.ofRat ((p - 1) * k : ℕ) = from_ ∧ Number.finite pageSize = size := by
      injection hwindow with hpair
      exact Prod.mk.injEq _ _ _ _ ▸ hpair
    have hoffset : (p - 1) * k ≤ p * k := Nat.mul_le_mul_right k (Nat.sub_le p 1)
    have hk' : k ≤ p * k := Nat.le_mul_of_pos_left k hpos
    refine ⟨p, k, ?_, ?_, hpos, hkpos, by omega, by omega, rfl, ?_⟩
    · rw [hpage, ← hp, Number.ofRat_value]
    · rw [hsize, ← hk, Number.ofRat_value]
    · rw [← hk, Number.ofRat_value]
  · obtain ⟨message, hrefused⟩ :=
      @resolveWindow_refuses ε _ _ _ _ _ _ hp hk hpos hkpos hsafe hw (not_le.mp hfit)
    rw [hrefused] at hwindow
    cases hwindow

/-- **What the key distinguishes.** Valid criteria are normalised to one text exactly when their bodies
are equal up to the order of the values of clauses on subcategories. -/
theorem normalize_eq_iff {ε : Type} {env : Env} (henv : env.Accepted) {c₁ c₂ : SearchCriteria}
    (h₁ : c₁.Valid) (h₂ : c₂.Valid) {from₁ size₁ from₂ size₂ : Number}
    (hwindow₁ : (SearchAdapter.of (buildConfig env)).resolveWindow c₁.page c₁.pageSize =
      (.ok (from₁, size₁) : Except (SearchError ε) (Number × Number)))
    (hwindow₂ : (SearchAdapter.of (buildConfig env)).resolveWindow c₂.page c₂.pageSize =
      (.ok (from₂, size₂) : Except (SearchError ε) (Number × Number)))
    (relevance : RelevanceConfig) :
    (normalize c₁).stringify = (normalize c₂).stringify ↔
      Reordered (buildSearchRequest c₁ relevance from₁ size₁)
        (buildSearchRequest c₂ relevance from₂ size₂) := by
  constructor
  · intro h
    have halike := alike_of_normalize_eq h₁.finite h₂.finite h
    rw [halike.page, halike.pageSize, hwindow₂] at hwindow₁
    cases hwindow₁
    exact buildSearchRequest_alike halike relevance from₁ size₁
  · intro h
    obtain ⟨p₁, k₁, hpage₁, hsize₁, hp₁, hk₁, hsafe₁, hksafe₁, rfl, rfl⟩ :=
      page_of_window henv h₁ hwindow₁
    obtain ⟨p₂, k₂, hpage₂, hsize₂, hp₂, hk₂, hsafe₂, hksafe₂, rfl, rfl⟩ :=
      page_of_window henv h₂ hwindow₂
    have hbodies := rewrite_eq_of_reordered h
    rw [rewrite_buildSearchRequest, rewrite_buildSearchRequest] at hbodies
    have hfrom := congrArg (Json.get · "from") hbodies
    have hsize := congrArg (Json.get · "size") hbodies
    have hquery := congrArg (Json.get · "query") hbodies
    have hsort := congrArg (Json.get · "sort") hbodies
    have hclauses := congrArg postClauses hbodies
    rw [get_from, get_from, Option.some.injEq] at hfrom
    rw [get_size, get_size, Option.some.injEq] at hsize
    rw [get_query, get_query, Option.some.injEq] at hquery
    rw [get_sort, get_sort, Option.some.injEq] at hsort
    rw [postClauses_buildSearchRequest, postClauses_buildSearchRequest] at hclauses
    -- the size gives the page size back, and then the offset gives the page
    have hk : k₁ = k₂ := natCast_toJson_inj hksafe₁ hksafe₂ hsize
    subst hk
    have hp : p₁ = p₂ := by
      have hoffset := Nat.eq_of_mul_eq_mul_right hk₁ (natCast_toJson_inj hsafe₁ hsafe₂ hfrom)
      omega
    subst hp
    have htext : c₁.query.getD "" = c₂.query.getD "" := by
      have htext := congrArg queryText hquery
      rwa [queryText_buildTextQuery, queryText_buildTextQuery] at htext
    obtain ⟨hfield, horder⟩ : c₁.sort = c₂.sort ∧ c₁.order = c₂.order := buildSort_injective hsort
    obtain ⟨hcategory, hsubcategories, hlocation, hmin, hmax⟩ := selection_of_clauses hclauses
    refine congrArg Json.stringify ?_
    rw [normalize_eq, normalize_eq, htext, hcategory, hsubcategories, hlocation, hmin, hmax, hfield,
      horder, hpage₁, hpage₂, hsize₁, hsize₂]

/-- A search of two subcategories. -/
def selecting (subcategories : List String) : SearchCriteria :=
  { browse 20 with filters := { (browse 20).filters with subcategories := some subcategories } }

theorem selecting_valid (subcategories : List String) : (selecting subcategories).Valid where
  minPrice := nofun
  maxPrice := nofun
  page :=
    show (Number.ofRat (1 : ℕ)).isInteger ∧ Number.lt (.ofRat (1 : ℕ)) (.ofRat 1) = false by
      decide +kernel
  pageSize :=
    show (Number.ofRat (20 : ℕ)).isInteger ∧ Number.lt (.ofRat (20 : ℕ)) (.ofRat 1) = false by
      decide +kernel

/-- Two subcategories the other way round. -/
theorem normalize_eq_iff_swapped :
    (normalize (selecting ["saws", "drills"])).stringify =
        (normalize (selecting ["drills", "saws"])).stringify ↔
      Reordered
        (buildSearchRequest (selecting ["saws", "drills"]) defaultRelevance (.ofRat 0) (.ofRat (20 : ℕ)))
        (buildSearchRequest (selecting ["drills", "saws"]) defaultRelevance (.ofRat 0) (.ofRat (20 : ℕ))) := by
  have hwindow : (SearchAdapter.of (buildConfig (deployment 5))).resolveWindow (.ofRat (1 : ℕ))
      (.ofRat (20 : ℕ)) =
        (.ok (.ofRat 0, .ofRat (20 : ℕ)) : Except (SearchError String) (Number × Number)) := by
    decide +kernel
  have haccepted : (deployment 5).Accepted := deployment_accepted (by norm_num)
  exact normalize_eq_iff haccepted (selecting_valid _) (selecting_valid _) hwindow hwindow
    defaultRelevance

end AdvancedSearch
