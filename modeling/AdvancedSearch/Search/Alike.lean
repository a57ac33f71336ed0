import AdvancedSearch.Lib.JsonClosure
import AdvancedSearch.Search.Adapter

/-!
# Criteria that ask for the same

Criteria may differ in what is absent and what is empty, and in the order of their subcategories. Their
bodies then differ at most in the order of the values of `terms` clauses on subcategories
(`buildSearchRequest_alike`), and what the answers become is the same (`SearchAdapter.search_alike`).
-/

namespace AdvancedSearch

open Js

/-- Criteria that differ in what is absent or empty, and in the order of subcategories. -/
structure SearchCriteria.Alike (c₁ c₂ : SearchCriteria) : Prop where
  query : c₁.query.getD "" = c₂.query.getD ""
  category : c₁.filters.category.getD "" = c₂.filters.category.getD ""
  subcategories :
    (c₁.filters.subcategories.getD []).Perm (c₂.filters.subcategories.getD [])
  location : c₁.filters.location.getD "" = c₂.filters.location.getD ""
  minPrice : c₁.filters.minPrice = c₂.filters.minPrice
  maxPrice : c₁.filters.maxPrice = c₂.filters.maxPrice
  sort : c₁.sort = c₂.sort
  order : c₁.order = c₂.order
  page : c₁.page = c₂.page
  pageSize : c₁.pageSize = c₂.pageSize

/-! ## Bodies -/

/-- The clause on subcategories. -/
def subcategoriesClause (subcategories : List String) : Json :=
  .object [("terms", .object [("subcategories", ofStrings subcategories)])]

/-- The values of one clause on subcategories in another order. -/
def SubcategoriesReordered (a b : Json) : Prop :=
  ∃ xs ys : List String, xs.Perm ys ∧ a = subcategoriesClause xs ∧ b = subcategoriesClause ys

/-- Bodies up to the order of values in clauses on subcategories. -/
abbrev Reordered : Json → Json → Prop := Json.Closure SubcategoriesReordered

/-- A missing selection is an empty one. -/
theorem buildFilterClauses_eq (filters : SearchFilters) (exclude : Option FacetDimension) :
    buildFilterClauses filters exclude =
      (if exclude ≠ some .category ∧ filters.category.getD "" ≠ "" then
        [.object [("term", .object
          [("category", .object [("value", .string (filters.category.getD ""))])])]]
      else []) ++
      (if exclude ≠ some .subcategories ∧ filters.subcategories.getD [] ≠ [] then
        [subcategoriesClause (filters.subcategories.getD [])]
      else []) ++
      (if exclude ≠ some .location ∧ filters.location.getD "" ≠ "" then
        [.object [("term", .object
          [("location", .object [("value", .string (filters.location.getD ""))])])]]
      else []) ++
      (if exclude ≠ some .price then
        (buildPriceRange filters.minPrice filters.maxPrice).toList
      else []) := by
  unfold buildFilterClauses subcategoriesClause
  cases filters.category <;> cases filters.subcategories <;> cases filters.location <;> simp

instance : Std.Refl Reordered := ⟨.refl⟩

theorem subcategoriesClause_reordered {xs ys : List String} (h : xs.Perm ys) (p : Prop) [Decidable p] :
    List.Forall₂ Reordered (if p ∧ xs ≠ [] then [subcategoriesClause xs] else [])
      (if p ∧ ys ≠ [] then [subcategoriesClause ys] else []) := by
  have hempty : xs ≠ [] ↔ ys ≠ [] := by
    rw [← List.length_pos_iff, ← List.length_pos_iff, h.length_eq]
  by_cases hp : p ∧ xs ≠ []
  · rw [if_pos hp, if_pos ⟨hp.1, hempty.mp hp.2⟩]
    exact .cons (.base ⟨xs, ys, h, rfl, rfl⟩) .nil
  · rw [if_neg hp, if_neg fun hq => hp ⟨hq.1, hempty.mpr hq.2⟩]
    exact .nil

section

variable {c₁ c₂ : SearchCriteria} (h : c₁.Alike c₂)

include h

theorem buildFilterClauses_alike (exclude : Option FacetDimension) :
    List.Forall₂ Reordered (buildFilterClauses c₁.filters exclude)
      (buildFilterClauses c₂.filters exclude) := by
  rw [buildFilterClauses_eq, buildFilterClauses_eq, h.category, h.location, h.minPrice, h.maxPrice]
  exact List.rel_append (List.rel_append (List.rel_append (List.forall₂_refl _)
    (subcategoriesClause_reordered h.subcategories _)) (List.forall₂_refl _)) (List.forall₂_refl _)

theorem facet_alike (dimension : FacetDimension) (values : Json) :
    Reordered (facet c₁.filters dimension values) (facet c₂.filters dimension values) := by
  have hclauses := Json.Closure.array (buildFilterClauses_alike h (some dimension))
  have hbool := Json.Closure.object (.single "filter" hclauses)
  have hfilter := Json.Closure.object (.single "bool" hbool)
  exact .object (.cons "filter" hfilter (.refl [("aggs", .object [("values", values)])]))

theorem buildFacetAggregations_alike :
    Reordered (buildFacetAggregations c₁.filters) (buildFacetAggregations c₂.filters) :=
  .object (.cons _ (facet_alike h _ _) (.cons _ (facet_alike h _ _)
    (.cons _ (facet_alike h _ _) (.single _ (facet_alike h _ _)))))

omit h in
/-- An empty query asks for the same as none. -/
theorem buildTextQuery_congr {q₁ q₂ : Option String} (hq : q₁.getD "" = q₂.getD "")
    (relevance : RelevanceConfig) : buildTextQuery q₁ relevance = buildTextQuery q₂ relevance := by
  unfold buildTextQuery
  cases q₁ <;> cases q₂ <;> simp_all

/-- **Criteria that ask for the same send the same body**, up to the order of subcategories. -/
theorem buildSearchRequest_alike (relevance : RelevanceConfig) (from_ size : Number) :
    Reordered (buildSearchRequest c₁ relevance from_ size)
      (buildSearchRequest c₂ relevance from_ size) := by
  have hclauses := buildFilterClauses_alike h none
  have hempty : buildFilterClauses c₁.filters none ≠ [] ↔ buildFilterClauses c₂.filters none ≠ [] := by
    rw [← List.length_pos_iff, ← List.length_pos_iff, hclauses.length_eq]
  unfold buildSearchRequest
  rw [buildTextQuery_congr h.query, h.sort, h.order]
  refine .object (.append (.append (.append (.append (.refl _) ?_)
    (.single _ (buildFacetAggregations_alike h))) ?_) (.refl _))
  · by_cases hfilters : buildFilterClauses c₁.filters none ≠ []
    · rw [if_pos hfilters, if_pos (hempty.mp hfilters)]
      have hbool := Json.Closure.object (.single "filter" (.array hclauses))
      exact .single "post_filter" (.object (.single "bool" hbool))
    · rw [if_neg hfilters, if_neg fun hfilters' => hfilters (hempty.mpr hfilters')]
      exact .refl []
  · have hquery := h.query
    refine .of_eq ?_
    cases hq₁ : c₁.query <;> cases hq₂ : c₂.query <;> rw [hq₁, hq₂] at hquery <;> simp_all

end

/-! ## Answers -/

namespace SearchAdapter

variable {ε : Type} (adapter : SearchAdapter)

/-- An answer is read with the query only to see whether there was one. -/
theorem toOutcome_congr {q₁ q₂ : Option String} (hq : q₁.getD "" = q₂.getD "")
    (response : SearchResponse) :
    (adapter.toOutcome q₁ response : Except (SearchError ε) SearchOutcome) =
      adapter.toOutcome q₂ response := by
  unfold toOutcome resolveSuggestions
  rw [hq]

/-- **Criteria that ask for the same are answered alike** by a client that does not look at the order
of subcategories. -/
theorem search_alike {client : SearchClient ε}
    (hclient : ∀ index b b', Reordered b b' → client index b.stringify = client index b'.stringify)
    {c₁ c₂ : SearchCriteria} (h : c₁.Alike c₂) :
    adapter.search client c₁ = adapter.search client c₂ := by
  unfold search
  rw [h.page, h.pageSize]
  cases adapter.resolveWindow c₂.page c₂.pageSize with
  | error e => rfl
  | ok window =>
    obtain ⟨from_, size⟩ := window
    simp only [bind, Except.bind]
    rw [hclient adapter.index _ _ (buildSearchRequest_alike h adapter.relevance from_ size)]
    cases client adapter.index (buildSearchRequest c₂ adapter.relevance from_ size).stringify with
    | error error => rfl
    | ok response => exact adapter.toOutcome_congr h.query response

end SearchAdapter

end AdvancedSearch
