import AdvancedSearch.Lib.Schema
import AdvancedSearch.Search.Criteria

/-!
# The search request

The request body as the builders assemble it: the text query with its scoring, the filters as
`post_filter`, the facet aggregations, each without the filter on its own dimension, the suggesters and
the sort.
-/

namespace AdvancedSearch

open Js

/-! ## Filters -/

/-- A facet dimension whose own filter is left out of its counts. -/
inductive FacetDimension where
  | category | subcategories | location | price
  deriving DecidableEq

def buildPriceRange (min max : Option Number) : Option Json :=
  if min = none ∧ max = none then none
  else
    some (.object [("range", .object [("price", .object
      ((match min with | some m => [("gte", toJson m)] | none => []) ++
        (match max with | some m => [("lte", toJson m)] | none => [])))])])

/-- The clauses of a selection; an empty text selects nothing. -/
def buildFilterClauses (filters : SearchFilters) (exclude : Option FacetDimension) : List Json :=
  (match filters.category with
    | some category =>
      if exclude ≠ some .category ∧ category ≠ "" then
        [.object [("term", .object [("category", .object [("value", .string category)])])]]
      else []
    | none => []) ++
  (match filters.subcategories with
    | some subcategories =>
      if exclude ≠ some .subcategories ∧ subcategories ≠ [] then
        [.object [("terms", .object [("subcategories", ofStrings subcategories)])]]
      else []
    | none => []) ++
  (match filters.location with
    | some location =>
      if exclude ≠ some .location ∧ location ≠ "" then
        [.object [("term", .object [("location", .object [("value", .string location)])])]]
      else []
    | none => []) ++
  (if exclude ≠ some .price then (buildPriceRange filters.minPrice filters.maxPrice).toList else [])

/-! ## Facets -/

def FACET_TERMS_SIZE : ℕ := 50

/-- `to` is exclusive, `from` inclusive. -/
def PRICE_RANGES : Json :=
  .array
    [.object [("to", .number (.ofNat 50))],
      .object [("from", .number (.ofNat 50)), ("to", .number (.ofNat 100))],
      .object [("from", .number (.ofNat 100)), ("to", .number (.ofNat 500))],
      .object [("from", .number (.ofNat 500))]]

/-- An aggregation over what the other filters leave. -/
def facet (filters : SearchFilters) (dimension : FacetDimension) (values : Json) : Json :=
  .object
    [("filter", .object [("bool", .object
        [("filter", .array (buildFilterClauses filters (some dimension)))])]),
      ("aggs", .object [("values", values)])]

def termsFacet (filters : SearchFilters) (dimension : FacetDimension) (name : String) : Json :=
  facet filters dimension
    (.object [("terms", .object
      [("field", .string name), ("size", .number (.ofNat FACET_TERMS_SIZE))])])

def priceFacet (filters : SearchFilters) : Json :=
  facet filters .price
    (.object [("range", .object [("field", .string "price"), ("ranges", PRICE_RANGES)])])

def buildFacetAggregations (filters : SearchFilters) : Json :=
  .object
    [("categories", termsFacet filters .category "category"),
      ("subcategories", termsFacet filters .subcategories "subcategories"),
      ("locations", termsFacet filters .location "location"),
      ("priceRanges", priceFacet filters)]

/-! ## Text, suggestions and sort -/

def FIELD_BOOSTS : List String :=
  ["name^4", "name.std^2", "category.text^2", "subcategories.text^1.5", "location.text^1",
    "description^1"]

def RECENCY_OFFSET : String := "7d"

/-- Text relevance times popularity and recency; without a query everything matches. -/
def buildTextQuery (query : Option String) (relevance : RelevanceConfig) : Json :=
  let inner := match query with
    | some query =>
      if query = "" then .object [("match_all", .object [])]
      else .object [("multi_match", .object
        [("query", .string query), ("type", .string "best_fields"),
          ("fields", ofStrings FIELD_BOOSTS), ("fuzziness", .string "AUTO"),
          ("operator", .string "or"), ("minimum_should_match", .string "60%")])]
    | none => .object [("match_all", .object [])]
  .object [("function_score", .object
    [("query", inner),
      ("functions", .array
        [.object [("field_value_factor", .object
            [("field", .string "popularity"), ("modifier", .string "ln1p"),
              ("factor", toJson relevance.popularityFactor)])],
          .object [("gauss", .object [("createdAt", .object
            [("origin", .string "now"), ("scale", .string relevance.recencyScale),
              ("offset", .string RECENCY_OFFSET), ("decay", toJson relevance.recencyDecay)])])]]),
      ("score_mode", .string "sum"),
      ("boost_mode", .string "multiply")])]

def buildSuggest (text : String) : Json :=
  .object
    [("text", .string text),
      ("did_you_mean", .object [("phrase", .object
        [("field", .string "suggest_text.trigram"), ("size", .number (.ofNat 1)),
          ("gram_size", .number (.ofNat 3)), ("max_errors", .number (.ofNat 2)),
          ("direct_generator", .array [.object
            [("field", .string "suggest_text.trigram"), ("suggest_mode", .string "always")]]),
          ("collate", .object
            [("query", .object
                [("source", .string "\x7b\"match\":\x7b\"suggest_text\":\"\x7b\x7bsuggestion\x7d\x7d\"\x7d\x7d")]),
              ("prune", .bool true)])])]),
      ("related", .object [("term", .object
        [("field", .string "suggest_text"), ("suggest_mode", .string "popular"),
          ("size", .number (.ofNat 3))])])]

/-- A sort with a tiebreaker. -/
def buildSort (sort : SortField) (order : SortOrder) : Json :=
  let by_ (field order : String) : Json := .object [(field, .object [("order", .string order)])]
  let tieBreaker := [by_ "_score" "desc", by_ "id" "asc"]
  match sort with
  | .popularity => .array (by_ "popularity" order.text :: tieBreaker)
  | .createdAt => .array (by_ "createdAt" order.text :: tieBreaker)
  | .relevance => .array [by_ "_score" order.text, by_ "id" "asc"]

/-! ## The body -/

def buildSearchRequest (criteria : SearchCriteria) (relevance : RelevanceConfig)
    (from_ size : Number) : Json :=
  let filters := buildFilterClauses criteria.filters none
  .object
    ([("from", toJson from_), ("size", toJson size), ("track_total_hits", .bool true),
        ("query", buildTextQuery criteria.query relevance)] ++
      (if filters ≠ [] then
        [("post_filter", .object [("bool", .object [("filter", .array filters)])])]
      else []) ++
      [("aggregations", buildFacetAggregations criteria.filters)] ++
      (match criteria.query with
        | some query => if query = "" then [] else [("suggest", buildSuggest query)]
        | none => []) ++
      [("sort", buildSort criteria.sort criteria.order)])

end AdvancedSearch
