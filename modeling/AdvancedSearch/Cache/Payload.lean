import AdvancedSearch.Lib.Schema
import AdvancedSearch.Search.Outcome

/-!
# Cached payloads

What `JSON.stringify` makes of an outcome, and the shapes a cached entry must still have to be served.
What is read of a stored outcome is that outcome or nothing (`served_stored`).
-/

namespace AdvancedSearch

open Js

/-! ## Outcomes as JSON -/

def ProductSummary.json (p : ProductSummary) : Json :=
  .object
    ([("id", .string p.id), ("name", .string p.name), ("description", .string p.description),
        ("category", .string p.category), ("subcategories", ofStrings p.subcategories),
        ("location", .string p.location), ("price", toJson p.price),
        ("currency", .string p.currency), ("popularity", toJson p.popularity),
        ("createdAt", .string p.createdAt)] ++
      optionalField "score" (p.score.map toJson))

def FacetBucket.json (b : FacetBucket) : Json :=
  .object [("key", .string b.key), ("count", toJson b.count)]

def PriceRangeBucket.json (b : PriceRangeBucket) : Json :=
  .object (optionalField "from" (b.from_.map toJson) ++ optionalField "to" (b.to_.map toJson) ++
    [("count", toJson b.count)])

def Facets.json (f : Facets) : Json :=
  .object
    [("categories", .array (f.categories.map FacetBucket.json)),
      ("subcategories", .array (f.subcategories.map FacetBucket.json)),
      ("locations", .array (f.locations.map FacetBucket.json)),
      ("priceRanges", .array (f.priceRanges.map PriceRangeBucket.json))]

def SearchSuggestions.json (s : SearchSuggestions) : Json :=
  .object [("didYouMean", nullableJson .string s.didYouMean), ("related", ofStrings s.related)]

def SearchOutcome.json (outcome : SearchOutcome) : Json :=
  .object
    [("items", .array (outcome.items.map ProductSummary.json)), ("total", toJson outcome.total),
      ("facets", outcome.facets.json), ("suggestions", outcome.suggestions.json)]

/-! ## Schemas -/

open Schema

def productSummarySchema : Schema ProductSummary := object fun fields => do
  let id ← required "id" string fields
  let name ← required "name" string fields
  let description ← required "description" string fields
  let category ← required "category" string fields
  let subcategories ← required "subcategories" (array string) fields
  let location ← required "location" string fields
  let price ← required "price" number fields
  let currency ← required "currency" string fields
  let popularity ← required "popularity" number fields
  let createdAt ← required "createdAt" string fields
  let score ← optional "score" number fields
  return {
    id, name, description, category, subcategories, location, price, currency, popularity, createdAt
    score }

def facetBucketSchema : Schema FacetBucket := object fun fields => do
  let key ← required "key" string fields
  let count ← required "count" number fields
  return { key, count }

def priceRangeBucketSchema : Schema PriceRangeBucket := object fun fields => do
  let from_ ← optional "from" number fields
  let to_ ← optional "to" number fields
  let count ← required "count" number fields
  return { from_, to_, count }

def facetsSchema : Schema Facets := object fun fields => do
  let categories ← required "categories" (array facetBucketSchema) fields
  let subcategories ← required "subcategories" (array facetBucketSchema) fields
  let locations ← required "locations" (array facetBucketSchema) fields
  let priceRanges ← required "priceRanges" (array priceRangeBucketSchema) fields
  return { categories, subcategories, locations, priceRanges }

def suggestionsSchema : Schema SearchSuggestions := object fun fields => do
  let didYouMean ← required "didYouMean" (nullable string) fields
  let related ← required "related" (array string) fields
  return { didYouMean, related }

def searchOutcomeSchema : Schema SearchOutcome := object fun fields => do
  let items ← required "items" (array productSummarySchema) fields
  let total ← required "total" number fields
  let facets ← required "facets" facetsSchema fields
  let suggestions ← required "suggestions" suggestionsSchema fields
  return { items, total, facets, suggestions }

/-! ## What was stored is read -/

theorem reads_facetBucket : Reads FacetBucket.json facetBucketSchema := by
  intro x y h
  unfold facetBucketSchema FacetBucket.json object at h
  simp only [Option.bind_eq_bind, Option.bind_eq_some_iff] at h
  obtain ⟨key, hkey, count, hcount, hy⟩ := h
  cases hy
  rw [reads_string.required rfl hkey, reads_number.required rfl hcount]

theorem reads_priceRangeBucket : Reads PriceRangeBucket.json priceRangeBucketSchema := by
  intro x y h
  unfold priceRangeBucketSchema PriceRangeBucket.json object at h
  simp only [Option.bind_eq_bind, Option.bind_eq_some_iff] at h
  obtain ⟨from_, hfrom, to_, hto, count, hcount, hy⟩ := h
  cases hy
  obtain ⟨xfrom, xto, xcount⟩ := x
  have hfrom' : from_ = xfrom :=
    reads_number.optional (by cases xfrom <;> cases xto <;> rfl) hfrom
  have hto' : to_ = xto := reads_number.optional (by cases xfrom <;> cases xto <;> rfl) hto
  have hcount' : count = xcount :=
    reads_number.required (by cases xfrom <;> cases xto <;> rfl) hcount
  rw [hfrom', hto', hcount']

theorem reads_strings : Reads ofStrings (array string) := reads_array reads_string

theorem reads_productSummary : Reads ProductSummary.json productSummarySchema := by
  intro x y h
  unfold productSummarySchema ProductSummary.json object at h
  obtain ⟨id, hid, h⟩ := Option.bind_eq_some_iff.mp h
  obtain ⟨name, hname, h⟩ := Option.bind_eq_some_iff.mp h
  obtain ⟨description, hdescription, h⟩ := Option.bind_eq_some_iff.mp h
  obtain ⟨category, hcategory, h⟩ := Option.bind_eq_some_iff.mp h
  obtain ⟨subcategories, hsubcategories, h⟩ := Option.bind_eq_some_iff.mp h
  obtain ⟨location, hlocation, h⟩ := Option.bind_eq_some_iff.mp h
  obtain ⟨price, hprice, h⟩ := Option.bind_eq_some_iff.mp h
  obtain ⟨currency, hcurrency, h⟩ := Option.bind_eq_some_iff.mp h
  obtain ⟨popularity, hpopularity, h⟩ := Option.bind_eq_some_iff.mp h
  obtain ⟨createdAt, hcreatedAt, h⟩ := Option.bind_eq_some_iff.mp h
  obtain ⟨score, hscore, hy⟩ := Option.bind_eq_some_iff.mp h
  cases hy
  have hlast : score = x.score := reads_number.optional (by cases x.score <;> rfl) hscore
  rw [reads_string.required rfl hid, reads_string.required rfl hname,
    reads_string.required rfl hdescription, reads_string.required rfl hcategory,
    reads_strings.required rfl hsubcategories, reads_string.required rfl hlocation,
    reads_number.required rfl hprice, reads_string.required rfl hcurrency,
    reads_number.required rfl hpopularity, reads_string.required rfl hcreatedAt, hlast]

theorem reads_facets : Reads Facets.json facetsSchema := by
  intro x y h
  unfold facetsSchema Facets.json object at h
  simp only [Option.bind_eq_bind, Option.bind_eq_some_iff] at h
  obtain ⟨categories, hcategories, subcategories, hsubcategories, locations, hlocations,
    priceRanges, hpriceRanges, hy⟩ := h
  cases hy
  have hbuckets := reads_array reads_facetBucket
  rw [hbuckets.required rfl hcategories, hbuckets.required rfl hsubcategories,
    hbuckets.required rfl hlocations,
    (reads_array reads_priceRangeBucket).required rfl hpriceRanges]

theorem reads_suggestions : Reads SearchSuggestions.json suggestionsSchema := by
  intro x y h
  unfold suggestionsSchema SearchSuggestions.json object at h
  simp only [Option.bind_eq_bind, Option.bind_eq_some_iff] at h
  obtain ⟨didYouMean, hdidYouMean, related, hrelated, hy⟩ := h
  cases hy
  have htext := reads_nullable reads_string fun _ => Json.noConfusion
  rw [htext.required rfl hdidYouMean, reads_strings.required rfl hrelated]

/-- What the schema makes of a written outcome is that outcome. -/
theorem reads_searchOutcome : Reads SearchOutcome.json searchOutcomeSchema := by
  intro x y h
  unfold searchOutcomeSchema SearchOutcome.json object at h
  simp only [Option.bind_eq_bind, Option.bind_eq_some_iff] at h
  obtain ⟨items, hitems, total, htotal, facets, hfacets, suggestions, hsuggestions, hy⟩ := h
  cases hy
  rw [(reads_array reads_productSummary).required rfl hitems, reads_number.required rfl htotal,
    reads_facets.required rfl hfacets, reads_suggestions.required rfl hsuggestions]

/-! ## Stored texts -/

theorem ProductSummary.json_ordered (p : ProductSummary) : p.json.Ordered := by
  obtain ⟨id, name, description, category, subcategories, location, price, currency, popularity,
    createdAt, score⟩ := p
  cases score
  · exact Json.ordered_object ["id", "name", "description", "category", "subcategories", "location",
        "price", "currency", "popularity", "createdAt"] rfl (by decide)
      ⟨trivial, trivial, trivial, trivial, ofStrings_ordered _, trivial, toJson_ordered _, trivial,
        toJson_ordered _, trivial, trivial⟩
  · exact Json.ordered_object ["id", "name", "description", "category", "subcategories", "location",
        "price", "currency", "popularity", "createdAt", "score"] rfl (by decide)
      ⟨trivial, trivial, trivial, trivial, ofStrings_ordered _, trivial, toJson_ordered _, trivial,
        toJson_ordered _, trivial, toJson_ordered _, trivial⟩

theorem FacetBucket.json_ordered (b : FacetBucket) : b.json.Ordered :=
  Json.ordered_object ["key", "count"] rfl (by decide) ⟨trivial, toJson_ordered _, trivial⟩

theorem PriceRangeBucket.json_ordered (b : PriceRangeBucket) : b.json.Ordered := by
  obtain ⟨from_, to_, count⟩ := b
  cases from_ <;> cases to_
  · exact Json.ordered_object ["count"] rfl (by decide) ⟨toJson_ordered _, trivial⟩
  · exact Json.ordered_object ["to", "count"] rfl (by decide)
      ⟨toJson_ordered _, toJson_ordered _, trivial⟩
  · exact Json.ordered_object ["from", "count"] rfl (by decide)
      ⟨toJson_ordered _, toJson_ordered _, trivial⟩
  · exact Json.ordered_object ["from", "to", "count"] rfl (by decide)
      ⟨toJson_ordered _, toJson_ordered _, toJson_ordered _, trivial⟩

theorem Facets.json_ordered (f : Facets) : f.json.Ordered :=
  Json.ordered_object ["categories", "subcategories", "locations", "priceRanges"] rfl (by decide)
    ⟨Json.ordered_array FacetBucket.json_ordered _, Json.ordered_array FacetBucket.json_ordered _,
      Json.ordered_array FacetBucket.json_ordered _,
      Json.ordered_array PriceRangeBucket.json_ordered _, trivial⟩

theorem SearchSuggestions.json_ordered (s : SearchSuggestions) : s.json.Ordered := by
  have htext : (nullableJson Json.string s.didYouMean).Ordered := by
    cases s.didYouMean <;> trivial
  exact Json.ordered_object ["didYouMean", "related"] rfl (by decide)
    ⟨htext, ofStrings_ordered _, trivial⟩

theorem SearchOutcome.json_ordered (outcome : SearchOutcome) : outcome.json.Ordered :=
  Json.ordered_object ["items", "total", "facets", "suggestions"] rfl (by decide)
    ⟨Json.ordered_array ProductSummary.json_ordered _, toJson_ordered _,
      outcome.facets.json_ordered, outcome.suggestions.json_ordered, trivial⟩

/-- An outcome that was stored is served as it was. -/
theorem served_stored {outcome served : SearchOutcome}
    (h : (Json.parse outcome.json.stringify).bind searchOutcomeSchema = some served) :
    served = outcome := by
  rw [Json.parse_stringify outcome.json_ordered] at h
  exact reads_searchOutcome outcome served h

end AdvancedSearch
