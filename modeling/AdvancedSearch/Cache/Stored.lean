import AdvancedSearch.Cache.Freshness
import AdvancedSearch.Search.Autocomplete

/-!
# What is stored can be read

Everything the mappers make of a response is read back as it was: the schemas reject no value whose
numbers are finite (`stored_reads`).
-/

namespace AdvancedSearch

open Js Schema

/-! ## Finite numbers -/

def ProductSummary.Finite (p : ProductSummary) : Prop :=
  p.price.isFinite ∧ p.popularity.isFinite ∧ ∀ score ∈ p.score, score.isFinite

def FacetBucket.Finite (b : FacetBucket) : Prop := b.count.isFinite

def PriceRangeBucket.Finite (b : PriceRangeBucket) : Prop :=
  (∀ x ∈ b.from_, x.isFinite) ∧ (∀ x ∈ b.to_, x.isFinite) ∧ b.count.isFinite

structure Facets.Finite (f : Facets) : Prop where
  categories : ∀ b ∈ f.categories, b.Finite
  subcategories : ∀ b ∈ f.subcategories, b.Finite
  locations : ∀ b ∈ f.locations, b.Finite
  priceRanges : ∀ b ∈ f.priceRanges, b.Finite

structure SearchOutcome.Finite (outcome : SearchOutcome) : Prop where
  items : ∀ p ∈ outcome.items, p.Finite
  total : outcome.total.isFinite
  facets : outcome.facets.Finite

/-! ## Schemas reject nothing that is finite -/

theorem keeps_strings : Keeps (fun xs => ∀ x ∈ xs, True) ofStrings (array string) :=
  keeps_array keeps_string

theorem keeps_productSummary :
    Keeps ProductSummary.Finite ProductSummary.json productSummarySchema := by
  intro p ⟨hprice, hpopularity, hscore⟩
  unfold productSummarySchema ProductSummary.json object
  simp only [Option.bind_eq_bind]
  rw [keeps_string.required rfl trivial, Option.bind_some, keeps_string.required rfl trivial,
    Option.bind_some, keeps_string.required rfl trivial, Option.bind_some,
    keeps_string.required rfl trivial, Option.bind_some,
    keeps_strings.required rfl fun _ _ => trivial, Option.bind_some,
    keeps_string.required rfl trivial, Option.bind_some, keeps_number.required rfl hprice,
    Option.bind_some, keeps_string.required rfl trivial, Option.bind_some,
    keeps_number.required rfl hpopularity, Option.bind_some, keeps_string.required rfl trivial,
    Option.bind_some, keeps_number.optional (by cases p.score <;> rfl) hscore]
  rfl

theorem keeps_facetBucket : Keeps FacetBucket.Finite FacetBucket.json facetBucketSchema := by
  intro b hb
  unfold facetBucketSchema FacetBucket.json object
  simp only [Option.bind_eq_bind]
  rw [keeps_string.required rfl trivial, Option.bind_some, keeps_number.required rfl hb]
  rfl

theorem keeps_priceRangeBucket :
    Keeps PriceRangeBucket.Finite PriceRangeBucket.json priceRangeBucketSchema := by
  intro b ⟨hfrom, hto, hcount⟩
  obtain ⟨from_, to_, count⟩ := b
  unfold priceRangeBucketSchema PriceRangeBucket.json object
  simp only [Option.bind_eq_bind]
  rw [keeps_number.optional (by cases from_ <;> cases to_ <;> rfl) hfrom, Option.bind_some,
    keeps_number.optional (by cases from_ <;> cases to_ <;> rfl) hto, Option.bind_some,
    keeps_number.required (by cases from_ <;> cases to_ <;> rfl) hcount]
  rfl

theorem keeps_facets : Keeps Facets.Finite Facets.json facetsSchema := by
  intro f hf
  have hbuckets := keeps_array keeps_facetBucket
  unfold facetsSchema Facets.json object
  simp only [Option.bind_eq_bind]
  rw [hbuckets.required rfl hf.categories, Option.bind_some, hbuckets.required rfl hf.subcategories,
    Option.bind_some, hbuckets.required rfl hf.locations, Option.bind_some,
    (keeps_array keeps_priceRangeBucket).required rfl hf.priceRanges]
  rfl

theorem keeps_suggestions :
    Keeps (fun _ => True) SearchSuggestions.json suggestionsSchema := by
  intro s _
  have htext := keeps_nullable keeps_string fun _ => Json.noConfusion
  unfold suggestionsSchema SearchSuggestions.json object
  simp only [Option.bind_eq_bind]
  rw [htext.required rfl fun _ _ => trivial, Option.bind_some,
    keeps_strings.required rfl fun _ _ => trivial]
  rfl

/-- No outcome is rejected whose numbers are finite. -/
theorem keeps_searchOutcome :
    Keeps SearchOutcome.Finite SearchOutcome.json searchOutcomeSchema := by
  intro outcome h
  unfold searchOutcomeSchema SearchOutcome.json object
  simp only [Option.bind_eq_bind]
  rw [(keeps_array keeps_productSummary).required rfl h.items, Option.bind_some,
    keeps_number.required rfl h.total, Option.bind_some, keeps_facets.required rfl h.facets,
    Option.bind_some, keeps_suggestions.required rfl trivial]
  rfl

/-! ## Completions -/

def AutocompleteItem.json (item : AutocompleteItem) : Json :=
  .object [("text", .string item.text), ("score", toJson item.score)]

def autocompleteItemSchema : Schema AutocompleteItem := object fun fields => do
  let text ← required "text" string fields
  let score ← required "score" number fields
  return { text, score }

def autocompleteItemsSchema : Schema (List AutocompleteItem) := array autocompleteItemSchema

/-- What `JSON.stringify` writes of a list of completions. -/
def autocompleteItemsJson (items : List AutocompleteItem) : Json :=
  .array (items.map AutocompleteItem.json)

theorem keeps_autocompleteItem :
    Keeps (fun item => item.score.isFinite) AutocompleteItem.json autocompleteItemSchema := by
  intro item hscore
  unfold autocompleteItemSchema AutocompleteItem.json object
  simp only [Option.bind_eq_bind]
  rw [keeps_string.required rfl trivial, Option.bind_some, keeps_number.required rfl hscore]
  rfl

theorem AutocompleteItem.json_ordered (item : AutocompleteItem) : item.json.Ordered :=
  Json.ordered_object ["text", "score"] rfl (by decide) ⟨trivial, toJson_ordered item.score, trivial⟩

/-! ## What the mappers make -/

def SearchHit.Finite (hit : SearchHit) : Prop :=
  (∀ source ∈ hit.source, source.price.isFinite ∧ source.popularity.isFinite) ∧
    ∀ score ∈ hit.score, score.isFinite

def TotalHits.Finite : TotalHits → Prop
  | absent => True
  | number n => n.isFinite
  | object value => ∀ n ∈ value, n.isFinite

def RangeBucket.Finite (bucket : RangeBucket) : Prop :=
  (∀ x ∈ bucket.from_, x.isFinite) ∧ (∀ x ∈ bucket.to_, x.isFinite) ∧ bucket.count.isFinite

/-- The counts of a facet are finite. -/
def FacetAgg.Finite (agg : Option (FacetAgg TermsBucket)) : Prop :=
  ∀ bucket ∈ FacetAgg.buckets agg, bucket.count.isFinite

structure FacetAggregations.Finite (aggs : FacetAggregations) : Prop where
  categories : FacetAgg.Finite aggs.categories
  subcategories : FacetAgg.Finite aggs.subcategories
  locations : FacetAgg.Finite aggs.locations
  priceRanges : ∀ bucket ∈ FacetAgg.buckets aggs.priceRanges, bucket.Finite

/-- The numbers of a response are finite, as those of a JSON text are. -/
structure SearchResponse.Finite (response : SearchResponse) : Prop where
  total : response.total.Finite
  hits : ∀ hit ∈ response.hits, hit.Finite
  aggregations : ∀ aggs ∈ response.aggregations, aggs.Finite

theorem toProductSummary_finite {ε : Type} {hit : SearchHit} (h : hit.Finite) {p : ProductSummary}
    (hp : (toProductSummary hit : Except (SearchError ε) ProductSummary) = .ok p) : p.Finite := by
  unfold toProductSummary at hp
  cases hsource : hit.source with
  | none =>
    rw [hsource] at hp
    cases hp
  | some source =>
    rw [hsource] at hp
    cases hp
    obtain ⟨hprice, hpopularity⟩ := h.1 source hsource
    exact ⟨hprice, hpopularity, h.2⟩

theorem toFacetBuckets_finite {agg : Option (FacetAgg TermsBucket)} (h : FacetAgg.Finite agg) :
    ∀ b ∈ toFacetBuckets agg, b.Finite := by
  intro b hb
  obtain ⟨bucket, hbucket, rfl⟩ := List.mem_map.mp hb
  exact h bucket hbucket

theorem toFacets_finite {aggregations : Option FacetAggregations}
    (h : ∀ aggs ∈ aggregations, aggs.Finite) : (toFacets aggregations).Finite := by
  cases aggregations with
  | none => constructor <;> exact fun _ hb => by cases hb
  | some aggs =>
    obtain ⟨hcategories, hsubcategories, hlocations, hranges⟩ := h aggs rfl
    refine ⟨toFacetBuckets_finite hcategories, toFacetBuckets_finite hsubcategories,
      toFacetBuckets_finite hlocations, fun b hb => ?_⟩
    obtain ⟨bucket, hbucket, rfl⟩ := List.mem_map.mp hb
    exact hranges bucket hbucket

theorem totalHits_finite {total : TotalHits} (h : total.Finite) : (totalHits total).isFinite := by
  cases total with
  | absent => exact congrArg Number.isFinite Number.ofRat_zero
  | number n => exact h
  | object value =>
    cases value with
    | none => exact congrArg Number.isFinite Number.ofRat_zero
    | some n => exact h n rfl

/-- What each hit maps to, all hits map to. -/
theorem mapM_toProductSummary_finite {ε : Type} {hits : List SearchHit}
    (h : ∀ hit ∈ hits, hit.Finite) {items : List ProductSummary}
    (hitems : (hits.mapM toProductSummary : Except (SearchError ε) _) = .ok items) :
    ∀ p ∈ items, p.Finite := by
  induction hits generalizing items with
  | nil =>
    cases hitems
    exact fun p hp => absurd hp List.not_mem_nil
  | cons hit hits ih =>
    obtain ⟨hfirst, hrest⟩ := List.forall_mem_cons.mp h
    rw [List.mapM_cons] at hitems
    cases hp : (toProductSummary hit : Except (SearchError ε) ProductSummary) with
    | error e =>
      rw [hp] at hitems
      cases hitems
    | ok p =>
      cases hmore : (hits.mapM toProductSummary : Except (SearchError ε) _) with
      | error e =>
        rw [hp, hmore] at hitems
        cases hitems
      | ok more =>
        rw [hp, hmore] at hitems
        cases hitems
        exact List.forall_mem_cons.mpr ⟨toProductSummary_finite hfirst hp, ih hrest hmore⟩

theorem toOutcome_finite {ε : Type} {adapter : SearchAdapter} {query : Option String}
    {response : SearchResponse} (h : response.Finite) {outcome : SearchOutcome}
    (houtcome : (adapter.toOutcome query response : Except (SearchError ε) _) = .ok outcome) :
    outcome.Finite := by
  unfold SearchAdapter.toOutcome at houtcome
  cases hitems : (response.hits.mapM toProductSummary : Except (SearchError ε) _) with
  | error e =>
    rw [hitems] at houtcome
    cases houtcome
  | ok items =>
    rw [hitems] at houtcome
    cases houtcome
    exact ⟨mapM_toProductSummary_finite h.hits hitems, totalHits_finite h.total,
      toFacets_finite h.aggregations⟩

theorem toAutocompleteItems_finite {hits : List NameHit}
    (h : ∀ hit ∈ hits, ∀ score ∈ hit.score, score.isFinite) :
    ∀ item ∈ toAutocompleteItems hits, item.score.isFinite := by
  intro item hitem
  rw [toAutocompleteItems_eq, mem_bestNames] at hitem
  obtain ⟨pre, hit, post, rfl, hitem, -⟩ := hitem
  unfold NameHit.item? at hitem
  split at hitem
  · cases hitem
  · split at hitem
    · cases hitem
    · cases hitem
      cases hscore : hit.score with
      | none => exact congrArg Number.isFinite Number.ofRat_zero
      | some score => exact h hit (by simp) score hscore

/-! ## Storing and reading -/

/-- What was set under a key is got as the value it was. -/
theorem get_set {j : Json} (h : j.Ordered) (key : String) (ttlSeconds : Number) :
    RedisCacheAdapter.get (.ok (some (RedisCacheAdapter.set key j ttlSeconds).raw)) = .ok (some j) := by
  unfold RedisCacheAdapter.get RedisCacheAdapter.set
  dsimp only
  rw [Json.parse_stringify h]

/-- **What is stored can be read.** Whatever the mappers make of a response with finite numbers, storing
it, reading it and checking its shape gives it back as it was. -/
theorem stored_reads (key : String) (ttlSeconds : Number) :
    (∀ {ε : Type} (adapter : SearchAdapter) (query : Option String) (response : SearchResponse)
        (outcome : SearchOutcome), response.Finite →
        (adapter.toOutcome query response : Except (SearchError ε) _) = .ok outcome →
        ∃ payload, RedisCacheAdapter.get
            (.ok (some (RedisCacheAdapter.set key outcome.json ttlSeconds).raw)) = .ok (some payload) ∧
          searchOutcomeSchema payload = some outcome) ∧
      ∀ hits : List NameHit, (∀ hit ∈ hits, ∀ score ∈ hit.score, score.isFinite) →
        ∃ payload, RedisCacheAdapter.get (.ok (some (RedisCacheAdapter.set key
            (autocompleteItemsJson (toAutocompleteItems hits)) ttlSeconds).raw)) = .ok (some payload) ∧
          autocompleteItemsSchema payload = some (toAutocompleteItems hits) := by
  refine ⟨fun {ε} adapter query response outcome hfinite houtcome => ?_, fun hits hfinite => ?_⟩
  · exact ⟨outcome.json, get_set outcome.json_ordered key ttlSeconds,
      keeps_searchOutcome outcome (toOutcome_finite hfinite houtcome)⟩
  · exact ⟨_, get_set (Json.ordered_array AutocompleteItem.json_ordered _) key ttlSeconds,
      keeps_array keeps_autocompleteItem _ (toAutocompleteItems_finite hfinite)⟩

/-! ### A response and what is read of it -/

def quotedDrill : ProductDocument where
  id := "p1"
  name := "Drill \"18V\""
  description := ""
  category := "Tools"
  subcategories := []
  location := "Lima"
  price := .ofRat (199 / 2)
  popularity := .ofRat 7
  createdAt := "2024-01-01T00:00:00.000Z"

/-- A hit without a score, a numeric key, a range open below, no suggestion. -/
def drillResponse : SearchResponse where
  total := .object (some (.ofRat 1))
  hits := [{ id := some "p1", source := some quotedDrill, score := none }]
  aggregations := some
    { categories := some { values := some (some [{ key := .number (.ofRat 18), count := .ofRat 1 }]) }
      subcategories := none
      locations := some { values := none }
      priceRanges := some
        { values := some (some [{ from_ := none, to_ := some (.ofRat 100), count := .ofRat 1 }]) } }
  suggest := some { didYouMean := some [], related := none }

theorem drillResponse_finite : drillResponse.Finite where
  total := by
    rintro _ ⟨⟩
    decide +kernel
  hits := by
    intro hit hhit
    rw [List.mem_singleton.mp hhit]
    refine ⟨?_, fun _ h => by cases h⟩
    rintro _ ⟨⟩
    decide +kernel
  aggregations := by
    rintro _ ⟨⟩
    refine ⟨fun bucket hbucket => ?_, fun _ h => (by cases h), fun _ h => (by cases h), ?_⟩
    · rw [List.mem_singleton.mp hbucket]
      decide +kernel
    · intro bucket hbucket
      rw [List.mem_singleton.mp hbucket]
      refine ⟨fun _ h => (by cases h), ?_, by decide +kernel⟩
      rintro _ ⟨⟩
      decide +kernel

/-- The outcome of that response, and two completions, are read as they were. -/
theorem stored_reads_drill :
    (∃ outcome payload,
      ((SearchAdapter.of (buildConfig (deployment 5))).toOutcome (some "drill") drillResponse :
        Except (SearchError String) SearchOutcome) = .ok outcome ∧ outcome.items.length = 1 ∧
      RedisCacheAdapter.get (.ok (some (RedisCacheAdapter.set "search:v1" outcome.json
        (.ofRat (300 : ℕ))).raw)) = .ok (some payload) ∧
      searchOutcomeSchema payload = some outcome) ∧
    ∃ payload, RedisCacheAdapter.get (.ok (some (RedisCacheAdapter.set "search:v1"
        (autocompleteItemsJson (toAutocompleteItems (drillTwice "products" .null)))
        (.ofRat (300 : ℕ))).raw)) = .ok (some payload) ∧
      autocompleteItemsSchema payload = some (toAutocompleteItems (drillTwice "products" .null)) := by
  obtain ⟨hsearch, hnames⟩ := stored_reads "search:v1" (.ofRat (300 : ℕ))
  constructor
  · obtain ⟨payload, hget, hread⟩ := hsearch (ε := String) (SearchAdapter.of (buildConfig (deployment 5)))
      (some "drill") drillResponse _ drillResponse_finite rfl
    exact ⟨_, payload, rfl, rfl, hget, hread⟩
  · refine hnames _ fun hit hhit score hscore => ?_
    simp only [drillTwice, List.mem_cons, List.not_mem_nil, or_false] at hhit
    rcases hhit with rfl | rfl | rfl <;> cases hscore <;> decide +kernel

end AdvancedSearch
