import AdvancedSearch.Index.Dataset

/-!
# From response to outcome

A search response, as far as it is read, and the mappers that make hits, facets and suggestions of it.
-/

namespace AdvancedSearch

open Js

/-! ## The response -/

structure SearchHit where
  id : Option String
  source : Option ProductDocument
  score : Option Number

/-- `hits.total`: a number, or an object with one. -/
inductive TotalHits where
  | absent
  | number (n : Number)
  | object (value : Option Number)

inductive BucketKey where
  | text (s : String)
  | number (n : Number)

structure TermsBucket where
  key : BucketKey
  count : Number

structure RangeBucket where
  from_ : Option Number
  to_ : Option Number
  count : Number

/-- An aggregation: `values` may be missing, and its `buckets`. -/
structure FacetAgg (Bucket : Type) where
  values : Option (Option (List Bucket))

structure FacetAggregations where
  categories : Option (FacetAgg TermsBucket)
  subcategories : Option (FacetAgg TermsBucket)
  locations : Option (FacetAgg TermsBucket)
  priceRanges : Option (FacetAgg RangeBucket)

structure SuggestEntry where
  options : Option (List String)

structure SuggestBlock where
  didYouMean : Option (List SuggestEntry)
  related : Option (List SuggestEntry)

structure SearchResponse where
  total : TotalHits
  hits : List SearchHit
  aggregations : Option FacetAggregations
  suggest : Option SuggestBlock

/-! ## The outcome -/

structure ProductSummary where
  id : String
  name : String
  description : String
  category : String
  subcategories : List String
  location : String
  price : Number
  currency : String
  popularity : Number
  createdAt : String
  score : Option Number
  deriving DecidableEq

structure FacetBucket where
  key : String
  count : Number
  deriving DecidableEq

structure PriceRangeBucket where
  from_ : Option Number
  to_ : Option Number
  count : Number
  deriving DecidableEq

structure Facets where
  categories : List FacetBucket
  subcategories : List FacetBucket
  locations : List FacetBucket
  priceRanges : List PriceRangeBucket
  deriving DecidableEq

structure SearchSuggestions where
  didYouMean : Option String
  related : List String
  deriving DecidableEq

structure SearchOutcome where
  items : List ProductSummary
  total : Number
  facets : Facets
  suggestions : SearchSuggestions
  deriving DecidableEq

/-- Why a search is rejected; `ε` is what the client throws. -/
inductive SearchError (ε : Type) where
  | resultWindowExceeded (maxResultWindow : Number) (message : String)
  | upstreamResponse (message : String)
  | client (error : ε)
  deriving DecidableEq

/-! ## Mappers -/

def DEFAULT_CURRENCY : String := "USD"

def toProductSummary {ε : Type} (hit : SearchHit) : Except (SearchError ε) ProductSummary :=
  match hit.source with
  | none => .error (.upstreamResponse
      ("Search hit " ++ hit.id.getD "(unknown)" ++ " is missing _source"))
  | some source =>
    .ok
      { id := source.id
        name := source.name
        description := source.description
        category := source.category
        subcategories := source.subcategories
        location := source.location
        price := source.price
        currency := DEFAULT_CURRENCY
        popularity := source.popularity
        createdAt := source.createdAt
        score := hit.score }

/-- `agg?.values?.buckets ?? []`. -/
def FacetAgg.buckets {Bucket : Type} (agg : Option (FacetAgg Bucket)) : List Bucket :=
  ((agg.bind (·.values)).bind id).getD []

/-- `String(key)`. -/
def BucketKey.toText : BucketKey → String
  | text s => s
  | number n => n.text

def toFacetBuckets (agg : Option (FacetAgg TermsBucket)) : List FacetBucket :=
  (FacetAgg.buckets agg).map fun bucket => { key := bucket.key.toText, count := bucket.count }

def toPriceBuckets (agg : Option (FacetAgg RangeBucket)) : List PriceRangeBucket :=
  (FacetAgg.buckets agg).map fun bucket =>
    { from_ := bucket.from_, to_ := bucket.to_, count := bucket.count }

def toFacets (aggregations : Option FacetAggregations) : Facets where
  categories := toFacetBuckets (aggregations.bind (·.categories))
  subcategories := toFacetBuckets (aggregations.bind (·.subcategories))
  locations := toFacetBuckets (aggregations.bind (·.locations))
  priceRanges := toPriceBuckets (aggregations.bind (·.priceRanges))

/-- `entries?.[0]?.options?.[0]`. -/
def firstOption (entries : Option (List SuggestEntry)) : Option String :=
  ((entries.bind (·.head?)).bind (·.options)).bind (·.head?)

/-- The distinct texts, in order of appearance. -/
def collectTerms (entries : Option (List SuggestEntry)) : List String :=
  ((entries.getD []).flatMap fun entry => entry.options.getD []).foldl
    (fun terms text => if text ∈ terms then terms else terms ++ [text]) []

def toSuggestions (suggest : Option SuggestBlock) : SearchSuggestions where
  didYouMean := firstOption (suggest.bind (·.didYouMean))
  related := collectTerms (suggest.bind (·.related))

def totalHits : TotalHits → Number
  | .absent => .ofRat 0
  | .number n => n
  | .object value => value.getD (.ofRat 0)

end AdvancedSearch
