import AdvancedSearch.Lib.Counts
import AdvancedSearch.Lib.JsonParse
import AdvancedSearch.Lib.Ranking
import AdvancedSearch.Search.Adapter

/-!
# What Elasticsearch answers to a body

The meaning of the clauses that the builders emit, on a finite catalogue: `query` selects, `post_filter`
narrows the hits and the total but not the aggregations, a `filter` aggregation counts within what its
clauses select, `sort` ranks and `from` and `size` slice. Which documents a text query matches, how it
scores them, the instant a date stands for and what is suggested are parameters.
-/

namespace Js.Json

/-- `json[key]`. -/
def get (json : Json) (key : String) : Option Json :=
  match json with
  | object fields => field fields key
  | _ => none

def items : Json → List Json
  | array items => items
  | _ => []

def entries : Json → Fields
  | object fields => fields
  | _ => []

def text? : Json → Option String
  | string s => some s
  | _ => none

/-- The number that is read. -/
def number? : Json → Option Number
  | number n => some (.ofDecimal n)
  | _ => none

end Js.Json

namespace AdvancedSearch

open Js Ranking

/-! ## Documents -/

/-- The values of a keyword field. -/
def ProductDocument.keywords (doc : ProductDocument) (name : String) : List String :=
  if name = "category" then [doc.category]
  else if name = "subcategories" then doc.subcategories
  else if name = "location" then [doc.location]
  else []

/-- The value of a numeric field. -/
def ProductDocument.numeric (doc : ProductDocument) (name : String) : Option ℚ :=
  if name = "price" then doc.price.value?
  else if name = "popularity" then doc.popularity.value?
  else none

/-! ## Filters -/

/-- `gte` and `lte`, both inclusive; `null` is no bound. -/
def satisfiesBound (x : ℚ) (bound : String × Json) : Bool :=
  match bound.2.number?.bind Number.value? with
  | none => true
  | some limit => if bound.1 = "gte" then limit ≤ x else if bound.1 = "lte" then x ≤ limit else false

/-- `term` is equality, `terms` any of, `range` within its bounds. -/
def satisfiesClause (doc : ProductDocument) (clause : Json) : Bool :=
  match clause with
  | .object [(kind, .object [(name, body)])] =>
    if kind = "term" then ((body.get "value").bind Json.text?).any fun v => v ∈ doc.keywords name
    else if kind = "terms" then body.items.any fun value => value.text?.any fun v => v ∈ doc.keywords name
    else if kind = "range" then (doc.numeric name).any fun x => body.entries.all (satisfiesBound x)
    else false
  | _ => false

/-- `bool.filter` is conjunction. -/
def satisfiesFilter (doc : ProductDocument) (filter : Json) : Bool :=
  match (filter.get "bool").bind (·.get "filter") with
  | some clauses => clauses.items.all (satisfiesClause doc)
  | none => false

/-! ## Aggregations -/

/-- Documents with a value, one count per document. -/
def countValue (docs : List ProductDocument) (name value : String) : ℕ :=
  docs.countP fun doc => value ∈ doc.keywords name

/-- A `terms` aggregation: the values with the most documents, ties by value. -/
def termsBuckets (docs : List ProductDocument) (name : String) (size : ℕ) : List TermsBucket :=
  let values := (docs.flatMap fun doc => doc.keywords name).dedup
  let ranked := rank (lexicographic [directed true (compareOn (countValue docs name)), compare]) values
  (ranked.take size).map fun value => { key := .text value, count := .ofRat (countValue docs name value) }

/-- A bucket counts the documents with its value. -/
theorem eq_of_mem_termsBuckets {docs : List ProductDocument} {name : String} {size : ℕ}
    {bucket : TermsBucket} (h : bucket ∈ termsBuckets docs name size) :
    ∃ value, bucket = { key := .text value, count := .ofRat (countValue docs name value) } := by
  obtain ⟨value, -, rfl⟩ := List.mem_map.mp h
  exact ⟨value, rfl⟩

/-- When no value is cut off, every value that occurs has a bucket. -/
theorem mem_termsBuckets {docs : List ProductDocument} {name value : String} {size : ℕ}
    (hfew : ((docs.flatMap fun doc => doc.keywords name).dedup).length ≤ size)
    (hcount : 0 < countValue docs name value) :
    { key := .text value, count := .ofRat (countValue docs name value) } ∈ termsBuckets docs name size := by
  obtain ⟨doc, hdoc, hhas⟩ := List.countP_pos_iff.mp hcount
  refine List.mem_map.mpr ⟨value, ?_, rfl⟩
  rw [List.take_of_length_le ((rank_perm _ _).length_eq.trans_le hfew), (rank_perm _ _).mem_iff]
  exact List.mem_dedup.mpr (List.mem_flatMap.mpr ⟨doc, hdoc, of_decide_eq_true hhas⟩)

/-- `from` is inclusive and `to` exclusive. -/
def inRange (lower upper : Option ℚ) (x : ℚ) : Bool :=
  lower.all (fun l => l ≤ x) && upper.all (fun u => x < u)

/-- Documents whose value lies in a range. -/
def countRange (docs : List ProductDocument) (name : String) (lower upper : Option ℚ) : ℕ :=
  docs.countP fun doc => (doc.numeric name).any (inRange lower upper)

/-- A `range` aggregation: a bucket for each range. -/
def rangeBuckets (docs : List ProductDocument) (name : String) (ranges : List Json) : List RangeBucket :=
  ranges.map fun range =>
    let lower := (range.get "from").bind Json.number?
    let upper := (range.get "to").bind Json.number?
    { from_ := lower
      to_ := upper
      count := .ofRat (countRange docs name (lower.bind Number.value?) (upper.bind Number.value?)) }

/-- The documents that a `filter` aggregation counts. -/
def aggregated (docs : List ProductDocument) (agg : Json) : List ProductDocument :=
  docs.filter fun doc => ((agg.get "filter").map (satisfiesFilter doc)).getD false

/-- A natural number in a body. -/
def natOf (json : Option Json) : ℕ :=
  (((json.bind Json.number?).bind Number.value?).map fun x => ⌊x⌋.toNat).getD 0

theorem natOf_natCast {n : ℕ} {j : Json} (hj : j.number? = some (.ofRat n)) (h : n < 2 ^ 53) :
    natOf (some j) = n := by
  unfold natOf
  rw [Option.bind_some, hj, Option.bind_some, Number.value?_natCast h]
  show ⌊(n : ℚ)⌋.toNat = n
  rw [Int.floor_natCast, Int.toNat_natCast]

theorem natOf_ofNat {n : ℕ} (h : n < 2 ^ 53) : natOf (some (.number (.ofNat n))) = n :=
  natOf_natCast (congrArg some (Number.ofDecimal_ofNat n)) h

theorem natOf_toJson {n : ℕ} (h : n < 2 ^ 53) : natOf (some (toJson (.ofRat n))) = n := by
  obtain ⟨x, hx, -⟩ := Number.exists_double_natCast h
  refine natOf_natCast ?_ h
  rw [hx]
  exact congrArg some (Number.ofDecimal_shortestDecimal x)

/-- The answer of a filtered `terms` aggregation. -/
def termsAgg (docs : List ProductDocument) (agg : Json) : Option (FacetAgg TermsBucket) :=
  (((agg.get "aggs").bind (·.get "values")).bind (·.get "terms")).map fun terms =>
    { values := some (some (termsBuckets (aggregated docs agg)
        (((terms.get "field").bind Json.text?).getD "") (natOf (terms.get "size")))) }

/-- The answer of a filtered `range` aggregation. -/
def rangeAgg (docs : List ProductDocument) (agg : Json) : Option (FacetAgg RangeBucket) :=
  (((agg.get "aggs").bind (·.get "values")).bind (·.get "range")).map fun range =>
    { values := some (some (rangeBuckets (aggregated docs agg)
        (((range.get "field").bind Json.text?).getD "") ((range.get "ranges").map Json.items |>.getD []))) }

/-! ## The engine -/

/-- What the bodies leave to Elasticsearch. -/
structure SearchEngine where
  matchesQuery : Json → ProductDocument → Bool
  score : ProductDocument → ℚ
  millis : String → ℤ
  suggest : Json → SuggestBlock

namespace SearchEngine

variable (engine : SearchEngine)

/-- The documents that the query matches. -/
def matching (catalogue : List ProductDocument) (body : Json) : List ProductDocument :=
  catalogue.filter fun doc => ((body.get "query").map (engine.matchesQuery · doc)).getD false

/-- The documents that count as hits. -/
def selected (catalogue : List ProductDocument) (body : Json) : List ProductDocument :=
  (engine.matching catalogue body).filter fun doc =>
    ((body.get "post_filter").map (satisfiesFilter doc)).getD true

/-- One criterion of a sort; documents without a value come last whatever the order. -/
def compareField (name : String) (descending : Bool) : ProductDocument → ProductDocument → Ordering :=
  if name = "_score" then directed descending (compareOn engine.score)
  else if name = "id" then directed descending (compareOn ProductDocument.id)
  else if name = "createdAt" then directed descending (compareOn fun doc => engine.millis doc.createdAt)
  else
    compareLex (compareOn fun doc => (doc.numeric name).isNone)
      (directed descending (compareOn fun doc => (doc.numeric name).getD 0))

/-- The order of a sort. -/
def compareSort (sort : Json) : ProductDocument → ProductDocument → Ordering :=
  lexicographic (sort.items.flatMap fun criterion => criterion.entries.map fun entry =>
    engine.compareField entry.1 (((entry.2.get "order").bind Json.text?) = some "desc"))

/-- The hits in their order, before they are cut into pages. -/
def ranked (catalogue : List ProductDocument) (body : Json) : List ProductDocument :=
  rank (engine.compareSort ((body.get "sort").getD .null)) (engine.selected catalogue body)

def respond (catalogue : List ProductDocument) (body : Json) : SearchResponse :=
  let docs := engine.matching catalogue body
  let aggregation (name : String) := (body.get "aggregations").bind (·.get name)
  { total := .object (some (.ofRat (engine.selected catalogue body).length))
    hits := (page (natOf (body.get "from")) (natOf (body.get "size")) (engine.ranked catalogue body)).map
      fun doc => { id := some doc.id, source := some doc, score := some (.ofRat (engine.score doc)) }
    aggregations := some
      { categories := (aggregation "categories").bind (termsAgg docs)
        subcategories := (aggregation "subcategories").bind (termsAgg docs)
        locations := (aggregation "locations").bind (termsAgg docs)
        priceRanges := (aggregation "priceRanges").bind (rangeAgg docs) }
    suggest := (body.get "suggest").map engine.suggest }

/-- The client of an index that holds a catalogue. -/
def client (catalogue : List ProductDocument) : SearchClient String := fun _ text =>
  match Json.parse text with
  | some body => .ok (engine.respond catalogue body)
  | none => .error "parsing_exception"

end SearchEngine

end AdvancedSearch
