import AdvancedSearch.Search.Outcome
import AdvancedSearch.Search.Query

/-!
# The search adapter

One request for a page of hits, its facets and, on low recall, suggestions. The client is a parameter:
what Elasticsearch answers to a body sent to an index.
-/

namespace AdvancedSearch

open Js

/-- `client.search`: from an index and the text of a body. -/
abbrev SearchClient (ε : Type) := String → String → Except ε SearchResponse

/-- The fields of `ElasticsearchProductSearchAdapter`. -/
structure SearchAdapter where
  index : String
  relevance : RelevanceConfig
  maxResultWindow : Number
  suggestMaxHits : Number

/-- The constructor. -/
def SearchAdapter.of (config : AppConfiguration) : SearchAdapter where
  index := config.elasticsearch.index
  relevance := config.relevance
  maxResultWindow := config.search.maxResultWindow
  suggestMaxHits := config.search.suggestMaxHits

namespace SearchAdapter

variable {ε : Type}

/-- The window of a page, unless it is too deep. -/
def resolveWindow (adapter : SearchAdapter) (page pageSize : Number) :
    Except (SearchError ε) (Number × Number) :=
  let from_ := (page.sub (.ofRat 1)).times pageSize
  if Number.lt adapter.maxResultWindow (from_.add pageSize) then
    .error (.resultWindowExceeded adapter.maxResultWindow
      ("Requested result window " ++ (from_.add pageSize).text ++ " exceeds max_result_window " ++
        adapter.maxResultWindow.text))
  else .ok (from_, pageSize)

/-- Suggestions on low recall only. -/
def resolveSuggestions (adapter : SearchAdapter) (query : Option String) (total : Number)
    (suggest : Option SuggestBlock) : SearchSuggestions :=
  if query.getD "" = "" ∨ Number.lt adapter.suggestMaxHits total then
    { didYouMean := none, related := [] }
  else toSuggestions suggest

/-- What a response becomes. -/
def toOutcome (adapter : SearchAdapter) (query : Option String) (response : SearchResponse) :
    Except (SearchError ε) SearchOutcome := do
  let total := totalHits response.total
  let items ← response.hits.mapM toProductSummary
  return {
    items := items
    total := total
    facets := toFacets response.aggregations
    suggestions := adapter.resolveSuggestions query total response.suggest }

def search (adapter : SearchAdapter) (client : SearchClient ε) (criteria : SearchCriteria) :
    Except (SearchError ε) SearchOutcome := do
  let (from_, size) ← adapter.resolveWindow criteria.page criteria.pageSize
  let request := buildSearchRequest criteria adapter.relevance from_ size
  match client adapter.index request.stringify with
  | .error error => .error (.client error)
  | .ok response => adapter.toOutcome criteria.query response

end SearchAdapter

end AdvancedSearch
