import AdvancedSearch.Search.Pages

/-!
# Suggestions on their own

`GET /suggest` asks for suggestions alone, `GET /search` along with its hits, and shows them on low
recall only. Over one index both suggest the same (`suggestions_agree`).
-/

namespace AdvancedSearch

open Js

/-! ## The adapter -/

/-- The field of `ElasticsearchQuerySuggestionAdapter`. -/
structure QuerySuggestionAdapter where
  index : String

namespace QuerySuggestionAdapter

/-- The constructor. -/
def of (config : AppConfiguration) : QuerySuggestionAdapter where
  index := config.elasticsearch.index

/-- Only suggestions, no hits. -/
def request (text : String) : Json :=
  .object [("size", .number (.ofNat 0)), ("suggest", buildSuggest text)]

def suggest {ε : Type} (adapter : QuerySuggestionAdapter) (client : SearchClient ε) (text : String) :
    Except ε SearchSuggestions := do
  let response ← client adapter.index (request text).stringify
  return toSuggestions response.suggest

end QuerySuggestionAdapter

/-! ## Both endpoints -/

variable (engine : SearchEngine) (catalogue : List ProductDocument)

/-- What the engine suggests for a text. -/
theorem suggest_engine (adapter : QuerySuggestionAdapter) (text : String) :
    adapter.suggest (engine.client catalogue) text =
      .ok (toSuggestions (some (engine.suggest (buildSuggest text)))) := by
  have hordered : (QuerySuggestionAdapter.request text).Ordered :=
    Json.ordered_object ["size", "suggest"] rfl (by decide) ⟨trivial, buildSuggest_ordered text, trivial⟩
  have hclient : engine.client catalogue adapter.index (QuerySuggestionAdapter.request text).stringify =
      .ok (engine.respond catalogue (QuerySuggestionAdapter.request text)) := by
    unfold SearchEngine.client
    rw [Json.parse_stringify hordered]
  unfold QuerySuggestionAdapter.suggest
  rw [hclient]
  rfl

/-- A search with a query carries the block of its text. -/
theorem get_suggest {criteria : SearchCriteria} {text : String} (hquery : criteria.query = some text)
    (htext : text ≠ "") (relevance : RelevanceConfig) (from_ size : Number) :
    (buildSearchRequest criteria relevance from_ size).get "suggest" = some (buildSuggest text) := by
  unfold buildSearchRequest
  rw [hquery]
  dsimp only
  rw [if_neg htext]
  split_ifs <;> rfl

/-- **Both endpoints suggest the same.** Whatever an index holds, whatever page of a search is asked for
and however it is filtered and sorted: when it is answered, it shows what the suggestion endpoint answers
for its text if no more documents match than `suggestMaxHits`, and no suggestion otherwise. -/
theorem suggestions_agree (config : AppConfiguration) {criteria : SearchCriteria} {text : String}
    (hquery : criteria.query = some text) (htext : text ≠ "") {outcome : SearchOutcome}
    (h : (SearchAdapter.of config).search (engine.client catalogue) criteria = .ok outcome) :
    ∃ suggestions, (QuerySuggestionAdapter.of config).suggest (engine.client catalogue) text =
        .ok suggestions ∧
      outcome.suggestions =
        if Number.lt config.search.suggestMaxHits outcome.total then { didYouMean := none, related := [] }
        else suggestions := by
  refine ⟨_, suggest_engine engine catalogue _ text, ?_⟩
  unfold SearchAdapter.search at h
  cases hwindow : ((SearchAdapter.of config).resolveWindow criteria.page criteria.pageSize :
      Except (SearchError String) (Number × Number)) with
  | error error =>
    rw [hwindow] at h
    cases h
  | ok window =>
    obtain ⟨from_, size⟩ := window
    rw [hwindow] at h
    simp only [bind, Except.bind, client_request] at h
    unfold SearchAdapter.toOutcome at h
    cases hitems : ((engine.respond catalogue (buildSearchRequest criteria (SearchAdapter.of config).relevance
        from_ size)).hits.mapM toProductSummary : Except (SearchError String) _) with
    | error error =>
      rw [hitems] at h
      cases h
    | ok items =>
      rw [hitems] at h
      cases h
      have hblock : (engine.respond catalogue (buildSearchRequest criteria (SearchAdapter.of config).relevance
          from_ size)).suggest = some (engine.suggest (buildSuggest text)) := by
        unfold SearchEngine.respond
        dsimp only
        rw [get_suggest hquery htext]
        rfl
      dsimp only
      unfold SearchAdapter.resolveSuggestions
      rw [hblock, hquery]
      dsimp only [Option.getD_some]
      exact ite_congr (by simp [htext, SearchAdapter.of]) (fun _ => rfl) fun _ => rfl

/-! ### A misspelt search -/

/-- An engine that corrects a text and repeats a related one. -/
def corrects : SearchEngine :=
  { matchAll with
    suggest := fun _ =>
      { didYouMean := some [{ options := some ["drill"] }]
        related := some [{ options := some ["drill", "drills"] }, { options := some ["drill"] }] } }

def misspeltSearch : SearchCriteria := { browse 20 with query := some "dril", sort := .relevance }

/-- Nothing matches, and the search shows what the suggestion endpoint answers. -/
theorem suggestions_agree_dril : ∃ outcome,
    (SearchAdapter.of (buildConfig (deployment 5))).search (corrects.client []) misspeltSearch =
      .ok outcome ∧
    outcome.suggestions = { didYouMean := some "drill", related := ["drill", "drills"] } := by
  have hwindow : (SearchAdapter.of (buildConfig (deployment 5))).resolveWindow (.ofRat (1 : ℕ))
      misspeltSearch.pageSize =
        (.ok (.ofRat 0, .ofRat (20 : ℕ)) : Except (SearchError String) (Number × Number)) := by
    decide +kernel
  obtain ⟨outcome, hsearch, htotal, -⟩ := search_of_window corrects [] misspeltSearch hwindow
  obtain ⟨suggestions, hsuggest, hshown⟩ := suggestions_agree corrects [] (buildConfig (deployment 5))
    rfl (show "dril" ≠ "" by decide) hsearch
  rw [suggest_engine] at hsuggest
  cases hsuggest
  refine ⟨outcome, hsearch, hshown.trans ?_⟩
  rw [htotal]
  decide +kernel

end AdvancedSearch
