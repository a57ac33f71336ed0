import AdvancedSearch.Search.Adapter

/-!
# The scope of a cache entry

Cache keys carry a digest of the configuration that answers were computed from: the index and the
relevance settings. Two configurations with the same scope send the same requests and read the answers
alike exactly when they also agree on the result window and on when to show suggestions
(`scope_separates`).
-/

namespace AdvancedSearch

open Js

/-! ## The digest -/

def SCOPE_LENGTH : ℕ := 8

/-- `sha1` answers in hexadecimal. -/
def digest (sha1 : String → String) (parts : Json) : String :=
  String.ofList ((sha1 parts.stringify).toList.take SCOPE_LENGTH)

/-- What the relevance settings are digested as. -/
def RelevanceConfig.json (relevance : RelevanceConfig) : Json :=
  .object [("popularityFactor", toJson relevance.popularityFactor),
    ("recencyScale", .string relevance.recencyScale),
    ("recencyDecay", toJson relevance.recencyDecay)]

def scopeParts (config : AppConfiguration) : Json :=
  .object [("index", .string config.elasticsearch.index), ("relevance", config.relevance.json)]

/-- Search results depend on the index they came from and on how they were ranked. -/
def searchCacheScope (sha1 : String → String) (config : AppConfiguration) : String :=
  digest sha1 (scopeParts config)

theorem scopeParts_ordered (config : AppConfiguration) : (scopeParts config).Ordered := by
  have hrelevance : config.relevance.json.Ordered :=
    Json.ordered_object ["popularityFactor", "recencyScale", "recencyDecay"] rfl (by decide)
      ⟨toJson_ordered _, trivial, toJson_ordered _, trivial⟩
  exact Json.ordered_object ["index", "relevance"] rfl (by decide) ⟨trivial, hrelevance, trivial⟩

/-- What the scope covers of a configuration, collisions aside. -/
theorem covered_of_scope_eq {sha1 : String → String} {c₁ c₂ : AppConfiguration}
    (hsha : searchCacheScope sha1 c₁ = searchCacheScope sha1 c₂ →
      (scopeParts c₁).stringify = (scopeParts c₂).stringify)
    (h : searchCacheScope sha1 c₁ = searchCacheScope sha1 c₂) :
    c₁.elasticsearch.index = c₂.elasticsearch.index ∧ c₁.relevance.json = c₂.relevance.json := by
  have hparts := Json.stringify_injective (scopeParts_ordered c₁) (scopeParts_ordered c₂) (hsha h)
  unfold scopeParts at hparts
  simpa using hparts

/-- The body depends on the relevance settings through their JSON. -/
theorem buildSearchRequest_congr {r₁ r₂ : RelevanceConfig} (h : r₁.json = r₂.json)
    (criteria : SearchCriteria) (from_ size : Number) :
    buildSearchRequest criteria r₁ from_ size = buildSearchRequest criteria r₂ from_ size := by
  unfold RelevanceConfig.json at h
  simp only [Json.object.injEq, List.cons.injEq, Prod.mk.injEq, true_and, Json.string.injEq,
    and_true] at h
  obtain ⟨hfactor, hscale, hdecay⟩ := h
  unfold buildSearchRequest buildTextQuery
  rw [hfactor, hscale, hdecay]

/-! ## What the scope leaves out -/

namespace SearchAdapter

variable {ε : Type}

/-- The same requests, windows and thresholds: the same results. -/
theorem search_congr {a₁ a₂ : SearchAdapter} (hindex : a₁.index = a₂.index)
    (hrelevance : a₁.relevance.json = a₂.relevance.json)
    (hwindow : a₁.maxResultWindow = a₂.maxResultWindow)
    (hhits : a₁.suggestMaxHits = a₂.suggestMaxHits) (client : SearchClient ε)
    (criteria : SearchCriteria) : a₁.search client criteria = a₂.search client criteria := by
  unfold search resolveWindow toOutcome resolveSuggestions
  simp only [hindex, hwindow, hhits, buildSearchRequest_congr hrelevance]

/-- A first page. -/
def firstPage (query : Option String) (size : Number) : SearchCriteria where
  query := query
  filters :=
    { category := none, subcategories := none, location := none, minPrice := none, maxPrice := none }
  sort := .relevance
  order := .desc
  page := .ofRat 1
  pageSize := size

/-- The window of a first page ends at its size. -/
theorem search_firstPage (a : SearchAdapter) (client : SearchClient ε) (query : Option String)
    (d : Double) :
    a.search client (firstPage query (.finite d)) =
      if Number.lt a.maxResultWindow (.finite d) then
        .error (.resultWindowExceeded a.maxResultWindow
          ("Requested result window " ++ (Number.finite d).text ++ " exceeds max_result_window " ++
            a.maxResultWindow.text))
      else
        match client a.index (buildSearchRequest (firstPage query (.finite d)) a.relevance
          (.finite Number.zero) (.finite d)).stringify with
        | .error error => .error (.client error)
        | .ok response => a.toOutcome query response := by
  have hfrom : ((Number.ofRat 1).sub (.ofRat 1)).times (.finite d) = .finite Number.zero := by
    rw [show (Number.ofRat 1).sub (.ofRat 1) = .finite Number.zero by decide +kernel,
      Number.finite_zero_times]
  unfold search resolveWindow
  simp only [show (firstPage query (.finite d)).page = .ofRat 1 from rfl,
    show (firstPage query (.finite d)).pageSize = .finite d from rfl,
    show (firstPage query (.finite d)).query = query from rfl, hfrom, Number.finite_zero_add]
  split_ifs <;> rfl

/-- A response without hits, for as many matches as given, with a suggestion. -/
def misspelt (total : Number) : SearchResponse where
  total := .number total
  hits := []
  aggregations := none
  suggest := some { didYouMean := some [{ options := some ["drill"] }], related := none }

/-- A page that one window holds and the other does not. -/
theorem not_lt_window_of_search_eq {a₁ a₂ : SearchAdapter} {d : Double}
    (hd : a₂.maxResultWindow = .finite d)
    (h : ∀ (client : SearchClient ε) criteria, a₁.search client criteria = a₂.search client criteria) :
    Number.lt a₁.maxResultWindow a₂.maxResultWindow = false := by
  rw [Bool.eq_false_iff]
  intro hlt
  have heq := h (fun _ _ => .ok (misspelt (.ofRat 0))) (firstPage none (.finite d))
  rw [search_firstPage, search_firstPage, ← hd, if_pos hlt, hd, Number.lt_self,
    if_neg Bool.false_ne_true] at heq
  cases heq

/-- A number of matches for which one shows suggestions and the other does not. -/
theorem not_lt_hits_of_search_eq {a₁ a₂ : SearchAdapter}
    (h₁ : Number.lt a₁.maxResultWindow (.finite Number.one) = false)
    (h₂ : Number.lt a₂.maxResultWindow (.finite Number.one) = false)
    (h : ∀ (client : SearchClient ε) criteria, a₁.search client criteria = a₂.search client criteria) :
    Number.lt a₁.suggestMaxHits a₂.suggestMaxHits = false := by
  rw [Bool.eq_false_iff]
  intro hlt
  have heq := h (fun _ _ => .ok (misspelt a₂.suggestMaxHits)) (firstPage (some "dril") (.finite Number.one))
  rw [search_firstPage, search_firstPage, h₁, h₂] at heq
  have hsuggestions : (a₁.resolveSuggestions (some "dril") a₂.suggestMaxHits
      (misspelt a₂.suggestMaxHits).suggest).didYouMean =
      (a₂.resolveSuggestions (some "dril") a₂.suggestMaxHits
        (misspelt a₂.suggestMaxHits).suggest).didYouMean := by
    exact congrArg (·.suggestions.didYouMean) (Except.ok.inj heq)
  unfold resolveSuggestions at hsuggestions
  rw [if_pos (Or.inr hlt), if_neg (by simp)] at hsuggestions
  cases hsuggestions

end SearchAdapter

/-! ## The result window and the threshold -/

theorem IsPositiveInt.not_lt_one {x : Number} (h : IsPositiveInt x) :
    Number.lt x (.finite Number.one) = false := by
  obtain ⟨⟨d, rfl, z, hz, -⟩, hpos⟩ := h
  rw [Number.ofRat_zero, Number.lt_finite, decide_eq_true_eq, hz] at hpos
  rw [Number.lt_finite, decide_eq_false_iff_not, hz, not_lt]
  have h0 : (0 : ℚ) < z := hpos
  have h1 : 0 < z := by exact_mod_cast h0
  have h2 : ((1 : ℤ) : ℚ) ≤ z := by exact_mod_cast h1
  simpa [Number.one] using h2

/-- **What the scope separates.** Two accepted configurations with the same scope answer every search
alike, in every state of a cluster, exactly when they show suggestions up to the same number of hits
and have the same result window. -/
theorem scope_separates {ε : Type} (sha1 : String → String) {env₁ env₂ : Env} (h₁ : env₁.Accepted)
    (h₂ : env₂.Accepted)
    (hsha : searchCacheScope sha1 (buildConfig env₁) = searchCacheScope sha1 (buildConfig env₂) →
      (scopeParts (buildConfig env₁)).stringify = (scopeParts (buildConfig env₂)).stringify)
    (hscope : searchCacheScope sha1 (buildConfig env₁) = searchCacheScope sha1 (buildConfig env₂)) :
    (∀ (client : SearchClient ε) criteria,
      (SearchAdapter.of (buildConfig env₁)).search client criteria =
        (SearchAdapter.of (buildConfig env₂)).search client criteria) ↔
    env₁.SEARCH_SUGGEST_MAX_HITS = env₂.SEARCH_SUGGEST_MAX_HITS ∧
      env₁.SEARCH_MAX_RESULT_WINDOW = env₂.SEARCH_MAX_RESULT_WINDOW := by
  constructor
  · intro h
    obtain ⟨⟨s₁, hs₁, -⟩, -⟩ := h₁.suggestMaxHits
    obtain ⟨⟨s₂, hs₂, -⟩, -⟩ := h₂.suggestMaxHits
    obtain ⟨⟨w₁, hw₁, -⟩, -⟩ := h₁.maxResultWindow
    obtain ⟨⟨w₂, hw₂, -⟩, -⟩ := h₂.maxResultWindow
    have hback : ∀ (client : SearchClient ε) criteria,
        (SearchAdapter.of (buildConfig env₂)).search client criteria =
          (SearchAdapter.of (buildConfig env₁)).search client criteria :=
      fun client criteria => (h client criteria).symm
    have ho₁ := h₁.maxResultWindow.not_lt_one
    have ho₂ := h₂.maxResultWindow.not_lt_one
    constructor
    · have hlt := SearchAdapter.not_lt_hits_of_search_eq ho₁ ho₂ h
      have hgt := SearchAdapter.not_lt_hits_of_search_eq ho₂ ho₁ hback
      change Number.lt env₁.SEARCH_SUGGEST_MAX_HITS env₂.SEARCH_SUGGEST_MAX_HITS = false at hlt
      change Number.lt env₂.SEARCH_SUGGEST_MAX_HITS env₁.SEARCH_SUGGEST_MAX_HITS = false at hgt
      rw [hs₁, hs₂] at *
      exact Number.finite_eq_of_not_lt hlt hgt
    · have hlt := SearchAdapter.not_lt_window_of_search_eq hw₂ h
      have hgt := SearchAdapter.not_lt_window_of_search_eq hw₁ hback
      change Number.lt env₁.SEARCH_MAX_RESULT_WINDOW env₂.SEARCH_MAX_RESULT_WINDOW = false at hlt
      change Number.lt env₂.SEARCH_MAX_RESULT_WINDOW env₁.SEARCH_MAX_RESULT_WINDOW = false at hgt
      rw [hw₁, hw₂] at *
      exact Number.finite_eq_of_not_lt hlt hgt
  · rintro ⟨hhits, hwindow⟩ client criteria
    obtain ⟨hindex, hrelevance⟩ := covered_of_scope_eq hsha hscope
    exact SearchAdapter.search_congr hindex hrelevance hwindow hhits client criteria

/-- The same deployment with another TTL. -/
def shortLived : Env := { deployment 5 with CACHE_TTL_SEARCH := .ofRat (60 : ℕ) }

theorem shortLived_accepted : shortLived.Accepted :=
  { deployment_accepted (n := 5) (by norm_num) with
    searchTtl :=
      ⟨isInt_ofNat (by norm_num), show (Number.ofRat (60 : ℕ)).isNegative = false by decide +kernel⟩ }

/-- Another TTL answers alike. -/
theorem scope_separates_ttl :
    (fun (client : SearchClient String) => (SearchAdapter.of (buildConfig (deployment 5))).search client) =
      fun client => (SearchAdapter.of (buildConfig shortLived)).search client := by
  funext client criteria
  exact (scope_separates id (deployment_accepted (by norm_num)) shortLived_accepted (fun _ => rfl)
    rfl).mpr ⟨rfl, rfl⟩ client criteria

/-- Another threshold answers differently under the same scope. -/
theorem scope_shared : (deployment 5).Accepted ∧ (deployment 10).Accepted ∧
    (∀ sha1, searchCacheScope sha1 (buildConfig (deployment 5)) =
      searchCacheScope sha1 (buildConfig (deployment 10))) ∧
    ∃ (client : SearchClient String) (criteria : SearchCriteria),
      (SearchAdapter.of (buildConfig (deployment 5))).search client criteria ≠
        (SearchAdapter.of (buildConfig (deployment 10))).search client criteria := by
  refine ⟨deployment_accepted (by norm_num), deployment_accepted (by norm_num), fun _ => rfl,
    fun _ _ => .ok (SearchAdapter.misspelt (.ofRat 10)),
    SearchAdapter.firstPage (some "dril") (.ofRat 1), ?_⟩
  decide +kernel

end AdvancedSearch
