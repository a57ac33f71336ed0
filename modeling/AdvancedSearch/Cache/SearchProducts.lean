import AdvancedSearch.Cache.Key
import AdvancedSearch.Cache.Payload
import AdvancedSearch.Cache.Scope
import AdvancedSearch.Cache.Transparent

/-!
# Searching through the cache

`SearchProductsUseCase` on validated parameters: whatever was stored for one request and served to
another is what the other would have been answered (`search_transparent`).
-/

namespace AdvancedSearch

open Js

/-- The fields of the use case, and what its calls share. -/
structure SearchProductsUseCase (ε : Type) where
  productSearch : SearchAdapter
  client : SearchClient ε
  sha1 : String → String
  ttlSeconds : Number
  cacheScope : String

namespace SearchProductsUseCase

variable {ε ι : Type}

/-- The constructor. -/
def of (sha1 : String → String) (client : SearchClient ε) (config : AppConfiguration) :
    SearchProductsUseCase ε where
  productSearch := SearchAdapter.of config
  client := client
  sha1 := sha1
  ttlSeconds := config.cache.searchTtlSeconds
  cacheScope := searchCacheScope sha1 config

/-- The calls of `cacheAside` for the criteria of a run. -/
def execute (useCase : SearchProductsUseCase ε) (criteria : ι → SearchCriteria) :
    CachedCalls ι SearchOutcome (SearchError ε) where
  request c :=
    { key := buildSearchCacheKey useCase.sha1 (criteria c) useCase.cacheScope
      ttlSeconds := useCase.ttlSeconds }
  load c := useCase.productSearch.search useCase.client (criteria c)
  json := SearchOutcome.json
  schema := searchOutcomeSchema

variable {useCase : SearchProductsUseCase ε} {criteria : ι → SearchCriteria}

/-- What was stored for a call is served as it was. -/
theorem execute_served (value served : SearchOutcome)
    (h : (Json.parse ((useCase.execute criteria).json value).stringify).bind
      (useCase.execute criteria).schema = some served) : served = value := by
  rw [show (useCase.execute criteria).json value = value.json from rfl,
    show (useCase.execute criteria).schema = searchOutcomeSchema from rfl] at h
  exact served_stored h

/-- Calls with one key are answered alike. -/
theorem execute_load
    (hclient : ∀ index b b', Reordered b b' →
      useCase.client index b.stringify = useCase.client index b'.stringify)
    (hfinite : ∀ c, (criteria c).Finite)
    (hsha : ∀ c l, useCase.sha1 (normalize (criteria c)).stringify =
        useCase.sha1 (normalize (criteria l)).stringify →
      (normalize (criteria c)).stringify = (normalize (criteria l)).stringify)
    (c l : ι) (hkey : (useCase.execute criteria).callers.key l = (useCase.execute criteria).callers.key c) :
    (useCase.execute criteria).load l = (useCase.execute criteria).load c := by
  have halike : (criteria l).Alike (criteria c) :=
    alike_of_key_eq (hfinite l) (hfinite c) (hsha l c) hkey
  exact useCase.productSearch.search_alike hclient halike

end SearchProductsUseCase

/-- **The search cache is transparent.** In every run of searches with validated parameters, whatever
Redis answers and in whatever order things settle, a search that settles has settled with the outcome or
the rejection that the adapter has for its own criteria. -/
theorem search_transparent {ε ι : Type} [DecidableEq ι] (sha1 : String → String) {env : Env}
    (henv : env.Accepted) {client : SearchClient ε}
    (hclient : ∀ index b b', Reordered b b' → client index b.stringify = client index b'.stringify)
    {dto : ι → SearchQueryDto} (hdto : ∀ c, (dto c).Valid) {criteria : ι → SearchCriteria}
    (hcriteria : ∀ c, criteria c = toSearchCriteria (dto c) (buildConfig env).search)
    (hsha : ∀ c l, sha1 (normalize (criteria c)).stringify = sha1 (normalize (criteria l)).stringify →
      (normalize (criteria c)).stringify = (normalize (criteria l)).stringify)
    {events : List (Unit × FleetEvent ι SearchOutcome (SearchError ε))}
    {s : FleetState Unit ι SearchOutcome (SearchError ε)}
    (h : Machine.run
      ((SearchProductsUseCase.of sha1 client (buildConfig env)).execute criteria).alone.step
      Fleet.start events = some s)
    {c : ι} {result : Except (SearchError ε) SearchOutcome}
    (hc : (s.flights ()).call c = .settled result) :
    result = (SearchAdapter.of (buildConfig env)).search client (criteria c) := by
  have hfinite : ∀ c, (criteria c).Finite := by
    intro c
    rw [hcriteria c]
    exact toSearchCriteria_finite (hdto c) henv
  exact CachedCalls.transparent (SearchProductsUseCase.execute_load hclient hfinite hsha)
    SearchProductsUseCase.execute_served h hc

/-! ### A shared answer -/

/-- A misspelt search, asked with a blank and the subcategories the other way round, and again. -/
def drilDto : Fin 3 → SearchQueryDto
  | 0 => dril " dril" ["Saws", "Drills"]
  | _ => dril "dril" ["Drills", "Saws"]
where
  dril (q : String) (subcategory : List String) : SearchQueryDto :=
    { q := q, category := none, subcategory := subcategory, location := none, minPrice := none
      maxPrice := none, sort := none, order := none, page := none, pageSize := none }

/-- An index in which nothing matches. -/
def drilClient : SearchClient String := fun index _ =>
  if index = "products" then .ok (SearchAdapter.misspelt (.finite Number.zero))
  else .error "index_not_found_exception"

def drilOutcome : SearchOutcome where
  items := []
  total := .finite Number.zero
  facets := { categories := [], subcategories := [], locations := [], priceRanges := [] }
  suggestions := { didYouMean := some "drill", related := [] }

def drilCriteria (c : Fin 3) : SearchCriteria :=
  toSearchCriteria (drilDto c) (buildConfig (deployment 5)).search

def drilCalls : CachedCalls (Fin 3) SearchOutcome (SearchError String) :=
  (SearchProductsUseCase.of id drilClient (buildConfig (deployment 5))).execute drilCriteria

/-- The second search joins the load of the first; the third finds what that stored. -/
def drilEvents : List (Unit × FleetEvent (Fin 3) SearchOutcome (SearchError String)) :=
  [.flight (.call 0), .get 0 (.ok none), .flight (.afterRead 0), .flight (.call 1),
    .get 1 (.error "timeout"), .flight (.afterRead 1), .load 0, .flight (.afterLoad 0 (1 / 2)),
    .store 0, .flight (.set 0 (.error "timeout")), .flight (.afterWrite 0), .flight (.clear 0),
    .flight (.settle 1), .flight (.call 2), .get 2 (.ok (some drilOutcome.json.stringify)),
    .flight (.afterRead 2)].map ((), ·)

theorem drilDto_valid : ∀ c, (drilDto c).Valid
  | 0 | 1 | 2 => by
    constructor <;> decide

/-- The second and the third search are answered as they would have been. -/
theorem search_transparent_dril : ∃ s,
    Machine.run drilCalls.alone.step Fleet.start drilEvents = some s ∧
      (s.flights ()).call 1 = .settled (.ok drilOutcome) ∧
      (s.flights ()).call 2 = .settled (.ok drilOutcome) ∧
      (SearchAdapter.of (buildConfig (deployment 5))).search drilClient (drilCriteria 1) =
        .ok drilOutcome ∧
      (SearchAdapter.of (buildConfig (deployment 5))).search drilClient (drilCriteria 2) =
        .ok drilOutcome := by
  have hrun : ((Machine.run drilCalls.alone.step Fleet.start drilEvents).map fun s =>
      ((s.flights ()).call 1, (s.flights ()).call 2)) =
      some (.settled (.ok drilOutcome), .settled (.ok drilOutcome)) := by decide +kernel
  obtain ⟨s, hs, heq⟩ := Option.map_eq_some_iff.mp hrun
  obtain ⟨h₁, h₂⟩ := Prod.mk.inj heq
  have hanswer : ∀ {c : Fin 3} {result}, (s.flights ()).call c = .settled result → result =
      (SearchAdapter.of (buildConfig (deployment 5))).search drilClient (drilCriteria c) :=
    search_transparent id (deployment_accepted (by norm_num)) (fun _ _ _ _ => rfl) drilDto_valid
      (fun _ => rfl) (fun _ _ h => h) hs
  exact ⟨s, hs, h₁, h₂, (hanswer h₁).symm, (hanswer h₂).symm⟩

end AdvancedSearch
