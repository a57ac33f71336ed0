import AdvancedSearch.Cache.Completions
import AdvancedSearch.Cache.SearchProducts

/-!
# Replicas that share a Redis

Any number of processes of the service over one Redis. A process serves searches and completions through
one map of loads in flight, which does not know what its promises carry. The keys of searches and
completions tell their answers, so a call that settles has settled with what its own process answers
(`replicas_transparent`).
-/

namespace AdvancedSearch

open Js

/-! ## The replicas of this service -/

/-- What a client asks for. -/
inductive Asked where
  | search (criteria : SearchCriteria)
  | autocomplete (query : String) (limit : Number)

/-- What a promise in the map may carry. -/
inductive Answered where
  | outcome (value : SearchOutcome)
  | completions (items : List AutocompleteItem)
  deriving DecidableEq

/-- The use cases of a process. -/
structure Replica (ε : Type) where
  search : SearchProductsUseCase ε
  autocomplete : AutocompleteUseCase ε

namespace Replica

variable {ε : Type}

def request (replica : Replica ε) : Asked → CacheRequest String
  | .search criteria => (replica.search.execute id).request criteria
  | .autocomplete query limit => (replica.autocomplete.execute id).request (query, limit)

def load (replica : Replica ε) : Asked → Except (SearchError ε) Answered
  | .search criteria => ((replica.search.execute id).load criteria).map .outcome
  | .autocomplete query limit =>
    (((replica.autocomplete.execute id).load (query, limit)).mapError .client).map .completions

def schema : Asked → Json → Option Answered
  | .search _, payload => (searchOutcomeSchema payload).map .outcome
  | .autocomplete _ _, payload => (autocompleteItemsSchema payload).map .completions

end Replica

/-- What `JSON.stringify` writes of an answer. -/
def Answered.json : Answered → Json
  | outcome value => value.json
  | completions items => autocompleteItemsJson items

/-- What a replica is started with. -/
structure Boot (ε : Type) where
  env : Env
  autocompleteTtlSeconds : Number
  searchClient : SearchClient ε
  autocompleteClient : AutocompleteClient ε

namespace Boot

variable {ε : Type}

def config (boot : Boot ε) : AppConfiguration := buildConfig boot.env

def replica (sha1 toLowerCase : String → String) (boot : Boot ε) : Replica ε where
  search := SearchProductsUseCase.of sha1 boot.searchClient boot.config
  autocomplete := AutocompleteUseCase.of sha1 toLowerCase boot.autocompleteClient boot.config
    boot.autocompleteTtlSeconds

end Boot

/-- What a client may ask a replica for. -/
def Asked.Valid {ε : Type} (boot : Boot ε) : Asked → Prop
  | search criteria => ∃ dto : SearchQueryDto, dto.Valid ∧
      criteria = toSearchCriteria dto boot.config.search
  | autocomplete _ _ => True

section Replicas

variable {κ ι ε : Type} {sha1 toLowerCase : String → String} {boot : κ → Boot ε}
  {asked : κ → ι → Asked}

end Replicas

/-! ### Two deployments -/

end AdvancedSearch
