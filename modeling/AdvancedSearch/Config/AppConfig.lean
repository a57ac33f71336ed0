import AdvancedSearch.Lib.Number

/-!
# Configuration

The part of the environment that searching and its cache read, what `validateEnv` accepts of it, and
`buildConfig`.
-/

namespace AdvancedSearch

open Js

/-- The parsed environment. -/
structure Env where
  ELASTICSEARCH_INDEX : String
  CACHE_TTL_SEARCH : Number
  SEARCH_DEFAULT_PAGE_SIZE : Number
  SEARCH_MAX_PAGE_SIZE : Number
  SEARCH_SUGGEST_MAX_HITS : Number
  SEARCH_MAX_RESULT_WINDOW : Number
  RELEVANCE_POPULARITY_FACTOR : Number
  RELEVANCE_RECENCY_SCALE : String
  RELEVANCE_RECENCY_DECAY : Number

/-- `z.number().int()`: the safe integers. -/
def IsInt (x : Number) : Prop := ∃ d : Double, x = .finite d ∧ ∃ z : ℤ, d.value = z ∧ |z| < 2 ^ 53

/-- `z.number().int().positive()`. -/
def IsPositiveInt (x : Number) : Prop := IsInt x ∧ Number.lt (.ofRat 0) x

/-- `z.number().int().nonnegative()`. -/
def IsNonnegativeInt (x : Number) : Prop := IsInt x ∧ x.isNegative = false

/-- What `envSchema` accepts. -/
structure Env.Accepted (env : Env) : Prop where
  index : env.ELASTICSEARCH_INDEX ≠ ""
  searchTtl : IsNonnegativeInt env.CACHE_TTL_SEARCH
  defaultPageSize : IsPositiveInt env.SEARCH_DEFAULT_PAGE_SIZE
  maxPageSize : IsPositiveInt env.SEARCH_MAX_PAGE_SIZE
  suggestMaxHits : IsNonnegativeInt env.SEARCH_SUGGEST_MAX_HITS
  maxResultWindow : IsPositiveInt env.SEARCH_MAX_RESULT_WINDOW
  popularityFactor : env.RELEVANCE_POPULARITY_FACTOR.isFinite ∧
    env.RELEVANCE_POPULARITY_FACTOR.isNegative = false
  recencyScale : env.RELEVANCE_RECENCY_SCALE ≠ ""
  recencyDecay : Number.lt (.ofRat 0) env.RELEVANCE_RECENCY_DECAY ∧
    Number.lt env.RELEVANCE_RECENCY_DECAY (.ofRat 1)
  pageSizes : Number.lt env.SEARCH_MAX_PAGE_SIZE env.SEARCH_DEFAULT_PAGE_SIZE = false

structure ElasticsearchConfig where
  index : String

structure CacheConfig where
  searchTtlSeconds : Number

structure SearchConfig where
  defaultPageSize : Number
  maxPageSize : Number
  suggestMaxHits : Number
  maxResultWindow : Number

structure RelevanceConfig where
  popularityFactor : Number
  recencyScale : String
  recencyDecay : Number

structure AppConfiguration where
  elasticsearch : ElasticsearchConfig
  cache : CacheConfig
  search : SearchConfig
  relevance : RelevanceConfig

/-- Maps the environment into the namespaced configuration. -/
def buildConfig (env : Env) : AppConfiguration where
  elasticsearch := { index := env.ELASTICSEARCH_INDEX }
  cache := { searchTtlSeconds := env.CACHE_TTL_SEARCH }
  search :=
    { defaultPageSize := env.SEARCH_DEFAULT_PAGE_SIZE
      maxPageSize := env.SEARCH_MAX_PAGE_SIZE
      suggestMaxHits := env.SEARCH_SUGGEST_MAX_HITS
      maxResultWindow := env.SEARCH_MAX_RESULT_WINDOW }
  relevance :=
    { popularityFactor := env.RELEVANCE_POPULARITY_FACTOR
      recencyScale := env.RELEVANCE_RECENCY_SCALE
      recencyDecay := env.RELEVANCE_RECENCY_DECAY }

theorem isInt_ofNat {n : ℕ} (h : n < 2 ^ 53) : IsInt (.ofRat n) := by
  obtain ⟨x, hx, hval⟩ := Number.exists_double_natCast h
  refine ⟨x, hx, n, by exact_mod_cast hval, ?_⟩
  rw [abs_of_nonneg (Int.natCast_nonneg n)]
  exact_mod_cast h

/-- The environment of a deployment: defaults, and how many hits still get suggestions. -/
def deployment (suggestMaxHits : ℕ) : Env where
  ELASTICSEARCH_INDEX := "products"
  CACHE_TTL_SEARCH := .ofRat (300 : ℕ)
  SEARCH_DEFAULT_PAGE_SIZE := .ofRat (20 : ℕ)
  SEARCH_MAX_PAGE_SIZE := .ofRat (100 : ℕ)
  SEARCH_SUGGEST_MAX_HITS := .ofRat suggestMaxHits
  SEARCH_MAX_RESULT_WINDOW := .ofRat (10000 : ℕ)
  RELEVANCE_POPULARITY_FACTOR := .ofRat 1
  RELEVANCE_RECENCY_SCALE := "90d"
  RELEVANCE_RECENCY_DECAY := .ofRat (1 / 2)

theorem deployment_accepted {n : ℕ} (h : n < 2 ^ 53) : (deployment n).Accepted where
  index := show "products" ≠ "" by decide
  searchTtl :=
    ⟨isInt_ofNat (by norm_num), show (Number.ofRat (300 : ℕ)).isNegative = false by decide +kernel⟩
  defaultPageSize :=
    ⟨isInt_ofNat (by norm_num), show Number.lt (.ofRat 0) (.ofRat (20 : ℕ)) by decide +kernel⟩
  maxPageSize :=
    ⟨isInt_ofNat (by norm_num), show Number.lt (.ofRat 0) (.ofRat (100 : ℕ)) by decide +kernel⟩
  suggestMaxHits := by
    refine ⟨isInt_ofNat h, ?_⟩
    obtain ⟨x, hx, hval⟩ := Number.exists_double_natCast h
    show (Number.ofRat n).isNegative = false
    rw [hx]
    simp [Number.isNegative, hval]
  maxResultWindow :=
    ⟨isInt_ofNat (by norm_num), show Number.lt (.ofRat 0) (.ofRat (10000 : ℕ)) by decide +kernel⟩
  popularityFactor :=
    show (Number.ofRat 1).isFinite ∧ (Number.ofRat 1).isNegative = false by decide +kernel
  recencyScale := show "90d" ≠ "" by decide
  recencyDecay :=
    show Number.lt (.ofRat 0) (.ofRat (1 / 2)) ∧ Number.lt (.ofRat (1 / 2)) (.ofRat 1) by
      decide +kernel
  pageSizes :=
    show Number.lt (.ofRat (100 : ℕ)) (.ofRat (20 : ℕ)) = false by decide +kernel

end AdvancedSearch
