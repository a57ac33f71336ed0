import AdvancedSearch.Lib.Program
import AdvancedSearch.Lib.Interleaving
import AdvancedSearch.Lib.Machine
import AdvancedSearch.Lib.Service
import AdvancedSearch.Lib.FixedWindow
import AdvancedSearch.Lib.Ranking
import AdvancedSearch.Lib.Firsts
import AdvancedSearch.Lib.Edges
import AdvancedSearch.Lib.Whole
import AdvancedSearch.Lib.Decimal
import AdvancedSearch.Lib.Number
import AdvancedSearch.Lib.Counts
import AdvancedSearch.Lib.Rounding
import AdvancedSearch.Lib.Text
import AdvancedSearch.Lib.Json
import AdvancedSearch.Lib.JsonParse
import AdvancedSearch.Lib.NumberText
import AdvancedSearch.Lib.PercentEncoding
import AdvancedSearch.Lib.JsonClosure
import AdvancedSearch.Lib.JsonOrder
import AdvancedSearch.Lib.Schema
import AdvancedSearch.Index.PhysicalVersion
import AdvancedSearch.Index.Fingerprint
import AdvancedSearch.Index.Mapping
import AdvancedSearch.Index.Dataset
import AdvancedSearch.Index.Prices
import AdvancedSearch.Index.Cluster
import AdvancedSearch.Index.Adapter
import AdvancedSearch.Index.Naming
import AdvancedSearch.Index.Runs
import AdvancedSearch.Index.Pruning
import AdvancedSearch.Index.SeedRun
import AdvancedSearch.Index.Migration
import AdvancedSearch.Index.Failure
import AdvancedSearch.Index.Served
import AdvancedSearch.Index.Recovery
import AdvancedSearch.Index.Provisioning
import AdvancedSearch.Index.Concurrency
import AdvancedSearch.Index.Continuity
import AdvancedSearch.Cache.CacheAside
import AdvancedSearch.Cache.SingleFlight
import AdvancedSearch.Cache.Completions
import AdvancedSearch.Cache.Fleet
import AdvancedSearch.Cache.Counters
import AdvancedSearch.Http.ApiKey
import AdvancedSearch.Http.Edge
import AdvancedSearch.Http.Routing
import AdvancedSearch.Config.AppConfig
import AdvancedSearch.Config.Environment
import AdvancedSearch.Config.Boot
import AdvancedSearch.Lib.Validation
import AdvancedSearch.Config.OtlpHeaders
import AdvancedSearch.Search.Criteria
import AdvancedSearch.Search.Query
import AdvancedSearch.Search.Outcome
import AdvancedSearch.Search.Adapter
import AdvancedSearch.Search.Engine
import AdvancedSearch.Search.Alike
import AdvancedSearch.Search.Facets
import AdvancedSearch.Search.Pages
import AdvancedSearch.Search.Parameters
import AdvancedSearch.Search.Suggest
import AdvancedSearch.Search.Seeded
import AdvancedSearch.Search.Blank
import AdvancedSearch.Http.ErrorLog
import AdvancedSearch.Http.Disclosure
import AdvancedSearch.Search.Autocomplete
import AdvancedSearch.Cache.Scope
import AdvancedSearch.Cache.Payload
import AdvancedSearch.Cache.Key
import AdvancedSearch.Cache.Distinct
import AdvancedSearch.Cache.Transparent
import AdvancedSearch.Cache.FailOpen
import AdvancedSearch.Cache.SearchProducts
import AdvancedSearch.Cache.Freshness
import AdvancedSearch.Cache.Stored
import AdvancedSearch.RateLimit.Stores
import AdvancedSearch.RateLimit.Memory
import AdvancedSearch.RateLimit.Throttler
import AdvancedSearch.RateLimit.Failover
import AdvancedSearch.RateLimit.RetryAfter
import AdvancedSearch.RateLimit.Traffic
import AdvancedSearch.RateLimit.Transitions
import AdvancedSearch.Health.CheckHealth
import AdvancedSearch.Health.Readiness
import AdvancedSearch.Observability.Sampling
import AdvancedSearch.Observability.Telemetry
