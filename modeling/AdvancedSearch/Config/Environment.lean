import AdvancedSearch.Config.AppConfig
import AdvancedSearch.Http.Disclosure
import AdvancedSearch.Lib.NumberText
import AdvancedSearch.Lib.Validation

/-!
# The environment of a process

`envSchema`, variable by variable, and its refinements. The environments that some process boots with
are exactly those whose values pass the checks and that the refinements hold of (`boots_iff`).
-/

namespace AdvancedSearch

open Js Validation Parsed

/-! ## Variables -/

/-- The levels of the logger. -/
inductive PinoLevel where
  | fatal | error | warn | info | debug | trace
  deriving DecidableEq

/-- The variables the schema names. -/
inductive EnvVariable where
  | NODE_ENV | PORT | CORS_ORIGINS
  | ELASTICSEARCH_NODE | ELASTICSEARCH_API_KEY | ELASTICSEARCH_USERNAME | ELASTICSEARCH_PASSWORD
  | ELASTICSEARCH_INDEX | ELASTICSEARCH_TLS_REJECT_UNAUTHORIZED | ELASTICSEARCH_REQUEST_TIMEOUT_MS
  | ELASTICSEARCH_MAX_RETRIES
  | REDIS_URL | CACHE_TTL_SEARCH | CACHE_TTL_AUTOCOMPLETE
  | SEARCH_DEFAULT_PAGE_SIZE | SEARCH_MAX_PAGE_SIZE | SEARCH_SUGGEST_MAX_HITS | SEARCH_MAX_RESULT_WINDOW
  | RELEVANCE_POPULARITY_FACTOR | RELEVANCE_RECENCY_SCALE | RELEVANCE_RECENCY_DECAY
  | RATE_LIMIT_ENABLED | RATE_LIMIT_WINDOW_SECONDS | RATE_LIMIT_SEARCH | RATE_LIMIT_AUTOCOMPLETE
  | RATE_LIMIT_SUGGEST | RATE_LIMIT_DEFAULT | TRUST_PROXY_HOPS
  | API_AUTH_ENABLED | API_KEYS
  | LOG_LEVEL | LOG_PRETTY | METRICS_ENABLED | METRICS_TOKEN
  | OTEL_EXPORTER_OTLP_ENDPOINT | OTEL_EXPORTER_OTLP_HEADERS | OTEL_SERVICE_NAME
  | OTEL_TRACES_SAMPLER_RATIO | OTEL_METRICS_EXPORT_ENABLED | OTEL_METRIC_EXPORT_INTERVAL_MS
  | LOKI_URL | LOKI_USERNAME | LOKI_PASSWORD
  deriving DecidableEq

namespace EnvVariable

def name : EnvVariable → String
  | NODE_ENV => "NODE_ENV"
  | PORT => "PORT"
  | CORS_ORIGINS => "CORS_ORIGINS"
  | ELASTICSEARCH_NODE => "ELASTICSEARCH_NODE"
  | ELASTICSEARCH_API_KEY => "ELASTICSEARCH_API_KEY"
  | ELASTICSEARCH_USERNAME => "ELASTICSEARCH_USERNAME"
  | ELASTICSEARCH_PASSWORD => "ELASTICSEARCH_PASSWORD"
  | ELASTICSEARCH_INDEX => "ELASTICSEARCH_INDEX"
  | ELASTICSEARCH_TLS_REJECT_UNAUTHORIZED => "ELASTICSEARCH_TLS_REJECT_UNAUTHORIZED"
  | ELASTICSEARCH_REQUEST_TIMEOUT_MS => "ELASTICSEARCH_REQUEST_TIMEOUT_MS"
  | ELASTICSEARCH_MAX_RETRIES => "ELASTICSEARCH_MAX_RETRIES"
  | REDIS_URL => "REDIS_URL"
  | CACHE_TTL_SEARCH => "CACHE_TTL_SEARCH"
  | CACHE_TTL_AUTOCOMPLETE => "CACHE_TTL_AUTOCOMPLETE"
  | SEARCH_DEFAULT_PAGE_SIZE => "SEARCH_DEFAULT_PAGE_SIZE"
  | SEARCH_MAX_PAGE_SIZE => "SEARCH_MAX_PAGE_SIZE"
  | SEARCH_SUGGEST_MAX_HITS => "SEARCH_SUGGEST_MAX_HITS"
  | SEARCH_MAX_RESULT_WINDOW => "SEARCH_MAX_RESULT_WINDOW"
  | RELEVANCE_POPULARITY_FACTOR => "RELEVANCE_POPULARITY_FACTOR"
  | RELEVANCE_RECENCY_SCALE => "RELEVANCE_RECENCY_SCALE"
  | RELEVANCE_RECENCY_DECAY => "RELEVANCE_RECENCY_DECAY"
  | RATE_LIMIT_ENABLED => "RATE_LIMIT_ENABLED"
  | RATE_LIMIT_WINDOW_SECONDS => "RATE_LIMIT_WINDOW_SECONDS"
  | RATE_LIMIT_SEARCH => "RATE_LIMIT_SEARCH"
  | RATE_LIMIT_AUTOCOMPLETE => "RATE_LIMIT_AUTOCOMPLETE"
  | RATE_LIMIT_SUGGEST => "RATE_LIMIT_SUGGEST"
  | RATE_LIMIT_DEFAULT => "RATE_LIMIT_DEFAULT"
  | TRUST_PROXY_HOPS => "TRUST_PROXY_HOPS"
  | API_AUTH_ENABLED => "API_AUTH_ENABLED"
  | API_KEYS => "API_KEYS"
  | LOG_LEVEL => "LOG_LEVEL"
  | LOG_PRETTY => "LOG_PRETTY"
  | METRICS_ENABLED => "METRICS_ENABLED"
  | METRICS_TOKEN => "METRICS_TOKEN"
  | OTEL_EXPORTER_OTLP_ENDPOINT => "OTEL_EXPORTER_OTLP_ENDPOINT"
  | OTEL_EXPORTER_OTLP_HEADERS => "OTEL_EXPORTER_OTLP_HEADERS"
  | OTEL_SERVICE_NAME => "OTEL_SERVICE_NAME"
  | OTEL_TRACES_SAMPLER_RATIO => "OTEL_TRACES_SAMPLER_RATIO"
  | OTEL_METRICS_EXPORT_ENABLED => "OTEL_METRICS_EXPORT_ENABLED"
  | OTEL_METRIC_EXPORT_INTERVAL_MS => "OTEL_METRIC_EXPORT_INTERVAL_MS"
  | LOKI_URL => "LOKI_URL"
  | LOKI_USERNAME => "LOKI_USERNAME"
  | LOKI_PASSWORD => "LOKI_PASSWORD"

/-- In the order of the schema. -/
def all : List EnvVariable :=
  [NODE_ENV, PORT, CORS_ORIGINS, ELASTICSEARCH_NODE, ELASTICSEARCH_API_KEY, ELASTICSEARCH_USERNAME,
    ELASTICSEARCH_PASSWORD, ELASTICSEARCH_INDEX, ELASTICSEARCH_TLS_REJECT_UNAUTHORIZED,
    ELASTICSEARCH_REQUEST_TIMEOUT_MS, ELASTICSEARCH_MAX_RETRIES, REDIS_URL, CACHE_TTL_SEARCH,
    CACHE_TTL_AUTOCOMPLETE, SEARCH_DEFAULT_PAGE_SIZE, SEARCH_MAX_PAGE_SIZE, SEARCH_SUGGEST_MAX_HITS,
    SEARCH_MAX_RESULT_WINDOW, RELEVANCE_POPULARITY_FACTOR, RELEVANCE_RECENCY_SCALE,
    RELEVANCE_RECENCY_DECAY, RATE_LIMIT_ENABLED, RATE_LIMIT_WINDOW_SECONDS, RATE_LIMIT_SEARCH,
    RATE_LIMIT_AUTOCOMPLETE, RATE_LIMIT_SUGGEST, RATE_LIMIT_DEFAULT, TRUST_PROXY_HOPS, API_AUTH_ENABLED,
    API_KEYS, LOG_LEVEL, LOG_PRETTY, METRICS_ENABLED, METRICS_TOKEN, OTEL_EXPORTER_OTLP_ENDPOINT,
    OTEL_EXPORTER_OTLP_HEADERS, OTEL_SERVICE_NAME, OTEL_TRACES_SAMPLER_RATIO,
    OTEL_METRICS_EXPORT_ENABLED, OTEL_METRIC_EXPORT_INTERVAL_MS, LOKI_URL, LOKI_USERNAME, LOKI_PASSWORD]

theorem mem_all (v : EnvVariable) : v ∈ all := by cases v <;> decide

/-- What a variable is parsed to. -/
@[reducible] def Value : EnvVariable → Type
  | NODE_ENV => NodeEnv
  | LOG_LEVEL => PinoLevel
  | ELASTICSEARCH_NODE | ELASTICSEARCH_INDEX | REDIS_URL | RELEVANCE_RECENCY_SCALE | OTEL_SERVICE_NAME =>
    String
  | ELASTICSEARCH_TLS_REJECT_UNAUTHORIZED | RATE_LIMIT_ENABLED | API_AUTH_ENABLED | LOG_PRETTY
  | METRICS_ENABLED | OTEL_METRICS_EXPORT_ENABLED => Bool
  | CORS_ORIGINS | ELASTICSEARCH_API_KEY | ELASTICSEARCH_USERNAME | ELASTICSEARCH_PASSWORD | API_KEYS
  | METRICS_TOKEN | OTEL_EXPORTER_OTLP_ENDPOINT | OTEL_EXPORTER_OTLP_HEADERS | LOKI_URL | LOKI_USERNAME
  | LOKI_PASSWORD => Option String
  | _ => Number

end EnvVariable

/-- The parsed environment, whole. -/
abbrev Environment := (v : EnvVariable) → v.Value

/-! ## Schemas -/

/-- What `zod` reports. -/
inductive ZodIssue where
  | expectedString
  | expectedNumber
  | expectedInteger
  | unsafeInteger
  | invalidUrl
  | invalidOption (options : List String)
  | tooShort
  | tooSmall (bound : ℚ) (inclusive : Bool)
  | tooBig (bound : ℚ) (inclusive : Bool)

/-- `Number.isSafeInteger`. -/
def isSafeInteger : Number → Bool
  | .finite x => x.value.den = 1 ∧ |x.value| < 2 ^ 53
  | _ => false

/-- What is `zod`'s own: its messages, and what `url()` keeps of a text that is a URL. -/
structure Zod where
  message : ZodIssue → String
  url : String → Option String

namespace Zod

variable (z : Zod)

def string : String → Parsed String String := fun text => .reached text []

/-- `.min(1)`. -/
def nonempty (p : Parsed String String) : Parsed String String :=
  p.check (fun text => text ≠ "") (z.message .tooShort)

/-- `z.string().url()`. -/
def urlString (text : String) : Parsed String String := (string text).rewriteWith z.url (z.message .invalidUrl)

/-- `z.enum(…)`, each option with what becomes of it. -/
def enum {α : Type} (options : List (String × α)) (text : String) : Parsed String α :=
  match options.lookup text with
  | some a => .reached a []
  | none => .aborted [z.message (.invalidOption (options.map Prod.fst))]

/-- `z.enum(['true', 'false'])`, compared with `'true'`. -/
def flag : String → Parsed String Bool := z.enum [("true", true), ("false", false)]

/-- `z.coerce.number()`. -/
def coerceNumber (text : String) : Parsed String Number :=
  (Parsed.reached (Number.ofText text) []).insist Number.isFinite (z.message .expectedNumber)

/-- `.int()`. -/
def int (p : Parsed String Number) : Parsed String Number :=
  (p.insist Number.isInteger (z.message .expectedInteger)).check isSafeInteger
    (z.message .unsafeInteger)

def positive (p : Parsed String Number) : Parsed String Number :=
  p.check (Number.lt (.ofRat 0)) (z.message (.tooSmall 0 false))

def nonnegative (p : Parsed String Number) : Parsed String Number :=
  p.check (fun x => ! x.isNegative) (z.message (.tooSmall 0 true))

/-- `z.coerce.number().int().positive()`. -/
def count (text : String) : Parsed String Number := z.positive (z.int (z.coerceNumber text))

/-- `z.coerce.number().int().nonnegative()`. -/
def countOrNone (text : String) : Parsed String Number := z.nonnegative (z.int (z.coerceNumber text))

/-- `z.coerce.number().gt(0).lt(1)`. -/
def fraction (text : String) : Parsed String Number :=
  (z.positive (z.coerceNumber text)).check (fun x => Number.lt x (.ofRat 1)) (z.message (.tooBig 1 false))

/-- `z.coerce.number().min(0).max(1)`. -/
def ratio (text : String) : Parsed String Number :=
  (z.nonnegative (z.coerceNumber text)).check (fun x => Number.le x (.ofRat 1)) (z.message (.tooBig 1 true))

end Zod

def nodeEnvs : List (String × NodeEnv) :=
  [("development", .development), ("test", .test), ("production", .production)]

def pinoLevels : List (String × PinoLevel) :=
  [("fatal", .fatal), ("error", .error), ("warn", .warn), ("info", .info), ("debug", .debug),
    ("trace", .trace)]

/-- The fields of `envSchema`. -/
def envField (z : Zod) : (v : EnvVariable) → Option String → Parsed String v.Value
  | .NODE_ENV => withDefault .development (z.enum nodeEnvs)
  | .PORT => withDefault (.ofRat (3000 : ℕ)) z.count
  | .CORS_ORIGINS => optional Zod.string
  | .ELASTICSEARCH_NODE => required (z.message .expectedString) z.urlString
  | .ELASTICSEARCH_API_KEY => optional fun text => z.nonempty (Zod.string text)
  | .ELASTICSEARCH_USERNAME => optional fun text => z.nonempty (Zod.string text)
  | .ELASTICSEARCH_PASSWORD => optional fun text => z.nonempty (Zod.string text)
  | .ELASTICSEARCH_INDEX => withDefault "products" fun text => z.nonempty (Zod.string text)
  | .ELASTICSEARCH_TLS_REJECT_UNAUTHORIZED => withDefault true z.flag
  | .ELASTICSEARCH_REQUEST_TIMEOUT_MS => withDefault (.ofRat (4000 : ℕ)) z.count
  | .ELASTICSEARCH_MAX_RETRIES => withDefault (.ofRat (2 : ℕ)) z.countOrNone
  | .REDIS_URL => required (z.message .expectedString) z.urlString
  | .CACHE_TTL_SEARCH => withDefault (.ofRat (300 : ℕ)) z.countOrNone
  | .CACHE_TTL_AUTOCOMPLETE => withDefault (.ofRat (60 : ℕ)) z.countOrNone
  | .SEARCH_DEFAULT_PAGE_SIZE => withDefault (.ofRat (20 : ℕ)) z.count
  | .SEARCH_MAX_PAGE_SIZE => withDefault (.ofRat (100 : ℕ)) z.count
  | .SEARCH_SUGGEST_MAX_HITS => withDefault (.ofRat (5 : ℕ)) z.countOrNone
  | .SEARCH_MAX_RESULT_WINDOW => withDefault (.ofRat (10000 : ℕ)) z.count
  | .RELEVANCE_POPULARITY_FACTOR => withDefault (.ofRat 1) fun text => z.nonnegative (z.coerceNumber text)
  | .RELEVANCE_RECENCY_SCALE => withDefault "90d" fun text => z.nonempty (Zod.string text)
  | .RELEVANCE_RECENCY_DECAY => withDefault (.ofRat (1 / 2)) z.fraction
  | .RATE_LIMIT_ENABLED => withDefault true z.flag
  | .RATE_LIMIT_WINDOW_SECONDS => withDefault (.ofRat (60 : ℕ)) z.count
  | .RATE_LIMIT_SEARCH => withDefault (.ofRat (60 : ℕ)) z.count
  | .RATE_LIMIT_AUTOCOMPLETE => withDefault (.ofRat (300 : ℕ)) z.count
  | .RATE_LIMIT_SUGGEST => withDefault (.ofRat (60 : ℕ)) z.count
  | .RATE_LIMIT_DEFAULT => withDefault (.ofRat (120 : ℕ)) z.count
  | .TRUST_PROXY_HOPS => withDefault (.ofRat 0) z.countOrNone
  | .API_AUTH_ENABLED => withDefault true z.flag
  | .API_KEYS => optional Zod.string
  | .LOG_LEVEL => withDefault .info (z.enum pinoLevels)
  | .LOG_PRETTY => withDefault false z.flag
  | .METRICS_ENABLED => withDefault true z.flag
  | .METRICS_TOKEN => optional fun text => z.nonempty ((Zod.string text).map trim)
  | .OTEL_EXPORTER_OTLP_ENDPOINT => optional z.urlString
  | .OTEL_EXPORTER_OTLP_HEADERS => optional Zod.string
  | .OTEL_SERVICE_NAME => withDefault "advanced-search-api" fun text => z.nonempty (Zod.string text)
  | EnvVariable.OTEL_TRACES_SAMPLER_RATIO => withDefault (.ofRat (1 / 10)) z.ratio
  | .OTEL_METRICS_EXPORT_ENABLED => withDefault false z.flag
  | .OTEL_METRIC_EXPORT_INTERVAL_MS => withDefault (.ofRat (60000 : ℕ)) z.count
  | .LOKI_URL => optional z.urlString
  | .LOKI_USERNAME => optional fun text => z.nonempty (Zod.string text)
  | .LOKI_PASSWORD => optional fun text => z.nonempty (Zod.string text)

/-! ## Refinements -/

/-- Shortest client key a deployment may carry. -/
def MIN_API_KEY_LENGTH : ℕ := 16

/-- Comma-separated list, trimmed, empties dropped. -/
def parseKeys (raw : Option String) : List String :=
  ((split (raw.getD "") ',').map trim).filter (· ≠ "")

/-- A text that counts as true. -/
def isTruthy (text : Option String) : Bool := text.getD "" ≠ ""

def envRefinements : List (Refinement (EnvVariable × String) Environment) :=
  [{ holds := fun env => ! isTruthy (env .ELASTICSEARCH_USERNAME) || isTruthy (env .ELASTICSEARCH_PASSWORD)
     issue := (.ELASTICSEARCH_PASSWORD,
      "ELASTICSEARCH_PASSWORD is required when ELASTICSEARCH_USERNAME is set") },
    { holds := fun env => Number.le (env .SEARCH_DEFAULT_PAGE_SIZE) (env .SEARCH_MAX_PAGE_SIZE)
      issue := (.SEARCH_MAX_PAGE_SIZE, "SEARCH_MAX_PAGE_SIZE must be >= SEARCH_DEFAULT_PAGE_SIZE") },
    { holds := fun env => ! env .API_AUTH_ENABLED || 0 < (parseKeys (env .API_KEYS)).length
      issue := (.API_KEYS, "API_KEYS must list at least one key when API_AUTH_ENABLED is true " ++
        "(set API_AUTH_ENABLED=false explicitly for local development)") },
    { holds := fun env => ! env .API_AUTH_ENABLED ||
        (parseKeys (env .API_KEYS)).all fun key => MIN_API_KEY_LENGTH ≤ (codeUnits key).length
      issue := (.API_KEYS, "every key in API_KEYS must be at least " ++ MIN_API_KEY_LENGTH.repr ++
        " characters; the values are never echoed, so check them on the deployment host") },
    { holds := fun env => env .NODE_ENV ≠ .production || ! env .METRICS_ENABLED ||
        (env .METRICS_TOKEN).isSome
      issue := (.METRICS_TOKEN, "METRICS_TOKEN is required when metrics are enabled in production") },
    { holds := fun env => ! env .OTEL_METRICS_EXPORT_ENABLED || (env .OTEL_EXPORTER_OTLP_ENDPOINT).isSome
      issue := (.OTEL_EXPORTER_OTLP_ENDPOINT,
        "OTEL_EXPORTER_OTLP_ENDPOINT is required when OTEL_METRICS_EXPORT_ENABLED is true " ++
        "(metrics and traces share the gateway; the SDK appends /v1/metrics)") },
    { holds := fun env => (env .LOKI_USERNAME).isNone = (env .LOKI_PASSWORD).isNone
      issue := (.LOKI_PASSWORD, "LOKI_USERNAME and LOKI_PASSWORD must be set together, or neither") },
    { holds := fun env => (env .LOKI_URL).isSome || (env .LOKI_USERNAME).isNone
      issue := (.LOKI_URL,
        "LOKI_USERNAME/LOKI_PASSWORD are set but LOKI_URL is not, so nothing is shipped") }]

/-! ## Booting -/

/-- `process.env`, as far as it is read. -/
abbrev ProcessEnv := EnvVariable → Option String

def envSchema (z : Zod) (raw : ProcessEnv) : Parsed (EnvVariable × String) Environment :=
  (object EnvVariable.all EnvVariable.mem_all (envField z) raw).refineAll envRefinements

/-- One line of the report. -/
def issueLine (issue : EnvVariable × String) : String := "  - " ++ issue.1.name ++ ": " ++ issue.2

/-- Validates the environment, or reports every issue. -/
def validateEnv (z : Zod) (raw : ProcessEnv) : Except String Environment :=
  match envSchema z raw with
  | .reached env [] => .ok env
  | parsed =>
    .error ("Invalid environment configuration:\n" ++ "\n".intercalate (parsed.issues.map issueLine))

theorem validateEnv_eq_ok {z : Zod} {raw : ProcessEnv} {env : Environment} :
    validateEnv z raw = .ok env ↔
      (∀ v, (envField z v (raw v)).Yields (env v)) ∧ ∀ r ∈ envRefinements, r.holds env := by
  have hyields : validateEnv z raw = .ok env ↔ (envSchema z raw).Yields env := by
    unfold validateEnv Yields
    cases envSchema z raw with
    | aborted issues => simp
    | reached value issues => cases issues <;> simp
  rw [hyields, envSchema, yields_refineAll, yields_object]

/-! ## What a value may be -/

namespace Zod

variable {z : Zod}

theorem reads_string {text : String} : Reads string text := ⟨text, rfl⟩

theorem reads_nonempty {text : String} :
    Reads (fun text => z.nonempty (Zod.string text)) text ↔ text ≠ "" := by
  unfold Reads nonempty
  simp only [yields_check, decide_eq_true_eq]
  exact ⟨fun ⟨_, _, h⟩ => h, fun h => ⟨text, rfl, h⟩⟩

theorem reads_urlString {text : String} : Reads z.urlString text ↔ ∃ raw, z.url raw = some text := by
  unfold Reads urlString
  simp only [yields_rewriteWith]
  constructor
  · rintro ⟨raw, _, h, hurl⟩
    cases h
    exact ⟨raw, hurl⟩
  · exact fun ⟨raw, h⟩ => ⟨raw, raw, rfl, h⟩

theorem reads_flag (b : Bool) : Reads z.flag b := by
  cases b
  · exact ⟨"false", rfl⟩
  · exact ⟨"true", rfl⟩

/-- A finite number is read of its own text. -/
theorem reads_coerceNumber {x : Number} : Reads z.coerceNumber x ↔ x.isFinite := by
  unfold Reads coerceNumber
  simp only [yields_insist]
  constructor
  · exact fun ⟨_, _, h⟩ => h
  · intro h
    cases x with
    | finite d => exact ⟨(Number.finite d).text, congrArg (Parsed.reached · []) (Number.ofText_text d), h⟩
    | nan => cases h
    | infinity neg => cases h

/-- The safe integers. -/
theorem isInt_iff {x : Number} : (x.isFinite ∧ x.isInteger) ∧ isSafeInteger x ↔ IsInt x := by
  constructor
  · rintro ⟨-, hsafe⟩
    cases x with
    | finite d =>
      obtain ⟨hden, hlt⟩ := of_decide_eq_true hsafe
      have hvalue : (d.value.num : ℚ) = d.value := (Rat.den_eq_one_iff _).mp hden
      exact ⟨d, rfl, d.value.num, hvalue.symm, by rw [← hvalue] at hlt; exact_mod_cast hlt⟩
    | nan => cases hsafe
    | infinity neg => cases hsafe
  · rintro ⟨d, rfl, n, hn, hlt⟩
    have hden : d.value.den = 1 := by rw [hn]; exact Rat.den_intCast n
    exact ⟨⟨rfl, decide_eq_true hden⟩, decide_eq_true ⟨hden, by rw [hn]; exact_mod_cast hlt⟩⟩

theorem reads_int {x : Number} : Reads (fun text => z.int (z.coerceNumber text)) x ↔ IsInt x := by
  rw [← isInt_iff, ← reads_coerceNumber (z := z)]
  unfold Reads int
  simp only [yields_check, yields_insist, exists_and_right]

theorem reads_count {x : Number} : Reads z.count x ↔ IsPositiveInt x := by
  unfold IsPositiveInt
  rw [← reads_int (z := z)]
  unfold Reads count positive
  simp only [yields_check, exists_and_right]

theorem reads_countOrNone {x : Number} : Reads z.countOrNone x ↔ IsNonnegativeInt x := by
  unfold IsNonnegativeInt
  rw [← reads_int (z := z)]
  unfold Reads countOrNone nonnegative
  simp only [yields_check, exists_and_right, Bool.not_eq_true']

theorem reads_nonnegative {x : Number} :
    Reads (fun text => z.nonnegative (z.coerceNumber text)) x ↔ x.isFinite ∧ x.isNegative = false := by
  rw [← reads_coerceNumber (z := z)]
  unfold Reads nonnegative
  simp only [yields_check, exists_and_right, Bool.not_eq_true']

theorem reads_fraction {x : Number} :
    Reads z.fraction x ↔ (x.isFinite ∧ Number.lt (.ofRat 0) x) ∧ Number.lt x (.ofRat 1) := by
  rw [← reads_coerceNumber (z := z)]
  unfold Reads fraction positive
  simp only [yields_check, exists_and_right]

theorem reads_ratio {x : Number} :
    Reads z.ratio x ↔ (x.isFinite ∧ x.isNegative = false) ∧ Number.le x (.ofRat 1) := by
  rw [← reads_nonnegative (z := z)]
  unfold Reads ratio
  simp only [yields_check, exists_and_right]

theorem reads_token {text : String} :
    Reads (fun text => z.nonempty ((Zod.string text).map trim)) text ↔
      text ≠ "" ∧ ∃ raw, trim raw = text := by
  unfold Reads nonempty
  simp only [yields_check, yields_map, decide_eq_true_eq]
  constructor
  · rintro ⟨raw, ⟨_, h, htrim⟩, hne⟩
    cases h
    exact ⟨hne, raw, htrim⟩
  · exact fun ⟨hne, raw, htrim⟩ => ⟨raw, ⟨raw, rfl, htrim⟩, hne⟩

end Zod

theorem isPositiveInt_ofNat {n : ℕ} (hpos : 0 < n) (h : n < 2 ^ 53) : IsPositiveInt (.ofRat n) := by
  refine ⟨isInt_ofNat h, ?_⟩
  obtain ⟨x, hx, hval⟩ := Number.exists_double_natCast h
  rw [hx, Number.ofRat_zero, Number.lt_finite, decide_eq_true_eq, hval]
  show (0 : ℚ) < n
  exact_mod_cast hpos

theorem isNonnegativeInt_ofNat {n : ℕ} (h : n < 2 ^ 53) : IsNonnegativeInt (.ofRat n) := by
  refine ⟨isInt_ofNat h, ?_⟩
  obtain ⟨x, hx, hval⟩ := Number.exists_double_natCast h
  rw [hx]
  simp [Number.isNegative, hval]

namespace EnvVariable

/-- What the checks of a variable say of its value. -/
def Valid (z : Zod) : (v : EnvVariable) → v.Value → Prop
  | PORT, x | ELASTICSEARCH_REQUEST_TIMEOUT_MS, x | SEARCH_DEFAULT_PAGE_SIZE, x | SEARCH_MAX_PAGE_SIZE, x
  | SEARCH_MAX_RESULT_WINDOW, x | RATE_LIMIT_WINDOW_SECONDS, x | RATE_LIMIT_SEARCH, x
  | RATE_LIMIT_AUTOCOMPLETE, x | RATE_LIMIT_SUGGEST, x | RATE_LIMIT_DEFAULT, x
  | OTEL_METRIC_EXPORT_INTERVAL_MS, x => IsPositiveInt x
  | ELASTICSEARCH_MAX_RETRIES, x | CACHE_TTL_SEARCH, x | CACHE_TTL_AUTOCOMPLETE, x
  | SEARCH_SUGGEST_MAX_HITS, x | TRUST_PROXY_HOPS, x => IsNonnegativeInt x
  | RELEVANCE_POPULARITY_FACTOR, x => x.isFinite ∧ x.isNegative = false
  | RELEVANCE_RECENCY_DECAY, x => (x.isFinite ∧ Number.lt (.ofRat 0) x) ∧ Number.lt x (.ofRat 1)
  | OTEL_TRACES_SAMPLER_RATIO, x => (x.isFinite ∧ x.isNegative = false) ∧ Number.le x (.ofRat 1)
  | ELASTICSEARCH_NODE, text | REDIS_URL, text => ∃ raw, z.url raw = some text
  | OTEL_EXPORTER_OTLP_ENDPOINT, url | LOKI_URL, url => ∀ text ∈ url, ∃ raw, z.url raw = some text
  | ELASTICSEARCH_INDEX, text | RELEVANCE_RECENCY_SCALE, text | OTEL_SERVICE_NAME, text => text ≠ ""
  | ELASTICSEARCH_API_KEY, value | ELASTICSEARCH_USERNAME, value | ELASTICSEARCH_PASSWORD, value
  | LOKI_USERNAME, value | LOKI_PASSWORD, value => ∀ text ∈ value, text ≠ ""
  | METRICS_TOKEN, token => ∀ text ∈ token, text ≠ "" ∧ ∃ raw, trim raw = text
  | _, _ => True

end EnvVariable

section Fields

variable {z : Zod}

theorem reads_field_count {n : ℕ} (hpos : 0 < n) (h : n < 2 ^ 53) {x : Number} :
    Reads (withDefault (.ofRat n) z.count) x ↔ IsPositiveInt x := by
  rw [reads_withDefault (Zod.reads_count.mpr (isPositiveInt_ofNat hpos h)), Zod.reads_count]

theorem reads_field_countOrNone {n : ℕ} (h : n < 2 ^ 53) {x : Number} :
    Reads (withDefault (.ofRat n) z.countOrNone) x ↔ IsNonnegativeInt x := by
  rw [reads_withDefault (Zod.reads_countOrNone.mpr (isNonnegativeInt_ofNat h)), Zod.reads_countOrNone]

theorem reads_field_flag (default b : Bool) : Reads (withDefault default z.flag) b :=
  (reads_withDefault (Zod.reads_flag default)).mpr (Zod.reads_flag b)

theorem reads_field_nonempty {default : String} (hdefault : default ≠ "") {text : String} :
    Reads (withDefault default fun text => z.nonempty (Zod.string text)) text ↔ text ≠ "" := by
  rw [reads_withDefault (Zod.reads_nonempty.mpr hdefault), Zod.reads_nonempty]

theorem reads_field_secret {value : Option String} :
    Reads (optional fun text => z.nonempty (Zod.string text)) value ↔ ∀ text ∈ value, text ≠ "" := by
  rw [reads_optional]
  exact forall₂_congr fun text _ => Zod.reads_nonempty

theorem reads_field_text (value : Option String) : Reads (optional (I := String) Zod.string) value :=
  reads_optional.mpr fun _ _ => Zod.reads_string

theorem reads_field_url {missing : String} {text : String} :
    Reads (required missing z.urlString) text ↔ ∃ raw, z.url raw = some text := by
  rw [reads_required, Zod.reads_urlString]

theorem reads_field_optionalUrl {value : Option String} :
    Reads (optional z.urlString) value ↔ ∀ text ∈ value, ∃ raw, z.url raw = some text := by
  rw [reads_optional]
  exact forall₂_congr fun text _ => Zod.reads_urlString

/-- A variable has a text for exactly the values that pass its checks; so do the defaults. -/
theorem reads_envField (v : EnvVariable) (x : v.Value) : Reads (envField z v) x ↔ v.Valid z x := by
  cases v with
  | NODE_ENV =>
    refine iff_of_true ?_ trivial
    cases x
    · exact ⟨none, rfl⟩
    · exact ⟨some "test", rfl⟩
    · exact ⟨some "production", rfl⟩
  | LOG_LEVEL =>
    refine iff_of_true ?_ trivial
    cases x
    · exact ⟨some "fatal", rfl⟩
    · exact ⟨some "error", rfl⟩
    · exact ⟨some "warn", rfl⟩
    · exact ⟨none, rfl⟩
    · exact ⟨some "debug", rfl⟩
    · exact ⟨some "trace", rfl⟩
  | PORT | ELASTICSEARCH_REQUEST_TIMEOUT_MS | SEARCH_DEFAULT_PAGE_SIZE | SEARCH_MAX_PAGE_SIZE
  | SEARCH_MAX_RESULT_WINDOW | RATE_LIMIT_WINDOW_SECONDS | RATE_LIMIT_SEARCH | RATE_LIMIT_AUTOCOMPLETE
  | RATE_LIMIT_SUGGEST | RATE_LIMIT_DEFAULT | OTEL_METRIC_EXPORT_INTERVAL_MS =>
    exact reads_field_count (by norm_num) (by norm_num)
  | ELASTICSEARCH_MAX_RETRIES | CACHE_TTL_SEARCH | CACHE_TTL_AUTOCOMPLETE | SEARCH_SUGGEST_MAX_HITS =>
    exact reads_field_countOrNone (by norm_num)
  | TRUST_PROXY_HOPS => exact reads_field_countOrNone (n := 0) (by norm_num)
  | RELEVANCE_POPULARITY_FACTOR =>
    exact (reads_withDefault (Zod.reads_nonnegative.mpr (by decide +kernel))).trans Zod.reads_nonnegative
  | RELEVANCE_RECENCY_DECAY =>
    exact (reads_withDefault (Zod.reads_fraction.mpr (by decide +kernel))).trans Zod.reads_fraction
  | OTEL_TRACES_SAMPLER_RATIO =>
    exact (reads_withDefault (Zod.reads_ratio.mpr (by decide +kernel))).trans Zod.reads_ratio
  | ELASTICSEARCH_NODE | REDIS_URL => exact reads_field_url
  | OTEL_EXPORTER_OTLP_ENDPOINT | LOKI_URL => exact reads_field_optionalUrl
  | ELASTICSEARCH_INDEX | RELEVANCE_RECENCY_SCALE | OTEL_SERVICE_NAME =>
    exact reads_field_nonempty (by decide)
  | ELASTICSEARCH_API_KEY | ELASTICSEARCH_USERNAME | ELASTICSEARCH_PASSWORD | LOKI_USERNAME
  | LOKI_PASSWORD => exact reads_field_secret
  | METRICS_TOKEN => exact reads_optional.trans (forall₂_congr fun _ _ => Zod.reads_token)
  | ELASTICSEARCH_TLS_REJECT_UNAUTHORIZED | RATE_LIMIT_ENABLED | API_AUTH_ENABLED | LOG_PRETTY
  | METRICS_ENABLED | OTEL_METRICS_EXPORT_ENABLED => exact iff_of_true (reads_field_flag _ x) trivial
  | CORS_ORIGINS | API_KEYS | OTEL_EXPORTER_OTLP_HEADERS => exact iff_of_true (reads_field_text x) trivial

end Fields

/-! ## The environments that boot -/

/-- What a process may boot with. -/
structure Environment.Accepted (z : Zod) (env : Environment) : Prop where
  valid : ∀ v : EnvVariable, v.Valid z (env v)
  refined : ∀ r ∈ envRefinements, r.holds env

theorem accepted_of_validateEnv {z : Zod} {raw : ProcessEnv} {env : Environment}
    (h : validateEnv z raw = .ok env) : env.Accepted z := by
  obtain ⟨hfields, hrefined⟩ := validateEnv_eq_ok.mp h
  exact ⟨fun v => (reads_envField v (env v)).mp ⟨raw v, hfields v⟩, hrefined⟩

/-- **The environments that boot.** Whatever the messages and the URLs of `zod` are, some process boots
with an environment exactly when each of its values passes the checks of its variable and every
refinement holds. -/
theorem boots_iff (z : Zod) (env : Environment) :
    (∃ raw, validateEnv z raw = .ok env) ↔ env.Accepted z := by
  constructor
  · exact fun ⟨raw, h⟩ => accepted_of_validateEnv h
  · intro h
    have hread : ∀ v : EnvVariable, ∃ text, (envField z v text).Yields (env v) := fun v =>
      (reads_envField v (env v)).mpr (h.valid v)
    choose raw hraw using hread
    exact ⟨raw, validateEnv_eq_ok.mpr ⟨hraw, h.refined⟩⟩

end AdvancedSearch
