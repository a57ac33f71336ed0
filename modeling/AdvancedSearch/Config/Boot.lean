import AdvancedSearch.Config.Environment
import AdvancedSearch.Http.Routing

/-!
# From the environment to the service

What `buildConfig` hands to the edge and to the metrics endpoint. A process that boots authenticates
unless it was told not to, and nobody with a listed key is locked out (`boot_authenticates`); in
production no measurement is read without the token (`boot_measures_privately`). A key is rotated in by
appending it (`keys_rotated`).
-/

namespace AdvancedSearch

open Js Validation Parsed

/-! ## The configuration -/

/-- Comma-separated list, trimmed, empties dropped. -/
def parseList (raw : Option String) : List String :=
  match raw with
  | none => []
  | some raw => if raw = "" then [] else ((split raw ',').map trim).filter (· ≠ "")

namespace Environment

variable (env : Environment)

/-- What the edge reads of `buildConfig(env)`. -/
def edge : EdgeConfig where
  apiAuth := { enabled := env .API_AUTH_ENABLED, keys := parseList (env .API_KEYS) }
  rateLimitEnabled := env .RATE_LIMIT_ENABLED

/-- What searching reads of the environment. -/
def search : Env where
  ELASTICSEARCH_INDEX := env .ELASTICSEARCH_INDEX
  CACHE_TTL_SEARCH := env .CACHE_TTL_SEARCH
  SEARCH_DEFAULT_PAGE_SIZE := env .SEARCH_DEFAULT_PAGE_SIZE
  SEARCH_MAX_PAGE_SIZE := env .SEARCH_MAX_PAGE_SIZE
  SEARCH_SUGGEST_MAX_HITS := env .SEARCH_SUGGEST_MAX_HITS
  SEARCH_MAX_RESULT_WINDOW := env .SEARCH_MAX_RESULT_WINDOW
  RELEVANCE_POPULARITY_FACTOR := env .RELEVANCE_POPULARITY_FACTOR
  RELEVANCE_RECENCY_SCALE := env .RELEVANCE_RECENCY_SCALE
  RELEVANCE_RECENCY_DECAY := env .RELEVANCE_RECENCY_DECAY

end Environment

/-! ## The metrics endpoint -/

/-- What is bound to the metrics ports. -/
inductive MetricsAdapter where
  | noop
  | prometheus
  | composite (endpoint : String)
  deriving DecidableEq

/-- Three states: measuring nothing, measuring locally, and shipping too. -/
def buildMetricsAdapter (env : Environment) : MetricsAdapter :=
  if ! env .METRICS_ENABLED then .noop
  else
    match env .OTEL_METRICS_EXPORT_ENABLED, env .OTEL_EXPORTER_OTLP_ENDPOINT with
    | true, some endpoint => .composite endpoint
    | _, _ => .prometheus

/-- What is scraped: the registry, or nothing. -/
def MetricsAdapter.render (registry : String) : MetricsAdapter → String
  | noop => ""
  | prometheus | composite _ => registry

/-- `MetricsController.metrics`: the body, or the message of a 401. -/
def scrape (env : Environment) (registry : String) (authorization : Option String) :
    Except String String :=
  match env .METRICS_TOKEN with
  | none => .ok ((buildMetricsAdapter env).render registry)
  | some token =>
    if authorization = some ("Bearer " ++ token) then .ok ((buildMetricsAdapter env).render registry)
    else .error "Metrics access requires a valid bearer token"

/-! ## What an accepted environment says -/

section Refined

variable {z : Zod} {env : Environment}

/-- The list that was checked is the list that is used. -/
theorem parseList_eq_parseKeys (raw : Option String) : parseList raw = parseKeys raw := by
  unfold parseList parseKeys
  cases raw with
  | none => rfl
  | some raw =>
    dsimp only
    split_ifs with h
    · rw [h]
      rfl
    · rfl

theorem Environment.Accepted.keys (h : env.Accepted z) (hon : env .API_AUTH_ENABLED = true) :
    env.edge.apiAuth.keys ≠ [] ∧
      ∀ key ∈ env.edge.apiAuth.keys, MIN_API_KEY_LENGTH ≤ (codeUnits key).length := by
  have hlisted := h.refined _ (List.mem_of_getElem? (i := 2) rfl)
  have hlong := h.refined _ (List.mem_of_getElem? (i := 3) rfl)
  dsimp only at hlisted hlong
  rw [hon, Bool.not_true, Bool.false_or] at hlisted hlong
  show parseList (env .API_KEYS) ≠ [] ∧ ∀ key ∈ parseList (env .API_KEYS), _
  rw [parseList_eq_parseKeys]
  exact ⟨List.length_pos_iff.mp (of_decide_eq_true hlisted),
    fun key hkey => of_decide_eq_true (List.all_eq_true.mp hlong key hkey)⟩

theorem Environment.Accepted.token (h : env.Accepted z) (hproduction : env .NODE_ENV = .production)
    (hmetrics : env .METRICS_ENABLED = true) : (env .METRICS_TOKEN).isSome := by
  have htoken := h.refined _ (List.mem_of_getElem? (i := 4) rfl)
  dsimp only at htoken
  rw [hproduction, hmetrics] at htoken
  simpa using htoken

/-- The part of an accepted environment that searching reads is accepted. -/
theorem Environment.Accepted.search (h : env.Accepted z) : env.search.Accepted where
  index := h.valid .ELASTICSEARCH_INDEX
  searchTtl := h.valid .CACHE_TTL_SEARCH
  defaultPageSize := h.valid .SEARCH_DEFAULT_PAGE_SIZE
  maxPageSize := h.valid .SEARCH_MAX_PAGE_SIZE
  suggestMaxHits := h.valid .SEARCH_SUGGEST_MAX_HITS
  maxResultWindow := h.valid .SEARCH_MAX_RESULT_WINDOW
  popularityFactor := h.valid .RELEVANCE_POPULARITY_FACTOR
  recencyScale := h.valid .RELEVANCE_RECENCY_SCALE
  recencyDecay := ⟨(h.valid .RELEVANCE_RECENCY_DECAY).1.2, (h.valid .RELEVANCE_RECENCY_DECAY).2⟩
  pageSizes := by
    have hle := h.refined _ (List.mem_of_getElem? (i := 1) rfl)
    obtain ⟨⟨d, hd, -⟩, -⟩ := h.valid .SEARCH_DEFAULT_PAGE_SIZE
    obtain ⟨⟨m, hm, -⟩, -⟩ := h.valid .SEARCH_MAX_PAGE_SIZE
    dsimp only at hle
    show Number.lt (env .SEARCH_MAX_PAGE_SIZE) (env .SEARCH_DEFAULT_PAGE_SIZE) = false
    rw [hd, hm] at hle ⊢
    rw [Number.lt_finite, decide_eq_false_iff_not, not_lt]
    exact of_decide_eq_true hle

end Refined

/-! ## What was spelled -/

section Spelled

variable {z : Zod} {raw : ProcessEnv} {env : Environment}

/-- A switch is spelled one of two ways. -/
theorem text_of_yields_flag {text : String} {b : Bool} (h : (z.flag text).Yields b) :
    text = if b then "true" else "false" := by
  unfold Zod.flag Zod.enum at h
  by_cases htrue : text = "true"
  · subst htrue
    cases h
    rfl
  by_cases hfalse : text = "false"
  · subst hfalse
    cases h
    rfl
  · have hnone : [("true", true), ("false", false)].lookup text = none := by
      rw [List.lookup_eq_none_iff]
      simp [htrue, hfalse]
    simp only [hnone] at h
    cases h

/-- A switch that is off by default is on only when it is spelled so. -/
theorem on_iff_of_yields_flag {input : Option String} {b : Bool}
    (h : (withDefault false z.flag input).Yields b) : b = true ↔ input = some "true" := by
  cases input with
  | none =>
    cases h
    exact iff_of_false Bool.false_ne_true fun h => by cases h
  | some text =>
    rw [text_of_yields_flag h]
    cases b <;> decide

/-- A switch that is on by default is off only when it is spelled so. -/
theorem off_iff_of_yields_flag {input : Option String} {b : Bool}
    (h : (withDefault true z.flag input).Yields b) : b = false ↔ input = some "false" := by
  cases input with
  | none =>
    cases h
    exact iff_of_false (by decide) fun h => by cases h
  | some text =>
    rw [text_of_yields_flag h]
    cases b <;> decide

/-- A text that is not checked is kept. -/
theorem eq_of_yields_text {input value : Option String}
    (h : (optional (I := String) Zod.string input).Yields value) : value = input := by
  cases input with
  | none =>
    cases h
    rfl
  | some text =>
    cases h
    rfl

/-- A process that is not told otherwise authenticates. -/
theorem authenticates_of_validateEnv (h : validateEnv z raw = .ok env)
    (hon : raw .API_AUTH_ENABLED ≠ some "false") : env .API_AUTH_ENABLED = true := by
  by_contra hoff
  exact hon ((off_iff_of_yields_flag ((validateEnv_eq_ok.mp h).1 .API_AUTH_ENABLED)).mp
    (eq_false_of_ne_true hoff))

theorem keys_of_validateEnv (h : validateEnv z raw = .ok env) :
    env.edge.apiAuth.keys = parseKeys (raw .API_KEYS) := by
  have hkeys : env .API_KEYS = raw .API_KEYS := eq_of_yields_text ((validateEnv_eq_ok.mp h).1 .API_KEYS)
  show parseList (env .API_KEYS) = _
  rw [parseList_eq_parseKeys, hkeys]

theorem production_of_spelled (h : validateEnv z raw = .ok env)
    (hspelled : raw .NODE_ENV = some "production") : env .NODE_ENV = .production := by
  have hyields := (validateEnv_eq_ok.mp h).1 .NODE_ENV
  rw [hspelled] at hyields
  exact (reached.inj (show Parsed.reached NodeEnv.production [] = .reached (env .NODE_ENV) [] from
    hyields)).1.symm

/-- The token is what is left of a text when it is trimmed. -/
theorem token_of_validateEnv (h : validateEnv z raw = .ok env) {token : String}
    (htoken : env .METRICS_TOKEN = some token) :
    ∃ secret, raw .METRICS_TOKEN = some secret ∧ trim secret = token ∧ token ≠ "" := by
  have hyields := (validateEnv_eq_ok.mp h).1 .METRICS_TOKEN
  rw [htoken] at hyields
  cases hraw : raw .METRICS_TOKEN with
  | none =>
    rw [hraw] at hyields
    cases hyields
  | some secret =>
    rw [hraw] at hyields
    obtain ⟨value, hvalue, heq⟩ := yields_map.mp hyields
    cases heq
    obtain ⟨hread, hne⟩ := yields_check.mp hvalue
    cases hread
    exact ⟨secret, rfl, rfl, of_decide_eq_true hne⟩

end Spelled

/-! ## Authentication -/

/-- Who presents a listed key is identified. -/
theorem createKeyIdentifier_of_listed (sha256 : String → String) {keys : List String} {key : String}
    (hkey : key ∈ keys) (hne : key ≠ "") :
    createKeyIdentifier sha256 keys (some key) = some (toClientId (sha256 key)) := by
  have hlisted : (keys.map sha256).contains (sha256 key) = true :=
    List.contains_iff_mem.mpr (List.mem_map_of_mem hkey)
  unfold createKeyIdentifier
  simp only [if_neg hne, foldl_matches, hlisted, Bool.or_true, if_true]

/-- A request that Nest dispatches reads nothing of the documentation. -/
theorem not_swagger_of_dispatch {request : Request} {controller : Controller}
    (h : dispatch request = some controller) :
    (DOCS_PATHS.any fun mount => useCovers mount (pathname request.url)) = false ∧
      swaggerRoute request = none := by
  have hget : answersGet request = true := by
    by_contra hno
    unfold dispatch at h
    rw [if_neg hno] at h
    cases h
  have hfound : (controllerRoutes.find? fun r => routeMatches r.1 (pathname request.url)).map (·.2) =
      some controller := by
    unfold dispatch at h
    rwa [if_pos hget] at h
  have hdocs : (DOCS_PATHS.any fun mount => useCovers mount (pathname request.url)) = false :=
    @not_docs_of_dispatch request.url controller hfound
  refine ⟨hdocs, ?_⟩
  cases hpart : swaggerRoute request with
  | none => rfl
  | some part =>
    have hyaml := (swaggerRoute_of_not_covered (ne_true_of_eq_false hdocs) hpart).2
    obtain ⟨r, hfind, -⟩ := Option.map_eq_some_iff.mp hfound
    have hmatches : routeMatches r.1 (pathname request.url) := by simpa using List.find?_some hfind
    have hapart : ∀ r ∈ controllerRoutes, ∀ path ∈ [r.1.toList, r.1.toList ++ ['/']],
        ¬ (path = "/docs-yaml".toList ∨ path = "/docs-yaml".toList ++ ['/']) := by decide
    exact absurd (routeMatches_iff.mp hyaml) (hapart r (List.mem_of_find?_eq_some hfind) _
      (by simpa using routeMatches_iff.mp hmatches))

/-- **A process that boots authenticates.** Unless `API_AUTH_ENABLED` is spelled `false`, a process that
boots lists the keys of `API_KEYS`, at least one and none of them short. Whatever the budgets say, a
request that presents none of them reaches no client endpoint; within its budget a request that presents
one of them reaches every endpoint it is dispatched to. -/
theorem boot_authenticates (z : Zod) (sha256 : String → String) {raw : ProcessEnv} {env : Environment}
    (hboot : validateEnv z raw = .ok env) (hspelled : raw .API_AUTH_ENABLED ≠ some "false") :
    parseKeys (raw .API_KEYS) ≠ [] ∧
      (∀ key ∈ parseKeys (raw .API_KEYS), MIN_API_KEY_LENGTH ≤ (codeUnits key).length) ∧
      (∀ request overBudget controller,
        (∀ p ∈ presentedKey request, ∀ key ∈ parseKeys (raw .API_KEYS), sha256 key ≠ sha256 p) →
        serve sha256 env.edge overBudget request = .handled controller → controller.isClient = false) ∧
      ∀ key ∈ parseKeys (raw .API_KEYS), ∀ request controller, presentedKey request = some key →
        dispatch request = some controller → serve sha256 env.edge false request = .handled controller := by
  have hon : env.edge.apiAuth.enabled = true := authenticates_of_validateEnv hboot hspelled
  have hkeys := keys_of_validateEnv hboot
  obtain ⟨hne, hlong⟩ := (accepted_of_validateEnv hboot).keys hon
  rw [hkeys] at hne hlong
  refine ⟨hne, hlong, ?_, ?_⟩
  · intro request overBudget controller hunlisted hserve
    have hnone : createKeyIdentifier sha256 env.edge.apiAuth.keys (presentedKey request) = none := by
      rw [hkeys]
      exact createKeyIdentifier_of_unlisted hunlisted
    unfold serve at hserve
    rw [hnone, if_pos (rfl : (none : Option String) = none)] at hserve
    split_ifs at hserve
    unfold serveMounted at hserve
    cases hpart : swaggerRoute request with
    | some part =>
      rw [hpart] at hserve
      cases hserve
    | none =>
      rw [hpart] at hserve
      have hwithholds : (serveRoutes sha256 env.edge overBudget request).Withholds :=
        serveRoutes_withholds hon hnone
      rw [show serveRoutes sha256 env.edge overBudget request = .handled controller from hserve] at hwithholds
      exact hwithholds
  · intro key hkey request controller hpresented hdispatch
    obtain ⟨hdocs, hswagger⟩ := not_swagger_of_dispatch hdispatch
    have hnonempty : key ≠ "" := by
      unfold parseKeys at hkey
      exact of_decide_eq_true (List.mem_filter.mp hkey).2
    have hidentified : (createKeyIdentifier sha256 env.edge.apiAuth.keys (presentedKey request)).isSome := by
      rw [hkeys, hpresented, createKeyIdentifier_of_listed sha256 hkey hnonempty]
      rfl
    unfold serve serveMounted serveRoutes canActivate
    rw [if_neg (fun h => ne_true_of_eq_false hdocs h.2), hswagger, hdispatch, hidentified]
    simp

theorem boots_of_isOk {z : Zod} {raw : ProcessEnv} (h : (validateEnv z raw).isOk = true) :
    ∃ env, validateEnv z raw = .ok env := by
  cases hboot : validateEnv z raw with
  | error message =>
    rw [hboot] at h
    cases h
  | ok env => exact ⟨env, rfl⟩

/-- Takes for a URL what has a scheme. -/
def schemeZod : Zod where
  message _ := "Invalid input"
  url text := if "://".toList <:+: text.toList then some text else none

/-- What a deployment spells, and leaves to the defaults. -/
def spelledEnv : ProcessEnv
  | .NODE_ENV => some "production"
  | .ELASTICSEARCH_NODE => some "http://elasticsearch:9200"
  | .REDIS_URL => some "redis://redis:6379"
  | .API_KEYS => some "0123456789abcdef, ,fedcba9876543210 "
  | .METRICS_TOKEN => some " scrape-secret "
  | _ => none

theorem spelledEnv_boots : ∃ env, validateEnv schemeZod spelledEnv = .ok env :=
  boots_of_isOk (by decide +kernel)

/-- A search with a key. -/
def keyedSearch (key : String) : Request where
  method := "GET"
  url := "/search?q=drill"
  headers name := if name = API_KEY_HEADER then some (.single key) else none

/-- The second key of the list opens the search, another one does not. -/
theorem boot_authenticates_spelled : ∃ env, validateEnv schemeZod spelledEnv = .ok env ∧
    serve id env.edge false (keyedSearch "fedcba9876543210") = .handled .search ∧
    serve id env.edge false (keyedSearch "0000000000000000") ≠ .handled .search := by
  obtain ⟨env, hboot⟩ := spelledEnv_boots
  obtain ⟨-, -, hclosed, hopen⟩ := boot_authenticates schemeZod id hboot (by decide)
  refine ⟨env, hboot, hopen _ (by decide +kernel) _ _ rfl (by decide +kernel), fun hserve => ?_⟩
  have hclient := hclosed _ _ _ (by decide +kernel) hserve
  cases hclient

/-! ## Measurements -/

/-- **What a production process shows of its measurements.** A process that boots in production returns
the registry exactly to who presents the token that its environment spells, and only where metrics are
not switched off. -/
theorem boot_measures_privately (z : Zod) {raw : ProcessEnv} {env : Environment}
    (hboot : validateEnv z raw = .ok env) (hproduction : raw .NODE_ENV = some "production")
    {registry : String} (hregistry : registry ≠ "") (authorization : Option String) :
    scrape env registry authorization = .ok registry ↔
      raw .METRICS_ENABLED ≠ some "false" ∧ ∃ secret, raw .METRICS_TOKEN = some secret ∧
        trim secret ≠ "" ∧ authorization = some ("Bearer " ++ trim secret) := by
  have hswitch := off_iff_of_yields_flag ((validateEnv_eq_ok.mp hboot).1 .METRICS_ENABLED)
  cases hmetrics : env .METRICS_ENABLED with
  | false =>
    -- switched off: an empty body for everyone
    have hspelled : raw .METRICS_ENABLED = some "false" := hswitch.mp hmetrics
    have hnoop : buildMetricsAdapter env = .noop := by
      unfold buildMetricsAdapter
      rw [hmetrics]
      rfl
    refine iff_of_false ?_ fun h => h.1 hspelled
    unfold scrape
    rw [hnoop]
    cases env .METRICS_TOKEN with
    | none => exact fun h => hregistry (Except.ok.inj h).symm
    | some token =>
      dsimp only
      split_ifs
      · exact fun h => hregistry (Except.ok.inj h).symm
      · exact fun h => by cases h
  | true =>
    have hspelled : raw .METRICS_ENABLED ≠ some "false" := by
      intro hoff
      rw [hswitch.mpr hoff] at hmetrics
      cases hmetrics
    have hrender : (buildMetricsAdapter env).render registry = registry := by
      unfold buildMetricsAdapter
      rw [hmetrics]
      cases env .OTEL_METRICS_EXPORT_ENABLED <;> cases env .OTEL_EXPORTER_OTLP_ENDPOINT <;> rfl
    obtain ⟨token, htoken⟩ := Option.isSome_iff_exists.mp
      ((accepted_of_validateEnv hboot).token (production_of_spelled hboot hproduction) hmetrics)
    obtain ⟨secret, hsecret, htrim, hne⟩ := token_of_validateEnv hboot htoken
    unfold scrape
    rw [htoken, hrender]
    dsimp only
    constructor
    · intro h
      refine ⟨hspelled, secret, hsecret, htrim ▸ hne, ?_⟩
      by_contra hother
      rw [if_neg (by rw [← htrim]; exact hother)] at h
      cases h
    · rintro ⟨-, secret', hsecret', -, hauthorization⟩
      rw [hsecret] at hsecret'
      rw [if_pos (by rw [hauthorization, ← Option.some.inj hsecret', htrim])]

/-- The registry is returned to who presents the token. -/
theorem boot_measures_privately_spelled : ∃ env, validateEnv schemeZod spelledEnv = .ok env ∧
    scrape env "up 1" (some "Bearer scrape-secret") = .ok "up 1" ∧
    scrape env "up 1" (some "Bearer 0123456789abcdef") ≠ .ok "up 1" := by
  obtain ⟨env, hboot⟩ := spelledEnv_boots
  have hscrape := boot_measures_privately schemeZod hboot rfl (show "up 1" ≠ "" by decide)
  refine ⟨env, hboot, (hscrape _).mpr ⟨by decide, _, rfl, by decide +kernel, by decide +kernel⟩, fun h => ?_⟩
  obtain ⟨-, secret, hsecret, -, hother⟩ := (hscrape _).mp h
  cases hsecret
  exact absurd hother (by decide +kernel)

/-! ## Rotation -/

/-- Lists joined by a comma. -/
theorem parseKeys_append (text added : String) :
    parseKeys (some (text ++ "," ++ added)) = parseKeys (some text) ++ parseKeys (some added) := by
  have hsplit : split (text ++ "," ++ added) ',' = split text ',' ++ split added ',' := by
    unfold split
    rw [String.toList_append, String.toList_append, List.append_assoc,
      show ",".toList ++ added.toList = ',' :: added.toList from rfl, List.splitOn_append_cons_self,
      List.map_append]
  unfold parseKeys
  rw [Option.getD_some, Option.getD_some, Option.getD_some, hsplit, List.map_append, List.filter_append]

/-- Who is identified by one of two lists. -/
theorem createKeyIdentifier_append (sha256 : String → String) (keys added : List String)
    (presented : Option String) :
    createKeyIdentifier sha256 (keys ++ added) presented =
      (createKeyIdentifier sha256 keys presented).or (createKeyIdentifier sha256 added presented) := by
  unfold createKeyIdentifier
  cases presented with
  | none => rfl
  | some p =>
    dsimp only
    by_cases hempty : p = ""
    · simp only [if_pos hempty, Option.or_self]
    · rw [if_neg hempty, if_neg hempty, if_neg hempty, List.map_append, foldl_matches, foldl_matches,
        foldl_matches, List.contains_append, Bool.false_or, Bool.false_or, Bool.false_or]
      cases (keys.map sha256).contains (sha256 p) <;> simp

/-- The environment with more keys appended. -/
def ProcessEnv.rotated (raw : ProcessEnv) (text added : String) : ProcessEnv :=
  Function.update raw .API_KEYS (some (text ++ "," ++ added))

/-- What a process boots with when keys are appended. -/
theorem rotated_values {z : Zod} {raw : ProcessEnv} {env env' : Environment} {text added : String}
    (hboot : validateEnv z raw = .ok env) (hboot' : validateEnv z (raw.rotated text added) = .ok env') :
    (∀ v, v ≠ .API_KEYS → env' v = env v) ∧ env' .API_KEYS = some (text ++ "," ++ added) := by
  have hfields := (validateEnv_eq_ok.mp hboot).1
  have hfields' := (validateEnv_eq_ok.mp hboot').1
  constructor
  · intro v hv
    have hyields := hfields' v
    unfold ProcessEnv.rotated at hyields
    rw [Function.update_of_ne hv] at hyields
    exact Yields.unique hyields (hfields v)
  · have hyields := hfields' .API_KEYS
    unfold ProcessEnv.rotated at hyields
    rw [Function.update_self] at hyields
    exact eq_of_yields_text hyields

/-- Nothing but the keys is checked again. -/
theorem rotated_boots {z : Zod} {raw : ProcessEnv} {env : Environment} {text added : String}
    (hboot : validateEnv z raw = .ok env) (htext : raw .API_KEYS = some text)
    (hlong : env .API_AUTH_ENABLED = true →
      ∀ key ∈ parseKeys (some added), MIN_API_KEY_LENGTH ≤ (codeUnits key).length) :
    ∃ env', validateEnv z (raw.rotated text added) = .ok env' := by
  have hfields := (validateEnv_eq_ok.mp hboot).1
  have hkeys : env .API_KEYS = some text := (eq_of_yields_text (hfields .API_KEYS)).trans htext
  obtain ⟨env', henv'⟩ : ∃ env', env' = Function.update env .API_KEYS (some (text ++ "," ++ added)) :=
    ⟨_, rfl⟩
  have hsame : ∀ v, v ≠ .API_KEYS → env' v = env v := fun v hv => by
    rw [henv', Function.update_of_ne hv]
  have hnew : env' .API_KEYS = some (text ++ "," ++ added) := by rw [henv', Function.update_self]
  refine ⟨env', validateEnv_eq_ok.mpr ⟨fun v => ?_, ?_⟩⟩
  · unfold ProcessEnv.rotated
    by_cases hv : v = .API_KEYS
    · subst hv
      rw [Function.update_self, hnew]
      rfl
    · rw [Function.update_of_ne hv, hsame v hv]
      exact hfields v
  · have hrefined := (validateEnv_eq_ok.mp hboot).2
    simp only [envRefinements, List.forall_mem_cons, List.not_mem_nil, false_imp_iff, implies_true,
      and_true] at hrefined ⊢
    obtain ⟨h₁, h₂, h₃, h₄, h₅, h₆, h₇, h₈⟩ := hrefined
    simp only [hnew, parseKeys_append, hsame .ELASTICSEARCH_USERNAME (by decide),
      hsame .ELASTICSEARCH_PASSWORD (by decide), hsame .SEARCH_DEFAULT_PAGE_SIZE (by decide),
      hsame .SEARCH_MAX_PAGE_SIZE (by decide), hsame .API_AUTH_ENABLED (by decide),
      hsame .NODE_ENV (by decide), hsame .METRICS_ENABLED (by decide), hsame .METRICS_TOKEN (by decide),
      hsame .OTEL_METRICS_EXPORT_ENABLED (by decide), hsame .OTEL_EXPORTER_OTLP_ENDPOINT (by decide),
      hsame .LOKI_URL (by decide), hsame .LOKI_USERNAME (by decide), hsame .LOKI_PASSWORD (by decide)]
    rw [hkeys] at h₃ h₄
    refine ⟨h₁, h₂, ?_, ?_, h₅, h₆, h₇, h₈⟩
    · cases hon : env .API_AUTH_ENABLED with
      | false => rfl
      | true =>
        rw [hon, Bool.not_true, Bool.false_or, decide_eq_true_eq] at h₃
        rw [Bool.not_true, Bool.false_or, decide_eq_true_eq, List.length_append]
        omega
    · cases hon : env .API_AUTH_ENABLED with
      | false => rfl
      | true =>
        rw [hon, Bool.not_true, Bool.false_or] at h₄
        rw [Bool.not_true, Bool.false_or, List.all_append, h₄, Bool.true_and, List.all_eq_true]
        exact fun key hkey => decide_eq_true (hlong hon key hkey)

/-- **A key is rotated in.** With keys appended to `API_KEYS` a process that boots still does, unless it
authenticates and one of them is short; every other value is what it was, whoever was identified still is
and as the same client, and nobody else is but who presents an appended key. -/
theorem keys_rotated (z : Zod) {raw : ProcessEnv} {env : Environment} {text added : String}
    (hboot : validateEnv z raw = .ok env) (htext : raw .API_KEYS = some text) :
    ((∃ env', validateEnv z (raw.rotated text added) = .ok env') ↔ (env .API_AUTH_ENABLED = true →
        ∀ key ∈ parseKeys (some added), MIN_API_KEY_LENGTH ≤ (codeUnits key).length)) ∧
      ∀ env', validateEnv z (raw.rotated text added) = .ok env' →
        (∀ v, v ≠ .API_KEYS → env' v = env v) ∧
        ∀ sha256 presented, createKeyIdentifier sha256 env'.edge.apiAuth.keys presented =
          (createKeyIdentifier sha256 env.edge.apiAuth.keys presented).or
            (createKeyIdentifier sha256 (parseKeys (some added)) presented) := by
  have hkeys : env .API_KEYS = some text :=
    (eq_of_yields_text ((validateEnv_eq_ok.mp hboot).1 .API_KEYS)).trans htext
  have happended : ∀ {env'}, validateEnv z (raw.rotated text added) = .ok env' →
      env'.edge.apiAuth.keys = env.edge.apiAuth.keys ++ parseKeys (some added) := by
    intro env' hboot'
    show parseList (env' .API_KEYS) = parseList (env .API_KEYS) ++ _
    rw [parseList_eq_parseKeys, parseList_eq_parseKeys, (rotated_values hboot hboot').2, hkeys,
      parseKeys_append]
  refine ⟨⟨?_, rotated_boots hboot htext⟩, ?_⟩
  · rintro ⟨env', hboot'⟩ hon key hkey
    have hon' : env' .API_AUTH_ENABLED = true :=
      ((rotated_values hboot hboot').1 .API_AUTH_ENABLED (by decide)).trans hon
    refine ((accepted_of_validateEnv hboot').keys hon').2 key ?_
    rw [happended hboot']
    exact List.mem_append_right _ hkey
  · intro env' hboot'
    refine ⟨(rotated_values hboot hboot').1, fun sha256 presented => ?_⟩
    rw [happended hboot', createKeyIdentifier_append]

/-- A long key may be appended and a short one may not. -/
theorem keys_rotated_spelled :
    (∃ env', validateEnv schemeZod (spelledEnv.rotated "0123456789abcdef, ,fedcba9876543210 "
      "00112233445566778899") = .ok env') ∧
    ¬ ∃ env', validateEnv schemeZod (spelledEnv.rotated "0123456789abcdef, ,fedcba9876543210 "
      "placeholder") = .ok env' := by
  obtain ⟨env, hboot⟩ := spelledEnv_boots
  refine ⟨(keys_rotated schemeZod hboot rfl).1.mpr fun _ => by decide +kernel, fun hshort => ?_⟩
  have hlong := (keys_rotated schemeZod hboot rfl).1.mp hshort (authenticates_of_validateEnv hboot (by decide))
  exact absurd (hlong "placeholder" (by decide +kernel)) (by decide +kernel)

end AdvancedSearch
