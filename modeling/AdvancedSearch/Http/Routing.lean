import AdvancedSearch.Http.Edge

/-!
# What a path is taken for

The rate limiter, the key guard and the exception filter each read the path of a request by themselves.
They agree with the router exactly on the paths that are spelled as the controllers declare them
(`classified_iff`).
-/

namespace AdvancedSearch

/-! ## The rate limiter -/

/-- Budgets per window. -/
structure RateLimitConfig where
  enabled : Bool
  windowSeconds : ℕ
  search : ℕ
  autocomplete : ℕ
  suggest : ℕ
  default : ℕ

/-- Readiness probing is never throttled; `/metrics` is. -/
def EXEMPT_PATHS : List String := ["/health"]

/-- The routed path without its query string. -/
def requestPath (url : String) : Path := pathWithoutQuery (pathname url)

def resolveLimit (path : Path) (config : RateLimitConfig) : ℕ :=
  if "/search".toList <+: path then config.search
  else if "/autocomplete".toList <+: path then config.autocomplete
  else if "/suggest".toList <+: path then config.suggest
  else config.default

def isExempt (path : Path) : Bool := matchesPath path EXEMPT_PATHS

/-! ## The exception filter -/

def API_PATHS : List String := ["/", "/search", "/autocomplete", "/suggest", "/health", "/metrics"]

/-- The verbs a read-only API answers. -/
def ALLOWED_METHODS : List String := ["GET", "HEAD", "OPTIONS"]

def ALLOW_HEADER_VALUE : String := "GET, HEAD, OPTIONS"

/-- Exact match only. -/
def isApiPath (url : String) : Bool := API_PATHS.any fun known => known.toList = pathWithoutQuery url.toList

def isAllowedMethod (method : String) : Bool :=
  ALLOWED_METHODS.any fun allowed => allowed.toList = method.toList.map Char.toUpper

structure ResolvedError where
  statusCode : ℕ
  error : String
  message : String
  deriving DecidableEq

/-- What Nest throws when no route takes a request. -/
def notFoundException (request : Request) : ResolvedError :=
  { statusCode := 404
    error := "Not Found"
    message := "Cannot " ++ request.method ++ " " ++ request.url }

/-- A known path called with another verb is answered 405, but only to who may know that it exists; the
first component is the `Allow` header. -/
def upgradeMethodNotAllowed (sha256 : String → String) (config : ApiAuthConfig) (request : Request)
    (resolved : ResolvedError) : Option String × ResolvedError :=
  if resolved.statusCode ≠ 404 then (none, resolved)
  else if ! isApiPath request.url || isAllowedMethod request.method then (none, resolved)
  else if config.enabled && (createKeyIdentifier sha256 config.keys (presentedKey request)).isNone then
    (none, resolved)
  else
    (some ALLOW_HEADER_VALUE,
      { statusCode := 405
        error := "Method Not Allowed"
        message := request.method ++ " is not supported on this endpoint; use " ++ ALLOW_HEADER_VALUE })

/-! ## Agreement with the router -/

/-- The path that a controller declares. -/
def Controller.path : Controller → String
  | search => "/search"
  | autocomplete => "/autocomplete"
  | suggestion => "/suggest"
  | serviceIndex => "/"
  | health => "/health"
  | metrics => "/metrics"

/-- The budget that is meant for a controller. -/
def Controller.limit (config : RateLimitConfig) : Controller → ℕ
  | search => config.search
  | autocomplete => config.autocomplete
  | suggestion => config.suggest
  | serviceIndex | health | metrics => config.default

/-- A request may know which paths exist. -/
def Authenticated (sha256 : String → String) (config : ApiAuthConfig) (request : Request) : Prop :=
  config.enabled → (createKeyIdentifier sha256 config.keys (presentedKey request)).isSome

/-- Who may know which paths exist is who is not told 404 for the lack of a key. -/
theorem authenticated_iff {sha256 : String → String} {config : ApiAuthConfig} {request : Request} :
    Authenticated sha256 config request ↔
      (config.enabled && (createKeyIdentifier sha256 config.keys (presentedKey request)).isNone) = false := by
  unfold Authenticated
  rw [Bool.and_eq_false_imp, Option.isNone_eq_false_iff]

/-- A request of an authenticated caller for this URL with a verb that the API does not answer. -/
structure WrongVerb (sha256 : String → String) (config : ApiAuthConfig) (url : String)
    (request : Request) : Prop where
  url_eq : request.url = url
  method : isAllowedMethod request.method = false
  authenticated : Authenticated sha256 config request

/-- Every reader of the path takes it for the controller. -/
structure Classified (url : String) (controller : Controller) : Prop where
  limit : ∀ config, resolveLimit (requestPath url) config = controller.limit config
  exempt : isExempt (requestPath url) ↔ controller = .health
  keyless : ∀ sha256 config, config.enabled →
    (canActivate sha256 config (anonymous url) ↔ controller = .health ∨ controller = .metrics)
  known : isApiPath url
  wrongVerb : ∀ sha256 config overBudget request, WrongVerb sha256 config.apiAuth url request →
    serve sha256 config overBudget request = .notFound ∧
      (upgradeMethodNotAllowed sha256 config.apiAuth request (notFoundException request)).2.statusCode = 405

/-- No controller's route is under the documentation. -/
theorem not_docs_of_dispatch {url : String} {controller : Controller}
    (h : dispatch (anonymous url) = some controller) :
    (DOCS_PATHS.any fun mount => useCovers mount (pathname url)) = false := by
  have hapart : ∀ mount ∈ DOCS_PATHS, ∀ r ∈ controllerRoutes,
      ∀ path ∈ [r.1.toList, r.1.toList ++ ['/']],
      ¬ (path = mount.toList ∨ mount.toList ++ ['/'] <+: path) := by decide
  obtain ⟨r, hfind, -⟩ := Option.map_eq_some_iff.mp
    (show (controllerRoutes.find? fun r => routeMatches r.1 (pathname url)).map (·.2) = some controller
      from h)
  have hmatches : routeMatches r.1 (pathname url) := by simpa using List.find?_some hfind
  rw [Bool.eq_false_iff]
  intro hany
  obtain ⟨mount, hmount, hcovers⟩ := List.any_eq_true.mp hany
  exact hapart mount hmount r (List.mem_of_find?_eq_some hfind) _
    (by simpa using routeMatches_iff.mp hmatches) (useCovers_iff.mp hcovers)

/-- A verb that the API does not answer reaches no route. -/
theorem serve_wrongVerb {sha256 : String → String} {config : EdgeConfig} {url : String}
    {controller : Controller} {overBudget : Bool} {request : Request}
    (hdispatch : dispatch (anonymous url) = some controller)
    (h : WrongVerb sha256 config.apiAuth url request) :
    serve sha256 config overBudget request = .notFound := by
  have hget : answersGet request = false := by
    unfold answersGet
    rw [decide_eq_false_iff_not]
    rintro (hm | hm) <;>
    · have := h.method
      rw [hm] at this
      exact absurd this (by decide)
  have hdocs : (DOCS_PATHS.any fun mount => useCovers mount (pathname request.url)) = false := by
    rw [h.url_eq]
    exact not_docs_of_dispatch hdispatch
  unfold serve serveMounted swaggerRoute serveRoutes dispatch
  rw [hdocs, hget]
  simp

/-- Without a fragment the router reads the path that was sent. -/
theorem pathname_of_plain {url path : String} (hpath : ∀ c ∈ path.toList, c ≠ '#')
    (h : pathWithoutQuery url.toList = path.toList) : pathname url = path.toList := by
  rw [pathname_eq, h, List.takeWhile_eq_self_iff]
  exact fun c hc => by simpa using hpath c hc

/-- What the guards read when a path is spelled as a controller declares it. -/
theorem paths_of_spelled {url : String} {controller : Controller}
    (h : pathWithoutQuery url.toList = controller.path.toList) :
    pathname url = controller.path.toList ∧ requestPath url = controller.path.toList := by
  have hplain : controller.path.toList.all fun c => c ≠ '#' ∧ c ≠ '?' := by
    cases controller <;> decide
  have hsent : ∀ c ∈ controller.path.toList, c ≠ '#' ∧ c ≠ '?' := fun c hc =>
    of_decide_eq_true (List.all_eq_true.mp hplain c hc)
  have hpath : pathname url = controller.path.toList := pathname_of_plain (fun c hc => (hsent c hc).1) h
  refine ⟨hpath, ?_⟩
  unfold requestPath pathWithoutQuery
  rw [hpath, List.takeWhile_eq_self_iff]
  exact fun c hc => by simpa using (hsent c hc).2

/-- The API paths are what the controllers declare. -/
theorem controller_of_isApiPath {url : String} (h : isApiPath url) :
    ∃ controller : Controller, pathWithoutQuery url.toList = controller.path.toList := by
  have hdeclared : ∀ known ∈ API_PATHS, ∃ controller : Controller, known = controller.path := by
    intro known hknown
    simp only [API_PATHS, List.mem_cons, List.not_mem_nil, or_false] at hknown
    rcases hknown with rfl | rfl | rfl | rfl | rfl | rfl
    · exact ⟨.serviceIndex, rfl⟩
    · exact ⟨.search, rfl⟩
    · exact ⟨.autocomplete, rfl⟩
    · exact ⟨.suggestion, rfl⟩
    · exact ⟨.health, rfl⟩
    · exact ⟨.metrics, rfl⟩
  obtain ⟨known, hknown, heq⟩ := List.any_eq_true.mp h
  obtain ⟨controller, rfl⟩ := hdeclared known hknown
  exact ⟨controller, (of_decide_eq_true heq).symm⟩

/-- A path spelled as a controller declares it is dispatched to that controller. -/
theorem dispatch_of_spelled {url : String} {controller : Controller}
    (h : pathWithoutQuery url.toList = controller.path.toList) :
    dispatch (anonymous url) = some controller := by
  show (controllerRoutes.find? fun r => routeMatches r.1 (pathname url)).map (·.2) = some controller
  rw [(paths_of_spelled h).1]
  cases controller <;> decide

/-- Without a key the guard lets a path through when it is an operator path. -/
theorem canActivate_anonymous {sha256 : String → String} {config : ApiAuthConfig} {url : String}
    (h : config.enabled) :
    canActivate sha256 config (anonymous url) = matchesPath url.toList OPERATOR_PATHS := by
  have hnone : createKeyIdentifier sha256 config.keys (presentedKey (anonymous url)) = none := rfl
  unfold canActivate
  rw [h, hnone]
  cases hmatch : matchesPath url.toList OPERATOR_PATHS <;> simp [anonymous, hmatch]

/-- **Path classification.** For a path that the router dispatches, the limiter, the exemption, the key
guard and the filter all take it for its controller exactly when it is spelled as the controller
declares it. -/
theorem classified_iff {url : String} {controller : Controller}
    (hdispatch : dispatch (anonymous url) = some controller) :
    Classified url controller ↔ pathWithoutQuery url.toList = controller.path.toList := by
  constructor
  · intro h
    obtain ⟨declared, hspelled⟩ := controller_of_isApiPath h.known
    have hsame := dispatch_of_spelled hspelled
    rw [hdispatch, Option.some.injEq] at hsame
    rw [hsame]
    exact hspelled
  · intro hspelled
    obtain ⟨-, hrequest⟩ := paths_of_spelled hspelled
    have hknown : isApiPath url := by
      unfold isApiPath
      rw [hspelled]
      cases controller <;> decide
    constructor
    case limit =>
      intro config
      rw [hrequest]
      cases controller <;> rfl
    case exempt =>
      rw [hrequest]
      cases controller <;> decide
    case keyless =>
      intro sha256 config henabled
      rw [canActivate_anonymous henabled]
      unfold matchesPath
      rw [hspelled]
      cases controller <;> decide
    case known => exact hknown
    case wrongVerb =>
      intro sha256 config overBudget request h
      refine ⟨serve_wrongVerb hdispatch h, ?_⟩
      unfold upgradeMethodNotAllowed notFoundException
      rw [h.url_eq, hknown, h.method, authenticated_iff.mp h.authenticated]
      rfl

/-- The path of a search. -/
theorem classified_search : Classified "/search?q=drill" .search :=
  (classified_iff (by decide)).mpr (by decide)

/-- A search in capitals is routed but spends the default budget, and the liveness probe is routed but
unknown to the filter. -/
theorem misclassified :
    (dispatch (anonymous "/SEARCH?q=drill") = some .search ∧ ¬ Classified "/SEARCH?q=drill" .search ∧
        ∀ config, resolveLimit (requestPath "/SEARCH?q=drill") config = config.default) ∧
      dispatch (anonymous "/health/live") = some .health ∧ ¬ Classified "/health/live" .health ∧
        isApiPath "/health/live" = false := by
  refine ⟨⟨by decide, fun h => ?_, fun config => rfl⟩, by decide, fun h => ?_, by decide⟩
  · exact absurd h.known (by decide)
  · exact absurd h.known (by decide)

end AdvancedSearch
