import AdvancedSearch.Http.ErrorLog

/-!
# What a stranger learns of the routes

Without a key a known path and an unknown one are answered alike, but for a `GET` or a `HEAD`: these are
rejected on a route and not found anywhere else (`told_iff`).
-/

namespace AdvancedSearch

/-! ## CORS -/

inductive NodeEnv where
  | development | test | production
  deriving DecidableEq

/-- What CORS reads of the configuration. -/
structure CorsConfig where
  corsOrigins : List String
  nodeEnv : NodeEnv

/-- `string[] | boolean`. -/
inductive CorsOrigin where
  | list (origins : List String)
  | flag (reflect : Bool)

/-- An explicit list wins, else reflect in development and same-origin in production. -/
def resolveCorsOrigin (config : CorsConfig) : CorsOrigin :=
  if config.corsOrigins ≠ [] then .list config.corsOrigins else .flag (config.nodeEnv ≠ .production)

/-- Whether the CORS middleware answers a request by itself, whatever its path. -/
def isPreflight (origin : CorsOrigin) (request : Request) : Bool :=
  match origin with
  | .flag false => false
  | _ => request.method.toList.map Char.toUpper = "OPTIONS".toList

/-! ## Answers -/

/-- What a client gets: a preflight is answered 204, an error with the status in its body. -/
inductive Answer where
  | preflight
  | error (body : ErrorBody)
  | contract (part : ContractPart)
  | handled (controller : Controller)

/-- The bodies that the middleware of the documentation writes by hand. -/
def docsError (statusCode : ℕ) (error message : String) (request : Request) (timestamp : String) :
    ErrorBody :=
  { statusCode, error, message, timestamp, path := request.url }

/-- It says nothing about why. -/
def keyRequired : String := "A valid " ++ API_KEY_HEADER ++ " header is required"

namespace SearchService

variable (service : SearchService)

/-- What the filter sends of an exception. -/
def filtered (exception : HttpException) (request : Request) (timestamp : String) : ErrorBody :=
  (catchException service.sha256 service.edge.apiAuth
    { failure := .http exception, stack := exception.name } request timestamp).body

/-- The application as `configureApp` and `setupOpenApi` leave it, for a request whose body is parsed. -/
def answer (cors : CorsConfig) (overBudget : Bool) (request : Request) (timestamp : String) : Answer :=
  if isPreflight (resolveCorsOrigin cors) request then .preflight
  else
    let onDocs := DOCS_PATHS.any fun mount => useCovers mount (pathname request.url)
    match serve service.sha256 service.edge overBudget request with
    | .tooManyRequests =>
      .error (if onDocs then
        docsError 429 "Too Many Requests" "Rate limit exceeded. Retry later." request timestamp
      else service.filtered .tooManyRequests request timestamp)
    | .unauthorized =>
      .error (if onDocs then docsError 401 "Unauthorized" keyRequired request timestamp
      else service.filtered (.unauthorized keyRequired) request timestamp)
    | .notFound => .error (service.filtered (.notFound request) request timestamp)
    | .contract part => .contract part
    | .handled controller => .handled controller

end SearchService

/-! ## Strangers -/

/-- A request without a valid key, outside the operator paths and the documentation. -/
structure Stranger (service : SearchService) (request : Request) : Prop where
  keyless : createKeyIdentifier service.sha256 service.edge.apiAuth.keys (presentedKey request) = none
  operator : matchesPath request.url.toList OPERATOR_PATHS = false
  docs : (DOCS_PATHS.any fun mount => useCovers mount (pathname request.url)) = false
  yaml : ¬ ReadsYaml request

/-- Whether a controller has the path of a URL. -/
def isRoute (url : String) : Bool := controllerRoutes.any fun r => routeMatches r.1 (pathname url)

/-- Two texts that have their own URL in the same places, and are equal elsewhere. -/
def SameButUrl (url url' text text' : String) : Prop :=
  ∃ pieces : List String, text = url.intercalate pieces ∧ text' = url'.intercalate pieces

/-- One status and one body, up to the timestamp, the path and the URL in the message. -/
inductive Indistinct (request request' : Request) : Answer → Answer → Prop
  | preflight : Indistinct request request' .preflight .preflight
  | error {body body' : ErrorBody} : body.statusCode = body'.statusCode → body.error = body'.error →
    body.details = body'.details → SameButUrl request.url request'.url body.message body'.message →
    Indistinct request request' (.error body) (.error body')

theorem SameButUrl.refl (url url' text : String) : SameButUrl url url' text text :=
  ⟨[text], String.intercalate_singleton.symm, String.intercalate_singleton.symm⟩

/-! ## What a stranger is answered -/

/-- What a stranger is told: a read of a route is rejected, everything else is not found. -/
def told (request : Request) : DetailedError :=
  fromHttpException
    (if answersGet request && isRoute request.url then .unauthorized keyRequired else .notFound request)

section

variable {service : SearchService} {request request' : Request}

theorem dispatch_isSome : (dispatch request).isSome = (answersGet request && isRoute request.url) := by
  unfold dispatch isRoute
  cases answersGet request
  · rfl
  · rw [if_pos rfl, Option.isSome_map, List.isSome_find?, Bool.true_and]

namespace Stranger

variable (h : Stranger service request)

include h

/-- Swagger has nothing for a stranger. -/
theorem swaggerRoute : swaggerRoute request = none := by
  rw [Option.eq_none_iff_forall_ne_some]
  intro part hpart
  exact h.yaml (swaggerRoute_of_not_covered (ne_true_of_eq_false h.docs) hpart)

/-- The guard runs for a read of a route, and rejects it. -/
theorem serve (henabled : service.edge.apiAuth.enabled = true) :
    serve service.sha256 service.edge false request =
      if answersGet request && isRoute request.url then .unauthorized else .notFound := by
  have hguard : canActivate service.sha256 service.edge.apiAuth request = false := by
    unfold canActivate
    rw [henabled, h.operator, h.keyless]
    rfl
  unfold AdvancedSearch.serve serveMounted serveRoutes
  rw [h.docs, h.swaggerRoute, ← dispatch_isSome, hguard]
  cases dispatch request <;> simp

/-- No error of a stranger is upgraded. -/
theorem filtered (henabled : service.edge.apiAuth.enabled = true) (exception : HttpException)
    (timestamp : String) :
    service.filtered exception request timestamp =
      { fromHttpException exception with timestamp, path := request.url } := by
  have hnot : ¬ NotAllowed service.sha256 service.edge.apiAuth request := fun hn => by
    have hkey := hn.authenticated henabled
    rw [h.keyless] at hkey
    cases hkey
  unfold SearchService.filtered catchException
  dsimp only
  rw [upgrade_of_not fun _ => hnot]
  rfl

/-- What a stranger is answered, within its budget. -/
theorem answer (henabled : service.edge.apiAuth.enabled = true) (cors : CorsConfig) (timestamp : String) :
    service.answer cors false request timestamp =
      if isPreflight (resolveCorsOrigin cors) request then .preflight
      else .error { told request with timestamp, path := request.url } := by
  unfold SearchService.answer told
  rw [h.docs, h.serve henabled]
  split_ifs
  · rfl
  · rw [← h.filtered henabled]
    rfl
  · rw [← h.filtered henabled]

end Stranger

/-- The answers to two unknown routes repeat the two URLs. -/
theorem sameButUrl_notFound (hmethod : request.method = request'.method) :
    SameButUrl request.url request'.url (notFoundException request).message
      (notFoundException request').message := by
  refine ⟨["Cannot " ++ request.method ++ " ", ""], ?_, ?_⟩
  · show _ = _ ++ request.url ++ ""
    rw [String.append_empty]
    rfl
  · show _ = _ ++ request'.url ++ ""
    rw [String.append_empty, hmethod]
    rfl

/-- A preflight is no read. -/
theorem not_answersGet_of_isPreflight {origin : CorsOrigin} (h : isPreflight origin request = true) :
    answersGet request = false := by
  unfold answersGet
  rw [decide_eq_false_iff_not]
  have hoptions : request.method.toList.map Char.toUpper = "OPTIONS".toList := by
    unfold isPreflight at h
    split at h
    · cases h
    · exact of_decide_eq_true h
  rintro (hm | hm) <;>
  · rw [hm] at hoptions
    exact absurd hoptions (by decide)

/-- **What a stranger learns of the routes.** Two requests of one method, without a valid key and within
their budgets, outside the operator paths and the documentation, are answered alike exactly when, if they
are reads, both are of routes or neither is. -/
theorem told_iff (service : SearchService) (henabled : service.edge.apiAuth.enabled = true)
    {request request' : Request} (h : Stranger service request) (h' : Stranger service request')
    (hmethod : request.method = request'.method) (cors : CorsConfig) (time time' : String) :
    Indistinct request request' (service.answer cors false request time)
        (service.answer cors false request' time') ↔
      (answersGet request → (isRoute request.url ↔ isRoute request'.url)) := by
  have hpreflight : isPreflight (resolveCorsOrigin cors) request' =
      isPreflight (resolveCorsOrigin cors) request := by
    unfold isPreflight
    rw [hmethod]
  have hget : answersGet request' = answersGet request := by
    unfold answersGet
    rw [hmethod]
  rw [h.answer henabled, h'.answer henabled, hpreflight]
  split_ifs with hoptions
  · rw [not_answersGet_of_isPreflight hoptions]
    exact iff_of_true .preflight nofun
  unfold told
  rw [hget]
  cases hread : answersGet request with
  | false =>
    refine iff_of_true ?_ nofun
    exact .error rfl rfl rfl (sameButUrl_notFound hmethod)
  | true =>
    cases hroute : isRoute request.url <;> cases hroute' : isRoute request'.url
    · exact iff_of_true (.error rfl rfl rfl (sameButUrl_notFound hmethod)) fun _ => Iff.rfl
    · refine iff_of_false (fun hsame => ?_) (by simp)
      cases hsame with
      | error hstatus => exact absurd hstatus (show 404 ≠ 401 by decide)
    · refine iff_of_false (fun hsame => ?_) (by simp)
      cases hsame with
      | error hstatus => exact absurd hstatus (show 401 ≠ 404 by decide)
    · exact iff_of_true (.error rfl rfl rfl (.refl _ _ _)) fun _ => Iff.rfl

end

/-- Production, without cross-origin callers. -/
def sameOrigin : CorsConfig := { corsOrigins := [], nodeEnv := .production }

/-- A call without a key and with a verb that the API does not answer. -/
def postedAnonymously (url : String) : Request := { anonymous url with method := "POST" }

/-- A wrong verb is answered alike on a route and off it. -/
theorem told_iff_posted : Indistinct (postedAnonymously "/search?q=drill") (postedAnonymously "/nope")
    (deployedService.answer sameOrigin false (postedAnonymously "/search?q=drill") "")
    (deployedService.answer sameOrigin false (postedAnonymously "/nope") "") := by
  have h : Stranger deployedService (postedAnonymously "/search?q=drill") :=
    ⟨by decide, by decide, by decide, by unfold ReadsYaml; decide⟩
  have h' : Stranger deployedService (postedAnonymously "/nope") :=
    ⟨by decide, by decide, by decide, by unfold ReadsYaml; decide⟩
  exact (told_iff deployedService rfl h h' rfl sameOrigin "" "").mpr fun hread => absurd hread (by decide)

/-- A read of a route is answered 401 and one of an unknown path 404. -/
theorem routes_told : deployedService.edge.apiAuth.enabled = true ∧
    Stranger deployedService (anonymous "/search") ∧ Stranger deployedService (anonymous "/nope") ∧
      (∃ body body' : ErrorBody,
        deployedService.answer sameOrigin false (anonymous "/search") "" = .error body ∧
          deployedService.answer sameOrigin false (anonymous "/nope") "" = .error body' ∧
          body.statusCode = 401 ∧ body'.statusCode = 404) ∧
      ¬ Indistinct (anonymous "/search") (anonymous "/nope")
        (deployedService.answer sameOrigin false (anonymous "/search") "")
        (deployedService.answer sameOrigin false (anonymous "/nope") "") := by
  have h : Stranger deployedService (anonymous "/search") :=
    ⟨by decide, by decide, by decide, by unfold ReadsYaml; decide⟩
  have h' : Stranger deployedService (anonymous "/nope") :=
    ⟨by decide, by decide, by decide, by unfold ReadsYaml; decide⟩
  have hanswer := h.answer rfl sameOrigin ""
  have hanswer' := h'.answer rfl sameOrigin ""
  rw [if_neg (by decide)] at hanswer hanswer'
  refine ⟨rfl, h, h', ⟨_, _, hanswer, hanswer', by decide, by decide⟩, fun hsame => ?_⟩
  rw [hanswer, hanswer'] at hsame
  cases hsame with
  | error hstatus => exact absurd hstatus (by decide)

end AdvancedSearch
