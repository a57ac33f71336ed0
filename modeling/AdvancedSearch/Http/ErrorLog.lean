import AdvancedSearch.Http.Routing
import AdvancedSearch.Search.Parameters

/-!
# The error log

`AllExceptionsFilter`, and the exceptions that a request can end in. The line of a failed request has the
path without the query, and then the message of the exception, which may repeat what the query says
(`lines_agree_iff`).
-/

namespace AdvancedSearch

open Js

/-! ## Exceptions -/

/-- `message` in the body of an `HttpException`: a text, or the texts of the validators. -/
inductive HttpMessage where
  | text (message : String)
  | details (messages : List String)
  deriving DecidableEq

/-- What `HttpException.getResponse` returns. -/
inductive HttpBody where
  | text (body : String)
  | object (error : Option String) (message : Option HttpMessage)
  deriving DecidableEq

structure HttpException where
  name : String
  status : ℕ
  body : HttpBody
  message : String
  deriving DecidableEq

/-- What a dependency throws: an answer of Elasticsearch, another error of its client, or any error. -/
inductive DependencyError where
  | response (statusCode : Option ℕ)
  | client (name : String)
  | other (name : String)

/-- An exception by its class; `rule` is another `ApplicationError` or a `DomainError`. -/
inductive Failure where
  | http (exception : HttpException)
  | resultWindowExceeded (message : String)
  | upstreamResponse (message : String)
  | rule (name message : String)
  | dependency (error : DependencyError)

/-- `stack` is its text where it is no `Error`. -/
structure Exception where
  failure : Failure
  stack : String

/-! ## The filter -/

/-- A resolved error, with the details of a validation. -/
structure DetailedError extends ResolvedError where
  details : Option (List String) := none

def fromHttpException (exception : HttpException) : DetailedError :=
  match exception.body with
  | .text body => { statusCode := exception.status, error := exception.name, message := body }
  | .object error message =>
    let error := error.getD exception.name
    match message with
    | some (.details messages) =>
      { statusCode := exception.status, error, message := "Validation failed", details := some messages }
    | some (.text message) => { statusCode := exception.status, error, message }
    | none => { statusCode := exception.status, error, message := exception.message }

/-- A 400 means that the query was bad, everything else that the upstream failed. -/
def fromElasticsearchResponse (statusCode : Option ℕ) : DetailedError :=
  if statusCode = some 400 then
    { statusCode := 400, error := "Bad Request", message := "Invalid search query" }
  else { statusCode := 502, error := "Bad Gateway", message := "Search engine error" }

def resolveError : Failure → DetailedError
  | .http exception => fromHttpException exception
  | .resultWindowExceeded message => { statusCode := 422, error := "Unprocessable Entity", message }
  | .upstreamResponse _ => { statusCode := 502, error := "Bad Gateway", message := "Search engine error" }
  | .rule _ message => { statusCode := 400, error := "Bad Request", message }
  | .dependency (.response statusCode) => fromElasticsearchResponse statusCode
  | .dependency (.client _) =>
    { statusCode := 503, error := "Service Unavailable", message := "Search engine unavailable" }
  | .dependency (.other _) =>
    { statusCode := 500, error := "Internal Server Error", message := "Internal server error" }

/-- `upgradeMethodNotAllowed`: an upgraded error has no details. -/
def upgrade (sha256 : String → String) (config : ApiAuthConfig) (request : Request)
    (resolved : DetailedError) : Option String × DetailedError :=
  match upgradeMethodNotAllowed sha256 config request resolved.toResolvedError with
  | (none, _) => (none, resolved)
  | (some allow, notAllowed) => (some allow, { notAllowed with details := none })

/-- Validation details win, else the message. -/
def messageSummary (resolved : DetailedError) : String :=
  match resolved.details with
  | some (detail :: details) => "; ".intercalate (detail :: details)
  | _ => resolved.message

inductive LogLevel where
  | error | warn

/-- What the logger is given; the stack becomes a field beside the line. -/
structure LogEntry where
  level : LogLevel
  line : String
  stack : Option String

def requestLine (request : Request) (statusCode : ℕ) : String :=
  request.method ++ " " ++ String.ofList (pathWithoutQuery request.url.toList) ++ " -> " ++
    toString statusCode

def logException (request : Request) (resolved : DetailedError) (exception : Exception) :
    Option LogEntry :=
  let line := requestLine request resolved.statusCode
  if 500 ≤ resolved.statusCode then some { level := .error, line, stack := some exception.stack }
  else if 400 ≤ resolved.statusCode then
    some { level := .warn, line := line ++ " " ++ messageSummary resolved, stack := none }
  else none

structure ErrorBody extends DetailedError where
  timestamp : String
  path : String

/-- What `catch` does: the `Allow` header, the response and the log. -/
structure Caught where
  allow : Option String
  body : ErrorBody
  log : Option LogEntry

/-- `AllExceptionsFilter.catch`. -/
def catchException (sha256 : String → String) (config : ApiAuthConfig) (exception : Exception)
    (request : Request) (timestamp : String) : Caught :=
  let (allow, resolved) := upgrade sha256 config request (resolveError exception.failure)
  { allow
    body := { resolved with timestamp, path := request.url }
    log := logException request resolved exception }

/-! ## What a request can end in -/

namespace HttpException

/-- An exception of Nest with a text. -/
def of (name : String) (status : ℕ) (error message : String) : HttpException :=
  { name, status, body := .object (some error) (some (.text message)), message }

/-- What Nest throws when no route takes a request. -/
def notFound (request : Request) : HttpException :=
  of "NotFoundException" (notFoundException request).statusCode (notFoundException request).error
    (notFoundException request).message

/-- `RateLimitGuard.throwThrottlingException`. -/
def tooManyRequests : HttpException :=
  of "HttpException" 429 "Too Many Requests" "Rate limit exceeded, retry after the window resets"

def unauthorized (message : String) : HttpException :=
  of "UnauthorizedException" 401 "Unauthorized" message

def badRequest (message : String) : HttpException := of "BadRequestException" 400 "Bad Request" message

/-- What the `ValidationPipe` throws. -/
def validation (messages : List String) : HttpException where
  name := "BadRequestException"
  status := 400
  body := .object (some "Bad Request") (some (.details messages))
  message := "Bad Request Exception"

end HttpException

/-- `request.headers.authorization`. -/
def authorization (request : Request) : Option String :=
  match request.headers "authorization" with
  | some (.single value) => some value
  | _ => none

/-- Whether `MetricsController.assertAuthorized` returns. -/
def metricsAuthorized (token : Option String) (request : Request) : Bool :=
  match token with
  | none => true
  | some token => authorization request = some ("Bearer " ++ token)

/-- A deployed service; `parseQuery` is the query parser of Express, `pipe` the one of Nest. -/
structure SearchService where
  sha256 : String → String
  edge : EdgeConfig
  metricsToken : Option String
  config : AppConfiguration
  parseQuery : String → QueryPairs
  pipe : ValidationPipe

/-- What follows the question mark. -/
def Request.query (request : Request) : String :=
  String.ofList ((request.url.toList.dropWhile (· ≠ '?')).drop 1)

namespace SearchService

variable (service : SearchService)

/-- The criteria of a search. -/
def criteria (request : Request) : Except BadRequest SearchCriteria :=
  searchCriteria service.pipe service.config.search (service.parseQuery request.query)

/-- The guards let a request through to a controller. -/
def Handles (request : Request) (controller : Controller) : Prop :=
  ∃ overBudget, serveRoutes service.sha256 service.edge overBudget request = .handled controller

end SearchService

/-- An error of the search adapter. -/
def Failure.ofSearchError : SearchError DependencyError → Failure
  | .resultWindowExceeded _ message => .resultWindowExceeded message
  | .upstreamResponse message => .upstreamResponse message
  | .client error => .dependency error

/-- The exceptions that reach the filter for a request. -/
inductive Throws (service : SearchService) (request : Request) : Failure → Prop where
  | notFound {overBudget : Bool} :
    serve service.sha256 service.edge overBudget request = .notFound →
    Throws service request (.http (.notFound request))
  | tooManyRequests {overBudget : Bool} :
    serveRoutes service.sha256 service.edge overBudget request = .tooManyRequests →
    Throws service request (.http .tooManyRequests)
  | unauthorized {overBudget : Bool} :
    serveRoutes service.sha256 service.edge overBudget request = .unauthorized →
    Throws service request (.http (.unauthorized ("A valid " ++ API_KEY_HEADER ++ " header is required")))
  | metrics :
    service.Handles request .metrics → metricsAuthorized service.metricsToken request = false →
    Throws service request (.http (.unauthorized "Metrics access requires a valid bearer token"))
  | validation {controller : Controller} (messages : List String) :
    service.Handles request controller →
    Throws service request (.http (.validation messages))
  | pageSize {text : String} :
    service.Handles request .search → service.criteria request = .error (.message text) →
    Throws service request (.http (.badRequest text))
  | search {client : SearchClient DependencyError} {criteria : SearchCriteria}
      {error : SearchError DependencyError} :
    service.Handles request .search → service.criteria request = .ok criteria →
    (SearchAdapter.of service.config).search client criteria = .error error →
    Throws service request (.ofSearchError error)
  | dependency {controller : Controller} (error : DependencyError) :
    service.Handles request controller →
    Throws service request (.dependency error)

/-! ## Two requests for one path -/

/-- Two requests that differ in their queries only. -/
structure SameButQuery (request request' : Request) : Prop where
  method : request.method = request'.method
  path : pathWithoutQuery request.url.toList = pathWithoutQuery request'.url.toList
  headers : request.headers = request'.headers

/-- Two exceptions have one class. -/
inductive Failure.SameClass : Failure → Failure → Prop where
  | http {exception exception' : HttpException} : exception.name = exception'.name →
    SameClass (.http exception) (.http exception')
  | resultWindowExceeded (message message' : String) :
    SameClass (.resultWindowExceeded message) (.resultWindowExceeded message')
  | upstreamResponse (message message' : String) :
    SameClass (.upstreamResponse message) (.upstreamResponse message')
  | rule (name message message' : String) : SameClass (.rule name message) (.rule name message')
  | response (statusCode statusCode' : Option ℕ) :
    SameClass (.dependency (.response statusCode)) (.dependency (.response statusCode'))
  | client (name : String) : SameClass (.dependency (.client name)) (.dependency (.client name))
  | other (name : String) : SameClass (.dependency (.other name)) (.dependency (.other name))

/-- A DTO was rejected. -/
def Failure.IsValidation (failure : Failure) : Prop :=
  ∃ messages, failure = http (.validation messages)

/-- The window that a search asks for. -/
def requestedWindow (criteria : SearchCriteria) : Number :=
  ((criteria.page.sub (.ofRat 1)).times criteria.pageSize).add criteria.pageSize

/-- The window that a query asks for, if it is a search. -/
def SearchService.window (service : SearchService) (request : Request) : Option Number :=
  (service.criteria request).toOption.map requestedWindow

/-- A known path called with another verb by who may know that it exists. -/
structure NotAllowed (sha256 : String → String) (config : ApiAuthConfig) (request : Request) : Prop where
  known : isApiPath request.url
  method : isAllowedMethod request.method = false
  authenticated : Authenticated sha256 config request

/-- What the message of an exception repeats of the query, or tells of the engine, is the same for two
requests. -/
def SearchService.SameReason (service : SearchService) (request request' : Request) :
    Failure → Failure → Prop
  | .http exception, .http _ => exception.name = "NotFoundException" →
      NotAllowed service.sha256 service.edge.apiAuth request ∨ request.url = request'.url
  | .resultWindowExceeded _, .resultWindowExceeded _ => service.window request = service.window request'
  | .dependency (.response statusCode), .dependency (.response statusCode') =>
      statusCode = some 400 ↔ statusCode' = some 400
  | _, _ => True

/-- The line that is logged. -/
def SearchService.loggedLine (service : SearchService) (exception : Exception) (request : Request)
    (timestamp : String) : Option String :=
  (catchException service.sha256 service.edge.apiAuth exception request timestamp).log.map (·.line)

namespace SameButQuery

variable {request request' : Request} (h : SameButQuery request request')

include h

theorem symm : SameButQuery request' request := ⟨h.method.symm, h.path.symm, h.headers.symm⟩

theorem presentedKey : presentedKey request = AdvancedSearch.presentedKey request' := by
  unfold AdvancedSearch.presentedKey
  rw [h.headers]

/-- The key guard decides alike. -/
theorem canActivate (sha256 : String → String) (config : ApiAuthConfig) :
    canActivate sha256 config request = AdvancedSearch.canActivate sha256 config request' := by
  unfold AdvancedSearch.canActivate matchesPath
  rw [h.path, h.presentedKey]

theorem upgrade (sha256 : String → String) (config : ApiAuthConfig) (resolved : DetailedError) :
    upgrade sha256 config request resolved = AdvancedSearch.upgrade sha256 config request' resolved := by
  unfold AdvancedSearch.upgrade upgradeMethodNotAllowed isApiPath
  rw [h.path, h.method, h.presentedKey]

theorem requestLine (statusCode : ℕ) :
    requestLine request statusCode = AdvancedSearch.requestLine request' statusCode := by
  unfold AdvancedSearch.requestLine
  rw [h.path, h.method]

/-- One resolved error is logged with one line, whatever the stacks. -/
theorem logException (resolved : DetailedError) (exception exception' : Exception) :
    (logException request resolved exception).map (·.line) =
      (AdvancedSearch.logException request' resolved exception').map (·.line) := by
  unfold AdvancedSearch.logException
  rw [h.requestLine]
  dsimp only
  split_ifs <;> rfl

end SameButQuery

/-! ## The upgrade to 405 -/

section

variable {sha256 : String → String} {config : ApiAuthConfig} {request : Request}

/-- An error that is upgraded is replaced whole. -/
theorem upgrade_of_notAllowed (h : NotAllowed sha256 config request) {resolved resolved' : DetailedError}
    (hstatus : resolved.statusCode = 404) (hstatus' : resolved'.statusCode = 404) :
    upgrade sha256 config request resolved = upgrade sha256 config request resolved' := by
  unfold upgrade upgradeMethodNotAllowed
  rw [hstatus, hstatus', h.known, h.method, authenticated_iff.mp h.authenticated]
  rfl

/-- Every other error stays as it is. -/
theorem upgrade_of_not {resolved : DetailedError}
    (h : resolved.statusCode = 404 → ¬ NotAllowed sha256 config request) :
    (upgrade sha256 config request resolved).2 = resolved := by
  unfold upgrade upgradeMethodNotAllowed
  by_cases hstatus : resolved.statusCode = 404
  · rw [if_neg (not_not.mpr hstatus)]
    by_cases hroute : (! isApiPath request.url || isAllowedMethod request.method) = true
    · rw [if_pos hroute]
    rw [if_neg hroute]
    by_cases hkey : (config.enabled &&
        (createKeyIdentifier sha256 config.keys (presentedKey request)).isNone) = true
    · rw [if_pos hkey]
    · rw [Bool.not_eq_true] at hroute hkey
      obtain ⟨hknown, hmethod⟩ := Bool.or_eq_false_iff.mp hroute
      exact absurd ⟨by simpa using hknown, hmethod, authenticated_iff.mpr hkey⟩ (h hstatus)
  · rw [if_pos hstatus]

end

/-! ## What is thrown -/

/-- What a list of calls throws, one of them throws. -/
theorem exists_error_of_mapM {α β ε : Type} {f : α → Except ε β} {error : ε} :
    ∀ {xs : List α}, xs.mapM f = .error error → ∃ x ∈ xs, f x = .error error
  | [], h => nomatch h
  | x :: xs, h => by
    rw [List.mapM_cons] at h
    cases hx : f x with
    | error error' =>
      rw [hx] at h
      cases h
      exact ⟨x, List.mem_cons_self, hx⟩
    | ok y =>
      cases hxs : xs.mapM f with
      | error error' =>
        simp only [hx, hxs, bind, Except.bind] at h
        cases h
        obtain ⟨x', hmem, hx'⟩ := exists_error_of_mapM hxs
        exact ⟨x', List.mem_cons_of_mem x hmem, hx'⟩
      | ok ys =>
        simp only [hx, hxs, bind, Except.bind] at h
        cases h

section

variable {service : SearchService} {request : Request}

/-- The guard of the routes, where the rate limiter lets a request pass. -/
theorem canActivate_of_handled {controller : Controller} (h : service.Handles request controller) :
    canActivate service.sha256 service.edge.apiAuth request = true := by
  obtain ⟨overBudget, h⟩ := h
  unfold serveRoutes at h
  cases hdispatch : dispatch request with
  | none => simp [hdispatch] at h
  | some controller' =>
    rw [hdispatch] at h
    dsimp only at h
    split_ifs at h with hlimit hkey
    exact hkey

theorem canActivate_of_unauthorized {overBudget : Bool}
    (h : serveRoutes service.sha256 service.edge overBudget request = .unauthorized) :
    canActivate service.sha256 service.edge.apiAuth request = false := by
  unfold serveRoutes at h
  cases hdispatch : dispatch request with
  | none => simp [hdispatch] at h
  | some controller =>
    rw [hdispatch] at h
    dsimp only at h
    split_ifs at h with hlimit hkey
    exact Bool.eq_false_iff.mpr hkey

/-- The text of a rejected page size has nothing of the query. -/
theorem pageSize_text {text : String} (h : service.criteria request = .error (.message text)) :
    text = "pageSize must not exceed " ++ service.config.search.maxPageSize.text := by
  unfold SearchService.criteria searchCriteria at h
  cases hpipe : service.pipe.transform (service.parseQuery request.query) with
  | error rejected =>
    rw [hpipe] at h
    cases h
  | ok dto =>
    rw [hpipe] at h
    cases hlimit : assertPageSizeWithinLimit service.config.search dto.pageSize with
    | ok _ =>
      simp only [Except.mapError, bind, Except.bind, hlimit] at h
      cases h
    | error message =>
      simp only [Except.mapError, bind, Except.bind, hlimit] at h
      cases h
      unfold assertPageSizeWithinLimit at hlimit
      cases hsize : dto.pageSize with
      | none =>
        rw [hsize] at hlimit
        cases hlimit
      | some pageSize =>
        rw [hsize] at hlimit
        dsimp only at hlimit
        split_ifs at hlimit
        exact (Except.error.inj hlimit).symm

/-- The HTTP exception of a class, where no text of the query is in it. -/
def SearchService.exceptionOf (service : SearchService) (request : Request) (name : String) :
    HttpException :=
  if name = "HttpException" then .tooManyRequests
  else if name = "BadRequestException" then
    .badRequest ("pageSize must not exceed " ++ service.config.search.maxPageSize.text)
  else if canActivate service.sha256 service.edge.apiAuth request then
    .unauthorized "Metrics access requires a valid bearer token"
  else .unauthorized ("A valid " ++ API_KEY_HEADER ++ " header is required")

/-- The HTTP exceptions of a request. -/
theorem Throws.of_http {exception : HttpException} (h : Throws service request (.http exception)) :
    exception = .notFound request ∨ (Failure.http exception).IsValidation ∨
      exception.name ≠ "NotFoundException" ∧ exception = service.exceptionOf request exception.name := by
  generalize hfailure : Failure.http exception = failure at h
  cases h with
  | notFound _ => exact Or.inl (Failure.http.inj hfailure)
  | tooManyRequests _ =>
    cases hfailure
    exact Or.inr (Or.inr ⟨by decide, rfl⟩)
  | unauthorized hguard =>
    cases hfailure
    refine Or.inr (Or.inr ⟨by decide, ?_⟩)
    unfold SearchService.exceptionOf
    rw [canActivate_of_unauthorized hguard]
    rfl
  | metrics hhandles _ =>
    cases hfailure
    refine Or.inr (Or.inr ⟨by decide, ?_⟩)
    unfold SearchService.exceptionOf
    rw [canActivate_of_handled hhandles]
    rfl
  | validation messages _ => exact Or.inr (Or.inl ⟨messages, rfl⟩)
  | pageSize _ hcriteria =>
    cases hfailure
    rw [pageSize_text hcriteria]
    exact Or.inr (Or.inr ⟨show "BadRequestException" ≠ "NotFoundException" by decide, rfl⟩)
  | @search _ _ error =>
    cases error <;> cases hfailure
  | dependency _ _ => cases hfailure

theorem toProductSummary_error {hit : SearchHit} {error : SearchError DependencyError}
    (h : toProductSummary hit = .error error) : ∃ message, error = .upstreamResponse message := by
  unfold toProductSummary at h
  cases hsource : hit.source with
  | none =>
    rw [hsource] at h
    exact ⟨_, (Except.error.inj h).symm⟩
  | some source =>
    rw [hsource] at h
    cases h

/-- What the mappers throw is no window that is too deep. -/
theorem toOutcome_error {adapter : SearchAdapter} {query : Option String} {response : SearchResponse}
    {error : SearchError DependencyError} (h : adapter.toOutcome query response = .error error) :
    ∃ message, error = .upstreamResponse message := by
  unfold SearchAdapter.toOutcome at h
  cases hitems : (response.hits.mapM toProductSummary : Except (SearchError DependencyError) _) with
  | ok items =>
    rw [hitems] at h
    cases h
  | error error' =>
    rw [hitems] at h
    cases h
    obtain ⟨hit, -, hhit⟩ := exists_error_of_mapM hitems
    exact toProductSummary_error hhit

/-- A window that is too deep is named in the message. -/
theorem Throws.of_resultWindowExceeded {message : String}
    (h : Throws service request (.resultWindowExceeded message)) :
    ∃ window, service.window request = some window ∧
      message = "Requested result window " ++ window.text ++ " exceeds max_result_window " ++
        service.config.search.maxResultWindow.text := by
  generalize hfailure : Failure.resultWindowExceeded message = failure at h
  cases h with
  | @search client criteria error _ hcriteria hsearch =>
    cases error with
    | upstreamResponse => cases hfailure
    | client => cases hfailure
    | resultWindowExceeded max message =>
      cases hfailure
      refine ⟨requestedWindow criteria, ?_, ?_⟩
      · unfold SearchService.window
        rw [hcriteria]
        rfl
      · unfold SearchAdapter.search SearchAdapter.resolveWindow at hsearch
        dsimp only at hsearch
        split_ifs at hsearch
        · cases hsearch
          rfl
        · -- a window that is not too deep is searched, and the mappers throw another class
          simp only [bind, Except.bind] at hsearch
          split at hsearch
          · cases hsearch
          · obtain ⟨_, herror⟩ := toOutcome_error hsearch
            cases herror
  | _ => cases hfailure

end

/-! ## The lines of two requests -/

section

variable {service : SearchService} {request request' : Request} {exception exception' : Exception}
  {time time' : String}

theorem SameButQuery.notAllowed (h : SameButQuery request request') {sha256 : String → String}
    {config : ApiAuthConfig} (hnot : NotAllowed sha256 config request) :
    NotAllowed sha256 config request' where
  known := by
    have hknown := hnot.known
    unfold isApiPath at hknown ⊢
    rwa [← h.path]
  method := h.method ▸ hnot.method
  authenticated := fun henabled => h.presentedKey ▸ hnot.authenticated henabled

/-- What resolves alike is logged alike. -/
theorem loggedLine_congr (hsame : SameButQuery request request')
    (h : resolveError exception.failure = resolveError exception'.failure) :
    service.loggedLine exception request time = service.loggedLine exception' request' time' := by
  unfold SearchService.loggedLine catchException
  dsimp only
  rw [hsame.upgrade, h]
  exact hsame.logException _ _ _

/-- The warning of an error that is not upgraded. -/
theorem loggedLine_warn {resolved : DetailedError} (h : resolveError exception.failure = resolved)
    (hmin : 400 ≤ resolved.statusCode) (hmax : resolved.statusCode < 500)
    (hnot : resolved.statusCode = 404 → ¬ NotAllowed service.sha256 service.edge.apiAuth request) :
    service.loggedLine exception request time =
      some (requestLine request resolved.statusCode ++ " " ++ messageSummary resolved) := by
  unfold SearchService.loggedLine catchException
  dsimp only
  rw [h, upgrade_of_not hnot]
  unfold logException
  dsimp only
  rw [if_neg (not_le.mpr hmax), if_pos hmin]
  rfl

/-- A server error is logged without a message. -/
theorem loggedLine_error {resolved : DetailedError} (h : resolveError exception.failure = resolved)
    (hmin : 500 ≤ resolved.statusCode) :
    service.loggedLine exception request time = some (requestLine request resolved.statusCode) := by
  unfold SearchService.loggedLine catchException
  dsimp only
  rw [h, upgrade_of_not fun h404 => absurd (h404 ▸ hmin) (by decide)]
  unfold logException
  dsimp only
  rw [if_pos hmin]
  rfl

theorem notFound_line (h : exception.failure = .http (.notFound request))
    (hnot : ¬ NotAllowed service.sha256 service.edge.apiAuth request) :
    service.loggedLine exception request time =
      some (requestLine request 404 ++ " " ++ ("Cannot " ++ request.method ++ " " ++ request.url)) := by
  have hresolved : resolveError exception.failure = { notFoundException request with details := none } := by
    rw [h]
    rfl
  rw [loggedLine_warn hresolved (show 400 ≤ 404 by omega) (show 404 < 500 by omega) fun _ => hnot]
  rfl

theorem resultWindow_line {message : String} (h : exception.failure = .resultWindowExceeded message) :
    service.loggedLine exception request time = some (requestLine request 422 ++ " " ++ message) := by
  have hresolved : resolveError exception.failure =
      { statusCode := 422, error := "Unprocessable Entity", message } := by
    rw [h]
    rfl
  rw [loggedLine_warn hresolved (show 400 ≤ 422 by omega) (show 422 < 500 by omega) nofun]
  rfl

theorem badQuery_line (h : exception.failure = .dependency (.response (some 400))) :
    service.loggedLine exception request time =
      some (requestLine request 400 ++ " " ++ "Invalid search query") := by
  have hresolved : resolveError exception.failure =
      { statusCode := 400, error := "Bad Request", message := "Invalid search query" } := by
    rw [h]
    rfl
  rw [loggedLine_warn hresolved (by decide) (by decide) nofun]
  rfl

theorem badGateway_line {statusCode : Option ℕ} (hstatus : statusCode ≠ some 400)
    (h : exception.failure = .dependency (.response statusCode)) :
    service.loggedLine exception request time = some (requestLine request 502) := by
  have hresolved : resolveError exception.failure =
      { statusCode := 502, error := "Bad Gateway", message := "Search engine error" } := by
    rw [h]
    exact if_neg hstatus
  rw [loggedLine_error hresolved (by decide)]

/-- Every exception resolves to an error. -/
theorem Throws.le_statusCode {failure : Failure} (h : Throws service request failure) :
    400 ≤ (resolveError failure).statusCode := by
  have hdependency : ∀ error : DependencyError,
      400 ≤ (resolveError (.dependency error)).statusCode := by
    rintro (statusCode | _ | _)
    · show 400 ≤ (fromElasticsearchResponse statusCode).statusCode
      unfold fromElasticsearchResponse
      split_ifs <;> decide
    · exact show 400 ≤ 503 by decide
    · exact show 400 ≤ 500 by decide
  cases h with
  | notFound => exact show 400 ≤ 404 by decide
  | tooManyRequests => decide
  | unauthorized => decide
  | metrics => decide
  | validation => exact show 400 ≤ 400 by decide
  | pageSize => exact show 400 ≤ 400 by decide
  | @search _ _ error =>
    cases error with
    | resultWindowExceeded => exact show 400 ≤ 422 by decide
    | upstreamResponse => exact show 400 ≤ 502 by decide
    | client error => exact hdependency error
  | dependency error => exact hdependency error

/-- Every request that ends in an exception is logged. -/
theorem loggedLine_isSome (h : Throws service request exception.failure) :
    (service.loggedLine exception request time).isSome := by
  have hupgraded : 400 ≤ (upgrade service.sha256 service.edge.apiAuth request
      (resolveError exception.failure)).2.statusCode := by
    unfold upgrade upgradeMethodNotAllowed
    split_ifs
    · exact h.le_statusCode
    · exact h.le_statusCode
    · exact h.le_statusCode
    · exact show 400 ≤ 405 by decide
  unfold SearchService.loggedLine catchException logException
  dsimp only
  split_ifs <;> rfl

/-- The canonical exception of a class does not depend on the query. -/
theorem exceptionOf_congr (hsame : SameButQuery request request') (name : String) :
    service.exceptionOf request name = service.exceptionOf request' name := by
  unfold SearchService.exceptionOf
  rw [hsame.canActivate]

/-- An unknown route is logged with its URL, unless the error is upgraded. -/
theorem notFound_lines_iff (hsame : SameButQuery request request')
    (h : exception.failure = .http (.notFound request))
    (h' : exception'.failure = .http (.notFound request')) :
    service.loggedLine exception request time = service.loggedLine exception' request' time' ↔
      NotAllowed service.sha256 service.edge.apiAuth request ∨ request.url = request'.url := by
  by_cases hnot : NotAllowed service.sha256 service.edge.apiAuth request
  · refine iff_of_true ?_ (Or.inl hnot)
    unfold SearchService.loggedLine catchException
    dsimp only
    rw [h, h', ← hsame.upgrade, upgrade_of_notAllowed hnot rfl
      (show (resolveError (.http (.notFound request'))).statusCode = 404 from rfl)]
    exact hsame.logException _ _ _
  · have hnot' : ¬ NotAllowed service.sha256 service.edge.apiAuth request' :=
      fun hn => hnot (hsame.symm.notAllowed hn)
    rw [notFound_line h hnot, notFound_line h' hnot', hsame.requestLine, hsame.method, Option.some.injEq,
      String.append_right_inj, String.append_right_inj, or_iff_right hnot]

/-- A window that is too deep is logged with its end. -/
theorem resultWindow_lines_iff (hsame : SameButQuery request request') {message message' : String}
    (h : exception.failure = .resultWindowExceeded message)
    (h' : exception'.failure = .resultWindowExceeded message')
    (hthrows : Throws service request (.resultWindowExceeded message))
    (hthrows' : Throws service request' (.resultWindowExceeded message')) :
    service.loggedLine exception request time = service.loggedLine exception' request' time' ↔
      service.window request = service.window request' := by
  obtain ⟨window, hwindow, rfl⟩ := hthrows.of_resultWindowExceeded
  obtain ⟨window', hwindow', rfl⟩ := hthrows'.of_resultWindowExceeded
  rw [resultWindow_line h, resultWindow_line h', hwindow, hwindow', hsame.requestLine,
    Option.some.injEq, Option.some.injEq, String.append_right_inj, String.append_left_inj,
    String.append_left_inj, String.append_right_inj]
  exact ⟨Number.text_injective, fun heq => congrArg Number.text heq⟩

/-- An answer of the engine is logged as a bad query or as a bad gateway. -/
theorem response_lines_iff (hsame : SameButQuery request request') {statusCode statusCode' : Option ℕ}
    (h : exception.failure = .dependency (.response statusCode))
    (h' : exception'.failure = .dependency (.response statusCode')) :
    service.loggedLine exception request time = service.loggedLine exception' request' time' ↔
      (statusCode = some 400 ↔ statusCode' = some 400) := by
  have hapart : requestLine request' 400 ++ " " ++ "Invalid search query" ≠ requestLine request' 502 := by
    unfold requestLine
    rw [String.append_assoc, String.append_assoc, Ne, String.append_right_inj]
    decide
  by_cases hs : statusCode = some 400 <;> by_cases hs' : statusCode' = some 400
  · rw [hs] at h
    rw [hs'] at h'
    rw [badQuery_line h, badQuery_line h', hsame.requestLine]
    exact iff_of_true rfl (iff_of_true hs hs')
  · rw [hs] at h
    rw [badQuery_line h, badGateway_line hs' h', hsame.requestLine, Option.some.injEq]
    exact iff_of_false hapart fun heq => hs' (heq.mp hs)
  · rw [hs'] at h'
    rw [badGateway_line hs h, badQuery_line h', hsame.requestLine, Option.some.injEq]
    exact iff_of_false hapart.symm fun heq => hs (heq.mpr hs')
  · rw [badGateway_line hs h, badGateway_line hs' h', hsame.requestLine]
    exact iff_of_true rfl (iff_of_false hs hs')

/-- The HTTP exceptions of one class, but for unknown routes, are the same. -/
theorem Throws.http_eq (hsame : SameButQuery request request') {e e' : HttpException}
    (h : Throws service request (.http e)) (h' : Throws service request' (.http e'))
    (hname : e.name = e'.name) (hdto : ¬ (Failure.http e).IsValidation)
    (hdto' : ¬ (Failure.http e').IsValidation) :
    e = .notFound request ∧ e' = .notFound request' ∨ e.name ≠ "NotFoundException" ∧ e = e' := by
  rcases h.of_http with rfl | hv | ⟨hne, he⟩
  · rcases h'.of_http with rfl | hv' | ⟨hne', -⟩
    · exact Or.inl ⟨rfl, rfl⟩
    · exact absurd hv' hdto'
    · exact absurd hname.symm hne'
  · exact absurd hv hdto
  · rcases h'.of_http with rfl | hv' | ⟨-, he'⟩
    · exact absurd hname hne
    · exact absurd hv' hdto'
    · exact Or.inr ⟨hne, by rw [he, he', ← hname, exceptionOf_congr hsame]⟩

/-- No request ends in a violated rule of the domain. -/
theorem not_throws_rule {name message : String} : ¬ Throws service request (.rule name message) := by
  intro h
  generalize hfailure : Failure.rule name message = failure at h
  cases h with
  | @search _ _ error => cases error <;> cases hfailure
  | _ => cases hfailure

/-- **What the error log tells of a query.** Two requests for one path that fail with exceptions of one
class, not a rejected DTO, are logged with one line exactly when what the message repeats of the query is
the same: for an unknown route the URL, unless the answer is 405, and for a page that is too deep the end
of its window. -/
theorem lines_agree_iff (service : SearchService) {request request' : Request}
    (hsame : SameButQuery request request') {exception exception' : Exception}
    (h : Throws service request exception.failure) (h' : Throws service request' exception'.failure)
    (hclass : exception.failure.SameClass exception'.failure)
    (hdto : ¬ exception.failure.IsValidation) (hdto' : ¬ exception'.failure.IsValidation)
    (time time' : String) :
    service.loggedLine exception request time = service.loggedLine exception' request' time' ↔
      service.SameReason request request' exception.failure exception'.failure := by
  have hconst : resolveError exception.failure = resolveError exception'.failure →
      service.loggedLine exception request time = service.loggedLine exception' request' time' :=
    fun hresolved => loggedLine_congr hsame hresolved
  generalize hf : exception.failure = failure at h hclass hdto hconst ⊢
  generalize hf' : exception'.failure = failure' at h' hclass hdto' hconst ⊢
  cases hclass with
  | http hname =>
    rcases h.http_eq hsame h' hname hdto hdto' with ⟨rfl, rfl⟩ | ⟨hne, rfl⟩
    · rw [notFound_lines_iff hsame hf hf']
      exact ⟨fun hreason _ => hreason, fun hreason => hreason rfl⟩
    · exact iff_of_true (hconst rfl) fun hnotFound => absurd hnotFound hne
  | resultWindowExceeded => exact resultWindow_lines_iff hsame hf hf' h h'
  | upstreamResponse => exact iff_of_true (hconst rfl) trivial
  | rule => exact absurd h not_throws_rule
  | response => exact response_lines_iff hsame hf hf'
  | client => exact iff_of_true (hconst rfl) trivial
  | other => exact iff_of_true (hconst rfl) trivial

end

/-! ## A deployment -/

/-- A query string without escapes. -/
def plainPairs (text : String) : QueryPairs :=
  (split text '&').map fun pair =>
    (String.ofList (pair.toList.takeWhile (· ≠ '=')),
      String.ofList ((pair.toList.dropWhile (· ≠ '=')).drop 1))

/-- Authentication on, and the defaults. -/
def deployedService : SearchService where
  sha256 := id
  edge := keyed
  metricsToken := none
  config := buildConfig (deployment 5)
  parseQuery := plainPairs
  pipe := plainPipe

/-- The exception of an unknown route. -/
def unknownRoute (request : Request) : Exception :=
  { failure := .http (.notFound request), stack := "NotFoundException" }

theorem throws_unknownRoute {service : SearchService} {request : Request}
    (h : serve service.sha256 service.edge false request = .notFound) :
    Throws service request (unknownRoute request).failure := .notFound h

theorem unknownRoute_sameClass (request request' : Request) :
    (unknownRoute request).failure.SameClass (unknownRoute request').failure := .http rfl

theorem unknownRoute_not_isValidation (request : Request) :
    ¬ (unknownRoute request).failure.IsValidation := by
  rintro ⟨messages, h⟩
  have hname := congrArg HttpException.name (Failure.http.inj h)
  exact absurd hname (show "NotFoundException" ≠ "BadRequestException" by decide)

/-- A call with a key and a verb that the API does not answer. -/
def posted (url : String) : Request where
  method := "POST"
  url := url
  headers := fun name => if name = API_KEY_HEADER then some (.single "0123456789abcdef") else none

/-- A wrong verb on a known path is logged without the query. -/
theorem lines_agree_posted :
    deployedService.loggedLine (unknownRoute (posted "/search?q=private"))
        (posted "/search?q=private") "" =
      deployedService.loggedLine (unknownRoute (posted "/search?q=other"))
        (posted "/search?q=other") "" := by
  have hsame : SameButQuery (posted "/search?q=private") (posted "/search?q=other") :=
    ⟨rfl, by decide, rfl⟩
  have hagree := lines_agree_iff deployedService hsame (throws_unknownRoute (by decide))
    (throws_unknownRoute (by decide)) (unknownRoute_sameClass _ _) (unknownRoute_not_isValidation _)
    (unknownRoute_not_isValidation _) "" ""
  exact hagree.mpr fun _ => Or.inl ⟨by decide, by decide, fun _ => by decide⟩

/-- What is searched under an unknown path gets into the log. -/
theorem query_logged : ∃ request request' : Request,
    SameButQuery request request' ∧ Throws deployedService request (unknownRoute request).failure ∧
      Throws deployedService request' (unknownRoute request').failure ∧
      (unknownRoute request).failure.SameClass (unknownRoute request').failure ∧
      ¬ (unknownRoute request).failure.IsValidation ∧ ¬ (unknownRoute request').failure.IsValidation ∧
      deployedService.loggedLine (unknownRoute request) request "" =
        some "GET /nope -> 404 Cannot GET /nope?q=private" ∧
      deployedService.loggedLine (unknownRoute request') request' "" =
        some "GET /nope -> 404 Cannot GET /nope?q=other" :=
  ⟨anonymous "/nope?q=private", anonymous "/nope?q=other", ⟨rfl, by decide, rfl⟩,
    throws_unknownRoute (by decide), throws_unknownRoute (by decide), unknownRoute_sameClass _ _,
    unknownRoute_not_isValidation _, unknownRoute_not_isValidation _, by decide, by decide⟩

end AdvancedSearch
