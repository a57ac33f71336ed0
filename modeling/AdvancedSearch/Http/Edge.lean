import Mathlib.Data.List.TakeWhile
import AdvancedSearch.Http.ApiKey

/-!
# What is served without a key

The routes of the controllers behind the global guards, and the documentation that Swagger mounts on
Express next to them, behind the middleware of `setupOpenApi`. A request without a key reaches a
client endpoint or the contract exactly when it reads `/docs-yaml` (`contract_protected`).
-/

namespace AdvancedSearch

/-! ## Express -/

/-- `req.path`. -/
def pathname (url : String) : Path := url.toList.takeWhile fun c => c ≠ '#' && c ≠ '?'

/-- Letter case does not count. -/
def lowered (path : Path) : Path := path.map Char.toLower

/-- Whether `app.use(mount)` covers a path: the mount or anything below it. -/
def useCovers (mount : String) (path : Path) : Bool :=
  lowered path = mount.toList ∨ mount.toList ++ ['/'] <+: lowered path

/-- Whether a route matches a path: a trailing slash is optional. -/
def routeMatches (route : String) (path : Path) : Bool :=
  lowered path = route.toList ∨ lowered path = route.toList ++ ['/']

/-- The methods a `GET` route answers. -/
def answersGet (request : Request) : Bool := request.method = "GET" ∨ request.method = "HEAD"

/-! ## The application -/

/-- The controllers. -/
inductive Controller where
  | search | autocomplete | suggestion | serviceIndex | health | metrics
  deriving DecidableEq

/-- The routes of the controllers, all of them `GET`. -/
def controllerRoutes : List (String × Controller) :=
  [("/metrics", .metrics), ("/search", .search), ("/autocomplete", .autocomplete),
    ("/suggest", .suggestion), ("/health", .health), ("/health/ready", .health),
    ("/health/live", .health), ("/", .serviceIndex)]

/-- The controller that Nest dispatches to. -/
def dispatch (request : Request) : Option Controller :=
  if answersGet request then
    (controllerRoutes.find? fun r => routeMatches r.1 (pathname request.url)).map (·.2)
  else none

/-- The ways the contract is published. -/
inductive ContractPart where
  | ui | json | yaml
  deriving DecidableEq

/-- `SwaggerModule.setup('docs', app, document, { jsonDocumentUrl: 'docs-json' })`: the YAML document
keeps its default path. -/
def swaggerRoute (request : Request) : Option ContractPart :=
  if ! answersGet request then none
  else if useCovers "/docs" (pathname request.url) then some .ui
  else if routeMatches "/docs-json" (pathname request.url) then some .json
  else if routeMatches "/docs-yaml" (pathname request.url) then some .yaml
  else none

/-- Paths protected before Swagger mounts its own. -/
def DOCS_PATHS : List String := ["/docs", "/docs-json"]

/-- What the edge reads of the configuration. -/
structure EdgeConfig where
  apiAuth : ApiAuthConfig
  rateLimitEnabled : Bool

/-- How a request ends. -/
inductive Reply where
  | tooManyRequests
  | unauthorized
  | contract (part : ContractPart)
  | handled (controller : Controller)
  | notFound
  deriving DecidableEq

/-- The controllers behind the global guards, the rate limiter first; `overBudget` is its verdict. -/
def serveRoutes (sha256 : String → String) (config : EdgeConfig) (overBudget : Bool)
    (request : Request) : Reply :=
  match dispatch request with
  | none => .notFound
  | some controller =>
    if config.rateLimitEnabled && overBudget then .tooManyRequests
    else if canActivate sha256 config.apiAuth request then .handled controller
    else .unauthorized

/-- Swagger's routes come before the controllers'. -/
def serveMounted (sha256 : String → String) (config : EdgeConfig) (overBudget : Bool)
    (request : Request) : Reply :=
  match swaggerRoute request with
  | some part => .contract part
  | none => serveRoutes sha256 config overBudget request

/-- The application as `setupOpenApi` leaves it. -/
def serve (sha256 : String → String) (config : EdgeConfig) (overBudget : Bool)
    (request : Request) : Reply :=
  if config.apiAuth.enabled ∧ DOCS_PATHS.any fun mount => useCovers mount (pathname request.url) then
    if config.rateLimitEnabled && overBudget then .tooManyRequests
    else if createKeyIdentifier sha256 config.apiAuth.keys (presentedKey request) = none then
      .unauthorized
    else serveMounted sha256 config overBudget request
  else serveMounted sha256 config overBudget request

/-! ## What a reply gives away -/

/-- The controllers that answer clients. -/
def Controller.isClient : Controller → Bool
  | search | autocomplete | suggestion | serviceIndex => true
  | health | metrics => false

/-- No client endpoint ran and nothing of the contract was returned. -/
def Reply.Withholds : Reply → Prop
  | contract _ => False
  | handled controller => controller.isClient = false
  | _ => True

/-- A request for the YAML document. -/
def ReadsYaml (request : Request) : Prop :=
  answersGet request ∧ routeMatches "/docs-yaml" (pathname request.url)

theorem routeMatches_iff {route : String} {path : Path} : routeMatches route path ↔
    lowered path = route.toList ∨ lowered path = route.toList ++ ['/'] := by
  unfold routeMatches
  exact decide_eq_true_iff

theorem useCovers_iff {mount : String} {path : Path} : useCovers mount path ↔
    lowered path = mount.toList ∨ mount.toList ++ ['/'] <+: lowered path := by
  unfold useCovers
  exact decide_eq_true_iff

/-- A mount covers what the route of its name matches. -/
theorem useCovers_of_routeMatches {route : String} {path : Path} (h : routeMatches route path) :
    useCovers route path := by
  rw [useCovers_iff]
  rcases routeMatches_iff.mp h with h | h
  · exact Or.inl h
  · exact Or.inr (h ▸ List.prefix_rfl)

/-- What the docs middleware covers is not the YAML route. -/
theorem not_readsYaml_of_covered {request : Request}
    (h : DOCS_PATHS.any fun mount => useCovers mount (pathname request.url)) :
    ¬ ReadsYaml request := by
  rintro ⟨-, hyaml⟩
  obtain ⟨mount, hmount, hcovers⟩ := List.any_eq_true.mp h
  have hapart : ∀ mount ∈ DOCS_PATHS, ∀ path ∈ ["/docs-yaml".toList, "/docs-yaml".toList ++ ['/']],
      ¬ (path = mount.toList ∨ mount.toList ++ ['/'] <+: path) := by decide
  refine hapart mount hmount _ ?_ (useCovers_iff.mp hcovers)
  simpa using routeMatches_iff.mp hyaml

/-- Outside the paths the docs middleware covers, only the YAML document is left of the contract. -/
theorem swaggerRoute_of_not_covered {request : Request}
    (h : ¬ DOCS_PATHS.any fun mount => useCovers mount (pathname request.url)) {part : ContractPart}
    (hpart : swaggerRoute request = some part) : ReadsYaml request := by
  have hout : ∀ mount ∈ DOCS_PATHS, useCovers mount (pathname request.url) = false := by
    intro mount hmount
    rw [Bool.eq_false_iff]
    exact fun hcovers => h (List.any_eq_true.mpr ⟨mount, hmount, hcovers⟩)
  have hui : useCovers "/docs" (pathname request.url) = false := hout _ (by decide)
  have hjson : routeMatches "/docs-json" (pathname request.url) = false := by
    rw [Bool.eq_false_iff]
    intro hmatches
    have hcovers := useCovers_of_routeMatches hmatches
    rw [hout _ (by decide)] at hcovers
    cases hcovers
  unfold swaggerRoute at hpart
  rw [hui, hjson] at hpart
  by_cases hget : answersGet request = true
  · by_cases hyaml : routeMatches "/docs-yaml" (pathname request.url) = true
    · exact ⟨hget, hyaml⟩
    · simp [hget, hyaml] at hpart
  · simp [hget] at hpart

/-- The router also cuts the fragment off. -/
theorem pathname_eq (url : String) :
    pathname url = (pathWithoutQuery url.toList).takeWhile (· ≠ '#') := by
  unfold pathname pathWithoutQuery
  rw [List.takeWhile_takeWhile]
  congr 1
  funext c
  simp

/-- The router keeps the beginning of a path that the guard compares. -/
theorem lowered_pathname {url : String} {start rest : Path}
    (hstart : ∀ c ∈ start, c ≠ '#' ∧ c.toLower = c)
    (h : pathWithoutQuery url.toList = start ++ rest) :
    lowered (pathname url) = start ++ lowered (rest.takeWhile (· ≠ '#')) := by
  rw [pathname_eq, h, List.takeWhile_append_of_pos fun c hc => by simpa using (hstart c hc).1]
  unfold lowered
  rw [List.map_append, List.map_congr_left fun c hc => (hstart c hc).2, List.map_id']

/-- What the guard exempts is under an operator path for the router too. -/
theorem operator_of_matchesPath {url : String} (h : matchesPath url.toList OPERATOR_PATHS) :
    ∃ p ∈ OPERATOR_PATHS, useCovers p (pathname url) := by
  obtain ⟨p, hp, hmatch⟩ := List.any_eq_true.mp h
  have hall : OPERATOR_PATHS.all fun p =>
      (p.toList ++ ['/']).all fun c => c ≠ '#' ∧ c.toLower = c := by decide
  have hplain : ∀ p ∈ OPERATOR_PATHS, ∀ c ∈ p.toList ++ ['/'], c ≠ '#' ∧ c.toLower = c :=
    fun p hp c hc =>
      of_decide_eq_true (List.all_eq_true.mp (List.all_eq_true.mp hall p hp) c hc)
  refine ⟨p, hp, useCovers_iff.mpr ?_⟩
  rcases decide_eq_true_iff.mp hmatch with heq | ⟨rest, hrest⟩
  · left
    have hwhole : pathWithoutQuery url.toList = p.toList ++ [] := by rw [heq, List.append_nil]
    rw [lowered_pathname (fun c hc => hplain p hp c (List.mem_append_left _ hc)) hwhole]
    exact List.append_nil _
  · right
    rw [lowered_pathname (hplain p hp) hrest.symm]
    exact List.prefix_append _ _

/-- No client route is under an operator path. -/
theorem not_client_of_covered {request : Request} {controller : Controller} {p : String}
    (hp : p ∈ OPERATOR_PATHS) (hcovers : useCovers p (pathname request.url))
    (h : dispatch request = some controller) : controller.isClient = false := by
  have hapart : ∀ p ∈ OPERATOR_PATHS, ∀ r ∈ controllerRoutes,
      ∀ path ∈ [r.1.toList, r.1.toList ++ ['/']],
      (path = p.toList ∨ p.toList ++ ['/'] <+: path) → r.2.isClient = false := by decide
  unfold dispatch at h
  split at h
  · obtain ⟨r, hfind, rfl⟩ := Option.map_eq_some_iff.mp h
    have hmatches : routeMatches r.1 (pathname request.url) := by
      simpa using List.find?_some hfind
    have hmatch := routeMatches_iff.mp hmatches
    exact hapart p hp r (List.mem_of_find?_eq_some hfind) _ (by simpa using hmatch)
      (useCovers_iff.mp hcovers)
  · cases h

/-- Behind the guards a request without a key reaches no client endpoint. -/
theorem serveRoutes_withholds {sha256 : String → String} {config : EdgeConfig} {overBudget : Bool}
    {request : Request} (henabled : config.apiAuth.enabled)
    (hnone : createKeyIdentifier sha256 config.apiAuth.keys (presentedKey request) = none) :
    (serveRoutes sha256 config overBudget request).Withholds := by
  unfold serveRoutes
  cases hdispatch : dispatch request with
  | none => trivial
  | some controller =>
    simp only
    split
    · trivial
    split
    · rename_i hpass
      have hexempt : matchesPath request.url.toList OPERATOR_PATHS := by
        by_contra hno
        simp [canActivate, henabled, hno, hnone] at hpass
      obtain ⟨p, hp, hcovers⟩ := operator_of_matchesPath hexempt
      exact not_client_of_covered hp hcovers hdispatch
    · trivial

/-! ## Protection -/

/-- **What a request without a key gets.** With authentication on, whatever the rate limiter says, it
gets neither a client endpoint nor a part of the contract, unless it reads the YAML document. -/
theorem contract_protected (sha256 : String → String) (config : EdgeConfig) (request : Request)
    (henabled : config.apiAuth.enabled) (hkey : Keyless config.apiAuth request)
    (hsha : ∀ presented ∈ presentedKey request, ∀ key ∈ config.apiAuth.keys,
      sha256 key = sha256 presented → key = presented) :
    (∀ overBudget, (serve sha256 config overBudget request).Withholds) ↔ ¬ ReadsYaml request := by
  have hnone := createKeyIdentifier_none hkey hsha
  by_cases hdocs : DOCS_PATHS.any fun mount => useCovers mount (pathname request.url)
  · refine iff_of_true (fun overBudget => ?_) (not_readsYaml_of_covered hdocs)
    unfold serve
    rw [if_pos ⟨henabled, hdocs⟩]
    rw [if_pos hnone]
    split <;> trivial
  · have hserve : ∀ overBudget, serve sha256 config overBudget request =
        serveMounted sha256 config overBudget request := by
      intro overBudget
      unfold serve
      rw [if_neg fun h => hdocs h.2]
    constructor
    · intro hwithholds hyaml
      have h := hwithholds false
      rw [hserve] at h
      unfold serveMounted at h
      have hpart : ∃ part, swaggerRoute request = some part := by
        obtain ⟨hget, hroute⟩ := hyaml
        unfold swaggerRoute
        rw [hget, hroute]
        simp only [Bool.not_true, Bool.false_eq_true, if_false, if_true]
        split_ifs <;> exact ⟨_, rfl⟩
      obtain ⟨part, hpart⟩ := hpart
      rw [hpart] at h
      exact h
    · intro hyaml overBudget
      rw [hserve]
      unfold serveMounted
      cases hpart : swaggerRoute request with
      | some part => exact absurd (swaggerRoute_of_not_covered hdocs hpart) hyaml
      | none => exact serveRoutes_withholds henabled hnone

/-- Authentication as deployed. -/
def keyed : EdgeConfig :=
  { apiAuth := { enabled := true, keys := ["0123456789abcdef"] }, rateLimitEnabled := true }

/-- A read without any header. -/
def anonymous (url : String) : Request := { method := "GET", url := url, headers := fun _ => none }

/-- A search without a key. -/
theorem contract_protected_search :
    (serve id keyed false (anonymous "/Search/?q=drill")).Withholds ∧
      (serve id keyed true (anonymous "/Search/?q=drill")).Withholds := by
  have hwithholds := (contract_protected id keyed (anonymous "/Search/?q=drill") rfl
    (fun _ h => by cases h) (fun _ h => by cases h)).mpr (by unfold ReadsYaml; decide)
  exact ⟨hwithholds false, hwithholds true⟩

/-- The YAML document is read without a key. -/
theorem contract_exposed : Keyless keyed.apiAuth (anonymous "/docs-yaml") ∧
    serve id keyed false (anonymous "/docs-yaml") = .contract .yaml :=
  ⟨(fun _ h => by cases h), by decide⟩

end AdvancedSearch
