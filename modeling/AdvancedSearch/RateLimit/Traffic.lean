import AdvancedSearch.RateLimit.RetryAfter

/-!
# Traffic through the limiter

Requests of any clients for any paths, in front of one store: the middleware of the documentation and the
global guard, each counting what it covers. A request is counted under one key at most, and is answered
as the edge answers it with the store's verdict (`serve_eq`); no key's answers depend on the requests
under other keys (`budgets_isolated`), and no flood gets more than its budget through
(`flood_bounded`).

The key that the throttler makes of a handler and a tracker is a digest, and free.
-/

namespace AdvancedSearch

open FixedWindow Service

structure TrafficConfig where
  apiAuth : ApiAuthConfig
  rateLimit : RateLimitConfig

/-- What the edge reads of it. -/
def TrafficConfig.edge (config : TrafficConfig) : EdgeConfig where
  apiAuth := config.apiAuth
  rateLimitEnabled := config.rateLimit.enabled

def TrafficConfig.windowMs (config : TrafficConfig) : ℤ := config.rateLimit.windowSeconds * 1000

/-- A request as it comes in. -/
structure Incoming where
  now : ℤ
  request : Request
  ip : Option String
  socket : Option (Option String)
  timestamp : String

/-- What the tracker is resolved from. -/
def Incoming.tracked (i : Incoming) : TrackedRequest where
  ip := i.ip
  socket := i.socket
  headers := some i.request.headers

/-- The route whose handler takes a request. -/
def dispatchRoute (request : Request) : Option (String × Controller) :=
  if answersGet request then controllerRoutes.find? fun r => routeMatches r.1 (pathname request.url)
  else none

namespace Traffic

variable {σ : Type} (sha256 : String → String) (generateKey : String → String → String)
  (config : TrafficConfig)

def tracker (i : Incoming) : String :=
  resolveTracker i.tracked (createKeyIdentifier sha256 config.apiAuth.keys)

/-- `skipIf`. -/
def skipIf (i : Incoming) : Bool :=
  !config.rateLimit.enabled || isExempt (requestPath i.request.url)

/-- `RateLimitGuard`, in front of the handler of a route. -/
def rateLimitGuard (store : RateLimitStorePort σ) (s : σ) (i : Incoming) (route : String) : Bool × σ :=
  if skipIf config i then (true, s)
  else
    let (record, s) := ThrottlerStoreAdapter.increment store s i.now
      (generateKey route (tracker sha256 config i)) config.windowMs
      (resolveLimit (requestPath i.request.url) config.rateLimit) config.windowMs "default"
    (notBlocked record, s)

/-- The controllers behind the global guards, in the order of their registration. -/
def routed (store : RateLimitStorePort σ) (s : σ) (i : Incoming) : Reply × σ :=
  match dispatchRoute i.request with
  | none => (.notFound, s)
  | some (route, controller) =>
    let (passes, s) := rateLimitGuard sha256 generateKey config store s i route
    if !passes then (.tooManyRequests, s)
    else if canActivate sha256 config.apiAuth i.request then (.handled controller, s)
    else (.unauthorized, s)

def mounted (store : RateLimitStorePort σ) (s : σ) (i : Incoming) : Reply × σ :=
  match swaggerRoute i.request with
  | some part => (.contract part, s)
  | none => routed sha256 generateKey config store s i

/-- The middleware of the documentation, when it is installed. -/
def docsMiddleware (store : RateLimitStorePort σ) (s : σ) (i : Incoming) : Bool × σ :=
  if config.rateLimit.enabled then
    match docsRateLimit config.rateLimit (createKeyIdentifier sha256 config.apiAuth.keys) store s i.now
        ⟨i.tracked, i.request.url⟩ i.timestamp with
    | (.docs _ (.rejected ..), s) => (true, s)
    | (_, s) => (false, s)
  else (false, s)

/-- The application of `setupOpenApi`, over the store. -/
def serve (store : RateLimitStorePort σ) (s : σ) (i : Incoming) : Reply × σ :=
  if config.apiAuth.enabled ∧ DOCS_PATHS.any fun mount => useCovers mount (pathname i.request.url) then
    let (rejected, s) := docsMiddleware sha256 config store s i
    if rejected then (.tooManyRequests, s)
    else if createKeyIdentifier sha256 config.apiAuth.keys (presentedKey i.request) = none then
      (.unauthorized, s)
    else mounted sha256 generateKey config store s i
  else mounted sha256 generateKey config store s i

/-! ## What a request is counted under -/

/-- A budget: of the documentation or of the handler of a route, and of a tracker. -/
structure Bucket where
  route : Option String
  tracker : String
  deriving DecidableEq

/-- The key that the store counts it under. -/
def Bucket.key (generateKey : String → String → String) (b : Bucket) : String :=
  match b.route with
  | none => DOCS_BUCKET ++ ":" ++ b.tracker
  | some route => "default" ++ ":" ++ generateKey route b.tracker

/-- The budget of a request for a route. -/
def routeBucket (i : Incoming) : Option Bucket :=
  (dispatchRoute i.request).bind fun route =>
    if skipIf config i then none else some ⟨some route.1, tracker sha256 config i⟩

/-- The budget that a request is counted in, if it is counted. -/
def bucket (i : Incoming) : Option Bucket :=
  if config.apiAuth.enabled ∧ DOCS_PATHS.any fun mount => useCovers mount (pathname i.request.url) then
    if config.rateLimit.enabled then some ⟨none, tracker sha256 config i⟩ else none
  else if (swaggerRoute i.request).isSome then none
  else routeBucket sha256 config i

/-- The limit that a request is held to in a budget. -/
def limitIn (i : Incoming) (b : Bucket) : ℕ :=
  match b.route with
  | none => config.rateLimit.default
  | some _ => resolveLimit (requestPath i.request.url) config.rateLimit

/-- What counting a request does to the store, and the reply that follows the verdict. -/
def charge (serveHit : σ → Hit String → RateLimitHit × σ) (reply : Bool → Reply) (s : σ) (i : Incoming) :
    Option Bucket → Reply × σ
  | none => (reply false, s)
  | some b =>
    let (hit, s) := serveHit s ⟨i.now, b.key generateKey, config.windowMs⟩
    (reply (limitIn config i b < hit.totalHits), s)

variable {sha256 generateKey config} {serveHit : σ → Hit String → RateLimitHit × σ} {s : σ} {i : Incoming}

theorem charge_some (reply : Bool → Reply) (s : σ) (i : Incoming) (b : Bucket) :
    charge generateKey config serveHit reply s i (some b) =
      (reply (limitIn config i b < (serveHit s ⟨i.now, b.key generateKey, config.windowMs⟩).1.totalHits),
        (serveHit s ⟨i.now, b.key generateKey, config.windowMs⟩).2) := rfl

theorem dispatch_eq (request : Request) :
    dispatch request = (dispatchRoute request).map fun route => route.2 := by
  unfold dispatch dispatchRoute
  split_ifs <;> rfl

/-- What the docs middleware covers has no route. -/
theorem dispatchRoute_of_covered
    (h : DOCS_PATHS.any fun mount => useCovers mount (pathname i.request.url)) :
    dispatchRoute i.request = none := by
  by_contra hsome
  obtain ⟨route, hroute⟩ := Option.ne_none_iff_exists'.mp hsome
  have hget : answersGet i.request = true := by
    unfold dispatchRoute at hroute
    split_ifs at hroute with hget
    exact hget
  have hdispatch : dispatch (anonymous i.request.url) = some route.2 := by
    unfold dispatchRoute at hroute
    rw [if_pos hget] at hroute
    show (controllerRoutes.find? fun r => routeMatches r.1 (pathname i.request.url)).map (·.2) = _
    rw [hroute]
    rfl
  rw [not_docs_of_dispatch hdispatch] at h
  cases h

theorem rateLimitGuard_eq (s : σ) (i : Incoming) (route : String) :
    rateLimitGuard sha256 generateKey config (healthy serveHit) s i route =
      if skipIf config i then (true, s)
      else
        let counted := serveHit s ⟨i.now, (Bucket.mk (some route) (tracker sha256 config i)).key generateKey,
          config.windowMs⟩
        (!decide (resolveLimit (requestPath i.request.url) config.rateLimit < counted.1.totalHits),
          counted.2) := rfl

variable (generateKey) in
theorem docsMiddleware_eq (s : σ) (i : Incoming) :
    docsMiddleware sha256 config (healthy serveHit) s i =
      if config.rateLimit.enabled then
        let counted := serveHit s ⟨i.now, (Bucket.mk none (tracker sha256 config i)).key generateKey,
          config.windowMs⟩
        (decide (config.rateLimit.default < counted.1.totalHits), counted.2)
      else (false, s) := by
  unfold docsMiddleware
  by_cases henabled : config.rateLimit.enabled = true
  · rw [if_pos henabled, if_pos henabled]
    show (match docsRateLimit config.rateLimit _ (healthy serveHit) s i.now _ i.timestamp with
      | (.docs _ (.rejected ..), s) => (true, s)
      | (_, s) => (false, s)) = _
    have hanswer : docsRateLimit config.rateLimit (createKeyIdentifier sha256 config.apiAuth.keys)
        (healthy serveHit) s i.now ⟨i.tracked, i.request.url⟩ i.timestamp =
        (.docs (.ok (serveHit s ⟨i.now, (Bucket.mk none (tracker sha256 config i)).key generateKey,
            config.windowMs⟩).1)
          (docsAnswer config.rateLimit ⟨i.tracked, i.request.url⟩ i.timestamp
            (.ok (serveHit s ⟨i.now, (Bucket.mk none (tracker sha256 config i)).key generateKey,
              config.windowMs⟩).1)),
          (serveHit s ⟨i.now, (Bucket.mk none (tracker sha256 config i)).key generateKey,
            config.windowMs⟩).2) := rfl
    rw [hanswer]
    generalize serveHit s ⟨i.now, (Bucket.mk none (tracker sha256 config i)).key generateKey,
      config.windowMs⟩ = counted
    unfold docsAnswer rejectOverBudget
    by_cases hover : config.rateLimit.default < counted.1.totalHits
    · simp only [gt_iff_lt, hover, if_true, decide_true]
    · simp only [gt_iff_lt, hover, if_false, decide_false]
  · rw [if_neg henabled, if_neg henabled]

/-- The routes, with and without a charge. -/
theorem routed_eq (s : σ) (i : Incoming) :
    routed sha256 generateKey config (healthy serveHit) s i =
      charge generateKey config serveHit (fun busy => serveRoutes sha256 config.edge busy i.request) s i
        (routeBucket sha256 config i) := by
  unfold routed serveRoutes routeBucket
  rw [dispatch_eq, show config.edge.apiAuth = config.apiAuth from rfl]
  cases hroute : dispatchRoute i.request with
  | none => rfl
  | some route =>
    obtain ⟨route, controller⟩ := route
    simp only [Option.map_some, Option.bind_some, rateLimitGuard_eq]
    by_cases hskip : skipIf config i = true
    · simp only [hskip, if_true, Bool.not_true, Bool.false_eq_true, if_false, Bool.and_false, charge]
      split_ifs <;> rfl
    · have henabled : config.edge.rateLimitEnabled = true := by
        unfold skipIf at hskip
        simp only [Bool.or_eq_true, Bool.not_eq_true', not_or, Bool.not_eq_false] at hskip
        exact hskip.1
      simp only [hskip, Bool.false_eq_true, if_false, henabled, Bool.true_and, Bool.not_not, charge, limitIn]
      by_cases hover : resolveLimit (requestPath i.request.url) config.rateLimit < (serveHit s ⟨i.now,
          (Bucket.mk (some route) (tracker sha256 config i)).key generateKey, config.windowMs⟩).1.totalHits
      · simp only [hover, decide_true, if_true]
      · simp only [hover, decide_false, Bool.false_eq_true, if_false]
        split_ifs <;> rfl

theorem mounted_eq (s : σ) (i : Incoming) :
    mounted sha256 generateKey config (healthy serveHit) s i =
      charge generateKey config serveHit (fun busy => serveMounted sha256 config.edge busy i.request) s i
        (if (swaggerRoute i.request).isSome then none else routeBucket sha256 config i) := by
  unfold mounted serveMounted
  cases hpart : swaggerRoute i.request with
  | some part => rfl
  | none => exact routed_eq s i

/-- Covered by the docs middleware, a request is counted there if anywhere. -/
theorem serve_covered (s : σ) (hcovered : config.apiAuth.enabled ∧
      DOCS_PATHS.any fun mount => useCovers mount (pathname i.request.url)) :
    serve sha256 generateKey config (healthy serveHit) s i =
      charge generateKey config serveHit
        (fun busy => AdvancedSearch.serve sha256 config.edge busy i.request) s i
        (if config.rateLimit.enabled then some ⟨none, tracker sha256 config i⟩ else none) := by
  have hfree : ∀ s' busy, mounted sha256 generateKey config (healthy serveHit) s' i =
      (serveMounted sha256 config.edge busy i.request, s') := by
    intro s' busy
    unfold mounted serveMounted routed serveRoutes
    rw [dispatch_eq, dispatchRoute_of_covered hcovered.2]
    cases swaggerRoute i.request <;> rfl
  have hedge : ∀ busy, AdvancedSearch.serve sha256 config.edge busy i.request =
      if config.edge.rateLimitEnabled && busy then .tooManyRequests
      else if createKeyIdentifier sha256 config.apiAuth.keys (presentedKey i.request) = none then
        .unauthorized
      else serveMounted sha256 config.edge busy i.request := fun busy => if_pos hcovered
  unfold serve
  rw [if_pos hcovered, docsMiddleware_eq generateKey]
  cases henabled : config.rateLimit.enabled with
  | false =>
    have hoff : config.edge.rateLimitEnabled = false := henabled
    simp only [Bool.false_eq_true, if_false, charge, hedge, hoff, Bool.false_and]
    split_ifs
    · rfl
    · exact hfree s false
  | true =>
    have hon : config.edge.rateLimitEnabled = true := henabled
    simp only [if_true, charge, hedge, hon, Bool.true_and, limitIn]
    by_cases hover : config.rateLimit.default < (serveHit s ⟨i.now,
        (Bucket.mk none (tracker sha256 config i)).key generateKey, config.windowMs⟩).1.totalHits
    · simp only [hover, decide_true, if_true]
    · simp only [hover, decide_false, Bool.false_eq_true, if_false]
      split_ifs
      · rfl
      · exact hfree _ _

/-- **The limiter in front of the edge.** A request is answered as the edge answers it when told whether
the request's budget is spent; a request without a budget leaves the store alone. -/
theorem serve_eq (s : σ) (i : Incoming) :
    serve sha256 generateKey config (healthy serveHit) s i =
      charge generateKey config serveHit
        (fun busy => AdvancedSearch.serve sha256 config.edge busy i.request) s i
        (bucket sha256 config i) := by
  unfold bucket
  by_cases hcovered : config.apiAuth.enabled ∧
      DOCS_PATHS.any fun mount => useCovers mount (pathname i.request.url)
  · rw [if_pos hcovered]
    exact serve_covered s hcovered
  · rw [if_neg hcovered]
    unfold serve AdvancedSearch.serve
    rw [if_neg hcovered, mounted_eq, show config.edge.apiAuth = config.apiAuth from rfl]
    simp only [hcovered, if_false]

/-! ## Any traffic -/

/-- Over a store that is a window counter the replies are those over the counter. -/
theorem transcript_counter {counters : σ → Counters String} {Valid : σ → Prop}
    (hs : IsWindowCounter serveHit counters Valid) (hvalid : Valid s) {incoming : List Incoming}
    (hclock : incoming.Pairwise fun a b => a.now ≤ b.now) :
    transcript (serve sha256 generateKey config (healthy serveHit)) s incoming =
      transcript (serve sha256 generateKey config (healthy windowCounter)) (counters s) incoming := by
  refine transcript_eq Incoming.now
    (fun now s t => Valid s ∧ ∀ key, openAt (counters s key) now = openAt (t key) now)
    ?_ ?_ hclock fun _ _ => ⟨hvalid, fun _ => rfl⟩
  · rintro s t now later hle ⟨hv, hsame⟩
    exact ⟨hv, fun key => openAt_eq_of_le hle (hsame key)⟩
  · rintro s t i ⟨hv, hsame⟩
    rw [serve_eq, serve_eq]
    cases hbucket : bucket sha256 config i with
    | none => exact ⟨rfl, hv, hsame⟩
    | some b =>
      obtain ⟨h, hh⟩ : ∃ h : Hit String, h = ⟨i.now, b.key generateKey, config.windowMs⟩ := ⟨_, rfl⟩
      have htick : tick (counters s h.key) h.now h.length = tick (t h.key) h.now h.length := by
        rw [← tick_openAt, hh, hsame, tick_openAt]
      have hanswer : (serveHit s h).1 = (windowCounter t h).1 := by
        rw [hs.answer s h hv, htick]
        rfl
      rw [charge_some, charge_some, ← hh]
      refine ⟨by rw [hanswer], hs.keeps s h hv, fun key => ?_⟩
      show openAt (counters (serveHit s h).2 key) i.now = openAt ((FixedWindow.hit t h).2 key) i.now
      have hnow : i.now = h.now := by rw [hh]
      rw [hnow]
      by_cases hkey : key = h.key
      · subst hkey
        rw [hs.self s h hv, hit_self, htick]
      · rw [hs.other s h key hv hkey, hit_of_ne hkey, ← hnow, hsame]

/-- No two handlers' budgets share a digest. -/
def KeysApart (generateKey : String → String → String) : Prop :=
  ∀ r ∈ controllerRoutes, ∀ r' ∈ controllerRoutes, ∀ t t',
    generateKey r.1 t = generateKey r'.1 t' → r.1 = r'.1 ∧ t = t'

/-- The route of a budget is one of the controllers'. -/
theorem route_of_bucket {b : Bucket} (h : bucket sha256 config i = some b) {route : String}
    (hroute : b.route = some route) : ∃ r ∈ controllerRoutes, r.1 = route := by
  unfold bucket at h
  split_ifs at h
  · cases h
    cases hroute
  · unfold routeBucket at h
    obtain ⟨r, hr, hb⟩ := Option.bind_eq_some_iff.mp h
    split_ifs at hb
    cases hb
    obtain rfl := Option.some.inj hroute
    unfold dispatchRoute at hr
    split_ifs at hr
    exact ⟨r, List.mem_of_find?_eq_some hr, rfl⟩

/-- Then no two budgets share a key. -/
theorem key_injective (hkeys : KeysApart generateKey) {i' : Incoming} {b b' : Bucket}
    (h : bucket sha256 config i = some b) (h' : bucket sha256 config i' = some b')
    (heq : b.key generateKey = b'.key generateKey) : b = b' := by
  obtain ⟨route, client⟩ := b
  obtain ⟨route', client'⟩ := b'
  have hlist := congrArg String.toList heq
  cases route with
  | none =>
    cases route' with
    | none =>
      simp only [Bucket.key, String.toList_append, List.append_cancel_left_eq] at hlist
      rw [String.toList_inj.mp hlist]
    | some route' => simp [Bucket.key, DOCS_BUCKET] at hlist
  | some route =>
    cases route' with
    | none => simp [Bucket.key, DOCS_BUCKET] at hlist
    | some route' =>
      simp only [Bucket.key, String.toList_append, List.append_cancel_left_eq] at hlist
      obtain ⟨r, hr, rfl⟩ := route_of_bucket h rfl
      obtain ⟨r', hr', rfl⟩ := route_of_bucket h' rfl
      obtain ⟨hroute, hclient⟩ := hkeys r hr r' hr' client client' (String.toList_inj.mp hlist)
      rw [hroute, hclient]

/-- Over the counter, the replies in one budget are those to its requests alone. -/
theorem counter_isolated (hkeys : KeysApart generateKey) {one : Incoming} {b : Bucket}
    (hb : bucket sha256 config one = some b) {incoming : List Incoming}
    (hclock : incoming.Pairwise fun a b => a.now ≤ b.now) (s : Counters String) :
    (transcript (serve sha256 generateKey config (healthy windowCounter)) s incoming).filter
        (fun p => bucket sha256 config p.1 = some b) =
      transcript (serve sha256 generateKey config (healthy windowCounter)) s
        (incoming.filter fun i => bucket sha256 config i = some b) := by
  refine transcript_filter Incoming.now (fun i => bucket sha256 config i = some b)
    (fun _ s t => s (b.key generateKey) = t (b.key generateKey)) (fun _ _ _ _ _ h => h) ?_ ?_ hclock
    fun _ _ => rfl
  · intro s t i hmine hsame
    rw [serve_eq, serve_eq, of_decide_eq_true hmine]
    have hread : (windowCounter s ⟨i.now, b.key generateKey, config.windowMs⟩).1 =
        (windowCounter t ⟨i.now, b.key generateKey, config.windowMs⟩).1 := by
      unfold windowCounter FixedWindow.hit
      dsimp only
      rw [hsame]
    rw [charge_some, charge_some]
    refine ⟨?_, ?_⟩
    · rw [hread]
    · show (FixedWindow.hit s _).2 _ = (FixedWindow.hit t _).2 _
      rw [hit_self, hit_self]
      dsimp only
      rw [hsame]
  · intro s t i hother hsame
    rw [serve_eq]
    cases hbucket : bucket sha256 config i with
    | none => exact hsame
    | some b' =>
      have hne : b.key generateKey ≠ b'.key generateKey := by
        intro heq
        obtain rfl := key_injective hkeys hb hbucket heq
        exact of_decide_eq_false hother hbucket
      show (FixedWindow.hit s _).2 _ = _
      rw [hit_of_ne hne, hsame]

/-- **Budgets are isolated.** Both stores answer any traffic alike, and the replies in a budget, of the
documentation or of one handler, and of one tracker, are those to its requests alone: no other client,
and no other endpoint, spends it. -/
theorem budgets_isolated (hkeys : KeysApart generateKey) {one : Incoming} {b : Bucket}
    (hb : bucket sha256 config one = some b) {incoming : List Incoming}
    (hclock : incoming.Pairwise fun a b => a.now ≤ b.now) :
    let memory := transcript (serve sha256 generateKey config (healthy InMemoryRateLimitStore.serve)) .start
    let redis := transcript (serve sha256 generateKey config (healthy RedisRateLimitStore.serve)) .empty
    memory incoming = redis incoming ∧
      (memory incoming).filter (fun p => bucket sha256 config p.1 = some b) =
        memory (incoming.filter fun i => bucket sha256 config i = some b) := by
  intro memory redis
  have hmemory : ∀ {incoming : List Incoming}, incoming.Pairwise (fun a b => a.now ≤ b.now) →
      memory incoming =
        transcript (serve sha256 generateKey config (healthy windowCounter)) start incoming :=
    fun hclock => transcript_counter (s := InMemoryRateLimitStore.start)
      InMemoryRateLimitStore.isWindowCounter trivial hclock
  refine ⟨(hmemory hclock).trans ?_, ?_⟩
  · exact (transcript_counter (s := Redis.empty) RedisRateLimitStore.isWindowCounter
      RedisRateLimitStore.expiring_empty hclock).symm
  · rw [hmemory hclock, hmemory (hclock.filter _)]
    exact counter_isolated hkeys hb hclock start

variable (sha256 config) in
/-- A request of a budget in a time interval that is answered with anything but 429. -/
def served (b : Bucket) (from_ length : ℤ) (p : Incoming × Reply) : Bool :=
  bucket sha256 config p.1 = some b ∧ from_ ≤ p.1.now ∧ p.1.now < from_ + length ∧ p.2 ≠ .tooManyRequests

/-- A request that is counted is refused on the verdict that its budget is spent. -/
theorem serve_over {b : Bucket} (h : bucket sha256 config i = some b) :
    AdvancedSearch.serve sha256 config.edge true i.request = .tooManyRequests := by
  unfold bucket at h
  unfold AdvancedSearch.serve
  rw [show config.edge.apiAuth = config.apiAuth from rfl]
  split_ifs at h with hcovered henabled hswagger
  · have hon : config.edge.rateLimitEnabled = true := henabled
    rw [if_pos hcovered, hon]
    rfl
  · rw [if_neg hcovered]
    unfold routeBucket at h
    obtain ⟨r, hr, hb⟩ := Option.bind_eq_some_iff.mp h
    split_ifs at hb with hskip
    have hon : config.edge.rateLimitEnabled = true := by
      unfold skipIf at hskip
      simp only [Bool.or_eq_true, Bool.not_eq_true', not_or, Bool.not_eq_false] at hskip
      exact hskip.1
    have hpart : swaggerRoute i.request = none := by simpa using hswagger
    unfold serveMounted serveRoutes
    rw [hpart, dispatch_eq, hr, hon]
    rfl

variable (generateKey) in
/-- Over the counter, an interval of a window's length lets through what the budget has room for. -/
theorem counter_flood {b : Bucket} {limit : ℕ} (hwindow : 0 < config.windowMs) {incoming : List Incoming}
    (hlimit : ∀ i ∈ incoming, bucket sha256 config i = some b → limitIn config i b ≤ limit)
    (hclock : incoming.Pairwise fun a b => a.now ≤ b.now) (from_ : ℤ) (s : Counters String) :
    (transcript (serve sha256 generateKey config (healthy windowCounter)) s incoming).countP
        (served sha256 config b from_ config.windowMs) ≤
      room limit from_ config.windowMs (s (b.key generateKey)) := by
  refine countP_le_potential Incoming.now
    (fun i => bucket sha256 config i = some b → limitIn config i b ≤ limit) (fun _ => True)
    (fun s : Counters String => room limit from_ config.windowMs (s (b.key generateKey))) (from_ + config.windowMs)
    ?_ (fun _ _ _ _ => trivial) ?_ trivial hclock hlimit
  · intro i reply h
    unfold served at h
    exact (of_decide_eq_true h).2.2.1
  intro s i hle _ hnow
  rw [serve_eq]
  cases hbucket : bucket sha256 config i with
  | none =>
    have hno : ¬ served sha256 config b from_ config.windowMs
        (i, (charge generateKey config windowCounter
          (fun busy => AdvancedSearch.serve sha256 config.edge busy i.request) s i none).1) = true := by
      intro h
      have := (of_decide_eq_true h).1
      rw [hbucket] at this
      cases this
    rw [if_neg hno]
    exact le_rfl
  | some b' =>
    rw [charge_some]
    show room limit from_ config.windowMs ((FixedWindow.hit s _).2 _) + _ ≤ _
    by_cases hkey : b.key generateKey = b'.key generateKey
    · have hpays := room_tick limit (s (b.key generateKey)) hwindow hnow
      rw [hkey, hit_self, ← hkey]
      refine le_trans (Nat.add_le_add_left ?_ _) hpays
      split_ifs with hserved hcounts
      · exact le_rfl
      · -- what is served is within the limit
        obtain ⟨hb, hfrom, -, hreply⟩ := of_decide_eq_true hserved
        dsimp only at hb hreply
        refine absurd ⟨hfrom, ?_⟩ hcounts
        rw [hbucket] at hb
        obtain rfl := Option.some.inj hb
        by_contra hover
        refine hreply ?_
        have hread : (windowCounter s ⟨i.now, b'.key generateKey, config.windowMs⟩).1.totalHits =
            (tick (s (b'.key generateKey)) i.now config.windowMs).1.count := rfl
        rw [hread, decide_eq_true (lt_of_le_of_lt (hle hbucket) (not_le.mp hover))]
        exact serve_over hbucket
      · exact Nat.zero_le _
      · exact le_rfl
    · have hno : ¬ served sha256 config b from_ config.windowMs
          (i, AdvancedSearch.serve sha256 config.edge (limitIn config i b' <
            (windowCounter s ⟨i.now, b'.key generateKey, config.windowMs⟩).1.totalHits) i.request) =
          true := by
        intro h
        have hb := (of_decide_eq_true h).1
        dsimp only at hb
        rw [hbucket] at hb
        exact hkey (by rw [Option.some.inj hb])
      rw [if_neg hno, hit_of_ne hkey]
      exact le_rfl

/-- **A flood is counted.** Whatever else comes in, in any interval of a window's length fewer than two
budgets of requests of one budget are answered with anything but 429, in memory and in Redis. -/
theorem flood_bounded (b : Bucket) (limit : ℕ) (hwindow : 0 < config.rateLimit.windowSeconds)
    {incoming : List Incoming}
    (hlimit : ∀ i ∈ incoming, bucket sha256 config i = some b → limitIn config i b ≤ limit)
    (hclock : incoming.Pairwise fun a b => a.now ≤ b.now) (from_ : ℤ) :
    let counts := served sha256 config b from_ config.windowMs
    (transcript (serve sha256 generateKey config (healthy InMemoryRateLimitStore.serve)) .start
        incoming).countP counts ≤ 2 * limit - 1 ∧
      (transcript (serve sha256 generateKey config (healthy RedisRateLimitStore.serve)) .empty
        incoming).countP counts ≤ 2 * limit - 1 := by
  have hlength : 0 < config.windowMs := by
    unfold TrafficConfig.windowMs
    omega
  have hcounter := counter_flood generateKey hlength hlimit hclock from_ start
  rw [transcript_counter (s := InMemoryRateLimitStore.start) InMemoryRateLimitStore.isWindowCounter trivial
      hclock,
    transcript_counter (s := Redis.empty) RedisRateLimitStore.isWindowCounter
      RedisRateLimitStore.expiring_empty hclock]
  exact ⟨hcounter, hcounter⟩

/-! ### Two clients -/

def keyedTraffic : TrafficConfig where
  apiAuth := keyed.apiAuth
  rateLimit := ⟨true, 60, 1, 300, 60, 120⟩

/-- A request without a key, from an address. -/
def visit (now : ℤ) (url ip : String) : Incoming where
  now := now
  request := anonymous url
  ip := some ip
  socket := none
  timestamp := ""

/-- Two requests of one client, with those of another and of the platform between them. -/
def twoClients : List Incoming :=
  [visit 0 "/search?q=drill" "198.51.100.4", visit 1 "/search?q=saw" "203.0.113.7",
    visit 2 "/health/ready" "198.51.100.4", visit 3 "/docs" "198.51.100.4",
    visit 4 "/search?q=drill" "198.51.100.4"]

/-- The handler and the tracker, told apart by the first dash. -/
def dashKey (route client : String) : String := route ++ "-" ++ client

theorem dashKey_apart : KeysApart dashKey := by
  have hplain : controllerRoutes.all fun r => '-' ∉ r.1.toList := by decide
  intro r hr r' hr' t t' heq
  have hlist := congrArg String.toList heq
  simp only [dashKey, String.toList_append, List.append_assoc, show "-".toList = ['-'] from rfl,
    List.singleton_append] at hlist
  -- a route has no dash
  have hroute : ∀ r ∈ controllerRoutes, ∀ client : List Char,
      (r.1.toList ++ '-' :: client).takeWhile (· ≠ '-') = r.1.toList := by
    intro r hr client
    have hno : '-' ∉ r.1.toList := of_decide_eq_true (List.all_eq_true.mp hplain r hr)
    have hkeep : ∀ c ∈ r.1.toList, (fun c : Char => decide (c ≠ '-')) c = true := by
      intro c hc
      refine decide_eq_true ?_
      rintro rfl
      exact hno hc
    rw [List.takeWhile_append_of_pos hkeep, List.takeWhile_cons_of_neg (by simp), List.append_nil]
  have hsame : r.1.toList = r'.1.toList := by
    rw [← hroute r hr t.toList, hlist, hroute r' hr' t'.toList]
  rw [hsame, List.append_cancel_left_eq] at hlist
  exact ⟨String.toList_inj.mp hsame, String.toList_inj.mp (List.cons.inj hlist).2⟩

theorem search_bucket : bucket id keyedTraffic (visit 0 "/search?q=drill" "198.51.100.4") =
    some ⟨some "/search", "198.51.100.4"⟩ := by decide +kernel

theorem budgets_isolated_twoClients :
    (transcript (serve id dashKey keyedTraffic (healthy InMemoryRateLimitStore.serve)) .start
        twoClients).filter (fun p => bucket id keyedTraffic p.1 = some ⟨some "/search", "198.51.100.4"⟩) =
      transcript (serve id dashKey keyedTraffic (healthy InMemoryRateLimitStore.serve)) .start
        (twoClients.filter fun i => bucket id keyedTraffic i = some ⟨some "/search", "198.51.100.4"⟩) :=
  (budgets_isolated dashKey_apart search_bucket (by decide)).2

theorem flood_bounded_twoClients :
    (transcript (serve id dashKey keyedTraffic (healthy RedisRateLimitStore.serve)) .empty
        twoClients).countP (served id keyedTraffic ⟨some "/search", "198.51.100.4"⟩ 0 60000) ≤ 1 :=
  (flood_bounded ⟨some "/search", "198.51.100.4"⟩ 1 (by decide) (by decide +kernel) (by decide) 0).2

end Traffic

end AdvancedSearch
