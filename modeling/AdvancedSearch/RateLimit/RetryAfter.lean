import AdvancedSearch.Lib.Counts
import AdvancedSearch.Lib.Json
import AdvancedSearch.Http.Routing
import AdvancedSearch.RateLimit.Failover

/-!
# When to come back

The throttler and the middleware of the docs, both counting in memory, among any other traffic. The
seconds that a refused request is told are the rest of its window rounded up: a request that waits for
them is let through, and one that comes a second earlier is not (`retry_after_exact`).
-/

namespace AdvancedSearch

open Js FixedWindow

/-! ## Seconds -/

/-- The doubles round up as the integers do. -/
theorem ceilSeconds_number {ms : ℕ} (hms : ms < 2 ^ 53) :
    ((Number.ofRat ms).dividedBy (.ofRat 1000)).ceil =
      .ofRat (ThrottlerStoreAdapter.ceilSeconds ms : ℤ) := by
  obtain ⟨thousand, hthousand, hvalue⟩ := Number.exists_double_natCast (show 1000 < 2 ^ 53 by norm_num)
  have hceil : (ms ⌈/⌉ 1000 : ℕ) = ThrottlerStoreAdapter.ceilSeconds ms := by
    rw [Nat.ceilDiv_eq_add_pred_div]
    unfold ThrottlerStoreAdapter.ceilSeconds
    omega
  rw [← hceil, Int.cast_natCast, ← Number.ceil_dividedBy hms hvalue (by norm_num), ← hthousand]
  rfl

theorem ceilSeconds_bounds {ms : ℤ} (hms : 0 < ms) :
    1 ≤ ThrottlerStoreAdapter.ceilSeconds ms ∧ ms ≤ 1000 * ThrottlerStoreAdapter.ceilSeconds ms ∧
      1000 * (ThrottlerStoreAdapter.ceilSeconds ms - 1) < ms := by
  unfold ThrottlerStoreAdapter.ceilSeconds
  omega

/-! ## The docs -/

/-- Its own namespace. -/
def DOCS_BUCKET : String := "docs"

structure DocsRequest extends TrackedRequest where
  originalUrl : String

/-- What the middleware does with a request. -/
inductive DocsAnswer where
  | next
  | rejected (retryAfter : ℤ) (status : ℕ) (body : Json)

/-- The 429, written by hand; `timestamp` is the time of writing. -/
def rejectOverBudget (request : DocsRequest) (timestamp : String) (timeToExpireMs : ℤ) : DocsAnswer :=
  .rejected (-(-timeToExpireMs / 1000)) 429
    (.object
      [("statusCode", .number (.ofNat 429)), ("error", .string "Too Many Requests"),
        ("message", .string "Rate limit exceeded. Retry later."), ("timestamp", .string timestamp),
        ("path", .string request.originalUrl)])

/-- What follows on the store's answer; serving the contract beats failing it. -/
def docsAnswer (config : RateLimitConfig) (request : DocsRequest) (timestamp : String) :
    Except String RateLimitHit → DocsAnswer
  | .ok outcome =>
    if outcome.totalHits > config.default then
      rejectOverBudget request timestamp outcome.timeToExpireMs
    else .next
  | .error _ => .next

/-! ## One store for both -/

/-- A request that is counted: by the throttler, or by the middleware of the docs. -/
inductive CountedRequest where
  | throttled (key : String) (ttl : ℤ) (limit : ℕ) (blockDuration : ℤ) (throttlerName : String)
  | docs (request : DocsRequest) (timestamp : String)

inductive CountedAnswer where
  | throttled (record : Except String ThrottlerStorageRecord)
  | docs (outcome : Except String RateLimitHit) (answer : DocsAnswer)

/-- The `Retry-After` of a request that is refused. -/
def CountedAnswer.retryAfter : CountedAnswer → Option ℤ
  | .throttled (.ok record) => if record.isBlocked then some record.timeToBlockExpire else none
  | .throttled (.error _) => none
  | .docs _ .next => none
  | .docs _ (.rejected retryAfter _ _) => some retryAfter

def CountedAnswer.totalHits : CountedAnswer → Option ℕ
  | .throttled (.ok record) => some record.totalHits
  | .docs (.ok outcome) _ => some outcome.totalHits
  | _ => none

section

variable (config : RateLimitConfig) (identify : Option String → Option String)

/-- What is counted of a request at a time. -/
def CountedRequest.hit (now : ℤ) : CountedRequest → Hit String
  | .throttled key ttl _ _ throttlerName => ⟨now, throttlerName ++ ":" ++ key, ttl⟩
  | .docs request _ =>
    ⟨now, DOCS_BUCKET ++ ":" ++ resolveTracker request.toTrackedRequest identify,
      config.windowSeconds * 1000⟩

/-- The key a request is counted under. -/
def CountedRequest.key (request : CountedRequest) : String := (request.hit config identify 0).key

def CountedRequest.limit : CountedRequest → ℕ
  | .throttled _ _ limit _ _ => limit
  | .docs .. => config.default

variable {σ : Type}

/-- `buildDocsRateLimitMiddleware`. -/
def docsRateLimit (store : RateLimitStorePort σ) (s : σ) (now : ℤ) (request : DocsRequest)
    (timestamp : String) : CountedAnswer × σ :=
  let windowMs : ℤ := config.windowSeconds * 1000
  let key := DOCS_BUCKET ++ ":" ++ resolveTracker request.toTrackedRequest identify
  let (outcome, s) := store s now key windowMs
  (.docs outcome (docsAnswer config request timestamp outcome), s)

/-- Both on one store. -/
def serveCounted (store : RateLimitStorePort σ) (s : σ) (r : ℤ × CountedRequest) : CountedAnswer × σ :=
  match r.2 with
  | .throttled key ttl limit blockDuration throttlerName =>
    let (record, s) :=
      ThrottlerStoreAdapter.increment store s r.1 key ttl limit blockDuration throttlerName
    (.throttled record, s)
  | .docs request timestamp => docsRateLimit config identify store s r.1 request timestamp

/-- What a request makes of the store's answer. -/
def CountedRequest.answer (hit : RateLimitHit) : CountedRequest → CountedAnswer
  | .throttled _ _ limit _ _ => .throttled (.ok (ThrottlerStoreAdapter.record limit hit))
  | .docs request timestamp => .docs (.ok hit) (docsAnswer config request timestamp (.ok hit))

end

section

variable {config : RateLimitConfig} {identify : Option String → Option String}

theorem serveCounted_healthy {σ : Type} (serve : σ → Hit String → RateLimitHit × σ) (s : σ) (now : ℤ)
    (request : CountedRequest) :
    serveCounted config identify (healthy serve) s (now, request) =
      (request.answer config (serve s (request.hit config identify now)).1,
        (serve s (request.hit config identify now)).2) := by
  cases request <;> rfl

theorem after_serveCounted {σ : Type} (serve : σ → Hit String → RateLimitHit × σ) (s : σ)
    (requests : List (ℤ × CountedRequest)) :
    Service.after (serveCounted config identify (healthy serve)) s requests =
      Service.after serve s (requests.map fun r => r.2.hit config identify r.1) := by
  induction requests generalizing s with
  | nil => rfl
  | cons r requests ih =>
    rw [List.map_cons, Service.after_cons, Service.after_cons, ih]
    exact congrArg (Service.after serve · _) (congrArg Prod.snd (serveCounted_healthy serve s r.1 r.2))

theorem hit_now (now : ℤ) (request : CountedRequest) : (request.hit config identify now).now = now := by
  cases request <;> rfl

theorem hit_key (now : ℤ) (request : CountedRequest) :
    (request.hit config identify now).key = request.key config identify := by
  cases request <;> rfl

theorem answer_totalHits (hit : RateLimitHit) (request : CountedRequest) :
    (request.answer config hit).totalHits = some hit.totalHits := by
  cases request <;> rfl

/-- Past its limit a request is refused and told the seconds left. -/
theorem answer_refuses {count : ℕ} {ms : ℤ} {request : CountedRequest} (hms : 0 < ms)
    (h : request.limit config < count) :
    (request.answer config ⟨count, ms⟩).retryAfter = some (ThrottlerStoreAdapter.ceilSeconds ms) := by
  cases request with
  | throttled key ttl limit blockDuration throttlerName => exact if_pos (decide_eq_true h)
  | docs request timestamp =>
    have hceil : -(-ms / 1000) = ThrottlerStoreAdapter.ceilSeconds ms := by
      unfold ThrottlerStoreAdapter.ceilSeconds
      omega
    have hanswer : docsAnswer config request timestamp (.ok ⟨count, ms⟩) =
        rejectOverBudget request timestamp ms := if_pos h
    show (CountedAnswer.docs _ (docsAnswer config request timestamp _)).retryAfter = _
    rw [hanswer, ← hceil]
    rfl

theorem answer_serves {count : ℕ} {ms : ℤ} {request : CountedRequest}
    (h : count ≤ request.limit config) : (request.answer config ⟨count, ms⟩).retryAfter = none := by
  cases request with
  | throttled key ttl limit blockDuration throttlerName =>
    exact if_neg fun hblocked => absurd (of_decide_eq_true hblocked) (not_lt.mpr h)
  | docs request timestamp =>
    have hanswer : docsAnswer config request timestamp (.ok ⟨count, ms⟩) = .next :=
      if_neg (not_lt.mpr h)
    show (CountedAnswer.docs _ (docsAnswer config request timestamp _)).retryAfter = _
    rw [hanswer]
    rfl

/-- A refused request leaves a window that is open and past the limit, and is told its rest. -/
theorem refused_window {w : Option Window} {now length r : ℤ} {request : CountedRequest}
    (hlimit : 1 ≤ request.limit config)
    (h : (request.answer config (.ofReading (tick w now length).1)).retryAfter = some r) :
    ∃ u : Window, request.limit config < u.count ∧ now < u.ends ∧ (tick w now length).2 = some u ∧
      r = ThrottlerStoreAdapter.ceilSeconds (u.ends - now) := by
  have hpast : request.limit config < (tick w now length).1.count := by
    by_contra hwithin
    exact absurd ((answer_serves (not_lt.mp hwithin)).symm.trans h) (by simp)
  obtain ⟨v, -, hopen, htick⟩ := tick_past hlimit hpast
  rw [htick] at h hpast
  exact ⟨⟨v.count + 1, v.ends⟩, hpast, hopen, by rw [htick],
    Option.some.inj (h.symm.trans (answer_refuses (sub_pos.mpr hopen) hpast))⟩

/-- What a request is answered after others is read from those on its key. -/
theorem serveCounted_after {requests : List (ℤ × CountedRequest)} {r : ℤ × CountedRequest}
    (hclock : (requests ++ [r]).Pairwise fun a b => a.1 ≤ b.1) :
    (serveCounted config identify (healthy InMemoryRateLimitStore.serve)
      (Service.after (serveCounted config identify (healthy InMemoryRateLimitStore.serve)) .start requests)
      r).1 = r.2.answer config (.ofReading (tick
        (Service.after tickHit none ((requests.filter fun q => q.2.key config identify =
          r.2.key config identify).map fun q => q.2.hit config identify q.1)) r.1
        (r.2.hit config identify r.1).length).1) := by
  have hhits : ((requests.map fun q => q.2.hit config identify q.1) ++
      [r.2.hit config identify r.1]).Pairwise fun a b => a.now ≤ b.now := by
    rw [← List.map_singleton (f := fun q : ℤ × CountedRequest => q.2.hit config identify q.1),
      ← List.map_append, List.pairwise_map]
    simpa only [hit_now] using hclock
  have hfilter : (requests.map fun q => q.2.hit config identify q.1).filter
      (fun g => g.key = (r.2.hit config identify r.1).key) =
      (requests.filter fun q => q.2.key config identify = r.2.key config identify).map
        fun q => q.2.hit config identify q.1 := by
    rw [List.filter_map]
    refine congrArg (List.map _) (List.filter_congr fun q _ => ?_)
    simp only [Function.comp_apply, hit_key]
  have hanswer := InMemoryRateLimitStore.isWindowCounter.answer_after (s := .start) trivial rfl hhits
  rw [hfilter, hit_now] at hanswer
  rw [after_serveCounted, serveCounted_healthy, hanswer]

end

/-! ## When to come back -/

/-- **When a refused request is let through.** It is told at least a second. From then on the next one of
its budget is counted as the first of a window and let through; until a second before, all are refused. -/
theorem retry_after_exact (config : RateLimitConfig) (identify : Option String → Option String)
    {before between : List (ℤ × CountedRequest)} {a b : ℤ × CountedRequest}
    (hclock : (before ++ a :: between ++ [b]).Pairwise fun a b => a.1 ≤ b.1)
    (hlimit : 1 ≤ a.2.limit config) (hkey : b.2.key config identify = a.2.key config identify)
    (hsame : b.2.limit config = a.2.limit config) {r : ℤ} :
    let serve := serveCounted config identify (healthy InMemoryRateLimitStore.serve)
    let answer := (serve (Service.after serve .start before) a).1
    let later := (serve (Service.after serve .start (before ++ a :: between)) b).1
    answer.retryAfter = some r →
      1 ≤ r ∧
      (a.1 + 1000 * r ≤ b.1 → (∀ c ∈ between, c.2.key config identify ≠ a.2.key config identify) →
        later.retryAfter = none ∧ later.totalHits = some 1) ∧
      (b.1 < a.1 + 1000 * (r - 1) → later.retryAfter.isSome) := by
  intro serve answer later hrefused
  have hfirst : (before ++ [a]).Pairwise fun a b => a.1 ≤ b.1 := by
    refine hclock.sublist (List.Sublist.trans ?_ (List.sublist_append_left _ _))
    exact (List.Sublist.refl before).append (List.singleton_sublist.mpr List.mem_cons_self)
  obtain ⟨w, hw⟩ : ∃ w, w = Service.after tickHit none ((before.filter fun q =>
      q.2.key config identify = a.2.key config identify).map fun q => q.2.hit config identify q.1) :=
    ⟨_, rfl⟩
  have hanswer : answer = a.2.answer config (.ofReading
      (tick w a.1 (a.2.hit config identify a.1).length).1) := hw ▸ serveCounted_after hfirst
  have hlater : later = b.2.answer config (.ofReading (tick _ b.1 _).1) := serveCounted_after hclock
  rw [hanswer] at hrefused
  obtain ⟨u, hover, hopen, htick, rfl⟩ := refused_window hlimit hrefused
  obtain ⟨hone, hlong, hshort⟩ := ceilSeconds_bounds (sub_pos.mpr hopen)
  -- the counter that the later request finds
  have hcounter : Service.after tickHit none (((before ++ a :: between).filter fun q =>
        q.2.key config identify = b.2.key config identify).map fun q => q.2.hit config identify q.1) =
      Service.after tickHit (some u) ((between.filter fun q =>
        q.2.key config identify = a.2.key config identify).map fun q => q.2.hit config identify q.1) := by
    rw [hkey, List.filter_append, List.filter_cons_of_pos (by simp), List.map_append, List.map_cons,
      Service.after_append, ← hw, Service.after_cons]
    unfold tickHit
    rw [hit_now, htick]
  rw [hcounter] at hlater
  refine ⟨hone, fun hwaited hnone => ?_, fun hearly => ?_⟩
  · have hempty : (between.filter fun q => q.2.key config identify = a.2.key config identify) = [] :=
      List.filter_eq_nil_iff.mpr fun c hc => by simpa using hnone c hc
    rw [hempty, List.map_nil, Service.after_nil, tick_closed (by omega), tick_none] at hlater
    rw [hlater]
    exact ⟨answer_serves (hsame ▸ hlimit), answer_totalHits _ _⟩
  · have hstill : b.1 < u.ends := by omega
    have hbefore : ∀ c ∈ between, c.1 ≤ b.1 := fun c hc =>
      (List.pairwise_append.mp hclock).2.2 c
        (List.mem_append_right before (List.mem_cons_of_mem a hc)) b List.mem_cons_self
    obtain ⟨counted, hcounted⟩ : ∃ counted, Service.after tickHit (some u) ((between.filter fun q =>
        q.2.key config identify = a.2.key config identify).map fun q => q.2.hit config identify q.1) =
        some ⟨u.count + counted, u.ends⟩ := by
      refine ⟨_, after_tickHit_open fun g hg => ?_⟩
      obtain ⟨c, hc, rfl⟩ := List.mem_map.mp hg
      rw [hit_now]
      exact (hbefore c (List.mem_filter.mp hc).1).trans_lt hstill
    rw [hcounted, tick_open (v := ⟨u.count + counted, u.ends⟩) hstill] at hlater
    rw [hlater]
    refine Option.isSome_of_eq_some (answer_refuses (sub_pos.mpr hstill) ?_)
    rw [hsame]
    dsimp only
    omega

/-- A window of a minute and one request, and a client that is refused 500 ms before its end. -/
theorem retry_after_exact_minute :
    let config : RateLimitConfig := ⟨true, 60, 60, 300, 60, 120⟩
    let serve := serveCounted config id (healthy InMemoryRateLimitStore.serve)
    let request : CountedRequest := .throttled "client" 60000 1 60000 "default"
    (serve (Service.after serve .start [(0, request)]) (59500, request)).1.retryAfter = some 1 ∧
      (serve (Service.after serve .start ([(0, request)] ++ (59500, request) :: []))
        (60500, request)).1.totalHits = some 1 := by
  intro config serve request
  have hrefused : (serve (Service.after serve .start [(0, request)]) (59500, request)).1.retryAfter =
      some 1 := by decide +kernel
  have hlaw := @retry_after_exact config id [(0, request)] [] (59500, request) (60500, request)
    (by simp) le_rfl rfl rfl 1 hrefused
  exact ⟨hrefused, (hlaw.2.1 (by decide) (fun _ h => absurd h List.not_mem_nil)).2⟩

end AdvancedSearch
