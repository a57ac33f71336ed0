import AdvancedSearch.Http.ApiKey
import AdvancedSearch.RateLimit.Throttler

/-!
# Counting through an outage

`FailoverRateLimitStore`, which counts in memory whenever a call of Redis throws, and the tracker that a
request is counted under. How a call of Redis ends is free.
-/

namespace AdvancedSearch

open FixedWindow

/-! ## The store -/

/-- How a call of Redis ends; a thrown error carries its message. -/
inductive RedisCall where
  | succeeds
  /-- The script has not run. -/
  | throws (error : String)
  /-- The script has run. -/
  | throwsAfter (error : String)
  deriving DecidableEq

/-- Whether the script runs. -/
def RedisCall.Counts : RedisCall → Bool
  | succeeds | throwsAfter _ => true
  | throws _ => false

/-- `RedisRateLimitStore.hit` when its call ends so. -/
def RedisCall.hit (call : RedisCall) : RateLimitStorePort Redis := fun redis now key windowMs =>
  let (result, counted) := RedisRateLimitStore.hit redis now key windowMs
  match call with
  | succeeds => (.ok result, counted)
  | throws error => (.error error, redis)
  | throwsAfter error => (.error error, counted)

structure FailoverRateLimitStore where
  redis : Redis
  memory : InMemoryRateLimitStore
  degraded : Bool
  log : List String
  /-- `metrics.recordRateLimitFailover`. -/
  failovers : ℕ

namespace FailoverRateLimitStore

def start : FailoverRateLimitStore :=
  { redis := .empty, memory := .start, degraded := false, log := [], failovers := 0 }

/-- Logged on the transition only. -/
def reportDegraded (s : FailoverRateLimitStore) (error : String) : FailoverRateLimitStore :=
  if s.degraded then s
  else
    { s with
      degraded := true
      log := s.log ++
        ["Rate limit counter falling back to memory, limits are now per instance: " ++ error] }

def recover (s : FailoverRateLimitStore) : FailoverRateLimitStore :=
  if s.degraded then
    { s with
      degraded := false
      log := s.log ++ ["Rate limit counter is served by Redis again, limits are shared"] }
  else s

def hit (call : RedisCall) : RateLimitStorePort FailoverRateLimitStore := fun s now key windowMs =>
  match call.hit s.redis now key windowMs with
  | (.ok result, redis) => (.ok result, { s with redis := redis }.recover)
  | (.error error, redis) =>
    let s := { s with redis := redis, failovers := s.failovers + 1 }.reportDegraded error
    let (result, memory) := s.memory.hit now key windowMs
    (.ok result, { s with memory := memory })

variable {s : FailoverRateLimitStore} {call : RedisCall} {now windowMs : ℤ} {key : String}

@[simp] theorem recover_redis : s.recover.redis = s.redis := by
  unfold recover
  split_ifs <;> rfl

@[simp] theorem recover_memory : s.recover.memory = s.memory := by
  unfold recover
  split_ifs <;> rfl

@[simp] theorem reportDegraded_redis {error : String} : (s.reportDegraded error).redis = s.redis := by
  unfold reportDegraded
  split_ifs <;> rfl

@[simp] theorem reportDegraded_memory {error : String} : (s.reportDegraded error).memory = s.memory := by
  unfold reportDegraded
  split_ifs <;> rfl

/-- A call that succeeds is counted in Redis. -/
theorem hit_succeeds (s : FailoverRateLimitStore) (now : ℤ) (key : String) (windowMs : ℤ) :
    (hit .succeeds s now key windowMs).1 = .ok (RedisRateLimitStore.hit s.redis now key windowMs).1 ∧
      (hit .succeeds s now key windowMs).2.redis =
        (RedisRateLimitStore.hit s.redis now key windowMs).2 ∧
      (hit .succeeds s now key windowMs).2.memory = s.memory :=
  ⟨rfl, recover_redis, recover_memory⟩

/-- Any other call is counted in memory, and in Redis too when the script has run. -/
theorem hit_throws (h : call ≠ .succeeds) (s : FailoverRateLimitStore) (now : ℤ) (key : String)
    (windowMs : ℤ) :
    (hit call s now key windowMs).1 = .ok (s.memory.hit now key windowMs).1 ∧
      (hit call s now key windowMs).2.redis =
        (if call.Counts then (RedisRateLimitStore.hit s.redis now key windowMs).2 else s.redis) ∧
      (hit call s now key windowMs).2.memory = (s.memory.hit now key windowMs).2 := by
  cases call with
  | succeeds => exact absurd rfl h
  | throws error | throwsAfter error =>
    refine ⟨?_, ?_, ?_⟩
    · unfold hit RedisCall.hit
      simp only [reportDegraded_memory]
    · exact reportDegraded_redis
    · unfold hit RedisCall.hit
      simp only [reportDegraded_memory]

/-- It never rejects. -/
theorem hit_ok : ∃ result, (hit call s now key windowMs).1 = .ok result := by
  by_cases h : call = .succeeds
  · subst h
    exact ⟨_, (hit_succeeds s now key windowMs).1⟩
  · exact ⟨_, (hit_throws h s now key windowMs).1⟩

end FailoverRateLimitStore

/-! ## The tracker -/

structure TrackedRequest where
  ip : Option String
  /-- `socket?.remoteAddress?` -/
  socket : Option (Option String)
  headers : Option (String → Option HeaderValue)

/-- The first value of the key header. -/
def TrackedRequest.presented (request : TrackedRequest) : Option String :=
  match request.headers.bind fun headers => headers API_KEY_HEADER with
  | none => none
  | some (.single value) => some value
  | some (.many values) => values.head?

/-- The client behind a valid key, else the address. -/
def resolveTracker (request : TrackedRequest) (identify : Option String → Option String) : String :=
  match identify request.presented with
  | some clientId => clientId
  | none => (request.ip <|> request.socket.join).getD "unknown"

/-- A request of a handler: when it comes and how the call of Redis that counts it ends. -/
structure Arrival where
  request : TrackedRequest
  now : ℤ
  redis : RedisCall

/-- The handler's budget; `generateKey` makes the throttler's key from the tracker. -/
structure HandlerBudget where
  generateKey : String → String
  windowMs : ℤ
  limit : ℕ

/-- The key that the stores count under. -/
def HandlerBudget.storeKey (budget : HandlerBudget) (tracker : String) : String :=
  "default" ++ ":" ++ budget.generateKey tracker

/-- The throttler counts a request. -/
def countRequest (identify : Option String → Option String) (budget : HandlerBudget)
    (s : FailoverRateLimitStore) (a : Arrival) :
    Except String ThrottlerStorageRecord × FailoverRateLimitStore :=
  ThrottlerStoreAdapter.increment (FailoverRateLimitStore.hit a.redis) s a.now
    (budget.generateKey (resolveTracker a.request identify)) budget.windowMs budget.limit
    budget.windowMs "default"

/-- The counter in Redis. -/
def FailoverRateLimitStore.inRedis (s : FailoverRateLimitStore) (key : String) : Option Window :=
  RedisRateLimitStore.counters s.redis key

/-- The counter in memory. -/
def FailoverRateLimitStore.inMemory (s : FailoverRateLimitStore) (key : String) : Option Window :=
  s.memory.counters key

section

open FailoverRateLimitStore RedisRateLimitStore

variable {identify : Option String → Option String} {budget : HandlerBudget} {s : FailoverRateLimitStore}
  {a : Arrival} {tracker : String}

theorem countRequest_eq (htracker : resolveTracker a.request identify = tracker) :
    countRequest identify budget s a =
      ((FailoverRateLimitStore.hit a.redis s a.now (budget.storeKey tracker) budget.windowMs).1.map
          (ThrottlerStoreAdapter.record budget.limit),
        (FailoverRateLimitStore.hit a.redis s a.now (budget.storeKey tracker) budget.windowMs).2) := by
  subst htracker
  rfl

theorem redis_hit_spec {redis : Redis} (hv : Expiring redis) (now : ℤ) (key : String) (windowMs : ℤ) :
    (RedisRateLimitStore.hit redis now key windowMs).1 =
        .ofReading (tick (counters redis key) now windowMs).1 ∧
      counters (RedisRateLimitStore.hit redis now key windowMs).2 key =
        (tick (counters redis key) now windowMs).2 ∧
      Expiring (RedisRateLimitStore.hit redis now key windowMs).2 :=
  ⟨isWindowCounter.answer redis ⟨now, key, windowMs⟩ hv, isWindowCounter.self redis ⟨now, key, windowMs⟩ hv,
    isWindowCounter.keeps redis ⟨now, key, windowMs⟩ hv⟩

/-- A request whose call of Redis succeeds is a hit on the counter in Redis and no other. -/
theorem countRequest_succeeds (budget : HandlerBudget) (hv : Expiring s.redis)
    (htracker : resolveTracker a.request identify = tracker) (hcall : a.redis = .succeeds) :
    let reading := tick (s.inRedis (budget.storeKey tracker)) a.now budget.windowMs
    (countRequest identify budget s a).1 =
        .ok (ThrottlerStoreAdapter.record budget.limit (.ofReading reading.1)) ∧
      (countRequest identify budget s a).2.inRedis (budget.storeKey tracker) = reading.2 ∧
      (countRequest identify budget s a).2.memory = s.memory := by
  obtain ⟨hanswer, hcounter, -⟩ := redis_hit_spec hv a.now (budget.storeKey tracker) budget.windowMs
  rw [countRequest_eq htracker, hcall]
  obtain ⟨hok, hredis, hmemory⟩ := FailoverRateLimitStore.hit_succeeds s a.now
    (budget.storeKey tracker) budget.windowMs
  refine ⟨?_, ?_, hmemory⟩
  · rw [hok, hanswer]
    rfl
  · unfold inRedis
    rw [hredis, hcounter]

/-- Any other request is a hit on the counter in memory, and on the one in Redis when the script ran. -/
theorem countRequest_throws (budget : HandlerBudget) (hv : Expiring s.redis)
    (htracker : resolveTracker a.request identify = tracker) (hcall : a.redis ≠ .succeeds) :
    let reading := tick (s.inMemory (budget.storeKey tracker)) a.now budget.windowMs
    (countRequest identify budget s a).1 =
        .ok (ThrottlerStoreAdapter.record budget.limit (.ofReading reading.1)) ∧
      (countRequest identify budget s a).2.inMemory (budget.storeKey tracker) = reading.2 ∧
      (countRequest identify budget s a).2.inRedis (budget.storeKey tracker) =
        if a.redis.Counts then (tick (s.inRedis (budget.storeKey tracker)) a.now budget.windowMs).2
        else s.inRedis (budget.storeKey tracker) := by
  obtain ⟨-, hcounter, -⟩ := redis_hit_spec hv a.now (budget.storeKey tracker) budget.windowMs
  obtain ⟨hanswer, hself, -⟩ := InMemoryRateLimitStore.hit_spec s.memory a.now
    (budget.storeKey tracker) budget.windowMs
  rw [countRequest_eq htracker]
  obtain ⟨hok, hredis, hmemory⟩ := FailoverRateLimitStore.hit_throws hcall s a.now
    (budget.storeKey tracker) budget.windowMs
  refine ⟨?_, ?_, ?_⟩
  · rw [hok, hanswer]
    rfl
  · unfold inMemory
    rw [hmemory, hself]
  · unfold inRedis
    rw [hredis]
    split_ifs
    · exact hcounter
    · rfl

theorem expiring_countRequest (hv : Expiring s.redis) :
    Expiring (countRequest identify budget s a).2.redis := by
  obtain ⟨-, -, hkeeps⟩ :=
    redis_hit_spec hv a.now (budget.storeKey (resolveTracker a.request identify)) budget.windowMs
  rw [countRequest_eq rfl]
  by_cases hcall : a.redis = .succeeds
  · rw [hcall, (FailoverRateLimitStore.hit_succeeds _ _ _ _).2.1]
    exact hkeeps
  · rw [(FailoverRateLimitStore.hit_throws hcall _ _ _ _).2.1]
    split_ifs
    · exact hkeeps
    · exact hv

/-! ## What goes through -/

/-- The requests of a time interval that go through. -/
def Arrival.passed (from_ length : ℤ) (p : Arrival × Except String ThrottlerStorageRecord) : Bool :=
  AdvancedSearch.passed from_ length (p.1.now, p.2)

/-- Those that Redis counted. -/
def Arrival.passedRedis (from_ length : ℤ) (p : Arrival × Except String ThrottlerStorageRecord) : Bool :=
  p.1.redis = .succeeds ∧ Arrival.passed from_ length p

/-- Those that were counted in memory. -/
def Arrival.passedMemory (from_ length : ℤ) (p : Arrival × Except String ThrottlerStorageRecord) : Bool :=
  p.1.redis ≠ .succeeds ∧ Arrival.passed from_ length p

variable {arrivals : List Arrival} {from_ : ℤ}

theorem passed_early {length : ℤ} {a : Arrival} {answer : Except String ThrottlerStorageRecord}
    (h : Arrival.passed from_ length (a, answer) = true) : a.now < from_ + length :=
  (of_decide_eq_true h).2.1

/-- A request that goes through in the interval takes some of the room of the counter it is read from. -/
theorem room_pays {w : Option Window} (hwindow : 0 < budget.windowMs)
    (hnow : a.now < from_ + budget.windowMs) :
    room budget.limit from_ budget.windowMs (tick w a.now budget.windowMs).2 +
        (if Arrival.passed from_ budget.windowMs (a, .ok (ThrottlerStoreAdapter.record budget.limit
          (.ofReading (tick w a.now budget.windowMs).1))) then 1 else 0) ≤
      room budget.limit from_ budget.windowMs w := by
  have hlets : Arrival.passed from_ budget.windowMs (a, .ok (ThrottlerStoreAdapter.record budget.limit
      (.ofReading (tick w a.now budget.windowMs).1))) =
      decide (from_ ≤ a.now ∧ (tick w a.now budget.windowMs).1.count ≤ budget.limit) := by
    refine (passed_record budget.limit from_ budget.windowMs
      (a.now, (tick w a.now budget.windowMs).1)).trans ?_
    unfold lets
    simp only [show a.now < from_ + budget.windowMs from hnow, true_and]
  rw [hlets]
  simp only [decide_eq_true_eq]
  exact room_tick budget.limit w hwindow hnow

/-- What a counter lets through in an interval of a window's length, when the requests that are `mine`
are answered from it and any other raises it by one or leaves it. -/
theorem countP_counter (mine : Arrival → Bool) (counter : FailoverRateLimitStore → Option Window)
    (hwindow : 0 < budget.windowMs)
    (hmine : ∀ s a, resolveTracker a.request identify = tracker → Expiring s.redis → mine a = true →
      (countRequest identify budget s a).1 = .ok (ThrottlerStoreAdapter.record budget.limit
          (.ofReading (tick (counter s) a.now budget.windowMs).1)) ∧
        counter (countRequest identify budget s a).2 = (tick (counter s) a.now budget.windowMs).2)
    (hother : ∀ s a, resolveTracker a.request identify = tracker → Expiring s.redis → mine a = false →
      counter (countRequest identify budget s a).2 = (tick (counter s) a.now budget.windowMs).2 ∨
        counter (countRequest identify budget s a).2 = counter s)
    (hstart : room budget.limit from_ budget.windowMs (counter .start) ≤ 2 * budget.limit - 1)
    (htracker : ∀ a ∈ arrivals, resolveTracker a.request identify = tracker)
    (hclock : arrivals.Pairwise fun a b => a.now ≤ b.now) :
    (Service.transcript (countRequest identify budget) .start arrivals).countP
      (fun p => mine p.1 && Arrival.passed from_ budget.windowMs p) ≤ 2 * budget.limit - 1 := by
  refine le_trans (Service.countP_le_potential Arrival.now
    (fun a => resolveTracker a.request identify = tracker)
    (fun s : FailoverRateLimitStore => Expiring s.redis)
    (fun s => room budget.limit from_ budget.windowMs (counter s)) (from_ + budget.windowMs) ?_
    (fun s a _ hv => expiring_countRequest hv) ?_ expiring_empty hclock htracker) hstart
  · intro a answer h
    exact passed_early (Bool.and_eq_true_iff.mp h).2
  · intro s a htracker hv hnow
    cases hcall : mine a with
    | true =>
      obtain ⟨hanswer, hcounter⟩ := hmine s a htracker hv hcall
      rw [hanswer, hcounter, Bool.true_and]
      exact room_pays hwindow hnow
    | false =>
      simp only [Bool.false_and, Bool.false_eq_true, if_false, Nat.add_zero]
      rcases hother s a htracker hv hcall with hraised | hleft
      · rw [hraised]
        exact le_trans (Nat.le_add_right _ _) (room_pays hwindow hnow)
      · rw [hleft]

/-- What Redis lets through in an interval of a window's length. -/
theorem countP_passedRedis (hwindow : 0 < budget.windowMs)
    (htracker : ∀ a ∈ arrivals, resolveTracker a.request identify = tracker)
    (hclock : arrivals.Pairwise fun a b => a.now ≤ b.now) :
    (Service.transcript (countRequest identify budget) .start arrivals).countP
      (Arrival.passedRedis from_ budget.windowMs) ≤ 2 * budget.limit - 1 := by
  have hsplit : Arrival.passedRedis from_ budget.windowMs = fun p =>
      decide (p.1.redis = .succeeds) && Arrival.passed from_ budget.windowMs p := by
    funext p
    simp only [Arrival.passedRedis, Bool.decide_and, Bool.decide_eq_true]
  rw [hsplit]
  refine countP_counter (fun a => decide (a.redis = .succeeds)) (inRedis · (budget.storeKey tracker)) hwindow
    (fun s a htracker hv hcall => ?_) (fun s a htracker hv hcall => ?_) (le_refl _) htracker hclock
  · obtain ⟨hanswer, hredis, -⟩ := countRequest_succeeds budget hv htracker (of_decide_eq_true hcall)
    exact ⟨hanswer, hredis⟩
  · obtain ⟨-, -, hredis⟩ := countRequest_throws budget hv htracker (of_decide_eq_false hcall)
    rw [hredis]
    split_ifs
    · exact Or.inl rfl
    · exact Or.inr rfl

/-- What the counter in memory lets through. -/
theorem countP_passedMemory (hwindow : 0 < budget.windowMs)
    (htracker : ∀ a ∈ arrivals, resolveTracker a.request identify = tracker)
    (hclock : arrivals.Pairwise fun a b => a.now ≤ b.now) :
    (Service.transcript (countRequest identify budget) .start arrivals).countP
      (Arrival.passedMemory from_ budget.windowMs) ≤ 2 * budget.limit - 1 := by
  have hsplit : Arrival.passedMemory from_ budget.windowMs = fun p =>
      decide (p.1.redis ≠ .succeeds) && Arrival.passed from_ budget.windowMs p := by
    funext p
    simp only [Arrival.passedMemory, Bool.decide_and, Bool.decide_eq_true]
  rw [hsplit]
  refine countP_counter (fun a => decide (a.redis ≠ .succeeds)) (inMemory · (budget.storeKey tracker))
    hwindow (fun s a htracker hv hcall => ?_) (fun s a htracker hv hcall => ?_) (le_refl _) htracker hclock
  · obtain ⟨hanswer, hmemory, -⟩ := countRequest_throws budget hv htracker (of_decide_eq_true hcall)
    exact ⟨hanswer, hmemory⟩
  · have hsucceeds : a.redis = .succeeds := not_not.mp (of_decide_eq_false hcall)
    obtain ⟨-, -, hmemory⟩ := countRequest_succeeds budget hv htracker hsucceeds
    unfold inMemory
    exact Or.inr (by rw [hmemory])

/-- Every request is counted by one of the two. -/
theorem countP_passed_split (log : List (Arrival × Except String ThrottlerStorageRecord))
    (from_ length : ℤ) :
    log.countP (Arrival.passed from_ length) =
      log.countP (Arrival.passedRedis from_ length) + log.countP (Arrival.passedMemory from_ length) := by
  induction log with
  | nil => rfl
  | cons p log ih =>
    rw [List.countP_cons, List.countP_cons, List.countP_cons, ih]
    unfold Arrival.passedRedis Arrival.passedMemory
    by_cases hcall : p.1.redis = .succeeds
    · simp only [hcall, true_and, Bool.decide_eq_true, ne_eq, not_true_eq_false, false_and, decide_false,
        Bool.false_eq_true, if_false]
      omega
    · simp only [hcall, false_and, decide_false, Bool.false_eq_true, if_false, ne_eq, not_false_eq_true,
        true_and, Bool.decide_eq_true]
      omega

/-- A record says what its counter has been raised to, by one. -/
def Counted (before after : Option Window) (now : ℤ) (record : ThrottlerStorageRecord) : Prop :=
  countedAt after now = countedAt before now + 1 ∧ record.totalHits = countedAt after now

theorem counted_tick {w : Option Window} (hwindow : 0 < budget.windowMs) (now : ℤ) :
    Counted w (tick w now budget.windowMs).2 now
      (ThrottlerStoreAdapter.record budget.limit (.ofReading (tick w now budget.windowMs).1)) := by
  obtain ⟨hcounter, hreading⟩ := countedAt_tick w now hwindow
  exact ⟨hcounter, hreading.trans hcounter.symm⟩

/-- Every request is answered and counted, in Redis when its call succeeds and else in memory. -/
theorem countRequest_counted (hwindow : 0 < budget.windowMs) (hv : Expiring s.redis)
    (htracker : resolveTracker a.request identify = tracker) :
    ∃ record, (countRequest identify budget s a).1 = .ok record ∧
      if a.redis = .succeeds then
        Counted (s.inRedis (budget.storeKey tracker))
          ((countRequest identify budget s a).2.inRedis (budget.storeKey tracker)) a.now record
      else
        Counted (s.inMemory (budget.storeKey tracker))
          ((countRequest identify budget s a).2.inMemory (budget.storeKey tracker)) a.now record := by
  by_cases hcall : a.redis = .succeeds
  · obtain ⟨hanswer, hredis, -⟩ := countRequest_succeeds budget hv htracker hcall
    refine ⟨_, hanswer, ?_⟩
    rw [if_pos hcall, hredis]
    exact counted_tick hwindow a.now
  · obtain ⟨hanswer, hmemory, -⟩ := countRequest_throws budget hv htracker hcall
    refine ⟨_, hanswer, ?_⟩
    rw [if_neg hcall, hmemory]
    exact counted_tick hwindow a.now

end

open FailoverRateLimitStore RedisRateLimitStore in
/-- **Enforcement through outages.** However the calls of Redis end, and whatever keys that are not
configured ones the requests of one source present, no hit rejects, every request is counted under the
same tracker, and each store lets at most two budgets through in an interval of a window's length. -/
theorem enforced_through_outages {sha256 : String → String} {keys : List String} {budget : HandlerBudget}
    {arrivals : List Arrival} {ip : Option String} {socket : Option (Option String)}
    (hwindow : 0 < budget.windowMs)
    (hsource : ∀ a ∈ arrivals, a.request.ip = ip ∧ a.request.socket = socket)
    (hkeyless : ∀ a ∈ arrivals, ∀ key ∈ a.request.presented, key ∉ keys)
    (hsha : ∀ a ∈ arrivals, ∀ presented ∈ a.request.presented, ∀ key ∈ keys,
      sha256 key = sha256 presented → key = presented)
    (hclock : arrivals.Pairwise fun a b => a.now ≤ b.now) :
    let identify := createKeyIdentifier sha256 keys
    let answered := Service.transcript (countRequest identify budget) .start arrivals
    (∀ call s now key windowMs,
        ∃ result, (FailoverRateLimitStore.hit call s now key windowMs).1 = .ok result) ∧
      (∃ tracker, (∀ a ∈ arrivals, resolveTracker a.request identify = tracker) ∧
        ∀ before a later, arrivals = before ++ a :: later →
          let s := Service.after (countRequest identify budget) .start before
          let s' := (countRequest identify budget s a).2
          ∃ record, (countRequest identify budget s a).1 = .ok record ∧
            if a.redis = .succeeds then
              Counted (s.inRedis (budget.storeKey tracker)) (s'.inRedis (budget.storeKey tracker))
                a.now record
            else
              Counted (s.inMemory (budget.storeKey tracker)) (s'.inMemory (budget.storeKey tracker))
                a.now record) ∧
      ∀ from_, answered.countP (Arrival.passedRedis from_ budget.windowMs) ≤ 2 * budget.limit ∧
        answered.countP (Arrival.passedMemory from_ budget.windowMs) ≤ 2 * budget.limit ∧
        answered.countP (Arrival.passed from_ budget.windowMs) ≤ 4 * budget.limit := by
  intro identify answered
  have htracker : ∀ a ∈ arrivals,
      resolveTracker a.request identify = (ip <|> socket.join).getD "unknown" := by
    intro a ha
    unfold resolveTracker
    rw [show identify a.request.presented = none from
      createKeyIdentifier_none (hkeyless a ha) (hsha a ha), (hsource a ha).1, (hsource a ha).2]
  refine ⟨fun call s now key windowMs => hit_ok, ⟨_, htracker, ?_⟩, fun from_ => ?_⟩
  · rintro before a later rfl
    have hv : Expiring (Service.after (countRequest identify budget) .start before).redis :=
      Service.after_keeps (I := fun s : FailoverRateLimitStore => Expiring s.redis)
        (fun s a hv => expiring_countRequest hv) expiring_empty
    exact countRequest_counted hwindow hv (htracker a (List.mem_append_right _ List.mem_cons_self))
  · have hredis : answered.countP (Arrival.passedRedis from_ budget.windowMs) ≤ 2 * budget.limit - 1 :=
      countP_passedRedis hwindow htracker hclock
    have hmemory : answered.countP (Arrival.passedMemory from_ budget.windowMs) ≤ 2 * budget.limit - 1 :=
      countP_passedMemory hwindow htracker hclock
    have hsplit := countP_passed_split answered from_ budget.windowMs
    exact ⟨by omega, by omega, by omega⟩

/-- One request a second. -/
def oneASecond : HandlerBudget :=
  { generateKey := fun tracker => "SearchController-search-default-" ++ tracker
    windowMs := 1000, limit := 1 }

/-- The digests of a configured key and of a guess. -/
def digests (key : String) : String :=
  if key = "0123456789abcdef" then "9f9f5111f7b27a781f1f1ddde5ebc2dd2b796bfc7365c9c28b548e564176929f"
  else "ac074837ceda8c409c9bac06d54457d63507c85f9a6d586d3f5d4d9debef8475"

/-- A request of one address. -/
def requestOf (key : Option String) : TrackedRequest :=
  { ip := some "10.0.0.1", socket := none
    headers := some fun _ => key.map .single }

/-- Three requests of which the second one's call of Redis throws after the script has run. -/
def outage : List Arrival :=
  [⟨requestOf none, 0, .succeeds⟩, ⟨requestOf (some "guess-1"), 10, .throwsAfter "ETIMEDOUT"⟩,
    ⟨requestOf none, 20, .succeeds⟩]

theorem enforced_through_outages_timeout :
    (Service.transcript (countRequest (createKeyIdentifier digests ["0123456789abcdef"]) oneASecond) .start
      outage).countP (Arrival.passed 0 1000) ≤ 4 :=
  ((@enforced_through_outages digests ["0123456789abcdef"] oneASecond outage (some "10.0.0.1") none
    (by decide) (by decide) (by decide) (by decide) (by decide)).2.2 0).2.2

end AdvancedSearch
