import AdvancedSearch.RateLimit.Stores

/-!
# The throttler's storage

`ThrottlerStoreAdapter` over any store, and how many requests a healthy store lets through.
-/

namespace AdvancedSearch

open FixedWindow

/-- A call of `RateLimitStorePort.hit`; it may reject. -/
abbrev RateLimitStorePort (σ : Type) := σ → ℤ → String → ℤ → Except String RateLimitHit × σ

structure ThrottlerStorageRecord where
  totalHits : ℕ
  /-- In seconds. -/
  timeToExpire : ℤ
  isBlocked : Bool
  timeToBlockExpire : ℤ
  deriving DecidableEq

namespace ThrottlerStoreAdapter

/-- `Math.max(0, Math.ceil(ms / 1000))`. -/
def ceilSeconds (ms : ℤ) : ℤ := max 0 (-(-ms / 1000))

/-- The request that takes the count past the limit is the first one blocked. -/
def record (limit : ℕ) (hit : RateLimitHit) : ThrottlerStorageRecord :=
  let timeToExpire := ceilSeconds hit.timeToExpireMs
  { totalHits := hit.totalHits
    timeToExpire := timeToExpire
    isBlocked := decide (hit.totalHits > limit)
    timeToBlockExpire := timeToExpire }

variable {σ : Type}

def increment (store : RateLimitStorePort σ) (s : σ) (now : ℤ) (key : String) (ttl : ℤ) (limit : ℕ)
    (_blockDuration : ℤ) (throttlerName : String) : Except String ThrottlerStorageRecord × σ :=
  let (hit, s) := store s now (throttlerName ++ ":" ++ key) ttl
  (hit.map (record limit), s)

end ThrottlerStoreAdapter

/-- Whether a request goes through. -/
def notBlocked (answer : Except String ThrottlerStorageRecord) : Bool :=
  match answer with
  | .ok record => ! record.isBlocked
  | .error _ => false

/-- A store that answers every call. -/
def healthy {σ : Type} (serve : σ → Hit String → RateLimitHit × σ) : RateLimitStorePort σ :=
  fun s now key windowMs =>
    let (hit, s) := serve s ⟨now, key, windowMs⟩
    (.ok hit, s)

/-- A budget: a limit and its window, and the key it is counted under. -/
structure Budget where
  key : String
  throttlerName : String
  windowMs : ℤ
  limit : ℕ
  blockDuration : ℤ

/-- Requests of one budget, by their times. -/
def throttle {σ : Type} (store : RateLimitStorePort σ) (budget : Budget) (s : σ) (now : ℤ) :
    Except String ThrottlerStorageRecord × σ :=
  ThrottlerStoreAdapter.increment store s now budget.key budget.windowMs budget.limit
    budget.blockDuration budget.throttlerName

/-- The requests of a time interval that go through. -/
def passed (from_ length : ℤ) (p : ℤ × Except String ThrottlerStorageRecord) : Bool :=
  from_ ≤ p.1 ∧ p.1 < from_ + length ∧ notBlocked p.2

/-- A request goes through when the limit lets its hit through. -/
theorem passed_record (limit : ℕ) (from_ length : ℤ) (p : ℤ × Reading) :
    passed from_ length (p.1, .ok (ThrottlerStoreAdapter.record limit (.ofReading p.2))) =
      lets limit from_ length p := by
  unfold passed lets notBlocked ThrottlerStoreAdapter.record RateLimitHit.ofReading
  simp only [gt_iff_lt, Bool.not_eq_true', decide_eq_false_iff_not, not_lt]

/-! ## A healthy store -/

section

variable {σ : Type} {serve : σ → Hit String → RateLimitHit × σ} {counters : σ → Counters String}
  {Valid : σ → Prop} {s : σ} {times : List ℤ} (budget : Budget)

/-- A budget's answers are the readings of one counter. -/
theorem throttle_transcript (hs : IsWindowCounter serve counters Valid) (hvalid : Valid s)
    (hstart : counters s = start) (hclock : times.Pairwise (· ≤ ·)) :
    Service.transcript (throttle (healthy serve) budget) s times =
      (Service.transcript (tickAt budget.windowMs) none times).map fun p =>
        (p.1, .ok (ThrottlerStoreAdapter.record budget.limit (.ofReading p.2))) := by
  let key := budget.throttlerName ++ ":" ++ budget.key
  let hitAt (now : ℤ) : Hit String := ⟨now, key, budget.windowMs⟩
  have hhits : (times.map hitAt).Pairwise fun a b => a.now ≤ b.now := List.pairwise_map.mpr hclock
  have hstore := Service.transcript_map (throttle (healthy serve) budget) serve hitAt Hit.now
    (fun hit => .ok (ThrottlerStoreAdapter.record budget.limit hit)) (fun _ => rfl) (fun _ _ => rfl) s times
  have hticks := Service.transcript_map (tickAt budget.windowMs) tickHit hitAt Hit.now id (fun _ => rfl)
    (fun _ _ => rfl) none times
  -- every hit is on the key, so the key's answers are all of them
  have hkey : Service.transcript FixedWindow.hit start (times.map hitAt) =
      Service.transcript tickHit none (times.map hitAt) := by
    have hall : (times.map hitAt).filter (fun h => h.key = key) = times.map hitAt := by
      refine List.filter_eq_self.mpr fun h hh => ?_
      obtain ⟨t, -, rfl⟩ := List.mem_map.mp hh
      exact decide_eq_true rfl
    have hone := transcript_key start (times.map hitAt) key
    rw [transcript_filter_key, hall] at hone
    exact hone
  rw [hstore, hs.transcript_eq hvalid hhits, hstart, transcript_windowCounter, hkey, hticks,
    List.map_map, List.map_map]
  rfl

theorem countP_passed (hs : IsWindowCounter serve counters Valid) (hvalid : Valid s)
    (hstart : counters s = start) (hclock : times.Pairwise (· ≤ ·)) (from_ : ℤ) :
    (Service.transcript (throttle (healthy serve) budget) s times).countP
        (passed from_ budget.windowMs) =
      (Service.transcript (tickAt budget.windowMs) none times).countP
        (lets budget.limit from_ budget.windowMs) := by
  rw [throttle_transcript budget hs hvalid hstart hclock, List.countP_map]
  exact congrArg (List.countP · _) (funext fun p => passed_record budget.limit from_ budget.windowMs p)

/-- Any interval of a window's length sees less than two budgets. -/
theorem passed_interval (hs : IsWindowCounter serve counters Valid) (hvalid : Valid s)
    (hstart : counters s = start) (hclock : times.Pairwise (· ≤ ·)) (hwindow : 0 < budget.windowMs)
    (from_ : ℤ) :
    (Service.transcript (throttle (healthy serve) budget) s times).countP
      (passed from_ budget.windowMs) ≤ 2 * budget.limit - 1 := by
  rw [countP_passed budget hs hvalid hstart hclock]
  exact countP_lets_le budget.limit from_ hwindow hclock

/-- A window of the counter sees at most one budget. -/
theorem passed_window (hs : IsWindowCounter serve counters Valid) (hvalid : Valid s)
    (hstart : counters s = start) (hclock : times.Pairwise (· ≤ ·)) (hwindow : 0 < budget.windowMs)
    (hlimit : 0 < budget.limit) {opened : ℤ} {record : ThrottlerStorageRecord}
    (hmem : (opened, .ok record) ∈ Service.transcript (throttle (healthy serve) budget) s times)
    (hopens : record.totalHits = 1) :
    (Service.transcript (throttle (healthy serve) budget) s times).countP
      (passed opened budget.windowMs) ≤ budget.limit := by
  rw [countP_passed budget hs hvalid hstart hclock]
  rw [throttle_transcript budget hs hvalid hstart hclock] at hmem
  obtain ⟨p, hp, heq⟩ := List.mem_map.mp hmem
  obtain ⟨rfl, hrecord⟩ := Prod.mk.injEq .. ▸ heq
  cases hrecord
  exact countP_lets_window hlimit hwindow hclock hp hopens

end

/-! ## Rolling or fixed -/

/-- Both stores let a budget through in every window of the counter, and less than two budgets in
every interval of a window's length. -/
theorem budget_per_window (budget : Budget) {times : List ℤ} (hlimit : 0 < budget.limit)
    (hwindow : 0 < budget.windowMs) (hclock : times.Pairwise (· ≤ ·)) :
    let inMemory := Service.transcript (throttle (healthy InMemoryRateLimitStore.serve) budget) .start times
    let redis := Service.transcript (throttle (healthy RedisRateLimitStore.serve) budget) .empty times
    (∀ opened record, (opened, .ok record) ∈ inMemory → record.totalHits = 1 →
        inMemory.countP (passed opened budget.windowMs) ≤ budget.limit) ∧
      (∀ opened record, (opened, .ok record) ∈ redis → record.totalHits = 1 →
        redis.countP (passed opened budget.windowMs) ≤ budget.limit) ∧
      ∀ from_, inMemory.countP (passed from_ budget.windowMs) ≤ 2 * budget.limit - 1 ∧
        redis.countP (passed from_ budget.windowMs) ≤ 2 * budget.limit - 1 := by
  have hmemory := InMemoryRateLimitStore.isWindowCounter
  have hredis := RedisRateLimitStore.isWindowCounter
  have hempty := RedisRateLimitStore.expiring_empty
  exact ⟨fun _ _ hmem => passed_window budget hmemory trivial rfl hclock hwindow hlimit hmem,
    fun _ _ hmem => passed_window budget hredis hempty rfl hclock hwindow hlimit hmem,
    fun from_ => ⟨passed_interval budget hmemory trivial rfl hclock hwindow from_,
      passed_interval budget hredis hempty rfl hclock hwindow from_⟩⟩

/-- Two requests a second. -/
def twoASecond : Budget :=
  { key := "client", throttlerName := "default", windowMs := 1000, limit := 2, blockDuration := 1000 }

theorem budget_per_window_twoASecond :
    (Service.transcript (throttle (healthy RedisRateLimitStore.serve) twoASecond) .empty
      [0, 999, 1000, 1000]).countP (passed 999 1000) ≤ 3 :=
  ((budget_per_window twoASecond (by decide) (by decide) (by decide)).2.2 999).2

/-- A budget is not a rolling one: three requests go through in the second from 999 on, of which two
open the window that begins there. -/
theorem budget_not_rolling :
    ¬ (Service.transcript (throttle (healthy InMemoryRateLimitStore.serve) twoASecond) .start
        [0, 999, 1000, 1000]).countP (passed 999 twoASecond.windowMs) ≤ twoASecond.limit ∧
      ¬ (Service.transcript (throttle (healthy RedisRateLimitStore.serve) twoASecond) .empty
        [0, 999, 1000, 1000]).countP (passed 999 twoASecond.windowMs) ≤ twoASecond.limit := by
  decide

end AdvancedSearch
