import Mathlib.Data.List.AList
import AdvancedSearch.Lib.FixedWindow

/-!
# The rate-limit stores

`InMemoryRateLimitStore` with its lazy sweep and `RedisRateLimitStore` with the script it runs. Both
are fixed-window counters. A call reads the clock once; times and windows are integer milliseconds.
-/

namespace AdvancedSearch

open FixedWindow

structure RateLimitHit where
  totalHits : ℕ
  timeToExpireMs : ℤ
  deriving DecidableEq

def RateLimitHit.ofReading (r : Reading) : RateLimitHit := ⟨r.count, r.remaining⟩

/-- The counter that both stores are. -/
def windowCounter (s : Counters String) (h : Hit String) : RateLimitHit × Counters String :=
  let (reading, s) := FixedWindow.hit s h
  (.ofReading reading, s)

/-- A service that counts in windows: it holds counters, of which a hit reads and moves its key's. -/
structure IsWindowCounter {σ : Type} (serve : σ → Hit String → RateLimitHit × σ)
    (counters : σ → Counters String) (Valid : σ → Prop) : Prop where
  keeps : ∀ s h, Valid s → Valid (serve s h).2
  answer : ∀ s h, Valid s → (serve s h).1 = .ofReading (tick (counters s h.key) h.now h.length).1
  self : ∀ s h, Valid s →
    counters (serve s h).2 h.key = (tick (counters s h.key) h.now h.length).2
  other : ∀ s h key, Valid s → key ≠ h.key →
    openAt (counters (serve s h).2 key) h.now = openAt (counters s key) h.now

/-- It answers what the counter answers, as long as the clock does not run backwards. -/
theorem IsWindowCounter.transcript_eq {σ : Type} {serve : σ → Hit String → RateLimitHit × σ}
    {counters : σ → Counters String} {Valid : σ → Prop} (hs : IsWindowCounter serve counters Valid)
    {s : σ} (hvalid : Valid s) {hits : List (Hit String)}
    (hclock : hits.Pairwise fun a b => a.now ≤ b.now) :
    Service.transcript serve s hits = Service.transcript windowCounter (counters s) hits := by
  refine Service.transcript_eq Hit.now
    (fun now s t => Valid s ∧ ∀ key, openAt (counters s key) now = openAt (t key) now)
    ?_ ?_ hclock fun _ _ => ⟨hvalid, fun _ => rfl⟩
  · rintro s t now later hle ⟨hv, hsame⟩
    exact ⟨hv, fun key => openAt_eq_of_le hle (hsame key)⟩
  · rintro s t h ⟨hv, hsame⟩
    have htick : tick (counters s h.key) h.now h.length = tick (t h.key) h.now h.length := by
      rw [← tick_openAt, hsame, tick_openAt]
    refine ⟨?_, hs.keeps s h hv, fun key => ?_⟩
    · rw [hs.answer s h hv, htick]
      rfl
    · show _ = openAt ((FixedWindow.hit t h).2 key) h.now
      by_cases hkey : key = h.key
      · subst hkey
        rw [hs.self s h hv, hit_self, htick]
      · rw [hs.other s h key hv hkey, hit_of_ne hkey, hsame]

/-- A reading and a rate-limit hit say the same. -/
theorem transcript_windowCounter (s : Counters String) (hits : List (Hit String)) :
    Service.transcript windowCounter s hits =
      (Service.transcript FixedWindow.hit s hits).map fun p => (p.1, .ofReading p.2) := by
  have h := Service.transcript_map windowCounter FixedWindow.hit id id RateLimitHit.ofReading
    (fun _ => rfl) (fun _ _ => rfl) s hits
  rw [List.map_id] at h
  exact h

/-- Hits on other keys do not change a key's answers. -/
theorem windowCounter_filter_key (s : Counters String) (hits : List (Hit String)) (key : String) :
    (Service.transcript windowCounter s hits).filter (fun p => p.1.key = key) =
      Service.transcript windowCounter s (hits.filter fun h => h.key = key) := by
  rw [transcript_windowCounter, transcript_windowCounter, List.filter_map, ← transcript_filter_key]
  rfl

/-- What a fresh one answers a hit is read from the earlier hits on the key. -/
theorem IsWindowCounter.answer_after {σ : Type} {serve : σ → Hit String → RateLimitHit × σ}
    {counters : σ → Counters String} {Valid : σ → Prop} (hs : IsWindowCounter serve counters Valid)
    {s : σ} (hvalid : Valid s) (hstart : counters s = start) {hits : List (Hit String)} {h : Hit String}
    (hclock : (hits ++ [h]).Pairwise fun a b => a.now ≤ b.now) :
    (serve (Service.after serve s hits) h).1 = .ofReading
      (tick (Service.after tickHit none (hits.filter fun g => g.key = h.key)) h.now h.length).1 := by
  have heq := hs.transcript_eq hvalid hclock
  rw [hstart, transcript_windowCounter, Service.transcript_append, Service.transcript_append,
    List.map_append] at heq
  have hlast := List.append_inj_right' heq rfl
  simp only [Service.transcript_cons, Service.transcript_nil, List.map_cons, List.map_nil, List.cons.injEq,
    Prod.mk.injEq, true_and, and_true] at hlast
  rw [hlast, show (none : Option Window) = (start : Counters String) h.key from rfl, ← after_key]
  rfl

/-! ## In memory -/

/-- How often the map is swept, at most. -/
def SWEEP_INTERVAL_MS : ℤ := 30000

/-- A sweep is forced from this many entries on. -/
def SWEEP_SIZE_THRESHOLD : ℕ := 10000

namespace InMemoryRateLimitStore

structure Window where
  count : ℕ
  expiresAt : ℤ
  deriving DecidableEq

end InMemoryRateLimitStore

structure InMemoryRateLimitStore where
  windows : AList fun _ : String => InMemoryRateLimitStore.Window
  lastSweepAt : ℤ

namespace InMemoryRateLimitStore

def start : InMemoryRateLimitStore := { windows := ∅, lastSweepAt := 0 }

/-- Deletes the expired windows, when it is time to. -/
def maybeEvictExpired (s : InMemoryRateLimitStore) (now : ℤ) : InMemoryRateLimitStore :=
  let due := SWEEP_INTERVAL_MS ≤ now - s.lastSweepAt
  if ¬ due ∧ s.windows.entries.length < SWEEP_SIZE_THRESHOLD then s
  else
    { windows := s.windows.entries.foldl
        (fun windows e => if e.2.expiresAt ≤ now then windows.erase e.1 else windows) s.windows
      lastSweepAt := now }

def hit (s : InMemoryRateLimitStore) (now : ℤ) (key : String) (windowMs : ℤ) :
    RateLimitHit × InMemoryRateLimitStore :=
  let s := s.maybeEvictExpired now
  let fresh : RateLimitHit × InMemoryRateLimitStore :=
    (⟨1, windowMs⟩, { s with windows := s.windows.insert key ⟨1, now + windowMs⟩ })
  match s.windows.lookup key with
  | none => fresh
  | some current =>
    if current.expiresAt ≤ now then fresh
    else
      (⟨current.count + 1, current.expiresAt - now⟩,
        { s with windows := s.windows.insert key ⟨current.count + 1, current.expiresAt⟩ })

/-- The store as a service. -/
def serve (s : InMemoryRateLimitStore) (h : Hit String) : RateLimitHit × InMemoryRateLimitStore :=
  s.hit h.now h.key h.length

/-- The counters that the map holds. -/
def counters (s : InMemoryRateLimitStore) : Counters String := fun key =>
  (s.windows.lookup key).map fun w => ⟨w.count, w.expiresAt⟩

variable {s : InMemoryRateLimitStore} {now windowMs : ℤ} {key : String}

/-- Deleting leaves the entries of other keys. -/
theorem lookup_sweep (entries : List (Sigma fun _ : String => Window))
    (windows : AList fun _ : String => Window) :
    (entries.foldl (fun windows e => if e.2.expiresAt ≤ now then windows.erase e.1 else windows)
        windows).lookup key =
      if ∃ e ∈ entries, e.1 = key ∧ e.2.expiresAt ≤ now then none else windows.lookup key := by
  induction entries generalizing windows with
  | nil => simp
  | cons e entries ih =>
    rw [List.foldl_cons, ih]
    by_cases hexp : e.2.expiresAt ≤ now
    · rw [if_pos hexp]
      by_cases hkey : e.1 = key
      · rw [hkey, AList.lookup_erase, ite_self, if_pos ⟨e, List.mem_cons_self, hkey, hexp⟩]
      · rw [AList.lookup_erase_ne (Ne.symm hkey)]
        simp only [List.exists_mem_cons_iff, hkey, false_and, false_or]
    · rw [if_neg hexp]
      simp only [List.exists_mem_cons_iff, hexp, and_false, false_or]

/-- The sweep takes away only what no hit can see. -/
theorem openAt_maybeEvictExpired :
    openAt ((s.maybeEvictExpired now).counters key) now = openAt (s.counters key) now := by
  unfold maybeEvictExpired
  dsimp only
  split_ifs with hidle
  · rfl
  · unfold counters
    rw [lookup_sweep]
    split_ifs with hdeleted
    · obtain ⟨⟨k, w⟩, hmem, rfl, hexp⟩ := hdeleted
      rw [AList.mem_lookup_iff.mpr hmem]
      exact (openAt_of_le hexp).symm
    · rfl

/-- A hit reads and moves the counter of its key, and no other. -/
theorem hit_spec (s : InMemoryRateLimitStore) (now : ℤ) (key : String) (windowMs : ℤ) :
    (s.hit now key windowMs).1 = .ofReading (tick (s.counters key) now windowMs).1 ∧
      (s.hit now key windowMs).2.counters key = (tick (s.counters key) now windowMs).2 ∧
      ∀ k, k ≠ key → openAt ((s.hit now key windowMs).2.counters k) now = openAt (s.counters k) now := by
  have hseen : tick ((s.maybeEvictExpired now).counters key) now windowMs =
      tick (s.counters key) now windowMs := by
    rw [← tick_openAt, openAt_maybeEvictExpired, tick_openAt]
  rw [← hseen]
  have hothers (w : Window) (k : String) (hk : k ≠ key) :
      openAt (counters { s.maybeEvictExpired now with
        windows := (s.maybeEvictExpired now).windows.insert key w } k) now = openAt (s.counters k) now := by
    rw [show openAt (s.counters k) now = _ from openAt_maybeEvictExpired.symm]
    unfold counters
    rw [AList.lookup_insert_ne hk]
  unfold hit
  dsimp only
  cases hcurrent : (s.maybeEvictExpired now).windows.lookup key with
  | none =>
    have hnone : (s.maybeEvictExpired now).counters key = none := by
      unfold counters
      rw [hcurrent]
      rfl
    rw [hnone, tick_none]
    refine ⟨rfl, ?_, hothers _⟩
    unfold counters
    rw [AList.lookup_insert]
    rfl
  | some current =>
    have hsome : (s.maybeEvictExpired now).counters key = some ⟨current.count, current.expiresAt⟩ := by
      unfold counters
      rw [hcurrent]
      rfl
    rw [hsome]
    dsimp only
    by_cases hexp : current.expiresAt ≤ now
    · rw [if_pos hexp, tick_closed hexp, tick_none]
      refine ⟨rfl, ?_, hothers _⟩
      unfold counters
      rw [AList.lookup_insert]
      rfl
    · rw [if_neg hexp, tick_open (not_le.mp hexp)]
      refine ⟨rfl, ?_, hothers _⟩
      unfold counters
      rw [AList.lookup_insert]
      rfl

theorem isWindowCounter : IsWindowCounter serve counters fun _ => True where
  keeps _ _ _ := trivial
  answer _ _ _ := (hit_spec _ _ _ _).1
  self _ _ _ := (hit_spec _ _ _ _).2.1
  other _ _ key _ hkey := (hit_spec _ _ _ _).2.2 key hkey

end InMemoryRateLimitStore

/-! ## In Redis -/

/-- A string that holds a number, and when it expires if it does. -/
structure RedisEntry where
  value : ℕ
  expiresAt : Option ℤ
  deriving DecidableEq

/-- What Redis holds under each key; an entry is gone from its expiry on. -/
structure Redis where
  entries : String → Option RedisEntry

namespace Redis

def empty : Redis := { entries := fun _ => none }

/-- The entry that a command finds. -/
def live (redis : Redis) (now : ℤ) (key : String) : Option RedisEntry :=
  (redis.entries key).filter fun e => e.expiresAt.all (now < ·)

def set (redis : Redis) (key : String) (e : RedisEntry) : Redis :=
  { entries := Function.update redis.entries key (some e) }

@[simp] theorem set_self {redis : Redis} {key : String} {e : RedisEntry} :
    (redis.set key e).entries key = some e :=
  Function.update_self _ _ _

theorem set_of_ne {redis : Redis} {key other : String} {e : RedisEntry} (h : other ≠ key) :
    (redis.set key e).entries other = redis.entries other :=
  Function.update_of_ne h _ _

theorem set_set {redis : Redis} {key : String} {e later : RedisEntry} :
    (redis.set key e).set key later = redis.set key later := by
  unfold set
  dsimp only
  rw [Function.update_idem]

/-- `INCR` creates a missing key at 1, without an expiry, and keeps the expiry of one that is there. -/
def incr (redis : Redis) (now : ℤ) (key : String) : ℕ × Redis :=
  match redis.live now key with
  | none => (1, redis.set key ⟨1, none⟩)
  | some e => (e.value + 1, redis.set key ⟨e.value + 1, e.expiresAt⟩)

def pexpire (redis : Redis) (now : ℤ) (key : String) (ms : ℤ) : Redis :=
  match redis.live now key with
  | none => redis
  | some e => redis.set key { e with expiresAt := some (now + ms) }

/-- `PTTL` answers -2 for a missing key and -1 for one without an expiry. -/
def pttl (redis : Redis) (now : ℤ) (key : String) : ℤ :=
  match redis.live now key with
  | none => -2
  | some e => e.expiresAt.elim (-1) (· - now)

end Redis

/-- Namespaced and versioned like the cache keys. -/
def KEY_NAMESPACE : String := "ratelimit:v1"

/-- Counts a hit and sets the expiry of a new key, in one step. -/
def HIT_SCRIPT (redis : Redis) (now : ℤ) (key : String) (windowMs : ℤ) : (ℕ × ℤ) × Redis :=
  let (hits, redis) := redis.incr now key
  if hits = 1 then ((hits, windowMs), redis.pexpire now key windowMs)
  else ((hits, redis.pttl now key), redis)

namespace RedisRateLimitStore

def namespaced (key : String) : String := KEY_NAMESPACE ++ ":" ++ key

def hit (redis : Redis) (now : ℤ) (key : String) (windowMs : ℤ) : RateLimitHit × Redis :=
  let ((totalHits, timeToExpireMs), redis) := HIT_SCRIPT redis now (namespaced key) windowMs
  (⟨totalHits, timeToExpireMs⟩, redis)

/-- The store as a service. -/
def serve (redis : Redis) (h : Hit String) : RateLimitHit × Redis := hit redis h.now h.key h.length

/-- Every entry carries an expiry and has been counted in. -/
def Expiring (redis : Redis) : Prop :=
  ∀ key e, redis.entries key = some e → 0 < e.value ∧ e.expiresAt.isSome

/-- The counters under the store's keys. -/
def counters (redis : Redis) : Counters String := fun key =>
  (redis.entries (namespaced key)).bind fun e => e.expiresAt.map fun t => ⟨e.value, t⟩

theorem namespaced_inj {key key' : String} (h : namespaced key = namespaced key') : key = key' := by
  have hlist := congrArg String.toList h
  unfold namespaced at hlist
  simp only [String.toList_append] at hlist
  exact String.toList_injective (List.append_cancel_left hlist)

variable {redis : Redis} {now windowMs : ℤ} {key : String}

theorem counters_set_self {v : ℕ} {t : ℤ} :
    counters (redis.set (namespaced key) ⟨v, some t⟩) key = some ⟨v, t⟩ := by
  unfold counters
  rw [Redis.set_self]
  rfl

theorem counters_set_of_ne {k : String} {e : RedisEntry} (hk : k ≠ key) :
    counters (redis.set (namespaced key) e) k = counters redis k := by
  unfold counters
  rw [Redis.set_of_ne fun h => hk (namespaced_inj h)]

theorem Expiring.set (h : Expiring redis) {k : String} {v : ℕ} (t : ℤ) :
    Expiring (redis.set k ⟨v + 1, some t⟩) := by
  intro k' e he
  by_cases hk : k' = k
  · rw [hk, Redis.set_self, Option.some.injEq] at he
    subst he
    exact ⟨Nat.succ_pos v, rfl⟩
  · rw [Redis.set_of_ne hk] at he
    exact h k' e he

theorem live_set_self {k : String} {v : ℕ} : (redis.set k ⟨v, none⟩).live now k = some ⟨v, none⟩ := by
  unfold Redis.live
  rw [Redis.set_self]
  rfl

/-- Without an entry the script creates one and gives it its expiry. -/
theorem hit_of_missing (h : redis.live now (namespaced key) = none) :
    hit redis now key windowMs =
      (⟨1, windowMs⟩, redis.set (namespaced key) ⟨1, some (now + windowMs)⟩) := by
  unfold hit HIT_SCRIPT Redis.incr
  rw [h]
  dsimp only
  rw [if_pos rfl]
  unfold Redis.pexpire
  rw [live_set_self]
  dsimp only
  rw [Redis.set_set]

/-- With an entry it counts in it and reads what remains. -/
theorem hit_of_live {v : ℕ} {t : ℤ} (hv : 0 < v)
    (h : redis.live now (namespaced key) = some ⟨v, some t⟩) (ht : now < t) :
    hit redis now key windowMs = (⟨v + 1, t - now⟩, redis.set (namespaced key) ⟨v + 1, some t⟩) := by
  have hlive : (redis.set (namespaced key) ⟨v + 1, some t⟩).live now (namespaced key) =
      some ⟨v + 1, some t⟩ := by
    unfold Redis.live
    rw [Redis.set_self]
    simp [Option.filter, ht]
  unfold hit HIT_SCRIPT Redis.incr
  rw [h]
  dsimp only
  rw [if_neg (by omega)]
  unfold Redis.pttl
  rw [hlive]
  rfl

/-- The script opens a window where it finds no entry and else counts in the entry it finds. -/
theorem hit_eq (h : Expiring redis) (now : ℤ) (key : String) (windowMs : ℤ) :
    (counters redis key = none ∨ ∃ w : Window, counters redis key = some w ∧ w.ends ≤ now) ∧
        hit redis now key windowMs = (⟨1, windowMs⟩, redis.set (namespaced key) ⟨1, some (now + windowMs)⟩) ∨
      ∃ w : Window, counters redis key = some w ∧ now < w.ends ∧
        hit redis now key windowMs =
          (⟨w.count + 1, w.ends - now⟩, redis.set (namespaced key) ⟨w.count + 1, some w.ends⟩) := by
  cases he : redis.entries (namespaced key) with
  | none =>
    have hnone : redis.live now (namespaced key) = none := by
      unfold Redis.live
      rw [he]
      rfl
    refine Or.inl ⟨Or.inl ?_, hit_of_missing hnone⟩
    unfold counters
    rw [he]
    rfl
  | some e =>
    obtain ⟨hv, hexp⟩ := h _ e he
    obtain ⟨v, expiresAt⟩ := e
    obtain ⟨t, rfl⟩ := Option.isSome_iff_exists.mp hexp
    have hcounter : counters redis key = some ⟨v, t⟩ := by
      unfold counters
      rw [he]
      rfl
    by_cases ht : now < t
    · refine Or.inr ⟨⟨v, t⟩, hcounter, ht, hit_of_live hv ?_ ht⟩
      unfold Redis.live
      rw [he]
      simp [Option.filter, ht]
    · refine Or.inl ⟨Or.inr ⟨⟨v, t⟩, hcounter, not_lt.mp ht⟩, hit_of_missing ?_⟩
      unfold Redis.live
      rw [he]
      simp [Option.filter, ht]

/-- The script leaves no key without an expiry. -/
theorem Expiring.serve (hv : Expiring redis) (h : Hit String) : Expiring (serve redis h).2 := by
  unfold RedisRateLimitStore.serve
  rcases hit_eq hv h.now h.key h.length with ⟨_, heq⟩ | ⟨w, _, _, heq⟩
  · rw [heq]
    exact hv.set _
  · rw [heq]
    exact hv.set _

theorem isWindowCounter : IsWindowCounter serve counters Expiring where
  keeps s h hv := hv.serve h
  answer s h hv := by
    unfold serve
    rcases hit_eq hv h.now h.key h.length with ⟨hw, heq⟩ | ⟨w, hw, ht, heq⟩
    · rw [heq, tick_fresh hw]
      rfl
    · rw [heq, hw, tick_open ht]
      rfl
  self s h hv := by
    unfold serve
    rcases hit_eq hv h.now h.key h.length with ⟨hw, heq⟩ | ⟨w, hw, ht, heq⟩
    · rw [heq, counters_set_self, tick_fresh hw]
    · rw [heq, counters_set_self, hw, tick_open ht]
  other s h key hv hkey := by
    unfold serve
    rcases hit_eq hv h.now h.key h.length with ⟨_, heq⟩ | ⟨w, _, _, heq⟩
    · rw [heq, counters_set_of_ne hkey]
    · rw [heq, counters_set_of_ne hkey]

theorem expiring_empty : Expiring Redis.empty := by
  intro key e h
  cases h

end RedisRateLimitStore

/-! ## One counter -/

variable {hits : List (Hit String)}

theorem inMemory_transcript (hclock : hits.Pairwise fun a b => a.now ≤ b.now) :
    Service.transcript InMemoryRateLimitStore.serve .start hits =
      Service.transcript windowCounter start hits :=
  InMemoryRateLimitStore.isWindowCounter.transcript_eq trivial hclock

theorem redis_transcript (hclock : hits.Pairwise fun a b => a.now ≤ b.now) :
    Service.transcript RedisRateLimitStore.serve .empty hits =
      Service.transcript windowCounter start hits :=
  RedisRateLimitStore.isWindowCounter.transcript_eq RedisRateLimitStore.expiring_empty hclock

/-- Both stores answer every hit as the counter does, so no sweep is ever seen; a key's answers depend
on its own hits only, and no key of Redis is left without an expiry. -/
theorem stores_count_alike (hclock : hits.Pairwise fun a b => a.now ≤ b.now) :
    Service.transcript InMemoryRateLimitStore.serve .start hits =
        Service.transcript windowCounter start hits ∧
      Service.transcript RedisRateLimitStore.serve .empty hits =
        Service.transcript windowCounter start hits ∧
      (∀ key,
        (Service.transcript InMemoryRateLimitStore.serve .start hits).filter (fun p => p.1.key = key) =
            Service.transcript InMemoryRateLimitStore.serve .start (hits.filter fun h => h.key = key) ∧
          (Service.transcript RedisRateLimitStore.serve .empty hits).filter (fun p => p.1.key = key) =
            Service.transcript RedisRateLimitStore.serve .empty (hits.filter fun h => h.key = key)) ∧
      ∀ key e, (Service.after RedisRateLimitStore.serve .empty hits).entries key = some e →
        e.expiresAt.isSome := by
  refine ⟨inMemory_transcript hclock, redis_transcript hclock, fun key => ?_, fun key e he => ?_⟩
  · have hclock' : (hits.filter fun h => h.key = key).Pairwise fun a b => a.now ≤ b.now :=
      hclock.sublist List.filter_sublist
    rw [inMemory_transcript hclock, redis_transcript hclock, inMemory_transcript hclock',
      redis_transcript hclock', windowCounter_filter_key]
    exact ⟨rfl, rfl⟩
  · have hexpiring : RedisRateLimitStore.Expiring (Service.after RedisRateLimitStore.serve .empty hits) :=
      Service.after_keeps (fun s h hs => hs.serve h) RedisRateLimitStore.expiring_empty
    exact (hexpiring key e he).2

/-- The second window of a key opens the instant the first one ends. -/
theorem stores_count_alike_boundary :
    Service.transcript RedisRateLimitStore.serve .empty
        [⟨0, "a", 1000⟩, ⟨999, "a", 1000⟩, ⟨1000, "b", 500⟩, ⟨1000, "a", 1000⟩] =
      [(⟨0, "a", 1000⟩, ⟨1, 1000⟩), (⟨999, "a", 1000⟩, ⟨2, 1⟩), (⟨1000, "b", 500⟩, ⟨1, 500⟩),
        (⟨1000, "a", 1000⟩, ⟨1, 1000⟩)] := by
  rw [(stores_count_alike (by decide)).2.1]
  decide

end AdvancedSearch
