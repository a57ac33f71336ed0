import AdvancedSearch.Cache.FailOpen
import AdvancedSearch.Cache.SearchProducts

/-!
# How old a cached result can be

The calls of `cacheAside` over a Redis that lets entries expire, under a clock. An index may change
between two loads, so what they answer is free. What a call serves from the cache was SET by an earlier
load, with a TTL that the jitter may have made longer than the configured one (`cached_fresh`).
-/

namespace AdvancedSearch

open Js

/-! ## The longest TTL -/

/-- `Math.max(1, Math.round(ttlSeconds * 1.1))`. -/
def longestTtl (ttlSeconds : Number) : Number := ((ttlSeconds.mul (nearestDouble (11 / 10))).round).max 1

theorem spread_le {random : ℚ} (h : random < 1) : spread random ≤ nearestDouble (11 / 10) := by
  have htwice : nearestDouble (random * 2) ≤ 2 := by
    have hle := nearestDouble_mono (show random * 2 ≤ 2 by linarith)
    rwa [show nearestDouble 2 = 2 by decide +kernel] at hle
  have hcentred : nearestDouble (nearestDouble (random * 2) - 1) ≤ 1 := by
    have hle := nearestDouble_mono (show nearestDouble (random * 2) - 1 ≤ 1 by linarith)
    rwa [show nearestDouble 1 = 1 from Number.one.exact] at hle
  have hoffset : nearestDouble (nearestDouble (nearestDouble (random * 2) - 1) * JITTER) ≤ JITTER := by
    have hle := nearestDouble_mono (mul_le_of_le_one_left JITTER_bounds.1 hcentred)
    rwa [show nearestDouble JITTER = JITTER from nearestDouble_idem _] at hle
  calc spread random ≤ nearestDouble (1 + JITTER) := nearestDouble_mono (add_le_add_right hoffset 1)
    _ = nearestDouble (11 / 10) := by decide +kernel

/-- The jitter stretches a TTL to `longestTtl` at most. -/
theorem withJitter_le_longestTtl {ttl : Double} (hpos : 0 < ttl.value) {random : ℚ} (h : random < 1) :
    (withJitter (.finite ttl) random).le (longestTtl (.finite ttl)) := by
  have hproduct : ((Number.finite ttl).mul (spread random)).le
      ((Number.finite ttl).mul (nearestDouble (11 / 10))) :=
    Number.ofRat_le (mul_le_mul_of_nonneg_left (spread_le h) hpos.le)
  rw [withJitter_of_pos hpos]
  exact Number.max_le (Number.round_le hproduct) Number.one

/-! ## Redis under a clock -/

/-- `SET key raw EX ex`. -/
structure SetCommand where
  key : String
  raw : String
  ex : Number
  deriving DecidableEq

/-- `RedisCacheAdapter.set`. -/
def RedisCacheAdapter.set (key : String) (value : Json) (ttlSeconds : Number) : SetCommand :=
  { key := key, raw := value.stringify, ex := ttlSeconds }

/-- The seconds a command asks for; Redis rejects what is not a positive integer. -/
def SetCommand.seconds? (command : SetCommand) : Option ℚ :=
  match command.ex with
  | .finite x => if x.value.den = 1 ∧ 0 < x.value then some x.value else none
  | _ => none

/-- A text in Redis, gone at a time in seconds. -/
structure CacheEntry where
  raw : String
  expires : ℚ
  deriving DecidableEq

/-- A process, the commands it has issued, its Redis and the time. -/
structure ClockedState (ι V E : Type) where
  flights : Flights ι String V E
  issued : ι → Option SetCommand
  redis : String → List CacheEntry
  now : ℚ

/-- What can happen next. -/
inductive ClockedEvent (ι V E : Type) where
  /-- Redis answers the read of a call, which may see the answer later. -/
  | get (c : ι) (answer : Except String (Option String))
  /-- Redis carries out the SET of a load, late perhaps, and whatever its promise settles with. -/
  | store (l : ι)
  /-- A call, a microtask, a load or a write that settles. -/
  | flight (e : CacheEvent ι Json V E)

namespace ClockedState

variable {ι V E : Type}

/-- Nothing called and nothing stored yet. -/
def start (now : ℚ) : ClockedState ι V E :=
  { flights := Flights.start, issued := fun _ => none, redis := fun _ => [], now := now }

/-- Redis carries out a command. -/
def store (s : ClockedState ι V E) (command : SetCommand) (seconds : ℚ) : ClockedState ι V E :=
  let entry := { raw := command.raw, expires := s.now + seconds }
  { s with redis := Function.update s.redis command.key (entry :: s.redis command.key) }

theorem mem_store {s : ClockedState ι V E} {command : SetCommand} {seconds : ℚ} {key : String}
    {entry : CacheEntry} (h : entry ∈ (s.store command seconds).redis key) :
    key = command.key ∧ entry = ⟨command.raw, s.now + seconds⟩ ∨ entry ∈ s.redis key := by
  rw [show (s.store command seconds).redis = Function.update s.redis command.key
    (⟨command.raw, s.now + seconds⟩ :: s.redis command.key) from rfl] at h
  by_cases hk : key = command.key
  · subst hk
    rw [Function.update_self] at h
    exact (List.mem_cons.mp h).imp_left fun hentry => ⟨rfl, hentry⟩
  · rw [Function.update_of_ne hk] at h
    exact Or.inr h

end ClockedState

namespace Callers

/-! ## What a step can do -/

variable {ι K R V E : Type} [DecidableEq ι] [DecidableEq K] {C : Callers ι K R V}
  {s t : Flights ι K V E} {e : CacheEvent ι R V E}

/-- How a load moves on. -/
inductive LoadMoves (C : Callers ι K R V) (s : Flights ι K V E) (e : CacheEvent ι R V E) (l : ι) :
    LoadPhase V E → Prop
  | starts : LoadMoves C s e l .loading
  | resolves {result : Except E V} (he : e = .load l result) : LoadMoves C s e l (.loaded result)
  | bypasses {result : Except E V} (he : e = .load l result) : LoadMoves C s e l (.completed result)
  | writes {value : V} {random : ℚ} (hl : s.load l = .loaded (.ok value))
    (he : e = .afterLoad l random) :
    LoadMoves C s e l (.writing value (withJitter (C.request l).ttlSeconds random))
  | rejects {error : E} (hl : s.load l = .loaded (.error error)) :
    LoadMoves C s e l (.completed (.error error))
  | written {value : V} {seconds : Number} (hl : s.load l = .writing value seconds) :
    LoadMoves C s e l (.written value)
  | completes {value : V} (hl : s.load l = .written value) : LoadMoves C s e l (.completed (.ok value))
  | clears {result : Except E V} (hl : s.load l = .completed result) :
    LoadMoves C s e l (.settled result)

omit [DecidableEq K] in
/-- What is updated at one load changes there only. -/
theorem loadMoves_update {l : ι} {phase : LoadPhase V E} (hmoves : LoadMoves C s e l phase)
    (ht : t.load = Function.update s.load l phase) (l' : ι) :
    t.load l' = s.load l' ∨ LoadMoves C s e l' (t.load l') := by
  rw [ht]
  by_cases hl : l' = l
  · subst hl
    rw [Function.update_self]
    exact Or.inr hmoves
  · exact Or.inl (Function.update_of_ne hl _ _)

theorem singleFlight_load (c l : ι) :
    (C.singleFlight c s.recordCacheMiss).load l = s.load l ∨
      LoadMoves C s e l ((C.singleFlight c s.recordCacheMiss).load l) := by
  rcases singleFlight_cases C c s.recordCacheMiss with ⟨_, -, -, hload, -⟩ | ⟨-, -, hload, -⟩
  · rw [hload]
    exact Or.inl rfl
  · exact loadMoves_update (s := s) .starts hload l

theorem step_load (h : C.step s e = some t) (l : ι) :
    t.load l = s.load l ∨ LoadMoves C s e l (t.load l) := by
  cases e with
  | call c =>
    simp only [step] at h
    split at h <;> try cases h
    split at h <;> cases h
    · exact singleFlight_load c l
    · exact Or.inl rfl
  | get c answer =>
    simp only [step] at h
    split at h <;> cases h
    exact Or.inl rfl
  | afterRead c =>
    simp only [step] at h
    split at h <;> cases h
    · exact Or.inl rfl
    · exact singleFlight_load c l
  | load l' result =>
    simp only [step] at h
    split at h <;> cases h
    split
    · exact loadMoves_update (.bypasses rfl) rfl l
    · exact loadMoves_update (.resolves rfl) rfl l
  | afterLoad l' random =>
    simp only [step] at h
    split at h <;> rename_i hl <;> cases h
    · exact loadMoves_update (.writes hl rfl) rfl l
    · exact loadMoves_update (.rejects hl) rfl l
  | set l' answer =>
    simp only [step] at h
    split at h <;> rename_i hl <;> cases h
    exact loadMoves_update (.written hl) rfl l
  | afterWrite l' =>
    simp only [step] at h
    split at h <;> rename_i hl <;> cases h
    exact loadMoves_update (.completes hl) rfl l
  | clear l' =>
    simp only [step] at h
    split at h <;> rename_i hl <;> cases h
    exact loadMoves_update (.clears hl) rfl l
  | settle c =>
    simp only [step] at h
    split at h <;> try cases h
    split at h <;> cases h
    exact Or.inl rfl

/-- A load that has resolved had, or resolves now. -/
theorem step_loaded (h : C.step s e = some t) {l : ι} {result : Except E V}
    (hl : t.load l = .loaded result) : s.load l = .loaded result ∨ e = .load l result := by
  rcases step_load h l with hsame | hmoves
  · exact Or.inl (hsame ▸ hl)
  · rw [hl] at hmoves
    cases hmoves with
    | resolves he => exact Or.inr he

/-- A load that writes did so before, or has drawn how long for. -/
theorem step_writing (h : C.step s e = some t) {l : ι} {value : V} {seconds : Number}
    (hl : t.load l = .writing value seconds) :
    s.load l = .writing value seconds ∨ ∃ random, s.load l = .loaded (.ok value) ∧
      e = .afterLoad l random ∧ seconds = withJitter (C.request l).ttlSeconds random := by
  rcases step_load h l with hsame | hmoves
  · exact Or.inl (hsame ▸ hl)
  · rw [hl] at hmoves
    cases hmoves with
    | @writes _ random hloaded he => exact Or.inr ⟨random, hloaded, he, rfl⟩

/-- A call that has read a value had, or reads it now. -/
theorem step_read (h : C.step s e = some t) {c : ι} {value : V} (hc : t.call c = .read (some value)) :
    s.call c = .read (some value) ∨
      ∃ answer, e = .get c answer ∧ C.readThrough answer = some value := by
  have hupdate : ∀ {c' : ι} {phase : CallPhase ι V E}, t.call = Function.update s.call c' phase →
      s.call c = .read (some value) ∨ c = c' ∧ phase = .read (some value) := by
    intro c' phase ht
    rw [ht] at hc
    by_cases hcc : c = c'
    · subst hcc
      rw [Function.update_self] at hc
      exact Or.inr ⟨rfl, hc⟩
    · rw [Function.update_of_ne hcc] at hc
      exact Or.inl hc
  cases step_moves h with
  | advances c' phase hadvances _ hcall _ _ =>
    refine (hupdate hcall).imp_right ?_
    rintro ⟨rfl, hphase⟩
    cases hadvances with
    | get _ he => exact ⟨_, he, CallPhase.read.inj hphase⟩
    | call => cases hphase
    | hit => cases hphase
    | settle => cases hphase
  | misses c' _ ht =>
    subst ht
    rcases singleFlight_cases C c' s.recordCacheMiss with ⟨_, -, hcall, -, -⟩ | ⟨-, hcall, -, -⟩ <;>
      exact (hupdate hcall).imp_right fun ⟨_, hphase⟩ => by cases hphase
  | flies _ _ _ _ _ _ hcall _ _ => exact Or.inl (hcall ▸ hc)
  | clears _ _ _ _ hcall _ _ => exact Or.inl (hcall ▸ hc)

/-- What settles a call right after its read is what was read. -/
theorem afterRead_settled {c : ι} (h : C.step s (.afterRead c) = some t) {result : Except E V}
    (hc : t.call c = .settled result) :
    ∃ value, result = .ok value ∧ s.call c = .read (some value) := by
  simp only [step] at h
  split at h <;> rename_i hread <;> cases h
  · rw [Flights.setCall_self] at hc
    cases hc
    exact ⟨_, rfl, hread⟩
  · rcases singleFlight_cases C c s.recordCacheMiss with ⟨_, -, hcall, -, -⟩ | ⟨-, hcall, -, -⟩ <;>
      rw [hcall, Function.update_self] at hc <;> cases hc

end Callers

namespace CachedCalls

variable {ι V E : Type} (C : CachedCalls ι V E)

/-- What Redis may answer: a text whose time has not passed, which later writes may have overtaken. -/
def FindsAt (s : ClockedState ι V E) (c : ι) : Except String (Option String) → Bool
  | .ok (some raw) => (s.redis (C.callers.key c)).any fun entry => entry.raw = raw ∧ s.now < entry.expires
  | _ => true

/-- The command a load has issued, once it is writing. -/
def command (l : ι) : LoadPhase V E → Option SetCommand
  | .writing value seconds => some (RedisCacheAdapter.set (C.callers.key l) (C.json value) seconds)
  | _ => none

variable [DecidableEq ι]

/-- The process goes on; a load that starts to write issues its command. -/
def fly (s : ClockedState ι V E) (e : CacheEvent ι Json V E) : Option (ClockedState ι V E) :=
  (C.callers.step s.flights e).map fun flights =>
    { s with flights := flights
             issued := fun l => (C.command l (flights.load l)).or (s.issued l) }

/-- What an event does at a time that is not past, if it can happen. -/
def clockedStep (s : ClockedState ι V E) (timed : ℚ × ClockedEvent ι V E) :
    Option (ClockedState ι V E) :=
  if timed.1 < s.now then none
  else
    let s := { s with now := timed.1 }
    match timed.2 with
    | .get c answer =>
      if C.FindsAt s c answer then C.fly s (.get c (RedisCacheAdapter.get answer)) else none
    | .store l =>
      match s.issued l with
      | some command => command.seconds?.map (s.store command)
      | none => none
    | .flight (.get _ _) => none
    | .flight e => C.fly s e

/-! ## Where what is served comes from -/

variable {C} {past more : List (ℚ × ClockedEvent ι V E)}

omit [DecidableEq ι]

/-- A load issued its command at a time, for a TTL drawn then, with what it had resolved with. -/
structure Issued (C : CachedCalls ι V E) (past : List (ℚ × ClockedEvent ι V E)) (l : ι) (value : V)
    (random issuedAt : ℚ) : Prop where
  loaded : ∃ loadedAt ≤ issuedAt, (loadedAt, .flight (.load l (.ok value))) ∈ past
  issued : (issuedAt, .flight (.afterLoad l random)) ∈ past

theorem Issued.mono {l : ι} {value : V} {random issuedAt : ℚ}
    (h : C.Issued past l value random issuedAt) (hsub : past ⊆ more) :
    C.Issued more l value random issuedAt where
  loaded := h.loaded.imp fun _ hloaded => ⟨hloaded.1, hsub hloaded.2⟩
  issued := hsub h.issued

/-- The command that a load issues. -/
def issues (C : CachedCalls ι V E) (l : ι) (value : V) (random : ℚ) : SetCommand :=
  RedisCacheAdapter.set (C.callers.key l) (C.json value) (withJitter (C.request l).ttlSeconds random)

/-- A write to Redis: the load, what it wrote, what was drawn for it, when the command was issued and
when carried out, and the seconds it asked for. -/
structure CacheWrite (ι V : Type) where
  load : ι
  value : V
  random : ℚ
  issuedAt : ℚ
  storedAt : ℚ
  seconds : Double

/-- A write happened. -/
structure Written (C : CachedCalls ι V E) (past : List (ℚ × ClockedEvent ι V E))
    (w : CacheWrite ι V) : Prop where
  issued : C.Issued past w.load w.value w.random w.issuedAt
  stored : (w.storedAt, .store w.load) ∈ past
  order : w.issuedAt ≤ w.storedAt
  ttl : withJitter (C.request w.load).ttlSeconds w.random = .finite w.seconds

theorem Written.mono {w : CacheWrite ι V} (h : C.Written past w) (hsub : past ⊆ more) :
    C.Written more w where
  issued := h.issued.mono hsub
  stored := hsub h.stored
  order := h.order
  ttl := h.ttl

/-- What a write left in Redis. -/
def CacheWrite.entry (C : CachedCalls ι V E) (w : CacheWrite ι V) : CacheEntry :=
  { raw := (C.json w.value).stringify, expires := w.storedAt + w.seconds.value }

/-- A read of a key was answered at a time with what a write had left, before that expired. -/
structure Found (C : CachedCalls ι V E) (past : List (ℚ × ClockedEvent ι V E)) (key : String)
    (w : CacheWrite ι V) (foundAt : ℚ) : Prop where
  written : C.Written past w
  key : C.callers.key w.load = key
  order : w.storedAt ≤ foundAt
  fresh : foundAt < w.storedAt + w.seconds.value

/-- Texts, commands and reads of a run have their sources in the events so far. -/
structure Traced (C : CachedCalls ι V E) (past : List (ℚ × ClockedEvent ι V E))
    (s : ClockedState ι V E) : Prop where
  clock : ∀ at_ e, (at_, e) ∈ past → at_ ≤ s.now
  loaded : ∀ l value, s.flights.load l = .loaded (.ok value) →
    ∃ loadedAt, (loadedAt, .flight (.load l (.ok value))) ∈ past
  writing : ∀ l value seconds, s.flights.load l = .writing value seconds →
    ∃ random issuedAt, C.Issued past l value random issuedAt ∧
      seconds = withJitter (C.request l).ttlSeconds random
  issued : ∀ l command, s.issued l = some command →
    ∃ value random issuedAt, C.Issued past l value random issuedAt ∧ command = C.issues l value random
  redis : ∀ key, ∀ entry ∈ s.redis key, ∃ w, C.Written past w ∧ C.callers.key w.load = key ∧
    entry = w.entry C
  read : ∀ c served, s.flights.call c = .read (some served) →
    ∃ w foundAt, C.Found past (C.callers.key c) w foundAt ∧ foundAt ≤ s.now ∧
      (Json.parse (C.json w.value).stringify).bind C.schema = some served

theorem traced_start (C : CachedCalls ι V E) (now : ℚ) : C.Traced [] (.start now) where
  clock _ _ h := by cases h
  loaded _ _ h := by cases h
  writing _ _ _ h := by cases h
  issued _ _ h := by cases h
  redis _ _ h := by cases h
  read _ _ h := by cases h

variable {s t : ClockedState ι V E} {time : ℚ} {event : ClockedEvent ι V E}

/-- Time passes until an event. -/
theorem Traced.tick (h : C.Traced past s) (htime : s.now ≤ time) :
    C.Traced (past ++ [(time, event)]) { s with now := time } := by
  have hsub : past ⊆ past ++ [(time, event)] := List.subset_append_left _ _
  constructor
  · intro at_ e hat
    rcases List.mem_append.mp hat with hpast | hnew
    · exact (h.clock at_ e hpast).trans htime
    · cases List.mem_singleton.mp hnew
      exact le_rfl
  · intro l value hl
    exact (h.loaded l value hl).imp fun _ hloaded => hsub hloaded
  · intro l value seconds hl
    obtain ⟨random, issuedAt, hissued, hseconds⟩ := h.writing l value seconds hl
    exact ⟨random, issuedAt, hissued.mono hsub, hseconds⟩
  · intro l command hl
    obtain ⟨value, random, issuedAt, hissued, hcommand⟩ := h.issued l command hl
    exact ⟨value, random, issuedAt, hissued.mono hsub, hcommand⟩
  · intro key entry hentry
    obtain ⟨w, hwritten, hkey, hw⟩ := h.redis key entry hentry
    exact ⟨w, hwritten.mono hsub, hkey, hw⟩
  · intro c served hc
    obtain ⟨w, foundAt, hfound, hle, hserved⟩ := h.read c served hc
    exact ⟨w, foundAt, { hfound with written := hfound.written.mono hsub }, hle.trans htime, hserved⟩

/-- A loaded value and the draw after it, where the clock stands. -/
theorem Traced.issues_now (h : C.Traced past s) {l : ι} {value : V} {random : ℚ}
    (hl : s.flights.load l = .loaded (.ok value))
    (hafter : (s.now, .flight (.afterLoad l random)) ∈ past) :
    C.Issued past l value random s.now where
  loaded := (h.loaded l value hl).imp fun _ hloaded => ⟨h.clock _ _ hloaded, hloaded⟩
  issued := hafter

/-- Redis carries out a command. -/
theorem Traced.store (h : C.Traced past s) {l : ι} {command : SetCommand} {seconds : ℚ}
    (hissued : s.issued l = some command) (hseconds : command.seconds? = some seconds)
    (hstored : (s.now, .store l) ∈ past) : C.Traced past (s.store command seconds) where
  clock := h.clock
  loaded := h.loaded
  writing := h.writing
  issued := h.issued
  read := h.read
  redis key entry hentry := by
    rcases ClockedState.mem_store hentry with ⟨rfl, rfl⟩ | hold
    · obtain ⟨value, random, issuedAt, hsource, rfl⟩ := h.issued l command hissued
      unfold SetCommand.seconds? at hseconds
      split at hseconds
      · rename_i x hx
        split at hseconds
        · cases hseconds
          exact ⟨⟨l, value, random, issuedAt, s.now, x⟩,
            { issued := hsource, stored := hstored, order := h.clock _ _ hsource.issued, ttl := hx },
            rfl, rfl⟩
        · cases hseconds
      · cases hseconds
    · exact h.redis key entry hold

variable [DecidableEq ι]

/-- The process goes on. -/
theorem Traced.fly (h : C.Traced past s) {e : CacheEvent ι Json V E} (he : C.fly s e = some t)
    (hload : ∀ l value, e = .load l (.ok value) → (s.now, .flight (.load l (.ok value))) ∈ past)
    (hafter : ∀ l random, e = .afterLoad l random → (s.now, .flight (.afterLoad l random)) ∈ past)
    (hget : ∀ c answer served, e = .get c answer → C.callers.readThrough answer = some served →
      ∃ w foundAt, C.Found past (C.callers.key c) w foundAt ∧ foundAt ≤ s.now ∧
        (Json.parse (C.json w.value).stringify).bind C.schema = some served) :
    C.Traced past t := by
  obtain ⟨flights, hflights, rfl⟩ := Option.map_eq_some_iff.mp he
  have hwriting : ∀ l value seconds, flights.load l = .writing value seconds →
      ∃ random issuedAt, C.Issued past l value random issuedAt ∧
        seconds = withJitter (C.request l).ttlSeconds random := by
    intro l value seconds hl
    rcases Callers.step_writing hflights hl with hold | ⟨random, hloaded, rfl, rfl⟩
    · exact h.writing l value seconds hold
    · exact ⟨random, s.now, h.issues_now hloaded (hafter l random rfl), rfl⟩
  constructor
  · exact h.clock
  · intro l value hl
    rcases Callers.step_loaded hflights hl with hold | rfl
    · exact h.loaded l value hold
    · exact ⟨s.now, hload l value rfl⟩
  · exact hwriting
  · intro l command hl
    rcases Option.or_eq_some_iff.mp hl with hnew | ⟨-, hold⟩
    · unfold CachedCalls.command at hnew
      split at hnew <;> cases hnew
      rename_i value seconds hphase
      obtain ⟨random, issuedAt, hissued, rfl⟩ := hwriting l value seconds hphase
      exact ⟨value, random, issuedAt, hissued, rfl⟩
    · exact h.issued l command hold
  · exact h.redis
  · intro c served hc
    rcases Callers.step_read hflights hc with hold | ⟨answer, rfl, hserved⟩
    · exact h.read c served hold
    · exact hget c answer served rfl hserved

omit [DecidableEq ι] in
/-- What a read finds is in Redis still. -/
theorem Traced.found (h : C.Traced past s) {c : ι} {answer : Except String (Option String)}
    (hfinds : C.FindsAt s c answer) {served : V}
    (hserved : C.callers.readThrough (RedisCacheAdapter.get answer) = some served) :
    ∃ w foundAt, C.Found past (C.callers.key c) w foundAt ∧ foundAt ≤ s.now ∧
      (Json.parse (C.json w.value).stringify).bind C.schema = some served := by
  match answer with
  | .error message => cases hserved
  | .ok none => cases hserved
  | .ok (some raw) =>
    obtain ⟨entry, hentry, hmatch⟩ := List.any_eq_true.mp hfinds
    obtain ⟨hraw, hfresh⟩ := of_decide_eq_true hmatch
    obtain ⟨w, hwritten, hkey, rfl⟩ := h.redis _ entry hentry
    refine ⟨w, s.now, ?_, le_rfl, ?_⟩
    · exact { written := hwritten, key := hkey, order := h.clock _ _ hwritten.stored, fresh := hfresh }
    · rw [show (C.json w.value).stringify = raw from hraw]
      exact readThrough_get hserved

theorem Traced.step (h : C.Traced past s) (he : C.clockedStep s (time, event) = some t) :
    C.Traced (past ++ [(time, event)]) t := by
  simp only [clockedStep] at he
  split at he
  · cases he
  · rename_i htime
    have hnow : C.Traced (past ++ [(time, event)]) { s with now := time } := h.tick (not_lt.mp htime)
    have hmem : (time, event) ∈ past ++ [(time, event)] :=
      List.mem_append_right _ (List.mem_singleton_self _)
    split at he
    · rename_i c answer
      split at he
      · rename_i hfinds
        refine hnow.fly he (fun _ _ hload => by cases hload) (fun _ _ hafter => by cases hafter) ?_
        intro c' found served hfound hserved
        cases hfound
        exact hnow.found hfinds hserved
      · cases he
    · rename_i l
      split at he
      · rename_i command hissued
        obtain ⟨seconds, hseconds, rfl⟩ := Option.map_eq_some_iff.mp he
        exact hnow.store hissued hseconds hmem
      · cases he
    · cases he
    · rename_i e hnot
      refine hnow.fly he ?_ ?_ fun c answer _ hget => absurd hget (hnot c answer)
      · rintro l value rfl
        exact hmem
      · rintro l random rfl
        exact hmem

/-- Every run leaves its traces. -/
theorem traced_run {now : ℚ} (h : Machine.run C.clockedStep (.start now) past = some s) :
    C.Traced past s :=
  Machine.run_keeps_past (traced_start C now)
    (fun _ _ _ _ hpast he => Traced.step hpast he) h

/-- A call that is settled right after its read is settled with what a write left, found before it
expired. -/
theorem found_of_settled {now : ℚ} {c : ι} {result : Except E V}
    (hjson : ∀ value served, (Json.parse (C.json value).stringify).bind C.schema = some served →
      served = value)
    (h : Machine.run C.clockedStep (.start now) (past ++ [(time, .flight (.afterRead c))]) = some s)
    (hc : s.flights.call c = .settled result) :
    ∃ w foundAt, result = .ok w.value ∧ C.Found past (C.callers.key c) w foundAt ∧ foundAt ≤ time := by
  obtain ⟨u, hu, he⟩ := Machine.run_snoc_some h
  simp only [clockedStep] at he
  split at he
  · cases he
  · rename_i htime
    obtain ⟨flights, hflights, rfl⟩ := Option.map_eq_some_iff.mp he
    obtain ⟨served, rfl, hread⟩ := Callers.afterRead_settled hflights hc
    obtain ⟨w, foundAt, hfound, hle, hserved⟩ := (traced_run hu).read c served hread
    exact ⟨w, foundAt, by rw [hjson _ _ hserved], hfound, hle.trans (not_lt.mp htime)⟩

end CachedCalls

/-! ## Searches -/

/-- A configured TTL is stretched to a number of seconds. -/
theorem exists_longestTtl {env : Env} (henv : env.Accepted)
    (hpos : Number.lt (.ofRat 0) env.CACHE_TTL_SEARCH) :
    ∃ ttl longest : Double, env.CACHE_TTL_SEARCH = .finite ttl ∧ 0 < ttl.value ∧
      longestTtl env.CACHE_TTL_SEARCH = .finite longest := by
  obtain ⟨ttl, httl, z, hz, hsafe⟩ := henv.searchTtl.1
  rw [httl, Number.ofRat_zero, Number.lt_finite, decide_eq_true_eq] at hpos
  have hmax : ttl.value ≤ 2 ^ 1022 := by
    calc ttl.value = ((z : ℤ) : ℚ) := hz
      _ ≤ 2 ^ 53 := by exact_mod_cast (le_abs_self z).trans hsafe.le
      _ ≤ 2 ^ 1022 := pow_le_pow_right₀ (by norm_num) (by norm_num)
  have hfactor : nearestDouble (11 / 10) ≤ 2 := by decide +kernel
  obtain ⟨longest, hlongest, -, -⟩ :=
    stretched_seconds hpos hmax (nearestDouble_nonneg (by norm_num)) hfactor
  refine ⟨ttl, longest, httl, hpos, ?_⟩
  rw [httl]
  exact hlongest

/-- **How old a cached result can be.** In every run of searches, whatever the index answers in the
meantime, a search that is settled right after its read has the outcome that an earlier search of its key
had loaded and written, and Redis carried that write out less than the longest TTL before it answered. -/
theorem cached_fresh {ε ι : Type} [DecidableEq ι] (sha1 : String → String) {env : Env}
    (henv : env.Accepted) (hpos : Number.lt (.ofRat 0) env.CACHE_TTL_SEARCH) {client : SearchClient ε}
    {criteria : ι → SearchCriteria} {C : CachedCalls ι SearchOutcome (SearchError ε)}
    (hC : C = (SearchProductsUseCase.of sha1 client (buildConfig env)).execute criteria)
    {now time : ℚ} {past : List (ℚ × ClockedEvent ι SearchOutcome (SearchError ε))}
    (hrandom : ∀ at_ l random, (at_, .flight (.afterLoad l random)) ∈ past → 0 ≤ random ∧ random < 1)
    {s : ClockedState ι SearchOutcome (SearchError ε)} {c : ι}
    (h : Machine.run C.clockedStep (.start now) (past ++ [(time, .flight (.afterRead c))]) = some s)
    {result : Except (SearchError ε) SearchOutcome} (hc : s.flights.call c = .settled result) :
    ∃ w foundAt longest, result = .ok w.value ∧ C.Found past (C.callers.key c) w foundAt ∧
      foundAt ≤ time ∧ longestTtl env.CACHE_TTL_SEARCH = .finite longest ∧
      foundAt < w.storedAt + longest.value := by
  subst hC
  obtain ⟨ttl, longest, httl, hpositive, hlongest⟩ := exists_longestTtl henv hpos
  obtain ⟨w, foundAt, hresult, hfound, hle⟩ :=
    CachedCalls.found_of_settled SearchProductsUseCase.execute_served h hc
  refine ⟨w, foundAt, longest, hresult, hfound, hle, hlongest, hfound.fresh.trans_le ?_⟩
  have hjitter : withJitter env.CACHE_TTL_SEARCH w.random = .finite w.seconds := hfound.written.ttl
  have hbound := withJitter_le_longestTtl hpositive (hrandom _ _ _ hfound.written.issued.issued).2
  rw [httl] at hjitter hlongest
  rw [hjitter, hlongest, Number.le_finite, decide_eq_true_eq] at hbound
  linarith

/-! ### A result that outlives the TTL -/

/-- A search at 0 whose entry gets 315 s of a TTL of 300 s, read by another search 301 s later. -/
def outlivedEvents (first second : Fin 3) :
    List (ℚ × ClockedEvent (Fin 3) SearchOutcome (SearchError String)) :=
  [(0, .flight (.call first)), (0, .get first (.ok none)), (0, .flight (.afterRead first)),
    (0, .flight (.load first (.ok drilOutcome))), (0, .flight (.afterLoad first (3 / 4))),
    (0, .store first), (0, .flight (.set first (.ok ()))), (0, .flight (.afterWrite first)),
    (0, .flight (.clear first)), (0, .flight (.settle first)), (301, .flight (.call second)),
    (301, .get second (.ok (some drilOutcome.json.stringify)))]

/-- The one load of these runs. -/
theorem afterLoad_mem_outlivedEvents {at_ random : ℚ} {l : Fin 3}
    (h : (at_, .flight (.afterLoad l random)) ∈ outlivedEvents 0 1) : at_ = 0 ∧ random = 3 / 4 := by
  simp only [outlivedEvents, List.mem_cons, Prod.mk.injEq, ClockedEvent.flight.injEq, reduceCtorEq,
    CacheEvent.afterLoad.injEq, List.not_mem_nil, and_false, false_or, or_false] at h
  exact ⟨h.1, h.2.2⟩

theorem outlivedEvents_random : ∀ at_ l random,
    (at_, .flight (.afterLoad l random)) ∈ outlivedEvents 0 1 → 0 ≤ random ∧ random < 1 := by
  intro at_ l random h
  rw [(afterLoad_mem_outlivedEvents h).2]
  norm_num

theorem outlivedEvents_run : ∃ s,
    Machine.run drilCalls.clockedStep (.start 0)
        (outlivedEvents 0 1 ++ [(301, .flight (.afterRead 1))]) = some s ∧
      s.flights.call 1 = .settled (.ok drilOutcome) := by
  have hrun : ((Machine.run drilCalls.clockedStep (.start 0)
      (outlivedEvents 0 1 ++ [(301, .flight (.afterRead 1))])).map fun s => s.flights.call 1) =
      some (.settled (.ok drilOutcome)) := by decide +kernel
  exact Option.map_eq_some_iff.mp hrun

/-- Served at 301, though nothing was written after 0. -/
theorem outlives_ttl : ∃ s,
    Machine.run drilCalls.clockedStep (.start 0)
        (outlivedEvents 0 1 ++ [(301, .flight (.afterRead 1))]) = some s ∧
      s.flights.call 1 = .settled (.ok drilOutcome) ∧
      (deployment 5).CACHE_TTL_SEARCH = .ofRat (300 : ℕ) ∧
      (∀ at_ l random, (at_, .flight (.afterLoad l random)) ∈ outlivedEvents 0 1 →
        0 ≤ random ∧ random < 1) ∧
      ¬ ∃ at_ l random, (at_, .flight (.afterLoad l random)) ∈ outlivedEvents 0 1 ∧
        301 - 300 ≤ at_ := by
  obtain ⟨s, hs, hcall⟩ := outlivedEvents_run
  refine ⟨s, hs, hcall, rfl, outlivedEvents_random, ?_⟩
  rintro ⟨at_, l, random, h, hlate⟩
  rw [(afterLoad_mem_outlivedEvents h).1] at hlate
  norm_num at hlate

/-- It was found within the longest TTL, 330 s. -/
theorem cached_fresh_outlived : ∃ s w foundAt longest,
    Machine.run drilCalls.clockedStep (.start 0)
        (outlivedEvents 0 1 ++ [(301, .flight (.afterRead 1))]) = some s ∧
      (.ok drilOutcome : Except (SearchError String) SearchOutcome) = .ok w.value ∧
      drilCalls.Found (outlivedEvents 0 1) (drilCalls.callers.key 1) w foundAt ∧ foundAt ≤ 301 ∧
      longestTtl (deployment 5).CACHE_TTL_SEARCH = .finite longest ∧
      foundAt < w.storedAt + longest.value := by
  obtain ⟨s, hs, hcall⟩ := outlivedEvents_run
  obtain ⟨w, foundAt, longest, h⟩ := cached_fresh id (deployment_accepted (by norm_num))
    (show Number.lt (.ofRat 0) (deployment 5).CACHE_TTL_SEARCH by decide +kernel) rfl
    outlivedEvents_random hs hcall
  exact ⟨s, w, foundAt, longest, hs, h⟩

end AdvancedSearch
