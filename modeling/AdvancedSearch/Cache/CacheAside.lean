import Mathlib.Logic.Function.Basic
import AdvancedSearch.Lib.Machine
import AdvancedSearch.Lib.Number

/-!
# The cache in front of a load

`cacheAside` as the event loop runs it: any number of calls, each at the point where it last
suspended, the loads they started, and the map `inFlight` they share. An event is a call, a promise of
the outside settling, or one microtask; microtasks may run in any order and outside promises may
settle between them, so every order the event loop can take is a run of this machine.

A load is named by the call that started it. What `load`, `cache.get` and `cache.set` answer is free:
the events carry it. What the cache throws is only logged.
-/

namespace AdvancedSearch

open Js

/-! ## Expiry -/

/-- ±10 %. -/
def JITTER : ℚ := nearestDouble (1 / 10)

/-- Spreads a TTL, floored at one second; what is not positive passes through. -/
def withJitter (ttlSeconds : Number) (random : ℚ) : Number :=
  if ttlSeconds.isAtMostZero then ttlSeconds
  else
    let spread := nearestDouble (1 + nearestDouble (nearestDouble (nearestDouble (random * 2) - 1) * JITTER))
    ((ttlSeconds.mul spread).round).max 1

/-! ## Calls and loads -/

/-- Where a call of `cacheAside` is. -/
inductive CallPhase (ι V E : Type) where
  | idle
  /-- `cache.get` is pending. -/
  | reading
  /-- `readThrough` has its answer, which `cacheAside` sees in a microtask. -/
  | read (cached : Option V)
  /-- Waits for the promise of a load. -/
  | waiting (load : ι)
  | settled (result : Except E V)
  deriving DecidableEq

/-- Where a load is. -/
inductive LoadPhase (V E : Type) where
  | idle
  /-- `load()` is pending. -/
  | loading
  /-- `load()` has settled, which the wrapper that writes to the cache sees in a microtask. -/
  | loaded (result : Except E V)
  /-- `cache.set` is pending. -/
  | writing (value : V) (seconds : Number)
  /-- `cache.set` has settled, either way, which the wrapper sees in a microtask. -/
  | written (value : V)
  /-- The promise that `finally` hangs on has settled; its callback is a microtask. -/
  | completed (result : Except E V)
  /-- The promise that the waiting calls share has settled. -/
  | settled (result : Except E V)
  deriving DecidableEq

/-- A load is in flight from its start until `finally` has seen it end, its cache write included. -/
def LoadPhase.InFlight {V E : Type} : LoadPhase V E → Prop
  | idle | settled _ => False
  | _ => True

/-- What a load has settled with, once it has. -/
def LoadPhase.result {V E : Type} : LoadPhase V E → Option (Except E V)
  | idle | loading => none
  | loaded result | completed result | settled result => some result
  | writing value _ | written value => some (.ok value)

/-- What `cacheAside` is called with. -/
structure CacheRequest (K : Type) where
  key : K
  ttlSeconds : Number

/-- The state of all calls of a process. -/
structure Flights (ι K V E : Type) where
  call : ι → CallPhase ι V E
  load : ι → LoadPhase V E
  inFlight : K → Option ι
  hits : ℕ
  misses : ℕ

/-- What can happen next. -/
inductive CacheEvent (ι R V E : Type) where
  /-- `cacheAside` is called. -/
  | call (c : ι)
  /-- `cache.get` settles. -/
  | get (c : ι) (answer : Except String (Option R))
  /-- `cacheAside` goes on after `readThrough`. -/
  | afterRead (c : ι)
  /-- `load()` settles. -/
  | load (l : ι) (result : Except E V)
  /-- The wrapper goes on after `load()`; `random` is what the jitter draws. -/
  | afterLoad (l : ι) (random : ℚ)
  /-- `cache.set` settles. -/
  | set (l : ι) (answer : Except String Unit)
  /-- The wrapper goes on after `writeThrough`. -/
  | afterWrite (l : ι)
  /-- The callback of `finally` runs. -/
  | clear (l : ι)
  /-- The promise of a call settles. -/
  | settle (c : ι)

/-- Whether an event is a microtask. -/
def CacheEvent.IsMicrotask {ι R V E : Type} : CacheEvent ι R V E → Prop
  | afterRead _ | afterLoad _ _ | afterWrite _ | clear _ | settle _ => True
  | _ => False

namespace Flights

variable {ι K R V E : Type}

/-- Nothing called yet. -/
def start : Flights ι K V E :=
  { call := fun _ => .idle, load := fun _ => .idle, inFlight := fun _ => none, hits := 0, misses := 0 }

def recordCacheHit (s : Flights ι K V E) : Flights ι K V E := { s with hits := s.hits + 1 }

def recordCacheMiss (s : Flights ι K V E) : Flights ι K V E := { s with misses := s.misses + 1 }

variable [DecidableEq ι]

def setCall (s : Flights ι K V E) (c : ι) (phase : CallPhase ι V E) : Flights ι K V E :=
  { s with call := Function.update s.call c phase }

def setLoad (s : Flights ι K V E) (l : ι) (phase : LoadPhase V E) : Flights ι K V E :=
  { s with load := Function.update s.load l phase }

variable [DecidableEq K]

/-- `inFlight.set` and `inFlight.delete`. -/
def setInFlight (s : Flights ι K V E) (key : K) (entry : Option ι) : Flights ι K V E :=
  { s with inFlight := Function.update s.inFlight key entry }

end Flights

/-- The calls of a run and the schema their cached values are checked against. -/
structure Callers (ι K R V : Type) where
  request : ι → CacheRequest K
  schema : R → Option V

namespace Callers

variable {ι K R V E : Type} (C : Callers ι K R V)

def key (c : ι) : K := (C.request c).key

/-- Whether a call leaves the cache alone. -/
def bypasses (c : ι) : Bool := (C.request c).ttlSeconds.isAtMostZero

/-- A payload of another shape, `null` and a failed read are all misses. -/
def readThrough : Except String (Option R) → Option V
  | .ok (some raw) => C.schema raw
  | .ok none => none
  | .error _ => none

section ReadThrough

variable {C} {answer : Except String (Option R)}

theorem readThrough_eq_none (h : C.readThrough answer = none) (raw : R)
    (hraw : answer = .ok (some raw)) : C.schema raw = none := by
  subst hraw
  exact h

theorem readThrough_eq_some {value : V} (h : C.readThrough answer = some value) :
    ∃ raw, answer = .ok (some raw) ∧ C.schema raw = some value := by
  match answer, h with
  | .ok (some raw), h => exact ⟨raw, rfl, h⟩

end ReadThrough

variable [DecidableEq ι] [DecidableEq K]

/-- Collapses loads of one key onto the first one's promise. -/
def singleFlight (c : ι) (s : Flights ι K V E) : Flights ι K V E :=
  match s.inFlight (C.key c) with
  | some pending => s.setCall c (.waiting pending)
  | none => ((s.setLoad c .loading).setInFlight (C.key c) (some c)).setCall c (.waiting c)

/-- What an event does, if it can happen. -/
def step (s : Flights ι K V E) : CacheEvent ι R V E → Option (Flights ι K V E)
  | .call c =>
    match s.call c with
    | .idle =>
      if C.bypasses c then some (C.singleFlight c s.recordCacheMiss)
      else some (s.setCall c .reading)
    | _ => none
  | .get c answer =>
    match s.call c with
    | .reading => some (s.setCall c (.read (C.readThrough answer)))
    | _ => none
  | .afterRead c =>
    match s.call c with
    | .read (some cached) => some (s.recordCacheHit.setCall c (.settled (.ok cached)))
    | .read none => some (C.singleFlight c s.recordCacheMiss)
    | _ => none
  | .load l result =>
    match s.load l with
    | .loading => some (s.setLoad l (if C.bypasses l then .completed result else .loaded result))
    | _ => none
  | .afterLoad l random =>
    match s.load l with
    | .loaded (.ok value) =>
      some (s.setLoad l (.writing value (withJitter (C.request l).ttlSeconds random)))
    | .loaded (.error e) => some (s.setLoad l (.completed (.error e)))
    | _ => none
  | .set l _ =>
    match s.load l with
    | .writing value _ => some (s.setLoad l (.written value))
    | _ => none
  | .afterWrite l =>
    match s.load l with
    | .written value => some (s.setLoad l (.completed (.ok value)))
    | _ => none
  | .clear l =>
    match s.load l with
    | .completed result => some ((s.setInFlight (C.key l) none).setLoad l (.settled result))
    | _ => none
  | .settle c =>
    match s.call c with
    | .waiting l =>
      match s.load l with
      | .settled result => some (s.setCall c (.settled result))
      | _ => none
    | _ => none

/-- The call that an event makes miss. -/
def Misses (s : Flights ι K V E) (e : CacheEvent ι R V E) (c : ι) : Prop :=
  (e = .call c ∧ s.call c = .idle ∧ C.bypasses c) ∨ (e = .afterRead c ∧ s.call c = .read none)

end Callers

end AdvancedSearch
