import AdvancedSearch.Cache.SingleFlight
import AdvancedSearch.Lib.JsonParse

/-!
# A cache that does not show

Calls of `cacheAside` over Redis, for loads that settle with one answer per call, in any number of
processes, each with its own map of loads in flight. Redis keeps the texts that were SET; a read may
fail, find nothing, or find a text that any process wrote. Where calls with one key have one answer and a
text that is served is served as the value it was written from, every call that settles has its own
answer (`Fleet.served_own`), whatever the order of calls, settlements and writes. One process is a fleet
of one (`CachedCalls.transparent`).
-/

namespace AdvancedSearch

open Js

/-! ## Loads with one answer per call -/

namespace Callers

variable {ι K R V E : Type} [DecidableEq ι] [DecidableEq K] {C : Callers ι K R V}
  {answer : ι → Except E V} {s t : Flights ι K V E} {e : CacheEvent ι R V E}

/-- Loads have settled with their answers; what was read of the cache and what calls have settled with
are the answers of the calls. -/
structure Faithful (C : Callers ι K R V) (answer : ι → Except E V) (s : Flights ι K V E) : Prop where
  consistent : Consistent C s
  results : ∀ l result, (s.load l).result = some result → result = answer l
  read : ∀ c value, s.call c = .read (some value) → answer c = .ok value
  settled : ∀ c result, s.call c = .settled result → result = answer c

omit [DecidableEq ι] [DecidableEq K] in
theorem faithful_start (C : Callers ι K R V) (answer : ι → Except E V) :
    Faithful C answer Flights.start where
  consistent := consistent_start C
  results _ _ h := by cases h
  read _ _ h := by cases h
  settled _ _ h := by cases h

omit [DecidableEq K] in
/-- A load goes to a phase that carries nothing else than its answer. -/
theorem Faithful.results_update (h : Faithful C answer s) {l : ι} {phase : LoadPhase V E}
    (hphase : ∀ result, phase.result = some result → result = answer l) (l' : ι)
    (result : Except E V) (hl : (Function.update s.load l phase l').result = some result) :
    result = answer l' := by
  by_cases hll : l' = l
  · subst hll
    rw [Function.update_self] at hl
    exact hphase result hl
  · rw [Function.update_of_ne hll] at hl
    exact h.results l' result hl

omit [DecidableEq K] in
/-- A call goes to a phase that carries nothing else than its answer. -/
theorem Faithful.call_update (h : Faithful C answer s) (c : ι) (phase : CallPhase ι V E)
    (hread : ∀ value, phase = .read (some value) → answer c = .ok value)
    (hsettled : ∀ result, phase = .settled result → result = answer c) :
    (∀ c' value, Function.update s.call c phase c' = .read (some value) → answer c' = .ok value) ∧
      ∀ c' result, Function.update s.call c phase c' = .settled result → result = answer c' := by
  constructor
  · intro c' value hc'
    by_cases hcc : c' = c
    · subst hcc
      rw [Function.update_self] at hc'
      exact hread value hc'
    · rw [Function.update_of_ne hcc] at hc'
      exact h.read c' value hc'
  · intro c' result hc'
    by_cases hcc : c' = c
    · subst hcc
      rw [Function.update_self] at hc'
      exact hsettled result hc'
    · rw [Function.update_of_ne hcc] at hc'
      exact h.settled c' result hc'

/-- A step keeps answers what they are, where loads settle with theirs and reads serve no other. -/
theorem Faithful.step (hkey : ∀ c l, C.key l = C.key c → answer l = answer c)
    (h : Faithful C answer s) (he : C.step s e = some t)
    (hget : ∀ c found value, e = .get c found → C.readThrough found = some value →
      answer c = .ok value)
    (hload : ∀ l result, e = .load l result → result = answer l) : Faithful C answer t := by
  have hconsistent := h.consistent.step he
  cases step_moves he with
  | advances c phase hc _ hcall hsame _ =>
    have hcalls := h.call_update c phase
      (fun value hphase => by
        cases hc with
        | call => cases hphase
        | get _ hfound => exact hget c _ value hfound (CallPhase.read.inj hphase)
        | hit => cases hphase
        | settle => cases hphase)
      (fun result hphase => by
        cases hc with
        | call => cases hphase
        | get => cases hphase
        | hit hhit =>
          cases hphase
          exact (h.read c _ hhit).symm
        | @settle l _ hwait hl =>
          cases hphase
          have hresult := h.results l result (by rw [hl]; rfl)
          rw [hresult, hkey c l (h.consistent.waits c l hwait).1])
    exact
      { consistent := hconsistent
        results := by rw [hsame]; exact h.results
        read := by rw [hcall]; exact hcalls.1
        settled := by rw [hcall]; exact hcalls.2 }
  | misses c _ ht =>
    have hwaits : ∀ l, (∀ c' value, Function.update s.call c (.waiting l) c' = .read (some value) →
        answer c' = .ok value) ∧
        ∀ c' result, Function.update s.call c (.waiting l) c' = .settled result →
          result = answer c' :=
      fun l =>
        h.call_update c (.waiting l) (fun _ hphase => by cases hphase) fun _ hphase => by cases hphase
    rcases singleFlight_cases C c s.recordCacheMiss with ⟨l, -, hcall, hsame, -⟩ | ⟨-, hcall, hnew, -⟩
    · exact
        { consistent := hconsistent
          results := by rw [ht, hsame]; exact h.results
          read := by rw [ht, hcall]; exact (hwaits l).1
          settled := by rw [ht, hcall]; exact (hwaits l).2 }
    · exact
        { consistent := hconsistent
          results := by
            rw [ht, hnew]
            exact h.results_update fun _ hphase => by cases hphase
          read := by rw [ht, hcall]; exact (hwaits c).1
          settled := by rw [ht, hcall]; exact (hwaits c).2 }
  | flies l phase _ _ hresult _ hcall hnew _ =>
    exact
      { consistent := hconsistent
        results := by
          rw [hnew]
          refine h.results_update fun result hphase => ?_
          exact (hresult result hphase).elim (h.results l result) (hload l result)
        read := by rw [hcall]; exact h.read
        settled := by rw [hcall]; exact h.settled }
  | clears l result hl _ hcall hnew _ =>
    exact
      { consistent := hconsistent
        results := by
          rw [hnew]
          refine h.results_update fun result' hphase => ?_
          exact h.results l result' (by rw [hl]; exact hphase)
        read := by rw [hcall]; exact h.read
        settled := by rw [hcall]; exact h.settled }

end Callers

/-! ## Redis -/

/-- `RedisCacheAdapter.get`, from what the client answers. -/
def RedisCacheAdapter.get : Except String (Option String) → Except String (Option Json)
  | .error message => .error message
  | .ok none => .ok none
  | .ok (some raw) =>
    match Json.parse raw with
    | some j => .ok (some j)
    | none => .error "SyntaxError"

theorem RedisCacheAdapter.get_eq_some {answer : Except String (Option String)} {j : Json}
    (h : RedisCacheAdapter.get answer = .ok (some j)) :
    ∃ raw, answer = .ok (some raw) ∧ Json.parse raw = some j := by
  match answer, h with
  | .ok (some raw), h =>
    unfold RedisCacheAdapter.get at h
    dsimp only at h
    cases hraw : Json.parse raw with
    | none =>
      rw [hraw] at h
      cases h
    | some j' =>
      rw [hraw] at h
      cases h
      exact ⟨raw, rfl, hraw⟩

/-- The value whose cache write was started. -/
def LoadPhase.issued {V E : Type} : LoadPhase V E → Option V
  | writing value _ | written value | completed (.ok value) | settled (.ok value) => some value
  | _ => none

theorem LoadPhase.result_of_issued {V E : Type} {phase : LoadPhase V E} {value : V}
    (h : phase.issued = some value) : phase.result = some (.ok value) := by
  unfold issued at h
  split at h <;> cases h <;> rfl

/-- Whether an event is what Redis reads or a load answers. -/
def CacheEvent.isAnswer {ι R V E : Type} : CacheEvent ι R V E → Bool
  | get _ _ | load _ _ => true
  | _ => false

/-! ## Processes over one Redis -/

/-- What each process is asked, what its loads settle with, and how a call checks what it reads. -/
structure Fleet (κ ι V E : Type) where
  request : κ → ι → CacheRequest String
  load : κ → ι → Except E V
  json : V → Json
  schema : κ → ι → Json → Option V

/-- The flights of each process, and the texts SET under each key, the last one first. -/
structure FleetState (κ ι V E : Type) where
  flights : κ → Flights ι String V E
  redis : String → List String

/-- What can happen next in a process; what it reads is a payload for a call. -/
inductive FleetEvent (ι V E : Type) where
  /-- The read of a call settles. -/
  | get (c : ι) (answer : Except String (Option String))
  /-- A load settles. -/
  | load (l : ι)
  /-- The SET of a load takes effect. -/
  | store (l : ι)
  /-- A call, a microtask, or a write that settles. -/
  | flight (e : CacheEvent ι (ι × Json) V E)

namespace Fleet

variable {κ ι V E : Type}

/-- Nothing called and nothing stored yet. -/
def start : FleetState κ ι V E := { flights := fun _ => Flights.start, redis := fun _ => [] }

variable (F : Fleet κ ι V E)

/-- The calls of a process. Each checks what it reads with its own schema. -/
def callers (k : κ) : Callers ι String (ι × Json) V where
  request := F.request k
  schema := fun (c, payload) => F.schema k c payload

/-- What a read may find: a text SET so far by any process. -/
def Finds (s : FleetState κ ι V E) (k : κ) (c : ι) : Except String (Option String) → Bool
  | .ok (some raw) => raw ∈ s.redis ((F.callers k).key c)
  | _ => true

/-- What the client answers, as a payload for a call. -/
def payload (c : ι) (answer : Except String (Option String)) : Except String (Option (ι × Json)) :=
  (RedisCacheAdapter.get answer).map (·.map (c, ·))

variable [DecidableEq κ] [DecidableEq ι]

/-- An event of one process. -/
def flightStep (s : FleetState κ ι V E) (k : κ) (e : CacheEvent ι (ι × Json) V E) :
    Option (FleetState κ ι V E) :=
  ((F.callers k).step (s.flights k) e).map fun flights =>
    { s with flights := Function.update s.flights k flights }

def step (s : FleetState κ ι V E) : κ × FleetEvent ι V E → Option (FleetState κ ι V E)
  | (k, .get c answer) =>
    if F.Finds s k c answer then F.flightStep s k (.get c (payload c answer)) else none
  | (k, .load l) => F.flightStep s k (.load l (F.load k l))
  | (k, .store l) =>
    match ((s.flights k).load l).issued with
    | some value =>
      if (F.callers k).bypasses l then none
      else
        let key := (F.callers k).key l
        some { s with redis := Function.update s.redis key ((F.json value).stringify :: s.redis key) }
    | none => none
  | (k, .flight e) => if e.isAnswer then none else F.flightStep s k e

/-! ## Every run -/

/-- In each process answers are what they are, and each text in Redis is an answer some process had
under that key. -/
structure Sound (F : Fleet κ ι V E) (s : FleetState κ ι V E) : Prop where
  faithful : ∀ k, (F.callers k).Faithful (F.load k) (s.flights k)
  stored : ∀ key, ∀ raw ∈ s.redis key, ∃ k l value, (F.callers k).key l = key ∧
    F.load k l = .ok value ∧ raw = (F.json value).stringify

variable {F} {s t : FleetState κ ι V E}

omit [DecidableEq κ] [DecidableEq ι] in
theorem sound_start (F : Fleet κ ι V E) : Sound F start where
  faithful k := Callers.faithful_start (F.callers k) (F.load k)
  stored key raw h := by cases h

omit [DecidableEq κ] [DecidableEq ι] in
/-- What a call serves of what the client answers. -/
theorem readThrough_payload {k : κ} {c : ι} {answer : Except String (Option String)} {value : V}
    (h : (F.callers k).readThrough (payload c answer) = some value) :
    ∃ raw, answer = .ok (some raw) ∧ (Json.parse raw).bind (F.schema k c) = some value := by
  obtain ⟨⟨c', j⟩, hfound, hschema⟩ := Callers.readThrough_eq_some h
  unfold payload at hfound
  match hget : RedisCacheAdapter.get answer with
  | .error message | .ok none =>
    rw [hget] at hfound
    cases hfound
  | .ok (some j') =>
    rw [hget] at hfound
    cases hfound
    obtain ⟨raw, rfl, hj⟩ := RedisCacheAdapter.get_eq_some hget
    exact ⟨raw, rfl, by rw [hj]; exact hschema⟩

section Run

variable (hanswer : ∀ k c k' l, (F.callers k').key l = (F.callers k).key c → F.load k' l = F.load k c)
  (hjson : ∀ k c value served, F.load k c = .ok value →
    (Json.parse (F.json value).stringify).bind (F.schema k c) = some served → served = value)

include hanswer hjson

omit [DecidableEq κ] [DecidableEq ι] in
/-- What a read serves is the answer of the call, whichever process wrote it. -/
theorem Sound.served (h : Sound F s) {k : κ} {c : ι} {answer : Except String (Option String)} {value : V}
    (hfinds : F.Finds s k c answer)
    (hserved : (F.callers k).readThrough (payload c answer) = some value) : F.load k c = .ok value := by
  obtain ⟨raw, rfl, hschema⟩ := readThrough_payload hserved
  obtain ⟨k', l, stored, hl, hload, rfl⟩ := h.stored _ raw (of_decide_eq_true hfinds)
  have hown : F.load k c = .ok stored := (hanswer k c k' l hl).symm.trans hload
  rw [hjson k c stored value hown hschema, hown]

omit hjson in
/-- A process that keeps its answers keeps those of the fleet. -/
theorem Sound.flightStep {k : κ} {e : CacheEvent ι (ι × Json) V E} (h : Sound F s)
    (he : F.flightStep s k e = some t)
    (hget : ∀ c found value, e = .get c found → (F.callers k).readThrough found = some value →
      F.load k c = .ok value)
    (hload : ∀ l result, e = .load l result → result = F.load k l) : Sound F t := by
  obtain ⟨flights, hflights, rfl⟩ := Option.map_eq_some_iff.mp he
  refine { faithful := fun k' => ?_, stored := h.stored }
  dsimp only
  by_cases hk : k' = k
  · subst hk
    rw [Function.update_self]
    exact (h.faithful k').step (fun c l => hanswer k' c k' l) hflights hget hload
  · rw [Function.update_of_ne hk]
    exact h.faithful k'

theorem Sound.step {e : κ × FleetEvent ι V E} (h : Sound F s) (he : F.step s e = some t) :
    Sound F t := by
  match e with
  | (k, .get c answer) =>
    simp only [Fleet.step] at he
    split at he
    · rename_i hfinds
      refine h.flightStep hanswer he ?_ fun _ _ hload => by cases hload
      intro c' found value hfound hserved
      cases hfound
      exact h.served hanswer hjson hfinds hserved
    · cases he
  | (k, .load l) =>
    refine h.flightStep hanswer he (fun _ _ _ hget => by cases hget) ?_
    intro l' result hload
    cases hload
    rfl
  | (k, .store l) =>
    simp only [Fleet.step] at he
    split at he
    · rename_i value hissued
      split at he
      · cases he
      · cases he
        refine { faithful := h.faithful, stored := fun key raw hraw => ?_ }
        have hvalue := (h.faithful k).results l _ (LoadPhase.result_of_issued hissued)
        dsimp only at hraw
        by_cases hkey : key = (F.callers k).key l
        · rw [hkey, Function.update_self] at hraw
          rcases List.mem_cons.mp hraw with rfl | hraw
          · exact ⟨k, l, value, hkey.symm, hvalue.symm, rfl⟩
          · exact h.stored key raw (hkey ▸ hraw)
        · rw [Function.update_of_ne hkey] at hraw
          exact h.stored key raw hraw
    · cases he
  | (k, .flight e) =>
    simp only [Fleet.step] at he
    split at he
    · cases he
    · rename_i hisAnswer
      refine h.flightStep hanswer he ?_ ?_
      · rintro c found value rfl
        exact absurd rfl hisAnswer
      · rintro l result rfl
        exact absurd rfl hisAnswer

/-- A call that settles has settled with its own answer. -/
theorem served_own {events : List (κ × FleetEvent ι V E)}
    (h : Machine.run F.step start events = some s) {k : κ} {c : ι} {result : Except E V}
    (hc : (s.flights k).call c = .settled result) : result = F.load k c :=
  ((Machine.run_keeps (fun _ _ _ hs he => Sound.step hanswer hjson hs he) (sound_start F) h).faithful
    k).settled c result hc

end Run

end Fleet

/-! ## One process -/

/-- The calls of a process: what they ask for, what their loads settle with, and how values are stored
and checked. -/
structure CachedCalls (ι V E : Type) where
  request : ι → CacheRequest String
  load : ι → Except E V
  /-- `JSON.stringify` writes it. -/
  json : V → Json
  schema : Json → Option V

namespace CachedCalls

variable {ι V E : Type} (C : CachedCalls ι V E)

def callers : Callers ι String Json V := { request := C.request, schema := C.schema }

/-- A process with a Redis of its own. -/
def alone : Fleet Unit ι V E where
  request _ := C.request
  load _ := C.load
  json := C.json
  schema _ _ := C.schema

variable {C}

/-- What a text is served as. -/
theorem readThrough_get {raw : String} {value : V}
    (h : C.callers.readThrough (RedisCacheAdapter.get (.ok (some raw))) = some value) :
    (Json.parse raw).bind C.schema = some value := by
  obtain ⟨j, hfound, hschema⟩ := Callers.readThrough_eq_some h
  obtain ⟨raw', hraw, hj⟩ := RedisCacheAdapter.get_eq_some hfound
  cases hraw
  rw [hj]
  exact hschema

/-- **The cache does not show**: a call that settles has settled with its own answer. -/
theorem transparent [DecidableEq ι]
    (hkey : ∀ c l, C.callers.key l = C.callers.key c → C.load l = C.load c)
    (hjson : ∀ value served, (Json.parse (C.json value).stringify).bind C.schema = some served →
      served = value)
    {events : List (Unit × FleetEvent ι V E)} {s : FleetState Unit ι V E}
    (h : Machine.run C.alone.step Fleet.start events = some s) {c : ι} {result : Except E V}
    (hc : (s.flights ()).call c = .settled result) : result = C.load c :=
  Fleet.served_own (F := C.alone) (fun _ c _ l => hkey c l) (fun _ _ value served _ => hjson value served)
    h hc

end CachedCalls

end AdvancedSearch
