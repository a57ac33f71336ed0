import AdvancedSearch.Cache.CacheAside

/-!
# Single flight

`inFlight` has an entry for a key exactly while a load of that key is in flight, in every order of
calls, settlements and microtasks; who misses gets the answer of a load that had not settled by then
(`single_flight`).
-/

namespace AdvancedSearch

open Js

theorem LoadPhase.InFlight.ne_idle {V E : Type} {phase : LoadPhase V E} (h : phase.InFlight) :
    phase ≠ .idle := by
  rintro rfl
  exact h

theorem LoadPhase.of_ne_idle {V E : Type} {phase : LoadPhase V E} (h : phase ≠ .idle) :
    phase.InFlight ∨ ∃ result, phase = .settled result := by
  cases phase with
  | idle => exact absurd rfl h
  | settled result => exact Or.inr ⟨result, rfl⟩
  | _ => exact Or.inl trivial

namespace Callers

variable {ι K R V E : Type} [DecidableEq ι] [DecidableEq K] {C : Callers ι K R V}
  {s t : Flights ι K V E} {e : CacheEvent ι R V E}

/-! ## What a step can do -/

omit [DecidableEq ι] [DecidableEq K] in
/-- An event makes at most one call miss. -/
theorem Misses.unique {c c' : ι} (h : C.Misses s e c) (h' : C.Misses s e c') : c = c' := by
  rcases h with ⟨he, -⟩ | ⟨he, -⟩ <;> rcases h' with ⟨he', -⟩ | ⟨he', -⟩ <;> rw [he] at he' <;>
    cases he' <;> rfl

/-- A call moves on without starting or joining a load. -/
inductive Advances (C : Callers ι K R V) (s : Flights ι K V E) (e : CacheEvent ι R V E) (c : ι) :
    CallPhase ι V E → Prop
  | call (h : s.call c = .idle) : Advances C s e c .reading
  | get (h : s.call c = .reading) {answer : Except String (Option R)} (he : e = .get c answer) :
      Advances C s e c (.read (C.readThrough answer))
  | hit {cached : V} (h : s.call c = .read (some cached)) : Advances C s e c (.settled (.ok cached))
  | settle {l : ι} {result : Except E V} (h : s.call c = .waiting l)
      (hl : s.load l = .settled result) : Advances C s e c (.settled result)

/-- A call moves on, a call misses, a load in flight moves on, or a load is cleared. -/
inductive Moves (C : Callers ι K R V) (s : Flights ι K V E) (e : CacheEvent ι R V E)
    (t : Flights ι K V E) : Prop
  | advances (c : ι) (phase : CallPhase ι V E) (hc : Advances C s e c phase)
      (quiet : ∀ c', ¬ C.Misses s e c') (hcall : t.call = Function.update s.call c phase)
      (hload : t.load = s.load) (hin : t.inFlight = s.inFlight)
  | misses (c : ι) (hc : C.Misses s e c) (ht : t = C.singleFlight c s.recordCacheMiss)
  | flies (l : ι) (phase : LoadPhase V E) (hl : (s.load l).InFlight) (hp : phase.InFlight)
      (hresult : ∀ result, phase.result = some result →
        (s.load l).result = some result ∨ e = .load l result)
      (quiet : ∀ c', ¬ C.Misses s e c') (hcall : t.call = s.call)
      (hload : t.load = Function.update s.load l phase) (hin : t.inFlight = s.inFlight)
  | clears (l : ι) (result : Except E V) (hl : s.load l = .completed result)
      (quiet : ∀ c', ¬ C.Misses s e c') (hcall : t.call = s.call)
      (hload : t.load = Function.update s.load l (.settled result))
      (hin : t.inFlight = Function.update s.inFlight (C.key l) none)

theorem step_moves (h : C.step s e = some t) : Moves C s e t := by
  have quiet : (∀ c, e ≠ .call c) → (∀ c, e ≠ .afterRead c) → ∀ c', ¬ C.Misses s e c' :=
    fun hcall hread c' hm => hm.elim (fun hm => hcall c' hm.1) fun hm => hread c' hm.1
  cases e with
  | call c =>
    simp only [step] at h
    split at h <;> try cases h
    rename_i hidle
    split at h <;> rename_i hb <;> cases h
    · exact .misses _ (Or.inl ⟨rfl, hidle, hb⟩) rfl
    · refine .advances _ _ (.call hidle) ?_ rfl rfl rfl
      rintro c' (⟨he, -, hb'⟩ | ⟨he, -⟩)
      · cases he
        exact hb hb'
      · cases he
  | get c answer =>
    simp only [step] at h
    split at h <;> cases h
    rename_i hc
    exact .advances _ _ (.get hc rfl) (quiet (by simp) (by simp)) rfl rfl rfl
  | afterRead c =>
    simp only [step] at h
    split at h <;> rename_i hc <;> cases h
    · refine .advances _ _ (.hit hc) ?_ rfl rfl rfl
      rintro c' (⟨he, -⟩ | ⟨he, hm⟩)
      · cases he
      · cases he
        rw [hc] at hm
        cases hm
    · exact .misses _ (Or.inr ⟨rfl, hc⟩) rfl
  | load l result =>
    simp only [step] at h
    split at h <;> rename_i hl <;> cases h
    refine .flies _ _ (by rw [hl]; trivial) ?_ ?_ (quiet (by simp) (by simp)) rfl rfl rfl
    · split <;> trivial
    · split <;> rintro _ ⟨⟩ <;> exact Or.inr rfl
  | afterLoad l random =>
    simp only [step] at h
    split at h <;> rename_i hl <;> cases h
    · exact .flies _ _ (by rw [hl]; trivial) (by trivial) (fun _ => by rw [hl]; exact Or.inl)
        (quiet (by simp) (by simp)) rfl rfl rfl
    · exact .flies _ _ (by rw [hl]; trivial) (by trivial) (fun _ => by rw [hl]; exact Or.inl)
        (quiet (by simp) (by simp)) rfl rfl rfl
  | set l answer =>
    simp only [step] at h
    split at h <;> rename_i hl <;> cases h
    exact .flies _ _ (by rw [hl]; trivial) (by trivial) (fun _ => by rw [hl]; exact Or.inl)
      (quiet (by simp) (by simp)) rfl rfl rfl
  | afterWrite l =>
    simp only [step] at h
    split at h <;> rename_i hl <;> cases h
    exact .flies _ _ (by rw [hl]; trivial) (by trivial) (fun _ => by rw [hl]; exact Or.inl)
      (quiet (by simp) (by simp)) rfl rfl rfl
  | clear l =>
    simp only [step] at h
    split at h <;> rename_i hl <;> cases h
    exact .clears _ _ hl (quiet (by simp) (by simp)) rfl rfl rfl
  | settle c =>
    simp only [step] at h
    split at h <;> rename_i hc <;> try cases h
    split at h <;> rename_i hl <;> cases h
    exact .advances _ _ (.settle hc hl) (quiet (by simp) (by simp)) rfl rfl rfl

/-- What a miss does: it joins the load in flight, or starts its own. -/
theorem singleFlight_cases (C : Callers ι K R V) (c : ι) (s : Flights ι K V E) :
    (∃ l, s.inFlight (C.key c) = some l ∧
      (C.singleFlight c s).call = Function.update s.call c (.waiting l) ∧
      (C.singleFlight c s).load = s.load ∧ (C.singleFlight c s).inFlight = s.inFlight) ∨
    (s.inFlight (C.key c) = none ∧
      (C.singleFlight c s).call = Function.update s.call c (.waiting c) ∧
      (C.singleFlight c s).load = Function.update s.load c .loading ∧
      (C.singleFlight c s).inFlight = Function.update s.inFlight (C.key c) (some c)) := by
  unfold singleFlight
  cases h : s.inFlight (C.key c) with
  | some l => exact Or.inl ⟨l, rfl, rfl, rfl, rfl⟩
  | none => exact Or.inr ⟨rfl, rfl, rfl, rfl⟩

/-! ## The invariant -/

/-- The map lists the loads in flight; only calls that missed have loads; a waiting call waits for a
load of its key that was started. -/
structure Consistent (C : Callers ι K R V) (s : Flights ι K V E) : Prop where
  entry : ∀ k l, s.inFlight k = some l ↔ C.key l = k ∧ (s.load l).InFlight
  unstarted : ∀ c, (s.call c = .idle ∨ s.call c = .reading ∨ ∃ cached, s.call c = .read cached) →
    s.load c = .idle
  waits : ∀ c l, s.call c = .waiting l → C.key l = C.key c ∧ s.load l ≠ .idle

omit [DecidableEq ι] [DecidableEq K] in
theorem consistent_start (C : Callers ι K R V) : Consistent C (Flights.start : Flights ι K V E) where
  entry k l := by simp [Flights.start, LoadPhase.InFlight]
  unstarted c _ := rfl
  waits c l h := by cases h

omit [DecidableEq ι] [DecidableEq K] in
/-- Who misses has no load yet. -/
theorem Consistent.load_of_misses (h : Consistent C s) {c : ι} (hm : C.Misses s e c) :
    s.load c = .idle := by
  rcases hm with ⟨-, hidle, -⟩ | ⟨-, hread⟩
  · exact h.unstarted c (Or.inl hidle)
  · exact h.unstarted c (Or.inr (Or.inr ⟨_, hread⟩))

omit [DecidableEq K] in
/-- A call that moves to a phase past `read` leaves the others where they were. -/
theorem Consistent.unstarted_update (h : Consistent C s) {c : ι} {phase : CallPhase ι V E}
    (hphase : (phase = .idle ∨ phase = .reading ∨ ∃ cached, phase = .read cached) → s.load c = .idle)
    (c' : ι) (hc' : Function.update s.call c phase c' = .idle ∨
      Function.update s.call c phase c' = .reading ∨
      ∃ cached, Function.update s.call c phase c' = .read cached) : s.load c' = .idle := by
  by_cases hcc : c' = c
  · subst hcc
    rw [Function.update_self] at hc'
    exact hphase hc'
  · rw [Function.update_of_ne hcc] at hc'
    exact h.unstarted c' hc'

omit [DecidableEq K] in
theorem Consistent.waits_update (h : Consistent C s) {c : ι} {phase : CallPhase ι V E}
    (hphase : ∀ l, phase = .waiting l → C.key l = C.key c ∧ s.load l ≠ .idle)
    (c' l : ι) (hc' : Function.update s.call c phase c' = .waiting l) :
    C.key l = C.key c' ∧ s.load l ≠ .idle := by
  by_cases hcc : c' = c
  · subst hcc
    rw [Function.update_self] at hc'
    exact hphase l hc'
  · rw [Function.update_of_ne hcc] at hc'
    exact h.waits c' l hc'

omit [DecidableEq K] in
theorem Consistent.advances (h : Consistent C s) {c : ι} {phase : CallPhase ι V E}
    (hc : Advances C s e c phase) (hcall : t.call = Function.update s.call c phase)
    (hload : t.load = s.load) (hin : t.inFlight = s.inFlight) : Consistent C t where
  entry := by rw [hload, hin]; exact h.entry
  unstarted := by
    rw [hload, hcall]
    refine h.unstarted_update fun hphase => ?_
    cases hc with
    | call hidle => exact h.unstarted c (Or.inl hidle)
    | get hread he => exact h.unstarted c (Or.inr (Or.inl hread))
    | hit hread => simp at hphase
    | settle hwait hl => simp at hphase
  waits := by
    rw [hload, hcall]
    refine h.waits_update fun l hphase => ?_
    cases hc <;> cases hphase

omit [DecidableEq K] in
/-- A call joins a load in flight. -/
theorem Consistent.joins (h : Consistent C s) {c l : ι} (hl : s.inFlight (C.key c) = some l)
    (hcall : t.call = Function.update s.call c (.waiting l)) (hload : t.load = s.load)
    (hin : t.inFlight = s.inFlight) : Consistent C t where
  entry := by rw [hload, hin]; exact h.entry
  unstarted := by
    rw [hload, hcall]
    exact h.unstarted_update fun hphase => by simp at hphase
  waits := by
    rw [hload, hcall]
    refine h.waits_update fun l' hphase => ?_
    cases hphase
    obtain ⟨hkey, hfly⟩ := (h.entry _ _).mp hl
    exact ⟨hkey, hfly.ne_idle⟩

/-- A call starts a load. -/
theorem Consistent.starts (h : Consistent C s) {c : ι} (hidle : s.load c = .idle)
    (hnone : s.inFlight (C.key c) = none)
    (hcall : t.call = Function.update s.call c (.waiting c))
    (hload : t.load = Function.update s.load c .loading)
    (hin : t.inFlight = Function.update s.inFlight (C.key c) (some c)) : Consistent C t where
  entry k l := by
    rw [hin, hload]
    by_cases hl : l = c
    · subst hl
      rw [Function.update_self]
      by_cases hk : k = C.key l
      · subst hk
        rw [Function.update_self]
        exact ⟨fun _ => ⟨rfl, trivial⟩, fun _ => rfl⟩
      · rw [Function.update_of_ne hk]
        exact ⟨fun hs => absurd ((h.entry _ _).mp hs).1.symm hk, fun hs => absurd hs.1.symm hk⟩
    · rw [Function.update_of_ne hl]
      by_cases hk : k = C.key c
      · subst hk
        rw [Function.update_self, ← h.entry, hnone]
        exact ⟨fun hs => absurd (Option.some.inj hs).symm hl, fun hs => by cases hs⟩
      · rw [Function.update_of_ne hk]
        exact h.entry k l
  unstarted c' := by
    rw [hcall, hload]
    intro hc'
    have hcc : c' ≠ c := by
      rintro rfl
      rw [Function.update_self] at hc'
      simp at hc'
    rw [Function.update_of_ne hcc] at hc' ⊢
    exact h.unstarted c' hc'
  waits c' l := by
    rw [hcall, hload]
    intro hc'
    by_cases hl : l = c
    · subst hl
      rw [Function.update_self]
      refine ⟨?_, by simp⟩
      by_cases hcc : c' = l
      · rw [hcc]
      · rw [Function.update_of_ne hcc] at hc'
        exact (h.waits c' l hc').1
    · have hcc : c' ≠ c := by
        rintro rfl
        rw [Function.update_self] at hc'
        cases hc'
        exact hl rfl
      rw [Function.update_of_ne hcc] at hc'
      rw [Function.update_of_ne hl]
      exact h.waits c' l hc'

omit [DecidableEq K] in
/-- A load goes to another phase, in flight or not. -/
theorem Consistent.moves_load (h : Consistent C s) {l : ι} {phase : LoadPhase V E}
    (hl : (s.load l).InFlight) (hphase : phase ≠ .idle) (hcall : t.call = s.call)
    (hload : t.load = Function.update s.load l phase)
    (hentry : ∀ k l', t.inFlight k = some l' ↔ C.key l' = k ∧ (t.load l').InFlight) :
    Consistent C t where
  entry := hentry
  unstarted c' := by
    rw [hcall, hload]
    intro hc'
    have hcl : c' ≠ l := fun hcl => hl.ne_idle (hcl ▸ h.unstarted c' hc')
    rw [Function.update_of_ne hcl]
    exact h.unstarted c' hc'
  waits c' l' := by
    rw [hcall, hload]
    intro hc'
    obtain ⟨hkey, hne⟩ := h.waits c' l' hc'
    refine ⟨hkey, ?_⟩
    by_cases hll : l' = l
    · rw [hll, Function.update_self]
      exact hphase
    · rw [Function.update_of_ne hll]
      exact hne

omit [DecidableEq K] in
theorem Consistent.flies (h : Consistent C s) {l : ι} {phase : LoadPhase V E}
    (hl : (s.load l).InFlight) (hp : phase.InFlight) (hcall : t.call = s.call)
    (hload : t.load = Function.update s.load l phase) (hin : t.inFlight = s.inFlight) :
    Consistent C t := by
  refine h.moves_load hl hp.ne_idle hcall hload fun k l' => ?_
  rw [hin, hload, h.entry]
  by_cases hll : l' = l
  · subst hll
    rw [Function.update_self]
    exact and_congr_right fun _ => iff_of_true hl hp
  · rw [Function.update_of_ne hll]

theorem Consistent.clears (h : Consistent C s) {l : ι} {result : Except E V}
    (hl : s.load l = .completed result) (hcall : t.call = s.call)
    (hload : t.load = Function.update s.load l (.settled result))
    (hin : t.inFlight = Function.update s.inFlight (C.key l) none) : Consistent C t := by
  have hfly : (s.load l).InFlight := by rw [hl]; trivial
  refine h.moves_load hfly (by simp) hcall hload fun k l' => ?_
  have hself := (h.entry _ _).mpr ⟨rfl, hfly⟩
  rw [hin, hload]
  by_cases hk : k = C.key l
  · subst hk
    rw [Function.update_self]
    refine ⟨(fun hs => by cases hs), fun ⟨hkey, hs⟩ => ?_⟩
    -- the entry it deletes is its own
    by_cases hll : l' = l
    · rw [hll, Function.update_self] at hs
      exact hs.elim
    · rw [Function.update_of_ne hll] at hs
      have hother := (h.entry _ _).mpr ⟨hkey, hs⟩
      rw [hself] at hother
      exact absurd (Option.some.inj hother).symm hll
  · rw [Function.update_of_ne hk, h.entry]
    by_cases hll : l' = l
    · subst hll
      exact ⟨fun hs => absurd hs.1.symm hk, fun hs => absurd hs.1.symm hk⟩
    · rw [Function.update_of_ne hll]

theorem Consistent.step (h : Consistent C s) (he : C.step s e = some t) : Consistent C t := by
  cases step_moves he with
  | advances _ _ hc _ hcall hload hin => exact h.advances hc hcall hload hin
  | misses _ hc ht =>
    rw [ht]
    rcases singleFlight_cases C _ s.recordCacheMiss with
      ⟨l, hl, hcall, hload, hin⟩ | ⟨hnone, hcall, hload, hin⟩
    · exact h.joins hl hcall hload hin
    · exact h.starts (h.load_of_misses hc) hnone hcall hload hin
  | flies _ _ hl hp _ _ hcall hload hin => exact h.flies hl hp hcall hload hin
  | clears _ _ hl _ hcall hload hin => exact h.clears hl hcall hload hin

theorem consistent_run {events : List (CacheEvent ι R V E)}
    (h : Machine.run C.step Flights.start events = some s) : Consistent C s :=
  Machine.run_keeps (fun _ _ _ hs he => hs.step he) (consistent_start C) h

/-! ## What a call that missed gets -/

/-- A call that missed shares a load: it waits for it or has its result. -/
def Shares (s : Flights ι K V E) (c l : ι) : Prop :=
  s.call c = .waiting l ∨ ∃ result, s.call c = .settled result ∧ s.load l = .settled result

/-- A settled load stays as it is. -/
theorem Consistent.settled_step (h : Consistent C s) (he : C.step s e = some t) {l : ι}
    {result : Except E V} (hl : s.load l = .settled result) : t.load l = .settled result := by
  have hload : ∀ {l' : ι} {phase : LoadPhase V E}, s.load l' ≠ .settled result →
      t.load = Function.update s.load l' phase → t.load l = .settled result := by
    intro l' phase hne hload
    rw [hload, Function.update_of_ne (fun hll => hne (by rw [← hll, hl])), hl]
  cases step_moves he with
  | advances _ _ _ _ _ hsame _ => rw [hsame, hl]
  | misses _ hc ht =>
    have hidle := h.load_of_misses hc
    rcases singleFlight_cases C _ s.recordCacheMiss with ⟨l', -, -, hsame, -⟩ | ⟨-, -, hnew, -⟩
    · rw [ht, hsame]
      exact hl
    · rw [← ht] at hnew
      exact hload (by rw [hidle]; simp) hnew
  | flies _ _ hfly _ _ _ _ hnew _ =>
    refine hload (fun hs => ?_) hnew
    rw [hs] at hfly
    exact hfly
  | clears _ _ hdone _ _ hnew _ => exact hload (by rw [hdone]; simp) hnew

theorem Consistent.shares_step (h : Consistent C s) (he : C.step s e = some t) {c l : ι}
    (hs : Shares s c l) : Shares t c l := by
  have keep : t.call c = s.call c → Shares t c l := by
    intro hcall
    rcases hs with hwait | ⟨result, hset, hl⟩
    · exact Or.inl (by rw [hcall, hwait])
    · exact Or.inr ⟨result, by rw [hcall, hset], h.settled_step he hl⟩
  cases step_moves he with
  | advances c' phase hc _ hcall hload _ =>
    by_cases hcc : c = c'
    · subst hcc
      -- of the moves of a call only settling starts where the call already shares a load
      rcases hs with hwait | ⟨result, hset, hl⟩
      · cases hc with
        | settle hwait' hl =>
          rw [hwait] at hwait'
          cases hwait'
          exact Or.inr ⟨_, by rw [hcall, Function.update_self], by rw [hload, hl]⟩
        | call h' => rw [hwait] at h'; cases h'
        | get h' => rw [hwait] at h'; cases h'
        | hit h' => rw [hwait] at h'; cases h'
      · cases hc with
        | settle h' => rw [hset] at h'; cases h'
        | call h' => rw [hset] at h'; cases h'
        | get h' => rw [hset] at h'; cases h'
        | hit h' => rw [hset] at h'; cases h'
    · exact keep (by rw [hcall, Function.update_of_ne hcc])
  | misses c' hc ht =>
    have hcc : c ≠ c' := by
      rintro rfl
      rcases hs with hwait | ⟨result, hset, -⟩
      · rcases hc with ⟨-, h', -⟩ | ⟨-, h'⟩ <;> rw [hwait] at h' <;> cases h'
      · rcases hc with ⟨-, h', -⟩ | ⟨-, h'⟩ <;> rw [hset] at h' <;> cases h'
    refine keep ?_
    rcases singleFlight_cases C c' s.recordCacheMiss with ⟨l', -, hcall, -⟩ | ⟨-, hcall, -⟩
    · rw [ht, hcall, Function.update_of_ne hcc]
      rfl
    · rw [ht, hcall, Function.update_of_ne hcc]
      rfl
  | flies _ _ _ _ _ _ hcall _ _ => exact keep (by rw [hcall])
  | clears _ _ _ _ hcall _ _ => exact keep (by rw [hcall])

/-- Who misses shares a load of its key that is in flight, or that it starts. -/
theorem Consistent.shares_of_misses (h : Consistent C s) (he : C.step s e = some t) {c : ι}
    (hm : C.Misses s e c) :
    ∃ l, C.key l = C.key c ∧ ((s.load l).InFlight ∨ s.load l = .idle) ∧ Shares t c l := by
  cases step_moves he with
  | advances _ _ _ quiet _ _ _ => exact absurd hm (quiet c)
  | misses c' hc ht =>
    obtain rfl : c' = c := hc.unique hm
    rcases singleFlight_cases C c' s.recordCacheMiss with ⟨l, hl, hcall, -⟩ | ⟨-, hcall, -⟩
    · obtain ⟨hkey, hfly⟩ := (h.entry _ _).mp hl
      exact ⟨l, hkey, Or.inl hfly, Or.inl (by rw [ht, hcall, Function.update_self])⟩
    · exact ⟨c', rfl, Or.inr (h.load_of_misses hm),
        Or.inl (by rw [ht, hcall, Function.update_self])⟩
  | flies _ _ _ _ _ quiet _ _ _ => exact absurd hm (quiet c)
  | clears _ _ _ quiet _ _ _ => exact absurd hm (quiet c)

/-! ## The next miss -/

/-- A miss on a key. -/
def MissesKey (C : Callers ι K R V) (k : K) (s : Flights ι K V E) (e : CacheEvent ι R V E) : Prop :=
  ∃ c, C.Misses s e c ∧ C.key c = k

/-- Only a miss on a key makes an entry for it. -/
theorem entry_none_step {k : K} (hk : s.inFlight k = none) (hm : ¬ C.MissesKey k s e)
    (he : C.step s e = some t) : t.inFlight k = none := by
  cases step_moves he with
  | advances _ _ _ _ _ _ hin => rw [hin, hk]
  | misses c hc ht =>
    have hne : k ≠ C.key c := fun hkc => hm ⟨c, hc, hkc.symm⟩
    rcases singleFlight_cases C c s.recordCacheMiss with ⟨l, -, -, -, hin⟩ | ⟨-, -, -, hin⟩
    · rw [ht, hin]
      exact hk
    · rw [ht, hin, Function.update_of_ne hne]
      exact hk
  | flies _ _ _ _ _ _ _ _ hin => rw [hin, hk]
  | clears l _ _ _ _ _ hin =>
    rw [hin]
    by_cases hkl : k = C.key l
    · rw [hkl, Function.update_self]
    · rw [Function.update_of_ne hkl, hk]

/-- Where a key has no entry, a miss on it starts a load. -/
theorem Consistent.starts_of_misses (h : Consistent C s) (he : C.step s e = some t) {c : ι}
    (hm : C.Misses s e c) (hk : s.inFlight (C.key c) = none) :
    s.load c = .idle ∧ t.load c = .loading ∧ t.call c = .waiting c := by
  cases step_moves he with
  | advances _ _ _ quiet _ _ _ => exact absurd hm (quiet c)
  | misses c' hc ht =>
    obtain rfl : c' = c := hc.unique hm
    rcases singleFlight_cases C c' s.recordCacheMiss with ⟨l, hl, -⟩ | ⟨-, hcall, hload, -⟩
    · rw [show s.recordCacheMiss.inFlight = s.inFlight from rfl, hk] at hl
      cases hl
    · exact ⟨h.load_of_misses hm, by rw [ht, hload, Function.update_self],
        by rw [ht, hcall, Function.update_self]⟩
  | flies _ _ _ _ _ quiet _ _ _ => exact absurd hm (quiet c)
  | clears _ _ _ quiet _ _ _ => exact absurd hm (quiet c)

/-! ## At rest -/

/-- No microtask is left to run. -/
def AtRest (C : Callers ι K R V) (s : Flights ι K V E) : Prop :=
  ∀ e : CacheEvent ι R V E, e.IsMicrotask → C.step s e = none

/-- At rest a load in flight waits for `load()` or for its cache write. -/
theorem AtRest.inFlight_iff (h : C.AtRest s) (l : ι) :
    (s.load l).InFlight ↔ s.load l = .loading ∨ ∃ value seconds, s.load l = .writing value seconds := by
  constructor
  · intro hfly
    cases hl : s.load l with
    | idle =>
      rw [hl] at hfly
      exact hfly.elim
    | loading => exact Or.inl rfl
    | loaded result =>
      have hnone := h (.afterLoad l 0) trivial
      cases result <;> simp [step, hl] at hnone
    | writing value seconds => exact Or.inr ⟨value, seconds, rfl⟩
    | written value =>
      have hnone := h (.afterWrite l) trivial
      simp [step, hl] at hnone
    | completed result =>
      have hnone := h (.clear l) trivial
      simp [step, hl] at hnone
    | settled result =>
      rw [hl] at hfly
      exact hfly.elim
  · rintro (hl | ⟨value, seconds, hl⟩) <;> rw [hl] <;> trivial

/-! ## Every run -/

/-- Single flight, after the events of a run. -/
structure Exact (C : Callers ι K R V) (events : List (CacheEvent ι R V E)) (s : Flights ι K V E) :
    Prop where
  /-- A key has at most one load in flight. -/
  one : ∀ l l', (s.load l).InFlight → (s.load l').InFlight → C.key l = C.key l' → l = l'
  /-- The map lists the loads in flight. -/
  entry : ∀ k l, s.inFlight k = some l ↔ C.key l = k ∧ (s.load l).InFlight
  /-- Between two turns of the event loop they are those whose `load()` or cache write is pending. -/
  atRest : C.AtRest s → ∀ l, (s.load l).InFlight ↔
    s.load l = .loading ∨ ∃ value seconds, s.load l = .writing value seconds
  /-- A call waits for a load of its key that is in flight or has settled. -/
  waits : ∀ c l, s.call c = .waiting l →
    C.key l = C.key c ∧ ((s.load l).InFlight ∨ ∃ result, s.load l = .settled result)
  /-- Who missed shares a load of its key that was in flight then, or started later. -/
  shares : ∀ before e after u c, events = before ++ e :: after →
    Machine.run C.step Flights.start before = some u → C.Misses u e c →
    ∃ l, C.key l = C.key c ∧ ((u.load l).InFlight ∨ u.load l = .idle) ∧ Shares s c l
  /-- The next miss on the key of a load that has ended starts another one. -/
  restarts : ∀ before l between e after u u' v v' c result,
    events = before ++ .clear l :: (between ++ e :: after) →
    Machine.run C.step Flights.start before = some u → u.load l = .completed result →
    C.step u (.clear l) = some u' →
    Machine.Along C.step (fun s e => ¬ C.MissesKey (C.key l) s e) u' between →
    Machine.run C.step u' between = some v → C.step v e = some v' → C.Misses v e c →
    C.key c = C.key l → v.load c = .idle ∧ v'.load c = .loading ∧ v'.call c = .waiting c

/-- **Single flight is exact** wherever a run is. -/
theorem single_flight (C : Callers ι K R V) {events : List (CacheEvent ι R V E)}
    (h : Machine.run C.step Flights.start events = some s) : C.Exact events s := by
  have hs := consistent_run h
  refine
    { one := fun l l' hl hl' hkey => ?_
      entry := hs.entry
      atRest := fun hrest => hrest.inFlight_iff
      waits := fun c l hwait => ⟨(hs.waits c l hwait).1, LoadPhase.of_ne_idle (hs.waits c l hwait).2⟩
      shares := ?_
      restarts := ?_ }
  · have hentry := (hs.entry _ _).mpr ⟨hkey, hl⟩
    rw [(hs.entry _ _).mpr ⟨rfl, hl'⟩] at hentry
    exact (Option.some.inj hentry).symm
  · intro before e after u c hevents hbefore hm
    rw [hevents] at h
    obtain ⟨u', hu', hrest⟩ := Machine.run_append_some h
    rw [hbefore] at hu'
    cases hu'
    obtain ⟨w, hw, hafter⟩ := Machine.run_cons_some hrest
    have hu := consistent_run hbefore
    obtain ⟨l, hkey, hfly, hshares⟩ := hu.shares_of_misses hw hm
    have hkeeps := Machine.run_keeps (I := fun s => Consistent C s ∧ Shares s c l)
      (fun _ _ _ hs he => ⟨hs.1.step he, hs.1.shares_step he hs.2⟩) ⟨hu.step hw, hshares⟩ hafter
    exact ⟨l, hkey, hfly, hkeeps.2⟩
  · intro before l between e after u u' v v' c result hevents hbefore hdone hclear hquiet hbetween he
      hm hkey
    have hu' := (consistent_run hbefore).step hclear
    have hgone : u'.inFlight (C.key l) = none := by
      simp only [step, hdone, Option.some.injEq] at hclear
      rw [← hclear]
      exact Function.update_self ..
    have hv := Machine.run_keeps_along (I := fun s => Consistent C s ∧ s.inFlight (C.key l) = none)
      (fun _ _ _ hs hm he => ⟨hs.1.step he, entry_none_step hs.2 hm he⟩) ⟨hu', hgone⟩ hquiet hbetween
    exact hv.1.starts_of_misses he hm (by rw [hkey]; exact hv.2)

/-- Two calls for one key and a cache without it. -/
def burst : Callers (Fin 2) String ℕ ℕ :=
  { request := fun _ => { key := "k", ttlSeconds := .ofRat 60 }, schema := some }

/-- The second call misses while the load of the first is on its way. -/
def burstEvents : List (CacheEvent (Fin 2) ℕ ℕ Unit) :=
  [.call 0, .get 0 (.ok none), .afterRead 0, .call 1, .load 0 (.ok 7), .get 1 (.error "timeout"),
    .afterLoad 0 0, .afterRead 1, .set 0 (.ok ()), .afterWrite 0, .clear 0, .settle 0, .settle 1]

theorem single_flight_burst : ∃ s, Machine.run burst.step Flights.start burstEvents = some s ∧
    s.call 1 = .settled (.ok 7) ∧ s.load 1 = .idle ∧ burst.Exact burstEvents s := by
  have hrun : ((Machine.run burst.step Flights.start burstEvents).map fun s => (s.call 1, s.load 1)) =
      some (.settled (.ok 7), .idle) := by decide +kernel
  obtain ⟨s, hs, heq⟩ := Option.map_eq_some_iff.mp hrun
  obtain ⟨hcall, hload⟩ := Prod.mk.inj heq
  exact ⟨s, hs, hcall, hload, single_flight burst hs⟩

end Callers

end AdvancedSearch
