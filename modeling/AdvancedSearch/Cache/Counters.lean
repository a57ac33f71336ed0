import Mathlib.Data.Finset.Card
import AdvancedSearch.Cache.SingleFlight

/-!
# What the cache metrics count

In every order of calls, settlements and microtasks the two counters are the numbers of the calls whose
reads, by the events of the run, gave a value and gave none (`counters_exact`). A call of the first kind
has settled with the value it read, and only the second start loads.
-/

namespace AdvancedSearch

/-- The read of a call is over. -/
def CallPhase.Past {ι V E : Type} : CallPhase ι V E → Prop
  | waiting _ | settled _ => True
  | _ => False

/-- An event of the read of a call. -/
def CacheEvent.ReadOf {ι R V E : Type} (e : CacheEvent ι R V E) (c : ι) : Prop :=
  e = .call c ∨ (∃ answer, e = .get c answer) ∨ e = .afterRead c

namespace Callers

variable {ι K R V E : Type}

section History

variable (C : Callers ι K R V) (events : List (CacheEvent ι R V E)) (c : ι)

/-- `cache.get` answered a call, and this is what the schema makes of it. -/
def Reads (cached : Option V) : Prop :=
  ∃ answer, CacheEvent.get c answer ∈ events ∧ C.readThrough answer = cached

/-- A call went on with a value it read. -/
def HasHit : Prop := .afterRead c ∈ events ∧ ∃ value, C.Reads events c (some value)

/-- A call left the cache alone, or went on with no value. -/
def HasMissed : Prop :=
  .call c ∈ events ∧ C.bypasses c = true ∨ .afterRead c ∈ events ∧ C.Reads events c none

/-- What the events have of a call, by where it is. -/
def Traced : CallPhase ι V E → Prop
  | .idle => .call c ∉ events ∧ (∀ cached, ¬ C.Reads events c cached) ∧ .afterRead c ∉ events
  | .reading =>
    C.bypasses c = false ∧ (∀ cached, ¬ C.Reads events c cached) ∧ .afterRead c ∉ events
  | .read cached =>
    C.bypasses c = false ∧ (∀ cached', C.Reads events c cached' ↔ cached' = cached) ∧
      .afterRead c ∉ events
  | .waiting _ => C.HasMissed events c ∧ ¬ C.HasHit events c
  | .settled result =>
    C.HasMissed events c ∧ ¬ C.HasHit events c ∨
      ¬ C.HasMissed events c ∧ .afterRead c ∈ events ∧
        ∃ value, result = .ok value ∧ C.Reads events c (some value)

end History

variable {C : Callers ι K R V} {past : List (CacheEvent ι R V E)} {e : CacheEvent ι R V E} {c : ι}
  {phase : CallPhase ι V E}

theorem Traced.hit_or_missed (h : C.Traced past c phase) :
    C.HasHit past c ∨ C.HasMissed past c ↔ phase.Past := by
  cases phase with
  | idle =>
    obtain ⟨hcall, -, hafter⟩ := h
    exact iff_of_false (fun hp => hp.elim (fun hh => hafter hh.1) fun hm =>
      hm.elim (fun hm => hcall hm.1) fun hm => hafter hm.1) not_false
  | reading | read =>
    obtain ⟨hbypasses, -, hafter⟩ := h
    refine iff_of_false (fun hp => hp.elim (fun hh => hafter hh.1) fun hm =>
      hm.elim (fun hm => ?_) fun hm => hafter hm.1) not_false
    rw [hbypasses] at hm
    cases hm.2
  | waiting => exact iff_of_true (Or.inr h.1) trivial
  | settled =>
    refine iff_of_true ?_ trivial
    rcases h with h | ⟨-, hafter, value, -, hreads⟩
    · exact Or.inr h.1
    · exact Or.inl ⟨hafter, value, hreads⟩

theorem Traced.apart (h : C.Traced past c phase) (hhit : C.HasHit past c) : ¬ C.HasMissed past c := by
  have hpast := h.hit_or_missed.mp (Or.inl hhit)
  cases phase with
  | waiting => exact absurd hhit h.2
  | settled => exact h.elim (fun h => absurd hhit h.2) fun h => h.1
  | _ => exact hpast.elim

/-- What hit has settled with what it read. -/
theorem Traced.settled_of_hit (h : C.Traced past c phase) (hhit : C.HasHit past c) :
    ∃ value, C.Reads past c (some value) ∧ phase = .settled (.ok value) := by
  have hpast := h.hit_or_missed.mp (Or.inl hhit)
  cases phase with
  | waiting => exact absurd hhit h.2
  | settled =>
    rcases h with h | ⟨-, -, value, rfl, hreads⟩
    · exact absurd hhit h.2
    · exact ⟨value, hreads, rfl⟩
  | _ => exact hpast.elim

/-! ## One more event -/

theorem reads_concat {cached : Option V} :
    C.Reads (past ++ [e]) c cached ↔
      C.Reads past c cached ∨ ∃ answer, e = .get c answer ∧ C.readThrough answer = cached := by
  unfold Reads
  simp only [List.mem_append, List.mem_singleton, or_and_right, exists_or]
  simp only [eq_comm]

theorem reads_of_ne_get (he : ∀ answer, e ≠ .get c answer) {cached : Option V} :
    C.Reads (past ++ [e]) c cached ↔ C.Reads past c cached := by
  rw [reads_concat]
  exact or_iff_left fun ⟨answer, hget, _⟩ => he answer hget

theorem reads_of_not_readOf (he : ¬ e.ReadOf c) {cached : Option V} :
    C.Reads (past ++ [e]) c cached ↔ C.Reads past c cached :=
  reads_of_ne_get fun answer hget => he (Or.inr (Or.inl ⟨answer, hget⟩))

theorem mem_concat_of_ne {e' : CacheEvent ι R V E} (he : e' ≠ e) : e' ∈ past ++ [e] ↔ e' ∈ past := by
  rw [List.mem_append, List.mem_singleton]
  exact or_iff_left he

theorem mem_of_not_readOf (he : ¬ e.ReadOf c) :
    (.call c ∈ past ++ [e] ↔ .call c ∈ past) ∧ (.afterRead c ∈ past ++ [e] ↔ .afterRead c ∈ past) :=
  ⟨mem_concat_of_ne fun hcall => he (Or.inl hcall.symm),
    mem_concat_of_ne fun hafter => he (Or.inr (Or.inr hafter.symm))⟩

/-- An event of no read of a call changes nothing of what is known about it. -/
theorem hasHit_of_not_readOf (he : ¬ e.ReadOf c) : C.HasHit (past ++ [e]) c ↔ C.HasHit past c := by
  unfold HasHit
  simp only [reads_of_not_readOf he, (mem_of_not_readOf he).2]

theorem hasMissed_of_not_readOf (he : ¬ e.ReadOf c) :
    C.HasMissed (past ++ [e]) c ↔ C.HasMissed past c := by
  unfold HasMissed
  simp only [reads_of_not_readOf he, mem_of_not_readOf he]

theorem traced_of_not_readOf (he : ¬ e.ReadOf c) :
    C.Traced (past ++ [e]) c phase ↔ C.Traced past c phase := by
  cases phase with
  | idle | reading | read => simp only [Traced, reads_of_not_readOf he, mem_of_not_readOf he]
  | waiting => simp only [Traced, hasHit_of_not_readOf he, hasMissed_of_not_readOf he]
  | settled =>
    simp only [Traced, hasHit_of_not_readOf he, hasMissed_of_not_readOf he, reads_of_not_readOf he,
      mem_of_not_readOf he]

/-! ## What is counted -/

variable [DecidableEq ι] [DecidableEq K] {s t : Flights ι K V E} {hit missed : Finset ι}

/-- The calls that the two counters stand for. -/
structure Counted (C : Callers ι K R V) (events : List (CacheEvent ι R V E)) (s : Flights ι K V E)
    (hit missed : Finset ι) : Prop where
  hits : s.hits = hit.card
  misses : s.misses = missed.card
  hit_iff : ∀ c, c ∈ hit ↔ C.HasHit events c
  missed_iff : ∀ c, c ∈ missed ↔ C.HasMissed events c
  apart : ∀ c ∈ hit, c ∉ missed
  past : ∀ c, (c ∈ hit ∨ c ∈ missed) ↔ (s.call c).Past
  /-- What hit has settled with the value that it read. -/
  cached : ∀ c ∈ hit, ∃ value, C.Reads events c (some value) ∧ s.call c = .settled (.ok value)
  /-- What missed shares a load of its key. -/
  shares : ∀ c ∈ missed, ∃ l, C.key l = C.key c ∧ Shares s c l
  loads : ∀ l, s.load l ≠ .idle → l ∈ missed

/-- A count, and where each call is. -/
structure Tally (C : Callers ι K R V) (past : List (CacheEvent ι R V E)) (s : Flights ι K V E)
    (hit missed : Finset ι) : Prop where
  traced : ∀ c, C.Traced past c (s.call c)
  hits : s.hits = hit.card
  misses : s.misses = missed.card
  hit_iff : ∀ c, c ∈ hit ↔ C.HasHit past c
  missed_iff : ∀ c, c ∈ missed ↔ C.HasMissed past c
  shares : ∀ c ∈ missed, ∃ l, C.key l = C.key c ∧ Shares s c l
  loads : ∀ l, s.load l ≠ .idle → l ∈ missed

omit [DecidableEq ι] [DecidableEq K] in
theorem Tally.counted (h : Tally C past s hit missed) : Counted C past s hit missed where
  hits := h.hits
  misses := h.misses
  hit_iff := h.hit_iff
  missed_iff := h.missed_iff
  apart c hc := by
    rw [h.missed_iff]
    exact (h.traced c).apart ((h.hit_iff c).mp hc)
  past c := by rw [h.hit_iff, h.missed_iff, (h.traced c).hit_or_missed]
  cached c hc := (h.traced c).settled_of_hit ((h.hit_iff c).mp hc)
  shares := h.shares
  loads := h.loads

omit [DecidableEq ι] [DecidableEq K] in
theorem tally_start (C : Callers ι K R V) : Tally C [] (Flights.start : Flights ι K V E) ∅ ∅ where
  traced _ := ⟨List.not_mem_nil, fun _ ⟨_, h, _⟩ => absurd h List.not_mem_nil, List.not_mem_nil⟩
  hits := rfl
  misses := rfl
  hit_iff c := iff_of_false (Finset.notMem_empty c) fun h => absurd h.1 List.not_mem_nil
  missed_iff c := iff_of_false (Finset.notMem_empty c) fun h =>
    h.elim (fun h => absurd h.1 List.not_mem_nil) fun h => absurd h.1 List.not_mem_nil
  shares _ h := absurd h (Finset.notMem_empty _)
  loads _ h := absurd rfl h

theorem Tally.shares_step (h : Tally C past s hit missed) (hs : Consistent C s) (he : C.step s e = some t) :
    ∀ c ∈ missed, ∃ l, C.key l = C.key c ∧ Shares t c l := by
  intro c hc
  obtain ⟨l, hkey, hl⟩ := h.shares c hc
  exact ⟨l, hkey, hs.shares_step he hl⟩

/-- An event of no read. -/
theorem Tally.same (h : Tally C past s hit missed) (hs : Consistent C s) (he : C.step s e = some t)
    (hread : ∀ c, ¬ e.ReadOf c) (hhits : t.hits = s.hits) (hmisses : t.misses = s.misses)
    (htraced : ∀ c, C.Traced past c (t.call c)) (hload : ∀ l, t.load l ≠ .idle → s.load l ≠ .idle) :
    Tally C (past ++ [e]) t hit missed where
  traced c := (traced_of_not_readOf (hread c)).mpr (htraced c)
  hits := hhits.trans h.hits
  misses := hmisses.trans h.misses
  hit_iff c := (h.hit_iff c).trans (hasHit_of_not_readOf (hread c)).symm
  missed_iff c := (h.missed_iff c).trans (hasMissed_of_not_readOf (hread c)).symm
  shares := h.shares_step hs he
  loads l hl := h.loads l (hload l hl)

/-- A load that was started moves on. -/
theorem Tally.loading (h : Tally C past s hit missed) (hs : Consistent C s) {l : ι}
    (he : C.step s e = some t) (hl : s.load l ≠ .idle) (hread : ∀ c, ¬ e.ReadOf c)
    (hhits : t.hits = s.hits) (hmisses : t.misses = s.misses) (hcall : t.call = s.call)
    {phase : LoadPhase V E} (hload : t.load = Function.update s.load l phase) :
    Tally C (past ++ [e]) t hit missed := by
  refine h.same hs he hread hhits hmisses (fun c => hcall ▸ h.traced c) fun l' hl' => ?_
  rw [hload] at hl'
  by_cases hll : l' = l
  · rwa [hll]
  · rwa [Function.update_of_ne hll] at hl'

omit [DecidableEq ι] [DecidableEq K] in
theorem readOf_unique {c c' : ι} (h : e.ReadOf c) (h' : e.ReadOf c') : c = c' := by
  rcases h with rfl | ⟨_, rfl⟩ | rfl <;> rcases h' with h' | ⟨_, h'⟩ | h' <;> cases h' <;> rfl

/-- An event of the read of one call leaves what is known and counted of the others. -/
theorem Tally.read (h : Tally C past s hit missed) (hs : Consistent C s) (hof : e.ReadOf c)
    (he : C.step s e = some t) (hcall : t.call = Function.update s.call c phase)
    (hc : C.Traced (past ++ [e]) c phase) {hit' missed' : Finset ι} (hhits : t.hits = hit'.card)
    (hmisses : t.misses = missed'.card)
    (hothers : ∀ c' ≠ c, (c' ∈ hit' ↔ c' ∈ hit) ∧ (c' ∈ missed' ↔ c' ∈ missed))
    (hhit : c ∈ hit' ↔ C.HasHit (past ++ [e]) c) (hmissed : c ∈ missed' ↔ C.HasMissed (past ++ [e]) c)
    (hshares : c ∈ missed' → ∃ l, C.key l = C.key c ∧ Shares t c l)
    (hloads : ∀ l, t.load l ≠ .idle → l ∈ missed') : Tally C (past ++ [e]) t hit' missed' := by
  have hrest : ∀ c' ≠ c, ¬ e.ReadOf c' := fun c' hcc hr => hcc (readOf_unique hr hof)
  refine
    { traced := fun c' => ?_
      hits := hhits
      misses := hmisses
      hit_iff := fun c' => ?_
      missed_iff := fun c' => ?_
      shares := fun c' hc' => ?_
      loads := hloads }
  all_goals by_cases hcc : c' = c
  · rwa [hcall, hcc, Function.update_self]
  · rw [hcall, Function.update_of_ne hcc]
    exact (traced_of_not_readOf (hrest c' hcc)).mpr (h.traced c')
  · rwa [hcc]
  · rw [(hothers c' hcc).1, h.hit_iff, hasHit_of_not_readOf (hrest c' hcc)]
  · rwa [hcc]
  · rw [(hothers c' hcc).2, h.missed_iff, hasMissed_of_not_readOf (hrest c' hcc)]
  · rw [hcc] at hc' ⊢
    exact hshares hc'
  · exact h.shares_step hs he c' ((hothers c' hcc).2.mp hc')

omit [DecidableEq ι] [DecidableEq K] in
/-- A call that is still reading is not counted. -/
theorem Tally.uncounted (h : Tally C past s hit missed) (hopen : ¬ (s.call c).Past) :
    c ∉ hit ∧ c ∉ missed := by
  rw [h.hit_iff, h.missed_iff, ← not_or]
  exact mt (h.traced c).hit_or_missed.mp hopen

/-- A read goes on. -/
theorem Tally.reading (h : Tally C past s hit missed) (hs : Consistent C s) (hof : e.ReadOf c)
    (he : C.step s e = some (s.setCall c phase)) (hopen : ¬ (s.call c).Past) (hphase : ¬ phase.Past)
    (hc : C.Traced (past ++ [e]) c phase) : Tally C (past ++ [e]) (s.setCall c phase) hit missed := by
  obtain ⟨hhit, hmissed⟩ := h.uncounted hopen
  have hafter := mt hc.hit_or_missed.mp hphase
  rw [not_or] at hafter
  exact h.read hs hof he rfl hc h.hits h.misses (fun _ _ => ⟨Iff.rfl, Iff.rfl⟩)
    (iff_of_false hhit hafter.1) (iff_of_false hmissed hafter.2) (fun hm => absurd hm hmissed) h.loads

/-- A hit. -/
theorem Tally.hits_step (h : Tally C past s hit missed) (hs : Consistent C s) {cached : V}
    (hread : s.call c = .read (some cached))
    (he : C.step s (.afterRead c) = some (s.recordCacheHit.setCall c (.settled (.ok cached)))) :
    Tally C (past ++ [.afterRead c]) (s.recordCacheHit.setCall c (.settled (.ok cached))) (insert c hit)
      missed := by
  obtain ⟨hnot, hbefore⟩ := h.uncounted (c := c) (by rw [hread]; exact not_false)
  have htraced := h.traced c
  rw [hread] at htraced
  obtain ⟨hbypasses, hreads, -⟩ := htraced
  have hreads' : ∀ value, C.Reads (past ++ [.afterRead c]) c value ↔ value = some cached := by
    intro value
    rw [reads_of_ne_get (by simp), hreads value]
  have hmem : CacheEvent.afterRead c ∈ past ++ [.afterRead c] :=
    List.mem_append_right _ (List.mem_singleton_self _)
  have hmissed : ¬ C.HasMissed (past ++ [.afterRead c]) c := by
    rintro (⟨-, hb⟩ | ⟨-, hnone⟩)
    · rw [hbypasses] at hb
      cases hb
    · cases (hreads' _).mp hnone
  refine h.read hs (Or.inr (Or.inr rfl)) he rfl
    (Or.inr ⟨hmissed, hmem, cached, rfl, (hreads' _).mpr rfl⟩) ?_ h.misses
    (fun c' hcc => ⟨Finset.mem_insert.trans (or_iff_right hcc), Iff.rfl⟩)
    (iff_of_true (Finset.mem_insert_self c hit) ⟨hmem, cached, (hreads' _).mpr rfl⟩)
    (iff_of_false hbefore hmissed) (fun hm => absurd hm hbefore) h.loads
  rw [Finset.card_insert_of_notMem hnot, ← h.hits]
  rfl

omit [DecidableEq ι] [DecidableEq K] in
/-- What the events have of a call that misses. -/
theorem Tally.hasMissed (h : Tally C past s hit missed) (hm : C.Misses s e c) :
    e.ReadOf c ∧ C.HasMissed (past ++ [e]) c ∧ ¬ C.HasHit (past ++ [e]) c := by
  have htraced := h.traced c
  rcases hm with ⟨rfl, hidle, hbypasses⟩ | ⟨rfl, hread⟩
  · rw [hidle] at htraced
    refine ⟨Or.inl rfl, Or.inl ⟨List.mem_append_right _ (List.mem_singleton_self _), hbypasses⟩, ?_⟩
    rintro ⟨hafter, -⟩
    exact htraced.2.2 ((mem_concat_of_ne (by simp)).mp hafter)
  · rw [hread] at htraced
    have hreads : ∀ value, C.Reads (past ++ [.afterRead c]) c value ↔ value = none := by
      intro value
      rw [reads_of_ne_get (by simp), htraced.2.1 value]
    refine ⟨Or.inr (Or.inr rfl), Or.inr ⟨List.mem_append_right _ (List.mem_singleton_self _),
      (hreads _).mpr rfl⟩, ?_⟩
    rintro ⟨-, value, hvalue⟩
    cases (hreads _).mp hvalue

/-- A miss. -/
theorem Tally.misses_step (h : Tally C past s hit missed) (hs : Consistent C s) (hm : C.Misses s e c)
    (he : C.step s e = some (C.singleFlight c s.recordCacheMiss)) :
    Tally C (past ++ [e]) (C.singleFlight c s.recordCacheMiss) hit (insert c missed) := by
  obtain ⟨hof, hmissed, hhit⟩ := h.hasMissed hm
  obtain ⟨hnot, hbefore⟩ := h.uncounted (c := c) (by
    rcases hm with ⟨-, hidle, -⟩ | ⟨-, hread⟩
    · rw [hidle]
      exact not_false
    · rw [hread]
      exact not_false)
  have hcounts : (C.singleFlight c s.recordCacheMiss).hits = s.hits ∧
      (C.singleFlight c s.recordCacheMiss).misses = s.misses + 1 := by
    unfold singleFlight
    split
    · exact ⟨rfl, rfl⟩
    · exact ⟨rfl, rfl⟩
  obtain ⟨l, hcall, hload⟩ : ∃ l, (C.singleFlight c s.recordCacheMiss).call =
      Function.update s.call c (.waiting l) ∧ ∀ l', (C.singleFlight c s.recordCacheMiss).load l' ≠ .idle →
        l' = c ∨ s.load l' ≠ .idle := by
    rcases singleFlight_cases C c s.recordCacheMiss with ⟨l, -, hcall, hload, -⟩ | ⟨-, hcall, hload, -⟩
    · refine ⟨l, hcall, fun l' hl' => Or.inr ?_⟩
      rwa [hload] at hl'
    · refine ⟨c, hcall, fun l' hl' => ?_⟩
      by_cases hlc : l' = c
      · exact Or.inl hlc
      · rw [hload, Function.update_of_ne hlc] at hl'
        exact Or.inr hl'
  refine h.read hs hof he hcall ⟨hmissed, hhit⟩ (hcounts.1.trans h.hits) ?_
    (fun c' hcc => ⟨Iff.rfl, Finset.mem_insert.trans (or_iff_right hcc)⟩) (iff_of_false hnot hhit)
    (iff_of_true (Finset.mem_insert_self c missed) hmissed) (fun _ => ?_)
    fun l' hl' => Finset.mem_insert.mpr ((hload l' hl').imp_right (h.loads l'))
  · rw [Finset.card_insert_of_notMem hbefore, ← h.misses, hcounts.2]
  · obtain ⟨l', hkey, -, hshares⟩ := hs.shares_of_misses he hm
    exact ⟨l', hkey, hshares⟩

/-- One event. -/
theorem Tally.step (h : Tally C past s hit missed) (hs : Consistent C s) (he : C.step s e = some t) :
    ∃ hit' missed', Tally C (past ++ [e]) t hit' missed' := by
  have hstep := he
  cases e with
  | call c =>
    have hof : (CacheEvent.call c : CacheEvent ι R V E).ReadOf c := Or.inl rfl
    simp only [Callers.step] at he
    split at he <;> try cases he
    next hidle =>
      split at he <;> cases he
      next hb => exact ⟨_, _, h.misses_step hs (Or.inl ⟨rfl, hidle, hb⟩) hstep⟩
      next hb =>
        have htraced := h.traced c
        rw [hidle] at htraced
        refine ⟨_, _, h.reading hs hof hstep (by rw [hidle]; exact not_false) not_false
          ⟨Bool.eq_false_iff.mpr hb, fun cached => ?_, fun hafter => ?_⟩⟩
        · rw [reads_of_ne_get (by simp)]
          exact htraced.2.1 cached
        · exact htraced.2.2 ((mem_concat_of_ne (by simp)).mp hafter)
  | get c answer =>
    have hof : (CacheEvent.get c answer : CacheEvent ι R V E).ReadOf c := Or.inr (Or.inl ⟨answer, rfl⟩)
    simp only [Callers.step] at he
    split at he <;> cases he
    next hreading =>
      have htraced := h.traced c
      rw [hreading] at htraced
      refine ⟨_, _, h.reading hs hof hstep (by rw [hreading]; exact not_false) not_false
        ⟨htraced.1, fun cached => ?_, fun hafter => ?_⟩⟩
      · rw [reads_concat, or_iff_right (htraced.2.1 cached)]
        constructor
        · rintro ⟨_, hget, rfl⟩
          cases hget
          rfl
        · rintro rfl
          exact ⟨answer, rfl, rfl⟩
      · exact htraced.2.2 ((mem_concat_of_ne (by simp)).mp hafter)
  | afterRead c =>
    simp only [Callers.step] at he
    split at he <;> cases he
    next hread => exact ⟨_, _, h.hits_step hs hread hstep⟩
    next hread => exact ⟨_, _, h.misses_step hs (Or.inr ⟨rfl, hread⟩) hstep⟩
  | settle c =>
    simp only [Callers.step] at he
    split at he <;> try cases he
    next hwait =>
      split at he <;> cases he
      refine ⟨_, _, h.same hs hstep (by simp [CacheEvent.ReadOf]) rfl rfl (fun c' => ?_) fun l hl => hl⟩
      show C.Traced past c' (Function.update s.call c _ c')
      by_cases hcc : c' = c
      · have htraced := h.traced c
        rw [hwait] at htraced
        rw [hcc, Function.update_self]
        exact Or.inl htraced
      · rw [Function.update_of_ne hcc]
        exact h.traced c'
  | load l | afterLoad l | set l | afterWrite l | clear l =>
    simp only [Callers.step] at he
    split at he <;> cases he
    all_goals
      next hl =>
        exact ⟨_, _, h.loading hs hstep (l := l) (by simp [hl]) (by simp [CacheEvent.ReadOf]) rfl rfl rfl
          rfl⟩

/-- **The counters are exact.** After the events of any run, `hits` and `misses` are the numbers of the
calls that went on with a value read from the cache, and of those that left it alone or went on without
one: two disjoint sets, which together are the calls whose read is over. A call of the first has settled
with the value it read, one of the second shares a load of its key, and every load was started by a call
of the second. -/
theorem counters_exact (C : Callers ι K R V) {events : List (CacheEvent ι R V E)}
    (h : Machine.run C.step Flights.start events = some s) :
    ∃ hit missed, Counted C events s hit missed := by
  obtain ⟨-, hit, missed, htally⟩ := Machine.run_keeps_past
    (I := fun past (s : Flights ι K V E) => Consistent C s ∧ ∃ hit missed, Tally C past s hit missed)
    ⟨consistent_start C, _, _, tally_start C⟩
    (fun past u e t hu he => ⟨hu.1.step he, by
      obtain ⟨hit, missed, htally⟩ := hu.2
      exact htally.step hu.1 he⟩) h
  exact ⟨hit, missed, htally.counted⟩

/-- A call that finds its value and one that does not: a hit and a miss. -/
theorem counters_exact_burst : ∃ s hit missed,
    Machine.run burst.step Flights.start
      [.call 0, .get 0 (.ok (some 5)), .call 1, .get 1 (.ok none), .afterRead 1, .afterRead 0] = some s ∧
    s.hits = 1 ∧ s.misses = 1 ∧ Counted (E := Unit) burst
      [.call 0, .get 0 (.ok (some 5)), .call 1, .get 1 (.ok none), .afterRead 1, .afterRead 0] s hit
      missed := by
  have hrun : ((Machine.run burst.step Flights.start
      [.call 0, .get 0 (.ok (some 5)), .call 1, .get 1 (.ok none), .afterRead 1, .afterRead 0]).map
        fun s : Flights (Fin 2) String ℕ Unit => (s.hits, s.misses)) = some (1, 1) := by decide +kernel
  obtain ⟨s, hs, heq⟩ := Option.map_eq_some_iff.mp hrun
  obtain ⟨hhits, hmisses⟩ := Prod.mk.inj heq
  obtain ⟨hit, missed, hcounted⟩ := counters_exact burst hs
  exact ⟨s, hit, missed, hs, hhits, hmisses, hcounted⟩

end Callers

end AdvancedSearch
