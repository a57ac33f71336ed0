import AdvancedSearch.Cache.Payload
import AdvancedSearch.Cache.Transparent
import AdvancedSearch.Lib.Counts

/-!
# A cache that fails open

A call of `cacheAside` alone, whatever its cache and its load answer: it settles with the payload of the
cache or exactly as its load does, and what it calls on the way is fixed (`fails_open`). Its run passes
through ten stages (`Lone`), one event apart.
-/

namespace AdvancedSearch

open Js

/-! ## Expiry -/

theorem JITTER_bounds : 0 ≤ JITTER ∧ JITTER ≤ 1 / 8 := by
  have hle := nearestDouble_le_two_pow (q := 1 / 10) (k := -3) (by norm_num) (by norm_num)
  exact ⟨nearestDouble_nonneg (by norm_num), hle.trans (by norm_num)⟩

/-- The factor that `withJitter` draws. -/
def spread (random : ℚ) : ℚ :=
  nearestDouble (1 + nearestDouble (nearestDouble (nearestDouble (random * 2) - 1) * JITTER))

theorem spread_bounds {random : ℚ} (h0 : 0 ≤ random) (h1 : random < 1) :
    1 / 2 ≤ spread random ∧ spread random ≤ 2 := by
  have htwice : |nearestDouble (random * 2) - 1| ≤ 1 := by
    have hle := nearestDouble_le_two_pow (q := random * 2) (k := 1) (by norm_num) (by linarith)
    have hnonneg := nearestDouble_nonneg (q := random * 2) (by linarith)
    rw [zpow_one] at hle
    exact abs_le.mpr ⟨by linarith, by linarith⟩
  have hcentred : |nearestDouble (nearestDouble (random * 2) - 1)| ≤ 1 := by
    have hle := abs_nearestDouble_le_two_pow (k := 0) (by norm_num) (by rwa [zpow_zero])
    rwa [zpow_zero] at hle
  have hsmall : |nearestDouble (nearestDouble (random * 2) - 1) * JITTER| ≤ 2 ^ (-3 : ℤ) := by
    obtain ⟨hnonneg, hle⟩ := JITTER_bounds
    rw [abs_mul, abs_of_nonneg hnonneg]
    calc _ ≤ 1 * (1 / 8) := mul_le_mul hcentred hle hnonneg zero_le_one
      _ = 2 ^ (-3 : ℤ) := by norm_num
  have hoffset := abs_le.mp (abs_nearestDouble_le_two_pow (by norm_num) hsmall)
  have heighth : (2 : ℚ) ^ (-3 : ℤ) = 1 / 8 := by norm_num
  rw [heighth] at hoffset
  unfold spread
  constructor
  · have hle := two_pow_le_nearestDouble (k := -1) (q := 1 + nearestDouble
      (nearestDouble (nearestDouble (random * 2) - 1) * JITTER)) (by norm_num) (by norm_num; linarith)
    exact le_trans (by norm_num) hle
  · have hle := nearestDouble_le_two_pow (k := 1) (q := 1 + nearestDouble
      (nearestDouble (nearestDouble (random * 2) - 1) * JITTER)) (by norm_num) (by norm_num; linarith)
    exact hle.trans (by norm_num)

/-- What is rounded from below `2 ^ 1023` is finite. -/
theorem ofRat_of_le {q : ℚ} (h0 : 0 ≤ q) (h : q ≤ 2 ^ (1023 : ℤ)) :
    ∃ x : Double, Number.ofRat q = .finite x ∧ x.value = nearestDouble q ∧ 0 ≤ x.value ∧
      x.value ≤ 2 ^ (1023 : ℤ) := by
  have hnonneg := nearestDouble_nonneg h0
  have hle := nearestDouble_le_two_pow (by norm_num) h
  have hfinite : |nearestDouble q| < 2 ^ 1024 := by
    rw [abs_of_nonneg hnonneg, ← zpow_natCast]
    exact hle.trans_lt (zpow_lt_zpow_right₀ (by norm_num) (by norm_num))
  exact ⟨⟨nearestDouble q, nearestDouble_idem q, hfinite⟩, dif_pos hfinite, rfl, hnonneg, hle⟩

theorem withJitter_of_pos {ttl : Double} (hpos : 0 < ttl.value) (random : ℚ) :
    withJitter (.finite ttl) random = (((Number.finite ttl).mul (spread random)).round).max 1 := by
  unfold withJitter
  rw [show (Number.finite ttl).isAtMostZero = false from decide_eq_false (not_le.mpr hpos),
    if_neg Bool.false_ne_true]
  rfl

/-- A TTL stretched by at most two is a whole number of seconds, at least one. -/
theorem stretched_seconds {ttl : Double} (hpos : 0 < ttl.value) (hmax : ttl.value ≤ 2 ^ 1022)
    {factor : ℚ} (h0 : 0 ≤ factor) (h2 : factor ≤ 2) :
    ∃ seconds : Double, (((Number.finite ttl).mul factor).round).max 1 = .finite seconds ∧
      seconds.value.den = 1 ∧ 1 ≤ seconds.value := by
  have hproduct : ttl.value * factor ≤ 2 ^ (1023 : ℤ) := by
    calc ttl.value * factor ≤ 2 ^ 1022 * 2 :=
          mul_le_mul hmax h2 h0 (pow_nonneg (by norm_num) _)
      _ = 2 ^ (1023 : ℤ) := by rw [← pow_succ, ← zpow_natCast]; rfl
  obtain ⟨x, hx, -, hxnonneg, hxle⟩ := ofRat_of_le (mul_nonneg hpos.le h0) hproduct
  have hround : (⌊x.value + 1 / 2⌋ : ℚ) ≤ 2 ^ (1023 : ℤ) := by
    have hnat : (2 : ℚ) ^ (1023 : ℤ) = ((2 ^ 1023 : ℤ) : ℚ) := by
      rw [Int.cast_pow, Int.cast_ofNat, ← zpow_natCast]
      rfl
    rw [hnat] at hxle ⊢
    have hlt : ⌊x.value + 1 / 2⌋ < 2 ^ 1023 + 1 := by
      rw [Int.floor_lt, Int.cast_add, Int.cast_one]
      linarith
    exact_mod_cast Int.lt_add_one_iff.mp hlt
  obtain ⟨y, hy, hyvalue, -, -⟩ := ofRat_of_le
    (by exact_mod_cast Int.floor_nonneg.mpr (by linarith : (0 : ℚ) ≤ x.value + 1 / 2)) hround
  obtain ⟨seconds, hseconds⟩ := exists_nearestDouble_intCast ⌊x.value + 1 / 2⌋
  rw [show (Number.finite ttl).mul factor = .finite x from hx]
  show ∃ seconds : Double, (Number.ofRat ⌊x.value + 1 / 2⌋).max 1 = .finite seconds ∧ _
  rw [hy]
  show ∃ seconds : Double, (if y.value ≤ 1 then Number.ofRat 1 else .finite y) = .finite seconds ∧ _
  split_ifs with hone
  · exact ⟨Number.one, Number.ofRat_value Number.one, rfl, le_rfl⟩
  · refine ⟨y, rfl, ?_, (not_le.mp hone).le⟩
    rw [hyvalue, hseconds]
    rfl

/-- A positive TTL becomes a whole number of seconds, at least one. -/
theorem withJitter_seconds {ttl : Double} (hpos : 0 < ttl.value) (hmax : ttl.value ≤ 2 ^ 1022)
    {random : ℚ} (h0 : 0 ≤ random) (h1 : random < 1) :
    (withJitter (.finite ttl) random).isInteger ∧
      Number.lt (withJitter (.finite ttl) random) (.ofRat 1) = false := by
  obtain ⟨hlower, hupper⟩ := spread_bounds h0 h1
  obtain ⟨seconds, hseconds, hwhole, hone⟩ :=
    stretched_seconds hpos hmax (le_trans (by norm_num) hlower) hupper
  rw [withJitter_of_pos hpos, hseconds]
  refine ⟨decide_eq_true hwhole, ?_⟩
  rw [show Number.ofRat 1 = .finite Number.one from Number.ofRat_value Number.one, Number.lt_finite]
  exact decide_eq_false (not_lt.mpr hone)

/-! ## What is called -/

/-- What `cacheAside` calls: its cache, its load and its metrics. -/
inductive CacheCall (V : Type) where
  | get
  | load
  | set (value : V) (seconds : Number)
  | recordCacheHit
  | recordCacheMiss
  deriving DecidableEq

/-- A read of the cache is pending. -/
def CallPhase.calls {ι V E : Type} : CallPhase ι V E → List (CacheCall V)
  | reading => [.get]
  | _ => []

/-- `load()` or a write to the cache is pending. -/
def LoadPhase.calls {V E : Type} : LoadPhase V E → List (CacheCall V)
  | loading => [.load]
  | writing value seconds => [.set value seconds]
  | _ => []

namespace Flights

section

variable {ι K V E : Type} [DecidableEq ι] (s : Flights ι K V E)

@[simp] theorem setCall_self (c : ι) (phase : CallPhase ι V E) : (s.setCall c phase).call c = phase :=
  Function.update_self ..

@[simp] theorem setLoad_self (l : ι) (phase : LoadPhase V E) : (s.setLoad l phase).load l = phase :=
  Function.update_self ..

omit [DecidableEq ι] in
@[simp] theorem setInFlight_self [DecidableEq K] (key : K) (entry : Option ι) :
    (s.setInFlight key entry).inFlight key = entry := Function.update_self ..

end

variable {ι K V E : Type} (s t : Flights ι K V E) (c : ι)

/-- What was called on the way to the next state: what has been counted and what is pending now, where
nothing was pending before. -/
def begun : List (CacheCall V) :=
  List.replicate (t.hits - s.hits) .recordCacheHit ++
    List.replicate (t.misses - s.misses) .recordCacheMiss ++
    (if (s.call c).calls.isEmpty then (t.call c).calls else []) ++
    (if (s.load c).calls.isEmpty then (t.load c).calls else [])

end Flights

namespace Callers

variable {K R V E : Type} [DecidableEq K]

section

variable {ι : Type} [DecidableEq ι] (C : Callers ι K R V)

/-- What a run calls for one call of `cacheAside` and its load. -/
def trace (c : ι) : Flights ι K V E → List (CacheEvent ι R V E) → List (CacheCall V)
  | _, [] => []
  | s, e :: events =>
    match C.step s e with
    | some t => s.begun t c ++ trace c t events
    | none => []

theorem trace_append {c : ι} {s t u : Flights ι K V E} {events : List (CacheEvent ι R V E)}
    {e : CacheEvent ι R V E} (h : Machine.run C.step s events = some t) (he : C.step t e = some u) :
    C.trace c s (events ++ [e]) = C.trace c s events ++ t.begun u c := by
  induction events generalizing s with
  | nil =>
    cases h
    show (match C.step t e with | some u => t.begun u c ++ C.trace c u [] | none => []) = _
    rw [he]
    exact List.append_nil _
  | cons first events ih =>
    obtain ⟨v, hv, hrest⟩ := Machine.run_cons_some h
    show (match C.step s first with
      | some t => s.begun t c ++ C.trace c t (events ++ [e]) | none => []) =
        (match C.step s first with | some t => s.begun t c ++ C.trace c t events | none => []) ++ _
    rw [hv]
    dsimp only
    rw [ih hrest, List.append_assoc]

end

/-! ## A call alone -/

variable {C : Callers Unit K R V}

/-- Where the one call, its load and its entry in `inFlight` are. -/
structure At (C : Callers Unit K R V) (s : Flights Unit K V E) (call : CallPhase Unit V E)
    (load : LoadPhase V E) (entry : Option Unit) : Prop where
  call : s.call () = call
  load : s.load () = load
  entry : s.inFlight (C.key ()) = entry

/-- From a load that settled to the end of its wrapper: the events and what they call. -/
inductive Done (C : Callers Unit K R V) :
    Except E V → List (CacheEvent Unit R V E) → List (CacheCall V) → Prop
  | error (e : E) (random : ℚ) : Done C (.error e) [.load () (.error e), .afterLoad () random] []
  | ok (value : V) (random : ℚ) (written : Except String Unit) :
    Done C (.ok value) [.load () (.ok value), .afterLoad () random, .set () written, .afterWrite ()]
      [.set value (withJitter (C.request ()).ttlSeconds random)]

/-- The events of a read that did not find the value. -/
def missed (answer : Except String (Option R)) : List (CacheEvent Unit R V E) :=
  [.call (), .get () answer, .afterRead ()]

/-- What was called until `load()` is pending. -/
def fetch : List (CacheCall V) := [.get, .recordCacheMiss, .load]

/-- The stages of a call alone: the events so far and what they called. -/
inductive Lone (C : Callers Unit K R V) (s : Flights Unit K V E) :
    List (CacheEvent Unit R V E) → List (CacheCall V) → Prop
  | idle (h : At C s .idle .idle none) : Lone C s [] []
  | reading (h : At C s .reading .idle none) : Lone C s [.call ()] [.get]
  | read (answer : Except String (Option R)) (h : At C s (.read (C.readThrough answer)) .idle none) :
    Lone C s [.call (), .get () answer] [.get]
  | hit (answer : Except String (Option R)) (value : V) (hread : C.readThrough answer = some value)
    (h : At C s (.settled (.ok value)) .idle none) :
    Lone C s [.call (), .get () answer, .afterRead ()] [.get, .recordCacheHit]
  | loading (answer : Except String (Option R)) (hmiss : C.readThrough answer = none)
    (h : At C s (.waiting ()) .loading (some ())) : Lone C s (missed answer) fetch
  | loaded (answer : Except String (Option R)) (hmiss : C.readThrough answer = none)
    (result : Except E V) (h : At C s (.waiting ()) (.loaded result) (some ())) :
    Lone C s (missed answer ++ [.load () result]) fetch
  | writing (answer : Except String (Option R)) (hmiss : C.readThrough answer = none) (value : V)
    (random : ℚ) (h : At C s (.waiting ())
      (.writing value (withJitter (C.request ()).ttlSeconds random)) (some ())) :
    Lone C s (missed answer ++ [.load () (.ok value), .afterLoad () random])
      (fetch ++ [.set value (withJitter (C.request ()).ttlSeconds random)])
  | written (answer : Except String (Option R)) (hmiss : C.readThrough answer = none) (value : V)
    (random : ℚ) (written : Except String Unit) (h : At C s (.waiting ()) (.written value) (some ())) :
    Lone C s (missed answer ++ [.load () (.ok value), .afterLoad () random, .set () written])
      (fetch ++ [.set value (withJitter (C.request ()).ttlSeconds random)])
  | completed (answer : Except String (Option R)) (hmiss : C.readThrough answer = none)
    (result : Except E V) (events : List (CacheEvent Unit R V E)) (calls : List (CacheCall V))
    (hdone : Done C result events calls) (h : At C s (.waiting ()) (.completed result) (some ())) :
    Lone C s (missed answer ++ events) (fetch ++ calls)
  | cleared (answer : Except String (Option R)) (hmiss : C.readThrough answer = none)
    (result : Except E V) (events : List (CacheEvent Unit R V E)) (calls : List (CacheCall V))
    (hdone : Done C result events calls) (h : At C s (.waiting ()) (.settled result) none) :
    Lone C s (missed answer ++ events ++ [.clear ()]) (fetch ++ calls)
  | settled (answer : Except String (Option R)) (hmiss : C.readThrough answer = none)
    (result : Except E V) (events : List (CacheEvent Unit R V E)) (calls : List (CacheCall V))
    (hdone : Done C result events calls) (h : At C s (.settled result) (.settled result) none) :
    Lone C s (missed answer ++ events ++ [.clear (), .settle ()]) (fetch ++ calls)

variable {s t : Flights Unit K V E} {past : List (CacheEvent Unit R V E)} {calls : List (CacheCall V)}
  {e : CacheEvent Unit R V E}

omit [DecidableEq K] in
theorem At.begun {call call' : CallPhase Unit V E} {load load' : LoadPhase V E}
    {entry entry' : Option Unit} (h : At C s call load entry) (h' : At C t call' load' entry') {m n : ℕ}
    (hhits : t.hits = s.hits + m) (hmisses : t.misses = s.misses + n) :
    s.begun t () = List.replicate m .recordCacheHit ++ List.replicate n .recordCacheMiss ++
      (if call.calls.isEmpty then call'.calls else []) ++
      (if load.calls.isEmpty then load'.calls else []) := by
  unfold Flights.begun
  rw [h.call, h.load, h'.call, h'.load, hhits, hmisses, Nat.add_sub_cancel_left, Nat.add_sub_cancel_left]

/-- A call alone finds nothing in flight and starts its load. -/
theorem At.singleFlight {call : CallPhase Unit V E} (h : At C s call .idle none) :
    At C (C.singleFlight () s.recordCacheMiss) (.waiting ()) .loading (some ()) ∧
      (C.singleFlight () s.recordCacheMiss).hits = s.hits ∧
      (C.singleFlight () s.recordCacheMiss).misses = s.misses + 1 := by
  have hentry : s.recordCacheMiss.inFlight (C.key ()) = none := h.entry
  unfold Callers.singleFlight
  rw [hentry]
  dsimp only
  exact ⟨⟨Flights.setCall_self .., Flights.setLoad_self s.recordCacheMiss () .loading,
    Flights.setInFlight_self (s.recordCacheMiss.setLoad () .loading) (C.key ()) (some ())⟩, rfl, rfl⟩

/-- From stage to stage. -/
theorem Lone.step (hpositive : C.bypasses () = false) (h : Lone C s past calls)
    (he : C.step s e = some t) : Lone C t (past ++ [e]) (calls ++ s.begun t ()) := by
  cases h with
  | idle h =>
    cases e with
    | call c =>
      simp only [Callers.step, h.call, hpositive, Bool.false_eq_true, if_false, Option.some.injEq] at he
      subst he
      have hnew : At C (s.setCall () .reading) .reading .idle none :=
        ⟨Flights.setCall_self .., h.load, h.entry⟩
      rw [h.begun hnew (m := 0) (n := 0) rfl rfl]
      exact .reading hnew
    | _ => simp [Callers.step, h.call, h.load] at he
  | reading h =>
    cases e with
    | get c answer =>
      simp only [Callers.step, h.call, Option.some.injEq] at he
      subst he
      have hnew : At C (s.setCall () (.read (C.readThrough answer))) (.read (C.readThrough answer))
          .idle none := ⟨Flights.setCall_self .., h.load, h.entry⟩
      rw [h.begun hnew (m := 0) (n := 0) rfl rfl]
      exact .read answer hnew
    | _ => simp [Callers.step, h.call, h.load] at he
  | read answer h =>
    cases e with
    | afterRead c =>
      cases hread : C.readThrough answer with
      | none =>
        simp only [Callers.step, h.call, hread, Option.some.injEq] at he
        subst he
        obtain ⟨hnew, hhits, hmisses⟩ := h.singleFlight
        rw [h.begun hnew (m := 0) (n := 1) hhits hmisses]
        exact .loading answer hread hnew
      | some value =>
        simp only [Callers.step, h.call, hread, Option.some.injEq] at he
        subst he
        have hnew : At C (s.recordCacheHit.setCall () (.settled (.ok value)))
            (.settled (.ok value)) .idle none := ⟨Flights.setCall_self .., h.load, h.entry⟩
        rw [h.begun hnew (m := 1) (n := 0) rfl rfl]
        exact .hit answer value hread hnew
    | _ => simp [Callers.step, h.call, h.load] at he
  | hit answer value hread h => cases e <;> simp [Callers.step, h.call, h.load] at he
  | loading answer hmiss h =>
    cases e with
    | load c result =>
      simp only [Callers.step, h.load, hpositive, Bool.false_eq_true, if_false, Option.some.injEq] at he
      subst he
      have hnew : At C (s.setLoad () (.loaded result)) (.waiting ()) (.loaded result) (some ()) :=
        ⟨h.call, Flights.setLoad_self .., h.entry⟩
      rw [h.begun hnew (m := 0) (n := 0) rfl rfl]
      exact .loaded answer hmiss result hnew
    | _ => simp [Callers.step, h.call, h.load] at he
  | loaded answer hmiss result h =>
    cases e with
    | afterLoad c random =>
      cases result with
      | ok value =>
        simp only [Callers.step, h.load, Option.some.injEq] at he
        subst he
        have hnew : At C (s.setLoad () (.writing value (withJitter (C.request ()).ttlSeconds random)))
            (.waiting ()) (.writing value (withJitter (C.request ()).ttlSeconds random)) (some ()) :=
          ⟨h.call, Flights.setLoad_self .., h.entry⟩
        rw [h.begun hnew (m := 0) (n := 0) rfl rfl]
        exact .writing answer hmiss value random hnew
      | error error =>
        simp only [Callers.step, h.load, Option.some.injEq] at he
        subst he
        have hnew : At C (s.setLoad () (.completed (.error error))) (.waiting ())
            (.completed (.error error)) (some ()) := ⟨h.call, Flights.setLoad_self .., h.entry⟩
        rw [h.begun hnew (m := 0) (n := 0) rfl rfl]
        exact .completed answer hmiss (.error error) _ _ (.error error random) hnew
    | _ => simp [Callers.step, h.call, h.load] at he
  | writing answer hmiss value random h =>
    cases e with
    | set c written =>
      simp only [Callers.step, h.load, Option.some.injEq] at he
      subst he
      have hnew : At C (s.setLoad () (.written value)) (.waiting ()) (.written value) (some ()) :=
        ⟨h.call, Flights.setLoad_self .., h.entry⟩
      rw [h.begun hnew (m := 0) (n := 0) rfl rfl]
      exact .written answer hmiss value random written hnew
    | _ => simp [Callers.step, h.call, h.load] at he
  | written answer hmiss value random written h =>
    cases e with
    | afterWrite c =>
      simp only [Callers.step, h.load, Option.some.injEq] at he
      subst he
      have hnew : At C (s.setLoad () (.completed (.ok value))) (.waiting ()) (.completed (.ok value))
          (some ()) := ⟨h.call, Flights.setLoad_self .., h.entry⟩
      rw [h.begun hnew (m := 0) (n := 0) rfl rfl]
      exact .completed answer hmiss (.ok value) _ _ (.ok value random written) hnew
    | _ => simp [Callers.step, h.call, h.load] at he
  | completed answer hmiss result events calls hdone h =>
    cases e with
    | clear c =>
      simp only [Callers.step, h.load, Option.some.injEq] at he
      subst he
      have hnew : At C ((s.setInFlight (C.key ()) none).setLoad () (.settled result)) (.waiting ())
          (.settled result) none :=
        ⟨h.call, Flights.setLoad_self .., Flights.setInFlight_self s (C.key ()) none⟩
      rw [h.begun hnew (m := 0) (n := 0) rfl rfl]
      have hstage := Lone.cleared answer hmiss result events calls hdone hnew
      rwa [← List.append_nil (fetch ++ calls)] at hstage
    | _ => simp [Callers.step, h.call, h.load] at he
  | cleared answer hmiss result events calls hdone h =>
    cases e with
    | settle c =>
      simp only [Callers.step, h.call, h.load, Option.some.injEq] at he
      subst he
      have hnew : At C (s.setCall () (.settled result)) (.settled result) (.settled result) none :=
        ⟨Flights.setCall_self .., h.load, h.entry⟩
      rw [h.begun hnew (m := 0) (n := 0) rfl rfl]
      have hstage := Lone.settled answer hmiss result events calls hdone hnew
      rw [← List.append_nil (fetch ++ calls)] at hstage
      rwa [List.append_assoc (missed answer ++ events)]
    | _ => simp [Callers.step, h.call, h.load] at he
  | settled answer hmiss result events calls hdone h =>
    cases e <;> simp [Callers.step, h.call, h.load] at he

/-- A run of a call alone is at one of its stages. -/
theorem lone_run (hpositive : C.bypasses () = false) {events : List (CacheEvent Unit R V E)}
    (h : Machine.run C.step Flights.start events = some s) :
    Lone C s events (C.trace () Flights.start events) := by
  induction events using List.reverseRecOn generalizing s with
  | nil =>
    cases h
    exact .idle ⟨rfl, rfl, rfl⟩
  | append_singleton events e ih =>
    obtain ⟨u, hu, he⟩ := Machine.run_snoc_some h
    rw [trace_append C hu he]
    exact (ih hu).step hpositive he

/-- What can happen to a call alone, given what its cache and its load answer. -/
def replies (answer : Except String (Option R)) (result : Except E V) (random : ℚ)
    (written : Except String Unit) : List (CacheEvent Unit R V E) :=
  [.call (), .get () answer, .afterRead (), .load () result, .afterLoad () random, .set () written,
    .afterWrite (), .clear (), .settle ()]

/-- Until the call settles, something can happen whatever is answered. -/
theorem Lone.goesOn (hpositive : C.bypasses () = false) (h : Lone C s past calls) :
    (∃ result, s.call () = .settled result) ∨ ∀ answer result random written,
      ∃ e ∈ (replies answer result random written : List (CacheEvent Unit R V E)),
        (C.step s e).isSome := by
  refine or_iff_not_imp_left.mpr fun hgoing answer result random written => ?_
  cases h with
  | idle h => exact ⟨.call (), by simp [replies], by simp [Callers.step, h.call, hpositive]⟩
  | reading h => exact ⟨.get () answer, by simp [replies], by simp [Callers.step, h.call]⟩
  | read found h =>
    refine ⟨.afterRead (), by simp [replies], ?_⟩
    cases hread : C.readThrough found <;> simp [Callers.step, h.call, hread]
  | hit _ value _ h => exact absurd ⟨.ok value, h.call⟩ hgoing
  | loading _ _ h => exact ⟨.load () result, by simp [replies], by simp [Callers.step, h.load]⟩
  | loaded _ _ loaded h =>
    refine ⟨.afterLoad () random, by simp [replies], ?_⟩
    cases loaded <;> simp [Callers.step, h.load]
  | writing _ _ _ _ h => exact ⟨.set () written, by simp [replies], by simp [Callers.step, h.load]⟩
  | written _ _ _ _ _ h => exact ⟨.afterWrite (), by simp [replies], by simp [Callers.step, h.load]⟩
  | completed _ _ _ _ _ _ h => exact ⟨.clear (), by simp [replies], by simp [Callers.step, h.load]⟩
  | cleared _ _ _ _ _ _ h =>
    exact ⟨.settle (), by simp [replies], by simp [Callers.step, h.call, h.load]⟩
  | settled _ _ result _ _ _ h => exact absurd ⟨result, h.call⟩ hgoing

/-- A cache that fails open, after some events of a call alone. -/
structure FailsOpen (C : Callers Unit K R V) (events : List (CacheEvent Unit R V E))
    (s : Flights Unit K V E) : Prop where
  /-- Nine events at most, -/
  ends : events.length ≤ 9
  /-- and until it settles the next one can happen, whatever cache and load answer. -/
  goesOn : (∃ result, s.call () = .settled result) ∨ ∀ answer result random written,
    ∃ e ∈ (replies answer result random written : List (CacheEvent Unit R V E)), (C.step s e).isSome
  /-- The call settles with what the schema makes of the payload and nothing is loaded, or else exactly
  as its one load did; one hit or one miss is recorded. -/
  settles : ∀ result, s.call () = .settled result →
    ∃ answer, (∀ found, .get () found ∈ events ↔ found = answer) ∧
      ((∃ raw value, answer = .ok (some raw) ∧ C.schema raw = some value ∧ result = .ok value ∧
          C.trace () Flights.start events = [.get, .recordCacheHit]) ∨
        (∀ raw, answer = .ok (some raw) → C.schema raw = none) ∧
          (∀ loaded, .load () loaded ∈ events ↔ loaded = result) ∧
          ((∃ value seconds, result = .ok value ∧
              C.trace () Flights.start events = [.get, .recordCacheMiss, .load, .set value seconds]) ∨
            (∃ error, result = .error error ∧
              C.trace () Flights.start events = [.get, .recordCacheMiss, .load])))
  /-- What is written is what the load has resolved with, for a whole number of seconds. -/
  writes : ∀ value seconds, .set value seconds ∈ C.trace () Flights.start events →
    .load () (.ok value) ∈ events ∧
      ∀ ttl : Double, (C.request ()).ttlSeconds = .finite ttl → ttl.value ≤ 2 ^ 1022 →
        seconds.isInteger ∧ Number.lt seconds (.ofRat 1) = false

omit [DecidableEq K] in
theorem bypasses_of_positive (hpositive : Number.lt (.ofRat 0) (C.request ()).ttlSeconds) :
    C.bypasses () = false := by
  unfold bypasses
  rw [Number.ofRat_zero] at hpositive
  cases httl : (C.request ()).ttlSeconds with
  | nan => rfl
  | infinity neg =>
    rw [httl] at hpositive
    cases neg
    · rfl
    · cases hpositive
  | finite ttl =>
    rw [httl, Number.lt_finite, decide_eq_true_eq] at hpositive
    exact decide_eq_false (not_le.mpr hpositive)

omit [DecidableEq K] in
theorem Done.events_length {result : Except E V} {events : List (CacheEvent Unit R V E)}
    (h : Done C result events calls) : events.length ≤ 4 := by
  cases h <;> simp

omit [DecidableEq K] in
/-- A load that is done has answered once, and was written as it answered. -/
theorem Done.answered {result : Except E V} {events : List (CacheEvent Unit R V E)}
    (h : Done C result events calls) :
    (∀ found, .get () found ∉ events) ∧ (∀ loaded, .load () loaded ∈ events ↔ loaded = result) ∧
      ((∃ value seconds, result = .ok value ∧ calls = [.set value seconds]) ∨
        ∃ error, result = .error error ∧ calls = []) := by
  cases h with
  | error error random =>
    exact ⟨by simp, by simp, Or.inr ⟨error, rfl, rfl⟩⟩
  | ok value random written =>
    exact ⟨by simp, by simp, Or.inl ⟨value, _, rfl, rfl⟩⟩

theorem set_mem_fetch {value stored : V} {seconds written : Number}
    (h : .set value seconds ∈ (fetch ++ [.set stored written] : List (CacheCall V))) :
    stored = value ∧ written = seconds := by
  simp only [fetch, List.cons_append, List.nil_append, List.mem_cons, reduceCtorEq, false_or,
    List.not_mem_nil, or_false, CacheCall.set.injEq] at h
  exact ⟨h.1.symm, h.2.symm⟩

/-- A write is of what the load resolved with, for the jittered TTL. -/
def WritesLoaded (C : Callers Unit K R V) (past : List (CacheEvent Unit R V E)) (value : V)
    (seconds : Number) : Prop :=
  .load () (.ok value) ∈ past ∧ ∃ random, .afterLoad () random ∈ past ∧
    seconds = withJitter (C.request ()).ttlSeconds random

omit [DecidableEq K] in
theorem WritesLoaded.mono {more : List (CacheEvent Unit R V E)} {value : V} {seconds : Number}
    (h : WritesLoaded C past value seconds) (hsub : past ⊆ more) : WritesLoaded C more value seconds :=
  ⟨hsub h.1, h.2.imp fun _ hrandom => ⟨hsub hrandom.1, hrandom.2⟩⟩

omit [DecidableEq K] in
theorem Done.writes {result : Except E V} {events : List (CacheEvent Unit R V E)}
    (h : Done C result events calls) {value : V} {seconds : Number}
    (hset : .set value seconds ∈ (fetch ++ calls : List (CacheCall V))) :
    WritesLoaded C events value seconds := by
  cases h with
  | error error random => simp [fetch] at hset
  | ok stored random written =>
    obtain ⟨rfl, rfl⟩ := set_mem_fetch hset
    exact ⟨by simp, random, by simp, rfl⟩

omit [DecidableEq K] in
theorem Lone.writes (h : Lone C s past calls) {value : V} {seconds : Number}
    (hset : .set value seconds ∈ calls) : WritesLoaded C past value seconds := by
  cases h with
  | idle => simp at hset
  | reading => simp at hset
  | read => simp at hset
  | hit => simp at hset
  | loading => simp [fetch] at hset
  | loaded => simp [fetch] at hset
  | writing _ _ stored random _ =>
    obtain ⟨rfl, rfl⟩ := set_mem_fetch hset
    exact ⟨by simp, random, by simp, rfl⟩
  | written _ _ stored random _ _ =>
    obtain ⟨rfl, rfl⟩ := set_mem_fetch hset
    exact ⟨by simp, random, by simp, rfl⟩
  | completed answer _ _ _ _ hdone _ => exact (hdone.writes hset).mono (List.subset_append_right _ _)
  | cleared answer _ _ _ _ hdone _ =>
    exact (hdone.writes hset).mono fun e he =>
      List.mem_append_left _ (List.mem_append_right _ he)
  | settled answer _ _ _ _ hdone _ =>
    exact (hdone.writes hset).mono fun e he =>
      List.mem_append_left _ (List.mem_append_right _ he)

omit [DecidableEq K] in
theorem Lone.length_le (h : Lone C s past calls) : past.length ≤ 9 := by
  have hdone : ∀ {result : Except E V} {events : List (CacheEvent Unit R V E)}
      {calls : List (CacheCall V)} {answer : Except String (Option R)},
      Done C result events calls → (missed answer ++ events).length ≤ 7 := by
    intro result events calls answer h
    have hlength := h.events_length
    rw [List.length_append]
    simp only [missed, List.length_cons, List.length_nil]
    omega
  cases h with
  | completed _ _ _ events _ h _ => exact (hdone h).trans (by norm_num)
  | cleared answer _ _ events _ h _ =>
    have hlength : (missed answer ++ events).length ≤ 7 := hdone h
    rw [List.length_append]
    simp only [List.length_cons, List.length_nil]
    omega
  | settled answer _ _ events _ h _ =>
    have hlength : (missed answer ++ events).length ≤ 7 := hdone h
    rw [List.length_append]
    simp only [List.length_cons, List.length_nil]
    omega
  | _ => simp [missed]

/-- **A cache that fails open.** Whatever `cache.get`, `load` and `cache.set` answer, and wherever the
run of a call alone is. -/
theorem fails_open (C : Callers Unit K R V) (hpositive : Number.lt (.ofRat 0) (C.request ()).ttlSeconds)
    {events : List (CacheEvent Unit R V E)}
    (hrandom : ∀ random, .afterLoad () random ∈ events → 0 ≤ random ∧ random < 1)
    (h : Machine.run C.step Flights.start events = some s) : FailsOpen C events s := by
  have hbypasses := bypasses_of_positive hpositive
  have hlone := lone_run hbypasses h
  refine ⟨hlone.length_le, hlone.goesOn hbypasses, fun result hsettled => ?_, ?_⟩
  · generalize C.trace () Flights.start events = calls at hlone
    cases hlone with
    | hit answer value hread hat =>
      rw [hat.call] at hsettled
      cases hsettled
      obtain ⟨raw, hraw, hschema⟩ := readThrough_eq_some hread
      exact ⟨answer, by simp, Or.inl ⟨raw, value, hraw, hschema, rfl, rfl⟩⟩
    | settled answer hmiss loaded events calls hdone hat =>
      rw [hat.call] at hsettled
      cases hsettled
      obtain ⟨hget, hload, hcalls⟩ := hdone.answered
      refine ⟨answer, fun found => ?_, Or.inr ⟨readThrough_eq_none hmiss, fun loaded => ?_, ?_⟩⟩
      · simp [missed, hget]
      · simp [missed, hload]
      · rcases hcalls with ⟨value, seconds, hresult, rfl⟩ | ⟨error, hresult, rfl⟩
        · exact Or.inl ⟨value, seconds, hresult, rfl⟩
        · exact Or.inr ⟨error, hresult, rfl⟩
    | _ =>
      rename_i hat
      rw [hat.call] at hsettled
      cases hsettled
  · intro value seconds hset
    obtain ⟨hload, random, hdrawn, rfl⟩ := hlone.writes hset
    refine ⟨hload, fun ttl httl hmax => ?_⟩
    obtain ⟨h0, h1⟩ := hrandom random hdrawn
    rw [httl, Number.ofRat_zero, Number.lt_finite, decide_eq_true_eq] at hpositive
    rw [httl]
    exact withJitter_seconds hpositive hmax h0 h1

/-- A search that finds nothing. -/
def nothingFound : SearchOutcome where
  items := []
  total := .ofRat 0
  facets := { categories := [], subcategories := [], locations := [], priceRanges := [] }
  suggestions := { didYouMean := none, related := [] }

/-- A search alone, its entry cut short and Redis gone when it is written again. -/
def corrupt : Callers Unit String Json SearchOutcome :=
  { request := fun _ => { key := "search:v1", ttlSeconds := .ofRat (300 : ℕ) }
    schema := searchOutcomeSchema }

def corruptEvents : List (CacheEvent Unit Json SearchOutcome String) :=
  [.call (), .get () (RedisCacheAdapter.get (.ok (some "[1,"))), .afterRead (),
    .load () (.ok nothingFound), .afterLoad () (1 / 2), .set () (.error "ECONNREFUSED"),
    .afterWrite (), .clear (), .settle ()]

theorem fails_open_corrupt : ∃ s, Machine.run corrupt.step Flights.start corruptEvents = some s ∧
    s.call () = .settled (.ok nothingFound) ∧ corrupt.FailsOpen corruptEvents s := by
  have hrun : ((Machine.run corrupt.step Flights.start corruptEvents).map fun s => s.call ()) =
      some (.settled (.ok nothingFound)) := by decide +kernel
  have hpositive : Number.lt (.ofRat 0) (corrupt.request ()).ttlSeconds := by decide +kernel
  have hrandom : ∀ random, .afterLoad () random ∈ corruptEvents → 0 ≤ random ∧ random < 1 := by
    intro random h
    simp [corruptEvents] at h
    rw [h]
    norm_num
  obtain ⟨s, hs, hcall⟩ := Option.map_eq_some_iff.mp hrun
  exact ⟨s, hs, hcall, fails_open corrupt hpositive hrandom hs⟩

end Callers

end AdvancedSearch
