import Mathlib.Data.List.Basic
import Mathlib.Logic.Function.Basic
import AdvancedSearch.Lib.Service

/-!
# Fixed-window counters

One counter per key. A hit opens a window when none is open and else is counted in the open one. Times
are integers, and a window is open before its end.
-/

namespace FixedWindow

/-- A window and the hits counted in it. -/
structure Window where
  count : ℕ
  ends : ℤ
  deriving DecidableEq

/-- What a hit is answered: the count it brought its window to, and what remains of the window. -/
structure Reading where
  count : ℕ
  remaining : ℤ
  deriving DecidableEq

/-- The window that is open at a time. -/
def openAt (w : Option Window) (now : ℤ) : Option Window := w.filter fun w => now < w.ends

/-- A hit on one counter. -/
def tick (w : Option Window) (now length : ℤ) : Reading × Option Window :=
  match openAt w now with
  | none => (⟨1, length⟩, some ⟨1, now + length⟩)
  | some w => (⟨w.count + 1, w.ends - now⟩, some ⟨w.count + 1, w.ends⟩)

structure Hit (κ : Type) where
  now : ℤ
  key : κ
  length : ℤ
  deriving DecidableEq

abbrev Counters (κ : Type) := κ → Option Window

variable {κ : Type}

def start : Counters κ := fun _ => none

section

variable [DecidableEq κ]

def hit (s : Counters κ) (h : Hit κ) : Reading × Counters κ :=
  let (reading, w) := tick (s h.key) h.now h.length
  (reading, Function.update s h.key w)

end

/-! ## One hit -/

variable {w v : Option Window} {now later length : ℤ}

theorem openAt_of_lt {v : Window} (h : now < v.ends) : openAt (some v) now = some v := by
  simp [openAt, Option.filter, h]

theorem openAt_of_le {v : Window} (h : v.ends ≤ now) : openAt (some v) now = none := by
  simp [openAt, Option.filter, h]

/-- Every counter is empty, has an open window or a closed one. -/
theorem openAt_cases (w : Option Window) (now : ℤ) :
    w = none ∨ (∃ v : Window, w = some v ∧ now < v.ends) ∨ ∃ v : Window, w = some v ∧ v.ends ≤ now := by
  cases w with
  | none => exact Or.inl rfl
  | some v =>
    rcases lt_or_ge now v.ends with h | h
    · exact Or.inr (Or.inl ⟨v, rfl, h⟩)
    · exact Or.inr (Or.inr ⟨v, rfl, h⟩)

theorem tick_none : tick none now length = (⟨1, length⟩, some ⟨1, now + length⟩) := rfl

theorem tick_open {v : Window} (h : now < v.ends) :
    tick (some v) now length = (⟨v.count + 1, v.ends - now⟩, some ⟨v.count + 1, v.ends⟩) := by
  unfold tick
  rw [openAt_of_lt h]

theorem tick_closed {v : Window} (h : v.ends ≤ now) :
    tick (some v) now length = tick none now length := by
  unfold tick
  rw [openAt_of_le h]
  rfl

/-- Where no window is open, a hit opens one. -/
theorem tick_fresh (h : w = none ∨ ∃ v : Window, w = some v ∧ v.ends ≤ now) :
    tick w now length = (⟨1, length⟩, some ⟨1, now + length⟩) := by
  rcases h with rfl | ⟨v, rfl, hv⟩
  · rfl
  · exact tick_closed hv

/-- A hit sees of a counter what is open. -/
theorem tick_openAt : tick (openAt w now) now length = tick w now length := by
  rcases openAt_cases w now with rfl | ⟨v, rfl, h⟩ | ⟨v, rfl, h⟩
  · rfl
  · rw [openAt_of_lt h]
  · rw [openAt_of_le h, tick_closed h]

/-- What is open later was open before. -/
theorem openAt_openAt (h : now ≤ later) : openAt (openAt w now) later = openAt w later := by
  rcases openAt_cases w now with rfl | ⟨v, rfl, hv⟩ | ⟨v, rfl, hv⟩
  · rfl
  · rw [openAt_of_lt hv]
  · rw [openAt_of_le hv, openAt_of_le (le_trans hv h)]
    rfl

theorem openAt_eq_of_le (h : now ≤ later) (heq : openAt w now = openAt v now) :
    openAt w later = openAt v later := by
  rw [← openAt_openAt h, heq, openAt_openAt h]

/-- How many hits the open window has counted. -/
def countedAt (w : Option Window) (now : ℤ) : ℕ := ((openAt w now).map Window.count).getD 0

/-- A hit is answered the count it has raised by one. -/
theorem countedAt_tick (w : Option Window) (now : ℤ) (hlength : 0 < length) :
    countedAt (tick w now length).2 now = countedAt w now + 1 ∧
      (tick w now length).1.count = countedAt w now + 1 := by
  unfold countedAt
  rcases openAt_cases w now with rfl | ⟨v, rfl, h⟩ | ⟨v, rfl, h⟩
  · rw [tick_none, openAt_of_lt (show now < now + length by omega)]
    exact ⟨rfl, rfl⟩
  · rw [tick_open h, openAt_of_lt h, openAt_of_lt (v := ⟨v.count + 1, v.ends⟩) h]
    exact ⟨rfl, rfl⟩
  · rw [tick_closed h, tick_none, openAt_of_le h, openAt_of_lt (show now < now + length by omega)]
    exact ⟨rfl, rfl⟩

/-! ## Other keys -/

section

variable [DecidableEq κ] {s : Counters κ}

theorem hit_self {h : Hit κ} : (hit s h).2 h.key = (tick (s h.key) h.now h.length).2 :=
  Function.update_self _ _ _

theorem hit_of_ne {h : Hit κ} {key : κ} (hne : key ≠ h.key) : (hit s h).2 key = s key :=
  Function.update_of_ne hne _ _

/-- One counter, whatever the key of a hit. -/
def tickHit (w : Option Window) (h : Hit κ) : Reading × Option Window := tick w h.now h.length

/-- A key's answers are those of its own counter alone. -/
theorem transcript_key (s : Counters κ) (hits : List (Hit κ)) (key : κ) :
    (Service.transcript hit s hits).filter (fun p => p.1.key = key) =
      Service.transcript tickHit (s key) (hits.filter fun h => h.key = key) := by
  induction hits generalizing s with
  | nil => rfl
  | cons h hits ih =>
    rw [Service.transcript_cons]
    by_cases hkey : h.key = key
    · subst hkey
      rw [List.filter_cons_of_pos (by simp), List.filter_cons_of_pos (by simp), ih, hit_self]
      rfl
    · rw [List.filter_cons_of_neg (by simpa using hkey), List.filter_cons_of_neg (by simpa using hkey), ih,
        hit_of_ne (Ne.symm hkey)]

/-- Hits on other keys do not change a key's answers. -/
theorem transcript_filter_key (s : Counters κ) (hits : List (Hit κ)) (key : κ) :
    (Service.transcript hit s hits).filter (fun p => p.1.key = key) =
      Service.transcript hit s (hits.filter fun h => h.key = key) := by
  have hself := transcript_key s (hits.filter fun h => h.key = key) key
  rw [List.filter_filter] at hself
  simp only [Bool.and_self] at hself
  rw [transcript_key, ← hself, List.filter_eq_self]
  intro p hp
  exact (List.mem_filter.mp (Service.call_mem_of_mem hp)).2

end

/-! ## Hits on an open window -/

/-- A count past one is that of a window that was open. -/
theorem tick_past {limit : ℕ} (hlimit : 1 ≤ limit) (h : limit < (tick w now length).1.count) :
    ∃ v : Window, w = some v ∧ now < v.ends ∧
      tick w now length = (⟨v.count + 1, v.ends - now⟩, some ⟨v.count + 1, v.ends⟩) := by
  rcases openAt_cases w now with rfl | ⟨v, rfl, hv⟩ | ⟨v, rfl, hv⟩
  · rw [tick_none] at h
    dsimp only at h
    omega
  · exact ⟨v, rfl, hv, tick_open hv⟩
  · rw [tick_closed hv, tick_none] at h
    dsimp only at h
    omega

section

variable [DecidableEq κ]

/-- A key's counter is moved by the hits on the key alone. -/
theorem after_key (s : Counters κ) (hits : List (Hit κ)) (key : κ) :
    Service.after hit s hits key = Service.after tickHit (s key) (hits.filter fun h => h.key = key) := by
  induction hits generalizing s with
  | nil => rfl
  | cons h hits ih =>
    rw [Service.after_cons, ih]
    by_cases hkey : h.key = key
    · subst hkey
      rw [List.filter_cons_of_pos (by simp), Service.after_cons, hit_self]
      rfl
    · rw [List.filter_cons_of_neg (by simpa using hkey), hit_of_ne (Ne.symm hkey)]

end

/-- Hits before its end leave a window open, and raise its count. -/
theorem after_tickHit_open {v : Window} {hits : List (Hit κ)} (h : ∀ g ∈ hits, g.now < v.ends) :
    Service.after tickHit (some v) hits = some ⟨v.count + hits.length, v.ends⟩ := by
  induction hits generalizing v with
  | nil => rfl
  | cons g hits ih =>
    rw [Service.after_cons]
    unfold tickHit
    rw [tick_open (h g List.mem_cons_self)]
    have hrest := ih (v := ⟨v.count + 1, v.ends⟩) fun g' hg' => h g' (List.mem_cons_of_mem g hg')
    unfold tickHit at hrest
    rw [hrest, List.length_cons, Nat.add_right_comm]
    rfl

/-! ## How many hits a limit lets through -/

/-- How many hits within `limit` an interval `[from_, from_ + length)` can still see. -/
def room (limit : ℕ) (from_ length : ℤ) : Option Window → ℕ
  | none => 2 * limit - 1
  | some w =>
    if w.ends ≤ from_ then 2 * limit - 1
    else if w.ends < from_ + length then limit - w.count + limit
    else limit - w.count

/-- A hit in the interval and within the limit takes some of the room. -/
theorem room_tick (limit : ℕ) {from_ : ℤ} (w : Option Window) (hlength : 0 < length)
    (hnow : now < from_ + length) :
    room limit from_ length (tick w now length).2 +
        (if from_ ≤ now ∧ (tick w now length).1.count ≤ limit then 1 else 0) ≤
      room limit from_ length w := by
  have hfresh (v : Option Window) (hv : v = none ∨ ∃ u : Window, v = some u ∧ u.ends ≤ now) :
      room limit from_ length (some ⟨1, now + length⟩) + (if from_ ≤ now ∧ 1 ≤ limit then 1 else 0) ≤
        room limit from_ length v := by
    rcases hv with rfl | ⟨u, rfl, hu⟩ <;> unfold room <;> dsimp only <;> split_ifs <;> omega
  rcases openAt_cases w now with rfl | ⟨v, rfl, h⟩ | ⟨v, rfl, h⟩
  · rw [tick_none]
    exact hfresh none (Or.inl rfl)
  · rw [tick_open h]
    unfold room
    dsimp only
    split_ifs <;> omega
  · rw [tick_closed h, tick_none]
    exact hfresh (some v) (Or.inr ⟨v, rfl, h⟩)

/-- What is left of the room after the hit that opens a window at the start of the interval. -/
theorem room_opened (limit : ℕ) (from_ : ℤ) (hlength : 0 < length) :
    room limit from_ length (some ⟨1, from_ + length⟩) = limit - 1 := by
  unfold room
  dsimp only
  rw [if_neg (by omega), if_neg (by omega)]

/-! ## Hits of one length on one counter -/

/-- One counter, hit at a time. -/
def tickAt (length : ℤ) (w : Option Window) (now : ℤ) : Reading × Option Window := tick w now length

/-- What has been counted is in the last window or in one that ended before it. -/
def Covers (w : Option Window) (now : ℤ) : Prop := ∃ v : Window, w = some v ∧ 0 < v.count ∧ now < v.ends

theorem covers_tick (hlength : 0 < length) :
    Covers (tick w now length).2 now := by
  rcases openAt_cases w now with rfl | ⟨v, rfl, h⟩ | ⟨v, rfl, h⟩
  · exact ⟨_, rfl, Nat.one_pos, show now < now + length by omega⟩
  · rw [tick_open h]
    exact ⟨_, rfl, Nat.succ_pos v.count, h⟩
  · rw [tick_closed h]
    exact ⟨_, rfl, Nat.one_pos, show now < now + length by omega⟩

/-- A later hit does not uncover what is covered. -/
theorem Covers.tick (hw : Covers w now) (hlength : 0 < length) (hle : now ≤ later) :
    Covers (tick w later length).2 now := by
  obtain ⟨v, rfl, hcount, hends⟩ := hw
  rcases lt_or_ge later v.ends with h | h
  · rw [tick_open h]
    exact ⟨_, rfl, Nat.succ_pos v.count, hends⟩
  · rw [tick_closed h]
    exact ⟨_, rfl, Nat.one_pos, show now < later + length by omega⟩

theorem Covers.after {times : List ℤ} (hw : Covers w now) (hlength : 0 < length)
    (hle : ∀ t ∈ times, now ≤ t) : Covers (Service.after (tickAt length) w times) now := by
  induction times generalizing w with
  | nil => exact hw
  | cons t times ih =>
    exact ih (hw.tick hlength (hle t List.mem_cons_self)) fun u hu => hle u (List.mem_cons_of_mem t hu)

/-- Every hit that was counted is covered. -/
theorem covers_after {times : List ℤ} (hlength : 0 < length) (hclock : times.Pairwise (· ≤ ·)) :
    ∀ t ∈ times, Covers (Service.after (tickAt length) w times) t := by
  induction times generalizing w with
  | nil => exact fun t ht => absurd ht List.not_mem_nil
  | cons t times ih =>
    obtain ⟨hfirst, hrest⟩ := List.pairwise_cons.mp hclock
    intro u hu
    rcases List.mem_cons.mp hu with rfl | hu
    · exact (covers_tick hlength).after hlength hfirst
    · exact ih hrest u hu

/-- A window opens after every hit that was counted. -/
theorem Covers.lt_of_opens {t : ℤ} (hw : Covers w t)
    (hopens : (FixedWindow.tick w now length).1.count = 1) :
    t < now := by
  obtain ⟨v, rfl, hcount, hends⟩ := hw
  rcases lt_or_ge now v.ends with h | h
  · rw [tick_open h] at hopens
    dsimp only at hopens
    omega
  · omega

/-- A hit that is counted as the first one opens a window. -/
theorem tick_of_opens (hw : ∀ v, w = some v → 0 < v.count)
    (hopens : (FixedWindow.tick w now length).1.count = 1) :
    (FixedWindow.tick w now length).2 = some ⟨1, now + length⟩ := by
  rcases openAt_cases w now with rfl | ⟨v, rfl, h⟩ | ⟨v, rfl, h⟩
  · rfl
  · have hcount := hw v rfl
    rw [tick_open h] at hopens
    dsimp only at hopens
    omega
  · rw [tick_closed h]
    rfl

theorem count_pos_tick : ∀ v, (tick w now length).2 = some v → 0 < v.count := by
  intro v hv
  rcases openAt_cases w now with rfl | ⟨u, rfl, h⟩ | ⟨u, rfl, h⟩
  · cases hv
    exact Nat.one_pos
  · rw [tick_open h] at hv
    cases hv
    exact Nat.succ_pos u.count
  · rw [tick_closed h] at hv
    cases hv
    exact Nat.one_pos

/-- The hits of an interval that a limit lets through. -/
def lets (limit : ℕ) (from_ length : ℤ) (p : ℤ × Reading) : Bool :=
  from_ ≤ p.1 ∧ p.1 < from_ + length ∧ p.2.count ≤ limit

/-- An interval of a window's length sees at most what the counter has room for. -/
theorem countP_lets_le {times : List ℤ} (limit : ℕ) (from_ : ℤ) (hlength : 0 < length)
    (hclock : times.Pairwise (· ≤ ·)) :
    (Service.transcript (tickAt length) w times).countP (lets limit from_ length) ≤
      room limit from_ length w := by
  refine Service.countP_le_potential id (fun _ => True) (fun _ => True) (room limit from_ length)
    (from_ + length) ?_ (fun _ _ _ _ => trivial) ?_ trivial hclock fun _ _ => trivial
  · intro now r h
    exact (of_decide_eq_true h).2.1
  · intro w now _ _ hnow
    have hpays := room_tick limit w hlength hnow
    have hlets : lets limit from_ length (now, (tickAt length w now).1) =
        decide (from_ ≤ now ∧ (tick w now length).1.count ≤ limit) := by
      unfold lets tickAt
      simp only [show now < from_ + length from hnow, true_and]
    rw [hlets]
    simp only [decide_eq_true_eq]
    exact hpays

/-- From the hit that opens a window on, for as long as it lasts, the limit lets its number through. -/
theorem countP_lets_window {times : List ℤ} {limit : ℕ} {opener : ℤ × Reading} (hlimit : 0 < limit)
    (hlength : 0 < length) (hclock : times.Pairwise (· ≤ ·))
    (hmem : opener ∈ Service.transcript (tickAt length) none times) (hopens : opener.2.count = 1) :
    (Service.transcript (tickAt length) none times).countP (lets limit opener.1 length) ≤ limit := by
  obtain ⟨pre, post, rfl, hanswer⟩ := Service.mem_transcript hmem
  obtain ⟨now, r⟩ := opener
  dsimp only at hanswer hopens ⊢
  subst hanswer
  obtain ⟨hpre, hpost, -⟩ := List.pairwise_append.mp hclock
  rw [Service.transcript_append, List.countP_append]
  -- the hits before are over when the window opens
  have hbefore : (Service.transcript (tickAt length) none pre).countP (lets limit now length) = 0 := by
    refine List.countP_eq_zero.mpr fun p hp hlets => ?_
    have hlt := (covers_after hlength hpre p.1 (Service.call_mem_of_mem hp)).lt_of_opens hopens
    have hge := (of_decide_eq_true hlets).1
    omega
  have hnext : (tickAt length (Service.after (tickAt length) none pre) now).2 =
      some ⟨1, now + length⟩ := by
    unfold tickAt at hopens ⊢
    refine tick_of_opens ?_ hopens
    exact Service.after_keeps (I := fun w => ∀ v : Window, w = some v → 0 < v.count)
      (fun w t _ => count_pos_tick) (fun v hv => by cases hv)
  rw [hbefore, Service.transcript_cons, List.countP_cons, hnext]
  have hrest := countP_lets_le (w := some ⟨1, now + length⟩) limit now hlength
    (List.pairwise_cons.mp hpost).2
  rw [room_opened limit now hlength] at hrest
  split_ifs <;> omega

end FixedWindow
