import Mathlib.Data.Finset.Card
import Mathlib.Data.Finset.Dedup
import AdvancedSearch.RateLimit.Stores

/-!
# How much the in-memory store holds

The sweep of `InMemoryRateLimitStore` is lazy: it runs once in thirty seconds, or on every hit from ten
thousand entries on. What the map holds is bounded by the clients of the last moments all the same,
however many there have been (`windows_bounded`).
-/

namespace AdvancedSearch

open FixedWindow Service

namespace InMemoryRateLimitStore

variable {s : InMemoryRateLimitStore} {past : List (Hit String)} {h : Hit String} {now : ℤ}

/-- What an entry is owed to: the hit that opened its window, which no sweep has seen expired. -/
structure Retained (past : List (Hit String)) (s : InMemoryRateLimitStore) : Prop where
  opened : ∀ key w, s.windows.lookup key = some w → ∃ g ∈ past, g.key = key ∧
    w.expiresAt = g.now + g.length ∧ (s.lastSweepAt ≤ g.now ∨ s.lastSweepAt < w.expiresAt)
  swept : ∀ t, 0 ≤ t → (∀ g ∈ past, g.now ≤ t) → s.lastSweepAt ≤ t

theorem retained_start : Retained [] start := by
  refine ⟨fun key w h => ?_, fun t ht _ => ht⟩
  have hempty : start.windows.lookup key = none := AList.lookup_empty key
  rw [hempty] at h
  cases h

/-- Either it is neither time to sweep nor is the map full, or what is left is open. -/
theorem maybeEvictExpired_cases (s : InMemoryRateLimitStore) (now : ℤ) :
    (s.maybeEvictExpired now = s ∧ now - s.lastSweepAt < SWEEP_INTERVAL_MS ∧
        s.windows.entries.length < SWEEP_SIZE_THRESHOLD) ∨
      ((s.maybeEvictExpired now).lastSweepAt = now ∧
        ∀ key w, (s.maybeEvictExpired now).windows.lookup key = some w →
          s.windows.lookup key = some w ∧ now < w.expiresAt) := by
  unfold maybeEvictExpired
  dsimp only
  split_ifs with hidle
  · exact Or.inl ⟨rfl, not_le.mp hidle.1, hidle.2⟩
  · refine Or.inr ⟨rfl, fun key w hw => ?_⟩
    rw [lookup_sweep] at hw
    split_ifs at hw with hdeleted
    refine ⟨hw, not_le.mp fun hexp => hdeleted ⟨⟨key, w⟩, ?_, rfl, hexp⟩⟩
    exact AList.mem_lookup_iff.mp hw

/-- A hit leaves the entries of other keys to the sweep, and an entry of its own. -/
theorem lookup_hit (s : InMemoryRateLimitStore) (h : Hit String) (key : String) {w : Window}
    (hw : (serve s h).2.windows.lookup key = some w) :
    (s.maybeEvictExpired h.now).windows.lookup key = some ⟨w.count, w.expiresAt⟩ ∨
      (key = h.key ∧ ∃ count, (s.maybeEvictExpired h.now).windows.lookup key = some ⟨count, w.expiresAt⟩) ∨
      (key = h.key ∧ w.expiresAt = h.now + h.length) := by
  unfold serve hit at hw
  dsimp only at hw
  by_cases hkey : key = h.key
  · subst hkey
    cases hcurrent : (s.maybeEvictExpired h.now).windows.lookup h.key with
    | none =>
      rw [hcurrent] at hw
      simp only [AList.lookup_insert, Option.some.injEq] at hw
      exact Or.inr (Or.inr ⟨rfl, by rw [← hw]⟩)
    | some current =>
      rw [hcurrent] at hw
      dsimp only at hw
      split_ifs at hw
      · simp only [AList.lookup_insert, Option.some.injEq] at hw
        exact Or.inr (Or.inr ⟨rfl, by rw [← hw]⟩)
      · simp only [AList.lookup_insert, Option.some.injEq] at hw
        exact Or.inr (Or.inl ⟨rfl, current.count, by rw [← hw]⟩)
  · refine Or.inl ?_
    cases hcurrent : (s.maybeEvictExpired h.now).windows.lookup h.key with
    | none =>
      rw [hcurrent] at hw
      rwa [AList.lookup_insert_ne hkey] at hw
    | some current =>
      rw [hcurrent] at hw
      dsimp only at hw
      split_ifs at hw
      · rwa [AList.lookup_insert_ne hkey] at hw
      · rwa [AList.lookup_insert_ne hkey] at hw

theorem lastSweepAt_hit (s : InMemoryRateLimitStore) (h : Hit String) :
    (serve s h).2.lastSweepAt = (s.maybeEvictExpired h.now).lastSweepAt := by
  unfold serve hit
  dsimp only
  split
  · rfl
  · split_ifs <;> rfl

/-- A hit adds one entry at most. -/
theorem length_hit (s : InMemoryRateLimitStore) (h : Hit String) :
    (serve s h).2.windows.entries.length ≤ (s.maybeEvictExpired h.now).windows.entries.length + 1 := by
  have hinsert : ∀ w : Window, ((s.maybeEvictExpired h.now).windows.insert h.key w).entries.length ≤
      (s.maybeEvictExpired h.now).windows.entries.length + 1 := by
    intro w
    rw [AList.entries_insert, List.length_cons]
    exact Nat.succ_le_succ (List.kerase_sublist _ _).length_le
  unfold serve hit
  dsimp only
  split
  · exact hinsert _
  · split_ifs
    · exact hinsert _
    · exact hinsert _

/-- An entry that the sweep of a hit leaves. -/
theorem Retained.sweep (hr : Retained past s) (now : ℤ) (key : String) (w : Window)
    (hw : (s.maybeEvictExpired now).windows.lookup key = some w) :
    ∃ g ∈ past, g.key = key ∧ w.expiresAt = g.now + g.length ∧
      ((s.maybeEvictExpired now).lastSweepAt ≤ g.now ∨
        (s.maybeEvictExpired now).lastSweepAt < w.expiresAt) := by
  rcases s.maybeEvictExpired_cases now with ⟨heq, -, -⟩ | ⟨hlast, hleft⟩
  · rw [heq] at hw ⊢
    exact hr.opened key w hw
  · obtain ⟨hbefore, hopen⟩ := hleft key w hw
    obtain ⟨g, hg, hkey, hexpires, -⟩ := hr.opened key w hbefore
    exact ⟨g, hg, hkey, hexpires, Or.inr (by rw [hlast]; exact hopen)⟩

/-- Where an entry comes from after a hit. -/
theorem Retained.source (hr : Retained past s) (h : Hit String) (key : String) (w : Window)
    (hw : (serve s h).2.windows.lookup key = some w) :
    (∃ g ∈ past, ∃ count, g.key = key ∧ w.expiresAt = g.now + g.length ∧
        (s.maybeEvictExpired h.now).windows.lookup key = some ⟨count, w.expiresAt⟩ ∧
        ((s.maybeEvictExpired h.now).lastSweepAt ≤ g.now ∨
          (s.maybeEvictExpired h.now).lastSweepAt < w.expiresAt)) ∨
      (key = h.key ∧ w.expiresAt = h.now + h.length) := by
  rcases s.lookup_hit h key hw with hleft | ⟨-, count, hleft⟩ | hnew
  · obtain ⟨g, hg, hkey, hexpires, hage⟩ := hr.sweep h.now key _ hleft
    exact Or.inl ⟨g, hg, w.count, hkey, hexpires, hleft, hage⟩
  · obtain ⟨g, hg, hkey, hexpires, hage⟩ := hr.sweep h.now key _ hleft
    exact Or.inl ⟨g, hg, count, hkey, hexpires, hleft, hage⟩
  · exact Or.inr hnew

/-- One hit more, no earlier than the others. -/
theorem Retained.step (hr : Retained past s) (hepoch : 0 ≤ h.now) (hclock : ∀ g ∈ past, g.now ≤ h.now) :
    Retained (past ++ [h]) (serve s h).2 := by
  have hsweep : (s.maybeEvictExpired h.now).lastSweepAt ≤ h.now := by
    rcases s.maybeEvictExpired_cases h.now with ⟨heq, -, -⟩ | ⟨hlast, -⟩
    · rw [heq]
      exact hr.swept h.now hepoch hclock
    · rw [hlast]
  refine ⟨fun key w hw => ?_, fun t _ hle => ?_⟩
  · rw [lastSweepAt_hit]
    rcases hr.source h key w hw with ⟨g, hg, -, hkey, hexpires, -, hage⟩ | ⟨rfl, hexpires⟩
    · exact ⟨g, List.mem_append_left _ hg, hkey, hexpires, hage⟩
    · exact ⟨h, List.mem_append_right _ (List.mem_singleton_self h), rfl, hexpires, Or.inl hsweep⟩
  · rw [lastSweepAt_hit]
    exact hsweep.trans (hle h (List.mem_append_right _ (List.mem_singleton_self h)))

theorem retained_after {hits : List (Hit String)} (hclock : hits.Pairwise fun a b => a.now ≤ b.now)
    (hepoch : ∀ g ∈ hits, 0 ≤ g.now) : Retained hits (after serve start hits) := by
  induction hits using List.reverseRecOn with
  | nil => exact retained_start
  | append_singleton hits h ih =>
    obtain ⟨hbefore, -, hlast⟩ := List.pairwise_append.mp hclock
    rw [after_append]
    refine (ih hbefore fun g hg => hepoch g (List.mem_append_left _ hg)).step
      (hepoch h (List.mem_append_right _ (List.mem_singleton_self h))) fun g hg => ?_
    exact hlast g hg h (List.mem_singleton_self h)

/-- The keys that were hit after a time. -/
def keysSince (t : ℤ) (hits : List (Hit String)) : Finset String :=
  ((hits.filter fun g => t < g.now).map Hit.key).toFinset

theorem mem_keysSince {t : ℤ} {hits : List (Hit String)} {g : Hit String} (hg : g ∈ hits) (ht : t < g.now) :
    g.key ∈ keysSince t hits := by
  unfold keysSince
  rw [List.mem_toFinset]
  exact List.mem_map_of_mem (List.mem_filter.mpr ⟨hg, decide_eq_true ht⟩)

/-- A map whose keys are all in a set has at most as many entries. -/
theorem length_le_card {keys : Finset String}
    (hkeys : ∀ key w, s.windows.lookup key = some w → key ∈ keys) :
    s.windows.entries.length ≤ keys.card := by
  have hlength : s.windows.keys.toFinset.card = s.windows.entries.length := by
    rw [List.toFinset_card_of_nodup (show s.windows.keys.Nodup from s.windows.nodupKeys)]
    exact List.length_map _
  rw [← hlength]
  refine Finset.card_le_card fun key hkey => ?_
  have hmem : key ∈ s.windows := List.mem_toFinset.mp hkey
  obtain ⟨w, hw⟩ := Option.isSome_iff_exists.mp (AList.lookup_isSome.mpr hmem)
  exact hkeys key w hw

/-- **Bounded memory.** Under a clock that does not run backwards, after a hit the map holds no more
entries than keys were hit in the longest window and a sweep interval before it, and, past the size
threshold, no more than keys were hit in the longest window. -/
theorem windows_bounded (longest : ℤ) {hits : List (Hit String)} {h : Hit String}
    (hclock : (hits ++ [h]).Pairwise fun a b => a.now ≤ b.now) (hepoch : ∀ g ∈ hits ++ [h], 0 ≤ g.now)
    (hpos : 0 < longest) (hlength : ∀ g ∈ hits ++ [h], g.length ≤ longest) :
    let held := (after serve start (hits ++ [h])).windows.entries.length
    held ≤ (keysSince (h.now - SWEEP_INTERVAL_MS - longest) (hits ++ [h])).card ∧
      held ≤ max SWEEP_SIZE_THRESHOLD (keysSince (h.now - longest) (hits ++ [h])).card := by
  obtain ⟨hbefore, -, hlast⟩ := List.pairwise_append.mp hclock
  have hr := retained_after hbefore fun g hg => hepoch g (List.mem_append_left _ hg)
  have hself : h ∈ hits ++ [h] := List.mem_append_right _ (List.mem_singleton_self h)
  rw [after_append, after_cons, after_nil]
  generalize after serve start hits = s at hr
  have hinterval : (0 : ℤ) < SWEEP_INTERVAL_MS := by decide
  constructor
  · refine length_le_card fun key w hw => ?_
    rcases hr.source h key w hw with ⟨g, hg, count, rfl, hexpires, hleft, hage⟩ | ⟨rfl, -⟩
    · have hlen := hlength g (List.mem_append_left _ hg)
      refine mem_keysSince (List.mem_append_left _ hg) ?_
      rcases s.maybeEvictExpired_cases h.now with ⟨heq, hdue, -⟩ | ⟨hswept, -⟩
      · rw [heq] at hage
        omega
      · rw [hswept] at hage
        omega
    · exact mem_keysSince hself (by omega)
  · rcases s.maybeEvictExpired_cases h.now with ⟨heq, -, hsmall⟩ | ⟨-, hopen⟩
    · -- the map was small, and has one entry more
      have hle := s.length_hit h
      rw [heq] at hle
      exact le_max_of_le_left (by omega)
    · refine le_max_of_le_right (length_le_card fun key w hw => ?_)
      rcases hr.source h key w hw with ⟨g, hg, count, rfl, hexpires, hleft, -⟩ | ⟨rfl, -⟩
      · have hlen := hlength g (List.mem_append_left _ hg)
        have hlive := (hopen g.key _ hleft).2
        dsimp only at hlive
        exact mem_keysSince (List.mem_append_left _ hg) (by omega)
      · exact mem_keysSince hself (by omega)

/-- Two clients, and a third after a sweep: one entry is left. -/
theorem windows_bounded_three :
    (after serve start ([⟨0, "a", 1000⟩, ⟨10, "b", 1000⟩] ++ [⟨40000, "c", 1000⟩])).windows.entries.length ≤
      (keysSince (40000 - SWEEP_INTERVAL_MS - 1000)
        ([⟨0, "a", 1000⟩, ⟨10, "b", 1000⟩] ++ [⟨40000, "c", 1000⟩])).card :=
  (windows_bounded 1000 (by decide) (by decide) (by decide) (by decide)).1

end InMemoryRateLimitStore

end AdvancedSearch
