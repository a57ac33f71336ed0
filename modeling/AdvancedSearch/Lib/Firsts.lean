import Mathlib.Data.List.Nodup
import Mathlib.Data.List.Perm.Subperm

/-!
# The first of each kind

What is left of a list when each element is dropped whose key an earlier one had. A loop that keeps the
keys it has seen leaves the same (`foldl_unseen`).
-/

namespace Firsts

variable {α κ : Type} [DecidableEq κ] (key : α → κ)

/-- The first element of each key, in order. -/
def firsts : List α → List α
  | [] => []
  | a :: as => a :: (firsts as).filter fun b => key b ≠ key a

/-- One turn of a loop that keeps the keys it has seen. -/
def unseen (state : List κ × List α) (a : α) : List κ × List α :=
  if key a ∈ state.1 then state else (key a :: state.1, state.2 ++ [a])

variable {key} {a b : α} {as bs : List α}

theorem firsts_cons :
    firsts key (a :: as) = a :: (firsts key as).filter fun b => key b ≠ key a := rfl

/-- The loop leaves the first of each key that it had not seen before. -/
theorem foldl_unseen (seen : List κ) (kept : List α) :
    (as.foldl (unseen key) (seen, kept)).2 =
      kept ++ (firsts key as).filter fun b => key b ∉ seen := by
  induction as generalizing seen kept with
  | nil => exact (List.append_nil kept).symm
  | cons a as ih =>
    rw [List.foldl_cons, firsts_cons]
    by_cases hseen : key a ∈ seen
    · rw [show unseen key (seen, kept) a = (seen, kept) from if_pos hseen, ih,
        List.filter_cons_of_neg (by simpa using hseen), List.filter_filter]
      congr 1
      refine List.filter_congr fun b _ => ?_
      rw [Bool.eq_iff_iff]
      simp only [decide_eq_true_eq, Bool.and_eq_true]
      exact ⟨fun hb => ⟨hb, fun heq => hb (heq ▸ hseen)⟩, fun hb => hb.1⟩
    · rw [show unseen key (seen, kept) a = (key a :: seen, kept ++ [a]) from if_neg hseen, ih,
        List.filter_cons_of_pos (by simpa using hseen), List.filter_filter, List.append_assoc,
        List.singleton_append]
      congr 2
      refine List.filter_congr fun b _ => ?_
      rw [Bool.eq_iff_iff]
      simp only [decide_eq_true_eq, Bool.and_eq_true, List.mem_cons, not_or]
      exact and_comm

theorem firsts_sublist : (firsts key as).Sublist as := by
  induction as with
  | nil => exact List.Sublist.refl []
  | cons a as ih => exact (List.filter_sublist.trans ih).cons_cons a

/-- What is kept is what no earlier element has the key of. -/
theorem mem_firsts : a ∈ firsts key as ↔
    ∃ pre post, as = pre ++ a :: post ∧ ∀ b ∈ pre, key b ≠ key a := by
  induction as with
  | nil => simp [firsts]
  | cons c as ih =>
    rw [firsts_cons, List.mem_cons, List.mem_filter, ih, decide_eq_true_eq]
    constructor
    · rintro (rfl | ⟨⟨pre, post, rfl, hpre⟩, hne⟩)
      · exact ⟨[], as, rfl, by simp⟩
      · exact ⟨c :: pre, post, rfl, List.forall_mem_cons.mpr ⟨Ne.symm hne, hpre⟩⟩
    · rintro ⟨pre, post, heq, hpre⟩
      cases pre with
      | nil =>
        cases heq
        exact Or.inl rfl
      | cons d pre =>
        cases heq
        obtain ⟨hne, hrest⟩ := List.forall_mem_cons.mp hpre
        exact Or.inr ⟨⟨pre, post, rfl, hrest⟩, hne.symm⟩

/-- Every key is kept. -/
theorem exists_mem_firsts (h : a ∈ as) : ∃ b ∈ firsts key as, key b = key a := by
  induction as with
  | nil => cases h
  | cons c as ih =>
    by_cases heq : key a = key c
    · exact ⟨c, List.mem_cons_self, heq.symm⟩
    · have hrest : a ∈ as := (List.mem_cons.mp h).resolve_left fun hac => heq (hac ▸ rfl)
      obtain ⟨b, hb, hkey⟩ := ih hrest
      exact ⟨b, List.mem_cons_of_mem c (List.mem_filter.mpr ⟨hb, by rwa [hkey, decide_eq_true_eq]⟩), hkey⟩

/-- Of what is added, the elements of new keys are kept. -/
theorem firsts_append :
    firsts key (as ++ bs) = firsts key as ++ (firsts key bs).filter fun b => ∀ a ∈ as, key b ≠ key a := by
  induction as with
  | nil => simp [firsts]
  | cons a as ih =>
    rw [List.cons_append, firsts_cons, firsts_cons, ih, List.filter_append, List.filter_filter,
      List.cons_append]
    congr 2
    refine List.filter_congr fun b _ => ?_
    rw [Bool.eq_iff_iff]
    simp

theorem firsts_begin : firsts key as <+: firsts key (as ++ bs) :=
  ⟨_, firsts_append.symm⟩

/-- Dropping repetitions after cutting a list gives what cutting afterwards gives, unless it leaves too
few and what was cut off has another key. -/
theorem firsts_eq_take_iff {n : ℕ} (h : (firsts key as).length ≤ n) :
    firsts key as = (firsts key (as ++ bs)).take n ↔
      (firsts key as).length = n ∨ ∀ b ∈ bs, ∃ a ∈ as, key b = key a := by
  have htake : (firsts key (as ++ bs)).take n = firsts key as ++
      ((firsts key bs).filter fun b => ∀ a ∈ as, key b ≠ key a).take (n - (firsts key as).length) := by
    rw [firsts_append, List.take_append, List.take_of_length_le h]
  rw [htake, List.self_eq_append_right, List.take_eq_nil_iff, Nat.sub_eq_zero_iff_le]
  refine or_congr ⟨Nat.le_antisymm h, fun heq => Nat.le_of_eq heq.symm⟩ ?_
  rw [List.filter_eq_nil_iff]
  constructor
  · intro hold b hb
    obtain ⟨c, hc, hkey⟩ := (exists_mem_firsts hb : ∃ c ∈ firsts key bs, key c = key b)
    have hnot := hold c hc
    rw [decide_eq_true_eq] at hnot
    push Not at hnot
    rwa [hkey] at hnot
  · intro hold b hb
    obtain ⟨a, ha, hkey⟩ := hold b (firsts_sublist.subset hb)
    rw [decide_eq_true_eq]
    exact fun hnew => hnew a ha hkey

end Firsts
