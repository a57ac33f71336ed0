import Mathlib.Data.List.Basic
import Mathlib.Data.Int.Order.Basic

/-!
# Services

A service answers one call after another. Its transcript is what was called with what was answered.
Calls carry the time of a clock that does not run backwards.
-/

namespace Service

variable {σ τ α β : Type}

/-- The calls in their order, each with its answer. -/
def transcript (serve : σ → α → β × σ) : σ → List α → List (α × β)
  | _, [] => []
  | s, a :: calls => (a, (serve s a).1) :: transcript serve (serve s a).2 calls

/-- The state after the calls. -/
def after (serve : σ → α → β × σ) (s : σ) (calls : List α) : σ :=
  calls.foldl (fun s a => (serve s a).2) s

variable {serve : σ → α → β × σ} {other : τ → α → β × τ} {s : σ} {t : τ} {calls : List α}

@[simp] theorem transcript_nil : transcript serve s [] = [] := rfl

@[simp] theorem transcript_cons {a : α} :
    transcript serve s (a :: calls) = (a, (serve s a).1) :: transcript serve (serve s a).2 calls := rfl

@[simp] theorem after_nil : after serve s [] = s := rfl

@[simp] theorem after_cons {a : α} : after serve s (a :: calls) = after serve (serve s a).2 calls := rfl

theorem after_append {more : List α} :
    after serve s (calls ++ more) = after serve (after serve s calls) more := List.foldl_append

theorem transcript_append {more : List α} :
    transcript serve s (calls ++ more) =
      transcript serve s calls ++ transcript serve (after serve s calls) more := by
  induction calls generalizing s with
  | nil => rfl
  | cons a calls ih =>
    rw [List.cons_append, transcript_cons, transcript_cons, ih, after_cons, List.cons_append]

/-- The calls of a transcript are the calls made. -/
theorem transcript_calls (serve : σ → α → β × σ) (s : σ) (calls : List α) :
    (transcript serve s calls).map Prod.fst = calls := by
  induction calls generalizing s with
  | nil => rfl
  | cons a calls ih => rw [transcript_cons, List.map_cons, ih]

theorem call_mem_of_mem {p : α × β} (h : p ∈ transcript serve s calls) : p.1 ∈ calls := by
  rw [← transcript_calls serve s calls]
  exact List.mem_map_of_mem h

/-- An entry of a transcript is the answer to a call after those before it. -/
theorem mem_transcript {p : α × β} (h : p ∈ transcript serve s calls) :
    ∃ pre post, calls = pre ++ p.1 :: post ∧ (serve (after serve s pre) p.1).1 = p.2 := by
  induction calls generalizing s with
  | nil => exact absurd h List.not_mem_nil
  | cons a calls ih =>
    rw [transcript_cons] at h
    rcases List.mem_cons.mp h with rfl | h
    · exact ⟨[], calls, rfl, rfl⟩
    · obtain ⟨pre, post, rfl, hanswer⟩ := ih h
      exact ⟨a :: pre, post, rfl, hanswer⟩

/-- What every call keeps, every list of calls keeps. -/
theorem after_keeps {I : σ → Prop} (hstep : ∀ s a, I s → I (serve s a).2) (hs : I s) :
    I (after serve s calls) := by
  induction calls generalizing s with
  | nil => exact hs
  | cons a calls ih => exact ih (hstep s a hs)

/-- A service in front of another one, which translates its calls and their answers. -/
theorem transcript_map {γ δ : Type} (front : σ → γ → δ × σ) (serve : σ → α → β × σ) (call : γ → α)
    (back : α → γ) (answer : β → δ) (hback : ∀ c, back (call c) = c)
    (hfront : ∀ s c, front s c = (answer (serve s (call c)).1, (serve s (call c)).2)) (s : σ)
    (calls : List γ) :
    transcript front s calls =
      (transcript serve s (calls.map call)).map fun p => (back p.1, answer p.2) := by
  induction calls generalizing s with
  | nil => rfl
  | cons c calls ih =>
    rw [List.map_cons, transcript_cons, transcript_cons, List.map_cons, hback, ih, hfront]

/-! ## Two services under one clock -/

variable (time : α → ℤ)

/-- Two services answer alike when their states stay related; the relation is about what can still be
seen at a time, so it lasts as the clock goes on. -/
theorem transcript_eq (R : ℤ → σ → τ → Prop)
    (hlast : ∀ s t now later, now ≤ later → R now s t → R later s t)
    (hstep : ∀ s t a, R (time a) s t →
      (serve s a).1 = (other t a).1 ∧ R (time a) (serve s a).2 (other t a).2)
    (hclock : calls.Pairwise fun a b => time a ≤ time b)
    (hstart : ∀ a ∈ calls, R (time a) s t) :
    transcript serve s calls = transcript other t calls := by
  induction calls generalizing s t with
  | nil => rfl
  | cons a calls ih =>
    obtain ⟨hfirst, hrest⟩ := List.pairwise_cons.mp hclock
    obtain ⟨hanswer, hnext⟩ := hstep s t a (hstart a List.mem_cons_self)
    rw [transcript_cons, transcript_cons, hanswer]
    congr 1
    exact ih hrest fun b hb => hlast _ _ _ _ (hfirst b hb) hnext

/-- The answers to some of the calls are those of a service that sees these calls alone, when the states
stay related through the others. -/
theorem transcript_filter (mine : α → Bool) (R : ℤ → σ → τ → Prop)
    (hlast : ∀ s t now later, now ≤ later → R now s t → R later s t)
    (hmine : ∀ s t a, mine a = true → R (time a) s t →
      (serve s a).1 = (other t a).1 ∧ R (time a) (serve s a).2 (other t a).2)
    (hothers : ∀ s t a, mine a = false → R (time a) s t → R (time a) (serve s a).2 t)
    (hclock : calls.Pairwise fun a b => time a ≤ time b)
    (hstart : ∀ a ∈ calls, R (time a) s t) :
    (transcript serve s calls).filter (fun p => mine p.1) = transcript other t (calls.filter mine) := by
  induction calls generalizing s t with
  | nil => rfl
  | cons a calls ih =>
    obtain ⟨hfirst, hrest⟩ := List.pairwise_cons.mp hclock
    have ha := hstart a List.mem_cons_self
    rw [transcript_cons]
    cases hm : mine a with
    | true =>
      obtain ⟨hanswer, hnext⟩ := hmine s t a hm ha
      rw [List.filter_cons_of_pos (p := fun p : α × β => mine p.1) hm, List.filter_cons_of_pos hm,
        transcript_cons, hanswer]
      congr 1
      exact ih hrest fun b hb => hlast _ _ _ _ (hfirst b hb) hnext
    | false =>
      rw [List.filter_cons_of_neg (by simp [hm]), List.filter_cons_of_neg (by simp [hm])]
      exact ih hrest fun b hb => hlast _ _ _ _ (hfirst b hb) (hothers s t a hm ha)

/-! ## Counting answers -/

/-- Answers that count are at most as many as the potential at the start, when each call that can
still count pays for its answer and none counts from the horizon on. -/
theorem countP_le_potential (P : α → Prop) (Valid : σ → Prop) (potential : σ → ℕ) (horizon : ℤ)
    {counts : α × β → Bool}
    (hlate : ∀ a b, counts (a, b) = true → time a < horizon)
    (hkeeps : ∀ s a, P a → Valid s → Valid (serve s a).2)
    (hpays : ∀ s a, P a → Valid s → time a < horizon →
      potential (serve s a).2 + (if counts (a, (serve s a).1) then 1 else 0) ≤ potential s)
    (hvalid : Valid s) (hclock : calls.Pairwise fun a b => time a ≤ time b) (hP : ∀ a ∈ calls, P a) :
    (transcript serve s calls).countP counts ≤ potential s := by
  induction calls generalizing s with
  | nil => exact Nat.zero_le _
  | cons a calls ih =>
    obtain ⟨hfirst, hrest⟩ := List.pairwise_cons.mp hclock
    rw [transcript_cons, List.countP_cons]
    by_cases ha : time a < horizon
    · have hnext := ih (hkeeps s a (hP a List.mem_cons_self) hvalid) hrest
        fun b hb => hP b (List.mem_cons_of_mem a hb)
      have hpay := hpays s a (hP a List.mem_cons_self) hvalid ha
      omega
    · -- the clock has passed the horizon for good
      have hnone : (transcript serve (serve s a).2 calls).countP counts = 0 := by
        refine List.countP_eq_zero.mpr fun p hp hcounts => ?_
        have hearly := hlate p.1 p.2 hcounts
        have hlater := hfirst p.1 (call_mem_of_mem hp)
        omega
      have hself : counts (a, (serve s a).1) ≠ true := fun hcounts => ha (hlate _ _ hcounts)
      rw [hnone, if_neg hself]
      exact Nat.zero_le _

end Service
