import Mathlib.Data.List.Destutter

/-!
# Edges

Observations of something that is on one level or another, and the ones at which it changes level.
What is written at a change only, with one bit of memory, is written at the edges.
-/

namespace Edges

variable {α β : Type} [DecidableEq β] (level : α → β)

/-- The observations on another level than the one before; the level before the first is `b`. -/
def edges : β → List α → List α
  | _, [] => []
  | b, x :: xs => if level x = b then edges b xs else x :: edges (level x) xs

/-- The level after the observations. -/
def lastLevel (b : β) (xs : List α) : β := xs.foldl (fun _ x => level x) b

variable {level} {b : β} {x : α} {xs : List α}

@[simp] theorem edges_nil : edges level b [] = [] := rfl

theorem edges_cons_of_eq (h : level x = b) : edges level b (x :: xs) = edges level b xs := if_pos h

theorem edges_cons_of_ne (h : level x ≠ b) :
    edges level b (x :: xs) = x :: edges level (level x) xs := if_neg h

omit [DecidableEq β] in
@[simp] theorem lastLevel_nil : lastLevel level b [] = b := rfl

omit [DecidableEq β] in
@[simp] theorem lastLevel_snoc : lastLevel level b (xs ++ [x]) = level x := by
  unfold lastLevel
  rw [List.foldl_append]
  rfl

/-- One more observation is an edge when it leaves the last level. -/
theorem edges_snoc (b : β) (xs : List α) (x : α) :
    edges level b (xs ++ [x]) =
      edges level b xs ++ if level x = lastLevel level b xs then [] else [x] := by
  induction xs generalizing b with
  | nil =>
    show (if level x = b then [] else [x]) = _
    rfl
  | cons y ys ih =>
    have hlast : lastLevel level b (y :: ys) = lastLevel level (level y) ys := rfl
    rw [List.cons_append, hlast]
    by_cases hy : level y = b
    · rw [edges_cons_of_eq hy, edges_cons_of_eq hy, ih, hy]
    · rw [edges_cons_of_ne hy, edges_cons_of_ne hy, ih, List.cons_append]

/-- The levels of the edges are those of the observations without repetitions. -/
theorem map_edges (b : β) (xs : List α) :
    b :: (edges level b xs).map level = (xs.map level).destutter' (· ≠ ·) b := by
  induction xs generalizing b with
  | nil => rfl
  | cons x xs ih =>
    rw [List.map_cons]
    by_cases hx : level x = b
    · rw [edges_cons_of_eq hx, List.destutter'_cons_neg _ (by simp [hx]), ih]
    · rw [edges_cons_of_ne hx, List.destutter'_cons_pos _ (Ne.symm hx), List.map_cons, ih]

/-- Two edges after each other are on different levels. -/
theorem isChain_edges (b : β) (xs : List α) :
    (b :: (edges level b xs).map level).IsChain (· ≠ ·) := by
  rw [map_edges]
  exact List.isChain_destutter' _ _ _

theorem edges_sublist (b : β) (xs : List α) : (edges level b xs).Sublist xs := by
  induction xs generalizing b with
  | nil => exact List.Sublist.slnil
  | cons x xs ih =>
    by_cases hx : level x = b
    · rw [edges_cons_of_eq hx]
      exact (ih b).cons x
    · rw [edges_cons_of_ne hx]
      exact (ih (level x)).cons_cons x

/-- Observations that are all on one level make at most one edge. -/
theorem length_edges_of_all {c : β} (h : ∀ x ∈ xs, level x = c) (b : β) :
    (edges level b xs).length ≤ 1 := by
  have hsame : edges level c xs = [] := by
    induction xs with
    | nil => rfl
    | cons x xs ih =>
      rw [edges_cons_of_eq (h x List.mem_cons_self)]
      exact ih fun y hy => h y (List.mem_cons_of_mem x hy)
  cases xs with
  | nil => exact Nat.zero_le _
  | cons x xs =>
    have hx := h x List.mem_cons_self
    rw [edges_cons_of_eq hx] at hsame
    by_cases hb : level x = b
    · rw [edges_cons_of_eq hb, ← hb, hx, hsame]
      exact Nat.zero_le _
    · rw [edges_cons_of_ne hb, hx, hsame]
      exact le_rfl

/-- On one of two levels, and from the second never back. -/
def Latched (level : α → β) (b c : β) (xs : List α) : Prop :=
  (∀ x ∈ xs, level x = b ∨ level x = c) ∧ xs.Pairwise fun x y => level x = c → level y = c

/-- Then there is at most one edge, from the first level on. -/
theorem Latched.length_edges {c : β} (h : Latched level b c xs) : (edges level b xs).length ≤ 1 := by
  obtain ⟨hlevels, hlatch⟩ := h
  induction xs with
  | nil => exact Nat.zero_le _
  | cons x xs ih =>
    obtain ⟨hfirst, hrest⟩ := List.pairwise_cons.mp hlatch
    rcases hlevels x List.mem_cons_self with hx | hx
    · rw [edges_cons_of_eq hx]
      exact ih (fun y hy => hlevels y (List.mem_cons_of_mem x hy)) hrest
    · refine length_edges_of_all (c := c) (fun y hy => ?_) b
      rcases List.mem_cons.mp hy with rfl | hy
      · exact hx
      · exact hfirst y hy hx

/-- And from any level at most two. -/
theorem Latched.length_edges_from {c : β} (h : Latched level b c xs) (a : β) :
    (edges level a xs).length ≤ 2 := by
  cases xs with
  | nil => exact Nat.zero_le _
  | cons x xs =>
    obtain ⟨hlevels, hlatch⟩ := h
    have htail : Latched level b c xs :=
      ⟨fun y hy => hlevels y (List.mem_cons_of_mem x hy), (List.pairwise_cons.mp hlatch).2⟩
    have hrest : (edges level (level x) xs).length ≤ 1 := by
      rcases hlevels x List.mem_cons_self with hx | hx
      · rw [hx]
        exact htail.length_edges
      · exact length_edges_of_all (fun y hy => (List.pairwise_cons.mp hlatch).1 y hy hx) _
    by_cases hx : level x = a
    · rw [edges_cons_of_eq hx, ← hx]
      omega
    · rw [edges_cons_of_ne hx, List.length_cons]
      omega

end Edges
