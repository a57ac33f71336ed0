import Mathlib.Algebra.Order.Floor.Div
import Mathlib.Data.List.Basic
import Mathlib.Data.Prod.Lex
import Mathlib.Order.Defs.LinearOrder

/-!
# Rankings and their pages

A comparison ranks a list; where only one element compares equal to it, the order is strict and total.
A page is a slice of a ranking, and consecutive pages neither repeat nor skip.
-/

namespace Ranking

variable {α : Type}

/-! ## Comparisons -/

/-- The comparison, or its reverse. -/
def directed (reverse : Bool) (compare : α → α → Ordering) (a b : α) : Ordering :=
  if reverse then compare b a else compare a b

instance (reverse : Bool) (compare : α → α → Ordering) [Std.TransCmp compare] :
    Std.TransCmp (directed reverse compare) := by
  cases reverse
  · exact inferInstanceAs (Std.TransCmp compare)
  · exact inferInstanceAs (Std.TransCmp fun a b => compare b a)

/-- The first comparison that tells two elements apart. -/
def lexicographic (comparisons : List (α → α → Ordering)) : α → α → Ordering :=
  comparisons.foldr compareLex fun _ _ => .eq

instance transCmpEq : Std.TransCmp fun _ _ : α => Ordering.eq where
  eq_swap := rfl
  isLE_trans _ _ := rfl

theorem transCmp_lexicographic {comparisons : List (α → α → Ordering)}
    (h : ∀ compare ∈ comparisons, Std.TransCmp compare) : Std.TransCmp (lexicographic comparisons) := by
  induction comparisons with
  | nil => exact inferInstanceAs (Std.TransCmp fun _ _ : α => Ordering.eq)
  | cons compare comparisons ih =>
    have hfirst := h compare List.mem_cons_self
    have hrest := ih fun c hc => h c (List.mem_cons_of_mem compare hc)
    exact inferInstanceAs (Std.TransCmp (compareLex compare (lexicographic comparisons)))

/-- What no comparison tells apart, none of them does. -/
theorem lexicographic_eq {comparisons : List (α → α → Ordering)} {a b : α} :
    lexicographic comparisons a b = .eq ↔ ∀ compare ∈ comparisons, compare a b = .eq := by
  induction comparisons with
  | nil => exact ⟨fun _ _ h => absurd h List.not_mem_nil, fun _ => rfl⟩
  | cons compare comparisons ih =>
    show (compare a b).then (lexicographic comparisons a b) = .eq ↔ _
    rw [Ordering.then_eq_eq, ih, List.forall_mem_cons]

/-- A strict total order on the elements of a list. -/
structure StrictTotalOn (l : List α) (compare : α → α → Ordering) : Prop where
  irrefl : ∀ a ∈ l, compare a a ≠ .lt
  trans : ∀ a ∈ l, ∀ b ∈ l, ∀ c ∈ l, compare a b = .lt → compare b c = .lt → compare a c = .lt
  total : ∀ a ∈ l, ∀ b ∈ l, a ≠ b → compare a b = .lt ∨ compare b a = .lt

theorem strictTotalOn {l : List α} {compare : α → α → Ordering} [Std.TransCmp compare]
    (h : ∀ a ∈ l, ∀ b ∈ l, compare a b = .eq → a = b) : StrictTotalOn l compare where
  irrefl a _ := by
    have hself : compare a a = .eq := Std.ReflCmp.compare_self
    rw [hself]
    exact Ordering.noConfusion
  trans _ _ _ _ _ _ := Std.TransCmp.lt_trans
  total a ha b hb hne := by
    cases hab : compare a b with
    | lt => exact Or.inl rfl
    | eq => exact absurd (h a ha b hb hab) hne
    | gt => exact Or.inr (Std.OrientedCmp.lt_of_gt hab)

/-! ## Rankings -/

def rank (compare : α → α → Ordering) (l : List α) : List α := l.mergeSort fun a b => (compare a b).isLE

theorem rank_perm (compare : α → α → Ordering) (l : List α) : (rank compare l).Perm l :=
  List.mergeSort_perm l _

/-- A list without repetition is ranked strictly by a comparison that is strict on it. -/
theorem pairwise_rank {l : List α} {compare : α → α → Ordering} [Std.TransCmp compare]
    (h : ∀ a ∈ l, ∀ b ∈ l, compare a b = .eq → a = b) (hnodup : l.Nodup) :
    (rank compare l).Pairwise fun a b => compare a b = .lt := by
  have hsorted : (rank compare l).Pairwise fun a b => (compare a b).isLE := by
    refine List.pairwise_mergeSort (fun a b c => Std.TransCmp.isLE_trans) (fun a b => ?_) l
    rw [Bool.or_eq_true]
    cases hab : compare a b with
    | lt => exact Or.inl rfl
    | eq => exact Or.inl rfl
    | gt =>
      right
      rw [Std.OrientedCmp.lt_of_gt hab]
      rfl
  have hdistinct : (rank compare l).Nodup := (rank_perm compare l).nodup_iff.mpr hnodup
  refine (List.pairwise_and_iff.mpr ⟨hsorted, hdistinct⟩).imp_of_mem fun {a b} ha hb hab => ?_
  cases hcompare : compare a b with
  | lt => rfl
  | eq =>
    have hmem (x : α) (hx : x ∈ rank compare l) : x ∈ l := (rank_perm compare l).mem_iff.mp hx
    exact absurd (h a (hmem a ha) b (hmem b hb) hcompare) hab.2
  | gt =>
    rw [hcompare] at hab
    exact absurd hab.1 Bool.false_ne_true

/-! ## Pages -/

/-- `size` elements from an offset on. -/
def page (from_ size : ℕ) (l : List α) : List α := (l.drop from_).take size

/-- The pages of one size, one after another, are the beginning of the list. -/
theorem flatMap_page (l : List α) (size pages : ℕ) :
    (List.range pages).flatMap (fun i => page (i * size) size l) = l.take (pages * size) := by
  induction pages with
  | zero => rw [Nat.zero_mul, List.take_zero]; rfl
  | succ pages ih =>
    rw [List.range_succ, List.flatMap_append, ih, Nat.add_mul, Nat.one_mul, List.take_add]
    simp [page]

/-- How many pages hold `total` elements. -/
def pagesFor (total size : ℕ) : ℕ := (total + size - 1) / size

theorem pagesFor_spec (total : ℕ) {size : ℕ} (hsize : 0 < size) :
    total ≤ pagesFor total size * size ∧ pagesFor total size * size < total + size := by
  unfold pagesFor
  have hdiv := Nat.div_add_mod (total + size - 1) size
  have hmod := Nat.mod_lt (total + size - 1) hsize
  rw [Nat.mul_comm] at hdiv
  omega

/-- `pages` pages hold what is no more than they have room for. -/
theorem pagesFor_le_iff {total size pages : ℕ} (hsize : 0 < size) :
    pagesFor total size ≤ pages ↔ total ≤ size * pages := ceilDiv_le_iff_le_mul hsize

/-- The last page that is not empty is the last one needed. -/
theorem page_ne_nil_iff {l : List α} {size i : ℕ} (hsize : 0 < size) :
    page (i * size) size l ≠ [] ↔ i < pagesFor l.length size := by
  obtain ⟨hle, hlt⟩ := pagesFor_spec l.length hsize
  have hlength : (page (i * size) size l).length = min size (l.length - i * size) := by
    unfold page
    rw [List.length_take, List.length_drop]
  rw [← List.length_pos_iff, hlength]
  constructor
  · intro hpos
    have hi : i * size < l.length := by omega
    exact Nat.lt_of_mul_lt_mul_right (hi.trans_le hle)
  · intro hi
    have hstep : (i + 1) * size ≤ pagesFor l.length size * size := Nat.mul_le_mul_right size hi
    rw [Nat.add_mul, Nat.one_mul] at hstep
    omega

/-- Counted from one, the last page that is not empty is the one numbered by how many there are. -/
theorem last_page {l : List α} {size : ℕ} (hsize : 0 < size) (hl : 0 < l.length) :
    0 < pagesFor l.length size ∧ page ((pagesFor l.length size - 1) * size) size l ≠ [] ∧
      ∀ i > pagesFor l.length size, page ((i - 1) * size) size l = [] := by
  have hpos : 0 < pagesFor l.length size := by
    refine Nat.pos_of_ne_zero fun hzero => ?_
    have hspec := (pagesFor_spec l.length hsize).1
    rw [hzero, Nat.zero_mul] at hspec
    omega
  refine ⟨hpos, (page_ne_nil_iff hsize).mpr (by omega), fun i hi => ?_⟩
  by_contra hne
  have hlt := (page_ne_nil_iff hsize).mp hne
  omega

end Ranking
