import Mathlib.Data.List.TakeWhile

/-!
# Texts

`String.prototype.trim` and `String.prototype.split`.
-/

namespace Js

/-- What `String.prototype.trim` removes. -/
def isTrimmed (c : Char) : Bool :=
  c = '\t' || c = '\n' || c = '\x0b' || c = '\x0c' || c = '\r' || c = ' ' || c = '\u00a0' ||
    c = '\u1680' || ('\u2000' ≤ c && c ≤ '\u200a') || c = '\u2028' || c = '\u2029' ||
    c = '\u202f' || c = '\u205f' || c = '\u3000' || c = '\ufeff'

/-- `String.prototype.trim`. -/
def trim (s : String) : String :=
  String.ofList ((s.toList.dropWhile isTrimmed).reverse.dropWhile isTrimmed).reverse

theorem mem_dropWhile_of_mem {p : Char → Bool} {cs : List Char} {c : Char} (hc : p c = false)
    (h : c ∈ cs) : c ∈ cs.dropWhile p := by
  rw [← List.takeWhile_append_dropWhile (p := p) (l := cs)] at h
  rcases List.mem_append.mp h with hmem | hmem
  · have hp := List.mem_takeWhile_imp hmem
    rw [hc] at hp
    cases hp
  · exact hmem

/-- Trimming keeps every character but those at the ends. -/
theorem mem_trim {s : String} {c : Char} (hc : isTrimmed c = false) :
    c ∈ (trim s).toList ↔ c ∈ s.toList := by
  unfold trim
  rw [String.toList_ofList, List.mem_reverse]
  constructor
  · intro h
    have hmem := (List.dropWhile_suffix _).subset h
    exact (List.dropWhile_suffix _).subset (List.mem_reverse.mp hmem)
  · intro h
    exact mem_dropWhile_of_mem hc (List.mem_reverse.mpr (mem_dropWhile_of_mem hc h))

/-- A text of which nothing is left. -/
theorem trim_eq_empty {s : String} : trim s = "" ↔ s.toList.all isTrimmed = true := by
  rw [List.all_eq_true]
  constructor
  · intro h c hc
    by_contra hkept
    have hmem := (mem_trim (eq_false_of_ne_true hkept)).mpr hc
    rw [h] at hmem
    cases hmem
  · intro h
    unfold trim
    rw [List.dropWhile_eq_nil_iff.mpr h]
    rfl

theorem dropWhile_of_none {p : Char → Bool} {cs : List Char} (h : ∀ c ∈ cs, p c = false) :
    cs.dropWhile p = cs := by
  cases cs with
  | nil => rfl
  | cons c cs => rw [List.dropWhile_cons_of_neg (ne_true_of_eq_false (h c List.mem_cons_self))]

/-- The blanks around a text that has none of its own. -/
theorem trim_surrounded {before s after : String} (hbefore : before.toList.all isTrimmed = true)
    (hs : ∀ c ∈ s.toList, isTrimmed c = false) (hafter : after.toList.all isTrimmed = true) :
    trim (before ++ s ++ after) = s := by
  have hreverse : ∀ c ∈ s.toList.reverse, isTrimmed c = false := fun c hc => hs c (List.mem_reverse.mp hc)
  have hend : ∀ c ∈ after.toList.reverse, isTrimmed c = true := fun c hc =>
    List.all_eq_true.mp hafter c (List.mem_reverse.mp hc)
  have hrest : ((s.toList ++ after.toList).dropWhile isTrimmed).reverse.dropWhile isTrimmed =
      s.toList.reverse := by
    cases hcs : s.toList with
    | nil => rw [List.nil_append, List.dropWhile_eq_nil_iff.mpr (List.all_eq_true.mp hafter)]; rfl
    | cons c cs =>
      have hc : isTrimmed c = false := hs c (hcs ▸ List.mem_cons_self)
      rw [List.cons_append, List.dropWhile_cons_of_neg (ne_true_of_eq_false hc), ← List.cons_append,
        List.reverse_append, List.dropWhile_append_of_pos hend, ← hcs, dropWhile_of_none hreverse]
  unfold trim
  rw [String.toList_append, String.toList_append, List.append_assoc,
    List.dropWhile_append_of_pos (List.all_eq_true.mp hbefore), hrest, List.reverse_reverse,
    String.ofList_toList]

/-! ## Splitting -/

/-- `String.prototype.split` at a character. -/
def split (s : String) (c : Char) : List String := (s.toList.splitOn c).map String.ofList

theorem split_of_notMem {s : String} {c : Char} (h : c ∉ s.toList) : split s c = [s] := by
  unfold split
  rw [List.splitOn_eq_singleton h, List.map_singleton, String.ofList_toList]

/-- Parts without the separator, joined by it. -/
theorem split_intercalate {parts : List String} {c : Char} (hparts : ∀ part ∈ parts, c ∉ part.toList)
    (hne : parts ≠ []) : split ((String.singleton c).intercalate parts) c = parts := by
  have hchars : ∀ cs ∈ parts.map String.toList, c ∉ cs := by
    intro cs hcs
    obtain ⟨part, hpart, rfl⟩ := List.mem_map.mp hcs
    exact hparts part hpart
  unfold split
  rw [String.toList_intercalate, String.toList_singleton,
    List.splitOn_intercalate c hchars (by simpa using hne), List.map_map]
  exact (List.map_congr_left fun part _ => String.ofList_toList).trans (List.map_id parts)

theorem notMem_of_mem_splitOn {cs part : List Char} {c : Char} (h : part ∈ cs.splitOn c) :
    c ∉ part := by
  induction cs generalizing part with
  | nil =>
    rw [List.splitOn_nil, List.mem_singleton] at h
    subst h
    exact List.not_mem_nil
  | cons d cs ih =>
    obtain ⟨first, parts, hparts⟩ := List.exists_cons_of_ne_nil (List.splitOn_ne_nil c cs)
    rw [List.splitOn_cons_eq_if_modifyHead, hparts] at h
    rw [hparts] at ih
    split_ifs at h with hd
    · rcases List.mem_cons.mp h with rfl | hmem
      · exact List.not_mem_nil
      · exact ih hmem
    · rcases List.mem_cons.mp h with rfl | hmem
      · intro hc
        rcases List.mem_cons.mp hc with rfl | hc
        · exact hd (beq_self_eq_true c)
        · exact ih List.mem_cons_self hc
      · exact ih (List.mem_cons_of_mem _ hmem)

/-- No part has the separator. -/
theorem notMem_of_mem_split {s part : String} {c : Char} (h : part ∈ split s c) : c ∉ part.toList := by
  obtain ⟨cs, hcs, rfl⟩ := List.mem_map.mp h
  rw [String.toList_ofList]
  exact notMem_of_mem_splitOn hcs

end Js
