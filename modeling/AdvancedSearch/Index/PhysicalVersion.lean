import Mathlib.Data.List.Basic
import AdvancedSearch.Lib.Whole

/-!
# Physical index names

`<alias>_v<n>`: how the name of a physical index is spelled and read back. A version is a
JavaScript number, so reading a numeral and adding one are the operations of `Js.Whole`.

`parsePhysicalIndexVersion_name`: a name the code spelled is read as the version it was spelled
from, or not read at all (an alias with a line break, a version printed with an exponent).
-/

namespace AdvancedSearch

open Js

/-- `IndexMigrationError`: a migration could not proceed safely. -/
structure IndexMigrationError where
  message : String
  deriving DecidableEq, Repr

/-- What `.` does not match. -/
def isLineTerminator (c : Char) : Bool :=
  c = '\n' || c = '\r' || c = '\u2028' || c = '\u2029'

/-- `PHYSICAL_INDEX_PATTERN = /^(?<alias>.+)_v(?<version>\d+)$/`: the two groups of a match. The
digits reach back to the `_v`, so there is at most one way to match. -/
def matchPhysicalIndex (name : List Char) : Option (List Char × List Char) :=
  let version := (name.reverse.takeWhile Char.isDigit).reverse
  match name.reverse.dropWhile Char.isDigit with
  | 'v' :: '_' :: reversed =>
    if version ≠ [] ∧ reversed ≠ [] ∧ reversed.all (fun c => !isLineTerminator c) then
      some (reversed.reverse, version)
    else none
  | _ => none

/-- `products` and 2 give `products_v2`. -/
def physicalIndexName (aliasName : String) (version : Whole) : String :=
  aliasName ++ "_v" ++ version.toString

def unconventionalIndex (aliasName physicalIndex : String) : IndexMigrationError where
  message := "Alias \"" ++ aliasName ++ "\" points at \"" ++ physicalIndex ++ "\", which is not a \"" ++
    aliasName ++ "_v<n>\" index. " ++
    "Refusing to migrate: point the alias at a conventionally named index first."

/-- The version of the index an alias points at. `Number` of no match is `NaN`, and of a numeral
past the largest double `Infinity`; neither is an integer. -/
def parsePhysicalIndexVersion (aliasName physicalIndex : String) : Except IndexMigrationError Whole :=
  match matchPhysicalIndex physicalIndex.toList with
  | none => .error (unconventionalIndex aliasName physicalIndex)
  | some (group, digits) =>
    match Whole.ofNat? (Nat.ofDigitChars 10 digits 0) with
    | none => .error (unconventionalIndex aliasName physicalIndex)
    | some version =>
      if String.ofList group ≠ aliasName ∨ version.val < 1 then
        .error (unconventionalIndex aliasName physicalIndex)
      else .ok version

/-- The same parse, `none` instead of a throw. -/
def tryParsePhysicalIndexVersion (aliasName physicalIndex : String) : Option Whole :=
  (parsePhysicalIndexVersion aliasName physicalIndex).toOption

/-- The version to create next; 1 when nothing is provisioned yet. -/
def nextPhysicalVersion : Option Whole → Whole
  | none => Whole.small 1 (by norm_num)
  | some current => current.succ

/-- The version of a first provisioning. -/
abbrev firstVersion : Whole := nextPhysicalVersion none

theorem physicalIndexName_ne (aliasName : String) (version : Whole) :
    physicalIndexName aliasName version ≠ aliasName := by
  unfold physicalIndexName
  intro h
  have := congrArg String.length h
  rw [String.length_append, String.length_append, show "_v".length = 2 from rfl] at this
  omega

/-! ## Reading back a spelled name -/

theorem matchPhysicalIndex_of_digits {aliasName ds : List Char} (hne : ds ≠ [])
    (hd : ∀ c ∈ ds, c.isDigit) :
    matchPhysicalIndex (aliasName ++ '_' :: 'v' :: ds) =
      if aliasName ≠ [] ∧ aliasName.all (fun c => !isLineTerminator c) then some (aliasName, ds) else none := by
  have hd' : ∀ c ∈ ds.reverse, c.isDigit = true := fun c hc => hd c (List.mem_reverse.mp hc)
  have hrev : (aliasName ++ '_' :: 'v' :: ds).reverse = ds.reverse ++ 'v' :: '_' :: aliasName.reverse := by
    simp
  have htake : (ds.reverse ++ 'v' :: '_' :: aliasName.reverse).takeWhile Char.isDigit = ds.reverse := by
    rw [List.takeWhile_append_of_pos hd', List.takeWhile_cons_of_neg (by decide), List.append_nil]
  have hdrop : (ds.reverse ++ 'v' :: '_' :: aliasName.reverse).dropWhile Char.isDigit =
      'v' :: '_' :: aliasName.reverse := by
    rw [List.dropWhile_append_of_pos hd', List.dropWhile_cons_of_neg (by decide)]
  unfold matchPhysicalIndex
  simp only [hrev, htake, hdrop, List.reverse_reverse, List.all_reverse, ne_eq,
    List.reverse_eq_nil_iff, hne, not_false_eq_true, true_and]

/-- A name whose last non-digit is not the `v` of `_v` does not match. -/
theorem matchPhysicalIndex_of_other {pre ds : List Char} {c : Char} (hc : c ≠ 'v')
    (hc' : c.isDigit = false) (hd : ∀ c ∈ ds, c.isDigit) :
    matchPhysicalIndex (pre ++ c :: ds) = none := by
  have hd' : ∀ c ∈ ds.reverse, c.isDigit = true := fun c hc => hd c (List.mem_reverse.mp hc)
  have hrev : (pre ++ c :: ds).reverse = ds.reverse ++ c :: pre.reverse := by simp
  have hdrop : (ds.reverse ++ c :: pre.reverse).dropWhile Char.isDigit = c :: pre.reverse := by
    rw [List.dropWhile_append_of_pos hd', List.dropWhile_cons_of_neg (by simp [hc'])]
  unfold matchPhysicalIndex
  simp only [hrev, hdrop]
  split
  · next h => exact absurd (List.cons.inj h).1 hc
  · rfl

theorem isDigit_of_mem_repr {n : ℕ} {c : Char} (h : c ∈ n.repr.toList) : c.isDigit := by
  rw [Nat.toList_repr] at h
  exact Nat.isDigit_of_mem_toDigits (by norm_num) (by norm_num) h

/-- An alias that a physical index name can carry: `.+` matches it. -/
def Spellable (aliasName : String) : Prop :=
  aliasName.toList ≠ [] ∧ aliasName.toList.all (fun c => !isLineTerminator c)

instance (aliasName : String) : Decidable (Spellable aliasName) :=
  inferInstanceAs (Decidable (_ ∧ _))

/-- The parse of a name with a plain numeral. -/
theorem parsePhysicalIndexVersion_repr (aliasName : String) {m : ℕ} {n : Whole}
    (h : roundToDouble m = n.val) :
    parsePhysicalIndexVersion aliasName (aliasName ++ "_v" ++ m.repr) =
      if Spellable aliasName ∧ 1 ≤ n.val then .ok n
      else .error (unconventionalIndex aliasName (aliasName ++ "_v" ++ m.repr)) := by
  have hl : (aliasName ++ "_v" ++ m.repr).toList = aliasName.toList ++ '_' :: 'v' :: m.repr.toList := by
    simp
  have hne : m.repr.toList ≠ [] := by simp
  have hm := @matchPhysicalIndex_of_digits aliasName.toList _ hne
    (fun c hc => isDigit_of_mem_repr hc)
  have hv : Whole.ofNat? (Nat.ofDigitChars 10 m.repr.toList 0) = some n := by
    rw [Nat.toList_repr, Nat.ofDigitChars_ten_toDigits]
    exact Whole.ofNat?_eq_some h
  unfold parsePhysicalIndexVersion
  rw [hl, hm]
  by_cases ha : aliasName.toList ≠ [] ∧ aliasName.toList.all (fun c => !isLineTerminator c)
  · have hs : Spellable aliasName := ha
    rw [if_pos ha]
    simp only [hv, String.ofList_toList, ne_eq, not_true_eq_false, false_or, hs, true_and]
    by_cases h1 : n.val < 1
    · rw [if_pos h1, if_neg (by omega)]
    · rw [if_neg h1, if_pos (by omega)]
  · have hs : ¬ Spellable aliasName := ha
    rw [if_neg ha, if_neg (fun h => hs h.1)]

/-- A version printed with an exponent is not read. -/
theorem parsePhysicalIndexVersion_exponent (aliasName pre : String) (m : ℕ) :
    parsePhysicalIndexVersion aliasName (pre ++ "e+" ++ m.repr) =
      .error (unconventionalIndex aliasName (pre ++ "e+" ++ m.repr)) := by
  have hl : (pre ++ "e+" ++ m.repr).toList = (pre.toList ++ ['e']) ++ '+' :: m.repr.toList := by
    simp
  unfold parsePhysicalIndexVersion
  rw [hl, matchPhysicalIndex_of_other (by decide) (by decide)
    (fun c hc => isDigit_of_mem_repr hc)]

/-- A spelled name is read as the version it was spelled from, if it is read. -/
theorem parsePhysicalIndexVersion_name {aliasName : String} {n v : Whole}
    (h : parsePhysicalIndexVersion aliasName (physicalIndexName aliasName n) = .ok v) : v = n := by
  have hr := Whole.shortest_reads n.exact (Nat.toDigits 10 n.val).length
  unfold physicalIndexName Whole.toString at h
  generalize Whole.shortest n.val (Nat.toDigits 10 n.val).length = se at hr h
  obtain ⟨s, e⟩ := se
  simp only at hr h
  by_cases hlen : (Nat.toDigits 10 s).length + e ≤ 21
  · rw [if_pos hlen, parsePhysicalIndexVersion_repr aliasName hr] at h
    split_ifs at h
    cases h
    rfl
  · rw [if_neg hlen, ← String.append_assoc, ← String.append_assoc,
      parsePhysicalIndexVersion_exponent] at h
    cases h

theorem parsePhysicalIndexVersion_of_lt {aliasName : String} {n : Whole} (ha : Spellable aliasName)
    (h1 : 1 ≤ n.val) (hn : n.val < 2 ^ 53) :
    parsePhysicalIndexVersion aliasName (physicalIndexName aliasName n) = .ok n := by
  unfold physicalIndexName
  rw [Whole.toString_of_lt hn, parsePhysicalIndexVersion_repr aliasName n.exact, if_pos ⟨ha, h1⟩]

/-- The digits that a name ends in. -/
def versionDigits (name : String) : List Char := (name.toList.reverse.takeWhile Char.isDigit).reverse

/-- A name that is read: the alias, `_v` and the digits of a numeral that rounds to the version. -/
structure ReadsAs (aliasName name : String) (version : Whole) : Prop where
  spelled : name = aliasName ++ "_v" ++ String.ofList (versionDigits name)
  spellable : Spellable aliasName
  rounds : roundToDouble (Nat.ofDigitChars 10 (versionDigits name) 0) = version.val
  pos : 1 ≤ version.val

theorem parsePhysicalIndexVersion_reads {aliasName name : String} {v : Whole}
    (h : parsePhysicalIndexVersion aliasName name = .ok v) : ReadsAs aliasName name v := by
  unfold parsePhysicalIndexVersion at h
  split at h
  · cases h
  · next group digits hmatch =>
    split at h
    · cases h
    · next version hversion =>
      split_ifs at h with hc
      cases h
      rw [not_or, not_not] at hc
      unfold matchPhysicalIndex at hmatch
      split at hmatch
      · next reversed hdrop =>
        dsimp only at hmatch
        split_ifs at hmatch with hgroups
        obtain ⟨rfl, rfl⟩ := Prod.mk.inj (Option.some.inj hmatch)
        have hname : name.toList = reversed.reverse ++ '_' :: 'v' :: versionDigits name := by
          have hsplit := List.takeWhile_append_dropWhile (p := Char.isDigit) (l := name.toList.reverse)
          rw [hdrop] at hsplit
          have hback := congrArg List.reverse hsplit
          rw [List.reverse_reverse] at hback
          rw [← hback, versionDigits]
          simp
        have halias : aliasName.toList = reversed.reverse := by
          rw [← hc.1, String.toList_ofList]
        refine ⟨?_, ⟨?_, ?_⟩, ?_, by omega⟩
        · rw [← String.toList_inj]
          rw [hname]
          simp [halias]
        · rw [halias]
          exact fun hnil => hgroups.2.1 (List.reverse_eq_nil_iff.mp hnil)
        · rw [halias, List.all_reverse]
          exact hgroups.2.2
        · unfold Whole.ofNat? at hversion
          split_ifs at hversion
          cases hversion
          rfl
      · cases hmatch

theorem parsePhysicalIndexVersion_pos {aliasName name : String} {v : Whole}
    (h : parsePhysicalIndexVersion aliasName name = .ok v) : 1 ≤ v.val :=
  (parsePhysicalIndexVersion_reads h).pos

/-- A name that is read is longer than its alias. -/
theorem ne_of_parsePhysicalIndexVersion {aliasName name : String} {v : Whole}
    (h : parsePhysicalIndexVersion aliasName name = .ok v) : name ≠ aliasName := by
  intro heq
  have hlen := congrArg String.length (heq ▸ (parsePhysicalIndexVersion_reads h).spelled)
  rw [String.length_append, String.length_append, show "_v".length = 2 from rfl] at hlen
  omega

theorem versionDigits_repr (pre : String) (m : ℕ) : versionDigits (pre ++ "_v" ++ m.repr) = m.repr.toList := by
  have hd : ∀ c ∈ m.repr.toList.reverse, c.isDigit = true := fun c hc =>
    isDigit_of_mem_repr (List.mem_reverse.mp hc)
  have hrev : (pre ++ "_v" ++ m.repr).toList.reverse =
      m.repr.toList.reverse ++ 'v' :: '_' :: pre.toList.reverse := by simp
  unfold versionDigits
  rw [hrev, List.takeWhile_append_of_pos hd, List.takeWhile_cons_of_neg (by decide), List.append_nil,
    List.reverse_reverse]

/-- A name spelled for an alias is read for no other. -/
theorem alias_of_parsePhysicalIndexVersion {aliasName other : String} {n v : Whole}
    (h : parsePhysicalIndexVersion aliasName (physicalIndexName other n) = .ok v) : other = aliasName := by
  have hspelled := (parsePhysicalIndexVersion_reads h).spelled
  unfold physicalIndexName Whole.toString at h hspelled
  generalize Whole.shortest n.val (Nat.toDigits 10 n.val).length = se at h hspelled
  obtain ⟨s, e⟩ := se
  simp only at h hspelled
  by_cases hlen : (Nat.toDigits 10 s).length + e ≤ 21
  · rw [if_pos hlen, versionDigits_repr, String.ofList_toList] at hspelled
    have hlist := congrArg String.toList hspelled
    simp only [String.toList_append, List.append_left_inj] at hlist
    exact String.toList_inj.mp hlist
  · rw [if_neg hlen, ← String.append_assoc, ← String.append_assoc,
      parsePhysicalIndexVersion_exponent] at h
    cases h

theorem tryParsePhysicalIndexVersion_eq_some {aliasName name : String} {v : Whole} :
    tryParsePhysicalIndexVersion aliasName name = some v ↔
      parsePhysicalIndexVersion aliasName name = .ok v := by
  unfold tryParsePhysicalIndexVersion
  cases parsePhysicalIndexVersion aliasName name <;> simp [Except.toOption]

example : parsePhysicalIndexVersion "products" "products_v007" =
    .ok (Whole.small 7 (by norm_num)) := by decide +kernel

end AdvancedSearch
