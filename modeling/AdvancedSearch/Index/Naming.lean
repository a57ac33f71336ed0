import AdvancedSearch.Index.Adapter

/-!
# Names and versions

Whether a name that is read is the one its version is spelled as, which `publishIndex` takes the alias
from (`names_correspond`).
-/

namespace AdvancedSearch

open Js

/-- The version of a name is spelled without a leading zero, and adding one to it gives a larger one. -/
def CanonicallyNamed (name : String) : Prop :=
  let version := Nat.ofDigitChars 10 (versionDigits name) 0
  version.repr.toList = versionDigits name ∧
    (version < 2 ^ 53 ∨ version < 2 ^ 54 ∧ version % 4 = 2)

instance (name : String) : Decidable (CanonicallyNamed name) := inferInstanceAs (Decidable (_ ∧ _))

/-- Such a version is read from one numeral only. -/
theorem eq_of_rounds {m n : ℕ} (hn : n < 2 ^ 53 ∨ n < 2 ^ 54 ∧ n % 4 = 2)
    (h : roundToDouble m = n) : m = n := by
  rcases hn with hn | ⟨hn, h4⟩
  · exact eq_of_roundToDouble_eq hn h
  · exact eq_of_roundToDouble_eq_even hn h4 h

/-- And it is held exactly. -/
theorem rounds_self {n : ℕ} (hn : n < 2 ^ 53 ∨ n < 2 ^ 54 ∧ n % 4 = 2) : roundToDouble n = n := by
  by_cases h53 : n < 2 ^ 53
  · exact roundToDouble_of_lt h53
  · obtain ⟨hn, h4⟩ := hn.resolve_left h53
    rw [roundToDouble_of_lt_two_pow (not_lt.mp h53) hn, if_pos (by omega)]

theorem toString_of_small {n : Whole} (hn : n.val < 2 ^ 53 ∨ n.val < 2 ^ 54 ∧ n.val % 4 = 2) :
    n.toString = n.val.repr :=
  Whole.toString_eq_repr (fun _ => eq_of_rounds hn) (by omega)

/-- A name is the one its version is spelled as exactly when its digits are those of the version. -/
theorem physicalIndexName_eq_iff {aliasName name : String} {n : Whole} (h : ReadsAs aliasName name n) :
    physicalIndexName aliasName n = name ↔ n.toString.toList = versionDigits name := by
  unfold physicalIndexName
  constructor
  · intro hname
    have hlist := congrArg String.toList (hname.trans h.spelled)
    simpa only [String.toList_append, String.toList_ofList, List.append_cancel_left_eq] using hlist
  · intro hdigits
    rw [h.spelled, ← hdigits, String.ofList_toList]

theorem named_iff {aliasName name : String} {n : Whole}
    (h : parsePhysicalIndexVersion aliasName name = .ok n) :
    physicalIndexName aliasName n = name ∧ n < nextPhysicalVersion (some n) ↔ CanonicallyNamed name := by
  have hreads := parsePhysicalIndexVersion_reads h
  rw [physicalIndexName_eq_iff hreads, show nextPhysicalVersion (some n) = n.succ from rfl,
    Whole.lt_succ_iff]
  unfold CanonicallyNamed
  constructor
  · rintro ⟨hdigits, hsmall⟩
    have hversion := eq_of_rounds hsmall hreads.rounds
    rw [toString_of_small hsmall] at hdigits
    dsimp only
    rw [hversion]
    exact ⟨hdigits, hsmall⟩
  · rintro ⟨hdigits, hsmall⟩
    have hversion := (rounds_self hsmall).symm.trans hreads.rounds
    rw [hversion] at hdigits hsmall
    rw [toString_of_small hsmall]
    exact ⟨hdigits, hsmall⟩

/-- **Names and versions.** A name that is read is the one its version is spelled as, and the next
version is larger, exactly when it is canonically named; the name of every version below `2 ^ 53` is read
as that version. So a flip takes the alias from the index it was read from when that is canonically
named. -/
theorem names_correspond (m : Image) :
    (∀ name n, parsePhysicalIndexVersion m.aliasName name = .ok n →
      (physicalIndexName m.aliasName n = name ∧ n < nextPhysicalVersion (some n) ↔
        CanonicallyNamed name)) ∧
      (Spellable m.aliasName → ∀ n : Whole, 1 ≤ n.val → n.val < 2 ^ 53 →
        parsePhysicalIndexVersion m.aliasName (physicalIndexName m.aliasName n) = .ok n) ∧
      ∀ name (pending : PendingVersion),
        parsePhysicalIndexVersion m.aliasName name = .ok pending.replacedVersion →
        CanonicallyNamed name → .remove name m.aliasName ∈ m.flipActions pending := by
  refine ⟨fun name n h => named_iff h, fun hspellable n h1 hn => ?_, fun name pending h hname => ?_⟩
  · exact parsePhysicalIndexVersion_of_lt hspellable h1 hn
  · have hspelled := ((named_iff h).mpr hname).1
    unfold Image.flipActions Image.physical
    rw [hspelled]
    exact List.mem_cons_self

/-- A leading zero is read, and the flip names another index; past `2 ^ 53` there is no next version. -/
theorem names_do_not_correspond :
    parsePhysicalIndexVersion "products" "products_v007" = .ok (Whole.small 7 (by decide)) ∧
      physicalIndexName "products" (Whole.small 7 (by decide)) = "products_v7" ∧
      AliasAction.remove "products_v007" "products" ∉ currentImage.flipActions
        ⟨Whole.small 8 (by decide), Whole.small 7 (by decide)⟩ ∧
      ∃ n, parsePhysicalIndexVersion "products" "products_v9007199254740992" = .ok n ∧
        ¬ n < nextPhysicalVersion (some n) := by
  refine ⟨by decide +kernel, by decide +kernel, fun h => ?_, ?_⟩
  · rcases List.mem_cons.mp h with hremove | hadd
    · exact absurd (AliasAction.remove.inj hremove).1 (by decide +kernel)
    · cases List.mem_singleton.mp hadd
  · exact ⟨⟨2 ^ 53, by decide +kernel, two_pow_lt (by norm_num)⟩, by decide +kernel, by decide +kernel⟩

/-- The seventh version of `products`. -/
theorem names_correspond_seven :
    physicalIndexName "products" (Whole.small 7 (by decide)) = "products_v7" ∧
      Whole.small 7 (by decide) < nextPhysicalVersion (some (Whole.small 7 (by decide))) :=
  ((names_correspond currentImage).1 "products_v7" _ (by decide +kernel)).mpr (by decide +kernel)

end AdvancedSearch
