import Mathlib.Data.List.Sort
import Mathlib.Order.WithBot
import AdvancedSearch.Lib.JsonParse

/-!
# The order of keys

Texts are sorted by their UTF-16 code units, which tell them apart, so a list of distinct texts has one
sorted order. An object lists its keys in property order, however they were assigned.
-/

namespace Js

/-! ## Sorted texts -/

theorem codeUnits_injective {a b : String} (h : codeUnits a = codeUnits b) : a = b := by
  have hchars : some a.toList = some b.toList := by
    rw [← decodeUnits_flatMap, ← decodeUnits_flatMap]
    exact congrArg decodeUnits h
  exact String.toList_inj.mp (Option.some.inj hchars)

instance : Std.Total fun a b : String => stringLe a b where
  total a b := by
    unfold stringLe
    rw [decide_eq_true_eq, decide_eq_true_eq]
    exact le_total _ _

instance : IsTrans String fun a b => stringLe a b where
  trans a b c hab hbc := by
    unfold stringLe at hab hbc ⊢
    rw [decide_eq_true_eq] at hab hbc ⊢
    exact le_trans hab hbc

theorem stringLe_antisymm {a b : String} (hab : stringLe a b) (hba : stringLe b a) : a = b := by
  unfold stringLe at hab hba
  exact codeUnits_injective (le_antisymm (of_decide_eq_true hab) (of_decide_eq_true hba))

/-- The fields of an object in the order of `Object.keys(object).sort()`. -/
def sortFields (fields : Fields) : Fields := fields.insertionSort fun a b => stringLe a.1 b.1

theorem sortFields_perm (fields : Fields) : (sortFields fields).Perm fields := List.perm_insertionSort _ _

/-- What no two members of a list tie in has one sorted order of it. -/
theorem insertionSort_eq_of_perm {α : Type} {r : α → α → Prop} [DecidableRel r] [Std.Total r]
    [IsTrans α r] {xs ys : List α} (h : xs.Perm ys)
    (hanti : ∀ a ∈ xs, ∀ b ∈ xs, r a b → r b a → a = b) :
    xs.insertionSort r = ys.insertionSort r := by
  have hperm : (xs.insertionSort r).Perm (ys.insertionSort r) :=
    (List.perm_insertionSort r xs).trans (h.trans (List.perm_insertionSort r ys).symm)
  refine hperm.eq_of_pairwise (fun a b ha hb => ?_) (List.pairwise_insertionSort r xs)
    (List.pairwise_insertionSort r ys)
  exact hanti a ((List.perm_insertionSort r xs).mem_iff.mp ha) b
    (h.mem_iff.mpr ((List.perm_insertionSort r ys).mem_iff.mp hb))

/-- Distinct keys have one sorted order. -/
theorem sortFields_eq_of_perm {fs gs : Fields} (h : fs.Perm gs) (hdistinct : (fs.map (·.1)).Nodup) :
    sortFields fs = sortFields gs := by
  have : Std.Total fun a b : String × Json => stringLe a.1 b.1 :=
    ⟨fun a b => (inferInstance : Std.Total fun a b : String => stringLe a b).total a.1 b.1⟩
  have : IsTrans (String × Json) fun a b => stringLe a.1 b.1 :=
    ⟨fun a b c => (inferInstance : IsTrans String fun a b => stringLe a b).trans a.1 b.1 c.1⟩
  exact insertionSort_eq_of_perm h fun a ha b hb hab hba =>
    List.inj_on_of_nodup_map hdistinct ha hb (stringLe_antisymm hab hba)

/-! ## Property order -/

/-- Where a key is listed: array indices by their number, the other keys after them. -/
def propertyRank (key : String) : WithTop ℕ :=
  match arrayIndex? key with
  | some i => i
  | none => ⊤

theorem precedes_iff {key other : String} :
    precedes key other ↔ propertyRank key < propertyRank other := by
  unfold precedes propertyRank
  cases arrayIndex? key with
  | none => simp
  | some i =>
    cases arrayIndex? other with
    | none => simp
    | some j => simp

/-- Distinct keys, listed as an object lists them. -/
structure InPropertyOrder (fields : Fields) : Prop where
  distinct : (fields.map (·.1)).Nodup
  listed : fields.Pairwise fun f g => propertyRank f.1 ≤ propertyRank g.1

theorem inPropertyOrder_nil : InPropertyOrder [] := ⟨List.nodup_nil, List.Pairwise.nil⟩

theorem addField_perm (key : String) (value : Json) (fields : Fields) :
    (addField key value fields).Perm ((key, value) :: fields) := by
  induction fields with
  | nil => exact List.Perm.refl _
  | cons f fields ih =>
    unfold addField
    split
    · exact List.Perm.refl _
    · exact (ih.cons f).trans (List.Perm.swap _ _ _)

theorem addField_listed (key : String) (value : Json) {fields : Fields}
    (h : fields.Pairwise fun f g => propertyRank f.1 ≤ propertyRank g.1) :
    (addField key value fields).Pairwise fun f g => propertyRank f.1 ≤ propertyRank g.1 := by
  induction fields with
  | nil => exact List.pairwise_singleton _ _
  | cons f fields ih =>
    obtain ⟨hfirst, hrest⟩ := List.pairwise_cons.mp h
    unfold addField
    split
    · rename_i hprecedes
      have hlt := (precedes_iff.mp hprecedes).le
      exact List.pairwise_cons.mpr
        ⟨List.forall_mem_cons.mpr ⟨hlt, fun g hg => hlt.trans (hfirst g hg)⟩, h⟩
    · rename_i hprecedes
      refine List.pairwise_cons.mpr ⟨fun g hg => ?_, ih hrest⟩
      rcases List.mem_cons.mp ((addField_perm key value fields).mem_iff.mp hg) with rfl | hg
      · exact not_lt.mp fun hlt => hprecedes (precedes_iff.mpr hlt)
      · exact hfirst g hg

/-- An assignment keeps the property order. -/
theorem InPropertyOrder.putField {fields : Fields} (h : InPropertyOrder fields) (key : String)
    (value : Json) : InPropertyOrder (putField fields key value) := by
  unfold Js.putField
  split
  · have hkey : ∀ f : String × Json, (if f.1 = key then (f.1, value) else f).1 = f.1 := by
      intro f
      split <;> rfl
    constructor
    · rw [List.map_map, show ((fun f : String × Json => f.1) ∘ fun f => if f.1 = key then (f.1, value) else f) =
        fun f => f.1 from funext hkey]
      exact h.distinct
    · rw [List.pairwise_map]
      refine h.listed.imp fun {f g} hle => ?_
      rwa [hkey, hkey]
  · rename_i hnew
    refine ⟨?_, addField_listed key value h.listed⟩
    rw [((addField_perm key value fields).map (·.1)).nodup_iff, List.map_cons, List.nodup_cons]
    refine ⟨fun hmem => hnew ?_, h.distinct⟩
    obtain ⟨f, hf, hkey⟩ := List.mem_map.mp hmem
    exact List.any_eq_true.mpr ⟨f, hf, decide_eq_true hkey⟩

theorem inPropertyOrder_foldl {acc : Fields} (h : InPropertyOrder acc) (fields : Fields) :
    InPropertyOrder (fields.foldl (fun o f => putField o f.1 f.2) acc) := by
  induction fields generalizing acc with
  | nil => exact h
  | cons f fields ih => exact ih (h.putField f.1 f.2)

theorem putField_new {fields : Fields} {key : String} (value : Json)
    (h : key ∉ fields.map (·.1)) : putField fields key value = addField key value fields := by
  unfold putField
  rw [if_neg]
  intro hany
  obtain ⟨f, hf, hkey⟩ := List.any_eq_true.mp hany
  exact h (List.mem_map.mpr ⟨f, hf, of_decide_eq_true hkey⟩)

theorem key_not_mem {acc fields : Fields} {f : String × Json}
    (h : ((acc ++ f :: fields).map (·.1)).Nodup) : f.1 ∉ acc.map (·.1) := by
  rw [List.map_append, List.map_cons] at h
  exact fun hmem => (List.nodup_append.mp h).2.2 f.1 hmem f.1 List.mem_cons_self rfl

/-- Assigning distinct keys one after the other permutes them. -/
theorem foldl_putField_perm {acc fields : Fields} (h : ((acc ++ fields).map (·.1)).Nodup) :
    (fields.foldl (fun o f => putField o f.1 f.2) acc).Perm (acc ++ fields) := by
  induction fields generalizing acc with
  | nil => rw [List.append_nil]; exact List.Perm.refl _
  | cons f fields ih =>
    have hmiddle : (acc ++ f :: fields).Perm (addField f.1 f.2 acc ++ fields) :=
      List.perm_middle.trans ((addField_perm f.1 f.2 acc).symm.append_right fields)
    rw [List.foldl_cons, putField_new f.2 (key_not_mem h)]
    refine (ih ?_).trans hmiddle.symm
    rwa [← (hmiddle.map (·.1)).nodup_iff]

theorem addField_last_of_listed {fields : Fields} {key : String} (value : Json)
    (h : ∀ f ∈ fields, propertyRank f.1 ≤ propertyRank key) :
    addField key value fields = fields ++ [(key, value)] := by
  induction fields with
  | nil => rfl
  | cons f fields ih =>
    obtain ⟨hfirst, hrest⟩ := List.forall_mem_cons.mp h
    unfold addField
    rw [if_neg fun hprecedes => absurd (precedes_iff.mp hprecedes) (not_lt.mpr hfirst), ih hrest,
      List.cons_append]

/-- What is in property order is listed as it was assigned. -/
theorem foldl_putField_eq {acc fields : Fields} (h : InPropertyOrder (acc ++ fields)) :
    fields.foldl (fun o f => putField o f.1 f.2) acc = acc ++ fields := by
  induction fields generalizing acc with
  | nil => exact (List.append_nil acc).symm
  | cons f fields ih =>
    have hlast : ∀ g ∈ acc, propertyRank g.1 ≤ propertyRank f.1 := fun g hg =>
      (List.pairwise_append.mp h.listed).2.2 g hg f List.mem_cons_self
    have hsplit : acc ++ f :: fields = (acc ++ [f]) ++ fields := by
      rw [List.append_assoc, List.singleton_append]
    rw [List.foldl_cons, putField_new f.2 (key_not_mem h.distinct),
      addField_last_of_listed f.2 hlast, hsplit]
    exact ih (hsplit ▸ h)

/-- Objects as JavaScript has them: their fields are in property order. -/
theorem Json.ordered_object_iff {fields : Fields} :
    (Json.object fields).Ordered ↔ (∀ f ∈ fields, f.2.Ordered) ∧ InPropertyOrder fields := by
  have hvalues : Json.fieldsOrdered fields ↔ ∀ f ∈ fields, f.2.Ordered := by
    induction fields with
    | nil => exact ⟨fun _ _ h => absurd h List.not_mem_nil, fun _ => trivial⟩
    | cons f fields ih =>
      show f.2.Ordered ∧ Json.fieldsOrdered fields ↔ _
      rw [ih, List.forall_mem_cons]
  show Json.fieldsOrdered fields ∧ fields.foldl (fun o f => putField o f.1 f.2) [] = fields ↔ _
  rw [hvalues]
  refine and_congr_right fun _ => ⟨fun h => ?_, fun h => ?_⟩
  · rw [← h]
    exact inPropertyOrder_foldl inPropertyOrder_nil fields
  · exact foldl_putField_eq h

end Js
