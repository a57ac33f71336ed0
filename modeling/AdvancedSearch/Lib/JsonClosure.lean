import Mathlib.Data.List.Forall2
import AdvancedSearch.Lib.Json

/-!
# Values that differ inside

The values that a relation on JSON relates wherever the related parts stand: the least reflexive and
transitive relation that contains it and is closed under items of arrays and fields of objects. What
rewriting from the inside out makes equal of related parts, it makes equal of the values around them
(`rewrite_eq_of_closure`).
-/

namespace Js

namespace Json

variable {R : Json → Json → Prop}

/-- Related in any number of places. -/
inductive Closure (R : Json → Json → Prop) : Json → Json → Prop
  | base {a b : Json} (h : R a b) : Closure R a b
  | refl (a : Json) : Closure R a a
  | trans {a b c : Json} (hab : Closure R a b) (hbc : Closure R b c) : Closure R a c
  | item {a b : Json} (before after : List Json) (h : Closure R a b) :
    Closure R (.array (before ++ a :: after)) (.array (before ++ b :: after))
  | value {a b : Json} (before after : Fields) (key : String) (h : Closure R a b) :
    Closure R (.object (before ++ (key, a) :: after)) (.object (before ++ (key, b) :: after))

/-- Fields with the same keys and related values. -/
def FieldsClosure (R : Json → Json → Prop) (fs gs : Fields) : Prop :=
  List.Forall₂ (fun f g => f.1 = g.1 ∧ Closure R f.2 g.2) fs gs

namespace FieldsClosure

theorem refl (fields : Fields) : FieldsClosure R fields fields :=
  List.forall₂_same.mpr fun f _ => ⟨rfl, .refl f.2⟩

theorem of_eq {fs gs : Fields} (h : fs = gs) : FieldsClosure R fs gs := h ▸ refl fs

theorem cons (key : String) {a b : Json} (h : Closure R a b) {fs gs : Fields}
    (hrest : FieldsClosure R fs gs) : FieldsClosure R ((key, a) :: fs) ((key, b) :: gs) :=
  List.Forall₂.cons ⟨rfl, h⟩ hrest

/-- One field. -/
theorem single (key : String) {a b : Json} (h : Closure R a b) :
    FieldsClosure R [(key, a)] [(key, b)] := cons key h (refl [])

theorem append {fs gs fs' gs' : Fields} (h : FieldsClosure R fs gs) (h' : FieldsClosure R fs' gs') :
    FieldsClosure R (fs ++ fs') (gs ++ gs') := List.rel_append h h'

end FieldsClosure

namespace Closure

theorem symm (hR : ∀ a b, R a b → R b a) {a b : Json} (h : Closure R a b) : Closure R b a := by
  induction h with
  | base h => exact .base (hR _ _ h)
  | refl a => exact .refl a
  | trans _ _ hab hbc => exact .trans hbc hab
  | item before after _ ih => exact .item before after ih
  | value before after key _ ih => exact .value before after key ih

/-- Arrays are related item by item. -/
theorem array {xs ys : List Json} (h : List.Forall₂ (Closure R) xs ys) :
    Closure R (.array xs) (.array ys) := by
  have hafter : ∀ before, Closure R (.array (before ++ xs)) (.array (before ++ ys)) := by
    induction h with
    | nil => exact fun before => .refl _
    | @cons a b xs ys hab _ ih =>
      intro before
      have hrest := ih (before ++ [b])
      rw [List.append_assoc, List.append_assoc] at hrest
      exact (item before xs hab).trans hrest
  exact hafter []

/-- Objects are related field by field. -/
theorem object {fs gs : Fields} (h : FieldsClosure R fs gs) :
    Closure R (.object fs) (.object gs) := by
  have hafter : ∀ before, Closure R (.object (before ++ fs)) (.object (before ++ gs)) := by
    induction h with
    | nil => exact fun before => .refl _
    | @cons f g fs gs hfg _ ih =>
      intro before
      obtain ⟨key, a⟩ := f
      obtain ⟨key', b⟩ := g
      obtain ⟨rfl, hab⟩ : key = key' ∧ Closure R a b := hfg
      have hrest := ih (before ++ [(key, b)])
      rw [List.append_assoc, List.append_assoc] at hrest
      exact (value before fs key hab).trans hrest
  exact hafter []

end Closure

/-! ## Rewriting from the inside out -/

variable (f : Json → Json)

mutual

/-- Every object rewritten, once its values are. -/
def rewrite : Json → Json
  | array items => array (rewriteItems items)
  | object fields => f (object (rewriteFields fields))
  | value => value

def rewriteItems : List Json → List Json
  | [] => []
  | item :: items => rewrite item :: rewriteItems items

def rewriteFields : List (String × Json) → List (String × Json)
  | [] => []
  | (key, value) :: fields => (key, rewrite value) :: rewriteFields fields

end

variable {f}

theorem rewriteItems_append (before after : List Json) :
    rewriteItems f (before ++ after) = rewriteItems f before ++ rewriteItems f after := by
  induction before with
  | nil => rfl
  | cons item before ih => exact congrArg (rewrite f item :: ·) ih

theorem rewriteFields_append (before after : Fields) :
    rewriteFields f (before ++ after) = rewriteFields f before ++ rewriteFields f after := by
  induction before with
  | nil => rfl
  | cons field before ih => exact congrArg ((field.1, rewrite f field.2) :: ·) ih

theorem rewriteFields_eq_map (fields : Fields) :
    rewriteFields f fields = fields.map fun field => (field.1, rewrite f field.2) := by
  induction fields with
  | nil => rfl
  | cons field fields ih => exact congrArg ((field.1, rewrite f field.2) :: ·) ih

/-- Rewriting does not tell apart what it does not tell apart inside. -/
theorem rewrite_eq_of_closure (h : ∀ a b, R a b → rewrite f a = rewrite f b) {a b : Json}
    (hab : Closure R a b) : rewrite f a = rewrite f b := by
  induction hab with
  | base hab => exact h _ _ hab
  | refl => rfl
  | trans _ _ ihab ihbc => exact ihab.trans ihbc
  | @item a b before after _ ih =>
    show array (rewriteItems f (before ++ a :: after)) = array (rewriteItems f (before ++ b :: after))
    rw [rewriteItems_append, rewriteItems_append, rewriteItems, rewriteItems, ih]
  | @value a b before after key _ ih =>
    show f (object (rewriteFields f (before ++ (key, a) :: after))) =
      f (object (rewriteFields f (before ++ (key, b) :: after)))
    rw [rewriteFields_append, rewriteFields_append, rewriteFields, rewriteFields, ih]

end Json

end Js
