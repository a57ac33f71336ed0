import Mathlib.Data.List.Basic

/-!
# Validation that reports everything

The parse of a value reaches it or stops short; either way it lists its issues. A record is a family of
values over its fields, parsed field by field, and then refined as a whole. What is accepted is reached
without an issue: of a record, exactly the values of its fields that its refinements hold of
(`yields_object`, `yields_refineAll`).
-/

namespace Validation

/-- A parse so far; `I` is what an issue is. -/
inductive Parsed (I α : Type) where
  | reached (value : α) (issues : List I)
  | aborted (issues : List I)

namespace Parsed

variable {I α β : Type}

def issues : Parsed I α → List I
  | reached _ issues => issues
  | aborted issues => issues

def value? : Parsed I α → Option α
  | reached value _ => some value
  | aborted _ => none

def map (f : α → β) : Parsed I α → Parsed I β
  | reached value issues => .reached (f value) issues
  | aborted issues => .aborted issues

/-- A check that lets the parse go on. -/
def check (p : Parsed I α) (accepts : α → Bool) (issue : I) : Parsed I α :=
  match p with
  | reached value issues =>
    if accepts value then .reached value issues else .reached value (issues ++ [issue])
  | aborted issues => .aborted issues

/-- A check that stops the parse. -/
def insist (p : Parsed I α) (accepts : α → Bool) (issue : I) : Parsed I α :=
  match p with
  | reached value issues =>
    if accepts value then .reached value issues else .aborted (issues ++ [issue])
  | aborted issues => .aborted issues

/-- A check that replaces the value where it succeeds. -/
def rewriteWith (p : Parsed I α) (f : α → Option α) (issue : I) : Parsed I α :=
  match p with
  | reached value issues =>
    match f value with
    | some value => .reached value issues
    | none => .reached value (issues ++ [issue])
  | aborted issues => .aborted issues

/-- Reached without an issue. -/
def Yields (p : Parsed I α) (a : α) : Prop := p = .reached a []

theorem Yields.unique {p : Parsed I α} {a b : α} (ha : p.Yields a) (hb : p.Yields b) : a = b :=
  (reached.inj (ha.symm.trans hb)).1

theorem yields_of_value {p : Parsed I α} {a : α} (hvalue : p.value? = some a) (hissues : p.issues = []) :
    p.Yields a := by
  cases p with
  | aborted issues => cases hvalue
  | reached value issues =>
    cases hvalue
    cases hissues
    rfl

theorem yields_map {f : α → β} {p : Parsed I α} {b : β} :
    (p.map f).Yields b ↔ ∃ a, p.Yields a ∧ f a = b := by
  unfold Yields
  cases p with
  | aborted issues => simp [map]
  | reached value issues =>
    simp only [map, reached.injEq]
    exact ⟨fun ⟨hb, hi⟩ => ⟨value, ⟨rfl, hi⟩, hb⟩, fun ⟨a, ⟨ha, hi⟩, hb⟩ => ⟨ha ▸ hb, hi⟩⟩

theorem yields_check {p : Parsed I α} {accepts : α → Bool} {issue : I} {a : α} :
    (p.check accepts issue).Yields a ↔ p.Yields a ∧ accepts a := by
  unfold Yields
  cases p with
  | aborted issues => simp [check]
  | reached value issues =>
    unfold check
    dsimp only
    split_ifs with h
    · simp only [reached.injEq]
      exact ⟨fun ⟨ha, hi⟩ => ⟨⟨ha, hi⟩, ha ▸ h⟩, fun h => h.1⟩
    · simp only [reached.injEq, List.append_eq_nil_iff, List.cons_ne_nil, and_false, false_iff, not_and]
      rintro ⟨rfl, -⟩ haccepts
      exact h haccepts

theorem yields_insist {p : Parsed I α} {accepts : α → Bool} {issue : I} {a : α} :
    (p.insist accepts issue).Yields a ↔ p.Yields a ∧ accepts a := by
  unfold Yields
  cases p with
  | aborted issues => simp [insist]
  | reached value issues =>
    unfold insist
    dsimp only
    split_ifs with h
    · simp only [reached.injEq]
      exact ⟨fun ⟨ha, hi⟩ => ⟨⟨ha, hi⟩, ha ▸ h⟩, fun h => h.1⟩
    · simp only [reached.injEq, false_iff, not_and]
      rintro ⟨rfl, -⟩ haccepts
      exact h haccepts

theorem yields_rewriteWith {p : Parsed I α} {f : α → Option α} {issue : I} {a : α} :
    (p.rewriteWith f issue).Yields a ↔ ∃ b, p.Yields b ∧ f b = some a := by
  unfold Yields
  cases p with
  | aborted issues => simp [rewriteWith]
  | reached value issues =>
    unfold rewriteWith
    dsimp only
    cases hf : f value with
    | some b =>
      simp only [reached.injEq]
      constructor
      · rintro ⟨rfl, hi⟩
        exact ⟨value, ⟨rfl, hi⟩, hf⟩
      · rintro ⟨c, ⟨rfl, hi⟩, hc⟩
        exact ⟨Option.some.inj (hf.symm.trans hc), hi⟩
    | none =>
      simp only [reached.injEq, List.append_eq_nil_iff, List.cons_ne_nil, and_false, false_iff]
      rintro ⟨c, ⟨rfl, -⟩, hc⟩
      rw [hf] at hc
      cases hc

/-! ## Inputs that may be absent -/

def required (missing : I) (schema : String → Parsed I α) : Option String → Parsed I α
  | none => .aborted [missing]
  | some text => schema text

def optional (schema : String → Parsed I α) : Option String → Parsed I (Option α)
  | none => .reached none []
  | some text => (schema text).map some

/-- A default is not checked. -/
def withDefault (default : α) (schema : String → Parsed I α) : Option String → Parsed I α
  | none => .reached default []
  | some text => schema text

/-- Some input is read as this value. -/
def Reads {J : Type} (schema : J → Parsed I α) (a : α) : Prop := ∃ input, (schema input).Yields a

theorem reads_required {missing : I} {schema : String → Parsed I α} {a : α} :
    Reads (required missing schema) a ↔ Reads schema a := by
  constructor
  · rintro ⟨input, h⟩
    cases input with
    | none => cases h
    | some text => exact ⟨text, h⟩
  · exact fun ⟨text, h⟩ => ⟨some text, h⟩

theorem reads_optional {schema : String → Parsed I α} {a : Option α} :
    Reads (optional schema) a ↔ ∀ value ∈ a, Reads schema value := by
  constructor
  · rintro ⟨input, h⟩ value hvalue
    cases input with
    | none =>
      cases h
      cases hvalue
    | some text =>
      obtain ⟨b, hb, rfl⟩ := yields_map.mp h
      cases hvalue
      exact ⟨text, hb⟩
  · intro h
    cases a with
    | none => exact ⟨none, rfl⟩
    | some value =>
      obtain ⟨text, htext⟩ := h value rfl
      exact ⟨some text, yields_map.mpr ⟨value, htext, rfl⟩⟩

/-- What is optional is there where its input is. -/
theorem isSome_of_yields_optional {schema : String → Parsed I α} {input : Option String}
    {value : Option α} (h : (optional schema input).Yields value) : value.isSome = input.isSome := by
  cases input with
  | none =>
    cases h
    rfl
  | some text =>
    obtain ⟨a, -, rfl⟩ := yields_map.mp h
    rfl

/-- A default that passes its own checks is nothing new. -/
theorem reads_withDefault {default : α} {schema : String → Parsed I α} (hdefault : Reads schema default)
    {a : α} : Reads (withDefault default schema) a ↔ Reads schema a := by
  constructor
  · rintro ⟨input, h⟩
    cases input with
    | none =>
      cases h
      exact hdefault
    | some text => exact ⟨text, h⟩
  · exact fun ⟨text, h⟩ => ⟨some text, h⟩

/-! ## Records -/

section Object

variable {F J : Type} {V : F → Type} (fields : List F) (hfields : ∀ f, f ∈ fields)
  (schema : (f : F) → J → Parsed I (V f)) (input : F → J)

/-- The issues of all fields, each with its field. -/
def fieldIssues : List (F × I) :=
  fields.flatMap fun f => (schema f (input f)).issues.map (f, ·)

/-- A record is reached when each of its fields is. -/
def object : Parsed (F × I) ((f : F) → V f) :=
  if h : ∀ f ∈ fields, (schema f (input f)).value?.isSome then
    .reached (fun f => (schema f (input f)).value?.get (h f (hfields f))) (fieldIssues fields schema input)
  else .aborted (fieldIssues fields schema input)

variable {fields hfields schema input}

theorem fieldIssues_eq_nil (h : ∀ f, (schema f (input f)).issues = []) :
    fieldIssues fields schema input = [] := by
  unfold fieldIssues
  rw [List.flatMap_eq_nil_iff]
  intro f _
  rw [h f, List.map_nil]

theorem yields_object {record : (f : F) → V f} :
    (object fields hfields schema input).Yields record ↔
      ∀ f, (schema f (input f)).Yields (record f) := by
  unfold object
  constructor
  · intro h f
    split_ifs at h with hreached
    · obtain ⟨hvalue, hissues⟩ := reached.inj h
      have hf : (schema f (input f)).issues = [] := by
        have hall := List.flatMap_eq_nil_iff.mp hissues f (hfields f)
        exact List.map_eq_nil_iff.mp hall
      refine yields_of_value ?_ hf
      rw [← congrFun hvalue f]
      exact (Option.some_get _).symm
    · cases h
  · intro h
    have hvalue : ∀ f, (schema f (input f)).value? = some (record f) := fun f => by rw [h f]; rfl
    rw [dif_pos fun f _ => by rw [hvalue f]; rfl, fieldIssues_eq_nil fun f => by rw [h f]; rfl]
    refine congrArg (fun record => Parsed.reached record []) (funext fun f => ?_)
    exact Option.get_of_eq_some _ (hvalue f)

end Object

/-! ## Refinements -/

/-- What must hold of a whole value. -/
structure Refinement (I α : Type) where
  holds : α → Bool
  issue : I

/-- Every refinement is tried on a value that was reached. -/
def refineAll (p : Parsed I α) (refinements : List (Refinement I α)) : Parsed I α :=
  refinements.foldl (fun p r => p.check r.holds r.issue) p

theorem yields_refineAll {p : Parsed I α} {refinements : List (Refinement I α)} {a : α} :
    (p.refineAll refinements).Yields a ↔ p.Yields a ∧ ∀ r ∈ refinements, r.holds a := by
  unfold refineAll
  induction refinements generalizing p with
  | nil => simp
  | cons r refinements ih =>
    rw [List.foldl_cons, ih, yields_check, List.forall_mem_cons, and_assoc]

end Parsed

end Validation
