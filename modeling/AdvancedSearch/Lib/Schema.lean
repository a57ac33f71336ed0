import AdvancedSearch.Lib.JsonParse
import AdvancedSearch.Lib.Number

/-!
# Schemas

What a validator makes of a JSON value: nothing when the shape does not match, and without the keys it
does not name. A schema reads what a writer wrote when all it can make of a written value is that
value; it may still reject one, as it does a number that JSON could not hold.
-/

namespace Js

/-! ## Values as JSON -/

/-- A number; what is not finite is written as `null`. -/
def toJson : Number → Json
  | .finite x => .number (Number.shortestDecimal x.value)
  | _ => .null

def ofStrings (items : List String) : Json := .array (items.map .string)

/-- A property; one that is absent is not written. -/
def optionalField (key : String) (value : Option Json) : Fields :=
  match value with
  | some j => [(key, j)]
  | none => []

/-- A value or `null`. -/
def nullableJson {α : Type} (write : α → Json) : Option α → Json
  | some x => write x
  | none => .null

theorem toJson_ordered (x : Number) : (toJson x).Ordered := by
  cases x <;> trivial

theorem Json.ordered_array {α : Type} {write : α → Json} (h : ∀ x, (write x).Ordered) (xs : List α) :
    (Json.array (xs.map write)).Ordered := by
  show Json.itemsOrdered (xs.map write)
  induction xs with
  | nil => trivial
  | cons x xs ih => exact ⟨h x, ih⟩

theorem ofStrings_ordered (items : List String) : (ofStrings items).Ordered :=
  Json.ordered_array (fun x => show (Json.string x).Ordered from trivial) items

/-- Two numbers are written alike only when they are the same, one of them being finite. -/
theorem toJson_inj {x y : Number} (hx : x.isFinite) (h : toJson x = toJson y) : x = y := by
  cases x with
  | nan => cases hx
  | infinity => cases hx
  | finite d =>
    cases y with
    | nan => cases h
    | infinity => cases h
    | finite e =>
      have hdecimal : Number.shortestDecimal d.value = Number.shortestDecimal e.value := Json.number.inj h
      rw [← Number.ofDecimal_shortestDecimal d, hdecimal, Number.ofDecimal_shortestDecimal]

theorem ofStrings_inj {xs ys : List String} (h : ofStrings xs = ofStrings ys) : xs = ys :=
  List.map_injective_iff.mpr (fun _ _ => Json.string.inj) (Json.array.inj h)

/-! ## Schemas and their combinations -/

abbrev Schema (α : Type) := Json → Option α

namespace Schema

variable {α : Type}

/-- `z.string()`. -/
def string : Schema String
  | .string s => some s
  | _ => none

/-- `z.number()`: finite numbers. -/
def number : Schema Number
  | .number n => if (Number.ofDecimal n).isFinite then some (Number.ofDecimal n) else none
  | _ => none

/-- `z.array(item)`. -/
def array (item : Schema α) : Schema (List α)
  | .array items => items.mapM item
  | _ => none

/-- `.nullable()`. -/
def nullable (schema : Schema α) : Schema (Option α)
  | .null => some none
  | j => (schema j).map some

/-- `z.object`, from what it makes of the fields. -/
def object (read : Fields → Option α) : Schema α
  | .object fields => read fields
  | _ => none

/-- A key that must be there. -/
def required (key : String) (schema : Schema α) (fields : Fields) : Option α :=
  (field fields key).bind schema

/-- A key that may be missing. -/
def optional (key : String) (schema : Schema α) (fields : Fields) : Option (Option α) :=
  match field fields key with
  | none => some none
  | some j => (schema j).map some

/-! ## What was written is read -/

/-- All a schema makes of a written value is that value. -/
def Reads (write : α → Json) (schema : Schema α) : Prop := ∀ x y, schema (write x) = some y → y = x

theorem reads_string : Reads .string string := fun _ _ h => (Option.some.inj h).symm

theorem reads_number : Reads toJson number := by
  intro x y h
  cases x with
  | nan => cases h
  | infinity => cases h
  | finite d =>
    unfold toJson number at h
    simp only [Number.ofDecimal_shortestDecimal] at h
    exact (Option.some.inj h).symm

theorem reads_array {write : α → Json} {item : Schema α} (h : Reads write item) :
    Reads (fun xs => .array (xs.map write)) (array item) := by
  intro xs
  show ∀ ys, (xs.map write).mapM item = some ys → ys = xs
  induction xs with
  | nil =>
    intro ys hys
    exact (Option.some.inj hys).symm
  | cons x xs ih =>
    intro ys hys
    rw [List.map_cons, List.mapM_cons] at hys
    obtain ⟨y, hy, hrest⟩ := Option.bind_eq_some_iff.mp hys
    obtain ⟨zs, hzs, hz⟩ := Option.bind_eq_some_iff.mp hrest
    cases hz
    rw [h x y hy, ih zs hzs]

/-- `null` stands for nothing, and no written value is `null`. -/
theorem reads_nullable {write : α → Json} {schema : Schema α} (h : Reads write schema)
    (hnull : ∀ x, write x ≠ .null) :
    Reads (nullableJson write) (nullable schema) := by
  intro x y hy
  cases x with
  | none => exact (Option.some.inj hy).symm
  | some x =>
    have hmap : (schema (write x)).map some = some y := by
      unfold nullable nullableJson at hy
      split at hy
      · exact absurd ‹_› (hnull x)
      · exact hy
    obtain ⟨z, hz, rfl⟩ := Option.map_eq_some_iff.mp hmap
    rw [h x z hz]

/-- A key that is there reads as what was written under it. -/
theorem Reads.required {write : α → Json} {schema : Schema α} (h : Reads write schema) {key : String}
    {fields : Fields} {x y : α} (hfield : field fields key = some (write x))
    (hy : required key schema fields = some y) : y = x := by
  unfold Schema.required at hy
  rw [hfield] at hy
  exact h x y hy

theorem Reads.optional {write : α → Json} {schema : Schema α} (h : Reads write schema) {key : String}
    {fields : Fields} {x : Option α} {y : Option α} (hfield : field fields key = x.map write)
    (hy : optional key schema fields = some y) : y = x := by
  unfold Schema.optional at hy
  rw [hfield] at hy
  cases x with
  | none => exact (Option.some.inj hy).symm
  | some x =>
    obtain ⟨z, hz, rfl⟩ := Option.map_eq_some_iff.mp hy
    rw [h x z hz]

/-! ## Nothing that was written is rejected -/

/-- A schema makes every value with a property of what was written of it. -/
def Keeps (P : α → Prop) (write : α → Json) (schema : Schema α) : Prop :=
  ∀ x, P x → schema (write x) = some x

theorem keeps_string : Keeps (fun _ => True) .string string := fun _ _ => rfl

/-- Finite numbers are kept. -/
theorem keeps_number : Keeps (fun x => x.isFinite) toJson number := by
  intro x hx
  cases x with
  | nan => cases hx
  | infinity => cases hx
  | finite d =>
    unfold toJson number
    simp only [Number.ofDecimal_shortestDecimal]
    rfl

variable {P : α → Prop} {write : α → Json} {schema : Schema α}

theorem keeps_array (h : Keeps P write schema) :
    Keeps (fun xs => ∀ x ∈ xs, P x) (fun xs => .array (xs.map write)) (array schema) := by
  intro xs
  show (∀ x ∈ xs, P x) → (xs.map write).mapM schema = some xs
  induction xs with
  | nil => exact fun _ => rfl
  | cons x xs ih =>
    intro hxs
    obtain ⟨hx, hrest⟩ := List.forall_mem_cons.mp hxs
    rw [List.map_cons, List.mapM_cons, h x hx, ih hrest]
    rfl

theorem keeps_nullable (h : Keeps P write schema) (hnull : ∀ x, write x ≠ .null) :
    Keeps (fun x => ∀ y ∈ x, P y) (nullableJson write) (nullable schema) := by
  intro x hx
  cases x with
  | none => rfl
  | some x =>
    show nullable schema (write x) = some (some x)
    unfold nullable
    split
    · exact absurd ‹_› (hnull x)
    · rw [h x (hx x rfl)]
      rfl

theorem Keeps.required (h : Keeps P write schema) {key : String} {fields : Fields} {x : α}
    (hfield : field fields key = some (write x)) (hx : P x) :
    required key schema fields = some x := by
  unfold Schema.required
  rw [hfield]
  exact h x hx

/-- A field that is absent stays absent. -/
theorem Keeps.optional (h : Keeps P write schema) {key : String} {fields : Fields} {x : Option α}
    (hfield : field fields key = x.map write) (hx : ∀ y ∈ x, P y) :
    optional key schema fields = some x := by
  unfold Schema.optional
  rw [hfield]
  cases x with
  | none => rfl
  | some x =>
    show (schema (write x)).map some = some (some x)
    rw [h x (hx x rfl)]
    rfl

end Schema

end Js
