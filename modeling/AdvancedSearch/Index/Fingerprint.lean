import AdvancedSearch.Lib.JsonClosure
import AdvancedSearch.Lib.JsonOrder

/-!
# The fingerprint of an index definition

The digest of a definition is recorded under `_meta` of its own mappings, so `_meta` is left out of
what is digested and object keys are sorted first. `sha256` is the hexadecimal digest of a text.

`readFingerprint_withFingerprint`: an index created with a definition carries that definition's
fingerprint. `fingerprintDefinition_withFingerprint`: recording it does not change it. `fingerprint_iff`:
two definitions have one fingerprint exactly when they differ at most in the order of keys.
-/

namespace AdvancedSearch

open Js

/-- Mappings, `_meta` apart from the other fields. -/
structure Mappings where
  metadata : Option Fields
  fields : Fields

/-- An index definition: settings and mappings. -/
structure IndexDefinition where
  settings : Fields
  mappings : Mappings

/-- `FINGERPRINT_META_KEY`. -/
def fingerprintMetaKey : String := "definitionFingerprint"

mutual

/-- A value with the keys of every object sorted; arrays keep their order. -/
def canonicalize : Json → Json
  | .array items => .array (canonicalizeItems items)
  | .object fields =>
    .object (((canonicalizeFields fields).insertionSort fun a b => stringLe a.1 b.1).foldl
      (fun canonical f => putField canonical f.1 f.2) [])
  | value => value

/-- The items of an array. -/
def canonicalizeItems : List Json → List Json
  | [] => []
  | item :: items => canonicalize item :: canonicalizeItems items

/-- The values of an object, the keys as they come. -/
def canonicalizeFields : List (String × Json) → List (String × Json)
  | [] => []
  | (key, value) :: fields => (key, canonicalize value) :: canonicalizeFields fields

end

section Digest

variable (sha256 : String → String)

/-- The digest of a definition, its `_meta` left out. -/
def fingerprintDefinition (definition : IndexDefinition) : String :=
  sha256 (canonicalize (.object
    [("settings", .object definition.settings),
      ("mappings", .object definition.mappings.fields)])).stringify

/-- The same definition with its own digest recorded under `mappings._meta`. -/
def withFingerprint (definition : IndexDefinition) : IndexDefinition where
  settings := definition.settings
  mappings :=
    { definition.mappings with
      metadata := some (putField (definition.mappings.metadata.getD []) fingerprintMetaKey
        (.string (fingerprintDefinition sha256 definition))) }

/-- The digest recorded on a live index, when it carries one and it is a string. -/
def readFingerprint (mappings : Option Mappings) : Option String :=
  match mappings.bind (·.metadata) with
  | none => none
  | some metadata =>
    match field metadata fingerprintMetaKey with
    | some (.string recorded) => some recorded
    | _ => none

/-- What is created carries its definition's digest. -/
@[simp] theorem readFingerprint_withFingerprint (definition : IndexDefinition) :
    readFingerprint (some (withFingerprint sha256 definition).mappings) =
      some (fingerprintDefinition sha256 definition) := by
  unfold readFingerprint withFingerprint
  simp only [Option.bind_some, field_putField_self]

/-- Recording the digest leaves it as it was. -/
@[simp] theorem fingerprintDefinition_withFingerprint (definition : IndexDefinition) :
    fingerprintDefinition sha256 (withFingerprint sha256 definition) =
      fingerprintDefinition sha256 definition := rfl

end Digest

/-! ## The order of keys -/

/-- The fields of an object in another order. -/
inductive Permuted : Json → Json → Prop
  | object {fs gs : Fields} (h : fs.Perm gs) (hdistinct : (fs.map (·.1)).Nodup) :
    Permuted (.object fs) (.object gs)

theorem Permuted.symm {a b : Json} (h : Permuted a b) : Permuted b a := by
  obtain ⟨h, hdistinct⟩ := h
  exact .object h.symm ((h.map (·.1)).nodup_iff.mp hdistinct)

/-- Equal but for the order of keys, at any depth. -/
abbrev SameUpToKeyOrder : Json → Json → Prop := Json.Closure Permuted

/-- The keys of an object sorted. -/
def sortKeys : Json → Json
  | .object fields => .object ((sortFields fields).foldl (fun canonical f => putField canonical f.1 f.2) [])
  | value => value

theorem sortKeys_object (fields : Fields) : sortKeys (.object fields) =
    .object ((sortFields fields).foldl (fun canonical f => putField canonical f.1 f.2) []) := rfl

mutual

theorem canonicalize_eq : ∀ j : Json, canonicalize j = Json.rewrite sortKeys j
  | .array items => congrArg Json.array (canonicalizeItems_eq items)
  | .object fields => by
    show sortKeys (.object (canonicalizeFields fields)) = sortKeys (.object _)
    rw [canonicalizeFields_eq fields]
  | .null | .bool _ | .number _ | .string _ => rfl

theorem canonicalizeItems_eq : ∀ items : List Json,
    canonicalizeItems items = Json.rewriteItems sortKeys items
  | [] => rfl
  | item :: items => by
    show canonicalize item :: canonicalizeItems items = _
    rw [canonicalize_eq item, canonicalizeItems_eq items]
    rfl

theorem canonicalizeFields_eq : ∀ fields : List (String × Json),
    canonicalizeFields fields = Json.rewriteFields sortKeys fields
  | [] => rfl
  | (key, value) :: fields => by
    show (key, canonicalize value) :: canonicalizeFields fields = _
    rw [canonicalize_eq value, canonicalizeFields_eq fields]
    rfl

end

theorem canonicalizeFields_eq_map (fields : Fields) :
    canonicalizeFields fields = fields.map fun f => (f.1, canonicalize f.2) := by
  rw [canonicalizeFields_eq, Json.rewriteFields_eq_map]
  exact List.map_congr_left fun f _ => by rw [canonicalize_eq]

theorem canonicalizeFields_keys (fields : Fields) :
    (canonicalizeFields fields).map (·.1) = fields.map (·.1) := by
  rw [canonicalizeFields_eq_map, List.map_map]
  rfl

/-- Values that differ in the order of keys only are one canonical value. -/
theorem canonicalize_eq_of_same {a b : Json} (h : SameUpToKeyOrder a b) :
    canonicalize a = canonicalize b := by
  rw [canonicalize_eq, canonicalize_eq]
  refine Json.rewrite_eq_of_closure (fun a b hab => ?_) h
  obtain @⟨fs, gs, hperm, hdistinct⟩ := hab
  show sortKeys (.object (Json.rewriteFields sortKeys fs)) =
    sortKeys (.object (Json.rewriteFields sortKeys gs))
  have hsorted : sortFields (Json.rewriteFields sortKeys fs) =
      sortFields (Json.rewriteFields sortKeys gs) := by
    refine sortFields_eq_of_perm ?_ ?_
    · rw [Json.rewriteFields_eq_map, Json.rewriteFields_eq_map]
      exact hperm.map _
    · rw [Json.rewriteFields_eq_map, List.map_map]
      exact hdistinct
  rw [sortKeys_object, sortKeys_object, hsorted]

/-- Sorting the keys of an object permutes its fields. -/
theorem sortKeys_perm {fields : Fields} (h : (fields.map (·.1)).Nodup) :
    ((sortFields fields).foldl (fun o f => putField o f.1 f.2) []).Perm fields := by
  refine (@foldl_putField_perm [] _ ?_).trans (sortFields_perm fields)
  rw [List.nil_append]
  exact ((sortFields_perm fields).map (·.1)).nodup_iff.mpr h

mutual

/-- A value and its canonical form differ in the order of keys only. -/
theorem same_canonicalize : ∀ j : Json, j.Ordered → SameUpToKeyOrder j (canonicalize j)
  | .array items, h => .array (same_canonicalizeItems items (Json.itemsOrdered_iff.mp h))
  | .object fields, h => by
    obtain ⟨hvalues, hordered⟩ := Json.ordered_object_iff.mp h
    have hdistinct : ((canonicalizeFields fields).map (·.1)).Nodup := by
      rw [canonicalizeFields_keys]
      exact hordered.distinct
    have hsorted := (sortKeys_perm hdistinct).symm
    exact (Json.Closure.object (same_canonicalizeFields fields hvalues)).trans
      (.base (.object hsorted hdistinct))
  | .null, _ | .bool _, _ | .number _, _ | .string _, _ => .refl _

theorem same_canonicalizeItems : ∀ items : List Json, (∀ j ∈ items, j.Ordered) →
    List.Forall₂ SameUpToKeyOrder items (canonicalizeItems items)
  | [], _ => .nil
  | item :: items, h =>
    .cons (same_canonicalize item (h item List.mem_cons_self))
      (same_canonicalizeItems items fun j hj => h j (List.mem_cons_of_mem item hj))

theorem same_canonicalizeFields : ∀ fields : List (String × Json), (∀ f ∈ fields, f.2.Ordered) →
    Json.FieldsClosure Permuted fields (canonicalizeFields fields)
  | [], _ => .nil
  | (key, value) :: fields, h =>
    .cons key (same_canonicalize value (h (key, value) List.mem_cons_self))
      (same_canonicalizeFields fields fun f hf => h f (List.mem_cons_of_mem _ hf))

end

/-- Values have one canonical form exactly when they differ in the order of keys only. -/
theorem canonicalize_eq_iff {a b : Json} (ha : a.Ordered) (hb : b.Ordered) :
    canonicalize a = canonicalize b ↔ SameUpToKeyOrder a b := by
  refine ⟨fun h => ?_, canonicalize_eq_of_same⟩
  have hback := (same_canonicalize b hb).symm fun _ _ hab => hab.symm
  rw [← h] at hback
  exact (same_canonicalize a ha).trans hback

mutual

/-- A canonical form is a value as JavaScript has it. -/
theorem canonicalize_ordered : ∀ j : Json, j.Ordered → (canonicalize j).Ordered
  | .array items, h => canonicalizeItems_ordered items h
  | .object fields, h => by
    obtain ⟨hvalues, hordered⟩ := Json.ordered_object_iff.mp h
    have hdistinct : ((canonicalizeFields fields).map (·.1)).Nodup := by
      rw [canonicalizeFields_keys]
      exact hordered.distinct
    refine Json.ordered_object_iff.mpr ⟨fun f hf => ?_, inPropertyOrder_foldl inPropertyOrder_nil _⟩
    exact canonicalizeFields_ordered fields hvalues f ((sortKeys_perm hdistinct).mem_iff.mp hf)
  | .null, _ | .bool _, _ | .number _, _ | .string _, _ => trivial

theorem canonicalizeItems_ordered : ∀ items : List Json, Json.itemsOrdered items →
    Json.itemsOrdered (canonicalizeItems items)
  | [], _ => trivial
  | item :: items, h => ⟨canonicalize_ordered item h.1, canonicalizeItems_ordered items h.2⟩

theorem canonicalizeFields_ordered : ∀ fields : List (String × Json), (∀ f ∈ fields, f.2.Ordered) →
    ∀ f ∈ canonicalizeFields fields, f.2.Ordered
  | [], _ => fun _ hf => by cases hf
  | (key, value) :: fields, h =>
    List.forall_mem_cons.mpr ⟨canonicalize_ordered value (h (key, value) List.mem_cons_self),
      canonicalizeFields_ordered fields fun f hf => h f (List.mem_cons_of_mem _ hf)⟩

end

/-! ## When the fingerprint changes -/

/-- A definition as JavaScript has it. -/
structure IndexDefinition.Ordered (definition : IndexDefinition) : Prop where
  settings : (Json.object definition.settings).Ordered
  mappings : (Json.object definition.mappings.fields).Ordered

/-- Equal, `mappings._meta` and the order of keys apart. -/
def IndexDefinition.Same (d₁ d₂ : IndexDefinition) : Prop :=
  SameUpToKeyOrder (.object d₁.settings) (.object d₂.settings) ∧
    SameUpToKeyOrder (.object d₁.mappings.fields) (.object d₂.mappings.fields)

/-- `mappings` comes before `settings`. -/
theorem canonicalize_definition (settings mappings : Fields) :
    canonicalize (.object [("settings", .object settings), ("mappings", .object mappings)]) =
      .object [("mappings", canonicalize (.object mappings)),
        ("settings", canonicalize (.object settings))] := by
  have hsorted : ∀ a b : Json,
      sortFields [("settings", a), ("mappings", b)] = [("mappings", b), ("settings", a)] := by
    intro a b
    unfold sortFields
    rw [List.insertionSort_cons, List.insertionSort_cons, List.insertionSort_nil, List.orderedInsert_nil,
      List.orderedInsert_cons, if_neg (show ¬ stringLe "settings" "mappings" by decide),
      List.orderedInsert_nil]
  show sortKeys (.object [("settings", canonicalize (.object settings)),
    ("mappings", canonicalize (.object mappings))]) = _
  rw [sortKeys_object, hsorted]
  have hordinary : OrdinaryKeys ["mappings", "settings"] := by decide
  refine congrArg Json.object (@foldl_putField _ [] (fun f hf => ?_) hordinary.2)
  exact hordinary.1 f.1 (List.mem_map_of_mem (f := (·.1)) hf)

/-- A field of `mappings._meta`. -/
def IndexDefinition.metaField (definition : IndexDefinition) (key : String) : Option Json :=
  definition.mappings.metadata.bind fun metadata => field metadata key

/-- **When the fingerprint changes.** For a digest without collisions, two definitions have one
fingerprint exactly when they differ in `_meta` and the order of keys only. What is created with a
definition carries that definition's fingerprint, which recording it leaves as it is, and nothing else is
changed. -/
theorem fingerprint_iff {sha256 : String → String} (hsha : Function.Injective sha256)
    {d₁ d₂ : IndexDefinition} (h₁ : d₁.Ordered) (h₂ : d₂.Ordered) :
    (fingerprintDefinition sha256 d₁ = fingerprintDefinition sha256 d₂ ↔ d₁.Same d₂) ∧
      readFingerprint (some (withFingerprint sha256 d₁).mappings) =
        some (fingerprintDefinition sha256 d₁) ∧
      fingerprintDefinition sha256 (withFingerprint sha256 d₁) = fingerprintDefinition sha256 d₁ ∧
      (withFingerprint sha256 d₁).settings = d₁.settings ∧
      (withFingerprint sha256 d₁).mappings.fields = d₁.mappings.fields ∧
      ∀ key ≠ fingerprintMetaKey, (withFingerprint sha256 d₁).metaField key = d₁.metaField key := by
  refine ⟨?_, readFingerprint_withFingerprint sha256 d₁, rfl, rfl, rfl, fun key hkey => ?_⟩
  · have hordered : ∀ d : IndexDefinition, d.Ordered →
        (Json.object [("mappings", canonicalize (.object d.mappings.fields)),
          ("settings", canonicalize (.object d.settings))]).Ordered := fun d h =>
      Json.ordered_object ["mappings", "settings"] rfl (by decide)
        ⟨canonicalize_ordered _ h.mappings, canonicalize_ordered _ h.settings, trivial⟩
    unfold fingerprintDefinition
    rw [hsha.eq_iff, canonicalize_definition, canonicalize_definition]
    unfold IndexDefinition.Same
    rw [← canonicalize_eq_iff h₁.settings h₂.settings, ← canonicalize_eq_iff h₁.mappings h₂.mappings]
    constructor
    · intro h
      have heq := Json.stringify_injective (hordered d₁ h₁) (hordered d₂ h₂) h
      simp only [Json.object.injEq, List.cons.injEq, Prod.mk.injEq, true_and, and_true] at heq
      exact heq.symm
    · rintro ⟨hsettings, hmappings⟩
      rw [hsettings, hmappings]
  · show field (putField (d₁.mappings.metadata.getD []) fingerprintMetaKey _) key = _
    rw [field_putField_of_ne hkey]
    unfold IndexDefinition.metaField
    cases d₁.mappings.metadata <;> rfl

/-! ### Another order -/

def lowerFirst : IndexDefinition where
  settings := [("analyzer", .array [.string "lowercase", .string "asciifolding"]), ("shards", .null)]
  mappings :=
    { metadata := some [(fingerprintMetaKey, .string "stale")]
      fields := [("name", .object [("type", .string "text"), ("norms", .bool false)])] }

/-- The keys the other way round, and no `_meta`. -/
def shardsFirst : IndexDefinition where
  settings := [("shards", .null), ("analyzer", .array [.string "lowercase", .string "asciifolding"])]
  mappings :=
    { metadata := none
      fields := [("name", .object [("norms", .bool false), ("type", .string "text")])] }

theorem lowerFirst_ordered : lowerFirst.Ordered where
  settings := Json.ordered_object ["analyzer", "shards"] rfl (by decide)
    ⟨⟨trivial, trivial, trivial⟩, trivial, trivial⟩
  mappings := Json.ordered_object ["name"] rfl (by decide)
    ⟨Json.ordered_object ["type", "norms"] rfl (by decide) ⟨trivial, trivial, trivial⟩, trivial⟩

theorem shardsFirst_ordered : shardsFirst.Ordered where
  settings := Json.ordered_object ["shards", "analyzer"] rfl (by decide)
    ⟨trivial, ⟨trivial, trivial, trivial⟩, trivial⟩
  mappings := Json.ordered_object ["name"] rfl (by decide)
    ⟨Json.ordered_object ["norms", "type"] rfl (by decide) ⟨trivial, trivial, trivial⟩, trivial⟩

theorem fingerprint_iff_reordered :
    fingerprintDefinition id lowerFirst = fingerprintDefinition id shardsFirst ∧
      lowerFirst.Same shardsFirst := by
  have hsame : fingerprintDefinition id lowerFirst = fingerprintDefinition id shardsFirst := by
    decide +kernel
  exact ⟨hsame, (fingerprint_iff Function.injective_id lowerFirst_ordered shardsFirst_ordered).1.mp hsame⟩

end AdvancedSearch
