import AdvancedSearch.Index.Dataset
import AdvancedSearch.Index.Fingerprint
import AdvancedSearch.Lib.Program

/-!
# The cluster

The Elasticsearch cluster as the seed meets it: physical indices with their mappings and documents,
and the indices each alias points at. Every call is atomic. `Cluster.apply` is what a call does when
the cluster serves it; a `Fate` decides whether it is served and whether its answer arrives, which
items of a bulk are refused, and in which order indices are listed.

`create` fails exactly when the name exists, `updateAliases` is all or nothing and fails when a named
index does not exist, removing an alias an index does not carry is a no-op, and `getMapping` answers
404 exactly when the name resolves to nothing.
-/

namespace AdvancedSearch

open Js Service

/-! ## Errors -/

/-- What the client throws: a `ResponseError` with a status and a body, or another error. -/
inductive EsError where
  | response (statusCode : Option ℕ) (body : Json)
  | other (message : String)

def extractErrorType : Json → Option String
  | .object body =>
    match field body "error" with
    | some (.object error) =>
      match field error "type" with
      | some (.string type) => some type
      | _ => none
    | _ => none
  | _ => none

def isAlreadyExistsError : EsError → Bool
  | .response _ body => extractErrorType body = some "resource_already_exists_exception"
  | .other _ => false

def isIndexNotFoundError : EsError → Bool
  | .response statusCode body =>
    extractErrorType body = some "index_not_found_exception" || statusCode = some 404
  | .other _ => false

/-- An error answer of the cluster. -/
def errorResponse (status : ℕ) (type reason : String) : EsError :=
  .response (some status) (.object
    [("error", .object [("type", .string type), ("reason", .string reason)]),
      ("status", .number (.ofNat status))])

def alreadyExists (index : String) : EsError :=
  errorResponse 400 "resource_already_exists_exception" ("index [" ++ index ++ "] already exists")

def indexNotFound (index : String) : EsError :=
  errorResponse 404 "index_not_found_exception" ("no such index [" ++ index ++ "]")

theorem isAlreadyExistsError_alreadyExists (index : String) :
    isAlreadyExistsError (alreadyExists index) = true := rfl

theorem isIndexNotFoundError_indexNotFound (index : String) :
    isIndexNotFoundError (indexNotFound index) = true := rfl

/-! ## State -/

/-- A physical index. -/
structure EsIndex where
  settings : Fields
  mappings : Mappings
  documents : Documents

/-- The indices, under distinct names, and what each alias points at: indices that exist. -/
structure Cluster where
  indices : List (String × EsIndex)
  aliases : String → List String
  distinct : (indices.map Prod.fst).Nodup
  carried : ∀ a n, n ∈ aliases a → (indices.lookup n).isSome

namespace Cluster

def find (c : Cluster) (name : String) : Option EsIndex := c.indices.lookup name

/-- The physical indices a name stands for: itself, or those of the alias. -/
def resolve (c : Cluster) (name : String) : List String :=
  if (c.find name).isSome then [name] else c.aliases name

/-- A new index; it replaces nothing. -/
def insert (c : Cluster) (name : String) (ix : EsIndex) : Cluster :=
  if h : (c.find name).isNone then
    { indices := c.indices ++ [(name, ix)]
      aliases := c.aliases
      distinct := by
        rw [List.map_append, List.map_singleton]
        refine List.nodup_append.mpr ⟨c.distinct, by simp, ?_⟩
        intro a ha b hb hab
        rw [List.mem_singleton.mp hb] at hab
        obtain ⟨p, hp, rfl⟩ := List.mem_map.mp ha
        have hnone := List.lookup_eq_none_iff.mp (Option.isNone_iff_eq_none.mp h) p hp
        exact absurd hab.symm (by simpa using hnone)
      carried := fun a n h => by
        have := c.carried a n h
        rw [List.lookup_append]
        cases hl : c.indices.lookup n with
        | none => simp [hl] at this
        | some _ => rfl }
  else c

/-- Rewrites the documents of an index. -/
def modify (c : Cluster) (name : String) (f : Documents → Documents) : Cluster where
  indices := c.indices.map fun p =>
    (p.1, if p.1 = name then { p.2 with documents := f p.2.documents } else p.2)
  aliases := c.aliases
  distinct := by
    rw [List.map_map]
    exact c.distinct
  carried a n h := by
    have := c.carried a n h
    rw [List.lookup_isSome_iff] at this ⊢
    simpa using this

/-- Points the alias at one more index, if that index exists. -/
def addAlias (c : Cluster) (name aliasName : String) : Cluster :=
  if h : (c.find name).isSome ∧ name ∉ c.aliases aliasName then
    { c with
      aliases := Function.update c.aliases aliasName (c.aliases aliasName ++ [name])
      carried := fun a n hn => by
        by_cases ha : a = aliasName
        · subst ha
          rw [Function.update_self] at hn
          rcases List.mem_append.mp hn with hn | hn
          · exact c.carried _ n hn
          · rw [List.mem_singleton.mp hn]; exact h.1
        · rw [Function.update_of_ne ha] at hn
          exact c.carried a n hn }
  else c

def removeAlias (c : Cluster) (name aliasName : String) : Cluster :=
  { c with
    aliases := Function.update c.aliases aliasName ((c.aliases aliasName).filter (· ≠ name))
    carried := fun a n hn => by
      by_cases ha : a = aliasName
      · subst ha
        rw [Function.update_self] at hn
        exact c.carried _ n (List.mem_filter.mp hn).1
      · rw [Function.update_of_ne ha] at hn
        exact c.carried a n hn }

/-- Deletes an index, and with it every alias on it. -/
def erase (c : Cluster) (name : String) : Cluster where
  indices := c.indices.filter fun p => p.1 ≠ name
  aliases a := (c.aliases a).filter (· ≠ name)
  distinct := c.distinct.sublist (List.filter_sublist.map _)
  carried a n h := by
    have hn := List.mem_filter.mp h
    have := c.carried a n hn.1
    rw [List.lookup_isSome_iff] at this ⊢
    obtain ⟨p, hp, hk⟩ := this
    refine ⟨p, List.mem_filter.mpr ⟨hp, ?_⟩, hk⟩
    have : n = p.1 := eq_of_beq hk
    rw [← this]
    exact hn.2

/-! ### What the operations leave -/

variable (c : Cluster) {name n aliasName a : String} {ix : EsIndex} {f : Documents → Documents}

theorem find_isSome_of_mem {c : Cluster} (h : n ∈ c.aliases a) : (c.find n).isSome :=
  c.carried a n h

theorem find_insert (h : c.find name = none) :
    (c.insert name ix).find n = if n = name then some ix else c.find n := by
  unfold insert
  rw [dif_pos (Option.isNone_iff_eq_none.mpr h)]
  unfold find at *
  rw [List.lookup_append, List.lookup_cons, List.lookup_nil]
  by_cases hn : n = name
  · subst hn
    rw [h, if_pos rfl, beq_self_eq_true]
    rfl
  · rw [if_neg hn, beq_eq_false_iff_ne.mpr hn]
    cases c.indices.lookup n <;> rfl

@[simp] theorem aliases_insert : (c.insert name ix).aliases = c.aliases := by
  unfold insert
  split_ifs <;> rfl

theorem find_modify :
    (c.modify name f).find n =
      if n = name then (c.find n).map fun ix => { ix with documents := f ix.documents }
      else c.find n := by
  unfold find modify
  simp only
  induction c.indices with
  | nil => split_ifs <;> rfl
  | cons p ps ih =>
    rw [List.map_cons, List.lookup_cons, List.lookup_cons]
    cases hb : n == p.1 with
    | false => exact ih
    | true =>
      have hp : n = p.1 := eq_of_beq hb
      simp only [← hp]
      split_ifs <;> rfl

theorem find_modify_isSome : ((c.modify name f).find n).isSome = (c.find n).isSome := by
  rw [find_modify]
  split_ifs
  · exact Option.isSome_map
  · rfl

@[simp] theorem aliases_modify : (c.modify name f).aliases = c.aliases := rfl

@[simp] theorem resolve_modify : (c.modify name f).resolve n = c.resolve n := by
  unfold resolve
  rw [find_modify_isSome, aliases_modify]

@[simp] theorem find_addAlias : (c.addAlias name aliasName).find n = c.find n := by
  unfold addAlias
  split_ifs <;> rfl

theorem aliases_addAlias (h : (c.find name).isSome) :
    (c.addAlias name aliasName).aliases aliasName =
      if name ∈ c.aliases aliasName then c.aliases aliasName else c.aliases aliasName ++ [name] := by
  unfold addAlias
  by_cases hm : name ∈ c.aliases aliasName
  · rw [dif_neg (fun hc => hc.2 hm), if_pos hm]
  · rw [dif_pos ⟨h, hm⟩, if_neg hm]
    exact Function.update_self ..

@[simp] theorem find_removeAlias : (c.removeAlias name aliasName).find n = c.find n := rfl

@[simp] theorem aliases_removeAlias :
    (c.removeAlias name aliasName).aliases aliasName = (c.aliases aliasName).filter (· ≠ name) :=
  Function.update_self ..

/-- Pointing an alias at an index changes nothing on the others. -/
theorem mem_aliases_addAlias (h : n ≠ name) :
    n ∈ (c.addAlias name aliasName).aliases a ↔ n ∈ c.aliases a := by
  unfold addAlias
  split_ifs
  · show n ∈ Function.update c.aliases aliasName (c.aliases aliasName ++ [name]) a ↔ _
    by_cases ha : a = aliasName
    · subst ha
      rw [Function.update_self, List.mem_append, List.mem_singleton]
      exact or_iff_left h
    · rw [Function.update_of_ne ha]
  · exact Iff.rfl

theorem mem_aliases_removeAlias (h : n ≠ name) :
    n ∈ (c.removeAlias name aliasName).aliases a ↔ n ∈ c.aliases a := by
  by_cases ha : a = aliasName
  · subst ha
    rw [aliases_removeAlias, List.mem_filter, decide_eq_true_eq]
    exact and_iff_left h
  · show n ∈ Function.update c.aliases aliasName ((c.aliases aliasName).filter (· ≠ name)) a ↔ _
    rw [Function.update_of_ne ha]

theorem find_erase : (c.erase name).find n = if n = name then none else c.find n := by
  unfold find erase
  simp only
  induction c.indices with
  | nil => split_ifs <;> rfl
  | cons p ps ih =>
    rw [List.filter_cons, List.lookup_cons]
    by_cases hp : p.1 = name
    · rw [if_neg (by simpa using hp), ih]
      by_cases hn : n = name
      · rw [if_pos hn, if_pos hn]
      · have hb : (n == p.1) = false := beq_eq_false_iff_ne.mpr (fun h => hn (h.trans hp))
        rw [if_neg hn, if_neg hn, hb]
    · rw [if_pos (by simpa using hp), List.lookup_cons, ih]
      by_cases hn : n = name
      · have hb : (n == p.1) = false := beq_eq_false_iff_ne.mpr (fun h => hp (h.symm.trans hn))
        rw [if_pos hn, if_pos hn, hb]
      · rw [if_neg hn, if_neg hn]

theorem aliases_erase : (c.erase name).aliases a = (c.aliases a).filter (· ≠ name) := rfl

theorem aliases_erase_of_notMem (h : name ∉ c.aliases a) : (c.erase name).aliases a = c.aliases a := by
  rw [aliases_erase, List.filter_eq_self]
  intro m hm
  exact decide_eq_true (fun he => h (he ▸ hm))

theorem resolve_eq_aliases {c : Cluster} (h : c.find n = none) : c.resolve n = c.aliases n := by
  unfold resolve
  rw [h]
  rfl

/-- What a name stands for exists. -/
theorem find_isSome_of_mem_resolve {c : Cluster} (h : n ∈ c.resolve a) : (c.find n).isSome := by
  unfold resolve at h
  split_ifs at h with ha
  · rwa [List.mem_singleton.mp h]
  · exact find_isSome_of_mem h

theorem resolve_of_find {c : Cluster} (h : (c.find n).isSome) : c.resolve n = [n] := by
  unfold resolve
  rw [if_pos h]

end Cluster

/-! ## Calls -/

/-- A line of a bulk body: where the next document goes, or a document. -/
inductive BulkOperation where
  | index (_index _id : String)
  | document (source : ProductDocument)

/-- Why an item was refused. -/
structure BulkError where
  reason : Option String
  type : Option String

/-- The outcome of one operation. -/
structure BulkItemResult where
  _id : Option String
  error : Option BulkError

/-- An item of a bulk response, under the name of its operation. -/
structure BulkItem where
  index : Option BulkItemResult
  create : Option BulkItemResult

inductive AliasAction where
  | remove (index aliasName : String)
  | add (index aliasName : String)

/-- The index an action names. -/
def AliasAction.target : AliasAction → String
  | remove index _ => index
  | add index _ => index

inductive EsCall where
  | getMapping (index : String)
  | create (index : String) (settings : Fields) (mappings : Mappings) (aliases : List String)
  | existsAlias (name : String)
  | putAlias (index name : String)
  | bulk (operations : List BulkOperation)
  | refresh (index : String)
  | updateAliases (actions : List AliasAction)
  | get (index : String)
  | delete (index : String)

/-- What a call answers: mappings by index, the names of indices, or nothing of interest. -/
abbrev Response : EsCall → Type
  | .getMapping _ => List (String × Mappings)
  | .create .. => Unit
  | .existsAlias _ => Bool
  | .putAlias .. => Unit
  | .bulk _ => List BulkItem
  | .refresh _ => Unit
  | .updateAliases _ => Unit
  | .get _ => List String
  | .delete _ => Unit

abbrev EsAnswer (call : EsCall) : Type := Except EsError (Response call)

/-- A failure to reach the cluster, or to hear from it: neither of the two answers the code reads
a meaning into. -/
abbrev Outage : Type :=
  { e : EsError // isAlreadyExistsError e = false ∧ isIndexNotFoundError e = false }

inductive Delivery where
  /-- Served, and the answer arrives. -/
  | answered
  /-- Served, but the client sees a failure. -/
  | lost (e : Outage)
  /-- Not served. -/
  | unreached (e : Outage)

/-- What the world decides about one call. -/
structure Fate where
  delivery : Delivery
  /-- The items a bulk refuses, by position. -/
  refused : ℕ → Option BulkError
  /-- Names are listed in the order of their rank. -/
  rank : String → ℕ

/-- Nothing goes wrong. -/
def Undisturbed (f : Fate) : Prop := f.delivery = .answered ∧ ∀ i, f.refused i = none

/-! ### Bulk -/

/-- The body as upserts: an action line and a document line each. -/
def upserts : List BulkOperation → Option (List (String × String × ProductDocument))
  | [] => some []
  | .index index id :: .document source :: rest => do
    let more ← upserts rest
    return (index, id, source) :: more
  | _ => none

namespace Cluster

/-- One upsert: into the one index its target stands for, which is created when there is none. -/
def upsertItem (c : Cluster) (refused : Option BulkError) (index id : String)
    (source : ProductDocument) : BulkItem × Cluster :=
  match refused with
  | some error => (⟨some ⟨some id, some error⟩, none⟩, c)
  | none =>
    match c.resolve index with
    | [] =>
      (⟨some ⟨some id, none⟩, none⟩,
        c.insert index ⟨[], ⟨none, []⟩, Function.update (fun _ => none) id (some source)⟩)
    | [target] =>
      (⟨some ⟨some id, none⟩, none⟩, c.modify target fun docs => Function.update docs id (some source))
    | _ =>
      (⟨some ⟨some id, some ⟨some ("no write index is defined for alias [" ++ index ++ "]"),
        some "illegal_argument_exception"⟩⟩, none⟩, c)

/-- The upserts in order, each with its own outcome. -/
def upsertItems (c : Cluster) (refused : ℕ → Option BulkError) :
    List (String × String × ProductDocument) → List BulkItem × Cluster
  | [] => ([], c)
  | (index, id, source) :: rest =>
    let (item, c) := c.upsertItem (refused 0) index id source
    let (items, c) := c.upsertItems (fun i => refused (i + 1)) rest
    (item :: items, c)

/-! ### Serving a call -/

/-- `*` in an index expression stands for any text. -/
def matchesExpression : List Char → List Char → Bool
  | [], name => name.isEmpty
  | '*' :: pattern, name => name.tails.any fun rest => matchesExpression pattern rest
  | p :: pattern, c :: name => p = c && matchesExpression pattern name
  | _ :: _, [] => false

def aliasAction (c : Cluster) : AliasAction → Cluster
  | .remove index aliasName => c.removeAlias index aliasName
  | .add index aliasName => c.addAlias index aliasName

/-- What a served call answers and leaves. -/
def apply (c : Cluster) : (call : EsCall) → Fate → EsAnswer call × Cluster
  | .getMapping index, _ =>
    if c.resolve index = [] then (.error (indexNotFound index), c)
    else (.ok ((c.resolve index).filterMap fun n => (c.find n).map fun ix => (n, ix.mappings)), c)
  | .create index settings mappings aliases, _ =>
    if (c.find index).isSome then (.error (alreadyExists index), c)
    else
      (.ok (), aliases.foldl (fun c a => c.addAlias index a)
        (c.insert index ⟨settings, mappings, fun _ => none⟩))
  | .existsAlias name, _ => (.ok (c.aliases name ≠ []), c)
  | .putAlias index name, _ =>
    if (c.find index).isSome then (.ok (), c.addAlias index name)
    else (.error (indexNotFound index), c)
  | .bulk operations, f =>
    match upserts operations with
    | none => (.error (errorResponse 400 "illegal_argument_exception" "malformed bulk body"), c)
    | some items => (.ok (c.upsertItems f.refused items).1, (c.upsertItems f.refused items).2)
  | .refresh index, _ =>
    if c.resolve index = [] then (.error (indexNotFound index), c) else (.ok (), c)
  | .updateAliases actions, _ =>
    match actions.find? fun action => (c.find (AliasAction.target action)).isNone with
    | some action => (.error (indexNotFound (AliasAction.target action)), c)
    | none => (.ok (), actions.foldl aliasAction c)
  | .get index, f =>
    (.ok (((c.indices.map Prod.fst).filter fun n =>
      matchesExpression index.toList n.toList).insertionSort fun a b => f.rank a ≤ f.rank b), c)
  | .delete index, _ =>
    if (c.find index).isSome then (.ok (), c.erase index) else (.error (indexNotFound index), c)

section Apply

variable {c : Cluster} {a index : String} {f : Fate}

theorem apply_getMapping (h : c.resolve a = []) :
    c.apply (.getMapping a) f = (.error (indexNotFound a), c) :=
  if_pos h

theorem apply_getMapping_of_ne (h : c.resolve a ≠ []) :
    c.apply (.getMapping a) f =
      (.ok ((c.resolve a).filterMap fun n => (c.find n).map fun ix => (n, ix.mappings)), c) :=
  if_neg h

@[simp] theorem apply_getMapping_state : (c.apply (.getMapping a) f).2 = c := by
  by_cases h : c.resolve a = []
  · rw [apply_getMapping h]
  · rw [apply_getMapping_of_ne h]

theorem apply_create {settings : Fields} {mappings : Mappings} {aliases : List String}
    (h : c.find index = none) :
    c.apply (.create index settings mappings aliases) f =
      (.ok (), aliases.foldl (fun c a => c.addAlias index a)
        (c.insert index ⟨settings, mappings, fun _ => none⟩)) :=
  if_neg (by simp [h])

theorem apply_create_of_exists {settings : Fields} {mappings : Mappings} {aliases : List String}
    (h : (c.find index).isSome) :
    c.apply (.create index settings mappings aliases) f = (.error (alreadyExists index), c) :=
  if_pos h

theorem apply_putAlias (h : (c.find index).isSome) :
    c.apply (.putAlias index a) f = (.ok (), c.addAlias index a) :=
  if_pos h

theorem apply_refresh (h : c.resolve index ≠ []) : c.apply (.refresh index) f = (.ok (), c) :=
  if_neg h

@[simp] theorem apply_refresh_state : (c.apply (.refresh index) f).2 = c := by
  by_cases h : c.resolve index = []
  · exact congrArg Prod.snd (if_pos h)
  · rw [apply_refresh h]

theorem apply_delete (h : (c.find index).isSome) :
    c.apply (.delete index) f = (.ok (), c.erase index) :=
  if_pos h

/-- What `get` lists, in some order and once: the indices that exist and match. -/
theorem apply_get {pattern : String} :
    ∃ names : List String, c.apply (.get pattern) f = (.ok names, c) ∧
      names.Perm ((c.indices.map Prod.fst).filter fun n =>
        matchesExpression pattern.toList n.toList) ∧ names.Nodup ∧
      ∀ n, n ∈ names ↔ (c.find n).isSome ∧ matchesExpression pattern.toList n.toList := by
  have hperm := List.perm_insertionSort (fun a b => f.rank a ≤ f.rank b)
    ((c.indices.map Prod.fst).filter fun n => matchesExpression pattern.toList n.toList)
  refine ⟨_, rfl, hperm, ?_, fun n => ?_⟩
  · exact hperm.nodup_iff.mpr (c.distinct.sublist List.filter_sublist)
  · rw [List.mem_insertionSort, List.mem_filter]
    refine and_congr_left fun _ => ?_
    unfold find
    rw [List.lookup_isSome_iff, List.mem_map]
    refine exists_congr fun p => and_congr_right fun _ => ?_
    rw [beq_iff_eq, eq_comm]

end Apply

/-! ### Loading products -/

@[ext] theorem ext {c d : Cluster} (hi : c.indices = d.indices) (ha : c.aliases = d.aliases) :
    c = d := by
  cases c; cases d; cases hi; cases ha; rfl

/-- Upserts products into an index. -/
def load (c : Cluster) (name : String) (products : List Product) : Cluster :=
  c.modify name fun docs => docs.upsert products

@[simp] theorem load_nil (c : Cluster) (name : String) : c.load name [] = c := by
  refine Cluster.ext ?_ rfl
  show c.indices.map _ = c.indices
  conv_rhs => rw [← List.map_id c.indices]
  refine List.map_congr_left fun p _ => ?_
  simp only [upsert_nil, ite_self, id]

theorem modify_load (c : Cluster) (name : String) (p : Product) (products : List Product) :
    (c.modify name fun docs => Function.update docs p.id (some (toProductDocument p))).load name
      products = c.load name (p :: products) := by
  refine Cluster.ext ?_ rfl
  show List.map _ (List.map _ c.indices) = List.map _ c.indices
  rw [List.map_map]
  refine List.map_congr_left fun q _ => ?_
  simp only [Function.comp_apply]
  by_cases hq : q.1 = name
  · simp only [hq, if_true, upsert_cons]
  · simp only [hq, if_false]

@[simp] theorem aliases_load (c : Cluster) (name : String) (products : List Product) :
    (c.load name products).aliases = c.aliases := rfl

@[simp] theorem resolve_load (c : Cluster) (name a : String) (products : List Product) :
    (c.load name products).resolve a = c.resolve a := resolve_modify c

theorem find_load_self {c : Cluster} {name : String} {ix : EsIndex} (h : c.find name = some ix)
    (products : List Product) : (c.load name products).find name =
      some { ix with documents := ix.documents.upsert products } := by
  unfold load
  rw [find_modify, if_pos rfl, h]
  rfl

theorem find_load_of_ne (c : Cluster) {name n : String} (h : n ≠ name) (products : List Product) :
    (c.load name products).find n = c.find n := by
  unfold load
  rw [find_modify, if_neg h]

theorem find_load_isSome (c : Cluster) (name n : String) (products : List Product) :
    ((c.load name products).find n).isSome = (c.find n).isSome := find_modify_isSome c

/-- The products whose item is not refused. -/
def accepted : (ℕ → Option BulkError) → List Product → List Product
  | _, [] => []
  | refused, p :: products =>
    if (refused 0).isNone then p :: accepted (fun i => refused (i + 1)) products
    else accepted (fun i => refused (i + 1)) products

theorem accepted_sublist (refused : ℕ → Option BulkError) (products : List Product) :
    (accepted refused products).Sublist products := by
  induction products generalizing refused with
  | nil => exact List.Sublist.slnil
  | cons p products ih =>
    unfold accepted
    split_ifs
    · exact (ih _).cons_cons p
    · exact (ih _).cons p

/-- Every product is accepted exactly when no item is refused. -/
theorem accepted_eq_iff {refused : ℕ → Option BulkError} {products : List Product} :
    accepted refused products = products ↔ ∀ i < products.length, refused i = none := by
  induction products generalizing refused with
  | nil => simp [accepted]
  | cons p products ih =>
    unfold accepted
    cases hr : refused 0 with
    | some error =>
      rw [if_neg (by simp)]
      constructor
      · intro h
        have hlen := (accepted_sublist (fun i => refused (i + 1)) products).length_le
        rw [h, List.length_cons] at hlen
        omega
      · intro h
        rw [h 0 (by simp)] at hr
        cases hr
    | none =>
      rw [if_pos Option.isNone_none, List.cons.injEq, ih]
      constructor
      · rintro ⟨-, h⟩ i hi
        cases i with
        | zero => exact hr
        | succ i => exact h i (by simpa using hi)
      · exact fun h => ⟨rfl, fun i hi => h (i + 1) (by simpa using hi)⟩

theorem accepted_of_none {refused : ℕ → Option BulkError} (h : ∀ i, refused i = none)
    (products : List Product) : accepted refused products = products :=
  accepted_eq_iff.mpr fun i _ => h i

/-- A bulk whose target is one index loads the accepted products there. -/
theorem upsertItems_state {c : Cluster} {index n : String} (h : c.resolve index = [n])
    (refused : ℕ → Option BulkError) (products : List Product) :
    (c.upsertItems refused (products.map fun p => (index, p.id, toProductDocument p))).2 =
      c.load n (accepted refused products) := by
  induction products generalizing c refused with
  | nil => exact (load_nil c n).symm
  | cons p products ih =>
    rw [List.map_cons, upsertItems, accepted]
    cases hr : refused 0 with
    | some error => exact ih h _
    | none =>
      simp only [upsertItem, h, Option.isNone_none, if_true]
      rw [← modify_load]
      exact ih (by rw [resolve_modify]; exact h) _

end Cluster

/-- The cluster as a server: a call may go unserved, or its answer astray. -/
def elasticsearch : Server EsCall EsAnswer Cluster Fate where
  serve c call f :=
    match f.delivery with
    | .answered => c.apply call f
    | .lost e => (.error e.1, (c.apply call f).2)
    | .unreached e => (.error e.1, c)

section Serve

variable {c : Cluster} {call : EsCall} {f : Fate} {e : Outage}

theorem serve_answered (h : f.delivery = .answered) :
    elasticsearch.serve c call f = c.apply call f := by
  unfold elasticsearch
  simp only [h]

theorem serve_lost (h : f.delivery = .lost e) :
    elasticsearch.serve c call f = (.error e.1, (c.apply call f).2) := by
  unfold elasticsearch
  simp only [h]

theorem serve_unreached (h : f.delivery = .unreached e) :
    elasticsearch.serve c call f = (.error e.1, c) := by
  unfold elasticsearch
  simp only [h]

end Serve

end AdvancedSearch
