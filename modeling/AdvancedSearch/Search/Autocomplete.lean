import AdvancedSearch.Lib.Firsts
import AdvancedSearch.Search.Engine

/-!
# Autocompletion

The names whose words a prefix begins, best first. The adapter asks for as many hits as it may return
and drops repeated names afterwards, so it returns the distinct names of the first hits
(`complete_names`).
-/

namespace AdvancedSearch

open Js Firsts

/-- A hit as far as it is read: `_source?.name` and `_score`. -/
structure NameHit where
  name : Option String
  score : Option Number

structure AutocompleteItem where
  text : String
  score : Number
  deriving DecidableEq

/-! ## The adapter -/

/-- Type-ahead, in the middle of a phrase too. -/
def buildAutocompleteQuery (query : String) : Json :=
  .object
    [("multi_match", .object
      [("query", .string query), ("type", .string "bool_prefix"),
        ("fields", ofStrings ["name.suggest", "name.suggest._2gram", "name.suggest._3gram"])])]

/-- One turn of the loop over the hits: the names seen and the items pushed. -/
def pushItem (state : List String × List AutocompleteItem) (hit : NameHit) :
    List String × List AutocompleteItem :=
  match hit.name with
  | none => state
  | some name =>
    if name = "" ∨ name ∈ state.1 then state
    else (name :: state.1, state.2 ++ [{ text := name, score := hit.score.getD (.ofRat 0) }])

def toAutocompleteItems (hits : List NameHit) : List AutocompleteItem := (hits.foldl pushItem ([], [])).2

/-- `client.search` for names: from an index and the text of a body. -/
abbrev AutocompleteClient (ε : Type) := String → String → Except ε (List NameHit)

/-- The field of `ElasticsearchAutocompleteAdapter`. -/
structure AutocompleteAdapter where
  index : String

namespace AutocompleteAdapter

/-- The constructor. -/
def of (config : AppConfiguration) : AutocompleteAdapter where
  index := config.elasticsearch.index

def request (query : String) (limit : Number) : Json :=
  .object
    [("size", toJson limit), ("_source", ofStrings ["name"]), ("query", buildAutocompleteQuery query)]

def complete {ε : Type} (adapter : AutocompleteAdapter) (client : AutocompleteClient ε) (query : String)
    (limit : Number) : Except ε (List AutocompleteItem) := do
  let hits ← client adapter.index (request query limit).stringify
  return toAutocompleteItems hits

end AutocompleteAdapter

/-! ## What it returns -/

/-- The item of a hit that bears a name. -/
def NameHit.item? (hit : NameHit) : Option AutocompleteItem :=
  match hit.name with
  | none => none
  | some name => if name = "" then none else some { text := name, score := hit.score.getD (.ofRat 0) }

/-- The distinct names in rank order, each with the score of the first hit that bears it. -/
def bestNames (hits : List NameHit) : List AutocompleteItem := firsts (·.text) (hits.filterMap NameHit.item?)

theorem pushItem_eq (state : List String × List AutocompleteItem) (hit : NameHit) :
    pushItem state hit = (hit.item?.map (unseen (·.text) state)).getD state := by
  unfold pushItem NameHit.item?
  cases hit.name with
  | none => rfl
  | some name =>
    dsimp only
    by_cases hempty : name = ""
    · rw [if_pos (Or.inl hempty), if_pos hempty]
      rfl
    · rw [if_neg hempty]
      exact ite_congr (by simp [hempty]) (fun _ => rfl) fun _ => rfl

theorem toAutocompleteItems_eq (hits : List NameHit) : toAutocompleteItems hits = bestNames hits := by
  have hfold : ∀ state, hits.foldl pushItem state =
      (hits.filterMap NameHit.item?).foldl (unseen (·.text)) state := by
    intro state
    rw [List.foldl_filterMap]
    refine congrArg (fun f => List.foldl f state hits) ?_
    funext state hit
    rw [pushItem_eq]
    cases hit.item? <;> rfl
  unfold toAutocompleteItems bestNames
  rw [hfold, foldl_unseen, List.nil_append, List.filter_eq_self]
  simp

/-- An item is that of a hit whose name no better hit bears. -/
theorem mem_bestNames {hits : List NameHit} {item : AutocompleteItem} :
    item ∈ bestNames hits ↔ ∃ pre hit post, hits = pre ++ hit :: post ∧ hit.item? = some item ∧
      ∀ better ∈ pre, ∀ other, better.item? = some other → other.text ≠ item.text := by
  unfold bestNames
  rw [mem_firsts]
  constructor
  · rintro ⟨before, after, hsplit, hbefore⟩
    obtain ⟨pre, rest, rfl, hpre, hrest⟩ := List.filterMap_eq_append_iff.mp hsplit
    obtain ⟨skipped, hit, post, rfl, hskipped, hhit, -⟩ := List.filterMap_eq_cons_iff.mp hrest
    refine ⟨pre ++ skipped, hit, post, by rw [List.append_assoc], hhit, fun better hbetter other hother => ?_⟩
    rcases List.mem_append.mp hbetter with hmem | hmem
    · exact hbefore other (hpre ▸ List.mem_filterMap.mpr ⟨better, hmem, hother⟩)
    · rw [hskipped better hmem] at hother
      cases hother
  · rintro ⟨pre, hit, post, rfl, hhit, hpre⟩
    refine ⟨pre.filterMap NameHit.item?, post.filterMap NameHit.item?, ?_, fun other hother => ?_⟩
    · rw [List.filterMap_append, List.filterMap_cons_some hhit]
    · obtain ⟨better, hbetter, heq⟩ := List.mem_filterMap.mp hother
      exact hpre better hbetter other heq

theorem length_bestNames_le (hits : List NameHit) : (bestNames hits).length ≤ hits.length :=
  firsts_sublist.length_le.trans (List.length_filterMap_le _ _)

/-! ## Ranked hits -/

/-- An index that answers with the first `size` hits of a query. -/
def rankedClient (ranked : String → Json → List NameHit) : AutocompleteClient String := fun index text =>
  match Json.parse text with
  | some body => .ok ((ranked index ((body.get "query").getD .null)).take (natOf (body.get "size")))
  | none => .error "parsing_exception"

theorem request_ordered (query : String) (limit : Number) :
    (AutocompleteAdapter.request query limit).Ordered := by
  refine Json.ordered_object ["size", "_source", "query"] rfl (by decide)
    ⟨toJson_ordered limit, ofStrings_ordered _, ?_, trivial⟩
  refine Json.ordered_object ["multi_match"] rfl (by decide) ⟨?_, trivial⟩
  exact Json.ordered_object ["query", "type", "fields"] rfl (by decide)
    ⟨trivial, trivial, ofStrings_ordered _, trivial⟩

/-- The adapter returns the distinct names of the first hits. -/
theorem complete_ranked (ranked : String → Json → List NameHit) (adapter : AutocompleteAdapter)
    (query : String) {limit : ℕ} (hlimit : limit < 2 ^ 53) :
    adapter.complete (rankedClient ranked) query (.ofRat limit) =
      .ok (bestNames ((ranked adapter.index (buildAutocompleteQuery query)).take limit)) := by
  have hclient : rankedClient ranked adapter.index
      (AutocompleteAdapter.request query (.ofRat limit)).stringify =
        .ok ((ranked adapter.index (buildAutocompleteQuery query)).take limit) := by
    unfold rankedClient
    rw [Json.parse_stringify (request_ordered query _)]
    show Except.ok ((ranked adapter.index (buildAutocompleteQuery query)).take
      (natOf (some (toJson (.ofRat limit))))) = _
    rw [natOf_toJson hlimit]
  unfold AutocompleteAdapter.complete
  rw [hclient, ← toAutocompleteItems_eq]
  rfl

/-- **What autocompletion returns.** The distinct names of the first `limit` hits, each with the score of
the first hit that bears it: the best names, though fewer than `limit` of them when names repeat. All of
the best names up to `limit` are returned exactly when there are `limit` among these hits, or the hits
after them bear no other. -/
theorem complete_names (ranked : String → Json → List NameHit) (config : AppConfiguration)
    (query : String) {limit : ℕ} (hlimit : 1 ≤ limit ∧ limit ≤ 20) :
    ∃ hits items, hits = ranked config.elasticsearch.index (buildAutocompleteQuery query) ∧
      (AutocompleteAdapter.of config).complete (rankedClient ranked) query (.ofRat limit) = .ok items ∧
      items = bestNames (hits.take limit) ∧ items <+: (bestNames hits).take limit ∧
      (items = (bestNames hits).take limit ↔ items.length = limit ∨
        ∀ later ∈ (hits.drop limit).filterMap NameHit.item?,
          ∃ item ∈ (hits.take limit).filterMap NameHit.item?, later.text = item.text) := by
  obtain ⟨hits, hhits⟩ : ∃ hits, hits = ranked config.elasticsearch.index (buildAutocompleteQuery query) :=
    ⟨_, rfl⟩
  have hlength : (bestNames (hits.take limit)).length ≤ limit :=
    (length_bestNames_le _).trans (List.length_take_le _ _)
  have hsplit : bestNames hits = firsts (·.text) ((hits.take limit).filterMap NameHit.item? ++
      (hits.drop limit).filterMap NameHit.item?) := by
    rw [← List.filterMap_append, List.take_append_drop]
    rfl
  refine ⟨hits, bestNames (hits.take limit), hhits, ?_, rfl, ?_, ?_⟩
  · rw [complete_ranked ranked (AutocompleteAdapter.of config) query (by omega), hhits]
    rfl
  · rw [List.prefix_take_iff, hsplit]
    exact ⟨firsts_begin, hlength⟩
  · rw [hsplit]
    exact firsts_eq_take_iff hlength

/-! ### A name that repeats -/

/-- Two drills of one name, and a saw behind them. -/
def drillTwice : String → Json → List NameHit := fun _ _ =>
  [{ name := some "Drill", score := some (.ofRat 3) }, { name := some "Drill", score := some (.ofRat 2) },
    { name := some "Drill saw", score := some (.ofRat 1) }]

/-- Two names match, two may be returned, and one is. -/
theorem complete_short :
    (AutocompleteAdapter.of (buildConfig (deployment 5))).complete (rankedClient drillTwice) "dri"
        (.ofRat (2 : ℕ)) = .ok [{ text := "Drill", score := .ofRat 3 }] ∧
      (bestNames (drillTwice "products" (buildAutocompleteQuery "dri"))).take 2 =
        [{ text := "Drill", score := .ofRat 3 }, { text := "Drill saw", score := .ofRat 1 }] := by
  refine ⟨?_, by decide +kernel⟩
  rw [complete_ranked drillTwice _ "dri" (by omega)]
  decide +kernel

theorem complete_names_drillTwice :
    ∃ hits items, hits = drillTwice "products" (buildAutocompleteQuery "dri") ∧
      (AutocompleteAdapter.of (buildConfig (deployment 5))).complete (rankedClient drillTwice) "dri"
        (.ofRat (3 : ℕ)) = .ok items ∧
      items = bestNames (hits.take 3) ∧ items <+: (bestNames hits).take 3 ∧
      (items = (bestNames hits).take 3 ↔ items.length = 3 ∨
        ∀ later ∈ (hits.drop 3).filterMap NameHit.item?,
          ∃ item ∈ (hits.take 3).filterMap NameHit.item?, later.text = item.text) :=
  complete_names drillTwice (buildConfig (deployment 5)) "dri" (by decide)

end AdvancedSearch
