import Mathlib.Data.List.Sort
import AdvancedSearch.Search.Alike

/-!
# The key of a search

Criteria are normalised before they are digested, so that equivalent requests share an entry: what is
absent is empty, and subcategories are sorted. Criteria with one key are alike (`alike_of_key_eq`).
-/

namespace AdvancedSearch

open Js

/-! ## The key -/

def CACHE_NAMESPACE : String := "search:v1"

/-- A price or `null`. -/
def priceJson : Option Number → Json := nullableJson toJson

def normalize (criteria : SearchCriteria) : Json :=
  .object
    [("q", .string (criteria.query.getD "")),
      ("category", .string (criteria.filters.category.getD "")),
      ("subcategories", ofStrings
        ((criteria.filters.subcategories.getD []).insertionSort fun a b => stringLe a b)),
      ("location", .string (criteria.filters.location.getD "")),
      ("minPrice", priceJson criteria.filters.minPrice),
      ("maxPrice", priceJson criteria.filters.maxPrice),
      ("sort", .string criteria.sort.text),
      ("order", .string criteria.order.text),
      ("page", toJson criteria.page),
      ("pageSize", toJson criteria.pageSize)]

def buildSearchCacheKey (sha1 : String → String) (criteria : SearchCriteria) (scope : String) : String :=
  CACHE_NAMESPACE ++ ":" ++ scope ++ ":" ++ sha1 (normalize criteria).stringify

/-! ## Criteria with one key -/

/-- Criteria whose numbers are finite. -/
structure SearchCriteria.Finite (criteria : SearchCriteria) : Prop where
  minPrice : ∀ p ∈ criteria.filters.minPrice, p.isFinite
  maxPrice : ∀ p ∈ criteria.filters.maxPrice, p.isFinite
  page : criteria.page.isFinite
  pageSize : criteria.pageSize.isFinite

theorem isFinite_of_isInteger {x : Number} (h : x.isInteger) : x.isFinite := by
  cases x <;> first | rfl | cases h

/-- Validated parameters become finite criteria. -/
theorem toSearchCriteria_finite {dto : SearchQueryDto} (h : dto.Valid) {env : Env}
    (henv : env.Accepted) : (toSearchCriteria dto (buildConfig env).search).Finite := by
  refine ⟨fun p hp => (h.minPrice p hp).1, fun p hp => (h.maxPrice p hp).1, ?_, ?_⟩
  · show (dto.page.getD (.ofRat 1)).isFinite
    cases hpage : dto.page with
    | none => exact show (Number.ofRat 1).isFinite by decide +kernel
    | some p => exact isFinite_of_isInteger (h.page p hpage).1
  · show (dto.pageSize.getD env.SEARCH_DEFAULT_PAGE_SIZE).isFinite
    cases hsize : dto.pageSize with
    | none =>
      obtain ⟨⟨d, hd, -⟩, -⟩ := henv.defaultPageSize
      rw [Option.getD_none, hd]
      rfl
    | some p => exact isFinite_of_isInteger (h.pageSize p hsize).1

theorem normalize_ordered (criteria : SearchCriteria) : (normalize criteria).Ordered := by
  have hprice : ∀ price, (priceJson price).Ordered := by
    intro price
    cases price with
    | none => trivial
    | some p => exact toJson_ordered p
  exact Json.ordered_object ["q", "category", "subcategories", "location", "minPrice", "maxPrice",
    "sort", "order", "page", "pageSize"] rfl (by decide)
    ⟨trivial, trivial, ofStrings_ordered _, trivial, hprice _, hprice _, trivial, trivial,
      toJson_ordered _, toJson_ordered _, trivial⟩

theorem priceJson_inj {p q : Option Number} (hp : ∀ x ∈ p, x.isFinite) (hq : ∀ x ∈ q, x.isFinite)
    (h : priceJson p = priceJson q) : p = q := by
  have hnull : ∀ {x : Number}, x.isFinite → toJson x ≠ .null := by
    intro x hx hnull
    cases x <;> cases hx
    cases hnull
  cases p with
  | none =>
    cases q with
    | none => rfl
    | some y => exact absurd h.symm (hnull (hq y rfl))
  | some x =>
    cases q with
    | none => exact absurd h (hnull (hp x rfl))
    | some y => exact congrArg some (toJson_inj (hp x rfl) h)

theorem SortField.text_injective {a b : SortField} (h : a.text = b.text) : a = b := by
  cases a <;> cases b <;> first | rfl | exact absurd h (by decide)

theorem SortOrder.text_injective {a b : SortOrder} (h : a.text = b.text) : a = b := by
  cases a <;> cases b <;> first | rfl | exact absurd h (by decide)

/-- Criteria normalised to one text are alike. -/
theorem alike_of_normalize_eq {c₁ c₂ : SearchCriteria} (h₁ : c₁.Finite) (h₂ : c₂.Finite)
    (h : (normalize c₁).stringify = (normalize c₂).stringify) : c₁.Alike c₂ := by
  have hjson := Json.stringify_injective (normalize_ordered c₁) (normalize_ordered c₂) h
  unfold normalize at hjson
  simp only [Json.object.injEq, List.cons.injEq, Prod.mk.injEq, Json.string.injEq, true_and,
    and_true] at hjson
  obtain ⟨hq, hcategory, hsubcategories, hlocation, hmin, hmax, hsort, horder, hpage, hsize⟩ := hjson
  refine ⟨hq, hcategory, ?_, hlocation, priceJson_inj h₁.minPrice h₂.minPrice hmin,
    priceJson_inj h₁.maxPrice h₂.maxPrice hmax, SortField.text_injective hsort,
    SortOrder.text_injective horder, toJson_inj h₁.page hpage, toJson_inj h₁.pageSize hsize⟩
  have hsorted := ofStrings_inj hsubcategories
  refine (List.perm_insertionSort (fun a b => stringLe a b) _).symm.trans ?_
  rw [hsorted]
  exact List.perm_insertionSort _ _

/-- Criteria with one key are alike, collisions aside. -/
theorem alike_of_key_eq {sha1 : String → String} {scope : String} {c₁ c₂ : SearchCriteria}
    (h₁ : c₁.Finite) (h₂ : c₂.Finite)
    (hsha : sha1 (normalize c₁).stringify = sha1 (normalize c₂).stringify →
      (normalize c₁).stringify = (normalize c₂).stringify)
    (h : buildSearchCacheKey sha1 c₁ scope = buildSearchCacheKey sha1 c₂ scope) : c₁.Alike c₂ := by
  refine alike_of_normalize_eq h₁ h₂ (hsha ?_)
  unfold buildSearchCacheKey at h
  have hlist := congrArg String.toList h
  simp only [String.toList_append] at hlist
  exact String.toList_inj.mp (List.append_cancel_left hlist)

end AdvancedSearch
