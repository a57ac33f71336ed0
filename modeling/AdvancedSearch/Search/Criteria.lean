import AdvancedSearch.Config.AppConfig
import AdvancedSearch.Lib.Text

/-!
# Search criteria

What `GET /search` accepts and the criteria it becomes.
-/

namespace AdvancedSearch

open Js

inductive SortField where
  | relevance | popularity | createdAt
  deriving DecidableEq

inductive SortOrder where
  | asc | desc
  deriving DecidableEq

/-- The text of an enumeration. -/
def SortField.text : SortField → String
  | relevance => "relevance"
  | popularity => "popularity"
  | createdAt => "created_at"

def SortOrder.text : SortOrder → String
  | asc => "asc"
  | desc => "desc"

structure SearchFilters where
  category : Option String
  subcategories : Option (List String)
  location : Option String
  minPrice : Option Number
  maxPrice : Option Number

structure SearchCriteria where
  query : Option String
  filters : SearchFilters
  sort : SortField
  order : SortOrder
  page : Number
  pageSize : Number

/-- The query parameters of a search, transformed. -/
structure SearchQueryDto where
  q : Option String
  category : Option String
  subcategory : Option (List String)
  location : Option String
  minPrice : Option Number
  maxPrice : Option Number
  sort : Option SortField
  order : Option SortOrder
  page : Option Number
  pageSize : Option Number

def MAX_QUERY_LENGTH : ℕ := 256
def MAX_TERM_LENGTH : ℕ := 128
def MAX_SUBCATEGORIES : ℕ := 20

/-- What the validators of the query parameters see to of the numbers. -/
structure SearchQueryDto.Valid (dto : SearchQueryDto) : Prop where
  minPrice : ∀ p ∈ dto.minPrice, p.isFinite ∧ p.isNegative = false
  maxPrice : ∀ p ∈ dto.maxPrice, p.isFinite ∧ p.isNegative = false ∧
    ∀ m ∈ dto.minPrice, Number.lt p m = false
  page : ∀ p ∈ dto.page, p.isInteger ∧ Number.lt p (.ofRat 1) = false
  pageSize : ∀ p ∈ dto.pageSize, p.isInteger ∧ Number.lt p (.ofRat 1) = false

/-- Defaults: relevance with a query, popularity without. -/
def toSearchCriteria (dto : SearchQueryDto) (config : SearchConfig) : SearchCriteria :=
  let query := match dto.q with
    | some q => if trim q = "" then none else some (trim q)
    | none => none
  { query := query
    filters :=
      { category := dto.category
        subcategories := dto.subcategory
        location := dto.location
        minPrice := dto.minPrice
        maxPrice := dto.maxPrice }
    sort := dto.sort.getD (if query.isSome then .relevance else .popularity)
    order := dto.order.getD .desc
    page := dto.page.getD (.ofRat 1)
    pageSize := dto.pageSize.getD config.defaultPageSize }

end AdvancedSearch
