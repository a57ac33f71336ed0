import Mathlib.Data.List.Basic

/-!
# Requests, paths and keys

The parts of a request that routing and authentication read, `ApiKeyGuard` and the key check in front
of the documentation. A path is a list of characters; SHA-256 is a parameter.
-/

namespace AdvancedSearch

/-! ## Requests -/

/-- A value of `request.headers`. -/
inductive HeaderValue where
  | single (value : String)
  | many (values : List String)

/-- A request; `url` is its target as sent, in origin form. -/
structure Request where
  method : String
  url : String
  headers : String → Option HeaderValue

abbrev Path := List Char

/-- Endpoints the platform calls, not clients. -/
def OPERATOR_PATHS : List String := ["/health", "/metrics"]

/-- Removes the query. -/
def pathWithoutQuery (path : Path) : Path := path.takeWhile (· ≠ '?')

/-- Exact match or sub-path, never a bare prefix. -/
def matchesPath (path : Path) (prefixes : List String) : Bool :=
  prefixes.any fun p => pathWithoutQuery path = p.toList ∨ p.toList ++ ['/'] <+: pathWithoutQuery path

/-! ## Keys -/

def API_KEY_HEADER : String := "x-api-key"

/-- `sha256` answers in hexadecimal. -/
def toClientId (digest : String) : String := "key:" ++ String.ofList (digest.toList.take 16)

/-- The client a presented key stands for, if it is a configured one: every digest is compared. -/
def createKeyIdentifier (sha256 : String → String) (keys : List String) (presented : Option String) :
    Option String :=
  let known := keys.map sha256
  match presented with
  | none => none
  | some presented =>
    if presented = "" then none
    else
      let candidate := sha256 presented
      let matched := known.foldl (fun found digest => if digest = candidate then true else found) false
      if matched then some (toClientId candidate) else none

/-- The first value of the key header. -/
def presentedKey (request : Request) : Option String :=
  match request.headers API_KEY_HEADER with
  | none => none
  | some (.single value) => some value
  | some (.many values) => values.head?

/-- Who may call the API. -/
structure ApiAuthConfig where
  enabled : Bool
  keys : List String

/-- `ApiKeyGuard.canActivate`; where it throws, the answer is 401. -/
def canActivate (sha256 : String → String) (config : ApiAuthConfig) (request : Request) : Bool :=
  if ! config.enabled then true
  else if matchesPath request.url.toList OPERATOR_PATHS then true
  else (createKeyIdentifier sha256 config.keys (presentedKey request)).isSome

/-- A digest of the list is compared whichever position it has. -/
theorem foldl_matches (known : List String) (candidate : String) (found : Bool) :
    known.foldl (fun found digest => if digest = candidate then true else found) found =
      (found || known.contains candidate) := by
  induction known generalizing found with
  | nil => simp
  | cons digest known ih =>
    rw [List.foldl_cons, ih, List.contains_cons]
    by_cases h : digest = candidate
    · simp [h]
    · rw [if_neg h, beq_eq_false_iff_ne.mpr (Ne.symm h), Bool.false_or]

/-- A request carries no configured key. -/
def Keyless (config : ApiAuthConfig) (request : Request) : Prop :=
  ∀ key ∈ presentedKey request, key ∉ config.keys

/-- Who presents no text with a listed digest is nobody. -/
theorem createKeyIdentifier_of_unlisted {sha256 : String → String} {keys : List String}
    {presented : Option String} (h : ∀ p ∈ presented, ∀ key ∈ keys, sha256 key ≠ sha256 p) :
    createKeyIdentifier sha256 keys presented = none := by
  unfold createKeyIdentifier
  cases presented with
  | none => rfl
  | some p =>
    have hno : (keys.map sha256).contains (sha256 p) = false := by
      rw [Bool.eq_false_iff]
      intro hc
      obtain ⟨key, hkey, heq⟩ := List.mem_map.mp (List.contains_iff_mem.mp hc)
      exact h p rfl key hkey heq
    simp only [foldl_matches, hno, Bool.or_false, Bool.false_eq_true, if_false, ite_self]

/-- Without a collision, only a configured key is identified. -/
theorem createKeyIdentifier_none {sha256 : String → String} {keys : List String}
    {presented : Option String} (h : ∀ key ∈ presented, key ∉ keys)
    (hsha : ∀ p ∈ presented, ∀ key ∈ keys, sha256 key = sha256 p → key = p) :
    createKeyIdentifier sha256 keys presented = none :=
  createKeyIdentifier_of_unlisted fun p hp key hkey heq => h p hp (hsha p hp key hkey heq ▸ hkey)

end AdvancedSearch
