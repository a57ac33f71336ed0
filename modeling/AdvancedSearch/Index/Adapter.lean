import AdvancedSearch.Index.Cluster
import AdvancedSearch.Index.Mapping
import AdvancedSearch.Index.PhysicalVersion

/-!
# The seed

`ProductIndexAdapter`, `SeedCatalogUseCase.execute` and the seed command, as clients of the cluster.
The adapter's mutable fields are the client's state, so one run of the seed is one run of the
program `runSeed`.

An image of the seed is what differs between two runs of it: the alias it is configured with, its
index definition, and how it reads dates and digests texts.
-/

namespace AdvancedSearch

open Js Service

/-! ## Bulk bodies and responses -/

/-- An action line and a document line for each product. -/
def buildBulkOperations (products : List Product) (index : String) : List BulkOperation :=
  products.flatMap fun product => [.index index product.id, .document (toProductDocument product)]

structure BulkFailure where
  id : String
  reason : String
  deriving DecidableEq, Repr

structure BulkResult where
  total : ℕ
  indexed : ℤ
  failed : ℕ
  failures : List BulkFailure
  deriving DecidableEq, Repr

/-- The failure an item reports, if it does. -/
def BulkItem.failure (item : BulkItem) : Option BulkFailure :=
  match item.index <|> item.create with
  | none => none
  | some operation =>
    operation.error.map fun error =>
      { id := operation._id.getD "unknown"
        reason := (error.reason <|> error.type).getD "unknown error" }

def summarizeBulkResponse (items : List BulkItem) (total : ℕ) : BulkResult :=
  let failures := items.filterMap BulkItem.failure
  { total, indexed := total - failures.length, failed := failures.length, failures }

/-! ## The index adapter -/

inductive IndexPreparationAction where
  | unchanged
  | created
  | migrating
  deriving DecidableEq, Repr

/-- What provisioning decided to do. -/
structure IndexPreparation where
  action : IndexPreparationAction
  version : Whole
  replacedVersion : Option Whole := none
  deriving DecidableEq

/-- What publishing did. -/
structure IndexPublication where
  published : Bool
  version : Whole
  retainedVersion : Option Whole := none
  prunedVersions : List Whole
  deriving DecidableEq

structure LiveIndex where
  version : Whole
  fingerprint : Option String
  deriving DecidableEq

structure PendingVersion where
  version : Whole
  replacedVersion : Whole
  deriving DecidableEq

/-- The mutable fields of the adapter. -/
structure AdapterState where
  servedVersion : Option Whole
  pending : Option PendingVersion
  deriving DecidableEq

/-- A new adapter. -/
def freshAdapter : AdapterState := ⟨none, none⟩

/-- What a run can throw. -/
inductive SeedError where
  | elasticsearch (e : EsError)
  | migration (e : IndexMigrationError)

abbrev AdapterM := Client EsCall EsAnswer SeedError AdapterState

/-- A call to the cluster. -/
def call (c : EsCall) : AdapterM (Response c) := Client.perform SeedError.elasticsearch c

/-- An image of the seed. -/
structure Image where
  aliasName : String
  definition : IndexDefinition
  sha256 : String → String
  parseDate : String → Option ℤ

namespace Image

variable (m : Image)

/-- The fingerprint of the image's definition. -/
def fingerprint : String := fingerprintDefinition m.sha256 m.definition

/-- The image's name of a version. -/
def physical (version : Whole) : String := physicalIndexName m.aliasName version

def ambiguousAlias (names : List String) : IndexMigrationError where
  message := "Alias \"" ++ m.aliasName ++ "\" points at " ++ names.length.repr ++ " indices (" ++
    ", ".intercalate names ++ "). Refusing to migrate an ambiguous alias."

def migrationInFlight (index : String) : IndexMigrationError where
  message := "Index \"" ++ index ++
    "\" already exists, so another migration is in flight. Re-run once it finishes."

/-- The mappings behind the alias, nothing when it does not exist. -/
def readMappings : AdapterM (Option (List (String × Mappings))) :=
  tryCatch (do return some (← call (.getMapping m.aliasName))) fun
    | .elasticsearch e =>
      if isIndexNotFoundError e then pure none else throw (.elasticsearch e)
    | e => throw e

/-- The version the alias serves and its fingerprint, when something is provisioned. -/
def readLiveIndex : AdapterM (Option LiveIndex) := do
  match ← m.readMappings with
  | none => return none
  | some [] => return none
  | some [(name, mappings)] =>
    match parsePhysicalIndexVersion m.aliasName name with
    | .error e => throw (.migration e)
    | .ok version => return some ⟨version, readFingerprint (some mappings)⟩
  | some entries => throw (.migration (m.ambiguousAlias (entries.map Prod.fst)))

/-- First provisioning, alias inline. A creator that was faster is tolerated, a missing alias
repaired. -/
def createInitialIndex (definition : IndexDefinition) : AdapterM Unit :=
  let index := m.physical firstVersion
  tryCatch (call (.create index definition.settings definition.mappings [m.aliasName])) fun
    | .elasticsearch e =>
      if isAlreadyExistsError e then do
        if !(← call (.existsAlias m.aliasName)) then
          call (.putAlias index m.aliasName)
      else throw (.elasticsearch e)
    | e => throw e

/-- The target of a migration, without the alias; an existing one is refused. -/
def createPendingIndex (version : Whole) (definition : IndexDefinition) : AdapterM Unit :=
  let index := m.physical version
  tryCatch (call (.create index definition.settings definition.mappings [])) fun
    | .elasticsearch e =>
      if isAlreadyExistsError e then throw (.migration (migrationInFlight index))
      else throw (.elasticsearch e)
    | e => throw e

def ensureIndex : AdapterM IndexPreparation := do
  let definition := withFingerprint m.sha256 m.definition
  let live ← m.readLiveIndex
  match live with
  | none =>
    m.createInitialIndex definition
    set (AdapterState.mk (some firstVersion) none)
    return { action := .created, version := firstVersion }
  | some live =>
    modify fun t => { t with servedVersion := some live.version }
    if live.fingerprint = some m.fingerprint then
      modify fun t => { t with pending := none }
      return { action := .unchanged, version := live.version }
    else
      let version := nextPhysicalVersion (some live.version)
      m.createPendingIndex version definition
      modify fun t => { t with pending := some ⟨version, live.version⟩ }
      return { action := .migrating, version, replacedVersion := some live.version }

/-- Where writes land: the pending version while a migration is in flight. -/
def writeTarget (t : AdapterState) : String :=
  match t.pending with
  | none => m.aliasName
  | some pending => m.physical pending.version

def bulkIndex (products : List Product) : AdapterM BulkResult := do
  if products.length = 0 then
    return { total := 0, indexed := 0, failed := 0, failures := [] }
  else
    let operations := buildBulkOperations products (m.writeTarget (← get))
    let response ← call (.bulk operations)
    return summarizeBulkResponse response products.length

def refresh : AdapterM Unit := do
  call (.refresh (m.writeTarget (← get)))

/-- The listed indices of this alias whose version is before `retainedVersion`. -/
def staleIndices (names : List String) (retainedVersion : Whole) : List (String × Whole) :=
  (names.filterMap fun name =>
    (tryParsePhysicalIndexVersion m.aliasName name).map fun version => (name, version)).filter
      fun index => index.2 < retainedVersion

/-- Deletes every version older than the retained one. -/
def pruneOlderThan (retainedVersion : Whole) : AdapterM (List Whole) := do
  let response ← call (.get (m.aliasName ++ "_v*"))
  let stale := m.staleIndices response retainedVersion
  stale.forM fun index => call (.delete index.1)
  return (stale.map Prod.snd).insertionSort fun a b => a ≤ b

/-- The alias actions of a flip. -/
def flipActions (pending : PendingVersion) : List AliasAction :=
  [.remove (m.physical pending.replacedVersion) m.aliasName,
    .add (m.physical pending.version) m.aliasName]

def publishIndex : AdapterM IndexPublication := do
  let t ← get
  match t.pending with
  | none =>
    match t.servedVersion with
    | none => throw (.migration ⟨"publishIndex() called before ensureIndex()."⟩)
    | some served => return { published := false, version := served, prunedVersions := [] }
  | some pending =>
    call (.updateAliases (m.flipActions pending))
    let prunedVersions ← m.pruneOlderThan pending.replacedVersion
    set (AdapterState.mk (some pending.version) none)
    return {
      published := true
      version := pending.version
      retainedVersion := some pending.replacedVersion
      prunedVersions }

end Image

/-! ## The use case and the command -/

/-- What one run did; no publication when the load was incomplete. -/
structure SeedOutcome where
  bulk : BulkResult
  preparation : IndexPreparation
  publication : Option IndexPublication
  deriving DecidableEq

/-- What an operator is told about the index. -/
def describeIndexOutcome (outcome : SeedOutcome) : String :=
  let version (v : Option Whole) : String := (v.map Whole.toString).getD "?"
  match outcome.preparation.action with
  | .created => "Index created at version " ++ outcome.preparation.version.toString ++ "."
  | .unchanged =>
    "Index definition unchanged; still serving version " ++ outcome.preparation.version.toString ++ "."
  | .migrating =>
    match outcome.publication with
    | none =>
      "Definition changed, so version " ++ outcome.preparation.version.toString ++
        " was loaded — but NOT published, because documents failed to index. " ++
        "The alias still serves version " ++ version outcome.preparation.replacedVersion ++ "."
    | some publication =>
      let pruned :=
        if publication.prunedVersions.length > 0 then
          " Deleted version(s) " ++
            ", ".intercalate (publication.prunedVersions.map Whole.toString) ++ "."
        else ""
      "Definition changed: migrated to version " ++ publication.version.toString ++
        " and moved the alias. Version " ++ version publication.retainedVersion ++
        " is retained for rollback." ++ pruned

/-- How a seed command ends. -/
structure SeedEnd where
  result : Except SeedError SeedOutcome
  exitCode : ℕ
  log : List String

/-- The exit-code rule and the log: a rejection exits with 1 as well. -/
def seedEnd (invalid : List InvalidRecord) (result : Except SeedError SeedOutcome) : SeedEnd :=
  let skipped := invalid.map fun record =>
    "Skipping invalid product " ++ record.id.getD "(no id)" ++ ": " ++ record.reason
  match result with
  | .error e => { result := .error e, exitCode := 1, log := skipped }
  | .ok outcome =>
    { result := .ok outcome
      exitCode := if outcome.bulk.failed > 0 ∨ invalid.length > 0 then 1 else 0
      log := skipped ++
        [describeIndexOutcome outcome,
          "Seed complete: total=" ++ outcome.bulk.total.repr ++
            " indexed=" ++ toString outcome.bulk.indexed ++ " failed=" ++ outcome.bulk.failed.repr] ++
        outcome.bulk.failures.map fun failure =>
          "Failed to index " ++ failure.id ++ ": " ++ failure.reason }

namespace Image

variable (m : Image)

/-- `SeedCatalogUseCase.execute`. -/
def execute (products : List Product) : AdapterM SeedOutcome := do
  let preparation ← m.ensureIndex
  let bulk ← m.bulkIndex products
  m.refresh
  if bulk.failed > 0 then
    return { bulk, preparation, publication := none }
  else
    let publication ← m.publishIndex
    return { bulk, preparation, publication := some publication }

/-- One run of the use case over a new adapter. -/
def seed (products : List Product) : Program EsCall EsAnswer (Except SeedError SeedOutcome) :=
  (m.execute products freshAdapter).bind fun r => .finished r.1

/-- The seed command. -/
def runSeed (records : List RawProduct) : Program EsCall EsAnswer SeedEnd :=
  let loaded := loadProducts m.parseDate records
  (m.seed loaded.products).bind fun result => .finished (seedEnd loaded.invalid result)

end Image

/-- The exit code of a command that has ended. -/
def exitCode? : Program EsCall EsAnswer SeedEnd → Option ℕ
  | .finished finish => some finish.exitCode
  | .waiting .. => none

theorem ended {x : Program EsCall EsAnswer SeedEnd × Cluster} {code : ℕ}
    (h : exitCode? x.1 = some code) :
    ∃ finish, x = (.finished finish, x.2) ∧ finish.exitCode = code := by
  obtain ⟨p, c⟩ := x
  cases p with
  | finished finish => exact ⟨finish, rfl, Option.some.inj h⟩
  | waiting call next => cases h

/-! ## An example catalogue -/

/-- A seed of the `products` alias; it reads one date text, and digests nothing away. -/
def productsImage (definition : IndexDefinition) : Image where
  aliasName := "products"
  definition := definition
  sha256 := id
  parseDate text := if text = "2026-01-01T00:00:00.000Z" then some 1767225600000 else none

/-- An image that maps the id. -/
def currentImage : Image :=
  productsImage { settings := [], mappings := ⟨none, [("properties", .object [("id", keywordField)])]⟩ }

/-- An image from before it was mapped. -/
def previousImage : Image := productsImage { settings := [], mappings := ⟨none, []⟩ }

def drill (id : String) (price : ℚ) : RawProduct where
  id := id
  name := "Cordless Drill"
  description := "A powerful drill"
  category := "Tools"
  subcategories := ["Power Tools"]
  location := "Berlin"
  price := .ofRat price
  popularity := .ofRat 10
  createdAt := "2026-01-01T00:00:00.000Z"

def emptyCluster : Cluster where
  indices := []
  aliases _ := []
  distinct := List.nodup_nil
  carried _ _ h := absurd h List.not_mem_nil

/-- A call that is answered. -/
def calm : Fate := ⟨.answered, fun _ => none, String.length⟩

/-- An undisturbed seed command. -/
def Image.calmRun (m : Image) (records : List RawProduct) (c : Cluster) :
    Program EsCall EsAnswer SeedEnd × Cluster :=
  Program.run elasticsearch (m.runSeed records, c) (List.replicate 9 calm)

/-- The cluster it leaves. -/
def Image.seeded (m : Image) (records : List RawProduct) (c : Cluster) : Cluster :=
  (m.calmRun records c).2

end AdvancedSearch
