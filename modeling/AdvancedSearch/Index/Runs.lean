import AdvancedSearch.Index.Adapter

/-!
# Runs of the adapter's methods

Rules for the program logic at the cluster. Of the calls a run has made only one fact matters: that
an alias flip took effect (`flipped`). `Runs` is `Program.Upholds` read through it, and each method of
the adapter gets one rule, from which the whole run is assembled elsewhere.
-/

namespace AdvancedSearch

open Js Service

abbrev EsEvent := Event EsCall Cluster Fate

def Fate.fails (f : Fate) : Bool :=
  match f.delivery with
  | .answered => false
  | _ => true

/-- Whether a call under this fate reaches the cluster. -/
def Fate.served (f : Fate) : Bool :=
  match f.delivery with
  | .unreached _ => false
  | _ => true

/-- An `updateAliases` that took effect, whether or not the client heard of it. -/
def movesAlias (e : EsEvent) : Bool :=
  match e.call with
  | .updateAliases actions => e.fate.served && (e.before.apply (.updateAliases actions) e.fate).1.isOk
  | _ => false

def flipped (past : List EsEvent) : Bool := past.any movesAlias

theorem movesAlias_updateAliases (s : Cluster) (actions : List AliasAction) (f : Fate) :
    movesAlias ⟨s, .updateAliases actions, f⟩ =
      (f.served && (s.apply (.updateAliases actions) f).1.isOk) := rfl

theorem flipped_concat (past : List EsEvent) (e : EsEvent) :
    flipped (past ++ [e]) = (flipped past || movesAlias e) := by
  simp [flipped]

/-- Some allowed fate makes a call fail. -/
def CanFail (ok : Fate → Prop) : Prop := ∃ f, ok f ∧ f.fails = true

/-- Some allowed fate refuses a document. -/
def CanRefuse (ok : Fate → Prop) : Prop := ∃ f, ok f ∧ ∃ i, f.refused i ≠ none

theorem not_canFail_undisturbed : ¬ CanFail Undisturbed := by
  rintro ⟨f, ⟨hf, -⟩, hfail⟩
  simp [Fate.fails, hf] at hfail

theorem not_canRefuse_undisturbed : ¬ CanRefuse Undisturbed := by
  rintro ⟨f, ⟨-, hf⟩, i, hi⟩
  exact hi (hf i)

section Runs

variable {α β : Type} (ok : Fate → Prop) (J : Bool → Cluster → Prop)

/-- From a history that has flipped the alias or not, `J` holds wherever the run can stop and `K`
where it finishes. -/
def Runs (K : Bool → α → Cluster → Prop) (p : Program EsCall EsAnswer α) (flip : Bool)
    (s : Cluster) : Prop :=
  ∀ past, flipped past = flip →
    Program.Upholds elasticsearch ok (fun past s => J (flipped past) s)
      (fun past a s => K (flipped past) a s) p past s

variable {ok J} {K : Bool → α → Cluster → Prop} {flip : Bool} {s : Cluster}

theorem runs_finished {a : α} (hJ : J flip s) (hK : K flip a s) :
    Runs ok J K (.finished a) flip s := by
  intro past hp
  subst hp
  exact ⟨hJ, hK⟩

theorem Runs.bind {L : Bool → β → Cluster → Prop} {p : Program EsCall EsAnswer α}
    {k : α → Program EsCall EsAnswer β}
    (h : Runs ok J (fun flip a s => Runs ok J L (k a) flip s) p flip s) :
    Runs ok J L (p.bind k) flip s := by
  intro past hp
  refine Program.Upholds.bind ((h past hp).mono (fun _ _ hI => hI) ?_)
  exact fun past a s hk => hk past rfl

theorem Runs.mono {K' : Bool → α → Cluster → Prop} {p : Program EsCall EsAnswer α}
    (h : Runs ok J K p flip s) (hK : ∀ flip a s, K flip a s → K' flip a s) :
    Runs ok J K' p flip s :=
  fun past hp => (h past hp).mono (fun _ _ hI => hI) fun _ _ _ => hK _ _ _

/-- A call that moves no alias. -/
theorem runs_waiting {c : EsCall} {next : EsAnswer c → Program EsCall EsAnswer α}
    (hc : ∀ s f, movesAlias ⟨s, c, f⟩ = false) (here : J flip s)
    (unreached : ∀ e : Outage, CanFail ok → Runs ok J K (next (.error e.1)) flip s)
    (lost : ∀ f, ∀ e : Outage, ok f → CanFail ok →
      Runs ok J K (next (.error e.1)) flip (s.apply c f).2)
    (answered : ∀ f, ok f → Runs ok J K (next (s.apply c f).1) flip (s.apply c f).2) :
    Runs ok J K (.waiting c next) flip s := by
  intro past hp
  subst hp
  refine ⟨here, fun f hok => ?_⟩
  have hflip : flipped (past ++ [⟨s, c, f⟩]) = flipped past := by
    rw [flipped_concat, hc, Bool.or_false]
  cases hd : f.delivery with
  | answered =>
    rw [serve_answered hd]
    exact answered f hok _ hflip
  | lost e =>
    rw [serve_lost hd]
    exact lost f e hok ⟨f, hok, by simp [Fate.fails, hd]⟩ _ hflip
  | unreached e =>
    rw [serve_unreached hd]
    exact unreached e ⟨f, hok, by simp [Fate.fails, hd]⟩ _ hflip

/-- The alias flip. -/
theorem runs_updateAliases {actions : List AliasAction}
    {next : EsAnswer (.updateAliases actions) → Program EsCall EsAnswer α} (here : J flip s)
    (unreached : ∀ e : Outage, CanFail ok → Runs ok J K (next (.error e.1)) flip s)
    (lost : ∀ f, ∀ e : Outage, ok f → CanFail ok → Runs ok J K (next (.error e.1))
      (flip || (s.apply (.updateAliases actions) f).1.isOk) (s.apply (.updateAliases actions) f).2)
    (answered : ∀ f, ok f → Runs ok J K (next (s.apply (.updateAliases actions) f).1)
      (flip || (s.apply (.updateAliases actions) f).1.isOk)
      (s.apply (.updateAliases actions) f).2) :
    Runs ok J K (.waiting (.updateAliases actions) next) flip s := by
  intro past hp
  subst hp
  refine ⟨here, fun f hok => ?_⟩
  have hflip := flipped_concat past ⟨s, .updateAliases actions, f⟩
  rw [movesAlias_updateAliases] at hflip
  cases hd : f.delivery with
  | answered =>
    rw [serve_answered hd]
    refine answered f hok _ ?_
    simp only [hflip, Fate.served, hd, Bool.true_and]
  | lost e =>
    rw [serve_lost hd]
    refine lost f e hok ⟨f, hok, by simp [Fate.fails, hd]⟩ _ ?_
    simp only [hflip, Fate.served, hd, Bool.true_and]
  | unreached e =>
    rw [serve_unreached hd]
    refine unreached e ⟨f, hok, by simp [Fate.fails, hd]⟩ _ ?_
    simp only [hflip, Fate.served, hd, Bool.false_and, Bool.or_false]

end Runs

/-! ## One call -/

section Methods

variable {ok : Fate → Prop} {J : Bool → Cluster → Prop} {α β : Type}
  {K : Bool → Except SeedError α × AdapterState → Cluster → Prop} {flip : Bool}
  {s : Cluster} {t : AdapterState}

/-- Sequencing of two methods: a throw of the first is the end. -/
theorem runs_bind {m : AdapterM β} {k : β → AdapterM α}
    (h : Runs ok J (fun flip r s =>
      match r with
      | (.ok b, t) => Runs ok J K (k b t) flip s
      | (.error e, t) => J flip s ∧ K flip (.error e, t) s) (m t) flip s) :
    Runs ok J K ((m >>= k) t) flip s := by
  rw [Client.bind_apply]
  refine Runs.bind (h.mono ?_)
  rintro flip ⟨_ | b, u⟩ s hr
  · exact runs_finished hr.1 hr.2
  · exact hr

theorem runs_tryCatch {m : AdapterM α} {handler : SeedError → AdapterM α}
    (h : Runs ok J (fun flip r s =>
      match r with
      | (.ok a, t) => J flip s ∧ K flip (.ok a, t) s
      | (.error e, t) => Runs ok J K (handler e t) flip s) (m t) flip s) :
    Runs ok J K (tryCatch m handler t) flip s := by
  rw [Client.tryCatch_apply]
  refine Runs.bind (h.mono ?_)
  rintro flip ⟨_ | a, u⟩ s hr
  · exact hr
  · exact runs_finished hr.1 hr.2

theorem runs_call {c : EsCall}
    {K : Bool → Except SeedError (Response c) × AdapterState → Cluster → Prop}
    (hc : ∀ s f, movesAlias ⟨s, c, f⟩ = false) (here : J flip s)
    (unreached : ∀ e : Outage, CanFail ok → K flip (.error (.elasticsearch e.1), t) s)
    (lost : ∀ f, ∀ e : Outage, ok f → CanFail ok → J flip (s.apply c f).2 ∧
      K flip (.error (.elasticsearch e.1), t) (s.apply c f).2)
    (answered : ∀ f, ok f → J flip (s.apply c f).2 ∧
      K flip ((s.apply c f).1.mapError .elasticsearch, t) (s.apply c f).2) :
    Runs ok J K (call c t) flip s := by
  refine runs_waiting hc here (fun e he => runs_finished here (unreached e he))
    (fun f e hf he => runs_finished (lost f e hf he).1 (lost f e hf he).2) fun f hf => ?_
  have := answered f hf
  cases ha : (s.apply c f).1 with
  | ok r => rw [ha] at this; exact runs_finished this.1 this.2
  | error e => rw [ha] at this; exact runs_finished this.1 this.2

/-- A call that only reads. -/
theorem runs_read {c : EsCall}
    {K : Bool → Except SeedError (Response c) × AdapterState → Cluster → Prop}
    (hc : ∀ s f, movesAlias ⟨s, c, f⟩ = false) (hread : ∀ f, (s.apply c f).2 = s) (here : J flip s)
    (failed : ∀ e : Outage, CanFail ok → K flip (.error (.elasticsearch e.1), t) s)
    (answered : ∀ f, ok f → K flip ((s.apply c f).1.mapError .elasticsearch, t) s) :
    Runs ok J K (call c t) flip s := by
  refine runs_call hc here failed (fun f e _ he => ?_) fun f hf => ?_
  · rw [hread]; exact ⟨here, failed e he⟩
  · rw [hread]; exact ⟨here, answered f hf⟩

end Methods

/-! ## Bulk responses -/

theorem upserts_buildBulkOperations (products : List Product) (index : String) :
    upserts (buildBulkOperations products index) =
      some (products.map fun p => (index, p.id, toProductDocument p)) := by
  induction products with
  | nil => rfl
  | cons p products ih =>
    unfold buildBulkOperations at ih ⊢
    rw [List.flatMap_cons, List.cons_append, List.cons_append, List.nil_append, upserts, ih]
    rfl

theorem failure_refused (id : String) (error : BulkError) :
    BulkItem.failure ⟨some ⟨some id, some error⟩, none⟩ =
      some ⟨id, (error.reason <|> error.type).getD "unknown error"⟩ := rfl

theorem failure_stored (id : String) : BulkItem.failure ⟨some ⟨some id, none⟩, none⟩ = none := rfl

/-- A refused item is a reported failure, an accepted one is not. -/
theorem failures_upsertItems {c : Cluster} {index n : String} (h : c.resolve index = [n])
    (refused : ℕ → Option BulkError) (products : List Product) :
    ((c.upsertItems refused (products.map fun p => (index, p.id, toProductDocument p))).1.filterMap
      BulkItem.failure).length + (Cluster.accepted refused products).length = products.length := by
  induction products generalizing c refused with
  | nil => rfl
  | cons p products ih =>
    rw [List.map_cons, Cluster.upsertItems, Cluster.accepted]
    cases hr : refused 0 with
    | some error =>
      have := ih h fun i => refused (i + 1)
      simp only [Cluster.upsertItem, List.filterMap_cons, failure_refused, Option.isNone_some,
        Bool.false_eq_true, if_false, List.length_cons] at this ⊢
      omega
    | none =>
      have := ih (c := c.modify n fun docs => Function.update docs p.id (some (toProductDocument p)))
        (by rw [Cluster.resolve_modify]; exact h) fun i => refused (i + 1)
      simp only [Cluster.upsertItem, h, List.filterMap_cons, failure_stored, Option.isNone_none,
        if_true, List.length_cons] at this ⊢
      omega

/-- **The failure count misses nothing**: none is reported exactly when every product was stored. -/
theorem failed_summarize {c : Cluster} {index n : String} (h : c.resolve index = [n])
    (refused : ℕ → Option BulkError) (products : List Product) :
    (summarizeBulkResponse (c.upsertItems refused
      (products.map fun p => (index, p.id, toProductDocument p))).1 products.length).failed = 0 ↔
        Cluster.accepted refused products = products := by
  have hlen := failures_upsertItems h refused products
  unfold summarizeBulkResponse
  simp only
  constructor
  · intro h0
    exact (Cluster.accepted_sublist refused products).eq_of_length (by omega)
  · intro heq
    rw [heq] at hlen
    omega

/-! ## The methods -/

namespace Image

variable (m : Image)

/-- The alias stands on one index, and the code reads its name as this version. -/
structure Live (c : Cluster) (name : String) (ix : EsIndex) (version : Whole) : Prop where
  resolves : c.resolve m.aliasName = [name]
  found : c.find name = some ix
  parses : parsePhysicalIndexVersion m.aliasName name = .ok version

/-- What provisioning can go on from. -/
def Readable (c : Cluster) : Prop :=
  c.resolve m.aliasName = [] ∨ ∃ name ix version, m.Live c name ix version

variable {m} {ok : Fate → Prop} {J : Bool → Cluster → Prop} {flip : Bool} {s : Cluster}
  {t : AdapterState}

/-- What reading the mappings can answer; it changes nothing. -/
theorem runs_readMappings
    {K : Bool → Except SeedError (Option (List (String × Mappings))) × AdapterState →
      Cluster → Prop}
    (here : J flip s) (failed : ∀ e, CanFail ok → K flip (.error e, t) s)
    (absent : s.resolve m.aliasName = [] → K flip (.ok none, t) s)
    (present : s.resolve m.aliasName ≠ [] → K flip (.ok (some
      ((s.resolve m.aliasName).filterMap fun n => (s.find n).map fun ix => (n, ix.mappings))), t) s) :
    Runs ok J K (m.readMappings t) flip s := by
  unfold readMappings
  refine runs_tryCatch (runs_bind ?_)
  refine runs_read (fun _ _ => rfl) (fun f => Cluster.apply_getMapping_state) here (fun e he => ?_)
    fun f hf => ?_
  · -- an outage is not read as an absent alias
    refine ⟨here, ?_⟩
    simp only [e.2.2, Bool.false_eq_true, if_false]
    exact runs_finished here (failed _ he)
  · by_cases hres : s.resolve m.aliasName = []
    · rw [Cluster.apply_getMapping hres]
      refine ⟨here, ?_⟩
      simp only [isIndexNotFoundError_indexNotFound]
      exact runs_finished here (absent hres)
    · rw [Cluster.apply_getMapping_of_ne hres]
      exact runs_finished here ⟨here, present hres⟩

theorem runs_readLiveIndex
    {K : Bool → Except SeedError (Option LiveIndex) × AdapterState → Cluster → Prop}
    (here : J flip s) (failed : ∀ e, CanFail ok → K flip (.error e, t) s)
    (absent : s.resolve m.aliasName = [] → K flip (.ok none, t) s)
    (live : ∀ name ix version, m.Live s name ix version →
      K flip (.ok (some ⟨version, readFingerprint (some ix.mappings)⟩), t) s)
    (unreadable : ∀ e, ¬ m.Readable s → K flip (.error e, t) s) :
    Runs ok J K (m.readLiveIndex t) flip s := by
  unfold readLiveIndex
  refine runs_bind (runs_readMappings here (fun e he => ⟨here, failed e he⟩)
    (fun h => runs_finished here (absent h)) fun hres => ?_)
  have hfind : ∀ n ∈ s.resolve m.aliasName, (s.find n).isSome :=
    fun n hn => Cluster.find_isSome_of_mem_resolve hn
  cases hnames : s.resolve m.aliasName with
  | nil => exact absurd hnames hres
  | cons name names =>
    rw [hnames] at hfind
    obtain ⟨ix, hix⟩ := Option.isSome_iff_exists.mp (hfind name List.mem_cons_self)
    cases names with
    | nil =>
      simp only [List.filterMap_cons, hix, Option.map_some, List.filterMap_nil]
      cases hparse : parsePhysicalIndexVersion m.aliasName name with
      | ok version => exact runs_finished here (live name ix version ⟨hnames, hix, hparse⟩)
      | error e =>
        refine runs_finished here (unreadable _ ?_)
        rintro (h | ⟨name', ix', version, h⟩)
        · exact hres h
        · have hname := h.resolves
          rw [hnames, List.singleton_inj] at hname
          rw [hname, h.parses] at hparse
          cases hparse
    | cons name' names =>
      obtain ⟨ix', hix'⟩ := Option.isSome_iff_exists.mp
        (hfind name' (List.mem_cons_of_mem _ List.mem_cons_self))
      simp only [List.filterMap_cons, hix, hix', Option.map_some]
      refine runs_finished here (unreadable _ ?_)
      rintro (h | ⟨name', ix', version, h⟩)
      · exact hres h
      · have hname := h.resolves
        rw [hnames] at hname
        cases hname

/-! ### Creating -/

variable (m) in
/-- An index as the image creates it. -/
def emptyIndex : EsIndex where
  settings := (withFingerprint m.sha256 m.definition).settings
  mappings := (withFingerprint m.sha256 m.definition).mappings
  documents := fun _ => none

variable (m) in
/-- The first version created, the alias with it. -/
def created (c : Cluster) : Cluster :=
  (c.insert (m.physical firstVersion) m.emptyIndex).addAlias (m.physical firstVersion) m.aliasName

variable (m) in
/-- The target of a migration created. -/
def prepared (c : Cluster) (version : Whole) : Cluster := c.insert (m.physical version) m.emptyIndex

@[simp] theorem readFingerprint_emptyIndex :
    readFingerprint (some m.emptyIndex.mappings) = some m.fingerprint :=
  readFingerprint_withFingerprint ..

section Unit

variable {K : Bool → Except SeedError Unit × AdapterState → Cluster → Prop}

/-- A creation: it fails when the name is taken. -/
theorem runs_create {index : String} {settings : Fields} {mappings : Mappings}
    {aliases : List String} {s' : Cluster}
    (hs' : s' = aliases.foldl (fun c a => c.addAlias index a)
      (s.insert index ⟨settings, mappings, fun _ => none⟩))
    (here : J flip s)
    (failed : ∀ e : Outage, CanFail ok → K flip (.error (.elasticsearch e.1), t) s)
    (fresh : s.find index = none → J flip s' ∧
      (∀ e : Outage, CanFail ok → K flip (.error (.elasticsearch e.1), t) s') ∧
      K flip (.ok (), t) s')
    (taken : (s.find index).isSome →
      K flip (.error (.elasticsearch (alreadyExists index)), t) s) :
    Runs ok J K (call (.create index settings mappings aliases) t) flip s := by
  cases hfind : s.find index with
  | none =>
    obtain ⟨hJ, hfail, hok⟩ := fresh hfind
    have happ : ∀ f, s.apply (.create index settings mappings aliases) f = (.ok (), s') :=
      fun f => hs' ▸ Cluster.apply_create hfind
    refine runs_call (c := .create index settings mappings aliases) (fun _ _ => rfl) here failed
      (fun f e _ he => ?_) fun f _ => ?_
    · rw [happ]; exact ⟨hJ, hfail e he⟩
    · rw [happ]; exact ⟨hJ, hok⟩
  | some ix =>
    have hsome : (s.find index).isSome := by rw [hfind]; rfl
    refine runs_call (c := .create index settings mappings aliases) (fun _ _ => rfl) here failed
      (fun f e _ he => ?_) fun f _ => ?_
    · rw [Cluster.apply_create_of_exists hsome]; exact ⟨here, failed e he⟩
    · rw [Cluster.apply_create_of_exists hsome]; exact ⟨here, taken hsome⟩

/-- An outage is not taken for an index that is there already: it is thrown on. -/
theorem runs_rethrow {handler : AdapterM Unit} (e : Outage) (here : J flip s)
    (thrown : K flip (.error (.elasticsearch e.1), t) s) :
    Runs ok J K ((if isAlreadyExistsError e.1 then handler else throw (.elasticsearch e.1)) t)
      flip s := by
  rw [if_neg (by rw [e.2.1]; decide)]
  exact runs_finished here thrown

theorem runs_createInitialIndex (here : J flip s)
    (failed : ∀ e, CanFail ok → K flip (.error e, t) s)
    (fresh : s.find (m.physical firstVersion) = none → J flip (m.created s) ∧
      (∀ e, CanFail ok → K flip (.error e, t) (m.created s)) ∧
      K flip (.ok (), t) (m.created s))
    (adopted : (s.find (m.physical firstVersion)).isSome → s.aliases m.aliasName ≠ [] →
      K flip (.ok (), t) s)
    (repaired : (s.find (m.physical firstVersion)).isSome → s.aliases m.aliasName = [] →
      J flip (s.addAlias (m.physical firstVersion) m.aliasName) ∧
      (∀ e, CanFail ok →
        K flip (.error e, t) (s.addAlias (m.physical firstVersion) m.aliasName)) ∧
      K flip (.ok (), t) (s.addAlias (m.physical firstVersion) m.aliasName)) :
    Runs ok J K (m.createInitialIndex (withFingerprint m.sha256 m.definition) t) flip s := by
  unfold createInitialIndex
  refine runs_tryCatch ?_
  refine runs_create (show m.created s = _ from rfl) here
    (fun e he => runs_rethrow e here (failed _ he)) (fun hfind => ?_) fun hsome => ?_
  · obtain ⟨hJ, hfail, hok⟩ := fresh hfind
    exact ⟨hJ, fun e he => runs_rethrow e hJ (hfail _ he), hJ, hok⟩
  · -- somebody else created it: look for the alias
    simp only [isAlreadyExistsError_alreadyExists]
    refine runs_bind (runs_read (fun _ _ => rfl) (fun _ => rfl) here
      (fun e he => ⟨here, failed _ he⟩) fun f' _ => ?_)
    by_cases ha : s.aliases m.aliasName = []
    · have hno : (s.apply (.existsAlias m.aliasName) f').1 = .ok false :=
        congrArg Except.ok (by simp [ha])
      obtain ⟨hJ, hfail, hok⟩ := repaired hsome ha
      rw [hno]
      simp only [Except.mapError, Bool.not_false, if_true]
      refine runs_call (c := .putAlias (m.physical firstVersion) m.aliasName) (fun _ _ => rfl) here
        (fun e he => failed _ he) (fun f e _ he => ?_) fun f _ => ?_
      · rw [Cluster.apply_putAlias hsome]; exact ⟨hJ, hfail _ he⟩
      · rw [Cluster.apply_putAlias hsome]; exact ⟨hJ, hok⟩
    · have hyes : (s.apply (.existsAlias m.aliasName) f').1 = .ok true :=
        congrArg Except.ok (by simp [ha])
      rw [hyes]
      exact runs_finished here (adopted hsome ha)

theorem runs_createPendingIndex {version : Whole} (here : J flip s)
    (failed : ∀ e, CanFail ok → K flip (.error e, t) s)
    (fresh : s.find (m.physical version) = none → J flip (m.prepared s version) ∧
      (∀ e, CanFail ok → K flip (.error e, t) (m.prepared s version)) ∧
      K flip (.ok (), t) (m.prepared s version))
    (inFlight : (s.find (m.physical version)).isSome → ∀ e, K flip (.error e, t) s) :
    Runs ok J K (m.createPendingIndex version (withFingerprint m.sha256 m.definition) t) flip
      s := by
  unfold createPendingIndex
  refine runs_tryCatch ?_
  refine runs_create (show m.prepared s version = _ from rfl) here
    (fun e he => runs_rethrow e here (failed _ he)) (fun hfind => ?_) fun hsome => ?_
  · obtain ⟨hJ, hfail, hok⟩ := fresh hfind
    exact ⟨hJ, fun e he => runs_rethrow e hJ (hfail _ he), hJ, hok⟩
  · exact runs_finished here (inFlight hsome _)

end Unit

variable (m) in
/-- What first provisioning leaves: the new version, or the one that was there, under the alias. -/
def provisioned (c : Cluster) : Cluster :=
  if (c.find (m.physical firstVersion)).isSome then
    c.addAlias (m.physical firstVersion) m.aliasName
  else m.created c

/-- `ensureIndex`, by what the alias stands on. -/
theorem runs_ensureIndex
    {K : Bool → Except SeedError IndexPreparation × AdapterState → Cluster → Prop}
    (here : J flip s) (failed : ∀ e t, CanFail ok → K flip (.error e, t) s)
    (unreadable : ∀ e t, ¬ m.Readable s → K flip (.error e, t) s)
    (absent : s.resolve m.aliasName = [] → J flip (m.provisioned s) ∧
      (∀ e t, CanFail ok → K flip (.error e, t) (m.provisioned s)) ∧
      K flip (.ok { action := .created, version := firstVersion }, ⟨some firstVersion, none⟩)
        (m.provisioned s))
    (unchanged : ∀ name ix version, m.Live s name ix version →
      readFingerprint (some ix.mappings) = some m.fingerprint →
      K flip (.ok { action := .unchanged, version }, ⟨some version, none⟩) s)
    (blocked : ∀ name ix version, m.Live s name ix version →
      readFingerprint (some ix.mappings) ≠ some m.fingerprint →
      (s.find (m.physical version.succ)).isSome → ∀ e t, K flip (.error e, t) s)
    (migrating : ∀ name ix version, m.Live s name ix version →
      readFingerprint (some ix.mappings) ≠ some m.fingerprint →
      s.find (m.physical version.succ) = none → J flip (m.prepared s version.succ) ∧
      (∀ e t, CanFail ok → K flip (.error e, t) (m.prepared s version.succ)) ∧
      K flip
        (.ok { action := .migrating, version := version.succ, replacedVersion := some version },
          ⟨some version, some ⟨version.succ, version⟩⟩) (m.prepared s version.succ)) :
    Runs ok J K (m.ensureIndex t) flip s := by
  unfold ensureIndex
  refine runs_bind (runs_readLiveIndex here (fun e he => ⟨here, failed _ _ he⟩) (fun hres => ?_)
    (fun name ix version hlive => ?_) fun e he => ⟨here, unreadable _ _ he⟩)
  · have halias : s.aliases m.aliasName = [] := by
      rw [← Cluster.resolve_eq_aliases (n := m.aliasName)]
      · exact hres
      · by_contra hne
        rw [Cluster.resolve_of_find (Option.isSome_iff_ne_none.mpr hne)] at hres
        cases hres
    obtain ⟨hJ, hfail, hok⟩ := absent hres
    refine runs_bind (runs_createInitialIndex here (fun e he => ⟨here, failed _ _ he⟩) (fun hfind => ?_)
      (fun _ hne => absurd halias hne) fun hsome _ => ?_)
    · have hp : m.provisioned s = m.created s := if_neg (by simp [hfind])
      rw [hp] at hJ hfail hok
      exact ⟨hJ, fun e he => ⟨hJ, hfail _ _ he⟩, runs_finished hJ hok⟩
    · have hp : m.provisioned s = s.addAlias (m.physical firstVersion) m.aliasName := if_pos hsome
      rw [hp] at hJ hfail hok
      exact ⟨hJ, fun e he => ⟨hJ, hfail _ _ he⟩, runs_finished hJ hok⟩
  · by_cases hfp : readFingerprint (some ix.mappings) = some m.fingerprint
    · refine runs_bind (runs_finished here ?_)
      simp only [hfp, if_true]
      exact runs_finished here (unchanged name ix version hlive hfp)
    · refine runs_bind (runs_finished here ?_)
      simp only [hfp, if_false]
      refine runs_bind (runs_createPendingIndex here (fun e he => ⟨here, failed _ _ he⟩)
        (fun hfind => ?_) fun hsome e => ⟨here, blocked name ix version hlive hfp hsome _ _⟩)
      obtain ⟨hJ, hfail, hok⟩ := migrating name ix version hlive hfp hfind
      exact ⟨hJ, fun e he => ⟨hJ, hfail _ _ he⟩, runs_finished hJ hok⟩

/-! ### Loading and publishing -/

theorem runs_bulkIndex {target : String} {products : List Product}
    {K : Bool → Except SeedError BulkResult × AdapterState → Cluster → Prop}
    (htarget : s.resolve (m.writeTarget t) = [target])
    (here : ∀ stored, J flip (s.load target stored))
    (failed : ∀ e stored, CanFail ok → K flip (.error e, t) (s.load target stored))
    (answered : ∀ bulk : BulkResult, ∀ stored, (bulk.failed = 0 ↔ stored = products) →
      (bulk.failed ≠ 0 → CanRefuse ok) → K flip (.ok bulk, t) (s.load target stored)) :
    Runs ok J K (m.bulkIndex products t) flip s := by
  have hnil := here []
  rw [Cluster.load_nil] at hnil
  unfold bulkIndex
  by_cases hlen : products.length = 0
  · rw [if_pos hlen]
    have h := answered { total := 0, indexed := 0, failed := 0, failures := [] } []
      (by simp [List.length_eq_zero_iff.mp hlen]) (fun h => absurd rfl h)
    rw [Cluster.load_nil] at h
    exact runs_finished hnil h
  · rw [if_neg hlen]
    refine runs_bind (runs_finished hnil (runs_bind (runs_call (fun _ _ => rfl) hnil
      (fun e he => ?_) (fun f e _ he => ?_) fun f hf => ?_)))
    · have h := failed (.elasticsearch e.1) [] he
      rw [Cluster.load_nil] at h
      exact ⟨hnil, h⟩
    all_goals
      have happ : s.apply (.bulk (buildBulkOperations products (m.writeTarget t))) f =
          (.ok (s.upsertItems f.refused
            (products.map fun p => (m.writeTarget t, p.id, toProductDocument p))).1,
            s.load target (Cluster.accepted f.refused products)) := by
        unfold Cluster.apply
        simp only [upserts_buildBulkOperations]
        rw [Cluster.upsertItems_state htarget]
      rw [happ]
    · exact ⟨here _, here _, failed _ _ he⟩
    · refine ⟨here _, runs_finished (here _) (answered _ _ (failed_summarize htarget ..) fun hne => ?_)⟩
      by_contra hno
      refine hne ((failed_summarize htarget ..).mpr (Cluster.accepted_of_none (fun i => ?_) products))
      by_contra hi
      exact hno ⟨f, hf, i, hi⟩

theorem runs_refresh {K : Bool → Except SeedError Unit × AdapterState → Cluster → Prop}
    (htarget : s.resolve (m.writeTarget t) ≠ []) (here : J flip s)
    (failed : ∀ e, CanFail ok → K flip (.error e, t) s) (answered : K flip (.ok (), t) s) :
    Runs ok J K (m.refresh t) flip s := by
  unfold refresh
  refine runs_bind (runs_finished here (runs_read (fun _ _ => rfl)
    (fun _ => Cluster.apply_refresh_state) here (fun e he => failed _ he) fun f _ => ?_))
  rw [Cluster.apply_refresh htarget]
  exact answered

/-- The loop of deletions: what each deletion keeps, the loop keeps. -/
theorem runs_deleteAll {stale : List (String × Whole)} {I : Cluster → Prop}
    {K : Bool → Except SeedError PUnit × AdapterState → Cluster → Prop}
    (hdistinct : (stale.map Prod.fst).Nodup) (hexists : ∀ p ∈ stale, (s.find p.1).isSome)
    (hJ : ∀ s, I s → J flip s) (hs : I s)
    (herase : ∀ s, ∀ p ∈ stale, I s → I (s.erase p.1))
    (failed : ∀ e s, CanFail ok → I s → K flip (.error e, t) s)
    (done : ∀ s, I s → K flip (.ok (), t) s) :
    Runs ok J K ((stale.forM fun index => call (.delete index.1)) t) flip s := by
  induction stale generalizing s with
  | nil => exact runs_finished (hJ _ hs) (done _ hs)
  | cons p stale ih =>
    rw [List.map_cons, List.nodup_cons] at hdistinct
    have hp : (s.find p.1).isSome := hexists p List.mem_cons_self
    have hnext : I (s.erase p.1) := herase s p List.mem_cons_self hs
    rw [List.forM_eq_forM, List.forM_cons]
    refine runs_bind (runs_call (c := .delete p.1) (fun _ _ => rfl) (hJ _ hs)
      (fun e he => ⟨hJ _ hs, failed _ _ he hs⟩) (fun f e _ he => ?_) fun f _ => ?_)
    · rw [Cluster.apply_delete hp]
      exact ⟨hJ _ hnext, hJ _ hnext, failed _ _ he hnext⟩
    · rw [Cluster.apply_delete hp]
      refine ⟨hJ _ hnext, ih hdistinct.2 (fun q hq => ?_) hnext
        fun s q hq => herase s q (List.mem_cons_of_mem _ hq)⟩
      have hne : q.1 ≠ p.1 := fun he => hdistinct.1 (he ▸ List.mem_map_of_mem hq)
      rw [Cluster.find_erase, if_neg hne]
      exact hexists q (List.mem_cons_of_mem _ hq)

/-- A deleted index belongs to the alias and is older than the retained version. -/
theorem mem_staleIndices {names : List String} {retained : Whole} {p : String × Whole}
    (h : p ∈ m.staleIndices names retained) :
    p.1 ∈ names ∧ parsePhysicalIndexVersion m.aliasName p.1 = .ok p.2 ∧ p.2 < retained := by
  unfold staleIndices at h
  obtain ⟨hmem, hlt⟩ := List.mem_filter.mp h
  obtain ⟨name, hname, hp⟩ := List.mem_filterMap.mp hmem
  obtain ⟨version, hv, rfl⟩ := Option.map_eq_some_iff.mp hp
  exact ⟨hname, tryParsePhysicalIndexVersion_eq_some.mp hv, of_decide_eq_true hlt⟩

theorem staleIndices_of_mem {names : List String} {retained version : Whole} {name : String}
    (hname : name ∈ names) (hparse : parsePhysicalIndexVersion m.aliasName name = .ok version)
    (hlt : version < retained) : (name, version) ∈ m.staleIndices names retained := by
  unfold staleIndices
  refine List.mem_filter.mpr ⟨List.mem_filterMap.mpr ⟨name, hname, ?_⟩, decide_eq_true hlt⟩
  rw [tryParsePhysicalIndexVersion_eq_some.mpr hparse]
  rfl

theorem nodup_staleIndices {names : List String} (h : names.Nodup) (retained : Whole) :
    ((m.staleIndices names retained).map Prod.fst).Nodup := by
  unfold staleIndices
  have hfilterMap : ((names.filterMap fun name =>
      (tryParsePhysicalIndexVersion m.aliasName name).map fun version => (name, version)).map
        Prod.fst).Sublist names := by
    rw [List.map_filterMap]
    induction names with
    | nil => exact List.Sublist.slnil
    | cons name names ih =>
      rw [List.filterMap_cons]
      cases tryParsePhysicalIndexVersion m.aliasName name with
      | none => exact (ih (List.nodup_cons.mp h).2).cons _
      | some version => exact (ih (List.nodup_cons.mp h).2).cons_cons _
  exact h.sublist ((List.filter_sublist.map _).trans hfilterMap)

theorem runs_pruneOlderThan {retained : Whole} {I : Cluster → Prop}
    {K : Bool → Except SeedError (List Whole) × AdapterState → Cluster → Prop}
    (hJ : ∀ s, I s → J flip s) (hs : I s)
    (herase : ∀ s name version, parsePhysicalIndexVersion m.aliasName name = .ok version →
      version < retained → I s → I (s.erase name))
    (failed : ∀ e s, CanFail ok → I s → K flip (.error e, t) s)
    (done : ∀ versions s, I s → K flip (.ok versions, t) s) :
    Runs ok J K (m.pruneOlderThan retained t) flip s := by
  unfold pruneOlderThan
  refine runs_bind (runs_read (fun _ _ => rfl) (fun _ => rfl) (hJ _ hs)
    (fun e he => ⟨hJ _ hs, failed _ _ he hs⟩) fun f _ => ?_)
  obtain ⟨names, happ, -, hnodup, hfind⟩ :=
    @Cluster.apply_get s f (m.aliasName ++ "_v*")
  rw [happ]
  refine runs_bind (runs_deleteAll (nodup_staleIndices hnodup retained)
    (fun p hp => ((hfind _).mp (mem_staleIndices hp).1).1) hJ hs (fun s p hp => ?_)
    (fun e s he hinv => ⟨hJ _ hinv, failed _ _ he hinv⟩)
    fun s hinv => runs_finished (hJ _ hinv) (done _ _ hinv))
  exact herase s p.1 p.2 (mem_staleIndices hp).2.1 (mem_staleIndices hp).2.2

variable (m) in
/-- The cluster after a flip. -/
def flippedCluster (c : Cluster) (pending : PendingVersion) : Cluster :=
  (c.removeAlias (m.physical pending.replacedVersion) m.aliasName).addAlias
    (m.physical pending.version) m.aliasName

theorem apply_flip {pending : PendingVersion} {f : Fate}
    (hnew : (s.find (m.physical pending.version)).isSome)
    (hold : (s.find (m.physical pending.replacedVersion)).isSome) :
    s.apply (.updateAliases (m.flipActions pending)) f = (.ok (), m.flippedCluster s pending) := by
  have hnone : (m.flipActions pending).find? (fun action => (s.find action.target).isNone) = none := by
    rw [List.find?_eq_none]
    intro action ha
    rcases List.mem_cons.mp ha with rfl | ha
    · simp only [AliasAction.target, Option.isNone_iff_eq_none]
      exact Option.isSome_iff_ne_none.mp hold
    · rw [List.mem_singleton.mp ha]
      simp only [AliasAction.target, Option.isNone_iff_eq_none]
      exact Option.isSome_iff_ne_none.mp hnew
  unfold Cluster.apply
  simp only [hnone]
  rfl

theorem apply_flip_of_missing {pending : PendingVersion} {f : Fate}
    (hold : s.find (m.physical pending.replacedVersion) = none) :
    s.apply (.updateAliases (m.flipActions pending)) f =
      (.error (indexNotFound (m.physical pending.replacedVersion)), s) := by
  have hsome : (m.flipActions pending).find? (fun action => (s.find action.target).isNone) =
      some (.remove (m.physical pending.replacedVersion) m.aliasName) := by
    unfold flipActions
    rw [List.find?_cons_of_pos]
    simp only [AliasAction.target, hold, Option.isNone_none]
  unfold Cluster.apply
  simp only [hsome]
  rfl

theorem apply_flip_of_absent {pending : PendingVersion} {f : Fate}
    (hold : (s.find (m.physical pending.replacedVersion)).isSome)
    (hnew : s.find (m.physical pending.version) = none) :
    s.apply (.updateAliases (m.flipActions pending)) f =
      (.error (indexNotFound (m.physical pending.version)), s) := by
  have hsome : (m.flipActions pending).find? (fun action => (s.find action.target).isNone) =
      some (.add (m.physical pending.version) m.aliasName) := by
    unfold flipActions
    rw [List.find?_cons_of_neg, List.find?_cons_of_pos]
    · simp only [AliasAction.target, hnew, Option.isNone_none]
    · simpa [AliasAction.target, Option.isSome_iff_ne_none] using hold
  unfold Cluster.apply
  simp only [hsome]
  rfl

section Publish

variable {K : Bool → Except SeedError IndexPublication × AdapterState → Cluster → Prop}

/-- Nothing pending: nothing happens. -/
theorem runs_publishIndex_idle {served : Whole} (ht : t = ⟨some served, none⟩) (here : J flip s)
    (done : K flip
      (.ok { published := false, version := served, prunedVersions := [] }, t) s) :
    Runs ok J K (m.publishIndex t) flip s := by
  subst ht
  exact runs_bind (runs_finished here (runs_finished here done))

/-- A pending version whose replaced version does not exist under its name: the flip fails. -/
theorem runs_publishIndex_missing {pending : PendingVersion} (ht : t.pending = some pending)
    (hold : s.find (m.physical pending.replacedVersion) = none) (here : J flip s)
    (failed : ∀ e, K flip (.error e, t) s) :
    Runs ok J K (m.publishIndex t) flip s := by
  unfold publishIndex
  refine runs_bind (runs_finished here ?_)
  simp only [ht]
  refine runs_bind (runs_updateAliases here (fun e _ => runs_finished here ⟨here, failed _⟩)
    (fun f e _ _ => ?_) fun f _ => ?_)
  all_goals
    rw [apply_flip_of_missing hold]
    simp only [Except.isOk, Except.toBool, Bool.or_false]
    exact runs_finished here ⟨here, failed _⟩

/-- A pending version: the flip, then deletions that keep `I`. -/
theorem runs_publishIndex_pending {pending : PendingVersion} {I : Cluster → Prop}
    (ht : t.pending = some pending) (hnew : (s.find (m.physical pending.version)).isSome)
    (hold : (s.find (m.physical pending.replacedVersion)).isSome) (here : J flip s)
    (unreached : ∀ e, CanFail ok → K flip (.error e, t) s)
    (hinv : I (m.flippedCluster s pending)) (hJ : ∀ s, I s → J true s)
    (herase : ∀ s name version, parsePhysicalIndexVersion m.aliasName name = .ok version →
      version < pending.replacedVersion → I s → I (s.erase name))
    (failed : ∀ e s, CanFail ok → I s → K true (.error e, t) s)
    (done : ∀ versions s, I s → K true
      (.ok
        { published := true
          version := pending.version
          retainedVersion := some pending.replacedVersion
          prunedVersions := versions }, ⟨some pending.version, none⟩) s) :
    Runs ok J K (m.publishIndex t) flip s := by
  unfold publishIndex
  refine runs_bind (runs_finished here ?_)
  simp only [ht]
  refine runs_bind (runs_updateAliases here
    (fun e he => runs_finished here ⟨here, unreached _ he⟩) (fun f e _ he => ?_) fun f _ => ?_)
  all_goals
    rw [apply_flip hnew hold]
    simp only [Except.isOk, Except.toBool, Bool.or_true]
  · exact runs_finished (hJ _ hinv) ⟨hJ _ hinv, failed _ _ he hinv⟩
  · refine runs_finished (hJ _ hinv) (runs_bind (runs_pruneOlderThan hJ hinv herase
      (fun e s he hs => ⟨hJ _ hs, failed _ _ he hs⟩) fun versions s hs => ?_))
    exact runs_finished (hJ _ hs) (done _ _ hs)

end Publish

end Image

end AdvancedSearch
