import AdvancedSearch.Index.Migration
import AdvancedSearch.Index.Pruning

/-!
# A seed that fails

Which calls a migration makes is settled by the cluster it starts on and the products it loads, so
whether it flips, and what fails from there on, is read off the fates of its calls. A seed that fails
has moved the alias exactly when its flip was served and a record is invalid or one of the calls from
the flip on failed (`seed_failure_alias`).
-/

namespace AdvancedSearch

open Js Service

/-! ## Methods under given fates -/

section Methods

variable {α β : Type} {K : List Fate → Except SeedError α × AdapterState → Cluster → Prop}
  {s : Cluster} {t : AdapterState} {fates : List Fate}

theorem follows_bind {x : AdapterM β} {k : β → AdapterM α}
    (h : Program.Follows elasticsearch (fun rest r s =>
      match r with
      | (.ok b, t) => Program.Follows elasticsearch K (k b t) s rest
      | (.error e, t) => K rest (.error e, t) s) (x t) s fates) :
    Program.Follows elasticsearch K ((x >>= k) t) s fates := by
  rw [Client.bind_apply]
  refine Program.Follows.bind (h.mono ?_)
  rintro rest ⟨_ | b, u⟩ s hr
  · exact hr
  · exact hr

theorem follows_tryCatch {x : AdapterM α} {handler : SeedError → AdapterM α}
    (h : Program.Follows elasticsearch (fun rest r s =>
      match r with
      | (.ok a, t) => K rest (.ok a, t) s
      | (.error e, t) => Program.Follows elasticsearch K (handler e t) s rest) (x t) s fates) :
    Program.Follows elasticsearch K (tryCatch x handler t) s fates := by
  rw [Client.tryCatch_apply]
  refine Program.Follows.bind (h.mono ?_)
  rintro rest ⟨_ | a, u⟩ s hr
  · exact hr
  · exact hr

/-- A call fails for the client, served or not, or it is answered. -/
theorem follows_call {c : EsCall}
    {K : List Fate → Except SeedError (Response c) × AdapterState → Cluster → Prop}
    (failed : ∀ f rest, fates = f :: rest → f.fails = true → ∀ e : Outage,
      K rest (.error (.elasticsearch e.1), t) (if f.served = true then (s.apply c f).2 else s))
    (answered : ∀ f rest, fates = f :: rest → f.fails = false →
      K rest ((s.apply c f).1.mapError .elasticsearch, t) (s.apply c f).2) :
    Program.Follows elasticsearch K (call c t) s fates := by
  cases fates with
  | nil => trivial
  | cons f rest =>
    have hfailed := failed f rest rfl
    have hanswered := answered f rest rfl
    unfold call Client.perform Program.Follows
    cases hd : f.delivery with
    | answered =>
      rw [serve_answered hd]
      have hK := hanswered (by simp [Fate.fails, hd])
      cases hanswer : (s.apply c f).1 with
      | ok r => rw [hanswer] at hK; exact hK
      | error e => rw [hanswer] at hK; exact hK
    | lost e =>
      rw [serve_lost hd]
      have hK := hfailed (by simp [Fate.fails, hd]) e
      rw [if_pos (by simp [Fate.served, hd])] at hK
      exact hK
    | unreached e =>
      rw [serve_unreached hd]
      have hK := hfailed (by simp [Fate.fails, hd]) e
      rw [if_neg (by simp [Fate.served, hd])] at hK
      exact hK

/-- A call that only reads. -/
theorem follows_read {c : EsCall}
    {K : List Fate → Except SeedError (Response c) × AdapterState → Cluster → Prop}
    (hread : ∀ f, (s.apply c f).2 = s)
    (failed : ∀ f rest, fates = f :: rest → f.fails = true → ∀ e : Outage,
      K rest (.error (.elasticsearch e.1), t) s)
    (answered : ∀ f rest, fates = f :: rest → f.fails = false →
      K rest ((s.apply c f).1.mapError .elasticsearch, t) s) :
    Program.Follows elasticsearch K (call c t) s fates := by
  refine follows_call (fun f rest hf hfails e => ?_) fun f rest hf hfails => ?_
  · rw [hread, ite_self]
    exact failed f rest hf hfails e
  · rw [hread]
    exact answered f rest hf hfails

/-- The loop of deletions ends in a throw exactly when one of them fails. -/
theorem follows_deleteAll {stale : List (String × Whole)} {I : Cluster → Prop}
    {K : List Fate → Except SeedError PUnit × AdapterState → Cluster → Prop}
    (hdistinct : (stale.map Prod.fst).Nodup) (hexists : ∀ p ∈ stale, (s.find p.1).isSome) (hs : I s)
    (herase : ∀ s, ∀ p ∈ stale, I s → I (s.erase p.1))
    (failed : ∀ rest e s, I s → (∃ f ∈ fates.take stale.length, f.fails = true) →
      K rest (.error e, t) s)
    (done : ∀ rest s, I s → (∀ f ∈ fates.take stale.length, f.fails = false) → K rest (.ok (), t) s) :
    Program.Follows elasticsearch K ((stale.forM fun index => call (.delete index.1)) t) s fates := by
  induction stale generalizing s fates with
  | nil => exact done _ _ hs (by simp)
  | cons p stale ih =>
    rw [List.map_cons, List.nodup_cons] at hdistinct
    have hp : (s.find p.1).isSome := hexists p List.mem_cons_self
    have hnext : I (s.erase p.1) := herase s p List.mem_cons_self hs
    rw [List.forM_eq_forM, List.forM_cons]
    refine follows_bind (follows_call (c := .delete p.1) (fun f rest hf hfails e => ?_)
      fun f rest hf hfails => ?_)
    · subst hf
      have hI : I (if f.served = true then (s.apply (.delete p.1) f).2 else s) := by
        rw [Cluster.apply_delete hp]
        split_ifs
        · exact hnext
        · exact hs
      exact failed _ _ _ hI ⟨f, by simp, hfails⟩
    · subst hf
      rw [Cluster.apply_delete hp]
      refine ih hdistinct.2 (fun q hq => ?_) hnext
        (fun s q hq => herase s q (List.mem_cons_of_mem _ hq)) (fun rest e s hI hfail => ?_)
        fun rest s hI hfine => ?_
      · have hne : q.1 ≠ p.1 := fun he => hdistinct.1 (he ▸ List.mem_map_of_mem hq)
        rw [Cluster.find_erase, if_neg hne]
        exact hexists q (List.mem_cons_of_mem _ hq)
      · obtain ⟨g, hg, hgf⟩ := hfail
        exact failed _ _ _ hI ⟨g, by simp [hg], hgf⟩
      · refine done _ _ hI fun g hg => ?_
        rw [List.length_cons, List.take_succ_cons, List.mem_cons] at hg
        rcases hg with rfl | hg
        · exact hfails
        · exact hfine g hg

end Methods

/-! ## Which versions a flip deletes -/

namespace Cluster

theorem names_insert {c : Cluster} {name : String} {ix : EsIndex} (h : c.find name = none) :
    (c.insert name ix).indices.map Prod.fst = c.indices.map Prod.fst ++ [name] := by
  unfold insert
  rw [dif_pos (Option.isNone_iff_eq_none.mpr h)]
  exact List.map_append

theorem names_load (c : Cluster) (name : String) (products : List Product) :
    (c.load name products).indices.map Prod.fst = c.indices.map Prod.fst := by
  unfold load modify
  rw [List.map_map]
  rfl

theorem names_addAlias (c : Cluster) (name aliasName : String) :
    (c.addAlias name aliasName).indices = c.indices := by
  unfold addAlias
  split_ifs <;> rfl

end Cluster

namespace Image

variable {m : Image}

theorem perm_staleIndices {names names' : List String} (h : names.Perm names') (retained : Whole) :
    (m.staleIndices names retained).Perm (m.staleIndices names' retained) :=
  (h.filterMap _).filter _

/-- A listing leaves out nothing that is stale. -/
theorem staleIndices_listed (names : List String) (retained : Whole) :
    m.staleIndices (names.filter fun n =>
      Cluster.matchesExpression (m.aliasName ++ "_v*").toList n.toList) retained =
        m.staleIndices names retained := by
  unfold staleIndices
  rw [List.filterMap_filter]
  refine congrArg _ (List.filterMap_congr fun name _ => ?_)
  cases hparse : tryParsePhysicalIndexVersion m.aliasName name with
  | none => exact ite_self _
  | some version =>
    rw [tryParsePhysicalIndexVersion_eq_some] at hparse
    exact if_pos (matchesExpression_of_parse hparse)

/-- Nor does the version a flip moves to become stale. -/
theorem staleIndices_succ (names : List String) (version : Whole) :
    m.staleIndices (names ++ [m.physical version.succ]) version = m.staleIndices names version := by
  unfold staleIndices
  rw [List.filterMap_append, List.filter_append]
  refine (congrArg _ ?_).trans (List.append_nil _)
  rw [List.filter_eq_nil_iff]
  rintro ⟨name, v⟩ hp
  obtain ⟨n, hn, hv⟩ := List.mem_filterMap.mp hp
  obtain ⟨w, hw, hpair⟩ := Option.map_eq_some_iff.mp hv
  rw [List.mem_singleton.mp hn] at hw hpair
  obtain ⟨rfl, rfl⟩ := Prod.mk.inj hpair
  obtain rfl := parsePhysicalIndexVersion_name (tryParsePhysicalIndexVersion_eq_some.mp hw)
  rw [decide_eq_true_eq, Whole.lt_def]
  exact not_lt.mpr (Whole.le_succ version)

/-- The versions before the one that is replaced. -/
def superseded (m : Image) (c : Cluster) (version : Whole) : List (String × Whole) :=
  m.staleIndices (c.indices.map Prod.fst) version

/-- A migration lists as many stale versions as there were when it started. -/
theorem length_staleIndices {c : Cluster} {version : Whole} {products : List Product}
    (hfree : c.find (m.physical version.succ) = none) {names : List String}
    (h : names.Perm (((m.flippedCluster
      ((m.prepared c version.succ).load (m.physical version.succ) products)
        ⟨version.succ, version⟩).indices.map Prod.fst).filter fun n =>
          Cluster.matchesExpression (m.aliasName ++ "_v*").toList n.toList)) :
    (m.staleIndices names version).length = (m.superseded c version).length := by
  rw [(perm_staleIndices h version).length_eq, staleIndices_listed]
  unfold flippedCluster prepared
  rw [Cluster.names_addAlias]
  show (m.staleIndices (((c.insert _ _).load _ products).indices.map Prod.fst) version).length = _
  rw [Cluster.names_load, Cluster.names_insert hfree, staleIndices_succ]
  rfl

/-! ## The calls of a migration -/

/-- How many calls a load makes: a bulk if there is anything to store, and a refresh. -/
def callsToLoad (products : List Product) : ℕ := if products = [] then 1 else 2

/-- The calls of a load are answered, and no document is refused. -/
structure LoadsAll (products : List Product) (fates : List Fate) : Prop where
  answered : ∀ f ∈ fates.take (callsToLoad products), f.fails = false
  stored : products ≠ [] → ∀ bulk ∈ fates.head?, ∀ i < products.length, bulk.refused i = none

/-- The fates from the flip on: after reading the alias, creating the next version and loading it. -/
def flipOn (products : List Product) (fates : List Fate) : List Fate :=
  (fates.drop 2).drop (callsToLoad products)

/-- The next version is created and loaded whole, and the flip is served. -/
structure ReachesFlip (products : List Product) (fates : List Fate) : Prop where
  created : ∀ f ∈ fates.take 2, f.fails = false
  loaded : LoadsAll products (fates.drop 2)
  served : ∃ flip ∈ (flipOn products fates).head?, flip.served = true

/-- One of the calls from the flip on fails: the flip, the listing after it, or one of the deletions,
as many as there are superseded versions. -/
def FailsFromFlip (m : Image) (c : Cluster) (version : Whole) (products : List Product)
    (fates : List Fate) : Prop :=
  ∃ f ∈ (flipOn products fates).take (2 + (m.superseded c version).length), f.fails = true

/-- A seed migrates: the definition is another one, the next version is free, and the version that is
replaced stands under its own name (from `2 ^ 53` on the next one has that name). -/
structure Migrates (m : Image) (c : Cluster) (ix : EsIndex) (version : Whole) : Prop where
  differs : readFingerprint (some ix.mappings) ≠ some m.fingerprint
  free : c.find (m.physical version.succ) = none
  replaced : m.physical version = m.physical version.succ ∨ (c.find (m.physical version)).isSome

theorem find_prepared_isSome {c : Cluster} {version : Whole}
    (hfree : c.find (m.physical version.succ) = none) (products : List Product) :
    (((m.prepared c version.succ).load (m.physical version.succ) products).find
      (m.physical version)).isSome ↔
        m.physical version = m.physical version.succ ∨ (c.find (m.physical version)).isSome := by
  unfold prepared
  rw [Cluster.find_load_isSome, Cluster.find_insert _ hfree]
  split_ifs with hsame
  · exact iff_of_true rfl (Or.inl hsame)
  · exact (or_iff_right hsame).symm

/-! ## Its methods under given fates -/

variable {s : Cluster} {t : AdapterState} {fates : List Fate} {name : String} {ix : EsIndex}
  {version : Whole} {products : List Product}

theorem follows_readLiveIndex (hlive : m.Live s name ix version)
    {K : List Fate → Except SeedError (Option LiveIndex) × AdapterState → Cluster → Prop}
    (failed : ∀ f rest, fates = f :: rest → f.fails = true → ∀ e, K rest (.error e, t) s)
    (answered : ∀ f rest, fates = f :: rest → f.fails = false →
      K rest (.ok (some ⟨version, readFingerprint (some ix.mappings)⟩), t) s) :
    Program.Follows elasticsearch K (m.readLiveIndex t) s fates := by
  unfold readLiveIndex readMappings
  refine follows_bind (follows_tryCatch (follows_bind (follows_read
    (fun _ => Cluster.apply_getMapping_state) (fun f rest hf hfails e => ?_)
    fun f rest hf hfails => ?_)))
  · -- an outage is not read as an absent alias
    simp only [e.2.2, Bool.false_eq_true, if_false]
    exact failed f rest hf hfails _
  · rw [Cluster.apply_getMapping_of_ne hlive.not_absent, hlive.resolves]
    simp only [Except.mapError, List.filterMap_cons, hlive.found, Option.map_some, List.filterMap_nil]
    show Program.Follows elasticsearch K _ s rest
    simp only [hlive.parses]
    exact answered f rest hf hfails

/-- Creating the target of a migration that is free. -/
theorem follows_createPendingIndex {K : List Fate → Except SeedError Unit × AdapterState → Cluster → Prop}
    (hfree : s.find (m.physical version) = none)
    (failed : ∀ f rest, fates = f :: rest → f.fails = true → ∀ e s',
      s' = s ∨ s' = m.prepared s version → K rest (.error e, t) s')
    (answered : ∀ f rest, fates = f :: rest → f.fails = false →
      K rest (.ok (), t) (m.prepared s version)) :
    Program.Follows elasticsearch K
      (m.createPendingIndex version (withFingerprint m.sha256 m.definition) t) s fates := by
  have happ : ∀ f, s.apply (.create (m.physical version)
      (withFingerprint m.sha256 m.definition).settings
      (withFingerprint m.sha256 m.definition).mappings []) f = (.ok (), m.prepared s version) :=
    fun f => Cluster.apply_create hfree
  unfold createPendingIndex
  refine follows_tryCatch (follows_call (c := .create _ _ _ _) (fun f rest hf hfails e => ?_)
    fun f rest hf hfails => ?_)
  · -- an outage is not read as a version that exists
    simp only [e.2.1, Bool.false_eq_true, if_false, happ]
    refine failed f rest hf hfails _ _ ?_
    split_ifs
    · exact Or.inr rfl
    · exact Or.inl rfl
  · rw [happ]
    exact answered f rest hf hfails

theorem follows_ensureIndex (hlive : m.Live s name ix version) (h : m.Migrates s ix version)
    {K : List Fate → Except SeedError IndexPreparation × AdapterState → Cluster → Prop}
    (failed : (∃ f ∈ fates.take 2, f.fails = true) → ∀ rest e t s',
      s' = s ∨ s' = m.prepared s version.succ → K rest (.error e, t) s')
    (answered : ∀ read create rest, fates = read :: create :: rest → read.fails = false →
      create.fails = false → ∀ preparation, K rest
        (.ok preparation, ⟨some version, some ⟨version.succ, version⟩⟩) (m.prepared s version.succ)) :
    Program.Follows elasticsearch K (m.ensureIndex t) s fates := by
  unfold ensureIndex
  refine follows_bind (follows_readLiveIndex hlive (fun f rest hf hfails e => ?_)
    fun read rest hread hanswered => ?_)
  · exact failed ⟨f, by simp [hf], hfails⟩ _ _ _ _ (Or.inl rfl)
  refine follows_bind ?_
  show Program.Follows elasticsearch K ((if _ then _ else _ : AdapterM IndexPreparation) _) s rest
  rw [if_neg h.differs]
  refine follows_bind (follows_createPendingIndex h.free (fun f rest' hf hfails e s' hs' => ?_)
    fun create rest' hcreate hanswered' => ?_)
  · exact failed ⟨f, by simp [hread, hf], hfails⟩ _ _ _ _ hs'
  · exact answered read create rest' (by rw [hread, hcreate]) hanswered hanswered' _

theorem follows_bulkIndex {target : String} (htarget : s.resolve (m.writeTarget t) = [target])
    {K : List Fate → Except SeedError BulkResult × AdapterState → Cluster → Prop}
    (empty : products = [] → K fates
      (.ok { total := 0, indexed := 0, failed := 0, failures := [] }, t) (s.load target []))
    (failed : products ≠ [] → ∀ f rest, fates = f :: rest → f.fails = true → ∀ e stored,
      K rest (.error e, t) (s.load target stored))
    (answered : products ≠ [] → ∀ f rest, fates = f :: rest → f.fails = false → ∀ bulk : BulkResult,
      ∀ stored, (bulk.failed = 0 ↔ ∀ i < products.length, f.refused i = none) →
      (bulk.failed = 0 → stored = products) → K rest (.ok bulk, t) (s.load target stored)) :
    Program.Follows elasticsearch K (m.bulkIndex products t) s fates := by
  unfold bulkIndex
  by_cases hnil : products = []
  · rw [if_pos (by rw [hnil]; rfl)]
    have hK := empty hnil
    rw [Cluster.load_nil] at hK
    exact hK
  rw [if_neg (fun hlen => hnil (List.length_eq_zero_iff.mp hlen))]
  have happ : ∀ f : Fate, s.apply (.bulk (buildBulkOperations products (m.writeTarget t))) f =
      (.ok (s.upsertItems f.refused
        (products.map fun p => (m.writeTarget t, p.id, toProductDocument p))).1,
        s.load target (Cluster.accepted f.refused products)) := by
    intro f
    unfold Cluster.apply
    simp only [upserts_buildBulkOperations]
    rw [Cluster.upsertItems_state htarget]
  refine follows_bind (follows_bind (follows_call (c := .bulk _) (fun f rest hf hfails e => ?_)
    fun f rest hf hfails => ?_))
  · split_ifs
    · rw [happ]
      exact failed hnil f rest hf hfails _ _
    · have hK := failed hnil f rest hf hfails (.elasticsearch e.1) []
      rw [Cluster.load_nil] at hK
      exact hK
  · rw [happ]
    have hzero := failed_summarize htarget f.refused products
    exact answered hnil f rest hf hfails _ _ (hzero.trans Cluster.accepted_eq_iff) hzero.mp

theorem follows_refresh {K : List Fate → Except SeedError Unit × AdapterState → Cluster → Prop}
    (htarget : s.resolve (m.writeTarget t) ≠ [])
    (failed : ∀ f rest, fates = f :: rest → f.fails = true → ∀ e, K rest (.error e, t) s)
    (answered : ∀ f rest, fates = f :: rest → f.fails = false → K rest (.ok (), t) s) :
    Program.Follows elasticsearch K (m.refresh t) s fates := by
  unfold refresh
  refine follows_bind (follows_read (c := .refresh _) (fun _ => Cluster.apply_refresh_state)
    (fun f rest hf hfails e => failed f rest hf hfails _) fun f rest hf hfails => ?_)
  rw [Cluster.apply_refresh htarget]
  exact answered f rest hf hfails

/-- Loading, refreshing, and publishing if nothing was refused. -/
theorem follows_load {preparation : IndexPreparation} {target : String}
    (htarget : s.resolve (m.writeTarget t) = [target])
    {K : List Fate → Except SeedError SeedOutcome × AdapterState → Cluster → Prop}
    (short : ¬ LoadsAll products fates → ∀ rest r stored, K rest (r, t) (s.load target stored))
    (complete : LoadsAll products fates → ∀ bulk : BulkResult, bulk.failed = 0 →
      Program.Follows elasticsearch (fun rest r s =>
        match r with
        | (.ok publication, t) =>
          K rest (.ok { bulk, preparation, publication := some publication }, t) s
        | (.error e, t) => K rest (.error e, t) s)
        (m.publishIndex t) (s.load target products) (fates.drop (callsToLoad products))) :
    Program.Follows elasticsearch K ((do
      let bulk ← m.bulkIndex products
      m.refresh
      if bulk.failed > 0 then
        return { bulk, preparation, publication := none }
      else
        let publication ← m.publishIndex
        return { bulk, preparation, publication := some publication } : AdapterM SeedOutcome) t)
      s fates := by
  have hresolve : ∀ stored, (s.load target stored).resolve (m.writeTarget t) ≠ [] := by
    intro stored
    rw [Cluster.resolve_load, htarget]
    exact List.cons_ne_nil _ _
  have hpublish : ∀ bulk : BulkResult, ∀ rest, LoadsAll products fates → bulk.failed = 0 →
      rest = fates.drop (callsToLoad products) → Program.Follows elasticsearch K ((do
        let publication ← m.publishIndex
        return { bulk, preparation, publication := some publication } : AdapterM SeedOutcome) t)
        (s.load target products) rest := by
    intro bulk rest hloads hzero hrest
    subst hrest
    refine follows_bind ((complete hloads bulk hzero).mono ?_)
    rintro rest ⟨_ | publication, u⟩ s hr
    · exact hr
    · exact hr
  refine follows_bind (follows_bulkIndex htarget (fun hnil => ?_)
    (fun hne bulk rest hf hfails e stored => ?_)
    fun hne bulk rest hf hfails result stored hzero hstored => ?_)
  · refine follows_bind (follows_refresh (hresolve _) (fun f rest hf hfails e => ?_)
      fun f rest hf hfails => ?_)
    · refine short (fun hloads => ?_) _ _ _
      have := hloads.answered f (by simp [callsToLoad, hnil, hf])
      rw [hfails] at this
      cases this
    · rw [if_neg (by simp)]
      have h := hpublish { total := 0, indexed := 0, failed := 0, failures := [] } rest
        ⟨by simpa [callsToLoad, hnil, hf] using hfails, fun hne => absurd hnil hne⟩ rfl
        (by simp [callsToLoad, hnil, hf])
      rwa [hnil] at h
  · refine short (fun hloads => ?_) _ _ _
    have := hloads.answered bulk (by simp [callsToLoad, hne, hf])
    rw [hfails] at this
    cases this
  · refine follows_bind (follows_refresh (hresolve _) (fun f rest' hf' hfails' e => ?_)
      fun f rest' hf' hfails' => ?_)
    · refine short (fun hloads => ?_) _ _ _
      have := hloads.answered f (by simp [callsToLoad, hne, hf, hf'])
      rw [hfails'] at this
      cases this
    · by_cases hfailed : result.failed = 0
      · rw [if_neg (by omega), hstored hfailed]
        refine hpublish result rest' ⟨?_, fun _ => ?_⟩ hfailed (by simp [callsToLoad, hne, hf, hf'])
        · simp [callsToLoad, hne, hf, hf', hfails, hfails']
        · simpa [hf] using hzero.mp hfailed
      · rw [if_pos (by omega)]
        refine short (fun hloads => hfailed (hzero.mpr ?_)) _ _ _
        exact hloads.stored hne bulk (by simp [hf])

/-- Listing and deleting: as many calls as there are stale versions, and one. -/
theorem follows_pruneOlderThan {retained : Whole} {count : ℕ} {I : Cluster → Prop}
    {K : List Fate → Except SeedError (List Whole) × AdapterState → Cluster → Prop}
    (hcount : ∀ names : List String, names.Perm ((s.indices.map Prod.fst).filter fun n =>
      Cluster.matchesExpression (m.aliasName ++ "_v*").toList n.toList) →
        (m.staleIndices names retained).length = count) (hs : I s)
    (herase : ∀ s name version, parsePhysicalIndexVersion m.aliasName name = .ok version →
      version < retained → I s → I (s.erase name))
    (failed : (∃ f ∈ fates.take (1 + count), f.fails = true) → ∀ rest e s, I s →
      K rest (.error e, t) s)
    (done : (∀ f ∈ fates.take (1 + count), f.fails = false) → ∀ rest versions s, I s →
      K rest (.ok versions, t) s) :
    Program.Follows elasticsearch K (m.pruneOlderThan retained t) s fates := by
  unfold pruneOlderThan
  refine follows_bind (follows_read (c := .get _) (fun _ => rfl) (fun f rest hf hfails e => ?_)
    fun f rest hf hfails => ?_)
  · exact failed ⟨f, by simp [hf, Nat.add_comm 1], hfails⟩ _ _ _ hs
  obtain ⟨names, happ, hperm, hnodup, hfind⟩ := @Cluster.apply_get s f (m.aliasName ++ "_v*")
  have htake : fates.take (1 + count) = f :: rest.take count := by
    rw [hf, Nat.add_comm, List.take_succ_cons]
  rw [htake] at failed done
  rw [happ]
  refine follows_bind (follows_deleteAll (nodup_staleIndices hnodup retained)
    (fun p hp => ((hfind _).mp (mem_staleIndices hp).1).1) hs
    (fun s p hp => herase s p.1 p.2 (mem_staleIndices hp).2.1 (mem_staleIndices hp).2.2)
    (fun rest' e s hI hfail => ?_) fun rest' s hI hfine => ?_)
  · rw [hcount names hperm] at hfail
    obtain ⟨g, hg, hgf⟩ := hfail
    exact failed ⟨g, List.mem_cons_of_mem _ hg, hgf⟩ _ _ _ hI
  · rw [hcount names hperm] at hfine
    refine done (fun g hg => ?_) _ _ _ hI
    rcases List.mem_cons.mp hg with rfl | hg
    · exact hfails
    · exact hfine g hg

/-- A publication throws when its flip is not served, or when that or a later call fails. -/
theorem follows_publishIndex {pending : PendingVersion} {count : ℕ} {I : Cluster → Prop}
    {K : List Fate → Except SeedError IndexPublication × AdapterState → Cluster → Prop}
    (ht : t.pending = some pending) (hnew : (s.find (m.physical pending.version)).isSome)
    (hold : (s.find (m.physical pending.replacedVersion)).isSome)
    (hcount : ∀ names : List String, names.Perm (((m.flippedCluster s pending).indices.map
      Prod.fst).filter fun n => Cluster.matchesExpression (m.aliasName ++ "_v*").toList n.toList) →
        (m.staleIndices names pending.replacedVersion).length = count)
    (hinv : I (m.flippedCluster s pending))
    (herase : ∀ s name version, parsePhysicalIndexVersion m.aliasName name = .ok version →
      version < pending.replacedVersion → I s → I (s.erase name))
    (unserved : (¬ ∃ flip ∈ fates.head?, flip.served = true) → ∀ rest e, K rest (.error e, t) s)
    (failed : (∃ flip ∈ fates.head?, flip.served = true) →
      (∃ f ∈ fates.take (2 + count), f.fails = true) → ∀ rest e s, I s → K rest (.error e, t) s)
    (done : (∃ flip ∈ fates.head?, flip.served = true) →
      (∀ f ∈ fates.take (2 + count), f.fails = false) → ∀ rest publication t s, I s →
        K rest (.ok publication, t) s) :
    Program.Follows elasticsearch K (m.publishIndex t) s fates := by
  unfold publishIndex
  refine follows_bind ?_
  show Program.Follows elasticsearch K _ s fates
  simp only [ht]
  refine follows_bind (follows_call (c := .updateAliases _) (fun f rest hf hfails e => ?_)
    fun f rest hf hfails => ?_)
  all_goals
    have htake : fates.take (2 + count) = f :: rest.take (1 + count) := by
      rw [hf, show 2 + count = (1 + count) + 1 by omega, List.take_succ_cons]
    rw [htake] at failed done
    rw [hf, List.head?_cons] at unserved failed done
  · split_ifs with hserved
    · rw [apply_flip hnew hold]
      exact failed ⟨f, rfl, hserved⟩ ⟨f, List.mem_cons_self, hfails⟩ _ _ _ hinv
    · refine unserved ?_ _ _
      rintro ⟨flip, hflip, hyes⟩
      obtain rfl := Option.some.inj hflip
      exact hserved hyes
  · have hserved : f.served = true := by
      unfold Fate.fails at hfails
      unfold Fate.served
      cases hd : f.delivery with
      | answered => rfl
      | lost e => rfl
      | unreached e => simp [hd] at hfails
    rw [apply_flip hnew hold]
    refine follows_bind (follows_pruneOlderThan hcount hinv herase (fun hfail rest' e s hI => ?_)
      fun hfine rest' versions s hI => ?_)
    · obtain ⟨g, hg, hgf⟩ := hfail
      exact failed ⟨f, rfl, hserved⟩ ⟨g, List.mem_cons_of_mem _ hg, hgf⟩ _ _ _ hI
    · refine done ⟨f, rfl, hserved⟩ (fun g hg => ?_) _ _ _ _ hI
      rcases List.mem_cons.mp hg with rfl | hg
      · exact hfails
      · exact hfine g hg

/-! ## A seed that fails -/

/-- How a seed ends, by whether it reaches its flip and whether a call fails from there on. -/
structure EndsBy (m : Image) (name : String) (reaches fails : Prop)
    (r : Except SeedError SeedOutcome) (t : Cluster) : Prop where
  kept : ¬ reaches → t.resolve m.aliasName = [name]
  moved : reaches → t.resolve m.aliasName ≠ [name]
  threw : reaches → ((∃ e, r = .error e) ↔ fails)
  complete : reaches → ∀ outcome, r = .ok outcome → outcome.bulk.failed = 0

theorem Flipped.moved (h : m.Flipped s name version products)
    (hne : name ≠ m.physical version.succ) : s.resolve m.aliasName ≠ [name] := by
  rw [Cluster.resolve_eq_aliases h.free, h.aliases]
  split_ifs
  · exact fun h => hne (List.singleton_inj.mp h).symm
  · exact fun h => by cases h

/-- A migration, by the fates it meets. -/
theorem follows_seed (hlive : m.Live s name ix version) (h : m.Migrates s ix version)
    (products : List Product) (fates : List Fate) :
    Program.Follows elasticsearch (fun _ => m.EndsBy name (ReachesFlip products fates)
      (m.FailsFromFlip s version products fates)) (m.seed products) s fates := by
  have hne : name ≠ m.physical version.succ := by
    rintro rfl
    exact Option.some_ne_none _ (hlive.found.symm.trans h.free)
  have hpending := fun stored => hlive.pending h.free stored
  have stays : ¬ ReachesFlip products fates → ∀ r t, t.resolve m.aliasName = [name] →
      m.EndsBy name (ReachesFlip products fates) (m.FailsFromFlip s version products fates) r t :=
    fun hno r t ht => ⟨fun _ => ht, fun hr => absurd hr hno, fun hr => absurd hr hno,
      fun hr => absurd hr hno⟩
  unfold seed
  refine Program.Follows.bind ?_
  show Program.Follows elasticsearch (fun _ r => m.EndsBy name (ReachesFlip products fates)
    (m.FailsFromFlip s version products fates) r.1) (m.execute products freshAdapter) s fates
  unfold execute
  refine follows_bind (follows_ensureIndex hlive h (fun hfail rest e t s' hs' => ?_)
    fun read create rest hf hread hcreate preparation => ?_)
  · obtain ⟨f, hf, hfails⟩ := hfail
    refine stays (fun hr => ?_) _ _ ?_
    · rw [hr.created f hf] at hfails
      cases hfails
    · rcases hs' with rfl | rfl
      · exact hlive.resolves
      · have := (hpending []).resolve
        rwa [Cluster.load_nil] at this
  subst hf
  have htarget : (m.prepared s version.succ).resolve
      (m.writeTarget ⟨some version, some ⟨version.succ, version⟩⟩) = [m.physical version.succ] := by
    have hnew : ((m.prepared s version.succ).find (m.physical version.succ)).isSome := by
      unfold prepared
      rw [Cluster.find_insert _ h.free, if_pos rfl]
      rfl
    exact Cluster.resolve_of_find hnew
  refine follows_load htarget (fun hno rest' r stored => stays (fun hr => hno hr.loaded) _ _
    (hpending stored).resolve) fun hloads bulk hzero => ?_
  have hcreated : ∀ f ∈ (read :: create :: rest).take 2, f.fails = false := by
    simp [hread, hcreate]
  have hflip := (hpending products).flip hne
  have hnew : (((m.prepared s version.succ).load (m.physical version.succ) products).find
      (m.physical version.succ)).isSome := by
    rw [(hpending products).target]
    rfl
  have hold : (((m.prepared s version.succ).load (m.physical version.succ) products).find
      (m.physical version)).isSome := (find_prepared_isSome h.free products).mpr h.replaced
  refine follows_publishIndex (I := fun t => m.Flipped t name version products) rfl hnew hold
    (fun names hperm => length_staleIndices h.free hperm) hflip
    (fun s name v hv hlt hs => hs.erase hv hlt hlive.parses) (fun hno rest' e => ?_)
    (fun hserved hfail rest' e t ht => ?_) fun hserved hfine rest' publication u t ht => ?_
  · exact stays (fun hr => hno hr.served) _ _ (hpending products).resolve
  · have hreaches : ReachesFlip products (read :: create :: rest) := ⟨hcreated, hloads, hserved⟩
    exact ⟨fun hno => absurd hreaches hno, fun _ => ht.moved hne,
      fun _ => ⟨fun _ => hfail, fun _ => ⟨e, rfl⟩⟩, fun _ _ ho => by cases ho⟩
  · have hreaches : ReachesFlip products (read :: create :: rest) := ⟨hcreated, hloads, hserved⟩
    refine ⟨fun hno => absurd hreaches hno, fun _ => ht.moved hne, fun _ => ⟨?_, ?_⟩, ?_⟩
    · rintro ⟨e, he⟩
      cases he
    · rintro ⟨f, hf, hfails⟩
      rw [hfine f hf] at hfails
      cases hfails
    · intro _ outcome ho
      cases ho
      exact hzero

/-- A seed that does not migrate leaves the alias where it is. -/
theorem runs_seed_stays (hlive : m.Live s name ix version) (h : ¬ m.Migrates s ix version)
    (products : List Product) :
    Runs (fun _ => True) (fun _ _ => True) (fun _ _ t => t.resolve m.aliasName = [name])
      (m.seed products) false s := by
  by_cases hfp : readFingerprint (some ix.mappings) = some m.fingerprint
  · have hload : ∀ stored, (s.load name stored).resolve m.aliasName = [name] := fun stored => by
      rw [Cluster.resolve_load, hlive.resolves]
    exact runs_seed_unchanged hlive hfp (fun _ => trivial) (fun _ stored _ => hload stored)
      fun _ stored _ _ _ _ => hload stored
  by_cases hfree : s.find (m.physical version.succ) = none
  · have hload := fun stored => (hlive.pending hfree stored).resolve
    -- the flip names a version that does not exist
    refine runs_seed_migrating (I := fun _ => False) hlive hfp hfree rfl trivial (fun _ => trivial)
      (fun _ _ => hlive.resolves) (fun _ stored _ => hload stored)
      (fun _ stored _ _ _ _ => hload stored) (fun _ _ => hload _) (fun hold => ?_)
      (fun _ _ => trivial) (fun _ _ _ _ _ hs => hs) (fun _ _ _ hs => hs.elim) fun _ _ _ _ hs => hs.elim
    exact h ⟨hfp, hfree, (find_prepared_isSome hfree products).mp hold⟩
  · exact runs_seed_refused
      (Or.inr ⟨name, ix, version, hlive, hfp, Option.isSome_iff_ne_none.mpr hfree⟩) trivial
      fun _ => hlive.resolves

theorem follows_runSeed {K : List Fate → SeedEnd → Cluster → Prop} {records : List RawProduct}
    (h : Program.Follows elasticsearch
      (fun rest r => K rest (seedEnd (loadProducts m.parseDate records).invalid r))
      (m.seed (loadProducts m.parseDate records).products) s fates) :
    Program.Follows elasticsearch K (m.runSeed records) s fates :=
  Program.Follows.bind h

/-- **When a failed seed leaves the alias.** A seed command that ends in failure has left the alias
where it was, unless it migrates, its flip was served after every call before it was answered and every
document stored, and either a record is invalid or one of the calls from the flip on failed. -/
theorem seed_failure_alias (m : Image) {s : Cluster} {name : String} {ix : EsIndex} {version : Whole}
    (hlive : m.Live s name ix version) (records : List RawProduct) (fates : List Fate)
    {finish : SeedEnd} {t : Cluster}
    (hrun : Program.run elasticsearch (m.runSeed records, s) fates = (.finished finish, t)) :
    (finish.exitCode ≠ 0 → t.resolve m.aliasName = s.resolve m.aliasName) ↔
      ¬ (m.Migrates s ix version ∧ ReachesFlip (loadProducts m.parseDate records).products fates ∧
        ((loadProducts m.parseDate records).invalid ≠ [] ∨
          m.FailsFromFlip s version (loadProducts m.parseDate records).products fates)) := by
  rw [hlive.resolves]
  by_cases hmigrates : m.Migrates s ix version
  · obtain ⟨-, r, rfl, hr⟩ := (follows_runSeed (K := fun _ e t =>
        ∃ r, e = seedEnd (loadProducts m.parseDate records).invalid r ∧ m.EndsBy name _ _ r t)
      ((follows_seed hlive hmigrates _ fates).mono fun _ r _ hr => ⟨r, rfl, hr⟩)).finish hrun
    by_cases hreaches : ReachesFlip (loadProducts m.parseDate records).products fates
    · have hmoved := hr.moved hreaches
      have hthrew := hr.threw hreaches
      simp only [hmigrates, hreaches, true_and, hmoved, imp_false, not_not]
      cases r with
      | error e =>
        have hfails := hthrew.mp ⟨e, rfl⟩
        simp [seedEnd, hfails]
      | ok outcome =>
        have hfine : ¬ m.FailsFromFlip s version (loadProducts m.parseDate records).products fates := by
          intro hfails
          obtain ⟨e, he⟩ := hthrew.mpr hfails
          cases he
        have hzero := hr.complete hreaches outcome rfl
        simp only [seedEnd, hzero, hfine]
        cases (loadProducts m.parseDate records).invalid <;> simp
    · exact iff_of_true (fun _ => hr.kept hreaches) fun h => hreaches h.2.1
  · have hstays := Program.Upholds.finish (runs_runSeed (K := fun _ _ t => t.resolve m.aliasName = [name])
      ((runs_seed_stays hlive hmigrates _).mono fun _ _ _ h => ⟨trivial, h⟩) [] rfl)
      (fun _ _ => trivial) hrun
    exact iff_of_true (fun _ => hstays) fun h => hmigrates h.1

/-- A bulk that is refused. -/
def refusing : Fate := { calm with refused := fun _ => some ⟨none, some "mapper_parsing_exception"⟩ }

/-- The documents refused: the command fails and the alias stays. -/
theorem seed_failure_alias_refused :
    let s := previousImage.seeded [drill "p-0" 5] emptyCluster
    (Program.run elasticsearch (currentImage.runSeed [drill "p-1" 9], s)
      (List.replicate 9 refusing)).2.resolve currentImage.aliasName = ["products_v1"] := by
  intro s
  have hsome : (s.find "products_v1").isSome := by decide +kernel
  obtain ⟨ix, hix⟩ := Option.isSome_iff_exists.mp hsome
  have hlive : currentImage.Live s "products_v1" ix firstVersion :=
    ⟨by decide +kernel, hix, by decide +kernel⟩
  have hcode : exitCode? (Program.run elasticsearch (currentImage.runSeed [drill "p-1" 9], s)
      (List.replicate 9 refusing)).1 = some 1 := by decide +kernel
  obtain ⟨finish, hrun, hexit⟩ := ended hcode
  have hkept := (seed_failure_alias currentImage hlive [drill "p-1" 9] (List.replicate 9 refusing)
    hrun).mpr (fun h => ?_) (by rw [hexit]; exact Nat.one_ne_zero)
  · rw [hkept, hlive.resolves]
  · have hnone := h.2.1.loaded.stored (by decide +kernel) refusing rfl 0 (by decide +kernel)
    cases hnone

/-- A record without a name next to a valid one: the migration is published and the command fails. -/
theorem seed_failure_moved_alias :
    let s := previousImage.seeded [drill "p-0" 5] emptyCluster
    let run := currentImage.calmRun [drill "p-1" 9, { drill "p-2" 9 with name := " " }] s
    (∃ ix, currentImage.Live s "products_v1" ix firstVersion) ∧ exitCode? run.1 = some 1 ∧
      s.resolve "products" = ["products_v1"] ∧ run.2.resolve "products" = ["products_v2"] := by
  intro s run
  have hsome : (s.find "products_v1").isSome := by decide +kernel
  obtain ⟨ix, hix⟩ := Option.isSome_iff_exists.mp hsome
  exact ⟨⟨ix, ⟨by decide +kernel, hix, by decide +kernel⟩⟩, by decide +kernel, by decide +kernel,
    by decide +kernel⟩

end Image

end AdvancedSearch
