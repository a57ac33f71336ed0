import AdvancedSearch.Index.Runs

/-!
# Whole runs of the seed

A run of the seed is one of four, by what it finds. It is refused (the alias cannot be read, or the
next version exists); it provisions a first version; it loads in place; or it migrates. Each rule
below names the states such a run can stop in and how it ends in them.
-/

namespace AdvancedSearch

open Js Service

namespace Image

variable {m : Image} {ok : Fate → Prop} {J : Bool → Cluster → Prop} {flip : Bool} {s : Cluster}
  {t : AdapterState} {products : List Product}

theorem Live.unique {name name' : String} {ix ix' : EsIndex} {v v' : Whole} (h : m.Live s name ix v)
    (h' : m.Live s name' ix' v') : name = name' ∧ ix = ix' ∧ v = v' := by
  have hname : name = name' := List.singleton_inj.mp (h.resolves.symm.trans h'.resolves)
  subst hname
  exact ⟨rfl, Option.some.inj (h.found.symm.trans h'.found),
    Except.ok.inj (h.parses.symm.trans h'.parses)⟩

theorem Live.not_absent {name : String} {ix : EsIndex} {v : Whole} (h : m.Live s name ix v) :
    s.resolve m.aliasName ≠ [] := by
  rw [h.resolves]
  exact List.cons_ne_nil _ _

/-! ## After provisioning -/

/-- Loading, refreshing, and publishing if nothing was refused. -/
theorem runs_load {preparation : IndexPreparation} {target : String}
    {K : Bool → Except SeedError SeedOutcome × AdapterState → Cluster → Prop}
    (htarget : s.resolve (m.writeTarget t) = [target])
    (here : ∀ stored, J flip (s.load target stored))
    (failed : ∀ e stored, CanFail ok → K flip (.error e, t) (s.load target stored))
    (incomplete : ∀ bulk : BulkResult, ∀ stored, bulk.failed ≠ 0 → stored ≠ products → CanRefuse ok →
      K flip (.ok { bulk, preparation, publication := none }, t) (s.load target stored))
    (complete : ∀ bulk : BulkResult, bulk.failed = 0 → Runs ok J
      (fun flip r s =>
        match r with
        | (.ok publication, t) =>
          J flip s ∧ K flip (.ok { bulk, preparation, publication := some publication }, t) s
        | (.error e, t) => J flip s ∧ K flip (.error e, t) s)
      (m.publishIndex t) flip (s.load target products)) :
    Runs ok J K ((do
      let bulk ← m.bulkIndex products
      m.refresh
      if bulk.failed > 0 then
        return { bulk, preparation, publication := none }
      else
        let publication ← m.publishIndex
        return { bulk, preparation, publication := some publication } : AdapterM SeedOutcome) t)
      flip s := by
  refine runs_bind (runs_bulkIndex htarget here (fun e stored he => ⟨here _, failed _ _ he⟩)
    fun bulk stored hstored hrefuse => ?_)
  refine runs_bind (runs_refresh ?_ (here _) (fun e he => ⟨here _, failed _ _ he⟩) ?_)
  · rw [Cluster.resolve_load, htarget]
    exact List.cons_ne_nil _ _
  by_cases hzero : bulk.failed = 0
  · rw [if_neg (by omega), hstored.mp hzero]
    refine runs_bind ((complete bulk hzero).mono ?_)
    rintro flip ⟨_ | publication, u⟩ s hr
    · exact hr
    · exact runs_finished hr.1 hr.2
  · rw [if_pos (by omega)]
    exact runs_finished (here _)
      (incomplete bulk stored hzero (fun h => hzero (hstored.mpr h)) (hrefuse hzero))

/-! ## The four runs -/

section Seed

variable {K : Bool → Except SeedError SeedOutcome → Cluster → Prop}

theorem runs_seed (h : Runs ok J (fun flip r s => J flip s ∧ K flip r.1 s)
    (m.execute products freshAdapter) flip s) :
    Runs ok J K (m.seed products) flip s := by
  unfold seed
  refine Runs.bind (h.mono ?_)
  rintro flip ⟨r, u⟩ s hr
  exact runs_finished hr.1 hr.2

variable (m s) in
/-- A run is refused: the alias cannot be read as one version, or its definition is not the image's
and the next version exists. -/
def Refused : Prop :=
  ¬ m.Readable s ∨ ∃ name ix version, m.Live s name ix version ∧
    readFingerprint (some ix.mappings) ≠ some m.fingerprint ∧
      (s.find (m.physical version.succ)).isSome

theorem runs_seed_refused (hs : m.Refused s) (here : J flip s)
    (failed : ∀ e, K flip (.error e) s) : Runs ok J K (m.seed products) flip s := by
  refine runs_seed ?_
  unfold execute
  refine runs_bind (runs_ensureIndex here (fun e t _ => ⟨here, here, failed e⟩)
    (fun e t _ => ⟨here, here, failed e⟩) (fun hres => ?_) (fun name ix version hlive hfp => ?_)
    (fun _ _ _ _ _ _ e t => ⟨here, here, failed e⟩) fun name ix version hlive hfp hnone => ?_)
  · rcases hs with hs | ⟨name, ix, version, hlive, -⟩
    · exact absurd (Or.inl hres) hs
    · exact absurd hres hlive.not_absent
  · rcases hs with hs | ⟨name', ix', version', hlive', hne, -⟩
    · exact absurd (Or.inr ⟨_, _, _, hlive⟩) hs
    · obtain ⟨-, rfl, -⟩ := hlive.unique hlive'
      exact absurd hfp hne
  · rcases hs with hs | ⟨name', ix', version', hlive', -, hsome⟩
    · exact absurd (Or.inr ⟨_, _, _, hlive⟩) hs
    · obtain ⟨-, -, rfl⟩ := hlive.unique hlive'
      rw [hnone] at hsome
      cases hsome

/-- What first provisioning leaves: the alias on the first version. -/
theorem aliases_provisioned (hres : s.resolve m.aliasName = []) :
    (m.provisioned s).aliases m.aliasName = [m.physical firstVersion] ∧
      (m.provisioned s).resolve m.aliasName = [m.physical firstVersion] := by
  have hfind : s.find m.aliasName = none := by
    by_contra hne
    rw [Cluster.resolve_of_find (Option.isSome_iff_ne_none.mpr hne)] at hres
    cases hres
  have halias : s.aliases m.aliasName = [] := by rw [← Cluster.resolve_eq_aliases hfind, hres]
  have hne : m.aliasName ≠ m.physical firstVersion := (physicalIndexName_ne _ _).symm
  unfold provisioned
  split_ifs with hsome
  · have ha : (s.addAlias (m.physical firstVersion) m.aliasName).aliases m.aliasName =
        [m.physical firstVersion] := by
      rw [Cluster.aliases_addAlias _ hsome, halias]
      rfl
    refine ⟨ha, ?_⟩
    rw [Cluster.resolve_eq_aliases (by rw [Cluster.find_addAlias, hfind]), ha]
  · have hnone : s.find (m.physical firstVersion) = none := by simpa using hsome
    have hsome' : ((s.insert (m.physical firstVersion) m.emptyIndex).find
        (m.physical firstVersion)).isSome := by
      rw [Cluster.find_insert _ hnone, if_pos rfl]
      rfl
    have ha : (m.created s).aliases m.aliasName = [m.physical firstVersion] := by
      unfold created
      rw [Cluster.aliases_addAlias _ hsome', Cluster.aliases_insert, halias]
      rfl
    refine ⟨ha, ?_⟩
    rw [Cluster.resolve_eq_aliases, ha]
    unfold created
    rw [Cluster.find_addAlias, Cluster.find_insert _ hnone, if_neg hne, hfind]

theorem runs_seed_absent (hres : s.resolve m.aliasName = []) (here : J flip s)
    (loaded : ∀ stored, J flip ((m.provisioned s).load (m.physical firstVersion) stored))
    (failed : ∀ e, CanFail ok → K flip (.error e) s)
    (failedLoad : ∀ e stored, CanFail ok →
      K flip (.error e) ((m.provisioned s).load (m.physical firstVersion) stored))
    (done : ∀ outcome : SeedOutcome, ∀ stored,
      outcome.preparation = { action := .created, version := firstVersion } →
      (outcome.bulk.failed = 0 ↔ stored = products) → (outcome.bulk.failed ≠ 0 → CanRefuse ok) →
      (outcome.publication.isSome ↔ outcome.bulk.failed = 0) →
      K flip (.ok outcome) ((m.provisioned s).load (m.physical firstVersion) stored)) :
    Runs ok J K (m.seed products) flip s := by
  have hload := loaded []
  have hfail := fun e he => failedLoad e [] he
  simp only [Cluster.load_nil] at hload hfail
  refine runs_seed ?_
  unfold execute
  refine runs_bind (runs_ensureIndex here (fun e t he => ⟨here, here, failed e he⟩)
    (fun e t hno => absurd (Or.inl hres) hno)
    (fun _ => ⟨hload, fun e t he => ⟨hload, hload, hfail e he⟩, ?_⟩)
    (fun _ _ _ hlive => absurd hres hlive.not_absent)
    (fun _ _ _ hlive => absurd hres hlive.not_absent)
    (fun _ _ _ hlive => absurd hres hlive.not_absent))
  refine runs_load (aliases_provisioned hres).2 loaded
    (fun e stored he => ⟨loaded _, failedLoad e stored he⟩)
    (fun bulk stored hfailed hne hrefuse => ⟨loaded _, done _ stored rfl ?_ (fun _ => hrefuse) ?_⟩)
    fun bulk hzero => runs_publishIndex_idle rfl (loaded _) ⟨loaded _, loaded _, done _ products rfl ?_ ?_ ?_⟩
  · exact ⟨fun h => absurd h hfailed, fun h => absurd h hne⟩
  · exact ⟨fun h => absurd h (by simp), fun h => absurd h hfailed⟩
  · exact ⟨fun _ => rfl, fun _ => hzero⟩
  · exact fun h => absurd hzero h
  · exact ⟨fun _ => hzero, fun _ => rfl⟩

theorem runs_seed_unchanged {name : String} {ix : EsIndex} {version : Whole}
    (hlive : m.Live s name ix version)
    (hfp : readFingerprint (some ix.mappings) = some m.fingerprint)
    (loaded : ∀ stored, J flip (s.load name stored))
    (failed : ∀ e stored, CanFail ok → K flip (.error e) (s.load name stored))
    (done : ∀ outcome : SeedOutcome, ∀ stored,
      outcome.preparation = { action := .unchanged, version } →
      (outcome.bulk.failed = 0 ↔ stored = products) → (outcome.bulk.failed ≠ 0 → CanRefuse ok) →
      (outcome.publication.isSome ↔ outcome.bulk.failed = 0) →
      K flip (.ok outcome) (s.load name stored)) :
    Runs ok J K (m.seed products) flip s := by
  have here := loaded []
  have hfail := fun e he => failed e [] he
  simp only [Cluster.load_nil] at here hfail
  refine runs_seed ?_
  unfold execute
  refine runs_bind (runs_ensureIndex here (fun e t he => ⟨here, here, hfail e he⟩)
    (fun e t hno => absurd (Or.inr ⟨_, _, _, hlive⟩) hno) (fun hres => absurd hres hlive.not_absent)
    (fun _ _ _ hlive' _ => ?_) (fun _ _ _ hlive' hne => ?_) fun _ _ _ hlive' hne => ?_)
  · obtain ⟨-, -, rfl⟩ := hlive.unique hlive'
    refine runs_load hlive.resolves loaded (fun e stored he => ⟨loaded _, failed e stored he⟩)
      (fun bulk stored hfailed hne hrefuse => ⟨loaded _, done _ stored rfl ?_ (fun _ => hrefuse) ?_⟩)
      fun bulk hzero =>
        runs_publishIndex_idle rfl (loaded _) ⟨loaded _, loaded _, done _ products rfl ?_ ?_ ?_⟩
    · exact ⟨fun h => absurd h hfailed, fun h => absurd h hne⟩
    · exact ⟨fun h => absurd h (by simp), fun h => absurd h hfailed⟩
    · exact ⟨fun _ => rfl, fun _ => hzero⟩
    · exact fun h => absurd hzero h
    · exact ⟨fun _ => hzero, fun _ => rfl⟩
  all_goals
    obtain ⟨-, rfl, -⟩ := hlive.unique hlive'
    exact absurd hfp hne

/-- A migration: the next version is created and loaded, the alias flipped if that was complete,
older versions deleted. -/
theorem runs_seed_migrating {name : String} {ix : EsIndex} {version : Whole} {next : Cluster}
    {I : Cluster → Prop} (hlive : m.Live s name ix version)
    (hfp : readFingerprint (some ix.mappings) ≠ some m.fingerprint)
    (hnone : s.find (m.physical version.succ) = none) (hnext : next = m.prepared s version.succ)
    (here : J flip s) (loaded : ∀ stored, J flip (next.load (m.physical version.succ) stored))
    (failed : ∀ e, CanFail ok → K flip (.error e) s)
    (failedLoad : ∀ e stored, CanFail ok →
      K flip (.error e) (next.load (m.physical version.succ) stored))
    (incomplete : ∀ outcome : SeedOutcome, ∀ stored, outcome.bulk.failed ≠ 0 → stored ≠ products →
      CanRefuse ok → outcome.publication = none →
      K flip (.ok outcome) (next.load (m.physical version.succ) stored))
    (missing : (next.load (m.physical version.succ) products).find (m.physical version) = none →
      ∀ e, K flip (.error e) (next.load (m.physical version.succ) products))
    (hinv : ((next.load (m.physical version.succ) products).find (m.physical version)).isSome →
      I (m.flippedCluster (next.load (m.physical version.succ) products) ⟨version.succ, version⟩))
    (hJ : ∀ s, I s → J true s)
    (herase : ∀ s name v, parsePhysicalIndexVersion m.aliasName name = .ok v → v < version →
      I s → I (s.erase name))
    (failedFlip : ∀ e s, CanFail ok → I s → K true (.error e) s)
    (done : ∀ outcome : SeedOutcome, ∀ s, outcome.bulk.failed = 0 →
      outcome.publication.isSome → I s → K true (.ok outcome) s) :
    Runs ok J K (m.seed products) flip s := by
  subst hnext
  have hload := loaded []
  have hfail := fun e he => failedLoad e [] he
  simp only [Cluster.load_nil] at hload hfail
  refine runs_seed ?_
  unfold execute
  refine runs_bind (runs_ensureIndex here (fun e t he => ⟨here, here, failed e he⟩)
    (fun e t hno => absurd (Or.inr ⟨_, _, _, hlive⟩) hno) (fun hres => absurd hres hlive.not_absent)
    (fun _ _ _ hlive' hfp' => ?_) (fun _ _ _ hlive' _ hsome => ?_) fun _ _ _ hlive' _ _ => ?_)
  · obtain ⟨-, rfl, -⟩ := hlive.unique hlive'
    exact absurd hfp' hfp
  · obtain ⟨-, -, rfl⟩ := hlive.unique hlive'
    rw [hnone] at hsome
    cases hsome
  · obtain ⟨-, -, rfl⟩ := hlive.unique hlive'
    refine ⟨hload, fun e t he => ⟨hload, hload, hfail e he⟩, ?_⟩
    have hnew : ((m.prepared s version.succ).find (m.physical version.succ)).isSome := by
      unfold prepared
      rw [Cluster.find_insert _ hnone, if_pos rfl]
      rfl
    refine runs_load (Cluster.resolve_of_find hnew) loaded
      (fun e stored he => ⟨loaded _, failedLoad e stored he⟩)
      (fun bulk stored hfailed hne hrefuse =>
        ⟨loaded _, incomplete _ stored hfailed hne hrefuse rfl⟩) fun bulk hzero => ?_
    by_cases hold : ((m.prepared s version.succ).load (m.physical version.succ) products).find
        (m.physical version) = none
    · exact runs_publishIndex_missing rfl hold (loaded _)
        fun e => ⟨loaded _, loaded _, missing hold e⟩
    · have hold' := Option.isSome_iff_ne_none.mpr hold
      refine runs_publishIndex_pending (I := I) rfl ?_ hold' (loaded _)
        (fun e he => ⟨loaded _, loaded _, failedLoad _ _ he⟩) (hinv hold') hJ herase
        (fun e s he hs => ⟨hJ _ hs, hJ _ hs, failedFlip e s he hs⟩)
        fun versions s hs => ⟨hJ _ hs, hJ _ hs, done _ s hzero rfl hs⟩
      rw [Cluster.find_load_isSome]
      exact hnew

end Seed

end Image

end AdvancedSearch
