import AdvancedSearch.Index.Recovery

/-!
# What provisioning reports

`ensureIndex` says that a version was created or is unchanged. What it says is true, and stays true for
the next run, exactly when `TellsTruth`: a first version that was already there, left over or created
by somebody faster, must carry the same definition, and an index that is kept must be named as its
version is spelled (`ensureIndex_truthful`).
-/

namespace AdvancedSearch

open Js Service

namespace Image

variable {m : Image} {s : Cluster}

/-- The alias is on the version, which carries the image's definition, and the next undisturbed
`ensureIndex` says so and changes nothing. -/
structure Truthful (m : Image) (c : Cluster) (version : Whole) : Prop where
  resolves : c.resolve m.aliasName = [m.physical version]
  carries : ∃ ix, c.find (m.physical version) = some ix ∧
    readFingerprint (some ix.mappings) = some m.fingerprint
  again : ∀ fates : ℕ → Fate, (∀ i, Undisturbed (fates i)) → ∃ calls u,
    Program.run elasticsearch (m.ensureIndex freshAdapter, c) ((List.range calls).map fates) =
      (.finished (.ok { action := .unchanged, version }, u), c)

/-- An undisturbed `ensureIndex` on its own definition. -/
theorem runs_ensureIndex_again {name : String} {ix : EsIndex} {version : Whole}
    (hlive : m.Live s name ix version)
    (hfp : readFingerprint (some ix.mappings) = some m.fingerprint) :
    Runs Undisturbed (fun _ _ => True)
      (fun _ r t => r.1 = .ok { action := .unchanged, version } ∧ t = s)
      (m.ensureIndex freshAdapter) false s := by
  refine runs_ensureIndex trivial (fun _ _ he => absurd he not_canFail_undisturbed)
    (fun _ _ hno => absurd (Or.inr ⟨_, _, _, hlive⟩) hno) (fun hres => absurd hres hlive.not_absent)
    (fun _ _ _ hlive' _ => ?_) (fun _ _ _ hlive' hne => ?_) fun _ _ _ hlive' hne => ?_
  · obtain ⟨-, -, rfl⟩ := hlive.unique hlive'
    exact ⟨rfl, rfl⟩
  all_goals
    obtain ⟨-, rfl, -⟩ := hlive.unique hlive'
    exact absurd hfp hne

/-- An undisturbed `ensureIndex` where the alias cannot be read. -/
theorem runs_ensureIndex_unreadable (hread : ¬ m.Readable s) :
    Runs (fun _ => True) (fun _ _ => True) (fun _ r _ => ∃ e, r.1 = .error e)
      (m.ensureIndex freshAdapter) false s :=
  runs_ensureIndex trivial (fun e _ _ => ⟨e, rfl⟩) (fun e _ _ => ⟨e, rfl⟩)
    (fun hres => absurd (Or.inl hres) hread)
    (fun _ _ _ hlive => absurd (Or.inr ⟨_, _, _, hlive⟩) hread)
    (fun _ _ _ hlive => absurd (Or.inr ⟨_, _, _, hlive⟩) hread)
    fun _ _ _ hlive => absurd (Or.inr ⟨_, _, _, hlive⟩) hread

/-- The report is true when the definition is recorded and the name reads back. -/
theorem truthful_iff {version : Whole} {ix : EsIndex}
    (hres : s.resolve m.aliasName = [m.physical version])
    (hix : s.find (m.physical version) = some ix) : m.Truthful s version ↔
      readFingerprint (some ix.mappings) = some m.fingerprint ∧
        parsePhysicalIndexVersion m.aliasName (m.physical version) = .ok version := by
  constructor
  · intro h
    obtain ⟨ix', hix', hfp⟩ := h.carries
    obtain rfl := Option.some.inj (hix.symm.trans hix')
    refine ⟨hfp, ?_⟩
    have hread : m.Readable s := by
      by_contra hno
      obtain ⟨calls, u, hrun⟩ := h.again (fun _ => calm) fun _ => ⟨rfl, fun _ => rfl⟩
      obtain ⟨e, he⟩ := Program.Upholds.finish (runs_ensureIndex_unreadable hno [] rfl)
        (fun _ _ => trivial) hrun
      cases he
    rcases hread with habsent | ⟨name, ix', v, hlive⟩
    · rw [hres] at habsent
      cases habsent
    · obtain rfl := List.singleton_inj.mp (hres.symm.trans hlive.resolves)
      rw [hlive.parses, hlive.version_eq]
  · rintro ⟨hfp, hparse⟩
    refine ⟨hres, ⟨ix, hix, hfp⟩, fun fates hfates => ?_⟩
    obtain ⟨calls, ⟨r, u⟩, t, hrun, hr, rfl⟩ := Program.Upholds.completes
      (runs_ensureIndex_again ⟨hres, hix, hparse⟩ hfp [] rfl) hfates
    simp only at hr
    exact ⟨calls, u, by rw [hrun, hr]⟩

/-! ## Another creator -/

/-- The other creator's `create`, alias inline: it wins if the first version does not exist. -/
def wins (rival : Image) (c : Cluster) : Cluster :=
  (c.apply (.create (rival.physical firstVersion) rival.emptyIndex.settings
    rival.emptyIndex.mappings [rival.aliasName]) calm).2

/-- Where there is no first version it provisions. -/
theorem wins_eq (h : s.find (m.physical firstVersion) = none) : m.wins s = m.provisioned s := by
  unfold wins
  rw [Cluster.apply_create h]
  exact (if_neg (by simp [h])).symm

/-- What `ensureIndex` finds after its first call. -/
def found (rival : Option Image) (c : Cluster) : Cluster :=
  match rival with
  | none => c
  | some rival => rival.wins c

/-- `ensureIndex` with another creator between its first call and the rest. -/
def raced (m : Image) (rival : Option Image) (c : Cluster) (read : Fate) (fates : List Fate) :
    Program EsCall EsAnswer (Except SeedError IndexPreparation × AdapterState) × Cluster :=
  let x := Program.step elasticsearch (m.ensureIndex freshAdapter, c) read
  Program.run elasticsearch (x.1, found rival x.2) fates

/-- What is left of `ensureIndex` once the alias was found absent. -/
def provisionFirst (m : Image) : AdapterM IndexPreparation := do
  m.createInitialIndex (withFingerprint m.sha256 m.definition)
  set (AdapterState.mk (some firstVersion) none)
  return { action := .created, version := firstVersion }

theorem ensureIndex_waiting (m : Image) (t : AdapterState) :
    ∃ next, m.ensureIndex t = .waiting (.getMapping m.aliasName) next ∧
      next (.error (indexNotFound m.aliasName)) = m.provisionFirst t ∧
      ∀ e : Outage, next (.error e.1) = .finished (.error (.elasticsearch e.1), t) := by
  refine ⟨_, rfl, rfl, fun e => ?_⟩
  have h := e.2.2
  simp only [Program.bind, Client.andThen_error, Client.orElse_error, h, Bool.false_eq_true, if_false,
    Client.throw_apply]

/-- Read as absent, `ensureIndex` is left with the first provisioning, or has failed. -/
theorem step_ensureIndex (hres : s.resolve m.aliasName = []) (t : AdapterState) (read : Fate) :
    Program.step elasticsearch (m.ensureIndex t, s) read = (m.provisionFirst t, s) ∨
      ∃ e, Program.step elasticsearch (m.ensureIndex t, s) read = (.finished (.error e, t), s) := by
  obtain ⟨next, hwait, habsent, hout⟩ := m.ensureIndex_waiting t
  rw [hwait, Program.step_waiting]
  cases hd : read.delivery with
  | answered =>
    rw [serve_answered hd, Cluster.apply_getMapping hres]
    exact Or.inl (by rw [habsent])
  | lost e =>
    rw [serve_lost hd, Cluster.apply_getMapping hres]
    exact Or.inr ⟨_, by rw [hout]⟩
  | unreached e =>
    rw [serve_unreached hd]
    exact Or.inr ⟨_, by rw [hout]⟩

/-- Where first provisioning ends: the alias on the first version, made now or found. -/
theorem runs_provisionFirst
    (hstart : s.resolve m.aliasName = [] ∨ (s.resolve m.aliasName = [m.physical firstVersion] ∧
      s.aliases m.aliasName = [m.physical firstVersion])) (t : AdapterState) :
    Runs (fun _ => True) (fun _ _ => True) (fun _ r t =>
      ∀ preparation, r.1 = .ok preparation →
        preparation = { action := .created, version := firstVersion } ∧
        t.resolve m.aliasName = [m.physical firstVersion] ∧
        t.find (m.physical firstVersion) =
          some ((s.find (m.physical firstVersion)).getD m.emptyIndex))
      (m.provisionFirst t) false s := by
  have habsent : s.aliases m.aliasName = [] → s.resolve m.aliasName = [] := by
    intro ha
    rcases hstart with h | ⟨-, h⟩
    · exact h
    · rw [ha] at h
      cases h
  unfold provisionFirst
  refine runs_bind (runs_createInitialIndex trivial (fun _ _ => ⟨trivial, fun _ h => by cases h⟩)
    (fun hnone => ?_) (fun hsome hne => ?_) fun hsome ha => ?_)
  · have hres : s.resolve m.aliasName = [] := by
      rcases hstart with h | ⟨-, h⟩
      · exact h
      · have := Cluster.find_isSome_of_mem (h ▸ List.mem_singleton_self (m.physical firstVersion) :
          m.physical firstVersion ∈ s.aliases m.aliasName)
        rw [hnone] at this
        cases this
    have hp : m.provisioned s = m.created s := if_neg (by simp [hnone])
    refine ⟨trivial, fun _ _ => ⟨trivial, fun _ h => by cases h⟩,
      runs_finished trivial fun p hp' => ?_⟩
    rw [← hp]
    exact ⟨(Except.ok.inj hp').symm, (aliases_provisioned hres).2, find_provisioned m s⟩
  · refine runs_finished trivial fun p hp' => ⟨(Except.ok.inj hp').symm, ?_, ?_⟩
    · rcases hstart with h | ⟨h, -⟩
      · have hfind : s.find m.aliasName = none := by
          by_contra hsome
          rw [Cluster.resolve_of_find (Option.isSome_iff_ne_none.mpr hsome)] at h
          cases h
        rw [Cluster.resolve_eq_aliases hfind] at h
        exact absurd h hne
      · exact h
    · obtain ⟨ix, hix⟩ := Option.isSome_iff_exists.mp hsome
      rw [hix]
      rfl
  · have hp : m.provisioned s = s.addAlias (m.physical firstVersion) m.aliasName := if_pos hsome
    refine ⟨trivial, fun _ _ => ⟨trivial, fun _ h => by cases h⟩,
      runs_finished trivial fun p hp' => ?_⟩
    rw [← hp]
    exact ⟨(Except.ok.inj hp').symm, (aliases_provisioned (habsent ha)).2, find_provisioned m s⟩

/-- The cluster after another creator: the alias still absent, or on that creator's version. -/
theorem found_absent {rival : Option Image} (hsame : ∀ r ∈ rival, r.aliasName = m.aliasName)
    (hres : s.resolve m.aliasName = []) :
    (found rival s).resolve m.aliasName = [] ∨
      ((found rival s).resolve m.aliasName = [m.physical firstVersion] ∧
        (found rival s).aliases m.aliasName = [m.physical firstVersion]) := by
  cases rival with
  | none => exact Or.inl hres
  | some r =>
    have hr : r.aliasName = m.aliasName := hsame r rfl
    have hphysical : r.physical firstVersion = m.physical firstVersion := by
      unfold physical
      rw [hr]
    show (r.wins s).resolve _ = _ ∨ (r.wins s).resolve _ = _ ∧ (r.wins s).aliases _ = _
    cases hfind : s.find (r.physical firstVersion) with
    | some ix =>
      unfold wins
      rw [Cluster.apply_create_of_exists (by rw [hfind]; rfl)]
      exact Or.inl hres
    | none =>
      have h := aliases_provisioned (m := r) (s := s) (by rw [hr]; exact hres)
      rw [← wins_eq hfind, hr, hphysical] at h
      exact Or.inr ⟨h.2, h.1⟩

/-- What the report depends on. -/
structure TellsTruth (m : Image) (c found : Cluster) : Prop where
  created : c.resolve m.aliasName = [] → Spellable m.aliasName ∧
    ∀ ix, found.find (m.physical firstVersion) = some ix →
      readFingerprint (some ix.mappings) = some m.fingerprint
  unchanged : ∀ name ix version, m.Live c name ix version →
    readFingerprint (some ix.mappings) = some m.fingerprint → name = m.physical version

theorem parse_firstVersion_iff :
    parsePhysicalIndexVersion m.aliasName (m.physical firstVersion) = .ok firstVersion ↔
      Spellable m.aliasName := by
  constructor
  · intro h
    unfold physical physicalIndexName at h
    rw [Whole.toString_of_lt (by decide +kernel), parsePhysicalIndexVersion_repr _ (n := firstVersion)
      firstVersion.exact] at h
    by_contra hno
    rw [if_neg (fun hc => hno hc.1)] at h
    cases h
  · intro h
    exact parsePhysicalIndexVersion_of_lt h (by decide +kernel) (by decide +kernel)

/-- **What `ensureIndex` reports is true** exactly under `TellsTruth`: whenever it returns created or
unchanged, with or without another creator that found the alias absent too. -/
theorem ensureIndex_truthful (m : Image) (rival : Option Image) {c : Cluster}
    (hrival : rival.isSome → c.resolve m.aliasName = [])
    (hsame : ∀ r ∈ rival, r.aliasName = m.aliasName) (read : Fate) (fates : List Fate)
    {preparation : IndexPreparation} {u : AdapterState} {t : Cluster}
    (hrun : m.raced rival c read fates = (.finished (.ok preparation, u), t))
    (haction : preparation.action ≠ .migrating) :
    m.Truthful t preparation.version ↔ m.TellsTruth c (found rival c) := by
  by_cases hres : c.resolve m.aliasName = []
  · -- created: the rest of the run starts from what the other creator left
    have hclean : m.TellsTruth c (found rival c) ↔ Spellable m.aliasName ∧
        ∀ ix, (found rival c).find (m.physical firstVersion) = some ix →
          readFingerprint (some ix.mappings) = some m.fingerprint :=
      ⟨fun h => h.created hres,
        fun h => ⟨fun _ => h, fun _ _ _ hlive => absurd hres hlive.not_absent⟩⟩
    unfold raced at hrun
    rcases step_ensureIndex hres freshAdapter read with hstep | ⟨e, hstep⟩
    · rw [hstep] at hrun
      obtain ⟨rfl, hon, hfind⟩ := Program.Upholds.finish
        (runs_provisionFirst (found_absent hsame hres) freshAdapter [] rfl) (fun _ _ => trivial)
        hrun preparation rfl
      rw [truthful_iff hon hfind, parse_firstVersion_iff, hclean, and_comm]
      refine and_congr_right fun _ => ?_
      cases (found rival c).find (m.physical firstVersion) with
      | none => exact ⟨fun _ ix h => (by cases h), fun _ => readFingerprint_emptyIndex⟩
      | some ix => exact ⟨fun h ix' h' => Option.some.inj h' ▸ h, fun h => h ix rfl⟩
    · rw [hstep, Program.run_finished] at hrun
      cases hrun
  · -- no other creator: the alias was there
    have hnone : rival = none := by
      cases rival with
      | none => rfl
      | some r => exact absurd (hrival rfl) hres
    subst hnone
    have hstart : Program.run elasticsearch (m.ensureIndex freshAdapter, c) (read :: fates) =
        (.finished (.ok preparation, u), t) := hrun
    have hK : Runs (fun _ => True) (fun _ _ => True) (fun _ r t =>
        ∀ preparation, r.1 = .ok preparation → preparation.action ≠ .migrating →
          ∃ name ix version, m.Live c name ix version ∧
            readFingerprint (some ix.mappings) = some m.fingerprint ∧
            preparation.version = version ∧ t = c) (m.ensureIndex freshAdapter) false c :=
      runs_ensureIndex trivial (fun _ _ _ _ h => by cases h) (fun _ _ _ _ h => by cases h)
        (fun habsent => absurd habsent hres)
        (fun name ix version hlive hfp p hp _ =>
          ⟨name, ix, version, hlive, hfp, by rw [← Except.ok.inj hp], rfl⟩)
        (fun _ _ _ _ _ _ _ _ _ h => by cases h)
        fun _ _ _ _ _ _ => ⟨trivial, fun _ _ _ _ h => (by cases h),
          fun p hp h => absurd (by rw [← Except.ok.inj hp]) h⟩
    obtain ⟨name, ix, version, hlive, hfp, rfl, rfl⟩ := Program.Upholds.finish (hK [] rfl)
      (fun _ _ => trivial) hstart preparation rfl haction
    constructor
    · intro h
      refine ⟨fun habsent => absurd habsent hres, fun name' ix' version' hlive' _ => ?_⟩
      obtain ⟨rfl, -, rfl⟩ := hlive.unique hlive'
      exact List.singleton_inj.mp (hlive.resolves.symm.trans h.resolves)
    · intro h
      have hname := h.unchanged _ _ _ hlive hfp
      rw [truthful_iff (hname ▸ hlive.resolves) (hname ▸ hlive.found)]
      exact ⟨hfp, hname ▸ hlive.parses⟩

/-- What a finished `ensureIndex` returned. -/
def returned? : Program EsCall EsAnswer (Except SeedError IndexPreparation × AdapterState) →
    Option IndexPreparation
  | .finished (.ok preparation, _) => some preparation
  | _ => none

theorem returned {x : Program EsCall EsAnswer (Except SeedError IndexPreparation × AdapterState) ×
    Cluster} {preparation : IndexPreparation} (h : returned? x.1 = some preparation) :
    ∃ u, x = (.finished (.ok preparation, u), x.2) := by
  obtain ⟨p, c⟩ := x
  cases p with
  | finished r =>
    obtain ⟨_ | preparation', u⟩ := r
    · cases h
    · cases h
      exact ⟨u, rfl⟩
  | waiting call next => cases h

/-- The seed of this source's definition. -/
def catalogueImage : Image := productsImage productIndexDefinition

/-- Another process of the same image is faster: what is reported created was created by that one. -/
theorem ensureIndex_truthful_outrun :
    (found (some catalogueImage) emptyCluster).resolve "products" = ["products_v1"] ∧
      catalogueImage.Truthful
        (catalogueImage.raced (some catalogueImage) emptyCluster calm [calm, calm]).2 firstVersion := by
  have hcode : returned? (catalogueImage.raced (some catalogueImage) emptyCluster calm [calm, calm]).1 =
      some { action := .created, version := firstVersion } := by decide +kernel
  obtain ⟨u, hrun⟩ := returned hcode
  have hfound : (found (some catalogueImage) emptyCluster).find (catalogueImage.physical firstVersion) =
      some catalogueImage.emptyIndex := by
    show (catalogueImage.wins emptyCluster).find _ = _
    rw [wins_eq rfl, find_provisioned]
    rfl
  have hsame : ∀ r ∈ some catalogueImage, r.aliasName = catalogueImage.aliasName := by
    intro r hr
    rw [Option.mem_some_iff.mp hr]
  have htruthful := ensureIndex_truthful catalogueImage (some catalogueImage) (fun _ => rfl) hsame calm
    [calm, calm] hrun (by decide)
  refine ⟨by decide +kernel, htruthful.mpr
    { created := fun _ => ⟨by decide +kernel, fun ix hix => ?_⟩
      unchanged := fun _ _ _ hlive => absurd rfl hlive.not_absent }⟩
  obtain rfl := Option.some.inj (hfound.symm.trans hix)
  exact readFingerprint_emptyIndex

/-- Another image wins the race: the version is reported created, with a definition it does not
carry. -/
theorem ensureIndex_misreports :
    let x := currentImage.raced (some previousImage) emptyCluster calm [calm, calm]
    returned? x.1 = some { action := .created, version := firstVersion } ∧
      x.2.resolve "products" = ["products_v1"] ∧
      ((x.2.find "products_v1").bind fun ix => readFingerprint (some ix.mappings)) ≠
        some currentImage.fingerprint := by decide +kernel

end Image

end AdvancedSearch
