import AdvancedSearch.Index.Migration

/-!
# What is served after a seed

A seed that exits with 0 leaves the served index with exactly the records' documents, except in place:
there it only adds, so what the index held before stays unless a record has its id (`seed_serves`).
-/

namespace AdvancedSearch

open Js Service

namespace Image

/-- The alias is on one index that holds exactly the records' documents. -/
def ServesExactly (m : Image) (c : Cluster) (records : List RawProduct) : Prop :=
  ∃ name ix, c.resolve m.aliasName = [name] ∧ c.find name = some ix ∧
    ix.documents = recordDocuments m.parseDate records

/-- Every document is one a record replaces. -/
def Covered (documents : Documents) (records : List RawProduct) : Prop :=
  ∀ id, documents id ≠ none → ∃ r ∈ records, r.id = id

/-- What a seed starts from for its result to be exactly the records: in place nothing else is there;
a migration replaces the version it reads from the index's name. -/
structure StartsClean (m : Image) (s : Cluster) (records : List RawProduct) : Prop where
  absent : s.resolve m.aliasName = [] →
    ∀ ix, s.find (m.physical firstVersion) = some ix → Covered ix.documents records
  inPlace : ∀ name ix version, m.Live s name ix version →
    readFingerprint (some ix.mappings) = some m.fingerprint → Covered ix.documents records
  migrating : ∀ name ix version, m.Live s name ix version →
    readFingerprint (some ix.mappings) ≠ some m.fingerprint → name = m.physical version

variable {m : Image} {s : Cluster} {records : List RawProduct}

theorem servesExactly_iff {c : Cluster} {name : String} {ix : EsIndex}
    (hres : c.resolve m.aliasName = [name]) (hix : c.find name = some ix) :
    m.ServesExactly c records ↔ ix.documents = recordDocuments m.parseDate records := by
  constructor
  · rintro ⟨name', ix', hres', hix', hdocs⟩
    obtain rfl := List.singleton_inj.mp (hres.symm.trans hres')
    obtain rfl := Option.some.inj (hix.symm.trans hix')
    exact hdocs
  · exact fun hdocs => ⟨name, ix, hres, hix, hdocs⟩

/-- Loading valid records in place. -/
theorem upsert_records_iff (hvalid : (loadProducts m.parseDate records).invalid = [])
    (documents : Documents) :
    documents.upsert (loadProducts m.parseDate records).products =
      recordDocuments m.parseDate records ↔ Covered documents records := by
  rw [← catalogue_of_valid hvalid, upsert_eq_catalogue_iff]
  exact forall₂_congr fun id _ => mem_products_of_valid hvalid id

/-- The index first provisioning leaves under the alias. -/
theorem find_provisioned (m : Image) (s : Cluster) :
    (m.provisioned s).find (m.physical firstVersion) =
      some ((s.find (m.physical firstVersion)).getD m.emptyIndex) := by
  unfold provisioned
  split_ifs with hsome
  · obtain ⟨ix, hix⟩ := Option.isSome_iff_exists.mp hsome
    rw [Cluster.find_addAlias, hix]
    rfl
  · have hnone : s.find (m.physical firstVersion) = none := by simpa using hsome
    unfold created
    rw [Cluster.find_addAlias, Cluster.find_insert _ hnone, if_pos rfl, hnone]
    rfl

/-- A complete run of the use case serves exactly the records exactly when it started clean. -/
def CompleteServes (m : Image) (s : Cluster) (records : List RawProduct) (_flip : Bool)
    (r : Except SeedError SeedOutcome) (t : Cluster) : Prop :=
  ∀ outcome, r = .ok outcome → outcome.bulk.failed = 0 →
    (m.ServesExactly t records ↔ m.StartsClean s records)

theorem runs_seed_serves (hread : m.Readable s)
    (hvalid : (loadProducts m.parseDate records).invalid = []) :
    Runs (fun _ => True) (fun _ _ => True) (m.CompleteServes s records)
      (m.seed (loadProducts m.parseDate records).products) false s := by
  have thrown : ∀ flip e t, m.CompleteServes s records flip (.error e) t :=
    fun _ _ _ _ h => by cases h
  rcases hread with hres | ⟨name, ix, version, hlive⟩
  · refine runs_seed_absent hres trivial (fun _ => trivial) (fun _ _ => thrown _ _ _)
      (fun _ _ _ => thrown _ _ _) fun outcome stored _ hstored _ _ o ho hzero => ?_
    cases ho
    rw [hstored.mp hzero, servesExactly_iff
      (by rw [Cluster.resolve_load, (aliases_provisioned hres).2])
      (Cluster.find_load_self (find_provisioned m s) _), upsert_records_iff hvalid]
    constructor
    · intro hcov
      exact
        { absent := fun _ ix hix => by rwa [hix] at hcov
          inPlace := fun _ _ _ hlive => absurd hres hlive.not_absent
          migrating := fun _ _ _ hlive => absurd hres hlive.not_absent }
    · intro hclean
      cases hix : s.find (m.physical firstVersion) with
      | none => exact fun id hid => absurd rfl hid
      | some ix => exact hclean.absent hres ix hix
  by_cases hfp : readFingerprint (some ix.mappings) = some m.fingerprint
  · refine runs_seed_unchanged hlive hfp (fun _ => trivial) (fun _ _ _ => thrown _ _ _)
      fun outcome stored _ hstored _ _ o ho hzero => ?_
    cases ho
    rw [hstored.mp hzero, servesExactly_iff (by rw [Cluster.resolve_load, hlive.resolves])
      (Cluster.find_load_self hlive.found _), upsert_records_iff hvalid]
    constructor
    · intro hcov
      refine
        { absent := fun hres => absurd hres hlive.not_absent
          inPlace := fun name' ix' version' hlive' _ => ?_
          migrating := fun name' ix' version' hlive' hne => ?_ }
      · obtain ⟨-, rfl, -⟩ := hlive.unique hlive'
        exact hcov
      · obtain ⟨-, rfl, -⟩ := hlive.unique hlive'
        exact absurd hfp hne
    · exact fun hclean => hclean.inPlace _ _ _ hlive hfp
  by_cases hnone : s.find (m.physical version.succ) = none
  · have hne : name ≠ m.physical version.succ := by
      rintro rfl
      rw [hlive.found] at hnone
      cases hnone
    refine runs_seed_migrating
      (I := fun t => m.Flipped t name version (loadProducts m.parseDate records).products)
      hlive hfp hnone rfl trivial (fun _ => trivial) (fun _ _ => thrown _ _ _) (fun _ _ _ => thrown _ _ _)
      (fun outcome _ hfailed _ _ _ o ho hzero => absurd hzero (by cases ho; exact hfailed))
      (fun _ _ => thrown _ _ _) (fun _ => (hlive.pending hnone _).flip hne) (fun _ _ => trivial)
      (fun s name v hv hlt hs => hs.erase hv hlt hlive.parses) (fun _ _ _ _ => thrown _ _ _)
      fun outcome t _ _ ht o ho _ => ?_
    cases ho
    have hclean : m.StartsClean s records ↔ name = m.physical version := by
      constructor
      · exact fun h => h.migrating _ _ _ hlive hfp
      · intro hname
        refine
          { absent := fun hres => absurd hres hlive.not_absent
            inPlace := fun name' ix' version' hlive' heq => ?_
            migrating := fun name' ix' version' hlive' _ => ?_ }
        · obtain ⟨-, rfl, -⟩ := hlive.unique hlive'
          exact absurd heq hfp
        · obtain ⟨rfl, -, rfl⟩ := hlive.unique hlive'
          exact hname
    have hres : t.resolve m.aliasName = t.aliases m.aliasName := Cluster.resolve_eq_aliases ht.free
    rw [hclean]
    constructor
    · rintro ⟨n, ix', hn, -⟩
      by_contra hname
      rw [hres, ht.aliases, if_neg hname] at hn
      cases hn
    · intro hname
      rw [ht.aliases, if_pos hname] at hres
      exact ⟨_, _, hres, ht.served, catalogue_of_valid hvalid⟩
  · exact runs_seed_refused
      (Or.inr ⟨name, ix, version, hlive, hfp, Option.isSome_iff_ne_none.mpr hnone⟩) trivial
      fun _ => thrown _ _ _

/-- **What a successful seed serves.** From an absent alias, or one on a single conventionally named
index, a seed command that exits with 0 leaves the alias on exactly the records' documents if and only
if it started clean. -/
theorem seed_serves (m : Image) {s : Cluster} (hread : m.Readable s) (records : List RawProduct)
    (fates : List Fate) {finish : SeedEnd} {t : Cluster}
    (hrun : Program.run elasticsearch (m.runSeed records, s) fates = (.finished finish, t))
    (hexit : finish.exitCode = 0) : m.ServesExactly t records ↔ m.StartsClean s records := by
  by_cases hvalid : (loadProducts m.parseDate records).invalid = []
  · have hK : Runs (fun _ => True) (fun _ _ => True)
        (fun flip e t => ∃ r, e = seedEnd (loadProducts m.parseDate records).invalid r ∧
          m.CompleteServes s records flip r t) (m.runSeed records) false s :=
      runs_runSeed ((runs_seed_serves hread hvalid).mono fun _ r _ h => ⟨trivial, r, rfl, h⟩)
    obtain ⟨r, rfl, hserves⟩ := Program.Upholds.finish (hK [] rfl) (fun _ _ => trivial) hrun
    cases r with
    | error e => exact absurd hexit Nat.one_ne_zero
    | ok outcome =>
      refine hserves outcome rfl ?_
      by_contra hfailed
      simp [seedEnd, Nat.pos_of_ne_zero hfailed] at hexit
  · -- an invalid record alone makes the command fail
    have hfails : Program.Upholds elasticsearch (fun _ => True) (fun _ _ => True)
        (fun _ e _ => e.exitCode = 1) (m.runSeed records) [] s := by
      refine Program.Upholds.bind (Program.upholds_of_forall (fun _ _ => trivial) fun _ r _ => ?_)
      refine ⟨trivial, ?_⟩
      cases r with
      | error e => rfl
      | ok outcome => exact if_pos (Or.inr (List.length_pos_iff.mpr hvalid))
    have hone : finish.exitCode = 1 := hfails.finish (fun _ _ => trivial) hrun
    omega

/-- A first seed serves its records, and so does a second one that reprices, keeps and adds. -/
theorem seed_serves_repriced :
    let first := [drill "p-0" 5, drill "p-1" 9, drill "p-1" 8]
    let second := [drill "p-1" 7, drill "p-2" 6, drill "p-0" 5]
    let s := currentImage.seeded first emptyCluster
    currentImage.ServesExactly s first ∧
      currentImage.ServesExactly (currentImage.seeded second s) second := by
  intro first second s
  have hcode : exitCode? (currentImage.calmRun first emptyCluster).1 = some 0 := by decide +kernel
  obtain ⟨finish, hrun, hexit⟩ := ended hcode
  have hfirst : currentImage.ServesExactly s first :=
    (seed_serves currentImage (Or.inl rfl) _ _ hrun hexit).mpr
      { absent := fun _ ix hix => by cases hix
        inPlace := fun _ _ _ hlive => absurd rfl hlive.not_absent
        migrating := fun _ _ _ hlive => absurd rfl hlive.not_absent }
  refine ⟨hfirst, ?_⟩
  obtain ⟨name, ix, hresolve, hfind, hdocuments⟩ := hfirst
  obtain rfl : name = "products_v1" := by
    have hon : s.resolve currentImage.aliasName = ["products_v1"] := by decide +kernel
    exact List.singleton_inj.mp (hresolve.symm.trans hon)
  have hlive : currentImage.Live s "products_v1" ix firstVersion :=
    ⟨hresolve, hfind, by decide +kernel⟩
  have hcode' : exitCode? (currentImage.calmRun second s).1 = some 0 := by decide +kernel
  obtain ⟨finish', hrun', hexit'⟩ := ended hcode'
  refine (seed_serves currentImage (Or.inr ⟨_, _, _, hlive⟩) _ _ hrun' hexit').mpr
    { absent := fun habsent => absurd habsent hlive.not_absent
      inPlace := fun _ _ _ hlive' _ => ?_
      migrating := fun _ _ _ hlive' _ => ?_ }
  · -- what the first seed stored is replaced by the second
    obtain ⟨-, rfl, -⟩ := hlive.unique hlive'
    intro id hid
    rw [hdocuments] at hid
    obtain ⟨doc, hdoc⟩ := Option.ne_none_iff_exists'.mp hid
    obtain ⟨r, hr, rfl, -⟩ := exists_record hdoc
    have hcovered : ∀ r ∈ first, ∃ r' ∈ second, r'.id = r.id := by decide
    exact hcovered r hr
  · obtain ⟨rfl, -, rfl⟩ := hlive.unique hlive'
    decide +kernel

/-- A product dropped from the dataset stays served when the definition did not change. -/
theorem seed_serves_retired :
    let s := currentImage.seeded [drill "p-0" 5, drill "p-1" 9] emptyCluster
    let run := currentImage.calmRun [drill "p-1" 9] s
    (∃ ix, currentImage.Live s "products_v1" ix firstVersion) ∧ exitCode? run.1 = some 0 ∧
      run.2.resolve "products" = ["products_v1"] ∧
        ((run.2.find "products_v1").bind fun ix => ix.documents "p-0").isSome := by
  intro s run
  have hsome : (s.find "products_v1").isSome := by decide +kernel
  obtain ⟨ix, hix⟩ := Option.isSome_iff_exists.mp hsome
  exact ⟨⟨ix, ⟨by decide +kernel, hix, by decide +kernel⟩⟩, by decide +kernel, by decide +kernel,
    by decide +kernel⟩

end Image

end AdvancedSearch
