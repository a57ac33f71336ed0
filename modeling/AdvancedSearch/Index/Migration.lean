import AdvancedSearch.Index.SeedRun

/-!
# Migrations

The states of a migration: `Pending` while the next version is being loaded, `Flipped` from the flip
on. A migration is invisible until it is complete (`migration_invisible`).
-/

namespace AdvancedSearch

open Js Service

namespace Cluster

variable {c : Cluster} {a n : String}

/-- An alias stands on another index: nothing else has its name. -/
theorem alias_of_resolve (h : c.resolve a = [n]) (hne : n ≠ a) :
    c.find a = none ∧ c.aliases a = [n] := by
  have hfind : c.find a = none := by
    by_contra hsome
    rw [resolve_of_find (Option.isSome_iff_ne_none.mpr hsome)] at h
    exact hne (List.singleton_inj.mp h).symm
  exact ⟨hfind, by rw [← resolve_eq_aliases hfind, h]⟩

end Cluster

namespace Image

variable (m : Image)

/-- An index as a complete or partial load of the image leaves it. -/
def loadedIndex (stored : List Product) : EsIndex :=
  { m.emptyIndex with documents := catalogue stored }

/-- The next version exists and holds `stored`; the alias and its index are as they were. -/
structure Pending (c : Cluster) (name : String) (ix : EsIndex) (version : Whole)
    (stored : List Product) : Prop where
  free : c.find m.aliasName = none
  aliases : c.aliases m.aliasName = [name]
  kept : c.find name = some ix
  target : c.find (m.physical version.succ) = some (m.loadedIndex stored)

/-- The flip to the next version took effect. -/
structure Flipped (c : Cluster) (name : String) (version : Whole) (products : List Product) : Prop where
  free : c.find m.aliasName = none
  aliases : c.aliases m.aliasName =
    if name = m.physical version then [m.physical version.succ]
    else [name, m.physical version.succ]
  served : c.find (m.physical version.succ) = some (m.loadedIndex products)

variable {m} {s : Cluster} {name : String} {ix : EsIndex} {version : Whole}

theorem physical_ne (v : Whole) : m.physical v ≠ m.aliasName :=
  physicalIndexName_ne m.aliasName v

/-- The alias of a live image is not an index. -/
theorem Live.ne_alias (h : m.Live s name ix version) : name ≠ m.aliasName :=
  ne_of_parsePhysicalIndexVersion h.parses

theorem Live.alias (h : m.Live s name ix version) :
    s.find m.aliasName = none ∧ s.aliases m.aliasName = [name] :=
  Cluster.alias_of_resolve h.resolves h.ne_alias

/-- Creating and loading the next version. -/
theorem Live.pending (h : m.Live s name ix version) (hnone : s.find (m.physical version.succ) = none)
    (stored : List Product) :
    m.Pending ((m.prepared s version.succ).load (m.physical version.succ) stored) name ix version
      stored := by
  have hname : name ≠ m.physical version.succ := by
    rintro rfl
    rw [h.found] at hnone
    cases hnone
  have hfind : ∀ n, n ≠ m.physical version.succ →
      ((m.prepared s version.succ).load (m.physical version.succ) stored).find n = s.find n := by
    intro n hn
    unfold prepared
    rw [Cluster.find_load_of_ne _ hn, Cluster.find_insert _ hnone, if_neg hn]
  have hnew : (m.prepared s version.succ).find (m.physical version.succ) = some m.emptyIndex := by
    unfold prepared
    rw [Cluster.find_insert _ hnone, if_pos rfl]
  exact
    { free := by rw [hfind _ (physical_ne _).symm, h.alias.1]
      aliases := by
        unfold prepared
        rw [Cluster.aliases_load, Cluster.aliases_insert, h.alias.2]
      kept := by rw [hfind _ hname, h.found]
      target := by
        rw [Cluster.find_load_self hnew]
        simp only [emptyIndex, loadedIndex, upsert_empty] }

theorem Pending.resolve {stored : List Product} (h : m.Pending s name ix version stored) :
    s.resolve m.aliasName = [name] := by
  rw [Cluster.resolve_eq_aliases h.free, h.aliases]

/-- The flip of a loaded migration. -/
theorem Pending.flip {products : List Product} (h : m.Pending s name ix version products)
    (hne : name ≠ m.physical version.succ) :
    m.Flipped (m.flippedCluster s ⟨version.succ, version⟩) name version products := by
  have hfind : ∀ n, (m.flippedCluster s ⟨version.succ, version⟩).find n = s.find n := by
    intro n
    unfold flippedCluster
    rw [Cluster.find_addAlias, Cluster.find_removeAlias]
  refine ⟨by rw [hfind, h.free], ?_, by rw [hfind, h.target]⟩
  unfold flippedCluster
  rw [Cluster.aliases_addAlias, Cluster.aliases_removeAlias, h.aliases]
  · by_cases hname : name = m.physical version
    · simp [hname]
    · simp [hname, hne.symm]
  · rw [Cluster.find_removeAlias, h.target]
    rfl

/-- Pruning leaves what the alias serves. -/
theorem Flipped.erase {products : List Product} (h : m.Flipped s name version products) {n : String}
    {v : Whole} (hv : parsePhysicalIndexVersion m.aliasName n = .ok v) (hlt : v < version)
    (hname : parsePhysicalIndexVersion m.aliasName name = .ok version) :
    m.Flipped (s.erase n) name version products := by
  have hne : name ≠ n := by
    rintro rfl
    rw [hname] at hv
    rw [Except.ok.inj hv, Whole.lt_def] at hlt
    exact lt_irrefl _ hlt
  have hnew : m.physical version.succ ≠ n := by
    rintro rfl
    rw [parsePhysicalIndexVersion_name hv, Whole.lt_def] at hlt
    exact absurd hlt (not_lt.mpr (Whole.le_succ version))
  refine ⟨?_, ?_, ?_⟩
  · rw [Cluster.find_erase]
    split_ifs
    · rfl
    · exact h.free
  · rw [Cluster.aliases_erase_of_notMem, h.aliases]
    rw [h.aliases]
    split_ifs
    · simpa using hnew.symm
    · simpa using ⟨hne.symm, hnew.symm⟩
  · rw [Cluster.find_erase, if_neg hnew, h.served]

/-! ## A migration is invisible until it is complete -/

/-- What the alias serves in a run from `n` to the next version. -/
def ServesBeforeAfter (m : Image) (ix : EsIndex) (n : Whole) (products : List Product)
    (flip : Bool) (s : Cluster) : Prop :=
  if flip then
    s.resolve m.aliasName = [m.physical n.succ] ∧
      s.find (m.physical n.succ) = some (m.loadedIndex products)
  else s.resolve m.aliasName = [m.physical n] ∧ s.find (m.physical n) = some ix

theorem runs_seed_invisible {n : Whole} (products : List Product)
    (hres : s.resolve m.aliasName = [m.physical n]) (hix : s.find (m.physical n) = some ix)
    (hfp : readFingerprint (some ix.mappings) ≠ some m.fingerprint)
    (hnone : s.find (m.physical n.succ) = none) :
    Runs (fun _ => True) (m.ServesBeforeAfter ix n products) (fun _ _ _ => True) (m.seed products)
      false s := by
  by_cases hread : m.Readable s
  · obtain ⟨version, hlive⟩ : ∃ v, m.Live s (m.physical n) ix v := by
      rcases hread with h | ⟨name, ix', v, hlive⟩
      · rw [hres] at h
        cases h
      · obtain rfl := List.singleton_inj.mp (hres.symm.trans hlive.resolves)
        obtain rfl := Option.some.inj (hix.symm.trans hlive.found)
        exact ⟨v, hlive⟩
    obtain rfl : version = n := parsePhysicalIndexVersion_name hlive.parses
    have hne : m.physical version ≠ m.physical version.succ := by
      intro he
      rw [← he, hix] at hnone
      cases hnone
    have hpending := fun stored => hlive.pending hnone stored
    refine runs_seed_migrating (I := fun s => m.Flipped s (m.physical version) version products)
      hlive hfp hnone rfl ⟨hres, hix⟩ (fun stored => ⟨(hpending stored).resolve, (hpending stored).kept⟩)
      (fun _ _ => trivial) (fun _ _ _ => trivial) (fun _ _ _ _ _ _ => trivial) (fun _ _ => trivial)
      (fun _ => (hpending products).flip hne) (fun s hs => ?_)
      (fun s name v hv hlt hs => hs.erase hv hlt hlive.parses) (fun _ _ _ _ => trivial)
      fun _ _ _ _ _ => trivial
    refine ⟨?_, hs.served⟩
    rw [Cluster.resolve_eq_aliases hs.free, hs.aliases, if_pos rfl]
  · exact runs_seed_refused (Or.inl hread) ⟨hres, hix⟩ fun _ => trivial

/-- **A migration is invisible until it is complete.** Wherever a run from version `n` stops: as
long as no alias flip took effect the alias is on `n`, which is untouched; from the flip on it is on
the next version alone, which holds exactly the products. -/
theorem migration_invisible (m : Image) {s : Cluster} {ix : EsIndex} {n : Whole}
    (products : List Product) (hres : s.resolve m.aliasName = [m.physical n])
    (hix : s.find (m.physical n) = some ix)
    (hfp : readFingerprint (some ix.mappings) ≠ some m.fingerprint)
    (hnone : s.find (m.physical n.succ) = none) (fates : List Fate) :
    let t := (Program.run elasticsearch (m.seed products, s) fates).2
    let calls := Program.history elasticsearch (m.seed products, s) fates
    (flipped calls = false →
      t.resolve m.aliasName = [m.physical n] ∧ t.find (m.physical n) = some ix) ∧
    (flipped calls = true → t.resolve m.aliasName = [m.physical n.succ] ∧
      ∃ served, t.find (m.physical n.succ) = some served ∧
        served.mappings = m.emptyIndex.mappings ∧ served.documents = catalogue products) := by
  intro t calls
  have hrun := runs_seed_invisible products hres hix hfp hnone [] rfl
  have h : m.ServesBeforeAfter ix n products (flipped calls) t :=
    Program.Upholds.stop hrun fun _ _ => trivial
  unfold ServesBeforeAfter at h
  constructor
  · intro hf
    rw [hf, if_neg Bool.false_ne_true] at h
    exact h
  · intro hf
    rw [hf, if_pos rfl] at h
    exact ⟨h.1, _, h.2, rfl, rfl⟩

/-- From a first version of the previous image, a whole run ends on the second. -/
theorem migration_invisible_drill :
    let s := previousImage.seeded [drill "p-0" 5] emptyCluster
    let products := (loadProducts currentImage.parseDate [drill "p-1" 9]).products
    let t := (Program.run elasticsearch (currentImage.seed products, s) (List.replicate 9 calm)).2
    t.resolve "products" = ["products_v2"] ∧ ∃ served, t.find "products_v2" = some served ∧
      served.mappings = currentImage.emptyIndex.mappings ∧ served.documents = catalogue products := by
  intro s products
  have hsome : (s.find (currentImage.physical firstVersion)).isSome := by decide +kernel
  have hnext : currentImage.physical firstVersion.succ = "products_v2" := by decide +kernel
  have hfp : readFingerprint ((s.find (currentImage.physical firstVersion)).map (·.mappings)) ≠
      some currentImage.fingerprint := by decide +kernel
  obtain ⟨ix, hix⟩ := Option.isSome_iff_exists.mp hsome
  rw [hix, Option.map_some] at hfp
  have h := (migration_invisible currentImage products (by decide +kernel) hix hfp (by decide +kernel)
    (List.replicate 9 calm)).2 (by decide +kernel)
  rw [hnext] at h
  exact h

/-! ## The command -/

theorem runs_runSeed {J : Bool → Cluster → Prop} {ok : Fate → Prop}
    {K : Bool → SeedEnd → Cluster → Prop} {records : List RawProduct} {flip : Bool}
    (h : Runs ok J (fun flip r s => J flip s ∧
      K flip (seedEnd (loadProducts m.parseDate records).invalid r) s)
      (m.seed (loadProducts m.parseDate records).products) flip s) :
    Runs ok J K (m.runSeed records) flip s := by
  unfold runSeed
  exact Runs.bind (h.mono fun _ _ _ hr => runs_finished hr.1 hr.2)

end Image

end AdvancedSearch
