import AdvancedSearch.Index.Served

/-!
# After a run that was cut short

From an unprovisioned cluster, runs of any images under one alias, each stopped anywhere, leave the
alias absent with nothing in its place or on one version (`Reachable.standing`). The next undisturbed
run completes and publishes its definition exactly when it is not blocked by a version that an
earlier migration left behind (`recovery`).
-/

namespace AdvancedSearch

open Js Service

/-- Nothing is provisioned under the alias. -/
def Unprovisioned (aliasName : String) (c : Cluster) : Prop :=
  c.resolve aliasName = [] ∧ ∀ version, c.find (physicalIndexName aliasName version) = none

/-- What runs of the seed can leave, each of them stopped anywhere. -/
inductive Reachable (aliasName : String) : Cluster → Prop
  | start {c : Cluster} (h : Unprovisioned aliasName c) : Reachable aliasName c
  | run {c : Cluster} (h : Reachable aliasName c) (m : Image) (hm : m.aliasName = aliasName)
      (products : List Product) (fates : List Fate) :
      Reachable aliasName (Program.run elasticsearch (m.seed products, c) fates).2

/-- The alias is absent and so is the first version, or it is on one version. -/
def Standing (aliasName : String) (c : Cluster) : Prop :=
  (c.resolve aliasName = [] ∧ c.find (physicalIndexName aliasName firstVersion) = none) ∨
    ∃ version, c.resolve aliasName = [physicalIndexName aliasName version]

namespace Image

variable {m : Image} {s : Cluster}

/-- The alias is on an index that carries the image's definition. -/
def ServesDefinition (m : Image) (c : Cluster) : Prop :=
  ∃ name ix, c.resolve m.aliasName = [name] ∧ c.find name = some ix ∧
    readFingerprint (some ix.mappings) = some m.fingerprint

/-- A run is not blocked: the alias is absent, or its one index reads as a version and either carries
the image's definition or has no next version. -/
def Unblocked (m : Image) (c : Cluster) : Prop :=
  c.resolve m.aliasName = [] ∨ ∃ name ix version, m.Live c name ix version ∧
    (readFingerprint (some ix.mappings) = some m.fingerprint ∨
      c.find (m.physical version.succ) = none)

theorem refused_of_not_unblocked (h : ¬ m.Unblocked s) : m.Refused s := by
  by_cases hread : m.Readable s
  · rcases hread with hres | ⟨name, ix, version, hlive⟩
    · exact absurd (Or.inl hres) h
    · refine Or.inr ⟨name, ix, version, hlive, fun hfp => h ?_, ?_⟩
      · exact Or.inr ⟨name, ix, version, hlive, Or.inl hfp⟩
      · by_contra hnone
        exact h (Or.inr ⟨name, ix, version, hlive, Or.inr (by simpa using hnone)⟩)
  · exact Or.inl hread

/-- The version of a live index that a run named. -/
theorem Live.version_eq {n version : Whole} {ix : EsIndex}
    (h : m.Live s (m.physical n) ix version) : version = n :=
  parsePhysicalIndexVersion_name h.parses

/-- Wherever a run stops, the alias is absent or on one version. -/
theorem runs_seed_standing (hs : Standing m.aliasName s) (products : List Product) :
    Runs (fun _ => True) (fun _ => Standing m.aliasName) (fun _ _ _ => True) (m.seed products)
      false s := by
  rcases id hs with ⟨hres, -⟩ | ⟨n, hres⟩
  · have hload : ∀ stored, Standing m.aliasName
        ((m.provisioned s).load (m.physical firstVersion) stored) := fun stored =>
      Or.inr ⟨firstVersion, by rw [Cluster.resolve_load, (aliases_provisioned hres).2]; rfl⟩
    exact runs_seed_absent hres hs hload (fun _ _ => trivial) (fun _ _ _ => trivial)
      fun _ _ _ _ _ _ => trivial
  by_cases hblocked : m.Unblocked s
  · rcases hblocked with habsent | ⟨name, ix, version, hlive, hcase⟩
    · rw [hres] at habsent
      cases habsent
    obtain rfl : m.physical n = name := List.singleton_inj.mp (hres.symm.trans hlive.resolves)
    obtain rfl := hlive.version_eq
    by_cases hfp : readFingerprint (some ix.mappings) = some m.fingerprint
    · exact runs_seed_unchanged hlive hfp
        (fun _ => Or.inr ⟨version, by rw [Cluster.resolve_load, hres]⟩) (fun _ _ _ => trivial)
        fun _ _ _ _ _ _ => trivial
    · have hnone := hcase.resolve_left hfp
      have hne : m.physical version ≠ m.physical version.succ := by
        intro he
        rw [← he, hlive.found] at hnone
        cases hnone
      refine runs_seed_migrating (I := fun t => m.Flipped t (m.physical version) version products)
        hlive hfp hnone rfl hs (fun stored => Or.inr ⟨version, (hlive.pending hnone stored).resolve⟩)
        (fun _ _ => trivial) (fun _ _ _ => trivial) (fun _ _ _ _ _ _ => trivial)
        (fun _ _ => trivial) (fun _ => (hlive.pending hnone _).flip hne) (fun t ht => ?_)
        (fun s name v hv hlt hs => hs.erase hv hlt hlive.parses) (fun _ _ _ _ => trivial)
        fun _ _ _ _ _ => trivial
      refine Or.inr ⟨version.succ, ?_⟩
      rw [Cluster.resolve_eq_aliases ht.free, ht.aliases, if_pos rfl]
      rfl
  · exact runs_seed_refused (refused_of_not_unblocked hblocked) hs fun _ => trivial

/-- An undisturbed run that is not blocked publishes the image's definition. -/
theorem runs_seed_unblocked (hs : Standing m.aliasName s) (hblocked : m.Unblocked s)
    (products : List Product) :
    Runs Undisturbed (fun _ _ => True) (fun _ r t =>
      ∃ outcome, r = .ok outcome ∧ outcome.publication.isSome ∧ m.ServesDefinition t)
      (m.seed products) false s := by
  rcases hblocked with hres | ⟨name, ix, version, hlive, hcase⟩
  · have hfind : (m.provisioned s).find (m.physical firstVersion) = some m.emptyIndex := by
      rw [find_provisioned]
      rcases hs with ⟨-, hnone⟩ | ⟨n, hn⟩
      · unfold physical
        rw [hnone]
        rfl
      · rw [hres] at hn
        cases hn
    refine runs_seed_absent hres trivial (fun _ => trivial)
      (fun _ he => absurd he not_canFail_undisturbed)
      (fun _ _ he => absurd he not_canFail_undisturbed) fun outcome stored _ _ hrefuse hpub => ?_
    have hzero : outcome.bulk.failed = 0 := by
      by_contra hne
      exact not_canRefuse_undisturbed (hrefuse hne)
    refine ⟨outcome, rfl, hpub.mpr hzero, _, _,
      by rw [Cluster.resolve_load, (aliases_provisioned hres).2],
      Cluster.find_load_self hfind stored, ?_⟩
    exact readFingerprint_emptyIndex
  by_cases hfp : readFingerprint (some ix.mappings) = some m.fingerprint
  · refine runs_seed_unchanged hlive hfp (fun _ => trivial)
      (fun _ _ he => absurd he not_canFail_undisturbed) fun outcome stored _ _ hrefuse hpub => ?_
    have hzero : outcome.bulk.failed = 0 := by
      by_contra hne
      exact not_canRefuse_undisturbed (hrefuse hne)
    exact ⟨outcome, rfl, hpub.mpr hzero, _, _, by rw [Cluster.resolve_load, hlive.resolves],
      Cluster.find_load_self hlive.found stored, hfp⟩
  · have hnone := hcase.resolve_left hfp
    obtain rfl : name = m.physical version := by
      rcases hs with ⟨habsent, -⟩ | ⟨n, hn⟩
      · exact absurd habsent hlive.not_absent
      · obtain rfl := List.singleton_inj.mp (hlive.resolves.symm.trans hn)
        rw [hlive.version_eq (n := n)]
        rfl
    have hne : m.physical version ≠ m.physical version.succ := by
      intro he
      rw [← he, hlive.found] at hnone
      cases hnone
    refine runs_seed_migrating (I := fun t => m.Flipped t (m.physical version) version products)
      hlive hfp hnone rfl trivial (fun _ => trivial)
      (fun _ he => absurd he not_canFail_undisturbed)
      (fun _ _ he => absurd he not_canFail_undisturbed)
      (fun _ _ _ _ he _ => absurd he not_canRefuse_undisturbed) (fun hmissing => ?_)
      (fun _ => (hlive.pending hnone _).flip hne) (fun _ _ => trivial)
      (fun s name v hv hlt hs => hs.erase hv hlt hlive.parses)
      (fun _ _ he => absurd he not_canFail_undisturbed) fun outcome t _ hpub ht => ?_
    · rw [(hlive.pending hnone products).kept] at hmissing
      cases hmissing
    · refine ⟨outcome, rfl, hpub, _, _, ?_, ht.served, readFingerprint_emptyIndex⟩
      rw [Cluster.resolve_eq_aliases ht.free, ht.aliases, if_pos rfl]

end Image

theorem Unprovisioned.standing {aliasName : String} {c : Cluster} (h : Unprovisioned aliasName c) :
    Standing aliasName c := Or.inl ⟨h.1, h.2 firstVersion⟩

/-- **What cut-short runs leave.** -/
theorem Reachable.standing {aliasName : String} {c : Cluster} (h : Reachable aliasName c) :
    Standing aliasName c := by
  induction h with
  | start h => exact h.standing
  | run h m hm products fates ih =>
    subst hm
    exact Program.Upholds.stop (m.runs_seed_standing ih products [] rfl) fun _ _ => trivial

/-- **Recovery.** After any sequence of runs stopped anywhere, an undisturbed run completes with a
publication and its definition served, if and only if it is not blocked. -/
theorem recovery (m : Image) {c : Cluster} (h : Reachable m.aliasName c) (products : List Product)
    {fates : ℕ → Fate} (hfates : ∀ i, Undisturbed (fates i)) :
    (∃ calls outcome t,
      Program.run elasticsearch (m.seed products, c) ((List.range calls).map fates) =
        (.finished (.ok outcome), t) ∧
      outcome.publication.isSome ∧ m.ServesDefinition t) ↔ m.Unblocked c := by
  constructor
  · rintro ⟨calls, outcome, t, hrun, -⟩
    by_contra hblocked
    have hrefused : Runs (fun _ => True) (fun _ _ => True) (fun _ r _ => ∃ e, r = .error e)
        (m.seed products) false c :=
      Image.runs_seed_refused (Image.refused_of_not_unblocked hblocked) trivial fun e => ⟨e, rfl⟩
    obtain ⟨e, he⟩ := Program.Upholds.finish (hrefused [] rfl) (fun _ _ => trivial) hrun
    cases he
  · intro hblocked
    obtain ⟨calls, r, t, hrun, outcome, rfl, hpub, hserves⟩ := Program.Upholds.completes
      (Image.runs_seed_unblocked h.standing hblocked products [] rfl) hfates
    exact ⟨calls, outcome, t, hrun, hpub, hserves⟩

/-- A migration that died between its flip and its deletions does not block the next undisturbed run. -/
theorem recovery_flipped :
    let products := (loadProducts currentImage.parseDate [drill "p-1" 9]).products
    let served := (Program.run elasticsearch (previousImage.seed products, emptyCluster)
      (List.replicate 9 calm)).2
    let cut := (Program.run elasticsearch (currentImage.seed products, served)
      (List.replicate 5 calm)).2
    cut.resolve "products" = ["products_v2"] ∧ (cut.find "products_v1").isSome ∧
      ∃ calls outcome t, Program.run elasticsearch (currentImage.seed products, cut)
          ((List.range calls).map fun _ => calm) = (.finished (.ok outcome), t) ∧
        outcome.publication.isSome ∧ currentImage.ServesDefinition t := by
  intro products served cut
  have hresolve : cut.resolve "products" = ["products_v2"] := by decide +kernel
  have hfound : ((cut.find "products_v2").bind fun ix => readFingerprint (some ix.mappings)) =
      some currentImage.fingerprint := by decide +kernel
  obtain ⟨ix, hix, hfingerprint⟩ := Option.bind_eq_some_iff.mp hfound
  have hreachable : Reachable currentImage.aliasName cut :=
    .run (.run (.start ⟨rfl, fun _ => rfl⟩) previousImage rfl products _) currentImage rfl products _
  refine ⟨hresolve, by decide +kernel, ?_⟩
  refine (recovery currentImage hreachable products fun _ => ⟨rfl, fun _ => rfl⟩).mpr ?_
  exact Or.inr ⟨"products_v2", ix, firstVersion.succ,
    { resolves := hresolve, found := hix, parses := by decide +kernel }, Or.inl hfingerprint⟩

/-- Whether a run has ended in a throw. -/
def threw : Program EsCall EsAnswer (Except SeedError SeedOutcome) → Bool
  | .finished (.error _) => true
  | _ => false

/-- A migration that died after creating its version blocks the next undisturbed run. -/
theorem recovery_blocked :
    let products := (loadProducts currentImage.parseDate [drill "p-1" 9]).products
    let served := (Program.run elasticsearch (previousImage.seed products, emptyCluster)
      (List.replicate 9 calm)).2
    let cut := (Program.run elasticsearch (currentImage.seed products, served) [calm, calm]).2
    Reachable "products" cut ∧ threw
      (Program.run elasticsearch (currentImage.seed products, cut) (List.replicate 9 calm)).1 = true := by
  intro products served cut
  exact ⟨.run (.run (.start ⟨rfl, fun _ => rfl⟩) previousImage rfl products _) currentImage rfl
    products _, by decide +kernel⟩

end AdvancedSearch
