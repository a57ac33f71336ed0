import Mathlib.Data.List.Infix
import AdvancedSearch.Index.Naming
import AdvancedSearch.Index.Runs

/-!
# What pruning deletes

A flip on a cluster that nobody else changes, whose listing of `<alias>_v*` may leave out any index that
is not spelled as a version of the alias. It deletes the versions before the retained one, and no index
of another alias, however the wildcard matches it (`prunes_exactly`).
-/

namespace AdvancedSearch

open Js Service

/-! ## The wildcard -/

/-- A pattern that ends in a wildcard matches what begins like it. -/
theorem matchesExpression_wildcard (pattern rest : List Char) :
    Cluster.matchesExpression (pattern ++ ['*']) (pattern ++ rest) = true := by
  induction pattern with
  | nil =>
    show rest.tails.any (fun more => Cluster.matchesExpression [] more) = true
    exact List.any_eq_true.mpr ⟨[], (List.mem_tails _ _).mpr List.nil_suffix, rfl⟩
  | cons c pattern ih =>
    by_cases hc : c = '*'
    · subst hc
      show ('*' :: (pattern ++ rest)).tails.any
        (fun more => Cluster.matchesExpression (pattern ++ ['*']) more) = true
      exact List.any_eq_true.mpr ⟨pattern ++ rest, (List.mem_tails _ _).mpr (List.suffix_cons '*' _), ih⟩
    · show Cluster.matchesExpression (c :: (pattern ++ ['*'])) (c :: (pattern ++ rest)) = true
      unfold Cluster.matchesExpression
      simp [ih]

/-- What is read as a version of an alias matches the wildcard over its versions. -/
theorem matchesExpression_of_parse {aliasName name : String} {version : Whole}
    (h : parsePhysicalIndexVersion aliasName name = .ok version) :
    Cluster.matchesExpression (aliasName ++ "_v*").toList name.toList = true := by
  have hmatch := matchesExpression_wildcard (aliasName.toList ++ ['_', 'v']) (versionDigits name)
  have hpattern : (aliasName ++ "_v*").toList = aliasName.toList ++ ['_', 'v'] ++ ['*'] := by simp
  have hname : name.toList = aliasName.toList ++ ['_', 'v'] ++ versionDigits name := by
    conv_lhs => rw [(parsePhysicalIndexVersion_reads h).spelled]
    simp
  rwa [hpattern, hname]

/-! ## Deleting several indices -/

namespace Cluster

def eraseAll (c : Cluster) (names : List String) : Cluster := names.foldl erase c

theorem find_eraseAll (c : Cluster) (names : List String) (n : String) :
    (c.eraseAll names).find n = if n ∈ names then none else c.find n := by
  induction names generalizing c with
  | nil => rfl
  | cons name names ih =>
    show ((c.erase name).eraseAll names).find n = _
    rw [ih, find_erase]
    by_cases hn : n = name
    · rw [if_pos hn, ite_self, if_pos (hn ▸ List.mem_cons_self)]
    · rw [if_neg hn]
      exact ite_congr (by simp [hn]) (fun _ => rfl) fun _ => rfl

theorem mem_aliases_eraseAll (c : Cluster) (names : List String) (n a : String) :
    n ∈ (c.eraseAll names).aliases a ↔ n ∈ c.aliases a ∧ n ∉ names := by
  induction names generalizing c with
  | nil => exact ⟨fun h => ⟨h, List.not_mem_nil⟩, fun h => h.1⟩
  | cons name names ih =>
    show n ∈ ((c.erase name).eraseAll names).aliases a ↔ _
    rw [ih, aliases_erase, List.mem_filter, List.mem_cons, not_or, decide_eq_true_eq, and_assoc]

end Cluster

/-! ## A cluster that lists sparingly -/

/-- What the world decides about one call, and which other names a listing shows. -/
structure ListingFate extends Fate where
  shows : String → Bool

/-- Whether a name is spelled as a version of an alias. -/
def isVersionOf (aliasName name : String) : Bool :=
  (tryParsePhysicalIndexVersion aliasName name).any fun version =>
    physicalIndexName aliasName version = name

/-- The cluster, but a listing may leave out what is not a version of the alias. -/
def sparingly (aliasName : String) : Server EsCall EsAnswer Cluster ListingFate where
  serve c call f :=
    match call with
    | .get index =>
      let (answer, c) := elasticsearch.serve c (.get index) f.toFate
      (answer.map fun names => names.filter fun name => f.shows name || isVersionOf aliasName name, c)
    | call => elasticsearch.serve c call f.toFate

theorem serve_sparingly {aliasName : String} {s : Cluster} {call : EsCall} {f : ListingFate}
    (hcall : ∀ index, call ≠ .get index) :
    (sparingly aliasName).serve s call f = elasticsearch.serve s call f.toFate := by
  cases call with
  | get index => exact absurd rfl (hcall index)
  | _ => rfl

/-- How a method ends. -/
def Ends {α : Type} (aliasName : String) (ok : Fate → Prop) (K : α → Cluster → Prop)
    (p : Program EsCall EsAnswer α) (s : Cluster) : Prop :=
  ∀ past, Program.Upholds (sparingly aliasName) (fun f => ok f.toFate) (fun _ _ => True)
    (fun _ a s => K a s) p past s

section

variable {α β : Type} {aliasName : String} {ok : Fate → Prop} {s : Cluster} {t : AdapterState}

theorem ends_finished {K : α → Cluster → Prop} {a : α} (h : K a s) :
    Ends aliasName ok K (.finished a) s :=
  fun _ => ⟨trivial, h⟩

theorem ends_bind {K : Except SeedError α × AdapterState → Cluster → Prop} {x : AdapterM β}
    {k : β → AdapterM α}
    (h : Ends aliasName ok (fun r s =>
      match r with
      | (.ok b, t) => Ends aliasName ok K (k b t) s
      | (.error e, t) => K (.error e, t) s) (x t) s) : Ends aliasName ok K ((x >>= k) t) s := by
  intro past
  rw [Client.bind_apply]
  refine Program.Upholds.bind ((h past).mono (fun _ _ _ => trivial) ?_)
  rintro past ⟨_ | b, u⟩ s hr
  · exact ⟨trivial, hr⟩
  · exact hr past

/-- A call other than `get`. -/
theorem ends_call {c : EsCall} {K : Except SeedError (Response c) × AdapterState → Cluster → Prop}
    (hc : ∀ index, c ≠ .get index) (failed : ∀ e s, CanFail ok → K (.error e, t) s)
    (answered : ∀ f, K ((s.apply c f).1.mapError .elasticsearch, t) (s.apply c f).2) :
    Ends aliasName ok K (call c t) s := by
  intro past
  refine ⟨trivial, fun f hf => ?_⟩
  rw [serve_sparingly hc]
  cases hd : f.delivery with
  | answered =>
    rw [serve_answered hd]
    have hK := answered f.toFate
    cases hanswer : (s.apply c f.toFate).1 with
    | ok r => rw [hanswer] at hK; exact ⟨trivial, hK⟩
    | error e => rw [hanswer] at hK; exact ⟨trivial, hK⟩
  | lost e =>
    rw [serve_lost hd]
    exact ⟨trivial, failed _ _ ⟨f.toFate, hf, by simp [Fate.fails, hd]⟩⟩
  | unreached e =>
    rw [serve_unreached hd]
    exact ⟨trivial, failed _ _ ⟨f.toFate, hf, by simp [Fate.fails, hd]⟩⟩

/-- A listing: names that exist, once, all versions of the alias among them. -/
theorem ends_get {K : Except SeedError (List String) × AdapterState → Cluster → Prop} {pattern : String}
    (failed : ∀ e s, CanFail ok → K (.error e, t) s)
    (answered : ∀ names : List String, names.Nodup → (∀ n ∈ names, (s.find n).isSome) →
      (∀ n, (s.find n).isSome → Cluster.matchesExpression pattern.toList n.toList →
        isVersionOf aliasName n → n ∈ names) → K (.ok names, t) s) :
    Ends aliasName ok K (call (.get pattern) t) s := by
  intro past
  refine ⟨trivial, fun f hf => ?_⟩
  have hserve : (sparingly aliasName).serve s (.get pattern) f =
      ((elasticsearch.serve s (.get pattern) f.toFate).1.map fun names : List String =>
        names.filter fun name => f.shows name || isVersionOf aliasName name,
        (elasticsearch.serve s (.get pattern) f.toFate).2) := rfl
  rw [hserve]
  cases hd : f.delivery with
  | answered =>
    obtain ⟨names, happ, -, hnodup, hmem⟩ := @Cluster.apply_get s f.toFate pattern
    rw [serve_answered hd, happ]
    refine ⟨trivial, answered _ (hnodup.sublist List.filter_sublist) (fun n hn => ?_)
      fun n hn hmatch hversion => ?_⟩
    · exact ((hmem n).mp (List.mem_of_mem_filter hn)).1
    · refine List.mem_filter.mpr ⟨(hmem n).mpr ⟨hn, hmatch⟩, ?_⟩
      rw [hversion, Bool.or_true]
  | lost e =>
    rw [serve_lost hd]
    exact ⟨trivial, failed _ _ ⟨f.toFate, hf, by simp [Fate.fails, hd]⟩⟩
  | unreached e =>
    rw [serve_unreached hd]
    exact ⟨trivial, failed _ _ ⟨f.toFate, hf, by simp [Fate.fails, hd]⟩⟩

/-- The loop of deletions. -/
theorem ends_deleteAll {stale : List (String × Whole)}
    {K : Except SeedError PUnit × AdapterState → Cluster → Prop}
    (hdistinct : (stale.map Prod.fst).Nodup) (hexists : ∀ p ∈ stale, (s.find p.1).isSome)
    (failed : ∀ e s, CanFail ok → K (.error e, t) s)
    (done : K (.ok (), t) (s.eraseAll (stale.map Prod.fst))) :
    Ends aliasName ok K ((stale.forM fun index => call (.delete index.1)) t) s := by
  induction stale generalizing s with
  | nil => exact ends_finished done
  | cons p stale ih =>
    rw [List.map_cons, List.nodup_cons] at hdistinct
    rw [List.forM_eq_forM, List.forM_cons]
    refine ends_bind (ends_call (c := .delete p.1) (fun _ h => by cases h) failed fun f => ?_)
    rw [Cluster.apply_delete (hexists p List.mem_cons_self)]
    refine ih hdistinct.2 (fun q hq => ?_) done
    have hne : q.1 ≠ p.1 := fun he => hdistinct.1 (he ▸ List.mem_map_of_mem hq)
    rw [Cluster.find_erase, if_neg hne]
    exact hexists q (List.mem_cons_of_mem _ hq)

end

/-! ## A flip -/

/-- An index is as it was, and the aliases on it. -/
def Untouched (c c' : Cluster) (name : String) : Prop :=
  c'.find name = c.find name ∧ ∀ a, name ∈ c'.aliases a ↔ name ∈ c.aliases a

/-- What a flip from a version to the next one leaves. -/
structure Pruned (m : Image) (replaced next : Whole) (c c' : Cluster) (publication : IndexPublication) :
    Prop where
  /-- No version before the retained one remains. -/
  superseded : ∀ k : Whole, 1 ≤ k.val → k < replaced → c'.find (m.physical k) = none
  served : (c'.find (m.physical next)).isSome ∧ c'.find (m.physical next) = c.find (m.physical next) ∧
    m.physical next ∈ c'.aliases m.aliasName
  retained : (c'.find (m.physical replaced)).isSome ∧
    c'.find (m.physical replaced) = c.find (m.physical replaced)
  /-- The versions of other aliases are as they were, -/
  others : ∀ a ≠ m.aliasName, ∀ k, Untouched c c' (physicalIndexName a k)
  /-- and so is every index whose name is not read. -/
  unread : ∀ name, tryParsePhysicalIndexVersion m.aliasName name = none → Untouched c c' name
  sorted : publication.prunedVersions.Pairwise (· ≤ ·)
  /-- The versions reported are those of the indices that are gone. -/
  reported : publication.prunedVersions.Perm
    (((c.indices.map Prod.fst).filter fun name => (c'.find name).isNone).filterMap
      (tryParsePhysicalIndexVersion m.aliasName))

instance : Std.Total fun a b : Whole => a ≤ b := ⟨fun a b => Nat.le_total a.val b.val⟩

instance : IsTrans Whole fun a b => a ≤ b := ⟨fun _ _ _ => Nat.le_trans⟩

namespace Image

variable {m : Image} {c : Cluster} {pending : PendingVersion}

theorem find_flippedCluster (name : String) : (m.flippedCluster c pending).find name = c.find name := by
  unfold flippedCluster
  rw [Cluster.find_addAlias, Cluster.find_removeAlias]

/-- A flip moves the alias between two indices only. -/
theorem mem_aliases_flippedCluster {name : String} (hold : name ≠ m.physical pending.replacedVersion)
    (hnew : name ≠ m.physical pending.version) (a : String) :
    name ∈ (m.flippedCluster c pending).aliases a ↔ name ∈ c.aliases a := by
  unfold flippedCluster
  rw [Cluster.mem_aliases_addAlias _ hnew, Cluster.mem_aliases_removeAlias _ hold]

theorem mem_flippedCluster (hnew : (c.find (m.physical pending.version)).isSome) :
    m.physical pending.version ∈ (m.flippedCluster c pending).aliases m.aliasName := by
  unfold flippedCluster
  rw [Cluster.aliases_addAlias _ (by rwa [Cluster.find_removeAlias])]
  split_ifs with hmem
  · exact hmem
  · exact List.mem_append_right _ (List.mem_singleton_self _)

/-- What is stale in a listing, from what is listed and what is read. -/
structure StaleListing (m : Image) (retained : Whole) (c : Cluster) (stale : List (String × Whole)) : Prop where
  distinct : (stale.map Prod.fst).Nodup
  exist : ∀ p ∈ stale, (c.find p.1).isSome
  read : ∀ p ∈ stale, parsePhysicalIndexVersion m.aliasName p.1 = .ok p.2 ∧ p.2 < retained
  all : ∀ k : Whole, (c.find (m.physical k)).isSome →
    parsePhysicalIndexVersion m.aliasName (m.physical k) = .ok k → k < retained →
      (m.physical k, k) ∈ stale

theorem stale_of_listing {retained : Whole} {names : List String} (hnodup : names.Nodup)
    (hexist : ∀ n ∈ names, (c.find n).isSome)
    (hlisted : ∀ n, (c.find n).isSome →
      Cluster.matchesExpression (m.aliasName ++ "_v*").toList n.toList →
        isVersionOf m.aliasName n → n ∈ names) :
    StaleListing m retained c (m.staleIndices names retained) where
  distinct := nodup_staleIndices hnodup retained
  exist p hp := hexist _ (mem_staleIndices hp).1
  read p hp := (mem_staleIndices hp).2
  all k hk hparse hlt := by
    refine staleIndices_of_mem (hlisted _ hk (matchesExpression_of_parse hparse) ?_) hparse hlt
    unfold isVersionOf
    rw [tryParsePhysicalIndexVersion_eq_some.mpr hparse]
    exact decide_eq_true rfl

theorem pruned_of_stale {stale : List (String × Whole)}
    (hspellable : Spellable m.aliasName) (hpos : 1 ≤ pending.replacedVersion.val)
    (hnext : pending.version = nextPhysicalVersion (some pending.replacedVersion))
    (hn : pending.replacedVersion.val + 1 < 2 ^ 53)
    (hold : (c.find (m.physical pending.replacedVersion)).isSome)
    (hnew : (c.find (m.physical pending.version)).isSome)
    (h : StaleListing m pending.replacedVersion c stale) :
    Pruned m pending.replacedVersion pending.version c
      ((m.flippedCluster c pending).eraseAll (stale.map Prod.fst))
      { published := true
        version := pending.version
        retainedVersion := some pending.replacedVersion
        prunedVersions := (stale.map Prod.snd).insertionSort fun a b => a ≤ b } := by
  have hversion : pending.version.val = pending.replacedVersion.val + 1 := by
    rw [hnext]
    exact Whole.succ_val_of_lt hn
  have hparse : ∀ k : Whole, 1 ≤ k.val → k.val < 2 ^ 53 →
      parsePhysicalIndexVersion m.aliasName (m.physical k) = .ok k := fun k h1 hk =>
    parsePhysicalIndexVersion_of_lt hspellable h1 hk
  have hkept : ∀ k : Whole, 1 ≤ k.val → k.val < 2 ^ 53 → ¬ k < pending.replacedVersion →
      m.physical k ∉ stale.map Prod.fst := by
    intro k h1 hk hnot hmem
    obtain ⟨p, hp, hname⟩ := List.mem_map.mp hmem
    obtain ⟨hread, hlt⟩ := h.read p hp
    rw [hname, hparse k h1 hk, Except.ok.injEq] at hread
    exact hnot (hread ▸ hlt)
  have hfind : ∀ name, name ∉ stale.map Prod.fst →
      ((m.flippedCluster c pending).eraseAll (stale.map Prod.fst)).find name = c.find name := by
    intro name hname
    rw [Cluster.find_eraseAll, if_neg hname, find_flippedCluster]
  have hunread : ∀ name, tryParsePhysicalIndexVersion m.aliasName name = none →
      Untouched c ((m.flippedCluster c pending).eraseAll (stale.map Prod.fst)) name := by
    intro name hname
    have hnot : ∀ v, parsePhysicalIndexVersion m.aliasName name ≠ .ok v := by
      intro v hv
      rw [tryParsePhysicalIndexVersion_eq_some.mpr hv] at hname
      cases hname
    have hstale : name ∉ stale.map Prod.fst := by
      intro hmem
      obtain ⟨p, hp, rfl⟩ := List.mem_map.mp hmem
      exact hnot _ (h.read p hp).1
    refine ⟨hfind name hstale, fun a => ?_⟩
    rw [Cluster.mem_aliases_eraseAll, mem_aliases_flippedCluster]
    · exact and_iff_left hstale
    · rintro rfl
      exact hnot _ (hparse _ hpos (by omega))
    · rintro rfl
      exact hnot _ (hparse _ (by omega) (by omega))
  have hserved := hkept pending.version (by omega) (by omega) (by rw [Whole.lt_def]; omega)
  have hretained := hkept pending.replacedVersion hpos (by omega) (by rw [Whole.lt_def]; omega)
  refine
    { superseded := fun k h1 hlt => ?_
      served := ⟨by rwa [hfind _ hserved], hfind _ hserved, ?_⟩
      retained := ⟨by rwa [hfind _ hretained], hfind _ hretained⟩
      others := fun a ha k => hunread _ ?_
      unread := hunread
      sorted := List.pairwise_insertionSort _ _
      reported := (List.perm_insertionSort _ _).trans ?_ }
  · rw [Cluster.find_eraseAll, find_flippedCluster]
    split_ifs with hmem
    · rfl
    · by_contra hsome
      rw [Whole.lt_def] at hlt
      have hin := h.all k (Option.isSome_iff_ne_none.mpr hsome) (hparse k h1 (by omega)) hlt
      exact hmem (List.mem_map_of_mem hin)
  · exact (Cluster.mem_aliases_eraseAll ..).mpr ⟨mem_flippedCluster hnew, hserved⟩
  · cases hread : tryParsePhysicalIndexVersion m.aliasName (physicalIndexName a k) with
    | none => rfl
    | some v =>
      rw [tryParsePhysicalIndexVersion_eq_some] at hread
      exact absurd (alias_of_parsePhysicalIndexVersion hread) ha
  · have hgone : (stale.map Prod.fst).Perm ((c.indices.map Prod.fst).filter fun name =>
        (((m.flippedCluster c pending).eraseAll (stale.map Prod.fst)).find name).isNone) := by
      refine (List.perm_ext_iff_of_nodup h.distinct (c.distinct.sublist List.filter_sublist)).mpr
        fun name => ?_
      have hexists : name ∈ c.indices.map Prod.fst ↔ (c.find name).isSome := by
        unfold Cluster.find
        rw [List.lookup_isSome_iff, List.mem_map]
        refine exists_congr fun p => and_congr_right fun _ => ?_
        rw [beq_iff_eq, eq_comm]
      rw [List.mem_filter, hexists, Cluster.find_eraseAll, find_flippedCluster]
      split_ifs with hmem
      · obtain ⟨p, hp, rfl⟩ := List.mem_map.mp hmem
        exact iff_of_true hmem ⟨h.exist p hp, rfl⟩
      · refine iff_of_false hmem fun hname => ?_
        rw [Option.isNone_iff_eq_none] at hname
        rw [hname.2] at hname
        cases hname.1
    refine List.Perm.trans (List.Perm.of_eq ?_) (hgone.filterMap _)
    rw [List.filterMap_map]
    refine (List.filterMap_eq_map_iff_forall_eq_some.mpr fun p hp => ?_).symm
    exact tryParsePhysicalIndexVersion_eq_some.mpr (h.read p hp).1

/-- A publication that returns has pruned, and it returns if no call can fail and both versions exist. -/
theorem ends_publishIndex {ok : Fate → Prop} {t : AdapterState} (ht : t.pending = some pending)
    (hspellable : Spellable m.aliasName) (hpos : 1 ≤ pending.replacedVersion.val)
    (hnext : pending.version = nextPhysicalVersion (some pending.replacedVersion))
    (hn : pending.replacedVersion.val + 1 < 2 ^ 53) :
    Ends m.aliasName ok (fun r c' =>
      match r.1 with
      | .ok publication => Pruned m pending.replacedVersion pending.version c c' publication
      | .error _ => CanFail ok ∨ c.find (m.physical pending.replacedVersion) = none ∨
          c.find (m.physical pending.version) = none) (m.publishIndex t) c := by
  unfold publishIndex
  refine ends_bind (ends_finished ?_)
  simp only [ht]
  refine ends_bind (ends_call (c := .updateAliases (m.flipActions pending)) (fun _ h => by cases h)
    (fun _ _ hfail => Or.inl hfail) fun f => ?_)
  rcases Option.eq_none_or_eq_some (c.find (m.physical pending.replacedVersion)) with hold | ⟨_, hold⟩
  · rw [apply_flip_of_missing hold]
    exact Or.inr (Or.inl hold)
  rcases Option.eq_none_or_eq_some (c.find (m.physical pending.version)) with hnew | ⟨_, hnew⟩
  · rw [apply_flip_of_absent (Option.isSome_of_eq_some hold) hnew]
    exact Or.inr (Or.inr hnew)
  rw [apply_flip (Option.isSome_of_eq_some hnew) (Option.isSome_of_eq_some hold)]
  unfold pruneOlderThan
  refine ends_bind (ends_bind (ends_get (fun _ _ hfail => Or.inl hfail)
    fun names hnodup hexist hlisted => ?_))
  simp only [find_flippedCluster] at hexist hlisted
  have hstale : StaleListing m pending.replacedVersion c (m.staleIndices names pending.replacedVersion) :=
    stale_of_listing hnodup hexist hlisted
  refine ends_bind (ends_deleteAll hstale.distinct (fun p hp => ?_) (fun _ _ hfail => Or.inl hfail)
    (ends_finished ?_))
  · rw [find_flippedCluster]
    exact hstale.exist p hp
  · exact ends_bind (ends_finished (ends_finished (pruned_of_stale hspellable hpos hnext hn
      (Option.isSome_of_eq_some hold) (Option.isSome_of_eq_some hnew) hstale)))

/-- **What pruning deletes.** A pending flip from a version that was read to the next one, with nobody
else changing the cluster: undisturbed it returns when both indices exist, and whenever it returns,
whatever else the listing shows, it has deleted the versions before the retained one and touched no
index of another alias and none whose name is not read. -/
theorem prunes_exactly (m : Image) {name : String} {t : AdapterState} {pending : PendingVersion}
    (ht : t.pending = some pending)
    (hread : parsePhysicalIndexVersion m.aliasName name = .ok pending.replacedVersion)
    (hnext : pending.version = nextPhysicalVersion (some pending.replacedVersion))
    (hn : pending.replacedVersion.val + 1 < 2 ^ 53) (c : Cluster) :
    (∀ fates : ℕ → ListingFate, (∀ i, Undisturbed (fates i).toFate) →
      (c.find (m.physical pending.replacedVersion)).isSome →
      (c.find (m.physical pending.version)).isSome →
      ∃ calls publication t' c', Program.run (sparingly m.aliasName) (m.publishIndex t, c)
        ((List.range calls).map fates) = (.finished (.ok publication, t'), c')) ∧
      ∀ (fates : List ListingFate) publication t' c',
        Program.run (sparingly m.aliasName) (m.publishIndex t, c) fates =
          (.finished (.ok publication, t'), c') →
        Pruned m pending.replacedVersion pending.version c c' publication := by
  have hreads := parsePhysicalIndexVersion_reads hread
  have hends (ok : Fate → Prop) := @ends_publishIndex m c pending ok t ht hreads.spellable
    (parsePhysicalIndexVersion_pos hread) hnext hn
  refine ⟨fun fates hok hold hnew => ?_, fun fates publication t' c' hrun => ?_⟩
  · obtain ⟨calls, ⟨_ | publication, t'⟩, c', hrun, hend⟩ :=
      Program.Upholds.completes (hends Undisturbed []) hok
    · rcases hend with hfail | hnone | hnone
      · exact absurd hfail not_canFail_undisturbed
      · rw [hnone] at hold
        cases hold
      · rw [hnone] at hnew
        cases hnew
    · exact ⟨calls, publication, t', c', hrun⟩
  · exact Program.Upholds.finish (hends (fun _ => True) []) (fun _ _ => trivial) hrun

end Image

/-- Three versions of `products`, the second one served, and one of `products_vintage`. -/
def vintageCluster : Cluster :=
  let index : EsIndex := ⟨[], ⟨none, []⟩, fun _ => none⟩
  ((((emptyCluster.insert "products_v1" index).insert "products_v2" index).insert "products_v3"
    index).insert "products_vintage_v1" index).addAlias "products_v2" "products"

/-- The first version goes, the other catalogue stays. -/
theorem prunes_exactly_vintage :
    ∃ calls publication t' c', Program.run (sparingly "products")
        (currentImage.publishIndex ⟨some (Whole.small 2 (by decide)),
          some ⟨Whole.small 3 (by decide), Whole.small 2 (by decide)⟩⟩, vintageCluster)
        ((List.range calls).map fun _ => ⟨calm, fun _ => true⟩) =
          (.finished (.ok publication, t'), c') ∧
      c'.find "products_v1" = none ∧ (c'.find "products_vintage_v1").isSome := by
  have hread : parsePhysicalIndexVersion "products" "products_v2" =
      .ok (Whole.small 2 (by decide)) := by decide +kernel
  let t : AdapterState :=
    ⟨some (Whole.small 2 (by decide)),
      some ⟨Whole.small 3 (by decide), Whole.small 2 (by decide)⟩⟩
  obtain ⟨hreturns, hpruned⟩ := Image.prunes_exactly currentImage (t := t) rfl hread
    (by decide +kernel) (by decide +kernel) vintageCluster
  obtain ⟨calls, publication, t', c', hrun⟩ := hreturns (fun _ => ⟨calm, fun _ => true⟩)
    (fun _ => ⟨rfl, fun _ => rfl⟩) (by decide +kernel) (by decide +kernel)
  have h := hpruned _ _ _ _ hrun
  refine ⟨calls, publication, t', c', hrun,
    h.superseded firstVersion (by decide +kernel) (by decide +kernel), ?_⟩
  rw [(h.unread "products_vintage_v1" (by decide +kernel)).1]
  decide +kernel

end AdvancedSearch
