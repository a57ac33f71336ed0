import AdvancedSearch.Index.Concurrency

/-!
# The alias never dangles

Seeds at the same time, with no condition on what they have seen: outdated readings, lost answers,
refused items and runs that stop anywhere. The alias may end on two indices (`alias_ambiguous`), but
once it resolves it resolves from then on, to indices that exist, and to no earlier version
(`alias_never_dangles`): a flip adds the later version in the step that removes the earlier one, and
pruning deletes only what precedes a version that the alias has been seen on.
-/

namespace AdvancedSearch

open Js Service

/-- The version an index of the alias has: the one it is spelled as, or the one it is read as. -/
def Versioned (aliasName name : String) (version : Whole) : Prop :=
  name = physicalIndexName aliasName version ∨ parsePhysicalIndexVersion aliasName name = .ok version

/-- The alias is on an index of this version or of a later one, and possibly on others. -/
def Reaches (aliasName : String) (version : Whole) (s : Cluster) : Prop :=
  ∃ name ∈ s.aliases aliasName, ∃ k, Versioned aliasName name k ∧ version ≤ k

/-- What every call of a seed leaves of the alias. -/
structure Persists (aliasName : String) (s s' : Cluster) : Prop where
  free : (s'.find aliasName).isSome = (s.find aliasName).isSome
  exists_of_exists : s.aliases aliasName ≠ [] → s'.aliases aliasName ≠ []
  reaches : ∀ version, Reaches aliasName version s → Reaches aliasName version s'

variable {a : String} {s s' : Cluster}

theorem physicalIndexName_injective {k k' : Whole}
    (h : physicalIndexName a k = physicalIndexName a k') : k = k' := by
  unfold physicalIndexName at h
  have hlist := congrArg String.toList h
  simp only [String.toList_append, List.append_cancel_left_eq] at hlist
  exact Whole.toString_injective (String.toList_inj.mp hlist)

/-- A spelled name has one version. -/
theorem Versioned.of_spelled {k k' : Whole} (h : Versioned a (physicalIndexName a k) k') : k' = k := by
  rcases h with h | h
  · exact (physicalIndexName_injective h).symm
  · exact parsePhysicalIndexVersion_name h

/-- A name that is read has one version. -/
theorem Versioned.of_read {name : String} {k k' : Whole}
    (hread : parsePhysicalIndexVersion a name = .ok k) (h : Versioned a name k') : k' = k := by
  rcases h with rfl | h
  · exact (parsePhysicalIndexVersion_name hread).symm
  · exact Except.ok.inj (h.symm.trans hread)

theorem Persists.refl (s : Cluster) : Persists a s s := ⟨rfl, fun h => h, fun _ h => h⟩

/-- An alias that only gains indices. -/
theorem Persists.of_subset (hfree : (s'.find a).isSome = (s.find a).isSome)
    (h : ∀ name ∈ s.aliases a, name ∈ s'.aliases a) : Persists a s s' where
  free := hfree
  exists_of_exists hne hnil := by
    obtain ⟨name, hname⟩ := List.exists_mem_of_ne_nil _ hne
    have := h name hname
    rw [hnil] at this
    exact List.not_mem_nil this
  reaches version := by
    rintro ⟨name, hname, k, hk⟩
    exact ⟨name, h name hname, k, hk⟩

theorem Persists.resolves (h : Persists a s s') (hne : s.resolve a ≠ []) : s'.resolve a ≠ [] := by
  unfold Cluster.resolve at *
  rw [h.free]
  split_ifs with hfind
  · exact List.cons_ne_nil _ _
  · rw [if_neg hfind] at hne
    exact h.exists_of_exists hne

theorem Reaches.exists {version : Whole} (h : Reaches a version s) : s.aliases a ≠ [] := by
  obtain ⟨name, hname, -⟩ := h
  exact List.ne_nil_of_mem hname

theorem resolve_ne_nil_of_aliases (h : s.aliases a ≠ []) : s.resolve a ≠ [] := by
  unfold Cluster.resolve
  split_ifs
  · exact List.cons_ne_nil _ _
  · exact h

/-! ## The calls -/

/-- The program keeps the alias, whatever happens to its calls. -/
abbrev Tended {α : Type} (a : String) (Q : α → Cluster → Prop) (p : Program EsCall EsAnswer α)
    (pre : Cluster → Prop) : Prop :=
  p.Guarantees elasticsearch (fun _ => True) (Persists a) (fun _ _ _ => True) Q pre

theorem stable_reaches (version : Whole) :
    Stable (fun _ => True) (Persists a) (Reaches a version) :=
  fun _ _ _ _ hkeeps h => hkeeps.reaches version h

theorem stable_resolves : Stable (fun _ => True) (Persists a) fun s => s.resolve a ≠ [] :=
  fun _ _ _ _ hkeeps h => hkeeps.resolves h

section Rules

variable {α β : Type} {pre : Cluster → Prop} {t : AdapterState}

/-- A call is kept by what it does where it is served. -/
theorem tended_call {c : EsCall} (good : Response c → Cluster → Prop)
    (hgood : ∀ r, Stable (fun _ => True) (Persists a) (good r))
    (hstep : ∀ s f, pre s → Persists a s (s.apply c f).2 ∧
      ∀ r, (s.apply c f).1 = .ok r → good r (s.apply c f).2) :
    Tended a (Client.Yields fun r u s => u = t ∧ good r s) (call c t) pre := by
  refine Client.guarantees_perform good hgood fun s f _ hs _ => ?_
  cases hd : f.delivery with
  | answered =>
    rw [serve_answered hd]
    exact ⟨trivial, hstep s f hs⟩
  | lost e =>
    rw [serve_lost hd]
    exact ⟨trivial, (hstep s f hs).1, fun _ h => by cases h⟩
  | unreached e =>
    rw [serve_unreached hd]
    exact ⟨trivial, Persists.refl s, fun _ h => by cases h⟩

/-- A call and what follows it. -/
theorem tended_call_bind {c : EsCall} {k : Response c → AdapterM α}
    {B : α → AdapterState → Cluster → Prop} (good : Response c → Cluster → Prop)
    (hgood : ∀ r, Stable (fun _ => True) (Persists a) (good r))
    (hstep : ∀ s f, pre s → Persists a s (s.apply c f).2 ∧
      ∀ r, (s.apply c f).1 = .ok r → good r (s.apply c f).2)
    (hk : ∀ r, Tended a (Client.Yields B) (k r t) (good r)) :
    Tended a (Client.Yields B) ((call c >>= k) t) pre :=
  Client.guarantees_bind_same (tended_call good hgood hstep) hk

/-- A call that reads. -/
theorem persists_of_eq (h : s' = s) : Persists a s s' := by
  rw [h]
  exact Persists.refl s

theorem mem_addAlias {c : Cluster} {name n b : String} (h : n ∈ c.aliases a) :
    n ∈ (c.addAlias name b).aliases a := by
  by_cases hn : n = name
  · unfold Cluster.addAlias
    split_ifs with hc
    · show n ∈ Function.update c.aliases b (c.aliases b ++ [name]) a
      by_cases ha : a = b
      · subst ha
        rw [Function.update_self]
        exact List.mem_append_left _ h
      · rwa [Function.update_of_ne ha]
    · exact h
  · exact (Cluster.mem_aliases_addAlias c hn).mpr h

/-- A new index under another name than the alias, and aliases on it. -/
theorem persists_create {index : String} {settings : Fields} {mappings : Mappings}
    {aliases : List String} {f : Fate} (hname : index ≠ a) :
    Persists a s (s.apply (.create index settings mappings aliases) f).2 := by
  cases hfind : s.find index with
  | some ix =>
    rw [Cluster.apply_create_of_exists (by rw [hfind]; rfl)]
    exact Persists.refl s
  | none =>
    rw [Cluster.apply_create hfind]
    suffices h : ∀ c : Cluster, Persists a c (aliases.foldl (fun c b => c.addAlias index b) c) by
      have hinsert := h (s.insert index ⟨settings, mappings, fun _ => none⟩)
      refine ⟨hinsert.free.trans ?_, fun hne => hinsert.exists_of_exists ?_, fun v hv =>
        hinsert.reaches v ?_⟩
      · rw [Cluster.find_insert _ hfind, if_neg hname.symm]
      · rwa [Cluster.aliases_insert]
      · unfold Reaches at *
        rwa [Cluster.aliases_insert]
    intro c
    induction aliases generalizing c with
    | nil => exact Persists.refl c
    | cons b aliases ih =>
      have hadd : Persists a c (c.addAlias index b) :=
        Persists.of_subset (by rw [Cluster.find_addAlias]) fun _ h => mem_addAlias h
      have hrest := ih (c.addAlias index b)
      exact ⟨hrest.free.trans hadd.free, fun h => hrest.exists_of_exists (hadd.exists_of_exists h),
        fun v h => hrest.reaches v (hadd.reaches v h)⟩

/-- A bulk moves no alias, and creates no index under the name of one that resolves. -/
theorem persists_upsertItems (refused : ℕ → Option BulkError)
    (items : List (String × String × ProductDocument)) (h : s.resolve a ≠ []) :
    Persists a s (s.upsertItems refused items).2 := by
  suffices hboth : ((s.upsertItems refused items).2.find a).isSome = (s.find a).isSome ∧
      (s.upsertItems refused items).2.aliases = s.aliases from
    Persists.of_subset hboth.1 fun name hname => by rwa [hboth.2]
  induction items generalizing s refused with
  | nil => exact ⟨rfl, rfl⟩
  | cons item items ih =>
    obtain ⟨index, id, source⟩ := item
    have hitem : ((s.upsertItem (refused 0) index id source).2.find a).isSome = (s.find a).isSome ∧
        (s.upsertItem (refused 0) index id source).2.aliases = s.aliases := by
      unfold Cluster.upsertItem
      split
      · exact ⟨rfl, rfl⟩
      · split
        · next hnil =>
          have hne : a ≠ index := fun he => h (he ▸ hnil)
          have hnone : s.find index = none := by
            by_contra hsome
            rw [Cluster.resolve_of_find (Option.isSome_iff_ne_none.mpr hsome)] at hnil
            cases hnil
          exact ⟨by rw [Cluster.find_insert _ hnone, if_neg hne], Cluster.aliases_insert s⟩
        · exact ⟨Cluster.find_modify_isSome s, rfl⟩
        · exact ⟨rfl, rfl⟩
    have hres : (s.upsertItem (refused 0) index id source).2.resolve a ≠ [] := by
      unfold Cluster.resolve at *
      rwa [hitem.1, hitem.2]
    obtain ⟨hfind, haliases⟩ := ih (fun i => refused (i + 1)) hres
    exact ⟨hfind.trans hitem.1, haliases.trans hitem.2⟩

/-- Deleting an index that is read as a version before one the alias reaches. -/
theorem persists_delete {name : String} {version retained : Whole} {f : Fate}
    (hread : parsePhysicalIndexVersion a name = .ok version) (hlt : version < retained)
    (hon : Reaches a retained s) : Persists a s (s.apply (.delete name) f).2 := by
  cases hfind : s.find name with
  | none =>
    have happ : (s.apply (.delete name) f).2 = s := congrArg Prod.snd (if_neg (by simp [hfind]))
    exact persists_of_eq happ
  | some ix =>
    rw [Cluster.apply_delete (by rw [hfind]; rfl)]
    have hstays : ∀ n k, Versioned a n k → retained ≤ k → n ∈ s.aliases a →
        n ∈ (s.erase name).aliases a := by
      intro n k hk hle hn
      rw [Cluster.aliases_erase, List.mem_filter, decide_eq_true_eq]
      refine ⟨hn, ?_⟩
      rintro rfl
      rw [hk.of_read hread] at hle
      exact absurd (lt_of_lt_of_le (α := ℕ) hlt hle) (lt_irrefl _)
    have hretained : Reaches a retained (s.erase name) := by
      obtain ⟨n, hn, k, hk, hle⟩ := hon
      exact ⟨n, hstays n k hk hle hn, k, hk, hle⟩
    refine ⟨?_, fun _ => hretained.exists, ?_⟩
    · rw [Cluster.find_erase, if_neg (ne_of_parsePhysicalIndexVersion hread).symm]
    · rintro v ⟨n, hn, k, hk, hle⟩
      -- either the index itself stays, or the retained version is a later one
      by_cases hkr : retained ≤ k
      · exact ⟨n, hstays n k hk hkr hn, k, hk, hle⟩
      · obtain ⟨n', hn', k', hk', hle'⟩ := hretained
        have hlt : k.val < retained.val := not_le.mp hkr
        exact ⟨n', hn', k', hk', le_trans (α := ℕ) (le_trans (α := ℕ) hle hlt.le) hle'⟩

end Rules

/-! ## The methods -/

namespace Image

variable {m : Image} {t : AdapterState}

theorem tended_readMappings (m : Image) (t : AdapterState) :
    Tended m.aliasName (Client.Yields fun response _ s => ∀ name mappings,
      response = some [(name, mappings)] → ∀ version,
        parsePhysicalIndexVersion m.aliasName name = .ok version → Reaches m.aliasName version s)
      (m.readMappings t) fun _ => True := by
  unfold readMappings
  refine Client.guarantees_tryCatch (tended_call_bind (fun entries s => ∀ name mappings,
      entries = [(name, mappings)] → ∀ version,
        parsePhysicalIndexVersion m.aliasName name = .ok version → Reaches m.aliasName version s)
    ?_ (fun s f _ => ?_) fun r => ?_) fun e u => ?_
  · intro entries s s' hs hs' hkeeps h name mappings he version hread
    exact hkeeps.reaches version (h name mappings he version hread)
  · have hstate : (s.apply (.getMapping m.aliasName) f).2 = s := Cluster.apply_getMapping_state
    refine ⟨persists_of_eq hstate, fun entries hentries name mappings he version hread => ?_⟩
    rw [hstate]
    by_cases hres : s.resolve m.aliasName = []
    · rw [Cluster.apply_getMapping hres] at hentries
      cases hentries
    · rw [Cluster.apply_getMapping_of_ne hres] at hentries
      subst he
      obtain ⟨n, hn, hmap⟩ := List.mem_filterMap.mp
        (show (name, mappings) ∈ _ from Except.ok.inj hentries ▸ List.mem_singleton_self _)
      obtain ⟨ix, -, hpair⟩ := Option.map_eq_some_iff.mp hmap
      obtain rfl : n = name := (Prod.mk.inj hpair).1
      have halias : n ∈ s.aliases m.aliasName := by
        unfold Cluster.resolve at hn
        split_ifs at hn
        · exact absurd (List.mem_singleton.mp hn) (ne_of_parsePhysicalIndexVersion hread)
        · exact hn
      exact ⟨n, halias, version, Or.inr hread, Nat.le_refl _⟩
  · refine Client.guarantees_pure fun s _ h name mappings he => h name mappings (Option.some.inj he)
  · cases e with
    | migration e => exact Client.guarantees_throw
    | elasticsearch e =>
      by_cases h : isIndexNotFoundError e
      · simp only [h, if_true]
        exact Client.guarantees_pure fun _ _ _ _ _ he => by cases he
      · simp only [h]
        exact Client.guarantees_throw

/-- What the live index tells: the alias has been on its version. -/
theorem tended_readLiveIndex (m : Image) (t : AdapterState) :
    Tended m.aliasName (Client.Yields fun live _ s => ∀ l, live = some l →
      Reaches m.aliasName l.version s) (m.readLiveIndex t) fun _ => True := by
  unfold readLiveIndex
  refine Client.guarantees_bind (m.tended_readMappings t) fun response u => ?_
  split
  · exact Client.guarantees_pure fun _ _ _ _ h => by cases h
  · exact Client.guarantees_pure fun _ _ _ _ h => by cases h
  · next name mappings =>
    cases hread : parsePhysicalIndexVersion m.aliasName name with
    | error e => exact Client.guarantees_throw
    | ok version =>
      refine Client.guarantees_pure fun s _ h l hl => ?_
      obtain rfl := Option.some.inj hl
      exact h name mappings rfl version hread
  · exact Client.guarantees_throw

/-- First provisioning ends with an alias that resolves. -/
theorem tended_createInitialIndex (m : Image) (t : AdapterState) :
    Tended m.aliasName (Client.Yields fun _ _ s => s.resolve m.aliasName ≠ [])
      (m.createInitialIndex (withFingerprint m.sha256 m.definition) t) fun _ => True := by
  have hname : m.physical firstVersion ≠ m.aliasName := physicalIndexName_ne _ _
  have hadded : ∀ s : Cluster, (s.find (m.physical firstVersion)).isSome →
      (s.addAlias (m.physical firstVersion) m.aliasName).resolve m.aliasName ≠ [] := by
    intro s hsome
    refine resolve_ne_nil_of_aliases ?_
    rw [Cluster.aliases_addAlias _ hsome]
    split_ifs with hmem
    · exact List.ne_nil_of_mem hmem
    · exact List.append_ne_nil_of_right_ne_nil _ (List.cons_ne_nil _ _)
  unfold createInitialIndex
  refine Client.guarantees_tryCatch ((tended_call (fun _ s => s.resolve m.aliasName ≠ [])
    (fun _ => stable_resolves) fun s f _ => ⟨persists_create hname, fun _ hok => ?_⟩).mono
      fun r s h b hb => (h b hb).2) fun e u => ?_
  · cases hfind : s.find (m.physical firstVersion) with
    | some ix =>
      rw [Cluster.apply_create_of_exists (by rw [hfind]; rfl)] at hok
      cases hok
    | none =>
      rw [Cluster.apply_create hfind, List.foldl_cons, List.foldl_nil]
      exact hadded _ (by rw [Cluster.find_insert _ hfind, if_pos rfl]; rfl)
  · cases e with
    | migration e => exact Client.guarantees_throw
    | elasticsearch e =>
      by_cases h : isAlreadyExistsError e
      · simp only [h, if_true]
        -- the alias is there, or it is put on the version
        refine tended_call_bind (fun yes s => yes = true → s.resolve m.aliasName ≠ [])
          (fun _ _ _ _ _ hkeeps h hyes => hkeeps.resolves (h hyes))
          (fun s f _ => ⟨Persists.refl s, fun yes hyes htrue => ?_⟩) fun yes => ?_
        · refine resolve_ne_nil_of_aliases ?_
          rw [← Except.ok.inj hyes] at htrue
          exact of_decide_eq_true htrue
        · cases yes with
          | true => exact Client.guarantees_pure fun s _ h => h rfl
          | false =>
            refine (tended_call (fun _ s => s.resolve m.aliasName ≠ []) (fun _ => stable_resolves)
              fun s f _ => ?_).mono fun r s h b hb => (h b hb).2
            by_cases hsome : (s.find (m.physical firstVersion)).isSome
            · rw [Cluster.apply_putAlias hsome]
              exact ⟨Persists.of_subset (by rw [Cluster.find_addAlias]) fun _ h => mem_addAlias h,
                fun _ _ => hadded s hsome⟩
            · have happ : s.apply (.putAlias (m.physical firstVersion) m.aliasName) f =
                  (.error (indexNotFound (m.physical firstVersion)), s) := if_neg hsome
              rw [happ]
              exact ⟨Persists.refl s, fun _ h => by cases h⟩
      · simp only [h]
        exact Client.guarantees_throw

theorem tended_createPendingIndex (m : Image) (version : Whole) (t : AdapterState)
    {pre : Cluster → Prop} (hpre : Stable (fun _ => True) (Persists m.aliasName) pre) :
    Tended m.aliasName (Client.Yields fun _ _ s => pre s)
      (m.createPendingIndex version (withFingerprint m.sha256 m.definition) t) pre := by
  unfold createPendingIndex
  refine Client.guarantees_tryCatch ((tended_call (fun _ => pre) (fun _ => hpre)
    fun s f hs => ?_).mono fun r s h b hb => (h b hb).2) fun e u => ?_
  · have hname : m.physical version ≠ m.aliasName := physicalIndexName_ne _ version
    exact ⟨persists_create hname, fun _ _ => hpre _ _ trivial trivial (persists_create hname) hs⟩
  · cases e with
    | migration e => exact Client.guarantees_throw
    | elasticsearch e =>
      by_cases h : isAlreadyExistsError e
      · simp only [h, if_true]
        exact Client.guarantees_throw
      · simp only [h]
        exact Client.guarantees_throw

/-- What a seed has seen by the time it loads and publishes. -/
def Seen (m : Image) (t : AdapterState) (s : Cluster) : Prop :=
  s.resolve m.aliasName ≠ [] ∧ ∀ pending, t.pending = some pending →
    pending.version = pending.replacedVersion.succ ∧ Reaches m.aliasName pending.replacedVersion s

theorem stable_seen (m : Image) (t : AdapterState) :
    Stable (fun _ => True) (Persists m.aliasName) (m.Seen t) :=
  fun _ _ _ _ hkeeps h => ⟨hkeeps.resolves h.1, fun pending hp =>
    ⟨(h.2 pending hp).1, hkeeps.reaches _ (h.2 pending hp).2⟩⟩

theorem tended_ensureIndex (m : Image) (t : AdapterState) :
    Tended m.aliasName (Client.Yields fun _ u s => m.Seen u s) (m.ensureIndex t) fun _ => True := by
  unfold ensureIndex
  refine Client.guarantees_bind (m.tended_readLiveIndex t) fun live u => ?_
  cases live with
  | none =>
    refine Client.guarantees_bind ((m.tended_createInitialIndex u).weaken fun _ _ _ => trivial)
      fun _ u => ?_
    refine Client.guarantees_bind (A := fun _ u' s => u'.pending = none ∧ s.resolve m.aliasName ≠ [])
      (Client.guarantees_pure fun s _ h => ⟨rfl, h⟩) fun _ u' => ?_
    exact Client.guarantees_pure fun s _ h => ⟨h.2, fun p hp => by rw [h.1] at hp; cases hp⟩
  | some live =>
    refine Client.guarantees_bind (A := fun _ _ s => Reaches m.aliasName live.version s)
      (Client.guarantees_pure fun s _ h => h live rfl) fun _ u => ?_
    split_ifs
    · refine Client.guarantees_bind (A := fun _ u' s =>
        u'.pending = none ∧ s.resolve m.aliasName ≠ [])
        (Client.guarantees_pure fun s _ h => ⟨rfl, resolve_ne_nil_of_aliases h.exists⟩) fun _ u' => ?_
      exact Client.guarantees_pure fun s _ h => ⟨h.2, fun p hp => by rw [h.1] at hp; cases hp⟩
    · refine Client.guarantees_bind (m.tended_createPendingIndex _ u (stable_reaches live.version))
        fun _ u => ?_
      refine Client.guarantees_bind (A := fun _ u' s =>
        u'.pending = some ⟨live.version.succ, live.version⟩ ∧ Reaches m.aliasName live.version s)
        (Client.guarantees_pure fun s _ h => ⟨rfl, h⟩) fun _ u' => ?_
      refine Client.guarantees_pure fun s _ h =>
        ⟨resolve_ne_nil_of_aliases h.2.exists, fun p hp => ?_⟩
      rw [h.1] at hp
      obtain rfl := Option.some.inj hp
      exact ⟨rfl, h.2⟩

theorem tended_bulkIndex (m : Image) (products : List Product) (t : AdapterState) :
    Tended m.aliasName (Client.Yields fun _ u s => m.Seen u s) (m.bulkIndex products t)
      (m.Seen t) := by
  unfold bulkIndex
  split_ifs
  · exact Client.guarantees_pure fun s _ h => h
  · rw [Client.get_bind_apply]
    refine tended_call_bind (fun _ => m.Seen t) (fun _ => m.stable_seen t)
      (fun s f hp => ?_) fun r => Client.guarantees_pure fun s _ h => h
    have hkeeps : Persists m.aliasName s
        (s.apply (.bulk (buildBulkOperations products (m.writeTarget t))) f).2 := by
      unfold Cluster.apply
      simp only [upserts_buildBulkOperations]
      exact persists_upsertItems _ _ hp.1
    exact ⟨hkeeps, fun _ _ => m.stable_seen t _ _ trivial trivial hkeeps hp⟩

theorem tended_refresh (m : Image) (t : AdapterState) :
    Tended m.aliasName (Client.Yields fun _ u s => m.Seen u s) (m.refresh t) (m.Seen t) := by
  unfold refresh
  rw [Client.get_bind_apply]
  refine (tended_call (fun _ => m.Seen t) (fun _ => m.stable_seen t) fun s f hp => ?_).mono ?_
  · have hstate : (s.apply (.refresh (m.writeTarget t)) f).2 = s := Cluster.apply_refresh_state
    exact ⟨persists_of_eq hstate, fun _ _ => by rwa [hstate]⟩
  · rintro r s h b hb
    obtain ⟨hu, hseen⟩ := h b hb
    rwa [hu]

theorem tended_pruneOlderThan (m : Image) (retained : Whole) (t : AdapterState) :
    Tended m.aliasName (Client.Yields fun _ _ _ => True) (m.pruneOlderThan retained t)
      (Reaches m.aliasName retained) := by
  unfold pruneOlderThan
  refine tended_call_bind (fun _ => Reaches m.aliasName retained) (fun _ => stable_reaches retained)
    (fun s f hp => ⟨Persists.refl s, fun _ _ => hp⟩) fun names => ?_
  have hstale : ∀ p ∈ m.staleIndices names retained, p.1 ∈ names ∧
      parsePhysicalIndexVersion m.aliasName p.1 = .ok p.2 ∧ p.2 < retained := fun _ => mem_staleIndices
  generalize m.staleIndices names retained = stale at hstale
  refine Client.guarantees_bind (A := fun _ _ _ => True) ?_ fun _ _ =>
    Client.guarantees_pure fun _ _ _ => trivial
  induction stale with
  | nil => exact Client.guarantees_pure fun _ _ _ => trivial
  | cons p stale ih =>
    rw [List.forM_eq_forM, List.forM_cons]
    refine tended_call_bind (fun _ => Reaches m.aliasName retained)
      (fun _ => stable_reaches retained) (fun s f hp => ?_)
      fun _ => ih fun q hq => hstale q (List.mem_cons_of_mem _ hq)
    obtain ⟨-, hread, hlt⟩ := hstale p List.mem_cons_self
    have hkeeps := persists_delete (f := f) hread hlt hp
    exact ⟨hkeeps, fun _ _ => hkeeps.reaches retained hp⟩

/-- A flip removes no more than the version before the one it adds. -/
theorem persists_flip {pending : PendingVersion} {s : Cluster} {f : Fate}
    (hnext : pending.version = pending.replacedVersion.succ) :
    Persists m.aliasName s (s.apply (.updateAliases (m.flipActions pending)) f).2 := by
  cases hold : s.find (m.physical pending.replacedVersion) with
  | none =>
    rw [apply_flip_of_missing hold]
    exact Persists.refl s
  | some old =>
    cases hnew : s.find (m.physical pending.version) with
    | none =>
      rw [apply_flip_of_absent (by rw [hold]; rfl) hnew]
      exact Persists.refl s
    | some new =>
      rw [apply_flip (by rw [hnew]; rfl) (by rw [hold]; rfl)]
      have hadded : m.physical pending.version ∈
          (m.flippedCluster s pending).aliases m.aliasName := by
        unfold flippedCluster
        rw [Cluster.aliases_addAlias _ (by rw [Cluster.find_removeAlias, hnew]; rfl)]
        split_ifs with hmem
        · exact hmem
        · exact List.mem_append_right _ (List.mem_singleton_self _)
      refine ⟨?_, fun _ => List.ne_nil_of_mem hadded, ?_⟩
      · unfold flippedCluster
        rw [Cluster.find_addAlias, Cluster.find_removeAlias]
      · rintro v ⟨n, hn, k, hk, hle⟩
        by_cases hremoved : n = m.physical pending.replacedVersion
        · -- its version is the replaced one
          subst hremoved
          obtain rfl := hk.of_spelled
          exact ⟨_, hadded, pending.version, Or.inl rfl,
            le_trans (α := ℕ) hle (hnext ▸ Whole.le_succ _)⟩
        · refine ⟨n, mem_addAlias ?_, k, hk, hle⟩
          exact (Cluster.mem_aliases_removeAlias s hremoved).mpr hn

theorem tended_publishIndex (m : Image) (t : AdapterState) :
    Tended m.aliasName (Client.Yields fun _ _ _ => True) (m.publishIndex t) (m.Seen t) := by
  unfold publishIndex
  rw [Client.get_bind_apply]
  cases hpending : t.pending with
  | none =>
    cases t.servedVersion with
    | none => exact Client.guarantees_throw
    | some served => exact Client.guarantees_pure fun _ _ _ => trivial
  | some pending =>
    by_cases hnext : pending.version = pending.replacedVersion.succ
    · refine tended_call_bind (fun _ => Reaches m.aliasName pending.replacedVersion)
        (fun _ => stable_reaches _) (fun s f hp => ?_) fun _ => ?_
      · have hkeeps := persists_flip (m := m) (s := s) (f := f) hnext
        exact ⟨hkeeps, fun _ _ => hkeeps.reaches _ (hp.2 pending hpending).2⟩
      · refine Client.guarantees_bind (m.tended_pruneOlderThan pending.replacedVersion t)
          fun _ _ => ?_
        exact Client.guarantees_bind (A := fun _ _ _ => True)
          (Client.guarantees_pure fun _ _ _ => trivial)
          fun _ _ => Client.guarantees_pure fun _ _ _ => trivial
    · exact Program.guarantees_of_false fun s _ h => hnext (h.2 pending hpending).1

/-- A whole run of the seed. -/
theorem tended_seed (m : Image) (products : List Product) :
    Tended m.aliasName (fun _ _ => True) (m.seed products) fun _ => True := by
  unfold seed execute
  refine Program.Guarantees.bind (A := fun _ _ => True) (Program.Guarantees.mono
    (Q := Client.Yields fun _ _ _ => True) ?_ fun _ _ _ => trivial) fun r => fun _ _ _ => trivial
  refine Client.guarantees_bind (m.tended_ensureIndex freshAdapter) fun preparation u => ?_
  refine Client.guarantees_bind (m.tended_bulkIndex products u) fun bulk u => ?_
  refine Client.guarantees_bind (m.tended_refresh u) fun _ u => ?_
  split_ifs
  · exact Client.guarantees_pure fun _ _ _ => trivial
  · exact Client.guarantees_bind (m.tended_publishIndex u) fun _ _ =>
      Client.guarantees_pure fun _ _ _ => trivial

end Image

/-! ## Interleaved runs -/

section Schedules

variable {ι : Type} [DecidableEq ι]

theorem sound_tended {images : ι → Image} (hsame : ∀ i, (images i).aliasName = a)
    (products : ι → List Product) (c : Cluster) (schedule : List (ι × Fate)) :
    Sound elasticsearch (fun _ => True) (Persists a) (fun _ _ _ => True)
      (interleave elasticsearch (fun i => (images i).seed (products i), c) schedule) := by
  refine Sound.schedule (x := (fun i => (images i).seed (products i), c)) ⟨trivial, fun i => ?_⟩
    schedule fun _ _ _ _ hstep => ?_
  · obtain rfl := hsame i
    exact ⟨fun _ => True, stable_true _ _, trivial, (images i).tended_seed (products i)⟩
  · unfold StepIs at hstep
    split at hstep
    · exact hstep
    · exact hstep trivial

/-- What is stable under the calls of seeds holds for ever once it holds. -/
theorem kept_by_seeds {images : ι → Image} (hsame : ∀ i, (images i).aliasName = a)
    (products : ι → List Product) (c : Cluster) {A : Cluster → Prop}
    (hA : Stable (fun _ => True) (Persists a) A) (before after : List (ι × Fate))
    (h : A (interleave elasticsearch (fun i => (images i).seed (products i), c) before).2) :
    A (interleave elasticsearch (fun i => (images i).seed (products i), c) (before ++ after)).2 := by
  rw [interleave_append]
  refine (sound_tended hsame products c before).keeps hA h after fun _ _ _ _ hstep => ?_
  unfold StepIs at hstep
  split at hstep
  · exact hstep
  · exact hstep trivial

/-- **The alias never dangles.** In every interleaving of any number of seeds, whatever happens to
their calls, an alias that resolves resolves from then on to an index that exists, an alias on a
version stays on it or on a later one, and no index ever takes the alias's own name. -/
theorem alias_never_dangles {images : ι → Image} (hsame : ∀ i, (images i).aliasName = a)
    (products : ι → List Product) (c : Cluster) (before after : List (ι × Fate)) :
    let x := (fun i => (images i).seed (products i), c)
    ((interleave elasticsearch x before).2.resolve a ≠ [] →
      ∃ name ∈ (interleave elasticsearch x (before ++ after)).2.resolve a,
        ((interleave elasticsearch x (before ++ after)).2.find name).isSome) ∧
    (∀ version, Reaches a version (interleave elasticsearch x before).2 →
      Reaches a version (interleave elasticsearch x (before ++ after)).2) ∧
    (c.find a = none → (interleave elasticsearch x before).2.find a = none) := by
  intro x
  refine ⟨fun hne => ?_, fun version h => ?_, fun hfree => ?_⟩
  · obtain ⟨name, hname⟩ := List.exists_mem_of_ne_nil _
      (kept_by_seeds hsame products c stable_resolves before after hne)
    exact ⟨name, hname, Cluster.find_isSome_of_mem_resolve hname⟩
  · exact kept_by_seeds hsame products c (stable_reaches version) before after h
  · refine kept_by_seeds hsame products c (A := fun s => s.find a = none) ?_ [] before hfree
    intro s s' _ _ hkeeps h
    rw [← Option.not_isSome_iff_eq_none, hkeeps.free, h]
    simp

end Schedules

/-- The slow first run: the alias is ambiguous and still resolves. -/
theorem alias_never_dangles_slowFirst :
    ∃ name ∈ (interleave elasticsearch (racers, emptyCluster) slowFirst).2.resolve "products",
      ((interleave elasticsearch (racers, emptyCluster) slowFirst).2.find name).isSome := by
  have hsame : ∀ i, (racingImage i).aliasName = "products" := by decide
  have h := (alias_never_dangles hsame (fun _ => []) emptyCluster (slowFirst.take 4)
    (slowFirst.drop 4)).1 ?_
  · rwa [List.take_append_drop] at h
  · decide +kernel

end AdvancedSearch
