import AdvancedSearch.Index.Provisioning
import AdvancedSearch.Lib.Interleaving

/-!
# Seeds at the same time

Any number of runs of the seed, interleaved call by call. As long as no step is `Stale` the alias is
absent or on one version, and only moves to later ones (`Standing`, `Advances`); a step that acts on an
outdated reading of the alias makes it ambiguous at once. So the alias resolves to exactly one index
from its first moment on exactly when no step is stale (`alias_single_iff`).
-/

namespace AdvancedSearch

open Js Service

/-- A call that takes effect on an alias its client has not seen: a first version created while the
alias exists, or a flip between two indices while the alias is on neither. -/
def Stale (aliasName : String) (s : Cluster) (c : EsCall) (f : Fate) : Prop :=
  f.served = true ∧ s.aliases aliasName ≠ [] ∧
    match c with
    | .create index _ _ aliases =>
      index = physicalIndexName aliasName firstVersion ∧ aliases = [aliasName] ∧ s.find index = none
    | .updateAliases actions => ∃ old new,
      actions = [.remove old aliasName, .add new aliasName] ∧ (s.find old).isSome ∧
        (s.find new).isSome ∧ s.aliases aliasName ≠ [old] ∧ s.aliases aliasName ≠ [new]
    | _ => False

/-- The alias is on this version or a later one. -/
def OnFrom (aliasName : String) (version : Whole) (s : Cluster) : Prop :=
  ∃ k, version ≤ k ∧ s.resolve aliasName = [physicalIndexName aliasName k]

/-- The alias is on some version. -/
def OnSome (aliasName : String) (s : Cluster) : Prop :=
  ∃ k, s.resolve aliasName = [physicalIndexName aliasName k]

/-- The alias only moves to later versions. -/
def Advances (aliasName : String) (s s' : Cluster) : Prop :=
  ∀ version, s.resolve aliasName = [physicalIndexName aliasName version] → OnFrom aliasName version s'

variable {a : String} {s s' : Cluster}

theorem OnFrom.onSome {version : Whole} (h : OnFrom a version s) : OnSome a s :=
  let ⟨k, _, hk⟩ := h
  ⟨k, hk⟩

theorem OnSome.standing (h : OnSome a s) : Standing a s := Or.inr h

theorem stable_onFrom (version : Whole) : Stable (Standing a) (Advances a) (OnFrom a version) := by
  rintro s s' - - hmove ⟨k, hle, hk⟩
  obtain ⟨k', hle', hk'⟩ := hmove k hk
  exact ⟨k', le_trans (α := ℕ) hle hle', hk'⟩

theorem stable_onSome : Stable (Standing a) (Advances a) (OnSome a) := by
  rintro s s' - - hmove ⟨k, hk⟩
  exact (hmove k hk).onSome

theorem stable_imp {p : Prop} {A : Cluster → Prop} (h : Stable (Standing a) (Advances a) A) :
    Stable (Standing a) (Advances a) fun s => p → A s :=
  fun _ _ hs hs' hm hA hp => h _ _ hs hs' hm (hA hp)

theorem Advances.refl (s : Cluster) : Advances a s s := fun version h => ⟨version, Nat.le_refl _, h⟩

/-- A step that leaves the alias where it is. -/
theorem advances_of_resolve (h : s'.resolve a = s.resolve a) : Advances a s s' := by
  intro version hv
  exact ⟨version, Nat.le_refl _, h.trans hv⟩

theorem OnSome.of_resolve (hs : OnSome a s) (h : s'.resolve a = s.resolve a) : OnSome a s' := by
  obtain ⟨k, hk⟩ := hs
  exact ⟨k, h.trans hk⟩

theorem OnSome.alias (h : OnSome a s) :
    s.find a = none ∧ ∃ k, s.aliases a = [physicalIndexName a k] := by
  obtain ⟨k, hk⟩ := h
  obtain ⟨hfind, halias⟩ := Cluster.alias_of_resolve hk (physicalIndexName_ne a k)
  exact ⟨hfind, k, halias⟩

theorem Standing.onSome_of_ne (h : Standing a s) (hne : s.resolve a ≠ []) : OnSome a s :=
  h.resolve_left fun habsent => hne habsent.1

theorem Standing.free (h : Standing a s) : s.find a = none := by
  rcases h with ⟨h, -⟩ | h
  · by_contra hne
    rw [Cluster.resolve_of_find (Option.isSome_iff_ne_none.mpr hne)] at h
    cases h
  · exact (OnSome.alias h).1

theorem Standing.resolve (h : Standing a s) : s.resolve a = s.aliases a :=
  Cluster.resolve_eq_aliases h.free

/-! ## Rules -/

/-- The program keeps its side of the bargain, its calls not being stale. -/
abbrev Upkeep {α : Type} (a : String) (Q : α → Cluster → Prop) (p : Program EsCall EsAnswer α)
    (pre : Cluster → Prop) : Prop :=
  p.Guarantees elasticsearch (Standing a) (Advances a) (fun s c f => ¬ Stale a s c f) Q pre

section Rules

variable {α β : Type} {pre : Cluster → Prop} {t : AdapterState}

/-- A call: what a served one does, and what an answer says. -/
theorem upkeep_call {c : EsCall} (good : Response c → Cluster → Prop)
    (bad : EsError → Cluster → Prop) (hgood : ∀ r, Stable (Standing a) (Advances a) (good r))
    (hbad : ∀ e, Stable (Standing a) (Advances a) (bad e)) (hout : ∀ (e : Outage) s, bad e.1 s)
    (hstep : ∀ s f, Standing a s → pre s → ¬ Stale a s c f → f.served = true →
      Standing a (s.apply c f).2 ∧ Advances a s (s.apply c f).2 ∧
        match (s.apply c f).1 with
        | .ok r => good r (s.apply c f).2
        | .error e => bad e (s.apply c f).2) :
    Upkeep a (fun r s => Client.Yields (fun b u s => u = t ∧ good b s) r s ∧
      ∀ e, r.1 = .error e → r.2 = t ∧ ∃ e', e = .elasticsearch e' ∧ bad e' s) (call c t) pre := by
  refine Program.guarantees_waiting
    (fun ans s => match ans with | .ok r => good r s | .error e => bad e s) ?_ ?_ ?_
  · rintro (e | r)
    · exact hbad e
    · exact hgood r
  · intro s f hs hp hf
    cases hd : f.delivery with
    | answered =>
      rw [serve_answered hd]
      exact hstep s f hs hp hf (by simp [Fate.served, hd])
    | lost e =>
      rw [serve_lost hd]
      obtain ⟨hinv, hmove, -⟩ := hstep s f hs hp hf (by simp [Fate.served, hd])
      exact ⟨hinv, hmove, hout e _⟩
    | unreached e =>
      rw [serve_unreached hd]
      exact ⟨hs, Advances.refl s, hout e s⟩
  · rintro (e | r) s - hmid
    · refine ⟨fun _ h => (by cases h), fun e' h => ⟨rfl, e, ?_, hmid⟩⟩
      exact (Except.error.inj h).symm
    · refine ⟨fun b h => ⟨rfl, ?_⟩, fun _ h => (by cases h)⟩
      rwa [← Except.ok.inj h]

/-- A call whose failure ends the method. -/
theorem upkeep_call_bind {c : EsCall} {k : Response c → AdapterM α}
    {B : α → AdapterState → Cluster → Prop} (good : Response c → Cluster → Prop)
    (hgood : ∀ r, Stable (Standing a) (Advances a) (good r))
    (hstep : ∀ s f, Standing a s → pre s → ¬ Stale a s c f →
      Standing a (s.apply c f).2 ∧ Advances a s (s.apply c f).2 ∧
        ∀ r, (s.apply c f).1 = .ok r → good r (s.apply c f).2)
    (hk : ∀ r, Upkeep a (Client.Yields B) (k r t) (good r)) :
    Upkeep a (Client.Yields B) ((call c >>= k) t) pre := by
  refine Client.guarantees_bind_same ((upkeep_call good (fun _ _ => True) hgood
    (fun _ => stable_true _ _) (fun _ _ => trivial) fun s f hs hp hf _ => ?_).mono
    fun _ _ h => h.1) hk
  obtain ⟨hinv, hmove, hgood'⟩ := hstep s f hs hp hf
  refine ⟨hinv, hmove, ?_⟩
  split
  · next r hr => exact hgood' r hr
  · trivial

/-- A step that changes nothing. -/
theorem unchanged_step (hs : Standing a s) (h : s' = s) : Standing a s' ∧ Advances a s s' := by
  subst h
  exact ⟨hs, Advances.refl s'⟩

end Rules

/-! ## The methods -/

theorem resolve_insert_of_ne {c : Cluster} {name : String} (h : a ≠ name) (ix : EsIndex) :
    (c.insert name ix).resolve a = c.resolve a := by
  by_cases hnone : c.find name = none
  · unfold Cluster.resolve
    rw [Cluster.find_insert _ hnone, if_neg h, Cluster.aliases_insert]
  · unfold Cluster.insert
    rw [dif_neg (by simpa using hnone)]

/-- A bulk, even one that creates its target, does not move an alias that exists. -/
theorem resolve_upsertItems {c : Cluster} (h : c.resolve a ≠ []) (refused : ℕ → Option BulkError)
    (items : List (String × String × ProductDocument)) :
    (c.upsertItems refused items).2.resolve a = c.resolve a := by
  induction items generalizing c refused with
  | nil => rfl
  | cons item items ih =>
    obtain ⟨index, id, source⟩ := item
    have hitem : (c.upsertItem (refused 0) index id source).2.resolve a = c.resolve a := by
      unfold Cluster.upsertItem
      split
      · rfl
      · split
        · next hnil => exact resolve_insert_of_ne (fun he => h (by rw [he, hnil])) _
        · exact Cluster.resolve_modify c
        · rfl
    exact (ih (hitem ▸ h) _).trans hitem

theorem resolve_erase {c : Cluster} {k : Whole} {n : String}
    (h : c.resolve a = [physicalIndexName a k]) (hn : physicalIndexName a k ≠ n) :
    (c.erase n).resolve a = c.resolve a := by
  obtain ⟨hfind, halias⟩ := Cluster.alias_of_resolve h (physicalIndexName_ne a k)
  have hfree : (c.erase n).find a = none := by
    rw [Cluster.find_erase]
    split_ifs
    · rfl
    · exact hfind
  rw [Cluster.resolve_eq_aliases hfree, Cluster.aliases_erase_of_notMem, halias, h]
  rw [halias, List.mem_singleton]
  exact fun he => hn he.symm

namespace Image

variable {m : Image} {t : AdapterState}

theorem upkeep_readMappings (m : Image) (t : AdapterState) :
    Upkeep m.aliasName (Client.Yields fun response _ s => ∀ name mappings,
      response = some [(name, mappings)] →
        ∃ k, name = m.physical k ∧ OnFrom m.aliasName k s) (m.readMappings t) fun _ => True := by
  unfold readMappings
  refine Client.guarantees_catch (Q := Client.Yields fun response _ s => ∀ name mappings,
      response = some [(name, mappings)] → ∃ k, name = m.physical k ∧ OnFrom m.aliasName k s)
    (upkeep_call_bind
      (fun entries s => ∀ name mappings, entries = [(name, mappings)] →
        ∃ k, name = m.physical k ∧ OnFrom m.aliasName k s) ?_ (fun s f hs _ _ => ?_) fun r => ?_)
    (fun b u s _ h => h b rfl) fun e u => ?_
  · intro entries s s' hs hs' hmove h name mappings he
    obtain ⟨k, hname, hk⟩ := h name mappings he
    exact ⟨k, hname, stable_onFrom k s s' hs hs' hmove hk⟩
  · have hstate : (s.apply (.getMapping m.aliasName) f).2 = s := Cluster.apply_getMapping_state
    obtain ⟨hinv, hmove⟩ := unchanged_step hs hstate
    refine ⟨hinv, hmove, fun entries hentries name mappings he => ?_⟩
    rw [hstate]
    by_cases hres : s.resolve m.aliasName = []
    · rw [Cluster.apply_getMapping hres] at hentries
      cases hentries
    · obtain ⟨k, hk⟩ := hs.onSome_of_ne hres
      rw [Cluster.apply_getMapping_of_ne hres, hk] at hentries
      subst he
      obtain ⟨ix, hix⟩ := Option.isSome_iff_exists.mp (Cluster.find_isSome_of_mem_resolve
        (hk ▸ List.mem_singleton_self (physicalIndexName m.aliasName k)))
      simp only [List.filterMap_cons, hix, Option.map_some, List.filterMap_nil,
        Except.ok.injEq, List.singleton_inj, Prod.mk.injEq] at hentries
      exact ⟨k, hentries.1.symm, k, Nat.le_refl _, hk⟩
  · refine Client.guarantees_pure fun s _ h name mappings he => ?_
    exact h name mappings (Option.some.inj he)
  · cases e with
    | migration e => exact Client.guarantees_throw
    | elasticsearch e =>
      by_cases h : isIndexNotFoundError e
      · simp only [h, if_true]
        exact Client.guarantees_pure fun _ _ _ _ _ he => by cases he
      · simp only [h]
        exact Client.guarantees_throw

/-- What the live index tells: a version that reads back, with the alias on it or past it. -/
theorem upkeep_readLiveIndex (m : Image) (t : AdapterState) :
    Upkeep m.aliasName (Client.Yields fun live _ s => ∀ l, live = some l →
      parsePhysicalIndexVersion m.aliasName (m.physical l.version) = .ok l.version ∧
        OnFrom m.aliasName l.version s) (m.readLiveIndex t) fun _ => True := by
  unfold readLiveIndex
  refine Client.guarantees_bind (m.upkeep_readMappings t) fun response u => ?_
  split
  · exact Client.guarantees_pure fun _ _ _ _ h => by cases h
  · exact Client.guarantees_pure fun _ _ _ _ h => by cases h
  · next name mappings =>
    cases hparse : parsePhysicalIndexVersion m.aliasName name with
    | error e => exact Client.guarantees_throw
    | ok version =>
      refine Client.guarantees_pure fun s _ h l hl => ?_
      obtain rfl := Option.some.inj hl
      obtain ⟨k, rfl, hk⟩ := h name mappings rfl
      obtain rfl : version = k := parsePhysicalIndexVersion_name hparse
      exact ⟨hparse, hk⟩
  · exact Client.guarantees_throw

/-- First provisioning ends with the alias on some version. -/
theorem upkeep_createInitialIndex (m : Image) (t : AdapterState) :
    Upkeep m.aliasName (Client.Yields fun _ _ s => OnSome m.aliasName s)
      (m.createInitialIndex (withFingerprint m.sha256 m.definition) t) fun _ => True := by
  unfold createInitialIndex
  refine Client.guarantees_catch (upkeep_call (fun _ => OnSome m.aliasName)
    (fun e s => isAlreadyExistsError e = true → OnSome m.aliasName s) (fun _ => stable_onSome)
    (fun e => stable_imp stable_onSome) (fun e s h => by rw [e.2.1] at h; cases h)
    fun s f hs _ hfresh hserved => ?_) (fun _ _ s _ h => (h.1 () rfl).2) fun e u => ?_
  · cases hfind : s.find (m.physical firstVersion) with
    | some ix =>
      rw [Cluster.apply_create_of_exists (by rw [hfind]; rfl)]
      refine ⟨hs, Advances.refl s, fun _ => hs.resolve_left fun habsent => ?_⟩
      rw [show physicalIndexName m.aliasName firstVersion = m.physical firstVersion from rfl,
        hfind] at habsent
      cases habsent.2
    | none =>
      -- not stale: the alias is still absent
      have hres : s.resolve m.aliasName = [] := by
        by_contra hne
        exact hfresh ⟨hserved, hs.resolve ▸ hne, rfl, rfl, hfind⟩
      have hp : m.provisioned s = m.created s := if_neg (by simp [hfind])
      have hon : OnSome m.aliasName (m.created s) := ⟨firstVersion, by
        rw [← hp, (aliases_provisioned hres).2]
        rfl⟩
      rw [Cluster.apply_create hfind]
      exact ⟨hon.standing, fun version hv => (by rw [hres] at hv; cases hv), hon⟩
  · cases e with
    | migration e => exact Client.guarantees_throw
    | elasticsearch e =>
      by_cases h : isAlreadyExistsError e
      · -- the version exists, and so does the alias: there is nothing to repair
        simp only [h, if_true]
        refine upkeep_call_bind (fun yes s => yes = true ∧ OnSome m.aliasName s)
          (fun _ => (stable_const _).and stable_onSome) (fun s f hs hp _ => ?_) fun yes => ?_
        · obtain ⟨-, e', he, hon⟩ := hp.2 _ rfl
          obtain rfl := SeedError.elasticsearch.inj he
          have hon := hon h
          refine ⟨hs, Advances.refl s, fun yes hyes => ⟨?_, hon⟩⟩
          obtain ⟨-, k, hk⟩ := hon.alias
          rw [← Except.ok.inj hyes, hk]
          rfl
        · cases yes with
          | true => exact Client.guarantees_pure fun s _ h => h.2
          | false => exact Program.guarantees_of_false fun s _ h => by cases h.1
      · simp only [h]
        exact Client.guarantees_throw

/-- A migration target leaves the alias alone. -/
theorem upkeep_createPendingIndex (m : Image) (version replaced : Whole) (t : AdapterState) :
    Upkeep m.aliasName (Client.Yields fun _ _ s => OnFrom m.aliasName replaced s)
      (m.createPendingIndex version (withFingerprint m.sha256 m.definition) t)
      (OnFrom m.aliasName replaced) := by
  unfold createPendingIndex
  refine Client.guarantees_catch (upkeep_call (fun _ => OnFrom m.aliasName replaced) (fun _ _ => True)
    (fun _ => stable_onFrom replaced) (fun _ => stable_true _ _) (fun _ _ => trivial)
    fun s f hs hp _ _ => ?_) (fun _ _ s _ h => (h.1 () rfl).2) fun e u => ?_
  · cases hfind : s.find (m.physical version) with
    | some ix =>
      rw [Cluster.apply_create_of_exists (by rw [hfind]; rfl)]
      exact ⟨hs, Advances.refl s, trivial⟩
    | none =>
      rw [Cluster.apply_create hfind]
      have hres : (m.prepared s version).resolve m.aliasName = s.resolve m.aliasName :=
        resolve_insert_of_ne (physical_ne version).symm _
      obtain ⟨k, hle, hk⟩ := hp
      exact ⟨Or.inr ⟨k, hres.trans hk⟩, advances_of_resolve hres, k, hle, hres.trans hk⟩
  · cases e with
    | migration e => exact Client.guarantees_throw
    | elasticsearch e =>
      by_cases h : isAlreadyExistsError e
      · simp only [h, if_true]
        exact Client.guarantees_throw
      · simp only [h]
        exact Client.guarantees_throw

/-- What an adapter's fields tell while it loads and publishes. -/
def Ready (m : Image) (t : AdapterState) (s : Cluster) : Prop :=
  OnSome m.aliasName s ∧ ∀ pending, t.pending = some pending →
    pending.version = pending.replacedVersion.succ ∧
      parsePhysicalIndexVersion m.aliasName (m.physical pending.replacedVersion) =
        .ok pending.replacedVersion ∧ OnFrom m.aliasName pending.replacedVersion s

theorem stable_ready (m : Image) (t : AdapterState) :
    Stable (Standing m.aliasName) (Advances m.aliasName) (m.Ready t) := by
  rintro s s' hs hs' hmove ⟨hon, hpending⟩
  refine ⟨stable_onSome s s' hs hs' hmove hon, fun pending hp => ?_⟩
  obtain ⟨hv, hparse, hfrom⟩ := hpending pending hp
  exact ⟨hv, hparse, stable_onFrom _ s s' hs hs' hmove hfrom⟩

/-- A step that leaves the alias where it is leaves the adapter ready. -/
theorem Ready.step {s s' : Cluster} (h : m.Ready t s)
    (hres : s'.resolve m.aliasName = s.resolve m.aliasName) :
    Standing m.aliasName s' ∧ Advances m.aliasName s s' ∧ m.Ready t s' := by
  refine ⟨(h.1.of_resolve hres).standing, advances_of_resolve hres, h.1.of_resolve hres,
    fun pending hp => ?_⟩
  obtain ⟨hv, hparse, k, hle, hk⟩ := h.2 pending hp
  exact ⟨hv, hparse, k, hle, hres.trans hk⟩

theorem upkeep_ensureIndex (m : Image) (t : AdapterState) :
    Upkeep m.aliasName (Client.Yields fun _ u s => m.Ready u s) (m.ensureIndex t) fun _ => True := by
  unfold ensureIndex
  refine Client.guarantees_bind (m.upkeep_readLiveIndex t) fun live u => ?_
  cases live with
  | none =>
    refine Client.guarantees_bind ((m.upkeep_createInitialIndex u).weaken fun _ _ _ => trivial)
      fun _ u => ?_
    refine Client.guarantees_bind (A := fun _ u' s => u'.pending = none ∧ OnSome m.aliasName s)
      (Client.guarantees_pure fun s _ h => ⟨rfl, h⟩) fun _ u' => ?_
    exact Client.guarantees_pure fun s _ h => ⟨h.2, fun p hp => by rw [h.1] at hp; cases hp⟩
  | some live =>
    refine Client.guarantees_bind (A := fun _ _ s =>
      parsePhysicalIndexVersion m.aliasName (m.physical live.version) = .ok live.version ∧
        OnFrom m.aliasName live.version s) (Client.guarantees_pure fun s _ h => h live rfl) fun _ u => ?_
    split_ifs
    · refine Client.guarantees_bind (A := fun _ u' s => u'.pending = none ∧ OnSome m.aliasName s)
        (Client.guarantees_pure fun s _ h => ⟨rfl, h.2.onSome⟩) fun _ u' => ?_
      exact Client.guarantees_pure fun s _ h => ⟨h.2, fun p hp => by rw [h.1] at hp; cases hp⟩
    · by_cases hparse : parsePhysicalIndexVersion m.aliasName (m.physical live.version) =
          .ok live.version
      · refine Client.guarantees_bind ((m.upkeep_createPendingIndex _ live.version u).weaken
          fun _ _ h => h.2) fun _ u => ?_
        refine Client.guarantees_bind (A := fun _ u' s =>
          u'.pending = some ⟨live.version.succ, live.version⟩ ∧ OnFrom m.aliasName live.version s)
          (Client.guarantees_pure fun s _ h => ⟨rfl, h⟩) fun _ u' => ?_
        refine Client.guarantees_pure fun s _ h => ⟨h.2.onSome, fun p hp => ?_⟩
        rw [h.1] at hp
        obtain rfl := Option.some.inj hp
        exact ⟨rfl, hparse, h.2⟩
      · exact Program.guarantees_of_false fun s _ h => hparse h.1

theorem upkeep_bulkIndex (m : Image) (products : List Product) (t : AdapterState) :
    Upkeep m.aliasName (Client.Yields fun _ u s => m.Ready u s) (m.bulkIndex products t) (m.Ready t) := by
  unfold bulkIndex
  split_ifs
  · exact Client.guarantees_pure fun s _ h => h
  · rw [Client.get_bind_apply]
    refine upkeep_call_bind (fun _ => m.Ready t) (fun _ => m.stable_ready t)
      (fun s f hs hp _ => ?_) fun r => Client.guarantees_pure fun s _ h => h
    have hne : s.resolve m.aliasName ≠ [] := by
      obtain ⟨k, hk⟩ := hp.1
      rw [hk]
      exact List.cons_ne_nil _ _
    have hres : (s.apply (.bulk (buildBulkOperations products (m.writeTarget t))) f).2.resolve
        m.aliasName = s.resolve m.aliasName := by
      unfold Cluster.apply
      simp only [upserts_buildBulkOperations]
      exact resolve_upsertItems hne _ _
    obtain ⟨hstand, hmove, hready⟩ := hp.step hres
    exact ⟨hstand, hmove, fun _ _ => hready⟩

theorem upkeep_refresh (m : Image) (t : AdapterState) :
    Upkeep m.aliasName (Client.Yields fun _ u s => m.Ready u s) (m.refresh t) (m.Ready t) := by
  unfold refresh
  rw [Client.get_bind_apply]
  refine (upkeep_call (fun _ => m.Ready t) (fun _ _ => True) (fun _ => m.stable_ready t)
    (fun _ => stable_true _ _) (fun _ _ => trivial) fun s f hs hp _ _ => ?_).mono ?_
  · have hstate : (s.apply (.refresh (m.writeTarget t)) f).2 = s := Cluster.apply_refresh_state
    rw [hstate]
    refine ⟨hs, Advances.refl s, ?_⟩
    split
    · exact hp
    · trivial
  · rintro r s h b hb
    obtain ⟨hu, hready⟩ := h.1 b hb
    rwa [hu]

/-- Deleting older versions leaves the alias alone. -/
theorem upkeep_deleteAll (m : Image) (retained : Whole) (stale : List (String × Whole))
    (hstale : ∀ p ∈ stale, parsePhysicalIndexVersion m.aliasName p.1 = .ok p.2 ∧ p.2 < retained)
    (t : AdapterState) :
    Upkeep m.aliasName (Client.Yields fun _ _ _ => True)
      ((stale.forM fun index => call (.delete index.1)) t) (OnFrom m.aliasName retained) := by
  induction stale with
  | nil => exact Client.guarantees_pure fun _ _ _ => trivial
  | cons p stale ih =>
    rw [List.forM_eq_forM, List.forM_cons]
    refine upkeep_call_bind (fun _ => OnFrom m.aliasName retained) (fun _ => stable_onFrom retained)
      (fun s f hs hp _ => ?_) fun _ => ih fun q hq => hstale q (List.mem_cons_of_mem _ hq)
    cases hfind : s.find p.1 with
    | none =>
      have happ : (s.apply (.delete p.1) f).2 = s := congrArg Prod.snd (if_neg (by simp [hfind]))
      rw [happ]
      exact ⟨hs, Advances.refl s, fun _ _ => hp⟩
    | some ix =>
      rw [Cluster.apply_delete (by rw [hfind]; rfl)]
      obtain ⟨k, hle, hk⟩ := hp
      have hne : physicalIndexName m.aliasName k ≠ p.1 := by
        intro he
        obtain ⟨hparse, hlt⟩ := hstale p List.mem_cons_self
        rw [← he] at hparse
        rw [parsePhysicalIndexVersion_name hparse, Whole.lt_def] at hlt
        exact absurd hlt (not_lt.mpr hle)
      have hres := resolve_erase hk hne
      exact ⟨Or.inr ⟨k, hres.trans hk⟩, advances_of_resolve hres, fun _ _ => ⟨k, hle, hres.trans hk⟩⟩

theorem upkeep_pruneOlderThan (m : Image) (retained : Whole) (t : AdapterState) :
    Upkeep m.aliasName (Client.Yields fun _ _ _ => True) (m.pruneOlderThan retained t)
      (OnFrom m.aliasName retained) := by
  unfold pruneOlderThan
  refine upkeep_call_bind (fun _ => OnFrom m.aliasName retained) (fun _ => stable_onFrom retained)
    (fun s f hs hp _ => ⟨hs, Advances.refl s, fun _ _ => hp⟩) fun names => ?_
  refine Client.guarantees_bind (m.upkeep_deleteAll retained _ (fun p hp => (mem_staleIndices hp).2) t)
    fun _ _ => Client.guarantees_pure fun _ _ _ => trivial

/-- A flip that is not stale moves the alias to the pending version. -/
theorem flip_step {pending : PendingVersion} {s : Cluster} {f : Fate} (hs : Standing m.aliasName s)
    (hready : OnFrom m.aliasName pending.replacedVersion s)
    (hnext : pending.version = pending.replacedVersion.succ)
    (hparse : parsePhysicalIndexVersion m.aliasName (m.physical pending.replacedVersion) =
      .ok pending.replacedVersion)
    (hfresh : ¬ Stale m.aliasName s (.updateAliases (m.flipActions pending)) f)
    (hserved : f.served = true) :
    Standing m.aliasName (s.apply (.updateAliases (m.flipActions pending)) f).2 ∧
      Advances m.aliasName s (s.apply (.updateAliases (m.flipActions pending)) f).2 ∧
        OnFrom m.aliasName pending.replacedVersion
          (s.apply (.updateAliases (m.flipActions pending)) f).2 := by
  by_cases hboth : (s.find (m.physical pending.version)).isSome ∧
      (s.find (m.physical pending.replacedVersion)).isSome
  · rw [apply_flip hboth.1 hboth.2]
    have hon : s.aliases m.aliasName = [m.physical pending.replacedVersion] ∨
        s.aliases m.aliasName = [m.physical pending.version] := by
      by_contra hno
      rw [not_or] at hno
      obtain ⟨-, k, hk⟩ := hready.onSome.alias
      exact hfresh ⟨hserved, by rw [hk]; exact List.cons_ne_nil _ _, _, _, rfl, hboth.2, hboth.1,
        hno.1, hno.2⟩
    have hres : (m.flippedCluster s pending).resolve m.aliasName = [m.physical pending.version] := by
      have hfree : (m.flippedCluster s pending).find m.aliasName = none := by
        unfold flippedCluster
        rw [Cluster.find_addAlias, Cluster.find_removeAlias, hs.free]
      rw [Cluster.resolve_eq_aliases hfree]
      unfold flippedCluster
      rw [Cluster.aliases_addAlias _ (by rw [Cluster.find_removeAlias]; exact hboth.1),
        Cluster.aliases_removeAlias]
      rcases hon with h | h
      · simp [h]
      · by_cases hv : m.physical pending.version = m.physical pending.replacedVersion
        · simp [h, hv]
        · simp [h, hv]
    refine ⟨Or.inr ⟨_, hres⟩, fun version hv => ?_, pending.version, ?_, hres⟩
    · rw [hs.resolve] at hv
      rcases hon with h | h
      · -- from the replaced version to the next
        have hname : m.physical pending.replacedVersion = m.physical version :=
          List.singleton_inj.mp (h.symm.trans hv)
        have hversion : pending.replacedVersion = version :=
          parsePhysicalIndexVersion_name (hname ▸ hparse)
        exact ⟨pending.version, hversion ▸ hnext ▸ Whole.le_succ _, hres⟩
      · refine ⟨version, Nat.le_refl _, hres.trans ?_⟩
        exact h.symm.trans hv
    · rw [hnext]
      exact Whole.le_succ _
  · -- one of the two does not exist: all or nothing
    have hsome : ∃ action, (m.flipActions pending).find?
        (fun action => (s.find action.target).isNone) = some action := by
      rw [← Option.isSome_iff_exists, List.find?_isSome]
      by_cases hold : (s.find (m.physical pending.replacedVersion)).isSome
      · refine ⟨.add (m.physical pending.version) m.aliasName, by simp [flipActions], ?_⟩
        simpa [AliasAction.target] using fun h => hboth ⟨h, hold⟩
      · exact ⟨.remove (m.physical pending.replacedVersion) m.aliasName, by simp [flipActions],
          by simpa [AliasAction.target] using hold⟩
    obtain ⟨action, haction⟩ := hsome
    have happ : (s.apply (.updateAliases (m.flipActions pending)) f).2 = s := by
      unfold Cluster.apply
      simp only [haction]
    rw [happ]
    exact ⟨hs, Advances.refl s, hready⟩

theorem upkeep_publishIndex (m : Image) (t : AdapterState) :
    Upkeep m.aliasName (Client.Yields fun _ _ _ => True) (m.publishIndex t) (m.Ready t) := by
  unfold publishIndex
  rw [Client.get_bind_apply]
  cases hpending : t.pending with
  | none =>
    cases t.servedVersion with
    | none => exact Client.guarantees_throw
    | some served => exact Client.guarantees_pure fun _ _ _ => trivial
  | some pending =>
    by_cases hfacts : pending.version = pending.replacedVersion.succ ∧
        parsePhysicalIndexVersion m.aliasName (m.physical pending.replacedVersion) =
          .ok pending.replacedVersion
    · refine Client.guarantees_bind (A := fun _ _ s => OnFrom m.aliasName pending.replacedVersion s)
        ((upkeep_call (fun _ => OnFrom m.aliasName pending.replacedVersion) (fun _ _ => True)
          (fun _ => stable_onFrom _) (fun _ => stable_true _ _) (fun _ _ => trivial)
          fun s f hs hp hfresh hserved => ?_).mono fun r s h b hb => (h.1 b hb).2) fun _ u => ?_
      · obtain ⟨hstand, hmove, hfrom⟩ :=
          flip_step hs (hp.2 pending hpending).2.2 hfacts.1 hfacts.2 hfresh hserved
        refine ⟨hstand, hmove, ?_⟩
        split
        · exact hfrom
        · trivial
      · refine Client.guarantees_bind (m.upkeep_pruneOlderThan pending.replacedVersion u) fun _ _ => ?_
        exact Client.guarantees_bind (A := fun _ _ _ => True) (Client.guarantees_pure fun _ _ _ => trivial)
          fun _ _ => Client.guarantees_pure fun _ _ _ => trivial
    · refine Program.guarantees_of_false fun s _ h => hfacts ?_
      exact ⟨(h.2 pending hpending).1, (h.2 pending hpending).2.1⟩

/-- A whole run of the seed. -/
theorem upkeep_seed (m : Image) (products : List Product) :
    Upkeep m.aliasName (fun _ _ => True) (m.seed products) fun _ => True := by
  unfold seed execute
  refine Program.Guarantees.bind (A := fun _ _ => True) (Program.Guarantees.mono (Q := Client.Yields
    fun _ _ _ => True) ?_ fun _ _ _ => trivial) fun r => fun _ _ _ => trivial
  refine Client.guarantees_bind (m.upkeep_ensureIndex freshAdapter) fun preparation u => ?_
  refine Client.guarantees_bind (m.upkeep_bulkIndex products u) fun bulk u => ?_
  refine Client.guarantees_bind (m.upkeep_refresh u) fun _ u => ?_
  split_ifs
  · exact Client.guarantees_pure fun _ _ _ => trivial
  · exact Client.guarantees_bind (m.upkeep_publishIndex u) fun _ _ =>
      Client.guarantees_pure fun _ _ _ => trivial

end Image

/-! ## Interleaved runs -/

/-- A stale step makes the alias ambiguous. -/
theorem Stale.two {c : EsCall} {f : Fate} (h : Stale a s c f) (hs : Standing a s) :
    ∃ first second, (elasticsearch.serve s c f).2.resolve a = [first, second] := by
  obtain ⟨hserved, hne, hcall⟩ := h
  have hstate : (elasticsearch.serve s c f).2 = (s.apply c f).2 := by
    cases hd : f.delivery with
    | answered => rw [serve_answered hd]
    | lost e => rw [serve_lost hd]
    | unreached e => simp [Fate.served, hd] at hserved
  have hfree := hs.free
  obtain ⟨k, hk⟩ : ∃ k, s.aliases a = [physicalIndexName a k] :=
    (hs.onSome_of_ne (by rw [hs.resolve]; exact hne)).alias.2
  rw [hstate]
  split at hcall
  · obtain ⟨rfl, rfl, hnone⟩ := hcall
    have hnot : physicalIndexName a firstVersion ∉ s.aliases a := fun hm => by
      have := Cluster.find_isSome_of_mem hm
      rw [hnone] at this
      cases this
    rw [Cluster.apply_create hnone, List.foldl_cons, List.foldl_nil, Cluster.resolve_eq_aliases,
      Cluster.aliases_addAlias, Cluster.aliases_insert, if_neg hnot, hk]
    · exact ⟨_, _, rfl⟩
    · rw [Cluster.find_insert _ hnone, if_pos rfl]
      rfl
    · rw [Cluster.find_addAlias, Cluster.find_insert _ hnone,
        if_neg (physicalIndexName_ne a firstVersion).symm, hfree]
  · obtain ⟨old, new, rfl, hold, hnew, hold', hnew'⟩ := hcall
    rw [hk, ne_eq, List.singleton_inj] at hold' hnew'
    have hfind : [AliasAction.remove old a, .add new a].find?
        (fun action => (s.find action.target).isNone) = none := by
      rw [List.find?_eq_none]
      simp [AliasAction.target, Option.isSome_iff_ne_none.mp hold, Option.isSome_iff_ne_none.mp hnew]
    have happ : (s.apply (.updateAliases [.remove old a, .add new a]) f).2 =
        (s.removeAlias old a).addAlias new a := by
      unfold Cluster.apply
      simp only [hfind]
      rfl
    rw [happ, Cluster.resolve_eq_aliases (by rw [Cluster.find_addAlias, Cluster.find_removeAlias, hfree]),
      Cluster.aliases_addAlias _ (by rw [Cluster.find_removeAlias]; exact hnew),
      Cluster.aliases_removeAlias, hk]
    refine ⟨physicalIndexName a k, new, ?_⟩
    simp [hold', Ne.symm hnew']
  · cases hcall

section Schedules

variable {ι : Type} [DecidableEq ι]

/-- From its first moment on, the alias resolves to exactly one index, which exists. -/
def AliasSingle {α : Type} (a : String) (x : (ι → Program EsCall EsAnswer α) × Cluster)
    (schedule : List (ι × Fate)) : Prop :=
  ∀ before after rest, schedule = before ++ after ++ rest →
    (interleave elasticsearch x before).2.resolve a ≠ [] →
      ∃ name, (interleave elasticsearch x (before ++ after)).2.resolve a = [name] ∧
        ((interleave elasticsearch x (before ++ after)).2.find name).isSome

omit [DecidableEq ι] in
theorem stepIs_not_not {α : Type} {P : Cluster → EsCall → Fate → Prop}
    {x : (ι → Program EsCall EsAnswer α) × Cluster} {t : ι × Fate} :
    StepIs (fun s c f => ¬ ¬ P s c f) x t ↔ StepIs P x t := by
  simp only [not_not]

omit [DecidableEq ι] in
theorem sound_start {images : ι → Image} (hsame : ∀ i, (images i).aliasName = a)
    (products : ι → List Product) {c : Cluster} (hc : Unprovisioned a c) :
    Sound elasticsearch (Standing a) (Advances a) (fun s c f => ¬ Stale a s c f)
      (fun i => (images i).seed (products i), c) where
  inv := hc.standing
  client i := by
    obtain rfl := hsame i
    exact ⟨fun _ => True, stable_true _ _, trivial, (images i).upkeep_seed (products i)⟩

/-- **The alias under concurrent seeds.** From an unprovisioned cluster, in every interleaving of any
number of runs the alias resolves to exactly one existing index from its first moment on, if and only
if no step of the interleaving is stale. -/
theorem alias_single_iff {images : ι → Image} (hsame : ∀ i, (images i).aliasName = a)
    (products : ι → List Product) {c : Cluster} (hc : Unprovisioned a c)
    (schedule : List (ι × Fate)) :
    AliasSingle a (fun i => (images i).seed (products i), c) schedule ↔
      ∀ before t rest, schedule = before ++ t :: rest →
        ¬ StepIs (Stale a)
          (interleave elasticsearch (fun i => (images i).seed (products i), c) before) t := by
  have hstart := sound_start hsame products hc
  generalize (fun i => (images i).seed (products i), c) = x at hstart
  constructor
  · intro hsingle before
    -- the first stale step is taken from a sound state
    induction hn : before.length using Nat.strong_induction_on generalizing before with
    | _ n ih =>
      intro t rest hschedule hstale
      have hsound := hstart.schedule before fun done u more he hstep => by
        refine ih done.length ?_ done rfl u (more ++ t :: rest) ?_ (stepIs_not_not.mp hstep)
        · rw [← hn, he, List.length_append, List.length_cons]
          omega
        · rw [hschedule, he, List.append_assoc, List.cons_append]
      unfold StepIs at hstale
      cases hp : (interleave elasticsearch x before).1 t.1 with
      | finished r => rw [hp] at hstale; exact hstale
      | waiting call next =>
        rw [hp] at hstale
        obtain ⟨first, second, htwo⟩ := hstale.two hsound.inv
        obtain ⟨name, hname, -⟩ := hsingle before [t] rest (by rw [hschedule]; simp)
          (by rw [hsound.inv.resolve]; exact hstale.2.1)
        have hstep : (interleave elasticsearch x (before ++ [t])).2 =
            (elasticsearch.serve (interleave elasticsearch x before).2 call t.2).2 := by
          rw [interleave_append, interleave_cons, interleave_nil]
          unfold istep
          simp only [hp, Program.step_waiting]
        rw [hstep, htwo] at hname
        cases hname
  · intro hfresh before after rest hschedule hexists
    have hbefore := hstart.schedule before fun done u more he hstep =>
      hfresh done u (more ++ after ++ rest) (by rw [hschedule, he]; simp) (stepIs_not_not.mp hstep)
    have hon := hbefore.keeps stable_onSome (hbefore.inv.onSome_of_ne hexists) after
      fun done u more he hstep => hfresh (before ++ done) u (more ++ rest)
        (by rw [hschedule, he]; simp) (by rw [interleave_append]; exact stepIs_not_not.mp hstep)
    obtain ⟨k, hk⟩ := hon
    rw [← interleave_append] at hk
    exact ⟨_, hk, Cluster.find_isSome_of_mem_resolve (hk ▸ List.mem_singleton_self _)⟩

end Schedules

/-! ### A slow first run -/

/-- Four runs without products, the third with a changed definition: the first reads the alias
before it exists, and creates its version after the others have moved on and deleted theirs. -/
def racingImage (i : Fin 4) : Image := if i = 2 then currentImage else previousImage

def racers (i : Fin 4) : Program EsCall EsAnswer (Except SeedError SeedOutcome) :=
  (racingImage i).seed []

def slowFirst : List (Fin 4 × Fate) :=
  [(0, calm)] ++ List.replicate 3 (1, calm) ++ List.replicate 5 (2, calm) ++
    List.replicate 6 (3, calm) ++ [(0, calm)]

theorem slowFirst_resolves : (interleave elasticsearch (racers, emptyCluster) slowFirst).2.resolve
    "products" = ["products_v3", "products_v1"] := by decide +kernel

/-- The alias ends on two indices. -/
theorem alias_ambiguous : Unprovisioned "products" emptyCluster ∧
    ¬ AliasSingle "products" (racers, emptyCluster) slowFirst := by
  refine ⟨⟨rfl, fun _ => rfl⟩, fun h => ?_⟩
  obtain ⟨name, hname, -⟩ := h slowFirst [] [] (by simp) (by rw [slowFirst_resolves]; decide)
  rw [List.append_nil, slowFirst_resolves] at hname
  cases hname

/-- One of its steps is stale. -/
theorem alias_single_iff_slowFirst : ∃ before t rest, slowFirst = before ++ t :: rest ∧
    StepIs (Stale "products") (interleave elasticsearch (racers, emptyCluster) before) t := by
  by_contra hno
  have hsame : ∀ i, (racingImage i).aliasName = "products" := by decide
  have hsingle : AliasSingle "products" (racers, emptyCluster) slowFirst :=
    (alias_single_iff hsame (fun _ => []) ⟨rfl, fun _ => rfl⟩ slowFirst).mpr
      fun before t rest he hstale => hno ⟨before, t, rest, he, hstale⟩
  obtain ⟨name, hname, -⟩ := hsingle slowFirst [] [] (by simp) (by rw [slowFirst_resolves]; decide)
  rw [List.append_nil, slowFirst_resolves] at hname
  cases hname

end AdvancedSearch
