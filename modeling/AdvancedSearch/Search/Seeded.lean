import AdvancedSearch.Index.Served
import AdvancedSearch.Search.Pages

/-!
# What is seeded is what is found

From a dataset through the index to the pages of a search. After a seed of valid records that started
clean, the pages of every search list exactly the records' products that it selects, each once
(`seeded_found`).
-/

namespace AdvancedSearch

open Js Service

/-! ## Searching a cluster -/

/-- A list of the documents of an index, each once. -/
structure Lists (documents : Documents) (docs : List ProductDocument) : Prop where
  nodup : (docs.map (·.id)).Nodup
  mem_iff : ∀ doc, doc ∈ docs ↔ documents doc.id = some doc

/-- The search endpoint of a cluster whose indices hold these lists of documents. -/
def Cluster.client (c : Cluster) (engine : SearchEngine) (listing : String → List ProductDocument) :
    SearchClient String := fun index text =>
  match c.resolve index with
  | [] => .error "index_not_found_exception"
  | names => engine.client (names.flatMap listing) index text

section Client

variable {c : Cluster} {engine : SearchEngine} {listing : String → List ProductDocument}
  {adapter : SearchAdapter} {name : String}

/-- A search of an alias on one index searches that index. -/
theorem search_client (hresolve : c.resolve adapter.index = [name]) (criteria : SearchCriteria) :
    adapter.search (c.client engine listing) criteria =
      adapter.search (engine.client (listing name)) criteria := by
  have hclient : ∀ text, c.client engine listing adapter.index text =
      engine.client (listing name) adapter.index text := by
    intro text
    unfold Cluster.client
    rw [hresolve]
    show engine.client ([name].flatMap listing) adapter.index text = _
    rw [List.flatMap_singleton]
  unfold SearchAdapter.search
  simp only [hclient]

end Client

/-! ## Pages of a list -/

/-- What was collected came from somewhere. -/
theorem mem_of_mapM {ε α β : Type} {f : α → Except ε β} {xs : List α} {ys : List β} {y : β}
    (h : xs.mapM f = .ok ys) (hy : y ∈ ys) : ∃ x ∈ xs, f x = .ok y := by
  induction xs generalizing ys with
  | nil =>
    cases h
    cases hy
  | cons x xs ih =>
    rw [List.mapM_cons] at h
    cases hx : f x with
    | error e =>
      rw [hx] at h
      cases h
    | ok z =>
      cases hxs : xs.mapM f with
      | error e =>
        rw [hx, hxs] at h
        cases h
      | ok zs =>
        rw [hx, hxs] at h
        cases h
        rcases List.mem_cons.mp hy with rfl | hy
        · exact ⟨x, List.mem_cons_self, hx⟩
        · obtain ⟨x', hx', heq⟩ := ih hxs hy
          exact ⟨x', List.mem_cons_of_mem _ hx', heq⟩

/-- A document that a search selects. -/
def SearchEngine.selects (engine : SearchEngine) (criteria : SearchCriteria) (relevance : RelevanceConfig)
    (doc : ProductDocument) : Bool :=
  accepts criteria.filters none doc && engine.matchesQuery (buildTextQuery criteria.query relevance) doc

/-- The first pages of a search, as many as end within the window. -/
theorem first_pages {adapter : SearchAdapter} (engine : SearchEngine) (docs : List ProductDocument)
    (criteria : SearchCriteria) {k w p : ℕ} {size : Double} (hsize : criteria.pageSize = .finite size)
    (hk : size.value = k) (hpos : 0 < k) (hwindow : adapter.maxResultWindow = .ofRat w)
    (hw : w < 2 ^ 53) (hp : p * k ≤ w) :
    ∃ outcomes, (List.range p).mapM (fun i =>
        adapter.search (engine.client docs) (criteria.onPage (.ofRat (i + 1 : ℕ)))) = .ok outcomes ∧
      (∀ outcome ∈ outcomes,
        outcome.total = .ofRat (engine.hits docs criteria adapter.relevance).length) ∧
      outcomes.flatMap (·.items) =
        ((engine.ordered docs criteria adapter.relevance).take (p * k)).map engine.summary := by
  have hanswers : ∀ i < p, ∃ outcome, adapter.search (engine.client docs)
      (criteria.onPage (.ofRat (i + 1 : ℕ))) = .ok outcome ∧ outcome.items =
        (Ranking.page (i * k) k (engine.ordered docs criteria adapter.relevance)).map engine.summary :=
    fun i hi => search_page engine docs criteria hsize hk hpos hwindow hw
      ((Nat.mul_le_mul_right k hi).trans hp)
  obtain ⟨outcomes, hmap, hflat⟩ := mapM_of_answers hanswers
  refine ⟨outcomes, hmap, fun outcome houtcome => ?_, ?_⟩
  · obtain ⟨i, -, hsearch⟩ := mem_of_mapM hmap houtcome
    exact total_of_search engine docs criteria hsearch
  · rw [hflat, ← List.map_flatMap, Ranking.flatMap_page]

/-! ## From a seed to its pages -/

/-- A document is kept under its id. -/
theorem recordDocuments_id {parseDate : String → Option ℤ} {records : List RawProduct} {id : String}
    {doc : ProductDocument} (h : recordDocuments parseDate records id = some doc) : doc.id = id := by
  obtain ⟨r, -, rfl, p, hproduct, rfl⟩ := exists_record h
  exact toProduct_id parseDate hproduct

namespace Image

variable {m : Image} {s t : Cluster} {records : List RawProduct}

/-- A seed without a failure that started clean serves its records. -/
theorem servesExactly_of_seed (hread : m.Readable s)
    (hvalid : (loadProducts m.parseDate records).invalid = []) (hclean : m.StartsClean s records)
    {fates : List Fate} {outcome : SeedOutcome}
    (hrun : Program.run elasticsearch (m.seed (loadProducts m.parseDate records).products, s) fates =
      (.finished (.ok outcome), t)) (hfailed : outcome.bulk.failed = 0) : m.ServesExactly t records := by
  have hserves := Program.Upholds.finish (runs_seed_serves hread hvalid [] rfl) (fun _ _ => trivial) hrun
  exact (hserves outcome rfl hfailed).mpr hclean

end Image

/-- **What is seeded is what is found.** After a seed of valid records that starts clean and reports no
failure, whatever a search selects and however it is sorted, its first pages, as many as end within the
window, are answered, and all count the same hits. They list no product twice, and none but the records'
products that the search selects, as the records have them; and they list all of these once they have
room for the hits. -/
theorem seeded_found (m : Image) {s t : Cluster} (hread : m.Readable s) {records : List RawProduct}
    (hvalid : (loadProducts m.parseDate records).invalid = []) (hclean : m.StartsClean s records)
    {fates : List Fate} {seeded : SeedOutcome}
    (hrun : Program.run elasticsearch (m.seed (loadProducts m.parseDate records).products, s) fates =
      (.finished (.ok seeded), t)) (hfailed : seeded.bulk.failed = 0)
    {listing : String → List ProductDocument}
    (hlisting : ∀ name ix, t.resolve m.aliasName = [name] → t.find name = some ix →
      Lists ix.documents (listing name))
    {env : Env} (henv : env.Accepted) (halias : env.ELASTICSEARCH_INDEX = m.aliasName)
    (engine : SearchEngine) (criteria : SearchCriteria) {k p : ℕ} {size : Double}
    (hsize : criteria.pageSize = .finite size) (hk : size.value = k) (hpos : 0 < k)
    (hwindow : Number.lt env.SEARCH_MAX_RESULT_WINDOW (.ofRat (p * k : ℕ)) = false) :
    let adapter := SearchAdapter.of (buildConfig env)
    let documents := recordDocuments m.parseDate records
    let selects := engine.selects criteria adapter.relevance
    ∃ outcomes hits, (List.range p).mapM (fun i => adapter.search (t.client engine listing)
        (criteria.onPage (.ofRat (i + 1 : ℕ)))) = .ok outcomes ∧
      (∀ outcome ∈ outcomes, outcome.total = .ofRat (hits : ℕ)) ∧
      (outcomes.flatMap (·.items)).length = min (p * k) hits ∧
      ((outcomes.flatMap (·.items)).map (·.id)).Nodup ∧
      (∀ item ∈ outcomes.flatMap (·.items), ∃ doc, documents item.id = some doc ∧ selects doc ∧
        item = engine.summary doc) ∧
      (hits ≤ p * k → ∀ id doc, documents id = some doc → selects doc →
        engine.summary doc ∈ outcomes.flatMap (·.items)) := by
  intro adapter documents selects
  obtain ⟨name, ix, hresolve, hfind, hdocuments⟩ :=
    Image.servesExactly_of_seed hread hvalid hclean hrun hfailed
  have hlists := hlisting name ix hresolve hfind
  rw [hdocuments] at hlists
  obtain ⟨w, hmax, -, hw⟩ := exists_nat_of_isPositiveInt henv.maxResultWindow
  have hp : p * k ≤ w := by
    rw [hmax, Number.lt_natCast hw, decide_eq_false_iff_not] at hwindow
    exact not_lt.mp hwindow
  have hlimit : adapter.maxResultWindow = .ofRat w := hmax
  obtain ⟨outcomes, hmap, htotal, hitems⟩ :=
    first_pages engine (listing name) criteria hsize hk hpos hlimit hw hp
  have hperm : (engine.ordered (listing name) criteria adapter.relevance).Perm
      (engine.hits (listing name) criteria adapter.relevance) := Ranking.rank_perm _ _
  have hselected : ∀ doc, doc ∈ engine.ordered (listing name) criteria adapter.relevance ↔
      documents doc.id = some doc ∧ selects doc := by
    intro doc
    rw [hperm.mem_iff, ← hlists.mem_iff]
    exact List.mem_filter
  refine ⟨outcomes, _, ?_, htotal, ?_, ?_, ?_, ?_⟩
  · rw [← hmap]
    exact congrArg (List.mapM · _) (funext fun i =>
      search_client (hresolve.symm ▸ congrArg t.resolve halias) _)
  · rw [hitems, List.length_map, List.length_take, hperm.length_eq]
  · rw [hitems, List.map_map, show (·.id) ∘ engine.summary = ProductDocument.id from rfl]
    have hids : ((engine.hits (listing name) criteria adapter.relevance).map (·.id)).Nodup :=
      hlists.nodup.sublist (List.filter_sublist.map _)
    exact ((hperm.map _).nodup_iff.mpr hids).sublist ((List.take_sublist _ _).map _)
  · intro item hitem
    rw [hitems] at hitem
    obtain ⟨doc, hdoc, rfl⟩ := List.mem_map.mp hitem
    obtain ⟨hkept, hselects⟩ := (hselected doc).mp (List.mem_of_mem_take hdoc)
    exact ⟨doc, hkept, hselects, rfl⟩
  · intro hroom id doc hdoc hselects
    rw [hitems, List.take_of_length_le (hperm.length_eq.trans_le hroom)]
    refine List.mem_map_of_mem ((hselected doc).mpr ⟨?_, hselects⟩)
    rw [recordDocuments_id hdoc]
    exact hdoc

/-! ## Three drills, one of them repriced -/

/-- Two records of one product among others. -/
def repricedDrills : List RawProduct := [drill "p-1" 9, drill "p-2" 7, drill "p-1" 8, drill "p-3" 6]

/-- An undisturbed seed of them. -/
def repricedSeed : Program EsCall EsAnswer (Except SeedError SeedOutcome) × Cluster :=
  Program.run elasticsearch
    (currentImage.seed (loadProducts currentImage.parseDate repricedDrills).products, emptyCluster)
    (List.replicate 9 calm)

/-- Whether a seed has ended without a failure. -/
def isComplete : Program EsCall EsAnswer (Except SeedError SeedOutcome) → Bool
  | .finished (.ok outcome) => outcome.bulk.failed = 0
  | _ => false

theorem of_isComplete {x : Program EsCall EsAnswer (Except SeedError SeedOutcome) × Cluster}
    (h : isComplete x.1 = true) :
    ∃ outcome t, x = (.finished (.ok outcome), t) ∧ outcome.bulk.failed = 0 := by
  obtain ⟨program, t⟩ := x
  rcases program with (e | outcome) | _
  · cases h
  · exact ⟨outcome, t, rfl, of_decide_eq_true h⟩
  · cases h

/-- What the index holds of a record. -/
def drillDocument (id : String) (price : ℚ) : ProductDocument where
  id := id
  name := "Cordless Drill"
  description := "A powerful drill"
  category := "Tools"
  subcategories := ["Power Tools"]
  location := "Berlin"
  price := .ofRat price
  popularity := .ofRat 10
  createdAt := "2026-01-01T00:00:00.000Z"

def drillDocuments : List ProductDocument :=
  [drillDocument "p-1" 8, drillDocument "p-2" 7, drillDocument "p-3" 6]

theorem lists_repriced :
    Lists (recordDocuments currentImage.parseDate repricedDrills) drillDocuments where
  nodup := by decide
  mem_iff doc := by
    have hkept : ∀ doc ∈ drillDocuments,
        recordDocuments currentImage.parseDate repricedDrills doc.id = some doc := by decide +kernel
    refine ⟨hkept doc, fun h => ?_⟩
    obtain ⟨r, hr, hid, -⟩ := exists_record h
    have hlisted : ∀ r ∈ repricedDrills, ∃ listed ∈ drillDocuments, listed.id = r.id := by decide
    obtain ⟨listed, hlisted, heq⟩ := hlisted r hr
    have hdoc := hkept listed hlisted
    rw [heq, hid, h] at hdoc
    rwa [Option.some.inj hdoc]

/-- Pages of two show each product once, the first at its later price. -/
theorem seeded_found_repriced : ∃ outcome t, repricedSeed = (.finished (.ok outcome), t) ∧
    ∃ outcomes, (List.range 2).mapM (fun i => (SearchAdapter.of (buildConfig (deployment 5))).search
        (t.client matchAll fun _ => drillDocuments) ((browse 2).onPage (.ofRat (i + 1 : ℕ)))) =
          .ok outcomes ∧
      ((outcomes.flatMap (·.items)).map (·.id)).Perm ["p-1", "p-2", "p-3"] ∧
      matchAll.summary (drillDocument "p-1" 8) ∈ outcomes.flatMap (·.items) := by
  have hcomplete : isComplete repricedSeed.1 = true := by decide +kernel
  obtain ⟨seeded, t, hrun, hfailed⟩ := of_isComplete hcomplete
  have hread : currentImage.Readable emptyCluster := Or.inl rfl
  have hvalid : (loadProducts currentImage.parseDate repricedDrills).invalid = [] := by decide +kernel
  have hclean : currentImage.StartsClean emptyCluster repricedDrills :=
    { absent := fun _ ix hix => by cases hix
      inPlace := fun _ _ _ hlive => absurd rfl hlive.not_absent
      migrating := fun _ _ _ hlive => absurd rfl hlive.not_absent }
  have hlisting : ∀ name ix, t.resolve currentImage.aliasName = [name] → t.find name = some ix →
      Lists ix.documents drillDocuments := by
    intro name ix hresolve hfind
    obtain ⟨name', ix', hresolve', hfind', hdocuments⟩ :=
      Image.servesExactly_of_seed hread hvalid hclean hrun hfailed
    obtain rfl := List.singleton_inj.mp (hresolve.symm.trans hresolve')
    obtain rfl := Option.some.inj (hfind.symm.trans hfind')
    rw [hdocuments]
    exact lists_repriced
  obtain ⟨size, hsize, hvalue⟩ := Number.exists_double_natCast (n := 2) (by norm_num)
  have haccepted : (deployment 5).Accepted := deployment_accepted (by norm_num)
  have hwindow : Number.lt (deployment 5).SEARCH_MAX_RESULT_WINDOW (.ofRat (2 * 2 : ℕ)) = false := by
    rw [show (deployment 5).SEARCH_MAX_RESULT_WINDOW = .ofRat (10000 : ℕ) from rfl,
      Number.lt_natCast (by norm_num)]
    rfl
  obtain ⟨outcomes, hits, hmap, -, hlength, hnodup, honly, hall⟩ :=
    seeded_found currentImage hread hvalid hclean hrun hfailed hlisting haccepted rfl matchAll (browse 2)
      hsize hvalue (by norm_num) hwindow
  refine ⟨seeded, t, hrun, outcomes, hmap, ?_⟩
  have hids : (outcomes.flatMap (·.items)).map (·.id) ⊆ ["p-1", "p-2", "p-3"] := by
    intro id hid
    obtain ⟨item, hitem, rfl⟩ := List.mem_map.mp hid
    obtain ⟨doc, hdoc, -, rfl⟩ := honly item hitem
    exact List.mem_map_of_mem (f := (·.id)) ((lists_repriced.mem_iff doc).mpr hdoc)
  -- three products at most are listed, so the pages hold all that is hit
  have hfew := hnodup.length_le_of_subset hids
  rw [List.length_map, hlength] at hfew
  have hroom : hits ≤ 2 * 2 := by
    simp only [List.length_cons, List.length_nil] at hfew
    omega
  have hlisted : ∀ doc ∈ drillDocuments, matchAll.summary doc ∈ outcomes.flatMap (·.items) :=
    fun doc hdoc => hall hroom doc.id doc ((lists_repriced.mem_iff doc).mp hdoc) rfl
  refine ⟨(List.perm_ext_iff_of_nodup hnodup (by decide)).mpr fun id => ⟨fun h => hids h, fun hid => ?_⟩,
    hlisted _ List.mem_cons_self⟩
  obtain ⟨doc, hdoc, rfl⟩ := List.mem_map.mp (show id ∈ drillDocuments.map (·.id) from hid)
  exact List.mem_map_of_mem (f := (·.id)) (hlisted doc hdoc)

end AdvancedSearch
