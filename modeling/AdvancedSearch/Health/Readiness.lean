import AdvancedSearch.Health.CheckHealth
import AdvancedSearch.Index.Continuity

/-!
# Readiness while the index is seeded

The probes of `HealthModule`, the endpoints of `HealthController`, and a deployment: seeds that run
against the cluster while the platform polls. An endpoint answers 200 exactly when the call of the
probe gets through and the alias resolves, and no seed takes that back (`readiness_latched`).
-/

namespace AdvancedSearch

open Edges Service

/-! ## Probes -/

def RedisHealthProbe : HealthProbe := ⟨"redis", false⟩

/-- How `client.ping()` ends decides. -/
def RedisHealthProbe.ping (pong : Except Thrown String) : DependencyHealth :=
  match pong with
  | .ok pong =>
    { name := RedisHealthProbe.name
      status := if pong = "PONG" then .up else .down
      critical := RedisHealthProbe.critical }
  | .error error =>
    { name := RedisHealthProbe.name
      status := .down
      critical := RedisHealthProbe.critical
      detail := some (errorMessage error) }

def ElasticsearchHealthProbe : HealthProbe := ⟨"elasticsearch", true⟩

/-- How `client.indices.exists` ends decides. -/
def ElasticsearchHealthProbe.ping (indexExists : Except Thrown Bool) : DependencyHealth :=
  match indexExists with
  | .ok false =>
    { name := ElasticsearchHealthProbe.name
      status := .down
      critical := ElasticsearchHealthProbe.critical
      detail := some "Configured search index is missing" }
  | .ok true =>
    { name := ElasticsearchHealthProbe.name
      status := .up
      critical := ElasticsearchHealthProbe.critical }
  | .error error =>
    { name := ElasticsearchHealthProbe.name
      status := .down
      critical := ElasticsearchHealthProbe.critical
      detail := some (errorMessage error) }

/-- What `HEALTH_PROBE` provides. -/
def healthProbes : List HealthProbe := [ElasticsearchHealthProbe, RedisHealthProbe]

/-- `client.indices.exists({ index })`: an index or an alias of that name. -/
def Cluster.indexExists (c : Cluster) (name : String) : Bool := c.resolve name ≠ []

/-! ## Endpoints -/

structure HealthResponseDto where
  status : HealthStatus
  info : List (String × DependencyStatus)
  deriving DecidableEq

/-- `info[name] = { status }`: a name that is there keeps its place. -/
def assignInfo (info : List (String × DependencyStatus)) (name : String) (status : DependencyStatus) :
    List (String × DependencyStatus) :=
  if name ∈ info.map Prod.fst then
    info.map fun entry => if entry.1 = name then (name, status) else entry
  else info ++ [(name, status)]

def toHealthResponseDto (report : HealthReport) : HealthResponseDto where
  status := report.status
  info := report.dependencies.foldl (fun info dep => assignInfo info dep.name dep.status) []

structure HealthResponse where
  statusCode : ℕ
  cacheControl : String
  body : HealthResponseDto
  deriving DecidableEq

inductive HealthEndpoint where
  | health | ready | live
  deriving DecidableEq

namespace HealthController

/-- One status rule and one cache rule for all three endpoints. -/
def render (report : HealthReport) : HealthResponse where
  statusCode := if report.status = .ok then 200 else 503
  cacheControl := "no-store"
  body := toHealthResponseDto report

def serve (endpoint : HealthEndpoint) (s : CheckHealth) (ping : Pings) : HealthResponse × CheckHealth :=
  match endpoint with
  | .health =>
    let (report, s) := CheckHealth.execute healthProbes s ping
    (render report, s)
  | .ready =>
    let (report, s) := CheckHealth.checkReadiness healthProbes s ping
    (render report, s)
  | .live => (render ⟨.ok, []⟩, s)

end HealthController

/-! ## A deployment -/

/-- A poll, and what the calls of its probes run into. -/
structure Poll where
  endpoint : HealthEndpoint
  /-- Why `indices.exists` does not get through, if it does not. -/
  outage : Option Thrown
  redis : Except Thrown String

/-- Programs of the seed, the cluster they run against, and the use case of the service. -/
structure Deployment (ι : Type) where
  seeds : (ι → Program EsCall EsAnswer (Except SeedError SeedOutcome)) × Cluster
  health : CheckHealth

inductive DeploymentEvent (ι : Type) where
  | seed (step : ι × Fate)
  | poll (poll : Poll)

/-- What a poll finds out about Elasticsearch. -/
def Poll.finding (aliasName : String) (c : Cluster) (poll : Poll) : DependencyHealth :=
  ElasticsearchHealthProbe.ping
    (match poll.outage with
      | some error => .error error
      | none => .ok (c.indexExists aliasName))

/-- How the probes settle on a cluster. -/
def Poll.pings (aliasName : String) (c : Cluster) (poll : Poll) : Pings := fun probe =>
  if probe = ElasticsearchHealthProbe then .ok (poll.finding aliasName c)
  else .ok (RedisHealthProbe.ping poll.redis)

namespace Deployment

variable {ι : Type} [DecidableEq ι]

/-- A seed makes its next call, or a poll is answered. -/
def serve (aliasName : String) (d : Deployment ι) :
    DeploymentEvent ι → Option HealthResponse × Deployment ι
  | .seed step => (none, { d with seeds := istep elasticsearch d.seeds step })
  | .poll poll =>
    let (response, health) :=
      HealthController.serve poll.endpoint d.health (poll.pings aliasName d.seeds.2)
    (some response, { d with health })

/-- What a poll is answered. -/
def answer (aliasName : String) (d : Deployment ι) (poll : Poll) : HealthResponse :=
  (HealthController.serve poll.endpoint d.health (poll.pings aliasName d.seeds.2)).1

/-- The seeds of a catalogue, and a service that has just started. -/
def start (images : ι → Image) (products : ι → List Product) (c : Cluster) : Deployment ι where
  seeds := (fun i => (images i).seed (products i), c)
  health := .start

end Deployment

section

variable {ι : Type} [DecidableEq ι] {a : String} {c : Cluster} {poll : Poll} {d : Deployment ι}

omit [DecidableEq ι] in
theorem settle_probes (poll : Poll) (c : Cluster) :
    CheckHealth.settle (poll.pings a c) healthProbes =
      [poll.finding a c, RedisHealthProbe.ping poll.redis] := rfl

omit [DecidableEq ι] in
theorem settle_critical (poll : Poll) (c : Cluster) :
    CheckHealth.settle (poll.pings a c) (healthProbes.filter fun probe => probe.critical) =
      [poll.finding a c] := rfl

theorem redis_not_critical (pong : Except Thrown String) :
    (RedisHealthProbe.ping pong).critical = false ∧ (RedisHealthProbe.ping pong).name = "redis" := by
  cases pong <;> exact ⟨rfl, rfl⟩

theorem finding_spec (poll : Poll) (c : Cluster) :
    (poll.finding a c).name = "elasticsearch" ∧ (poll.finding a c).critical = true ∧
      ((poll.finding a c).status = .up ↔ poll.outage = none ∧ c.resolve a ≠ []) := by
  unfold Poll.finding
  cases houtage : poll.outage with
  | some error => exact ⟨rfl, rfl, by simp [ElasticsearchHealthProbe.ping]⟩
  | none =>
    by_cases hres : c.resolve a = []
    · simp [ElasticsearchHealthProbe.ping, Cluster.indexExists, hres, ElasticsearchHealthProbe]
    · simp [ElasticsearchHealthProbe.ping, Cluster.indexExists, hres, ElasticsearchHealthProbe]

/-- Redis does not count for the verdict. -/
theorem verdict_probes (poll : Poll) (c : Cluster) (rest : List DependencyHealth)
    (hrest : ∀ dep ∈ rest, dep.critical = false) :
    CheckHealth.verdict (poll.finding a c :: rest) = .ok ↔ poll.outage = none ∧ c.resolve a ≠ [] := by
  obtain ⟨-, hcritical, hup⟩ := finding_spec (a := a) poll c
  unfold CheckHealth.verdict
  rw [← hup]
  have hall : rest.all (fun dep => !dep.critical || dep.status = .up) = true :=
    List.all_eq_true.mpr fun dep hdep => by rw [hrest dep hdep]; rfl
  rw [List.all_cons, hall, hcritical]
  by_cases h : (poll.finding a c).status = .up <;> simp [h]

omit [DecidableEq ι] in
/-- When an endpoint answers 200. -/
theorem answer_ok_iff (d : Deployment ι) (poll : Poll) :
    (d.answer a poll).statusCode = 200 ↔
      poll.endpoint = .live ∨ (poll.outage = none ∧ d.seeds.2.resolve a ≠ []) := by
  have hredis : ∀ dep ∈ [RedisHealthProbe.ping poll.redis], dep.critical = false := by
    intro dep hdep
    rw [List.mem_singleton.mp hdep]
    exact (redis_not_critical poll.redis).1
  have hcode : ∀ report : HealthReport, (HealthController.render report).statusCode = 200 ↔
      report.status = .ok := by
    intro report
    unfold HealthController.render
    by_cases h : report.status = .ok <;> simp [h]
  unfold Deployment.answer HealthController.serve
  cases poll.endpoint with
  | health => exact (hcode _).trans ((verdict_probes poll d.seeds.2 _ hredis).trans (by simp))
  | ready => exact (hcode _).trans ((verdict_probes poll d.seeds.2 [] nofun).trans (by simp))
  | live => simp [hcode]

/-- What a poll finds, in the order of the probes. -/
def Poll.found (aliasName : String) (c : Cluster) (poll : Poll) : List DependencyHealth :=
  match poll.endpoint with
  | .health => [poll.finding aliasName c, RedisHealthProbe.ping poll.redis]
  | .ready => [poll.finding aliasName c]
  | .live => []

theorem serve_poll (d : Deployment ι) (poll : Poll) :
    (d.serve a (.poll poll)).2 = { d with health := d.health.reportTransitions (poll.found a d.seeds.2) } := by
  have hserve : (HealthController.serve poll.endpoint d.health (poll.pings a d.seeds.2)).2 =
      d.health.reportTransitions (poll.found a d.seeds.2) := by
    unfold HealthController.serve Poll.found
    cases poll.endpoint with
    | health =>
      rw [← settle_probes]
      rfl
    | ready =>
      rw [← settle_critical]
      rfl
    | live => rfl
  show { d with health := (HealthController.serve poll.endpoint d.health (poll.pings a d.seeds.2)).2 } = _
  rw [hserve]

/-! ## Over a run -/

/-- What holds of a deployment and of what its polls have found of Elasticsearch, as long as their calls
get through. -/
structure Polled (a : String) (found : List DependencyHealth) (d : Deployment ι) : Prop where
  sound : Sound elasticsearch (fun _ => True) (Persists a) (fun _ _ _ => True) d.seeds
  reported : CheckHealth.Reported "elasticsearch" found d.health
  told : ∀ dep ∈ CheckHealth.about "elasticsearch" found,
    dep = ElasticsearchHealthProbe.ping (.ok true) ∨ dep = ElasticsearchHealthProbe.ping (.ok false)
  latched : (CheckHealth.about "elasticsearch" found).Pairwise fun x y => x.status = .up → y.status = .up
  resolves : (∃ dep ∈ CheckHealth.about "elasticsearch" found, dep.status = .up) →
    d.seeds.2.resolve a ≠ []

theorem about_found (poll : Poll) (c : Cluster) :
    CheckHealth.about "elasticsearch" (poll.found a c) =
      if poll.endpoint = .live then [] else [poll.finding a c] := by
  have hes := (finding_spec (a := a) poll c).1
  have hredis := (redis_not_critical poll.redis).2
  unfold Poll.found CheckHealth.about
  cases poll.endpoint <;> simp [hes, hredis]

/-- A step of a seed leaves an alias that resolves. -/
theorem Polled.seeds {found : List DependencyHealth} (h : Polled a found d) (step : ι × Fate) :
    Polled a found (d.serve a (.seed step)).2 := by
  obtain ⟨hsound, hmove⟩ := h.sound.istep step fun hstep => by
    unfold StepIs at hstep
    split at hstep
    · exact hstep
    · exact hstep trivial
  refine ⟨hsound, h.reported, h.told, h.latched, fun hup => ?_⟩
  have hne := h.resolves hup
  rcases hmove with hsame | hkeeps
  · show (istep elasticsearch d.seeds step).2.resolve a ≠ []
    rwa [hsame]
  · exact hkeeps.resolves hne

/-- A poll whose call gets through finds the alias as it is. -/
theorem Polled.polls {found : List DependencyHealth} (h : Polled a found d)
    (hthrough : poll.outage = none) :
    Polled a (found ++ poll.found a d.seeds.2) (d.serve a (.poll poll)).2 := by
  have habout : CheckHealth.about "elasticsearch" (found ++ poll.found a d.seeds.2) =
      CheckHealth.about "elasticsearch" found ++
        if poll.endpoint = .live then [] else [poll.finding a d.seeds.2] := by
    rw [← about_found]
    exact List.filter_append _ _
  rw [serve_poll]
  refine ⟨h.sound, h.reported.transitions _, ?_, ?_, ?_⟩
  all_goals
    rw [habout]
    by_cases hlive : poll.endpoint = .live
  · rw [if_pos hlive, List.append_nil]
    exact h.told
  · rw [if_neg hlive]
    intro dep hdep
    rcases List.mem_append.mp hdep with hdep | hdep
    · exact h.told dep hdep
    · rw [List.mem_singleton.mp hdep]
      unfold Poll.finding
      rw [hthrough]
      cases d.seeds.2.indexExists a
      · exact Or.inr rfl
      · exact Or.inl rfl
  · rw [if_pos hlive, List.append_nil]
    exact h.latched
  · rw [if_neg hlive]
    refine List.pairwise_append.mpr ⟨h.latched, List.pairwise_singleton _ _, fun x hx y hy hup => ?_⟩
    rw [List.mem_singleton.mp hy]
    exact (finding_spec poll d.seeds.2).2.2.mpr ⟨hthrough, h.resolves ⟨x, hx, hup⟩⟩
  · rw [if_pos hlive, List.append_nil]
    exact h.resolves
  · rw [if_neg hlive]
    rintro ⟨dep, hdep, hup⟩
    rcases List.mem_append.mp hdep with hdep | hdep
    · exact h.resolves ⟨dep, hdep, hup⟩
    · rw [List.mem_singleton.mp hdep] at hup
      exact ((finding_spec poll d.seeds.2).2.2.mp hup).2

/-- A run of events whose polls all get through. -/
theorem Polled.run {found : List DependencyHealth} (h : Polled a found d)
    (events : List (DeploymentEvent ι)) (hthrough : ∀ poll, .poll poll ∈ events → poll.outage = none) :
    ∃ more, Polled a (found ++ more) (after (Deployment.serve a) d events) := by
  induction events generalizing d found with
  | nil => exact ⟨[], by rwa [List.append_nil]⟩
  | cons event events ih =>
    have hrest := fun poll hp => hthrough poll (List.mem_cons_of_mem event hp)
    cases event with
    | seed step => exact ih (h.seeds step) hrest
    | poll poll =>
      obtain ⟨more, hmore⟩ := ih (h.polls (hthrough poll List.mem_cons_self)) hrest
      exact ⟨poll.found a d.seeds.2 ++ more, by rwa [← List.append_assoc]⟩

theorem polled_start {images : ι → Image} (hsame : ∀ i, (images i).aliasName = a)
    (products : ι → List Product) (c : Cluster) :
    Polled a [] (Deployment.start images products c) where
  sound := sound_tended hsame products c []
  reported := CheckHealth.reported_start _
  told := nofun
  latched := List.Pairwise.nil
  resolves := by
    rintro ⟨dep, hdep, -⟩
    cases hdep

/-- The seeds of a run are interleaved, and polls do not get in their way. -/
theorem seeds_after (d : Deployment ι) (events : List (DeploymentEvent ι)) :
    ∃ schedule, (after (Deployment.serve a) d events).seeds = interleave elasticsearch d.seeds schedule := by
  induction events generalizing d with
  | nil => exact ⟨[], rfl⟩
  | cons event events ih =>
    obtain ⟨schedule, hschedule⟩ := ih (d.serve a event).2
    cases event with
    | seed step => exact ⟨step :: schedule, hschedule⟩
    | poll poll =>
      rw [serve_poll] at hschedule
      exact ⟨schedule, by rw [after_cons, serve_poll]; exact hschedule⟩

/-- **Readiness.** While any seeds run against the cluster, whatever happens to their calls and whatever
Redis does: an endpoint with a probe answers 200 exactly when the probe's call gets through and the alias
resolves; and after one 200, every later answer whose call gets through is 200. -/
theorem readiness_latched {images : ι → Image} (hsame : ∀ i, (images i).aliasName = a)
    (products : ι → List Product) (c : Cluster) (before after_ : List (DeploymentEvent ι))
    (poll later : Poll) (hpoll : poll.endpoint ≠ .live) :
    let d := after (Deployment.serve a) (Deployment.start images products c) before
    let d' := after (Deployment.serve a) d (.poll poll :: after_)
    ((d.answer a poll).statusCode = 200 ↔ poll.outage = none ∧ d.seeds.2.resolve a ≠ []) ∧
      ((d.answer a poll).statusCode = 200 → later.outage = none → (d'.answer a later).statusCode = 200) := by
  intro d d'
  have hiff : (d.answer a poll).statusCode = 200 ↔ poll.outage = none ∧ d.seeds.2.resolve a ≠ [] := by
    rw [answer_ok_iff]
    exact or_iff_right hpoll
  refine ⟨hiff, fun hok hthrough => ?_⟩
  rw [answer_ok_iff]
  refine Or.inr ⟨hthrough, ?_⟩
  obtain ⟨first, hfirst⟩ := seeds_after (a := a) (Deployment.start images products c) before
  obtain ⟨second, hsecond⟩ := seeds_after (a := a) d (.poll poll :: after_)
  have hres := (hiff.mp hok).2
  rw [hfirst] at hres
  rw [hsecond, hfirst, ← interleave_append]
  exact kept_by_seeds hsame products c stable_resolves first second hres

/-- **One incident at most.** When the calls of the polls get through, what the service logs about
Elasticsearch while seeds run is nothing, or that the index is missing, or that and its recovery. -/
theorem elasticsearch_incident {images : ι → Image} (hsame : ∀ i, (images i).aliasName = a)
    (products : ι → List Product) (c : Cluster) (events : List (DeploymentEvent ι))
    (hthrough : ∀ poll, .poll poll ∈ events → poll.outage = none) :
    (after (Deployment.serve a) (Deployment.start images products c) events).health.log.filter
        (fun line => line.name = "elasticsearch") <+:
      [.isDown "elasticsearch" (some "Configured search index is missing"),
        .recovered "elasticsearch"] := by
  obtain ⟨found, hpolled⟩ := (polled_start hsame products c).run events hthrough
  rw [List.nil_append] at hpolled
  rw [hpolled.reported.log]
  have htwo : (edges DependencyHealth.status DependencyStatus.up
      (CheckHealth.about "elasticsearch" found)).length ≤ 2 := by
    refine Latched.length_edges_from (b := DependencyStatus.down) (c := DependencyStatus.up)
      ⟨fun dep _ => ?_, hpolled.latched⟩ _
    cases dep.status
    · exact Or.inr rfl
    · exact Or.inl rfl
  have hchain : (DependencyStatus.up :: (edges DependencyHealth.status DependencyStatus.up
      (CheckHealth.about "elasticsearch" found)).map DependencyHealth.status).IsChain (· ≠ ·) :=
    isChain_edges _ _
  have htold : ∀ dep ∈ edges DependencyHealth.status DependencyStatus.up
      (CheckHealth.about "elasticsearch" found), dep = ElasticsearchHealthProbe.ping (.ok true) ∨
        dep = ElasticsearchHealthProbe.ping (.ok false) :=
    fun dep hdep => hpolled.told dep ((edges_sublist _ _).subset hdep)
  generalize edges DependencyHealth.status DependencyStatus.up
    (CheckHealth.about "elasticsearch" found) = changes at htwo hchain htold ⊢
  cases changes with
  | nil => exact List.nil_prefix
  | cons x rest =>
    rw [List.map_cons, List.isChain_cons_cons] at hchain
    obtain rfl : x = ElasticsearchHealthProbe.ping (.ok false) :=
      (htold x List.mem_cons_self).resolve_left fun h => hchain.1 (by rw [h]; rfl)
    cases rest with
    | nil => exact ⟨[.recovered "elasticsearch"], rfl⟩
    | cons y rest =>
      rw [List.map_cons, List.isChain_cons_cons] at hchain
      obtain rfl : y = ElasticsearchHealthProbe.ping (.ok true) :=
        (htold y (by simp)).resolve_right fun h => hchain.2.1 (by rw [h])
      obtain rfl : rest = [] := by
        rw [List.length_cons, List.length_cons] at htwo
        exact List.eq_nil_of_length_eq_zero (by omega)
      exact List.prefix_refl _

end

/-- A poll whose calls get through. -/
def calmPoll (endpoint : HealthEndpoint) : Poll := ⟨endpoint, none, .ok "PONG"⟩

/-- Polls before, between and after the slow first run. -/
def racingPolls : List (DeploymentEvent (Fin 4)) :=
  .poll (calmPoll .ready) :: slowFirst.flatMap fun step => [.seed step, .poll (calmPoll .health)]

theorem racing_same : ∀ i, (racingImage i).aliasName = "products" := by decide

/-- The service is ready after the first version, and stays so. -/
theorem readiness_latched_racing :
    ((after (Deployment.serve "products") (Deployment.start racingImage (fun _ => []) emptyCluster)
      racingPolls).answer "products" (calmPoll .ready)).statusCode = 200 := by
  have hsplit : racingPolls = racingPolls.take 8 ++ .poll (calmPoll .health) :: racingPolls.drop 9 := by
    rfl
  rw [hsplit, after_append]
  exact (readiness_latched racing_same (fun _ => []) emptyCluster (racingPolls.take 8)
    (racingPolls.drop 9) (calmPoll .health) (calmPoll .ready) (by decide)).2 (by decide +kernel) rfl

/-- It logs that the index is missing, and that it is there. -/
theorem elasticsearch_incident_racing :
    (after (Deployment.serve "products") (Deployment.start racingImage (fun _ => []) emptyCluster)
      racingPolls).health.log.filter (fun line => line.name = "elasticsearch") <+:
        [.isDown "elasticsearch" (some "Configured search index is missing"),
          .recovered "elasticsearch"] := by
  refine elasticsearch_incident racing_same (fun _ => []) emptyCluster racingPolls fun poll hpoll => ?_
  unfold racingPolls at hpoll
  simp only [List.mem_cons, List.mem_flatMap, List.not_mem_nil, or_false] at hpoll
  rcases hpoll with h | ⟨step, -, h | h⟩
  · cases h
    rfl
  · cases h
  · cases h
    rfl

end AdvancedSearch
