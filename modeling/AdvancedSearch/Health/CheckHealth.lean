import Mathlib.Data.Finset.Erase
import Mathlib.Data.Finset.Insert
import AdvancedSearch.Lib.Edges
import AdvancedSearch.Lib.Service

/-!
# The health check

`CheckHealthUseCase`, the two probes it is given and the three endpoints of `HealthController`. How a
ping settles is free. The use case remembers which dependencies are down, and writes a line only when
one goes down or recovers: its log is the edges of what the probes said (`log_isEdges`).
-/

namespace AdvancedSearch

open Edges Service

/-! ## Dependencies -/

/-- What a promise was rejected with: an `Error` and its message, or anything else. -/
inductive Thrown where
  | error (message : String)
  | other
  deriving DecidableEq

def errorMessage : Thrown → String
  | .error message => message
  | .other => "unknown error"

inductive DependencyStatus where
  | up | down
  deriving DecidableEq

structure DependencyHealth where
  name : String
  status : DependencyStatus
  critical : Bool
  detail : Option String := none
  deriving DecidableEq

/-- `HealthProbePort`, without its ping. -/
structure HealthProbe where
  name : String
  critical : Bool
  deriving DecidableEq

/-- How pings settle. -/
abbrev Pings : Type := HealthProbe → Except Thrown DependencyHealth

inductive HealthStatus where
  | ok | error
  deriving DecidableEq

structure HealthReport where
  status : HealthStatus
  dependencies : List DependencyHealth
  deriving DecidableEq

/-! ## The use case -/

/-- A line of the log. -/
inductive HealthLine where
  | isDown (name : String) (detail : Option String)
  | recovered (name : String)
  deriving DecidableEq

namespace HealthLine

/-- The dependency a line is about. -/
def name : HealthLine → String
  | isDown name _ => name
  | recovered name => name

/-- What is written; an empty detail is left out. -/
def text : HealthLine → String
  | isDown name detail =>
    "Dependency " ++ name ++ " is down" ++
      match detail with
      | none => ""
      | some detail => if detail = "" then "" else ": " ++ detail
  | recovered name => "Dependency " ++ name ++ " recovered"

end HealthLine

/-- `CheckHealthUseCase`: the dependencies it has reported as down, and what it has logged. -/
structure CheckHealth where
  downDependencies : Finset String
  log : List HealthLine

namespace CheckHealth

def start : CheckHealth := ⟨∅, []⟩

def toDependencyHealth (result : Except Thrown DependencyHealth) (probe : HealthProbe) :
    DependencyHealth :=
  match result with
  | .ok health => health
  | .error reason =>
    { name := probe.name
      status := .down
      critical := probe.critical
      detail := some (errorMessage reason) }

/-- The body of the loop of `reportTransitions`. -/
def reportTransition (s : CheckHealth) (dependency : DependencyHealth) : CheckHealth :=
  match dependency.status with
  | .down =>
    if dependency.name ∈ s.downDependencies then s
    else
      { downDependencies := insert dependency.name s.downDependencies
        log := s.log ++ [.isDown dependency.name dependency.detail] }
  | .up =>
    if dependency.name ∈ s.downDependencies then
      { downDependencies := s.downDependencies.erase dependency.name
        log := s.log ++ [.recovered dependency.name] }
    else s

def reportTransitions (s : CheckHealth) (dependencies : List DependencyHealth) : CheckHealth :=
  dependencies.foldl reportTransition s

/-- What the probes say, in their order. -/
def settle (ping : Pings) (probes : List HealthProbe) : List DependencyHealth :=
  probes.map fun probe => toDependencyHealth (ping probe) probe

/-- The verdict: every critical dependency is up. -/
def verdict (dependencies : List DependencyHealth) : HealthStatus :=
  if dependencies.all fun dep => !dep.critical || dep.status = .up then .ok else .error

def report (s : CheckHealth) (ping : Pings) (probes : List HealthProbe) : HealthReport × CheckHealth :=
  let dependencies := settle ping probes
  (⟨verdict dependencies, dependencies⟩, s.reportTransitions dependencies)

/-- The full report over every probe. -/
def execute (probes : List HealthProbe) (s : CheckHealth) (ping : Pings) :
    HealthReport × CheckHealth :=
  s.report ping probes

/-- The critical probes only. -/
def checkReadiness (probes : List HealthProbe) (s : CheckHealth) (ping : Pings) :
    HealthReport × CheckHealth :=
  s.report ping (probes.filter fun probe => probe.critical)

/-- One of the two reports, and how the pings settle meanwhile. -/
structure Check where
  readiness : Bool
  ping : Pings

/-- The probes a check pings. -/
def Check.pinged (check : Check) (probes : List HealthProbe) : List HealthProbe :=
  if check.readiness then probes.filter fun probe => probe.critical else probes

/-- What a check finds. -/
def Check.found (probes : List HealthProbe) (check : Check) : List DependencyHealth :=
  settle check.ping (check.pinged probes)

def serve (probes : List HealthProbe) (s : CheckHealth) (check : Check) : HealthReport × CheckHealth :=
  if check.readiness then checkReadiness probes s check.ping else execute probes s check.ping

/-! ### Its log -/

/-- The line an edge is reported with. -/
def lineOf (dependency : DependencyHealth) : HealthLine :=
  match dependency.status with
  | .down => .isDown dependency.name dependency.detail
  | .up => .recovered dependency.name

/-- What has been found of a dependency, of a list of findings. -/
def about (name : String) (found : List DependencyHealth) : List DependencyHealth :=
  found.filter fun dependency => dependency.name = name

/-- After what has been found, the log and the memory of a dependency. -/
structure Reported (name : String) (found : List DependencyHealth) (s : CheckHealth) : Prop where
  log : s.log.filter (fun line => line.name = name) =
    (edges DependencyHealth.status .up (about name found)).map lineOf
  down : name ∈ s.downDependencies ↔
    lastLevel DependencyHealth.status .up (about name found) = .down

variable {s : CheckHealth} {name : String} {found : List DependencyHealth}

theorem name_lineOf (dependency : DependencyHealth) : (lineOf dependency).name = dependency.name := by
  unfold lineOf
  cases dependency.status <;> rfl

/-- A finding is reported when it is not what is remembered. -/
theorem reportTransition_eq (s : CheckHealth) (dependency : DependencyHealth) :
    (s.reportTransition dependency).log = s.log ++
        (if (dependency.status = .down ↔ dependency.name ∈ s.downDependencies) then []
          else [lineOf dependency]) ∧
      ∀ n, n ∈ (s.reportTransition dependency).downDependencies ↔
        if n = dependency.name then dependency.status = .down else n ∈ s.downDependencies := by
  unfold reportTransition lineOf
  cases hstatus : dependency.status with
  | down =>
    by_cases hmem : dependency.name ∈ s.downDependencies
    · simp only [hmem, if_true, List.append_nil, true_and]
      intro n
      by_cases hn : n = dependency.name
      · rw [if_pos hn, hn]
        exact iff_of_true hmem trivial
      · rw [if_neg hn]
    · simp only [hmem, if_false, iff_false, not_true_eq_false, true_and]
      intro n
      by_cases hn : n = dependency.name
      · simp [hn]
      · simp [hn]
  | up =>
    by_cases hmem : dependency.name ∈ s.downDependencies
    · simp only [hmem, if_true, reduceCtorEq, iff_true, if_false, true_and]
      intro n
      by_cases hn : n = dependency.name
      · simp [hn]
      · simp [hn]
    · simp only [hmem, if_false, reduceCtorEq, List.append_nil, if_true, true_and]
      intro n
      by_cases hn : n = dependency.name
      · rw [if_pos hn, hn]
        exact iff_of_false hmem nofun
      · rw [if_neg hn]

/-- One finding more. -/
theorem Reported.step (h : Reported name found s) (dependency : DependencyHealth) :
    Reported name (found ++ [dependency]) (s.reportTransition dependency) := by
  obtain ⟨hlog, hdown⟩ := s.reportTransition_eq dependency
  have habout : about name (found ++ [dependency]) =
      about name found ++ if dependency.name = name then [dependency] else [] := by
    unfold about
    rw [List.filter_append]
    by_cases hname : dependency.name = name
    · simp [hname]
    · simp [hname]
  by_cases hname : dependency.name = name
  · rw [if_pos hname] at habout
    refine ⟨?_, ?_⟩
    · rw [hlog, List.filter_append, h.log, habout, edges_snoc, List.map_append]
      congr 1
      have hlevel : (dependency.status = .down ↔ dependency.name ∈ s.downDependencies) ↔
          dependency.status = lastLevel DependencyHealth.status .up (about name found) := by
        rw [hname, h.down]
        cases dependency.status <;>
          cases lastLevel DependencyHealth.status .up (about name found) <;> simp
      by_cases hsame : dependency.status =
          lastLevel DependencyHealth.status .up (about name found)
      · rw [if_pos hsame, if_pos (hlevel.mpr hsame)]
        rfl
      · rw [if_neg hsame, if_neg fun hc => hsame (hlevel.mp hc)]
        rw [List.filter_singleton, name_lineOf, hname]
        simp
    · rw [hdown, if_pos hname.symm, habout, lastLevel_snoc]
  · rw [if_neg hname, List.append_nil] at habout
    refine ⟨?_, ?_⟩
    · rw [hlog, List.filter_append, h.log, habout]
      suffices hnone : ∀ l : List HealthLine, (∀ line ∈ l, line.name = dependency.name) →
          l.filter (fun line => line.name = name) = [] by
        rw [hnone, List.append_nil]
        intro line hline
        split_ifs at hline
        · cases hline
        · rw [List.mem_singleton.mp hline, name_lineOf]
      intro l hl
      refine List.filter_eq_nil_iff.mpr fun line hline => ?_
      rw [hl line hline]
      simpa using hname
    · rw [hdown, if_neg (Ne.symm hname), h.down, habout]

theorem Reported.transitions (h : Reported name found s) (dependencies : List DependencyHealth) :
    Reported name (found ++ dependencies) (s.reportTransitions dependencies) := by
  unfold reportTransitions
  induction dependencies generalizing found s with
  | nil => rwa [List.append_nil]
  | cons dependency dependencies ih =>
    rw [List.foldl_cons, List.append_cons]
    exact ih (h.step dependency)

theorem serve_eq (probes : List HealthProbe) (s : CheckHealth) (check : Check) :
    serve probes s check = (⟨verdict (check.found probes), check.found probes⟩,
      s.reportTransitions (check.found probes)) := by
  unfold serve Check.found Check.pinged
  split_ifs <;> rfl

theorem reported_start (name : String) : Reported name [] start :=
  ⟨rfl, iff_of_false (Finset.notMem_empty name) nofun⟩

theorem reported_after (probes : List HealthProbe) (checks : List Check) (name : String) :
    Reported name (checks.flatMap (Check.found probes)) (after (serve probes) start checks) := by
  suffices h : ∀ found s, Reported name found s → Reported name
      (found ++ checks.flatMap (Check.found probes)) (after (serve probes) s checks) from
    h [] start (reported_start name)
  induction checks with
  | nil => exact fun found s h => by rwa [List.flatMap_nil, List.append_nil]
  | cons check checks ih =>
    intro found s h
    rw [List.flatMap_cons, ← List.append_assoc, after_cons, serve_eq]
    exact ih _ _ (h.transitions (check.found probes))

/-- **The log is the edges.** After any checks, of any probes, what is logged about a dependency is one
line for each change of what the probes said of it, in order: it goes down and recovers in turn, never
twice the same. It is remembered as down exactly when it was last found so. -/
theorem log_isEdges (probes : List HealthProbe) (checks : List Check) (name : String) :
    let s := after (serve probes) start checks
    let found := about name (checks.flatMap (Check.found probes))
    s.log.filter (fun line => line.name = name) =
        (edges DependencyHealth.status .up found).map lineOf ∧
      (DependencyStatus.up :: (edges DependencyHealth.status .up found).map DependencyHealth.status).IsChain (· ≠ ·) ∧
      (name ∈ s.downDependencies ↔ lastLevel DependencyHealth.status .up found = .down) :=
  ⟨(reported_after probes checks name).log, isChain_edges DependencyStatus.up _,
    (reported_after probes checks name).down⟩

end CheckHealth

end AdvancedSearch
