import AdvancedSearch.Lib.Edges
import AdvancedSearch.RateLimit.Failover

/-!
# What an outage leaves in the log

`FailoverRateLimitStore` counts every call of Redis that throws, and writes a line only when it falls back
to memory or is back on Redis: its log is the edges of how the calls ended (`failover_isEdges`).
-/

namespace AdvancedSearch

open Edges Service

namespace FailoverRateLimitStore

/-- A hit, and how its call of Redis ends. -/
structure CountedHit where
  redis : RedisCall
  now : ℤ
  key : String
  windowMs : ℤ

def count (s : FailoverRateLimitStore) (h : CountedHit) :
    Except String RateLimitHit × FailoverRateLimitStore :=
  hit h.redis s h.now h.key h.windowMs

/-- Whether a hit is counted in Redis. -/
def CountedHit.onRedis (h : CountedHit) : Bool := h.redis = .succeeds

/-- The message of a call that throws. -/
def CountedHit.message (h : CountedHit) : String :=
  match h.redis with
  | .succeeds => ""
  | .throws error => error
  | .throwsAfter error => error

/-- The line an edge is reported with. -/
def CountedHit.line (h : CountedHit) : String :=
  if h.onRedis then "Rate limit counter is served by Redis again, limits are shared"
  else "Rate limit counter falling back to memory, limits are now per instance: " ++ h.message

/-- After these hits. -/
structure Reported (hits : List CountedHit) (s : FailoverRateLimitStore) : Prop where
  degraded : s.degraded = !lastLevel CountedHit.onRedis true hits
  log : s.log = (edges CountedHit.onRedis true hits).map CountedHit.line
  failovers : s.failovers = hits.countP fun h => !h.onRedis

variable {s : FailoverRateLimitStore} {hits : List CountedHit}

/-- What a hit writes down. -/
theorem count_report (s : FailoverRateLimitStore) (h : CountedHit) :
    (s.count h).2.degraded = !h.onRedis ∧
      (s.count h).2.log = s.log ++ (if h.onRedis = !s.degraded then [] else [h.line]) ∧
      (s.count h).2.failovers = s.failovers + if h.onRedis then 0 else 1 := by
  unfold count hit RedisCall.hit
  cases hcall : h.redis with
  | succeeds =>
    have hon : h.onRedis = true := decide_eq_true hcall
    have hline : h.line = "Rate limit counter is served by Redis again, limits are shared" := if_pos hon
    rw [hon, hline]
    unfold recover
    cases s.degraded <;> simp
  | throws error | throwsAfter error =>
    have hon : h.onRedis = false := decide_eq_false (by simp [hcall])
    have hline : h.line =
        "Rate limit counter falling back to memory, limits are now per instance: " ++ error := by
      unfold CountedHit.line CountedHit.message
      rw [hon, hcall]
      rfl
    rw [hon, hline]
    unfold reportDegraded
    cases s.degraded <;> simp

/-- One hit more. -/
theorem Reported.step (hr : Reported hits s) (h : CountedHit) :
    Reported (hits ++ [h]) (s.count h).2 := by
  obtain ⟨hdegraded, hlog, hfailovers⟩ := s.count_report h
  refine ⟨?_, ?_, ?_⟩
  · rw [hdegraded, lastLevel_snoc]
  · rw [hlog, hr.log, hr.degraded, Bool.not_not, edges_snoc, List.map_append]
    congr 1
    split_ifs <;> rfl
  · rw [hfailovers, hr.failovers, List.countP_append, List.countP_singleton]
    cases h.onRedis <;> rfl

/-- **The failover's log.** After any hits, whatever their calls of Redis ended with: it is degraded
exactly when the last call threw, its log has one line for each change between the two, in turn, the
falling back with the error that caused it, and the metric has counted every call that threw. -/
theorem failover_isEdges (hits : List CountedHit) :
    let s := after count start hits
    s.degraded = (!lastLevel CountedHit.onRedis true hits) ∧
      s.log = (edges CountedHit.onRedis true hits).map CountedHit.line ∧
      (true :: (edges CountedHit.onRedis true hits).map CountedHit.onRedis).IsChain (· ≠ ·) ∧
      s.failovers = hits.countP fun h => !h.onRedis := by
  have hreported : Reported hits (after count start hits) := by
    induction hits using List.reverseRecOn with
    | nil => exact ⟨rfl, rfl, rfl⟩
    | append_singleton hits h ih =>
      rw [after_append]
      exact ih.step h
  exact ⟨hreported.degraded, hreported.log, isChain_edges _ _, hreported.failovers⟩

end FailoverRateLimitStore

end AdvancedSearch
