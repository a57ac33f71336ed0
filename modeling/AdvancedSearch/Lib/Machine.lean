import Mathlib.Data.List.Induction
import Mathlib.Data.Option.Basic

/-!
# Machines

A machine moves by events, some of which cannot happen in some states. A run is the list of the events
that happened. What every step keeps holds after every run.
-/

namespace Machine

variable {σ ε : Type} (step : σ → ε → Option σ)

/-- The state after a list of events; nothing when one of them could not happen. -/
def run (s : σ) (events : List ε) : Option σ := events.foldlM step s

/-- Every event of a run, with the state it happened in. -/
def Along (P : σ → ε → Prop) : σ → List ε → Prop
  | _, [] => True
  | s, e :: events => P s e ∧ ∀ t, step s e = some t → Along P t events

variable {step} {s t : σ}

@[simp] theorem run_nil : run step s [] = some s := rfl

theorem run_cons {e : ε} {events : List ε} :
    run step s (e :: events) = (step s e).bind fun t => run step t events := by
  unfold run
  rw [List.foldlM_cons]
  rfl

theorem run_append {events more : List ε} :
    run step s (events ++ more) = (run step s events).bind fun t => run step t more := by
  unfold run
  rw [List.foldlM_append]
  rfl

theorem run_append_some {events more : List ε} (h : run step s (events ++ more) = some t) :
    ∃ u, run step s events = some u ∧ run step u more = some t := by
  rw [run_append] at h
  exact Option.bind_eq_some_iff.mp h

theorem run_cons_some {e : ε} {events : List ε} (h : run step s (e :: events) = some t) :
    ∃ u, step s e = some u ∧ run step u events = some t := by
  rw [run_cons] at h
  exact Option.bind_eq_some_iff.mp h

theorem run_snoc_some {e : ε} {events : List ε} (h : run step s (events ++ [e]) = some t) :
    ∃ u, run step s events = some u ∧ step u e = some t := by
  obtain ⟨u, hu, hlast⟩ := run_append_some h
  obtain ⟨v, hv, hrest⟩ := run_cons_some hlast
  cases hrest
  exact ⟨u, hu, hv⟩

/-- What every step keeps of the events so far and the state, every run keeps. -/
theorem run_keeps_past {I : List ε → σ → Prop} (hs : I [] s)
    (hstep : ∀ past u e t, I past u → step u e = some t → I (past ++ [e]) t) {events : List ε}
    (h : run step s events = some t) : I events t := by
  induction events using List.reverseRecOn generalizing t with
  | nil =>
    cases h
    exact hs
  | append_singleton events e ih =>
    obtain ⟨u, hu, he⟩ := run_snoc_some h
    exact hstep events u e t (ih hu) he

/-- What every allowed step keeps, every run of allowed steps keeps. -/
theorem run_keeps_along {I : σ → Prop} {P : σ → ε → Prop}
    (hstep : ∀ s e t, I s → P s e → step s e = some t → I t) {events : List ε} (hs : I s)
    (hP : Along step P s events) (h : run step s events = some t) : I t := by
  induction events generalizing s with
  | nil =>
    cases h
    exact hs
  | cons e events ih =>
    obtain ⟨u, hu, hrest⟩ := run_cons_some h
    exact ih (hstep s e u hs hP.1 hu) (hP.2 u hu) hrest

theorem along_true (s : σ) (events : List ε) : Along step (fun _ _ => True) s events := by
  induction events generalizing s with
  | nil => trivial
  | cons e events ih => exact ⟨trivial, fun t _ => ih t⟩

/-- What every step keeps, every run keeps. -/
theorem run_keeps {I : σ → Prop} (hstep : ∀ s e t, I s → step s e = some t → I t) {events : List ε}
    (hs : I s) (h : run step s events = some t) : I t :=
  run_keeps_along (fun s e t hs _ he => hstep s e t hs he) hs (along_true s events) h

end Machine
