import Mathlib.Data.List.Basic

/-!
# Programs that call a service

A client is a `Program`: it has finished, or it waits for the answer to one call. A `Server`
answers a call in a state, as a `Fate` decides (lost, refused, answered in some order), so a run
of a client is a fold over a list of fates, and a list that is too short is a client that stopped
after one of its calls.

`Upholds` is the program logic: `p.Upholds S ok I Q past s` says that in every run of `p` from `s`
under fates that satisfy `ok`, `I` holds in every state the run can stop in and `Q` where it
finishes. Both read the events so far. `Upholds.bind` composes, `Upholds.run` gives back the runs.
`Follows` looks the other way: what a run under one given list of fates ends in, by the fates it
leaves.

`Client` is the monad the methods are written in: a local state that survives a throw, exceptions,
and calls.
-/

namespace Service

/-- A sequential client: it has finished, or it waits for the answer to a call. -/
inductive Program (Call : Type) (Answer : Call → Type) (α : Type) where
  | finished (a : α)
  | waiting (call : Call) (next : Answer call → Program Call Answer α)

/-- The other side: what a call answers and what it leaves, under a given fate. -/
structure Server (Call : Type) (Answer : Call → Type) (State Fate : Type) where
  serve : State → (call : Call) → Fate → Answer call × State

/-- One call of a run, with the state it met. -/
structure Event (Call State Fate : Type) where
  before : State
  call : Call
  fate : Fate

variable {Call : Type} {Answer : Call → Type} {State Fate α β : Type}

/-- The state an event leaves. -/
def Server.after (S : Server Call Answer State Fate) (e : Event Call State Fate) : State :=
  (S.serve e.before e.call e.fate).2

namespace Program

/-- Runs `p`, then `k` on its result. -/
def bind : Program Call Answer α → (α → Program Call Answer β) → Program Call Answer β
  | finished a, k => k a
  | waiting c next, k => waiting c fun ans => (next ans).bind k

@[simp] theorem bind_finished (a : α) (k : α → Program Call Answer β) :
    (finished a).bind k = k a := rfl

@[simp] theorem bind_waiting (c : Call) (next : Answer c → Program Call Answer α)
    (k : α → Program Call Answer β) :
    (waiting c next).bind k = waiting c fun ans => (next ans).bind k := rfl

/-! ## Runs -/

section Run

variable (S : Server Call Answer State Fate)

/-- The next call is served; a finished program stays as it is. -/
def step : Program Call Answer α × State → Fate → Program Call Answer α × State
  | (finished a, s), _ => (finished a, s)
  | (waiting c next, s), f => (next (S.serve s c f).1, (S.serve s c f).2)

/-- The calls served under the given fates, in order. -/
def run (x : Program Call Answer α × State) (fates : List Fate) : Program Call Answer α × State :=
  fates.foldl (step S) x

/-- The calls of that run. -/
def history : Program Call Answer α × State → List Fate → List (Event Call State Fate)
  | _, [] => []
  | (finished _, _), _ => []
  | (waiting c next, s), f :: fates =>
    ⟨s, c, f⟩ :: history (next (S.serve s c f).1, (S.serve s c f).2) fates

@[simp] theorem run_nil (x : Program Call Answer α × State) : run S x [] = x := rfl

@[simp] theorem run_cons (x : Program Call Answer α × State) (f : Fate) (fates : List Fate) :
    run S x (f :: fates) = run S (step S x f) fates := rfl

theorem run_append (x : Program Call Answer α × State) (fates more : List Fate) :
    run S x (fates ++ more) = run S (run S x fates) more := List.foldl_append

@[simp] theorem step_finished (a : α) (s : State) (f : Fate) :
    step S ((finished a : Program Call Answer α), s) f = (finished a, s) := rfl

@[simp] theorem step_waiting (c : Call) (next : Answer c → Program Call Answer α) (s : State)
    (f : Fate) : step S (waiting c next, s) f = (next (S.serve s c f).1, (S.serve s c f).2) := rfl

@[simp] theorem run_finished (a : α) (s : State) (fates : List Fate) :
    run S (finished a, s) fates = (finished a, s) := by
  induction fates with
  | nil => rfl
  | cons f fates ih => exact ih

@[simp] theorem history_nil (x : Program Call Answer α × State) : history S x [] = [] := by
  unfold history; rfl

@[simp] theorem history_finished (a : α) (s : State) (fates : List Fate) :
    history S ((finished a : Program Call Answer α), s) fates = [] := by
  cases fates <;> rfl

@[simp] theorem history_waiting (c : Call) (next : Answer c → Program Call Answer α) (s : State)
    (f : Fate) (fates : List Fate) :
    history S (waiting c next, s) (f :: fates) =
      ⟨s, c, f⟩ :: history S (next (S.serve s c f).1, (S.serve s c f).2) fates := rfl

/-- Every program finishes: it has no way to wait forever when each call is served. -/
theorem exists_run_finished (p : Program Call Answer α) :
    ∀ (s : State) (fates : ℕ → Fate), ∃ n a t,
      run S (p, s) ((List.range n).map fates) = (finished a, t) := by
  induction p with
  | finished a => intro s fates; exact ⟨0, a, s, rfl⟩
  | waiting c next ih =>
    intro s fates
    obtain ⟨n, a, t, h⟩ := ih (S.serve s c (fates 0)).1 (S.serve s c (fates 0)).2
      (fun i => fates (i + 1))
    refine ⟨n + 1, a, t, ?_⟩
    rw [List.range_succ_eq_map, List.map_cons, List.map_map, run_cons]
    exact h

end Run

/-! ## The program logic -/

section Upholds

variable (S : Server Call Answer State Fate) (ok : Fate → Prop)
  (I : List (Event Call State Fate) → State → Prop)

/-- `I` holds wherever a run can stop, `Q` where it finishes. -/
def Upholds (Q : List (Event Call State Fate) → α → State → Prop) :
    Program Call Answer α → List (Event Call State Fate) → State → Prop
  | finished a, past, s => I past s ∧ Q past a s
  | waiting c next, past, s => I past s ∧ ∀ f, ok f →
      Upholds Q (next (S.serve s c f).1) (past ++ [⟨s, c, f⟩]) (S.serve s c f).2

variable {S ok I} {Q : List (Event Call State Fate) → α → State → Prop}
  {p : Program Call Answer α} {past : List (Event Call State Fate)} {s : State}

theorem Upholds.here (h : Upholds S ok I Q p past s) : I past s := by
  cases p with
  | finished a => exact h.1
  | waiting c next => exact h.1

theorem upholds_of_forall (hI : ∀ past s, I past s) (hQ : ∀ past a s, Q past a s) :
    Upholds S ok I Q p past s := by
  induction p generalizing past s with
  | finished a => exact ⟨hI _ _, hQ _ _ _⟩
  | waiting c next ih => exact ⟨hI _ _, fun _ _ => ih _⟩

/-- The sequencing rule: what `k` needs is the postcondition of `p`. -/
theorem Upholds.bind {k : α → Program Call Answer β}
    {R : List (Event Call State Fate) → β → State → Prop}
    (h : Upholds S ok I (fun past a s => Upholds S ok I R (k a) past s) p past s) :
    Upholds S ok I R (p.bind k) past s := by
  induction p generalizing past s with
  | finished a => exact h.2
  | waiting c next ih => exact ⟨h.1, fun f hf => ih _ (h.2 f hf)⟩

/-- The rule of consequence. -/
theorem Upholds.mono {I' : List (Event Call State Fate) → State → Prop}
    {Q' : List (Event Call State Fate) → α → State → Prop} (h : Upholds S ok I Q p past s)
    (hI : ∀ past s, I past s → I' past s) (hQ : ∀ past a s, Q past a s → Q' past a s) :
    Upholds S ok I' Q' p past s := by
  induction p generalizing past s with
  | finished a => exact ⟨hI _ _ h.1, hQ _ _ _ h.2⟩
  | waiting c next ih => exact ⟨hI _ _ h.1, fun f hf => ih _ (h.2 f hf)⟩

/-- Soundness: the rest of the program still upholds what the whole did. -/
theorem Upholds.run (h : Upholds S ok I Q p past s) {fates : List Fate}
    (hok : ∀ f ∈ fates, ok f) :
    Upholds S ok I Q (run S (p, s) fates).1 (past ++ history S (p, s) fates)
      (run S (p, s) fates).2 := by
  induction fates generalizing p past s with
  | nil => simpa using h
  | cons f fates ih =>
    cases p with
    | finished a => simpa using h
    | waiting c next =>
      have hs := ih (h.2 f (hok f List.mem_cons_self))
        (fun g hg => hok g (List.mem_cons_of_mem _ hg))
      rw [List.append_assoc] at hs
      exact hs

/-- Wherever the run stops, the invariant holds. -/
theorem Upholds.stop (h : Upholds S ok I Q p [] s) {fates : List Fate} (hok : ∀ f ∈ fates, ok f) :
    I (history S (p, s) fates) (Program.run S (p, s) fates).2 := by
  simpa using (h.run hok).here

/-- Where the run finishes, the postcondition holds. -/
theorem Upholds.finish (h : Upholds S ok I Q p [] s) {fates : List Fate} (hok : ∀ f ∈ fates, ok f)
    {a : α} {t : State} (hr : Program.run S (p, s) fates = (finished a, t)) :
    Q (history S (p, s) fates) a t := by
  have := h.run hok
  rw [hr] at this
  simpa using this.2

/-- A run that is served long enough finishes, in the postcondition. -/
theorem Upholds.completes (h : Upholds S ok I Q p [] s) {fates : ℕ → Fate}
    (hok : ∀ i, ok (fates i)) :
    ∃ n a t, Program.run S (p, s) ((List.range n).map fates) = (finished a, t) ∧
      Q (history S (p, s) ((List.range n).map fates)) a t := by
  obtain ⟨n, a, t, hr⟩ := exists_run_finished S p s fates
  refine ⟨n, a, t, hr, h.finish (fun f hf => ?_) hr⟩
  obtain ⟨i, -, rfl⟩ := List.mem_map.mp hf
  exact hok i

end Upholds

/-! ## Under given fates -/

section Follows

variable (S : Server Call Answer State Fate)

/-- Where the run under these fates finishes, `Q` holds of the fates it leaves. -/
def Follows (Q : List Fate → α → State → Prop) : Program Call Answer α → State → List Fate → Prop
  | finished a, s, fates => Q fates a s
  | waiting _ _, _, [] => True
  | waiting c next, s, f :: fates => Follows Q (next (S.serve s c f).1) (S.serve s c f).2 fates

variable {S} {Q : List Fate → α → State → Prop} {p : Program Call Answer α} {s : State}
  {fates : List Fate}

/-- The sequencing rule: `k` goes on with the fates that `p` leaves. -/
theorem Follows.bind {k : α → Program Call Answer β} {R : List Fate → β → State → Prop}
    (h : Follows S (fun fates a s => Follows S R (k a) s fates) p s fates) :
    Follows S R (p.bind k) s fates := by
  induction p generalizing s fates with
  | finished a => exact h
  | waiting c next ih =>
    cases fates with
    | nil => trivial
    | cons f fates => exact ih _ h

theorem Follows.mono {Q' : List Fate → α → State → Prop} (h : Follows S Q p s fates)
    (hQ : ∀ rest a s, Q rest a s → Q' rest a s) : Follows S Q' p s fates := by
  induction p generalizing s fates with
  | finished a => exact hQ _ _ _ h
  | waiting c next ih =>
    cases fates with
    | nil => trivial
    | cons f fates => exact ih _ h

/-- Soundness: a run that finishes has left some fates, in the postcondition. -/
theorem Follows.finish (h : Follows S Q p s fates) {a : α} {t : State}
    (hr : run S (p, s) fates = (finished a, t)) : ∃ rest, Q rest a t := by
  induction p generalizing s fates with
  | finished b =>
    rw [run_finished, Prod.mk.injEq, finished.injEq] at hr
    obtain ⟨rfl, rfl⟩ := hr
    exact ⟨fates, h⟩
  | waiting c next ih =>
    cases fates with
    | nil => cases hr
    | cons f fates => exact ih _ h hr

end Follows

end Program

/-! ## Client methods -/

/-- A method of a client object: it reads and writes the object's state, calls the service, and
returns or throws. A throw keeps the state written so far. -/
def Client (Call : Type) (Answer : Call → Type) (ε σ α : Type) : Type :=
  σ → Program Call Answer (Except ε α × σ)

namespace Client

variable {ε σ : Type}

/-- What follows a method: the rest of the code on a result, the throw on a throw. -/
def andThen (k : α → Client Call Answer ε σ β) :
    Except ε α × σ → Program Call Answer (Except ε β × σ)
  | (.ok a, t) => k a t
  | (.error e, t) => .finished (.error e, t)

/-- What a `catch` does with a method's end. -/
def orElse (handler : ε → Client Call Answer ε σ α) :
    Except ε α × σ → Program Call Answer (Except ε α × σ)
  | (.ok a, t) => .finished (.ok a, t)
  | (.error e, t) => handler e t

instance : Monad (Client Call Answer ε σ) where
  pure a := fun t => .finished (.ok a, t)
  bind m k := fun t => (m t).bind (andThen k)

instance : MonadExcept ε (Client Call Answer ε σ) where
  throw e := fun t => .finished (.error e, t)
  tryCatch m handler := fun t => (m t).bind (orElse handler)

instance : MonadStateOf σ (Client Call Answer ε σ) where
  get := fun t => .finished (.ok t, t)
  set t := fun _ => .finished (.ok (), t)
  modifyGet f := fun t => .finished (.ok (f t).1, (f t).2)

/-- The call itself, an error answer being thrown by way of `thrown`. -/
def perform {Err : Type} {Response : Call → Type} (thrown : Err → ε) (c : Call) :
    Client Call (fun c => Except Err (Response c)) ε σ (Response c) :=
  fun t => .waiting c fun
    | .ok r => .finished (.ok r, t)
    | .error e => .finished (.error (thrown e), t)

@[simp] theorem pure_apply (a : α) (t : σ) :
    (pure a : Client Call Answer ε σ α) t = .finished (.ok a, t) := rfl

@[simp] theorem bind_apply (m : Client Call Answer ε σ α) (k : α → Client Call Answer ε σ β)
    (t : σ) : (m >>= k) t = (m t).bind (andThen k) := rfl

@[simp] theorem throw_apply (e : ε) (t : σ) :
    (throw e : Client Call Answer ε σ α) t = .finished (.error e, t) := rfl

@[simp] theorem tryCatch_apply (m : Client Call Answer ε σ α)
    (handler : ε → Client Call Answer ε σ α) (t : σ) :
    tryCatch m handler t = (m t).bind (orElse handler) := rfl

@[simp] theorem get_apply (t : σ) :
    (get : Client Call Answer ε σ σ) t = .finished (.ok t, t) := rfl

/-- What reads the client's own state has it. -/
theorem get_bind_apply (k : σ → Client Call Answer ε σ α) (t : σ) :
    ((get : Client Call Answer ε σ σ) >>= k) t = k t t := rfl

@[simp] theorem set_apply (t u : σ) :
    (set u : Client Call Answer ε σ PUnit) t = .finished (.ok (), u) := rfl

@[simp] theorem modify_apply (f : σ → σ) (t : σ) :
    (modify f : Client Call Answer ε σ PUnit) t = .finished (.ok (), f t) := rfl

@[simp] theorem andThen_ok (k : α → Client Call Answer ε σ β) (a : α) (t : σ) :
    andThen k (.ok a, t) = k a t := rfl

@[simp] theorem andThen_error (k : α → Client Call Answer ε σ β) (e : ε) (t : σ) :
    andThen k (.error e, t) = .finished (.error e, t) := rfl

@[simp] theorem orElse_ok (handler : ε → Client Call Answer ε σ α) (a : α) (t : σ) :
    orElse handler (.ok a, t) = .finished (.ok a, t) := rfl

@[simp] theorem orElse_error (handler : ε → Client Call Answer ε σ α) (e : ε) (t : σ) :
    orElse handler (.error e, t) = handler e t := rfl

end Client

end Service
