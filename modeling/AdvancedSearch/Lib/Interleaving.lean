import AdvancedSearch.Lib.Program

/-!
# Interleaved clients of one service

Any number of programs run against one server, one call at a time: a schedule is a list of whose
call is served next and under which fate. A client that is never scheduled again has stopped.

`Program.Guarantees` is the rely-guarantee reading of a program. Its calls keep the invariant `Inv`
and move the state only along `Moves`; what the program knows between two calls is an assertion
that `Moves` by the others cannot falsify (`Stable`). `Sound.schedule` gives the interleavings:
all states of a schedule whose steps are all `Allowed` satisfy the invariant.
-/

namespace Service

variable {Call : Type} {Answer : Call → Type} {State Fate ι α β : Type}

/-- `A` survives the moves of other clients. -/
def Stable (Inv : State → Prop) (Moves : State → State → Prop) (A : State → Prop) : Prop :=
  ∀ s s', Inv s → Inv s' → Moves s s' → A s → A s'

theorem stable_true (Inv : State → Prop) (Moves : State → State → Prop) :
    Stable Inv Moves fun _ => True := fun _ _ _ _ _ _ => trivial

/-- What does not speak of the state. -/
theorem stable_const {Inv : State → Prop} {Moves : State → State → Prop} (p : Prop) :
    Stable Inv Moves fun _ => p := fun _ _ _ _ _ h => h

theorem Stable.and {Inv A B : State → Prop} {Moves : State → State → Prop}
    (hA : Stable Inv Moves A) (hB : Stable Inv Moves B) : Stable Inv Moves fun s => A s ∧ B s :=
  fun s s' hs hs' hm h => ⟨hA s s' hs hs' hm h.1, hB s s' hs hs' hm h.2⟩

namespace Program

section Guarantees

variable (S : Server Call Answer State Fate) (Inv : State → Prop) (Moves : State → State → Prop)
  (Allowed : State → Call → Fate → Prop)

/-- Started where `pre` holds, every allowed call of the program keeps `Inv` and moves along
`Moves`, whatever stable moves happen in between; it finishes in `Q`. -/
def Guarantees (Q : α → State → Prop) :
    Program Call Answer α → (State → Prop) → Prop
  | finished a, pre => ∀ s, Inv s → pre s → Q a s
  | waiting c next, pre => ∀ ans : Answer c, ∃ mid : State → Prop, Stable Inv Moves mid ∧
      (∀ s f, Inv s → pre s → Allowed s c f → (S.serve s c f).1 = ans →
        Inv (S.serve s c f).2 ∧ Moves s (S.serve s c f).2 ∧ mid (S.serve s c f).2) ∧
      Guarantees Q (next ans) mid

variable {S Inv Moves Allowed} {Q : α → State → Prop} {p : Program Call Answer α}
  {pre : State → Prop}

theorem Guarantees.weaken {pre' : State → Prop}
    (h : Guarantees S Inv Moves Allowed Q p pre') (hp : ∀ s, Inv s → pre s → pre' s) :
    Guarantees S Inv Moves Allowed Q p pre := by
  cases p with
  | finished a => exact fun s hs hpre => h s hs (hp s hs hpre)
  | waiting c next =>
    intro ans
    obtain ⟨mid, hst, hstep, hrest⟩ := h ans
    exact ⟨mid, hst, fun s f hs hpre => hstep s f hs (hp s hs hpre), hrest⟩

theorem Guarantees.mono {Q' : α → State → Prop} (h : Guarantees S Inv Moves Allowed Q p pre)
    (hQ : ∀ a s, Q a s → Q' a s) : Guarantees S Inv Moves Allowed Q' p pre := by
  induction p generalizing pre with
  | finished a => exact fun s hs hpre => hQ a s (h s hs hpre)
  | waiting c next ih =>
    intro ans
    obtain ⟨mid, hst, hstep, hrest⟩ := h ans
    exact ⟨mid, hst, hstep, ih ans hrest⟩

/-- Sequencing: the second part starts from what the first finished in. -/
theorem Guarantees.bind {A : α → State → Prop} {k : α → Program Call Answer β}
    {R : β → State → Prop} (h : Guarantees S Inv Moves Allowed A p pre)
    (hk : ∀ a, Guarantees S Inv Moves Allowed R (k a) (A a)) :
    Guarantees S Inv Moves Allowed R (p.bind k) pre := by
  induction p generalizing pre with
  | finished a => exact (hk a).weaken h
  | waiting c next ih =>
    intro ans
    obtain ⟨mid, hst, hstep, hrest⟩ := h ans
    exact ⟨mid, hst, hstep, ih ans hrest⟩

/-- A call whose answer alone decides what is known afterwards. -/
theorem guarantees_waiting {c : Call} {next : Answer c → Program Call Answer α}
    (mid : Answer c → State → Prop) (hst : ∀ ans, Stable Inv Moves (mid ans))
    (hstep : ∀ s f, Inv s → pre s → Allowed s c f →
      Inv (S.serve s c f).2 ∧ Moves s (S.serve s c f).2 ∧
        mid (S.serve s c f).1 (S.serve s c f).2)
    (hnext : ∀ ans, Guarantees S Inv Moves Allowed Q (next ans) (mid ans)) :
    Guarantees S Inv Moves Allowed Q (waiting c next) pre := by
  intro ans
  refine ⟨mid ans, hst ans, fun s f hs hp hf ha => ?_, hnext ans⟩
  have := hstep s f hs hp hf
  rwa [ha] at this

/-- A program whose start no state satisfies guarantees anything. -/
theorem guarantees_of_false (hp : ∀ s, Inv s → ¬ pre s) :
    Guarantees S Inv Moves Allowed Q p pre := by
  induction p generalizing pre with
  | finished a => exact fun s hs h => absurd h (hp s hs)
  | waiting c next ih =>
    exact fun ans => ⟨fun _ => False, fun _ _ _ _ _ h => h,
      fun s f hs h => absurd h (hp s hs), ih ans fun _ _ h => h⟩

end Guarantees

end Program

/-! ## Clients that guarantee -/

namespace Client

variable {ε σ : Type} {S : Server Call Answer State Fate} {Inv : State → Prop}
  {Moves : State → State → Prop} {Allowed : State → Call → Fate → Prop}

/-- What holds after a method returns; nothing is known after a throw. -/
def Yields (A : α → σ → State → Prop) : Except ε α × σ → State → Prop :=
  fun r s => ∀ a, r.1 = .ok a → A a r.2 s

variable {pre : State → Prop} {t : σ}

theorem guarantees_pure {a : α} {A : α → σ → State → Prop} (h : ∀ s, Inv s → pre s → A a t s) :
    Program.Guarantees S Inv Moves Allowed (Yields A)
      (.finished (.ok a, t) : Program Call Answer (Except ε α × σ)) pre := by
  intro s hs hp b hb
  obtain rfl := Except.ok.inj hb
  exact h s hs hp

theorem guarantees_throw {e : ε} {A : α → σ → State → Prop} :
    Program.Guarantees S Inv Moves Allowed (Yields A)
      (.finished (.error e, t) : Program Call Answer (Except ε α × σ)) pre :=
  fun _ _ _ _ h => by cases h

theorem guarantees_bind {m : Client Call Answer ε σ β} {k : β → Client Call Answer ε σ α}
    {A : β → σ → State → Prop} {B : α → σ → State → Prop}
    (h : Program.Guarantees S Inv Moves Allowed (Yields A) (m t) pre)
    (hk : ∀ b u, Program.Guarantees S Inv Moves Allowed (Yields B) (k b u) (A b u)) :
    Program.Guarantees S Inv Moves Allowed (Yields B) ((m >>= k) t) pre := by
  rw [bind_apply]
  refine Program.Guarantees.bind h ?_
  rintro ⟨_ | b, u⟩
  · exact fun _ _ _ _ h => by cases h
  · exact (hk b u).weaken fun s _ hr => hr b rfl

/-- A method that leaves the state of its client as it is, and what follows it. -/
theorem guarantees_bind_same {m : Client Call Answer ε σ β} {k : β → Client Call Answer ε σ α}
    {A : β → State → Prop} {B : α → σ → State → Prop}
    (h : Program.Guarantees S Inv Moves Allowed (Yields fun b u s => u = t ∧ A b s) (m t) pre)
    (hk : ∀ b, Program.Guarantees S Inv Moves Allowed (Yields B) (k b t) (A b)) :
    Program.Guarantees S Inv Moves Allowed (Yields B) ((m >>= k) t) pre := by
  refine guarantees_bind h fun b u => ?_
  by_cases hu : u = t
  · subst hu
    exact (hk b).weaken fun _ _ h => h.2
  · exact Program.guarantees_of_false fun _ _ h => hu h.1

/-- A handler starts from what the attempt leaves when it throws. -/
theorem guarantees_catch {m : Client Call Answer ε σ α} {handler : ε → Client Call Answer ε σ α}
    {Q : Except ε α × σ → State → Prop} {A : α → σ → State → Prop}
    (h : Program.Guarantees S Inv Moves Allowed Q (m t) pre)
    (hok : ∀ a u s, Inv s → Q (.ok a, u) s → A a u s)
    (hcatch : ∀ e u,
      Program.Guarantees S Inv Moves Allowed (Yields A) (handler e u) (Q (.error e, u))) :
    Program.Guarantees S Inv Moves Allowed (Yields A) (tryCatch m handler t) pre := by
  rw [tryCatch_apply]
  refine Program.Guarantees.bind h ?_
  rintro ⟨e | a, u⟩
  · exact hcatch e u
  · exact guarantees_pure (hok a u)

/-- A handler that starts from nothing. -/
theorem guarantees_tryCatch {m : Client Call Answer ε σ α} {handler : ε → Client Call Answer ε σ α}
    {A : α → σ → State → Prop} (h : Program.Guarantees S Inv Moves Allowed (Yields A) (m t) pre)
    (hcatch : ∀ e u, Program.Guarantees S Inv Moves Allowed (Yields A) (handler e u) fun _ => True) :
    Program.Guarantees S Inv Moves Allowed (Yields A) (tryCatch m handler t) pre :=
  guarantees_catch h (fun a _ _ _ hr => hr a rfl) fun e u => (hcatch e u).weaken fun _ _ _ => trivial

/-- A call to a server of fallible answers: what an answer that arrives tells. -/
theorem guarantees_perform {Err : Type} {Response : Call → Type}
    {S : Server Call (fun c => Except Err (Response c)) State Fate} {ofErr : Err → ε} {c : Call}
    (good : Response c → State → Prop) (hgood : ∀ r, Stable Inv Moves (good r))
    (hstep : ∀ s f, Inv s → pre s → Allowed s c f → Inv (S.serve s c f).2 ∧
      Moves s (S.serve s c f).2 ∧ ∀ r, (S.serve s c f).1 = .ok r → good r (S.serve s c f).2) :
    Program.Guarantees S Inv Moves Allowed (Yields fun r u s => u = t ∧ good r s)
      (Client.perform ofErr c t) pre := by
  refine Program.guarantees_waiting (fun ans s => ∀ r, ans = .ok r → good r s) ?_ ?_ ?_
  · exact fun ans s s' hs hs' hmove hans r hr => hgood r s s' hs hs' hmove (hans r hr)
  · exact hstep
  · rintro (e | r) s - hmid b hb
    · cases hb
    · obtain rfl := Except.ok.inj hb
      exact ⟨rfl, hmid r rfl⟩

end Client

/-! ## Schedules -/

section Interleave

variable [DecidableEq ι] (S : Server Call Answer State Fate)

/-- One step of a schedule: the next call of client `i` is served. -/
def istep (x : (ι → Program Call Answer α) × State) (t : ι × Fate) :
    (ι → Program Call Answer α) × State :=
  let y := Program.step S (x.1 t.1, x.2) t.2
  (Function.update x.1 t.1 y.1, y.2)

/-- The state after a schedule. -/
def interleave (x : (ι → Program Call Answer α) × State) (schedule : List (ι × Fate)) :
    (ι → Program Call Answer α) × State :=
  schedule.foldl (istep S) x

@[simp] theorem interleave_nil (x : (ι → Program Call Answer α) × State) :
    interleave S x [] = x := rfl

@[simp] theorem interleave_cons (x : (ι → Program Call Answer α) × State) (t : ι × Fate)
    (schedule : List (ι × Fate)) :
    interleave S x (t :: schedule) = interleave S (istep S x t) schedule := rfl

theorem interleave_append (x : (ι → Program Call Answer α) × State)
    (schedule more : List (ι × Fate)) :
    interleave S x (schedule ++ more) = interleave S (interleave S x schedule) more :=
  List.foldl_append

/-- The call of a step meets `P`: the client it schedules is waiting, and its call, the state and
the fate satisfy `P`. -/
def StepIs (P : State → Call → Fate → Prop) (x : (ι → Program Call Answer α) × State)
    (t : ι × Fate) : Prop :=
  match x.1 t.1 with
  | .finished _ => False
  | .waiting c _ => P x.2 c t.2

variable {S} {Inv : State → Prop} {Moves : State → State → Prop}
  {Allowed : State → Call → Fate → Prop}

/-- Every client of the system keeps its side of the bargain from here on. -/
structure Sound (S : Server Call Answer State Fate) (Inv : State → Prop)
    (Moves : State → State → Prop) (Allowed : State → Call → Fate → Prop)
    (x : (ι → Program Call Answer α) × State) : Prop where
  inv : Inv x.2
  client : ∀ i, ∃ pre, Stable Inv Moves pre ∧ pre x.2 ∧
    (x.1 i).Guarantees S Inv Moves Allowed (fun _ _ => True) pre

/-- One allowed step keeps the system sound. -/
theorem Sound.istep {x : (ι → Program Call Answer α) × State}
    (h : Sound S Inv Moves Allowed x) (t : ι × Fate)
    (ht : ¬ StepIs (fun s c f => ¬ Allowed s c f) x t) :
    Sound S Inv Moves Allowed (istep S x t) ∧
      ((istep S x t).2 = x.2 ∨ Moves x.2 (istep S x t).2) := by
  obtain ⟨ps, s⟩ := x
  obtain ⟨i, f⟩ := t
  unfold StepIs at ht
  unfold Service.istep
  cases hp : ps i with
  | finished a =>
    have hu : Function.update ps i (Program.finished a) = ps := by
      rw [← hp, Function.update_eq_self]
    simp only [hp, Program.step_finished, hu]
    exact ⟨h, Or.inl trivial⟩
  | waiting c next =>
    simp only [hp, not_not] at ht
    obtain ⟨pre, -, hpre, hg⟩ := h.client i
    simp only [hp] at hg
    obtain ⟨mid, hst, hstep, hrest⟩ := hg (S.serve s c f).1
    obtain ⟨hinv, hmove, hmid⟩ := hstep s f h.inv hpre ht rfl
    simp only [hp, Program.step_waiting]
    refine ⟨⟨hinv, fun j => ?_⟩, Or.inr hmove⟩
    by_cases hj : j = i
    · subst hj
      simp only [Function.update_self]
      exact ⟨mid, hst, hmid, hrest⟩
    · -- the others only saw a move
      obtain ⟨pre', hst', hpre', hg'⟩ := h.client j
      simp only [Function.update_of_ne hj]
      exact ⟨pre', hst', hst' _ _ h.inv hinv hmove hpre', hg'⟩

/-- **Interleavings.** After a schedule whose steps are all allowed the system is sound. -/
theorem Sound.schedule {x : (ι → Program Call Answer α) × State}
    (h : Sound S Inv Moves Allowed x) (schedule : List (ι × Fate))
    (hs : ∀ done t rest, schedule = done ++ t :: rest →
      ¬ StepIs (fun s c f => ¬ Allowed s c f) (interleave S x done) t) :
    Sound S Inv Moves Allowed (interleave S x schedule) := by
  induction schedule generalizing x with
  | nil => exact h
  | cons t rest ih =>
    refine ih (h.istep t (hs [] t rest rfl)).1 fun done u more he => ?_
    exact hs (t :: done) u more (by rw [he, List.cons_append])

/-- A stable assertion survives such a schedule. -/
theorem Sound.keeps {x : (ι → Program Call Answer α) × State} (h : Sound S Inv Moves Allowed x)
    {A : State → Prop} (hA : Stable Inv Moves A) (ha : A x.2) (schedule : List (ι × Fate))
    (hs : ∀ done t rest, schedule = done ++ t :: rest →
      ¬ StepIs (fun s c f => ¬ Allowed s c f) (interleave S x done) t) :
    A (interleave S x schedule).2 := by
  induction schedule generalizing x with
  | nil => exact ha
  | cons t rest ih =>
    obtain ⟨hnext, hmove⟩ := h.istep t (hs [] t rest rfl)
    refine ih hnext ?_ fun done u more he => hs (t :: done) u more (by rw [he, List.cons_append])
    rcases hmove with heq | hmove
    · rw [heq]
      exact ha
    · exact hA _ _ h.inv hnext.inv hmove ha

end Interleave

end Service
