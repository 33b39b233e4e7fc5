import Mathlib.Data.List.Basic

/-! # Actions that may fail

    A request handler reads and changes a state and may stop with an error; what
    it changed before the error stays changed. `EStateM` is the monad for that.
    Handlers are put together from three kinds of steps: checks, updates that
    happen entirely or not at all, and updates whose failure is ignored.

    `Ends x s Q E` says how a run ends: with `Q` after a success, with `E` after
    an error. The rules below take a handler apart step by step. -/

namespace Action

variable {ε σ α β : Type}

/-! ## Section 1: Steps -/

/-- Reads the state and may stop with an error. -/
def check (f : σ → Except ε α) : EStateM ε σ α := fun s =>
  match f s with
  | .ok a => .ok a s
  | .error e => .error e s

/-- Changes the state, or stops with an error and leaves it alone. -/
def update (f : σ → Except ε (α × σ)) : EStateM ε σ α := fun s =>
  match f s with
  | .ok (a, s') => .ok a s'
  | .error e => .error e s

/-- Changes the state if it can. -/
def attempt (f : σ → Except ε σ) : EStateM ε' σ Unit := fun s =>
  match f s with
  | .ok s' => .ok () s'
  | .error _ => .ok () s

/-- Changes the state. -/
def modify (f : σ → σ) : EStateM ε σ Unit := fun s => .ok () (f s)

/-- The state a run ends in. -/
def after (x : EStateM ε σ α) (s : σ) : σ :=
  match x s with
  | .ok _ s' => s'
  | .error _ s' => s'

/-- What a run returns. -/
def result (x : EStateM ε σ α) (s : σ) : Except ε α :=
  match x s with
  | .ok a _ => .ok a
  | .error e _ => .error e

/-- The run ends without an error. -/
def succeeds (x : EStateM ε σ α) (s : σ) : Bool :=
  match x s with
  | .ok _ _ => true
  | .error _ _ => false

/-! ## Section 2: How a run ends -/

def Ends (x : EStateM ε σ α) (s : σ) (Q : α → σ → Prop) (E : ε → σ → Prop) : Prop :=
  match x s with
  | .ok a s' => Q a s'
  | .error e s' => E e s'

variable {x : EStateM ε σ α} {k : α → EStateM ε σ β} {s : σ} {Q : β → σ → Prop}
  {E : ε → σ → Prop}

theorem ends_bind : Ends (x >>= k) s Q E ↔ Ends x s (fun a s' => Ends (k a) s' Q E) E := by
  unfold Ends
  show (match EStateM.bind x k s with
    | .ok a s' => Q a s'
    | .error e s' => E e s') ↔ _
  unfold EStateM.bind
  rcases x s with ⟨a, s'⟩ | ⟨e, s'⟩
  · rfl
  · rfl

theorem ends_of_ok {a : α} {s' : σ} (hx : x s = .ok a s') (h : Ends (k a) s' Q E) :
    Ends (x >>= k) s Q E := by
  rw [ends_bind]
  unfold Ends
  rw [hx]
  exact h

variable {y : EStateM ε σ β} {b : β}

theorem ends_pure (h : Q b s) : Ends (pure b) s Q E := h

theorem ends_last (h : Ends (y >>= pure) s Q E) : Ends y s Q E := by
  rwa [bind_pure] at h

theorem Ends.mono {Q' : β → σ → Prop} {E' : ε → σ → Prop} (h : Ends y s Q E)
    (hQ : ∀ b s', Q b s' → Q' b s') (hE : ∀ e s', E e s' → E' e s') : Ends y s Q' E' := by
  unfold Ends at h ⊢
  rcases hy : y s with ⟨b, s'⟩ | ⟨e, s'⟩
  · rw [hy] at h
    exact hQ b s' h
  · rw [hy] at h
    exact hE e s' h

theorem Ends.and {Q' : β → σ → Prop} {E' : ε → σ → Prop} (h : Ends y s Q E) (h' : Ends y s Q' E') :
    Ends y s (fun b s' => Q b s' ∧ Q' b s') (fun e s' => E e s' ∧ E' e s') := by
  unfold Ends at h h' ⊢
  rcases hy : y s with ⟨b, s'⟩ | ⟨e, s'⟩
  · rw [hy] at h h'
    exact ⟨h, h'⟩
  · rw [hy] at h h'
    exact ⟨h, h'⟩

theorem Ends.of_succeeds {P : σ → Prop} (h : Ends y s (fun _ s' => P s') E)
    (hy : succeeds y s = true) : P (after y s) := by
  unfold Ends at h
  unfold succeeds at hy
  unfold Action.after
  rcases hrun : y s with ⟨b, s'⟩ | ⟨e, s'⟩
  · rw [hrun] at h
    exact h
  · rw [hrun] at hy
    cases hy

/-- What holds of every run. -/
theorem Ends.after {P : σ → Prop} (h : Ends y s (fun _ s' => P s') (fun _ s' => P s')) :
    P (after y s) := by
  unfold Ends at h
  unfold Action.after
  rcases hy : y s with ⟨b, s'⟩ | ⟨e, s'⟩
  · rw [hy] at h
    exact h
  · rw [hy] at h
    exact h

/-! ## Section 3: Rules -/

theorem ends_check {f : σ → Except ε α} (hok : ∀ a, f s = .ok a → Ends (k a) s Q E)
    (herr : ∀ e, E e s := by first | exact fun _ => rfl | assumption) :
    Ends (check f >>= k) s Q E := by
  rw [ends_bind]
  unfold Ends check
  rcases hf : f s with e | a
  · exact herr e
  · exact hok a hf

theorem ends_update {f : σ → Except ε (α × σ)} (hok : ∀ a s', f s = .ok (a, s') → Ends (k a) s' Q E)
    (herr : ∀ e, E e s := by first | exact fun _ => rfl | assumption) :
    Ends (update f >>= k) s Q E := by
  rw [ends_bind]
  unfold Ends update
  rcases hf : f s with e | ⟨a, s'⟩
  · exact herr e
  · exact hok a s' hf

theorem ends_attempt {f : σ → Except ε' σ} {k : Unit → EStateM ε σ β}
    (hok : ∀ s', f s = .ok s' → Ends (k ()) s' Q E) (herr : Ends (k ()) s Q E) :
    Ends (attempt f >>= k) s Q E := by
  rw [ends_bind]
  unfold Ends attempt
  rcases hf : f s with e | s'
  · exact herr
  · exact hok s' hf

theorem ends_modify {f : σ → σ} {k : Unit → EStateM ε σ β} (h : Ends (k ()) (f s) Q E) :
    Ends (modify f >>= k) s Q E := by
  exact h

/-- A loop, with an invariant about the elements to come. -/
theorem ends_forM {f : α → EStateM ε σ PUnit} {I : List α → σ → Prop}
    (hstep : ∀ a l s, I (a :: l) s → Ends (f a) s (fun _ s' => I l s') E) {l : List α}
    (h : I l s) : Ends (l.forM f) s (fun _ s' => I [] s') E := by
  induction l generalizing s with
  | nil => exact h
  | cons a l ih =>
    show Ends (f a >>= fun _ => l.forM f) s (fun _ s' => I [] s') E
    rw [ends_bind]
    exact (hstep a l s h).mono (fun _ _ h' => ih h') (fun _ _ h' => h')

/-! ## Section 4: Runs that succeed -/

theorem bind_ok {s' : σ} : (x >>= k) s = .ok b s' ↔ ∃ a s₁, x s = .ok a s₁ ∧ k a s₁ = .ok b s' := by
  show EStateM.bind x k s = .ok b s' ↔ _
  unfold EStateM.bind
  rcases x s with ⟨a, s₁⟩ | ⟨e, s₁⟩
  · simp
  · simp

theorem pure_ok {a : β} {s' : σ} : (pure a : EStateM ε σ β) s = .ok b s' ↔ b = a ∧ s' = s := by
  show EStateM.pure a s = .ok b s' ↔ _
  unfold EStateM.pure
  simp [eq_comm]

theorem check_ok {f : σ → Except ε α} {a : α} {s' : σ} :
    check f s = .ok a s' ↔ f s = .ok a ∧ s' = s := by
  unfold check
  rcases f s with e | b
  · simp
  · simp [eq_comm]

theorem modify_ok {f : σ → σ} {u : Unit} {s' : σ} :
    (modify f : EStateM ε σ Unit) s = .ok u s' ↔ s' = f s := by
  unfold modify
  simp [eq_comm]

theorem result_ok : result y s = .ok b ↔ ∃ s', y s = .ok b s' := by
  unfold result
  rcases y s with ⟨a, s₁⟩ | ⟨e, s₁⟩
  · simp
  · simp

theorem eq_of_result (h : result y s = .ok b) : y s = .ok b (after y s) := by
  obtain ⟨s', hrun⟩ := result_ok.mp h
  unfold after
  rw [hrun]

theorem succeeds_iff : succeeds y s = true ↔ ∃ b s', y s = .ok b s' := by
  unfold succeeds
  rcases y s with ⟨a, s₁⟩ | ⟨e, s₁⟩
  · simp
  · simp

end Action
