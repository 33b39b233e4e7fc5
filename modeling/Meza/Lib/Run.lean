import Mathlib.Data.List.Forall2
import Mathlib.Data.List.Induction

/-! # Guarded runs

    A system that handles one event after the other. A run is guarded when
    every event meets a condition on the state it is handled in; what such
    events preserve holds along the whole run. -/

namespace Run
open List

variable {σ ε : Type*} (step : σ → ε → σ) (guard : σ → ε → Prop)

/-- The state after a list of events. -/
def exec (s : σ) (evs : List ε) : σ := evs.foldl step s

/-- Every event meets the condition in the state it finds. -/
def Guarded : σ → List ε → Prop
  | _, [] => True
  | s, ev :: evs => guard s ev ∧ Guarded (step s ev) evs

instance decidableGuarded [∀ s ev, Decidable (guard s ev)] :
    ∀ (s : σ) (evs : List ε), Decidable (Guarded step guard s evs)
  | _, [] => inferInstanceAs (Decidable True)
  | s, ev :: evs =>
    have := decidableGuarded (step s ev) evs
    inferInstanceAs (Decidable (_ ∧ _))

variable {step guard} {evs post pre : List ε} {s : σ} {I : σ → Prop}

theorem exec_append : exec step s (pre ++ post) = exec step (exec step s pre) post :=
  foldl_append

theorem guarded_of_forall (h : ∀ s ev, guard s ev) (s : σ) (evs : List ε) :
    Guarded step guard s evs := by
  induction evs generalizing s with
  | nil => trivial
  | cons ev evs ih => exact ⟨h s ev, ih (step s ev)⟩

/-- A property of what has happened and of the state reached. -/
theorem exec_history {I : List ε → σ → Prop} (hinit : I [] s)
    (hstep : ∀ pre ev, I pre (exec step s pre) → I (pre ++ [ev]) (step (exec step s pre) ev))
    (evs : List ε) : I evs (exec step s evs) := by
  induction evs using reverseRecOn with
  | nil => exact hinit
  | append_singleton pre ev ih =>
    rw [exec_append]
    exact hstep pre ev ih

theorem Guarded.left (h : Guarded step guard s (pre ++ post)) : Guarded step guard s pre := by
  induction pre generalizing s with
  | nil => trivial
  | cons ev pre ih => exact ⟨h.1, ih h.2⟩

theorem Guarded.right (h : Guarded step guard s (pre ++ post)) :
    Guarded step guard (exec step s pre) post := by
  induction pre generalizing s with
  | nil => exact h
  | cons ev pre ih => exact ih h.2

theorem Guarded.mono {guard' : σ → ε → Prop} (hle : ∀ s ev, guard s ev → guard' s ev)
    (h : Guarded step guard s evs) : Guarded step guard' s evs := by
  induction evs generalizing s with
  | nil => trivial
  | cons ev evs ih => exact ⟨hle s ev h.1, ih h.2⟩

/-- An event of a guarded run meets the condition where it is handled. -/
theorem Guarded.meets {ev : ε} (h : Guarded step guard s (pre ++ ev :: post)) :
    guard (exec step s pre) ev := by
  induction pre generalizing s with
  | nil => exact h.1
  | cons ev pre ih => exact ih h.2

/-- What every guarded event preserves holds after a guarded run. -/
theorem exec_invariant (hstep : ∀ s ev, I s → guard s ev → I (step s ev))
    (hs : I s) (h : Guarded step guard s evs) : I (exec step s evs) := by
  induction evs generalizing s with
  | nil => exact hs
  | cons ev evs ih => exact ih (hstep s ev hs h.1) h.2

theorem exec_kept (hstep : ∀ s ev, I s → I (step s ev)) (hs : I s) (evs : List ε) :
    I (exec step s evs) := by
  induction evs generalizing s with
  | nil => exact hs
  | cons ev evs ih => exact ih (hstep s ev hs)

/-- Where an event keeps a property exactly when it meets the condition, a run keeps it all
    along exactly when it is guarded. Another condition on the events, `ok`, and what it
    preserves may help. -/
theorem along_iff_of_guarded {J : σ → Prop} {ok : σ → ε → Prop}
    (hkeep : ∀ s ev, J s → ok s ev → J (step s ev))
    (hstep : ∀ s ev, J s → I s → ok s ev → (I (step s ev) ↔ guard s ev)) (hj : J s) (hs : I s)
    (hok : Guarded step ok s evs) :
    (∀ pre, pre <+: evs → I (exec step s pre)) ↔ Guarded step guard s evs := by
  induction evs generalizing s with
  | nil =>
    refine iff_of_true ?_ trivial
    intro pre hpre
    rw [prefix_nil.mp hpre]
    exact hs
  | cons ev evs ih =>
    have hev := hstep s ev hj hs hok.1
    have hj' := hkeep s ev hj hok.1
    constructor
    · intro hall
      have hfirst : I (step s ev) := hall [ev] ⟨evs, rfl⟩
      refine ⟨hev.mp hfirst, (ih hj' hfirst hok.2).mp ?_⟩
      intro pre hpre
      exact hall (ev :: pre) (cons_prefix_cons.mpr ⟨rfl, hpre⟩)
    · rintro ⟨hguard, hguards⟩ pre hpre
      rcases prefix_cons_iff.mp hpre with rfl | ⟨rest, rfl, hrest⟩
      · exact hs
      · exact (ih hj' (hev.mpr hguard) hok.2).mpr hguards rest hrest

theorem along_iff_of_kept {J : σ → Prop} (hkeep : ∀ s ev, J s → J (step s ev))
    (hstep : ∀ s ev, J s → I s → (I (step s ev) ↔ guard s ev)) (hj : J s) (hs : I s) :
    (∀ pre, pre <+: evs → I (exec step s pre)) ↔ Guarded step guard s evs := by
  have hall : Guarded step (fun _ _ => True) s evs := guarded_of_forall (fun _ _ => trivial) s evs
  exact along_iff_of_guarded (fun s ev hJ _ => hkeep s ev hJ)
    (fun s ev hJ hI _ => hstep s ev hJ hI) hj hs hall

theorem along_iff {ok : ε → Prop} (hstep : ∀ s ev, I s → ok ev → (I (step s ev) ↔ guard s ev))
    (hs : I s) (hok : ∀ ev ∈ evs, ok ev) :
    (∀ pre, pre <+: evs → I (exec step s pre)) ↔ Guarded step guard s evs := by
  have hguarded : Guarded step (fun _ ev => ok ev) s evs := by
    clear hs
    induction evs generalizing s with
    | nil => trivial
    | cons ev evs ih =>
      obtain ⟨hfirst, hrest⟩ := forall_mem_cons.mp hok
      exact ⟨hfirst, ih hrest⟩
  exact along_iff_of_guarded (J := fun _ => True) (fun _ _ _ _ => trivial)
    (fun s ev _ => hstep s ev) trivial hs hguarded

/-- Two runs that go event by event, the first of them guarded: what related events keep
    between the states. -/
theorem exec_related_of_guarded {R : σ → σ → Prop} {E : ε → ε → Prop}
    (hstep : ∀ s s' ev ev', R s s' → E ev ev' → guard s ev → R (step s ev) (step s' ev')) {s' : σ}
    {evs' : List ε} (hs : R s s') (h : Forall₂ E evs evs') (hguard : Guarded step guard s evs)
    : R (exec step s evs) (exec step s' evs') := by
  induction h generalizing s s' with
  | nil => exact hs
  | cons hev _ ih => exact ih (hstep _ _ _ _ hs hev hguard.1) hguard.2

theorem exec_related {R : σ → σ → Prop} {E : ε → ε → Prop}
    (hstep : ∀ s s' ev ev', R s s' → E ev ev' → R (step s ev) (step s' ev')) {s' : σ}
    {evs' : List ε} (hs : R s s') (h : Forall₂ E evs evs') :
    R (exec step s evs) (exec step s' evs') :=
  have hall : Guarded step (fun _ _ => True) s evs := guarded_of_forall (fun _ _ => trivial) s evs
  exec_related_of_guarded (fun s s' ev ev' hR hE _ => hstep s s' ev ev' hR hE) hs h hall

end Run
