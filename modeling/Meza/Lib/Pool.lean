import Mathlib.Data.List.Perm.Basic
import Meza.Lib.Run

/-! # Interleaved calls

    A pool of calls that work on one shared state. A call is the phase it is
    in; a step takes one call from its phase to the next, in any order, and new
    calls can start at any time. `next` says what the step of a call does,
    given the shared state, the phases of the other calls (for the locks they
    hold) and an outcome that the environment chooses. Where it gives nothing
    the call has to wait.

    Section 2 has the rule that carries a property along a run, and Section 4
    properties made of one of the shared state, one of each call and one of
    every two calls. Section 5 has an observer who notes what the steps do, and
    Section 6 two pools in which the same calls take their steps in the same order. -/

namespace Pool
open List Option Forall₂ Run

variable {σ φ κ ω : Type*}

/-! ## Section 1: Pools and their steps -/

structure State (σ φ : Type*) where
  shared : σ
  calls : List φ

inductive Event (κ ω : Type*) where
  | start (call : κ)
  | advance (i : Nat) (outcome : ω)

variable (start : κ → φ) (next : σ → List φ → φ → ω → Option (σ × φ))

def step (s : State σ φ) : Event κ ω → State σ φ
  | .start call => { s with calls := s.calls ++ [start call] }
  | .advance i outcome =>
    match s.calls[i]? with
    | none => s
    | some p =>
      match next s.shared (s.calls.eraseIdx i) p outcome with
      | none => s
      | some (sh, p') => { shared := sh, calls := s.calls.set i p' }

/-- A condition on the calls that start and on the steps that are taken. -/
def Allows (starts : State σ φ → κ → Prop) (advances : σ → List φ → φ → ω → Prop)
    (s : State σ φ) : Event κ ω → Prop
  | .start call => starts s call
  | .advance i outcome =>
    ∀ p, s.calls[i]? = some p → advances s.shared (s.calls.eraseIdx i) p outcome

instance (starts : State σ φ → κ → Prop) (advances : σ → List φ → φ → ω → Prop)
    [∀ s call, Decidable (starts s call)]
    [∀ sh others p outcome, Decidable (advances sh others p outcome)] (s : State σ φ) :
    ∀ ev, Decidable (Allows starts advances s ev)
  | .start call => inferInstanceAs (Decidable (starts s call))
  | .advance i _ => inferInstanceAs (Decidable (∀ _ ∈ s.calls[i]?, _))

/-- Every call is finished. -/
def Quiescent (finished : φ → Bool) (s : State σ φ) : Prop := ∀ p ∈ s.calls, finished p = true

instance (finished : φ → Bool) (s : State σ φ) : Decidable (Quiescent finished s) :=
  inferInstanceAs (Decidable (∀ _ ∈ s.calls, _))

/-! ## Section 2: Rules for runs -/

variable {l : List φ} {i : Nat} {s : State σ φ} {sh sh' : σ} {p p' : φ}

theorem perm_cons_eraseIdx (h : l[i]? = some p) : l.Perm (p :: l.eraseIdx i) := by
  obtain ⟨hi, rfl⟩ := List.getElem?_eq_some_iff.mp h
  exact (getElem_cons_eraseIdx_perm hi).symm

theorem perm_set (p' : φ) (h : l[i]? = some p) : (l.set i p').Perm (p' :: l.eraseIdx i) := by
  obtain ⟨hi, -⟩ := List.getElem?_eq_some_iff.mp h
  have hset : (l.set i p')[i]? = some p' := by simp [hi]
  have herase : (l.set i p').eraseIdx i = l.eraseIdx i := by
    rw [eraseIdx_set_eq]
  rw [← herase]
  exact perm_cons_eraseIdx hset

variable {start next}

/-- What a step of a call can do to the pool. -/
theorem step_advance {s : State σ φ} {i : Nat} {outcome : ω} :
    step start next s (.advance i outcome) = s ∨
      ∃ p sh p', s.calls[i]? = some p ∧
        next s.shared (s.calls.eraseIdx i) p outcome = some (sh, p') ∧
        step start next s (.advance i outcome) = { shared := sh, calls := s.calls.set i p' } := by
  rcases hp : s.calls[i]? with _ | p
  · left
    simp only [step, hp]
  · rcases hnext : next s.shared (s.calls.eraseIdx i) p outcome with _ | ⟨sh, p'⟩
    · left
      simp only [step, hp, hnext]
    · right
      refine ⟨p, sh, p', rfl, hnext, ?_⟩
      simp only [step, hp, hnext]

theorem step_call {ev : Event κ ω} (hp : s.calls[i]? = some p)
    (hp' : (step start next s ev).calls[i]? = some p') :
    p' = p ∨ ∃ outcome, ev = .advance i outcome ∧
      next s.shared (s.calls.eraseIdx i) p outcome = some ((step start next s ev).shared, p') := by
  obtain ⟨hi, -⟩ := List.getElem?_eq_some_iff.mp hp
  cases ev with
  | start call =>
    left
    have hsame : (s.calls ++ [start call])[i]? = some p := by
      rw [getElem?_append_left hi, hp]
    exact some.inj (hp'.symm.trans hsame)
  | advance j outcome =>
    rcases @step_advance _ _ _ _ start next s j outcome with heq | ⟨q, sh, q', hq, hnext, heq⟩
    · left
      rw [heq, hp] at hp'
      exact (some.inj hp').symm
    · rw [heq] at hp' ⊢
      by_cases hij : j = i
      · subst hij
        right
        rw [hq] at hp
        cases hp
        rw [getElem?_set_self hi] at hp'
        cases hp'
        exact ⟨outcome, rfl, hnext⟩
      · left
        rw [getElem?_set_ne hij, hp] at hp'
        exact (some.inj hp').symm

theorem step_shared (s : State σ φ) (ev : Event κ ω) :
    (step start next s ev).shared = s.shared ∨
      ∃ i outcome p p', ev = .advance i outcome ∧ s.calls[i]? = some p ∧
        next s.shared (s.calls.eraseIdx i) p outcome =
          some ((step start next s ev).shared, p') ∧
        (step start next s ev).calls[i]? = some p' := by
  cases ev with
  | start call => exact .inl rfl
  | advance i outcome =>
    rcases @step_advance _ _ _ _ start next s i outcome with heq | ⟨p, sh, p', hp, hnext, heq⟩
    · left
      rw [heq]
    · right
      obtain ⟨hi, -⟩ := List.getElem?_eq_some_iff.mp hp
      refine ⟨i, outcome, p, p', rfl, hp, ?_, ?_⟩
      · rw [heq]
        exact hnext
      · rw [heq]
        exact getElem?_set_self hi

theorem shared_advance (hp : s.calls[i]? = some p) (outcome : ω) :
    (step start next s (.advance i outcome)).shared =
      ((next s.shared (s.calls.eraseIdx i) p outcome).map Prod.fst).getD s.shared := by
  rcases hnext : next s.shared (s.calls.eraseIdx i) p outcome with _ | ⟨sh, p'⟩
  · simp only [step, hp, hnext]
    rfl
  · simp only [step, hp, hnext]
    rfl

theorem call_step_of_finished (hfinished : ∀ sh others outcome, next sh others p outcome = none)
    (ev : Event κ ω) (hp : s.calls[i]? = some p) : (step start next s ev).calls[i]? = some p := by
  obtain ⟨hlt, -⟩ := List.getElem?_eq_some_iff.mp hp
  cases ev with
  | start call =>
    show (s.calls ++ [start call])[i]? = some p
    rw [getElem?_append_left hlt, hp]
  | advance j outcome =>
    rcases @step_advance _ _ _ _ start next s j outcome with heq | ⟨q, sh, q', hq, hnext, heq⟩
    · rw [heq]
      exact hp
    · rw [heq]
      -- the step is another call's
      have hij : j ≠ i := by
        rintro rfl
        rw [hq] at hp
        cases hp
        rw [hfinished] at hnext
        cases hnext
      show (s.calls.set j q')[i]? = some p
      rw [getElem?_set_ne hij]
      exact hp

theorem call_exec_of_finished (hfinished : ∀ sh others outcome,
    next sh others p outcome = none) (hp : s.calls[i]? = some p) (evs : List (Event κ ω)) :
    (exec (step start next) s evs).calls[i]? = some p := by
  induction evs generalizing s with
  | nil => exact hp
  | cons ev evs ih => exact ih (call_step_of_finished hfinished ev hp)

theorem mem_step_of_finished (hfinished : ∀ sh others outcome, next sh others p outcome = none)
    (s : State σ φ) (ev : Event κ ω) (hp : p ∈ s.calls) : p ∈ (step start next s ev).calls := by
  obtain ⟨i, hi⟩ := mem_iff_getElem?.mp hp
  exact mem_iff_getElem?.mpr ⟨i, call_step_of_finished hfinished ev hi⟩

theorem mem_exec_of_finished (hfinished : ∀ sh others outcome, next sh others p outcome = none)
    (hp : p ∈ s.calls) (evs : List (Event κ ω)) : p ∈ (exec (step start next) s evs).calls := by
  induction evs generalizing s with
  | nil => exact hp
  | cons ev evs ih => exact ih (mem_step_of_finished hfinished s ev hp)

section Rule

variable {J : State σ φ → Prop} {starts : State σ φ → κ → Prop}
  {advances : σ → List φ → φ → ω → Prop}

/-- The order of the calls does not matter. -/
def OrderFree (J : State σ φ → Prop) : Prop :=
  ∀ sh l l', l.Perm l' → J { shared := sh, calls := l } → J { shared := sh, calls := l' }

/-- Starting a call keeps the property. -/
def StartKeeps (start : κ → φ) (J : State σ φ → Prop) : Prop :=
  ∀ sh calls call, J { shared := sh, calls } → J { shared := sh, calls := start call :: calls }

/-- A step of the first call keeps it. -/
def NextKeeps (next : σ → List φ → φ → ω → Option (σ × φ)) (J : State σ φ → Prop) : Prop :=
  ∀ sh p others outcome sh' p', J { shared := sh, calls := p :: others } →
    next sh others p outcome = some (sh', p') → J { shared := sh', calls := p' :: others }

/-- A step of the first call keeps it where it is allowed. -/
def AllowedKeeps (advances : σ → List φ → φ → ω → Prop)
    (next : σ → List φ → φ → ω → Option (σ × φ)) (J : State σ φ → Prop) : Prop :=
  ∀ sh p others outcome sh' p', J { shared := sh, calls := p :: others } →
    advances sh others p outcome → next sh others p outcome = some (sh', p') →
      J { shared := sh', calls := p' :: others }

section Allowed

variable (hperm : OrderFree J)
  (hstart : ∀ sh calls call, J { shared := sh, calls } → starts { shared := sh, calls } call →
    J { shared := sh, calls := start call :: calls }) (hnext : AllowedKeeps advances next J)
include hperm hstart hnext

theorem keeps_step (s : State σ φ) (ev : Event κ ω) (h : J s)
    (hallow : Allows starts advances s ev) : J (step start next s ev) := by
  cases ev with
  | start call =>
    have hcons := hstart s.shared s.calls call h hallow
    exact hperm _ _ _ (perm_append_singleton _ _).symm hcons
  | advance i outcome =>
    rcases @step_advance _ _ _ _ start next s i outcome with heq | ⟨p, sh, p', hp, hstep, heq⟩
    · rw [heq]
      exact h
    · rw [heq]
      -- the call that takes the step is moved to the front and back
      have hfirst : J { shared := s.shared, calls := p :: s.calls.eraseIdx i } :=
        hperm _ _ _ (perm_cons_eraseIdx hp) h
      have hkept := hnext _ _ _ _ _ _ hfirst (hallow p hp) hstep
      exact hperm _ _ _ (perm_set p' hp).symm hkept

theorem keeps_exec {s : State σ φ} {evs : List (Event κ ω)} (h : J s)
    (hrun : Guarded (step start next) (Allows starts advances) s evs) :
    J (exec (step start next) s evs) :=
  exec_invariant (keeps_step hperm hstart hnext) h hrun

end Allowed

section Always

variable (hperm : OrderFree J) (hstart : StartKeeps start J) (hnext : NextKeeps next J)
include hperm hstart hnext

theorem keeps_event (s : State σ φ) (ev : Event κ ω) (h : J s) : J (step start next s ev) := by
  have hallow : Allows (fun _ _ => True) (fun _ _ _ _ => True) s ev := by
    cases ev with
    | start call => trivial
    | advance i outcome => exact fun _ _ => trivial
  exact keeps_step hperm (fun sh calls call hJ _ => hstart sh calls call hJ)
    (fun sh p others outcome sh' p' hJ _ => hnext sh p others outcome sh' p' hJ) s ev h hallow

theorem keeps_always {s : State σ φ} (h : J s) (evs : List (Event κ ω)) :
    J (exec (step start next) s evs) :=
  exec_kept (keeps_event hperm hstart hnext) h evs

end Always

/-- Where starting a call keeps a property, and a step keeps it exactly when it meets the
    condition, an event keeps it exactly when it is allowed. `J` is what else is known. -/
theorem event_iff {I : State σ φ → Prop} (hJperm : OrderFree J) (hIperm : OrderFree I)
    (hstart : StartKeeps start I)
    (hwait : ∀ sh others p outcome, next sh others p outcome = none → advances sh others p outcome)
    (hnext : ∀ sh p others outcome sh' p', J { shared := sh, calls := p :: others } →
    I { shared := sh, calls := p :: others } → next sh others p outcome = some (sh', p') →
    (I { shared := sh', calls := p' :: others } ↔ advances sh others p outcome))
    (s : State σ φ) (ev : Event κ ω) (hJ : J s) (hI : I s) :
    I (step start next s ev) ↔ Allows (fun _ _ => True) advances s ev := by
  cases ev with
  | start call =>
    refine iff_of_true ?_ trivial
    exact hIperm _ _ _ (perm_append_singleton _ _).symm (hstart s.shared s.calls call hI)
  | advance i outcome =>
    rcases hp : s.calls[i]? with _ | p
    · have hsame : step start next s (.advance i outcome) = s := by simp only [step, hp]
      rw [hsame]
      refine iff_of_true hI fun p hp' => ?_
      rw [hp] at hp'
      cases hp'
    · have hallows : Allows (fun _ (_ : κ) => True) advances s (.advance i outcome) ↔
          advances s.shared (s.calls.eraseIdx i) p outcome := by
        simp only [Allows, hp, some.injEq, forall_eq']
      rw [hallows]
      rcases hstep : next s.shared (s.calls.eraseIdx i) p outcome with _ | ⟨sh', p'⟩
      · have hsame : step start next s (.advance i outcome) = s := by
          simp only [step, hp, hstep]
        rw [hsame]
        exact iff_of_true hI (hwait _ _ _ _ hstep)
      · have hafter : step start next s (.advance i outcome) =
            { shared := sh', calls := s.calls.set i p' } := by
          simp only [step, hp, hstep]
        have hJfirst : J { shared := s.shared, calls := p :: s.calls.eraseIdx i } :=
          hJperm _ _ _ (perm_cons_eraseIdx hp) hJ
        have hIfirst : I { shared := s.shared, calls := p :: s.calls.eraseIdx i } :=
          hIperm _ _ _ (perm_cons_eraseIdx hp) hI
        rw [hafter, ← hnext _ _ _ _ _ _ hJfirst hIfirst hstep]
        -- the call that takes the step is moved to the front and back
        exact ⟨hIperm _ _ _ (perm_set p' hp), hIperm _ _ _ (perm_set p' hp).symm⟩

end Rule

/-! ## Section 3: Steps that may be refused -/

section Refused

variable {ε α : Type*}

/-- Goes on with the answer to a query, or ends the call. -/
def answer (refuse : ε → φ) (sh : σ) (r : Except ε α) (k : α → φ) : σ × φ :=
  match r with
  | .ok a => (sh, k a)
  | .error e => (sh, refuse e)

/-- Goes on in the changed state, or ends the call. -/
def write (refused : φ) (sh : σ) (r : Except ε (α × σ)) (k : α → φ) : σ × φ :=
  match r with
  | .ok (a, sh') => (sh', k a)
  | .error _ => (sh, refused)

theorem answer_cases {refuse : ε → φ} {r : Except ε α} {k : α → φ}
    (h : answer refuse sh r k = (sh', p)) :
    sh' = sh ∧ ((∃ a, r = .ok a ∧ p = k a) ∨ ∃ e, p = refuse e) := by
  unfold answer at h
  split at h
  · obtain ⟨rfl, rfl⟩ := Prod.mk.inj h
    exact ⟨rfl, .inl ⟨_, rfl, rfl⟩⟩
  · obtain ⟨rfl, rfl⟩ := Prod.mk.inj h
    exact ⟨rfl, .inr ⟨_, rfl⟩⟩

theorem write_cases {refused : φ} {r : Except ε (α × σ)} {k : α → φ}
    (h : write refused sh r k = (sh', p)) :
    (∃ a, r = .ok (a, sh') ∧ p = k a) ∨ (sh' = sh ∧ p = refused) := by
  unfold write at h
  split at h
  · obtain ⟨rfl, rfl⟩ := Prod.mk.inj h
    exact .inl ⟨_, rfl, rfl⟩
  · obtain ⟨rfl, rfl⟩ := Prod.mk.inj h
    exact .inr ⟨rfl, rfl⟩

end Refused

/-! ## Section 4: Invariants of calls and pairs of calls -/

/-- An invariant of the shared state, of each call and of every two calls. -/
structure Inv (I : σ → Prop) (L : σ → φ → Prop) (P : σ → φ → φ → Prop) (s : State σ φ) :
    Prop where
  shared : I s.shared
  each : ∀ p ∈ s.calls, L s.shared p
  pairs : s.calls.Pairwise (P s.shared)

section Invariant

variable {I : σ → Prop} {L : σ → φ → Prop} {P : σ → φ → φ → Prop}

theorem Inv.init (hI : I sh) : Inv I L P { shared := sh, calls := [] } where
  shared := hI
  each := by
    intro p hp
    cases hp
  pairs := .nil

theorem Inv.perm (hsymm : ∀ sh p q, P sh p q → P sh q p) : OrderFree (Inv I L P) := by
  intro sh l l' hperm h
  exact ⟨h.shared, fun p hp => h.each p (hperm.mem_iff.mpr hp),
    (hperm.pairwise_iff (fun hpq => hsymm sh _ _ hpq)).mp h.pairs⟩

theorem Inv.replace {others : List φ} (h : Inv I L P { shared := sh, calls := p :: others })
    (hI : I sh') (hL : L sh' p') (hothers : ∀ q ∈ others, L sh q → P sh p q → L sh' q ∧ P sh' p' q)
    (hpairs : ∀ q q', P sh q q' → P sh' q q') :
    Inv I L P { shared := sh', calls := p' :: others } where
  shared := hI
  each := by
    intro q hq
    rcases mem_cons.mp hq with rfl | hq
    · exact hL
    · exact (hothers q hq (h.each q (mem_cons_of_mem _ hq)) ((pairwise_cons.mp h.pairs).1 q hq)).1
  pairs := by
    obtain ⟨hfirst, hrest⟩ := pairwise_cons.mp h.pairs
    refine pairwise_cons.mpr ⟨?_, hrest.imp fun hqq' => hpairs _ _ hqq'⟩
    intro q hq
    exact (hothers q hq (h.each q (mem_cons_of_mem _ hq)) (hfirst q hq)).2

theorem Inv.cons {sh : σ} {p : φ} {calls : List φ} (h : Inv I L P { shared := sh, calls })
    (hL : L sh p) (hP : ∀ q ∈ calls, P sh p q) :
    Inv I L P { shared := sh, calls := p :: calls } where
  shared := h.shared
  each := by
    intro q hq
    rcases mem_cons.mp hq with rfl | hq
    · exact hL
    · exact h.each q hq
  pairs := pairwise_cons.mpr ⟨hP, h.pairs⟩

end Invariant

theorem countP_le_one {P : φ → Bool} {calls : List φ}
    (h : calls.Pairwise fun p q => ¬ (P p = true ∧ P q = true)) : calls.countP P ≤ 1 := by
  induction calls with
  | nil => exact Nat.zero_le 1
  | cons p calls ih =>
    obtain ⟨hfirst, hrest⟩ := pairwise_cons.mp h
    by_cases hp : P p = true
    · have hnone : calls.countP P = 0 := by
        rw [countP_eq_zero]
        intro q hq hPq
        exact hfirst q hq ⟨hp, hPq⟩
      have hcount : (p :: calls).countP P = calls.countP P + 1 := countP_cons_of_pos hp
      omega
    · rw [countP_cons_of_neg hp]
      exact ih hrest

/-! ## Section 5: Watched pools -/

section Watched

variable {τ : Type*} (see : σ → φ → ω → τ → τ)

/-- What an observer has noted is kept beside the shared state. -/
def watched (next : σ → List φ → φ → ω → Option (σ × φ)) (sh : σ × τ) (others : List φ) (p : φ)
    (outcome : ω) : Option ((σ × τ) × φ) :=
  (next sh.1 others p outcome).map fun r => ((r.1, see sh.1 p outcome sh.2), r.2)

/-- The pool without the notes. -/
def State.erase (s : State (σ × τ) φ) : State σ φ := { shared := s.shared.1, calls := s.calls }

variable {see}

/-- An observed step is one that is taken. -/
theorem watched_cases {sh sh' : σ × τ} {others : List φ} {outcome : ω}
    (h : watched see next sh others p outcome = some (sh', p')) :
    next sh.1 others p outcome = some (sh'.1, p') ∧ sh'.2 = see sh.1 p outcome sh.2 := by
  obtain ⟨⟨sh₁, p₁⟩, hnext, heq⟩ := map_eq_some_iff.mp h
  cases heq
  exact ⟨hnext, rfl⟩

end Watched

/-! ## Section 6: Two pools in lockstep -/

/-- The shared states are related, and so is each call with its counterpart. -/
structure Lockstep (R : σ → σ → Prop) (L : φ → φ → Prop) (s s' : State σ φ) : Prop where
  shared : R s.shared s'.shared
  calls : Forall₂ L s.calls s'.calls

/-- Related calls start, or the same call takes its step. -/
inductive SameTurn (E : κ → κ → Prop) : Event κ ω → Event κ ω → Prop where
  | start {call call' : κ} (h : E call call') : SameTurn E (.start call) (.start call')
  | advance (i : Nat) (outcome : ω) : SameTurn E (.advance i outcome) (.advance i outcome)

section Lockstep

variable {R : σ → σ → Prop} {L : φ → φ → Prop}

theorem forall₂_getElem? {l' : List φ} (h : Forall₂ L l l') (i : Nat) : Rel L l[i]? l'[i]? := by
  induction h generalizing i with
  | nil => exact .none
  | cons hp _ ih =>
    cases i with
    | zero => exact .some hp
    | succ i => exact ih i

theorem forall₂_eraseIdx {l' : List φ} (h : Forall₂ L l l') (i : Nat) :
    Forall₂ L (l.eraseIdx i) (l'.eraseIdx i) := by
  induction h generalizing i with
  | nil => exact nil
  | cons hp hrest ih =>
    cases i with
    | zero => exact hrest
    | succ i => exact cons hp (ih i)

theorem forall₂_set {l' : List φ} (h : Forall₂ L l l') (hp : L p p') (i : Nat) :
    Forall₂ L (l.set i p) (l'.set i p') := by
  induction h generalizing i with
  | nil => exact nil
  | cons hq hrest ih =>
    cases i with
    | zero => exact cons hp hrest
    | succ i => exact cons hq (ih i)

/-- What related calls keep in related states is kept by every turn. -/
theorem Lockstep.step {E : κ → κ → Prop}
    (hstart : ∀ call call', E call call' → L (start call) (start call'))
    (hnext : ∀ sh sh' others others' p p' outcome, R sh sh' → Forall₂ L others others' →
    L p p' → Rel (fun r r' => R r.1 r'.1 ∧ L r.2 r'.2) (next sh others p outcome)
    (next sh' others' p' outcome)) {s' : State σ φ} {ev ev' : Event κ ω} (h : Lockstep R L s s')
    (hev : SameTurn E ev ev') : Lockstep R L (step start next s ev) (step start next s' ev') := by
  cases hev with
  | start hcall =>
    refine ⟨h.shared, ?_⟩
    exact rel_append h.calls (cons (hstart _ _ hcall) nil)
  | advance i outcome =>
    have hturn := forall₂_getElem? h.calls i
    rcases hp : s.calls[i]? with _ | p
    · rcases hp' : s'.calls[i]? with _ | p'
      · simp only [Pool.step, hp, hp']
        exact h
      · rw [hp, hp'] at hturn
        cases hturn
    · rcases hp' : s'.calls[i]? with _ | p'
      · rw [hp, hp'] at hturn
        cases hturn
      · rw [hp, hp'] at hturn
        obtain ⟨hlike⟩ := hturn
        have hrel := hnext _ _ _ _ _ _ outcome h.shared (forall₂_eraseIdx h.calls i) hlike
        -- both calls wait, or both go on
        rcases hn : next s.shared (s.calls.eraseIdx i) p outcome with _ | ⟨sh, q⟩
        · rcases hn' : next s'.shared (s'.calls.eraseIdx i) p' outcome with _ | ⟨sh', q'⟩
          · simp only [Pool.step, hp, hp', hn, hn']
            exact h
          · rw [hn, hn'] at hrel
            cases hrel
        · rcases hn' : next s'.shared (s'.calls.eraseIdx i) p' outcome with _ | ⟨sh', q'⟩
          · rw [hn, hn'] at hrel
            cases hrel
          · rw [hn, hn'] at hrel
            obtain ⟨hshared, hcall⟩ := hrel
            simp only [Pool.step, hp, hp', hn, hn']
            exact ⟨hshared, forall₂_set h.calls hcall i⟩

end Lockstep

end Pool
