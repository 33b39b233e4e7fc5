import Mathlib.Algebra.Order.Ring.Int
import Mathlib.Data.List.Nodup
import Mathlib.Data.List.Range
import Meza.Lib.Run

/-! # The media queue

    A channel full of images would fetch all of them at once. The semaphore of
    `media-queue.ts` lets `max` fetches run and keeps the others in a queue.

    Tasks are numbered in the order of their submission. -/

namespace Meza.Client.MediaQueue
open List

abbrev Task := Nat

/-! ## Section 1: The semaphore -/

/-- The variables of `makeSemaphore`, then what has been submitted, started and settled. -/
structure State where
  active : Int
  queue : List Task
  submitted : Nat
  started : List Task
  settled : List Task

def initial : State := ⟨0, [], 0, [], []⟩

/-- Takes a slot and calls the function of the task. -/
def run (s : State) (t : Task) : State :=
  { s with active := s.active + 1, started := s.started ++ [t] }

def release (s : State) : State :=
  match s.queue with
  | [] => { s with active := s.active - 1 }
  | t :: rest => run { s with active := s.active - 1, queue := rest } t

/-- The function that `makeSemaphore` returns. -/
def enqueue (max : Nat) (s : State) : State :=
  if s.active < max then run { s with submitted := s.submitted + 1 } s.submitted
  else { s with submitted := s.submitted + 1, queue := s.queue ++ [s.submitted] }

inductive Outcome where
  | resolved
  | rejected

inductive Event where
  | submit
  | settle (t : Task) (outcome : Outcome)

/-- `finally` runs on both outcomes. -/
def step (max : Nat) (s : State) : Event → State
  | .submit => enqueue max s
  | .settle t _ => release { s with settled := t :: s.settled }

def running (s : State) : List Task := s.started.filter (· ∉ s.settled)

/-- A promise settles once, after its task has started. -/
def Possible (s : State) : Event → Prop
  | .submit => True
  | .settle t _ => t ∈ running s

instance (s : State) : ∀ ev, Decidable (Possible s ev)
  | .submit => inferInstanceAs (Decidable True)
  | .settle t _ => inferInstanceAs (Decidable (t ∈ running s))

/-! ## Section 2: The invariant -/

structure Inv (max : Nat) (s : State) : Prop where
  order : s.started ++ s.queue = range s.submitted
  settled : ∀ t ∈ s.settled, t ∈ s.started
  counted : s.active = s.started.length - s.settled.length
  active : s.active = (running s).length
  bounded : s.active ≤ max
  full : s.queue ≠ [] → s.active = max

variable {max : Nat} {s : State}

theorem length_running_run {t : Task} (hsettled : ∀ u ∈ s.settled, u ∈ s.started)
    (ht : t ∉ s.started) : (running (run s t)).length = (running s).length + 1 := by
  have hnew : t ∉ s.settled := fun h => ht (hsettled t h)
  have happend : running (run s t) = running s ++ [t].filter (· ∉ s.settled) :=
    filter_append _ _
  rw [happend, filter_cons_of_pos (by simpa using hnew), length_append]
  rfl

theorem inv_enqueue (h : Inv max s) : Inv max (enqueue max s) := by
  have hlast : s.submitted ∉ s.started := by
    intro hmem
    have hrange : s.submitted ∈ range s.submitted := by
      rw [← h.order]
      exact mem_append_left _ hmem
    simp at hrange
  unfold enqueue
  split
  · rename_i hlt
    have hqueue : s.queue = [] := by
      by_contra hne
      exact absurd (h.full hne) (by omega)
    have horder := h.order
    rw [hqueue, append_nil] at horder
    exact {
      order := by simp [run, hqueue, horder, range_succ]
      settled := fun t ht => mem_append_left _ (h.settled t ht)
      counted := by
        have hcounted := h.counted
        simp only [run, length_append, length_singleton]
        omega
      active := by
        have hrun := length_running_run (s := { s with submitted := s.submitted + 1 })
          h.settled hlast
        rw [hrun]
        simp [run, h.active, running]
      bounded := by
        show s.active + 1 ≤ max
        omega
      full := fun hne => absurd hqueue hne }
  · rename_i hge
    exact {
      order := by rw [← append_assoc, h.order, range_succ]
      settled := h.settled
      counted := h.counted
      active := h.active
      bounded := h.bounded
      full := fun _ => le_antisymm h.bounded (not_lt.mp hge) }

theorem length_running_settle {t : Task} (hnodup : s.started.Nodup) (ht : t ∈ running s) :
    (running { s with settled := t :: s.settled }).length + 1 = (running s).length := by
  have herase : running { s with settled := t :: s.settled } = (running s).erase t := by
    rw [running, running, (hnodup.filter _).erase_eq_filter, filter_filter]
    refine filter_congr fun u _ => ?_
    by_cases hut : u = t
    · simp [hut]
    · simp [hut]
  rw [herase, length_erase_of_mem ht]
  have hpos := length_pos_of_mem ht
  omega

theorem inv_settle {t : Task} (h : Inv max s) (ht : t ∈ running s) :
    Inv max (release { s with settled := t :: s.settled }) := by
  have hnodup : (s.started ++ s.queue).Nodup := h.order ▸ nodup_range
  have hlength := length_running_settle (nodup_append.mp hnodup).1 ht
  have hstarted : ∀ u ∈ t :: s.settled, u ∈ s.started :=
    forall_mem_cons.mpr ⟨(mem_filter.mp ht).1, h.settled⟩
  have hcounted := h.counted
  have hactive := h.active
  have hbounded := h.bounded
  unfold release
  dsimp only
  split
  · rename_i hqueue
    exact {
      order := h.order
      settled := hstarted
      counted := by
        simp only [length_cons]
        omega
      active := by
        show s.active - 1 = _
        rw [hactive, ← hlength]
        simp [running]
      bounded := by
        show s.active - 1 ≤ max
        omega
      full := fun hne => absurd hqueue hne }
  · rename_i next rest hqueue
    have hnext : next ∉ s.started := fun hmem =>
      (nodup_append.mp hnodup).2.2 next hmem next (by simp [hqueue]) rfl
    have hfull := h.full (by simp [hqueue])
    exact {
      order := by
        have horder := h.order
        rw [hqueue] at horder
        simpa [run] using horder
      settled := fun u hu => mem_append_left _ (hstarted u hu)
      counted := by
        simp only [run, length_cons, length_append, length_nil]
        omega
      active := by
        have hrun := length_running_run
          (s := { s with active := s.active - 1, queue := rest, settled := t :: s.settled })
          hstarted hnext
        rw [hrun]
        simp only [run, running] at hlength hactive ⊢
        omega
      bounded := by
        show s.active - 1 + 1 ≤ max
        omega
      full := fun _ => by
        show s.active - 1 + 1 = max
        omega }

theorem inv_step {ev : Event} (h : Inv max s) (hpossible : Possible s ev) :
    Inv max (step max s ev) := by
  cases ev with
  | submit => exact inv_enqueue h
  | settle t outcome => exact inv_settle h hpossible

theorem inv_initial : Inv max initial where
  order := rfl
  settled := by simp [initial]
  counted := rfl
  active := rfl
  bounded := Int.natCast_nonneg max
  full := fun h => absurd rfl h

/-! ## Section 3: What a run of the queue does -/

/-- What the queue promises of a state. Tasks start in the order of their submission, each once:
    the `n` first ones when `n` have started, and a task has started as soon as all but
    `max - 1` of those before it have settled. -/
structure Lawful (max : Nat) (s : State) : Prop where
  active : s.active = (running s).length
  bounded : s.active ≤ max
  full : s.queue ≠ [] → s.active = max
  started : s.started = range (min s.submitted (max + s.settled.length))
  waiting : s.started ++ s.queue = range s.submitted
  drained : 0 < max → running s = [] → s.started = range s.submitted

theorem Inv.lawful (h : Inv max s) : Lawful max s where
  active := h.active
  bounded := h.bounded
  full := h.full
  started := by
    have hlength := congrArg length h.order
    rw [length_append, length_range] at hlength
    have hcounted := h.counted
    have hbounded := h.bounded
    have hcount : s.started.length = min s.submitted (max + s.settled.length) := by
      by_cases hqueue : s.queue = []
      · rw [hqueue, length_nil] at hlength
        omega
      · have hfull := h.full hqueue
        omega
    have htake := congrArg (take s.started.length) h.order
    rw [take_left, take_range] at htake
    rw [htake, hcount, min_eq_left (min_le_left _ _)]
  waiting := h.order
  drained := by
    intro hmax hidle
    have hqueue : s.queue = [] := by
      by_contra hne
      have hfull := h.full hne
      have hactive := h.active
      rw [hidle, length_nil] at hactive
      omega
    simpa [hqueue] using h.order

end Meza.Client.MediaQueue
