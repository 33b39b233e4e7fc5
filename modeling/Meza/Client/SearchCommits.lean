import Meza.Client.SearchWorker

/-! # The commits of the search worker

    A change of an index marks its channel dirty and arms a timer; when the timer fires,
    or after fifty changes, the dirty channels are committed. A flush that is asked
    for during another one is dropped, and a failed commit marks its channel
    again without a timer. -/

namespace Meza.Client.Search
open Worker List

open Store (ID)

/-! ## Section 1: What happens to the commits -/

/-- The calls of the worker and of the environment that matter; all else that the worker does
    leaves the state of the commits alone. -/
inductive CommitEvent where
  | scheduleCommit (channelId : ID)
  | flush
  | tick (t : Tick) (outcome : Outcome)
  | elsewhere (w' : Worker)

def commitStep (w : Worker) : CommitEvent → Worker
  | .scheduleCommit channelId => w.scheduleCommit channelId
  | .flush => w.flushDirty
  | .tick t outcome => (w.tick outcome t).getD w
  | .elsewhere w' =>
    { w' with
      dirtyChannels := w.dirtyChannels
      commitTimer := w.commitTimer
      pendingMutations := w.pendingMutations
      flushInProgress := w.flushInProgress }

/-- A dirty channel has a timer, and the timer commits it. -/
structure Awaited (w : Worker) (channelId : ID) : Prop where
  armed : w.commitTimer = true
  committed : w.flushInProgress = none → ∀ outcome w', w.tick outcome .timer = some w' →
    ∃ commits ∈ w'.flushInProgress, channelId ∈ commits.map Commit.channelId

/-- No commit is forgotten: none of a channel that is dirty, whether a flush is in progress
    or not. -/
def Remembered (w : Worker) : Prop := ∀ c ∈ w.dirtyChannels, Awaited w c

/-- During a flush the threshold is not reached and the timer does not fire, unless nothing is
    dirty; and when a flush ends with a failure, the timer is armed. -/
def Orderly (w : Worker) : CommitEvent → Prop
  | .scheduleCommit _ =>
    w.flushInProgress = none ∨ w.pendingMutations + 1 < commitBatchThreshold
  | .tick .timer _ =>
    w.flushInProgress = none ∨ w.dirtyChannels = []
  | .tick .flushed _ => ∀ commits ∈ w.flushInProgress, (∀ x ∈ commits, x.fulfilled.isSome) →
    (∃ x ∈ commits, x.fulfilled = some false) → w.commitTimer = true
  | _ => True

/-! ## Section 2: Steps -/

variable {w : Worker}

theorem remembered_iff : Remembered w ↔ (w.dirtyChannels ≠ [] → w.commitTimer = true) := by
  constructor
  · intro h hne
    obtain ⟨c, hc⟩ := exists_mem_of_ne_nil _ hne
    exact (h c hc).armed
  · intro h c hc
    have harmed := h (ne_nil_of_mem hc)
    refine ⟨harmed, fun hidle outcome w' htick => ?_⟩
    simp only [tick, harmed, if_true, Option.some.injEq] at htick
    subst htick
    simp only [flushDirty, hidle, Option.isSome_none, Bool.false_eq_true, if_false]
    refine ⟨_, rfl, ?_⟩
    rw [map_map, mem_map]
    refine ⟨c, hc, ?_⟩
    simp only [Function.comp_apply]
    split <;> rfl

theorem Remembered.of_same {w' : Worker} (h : Remembered w)
    (hdirty : w'.dirtyChannels = w.dirtyChannels) (htimer : w'.commitTimer = w.commitTimer) :
    Remembered w' := by
  rw [remembered_iff, hdirty, htimer]
  exact remembered_iff.mp h

theorem remembered_flushDirty (h : Remembered w) : Remembered w.flushDirty := by
  unfold flushDirty
  split
  · exact h
  · exact remembered_iff.mpr fun hne => absurd rfl hne

theorem mem_markDirty (w : Worker) (c : ID) : c ∈ (w.markDirty c).dirtyChannels := by
  unfold markDirty Table.insertNew
  split
  · next hold =>
    obtain ⟨d, hd, rfl⟩ := Table.exists?_eq_true.mp hold
    exact hd
  · exact mem_append_right _ (mem_singleton.mpr rfl)

theorem remembered_scheduleCommit (w : Worker) (c : ID) :
    Remembered (w.scheduleCommit c) ↔ Orderly w (.scheduleCommit c) := by
  rw [remembered_iff]
  unfold scheduleCommit
  dsimp only
  split
  · rename_i hfull
    unfold flushDirty Orderly
    rcases hflush : w.flushInProgress with _ | commits
    · simp [markDirty, hflush]
    · have hdirty := ne_nil_of_mem (mem_markDirty w c)
      have hfull' : ¬ w.pendingMutations + 1 < commitBatchThreshold := not_lt.mpr hfull
      simp [markDirty, hflush, hfull'] at hdirty ⊢
      exact hdirty
  · rename_i hroom
    exact iff_of_true (fun _ => rfl) (.inr (not_le.mp hroom))

theorem foldl_markDirty (failed : List Commit) (w : Worker) :
    (failed.foldl (fun w x => w.markDirty x.channelId) w).commitTimer = w.commitTimer ∧
      ((failed.foldl (fun w x => w.markDirty x.channelId) w).dirtyChannels = [] ↔
        failed = [] ∧ w.dirtyChannels = []) := by
  induction failed generalizing w with
  | nil => simp
  | cons x failed ih =>
    obtain ⟨htimer, hdirty⟩ := ih (w.markDirty x.channelId)
    refine ⟨htimer, hdirty.trans (iff_of_false (fun h => ?_) (by simp))⟩
    exact ne_nil_of_mem (mem_markDirty w x.channelId) h.2

theorem remembered_flushed (outcome : Outcome) (h : Remembered w) :
    Remembered ((w.tick outcome .flushed).getD w) ↔ Orderly w (.tick .flushed outcome) := by
  unfold tick Orderly
  rcases hflush : w.flushInProgress with _ | commits
  · exact iff_of_true h (by simp)
  · dsimp only
    by_cases hall : ∀ x ∈ commits, x.fulfilled.isSome
    · rw [if_pos (all_eq_true.mpr hall), Option.getD_some, remembered_iff]
      obtain ⟨htimer, hdirty⟩ := foldl_markDirty (commits.filter fun x => x.fulfilled = some false) w
      rw [htimer, Ne, hdirty]
      have hfailed : commits.filter (fun x => x.fulfilled = some false) = [] ↔
          ¬ ∃ x ∈ commits, x.fulfilled = some false := by
        simp [filter_eq_nil_iff]
      rw [hfailed]
      constructor
      · intro htimed commits' hcommits _ hex
        rw [← Option.some.inj hcommits] at hex
        exact htimed fun hnone => hnone.1 hex
      · intro hord hnot
        by_cases hex : ∃ x ∈ commits, x.fulfilled = some false
        · exact hord commits rfl hall hex
        · exact remembered_iff.mp h fun hnil => hnot ⟨hex, hnil⟩
    · rw [if_neg (fun hsome => hall (all_eq_true.mp hsome))]
      refine iff_of_true h fun commits' hcommits hsome => ?_
      rw [← Option.some.inj hcommits] at hsome
      exact absurd hsome hall

theorem remembered_step (w : Worker) (ev : CommitEvent) (h : Remembered w) :
    Remembered (commitStep w ev) ↔ Orderly w ev := by
  cases ev with
  | scheduleCommit c => exact remembered_scheduleCommit w c
  | flush => exact iff_of_true (remembered_flushDirty h) trivial
  | elsewhere w' => exact iff_of_true (h.of_same rfl rfl) trivial
  | tick t outcome =>
    cases t with
    | timer =>
      unfold commitStep tick Orderly
      dsimp only
      split
      · rw [Option.getD_some, remembered_iff]
        unfold flushDirty
        rcases hflush : w.flushInProgress with _ | commits
        · simp
        · simp
      · rename_i hunarmed
        refine iff_of_true h (.inr ?_)
        by_contra hne
        exact hunarmed (remembered_iff.mp h hne)
    | committed i =>
      refine iff_of_true ?_ trivial
      unfold commitStep tick
      dsimp only
      split
      · exact h
      · split
        · rw [Option.getD_some]
          split
          · exact h.of_same rfl rfl
          · exact h.of_same rfl rfl
        · exact h
    | flushed => exact remembered_flushed outcome h

/-! ## Section 3: Runs -/

/-- No commit is ever forgotten exactly in the runs whose steps are orderly. -/
theorem remembered_along_iff (evs : List CommitEvent) :
    (∀ pre, pre <+: evs → Remembered (Run.exec commitStep {} pre)) ↔
      Run.Guarded commitStep Orderly {} evs :=
  Run.along_iff_of_kept (J := fun _ => True) (fun _ _ _ => trivial)
    (fun w ev _ => remembered_step w ev) trivial (by simp [Remembered])

/-- A commit fails while no timer is armed: no flush is in progress, the channel is dirty, and
    nothing will commit it. -/
theorem forgotten_failed : ¬ ∀ evs, (Run.exec commitStep {} evs).flushInProgress = none →
    (Run.exec commitStep {} evs).dirtyChannels ≠ [] →
      (Run.exec commitStep {} evs).commitTimer = true := fun h =>
  absurd (h [.elsewhere { indexes := [("general", 0)] }, .scheduleCommit "general",
    .tick .timer .fulfilled, .tick (.committed 0) .rejected, .tick .flushed .fulfilled])
    (by decide)

end Meza.Client.Search
