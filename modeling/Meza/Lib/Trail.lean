import Mathlib.Data.List.Sort

/-! # Trails

    Rows that each record a transition, with a time. A trail is read in the
    order of the times, and replayed from the first state on. Section 1 has
    what a new row does to the order, Section 2 what it does to the replay. -/

namespace Trail
open List

/-! ## Section 1: Rows in the order of their times -/

section Listing

variable {ρ τ : Type*} [LinearOrder τ] {time : ρ → τ} {rows l : List ρ}

/-- An answer to `ORDER BY time`: rows with the same time stand in any order. -/
structure Listing (time : ρ → τ) (rows l : List ρ) : Prop where
  perm : l.Perm rows
  sorted : l.Pairwise fun x y => time x ≤ time y

theorem exists_listing (time : ρ → τ) (rows : List ρ) : ∃ l, Listing time rows l :=
  ⟨rows.insertionSort fun x y => time x ≤ time y, perm_insertionSort _ rows,
    pairwise_insertionSort _ rows⟩

theorem Listing.eq_nil (h : Listing time [] l) : l = [] := h.perm.eq_nil

/-- A row that is later than the others comes last. -/
theorem Listing.append_last {x : ρ} (h : Listing time (rows ++ [x]) l)
    (hlast : ∀ y ∈ rows, time y < time x) : ∃ l₀, Listing time rows l₀ ∧ l = l₀ ++ [x] := by
  have hmem : x ∈ l := h.perm.mem_iff.mpr (by simp)
  obtain ⟨l₁, l₂, rfl⟩ := append_of_mem hmem
  have hperm : (l₁ ++ l₂).Perm rows := by
    have hcons : (x :: (l₁ ++ l₂)).Perm (x :: rows) :=
      perm_middle.symm.trans (h.perm.trans (perm_append_singleton x rows))
    exact hcons.cons_inv
  obtain ⟨hfirst, hrest, -⟩ := pairwise_append.mp h.sorted
  have hnil : l₂ = [] := by
    refine eq_nil_iff_forall_not_mem.mpr fun y hy => ?_
    have hle : time x ≤ time y := (pairwise_cons.mp hrest).1 y hy
    have hlt : time y < time x := hlast y (hperm.mem_iff.mp (mem_append_right l₁ hy))
    exact absurd hlt (not_lt.mpr hle)
  subst hnil
  rw [append_nil] at hperm
  exact ⟨l₁, ⟨hperm, hfirst⟩, rfl⟩

/-- A sorted list can be cut at any time. -/
theorem exists_cut (x : ρ) (h : l.Pairwise fun x y => time x ≤ time y) :
    ∃ l₁ l₂, l₁ ++ l₂ = l ∧ (∀ a ∈ l₁, time a < time x) ∧ ∀ b ∈ l₂, time x ≤ time b := by
  induction l with
  | nil => exact ⟨[], [], rfl, by simp, by simp⟩
  | cons a l ih =>
    obtain ⟨hfirst, hrest⟩ := pairwise_cons.mp h
    by_cases hlt : time a < time x
    · obtain ⟨l₁, l₂, rfl, hbefore, hafter⟩ := ih hrest
      refine ⟨a :: l₁, l₂, rfl, ?_, hafter⟩
      exact forall_mem_cons.mpr ⟨hlt, hbefore⟩
    · have hle : time x ≤ time a := not_lt.mp hlt
      refine ⟨[], a :: l, rfl, by simp, ?_⟩
      exact forall_mem_cons.mpr ⟨hle, fun b hb => hle.trans (hfirst b hb)⟩

/-- A row that is not later than all others can come before one of them. -/
theorem Listing.insert (h : Listing time rows l) {x y : ρ} (hy : y ∈ rows) (hle : time x ≤ time y) :
    ∃ l₁ l₂, l₁ ++ l₂ = l ∧ l₂ ≠ [] ∧ Listing time (rows ++ [x]) (l₁ ++ x :: l₂) := by
  obtain ⟨l₁, l₂, rfl, hbefore, hafter⟩ := exists_cut x h.sorted
  refine ⟨l₁, l₂, rfl, ?_, ?_, ?_⟩
  · rintro rfl
    have hmem : y ∈ l₁ := by simpa using h.perm.mem_iff.mpr hy
    exact absurd (hbefore y hmem) (not_lt.mpr hle)
  · have hcons : (x :: (l₁ ++ l₂)).Perm (x :: rows) := h.perm.cons x
    exact perm_middle.trans (hcons.trans (perm_append_singleton x rows).symm)
  · obtain ⟨hfirst, hrest, hcross⟩ := pairwise_append.mp h.sorted
    refine pairwise_append.mpr ⟨hfirst, pairwise_cons.mpr ⟨hafter, hrest⟩, ?_⟩
    intro a ha b hb
    rcases mem_cons.mp hb with rfl | hb
    · exact (hbefore a ha).le
    · exact hcross a ha b hb

end Listing

/-! ## Section 2: Replaying a trail -/

section Replay

variable {σ α : Type*} {next : σ → α → Option σ} {s t : σ} {l₁ l₂ : List α}

/-- The state after a list of actions, if each of them is valid where it stands. -/
def replay (next : σ → α → Option σ) : σ → List α → Option σ
  | s, [] => some s
  | s, a :: l => (next s a).bind fun s' => replay next s' l

theorem replay_append :
    replay next s (l₁ ++ l₂) = (replay next s l₁).bind fun s' => replay next s' l₂ := by
  induction l₁ generalizing s with
  | nil => rfl
  | cons a l₁ ih =>
    show (next s a).bind (fun s' => replay next s' (l₁ ++ l₂)) =
      ((next s a).bind fun s' => replay next s' l₁).bind fun s' => replay next s' l₂
    rcases next s a with _ | s'
    · rfl
    · exact ih

theorem replay_concat {a : α} (h : replay next s l₁ = some t) :
    replay next s (l₁ ++ [a]) = next t a := by
  rw [replay_append, h]
  show (next t a).bind some = next t a
  exact Option.bind_fun_some _

/-- Every valid action takes the state to the other of two sides. -/
def Alternating (next : σ → α → Option σ) (side : σ → Bool) (needs : α → Bool) : Prop :=
  ∀ s a s', next s a = some s' → side s = needs a ∧ side s' = !needs a

theorem replay_insert {side : σ → Bool} {needs : α → Bool} (halt : Alternating next side needs)
    (h : replay next s (l₁ ++ l₂) = some t) (hne : l₂ ≠ []) (x : α) :
    replay next s (l₁ ++ x :: l₂) = none := by
  obtain ⟨b, l, rfl⟩ := exists_cons_of_ne_nil hne
  rw [replay_append] at h ⊢
  obtain ⟨u, hu, hb⟩ := Option.bind_eq_some_iff.mp h
  obtain ⟨v, hv, -⟩ := Option.bind_eq_some_iff.mp hb
  rw [hu]
  show (next u x).bind (fun w => (next w b).bind fun s' => replay next s' l) = none
  rcases hx : next u x with _ | w
  · rfl
  · rcases hw : next w b with _ | w'
    · show (next w b).bind _ = none
      rw [hw]
      rfl
    · -- both `u` and `w` would be on the side that `b` needs
      obtain ⟨hux, hwx⟩ := halt u x w hx
      obtain ⟨hub, -⟩ := halt u b v hv
      obtain ⟨hwb, -⟩ := halt w b w' hw
      rw [← hux, hub, hwb] at hwx
      cases hneeds : needs b <;> rw [hneeds] at hwx <;> cases hwx

end Replay

end Trail
