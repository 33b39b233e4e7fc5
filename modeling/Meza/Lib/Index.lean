import Meza.Lib.Paging

/-! # A list and its index

    Rows kept in a list, with an index from keys to rows beside it that is
    maintained by hand. The index is exact when it finds the rows of the list
    and nothing else. Section 2 has what each way of writing to the list asks
    of the index, and Section 3 what it does to the order of the rows. -/

namespace Index
open List Function

variable {ρ κ : Type*} (key : ρ → κ)

/-! ## Section 1: Definitions -/

/-- `index` finds the rows of the list by their keys, and nothing else. -/
def Exact (rows : List ρ) (index : κ → Option ρ) : Prop :=
  ∀ k r, index k = some r ↔ r ∈ rows ∧ key r = k

/-- The rows are entered one after the other. -/
def enter [DecidableEq κ] (index : κ → Option ρ) (rows : List ρ) : κ → Option ρ :=
  rows.foldl (fun index r => update index (key r) (some r)) index

/-- The keys are taken out one after the other. -/
def erase [DecidableEq κ] (index : κ → Option ρ) (keys : List κ) : κ → Option ρ :=
  keys.foldl (fun index k => update index k none) index

variable {key}

/-! ## Section 2: The index -/

theorem Exact.nil : Exact key [] (fun _ => none) := by
  intro k r
  simp

variable {rows rows' : List ρ} {index : κ → Option ρ} {r : ρ}

theorem Exact.eq_none_iff (h : Exact key rows index) {k : κ} :
    index k = none ↔ ∀ r ∈ rows, key r ≠ k := by
  constructor
  · intro hnone r hr hkey
    have hsome := (h k r).mpr ⟨hr, hkey⟩
    rw [hnone] at hsome
    cases hsome
  · intro habsent
    rcases hk : index k with _ | r
    · rfl
    · obtain ⟨hr, hkey⟩ := (h k r).mp hk
      exact absurd hkey (habsent r hr)

/-- Rows found by the same key are the same row. -/
theorem Exact.eq_of_key (h : Exact key rows index) {r' : ρ} (hr : r ∈ rows) (hr' : r' ∈ rows)
    (hkey : key r = key r') : r = r' := by
  have hfound := (h (key r') r).mpr ⟨hr, hkey⟩
  have hfound' := (h (key r') r').mpr ⟨hr', rfl⟩
  exact Option.some.inj (hfound.symm.trans hfound')

theorem Exact.push [DecidableEq κ] (h : Exact key rows index) (hnew : ∀ r' ∈ rows, key r' ≠ key r) :
    Exact key (rows ++ [r]) (update index (key r) (some r)) := by
  intro k r'
  by_cases hk : k = key r
  · subst hk
    rw [update_self, Option.some_inj, mem_append, mem_singleton]
    constructor
    · rintro rfl
      exact ⟨.inr rfl, rfl⟩
    · rintro ⟨hr' | hr', hkey⟩
      · exact absurd hkey (hnew r' hr')
      · exact hr'.symm
  · rw [update_of_ne hk, h k r', mem_append, mem_singleton]
    constructor
    · rintro ⟨hr', hkey⟩
      exact ⟨.inl hr', hkey⟩
    · rintro ⟨hr' | rfl, hkey⟩
      · exact ⟨hr', hkey⟩
      · exact absurd hkey.symm hk

theorem Exact.congr (h : Exact key rows index) (hmem : ∀ r, r ∈ rows' ↔ r ∈ rows) :
    Exact key rows' index := by
  intro k r
  rw [h k r, hmem r]

theorem enter_eq_none_iff [DecidableEq κ] {k : κ} :
    enter key index rows k = none ↔ index k = none ∧ ∀ r ∈ rows, key r ≠ k := by
  induction rows generalizing index with
  | nil => simp [enter]
  | cons r rows ih =>
    have hstep : enter key index (r :: rows) = enter key (update index (key r) (some r)) rows := rfl
    rw [hstep, ih]
    by_cases hk : key r = k
    · simp [hk]
    · simp [hk, update_of_ne (Ne.symm hk)]

theorem enter_of_notMem [DecidableEq κ] {index : κ → Option ρ} {rows : List ρ} {k : κ}
    (h : ∀ r ∈ rows, key r ≠ k) : enter key index rows k = index k := by
  induction rows generalizing index with
  | nil => rfl
  | cons r rows ih =>
    have hrows : ∀ r' ∈ rows, key r' ≠ k := fun r' hr' => h r' (mem_cons_of_mem _ hr')
    have hr : k ≠ key r := (h r mem_cons_self).symm
    have hrest := @ih (update index (key r) (some r)) hrows
    rw [update_of_ne hr] at hrest
    exact hrest

/-- A row is found after it was entered, if no other row took its place. -/
theorem enter_of_mem [DecidableEq κ] (hr : r ∈ rows)
    (honly : ∀ r' ∈ rows, key r' = key r → r' = r) : enter key index rows (key r) = some r := by
  induction rows generalizing index with
  | nil => cases hr
  | cons r₀ rows ih =>
    by_cases hrest : r ∈ rows
    · exact ih hrest (fun r' hr' => honly r' (mem_cons_of_mem _ hr'))
    · have hr₀ : r₀ = r := ((mem_cons.mp hr).resolve_right hrest).symm
      subst hr₀
      have hnone : ∀ r' ∈ rows, key r' ≠ key r₀ := by
        intro r' hr' hkey
        exact hrest (honly r' (mem_cons_of_mem _ hr') hkey ▸ hr')
      have hlast := @enter_of_notMem ρ κ key _ (update index (key r₀) (some r₀)) rows (key r₀) hnone
      rw [update_self] at hlast
      exact hlast

theorem Exact.enter [DecidableEq κ] (h : Exact key rows index)
    (hunique : Table.UniqueOn key (rows ++ rows')) :
    Exact key (rows ++ rows') (enter key index rows') := by
  induction rows' generalizing rows index with
  | nil =>
    rw [append_nil]
    exact h
  | cons r rows' ih =>
    have hassoc : rows ++ r :: rows' = (rows ++ [r]) ++ rows' := by simp
    rw [hassoc] at hunique ⊢
    refine ih (h.push ?_) hunique
    -- a row entered before has another key
    intro r' hr' hkey
    have hnodup : ((rows ++ [r]).map key).Nodup := by
      unfold Table.UniqueOn at hunique
      rw [map_append] at hunique
      exact hunique.of_append_left
    rw [map_append, map_singleton, nodup_append] at hnodup
    exact hnodup.2.2 (key r') (mem_map_of_mem hr') (key r) (by simp) hkey

theorem Exact.build [DecidableEq κ] (hunique : Table.UniqueOn key rows) :
    Exact key rows (Index.enter key (fun _ => none) rows) := by
  have hempty : Exact key [] (fun _ => none) := .nil
  have hentered := hempty.enter (nil_append rows ▸ hunique)
  exact hentered

theorem erase_apply [DecidableEq κ] (index : κ → Option ρ) (keys : List κ) (k : κ) :
    erase index keys k = if k ∈ keys then none else index k := by
  induction keys generalizing index with
  | nil => simp [erase]
  | cons k' keys ih =>
    have hstep : erase index (k' :: keys) = erase (update index k' none) keys := rfl
    rw [hstep, ih]
    by_cases hk : k ∈ keys
    · simp [hk]
    · by_cases hk' : k = k'
      · simp [hk']
      · simp [hk, hk']

/-- The rows with the keys that are taken out leave the list as well. -/
theorem Exact.erase [DecidableEq κ] (h : Exact key rows index) (keys : List κ) :
    Exact key (rows.filter fun r => key r ∉ keys) (erase index keys) := by
  intro k r
  rw [erase_apply, mem_filter, decide_eq_true_iff]
  by_cases hk : k ∈ keys
  · rw [if_pos hk]
    constructor
    · intro hfalse
      cases hfalse
    · rintro ⟨⟨-, hout⟩, rfl⟩
      exact absurd hk hout
  · rw [if_neg hk, h k r]
    constructor
    · rintro ⟨hr, rfl⟩
      exact ⟨⟨hr, hk⟩, rfl⟩
    · rintro ⟨⟨hr, -⟩, hkey⟩
      exact ⟨hr, hkey⟩

/-- What is dropped from the front is what is taken out of the index. -/
theorem filter_notMem_take [DecidableEq κ] (h : Table.UniqueOn key rows) (n : Nat) :
    (rows.filter fun r => key r ∉ (rows.take n).map key) = rows.drop n := by
  have hsplit := take_append_drop n rows
  have hnodup : (((rows.take n) ++ (rows.drop n)).map key).Nodup := by
    rw [hsplit]
    exact h
  rw [map_append, nodup_append] at hnodup
  conv_lhs =>
    arg 2
    rw [← hsplit]
  rw [filter_append]
  have htake : ((rows.take n).filter fun r => key r ∉ (rows.take n).map key) = [] := by
    rw [filter_eq_nil_iff]
    intro r hr
    have hmem : key r ∈ (rows.take n).map key := mem_map_of_mem hr
    simpa using hmem
  have hdrop : ((rows.drop n).filter fun r => key r ∉ (rows.take n).map key) = rows.drop n := by
    rw [filter_eq_self]
    intro r hr
    rw [decide_eq_true_iff]
    intro hmem
    exact hnodup.2.2 (key r) hmem (key r) (mem_map_of_mem hr) rfl
  rw [htake, hdrop, nil_append]

/-- Each row is replaced by one with its key, or kept. -/
theorem Exact.map {index' : κ → Option ρ} (h : Exact key rows index) {f : ρ → ρ}
    (hkey : ∀ r, key (f r) = key r) (hindex : ∀ k, index' k = (index k).map f) :
    Exact key (rows.map f) index' := by
  intro k r
  rw [hindex k, Option.map_eq_some_iff, mem_map]
  constructor
  · rintro ⟨r₀, hr₀, rfl⟩
    obtain ⟨hmem, hk⟩ := (h k r₀).mp hr₀
    exact ⟨⟨r₀, hmem, rfl⟩, by rw [hkey, hk]⟩
  · rintro ⟨⟨r₀, hmem, rfl⟩, hk⟩
    rw [hkey] at hk
    exact ⟨r₀, (h k r₀).mpr ⟨hmem, hk⟩, rfl⟩

/-! ## Section 3: The order of the rows -/

open Paging

variable [LinearOrder κ]

/-- One list after the other is ascending when the second starts above the first. -/
theorem ascending_append_iff (h : Ascending key rows) (h' : Ascending key rows') :
    Ascending key (rows ++ rows') ↔ ∀ r ∈ rows, ∀ r' ∈ rows', key r < key r' := by
  unfold Ascending at *
  rw [pairwise_append]
  exact ⟨fun happ => happ.2.2, fun hcross => ⟨h, h', hcross⟩⟩

theorem Ascending.drop (h : Ascending key rows) (n : Nat) : Ascending key (rows.drop n) :=
  h.sublist (drop_sublist n rows)

end Index
