import Meza.Lib.Table

/-! # Dictionaries

    A map that keeps its entries in the order in which their keys came, as a
    list of entries. -/

namespace Dict
open Table Prod List

variable {κ α : Type*} [DecidableEq κ]

def get (m : List (κ × α)) (key : κ) : Option α := (lookup fst key m).map snd

/-- A key that is there keeps its place. -/
def set (m : List (κ × α)) (key : κ) (value : α) : List (κ × α) :=
  upsert fst (fun entry => (entry.1, value)) (key, value) m

def delete (m : List (κ × α)) (key : κ) : List (κ × α) :=
  deleteWhere (fun entry => entry.1 = key) m

theorem get_set (m : List (κ × α)) (key : κ) (value : α) (k : κ) :
    get (set m key value) k = if k = key then some value else get m k := by
  have hlook := @lookup_upsert _ κ _ fst (fun entry : κ × α => (entry.1, value))
    (fun _ => rfl) (key, value) m k
  unfold get set
  rw [hlook]
  by_cases hk : k = key
  · rw [if_pos hk, if_pos hk]
    cases lookup fst k m <;> rfl
  · rw [if_neg hk, if_neg hk]

theorem get_delete (m : List (κ × α)) (key k : κ) :
    get (delete m key) k = if k = key then none else get m k := by
  have hlook := lookup_deleteWhere_key fst (fun k' : κ => decide (k' = key)) m k
  unfold get delete
  rw [hlook]
  by_cases hk : k = key
  · simp [hk]
  · simp [hk]

variable {m : List (κ × α)} {value : α} {key : κ}

theorem unique_set (h : UniqueOn fst m) : UniqueOn fst (set m key value) := by
  unfold set
  refine unique_upsert h (fun _ => rfl) ?_
  intro hnew hmem
  obtain ⟨entry, hentry, hkey⟩ := mem_map.mp hmem
  rw [exists?_eq_true.mpr ⟨entry, hentry, hkey⟩] at hnew
  cases hnew

theorem unique_delete (h : UniqueOn fst m) : UniqueOn fst (delete m key) :=
  unique_deleteWhere h _

theorem mem_of_get (h : get m key = some value) : (key, value) ∈ m := by
  unfold get at h
  obtain ⟨⟨k, v⟩, hlook, rfl⟩ := Option.map_eq_some_iff.mp h
  obtain ⟨hmem, rfl⟩ := mem_of_lookup hlook
  exact hmem

theorem mem_set {x : κ × α} (h : x ∈ set m key value) : x = (key, value) ∨ x ∈ m := by
  unfold set at h
  rcases mem_upsert h with hx | hx | ⟨r, -, hkey, rfl⟩
  · exact .inr hx
  · exact .inl hx
  · left
    rw [hkey]

theorem length_set_le (m : List (κ × α)) (key : κ) (value : α) :
    (set m key value).length ≤ m.length + 1 := by
  unfold set upsert
  split
  · simp [updateWhere]
  · simp

theorem set_eq_self_iff :
    set m key value = m ↔ (∃ x ∈ m, x.1 = key) ∧ ∀ x ∈ m, x.1 = key → x.2 = value := by
  unfold set upsert
  split
  · next hexists =>
    rw [and_iff_right (exists?_eq_true.mp hexists)]
    have hmap : updateWhere (fun r : κ × α => decide (r.1 = key))
        (fun entry => (entry.1, value)) m = m.map id ↔
        ∀ x ∈ m, (if decide (x.1 = key) = true then (x.1, value) else x) = x :=
      map_inj_left
    rw [List.map_id] at hmap
    refine hmap.trans (forall₂_congr fun x _ => ?_)
    by_cases hx : x.1 = key
    · simp [hx, Prod.ext_iff, eq_comm]
    · simp [hx]
  · next hnew =>
    refine iff_of_false (fun h => ?_) fun h => hnew (exists?_eq_true.mpr h.1)
    have hlength := congrArg length h
    rw [length_append, length_singleton] at hlength
    omega

theorem delete_eq_self_iff : delete m key = m ↔ ∀ x ∈ m, x.1 ≠ key := by
  unfold delete deleteWhere
  simp [filter_eq_self]

theorem delete_set_of_new (h : ∀ x ∈ m, x.1 ≠ key) : delete (set m key value) key = m := by
  have hnew : ¬ exists? Prod.fst key m = true := by
    rw [exists?_eq_true]
    exact fun ⟨x, hx, hkey⟩ => h x hx hkey
  unfold set upsert
  rw [if_neg hnew]
  unfold delete deleteWhere
  rw [filter_append, show m.filter _ = m from delete_eq_self_iff.mpr h]
  simp

end Dict
