import Mathlib.Data.List.Nodup
import Mathlib.Data.List.Perm.Subperm
import Mathlib.Data.List.Sort

/-! # The greatest of a list

    The `limit` greatest rows by a key, in descending order, where any of those with the
    same key may be taken. A search that sorts only some of the rows finds them if for
    each row that it leaves out there are enough that are as great. -/

namespace Meza.TopK
open List

variable {ρ κ : Type*} [LinearOrder κ]

structure IsTop (key : ρ → κ) (limit : Nat) (all rows : List ρ) : Prop where
  sorted : rows.Pairwise fun a b => key b ≤ key a
  nodup : rows.Nodup
  subset : rows ⊆ all
  length : rows.length = min limit all.length
  greatest : ∀ x ∈ all, x ∉ rows → ∀ y ∈ rows, key x ≤ key y

def top (key : ρ → κ) (limit : Nat) (rows : List ρ) : List ρ :=
  (rows.insertionSort fun a b => key b ≤ key a).take limit

/-- There are `limit` rows as great as `x`. -/
def Covered (key : ρ → κ) (limit : Nat) (rows : List ρ) (x : ρ) : Prop :=
  limit ≤ (rows.filter fun y => key x ≤ key y).length

variable {key : ρ → κ} {limit : Nat} {all rows : List ρ} {x y : ρ}

/-- If `limit` rows are as great as `x`, so are the first ones in descending order. -/
theorem le_of_covered (hsorted : rows.Pairwise fun a b => key b ≤ key a)
    (h : Covered key limit rows x) (hy : y ∈ rows.take limit) : key x ≤ key y := by
  by_contra hlt
  rw [← take_append_drop limit rows, pairwise_append] at hsorted
  have hdrop : (rows.drop limit).filter (fun z => key x ≤ key z) = [] := by
    rw [filter_eq_nil_iff]
    intro z hz hle
    exact hlt ((of_decide_eq_true hle).trans (hsorted.2.2 y hy z hz))
  have htake : ((rows.take limit).filter fun z => key x ≤ key z).length <
      (rows.take limit).length :=
    length_filter_lt_length_iff_exists.mpr ⟨y, hy, by simpa using hlt⟩
  unfold Covered at h
  rw [← take_append_drop limit rows, filter_append, hdrop, append_nil] at h
  have hlength := length_take_le limit rows
  omega

/-- Sorting the rows gives the greatest of all exactly when every row that is missing is
    covered. -/
theorem isTop_top_iff (hall : all.Nodup) (hrows : rows.Nodup) (hsub : rows ⊆ all) :
    IsTop key limit all (top key limit rows) ↔ ∀ x ∈ all, x ∉ rows → Covered key limit rows x := by
  have hperm := perm_insertionSort (fun a b => key b ≤ key a) rows
  have hsorted : (rows.insertionSort fun a b => key b ≤ key a).Pairwise
      fun a b => key b ≤ key a := pairwise_insertionSort _ rows
  have hcovered : ∀ {x}, Covered key limit (rows.insertionSort fun a b => key b ≤ key a) x ↔
      Covered key limit rows x := by
    intro x
    unfold Covered
    rw [(hperm.filter _).length_eq]
  have hlength : (top key limit rows).length = min limit rows.length := by
    rw [top, length_take, hperm.length_eq]
  constructor
  · intro h x hx hnot
    have hout : x ∉ top key limit rows := fun hmem => hnot (hperm.mem_iff.mp (mem_of_mem_take hmem))
    have hge := h.greatest x hx hout
    have hmore : (x :: rows).length ≤ all.length :=
      ((nodup_cons.mpr ⟨hnot, hrows⟩).subperm (cons_subset.mpr ⟨hx, hsub⟩)).length_le
    have hfull := hlength.symm.trans h.length
    rw [length_cons] at hmore
    rw [← hcovered]
    calc limit = (top key limit rows).length := by omega
      _ = ((top key limit rows).filter fun y => key x ≤ key y).length := by
        rw [filter_eq_self.mpr fun y hy => decide_eq_true (hge y hy)]
      _ ≤ _ := ((take_sublist limit _).filter _).length_le
  · intro h
    refine ⟨hsorted.sublist (take_sublist _ _),
      (hperm.nodup_iff.mpr hrows).sublist (take_sublist _ _),
      fun x hx => hsub (hperm.mem_iff.mp (mem_of_mem_take hx)), ?_, ?_⟩
    · have hle := (hrows.subperm hsub).length_le
      rw [hlength]
      by_cases hex : ∃ x ∈ all, x ∉ rows
      · obtain ⟨x, hx, hnot⟩ := hex
        have hlimit : limit ≤ rows.length := (h x hx hnot).trans (length_filter_le _ _)
        rw [min_eq_left hlimit, min_eq_left (hlimit.trans hle)]
      · have hsub' : all ⊆ rows := fun x hx => by_contra fun hnot => hex ⟨x, hx, hnot⟩
        rw [le_antisymm hle (hall.subperm hsub').length_le]
    · intro x hx hout y hy
      by_cases hmem : x ∈ rows
      · -- it stands behind the first ones
        rw [← hperm.mem_iff, ← take_append_drop limit (insertionSort _ rows), mem_append] at hmem
        rw [← take_append_drop limit (insertionSort _ rows), pairwise_append] at hsorted
        exact hsorted.2.2 y hy x (hmem.resolve_left hout)
      · exact le_of_covered hsorted (hcovered.mpr (h x hx hmem)) hy

end Meza.TopK
