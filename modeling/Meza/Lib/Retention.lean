import Mathlib.Data.Finset.Max
import Mathlib.Data.List.Sort

/-! # Keeping the greatest

    A bounded collection drops its least elements. What it holds after any
    number of insertions are the greatest of all elements it has ever seen: an
    element that is dropped has enough greater ones above it, and those are
    still there. -/

namespace Retention
open List Finset

variable {α : Type*} [LinearOrder α]

/-- How many elements are greater than `a`. -/
def above (s : Finset α) (a : α) : Nat := (s.filter (a < ·)).card

/-- The `n` greatest elements. -/
def greatest (n : Nat) (s : Finset α) : Finset α := s.filter (fun a => above s a < n)

theorem mem_greatest {n : Nat} {s : Finset α} {a : α} :
    a ∈ greatest n s ↔ a ∈ s ∧ above s a < n := mem_filter

theorem above_mono {s t : Finset α} (h : s ⊆ t) (a : α) : above s a ≤ above t a :=
  card_le_card (filter_subset_filter _ h)

/-! ## Section 1: Nothing is missed above an element -/

theorem above_insert_of_lt {s : Finset α} {a b : α} (hlt : a < b) :
    above (insert a s) b = above s b := by
  unfold above
  rw [filter_insert, if_neg (not_lt_of_gt hlt)]

/-- There are as many greatest elements as asked for, or all of them. -/
theorem card_greatest (n : Nat) (s : Finset α) : (greatest n s).card = min n s.card := by
  -- The least element goes in last, and only if there is room.
  induction s using induction_on_min with
  | empty => simp [greatest]
  | insert a s hmin ih =>
    have hnotMem : a ∉ s := fun ha => lt_irrefl a (hmin a ha)
    have habove : above (insert a s) a = s.card := by
      unfold above
      rw [filter_insert, if_neg (lt_irrefl a), filter_true_of_mem hmin]
    have hrest : s.filter (fun b => above (insert a s) b < n) = greatest n s := by
      refine filter_congr ?_
      intro b hb
      rw [above_insert_of_lt (hmin b hb)]
    have hsplit : greatest n (insert a s) =
        if s.card < n then insert a (greatest n s) else greatest n s := by
      unfold greatest
      rw [filter_insert, habove]
      simp only [hrest, greatest]
    rw [hsplit, card_insert_of_notMem hnotMem]
    by_cases hroom : s.card < n
    · have hout : a ∉ greatest n s := fun ha => hnotMem (mem_greatest.mp ha).1
      rw [if_pos hroom, card_insert_of_notMem hout, ih]
      omega
    · rw [if_neg hroom, ih]
      omega

/-- Dropping all but the `n` greatest keeps every count below `n`. -/
theorem above_greatest (n : Nat) (s : Finset α) (a : α) :
    above (greatest n s) a = min n (above s a) := by
  have hfilter : (greatest n s).filter (a < ·) = greatest n (s.filter (a < ·)) := by
    ext b
    simp only [Finset.mem_filter, mem_greatest]
    have hsame : a < b → above (s.filter (a < ·)) b = above s b := by
      intro hab
      unfold above
      rw [Finset.filter_filter]
      congr 1
      refine Finset.filter_congr ?_
      intro c _
      exact ⟨fun h => h.2, fun h => ⟨hab.trans h, h⟩⟩
    constructor
    · rintro ⟨⟨hb, hcount⟩, hab⟩
      exact ⟨⟨hb, hab⟩, (hsame hab).symm ▸ hcount⟩
    · rintro ⟨⟨hb, hab⟩, hcount⟩
      exact ⟨⟨hb, hsame hab ▸ hcount⟩, hab⟩
  unfold above
  rw [hfilter, card_greatest]

/-! ## Section 2: Insertions -/

/-- Less may have been dropped, if only the greatest are there. -/
theorem greatest_eq_of_subset {n : Nat} {s t : Finset α} (hkept : greatest n s ⊆ t)
    (hsub : t ⊆ s) : greatest n t = greatest n s := by
  have hcount : ∀ a, above t a < n ↔ above s a < n := by
    intro a
    have hlow := above_mono hkept a
    have hhigh := above_mono hsub a
    rw [above_greatest] at hlow
    omega
  ext a
  rw [mem_greatest, mem_greatest, hcount]
  constructor
  · rintro ⟨ha, hfew⟩
    exact ⟨hsub ha, hfew⟩
  · rintro ⟨ha, hfew⟩
    exact ⟨hkept (mem_greatest.mpr ⟨ha, hfew⟩), hfew⟩

/-- One more insertion after the others were dropped. -/
theorem greatest_insert_greatest (n : Nat) (s : Finset α) (b : α) :
    greatest n (insert b (greatest n s)) = greatest n (insert b s) := by
  refine greatest_eq_of_subset ?_ ?_
  · intro a ha
    obtain ⟨hmem, hfew⟩ := mem_greatest.mp ha
    rcases mem_insert.mp hmem with rfl | has
    · exact mem_insert_self _ _
    · have hless := above_mono (subset_insert b s) a
      exact mem_insert_of_mem (mem_greatest.mpr ⟨has, by omega⟩)
  · exact insert_subset_insert b (filter_subset _ _)

/-! ## Section 3: A sorted list cut short -/

theorem above_lt_card {s : Finset α} {a : α} (ha : a ∈ s) : above s a < s.card := by
  refine card_lt_card (filter_ssubset.mpr ⟨a, ha, ?_⟩)
  exact lt_irrefl a

/-- Where an increasing list is cut in two, the front has all of the back above it. -/
theorem mem_front_iff {front back : List α} (hsorted : (front ++ back).Pairwise (· < ·)) (a : α) :
    a ∈ front ↔ a ∈ front ++ back ∧ back.length ≤ above (front ++ back).toFinset a := by
  obtain ⟨-, hincreasing, hcross⟩ := pairwise_append.mp hsorted
  have hcard : back.toFinset.card = back.length := toFinset_card_of_nodup hincreasing.nodup
  constructor
  · intro ha
    refine ⟨mem_append_left _ ha, ?_⟩
    rw [← hcard]
    refine card_le_card ?_
    intro b hb
    have hback := mem_toFinset.mp hb
    exact mem_filter.mpr ⟨mem_toFinset.mpr (mem_append_right _ hback), hcross a ha b hback⟩
  · rintro ⟨ha, hmany⟩
    by_contra hnot
    have hdrop : a ∈ back := (mem_append.mp ha).resolve_left hnot
    -- what is above an element of the back is in the back, and is not the element itself
    have hsub : (front ++ back).toFinset.filter (a < ·) ⊆ back.toFinset.erase a := by
      intro b hb
      obtain ⟨hmem, hab⟩ := Finset.mem_filter.mp hb
      refine mem_erase.mpr ⟨hab.ne', mem_toFinset.mpr ?_⟩
      refine (mem_append.mp (mem_toFinset.mp hmem)).resolve_left ?_
      intro hfront
      exact lt_asymm hab (hcross b hfront a hdrop)
    have hle := card_le_card hsub
    have hpos := length_pos_of_mem hdrop
    rw [card_erase_of_mem (mem_toFinset.mpr hdrop), hcard] at hle
    unfold above at hmany
    omega

/-- The front of the sorted list are the elements with `n` greater ones. -/
theorem mem_take_insertionSort {l : List α} (hnodup : l.Nodup) (n : Nat) (a : α) :
    a ∈ (l.insertionSort (· ≤ ·)).take (l.length - n) ↔ a ∈ l ∧ n ≤ above l.toFinset a := by
  have hperm : (l.insertionSort (· ≤ ·)).Perm l := perm_insertionSort _ _
  have hstrict : (l.insertionSort (· ≤ ·)).Pairwise (· < ·) := by
    have hle : (l.insertionSort (· ≤ ·)).Pairwise (· ≤ ·) := pairwise_insertionSort _ _
    exact (hle.and (hperm.nodup_iff.mpr hnodup)).imp fun h => lt_of_le_of_ne h.1 h.2
  have hsplit := take_append_drop (l.length - n) (l.insertionSort (· ≤ ·))
  rw [← hsplit] at hstrict
  rw [mem_front_iff hstrict, hsplit, hperm.mem_iff, toFinset_eq_of_perm _ _ hperm,
    length_drop, hperm.length_eq]
  refine and_congr_right ?_
  intro ha
  have hbelow := above_lt_card (mem_toFinset.mpr ha)
  rw [toFinset_card_of_nodup hnodup] at hbelow
  omega

end Retention
