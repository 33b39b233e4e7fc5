import Mathlib.Data.BitVec

/-! # Bit masks

    Facts about fixed-width masks that are read and written one bit at a
    time: single-bit tests, OR-folds, mask inclusion, and the list of powers
    of two that a `for bit := 1; bit <= limit; bit <<= 1` loop visits. -/

namespace BitMask

variable {w : Nat}

/-! ## Section 1: Single-bit tests -/

/-- The mask with bit `i` only. -/
def single (w i : Nat) : BitVec w := 1#w <<< i

theorem getLsbD_single (i j : Nat) (hi : i < w) : (single w i).getLsbD j = decide (i = j) := by
  rw [single, ← BitVec.twoPow_eq, BitVec.getLsbD_twoPow]
  simp [hi]

theorem single_ne_zero {i : Nat} (hi : i < w) : single w i ≠ 0 := by
  intro h
  have hbit := congrArg (fun x => x.getLsbD i) h
  simp [getLsbD_single i i hi] at hbit

theorem single_injective {i j : Nat} (hi : i < w) (h : single w i = single w j) : i = j := by
  have hbit := congrArg (fun x => x.getLsbD i) h
  rw [getLsbD_single i i hi] at hbit
  by_cases hj : j < w
  · rw [getLsbD_single j i hj] at hbit
    have hji : j = i := by simpa using hbit.symm
    exact hji.symm
  · have hz : single w j = 0#w := by
      simpa [single] using BitVec.shiftLeft_eq_zero (x := 1#w) (by omega : w ≤ j)
    rw [hz] at hbit
    simp at hbit

/-- Testing a mask against a single bit reads that bit. -/
theorem and_single_eq_zero (x : BitVec w) {i : Nat} (hi : i < w) :
    x &&& single w i = 0 ↔ x.getLsbD i = false := by
  rw [single, ← BitVec.twoPow_eq, BitVec.and_twoPow]
  cases hx : x.getLsbD i
  · simp
  · simpa [BitVec.twoPow_eq, single] using single_ne_zero hi

theorem and_single_ne_zero (x : BitVec w) {i : Nat} (hi : i < w) :
    x &&& single w i ≠ 0 ↔ x.getLsbD i = true := by
  rw [Ne, and_single_eq_zero x hi, Bool.not_eq_false]

/-! ## Section 2: Inclusion of masks -/

/-- Every bit of `x` is a bit of `y`. -/
def Subset (x y : BitVec w) : Prop := x &&& ~~~y = 0#w

instance (x y : BitVec w) : Decidable (Subset x y) :=
  inferInstanceAs (Decidable (_ = _))

theorem subset_iff (x y : BitVec w) :
    Subset x y ↔ ∀ i, x.getLsbD i = true → y.getLsbD i = true := by
  constructor
  · intro h i hi
    have hbit := congrArg (fun z => z.getLsbD i) h
    have hw : i < w := by
      by_contra hlt
      rw [BitVec.getLsbD_of_ge x i (by omega)] at hi
      cases hi
    simpa [hi, hw] using hbit
  · intro h
    apply BitVec.eq_of_getLsbD_eq
    intro i hi
    cases hx : x.getLsbD i
    · simp [hx]
    · simp [hx, h i hx, hi]

theorem Subset.trans {x y z : BitVec w} (hxy : Subset x y) (hyz : Subset y z) : Subset x z := by
  rw [subset_iff] at *
  exact fun i hi => hyz i (hxy i hi)

theorem subset_refl (x : BitVec w) : Subset x x := by
  rw [subset_iff]
  exact fun _ hi => hi

theorem zero_subset (x : BitVec w) : Subset 0#w x := by
  simp [Subset]

theorem or_subset {x y z : BitVec w} (hx : Subset x z) (hy : Subset y z) : Subset (x ||| y) z := by
  rw [subset_iff] at *
  intro i hi
  rw [BitVec.getLsbD_or, Bool.or_eq_true] at hi
  exact hi.elim (hx i) (hy i)

theorem subset_or_left (x y : BitVec w) : Subset x (x ||| y) := by
  rw [subset_iff]
  intro i hi
  simp [hi]

theorem subset_or_right (x y : BitVec w) : Subset y (x ||| y) := by
  rw [subset_iff]
  intro i hi
  simp [hi]

/-! ## Section 3: OR-folds -/

theorem getLsbD_foldl_or (l : List (BitVec w)) (acc : BitVec w) (i : Nat) :
    (l.foldl (· ||| ·) acc).getLsbD i = (acc.getLsbD i || l.any (·.getLsbD i)) := by
  induction l generalizing acc with
  | nil => simp
  | cons x xs ih => simp [ih, Bool.or_assoc]

theorem subset_foldl_or_of_mem {l : List (BitVec w)} {x : BitVec w} (hx : x ∈ l)
    (acc : BitVec w) : Subset x (l.foldl (· ||| ·) acc) := by
  rw [subset_iff]
  intro i hi
  rw [getLsbD_foldl_or, Bool.or_eq_true]
  exact .inr (List.any_eq_true.mpr ⟨x, hx, hi⟩)

theorem foldl_or_subset {l : List (BitVec w)} {acc z : BitVec w} (hacc : Subset acc z)
    (hl : ∀ x ∈ l, Subset x z) : Subset (l.foldl (· ||| ·) acc) z := by
  induction l generalizing acc with
  | nil => exact hacc
  | cons x xs ih =>
    apply ih
    · exact or_subset hacc (hl x (by simp))
    · exact fun y hy => hl y (by simp [hy])

/-! ## Section 4: The doubling loop -/

/-- The values of `bit` in `for bit := start; bit <= limit; bit <<= 1`, with
    the signed comparison the loop makes and at most `fuel` rounds. -/
def doublings : Nat → BitVec w → BitVec w → List (BitVec w)
  | 0, _, _ => []
  | fuel + 1, bit, limit =>
      if bit.sle limit then bit :: doublings fuel (bit <<< 1) limit else []

/-- The bits a doubling loop from `1` visits: `w` rounds are enough, since the
    bit is shifted out after that. -/
def bitsUpTo (limit : BitVec w) : List (BitVec w) := doublings w 1#w limit

end BitMask
