import Mathlib.Data.BitVec

/-! # Prefixes of bit vectors

    A prefix fixes the leading bits of an address. Routers and filters compare
    under a mask; what is compared are the quotients by a power of two, and so a
    prefix is an interval of addresses. -/

/-- An address of which the first `length` bits matter. -/
structure BitPrefix (w : Nat) where
  base : BitVec w
  length : Nat
  deriving DecidableEq, Repr

namespace BitPrefix

variable {w : Nat}

def mask (p : BitPrefix w) : BitVec w := BitVec.allOnes w <<< (w - p.length)

def contains (p : BitPrefix w) (a : BitVec w) : Bool := p.base &&& p.mask = a &&& p.mask

/-- Under a mask of leading ones the low bits do not count. -/
theorem and_allOnes_shiftLeft_eq_iff (a b : BitVec w) (k : Nat) :
    a &&& (BitVec.allOnes w <<< k) = b &&& (BitVec.allOnes w <<< k) ↔ a >>> k = b >>> k := by
  constructor
  · intro h
    apply BitVec.eq_of_getLsbD_eq
    intro i hi
    rw [BitVec.getLsbD_ushiftRight, BitVec.getLsbD_ushiftRight]
    by_cases hlt : k + i < w
    · have hbit := congrArg (·.getLsbD (k + i)) h
      have hhigh : ¬ k + i < k := by omega
      simpa [hlt, hhigh] using hbit
    · rw [BitVec.getLsbD_of_ge a _ (by omega), BitVec.getLsbD_of_ge b _ (by omega)]
  · intro h
    apply BitVec.eq_of_getLsbD_eq
    intro i hi
    by_cases hlow : i < k
    · simp [hlow]
    · have hbit := congrArg (·.getLsbD (i - k)) h
      have hsum : k + (i - k) = i := by omega
      simp only [BitVec.getLsbD_ushiftRight, hsum] at hbit
      simp [hbit]

theorem contains_iff {p : BitPrefix w} {a : BitVec w} :
    p.contains a = true ↔ a.toNat / 2 ^ (w - p.length) = p.base.toNat / 2 ^ (w - p.length) := by
  unfold contains mask
  rw [decide_eq_true_eq, and_allOnes_shiftLeft_eq_iff, ← BitVec.toNat_inj,
    BitVec.toNat_ushiftRight, BitVec.toNat_ushiftRight, Nat.shiftRight_eq_div_pow,
    Nat.shiftRight_eq_div_pow]
  exact eq_comm

theorem contains_eq_false_iff {p : BitPrefix w} {a : BitVec w} :
    p.contains a = false ↔ a.toNat / 2 ^ (w - p.length) ≠ p.base.toNat / 2 ^ (w - p.length) := by
  rw [Ne, ← contains_iff, Bool.not_eq_true]

end BitPrefix
