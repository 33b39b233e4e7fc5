import Mathlib.Data.List.Basic

/-! # Base64

    Bytes as digits of six bits, the last one filled up with zeros, and back. -/

namespace Base64
open List

def digits : List UInt8 → List Nat
  | [] => []
  | [a] => [a.toNat / 4, a.toNat % 4 * 16]
  | [a, b] => [a.toNat / 4, a.toNat % 4 * 16 + b.toNat / 16, b.toNat % 16 * 4]
  | a :: b :: c :: bytes =>
    a.toNat / 4 :: (a.toNat % 4 * 16 + b.toNat / 16) :: (b.toNat % 16 * 4 + c.toNat / 64) ::
      c.toNat % 64 :: digits bytes

/-- Bits that are left over at the end are dropped. -/
def bytes : List Nat → List UInt8
  | a :: b :: c :: d :: ds =>
    .ofNat (a * 4 + b / 16) :: .ofNat (b % 16 * 16 + c / 4) :: .ofNat (c % 4 * 64 + d) :: bytes ds
  | [a, b, c] => [.ofNat (a * 4 + b / 16), .ofNat (b % 16 * 16 + c / 4)]
  | [a, b] => [.ofNat (a * 4 + b / 16)]
  | _ => []

theorem ofNat_eq {n : Nat} {a : UInt8} (h : n = a.toNat) : .ofNat n = a := by
  rw [h, UInt8.ofNat_toNat]

theorem bytes_digits (bs : List UInt8) : bytes (digits bs) = bs := by
  induction bs using digits.induct with
  | case1 => rfl
  | case2 a =>
    have ha := a.toNat_lt
    exact congrArg (· :: []) (ofNat_eq (by omega))
  | case3 a b =>
    have hb := b.toNat_lt
    rw [digits, bytes, ofNat_eq (a := a) (by omega), ofNat_eq (a := b) (by omega)]
  | case4 a b c bs ih =>
    have hb := b.toNat_lt
    have hc := c.toNat_lt
    rw [digits, bytes, ofNat_eq (a := a) (by omega), ofNat_eq (a := b) (by omega),
      ofNat_eq (a := c) (by omega), ih]

theorem digits_lt (bs : List UInt8) : ∀ n ∈ digits bs, n < 64 := by
  induction bs using digits.induct with
  | case1 => simp [digits]
  | case2 a =>
    have ha := a.toNat_lt
    simp only [digits, mem_cons, not_mem_nil, or_false]
    rintro n (rfl | rfl) <;> omega
  | case3 a b =>
    have ha := a.toNat_lt
    have hb := b.toNat_lt
    simp only [digits, mem_cons, not_mem_nil, or_false]
    rintro n (rfl | rfl | rfl) <;> omega
  | case4 a b c bs ih =>
    have ha := a.toNat_lt
    have hb := b.toNat_lt
    have hc := c.toNat_lt
    simp only [digits, forall_mem_cons]
    exact ⟨by omega, by omega, by omega, by omega, ih⟩

/-- No byte string leaves a single digit over. -/
theorem length_digits (bs : List UInt8) : (digits bs).length % 4 ≠ 1 := by
  induction bs using digits.induct with
  | case4 a b c bs ih =>
    simp only [digits, length_cons]
    omega
  | _ => simp [digits]

end Base64
