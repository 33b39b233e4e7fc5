import Mathlib.Data.Char
import Mathlib.Data.List.Basic

/-! # Text in UTF-16 and UTF-8

    A program may hold its strings as lists of 16-bit code units, in which a
    surrogate can stand without its other half, and exchange them in UTF-8.

    What is well formed survives both encodings. The rest is replaced: a lone
    surrogate when it is encoded in UTF-8, a byte that UTF-8 cannot hold when it
    is decoded. -/

namespace Unicode

theorem toNat_ofNat {n : Nat} (h : n.isValidChar) : (Char.ofNat n).toNat = n := by
  rw [Char.ofNat, dif_pos h]
  rfl

theorem toNat_valid (c : Char) : c.toNat < 0xD800 ∨ (0xDFFF < c.toNat ∧ c.toNat < 0x110000) :=
  c.valid

/-- Stands for what is not well formed. -/
def replacement : Char := '\uFFFD'

end Unicode

/-! ## Section 1: UTF-16 -/

namespace Utf16

/-- A string as its code units. -/
abbrev Text := List UInt16

def isHigh (u : UInt16) : Bool := 0xD800 ≤ u.toNat && u.toNat < 0xDC00

def isLow (u : UInt16) : Bool := 0xDC00 ≤ u.toNat && u.toNat < 0xE000

/-- A scalar value, or a surrogate without its other half. -/
inductive CodePoint where
  | scalar (c : Char)
  | lone (u : UInt16)
  deriving DecidableEq, Repr

def encodeChar (c : Char) : Text :=
  if c.toNat < 0x10000 then [.ofNat c.toNat]
  else
    [.ofNat (0xD800 + (c.toNat - 0x10000) / 0x400), .ofNat (0xDC00 + (c.toNat - 0x10000) % 0x400)]

def encode (cs : List Char) : Text := cs.flatMap encodeChar

/-- The scalar value of two surrogates. -/
def combine (high low : UInt16) : Char :=
  .ofNat (0x10000 + (high.toNat - 0xD800) * 0x400 + (low.toNat - 0xDC00))

/-- A unit that is not half of a pair. -/
def single (u : UInt16) : CodePoint :=
  if isHigh u || isLow u then .lone u else .scalar (.ofNat u.toNat)

def codePoints : Text → List CodePoint
  | [] => []
  | [u] => [single u]
  | u :: v :: us =>
    if isHigh u && isLow v then .scalar (combine u v) :: codePoints us
    else single u :: codePoints (v :: us)

def CodePoint.units : CodePoint → Text
  | .scalar c => encodeChar c
  | .lone u => [u]

/-- Lone surrogates are replaced. -/
def toScalars (t : Text) : List Char :=
  (codePoints t).map fun
    | .scalar c => c
    | .lone _ => Unicode.replacement

theorem encodeChar_small {c : Char} (h : c.toNat < 0x10000) :
    encodeChar c = [.ofNat c.toNat] := if_pos h

theorem encodeChar_length_pos (c : Char) : 0 < (encodeChar c).length := by
  unfold encodeChar
  split <;> exact Nat.succ_pos _

theorem length_encode_cons (c : Char) (cs : List Char) :
    (encode (c :: cs)).length = (encodeChar c).length + (encode cs).length := by
  rw [encode, List.flatMap_cons, List.length_append]
  rfl

theorem length_encode_mono {cs cs' : List Char} (h : cs <:+ cs') :
    (encode cs).length ≤ (encode cs').length := by
  obtain ⟨front, rfl⟩ := h
  rw [encode, encode, List.flatMap_append, List.length_append]
  exact Nat.le_add_left _ _

theorem isSurrogate_toNat {u : UInt16} :
    (isHigh u || isLow u) = true ↔ 0xD800 ≤ u.toNat ∧ u.toNat < 0xE000 := by
  simp only [isHigh, isLow, Bool.or_eq_true, Bool.and_eq_true, decide_eq_true_eq]
  omega

theorem units_single (u : UInt16) : (single u).units = [u] := by
  unfold single
  by_cases h : (isHigh u || isLow u) = true
  · rw [if_pos h]
    rfl
  · rw [if_neg h]
    have hbound := u.toNat_lt
    rw [isSurrogate_toNat] at h
    have hvalid : u.toNat.isValidChar := by
      omega
    have hnat := Unicode.toNat_ofNat hvalid
    show encodeChar (.ofNat u.toNat) = [u]
    rw [encodeChar_small (by omega), hnat, UInt16.ofNat_toNat]

theorem units_combine {u v : UInt16} (h : (isHigh u && isLow v) = true) :
    encodeChar (combine u v) = [u, v] := by
  simp only [isHigh, isLow, Bool.and_eq_true, decide_eq_true_eq] at h
  have hnat : (combine u v).toNat = 0x10000 + (u.toNat - 0xD800) * 0x400 + (v.toNat - 0xDC00) := by
    refine Unicode.toNat_ofNat ?_
    omega
  have hhigh : 0xD800 + ((combine u v).toNat - 0x10000) / 0x400 = u.toNat := by omega
  have hlow : 0xDC00 + ((combine u v).toNat - 0x10000) % 0x400 = v.toNat := by omega
  unfold encodeChar
  rw [if_neg (by omega), hhigh, hlow, UInt16.ofNat_toNat, UInt16.ofNat_toNat]

/-- A string is made up of its code points. -/
theorem units_codePoints (t : Text) : (codePoints t).flatMap CodePoint.units = t := by
  fun_induction codePoints t with
  | case1 => rfl
  | case2 u => rw [List.flatMap_cons, units_single, List.flatMap_nil, List.append_nil]
  | case3 u v us h ih =>
    rw [List.flatMap_cons, ih]
    show encodeChar (combine u v) ++ us = u :: v :: us
    rw [units_combine h]
    rfl
  | case4 u v us h ih =>
    rw [List.flatMap_cons, ih, units_single]
    rfl

theorem single_ofNat {c : Char} (h : c.toNat < 0x10000) :
    single (UInt16.ofNat c.toNat) = .scalar c := by
  have hnat : (UInt16.ofNat c.toNat).toNat = c.toNat := UInt16.toNat_ofNat_of_lt' h
  have hscalar := Unicode.toNat_valid c
  unfold single
  rw [if_neg (by rw [isSurrogate_toNat]; omega), hnat, Char.ofNat_toNat]

/-- A scalar value is read again, whatever follows. -/
theorem codePoints_encodeChar (c : Char) (us : Text) :
    codePoints (encodeChar c ++ us) = .scalar c :: codePoints us := by
  have hscalar := Unicode.toNat_valid c
  by_cases hsmall : c.toNat < 0x10000
  · rw [encodeChar_small hsmall, List.singleton_append]
    have hnat : (UInt16.ofNat c.toNat).toNat = c.toNat := UInt16.toNat_ofNat_of_lt' hsmall
    have hhigh : isHigh (UInt16.ofNat c.toNat) = false := by
      simp only [isHigh, hnat, Bool.and_eq_false_iff, decide_eq_false_iff_not]
      omega
    cases us with
    | nil =>
      show [single (UInt16.ofNat c.toNat)] = [.scalar c]
      rw [single_ofNat hsmall]
    | cons v us =>
      rw [codePoints, hhigh, Bool.false_and, if_neg Bool.false_ne_true, single_ofNat hsmall]
  · have hhighNat : (UInt16.ofNat (0xD800 + (c.toNat - 0x10000) / 0x400)).toNat =
        0xD800 + (c.toNat - 0x10000) / 0x400 := by
      refine UInt16.toNat_ofNat_of_lt' ?_
      show _ < 65536
      omega
    have hlowNat : (UInt16.ofNat (0xDC00 + (c.toNat - 0x10000) % 0x400)).toNat =
        0xDC00 + (c.toNat - 0x10000) % 0x400 := by
      refine UInt16.toNat_ofNat_of_lt' ?_
      show _ < 65536
      omega
    unfold encodeChar
    rw [if_neg hsmall, List.cons_append, List.singleton_append, codePoints]
    have hpair : (isHigh (UInt16.ofNat (0xD800 + (c.toNat - 0x10000) / 0x400)) &&
        isLow (UInt16.ofNat (0xDC00 + (c.toNat - 0x10000) % 0x400))) = true := by
      simp only [isHigh, isLow, hhighNat, hlowNat, Bool.and_eq_true, decide_eq_true_eq]
      omega
    have hcombine : combine (UInt16.ofNat (0xD800 + (c.toNat - 0x10000) / 0x400))
        (UInt16.ofNat (0xDC00 + (c.toNat - 0x10000) % 0x400)) = c := by
      unfold combine
      rw [hhighNat, hlowNat]
      have hsum : 0x10000 + (0xD800 + (c.toNat - 0x10000) / 0x400 - 0xD800) * 0x400 +
          (0xDC00 + (c.toNat - 0x10000) % 0x400 - 0xDC00) = c.toNat := by omega
      rw [hsum, Char.ofNat_toNat]
    rw [if_pos hpair, hcombine]

theorem codePoints_encode (cs : List Char) : codePoints (encode cs) = cs.map .scalar := by
  induction cs with
  | nil => rfl
  | cons c cs ih =>
    show codePoints (encodeChar c ++ encode cs) = _
    rw [codePoints_encodeChar, ih]
    rfl

/-- Well-formed text has no lone surrogates. -/
theorem toScalars_encode (cs : List Char) : toScalars (encode cs) = cs := by
  unfold toScalars
  rw [codePoints_encode, List.map_map]
  exact List.map_id cs

end Utf16

/-! ## Section 2: UTF-8 -/

namespace Utf8

open Unicode (replacement)

def encode (cs : List Char) : List UInt8 := cs.flatMap String.utf8EncodeChar

/-- Between characters, or within one: how many bytes are needed, and the bounds of the next. -/
structure Decoder where
  codePoint : Nat := 0
  needed : Nat := 0
  lower : Nat := 0x80
  upper : Nat := 0xBF
  deriving DecidableEq, Repr

/-- The first byte of a character. -/
def lead (b : UInt8) : List Char × Decoder :=
  let n := b.toNat
  if n ≤ 0x7F then ([.ofNat n], {})
  else if 0xC2 ≤ n ∧ n ≤ 0xDF then ([], { codePoint := n - 0xC0, needed := 1 })
  else if 0xE0 ≤ n ∧ n ≤ 0xEF then
    ([], {
      codePoint := n - 0xE0
      needed := 2
      lower := if n = 0xE0 then 0xA0 else 0x80
      upper := if n = 0xED then 0x9F else 0xBF })
  else if 0xF0 ≤ n ∧ n ≤ 0xF4 then
    ([], {
      codePoint := n - 0xF0
      needed := 3
      lower := if n = 0xF0 then 0x90 else 0x80
      upper := if n = 0xF4 then 0x8F else 0xBF })
  else ([replacement], {})

/-- One byte. One that does not continue a character is read again as the first of another. -/
def Decoder.step (d : Decoder) (b : UInt8) : List Char × Decoder :=
  if d.needed = 0 then lead b
  else if d.lower ≤ b.toNat ∧ b.toNat ≤ d.upper then
    let codePoint := d.codePoint * 64 + (b.toNat - 0x80)
    if d.needed = 1 then ([.ofNat codePoint], {})
    else ([], { codePoint, needed := d.needed - 1 })
  else (replacement :: (lead b).1, (lead b).2)

def Decoder.run (d : Decoder) : List UInt8 → List Char
  | [] => if d.needed = 0 then [] else [replacement]
  | b :: bs => (d.step b).1 ++ (d.step b).2.run bs

def decode (bytes : List UInt8) : List Char := ({} : Decoder).run bytes

def bom : Char := '\uFEFF'

/-- A byte order mark in front is dropped. -/
def decodeText (bytes : List UInt8) : List Char :=
  match decode bytes with
  | [] => []
  | c :: cs => if c = bom then cs else c :: cs

variable {d : Decoder} {n : Nat}

theorem toNat_ofNat (h : n < 256) : (UInt8.ofNat n).toNat = n :=
  UInt8.toNat_ofNat_of_lt' h

theorem step_within (hneeded : d.needed ≠ 0) (hbyte : n < 256) (hlower : d.lower ≤ n)
    (hupper : n ≤ d.upper) :
    d.step (.ofNat n) =
      if d.needed = 1 then ([.ofNat (d.codePoint * 64 + (n - 0x80))], {})
      else ([], { codePoint := d.codePoint * 64 + (n - 0x80), needed := d.needed - 1 }) := by
  unfold Decoder.step
  rw [if_neg hneeded, toNat_ofNat hbyte, if_pos ⟨hlower, hupper⟩]

theorem lead_one (h : n ≤ 0x7F) : lead (.ofNat n) = ([.ofNat n], {}) := by
  unfold lead
  rw [toNat_ofNat (by omega), if_pos h]

theorem lead_two (hlow : 0xC2 ≤ n) (hhigh : n ≤ 0xDF) :
    lead (.ofNat n) = ([], { codePoint := n - 0xC0, needed := 1 }) := by
  unfold lead
  rw [toNat_ofNat (by omega), if_neg (by omega), if_pos ⟨hlow, hhigh⟩]

theorem lead_three (hlow : 0xE0 ≤ n) (hhigh : n ≤ 0xEF) :
    lead (.ofNat n) =
      ([], {
        codePoint := n - 0xE0
        needed := 2
        lower := if n = 0xE0 then 0xA0 else 0x80
        upper := if n = 0xED then 0x9F else 0xBF }) := by
  unfold lead
  rw [toNat_ofNat (by omega), if_neg (by omega), if_neg (by omega), if_pos ⟨hlow, hhigh⟩]

theorem lead_four (hlow : 0xF0 ≤ n) (hhigh : n ≤ 0xF4) :
    lead (.ofNat n) =
      ([], {
        codePoint := n - 0xF0
        needed := 3
        lower := if n = 0xF0 then 0x90 else 0x80
        upper := if n = 0xF4 then 0x8F else 0xBF }) := by
  unfold lead
  rw [toNat_ofNat (by omega), if_neg (by omega), if_neg (by omega), if_neg (by omega),
    if_pos ⟨hlow, hhigh⟩]

theorem run_lead (n : Nat) (bs : List UInt8) :
    ({} : Decoder).run (.ofNat n :: bs) = (lead (.ofNat n)).1 ++ (lead (.ofNat n)).2.run bs := rfl

theorem run_more (bs : List UInt8) (hneeded : 1 < d.needed) (hlower : d.lower ≤ n)
    (hupper : n ≤ d.upper) (hbyte : d.upper < 256) :
    d.run (.ofNat n :: bs) =
      ({ codePoint := d.codePoint * 64 + (n - 0x80), needed := d.needed - 1 } : Decoder).run bs := by
  rw [Decoder.run, step_within (by omega) (by omega) hlower hupper, if_neg (by omega)]
  rfl

theorem run_last (bs : List UInt8) (hneeded : d.needed = 1) (hlower : d.lower ≤ n)
    (hupper : n ≤ d.upper) (hbyte : d.upper < 256) :
    d.run (.ofNat n :: bs) = .ofNat (d.codePoint * 64 + (n - 0x80)) :: ({} : Decoder).run bs := by
  rw [Decoder.run, step_within (by omega) (by omega) hlower hupper, if_pos hneeded]
  rfl

theorem run_encodeChar (c : Char) (bs : List UInt8) :
    ({} : Decoder).run (String.utf8EncodeChar c ++ bs) = c :: ({} : Decoder).run bs := by
  have hscalar := Unicode.toNat_valid c
  have hread {n : Nat} (hn : n = c.toNat) :
      .ofNat n :: ({} : Decoder).run bs = c :: ({} : Decoder).run bs := by
    rw [hn, Char.ofNat_toNat]
  have hval : c.val.toNat = c.toNat := rfl
  unfold String.utf8EncodeChar
  rw [hval]
  by_cases h₁ : c.toNat ≤ 0x7F
  · rw [if_pos h₁, List.singleton_append, run_lead, lead_one h₁]
    exact hread rfl
  · rw [if_neg h₁]
    by_cases h₂ : c.toNat ≤ 0x7FF
    · rw [if_pos h₂, List.cons_append, List.singleton_append, run_lead,
        lead_two (by omega) (by omega), List.nil_append,
        run_last bs rfl (by dsimp only; omega) (by dsimp only; omega) (by dsimp only; omega)]
      exact hread (by dsimp only; omega)
    · rw [if_neg h₂]
      by_cases h₃ : c.toNat ≤ 0xFFFF
      · rw [if_pos h₃, List.cons_append, List.cons_append, List.singleton_append, run_lead,
          lead_three (by omega) (by omega), List.nil_append,
          run_more _ (by dsimp only; omega) (by dsimp only; split <;> omega)
            (by dsimp only; split <;> omega) (by dsimp only; split <;> omega),
          run_last bs rfl (by dsimp only; omega) (by dsimp only; omega) (by dsimp only; omega)]
        exact hread (by dsimp only; omega)
      · rw [if_neg h₃, List.cons_append, List.cons_append, List.cons_append,
          List.singleton_append, run_lead, lead_four (by omega) (by omega), List.nil_append,
          run_more _ (by dsimp only; omega) (by dsimp only; split <;> omega)
            (by dsimp only; split <;> omega) (by dsimp only; split <;> omega),
          run_more _ (by dsimp only; omega) (by dsimp only; omega) (by dsimp only; omega)
            (by dsimp only; omega),
          run_last bs rfl (by dsimp only; omega) (by dsimp only; omega) (by dsimp only; omega)]
        exact hread (by dsimp only; omega)

theorem decode_encode (cs : List Char) : decode (encode cs) = cs := by
  induction cs with
  | nil => rfl
  | cons c cs ih =>
    show ({} : Decoder).run (String.utf8EncodeChar c ++ encode cs) = c :: cs
    rw [run_encodeChar]
    exact congrArg (c :: ·) ih

/-- What was encoded is decoded, without a byte order mark in front. -/
theorem decodeText_encode (cs : List Char) :
    decodeText (encode cs) = if cs.head? = some bom then cs.tail else cs := by
  unfold decodeText
  rw [decode_encode]
  cases cs with
  | nil => rfl
  | cons c cs => simp

/-- The first byte of a character below 128 is its number; other characters start higher. -/
theorem encodeChar_head (c : Char) :
    ∃ b bs, String.utf8EncodeChar c = b :: bs ∧ (c.toNat < 0x80 → b.toNat = c.toNat) ∧
      (0x80 ≤ c.toNat → 0x80 ≤ b.toNat) := by
  have hval : c.val.toNat = c.toNat := rfl
  unfold String.utf8EncodeChar
  rw [hval]
  by_cases h₁ : c.toNat ≤ 0x7F
  · rw [if_pos h₁]
    refine ⟨_, _, rfl, ?_, ?_⟩
    · intro _
      exact toNat_ofNat (by omega)
    · intro h
      omega
  · rw [if_neg h₁]
    by_cases h₂ : c.toNat ≤ 0x7FF
    · rw [if_pos h₂]
      refine ⟨_, _, rfl, fun h => absurd h (by omega), fun _ => ?_⟩
      rw [toNat_ofNat (by omega)]
      omega
    · rw [if_neg h₂]
      by_cases h₃ : c.toNat ≤ 0xFFFF
      · rw [if_pos h₃]
        refine ⟨_, _, rfl, fun h => absurd h (by omega), fun _ => ?_⟩
        rw [toNat_ofNat (by omega)]
        omega
      · rw [if_neg h₃]
        refine ⟨_, _, rfl, fun h => absurd h (by omega), fun _ => ?_⟩
        rw [toNat_ofNat (by omega)]
        omega

end Utf8
