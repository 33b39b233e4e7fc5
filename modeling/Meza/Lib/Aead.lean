import Mathlib.Data.List.Pairwise

/-! # An ideal authenticated cipher

    Encryption with associated data, idealised. The cipher keeps a record of
    everything it has sealed. It opens a ciphertext only under the key, the
    nonce and the associated data it was sealed with, and the tag at the end of
    a ciphertext is like no other tag of the record.

    A ciphertext travels inside larger frames, and a frame may be cut at the
    wrong place. Whatever opens out of a frame is the one sealing whose tag
    the frame ends with. -/

namespace Aead
open List

abbrev Bytes := List UInt8

/-! ## Section 1: The record -/

structure Entry where
  key : Bytes
  nonce : Bytes
  aad : Bytes
  plaintext : Bytes
  ciphertext : Bytes
  deriving DecidableEq, Repr

def tagLength : Nat := 16

/-- The last bytes of a ciphertext or of a frame around it. -/
def tagOf (bytes : Bytes) : Bytes := bytes.drop (bytes.length - tagLength)

/-- What is assumed of a cipher's record. -/
@[mk_iff]
structure Ideal (record : List Entry) : Prop where
  length : ∀ e ∈ record, e.ciphertext.length = e.plaintext.length + tagLength
  tags : record.Pairwise (fun a b => tagOf a.ciphertext ≠ tagOf b.ciphertext)

instance decidableIdeal (record : List Entry) : Decidable (Ideal record) :=
  decidable_of_iff' _ (ideal_iff record)

/-- Opens a ciphertext, if it was sealed just so. -/
def decrypt (record : List Entry) (key nonce aad ciphertext : Bytes) : Option Bytes :=
  (record.find? fun e =>
    e.key = key ∧ e.nonce = nonce ∧ e.aad = aad ∧ e.ciphertext = ciphertext).map (·.plaintext)

/-! ## Section 2: Tags and frames -/

theorem tagOf_append {front ciphertext : Bytes} (h : tagLength ≤ ciphertext.length) :
    tagOf (front ++ ciphertext) = tagOf ciphertext := by
  have hcut : (front ++ ciphertext).length - tagLength =
      front.length + (ciphertext.length - tagLength) := by
    rw [length_append]
    omega
  unfold tagOf
  rw [hcut, drop_length_add_append]

/-- Bytes cut off at the front leave the tag alone. -/
theorem tagOf_drop {bytes : Bytes} {n : Nat} (h : tagLength ≤ (bytes.drop n).length) :
    tagOf (bytes.drop n) = tagOf bytes := by
  have hframe : tagOf (bytes.take n ++ bytes.drop n) = tagOf (bytes.drop n) := tagOf_append h
  rw [take_append_drop] at hframe
  exact hframe.symm

/-! ## Section 3: What opens -/

variable {record : List Entry}

theorem mem_of_decrypt {key nonce aad ciphertext plaintext : Bytes}
    (h : decrypt record key nonce aad ciphertext = some plaintext) :
    (⟨key, nonce, aad, plaintext, ciphertext⟩ : Entry) ∈ record := by
  obtain ⟨e, hfind, hplain⟩ := Option.map_eq_some_iff.mp h
  have hmem := mem_of_find?_eq_some hfind
  have hkey := find?_some hfind
  simp only [decide_eq_true_eq] at hkey
  obtain ⟨rfl, rfl, rfl, rfl⟩ := hkey
  subst hplain
  exact hmem

theorem Ideal.eq_of_tag (h : Ideal record) {a b : Entry} (ha : a ∈ record)
    (hb : b ∈ record) (htag : tagOf a.ciphertext = tagOf b.ciphertext) : a = b := by
  have : Std.Symm (fun x y : Entry => tagOf x.ciphertext ≠ tagOf y.ciphertext) :=
    ⟨fun _ _ hne => hne.symm⟩
  by_contra hne
  exact h.tags.forall ha hb hne htag

theorem Ideal.decrypt_of_mem (h : Ideal record) {e : Entry} (he : e ∈ record) :
    decrypt record e.key e.nonce e.aad e.ciphertext = some e.plaintext := by
  rcases hopen : decrypt record e.key e.nonce e.aad e.ciphertext with _ | plaintext
  · have hnone := find?_eq_none.mp (Option.map_eq_none_iff.mp hopen) e he
    simp at hnone
  · have heq := h.eq_of_tag (mem_of_decrypt hopen) he rfl
    rw [← heq]

/-- A sealing that opens out of a frame around `e` is `e`, wherever the frame is cut. -/
theorem Ideal.eq_of_decrypt (h : Ideal record) {e : Entry} (he : e ∈ record)
    {front key nonce aad plaintext : Bytes} {n : Nat}
    (hopen : decrypt record key nonce aad ((front ++ e.ciphertext).drop n) = some plaintext) :
    key = e.key ∧ nonce = e.nonce ∧ aad = e.aad ∧ plaintext = e.plaintext := by
  have hfound := mem_of_decrypt hopen
  have htagged : tagLength ≤ ((front ++ e.ciphertext).drop n).length := by
    have hlength := h.length _ hfound
    simp only at hlength
    omega
  have hlong : tagLength ≤ e.ciphertext.length := by
    have hlength := h.length e he
    omega
  have heq := h.eq_of_tag hfound he (by
    show tagOf ((front ++ e.ciphertext).drop n) = tagOf e.ciphertext
    rw [tagOf_drop htagged, tagOf_append hlong])
  rw [← heq]
  exact ⟨rfl, rfl, rfl, rfl⟩

end Aead
