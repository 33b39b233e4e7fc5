import Meza.Lib.Aead
import Meza.Store.Schema

/-! # Associated data

    `aad.ts`: the associated data that binds a ciphertext to its context. Both
    layouts have fixed widths,

      `purpose(1) || channelId_utf8(26) || keyVersion_u32be(4)` and
      `PURPOSE_KEY_WRAP(1) || channelId_utf8(26) || recipientEdPub(32)`,

    so two contexts share their associated data only if they are the same. -/

namespace Meza.Crypto

open Aead (Bytes)
open Store List

/-! ## Section 1: Encodings -/

/-- `TextEncoder.encode`. -/
def encode (text : String) : Bytes := text.toByteArray.data.toList

/-- `DataView.setUint32`, big-endian. -/
def setUint32 (n : Nat) : Bytes :=
  [.ofNat (n / 2 ^ 24), .ofNat (n / 2 ^ 16), .ofNat (n / 2 ^ 8), .ofNat n]

/-- `DataView.getUint32(0)`, big-endian. -/
def getUint32 (bytes : Bytes) : Nat :=
  (bytes.take 4).foldl (fun n b => n * 2 ^ 8 + b.toNat) 0

def maxUint32 : Nat := 0xffffffff

theorem encode_injective : Function.Injective encode := by
  intro a b h
  have hdata : a.toByteArray.data = b.toByteArray.data := Array.toList_inj.mp h
  exact String.toByteArray_inj.mp (ByteArray.ext hdata)

@[simp] theorem length_setUint32 (n : Nat) : (setUint32 n).length = 4 := rfl

theorem getUint32_append {front rest : Bytes} (h : front.length = 4) :
    getUint32 (front ++ rest) = getUint32 front := by
  unfold getUint32
  rw [take_append_of_le_length (by omega)]

@[simp] theorem getUint32_setUint32 {n : Nat} (h : n ≤ maxUint32) :
    getUint32 (setUint32 n) = n := by
  have hbound : n < 2 ^ 32 := by
    unfold maxUint32 at h
    omega
  simp only [getUint32, setUint32, take, foldl, UInt8.toNat_ofNat']
  omega

theorem setUint32_injective {n m : Nat} (hn : n ≤ maxUint32) (hm : m ≤ maxUint32)
    (h : setUint32 n = setUint32 m) : n = m := by
  rw [← getUint32_setUint32 hn, ← getUint32_setUint32 hm, h]

/-! ## Section 2: Builders -/

inductive AadPurpose where
  | message
  | keyWrap
  | fileKey
  deriving DecidableEq, Repr

/-- `PURPOSE_MESSAGE`, `PURPOSE_KEY_WRAP` and `PURPOSE_FILE_KEY`. -/
def AadPurpose.byte : AadPurpose → UInt8
  | .message => 0x01
  | .keyWrap => 0x02
  | .fileKey => 0x03

/-- ULIDs are always 26 characters (ASCII bytes). -/
def ulidLength : Nat := 26

/-- The check of the channel id that both builders make. -/
def encodeChannelID (channelID : ID) : Except String Bytes :=
  let encoded := encode channelID
  let got := encoded.length
  if got ≠ ulidLength then .error s!"channelId must be {ulidLength} bytes, got {got}"
  else .ok encoded

def buildContextAAD (purpose : AadPurpose) (channelID : ID) (keyVersion : Nat) :
    Except String Bytes :=
  if maxUint32 < keyVersion then .error s!"keyVersion must be a uint32, got {keyVersion}"
  else do
    let encoded ← encodeChannelID channelID
    return purpose.byte :: (encoded ++ setUint32 keyVersion)

def buildKeyWrapAAD (channelID : ID) (recipientEdPub : Bytes) : Except String Bytes := do
  let encoded ← encodeChannelID channelID
  let got := recipientEdPub.length
  if got ≠ 32 then .error s!"recipientEdPub must be 32 bytes, got {got}"
  else return AadPurpose.keyWrap.byte :: (encoded ++ recipientEdPub)

/-! ## Section 3: What the layouts tell apart -/

variable {purpose : AadPurpose} {aad : Bytes} {channelID channelID' : ID} {keyVersion : Nat}

theorem encodeChannelID_eq_ok {encoded : Bytes} :
    encodeChannelID channelID = .ok encoded ↔
      encoded.length = ulidLength ∧ encoded = encode channelID := by
  unfold encodeChannelID
  by_cases h : (encode channelID).length = ulidLength
  · simp only [h, ne_eq, not_true_eq_false, ↓reduceIte, Except.ok.injEq]
    constructor
    · rintro rfl
      exact ⟨h, rfl⟩
    · rintro ⟨-, rfl⟩
      rfl
  · simp only [ne_eq, h, not_false_eq_true, ↓reduceIte, reduceCtorEq, false_iff, not_and]
    rintro hlength rfl
    exact h hlength

theorem buildContextAAD_eq_ok :
    buildContextAAD purpose channelID keyVersion = .ok aad ↔
      keyVersion ≤ maxUint32 ∧ (encode channelID).length = ulidLength ∧
        aad = purpose.byte :: (encode channelID ++ setUint32 keyVersion) := by
  unfold buildContextAAD
  by_cases hversion : maxUint32 < keyVersion
  · simp only [hversion, ↓reduceIte, reduceCtorEq, false_iff, not_and]
    intro hle
    omega
  · rw [if_neg hversion]
    rcases hencode : encodeChannelID channelID with msg | encoded
    · have hbad : (encode channelID).length ≠ ulidLength := by
        intro hlength
        rw [encodeChannelID_eq_ok.mpr ⟨hlength, rfl⟩] at hencode
        cases hencode
      simp only [hbad, false_and, and_false, iff_false]
      intro h
      cases h
    · obtain ⟨hlength, rfl⟩ := encodeChannelID_eq_ok.mp hencode
      have hle : keyVersion ≤ maxUint32 := by omega
      simp only [hle, hlength, true_and]
      constructor
      · intro h
        cases h
        rfl
      · rintro rfl
        rfl

theorem buildKeyWrapAAD_eq_ok {recipientEdPub : Bytes} :
    buildKeyWrapAAD channelID recipientEdPub = .ok aad ↔
      (encode channelID).length = ulidLength ∧ recipientEdPub.length = 32 ∧
        aad = AadPurpose.keyWrap.byte :: (encode channelID ++ recipientEdPub) := by
  unfold buildKeyWrapAAD
  rcases hencode : encodeChannelID channelID with msg | encoded
  · have hbad : (encode channelID).length ≠ ulidLength := by
      intro hlength
      rw [encodeChannelID_eq_ok.mpr ⟨hlength, rfl⟩] at hencode
      cases hencode
    simp only [hbad, false_and, iff_false]
    intro h
    cases h
  · obtain ⟨hlength, rfl⟩ := encodeChannelID_eq_ok.mp hencode
    show (if recipientEdPub.length ≠ 32 then _ else _) = _ ↔ _
    by_cases hpub : recipientEdPub.length = 32
    · rw [if_neg (not_not_intro hpub)]
      simp only [hlength, hpub, true_and]
      constructor
      · intro h
        cases h
        rfl
      · rintro rfl
        rfl
    · rw [if_pos hpub]
      simp only [hpub, false_and, and_false, iff_false]
      intro h
      cases h

theorem AadPurpose.byte_injective : Function.Injective AadPurpose.byte := by
  intro a b h
  cases a <;> cases b <;> first | rfl | cases h

/-- The context can be read off its associated data. -/
theorem buildContextAAD_inj {purpose' : AadPurpose} {keyVersion' : Nat}
    (h : buildContextAAD purpose channelID keyVersion = .ok aad)
    (h' : buildContextAAD purpose' channelID' keyVersion' = .ok aad) :
    purpose = purpose' ∧ channelID = channelID' ∧ keyVersion = keyVersion' := by
  obtain ⟨hversion, hlength, haad⟩ := buildContextAAD_eq_ok.mp h
  obtain ⟨hversion', hlength', haad'⟩ := buildContextAAD_eq_ok.mp h'
  rw [haad] at haad'
  obtain ⟨hpurpose, hrest⟩ := cons.inj haad'
  obtain ⟨hchannel, hnumber⟩ := append_inj hrest (hlength.trans hlength'.symm)
  exact ⟨AadPurpose.byte_injective hpurpose, encode_injective hchannel,
    setUint32_injective hversion hversion' hnumber⟩

theorem buildKeyWrapAAD_inj {recipient recipient' : Bytes}
    (h : buildKeyWrapAAD channelID recipient = .ok aad)
    (h' : buildKeyWrapAAD channelID' recipient' = .ok aad) :
    channelID = channelID' ∧ recipient = recipient' := by
  obtain ⟨hlength, -, haad⟩ := buildKeyWrapAAD_eq_ok.mp h
  obtain ⟨hlength', -, haad'⟩ := buildKeyWrapAAD_eq_ok.mp h'
  rw [haad] at haad'
  obtain ⟨-, hrest⟩ := cons.inj haad'
  obtain ⟨hchannel, hrecipient⟩ := append_inj hrest (hlength.trans hlength'.symm)
  exact ⟨encode_injective hchannel, hrecipient⟩

/-- The two layouts have different lengths, whatever the purposes. -/
theorem buildContextAAD_ne_buildKeyWrapAAD {recipient : Bytes}
    (h : buildContextAAD purpose channelID keyVersion = .ok aad) :
    buildKeyWrapAAD channelID' recipient ≠ .ok aad := by
  intro h'
  obtain ⟨-, hlength, haad⟩ := buildContextAAD_eq_ok.mp h
  obtain ⟨hlength', hrecipient, haad'⟩ := buildKeyWrapAAD_eq_ok.mp h'
  have hsize := congrArg length (haad.symm.trans haad')
  simp only [length_cons, length_append, length_setUint32, hlength, hlength', hrecipient] at hsize
  omega

end Meza.Crypto
