import Meza.Crypto.Messages
import Meza.Crypto.KeyAvailability

/-! # Ciphertexts and their contexts

    A ciphertext opens in the context it was made in: its purpose, its channel
    and its key version, and for a message its sender. It opens nowhere else,
    whoever holds which keys, and also when a server puts other bytes in front
    of it.

    The cipher's record has one sealing with the tag a ciphertext ends with.
    Whatever a decryption finds is that sealing, so its associated data is the
    one the reader has built, and the builders are injective. -/

namespace Meza.Crypto

open Aead (Bytes)
open Store List Aead Action

/-! ## Section 1: Statements -/

/-- `r` is a client at some later time; the cipher is still ideal. -/
structure Later (s' r : CryptoState) : Prop where
  record : s'.sealed ⊆ r.sealed
  ideal : Ideal r.sealed

def Throws {α : Type} (x : CryptoM α) (r : CryptoState) : Prop :=
  ∃ msg, result x r = .error msg

/-- Two clients have the same key for a version, and take no other for it. -/
def Shared (S : Suite) (server server' : EnvelopeServer) (s r : CryptoState) (channelID : ID)
    (version : Nat) : Prop :=
  ∃ key, result (getChannelKey S server channelID version) s = .ok key ∧
    result (getChannelKey S server' channelID version) r = .ok key ∧
    s.aesKeyCache.Distinguishes key ∧ r.aesKeyCache.Distinguishes key

/-- A message is read as what it is in its channel, under its version and its sender's key. -/
def MessagesBound (S : Suite) : Prop :=
  ∀ (server : EnvelopeServer) (draw : Draw) (channelID : ID) (content : Bytes)
    (m : EncryptedMessage) (identity : IdentityKeypair) (s s' r : CryptoState),
    s.identity = some identity → S.IsKeypair identity →
    encryptMessage S server draw channelID content s = .ok m s' → Later s' r →
    (∀ server', Shared S server server' s r channelID m.keyVersion →
      result (decryptMessage S server' channelID m.keyVersion m.data identity.publicKey) r =
        .ok content) ∧
    ∀ server' channelID' version' sender',
      ¬ (channelID' = channelID ∧ version' = m.keyVersion ∧ sender' = identity.publicKey) →
      Throws (decryptMessage S server' channelID' version' m.data sender') r

/-- A wrapped file key is read in its channel, behind its own version. -/
def FileKeysBound (S : Suite) : Prop :=
  ∀ (server : EnvelopeServer) (draw : Draw) (channelID : ID) (fileKey wrapped : Bytes)
    (s s' r : CryptoState),
    wrapFileKey S server draw channelID fileKey s = .ok wrapped s' → Later s' r →
    (∀ server', Shared S server server' s r channelID (getUint32 wrapped) →
      result (unwrapFileKey S server' channelID wrapped) r = .ok fileKey) ∧
    ∀ server' channelID' (version' : Bytes), version'.length = 4 →
      ¬ (channelID' = channelID ∧ getUint32 version' = getUint32 wrapped) →
      Throws (unwrapFileKey S server' channelID' (version' ++ wrapped.drop 4)) r

/-- Neither is read as the other or as an envelope, with anything in front of it. -/
def PurposesApart (S : Suite) : Prop :=
  (∀ (server : EnvelopeServer) (draw : Draw) (channelID : ID) (content : Bytes)
    (m : EncryptedMessage) (s s' r : CryptoState),
    encryptMessage S server draw channelID content s = .ok m s' → Later s' r →
    ∀ server' channelID' identity' front,
      Throws (unwrapFileKey S server' channelID' (front ++ m.data)) r ∧
      ∃ msg, unwrapEnvelope S r.sealed channelID' identity' (front ++ m.data) = .error msg) ∧
  (∀ (server : EnvelopeServer) (draw : Draw) (channelID : ID) (fileKey wrapped : Bytes)
    (s s' r : CryptoState),
    wrapFileKey S server draw channelID fileKey s = .ok wrapped s' → Later s' r →
    ∀ server' channelID' version' sender' identity' front,
      Throws (decryptMessage S server' channelID' version' (front ++ wrapped) sender') r ∧
      ∃ msg, unwrapEnvelope S r.sealed channelID' identity' (front ++ wrapped) = .error msg) ∧
  ∀ (draw : WrapDraw) (channelID : ID) (channelKey recipient envelope : Bytes)
    (s s' r : CryptoState),
    wrapKeyForMember S draw channelID channelKey recipient s = .ok envelope s' → Later s' r →
    ∀ server' channelID' version' sender' front,
      Throws (decryptMessage S server' channelID' version' (front ++ envelope) sender') r ∧
      Throws (unwrapFileKey S server' channelID' (front ++ envelope)) r

/-- The associated data tells its arguments and its purpose. -/
def AadInjective : Prop :=
  (∀ purpose purpose' channelID channelID' version version' aad,
    buildContextAAD purpose channelID version = .ok aad →
    buildContextAAD purpose' channelID' version' = .ok aad →
    purpose = purpose' ∧ channelID = channelID' ∧ version = version') ∧
  (∀ channelID channelID' recipient recipient' aad,
    buildKeyWrapAAD channelID recipient = .ok aad →
    buildKeyWrapAAD channelID' recipient' = .ok aad →
    channelID = channelID' ∧ recipient = recipient') ∧
  ∀ purpose channelID version channelID' recipient aad,
    buildContextAAD purpose channelID version = .ok aad →
    buildKeyWrapAAD channelID' recipient ≠ .ok aad

/-! ## Section 2: What is read out of a frame -/

theorem throws_iff {α : Type} {x : CryptoM α} {r : CryptoState} :
    Throws x r ↔ ∀ a r', x r ≠ .ok a r' := by
  unfold Throws result
  cases x r with
  | ok a r' => simp
  | error msg r' => simp

variable {S : Suite} {server : EnvelopeServer} {r : CryptoState} {e : Entry}
  {front : Bytes}

variable {channelID : ID} {version : Nat}

section

variable (hideal : Ideal r.sealed)
include hideal

theorem decryptMessage_frame (he : e ∈ r.sealed)
    {sender content : Bytes} {r' : CryptoState}
    (h : decryptMessage S server channelID version (front ++ e.ciphertext) sender r =
      .ok content r') :
    buildContextAAD .message channelID version = .ok e.aad ∧
      verifySignature S sender (e.plaintext.take signatureSize)
        (e.plaintext.drop signatureSize) = true := by
  obtain ⟨aesKey, aad, payload, haad, hopen, hverify, -⟩ := decryptMessage_ok h
  obtain ⟨-, -, rfl, rfl⟩ := hideal.eq_of_decrypt he hopen
  exact ⟨haad, hverify⟩

theorem unwrapFileKey_frame (he : e ∈ r.sealed) {fileKey : Bytes}
    {r' : CryptoState}
    (h : unwrapFileKey S server channelID (front ++ e.ciphertext) r = .ok fileKey r') :
    buildContextAAD .fileKey channelID (getUint32 (front ++ e.ciphertext)) = .ok e.aad := by
  obtain ⟨aesKey, aad, haad, hopen⟩ := unwrapFileKey_ok h
  rw [drop_drop] at hopen
  obtain ⟨-, -, rfl, -⟩ := hideal.eq_of_decrypt he hopen
  exact haad

variable {identity : IdentityKeypair}

theorem unwrapEnvelope_frame (he : e ∈ r.sealed) {key : Bytes}
    (h : unwrapEnvelope S r.sealed channelID identity (front ++ e.ciphertext) = .ok key) :
    buildKeyWrapAAD channelID identity.publicKey = .ok e.aad := by
  obtain ⟨wrapping, aad, haad, hopen⟩ := unwrapEnvelope_ok h
  obtain ⟨-, -, rfl, -⟩ := hideal.eq_of_decrypt he hopen
  exact haad

/-! ## Section 3: Ciphertexts of another purpose -/

/-- What was encrypted under a context is no envelope. -/
theorem unwrapEnvelope_error (he : e ∈ r.sealed) {purpose : AadPurpose} {channelID' : ID}
    (haad : buildContextAAD purpose channelID version = .ok e.aad) (identity : IdentityKeypair) :
    ∃ msg, unwrapEnvelope S r.sealed channelID' identity (front ++ e.ciphertext) = .error msg := by
  cases h : unwrapEnvelope S r.sealed channelID' identity (front ++ e.ciphertext) with
  | error msg => exact ⟨msg, rfl⟩
  | ok key =>
    have hwrap := unwrapEnvelope_frame hideal he h
    exact absurd hwrap (buildContextAAD_ne_buildKeyWrapAAD haad)

/-- What a message's associated data does not fit is no message. -/
theorem decryptMessage_throws (he : e ∈ r.sealed)
    (hother : buildContextAAD .message channelID version ≠ .ok e.aad) (sender : Bytes) :
    Throws (decryptMessage S server channelID version (front ++ e.ciphertext) sender) r := by
  rw [throws_iff]
  intro content r' h
  exact hother (decryptMessage_frame hideal he h).1

theorem unwrapFileKey_throws (he : e ∈ r.sealed)
    (hother : ∀ version, buildContextAAD .fileKey channelID version ≠ .ok e.aad) :
    Throws (unwrapFileKey S server channelID (front ++ e.ciphertext)) r := by
  rw [throws_iff]
  intro fileKey r' h
  exact hother _ (unwrapFileKey_frame hideal he h)

end

theorem Sealed.mem {s s' : CryptoState} {draw : Draw} {key aad payload : Bytes}
    (h : Sealed s s' draw key aad payload) (hlater : Later s' r) :
    ∃ aesKey, importable aesKey ∧ (s.aesKeyCache.Distinguishes key → aesKey = key) ∧
      (⟨aesKey, draw.nonce, aad, payload, draw.ciphertext⟩ : Entry) ∈ r.sealed := by
  obtain ⟨aesKey, himport, hsame, hrecord⟩ := h
  have hmem : (⟨aesKey, draw.nonce, aad, payload, draw.ciphertext⟩ : Entry) ∈ s'.sealed := by
    rw [hrecord]
    exact mem_cons_self
  exact ⟨aesKey, himport, hsame, hlater.record hmem⟩

theorem purposesApart (S : Suite) : PurposesApart S := by
  refine ⟨?_, ?_, ?_⟩
  · intro server draw channelID content m s s' r h hlater server' channelID' identity' front
    obtain ⟨identity, key, aad, -, -, haad, hdata, hsealed⟩ := encryptMessage_ok h
    obtain ⟨aesKey, -, -, hmem⟩ := hsealed.mem hlater
    rw [hdata, ← append_assoc]
    refine ⟨unwrapFileKey_throws hlater.ideal hmem ?_, unwrapEnvelope_error hlater.ideal hmem haad _⟩
    intro version haad'
    exact absurd (buildContextAAD_inj haad haad').1 (by decide)
  · intro server draw channelID fileKey wrapped s s' r h hlater server' channelID' version' sender'
      identity' front
    obtain ⟨version, key, aad, -, haad, hwrapped, hsealed⟩ := wrapFileKey_ok h
    obtain ⟨aesKey, -, -, hmem⟩ := hsealed.mem hlater
    rw [hwrapped, ← append_assoc, ← append_assoc]
    refine ⟨decryptMessage_throws hlater.ideal hmem ?_ _,
      unwrapEnvelope_error hlater.ideal hmem haad _⟩
    intro haad'
    exact absurd (buildContextAAD_inj haad haad').1 (by decide)
  · intro draw channelID channelKey recipient envelope s s' r h hlater server' channelID' version'
      sender' front
    obtain ⟨aad, haad, hwrap⟩ := wrapKeyForMember_ok h
    obtain ⟨pub, key, -, -, henvelope, hclient⟩ := wrapChannelKey_ok hwrap
    have hmem : (⟨key, draw.nonce, aad, channelKey, draw.ciphertext⟩ : Entry) ∈ r.sealed := by
      refine hlater.record ?_
      rw [hclient]
      exact mem_cons_self
    have hframe : front ++ envelope =
        (front ++ envelopeVersion :: (S.getPublicKey draw.ephemeralSecret ++ draw.nonce)) ++
          draw.ciphertext := by
      simp [henvelope]
    rw [hframe]
    refine ⟨decryptMessage_throws hlater.ideal hmem ?_ _, unwrapFileKey_throws hlater.ideal hmem ?_⟩
    · intro haad'
      exact buildContextAAD_ne_buildKeyWrapAAD haad' haad
    · intro version haad'
      exact buildContextAAD_ne_buildKeyWrapAAD haad' haad

/-! ## Section 4: Ciphertexts of the same purpose -/

theorem verifySignature_sign (hS : S.IdealSignatures) (hkeypair : S.IsKeypair identity)
    {content sender : Bytes} :
    verifySignature S sender (S.sign content identity.secretKey) content = true ↔
      sender = identity.publicKey := by
  have hideal := hS.verify content identity.secretKey sender hkeypair.secretLength
  rw [hkeypair.publicKey, ← hideal]
  unfold verifySignature
  cases S.verify (S.sign content identity.secretKey) content sender with
  | ok valid => simp
  | error msg => simp

theorem messagesBound (hS : S.IdealSignatures) : MessagesBound S := by
  intro server draw channelID content m identity s s' r hidentity hkeypair h hlater
  obtain ⟨identity', key, aad, hidentity', hkey, haad, hdata, hsealed⟩ := encryptMessage_ok h
  rw [hidentity] at hidentity'
  cases hidentity'
  obtain ⟨aesKey, himport, hsame, hmem⟩ := hsealed.mem hlater
  -- the payload splits where the signature ends
  have hsize := hS.length content identity.secretKey hkeypair.secretLength
  have hsignature : (S.sign content identity.secretKey ++ content).take signatureSize =
      S.sign content identity.secretKey := take_left' hsize
  have hcontent : (S.sign content identity.secretKey ++ content).drop signatureSize = content :=
    drop_left' hsize
  have hlength := hlater.ideal.length _ hmem
  simp only [length_append, hsize] at hlength
  have hnonce := draw.nonceLength
  rw [hdata]
  constructor
  · rintro server' ⟨key', hkey', hreader, hsender, hreader'⟩
    rw [hkey] at hkey'
    cases hkey'
    have haes := hsame hsender
    subst haes
    have hlong : 28 ≤ (draw.nonce ++ draw.ciphertext).length := by
      rw [length_append]
      omega
    have hopen : decrypt r.sealed aesKey ((draw.nonce ++ draw.ciphertext).take 12) aad
        ((draw.nonce ++ draw.ciphertext).drop 12) =
          some (S.sign content identity.secretKey ++ content) := by
      rw [take_left' hnonce, drop_left' hnonce]
      exact hlater.ideal.decrypt_of_mem hmem
    have hfull : signatureSize ≤ (S.sign content identity.secretKey ++ content).length := by
      rw [length_append, hsize]
      exact Nat.le_add_right _ _
    have hverify : verifySignature S identity.publicKey
        ((S.sign content identity.secretKey ++ content).take signatureSize)
        ((S.sign content identity.secretKey ++ content).drop signatureSize) = true := by
      rw [hsignature, hcontent]
      exact (verifySignature_sign hS hkeypair).mpr rfl
    have hresult := decryptMessage_of hreader hlong himport hreader' haad hopen hfull hverify
    rw [hresult, hcontent]
  · intro server' channelID' version' sender' hother
    rw [throws_iff]
    intro found r' hread
    obtain ⟨haad', hverify⟩ := decryptMessage_frame hlater.ideal hmem hread
    obtain ⟨-, hchannel, hversion⟩ := buildContextAAD_inj haad' haad
    simp only [hsignature, hcontent] at hverify
    exact hother ⟨hchannel, hversion, (verifySignature_sign hS hkeypair).mp hverify⟩

theorem fileKeysBound (S : Suite) : FileKeysBound S := by
  intro server draw channelID fileKey wrapped s s' r h hlater
  obtain ⟨version, key, aad, hkey, haad, hwrapped, hsealed⟩ := wrapFileKey_ok h
  obtain ⟨aesKey, himport, hsame, hmem⟩ := hsealed.mem hlater
  have hversion : getUint32 wrapped = version := by
    rw [hwrapped, getUint32_append (length_setUint32 version),
      getUint32_setUint32 (buildContextAAD_eq_ok.mp haad).1]
  have hrest : wrapped.drop 4 = draw.nonce ++ draw.ciphertext := by
    rw [hwrapped, drop_left' (length_setUint32 version)]
  have hlength := hlater.ideal.length _ hmem
  have hnonce := draw.nonceLength
  rw [hversion]
  constructor
  · rintro server' ⟨key', hkey', hreader, hsender, hreader'⟩
    rw [hkey] at hkey'
    cases hkey'
    have haes := hsame hsender
    subst haes
    have hlong : 32 ≤ wrapped.length := by
      rw [hwrapped, length_append, length_append, length_setUint32]
      simp only [tagLength] at hlength
      omega
    refine unwrapFileKey_of (by rw [hversion]; exact hreader) hlong himport hreader'
      (by rw [hversion]; exact haad) ?_
    rw [hrest, take_left' hnonce, drop_left' hnonce]
    exact hlater.ideal.decrypt_of_mem hmem
  · intro server' channelID' version' hfour hother
    rw [throws_iff]
    intro found r' hread
    rw [hrest, ← append_assoc] at hread
    have haad' := unwrapFileKey_frame hlater.ideal hmem hread
    obtain ⟨-, hchannel, hsameVersion⟩ := buildContextAAD_inj haad' haad
    rw [append_assoc, getUint32_append hfour] at hsameVersion
    exact hother ⟨hchannel, hsameVersion⟩

/-! ## Section 5: All together -/

theorem aadInjective : AadInjective :=
  ⟨fun _ _ _ _ _ _ _ => buildContextAAD_inj, fun _ _ _ _ _ => buildKeyWrapAAD_inj,
    fun _ _ _ _ _ _ => buildContextAAD_ne_buildKeyWrapAAD⟩

/-- Ciphertexts open in their own context only. -/
theorem ciphertexts_bound (hS : S.IdealSignatures) :
    MessagesBound S ∧ FileKeysBound S ∧ PurposesApart S ∧ AadInjective :=
  ⟨messagesBound hS, fileKeysBound S, purposesApart S, aadInjective⟩

/-- Ann's client has the key of version 1. -/
def annsClient : CryptoState where
  identity := some annsKeys
  channelKeyCache := fun _ => .singleton 1 (keyOf 1)

def noEnvelopes : EnvelopeServer := fun _ => .ok []

/-- What the encryption of two bytes draws. -/
def shortDraw : Draw where
  nonce := replicate 12 5
  ciphertext := replicate 82 5
  nonceLength := rfl

def shortMessage : EncryptedMessage := ⟨1, shortDraw.nonce ++ shortDraw.ciphertext⟩

/-- Another client with the same key, after Ann has encrypted her message. -/
def readersClient : CryptoState where
  channelKeyCache := fun _ => .singleton 1 (keyOf 1)
  sealed := (after
    (encryptMessage plainSuite noEnvelopes shortDraw generalID [104, 105]) annsClient).sealed

theorem distinguishes_empty (key : Bytes) : AesKeyCache.empty.Distinguishes key := by
  intro cacheKey other h
  cases (AList.lookup_empty cacheKey).symm.trans h

theorem ciphertexts_bound_short :
    result (decryptMessage plainSuite noEnvelopes generalID 1 shortMessage.data
      annsKeys.publicKey) readersClient = .ok [104, 105] ∧
    Throws (decryptMessage plainSuite noEnvelopes generalID 2 shortMessage.data
      annsKeys.publicKey) readersClient := by
  have hencrypt : encryptMessage plainSuite noEnvelopes shortDraw generalID [104, 105] annsClient =
      .ok shortMessage (after
        (encryptMessage plainSuite noEnvelopes shortDraw generalID [104, 105]) annsClient) :=
    eq_of_result (by decide +kernel)
  have hbound := (ciphertexts_bound plainSuite_idealSignatures).1 noEnvelopes shortDraw generalID
    [104, 105] shortMessage annsKeys annsClient _ readersClient rfl ⟨rfl, rfl⟩ hencrypt
    ⟨.refl _, by decide +kernel⟩
  exact ⟨hbound.1 noEnvelopes ⟨keyOf 1, by decide +kernel, by decide +kernel,
      distinguishes_empty _, distinguishes_empty _⟩,
    hbound.2 noEnvelopes generalID 2 annsKeys.publicKey (by decide)⟩

end Meza.Crypto
