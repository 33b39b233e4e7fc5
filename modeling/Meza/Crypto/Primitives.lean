import Mathlib.Data.List.AList
import Meza.Crypto.Aad
import Meza.Lib.Action

/-! # Cryptographic primitives

    `primitives.ts`: signatures, the wrapping of channel keys for a recipient,
    and the encryption of payloads under a channel key. The curve operations
    and the key derivation belong to libraries and are parameters; the cipher
    is the ideal one, whose record all clients share. -/

namespace Meza.Crypto

open Aead (Bytes)
open Store List Action Aead Except

/-! ## Section 1: Libraries -/

structure IdentityKeypair where
  secretKey : Bytes
  publicKey : Bytes
  deriving DecidableEq, Repr

/-- What is used of `ed25519`, of `x25519` and of HKDF. The operations that
    refuse some inputs return an error. -/
structure Suite where
  sign : (content secretKey : Bytes) → Bytes
  verify : (signature content publicKey : Bytes) → Except String Bool
  edPublicKey : (secretKey : Bytes) → Bytes
  toMontgomery : (edPub : Bytes) → Except String Bytes
  toMontgomerySecret : (edSecret : Bytes) → Bytes
  getPublicKey : (secretKey : Bytes) → Bytes
  getSharedSecret : (secretKey publicKey : Bytes) → Except String Bytes
  deriveKey : (shared salt info : Bytes) → Bytes

/-- A keypair as `ed25519.keygen` makes it. -/
structure Suite.IsKeypair (S : Suite) (keypair : IdentityKeypair) : Prop where
  secretLength : keypair.secretKey.length = 32
  publicKey : keypair.publicKey = S.edPublicKey keypair.secretKey

/-- What the wrapping of keys relies on: the two sides of a Diffie-Hellman agreement
    meet, and keys made by `keygen` are not among the rejected ones. -/
structure Suite.Agrees (S : Suite) (lowOrder : Bytes → Prop) : Prop where
  recipient : ∀ secret, secret.length = 32 →
    S.toMontgomery (S.edPublicKey secret) = .ok (S.getPublicKey (S.toMontgomerySecret secret))
  shared : ∀ a b, S.getSharedSecret a (S.getPublicKey b) = S.getSharedSecret b (S.getPublicKey a)
  publicLength : ∀ secret, secret.length = 32 → (S.getPublicKey secret).length = 32
  notLowOrder : ∀ secret, ¬ lowOrder (S.getPublicKey secret)

/-- Ideal signatures: 64 bytes that verify under the signer's key and no other. -/
structure Suite.IdealSignatures (S : Suite) : Prop where
  length : ∀ content secret, secret.length = 32 → (S.sign content secret).length = 64
  verify : ∀ content secret pub, secret.length = 32 →
    (S.verify (S.sign content secret) content pub = .ok true ↔ pub = S.edPublicKey secret)

/-! ## Section 2: Hexadecimal -/

def hexByte (b : UInt8) : List Char :=
  [Nat.digitChar (b.toNat / 16), Nat.digitChar (b.toNat % 16)]

def toHex (bytes : Bytes) : String := .ofList (bytes.flatMap hexByte)

theorem digitChar_inj {a b : Nat} (ha : a < 16) (hb : b < 16)
    (h : Nat.digitChar a = Nat.digitChar b) : a = b := by
  have hall : ∀ x y : Fin 16, Nat.digitChar x = Nat.digitChar y → x = y := by decide
  exact congrArg Fin.val (hall ⟨a, ha⟩ ⟨b, hb⟩ h)

theorem hexByte_inj {a b : UInt8} (h : hexByte a = hexByte b) : a = b := by
  obtain ⟨hhigh, hrest⟩ := cons.inj h
  obtain ⟨hlow, -⟩ := cons.inj hrest
  have ha := a.toNat_lt
  have hb := b.toNat_lt
  have hhigh' := digitChar_inj (by omega) (by omega) hhigh
  have hlow' := digitChar_inj (by omega) (by omega) hlow
  exact UInt8.toNat_inj.mp (by omega)

theorem toHex_injective : Function.Injective toHex := by
  intro a b h
  have hchars : a.flatMap hexByte = b.flatMap hexByte := String.ofList_injective h
  clear h
  induction a generalizing b with
  | nil =>
    cases b with
    | nil => rfl
    | cons y ys => cases hchars
  | cons x xs ih =>
    cases b with
    | nil => cases hchars
    | cons y ys =>
      obtain ⟨hfirst, hrest⟩ := append_inj hchars rfl
      rw [hexByte_inj hfirst, ih hrest]

/-! ## Section 3: State -/

/-- Version → channel key. -/
abbrev VersionMap := AList (fun _ : Nat => Bytes)

inductive KeyUsage where
  | encrypt
  | decrypt
  deriving DecidableEq, Repr

def KeyUsage.text : KeyUsage → String
  | .encrypt => "encrypt"
  | .decrypt => "decrypt"

/-- Keyed by hex(first 16 bytes of key) + usage. -/
def channelKeyCacheKey (rawKey : Bytes) (usage : KeyUsage) : String :=
  toHex (rawKey.take 16) ++ ":" ++ usage.text

/-- The lengths `importKey` takes for AES. -/
def importable (rawKey : Bytes) : Prop :=
  rawKey.length = 16 ∨ rawKey.length = 24 ∨ rawKey.length = 32

instance decidableImportable (rawKey : Bytes) : Decidable (importable rawKey) :=
  inferInstanceAs (Decidable (_ ∨ _ ∨ _))

/-- The imported keys; a `CryptoKey` is the bytes it was imported from. -/
structure AesKeyCache where
  entries : AList (fun _ : String => Bytes)
  keyed : ∀ cacheKey rawKey, entries.lookup cacheKey = some rawKey →
    importable rawKey ∧ ∃ usage, cacheKey = channelKeyCacheKey rawKey usage

def AesKeyCache.empty : AesKeyCache where
  entries := ∅
  keyed := by
    intro cacheKey rawKey h
    rw [AList.lookup_empty] at h
    cases h

def AesKeyCache.set (cache : AesKeyCache) (rawKey : Bytes) (usage : KeyUsage)
    (h : importable rawKey) : AesKeyCache where
  entries := cache.entries.insert (channelKeyCacheKey rawKey usage) rawKey
  keyed := by
    intro cacheKey other hlookup
    by_cases hsame : cacheKey = channelKeyCacheKey rawKey usage
    · subst hsame
      rw [AList.lookup_insert] at hlookup
      cases hlookup
      exact ⟨h, usage, rfl⟩
    · rw [AList.lookup_insert_ne hsame] at hlookup
      exact cache.keyed cacheKey other hlookup

/-- The module state of one client, and the record of the cipher. -/
structure CryptoState where
  /-- of `session.ts` -/
  identity : Option IdentityKeypair := none
  /-- of `channel-keys.ts` -/
  identityKeypair : Option IdentityKeypair := none
  channelKeyCache : ID → VersionMap := fun _ => ∅
  aesKeyCache : AesKeyCache := .empty
  sealed : List Entry := []

abbrev CryptoM := EStateM String CryptoState

def CryptoM.ofExcept {α : Type} (x : Except String α) : CryptoM α := check fun _ => x

/-! ## Section 4: The cipher -/

/-- What one encryption draws: the random nonce and the ciphertext. -/
structure Draw where
  nonce : Bytes
  ciphertext : Bytes
  nonceLength : nonce.length = 12

/-- What one wrapping draws. -/
structure WrapDraw extends Draw where
  ephemeralSecret : Bytes
  secretLength : ephemeralSecret.length = 32

/-- `crypto.subtle.encrypt`. -/
def subtleEncrypt (draw : Draw) (key aad plaintext : Bytes) : CryptoM Bytes := fun s =>
  .ok draw.ciphertext
    { s with sealed := ⟨key, draw.nonce, aad, plaintext, draw.ciphertext⟩ :: s.sealed }

/-- `crypto.subtle.decrypt`. -/
def subtleDecrypt (sealed : List Entry) (key nonce aad ciphertext : Bytes) : Except String Bytes :=
  match decrypt sealed key nonce aad ciphertext with
  | some plaintext => .ok plaintext
  | none => .error "OperationError"

def getAesKey (rawKey : Bytes) (usage : KeyUsage) : CryptoM Bytes := fun s =>
  match s.aesKeyCache.entries.lookup (channelKeyCacheKey rawKey usage) with
  | some cached => .ok cached s
  | none =>
    if h : importable rawKey then
      .ok rawKey { s with aesKeyCache := s.aesKeyCache.set rawKey usage h }
    else .error "DataError" s

/-- Packs `nonce(12) || ciphertext`. -/
def encryptPayload (draw : Draw) (channelKey plaintext aad : Bytes) : CryptoM Bytes := do
  let aesKey ← getAesKey channelKey .encrypt
  let ciphertext ← subtleEncrypt draw aesKey aad plaintext
  return draw.nonce ++ ciphertext

def decryptPayload (channelKey noncePlusCiphertext aad : Bytes) : CryptoM Bytes := do
  if noncePlusCiphertext.length < 28 then throw "Ciphertext too short"
  let nonce := noncePlusCiphertext.take 12
  let ciphertext := noncePlusCiphertext.drop 12
  let aesKey ← getAesKey channelKey .decrypt
  check fun s => subtleDecrypt s.sealed aesKey nonce aad ciphertext

/-! ## Section 5: Signatures and key wrapping -/

/-- Verification that throws counts as a failed one. -/
def verifySignature (S : Suite) (publicKey signature content : Bytes) : Bool :=
  match S.verify signature content publicKey with
  | .ok valid => valid
  | .error _ => false

/-- Known X25519 low-order points that produce all-zero shared secrets. -/
def x25519LowOrderPoints : List String :=
  ["0000000000000000000000000000000000000000000000000000000000000000",
   "0100000000000000000000000000000000000000000000000000000000000000",
   "ecffffffffffffffffffffffffffffffffffffffffffffffffffffffffffff7f",
   "e0eb7a7c3b41b8ae1656e3faf19fc46ada098deb9c32b1fd866205165f49b800",
   "5f9c95bca3508c24b1d0b1559c83ef5b04445cc4581c8e86d8224eddd09f1157"]

def lowOrder (pub : Bytes) : Prop := x25519LowOrderPoints.contains (toHex pub) = true

instance decidableLowOrder (pub : Bytes) : Decidable (lowOrder pub) :=
  inferInstanceAs (Decidable (_ = true))

def rejectLowOrderPoint (pub : Bytes) (label : String) : Except String Unit :=
  if lowOrder pub then .error s!"{label} is a low-order point" else .ok ()

def keyWrapInfo : Bytes := encode "meza-key-wrap-v1"

/-- Envelope version byte indicating AAD-bound ECIES wrapping. -/
def envelopeVersion : UInt8 := 0x02

/-- `0x` and two hexadecimal digits. -/
def hexLiteral (b : UInt8) : String := "0x" ++ .ofList (hexByte b)

/-- The key that the holder of one secret and the owner of one public key share.
    HKDF salt = ephemeral_pub || recipient_x25519_pub. -/
def wrappingKey (S : Suite) (secret pub ephemeralPub recipientPub : Bytes) :
    Except String Bytes := do
  let shared ← S.getSharedSecret secret pub
  return S.deriveKey shared (ephemeralPub ++ recipientPub) keyWrapInfo

/-- Packs `version(1) || ephemeral_pub(32) || nonce(12) || wrapped(48)`. -/
def wrapChannelKey (S : Suite) (draw : WrapDraw) (channelKey recipientEdPub aad : Bytes) :
    CryptoM Bytes := do
  let recipientX25519Pub ← .ofExcept (S.toMontgomery recipientEdPub)
  .ofExcept (rejectLowOrderPoint recipientX25519Pub "recipient X25519 public key")
  let ephemeralPub := S.getPublicKey draw.ephemeralSecret
  let key ← .ofExcept
    (wrappingKey S draw.ephemeralSecret recipientX25519Pub ephemeralPub recipientX25519Pub)
  let wrapped ← subtleEncrypt draw.toDraw key aad channelKey
  return envelopeVersion :: (ephemeralPub ++ (draw.nonce ++ wrapped))

def unwrapChannelKey (S : Suite) (sealed : List Entry) (envelope edSecretKey aad : Bytes) :
    Except String Bytes := do
  let size := envelope.length
  let version := envelope.headD 0
  if size ≠ 93 then .error s!"Invalid envelope size: expected 93, got {size}"
  else if version ≠ envelopeVersion then
    .error ("Invalid envelope version: expected " ++ hexLiteral envelopeVersion ++ ", got " ++
      hexLiteral version)
  else do
    let ephemeralPub := (envelope.drop 1).take 32
    let nonce := (envelope.drop 33).take 12
    let wrapped := envelope.drop 45
    rejectLowOrderPoint ephemeralPub "ephemeral X25519 public key"
    let myX25519Secret := S.toMontgomerySecret edSecretKey
    let myX25519Pub := S.getPublicKey myX25519Secret
    let key ← wrappingKey S myX25519Secret ephemeralPub ephemeralPub myX25519Pub
    subtleDecrypt sealed key nonce aad wrapped

/-! ## Section 6: The key cache -/

/-- No other key in the cache has the first 16 bytes of this one. -/
def AesKeyCache.Distinguishes (cache : AesKeyCache) (rawKey : Bytes) : Prop :=
  ∀ cacheKey other, cache.entries.lookup cacheKey = some other →
    other.take 16 = rawKey.take 16 → other = rawKey

theorem channelKeyCacheKey_inj {a b : Bytes} {usage usage' : KeyUsage}
    (h : channelKeyCacheKey a usage = channelKeyCacheKey b usage') : a.take 16 = b.take 16 := by
  have hchars := congrArg String.toList h
  simp only [channelKeyCacheKey, String.toList_append, append_assoc] at hchars
  have hwidth : (":".toList ++ usage.text.toList).length =
      (":".toList ++ usage'.text.toList).length := by
    have htext : ∀ u : KeyUsage, u.text.toList.length = 7 := by
      intro u
      cases u <;> simp [KeyUsage.text]
    rw [length_append, length_append, htext, htext]
  have hhex := (append_inj' hchars hwidth).1
  exact toHex_injective (String.toList_injective hhex)

variable {aad channelKey data envelope plaintext : Bytes} {s s' : CryptoState}
  {sealed : List Entry} {S : Suite}

/-- What an import or a look-up in the cache gives, and what it leaves alone. -/
theorem getAesKey_ok {rawKey aesKey : Bytes} {usage : KeyUsage}
    (h : getAesKey rawKey usage s = .ok aesKey s') :
    importable aesKey ∧ (s.aesKeyCache.Distinguishes rawKey → aesKey = rawKey) ∧
      s'.sealed = s.sealed := by
  unfold getAesKey at h
  split at h
  · rename_i cached hcached
    cases h
    obtain ⟨himport, usage', hkey⟩ := s.aesKeyCache.keyed _ _ hcached
    exact ⟨himport, fun hapart => hapart _ _ hcached (channelKeyCacheKey_inj hkey.symm), rfl⟩
  · split at h
    · rename_i himport
      cases h
      exact ⟨himport, fun _ => rfl, rfl⟩
    · cases h

theorem getAesKey_of_importable {rawKey : Bytes} (usage : KeyUsage) (himport : importable rawKey)
    (hapart : s.aesKeyCache.Distinguishes rawKey) :
    ∃ s', getAesKey rawKey usage s = .ok rawKey s' := by
  rcases hrun : getAesKey rawKey usage s with ⟨aesKey, s'⟩ | ⟨msg, s'⟩
  · rw [(getAesKey_ok hrun).2.1 hapart]
    exact ⟨s', rfl⟩
  · unfold getAesKey at hrun
    split at hrun
    · cases hrun
    · rw [dif_pos himport] at hrun
      cases hrun

/-! ## Section 7: Payloads -/

theorem subtleDecrypt_ok {key nonce ciphertext : Bytes} :
    subtleDecrypt sealed key nonce aad ciphertext = .ok plaintext ↔
      decrypt sealed key nonce aad ciphertext = some plaintext := by
  unfold subtleDecrypt
  split
  · rename_i p hp
    rw [hp, ok.injEq, Option.some.injEq]
  · rename_i hp
    rw [hp]
    simp

theorem encryptPayload_ok {draw : Draw}
    (h : encryptPayload draw channelKey plaintext aad s = .ok data s') :
    data = draw.nonce ++ draw.ciphertext ∧
      ∃ aesKey, importable aesKey ∧ (s.aesKeyCache.Distinguishes channelKey → aesKey = channelKey) ∧
        s'.sealed = ⟨aesKey, draw.nonce, aad, plaintext, draw.ciphertext⟩ :: s.sealed := by
  obtain ⟨aesKey, s₁, hkey, h⟩ := bind_ok.mp h
  obtain ⟨himport, hsame, hsealed⟩ := getAesKey_ok hkey
  obtain ⟨ciphertext, s₂, hencrypt, h⟩ := bind_ok.mp h
  cases hencrypt
  obtain ⟨rfl, rfl⟩ := pure_ok.mp h
  refine ⟨rfl, aesKey, himport, hsame, ?_⟩
  show _ :: s₁.sealed = _
  rw [hsealed]

theorem decryptPayload_ok (h : decryptPayload channelKey data aad s = .ok plaintext s') :
    ∃ aesKey, decrypt s.sealed aesKey (data.take 12) aad (data.drop 12) = some plaintext := by
  unfold decryptPayload at h
  split at h
  · cases h
  · obtain ⟨aesKey, s₁, hkey, h⟩ := bind_ok.mp h
    have hsealed := (getAesKey_ok hkey).2.2
    obtain ⟨hopen, -⟩ := check_ok.mp h
    rw [hsealed] at hopen
    exact ⟨aesKey, subtleDecrypt_ok.mp hopen⟩

theorem decryptPayload_of_decrypt (hlength : 28 ≤ data.length)
    (himport : importable channelKey) (hapart : s.aesKeyCache.Distinguishes channelKey)
    (hopen : decrypt s.sealed channelKey (data.take 12) aad (data.drop 12) = some plaintext) :
    ∃ s', decryptPayload channelKey data aad s = .ok plaintext s' := by
  obtain ⟨s₁, hkey⟩ := getAesKey_of_importable .decrypt himport hapart
  have hsealed := (getAesKey_ok hkey).2.2
  unfold decryptPayload
  rw [if_neg (by omega)]
  refine ⟨s₁, bind_ok.mpr ⟨channelKey, s₁, hkey, check_ok.mpr ⟨?_, rfl⟩⟩⟩
  rw [hsealed]
  exact subtleDecrypt_ok.mpr hopen

/-! ## Section 8: Envelopes -/

theorem rejectLowOrderPoint_ok {pub : Bytes} {label : String} :
    rejectLowOrderPoint pub label = .ok () ↔ ¬ lowOrder pub := by
  unfold rejectLowOrderPoint
  split
  · simp_all
  · simp_all

/-- What a wrapping adds to the record, and the envelope around it. -/
theorem wrapChannelKey_ok {draw : WrapDraw} {recipient : Bytes}
    (h : wrapChannelKey S draw channelKey recipient aad s = .ok envelope s') :
    ∃ recipientPub key, S.toMontgomery recipient = .ok recipientPub ∧
      wrappingKey S draw.ephemeralSecret recipientPub (S.getPublicKey draw.ephemeralSecret)
        recipientPub = .ok key ∧
      envelope = envelopeVersion ::
        (S.getPublicKey draw.ephemeralSecret ++ (draw.nonce ++ draw.ciphertext)) ∧
      s' = { s with sealed := ⟨key, draw.nonce, aad, channelKey, draw.ciphertext⟩ :: s.sealed } := by
  obtain ⟨recipientPub, s₁, hpub, hrest₁⟩ := bind_ok.mp h
  obtain ⟨hpubOk, rfl⟩ := check_ok.mp hpub
  obtain ⟨_, s₂, hreject, hrest₂⟩ := bind_ok.mp hrest₁
  obtain ⟨-, rfl⟩ := check_ok.mp hreject
  obtain ⟨key, s₃, hkey, hrest₃⟩ := bind_ok.mp hrest₂
  obtain ⟨hkeyOk, rfl⟩ := check_ok.mp hkey
  obtain ⟨wrapped, s₄, hencrypt, hrest₄⟩ := bind_ok.mp hrest₃
  cases hencrypt
  obtain ⟨rfl, rfl⟩ := pure_ok.mp hrest₄
  exact ⟨recipientPub, key, hpubOk, hkeyOk, rfl, rfl⟩

/-- An envelope that unwraps holds a sealing of the record, under the same associated data. -/
theorem unwrapChannelKey_ok {secret : Bytes}
    (h : unwrapChannelKey S sealed envelope secret aad = .ok channelKey) :
    envelope.length = 93 ∧ ∃ key,
      decrypt sealed key ((envelope.drop 33).take 12) aad (envelope.drop 45) = some channelKey := by
  unfold unwrapChannelKey at h
  dsimp only at h
  split at h
  · cases h
  · rename_i hlength
    refine ⟨not_not.mp hlength, ?_⟩
    split at h
    · cases h
    · rcases hreject : rejectLowOrderPoint ((envelope.drop 1).take 32)
        "ephemeral X25519 public key" with msg | _
      · rw [hreject] at h
        cases h
      · rw [hreject] at h
        rcases hkey : wrappingKey S (S.toMontgomerySecret secret) ((envelope.drop 1).take 32)
          ((envelope.drop 1).take 32) (S.getPublicKey (S.toMontgomerySecret secret)) with msg | key
        · rw [hkey] at h
          cases h
        · rw [hkey] at h
          exact ⟨key, subtleDecrypt_ok.mp h⟩

/-- The recipient gets back the key that was wrapped for it. -/
theorem unwrapChannelKey_wrapChannelKey (hS : S.Agrees lowOrder) {draw : WrapDraw} {secret : Bytes}
    (hsecret : secret.length = 32) (hkeyLength : channelKey.length = 32)
    (h : wrapChannelKey S draw channelKey (S.edPublicKey secret) aad s = .ok envelope s')
    (hideal : Ideal sealed) (hrecord : s'.sealed ⊆ sealed) :
    unwrapChannelKey S sealed envelope secret aad = .ok channelKey := by
  obtain ⟨recipientPub, key, hpub, hkey, rfl, rfl⟩ := wrapChannelKey_ok h
  rw [hS.recipient secret hsecret] at hpub
  cases hpub
  have hmem : (⟨key, draw.nonce, aad, channelKey, draw.ciphertext⟩ : Entry) ∈ sealed :=
    hrecord mem_cons_self
  have hopen := hideal.decrypt_of_mem hmem
  have hcipher : draw.ciphertext.length = 48 := by
    have := hideal.length _ hmem
    simp only [hkeyLength] at this
    exact this
  have hpubLength := hS.publicLength draw.ephemeralSecret draw.secretLength
  have hnonce := draw.nonceLength
  set ephemeralPub := S.getPublicKey draw.ephemeralSecret with hephemeral
  set envelope := envelopeVersion :: (ephemeralPub ++ (draw.nonce ++ draw.ciphertext))
  -- the slices of the envelope
  have hsize : envelope.length = 93 := by
    show (envelopeVersion :: (ephemeralPub ++ (draw.nonce ++ draw.ciphertext))).length = 93
    simp [hpubLength, hnonce, hcipher]
  have hfirst : (envelope.drop 1).take 32 = ephemeralPub := by
    show (ephemeralPub ++ (draw.nonce ++ draw.ciphertext)).take 32 = ephemeralPub
    rw [take_left' hpubLength]
  have hrest : envelope.drop 33 = draw.nonce ++ draw.ciphertext := by
    show (ephemeralPub ++ (draw.nonce ++ draw.ciphertext)).drop 32 = _
    rw [drop_left' hpubLength]
  have hwrapped : envelope.drop 45 = draw.ciphertext := by
    have : envelope.drop 45 = (envelope.drop 33).drop 12 := by rw [drop_drop]
    rw [this, hrest, drop_left' hnonce]
  have hagreed : wrappingKey S (S.toMontgomerySecret secret) ephemeralPub ephemeralPub
      (S.getPublicKey (S.toMontgomerySecret secret)) = .ok key := by
    unfold wrappingKey at hkey ⊢
    rw [hephemeral, ← hS.shared]
    exact hkey
  have hreject : rejectLowOrderPoint ephemeralPub "ephemeral X25519 public key" = .ok () :=
    rejectLowOrderPoint_ok.mpr (hS.notLowOrder _)
  unfold unwrapChannelKey
  rw [if_neg (not_not_intro hsize)]
  have hversion : envelope.headD 0 = envelopeVersion := rfl
  rw [if_neg (not_not_intro hversion), hfirst, hrest, hwrapped, take_left' hnonce]
  dsimp only
  rw [hreject]
  show (wrappingKey S _ _ _ _ >>= _) = _
  rw [hagreed]
  exact subtleDecrypt_ok.mpr hopen

/-! ## Section 9: A suite for runs by hand

    Keypairs are their secret, a shared secret is a sum, and a signature starts
    with its signer. Nothing is kept secret, but all the laws hold. -/

def plainSuite : Suite where
  sign _ secretKey := secretKey ++ .replicate 32 0
  verify signature _ publicKey := .ok (signature.take 32 == publicKey)
  edPublicKey secretKey := secretKey
  toMontgomery edPub := .ok (9 :: edPub.tail)
  toMontgomerySecret edSecret := edSecret
  getPublicKey secretKey := 9 :: secretKey.tail
  getSharedSecret secretKey publicKey := .ok (.zipWith (· + ·) secretKey.tail publicKey.tail)
  deriveKey shared _ _ := shared

theorem plainSuite_idealSignatures : plainSuite.IdealSignatures where
  length content secret hsecret := by
    show (secret ++ replicate 32 0).length = 64
    rw [length_append, length_replicate, hsecret]
  verify content secret pub hsecret := by
    show (ok ((secret ++ replicate 32 0).take 32 == pub) : Except String Bool) = .ok true ↔ _
    rw [take_left' hsecret, ok.injEq, beq_iff_eq]
    exact eq_comm

theorem plainSuite_agrees : plainSuite.Agrees lowOrder where
  recipient secret _ := rfl
  shared a b := by
    show ok (zipWith (· + ·) a.tail b.tail) =
      (ok (zipWith (· + ·) b.tail a.tail) : Except String Bytes)
    rw [zipWith_comm_of_comm UInt8.add_comm]
  publicLength secret hsecret := by
    show (9 :: secret.tail).length = 32
    rw [length_cons, length_tail, hsecret]
  notLowOrder secret := by
    -- the second digit of the key is a 9
    have hnine : (toHex (9 :: secret.tail)).toList[1]? = some '9' := by
      unfold toHex
      rw [String.toList_ofList]
      show some (Nat.digitChar ((9 : UInt8).toNat % 16)) = some '9'
      decide
    have htable : ∀ p ∈ x25519LowOrderPoints, p.toList[1]? ≠ some '9' := by decide
    intro hlow
    exact htable _ (contains_iff_mem.mp hlow) hnine

end Meza.Crypto
