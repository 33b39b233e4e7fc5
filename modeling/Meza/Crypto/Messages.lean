import Meza.Crypto.ChannelKeys

/-! # Messages and file keys

    `messages.ts` signs the content of a message and encrypts
    `signature(64) || content`; `file-encryption.ts` wraps the key of a file
    and puts the key version in front, `keyVersion(4) || wrappedKey`. Both
    encrypt under the channel key of the latest version, with associated data
    that names the purpose, the channel and the version. -/

namespace Meza.Crypto

open Aead (Bytes)
open Store Action

/-! ## Section 1: Messages -/

def signatureSize : Nat := 64

structure EncryptedMessage where
  keyVersion : Nat
  data : Bytes
  deriving DecidableEq, Repr

/-- The version to encrypt under. -/
def latestKeyVersion (channelID : ID) : CryptoM Nat :=
  check fun s =>
    (getLatestKeyVersion s.channelKeyCache channelID).elim
      (.error s!"No channel key available for {channelID}") .ok

/-- Sign-then-encrypt. -/
def encryptMessage (S : Suite) (server : EnvelopeServer) (draw : Draw) (channelID : ID)
    (content : Bytes) : CryptoM EncryptedMessage := do
  let identity ← check fun s =>
    s.identity.elim (.error "E2EE session not initialized") .ok
  let keyVersion ← latestKeyVersion channelID
  let channelKey ← getChannelKey S server channelID keyVersion
  let signature := S.sign content identity.secretKey
  let payload := signature ++ content
  let aad ← .ofExcept (buildContextAAD .message channelID keyVersion)
  let data ← encryptPayload draw channelKey payload aad
  return { keyVersion, data }

/-- Decrypt-then-verify. -/
def decryptMessage (S : Suite) (server : EnvelopeServer) (channelID : ID) (keyVersion : Nat)
    (data senderPublicKey : Bytes) : CryptoM Bytes := do
  let channelKey ← getChannelKey S server channelID keyVersion
  let aad ← .ofExcept (buildContextAAD .message channelID keyVersion)
  let payload ← decryptPayload channelKey data aad
  .ofExcept
    (if payload.length < signatureSize then .error "Decrypted payload too short"
    else
      let signature := payload.take signatureSize
      let content := payload.drop signatureSize
      if verifySignature S senderPublicKey signature content then .ok content
      else .error "Message signature verification failed")

/-! ## Section 2: File keys -/

/-- Prepends the key version as 4-byte big-endian. -/
def wrapFileKey (S : Suite) (server : EnvelopeServer) (draw : Draw) (channelID : ID)
    (fileKey : Bytes) : CryptoM Bytes := do
  let keyVersion ← latestKeyVersion channelID
  let channelKey ← getChannelKey S server channelID keyVersion
  let aad ← .ofExcept (buildContextAAD .fileKey channelID keyVersion)
  let wrappedKey ← encryptPayload draw channelKey fileKey aad
  return setUint32 keyVersion ++ wrappedKey

def unwrapFileKey (S : Suite) (server : EnvelopeServer) (channelID : ID)
    (encryptedKey : Bytes) : CryptoM Bytes := do
  if encryptedKey.length < 5 then throw "Invalid encrypted key: too short"
  let keyVersion := getUint32 encryptedKey
  let wrappedKey := encryptedKey.drop 4
  let channelKey ← getChannelKey S server channelID keyVersion
  let aad ← .ofExcept (buildContextAAD .fileKey channelID keyVersion)
  decryptPayload channelKey wrappedKey aad

/-! ## Section 3: What looking up a key leaves alone -/

theorem doFetchAndCache_frame (S : Suite) (server : EnvelopeServer) (channelID : ID)
    (s : CryptoState) :
    Ends (doFetchAndCache S server channelID) s
      (fun _ s' => s'.sealed = s.sealed ∧ s'.aesKeyCache = s.aesKeyCache) (fun _ _ => True) := by
  refine ends_check (fun identity _ => ?_) (fun _ => trivial)
  refine ends_check (fun envelopes _ => ?_) (fun _ => trivial)
  let I : List Keys.VersionedEnvelope → CryptoState → Prop :=
    fun _ s' => s'.sealed = s.sealed ∧ s'.aesKeyCache = s.aesKeyCache
  have hbody : ∀ e rest s₁, I (e :: rest) s₁ →
      Ends (cacheEnvelope S channelID identity e) s₁ (fun _ s' => I rest s') (fun _ _ => True) := by
    intro e rest s₁ h
    refine ends_check (fun key _ => ?_) (fun _ => trivial)
    exact h
  exact ends_forM hbody (show I envelopes s from ⟨rfl, rfl⟩)

variable {data fileKey key : Bytes} {r s s' : CryptoState} {server : EnvelopeServer}
  {channelID : ID} {version : Nat} {S : Suite}

theorem getChannelKey_frame (h : getChannelKey S server channelID version s = .ok key s') :
    s'.sealed = s.sealed ∧ s'.aesKeyCache = s.aesKeyCache := by
  cases hcached : (s.channelKeyCache channelID).lookup version with
  | some found =>
    rw [getChannelKey_of_cached hcached] at h
    cases h
    exact ⟨rfl, rfl⟩
  | none =>
    have hfetch := ((getChannelKey_of_fetched hcached).mp h).1
    have hframe := doFetchAndCache_frame S server channelID s
    unfold Ends at hframe
    rw [hfetch] at hframe
    exact hframe

theorem latestKeyVersion_ok (h : latestKeyVersion channelID s = .ok version s') :
    getLatestKeyVersion s.channelKeyCache channelID = some version ∧ s' = s := by
  obtain ⟨hversion, rfl⟩ := check_ok.mp h
  cases hlatest : getLatestKeyVersion s'.channelKeyCache channelID with
  | none =>
    rw [hlatest] at hversion
    cases hversion
  | some latest =>
    rw [hlatest] at hversion
    cases hversion
    exact ⟨rfl, rfl⟩

/-! ## Section 4: What is encrypted -/

/-- The sealing of a payload under a channel's key: what it adds to the record. -/
def Sealed (s s' : CryptoState) (draw : Draw) (key aad payload : Bytes) : Prop :=
  ∃ aesKey, importable aesKey ∧ (s.aesKeyCache.Distinguishes key → aesKey = key) ∧
    s'.sealed = ⟨aesKey, draw.nonce, aad, payload, draw.ciphertext⟩ :: s.sealed

theorem encryptMessage_ok {draw : Draw} {content : Bytes} {m : EncryptedMessage}
    (h : encryptMessage S server draw channelID content s = .ok m s') :
    ∃ identity key aad, s.identity = some identity ∧
      result (getChannelKey S server channelID m.keyVersion) s = .ok key ∧
      buildContextAAD .message channelID m.keyVersion = .ok aad ∧
      m.data = draw.nonce ++ draw.ciphertext ∧
      Sealed s s' draw key aad (S.sign content identity.secretKey ++ content) := by
  obtain ⟨identity, s₁, hidentity, hrest₁⟩ := bind_ok.mp h
  obtain ⟨hidentityOk, rfl⟩ := check_ok.mp hidentity
  obtain ⟨version, s₂, hversion, hrest₂⟩ := bind_ok.mp hrest₁
  obtain ⟨-, rfl⟩ := latestKeyVersion_ok hversion
  obtain ⟨key, s₃, hkey, hrest₃⟩ := bind_ok.mp hrest₂
  obtain ⟨hsealed, hcache⟩ := getChannelKey_frame hkey
  obtain ⟨aad, s₄, haad, hrest₄⟩ := bind_ok.mp hrest₃
  obtain ⟨haadOk, rfl⟩ := check_ok.mp haad
  obtain ⟨data, s₅, hencrypt, hrest₅⟩ := bind_ok.mp hrest₄
  obtain ⟨rfl, rfl⟩ := pure_ok.mp hrest₅
  obtain ⟨hdata, hrecord⟩ := encryptPayload_ok hencrypt
  rw [hsealed, hcache] at hrecord
  refine ⟨identity, key, aad, ?_, result_ok.mpr ⟨_, hkey⟩, haadOk, hdata, hrecord⟩
  cases hsome : s₂.identity with
  | none =>
    rw [hsome] at hidentityOk
    cases hidentityOk
  | some found =>
    rw [hsome] at hidentityOk
    cases hidentityOk
    rfl

theorem wrapFileKey_ok {draw : Draw} {wrapped : Bytes}
    (h : wrapFileKey S server draw channelID fileKey s = .ok wrapped s') :
    ∃ version key aad, result (getChannelKey S server channelID version) s = .ok key ∧
      buildContextAAD .fileKey channelID version = .ok aad ∧
      wrapped = setUint32 version ++ (draw.nonce ++ draw.ciphertext) ∧
      Sealed s s' draw key aad fileKey := by
  obtain ⟨version, s₂, hversion, hrest₂⟩ := bind_ok.mp h
  obtain ⟨-, rfl⟩ := latestKeyVersion_ok hversion
  obtain ⟨key, s₃, hkey, hrest₃⟩ := bind_ok.mp hrest₂
  obtain ⟨hsealed, hcache⟩ := getChannelKey_frame hkey
  obtain ⟨aad, s₄, haad, hrest₄⟩ := bind_ok.mp hrest₃
  obtain ⟨haadOk, rfl⟩ := check_ok.mp haad
  obtain ⟨data, s₅, hencrypt, hrest₅⟩ := bind_ok.mp hrest₄
  obtain ⟨rfl, rfl⟩ := pure_ok.mp hrest₅
  obtain ⟨hdata, hrecord⟩ := encryptPayload_ok hencrypt
  rw [hsealed, hcache] at hrecord
  subst hdata
  exact ⟨version, key, aad, result_ok.mpr ⟨_, hkey⟩, haadOk, rfl, hrecord⟩

/-! ## Section 5: What is decrypted -/

theorem decryptMessage_ok {sender content : Bytes} {r' : CryptoState}
    (h : decryptMessage S server channelID version data sender r = .ok content r') :
    ∃ aesKey aad payload, buildContextAAD .message channelID version = .ok aad ∧
      Aead.decrypt r.sealed aesKey (data.take 12) aad (data.drop 12) = some payload ∧
      verifySignature S sender (payload.take signatureSize) (payload.drop signatureSize) = true ∧
      content = payload.drop signatureSize := by
  obtain ⟨key, r₁, hkey, hrest₁⟩ := bind_ok.mp h
  obtain ⟨hsealed, -⟩ := getChannelKey_frame hkey
  obtain ⟨aad, r₂, haad, hrest₂⟩ := bind_ok.mp hrest₁
  obtain ⟨haadOk, rfl⟩ := check_ok.mp haad
  obtain ⟨payload, r₃, hdecrypt, hrest₃⟩ := bind_ok.mp hrest₂
  obtain ⟨aesKey, hopen⟩ := decryptPayload_ok hdecrypt
  rw [hsealed] at hopen
  obtain ⟨hverify, rfl⟩ := check_ok.mp hrest₃
  refine ⟨aesKey, aad, payload, haadOk, hopen, ?_⟩
  split at hverify
  · cases hverify
  · dsimp only at hverify
    split at hverify
    · rename_i hvalid
      cases hverify
      exact ⟨hvalid, rfl⟩
    · cases hverify

theorem decryptMessage_of {sender aad payload : Bytes}
    (hkey : result (getChannelKey S server channelID version) r = .ok key)
    (hlength : 28 ≤ data.length) (himport : importable key)
    (hapart : r.aesKeyCache.Distinguishes key)
    (haad : buildContextAAD .message channelID version = .ok aad)
    (hopen : Aead.decrypt r.sealed key (data.take 12) aad (data.drop 12) = some payload)
    (hsize : signatureSize ≤ payload.length)
    (hverify : verifySignature S sender (payload.take signatureSize)
      (payload.drop signatureSize) = true) :
    result (decryptMessage S server channelID version data sender) r =
      .ok (payload.drop signatureSize) := by
  obtain ⟨r₁, hrun⟩ := result_ok.mp hkey
  obtain ⟨hsealed, hcache⟩ := getChannelKey_frame hrun
  rw [← hsealed] at hopen
  rw [← hcache] at hapart
  obtain ⟨r₂, hdecrypt⟩ := decryptPayload_of_decrypt hlength himport hapart hopen
  refine result_ok.mpr ⟨r₂, bind_ok.mpr ⟨key, r₁, hrun, ?_⟩⟩
  refine bind_ok.mpr ⟨aad, r₁, check_ok.mpr ⟨haad, rfl⟩, ?_⟩
  refine bind_ok.mpr ⟨payload, r₂, hdecrypt, check_ok.mpr ⟨?_, rfl⟩⟩
  rw [if_neg (by omega)]
  exact if_pos hverify

theorem unwrapFileKey_ok {r' : CryptoState}
    (h : unwrapFileKey S server channelID data r = .ok fileKey r') :
    ∃ aesKey aad, buildContextAAD .fileKey channelID (getUint32 data) = .ok aad ∧
      Aead.decrypt r.sealed aesKey ((data.drop 4).take 12) aad ((data.drop 4).drop 12) =
        some fileKey := by
  unfold unwrapFileKey at h
  split at h
  · cases h
  · obtain ⟨key, r₁, hkey, hrest₁⟩ := bind_ok.mp h
    obtain ⟨hsealed, -⟩ := getChannelKey_frame hkey
    obtain ⟨aad, r₂, haad, hrest₂⟩ := bind_ok.mp hrest₁
    obtain ⟨haadOk, rfl⟩ := check_ok.mp haad
    obtain ⟨aesKey, hopen⟩ := decryptPayload_ok hrest₂
    rw [hsealed] at hopen
    exact ⟨aesKey, aad, haadOk, hopen⟩

theorem unwrapFileKey_of {aad : Bytes}
    (hkey : result (getChannelKey S server channelID (getUint32 data)) r = .ok key)
    (hlength : 32 ≤ data.length)
    (himport : importable key) (hapart : r.aesKeyCache.Distinguishes key)
    (haad : buildContextAAD .fileKey channelID (getUint32 data) = .ok aad)
    (hopen : Aead.decrypt r.sealed key ((data.drop 4).take 12) aad ((data.drop 4).drop 12) =
    some fileKey) : result (unwrapFileKey S server channelID data) r = .ok fileKey := by
  obtain ⟨r₁, hrun⟩ := result_ok.mp hkey
  obtain ⟨hsealed, hcache⟩ := getChannelKey_frame hrun
  rw [← hsealed] at hopen
  rw [← hcache] at hapart
  have hrest : 28 ≤ (data.drop 4).length := by
    rw [List.length_drop]
    omega
  obtain ⟨r₂, hdecrypt⟩ := decryptPayload_of_decrypt hrest himport hapart hopen
  unfold unwrapFileKey
  rw [if_neg (by omega)]
  refine result_ok.mpr ⟨r₂, bind_ok.mpr ⟨key, r₁, hrun, ?_⟩⟩
  exact bind_ok.mpr ⟨aad, r₁, check_ok.mpr ⟨haad, rfl⟩, hdecrypt⟩

end Meza.Crypto
