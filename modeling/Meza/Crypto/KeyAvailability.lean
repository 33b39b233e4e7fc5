import Meza.Crypto.ChannelKeys

/-! # Which channel keys a client can get

    A key that was shared with a user stays on the server as an envelope. A
    client that does not have it fetches all envelopes of the channel, puts the
    keys into its cache one by one and then looks into the cache. It gets the
    key of a version if that one survives the insertions and if no envelope on
    the way stops the loop. -/

namespace Meza.Crypto

open Aead (Bytes)
open Store List Action
open Keys (VersionedEnvelope KeyTables)

/-- The versions that are in the cache or in the reply and newer than `version`. -/
def newerVersions (s : CryptoState) (channelID : ID) (envelopes : List VersionedEnvelope)
    (version : Nat) : Nat :=
  Retention.above
    ((s.channelKeyCache channelID).keys.toFinset ∪ (envelopes.map (·.keyVersion)).toFinset) version

/-- A fetch gives the key of an envelope if all envelopes unwrap and few versions are newer. -/
theorem getChannelKey_fetched_iff {S : Suite} {server : EnvelopeServer} {channelID : ID}
    {identity : IdentityKeypair} {envelopes : List VersionedEnvelope} {e : VersionedEnvelope}
    {key : Bytes} {s : CryptoState} (hidentity : s.identityKeypair = some identity)
    (hserver : server channelID = .ok envelopes)
    (hdistinct : (envelopes.map (·.keyVersion)).Nodup) (he : e ∈ envelopes)
    (hunwrap : unwrapEnvelope S s.sealed channelID identity e.envelope = .ok key)
    (hmiss : (s.channelKeyCache channelID).lookup e.keyVersion = none) :
    result (getChannelKey S server channelID e.keyVersion) s = .ok key ↔
      (∀ e' ∈ envelopes, ∃ key',
        unwrapEnvelope S s.sealed channelID identity e'.envelope = .ok key') ∧
      newerVersions s channelID envelopes e.keyVersion < maxVersionsPerChannel := by
  let keyOf : Bytes → Bytes := fun envelope =>
    (unwrapEnvelope S s.sealed channelID identity envelope).toOption.getD []
  let keys := envelopes.map fun e' => (e'.keyVersion, keyOf e'.envelope)
  have hkeys : keys.map (·.1) = envelopes.map (·.keyVersion) := map_map
  have hkey : (e.keyVersion, key) ∈ keys := by
    have hkeyOf : keyOf e.envelope = key := by
      show (unwrapEnvelope S s.sealed channelID identity e.envelope).toOption.getD [] = key
      rw [hunwrap]
      rfl
    exact mem_map.mpr ⟨e, he, by rw [hkeyOf]⟩
  have hsurvives := lookup_cacheAll_iff (s.channelKeyCache channelID)
    (by rw [hkeys]; exact hdistinct) hkey
  rw [hkeys] at hsurvives
  -- where all envelopes unwrap, the loop ends in the cache with all keys inserted
  have hloop : (∀ e' ∈ envelopes, ∃ key',
      unwrapEnvelope S s.sealed channelID identity e'.envelope = .ok key') →
      ∃ s', envelopes.forM (cacheEnvelope S channelID identity) s = .ok () s' ∧
        s'.channelKeyCache channelID = cacheAll keys (s.channelKeyCache channelID) := by
    intro hall
    refine forM_cacheEnvelope_ok ?_
    intro e' he'
    obtain ⟨key', hkey'⟩ := hall e' he'
    show _ = Except.ok ((unwrapEnvelope S s.sealed channelID identity e'.envelope).toOption.getD [])
    rw [hkey']
    rfl
  rw [result_ok]
  constructor
  · rintro ⟨s', hrun⟩
    obtain ⟨hfetch, hlookup⟩ := (getChannelKey_of_fetched hmiss).mp hrun
    have hforM := (doFetchAndCache_ok hidentity hserver).mp hfetch
    have hall := forM_cacheEnvelope_unwraps hforM
    obtain ⟨s'', hforM', hcache⟩ := hloop hall
    rw [hforM] at hforM'
    cases hforM'
    rw [hcache] at hlookup
    exact ⟨hall, hsurvives.mp hlookup⟩
  · rintro ⟨hall, hfew⟩
    obtain ⟨s', hforM, hcache⟩ := hloop hall
    refine ⟨s', (getChannelKey_of_fetched hmiss).mpr ⟨?_, ?_⟩⟩
    · exact (doFetchAndCache_ok hidentity hserver).mpr hforM
    · rw [hcache]
      exact hsurvives.mpr hfew

/-- What a client gets for a version whose envelope unwraps: the key in the envelope, if the
    cache has that key already, or if the cache has none and the fetch goes well. -/
theorem getChannelKey_envelope_iff {S : Suite} {server : EnvelopeServer} {channelID : ID}
    {identity : IdentityKeypair} {envelopes : List VersionedEnvelope} {e : VersionedEnvelope}
    {key : Bytes} {s : CryptoState} (hidentity : s.identityKeypair = some identity)
    (hserver : server channelID = .ok envelopes)
    (hdistinct : (envelopes.map (·.keyVersion)).Nodup) (he : e ∈ envelopes)
    (hunwrap : unwrapEnvelope S s.sealed channelID identity e.envelope = .ok key) :
    result (getChannelKey S server channelID e.keyVersion) s = .ok key ↔
      (s.channelKeyCache channelID).lookup e.keyVersion = some key ∨
      ((s.channelKeyCache channelID).lookup e.keyVersion = none ∧
        (∀ e' ∈ envelopes, ∃ key',
          unwrapEnvelope S s.sealed channelID identity e'.envelope = .ok key') ∧
        newerVersions s channelID envelopes e.keyVersion < maxVersionsPerChannel) := by
  cases hcached : (s.channelKeyCache channelID).lookup e.keyVersion with
  | none =>
    rw [getChannelKey_fetched_iff hidentity hserver hdistinct he hunwrap hcached]
    simp
  | some found =>
    rw [result_ok]
    have hrun : getChannelKey S server channelID e.keyVersion s = .ok found s :=
      getChannelKey_of_cached hcached
    constructor
    · rintro ⟨s', hother⟩
      rw [hrun] at hother
      cases hother
      exact .inl rfl
    · intro h
      have hsame : found = key := by simpa using h
      exact ⟨s, hsame ▸ hrun⟩

/-! ## A channel with four versions -/

def annsKeys : IdentityKeypair := ⟨replicate 32 7, replicate 32 7⟩

def generalID : ID := "01ARZ3NDEKTSV4RRFFQ69G5FAV"

def drawOf (n : UInt8) : WrapDraw where
  nonce := replicate 12 n
  ciphertext := replicate 48 n
  nonceLength := rfl
  ephemeralSecret := replicate 32 n
  secretLength := rfl

/-- The key of version `n`. -/
def keyOf (n : UInt8) : Bytes := replicate 32 (100 + n)

/-- Ann's client with an empty cache, after four versions were wrapped for her. -/
def fourVersions : CryptoState :=
  after
    ([1, 2, 3, 4].forM fun n => do
      discard (wrapKeyForMember plainSuite (drawOf n) generalID (keyOf n) annsKeys.publicKey))
    { identityKeypair := some annsKeys }

/-- The envelope that `drawOf n` makes. -/
def envelopeOf (n : UInt8) : Bytes :=
  2 :: (9 :: replicate 31 n ++ (replicate 12 n ++ replicate 48 n))

def fourEnvelopes : List VersionedEnvelope :=
  [1, 2, 3, 4].map fun n => { keyVersion := n.toNat, envelope := envelopeOf n }

theorem fourEnvelopes_unwrap :
    ∀ e ∈ fourEnvelopes, unwrapEnvelope plainSuite fourVersions.sealed generalID annsKeys
      e.envelope = .ok (keyOf (.ofNat e.keyVersion)) := by
  decide +kernel

theorem getChannelKey_envelope_iff_newest :
    result (getChannelKey plainSuite (fun _ => .ok fourEnvelopes) generalID 4)
      fourVersions = .ok (keyOf 4) :=
  (@getChannelKey_envelope_iff plainSuite (fun _ => .ok fourEnvelopes) generalID annsKeys
    fourEnvelopes { keyVersion := 4, envelope := envelopeOf 4 } (keyOf 4) fourVersions rfl rfl
      (by decide) (by decide +kernel) (by decide +kernel)).mpr
    (Or.inr ⟨rfl, fun e' he' => ⟨_, fourEnvelopes_unwrap e' he'⟩, by decide +kernel⟩)

/-- The first of four versions is not available, though its envelope unwraps. -/
theorem not_getChannelKey_envelope_oldest :
    ¬ ∀ (S : Suite) (server : EnvelopeServer) (channelID : ID) (identity : IdentityKeypair)
      (envelopes : List VersionedEnvelope) (e : VersionedEnvelope) (key : Bytes) (s : CryptoState),
      s.identityKeypair = some identity → server channelID = .ok envelopes →
      (envelopes.map (·.keyVersion)).Nodup → e ∈ envelopes →
      unwrapEnvelope S s.sealed channelID identity e.envelope = .ok key →
      result (getChannelKey S server channelID e.keyVersion) s = .ok key := by
  intro h
  have hkey := h plainSuite (fun _ => .ok fourEnvelopes) generalID annsKeys fourEnvelopes
    { keyVersion := 1, envelope := envelopeOf 1 } (keyOf 1) fourVersions rfl rfl (by decide)
    (by decide +kernel) (by decide +kernel)
  cases hkey

end Meza.Crypto
