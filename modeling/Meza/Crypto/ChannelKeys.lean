import Meza.Crypto.Primitives
import Meza.Keys.EnvelopeStore
import Meza.Lib.Retention

/-! # Channel keys of a client

    `channel-keys.ts`: the cache of channel keys, the fetch that fills it from
    the server, and the look-up of one version. The cache keeps three versions
    of a channel; every insertion drops the older ones.

    The look-up goes through the cache even after a fetch, so it finds an old
    version only if fewer than three newer ones are around. -/

namespace Meza.Crypto

open Aead (Bytes)
open Store Action List Retention AList
open Keys (VersionedEnvelope)

/-! ## Section 1: The cache -/

abbrev KeyCache := ID → VersionMap

def maxVersionsPerChannel : Nat := 3

/-- Prune old versions beyond retention limit. -/
def prune (versionMap : VersionMap) : VersionMap :=
  if maxVersionsPerChannel < versionMap.keys.length then
    let versions := versionMap.keys.insertionSort (· ≤ ·)
    let toRemove := versions.take (versionMap.keys.length - maxVersionsPerChannel)
    toRemove.foldl (fun m v => m.erase v) versionMap
  else versionMap

def setCachedKey (cache : KeyCache) (channelID : ID) (version : Nat) (key : Bytes) : KeyCache :=
  Function.update cache channelID (prune ((cache channelID).insert version key))

/-- Check if we have any key for a channel. -/
def hasChannelKey (cache : KeyCache) (channelID : ID) : Bool :=
  !(cache channelID).keys.isEmpty

/-- The latest key version number for a channel, or `none` if none cached. -/
def getLatestKeyVersion (cache : KeyCache) (channelID : ID) : Option Nat :=
  if hasChannelKey cache channelID then some ((cache channelID).keys.foldl max 0) else none

/-! ## Section 2: Fetching -/

/-- What `getKeyEnvelopes` answers for each channel. -/
abbrev EnvelopeServer := ID → Except String (List VersionedEnvelope)

/-- The key in an envelope for this client. -/
def unwrapEnvelope (S : Suite) (sealed : List Aead.Entry) (channelID : ID)
    (identity : IdentityKeypair) (envelope : Bytes) : Except String Bytes := do
  let aad ← buildKeyWrapAAD channelID identity.publicKey
  unwrapChannelKey S sealed envelope identity.secretKey aad

/-- What `wrapKeyForMembers` does for one member. -/
def wrapKeyForMember (S : Suite) (draw : WrapDraw) (channelID : ID) (channelKey edPub : Bytes) :
    CryptoM Bytes := do
  let aad ← .ofExcept (buildKeyWrapAAD channelID edPub)
  wrapChannelKey S draw channelKey edPub aad

/-- The loop body of `doFetchAndCache`. -/
def cacheEnvelope (S : Suite) (channelID : ID) (identity : IdentityKeypair)
    (e : VersionedEnvelope) : CryptoM Unit := do
  let key ← check fun s => unwrapEnvelope S s.sealed channelID identity e.envelope
  Action.modify fun s =>
    { s with channelKeyCache := setCachedKey s.channelKeyCache channelID e.keyVersion key }

/-- Stops at the first envelope that does not unwrap; what is cached by then stays. -/
def doFetchAndCache (S : Suite) (server : EnvelopeServer) (channelID : ID) : CryptoM Unit := do
  let identity ← check fun s =>
    s.identityKeypair.elim (.error "Channel keys not initialized") .ok
  let envelopes ← .ofExcept (server channelID)
  envelopes.forM (cacheEnvelope S channelID identity)

/-- The key of one version. Falls back to server fetch if not cached. -/
def getChannelKey (S : Suite) (server : EnvelopeServer) (channelID : ID) (version : Nat) :
    CryptoM Bytes := do
  let cached ← check fun s => .ok ((s.channelKeyCache channelID).lookup version)
  match cached with
  | some key => return key
  | none =>
    doFetchAndCache S server channelID
    check fun s =>
      ((s.channelKeyCache channelID).lookup version).elim
        (.error s!"Channel key not available: {channelID} v{version}") .ok

variable {key : Bytes} {s s' : CryptoState} {server : EnvelopeServer} {channelID : ID}
  {identity : IdentityKeypair} {keys : List (Nat × Bytes)} {envelopes : List VersionedEnvelope}
  {v : Nat} {S : Suite}

theorem wrapKeyForMember_ok {draw : WrapDraw} {recipient envelope : Bytes}
    (h : wrapKeyForMember S draw channelID key recipient s = .ok envelope s') :
    ∃ aad, buildKeyWrapAAD channelID recipient = .ok aad ∧
      wrapChannelKey S draw key recipient aad s = .ok envelope s' := by
  obtain ⟨aad, s₁, haad, hrest⟩ := bind_ok.mp h
  obtain ⟨haadOk, rfl⟩ := check_ok.mp haad
  exact ⟨aad, haadOk, hrest⟩

theorem unwrapEnvelope_ok {sealed : List Aead.Entry} {envelope channelKey : Bytes}
    (h : unwrapEnvelope S sealed channelID identity envelope = .ok channelKey) :
    ∃ key aad, buildKeyWrapAAD channelID identity.publicKey = .ok aad ∧
      Aead.decrypt sealed key ((envelope.drop 33).take 12) aad (envelope.drop 45) =
        some channelKey := by
  unfold unwrapEnvelope at h
  rcases haad : buildKeyWrapAAD channelID identity.publicKey with msg | aad
  · rw [haad] at h
    cases h
  · rw [haad] at h
    obtain ⟨-, key, hopen⟩ := unwrapChannelKey_ok h
    exact ⟨key, aad, rfl, hopen⟩

/-! ## Section 3: What pruning leaves -/

theorem lookup_foldl_erase (versions : List Nat) (m : VersionMap) (v : Nat) :
    (versions.foldl (fun m w => m.erase w) m).lookup v =
      if v ∈ versions then none else m.lookup v := by
  induction versions generalizing m with
  | nil => simp
  | cons w versions ih =>
    rw [foldl_cons, ih]
    by_cases hv : v ∈ versions
    · simp [hv]
    · by_cases hw : v = w
      · subst hw
        simp [lookup_erase]
      · simp [hv, hw, lookup_erase_ne hw]

section

variable (m : VersionMap)

/-- A version stays if fewer than three cached ones are newer. -/
theorem lookup_prune (v : Nat) :
    (prune m).lookup v =
      if above m.keys.toFinset v < maxVersionsPerChannel then m.lookup v else none := by
  have habsent : v ∉ m.keys → m.lookup v = none := fun h => lookup_eq_none.mpr h
  unfold prune
  by_cases hmany : maxVersionsPerChannel < m.keys.length
  · rw [if_pos hmany, lookup_foldl_erase]
    rw [if_congr (mem_take_insertionSort m.keys_nodup _ v) rfl rfl]
    by_cases hv : v ∈ m.keys
    · by_cases hfew : above m.keys.toFinset v < maxVersionsPerChannel
      · rw [if_neg (by omega), if_pos hfew]
      · rw [if_pos ⟨hv, by omega⟩, if_neg hfew]
    · rw [if_neg (fun h => hv h.1), habsent hv, ite_self]
  · rw [if_neg hmany]
    by_cases hv : v ∈ m.keys
    · have hfew : above m.keys.toFinset v < maxVersionsPerChannel := by
        have hother : m.keys.toFinset.filter (v < ·) ⊆ m.keys.toFinset.erase v := by
          intro w hw
          obtain ⟨hin, hlt⟩ := Finset.mem_filter.mp hw
          exact Finset.mem_erase.mpr ⟨hlt.ne', hin⟩
        have hcard := Finset.card_le_card hother
        have hpos := length_pos_of_mem hv
        rw [Finset.card_erase_of_mem (mem_toFinset.mpr hv),
          toFinset_card_of_nodup m.keys_nodup] at hcard
        unfold above
        omega
      rw [if_pos hfew]
    · rw [habsent hv, ite_self]

theorem mem_keys_iff (v : Nat) : v ∈ m.keys ↔ m.lookup v ≠ none := by
  rw [Ne, lookup_eq_none, not_not]
  exact mem_keys.symm

/-- The cached versions are the three greatest. -/
theorem keys_prune :
    (prune m).keys.toFinset = greatest maxVersionsPerChannel m.keys.toFinset := by
  ext v
  rw [mem_toFinset, mem_keys_iff, lookup_prune, mem_greatest, mem_toFinset, mem_keys_iff]
  by_cases hfew : above m.keys.toFinset v < maxVersionsPerChannel
  · simp [hfew]
  · simp [hfew]

/-! ## Section 4: What a fetch leaves -/

/-- The cached versions after a list of insertions. -/
def cacheAll (keys : List (Nat × Bytes)) (m : VersionMap) : VersionMap :=
  keys.foldl (fun m p => prune (m.insert p.1 p.2)) m

theorem keys_insert_prune (v : Nat) (key : Bytes) :
    (prune (m.insert v key)).keys.toFinset =
      Retention.greatest maxVersionsPerChannel (insert v m.keys.toFinset) := by
  rw [keys_prune]
  congr 1
  ext w
  simp only [List.mem_toFinset, Finset.mem_insert, ← AList.mem_keys, AList.mem_insert]

/-- Whatever was dropped on the way, the three greatest of all versions remain. -/
theorem keys_cacheAll (hne : keys ≠ []) :
    (cacheAll keys m).keys.toFinset =
      greatest maxVersionsPerChannel (m.keys.toFinset ∪ (keys.map (·.1)).toFinset) := by
  induction keys using reverseRecOn with
  | nil => exact absurd rfl hne
  | append_singleton keys p ih =>
    have hlast : cacheAll (keys ++ [p]) m = prune ((cacheAll keys m).insert p.1 p.2) := by
      unfold cacheAll
      rw [foldl_append]
      rfl
    rw [hlast, keys_insert_prune]
    have hunion : m.keys.toFinset ∪ ((keys ++ [p]).map (·.1)).toFinset =
        insert p.1 (m.keys.toFinset ∪ (keys.map (·.1)).toFinset) := by
      ext w
      simp only [map_append, map_cons, map_nil, Finset.mem_union,
        mem_toFinset, mem_append, mem_singleton, Finset.mem_insert]
      tauto
    rw [hunion]
    by_cases hempty : keys = []
    · subst hempty
      simp [cacheAll]
    · rw [ih hempty, greatest_insert_greatest]

theorem lookup_put {w : Nat} (key : Bytes) (h : v ≠ w) :
    (prune (m.insert w key)).lookup v = m.lookup v ∨ (prune (m.insert w key)).lookup v = none := by
  rw [lookup_prune, lookup_insert_ne h]
  split
  · exact .inl rfl
  · exact .inr rfl

theorem lookup_put_self (v : Nat) (key : Bytes) :
    (prune (m.insert v key)).lookup v = some key ∨ (prune (m.insert v key)).lookup v = none := by
  rw [lookup_prune, lookup_insert]
  split
  · exact .inl rfl
  · exact .inr rfl

/-- A version that is not inserted keeps its key or is dropped. -/
theorem lookup_cacheAll_of_notMem (h : v ∉ keys.map (·.1)) :
    (cacheAll keys m).lookup v = m.lookup v ∨ (cacheAll keys m).lookup v = none := by
  induction keys generalizing m with
  | nil => exact .inl rfl
  | cons p keys ih =>
    rw [map_cons, mem_cons, not_or] at h
    rcases ih (prune (m.insert p.1 p.2)) h.2 with hsame | hnone
    · rcases lookup_put m p.2 h.1 with hput | hput
      · exact .inl (hsame.trans hput)
      · exact .inr (hsame.trans hput)
    · exact .inr hnone

/-- A version that is inserted has the inserted key or is dropped. -/
theorem lookup_cacheAll_of_mem (hdistinct : (keys.map (·.1)).Nodup)
    (h : (v, key) ∈ keys) :
    (cacheAll keys m).lookup v = some key ∨ (cacheAll keys m).lookup v = none := by
  induction keys generalizing m with
  | nil => cases h
  | cons p keys ih =>
    obtain ⟨hfirst, hrest⟩ := nodup_cons.mp hdistinct
    rcases mem_cons.mp h with rfl | hin
    · rcases lookup_cacheAll_of_notMem (prune (m.insert v key)) hfirst with hsame | hnone
      · rcases lookup_put_self m v key with hput | hput
        · exact .inl (hsame.trans hput)
        · exact .inr (hsame.trans hput)
      · exact .inr hnone
    · exact ih (prune (m.insert p.1 p.2)) hrest hin

/-- After the insertions a version is there if fewer than three seen ones are newer. -/
theorem lookup_cacheAll_iff (hdistinct : (keys.map (·.1)).Nodup)
    (h : (v, key) ∈ keys) :
    (cacheAll keys m).lookup v = some key ↔
      above (m.keys.toFinset ∪ (keys.map (·.1)).toFinset) v <
        maxVersionsPerChannel := by
  have hne : keys ≠ [] := ne_nil_of_mem h
  have hseen : v ∈ m.keys.toFinset ∪ (keys.map (·.1)).toFinset :=
    Finset.mem_union_right _ (mem_toFinset.mpr (mem_map_of_mem h))
  have hcached : (cacheAll keys m).lookup v ≠ none ↔
      above (m.keys.toFinset ∪ (keys.map (·.1)).toFinset) v <
        maxVersionsPerChannel := by
    rw [← mem_keys_iff, ← mem_toFinset, keys_cacheAll _ hne, mem_greatest]
    exact and_iff_right hseen
  rw [← hcached]
  rcases lookup_cacheAll_of_mem m hdistinct h with hsome | hnone
  · simp [hsome]
  · simp [hnone]

end

/-! ## Section 5: The fetch -/

theorem forM_cacheEnvelope_ok {keyOf : Bytes → Bytes} (h : ∀ e ∈ envelopes,
      unwrapEnvelope S s.sealed channelID identity e.envelope = .ok (keyOf e.envelope)) :
    ∃ s', envelopes.forM (cacheEnvelope S channelID identity) s = .ok () s' ∧
      s'.channelKeyCache channelID =
        cacheAll (envelopes.map fun e => (e.keyVersion, keyOf e.envelope))
          (s.channelKeyCache channelID) := by
  induction envelopes generalizing s with
  | nil => exact ⟨s, rfl, rfl⟩
  | cons e envelopes ih =>
    obtain ⟨hfirst, hrest⟩ := forall_mem_cons.mp h
    let next : CryptoState :=
      { s with
        channelKeyCache := setCachedKey s.channelKeyCache channelID e.keyVersion (keyOf e.envelope) }
    have hstep : cacheEnvelope S channelID identity e s = .ok () next :=
      bind_ok.mpr ⟨keyOf e.envelope, s, check_ok.mpr ⟨hfirst, rfl⟩, rfl⟩
    obtain ⟨s', hrun, hcache⟩ := ih (s := next) hrest
    refine ⟨s', bind_ok.mpr ⟨(), next, hstep, hrun⟩, ?_⟩
    have hnext : next.channelKeyCache channelID =
        prune ((s.channelKeyCache channelID).insert e.keyVersion (keyOf e.envelope)) :=
      Function.update_self channelID _ _
    rw [hcache, hnext]
    rfl

/-- The loop succeeds only if every envelope unwraps. -/
theorem forM_cacheEnvelope_unwraps
    (h : envelopes.forM (cacheEnvelope S channelID identity) s = .ok () s') :
    ∀ e ∈ envelopes, ∃ key, unwrapEnvelope S s.sealed channelID identity e.envelope = .ok key := by
  induction envelopes generalizing s with
  | nil =>
    intro e he
    cases he
  | cons e envelopes ih =>
    obtain ⟨_, s₁, hstep, hrun⟩ := bind_ok.mp h
    obtain ⟨key, s₂, hcheck, hmodify⟩ := bind_ok.mp hstep
    obtain ⟨hunwrap, rfl⟩ := check_ok.mp hcheck
    cases hmodify
    have hlater := ih hrun
    exact forall_mem_cons.mpr ⟨⟨key, hunwrap⟩, hlater⟩

/-! ## Section 6: Looking up a version -/

theorem getChannelKey_of_cached {version : Nat}
    (h : (s.channelKeyCache channelID).lookup version = some key) :
    getChannelKey S server channelID version s = .ok key s := by
  refine bind_ok.mpr ⟨some key, s, check_ok.mpr ⟨?_, rfl⟩, rfl⟩
  rw [h]

/-- A version that is not cached is fetched and then looked up once more. -/
theorem getChannelKey_of_fetched {version : Nat}
    (h : (s.channelKeyCache channelID).lookup version = none) :
    getChannelKey S server channelID version s = .ok key s' ↔
      doFetchAndCache S server channelID s = .ok () s' ∧
        (s'.channelKeyCache channelID).lookup version = some key := by
  constructor
  · intro hrun
    obtain ⟨cached, s₁, hcheck, hrun⟩ := bind_ok.mp hrun
    obtain ⟨hcached, rfl⟩ := check_ok.mp hcheck
    rw [h] at hcached
    cases hcached
    obtain ⟨_, s₂, hfetch, hrun⟩ := bind_ok.mp hrun
    obtain ⟨hlookup, rfl⟩ := check_ok.mp hrun
    refine ⟨hfetch, ?_⟩
    cases hkey : (s'.channelKeyCache channelID).lookup version with
    | none =>
      rw [hkey] at hlookup
      cases hlookup
    | some found =>
      rw [hkey] at hlookup
      cases hlookup
      rfl
  · rintro ⟨hfetch, hkey⟩
    have hcached : check (fun s : CryptoState =>
        (.ok ((s.channelKeyCache channelID).lookup version) : Except String _)) s =
        .ok none s := check_ok.mpr ⟨by rw [h], rfl⟩
    refine bind_ok.mpr ⟨none, s, hcached, ?_⟩
    refine bind_ok.mpr ⟨(), s', hfetch, check_ok.mpr ⟨?_, rfl⟩⟩
    rw [hkey]
    rfl

theorem doFetchAndCache_ok (hidentity : s.identityKeypair = some identity)
    (hserver : server channelID = .ok envelopes) :
    doFetchAndCache S server channelID s = .ok () s' ↔
      envelopes.forM (cacheEnvelope S channelID identity) s = .ok () s' := by
  constructor
  · intro hrun
    obtain ⟨identity', s₁, hcheck, hrun⟩ := bind_ok.mp hrun
    obtain ⟨hidentity', rfl⟩ := check_ok.mp hcheck
    rw [hidentity] at hidentity'
    cases hidentity'
    obtain ⟨envelopes', s₂, hreply, hrun⟩ := bind_ok.mp hrun
    obtain ⟨hreply', rfl⟩ := check_ok.mp hreply
    rw [hserver] at hreply'
    cases hreply'
    exact hrun
  · intro hrun
    refine bind_ok.mpr ⟨identity, s, check_ok.mpr ⟨by rw [hidentity]; rfl, rfl⟩, ?_⟩
    exact bind_ok.mpr ⟨envelopes, s, check_ok.mpr ⟨hserver, rfl⟩, hrun⟩

end Meza.Crypto
