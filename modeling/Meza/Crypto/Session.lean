import Meza.Crypto.ChannelKeys
import Meza.Lib.Pool

/-! # The session of a tab

    `session.ts`, and what it uses of `channel-keys.ts`: `bootstrapSession` brings
    the keys of a user into memory, `teardownSession` takes them out again. Both
    wait many times on the way, and so do the fetches of channel keys and the
    debounced writes of the key cache; what they work on are variables of the two
    modules and three storages.

    Nothing tells a call that goes on after a wait that there has been a logout
    in between. -/

namespace Meza.Crypto.Session

open Aead (Bytes)
open Store (ID)

/-! ## Section 1: State -/

/-- What `meza-mk` holds. -/
inductive Blob where
  /-- A master key, encrypted with a session key. -/
  | wrapped (sessionKey masterKey : Bytes)
  | malformed
  deriving DecidableEq, Repr

def Blob.decrypt (sessionKey : Bytes) : Blob → Option Bytes
  | .wrapped sk masterKey => if sk = sessionKey then some masterKey else none
  | .malformed => none

/-- channelId → (version → channelKey) -/
abbrev KeyMap := AList fun _ : ID => VersionMap

/-- The record of `channel-keys`: a key cache, encrypted with a master key. -/
structure ChannelKeysRecord where
  masterKey : Bytes
  cache : KeyMap

structure SessionState where
  sessionReady : Bool := false
  /-- `bootstrapPromise` is set. -/
  bootstrapping : Bool := false
  identity : Option IdentityKeypair := none
  /-- `syncChannel` is open. -/
  responding : Bool := false
  identityKeypair : Option IdentityKeypair := none
  masterKey : Option Bytes := none
  channelKeyCache : KeyMap := ∅
  /-- `persistTimeout` is set. -/
  persistScheduled : Bool := false
  fetchInFlight : List ID := []
  /-- `meza-mk` in localStorage. -/
  wrappedMasterKey : Option Blob := none
  /-- `meza-sk` in sessionStorage. -/
  sessionKey : Option Bytes := none
  /-- `channel-keys` in IndexedDB. -/
  channelKeys : Option ChannelKeysRecord := none
  /-- `teardownSession` has been called, and no `bootstrapSession` since. -/
  loggedOut : Bool := false

def setCachedKey (cache : KeyMap) (channelID : ID) (version : Nat) (key : Bytes) : KeyMap :=
  cache.insert channelID (prune (((cache.lookup channelID).getD ∅).insert version key))

/-- The look-ups of a key cache. -/
def KeyMap.toCache (cache : KeyMap) : KeyCache := fun channelID => (cache.lookup channelID).getD ∅

/-- `channelKeyCache.set` for every channel of a record. -/
def deserializeCache (cache stored : KeyMap) : KeyMap :=
  stored.entries.foldl (fun m e => m.insert e.1 e.2) cache

/-- What `persistToStorage` writes, as it is at the time of the call. -/
def SessionState.snapshot (s : SessionState) : Option ChannelKeysRecord :=
  s.masterKey.map fun masterKey => { masterKey, cache := s.channelKeyCache }

/-- `flushChannelKeys` has something to write. -/
def SessionState.unsaved (s : SessionState) : Option ChannelKeysRecord :=
  if s.channelKeyCache.entries.isEmpty then none else s.snapshot

/-- `clearChannelKeyCache` and `clearMasterKey`, and no more responses to other tabs. -/
def SessionState.clear (s : SessionState) : SessionState :=
  { s with
    persistScheduled := false
    channelKeyCache := ∅
    fetchInFlight := []
    identityKeypair := none
    masterKey := none
    wrappedMasterKey := none
    sessionKey := none
    responding := false }

/-! ## Section 2: Calls -/

inductive Call where
  | bootstrapSession (masterKey : Option Bytes)
  | teardownSession
  | fetchAndCacheChannelKeys (channelID : ID)
  /-- The timer of `schedulePersist` fires. -/
  | persistTimer
  /-- The tab is hidden. -/
  | flushChannelKeys

/-- Where a call waits. -/
inductive Phase where
  | bootBegun (masterKey : Option Bytes)
  /-- `loadMasterKey` has found no master key. -/
  | missing
  /-- Another tab is asked for the session key. -/
  | asking (blob : Blob)
  | opening (blob : Blob) (sessionKey : Bytes)
  /-- `restoreIdentity`; a master key that was given is stored afterwards. -/
  | restoring (masterKey : Bytes) (given : Bool)
  | wrapping (masterKey : Bytes) (identity : IdentityKeypair)
  | initialising (masterKey : Bytes) (identity : IdentityKeypair)
  | loading
  | loaded (record : ChannelKeysRecord)
  | decrypting (record : ChannelKeysRecord) (masterKey : Option Bytes)
  /-- The record did not decrypt. -/
  | discarding
  | finishing
  | tearBegun
  | flushing (record : ChannelKeysRecord)
  /-- The search index is reset. -/
  | resetting
  /-- `clearCryptoStorage`. -/
  | wiping
  | ending
  | fetchBegun (channelID : ID)
  | fetching (channelID : ID)
  | unwrapping (channelID : ID) (version : Nat) (rest : List Nat)
  | timerBegun
  | flushBegun
  | persisting (record : ChannelKeysRecord)
  | finished

def Phase.begin : Call → Phase
  | .bootstrapSession masterKey => .bootBegun masterKey
  | .teardownSession => .tearBegun
  | .fetchAndCacheChannelKeys channelID => .fetchBegun channelID
  | .persistTimer => .timerBegun
  | .flushChannelKeys => .flushBegun

/-- What a call has waited for. -/
structure Outcome where
  /-- The response of another tab. -/
  peerKey : Option Bytes := none
  /-- The identity in the key bundle, if the master key decrypts it. -/
  restored : Option IdentityKeypair := none
  /-- The random session key. -/
  sessionKey : Bytes := []
  /-- The versions that `getKeyEnvelopes` returns. -/
  envelopes : Option (List Nat) := none
  /-- The channel key in an envelope. -/
  unwrapped : Option Bytes := none
  /-- A read or a write of IndexedDB fails. -/
  failed : Bool := false

/-- The end of `doBootstrap`, without a session. -/
def SessionState.abandon (s : SessionState) : SessionState := { s with bootstrapping := false }

/-- `identityKeypair.publicKey` of the next envelope: an error after a logout. -/
def nextEnvelope (s : SessionState) (channelID : ID) : List Nat → SessionState × Phase
  | [] =>
    ({ s with persistScheduled := true, fetchInFlight := s.fetchInFlight.erase channelID },
      .finished)
  | version :: rest =>
    if s.identityKeypair.isSome then (s, .unwrapping channelID version rest)
    else ({ s with fetchInFlight := s.fetchInFlight.erase channelID }, .finished)

/-- `bootstrapSession`, up to the first wait. -/
def beginBootstrap (s : SessionState) (masterKey : Option Bytes) : SessionState × Phase :=
  let s := { s with loggedOut := false }
  if s.sessionReady || s.bootstrapping then (s, .finished)
  else match masterKey with
  | some key => ({ s with bootstrapping := true }, .restoring key true)
  | none =>
    match s.wrappedMasterKey with
    | none => ({ s with bootstrapping := true }, .missing)
    | some blob =>
      match s.sessionKey with
      | some sessionKey => ({ s with bootstrapping := true }, .opening blob sessionKey)
      | none => ({ s with bootstrapping := true }, .asking blob)

def bootstrapStep (s : SessionState) (o : Outcome) : Phase → Option (SessionState × Phase)
  | .bootBegun masterKey => some (beginBootstrap s masterKey)
  | .missing => some (s.abandon, .finished)
  | .asking blob =>
    match o.peerKey with
    | some peerKey => some (s, .opening blob peerKey)
    | none => some (s.abandon, .finished)
  | .opening blob sessionKey =>
    match blob.decrypt sessionKey with
    | some masterKey => some ({ s with sessionKey := some sessionKey }, .restoring masterKey false)
    | none => some (s.abandon, .finished)
  | .restoring masterKey given =>
    match o.restored with
    | none => some (s.abandon, .finished)
    | some identity =>
      if given then some (s, .wrapping masterKey identity)
      else some (s, .initialising masterKey identity)
  | .wrapping masterKey identity =>
    some ({ s with
      sessionKey := some o.sessionKey
      wrappedMasterKey := some (.wrapped o.sessionKey masterKey) },
      .initialising masterKey identity)
  | .initialising masterKey identity =>
    some ({ s with
      identity := some identity
      identityKeypair := some identity
      masterKey := some masterKey }, .loading)
  | .loading =>
    if o.failed then some (s, .finishing)
    else match s.channelKeys with
    | none => some (s, .finishing)
    | some record => some (s, .loaded record)
  | .loaded record => some (s, .decrypting record s.masterKey)
  | .decrypting record masterKey =>
    if masterKey = some record.masterKey then
      some ({ s with channelKeyCache := deserializeCache s.channelKeyCache record.cache },
        .finishing)
    else some (s, .discarding)
  | .discarding =>
    if o.failed then some (s, .finishing) else some ({ s with channelKeys := none }, .finishing)
  | .finishing =>
    some ({ s with sessionReady := true, responding := true, bootstrapping := false }, .finished)
  | _ => none

def teardownStep (s : SessionState) (o : Outcome) : Phase → Option (SessionState × Phase)
  | .tearBegun =>
    match s.unsaved with
    | some record =>
      some ({ s with loggedOut := true, persistScheduled := false }, .flushing record)
    | none => some ({ s with loggedOut := true, persistScheduled := false }, .resetting)
  | .flushing record =>
    if o.failed then some (s, .resetting)
    else some ({ s with channelKeys := some record }, .resetting)
  | .resetting => some (s.clear, .wiping)
  | .wiping =>
    if o.failed then some (s, .ending) else some ({ s with channelKeys := none }, .ending)
  | .ending => some ({ s with identity := none, sessionReady := false }, .finished)
  | _ => none

def fetchStep (s : SessionState) (o : Outcome) : Phase → Option (SessionState × Phase)
  | .fetchBegun channelID =>
    if channelID ∈ s.fetchInFlight ∨ s.identityKeypair = none then some (s, .finished)
    else some ({ s with fetchInFlight := channelID :: s.fetchInFlight }, .fetching channelID)
  | .fetching channelID =>
    match o.envelopes with
    | none | some [] =>
      some ({ s with fetchInFlight := s.fetchInFlight.erase channelID }, .finished)
    | some (version :: rest) => some (nextEnvelope s channelID (version :: rest))
  | .unwrapping channelID version rest =>
    match o.unwrapped with
    | none => some ({ s with fetchInFlight := s.fetchInFlight.erase channelID }, .finished)
    | some key =>
      some (nextEnvelope
        { s with channelKeyCache := setCachedKey s.channelKeyCache channelID version key }
        channelID rest)
  | _ => none

def persistStep (s : SessionState) (o : Outcome) : Phase → Option (SessionState × Phase)
  | .timerBegun =>
    if s.persistScheduled then
      match s.snapshot with
      | some record => some ({ s with persistScheduled := false }, .persisting record)
      | none => some ({ s with persistScheduled := false }, .finished)
    else some (s, .finished)
  | .flushBegun =>
    match s.unsaved with
    | some record => some ({ s with persistScheduled := false }, .persisting record)
    | none => some ({ s with persistScheduled := false }, .finished)
  | .persisting record =>
    if o.failed then some (s, .finished)
    else some ({ s with channelKeys := some record }, .finished)
  | _ => none

/-- One stretch of a call between two waits. -/
def next (s : SessionState) (_ : List Phase) (p : Phase) (o : Outcome) :
    Option (SessionState × Phase) :=
  match p with
  | .bootBegun _ | .missing | .asking _ | .opening _ _ | .restoring _ _ | .wrapping _ _
  | .initialising _ _ | .loading | .loaded _ | .decrypting _ _ | .discarding
  | .finishing => bootstrapStep s o p
  | .tearBegun | .flushing _ | .resetting | .wiping | .ending => teardownStep s o p
  | .fetchBegun _ | .fetching _ | .unwrapping _ _ _ => fetchStep s o p
  | .timerBegun | .flushBegun | .persisting _ => persistStep s o p
  | .finished => none

abbrev State := Pool.State SessionState Phase
abbrev Event := Pool.Event Call Outcome

def step : State → Event → State := Pool.step .begin next

/-- The page has been loaded; the storages are as they were left. -/
def initial (wrappedMasterKey : Option Blob) (sessionKey : Option Bytes)
    (channelKeys : Option ChannelKeysRecord) : State :=
  { shared := { wrappedMasterKey, sessionKey, channelKeys }, calls := [] }

/-! ## Section 3: What a logout takes away -/

inductive Place where
  | sessionReady
  | identity
  | channelKeyCache
  | wrappedMasterKey
  | sessionKey
  | channelKeys
  deriving DecidableEq, Repr

def SessionState.Clean (s : SessionState) : Place → Prop
  | .sessionReady => s.sessionReady = false
  | .identity => s.identity = none
  | .channelKeyCache => s.channelKeyCache = ∅
  | .wrappedMasterKey => s.wrappedMasterKey = none
  | .sessionKey => s.sessionKey = none
  | .channelKeys => s.channelKeys = none

/-- A teardown that still has the place ahead of it. -/
def Phase.clears : Phase → Place → Prop
  | .flushing _, _ | .resetting, _ => True
  | .wiping, x => x = .channelKeys ∨ x = .identity ∨ x = .sessionReady
  | .ending, x => x = .identity ∨ x = .sessionReady
  | _, _ => False

/-- The next stretch of the call leaves something in the place. -/
def Phase.leaves (s : SessionState) (o : Outcome) : Phase → Place → Prop
  | .opening blob sessionKey, x => x = .sessionKey ∧ (blob.decrypt sessionKey).isSome
  | .wrapping _ _, x => x = .sessionKey ∨ x = .wrappedMasterKey
  | .initialising _ _, x => x = .identity
  | .decrypting record masterKey, x =>
    x = .channelKeyCache ∧ masterKey = some record.masterKey ∧ record.cache ≠ ∅
  | .finishing, x => x = .sessionReady
  | .unwrapping _ _ _, x => x = .channelKeyCache ∧ o.unwrapped.isSome
  | .persisting _, x => x = .channelKeys ∧ o.failed = false
  | .wiping, x => x = .channelKeys ∧ o.failed = true ∧ s.channelKeys ≠ none
  | _, _ => False

/-- After a logout, a call leaves something in a place only while a teardown has the place
    ahead of it. -/
def advances (s : SessionState) (others : List Phase) (p : Phase) (o : Outcome) : Prop :=
  s.loggedOut = true → ∀ x, p.leaves s o x → ∃ q ∈ others, q.clears x

def TeardownAhead : State → Event → Prop := Pool.Allows (fun _ _ => True) advances

def Phase.isFinished : Phase → Bool
  | .finished => true
  | _ => false

/-- Nothing is left of the session. -/
def Final (s : State) : Prop :=
  s.shared.loggedOut = true → Pool.Quiescent Phase.isFinished s → ∀ x, s.shared.Clean x

/-! ## Section 4: One stretch -/

section Stretch

variable {s s' : SessionState} {p p' : Phase} {o : Outcome}

theorem deserializeCache_empty (cache : KeyMap) : deserializeCache cache ∅ = cache := rfl

variable {x : Place}

theorem bootstrapStep_clean (h : bootstrapStep s o p = some (s', p')) (hclean : s.Clean x)
    (hleaves : ¬ p.leaves s o x) : s'.Clean x := by
  cases p with
  | bootBegun masterKey =>
    simp only [bootstrapStep, beginBootstrap, Option.some.injEq] at h
    split at h
    · cases h
      exact hclean
    · split at h
      · cases h
        exact hclean
      · split at h
        · cases h
          exact hclean
        · split at h
          · cases h
            exact hclean
          · cases h
            exact hclean
  | missing | loaded =>
    cases h
    exact hclean
  | asking blob =>
    simp only [bootstrapStep] at h
    split at h
    · cases h
      exact hclean
    · cases h
      exact hclean
  | opening blob sessionKey =>
    simp only [bootstrapStep] at h
    split at h
    · rename_i hopens
      cases h
      cases x with
      | sessionKey =>
        -- the key is kept only if the blob opens
        exact absurd ⟨rfl, by simp [hopens]⟩ hleaves
      | sessionReady | identity | channelKeyCache | wrappedMasterKey | channelKeys => exact hclean
    · cases h
      exact hclean
  | restoring | loading =>
    simp only [bootstrapStep] at h
    split at h
    · cases h
      exact hclean
    · split at h
      · cases h
        exact hclean
      · cases h
        exact hclean
  | wrapping masterKey identity =>
    cases h
    cases x with
    | sessionKey => exact absurd (.inl rfl) hleaves
    | wrappedMasterKey => exact absurd (.inr rfl) hleaves
    | sessionReady | identity | channelKeyCache | channelKeys => exact hclean
  | initialising masterKey identity =>
    cases h
    cases x with
    | identity => exact absurd rfl hleaves
    | sessionReady | channelKeyCache | wrappedMasterKey | sessionKey | channelKeys => exact hclean
  | decrypting record masterKey =>
    simp only [bootstrapStep] at h
    split at h
    · rename_i hkey
      cases h
      cases x with
      | channelKeyCache =>
        -- an empty record restores nothing
        by_cases hempty : record.cache = ∅
        · show deserializeCache s.channelKeyCache record.cache = ∅
          rw [hempty, deserializeCache_empty]
          exact hclean
        · exact absurd ⟨rfl, hkey, hempty⟩ hleaves
      | sessionReady | identity | wrappedMasterKey | sessionKey | channelKeys => exact hclean
    · cases h
      exact hclean
  | discarding =>
    simp only [bootstrapStep] at h
    split at h
    · cases h
      exact hclean
    · cases h
      cases x with
      | channelKeys =>
        -- the stored keys are dropped when they do not open
        rfl
      | sessionReady | identity | channelKeyCache | wrappedMasterKey | sessionKey => exact hclean
  | finishing =>
    cases h
    cases x with
    | sessionReady => exact absurd rfl hleaves
    | identity | channelKeyCache | wrappedMasterKey | sessionKey | channelKeys => exact hclean
  | tearBegun | flushing _ | resetting | wiping | ending | fetchBegun _ | fetching _
  | unwrapping _ _ _ | timerBegun | flushBegun | persisting _ | finished => cases h

theorem clean_nextEnvelope {channelID : ID} {versions : List Nat} (hclean : s.Clean x) :
    (nextEnvelope s channelID versions).1.Clean x := by
  cases versions with
  | nil => exact hclean
  | cons version rest =>
    by_cases hidentity : s.identityKeypair.isSome
    · simp only [nextEnvelope, hidentity, if_true]
      exact hclean
    · simp only [nextEnvelope, hidentity]
      exact hclean

theorem loggedOut_nextEnvelope (s : SessionState) (channelID : ID) (versions : List Nat) :
    (nextEnvelope s channelID versions).1.loggedOut = s.loggedOut := by
  cases versions with
  | nil => rfl
  | cons version rest =>
    by_cases hidentity : s.identityKeypair.isSome
    · simp only [nextEnvelope, hidentity, if_true]
    · simp only [nextEnvelope, hidentity]
      rfl

theorem fetchStep_clean (h : fetchStep s o p = some (s', p')) (hclean : s.Clean x)
    (hleaves : ¬ p.leaves s o x) : s'.Clean x := by
  cases p with
  | fetchBegun channelID =>
    simp only [fetchStep] at h
    split at h
    · cases h
      exact hclean
    · cases h
      exact hclean
  | fetching channelID =>
    simp only [fetchStep] at h
    split at h
    · cases h
      exact hclean
    · cases h
      exact hclean
    · rename_i version rest _
      have hs' : s' = (nextEnvelope s channelID (version :: rest)).1 :=
        (congrArg Prod.fst (Option.some.inj h)).symm
      rw [hs']
      exact clean_nextEnvelope hclean
  | unwrapping channelID version rest =>
    simp only [fetchStep] at h
    split at h
    · cases h
      exact hclean
    · rename_i key hkey
      have hs' : s' = (nextEnvelope
          { s with channelKeyCache := setCachedKey s.channelKeyCache channelID version key }
          channelID rest).1 := (congrArg Prod.fst (Option.some.inj h)).symm
      rw [hs']
      apply clean_nextEnvelope
      cases x with
      | channelKeyCache => exact absurd ⟨rfl, by simp [hkey]⟩ hleaves
      | sessionReady | identity | wrappedMasterKey | sessionKey | channelKeys => exact hclean
  | bootBegun _ | missing | asking _ | opening _ _ | restoring _ _ | wrapping _ _
  | initialising _ _ | loading | loaded _ | decrypting _ _ | discarding | finishing | tearBegun
  | flushing _ | resetting | wiping | ending | timerBegun | flushBegun | persisting _
  | finished => cases h

theorem persistStep_clean (h : persistStep s o p = some (s', p')) (hclean : s.Clean x)
    (hleaves : ¬ p.leaves s o x) : s'.Clean x := by
  cases p with
  | timerBegun =>
    simp only [persistStep] at h
    split at h
    · split at h
      · cases h
        exact hclean
      · cases h
        exact hclean
    · cases h
      exact hclean
  | flushBegun =>
    simp only [persistStep] at h
    split at h
    · cases h
      exact hclean
    · cases h
      exact hclean
  | persisting record =>
    simp only [persistStep] at h
    split at h
    · cases h
      exact hclean
    · rename_i hfailed
      cases h
      cases x with
      | channelKeys => exact absurd ⟨rfl, Bool.eq_false_iff.mpr hfailed⟩ hleaves
      | sessionReady | identity | channelKeyCache | wrappedMasterKey | sessionKey => exact hclean
  | bootBegun _ | missing | asking _ | opening _ _ | restoring _ _ | wrapping _ _
  | initialising _ _ | loading | loaded _ | decrypting _ _ | discarding | finishing | tearBegun
  | flushing _ | resetting | wiping | ending | fetchBegun _ | fetching _ | unwrapping _ _ _
  | finished => cases h

theorem teardownStep_clean (h : teardownStep s o p = some (s', p'))
    (hx : p = .tearBegun ∨ p.clears x ∨ s.Clean x) (hleaves : ¬ p.leaves s o x) :
    p'.clears x ∨ s'.Clean x := by
  cases p with
  | tearBegun | flushing =>
    simp only [teardownStep] at h
    split at h
    · cases h
      exact .inl trivial
    · cases h
      exact .inl trivial
  | resetting =>
    cases h
    cases x with
    | sessionReady => exact .inl (.inr (.inr rfl))
    | identity => exact .inl (.inr (.inl rfl))
    | channelKeys => exact .inl (.inl rfl)
    | channelKeyCache | wrappedMasterKey | sessionKey => exact .inr rfl
  | wiping =>
    simp only [teardownStep] at h
    split at h
    · rename_i hfailed
      cases h
      rcases hx with hx | (rfl | hx) | hclean
      · cases hx
      · -- a wipe that fails leaves nothing if there is nothing
        right
        by_contra hstored
        exact hleaves ⟨rfl, hfailed, hstored⟩
      · exact .inl hx
      · exact .inr hclean
    · cases h
      rcases hx with hx | (rfl | hx) | hclean
      · cases hx
      · exact .inr rfl
      · exact .inl hx
      · right
        cases x with
        | channelKeys => rfl
        | sessionReady | identity | channelKeyCache | wrappedMasterKey | sessionKey =>
          exact hclean
  | ending =>
    cases h
    right
    rcases hx with hx | (rfl | rfl) | hclean
    · cases hx
    · rfl
    · rfl
    · cases x with
      | sessionReady | identity => rfl
      | channelKeyCache | wrappedMasterKey | sessionKey | channelKeys => exact hclean
  | bootBegun _ | missing | asking _ | opening _ _ | restoring _ _ | wrapping _ _
  | initialising _ _ | loading | loaded _ | decrypting _ _ | discarding | finishing
  | fetchBegun _ | fetching _ | unwrapping _ _ _ | timerBegun | flushBegun | persisting _
  | finished => cases h

theorem loggedOut_next {others : List Phase} (h : next s others p o = some (s', p'))
    (hout : s'.loggedOut = true) : s.loggedOut = true ∨ p = .tearBegun := by
  cases p with
  | tearBegun => exact .inr rfl
  | bootBegun masterKey =>
    simp only [next, bootstrapStep, beginBootstrap, Option.some.injEq] at h
    grind
  | missing | asking _ | opening _ _ | restoring _ _ | wrapping _ _ | initialising _ _ | loading
  | loaded _ | decrypting _ _ | discarding | finishing =>
    simp only [next, bootstrapStep, SessionState.abandon] at h
    grind
  | flushing _ | resetting | wiping | ending =>
    simp only [next, teardownStep, SessionState.clear] at h
    grind
  | fetchBegun _ | fetching _ | unwrapping _ _ _ =>
    simp only [next, fetchStep] at h
    grind [loggedOut_nextEnvelope]
  | timerBegun | flushBegun | persisting _ =>
    simp only [next, persistStep] at h
    grind
  | finished => cases h

theorem clean_next {others : List Phase} (h : next s others p o = some (s', p'))
    (hx : p = .tearBegun ∨ p.clears x ∨ s.Clean x) (hleaves : ¬ p.leaves s o x) :
    p'.clears x ∨ s'.Clean x := by
  cases p with
  | tearBegun | flushing _ | resetting | wiping | ending =>
    simp only [next] at h
    exact teardownStep_clean h hx hleaves
  | bootBegun _ | missing | asking _ | opening _ _ | restoring _ _ | wrapping _ _
  | initialising _ _ | loading | loaded _ | decrypting _ _ | discarding | finishing =>
    simp only [next] at h
    rcases hx with hx | hx | hclean
    · cases hx
    · cases hx
    · exact .inr (bootstrapStep_clean h hclean hleaves)
  | fetchBegun _ | fetching _ | unwrapping _ _ _ =>
    simp only [next] at h
    rcases hx with hx | hx | hclean
    · cases hx
    · cases hx
    · exact .inr (fetchStep_clean h hclean hleaves)
  | timerBegun | flushBegun | persisting _ =>
    simp only [next] at h
    rcases hx with hx | hx | hclean
    · cases hx
    · cases hx
    · exact .inr (persistStep_clean h hclean hleaves)
  | finished => cases h

end Stretch

/-! ## Section 5: Logout -/

/-- After a logout every place is clean, or a teardown has it ahead of it. -/
def Swept (s : State) : Prop :=
  s.shared.loggedOut = true → ∀ x, (∃ q ∈ s.calls, q.clears x) ∨ s.shared.Clean x

theorem swept_perm : Pool.OrderFree Swept := by
  intro s l l' hperm h hout x
  refine (h hout x).imp_left ?_
  rintro ⟨q, hq, hclears⟩
  exact ⟨q, hperm.mem_iff.mp hq, hclears⟩

theorem swept_start : Pool.StartKeeps Phase.begin Swept := by
  intro s calls call h hout x
  refine (h hout x).imp_left ?_
  rintro ⟨q, hq, hclears⟩
  exact ⟨q, List.mem_cons_of_mem _ hq, hclears⟩

theorem swept_next : Pool.AllowedKeeps advances next Swept := by
  intro s p others o s' p' h hadvances hnext hout' x
  by_cases hothers : ∃ q ∈ others, q.clears x
  · obtain ⟨q, hq, hclears⟩ := hothers
    exact .inl ⟨q, List.mem_cons_of_mem _ hq, hclears⟩
  -- no other call has the place ahead of it: it is up to this one
  have hkept : p'.clears x ∨ s'.Clean x := by
    rcases loggedOut_next hnext hout' with hout | rfl
    · have hbefore : p.clears x ∨ s.Clean x := by
        refine (h hout x).imp_left ?_
        rintro ⟨q, hq, hclears⟩
        rcases List.mem_cons.mp hq with rfl | hq
        · exact hclears
        · exact absurd ⟨q, hq, hclears⟩ hothers
      exact clean_next hnext (.inr hbefore) fun hl => hothers (hadvances hout x hl)
    · exact clean_next hnext (.inl rfl) fun hl => hl
  exact hkept.imp_left fun hclears => ⟨p', List.mem_cons_self, hclears⟩

theorem Swept.final {s : State} (h : Swept s) : Final s := by
  intro hout hdone x
  refine (h hout x).resolve_left ?_
  rintro ⟨q, hq, hclears⟩
  have hfinished : q.isFinished = true := hdone q hq
  cases q with
  | finished => exact hclears
  | _ => cases hfinished

/-- If after a logout nothing is left behind except ahead of a teardown, then a logout is
    final: in every state on the way, once every call has finished, every place is clean. -/
theorem final_of_teardownAhead (wrappedMasterKey : Option Blob) (sessionKey : Option Bytes)
    (channelKeys : Option ChannelKeysRecord) (evs : List Event)
    (hrun : Run.Guarded step TeardownAhead (initial wrappedMasterKey sessionKey channelKeys) evs)
    (pre : List Event) (hpre : pre <+: evs) :
    Final (Run.exec step (initial wrappedMasterKey sessionKey channelKeys) pre) := by
  obtain ⟨post, rfl⟩ := hpre
  have hinit : Swept (initial wrappedMasterKey sessionKey channelKeys) := by
    intro hout
    cases hout
  have hswept : Swept (Run.exec step (initial wrappedMasterKey sessionKey channelKeys) pre) :=
    Pool.keeps_exec swept_perm (fun s calls call h _ => swept_start s calls call h) swept_next
      hinit hrun.left
  exact hswept.final

/-- A login and, once it has finished, a logout. -/
def inTurn : List Event :=
  [.start (.bootstrapSession (some [1])), .advance 0 {},
   .advance 0 { restored := some ⟨[2], [3]⟩ }, .advance 0 { sessionKey := [4] }, .advance 0 {},
   .advance 0 {}, .advance 0 {},
   .start .teardownSession, .advance 1 {}, .advance 1 {}, .advance 1 {}, .advance 1 {}]

theorem final_inTurn : Final (Run.exec step (initial none none none) inTurn) := by
  refine final_of_teardownAhead none none none inTurn ?_ inTurn (List.prefix_refl _)
  refine ⟨trivial, ?_, ?_, ?_, ?_, ?_, ?_, trivial, ?_, ?_, ?_, ?_, trivial⟩
  all_goals
    intro p hp hout x hleaves
    cases hp
    -- there is no logout yet, or the teardown leaves nothing
    first
    | exact absurd hout Bool.false_ne_true
    | exact False.elim hleaves
    | exact absurd hleaves.2.1 Bool.false_ne_true

/-- The same login, when the logout comes while the key bundle is decrypted. -/
def logoutFirst : List Event :=
  [.start (.bootstrapSession (some [1])), .advance 0 {},
   .start .teardownSession, .advance 1 {}, .advance 1 {}, .advance 1 {}, .advance 1 {},
   .advance 0 { restored := some ⟨[2], [3]⟩ }, .advance 0 { sessionKey := [4] }, .advance 0 {},
   .advance 0 {}, .advance 0 {}]

theorem not_final_logoutFirst : ¬ Final (Run.exec step (initial none none none) logoutFirst) := by
  intro hfinal
  have hclean := hfinal rfl (by decide) .sessionReady
  cases hclean

end Meza.Crypto.Session
