import Meza.Crypto.KeyAvailability
import Meza.Crypto.KeyCalls

/-! # Agreement on channel keys

    Whoever has a key of a channel and a version should have the same one. For
    versions after the first the server sees to it: a rotation moves the version
    row on, so no two rotations are given one version, and a version is never
    ahead of the row.

    The first version is different. `createChannelKey` does not ask the server,
    and a rotation from version 0 knows only of keys that were uploaded. They
    agree if a first key comes into being only where no other one is around. -/

namespace Meza.Crypto

open Aead (Bytes)
open Store List Pool Keys KeySystem Option Function KeyPhase AList KeyRequest
open Keys (KeyTables KeyEnvelope VersionedEnvelope EnvelopeRow)

/-! ## Section 1: Who has a key -/

variable (E : Ecies)

/-- The keys a running call has at hand, with their channel and version. -/
def KeyPhase.held (sys : KeySystem) : KeyPhase → List (ID × Nat × Bytes)
  | .distribute channelID version key _ => [(channelID, version, key)]
  | .claimed _ channelID version key _ => [(channelID, version, key)]
  | .caching client channelID reply _ => reply.filterMap fun e =>
      ((sys.userOf client).bind fun userID => E.unwrap userID e.envelope).map fun key =>
        (channelID, e.keyVersion, key)
  | _ => []

/-- All keys for a channel and a version: in caches, in envelopes and at hand. -/
def heldKeys (sys : KeySystem) (calls : List KeyPhase) (channelID : ID) (version : Nat) :
    List Bytes :=
  sys.clients.filterMap (fun a => (a.cache channelID).lookup version) ++
  (sys.tables.channelKeyEnvelopes.filter fun row =>
    row.channelID = channelID ∧ row.keyVersion = version).filterMap
      (fun row => E.unwrap row.userID row.envelope) ++
  (calls.flatMap (held E sys)).filterMap fun h =>
    if h.1 = channelID ∧ h.2.1 = version then some h.2.2 else none

/-- Any two keys for the same channel and version are equal. -/
def Agreement (s : Pool.State KeySystem KeyPhase) : Prop :=
  ∀ channelID version, ∀ key ∈ heldKeys E s.shared s.calls channelID version,
    ∀ key' ∈ heldKeys E s.shared s.calls channelID version, key = key'

/-! ## Section 2: The condition -/

/-- Without what one client has cached for one version. -/
def KeySystem.forget (sys : KeySystem) (client : Nat) (channelID : ID) (version : Nat) :
    KeySystem :=
  { sys with
    clients := sys.clients.modify client fun a =>
      { a with cache := update a.cache channelID ((a.cache channelID).erase version) } }

/-- Where a step brings a first key of a channel into being: the channel, and the system
    without what the key replaces. -/
def firstKeyOf (sys : KeySystem) : KeyPhase → KeyOutcome → Option (KeySystem × ID)
  | .create client channelID _, .key _ => some (sys.forget client channelID 1, channelID)
  | .rotate _ channelID attempt _, .rpc rpc =>
    if rpc ≠ .failed ∧ attempt.expectedVersion = 0 ∧
        sys.tables.currentVersion channelID = none then some (sys, channelID)
    else none
  | _, _ => none

/-- A first key comes into being where there is no other first key of the channel. -/
def FirstAlone (sys : KeySystem) (others : List KeyPhase) (p : KeyPhase) (outcome : KeyOutcome) :
    Prop :=
  ∀ first ∈ firstKeyOf sys p outcome, heldKeys E first.1 others first.2 1 = []

instance decidableFirstAlone (sys : KeySystem) (others : List KeyPhase) (p : KeyPhase)
    (outcome : KeyOutcome) : Decidable (FirstAlone E sys others p outcome) :=
  inferInstanceAs (Decidable (∀ first ∈ firstKeyOf sys p outcome, _))

/-- Calls start freely. -/
abbrev FirstKeysAlone : Pool.State KeySystem KeyPhase → Pool.Event KeyRequest KeyOutcome → Prop :=
  Allows (fun _ _ => True) (FirstAlone E)

/-! ## Section 3: Holdings -/

variable {E} {sys sys' : KeySystem} {p p' : KeyPhase} {others : List KeyPhase}
  {channelID : ID} {version : Nat} {key : Bytes}

variable {k : Bytes} {c : ID} {members : List ID} {calls : List KeyPhase} {client v : Nat}
  {rpc : Rpc} {t : Tables}

theorem mem_heldKeys :
    key ∈ heldKeys E sys calls channelID version ↔
      (∃ a ∈ sys.clients, (a.cache channelID).lookup version = some key) ∨
      (∃ row ∈ sys.tables.channelKeyEnvelopes, row.channelID = channelID ∧
        row.keyVersion = version ∧ E.unwrap row.userID row.envelope = some key) ∨
      ∃ q ∈ calls, (channelID, version, key) ∈ q.held E sys := by
  unfold heldKeys
  rw [append_assoc, mem_append, mem_append]
  refine or_congr ?_ (or_congr ?_ ?_)
  · simp only [mem_filterMap]
  · simp only [mem_filterMap, mem_filter, decide_eq_true_eq]
    constructor
    · rintro ⟨row, ⟨hrow, hchannel, hversion⟩, hkey⟩
      exact ⟨row, hrow, hchannel, hversion, hkey⟩
    · rintro ⟨row, hrow, hchannel, hversion, hkey⟩
      exact ⟨row, ⟨hrow, hchannel, hversion⟩, hkey⟩
  · simp only [mem_filterMap, mem_flatMap]
    constructor
    · rintro ⟨⟨c, v, k⟩, ⟨q, hq, hheld⟩, hkey⟩
      split at hkey
      · rename_i hsame
        obtain ⟨rfl, rfl⟩ := hsame
        cases hkey
        exact ⟨q, hq, hheld⟩
      · cases hkey
    · rintro ⟨q, hq, hheld⟩
      exact ⟨(channelID, version, key), ⟨q, hq, hheld⟩, by simp⟩

theorem held_of_user (h : ∀ i, sys'.userOf i = sys.userOf i) (q : KeyPhase) :
    q.held E sys' = q.held E sys := by
  cases q with
  | caching client c reply purpose => simp only [held, h]
  | create _ _ _ => rfl
  | latest _ _ _ => rfl
  | distribute _ _ _ _ => rfl
  | fetch _ _ _ => rfl
  | generate _ _ _ => rfl
  | rotate _ _ _ _ => rfl
  | claimed _ _ _ _ _ => rfl
  | returned => rfl

variable {f : KeyClient → KeyClient}

theorem userOf_modify (hf : ∀ a, (f a).userID = a.userID) (sys : KeySystem) (client i : Nat) :
    userOf { sys with clients := sys.clients.modify client f } i = sys.userOf i := by
  unfold userOf
  simp only [getElem?_modify]
  split
  · cases sys.clients[i]? with
    | none => rfl
    | some a => exact congrArg some (hf a)
  · simp

@[simp] theorem userOf_put (sys : KeySystem) (client i : Nat) (c : ID) (v : Nat) (k : Bytes) :
    (sys.put client c v k).userOf i = sys.userOf i := by
  refine userOf_modify ?_ sys client i
  intro a
  rfl

@[simp] theorem userOf_forget (sys : KeySystem) (client i : Nat) (c : ID) (v : Nat) :
    (sys.forget client c v).userOf i = sys.userOf i := by
  refine userOf_modify ?_ sys client i
  intro a
  rfl

theorem mem_modify_iff {clients : List KeyClient} {a : KeyClient} :
    a ∈ clients.modify client f ↔
      ∃ j b, clients[j]? = some b ∧ a = if client = j then f b else b := by
  rw [mem_iff_getElem?]
  constructor
  · rintro ⟨j, hj⟩
    rw [getElem?_modify] at hj
    obtain ⟨b, hb, hab⟩ := map_eq_some_iff.mp hj
    refine ⟨j, b, hb, ?_⟩
    rw [← hab]
  · rintro ⟨j, b, hb, rfl⟩
    refine ⟨j, ?_⟩
    rw [getElem?_modify, hb]
    split <;> rfl

theorem lookup_setCachedKey {cache : KeyCache}
    (h : (setCachedKey cache c v k channelID).lookup version = some key) :
    (channelID = c ∧ version = v ∧ key = k) ∨
      (update cache c ((cache c).erase v) channelID).lookup version = some key := by
  unfold setCachedKey at h
  by_cases hchannel : channelID = c
  · subst hchannel
    rw [update_self] at h ⊢
    by_cases hversion : version = v
    · subst hversion
      rcases lookup_put_self (cache channelID) version k with hput | hput
      · rw [hput] at h
        cases h
        exact .inl ⟨rfl, rfl, rfl⟩
      · rw [hput] at h
        cases h
    · right
      rw [lookup_erase_ne hversion]
      rcases lookup_put (cache channelID) k hversion with hput | hput
      · rw [← hput]
        exact h
      · rw [hput] at h
        cases h
  · right
    rw [update_of_ne hchannel] at h ⊢
    exact h

theorem mem_heldKeys_put (h : key ∈ heldKeys E (sys.put client c v k) calls channelID version) :
    (channelID = c ∧ version = v ∧ key = k) ∨
      key ∈ heldKeys E (sys.forget client c v) calls channelID version := by
  rcases mem_heldKeys.mp h with ⟨a, ha, hlookup⟩ | hstored | ⟨q, hq, hheld⟩
  · obtain ⟨j, b, hb, rfl⟩ := mem_modify_iff.mp ha
    by_cases hj : client = j
    · rw [if_pos hj] at hlookup
      rcases lookup_setCachedKey hlookup with hnew | hold
      · exact .inl hnew
      · refine .inr (mem_heldKeys.mpr (.inl ⟨_, mem_modify_iff.mpr ⟨j, b, hb, rfl⟩, ?_⟩))
        rw [if_pos hj]
        exact hold
    · rw [if_neg hj] at hlookup
      refine .inr (mem_heldKeys.mpr (.inl ⟨_, mem_modify_iff.mpr ⟨j, b, hb, rfl⟩, ?_⟩))
      rw [if_neg hj]
      exact hlookup
  · exact .inr (mem_heldKeys.mpr (.inr (.inl hstored)))
  · refine .inr (mem_heldKeys.mpr (.inr (.inr ⟨q, hq, ?_⟩)))
    rw [held_of_user (userOf_forget sys client · c v)]
    rw [held_of_user (userOf_put sys client · c v k)] at hheld
    exact hheld

theorem mem_heldKeys_forget (h : key ∈ heldKeys E (sys.forget client c v) calls channelID version) :
    key ∈ heldKeys E sys calls channelID version := by
  rcases mem_heldKeys.mp h with ⟨a, ha, hlookup⟩ | hstored | ⟨q, hq, hheld⟩
  · obtain ⟨j, b, hb, rfl⟩ := mem_modify_iff.mp ha
    have hmem : b ∈ sys.clients := mem_of_getElem? hb
    refine mem_heldKeys.mpr (.inl ⟨b, hmem, ?_⟩)
    split at hlookup
    · by_cases hchannel : channelID = c
      · subst hchannel
        dsimp only at hlookup
        rw [update_self] at hlookup
        by_cases hversion : version = v
        · subst hversion
          rw [lookup_erase] at hlookup
          cases hlookup
        · rw [lookup_erase_ne hversion] at hlookup
          exact hlookup
      · dsimp only at hlookup
        rw [update_of_ne hchannel] at hlookup
        exact hlookup
    · exact hlookup
  · exact mem_heldKeys.mpr (.inr (.inl hstored))
  · refine mem_heldKeys.mpr (.inr (.inr ⟨q, hq, ?_⟩))
    rw [held_of_user (userOf_forget sys client · c v)] at hheld
    exact hheld

/-! ## Section 4: Uploads and rotations -/

/-- The version rows that are there stay or move on. -/
def Forward (k k' : KeyTables) : Prop :=
  ∀ channelID cur, k.currentVersion channelID = some cur →
    ∃ cur', k'.currentVersion channelID = some cur' ∧ cur ≤ cur'

theorem Forward.refl (k : KeyTables) : Forward k k := fun _ cur h => ⟨cur, h, le_refl cur⟩

/-- New rows are of one channel and version and contain one key. -/
def Writes (E : Ecies) (k k' : KeyTables) (c : ID) (v : Nat) (key : Bytes) : Prop :=
  ∀ row ∈ k'.channelKeyEnvelopes, row ∈ k.channelKeyEnvelopes ∨
    row.channelID = c ∧ row.keyVersion = v ∧ E.unwrap row.userID row.envelope = some key

theorem writes_putEnvelopes (k : KeyTables) (c : ID) (v : Nat) (members : List ID) :
    Writes E k (k.putEnvelopes c v (wrapKeys E key members)) c v key := by
  intro row hrow
  rcases mem_putEnvelopes_written hrow with hold | ⟨env, henv, rfl⟩
  · exact .inl hold
  · obtain ⟨userID, -, rfl⟩ := mem_map.mp henv
    exact .inr ⟨rfl, rfl, E.unwrap_wrap userID key⟩

theorem store_wrapKeys {k k' : KeyTables}
    (h : storeKeyEnvelopes t k c v (wrapKeys E key members) = .ok k') :
    Forward k k' ∧ Writes E k k' c v key := by
  rw [storeKeyEnvelopes_ok h]
  refine ⟨?_, writes_putEnvelopes (k.insertVersion c v) c v members⟩
  intro channelID cur hcur
  refine ⟨cur, ?_, le_refl cur⟩
  rw [putEnvelopes_currentVersion, currentVersion_insertVersion]
  by_cases hchannel : channelID = c
  · subst hchannel
    rw [if_pos rfl, hcur, getD_some]
  · rw [if_neg hchannel, hcur]

theorem rotate_wrapKeys {k k' : KeyTables} {expected : Nat}
    (h : rotateChannelKey t k c expected (wrapKeys E key members) = .ok (v, k')) :
    v = expected + 1 ∧
      (k.currentVersion c = none ∧ expected = 0 ∨
        k.currentVersion c = some expected ∧ expected ≠ 0) ∧
      k'.currentVersion c = some v ∧ Forward k k' ∧ Writes E k k' c v key := by
  obtain ⟨hv, hexpected, hversion, -, -⟩ := rotateChannelKey_spec h
  refine ⟨hv, hexpected, ?_, ?_, ?_⟩
  · rw [hversion, if_pos rfl]
  · intro channelID cur hcur
    rw [hversion]
    by_cases hchannel : channelID = c
    · subst hchannel
      refine ⟨v, if_pos rfl, ?_⟩
      rcases hexpected with ⟨hnone, -⟩ | ⟨hsome, -⟩
      · rw [hnone] at hcur
        cases hcur
      · rw [hsome] at hcur
        cases hcur
        omega
    · exact ⟨cur, (if_neg hchannel).trans hcur, le_refl cur⟩
  · obtain ⟨claimed, hclaim, rfl⟩ := rotateChannelKey_ok h
    obtain ⟨-, -, hsame, -⟩ := claimVersion_ok hclaim
    intro row hrow
    have hwritten := writes_putEnvelopes claimed c v members row (mem_cleanUp.mp hrow).1
    rw [hsame] at hwritten
    exact hwritten

theorem upload_cases {paged : Bool} (h : upload E t sys c v k paged members rpc = (sys', p')) :
    (sys' = sys ∧ p' = .returned) ∨
      ∃ tables, storeKeyEnvelopes t sys.tables c v (wrapKeys E k members) = .ok tables ∧
        sys' = { sys with tables := tables } ∧ (p' = .distribute c v k paged ∨ p' = .returned) := by
  unfold upload at h
  split at h
  · cases h
    exact .inl ⟨rfl, rfl⟩
  · split at h
    · cases h
      exact .inl ⟨rfl, rfl⟩
    · rename_i tables hstore
      obtain ⟨rfl, rfl⟩ := Prod.mk.inj h
      refine .inr ⟨tables, hstore, rfl, ?_⟩
      split
      · exact .inl rfl
      · exact .inr rfl

theorem claim_cases {attempt : Attempt} (h : claim E t sys client c attempt k rpc = (sys', p')) :
    (sys' = sys ∧ p' = rotateFailed client c attempt) ∨
      ∃ v tables, rpc ≠ .failed ∧
        rotateChannelKey t sys.tables c attempt.expectedVersion
          (wrapKeys E k attempt.recipients) = .ok (v, tables) ∧
        sys' = { sys with tables := tables } ∧
        (p' = .claimed client c v k attempt ∨ p' = rotateFailed client c attempt) := by
  unfold claim at h
  split at h
  · cases h
    exact .inl ⟨rfl, rfl⟩
  · rename_i hrpc
    split at h
    · cases h
      exact .inl ⟨rfl, rfl⟩
    · rename_i v tables hrotate
      obtain ⟨rfl, rfl⟩ := Prod.mk.inj h
      refine .inr ⟨v, tables, hrpc, hrotate, rfl, ?_⟩
      split
      · exact .inl rfl
      · exact .inr rfl

/-! ## Section 5: The invariant -/

/-- The keys agree, and a version after the first is one the version row has reached. -/
structure Agreed (E : Ecies) (s : Pool.State KeySystem KeyPhase) : Prop where
  agreement : Agreement E s
  reached : ∀ channelID version, ∀ key ∈ heldKeys E s.shared s.calls channelID version,
    version = 1 ∨ ∃ cur, s.shared.tables.currentVersion channelID = some cur ∧ version ≤ cur

theorem Agreed.perm : Pool.OrderFree (Agreed E) := by
  intro sh l l' hperm h
  have hsame : ∀ channelID version key, key ∈ heldKeys E sh l' channelID version →
      key ∈ heldKeys E sh l channelID version := by
    intro channelID version key hkey
    rcases mem_heldKeys.mp hkey with hcached | hstored | ⟨q, hq, hheld⟩
    · exact mem_heldKeys.mpr (.inl hcached)
    · exact mem_heldKeys.mpr (.inr (.inl hstored))
    · exact mem_heldKeys.mpr (.inr (.inr ⟨q, hperm.mem_iff.mpr hq, hheld⟩))
  constructor
  · intro channelID version key hkey key' hkey'
    exact h.agreement channelID version key (hsame _ _ _ hkey) key' (hsame _ _ _ hkey')
  · intro channelID version key hkey
    exact h.reached channelID version key (hsame _ _ _ hkey)

/-- Nobody has a key they did not have before. -/
theorem Agreed.of_subset {s s' : Pool.State KeySystem KeyPhase} (h : Agreed E s)
    (hforward : Forward s.shared.tables s'.shared.tables)
    (hsub : ∀ channelID version key, key ∈ heldKeys E s'.shared s'.calls channelID version →
      key ∈ heldKeys E s.shared s.calls channelID version) : Agreed E s' := by
  constructor
  · intro channelID version key hkey key' hkey'
    exact h.agreement channelID version key (hsub _ _ _ hkey) key' (hsub _ _ _ hkey')
  · intro channelID version key hkey
    rcases h.reached channelID version key (hsub _ _ _ hkey) with hfirst | ⟨cur, hcur, hle⟩
    · exact .inl hfirst
    · obtain ⟨cur', hcur', hle'⟩ := hforward channelID cur hcur
      exact .inr ⟨cur', hcur', hle.trans hle'⟩

theorem Agreed.of_new {s s' : Pool.State KeySystem KeyPhase}
    (h : Agreed E s) (hforward : Forward s.shared.tables s'.shared.tables)
    (hreached : v = 1 ∨ ∃ cur, s'.shared.tables.currentVersion c = some cur ∧ v ≤ cur)
    (hsub : ∀ channelID version key, key ∈ heldKeys E s'.shared s'.calls channelID version →
    (channelID = c ∧ version = v ∧ key = k) ∨ (¬ (channelID = c ∧ version = v) ∧
    key ∈ heldKeys E s.shared s.calls channelID version)) : Agreed E s' := by
  constructor
  · intro channelID version key hkey key' hkey'
    rcases hsub _ _ _ hkey with ⟨rfl, rfl, rfl⟩ | ⟨hother, hold⟩
    · rcases hsub _ _ _ hkey' with ⟨-, -, rfl⟩ | ⟨hother', -⟩
      · rfl
      · exact absurd ⟨rfl, rfl⟩ hother'
    · rcases hsub _ _ _ hkey' with ⟨rfl, rfl, -⟩ | ⟨-, hold'⟩
      · exact absurd ⟨rfl, rfl⟩ hother
      · exact h.agreement channelID version key hold key' hold'
  · intro channelID version key hkey
    rcases hsub _ _ _ hkey with ⟨rfl, rfl, rfl⟩ | ⟨-, hold⟩
    · exact hreached
    · rcases h.reached channelID version key hold with hfirst | ⟨cur, hcur, hle⟩
      · exact .inl hfirst
      · obtain ⟨cur', hcur', hle'⟩ := hforward channelID cur hcur
        exact .inr ⟨cur', hcur', hle.trans hle'⟩

/-! ## Section 6: Steps -/

theorem mem_heldKeys_cons :
    key ∈ heldKeys E sys (p :: others) channelID version ↔
      (channelID, version, key) ∈ p.held E sys ∨ key ∈ heldKeys E sys others channelID version := by
  rw [mem_heldKeys, mem_heldKeys, exists_mem_cons_iff]
  constructor
  · rintro (hcached | hstored | hfirst | hother)
    · exact .inr (.inl hcached)
    · exact .inr (.inr (.inl hstored))
    · exact .inl hfirst
    · exact .inr (.inr (.inr hother))
  · rintro (hfirst | hcached | hstored | hother)
    · exact .inr (.inr (.inl hfirst))
    · exact .inl hcached
    · exact .inr (.inl hstored)
    · exact .inr (.inr (.inr hother))

theorem mem_heldKeys_of_cached (h : (sys.cacheOf client channelID).lookup version = some key) :
    key ∈ heldKeys E sys calls channelID version := by
  unfold cacheOf at h
  cases hclient : sys.clients[client]? with
  | none =>
    rw [hclient] at h
    cases (lookup_empty version).symm.trans h
  | some a =>
    rw [hclient] at h
    exact mem_heldKeys.mpr (.inl ⟨a, mem_of_getElem? hclient, h⟩)

theorem latestKey_cached (h : sys.latestKey client c = some (v, k)) :
    (sys.cacheOf client c).lookup v = some k := by
  obtain ⟨latest, -, hrest⟩ := bind_eq_some_iff.mp h
  obtain ⟨found, hfound, hpair⟩ := bind_eq_some_iff.mp hrest
  cases hpair
  exact hfound

/-- What goes on after a fetch has only cached keys at hand. -/
theorem afterFetch_held {purpose : Purpose}
    (h : (channelID, version, key) ∈ (afterFetch sys client c purpose).held E sys) :
    key ∈ heldKeys E sys calls channelID version := by
  cases purpose with
  | nothing => cases h
  | distribute =>
    simp only [afterFetch] at h
    split at h
    · rename_i v k hlatest
      cases mem_singleton.mp h
      exact mem_heldKeys_of_cached (latestKey_cached hlatest)
    · cases h
  | create userID =>
    simp only [afterFetch] at h
    split at h
    · cases h
    · cases h
  | retry members current =>
    simp only [afterFetch] at h
    split at h
    · split at h
      · cases h
      · cases h
    · cases h

theorem fetchFailed_held (client : Nat) (c : ID) (purpose : Purpose) :
    (fetchFailed client c purpose).held E sys = [] := by
  cases purpose <;> rfl

theorem rotateFailed_held (client : Nat) (c : ID) (attempt : Attempt) :
    (rotateFailed client c attempt).held E sys = [] := by
  cases attempt with
  | lazyInit userID => rfl
  | rotate members current again => cases again <;> rfl

theorem mem_heldKeys_of_fetched {userID : ID} {e : VersionedEnvelope}
    (he : e ∈ getKeyEnvelopes sys.tables c userID) (hkey : E.unwrap userID e.envelope = some k)
    : k ∈ heldKeys E sys calls c e.keyVersion := by
  unfold getKeyEnvelopes at he
  rw [mem_insertionSort] at he
  obtain ⟨row, hrow, rfl⟩ := mem_map.mp he
  obtain ⟨hin, hmatch⟩ := mem_filter.mp hrow
  simp only [decide_eq_true_eq] at hmatch
  obtain ⟨hchannel, huser⟩ := hmatch
  refine mem_heldKeys.mpr (.inr (.inl ⟨row, hin, hchannel, rfl, ?_⟩))
  rw [huser]
  exact hkey

/-- Keys written to the tables: those that were held, and one of an upload or a rotation. -/
theorem mem_heldKeys_tables {tables : KeyTables} (hwrites : Writes E sys.tables tables c v k)
    (h : key ∈ heldKeys E { sys with tables := tables } calls channelID version) :
    (channelID = c ∧ version = v ∧ key = k) ∨ key ∈ heldKeys E sys calls channelID version := by
  rcases mem_heldKeys.mp h with hcached | ⟨row, hrow, hchannel, hversion, hkey⟩ | ⟨q, hq, hheld⟩
  · exact .inr (mem_heldKeys.mpr (.inl hcached))
  · rcases hwrites row hrow with hold | ⟨hc, hv, hk⟩
    · exact .inr (mem_heldKeys.mpr (.inr (.inl ⟨row, hold, hchannel, hversion, hkey⟩)))
    · left
      rw [hkey] at hk
      cases hk
      exact ⟨hchannel.symm.trans hc, hversion.symm.trans hv, rfl⟩
  · refine .inr (mem_heldKeys.mpr (.inr (.inr ⟨q, hq, ?_⟩)))
    exact hheld

section

variable (h : Agreed E { shared := sys, calls := p :: others })
include h

theorem Agreed.same
    (hheld : ∀ c v k, (c, v, k) ∈ p'.held E sys → k ∈ heldKeys E sys (p :: others) c v) :
    Agreed E { shared := sys, calls := p' :: others } := by
  refine h.of_subset (Forward.refl _) ?_
  intro c v k hkey
  rcases mem_heldKeys_cons.mp hkey with hfirst | hother
  · exact hheld c v k hfirst
  · exact mem_heldKeys_cons.mpr (.inr hother)

theorem Agreed.cached (hk : k ∈ heldKeys E sys (p :: others) c v)
    (hheld : ∀ c v k, (c, v, k) ∈ p'.held E sys → k ∈ heldKeys E sys (p :: others) c v) :
    Agreed E { shared := sys.put client c v k, calls := p' :: others } := by
  refine h.of_subset (Forward.refl _) ?_
  intro c' v' k' hkey
  rcases mem_heldKeys_put hkey with ⟨rfl, rfl, rfl⟩ | hforget
  · exact hk
  · rcases mem_heldKeys_cons.mp (mem_heldKeys_forget hforget) with hfirst | hother
    · exact hheld c' v' k' hfirst
    · exact mem_heldKeys_cons.mpr (.inr hother)

/-- `createChannelKey` where no other first key of the channel is around. -/
theorem Agreed.created {client : Nat}
    {c : ID} {k : Bytes} {paged : Bool}
    (halone : heldKeys E (sys.forget client c 1) others c 1 = []) :
    Agreed E { shared := sys.put client c 1 k, calls := .distribute c 1 k paged :: others } := by
  refine h.of_new (Forward.refl _) (.inl rfl) (c := c) (v := 1) (k := k) ?_
  intro c' v' k' hkey
  rcases mem_heldKeys_cons.mp hkey with hfirst | hother
  · cases mem_singleton.mp hfirst
    exact .inl ⟨rfl, rfl, rfl⟩
  · rcases mem_heldKeys_put hother with hnew | hforget
    · exact .inl hnew
    · right
      refine ⟨?_, mem_heldKeys_cons.mpr (.inr (mem_heldKeys_forget hforget))⟩
      rintro ⟨rfl, rfl⟩
      rw [halone] at hforget
      cases hforget

end

theorem Agreed.uploaded {paged : Bool}
    (h : Agreed E { shared := sys, calls := .distribute c v k paged :: others })
    (hupload : upload E t sys c v k paged members rpc = (sys', p')) :
    Agreed E { shared := sys', calls := p' :: others } := by
  have hk : k ∈ heldKeys E sys (.distribute c v k paged :: others) c v :=
    mem_heldKeys_cons.mpr (.inl (mem_singleton.mpr rfl))
  rcases upload_cases hupload with ⟨rfl, rfl⟩ | ⟨tables, hstore, rfl, hnext⟩
  · refine h.same ?_
    intro c' v' k' hheld
    cases hheld
  · obtain ⟨hforward, hwrites⟩ := store_wrapKeys hstore
    refine h.of_subset hforward ?_
    intro c' v' k' hkey
    rcases mem_heldKeys_tables hwrites hkey with ⟨rfl, rfl, rfl⟩ | hold
    · exact hk
    · rcases mem_heldKeys_cons.mp hold with hfirst | hother
      · rcases hnext with rfl | rfl
        · cases mem_singleton.mp hfirst
          exact hk
        · cases hfirst
      · exact mem_heldKeys_cons.mpr (.inr hother)

/-- A rotation. Where it is accepted, nobody has a key of the new version yet: a later one is
    ahead of the version row, and for the first the condition says so. -/
theorem Agreed.rotated {attempt : Attempt}
    (h : Agreed E { shared := sys, calls := .rotate client c attempt k :: others })
    (halone : rpc ≠ .failed → attempt.expectedVersion = 0 →
      sys.tables.currentVersion c = none → heldKeys E sys others c 1 = [])
    (hclaim : claim E t sys client c attempt k rpc = (sys', p')) :
    Agreed E { shared := sys', calls := p' :: others } := by
  rcases claim_cases hclaim with ⟨rfl, rfl⟩ | ⟨v, tables, hrpc, hrotate, rfl, hnext⟩
  · refine h.same ?_
    intro c' v' k' hheld
    rw [rotateFailed_held] at hheld
    cases hheld
  · obtain ⟨hv, hexpected, hcurrent, hforward, hwrites⟩ := rotate_wrapKeys hrotate
    have hnone : ∀ k', k' ∉ heldKeys E sys others c v := by
      intro k' hkey
      have hreached := h.reached c v k' (mem_heldKeys_cons.mpr (.inr hkey))
      rcases hexpected with ⟨hempty, hzero⟩ | ⟨hrow, hpos⟩
      · have hfirst : v = 1 := by omega
        subst hfirst
        rw [halone hrpc hzero hempty] at hkey
        cases hkey
      · rcases hreached with hfirst | ⟨cur, hcur, hle⟩
        · omega
        · dsimp only at hcur
          rw [hrow] at hcur
          cases hcur
          omega
    refine h.of_new hforward (.inr ⟨v, hcurrent, le_refl v⟩) (c := c) (v := v) (k := k) ?_
    intro c' v' k' hkey
    have hcalls : k' ∈ heldKeys E sys (p' :: others) c' v' → (c' = c ∧ v' = v ∧ k' = k) ∨
        k' ∈ heldKeys E sys others c' v' := by
      intro hold
      rcases mem_heldKeys_cons.mp hold with hfirst | hother
      · rcases hnext with rfl | rfl
        · cases mem_singleton.mp hfirst
          exact .inl ⟨rfl, rfl, rfl⟩
        · rw [rotateFailed_held] at hfirst
          cases hfirst
      · exact .inr hother
    rcases mem_heldKeys_tables hwrites hkey with hnew | hold
    · exact .inl hnew
    · rcases hcalls hold with hnew | hother
      · exact .inl hnew
      · refine .inr ⟨?_, mem_heldKeys_cons.mpr (.inr hother)⟩
        rintro ⟨rfl, rfl⟩
        exact hnone k' hother

theorem agreed_step {outcome : KeyOutcome} (h : Agreed E { shared := sys, calls := p :: others })
    (halone : FirstAlone E sys others p outcome)
    (hstep : keyStep E t sys others p outcome = some (sys', p')) :
    Agreed E { shared := sys', calls := p' :: others } := by
  unfold keyStep at hstep
  split at hstep
  · -- createChannelKey
    cases hstep
    exact h.created (halone _ rfl)
  · -- the latest key is read from the cache
    split at hstep
    · rename_i v k hlatest
      cases hstep
      refine h.same ?_
      intro c' v' k' hheld
      cases mem_singleton.mp hheld
      exact mem_heldKeys_of_cached (latestKey_cached hlatest)
    · cases hstep
      refine h.same ?_
      intro c' v' k' hheld
      split at hheld <;> cases hheld
  · -- an upload
    exact h.uploaded (some.inj hstep)
  · -- the last page is done
    cases hstep
    refine h.same ?_
    intro c' v' k' hheld
    cases hheld
  · -- GetKeyEnvelopes
    split at hstep
    · rename_i userID huser
      cases hstep
      refine h.same ?_
      intro c' v' k' hheld
      obtain ⟨e, he, hkey⟩ := mem_filterMap.mp hheld
      rw [huser] at hkey
      obtain ⟨found, hfound, htriple⟩ := map_eq_some_iff.mp hkey
      cases htriple
      exact mem_heldKeys_of_fetched he hfound
    · cases hstep
      refine h.same ?_
      intro c' v' k' hheld
      rw [fetchFailed_held] at hheld
      cases hheld
  · -- another fetch has ended
    cases hstep
    refine h.same ?_
    intro c' v' k' hheld
    split at hheld
    · exact afterFetch_held hheld
    · rw [fetchFailed_held] at hheld
      cases hheld
  · -- the reply is cached
    cases hstep
    exact h.same fun c' v' k' hheld => afterFetch_held hheld
  · -- one envelope is unwrapped and cached
    rename_i client c e rest purpose
    split at hstep
    · rename_i k hkey
      cases hstep
      have hreply : ∀ c' v' k', (c', v', k') ∈ (caching client c rest purpose).held E sys →
          (c', v', k') ∈ (caching client c (e :: rest) purpose).held E sys := by
        intro c' v' k' hheld
        obtain ⟨e', he', hfound⟩ := mem_filterMap.mp hheld
        exact mem_filterMap.mpr ⟨e', mem_cons_of_mem _ he', hfound⟩
      have hfirst : (c, e.keyVersion, k) ∈ (caching client c (e :: rest) purpose).held E sys :=
        mem_filterMap.mpr ⟨e, mem_cons_self, by rw [hkey]; rfl⟩
      refine h.cached (mem_heldKeys_cons.mpr (.inl hfirst)) ?_
      intro c' v' k' hheld
      exact mem_heldKeys_cons.mpr (.inl (hreply c' v' k' hheld))
    · cases hstep
      refine h.same ?_
      intro c' v' k' hheld
      rw [fetchFailed_held] at hheld
      cases hheld
  · -- a key is generated
    cases hstep
    refine h.same ?_
    intro c' v' k' hheld
    cases hheld
  · -- RotateChannelKey
    refine h.rotated ?_ (some.inj hstep)
    intro hrpc hzero hnone
    exact halone _ (if_pos ⟨hrpc, hzero, hnone⟩)
  · -- the new version is cached
    rename_i client c v k attempt
    cases hstep
    have hk : k ∈ heldKeys E sys (.claimed client c v k attempt :: others) c v :=
      mem_heldKeys_cons.mpr (.inl (mem_singleton.mpr rfl))
    refine h.cached hk ?_
    intro c' v' k' hheld
    split at hheld
    · cases mem_singleton.mp hheld
      exact hk
    · cases hheld
  · cases hstep

/-! ## Section 7: Runs -/

/-- Clients that have no keys yet, and a server without envelopes. -/
def KeySystem.fresh (users : List ID) : Pool.State KeySystem KeyPhase where
  shared := { clients := users.map fun userID => { userID } }
  calls := []

theorem agreed_fresh (users : List ID) : Agreed E (fresh users) := by
  have hnone : ∀ c v k, k ∉ heldKeys E (fresh users).shared [] c v := by
    intro c v k hkey
    rcases mem_heldKeys.mp hkey with ⟨a, ha, hlookup⟩ | ⟨row, hrow, -⟩ | ⟨q, hq, -⟩
    · obtain ⟨userID, -, rfl⟩ := mem_map.mp ha
      cases (lookup_empty v).symm.trans hlookup
    · cases hrow
    · cases hq
  exact ⟨fun c v k hk => absurd hk (hnone c v k), fun c v k hk => absurd hk (hnone c v k)⟩

/-- Whatever the clients do, in any order, the keys agree if every first key comes into being
    where there is no other one. -/
theorem agreement_exec {t : Tables} {users : List ID}
    {evs : List (Pool.Event KeyRequest KeyOutcome)}
    (h : Run.Guarded (step start (keyStep E t)) (FirstKeysAlone E)
      (fresh users) evs) :
    Agreement E (Run.exec (step start (keyStep E t)) (fresh users) evs) := by
  have hstart : ∀ sh calls (call : KeyRequest), Agreed E { shared := sh, calls } → True →
      Agreed E { shared := sh, calls := call.start :: calls } := by
    intro sh calls call hagreed _
    refine hagreed.of_subset (Forward.refl _) ?_
    intro c v k hkey
    rcases mem_heldKeys_cons.mp hkey with hfirst | hold
    · cases call <;> cases hfirst
    · exact hold
  have hnext : ∀ sh p others outcome sh' p', Agreed E { shared := sh, calls := p :: others } →
      FirstAlone E sh others p outcome → keyStep E t sh others p outcome = some (sh', p') →
      Agreed E { shared := sh', calls := p' :: others } := by
    intro sh p others outcome sh' p' hagreed halone hstep
    exact agreed_step hagreed halone hstep
  exact (keeps_exec Agreed.perm hstart hnext (agreed_fresh users) h).agreement

/-! ## Section 8: A channel that two clients open -/

/-- An envelope of 93 bytes around a key of 32. -/
def frameKey (key : Bytes) : Bytes :=
  if key.length = 32 then 2 :: (key ++ replicate 60 0) else 3 :: key

def openFrame (envelope : Bytes) : Option Bytes :=
  if envelope.head? = some 2 then some (envelope.tail.take 32) else some envelope.tail

def openEcies : Ecies where
  wrap _ key := frameKey key
  unwrap _ envelope := openFrame envelope
  unwrap_wrap := by
    intro userID key
    unfold frameKey openFrame
    by_cases h : key.length = 32
    · rw [if_pos h]
      exact congrArg some (take_left' h)
    · rw [if_neg h]
      rfl

def openTables : Tables where
  users := [{ id := "alice", signingPublicKey := none }, { id := "bob", signingPublicKey := none }]
  channels := [{ id := "general", serverID := none, name := "general" }]

/-- Alice has created the channel and her client makes a key; Bob opens it. -/
def created : List (Pool.Event KeyRequest KeyOutcome) :=
  [.start (.provisionChannelKeyBatched 0 "general"), .advance 0 (.key (keyOf 1)),
   .start (.lazyInitChannelKey 1 "general" "bob")]

/-- Alice's client has uploaded the key when Bob's fetches. -/
theorem agreement_exec_uploaded :
    Agreement openEcies
      (Run.exec (step start (keyStep openEcies openTables))
        (fresh ["alice", "bob"])
        (created ++ [.advance 0 (.page ["alice", "bob"] .answered), .advance 1 (.rpc .answered),
          .advance 1 .go, .advance 1 .go])) :=
  agreement_exec (by decide +kernel)

/-- Bob's client fetches before that, finds nothing, and has its own key accepted. -/
theorem not_agreement_exec_opened :
    ¬ ∀ (E : Ecies) (t : Tables) (users : List ID) (evs : List (Pool.Event KeyRequest KeyOutcome)),
      Agreement E (Run.exec (step start (keyStep E t)) (fresh users) evs) := by
  intro h
  have hsplit := h openEcies openTables ["alice", "bob"]
    (created ++ [.advance 1 (.rpc .answered), .advance 1 .go, .advance 1 (.key (keyOf 2)),
      .advance 1 (.rpc .answered)]) "general" 1 (keyOf 1) (by decide +kernel) (keyOf 2)
    (by decide +kernel)
  revert hsplit
  decide

end Meza.Crypto
