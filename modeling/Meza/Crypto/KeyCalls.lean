import Meza.Crypto.ChannelKeys
import Meza.Lib.Pool

/-! # Creating, distributing and rotating channel keys

    The asynchronous functions of `channel-keys.ts`, and `provisionChannelKey`
    of `chat.ts`, run by any number of clients at once against the key envelope
    store. Each request and each write to a cache is a step. A request can
    fail, and it can be carried out while the caller hears of an error.

    Version 1 of a channel key comes into being in two ways: `createChannelKey`
    puts a new key into the cache and lets the caller upload it, and
    `RotateChannelKey` with an expected version of 0 has the server decide. -/

namespace Meza.Crypto

open Aead (Bytes)
open Store
open Keys (KeyTables KeyEnvelope VersionedEnvelope)

/-! ## Section 1: Clients and calls -/

/-- Key wrapping, which is taken to be right: the recipient gets the key back. -/
structure Ecies where
  wrap : (userID : ID) → (key : Bytes) → Bytes
  unwrap : (userID : ID) → (envelope : Bytes) → Option Bytes
  unwrap_wrap : ∀ userID key, unwrap userID (wrap userID key) = some key

structure KeyClient where
  userID : ID
  cache : KeyCache := fun _ => ∅

structure KeySystem where
  clients : List KeyClient
  tables : KeyTables := {}

/-- The functions, called by a client for a channel. -/
inductive KeyRequest where
  | provisionChannelKey (client : Nat) (channelID : ID)
  | provisionChannelKeyBatched (client : Nat) (channelID : ID)
  | lazyInitChannelKey (client : Nat) (channelID userID : ID)
  | rotateChannelKey (client : Nat) (channelID : ID) (remainingMembers : List ID)
      (currentVersion : Nat)
  | distributeKeyToMember (client : Nat) (channelID : ID)
  | redistributeChannelKeys (client : Nat) (channelID : ID)
  | fetchAndCacheChannelKeys (client : Nat) (channelID : ID)

/-- A new key on its way to the server. -/
inductive Attempt where
  | lazyInit (userID : ID)
  /-- `again` if there is one more attempt -/
  | rotate (remainingMembers : List ID) (currentVersion : Nat) (again : Bool)

def Attempt.expectedVersion : Attempt → Nat
  | .lazyInit _ => 0
  | .rotate _ currentVersion _ => currentVersion

def Attempt.recipients : Attempt → List ID
  | .lazyInit userID => [userID]
  | .rotate remainingMembers _ _ => remainingMembers

/-- What comes after a fetch. -/
inductive Purpose where
  | nothing
  | distribute
  | create (userID : ID)
  | retry (remainingMembers : List ID) (currentVersion : Nat)

inductive KeyPhase where
  /-- before `createChannelKey` -/
  | create (client : Nat) (channelID : ID) (paged : Bool)
  /-- before reading the latest key from the cache -/
  | latest (client : Nat) (channelID : ID) (paged : Bool)
  /-- before an upload of envelopes, or before the end -/
  | distribute (channelID : ID) (version : Nat) (key : Bytes) (paged : Bool)
  /-- before `GetKeyEnvelopes` -/
  | fetch (client : Nat) (channelID : ID) (purpose : Purpose)
  /-- the rest of the reply is to be cached -/
  | caching (client : Nat) (channelID : ID) (reply : List VersionedEnvelope) (purpose : Purpose)
  /-- before a key is generated -/
  | generate (client : Nat) (channelID : ID) (attempt : Attempt)
  /-- before `RotateChannelKey` -/
  | rotate (client : Nat) (channelID : ID) (attempt : Attempt) (key : Bytes)
  /-- the server has given the key a version -/
  | claimed (client : Nat) (channelID : ID) (version : Nat) (key : Bytes) (attempt : Attempt)
  | returned

/-- How a request to the server goes. -/
inductive Rpc where
  | answered
  | failed
  /-- carried out, but the caller hears of an error -/
  | lost
  deriving DecidableEq

/-- What the environment decides about a step. -/
inductive KeyOutcome where
  | go
  /-- what `generateChannelKey` returns -/
  | key (bytes : Bytes)
  | rpc (rpc : Rpc)
  /-- an upload for the members of one page -/
  | page (members : List ID) (rpc : Rpc)
  /-- another fetch of the client for the channel was under way and has ended -/
  | joined (ok : Bool)

def KeyRequest.start : KeyRequest → KeyPhase
  | .provisionChannelKey client channelID => .create client channelID false
  | .provisionChannelKeyBatched client channelID => .create client channelID true
  | .lazyInitChannelKey client channelID userID => .fetch client channelID (.create userID)
  | .rotateChannelKey client channelID remainingMembers currentVersion =>
    .generate client channelID (.rotate remainingMembers currentVersion true)
  | .distributeKeyToMember client channelID => .latest client channelID false
  | .redistributeChannelKeys client channelID => .latest client channelID true
  | .fetchAndCacheChannelKeys client channelID => .fetch client channelID .nothing

/-! ## Section 2: Steps -/

def KeySystem.cacheOf (sys : KeySystem) (client : Nat) : KeyCache :=
  (sys.clients[client]?.map (·.cache)).getD fun _ => ∅

def KeySystem.userOf (sys : KeySystem) (client : Nat) : Option ID :=
  sys.clients[client]?.map (·.userID)

/-- A write to the cache of one client. -/
def KeySystem.put (sys : KeySystem) (client : Nat) (channelID : ID) (version : Nat)
    (key : Bytes) : KeySystem :=
  { sys with
    clients := sys.clients.modify client fun a =>
      { a with cache := setCachedKey a.cache channelID version key } }

/-- The latest version in a client's cache, with its key. -/
def KeySystem.latestKey (sys : KeySystem) (client : Nat) (channelID : ID) :
    Option (Nat × Bytes) := do
  let version ← getLatestKeyVersion (sys.cacheOf client) channelID
  let key ← (sys.cacheOf client channelID).lookup version
  return (version, key)

def wrapKeys (E : Ecies) (key : Bytes) (members : List ID) : List KeyEnvelope :=
  members.map fun userID => { userID, envelope := E.wrap userID key }

/-- After a fetch that went well. -/
def afterFetch (sys : KeySystem) (client : Nat) (channelID : ID) : Purpose → KeyPhase
  | .nothing => .returned
  | .distribute =>
    match sys.latestKey client channelID with
    | some (version, key) => .distribute channelID version key false
    | none => .returned
  | .create userID =>
    if hasChannelKey (sys.cacheOf client) channelID then .returned
    else .generate client channelID (.lazyInit userID)
  | .retry remainingMembers currentVersion =>
    match getLatestKeyVersion (sys.cacheOf client) channelID with
    | some latest =>
      if currentVersion < latest then
        .generate client channelID (.rotate remainingMembers latest false)
      else .returned
    | none => .returned

/-- After a fetch that threw. Creation goes on regardless. -/
def fetchFailed (client : Nat) (channelID : ID) : Purpose → KeyPhase
  | .create userID => .generate client channelID (.lazyInit userID)
  | .nothing => .returned
  | .distribute => .returned
  | .retry _ _ => .returned

/-- After a rotation that threw. -/
def rotateFailed (client : Nat) (channelID : ID) : Attempt → KeyPhase
  | .lazyInit _ => .fetch client channelID .nothing
  | .rotate remainingMembers currentVersion again =>
    if again then .fetch client channelID (.retry remainingMembers currentVersion) else .returned

/-- `StoreKeyEnvelopes`, carried out or not, and how the caller goes on. -/
def upload (E : Ecies) (t : Tables) (sys : KeySystem) (channelID : ID) (version : Nat)
    (key : Bytes) (paged : Bool) (members : List ID) (rpc : Rpc) : KeySystem × KeyPhase :=
  if rpc = .failed then (sys, .returned)
  else
    match Keys.storeKeyEnvelopes t sys.tables channelID version (wrapKeys E key members) with
    | .error _ => (sys, .returned)
    | .ok tables =>
      ({ sys with tables := tables },
        if rpc = .answered ∧ paged = true then .distribute channelID version key paged
        else .returned)

/-- `RotateChannelKey`, carried out or not, and how the caller goes on. -/
def claim (E : Ecies) (t : Tables) (sys : KeySystem) (client : Nat) (channelID : ID)
    (attempt : Attempt) (key : Bytes) (rpc : Rpc) : KeySystem × KeyPhase :=
  if rpc = .failed then (sys, rotateFailed client channelID attempt)
  else
    match Keys.rotateChannelKey t sys.tables channelID attempt.expectedVersion
        (wrapKeys E key attempt.recipients) with
    | .error _ => (sys, rotateFailed client channelID attempt)
    | .ok (version, tables) =>
      ({ sys with tables := tables },
        if rpc = .answered then .claimed client channelID version key attempt
        else rotateFailed client channelID attempt)

/-- The step of a call; `t` has the channels and users. -/
def keyStep (E : Ecies) (t : Tables) (sys : KeySystem) (_ : List KeyPhase) :
    KeyPhase → KeyOutcome → Option (KeySystem × KeyPhase)
  | .create client channelID paged, .key key =>
    some (sys.put client channelID 1 key, .distribute channelID 1 key paged)
  | .latest client channelID paged, .go =>
    match sys.latestKey client channelID with
    | some (version, key) => some (sys, .distribute channelID version key paged)
    | none => some (sys, if paged then .returned else .fetch client channelID .distribute)
  | .distribute channelID version key paged, .page members rpc =>
    some (upload E t sys channelID version key paged members rpc)
  | .distribute _ _ _ _, .go => some (sys, .returned)
  | .fetch client channelID purpose, .rpc rpc =>
    match rpc, sys.userOf client with
    | .answered, some userID =>
      some (sys, .caching client channelID (Keys.getKeyEnvelopes sys.tables channelID userID)
        purpose)
    | _, _ => some (sys, fetchFailed client channelID purpose)
  | .fetch client channelID purpose, .joined ok =>
    some (sys, if ok then afterFetch sys client channelID purpose
      else fetchFailed client channelID purpose)
  | .caching client channelID [] purpose, .go =>
    some (sys, afterFetch sys client channelID purpose)
  | .caching client channelID (e :: rest) purpose, .go =>
    match (sys.userOf client).bind fun userID => E.unwrap userID e.envelope with
    | some key =>
      some (sys.put client channelID e.keyVersion key, .caching client channelID rest purpose)
    | none => some (sys, fetchFailed client channelID purpose)
  | .generate client channelID attempt, .key key =>
    some (sys, .rotate client channelID attempt key)
  | .rotate client channelID attempt key, .rpc rpc =>
    some (claim E t sys client channelID attempt key rpc)
  | .claimed client channelID version key attempt, .go =>
    some (sys.put client channelID version key,
      match attempt with
      | .lazyInit _ => .distribute channelID version key true
      | .rotate _ _ _ => .returned)
  | _, _ => none

end Meza.Crypto
