import Meza.Lib.Pool
import Meza.Rpc
import Meza.Store.Schema

/-! # The presence service

    Each user has one hash in Redis. It holds the status that the user's clients
    report and the override that the user has chosen, and it expires 60 seconds
    after the last report or heartbeat. What others are shown is worked out
    whenever someone asks and whenever an event is published.

    A pipeline is a row of commands, and each command is one step: the commands
    of other calls come in between. Redis always answers. Times are Unix
    seconds. -/

namespace Meza.Presence

open Store (ID)

/-! ## Section 1: Statuses -/

/-- `v1.PresenceStatus` -/
inductive Status where
  | unspecified
  | online
  | idle
  | dnd
  | offline
  | invisible
  deriving DecidableEq, Repr

/-- The number of a status on the wire; other numbers can be sent as well. -/
def Status.number : Status → Int
  | .unspecified => 0
  | .online => 1
  | .idle => 2
  | .dnd => 3
  | .offline => 4
  | .invisible => 5

/-- `none` is a field that is missing, which does not parse. -/
def parsePresenceStatus : Option Int → Status
  | some 0 => .unspecified
  | some 1 => .online
  | some 2 => .idle
  | some 3 => .dnd
  | some 4 => .offline
  | some 5 => .invisible
  | _ => .offline

/-- The fields of a hash `presence:…`. -/
structure Hash where
  status : Option Int := none
  lastSeen : Option Nat := none
  statusText : Option String := none
  overrideStatus : Option Int := none
  overrideExpiresAt : Option Nat := none
  deriving DecidableEq, Repr

/-- An override as it is stored; an expiry of 0 is none. -/
structure Override where
  status : Status
  expiresAt : Nat
  deriving DecidableEq, Repr

/-- The override in the hash, expired or not. -/
def Hash.override (h : Hash) : Option Override :=
  match h.overrideStatus with
  | none | some 0 => none
  | some v => some ⟨parsePresenceStatus (some v), h.overrideExpiresAt.getD 0⟩

def Override.expired (o : Override) (now : Nat) : Bool := o.expiresAt ≠ 0 ∧ o.expiresAt < now

/-- The status to expose to the user, or to others. -/
def resolveEffectiveStatus (now : Nat) (h : Hash) (isSelf : Bool) : Status :=
  let realStatus := parsePresenceStatus h.status
  match h.override with
  | none => realStatus
  | some o =>
    if o.expired now then realStatus
    else
      match o.status with
      | .dnd => .dnd
      | .invisible | .offline => if isSelf then o.status else .offline
      | _ => realStatus

/-! ## Section 2: Redis -/

/-- A hash with the time of its expiry. A key that is not there has no fields. -/
structure Entry where
  hash : Hash := {}
  expiresAt : Option Nat := none
  deriving DecidableEq, Repr

/-- An event on `meza.presence.update.…`. -/
structure Publication where
  userID : ID
  status : Status
  statusText : String
  deriving DecidableEq, Repr

structure State where
  now : Nat := 0
  presence : ID → Entry := fun _ => {}
  /-- The latest publication first. -/
  published : List Publication := []

/-- The key as Redis finds it: it expires when its time has come. -/
def State.entry (s : State) (userID : ID) : Entry :=
  let e := s.presence userID
  if e.expiresAt.any (· ≤ s.now) then {} else e

def State.hash (s : State) (userID : ID) : Hash := (s.entry userID).hash

def State.put (s : State) (userID : ID) (e : Entry) : State :=
  { s with presence := Function.update s.presence userID e }

/-- `HSET` keeps the expiry of the key. -/
def State.hset (s : State) (userID : ID) (f : Hash → Hash) : State :=
  s.put userID { s.entry userID with hash := f (s.hash userID) }

/-- `EXPIRE` does nothing if the key is not there. -/
def State.expire (s : State) (userID : ID) (seconds : Nat) : State :=
  if s.hash userID = {} then s
  else s.put userID { s.entry userID with expiresAt := some (s.now + seconds) }

/-- `HDEL key override_status override_expires_at`; a key without fields is gone. -/
def State.hdelOverride (s : State) (userID : ID) : State :=
  let hash := { s.hash userID with overrideStatus := none, overrideExpiresAt := none }
  s.put userID (if hash = {} then {} else { s.entry userID with hash })

def State.publishPresenceUpdate (s : State) (userID : ID) (status : Status)
    (statusText : String) : State :=
  { s with published := { userID, status, statusText } :: s.published }

def State.pass (s : State) (seconds : Nat) : State := { s with now := s.now + seconds }

/-! ### What a command does to a hash -/

section Commands

variable {s : State} {userID : ID}

/-- A key that has not expired is found as it was written. -/
theorem entry_put (s : State) (userID : ID) (e : Entry)
    (halive : e.expiresAt.any (· ≤ s.now) = false) (u : ID) :
    (s.put userID e).entry u = if u = userID then e else s.entry u := by
  unfold State.put State.entry
  by_cases hu : u = userID
  · subst hu
    simp [halive]
  · simp [hu]

theorem entry_alive (s : State) (userID : ID) :
    (s.entry userID).expiresAt.any (· ≤ s.now) = false := by
  unfold State.entry
  dsimp only
  split
  · rfl
  · next halive => simpa using halive

theorem hash_put (s : State) (userID : ID) (e : Entry)
    (halive : e.expiresAt.any (· ≤ s.now) = false) (u : ID) :
    (s.put userID e).hash u = if u = userID then e.hash else s.hash u := by
  unfold State.hash
  rw [entry_put s userID e halive u]
  by_cases hu : u = userID
  · rw [if_pos hu, if_pos hu]
  · rw [if_neg hu, if_neg hu]

theorem hash_hset (f : Hash → Hash) (u : ID) :
    (s.hset userID f).hash u = if u = userID then f (s.hash userID) else s.hash u :=
  hash_put s userID { s.entry userID with hash := f (s.hash userID) } (entry_alive s userID) u

@[simp] theorem hset_now (f : Hash → Hash) : (s.hset userID f).now = s.now := rfl

theorem hash_expire {seconds : Nat} (hpos : 0 < seconds) (u : ID) :
    (s.expire userID seconds).hash u = s.hash u := by
  unfold State.expire
  by_cases hnone : s.hash userID = {}
  · rw [if_pos hnone]
  · rw [if_neg hnone]
    have halive : ({ s.entry userID with expiresAt := some (s.now + seconds) } :
        Entry).expiresAt.any (· ≤ s.now) = false := by
      show decide (s.now + seconds ≤ s.now) = false
      rw [decide_eq_false_iff_not]
      omega
    rw [hash_put s userID _ halive u]
    by_cases hu : u = userID
    · rw [if_pos hu, hu]
      rfl
    · rw [if_neg hu]

@[simp] theorem expire_now {seconds : Nat} : (s.expire userID seconds).now = s.now := by
  unfold State.expire
  split
  · rfl
  · rfl

theorem hash_hdelOverride (u : ID) :
    (s.hdelOverride userID).hash u =
      if u = userID then
        { s.hash userID with overrideStatus := none, overrideExpiresAt := none }
      else s.hash u := by
  unfold State.hdelOverride
  dsimp only
  split
  · next hempty =>
    rw [hash_put s userID {} rfl u, hempty]
  · exact hash_put s userID { s.entry userID with
      hash := { s.hash userID with overrideStatus := none, overrideExpiresAt := none } }
      (entry_alive s userID) u

@[simp] theorem hdelOverride_now : (s.hdelOverride userID).now = s.now := rfl

theorem hash_pass (s : State) (seconds : Nat) (u : ID) :
    (s.pass seconds).hash u = {} ∨ (s.pass seconds).hash u = s.hash u := by
  unfold State.hash State.entry State.pass
  by_cases hlater : (s.presence u).expiresAt.any (· ≤ s.now + seconds) = true
  · left
    rw [if_pos hlater]
  · right
    have hnow : ¬ (s.presence u).expiresAt.any (· ≤ s.now) = true := by
      intro hnow
      apply hlater
      obtain ⟨t, ht, hle⟩ := (Option.any_eq_true _ _).mp hnow
      exact (Option.any_eq_true _ _).mpr ⟨t, ht, by simp at hle ⊢; omega⟩
    rw [if_neg hlater, if_neg hnow]

theorem hash_pass_of_lt {seconds : Nat} {u : ID}
    (hlasts : ∀ t ∈ (s.entry u).expiresAt, s.now + seconds < t) :
    (s.pass seconds).hash u = s.hash u := by
  rcases hash_pass s seconds u with hgone | hsame
  · unfold State.hash State.entry State.pass at hgone ⊢
    unfold State.entry at hlasts
    by_cases hnow : (s.presence u).expiresAt.any (· ≤ s.now) = true
    · rw [if_pos hnow, hgone]
    · rw [if_neg hnow] at hlasts ⊢
      rw [if_neg]
      intro hlater
      obtain ⟨t, ht, hle⟩ := (Option.any_eq_true _ _).mp hlater
      have hlt := hlasts t ht
      have hle' : t ≤ s.now + seconds := by simpa using hle
      omega
  · exact hsame

end Commands

/-! ## Section 3: Queries -/

structure PresenceResponse where
  userID : ID
  status : Status
  statusText : String := ""
  deriving DecidableEq, Repr

/-- The answer from one `HGETALL`. -/
def presenceOf (s : State) (userID : ID) (isSelf : Bool) : PresenceResponse :=
  let result := s.hash userID
  if result = {} then { userID, status := .offline }
  else
    { userID, status := resolveEffectiveStatus s.now result isSelf,
      statusText := result.statusText.getD "" }

/-- `shareAnyServer` answers whether two users have a server in common. -/
def getPresence (shareAnyServer : ID → ID → Bool) (s : State) (callerID userID : ID) :
    Except ConnectError PresenceResponse := do
  rejectIf (userID = "") .invalidArgument "user_id is required"
  rejectIf (callerID ≠ userID ∧ ! shareAnyServer callerID userID) .permissionDenied
    "no shared server with target user"
  return presenceOf s userID (callerID = userID)

/-- The commands of the pipeline are executed in states that may differ. -/
def getBulkPresence (shareAnyServer : ID → ID → Bool) (stateFor : ID → State) (callerID : ID)
    (userIDs : List ID) : Except ConnectError (List PresenceResponse) := do
  rejectIf (200 < userIDs.length) .invalidArgument "too many user IDs (max 200)"
  let allowed := userIDs.filter fun uid => uid = callerID ∨ shareAnyServer callerID uid
  return allowed.map fun uid => presenceOf (stateFor uid) uid (uid = callerID)

/-! ## Section 4: Calls -/

inductive Call where
  | updatePresence (userID : ID) (status : Int) (statusText : Option String)
  | setStatusOverride (userID : ID) (status : Int) (durationSeconds : Int)
  | clearStatusOverride (userID : ID)
  | getMyPresence (userID : ID)
  | heartbeat (userID : ID)
  | pass (seconds : Nat)
  deriving DecidableEq, Repr

/-- Where a call is: the command that it executes next. -/
inductive Phase where
  | updateWriting (userID : ID) (status : Int) (statusText : Option String)
  | updateExpiring (userID : ID) (statusText : Option String)
  | updateReading (userID : ID) (statusText : Option String)
  | updatePublishing (userID : ID) (statusText : Option String) (result : Hash)
  | setWriting (userID : ID) (status : Status) (durationSeconds : Nat)
  | setReading (userID : ID) (o : Override)
  | setPublishing (userID : ID) (o : Override) (result : Hash)
  | clearDeleting (userID : ID)
  | realReading (userID : ID)
  | realPublishing (userID : ID) (result : Hash)
  | myReading (userID : ID)
  | myDeleting (userID : ID)
  | beatRenewing (userID : ID)
  | expiryStatus (userID : ID)
  | expiryTime (userID : ID)
  | expiryDeleting (userID : ID)
  | passing (seconds : Nat)
  | refused (error : ConnectError)
  | done
  deriving DecidableEq, Repr

def presenceTTL : Nat := 60

def maxOverrideDuration : Int := 30 * 24 * 60 * 60

/-- The checks of `SetStatusOverride`. -/
def validateOverride (status durationSeconds : Int) : Except ConnectError Status := do
  let parsed := parsePresenceStatus (some status)
  rejectIf (status ≠ parsed.number ∨ parsed ∉ [.dnd, .offline, .invisible]) .invalidArgument
    "status must be DND, OFFLINE, or INVISIBLE"
  rejectIf (durationSeconds < 0) .invalidArgument "duration must be non-negative"
  rejectIf (maxOverrideDuration < durationSeconds) .invalidArgument
    "duration must not exceed 30 days"
  return parsed

def Phase.begin : Call → Phase
  | .updatePresence userID status statusText => .updateWriting userID status statusText
  | .setStatusOverride userID status durationSeconds =>
    match validateOverride status durationSeconds with
    | .error e => .refused e
    | .ok parsed => .setWriting userID parsed durationSeconds.toNat
  | .clearStatusOverride userID => .clearDeleting userID
  | .getMyPresence userID => .myReading userID
  | .heartbeat userID => .beatRenewing userID
  | .pass seconds => .passing seconds

/-- The override that a call sets now. -/
def overrideFrom (now : Nat) (status : Status) (durationSeconds : Nat) : Override :=
  { status, expiresAt := if 0 < durationSeconds then now + durationSeconds else 0 }

/-- The fields that `UpdatePresence` writes. -/
def Hash.report (h : Hash) (now : Nat) (status : Int) (statusText : Option String) : Hash :=
  { h with
    status := some status
    lastSeen := some now
    statusText := statusText.or h.statusText }

/-- The fields that `SetStatusOverride` writes. -/
def Hash.withOverride (h : Hash) (o : Override) : Hash :=
  { h with overrideStatus := some o.status.number, overrideExpiresAt := some o.expiresAt }

/-! ### What calls do to an override -/

theorem withOverride_override (h : Hash) {o : Override} (hset : o.status ≠ .unspecified) :
    (h.withOverride o).override = some o := by
  obtain ⟨status, expiresAt⟩ := o
  cases status with
  | unspecified => exact absurd rfl hset
  | _ => rfl

theorem resolveEffectiveStatus_real {now : Nat} {h : Hash} {isSelf : Bool}
    (hnone : ∀ o, h.override = some o → o.expired now = true) :
    resolveEffectiveStatus now h isSelf = parsePresenceStatus h.status := by
  unfold resolveEffectiveStatus
  rcases hstored : h.override with _ | o
  · rfl
  · dsimp only
    rw [if_pos (hnone o hstored)]

/-- What a call does with its next command. -/
def advance (s : State) : Phase → Option (State × Phase)
  -- UpdatePresence
  | .updateWriting u status statusText =>
    some (s.hset u fun h => h.report s.now status statusText, .updateExpiring u statusText)
  | .updateExpiring u statusText => some (s.expire u presenceTTL, .updateReading u statusText)
  | .updateReading u statusText => some (s, .updatePublishing u statusText (s.hash u))
  | .updatePublishing u statusText result =>
    some (s.publishPresenceUpdate u (resolveEffectiveStatus s.now result false)
      (statusText.getD ""), .done)
  -- SetStatusOverride
  | .setWriting u status durationSeconds =>
    let o := overrideFrom s.now status durationSeconds
    some (s.hset u fun h => h.withOverride o, .setReading u o)
  | .setReading u o => some (s, .setPublishing u o (s.hash u))
  | .setPublishing u _ result =>
    some (s.publishPresenceUpdate u (resolveEffectiveStatus s.now result false)
      (result.statusText.getD ""), .done)
  -- ClearStatusOverride, and what it shares with `checkOverrideExpiry`
  | .clearDeleting u => some (s.hdelOverride u, .realReading u)
  | .realReading u => some (s, .realPublishing u (s.hash u))
  | .realPublishing u result =>
    some (s.publishPresenceUpdate u (parsePresenceStatus result.status)
      (result.statusText.getD ""), .done)
  -- GetMyPresence
  | .myReading u =>
    match (s.hash u).override with
    | none => some (s, .done)
    | some o => some (s, if o.expired s.now then .myDeleting u else .done)
  | .myDeleting u => some (s.hdelOverride u, .done)
  -- heartbeats
  | .beatRenewing u => some (s.expire u presenceTTL, .expiryStatus u)
  | .expiryStatus u =>
    match (s.hash u).overrideStatus with
    | none | some 0 => some (s, .done)
    | some _ => some (s, .expiryTime u)
  | .expiryTime u =>
    match (s.hash u).overrideExpiresAt with
    | none | some 0 => some (s, .done)
    | some t => some (s, if s.now ≤ t then .done else .expiryDeleting u)
  | .expiryDeleting u => some (s.hdelOverride u, .realReading u)
  | .passing seconds => some (s.pass seconds, .done)
  | .refused _ | .done => none

/-- The calls work on Redis only. -/
def next (s : State) (_ : List Phase) (p : Phase) (_ : Unit) : Option (State × Phase) :=
  advance s p

abbrev Event := Pool.Event Call Unit

abbrev Presences := Pool.State State Phase

def step : Presences → Event → Presences := Pool.step .begin next

def initial (now : Nat) : Presences := { shared := { now }, calls := [] }

end Meza.Presence
