import Meza.Chat.Service

/-! # Permission overrides of channels and categories

    The handlers of `service_permission_overrides.go`. Overrides of a voice
    channel are mirrored to its text companion, and the companion itself is off
    limits. -/

namespace Meza.Chat

open Store Permissions ChatStore

/-! ## Section 1: Targets -/

structure OverrideTarget where
  serverID : ID
  isGroup : Bool

/-- The server that owns a category or channel; categories are tried first. -/
def resolveTargetServerID (t : Tables) (targetID : ID) : Except ConnectError OverrideTarget :=
  match getChannelGroup t targetID, getChannel t targetID with
  | .ok group, _ => .ok { serverID := group.serverID, isGroup := true }
  | _, .ok ch => .ok { serverID := ch.serverID.getD "", isGroup := false }
  | _, _ => .error { code := .notFound, message := "target not found" }

def OverrideTarget.scope (target : OverrideTarget) (targetID : ID) : OverrideScope :=
  if target.isGroup then .group targetID else .channel targetID

def rejectCompanion (t : Tables) (target : OverrideTarget) (targetID : ID) (message : String) :
    Except ConnectError Unit :=
  rejectIf (¬ target.isGroup ∧ isVoiceTextCompanion t targetID) .failedPrecondition message

/-! ## Section 2: Setting -/

structure SetPermissionOverrideRequest where
  targetID : ID
  roleID : ID := ""
  userID : ID := ""
  allow : Mask
  deny : Mask

/-- The role or member an override may be set for. -/
def requireSettableSubject (userID serverID : ID) (auth : Authority)
    (req : SetPermissionOverrideRequest) (t : Tables) : Except ConnectError OverrideSubject := do
  if req.roleID ≠ "" then
    let role ← orElse { code := .notFound, message := "role not found" }
      (RoleStore.getRole t req.roleID)
    rejectIf (role.serverID ≠ serverID) .invalidArgument "role does not belong to this server"
    rejectIf (auth.callerPos ≤ role.position) .permissionDenied
      "cannot set overrides for a role at or above your position"
    return .role req.roleID
  else
    rejectIf (requireMembership t req.userID serverID ≠ .ok ()) .invalidArgument
      "target user is not a member of this server"
    rejectIf (req.userID = auth.srv.ownerID) .invalidArgument
      "cannot set overrides for the server owner"
    let targetMaxPos ← orElse internalError (getUserMaxRolePosition t req.userID serverID)
    rejectIf (auth.callerPos ≤ targetMaxPos ∧ userID ≠ auth.srv.ownerID) .permissionDenied
      "cannot set overrides for a user at or above your role position"
    return .user req.userID

/-- The same override for the text companion of a voice channel. -/
def mirrorOverride (mirrorID : ID) (override : PermissionOverride) (db : DB) :
    Except StoreError DB :=
  match override.scope with
  | .group _ => .ok db
  | .channel channelID => do
    let ch ← getChannel db.tables channelID
    match ch.voiceTextChannelID with
    | none => .ok db
    | some companionID =>
      (setOverride db { override with id := mirrorID, scope := .channel companionID }).map (·.2)

/-- A channel with an override of its own is no longer synced. -/
def unsyncOverridden (scope : OverrideScope) (db : DB) : Except StoreError DB :=
  match scope with
  | .group _ => .ok db
  | .channel channelID => do
    let ch ← getChannel db.tables channelID
    if ch.permissionsSynced then setPermissionsSynced db channelID false else .ok db

/-- `newID` and `mirrorID` are the ids drawn for the two override rows. -/
def setPermissionOverride (newID mirrorID : ID) (caller : Option ID)
    (req : SetPermissionOverrideRequest) : Handler PermissionOverride := do
  let userID ← require fun _ => authenticate caller
  reject (req.targetID = "") .invalidArgument "target_id is required"
  reject (req.roleID ≠ "" ↔ req.userID ≠ "") .invalidArgument
    "exactly one of role_id or user_id is required"
  reject (¬ validateChannelScoped req.allow) .invalidArgument
    "allow contains invalid permission bits"
  reject (¬ validateChannelScoped req.deny) .invalidArgument
    "deny contains invalid permission bits"
  let target ← require fun t => resolveTargetServerID t req.targetID
  require fun t => rejectCompanion t target req.targetID
    "set overrides on the parent voice channel; they are mirrored automatically"
  require fun t => requireMembership t userID target.serverID
  let auth ← require fun t => requirePermission t userID target.serverID manageRoles
  let subject ← require fun t => requireSettableSubject userID target.serverID auth req t
  reject (userID ≠ auth.srv.ownerID ∧ escalated req.allow auth.callerPerms ≠ 0)
    .permissionDenied "cannot allow permissions you do not have"
  reject (userID ≠ auth.srv.ownerID ∧ escalated req.deny auth.callerPerms ≠ 0)
    .permissionDenied "cannot deny permissions you do not have"
  let override : PermissionOverride :=
    { id := newID, scope := target.scope req.targetID, subject, allow := req.allow,
      deny := req.deny }
  let created ← transact fun db => setOverride db override
  attempt (mirrorOverride mirrorID override)
  attempt (unsyncOverridden override.scope)
  invalidate (·.invalidateServer target.serverID)
  return created

/-! ## Section 3: Deleting -/

structure DeletePermissionOverrideRequest where
  targetID : ID
  roleID : ID := ""
  userID : ID := ""

/-- The role or member whose override may be deleted. The comment in the source
    wants to tolerate members who left; their lookup fails with an error that is
    not `ErrNotFound`. -/
def requireDeletableSubject (userID serverID : ID) (auth : Authority)
    (req : DeletePermissionOverrideRequest) (t : Tables) :
    Except ConnectError OverrideSubject := do
  if req.roleID ≠ "" then
    let role ← orElse { code := .notFound, message := "role not found" }
      (RoleStore.getRole t req.roleID)
    rejectIf (role.serverID ≠ serverID) .invalidArgument "role does not belong to this server"
    rejectIf (auth.callerPos ≤ role.position) .permissionDenied
      "cannot delete overrides for a role at or above your position"
    return .role req.roleID
  else
    rejectIf (req.userID = auth.srv.ownerID) .invalidArgument
      "cannot delete overrides for the server owner"
    match getUserMaxRolePosition t req.userID serverID with
    | .error (.notFound _) => return .user req.userID
    | .error _ => throw internalError
    | .ok targetMaxPos =>
      rejectIf (auth.callerPos ≤ targetMaxPos ∧ userID ≠ auth.srv.ownerID) .permissionDenied
        "cannot delete overrides for a user at or above your role position"
      return .user req.userID

def deleteOverrideFor (targetID : ID) (subject : OverrideSubject) (db : DB) :
    Except StoreError DB :=
  match subject with
  | .role roleID => deleteOverride db targetID roleID
  | .user userID => deleteOverrideByUser db targetID userID

/-- The deletion for the text companion of a voice channel. -/
def mirrorDeletion (scope : OverrideScope) (subject : OverrideSubject) (db : DB) :
    Except StoreError DB :=
  match scope with
  | .group _ => .ok db
  | .channel channelID => do
    let ch ← getChannel db.tables channelID
    match ch.voiceTextChannelID with
    | none => .ok db
    | some companionID => deleteOverrideFor companionID subject db

def deletePermissionOverride (caller : Option ID) (req : DeletePermissionOverrideRequest) :
    Handler Unit := do
  let userID ← require fun _ => authenticate caller
  reject (req.targetID = "") .invalidArgument "target_id is required"
  reject (req.roleID ≠ "" ↔ req.userID ≠ "") .invalidArgument
    "exactly one of role_id or user_id is required"
  let target ← require fun t => resolveTargetServerID t req.targetID
  require fun t => rejectCompanion t target req.targetID
    "delete overrides on the parent voice channel; they are mirrored automatically"
  require fun t => requireMembership t userID target.serverID
  let auth ← require fun t => requirePermission t userID target.serverID manageRoles
  let subject ← require fun t => requireDeletableSubject userID target.serverID auth req t
  run (deleteOverrideFor req.targetID subject)
  attempt (mirrorDeletion (target.scope req.targetID) subject)
  invalidate (·.invalidateServer target.serverID)

/-! ## Section 4: Syncing with the category -/

structure SyncChannelPermissionsRequest where
  channelID : ID

/-- The caller must outrank the role or member of an override. -/
def requireOutranksOverride (userID serverID : ID) (auth : Authority) (t : Tables)
    (o : PermissionOverride) : Except ConnectError Unit :=
  match o.subject with
  | .role roleID =>
    rejectIf (userID ≠ auth.srv.ownerID ∧
        ∃ r ∈ RoleStore.getRolesByIDs t [roleID] serverID, auth.callerPos ≤ r.position)
      .permissionDenied "cannot sync: channel has overrides for a role at or above your position"
  | .user targetID =>
    match getUserMaxRolePosition t targetID serverID with
    | .error (.notFound _) => .ok ()
    | .error _ => .error internalError
    | .ok targetMaxPos =>
      rejectIf (auth.callerPos ≤ targetMaxPos ∧ userID ≠ auth.srv.ownerID) .permissionDenied
        "cannot sync: channel has overrides for a user at or above your role position"

def requireChannel (t : Tables) (channelID : ID) : Except ConnectError Channel :=
  orElse { code := .notFound, message := "channel not found" } (getChannel t channelID)

def syncChannelPermissions (caller : Option ID) (req : SyncChannelPermissionsRequest) :
    Handler Channel := do
  let userID ← require fun _ => authenticate caller
  reject (req.channelID = "") .invalidArgument "channel_id is required"
  let ch ← require fun t => requireChannel t req.channelID
  reject (ch.channelGroupID = none) .failedPrecondition
    "channel must belong to a category to sync permissions"
  require fun t => rejectIf (isVoiceTextCompanion t req.channelID) .failedPrecondition
    "sync permissions on the parent voice channel; they are mirrored automatically"
  let serverID := ch.serverID.getD ""
  require fun t => requireMembership t userID serverID
  let auth ← require fun t => requirePermission t userID serverID manageRoles
  require fun t => (listOverridesByTarget t req.channelID).forM
    (requireOutranksOverride userID serverID auth t)
  run fun db => syncChannelToCategory db req.channelID ch.voiceTextChannelID
  invalidate (·.invalidateChannel req.channelID)
  require fun t => orElse internalError (getChannel t req.channelID)

end Meza.Chat
