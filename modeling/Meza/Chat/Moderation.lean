import Meza.Chat.Service

/-! # Members, bans and roles

    The handlers of `service_moderation.go`: nicknames, role assignments, kicks,
    bans and timeouts of members, and the roles of a server. Every handler that
    touches another member or a role compares ranks by itself. -/

namespace Meza.Chat

open Store Permissions ChatStore RoleStore

/-! ## Section 1: Members -/

/-- What a handler answers about a member. -/
structure MemberProto where
  userID : ID
  serverID : ID
  roleIDs : List ID
  nickname : String
  timedOutUntil : Option Int
  onboardingCompletedAt : Option Int
  rulesAcknowledgedAt : Option Int
  deriving DecidableEq, Repr

/-- `@everyone` is not stored with the member but every member has it. -/
def memberToProto (m : MemberInfo) : MemberProto where
  userID := m.member.userID
  serverID := m.member.serverID
  roleIDs := m.member.serverID :: m.roleIDs
  nickname := m.name
  timedOutUntil := m.member.timedOutUntil
  onboardingCompletedAt := m.member.onboardingCompletedAt
  rulesAcknowledgedAt := m.member.rulesAcknowledgedAt

/-- The answer of a handler that changed a member. -/
def memberResponse (userID serverID : ID) : Handler MemberProto :=
  require fun t =>
    (orElse internalError (getMember t userID serverID)).map memberToProto

def requireTargetMember (t : Tables) (userID serverID : ID) : Except ConnectError Unit :=
  rejectIf (¬ isMember t userID serverID) .notFound
    "user is not a member of this server"

/-- The hierarchy check against a member. -/
def requireOutranks (callerPos : Nat) (t : Tables) (userID serverID : ID) (message : String) :
    Except ConnectError Unit :=
  rejectIf (callerPos ≤ getEffectivePosition t userID serverID) .permissionDenied message

structure UpdateMemberRequest where
  serverID : ID
  userID : ID
  nickname : Option String

/-- Who may set whose nickname. -/
def requireNicknameRights (userID : ID) (srv : Server) (perms : Mask)
    (req : UpdateMemberRequest) (t : Tables) : Except ConnectError Unit :=
  if req.userID = userID then
    rejectIf (¬ has perms changeNickname) .permissionDenied "missing ChangeNickname permission"
  else do
    rejectIf (¬ has perms manageNicknames) .permissionDenied "missing ManageNicknames permission"
    rejectIf (srv.ownerID = req.userID ∧ userID ≠ srv.ownerID) .permissionDenied
      "cannot modify the server owner's nickname"
    -- the owner outranks everyone
    rejectIf (userID ≠ srv.ownerID ∧
        getEffectivePosition t userID req.serverID ≤ getEffectivePosition t req.userID req.serverID)
      .permissionDenied "cannot modify nickname of a member with equal or higher role"

def updateMember (caller : Option ID) (req : UpdateMemberRequest) : Handler MemberProto := do
  let userID ← require fun _ => authenticate caller
  reject (req.serverID = "" ∨ req.userID = "") .invalidArgument
    "server_id and user_id are required"
  reject (req.nickname = none) .invalidArgument "no changes requested"
  let nick := req.nickname.getD ""
  reject (32 < nick.utf8ByteSize) .invalidArgument "nickname must be 32 characters or fewer"
  reject (nick.toList.any fun r => r.toNat < 0x20 ∨ r.toNat = 0x7F) .invalidArgument
    "nickname must not contain control characters"
  require fun t => requireMembership t userID req.serverID
  require fun t => requireTargetMember t req.userID req.serverID
  let srv ← require fun t => orElse internalError (getServer t req.serverID)
  let perms ← resolvePermissions userID req.serverID ""
  require fun t => requireNicknameRights userID srv perms req t
  run fun db => setMemberNickname db req.serverID req.userID nick
  memberResponse req.userID req.serverID

structure SetMemberRolesRequest where
  serverID : ID
  userID : ID
  roleIDs : List ID

/-- The requested roles, each once and without `@everyone`. -/
def SetMemberRolesRequest.dedupedRoleIDs (req : SetMemberRolesRequest) : List ID :=
  (req.roleIDs.filter (· ≠ req.serverID)).eraseDups

/-- The checks of the roles to be assigned. The roles a member loses are not
    looked at, nor is the member's rank. -/
def requireAssignable (userID : ID) (auth : Authority) (serverID : ID) (roleIDs : List ID)
    (t : Tables) : Except ConnectError Unit :=
  if roleIDs.isEmpty then .ok ()
  else do
    let roles := getRolesByIDs t roleIDs serverID
    rejectIf (roles.length ≠ roleIDs.length) .invalidArgument "one or more role_ids are invalid"
    rejectIf (userID ≠ auth.srv.ownerID ∧ roles.any fun r => auth.callerPos ≤ r.position)
      .permissionDenied "cannot assign a role with equal or higher position"
    let assignedPerms := combine (roles.map (·.permissions))
    rejectIf (userID ≠ auth.srv.ownerID ∧ escalated assignedPerms auth.callerPerms ≠ 0)
      .permissionDenied "cannot assign roles with permissions you do not have"

def setMemberRoles (caller : Option ID) (req : SetMemberRolesRequest) : Handler MemberProto := do
  let userID ← require fun _ => authenticate caller
  reject (req.serverID = "" ∨ req.userID = "") .invalidArgument
    "server_id and user_id are required"
  reject (250 < req.roleIDs.length) .invalidArgument "too many role_ids (max 250)"
  require fun t => requireMembership t userID req.serverID
  require fun t => requireTargetMember t req.userID req.serverID
  let auth ← require fun t => requirePermission t userID req.serverID manageRoles
  reject (auth.srv.ownerID = req.userID ∧ userID ≠ auth.srv.ownerID) .permissionDenied
    "cannot modify the server owner's roles"
  reject (req.userID = userID ∧ userID ≠ auth.srv.ownerID) .permissionDenied
    "cannot modify your own roles"
  require fun t => requireAssignable userID auth req.serverID req.dedupedRoleIDs t
  run fun db => RoleStore.setMemberRoles db req.userID req.serverID req.dedupedRoleIDs
  invalidate (·.invalidateUser req.userID req.serverID)
  memberResponse req.userID req.serverID

/-! ## Section 2: Kicks and bans -/

/-- Clean-up after a member is gone: channel memberships and key envelopes of
    the server's channels. A failure is only logged. -/
def removeChannelMembersForServer (userID serverID : ID) : Handler Unit :=
  Action.attempt fun s =>
    (ChatStore.removeChannelMembersForServer s.db userID serverID).map fun db =>
      { s with
        db
        keys :=
          { s.keys with
            channelKeyEnvelopes := Table.deleteWhere (fun row => row.userID = userID ∧
              s.db.tables.channels.any fun c =>
                c.id = row.channelID ∧ c.serverID = some serverID)
              s.keys.channelKeyEnvelopes } }

structure KickMemberRequest where
  serverID : ID
  userID : ID

def kickMember (caller : Option ID) (req : KickMemberRequest) : Handler Unit := do
  let userID ← require fun _ => authenticate caller
  reject (req.serverID = "" ∨ req.userID = "") .invalidArgument
    "server_id and user_id are required"
  require fun t => requireMembership t userID req.serverID
  let auth ← require fun t => requirePermission t userID req.serverID kickMembers
  reject (req.userID = userID) .invalidArgument "cannot kick yourself"
  reject (auth.srv.ownerID = req.userID) .permissionDenied "cannot kick the server owner"
  require fun t => requireTargetMember t req.userID req.serverID
  require fun t => requireOutranks auth.callerPos t req.userID req.serverID
    "cannot kick a member with equal or higher role"
  run fun db => removeMember db req.userID req.serverID
  removeChannelMembersForServer req.userID req.serverID

structure BanMemberRequest where
  serverID : ID
  userID : ID
  reason : String := ""

/-- Members are banned with a rank check, everybody else ahead of time. -/
def placeBan (callerPos : Nat) (ban : Ban) : Handler Unit := do
  let member ← require fun t => .ok (isMember t ban.userID ban.serverID)
  if member then
    require fun t => requireOutranks callerPos t ban.userID ban.serverID
      "cannot ban a member with equal or higher role"
    run fun db => createBanAndRemoveMember db ban callerPos
    removeChannelMembersForServer ban.userID ban.serverID
  else
    let created ← transact fun db => createBan db ban
    reject (¬ created) .alreadyExists "user is already banned"

/-- The reason is written as text, also when it is empty. -/
def banMember (caller : Option ID) (req : BanMemberRequest) : Handler Unit := do
  let userID ← require fun _ => authenticate caller
  reject (req.serverID = "" ∨ req.userID = "") .invalidArgument
    "server_id and user_id are required"
  require fun t => requireMembership t userID req.serverID
  let auth ← require fun t => requirePermission t userID req.serverID banMembers
  reject (req.userID = userID) .invalidArgument "cannot ban yourself"
  reject (auth.srv.ownerID = req.userID) .permissionDenied "cannot ban the server owner"
  require fun t => rejectIf (isBanned t req.serverID req.userID) .alreadyExists
    "user is already banned"
  placeBan auth.callerPos
    { serverID := req.serverID, userID := req.userID, reason := some req.reason,
      bannedBy := some userID }

structure UnbanMemberRequest where
  serverID : ID
  userID : ID

def unbanMember (caller : Option ID) (req : UnbanMemberRequest) : Handler Unit := do
  let userID ← require fun _ => authenticate caller
  reject (req.serverID = "" ∨ req.userID = "") .invalidArgument
    "server_id and user_id are required"
  require fun t => requireMembership t userID req.serverID
  let _ ← require fun t => requirePermission t userID req.serverID banMembers
  require fun t => rejectIf (¬ isBanned t req.serverID req.userID) .notFound
    "user is not banned"
  run fun db => deleteBan db req.serverID req.userID

/-! ## Section 3: Timeouts -/

structure TimeoutMemberRequest where
  serverID : ID
  userID : ID
  timedOutUntil : Option Int

/-- 28 days in seconds. -/
def maxTimeout : Int := 28 * 24 * 60 * 60

def timeoutMember (caller : Option ID) (req : TimeoutMemberRequest) : Handler MemberProto := do
  let userID ← require fun _ => authenticate caller
  reject (req.serverID = "" ∨ req.userID = "" ∨ req.timedOutUntil = none) .invalidArgument
    "server_id, user_id, and timed_out_until are required"
  require fun t => requireMembership t userID req.serverID
  reject (req.userID = userID) .invalidArgument "cannot timeout yourself"
  let auth ← require fun t => requirePermission t userID req.serverID timeoutMembers
  reject (auth.srv.ownerID = req.userID) .permissionDenied "cannot timeout the server owner"
  require fun t => requireTargetMember t req.userID req.serverID
  require fun t => requireOutranks auth.callerPos t req.userID req.serverID
    "cannot timeout a member with equal or higher role"
  let timedOutUntil := req.timedOutUntil.getD 0
  Action.check fun s => rejectIf (s.now + maxTimeout < timedOutUntil) .invalidArgument
    "timeout duration cannot exceed 28 days"
  Action.check fun s => rejectIf (timedOutUntil < s.now) .invalidArgument
    "timed_out_until must be in the future"
  run fun db => setMemberTimeout db req.serverID req.userID (some timedOutUntil)
  invalidate (·.invalidateUser req.userID req.serverID)
  memberResponse req.userID req.serverID

structure RemoveTimeoutRequest where
  serverID : ID
  userID : ID

def removeTimeout (caller : Option ID) (req : RemoveTimeoutRequest) : Handler MemberProto := do
  let userID ← require fun _ => authenticate caller
  reject (req.serverID = "" ∨ req.userID = "") .invalidArgument
    "server_id and user_id are required"
  require fun t => requireMembership t userID req.serverID
  let auth ← require fun t => requirePermission t userID req.serverID timeoutMembers
  require fun t => requireTargetMember t req.userID req.serverID
  require fun t => requireOutranks auth.callerPos t req.userID req.serverID
    "cannot remove timeout of a member with equal or higher role"
  run fun db => setMemberTimeout db req.serverID req.userID none
  invalidate (·.invalidateUser req.userID req.serverID)
  memberResponse req.userID req.serverID

/-! ## Section 4: Roles -/

structure CreateRoleRequest where
  serverID : ID
  name : String
  permissions : Mask := 0
  color : Int := 0
  isSelfAssignable : Bool := false

/-- `newID` is the id drawn for the role. -/
def createRole (newID : ID) (caller : Option ID) (req : CreateRoleRequest) : Handler Role := do
  let userID ← require fun _ => authenticate caller
  reject (req.serverID = "" ∨ req.name = "") .invalidArgument "server_id and name are required"
  require fun t => requireMembership t userID req.serverID
  let auth ← require fun t => requirePermission t userID req.serverID manageRoles
  reject (req.permissions ≠ 0 ∧ ¬ validate req.permissions) .invalidArgument
    "invalid permissions"
  reject (req.permissions ≠ 0 ∧ userID ≠ auth.srv.ownerID ∧
      escalated req.permissions auth.callerPerms ≠ 0)
    .permissionDenied "cannot set permissions you do not have"
  transact fun db => RoleStore.createRole db
    { id := newID, serverID := req.serverID, name := req.name, permissions := req.permissions,
      color := req.color, position := 0, isSelfAssignable := req.isSelfAssignable }

structure UpdateRoleRequest extends RolePatch where
  roleID : ID

/-- A set mask must be valid, and for others than the owner within the caller's
    permissions. Making a role self-assignable is not checked. -/
def requireSettable (userID : ID) (auth : Authority) (perms : Option Mask) :
    Except ConnectError Unit := do
  rejectIf (perms.any fun p => !validate p) .invalidArgument "invalid permissions"
  rejectIf (userID ≠ auth.srv.ownerID ∧ perms.any fun p => escalated p auth.callerPerms ≠ 0)
    .permissionDenied "cannot set permissions you do not have"

/-- The role tells the server. -/
def requireRole (t : Tables) (roleID : ID) : Except ConnectError Role :=
  orElse { code := .notFound, message := "role not found" } (getRole t roleID)

def updateRole (caller : Option ID) (req : UpdateRoleRequest) : Handler Role := do
  let userID ← require fun _ => authenticate caller
  reject (req.roleID = "") .invalidArgument "role_id is required"
  let role ← require fun t => requireRole t req.roleID
  require fun t => requireMembership t userID role.serverID
  let auth ← require fun t => requirePermission t userID role.serverID manageRoles
  reject (role.id = role.serverID ∧ req.name ≠ none) .invalidArgument
    "cannot rename the @everyone role"
  reject (auth.callerPos ≤ role.position) .permissionDenied
    "cannot modify a role with equal or higher position"
  require fun _ => requireSettable userID auth req.permissions
  let updated ← transact fun db => RoleStore.updateRole db req.roleID req.toRolePatch
  invalidate (·.invalidateServer role.serverID)
  return updated

structure DeleteRoleRequest where
  roleID : ID

def deleteRole (caller : Option ID) (req : DeleteRoleRequest) : Handler Unit := do
  let userID ← require fun _ => authenticate caller
  reject (req.roleID = "") .invalidArgument "role_id is required"
  let role ← require fun t => requireRole t req.roleID
  require fun t => requireMembership t userID role.serverID
  let auth ← require fun t => requirePermission t userID role.serverID manageRoles
  reject (role.id = role.serverID) .invalidArgument "cannot delete the @everyone role"
  reject (auth.callerPos ≤ role.position) .permissionDenied
    "cannot delete a role with equal or higher position"
  run fun db => RoleStore.deleteRole db req.roleID
  invalidate (·.invalidateServer role.serverID)

structure ReorderRolesRequest where
  serverID : ID
  roleIDs : List ID

/-- `math.MaxInt`, the position the handler gives the owner. -/
def ownerReorderPosition : Nat := 9223372036854775807

/-- The store's own refusals reach the client with their text. -/
def reorder (serverID : ID) (roleIDs : List ID) (callerPos : Nat) : Handler Unit :=
  Action.update fun s =>
    match reorderRoles s.db serverID roleIDs callerPos with
    | .ok db => .ok ((), { s with db })
    | .error (.invalid msg) => .error { code := .invalidArgument, message := msg }
    | .error _ => .error internalError

def reorderRoles (caller : Option ID) (req : ReorderRolesRequest) : Handler Unit := do
  let userID ← require fun _ => authenticate caller
  reject (req.serverID = "") .invalidArgument "server_id is required"
  reject (req.roleIDs.length = 0) .invalidArgument "role_ids is required"
  reject (250 < req.roleIDs.length) .invalidArgument "too many role_ids (max 250)"
  require fun t => requireMembership t userID req.serverID
  let auth ← require fun t => requirePermission t userID req.serverID manageRoles
  let callerPos := if userID = auth.srv.ownerID then ownerReorderPosition else auth.callerPos
  reject (req.serverID ∈ req.roleIDs) .invalidArgument "@everyone role cannot be reordered"
  reorder req.serverID req.roleIDs.eraseDups callerPos
  invalidate (·.invalidateServer req.serverID)

end Meza.Chat
