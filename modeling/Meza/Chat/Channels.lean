import Meza.Chat.Overrides
import Meza.Permissions.Attribute

/-! # Channels and categories

    `UpdateChannel` with its privacy toggle and its move between categories,
    `DeleteChannelGroup`, and the two requests that answer with effective
    permissions. -/

namespace Meza.Chat

open Store Permissions ChatStore

/-! ## Section 1: Content warnings -/

/-- `unicode.IsSpace`. -/
def isSpace (c : Char) : Bool :=
  c.toNat ∈ [0x09, 0x0A, 0x0B, 0x0C, 0x0D, 0x20, 0x85, 0xA0, 0x1680, 0x2028, 0x2029, 0x202F,
    0x205F, 0x3000] ∨ (0x2000 ≤ c.toNat ∧ c.toNat ≤ 0x200A)

/-- Characters that change the direction of text. -/
def isBidiOverride (c : Char) : Bool :=
  (0x202A ≤ c.toNat ∧ c.toNat ≤ 0x202E) ∨ (0x2066 ≤ c.toNat ∧ c.toNat ≤ 0x2069)

def validateContentWarning (cw : String) : Except ConnectError Unit :=
  if cw = "" then .ok ()
  else do
    let runes := cw.toList
    rejectIf (runes.all isSpace) .invalidArgument "content warning cannot be whitespace-only"
    rejectIf (256 < runes.length) .invalidArgument "content warning exceeds 256 characters"
    rejectIf (.ofNat 0 ∈ runes ∨ ('<' ∈ runes ∧ '>' ∈ runes) ∨ runes.any isBidiOverride)
      .invalidArgument "content warning contains invalid characters"

/-! ## Section 2: UpdateChannel -/

structure UpdateChannelRequest extends ChannelPatch where
  channelID : ID

/-- A category to move to must be one of the channel's server. -/
def requireGroupOfServer (t : Tables) (groupID serverID : ID) : Except ConnectError Unit :=
  if groupID = "" then .ok ()
  else do
    let group ← orElse { code := .notFound, message := "channel group not found" }
      (getChannelGroup t groupID)
    rejectIf (group.serverID ≠ serverID) .invalidArgument
      "channel group does not belong to this server"

/-- The checks of the fields of the request. -/
def validateUpdate (ch : Channel) (req : UpdateChannelRequest) (t : Tables) :
    Except ConnectError Unit := do
  rejectIf (ch.isPrivate = true ∧ req.isDefault = some true) .invalidArgument
    "private channels cannot be marked as default"
  match req.channelGroupID with
  | none => pure ()
  | some groupID => requireGroupOfServer t groupID (ch.serverID.getD "")
  match req.contentWarning with
  | none => pure ()
  | some cw => validateContentWarning cw

/-- The flag the request switches to, if it switches. -/
def privacyToggle (ch : Channel) (req : UpdateChannelRequest) : Option Bool :=
  req.isPrivate.filter (· ≠ ch.isPrivate)

/-- The update itself; a privacy toggle also changes an override. -/
def storeUpdate (overrideID : ID) (ch : Channel) (req : UpdateChannelRequest) (db : DB) :
    Except StoreError (Channel × DB) :=
  match privacyToggle ch req with
  | some isPrivate =>
    updateChannelPrivacy db overrideID req.channelID req.toChannelPatch isPrivate
      (ch.serverID.getD "")
  | none => updateChannel db req.channelID req.toChannelPatch

/-- What a move between categories does to the channel's overrides. -/
inductive GroupMove where
  | stays
  /-- Out of its category, with a copy of the category's overrides. -/
  | snapshot (oldGroup : ID)
  | leaves
  | enters
  deriving DecidableEq, Repr

def groupMove (ch : Channel) (req : UpdateChannelRequest) : GroupMove :=
  let oldGroup := ch.channelGroupID.getD ""
  match req.channelGroupID with
  | none => .stays
  | some newGroup =>
    if newGroup = oldGroup then .stays
    else if newGroup = "" then
      if ch.permissionsSynced then .snapshot oldGroup else .leaves
    else .enters

/-- The permissions part of the move; reports whether the channel is unsynced by
    it. The channel row is already changed when a check fails here. -/
def applyGroupMove (uuid : ID → ID → ID) (userID : ID) (ch : Channel)
    (req : UpdateChannelRequest) : Handler Bool :=
  match groupMove ch req with
  | .stays | .leaves => pure false
  | .snapshot oldGroup => do
    let _ ← require fun t => requirePermission t userID (ch.serverID.getD "") manageRoles
    run fun db => copyCategoryOverridesToChannel db uuid oldGroup req.channelID
    run fun db => setPermissionsSynced db req.channelID false
    return true
  | .enters => do
    run fun db => setPermissionsSynced db req.channelID false
    return true

/-- Whether the request has something for the text companion. -/
def touchesCompanion (req : UpdateChannelRequest) : Bool :=
  req.name.isSome ∨ req.topic.isSome ∨ req.channelGroupID.isSome

/-- Name, topic and category of the companion. -/
def syncCompanion (updated : Channel) (req : UpdateChannelRequest) (db : DB) :
    Except StoreError DB :=
  match updated.voiceTextChannelID with
  | none => .ok db
  | some companionID =>
    if touchesCompanion req then
      updateCompanionChannel db companionID req.name req.topic req.channelGroupID
    else .ok db

/-- The companion's ViewChannel override after a privacy toggle. -/
def syncCompanionPrivacy (mirrorID : ID) (ch updated : Channel) (req : UpdateChannelRequest)
    (db : DB) : Except StoreError DB :=
  let everyoneRoleID := ch.serverID.getD ""
  match updated.voiceTextChannelID, privacyToggle ch req with
  | some companionID, some isPrivate =>
    if touchesCompanion req then
      if isPrivate then
        (setOverride db
          { id := mirrorID, scope := .channel companionID, subject := .role everyoneRoleID,
            allow := 0, deny := viewChannel }).map (·.2)
      else deleteOverride db companionID everyoneRoleID
    else .ok db
  | _, _ => .ok db

/-- `overrideID`, `mirrorID` and `uuid` are the ids drawn for new override rows. -/
def updateChannel (overrideID mirrorID : ID) (uuid : ID → ID → ID) (caller : Option ID)
    (req : UpdateChannelRequest) : Handler Channel := do
  let userID ← require fun _ => authenticate caller
  reject (req.channelID = "") .invalidArgument "channel_id is required"
  let ch ← require fun t => requireChannel t req.channelID
  reject (ch.serverID = none) .failedPrecondition "cannot update DM channels"
  require fun t => rejectIf (isVoiceTextCompanion t req.channelID) .failedPrecondition
    "cannot update a voice text channel directly; update the parent voice channel instead"
  let _ ← require fun t => requirePermission t userID (ch.serverID.getD "") manageChannels
  require fun t => validateUpdate ch req t
  let updated ← transact (storeUpdate overrideID ch req)
  let unsynced ← applyGroupMove uuid userID ch req
  attempt (syncCompanion updated req)
  attempt (syncCompanionPrivacy mirrorID ch updated req)
  return { updated with permissionsSynced := updated.permissionsSynced && !unsynced }

/-! ## Section 3: DeleteChannelGroup -/

structure DeleteChannelGroupRequest where
  channelGroupID : ID

def deleteChannelGroup (uuid : ID → ID → ID) (caller : Option ID)
    (req : DeleteChannelGroupRequest) : Handler Unit := do
  let userID ← require fun _ => authenticate caller
  reject (req.channelGroupID = "") .invalidArgument "channel_group_id is required"
  let group ← require fun t => orElse
    { code := .notFound, message := "channel group not found" }
    (getChannelGroup t req.channelGroupID)
  require fun t => requireMembership t userID group.serverID
  let _ ← require fun t => requirePermission t userID group.serverID manageChannels
  -- the snapshot writes override rows
  let _ ← require fun t => requirePermission t userID group.serverID manageRoles
  run fun db => deleteChannelGroupWithSnapshot db uuid req.channelGroupID
  invalidate (·.invalidateServer group.serverID)

/-! ## Section 4: Reading effective permissions -/

structure GetEffectivePermissionsRequest where
  serverID : ID
  userID : ID := ""
  channelID : ID := ""
  includeSources : Bool := false

structure GetEffectivePermissionsResponse where
  permissions : Mask
  sources : List Source
  deriving DecidableEq, Repr

def resolvePermissionSources (t : Tables) (nowUnix : Int) (userID serverID channelID : ID) :
    Except StoreError (List Source) := do
  let input ← resolveInput t userID serverID channelID
  let member ← getMember t userID serverID
  let roles := RoleStore.getRolesByIDs t member.roleIDs serverID
  return attributeSources
    { toResolveInput := input, everyoneName := "@everyone", roleNames := roles.map (·.name) }
    nowUnix

/-- Asking for somebody else takes ManageRoles. -/
def requireTargetAccess (userID targetUserID serverID : ID) : Handler Unit :=
  if targetUserID = userID then pure ()
  else do
    let callerPerms ← resolvePermissions userID serverID ""
    reject (¬ has callerPerms manageRoles) .permissionDenied
      "ManageRoles required to query other users"
    require fun t => rejectIf (requireMembership t targetUserID serverID ≠ .ok ()) .notFound
      "user is not a member of this server"

/-- The channel must belong to the requested server. -/
def requireChannelOfServer (t : Tables) (channelID serverID : ID) : Except ConnectError Unit :=
  if channelID = "" then .ok ()
  else do
    let ch ← requireChannel t channelID
    rejectIf (ch.serverID.getD "" ≠ serverID) .invalidArgument
      "channel does not belong to this server"

def getEffectivePermissions (caller : Option ID) (req : GetEffectivePermissionsRequest) :
    Handler GetEffectivePermissionsResponse := do
  let userID ← require fun _ => authenticate caller
  reject (req.serverID = "") .invalidArgument "server_id is required"
  require fun t => requireMembership t userID req.serverID
  let targetUserID := if req.userID = "" then userID else req.userID
  requireTargetAccess userID targetUserID req.serverID
  require fun t => requireChannelOfServer t req.channelID req.serverID
  let permissions ← resolvePermissions targetUserID req.serverID req.channelID
  -- sources that cannot be computed are left out
  let sources ← Action.check fun s => .ok
    (match req.includeSources,
        resolvePermissionSources s.db.tables s.now targetUserID req.serverID req.channelID with
      | true, .ok sources => sources
      | _, _ => [])
  return { permissions, sources }

structure ListChannelsRequest where
  serverID : ID

/-- The channels of a server that the caller may view. -/
def listChannels (caller : Option ID) (req : ListChannelsRequest) : Handler (List Channel) := do
  let userID ← require fun _ => authenticate caller
  reject (req.serverID = "") .invalidArgument "server_id is required"
  require fun t => requireMembership t userID req.serverID
  let channels ← require fun t => .ok (ChatStore.listChannels t req.serverID)
  let permsMap ← resolvePermissionsBatch userID req.serverID (channels.map (·.id))
  return channels.filter fun ch =>
    permsMap.any fun (channelID, perms) => channelID = ch.id ∧ has perms viewChannel

end Meza.Chat
