import Meza.Store.ChannelPermission

/-! # Servers, members and channels

    The functions of `ChatStore`, `ChannelGroupStore`, `BanStore` and
    `InviteStore` that the modelled handlers call. Each function is one
    statement or one transaction; foreign keys with `ON DELETE CASCADE` and
    `ON DELETE SET NULL` act in the same transaction. -/

namespace Meza.Store.ChatStore

open Permissions Table Invite Member Prod Option

/-! ## Section 1: Servers and members -/

def getServer (t : Tables) (serverID : ID) : Except StoreError Server :=
  oneRow (.refused "server not found") (lookup Server.id serverID t.servers)

/-- A new server with its owner, its `@everyone` role and a first channel. -/
def createServer (db : DB) (serverID channelID ownerID : ID)
    (defaultChannelPrivacy : Bool := false) : Except StoreError DB :=
  let t := db.tables
  commit
    { t with
      servers := t.servers ++ [{ id := serverID, ownerID, defaultChannelPrivacy }]
      members := t.members ++ [{ userID := ownerID, serverID }]
      roles := t.roles ++ [{ id := serverID, serverID, name := "@everyone",
                             permissions := defaultEveryonePermissions, position := 0 }]
      channels := t.channels ++ [{ id := channelID, serverID := some serverID,
                                   name := "general" }] }

def isMember (t : Tables) (userID serverID : ID) : Bool :=
  exists? key (userID, serverID) t.members

/-- `models.Member`: the row, the name shown for it and the assigned roles. -/
structure MemberInfo where
  member : Member
  name : String
  roleIDs : List ID
  deriving DecidableEq, Repr

/-- `COALESCE(NULLIF(m.nickname, ''), NULLIF(u.display_name, ''), u.username, '')`. -/
def shownName (m : Member) (u : User) : String :=
  if m.nickname ≠ "" then m.nickname
  else if u.displayName ≠ "" then u.displayName
  else u.username

def getMember (t : Tables) (userID serverID : ID) : Except StoreError MemberInfo :=
  oneRow (.refused "member not found")
    ((lookup key (userID, serverID) t.members).bind fun m =>
      (lookup User.id userID t.users).map fun u =>
        { member := m, name := shownName m u,
          roleIDs := (t.memberRoles.filter fun mr =>
            mr.userID = userID ∧ mr.serverID = serverID).map (·.roleID) })

def addMember (db : DB) (userID serverID : ID) : Except StoreError DB :=
  let t := db.tables
  commit { t with members := insertNew key { userID, serverID } t.members }

/-- The tables without the member and, by cascade, its role assignments. -/
def withoutMember (t : Tables) (userID serverID : ID) : Tables :=
  { t with
    members := deleteWhere (fun m => m.userID = userID ∧ m.serverID = serverID) t.members
    memberRoles := deleteWhere
      (fun mr => mr.userID = userID ∧ mr.serverID = serverID) t.memberRoles }

def removeMember (db : DB) (userID serverID : ID) : Except StoreError DB :=
  commit (withoutMember db.tables userID serverID)

/-- A change of one column of one member. -/
def updateMember (db : DB) (serverID userID : ID) (f : Member → Member) :
    Except StoreError DB := do
  let t := db.tables
  refuseIf (¬ isMember t userID serverID) (.refused "member not found")
  commit
    { t with
      members := updateWhere (fun m => m.serverID = serverID ∧ m.userID = userID) f
        t.members }

def setMemberTimeout (db : DB) (serverID userID : ID) (timedOutUntil : Option Int) :
    Except StoreError DB :=
  updateMember db serverID userID fun m => { m with timedOutUntil }

def setMemberNickname (db : DB) (serverID userID : ID) (nickname : String) : Except StoreError DB :=
  updateMember db serverID userID fun m => { m with nickname }

def checkRulesAcknowledged (t : Tables) (userID serverID : ID) : Except StoreError Bool :=
  oneRow (.refused "member not found")
    ((lookup key (userID, serverID) t.members).map (·.rulesAcknowledgedAt.isSome))

/-- Marks the onboarding as completed, joins the public channels and assigns the
    self-assignable roles among those asked for; returns what was skipped. -/
def completeOnboarding (db : DB) (now : Int) (userID serverID : ID) (channelIDs roleIDs : List ID) :
    Except StoreError ((List ID × List ID) × DB) := do
  let t := db.tables
  let validChannels := (t.channels.filter fun c =>
    c.id ∈ channelIDs ∧ c.serverID = some serverID ∧ c.isPrivate = false).map (·.id)
  let validRoles := (t.roles.filter fun r =>
    r.id ∈ roleIDs ∧ r.serverID = serverID ∧ r.isSelfAssignable = true).map (·.id)
  let db' ← commit
    { t with
      members := updateWhere (fun m => m.userID = userID ∧ m.serverID = serverID)
        (fun m => { m with onboardingCompletedAt := some now }) t.members
      channelMembers := validChannels.foldl
        (fun rows channelID => insertNew ChannelMember.key { channelID, userID } rows)
        t.channelMembers
      memberRoles := validRoles.foldl
        (fun rows roleID => insertNew id { userID, serverID, roleID } rows)
        t.memberRoles }
  return ((channelIDs.filter (· ∉ validChannels), roleIDs.filter (· ∉ validRoles)), db')

/-! ## Section 2: Channels -/

/-- The id of a nullable reference; the empty string stands for null. -/
def orNull (id : ID) : Option ID := if id = "" then none else some id

/-- `COALESCE(MAX(position), -1) + 1` over the channels of the server. -/
def nextPosition (t : Tables) (serverID : ID) : Int :=
  ((t.channels.filter (·.serverID = some serverID)).map (·.position)).max?.getD (-1) + 1

/-- The row of a new channel; one in a category starts as synced with it. -/
def newChannel (t : Tables) (channelID serverID : ID) (name : String) (type : Nat)
    (isPrivate : Bool) (channelGroupID : ID) : Channel :=
  { id := channelID, serverID := some serverID, channelGroupID := orNull channelGroupID, name,
    type, position := nextPosition t serverID, isPrivate,
    permissionsSynced := channelGroupID ≠ "" }

/-- The row violates the primary key or `channels_server_id_name_key`. -/
def clashes (t : Tables) (c : Channel) : Bool :=
  c.id ∈ t.channels.map (·.id) ∨ ∃ name ∈ c.indexedName, name ∈ t.channels.filterMap (·.indexedName)

/-- `channels_type_check` admits the types 0 to 4. -/
def createChannel (db : DB) (channelID serverID : ID) (name : String) (type : Nat)
    (isPrivate : Bool) (channelGroupID : ID) : Except StoreError (Channel × DB) := do
  let t := db.tables
  let c := newChannel t channelID serverID name type isPrivate channelGroupID
  refuseIf (4 < type) .constraint
  refuseIf (clashes t c) (.alreadyExists "channel")
  let db' ← commit { t with channels := t.channels ++ [c] }
  return (c, db')

/-- A voice channel with its text companion, which is inserted first. -/
def createVoiceChannelWithCompanion (db : DB) (voiceID textID serverID : ID) (name : String)
    (isPrivate : Bool) (channelGroupID : ID) : Except StoreError ((Channel × Channel) × DB) := do
  let t := db.tables
  let textCh := newChannel t textID serverID name 1 isPrivate channelGroupID
  let voiceCh := { newChannel t voiceID serverID name 2 isPrivate channelGroupID with
    voiceTextChannelID := some textID }
  refuseIf (clashes t textCh) (.alreadyExists "channel")
  let db' ← commit { t with channels := t.channels ++ [textCh, voiceCh] }
  return ((voiceCh, textCh), db')

def addChannelMember (db : DB) (channelID userID : ID) : Except StoreError DB :=
  let t := db.tables
  commit
    { t with
      channelMembers := insertNew ChannelMember.key { channelID, userID } t.channelMembers }

def getChannel (t : Tables) (channelID : ID) : Except StoreError Channel :=
  oneRow (.notFound "channel") (lookup Channel.id channelID t.channels)

def getChannelGroup (t : Tables) (groupID : ID) : Except StoreError ChannelGroup :=
  oneRow (.notFound "channel group") (lookup ChannelGroup.id groupID t.channelGroups)

/-- All channels of a server, `ORDER BY c.position`. -/
def listChannels (t : Tables) (serverID : ID) : List Channel :=
  (t.channels.filter (·.serverID = some serverID)).insertionSort
    (fun a b => a.position ≤ b.position)

/-- The channels whose events a user receives: the public channels of the user's
    servers, private ones by membership or ownership, and DMs. -/
def getUserChannels (t : Tables) (userID : ID) : List ID :=
  let serverChannels := t.channels.filter fun c =>
    (∃ m ∈ t.members, m.userID = userID ∧ c.serverID = some m.serverID) ∧
      (c.isPrivate = false ∨ isChannelMember t c.id userID ∨
        ∃ srv ∈ t.servers, c.serverID = some srv.id ∧ srv.ownerID = userID)
  let dmChannels := t.channels.filter fun c =>
    isChannelMember t c.id userID ∧ c.type ∈ [3, 4]
  ((serverChannels ++ dmChannels).map (·.id)).dedup

/-- The ids of the servers a user is a member of. -/
def listServers (t : Tables) (userID : ID) : List ID :=
  (t.servers.filter fun srv => ∃ m ∈ t.members, m.userID = userID ∧ m.serverID = srv.id).map (·.id)

/-- The channel, and whether the user belongs to it: participants of DMs by the
    channel's type, members of the server otherwise. -/
def getChannelAndCheckMembership (t : Tables) (channelID userID : ID) :
    Except StoreError (Channel × Bool) := do
  let ch ← oneRow (.refused "channel not found") (lookup Channel.id channelID t.channels)
  if ch.type ∈ [3, 4] then return (ch, isChannelMember t ch.id userID)
  else return (ch, t.members.any fun m => m.userID = userID ∧ ch.serverID = some m.serverID)

/-- Some voice channel has the channel as its text companion. -/
def isVoiceTextCompanion (t : Tables) (channelID : ID) : Bool :=
  t.channels.any (·.voiceTextChannelID = some channelID)

/-- The columns an `UPDATE` sets; a field that is absent stays. -/
structure ChannelPatch where
  name : Option String := none
  topic : Option String := none
  position : Option Int := none
  isPrivate : Option Bool := none
  slowModeSeconds : Option Int := none
  isDefault : Option Bool := none
  channelGroupID : Option ID := none
  contentWarning : Option String := none
  deriving DecidableEq, Repr

/-- An empty category id unsets the category. -/
def ChannelPatch.apply (patch : ChannelPatch) (c : Channel) : Channel :=
  { c with
    name := patch.name.getD c.name
    topic := patch.topic.getD c.topic
    position := patch.position.getD c.position
    isPrivate := patch.isPrivate.getD c.isPrivate
    slowModeSeconds := patch.slowModeSeconds.or c.slowModeSeconds
    isDefault := patch.isDefault.getD c.isDefault
    channelGroupID := (patch.channelGroupID.map orNull).getD c.channelGroupID
    contentWarning := patch.contentWarning.getD c.contentWarning }

def patchChannels (channelID : ID) (patch : ChannelPatch) (channels : List Channel) :
    List Channel :=
  updateWhere (fun c => c.id = channelID) patch.apply channels

/-- A patch without a field only reads the channel; applying it changes nothing. -/
def updateChannel (db : DB) (channelID : ID) (patch : ChannelPatch) :
    Except StoreError (Channel × DB) := do
  let t := db.tables
  let ch ← oneRow (.refused "channel not found") (lookup Channel.id channelID t.channels)
  let db' ← commit { t with channels := patchChannels channelID patch t.channels }
  return (patch.apply ch, db')

/-- The override rows after a privacy toggle: a new ViewChannel deny for
    `@everyone`, or no override of the channel for `@everyone` at all. -/
def togglePrivacy (overrideID channelID everyoneRoleID : ID) (isPrivate : Bool)
    (rows : List PermissionOverride) : List PermissionOverride :=
  if isPrivate then
    upsert PermissionOverride.target (fun po => { po with deny := viewChannel })
      { id := overrideID, scope := .channel channelID, subject := .role everyoneRoleID,
        allow := 0, deny := viewChannel } rows
  else
    deleteWhere (fun po => po.onTarget channelID ∧ po.subject = .role everyoneRoleID) rows

/-- Updates the channel and its ViewChannel override in one transaction. Called
    only when `isPrivate` differs from the channel's flag. -/
def updateChannelPrivacy (db : DB) (overrideID channelID : ID) (patch : ChannelPatch)
    (isPrivate : Bool) (everyoneRoleID : ID) : Except StoreError (Channel × DB) := do
  let t := db.tables
  let ch ← oneRow (.refused "channel not found") (lookup Channel.id channelID t.channels)
  let db' ← commit
    { t with
      channels := patchChannels channelID patch t.channels
      permissionOverrides :=
        togglePrivacy overrideID channelID everyoneRoleID isPrivate t.permissionOverrides }
  return (patch.apply ch, db')

/-- Name, topic and category of a voice channel go to its text companion. -/
def updateCompanionChannel (db : DB) (companionID : ID) (name topic : Option String)
    (channelGroupID : Option ID) : Except StoreError DB :=
  let t := db.tables
  commit { t with channels := patchChannels companionID { name, topic, channelGroupID } t.channels }

def setSynced (synced : Bool) (channelID : ID) (channels : List Channel) : List Channel :=
  updateWhere (fun c => c.id = channelID) (fun c => { c with permissionsSynced := synced }) channels

def setPermissionsSynced (db : DB) (channelID : ID) (synced : Bool) : Except StoreError DB :=
  let t := db.tables
  commit { t with channels := setSynced synced channelID t.channels }

/-- A channel without overrides of its own, marked as synced. -/
def syncChannel (t : Tables) (channelID : ID) : Tables :=
  { t with
    permissionOverrides :=
      deleteWhere (fun po => po.scope = .channel channelID) t.permissionOverrides
    channels := setSynced true channelID t.channels }

def syncChannelToCategory (db : DB) (channelID : ID) (companionID : Option ID) :
    Except StoreError DB :=
  let synced := syncChannel db.tables channelID
  commit (match companionID with
    | none => synced
    | some companionID => syncChannel synced companionID)

/-- Copies the category's overrides to its channels, marks them unsynced and
    deletes the category; its channels stay, without a category. -/
def deleteChannelGroupWithSnapshot (db : DB) (uuid : ID → ID → ID) (channelGroupID : ID) :
    Except StoreError DB := do
  let t := db.tables
  let inGroup := t.channels.filter (·.channelGroupID = some channelGroupID)
  let copied := (inGroup.flatMap fun c => snapshotRows t uuid channelGroupID c.id).foldl
    insertOverride t.permissionOverrides
  refuseIf (channelGroupID ∉ t.channelGroups.map (·.id)) (.notFound "channel group")
  commit
    { t with
      channelGroups := deleteWhere (fun g => g.id = channelGroupID) t.channelGroups
      channels := updateWhere (fun c => c.channelGroupID = some channelGroupID)
        (fun c => { c with channelGroupID := none, permissionsSynced := false }) t.channels
      permissionOverrides :=
        deleteWhere (fun po => po.scope = .group channelGroupID) copied }

/-- `DELETE FROM channel_members … USING channels`. -/
def removeChannelMembersForServer (db : DB) (userID serverID : ID) : Except StoreError DB :=
  let t := db.tables
  commit
    { t with
      channelMembers := deleteWhere (fun cm => cm.userID = userID ∧
        t.channels.any fun c => c.id = cm.channelID ∧ c.serverID = some serverID)
        t.channelMembers }

/-- The tables without the channel and, by cascade, its members and overrides; a
    voice channel loses its companion. -/
def withoutChannel (t : Tables) (channelID : ID) : Tables :=
  { t with
    channels := updateWhere (fun c => c.voiceTextChannelID = some channelID)
      (fun c => { c with voiceTextChannelID := none })
      (deleteWhere (fun c => c.id = channelID) t.channels)
    channelMembers := deleteWhere (fun cm => cm.channelID = channelID) t.channelMembers
    permissionOverrides :=
      deleteWhere (fun po => po.scope = .channel channelID) t.permissionOverrides }

def deleteChannel (db : DB) (channelID : ID) : Except StoreError DB := do
  refuseIf (channelID ∉ db.tables.channels.map (·.id)) (.refused "channel not found")
  commit (withoutChannel db.tables channelID)

/-- The companion goes first. -/
def deleteChannelWithCompanion (db : DB) (voiceChannelID companionChannelID : ID) :
    Except StoreError DB := do
  let db ← commit (withoutChannel db.tables companionChannelID)
  refuseIf (voiceChannelID ∉ db.tables.channels.map (·.id)) (.refused "voice channel not found")
  commit (withoutChannel db.tables voiceChannelID)

/-! ## Section 3: Bans and invites -/

def isBanned (t : Tables) (serverID userID : ID) : Bool :=
  exists? Ban.key (serverID, userID) t.bans

/-- The highest position among a user's roles, `COALESCE(MAX(r.position), 0)`. -/
def targetPosition (t : Tables) (userID serverID : ID) : Nat :=
  ((t.memberRoles.filter fun mr => mr.userID = userID ∧ mr.serverID = serverID).filterMap
    fun mr => lookup Role.id mr.roleID t.roles).foldl (fun pos r => max pos r.position) 0

/-- Bans a member and removes the membership, after checking the rank again. -/
def createBanAndRemoveMember (db : DB) (ban : Ban) (callerPosition : Nat) :
    Except StoreError DB := do
  let t := db.tables
  refuseIf (callerPosition ≤ targetPosition t ban.userID ban.serverID)
    (.refused "target has higher or equal position")
  commit { withoutMember t ban.userID ban.serverID with bans := t.bans ++ [ban] }

/-- A ban of somebody who is no member; reports whether it is new. -/
def createBan (db : DB) (ban : Ban) : Except StoreError (Bool × DB) := do
  let t := db.tables
  let db' ← commit { t with bans := insertNew Ban.key ban t.bans }
  return (!isBanned t ban.serverID ban.userID, db')

def deleteBan (db : DB) (serverID userID : ID) : Except StoreError DB :=
  let t := db.tables
  commit
    { t with
      bans := deleteWhere (fun b => b.serverID = serverID ∧ b.userID = userID) t.bans }

def getInvite (t : Tables) (code : String) : Except StoreError Invite :=
  oneRow (.refused "invite not found") (Table.lookup Invite.code code t.invites)

/-- An invite that still admits somebody. -/
def Invite.usable (now : Int) (i : Invite) : Bool :=
  i.revoked = false ∧ (∀ e ∈ i.expiresAt, now < e) ∧ (i.maxUses = 0 ∨ i.useCount < i.maxUses)

/-- No use is left. -/
def Invite.exhausted (i : Invite) : Bool := 0 < i.maxUses ∧ i.maxUses ≤ i.useCount

def Invite.withoutKeys (i : Invite) : Invite :=
  { i with encryptedChannelKeys := none, channelKeysIV := none }

/-- One use more; the last one takes the key bundle with it. -/
def Invite.used (i : Invite) : Invite :=
  let last := 0 < i.maxUses ∧ i.maxUses ≤ i.useCount + 1
  { i with
    useCount := i.useCount + 1
    encryptedChannelKeys := if last then none else i.encryptedChannelKeys
    channelKeysIV := if last then none else i.channelKeysIV }

/-- Takes one use of the invite; `none` if it admits nobody any more. -/
def consumeInvite (db : DB) (now : Int) (code : String) :
    Except StoreError (Option Invite × DB) := do
  let t := db.tables
  let db' ← commit
    { t with
      invites :=
        Table.updateWhere (fun i => i.code = code ∧ Invite.usable now i) Invite.used t.invites }
  return (((Table.lookup Invite.code code t.invites).filter (Invite.usable now)).map Invite.used,
    db')

def revokeInvite (db : DB) (code : String) : Except StoreError DB :=
  let t := db.tables
  commit
    { t with
      invites := updateWhere (fun i => i.code = code)
        (fun i => { Invite.withoutKeys i with revoked := true }) t.invites }

/-- Removes the key bundles of revoked and expired invites. -/
def cleanExpiredKeyBundles (db : DB) (now : Int) : Except StoreError DB :=
  let t := db.tables
  commit
    { t with
      invites := updateWhere
        (fun i => i.encryptedChannelKeys ≠ none ∧ (i.revoked ∨ ∃ e ∈ i.expiresAt, e ≤ now))
        Invite.withoutKeys t.invites }

/-! ## Section 4: What a successful call does -/

variable {db db' : DB} {serverID userID : ID} {now : Int} {code : String} {t : Tables}

theorem getMember_ok {info : MemberInfo} (h : getMember t userID serverID = .ok info) :
    lookup key (userID, serverID) t.members = some info.member ∧
      info.roleIDs = (t.memberRoles.filter fun mr =>
        mr.userID = userID ∧ mr.serverID = serverID).map (·.roleID) := by
  obtain ⟨m, hm, hinfo⟩ := bind_eq_some_iff.mp (oneRow_ok.mp h)
  obtain ⟨u, -, rfl⟩ := map_eq_some_iff.mp hinfo
  exact ⟨hm, rfl⟩

theorem getMember_of_lookup {m : Member} {u : User}
    (hm : lookup key (userID, serverID) t.members = some m)
    (hu : lookup User.id userID t.users = some u) :
    getMember t userID serverID =
      .ok { member := m, name := shownName m u,
            roleIDs := (t.memberRoles.filter fun mr =>
              mr.userID = userID ∧ mr.serverID = serverID).map (·.roleID) } := by
  unfold getMember
  rw [hm, bind_some, hu]
  rfl

theorem isMember_iff :
    isMember t userID serverID = true ↔ ∃ m ∈ t.members, m.key = (userID, serverID) :=
  exists?_eq_true

theorem updateMember_ok {f : Member → Member} (h : updateMember db serverID userID f = .ok db') :
    db'.tables = { db.tables with
      members := updateWhere (fun m => m.serverID = serverID ∧ m.userID = userID) f
        db.tables.members } := by
  obtain ⟨_, -, h⟩ := bind_eq_ok.mp h
  exact commit_ok h

/-- The role assignments after an onboarding. -/
def onboardedRoles (t : Tables) (userID serverID : ID) (roleIDs : List ID) : List MemberRole :=
  ((t.roles.filter fun r =>
    r.id ∈ roleIDs ∧ r.serverID = serverID ∧ r.isSelfAssignable = true).map (·.id)).foldl
      (fun rows roleID => insertNew id { userID, serverID, roleID } rows) t.memberRoles

theorem completeOnboarding_ok {channelIDs roleIDs : List ID} {skipped : List ID × List ID}
    (h : completeOnboarding db now userID serverID channelIDs roleIDs = .ok (skipped, db')) :
    ∃ channelMembers,
      db'.tables =
        { db.tables with
          members := updateWhere (fun m => m.userID = userID ∧ m.serverID = serverID)
            (fun m => { m with onboardingCompletedAt := some now }) db.tables.members
          channelMembers
          memberRoles := onboardedRoles db.tables userID serverID roleIDs } := by
  obtain ⟨db₁, hcommit, h⟩ := bind_eq_ok.mp h
  injection h with h
  obtain ⟨-, rfl⟩ := mk.inj h
  exact ⟨_, commit_ok hcommit⟩

theorem updateChannel_ok {channelID : ID} {patch : ChannelPatch} {ch : Channel}
    (h : updateChannel db channelID patch = .ok (ch, db')) :
    (∃ old, lookup Channel.id channelID db.tables.channels = some old ∧
      ch = patch.apply old) ∧
    db'.tables = { db.tables with
      channels := patchChannels channelID patch db.tables.channels } := by
  obtain ⟨old, hold, h⟩ := bind_eq_ok.mp h
  obtain ⟨db₁, hcommit, h⟩ := bind_eq_ok.mp h
  injection h with h
  obtain ⟨rfl, rfl⟩ := mk.inj h
  exact ⟨⟨old, oneRow_ok.mp hold, rfl⟩, commit_ok hcommit⟩

theorem updateChannelPrivacy_ok {overrideID channelID everyoneRoleID : ID} {patch : ChannelPatch}
    {isPrivate : Bool} {ch : Channel}
    (h : updateChannelPrivacy db overrideID channelID patch isPrivate everyoneRoleID =
      .ok (ch, db')) :
    (∃ old, lookup Channel.id channelID db.tables.channels = some old ∧
      ch = patch.apply old) ∧
    db'.tables = { db.tables with
      channels := patchChannels channelID patch db.tables.channels
      permissionOverrides := togglePrivacy overrideID channelID everyoneRoleID isPrivate
        db.tables.permissionOverrides } := by
  obtain ⟨old, hold, h⟩ := bind_eq_ok.mp h
  obtain ⟨db₁, hcommit, h⟩ := bind_eq_ok.mp h
  injection h with h
  obtain ⟨rfl, rfl⟩ := mk.inj h
  exact ⟨⟨old, oneRow_ok.mp hold, rfl⟩, commit_ok hcommit⟩

theorem createBanAndRemoveMember_ok {ban : Ban} {callerPosition : Nat}
    (h : createBanAndRemoveMember db ban callerPosition = .ok db') :
    db'.tables = { withoutMember db.tables ban.userID ban.serverID with
      bans := db.tables.bans ++ [ban] } := by
  obtain ⟨_, -, h⟩ := bind_eq_ok.mp h
  exact commit_ok h

theorem createBan_ok {ban : Ban} {created : Bool} (h : createBan db ban = .ok (created, db')) :
    db'.tables = { db.tables with bans := insertNew Ban.key ban db.tables.bans } := by
  obtain ⟨db₁, hcommit, h⟩ := bind_eq_ok.mp h
  injection h with h
  obtain ⟨-, rfl⟩ := mk.inj h
  exact commit_ok hcommit

theorem addMember_ok (h : addMember db userID serverID = .ok db') :
    db'.tables = { db.tables with
      members := insertNew key { userID, serverID } db.tables.members } :=
  commit_ok h

theorem removeChannelMembersForServer_ok
    (h : removeChannelMembersForServer db userID serverID = .ok db') :
    ∃ channelMembers, db'.tables = { db.tables with channelMembers } :=
  ⟨_, commit_ok h⟩

theorem deleteBan_ok (h : deleteBan db serverID userID = .ok db') :
    db'.tables = { db.tables with
      bans := deleteWhere (fun b => b.serverID = serverID ∧ b.userID = userID) db.tables.bans } :=
  commit_ok h

theorem revokeInvite_ok (h : revokeInvite db code = .ok db') :
    db'.tables = { db.tables with
      invites := Table.updateWhere (fun i => i.code = code)
        (fun i => { Invite.withoutKeys i with revoked := true }) db.tables.invites } :=
  commit_ok h

theorem cleanExpiredKeyBundles_ok (h : cleanExpiredKeyBundles db now = .ok db') :
    db'.tables = { db.tables with
      invites := Table.updateWhere
        (fun i => i.encryptedChannelKeys ≠ none ∧ (i.revoked ∨ ∃ e ∈ i.expiresAt, e ≤ now))
        Invite.withoutKeys db.tables.invites } :=
  commit_ok h

@[simp] theorem Invite.used_code (i : Invite) : (used i).code = i.code := rfl

@[simp] theorem Invite.used_serverID (i : Invite) : (used i).serverID = i.serverID := rfl

@[simp] theorem Invite.used_useCount (i : Invite) : (used i).useCount = i.useCount + 1 := rfl

@[simp] theorem Invite.used_maxUses (i : Invite) : (used i).maxUses = i.maxUses := rfl

@[simp] theorem Invite.used_revoked (i : Invite) : (used i).revoked = i.revoked := rfl

theorem consumeInvite_ok {consumed : Option Invite}
    (h : consumeInvite db now code = .ok (consumed, db')) :
    (∀ i ∈ consumed, ∃ inv, Table.lookup Invite.code code db.tables.invites = some inv ∧
      i.serverID = inv.serverID) ∧
    ∃ invites, db'.tables = { db.tables with invites } := by
  obtain ⟨db₁, hcommit, h⟩ := bind_eq_ok.mp h
  injection h with h
  obtain ⟨rfl, rfl⟩ := mk.inj h
  refine ⟨?_, _, commit_ok hcommit⟩
  intro i hi
  obtain ⟨inv, hinv, rfl⟩ := map_eq_some_iff.mp hi
  obtain ⟨hlook, -⟩ := filter_eq_some_iff.mp hinv
  exact ⟨inv, hlook, Invite.used_serverID inv⟩

theorem consumeInvite_used {consumed : Option Invite}
    (h : consumeInvite db now code = .ok (consumed, db')) :
    consumed = ((Table.lookup Invite.code code db.tables.invites).filter
      (Invite.usable now)).map Invite.used ∧
    db'.tables = { db.tables with
      invites := Table.updateWhere (fun i => i.code = code ∧ Invite.usable now i) Invite.used
        db.tables.invites } := by
  obtain ⟨db₁, hcommit, h⟩ := bind_eq_ok.mp h
  injection h with h
  obtain ⟨rfl, rfl⟩ := mk.inj h
  exact ⟨rfl, commit_ok hcommit⟩

end Meza.Store.ChatStore
