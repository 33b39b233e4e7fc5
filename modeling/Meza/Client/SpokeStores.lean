import Meza.Client.ReadState
import Meza.Lib.Dict
import Meza.Lib.Shelves

/-! # Stores of the client that a spoke writes to

    What the events of a federated server do to the stores of the client,
    which the events of the home instance write to as well. Section 1 has
    what is kept in lists by server, Section 2 what is kept by channel and
    Section 3 the rest. -/

namespace Meza.Client.Spoke
open Function Shelves

open Store (ID)

/-! ## Section 1: By server -/

structure Server where
  id : ID
  name : String := ""
  ownerId : ID := ""
  deriving DecidableEq, Repr

structure Channel where
  id : ID
  serverId : ID
  name : String := ""
  position : Int := 0
  deriving DecidableEq, Repr

structure Member where
  userId : ID
  serverId : ID
  roleIds : List ID := []
  nickname : String := ""
  deriving DecidableEq, Repr

structure Role where
  id : ID
  serverId : ID
  name : String := ""
  position : Int := 0
  deriving DecidableEq, Repr

structure ChannelGroup where
  id : ID
  serverId : ID
  name : String := ""
  position : Int := 0
  deriving DecidableEq, Repr

def channelShelving : Shelving Channel ID :=
  .byRank Channel.serverId Channel.id Channel.position

def memberShelving : Shelving Member ID := .inOrder Member.serverId Member.userId

/-- The highest role comes first. -/
def roleShelving : Shelving Role ID :=
  .byRank Role.serverId Role.id fun r => -r.position

def groupShelving : Shelving ChannelGroup ID :=
  .byRank ChannelGroup.serverId ChannelGroup.id ChannelGroup.position

structure ServerState where
  servers : Record Server := fun _ => none

def ServerState.addServer (s : ServerState) (server : Server) : ServerState :=
  { servers := update s.servers server.id (some server) }

def ServerState.removeServer (s : ServerState) (serverId : ID) : ServerState :=
  { servers := update s.servers serverId none }

structure ChannelState where
  byServer : Record (List Channel) := fun _ => none
  channelToServer : Record ID := fun _ => none

namespace ChannelState

def addChannel (s : ChannelState) (channel : Channel) : ChannelState where
  byServer := add channelShelving s.byServer channel
  channelToServer :=
    if ∃ c ∈ rows s.byServer channel.serverId, c.id = channel.id then s.channelToServer
    else update s.channelToServer channel.id (some channel.serverId)

def updateChannel (s : ChannelState) (channel : Channel) : ChannelState :=
  { s with byServer := update channelShelving s.byServer channel }

/-- The server of the channel is the one that the client has for it; `""` is falsy. -/
def serverOf (s : ChannelState) (channelId : ID) : Option ID :=
  (s.channelToServer channelId).filter (· ≠ "")

def removeChannel (s : ChannelState) (channelId : ID) : ChannelState :=
  match s.serverOf channelId with
  | none => s
  | some serverId =>
    { byServer := remove channelShelving s.byServer serverId channelId
      channelToServer := update s.channelToServer channelId none }

def removeServerChannels (s : ChannelState) (serverId : ID) : ChannelState where
  byServer := update s.byServer serverId none
  channelToServer :=
    Index.erase s.channelToServer ((rows s.byServer serverId).map Channel.id)

end ChannelState

structure MemberState where
  byServer : Record (List Member) := fun _ => none

namespace MemberState

def addMember (s : MemberState) (member : Member) : MemberState :=
  { byServer := add memberShelving s.byServer member }

def updateMember (s : MemberState) (member : Member) : MemberState :=
  { byServer := update memberShelving s.byServer member }

def removeMember (s : MemberState) (serverId userId : ID) : MemberState :=
  { byServer := remove memberShelving s.byServer serverId userId }

def stripRoleFromAll (s : MemberState) (serverId roleId : ID) : MemberState :=
  { byServer := modify s.byServer serverId fun m =>
      { m with roleIds := m.roleIds.erase roleId } }

end MemberState

structure RoleState where
  byServer : Record (List Role) := fun _ => none
  isLoading : Bool := false

namespace RoleState

def setRoles (s : RoleState) (serverId : ID) (roles : List Role) : RoleState where
  byServer := update s.byServer serverId (some (roleShelving.arrange roles))
  isLoading := false

def addRole (s : RoleState) (role : Role) : RoleState :=
  { s with byServer := add roleShelving s.byServer role }

def updateRole (s : RoleState) (role : Role) : RoleState :=
  { s with byServer := update roleShelving s.byServer role }

def removeRole (s : RoleState) (serverId roleId : ID) : RoleState :=
  { s with byServer := removeAll roleShelving s.byServer serverId roleId }

def removeServerRoles (s : RoleState) (serverId : ID) : RoleState :=
  { s with byServer := update s.byServer serverId none }

end RoleState

structure ChannelGroupState where
  byServer : Record (List ChannelGroup) := fun _ => none

namespace ChannelGroupState

def addGroup (s : ChannelGroupState) (group : ChannelGroup) : ChannelGroupState :=
  { byServer := add groupShelving s.byServer group }

def updateGroup (s : ChannelGroupState) (group : ChannelGroup) : ChannelGroupState :=
  { byServer := update groupShelving s.byServer group }

def removeGroup (s : ChannelGroupState) (serverId groupId : ID) : ChannelGroupState :=
  { byServer := remove groupShelving s.byServer serverId groupId }

def removeServerGroups (s : ChannelGroupState) (serverId : ID) : ChannelGroupState :=
  { byServer := update s.byServer serverId none }

end ChannelGroupState

/-! ## Section 2: By channel -/

/-- The time until which each user is shown as typing. -/
structure TypingState where
  byChannel : Record (List (ID × Nat)) := fun _ => none

namespace TypingState

def setTyping (s : TypingState) (now : Nat) (channelId userId : ID) : TypingState :=
  { byChannel := update s.byChannel channelId
      (some (Dict.set ((s.byChannel channelId).getD []) userId (now + 6000))) }

/-- A channel in which nobody is typing any more is deleted. -/
def clearUser (s : TypingState) (channelId userId : ID) : TypingState :=
  { byChannel := update s.byChannel channelId
      ((s.byChannel channelId).bind fun users =>
        let users := Dict.delete users userId
        if users = [] then none else some users) }

end TypingState

structure PinnedMessage where
  message : Option Message
  pinnedBy : ID := ""
  deriving DecidableEq, Repr

/-- `p.message?.id`. -/
def PinnedMessage.messageId (p : PinnedMessage) : Option ID := p.message.map Message.id

structure PinState where
  byChannel : Record (List PinnedMessage) := fun _ => none
  pinnedIds : Record (List ID) := fun _ => none

namespace PinState

/-- A message without an id can be pinned again. -/
def isPinned (s : PinState) (channelId : ID) (pin : PinnedMessage) : Prop :=
  ∃ msgId ∈ pin.messageId, msgId ≠ "" ∧
    ∃ p ∈ (s.byChannel channelId).getD [], p.messageId = some msgId

instance (s : PinState) (channelId : ID) (pin : PinnedMessage) :
    Decidable (s.isPinned channelId pin) := inferInstanceAs (Decidable (∃ _ ∈ pin.messageId, _))

def addPin (s : PinState) (channelId : ID) (pin : PinnedMessage) : PinState :=
  if s.isPinned channelId pin then s
  else
    { byChannel := update s.byChannel channelId
        (some (pin :: (s.byChannel channelId).getD []))
      pinnedIds :=
        match pin.messageId.filter (· ≠ "") with
        | none => s.pinnedIds
        | some msgId => update s.pinnedIds channelId
            (some (Table.insertNew id msgId ((s.pinnedIds channelId).getD []))) }

def removePin (s : PinState) (channelId messageId : ID) : PinState :=
  match s.byChannel channelId with
  | none => s
  | some pins =>
    { byChannel := update s.byChannel channelId
        (some (pins.filter fun p => p.messageId ≠ some messageId))
      pinnedIds := update s.pinnedIds channelId
        ((s.pinnedIds channelId).map fun ids => ids.filter (· ≠ messageId)) }

end PinState

/-! ## Section 3: By message, by user and by target -/

structure ReactionGroup where
  emoji : String
  me : Bool
  userIds : List ID
  deriving DecidableEq, Repr

structure ReactionState where
  byMessage : Record (List ReactionGroup) := fun _ => none

namespace ReactionState

def groups (s : ReactionState) (messageId : ID) : List ReactionGroup :=
  (s.byMessage messageId).getD []

/-- The group of an emoji, the first if there are several. -/
def group (s : ReactionState) (messageId : ID) (emoji : String) : Option ReactionGroup :=
  first ReactionGroup.emoji emoji (s.groups messageId)

def addReaction (s : ReactionState) (messageId : ID) (emoji : String) (userId : ID) (isMe : Bool) :
    ReactionState :=
  match s.group messageId emoji with
  | some existing =>
    if userId ∈ existing.userIds then s
    else
      let joined : ReactionGroup :=
        { existing with userIds := existing.userIds ++ [userId], me := isMe || existing.me }
      { byMessage := update s.byMessage messageId
          (some (replaceFirst ReactionGroup.emoji joined (s.groups messageId))) }
  | none =>
    { byMessage := update s.byMessage messageId
        (some (s.groups messageId ++ [⟨emoji, isMe, [userId]⟩])) }

def removeReaction (s : ReactionState) (messageId : ID) (emoji : String) (userId : ID)
    (isMe : Bool) : ReactionState :=
  match s.group messageId emoji with
  | none => s
  | some existing =>
    let userIds := existing.userIds.filter (· ≠ userId)
    let groups :=
      if userIds = [] then (s.groups messageId).eraseP fun g => g.emoji = emoji
      else
        replaceFirst ReactionGroup.emoji
          { existing with userIds, me := if isMe then false else existing.me } (s.groups messageId)
    { byMessage := update s.byMessage messageId (some groups) }

end ReactionState

structure CustomEmoji where
  id : ID
  serverId : ID := ""
  name : String := ""
  imageUrl : String := ""
  deriving DecidableEq, Repr

/-- The emojis that came with reactions, by id. -/
structure EmojiState where
  byId : Record CustomEmoji := fun _ => none

/-- With one emoji. -/
def EmojiState.setReactionEmojis (s : EmojiState) (emoji : CustomEmoji) : EmojiState :=
  { byId := update s.byId emoji.id (some emoji) }

inductive PresenceStatus where
  | unspecified
  | online
  | idle
  | dnd
  | offline
  | invisible
  deriving DecidableEq, Repr

structure UserPresence where
  status : PresenceStatus
  statusText : String
  lastUpdated : Nat
  deriving DecidableEq, Repr

structure PresenceState where
  byUser : Record UserPresence := fun _ => none

def PresenceState.setPresence (s : PresenceState) (now : Nat) (userId : ID)
    (status : PresenceStatus) (statusText : String) : PresenceState :=
  { byUser := update s.byUser userId (some ⟨status, statusText, now⟩) }

/-- For a role, or for a user. -/
structure PermissionOverride where
  id : ID
  targetId : ID
  roleId : ID := ""
  userId : ID := ""
  allow : Int := 0
  deny : Int := 0
  deriving DecidableEq, Repr

/-- What two overrides of one target are compared by. -/
def PermissionOverride.subject (byUser : Bool) (o : PermissionOverride) : ID :=
  if byUser then o.userId else o.roleId

structure PermissionOverrideState where
  byTarget : Record (List PermissionOverride) := fun _ => none

namespace PermissionOverrideState

def upsertOverride (s : PermissionOverrideState) (targetId : ID) (override : PermissionOverride) :
    PermissionOverrideState :=
  let list := (s.byTarget targetId).getD []
  let key := PermissionOverride.subject (override.userId ≠ "")
  { byTarget := update s.byTarget targetId (some (
      if ∃ o ∈ list, key o = key override then replaceFirst key override list
      else list ++ [override])) }

def removeOverride (s : PermissionOverrideState) (targetId roleId userId : ID) :
    PermissionOverrideState :=
  match s.byTarget targetId with
  | none => s
  | some list =>
    { byTarget := update s.byTarget targetId (some (
        if userId ≠ "" then list.filter fun o => o.userId ≠ userId
        else list.filter fun o => o.roleId ≠ roleId)) }

end PermissionOverrideState

inductive SpokeConnectionStatus where
  | connecting
  | connected
  | reconnecting
  | disconnected
  | error
  deriving DecidableEq, Repr

structure SpokeConnection where
  instanceUrl : String
  accessToken : String := ""
  refreshToken : String := ""
  shadowUserId : ID := ""
  serverId : ID
  status : SpokeConnectionStatus := .disconnected
  lastError : Option String := none
  deriving DecidableEq, Repr

structure FederationState where
  spokes : Record SpokeConnection := fun _ => none
  serverIndex : Record String := fun _ => none

namespace FederationState

def updateSpokeStatus (s : FederationState) (instanceUrl : String) (status : SpokeConnectionStatus)
    (lastError : Option String) : FederationState :=
  { s with
    spokes := update s.spokes instanceUrl
      ((s.spokes instanceUrl).map fun spoke => { spoke with status, lastError }) }

def removeSpoke (s : FederationState) (instanceUrl : String) : FederationState :=
  match s.spokes instanceUrl with
  | none => s
  | some spoke =>
    { spokes := update s.spokes instanceUrl none
      serverIndex := update s.serverIndex spoke.serverId none }

end FederationState

end Meza.Client.Spoke
