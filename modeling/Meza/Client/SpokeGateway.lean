import Meza.Client.SpokeStores

/-! # The gateway of a spoke

    `spoke-gateway.ts`: what the client does with an event that a federated
    server sends over its own connection. The events write to the stores that
    the home instance writes to. -/

namespace Meza.Client.Spoke

open Store (ID)

/-! ## Section 1: Events -/

/-- The payload of an event; `unhandled` for those that are ignored when a spoke sends them. -/
inductive Event where
  | messageCreate (msg : Message)
  | messageUpdate (msg : Message)
  | messageDelete (channelId messageId : ID)
  | messageBulkDelete (channelId : ID) (messageIds : List ID)
  | typingStart (channelId userId : ID)
  | channelCreate (channel : Channel)
  | channelUpdate (channel : Channel)
  | channelDelete (channelId serverId : ID)
  | memberJoin (member : Member)
  | memberUpdate (member : Member)
  | memberRemove (serverId userId : ID)
  | serverUpdate (server : Option Server)
  | roleCreate (role : Role)
  | roleUpdate (role : Role)
  | roleDelete (serverId roleId : ID)
  | rolesReordered (serverId : ID) (roles : List Role)
  | reactionAdd (messageId : ID) (emoji : String) (userId : ID) (customEmoji : Option CustomEmoji)
  | reactionRemove (messageId : ID) (emoji : String) (userId : ID)
  | pinAdd (pin : PinnedMessage)
  | pinRemove (channelId messageId : ID)
  | embedsUpdate (channelId messageId : ID) (embeds : List LinkEmbed)
  | readStateUpdate (rs : ReadState)
  | presenceUpdate (userId : ID) (status : PresenceStatus) (statusText : String)
  | channelGroupCreate (group : ChannelGroup)
  | channelGroupUpdate (group : ChannelGroup)
  | channelGroupDelete (serverId channelGroupId : ID)
  | permissionOverrideUpdate (override : Option PermissionOverride) (serverId : ID)
  | permissionOverrideDelete (overrideId targetId serverId : ID)
  | unhandled (serverId : Option ID)
  deriving DecidableEq, Repr

/-- `val.serverId`, where the payload has such a field. -/
def Event.serverId : Event → Option ID
  | .channelCreate channel | .channelUpdate channel => some channel.serverId
  | .channelDelete _ serverId => some serverId
  | .memberJoin member | .memberUpdate member => some member.serverId
  | .memberRemove serverId _ => some serverId
  | .roleCreate role | .roleUpdate role => some role.serverId
  | .roleDelete serverId _ => some serverId
  | .rolesReordered serverId _ => some serverId
  | .channelGroupCreate group | .channelGroupUpdate group => some group.serverId
  | .channelGroupDelete serverId _ => some serverId
  | .permissionOverrideUpdate _ serverId => some serverId
  | .permissionOverrideDelete _ _ serverId => some serverId
  | .unhandled serverId => serverId
  | .messageCreate _ | .messageUpdate _ | .messageDelete _ _ | .messageBulkDelete _ _
  | .typingStart _ _ | .serverUpdate _ | .reactionAdd _ _ _ _ | .reactionRemove _ _ _ | .pinAdd _
  | .pinRemove _ _ | .embedsUpdate _ _ _ | .readStateUpdate _ | .presenceUpdate _ _ _ => none

/-- What the gateway of a spoke sends. -/
inductive Op where
  | ready
  | heartbeatAck
  | event (event : Event)
  deriving DecidableEq, Repr

/-! ## Section 2: The state of the client -/

structure State where
  currentUserId : Option ID := none
  viewedChannelIds : ID → Bool := fun _ => false
  messages : MessageState := {}
  typing : TypingState := {}
  readStates : ReadStateState := {}
  channels : ChannelState := {}
  members : MemberState := {}
  servers : ServerState := {}
  roles : RoleState := {}
  groups : ChannelGroupState := {}
  reactions : ReactionState := {}
  emojis : EmojiState := {}
  pins : PinState := {}
  presence : PresenceState := {}
  overrides : PermissionOverrideState := {}
  federation : FederationState := {}

namespace State

/-- A user that is signed in. -/
def isMe (s : State) (userId : ID) : Bool := s.currentUserId = some userId

/-- The message counts as unread: another user's, in a channel that is not on the screen. -/
def counts (s : State) (msg : Message) : Bool :=
  !s.isMe msg.authorId && !s.viewedChannelIds msg.channelId

def mentionsMe (s : State) (msg : Message) : Bool :=
  s.currentUserId.getD "" ∈ msg.mentionedUserIds || msg.mentionEveryone

/-! ## Section 3: What an event does -/

def cleanupSpoke (s : State) (instanceUrl : String) (serverId : ID) : State :=
  let disconnected := s.federation.updateSpokeStatus instanceUrl .disconnected none
  { s with
    federation := disconnected.removeSpoke instanceUrl
    servers := s.servers.removeServer serverId
    channels := s.channels.removeServerChannels serverId
    roles := s.roles.removeServerRoles serverId
    groups := s.groups.removeServerGroups serverId }

/-- What is done with the payload, at the time `now`. -/
def handle (s : State) (now : Nat) (instanceUrl : String) (expectedServerId : ID) : Event → State
  | .messageCreate msg =>
    { s with
      messages := s.messages.addMessage msg.channelId msg
      typing := s.typing.clearUser msg.channelId msg.authorId
      readStates :=
        if s.counts msg then
          if s.mentionsMe msg then s.readStates.incrementUnreadWithMention msg.channelId
          else s.readStates.incrementUnread msg.channelId
        else s.readStates }
  | .messageUpdate msg => { s with messages := s.messages.updateMessage msg.channelId msg }
  | .messageDelete channelId messageId =>
    { s with messages := s.messages.removeMessage channelId messageId }
  | .messageBulkDelete channelId messageIds =>
    { s with
      messages := messageIds.foldl (fun ms id => ms.removeMessage channelId id) s.messages }
  | .typingStart channelId userId =>
    { s with
      typing := if s.isMe userId then s.typing else s.typing.setTyping now channelId userId }
  | .channelCreate channel => { s with channels := s.channels.addChannel channel }
  | .channelUpdate channel => { s with channels := s.channels.updateChannel channel }
  -- the server of the event is not used
  | .channelDelete channelId _ => { s with channels := s.channels.removeChannel channelId }
  | .memberJoin member => { s with members := s.members.addMember member }
  | .memberUpdate member => { s with members := s.members.updateMember member }
  | .memberRemove serverId userId =>
    let s' := { s with members := s.members.removeMember serverId userId }
    if s.isMe userId then s'.cleanupSpoke instanceUrl expectedServerId else s'
  | .serverUpdate none => s
  | .serverUpdate (some server) => { s with servers := s.servers.addServer server }
  | .roleCreate role => { s with roles := s.roles.addRole role }
  | .roleUpdate role => { s with roles := s.roles.updateRole role }
  | .roleDelete serverId roleId =>
    { s with
      roles := s.roles.removeRole serverId roleId
      members := s.members.stripRoleFromAll serverId roleId }
  | .rolesReordered serverId roles => { s with roles := s.roles.setRoles serverId roles }
  | .reactionAdd messageId emoji userId customEmoji =>
    { s with
      reactions := s.reactions.addReaction messageId emoji userId (s.isMe userId)
      emojis :=
        match customEmoji.filter fun e => e.id ≠ "" with
        | none => s.emojis
        | some e => s.emojis.setReactionEmojis e }
  | .reactionRemove messageId emoji userId =>
    { s with reactions := s.reactions.removeReaction messageId emoji userId (s.isMe userId) }
  | .pinAdd pin =>
    { s with
      pins :=
        match pin.message with
        | none => s.pins
        | some m => s.pins.addPin m.channelId pin }
  | .pinRemove channelId messageId => { s with pins := s.pins.removePin channelId messageId }
  | .embedsUpdate channelId messageId embeds =>
    { s with messages := s.messages.patchEmbeds channelId messageId embeds }
  | .readStateUpdate rs => { s with readStates := s.readStates.updateReadState rs }
  | .presenceUpdate userId status statusText =>
    { s with presence := s.presence.setPresence now userId status statusText }
  | .channelGroupCreate group => { s with groups := s.groups.addGroup group }
  | .channelGroupUpdate group => { s with groups := s.groups.updateGroup group }
  | .channelGroupDelete serverId channelGroupId =>
    { s with groups := s.groups.removeGroup serverId channelGroupId }
  | .permissionOverrideUpdate none _ => s
  | .permissionOverrideUpdate (some override) _ =>
    { s with overrides := s.overrides.upsertOverride override.targetId override }
  | .permissionOverrideDelete overrideId targetId _ =>
    { s with
      overrides :=
        if targetId ≠ "" ∧ overrideId ≠ "" then
          let overrides := (s.overrides.byTarget targetId).getD []
          match Shelves.first PermissionOverride.id overrideId overrides with
          | none => s.overrides
          | some o => s.overrides.removeOverride targetId o.roleId o.userId
        else s.overrides }
  | .unhandled _ => s

/-- An event that names another server is rejected. -/
def rejects (expectedServerId : ID) (e : Event) : Bool :=
  e.serverId.any fun id => id ≠ "" ∧ id ≠ expectedServerId

def dispatchSpokeEvent (s : State) (now : Nat) (instanceUrl : String) (expectedServerId : ID)
    (e : Event) : State :=
  if rejects expectedServerId e then s else s.handle now instanceUrl expectedServerId e

def dispatchSpokeOp (s : State) (now : Nat) (instanceUrl : String) (op : Op) : State :=
  match s.federation.spokes instanceUrl with
  | none => s
  | some spoke =>
    match op with
    | .ready =>
      { s with federation := s.federation.updateSpokeStatus instanceUrl .connected none }
    -- only the connection itself is told
    | .heartbeatAck => s
    | .event e => s.dispatchSpokeEvent now instanceUrl spoke.serverId e

end State

end Meza.Client.Spoke
