import Meza.Client.SpokeGateway
import Meza.Client.SpokeWrites

/-! # What a spoke can reach

    An event of a spoke names the places that it is stored under: channels,
    messages, users, servers. A server id on the payload itself is compared
    with the server of the spoke; no other id is. -/

namespace Meza.Client.Spoke
open List Event Shelves Function MessageState State ChannelState PermissionOverrideState ReactionState PinState FederationState ReadStateState

open Store (ID)

/-! ## Section 1: Places -/

/-- A part of the state of the client. `shared` is what no id belongs to. -/
inductive Place where
  | session
  | shared
  | server (serverId : ID)
  | channels (serverId : ID)
  | channelIndex (channelId : ID)
  | members (serverId : ID)
  | roles (serverId : ID)
  | groups (serverId : ID)
  | messages (channelId : ID)
  | typing (channelId : ID)
  | readState (channelId : ID)
  | pins (channelId : ID)
  | reactions (messageId : ID)
  | emoji (emojiId : ID)
  | presence (userId : ID)
  | overrides (targetId : ID)
  | spoke (instanceUrl : String)
  | serverIndex (serverId : ID)
  deriving DecidableEq, Repr

/-- The place is left as it was. -/
def SameAt (s s' : State) : Place → Prop
  | .session => (s'.currentUserId, s'.viewedChannelIds) = (s.currentUserId, s.viewedChannelIds)
  | .shared => s'.roles.isLoading = s.roles.isLoading
  | .server id => s'.servers.servers id = s.servers.servers id
  | .channels id => s'.channels.byServer id = s.channels.byServer id
  | .channelIndex id => s'.channels.channelToServer id = s.channels.channelToServer id
  | .members id => s'.members.byServer id = s.members.byServer id
  | .roles id => s'.roles.byServer id = s.roles.byServer id
  | .groups id => s'.groups.byServer id = s.groups.byServer id
  | .messages id => s'.messages.channel id = s.messages.channel id
  | .typing id => s'.typing.byChannel id = s.typing.byChannel id
  | .readState id => s'.readStates.byChannel id = s.readStates.byChannel id
  | .pins id => s'.pins.channel id = s.pins.channel id
  | .reactions id => s'.reactions.byMessage id = s.reactions.byMessage id
  | .emoji id => s'.emojis.byId id = s.emojis.byId id
  | .presence id => s'.presence.byUser id = s.presence.byUser id
  | .overrides id => s'.overrides.byTarget id = s.overrides.byTarget id
  | .spoke url => s'.federation.spokes url = s.federation.spokes url
  | .serverIndex id => s'.federation.serverIndex id = s.federation.serverIndex id

theorem SameAt.refl (s : State) (p : Place) : SameAt s s p := by
  cases p with
  | _ => exact rfl

/-- What belongs to the server of a spoke, beside what is kept under its own id. -/
structure Domain where
  channels : ID → Prop
  groups : ID → Prop
  messages : ID → Prop
  members : ID → Prop
  emojis : ID → Prop

/-- The places of the server with the domain, whose spoke has the URL. -/
def Domain.owns (d : Domain) (instanceUrl : String) (serverId : ID) : Place → Prop
  | .session | .shared => False
  | .server id | .channels id | .members id | .roles id | .groups id | .serverIndex id =>
    id = serverId
  | .channelIndex id | .messages id | .typing id | .readState id | .pins id => d.channels id
  | .reactions id => d.messages id
  | .emoji id => d.emojis id
  | .presence id => d.members id
  | .overrides id => d.channels id ∨ d.groups id
  | .spoke url => url = instanceUrl

/-- What does not belong to the spoke's server stays as it was. -/
def Isolated (d : Domain) (instanceUrl : String) (serverId : ID) (s s' : State) : Prop :=
  ∀ p, ¬ d.owns instanceUrl serverId p → SameAt s s' p

/-! ## Section 2: The condition -/

/-- What is cleaned up with a spoke, each place with the condition under which nothing is there. -/
def State.cleaned (s : State) (instanceUrl : String) (serverId : ID) : List (Place × Prop) :=
  [(.server serverId, False), (.channels serverId, False), (.roles serverId, False),
    (.groups serverId, False), (.spoke instanceUrl, False)] ++
  ((rows s.channels.byServer serverId).map fun ch =>
    (.channelIndex ch.id, s.channels.channelToServer ch.id = none)) ++
  (s.federation.spokes instanceUrl).toList.map fun spoke =>
    (.serverIndex spoke.serverId, s.federation.serverIndex spoke.serverId = none)

/-- The places under which an event is stored, each with the condition under which the
    client is there already as it will be after the event. -/
def Event.stored (s : State) (now : Nat) (instanceUrl : String) (serverId : ID) :
    Event → List (Place × Prop)
  | .messageCreate msg =>
    [(.messages msg.channelId, s.messages.Knows msg.channelId msg.id),
      (.typing msg.channelId, s.typing.Without msg.channelId msg.authorId),
      (.readState msg.channelId, s.counts msg = false)]
  | .messageUpdate msg => [(.messages msg.channelId, s.messages.Has msg.channelId msg)]
  | .messageDelete c id => [(.messages c, s.messages.Lacks c [id])]
  | .messageBulkDelete c ids => [(.messages c, s.messages.Lacks c ids)]
  | .typingStart c u => [(.typing c, s.isMe u = true ∨ s.typing.Until c u (now + 6000))]
  | .channelCreate ch =>
    [(.channels ch.serverId, ∃ x ∈ rows s.channels.byServer ch.serverId, x.id = ch.id),
      (.channelIndex ch.id,
        (∃ x ∈ rows s.channels.byServer ch.serverId, x.id = ch.id) ∨
          s.channels.channelToServer ch.id = some ch.serverId)]
  | .channelUpdate ch => [(.channels ch.serverId, channelShelving.Has s.channels.byServer ch)]
  | .channelDelete c _ =>
    match s.channels.serverOf c with
    | none => []
    | some sid =>
      [(.channels sid, ∀ x ∈ rows s.channels.byServer sid, x.id ≠ c), (.channelIndex c, False)]
  | .memberJoin m =>
    [(.members m.serverId, ∃ x ∈ rows s.members.byServer m.serverId, x.userId = m.userId)]
  | .memberUpdate m => [(.members m.serverId, memberShelving.Has s.members.byServer m)]
  | .memberRemove sid u =>
    (.members sid, ∀ x ∈ rows s.members.byServer sid, x.userId ≠ u) ::
      if s.isMe u then s.cleaned instanceUrl serverId else []
  | .serverUpdate none => []
  | .serverUpdate (some server) =>
    [(.server server.id, s.servers.servers server.id = some server)]
  | .roleCreate r =>
    [(.roles r.serverId, ∃ x ∈ rows s.roles.byServer r.serverId, x.id = r.id)]
  | .roleUpdate r => [(.roles r.serverId, roleShelving.Has s.roles.byServer r)]
  | .roleDelete sid id =>
    [(.roles sid, ∀ x ∈ rows s.roles.byServer sid, x.id ≠ id),
      (.members sid, ∀ x ∈ rows s.members.byServer sid, id ∉ x.roleIds)]
  | .rolesReordered sid roles =>
    [(.roles sid, s.roles.byServer sid = some (roleShelving.arrange roles)),
      (.shared, s.roles.isLoading = false)]
  | .reactionAdd m emoji u customEmoji =>
    (.reactions m, ∃ g, s.reactions.group m emoji = some g ∧ u ∈ g.userIds) ::
      match customEmoji.filter fun e => e.id ≠ "" with
      | none => []
      | some e => [(.emoji e.id, s.emojis.byId e.id = some e)]
  | .reactionRemove m emoji u =>
    [(.reactions m, s.reactions.Without m emoji u (s.isMe u))]
  | .pinAdd pin =>
    match pin.message with
    | none => []
    | some m => [(.pins m.channelId, s.pins.isPinned m.channelId pin)]
  | .pinRemove c id => [(.pins c, s.pins.Without c id)]
  | .embedsUpdate c id embeds => [(.messages c, s.messages.HasEmbeds c id embeds)]
  | .readStateUpdate rs => [(.readState rs.channelID, s.readStates.IsAt rs)]
  | .presenceUpdate u status statusText =>
    [(.presence u, s.presence.byUser u = some ⟨status, statusText, now⟩)]
  | .channelGroupCreate g =>
    [(.groups g.serverId, ∃ x ∈ rows s.groups.byServer g.serverId, x.id = g.id)]
  | .channelGroupUpdate g => [(.groups g.serverId, groupShelving.Has s.groups.byServer g)]
  | .channelGroupDelete sid id =>
    [(.groups sid, ∀ x ∈ rows s.groups.byServer sid, x.id ≠ id)]
  | .permissionOverrideUpdate none _ => []
  | .permissionOverrideUpdate (some o) _ => [(.overrides o.targetId, s.overrides.Has o)]
  | .permissionOverrideDelete id t _ =>
    [(.overrides t, t = "" ∨ id = "" ∨ ∀ o ∈ (s.overrides.byTarget t).getD [], o.id ≠ id)]
  | .unhandled _ => []

/-- The event is rejected, or whatever it is stored under belongs to the spoke's server or is
    already as the event says. -/
def Confined (d : Domain) (s : State) (now : Nat) (instanceUrl : String) (serverId : ID)
    (e : Event) : Prop :=
  rejects serverId e = true ∨
    ∀ x ∈ e.stored s now instanceUrl serverId, d.owns instanceUrl serverId x.1 ∨ x.2

/-! ## Section 3: What stays as it is -/

section Frame

variable {s s₁ s₂ : State} {p : Place}

theorem SameAt.trans (h : SameAt s s₁ p) (h' : SameAt s₁ s₂ p) : SameAt s s₂ p := by
  cases p with
  | _ => exact .trans h' h

theorem sameAt_cleanupSpoke {instanceUrl : String} {serverId : ID}
    (h : ∀ x ∈ s.cleaned instanceUrl serverId, x.1 ≠ p) :
    SameAt s (s.cleanupSpoke instanceUrl serverId) p := by
  simp only [cleaned, forall_mem_append, forall_mem_cons, forall_mem_map, Option.mem_toList] at h
  obtain ⟨⟨⟨hserver, hchannels, hroles, hgroups, hspoke, -⟩, hindex⟩, hserverIndex⟩ := h
  cases p with
  | server sid =>
    exact update_of_ne (fun heq => hserver (congrArg Place.server heq.symm)) _ _
  | channels sid =>
    exact update_of_ne (fun heq => hchannels (congrArg Place.channels heq.symm)) _ _
  | roles sid =>
    exact update_of_ne (fun heq => hroles (congrArg Place.roles heq.symm)) _ _
  | groups sid =>
    exact update_of_ne (fun heq => hgroups (congrArg Place.groups heq.symm)) _ _
  | channelIndex c =>
    refine removeServerChannels_index_of_notMem fun ch hch heq => ?_
    exact hindex ch hch (congrArg Place.channelIndex heq)
  | spoke url =>
    have hne : url ≠ instanceUrl := fun heq => hspoke (congrArg Place.spoke heq.symm)
    exact removeSpoke_of_ne hne
  | serverIndex sid =>
    refine removeSpoke_index_of_ne fun spoke hfound heq => ?_
    exact hserverIndex spoke hfound (congrArg Place.serverIndex heq)
  | _ => exact rfl


theorem sameAt_handle {now : Nat} {instanceUrl : String} {serverId : ID} (e : Event)
    (h : ∀ x ∈ e.stored s now instanceUrl serverId, x.1 ≠ p) :
    SameAt s (s.handle now instanceUrl serverId e) p := by
  -- an action of one store leaves the places of the others alone
  cases e with
  | messageCreate msg =>
    cases p with
    | messages c =>
      refine (channel_eq_iff (rest_addMessage msg)).mpr (sameAt_addMessage msg fun heq => ?_)
      exact h _ (.head _) (by rw [heq])
    | typing c =>
      exact update_of_ne (fun heq => h _ (.tail _ (.head _)) (by rw [heq])) _ _
    | readState c =>
      have hne : c ≠ msg.channelId := fun heq =>
        h _ (.tail _ (.tail _ (.head _))) (by rw [heq])
      simp only [SameAt, handle]
      split_ifs
      · exact update_of_ne hne _ _
      · exact update_of_ne hne _ _
      · rfl
    | _ => exact rfl
  | messageUpdate msg =>
    cases p with
    | messages c =>
      refine (channel_eq_iff (rest_updateMessage msg)).mpr ?_
      exact sameAt_updateMessage msg fun heq => h _ (.head _) (by rw [heq])
    | _ => exact rfl
  | messageDelete channelId messageId =>
    cases p with
    | messages c =>
      refine (channel_eq_iff (rest_removeMessages [messageId])).mpr ?_
      exact s.messages.sameAt_removeMessages [messageId] fun heq => h _ (.head _) (by rw [heq])
    | _ => exact rfl
  | messageBulkDelete channelId messageIds =>
    rw [handle, foldl_removeMessage]
    cases p with
    | messages c =>
      refine (channel_eq_iff (rest_removeMessages messageIds)).mpr ?_
      exact s.messages.sameAt_removeMessages messageIds fun heq => h _ (.head _) (by rw [heq])
    | _ => exact rfl
  | typingStart channelId userId =>
    cases p with
    | typing c =>
      simp only [SameAt, handle]
      split
      · rfl
      · exact update_of_ne (fun heq => h _ (.head _) (by rw [heq])) _ _
    | _ => exact rfl
  | channelCreate channel =>
    cases p with
    | channels sid => exact add_of_ne fun heq => h _ (.head _) (by rw [heq]; rfl)
    | channelIndex c =>
      exact addChannel_index_of_ne fun heq => h _ (.tail _ (.head _)) (by rw [heq])
    | _ => exact rfl
  | channelUpdate channel =>
    cases p with
    | channels sid => exact update_of_ne fun heq => h _ (.head _) (by rw [heq]; rfl)
    | _ => exact rfl
  | channelDelete channelId =>
    simp only [stored] at h
    simp only [handle, removeChannel]
    cases hserver : s.channels.serverOf channelId with
    | none => exact .refl s p
    | some serverId =>
      simp only [hserver, forall_mem_cons] at h
      cases p with
      | channels sid => exact update_of_ne (fun heq => h.1 (by rw [heq])) _ _
      | channelIndex c => exact update_of_ne (fun heq => h.2.1 (by rw [heq])) _ _
      | _ => exact rfl
  | memberJoin member =>
    cases p with
    | members sid => exact add_of_ne fun heq => h _ (.head _) (by rw [heq]; rfl)
    | _ => exact rfl
  | memberUpdate member =>
    cases p with
    | members sid => exact update_of_ne fun heq => h _ (.head _) (by rw [heq]; rfl)
    | _ => exact rfl
  | memberRemove sid userId =>
    simp only [stored, forall_mem_cons] at h
    have h₁ : SameAt s { s with members := s.members.removeMember sid userId } p := by
      cases p with
      | members k => exact update_of_ne (fun heq => h.1 (by rw [heq])) _ _
      | _ => exact rfl
    simp only [handle]
    split
    · next hme =>
      rw [if_pos hme] at h
      -- whoever is removed himself leaves the spoke
      exact h₁.trans (sameAt_cleanupSpoke h.2)
    · exact h₁
  | serverUpdate server =>
    cases server with
    | none => exact .refl s p
    | some server =>
      cases p with
      | server sid => exact update_of_ne (fun heq => h _ (.head _) (by rw [heq])) _ _
      | _ => exact rfl
  | roleCreate role =>
    cases p with
    | roles sid => exact add_of_ne fun heq => h _ (.head _) (by rw [heq]; rfl)
    | _ => exact rfl
  | roleUpdate role =>
    cases p with
    | roles sid => exact update_of_ne fun heq => h _ (.head _) (by rw [heq]; rfl)
    | _ => exact rfl
  | roleDelete sid roleId =>
    cases p with
    | roles k => exact update_of_ne (fun heq => h _ (.head _) (by rw [heq])) _ _
    | members k => exact update_of_ne (fun heq => h _ (.tail _ (.head _)) (by rw [heq])) _ _
    | _ => exact rfl
  | rolesReordered sid roles =>
    cases p with
    | roles k => exact update_of_ne (fun heq => h _ (.head _) (by rw [heq])) _ _
    | shared => exact absurd rfl (h _ (.tail _ (.head _)))
    | _ => exact rfl
  | reactionAdd messageId emoji userId customEmoji =>
    cases p with
    | reactions m => exact addReaction_of_ne fun heq => h _ (.head _) (by rw [heq])
    | emoji id =>
      simp only [stored] at h
      simp only [SameAt, handle]
      split
      · rfl
      · next hemoji =>
        simp only [hemoji, forall_mem_cons] at h
        exact update_of_ne (fun heq => h.2.1 (by rw [heq])) _ _
    | _ => exact rfl
  | reactionRemove messageId emoji userId =>
    cases p with
    | reactions m => exact removeReaction_of_ne fun heq => h _ (.head _) (by rw [heq])
    | _ => exact rfl
  | pinAdd pin =>
    cases p with
    | pins c =>
      simp only [stored] at h
      simp only [SameAt, handle]
      cases hmessage : pin.message with
      | none => rfl
      | some m =>
        simp only [hmessage, forall_mem_cons] at h
        exact addPin_of_ne s.pins pin fun heq => h.1 (by rw [heq])
    | _ => exact rfl
  | pinRemove channelId messageId =>
    cases p with
    | pins c => exact removePin_of_ne s.pins messageId fun heq => h _ (.head _) (by rw [heq])
    | _ => exact rfl
  | embedsUpdate channelId messageId embeds =>
    cases p with
    | messages c =>
      refine (channel_eq_iff (rest_patchEmbeds messageId embeds)).mpr ?_
      exact sameAt_patchEmbeds messageId embeds fun heq => h _ (.head _) (by rw [heq])
    | _ => exact rfl
  | readStateUpdate rs =>
    cases p with
    | readState c => exact update_of_ne (fun heq => h _ (.head _) (by rw [heq])) _ _
    | _ => exact rfl
  | presenceUpdate userId status statusText =>
    cases p with
    | presence u => exact update_of_ne (fun heq => h _ (.head _) (by rw [heq])) _ _
    | _ => exact rfl
  | channelGroupCreate group =>
    cases p with
    | groups sid => exact add_of_ne fun heq => h _ (.head _) (by rw [heq]; rfl)
    | _ => exact rfl
  | channelGroupUpdate group =>
    cases p with
    | groups sid => exact update_of_ne fun heq => h _ (.head _) (by rw [heq]; rfl)
    | _ => exact rfl
  | channelGroupDelete sid groupId =>
    cases p with
    | groups k => exact update_of_ne (fun heq => h _ (.head _) (by rw [heq])) _ _
    | _ => exact rfl
  | permissionOverrideUpdate override sid =>
    cases override with
    | none => exact .refl s p
    | some override =>
      cases p with
      | overrides t => exact update_of_ne (fun heq => h _ (.head _) (by rw [heq])) _ _
      | _ => exact rfl
  | permissionOverrideDelete overrideId targetId sid =>
    cases p with
    | overrides t =>
      have hne : t ≠ targetId := fun heq => h _ (.head _) (by rw [heq])
      simp only [SameAt, handle]
      split_ifs
      · split
        · rfl
        · exact removeOverride_of_ne hne
      · rfl
    | _ => exact rfl
  | unhandled sid => exact .refl s p

end Frame

/-! ## Section 4: What is written -/

section Writes

variable {d : Domain} {s : State} {instanceUrl : String} {serverId : ID}

/-- What is cleaned up stays as it is only if nothing is there. -/
theorem sameAt_cleanupSpoke_iff (s' : State) (hchannels : s'.channels = s.channels)
    (hfederation : s'.federation = s.federation) :
    ∀ x ∈ s.cleaned instanceUrl serverId, ¬ d.owns instanceUrl serverId x.1 →
      (SameAt s (s'.cleanupSpoke instanceUrl serverId) x.1 ↔ x.2) := by
  simp only [cleaned, forall_mem_append, forall_mem_cons, forall_mem_map, Option.mem_toList]
  refine ⟨⟨⟨fun h => absurd rfl h, fun h => absurd rfl h, fun h => absurd rfl h,
    fun h => absurd rfl h, fun h => absurd rfl h, fun x hx => by cases hx⟩, ?_⟩, ?_⟩
  · intro ch hch _
    have hnone : (s'.cleanupSpoke instanceUrl serverId).channels.channelToServer ch.id = none := by
      refine removeServerChannels_index_of_mem ?_
      rwa [hchannels]
    simp only [SameAt, hnone, eq_comm]
  · intro spoke hfound _
    have hnone : (s'.cleanupSpoke instanceUrl serverId).federation.serverIndex spoke.serverId =
        none := by
      refine removeSpoke_index ?_
      rwa [hfederation]
    simp only [SameAt, hnone, eq_comm]

theorem sameAt_stored {now : Nat} (e : Event) :
    ∀ x ∈ e.stored s now instanceUrl serverId, ¬ d.owns instanceUrl serverId x.1 →
      (SameAt s (s.handle now instanceUrl serverId e) x.1 ↔ x.2) := by
  cases e with
  | messageCreate msg =>
    simp only [stored, forall_mem_cons]
    refine ⟨fun _ => ?_, fun _ => TypingState.clearUser_self_iff, fun _ => ?_, fun x hx => by
      cases hx⟩
    · exact (channel_eq_iff (rest_addMessage msg)).trans sameAt_addMessage_iff
    · simp only [SameAt, handle]
      split_ifs with hcounts hmention
      · exact iff_of_false incrementUnreadWithMention_ne (by simp [hcounts])
      · exact iff_of_false incrementUnread_ne (by simp [hcounts])
      · exact iff_of_true rfl (by simpa using hcounts)
  | messageUpdate msg =>
    simp only [stored, forall_mem_singleton]
    exact fun _ => (channel_eq_iff (rest_updateMessage msg)).trans sameAt_updateMessage_iff
  | messageDelete channelId messageId =>
    simp only [stored, forall_mem_singleton]
    intro _
    exact (channel_eq_iff (rest_removeMessages [messageId])).trans sameAt_removeMessages_iff
  | messageBulkDelete channelId messageIds =>
    simp only [stored, forall_mem_singleton]
    rw [handle, foldl_removeMessage]
    exact fun _ => (channel_eq_iff (rest_removeMessages messageIds)).trans sameAt_removeMessages_iff
  | typingStart channelId userId =>
    simp only [stored, forall_mem_singleton, SameAt, handle]
    intro _
    split_ifs with hme
    · exact iff_of_true rfl (Or.inl hme)
    · exact TypingState.setTyping_self_iff.trans (by simp [hme])
  | channelCreate channel =>
    simp only [stored, forall_mem_cons]
    refine ⟨fun _ => add_self_iff, fun _ => addChannel_index_iff, fun x hx =>
      by cases hx⟩
  | channelUpdate | memberUpdate | roleUpdate | channelGroupUpdate =>
    simp only [stored, forall_mem_singleton]
    exact fun _ => update_self_iff
  | channelDelete channelId =>
    simp only [stored, handle, removeChannel]
    cases hserver : s.channels.serverOf channelId with
    | none => exact fun x hx => by cases hx
    | some sid =>
      simp only [forall_mem_cons]
      refine ⟨fun _ => remove_self_iff, fun _ => ?_, fun x hx => by cases hx⟩
      simp only [SameAt, update_self, index_of_serverOf hserver, reduceCtorEq]
  | memberJoin | roleCreate | channelGroupCreate =>
    simp only [stored, forall_mem_singleton]
    exact fun _ => add_self_iff
  | memberRemove sid userId =>
    simp only [stored, forall_mem_cons, handle]
    split_ifs with hme
    · -- the cleanup reads the channels and the spokes, which the removal left alone
      exact ⟨fun _ => remove_self_iff, sameAt_cleanupSpoke_iff _ rfl rfl⟩
    · exact ⟨fun _ => remove_self_iff, fun x hx => by cases hx⟩
  | serverUpdate server =>
    cases server with
    | none => exact fun x hx => by cases hx
    | some server =>
      simp only [stored, forall_mem_singleton, SameAt, handle,
        ServerState.addServer, update_self, eq_comm, implies_true]
  | roleDelete sid roleId =>
    simp only [stored, forall_mem_cons]
    refine ⟨fun _ => removeAll_self_iff, fun _ => ?_, fun x hx => by cases hx⟩
    refine modify_self_iff.trans (forall₂_congr fun m hm => ?_)
    rw [← erase_eq_self_iff]
    constructor
    · exact fun h => congrArg Member.roleIds h
    · intro h
      rw [h]
  | rolesReordered sid roles =>
    simp only [stored, forall_mem_cons, SameAt, handle, RoleState.setRoles, update_self]
    exact ⟨fun _ => eq_comm, fun _ => eq_comm, fun x hx => by cases hx⟩
  | reactionAdd messageId emoji userId customEmoji =>
    simp only [stored, forall_mem_cons]
    refine ⟨fun _ => addReaction_self_iff, ?_⟩
    cases hemoji : customEmoji.filter fun e => e.id ≠ "" with
    | none => exact fun x hx => by cases hx
    | some e =>
      simp only [forall_mem_singleton, SameAt, handle, hemoji,
        EmojiState.setReactionEmojis, update_self, eq_comm, implies_true]
  | reactionRemove messageId emoji userId =>
    simp only [stored, forall_mem_singleton]
    exact fun _ => removeReaction_self_iff
  | pinAdd pin =>
    simp only [stored]
    cases hmessage : pin.message with
    | none => exact fun x hx => by cases hx
    | some m =>
      simp only [forall_mem_singleton, SameAt, handle, hmessage]
      exact fun _ => addPin_self_iff
  | pinRemove channelId messageId =>
    simp only [stored, forall_mem_singleton]
    exact fun _ => removePin_self_iff
  | embedsUpdate channelId messageId embeds =>
    simp only [stored, forall_mem_singleton]
    intro _
    exact (channel_eq_iff (rest_patchEmbeds messageId embeds)).trans sameAt_patchEmbeds_iff
  | readStateUpdate rs =>
    simp only [stored, forall_mem_singleton]
    exact fun _ => updateReadState_self_iff
  | presenceUpdate userId status statusText =>
    simp only [stored, forall_mem_singleton, SameAt, handle,
      PresenceState.setPresence, update_self, eq_comm, implies_true]
  | channelGroupDelete sid groupId =>
    simp only [stored, forall_mem_singleton]
    exact fun _ => remove_self_iff
  | permissionOverrideUpdate override sid =>
    cases override with
    | none => exact fun x hx => by cases hx
    | some override =>
      simp only [stored, forall_mem_singleton]
      exact fun _ => upsertOverride_self_iff
  | permissionOverrideDelete overrideId targetId sid =>
    simp only [stored, forall_mem_singleton, SameAt, handle]
    intro _
    split_ifs with hids
    · cases hfirst : first PermissionOverride.id overrideId
          ((s.overrides.byTarget targetId).getD []) with
      | none =>
        -- no override of that id is found, and none is removed
        exact iff_of_true rfl (Or.inr (Or.inr (first_eq_none.mp hfirst)))
      | some o =>
        have ho : o ∈ (s.overrides.byTarget targetId).getD [] := mem_of_find?_eq_some hfirst
        have hid : o.id = overrideId := by simpa using find?_some hfirst
        refine iff_of_false (removeOverride_ne ho) ?_
        rintro (h | h | h)
        · exact hids.1 h
        · exact hids.2 h
        · exact h o ho hid
    · refine iff_of_true rfl ?_
      tauto
  | unhandled sid => exact fun x hx => by cases hx

/-- The client of a spoke is isolated from an event exactly when the event is confined. -/
theorem isolated_iff (d : Domain) (s : State) (now : Nat) (instanceUrl : String) (serverId : ID)
    (e : Event) :
    Isolated d instanceUrl serverId s (s.dispatchSpokeEvent now instanceUrl serverId e) ↔
      Confined d s now instanceUrl serverId e := by
  unfold dispatchSpokeEvent Confined
  split_ifs with hrejected
  · exact iff_of_true (fun p _ => .refl s p) (.inl hrejected)
  · simp only [hrejected, Bool.false_eq_true, false_or]
    constructor
    · -- nothing foreign that the event is stored under may differ
      intro h x hx
      by_cases howned : d.owns instanceUrl serverId x.1
      · exact .inl howned
      · exact .inr ((sameAt_stored e x hx howned).mp (h x.1 howned))
    · -- whatever the event is not stored under stays as it is
      intro h p hforeign
      by_cases hp : ∃ x ∈ e.stored s now instanceUrl serverId, x.1 = p
      · obtain ⟨x, hx, rfl⟩ := hp
        exact (sameAt_stored e x hx hforeign).mpr ((h x hx).resolve_left hforeign)
      · exact sameAt_handle e fun x hx heq => hp ⟨x, hx, heq⟩

/-- A client with a spoke and a message of the home instance. -/
def homeAndSpoke : State where
  messages :=
    { byChannel := update (fun _ => none) "general" (some [⟨"m", "general", "anna", [], [],
        0, [], [], false⟩]) }
  federation :=
    { spokes := update (fun _ => none) "https://spoke.example"
        (some ⟨"https://spoke.example", "", "", "", "guests", .connected, none⟩) }

/-- The channels and the members of the spoke's server, and nothing else. -/
def guests : Domain where
  channels c := c = "lounge"
  groups _ := False
  messages _ := False
  members u := u = "gwen"
  emojis _ := False

/-- A spoke deletes a message of the home instance. -/
theorem erases_home_message :
    ¬ Isolated guests "https://spoke.example" "guests" homeAndSpoke
      (homeAndSpoke.dispatchSpokeOp 0 "https://spoke.example"
        (.event (.messageDelete "general" "m"))) := by
  intro h
  have hforeign : ("general" : ID) ≠ "lounge" := by decide
  have hsame : SameAt homeAndSpoke _ (.messages "general") := h (.messages "general") hforeign
  have hmessages := congrArg Prod.fst hsame
  revert hmessages
  decide

end Writes

end Meza.Client.Spoke
