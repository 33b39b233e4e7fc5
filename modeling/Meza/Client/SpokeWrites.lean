import Meza.Client.SpokeStores

/-! # When a write changes nothing

    For each action of a store that an event of a spoke can lead to: the other
    keys stay as they are, and the condition on the state before under which
    its own key does. -/

namespace Meza.Client
open Function Option List Shelves Index

open Store (ID)

/-! ## Section 1: Messages -/

namespace MessageState

variable {s : MessageState} {channelId c : ID}

/-- The message is there, or is buffered while old messages are shown. -/
def Knows (s : MessageState) (channelId messageId : ID) : Prop :=
  (s.lookup channelId messageId).isSome ∨
    (s.viewMode channelId = some .historical ∧ ∃ m ∈ s.pending channelId, m.id = messageId)

/-- The first message with the id, and the indexed one, are the message. -/
def Has (s : MessageState) (channelId : ID) (message : Message) : Prop :=
  ∀ old, first Message.id message.id (s.messages channelId) = some old →
    old = message ∧ ∀ index, s.byId channelId = some index → index message.id = some message

/-- An opened channel does not have the messages. -/
def Lacks (s : MessageState) (channelId : ID) (messageIds : List ID) : Prop :=
  (s.byChannel channelId).isSome →
    (∀ m ∈ s.messages channelId, m.id ∉ messageIds) ∧
      ∀ id ∈ messageIds, s.lookup channelId id = none

/-- The first message with the id, and the indexed one, have the embeds. -/
def HasEmbeds (s : MessageState) (channelId messageId : ID) (embeds : List LinkEmbed) : Prop :=
  ∀ old, first Message.id messageId (s.messages channelId) = some old →
    old.embeds = embeds ∧ ∀ m, s.lookup channelId messageId = some m → m.embeds = embeds

/-- What an event does not touch. -/
structure Rest (s' s : MessageState) : Prop where
  hasMore : s'.hasMore = s.hasMore
  isLoading : s'.isLoading = s.isLoading
  error : s'.error = s.error

theorem SameAt.refl (s : MessageState) (channelId : ID) : s.SameAt s channelId :=
  ⟨rfl, rfl, rfl, rfl⟩

theorem Rest.refl (s : MessageState) : s.Rest s := ⟨rfl, rfl, rfl⟩

/-- All that is kept of a channel. -/
def channel (s : MessageState) (channelId : ID) :=
  (s.byChannel channelId, s.byId channelId, s.viewMode channelId, s.pendingMessages channelId,
    s.hasMore channelId, s.isLoading channelId, s.error channelId)

theorem channel_eq_iff {s' : MessageState} (h : s'.Rest s) :
    s'.channel c = s.channel c ↔ s'.SameAt s c := by
  unfold channel
  rw [h.hasMore, h.isLoading, h.error]
  constructor
  · intro heq
    simp only [Prod.mk.injEq, and_true] at heq
    exact ⟨heq.1, heq.2.1, heq.2.2.1, heq.2.2.2⟩
  · intro hsame
    rw [hsame.byChannel, hsame.byId, hsame.viewMode, hsame.pending]

theorem rest_addMessage (message : Message) : (s.addMessage channelId message).Rest s := by
  unfold addMessage bufferMessage
  split_ifs
  all_goals exact ⟨rfl, rfl, rfl⟩

theorem rest_updateMessage (message : Message) : (s.updateMessage channelId message).Rest s := by
  unfold updateMessage
  split
  · exact ⟨rfl, rfl, rfl⟩
  · exact .refl s

theorem rest_removeMessages (ids : List ID) : (s.removeMessages channelId ids).Rest s := by
  unfold removeMessages
  split
  · exact .refl s
  · exact ⟨rfl, rfl, rfl⟩

theorem rest_patchEmbeds (messageId : ID) (embeds : List LinkEmbed) :
    (s.patchEmbeds channelId messageId embeds).Rest s := by
  unfold patchEmbeds
  split
  · exact .refl s
  · exact ⟨rfl, rfl, rfl⟩

theorem sameAt_addMessage (message : Message) (h : c ≠ channelId) :
    (s.addMessage channelId message).SameAt s c :=
  Action.run_other s (.addMessage channelId message) h

theorem sameAt_updateMessage (message : Message) (h : c ≠ channelId) :
    (s.updateMessage channelId message).SameAt s c :=
  Action.run_other s (.updateMessage channelId message) h

theorem sameAt_patchEmbeds (messageId : ID) (embeds : List LinkEmbed) (h : c ≠ channelId) :
    (s.patchEmbeds channelId messageId embeds).SameAt s c := by
  unfold patchEmbeds
  split
  · exact .refl s c
  · exact ⟨update_of_ne h _ _, update_of_ne h _ _, rfl, rfl⟩

theorem sameAt_addMessage_iff {message : Message} :
    (s.addMessage channelId message).SameAt s channelId ↔ s.Knows channelId message.id := by
  unfold addMessage Knows
  by_cases hknown : (s.lookup channelId message.id).isSome = true
  · simp only [hknown, if_true, ite_self, true_or, iff_true]
    exact .refl s channelId
  · simp only [hknown, if_false, false_or, Bool.false_eq_true]
    by_cases hmode : s.viewMode channelId = some .historical
    · rw [if_pos hmode]
      unfold bufferMessage
      split
      · next hdup =>
        refine iff_of_true ⟨rfl, rfl, rfl, ?_⟩ ⟨hmode, hdup⟩
        obtain ⟨m, hm, -⟩ := hdup
        show update _ channelId _ channelId = _
        rw [update_self]
        unfold pending at hm ⊢
        cases hpending : s.pendingMessages channelId with
        | none => simp [hpending] at hm
        | some msgs => rfl
      · next hnew =>
        refine iff_of_false (fun h => ?_) fun h => hnew h.2
        have hpending : some (s.pending channelId ++ [message]) = s.pendingMessages channelId :=
          (update_self channelId _ s.pendingMessages).symm.trans h.pending
        -- the buffer has become longer
        have hlonger : s.pending channelId = s.pending channelId ++ [message] := by
          conv_lhs => unfold pending
          rw [← hpending]
          rfl
        have hlength := congrArg length hlonger
        rw [length_append, length_singleton] at hlength
        omega
    · rw [if_neg hmode]
      refine iff_of_false (fun h => ?_) fun h => hmode h.1
      have hlookup := congrFun h.lookup message.id
      have hpushed : (s.pushMessage channelId message).lookup channelId message.id =
          some message := by
        simp [pushMessage, lookup]
      rw [hpushed] at hlookup
      rw [← hlookup] at hknown
      exact hknown rfl

theorem replaceFirst_eq (message : Message) (messages : List Message) :
    replaceFirst message messages = Shelves.replaceFirst Message.id message messages := by
  induction messages with
  | nil => rfl
  | cons m messages ih => rw [replaceFirst, Shelves.replaceFirst, ih]

theorem messages_of_byChannel {l : List Message} (h : s.byChannel channelId = some l) :
    s.messages channelId = l := by
  unfold messages
  rw [h]
  rfl

theorem byChannel_of_mem {m : Message} (h : m ∈ s.messages channelId) :
    s.byChannel channelId = some (s.messages channelId) := by
  unfold messages at h ⊢
  cases hchannel : s.byChannel channelId with
  | none => simp [hchannel] at h
  | some l => rfl

theorem sameAt_updateMessage_iff {message : Message} :
    (s.updateMessage channelId message).SameAt s channelId ↔ s.Has channelId message := by
  unfold updateMessage Has
  split
  · next h =>
    obtain ⟨m, hm, hid⟩ := h
    have hchannel := byChannel_of_mem hm
    have hindex : s.modifyIndex channelId
        (fun index => update index message.id (some message)) channelId =
        s.byId channelId ↔
          ∀ index, s.byId channelId = some index → index message.id = some message := by
      unfold modifyIndex
      rw [update_self]
      cases hbyId : s.byId channelId with
      | none => simp
      | some index =>
        simp only [map_some, some.injEq, forall_eq']
        exact update_eq_iff.trans (and_iff_left fun _ _ => rfl) |>.trans eq_comm
    constructor
    · intro hsame old hold
      have hlist := hsame.byChannel
      simp only [update_self] at hlist
      rw [hchannel, Option.some.injEq, replaceFirst_eq, Shelves.replaceFirst_eq_self_iff] at hlist
      exact ⟨hlist old hold, hindex.mp hsame.byId⟩
    · intro hhas
      have hlist : replaceFirst message (s.messages channelId) = s.messages channelId := by
        rw [replaceFirst_eq, replaceFirst_eq_self_iff]
        exact fun old hold => (hhas old hold).1
      refine ⟨?_, ?_, rfl, rfl⟩
      · show update _ channelId _ channelId = _
        rw [update_self, hlist, hchannel]
      · refine hindex.mpr fun index hbyId => ?_
        rcases hfirst : first Message.id message.id (s.messages channelId) with _ | old
        · exact absurd hid (first_eq_none.mp hfirst m hm)
        · exact (hhas old hfirst).2 index hbyId
  · next h =>
    refine iff_of_true (.refl s channelId) fun old hold => ?_
    have hmem : old ∈ s.messages channelId := mem_of_find?_eq_some hold
    have hid : old.id = message.id := by simpa using find?_some hold
    exact absurd ⟨old, hmem, hid⟩ h

theorem sameAt_removeMessages_iff {ids : List ID} :
    (s.removeMessages channelId ids).SameAt s channelId ↔ s.Lacks channelId ids := by
  unfold removeMessages Lacks
  cases hchannel : s.byChannel channelId with
  | none => exact iff_of_true (.refl s channelId) fun h => absurd h (by simp)
  | some messages =>
    rw [messages_of_byChannel hchannel]
    simp only [isSome_some, forall_const]
    have hlist : messages.filter (fun m => m.id ∉ ids) = messages ↔ ∀ m ∈ messages, m.id ∉ ids := by
      simp [filter_eq_self]
    have hindex : s.modifyIndex channelId (fun index => erase index ids) channelId =
        s.byId channelId ↔ ∀ id ∈ ids, s.lookup channelId id = none := by
      unfold modifyIndex lookup
      rw [update_self]
      cases hbyId : s.byId channelId with
      | none => simp
      | some index =>
        simp only [map_some, some.injEq, bind_some]
        constructor
        · intro heq id hid
          rw [← heq, erase_apply, if_pos hid]
        · intro hnone
          funext id
          rw [erase_apply]
          split
          · next hid => exact (hnone id hid).symm
          · rfl
    constructor
    · intro h
      refine ⟨hlist.mp ?_, hindex.mp h.byId⟩
      have hkept := h.byChannel
      simp only [update_self] at hkept
      rw [hchannel, some.injEq] at hkept
      exact hkept
    · rintro ⟨hmessages, hids⟩
      refine ⟨?_, hindex.mpr hids, rfl, rfl⟩
      show update _ channelId _ channelId = _
      rw [update_self, hlist.mpr hmessages, hchannel]

theorem removeMessages_cons (s : MessageState) (channelId id : ID) (ids : List ID) :
    (s.removeMessage channelId id).removeMessages channelId ids =
      s.removeMessages channelId (id :: ids) := by
  unfold removeMessage removeMessages
  cases hchannel : s.byChannel channelId with
  | none => simp only [hchannel]
  | some messages =>
    have hlist : (messages.filter fun m => decide (m.id ∉ ids) && decide (m.id ∉ [id])) =
        messages.filter fun m => m.id ∉ id :: ids := by
      refine List.filter_congr fun m _ => ?_
      simp [Bool.and_comm]
    simp only [Function.update_self, Function.update_idem, List.filter_filter, modifyIndex,
      Option.map_map]
    rw [hlist]
    rfl

theorem foldl_removeMessage (s : MessageState) (channelId : ID) (ids : List ID) :
    ids.foldl (fun ms id => ms.removeMessage channelId id) s = s.removeMessages channelId ids := by
  induction ids generalizing s with
  | nil =>
    unfold removeMessages
    cases hchannel : s.byChannel channelId with
    | none => rfl
    | some messages =>
      have hlist : update s.byChannel channelId
          (some (messages.filter fun m => m.id ∉ ([] : List ID))) = s.byChannel := by
        simp [← hchannel]
      have hindex : s.modifyIndex channelId (fun index => erase index []) = s.byId := by
        unfold modifyIndex erase
        simp
      simp only [foldl_nil]
      rw [hlist, hindex]
  | cons id ids ih => rw [foldl_cons, ih, removeMessages_cons]

theorem sameAt_patchEmbeds_iff {messageId : ID} {embeds : List LinkEmbed} :
    (s.patchEmbeds channelId messageId embeds).SameAt s channelId ↔
      s.HasEmbeds channelId messageId embeds := by
  have hpatch : ∀ m : Message, { m with embeds } = m ↔ m.embeds = embeds := by
    intro m
    constructor
    · intro h
      rw [← h]
    · rintro rfl
      rfl
  unfold patchEmbeds HasEmbeds first
  cases hfirst : (s.messages channelId).find? fun m => m.id = messageId with
  | none => exact iff_of_true (.refl s channelId) fun old hold => by cases hold
  | some m =>
    simp only [some.injEq, forall_eq']
    have hid : m.id = messageId := by simpa using find?_some hfirst
    subst hid
    have hchannel := byChannel_of_mem (mem_of_find?_eq_some hfirst)
    have hlist : replaceFirst { m with embeds } (s.messages channelId) = s.messages channelId ↔
        m.embeds = embeds := by
      rw [replaceFirst_eq, Shelves.replaceFirst_eq_self_iff]
      show (∀ x, first Message.id m.id (s.messages channelId) = some x → _) ↔ _
      unfold first
      rw [hfirst]
      simp only [some.injEq, forall_eq']
      rw [eq_comm, hpatch]
    have hindex : s.modifyIndex channelId (fun index => update index m.id
        ((index m.id).map fun m => { m with embeds })) channelId = s.byId channelId ↔
        ∀ x, s.lookup channelId m.id = some x → x.embeds = embeds := by
      unfold modifyIndex lookup
      rw [update_self]
      cases hbyId : s.byId channelId with
      | none => simp
      | some index =>
        simp only [map_some, some.injEq, bind_some]
        rw [update_eq_iff, and_iff_left fun _ _ => rfl]
        cases hmessage : index m.id with
        | none => simp
        | some x => simp only [map_some, some.injEq, forall_eq', hpatch]
    constructor
    · intro h
      have hkept := h.byChannel
      simp only [update_self] at hkept
      rw [hchannel, some.injEq] at hkept
      exact ⟨hlist.mp hkept, hindex.mp h.byId⟩
    · rintro ⟨hembeds, hindexed⟩
      refine ⟨?_, hindex.mpr hindexed, rfl, rfl⟩
      show update _ channelId _ channelId = _
      rw [update_self, hlist.mpr hembeds, hchannel]

end MessageState

/-! ## Section 2: Read states -/

namespace ReadStateState

variable {s : ReadStateState} {channelId : ID}

theorem some_ne_of_unread {data : ReadStateData} {stored : Option ReadStateData}
    (h : ∀ existing ∈ stored, data.unreadCount = existing.unreadCount + 1) :
    some data ≠ stored := by
  rintro rfl
  have hcount := h data rfl
  omega

theorem incrementUnread_ne :
    (s.incrementUnread channelId).byChannel channelId ≠ s.byChannel channelId := by
  simp only [incrementUnread, update_self]
  apply some_ne_of_unread
  intro existing hexisting
  rw [mem_def.mp hexisting]

theorem incrementUnreadWithMention_ne :
    (s.incrementUnreadWithMention channelId).byChannel channelId ≠ s.byChannel channelId := by
  simp only [incrementUnreadWithMention, update_self]
  apply some_ne_of_unread
  intro existing hexisting
  rw [mem_def.mp hexisting]

/-- The read state is shown, and no mention if nothing is unread. -/
def IsAt (s : ReadStateState) (rs : ReadState) : Prop :=
  ∃ data, s.byChannel rs.channelID = some data ∧ data.lastReadMessageId = rs.lastReadMessageID ∧
    data.unreadCount = rs.unreadCount ∧ (rs.unreadCount = 0 → data.mentionOrDmCount = 0)

theorem updateReadState_self_iff {rs : ReadState} :
    (s.updateReadState rs).byChannel rs.channelID = s.byChannel rs.channelID ↔ s.IsAt rs := by
  simp only [updateReadState, IsAt, entry, mentionOrDmCount, update_self]
  cases s.byChannel rs.channelID with
  | none => simp
  | some data =>
    obtain ⟨last, unread, mention⟩ := data
    simp only [some.injEq, exists_eq_left', map_some, getD_some, ReadStateData.mk.injEq]
    rw [eq_comm, @eq_comm _ rs.unreadCount]
    refine and_congr_right fun _ => and_congr_right fun _ => ?_
    split
    · next hzero => simp [hzero, eq_comm]
    · next hsome => simp [hsome]

end ReadStateState

namespace Spoke

/-! ## Section 3: By channel -/

theorem some_ne_of_longer {α : Type} {old : Option (List α)} {new : List α}
    (h : (old.getD []).length < new.length) : some new ≠ old := by
  rintro rfl
  exact lt_irrefl _ h

section Channel

variable {channelId userId : ID}

/-- The user is shown as typing until this time. -/
def TypingState.Until (s : TypingState) (channelId userId : ID) (time : Nat) : Prop :=
  ∃ users, s.byChannel channelId = some users ∧ (∃ x ∈ users, x.1 = userId) ∧
    ∀ x ∈ users, x.1 = userId → x.2 = time

theorem TypingState.setTyping_self_iff {s : TypingState} {now : Nat} :
    (s.setTyping now channelId userId).byChannel channelId = s.byChannel channelId ↔
      s.Until channelId userId (now + 6000) := by
  simp only [setTyping, Until, update_self]
  cases s.byChannel channelId with
  | none => simp
  | some users =>
    simp only [getD_some, some.injEq, exists_eq_left']
    exact Dict.set_eq_self_iff

/-- Others may be typing. -/
def TypingState.Without (s : TypingState) (channelId userId : ID) : Prop :=
  ∀ users, s.byChannel channelId = some users → users ≠ [] ∧ ∀ x ∈ users, x.1 ≠ userId

theorem TypingState.clearUser_self_iff {s : TypingState} :
    (s.clearUser channelId userId).byChannel channelId = s.byChannel channelId ↔
      s.Without channelId userId := by
  simp only [clearUser, Without, update_self]
  cases s.byChannel channelId with
  | none => simp
  | some users =>
    simp only [bind_some, some.injEq, forall_eq']
    rw [← Dict.delete_eq_self_iff]
    constructor
    · intro h
      split at h
      · cases h
      · next hne =>
        have hkept : Dict.delete users userId = users := some.inj h
        rw [hkept] at hne
        exact ⟨hne, hkept⟩
    · rintro ⟨hne, hkept⟩
      rw [hkept, if_neg hne]

/-- All that is kept of a channel. -/
def PinState.channel (s : PinState) (channelId : ID) :=
  (s.byChannel channelId, s.pinnedIds channelId)

theorem PinState.addPin_self_iff {s : PinState} {pin : PinnedMessage} :
    (s.addPin channelId pin).channel channelId = s.channel channelId ↔
      s.isPinned channelId pin := by
  unfold addPin
  split
  · next h => exact iff_of_true rfl h
  · next h =>
    refine iff_of_false (fun hsame => ?_) h
    have hpins := congrArg Prod.fst hsame
    unfold channel at hpins
    simp only [update_self] at hpins
    exact some_ne_of_longer (by simp) hpins

theorem PinState.addPin_of_ne (s : PinState) (pin : PinnedMessage) {c : ID} (h : c ≠ channelId) :
    (s.addPin channelId pin).channel c = s.channel c := by
  unfold addPin
  split
  · rfl
  · refine Prod.ext (update_of_ne h _ _) ?_
    cases pin.messageId.filter (· ≠ "") with
    | none => rfl
    | some msgId => exact update_of_ne h _ _

/-- An opened list of pins does not have the message. -/
def PinState.Without (s : PinState) (channelId messageId : ID) : Prop :=
  ∀ pins, s.byChannel channelId = some pins →
    (∀ p ∈ pins, p.messageId ≠ some messageId) ∧
      ∀ ids, s.pinnedIds channelId = some ids → messageId ∉ ids

theorem PinState.removePin_self_iff {s : PinState} {messageId : ID} :
    (s.removePin channelId messageId).channel channelId = s.channel channelId ↔
      s.Without channelId messageId := by
  unfold removePin Without channel
  cases hpins : s.byChannel channelId with
  | none => exact iff_of_true (by rw [hpins]) fun pins h => by cases h
  | some pins =>
    simp only [update_self, Prod.mk.injEq, some.injEq, forall_eq']
    refine and_congr ?_ ?_
    · simp [filter_eq_self]
    · cases s.pinnedIds channelId with
      | none => simp
      | some ids =>
        simp only [map_some, some.injEq, forall_eq', filter_eq_self]
        constructor
        · intro h hmem
          simpa using h messageId hmem
        · intro h id hid
          simpa using fun heq : id = messageId => h (heq ▸ hid)

theorem PinState.removePin_of_ne (s : PinState) (messageId : ID) {c : ID} (h : c ≠ channelId) :
    (s.removePin channelId messageId).channel c = s.channel c := by
  unfold removePin
  split
  · rfl
  · exact Prod.ext (update_of_ne h _ _) (update_of_ne h _ _)

end Channel

section ByServer

variable {s : ChannelState} {channelId : ID}

theorem ChannelState.addChannel_index_iff {channel : Channel} :
    (s.addChannel channel).channelToServer channel.id = s.channelToServer channel.id ↔
      (∃ c ∈ rows s.byServer channel.serverId, c.id = channel.id) ∨
        s.channelToServer channel.id = some channel.serverId := by
  unfold addChannel
  split
  · next h => exact iff_of_true rfl (.inl h)
  · next h =>
    rw [or_iff_right h]
    simp only [update_self]
    exact eq_comm

theorem ChannelState.addChannel_index_of_ne {channel : Channel} (h : channelId ≠ channel.id) :
    (s.addChannel channel).channelToServer channelId = s.channelToServer channelId := by
  unfold addChannel
  split
  · rfl
  · exact update_of_ne h _ _

variable {serverId : ID}

theorem ChannelState.index_of_serverOf (h : s.serverOf channelId = some serverId) :
    s.channelToServer channelId = some serverId := by
  exact (filter_eq_some_iff.mp h).1

theorem ChannelState.removeServerChannels_index_of_notMem
    (h : ∀ c ∈ rows s.byServer serverId, c.id ≠ channelId) :
    (s.removeServerChannels serverId).channelToServer channelId = s.channelToServer channelId := by
  have hnot : channelId ∉ (rows s.byServer serverId).map Channel.id := by
    intro hmem
    obtain ⟨c, hc, hid⟩ := mem_map.mp hmem
    exact h c hc hid
  show erase _ _ channelId = _
  rw [erase_apply, if_neg hnot]

theorem ChannelState.removeServerChannels_index_of_mem {c : Channel}
    (h : c ∈ rows s.byServer serverId) :
    (s.removeServerChannels serverId).channelToServer c.id = none := by
  show erase _ _ c.id = _
  rw [erase_apply, if_pos (mem_map_of_mem h)]

end ByServer

/-! ## Section 4: By message and by target -/

section Reaction

variable {s : ReactionState} {messageId userId : ID} {emoji : String} {isMe : Bool}

theorem ReactionState.byMessage_of_group {g : ReactionGroup}
    (h : s.group messageId emoji = some g) : s.byMessage messageId = some (s.groups messageId) := by
  have hmem : g ∈ s.groups messageId := mem_of_find?_eq_some h
  unfold groups at hmem ⊢
  cases hgroups : s.byMessage messageId with
  | none => simp [hgroups] at hmem
  | some l => rfl

theorem ReactionState.emoji_of_group {g : ReactionGroup} (h : s.group messageId emoji = some g) :
    g.emoji = emoji := by
  simpa using find?_some h

theorem ReactionState.addReaction_self_iff :
    (s.addReaction messageId emoji userId isMe).byMessage messageId = s.byMessage messageId ↔
      ∃ g, s.group messageId emoji = some g ∧ userId ∈ g.userIds := by
  unfold addReaction
  cases hgroup : s.group messageId emoji with
  | none =>
    refine iff_of_false (fun h => ?_) fun ⟨g, hg, _⟩ => by cases hg
    simp only [update_self] at h
    exact some_ne_of_longer (by simp [groups]) h
  | some g =>
    simp only [some.injEq, exists_eq_left']
    split
    · next hin => exact iff_of_true rfl hin
    · next hout =>
      refine iff_of_false (fun h => ?_) hout
      simp only [update_self] at h
      rw [byMessage_of_group hgroup, some.injEq, replaceFirst_eq_self_iff] at h
      have hsame := h g (emoji_of_group hgroup ▸ hgroup)
      have hlength := congrArg (fun g => g.userIds.length) hsame
      simp at hlength

/-- The emoji is not the user's, and is not shown as the own one. -/
def ReactionState.Without (s : ReactionState) (messageId : ID) (emoji : String) (userId : ID)
    (isMe : Bool) : Prop :=
  ∀ g, s.group messageId emoji = some g →
    userId ∉ g.userIds ∧ g.userIds ≠ [] ∧ (isMe = true → g.me = false)

theorem ReactionState.removeReaction_self_iff :
    (s.removeReaction messageId emoji userId isMe).byMessage messageId = s.byMessage messageId ↔
      s.Without messageId emoji userId isMe := by
  unfold removeReaction Without
  cases hgroup : s.group messageId emoji with
  | none => exact iff_of_true rfl fun g hg => by cases hg
  | some g =>
    have hemoji := emoji_of_group hgroup
    have hmem : g ∈ s.groups messageId := mem_of_find?_eq_some hgroup
    simp only [update_self, some.injEq, forall_eq']
    rw [byMessage_of_group hgroup, some.injEq]
    split
    · next hempty =>
      constructor
      · intro h
        -- the group is gone
        have hlength := length_eraseP_of_mem hmem (p := fun x => decide (x.emoji = emoji))
          (decide_eq_true hemoji)
        rw [h] at hlength
        have hpos := length_pos_of_mem hmem
        omega
      · rintro ⟨hout, hne, -⟩
        refine absurd ?_ hne
        rw [← hempty, eq_comm, filter_eq_self]
        intro id hid
        simpa using fun heq : id = userId => hout (heq ▸ hid)
    · next hsome =>
      rw [replaceFirst_eq_self_iff]
      constructor
      · intro h
        have hsame := h g (hemoji ▸ hgroup)
        have hids : g.userIds = g.userIds.filter (· ≠ userId) :=
          congrArg ReactionGroup.userIds hsame
        have hme : g.me = if isMe then false else g.me := congrArg ReactionGroup.me hsame
        refine ⟨fun hin => ?_, fun hnil => hsome (by rw [hnil]; rfl), fun hisMe => ?_⟩
        · rw [hids] at hin
          simpa using (mem_filter.mp hin).2
        · rw [hme, if_pos hisMe]
      · rintro ⟨hout, -, hme⟩ x hx
        have hx' : s.group messageId emoji = some x := hemoji ▸ hx
        rw [hgroup] at hx'
        cases hx'
        have hids : g.userIds.filter (· ≠ userId) = g.userIds := by
          rw [filter_eq_self]
          intro id hid
          simpa using fun heq : id = userId => hout (heq ▸ hid)
        have hflag : (if isMe then false else g.me) = g.me := by
          split
          · next hisMe => exact (hme hisMe).symm
          · rfl
        rw [hids, hflag]

theorem ReactionState.addReaction_of_ne {m : ID} (h : m ≠ messageId) :
    (s.addReaction messageId emoji userId isMe).byMessage m = s.byMessage m := by
  unfold addReaction
  split
  · split
    · rfl
    · exact update_of_ne h _ _
  · exact update_of_ne h _ _

theorem ReactionState.removeReaction_of_ne {m : ID} (h : m ≠ messageId) :
    (s.removeReaction messageId emoji userId isMe).byMessage m = s.byMessage m := by
  unfold removeReaction
  split
  · rfl
  · exact update_of_ne h _ _

end Reaction

section Override

variable {s : PermissionOverrideState} {targetId : ID}

/-- The first override for the role or the user is this one. -/
def PermissionOverrideState.Has (s : PermissionOverrideState) (override : PermissionOverride) :
    Prop :=
  let key := PermissionOverride.subject (override.userId ≠ "")
  first key (key override) ((s.byTarget override.targetId).getD []) = some override

theorem PermissionOverrideState.upsertOverride_self_iff {override : PermissionOverride} :
    (s.upsertOverride override.targetId override).byTarget override.targetId =
      s.byTarget override.targetId ↔ s.Has override := by
  simp only [upsertOverride, Has, update_self]
  split
  · next h =>
    obtain ⟨o, ho, hkey⟩ := h
    have htarget : s.byTarget override.targetId =
        some ((s.byTarget override.targetId).getD []) := by
      cases hlist : s.byTarget override.targetId with
      | none => simp [hlist] at ho
      | some l => rfl
    conv_lhs => rw [htarget]
    rw [getD_some, some.injEq, replaceFirst_eq_self_iff]
    constructor
    · intro hall
      rcases hfirst : first (PermissionOverride.subject (override.userId ≠ ""))
          (PermissionOverride.subject (override.userId ≠ "") override)
          ((s.byTarget override.targetId).getD []) with _ | x
      · exact absurd hkey (first_eq_none.mp hfirst o ho)
      · rw [hall x hfirst]
    · intro hfirst x hx
      rw [hfirst] at hx
      exact (some.inj hx).symm
  · next h =>
    refine iff_of_false (fun heq => some_ne_of_longer (by simp) heq) fun hfirst => h ?_
    exact ⟨override, mem_of_find?_eq_some hfirst, rfl⟩

/-- The override itself goes with those for the same role or user. -/
theorem PermissionOverrideState.removeOverride_ne {o : PermissionOverride}
    (ho : o ∈ (s.byTarget targetId).getD []) :
    (s.removeOverride targetId o.roleId o.userId).byTarget targetId ≠ s.byTarget targetId := by
  unfold removeOverride
  cases hlist : s.byTarget targetId with
  | none => simp [hlist] at ho
  | some list =>
    rw [hlist, getD_some] at ho
    simp only [update_self]
    intro h
    have hkept := some.inj h
    rw [← hkept] at ho
    split at ho
    · simpa using (mem_filter.mp ho).2
    · simpa using (mem_filter.mp ho).2

theorem PermissionOverrideState.removeOverride_of_ne {t roleId userId : ID} (h : t ≠ targetId) :
    (s.removeOverride targetId roleId userId).byTarget t = s.byTarget t := by
  unfold removeOverride
  split
  · rfl
  · exact update_of_ne h _ _

end Override

section Federation

variable {s : FederationState} {instanceUrl url : String} {status : SpokeConnectionStatus}
  {lastError : Option String} {serverId : ID}

/-- A spoke whose status is set and that is then removed. -/
theorem FederationState.removeSpoke_of_ne (h : url ≠ instanceUrl) :
    ((s.updateSpokeStatus instanceUrl status lastError).removeSpoke instanceUrl).spokes url =
      s.spokes url := by
  unfold removeSpoke
  split
  · exact update_of_ne h _ _
  · exact (update_of_ne h _ _).trans (update_of_ne h _ _)

theorem FederationState.removeSpoke_index_of_ne
    (h : ∀ spoke, s.spokes instanceUrl = some spoke → spoke.serverId ≠ serverId) :
    ((s.updateSpokeStatus instanceUrl status lastError).removeSpoke instanceUrl).serverIndex
      serverId = s.serverIndex serverId := by
  unfold removeSpoke updateSpokeStatus
  simp only [update_self]
  cases hfound : s.spokes instanceUrl with
  | none => rfl
  | some spoke => exact update_of_ne (h spoke hfound).symm _ _

theorem FederationState.removeSpoke_index {spoke : SpokeConnection}
    (h : s.spokes instanceUrl = some spoke) :
    ((s.updateSpokeStatus instanceUrl status lastError).removeSpoke instanceUrl).serverIndex
      spoke.serverId = none := by
  unfold removeSpoke updateSpokeStatus
  simp only [update_self, h, map_some]

end Federation

end Spoke

end Meza.Client
