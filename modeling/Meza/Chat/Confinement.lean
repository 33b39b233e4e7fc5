import Meza.Chat.Reading

/-! # Answers confined to readers

    Whoever reads a message of somebody else should be a participant of its DM,
    or a member of its server with ViewChannel and ReadMessageHistory. The
    seven requests check this in different ways, and some of them check less. -/

namespace Meza.Chat

open Store Permissions MessageStore Table List Option

/-! ## Section 1: Requests and readers -/

/-- The requests that answer with messages, with what the environment adds to
    each. -/
inductive ReadCall where
  | getMessages (req : GetMessagesRequest)
  | searchMessages (req : SearchMessagesRequest)
  | getReplies (req : GetRepliesRequest)
  | getMessagesByIDs (req : GetMessagesByIDsRequest)
  | getPinnedMessages (clock : Int) (parseTime : String → Option Int)
      (req : GetPinnedMessagesRequest)
  | pinMessage (clock : Int) (req : PinMessageRequest)
  | reportMessage (nfc : String → String) (validUTF8 : List UInt8 → String) (newID : ID)
      (req : ReportMessageRequest)

/-- The messages whose content the answer holds. -/
def ReadCall.contents (s : MessagingState) (caller : Option ID) : ReadCall → List Message
  | .getMessages req => answered (Chat.getMessages caller req) (·.messages) s
  | .searchMessages req => answered (Chat.searchMessages caller req) (·.messages) s
  -- the entries of replies are ids without content
  | .getReplies req => answered (Chat.getReplies caller req) (fun _ => []) s
  | .getMessagesByIDs req => answered (Chat.getMessagesByIDs caller req) (·.messages) s
  | .getPinnedMessages clock parseTime req =>
    answered (Chat.getPinnedMessages clock parseTime caller req)
      (fun r => r.pinnedMessages.map (·.message)) s
  | .pinMessage clock req => answered (Chat.pinMessage clock caller req) (fun i => [i.message]) s
  | .reportMessage nfc validUTF8 newID req =>
    answered (Chat.reportMessage nfc validUTF8 newID caller req) (reported s.archive) s

/-- Members of the server whose mask has ViewChannel and ReadMessageHistory. -/
def MemberReads (s : ChatState) (c : Channel) (serverID userID : ID) : Prop :=
  ChatStore.isMember s.db.tables userID serverID = true ∧
    Served s userID serverID c.id viewChannel ∧ Served s userID serverID c.id readMessageHistory

/-- Who may read the messages of a channel. -/
def Entitled (s : ChatState) (c : Channel) (userID : ID) : Prop :=
  match c.serverID with
  | none => isChannelMember s.db.tables c.id userID = true
  | some serverID => MemberReads s c serverID userID

def MayRead (s : ChatState) (userID channelID : ID) : Prop :=
  ∃ c, lookup Channel.id channelID s.db.tables.channels = some c ∧ Entitled s c userID

/-! ## Section 2: Where the checks fall short -/

/-- A channel of a server that has the type of a DM: a row in `channel_members`
    stands for the membership. -/
def StrayMember (s : ChatState) (c : Channel) (serverID userID : ID) : Prop :=
  c.serverID = some serverID ∧ c.type ∈ [3, 4] ∧ isChannelMember s.db.tables c.id userID = true ∧
    ChatStore.isMember s.db.tables userID serverID = false

/-- A channel of a server whose reader belongs to it but may not read. -/
def Unentitled (s : ChatState) (c : Channel) (serverID userID : ID) : Prop :=
  c.serverID = some serverID ∧ Belongs s.db.tables c userID ∧ ¬ MemberReads s c serverID userID

def HoldsOthers (userID : ID) (rows : List Message) : Prop := ∃ m ∈ rows, m.authorID ≠ userID

/-- The requests that answer with what the reader may not read. -/
def Leaks (s : MessagingState) (userID : ID) : ReadCall → Prop
  | .getMessages req =>
    ∃ c serverID, lookup Channel.id req.channelID s.chat.db.tables.channels = some c ∧
      StrayMember s.chat c serverID userID ∧ Admits s.chat c userID true ∧ cursorCount req ≤ 1 ∧
      HoldsOthers userID (MessageStore.getMessages s.archive req.channelID req.toGetMessagesOpts).1
  | .searchMessages req =>
    ∃ c serverID, lookup Channel.id req.opts.channelID s.chat.db.tables.channels = some c ∧
      StrayMember s.chat c serverID userID ∧ Admits s.chat c userID true ∧
      hits s (.search userID) < 5 ∧
      (req.opts.beforeID = "" ∨ validULID req.opts.beforeID = true) ∧
      (req.opts.afterID = "" ∨ validULID req.opts.afterID = true) ∧
      HoldsOthers userID (MessageStore.searchMessages s.archive req.opts).1
  | .getReplies _ => False
  | .getMessagesByIDs req =>
    -- the participants of a DM are not looked at
    ∃ c, lookup Channel.id req.channelID s.chat.db.tables.channels = some c ∧
      c.serverID = none ∧ isChannelMember s.chat.db.tables c.id userID = false ∧
      req.messageIDs.length ≤ 50 ∧
      HoldsOthers userID ((MessageStore.getMessagesByIDs s.archive req.channelID
        req.messageIDs).filter fun m => !m.deleted)
  | .getPinnedMessages clock parseTime req =>
    -- neither is the history
    ∃ c serverID, lookup Channel.id req.channelID s.chat.db.tables.channels = some c ∧
      Unentitled s.chat c serverID userID ∧ Enters s.chat c serverID userID ∧
      ∃ before, pinCursor clock parseTime req.before = .ok before ∧
        HoldsOthers userID (((pinPage s.archive req.channelID before
          (pageLimit 50 100 req.limit)).take
            (pageLimit 50 100 req.limit)).filterMap
              fun p => (pinned s.archive p).map (·.message))
  | .pinMessage _ req =>
    -- nor the channel itself
    ∃ c serverID, lookup Channel.id req.channelID s.chat.db.tables.channels = some c ∧
      Unentitled s.chat c serverID userID ∧ Served s.chat userID serverID c.id manageMessages ∧
      req.messageID ≠ "" ∧
      ∃ m, getMessage s.archive req.channelID req.messageID = some m ∧
        m.deleted = false ∧ m.authorID ≠ userID
  | .reportMessage nfc _ _ req =>
    ∃ channelID c serverID,
      findChannelForMessage s.chat.db.tables s.archive userID req.messageID = .ok channelID ∧
      lookup Channel.id channelID s.chat.db.tables.channels = some c ∧
      Unentitled s.chat c serverID userID ∧ req.messageID ≠ "" ∧ req.category ≠ .unspecified ∧
      (∃ reason, sanitizeReason nfc req.reason = .ok reason) ∧
      ∃ m, getMessage s.archive channelID req.messageID = some m ∧
        (m.deleted = false ∧ m.keyVersion = 0) ∧ Accepts s userID m ∧ m.authorID ≠ userID

/-- The answer holds a message of somebody else that the caller may not read. -/
def Exposes (s : MessagingState) (userID : ID) (rows : List Message) : Prop :=
  ∃ m ∈ rows, m.authorID ≠ userID ∧ ¬ MayRead s.chat userID m.channelID

/-! ## Section 3: One request after the other -/

section Requests

variable {s : MessagingState} {userID channelID : ID} {c : Channel} {m : Message}

theorem mayRead_iff (hc : lookup Channel.id channelID s.chat.db.tables.channels = some c) :
    MayRead s.chat userID channelID ↔ Entitled s.chat c userID := by
  unfold MayRead
  rw [hc]
  simp

theorem channelID_ne_empty (hs : WellFormed s.chat.db.tables)
    (hc : lookup Channel.id channelID s.chat.db.tables.channels = some c) :
    channelID ≠ "" := by
  obtain ⟨hmem, hid⟩ := mem_of_lookup hc
  rw [← hid]
  exact hs.channels.channelIDs c hmem

theorem serverID_ne_empty (hs : WellFormed s.chat.db.tables)
    (hc : lookup Channel.id channelID s.chat.db.tables.channels = some c)
    {serverID : ID} (hserver : c.serverID = some serverID) : serverID ≠ "" := by
  have href := s.chat.db.constraints.channels.channelsServer c (mem_of_lookup hc).1
  rw [hserver] at href
  obtain ⟨srv, hsrv, hid⟩ := mem_map.mp (href serverID rfl)
  rw [← hid]
  exact hs.channels.serverIDs srv hsrv

theorem entitled_of_belongs_dm (hserver : c.serverID = none)
    (hbelongs : Belongs s.chat.db.tables c userID) : Entitled s.chat c userID := by
  unfold Belongs at hbelongs
  unfold Entitled
  rw [hserver] at hbelongs ⊢
  split at hbelongs
  · exact hbelongs
  · obtain ⟨_, h, -⟩ := hbelongs
    cases h

theorem not_entitled_iff {serverID : ID} (hserver : c.serverID = some serverID) :
    ¬ Entitled s.chat c userID ↔ ¬ MemberReads s.chat c serverID userID := by
  unfold Entitled
  rw [hserver]

theorem unentitled_iff :
    (∃ serverID, Unentitled s.chat c serverID userID) ↔
      Belongs s.chat.db.tables c userID ∧ ¬ Entitled s.chat c userID := by
  constructor
  · intro h
    obtain ⟨serverID, hserver, hbelongs, hnot⟩ := h
    exact ⟨hbelongs, (not_entitled_iff hserver).mpr hnot⟩
  · intro h
    obtain ⟨hbelongs, hnot⟩ := h
    rcases hserver : c.serverID with _ | serverID
    · exact absurd (entitled_of_belongs_dm hserver hbelongs) hnot
    · exact ⟨serverID, hserver, hbelongs, (not_entitled_iff hserver).mp hnot⟩

/-- Past the gate of the history only stray members are not entitled. -/
theorem strayMember_iff (hadmits : Admits s.chat c userID true) :
    (∃ serverID, StrayMember s.chat c serverID userID) ↔
      Belongs s.chat.db.tables c userID ∧ ¬ Entitled s.chat c userID := by
  rw [← unentitled_iff]
  refine exists_congr fun serverID => ?_
  refine and_congr_right fun hserver => ?_
  unfold Admits at hadmits
  rw [hserver] at hadmits
  obtain ⟨-, hview, hread, -⟩ := hadmits
  have hreads : MemberReads s.chat c serverID userID ↔
      ChatStore.isMember s.chat.db.tables userID serverID = true :=
    ⟨fun h => h.1, fun h => ⟨h, hview, hread⟩⟩
  unfold Belongs
  rw [hreads, hserver, Bool.not_eq_true]
  by_cases htype : c.type ∈ [3, 4]
  · rw [if_pos htype]
    exact ⟨fun h => h.2, fun h => ⟨htype, h⟩⟩
  · rw [if_neg htype]
    refine iff_of_false (fun h => htype h.1) ?_
    intro h
    obtain ⟨⟨_, hid, hmember⟩, hnot⟩ := h
    injection hid with hid
    rw [← hid, hnot] at hmember
    cases hmember

theorem exposes_getMessages (hs : WellFormed s.chat.db.tables) (req : GetMessagesRequest) :
    Exposes s userID (ReadCall.contents s (some userID) (.getMessages req)) ↔
      Leaks s userID (.getMessages req) := by
  unfold Exposes ReadCall.contents Leaks HoldsOthers
  simp only [mem_getMessages]
  constructor
  · intro h
    obtain ⟨m, ⟨-, c, ⟨hc, hbelongs⟩, hadmits, hcursor, hm⟩, hother, hnot⟩ := h
    rw [channelID_of_getMessages hm, mayRead_iff hc] at hnot
    obtain ⟨serverID, hstray⟩ := (strayMember_iff hadmits).mpr ⟨hbelongs, hnot⟩
    exact ⟨c, serverID, hc, hstray, hadmits, hcursor, m, hm, hother⟩
  · intro h
    obtain ⟨c, serverID, hc, hstray, hadmits, hcursor, m, hm, hother⟩ := h
    obtain ⟨hbelongs, hnot⟩ := (strayMember_iff hadmits).mp ⟨serverID, hstray⟩
    refine ⟨m, ⟨channelID_ne_empty hs hc, c, ⟨hc, hbelongs⟩, hadmits, hcursor, hm⟩, hother, ?_⟩
    rw [channelID_of_getMessages hm, mayRead_iff hc]
    exact hnot

theorem exposes_searchMessages (hs : WellFormed s.chat.db.tables) (req : SearchMessagesRequest) :
    Exposes s userID (ReadCall.contents s (some userID) (.searchMessages req)) ↔
      Leaks s userID (.searchMessages req) := by
  unfold Exposes ReadCall.contents Leaks HoldsOthers
  simp only [mem_searchMessages]
  constructor
  · intro h
    obtain ⟨m, ⟨hrate, -, c, ⟨hc, hbelongs⟩, hadmits, hbefore, hafter, hm⟩, hother, hnot⟩ := h
    rw [channelID_of_searchMessages hm, mayRead_iff hc] at hnot
    obtain ⟨serverID, hstray⟩ := (strayMember_iff hadmits).mpr ⟨hbelongs, hnot⟩
    exact ⟨c, serverID, hc, hstray, hadmits, hrate, hbefore, hafter, m, hm, hother⟩
  · intro h
    obtain ⟨c, serverID, hc, hstray, hadmits, hrate, hbefore, hafter, m, hm, hother⟩ := h
    obtain ⟨hbelongs, hnot⟩ := (strayMember_iff hadmits).mp ⟨serverID, hstray⟩
    refine ⟨m, ⟨hrate, channelID_ne_empty hs hc, c, ⟨hc, hbelongs⟩, hadmits, hbefore, hafter, hm⟩,
      hother, ?_⟩
    rw [channelID_of_searchMessages hm, mayRead_iff hc]
    exact hnot

theorem exposes_getReplies (req : GetRepliesRequest) :
    ¬ Exposes s userID (ReadCall.contents s (some userID) (.getReplies req)) := by
  intro h
  obtain ⟨m, hm, -⟩ := h
  obtain ⟨_, _, -, hm⟩ := mem_answered.mp hm
  cases hm

theorem exposes_getMessagesByIDs (hs : WellFormed s.chat.db.tables)
    (req : GetMessagesByIDsRequest) :
    Exposes s userID (ReadCall.contents s (some userID) (.getMessagesByIDs req)) ↔
      Leaks s userID (.getMessagesByIDs req) := by
  unfold Exposes ReadCall.contents Leaks HoldsOthers
  simp only [mem_getMessagesByIDs, mem_filter, Bool.not_eq_true']
  constructor
  · intro h
    obtain ⟨m, ⟨-, hlength, c, hc, hmember, hadmits, hm, hlive⟩, hother, hnot⟩ := h
    rw [channelID_of_getMessagesByIDs hm, mayRead_iff hc] at hnot
    unfold Entitled at hnot
    unfold Admits at hadmits
    rcases hserver : c.serverID with _ | serverID
    · rw [hserver] at hnot
      exact ⟨c, hc, hserver, by simpa using hnot, hlength, m, ⟨hm, hlive⟩, hother⟩
    · -- a member that passes the gate of the history is entitled
      rw [hserver] at hnot hadmits hmember
      have hjoined := hmember (serverID_ne_empty hs hc hserver)
      exact absurd ⟨hjoined, hadmits.2.1, hadmits.2.2.1⟩ hnot
  · intro h
    obtain ⟨c, hc, hserver, hrow, hlength, m, ⟨hm, hlive⟩, hother⟩ := h
    refine ⟨m, ⟨channelID_ne_empty hs hc, hlength, c, hc, ?_, ?_, hm, hlive⟩, hother, ?_⟩
    · rw [hserver]
      intro h
      exact absurd rfl h
    · unfold Admits
      rw [hserver]
    · rw [channelID_of_getMessagesByIDs hm, mayRead_iff hc]
      unfold Entitled
      rw [hserver]
      simp [hrow]

theorem channelID_of_pinned {p : PinnedMessage} {info : PinInfo} (hp : p.channelID = channelID)
    (h : pinned s.archive p = some info) : info.message.channelID = channelID := by
  obtain ⟨m, hm, rfl⟩ := map_eq_some_iff.mp h
  obtain ⟨hget, -⟩ := filter_eq_some_iff.mp hm
  rw [← hp]
  exact (mem_of_getMessage hget).2.1

theorem channelID_of_pinPage {p : PinnedMessage} {before : Int} {limit n : Nat}
    (h : p ∈ (pinPage s.archive channelID before limit).take n) : p.channelID = channelID := by
  have hp := mem_of_mem_take (mem_of_mem_take h)
  rw [mem_insertionSort] at hp
  exact (of_decide_eq_true (mem_filter.mp hp).2).1

theorem exposes_getPinnedMessages (hs : WellFormed s.chat.db.tables) (clock : Int)
    (parseTime : String → Option Int) (req : GetPinnedMessagesRequest) :
    Exposes s userID (ReadCall.contents s (some userID) (.getPinnedMessages clock parseTime req)) ↔
      Leaks s userID (.getPinnedMessages clock parseTime req) := by
  unfold Exposes ReadCall.contents Leaks HoldsOthers
  simp only [mem_getPinnedMessages, mem_filterMap, map_eq_some_iff]
  constructor
  · intro h
    obtain ⟨m, ⟨-, c, ⟨hc, hbelongs⟩, henters, before, hbefore, p, hp, info, hinfo, rfl⟩, hother,
      hnot⟩ := h
    rw [channelID_of_pinned (channelID_of_pinPage hp) hinfo, mayRead_iff hc] at hnot
    obtain ⟨serverID, hunentitled⟩ := unentitled_iff.mpr ⟨hbelongs, hnot⟩
    exact ⟨c, serverID, hc, hunentitled, henters serverID hunentitled.1, before, hbefore,
      info.message, ⟨p, hp, info, hinfo, rfl⟩, hother⟩
  · intro h
    obtain ⟨c, serverID, hc, hunentitled, henters, before, hbefore, _, ⟨p, hp, info, hinfo, rfl⟩,
      hother⟩ := h
    obtain ⟨hbelongs, hnot⟩ := unentitled_iff.mp ⟨serverID, hunentitled⟩
    refine ⟨info.message, ⟨channelID_ne_empty hs hc, c, ⟨hc, hbelongs⟩, ?_, before, hbefore,
      p, hp, info, hinfo, rfl⟩, hother, ?_⟩
    · intro serverID' hserver
      rw [hunentitled.1] at hserver
      injection hserver with hserver
      rw [← hserver]
      exact henters
    · rw [channelID_of_pinned (channelID_of_pinPage hp) hinfo, mayRead_iff hc]
      exact hnot

theorem exposes_pinMessage (hs : WellFormed s.chat.db.tables) (clock : Int)
    (req : PinMessageRequest) :
    Exposes s userID (ReadCall.contents s (some userID) (.pinMessage clock req)) ↔
      Leaks s userID (.pinMessage clock req) := by
  unfold Exposes ReadCall.contents Leaks
  simp only [mem_pinMessage]
  constructor
  · intro h
    obtain ⟨m, ⟨hids, c, ⟨hc, hbelongs⟩, ⟨hm, hlive⟩, hrights⟩, hother, hnot⟩ := h
    rw [(mem_of_getMessage hm).2.1, mayRead_iff hc] at hnot
    obtain ⟨serverID, hunentitled⟩ := unentitled_iff.mpr ⟨hbelongs, hnot⟩
    have hmanage := hrights.resolve_left hother serverID hunentitled.1
    exact ⟨c, serverID, hc, hunentitled, hmanage, fun h => hids (Or.inr h), m, hm, hlive, hother⟩
  · intro h
    obtain ⟨c, serverID, hc, hunentitled, hmanage, hid, m, hm, hlive, hother⟩ := h
    obtain ⟨hbelongs, hnot⟩ := unentitled_iff.mp ⟨serverID, hunentitled⟩
    refine ⟨m, ⟨?_, c, ⟨hc, hbelongs⟩, ⟨hm, hlive⟩, Or.inr ?_⟩, hother, ?_⟩
    · exact not_or.mpr ⟨channelID_ne_empty hs hc, hid⟩
    · intro serverID' hserver
      rw [hunentitled.1] at hserver
      injection hserver with hserver
      rw [← hserver]
      exact hmanage
    · rw [(mem_of_getMessage hm).2.1, mayRead_iff hc]
      exact hnot

theorem exposes_reportMessage (nfc : String → String) (validUTF8 : List UInt8 → String)
    (newID : ID) (req : ReportMessageRequest) :
    Exposes s userID (ReadCall.contents s (some userID) (.reportMessage nfc validUTF8 newID req)) ↔
      Leaks s userID (.reportMessage nfc validUTF8 newID req) := by
  unfold Exposes ReadCall.contents Leaks
  simp only [mem_reportMessage]
  constructor
  · intro h
    obtain ⟨m, ⟨hid, hcategory, hreason, channelID, hfind, c, ⟨hc, hbelongs⟩, hm, hopen, haccepts⟩,
      hother, hnot⟩ := h
    rw [(mem_of_getMessage hm).2.1, mayRead_iff hc] at hnot
    obtain ⟨serverID, hunentitled⟩ := unentitled_iff.mpr ⟨hbelongs, hnot⟩
    exact ⟨channelID, c, serverID, hfind, hc, hunentitled, hid, hcategory, hreason, m, hm, hopen,
      haccepts, hother⟩
  · intro h
    obtain ⟨channelID, c, serverID, hfind, hc, hunentitled, hid, hcategory, hreason, m, hm, hopen,
      haccepts, hother⟩ := h
    obtain ⟨hbelongs, hnot⟩ := unentitled_iff.mp ⟨serverID, hunentitled⟩
    refine ⟨m, ⟨hid, hcategory, hreason, channelID, hfind, c, ⟨hc, hbelongs⟩, hm, hopen, haccepts⟩,
      hother, ?_⟩
    rw [(mem_of_getMessage hm).2.1, mayRead_iff hc]
    exact hnot

/-- Which requests expose, one case for each. -/
theorem exposes_iff (hs : WellFormed s.chat.db.tables) (call : ReadCall) :
    Exposes s userID (call.contents s (some userID)) ↔ Leaks s userID call := by
  cases call with
  | getMessages req => exact exposes_getMessages hs req
  | searchMessages req => exact exposes_searchMessages hs req
  | getReplies req => exact iff_of_false (exposes_getReplies req) id
  | getMessagesByIDs req => exact exposes_getMessagesByIDs hs req
  | getPinnedMessages clock parseTime req => exact exposes_getPinnedMessages hs clock parseTime req
  | pinMessage clock req => exact exposes_pinMessage hs clock req
  | reportMessage nfc validUTF8 newID req => exact exposes_reportMessage nfc validUTF8 newID req

theorem answered_unauthenticated {α : Type} {k : ID → Messaging α} {f : α → List Message} :
    answered (onChat (require fun _ => authenticate none) >>= k) f s = [] := by
  rw [eq_nil_iff_forall_not_mem]
  intro m hm
  obtain ⟨_, h, -⟩ := mem_answered_require.mp hm
  cases h

theorem contents_unauthenticated (call : ReadCall) : call.contents s none = [] := by
  unfold ReadCall.contents
  cases call with
  | getMessages req => unfold getMessages; exact answered_unauthenticated
  | searchMessages req => unfold searchMessages; exact answered_unauthenticated
  | getReplies req => unfold getReplies; exact answered_unauthenticated
  | getMessagesByIDs req => unfold getMessagesByIDs; exact answered_unauthenticated
  | getPinnedMessages clock parseTime req =>
    unfold getPinnedMessages; exact answered_unauthenticated
  | pinMessage clock req => unfold pinMessage; exact answered_unauthenticated
  | reportMessage nfc validUTF8 newID req =>
    unfold reportMessage; exact answered_unauthenticated

end Requests

/-! ## Section 4: Confinement -/

/-- The stage with a DM between the owner and the moderator. -/
def loungeTables : Tables :=
  { stageTables with
    channels := stageTables.channels ++ [{ id := "dm", serverID := none, name := "", type := 3 }]
    channelMembers := [{ channelID := "dm", userID := "owner" },
      { channelID := "dm", userID := "mod" }] }

def loungeState : MessagingState where
  chat := { db := ⟨loungeTables, by decide⟩, now := 50 }
  archive :=
    { messages := [
        { channelID := "dm", messageID := "secret", authorID := "owner", encryptedContent := [1] },
        { channelID := "hall", messageID := "notice", authorID := "owner",
          encryptedContent := [2] },
        { channelID := "hall", messageID := "answer", authorID := "guest",
          encryptedContent := [3] }]
      pins := [{ channelID := "hall", messageID := "notice", pinnedAt := 10 }] }

theorem loungeTables_wellFormed : WellFormed loungeTables := by
  refine ⟨⟨by decide, by decide⟩, ⟨by decide, by decide, by decide, by decide, by decide⟩⟩

/-- **Messages are read by their readers.** Whatever a request answers to a
    caller was written by the caller or may be read by it, exactly when the
    request is not one of those that leak. -/
theorem contents_confined_iff (s : MessagingState) (hs : WellFormed s.chat.db.tables)
    (caller : Option ID) (call : ReadCall) :
    (∀ m ∈ call.contents s caller, caller ≠ some m.authorID →
        ∃ userID ∈ caller, MayRead s.chat userID m.channelID) ↔
      ∀ userID ∈ caller, ¬ Leaks s userID call := by
  rcases caller with _ | userID
  · rw [contents_unauthenticated]
    simp
  · simp only [mem_some, forall_eq', ← exposes_iff hs call, exists_eq_left']
    unfold Exposes
    simp only [not_exists, not_and, not_not]
    refine forall_congr' fun m => forall_congr' fun _ => ?_
    rw [ne_eq, some.injEq, ← ne_eq, ne_comm]

/-- The owner reads the hall, where the guest has written. -/
theorem contents_confined_hall :
    (∃ m ∈ (ReadCall.getMessages { channelID := "hall" }).contents loungeState (some "owner"),
        m.authorID = "guest") ∧
      ∀ m ∈ (ReadCall.getMessages { channelID := "hall" }).contents loungeState (some "owner"),
        some "owner" ≠ some m.authorID →
        ∃ userID ∈ some "owner", MayRead loungeState.chat userID m.channelID := by
  refine ⟨by decide, (contents_confined_iff loungeState loungeTables_wellFormed (some "owner")
    (.getMessages { channelID := "hall" })).mpr ?_⟩
  intro userID _ hleaks
  obtain ⟨c, serverID, hc, ⟨-, htype, -⟩, -⟩ := hleaks
  -- the hall is a text channel
  have hhall : c = { id := "hall", serverID := some "srv", name := "hall" } := by
    have hlookup : lookup Channel.id "hall" loungeState.chat.db.tables.channels =
        some { id := "hall", serverID := some "srv", name := "hall" } := by decide
    exact some.inj (hc.symm.trans hlookup)
  rw [hhall] at htype
  exact absurd htype (by decide)

/-- The guest reads a DM of others by the id of a message, and a notice in the
    hall by its pin and by reporting it, although it lacks ReadMessageHistory
    there. -/
theorem lounge_exposes :
    WellFormed loungeState.chat.db.tables ∧
      ∀ call ∈ [ReadCall.getMessagesByIDs { channelID := "dm", messageIDs := ["secret"] },
          .getPinnedMessages 60 (fun _ => none) { channelID := "hall" },
          .reportMessage id (fun _ => "") "report" { messageID := "notice", category := .spam }],
        ¬ ∀ m ∈ call.contents loungeState (some "guest"), some "guest" ≠ some m.authorID →
          ∃ userID ∈ some "guest", MayRead loungeState.chat userID m.channelID := by
  have hdm : ¬ MayRead loungeState.chat "guest" "dm" := by
    rw [mayRead_iff (s := loungeState)
      (c := { id := "dm", serverID := none, name := "", type := 3 }) (by decide)]
    show ¬ isChannelMember loungeTables "dm" "guest" = true
    decide
  have hhall : ¬ MayRead loungeState.chat "guest" "hall" := by
    rw [mayRead_iff (s := loungeState)
      (c := { id := "hall", serverID := some "srv", name := "hall" }) (by decide)]
    intro h
    obtain ⟨-, -, perms, hperms, hread⟩ := h
    injection hperms with hperms
    rw [← hperms] at hread
    exact absurd hread (by decide)
  refine ⟨loungeTables_wellFormed, ?_⟩
  have hexposed : ∀ call : ReadCall, ∀ m ∈ call.contents loungeState (some "guest"),
      m.authorID = "owner" → ¬ MayRead loungeState.chat "guest" m.channelID →
      ¬ ∀ m ∈ call.contents loungeState (some "guest"), some "guest" ≠ some m.authorID →
        ∃ userID ∈ some "guest", MayRead loungeState.chat userID m.channelID := by
    intro call m hm hauthor hnot hall
    obtain ⟨userID, huser, hread⟩ := hall m hm (by rw [hauthor]; decide)
    rw [← mem_some.mp huser] at hread
    exact hnot hread
  intro call hcall
  simp only [mem_cons, not_mem_nil, or_false] at hcall
  rcases hcall with rfl | rfl | rfl
  · exact hexposed _ loungeState.archive.messages[0] (by decide) rfl hdm
  · exact hexposed _ loungeState.archive.messages[1] (by decide) rfl hhall
  · exact hexposed _ loungeState.archive.messages[1] (by decide) rfl hhall

end Meza.Chat
