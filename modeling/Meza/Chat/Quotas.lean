import Meza.Lib.Pledges
import Meza.Rpc
import Meza.Store.Schema

/-! # Quotas of channels and messages

    A group DM has at most 10 participants, a message at most 20 different
    emojis, a channel at most 15 webhooks and a server at most 50. Each limit is
    checked by one statement that counts and another, later one that inserts, so
    two calls can count the same and both insert. And the count is taken before
    anybody knows whether the row is new: at the limit a call is refused also when
    its row would add nothing.

    `channelMembers` holds the rows of group DMs only. -/

namespace Meza.Chat.Quotas
open List Table Run Option Pledges Except

open Store (ID ChannelMember)

/-! ## Section 1: Tables and counts -/

structure Channel where
  id : ID
  serverID : Option ID := none
  type : Nat := 1
  dmInitiatorID : Option ID := none
  deriving DecidableEq, Repr

structure Reaction where
  channelID : ID
  messageID : ID
  userID : ID
  emoji : String
  deriving DecidableEq, Repr

structure Webhook where
  id : ID
  channelID : ID
  serverID : ID
  deriving DecidableEq, Repr

structure Tables where
  channels : List Channel := []
  channelMembers : List ChannelMember := []
  reactions : List Reaction := []
  webhooks : List Webhook := []

def maxUniqueEmojisPerMessage : Nat := 20
def maxWebhooksPerChannel : Nat := 15
def maxWebhooksPerServer : Nat := 50

/-- `SELECT COUNT(*) FROM channel_members WHERE channel_id = $1` -/
def countChannelMembers (t : Tables) (channelID : ID) : Nat :=
  (t.channelMembers.filter (·.channelID = channelID)).length

/-- `SELECT COUNT(DISTINCT emoji) FROM message_reactions WHERE ...` -/
def countUniqueEmojis (t : Tables) (channelID messageID : ID) : Nat :=
  ((t.reactions.filter fun r => r.channelID = channelID ∧ r.messageID = messageID).map
    (·.emoji)).dedup.length

def countByChannel (t : Tables) (channelID : ID) : Nat :=
  (t.webhooks.filter (·.channelID = channelID)).length

def countByServer (t : Tables) (serverID : ID) : Nat :=
  (t.webhooks.filter (·.serverID = serverID)).length

/-- What is limited. -/
inductive Quota where
  | groupDM (channelID : ID)
  | emojis (channelID messageID : ID)
  | channelWebhooks (channelID : ID)
  | serverWebhooks (serverID : ID)
  deriving DecidableEq, Repr

namespace Quota

def limit : Quota → Nat
  | .groupDM _ => 10
  | .emojis _ _ => maxUniqueEmojisPerMessage
  | .channelWebhooks _ => maxWebhooksPerChannel
  | .serverWebhooks _ => maxWebhooksPerServer

def count (t : Tables) : Quota → Nat
  | .groupDM c => countChannelMembers t c
  | .emojis c m => countUniqueEmojis t c m
  | .channelWebhooks c => countByChannel t c
  | .serverWebhooks s => countByServer t s

/-- The answer at the limit. -/
def full : Quota → ConnectError
  | .groupDM _ => { code := .failedPrecondition,
                    message := "group DM is full (maximum 10 participants)" }
  | .emojis _ _ => { code := .resourceExhausted,
                     message := "reaction limit reached for this message" }
  | .channelWebhooks _ => { code := .resourceExhausted,
                            message := "maximum 15 webhooks per channel" }
  | .serverWebhooks _ => { code := .resourceExhausted,
                           message := "maximum 50 webhooks per server" }

end Quota

/-- No count is over its limit. -/
def WithinQuotas (t : Tables) : Prop := ∀ q : Quota, q.count t ≤ q.limit

/-! ## Section 2: Statements -/

/-- `SELECT ... FROM channels WHERE id = $1` -/
def getChannel (t : Tables) (channelID : ID) : Option Channel :=
  t.channels.find? (·.id = channelID)

def notFound : ConnectError := { code := .notFound, message := "channel not found" }

def internalError : ConnectError := { code := .internal, message := "internal error" }

/-- `INSERT INTO channels`; the id is unique. -/
def insertChannel (t : Tables) (ch : Channel) : Except ConnectError Tables :=
  if ch.id ∈ t.channels.map (·.id) then .error internalError
  else .ok { t with channels := t.channels ++ [ch] }

/-- `INSERT INTO channel_members ... ON CONFLICT DO NOTHING` -/
def addChannelMember (t : Tables) (m : ChannelMember) : Except ConnectError Tables :=
  if (getChannel t m.channelID).isNone then .error internalError
  else .ok { t with channelMembers := insertNew id m t.channelMembers }

/-- `INSERT INTO message_reactions ... ON CONFLICT DO NOTHING` -/
def addReaction (t : Tables) (r : Reaction) : Except ConnectError Tables :=
  if (getChannel t r.channelID).isNone then .error internalError
  else .ok { t with reactions := insertNew id r t.reactions }

/-- `INSERT INTO webhooks` -/
def insertWebhook (t : Tables) (w : Webhook) : Except ConnectError Tables :=
  if (getChannel t w.channelID).isNone ∨ w.id ∈ t.webhooks.map (·.id) then .error internalError
  else .ok { t with webhooks := t.webhooks ++ [w] }

/-- The row that the creator of a group DM wants to add. No quota counts the members of another
    channel. -/
def addGroupDMMember (t : Tables) (callerID channelID targetID : ID) :
    Except ConnectError ChannelMember :=
  match getChannel t channelID with
  | none => .error notFound
  | some ch => do
    rejectIf (ch.type ≠ 4) .failedPrecondition "cannot modify DM channel members"
    rejectIf (ch.dmInitiatorID ≠ some callerID) .permissionDenied
      "only the group DM creator can add members"
    pure { channelID := ch.id, userID := targetID }

/-- Webhooks are only allowed on text channels of servers. -/
def newWebhook (t : Tables) (channelID webhookID : ID) : Except ConnectError Webhook :=
  match getChannel t channelID with
  | none => .error notFound
  | some ch =>
    match ch.serverID, ch.type with
    | some serverID, 1 => .ok { id := webhookID, channelID := ch.id, serverID }
    | _, _ =>
      .error { code := .invalidArgument,
               message := "webhooks can only be created on server text channels" }

/-- The participants without the caller, empty ids and repetitions. -/
def distinctParticipants (userID : ID) (participantIDs : List ID) : List ID :=
  participantIDs.foldl (fun validIDs pid =>
      if pid = "" ∨ pid = userID ∨ pid ∈ validIDs then validIDs else validIDs ++ [pid]) []

/-- The transaction of `CreateGroupDMChannel`, and the checks of the request before it. -/
def createGroupDMChannel (t : Tables) (userID : ID) (participantIDs : List ID) (channelID : ID) :
    Except ConnectError Tables := do
  rejectIf (participantIDs.length < 2) .invalidArgument "at least 2 participants required"
  rejectIf (9 < participantIDs.length) .invalidArgument "maximum 9 other participants"
  let validIDs := distinctParticipants userID participantIDs
  rejectIf (validIDs.length < 2) .invalidArgument "at least 2 distinct participants required"
  let t ← insertChannel t { id := channelID, type := 4, dmInitiatorID := some userID }
  pure { t with
    channelMembers := t.channelMembers ++ (userID :: validIDs).map (.mk channelID) }

/-- The creator can remove others, and anyone else can leave. -/
def removeGroupDMMember (t : Tables) (callerID channelID targetID : ID) :
    Except ConnectError Tables :=
  match getChannel t channelID with
  | none => .error notFound
  | some ch => do
    rejectIf (ch.type ≠ 4) .failedPrecondition "cannot modify DM channel members"
    rejectIf (callerID = targetID ∧ ch.dmInitiatorID = some callerID) .failedPrecondition
      "group DM creator must transfer ownership before leaving"
    rejectIf (callerID ≠ targetID ∧ ch.dmInitiatorID ≠ some callerID) .permissionDenied
      "only the group DM creator can remove members"
    pure { t with
      channelMembers := deleteWhere (· = ⟨channelID, targetID⟩) t.channelMembers }

def removeReaction (t : Tables) (r : Reaction) : Tables :=
  { t with reactions := deleteWhere (· = r) t.reactions }

def removeAllMessageReactions (t : Tables) (channelID messageID : ID) : Tables :=
  let ofMessage : Reaction → Bool := fun r => r.channelID = channelID ∧ r.messageID = messageID
  { t with reactions := deleteWhere ofMessage t.reactions }

def deleteWebhook (t : Tables) (webhookID : ID) : Tables :=
  { t with webhooks := deleteWhere (·.id = webhookID) t.webhooks }

/-- The channel goes with its companion, which is a channel of a server as well, and their
    reactions and webhooks with them. -/
def deleteChannel (t : Tables) (channelID : ID) (companionID : Option ID) :
    Except ConnectError Tables :=
  match getChannel t channelID with
  | none => .error notFound
  | some ch => do
    rejectIf (ch.serverID = none) .failedPrecondition "cannot delete DM channels"
    let gone : ID → Bool := fun id => id = channelID ∨ some id = companionID
    pure { t with
      channels := deleteWhere (fun c => gone c.id ∧ c.serverID ≠ none) t.channels
      reactions := deleteWhere (fun r => gone r.channelID) t.reactions
      webhooks := deleteWhere (fun w => gone w.channelID) t.webhooks }

/-! ## Section 3: Calls and phases -/

/-- The ids that `models.NewID` will draw come with the call. -/
inductive Call where
  | addChannelMember (callerID channelID userID : ID)
  | createGroupDMChannel (userID : ID) (participantIDs : List ID) (channelID : ID)
  | addReaction (r : Reaction)
  | createWebhook (channelID webhookID : ID)
  | createChannel (serverID : ID) (type : Nat) (channelID : ID)
  | createDMChannel (initiatorID channelID : ID)
  | removeChannelMember (callerID channelID userID : ID)
  | removeReaction (r : Reaction)
  | removeAllMessageReactions (channelID messageID : ID)
  | deleteWebhook (webhookID : ID)
  | deleteChannel (channelID : ID) (companionID : Option ID)
  deriving DecidableEq, Repr

inductive Phase where
  | begun (call : Call)
  /-- `CountChannelMembers` -/
  | addingMember (m : ChannelMember)
  /-- The block and privacy checks; `AddChannelMember` -/
  | membersCounted (m : ChannelMember)
  /-- `CountUniqueEmojis` -/
  | reacting (r : Reaction)
  /-- `AddReaction` -/
  | emojisCounted (r : Reaction)
  /-- `CountByChannel` -/
  | hooking (w : Webhook)
  /-- `CountByServer` -/
  | channelCounted (w : Webhook)
  /-- `CreateWebhook` -/
  | serverCounted (w : Webhook)
  | returned (result : Except ConnectError Unit)
  deriving DecidableEq

/-- A call counts and is let pass while the count is below the limit. -/
def letPass (t : Tables) (q : Quota) (passed : Phase) : Phase :=
  if q.limit ≤ q.count t then .returned (.error q.full) else passed

/-- The last statement of a call. -/
def finish (t : Tables) (result : Except ConnectError Tables) : Tables × Phase :=
  match result with
  | .ok t' => (t', .returned (.ok ()))
  | .error e => (t, .returned (.error e))

/-- What a call does before it counts; a call that counts nothing does all it has to do. -/
def begin (t : Tables) : Call → Tables × Phase
  | .addChannelMember callerID channelID userID =>
    Pool.answer (fun e => .returned (.error e)) t (addGroupDMMember t callerID channelID userID)
      .addingMember
  | .createGroupDMChannel userID participantIDs channelID =>
    finish t (createGroupDMChannel t userID participantIDs channelID)
  | .addReaction r => (t, .reacting r)
  | .createWebhook channelID webhookID =>
    Pool.answer (fun e => .returned (.error e)) t (newWebhook t channelID webhookID) .hooking
  | .createChannel serverID type channelID =>
    finish t (insertChannel t { id := channelID, serverID := some serverID, type })
  | .createDMChannel initiatorID channelID =>
    finish t (insertChannel t { id := channelID, type := 3, dmInitiatorID := some initiatorID })
  | .removeChannelMember callerID channelID userID =>
    finish t (removeGroupDMMember t callerID channelID userID)
  | .removeReaction r => finish t (.ok (removeReaction t r))
  | .removeAllMessageReactions channelID messageID =>
    finish t (.ok (removeAllMessageReactions t channelID messageID))
  | .deleteWebhook webhookID => finish t (.ok (deleteWebhook t webhookID))
  | .deleteChannel channelID companionID => finish t (deleteChannel t channelID companionID)

def nextStatement (t : Tables) : Phase → Option (Tables × Phase)
  | .begun call => some (begin t call)
  | .addingMember m => some (t, letPass t (.groupDM m.channelID) (.membersCounted m))
  | .membersCounted m => some (finish t (addChannelMember t m))
  | .reacting r => some (t, letPass t (.emojis r.channelID r.messageID) (.emojisCounted r))
  | .emojisCounted r => some (finish t (addReaction t r))
  | .hooking w => some (t, letPass t (.channelWebhooks w.channelID) (.channelCounted w))
  | .channelCounted w => some (t, letPass t (.serverWebhooks w.serverID) (.serverCounted w))
  | .serverCounted w => some (finish t (insertWebhook t w))
  | .returned _ => none

/-- The outcome is the error of a query that fails, or of a check on users, permissions or
    messages that the call does not pass. -/
def next (t : Tables) (_ : List Phase) (p : Phase) (outcome : Option ConnectError) :
    Option (Tables × Phase) :=
  match p, outcome with
  | .returned _, _ => none
  | _, some e => some (t, .returned (.error e))
  | p, none => nextStatement t p

abbrev State : Type := Pool.State Tables Phase

abbrev Event : Type := Pool.Event Call (Option ConnectError)

/-- Any interleaving. -/
abbrev step : State → Event → State := Pool.step .begun next

/-- Nothing has been called yet. -/
def initial (t : Tables) : State := { shared := t, calls := [] }

/-! ## Section 4: What is claimed, and the condition -/

/-- The quota that the call counts next, and what it would add. -/
def Phase.counting : Phase → Option (Quota × ID)
  | .addingMember m => some (.groupDM m.channelID, m.userID)
  | .reacting r => some (.emojis r.channelID r.messageID, r.emoji)
  | .hooking w => some (.channelWebhooks w.channelID, w.id)
  | .channelCounted w => some (.serverWebhooks w.serverID, w.id)
  | _ => none

/-- The different things that a quota counts. -/
def items (t : Tables) : Quota → List ID
  | .groupDM c => (t.channelMembers.filter (·.channelID = c)).map (·.userID)
  | .emojis c m =>
    (t.reactions.filter fun r => r.channelID = c ∧ r.messageID = m).map (·.emoji)
  | .channelWebhooks c => (t.webhooks.filter (·.channelID = c)).map (·.id)
  | .serverWebhooks s => (t.webhooks.filter (·.serverID = s)).map (·.id)

/-- The call is refused for a quota that its row would not raise. -/
def WronglyRefused (s : State) (i : Nat) : Prop :=
  ∃ p q x, s.calls[i]? = some p ∧ p.counting = some (q, x) ∧ x ∈ items s.shared q ∧
    (step s (.advance i none)).calls[i]? = some (.returned (.error q.full))

/-- An event leaves the tables within the quotas and refuses no call without need. -/
structure Respects (s : State) (ev : Event) : Prop where
  quotas : WithinQuotas (step s ev).shared
  refusals : ∀ i, ev = .advance i none → ¬ WronglyRefused s i

/-- What a call has been let pass for and has not inserted yet. -/
def Phase.pledges (p : Phase) (q : Quota) : Option ID :=
  match p, q with
  | .membersCounted m, .groupDM c => if c = m.channelID then some m.userID else none
  | .emojisCounted r, .emojis c m =>
    if c = r.channelID ∧ m = r.messageID then some r.emoji else none
  | .channelCounted w, .channelWebhooks c | .serverCounted w, .channelWebhooks c =>
    if c = w.channelID then some w.id else none
  | .serverCounted w, .serverWebhooks s => if s = w.serverID then some w.id else none
  | _, _ => none

def books : Books Tables Phase Quota ID where
  items := items
  pledges := Phase.pledges
  limit := Quota.limit

/-- A call is let pass exactly if there is room for its row beside the rows that are there and
    those of the calls that have been let pass before. -/
def CountsPledges (t : Tables) (others : List Phase) (p : Phase) (outcome : Option ConnectError) :
    Prop :=
  outcome = none → ∀ qx ∈ p.counting, (qx.1.count t < qx.1.limit ↔ books.HasRoom t others qx.1 qx.2)

def PledgesCounted : State → Event → Prop := Pool.Allows (fun _ _ => True) CountsPledges

instance (t : Tables) (others : List Phase) (p : Phase) (outcome : Option ConnectError) :
    Decidable (CountsPledges t others p outcome) := inferInstanceAs (Decidable (_ → _))

instance (s : State) (ev : Event) : Decidable (PledgesCounted s ev) :=
  inferInstanceAs (Decidable (Pool.Allows (fun _ _ => True) CountsPledges s ev))

/-! ## Section 5: The tables -/

/-- A channel that belongs to no server. -/
def Serverless (t : Tables) (channelID : ID) : Prop :=
  ∃ ch ∈ t.channels, ch.id = channelID ∧ ch.serverID = none

/-- The primary keys; and group DMs belong to no server. -/
structure Sound (t : Tables) : Prop where
  members : UniqueOn id t.channelMembers
  webhooks : UniqueOn Webhook.id t.webhooks
  groups : ∀ m ∈ t.channelMembers, Serverless t m.channelID
  initiated : ∀ ch ∈ t.channels, ch.dmInitiatorID ≠ none → ch.serverID = none

variable {m : ChannelMember} {channelID userID x : ID} {others : List Phase} {p p' : Phase}
  {q : Quota} {s : State} {t t' : Tables}

/-- The different things that are counted are as many as the rows. -/
theorem Sound.nodup_items (h : Sound t) (q : Quota) (hq : ∀ c m, q ≠ .emojis c m) :
    (items t q).Nodup := by
  cases q with
  | groupDM c =>
    have hmembers : t.channelMembers.Nodup := by simpa [UniqueOn] using h.members
    refine List.Nodup.map_on ?_ (hmembers.filter _)
    intro a ha b hb hab
    have hca : a.channelID = c := of_decide_eq_true (List.mem_filter.mp ha).2
    have hcb : b.channelID = c := of_decide_eq_true (List.mem_filter.mp hb).2
    rcases a with ⟨ca, ua⟩
    rcases b with ⟨cb, ub⟩
    simp only at hca hcb hab
    rw [hca, hcb, hab]
  | emojis c m => exact absurd rfl (hq c m)
  | channelWebhooks | serverWebhooks => exact (List.filter_sublist.map _).nodup h.webhooks

theorem Sound.count_eq (h : Sound t) (q : Quota) : q.count t = (items t q).toFinset.card := by
  cases q with
  | emojis c m =>
    show countUniqueEmojis t c m = _
    rfl
  | groupDM c =>
    have hnodup := h.nodup_items (.groupDM c) (by simp)
    rw [toFinset_card_of_nodup hnodup]
    exact (length_map _).symm
  | channelWebhooks c =>
    have hnodup := h.nodup_items (.channelWebhooks c) (by simp)
    rw [toFinset_card_of_nodup hnodup]
    exact (length_map _).symm
  | serverWebhooks s =>
    have hnodup := h.nodup_items (.serverWebhooks s) (by simp)
    rw [toFinset_card_of_nodup hnodup]
    exact (length_map _).symm

theorem getChannel_eq_some {ch : Channel} (h : getChannel t channelID = some ch) :
    ch ∈ t.channels ∧ ch.id = channelID := by
  have hid : ch.id = channelID := by simpa using find?_some h
  exact ⟨mem_of_find?_eq_some h, hid⟩

/-! ## Section 6: What a step changes -/

/-- Rows go, but no channel without a server does. -/
structure Removes (t t' : Tables) : Prop where
  channels : t'.channels.Sublist t.channels
  kept : ∀ ch ∈ t.channels, ch.serverID = none → ch ∈ t'.channels
  members : t'.channelMembers.Sublist t.channelMembers
  reactions : t'.reactions.Sublist t.reactions
  webhooks : t'.webhooks.Sublist t.webhooks

/-- The group DM whose members the call is about to count or to add to. -/
def Phase.group : Phase → Option ID
  | .addingMember m | .membersCounted m => some m.channelID
  | _ => none

/-- A group DM as it is created. -/
def withGroup (t : Tables) (userID : ID) (validIDs : List ID) (channelID : ID) : Tables :=
  { t with
    channels := t.channels ++ [{ id := channelID, type := 4, dmInitiatorID := some userID }]
    channelMembers :=
      t.channelMembers ++ (userID :: validIDs).map (.mk channelID) }

inductive Change (t : Tables) (p : Phase) : Tables → Phase → Prop where
  | refuse (e : ConnectError) : Change t p t (.returned (.error e))
  /-- The call is going to count. -/
  | enter {p' : Phase} (new : ∀ q, p'.pledges q = none)
      (group : ∀ c ∈ p'.group, ∃ ch ∈ t.channels, ch.id = c ∧ ch.dmInitiatorID ≠ none) :
      Change t p t p'
  | pass {q : Quota} {x : ID} {p' : Phase} (counting : p.counting = some (q, x))
      (below : q.count t < q.limit) (pledged : p'.pledges q = some x)
      (others : ∀ q', q' ≠ q → p'.pledges q' = p.pledges q') (group : p'.group = p.group) :
      Change t p t p'
  | addMember {m : ChannelMember} (counted : p = .membersCounted m) :
      Change t p { t with channelMembers := insertNew id m t.channelMembers } (.returned (.ok ()))
  | addReaction {r : Reaction} (counted : p = .emojisCounted r) :
      Change t p { t with reactions := insertNew id r t.reactions } (.returned (.ok ()))
  | addWebhook {w : Webhook} (counted : p = .serverCounted w)
      (new : w.id ∉ t.webhooks.map (·.id)) :
      Change t p { t with webhooks := t.webhooks ++ [w] } (.returned (.ok ()))
  | createGroup {userID channelID : ID} {participantIDs : List ID}
      (few : participantIDs.length ≤ 9) (new : channelID ∉ t.channels.map (·.id)) :
      Change t p (withGroup t userID (distinctParticipants userID participantIDs) channelID)
        (.returned (.ok ()))
  | createChannel {ch : Channel} (serverless : ch.dmInitiatorID ≠ none → ch.serverID = none) :
      Change t p { t with channels := t.channels ++ [ch] } (.returned (.ok ()))
  | remove {t' : Tables} (removes : Removes t t') : Change t p t' (.returned (.ok ()))

theorem insertChannel_ok {ch : Channel} (h : insertChannel t ch = .ok t') :
    ch.id ∉ t.channels.map (·.id) ∧ t' = { t with channels := t.channels ++ [ch] } := by
  unfold insertChannel at h
  split at h
  · cases h
  · next hnew => exact ⟨hnew, (ok.inj h).symm⟩

variable {participantIDs : List ID}

theorem createGroupDMChannel_ok
    (h : createGroupDMChannel t userID participantIDs channelID = .ok t') :
    participantIDs.length ≤ 9 ∧ channelID ∉ t.channels.map (·.id) ∧
      t' = withGroup t userID (distinctParticipants userID participantIDs) channelID := by
  obtain ⟨-, -, h⟩ := bind_eq_ok.mp h
  obtain ⟨_, hfew, h⟩ := bind_eq_ok.mp h
  obtain ⟨-, -, h⟩ := bind_eq_ok.mp h
  obtain ⟨t₁, hinsert, h⟩ := bind_eq_ok.mp h
  obtain ⟨hnew, rfl⟩ := insertChannel_ok hinsert
  refine ⟨?_, hnew, (ok.inj h).symm⟩
  have hle := rejectIf_ok.mp hfew
  omega

theorem addGroupDMMember_ok {callerID targetID : ID}
    (h : addGroupDMMember t callerID channelID targetID = .ok m) :
    ∃ ch ∈ t.channels, ch.id = m.channelID ∧ ch.dmInitiatorID ≠ none := by
  unfold addGroupDMMember at h
  split at h
  · cases h
  · next ch hch =>
    obtain ⟨_, -, h⟩ := bind_eq_ok.mp h
    obtain ⟨_, hcreator, h⟩ := bind_eq_ok.mp h
    cases h
    have hinitiator : ch.dmInitiatorID = some callerID := not_not.mp (rejectIf_ok.mp hcreator)
    refine ⟨ch, (getChannel_eq_some hch).1, rfl, ?_⟩
    rw [hinitiator]
    exact some_ne_none _

theorem addChannelMember_ok (h : addChannelMember t m = .ok t') :
    t' = { t with channelMembers := insertNew id m t.channelMembers } := by
  unfold addChannelMember at h
  split at h
  · cases h
  · exact (ok.inj h).symm

theorem addReaction_ok {r : Reaction} (h : addReaction t r = .ok t') :
    t' = { t with reactions := insertNew id r t.reactions } := by
  unfold addReaction at h
  split at h
  · cases h
  · exact (ok.inj h).symm

theorem insertWebhook_ok {w : Webhook} (h : insertWebhook t w = .ok t') :
    w.id ∉ t.webhooks.map (·.id) ∧ t' = { t with webhooks := t.webhooks ++ [w] } := by
  unfold insertWebhook at h
  split at h
  · cases h
  · next hnew => exact ⟨fun hmem => hnew (.inr hmem), (ok.inj h).symm⟩

theorem Removes.refl (t : Tables) : Removes t t where
  channels := .refl _
  kept := fun _ hch _ => hch
  members := .refl _
  reactions := .refl _
  webhooks := .refl _

theorem removeGroupDMMember_ok {callerID targetID : ID}
    (h : removeGroupDMMember t callerID channelID targetID = .ok t') : Removes t t' := by
  unfold removeGroupDMMember at h
  split at h
  · cases h
  · obtain ⟨-, -, h⟩ := bind_eq_ok.mp h
    obtain ⟨-, -, h⟩ := bind_eq_ok.mp h
    obtain ⟨-, -, h⟩ := bind_eq_ok.mp h
    cases h
    exact { Removes.refl t with members := filter_sublist }

theorem deleteChannel_ok {companionID : Option ID}
    (h : deleteChannel t channelID companionID = .ok t') : Removes t t' := by
  unfold deleteChannel at h
  split at h
  · cases h
  · obtain ⟨-, -, h⟩ := bind_eq_ok.mp h
    cases h
    constructor
    · exact filter_sublist
    · intro ch hch hserverless
      refine mem_deleteWhere.mpr ⟨hch, ?_⟩
      simp [hserverless]
    · exact .refl _
    · exact filter_sublist
    · exact filter_sublist

theorem Change.finish {result : Except ConnectError Tables} (h : finish t result = (t', p'))
    (hok : ∀ t'', result = .ok t'' → Change t p t'' (.returned (.ok ()))) : Change t p t' p' := by
  unfold Quotas.finish at h
  split at h
  · cases h
    exact hok _ rfl
  · cases h
    exact .refuse _

theorem Change.letPass {passed : Phase} (counting : p.counting = some (q, x))
    (pledged : passed.pledges q = some x) (others : ∀ q', q' ≠ q → passed.pledges q' = p.pledges q')
    (group : passed.group = p.group) : Change t p t (letPass t q passed) := by
  unfold Quotas.letPass
  split
  · exact .refuse _
  · next hbelow => exact .pass counting (Nat.lt_of_not_le hbelow) pledged others group

theorem begin_change {call : Call} (h : begin t call = (t', p')) :
    Change t (.begun call) t' p' := by
  cases call with
  | addChannelMember callerID channelID userID =>
    obtain ⟨rfl, ⟨m, hm, rfl⟩ | ⟨e, rfl⟩⟩ := Pool.answer_cases h
    · obtain ⟨ch, hch, hid, hinitiator⟩ := addGroupDMMember_ok hm
      refine .enter (fun q => rfl) ?_
      intro c hc
      cases hc
      exact ⟨ch, hch, hid, hinitiator⟩
    · exact .refuse e
  | createGroupDMChannel userID participantIDs channelID =>
    refine .finish h ?_
    intro t'' hok
    obtain ⟨hfew, hnew, rfl⟩ := createGroupDMChannel_ok hok
    exact .createGroup hfew hnew
  | addReaction r =>
    cases h
    exact .enter (fun q => rfl) (by simp [Phase.group])
  | createWebhook channelID webhookID =>
    obtain ⟨rfl, ⟨w, -, rfl⟩ | ⟨e, rfl⟩⟩ := Pool.answer_cases h
    · exact .enter (fun q => rfl) (by simp [Phase.group])
    · exact .refuse e
  | createChannel serverID type channelID =>
    refine .finish h ?_
    intro t'' hok
    obtain ⟨-, rfl⟩ := insertChannel_ok hok
    exact .createChannel (fun hinitiator => absurd rfl hinitiator)
  | createDMChannel initiatorID channelID =>
    refine .finish h ?_
    intro t'' hok
    obtain ⟨-, rfl⟩ := insertChannel_ok hok
    exact .createChannel (fun _ => rfl)
  | removeChannelMember callerID channelID userID =>
    exact .finish h fun t'' hok => .remove (removeGroupDMMember_ok hok)
  | removeReaction | removeAllMessageReactions =>
    cases h
    exact .remove { Removes.refl t with reactions := filter_sublist }
  | deleteWebhook webhookID =>
    cases h
    exact .remove { Removes.refl t with webhooks := filter_sublist }
  | deleteChannel channelID companionID =>
    exact .finish h fun t'' hok => .remove (deleteChannel_ok hok)

theorem next_change {outcome : Option ConnectError} (h : next t others p outcome = some (t', p')) :
    Change t p t' p' := by
  rcases outcome with _ | e
  · cases p with
    | returned result => cases h
    | begun call => exact begin_change (some.inj h)
    -- a call that is let pass pledges to the quota it has counted, and to no other
    | addingMember m =>
      cases h
      refine .letPass rfl (if_pos rfl) ?_ rfl
      rintro (c | ⟨c, mid⟩ | c | sid) hne
      · exact if_neg fun heq => hne (congrArg Quota.groupDM heq)
      · rfl
      · rfl
      · rfl
    | reacting r =>
      cases h
      refine .letPass rfl (if_pos ⟨rfl, rfl⟩) ?_ rfl
      rintro (c | ⟨c, mid⟩ | c | sid) hne
      · rfl
      · refine if_neg ?_
        rintro ⟨rfl, rfl⟩
        exact hne rfl
      · rfl
      · rfl
    | hooking w =>
      cases h
      refine .letPass rfl (if_pos rfl) ?_ rfl
      rintro (c | ⟨c, mid⟩ | c | sid) hne
      · rfl
      · rfl
      · exact if_neg fun heq => hne (congrArg Quota.channelWebhooks heq)
      · rfl
    | channelCounted w =>
      cases h
      refine .letPass rfl (if_pos rfl) ?_ rfl
      rintro (c | ⟨c, mid⟩ | c | sid) hne
      · rfl
      · rfl
      · rfl
      · exact if_neg fun heq => hne (congrArg Quota.serverWebhooks heq)
    | membersCounted m =>
      refine .finish (some.inj h) ?_
      intro t'' hok
      obtain rfl := addChannelMember_ok hok
      exact .addMember rfl
    | emojisCounted r =>
      refine .finish (some.inj h) ?_
      intro t'' hok
      obtain rfl := addReaction_ok hok
      exact .addReaction rfl
    | serverCounted w =>
      refine .finish (some.inj h) ?_
      intro t'' hok
      obtain ⟨hnew, rfl⟩ := insertWebhook_ok hok
      exact .addWebhook rfl hnew
  · cases p with
    | returned result => cases h
    | _ =>
      cases h
      exact .refuse e

/-! ## Section 7: What every run keeps -/

theorem Serverless.step (h : Change t p t' p') {c : ID} (hc : Serverless t c) :
    Serverless t' c := by
  obtain ⟨ch, hch, hid, hserver⟩ := hc
  cases h with
  | refuse e | enter new group | pass counting below pledged others group
  | addMember counted | addReaction counted | addWebhook counted new =>
    exact ⟨ch, hch, hid, hserver⟩
  | createGroup few new | createChannel serverless =>
    exact ⟨ch, mem_append_left _ hch, hid, hserver⟩
  | remove removes => exact ⟨ch, removes.kept ch hch hserver, hid, hserver⟩

theorem distinctParticipants_spec (userID : ID) (participantIDs : List ID) :
    (distinctParticipants userID participantIDs).Nodup ∧
      userID ∉ distinctParticipants userID participantIDs ∧
      (distinctParticipants userID participantIDs).length ≤ participantIDs.length := by
  unfold distinctParticipants
  induction participantIDs using reverseRecOn with
  | nil => simp
  | append_singleton pids pid ih =>
    obtain ⟨hnodup, hcaller, hlength⟩ := ih
    rw [foldl_append, length_append, length_singleton]
    simp only [foldl_cons, foldl_nil]
    split
    · exact ⟨hnodup, hcaller, by omega⟩
    · next hnew =>
      simp only [not_or] at hnew
      obtain ⟨-, hother, hfresh⟩ := hnew
      refine ⟨?_, ?_, ?_⟩
      · rw [← concat_eq_append]
        exact hnodup.concat hfresh
      · intro hmem
        rcases mem_append.mp hmem with hmem | hmem
        · exact hcaller hmem
        · exact hother (mem_singleton.mp hmem).symm
      · rw [length_append, length_singleton]
        omega

/-- A new group DM has at most 10 participants, the caller among them. -/
theorem length_group_le (userID : ID) (h : participantIDs.length ≤ 9) :
    (userID :: distinctParticipants userID participantIDs).length ≤ 10 := by
  have hle := (distinctParticipants_spec userID participantIDs).2.2
  rw [length_cons]
  omega

theorem Sound.step (h : Sound t) (hcounted : ∀ c ∈ p.group, Serverless t c)
    (hchange : Change t p t' p') : Sound t' := by
  have hgroups : ∀ m ∈ t.channelMembers, Serverless t' m.channelID :=
    fun m hm => (h.groups m hm).step hchange
  cases hchange with
  | refuse e | enter new group | pass counting below pledged others group => exact h
  | addMember counted =>
    subst counted
    constructor
    · exact unique_insertNew h.members _
    · exact h.webhooks
    · intro m hm
      rcases mem_insertNew.mp hm with hm | ⟨rfl, -⟩
      · exact h.groups m hm
      · exact hcounted _ rfl
    · exact h.initiated
  | addReaction counted => exact ⟨h.members, h.webhooks, h.groups, h.initiated⟩
  | @addWebhook w counted new =>
    refine ⟨h.members, unique_snoc h.webhooks ?_, h.groups, h.initiated⟩
    intro w' hw' heq
    exact new (heq ▸ mem_map_of_mem hw')
  | @createGroup userID channelID participantIDs few new =>
    obtain ⟨hnodup, hcaller, -⟩ := distinctParticipants_spec userID participantIDs
    constructor
    · -- no row of an existing group has the id of the new one
      show UniqueOn id (t.channelMembers ++ _)
      unfold UniqueOn
      rw [List.map_id, nodup_append]
      refine ⟨by simpa [UniqueOn] using h.members, ?_, ?_⟩
      · have hids : (userID :: distinctParticipants userID participantIDs).Nodup :=
          List.nodup_cons.mpr ⟨hcaller, hnodup⟩
        exact hids.map fun a b hab => congrArg ChannelMember.userID hab
      · intro m hm m' hm' heq
        obtain ⟨u, -, rfl⟩ := List.mem_map.mp hm'
        obtain ⟨ch, hch, hid, -⟩ := h.groups m hm
        refine new (List.mem_map.mpr ⟨ch, hch, ?_⟩)
        rw [hid, heq]
    · exact h.webhooks
    · intro m hm
      rcases List.mem_append.mp hm with hm | hm
      · exact hgroups m hm
      · obtain ⟨u, -, rfl⟩ := List.mem_map.mp hm
        exact ⟨_, mem_append_right _ mem_cons_self, rfl, rfl⟩
    · intro ch hch hinitiator
      rcases List.mem_append.mp hch with hch | hch
      · exact h.initiated ch hch hinitiator
      · rw [List.mem_singleton.mp hch]
  | createChannel serverless =>
    refine ⟨h.members, h.webhooks, hgroups, ?_⟩
    intro ch hch hinitiator
    rcases List.mem_append.mp hch with hch | hch
    · exact h.initiated ch hch hinitiator
    · rw [List.mem_singleton.mp hch] at hinitiator ⊢
      exact serverless hinitiator
  | remove removes =>
    constructor
    · exact (removes.members.map _).nodup h.members
    · exact (removes.webhooks.map _).nodup h.webhooks
    · exact fun m hm => hgroups m (removes.members.subset hm)
    · exact fun ch hch => h.initiated ch (removes.channels.subset hch)

theorem group_step (h : Sound t) (hcounted : ∀ c ∈ p.group, Serverless t c)
    (hchange : Change t p t' p') : ∀ c ∈ p'.group, Serverless t' c := by
  intro c hc
  cases hchange with
  | refuse e | addMember counted | addReaction counted | addWebhook counted new
  | createGroup few new | createChannel serverless | remove removes => cases hc
  | enter new group =>
    obtain ⟨ch, hch, hid, hinitiator⟩ := group c hc
    exact ⟨ch, hch, hid, h.initiated ch hch hinitiator⟩
  | pass counting below pledged others group =>
    rw [group] at hc
    exact hcounted c hc

/-! ## Section 8: Counting pledges -/

theorem pledges_groupDM {c : ID} (h : p.pledges (.groupDM c) = some x) : p.group = some c := by
  cases p with
  | membersCounted m =>
    have hif : (if c = m.channelID then some m.userID else none) = some x := h
    split at hif
    · next heq => exact congrArg some heq.symm
    · cases hif
  | _ => cases h

theorem items_subset (h : Removes t t') (q : Quota) : items t' q ⊆ items t q := by
  cases q with
  | groupDM c => exact ((h.members.filter _).map _).subset
  | emojis c m => exact ((h.reactions.filter _).map _).subset
  | channelWebhooks | serverWebhooks => exact ((h.webhooks.filter _).map _).subset

theorem counted_of_row {ρ : Type*} {rows rows' : List ρ} {a : ρ}
    (hrows : ∀ r ∈ rows', r ∈ rows ∨ r = a) {p : ρ → Bool} {f : ρ → ID}
    (h : x ∈ (rows'.filter p).map f) : x ∈ (rows.filter p).map f ∨ (p a = true ∧ f a = x) := by
  obtain ⟨r, hr, rfl⟩ := List.mem_map.mp h
  obtain ⟨hr, hp⟩ := mem_filter.mp hr
  rcases hrows r hr with hold | rfl
  · exact .inl (mem_map_of_mem (mem_filter.mpr ⟨hold, hp⟩))
  · exact .inr ⟨hp, rfl⟩

theorem row_of_insertNew {ρ : Type*} [DecidableEq ρ] {a : ρ} {rows : List ρ} :
    ∀ r ∈ insertNew id a rows, r ∈ rows ∨ r = a := by
  intro r hr
  rcases mem_insertNew.mp hr with hr | ⟨rfl, -⟩
  · exact Or.inl hr
  · exact Or.inr rfl

theorem items_addMember
    (h : x ∈ items { t with channelMembers := insertNew id m t.channelMembers } q) :
    x ∈ items t q ∨ (Phase.membersCounted m).pledges q = some x := by
  cases q with
  | groupDM c =>
    rcases counted_of_row row_of_insertNew h with hold | ⟨hc, rfl⟩
    · exact .inl hold
    · exact .inr (if_pos (of_decide_eq_true hc).symm)
  | _ => exact .inl h

theorem items_addReaction {r : Reaction}
    (h : x ∈ items { t with reactions := insertNew id r t.reactions } q) :
    x ∈ items t q ∨ (Phase.emojisCounted r).pledges q = some x := by
  cases q with
  | emojis c m =>
    rcases counted_of_row row_of_insertNew h with hold | ⟨hc, rfl⟩
    · exact .inl hold
    · obtain ⟨hchannel, hmessage⟩ := of_decide_eq_true hc
      exact .inr (if_pos ⟨hchannel.symm, hmessage.symm⟩)
  | _ => exact .inl h

theorem items_addWebhook {w : Webhook} (h : x ∈ items { t with webhooks := t.webhooks ++ [w] } q) :
    x ∈ items t q ∨ (Phase.serverCounted w).pledges q = some x := by
  have hrows : ∀ w' ∈ t.webhooks ++ [w], w' ∈ t.webhooks ∨ w' = w := by
    intro w' hw'
    rcases List.mem_append.mp hw' with hold | hnew
    · exact .inl hold
    · exact .inr (mem_singleton.mp hnew)
  cases q with
  | channelWebhooks c | serverWebhooks c =>
    rcases counted_of_row hrows h with hold | ⟨hc, rfl⟩
    · exact .inl hold
    · exact .inr (if_pos (of_decide_eq_true hc).symm)
  | _ => exact .inl h

theorem items_withGroup (h : Sound t) {validIDs : List ID}
    (hnew : channelID ∉ t.channels.map (·.id))
    (hx : x ∈ items (withGroup t userID validIDs channelID) (.groupDM channelID)) :
    x ∈ userID :: validIDs := by
  obtain ⟨m, hm, rfl⟩ := List.mem_map.mp hx
  obtain ⟨hm, hc⟩ := List.mem_filter.mp hm
  rcases List.mem_append.mp hm with hm | hm
  · obtain ⟨ch, hch, hid, -⟩ := h.groups m hm
    refine absurd (List.mem_map.mpr ⟨ch, hch, ?_⟩) hnew
    rw [hid, of_decide_eq_true hc]
  · obtain ⟨u, hu, rfl⟩ := List.mem_map.mp hm
    exact hu

theorem items_withGroup_of_ne {validIDs : List ID} (hne : q ≠ .groupDM channelID)
    (hx : x ∈ items (withGroup t userID validIDs channelID) q) : x ∈ items t q := by
  cases q with
  | groupDM c =>
    obtain ⟨m, hm, rfl⟩ := List.mem_map.mp hx
    obtain ⟨hm, hc⟩ := mem_filter.mp hm
    rcases mem_append.mp hm with hm | hm
    · exact mem_map_of_mem (mem_filter.mpr ⟨hm, hc⟩)
    · obtain ⟨u, -, rfl⟩ := mem_map.mp hm
      exact absurd (congrArg Quota.groupDM (of_decide_eq_true hc).symm) hne
  | _ => exact hx

/-- The quotas, with all that has been pledged, after a step that counts the pledges. -/
theorem kept_step (hsound : Sound t) (hgroups : ∀ p ∈ others, ∀ c ∈ p.group, Serverless t c)
    (h : Kept books { shared := t, calls := p :: others }) (hcount : ∀ qx ∈ p.counting,
      (qx.1.count t < qx.1.limit ↔ books.HasRoom t others qx.1 qx.2)) (hchange : Change t p t' p') :
    Kept books { shared := t', calls := p' :: others } := by
  refine h.next ?_
  intro q
  cases hchange with
  | refuse e | createChannel serverless =>
    left
    rintro x (hx | hx)
    · exact Or.inl hx
    · cases hx
  | enter new group =>
    left
    rintro x (hx | hx)
    · exact Or.inl hx
    · have hnone : p'.pledges q = some x := hx
      rw [new q] at hnone
      cases hnone
  | @pass q' y _ counting below pledged unchanged group =>
    by_cases hq : q = q'
    · right
      subst hq
      have hroom := (hcount _ counting).mp below
      exact hroom.card_due pledged
    · left
      rintro x (hx | hx)
      · exact Or.inl hx
      · right
        have hsame : p'.pledges q = p.pledges q := unchanged q hq
        exact hsame.symm.trans hx
  | addMember counted =>
    left
    subst counted
    rintro x (hx | hx)
    · exact items_addMember hx
    · cases hx
  | addReaction counted =>
    left
    subst counted
    rintro x (hx | hx)
    · exact items_addReaction hx
    · cases hx
  | addWebhook counted new =>
    left
    subst counted
    rintro x (hx | hx)
    · exact items_addWebhook hx
    · cases hx
  | @createGroup userID channelID participantIDs few new =>
    by_cases hq : q = .groupDM channelID
    · right
      subst hq
      -- nobody has counted the participants of a channel that was not there
      have hsub : books.due (withGroup t userID (distinctParticipants userID participantIDs)
          channelID) (.returned (.ok ()) :: others) (.groupDM channelID) ⊆
          (userID :: distinctParticipants userID participantIDs).toFinset := by
        intro x hx
        rw [List.mem_toFinset]
        rcases mem_due.mp hx with hx | ⟨r, hr, hpledge⟩
        · exact items_withGroup hsound new hx
        · rcases List.mem_cons.mp hr with rfl | hr
          · cases hpledge
          · obtain ⟨ch, hch, hid, -⟩ := hgroups r hr channelID (pledges_groupDM hpledge)
            exact absurd (List.mem_map.mpr ⟨ch, hch, hid⟩) new
      have hcard := Finset.card_le_card hsub
      have hlength := toFinset_card_le (userID :: distinctParticipants userID participantIDs)
      have hten := length_group_le userID few
      show _ ≤ 10
      omega
    · left
      rintro x (hx | hx)
      · exact Or.inl (items_withGroup_of_ne hq hx)
      · cases hx
  | remove removes =>
    left
    rintro x (hx | hx)
    · exact Or.inl (items_subset removes q hx)
    · cases hx

/-- Every quota is kept, also with all that has been pledged. -/
def Counted (s : State) : Prop :=
  Pool.Inv Sound (fun t p => ∀ c ∈ p.group, Serverless t c) (fun _ _ _ => True) s ∧ Kept books s

theorem Counted.init (hsound : Sound t) (h : WithinQuotas t) : Counted (initial t) := by
  refine ⟨Pool.Inv.init hsound, Kept.init ?_⟩
  intro q
  have hq := h q
  rw [hsound.count_eq] at hq
  exact hq

theorem Counted.withinQuotas (h : Counted s) : WithinQuotas s.shared := by
  intro q
  rw [h.1.shared.count_eq]
  exact h.2.items_le q

theorem Counted.perm : Pool.OrderFree Counted := by
  intro t l l' hperm h
  exact ⟨.perm (fun _ _ _ _ => trivial) t l l' hperm h.1, .perm t l l' hperm h.2⟩

theorem Counted.exec {evs : List Event} (h : Counted s)
    (hrun : Guarded step PledgesCounted s evs) : Counted (exec step s evs) := by
  refine Pool.keeps_exec Counted.perm ?_ ?_ h hrun
  · intro t calls call hcounted _
    refine ⟨hcounted.1.cons (fun c hc => ?_) (fun _ _ => trivial), hcounted.2.start fun q => rfl⟩
    cases hc
  · intro t p others outcome t' p' hcounted hcount hnext
    obtain ⟨hinv, hkept⟩ := hcounted
    have hchange := next_change hnext
    have hgroup : ∀ c ∈ p.group, Serverless t c := hinv.each p mem_cons_self
    have hothers : ∀ r ∈ others, ∀ c ∈ r.group, Serverless t c :=
      fun r hr => hinv.each r (mem_cons_of_mem _ hr)
    refine ⟨hinv.replace (hinv.shared.step hgroup hchange)
      (group_step hinv.shared hgroup hchange) ?_ (fun _ _ _ => trivial), ?_⟩
    · exact fun r hr _ _ => ⟨fun c hc => (hothers r hr c hc).step hchange, trivial⟩
    · rcases outcome with _ | e
      · exact kept_step hinv.shared hothers hkept (hcount rfl) hchange
      · -- the call fails, and what it has pledged is not due any more
        have hfailed : t' = t ∧ p' = .returned (.error e) := by
          cases p with
          | returned result => cases hnext
          | _ =>
            cases hnext
            exact ⟨rfl, rfl⟩
        obtain ⟨rfl, rfl⟩ := hfailed
        refine hkept.next fun q => Or.inl ?_
        rintro x (hx | hx)
        · exact Or.inl hx
        · cases hx

/-- A call that is refused at a count has found the quota full. -/
theorem full_of_refused {e : ConnectError} (hcounting : p.counting = some (q, x))
    (h : next t others p none = some (t', .returned (.error e))) : q.limit ≤ q.count t := by
  have hpass : ∃ passed, letPass t q passed = .returned (.error e) ∧
      passed ≠ .returned (.error e) := by
    cases p with
    | addingMember m =>
      cases hcounting
      exact ⟨.membersCounted m, (Prod.mk.inj (some.inj h)).2, by simp⟩
    | reacting r =>
      cases hcounting
      exact ⟨.emojisCounted r, (Prod.mk.inj (some.inj h)).2, by simp⟩
    | hooking w =>
      cases hcounting
      exact ⟨.channelCounted w, (Prod.mk.inj (some.inj h)).2, by simp⟩
    | channelCounted w =>
      cases hcounting
      exact ⟨.serverCounted w, (Prod.mk.inj (some.inj h)).2, by simp⟩
    | _ => cases hcounting
  obtain ⟨passed, hletPass, hne⟩ := hpass
  unfold letPass at hletPass
  split at hletPass
  · next hfull => exact hfull
  · exact absurd hletPass hne

/-- Where pledges are counted, there is room for what is there already. -/
theorem Counted.not_wronglyRefused (h : Counted s) {i : Nat}
    (hcount : PledgesCounted s (.advance i none)) : ¬ WronglyRefused s i := by
  rintro ⟨p, q, x, hp, hcounting, hx, hrefused⟩
  have hfirst := Counted.perm _ _ _ (Pool.perm_cons_eraseIdx hp) h
  have hroom := hfirst.2.hasRoom_of_mem hx
  have hbelow := (hcount p hp rfl (q, x) hcounting).mpr hroom
  rcases Pool.step_call hp hrefused with heq | ⟨outcome, hev, hnext⟩
  · rw [← heq] at hcounting
    cases hcounting
  · cases hev
    have hfull := full_of_refused hcounting hnext
    exact absurd hbelow (by simpa using hfull)

/-- In every run in which the counts include the pledges, the quotas are kept and no call is
    refused without need. -/
theorem respects_of_pledgesCounted {t : Tables} {evs : List Event} (hsound : Sound t)
    (hwithin : WithinQuotas t) (hrun : Guarded step PledgesCounted (initial t) evs) :
    ∀ pre ev post, evs = pre ++ ev :: post → Respects (exec step (initial t) pre) ev := by
  rintro pre ev post rfl
  have hinit := Counted.init hsound hwithin
  have hcounted := hinit.exec hrun.left
  have hmeets : PledgesCounted (exec step (initial t) pre) ev := hrun.meets
  constructor
  · have hone : Guarded step PledgesCounted (exec step (initial t) pre) [ev] :=
      ⟨hmeets, trivial⟩
    exact (hcounted.exec hone).withinQuotas
  · rintro i rfl
    exact hcounted.not_wronglyRefused hmeets

/-- Three friends, a fourth who is added twice, and two who like the same message. -/
def picnic : List Event :=
  [.start (.createGroupDMChannel "ann" ["bob", "cid", "bob"] "dm"), .advance 0 none,
   .start (.addChannelMember "ann" "dm" "dora"), .advance 1 none, .advance 1 none,
   .start (.addReaction ⟨"dm", "m", "bob", "+1"⟩), .advance 2 none, .advance 2 none,
   .advance 1 none,
   .start (.addReaction ⟨"dm", "m", "ann", "+1"⟩), .advance 3 none, .advance 3 none,
   .advance 2 none, .advance 3 none,
   .start (.addChannelMember "ann" "dm" "dora"), .advance 4 none]

theorem respects_of_pledgesCounted_picnic :
    Respects (exec step (initial {}) picnic) (.advance 4 none) := by
  have hsound : Sound {} := by
    constructor
    · exact nodup_nil
    · exact nodup_nil
    · simp
    · simp
  have hwithin : WithinQuotas {} := by
    intro q
    cases q with
    | groupDM | emojis | channelWebhooks | serverWebhooks => exact Nat.zero_le _
  have hrun : Guarded step PledgesCounted (initial {}) (picnic ++ [.advance 4 none]) := by
    decide
  exact respects_of_pledgesCounted hsound hwithin hrun picnic (.advance 4 none) [] rfl

/-- Ten can take part. Two are added at the same time where there are nine, and then one who
    is there already is to be added again. -/
def crowd : List Event :=
  [.start (.createGroupDMChannel "ann" ["b", "c", "d", "e", "f", "g", "h", "i"] "dm"),
   .advance 0 none,
   .start (.addChannelMember "ann" "dm" "j"), .advance 1 none, .advance 1 none,
   .start (.addChannelMember "ann" "dm" "k"), .advance 2 none, .advance 2 none,
   .advance 1 none, .advance 2 none,
   .start (.addChannelMember "ann" "dm" "b"), .advance 3 none]

/-- The group DM has eleven participants, and adding one of them again is refused. -/
theorem crowd_exceeds : ¬ WithinQuotas (exec step (initial {}) crowd).shared ∧
    WronglyRefused (exec step (initial {}) crowd) 3 := by
  constructor
  · intro h
    have hdm := h (.groupDM "dm")
    revert hdm
    decide
  · exact ⟨.addingMember ⟨"dm", "b"⟩, .groupDM "dm", "b", by decide, by decide, by decide,
      by decide⟩

end Meza.Chat.Quotas
