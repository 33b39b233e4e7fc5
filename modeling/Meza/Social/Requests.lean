import Meza.Chat.Sending
import Meza.Social.Service

/-! # Direct messages and message requests

    `CreateOrGetDMChannel` of `service_dm.go`, the three answers to a message
    request of `service_requests.go`, and `SendMessage` and `EditMessage` on a DM
    channel, as requests that are handled one after the other together with those
    about friends and blocks.

    A handler returns what it publishes for the members of the channel. The
    events that announce requests and their answers carry no messages and are
    left out. What checks say that look at other tables (attachments, channel
    keys) is an argument of the request. -/

namespace Meza.Social
open ChatStore Table Action BlockStore

open Store (ID StoreError Message)
open Chat (internalError authenticate orElse SendMessageRequest EditMessageRequest Mentions
  checkContent checkReply checkEditable sanitizeMentions)

/-! ## Section 1: State and steps -/

/-- A `MESSAGE_CREATE` or `MESSAGE_UPDATE` event on the delivery subject of a channel. -/
structure Delivery where
  channelID : ID
  messageID : ID
  authorID : ID
  encryptedContent : List UInt8
  deriving DecidableEq, Repr

def Delivery.of (m : Message) : Delivery :=
  { channelID := m.channelID, messageID := m.messageID, authorID := m.authorID,
    encryptedContent := m.encryptedContent }

structure World where
  db : DB
  messages : List Message := []

abbrev Messaging : Type → Type := EStateM ConnectError World

/-- A handler that has nothing to do with messages. -/
def onDB {α : Type} (x : Handler α) : Messaging α := fun w =>
  match x w.db with
  | .ok a db => .ok a { w with db }
  | .error e db => .error e { w with db }

def setMessages (f : List Message → List Message) : Messaging Unit :=
  Action.modify fun w => { w with messages := f w.messages }

/-- A transaction without a result. -/
def run (f : DB → Except StoreError DB) : Handler Unit := transact fun db => (f db).map ((), ·)

/-! ## Section 2: Opening a DM -/

def unableToMessage : ConnectError :=
  { code := .permissionDenied, message := "Unable to message this user" }

/-- What a new DM starts with. -/
def newDMStatus (t : Tables) (userID : ID) (recipient : User) : Except ConnectError DMStatus :=
  let areFriends := FriendStore.areFriends t userID recipient.id
  let sharesServer := shareAnyServer t userID recipient.id
  match recipient.dmPrivacy with
  | .nobody => .error unableToMessage
  | .friends => .ok (if areFriends then .active else .pending)
  | .mutualServers => if areFriends ∨ sharesServer then .ok .active else .error unableToMessage
  | .messageRequests => .ok (if areFriends ∨ sharesServer then .active else .pending)
  | .anyone => .ok .active

/-- Finds the DM of the pair or creates it. -/
def ChatStore.createDMChannel (db : DB) (newID userID₁ userID₂ : ID) (dmStatus : DMStatus)
    (dmInitiatorID : ID) : Except StoreError (Bool × DB) :=
  match getDMChannelByPairKey db.tables userID₁ userID₂ with
  | some _ => .ok (false, db)
  | none =>
    let ch : Channel :=
      { id := newID, dmPairKey := dmPairKey userID₁ userID₂, dmStatus, dmInitiatorID }
    (commit (insertDMChannel db.tables ch userID₁ userID₂)).map (true, ·)

/-- `dmCount` is what Redis has counted in this minute. Answers whether the DM is new. -/
def createOrGetDMChannel (dmCount : Nat) (newID : ID) (caller : Option ID) (recipientID : ID) :
    Handler Bool := do
  let userID ← require fun _ => authenticate caller
  require fun _ => rejectIf (recipientID = "") .invalidArgument "recipient_id is required"
  require fun _ => rejectIf (recipientID = systemUserID) .invalidArgument
    "cannot create DM with system user"
  require fun _ => rejectIf (20 < dmCount) .resourceExhausted "rate limit exceeded, try again later"
  let user ← require fun t => orElse internalError (AuthStore.getUserByID t userID)
  let recipient ← require fun t =>
    if userID = recipientID then .ok user
    else orElse { code := .notFound, message := "recipient not found" }
      (AuthStore.getUserByID t recipientID)
  require fun t => rejectIf (userID ≠ recipientID ∧ isBlockedEither t userID recipientID)
    .permissionDenied "Unable to message this user"
  let existing ← require fun t => .ok (getDMChannelByPairKey t userID recipientID)
  match existing with
  | some existing =>
    -- who has declined a DM and opens it again wants to reach out; the sender learns nothing
    if existing.dmStatus = .declined ∧
        (userID = recipientID ∨ existing.dmInitiatorID ≠ userID) then do
      run fun db => updateDMStatus db existing.id .active
      return false
    else return false
  | none => do
    let dmStatus ← require fun t =>
      if userID = recipientID then .ok .active else newDMStatus t userID recipient
    transact fun db => createDMChannel db newID userID recipientID dmStatus
      (if dmStatus = .pending then userID else "")

/-! ## Section 3: Answers to a message request -/

def isChannelMember (t : Tables) (channelID userID : ID) : Bool :=
  exists? Store.ChannelMember.key (channelID, userID) t.channelMembers

def channelNotFound : ConnectError := { code := .notFound, message := "channel not found" }

/-- `GetChannelAndCheckMembership`, with an error for those who do not belong. -/
def requireMember (error : ConnectError) (t : Tables) (channelID userID : ID) :
    Except ConnectError Channel :=
  match lookup Channel.id channelID t.channels with
  | none => .error channelNotFound
  | some ch => if isChannelMember t channelID userID then .ok ch else .error error

/-- The texts in which the three answers differ. -/
structure AnswerTexts where
  wrongStatus : String
  notRecipient : String

/-- The DM in the status that can be answered, for its recipient. -/
def requireAnswerable (texts : AnswerTexts) (status : DMStatus) (t : Tables)
    (channelID userID : ID) : Except ConnectError Channel := do
  rejectIf (channelID = "") .invalidArgument "channel_id is required"
  let ch ← requireMember channelNotFound t channelID userID
  rejectIf (ch.dmStatus ≠ status) .failedPrecondition texts.wrongStatus
  rejectIf (ch.dmInitiatorID = userID) .permissionDenied texts.notRecipient
  return ch

/-- An answer that makes the DM active, unless one has blocked the other. -/
def activate (texts : AnswerTexts) (unable : String) (status : DMStatus) (caller : Option ID)
    (channelID : ID) : Handler Unit := do
  let userID ← require fun _ => authenticate caller
  let ch ← require fun t => requireAnswerable texts status t channelID userID
  require fun t => rejectIf (isBlockedEither t userID ch.dmInitiatorID) .failedPrecondition unable
  run fun db => updateDMStatus db ch.id .active

def acceptMessageRequest (caller : Option ID) (channelID : ID) : Handler Unit :=
  activate { wrongStatus := "channel is not a pending request"
             notRecipient := "only the recipient can accept a message request" }
    "unable to accept this request" .pending caller channelID

def reverseDecline (caller : Option ID) (channelID : ID) : Handler Unit :=
  activate { wrongStatus := "channel is not declined"
             notRecipient := "only the recipient can reverse a decline" }
    "unable to reverse this decline" .declined caller channelID

def declineMessageRequest (caller : Option ID) (channelID : ID) : Handler Unit := do
  let userID ← require fun _ => authenticate caller
  let ch ← require fun t => requireAnswerable
    { wrongStatus := "channel is not a pending request"
      notRecipient := "only the recipient can decline a message request" }
    .pending t channelID userID
  run fun db => updateDMStatus db ch.id .declined

/-! ## Section 4: Messages in a DM -/

def notAMember : ConnectError :=
  { code := .permissionDenied, message := "not a member of this server" }

/-- The other participant, or the user in a DM with oneself. -/
def getDMOtherParticipantID (t : Tables) (channelID userID : ID) : ID :=
  match t.channelMembers.find? fun cm => cm.channelID = channelID ∧ cm.userID ≠ userID with
  | some cm => cm.userID
  | none => userID

/-- Neither of the two participants blocks the other. -/
def checkUnblocked (t : Tables) (channelID userID : ID) : Except ConnectError Unit :=
  let otherID := getDMOtherParticipantID t channelID userID
  rejectIf (otherID ≠ userID ∧ otherID ≠ systemUserID ∧ isBlockedEither t userID otherID)
    .permissionDenied "Unable to message this user"

def getMessage (messages : List Message) (channelID messageID : ID) : Option Message :=
  lookup Message.key (channelID, messageID) messages

/-- All that `SendMessage` checks before it writes. -/
def checkSend (outside : Except ConnectError Unit) (w : World) (caller : Option ID)
    (req : SendMessageRequest) : Except ConnectError (ID × Channel × Mentions) := do
  let userID ← authenticate caller
  rejectIf (userID = systemUserID) .permissionDenied "system user cannot send messages via API"
  rejectIf (req.channelID = "") .invalidArgument "channel_id is required"
  checkContent req.encryptedContent
  let ch ← requireMember notAMember w.db.tables req.channelID userID
  checkUnblocked w.db.tables ch.id userID
  rejectIf (ch.dmStatus = .pending ∧ ch.dmInitiatorID ≠ userID) .permissionDenied
    "accept this message request before replying"
  outside
  checkReply req.replyToID (getMessage w.messages req.channelID req.replyToID)
  let mentions ← sanitizeMentions userID true false req.mentions
  return (userID, ch, mentions)

def sendMessage (outside : Except ConnectError Unit) (newID : ID) (now : Int) (caller : Option ID)
    (req : SendMessageRequest) : Messaging (List Delivery) := do
  let (userID, ch, mentions) ← check fun w => checkSend outside w caller req
  let msg := req.message newID userID now mentions
  setMessages (upsert Message.key (fun _ => msg) msg)
  -- stored but not delivered to who has declined
  return if ch.dmStatus = .declined then [] else [Delivery.of msg]

/-- All that `EditMessage` checks before it writes. -/
def checkEdit (outside : Except ConnectError Unit) (w : World) (caller : Option ID)
    (req : EditMessageRequest) : Except ConnectError (Channel × Message × Mentions) := do
  let userID ← authenticate caller
  rejectIf (req.channelID = "" ∨ req.messageID = "") .invalidArgument
    "channel_id and message_id are required"
  checkContent req.encryptedContent
  let ch ← requireMember notAMember w.db.tables req.channelID userID
  checkUnblocked w.db.tables ch.id userID
  let msg ← checkEditable userID (getMessage w.messages req.channelID req.messageID)
  outside
  let mentions ← sanitizeMentions userID true false req.mentions
  return (ch, msg, mentions)

def editMessage (outside : Except ConnectError Unit) (now : Int) (caller : Option ID)
    (req : EditMessageRequest) : Messaging (List Delivery) := do
  let (_, msg, mentions) ← check fun w => checkEdit outside w caller req
  setMessages (updateWhere (fun m => m.key = (req.channelID, req.messageID))
    (req.apply now mentions))
  return [.of (req.apply now mentions msg)]

/-! ## Section 5: Requests -/

/-- A handler that needs the caller and another user. -/
def withUser (caller : Option ID) (userID : ID) (f : ID → DB → Except StoreError DB) :
    Handler Unit := do
  let callerID ← require fun _ => authenticate caller
  require fun _ => rejectIf (userID = "") .invalidArgument "user_id is required"
  run (f callerID)

def blockUser (caller : Option ID) (targetID : ID) : Handler Unit := do
  let userID ← require fun _ => authenticate caller
  require fun _ => rejectIf (targetID = "") .invalidArgument "user_id is required"
  require fun _ => rejectIf (userID = targetID) .invalidArgument "cannot block yourself"
  require fun _ => rejectIf (targetID = systemUserID) .invalidArgument "cannot block system user"
  run fun db => commit { db.tables with
    userBlocks := blockUserTx userID targetID db.tables.userBlocks
    friendships := deleteWhere (Friendship.joins userID targetID) db.tables.friendships }

inductive Request where
  | createOrGetDMChannel (dmCount : Nat) (newID : ID) (caller : Option ID) (recipientID : ID)
  | acceptMessageRequest (caller : Option ID) (channelID : ID)
  | declineMessageRequest (caller : Option ID) (channelID : ID)
  | reverseDecline (caller : Option ID) (channelID : ID)
  | sendMessage (outside : Except ConnectError Unit) (newID : ID) (now : Int)
      (caller : Option ID) (req : SendMessageRequest)
  | editMessage (outside : Except ConnectError Unit) (now : Int) (caller : Option ID)
      (req : EditMessageRequest)
  | sendFriendRequest (count : Nat) (caller : Option ID) (req : SendFriendRequestRequest)
  | acceptFriendRequest (faults : DMFaults) (caller : Option ID) (requesterID : ID)
  | declineFriendRequest (caller : Option ID) (requesterID : ID)
  | cancelFriendRequest (caller : Option ID) (addresseeID : ID)
  | removeFriend (caller : Option ID) (targetID : ID)
  | blockUser (caller : Option ID) (targetID : ID)
  | unblockUser (caller : Option ID) (targetID : ID)

/-- Handles a request that concerns no messages. -/
def silently {α : Type} (x : Handler α) : Messaging (List Delivery) := do
  let _ ← onDB x
  return []

/-- Handles a request and answers with what is published for the channel. -/
def Request.handle : Request → Messaging (List Delivery)
  | .createOrGetDMChannel dmCount newID caller recipientID =>
    silently (Social.createOrGetDMChannel dmCount newID caller recipientID)
  | .acceptMessageRequest caller channelID =>
    silently (Social.acceptMessageRequest caller channelID)
  | .declineMessageRequest caller channelID =>
    silently (Social.declineMessageRequest caller channelID)
  | .reverseDecline caller channelID => silently (Social.reverseDecline caller channelID)
  | .sendMessage outside newID now caller req => Social.sendMessage outside newID now caller req
  | .editMessage outside now caller req => Social.editMessage outside now caller req
  | .sendFriendRequest count caller req => silently (Social.sendFriendRequest count id caller req)
  | .acceptFriendRequest faults caller requesterID =>
    silently (Social.acceptFriendRequest faults caller requesterID)
  | .declineFriendRequest caller requesterID =>
    silently (withUser caller requesterID fun userID db =>
      FriendStore.declineFriendRequest db userID requesterID)
  | .cancelFriendRequest caller addresseeID =>
    silently (withUser caller addresseeID fun userID db =>
      FriendStore.cancelFriendRequest db userID addresseeID)
  | .removeFriend caller targetID =>
    silently (withUser caller targetID fun userID db => FriendStore.removeFriend db userID targetID)
  | .blockUser caller targetID => silently (Social.blockUser caller targetID)
  | .unblockUser caller targetID =>
    silently (withUser caller targetID fun userID db => BlockStore.unblockUser db userID targetID)

def step (w : World) (req : Request) : World := after req.handle w

/-- What a request publishes. -/
def published (w : World) (req : Request) : List Delivery :=
  match result req.handle w with
  | .ok deliveries => deliveries
  | .error _ => []

end Meza.Social
