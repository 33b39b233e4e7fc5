import Meza.Store.MessageStore
import Meza.Chat.Access

/-! # Reading messages

    The requests that answer with messages: `GetMessages`, `SearchMessages`,
    `GetReplies` and `GetMessagesByIDs` of `service.go`, the pins of
    `service_pins.go` and `ReportMessage` of `service_reports.go`, whose answer
    holds a snapshot of the reported message.

    Attachments and link previews that are joined to the answers are left out,
    as is the notice to the moderators; the limit on concurrent searches has no
    counterpart, since one request is handled at a time. -/

namespace Meza.Chat

open Store Permissions MessageStore Action ChatStore

/-! ## Section 1: State -/

structure Webhook where
  id : ID
  name : String
  createdBy : ID
  deriving DecidableEq, Repr

inductive ReportCategory where
  | unspecified
  | spam
  | harassment
  | hate
  | sexual
  | violence
  | selfHarm
  | illegal
  | other
  deriving DecidableEq, Repr

structure Report where
  id : ID
  reporterID : ID
  targetUserID : ID
  targetMessageID : ID
  targetChannelID : ID
  /-- `none` is the queue of the platform. -/
  serverID : Option ID
  snapshotContent : String
  snapshotAuthorUsername : String
  snapshotAuthorDisplayName : String
  snapshotAttachments : List ID
  snapshotMessageEditedAt : Option Int
  category : ReportCategory
  reason : Option String
  isOpen : Bool := true
  deriving DecidableEq, Repr

inductive RateKey where
  | search (userID : ID)
  | reportGlobal (reporterID : ID)
  | reportPair (reporterID targetID : ID)
  deriving DecidableEq, Repr

/-- A counter in Redis that starts anew when its window is over. -/
structure Rate where
  key : RateKey
  count : Nat
  expiresAt : Int
  deriving DecidableEq, Repr

structure MessagingState where
  chat : ChatState
  archive : Archive := {}
  webhooks : List Webhook := []
  reports : List Report := []
  rates : List Rate := []

abbrev Messaging : Type → Type := EStateM ConnectError MessagingState

/-- A step that touches only the chat tables and the permission cache. -/
def onChat {α : Type} (x : Handler α) : Messaging α := fun s =>
  match x s.chat with
  | .ok a chat => .ok a { s with chat }
  | .error e chat => .error e { s with chat }

/-- A query. -/
def query {α : Type} (f : MessagingState → α) : Messaging α := check fun s => .ok (f s)

/-- `INCR`, with an expiry at the first use; returns the new count. -/
def countHit (key : RateKey) (window : Int) : Messaging Nat := fun s =>
  let live := s.rates.find? fun r => r.key = key ∧ s.chat.now < r.expiresAt
  let count := (live.map (·.count)).getD 0 + 1
  let expiresAt := (live.map (·.expiresAt)).getD (s.chat.now + window)
  .ok count { s with rates := { key, count, expiresAt } :: s.rates.filter (·.key ≠ key) }

/-! ## Section 2: The gate before the history of a channel -/

def checkRulesAcknowledged (t : Tables) (userID serverID : ID) (rulesRequired : Bool) :
    Except ConnectError Bool :=
  if rulesRequired then orElse internalError (ChatStore.checkRulesAcknowledged t userID serverID)
  else .ok true

/-- Server channels only: ViewChannel, ReadMessageHistory and the rules. Who has
    not acknowledged the rules gets an empty answer. -/
def requireHistory (ch : Channel) (userID : ID) : Handler Bool :=
  match ch.serverID with
  | none => pure true
  | some serverID => do
    let srv ← require fun t => orElse internalError (getServer t serverID)
    let perms ← resolvePermissions userID serverID ch.id
    reject (¬ has perms viewChannel) .permissionDenied "missing ViewChannel permission"
    reject (¬ has perms readMessageHistory) .permissionDenied
      "missing ReadMessageHistory permission"
    require fun t => checkRulesAcknowledged t userID serverID srv.rulesRequired

/-- The channel, if the user belongs to it; the errors differ from request to
    request. -/
def requireBelonging (missing : ConnectError) (code : Code) (message : String) (t : Tables)
    (channelID userID : ID) : Except ConnectError Channel := do
  let (ch, isMember) ← orElse missing (getChannelAndCheckMembership t channelID userID)
  rejectIf (isMember = false) code message
  return ch

def requireParticipant (message : String) (t : Tables) (channelID userID : ID) :
    Except ConnectError Channel :=
  requireBelonging { code := .notFound, message := "channel not found" } .permissionDenied message
    t channelID userID

/-! ## Section 3: Pages, searches and lists of ids -/

structure GetMessagesRequest extends GetMessagesOpts where
  channelID : ID

structure MessagesResponse where
  messages : List Message := []
  hasMore : Bool := false
  deriving DecidableEq, Repr

def cursorCount (req : GetMessagesRequest) : Nat :=
  ([req.before, req.after, req.around].filter (· ≠ "")).length

def getMessages (caller : Option ID) (req : GetMessagesRequest) : Messaging MessagesResponse := do
  let userID ← onChat (require fun _ => authenticate caller)
  onChat (reject (req.channelID = "") .invalidArgument "channel_id is required")
  let ch ← onChat (require fun t => requireParticipant "not a member" t req.channelID userID)
  onChat (requireChannelAccess ch userID)
  let acknowledged ← onChat (requireHistory ch userID)
  if acknowledged then do
    onChat (reject (1 < cursorCount req) .invalidArgument
      "only one of before, after, around may be set")
    let (messages, hasMore) ← query fun s =>
      MessageStore.getMessages s.archive req.channelID req.toGetMessagesOpts
    return { messages, hasMore }
  else return {}

/-- `^[0-9A-Z]{26}$`. -/
def validULID (id : ID) : Bool :=
  id.length = 26 ∧ id.toList.all fun c => ('0' ≤ c ∧ c ≤ '9') ∨ ('A' ≤ c ∧ c ≤ 'Z')

structure SearchMessagesRequest where
  channelID : Option ID := none
  authorID : Option ID := none
  hasAttachment : Option Bool := none
  mentionedUserID : Option ID := none
  beforeID : Option ID := none
  afterID : Option ID := none
  messageTypes : List Nat := []
  limit : Int := 0

/-- The options of the store, with the handler's own limit. -/
def SearchMessagesRequest.opts (req : SearchMessagesRequest) : SearchMessagesOpts :=
  { channelID := req.channelID.getD ""
    authorID := req.authorID.getD ""
    hasAttachment := req.hasAttachment
    mentionedUserID := req.mentionedUserID.getD ""
    beforeID := req.beforeID.getD ""
    afterID := req.afterID.getD ""
    messageTypes := req.messageTypes
    limit := pageLimit 25 100 req.limit }

def searchMessages (caller : Option ID) (req : SearchMessagesRequest) :
    Messaging MessagesResponse := do
  let userID ← onChat (require fun _ => authenticate caller)
  let count ← countHit (.search userID) 10
  onChat (reject (5 < count) .resourceExhausted "search rate limit exceeded")
  onChat (reject (req.opts.channelID = "") .invalidArgument "channel_id is required")
  let ch ← onChat (require fun t => requireParticipant "not a member" t req.opts.channelID userID)
  onChat (requireChannelAccess ch userID)
  let acknowledged ← onChat (requireHistory ch userID)
  if acknowledged then do
    onChat (reject (req.opts.beforeID ≠ "" ∧ ¬ validULID req.opts.beforeID) .invalidArgument
      "invalid before_id")
    onChat (reject (req.opts.afterID ≠ "" ∧ ¬ validULID req.opts.afterID) .invalidArgument
      "invalid after_id")
    let (messages, hasMore) ← query fun s => MessageStore.searchMessages s.archive req.opts
    return { messages, hasMore }
  else return {}

structure GetRepliesRequest where
  channelID : ID
  messageID : ID
  limit : Int := 0

structure GetRepliesResponse where
  replies : List ReplyEntry := []
  totalCount : Nat := 0
  deriving DecidableEq, Repr

def getReplies (caller : Option ID) (req : GetRepliesRequest) :
    Messaging GetRepliesResponse := do
  let userID ← onChat (require fun _ => authenticate caller)
  onChat (reject (req.channelID = "" ∨ req.messageID = "") .invalidArgument
    "channel_id and message_id are required")
  let ch ← onChat (require fun t => requireChannel t req.channelID)
  onChat (require fun t => requireMembership t userID (ch.serverID.getD ""))
  onChat (requireChannelAccess ch userID)
  let acknowledged ← onChat (requireHistory ch userID)
  if acknowledged then do
    let (replies, totalCount) ← query fun s =>
      MessageStore.getReplies s.archive req.channelID req.messageID req.limit
    return { replies, totalCount }
  else return {}

structure GetMessagesByIDsRequest where
  channelID : ID
  messageIDs : List ID := []

def getMessagesByIDs (caller : Option ID) (req : GetMessagesByIDsRequest) :
    Messaging MessagesResponse := do
  let userID ← onChat (require fun _ => authenticate caller)
  onChat (reject (req.channelID = "") .invalidArgument "channel_id is required")
  if req.messageIDs = [] then return {}
  else do
    onChat (reject (50 < req.messageIDs.length) .invalidArgument "max 50 message IDs")
    let ch ← onChat (require fun t => requireChannel t req.channelID)
    onChat (require fun t => requireMembership t userID (ch.serverID.getD ""))
    onChat (requireChannelAccess ch userID)
    let acknowledged ← onChat (requireHistory ch userID)
    if acknowledged then do
      let messages ← query fun s =>
        (MessageStore.getMessagesByIDs s.archive req.channelID req.messageIDs).filter
          fun m => !m.deleted
      return { messages }
    else return {}

/-! ## Section 4: Pins -/

structure PinMessageRequest where
  channelID : ID
  messageID : ID

/-- `v1.PinnedMessage`. -/
structure PinInfo where
  message : Message
  pinnedBy : ID
  pinnedAt : Int
  deriving DecidableEq, Repr

/-- Authors pin their own messages; in servers others need ManageMessages. -/
def requirePinRights (ch : Channel) (msg : Message) (userID : ID) : Handler Unit :=
  if msg.authorID = userID then pure ()
  else
    match ch.serverID with
    | none => pure ()
    | some serverID => do
      let perms ← resolvePermissions userID serverID ch.id
      reject (¬ has perms manageMessages) .permissionDenied "missing permission"

def requireLiveMessage (a : Archive) (channelID messageID : ID) : Except ConnectError Message :=
  match getMessage a channelID messageID with
  | some msg => (rejectIf (msg.deleted = true) .notFound "message not found").map fun _ => msg
  | none => .error { code := .notFound, message := "message not found" }

/-- `clock` is the current time in microseconds. -/
def pinMessage (clock : Int) (caller : Option ID) (req : PinMessageRequest) :
    Messaging PinInfo := do
  let userID ← onChat (require fun _ => authenticate caller)
  onChat (reject (req.channelID = "" ∨ req.messageID = "") .invalidArgument
    "channel_id and message_id are required")
  let ch ← onChat (require fun t =>
    requireParticipant "not a member of this server" t req.channelID userID)
  let msg ← check fun s => requireLiveMessage s.archive req.channelID req.messageID
  onChat (requirePinRights ch msg userID)
  Action.modify fun s => { s with
    archive := PinStore.pinMessage s.archive clock req.channelID req.messageID userID }
  return { message := msg, pinnedBy := userID, pinnedAt := clock }

structure GetPinnedMessagesRequest where
  channelID : ID
  before : String := ""
  limit : Int := 0

structure GetPinnedMessagesResponse where
  pinnedMessages : List PinInfo := []
  hasMore : Bool := false
  deriving DecidableEq, Repr

/-- The message of a pin, unless it is gone. -/
def pinned (a : Archive) (p : PinnedMessage) : Option PinInfo :=
  ((getMessage a p.channelID p.messageID).filter fun m => !m.deleted).map
    fun message => { message, pinnedBy := p.pinnedBy.getD "", pinnedAt := p.pinnedAt }

/-- The pins of a page, with one more to see whether there are others. -/
def pinPage (a : Archive) (channelID : ID) (before : Int) (limit : Nat) : List PinnedMessage :=
  PinStore.getPinnedMessages a channelID before (limit + 1)

/-- Removes the pins whose message is gone. -/
def unpinOrphans (a : Archive) (pins : List PinnedMessage) : Archive :=
  (pins.filter fun p => (pinned a p).isNone).foldl
    (fun a p => PinStore.unpinMessage a p.channelID p.messageID) a

/-- The time before which pins are listed; `clock` is the current time in
    microseconds and `parseTime` the parser of RFC 3339 timestamps. -/
def pinCursor (clock : Int) (parseTime : String → Option Int) (before : String) :
    Except ConnectError Int :=
  if before = "" then .ok clock
  else
    match parseTime before with
    | some before => .ok before
    | none => .error { code := .invalidArgument, message := "invalid before cursor" }

def getPinnedMessages (clock : Int) (parseTime : String → Option Int) (caller : Option ID)
    (req : GetPinnedMessagesRequest) : Messaging GetPinnedMessagesResponse := do
  let userID ← onChat (require fun _ => authenticate caller)
  onChat (reject (req.channelID = "") .invalidArgument "channel_id is required")
  let ch ← onChat (require fun t => requireParticipant "not a member" t req.channelID userID)
  onChat (requireChannelAccess ch userID)
  let before ← check fun _ => pinCursor clock parseTime req.before
  let limit := pageLimit 50 100 req.limit
  let (response, pins) ← query fun s =>
    let pins := pinPage s.archive req.channelID before limit
    (({ pinnedMessages := (pins.take limit).filterMap (pinned s.archive),
        hasMore := limit < pins.length } : GetPinnedMessagesResponse), pins.take limit)
  Action.modify fun s => { s with archive := unpinOrphans s.archive pins }
  return response

/-! ## Section 5: Reports -/

structure ReportMessageRequest where
  messageID : ID
  category : ReportCategory
  reason : String := ""

def categoryFromProto (category : ReportCategory) : Except ConnectError ReportCategory :=
  if category = .unspecified then .error { code := .invalidArgument, message := "invalid category" }
  else .ok category

/-- Control characters, bidirectional overrides and zero-width characters. -/
def isUnsafeRune (c : Char) : Bool :=
  (c.toNat < 0x20 ∧ c ≠ '\n' ∧ c ≠ '\t') ∨ c.toNat = 0x7F ∨ (0x80 ≤ c.toNat ∧ c.toNat ≤ 0x9F) ∨
    isBidiOverride c ∨ c.toNat ∈ [0x200B, 0x200C, 0x200D, 0xFEFF]

/-- `nfc` is the normalization form C of Unicode. -/
def sanitizeReason (nfc : String → String) (raw : String) : Except ConnectError (Option String) :=
  if raw = "" then .ok none
  else
    let out := trimSpace (.ofList ((nfc raw).toList.filter fun c => !isUnsafeRune c))
    if out = "" then .ok none
    else if 1000 < out.length then
      .error { code := .invalidArgument, message := "reason exceeds 1000 characters" }
    else .ok (some out)

/-- The first of the user's channels that holds the message. -/
def findChannelForMessage (t : Tables) (a : Archive) (userID messageID : ID) :
    Except ConnectError ID :=
  match (getUserChannels t userID).find? fun channelID =>
      (getMessage a channelID messageID).isSome with
  | some channelID => .ok channelID
  | none => .error { code := .notFound, message := "message not found" }

def requireReportedChannel (t : Tables) (channelID userID : ID) : Except ConnectError Channel :=
  requireBelonging internalError .notFound "channel not found" t channelID userID

/-- What a report keeps of a message. -/
structure Snapshot where
  content : String := "[message no longer available]"
  authorID : ID := ""
  editedAt : Option Int := none
  attachments : List ID := []

/-- `truncateRunes`. -/
def truncateRunes (s : String) (maxRunes : Nat) : String := .ofList (s.toList.take maxRunes)

/-- `validUTF8` drops what is not valid UTF-8. Encrypted content is not kept. -/
def snapshotOf (validUTF8 : List UInt8 → String) (msg : Message) : Snapshot :=
  if msg.deleted then {}
  else
    { content := if 0 < msg.keyVersion then "[encrypted message]"
        else truncateRunes (validUTF8 msg.encryptedContent) 8000
      authorID := msg.authorID
      editedAt := msg.editedAt
      attachments := msg.attachmentIDs }

/-- `MESSAGE_TYPE_WEBHOOK`. -/
def webhookType : Nat := 6

structure ReportTarget where
  userID : ID
  username : String
  displayName : String

/-- The reported user: the author, or whoever created the webhook. -/
def reportTarget (s : MessagingState) (msg : Message) (authorID : ID) : ReportTarget :=
  if authorID ≠ "" ∧ msg.type = webhookType then
    match s.webhooks.find? (·.id = msg.authorID) with
    | some webhook =>
      { userID := webhook.createdBy, username := webhook.name, displayName := webhook.name }
    | none => { userID := authorID, username := "", displayName := "" }
  else
    match Table.lookup User.id authorID s.chat.db.tables.users with
    | some author =>
      { userID := authorID, username := author.username
        displayName := if author.displayName = "" then author.username else author.displayName }
    | none => { userID := authorID, username := "", displayName := "" }

/-- `models.SystemUserID`. -/
def systemUserID : ID := "00000000000000000000000000"

def checkReportRateLimits (reporterID targetID : ID) : Messaging Unit := do
  let global ← countHit (.reportGlobal reporterID) 3600
  onChat (reject (20 < global) .resourceExhausted "too many reports; please try again later")
  let pair ← countHit (.reportPair reporterID targetID) 3600
  onChat (reject (5 < pair) .resourceExhausted "too many reports; please try again later")

def hasPermission (t : Tables) (userID serverID : ID) (perm : Mask) : Bool :=
  match requirePermission t userID serverID perm with
  | .ok auth => has auth.callerPerms perm
  | .error _ => false

/-- The server whose moderators get the report. -/
def routeReport (t : Tables) (targetUserID : ID) (serverID : Option ID)
    (category : ReportCategory) : Option ID :=
  if category = .illegal then none
  else serverID.filter fun serverID =>
    isMember t targetUserID serverID && !hasPermission t targetUserID serverID manageReports

/-- One open report for each reporter and message; the reported user must exist. -/
def createReport (s : MessagingState) (report : Report) :
    Except ConnectError (Report × MessagingState) :=
  if report.targetUserID ∉ s.chat.db.tables.users.map (·.id) ∨
      report.reporterID ∉ s.chat.db.tables.users.map (·.id) then .error internalError
  else if s.reports.any fun r => r.reporterID = report.reporterID ∧
      r.targetMessageID = report.targetMessageID ∧ r.isOpen then
    .error { code := .alreadyExists, message := "you have already reported this message" }
  else .ok (report, { s with reports := s.reports ++ [report] })

/-- The second half of a report: the message is found, `newID` is the id drawn for
    the report. -/
def fileReport (validUTF8 : List UInt8 → String) (newID userID : ID) (category : ReportCategory)
    (reason : Option String) (channel : Channel) (msg : Message) : Messaging Report := do
  let snapshot := snapshotOf validUTF8 msg
  let target ← query fun s => reportTarget s msg snapshot.authorID
  onChat (reject (target.userID = "") .notFound "target message not found")
  onChat (reject (target.userID = userID) .invalidArgument "cannot report yourself")
  onChat (reject (target.userID = systemUserID) .invalidArgument "cannot report system user")
  checkReportRateLimits userID target.userID
  let serverID ← query fun s =>
    routeReport s.chat.db.tables target.userID channel.serverID category
  update fun s => createReport s
    { id := newID, reporterID := userID, targetUserID := target.userID,
      targetMessageID := msg.messageID, targetChannelID := msg.channelID, serverID,
      snapshotContent := snapshot.content, snapshotAuthorUsername := target.username,
      snapshotAuthorDisplayName := target.displayName,
      snapshotAttachments := snapshot.attachments, snapshotMessageEditedAt := snapshot.editedAt,
      category, reason }

def reportMessage (nfc : String → String) (validUTF8 : List UInt8 → String) (newID : ID)
    (caller : Option ID) (req : ReportMessageRequest) : Messaging Report := do
  let userID ← onChat (require fun _ => authenticate caller)
  onChat (reject (req.messageID = "") .invalidArgument "message_id is required")
  let category ← onChat (require fun _ => categoryFromProto req.category)
  let reason ← onChat (require fun _ => sanitizeReason nfc req.reason)
  let channelID ← check fun s =>
    findChannelForMessage s.chat.db.tables s.archive userID req.messageID
  let channel ← onChat (require fun t => requireReportedChannel t channelID userID)
  let msg ← check fun s =>
    (getMessage s.archive channelID req.messageID).elim
      (.error { code := .notFound, message := "target message not found" }) .ok
  fileReport validUTF8 newID userID category reason channel msg

end Meza.Chat
