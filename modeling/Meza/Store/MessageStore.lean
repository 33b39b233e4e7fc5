import Meza.Store.Schema

/-! # Messages, replies and pins

    Messages live in ScyllaDB, one partition for each channel and in descending
    order of their ids within it; pins live in PostgreSQL. Every query names
    its channel, so what it returns belongs to that channel. -/

namespace Meza.Store
open List Table

/-! ## Section 1: Rows -/

/-- Timestamps are Unix seconds. A key version of 0 means plain text. -/
structure Message where
  channelID : ID
  messageID : ID
  authorID : ID
  encryptedContent : List UInt8
  attachmentIDs : List ID := []
  replyToID : ID := ""
  mentionedUserIDs : List ID := []
  mentionedRoleIDs : List ID := []
  mentionEveryone : Bool := false
  createdAt : Int := 0
  editedAt : Option Int := none
  deleted : Bool := false
  keyVersion : Nat := 0
  type : Nat := 0
  deriving DecidableEq, Repr

/-- A row of `message_replies`: ids, no content. -/
structure ReplyEntry where
  channelID : ID
  replyToID : ID
  messageID : ID
  authorID : ID
  createdAt : Int := 0
  deriving DecidableEq, Repr

structure PinnedMessage where
  channelID : ID
  messageID : ID
  pinnedBy : Option ID := none
  pinnedAt : Int := 0
  deriving DecidableEq, Repr

def Message.key (m : Message) : ID × ID := (m.channelID, m.messageID)
def PinnedMessage.key (p : PinnedMessage) : ID × ID := (p.channelID, p.messageID)

/-- The three tables, with the primary keys that both databases keep. -/
structure Archive where
  messages : List Message := []
  replies : List ReplyEntry := []
  pins : List PinnedMessage := []
  messagesPK : UniqueOn Message.key messages := by decide
  pinsPK : UniqueOn PinnedMessage.key pins := by decide

theorem unique_noMessages : UniqueOn Message.key [] := nodup_nil

theorem unique_noPins : UniqueOn PinnedMessage.key [] := nodup_nil

/-! ## Section 2: Queries -/

namespace MessageStore

def getMessage (a : Archive) (channelID messageID : ID) : Option Message :=
  lookup Message.key (channelID, messageID) a.messages

/-- A page size: `dflt` if none is asked for, and at most `max`. -/
def pageLimit (dflt max : Nat) (limit : Int) : Nat :=
  if limit ≤ 0 then dflt else if max < limit then max else limit.toNat

/-- A partition in its native order. -/
def newestFirst (a : Archive) (channelID : ID) : List Message :=
  (a.messages.filter (·.channelID = channelID)).insertionSort
    (fun m m' => m'.messageID ≤ m.messageID)

/-- A partition in reverse. -/
def oldestFirst (a : Archive) (channelID : ID) : List Message :=
  (a.messages.filter (·.channelID = channelID)).insertionSort
    (fun m m' => m.messageID ≤ m'.messageID)

structure GetMessagesOpts where
  before : ID := ""
  after : ID := ""
  around : ID := ""
  limit : Int := 0
  deriving DecidableEq, Repr

/-- The rows a page is made of, oldest first. -/
def fetchMessages (a : Archive) (channelID : ID) (opts : GetMessagesOpts) (limit : Nat) :
    List Message :=
  if opts.around ≠ "" then
    let halfLimit := max 1 (limit / 2)
    (((newestFirst a channelID).filter (·.messageID ≤ opts.around)).take (halfLimit + 1)).reverse ++
      ((oldestFirst a channelID).filter (opts.around < ·.messageID)).take halfLimit
  else if opts.before ≠ "" then
    (((newestFirst a channelID).filter (·.messageID < opts.before)).take limit).reverse
  else if opts.after ≠ "" then
    ((oldestFirst a channelID).filter (opts.after < ·.messageID)).take limit
  else ((newestFirst a channelID).take limit).reverse

/-- A page without its deleted messages, and whether there are more. -/
def getMessages (a : Archive) (channelID : ID) (opts : GetMessagesOpts) : List Message × Bool :=
  let limit := pageLimit 50 100 opts.limit
  let messages := fetchMessages a channelID opts limit
  (messages.filter fun m => !m.deleted, limit ≤ messages.length)

/-- `message_id IN ?` within a partition. -/
def getMessagesByIDs (a : Archive) (channelID : ID) (messageIDs : List ID) : List Message :=
  a.messages.filter fun m => m.channelID = channelID ∧ m.messageID ∈ messageIDs

structure SearchMessagesOpts where
  channelID : ID
  authorID : ID := ""
  hasAttachment : Option Bool := none
  mentionedUserID : ID := ""
  beforeID : ID := ""
  afterID : ID := ""
  messageTypes : List Nat := []
  limit : Int := 0
  deriving DecidableEq, Repr

/-- The filters of a search. -/
def SearchMessagesOpts.admits (opts : SearchMessagesOpts) (m : Message) : Bool :=
  m.deleted = false ∧ (opts.authorID = "" ∨ m.authorID = opts.authorID) ∧
    (∀ has ∈ opts.hasAttachment, has = !m.attachmentIDs.isEmpty) ∧
    (opts.mentionedUserID = "" ∨ opts.mentionedUserID ∈ m.mentionedUserIDs) ∧
    (opts.messageTypes = [] ∨ m.type ∈ opts.messageTypes)

def maxScanDepth : Nat := 10000

/-- The scan: collects the ids of at most `limit + 1` rows, and tells whether it
    gave up. -/
def searchScan (opts : SearchMessagesOpts) (limit : Nat) :
    List Message → Nat → List ID → List ID × Bool
  | [], _, matched => (matched, false)
  | m :: rows, scanned, matched =>
    if maxScanDepth < scanned + 1 then (matched, true)
    else if opts.admits m then
      if limit < (matched ++ [m.messageID]).length then (matched ++ [m.messageID], false)
      else searchScan opts limit rows (scanned + 1) (matched ++ [m.messageID])
    else searchScan opts limit rows (scanned + 1) matched

/-- Newest first, whichever way the partition was scanned. -/
def searchMessages (a : Archive) (opts : SearchMessagesOpts) : List Message × Bool :=
  let limit := pageLimit 25 100 opts.limit
  let rows :=
    if opts.afterID ≠ "" then
      (oldestFirst a opts.channelID).filter (opts.afterID < ·.messageID)
    else if opts.beforeID ≠ "" then
      (newestFirst a opts.channelID).filter (·.messageID < opts.beforeID)
    else newestFirst a opts.channelID
  let (matched, scanCapReached) := searchScan opts limit rows 0 []
  let found := getMessagesByIDs a opts.channelID (matched.take limit)
  let messages := (matched.take limit).filterMap fun id => found.find? (·.messageID = id)
  (if opts.afterID ≠ "" then messages.reverse else messages,
    limit < matched.length ∨ scanCapReached)

/-- `LIMIT 1000`; system messages are read but do not count. -/
def countMessagesAfter (a : Archive) (channelID afterMessageID : ID) : Nat :=
  ((((oldestFirst a channelID).filter (afterMessageID < ·.messageID)).take 1000).filter
    (·.type = 0)).length

/-- The entries of a message's replies, and how many there are. -/
def getReplies (a : Archive) (channelID messageID : ID) (limit : Int) : List ReplyEntry × Nat :=
  let replies := a.replies.filter fun r => r.channelID = channelID ∧ r.replyToID = messageID
  (replies.take (pageLimit 50 50 limit), replies.length)

end MessageStore

namespace PinStore

/-- `ON CONFLICT (channel_id, message_id) DO NOTHING`. -/
def pinMessage (a : Archive) (now : Int) (channelID messageID pinnedBy : ID) : Archive :=
  { a with
    pins := insertNew PinnedMessage.key
      { channelID, messageID, pinnedBy := some pinnedBy, pinnedAt := now } a.pins
    pinsPK := unique_insertNew a.pinsPK _ }

def unpinMessage (a : Archive) (channelID messageID : ID) : Archive :=
  { a with
    pins := deleteWhere (fun p => p.channelID = channelID ∧ p.messageID = messageID) a.pins
    pinsPK := unique_deleteWhere a.pinsPK _ }

/-- The pins of a channel before a time, latest first; a limit out of range is 50. -/
def getPinnedMessages (a : Archive) (channelID : ID) (before : Int) (limit : Nat) :
    List PinnedMessage :=
  ((a.pins.filter fun p => p.channelID = channelID ∧ p.pinnedAt < before).insertionSort
    (fun p p' => p'.pinnedAt ≤ p.pinnedAt)).take (if limit = 0 ∨ 100 < limit then 50 else limit)

end PinStore

/-! ## Section 3: What is found belongs to the channel -/

namespace MessageStore

variable {a : Archive} {channelID : ID} {m : Message}

theorem mem_of_getMessage {messageID : ID} (h : getMessage a channelID messageID = some m) :
    m ∈ a.messages ∧ m.channelID = channelID ∧ m.messageID = messageID := by
  obtain ⟨hmem, hkey⟩ := mem_of_lookup h
  exact ⟨hmem, (Prod.mk.inj hkey).1, (Prod.mk.inj hkey).2⟩

theorem mem_newestFirst :
    m ∈ newestFirst a channelID ↔ m ∈ a.messages ∧ m.channelID = channelID := by
  unfold newestFirst
  rw [mem_insertionSort, mem_filter, decide_eq_true_eq]

theorem mem_oldestFirst :
    m ∈ oldestFirst a channelID ↔ m ∈ a.messages ∧ m.channelID = channelID := by
  unfold oldestFirst
  rw [mem_insertionSort, mem_filter, decide_eq_true_eq]

theorem mem_of_mem_fetchMessages {opts : GetMessagesOpts} {limit : Nat}
    (h : m ∈ fetchMessages a channelID opts limit) : m ∈ a.messages ∧ m.channelID = channelID := by
  unfold fetchMessages at h
  split at h
  · rcases mem_append.mp h with h | h
    · have htake := mem_of_mem_take (mem_reverse.mp h)
      exact mem_newestFirst.mp (mem_filter.mp htake).1
    · exact mem_oldestFirst.mp (mem_filter.mp (mem_of_mem_take h)).1
  split at h
  · have htake := mem_of_mem_take (mem_reverse.mp h)
    exact mem_newestFirst.mp (mem_filter.mp htake).1
  split at h
  · exact mem_oldestFirst.mp (mem_filter.mp (mem_of_mem_take h)).1
  · exact mem_newestFirst.mp (mem_of_mem_take (mem_reverse.mp h))

theorem channelID_of_getMessages {opts : GetMessagesOpts}
    (h : m ∈ (getMessages a channelID opts).1) : m.channelID = channelID :=
  (mem_of_mem_fetchMessages (mem_filter.mp h).1).2

theorem channelID_of_getMessagesByIDs {messageIDs : List ID}
    (h : m ∈ getMessagesByIDs a channelID messageIDs) : m.channelID = channelID :=
  (of_decide_eq_true (mem_filter.mp h).2).1

/-- Whatever the scan matched, the hydration stays within the channel. -/
theorem channelID_of_searchMessages {opts : SearchMessagesOpts}
    (h : m ∈ (searchMessages a opts).1) : m.channelID = opts.channelID := by
  unfold searchMessages at h
  have hfound : ∀ ids : List ID, m ∈ (ids.filterMap fun id =>
      (getMessagesByIDs a opts.channelID ids).find? (·.messageID = id)) →
      m.channelID = opts.channelID := by
    intro ids hmem
    obtain ⟨id, -, hfind⟩ := mem_filterMap.mp hmem
    exact channelID_of_getMessagesByIDs (mem_of_find?_eq_some hfind)
  split at h
  · exact hfound _ (mem_reverse.mp h)
  · exact hfound _ h

end MessageStore

end Meza.Store
