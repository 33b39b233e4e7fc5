import Meza.Chat.Messages

/-! # Writing messages

    The requests `SendMessage` and `EditMessage` and the checks that both make of
    their own fields: the size of the content and the mentions. -/

namespace Meza.Chat

open Store

structure Mentions where
  userIDs : List ID := []
  roleIDs : List ID := []
  everyone : Bool := false
  deriving DecidableEq, Repr

structure SendMessageRequest where
  channelID : ID
  encryptedContent : List UInt8
  attachmentIDs : List ID := []
  replyToID : ID := ""
  mentions : Mentions := {}
  keyVersion : Nat := 0

structure EditMessageRequest where
  channelID : ID
  messageID : ID
  encryptedContent : List UInt8
  mentions : Mentions := {}
  keyVersion : Nat := 0

def maxEncryptedContentSize : Nat := 65536

def checkContent (content : List UInt8) : Except ConnectError Unit := do
  rejectIf (content = []) .invalidArgument "encrypted_content is required"
  rejectIf (maxEncryptedContentSize < content.length) .invalidArgument "message content too large"

/-- Refuses ids that are no ULIDs, and drops repeated ones and those in `skip`. -/
def sanitizeIDs (what : String) (skip : List ID) : List ID → Except ConnectError (List ID)
  | [] => .ok []
  | id :: ids => do
    rejectIf (¬ validULID id) .invalidArgument (what ++ id)
    if id ∈ skip then sanitizeIDs what skip ids
    else return id :: (← sanitizeIDs what (id :: skip) ids)

/-- `serverless` channels have neither roles nor an `@everyone`; elsewhere
    `mayMentionEveryone` tells whether the author may use it. -/
def sanitizeMentions (userID : ID) (serverless mayMentionEveryone : Bool) (m : Mentions) :
    Except ConnectError Mentions := do
  let roleIDs := if serverless then [] else m.roleIDs
  rejectIf (100 < m.userIDs.length) .invalidArgument "max 100 mentions per message"
  let userIDs ← sanitizeIDs "invalid mention user ID: " [userID] m.userIDs
  rejectIf (50 < roleIDs.length) .invalidArgument "max 50 role mentions per message"
  let roleIDs ← sanitizeIDs "invalid mention role ID: " [] roleIDs
  return { userIDs, roleIDs, everyone := m.everyone && !serverless && mayMentionEveryone }

/-- The message that `reply_to_id` names must be there to reply to. -/
def checkReply (replyToID : ID) (parent : Option Message) : Except ConnectError Unit :=
  if replyToID = "" then .ok ()
  else do
    rejectIf (26 < replyToID.utf8ByteSize) .invalidArgument "reply_to_id is invalid"
    match parent with
    | none =>
      .error { code := .invalidArgument
               message := "reply_to_id references a nonexistent message" }
    | some parent =>
      rejectIf (parent.deleted = true) .invalidArgument "reply_to_id references a deleted message"
      rejectIf (parent.type ≠ 0) .invalidArgument "cannot reply to system messages"

/-- The row that `SendMessage` inserts. -/
def SendMessageRequest.message (req : SendMessageRequest) (messageID userID : ID) (now : Int)
    (mentions : Mentions) : Message :=
  { channelID := req.channelID
    messageID
    authorID := userID
    encryptedContent := req.encryptedContent
    attachmentIDs := req.attachmentIDs
    replyToID := req.replyToID
    mentionedUserIDs := mentions.userIDs
    mentionedRoleIDs := mentions.roleIDs
    mentionEveryone := mentions.everyone
    createdAt := now
    keyVersion := req.keyVersion }

/-- The columns that `EditMessage` writes. -/
def EditMessageRequest.apply (req : EditMessageRequest) (now : Int) (mentions : Mentions)
    (m : Message) : Message :=
  { m with
    encryptedContent := req.encryptedContent
    mentionedUserIDs := mentions.userIDs
    mentionedRoleIDs := mentions.roleIDs
    mentionEveryone := mentions.everyone
    editedAt := some now
    keyVersion := req.keyVersion }

/-- Of the fetched message: it is there, written by a user, and by this one. -/
def checkEditable (userID : ID) (msg : Option Message) : Except ConnectError Message :=
  match msg with
  | none => .error { code := .notFound, message := "message not found" }
  | some msg => do
    rejectIf (msg.deleted = true) .notFound "message not found"
    rejectIf (msg.type ≠ 0) .failedPrecondition "cannot edit system messages"
    rejectIf (msg.authorID ≠ userID) .permissionDenied "not the message author"
    return msg

theorem checkEditable_ok {userID : ID} {row : Option Message} {msg : Message}
    (h : checkEditable userID row = .ok msg) :
    row = some msg ∧ msg.deleted = false ∧ msg.authorID = userID := by
  cases row with
  | none => cases h
  | some m =>
    obtain ⟨_, hdeleted, h⟩ := bind_eq_ok.mp h
    obtain ⟨_, _, h⟩ := bind_eq_ok.mp h
    obtain ⟨_, hauthor, h⟩ := bind_eq_ok.mp h
    cases h
    refine ⟨rfl, ?_, not_not.mp (rejectIf_ok.mp hauthor)⟩
    simpa using rejectIf_ok.mp hdeleted

end Meza.Chat
