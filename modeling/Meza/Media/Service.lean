import Meza.Chat.Sending
import Meza.Lib.Pool
import Meza.Media.Store

/-! # The life of an attachment

    The calls that work on attachments, as any number of them run at the same
    time: `CreateUpload`, `CompleteUpload`, `GetDownloadURL` and `cleanupOrphans`
    of the media service, `SendMessage` and `DeleteChannel` of the chat service,
    and the client's own upload to the object store. PostgreSQL, ScyllaDB and
    the object store have no transaction in common, so every write to one of them
    is a step.

    What checks say that look at other tables (membership, permissions, replies,
    channel keys) and what inspecting an uploaded file shows is part of the
    outcome of a step. Replies, mentions and events are as in the other modules
    and play no part here. -/

namespace Meza.Media

open Store MediaStore ChatStore
open Chat (internalError authenticate orElse SendMessageRequest Mentions checkContent
  sanitizeMentions systemUserID trimSpace)

/-! ## Section 1: The stores -/

structure World where
  db : DB
  sounds : List Sound := []
  attachments : List Attachment := []
  /-- What the object store holds. -/
  objects : List ObjectKey := []
  messages : List Message := []
  permCache : List PermCacheEntry := []
  now : Int := 0

/-- One write to one of the stores. The ids of messages are new, so that an insert adds a
    row. -/
inductive Write where
  | nothing
  | createAttachment (a : Attachment)
  | transitionToProcessing (id uploaderID : ID)
  | updateAttachmentCompleted (id : ID) (sizeBytes : Int) (contentType : String)
      (thumbnailKey : Option ObjectKey)
  | deleteAttachment (id : ID)
  | resetAttachmentToPending (id : ID)
  | linkAttachments (ids : List ID) (channelID : ID)
  | nullifyChannelAttachments (channelID : ID)
  | putObject (key : ObjectKey)
  | deleteObject (key : ObjectKey)
  | insertMessage (msg : Message)
  | remember (entry : PermCacheEntry)
  | setDB (db : DB)
  | elapse (seconds : Nat)

def World.apply (w : World) : Write → World
  | .nothing => w
  | .createAttachment a => { w with attachments := w.attachments ++ [a] }
  | .transitionToProcessing id uploaderID =>
    { w with
      attachments := transitionToProcessing w.now id uploaderID w.attachments }
  | .updateAttachmentCompleted id sizeBytes contentType thumbnailKey =>
    { w with
      attachments := updateAttachmentCompleted w.now id sizeBytes contentType
        thumbnailKey w.attachments }
  | .deleteAttachment id =>
    { w with attachments := deleteAttachment id w.attachments }
  | .resetAttachmentToPending id =>
    { w with attachments := resetAttachmentToPending w.now id w.attachments }
  | .linkAttachments ids channelID =>
    { w with attachments := linkAttachments w.now ids channelID w.attachments }
  | .nullifyChannelAttachments channelID =>
    { w with attachments := nullifyChannelAttachments channelID w.attachments }
  | .putObject key => { w with objects := key :: w.objects }
  | .deleteObject key => { w with objects := w.objects.filter (· ≠ key) }
  | .insertMessage msg => { w with messages := w.messages ++ [msg] }
  | .remember entry => { w with permCache := MediaAccessStore.remember entry w.permCache }
  | .setDB db => { w with db }
  | .elapse seconds => { w with now := w.now + seconds }

/-! ## Section 2: Requests -/

/-- The purposes of the protocol. -/
inductive UploadPurpose where
  | unspecified
  | chatAttachment
  | profileAvatar
  | profileBanner
  | serverIcon
  | serverBanner
  | serverEmoji
  | soundboard
  deriving DecidableEq, Repr

/-- `purposeToString`. -/
def UploadPurpose.purpose : UploadPurpose → Purpose
  | .profileAvatar => .profileAvatar
  | .profileBanner => .profileBanner
  | .serverIcon => .serverIcon
  | .serverBanner => .serverBanner
  | .serverEmoji => .serverEmoji
  | .soundboard => .soundboard
  | .unspecified | .chatAttachment => .chatAttachment

structure CreateUploadRequest where
  filename : String
  contentType : String
  originalContentType : String := ""
  sizeBytes : Int
  purpose : UploadPurpose

structure CompleteUploadRequest where
  uploadID : ID
  encryptedKey : List UInt8 := []

def maxPendingUploads : Nat := 10
def uploadExpiry : Int := 7200
def maxFileSize : Int := 52428800
def maxSoundboardFileSize : Int := 2097152
def cleanupBatchSize : Nat := 100
def unlinkedGracePeriod : Int := 86400

def allowedContentTypes : List String :=
  ["image/jpeg", "image/png", "image/gif", "image/webp", "video/mp4", "video/webm",
    "application/pdf", "application/zip", "text/plain", "audio/mpeg", "audio/ogg", "audio/wav"]

def allowedAudioBaseTypes : List String :=
  ["audio/mpeg", "audio/mp3", "audio/ogg", "video/ogg", "application/ogg", "audio/wav",
    "audio/x-wav", "audio/wave", "audio/vnd.wave", "audio/webm", "video/webm"]

/-- Parameters such as `;codecs=opus` do not matter. -/
def isAllowedAudioType (contentType : String) : Bool :=
  trimSpace (.ofList (contentType.toList.takeWhile (· ≠ ';'))) ∈ allowedAudioBaseTypes

/-- `filepath.Base`. -/
def baseName (name : List Char) : List Char :=
  if name = [] then ['.']
  else
    let last := ((name.reverse.dropWhile (· = '/')).takeWhile (· ≠ '/')).reverse
    if last = [] then ['/'] else last

/-- Without directories, control characters, quotes (34) and backslashes (92). -/
def sanitizeFilename (name : String) : String :=
  let base := baseName name.toList
  let kept := base.filter fun r => 31 < r.toNat ∧ r.toNat ∉ [34, 92, 127]
  if base = ['.'] ∨ kept = [] then "upload" else .ofList kept

def sizeLimit (purpose : UploadPurpose) : Int :=
  if purpose = .soundboard then maxSoundboardFileSize else maxFileSize

/-- Files for the chat are ciphertext, so their type says nothing. -/
def checkContentType (purpose : UploadPurpose) (contentType : String) : Except ConnectError Unit :=
  match purpose with
  | .soundboard =>
    rejectIf (¬ isAllowedAudioType contentType) .invalidArgument
      "unsupported audio type; allowed formats: mp3, ogg, wav, webm"
  | .chatAttachment => .ok ()
  | _ => rejectIf (contentType ∉ allowedContentTypes) .invalidArgument "unsupported content type"

def authRequired (caller : Option ID) : Except ConnectError ID :=
  match caller with
  | none => .error { code := .unauthenticated, message := "authentication required" }
  | some id => .ok id

def checkUpload (caller : Option ID) (req : CreateUploadRequest) : Except ConnectError ID := do
  let userID ← authRequired caller
  rejectIf (req.filename = "") .invalidArgument "filename is required"
  checkContentType req.purpose req.contentType
  rejectIf (req.sizeBytes ≤ 0 ∨ sizeLimit req.purpose < req.sizeBytes) .invalidArgument
    ("size_bytes must be between 1 and " ++ toString (sizeLimit req.purpose))
  return userID

/-- The row of a new upload. The key of a chat attachment's thumbnail is made in advance. -/
def newAttachment (now : Int) (attachmentID userID : ID) (req : CreateUploadRequest) : Attachment :=
  { id := attachmentID
    uploaderID := userID
    uploadPurpose := req.purpose.purpose
    objectKey := { userID, attachmentID, name := sanitizeFilename req.filename }
    thumbnailKey :=
      if req.purpose = .chatAttachment then some { userID, attachmentID, name := "thumb.enc" }
      else none
    contentType := req.contentType
    originalContentType := req.originalContentType
    sizeBytes := req.sizeBytes
    createdAt := now
    expiresAt := some (now + uploadExpiry) }

/-- The sender's own fields. -/
def checkSendRequest (caller : Option ID) (req : SendMessageRequest) :
    Except ConnectError ID := do
  let userID ← authenticate caller
  rejectIf (userID = systemUserID) .permissionDenied "system user cannot send messages via API"
  rejectIf (req.channelID = "") .invalidArgument "channel_id is required"
  checkContent req.encryptedContent
  return userID

/-- Every attachment is there once, completed and the sender's. Where several are wrong the
    code may name another of them. -/
def checkAttachments (rows : List Attachment) (userID : ID) (ids : List ID) :
    Except ConnectError Unit :=
  if ids = [] then .ok ()
  else do
    rejectIf (10 < ids.length) .invalidArgument "max 10 attachments per message"
    let attachments := getAttachmentsByIDs rows ids
    rejectIf (attachments.length ≠ ids.length) .invalidArgument
      "one or more attachment IDs are invalid"
    rejectIf (∃ a ∈ attachments, a.status ≠ .completed) .failedPrecondition
      "one or more attachments are still processing"
    rejectIf (∃ a ∈ attachments, a.uploaderID ≠ userID) .permissionDenied
      "attachment not owned by sender"

/-- `verdict` is the answer of `requirePermission`. -/
def checkDeleteChannel (t : Tables) (verdict : Except ConnectError Unit) (caller : Option ID)
    (channelID : ID) : Except ConnectError Channel := do
  let _ ← authenticate caller
  rejectIf (channelID = "") .invalidArgument "channel_id is required"
  let ch ← orElse { code := .notFound, message := "channel not found" }
    (getChannel t channelID)
  rejectIf (ch.serverID = none) .failedPrecondition "cannot delete DM channels"
  rejectIf (isVoiceTextCompanion t channelID) .failedPrecondition
    "cannot delete a voice text channel directly; delete the parent voice channel instead"
  verdict
  return ch

/-- A companion goes with its voice channel. -/
def dropChannel (db : DB) (ch : Channel) : Except StoreError DB :=
  match ch.voiceTextChannelID with
  | none => deleteChannel db ch.id
  | some companion => deleteChannelWithCompanion db ch.id companion

/-! ## Section 3: Calls and phases -/

inductive Call where
  | createUpload (caller : Option ID) (req : CreateUploadRequest)
  | completeUpload (caller : Option ID) (req : CompleteUploadRequest)
  /-- A client uses its presigned URL. -/
  | putObject (key : ObjectKey)
  | sendMessage (caller : Option ID) (req : SendMessageRequest)
  | deleteChannel (caller : Option ID) (channelID : ID)
  | cleanupOrphans
  | getDownloadURL (caller : Option ID) (attachmentID : ID)
  /-- Memberships, roles and overrides change. -/
  | changeTables (db : DB)
  | elapse (seconds : Nat)

/-- Something that is to be deleted. -/
inductive Removal where
  | object (key : ObjectKey)
  | row (id : ID)
  deriving DecidableEq, Repr

def Removal.write : Removal → Write
  | .object key => .deleteObject key
  | .row id => .deleteAttachment id

/-- What `cleanupOrphans` deletes of an attachment, in this order. -/
def removals (a : Attachment) : List Removal :=
  let derivedThumbKey := { a.objectKey with name := "thumb.webp" }
  .object a.objectKey :: (if some derivedThumbKey ≠ a.thumbnailKey then [.object derivedThumbKey]
    else []) ++ a.thumbnailKey.toList.map .object ++ [.row a.id]

inductive Phase where
  /-- `CountPendingByUploader` -/
  | createBegun (caller : Option ID) (req : CreateUploadRequest)
  /-- `CreateAttachment` -/
  | createCounted (userID : ID) (req : CreateUploadRequest)
  /-- `TransitionToProcessing` -/
  | completeBegun (caller : Option ID) (req : CompleteUploadRequest)
  /-- `StatObject`, `GetObject` or `GetObjectRange` -/
  | inspecting (a : Attachment) (req : CompleteUploadRequest)
  /-- `PutObject` for the thumbnail of an image -/
  | storingThumbnail (a : Attachment) (contentType : String)
  /-- `UpdateAttachmentCompleted` -/
  | completing (a : Attachment) (contentType : String) (thumbnailKey : Option ObjectKey)
  /-- `DeleteObject` and `DeleteAttachment` of a refused upload -/
  | discarding (a : Attachment) (todo : List Removal) (error : ConnectError)
  | uploading (key : ObjectKey)
  /-- The request's own fields, then the channel -/
  | sendBegun (caller : Option ID) (req : SendMessageRequest)
  /-- `GetAttachmentsByIDs` -/
  | sendAdmitted (userID : ID) (serverless : Bool) (req : SendMessageRequest)
  /-- The reply and the mentions -/
  | sendChecked (userID : ID) (serverless : Bool) (req : SendMessageRequest)
  /-- `InsertMessage` -/
  | sendReady (userID : ID) (req : SendMessageRequest) (mentions : Mentions)
  /-- `ResetAttachmentToPending` after a failed insert -/
  | rollingBack (todo : List ID)
  /-- `LinkAttachments`, for the first, second or third time -/
  | linking (req : SendMessageRequest) (attempt : Nat)
  | sent (req : SendMessageRequest) (linked : Bool)
  /-- The channel and the permission -/
  | deleteBegun (caller : Option ID) (channelID : ID)
  /-- `NullifyChannelAttachments` -/
  | detaching (ch : Channel)
  /-- `DeleteChannel` or `DeleteChannelWithCompanion` -/
  | dropping (ch : Channel)
  | dropped (ch : Channel) (result : Except ConnectError Unit)
  /-- `FindOrphanedUploads` -/
  | cleanupBegun
  /-- `FindUnlinkedAttachments` -/
  | cleanupFound (orphans : List Attachment)
  /-- `DeleteObject` and `DeleteAttachment` -/
  | collecting (todo : List Removal)
  /-- `GetAttachment` -/
  | downloadBegun (caller : Option ID) (attachmentID : ID)
  /-- `CheckAttachmentAccess` -/
  | downloadFound (userID : ID) (a : Attachment)
  | changing (db : DB)
  | elapsing (seconds : Nat)
  | finished (result : Except ConnectError Unit)

def Phase.begin : Call → Phase
  | .createUpload caller req => .createBegun caller req
  | .completeUpload caller req => .completeBegun caller req
  | .putObject key => .uploading key
  | .sendMessage caller req => .sendBegun caller req
  | .deleteChannel caller channelID => .deleteBegun caller channelID
  | .cleanupOrphans => .cleanupBegun
  | .getDownloadURL caller attachmentID => .downloadBegun caller attachmentID
  | .changeTables db => .changing db
  | .elapse seconds => .elapsing seconds

structure Outcome where
  /-- What the checks say that look at other tables. -/
  verdict : Except ConnectError Unit := .ok ()
  serverless : Bool := false
  mayMentionEveryone : Bool := false
  newID : ID := ""
  /-- The store returns an error. -/
  failed : Bool := false
  /-- A write that returns an error may have been carried out. -/
  applied : Bool := false
  /-- The object can be read. -/
  fetched : Bool := true
  /-- Its size and its content are as they should be, or what is wrong with them. -/
  content : Except ConnectError Unit := .ok ()
  /-- Processing an image has made a thumbnail. -/
  thumbnail : Bool := false
  queueFull : Bool := false
  sizeBytes : Int := 0
  detectedType : String := ""

/-! ## Section 4: Steps -/

/-- Goes on with the answer to a query, or ends the call. -/
def proceed {α : Type} (r : Except ConnectError α) (k : α → Phase) : Write × Phase :=
  match r with
  | .ok a => (.nothing, k a)
  | .error e => (.nothing, .finished (.error e))

/-- A write that may fail. -/
def attempt (o : Outcome) (write : Write) (done failed : Phase) : Write × Phase :=
  if o.failed then (if o.applied then write else .nothing, failed) else (write, done)

/-- What inspecting an uploaded object leads to. -/
inductive Inspection where
  | missing
  | rejected (error : ConnectError)
  | queueFull
  | accepted (contentType : String) (thumbnailKey : Option ObjectKey)
  | image (contentType : String)

/-- The steps that all kinds of uploads share. -/
def inspectObject (w : World) (o : Outcome) (a : Attachment) (accepted : Inspection) : Inspection :=
  if o.fetched = false ∨ a.objectKey ∉ w.objects then .missing
  else
    match o.content with
    | .error e => .rejected e
    | .ok _ => accepted

/-- Encrypted files are not looked into, and images are processed. -/
def inspect (w : World) (o : Outcome) (a : Attachment) (req : CompleteUploadRequest) : Inspection :=
  if a.uploadPurpose = .chatAttachment ∧ req.encryptedKey ≠ [] then
    inspectObject w o a (.accepted
      (if a.originalContentType = "" then a.contentType else a.originalContentType)
      (a.thumbnailKey.filter (· ∈ w.objects)))
  else if a.uploadPurpose ≠ .soundboard ∧ "image/".toList <+: a.contentType.toList then
    if o.queueFull then .queueFull
    else
      inspectObject w o a
        (if o.thumbnail then .image o.detectedType else .accepted o.detectedType none)
  else inspectObject w o a (.accepted o.detectedType none)

def afterInspection (a : Attachment) : Inspection → Phase
  | .missing => .discarding a [.row a.id]
      { code := .failedPrecondition, message := "file not found in storage" }
  | .rejected e => .discarding a [.object a.objectKey, .row a.id] e
  | .queueFull => .finished (.error
      { code := .deadlineExceeded, message := "image processing queue full" })
  | .accepted contentType thumbnailKey => .completing a contentType thumbnailKey
  | .image contentType => .storingThumbnail a contentType

def checkPending (o : Outcome) (rows : List Attachment) (userID : ID) :
    Except ConnectError Unit := do
  if o.failed then .error internalError else .ok ()
  rejectIf (maxPendingUploads ≤ countPendingByUploader rows userID)
    .resourceExhausted "too many pending uploads"

def checkComplete (caller : Option ID) (req : CompleteUploadRequest) :
    Except ConnectError ID := do
  let userID ← authRequired caller
  rejectIf (req.uploadID = "") .invalidArgument "upload_id is required"
  return userID

/-- `GetAttachment` and the checks of what it finds. -/
def checkDownload (o : Outcome) (rows : List Attachment) (caller : Option ID)
    (attachmentID : ID) : Except ConnectError (ID × Attachment) := do
  let userID ← authRequired caller
  rejectIf (attachmentID = "") .invalidArgument "attachment_id is required"
  rejectIf (o.failed = true) .notFound "attachment not found"
  match getAttachment rows attachmentID with
  | none => .error { code := .notFound, message := "attachment not found" }
  | some a =>
    rejectIf (a.status ≠ .completed) .failedPrecondition "attachment is not ready"
    return (userID, a)

def World.checkAttachmentAccess (w : World) (a : Attachment) (userID : ID) :
    Except StoreError Unit × Option PermCacheEntry :=
  MediaAccessStore.checkAttachmentAccess w.db.tables w.sounds w.now w.permCache a userID

def act (w : World) (o : Outcome) : Phase → Option (Write × Phase)
  | .createBegun caller req =>
    some (proceed (checkUpload caller req >>= fun userID =>
        (checkPending o w.attachments userID).map fun _ => userID)
      fun userID => .createCounted userID req)
  | .createCounted userID req =>
    -- no room for the row if its id or its object key is taken
    let a := newAttachment w.now o.newID userID req
    match createAttachment w.attachments a with
    | .error _ => some (.nothing, .finished (.error internalError))
    | .ok _ =>
      some (attempt o (.createAttachment a) (.finished (.ok ())) (.finished (.error internalError)))
  | .completeBegun caller req =>
    match checkComplete caller req with
    | .error e => some (.nothing, .finished (.error e))
    | .ok userID =>
      match findPending w.attachments req.uploadID userID with
      | none => some (.nothing, .finished (.error
          { code := .failedPrecondition, message := "upload not found or already completed" }))
      | some a =>
        some (attempt o (.transitionToProcessing req.uploadID userID) (.inspecting a req)
          (.finished (.error internalError)))
  | .inspecting a req => some (.nothing, afterInspection a (inspect w o a req))
  | .storingThumbnail a contentType =>
    -- the upload is completed without it as well
    let key := { a.objectKey with name := "thumb.webp" }
    some (attempt o (.putObject key) (.completing a contentType (some key))
      (.completing a contentType none))
  | .completing a contentType thumbnailKey =>
    -- the cleanup may have taken the row
    if isProcessing w.attachments a.id then
      some (attempt o (.updateAttachmentCompleted a.id o.sizeBytes contentType thumbnailKey)
        (.finished (.ok ())) (.finished (.error internalError)))
    else some (.nothing, .finished (.error internalError))
  | .discarding _ [] error => some (.nothing, .finished (.error error))
  | .discarding a (r :: todo) error =>
    -- what cannot be deleted stays
    some (attempt o r.write (.discarding a todo error) (.discarding a todo error))
  | .uploading key => some (.putObject key, .finished (.ok ()))
  | .sendBegun caller req =>
    some (proceed (checkSendRequest caller req >>= fun userID => o.verdict.map fun _ => userID)
      fun userID => .sendAdmitted userID o.serverless req)
  | .sendAdmitted userID serverless req =>
    if o.failed ∧ req.attachmentIDs ≠ [] then
      some (.nothing, .finished (.error internalError))
    else
      some (proceed (checkAttachments w.attachments userID req.attachmentIDs)
        fun _ => .sendChecked userID serverless req)
  | .sendChecked userID serverless req =>
    some (proceed (o.verdict >>= fun _ =>
        sanitizeMentions userID serverless o.mayMentionEveryone req.mentions)
      fun mentions => .sendReady userID req mentions)
  | .sendReady userID req mentions =>
    some (attempt o (.insertMessage (req.message o.newID userID w.now mentions))
      (if req.attachmentIDs = [] then .sent req true else .linking req 0)
      (.rollingBack req.attachmentIDs))
  | .rollingBack [] => some (.nothing, .finished (.error internalError))
  | .rollingBack (id :: todo) =>
    -- whether another message has the attachment is not looked up
    some (attempt o (.resetAttachmentToPending id) (.rollingBack todo) (.rollingBack todo))
  | .linking req n =>
    -- three attempts; the message is stored whatever becomes of them
    some (attempt o (.linkAttachments req.attachmentIDs req.channelID) (.sent req true)
      (if n < 2 then .linking req (n + 1) else .sent req false))
  | .deleteBegun caller channelID =>
    some (proceed (checkDeleteChannel w.db.tables o.verdict caller channelID) .detaching)
  | .detaching ch =>
    -- a failure is only logged
    some (attempt o (.nullifyChannelAttachments ch.id) (.dropping ch) (.dropping ch))
  | .dropping ch =>
    match dropChannel w.db ch with
    | .error _ => some (.nothing, .dropped ch (.error internalError))
    | .ok db =>
      some (attempt o (.setDB db) (.dropped ch (.ok ())) (.dropped ch (.error internalError)))
  | .cleanupBegun =>
    if o.failed then some (.nothing, .finished (.ok ()))
    else
      some (.nothing, .cleanupFound (findOrphanedUploads w.attachments w.now cleanupBatchSize))
  | .cleanupFound orphans =>
    -- the list is not checked again while it is worked off
    let unlinked := if o.failed then [] else
      findUnlinkedAttachments w.attachments (w.now - unlinkedGracePeriod) cleanupBatchSize
    some (.nothing, .collecting ((orphans ++ unlinked).flatMap removals))
  | .collecting [] => some (.nothing, .finished (.ok ()))
  | .collecting (r :: todo) =>
    some (attempt o r.write (.collecting todo) (.collecting todo))
  | .downloadBegun caller attachmentID =>
    some (proceed (checkDownload o w.attachments caller attachmentID)
      fun found => .downloadFound found.1 found.2)
  | .downloadFound userID a =>
    if o.failed then
      some (.nothing, .finished (.error { code := .notFound, message := "attachment not found" }))
    else
      let answer := w.checkAttachmentAccess a userID
      some (match answer.2 with
          | none => .nothing
          | some entry => .remember entry,
        .finished (orElse { code := .notFound, message := "attachment not found" } answer.1))
  | .changing db => some (.setDB db, .finished (.ok ()))
  | .elapsing seconds => some (.elapse seconds, .finished (.ok ()))
  | .sent _ _ | .dropped _ _ | .finished _ => none

def next (w : World) (_ : List Phase) (p : Phase) (o : Outcome) : Option (World × Phase) :=
  (act w o p).map fun r => (w.apply r.1, r.2)

abbrev State : Type := Pool.State World Phase

abbrev Event : Type := Pool.Event Call Outcome

/-- Any interleaving. -/
abbrev step : State → Event → State := Pool.step .begin next

/-- No attachment has been uploaded yet. -/
def initial (db : DB) (sounds : List Sound) (now : Int) : State :=
  { shared := { db, sounds, now }, calls := [] }

end Meza.Media
