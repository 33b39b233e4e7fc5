import Meza.Media.Service

/-! # Steps on attachments

    What each step of a call writes, what a write does to the row of an attachment,
    and the first invariant: a row is only linked to channels in which a message
    with it was sent. -/

namespace Meza.Media

open Store Option Table List Write
open Chat (SendMessageRequest Mentions)

/-! ## Section 1: What a step writes -/

/-- The write is carried out, or it is lost. -/
def Write.Tried (tried e : Write) : Prop := e = tried ∨ e = .nothing

variable {o : Outcome} {p p' : Phase} {w : World} {e : Write}

theorem proceed_cases {α : Type} {r : Except ConnectError α} {k : α → Phase}
    (h : proceed r k = (e, p)) :
    e = .nothing ∧ ((∃ a, r = .ok a ∧ p = k a) ∨ ∃ result, p = .finished result) := by
  cases r with
  | ok a =>
    cases h
    exact ⟨rfl, .inl ⟨a, rfl, rfl⟩⟩
  | error err =>
    cases h
    exact ⟨rfl, .inr ⟨_, rfl⟩⟩

theorem attempt_cases {write : Write} {done failed : Phase}
    (h : attempt o write done failed = (e, p)) :
    (e = write ∧ p = done) ∨ (write.Tried e ∧ p = failed) := by
  unfold attempt at h
  split at h
  · obtain ⟨rfl, rfl⟩ := Prod.mk.inj h
    right
    refine ⟨?_, rfl⟩
    split
    · exact .inl rfl
    · exact .inr rfl
  · obtain ⟨rfl, rfl⟩ := Prod.mk.inj h
    exact .inl ⟨rfl, rfl⟩

/-- The channel whose attachments a `DeleteChannel` has detached. -/
def Phase.detached : Phase → Option ID
  | .dropping ch | .dropped ch _ => some ch.id
  | _ => none

inductive Change (w : World) (o : Outcome) : Phase → Write → Phase → Prop where
  | stop {p : Phase} (result : Except ConnectError Unit) (running : p.detached = none) :
      Change w o p .nothing (.finished result)
  | count {caller : Option ID} {userID : ID} {req : CreateUploadRequest} :
      Change w o (.createBegun caller req) .nothing (.createCounted userID req)
  | create {userID : ID} {req : CreateUploadRequest} (result : Except ConnectError Unit)
      (fresh : ∀ row ∈ w.attachments, row.id ≠ o.newID) :
      Change w o (.createCounted userID req)
        (.createAttachment (newAttachment w.now o.newID userID req)) (.finished result)
  | process {caller : Option ID} {userID : ID} {req : CompleteUploadRequest} {a : Attachment}
      (found : MediaStore.findPending w.attachments req.uploadID userID = some a) :
      Change w o (.completeBegun caller req) (.transitionToProcessing req.uploadID userID)
        (.inspecting a req)
  | processUnheard {caller : Option ID} {userID : ID} {req : CompleteUploadRequest}
      {a : Attachment} (found : MediaStore.findPending w.attachments req.uploadID userID = some a)
      (result : Except ConnectError Unit) :
      Change w o (.completeBegun caller req) (.transitionToProcessing req.uploadID userID)
        (.finished result)
  | accept {a : Attachment} {req : CompleteUploadRequest} (contentType : String)
      (thumbnailKey : Option ObjectKey) :
      Change w o (.inspecting a req) .nothing (.completing a contentType thumbnailKey)
  | image {a : Attachment} {req : CompleteUploadRequest} (contentType : String) :
      Change w o (.inspecting a req) .nothing (.storingThumbnail a contentType)
  | reject {a : Attachment} {req : CompleteUploadRequest} {todo : List Removal}
      (own : ∀ r ∈ todo, r = .object a.objectKey ∨ r = .row a.id) (error : ConnectError) :
      Change w o (.inspecting a req) .nothing (.discarding a todo error)
  | thumbnail {a : Attachment} {contentType : String} {key : ObjectKey} {e : Write}
      (tried : (putObject key).Tried e) (thumbnailKey : Option ObjectKey) :
      Change w o (.storingThumbnail a contentType) e (.completing a contentType thumbnailKey)
  | complete {a : Attachment} {contentType : String} {thumbnailKey : Option ObjectKey}
      (result : Except ConnectError Unit) :
      Change w o (.completing a contentType thumbnailKey)
        (.updateAttachmentCompleted a.id o.sizeBytes contentType thumbnailKey) (.finished result)
  | discard {a : Attachment} {r : Removal} {todo : List Removal} {error : ConnectError} {e : Write}
      (tried : r.write.Tried e) :
      Change w o (.discarding a (r :: todo) error) e (.discarding a todo error)
  | upload {key : ObjectKey} (result : Except ConnectError Unit) :
      Change w o (.uploading key) (.putObject key) (.finished result)
  | admitSend {caller : Option ID} {req : SendMessageRequest} {userID : ID}
      (channel : req.channelID ≠ "") :
      Change w o (.sendBegun caller req) .nothing (.sendAdmitted userID o.serverless req)
  | checkSend {userID : ID} {serverless : Bool} {req : SendMessageRequest}
      (checked : checkAttachments w.attachments userID req.attachmentIDs = .ok ()) :
      Change w o (.sendAdmitted userID serverless req) .nothing (.sendChecked userID serverless req)
  | readySend {userID : ID} {serverless : Bool} {req : SendMessageRequest} {mentions : Mentions} :
      Change w o (.sendChecked userID serverless req) .nothing (.sendReady userID req mentions)
  | insert {userID : ID} {req : SendMessageRequest} {mentions : Mentions} :
      Change w o (.sendReady userID req mentions)
        (.insertMessage (req.message o.newID userID w.now mentions))
        (if req.attachmentIDs = [] then .sent req true else .linking req 0)
  | insertFail {userID : ID} {req : SendMessageRequest} {mentions : Mentions} {e : Write}
      (tried : (insertMessage (req.message o.newID userID w.now mentions)).Tried e) :
      Change w o (.sendReady userID req mentions) e (.rollingBack req.attachmentIDs)
  | reset {id : ID} {todo : List ID} {e : Write}
      (tried : (resetAttachmentToPending id).Tried e) :
      Change w o (.rollingBack (id :: todo)) e (.rollingBack todo)
  | link {req : SendMessageRequest} {n : Nat} :
      Change w o (.linking req n) (.linkAttachments req.attachmentIDs req.channelID)
        (.sent req true)
  | linkAgain {req : SendMessageRequest} {n : Nat} {e : Write}
      (tried : (linkAttachments req.attachmentIDs req.channelID).Tried e) :
      Change w o (.linking req n) e (.linking req (n + 1))
  | linkGiveUp {req : SendMessageRequest} {n : Nat} {e : Write}
      (tried : (linkAttachments req.attachmentIDs req.channelID).Tried e) :
      Change w o (.linking req n) e (.sent req false)
  | admitDelete {caller : Option ID} {channelID : ID} {ch : Channel} :
      Change w o (.deleteBegun caller channelID) .nothing (.detaching ch)
  | detach {ch : Channel} {e : Write}
      (tried : (nullifyChannelAttachments ch.id).Tried e) :
      Change w o (.detaching ch) e (.dropping ch)
  | drop {ch : Channel} {db : DB} {e : Write} (deleted : dropChannel w.db ch = .ok db)
      (tried : (setDB db).Tried e) (result : Except ConnectError Unit) :
      Change w o (.dropping ch) e (.dropped ch result)
  | dropFail {ch : Channel} (result : Except ConnectError Unit) :
      Change w o (.dropping ch) .nothing (.dropped ch result)
  | findOrphans {orphans : List Attachment} :
      Change w o .cleanupBegun .nothing (.cleanupFound orphans)
  | findUnlinked {orphans : List Attachment} {todo : List Removal} :
      Change w o (.cleanupFound orphans) .nothing (.collecting todo)
  | collect {r : Removal} {todo : List Removal} {e : Write} (tried : r.write.Tried e) :
      Change w o (.collecting (r :: todo)) e (.collecting todo)
  | findDownload {caller : Option ID} {attachmentID userID : ID} {a : Attachment} :
      Change w o (.downloadBegun caller attachmentID) .nothing (.downloadFound userID a)
  | download {userID : ID} {a : Attachment} {entry : PermCacheEntry}
      (answered : (w.checkAttachmentAccess a userID).2 = some entry)
      (result : Except ConnectError Unit) :
      Change w o (.downloadFound userID a) (.remember entry) (.finished result)
  | change {db : DB} (result : Except ConnectError Unit) :
      Change w o (.changing db) (.setDB db) (.finished result)
  | elapse {seconds : Nat} (result : Except ConnectError Unit) :
      Change w o (.elapsing seconds) (.elapse seconds) (.finished result)

theorem createAttachment_ok {rows rows' : List Attachment} {a : Attachment}
    (h : MediaStore.createAttachment rows a = .ok rows') : ∀ row ∈ rows, row.id ≠ a.id := by
  obtain ⟨_, hnew, -⟩ := bind_eq_ok.mp h
  intro row hrow hid
  exact refuseIf_ok.mp hnew ⟨row, hrow, Or.inl hid⟩

theorem dropChannel_keeps {db db' : DB} {ch : Channel} (h : dropChannel db ch = .ok db')
    {P : Tables → Prop} (hP : ∀ t id, P t → P (ChatStore.withoutChannel t id))
    (hdb : P db.tables) : P db'.tables := by
  unfold dropChannel at h
  split at h
  · unfold ChatStore.deleteChannel at h
    obtain ⟨_, -, h⟩ := bind_eq_ok.mp h
    rw [commit_ok h]
    exact hP _ _ hdb
  · unfold ChatStore.deleteChannelWithCompanion at h
    obtain ⟨db₁, hcompanion, h⟩ := bind_eq_ok.mp h
    obtain ⟨_, -, h⟩ := bind_eq_ok.mp h
    rw [commit_ok h, commit_ok hcompanion]
    exact hP _ _ (hP _ _ hdb)

variable {req : SendMessageRequest}

theorem checkSendRequest_ok {caller : Option ID} {userID : ID}
    (h : checkSendRequest caller req = .ok userID) : req.channelID ≠ "" := by
  obtain ⟨_, -, h⟩ := bind_eq_ok.mp h
  obtain ⟨_, -, h⟩ := bind_eq_ok.mp h
  obtain ⟨_, hchannel, -⟩ := bind_eq_ok.mp h
  exact rejectIf_ok.mp hchannel

theorem afterInspection_change {a : Attachment} {req : CompleteUploadRequest}
    (inspection : Inspection) :
    Change w o (.inspecting a req) .nothing (afterInspection a inspection) := by
  cases inspection with
  | missing =>
    -- there is no object to delete
    refine Change.reject ?_ _
    intro r hr
    exact Or.inr (mem_singleton.mp hr)
  | rejected error =>
    refine Change.reject ?_ _
    intro r hr
    simpa using hr
  | queueFull => exact .stop _ rfl
  | accepted contentType thumbnailKey => exact Change.accept _ _
  | image contentType => exact Change.image _

theorem act_change (h : act w o p = some (e, p')) : Change w o p e p' := by
  cases p with
  | createBegun caller req =>
    obtain ⟨rfl, ⟨userID, -, rfl⟩ | ⟨result, rfl⟩⟩ := proceed_cases (some.inj h)
    · exact Change.count
    · exact .stop _ rfl
  | createCounted userID req =>
    simp only [act] at h
    split at h
    · cases h
      exact .stop _ rfl
    · rename_i rows hcreate
      have hfresh := createAttachment_ok hcreate
      rcases attempt_cases (some.inj h) with ⟨rfl, rfl⟩ | ⟨rfl | rfl, rfl⟩
      · exact Change.create _ hfresh
      -- the row is there, though the caller is told that it is not
      · exact Change.create _ hfresh
      · exact .stop _ rfl
  | completeBegun caller req =>
    simp only [act] at h
    split at h
    · cases h
      exact .stop _ rfl
    · split at h
      · cases h
        exact .stop _ rfl
      · rename_i a hfound
        rcases attempt_cases (some.inj h) with ⟨rfl, rfl⟩ | ⟨rfl | rfl, rfl⟩
        · exact Change.process hfound
        -- nobody goes on with this upload; it expires
        · exact Change.processUnheard hfound _
        · exact .stop _ rfl
  | inspecting a req =>
    cases h
    exact afterInspection_change _
  | storingThumbnail a contentType =>
    rcases attempt_cases (some.inj h) with ⟨rfl, rfl⟩ | ⟨htried, rfl⟩
    · exact Change.thumbnail (Or.inl rfl) _
    · exact Change.thumbnail htried _
  | completing a contentType thumbnailKey =>
    simp only [act] at h
    split at h
    · rcases attempt_cases (some.inj h) with ⟨rfl, rfl⟩ | ⟨rfl | rfl, rfl⟩
      · exact Change.complete _
      · exact Change.complete _
      · exact .stop _ rfl
    · cases h
      exact .stop _ rfl
  | discarding a todo error =>
    cases todo with
    | nil =>
      cases h
      exact .stop _ rfl
    | cons r todo =>
      rcases attempt_cases (some.inj h) with ⟨rfl, rfl⟩ | ⟨htried, rfl⟩
      · exact Change.discard (Or.inl rfl)
      · exact Change.discard htried
  | uploading key =>
    cases h
    exact Change.upload _
  | sendBegun caller req =>
    obtain ⟨rfl, ⟨userID, hcheck, rfl⟩ | ⟨result, rfl⟩⟩ := proceed_cases (some.inj h)
    · obtain ⟨_, hrequest, -⟩ := bind_eq_ok.mp hcheck
      exact Change.admitSend (checkSendRequest_ok hrequest)
    · exact .stop _ rfl
  | sendAdmitted userID serverless req =>
    simp only [act] at h
    split at h
    · cases h
      exact .stop _ rfl
    · obtain ⟨rfl, ⟨u, hcheck, rfl⟩ | ⟨result, rfl⟩⟩ := proceed_cases (some.inj h)
      · exact Change.checkSend hcheck
      · exact .stop _ rfl
  | sendChecked userID serverless req =>
    obtain ⟨rfl, ⟨mentions, -, rfl⟩ | ⟨result, rfl⟩⟩ := proceed_cases (some.inj h)
    · exact Change.readySend
    · exact .stop _ rfl
  | sendReady userID req mentions =>
    rcases attempt_cases (some.inj h) with ⟨rfl, rfl⟩ | ⟨htried, rfl⟩
    · exact Change.insert
    · exact Change.insertFail htried
  | rollingBack todo =>
    cases todo with
    | nil =>
      cases h
      exact .stop _ rfl
    | cons id todo =>
      rcases attempt_cases (some.inj h) with ⟨rfl, rfl⟩ | ⟨htried, rfl⟩
      · exact Change.reset (Or.inl rfl)
      · exact Change.reset htried
  | linking req n =>
    rcases attempt_cases (some.inj h) with ⟨rfl, rfl⟩ | ⟨htried, rfl⟩
    · exact Change.link
    · split
      · exact Change.linkAgain htried
      · exact Change.linkGiveUp htried
  | deleteBegun caller channelID =>
    obtain ⟨rfl, ⟨ch, -, rfl⟩ | ⟨result, rfl⟩⟩ := proceed_cases (some.inj h)
    · exact Change.admitDelete
    · exact .stop _ rfl
  | detaching ch =>
    rcases attempt_cases (some.inj h) with ⟨rfl, rfl⟩ | ⟨htried, rfl⟩
    · exact Change.detach (Or.inl rfl)
    · exact Change.detach htried
  | dropping ch =>
    simp only [act] at h
    split at h
    · cases h
      exact Change.dropFail _
    · rename_i db hdrop
      rcases attempt_cases (some.inj h) with ⟨rfl, rfl⟩ | ⟨htried, rfl⟩
      · exact Change.drop hdrop (Or.inl rfl) _
      · exact Change.drop hdrop htried _
  | cleanupBegun =>
    simp only [act] at h
    split at h
    · cases h
      exact .stop _ rfl
    · cases h
      exact Change.findOrphans
  | cleanupFound orphans =>
    cases h
    exact Change.findUnlinked
  | collecting todo =>
    cases todo with
    | nil =>
      cases h
      exact .stop _ rfl
    | cons r todo =>
      rcases attempt_cases (some.inj h) with ⟨rfl, rfl⟩ | ⟨htried, rfl⟩
      · exact Change.collect (Or.inl rfl)
      · exact Change.collect htried
  | downloadBegun caller attachmentID =>
    obtain ⟨rfl, ⟨found, -, rfl⟩ | ⟨result, rfl⟩⟩ := proceed_cases (some.inj h)
    · exact Change.findDownload
    · exact .stop _ rfl
  | downloadFound userID a =>
    simp only [act] at h
    split at h
    · cases h
      exact .stop _ rfl
    · cases hentry : (w.checkAttachmentAccess a userID).2 with
      | none =>
        rw [hentry] at h
        cases h
        exact .stop _ rfl
      | some entry =>
        rw [hentry] at h
        cases h
        exact Change.download hentry _
  | changing db =>
    cases h
    exact Change.change _
  | elapsing seconds =>
    cases h
    exact Change.elapse _
  | sent | dropped | finished => cases h

theorem next_change {w' : World} {others : List Phase} (h : next w others p o = some (w', p')) :
    ∃ e, w' = w.apply e ∧ Change w o p e p' := by
  obtain ⟨⟨e, q⟩, hact, heq⟩ := map_eq_some_iff.mp h
  cases heq
  exact ⟨e, rfl, act_change hact⟩

/-- Which write belongs to which phase. -/
inductive Writes (w : World) (o : Outcome) : Phase → Write → Prop where
  | nothing (p : Phase) : Writes w o p .nothing
  | create {userID : ID} {req : CreateUploadRequest}
      (fresh : ∀ row ∈ w.attachments, row.id ≠ o.newID) :
      Writes w o (.createCounted userID req)
        (.createAttachment (newAttachment w.now o.newID userID req))
  | process {caller : Option ID} {userID : ID} {req : CompleteUploadRequest} {a : Attachment}
      (found : MediaStore.findPending w.attachments req.uploadID userID = some a) :
      Writes w o (.completeBegun caller req) (.transitionToProcessing req.uploadID userID)
  | thumbnail {a : Attachment} {contentType : String} {key : ObjectKey} :
      Writes w o (.storingThumbnail a contentType) (.putObject key)
  | complete {a : Attachment} {contentType : String} {thumbnailKey : Option ObjectKey} :
      Writes w o (.completing a contentType thumbnailKey)
        (.updateAttachmentCompleted a.id o.sizeBytes contentType thumbnailKey)
  | discardObject {a : Attachment} {key : ObjectKey} {todo : List Removal} {error : ConnectError} :
      Writes w o (.discarding a (.object key :: todo) error) (.deleteObject key)
  | discardRow {a : Attachment} {id : ID} {todo : List Removal} {error : ConnectError} :
      Writes w o (.discarding a (.row id :: todo) error) (.deleteAttachment id)
  | upload {key : ObjectKey} : Writes w o (.uploading key) (.putObject key)
  | insert {userID : ID} {req : SendMessageRequest} {mentions : Mentions} :
      Writes w o (.sendReady userID req mentions)
        (.insertMessage (req.message o.newID userID w.now mentions))
  | reset {id : ID} {todo : List ID} :
      Writes w o (.rollingBack (id :: todo)) (.resetAttachmentToPending id)
  | link {req : SendMessageRequest} {n : Nat} :
      Writes w o (.linking req n) (.linkAttachments req.attachmentIDs req.channelID)
  | detach {ch : Channel} : Writes w o (.detaching ch) (.nullifyChannelAttachments ch.id)
  | drop {ch : Channel} {db : DB} (deleted : dropChannel w.db ch = .ok db) :
      Writes w o (.dropping ch) (.setDB db)
  | collectObject {key : ObjectKey} {todo : List Removal} :
      Writes w o (.collecting (.object key :: todo)) (.deleteObject key)
  | collectRow {id : ID} {todo : List Removal} :
      Writes w o (.collecting (.row id :: todo)) (.deleteAttachment id)
  | remember {userID : ID} {a : Attachment} {entry : PermCacheEntry}
      (answered : (w.checkAttachmentAccess a userID).2 = some entry) :
      Writes w o (.downloadFound userID a) (.remember entry)
  | change {db : DB} : Writes w o (.changing db) (.setDB db)
  | elapse {seconds : Nat} : Writes w o (.elapsing seconds) (.elapse seconds)

theorem Write.Tried.writes {tried : Write} (h : tried.Tried e) (hwrites : Writes w o p tried) :
    Writes w o p e := by
  rcases h with rfl | rfl
  · exact hwrites
  -- it failed without a trace
  · exact .nothing p

theorem Change.writes (h : Change w o p e p') : Writes w o p e := by
  cases h with
  | create result fresh => exact Writes.create fresh
  | process found | processUnheard found result => exact Writes.process found
  | thumbnail tried thumbnailKey => exact tried.writes Writes.thumbnail
  | complete result => exact Writes.complete
  | discard tried =>
    rename_i a r todo error
    cases r with
    | object key => exact tried.writes Writes.discardObject
    | row id => exact tried.writes Writes.discardRow
  | upload result => exact Writes.upload
  | insert => exact Writes.insert
  | insertFail tried => exact tried.writes Writes.insert
  | reset tried => exact tried.writes Writes.reset
  | link => exact Writes.link
  | linkAgain tried | linkGiveUp tried => exact tried.writes Writes.link
  | detach tried => exact tried.writes Writes.detach
  | drop deleted tried result => exact tried.writes (Writes.drop deleted)
  | collect tried =>
    rename_i r todo
    cases r with
    | object key => exact tried.writes Writes.collectObject
    | row id => exact tried.writes Writes.collectRow
  | download answered result => exact Writes.remember answered
  | change result => exact Writes.change
  | elapse result => exact Writes.elapse
  | stop | count | accept | image | reject | admitSend | checkSend | readySend | admitDelete
  | dropFail | findOrphans | findUnlinked | findDownload => exact Writes.nothing _

/-! ## Section 2: What a write does to a row -/

/-- The channel of a row is set when it is linked and cleared when the channel goes. -/
inductive Relinks (e : Write) (a a' : Attachment) : Prop where
  | keep (channel : a'.channelID = a.channelID) (linked : a'.linkedAt = a.linkedAt)
  | link (ids : List ID) (c : ID) (write : e = .linkAttachments ids c) (mem : a.id ∈ ids)
      (channel : a'.channelID = some c) (linked : a'.linkedAt ≠ none)
  | detach (c : ID) (write : e = .nullifyChannelAttachments c) (before : a.channelID = some c)
      (channel : a'.channelID = none) (linked : a'.linkedAt = a.linkedAt)

/-- A row is pending, then processing, then completed, and may be pending again. -/
inductive Advances (e : Write) (a a' : Attachment) : Prop where
  | keep (status : a'.status = a.status)
  | process (uploaderID : ID) (write : e = .transitionToProcessing a.id uploaderID)
      (before : a.status = .pending) (status : a'.status = .processing)
  | complete (sizeBytes : Int) (contentType : String) (thumbnailKey : Option ObjectKey)
      (write : e = .updateAttachmentCompleted a.id sizeBytes contentType thumbnailKey)
      (before : a.status = .processing) (status : a'.status = .completed)
  | reset (write : e = .resetAttachmentToPending a.id) (before : a.status = .completed)
      (status : a'.status = .pending)

structure Evolves (e : Write) (a a' : Attachment) : Prop where
  id : a'.id = a.id
  uploader : a'.uploaderID = a.uploaderID
  purpose : a'.uploadPurpose = a.uploadPurpose
  object : a'.objectKey = a.objectKey
  relinks : Relinks e a a'
  advances : Advances e a a'

section Rows

variable {a a' : Attachment}

theorem Evolves.refl (e : Write) (a : Attachment) : Evolves e a a :=
  ⟨rfl, rfl, rfl, rfl, .keep rfl rfl, .keep rfl⟩

variable {f : Attachment → Attachment}

theorem Evolves.ite {cond : Prop} [Decidable cond] (h : cond → Evolves e a (f a)) :
    Evolves e a (if cond then f a else a) := by
  split
  · exact h ‹_›
  · exact .refl e a

theorem evolves_updateWhere {q : Attachment → Bool} (hf : ∀ a, q a = true → Evolves e a (f a))
    {rows : List Attachment} :
    (∀ a' ∈ updateWhere q f rows, ∃ a ∈ rows, Evolves e a a') ∧
      ∀ a ∈ rows, ∃ a' ∈ updateWhere q f rows, Evolves e a a' := by
  constructor
  · intro a' ha'
    obtain ⟨a, ha, rfl⟩ := mem_updateWhere.mp ha'
    exact ⟨a, ha, .ite fun hq => hf a hq⟩
  · intro a ha
    exact ⟨_, mem_updateWhere.mpr ⟨a, ha, rfl⟩, .ite fun hq => hf a hq⟩

theorem evolves_refl (e : Write) (rows : List Attachment) :
    (∀ a' ∈ rows, ∃ a ∈ rows, Evolves e a a') ∧ ∀ a ∈ rows, ∃ a' ∈ rows, Evolves e a a' :=
  ⟨fun a ha => ⟨a, ha, .refl e a⟩, fun a ha => ⟨a, ha, .refl e a⟩⟩

/-- A write that neither adds nor removes a row. -/
theorem evolves_apply (w : World) (e : Write) (hcreate : ∀ a, e ≠ .createAttachment a)
    (hdelete : ∀ id, e ≠ .deleteAttachment id) :
    (∀ a' ∈ (w.apply e).attachments, ∃ a ∈ w.attachments, Evolves e a a') ∧
      ∀ a ∈ w.attachments, ∃ a' ∈ (w.apply e).attachments, Evolves e a a' := by
  cases e with
  | createAttachment a => exact absurd rfl (hcreate a)
  | deleteAttachment id => exact absurd rfl (hdelete id)
  | transitionToProcessing id uploaderID =>
    refine evolves_updateWhere ?_
    intro a hq
    obtain ⟨rfl, -, hpending⟩ := of_decide_eq_true hq
    exact ⟨rfl, rfl, rfl, rfl, .keep rfl rfl, .process _ rfl hpending rfl⟩
  | updateAttachmentCompleted id sizeBytes contentType thumbnailKey =>
    refine evolves_updateWhere ?_
    intro a hq
    obtain ⟨rfl, hprocessing⟩ := of_decide_eq_true hq
    exact ⟨rfl, rfl, rfl, rfl, .keep rfl rfl, .complete _ _ _ rfl hprocessing rfl⟩
  | resetAttachmentToPending id =>
    refine evolves_updateWhere ?_
    intro a hq
    obtain ⟨rfl, hcompleted⟩ := of_decide_eq_true hq
    exact ⟨rfl, rfl, rfl, rfl, .keep rfl rfl, .reset rfl hcompleted rfl⟩
  | linkAttachments ids channelID =>
    refine evolves_updateWhere ?_
    intro a hq
    obtain ⟨hmem, -⟩ := of_decide_eq_true hq
    exact ⟨rfl, rfl, rfl, rfl, .link ids channelID rfl hmem rfl (some_ne_none _), .keep rfl⟩
  | nullifyChannelAttachments channelID =>
    refine evolves_updateWhere ?_
    intro a hq
    exact ⟨rfl, rfl, rfl, rfl, .detach channelID rfl (of_decide_eq_true hq) rfl rfl, .keep rfl⟩
  | nothing | putObject | deleteObject | insertMessage | remember | setDB | elapse =>
    exact evolves_refl _ _

theorem row_of_apply (ha' : a' ∈ (w.apply e).attachments) :
    e = .createAttachment a' ∨ ∃ a ∈ w.attachments, Evolves e a a' := by
  by_cases hcreate : ∃ a, e = .createAttachment a
  · obtain ⟨a, rfl⟩ := hcreate
    rcases mem_append.mp ha' with hold | hnew
    · exact .inr ⟨a', hold, .refl _ _⟩
    · left
      rw [mem_singleton.mp hnew]
  · by_cases hdelete : ∃ id, e = .deleteAttachment id
    · obtain ⟨id, rfl⟩ := hdelete
      exact .inr ⟨a', (mem_deleteWhere.mp ha').1, .refl _ _⟩
    · right
      exact (evolves_apply w e (fun a h => hcreate ⟨a, h⟩) fun id h => hdelete ⟨id, h⟩).1 a' ha'

theorem row_apply (ha : a ∈ w.attachments) (hkept : e ≠ .deleteAttachment a.id) :
    ∃ a' ∈ (w.apply e).attachments, Evolves e a a' := by
  by_cases hcreate : ∃ a, e = .createAttachment a
  · obtain ⟨new, rfl⟩ := hcreate
    exact ⟨a, mem_append_left _ ha, .refl _ _⟩
  · by_cases hdelete : ∃ id, e = .deleteAttachment id
    · obtain ⟨id, rfl⟩ := hdelete
      refine ⟨a, mem_deleteWhere.mpr ⟨ha, ?_⟩, .refl _ _⟩
      refine decide_eq_false fun h => hkept ?_
      rw [h]
    · exact (evolves_apply w e (fun a h => hcreate ⟨a, h⟩) fun id h => hdelete ⟨id, h⟩).2 a ha

theorem unique_apply (hunique : UniqueOn Attachment.id w.attachments)
    (hfresh : ∀ new, e = .createAttachment new → ∀ row ∈ w.attachments, row.id ≠ new.id) :
    UniqueOn Attachment.id (w.apply e).attachments := by
  have hupdate : ∀ (q : Attachment → Bool) (f : Attachment → Attachment), (∀ a, (f a).id = a.id) →
      UniqueOn Attachment.id (updateWhere q f w.attachments) := by
    intro q f hf
    unfold UniqueOn
    rw [map_key_updateWhere hf]
    exact hunique
  cases e with
  | createAttachment a =>
    exact unique_snoc hunique (hfresh a rfl)
  | deleteAttachment id => exact unique_deleteWhere hunique _
  | transitionToProcessing | resetAttachmentToPending | linkAttachments
  | nullifyChannelAttachments => exact hupdate _ _ fun _ => rfl
  | updateAttachmentCompleted id sizeBytes contentType thumbnailKey =>
    exact hupdate _ _ fun _ => rfl
  | nothing | putObject | deleteObject | insertMessage | remember | setDB | elapse => exact hunique

theorem messages_apply {m : Message} (hm : m ∈ w.messages) : m ∈ (w.apply e).messages := by
  cases e with
  | insertMessage msg => exact mem_append_left _ hm
  | nothing | createAttachment | deleteAttachment | transitionToProcessing
  | updateAttachmentCompleted | resetAttachmentToPending | linkAttachments
  | nullifyChannelAttachments | putObject | deleteObject | remember | setDB | elapse => exact hm

end Rows

/-! ## Section 3: Links and messages -/

/-- A message with the attachment was sent in the channel. -/
def SentIn (w : World) (id channelID : ID) : Prop :=
  ∃ m ∈ w.messages, m.channelID = channelID ∧ id ∈ m.attachmentIDs

theorem SentIn.apply {id channelID : ID} (h : SentIn w id channelID) (e : Write) :
    SentIn (w.apply e) id channelID := by
  obtain ⟨m, hm, hsent⟩ := h
  exact ⟨m, messages_apply hm, hsent⟩

/-- The ids are unique, and a row is only linked to channels in which it was sent. -/
structure Linked (w : World) : Prop where
  unique : UniqueOn Attachment.id w.attachments
  marked : ∀ a ∈ w.attachments, a.channelID ≠ none → a.linkedAt ≠ none
  sent : ∀ a ∈ w.attachments, ∀ c, a.channelID = some c → c ≠ "" ∧ SentIn w a.id c

/-- What a call of `SendMessage` knows about its channel. -/
def LinksSent (w : World) : Phase → Prop
  | .sendAdmitted _ _ req | .sendChecked _ _ req | .sendReady _ req _ => req.channelID ≠ ""
  | .linking req _ => req.channelID ≠ "" ∧ ∀ id ∈ req.attachmentIDs, SentIn w id req.channelID
  | .sent req _ => ∀ id ∈ req.attachmentIDs, SentIn w id req.channelID
  | _ => True

section Links

theorem Writes.unique (h : Writes w o p e) (hunique : UniqueOn Attachment.id w.attachments) :
    UniqueOn Attachment.id (w.apply e).attachments := by
  refine unique_apply hunique ?_
  rintro new rfl
  cases h with
  | create fresh => exact fresh

theorem Writes.linked (h : Writes w o p e) (hlinked : Linked w) (hlocal : LinksSent w p) :
    Linked (w.apply e) where
  unique := h.unique hlinked.unique
  marked := by
    intro a' ha' hchannel
    rcases row_of_apply ha' with rfl | ⟨a, ha, hevolves⟩
    · cases h with
      | create fresh => exact absurd rfl hchannel
    · cases hevolves.relinks with
      | keep channel linked =>
        rw [linked]
        rw [channel] at hchannel
        exact hlinked.marked a ha hchannel
      | link ids c write mem channel linked => exact linked
      | detach c write before channel linked => exact absurd channel hchannel
  sent := by
    intro a' ha' c hc
    rcases row_of_apply ha' with rfl | ⟨a, ha, hevolves⟩
    · cases h with
      | create fresh => cases hc
    · rw [hevolves.id]
      cases hevolves.relinks with
      | keep channel linked =>
        obtain ⟨hne, hsent⟩ := hlinked.sent a ha c (channel.symm.trans hc)
        exact ⟨hne, hsent.apply e⟩
      | link ids c' write mem channel linked =>
        -- `SendMessage` links what it has stored
        subst write
        cases h with
        | link =>
          obtain ⟨hne, hsent⟩ := hlocal
          cases channel.symm.trans hc
          exact ⟨hne, (hsent a.id mem).apply _⟩
      | detach c' write before channel linked =>
        rw [channel] at hc
        cases hc

theorem sentIn_insert {userID : ID} {mentions : Mentions} {id : ID} (hid : id ∈ req.attachmentIDs) :
    SentIn (w.apply (.insertMessage (req.message o.newID userID w.now mentions))) id
      req.channelID :=
  ⟨_, mem_append_right _ (mem_singleton.mpr rfl), rfl, hid⟩

theorem Change.linksSent (h : Change w o p e p') (hlocal : LinksSent w p) :
    LinksSent (w.apply e) p' := by
  cases h with
  | admitSend channel => exact channel
  | checkSend | readySend => exact hlocal
  | insert =>
    split
    · exact fun id hid => sentIn_insert hid
    -- from here on the message is there
    · exact ⟨hlocal, fun id hid => sentIn_insert hid⟩
  | link => exact fun id hid => (hlocal.2 id hid).apply _
  | linkGiveUp tried => exact fun id hid => (hlocal.2 id hid).apply e
  | linkAgain tried =>
    obtain ⟨hne, hsent⟩ := hlocal
    exact ⟨hne, fun id hid => (hsent id hid).apply e⟩
  | stop | count | create | process | processUnheard | accept | image | reject | thumbnail
  | complete | discard | upload | insertFail | reset | admitDelete | detach | drop | dropFail
  | findOrphans | findUnlinked | collect | findDownload | download | change | elapse => trivial

theorem LinksSent.apply {q : Phase} (h : LinksSent w q) (e : Write) : LinksSent (w.apply e) q := by
  cases q with
  | linking req n =>
    obtain ⟨hne, hsent⟩ := h
    exact ⟨hne, fun id hid => (hsent id hid).apply e⟩
  | sent req linked => exact fun id hid => (h id hid).apply e
  | _ => exact h

end Links

abbrev LinksInv : State → Prop := Pool.Inv Linked LinksSent (fun _ _ _ => True)

theorem linksInv_next : Pool.NextKeeps next LinksInv := by
  intro sh p others o sh' p' h hnext
  obtain ⟨e, rfl, hchange⟩ := next_change hnext
  have hlocal : LinksSent sh p := h.each p mem_cons_self
  refine h.replace (hchange.writes.linked h.shared hlocal) (hchange.linksSent hlocal) ?_
    (fun _ _ _ => trivial)
  intro q hq hlocalq _
  exact ⟨hlocalq.apply e, trivial⟩

theorem linksInv_exec (db : DB) (sounds : List Sound) (now : Int) (evs : List Event) :
    LinksInv (Run.exec step (initial db sounds now) evs) := by
  refine Pool.keeps_always ?_ ?_ linksInv_next (Pool.Inv.init ?_) evs
  · exact Pool.Inv.perm fun _ _ _ _ => trivial
  · intro sh calls call h
    refine h.cons ?_ (fun _ _ => trivial)
    cases call <;> trivial
  · refine ⟨nodup_nil, ?_, ?_⟩
    · intro a ha
      cases ha
    · intro a ha
      cases ha

end Meza.Media
