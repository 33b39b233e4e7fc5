import Meza.Chat.Sending
import Meza.Lib.Pool
import Meza.Lib.Register

/-! # Editing and deleting at the same time

    `EditMessage` and `DeleteMessage` as any number of calls run them at the same
    time, each query a step. ScyllaDB keeps a timestamp with every column of a
    row, and a write to a column wins over earlier ones; the timestamp is the one
    that the driver gives the query, so it need not be later than those of the
    queries that came before.

    Both handlers read the message, make their checks and then write without a
    condition. What their checks say that look at other tables (membership,
    permissions, blocks, channel keys) is part of the outcome of a step. Cleaning
    up after a deletion touches other tables and cannot fail the call. -/

namespace Meza.Chat.Retraction

open Store Pool Option Run List Table Register
open Register (Cell)

/-! ## Section 1: Rows -/

structure MessageRow where
  channelID : ID
  messageID : ID
  authorID : ID
  replyToID : ID := ""
  createdAt : Int := 0
  type : Nat := 0
  encryptedContent : Cell (List UInt8)
  attachmentIDs : Cell (List ID)
  mentionedUserIDs : Cell (List ID)
  mentionedRoleIDs : Cell (List ID)
  mentionEveryone : Cell Bool
  editedAt : Cell (Option Int)
  keyVersion : Cell Nat
  deleted : Cell Bool
  deriving DecidableEq, Repr

def MessageRow.key (row : MessageRow) : ID × ID := (row.channelID, row.messageID)

/-- What a query gives back. -/
def MessageRow.message (row : MessageRow) : Message :=
  { channelID := row.channelID
    messageID := row.messageID
    authorID := row.authorID
    encryptedContent := row.encryptedContent.value
    attachmentIDs := row.attachmentIDs.value
    replyToID := row.replyToID
    mentionedUserIDs := row.mentionedUserIDs.value
    mentionedRoleIDs := row.mentionedRoleIDs.value
    mentionEveryone := row.mentionEveryone.value
    createdAt := row.createdAt
    editedAt := row.editedAt.value
    deleted := row.deleted.value
    keyVersion := row.keyVersion.value
    type := row.type }

/-- The row of a message as `InsertMessage` writes it. -/
def MessageRow.inserted (timestamp : Int) (m : Message) : MessageRow :=
  { channelID := m.channelID
    messageID := m.messageID
    authorID := m.authorID
    replyToID := m.replyToID
    createdAt := m.createdAt
    type := m.type
    encryptedContent := { value := m.encryptedContent, writtenAt := timestamp }
    attachmentIDs := { value := m.attachmentIDs, writtenAt := timestamp }
    mentionedUserIDs := { value := m.mentionedUserIDs, writtenAt := timestamp }
    mentionedRoleIDs := { value := m.mentionedRoleIDs, writtenAt := timestamp }
    mentionEveryone := { value := m.mentionEveryone, writtenAt := timestamp }
    editedAt := { value := none, writtenAt := timestamp }
    keyVersion := { value := m.keyVersion, writtenAt := timestamp }
    deleted := { value := false, writtenAt := timestamp } }

instance decidableLTOptionInt : DecidableLT (Option Int) :=
  inferInstanceAs (DecidableRel (Option.lt (· < ·)))

/-- The columns that `EditMessage` sets. -/
def MessageRow.edit (timestamp : Int) (req : EditMessageRequest) (now : Int)
    (mentions : Mentions) (row : MessageRow) : MessageRow :=
  { row with
    encryptedContent := row.encryptedContent.write timestamp req.encryptedContent
    mentionedUserIDs := row.mentionedUserIDs.write timestamp mentions.userIDs
    mentionedRoleIDs := row.mentionedRoleIDs.write timestamp mentions.roleIDs
    mentionEveryone := row.mentionEveryone.write timestamp mentions.everyone
    editedAt := row.editedAt.write timestamp (some now)
    keyVersion := row.keyVersion.write timestamp req.keyVersion }

theorem edit_key (timestamp : Int) (req : EditMessageRequest) (now : Int) (mentions : Mentions)
    (row : MessageRow) : (row.edit timestamp req now mentions).key = row.key := rfl

/-- The columns that `DeleteMessage` sets. -/
def MessageRow.delete (timestamp : Int) (row : MessageRow) : MessageRow :=
  { row with
    deleted := row.deleted.write timestamp true
    encryptedContent := row.encryptedContent.write timestamp []
    attachmentIDs := row.attachmentIDs.write timestamp [] }

theorem delete_key (timestamp : Int) (row : MessageRow) : (row.delete timestamp).key = row.key :=
  rfl

abbrev Rows : Type := List MessageRow

def getRow (rows : Rows) (channelID messageID : ID) : Option MessageRow :=
  lookup MessageRow.key (channelID, messageID) rows

/-- `WHERE channel_id = ? AND message_id = ?`. Without such a row ScyllaDB would insert
    one, but a handler only writes to a row that it has read, and rows are not removed. -/
def updateRow (channelID messageID : ID) (f : MessageRow → MessageRow) (rows : Rows) : Rows :=
  updateWhere (fun row => row.key = (channelID, messageID)) f rows

variable {f : MessageRow → MessageRow}

theorem getRow_updateRow (hf : ∀ row, (f row).key = row.key) (rows : Rows)
    (channelID messageID c m : ID) :
    getRow (updateRow channelID messageID f rows) c m = (getRow rows c m).map fun row =>
        if row.key = (channelID, messageID) then f row else row := by
  unfold getRow updateRow
  rw [lookup_updateWhere hf]
  simp only [decide_eq_true_eq]

/-! ## Section 2: Calls and phases -/

structure DeleteMessageRequest where
  channelID : ID
  messageID : ID
  deriving DecidableEq, Repr

inductive Call where
  | editMessage (caller : Option ID) (req : EditMessageRequest)
  | deleteMessage (caller : Option ID) (req : DeleteMessageRequest)

inductive Phase where
  /-- The request's own fields, then the channel -/
  | editBegun (caller : Option ID) (req : EditMessageRequest)
  /-- `GetMessage` -/
  | editAdmitted (userID : ID) (serverless : Bool) (req : EditMessageRequest)
  /-- The permission, the channel's keys and the mentions -/
  | editFound (userID : ID) (serverless : Bool) (req : EditMessageRequest)
  /-- `UPDATE messages SET encrypted_content = ?, ...` -/
  | editChecked (req : EditMessageRequest) (mentions : Mentions)
  | edited (req : EditMessageRequest) (result : Except ConnectError Unit)
  /-- The request's own fields, then the channel -/
  | deleteBegun (caller : Option ID) (req : DeleteMessageRequest)
  /-- `GetMessage` -/
  | deleteAdmitted (userID : ID) (serverless : Bool) (req : DeleteMessageRequest)
  /-- Somebody else's message; the permission to manage messages -/
  | deleteFound (req : DeleteMessageRequest)
  /-- `UPDATE messages SET deleted = true, ...` -/
  | deleteChecked (req : DeleteMessageRequest)
  | deleted (req : DeleteMessageRequest) (result : Except ConnectError Unit)

def Phase.begin : Call → Phase
  | .editMessage caller req => .editBegun caller req
  | .deleteMessage caller req => .deleteBegun caller req

structure Outcome where
  /-- What the checks say that look at other tables. -/
  verdict : Except ConnectError Unit := .ok ()
  serverless : Bool := false
  mayMentionEveryone : Bool := false
  now : Int := 0
  /-- The time that the driver gives a write. -/
  timestamp : Int := 0
  /-- The query returns an error. -/
  failed : Bool := false
  /-- A write that returns an error may have been carried out. -/
  applied : Bool := false

/-- The write reaches the row. -/
def Outcome.carriesOut (o : Outcome) : Bool := !o.failed || o.applied

/-! ## Section 3: Steps -/

def checkIDs (channelID messageID : ID) : Except ConnectError Unit :=
  rejectIf (channelID = "" ∨ messageID = "") .invalidArgument
    "channel_id and message_id are required"

def checkEditRequest (caller : Option ID) (req : EditMessageRequest) :
    Except ConnectError ID := do
  let userID ← authenticate caller
  checkIDs req.channelID req.messageID
  checkContent req.encryptedContent
  return userID

def checkDeleteRequest (caller : Option ID) (req : DeleteMessageRequest) :
    Except ConnectError ID := do
  let userID ← authenticate caller
  checkIDs req.channelID req.messageID
  return userID

def getMessage (o : Outcome) (rows : Rows) (channelID messageID : ID) : Option Message :=
  if o.failed then none else (getRow rows channelID messageID).map MessageRow.message

/-- The message to delete, and whether it is the user's own. -/
def checkDeletable (userID : ID) (serverless : Bool) (msg : Option Message) :
    Except ConnectError Bool :=
  match msg with
  | none => .error { code := .notFound, message := "message not found" }
  | some msg => do
    rejectIf (msg.deleted = true) .notFound "message not found"
    rejectIf (msg.authorID ≠ userID ∧ serverless = true) .permissionDenied "not the message author"
    return decide (msg.authorID = userID)

/-- Carries out a write, or not, and ends the call. -/
def finish (o : Outcome) (rows : Rows) (f : Rows → Rows) (k : Except ConnectError Unit → Phase) :
    Rows × Phase :=
  (if o.carriesOut then f rows else rows, k (if o.failed then .error internalError else .ok ()))

def nextStep (rows : Rows) (o : Outcome) : Phase → Option (Rows × Phase)
  | .editBegun caller req =>
    some (Pool.answer (fun e => .edited req (.error e)) rows
      (checkEditRequest caller req >>= fun userID => o.verdict.map fun _ => userID)
      fun userID => .editAdmitted userID o.serverless req)
  | .editAdmitted userID serverless req =>
    some (Pool.answer (fun e => .edited req (.error e)) rows
      (checkEditable userID (getMessage o rows req.channelID req.messageID))
      fun _ => .editFound userID serverless req)
  | .editFound userID serverless req =>
    some (Pool.answer (fun e => .edited req (.error e)) rows (o.verdict >>= fun _ =>
        sanitizeMentions userID serverless o.mayMentionEveryone req.mentions)
      fun mentions => .editChecked req mentions)
  | .editChecked req mentions =>
    -- whether the message has been deleted since is not asked
    some (finish o rows
      (updateRow req.channelID req.messageID (·.edit o.timestamp req o.now mentions))
      fun result => .edited req result)
  | .deleteBegun caller req =>
    some (Pool.answer (fun e => .deleted req (.error e)) rows
      (checkDeleteRequest caller req >>= fun userID => o.verdict.map fun _ => userID)
      fun userID => .deleteAdmitted userID o.serverless req)
  | .deleteAdmitted userID serverless req =>
    some (Pool.answer (fun e => .deleted req (.error e)) rows
      (checkDeletable userID serverless (getMessage o rows req.channelID req.messageID))
      -- the permission is only needed for somebody else's message
      fun own => if own then .deleteChecked req else .deleteFound req)
  | .deleteFound req =>
    some (Pool.answer (fun e => .deleted req (.error e)) rows o.verdict
      fun _ => .deleteChecked req)
  | .deleteChecked req =>
    some (finish o rows (updateRow req.channelID req.messageID (·.delete o.timestamp))
      fun result => .deleted req result)
  | .edited _ _ | .deleted _ _ => none

def next (rows : Rows) (_ : List Phase) (p : Phase) (o : Outcome) : Option (Rows × Phase) :=
  nextStep rows o p

abbrev State : Type := Pool.State Rows Phase

abbrev Event : Type := Pool.Event Call Outcome

/-- Any interleaving. -/
abbrev step : State → Event → State := Pool.step .begin next

/-- Nothing has been called yet. -/
def initial (rows : Rows) : State := { shared := rows, calls := [] }

/-! ## Section 4: What a step changes -/

inductive Change (rows : Rows) (o : Outcome) : Phase → Rows → Phase → Prop where
  | refuseEdit {p : Phase} {req : EditMessageRequest} (e : ConnectError) :
      Change rows o p rows (.edited req (.error e))
  | admitEdit {caller : Option ID} {req : EditMessageRequest} {userID : ID}
      (content : req.encryptedContent ≠ []) :
      Change rows o (.editBegun caller req) rows (.editAdmitted userID o.serverless req)
  | findEdit {userID : ID} {serverless : Bool} {req : EditMessageRequest} :
      Change rows o (.editAdmitted userID serverless req) rows (.editFound userID serverless req)
  | checkEdit {userID : ID} {serverless : Bool} {req : EditMessageRequest} {mentions : Mentions} :
      Change rows o (.editFound userID serverless req) rows (.editChecked req mentions)
  | edit {req : EditMessageRequest} {mentions : Mentions} (result : Except ConnectError Unit)
      (carriesOut : o.carriesOut = true) :
      Change rows o (.editChecked req mentions)
        (updateRow req.channelID req.messageID (·.edit o.timestamp req o.now mentions) rows)
        (.edited req result)
  | refuseDelete {p : Phase} {req : DeleteMessageRequest} (e : ConnectError) :
      Change rows o p rows (.deleted req (.error e))
  | admitDelete {caller : Option ID} {req : DeleteMessageRequest} {userID : ID} :
      Change rows o (.deleteBegun caller req) rows (.deleteAdmitted userID o.serverless req)
  | findDelete {userID : ID} {serverless : Bool} {req : DeleteMessageRequest} (own : Bool)
      (there : getRow rows req.channelID req.messageID ≠ none) :
      Change rows o (.deleteAdmitted userID serverless req) rows
        (if own then .deleteChecked req else .deleteFound req)
  | permitDelete {req : DeleteMessageRequest} :
      Change rows o (.deleteFound req) rows (.deleteChecked req)
  | delete {req : DeleteMessageRequest} (result : Except ConnectError Unit)
      (carriesOut : o.carriesOut = true) :
      Change rows o (.deleteChecked req)
        (updateRow req.channelID req.messageID (·.delete o.timestamp) rows)
        (.deleted req result)

variable {req : EditMessageRequest}

theorem checkEditRequest_ok {caller : Option ID} {userID : ID}
    (h : checkEditRequest caller req = .ok userID) : req.encryptedContent ≠ [] := by
  obtain ⟨_, -, h⟩ := bind_eq_ok.mp h
  obtain ⟨_, -, h⟩ := bind_eq_ok.mp h
  obtain ⟨_, hcontent, -⟩ := bind_eq_ok.mp h
  obtain ⟨_, hempty, -⟩ := bind_eq_ok.mp hcontent
  exact rejectIf_ok.mp hempty

theorem checkDeletable_ok {userID : ID} {serverless own : Bool} {msg : Option Message}
    (h : checkDeletable userID serverless msg = .ok own) : msg ≠ none := by
  rintro rfl
  cases h

variable {channelID messageID : ID} {o : Outcome} {rows : Rows}

theorem getRow_of_getMessage (h : getMessage o rows channelID messageID ≠ none) :
    getRow rows channelID messageID ≠ none := by
  intro hnone
  apply h
  unfold getMessage
  rw [hnone]
  simp

theorem finish_cases {rows' : Rows} {f : Rows → Rows} {k : Except ConnectError Unit → Phase}
    {p : Phase} (h : finish o rows f k = (rows', p)) :
    (rows' = rows ∧ p = k (.error internalError)) ∨
      (o.carriesOut = true ∧ rows' = f rows ∧ ∃ result, p = k result) := by
  obtain ⟨rfl, rfl⟩ := Prod.mk.inj h
  by_cases hout : o.carriesOut = true
  · right
    exact ⟨hout, if_pos hout, _, rfl⟩
  · left
    have hfailed : o.failed = true := by
      unfold Outcome.carriesOut at hout
      simp only [Bool.or_eq_true, Bool.not_eq_true', not_or, Bool.not_eq_false] at hout
      exact hout.1
    exact ⟨if_neg hout, by rw [if_pos hfailed]⟩

theorem next_change {rows' : Rows} {others : List Phase} {p p' : Phase}
    (h : next rows others p o = some (rows', p')) : Change rows o p rows' p' := by
  cases p with
  | editBegun caller req =>
    obtain ⟨rfl, ⟨userID, hcheck, rfl⟩ | ⟨e, rfl⟩⟩ := answer_cases (some.inj h)
    · obtain ⟨_, hrequest, -⟩ := bind_eq_ok.mp hcheck
      exact .admitEdit (checkEditRequest_ok hrequest)
    · exact .refuseEdit e
  | editAdmitted userID serverless req =>
    obtain ⟨rfl, ⟨msg, -, rfl⟩ | ⟨e, rfl⟩⟩ := answer_cases (some.inj h)
    · exact .findEdit
    · exact .refuseEdit e
  | editFound userID serverless req =>
    obtain ⟨rfl, ⟨mentions, -, rfl⟩ | ⟨e, rfl⟩⟩ := answer_cases (some.inj h)
    · exact .checkEdit
    · exact .refuseEdit e
  | editChecked req mentions =>
    rcases finish_cases (some.inj h) with ⟨rfl, rfl⟩ | ⟨hout, rfl, result, rfl⟩
    · exact .refuseEdit _
    · exact .edit result hout
  | deleteBegun caller req =>
    obtain ⟨rfl, ⟨userID, -, rfl⟩ | ⟨e, rfl⟩⟩ := answer_cases (some.inj h)
    · exact .admitDelete
    · exact .refuseDelete e
  | deleteAdmitted userID serverless req =>
    obtain ⟨rfl, ⟨own, hcheck, rfl⟩ | ⟨e, rfl⟩⟩ := answer_cases (some.inj h)
    · exact .findDelete own (getRow_of_getMessage (checkDeletable_ok hcheck))
    · exact .refuseDelete e
  | deleteFound req =>
    obtain ⟨rfl, ⟨_, -, rfl⟩ | ⟨e, rfl⟩⟩ := answer_cases (some.inj h)
    · exact .permitDelete
    · exact .refuseDelete e
  | deleteChecked req =>
    rcases finish_cases (some.inj h) with ⟨rfl, rfl⟩ | ⟨hout, rfl, result, rfl⟩
    · exact .refuseDelete _
    · exact .delete result hout
  | edited | deleted => cases h

/-! ## Section 5: Retracted messages -/

/-- Marked deleted, and nothing of the content is left. -/
structure MessageRow.Retracted (row : MessageRow) : Prop where
  deleted : row.deleted.value = true
  content : row.encryptedContent.value = []
  attachments : row.attachmentIDs.value = []

/-- A deletion at this time wins over every column that it has to change. -/
structure MessageRow.Older (row : MessageRow) (timestamp : Int) : Prop where
  deleted : row.deleted.value = true ∨ row.deleted.writtenAt ≤ timestamp
  content : row.encryptedContent.value = [] ∨ row.encryptedContent.writtenAt < timestamp
  attachments : row.attachmentIDs.value = [] ∨ row.attachmentIDs.writtenAt < timestamp

instance (row : MessageRow) : Decidable row.Retracted :=
  decidable_of_iff (row.deleted.value = true ∧ row.encryptedContent.value = [] ∧
      row.attachmentIDs.value = [])
    ⟨fun h => ⟨h.1, h.2.1, h.2.2⟩, fun h => ⟨h.deleted, h.content, h.attachments⟩⟩

instance (row : MessageRow) (timestamp : Int) : Decidable (row.Older timestamp) :=
  decidable_of_iff ((row.deleted.value = true ∨ row.deleted.writtenAt ≤ timestamp) ∧
      (row.encryptedContent.value = [] ∨ row.encryptedContent.writtenAt < timestamp) ∧
      (row.attachmentIDs.value = [] ∨ row.attachmentIDs.writtenAt < timestamp))
    ⟨fun h => ⟨h.1, h.2.1, h.2.2⟩, fun h => ⟨h.deleted, h.content, h.attachments⟩⟩

section Rows

variable {row : MessageRow} {timestamp now : Int} {mentions : Mentions}

theorem delete_retracted_iff : (row.delete timestamp).Retracted ↔ row.Older timestamp := by
  -- true is the larger value and wins a tie, an empty column loses it
  have hdeleted : (row.deleted.write timestamp true).value = true ↔ _ :=
    write_greatest (by decide)
  have hcontent : (row.encryptedContent.write timestamp []).value = [] ↔ _ :=
    write_least not_lt_nil
  have hattachments : (row.attachmentIDs.write timestamp []).value = [] ↔ _ :=
    write_least not_lt_nil
  constructor
  · intro h
    exact ⟨hdeleted.mp h.deleted, hcontent.mp h.content, hattachments.mp h.attachments⟩
  · intro h
    exact ⟨hdeleted.mpr h.deleted, hcontent.mpr h.content, hattachments.mpr h.attachments⟩

/-- An edit brings content back unless its timestamp is earlier. -/
theorem edit_retracted_iff (hrow : row.Retracted) (hcontent : req.encryptedContent ≠ []) :
    (row.edit timestamp req now mentions).Retracted ↔
      timestamp < row.encryptedContent.writtenAt := by
  -- any content is larger than none
  have hlt : row.encryptedContent.value < req.encryptedContent := by
    rw [hrow.content]
    obtain ⟨b, bs, heq⟩ := exists_cons_of_ne_nil hcontent
    rw [heq]
    exact nil_lt_cons b bs
  have hne : req.encryptedContent ≠ row.encryptedContent.value := by
    rw [hrow.content]
    exact hcontent
  have hover : (row.encryptedContent.write timestamp req.encryptedContent).value =
      row.encryptedContent.value ↔ timestamp < row.encryptedContent.writtenAt :=
    write_over hlt hne
  rw [hrow.content] at hover
  rw [← hover]
  exact ⟨fun h => h.content, fun h => ⟨hrow.deleted, h, hrow.attachments⟩⟩

end Rows

/-- The message of this request is retracted. -/
def Gone (rows : Rows) (channelID messageID : ID) : Prop :=
  ∃ row, getRow rows channelID messageID = some row ∧ row.Retracted

instance (rows : Rows) (channelID messageID : ID) : Decidable (Gone rows channelID messageID) :=
  inferInstanceAs (Decidable (∃ _ ∈ getRow rows channelID messageID, _))

section Updates

variable {c m : ID}

theorem gone_updateRow (hf : ∀ row, (f row).key = row.key)
    (h : Gone rows c m) (hkeep : ∀ row, getRow rows channelID messageID = some row → row.Retracted →
    (f row).Retracted) : Gone (updateRow channelID messageID f rows) c m := by
  obtain ⟨row, hrow, hretracted⟩ := h
  have hcm : row.key = (c, m) := (mem_of_lookup hrow).2
  unfold Gone
  -- the row is the one that is written, or it stays as it is
  rw [getRow_updateRow hf, hrow]
  by_cases hkey : row.key = (channelID, messageID)
  · obtain ⟨rfl, rfl⟩ := Prod.mk.inj (hcm.symm.trans hkey)
    refine ⟨f row, ?_, hkeep row hrow hretracted⟩
    rw [map_some, if_pos hkey]
  · refine ⟨row, ?_, hretracted⟩
    rw [map_some, if_neg hkey]

theorem gone_edit {mentions : Mentions} (h : Gone rows c m) (hcontent : req.encryptedContent ≠ [])
    (hearlier : ∀ row, getRow rows req.channelID req.messageID = some row →
      row.deleted.value = true → o.timestamp < row.encryptedContent.writtenAt) :
    Gone (updateRow req.channelID req.messageID (·.edit o.timestamp req o.now mentions) rows)
      c m := by
  refine gone_updateRow (edit_key _ _ _ _) h ?_
  intro row hrow hretracted
  exact (edit_retracted_iff hretracted hcontent).mpr (hearlier row hrow hretracted.deleted)

theorem gone_delete {timestamp : Int} (h : Gone rows c m) :
    Gone (updateRow channelID messageID (·.delete timestamp) rows) c m := by
  refine gone_updateRow (delete_key _) h ?_
  intro row _ hretracted
  have holder : row.Older timestamp :=
    ⟨.inl hretracted.deleted, .inl hretracted.content, .inl hretracted.attachments⟩
  exact delete_retracted_iff.mpr holder

theorem gone_of_delete {timestamp : Int} (hthere : getRow rows c m ≠ none)
    (holder : ∀ row, getRow rows c m = some row → row.Older timestamp) :
    Gone (updateRow c m (·.delete timestamp) rows) c m := by
  obtain ⟨row, hrow⟩ := ne_none_iff_exists'.mp hthere
  have hkey : row.key = (c, m) := (mem_of_lookup hrow).2
  unfold Gone
  rw [getRow_updateRow (delete_key _), hrow]
  refine ⟨row.delete timestamp, ?_, delete_retracted_iff.mpr (holder row hrow)⟩
  rw [map_some, if_pos hkey]

end Updates

/-! ## Section 6: Runs -/

/-- No edit overwrites a message that has been deleted, and every deletion wins. -/
def WritesInOrder (rows : Rows) (_ : List Phase) (p : Phase) (o : Outcome) : Prop :=
  match p with
  | .editChecked req _ =>
    o.carriesOut = true → ∀ row, getRow rows req.channelID req.messageID = some row →
      row.deleted.value = true → o.timestamp < row.encryptedContent.writtenAt
  | .deleteChecked req =>
    o.carriesOut = true → ∀ row, getRow rows req.channelID req.messageID = some row →
      row.Older o.timestamp
  | _ => True

instance (rows : Rows) (others : List Phase) (o : Outcome) :
    ∀ p, Decidable (WritesInOrder rows others p o)
  | .editChecked _ _ | .deleteChecked _ => inferInstanceAs (Decidable (_ → _))
  | .editBegun _ _ | .editAdmitted _ _ _ | .editFound _ _ _ | .edited _ _ | .deleteBegun _ _
  | .deleteAdmitted _ _ _ | .deleteFound _ | .deleted _ _ => isTrue trivial

/-- What a call relies on. -/
def Local (rows : Rows) : Phase → Prop
  | .editAdmitted _ _ req | .editFound _ _ req | .editChecked req _ => req.encryptedContent ≠ []
  | .deleteFound req | .deleteChecked req => getRow rows req.channelID req.messageID ≠ none
  | .deleted req (.ok _) => Gone rows req.channelID req.messageID
  | _ => True

abbrev RetractionInv : State → Prop := Pool.Inv (fun _ => True) Local (fun _ _ _ => True)

section Steps

variable {rows' : Rows} {others : List Phase} {p p' : Phase}

theorem Change.keeps_own (h : Change rows o p rows' p') (hlocal : Local rows p)
    (horder : WritesInOrder rows others p o) : Local rows' p' := by
  cases h with
  | refuseEdit | edit | refuseDelete | admitDelete => trivial
  | admitEdit content => exact content
  | findEdit | checkEdit | permitDelete => exact hlocal
  | findDelete own there =>
    cases own with
    | false | true => exact there
  | delete result carriesOut =>
    -- nothing is promised of a deletion that has failed
    cases result with
    | error e => trivial
    | ok u => exact gone_of_delete hlocal (horder carriesOut)

theorem Change.keeps_row (h : Change rows o p rows' p') {c m : ID} (hrow : getRow rows c m ≠ none) :
    getRow rows' c m ≠ none := by
  cases h with
  | edit result carriesOut =>
    rw [getRow_updateRow (edit_key _ _ _ _)]
    simpa using hrow
  | delete result carriesOut =>
    rw [getRow_updateRow (delete_key _)]
    simpa using hrow
  | refuseEdit | admitEdit | findEdit | checkEdit | refuseDelete | admitDelete | findDelete
  | permitDelete => exact hrow

theorem Change.keeps_gone (h : Change rows o p rows' p') (hlocal : Local rows p)
    (horder : WritesInOrder rows others p o) {c m : ID} (hgone : Gone rows c m) :
    Gone rows' c m := by
  cases h with
  | edit result carriesOut => exact gone_edit hgone hlocal (horder carriesOut)
  | delete result carriesOut => exact gone_delete hgone
  | refuseEdit | admitEdit | findEdit | checkEdit | refuseDelete | admitDelete | findDelete
  | permitDelete => exact hgone

theorem Change.keeps_other (h : Change rows o p rows' p') (hlocal : Local rows p)
    (horder : WritesInOrder rows others p o) {q : Phase} (hq : Local rows q) : Local rows' q := by
  cases q with
  | editAdmitted | editFound | editChecked => exact hq
  | deleteFound | deleteChecked => exact h.keeps_row hq
  | deleted req result =>
    cases result with
    | error e => trivial
    | ok u => exact h.keeps_gone hlocal horder hq
  | editBegun | edited | deleteBegun | deleteAdmitted => trivial

end Steps

theorem retractionInv_next : Pool.AllowedKeeps WritesInOrder next RetractionInv := by
  intro sh p others o sh' p' h horder hnext
  have hchange := next_change hnext
  have hlocal : Local sh p := h.each p mem_cons_self
  refine h.replace trivial (hchange.keeps_own hlocal horder) ?_ (fun _ _ _ => trivial)
  intro q hq hlocalq _
  exact ⟨hchange.keeps_other hlocal horder hlocalq, trivial⟩

theorem retractionInv_exec {evs : List Event}
    (hrun : Guarded step (Pool.Allows (fun _ _ => True) WritesInOrder) (initial rows) evs) :
    RetractionInv (exec step (initial rows) evs) := by
  refine Pool.keeps_exec ?_ ?_ retractionInv_next (Pool.Inv.init trivial) hrun
  · exact Inv.perm fun _ _ _ _ => trivial
  · intro sh calls call h _
    refine h.cons ?_ (fun _ _ => trivial)
    cases call with
    | editMessage | deleteMessage => trivial

/-- Once `DeleteMessage` has succeeded the message is gone in every later state, if no
    edit overwrites a deleted message and every deletion wins over what is stored. -/
theorem gone_run {rows : Rows} {pre post : List Event}
    (hrun : Guarded step (Pool.Allows (fun _ _ => True) WritesInOrder) (initial rows)
      (pre ++ post)) (req : DeleteMessageRequest)
    (hdeleted : .deleted req (.ok ()) ∈ (exec step (initial rows) pre).calls) :
    Gone (exec step (initial rows) (pre ++ post)).shared req.channelID req.messageID := by
  have hinv := retractionInv_exec hrun
  -- a call that has returned stays in the pool
  have hstill : .deleted req (.ok ()) ∈ (exec step (initial rows) (pre ++ post)).calls := by
    rw [exec_append]
    exact Pool.mem_exec_of_finished (fun _ _ _ => rfl) hdeleted post
  exact hinv.each _ hstill

/-- Ann's message, written at time 10. -/
def annsMessage : Rows :=
  [.inserted 10
    { channelID := "c1", messageID := "m1", authorID := "ann", encryptedContent := [1] }]

def annsEdit : EditMessageRequest :=
  { channelID := "c1", messageID := "m1", encryptedContent := [2], keyVersion := 1 }

def annsDeletion : DeleteMessageRequest := { channelID := "c1", messageID := "m1" }

/-- Ann edits from one device and deletes from another. The edit has read the message when
    the deletion begins, and it has only its write left when the deletion has succeeded. -/
def deleteWhileEditing : List Event :=
  [.start (.editMessage (some "ann") annsEdit), .advance 0 {}, .advance 0 {}, .advance 0 {},
    .start (.deleteMessage (some "ann") annsDeletion), .advance 1 {}, .advance 1 {},
    .advance 1 { timestamp := 20 }]

theorem gone_run_annDeletes :
    Gone (exec step (initial annsMessage)
      (deleteWhileEditing ++ [.advance 0 { timestamp := 15 }])).shared "c1" "m1" := by
  have hrun : Guarded step (Pool.Allows (fun _ _ => True) WritesInOrder)
      (initial annsMessage) (deleteWhileEditing ++ [.advance 0 { timestamp := 15 }]) := by
    decide +kernel
  exact gone_run hrun annsDeletion (mem_iff_getElem?.mpr ⟨1, rfl⟩)

/-- The late write fills the deleted message again. -/
theorem annEdits_restored :
    .deleted annsDeletion (.ok ()) ∈
        (exec step (initial annsMessage) deleteWhileEditing).calls ∧
      ¬ Gone (exec step (initial annsMessage)
        (deleteWhileEditing ++ [.advance 0 { timestamp := 21 }])).shared "c1" "m1" := by
  refine ⟨mem_iff_getElem?.mpr ⟨1, rfl⟩, ?_⟩
  decide +kernel

end Meza.Chat.Retraction
