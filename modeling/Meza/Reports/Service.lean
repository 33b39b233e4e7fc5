import Mathlib.Data.Prod.Lex
import Meza.Reports.Resolving

/-! # The report service

    `ReportMessage`, `ReportUser`, `ListReports` and `ResolveReport`, one
    request at a time. What `ReportMessage` does before it inserts the report
    is modelled in `Meza.Chat.Messages`.

    A report is routed to a queue when it is filed; who may list and resolve the
    reports of a queue is asked when somebody does. -/

namespace Meza.Reports

open Store Permissions Chat Run Action

/-! ## Section 1: The store -/

/-- `ReportStore.ResolveReport`, with nothing else going on. -/
def storeResolve (sh : Shared) (req : ResolveRequest) (now : Int) (newID : ID) :
    Except ReportError (ReportRow × Shared) :=
  match Table.lookup ReportRow.id req.reportID sh.rows with
  | none => .error .notFound
  | some row =>
    match transition row.status req.action with
    | none => .error .invalidTransition
    | some newStatus =>
      let row' := row.resolve newStatus now
      if updateViolates sh.rows row' then .error .alreadyExists
      else if noteChecked req.note = false then .error .failed
      else .ok (row', commitResolution sh row'
        { id := newID, reportID := req.reportID, moderatorID := req.moderatorID
          action := req.action, note := nilIfEmpty req.note, createdAt := now })

/-- `ReportStore.CreateReport`, with nothing else going on. -/
def storeCreate (sh : Shared) (opts : CreateReportOpts) (now : Int) :
    Except ReportError (ReportRow × Shared) :=
  let row := opts.row now
  if row.checked = false then .error .failed
  else if insertViolates sh.rows row then .error .alreadyExists
  else .ok (row, insertReport sh row)

/-- A call that runs alone. -/
def alone (sh : Shared) (call : Call) (o : Outcome) : State :=
  exec step { shared := sh, calls := [] }
    [.start call, .advance 0 o, .advance 0 o, .advance 0 o, .advance 0 o, .advance 0 o]

/-- What a call that ran alone has left. -/
def finished (sh : Shared) (ok : ReportRow → Phase) :
    Except ReportError (ReportRow × Shared) → State
  | .ok (row, sh') => { shared := sh', calls := [ok row] }
  | .error e => { shared := sh, calls := [.refused e] }

theorem awaits_nil (rows : List ReportRow) (r : ReportRow) : awaits rows [] r = false := rfl

theorem lockedBy_nil (reportID : ID) : lockedBy [] reportID = false := rfl

theorem alone_createReport (sh : Shared) (opts : CreateReportOpts) (now : Int) (newID : ID) :
    alone sh (.createReport opts) { now, newID } =
      finished sh .created (storeCreate sh opts now) := by
  unfold storeCreate
  by_cases hchecked : (opts.row now).checked = false
  · simp [alone, finished, exec, Pool.step, next, createStep, Phase.begin, hchecked]
  · by_cases hviolates : insertViolates sh.rows (opts.row now) = true
    · simp [alone, finished, exec, Pool.step, next, createStep, Phase.begin, hchecked,
        hviolates, awaits_nil]
    · simp [alone, finished, exec, Pool.step, next, createStep, Phase.begin, hchecked,
        hviolates, awaits_nil]

theorem alone_resolveReport (sh : Shared) (req : ResolveRequest) (now : Int) (newID : ID) :
    alone sh (.resolveReport req) { now, newID } =
      finished sh .resolved (storeResolve sh req now newID) := by
  unfold storeResolve
  rcases hlookup : Table.lookup ReportRow.id req.reportID sh.rows with _ | row
  · simp [alone, finished, exec, Pool.step, next, Phase.begin, hlookup, lockedBy_nil]
  · rcases htransition : transition row.status req.action with _ | status
    · simp [alone, finished, exec, Pool.step, next, updateStep, Phase.begin, hlookup,
        lockedBy_nil, htransition]
    · by_cases hviolates : updateViolates sh.rows (row.resolve status now) = true
      · simp [alone, finished, exec, Pool.step, next, updateStep, Phase.begin, hlookup,
          lockedBy_nil, awaits_nil, htransition, hviolates]
      · by_cases hnote : noteChecked req.note = false
        · simp [alone, finished, exec, Pool.step, next, updateStep, Phase.begin, hlookup,
            lockedBy_nil, awaits_nil, htransition, hviolates, hnote]
        · simp [alone, finished, exec, Pool.step, next, updateStep, Phase.begin, hlookup,
            lockedBy_nil, awaits_nil, htransition, hviolates, hnote]

/-! ## Section 2: State and steps -/

/-- The chat service's state, and the committed reports and resolutions. -/
structure ServiceState where
  messaging : MessagingState
  shared : Shared := {}

abbrev Reporting : Type → Type := EStateM ConnectError ServiceState

def ServiceState.tables (s : ServiceState) : Tables := s.messaging.chat.db.tables

def ServiceState.now (s : ServiceState) : Int := s.messaging.chat.now

/-- A step that touches only the chat service's state. -/
def onMessaging {α : Type} (x : Messaging α) : Reporting α := fun s =>
  match x s.messaging with
  | .ok a messaging => .ok a { s with messaging }
  | .error e messaging => .error e { s with messaging }

/-- A check against the tables. -/
def onTables {α : Type} (f : Tables → Except ConnectError α) : Reporting α :=
  check fun s => f s.tables

/-- `return nil, connect.NewError(code, message)` under a condition. -/
def refuse (cond : Prop) [Decidable cond] (code : Code) (message : String) : Reporting Unit :=
  onTables fun _ => rejectIf cond code message

/-- The foreign keys of a report. -/
def foreignKeys (t : Tables) (row : ReportRow) : Bool :=
  (∀ id ∈ row.reporterID, id ∈ t.users.map (·.id)) ∧
    (∀ id ∈ row.targetUserID, id ∈ t.users.map (·.id)) ∧
    (∀ id ∈ row.targetChannelID, id ∈ t.channels.map (·.id)) ∧
    ∀ id ∈ row.serverID, id ∈ t.servers.map (·.id)

/-- `taken` is the text for a report that has been filed before. -/
def createReport (taken : String) (opts : CreateReportOpts) : Reporting ReportRow :=
  update fun s =>
    match storeCreate s.shared opts s.now with
    | .ok (row, shared) =>
      if foreignKeys s.tables row then .ok (row, { s with shared }) else .error internalError
    | .error .alreadyExists => .error { code := .alreadyExists, message := taken }
    | .error _ => .error internalError

/-! ## Section 3: Filing reports -/

/-- The report that `ReportMessage` would insert. The reports that there are do not
    matter before that. -/
def draftReport (nfc : String → String) (validUTF8 : List UInt8 → String) (newID : ID)
    (caller : Option ID) (req : ReportMessageRequest) : Reporting Report :=
  onMessaging fun m => Chat.reportMessage nfc validUTF8 newID caller req { m with reports := [] }

def reportMessage (nfc : String → String) (validUTF8 : List UInt8 → String) (newID : ID)
    (caller : Option ID) (req : ReportMessageRequest) : Reporting ReportRow := do
  let report ← draftReport nfc validUTF8 newID caller req
  createReport "you have already reported this message"
    { id := report.id
      reporterID := report.reporterID
      targetUserID := report.targetUserID
      targetMessageID := report.targetMessageID
      targetChannelID := report.targetChannelID
      serverID := report.serverID.getD ""
      snapshotContent := report.snapshotContent
      snapshotAuthorUsername := report.snapshotAuthorUsername
      snapshotAuthorDisplayName := report.snapshotAuthorDisplayName
      snapshotAttachments := report.snapshotAttachments
      snapshotMessageEditedAt := report.snapshotMessageEditedAt
      category := report.category
      reason := report.reason.getD "" }

structure ReportUserRequest where
  userID : ID
  serverID : ID := ""
  category : ReportCategory
  reason : String := ""
  idempotencyKey : String := ""

/-- The names of a user, as a snapshot keeps them. -/
def namesOf (t : Tables) (userID : ID) : String × String :=
  match Table.lookup User.id userID t.users with
  | some u => (u.username, if u.displayName = "" then u.username else u.displayName)
  | none => ("", "")

/-- The reporter must be in the server that he names. -/
def checkReporter (t : Tables) (userID serverID : ID) : Except ConnectError Unit :=
  rejectIf (serverID ≠ "" ∧ ChatStore.isMember t userID serverID = false) .invalidArgument
    "not a member of that server"

def reportUser (nfc : String → String) (newID : ID) (caller : Option ID)
    (req : ReportUserRequest) : Reporting ReportRow := do
  let userID ← onTables fun _ => authenticate caller
  refuse (req.userID = "") .invalidArgument "user_id is required"
  refuse (req.userID = userID) .invalidArgument "cannot report yourself"
  refuse (req.userID = systemUserID) .invalidArgument "cannot report system user"
  let category ← onTables fun _ => categoryFromProto req.category
  let reason ← onTables fun _ => sanitizeReason nfc req.reason
  onTables fun t => checkReporter t userID req.serverID
  onMessaging (checkReportRateLimits userID req.userID)
  let names ← onTables fun t => .ok (namesOf t req.userID)
  let serverID ← onTables fun t =>
    .ok (routeReport t req.userID (nilIfEmpty req.serverID) category)
  createReport "you have already filed this report"
    { id := newID
      reporterID := userID
      targetUserID := req.userID
      serverID := serverID.getD ""
      snapshotAuthorUsername := names.1
      snapshotAuthorDisplayName := names.2
      category
      reason := reason.getD ""
      idempotencyKey := req.idempotencyKey }

/-! ## Section 4: Working on reports -/

/-- "Server owner of any server." -/
def isPlatformAdministrator (t : Tables) (userID : ID) : Bool :=
  t.servers.any (·.ownerID = userID)

/-- Who may work on the reports of a queue; `none` is the queue of the platform. -/
def requireQueue (t : Tables) (userID : ID) : Option ID → Except ConnectError Unit
  | none => rejectIf (isPlatformAdministrator t userID = false) .permissionDenied
      "platform administrator required"
  | some serverID => do
    requireMembership t userID serverID
    let _ ← requirePermission t userID serverID manageReports
    return ()

/-- `v1.Report`: what a moderator is shown. -/
structure ReportView where
  id : ID
  reporterID : ID
  targetUserID : ID
  targetMessageID : ID
  targetChannelID : ID
  serverID : ID
  snapshotContent : String
  snapshotAuthorUsername : String
  snapshotAuthorDisplayName : String
  category : ReportCategory
  reason : String
  status : ReportStatus
  createdAt : Int
  acknowledgedAt : Option Int
  deriving DecidableEq, Repr

def reportToProto (r : ReportRow) : ReportView :=
  { id := r.id
    reporterID := r.reporterID.getD ""
    targetUserID := r.targetUserID.getD ""
    targetMessageID := r.targetMessageID.getD ""
    targetChannelID := r.targetChannelID.getD ""
    serverID := r.serverID.getD ""
    snapshotContent := r.snapshotContent
    snapshotAuthorUsername := r.snapshotAuthorUsername
    snapshotAuthorDisplayName := r.snapshotAuthorDisplayName
    category := r.category
    reason := r.reason.getD ""
    status := r.status
    createdAt := r.createdAt
    acknowledgedAt := r.acknowledgedAt }

/-- A cursor, parsed. -/
inductive ReportCursor where
  | absent
  | malformed
  | at (createdAt : Int) (id : ID)
  deriving DecidableEq, Repr

/-- `ORDER BY created_at DESC, id DESC`. -/
def pageKey (r : ReportRow) : (Int ×ₗ ID)ᵒᵈ := .toDual (toLex (r.createdAt, r.id))

def ReportCursor.key : ReportCursor → Option (Int ×ₗ ID)ᵒᵈ
  | .at createdAt id => some (.toDual (toLex (createdAt, id)))
  | .absent | .malformed => none

/-- The reports of a queue; no status means all. -/
def queueReports (rows : List ReportRow) (queue : Option ID) (status : Option ReportStatus) :
    List ReportRow :=
  rows.filter fun r => r.serverID = queue ∧ ∀ st ∈ status, r.status = st

/-- `listReports`: the reports after the cursor, at most `limit` of them. -/
def listPage (rows : List ReportRow) (queue : Option ID) (status : Option ReportStatus)
    (cursor : ReportCursor) (limit : Nat) : List ReportRow × ReportCursor :=
  let out := (Paging.after pageKey cursor.key
    (Paging.orderBy pageKey (queueReports rows queue status))).take (limit + 1)
  if limit < out.length then
    (out.take limit, ((out.take limit).getLast?.map fun r => .at r.createdAt r.id).getD .absent)
  else (out, .absent)

structure ListReportsRequest where
  /-- Empty for the queue of the platform. -/
  serverID : ID := ""
  status : Option ReportStatus := none
  cursor : ReportCursor := .absent
  limit : Nat := 0

structure ListReportsResponse where
  reports : List ReportView
  nextCursor : ReportCursor
  deriving DecidableEq, Repr

def pageSize (limit : Nat) : Nat := if limit = 0 ∨ 100 < limit then 50 else limit

def listReports (caller : Option ID) (req : ListReportsRequest) : Reporting ListReportsResponse := do
  let userID ← onTables fun _ => authenticate caller
  onTables fun t => requireQueue t userID (nilIfEmpty req.serverID)
  onTables fun _ => if req.cursor = .malformed then .error internalError else .ok ()
  let page ← check fun s => .ok (listPage s.shared.rows (nilIfEmpty req.serverID) req.status
    req.cursor (pageSize req.limit))
  return { reports := page.1.map reportToProto, nextCursor := page.2 }

structure ResolveReportRequest where
  reportID : ID
  /-- `none` for a value that is no action. -/
  action : Option ReportAction
  note : String := ""

def actionFromProto : Option ReportAction → Except ConnectError ReportAction
  | some action => .ok action
  | none => .error { code := .invalidArgument, message := "invalid action" }

def resolveError : ReportError → ConnectError
  | .notFound => { code := .notFound, message := "report not found" }
  | .alreadyExists =>
    { code := .alreadyExists, message := "an open report already exists for this message" }
  | .invalidTransition =>
    { code := .failedPrecondition, message := "report is not in a state that supports this action" }
  | .failed => internalError

/-- `GetReport`, and the check that the caller may work on it. -/
def requireReport (s : ServiceState) (userID reportID : ID) : Except ConnectError ReportRow := do
  let report ← (Table.lookup ReportRow.id reportID s.shared.rows).elim
    (.error { code := .notFound, message := "report not found" }) .ok
  requireQueue s.tables userID report.serverID
  return report

def resolveReport (nfc : String → String) (newID : ID) (caller : Option ID)
    (req : ResolveReportRequest) : Reporting ReportView := do
  let userID ← onTables fun _ => authenticate caller
  refuse (req.reportID = "") .invalidArgument "report_id is required"
  let action ← onTables fun _ => actionFromProto req.action
  let note ← onTables fun _ => sanitizeReason nfc req.note
  let _ ← check fun s => requireReport s userID req.reportID
  let row ← update fun s =>
    match storeResolve s.shared
        { reportID := req.reportID, moderatorID := userID, action, note := note.getD "" }
        s.now newID with
    | .ok (row, shared) => .ok (row, { s with shared })
    | .error e => .error (resolveError e)
  return reportToProto row

end Meza.Reports
