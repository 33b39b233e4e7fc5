import Meza.Chat.Messages
import Meza.Lib.Trail

/-! # Reports and their resolutions

    The tables `reports` and `report_resolutions`. A report is open, resolved
    or dismissed, and each resolution records a transition. Two partial unique
    indexes hold at most one open report for a reporter and a message, and one
    report for a reporter and an idempotency key. -/

namespace Meza.Reports

open Store Chat

/-! ## Section 1: Rows -/

/-- `status IN ('open','resolved','dismissed')`. -/
inductive ReportStatus where
  | opened
  | resolved
  | dismissed
  deriving DecidableEq, Repr

inductive ReportAction where
  | resolved
  | dismissed
  | reopen
  deriving DecidableEq, Repr

/-- Timestamps are ticks of one clock. A report without a server is in the queue of the
    platform. -/
structure ReportRow where
  id : ID
  reporterID : Option ID := none
  targetUserID : Option ID := none
  targetMessageID : Option ID := none
  targetChannelID : Option ID := none
  serverID : Option ID := none
  snapshotContent : String := ""
  snapshotAuthorUsername : String := ""
  snapshotAuthorDisplayName : String := ""
  snapshotAttachments : List ID := []
  snapshotMessageEditedAt : Option Int := none
  category : ReportCategory
  reason : Option String := none
  status : ReportStatus := .opened
  claimedBy : Option ID := none
  claimedAt : Option Int := none
  acknowledgedAt : Option Int := none
  idempotencyKey : Option String := none
  createdAt : Int := 0
  deriving DecidableEq, Repr

/-- A row of `report_resolutions`. -/
structure Resolution where
  id : ID
  reportID : ID
  moderatorID : ID
  action : ReportAction
  note : Option String := none
  createdAt : Int
  deriving DecidableEq, Repr

/-- What the store's functions return. -/
inductive ReportError where
  | notFound
  | alreadyExists
  | invalidTransition
  /-- Any other error. -/
  | failed
  deriving DecidableEq, Repr

/-! ## Section 2: New reports -/

structure CreateReportOpts where
  id : ID
  reporterID : ID
  targetUserID : ID
  targetMessageID : ID := ""
  targetChannelID : ID := ""
  serverID : ID := ""
  snapshotContent : String := ""
  snapshotAuthorUsername : String := ""
  snapshotAuthorDisplayName : String := ""
  snapshotAttachments : List ID := []
  snapshotMessageEditedAt : Option Int := none
  category : ReportCategory
  reason : String := ""
  idempotencyKey : String := ""
  deriving DecidableEq, Repr

def nilIfEmpty (s : String) : Option String := if s = "" then none else some s

/-- The row that is inserted. -/
def CreateReportOpts.row (opts : CreateReportOpts) (now : Int) : ReportRow :=
  { id := opts.id
    reporterID := nilIfEmpty opts.reporterID
    targetUserID := nilIfEmpty opts.targetUserID
    targetMessageID := nilIfEmpty opts.targetMessageID
    targetChannelID := nilIfEmpty opts.targetChannelID
    serverID := nilIfEmpty opts.serverID
    snapshotContent := opts.snapshotContent
    snapshotAuthorUsername := opts.snapshotAuthorUsername
    snapshotAuthorDisplayName := opts.snapshotAuthorDisplayName
    snapshotAttachments := opts.snapshotAttachments
    snapshotMessageEditedAt := opts.snapshotMessageEditedAt
    category := opts.category
    reason := nilIfEmpty opts.reason
    idempotencyKey := nilIfEmpty opts.idempotencyKey
    createdAt := now }

/-- The CHECK constraints of the table. -/
def ReportRow.checked (r : ReportRow) : Bool :=
  (∀ reason ∈ r.reason, 1 ≤ reason.length ∧ reason.length ≤ 1000) ∧
    r.snapshotContent.length ≤ 8000 ∧
    (r.targetUserID.isSome ∨ r.targetMessageID.isSome) ∧ r.category ≠ .unspecified

/-- The entry in `idx_reports_open_per_message_unique`; NULLs differ from each other. -/
def ReportRow.openEntry (r : ReportRow) : Option (ID × ID) :=
  match r.reporterID, r.targetMessageID with
  | some reporterID, some messageID =>
    if r.status = .opened then some (reporterID, messageID) else none
  | _, _ => none

/-- The entry in `idx_reports_idempotency_unique`. -/
def ReportRow.idempotencyEntry (r : ReportRow) : Option (ID × String) :=
  match r.reporterID, r.idempotencyKey with
  | some reporterID, some key => some (reporterID, key)
  | _, _ => none

/-- The rows have the same entry in one of the unique indexes. -/
def collides (r r' : ReportRow) : Bool :=
  (r.openEntry.isSome ∧ r.openEntry = r'.openEntry) ∨
    (r.idempotencyEntry.isSome ∧ r.idempotencyEntry = r'.idempotencyEntry)

theorem sameEntry_comm {κ : Type} {k k' : Option κ} :
    (k.isSome = true ∧ k = k') ↔ (k'.isSome = true ∧ k' = k) := by
  constructor
  · rintro ⟨hsome, rfl⟩
    exact ⟨hsome, rfl⟩
  · rintro ⟨hsome, rfl⟩
    exact ⟨hsome, rfl⟩

theorem collides_comm (r r' : ReportRow) : collides r r' = collides r' r :=
  decide_eq_decide.mpr (or_congr sameEntry_comm sameEntry_comm)

/-- `23505` for a row that is inserted. -/
def insertViolates (rows : List ReportRow) (r : ReportRow) : Bool :=
  rows.any fun r' => r'.id = r.id ∨ collides r' r

/-- `23505` for a row that takes the place of one with its id. -/
def updateViolates (rows : List ReportRow) (r : ReportRow) : Bool :=
  rows.any fun r' => r'.id ≠ r.id ∧ collides r' r

/-! ## Section 3: Transitions -/

/-- The new status, unless the action does not go with the old one. -/
def transition (status : ReportStatus) : ReportAction → Option ReportStatus
  | .resolved => if status = .opened then some .resolved else none
  | .dismissed => if status = .opened then some .dismissed else none
  | .reopen => if status = .opened then none else some .opened

/-- `SET status = $2, claimed_by = NULL, claimed_at = NULL,
    acknowledged_at = COALESCE(acknowledged_at, NOW())`. -/
def ReportRow.resolve (r : ReportRow) (status : ReportStatus) (now : Int) : ReportRow :=
  { r with
    status := status
    claimedBy := none
    claimedAt := none
    acknowledgedAt := some (r.acknowledgedAt.getD now) }

/-- The CHECK constraint on a note, which is NULL if it is empty. -/
def noteChecked (note : String) : Bool := note.length ≤ 1000

/-- Closing needs an open report, reopening one that is not. -/
theorem alternating_transition :
    Trail.Alternating transition (fun status => decide (status = .opened))
      (fun action => decide (action ≠ .reopen)) := by
  intro status action status' h
  cases action with
  | resolved | dismissed =>
    simp only [transition] at h
    split at h
    · cases h
      simp_all
    · cases h
  | reopen =>
    simp only [transition] at h
    split at h
    · cases h
    · cases h
      simp_all

/-- The trail of one report, as `ListResolutions` gives it: `ORDER BY created_at`. -/
def ListResolutions (trail : List Resolution) (reportID : ID) (l : List Resolution) : Prop :=
  Trail.Listing Resolution.createdAt (trail.filter (·.reportID = reportID)) l

end Meza.Reports
