import Meza.Chat.Reading
import Meza.Reports.Service

/-! # Reports and the users they are about

    Whom a report is about should neither see nor touch it. A report goes to
    the moderators of a server only if its target is none of them at that
    time; the queue of the platform is open to whoever owns a server. What
    the target becomes later is not asked again. -/

namespace Meza.Reports

open Store Permissions Chat Action List Table Paging ChatStore Run Bool MessageStore

/-! ## Section 1: Events -/

def validateServerName (name : String) : Except ConnectError Unit := do
  rejectIf (trimSpace name = "") .invalidArgument "name is required"
  rejectIf (100 < (trimSpace name).length) .invalidArgument "name exceeds 100 characters"
  rejectIf (.ofNat 0 ∈ name.toList) .invalidArgument "name contains invalid characters"
  rejectIf ('<' ∈ name.toList ∧ '>' ∈ name.toList) .invalidArgument
    "name contains invalid characters"

/-- `CreateServer`, with the ids that are drawn. -/
def createServer (serverID channelID : ID) (caller : Option ID) (name : String) : Handler Unit := do
  let userID ← require fun _ => authenticate caller
  require fun _ => validateServerName name
  run fun db => ChatStore.createServer db serverID channelID userID

inductive Happening where
  | reportMessage (nfc : String → String) (validUTF8 : List UInt8 → String) (newID : ID)
      (caller : Option ID) (req : ReportMessageRequest)
  | reportUser (nfc : String → String) (newID : ID) (caller : Option ID) (req : ReportUserRequest)
  | listReports (caller : Option ID) (req : ListReportsRequest)
  | resolveReport (nfc : String → String) (newID : ID) (caller : Option ID)
      (req : ResolveReportRequest)
  /-- Roles, members, bans, overrides, and time -/
  | chat (ev : Chat.Event)
  | createServer (serverID channelID : ID) (caller : Option ID) (name : String)
  /-- Messages, webhooks, servers from templates, and whatever else there is -/
  | other (messaging : MessagingState)

def onChatState (f : ChatState → ChatState) (s : ServiceState) : ServiceState :=
  { s with messaging := { s.messaging with chat := f s.messaging.chat } }

def happen (s : ServiceState) : Happening → ServiceState
  | .reportMessage nfc validUTF8 newID caller req =>
    after (reportMessage nfc validUTF8 newID caller req) s
  | .reportUser nfc newID caller req => after (reportUser nfc newID caller req) s
  | .listReports caller req => after (listReports caller req) s
  | .resolveReport nfc newID caller req => after (resolveReport nfc newID caller req) s
  | .chat ev => onChatState (fun chat => Chat.step chat ev) s
  | .createServer serverID channelID caller name =>
    onChatState (after (createServer serverID channelID caller name)) s
  | .other messaging => { s with messaging }

/-- No report has been filed yet. -/
def unreported (messaging : MessagingState) : ServiceState := { messaging }

/-! ## Section 2: Isolation -/

/-- The user can get a page with the report. -/
def Obtains (s : ServiceState) (userID : ID) (r : ReportRow) : Prop :=
  ∃ req page s', listReports (some userID) req s = .ok page s' ∧
    ∃ view ∈ page.reports, view.id = r.id

/-- The user can change the report. -/
def Alters (s : ServiceState) (userID : ID) (r : ReportRow) : Prop :=
  ∃ nfc newID req, r ∉ (after (resolveReport nfc newID (some userID) req) s).shared.rows

def Isolated (s : ServiceState) : Prop :=
  ∀ r ∈ s.shared.rows, ∀ userID, r.targetUserID = some userID →
    ¬ Obtains s userID r ∧ ¬ Alters s userID r

/-- The check of a queue lets the user through. -/
def mayHandle (t : Tables) (userID : ID) (queue : Option ID) : Bool :=
  match requireQueue t userID queue with
  | .ok _ => true
  | .error _ => false

/-- No report is in a queue that its target may work on. -/
def Parted (rows : List ReportRow) (t : Tables) : Prop :=
  ∀ r ∈ rows, ∀ userID, r.targetUserID = some userID → mayHandle t userID r.serverID = false

variable {target userID : ID} {r : ReportRow} {s s' : ServiceState} {t : Tables} {α : Type}
  {queue : Option ID}

theorem mayHandle_iff :
    mayHandle t userID queue = true ↔ ∃ u, requireQueue t userID queue = .ok u := by
  unfold mayHandle
  rcases requireQueue t userID queue with e | u
  · simp
  · simp

/-- The ids are unique, and a report in the queue of a server names it. -/
structure WellKept (rows : List ReportRow) : Prop where
  ids : Table.UniqueOn ReportRow.id rows
  named : ∀ r ∈ rows, r.serverID ≠ some ""

variable {f : Tables → Except ConnectError α}

theorem onTables_ok {a : α} : onTables f s = .ok a s' ↔ f s.tables = .ok a ∧ s' = s := check_ok

/-- Who gets which page. -/
theorem listReports_ok {req : ListReportsRequest} {page : ListReportsResponse} :
    listReports (some userID) req s = .ok page s' ↔
      mayHandle s.tables userID (nilIfEmpty req.serverID) = true ∧ req.cursor ≠ .malformed ∧
        page = ⟨(listPage s.shared.rows (nilIfEmpty req.serverID) req.status req.cursor
          (pageSize req.limit)).1.map reportToProto, (listPage s.shared.rows
            (nilIfEmpty req.serverID) req.status req.cursor (pageSize req.limit)).2⟩ ∧ s' = s := by
  unfold listReports
  simp only [bind_ok, onTables_ok, check_ok, pure_ok]
  constructor
  · rintro ⟨_, _, ⟨hcaller, rfl⟩, u, _, ⟨hqueue, rfl⟩, _, _, ⟨hcursor, rfl⟩, _, _, ⟨hpage, rfl⟩, rfl,
      rfl⟩
    cases hcaller
    cases hpage
    refine ⟨mayHandle_iff.mpr ⟨u, hqueue⟩, ?_, rfl, rfl⟩
    intro hmalformed
    rw [if_pos hmalformed] at hcursor
    cases hcursor
  · rintro ⟨hqueue, hcursor, rfl, rfl⟩
    obtain ⟨u, hu⟩ := mayHandle_iff.mp hqueue
    exact ⟨userID, s', ⟨rfl, rfl⟩, u, s', ⟨hu, rfl⟩, (), s', ⟨if_neg hcursor, rfl⟩, _, s', ⟨rfl, rfl⟩,
      rfl, rfl⟩

theorem mem_listPage {rows : List ReportRow} {status : Option ReportStatus} {cursor : ReportCursor}
    {limit : Nat} (h : r ∈ (listPage rows queue status cursor limit).1) :
    r ∈ rows ∧ r.serverID = queue := by
  have hout : r ∈ (after pageKey cursor.key
      (orderBy pageKey (queueReports rows queue status))).take (limit + 1) := by
    unfold listPage at h
    simp only at h
    split at h
    · exact mem_of_mem_take h
    · exact h
  have hqueue : r ∈ queueReports rows queue status :=
    mem_orderBy.mp (mem_filter.mp (mem_of_mem_take hout)).1
  obtain ⟨hr, hcond⟩ := mem_filter.mp hqueue
  exact ⟨hr, (of_decide_eq_true hcond).1⟩

theorem not_obtains (hkept : WellKept s.shared.rows) (hr : r ∈ s.shared.rows)
    (h : mayHandle s.tables userID r.serverID = false) : ¬ Obtains s userID r := by
  rintro ⟨req, page, s', hlist, view, hview, hid⟩
  obtain ⟨hqueue, -, rfl, -⟩ := listReports_ok.mp hlist
  obtain ⟨r', hr', rfl⟩ := mem_map.mp hview
  obtain ⟨hmem, hserver⟩ := mem_listPage hr'
  -- the page holds the report itself
  have hsame : r' = r := eq_of_key hkept.ids hmem hr hid
  rw [← hserver, hsame, h] at hqueue
  cases hqueue

/-- A user who may work on the queue can ask for the page that starts with the report. -/
theorem obtains_of_mayHandle (hkept : WellKept s.shared.rows) (hr : r ∈ s.shared.rows)
    (h : mayHandle s.tables userID r.serverID = true) : Obtains s userID r := by
  have hqueue : nilIfEmpty (r.serverID.getD "") = r.serverID := by
    rcases hserver : r.serverID with _ | serverID
    · rfl
    · have hne : serverID ≠ "" := fun heq => hkept.named r hr (hserver.trans (congrArg some heq))
      exact if_neg hne
  have hmem : r ∈ orderBy pageKey (queueReports s.shared.rows r.serverID none) :=
    mem_orderBy.mpr (mem_filter.mpr ⟨hr, by simp⟩)
  have hunique : UniqueOn pageKey (queueReports s.shared.rows r.serverID none) := by
    have hids : ((queueReports s.shared.rows r.serverID none).map ReportRow.id).Nodup :=
      hkept.ids.sublist (filter_sublist.map _)
    refine Nodup.of_map (fun k => (ofLex (OrderDual.ofDual k)).2) ?_
    rw [map_map]
    exact hids
  have hascending := ascending_orderBy hunique
  have hcursor : ∃ cursor : ReportCursor, cursor ≠ .malformed ∧
      ∃ rest, after pageKey cursor.key
        (orderBy pageKey (queueReports s.shared.rows r.serverID none)) = r :: rest := by
    obtain ⟨before, rest, hsplit⟩ := append_of_mem hmem
    rcases eq_nil_or_concat before with rfl | ⟨before', last, rfl⟩
    · refine ⟨.absent, by simp, rest, ?_⟩
      show after pageKey none _ = _
      rw [after_none, hsplit]
      rfl
    · refine ⟨.at last.createdAt last.id, by simp, rest, ?_⟩
      have hsplit' : orderBy pageKey (queueReports s.shared.rows r.serverID none) =
          before' ++ last :: (r :: rest) := by simp [hsplit]
      rw [hsplit'] at hascending ⊢
      exact after_key_of_append hascending
  obtain ⟨cursor, hwell, rest, hafter⟩ := hcursor
  refine ⟨{ serverID := r.serverID.getD "", cursor }, _, s,
    listReports_ok.mpr ⟨by rw [hqueue]; exact h, hwell, rfl, rfl⟩, reportToProto r, ?_, rfl⟩
  refine mem_map_of_mem ?_
  show r ∈ (listPage s.shared.rows (nilIfEmpty (r.serverID.getD "")) none cursor (pageSize 0)).1
  unfold listPage
  rw [hqueue, hafter]
  simp only
  split
  · exact mem_of_mem_head? rfl
  · exact mem_of_mem_head? rfl

/-! ## Section 3: Resolving -/

/-- The report after `ResolveReport`: the queue it is in and whom it is about stay. -/
structure SameReport (r r' : ReportRow) : Prop where
  id : r'.id = r.id
  target : r'.targetUserID = r.targetUserID
  queue : r'.serverID = r.serverID

theorem SameReport.refl (r : ReportRow) : SameReport r r := ⟨rfl, rfl, rfl⟩

/-- What `ResolveReport` of the service may do: one report is changed by somebody who may work
    on its queue. -/
inductive Resolved (userID : ID) (s s' : ServiceState) : Prop where
  | same (h : s' = s)
  | changed (row row' : ReportRow) (resolution : Resolution)
      (found : Table.lookup ReportRow.id row.id s.shared.rows = some row)
      (allowed : mayHandle s.tables userID row.serverID = true) (report : SameReport row row')
      (h : s' = { s with shared := commitResolution s.shared row' resolution })

theorem storeResolve_ok {sh sh' : Shared} {req : ResolveRequest} {now : Int} {newID : ID}
    {row' : ReportRow} (h : storeResolve sh req now newID = .ok (row', sh')) :
    ∃ row resolution, Table.lookup ReportRow.id req.reportID sh.rows = some row ∧
      SameReport row row' ∧ sh' = commitResolution sh row' resolution := by
  unfold storeResolve at h
  rcases hlookup : Table.lookup ReportRow.id req.reportID sh.rows with _ | row
  · rw [hlookup] at h
    cases h
  · rw [hlookup] at h
    rcases htransition : transition row.status req.action with _ | status
    · simp only [htransition] at h
      cases h
    · simp only [htransition] at h
      split at h
      · cases h
      · split at h
        · cases h
        · cases h
          exact ⟨row, _, rfl, ⟨rfl, rfl, rfl⟩, rfl⟩

theorem requireReport_ok {reportID : ID} {row : ReportRow}
    (h : requireReport s userID reportID = .ok row) :
    Table.lookup ReportRow.id reportID s.shared.rows = some row ∧
      mayHandle s.tables userID row.serverID = true := by
  obtain ⟨row₁, hfound, h⟩ := bind_eq_ok.mp h
  obtain ⟨u, hqueue, h⟩ := bind_eq_ok.mp h
  cases h
  rcases hlookup : Table.lookup ReportRow.id reportID s.shared.rows with _ | row₂
  · rw [hlookup] at hfound
    cases hfound
  · rw [hlookup] at hfound
    cases hfound
    exact ⟨rfl, mayHandle_iff.mpr ⟨u, hqueue⟩⟩

theorem resolveReport_spec (nfc : String → String) (newID userID : ID)
    (req : ResolveReportRequest) (s : ServiceState) :
    Resolved userID s (after (resolveReport nfc newID (some userID) req) s) := by
  refine Ends.after ?_
  have hsame : ∀ (_ : ConnectError), Resolved userID s s := fun _ => Resolved.same rfl
  refine ends_check (fun caller hcaller => ?_) hsame
  cases hcaller
  refine ends_check (fun _ _ => ?_) hsame
  refine ends_check (fun action _ => ?_) hsame
  refine ends_check (fun note _ => ?_) hsame
  refine ends_check (fun row hrow => ?_) hsame
  refine ends_update (fun row' s' hs' => ?_) hsame
  refine ends_pure ?_
  obtain ⟨hfound, hallowed⟩ := requireReport_ok hrow
  rcases hstore : storeResolve s.shared
      { reportID := req.reportID, moderatorID := userID, action, note := note.getD "" }
      s.now newID with e | ⟨row₁, shared⟩
  · rw [hstore] at hs'
    cases hs'
  · rw [hstore] at hs'
    cases hs'
    obtain ⟨row₂, resolution, hfound', hreport, rfl⟩ := storeResolve_ok hstore
    have hrow₂ : row₂ = row := Option.some.inj (hfound'.symm.trans hfound)
    subst hrow₂
    have hid : row₂.id = req.reportID := (mem_of_lookup hfound).2
    exact .changed row₂ row' resolution (hid.symm ▸ hfound) hallowed hreport rfl

theorem not_alters (hkept : WellKept s.shared.rows) (hr : r ∈ s.shared.rows)
    (h : mayHandle s.tables userID r.serverID = false) : ¬ Alters s userID r := by
  rintro ⟨nfc, newID, req, hgone⟩
  apply hgone
  rcases resolveReport_spec nfc newID userID req s with
    heq | ⟨row, row', resolution, hfound, hallowed, hreport, heq⟩
  · rw [heq]
    exact hr
  · rw [heq]
    refine mem_commitResolution_of_ne hr ?_
    -- the report that was changed is another one
    intro hid
    obtain ⟨hrow, -⟩ := Table.mem_of_lookup hfound
    have hsame : r = row := eq_of_key hkept.ids hr hrow (hid.trans hreport.id)
    rw [← hsame, h] at hallowed
    cases hallowed

/-- Targets are kept apart from their reports when none may work on the queue of his. -/
theorem isolated_iff_parted (hkept : WellKept s.shared.rows) :
    Isolated s ↔ Parted s.shared.rows s.tables := by
  constructor
  · intro h r hr userID htarget
    by_contra hallowed
    exact (h r hr userID htarget).1 (obtains_of_mayHandle hkept hr (not_eq_false _ ▸ hallowed))
  · intro h r hr userID htarget
    have hrefused := h r hr userID htarget
    exact ⟨not_obtains hkept hr hrefused, not_alters hkept hr hrefused⟩

/-! ## Section 4: Filing -/

theorem mayHandle_none (t : Tables) (userID : ID) :
    mayHandle t userID none = isPlatformAdministrator t userID := by
  unfold mayHandle requireQueue rejectIf
  rcases isPlatformAdministrator t userID with _ | _
  · rfl
  · rfl

theorem hasPermission_iff {serverID : ID} :
    hasPermission t userID serverID manageReports = true ↔
      ∃ auth, requirePermission t userID serverID manageReports = .ok auth := by
  unfold hasPermission
  rcases hauth : requirePermission t userID serverID manageReports with e | auth
  · simp
  · have hhas : has auth.callerPerms manageReports = true := by
      obtain ⟨srv, -, hauth⟩ := bind_eq_ok.mp hauth
      split at hauth
      · -- the owner
        cases hauth
        show has allPermissions manageReports = true
        decide
      · obtain ⟨_, hreject, hauth⟩ := bind_eq_ok.mp hauth
        cases hauth
        exact not_not.mp (rejectIf_ok.mp hreject)
    simp [hhas]

theorem mayHandle_some {serverID : ID} (hne : serverID ≠ "") :
    mayHandle t userID (some serverID) =
      (isMember t userID serverID && hasPermission t userID serverID manageReports) := by
  rw [Bool.eq_iff_iff, Bool.and_eq_true, mayHandle_iff, hasPermission_iff]
  constructor
  · rintro ⟨u, h⟩
    obtain ⟨_, hmember, h⟩ := bind_eq_ok.mp h
    obtain ⟨auth, hauth, -⟩ := bind_eq_ok.mp h
    exact ⟨requireMembership_ok.mp hmember hne, auth, hauth⟩
  · rintro ⟨hmember, auth, hauth⟩
    refine ⟨(), bind_eq_ok.mpr ⟨(), requireMembership_ok.mpr fun _ => hmember, ?_⟩⟩
    exact bind_eq_ok.mpr ⟨auth, hauth, rfl⟩

/-- The queue of a report about `target`, filed in the context of a server. -/
def queueOf (t : Tables) (target : ID) (server : Option ID) (category : ReportCategory) :
    Option ID :=
  (routeReport t target server category).bind nilIfEmpty

/-- Whoever owns a server is only reported as a member of a server, without ManageReports
    there, and not as illegal. -/
def RoutedApart (t : Tables) (target : ID) (server : Option ID) (category : ReportCategory) :
    Prop :=
  isPlatformAdministrator t target = true → category ≠ .illegal ∧
    ∃ serverID ∈ server, serverID ≠ "" ∧ isMember t target serverID = true ∧
      hasPermission t target serverID manageReports = false

theorem routedApart_iff {server : Option ID} {category : ReportCategory} :
    RoutedApart t target server category ↔
      mayHandle t target (queueOf t target server category) = false := by
  -- in the queue of the platform only owners are in question
  have hplatform : queueOf t target server category = none →
      ¬ (category ≠ .illegal ∧ ∃ serverID ∈ server, serverID ≠ "" ∧
        isMember t target serverID = true ∧
          hasPermission t target serverID manageReports = false) →
      (RoutedApart t target server category ↔
        mayHandle t target (queueOf t target server category) = false) := by
    intro hnone hnot
    rw [hnone, mayHandle_none, eq_false_iff]
    exact ⟨fun h howner => hnot (h howner), fun h howner => absurd howner h⟩
  by_cases hillegal : category = .illegal
  · refine hplatform ?_ fun h => h.1 hillegal
    unfold queueOf routeReport
    rw [if_pos hillegal]
    rfl
  · by_cases hserver : ∃ serverID ∈ server, serverID ≠ "" ∧
      isMember t target serverID = true ∧ hasPermission t target serverID manageReports = false
    · refine iff_of_true (fun _ => ⟨hillegal, hserver⟩) ?_
      obtain ⟨serverID, hsome, hne, hmember, hlacks⟩ := hserver
      have hqueue : queueOf t target server category = some serverID := by
        unfold queueOf routeReport
        rw [if_neg hillegal, hsome]
        simp only [Option.filter_some, hmember, hlacks]
        exact if_neg hne
      rw [hqueue, mayHandle_some hne, hlacks, Bool.and_false]
    · refine hplatform ?_ fun h => hserver h.2
      unfold queueOf routeReport
      rw [if_neg hillegal]
      rcases server with _ | serverID
      · rfl
      · by_cases hkept : (isMember t target serverID &&
          !hasPermission t target serverID manageReports) = true
        · simp only [Option.filter_some, hkept, if_true]
          refine if_pos ?_
          by_contra hne
          simp only [and_eq_true, not_eq_true'] at hkept
          exact hserver ⟨serverID, rfl, hne, hkept⟩
        · simp only [Option.filter_some, if_neg hkept]
          rfl

/-- A report about `target` has been added to the queue. -/
structure Filed (s s' : ServiceState) (target : ID) (queue : Option ID) : Prop where
  chat : s'.messaging.chat = s.messaging.chat
  added : ∃ row, row.targetUserID = some target ∧ row.serverID = queue ∧
    insertViolates s.shared.rows row = false ∧ s'.shared = insertReport s.shared row

/-- Neither the reports nor the tables have changed. -/
structure Untouched (s s' : ServiceState) : Prop where
  chat : s'.messaging.chat = s.messaging.chat
  shared : s'.shared = s.shared

theorem storeCreate_ok {sh sh' : Shared} {opts : CreateReportOpts} {now : Int} {row : ReportRow}
    (h : storeCreate sh opts now = .ok (row, sh')) :
    row = opts.row now ∧ insertViolates sh.rows (opts.row now) = false ∧
      sh' = insertReport sh (opts.row now) := by
  unfold storeCreate at h
  simp only at h
  split at h
  · cases h
  · split at h
    · cases h
    · rename_i hunique
      cases h
      exact ⟨rfl, eq_false_iff.mpr hunique, rfl⟩

theorem createReport_spec (taken : String) (opts : CreateReportOpts) (s : ServiceState) :
    Ends (createReport taken opts) s
      (fun _ s' => insertViolates s.shared.rows (opts.row s.now) = false ∧
        s' = { s with shared := insertReport s.shared (opts.row s.now) })
      (fun _ s' => s' = s) := by
  refine ends_last (ends_update ?_ fun _ => rfl)
  intro row s' h
  refine ends_pure ?_
  rcases hstore : storeCreate s.shared opts s.now with e | ⟨row₁, shared⟩
  · rw [hstore] at h
    cases e <;> cases h
  · rw [hstore] at h
    obtain ⟨-, hunique, rfl⟩ := storeCreate_ok hstore
    simp only at h
    split at h
    · cases h
      exact ⟨hunique, rfl⟩
    · cases h

theorem filed_of_createReport {s₀ : ServiceState} {opts : CreateReportOpts} {route : Option ID}
    (htarget : opts.targetUserID = target) (hne : target ≠ "")
    (hserver : opts.serverID = route.getD "") (hsame : Untouched s₀ s)
    (hunique : insertViolates s.shared.rows (opts.row s.now) = false)
    (hs' : s' = { s with shared := insertReport s.shared (opts.row s.now) }) :
    Filed s₀ s' target (route.bind nilIfEmpty) := by
  subst hs'
  refine ⟨hsame.chat, opts.row s.now, ?_, ?_, hsame.shared ▸ hunique, ?_⟩
  · show nilIfEmpty opts.targetUserID = some target
    rw [htarget]
    exact if_neg hne
  · show nilIfEmpty opts.serverID = route.bind nilIfEmpty
    rw [hserver]
    rcases route with _ | serverID
    · rfl
    · rfl
  · rw [← hsame.shared]

section Messages

variable {β : Type} {m : MessagingState} {k : α → Messaging β} {Q : β → MessagingState → Prop}
  {E : ConnectError → MessagingState → Prop}

theorem onChat_require (f : Tables → Except ConnectError α) :
    onChat (require f) = check fun m : MessagingState => f m.chat.db.tables := by
  funext m
  rcases hf : f m.chat.db.tables with e | a
  · simp only [onChat, require, check, hf]
  · simp only [onChat, require, check, hf]

theorem ends_onChat_require (hok : ∀ a, f m.chat.db.tables = .ok a → Ends (k a) m Q E)
    (herr : ∀ e, E e m) : Ends (onChat (require f) >>= k) m Q E := by
  rw [onChat_require]
  exact ends_check hok herr

/-- Counting hits changes nothing but the counters. -/
theorem ends_checkReportRateLimits (reporterID targetID : ID) (m : MessagingState) :
    Ends (checkReportRateLimits reporterID targetID) m
      (fun _ m' => ∃ rates, m' = { m with rates }) fun _ m' => ∃ rates, m' = { m with rates } := by
  unfold checkReportRateLimits
  rw [ends_bind]
  show Ends _ (after (countHit _ 3600) m) _ _
  refine ends_onChat_require (fun _ _ => ?_) fun _ => ⟨_, rfl⟩
  rw [ends_bind]
  show Ends _ (after (countHit _ 3600) (after (countHit _ 3600) m)) _ _
  refine ends_last ?_
  exact ends_onChat_require (fun _ _ => ends_pure ⟨_, rfl⟩) fun _ => ⟨_, rfl⟩

/-- Whom a report of the message is about, and in which server. -/
def MessageTarget (m : MessagingState) (validUTF8 : List UInt8 → String) (caller : Option ID)
    (messageID target : ID) (server : Option ID) : Prop :=
  ∃ userID channelID channel msg, caller = some userID ∧
    findChannelForMessage m.chat.db.tables m.archive userID messageID = .ok channelID ∧
    requireReportedChannel m.chat.db.tables channelID userID = .ok channel ∧
    getMessage m.archive channelID messageID = some msg ∧
    target = (reportTarget m msg (snapshotOf validUTF8 msg).authorID).userID ∧
    server = channel.serverID

theorem MessageTarget.unique {validUTF8 : List UInt8 → String} {caller : Option ID}
    {messageID target' : ID} {server server' : Option ID}
    (h : MessageTarget m validUTF8 caller messageID target server)
    (h' : MessageTarget m validUTF8 caller messageID target' server') :
    target' = target ∧ server' = server := by
  obtain ⟨userID, channelID, channel, msg, rfl, hchannelID, hchannel, hmsg, rfl, rfl⟩ := h
  obtain ⟨_, channelID', channel', msg', huser, hchannelID', hchannel', hmsg', rfl, rfl⟩ := h'
  cases huser
  rw [hchannelID] at hchannelID'
  cases hchannelID'
  rw [hchannel] at hchannel'
  cases hchannel'
  rw [hmsg] at hmsg'
  cases hmsg'
  exact ⟨rfl, rfl⟩

theorem categoryFromProto_ok {category found : ReportCategory}
    (h : categoryFromProto category = .ok found) : found = category := by
  unfold categoryFromProto at h
  split at h
  · cases h
  · cases h
    rfl

theorem fileReport_spec (validUTF8 : List UInt8 → String) (newID userID : ID)
    (category : ReportCategory) (reason : Option String) (channel : Channel) (msg : Message)
    (m : MessagingState) :
    Ends (fileReport validUTF8 newID userID category reason channel msg) m
      (fun report m' => m'.chat = m.chat ∧ report.targetUserID ≠ "" ∧
        report.targetUserID = (reportTarget m msg (snapshotOf validUTF8 msg).authorID).userID ∧
        report.serverID =
          routeReport m.chat.db.tables report.targetUserID channel.serverID category)
      fun _ m' => m'.chat = m.chat := by
  refine ends_check (fun target htarget => ?_) fun _ => rfl
  cases htarget
  refine ends_onChat_require (fun _ hne => ?_) fun _ => rfl
  refine ends_onChat_require (fun _ _ => ?_) fun _ => rfl
  refine ends_onChat_require (fun _ _ => ?_) fun _ => rfl
  rw [ends_bind]
  refine (ends_checkReportRateLimits _ _ m).mono ?_ ?_
  · rintro _ _ ⟨rates, rfl⟩
    refine ends_check (fun serverID hserver => ?_) fun _ => rfl
    cases hserver
    refine ends_last (ends_update ?_ fun _ => rfl)
    intro report m' h
    refine ends_pure ?_
    unfold Chat.createReport at h
    split at h
    · cases h
    · split at h
      · cases h
      · cases h
        exact ⟨rfl, rejectIf_ok.mp hne, rfl, rfl⟩
  · rintro _ _ ⟨rates, rfl⟩
    rfl

/-- What `ReportMessage` has when it is about to insert the report. -/
structure Drafted (m m' : MessagingState) (validUTF8 : List UInt8 → String) (caller : Option ID)
    (req : ReportMessageRequest) (report : Report) : Prop where
  chat : m'.chat = m.chat
  named : report.targetUserID ≠ ""
  routed : ∃ server, MessageTarget m validUTF8 caller req.messageID report.targetUserID server ∧
    report.serverID = routeReport m.chat.db.tables report.targetUserID server req.category

theorem chatReportMessage_spec (nfc : String → String) (validUTF8 : List UInt8 → String)
    (newID : ID) (caller : Option ID) (req : ReportMessageRequest) (m : MessagingState) :
    Ends (Chat.reportMessage nfc validUTF8 newID caller req) m
      (fun report m' => Drafted m m' validUTF8 caller req report) fun _ m' => m'.chat = m.chat := by
  refine ends_onChat_require (fun userID huser => ?_) fun _ => rfl
  refine ends_onChat_require (fun _ _ => ?_) fun _ => rfl
  refine ends_onChat_require (fun category hcategory => ?_) fun _ => rfl
  refine ends_onChat_require (fun reason _ => ?_) fun _ => rfl
  refine ends_check (fun channelID hchannelID => ?_) fun _ => rfl
  refine ends_onChat_require (fun channel hchannel => ?_) fun _ => rfl
  refine ends_check (fun msg hmsg => ?_) fun _ => rfl
  refine (fileReport_spec validUTF8 newID userID category reason channel msg m).mono ?_
    fun _ _ h => h
  rintro report m' ⟨hchat, hne, htarget, hroute⟩
  have hcaller : caller = some userID := by
    rcases caller with _ | id
    · cases huser
    · cases huser
      rfl
  have hcategory' := categoryFromProto_ok hcategory
  have hfound : getMessage m.archive channelID req.messageID = some msg := by
    rcases hget : getMessage m.archive channelID req.messageID with _ | msg'
    · rw [hget] at hmsg
      cases hmsg
    · rw [hget] at hmsg
      cases hmsg
      rfl
  subst hcategory'
  exact ⟨hchat, hne, channel.serverID, ⟨userID, channelID, channel, msg, hcaller, hchannelID,
    hchannel, hfound, htarget, rfl⟩, hroute⟩

end Messages

theorem ends_onMessaging {β : Type} {x : Messaging α} {k : α → Reporting β}
    {Q : β → ServiceState → Prop} {E : ConnectError → ServiceState → Prop}
    {Q₀ : α → MessagingState → Prop} {E₀ : ConnectError → MessagingState → Prop}
    (hx : Ends x s.messaging Q₀ E₀)
    (hok : ∀ a messaging, Q₀ a messaging → Ends (k a) { s with messaging } Q E)
    (herr : ∀ e messaging, E₀ e messaging → E e { s with messaging }) :
    Ends (onMessaging x >>= k) s Q E := by
  rw [ends_bind]
  unfold Ends at hx ⊢
  unfold onMessaging
  rcases hrun : x s.messaging with ⟨a, messaging⟩ | ⟨e, messaging⟩
  · rw [hrun] at hx
    exact hok a messaging hx
  · rw [hrun] at hx
    exact herr e messaging hx

theorem reportMessage_spec (nfc : String → String) (validUTF8 : List UInt8 → String) (newID : ID)
    (caller : Option ID) (req : ReportMessageRequest) (s : ServiceState) :
    Ends (reportMessage nfc validUTF8 newID caller req) s
      (fun _ s' => ∃ target server,
        MessageTarget s.messaging validUTF8 caller req.messageID target server ∧
          Filed s s' target (queueOf s.tables target server req.category))
      fun _ s' => Untouched s s' := by
  refine ends_onMessaging (chatReportMessage_spec nfc validUTF8 newID caller req
    { s.messaging with reports := [] }) ?_ ?_
  · intro report messaging hdrafted
    obtain ⟨server, htarget, hroute⟩ := hdrafted.routed
    refine (createReport_spec _ _ _).mono ?_ ?_
    · rintro _ s' ⟨hunique, hs'⟩
      refine ⟨report.targetUserID, server, htarget, ?_⟩
      have hroute' : report.serverID = routeReport s.tables report.targetUserID server
          req.category := hroute
      unfold queueOf
      rw [← hroute']
      exact filed_of_createReport (s := { s with messaging }) rfl hdrafted.named rfl
        ⟨hdrafted.chat, rfl⟩ hunique hs'
    · rintro _ s' rfl
      exact ⟨hdrafted.chat, rfl⟩
  · intro e messaging hchat
    exact ⟨hchat, rfl⟩

theorem reportUser_spec (nfc : String → String) (newID : ID) (caller : Option ID)
    (req : ReportUserRequest) (s : ServiceState) :
    Ends (reportUser nfc newID caller req) s
      (fun _ s' => Filed s s' req.userID
        (queueOf s.tables req.userID (nilIfEmpty req.serverID) req.category))
      fun _ s' => Untouched s s' := by
  have hsame : ∀ (_ : ConnectError), Untouched s s := fun _ => ⟨rfl, rfl⟩
  refine ends_check (fun userID _ => ?_) hsame
  refine ends_check (fun _ hne => ?_) hsame
  refine ends_check (fun _ _ => ?_) hsame
  refine ends_check (fun _ _ => ?_) hsame
  refine ends_check (fun category hcategory => ?_) hsame
  refine ends_check (fun reason _ => ?_) hsame
  refine ends_check (fun _ _ => ?_) hsame
  refine ends_onMessaging (ends_checkReportRateLimits userID req.userID s.messaging) ?_ ?_
  · rintro _ _ ⟨rates, rfl⟩
    refine ends_check (fun names _ => ?_) fun _ => ⟨rfl, rfl⟩
    refine ends_check (fun serverID hserver => ?_) fun _ => ⟨rfl, rfl⟩
    have hcategory' := categoryFromProto_ok hcategory
    subst hcategory'
    cases hserver
    refine (createReport_spec _ _ _).mono ?_ ?_
    · rintro _ s' ⟨hunique, hs'⟩
      exact filed_of_createReport (s := { s with messaging := { s.messaging with rates } }) rfl
        (rejectIf_ok.mp hne) rfl ⟨rfl, rfl⟩ hunique hs'
    · rintro _ s' rfl
      exact ⟨rfl, rfl⟩
  · rintro _ _ ⟨rates, rfl⟩
    exact ⟨rfl, rfl⟩

/-! ## Section 5: Happenings -/

section Effects

theorem Untouched.tables (h : Untouched s s') : s'.tables = s.tables := by
  unfold ServiceState.tables
  rw [h.chat]

theorem Filed.tables (h : Filed s s' target queue) : s'.tables = s.tables := by
  unfold ServiceState.tables
  rw [h.chat]

theorem Filed.wellKept (h : Filed s s' target queue) (hne : queue ≠ some "")
    (hkept : WellKept s.shared.rows) : WellKept s'.shared.rows := by
  obtain ⟨row, -, hqueue, hunique, hshared⟩ := h.added
  rw [hshared]
  refine ⟨?_, ?_⟩
  · have hnew : Table.exists? ReportRow.id row.id s.shared.rows = false := by
      refine eq_false_iff.mpr fun hex => ?_
      obtain ⟨r, hr, hid⟩ := exists?_eq_true.mp hex
      exact (free_of_insertViolates hunique hr).1 hid
    have hids := unique_insertNew hkept.ids row
    rw [insertNew_of_new hnew] at hids
    exact hids
  · intro r hr
    rcases mem_append.mp hr with hold | hnew
    · exact hkept.named r hold
    · rw [mem_singleton.mp hnew, hqueue]
      exact hne

/-- A new report is in a queue of others exactly when its target may not work on it. -/
theorem Filed.parted_iff (h : Filed s s' target queue) (hparted : Parted s.shared.rows s.tables) :
    Parted s'.shared.rows s'.tables ↔ mayHandle s.tables target queue = false := by
  rw [h.tables]
  obtain ⟨row, htarget, hqueue, -, hshared⟩ := h.added
  rw [hshared]
  constructor
  · intro hall
    have hrow := hall row (mem_append_right _ mem_cons_self) target htarget
    rwa [hqueue] at hrow
  · intro hrefused r hr userID huser
    rcases mem_append.mp hr with hold | hnew
    · exact hparted r hold userID huser
    · rw [mem_singleton.mp hnew] at huser ⊢
      rw [htarget] at huser
      cases huser
      rw [hqueue]
      exact hrefused

theorem Resolved.tables (h : Resolved userID s s') : s'.tables = s.tables := by
  rcases h with rfl | ⟨row, row', resolution, -, -, -, rfl⟩
  · rfl
  · rfl

theorem Resolved.sameReport (h : Resolved userID s s') {r' : ReportRow} (hr' : r' ∈ s'.shared.rows)
    : ∃ r ∈ s.shared.rows, SameReport r r' := by
  rcases h with rfl | ⟨row, row', resolution, hfound, -, hreport, rfl⟩
  · exact ⟨r', hr', .refl r'⟩
  · rcases mem_commitResolution hr' with rfl | ⟨hold, -⟩
    · exact ⟨row, (Table.mem_of_lookup hfound).1, hreport⟩
    · exact ⟨r', hold, .refl r'⟩

theorem Resolved.wellKept (h : Resolved userID s s') (hkept : WellKept s.shared.rows) :
    WellKept s'.shared.rows := by
  refine ⟨?_, ?_⟩
  · rcases h with rfl | ⟨row, row', resolution, -, -, -, rfl⟩
    · exact hkept.ids
    · exact unique_replace hkept.ids row'
  · intro r' hr'
    obtain ⟨r, hr, hsame⟩ := h.sameReport hr'
    rw [hsame.queue]
    exact hkept.named r hr

theorem Resolved.parted (h : Resolved userID s s') (hparted : Parted s.shared.rows s.tables) :
    Parted s'.shared.rows s'.tables := by
  intro r' hr' user huser
  obtain ⟨r, hr, hsame⟩ := h.sameReport hr'
  rw [h.tables, hsame.queue]
  exact hparted r hr user (hsame.target ▸ huser)

end Effects

theorem queueOf_ne (t : Tables) (target : ID) (server : Option ID) (category : ReportCategory) :
    queueOf t target server category ≠ some "" := by
  unfold queueOf
  rcases routeReport t target server category with _ | serverID
  · simp
  · show nilIfEmpty serverID ≠ some ""
    unfold nilIfEmpty
    split
    · simp
    · rename_i hne
      simpa using hne

theorem after_listReports (caller : Option ID) (req : ListReportsRequest) (s : ServiceState) :
    after (listReports caller req) s = s := by
  have hsame : ∀ (_ : ConnectError), s = s := fun _ => rfl
  have hends : Ends (listReports caller req) s (fun _ s' => s' = s) fun _ s' => s' = s := by
    refine ends_check (fun userID _ => ?_) hsame
    refine ends_check (fun _ _ => ?_) hsame
    refine ends_check (fun _ _ => ?_) hsame
    refine ends_check (fun page _ => ?_) hsame
    exact ends_pure rfl
  exact hends.after

theorem resolved_of_resolveReport (nfc : String → String) (newID : ID) (caller : Option ID)
    (req : ResolveReportRequest) (s : ServiceState) :
    ∃ userID, Resolved userID s (after (resolveReport nfc newID caller req) s) := by
  rcases caller with _ | userID
  · exact ⟨"", .same rfl⟩
  · exact ⟨userID, resolveReport_spec nfc newID userID req s⟩

theorem wellKept_happen (h : WellKept s.shared.rows) (ev : Happening) :
    WellKept (happen s ev).shared.rows := by
  have huntouched : ∀ s', Untouched s s' → WellKept s'.shared.rows := by
    intro s' hsame
    rw [hsame.shared]
    exact h
  cases ev with
  | reportMessage nfc validUTF8 newID caller req =>
    refine Ends.after (P := fun s' : ServiceState => WellKept s'.shared.rows) ?_
    refine (reportMessage_spec nfc validUTF8 newID caller req s).mono ?_ fun _ s' => huntouched s'
    rintro _ s' ⟨target, server, -, hfiled⟩
    exact hfiled.wellKept (queueOf_ne _ _ _ _) h
  | reportUser nfc newID caller req =>
    refine Ends.after (P := fun s' : ServiceState => WellKept s'.shared.rows) ?_
    refine (reportUser_spec nfc newID caller req s).mono ?_ fun _ s' => huntouched s'
    intro _ s' hfiled
    exact hfiled.wellKept (queueOf_ne _ _ _ _) h
  | listReports caller req =>
    show WellKept (after (listReports caller req) s).shared.rows
    rw [after_listReports]
    exact h
  | resolveReport nfc newID caller req =>
    obtain ⟨userID, hresolved⟩ := resolved_of_resolveReport nfc newID caller req s
    exact hresolved.wellKept h
  | chat | createServer | other => exact h

/-- A report that is filed is routed apart from its target, and no change of roles, members or
    servers lets the target of a report through the check of its queue. -/
def KeepsApart (s : ServiceState) : Happening → Prop
  | .reportMessage nfc validUTF8 newID caller req =>
    succeeds (reportMessage nfc validUTF8 newID caller req) s = true →
      ∀ target server, MessageTarget s.messaging validUTF8 caller req.messageID target server →
        RoutedApart s.tables target server req.category
  | .reportUser nfc newID caller req =>
    succeeds (reportUser nfc newID caller req) s = true →
      RoutedApart s.tables req.userID (nilIfEmpty req.serverID) req.category
  | .listReports _ _ | .resolveReport _ _ _ _ => True
  | .chat ev => Parted s.shared.rows (Chat.step s.messaging.chat ev).db.tables
  | .createServer serverID channelID caller name =>
    Parted s.shared.rows
      (after (createServer serverID channelID caller name) s.messaging.chat).db.tables
  | .other messaging => Parted s.shared.rows messaging.chat.db.tables

/-- A request that files a report, or fails. -/
theorem parted_filing {x : Reporting α} {P : Prop}
    (hends : Ends x s (fun _ s' => Parted s'.shared.rows s'.tables ↔ P)
      fun _ s' => Untouched s s') (h : Parted s.shared.rows s.tables) :
    Parted (after x s).shared.rows (after x s).tables ↔ (succeeds x s = true → P) := by
  unfold Ends at hends
  unfold Action.after Action.succeeds
  rcases hrun : x s with ⟨a, s'⟩ | ⟨e, s'⟩
  · rw [hrun] at hends
    simpa using hends
  · rw [hrun] at hends
    have hsame : Untouched s s' := hends
    refine iff_of_true ?_ fun hfalse => by cases hfalse
    show Parted s'.shared.rows s'.tables
    rw [hsame.shared, hsame.tables]
    exact h

theorem parted_happen (h : Parted s.shared.rows s.tables) (ev : Happening) :
    Parted (happen s ev).shared.rows (happen s ev).tables ↔ KeepsApart s ev := by
  cases ev with
  | reportMessage nfc validUTF8 newID caller req =>
    refine parted_filing ?_ h
    refine (reportMessage_spec nfc validUTF8 newID caller req s).mono ?_ fun _ _ hsame => hsame
    rintro _ s' ⟨target, server, htarget, hfiled⟩
    rw [hfiled.parted_iff h, ← routedApart_iff]
    constructor
    · intro hrouted target' server' htarget'
      obtain ⟨rfl, rfl⟩ := htarget.unique htarget'
      exact hrouted
    · intro hall
      exact hall target server htarget
  | reportUser nfc newID caller req =>
    refine parted_filing ?_ h
    refine (reportUser_spec nfc newID caller req s).mono ?_ fun _ _ hsame => hsame
    intro _ s' hfiled
    rw [hfiled.parted_iff h, ← routedApart_iff]
  | listReports caller req =>
    refine iff_of_true ?_ trivial
    show Parted (after (listReports caller req) s).shared.rows
      (after (listReports caller req) s).tables
    rw [after_listReports]
    exact h
  | resolveReport nfc newID caller req =>
    obtain ⟨userID, hresolved⟩ := resolved_of_resolveReport nfc newID caller req s
    exact iff_of_true (hresolved.parted h) trivial
  | chat | createServer | other => exact Iff.rfl

/-! ## Section 6: Runs -/

/-- **Targets are kept from their reports exactly** in the runs that keep them apart. -/
theorem isolated_along_iff (messaging : MessagingState) (evs : List Happening) :
    (∀ pre, pre <+: evs → Isolated (exec happen (unreported messaging) pre)) ↔
      Guarded happen KeepsApart (unreported messaging) evs := by
  refine along_iff_of_kept (J := fun s => WellKept s.shared.rows) (I := Isolated)
    (fun s ev hkept => wellKept_happen hkept ev) ?_ ?_ ?_
  · intro s ev hkept hisolated
    rw [isolated_iff_parted (wellKept_happen hkept ev)]
    exact parted_happen ((isolated_iff_parted hkept).mp hisolated) ev
  · refine ⟨nodup_nil, ?_⟩
    intro r hr
    cases hr
  · intro r hr
    cases hr

/-- A server with an owner, two members, and a role whose holders work on reports. -/
def courtTables : Tables where
  users := [{ id := "owner", signingPublicKey := none },
    { id := "ann", signingPublicKey := none }, { id := "bob", signingPublicKey := none }]
  servers := [{ id := "srv", ownerID := "owner" }]
  members := [{ userID := "owner", serverID := "srv" }, { userID := "ann", serverID := "srv" },
    { userID := "bob", serverID := "srv" }]
  roles := [{ id := "srv", serverID := "srv", name := "@everyone", permissions := viewChannel,
              position := 0 },
    { id := "judges", serverID := "srv", name := "judges", permissions := manageReports,
      position := 1 }]

theorem courtTables_constraints : courtTables.Constraints := by decide

def courtState : MessagingState where
  chat := { db := ⟨courtTables, courtTables_constraints⟩ }
  archive := { messagesPK := unique_noMessages, pinsPK := unique_noPins }

/-- Ann reports Bob to the moderators of the server, of whom he becomes one. -/
def promotion : List Happening :=
  [.reportUser id "report" (some "ann") { userID := "bob", serverID := "srv", category := .spam },
    .chat (.call (some "owner")
      (.setMemberRoles { serverID := "srv", userID := "bob", roleIDs := ["judges"] }))]

/-- Ann reports Bob to the platform, and Bob creates a server. -/
def founding : List Happening :=
  [.reportUser id "report" (some "ann") { userID := "bob", category := .spam },
    .createServer "new" "general" (some "bob") "new"]

theorem not_isolated_of_mayHandle (hkept : WellKept s.shared.rows) (hr : r ∈ s.shared.rows)
    (htarget : r.targetUserID = some userID) (h : mayHandle s.tables userID r.serverID = true) :
    ¬ Isolated s := by
  intro hisolated
  have hrefused := (isolated_iff_parted hkept).mp hisolated r hr userID htarget
  rw [h] at hrefused
  cases hrefused

/-- In both queues a report can come to be in the hands of its target. -/
theorem not_isolated_court :
    ¬ Isolated (exec happen (unreported courtState) promotion) ∧
      ¬ Isolated (exec happen (unreported courtState) founding) := by
  constructor
  · have hkept : WellKept (exec happen (unreported courtState) promotion).shared.rows :=
      ⟨by decide +kernel, by decide +kernel⟩
    obtain ⟨r, hr, htarget, hqueue⟩ :
        ∃ r ∈ (exec happen (unreported courtState) promotion).shared.rows,
          r.targetUserID = some "bob" ∧
            mayHandle (exec happen (unreported courtState) promotion).tables "bob"
              r.serverID = true := by decide +kernel
    exact not_isolated_of_mayHandle hkept hr htarget hqueue
  · have hkept : WellKept (exec happen (unreported courtState) founding).shared.rows :=
      ⟨by decide +kernel, by decide +kernel⟩
    obtain ⟨r, hr, htarget, hqueue⟩ :
        ∃ r ∈ (exec happen (unreported courtState) founding).shared.rows,
          r.targetUserID = some "bob" ∧
            mayHandle (exec happen (unreported courtState) founding).tables "bob"
              r.serverID = true := by decide +kernel
    exact not_isolated_of_mayHandle hkept hr htarget hqueue

end Meza.Reports
