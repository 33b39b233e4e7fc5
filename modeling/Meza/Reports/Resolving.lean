import Meza.Lib.Pool
import Meza.Reports.Store

/-! # Resolving reports at the same time

    `ResolveReport` and `CreateReport` of the store as any number of calls run
    them, for any reports, each statement a step. `ResolveReport` is a
    transaction: it locks the row of the report, so that others wait for it,
    and nothing it writes is seen before it commits. A statement that would
    make two entries in a unique index equal waits for a transaction that may
    still take one of them back, and fails otherwise. A statement that fails
    ends its transaction, which then changes nothing.

    `now()` is the time at which a transaction began. -/

namespace Meza.Reports

open Store Chat List Table Run Bool Trail Resolution

/-! ## Section 1: Calls and phases -/

structure ResolveRequest where
  reportID : ID
  moderatorID : ID
  action : ReportAction
  note : String := ""
  deriving DecidableEq, Repr

inductive Call where
  | resolveReport (req : ResolveRequest)
  | createReport (opts : CreateReportOpts)

inductive Phase where
  /-- `BEGIN` -/
  | resolveBegun (req : ResolveRequest)
  /-- `SELECT ... FOR UPDATE` -/
  | began (req : ResolveRequest) (startedAt : Int)
  /-- The transition, and `UPDATE reports` -/
  | locked (req : ResolveRequest) (startedAt : Int) (row : ReportRow)
  /-- `INSERT INTO report_resolutions` -/
  | updated (req : ResolveRequest) (startedAt : Int) (row : ReportRow)
  /-- `COMMIT` -/
  | appended (row : ReportRow) (resolution : Resolution)
  | resolved (row : ReportRow)
  /-- `INSERT INTO reports` -/
  | createBegun (opts : CreateReportOpts)
  | created (row : ReportRow)
  | refused (error : ReportError)
  deriving DecidableEq

def Phase.begin : Call → Phase
  | .resolveReport req => .resolveBegun req
  | .createReport opts => .createBegun opts

/-- The call has returned a report. -/
def Phase.succeeded : Phase → Bool
  | .resolved _ | .created _ => true
  | _ => false

/-- The report whose row the transaction has locked. -/
def Phase.lock : Phase → Option ID
  | .locked _ _ row | .updated _ _ row | .appended row _ => some row.id
  | _ => none

/-- The row that the transaction has written and not committed. -/
def Phase.pending : Phase → Option ReportRow
  | .updated _ _ row | .appended row _ => some row
  | _ => none

/-- What is committed. -/
structure Shared where
  rows : List ReportRow := []
  trail : List Resolution := []
  deriving DecidableEq

structure Outcome where
  now : Int := 0
  newID : ID := ""
  /-- The statement returns an error. -/
  failed : Bool := false

/-! ## Section 2: Steps -/

def lockedBy (others : List Phase) (reportID : ID) : Bool :=
  others.any fun p => p.lock = some reportID

/-- Another transaction has written an entry that the row would have too, or taken such an
    entry out, and has not committed. -/
def awaits (rows : List ReportRow) (others : List Phase) (r : ReportRow) : Bool :=
  (others.filterMap Phase.pending).any fun q =>
    collides q r ∨ rows.any fun r' => r'.id = q.id ∧ collides r' r

def commitResolution (sh : Shared) (row : ReportRow) (resolution : Resolution) : Shared :=
  { rows := updateWhere (·.id = row.id) (fun _ => row) sh.rows
    trail := sh.trail ++ [resolution] }

def insertReport (sh : Shared) (row : ReportRow) : Shared := { sh with rows := sh.rows ++ [row] }

/-- `ReportStore.ResolveReport` after it has locked the row and read it. -/
def updateStep (sh : Shared) (others : List Phase) (o : Outcome) (req : ResolveRequest)
    (startedAt : Int) (row : ReportRow) : Option (Shared × Phase) :=
  match transition row.status req.action with
  | none => some (sh, .refused .invalidTransition)
  | some newStatus =>
    let row' := row.resolve newStatus startedAt
    if o.failed then some (sh, .refused .failed)
    else if awaits sh.rows others row' then none
    else if updateViolates sh.rows row' then some (sh, .refused .alreadyExists)
    else some (sh, .updated req startedAt row')

/-- `ReportStore.CreateReport`. -/
def createStep (sh : Shared) (others : List Phase) (o : Outcome) (opts : CreateReportOpts) :
    Option (Shared × Phase) :=
  let row := opts.row o.now
  if o.failed ∨ row.checked = false then some (sh, .refused .failed)
  else if awaits sh.rows others row then none
  else if insertViolates sh.rows row then some (sh, .refused .alreadyExists)
  else some (insertReport sh row, .created row)

def next (sh : Shared) (others : List Phase) (p : Phase) (o : Outcome) : Option (Shared × Phase) :=
  match p with
  | .resolveBegun req =>
    if o.failed then some (sh, .refused .failed) else some (sh, .began req o.now)
  | .began req startedAt =>
    if o.failed then some (sh, .refused .failed)
    else if lockedBy others req.reportID then none
    else
      match lookup ReportRow.id req.reportID sh.rows with
      | none => some (sh, .refused .notFound)
      | some row => some (sh, .locked req startedAt row)
  | .locked req startedAt row => updateStep sh others o req startedAt row
  | .updated req startedAt row =>
    if o.failed ∨ noteChecked req.note = false then some (sh, .refused .failed)
    else
      some (sh, .appended row
        { id := o.newID, reportID := req.reportID, moderatorID := req.moderatorID
          action := req.action, note := nilIfEmpty req.note, createdAt := startedAt })
  | .appended row resolution =>
    if o.failed then some (sh, .refused .failed)
    else some (commitResolution sh row resolution, .resolved row)
  | .createBegun opts => createStep sh others o opts
  | .resolved _ | .created _ | .refused _ => none

abbrev State : Type := Pool.State Shared Phase

abbrev Event : Type := Pool.Event Call Outcome

/-- Any interleaving. -/
abbrev step : State → Event → State := Pool.step .begin next

/-- No report has been filed yet. -/
def initial : State := { shared := {}, calls := [] }

/-! ## Section 3: What a step changes -/

inductive Change (sh : Shared) (others : List Phase) (o : Outcome) : Phase → Shared → Phase → Prop
    where
  | refuse {p : Phase} (e : ReportError) : Change sh others o p sh (.refused e)
  | start {req : ResolveRequest} : Change sh others o (.resolveBegun req) sh (.began req o.now)
  | lock {req : ResolveRequest} {startedAt : Int} {row : ReportRow}
      (free : lockedBy others req.reportID = false)
      (found : lookup ReportRow.id req.reportID sh.rows = some row) :
      Change sh others o (.began req startedAt) sh (.locked req startedAt row)
  | update {req : ResolveRequest} {startedAt : Int} {row : ReportRow} (status : ReportStatus)
      (valid : transition row.status req.action = some status)
      (settled : awaits sh.rows others (row.resolve status startedAt) = false)
      (unique : updateViolates sh.rows (row.resolve status startedAt) = false) :
      Change sh others o (.locked req startedAt row) sh
        (.updated req startedAt (row.resolve status startedAt))
  | append {req : ResolveRequest} {startedAt : Int} {row : ReportRow} (resolution : Resolution)
      (report : resolution.reportID = req.reportID) (action : resolution.action = req.action) :
      Change sh others o (.updated req startedAt row) sh (.appended row resolution)
  | commit {row : ReportRow} {resolution : Resolution} (succeeds : o.failed = false) :
      Change sh others o (.appended row resolution) (commitResolution sh row resolution)
        (.resolved row)
  | create {opts : CreateReportOpts} (settled : awaits sh.rows others (opts.row o.now) = false)
      (unique : insertViolates sh.rows (opts.row o.now) = false) :
      Change sh others o (.createBegun opts) (insertReport sh (opts.row o.now))
        (.created (opts.row o.now))

variable {others : List Phase} {rows : List ReportRow} {o : Outcome} {p p' q : Phase}
  {r row : ReportRow} {resolution : Resolution} {sh sh' : Shared}

theorem updateStep_change {req : ResolveRequest} {startedAt : Int}
    (h : updateStep sh others o req startedAt row = some (sh', p')) :
    Change sh others o (.locked req startedAt row) sh' p' := by
  unfold updateStep at h
  rcases htransition : transition row.status req.action with _ | status
  · rw [htransition] at h
    cases h
    exact .refuse _
  · rw [htransition] at h
    simp only at h
    split at h
    · cases h
      exact .refuse _
    · split at h
      · cases h
      · rename_i hsettled
        split at h
        · cases h
          exact .refuse _
        · rename_i hunique
          cases h
          exact .update status htransition (eq_false_iff.mpr hsettled) (eq_false_iff.mpr hunique)

theorem createStep_change {opts : CreateReportOpts}
    (h : createStep sh others o opts = some (sh', p')) :
    Change sh others o (.createBegun opts) sh' p' := by
  simp only [createStep] at h
  split at h
  · cases h
    exact .refuse _
  · split at h
    · cases h
    · rename_i hsettled
      split at h
      · cases h
        exact .refuse _
      · rename_i hunique
        cases h
        exact .create (eq_false_iff.mpr hsettled) (eq_false_iff.mpr hunique)

theorem next_change (h : next sh others p o = some (sh', p')) : Change sh others o p sh' p' := by
  cases p with
  | resolveBegun req =>
    simp only [next] at h
    split at h
    · cases h
      exact .refuse _
    · cases h
      exact .start
  | began req startedAt =>
    simp only [next] at h
    split at h
    · cases h
      exact .refuse _
    · split at h
      · cases h
      · rename_i hfree
        split at h
        · cases h
          exact .refuse _
        · rename_i row hfound
          cases h
          exact .lock (eq_false_iff.mpr hfree) hfound
  | locked req startedAt row => exact updateStep_change h
  | updated req startedAt row =>
    simp only [next] at h
    split at h
    · cases h
      exact .refuse _
    · cases h
      exact .append _ rfl rfl
  | appended row resolution =>
    simp only [next] at h
    split at h
    · cases h
      exact .refuse _
    · rename_i hfailed
      cases h
      exact .commit (eq_false_iff.mpr hfailed)
  | createBegun opts => exact createStep_change h
  | resolved | created | refused => cases h

/-! ## Section 4: What every run keeps -/

/-- What is committed satisfies the unique indexes and the foreign key of the trail. -/
structure Settled (sh : Shared) : Prop where
  ids : Table.UniqueOn ReportRow.id sh.rows
  entries : ∀ r ∈ sh.rows, ∀ r' ∈ sh.rows, r.id ≠ r'.id → collides r r' = false
  known : ∀ x ∈ sh.trail, ∃ r ∈ sh.rows, r.id = x.reportID

/-- The row is what an action makes of a committed row, and its entries are free. -/
structure Rewrites (sh : Shared) (action : ReportAction) (row : ReportRow) : Prop where
  valid : ∃ r ∈ sh.rows, r.id = row.id ∧ transition r.status action = some row.status
  free : ∀ r ∈ sh.rows, r.id ≠ row.id → collides r row = false

/-- What a transaction has read is still committed. -/
def Holds (sh : Shared) : Phase → Prop
  | .locked req _ row => row ∈ sh.rows ∧ row.id = req.reportID
  | .updated req _ row => row.id = req.reportID ∧ Rewrites sh req.action row
  | .appended row resolution =>
    resolution.reportID = row.id ∧ Rewrites sh resolution.action row
  | .resolveBegun _ | .began _ _ | .resolved _ | .createBegun _ | .created _ | .refused _ => True

/-- Two transactions lock different rows and write different entries. -/
structure Apart (p q : Phase) : Prop where
  locks : ∀ i ∈ p.lock, ∀ j ∈ q.lock, i ≠ j
  entries : ∀ r ∈ p.pending, ∀ r' ∈ q.pending, collides r r' = false

theorem Apart.symm (h : Apart p q) : Apart q p where
  locks := fun i hi j hj => (h.locks j hj i hi).symm
  entries := fun r hr r' hr' => collides_comm r' r ▸ h.entries r' hr' r hr

theorem apart_of_none (hlock : p.lock = none) (hpending : p.pending = none) : Apart p q where
  locks := by
    intro i hi
    rw [hlock] at hi
    cases hi
  entries := by
    intro r hr
    rw [hpending] at hr
    cases hr

abbrev Locking : State → Prop := Pool.Inv Settled Holds fun _ => Apart

theorem lock_ne_of_free {reportID : ID} (h : lockedBy others reportID = false) (hq : q ∈ others) :
    q.lock ≠ some reportID := by
  intro hlock
  have htrue : lockedBy others reportID = true :=
    List.any_eq_true.mpr ⟨q, hq, decide_eq_true hlock⟩
  rw [h] at htrue
  cases htrue

theorem free_of_settled {q : ReportRow} (h : awaits rows others r = false)
    (hp : p ∈ others) (hq : p.pending = some q) : collides q r = false := by
  refine eq_false_iff.mpr fun hcollides => ?_
  have htrue : awaits rows others r = true :=
    List.any_eq_true.mpr ⟨q, List.mem_filterMap.mpr ⟨p, hp, hq⟩,
      decide_eq_true (.inl hcollides)⟩
  rw [h] at htrue
  cases htrue

theorem free_of_updateViolates {r' : ReportRow} (h : updateViolates rows r = false)
    (hr' : r' ∈ rows) (hne : r'.id ≠ r.id) : collides r' r = false := by
  refine eq_false_iff.mpr fun hcollides => ?_
  have htrue : updateViolates rows r = true :=
    List.any_eq_true.mpr ⟨r', hr', decide_eq_true ⟨hne, hcollides⟩⟩
  rw [h] at htrue
  cases htrue

theorem free_of_insertViolates {r' : ReportRow} (h : insertViolates rows r = false)
    (hr' : r' ∈ rows) : r'.id ≠ r.id ∧ collides r' r = false := by
  have hfalse : ¬ (r'.id = r.id ∨ collides r' r = true) := by
    intro hor
    have htrue : insertViolates rows r = true :=
      List.any_eq_true.mpr ⟨r', hr', decide_eq_true hor⟩
    rw [h] at htrue
    cases htrue
  exact ⟨fun heq => hfalse (.inl heq), eq_false_iff.mpr fun heq => hfalse (.inr heq)⟩

theorem mem_commitResolution (h : r ∈ (commitResolution sh row resolution).rows) :
    r = row ∨ (r ∈ sh.rows ∧ r.id ≠ row.id) := by
  obtain ⟨r₀, hr₀, rfl⟩ := Table.mem_updateWhere.mp h
  by_cases hid : r₀.id = row.id
  · left
    simp [hid]
  · right
    simp [hid, hr₀]

theorem mem_commitResolution_of_ne (hr : r ∈ sh.rows) (hne : r.id ≠ row.id) :
    r ∈ (commitResolution sh row resolution).rows :=
  Table.mem_updateWhere.mpr ⟨r, hr, by simp [hne]⟩

theorem locking_commit (h : Locking { shared := sh, calls := .appended row resolution :: others }) :
    Locking { shared := commitResolution sh row resolution, calls := .resolved row :: others } := by
  obtain ⟨hreport, hrewrites⟩ := h.each _ mem_cons_self
  have hthere : ∀ r ∈ sh.rows, ∃ r' ∈ (commitResolution sh row resolution).rows, r'.id = r.id := by
    intro r hr
    by_cases hid : r.id = row.id
    · refine ⟨row, mem_updateWhere.mpr ⟨r, hr, by simp [hid]⟩, hid.symm⟩
    · exact ⟨r, mem_commitResolution_of_ne hr hid, rfl⟩
  refine h.replace ⟨?_, ?_, ?_⟩ trivial ?_ fun _ _ hpair => hpair
  · exact unique_replace h.shared.ids row
  · intro r hr r' hr' hne
    rcases mem_commitResolution hr with heq | ⟨hold, hrne⟩
    · subst heq
      rcases mem_commitResolution hr' with heq' | ⟨hold', hrne'⟩
      · exact absurd (congrArg ReportRow.id heq'.symm) hne
      · rw [collides_comm]
        exact hrewrites.free r' hold' hrne'
    · rcases mem_commitResolution hr' with heq' | ⟨hold', hrne'⟩
      · rw [heq']
        exact hrewrites.free r hold hrne
      · exact h.shared.entries r hold r' hold' hne
  · intro x hx
    rcases mem_append.mp hx with hx | hx
    · obtain ⟨r, hr, hid⟩ := h.shared.known x hx
      obtain ⟨r', hr', hid'⟩ := hthere r hr
      exact ⟨r', hr', hid'.trans hid⟩
    · rw [mem_singleton.mp hx, hreport]
      obtain ⟨r, hr, hid, -⟩ := hrewrites.valid
      obtain ⟨r', hr', hid'⟩ := hthere r hr
      exact ⟨r', hr', hid'.trans hid⟩
  · intro q hq hholds hapart
    refine ⟨?_, apart_of_none rfl rfl⟩
    -- the other transaction has locked another row
    have hkeep : ∀ action row', q.lock = some row'.id → q.pending = some row' →
        Rewrites sh action row' → Rewrites (commitResolution sh row resolution) action row' := by
      intro action row' hlock hpending hrewrites'
      obtain ⟨r, hr, hid, hvalid⟩ := hrewrites'.valid
      have hne : r.id ≠ row.id := by
        rw [hid]
        exact (hapart.locks row.id rfl row'.id hlock).symm
      refine ⟨⟨r, mem_commitResolution_of_ne hr hne, hid, hvalid⟩, ?_⟩
      intro r' hr' hne'
      rcases mem_commitResolution hr' with rfl | ⟨hr', -⟩
      · exact hapart.entries r' rfl row' hpending
      · exact hrewrites'.free r' hr' hne'
    cases q with
    | locked req startedAt row' =>
      obtain ⟨hrow', hid⟩ := hholds
      exact ⟨mem_commitResolution_of_ne hrow' (hapart.locks row.id rfl row'.id rfl).symm, hid⟩
    | updated req startedAt row' | appended row' resolution' =>
      exact ⟨hholds.1, hkeep _ row' rfl rfl hholds.2⟩
    | resolveBegun | began | resolved | createBegun | created | refused => trivial

theorem locking_create {opts : CreateReportOpts}
    (h : Locking { shared := sh, calls := .createBegun opts :: others })
    (hsettled : awaits sh.rows others row = false) (hunique : insertViolates sh.rows row = false) :
    Locking { shared := insertReport sh row, calls := .created row :: others } := by
  have hmem : ∀ r ∈ (insertReport sh row).rows, r ∈ sh.rows ∨ r = row := by
    intro r hr
    rcases List.mem_append.mp hr with hr | hr
    · exact Or.inl hr
    · exact Or.inr (List.mem_singleton.mp hr)
  refine h.replace ⟨?_, ?_, ?_⟩ trivial ?_ fun _ _ hpair => hpair
  · -- the primary key, then the unique index, then the log of actions
    have hnew : exists? ReportRow.id row.id sh.rows = false := by
      refine eq_false_iff.mpr fun hex => ?_
      obtain ⟨r, hr, hid⟩ := exists?_eq_true.mp hex
      exact (free_of_insertViolates hunique hr).1 hid
    have hunique' := unique_insertNew h.shared.ids row
    rw [insertNew_of_new hnew] at hunique'
    exact hunique'
  · intro r hr r' hr' hne
    rcases hmem r hr with hold | heq
    · rcases hmem r' hr' with hold' | heq'
      · exact h.shared.entries r hold r' hold' hne
      · rw [heq']
        exact (free_of_insertViolates hunique hold).2
    · subst heq
      rcases hmem r' hr' with hold' | heq'
      · rw [collides_comm]
        exact (free_of_insertViolates hunique hold').2
      · exact absurd (congrArg ReportRow.id heq'.symm) hne
  · intro x hx
    obtain ⟨r, hr, hid⟩ := h.shared.known x hx
    exact ⟨r, mem_append_left _ hr, hid⟩
  · intro q hq hholds _
    refine ⟨?_, apart_of_none rfl rfl⟩
    -- a row that is still to be committed cannot collide, since the insert waited for it
    have hkeep : ∀ action row', q.pending = some row' →
        Rewrites sh action row' → Rewrites (insertReport sh row) action row' := by
      intro action row' hpending hrewrites
      obtain ⟨r, hr, hid, hvalid⟩ := hrewrites.valid
      refine ⟨⟨r, mem_append_left _ hr, hid, hvalid⟩, ?_⟩
      intro r' hr' hne'
      rcases hmem r' hr' with hr' | rfl
      · exact hrewrites.free r' hr' hne'
      · rw [collides_comm]
        exact free_of_settled hsettled hq hpending
    cases q with
    | locked req startedAt row' => exact ⟨mem_append_left _ hholds.1, hholds.2⟩
    | updated req startedAt row' | appended row' resolution' =>
      exact ⟨hholds.1, hkeep _ row' rfl hholds.2⟩
    | resolveBegun | began | resolved | createBegun | created | refused => trivial

theorem locking_change (h : Locking { shared := sh, calls := p :: others })
    (hchange : Change sh others o p sh' p') : Locking { shared := sh', calls := p' :: others } := by
  have hp := h.each p mem_cons_self
  have hfirst := (List.pairwise_cons.mp h.pairs).1
  -- as long as nothing is committed, the other transactions have nothing to fear
  have hkeep : ∀ p', Holds sh p' → (∀ q ∈ others, Apart p' q) →
      Locking { shared := sh, calls := p' :: others } := fun p' hholds hapart =>
    h.replace h.shared hholds (fun q hq hholds' _ => ⟨hholds', hapart q hq⟩)
      fun _ _ hpair => hpair
  cases hchange with
  | refuse | start => exact hkeep _ trivial fun q _ => apart_of_none rfl rfl
  | lock hfree hfound =>
    rename_i req startedAt row
    obtain ⟨hrow, hid⟩ := mem_of_lookup hfound
    refine hkeep _ ⟨hrow, hid⟩ ?_
    intro q hq
    refine ⟨?_, ?_⟩
    · intro i hi j hj heq
      have hi' : row.id = i := Option.some.inj hi
      refine lock_ne_of_free hfree hq ?_
      rw [← hid, hi', heq]
      exact hj
    · intro r hr
      cases hr
  | update status hvalid hsettled hunique =>
    rename_i req startedAt row
    obtain ⟨hrow, hid⟩ := hp
    refine hkeep _ ⟨hid, ⟨row, hrow, rfl, hvalid⟩, ?_⟩ ?_
    · intro r hr hne
      exact free_of_updateViolates hunique hr hne
    · intro q hq
      refine ⟨(hfirst q hq).locks, ?_⟩
      intro r hr r' hr'
      cases hr
      rw [collides_comm]
      exact free_of_settled hsettled hq hr'
  | append resolution hreport haction =>
    refine hkeep _ ⟨hreport.trans hp.1.symm, ?_⟩ fun q hq => ⟨(hfirst q hq).locks,
      (hfirst q hq).entries⟩
    rw [haction]
    exact hp.2
  | commit hsucceeds => exact locking_commit h
  | create hsettled hunique => exact locking_create h hsettled hunique

theorem locking_initial : Locking initial := by
  refine Pool.Inv.init ⟨nodup_nil, ?_, ?_⟩
  · intro r hr
    cases hr
  · intro x hx
    cases hx

theorem locking_perm : Pool.OrderFree Locking := Pool.Inv.perm fun _ _ _ hpair => hpair.symm

theorem locking_step (s : State) (ev : Event) (h : Locking s) : Locking (step s ev) := by
  refine Pool.keeps_event locking_perm ?_ ?_ s ev h
  · intro sh calls call hJ
    have hbegin : (Phase.begin call).lock = none ∧ (Phase.begin call).pending = none := by
      cases call with
      | resolveReport | createReport => exact ⟨rfl, rfl⟩
    refine hJ.cons ?_ fun q _ => apart_of_none hbegin.1 hbegin.2
    cases call with
    | resolveReport | createReport => trivial
  · intro sh p others o sh' p' hJ hnext
    exact locking_change hJ (next_change hnext)

theorem locking_exec (evs : List Event) : Locking (exec step initial evs) :=
  exec_kept locking_step locking_initial evs

/-! ## Section 5: The trail -/

/-- For every report, the trail in the order in which it is returned leads from open to the
    status of the report. -/
def Replays (sh : Shared) : Prop :=
  ∀ row ∈ sh.rows, ∀ l, ListResolutions sh.trail row.id l →
    replay transition .opened (l.map action) = some row.status

theorem filter_commit (trail : List Resolution) {id : ID} (h : resolution.reportID = id) :
    (trail ++ [resolution]).filter (·.reportID = id) =
      trail.filter (·.reportID = id) ++ [resolution] := by
  have hlast : [resolution].filter (·.reportID = id) = [resolution] := by simp [h]
  rw [filter_append, hlast]

theorem filter_commit_of_ne (trail : List Resolution) {id : ID} (h : resolution.reportID ≠ id) :
    (trail ++ [resolution]).filter (·.reportID = id) = trail.filter (·.reportID = id) := by
  have hlast : [resolution].filter (·.reportID = id) = [] := by simp [h]
  rw [filter_append, hlast, append_nil]

section Commit

/-- A resolution that is later than the others of its report continues the trail. -/
theorem replays_commit (hreport : resolution.reportID = row.id)
    (hrewrites : Rewrites sh resolution.action row) (h : Replays sh)
    (hlater : ∀ x ∈ sh.trail, x.reportID = resolution.reportID →
      x.createdAt < resolution.createdAt) : Replays (commitResolution sh row resolution) := by
  intro r hr l hl
  have hlist : Listing createdAt ((sh.trail ++ [resolution]).filter (·.reportID = r.id)) l := hl
  rcases mem_commitResolution hr with rfl | ⟨hold, hne⟩
  · rw [filter_commit sh.trail hreport] at hlist
    have hlast : ∀ y ∈ sh.trail.filter (·.reportID = r.id), y.createdAt < resolution.createdAt := by
      intro y hy
      obtain ⟨hy, hid⟩ := List.mem_filter.mp hy
      exact hlater y hy ((of_decide_eq_true hid).trans hreport.symm)
    obtain ⟨l₀, hl₀, rfl⟩ := hlist.append_last hlast
    obtain ⟨r₀, hr₀, hid₀, hvalid⟩ := hrewrites.valid
    have hbefore := h r₀ hr₀ l₀ (hid₀ ▸ hl₀)
    rw [map_append, map_singleton, replay_concat hbefore]
    exact hvalid
  · rw [filter_commit_of_ne sh.trail (hreport.trans_ne hne.symm)] at hlist
    exact h r hold l hlist

/-- A resolution that is not later can be returned before one that it came after. -/
theorem not_replays_commit (hreport : resolution.reportID = row.id)
    (hrewrites : Rewrites sh resolution.action row) (h : Replays sh) {x : Resolution}
    (hx : x ∈ sh.trail) (hid : x.reportID = resolution.reportID)
    (hle : resolution.createdAt ≤ x.createdAt) :
    ¬ Replays (commitResolution sh row resolution) := by
  intro hafter
  obtain ⟨r₀, hr₀, hid₀, -⟩ := hrewrites.valid
  obtain ⟨l, hl⟩ := exists_listing createdAt (sh.trail.filter (·.reportID = row.id))
  have hbefore := h r₀ hr₀ l (hid₀ ▸ hl)
  have hmem : x ∈ sh.trail.filter (·.reportID = row.id) :=
    List.mem_filter.mpr ⟨hx, decide_eq_true (hid.trans hreport)⟩
  obtain ⟨l₁, l₂, rfl, hne, hinsert⟩ := hl.insert hmem hle
  rw [← filter_commit sh.trail hreport] at hinsert
  have hrow : row ∈ (commitResolution sh row resolution).rows :=
    mem_updateWhere.mpr ⟨r₀, hr₀, by simp [hid₀]⟩
  have hreplay := hafter row hrow _ hinsert
  rw [map_append] at hbefore
  have hne' : l₂.map action ≠ [] := by simpa using hne
  have hnone := replay_insert alternating_transition hbefore hne' resolution.action
  rw [map_append, map_cons, hnone] at hreplay
  cases hreplay

end Commit

/-- A new report is open and has no trail. -/
theorem replays_create (hsettled : Settled sh) (hunique : insertViolates sh.rows row = false)
    (hopen : row.status = .opened) (h : Replays sh) : Replays (insertReport sh row) := by
  intro r hr l hl
  rcases List.mem_append.mp hr with hold | hnew
  · exact h r hold l hl
  · rw [List.mem_singleton.mp hnew] at hl ⊢
    have hnone : sh.trail.filter (·.reportID = row.id) = [] := by
      rw [filter_eq_nil_iff]
      intro x hx hid
      obtain ⟨r', hr', hid'⟩ := hsettled.known x hx
      exact (free_of_insertViolates hunique hr').1 (hid'.trans (of_decide_eq_true hid))
    have hlist : Listing createdAt (sh.trail.filter (·.reportID = row.id)) l := hl
    rw [hnone] at hlist
    rw [hlist.eq_nil, hopen]
    rfl

/-! ## Section 6: Commits in the order of the start times -/

/-- A transaction that commits began later than those that have resolved or reopened its
    report. -/
def advances (sh : Shared) (_ : List Phase) (p : Phase) (o : Outcome) : Prop :=
  match p with
  | .appended _ resolution => o.failed = false →
      ∀ x ∈ sh.trail, x.reportID = resolution.reportID → x.createdAt < resolution.createdAt
  | .resolveBegun _ | .began _ _ | .locked _ _ _ | .updated _ _ _ | .resolved _
  | .createBegun _ | .created _ | .refused _ => True

def InStartOrder : State → Event → Prop := Pool.Allows (fun _ _ => True) advances

theorem replays_advance (hlocking : Locking { shared := sh, calls := p :: others })
    (h : Replays sh) :
    Replays (((next sh others p o).map Prod.fst).getD sh) ↔ advances sh others p o := by
  -- only a commit and a new report change what is stored
  have hquiet : (∀ sh' p', next sh others p o = some (sh', p') → sh' = sh) →
      advances sh others p o →
      (Replays (((next sh others p o).map Prod.fst).getD sh) ↔ advances sh others p o) := by
    intro hsame hadvances
    rcases hnext : next sh others p o with _ | ⟨sh', p'⟩
    · exact iff_of_true h hadvances
    · rw [hsame sh' p' hnext]
      exact iff_of_true h hadvances
  cases p with
  | appended row resolution =>
    obtain ⟨hreport, hrewrites⟩ := hlocking.each _ mem_cons_self
    by_cases hfailed : o.failed = true
    · refine hquiet ?_ fun hsucceeds => ?_
      · intro sh' p' hnext
        simp only [next, hfailed, if_true] at hnext
        cases hnext
        rfl
      · rw [hfailed] at hsucceeds
        cases hsucceeds
    · have hsucceeds : o.failed = false := eq_false_iff.mpr hfailed
      have hnext : next sh others (.appended row resolution) o =
          some (commitResolution sh row resolution, .resolved row) := by
        simp only [next, hsucceeds]
        rfl
      rw [hnext]
      constructor
      · intro hafter _ x hx hid
        by_contra hlt
        exact not_replays_commit hreport hrewrites h hx hid (not_lt.mp hlt) hafter
      · intro hlater
        exact replays_commit hreport hrewrites h (hlater hsucceeds)
  | createBegun opts =>
    refine iff_of_true ?_ trivial
    rcases hnext : next sh others (.createBegun opts) o with _ | ⟨sh', p'⟩
    · exact h
    · show Replays sh'
      cases next_change hnext with
      | refuse e => exact h
      | create hsettled hunique => exact replays_create hlocking.shared hunique rfl h
  | resolveBegun | began | locked | updated =>
    refine hquiet (fun sh' p' hnext => ?_) trivial
    cases next_change hnext <;> rfl
  | resolved | created | refused => exact hquiet (fun sh' p' hnext => by cases hnext) trivial

theorem replays_step (s : State) (ev : Event) (hlocking : Locking s) (h : Replays s.shared) :
    Replays (step s ev).shared ↔ InStartOrder s ev := by
  cases ev with
  | start call => exact iff_of_true h trivial
  | advance i o =>
    rcases hp : s.calls[i]? with _ | p
    · have hsame : step s (.advance i o) = s := by simp only [step, Pool.step, hp]
      rw [hsame]
      refine iff_of_true h fun p hp' => ?_
      rw [hp] at hp'
      cases hp'
    · have hfirst : Locking { shared := s.shared, calls := p :: s.calls.eraseIdx i } :=
        locking_perm _ _ _ (Pool.perm_cons_eraseIdx hp) hlocking
      have hiff := replays_advance (o := o) hfirst h
      rw [Pool.shared_advance hp o, hiff]
      constructor
      · intro hadvances p' hp'
        rw [hp] at hp'
        cases hp'
        exact hadvances
      · intro hall
        exact hall p hp

/-! ## Section 7: Runs -/

/-- At most one open report for a reporter and a message. -/
def OneOpen (sh : Shared) : Prop :=
  ∀ r ∈ sh.rows, ∀ r' ∈ sh.rows, ∀ reporterID messageID,
    r.status = .opened → r.reporterID = some reporterID → r.targetMessageID = some messageID →
    r'.status = .opened → r'.reporterID = some reporterID → r'.targetMessageID = some messageID →
      r = r'

/-- What the trail of a run is good for: it replays to the status of the report in every state,
    no reporter has two open reports about a message, and no step of a call that returns an
    error changes anything. -/
structure Audited (evs : List Event) : Prop where
  replays : ∀ pre, pre <+: evs → Replays (exec step initial pre).shared
  oneOpen : ∀ pre, pre <+: evs → OneOpen (exec step initial pre).shared
  errors : ∀ pre i o post e, pre ++ .advance i o :: post = evs →
    (exec step initial evs).calls[i]? = some (.refused e) →
      (step (exec step initial pre) (.advance i o)).shared = (exec step initial pre).shared

theorem oneOpen_of_settled (h : Settled sh) : OneOpen sh := by
  intro r hr r' hr' reporterID messageID hopen hreporter hmessage hopen' hreporter' hmessage'
  by_contra hne
  have hid : r.id ≠ r'.id := fun heq => hne (eq_of_key h.ids hr hr' heq)
  have hentry : r.openEntry = some (reporterID, messageID) := by
    simp [ReportRow.openEntry, hreporter, hmessage, hopen]
  have hentry' : r'.openEntry = some (reporterID, messageID) := by
    simp [ReportRow.openEntry, hreporter', hmessage', hopen']
  have hcollides : collides r r' = true := by
    simp [collides, hentry, hentry']
  rw [h.entries r hr r' hr' hid] at hcollides
  cases hcollides

/-- A step either changes nothing that is stored or ends its call with a report. -/
theorem next_succeeds (h : next sh others p o = some (sh', p')) :
    sh' = sh ∨ p'.succeeded = true := by
  cases next_change h with
  | refuse | start | lock | update | append => exact .inl rfl
  | commit | create => exact .inr rfl

theorem next_of_succeeded (h : p.succeeded = true) (sh : Shared) (others : List Phase) (o : Outcome)
    : next sh others p o = none := by
  cases p with
  | resolved row => rfl
  | created row => rfl
  | resolveBegun | began | locked | updated | appended | createBegun | refused => cases h

/-- A call that returns an error has changed nothing. -/
theorem shared_of_refused {pre post : List Event} {i : Nat} {e : ReportError}
    (hend : (exec step initial (pre ++ .advance i o :: post)).calls[i]? =
      some (.refused e)) :
    (step (exec step initial pre) (.advance i o)).shared = (exec step initial pre).shared := by
  rcases @Pool.step_shared _ _ _ _ Phase.begin next (exec step initial pre)
    (.advance i o) with hsame | ⟨j, o', p, p', hev, hp, hnext, hp'⟩
  · exact hsame
  · cases hev
    rcases next_succeeds hnext with hsame | hsucceeded
    · exact hsame
    · -- then the call would have returned a report
      have hlater : (exec step (step (exec step initial pre) (.advance i o)) post).calls[i]? =
          some p' := Pool.call_exec_of_finished (next_of_succeeded hsucceeded) hp' post
      rw [exec_append] at hend
      have hend' : (exec step (step (exec step initial pre) (.advance i o)) post).calls[i]? =
          some (.refused e) := hend
      rw [hlater] at hend'
      cases hend'
      cases hsucceeded

/-- **The trail is right exactly** where transactions commit in the order in which they began;
    the rest holds in every run. -/
theorem audited_iff (evs : List Event) : Audited evs ↔ Guarded step InStartOrder initial evs := by
  have hstart : Replays initial.shared := by
    intro row hrow
    cases hrow
  have htrail : (∀ pre, pre <+: evs → Replays (exec step initial pre).shared) ↔
      Guarded step InStartOrder initial evs :=
    along_iff_of_kept (I := fun s : State => Replays s.shared) locking_step replays_step
      locking_initial hstart
  constructor
  · intro h
    exact htrail.mp h.replays
  · intro h
    refine ⟨htrail.mpr h, ?_, ?_⟩
    · intro pre _
      exact oneOpen_of_settled (locking_exec pre).shared
    · rintro pre i o post e rfl hend
      exact shared_of_refused hend

def annsReport : CreateReportOpts :=
  { id := "r1", reporterID := "ann", targetUserID := "bob", targetMessageID := "m1"
    category := .spam }

def resolves (moderatorID : ID) (action : ReportAction) : Event :=
  .start (.resolveReport { reportID := "r1", moderatorID, action })

def turn (i : Nat) (now : Int) : Event := .advance i { now, newID := "n" }

/-- Mia's transaction begins first, but Noah's is the first to lock the report. Mia's then
    reopens what Noah's has resolved. -/
def overtaken : List Event :=
  [.start (.createReport annsReport), turn 0 1, resolves "mia" .reopen, turn 1 5,
    resolves "noah" .resolved, turn 2 6, turn 2 6, turn 2 6, turn 2 6, turn 2 6,
    turn 1 7, turn 1 7, turn 1 7, turn 1 7]

/-- The trail says that an open report was reopened and then resolved, and the report is open. -/
theorem not_audited_overtaken : ¬ ∀ evs, Audited evs := by
  intro hall
  have hreplays := (hall overtaken).replays overtaken (prefix_refl overtaken)
  have hwrong : ∃ row ∈ (exec step initial overtaken).shared.rows,
      ((exec step initial overtaken).shared.trail.reverse.Perm
        ((exec step initial overtaken).shared.trail.filter (·.reportID = row.id)) ∧
      (exec step initial overtaken).shared.trail.reverse.Pairwise
        fun x y => x.createdAt ≤ y.createdAt) ∧
      replay transition .opened ((exec step initial overtaken).shared.trail.reverse.map
        action) ≠ some row.status := by
    decide +kernel
  obtain ⟨row, hrow, ⟨hperm, hsorted⟩, hne⟩ := hwrong
  exact hne (hreplays row hrow _ ⟨hperm, hsorted⟩)

end Meza.Reports
