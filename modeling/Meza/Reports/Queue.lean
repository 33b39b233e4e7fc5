import Meza.Reports.Isolation

/-! # Working through a queue

    Whoever handles reports reads a queue page by page, while reports are filed and resolved.
    The newest reports come first, so what is filed meanwhile does not move the pages. -/

namespace Meza.Reports

open Store Chat List Table Paging Run

/-! ## Section 1: The client -/

/-- A client that asks for page after page until there is no next cursor. Before each of its
    requests anything may happen. -/
def followReports (userID : ID) (req : ListReportsRequest) :
    List (List Happening) → ReportCursor → ServiceState → Option (List ReportView)
  | [], _, _ => none
  | evs :: rest, cursor, s =>
    match listReports (some userID) { req with cursor } (exec happen s evs) with
    | .error _ _ => none
    | .ok page s' =>
      if page.nextCursor = .absent then some page.reports
      else (followReports userID req rest page.nextCursor s').map (page.reports ++ ·)

/-- The queue of the request. -/
def ServiceState.queue (s : ServiceState) (req : ListReportsRequest) : List ReportRow :=
  orderBy pageKey (queueReports s.shared.rows (nilIfEmpty req.serverID) req.status)

/-- The queue at each of the requests. -/
def queues (req : ListReportsRequest) : List (List Happening) → ServiceState → List (List ReportRow)
  | [], _ => []
  | evs :: rest, s => (exec happen s evs).queue req :: queues req rest (exec happen s evs)

def viewKey (v : ReportView) : (Int ×ₗ ID)ᵒᵈ := .toDual (toLex (v.createdAt, v.id))

/-- Reports beyond the cursor, the newest first and none twice; a report is among them if it is in
    the queue at each of the requests. -/
structure Shown (queues : List (List ReportRow)) (cursor : ReportCursor) (views : List ReportView) :
    Prop where
  newestFirst : Ascending viewKey views
  beyond : ∀ v ∈ views, ∀ c ∈ cursor.key, c < viewKey v
  complete : ∀ k, (∀ c ∈ cursor.key, c < k) → (∀ queue ∈ queues, k ∈ queue.map pageKey) →
    k ∈ views.map viewKey

/-! ## Section 2: One page -/

variable {limit : Nat} {userID : ID} {req : ListReportsRequest} {s : ServiceState}
  {gaps : List (List Happening)} {cursor : ReportCursor} {views : List ReportView}

/-- A page that is not the last one ends with the report that the next cursor names. -/
theorem listPage_cases (hlimit : 0 < limit) {rest : List ReportRow}
    (hrest : after pageKey cursor.key (s.queue req) = rest) :
    listPage s.shared.rows (nilIfEmpty req.serverID) req.status cursor limit = (rest, .absent) ∨
      ∃ xs r ys, rest = xs ++ r :: ys ∧ listPage s.shared.rows (nilIfEmpty req.serverID) req.status
        cursor limit = (xs ++ [r], .at r.createdAt r.id) := by
  unfold ServiceState.queue at hrest
  unfold listPage
  rw [hrest]
  dsimp only
  by_cases hlast : rest.length ≤ limit
  · left
    rw [take_of_length_le (by omega)]
    exact if_neg (by omega)
  -- one report more than the page was found
  · obtain ⟨xs, r, ys, rfl, rfl, hne⟩ := exists_page hlimit (Nat.lt_of_not_le hlast)
    have hpos := length_pos_iff.mpr hne
    have htake : ((xs ++ r :: ys).take (xs.length + 1 + 1)).take (xs.length + 1) = xs ++ [r] := by
      rw [take_take, Nat.min_eq_left (by omega), take_length_add_append]
      rfl
    refine .inr ⟨xs, r, ys, rfl, ?_⟩
    rw [if_pos (by simp; omega), htake]
    simp

theorem pageSize_pos (limit : Nat) : 0 < pageSize limit := by
  unfold pageSize
  split <;> omega

theorem wellKept_exec (h : WellKept s.shared.rows) (evs : List Happening) :
    WellKept (exec happen s evs).shared.rows :=
  exec_kept (I := fun s : ServiceState => WellKept s.shared.rows)
    (fun _ ev h => wellKept_happen h ev) h evs

theorem ascending_queue (hkept : WellKept s.shared.rows) (req : ListReportsRequest) :
    Ascending pageKey (s.queue req) := by
  refine ascending_orderBy (Nodup.of_map (fun k => (ofLex (OrderDual.ofDual k)).2) ?_)
  rw [map_map]
  exact hkept.ids.sublist (filter_sublist.map _)

/-! ## Section 3: The whole queue -/

theorem Shown.last (h : Ascending pageKey (s.queue req)) {queues : List (List ReportRow)} :
    Shown (s.queue req :: queues) cursor
      ((after pageKey cursor.key (s.queue req)).map reportToProto) := by
  refine ⟨(h.after _).map fun _ => rfl, ?_, ?_⟩
  · intro v hv
    obtain ⟨r, hr, rfl⟩ := mem_map.mp hv
    exact of_decide_eq_true (mem_filter.mp hr).2
  · intro k hk hall
    obtain ⟨r, hr, rfl⟩ := mem_map.mp (hall _ mem_cons_self)
    rw [map_map]
    exact mem_map_of_mem (f := pageKey) (mem_filter.mpr ⟨hr, decide_eq_true hk⟩)

theorem Shown.page (h : Ascending pageKey (s.queue req)) {xs ys : List ReportRow} {r : ReportRow}
    (hsplit : after pageKey cursor.key (s.queue req) = xs ++ r :: ys)
    {queues : List (List ReportRow)} (hviews : Shown queues (.at r.createdAt r.id) views) :
    Shown (s.queue req :: queues) cursor ((xs ++ [r]).map reportToProto ++ views) := by
  have hlast : Shown (s.queue req :: queues) cursor _ := .last h
  rw [hsplit, append_cons, map_append] at hlast
  obtain ⟨hpage, -, hcross⟩ := pairwise_append.mp hlast.newestFirst
  rw [map_append, map_singleton] at hpage hcross hlast ⊢
  have hnext : ∀ v ∈ xs.map reportToProto ++ [reportToProto r], ∀ w ∈ views,
      viewKey v < viewKey w := by
    intro v hv w hw
    have hw' := hviews.beyond w hw _ rfl
    rcases mem_append.mp hv with hv | hv
    · exact lt_trans ((pairwise_append.mp hpage).2.2 v hv _ mem_cons_self) hw'
    · rw [mem_singleton.mp hv]
      exact hw'
  constructor
  · exact Ascending.append hpage hviews.newestFirst hnext
  · intro v hv c hc
    rcases mem_append.mp hv with hv | hv
    · exact hlast.beyond v (mem_append_left _ hv) c hc
    · exact lt_trans (hlast.beyond (reportToProto r) (by simp) c hc) (hviews.beyond v hv _ rfl)
  · intro k hk hall
    have hmem := hlast.complete k hk hall
    rw [map_append] at hmem ⊢
    rcases mem_append.mp hmem with hmem | hmem
    · exact mem_append_left _ hmem
    -- what the page cuts off is beyond its last report, where the other pages look
    · obtain ⟨v, hv, rfl⟩ := mem_map.mp hmem
      refine mem_append_right _ (hviews.complete _ ?_ (forall_mem_cons.mp hall).2)
      rintro c ⟨⟩
      exact hcross (reportToProto r) (by simp) v hv

theorem shown_of_follow (hkept : WellKept s.shared.rows)
    (h : followReports userID req gaps cursor s = some views) :
    Shown (queues req gaps s) cursor views := by
  induction gaps generalizing cursor s views with
  | nil => cases h
  | cons evs gaps ih =>
    have hkept' := wellKept_exec hkept evs
    have hqueue := ascending_queue hkept' req
    unfold followReports at h
    split at h
    · cases h
    · rename_i page s' hlist
      obtain ⟨-, -, rfl, rfl⟩ := listReports_ok.mp hlist
      dsimp only at h
      rcases listPage_cases (pageSize_pos req.limit) rfl with hpage | ⟨xs, r, ys, hsplit, hpage⟩
      · rw [hpage] at h
        cases h
        exact .last hqueue
      -- the other pages are below the last report of this one
      · rw [hpage] at h
        obtain ⟨later, hlater, rfl⟩ := Option.map_eq_some_iff.mp h
        exact .page hqueue hsplit (ih hkept' hlater)

theorem follow_quiet (hkept : WellKept s.shared.rows)
    (hmay : mayHandle s.tables userID (nilIfEmpty req.serverID) = true) {n : Nat}
    (hcursor : cursor ≠ .malformed) (hn : (after pageKey cursor.key (s.queue req)).length < n) :
    followReports userID req (replicate n []) cursor s =
      some ((after pageKey cursor.key (s.queue req)).map reportToProto) := by
  induction n generalizing cursor with
  | zero => omega
  | succ n ih =>
    have hlist : listReports (some userID) { req with cursor } s = .ok _ s :=
      listReports_ok.mpr ⟨hmay, hcursor, rfl, rfl⟩
    rw [replicate_succ, followReports, show exec happen s [] = s from rfl, hlist]
    dsimp only
    rcases listPage_cases (pageSize_pos req.limit) rfl with hpage | ⟨xs, r, ys, hsplit, hpage⟩
    · rw [hpage]
      rfl
    · have hrest : after pageKey (some (pageKey r)) (s.queue req) = ys :=
        after_last (ascending_queue hkept req) hsplit
      have hlater : followReports userID req (replicate n []) (.at r.createdAt r.id) s =
          some (map reportToProto (after pageKey (some (pageKey r)) (s.queue req))) := by
        refine ih nofun (lt_of_eq_of_lt (congrArg length hrest) ?_)
        rw [hsplit, length_append, length_cons] at hn
        omega
      rw [hpage]
      show Option.map (_ ++ ·) (followReports _ _ _ (.at r.createdAt r.id) s) = _
      rw [hlater, hrest, hsplit]
      simp

/-- **A queue is read to its end**, whatever has happened: what the pages show comes newest first,
    nothing twice, with every report that is in the queue at each of the requests; and while
    nothing happens they show the queue. -/
theorem queue_read (messaging : MessagingState) (evs : List Happening) (userID : ID)
    (req : ListReportsRequest) :
    let s := exec happen (unreported messaging) evs
    (∀ gaps views, followReports userID req gaps .absent s = some views →
      Shown (queues req gaps s) .absent views) ∧
    (mayHandle s.tables userID (nilIfEmpty req.serverID) = true → ∀ n, (s.queue req).length < n →
      followReports userID req (replicate n []) .absent s =
        some ((s.queue req).map reportToProto)) := by
  intro s
  have hkept : WellKept s.shared.rows := wellKept_exec
    (s := unreported messaging) ⟨nodup_nil, fun _ h => absurd h not_mem_nil⟩ evs
  have hall : after pageKey (ReportCursor.key .absent) (s.queue req) = s.queue req := after_none _
  refine ⟨fun gaps views => shown_of_follow hkept, fun hmay n hn => ?_⟩
  have hread : followReports userID req (replicate n []) .absent s = _ :=
    follow_quiet hkept hmay nofun (lt_of_eq_of_lt (congrArg length hall) hn)
  rw [hread, hall]

/-- Two reports about Bob, on pages of one. -/
theorem queue_read_court :
    (followReports "owner" { serverID := "srv", limit := 1 } (replicate 3 []) .absent
      (exec happen (unreported courtState)
        [.reportUser id "first" (some "ann")
            { userID := "bob", serverID := "srv", category := .spam },
          .reportUser id "second" (some "owner")
            { userID := "bob", serverID := "srv", category := .spam }])).map
      (map ReportView.id) = some ["second", "first"] := by
  rw [(queue_read courtState _ "owner" _).2 (by decide +kernel) 3 (by decide +kernel)]
  decide +kernel

end Meza.Reports
