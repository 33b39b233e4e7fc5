import Meza.Presence.Service

/-! # How long an override lasts

    An override is to be what others are shown from the answer to the call that
    sets it until it expires, is cleared or is replaced, and not afterwards. It
    is kept in the hash that expires without heartbeats, and the calls that find
    it expired delete whatever is there when they come to it.

    An observer notes which override was set last, whether its call has answered,
    and with each publication what was to be shown at that moment. -/

namespace Meza.Presence
open Run Function List

open Store (ID)

/-! ## Section 1: What is to be shown -/

/-- An override as others are to see it. -/
def Override.shown (o : Override) : Status :=
  match o.status with
  | .dnd => .dnd
  | _ => .offline

inductive Demand where
  /-- No override is in force: the real status. -/
  | real
  /-- An override has been written and its call has not answered. -/
  | unsettled
  | override (o : Override)
  deriving DecidableEq, Repr

def Demand.Met (real shown : Status) : Demand → Prop
  | .real => shown = real
  | .unsettled => True
  | .override o => shown = o.shown

/-- A publication, with the real status that its call has read and what was to be shown. -/
structure Notice where
  publication : Publication
  real : Status
  demand : Demand
  deriving DecidableEq, Repr

structure Watch where
  /-- The override that was written last and not cleared, and whether its call has answered. -/
  latest : ID → Option (Override × Bool) := fun _ => none
  /-- The latest notice first. -/
  shown : List Notice := []

def Watch.demand (w : Watch) (now : Nat) (userID : ID) : Demand :=
  match w.latest userID with
  | none => .real
  | some (o, answered) =>
    if o.expired now then .real else if answered then .override o else .unsettled

def Watch.wrote (w : Watch) (userID : ID) (o : Override) : Watch :=
  { w with latest := update w.latest userID (some (o, false)) }

def Watch.cleared (w : Watch) (userID : ID) : Watch :=
  { w with latest := update w.latest userID none }

/-- The call that has set the override answers. -/
def Watch.answered (w : Watch) (userID : ID) (o : Override) : Watch :=
  if (w.latest userID).map Prod.fst = some o then
    { w with latest := update w.latest userID (some (o, true)) }
  else w

def Watch.noted (w : Watch) (now : Nat) (result : Hash) (publication : Publication) : Watch :=
  let notice : Notice :=
    { publication, real := parsePresenceStatus result.status,
      demand := w.demand now publication.userID }
  { w with shown := notice :: w.shown }

def Watch.see (s : State) (p : Phase) (_ : Unit) (w : Watch) : Watch :=
  match p with
  | .setWriting u status durationSeconds => w.wrote u (overrideFrom s.now status durationSeconds)
  | .clearDeleting u => w.cleared u
  | .updatePublishing u statusText result =>
    w.noted s.now result
      ⟨u, resolveEffectiveStatus s.now result false, statusText.getD ""⟩
  | .setPublishing u o result =>
    (w.noted s.now result
      ⟨u, resolveEffectiveStatus s.now result false, result.statusText.getD ""⟩).answered u o
  | .realPublishing u result =>
    w.noted s.now result ⟨u, parsePresenceStatus result.status, result.statusText.getD ""⟩
  | _ => w

abbrev Watched := Pool.State (State × Watch) Phase

def watchedStep : Watched → Event → Watched := Pool.step .begin (Pool.watched .see next)

def watchedInitial (now : Nat) : Watched := { shared := ({ now }, {}), calls := [] }

/-- The caller is told of the user's presence, in answer to one query or a bulk query. -/
def Answers (shareAnyServer : ID → ID → Bool) (s : State) (callerID userID : ID)
    (r : PresenceResponse) : Prop :=
  getPresence shareAnyServer s callerID userID = .ok r ∨
    ∃ (stateFor : ID → State) (userIDs : List ID) (l : List PresenceResponse),
      stateFor userID = s ∧ getBulkPresence shareAnyServer stateFor callerID userIDs = .ok l ∧
        r ∈ l ∧ r.userID = userID

/-- What others are told and what has been published is what was to be shown. -/
structure Determined (s : State) (w : Watch) : Prop where
  noticed : s.published = w.shown.map Notice.publication
  answers : ∀ shareAnyServer callerID userID r, callerID ≠ userID →
    Answers shareAnyServer s callerID userID r →
    (w.demand s.now userID).Met (parsePresenceStatus (s.hash userID).status) r.status
  published : ∀ n ∈ w.shown, n.demand.Met n.real n.publication.status

/-! ## Section 2: The condition -/

/-- The override in a hash, unless it has expired. -/
def Hash.active (h : Hash) (now : Nat) : Option Override :=
  h.override.filter fun o => ! o.expired now

/-- No hash expires before its override does; no call deletes an override that is active; and
    what a call publishes it has read under the override that is active then. -/
def keepsOverrides (s : State) (p : Phase) : Prop :=
  match p with
  | .myDeleting u | .expiryDeleting u => (s.hash u).active s.now = none
  | .updatePublishing u _ result | .setPublishing u _ result =>
    result.active s.now = (s.hash u).active s.now
  | .realPublishing u _ => (s.hash u).active s.now = none
  | .passing seconds => ∀ u, (s.hash u).active (s.now + seconds) ≠ none →
    ∀ t ∈ (s.entry u).expiresAt, s.now + seconds < t
  | _ => True

def KeepsOverrides : Watched → Event → Prop :=
  Pool.Allows (fun _ _ => True) fun sw _ p _ => keepsOverrides sw.1 p

variable {h : Hash} {now : Nat} {o : Override} {p p' : Phase} {s s' : State} {w : Watch}

theorem active_eq_some : h.active now = some o ↔ h.override = some o ∧ o.expired now = false := by
  unfold Hash.active
  simp [Option.filter_eq_some_iff]

theorem active_eq_none : h.active now = none ↔ ∀ o, h.override = some o → o.expired now = true := by
  unfold Hash.active
  simp [Option.filter_eq_none_iff]

theorem expired_mono {later : Nat} (hle : now ≤ later) (h : o.expired now = true) :
    o.expired later = true := by
  unfold Override.expired at h ⊢
  simp only [ne_eq, decide_eq_true_eq] at h ⊢
  omega

/-! ## Section 3: The record and the last override -/

/-- The statuses that an override can have. -/
def overrides : List Status := [.dnd, .offline, .invisible]

theorem shown_resolve (hactive : h.active now = some o) (hvalid : o.status ∈ overrides) :
    resolveEffectiveStatus now h false = o.shown := by
  obtain ⟨hstored, halive⟩ := active_eq_some.mp hactive
  unfold resolveEffectiveStatus
  rw [hstored]
  dsimp only
  rw [halive]
  unfold Override.shown
  unfold overrides at hvalid
  cases hstatus : o.status with
  | dnd | offline | invisible => rfl
  | unspecified | online | idle => simp [hstatus] at hvalid

/-- Nobody else's answer differs from the one that a single command gives. -/
theorem eq_of_answers {shareAnyServer : ID → ID → Bool} {callerID userID : ID}
    {r : PresenceResponse} (hother : callerID ≠ userID)
    (h : Answers shareAnyServer s callerID userID r) : r = presenceOf s userID false := by
  rcases h with h | ⟨stateFor, userIDs, l, rfl, h, hr, huser⟩
  · unfold getPresence at h
    obtain ⟨-, -, h⟩ := bind_eq_ok.mp h
    obtain ⟨-, -, h⟩ := bind_eq_ok.mp h
    cases h
    simp [hother]
  · unfold getBulkPresence at h
    obtain ⟨-, -, h⟩ := bind_eq_ok.mp h
    cases h
    obtain ⟨uid, -, rfl⟩ := mem_map.mp hr
    have hsame : uid = userID := by
      rw [← huser]
      unfold presenceOf
      dsimp only
      split
      · rfl
      · rfl
    subst hsame
    simp [hother.symm]

theorem presenceOf_status (s : State) (userID : ID) :
    (presenceOf s userID false).status = resolveEffectiveStatus s.now (s.hash userID) false := by
  unfold presenceOf
  dsimp only
  split
  · next hempty =>
    rw [hempty]
    rfl
  · rfl

/-- The hashes hold the overrides that were set last, and hold them until they expire. -/
structure Held (s : State) (w : Watch) : Prop where
  stored : ∀ u o, (s.hash u).override = some o → ∃ answered, w.latest u = some (o, answered)
  held : ∀ u o answered, w.latest u = some (o, answered) → o.expired s.now = false →
    (s.hash u).override = some o
  valid : ∀ u o answered, w.latest u = some (o, answered) → o.status ∈ overrides
  noticed : ∀ n ∈ w.shown, n.demand.Met n.real n.publication.status

theorem Held.active_of_latest (h : Held s w) {u : ID} {answered : Bool}
    (hlatest : w.latest u = some (o, answered)) (halive : o.expired s.now = false) :
    (s.hash u).active s.now = some o :=
  active_eq_some.mpr ⟨h.held u o answered hlatest halive, halive⟩

/-- A hash under which the same override is active as in the record is resolved as it should. -/
theorem Held.met {s : State} {w : Watch} (h : Held s w) {u : ID} {result : Hash}
    (hsame : result.active s.now = (s.hash u).active s.now) :
    (w.demand s.now u).Met (parsePresenceStatus result.status)
      (resolveEffectiveStatus s.now result false) := by
  unfold Watch.demand
  rcases hlatest : w.latest u with _ | ⟨o, answered⟩
  · have hnone : (s.hash u).active s.now = none := by
      rw [active_eq_none]
      intro o ho
      obtain ⟨answered, hsome⟩ := h.stored u o ho
      rw [hlatest] at hsome
      cases hsome
    exact resolveEffectiveStatus_real (active_eq_none.mp (hsame.trans hnone))
  · dsimp only
    rcases halive : o.expired s.now with _ | _
    · have hactive := h.active_of_latest hlatest halive
      rcases answered with _ | _
      · trivial
      · exact shown_resolve (hsame.trans hactive) (h.valid u o true hlatest)
    · have hnone : (s.hash u).active s.now = none := by
        rw [active_eq_none]
        intro o' ho'
        obtain ⟨answered', hsome⟩ := h.stored u o' ho'
        rw [hlatest] at hsome
        cases hsome
        exact halive
      exact resolveEffectiveStatus_real (active_eq_none.mp (hsame.trans hnone))

/-- The observer misses no publication. -/
def Noticed (s : State) (w : Watch) : Prop := s.published = w.shown.map Notice.publication

theorem Held.determined (h : Held s w) (hall : Noticed s w) : Determined s w where
  noticed := hall
  answers := by
    intro shareAnyServer callerID userID r hother hanswers
    rw [eq_of_answers hother hanswers, presenceOf_status]
    exact h.met rfl
  published := h.noticed

/-! ## Section 4: Steps -/

/-- A call only sets what `SetStatusOverride` lets through. -/
def Phase.Valid : Phase → Prop
  | .setWriting _ status _ => status ∈ overrides
  | _ => True

theorem validateOverride_ok {status durationSeconds : Int} {parsed : Status}
    (h : validateOverride status durationSeconds = .ok parsed) : parsed ∈ overrides := by
  obtain ⟨_, hstatus, h⟩ := bind_eq_ok.mp h
  rw [rejectIf_ok] at hstatus
  push Not at hstatus
  obtain ⟨-, -, h⟩ := bind_eq_ok.mp h
  obtain ⟨-, -, h⟩ := bind_eq_ok.mp h
  have hparsed : parsePresenceStatus (some status) = parsed := by
    injection h
  rw [← hparsed]
  exact hstatus.2

theorem valid_begin (call : Call) : (Phase.begin call).Valid := by
  cases call with
  | setStatusOverride userID status durationSeconds =>
    unfold Phase.begin
    dsimp only
    rcases hcheck : validateOverride status durationSeconds with e | parsed
    · trivial
    · exact validateOverride_ok hcheck
  | _ => trivial

/-- Only a new call sets an override. -/
theorem valid_advance (h : advance s p = some (s', p')) : p'.Valid := by
  cases p with
  | refused | done => cases h
  | myReading u =>
    simp only [advance] at h
    split at h
    · cases h
      trivial
    · split at h
      · cases h
        trivial
      · cases h
        trivial
  | expiryStatus u =>
    simp only [advance] at h
    split at h <;> (cases h; trivial)
  | expiryTime u =>
    simp only [advance] at h
    split at h
    · cases h
      trivial
    · cases h
      trivial
    · split at h <;> (cases h; trivial)
  | _ =>
    cases h
    trivial

section Steps

/-- The override of no hash changes, nor does the time. -/
theorem Held.of_override (h : Held s w) (hnow : s'.now = s.now)
    (hsame : ∀ u, (s'.hash u).override = (s.hash u).override) : Held s' w where
  stored := fun u o ho => h.stored u o (by rw [← hsame u]; exact ho)
  held := by
    intro u o answered hlatest halive
    rw [hsame u]
    exact h.held u o answered hlatest (by rw [← hnow]; exact halive)
  valid := h.valid
  noticed := h.noticed

/-- What is published is what was to be shown. -/
theorem Held.noted (h : Held s w) {result : Hash} {publication : Publication}
    (hmet : (w.demand s.now publication.userID).Met (parsePresenceStatus result.status)
      publication.status) : Held s (w.noted s.now result publication) where
  stored := h.stored
  held := h.held
  valid := h.valid
  noticed := by
    intro n hn
    rcases mem_cons.mp hn with rfl | hn
    · exact hmet
    · exact h.noticed n hn

theorem Held.published (h : Held s w) (u : ID) (status : Status) (text : String) :
    Held (s.publishPresenceUpdate u status text) w :=
  ⟨h.stored, h.held, h.valid, h.noticed⟩

theorem Held.answered (h : Held s w) (u : ID) (o : Override) : Held s (w.answered u o) := by
  unfold Watch.answered
  by_cases hlatest : (w.latest u).map Prod.fst = some o
  · rw [if_pos hlatest]
    obtain ⟨⟨o', before⟩, hsome, rfl⟩ := Option.map_eq_some_iff.mp hlatest
    have hupdate : ∀ v o answered,
        update w.latest u (some (o', true)) v = some (o, answered) →
        ∃ answered', w.latest v = some (o, answered') := by
      intro v o answered hv
      by_cases hvu : v = u
      · subst hvu
        rw [update_self] at hv
        cases hv
        exact ⟨before, hsome⟩
      · rw [update_of_ne hvu] at hv
        exact ⟨answered, hv⟩
    refine ⟨?_, ?_, ?_, h.noticed⟩
    · intro v o ho
      obtain ⟨answered, hv⟩ := h.stored v o ho
      by_cases hvu : v = u
      · subst hvu
        rw [hsome] at hv
        cases hv
        exact ⟨true, update_self ..⟩
      · exact ⟨answered, by rw [← hv]; exact update_of_ne hvu ..⟩
    · intro v o answered hv halive
      obtain ⟨answered', hv'⟩ := hupdate v o answered hv
      exact h.held v o answered' hv' halive
    · intro v o answered hv
      obtain ⟨answered', hv'⟩ := hupdate v o answered hv
      exact h.valid v o answered' hv'
  · rw [if_neg hlatest]
    exact h

theorem Held.changed {s' : State} {w' : Watch} (h : Held s w) (u : ID) (hnow : s'.now = s.now)
    (hshown : w'.shown = w.shown)
    (hother : ∀ v, v ≠ u → s'.hash v = s.hash v ∧ w'.latest v = w.latest v)
    (hown : (s'.hash u).override = (w'.latest u).map Prod.fst)
    (hvalid : ∀ l, w'.latest u = some l → l.1.status ∈ overrides) : Held s' w' where
  stored := by
    intro v o ho
    by_cases hv : v = u
    · subst hv
      rw [hown] at ho
      obtain ⟨⟨o', answered⟩, hlatest, rfl⟩ := Option.map_eq_some_iff.mp ho
      exact ⟨answered, hlatest⟩
    · rw [(hother v hv).1] at ho
      rw [(hother v hv).2]
      exact h.stored v o ho
  held := by
    intro v o answered hlatest halive
    by_cases hv : v = u
    · subst hv
      rw [hown, hlatest]
      rfl
    · rw [(hother v hv).2] at hlatest
      rw [(hother v hv).1]
      rw [hnow] at halive
      exact h.held v o answered hlatest halive
  valid := by
    intro v o answered hlatest
    by_cases hv : v = u
    · subst hv
      exact hvalid _ hlatest
    · rw [(hother v hv).2] at hlatest
      exact h.valid v o answered hlatest
  noticed := by
    rw [hshown]
    exact h.noticed

theorem Held.wrote (h : Held s w) (u : ID) (hvalid : o.status ∈ overrides) :
    Held (s.hset u fun hash => hash.withOverride o) (w.wrote u o) := by
  have hset : o.status ≠ .unspecified := by
    intro heq
    rw [heq] at hvalid
    exact absurd hvalid (by decide)
  have hlatest : (w.wrote u o).latest u = some (o, false) := update_self ..
  refine h.changed u rfl rfl ?_ ?_ ?_
  · intro v hv
    exact ⟨by rw [hash_hset, if_neg hv], update_of_ne hv ..⟩
  · rw [hash_hset, if_pos rfl, hlatest]
    exact withOverride_override _ hset
  · intro l hl
    rw [hlatest] at hl
    cases hl
    exact hvalid

theorem Held.cleared (h : Held s w) (u : ID) : Held (s.hdelOverride u) (w.cleared u) := by
  have hlatest : (w.cleared u).latest u = none := update_self ..
  refine h.changed u hdelOverride_now rfl ?_ ?_ ?_
  · intro v hv
    exact ⟨by rw [hash_hdelOverride, if_neg hv], update_of_ne hv ..⟩
  · rw [hash_hdelOverride, if_pos rfl, hlatest]
    rfl
  · intro l hl
    rw [hlatest] at hl
    cases hl

theorem Held.deleted (h : Held s w) {u : ID} (hnone : (s.hash u).active s.now = none) :
    Held (s.hdelOverride u) w := by
  refine ⟨?_, ?_, h.valid, h.noticed⟩
  · intro v o ho
    rw [hash_hdelOverride] at ho
    split at ho
    · cases ho
    · exact h.stored v o ho
  · intro v o answered hlatest halive
    have hactive := h.active_of_latest hlatest halive
    rw [hash_hdelOverride, if_neg]
    · exact h.held v o answered hlatest halive
    · rintro rfl
      rw [hnone] at hactive
      cases hactive

theorem Held.passed (h : Held s w) {seconds : Nat} (hlasts : ∀ u,
    (s.hash u).active (s.now + seconds) ≠ none →
      ∀ t ∈ (s.entry u).expiresAt, s.now + seconds < t) : Held (s.pass seconds) w := by
  refine ⟨?_, ?_, h.valid, h.noticed⟩
  · intro u o ho
    rcases hash_pass s seconds u with hgone | hsame
    · rw [hgone] at ho
      cases ho
    · rw [hsame] at ho
      exact h.stored u o ho
  · intro u o answered hlatest halive
    have hnow : o.expired s.now = false := by
      rcases hexpired : o.expired s.now with _ | _
      · rfl
      · have hlater := expired_mono (Nat.le_add_right s.now seconds) hexpired
        exact absurd (hlater.symm.trans halive) (by decide)
    have hstored := h.held u o answered hlatest hnow
    have hactive : (s.hash u).active (s.now + seconds) = some o :=
      active_eq_some.mpr ⟨hstored, halive⟩
    rw [hash_pass_of_lt (hlasts u (by rw [hactive]; simp))]
    exact hstored

theorem Held.step (h : Held s w) (hvalid : p.Valid) (hkeeps : keepsOverrides s p)
    (hstep : advance s p = some (s', p')) : Held s' (w.see s p ()) := by
  cases p with
  | refused | done => cases hstep
  | updateWriting u status statusText =>
    cases hstep
    apply h.of_override (hset_now fun hash => hash.report s.now status statusText)
    intro v
    rw [hash_hset]
    split
    · next hv =>
      subst hv
      rfl
    · rfl
  | updateExpiring | beatRenewing =>
    cases hstep
    exact h.of_override expire_now fun v => by rw [hash_expire (by decide)]
  | updateReading | setReading | realReading =>
    cases hstep
    exact h
  | updatePublishing u statusText result =>
    cases hstep
    exact (h.noted (h.met hkeeps)).published u _ _
  | setPublishing u o result =>
    cases hstep
    exact ((h.noted (h.met hkeeps)).answered u o).published u _ _
  | realPublishing u result =>
    cases hstep
    refine (h.noted ?_).published u _ _
    -- without an active override the real status is what is to be shown
    have hmet := @Held.met _ _ h u { result with overrideStatus := none } hkeeps.symm
    rwa [resolveEffectiveStatus_real (by intro o ho; cases ho)] at hmet
  | setWriting u status durationSeconds =>
    cases hstep
    exact h.wrote u hvalid
  | clearDeleting u =>
    cases hstep
    exact h.cleared u
  | myDeleting | expiryDeleting =>
    cases hstep
    exact h.deleted hkeeps
  | passing seconds =>
    cases hstep
    exact h.passed hkeeps
  | myReading u =>
    simp only [advance] at hstep
    split at hstep
    · cases hstep
      exact h
    · cases hstep
      exact h
  | expiryStatus | expiryTime =>
    simp only [advance] at hstep
    split at hstep
    · cases hstep
      exact h
    · cases hstep
      exact h
    · cases hstep
      exact h

end Steps

theorem expire_published (s : State) (u : ID) (seconds : Nat) :
    (s.expire u seconds).published = s.published := by
  unfold State.expire
  split
  · rfl
  · rfl

theorem answered_shown (w : Watch) (u : ID) (o : Override) : (w.answered u o).shown = w.shown := by
  unfold Watch.answered
  split
  · rfl
  · rfl

theorem Noticed.step (h : Noticed s w) (hstep : advance s p = some (s', p')) :
    Noticed s' (w.see s p ()) := by
  unfold Noticed at h ⊢
  cases p with
  | refused | done => cases hstep
  | updateExpiring | beatRenewing =>
    cases hstep
    rw [expire_published, h]
    rfl
  | updatePublishing | realPublishing =>
    cases hstep
    exact congrArg (cons _) h
  | setPublishing u o result =>
    cases hstep
    unfold Watch.see
    rw [answered_shown]
    exact congrArg (cons _) h
  | myReading u | expiryStatus u | expiryTime u =>
    simp only [advance] at hstep
    split at hstep
    all_goals
      cases hstep
      exact h
  | _ =>
    cases hstep
    exact h

/-! ## Section 5: Runs -/

/-- What holds of the record, and of every call. -/
def HeldBy : Watched → Prop :=
  Pool.Inv (fun sw => Held sw.1 sw.2 ∧ Noticed sw.1 sw.2) (fun _ p => p.Valid) fun _ _ _ => True

theorem heldBy_initial (now : Nat) : HeldBy (watchedInitial now) := by
  apply Pool.Inv.init
  refine ⟨⟨?_, ?_, ?_, ?_⟩, rfl⟩
  · intro u o ho
    cases ho
  · intro u o answered hlatest
    cases hlatest
  · intro u o answered hlatest
    cases hlatest
  · intro n hn
    cases hn

theorem heldBy_step (t : Watched) (ev : Event) (h : HeldBy t) (hkeeps : KeepsOverrides t ev) :
    HeldBy (watchedStep t ev) := by
  refine Pool.keeps_step (Pool.Inv.perm fun _ _ _ _ => trivial) ?_ ?_ t ev h hkeeps
  · intro sh calls call hinv _
    exact hinv.cons (valid_begin call) fun _ _ => trivial
  · intro sh p others outcome sh' p' hinv hallow hnext
    obtain ⟨hstep, hseen⟩ := Pool.watched_cases hnext
    have hvalid := hinv.each p mem_cons_self
    have hheld : Held sh'.1 sh'.2 ∧ Noticed sh'.1 sh'.2 := by
      rw [hseen]
      exact ⟨hinv.shared.1.step hvalid hallow hstep, hinv.shared.2.step hstep⟩
    exact hinv.replace hheld (valid_advance hstep) (fun q _ hq _ => ⟨hq, trivial⟩)
      fun _ _ _ => trivial

/-- **Overrides last.** After every run whose steps keep the overrides, others are shown the
    override that is in force, and the real status when there is none. -/
theorem determined_exec (now : Nat) (evs : List Event)
    (h : Guarded watchedStep KeepsOverrides (watchedInitial now) evs) :
    Determined (exec watchedStep (watchedInitial now) evs).shared.1
      (exec watchedStep (watchedInitial now) evs).shared.2 := by
  have hheld := (exec_invariant heldBy_step (heldBy_initial now) h).shared
  exact hheld.1.determined hheld.2

/-- Ann reports that she is online and hides for ten minutes; half a minute passes. -/
def annHides : List Event :=
  [.start (.updatePresence "ann" 1 none), .advance 0 (), .advance 0 (), .advance 0 (),
    .advance 0 (), .start (.setStatusOverride "ann" 5 600), .advance 1 (), .advance 1 (),
    .advance 1 (), .start (.pass 30), .advance 2 ()]

theorem determined_exec_annHides :
    Determined (exec watchedStep (watchedInitial 0) annHides).shared.1
      (exec watchedStep (watchedInitial 0) annHides).shared.2 := by
  refine determined_exec 0 annHides ⟨trivial, ?_, ?_, ?_, ?_, trivial, ?_, ?_, ?_, trivial, ?_,
    trivial⟩
  case refine_4 | refine_7 =>
    intro p hp
    cases hp
    rfl
  case refine_8 =>
    intro p hp
    cases hp
    intro u hactive t ht
    by_cases hu : u = "ann"
    · subst hu
      revert t
      decide +kernel
    · -- nobody else has a hash
      have hkey : (exec watchedStep (watchedInitial 0) (annHides.take 10)).shared.1.presence
          u = {} :=
        (update_of_ne hu _ _).trans ((update_of_ne hu _ _).trans (update_of_ne hu _ _))
      have hhash : (exec watchedStep (watchedInitial 0) (annHides.take 10)).shared.1.hash
          u = {} := by
        unfold State.hash State.entry
        rw [hkey]
        rfl
      exact absurd (congrArg (Hash.active · 30) hhash) hactive
  all_goals
    intro p hp
    cases hp
    trivial

/-- Ann hides without an end, is away for a minute and comes back. -/
def annReturns : List Event :=
  [.start (.updatePresence "ann" 1 none), .advance 0 (), .advance 0 (), .advance 0 (),
    .advance 0 (), .start (.setStatusOverride "ann" 5 0), .advance 1 (), .advance 1 (),
    .advance 1 (), .start (.pass 61), .advance 2 (), .start (.updatePresence "ann" 1 none),
    .advance 3 (), .advance 3 (), .advance 3 (), .advance 3 ()]

/-- A heartbeat finds an override expired, and deletes the one that is set meanwhile. -/
def annHidesAgain : List Event :=
  [.start (.updatePresence "ann" 1 none), .advance 0 (), .advance 0 (), .advance 0 (),
    .advance 0 (), .start (.setStatusOverride "ann" 5 10), .advance 1 (), .advance 1 (),
    .advance 1 (), .start (.pass 11), .advance 2 (), .start (.heartbeat "ann"), .advance 3 (),
    .advance 3 (), .advance 3 (), .start (.setStatusOverride "ann" 5 600), .advance 4 (),
    .advance 4 (), .advance 4 (), .advance 3 ()]

/-- Both times Ann is shown as online although she is hidden. -/
theorem not_determined_annReturns :
    (∀ evs ∈ [annReturns, annHidesAgain],
        (∃ o, (exec watchedStep (watchedInitial 0) evs).shared.2.demand
            (exec watchedStep (watchedInitial 0) evs).shared.1.now "ann" = .override o ∧
          o.status = .invisible) ∧
        presenceOf (exec watchedStep (watchedInitial 0) evs).shared.1 "ann" false =
          ⟨"ann", .online, ""⟩) ∧
      ¬ ∀ (now : Nat) (evs : List Event),
        Determined (exec watchedStep (watchedInitial now) evs).shared.1
          (exec watchedStep (watchedInitial now) evs).shared.2 := by
  have hhidden : (exec watchedStep (watchedInitial 0) annReturns).shared.2.demand
      (exec watchedStep (watchedInitial 0) annReturns).shared.1.now "ann" =
        .override ⟨.invisible, 0⟩ := by
    decide +kernel
  have honline : presenceOf (exec watchedStep (watchedInitial 0) annReturns).shared.1 "ann"
      false = ⟨"ann", .online, ""⟩ := by
    decide +kernel
  refine ⟨?_, ?_⟩
  · intro evs hevs
    rcases mem_pair.mp hevs with rfl | rfl
    · exact ⟨⟨_, hhidden, rfl⟩, honline⟩
    · refine ⟨⟨⟨.invisible, 611⟩, ?_, rfl⟩, ?_⟩
      · decide +kernel
      · decide +kernel
  · intro hall
    have hanswer : Answers (fun _ _ => true)
        (exec watchedStep (watchedInitial 0) annReturns).shared.1 "bob" "ann"
          ⟨"ann", .online, ""⟩ := by
      left
      rfl
    have hmet := (hall 0 annReturns).answers _ "bob" "ann" _ (by decide) hanswer
    have heq : Status.online = Override.shown ⟨.invisible, 0⟩ := hmet
    exact absurd heq (by decide)

end Meza.Presence
