import Meza.Presence.Overrides

/-! # Invisible users

    Nobody but the user is to learn that the user is invisible, and while the user
    hides nobody is to learn what the user's clients report. The second is a
    property of two runs: the same calls take their turns in the same order, and
    only the reported statuses differ. -/

namespace Meza.Presence
open Run List Option Pool Phase Notice Presence

open Store (ID)

/-! ## Section 1: What is to be hidden -/

/-- No answer and no publication shows that the user is invisible. -/
structure NeverInvisible (s : State) : Prop where
  answers : ∀ shareAnyServer callerID userID r, callerID ≠ userID →
    Answers shareAnyServer s callerID userID r → r.status ≠ .invisible
  published : ∀ p ∈ s.published, p.status ≠ .invisible

/-- An override that is in force hides the user. -/
def Demand.hides : Demand → Bool
  | .override o => o.status ∈ [.invisible, .offline]
  | _ => false

/-- What was published while its user was hidden, the latest first. -/
def Watch.hidden (w : Watch) : List Publication :=
  (w.shown.filter fun n => n.demand.hides).map publication

/-- Others learn the same of hidden users. -/
structure SameWhileHidden (s : State) (w : Watch) (s' : State) (w' : Watch) : Prop where
  answers : ∀ userID, (w.demand s.now userID).hides = true →
    ∀ shareAnyServer callerID r, callerID ≠ userID →
      (Answers shareAnyServer s callerID userID r ↔ Answers shareAnyServer s' callerID userID r)
  published : w.hidden = w'.hidden

/-- The calls are the same, up to the statuses that `UpdatePresence` is passed. -/
def Call.Like : Call → Call → Prop
  | .updatePresence u _ text, call' => ∃ status', call' = .updatePresence u status' text
  | call, call' => call' = call

/-- Clients never report that they are invisible. -/
def Call.Honest : Call → Prop
  | .updatePresence _ status _ => status ≠ Status.invisible.number
  | _ => True

instance : ∀ call : Call, Decidable call.Honest
  | .updatePresence _ status _ => inferInstanceAs (Decidable (status ≠ _))
  | .setStatusOverride _ _ _ => isTrue trivial
  | .clearStatusOverride _ => isTrue trivial
  | .getMyPresence _ => isTrue trivial
  | .heartbeat _ => isTrue trivial
  | .pass _ => isTrue trivial

/-- Clients are honest and overrides are kept. -/
def KeepsHidden : Watched → Event → Prop :=
  Allows (fun _ call => call.Honest) fun sw _ p _ => keepsOverrides sw.1 p

/-! ## Section 2: Answers -/

theorem answers_iff {shareAnyServer : ID → ID → Bool} {s : State} {callerID userID : ID}
    {r : PresenceResponse} (hother : callerID ≠ userID) :
    Answers shareAnyServer s callerID userID r ↔
      shareAnyServer callerID userID = true ∧ r = presenceOf s userID false := by
  constructor
  · intro h
    refine ⟨?_, eq_of_answers hother h⟩
    rcases h with h | ⟨stateFor, userIDs, l, -, h, hr, huser⟩
    · unfold getPresence at h
      obtain ⟨_, -, h⟩ := bind_eq_ok.mp h
      obtain ⟨_, hshared, -⟩ := bind_eq_ok.mp h
      rw [rejectIf_ok] at hshared
      simpa [hother] using hshared
    · unfold getBulkPresence at h
      obtain ⟨_, -, h⟩ := bind_eq_ok.mp h
      cases h
      obtain ⟨uid, huid, rfl⟩ := mem_map.mp hr
      have hsame : uid = userID := by
        rw [← huser]
        unfold presenceOf
        dsimp only
        split
        · rfl
        · rfl
      subst hsame
      obtain ⟨-, hallowed⟩ := mem_filter.mp huid
      simpa [hother.symm] using hallowed
  · intro h
    obtain ⟨hshared, rfl⟩ := h
    refine .inr ⟨fun _ => s, [userID], [presenceOf s userID false], rfl, ?_,
      mem_singleton.mpr rfl, ?_⟩
    · simp [getBulkPresence, rejectIf, hshared, hother.symm, bind, Except.bind, pure, Except.pure]
    · unfold presenceOf
      dsimp only
      split
      · rfl
      · rfl

/-! ## Section 3: Nobody reports to be invisible -/

/-- The hash does not hold INVISIBLE as what a client has reported. -/
def Hash.Honest (h : Hash) : Prop := h.status ≠ some Status.invisible.number

variable {h : Hash} {evs : List Event} {p p' : Phase}

theorem parse_ne_invisible (hhonest : h.Honest) : parsePresenceStatus h.status ≠ .invisible := by
  intro heq
  apply hhonest
  unfold parsePresenceStatus at heq
  split at heq
  case h_6 hstatus => exact hstatus
  all_goals cases heq

/-- Overrides are masked. -/
theorem resolve_ne_invisible {now : Nat} (hhonest : h.Honest) :
    resolveEffectiveStatus now h false ≠ .invisible := by
  unfold resolveEffectiveStatus
  split
  · exact parse_ne_invisible hhonest
  · split
    · exact parse_ne_invisible hhonest
    · split
      · simp
      · simp
      · simp
      · exact parse_ne_invisible hhonest

structure State.Honest (s : State) : Prop where
  hashes : ∀ u, (s.hash u).Honest
  published : ∀ p ∈ s.published, p.status ≠ .invisible

def Phase.Honest : Phase → Prop
  | .updateWriting _ status _ => status ≠ Status.invisible.number
  | .updatePublishing _ _ result | .setPublishing _ _ result | .realPublishing _ result =>
    result.Honest
  | _ => True

theorem honest_begin {call : Call} (h : call.Honest) : (begin call).Honest := by
  cases call with
  | updatePresence u status statusText => exact h
  | setStatusOverride u status durationSeconds =>
    unfold begin
    dsimp only
    split
    · trivial
    · trivial
  | _ => trivial

section Honest

variable {s : State}

theorem State.Honest.of_hashes {s' : State} (h : s.Honest) (hpublished : s'.published = s.published)
    (hhashes : ∀ u, s'.hash u = s.hash u ∨ (s'.hash u).Honest) : s'.Honest where
  hashes := by
    intro u
    rcases hhashes u with hsame | hhonest
    · rw [hsame]
      exact h.hashes u
    · exact hhonest
  published := by
    rw [hpublished]
    exact h.published

theorem State.Honest.publish (h : s.Honest) {u : ID} {status : Status} {text : String}
    (hstatus : status ≠ .invisible) : (s.publishPresenceUpdate u status text).Honest where
  hashes := h.hashes
  published := by
    intro p hp
    rcases mem_cons.mp hp with rfl | hp
    · exact hstatus
    · exact h.published p hp

theorem State.Honest.hdelOverride (h : s.Honest) (u : ID) : (s.hdelOverride u).Honest := by
  refine .of_hashes h rfl ?_
  intro v
  rw [hash_hdelOverride]
  split
  · exact .inr (h.hashes u)
  · exact .inl rfl

theorem State.Honest.expire (h : s.Honest) (u : ID) : (s.expire u presenceTTL).Honest :=
  h.of_hashes (expire_published s u presenceTTL) fun v => .inl (hash_expire (by decide) v)

theorem State.Honest.advance (h : s.Honest) {s' : State} (hp : p.Honest)
    (hstep : advance s p = some (s', p')) : s'.Honest ∧ p'.Honest := by
  cases p with
  | refused | done => cases hstep
  | updateWriting u status statusText =>
    cases hstep
    refine ⟨h.of_hashes rfl ?_, trivial⟩
    intro v
    rw [hash_hset]
    split
    · right
      intro heq
      exact hp (some.inj heq)
    · exact Or.inl rfl
  | setWriting u status durationSeconds =>
    cases hstep
    refine ⟨h.of_hashes rfl ?_, trivial⟩
    intro v
    rw [hash_hset]
    split
    · exact Or.inr (h.hashes u)
    · exact Or.inl rfl
  | updateExpiring u statusText | beatRenewing u =>
    cases hstep
    exact ⟨h.expire u, trivial⟩
  | updateReading u statusText | setReading u o | realReading u =>
    cases hstep
    exact ⟨h, h.hashes u⟩
  | updatePublishing u statusText result | setPublishing u o result =>
    cases hstep
    exact ⟨h.publish (resolve_ne_invisible hp), trivial⟩
  | realPublishing u result =>
    cases hstep
    exact ⟨h.publish (parse_ne_invisible hp), trivial⟩
  | clearDeleting u | expiryDeleting u | myDeleting u =>
    cases hstep
    exact ⟨h.hdelOverride u, trivial⟩
  | passing seconds =>
    cases hstep
    refine ⟨h.of_hashes rfl ?_, trivial⟩
    intro v
    rcases hash_pass s seconds v with hgone | hsame
    · right
      rw [hgone]
      intro heq
      cases heq
    · exact Or.inl hsame
  | myReading u =>
    simp only [advance] at hstep
    split at hstep
    · cases hstep
      exact ⟨h, trivial⟩
    · cases hstep
      refine ⟨h, ?_⟩
      split
      · trivial
      · trivial
  | expiryStatus u =>
    simp only [advance] at hstep
    split at hstep
    all_goals
      cases hstep
      exact ⟨h, trivial⟩
  | expiryTime u =>
    simp only [advance] at hstep
    split at hstep
    · cases hstep
      exact ⟨h, trivial⟩
    · cases hstep
      exact ⟨h, trivial⟩
    · cases hstep
      refine ⟨h, ?_⟩
      split
      · trivial
      · trivial

theorem State.Honest.neverInvisible (h : s.Honest) : NeverInvisible s where
  answers := by
    intro shareAnyServer callerID userID r hother hanswers
    rw [eq_of_answers hother hanswers, presenceOf_status]
    exact resolve_ne_invisible (h.hashes userID)
  published := h.published

end Honest

/-- What honest clients keep along a run. -/
theorem honest_exec (now : Nat) (h : Guarded watchedStep KeepsHidden (watchedInitial now) evs) :
    (exec watchedStep (watchedInitial now) evs).shared.1.Honest := by
  have hinit : Inv (fun sw : State × Watch => sw.1.Honest) (fun _ p => p.Honest)
      (fun _ _ _ => True) (watchedInitial now) := by
    apply Inv.init
    refine ⟨?_, ?_⟩
    · intro u heq
      cases heq
    · intro p hp
      cases hp
  refine (keeps_exec (Inv.perm fun _ _ _ _ => trivial) ?_ ?_ hinit h).shared
  · intro sh calls call hinv hhonest
    exact hinv.cons (honest_begin hhonest) fun _ _ => trivial
  · intro sh p others outcome sh' p' hinv _ hnext
    obtain ⟨hstep, -⟩ := watched_cases hnext
    obtain ⟨hs, hp⟩ := hinv.shared.advance (hinv.each p mem_cons_self) hstep
    exact hinv.replace hs hp (fun q _ hq _ => ⟨hq, trivial⟩) fun _ _ _ => trivial

/-! ## Section 4: Two runs that report different statuses -/

/-- The hashes differ in the reported status at most. -/
def Hash.Like (h h' : Hash) : Prop :=
  h'.status.isSome = h.status.isSome ∧ h' = { h with status := h'.status }

structure State.Like (s s' : State) : Prop where
  now : s'.now = s.now
  hashes : ∀ u, (s.presence u).hash.Like (s'.presence u).hash
  expiry : ∀ u, (s'.presence u).expiresAt = (s.presence u).expiresAt

inductive Phase.Like : Phase → Phase → Prop where
  | same (p : Phase) : Like p p
  | updateWriting (u : ID) (status status' : Int) (statusText : Option String) :
      Like (.updateWriting u status statusText) (.updateWriting u status' statusText)
  | updatePublishing (u : ID) (statusText : Option String) {h h' : Hash} (like : h.Like h') :
      Like (.updatePublishing u statusText h) (.updatePublishing u statusText h')
  | setPublishing (u : ID) (o : Override) {h h' : Hash} (like : h.Like h') :
      Like (.setPublishing u o h) (.setPublishing u o h')
  | realPublishing (u : ID) {h h' : Hash} (like : h.Like h') :
      Like (.realPublishing u h) (.realPublishing u h')

structure Notice.Like (n n' : Notice) : Prop where
  user : n'.publication.userID = n.publication.userID
  text : n'.publication.statusText = n.publication.statusText
  demand : n'.demand = n.demand

structure Watch.Like (w w' : Watch) : Prop where
  latest : w'.latest = w.latest
  shown : Forall₂ Notice.Like w.shown w'.shown

section Like

theorem Hash.Like.refl (h : Hash) : h.Like h := ⟨rfl, rfl⟩

theorem Hash.Like.empty_iff {h' : Hash} (like : h.Like h') : h' = {} ↔ h = {} := by
  obtain ⟨hsome, heq⟩ := like
  constructor
  · intro hempty
    rw [hempty] at hsome heq
    obtain ⟨status, lastSeen, statusText, overrideStatus, overrideExpiresAt⟩ := h
    simp only [Hash.mk.injEq, true_and] at heq
    have hnone : status = none := by simpa using hsome.symm
    simp [hnone, ← heq.1, ← heq.2.1, ← heq.2.2.1, ← heq.2.2.2]
  · intro hempty
    rw [hempty] at hsome heq
    have hnone : h'.status = none := by simpa using hsome
    rw [heq, hnone]

theorem Hash.Like.override {h' : Hash} (like : h.Like h') : h'.override = h.override := by
  rw [like.2]
  rfl

theorem Hash.Like.text {h' : Hash} (like : h.Like h') : h'.statusText = h.statusText := by
  rw [like.2]

variable {s s' : State}

theorem State.Like.entry (h : s.Like s') (u : ID) :
    (s.entry u).hash.Like (s'.entry u).hash ∧ (s'.entry u).expiresAt = (s.entry u).expiresAt := by
  unfold State.entry
  dsimp only
  rw [h.expiry u, h.now]
  split
  · exact ⟨.refl _, rfl⟩
  · exact ⟨h.hashes u, h.expiry u⟩

theorem State.Like.hash (h : s.Like s') (u : ID) : (s.hash u).Like (s'.hash u) := (h.entry u).1

theorem State.Like.put (h : s.Like s') (u : ID) {e e' : Entry} (hhash : e.hash.Like e'.hash)
    (hexpiry : e'.expiresAt = e.expiresAt) : (s.put u e).Like (s'.put u e') where
  now := h.now
  hashes := by
    intro v
    unfold State.put
    by_cases hv : v = u
    · subst hv
      simpa using hhash
    · simpa [hv] using h.hashes v
  expiry := by
    intro v
    unfold State.put
    by_cases hv : v = u
    · subst hv
      simpa using hexpiry
    · simpa [hv] using h.expiry v

theorem State.Like.hset (h : s.Like s') (u : ID) {f f' : Hash → Hash}
    (hf : ∀ {a b : Hash}, a.Like b → (f a).Like (f' b)) : (s.hset u f).Like (s'.hset u f') :=
  h.put u (hf (h.hash u)) (h.entry u).2

theorem State.Like.expire (h : s.Like s') (u : ID) (seconds : Nat) :
    (s.expire u seconds).Like (s'.expire u seconds) := by
  unfold State.expire
  -- an empty hash is no key, and an absent key does not expire
  by_cases hempty : s.hash u = {}
  · rw [if_pos hempty, if_pos ((h.hash u).empty_iff.mpr hempty)]
    exact h
  · rw [if_neg hempty, if_neg (fun hempty' => hempty ((h.hash u).empty_iff.mp hempty'))]
    exact h.put u (h.hash u) (by rw [h.now])

theorem State.Like.hdelOverride (h : s.Like s') (u : ID) :
    (s.hdelOverride u).Like (s'.hdelOverride u) := by
  have hdeleted : Hash.Like { s.hash u with overrideStatus := none, overrideExpiresAt := none }
      { s'.hash u with overrideStatus := none, overrideExpiresAt := none } := by
    refine ⟨(h.hash u).1, ?_⟩
    rw [(h.hash u).2]
  unfold State.hdelOverride
  dsimp only
  -- the key goes with its last field
  by_cases hempty : ({ s.hash u with overrideStatus := none, overrideExpiresAt := none } :
      Hash) = {}
  · rw [if_pos hempty, if_pos (hdeleted.empty_iff.mpr hempty)]
    exact h.put u (.refl _) rfl
  · rw [if_neg hempty, if_neg (fun hempty' => hempty (hdeleted.empty_iff.mp hempty'))]
    exact h.put u hdeleted (h.entry u).2

theorem State.Like.publish (h : s.Like s') (u u' : ID) (status status' : Status)
    (text text' : String) :
    (s.publishPresenceUpdate u status text).Like (s'.publishPresenceUpdate u' status' text') :=
  ⟨h.now, h.hashes, h.expiry⟩

theorem State.Like.pass (h : s.Like s') (seconds : Nat) : (s.pass seconds).Like (s'.pass seconds) :=
  ⟨congrArg (· + seconds) h.now, h.hashes, h.expiry⟩

theorem report_like (now : Nat) (status status' : Int) (statusText : Option String) {a b : Hash}
    (h : a.Like b) : (a.report now status statusText).Like (b.report now status' statusText) := by
  refine ⟨rfl, ?_⟩
  rw [h.2]
  rfl

theorem withOverride_like (o : Override) {a b : Hash} (h : a.Like b) :
    (a.withOverride o).Like (b.withOverride o) := by
  refine ⟨h.1, ?_⟩
  rw [h.2]
  rfl

/-- The statuses decide nothing of what a call does next. -/
theorem advance_like (h : s.Like s') (hp : p.Like p') :
    Rel (fun r r' => r.1.Like r'.1 ∧ r.2.Like r'.2) (advance s p) (advance s' p') := by
  cases hp with
  | updateWriting u status status' statusText =>
    have hset := h.hset u (report_like s.now status status' statusText)
    simp only [advance]
    rw [h.now]
    exact .some ⟨hset, .same _⟩
  | updatePublishing u statusText like =>
    -- what is published is not compared here: the watch does that
    exact .some ⟨h.publish .., .same _⟩
  | setPublishing | realPublishing => exact .some ⟨h.publish .., .same _⟩
  | same p =>
    cases p with
    | updateWriting u status statusText =>
      have hset := h.hset u (report_like s.now status status statusText)
      simp only [advance]
      rw [h.now]
      exact .some ⟨hset, .same _⟩
    | setWriting u status durationSeconds =>
      have hset := h.hset u (withOverride_like (overrideFrom s.now status durationSeconds))
      simp only [advance]
      rw [h.now]
      exact .some ⟨hset, .same _⟩
    | updateExpiring u statusText | beatRenewing u =>
      exact .some ⟨h.expire u presenceTTL, .same _⟩
    | updateReading u statusText =>
      exact .some ⟨h, .updatePublishing u statusText (h.hash u)⟩
    | setReading u o => exact .some ⟨h, .setPublishing u o (h.hash u)⟩
    | realReading u => exact .some ⟨h, .realPublishing u (h.hash u)⟩
    | updatePublishing u statusText result | setPublishing u o result | realPublishing u result =>
      exact .some ⟨h.publish .., .same _⟩
    | clearDeleting u | myDeleting u | expiryDeleting u =>
      exact .some ⟨h.hdelOverride u, .same _⟩
    | passing seconds => exact .some ⟨h.pass seconds, .same _⟩
    | refused e | done => exact .none
    | myReading u =>
      simp only [advance]
      rw [(h.hash u).override, h.now]
      split
      · exact .some ⟨h, .same _⟩
      · exact .some ⟨h, .same _⟩
    | expiryStatus u =>
      have hsame : (s'.hash u).overrideStatus = (s.hash u).overrideStatus := by
        rw [(h.hash u).2]
      simp only [advance]
      rw [hsame]
      split
      all_goals exact .some ⟨h, .same _⟩
    | expiryTime u =>
      have hsame : (s'.hash u).overrideExpiresAt = (s.hash u).overrideExpiresAt := by
        rw [(h.hash u).2]
      simp only [advance]
      rw [hsame, h.now]
      split
      all_goals exact .some ⟨h, .same _⟩

variable {w w' : Watch}

theorem Watch.Like.demand (h : w.Like w') (now : Nat) (u : ID) :
    w'.demand now u = w.demand now u := by
  unfold Watch.demand
  rw [h.latest]

theorem Watch.Like.noted (h : w.Like w') (now : Nat) {result result' : Hash} {u : ID}
    {status status' : Status} {text : String} :
    (w.noted now result ⟨u, status, text⟩).Like (w'.noted now result' ⟨u, status', text⟩) :=
  ⟨h.latest, .cons ⟨rfl, rfl, h.demand now u⟩ h.shown⟩

theorem Watch.Like.answered (h : w.Like w') (u : ID) (o : Override) :
    (w.answered u o).Like (w'.answered u o) := by
  unfold Watch.answered
  rw [h.latest]
  split
  · exact ⟨rfl, h.shown⟩
  · exact h

theorem see_like (hs : s.Like s') (hw : w.Like w') (hp : p.Like p') :
    (w.see s p ()).Like (w'.see s' p' ()) := by
  unfold Watch.see
  cases hp with
  | updateWriting u status status' statusText => exact hw
  | updatePublishing u statusText like =>
    rw [hs.now]
    exact hw.noted s.now
  | setPublishing u o like =>
    dsimp only
    rw [hs.now, like.text]
    exact (hw.noted s.now).answered u o
  | realPublishing u like =>
    dsimp only
    rw [hs.now, like.text]
    exact hw.noted s.now
  | same p =>
    rw [hs.now]
    cases p with
    | setWriting u status durationSeconds | clearDeleting u =>
      refine ⟨?_, hw.shown⟩
      exact congrArg (Function.update · u _) hw.latest
    | updatePublishing u statusText result | realPublishing u result => exact hw.noted s.now
    | setPublishing u o result => exact (hw.noted s.now).answered u o
    | _ => exact hw

theorem begin_like {call call' : Call} (h : call.Like call') : (begin call).Like (begin call') := by
  cases call with
  | updatePresence u status statusText =>
    obtain ⟨status', rfl⟩ := h
    exact .updateWriting u status status' statusText
  | _ =>
    cases h
    exact .same _

end Like

/-- The states differ in what clients have reported at most. -/
def LikeBy : Watched → Watched → Prop :=
  Lockstep (fun sw sw' => sw.1.Like sw'.1 ∧ sw.2.Like sw'.2) Like

theorem likeBy_step (t t' : Watched) (ev ev' : Event) (h : LikeBy t t')
    (hev : SameTurn Call.Like ev ev') : LikeBy (watchedStep t ev) (watchedStep t' ev') := by
  refine .step (fun _ _ hcall => begin_like hcall) ?_ h hev
  intro sw sw' others others' p p' outcome hlike _ hp
  have hrel := advance_like hlike.1 hp
  unfold watched next
  rcases hn : advance sw.1 p with _ | ⟨s, q⟩
  · rcases hn' : advance sw'.1 p' with _ | ⟨s', q'⟩
    · exact .none
    · rw [hn, hn'] at hrel
      cases hrel
  · rcases hn' : advance sw'.1 p' with _ | ⟨s', q'⟩
    · rw [hn, hn'] at hrel
      cases hrel
    · rw [hn, hn'] at hrel
      obtain ⟨hs, hq⟩ := hrel
      exact .some ⟨⟨hs, see_like hlike.1 hlike.2 hp⟩, hq⟩

theorem likeBy_exec (now : Nat) {evs' : List Event}
    (h : Forall₂ (SameTurn Call.Like) evs evs') :
    LikeBy (exec watchedStep (watchedInitial now) evs)
      (exec watchedStep (watchedInitial now) evs') := by
  apply exec_related likeBy_step _ h
  exact ⟨⟨⟨rfl, fun _ => .refl _, fun _ => rfl⟩, ⟨rfl, .nil⟩⟩, .nil⟩

/-! ## Section 5: Runs -/

theorem shown_of_hides {demand : Demand} (hhides : demand.hides = true) {real shown : Status}
    (hmet : demand.Met real shown) : shown = .offline := by
  cases demand with
  | real | unsettled => cases hhides
  | override o =>
    have hshown : shown = o.shown := hmet
    have hstatus : o.status ∈ [.invisible, .offline] := of_decide_eq_true hhides
    rw [hshown]
    unfold Override.shown
    split
    · next hdnd =>
      rw [hdnd] at hstatus
      exact absurd hstatus (by decide)
    · rfl

theorem hidden_eq {l l' : List Notice} (hlike : Forall₂ Notice.Like l l')
    (hmet : ∀ n ∈ l, n.demand.Met n.real n.publication.status)
    (hmet' : ∀ n ∈ l', n.demand.Met n.real n.publication.status) :
    (l.filter fun n => n.demand.hides).map publication =
      (l'.filter fun n => n.demand.hides).map publication := by
  induction hlike with
  | nil => rfl
  | @cons n n' l l' hn hrest ih =>
    obtain ⟨hfirst, hl⟩ := forall_mem_cons.mp hmet
    obtain ⟨hfirst', hl'⟩ := forall_mem_cons.mp hmet'
    rw [filter_cons, filter_cons, hn.demand]
    -- the demands agree, so both notices are kept or neither is
    by_cases hhides : n.demand.hides = true
    · have hsame : n.publication = n'.publication := by
        have hstatus := shown_of_hides hhides hfirst
        have hstatus' := shown_of_hides (by rw [hn.demand]; exact hhides) hfirst'
        obtain ⟨⟨u, status, text⟩, real, demand⟩ := n
        obtain ⟨⟨u', status', text'⟩, real', demand'⟩ := n'
        obtain ⟨huser, htext, -⟩ := hn
        dsimp only at huser htext hstatus hstatus'
        rw [huser, htext, hstatus, hstatus']
      rw [if_pos hhides, if_pos hhides, map_cons, map_cons, ih hl hl', hsame]
    · rw [if_neg hhides, if_neg hhides]
      exact ih hl hl'

theorem sameWhileHidden {s s' : State} {w w' : Watch} (hs : s.Like s') (hw : w.Like w')
    (h : Determined s w) (h' : Determined s' w') : SameWhileHidden s w s' w' where
  answers := by
    intro userID hhides shareAnyServer callerID r hother
    rw [answers_iff hother, answers_iff hother]
    apply and_congr_right
    intro hshared
    have hstatus : (presenceOf s userID false).status = .offline :=
      shown_of_hides hhides (h.answers shareAnyServer callerID userID _ hother
        ((answers_iff hother).mpr ⟨hshared, rfl⟩))
    have hstatus' : (presenceOf s' userID false).status = .offline := by
      have hhides' : (w'.demand s'.now userID).hides = true := by
        rw [hs.now, hw.demand]
        exact hhides
      exact shown_of_hides hhides' (h'.answers shareAnyServer callerID userID _ hother
        ((answers_iff hother).mpr ⟨hshared, rfl⟩))
    -- both show offline, and the rest of the hashes agrees
    have hsame : presenceOf s userID false = presenceOf s' userID false := by
      rw [presenceOf_status] at hstatus hstatus'
      unfold presenceOf
      dsimp only
      rw [hstatus, hstatus', (hs.hash userID).text]
      by_cases hempty : s.hash userID = {}
      · rw [if_pos hempty, if_pos ((hs.hash userID).empty_iff.mpr hempty)]
      · rw [if_neg hempty, if_neg fun hempty' => hempty ((hs.hash userID).empty_iff.mp hempty')]
    rw [hsame]
  published := hidden_eq hw.shown h.published h'.published

theorem keepsOverrides_of_keepsHidden {now : Nat}
    (h : Guarded watchedStep KeepsHidden (watchedInitial now) evs) :
    Guarded watchedStep KeepsOverrides (watchedInitial now) evs := by
  refine .mono ?_ h
  intro t ev hev
  cases ev with
  | start call => trivial
  | advance i outcome => exact hev

/-- **Invisible means invisible.** In runs in which clients do not report that they are
    invisible and overrides are kept, nobody is shown the status; and two such runs, with the
    same turns and other reports, look the same while a user hides. -/
theorem invisible_exec (now : Nat) (evs evs' : List Event)
    (hsame : Forall₂ (SameTurn Call.Like) evs evs')
    (h : Guarded watchedStep KeepsHidden (watchedInitial now) evs)
    (h' : Guarded watchedStep KeepsHidden (watchedInitial now) evs') :
    NeverInvisible (exec watchedStep (watchedInitial now) evs).shared.1 ∧
      SameWhileHidden (exec watchedStep (watchedInitial now) evs).shared.1
        (exec watchedStep (watchedInitial now) evs).shared.2
        (exec watchedStep (watchedInitial now) evs').shared.1
        (exec watchedStep (watchedInitial now) evs').shared.2 := by
  have hlike := (likeBy_exec now hsame).shared
  have hheld := (exec_invariant heldBy_step (heldBy_initial now)
    (keepsOverrides_of_keepsHidden h)).shared
  have hheld' := (exec_invariant heldBy_step (heldBy_initial now)
    (keepsOverrides_of_keepsHidden h')).shared
  refine ⟨(honest_exec now h).neverInvisible, ?_⟩
  exact sameWhileHidden hlike.1 hlike.2 (hheld.1.determined hheld.2) (hheld'.1.determined hheld'.2)

/-- Ann is online, hides, and then reports a status. -/
def annReports (status : Int) : List Event :=
  [.start (.updatePresence "ann" 1 none), .advance 0 (), .advance 0 (), .advance 0 (),
    .advance 0 (), .start (.setStatusOverride "ann" 5 600), .advance 1 (), .advance 1 (),
    .advance 1 (), .start (.updatePresence "ann" status (some "hi")), .advance 2 (),
    .advance 2 (), .advance 2 (), .advance 2 ()]

theorem annReports_sameTurns (status status' : Int) :
    Forall₂ (SameTurn Call.Like) (annReports status) (annReports status') := by
  repeat' constructor

/-- Online or idle, nobody can tell while Ann hides. -/
theorem invisible_exec_annReports :
    NeverInvisible (exec watchedStep (watchedInitial 0) (annReports 1)).shared.1 ∧
      SameWhileHidden (exec watchedStep (watchedInitial 0) (annReports 1)).shared.1
        (exec watchedStep (watchedInitial 0) (annReports 1)).shared.2
        (exec watchedStep (watchedInitial 0) (annReports 2)).shared.1
        (exec watchedStep (watchedInitial 0) (annReports 2)).shared.2 := by
  have honline : Call.Honest (.updatePresence "ann" 1 none) := by decide
  have hsays : Call.Honest (.updatePresence "ann" 1 (some "hi")) := by decide
  have hidle : Call.Honest (.updatePresence "ann" 2 (some "hi")) := by decide
  refine invisible_exec 0 (annReports 1) (annReports 2) (annReports_sameTurns 1 2)
    ⟨honline, ?_, ?_, ?_, ?_, trivial, ?_, ?_, ?_, hsays, ?_, ?_, ?_, ?_, trivial⟩
    ⟨honline, ?_, ?_, ?_, ?_, trivial, ?_, ?_, ?_, hidle, ?_, ?_, ?_, ?_, trivial⟩
  all_goals
    intro p hp
    cases hp
    trivial

/-- Ann hides, reports a status, and sets the override again while a clear is on its way. -/
def annChanges (status : Int) : List Event :=
  annReports status ++
    [.start (.clearStatusOverride "ann"), .advance 3 (), .advance 3 (),
      .start (.setStatusOverride "ann" 5 600), .advance 4 (), .advance 4 (), .advance 4 (),
      .advance 3 ()]

/-- A client that reports INVISIBLE shows it to all, and a clear publishes what was reported
    while the user hides again. -/
theorem not_invisible_annChanges :
    presenceOf (exec watchedStep (watchedInitial 0)
        [.start (.updatePresence "ann" 5 none), .advance 0 ()]).shared.1 "ann" false =
        ⟨"ann", .invisible, ""⟩ ∧
      (exec watchedStep (watchedInitial 0) (annChanges 1)).shared.2.hidden ≠
        (exec watchedStep (watchedInitial 0) (annChanges 2)).shared.2.hidden ∧
      ¬ ∀ (now : Nat) (evs evs' : List Event),
        Forall₂ (SameTurn Call.Like) evs evs' →
        NeverInvisible (exec watchedStep (watchedInitial now) evs).shared.1 ∧
          SameWhileHidden (exec watchedStep (watchedInitial now) evs).shared.1
            (exec watchedStep (watchedInitial now) evs).shared.2
            (exec watchedStep (watchedInitial now) evs').shared.1
            (exec watchedStep (watchedInitial now) evs').shared.2 := by
  have hshown : presenceOf (exec watchedStep (watchedInitial 0)
      [.start (.updatePresence "ann" 5 none), .advance 0 ()]).shared.1 "ann" false =
        ⟨"ann", .invisible, ""⟩ := by
    decide +kernel
  have hdiffer : (exec watchedStep (watchedInitial 0) (annChanges 1)).shared.2.hidden ≠
      (exec watchedStep (watchedInitial 0) (annChanges 2)).shared.2.hidden := by
    decide +kernel
  refine ⟨hshown, hdiffer, ?_⟩
  intro hall
  have hturns : Forall₂ (SameTurn Call.Like) (annChanges 1) (annChanges 2) := by
    refine rel_append (annReports_sameTurns 1 2) ?_
    repeat' constructor
  exact hdiffer (hall 0 _ _ hturns).2.published

end Meza.Presence
