import Meza.Auth.RecoverySteps

/-! # One recovery session per user

    `InitiateDeviceRecovery` takes the index of the user with `SETNX`, so that
    there is one session per user. But the index and the session are two keys:
    the index is not extended when the bundle is handed out, it may expire before
    the session is stored, and the cleanup deletes it whichever session it
    belongs to by then. -/

namespace Meza.Auth.Recovery
open State Function Option Session

open Aead (Bytes)
open Store (ID)

/-! ## Section 1: The invariant and the condition -/

/-- The session is not done. -/
def Session.Live (r : Session) : Prop := r.state ≠ .done

/-- One live session per user at most, and the index points to it. -/
structure OneLive (s : State) : Prop where
  one : ∀ i j e e', s.sessions i = some e → s.sessions j = some e' → e.value.Live →
    e'.value.Live → e.value.userID = e'.value.userID → i = j
  indexed : ∀ i e, s.sessions i = some e → e.value.Live →
    ∃ x, s.userIndex e.value.userID = some x ∧ x.value = i

def Indexed (s : State) : Prop :=
  ∀ i e, s.sessions i = some e → e.value.Live →
    ∃ x, s.userIndex e.value.userID = some x ∧ x.value = i

variable {others : List Phase} {o : Outcome} {p p' : Phase} {s s' : State}

theorem oneLive_iff : OneLive s ↔ Indexed s := by
  constructor
  · exact fun h => h.indexed
  · intro h
    refine ⟨?_, h⟩
    intro i j e e' he he' hlive hlive' huser
    obtain ⟨x, hx, rfl⟩ := h i e he hlive
    obtain ⟨y, hy, rfl⟩ := h j e' he' hlive'
    rw [huser, hy] at hx
    cases hx
    rfl

def NoneLive (s : State) (userID : ID) : Prop :=
  ∀ i e, s.sessions i = some e → e.value.Live → e.value.userID ≠ userID

/-- A session is stored only while the index still points to it; an index is deleted or lost
    only where the user has no live session; and no index expires before its session. -/
def keepsIndex (s : State) (_ : List Phase) (p : Phase) (o : Outcome) : Prop :=
  match p with
  | .creating _ _ userID _ sessionID =>
    o.reply ≠ .refused → ∃ x, s.userIndex userID = some x ∧ x.value = sessionID
  | .unindexing userID | .cleaningIndex userID => o.reply ≠ .refused → NoneLive s userID
  | .evicting (.userIndex userID) => NoneLive s userID
  | .waiting seconds =>
    ∀ i e, s.sessions i = some e → e.value.Live → e.alive (s.now + seconds) = true →
      ∃ x, s.userIndex e.value.userID = some x ∧ x.alive (s.now + seconds) = true
  | _ => True

def KeepsIndex : Pooled → Event → Prop := Pool.Allows (fun _ _ => True) keepsIndex

/-! ## Section 2: Steps that leave the index alone -/

/-- A live session has been one before, of the same user. -/
def State.Retains (s s' : State) : Prop :=
  ∀ i e', s'.sessions i = some e' → e'.value.Live →
    ∃ e, s.sessions i = some e ∧ e.value.Live ∧ e.value.userID = e'.value.userID

theorem Indexed.retained (h : Indexed s) (hretains : s.Retains s')
    (hindex : s'.userIndex = s.userIndex) : Indexed s' := by
  intro i e' he' hlive'
  obtain ⟨e, he, hlive, huser⟩ := hretains i e' he' hlive'
  rw [hindex, ← huser]
  exact h i e he hlive

theorem retains_setSession {sessionID : SessionID} {e new : Entry Session}
    (hfound : s.sessions sessionID = some e) (hlive : e.value.Live)
    (huser : e.value.userID = new.value.userID) : s.Retains (s.setSession sessionID new) := by
  intro i e' he' hlive'
  by_cases hi : i = sessionID
  · subst hi
    simp only [setSession, update_self, some.injEq] at he'
    subst he'
    exact ⟨e, hfound, hlive, huser⟩
  · simp only [setSession, update_of_ne hi] at he'
    exact ⟨e', he', hlive', rfl⟩

theorem Effect.retains (heffect : Effect s p s' p')
    (hp : ∀ email token userID pub i, p ≠ .creating email token userID pub i) : s.Retains s' := by
  have hsame : ∀ i e', s.sessions i = some e' → e'.value.Live →
      ∃ e, s.sessions i = some e ∧ e.value.Live ∧ e.value.userID = e'.value.userID :=
    fun i e' he' hlive' => ⟨e', he', hlive', rfl⟩
  cases heffect with
  | quiet hshrinks hholds htruthful =>
    intro i e' he' hlive'
    obtain ⟨e, he, hvalue⟩ := hshrinks.sessions i e' he'
    exact ⟨e, he, hvalue ▸ hlive', by rw [hvalue]⟩
  | sent _ | counted _ _ | drew _ _ | verified _ | used _ _ | named _ | recovered _ _ => exact hsame
  | created hfree => exact absurd rfl (hp _ _ _ _ _)
  | approved bundle deviceID hfound hpending hfree =>
    refine retains_setSession hfound ?_ rfl
    rw [Live, hpending]
    decide
  | @handedOut _ _ sessionID e hfound hstate hfree =>
    have hset : s.Retains
        (s.setSession sessionID { e with value := { e.value with state := .completed } }) := by
      refine retains_setSession hfound ?_ rfl
      rw [Live, hstate]
      decide
    intro i e' he' hlive'
    obtain ⟨e'', he'', hvalue⟩ := (expireSession_shrinks _ sessionID 600).sessions i e' he'
    rw [← hvalue] at hlive' ⊢
    exact hset i e'' he'' hlive'
  | finished hfound hstate hfree =>
    refine retains_setSession hfound ?_ rfl
    rw [Live, hstate]
    decide

/-- The steps that write an index. -/
def Phase.writesIndex : Phase → Bool
  | .claiming _ _ _ _ _ | .unindexing _ | .cleaningIndex _ | .waiting _
  | .evicting (.userIndex _) => true
  | _ => false

theorem Issues.userIndex {t : State} {k failed : Phase} (h : Issues s p t k failed)
    (hp : p.writesIndex = false) : t.userIndex = s.userIndex := by
  cases h with
  | claiming _ | unindexing _ | cleaningIndex _ => cases hp
  | creating email token userID ephemeralPub sessionID =>
    show (s.hsetSession sessionID userID ephemeralPub).userIndex = s.userIndex
    unfold hsetSession
    split
    · rfl
    · rfl
  | _ => rfl

theorem userIndex_next (h : next s others p o = some (s', p')) (hp : p.writesIndex = false) :
    s'.userIndex = s.userIndex := by
  cases next_turn h with
  | executed hissues _ _ => exact hissues.userIndex hp
  | passed seconds => cases hp
  | evicted key =>
    cases key with
    | userIndex userID => cases hp
    | otp _ | tokenIndex _ | session _ => rfl
  | _ => rfl

/-! ## Section 3: Steps that write an index or a session -/

/-- The index is taken where there is none: the user has no live session. -/
theorem indexed_setUserIndex (h : Indexed s) {userID : ID} (hnone : s.userIndex userID = none)
    (sessionID : SessionID) (ttl : Nat) : Indexed (s.setUserIndex userID sessionID ttl) := by
  intro i e he hlive
  obtain ⟨x, hx, hi⟩ := h i e he hlive
  refine ⟨x, ?_, hi⟩
  have hne : e.value.userID ≠ userID := by
    rintro rfl
    rw [hnone] at hx
    cases hx
  simp only [setUserIndex, update_of_ne hne]
  exact hx

theorem indexed_delUserIndex (h : Indexed s) (userID : ID) :
    Indexed (s.delUserIndex userID) ↔ NoneLive s userID := by
  constructor
  · intro h' i e he hlive huser
    obtain ⟨x, hx, -⟩ := h' i e he hlive
    simp only [delUserIndex, huser, update_self] at hx
    cases hx
  · intro hnone i e he hlive
    obtain ⟨x, hx, hi⟩ := h i e he hlive
    refine ⟨x, ?_, hi⟩
    simp only [delUserIndex, update_of_ne (hnone i e he hlive)]
    exact hx

theorem indexed_hsetSession (h : Indexed s) (sessionID : SessionID) (userID : ID)
    (ephemeralPub : Bytes) :
    Indexed (s.hsetSession sessionID userID ephemeralPub) ↔
      ∃ x, s.userIndex userID = some x ∧ x.value = sessionID := by
  obtain ⟨e, huser, hpending, hset⟩ : ∃ e : Entry Session, e.value.userID = userID ∧
      e.value.state = .pending ∧
      s.hsetSession sessionID userID ephemeralPub = s.setSession sessionID e := by
    unfold hsetSession
    split
    · exact ⟨_, rfl, rfl, rfl⟩
    · exact ⟨_, rfl, rfl, rfl⟩
  rw [hset]
  constructor
  · intro h'
    have hfound : (s.setSession sessionID e).sessions sessionID = some e :=
      update_self _ _ _
    have hlive : e.value.Live := by
      rw [Live, hpending]
      decide
    rw [← huser]
    exact h' sessionID e hfound hlive
  · intro hindex i e' he' hlive'
    by_cases hi : i = sessionID
    · subst hi
      simp only [setSession, update_self, some.injEq] at he'
      subst he'
      rw [huser]
      exact hindex
    · simp only [setSession, update_of_ne hi] at he'
      exact h i e' he' hlive'

theorem indexed_pass (h : Indexed s) (seconds : Nat) :
    Indexed (s.pass seconds) ↔
      ∀ i e, s.sessions i = some e → e.value.Live → e.alive (s.now + seconds) = true →
        ∃ x, s.userIndex e.value.userID = some x ∧ x.alive (s.now + seconds) = true := by
  constructor
  · intro h' i e he hlive halive
    have hfound : (s.pass seconds).sessions i = some e := by
      simp [State.pass, he, halive]
    obtain ⟨x, hx, -⟩ := h' i e hfound hlive
    exact ⟨x, filter_eq_some_iff.mp hx⟩
  · intro hall i e hfound hlive
    obtain ⟨he, halive⟩ := filter_eq_some_iff.mp hfound
    obtain ⟨x, hx, hxalive⟩ := hall i e he hlive halive
    obtain ⟨y, hy, hi⟩ := h i e he hlive
    rw [hx] at hy
    cases hy
    exact ⟨x, filter_eq_some_iff.mpr ⟨hx, hxalive⟩, hi⟩

/-! ## Section 4: One step -/

/-- A command that is executed unless it is refused. -/
theorem indexed_command {run : State → State} {k failed : Phase} {Q : Prop} (h : Indexed s)
    (hcommand : command s o run k failed = (s', p')) (hrun : Indexed (run s) ↔ Q) :
    Indexed s' ↔ (o.reply ≠ .refused → Q) := by
  unfold command at hcommand
  split at hcommand
  · rename_i hreply
    cases hcommand
    rw [hrun]
    simp [hreply]
  · rename_i hreply
    cases hcommand
    rw [hrun]
    simp [hreply]
  · rename_i hreply
    cases hcommand
    simp [hreply, h]

theorem indexed_next (h : Indexed s) (hnext : next s others p o = some (s', p')) :
    Indexed s' ↔ keepsIndex s others p o := by
  have hquiet : p.writesIndex = false →
      (∀ email token userID pub i, p ≠ .creating email token userID pub i) → Indexed s' := by
    intro hwrites hcreating
    exact h.retained ((next_effect hnext).retains hcreating) (userIndex_next hnext hwrites)
  cases p with
  | claiming email token userID ephemeralPub sessionID =>
    refine iff_of_true ?_ trivial
    cases next_turn hnext with
    | idle _ _ _ | refused _ _ => exact h
    | executed hissues _ _ =>
      cases hissues with
      | claiming hnone => exact indexed_setUserIndex h hnone sessionID 300
  | creating email token userID ephemeralPub sessionID =>
    exact indexed_command h (some.inj hnext) (indexed_hsetSession h sessionID userID ephemeralPub)
  | unindexing userID | cleaningIndex userID =>
    exact indexed_command h (some.inj hnext) (indexed_delUserIndex h userID)
  | waiting seconds =>
    cases hnext
    exact indexed_pass h seconds
  | evicting key =>
    cases hnext
    cases key with
    | userIndex userID => exact indexed_delUserIndex h userID
    | otp | tokenIndex => exact iff_of_true h trivial
    | session sessionID =>
      refine iff_of_true (h.retained ?_ rfl) trivial
      intro i e' he' hlive'
      obtain ⟨e, he, hvalue⟩ := (delSession_shrinks s sessionID).sessions i e' he'
      exact ⟨e, he, hvalue ▸ hlive', by rw [hvalue]⟩
  | _ => exact iff_of_true (hquiet rfl (fun _ _ _ _ _ => by simp)) trivial

theorem keepsIndex_of_waiting (h : next s others p o = none) : keepsIndex s others p o := by
  cases p with
  | creating | unindexing | cleaningIndex | waiting | evicting => cases h
  | _ => trivial

/-! ## Section 5: Runs -/

theorem oneLive_step (s : Pooled) (ev : Event) (h : OneLive s.shared) :
    OneLive (step s ev).shared ↔ KeepsIndex s ev := by
  rw [oneLive_iff] at h ⊢
  exact Pool.event_iff (J := fun _ => True) (I := fun t : Pooled => Indexed t.shared)
    (fun _ _ _ _ _ => trivial) (fun _ _ _ _ hI => hI) (fun _ _ _ hI => hI)
    (fun _ _ _ _ hwaits => keepsIndex_of_waiting hwaits)
    (fun _ _ _ _ _ _ _ hI hnext => indexed_next hI hnext) s ev trivial h

/-- **There is one live session per user, and the index points to it**, exactly in the runs in
    which every step keeps the index. -/
theorem oneLive_along_iff (users : Users) (evs : List Event) :
    (∀ pre, pre <+: evs → OneLive (Run.exec step (initial users) pre).shared) ↔
      Run.Guarded step KeepsIndex (initial users) evs := by
  have hinit : OneLive (initial users).shared := by
    rw [oneLive_iff]
    intro i e he
    cases he
  exact Run.along_iff_of_kept (J := fun _ => True) (fun _ _ _ => trivial)
    (fun s ev _ h => oneLive_step s ev h) trivial hinit

/-! ### A session that outlives its index -/

def anna : User := { id := "anna", email := "anna@home" }

def annasTable : Users := Users.empty.insert anna

def firstSession : SessionID := .replicate 64 'a'

def code : Bytes := [1, 2, 3, 4, 5, 6]

def bundle : Bytes := .replicate 124 7

/-- A session is created and approved, its bundle is handed out, and more than five minutes
    pass: the session has been extended, and its index has not. -/
def handedOutLate : List Event :=
  [.start (.verifyRecoveryEmail "anna@home" []),
   .advance 0 {}, .advance 0 { code }, .advance 0 {}, .advance 0 {}, .advance 0 {},
   .start (.verifyRecoveryEmail "anna@home" code),
   .advance 1 {}, .advance 1 {}, .advance 1 { token := [9] }, .advance 1 {}, .advance 1 {},
   .advance 1 {},
   .start (.initiateDeviceRecovery [9] (.replicate 32 5)),
   .advance 2 {}, .advance 2 {}, .advance 2 { sessionID := firstSession }, .advance 2 {},
   .advance 2 {}, .advance 2 {},
   .start (.approveDeviceRecovery (some ("anna", "laptop")) firstSession bundle), .advance 3 {},
   .start (.pollDeviceRecovery firstSession), .advance 4 {},
   .start (.clock 301), .advance 5 {}]

theorem not_oneLive_handedOutLate :
    ¬ OneLive (Run.exec step (initial annasTable) handedOutLate).shared := by
  intro h
  have hstate : ((Run.exec step (initial annasTable) handedOutLate).shared.sessions
      firstSession).map (fun e => (e.value.userID, e.value.state)) = some ("anna", .completed) := by
    decide +kernel
  have hindex : ((Run.exec step (initial annasTable) handedOutLate).shared.userIndex
      "anna").isNone = true := by
    decide +kernel
  obtain ⟨e, he, hvalue⟩ := map_eq_some_iff.mp hstate
  simp only [Prod.mk.injEq] at hvalue
  have hlive : e.value.Live := by
    rw [Live, hvalue.2]
    decide
  obtain ⟨x, hx, -⟩ := h.indexed firstSession e he hlive
  rw [hvalue.1] at hx
  rw [hx] at hindex
  cases hindex

end Meza.Auth.Recovery
