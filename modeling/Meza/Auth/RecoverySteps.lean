import Meza.Auth.Recovery
import Meza.Lib.Rights

/-! # The steps of a device recovery

    From the code that is sent to the account that is recovered, each act needs
    the one before it, and is done once. What may be done once is a right: to
    mark a token that was drawn, to use a token that is verified, to create a
    session with a used token, to name a session, to recover an account through a
    session that is done. A right is in Redis or held by a call.

    `next_effect` says what one step of any call does. -/

namespace Meza.Auth.Recovery
open Option Act List

open Aead (Bytes)
open Store (ID)

/-! ## Section 1: The course -/

/-- The state that an act brings a session into. -/
def Act.entered (sessionID : SessionID) : Act → Option RecoveryState
  | .created i _ _ _ => if i = sessionID then some .pending else none
  | .approved i _ _ => if i = sessionID then some .approved else none
  | .handedOut i _ => if i = sessionID then some .completed else none
  | .finished i _ => if i = sessionID then some .done else none
  | _ => none

/-- The states a session has been in, the latest first. -/
def history (log : List Act) (sessionID : SessionID) : List RecoveryState :=
  log.filterMap (entered sessionID)

/-- What must have been done before, and what must not. -/
def Allowed (before : List Act) : Act → Prop
  | .sent _ _ => True
  | .drew email code token => .sent email code ∈ before ∧ ∀ e c, .drew e c token ∉ before
  | .verified email token =>
    (∃ code, .drew email code token ∈ before) ∧ ∀ e, .verified e token ∉ before
  | .used email token _ => .verified email token ∈ before ∧ ∀ e u, .used e token u ∉ before
  | .named sessionID => .named sessionID ∉ before
  | .created sessionID userID email token =>
    .used email token userID ∈ before ∧ (∀ i u e, .created i u e token ∉ before) ∧
      history before sessionID = []
  | .approved sessionID caller _ =>
    (∃ email token, .created sessionID caller email token ∈ before) ∧
      history before sessionID = [.pending]
  | .handedOut sessionID bundle =>
    (∃ caller, .approved sessionID caller bundle ∈ before) ∧
      history before sessionID = [.approved, .pending]
  | .finished sessionID userID =>
    (∃ email token, .created sessionID userID email token ∈ before) ∧
      history before sessionID = [.completed, .approved, .pending]
  | .recovered sessionID userID =>
    .finished sessionID userID ∈ before ∧ ∀ u, .recovered sessionID u ∉ before

/-- Every act was allowed after those before it. -/
def Sound : List Act → Prop
  | [] => True
  | a :: before => Allowed before a ∧ Sound before

theorem Sound.before {after before : List Act} {a : Act} (h : Sound (after ++ a :: before)) :
    Allowed before a ∧ Sound before := by
  induction after with
  | nil => exact h
  | cons b after ih => exact ih h.2

variable {log : List Act} {p p' : Phase}

theorem Sound.split {a : Act} (h : Sound log) (ha : a ∈ log) :
    ∃ after before, log = after ++ a :: before ∧ Allowed before a ∧ Sound before := by
  obtain ⟨after, before, rfl⟩ := append_of_mem ha
  exact ⟨after, before, rfl, h.before⟩

/-- A session goes through its states one after the other. -/
theorem Sound.history_suffix (h : Sound log) (sessionID : SessionID) :
    history log sessionID <:+ [.done, .completed, .approved, .pending] := by
  induction log with
  | nil => exact nil_suffix
  | cons a before ih =>
    have hbefore := ih h.2
    have hallowed := h.1
    rcases hentered : a.entered sessionID with _ | state
    · have hsame : history (a :: before) sessionID = history before sessionID := by
        simp [history, hentered]
      rw [hsame]
      exact hbefore
    · have hcons : history (a :: before) sessionID = state :: history before sessionID := by
        simp [history, hentered]
      rw [hcons]
      cases a with
      | created i u e t =>
        by_cases hi : i = sessionID
        · subst hi
          simp only [entered, if_true, some.injEq] at hentered
          rw [hallowed.2.2, ← hentered]
          exact ⟨[.done, .completed, .approved], rfl⟩
        · simp [entered, hi] at hentered
      | approved i c b =>
        by_cases hi : i = sessionID
        · subst hi
          simp only [entered, if_true, some.injEq] at hentered
          rw [hallowed.2, ← hentered]
          exact ⟨[.done, .completed], rfl⟩
        · simp [entered, hi] at hentered
      | handedOut i b =>
        by_cases hi : i = sessionID
        · subst hi
          simp only [entered, if_true, some.injEq] at hentered
          rw [hallowed.2, ← hentered]
          exact ⟨[.done], rfl⟩
        · simp [entered, hi] at hentered
      | finished i u =>
        by_cases hi : i = sessionID
        · subst hi
          simp only [entered, if_true, some.injEq] at hentered
          rw [hallowed.2, ← hentered]
        · simp [entered, hi] at hentered
      | sent _ _ | drew _ _ _ | verified _ _ | used _ _ _ | named _ | recovered _ _ =>
        simp [entered] at hentered

/-- The states up to one. -/
def RecoveryState.course : RecoveryState → List RecoveryState
  | .pending => [.pending]
  | .approved => [.approved, .pending]
  | .completed => [.completed, .approved, .pending]
  | .done => [.done, .completed, .approved, .pending]

/-- The latest state says what the states before it were. -/
theorem Sound.history_eq (h : Sound log) {sessionID : SessionID} {state : RecoveryState}
    (hstate : (history log sessionID).head? = some state) :
    history log sessionID = state.course := by
  have hsuffix := h.history_suffix sessionID
  generalize history log sessionID = states at hstate hsuffix
  rw [← mem_tails] at hsuffix
  simp only [tails, mem_cons, not_mem_nil, or_false] at hsuffix
  rcases hsuffix with rfl | rfl | rfl | rfl | rfl
  · cases hstate
    rfl
  · cases hstate
    rfl
  · cases hstate
    rfl
  · cases hstate
    rfl
  · cases hstate

/-! ## Section 2: Rights -/

inductive Right where
  /-- To mark the record with a token that was drawn. -/
  | mark (token : Bytes)
  | use (token : Bytes)
  | create (token : Bytes)
  | name (sessionID : SessionID)
  | recover (sessionID : SessionID)
  deriving DecidableEq, Repr

def Act.grants : Act → Right → Prop
  | .drew _ _ t, r => r = .mark t
  | .verified _ t, r => r = .use t
  | .used _ t _, r => r = .create t
  | .named i, r => r = .name i
  | .finished i _, r => r = .recover i
  | _, _ => False

def Act.spends : Act → Right → Prop
  | .verified _ t, r => r = .mark t
  | .used _ t _, r => r = .use t
  | .created i _ _ t, r => r = .create t ∨ r = .name i
  | .recovered i _, r => r = .recover i
  | _, _ => False

def Phase.holds : Phase → Right → Prop
  | .marking _ t, r => r = .mark t
  | .initiateLimiting _ t _ _, r => r = .create t
  | .claiming _ t _ _ i, r => r = .create t ∨ r = .name i
  | .creating _ t _ _ i, r => r = .create t ∨ r = .name i
  | .recovering i _, r => r = .recover i
  | .executing i _ _, r => r = .recover i
  | _, _ => False

/-- The record lets a token be used. -/
def OTPRecord.usable (r : OTPRecord) (token : Bytes) : Prop :=
  r.verified = true ∧ r.consumed = false ∧ r.sessionTokenHash = some (sha256 token)

def State.stocks (s : State) : Right → Prop
  | .use token => ∃ email e, s.otp email = some e ∧ e.value.usable token
  | _ => False

def books : Rights.Books State Phase Right where
  known s r := ∃ a ∈ s.log, a.grants r
  stock := State.stocks
  spent s r := ∃ a ∈ s.log, a.spends r
  holds := Phase.holds

/-! ## Section 3: What records and calls say is true -/

def Users.Registered (users : Users) (userID : ID) (email : Email) : Prop :=
  ∃ u ∈ users.rows, u.id = userID ∧ u.email = email

structure OTPRecord.Truthful (log : List Act) (users : Users) (email : Email) (r : OTPRecord) :
    Prop where
  code : ∀ c, r.codeHash = some (sha256 c) → .sent email c ∈ log
  user : r.userID ≠ "" → users.Registered r.userID email
  token : ∀ t, r.sessionTokenHash = some (sha256 t) → .verified email t ∈ log

structure Session.Truthful (log : List Act) (sessionID : SessionID) (r : Session) : Prop where
  current : (history log sessionID).head? = some r.state
  user : ∃ email token, .created sessionID r.userID email token ∈ log
  bundle : r.state = .approved →
    ∃ caller bundle, r.wrappedBundle = some bundle ∧ .approved sessionID caller bundle ∈ log

structure Ledger (s : State) : Prop where
  sound : Sound s.log
  otp : ∀ email e, s.otp email = some e → e.value.Truthful s.log s.users email
  sessions : ∀ sessionID e, s.sessions sessionID = some e → e.value.Truthful s.log sessionID
  created : ∀ sessionID email token userID, .created sessionID userID email token ∈ s.log →
    s.users.Registered userID email

def Phase.Truthful (s : State) : Phase → Prop
  | .sendStoring email _ userID => userID ≠ "" → s.users.Registered userID email
  | .marking email token => ∃ code, .drew email code token ∈ s.log
  | .initiateLimiting email token userID _ | .claiming email token userID _ _
  | .creating email token userID _ _ =>
    .used email token userID ∈ s.log ∧ s.users.Registered userID email
  | .recovering sessionID userID => .finished sessionID userID ∈ s.log
  | .executing sessionID userID email =>
    .finished sessionID userID ∈ s.log ∧ s.users.Registered userID email
  | _ => True

/-- The call holds nothing and says nothing. -/
structure Phase.Free (p : Phase) : Prop where
  holds : ∀ r, ¬ p.holds r
  truthful : ∀ s, p.Truthful s

/-! ## Section 4: What a step does -/

/-- No call has achieved anything, and nothing has been added. -/
structure State.Shrinks (s s' : State) : Prop where
  log : s'.log = s.log
  users : ∀ u ∈ s.users.rows, u ∈ s'.users.rows
  otp : ∀ email e', s'.otp email = some e' → ∃ e, s.otp email = some e ∧ e.value = e'.value
  sessions : ∀ i e', s'.sessions i = some e' → ∃ e, s.sessions i = some e ∧ e.value = e'.value

inductive Effect (s : State) : Phase → State → Phase → Prop where
  | quiet {p p' : Phase} {s' : State} (shrinks : s.Shrinks s')
      (holds : ∀ r, p'.holds r → p.holds r) (truthful : p.Truthful s → p'.Truthful s') :
      Effect s p s' p'
  | sent {email : Email} {code : Bytes} {userID : ID} {p' : Phase} (free : p'.Free) :
      Effect s (.sendStoring email code userID) ((s.hsetOTP email fun r =>
          { r with codeHash := some (sha256 code), attempts := 0, userID }).record
            (.sent email code)) p'
  | counted {p p' : Phase} (email : Email) (free : p'.Free) :
      Effect s p (s.hsetOTP email fun r => { r with attempts := r.attempts + 1 }) p'
  | drew {p : Phase} {email : Email} {code token : Bytes}
      (right : (s.otpRecord email).codeHash = some (sha256 code))
      (fresh : s.tokenDrawn token = false) :
      Effect s p (s.record (.drew email code token)) (.marking email token)
  | verified {email : Email} {token : Bytes} {p' : Phase} (free : p'.Free) :
      Effect s (.marking email token) ((s.hsetOTP email fun r =>
          { r with sessionTokenHash := some (sha256 token), verified := true }).record
            (.verified email token)) p'
  | used {email : Email} {token ephemeralPub : Bytes} {p p' : Phase}
      (usable : (s.otpRecord email).usable token)
      (free : p'.Free ∨ ((s.otpRecord email).userID ≠ "" ∧
        p' = .initiateLimiting email token (s.otpRecord email).userID ephemeralPub)) :
      Effect s p ((s.hsetOTP email fun r => { r with consumed := true }).record
        (.used email token (s.otpRecord email).userID)) p'
  | named {email : Email} {token : Bytes} {userID : ID} {ephemeralPub : Bytes}
      {sessionID : SessionID} (fresh : s.sessionNamed sessionID = false) :
      Effect s (.initiateLimiting email token userID ephemeralPub) (s.record (.named sessionID))
        (.claiming email token userID ephemeralPub sessionID)
  | created {email : Email} {token : Bytes} {userID : ID} {ephemeralPub : Bytes}
      {sessionID : SessionID} {p' : Phase} (free : p'.Free) :
      Effect s (.creating email token userID ephemeralPub sessionID)
        ((s.hsetSession sessionID userID ephemeralPub).record
          (.created sessionID userID email token)) p'
  | approved {p p' : Phase} {sessionID : SessionID} {e : Entry Session} (bundle : Bytes)
      (deviceID : ID) (found : s.sessions sessionID = some e) (pending : e.value.state = .pending)
      (free : p'.Free) :
      Effect s p ((s.setSession sessionID { e with
          value := { e.value with
            wrappedBundle := some bundle, approverDeviceID := some deviceID, state := .approved }
          }).record (.approved sessionID e.value.userID bundle)) p'
  | handedOut {p p' : Phase} {sessionID : SessionID} {e : Entry Session}
      (found : s.sessions sessionID = some e) (isApproved : e.value.state = .approved)
      (free : p'.Free) :
      Effect s p
        (((s.setSession sessionID { e with
          value := { e.value with state := .completed } }).expireSession sessionID 600).record
          (.handedOut sessionID (e.value.wrappedBundle.getD []))) p'
  | finished {p p' : Phase} {sessionID : SessionID} {e : Entry Session}
      (found : s.sessions sessionID = some e) (isCompleted : e.value.state = .completed)
      (free : p'.Free ∨ p' = .recovering sessionID e.value.userID) :
      Effect s p ((s.setSession sessionID { e with
          value := { e.value with state := .done } }).record
          (.finished sessionID e.value.userID)) p'
  | recovered {sessionID : SessionID} {userID : ID} {email : Email} {u : User} {p' : Phase}
      (found : s.users.recovered email = some u) (free : p'.Free) :
      Effect s (.executing sessionID userID email) (s.record (.recovered sessionID u.id)) p'

section Shrinks

variable (s : State)

theorem shrinks_refl : s.Shrinks s :=
  ⟨rfl, fun _ hu => hu, fun _ e' h => ⟨e', h, rfl⟩, fun _ e' h => ⟨e', h, rfl⟩⟩

variable {α κ : Type}

theorem update_shrinks [DecidableEq κ] {m : κ → Option (Entry α)} {k : κ} {new : Option (Entry α)}
    (hnew : ∀ e' ∈ new, ∃ e, m k = some e ∧ e.value = e'.value) (i : κ) (e' : Entry α)
    (h : Function.update m k new i = some e') : ∃ e, m i = some e ∧ e.value = e'.value := by
  by_cases hi : i = k
  · subst hi
    rw [Function.update_self] at h
    exact hnew e' h
  · rw [Function.update_of_ne hi] at h
    exact ⟨e', h, rfl⟩

theorem filter_shrinks {m : κ → Option (Entry α)} {keep : Entry α → Bool} (i : κ) (e' : Entry α)
    (h : (m i).filter keep = some e') : ∃ e, m i = some e ∧ e.value = e'.value :=
  ⟨e', (filter_eq_some_iff.mp h).1, rfl⟩

theorem expire_shrinks {m : κ → Option (Entry α)} {k : κ} {t : Nat} :
    ∀ e' ∈ (m k).map fun e => { e with expiresAt := some t },
      ∃ e, m k = some e ∧ e.value = e'.value := by
  intro e' h
  obtain ⟨e, he, rfl⟩ := map_eq_some_iff.mp h
  exact ⟨e, he, rfl⟩

theorem expireOTP_shrinks (email : Email) (ttl : Nat) : s.Shrinks (s.expireOTP email ttl) :=
  { shrinks_refl s with otp := update_shrinks expire_shrinks }

theorem delOTP_shrinks (email : Email) : s.Shrinks (s.delOTP email) :=
  { shrinks_refl s with otp := update_shrinks (by simp) }

theorem setTokenIndex_shrinks (token : Bytes) (email : Email) (ttl : Nat) :
    s.Shrinks (s.setTokenIndex token email ttl) := { shrinks_refl s with }

theorem setUserIndex_shrinks (userID : ID) (sessionID : SessionID) (ttl : Nat) :
    s.Shrinks (s.setUserIndex userID sessionID ttl) := { shrinks_refl s with }

theorem delUserIndex_shrinks (userID : ID) : s.Shrinks (s.delUserIndex userID) :=
  { shrinks_refl s with }

theorem expireSession_shrinks (sessionID : SessionID) (ttl : Nat) :
    s.Shrinks (s.expireSession sessionID ttl) :=
  { shrinks_refl s with sessions := update_shrinks expire_shrinks }

theorem delSession_shrinks (sessionID : SessionID) : s.Shrinks (s.delSession sessionID) :=
  { shrinks_refl s with sessions := update_shrinks (by simp) }

theorem pass_shrinks (seconds : Nat) : s.Shrinks (s.pass seconds) :=
  { shrinks_refl s with otp := filter_shrinks, sessions := filter_shrinks }

theorem evict_shrinks (key : Key) : s.Shrinks (s.evict key) := by
  cases key with
  | otp email => exact delOTP_shrinks s email
  | tokenIndex token => exact { shrinks_refl s with }
  | session sessionID => exact delSession_shrinks s sessionID
  | userIndex userID => exact delUserIndex_shrinks s userID

theorem insert_shrinks (u : User) : s.Shrinks { s with users := s.users.insert u } := by
  refine { shrinks_refl s with users := ?_ }
  intro v hv
  show v ∈ (s.users.insert u).rows
  unfold Users.insert
  split
  · exact mem_append_left _ hv
  · exact hv

end Shrinks

/-! ### The branches of the steps -/

/-- The call is between a comparison and the return of a token. -/
def Phase.verifying : Phase → Bool
  | .verifyChecking _ _ | .marking _ _ | .refreshing _ _ | .indexing _ _ => true
  | _ => false

/-- The steps that an observer takes note of. -/
def Phase.noted : Phase → Bool
  | .sendStoring _ _ _ | .verifyChecking _ _ | .refreshing _ _ | .indexing _ _ => true
  | _ => false

/-- The command of a phase: the state after it, and where the call goes on or ends. -/
inductive Issues (s : State) : Phase → State → Phase → Phase → Prop where
  | sendStoring (email : Email) (code : Bytes) (userID : ID) :
      Issues s (.sendStoring email code userID) ((s.hsetOTP email fun r =>
          { r with codeHash := some (sha256 code), attempts := 0, userID }).record
            (.sent email code)) (.sendExpiring email) .returned
  | sendExpiring (email : Email) :
      Issues s (.sendExpiring email) (s.expireOTP email 300) .returned .returned
  | counting {email : Email} {code : Bytes} {k : Phase}
      (goesOn : (k = .verifyChecking email code ∧ (s.otpRecord email).attempts + 1 ≤ 5) ∨
        k = .invalidating email) :
      Issues s (.verifyCounting email code)
        (s.hsetOTP email fun r => { r with attempts := r.attempts + 1 }) k .returned
  | invalidating (email : Email) :
      Issues s (.invalidating email) (s.delOTP email) .returned .returned
  | marking (email : Email) (token : Bytes) :
      Issues s (.marking email token) ((s.hsetOTP email fun r =>
          { r with sessionTokenHash := some (sha256 token), verified := true }).record
            (.verified email token)) (.refreshing email token) .returned
  | refreshing (email : Email) (token : Bytes) :
      Issues s (.refreshing email token) (s.expireOTP email 300) (.indexing email token) .returned
  | indexing (email : Email) (token : Bytes) :
      Issues s (.indexing email token) (s.setTokenIndex token email 300) .returned .returned
  | consuming {email : Email} {token ephemeralPub : Bytes} {k : Phase}
      (usable : (s.otpRecord email).usable token)
      (goesOn : k = .returned ∨ ((s.otpRecord email).userID ≠ "" ∧
        k = .initiateLimiting email token (s.otpRecord email).userID ephemeralPub)) :
      Issues s (.consuming email token ephemeralPub)
        ((s.hsetOTP email fun r => { r with consumed := true }).record
          (.used email token (s.otpRecord email).userID)) k .returned
  | claiming {email : Email} {token : Bytes} {userID : ID} {ephemeralPub : Bytes}
      {sessionID : SessionID} (unclaimed : s.userIndex userID = none) :
      Issues s (.claiming email token userID ephemeralPub sessionID)
        (s.setUserIndex userID sessionID 300)
        (.creating email token userID ephemeralPub sessionID) .returned
  | creating (email : Email) (token : Bytes) (userID : ID) (ephemeralPub : Bytes)
      (sessionID : SessionID) :
      Issues s (.creating email token userID ephemeralPub sessionID)
        ((s.hsetSession sessionID userID ephemeralPub).record
          (.created sessionID userID email token))
        (.expiringSession userID sessionID) (.unindexing userID)
  | expiringSession (userID : ID) (sessionID : SessionID) :
      Issues s (.expiringSession userID sessionID) (s.expireSession sessionID 300) .returned
        (.unindexing userID)
  | unindexing (userID : ID) :
      Issues s (.unindexing userID) (s.delUserIndex userID) .returned .returned
  | polling {sessionID : SessionID} {e : Entry Session} (found : s.sessions sessionID = some e)
      (isApproved : e.value.state = .approved) :
      Issues s (.pollBegun sessionID)
        (((s.setSession sessionID { e with
          value := { e.value with state := .completed } }).expireSession sessionID 600).record
          (.handedOut sessionID (e.value.wrappedBundle.getD []))) .returned .returned
  | approving {sessionID : SessionID} {e : Entry Session} (bundle : Bytes) (deviceID : ID)
      (found : s.sessions sessionID = some e) (pending : e.value.state = .pending) :
      Issues s (.approveBegun (some (e.value.userID, deviceID)) sessionID bundle)
        ((s.setSession sessionID { e with
          value := { e.value with
            wrappedBundle := some bundle, approverDeviceID := some deviceID, state := .approved }
          }).record (.approved sessionID e.value.userID bundle)) .returned .returned
  | completing {r : CompleteRequest} {e : Entry Session}
      (found : s.sessions r.sessionID = some e) (isCompleted : e.value.state = .completed) :
      Issues s (.completeBegun r)
        ((s.setSession r.sessionID { e with
          value := { e.value with state := .done } }).record
          (.finished r.sessionID e.value.userID))
        (.recovering r.sessionID e.value.userID) .returned
  | cleaningSession (sessionID : SessionID) (userID : ID) :
      Issues s (.cleaningSession sessionID userID) (s.delSession sessionID)
        (.cleaningIndex userID) .returned
  | cleaningIndex (userID : ID) :
      Issues s (.cleaningIndex userID) (s.delUserIndex userID) .returned .returned

/-- **All that a step can do**, branch by branch. -/
inductive Turn (s : State) (o : Outcome) : Phase → State → Phase → Prop where
  | idle {p p' : Phase} (unseen : p.noted = false) (waits : p'.verifying = false) (free : p'.Free) :
      Turn s o p s p'
  | refused {p k failed : Phase} {t : State} (issues : Issues s p t k failed)
      (reply : o.reply = .refused) : Turn s o p s failed
  | executed {p p' k failed : Phase} {t : State} (issues : Issues s p t k failed)
      (reply : o.reply ≠ .refused) (goesOn : p' = k ∨ p' = failed) : Turn s o p t p'
  | looked {email : Email} {code : Bytes} {userID : ID}
      (registered : userID ≠ "" → s.users.Registered userID email) :
      Turn s o (.sendLooking email code) s (.sendStoring email code userID)
  | wrong {email : Email} {code : Bytes} : Turn s o (.verifyChecking email code) s .returned
  | drew {email : Email} {code : Bytes} (reply : o.reply = .ok)
      (right : (s.otpRecord email).codeHash = some (sha256 code))
      (fresh : s.tokenDrawn o.token = false) :
      Turn s o (.verifyChecking email code) (s.record (.drew email code o.token))
        (.marking email o.token)
  | named {email : Email} {token : Bytes} {userID : ID} {ephemeralPub : Bytes}
      (fresh : s.sessionNamed o.sessionID = false) :
      Turn s o (.initiateLimiting email token userID ephemeralPub) (s.record (.named o.sessionID))
        (.claiming email token userID ephemeralPub o.sessionID)
  | found {sessionID : SessionID} {userID : ID} {u : User}
      (found : s.users.byID userID = some u) :
      Turn s o (.recovering sessionID userID) s (.executing sessionID userID u.email)
  | recovered {sessionID : SessionID} {userID : ID} {email : Email} {u : User} {p' : Phase}
      (found : s.users.recovered email = some u)
      (goesOn : p' = .issuing sessionID userID ∨ p' = .returned) :
      Turn s o (.executing sessionID userID email) (s.record (.recovered sessionID u.id)) p'
  | registered (u : User) : Turn s o (.registering u) { s with users := s.users.insert u } .returned
  | passed (seconds : Nat) : Turn s o (.waiting seconds) (s.pass seconds) .returned
  | evicted (key : Key) : Turn s o (.evicting key) (s.evict key) .returned

theorem free_returned : Phase.returned.Free := ⟨fun _ h => h, fun _ => trivial⟩

section Turns

variable {s s' t : State} {o : Outcome} {k failed : Phase}

theorem Turn.stops (unseen : p.noted = false) : Turn s o p s .returned :=
  .idle unseen rfl free_returned

theorem Turn.command {run : State → State} (h : Recovery.command s o run k failed = (s', p'))
    (hissues : Issues s p (run s) k failed) : Turn s o p s' p' := by
  unfold Recovery.command at h
  split at h
  · next hreply =>
    cases h
    exact .executed hissues (by simp [hreply]) (.inl rfl)
  · next hreply =>
    cases h
    exact .executed hissues (by simp [hreply]) (.inr rfl)
  · next hreply =>
    cases h
    exact .refused hissues hreply

theorem Turn.command_idle {run : State → State}
    (h : Recovery.command s o run .returned .returned = (s', p')) (hrun : run s = s)
    (hunseen : p.noted = false) : Turn s o p s' p' := by
  unfold Recovery.command at h
  rw [hrun] at h
  split at h
  · cases h
    exact .stops hunseen
  · cases h
    exact .stops hunseen
  · cases h
    exact .stops hunseen

theorem sendStep_turn (h : sendStep s o p = some (s', p')) : Turn s o p s' p' := by
  cases p with
  | sendLimiting email =>
    simp only [sendStep] at h
    split at h
    · cases h
      exact .stops rfl
    · cases h
      exact .idle rfl rfl ⟨fun _ hr => hr, fun _ => trivial⟩
  | sendLooking email code =>
    simp only [sendStep] at h
    split at h
    · next u hfound =>
      cases h
      refine .looked fun hne => ⟨u, mem_of_find?_eq_some hfound, ?_, ?_⟩
      · by_cases hfailed : o.failed
        · simp [hfailed] at hne
        · simp [hfailed]
      · have hemail := find?_some hfound
        simp only [decide_eq_true_eq] at hemail
        exact hemail.1
    · cases h
      exact .looked fun hne => absurd rfl hne
  | sendStoring email code userID =>
    exact .command (some.inj h) (.sendStoring email code userID)
  | sendExpiring email => exact .command (some.inj h) (.sendExpiring email)
  | _ => cases h

theorem verifyStep_turn (h : verifyStep s o p = some (s', p')) : Turn s o p s' p' := by
  cases p with
  | verifyCounting email code =>
    simp only [verifyStep] at h
    split at h
    · exact .command (some.inj h) (.counting (.inr rfl))
    · next hfew =>
      have hattempts : (s.otpRecord email).attempts + 1 ≤ 5 := by
        simpa [State.otpRecord, State.hsetOTP] using hfew
      exact .command (some.inj h) (.counting (.inl ⟨rfl, hattempts⟩))
  | verifyChecking email code =>
    simp only [verifyStep] at h
    split at h
    · cases h
      exact .wrong
    · next hright =>
      split at h
      · cases h
      · next hfresh =>
        cases h
        push Not at hright
        exact .drew hright.1 hright.2 (Bool.eq_false_iff.mpr hfresh)
  | invalidating email => exact .command (some.inj h) (.invalidating email)
  | marking email token => exact .command (some.inj h) (.marking email token)
  | refreshing email token => exact .command (some.inj h) (.refreshing email token)
  | indexing email token => exact .command (some.inj h) (.indexing email token)
  | _ => cases h

/-- The script either does nothing, or uses the token. -/
theorem otpConsumeScript_cases {email : Email} {token : Bytes} {r : Consumed}
    (h : otpConsumeScript s email token = (s', r)) :
    (s' = s ∧ ∀ userID, r ≠ .ok userID) ∨
      ((s.otpRecord email).usable token ∧ r = .ok (s.otpRecord email).userID ∧
        s' = (s.hsetOTP email fun r => { r with consumed := true }).record
          (.used email token (s.otpRecord email).userID)) := by
  simp only [otpConsumeScript] at h
  split at h
  · cases h
    exact .inl ⟨rfl, by simp⟩
  · rename_i hverified
    split at h
    · cases h
      exact .inl ⟨rfl, by simp⟩
    · rename_i hconsumed
      split at h
      · cases h
        exact .inl ⟨rfl, by simp⟩
      · rename_i htoken
        cases h
        refine .inr ⟨⟨?_, Bool.eq_false_iff.mpr hconsumed, not_not.mp htoken⟩, rfl, rfl⟩
        exact Bool.eq_true_of_not_eq_false hverified

theorem initiateStep_turn (h : initiateStep s o p = some (s', p')) : Turn s o p s' p' := by
  cases p with
  | initiateBegun token ephemeralPub =>
    simp only [initiateStep] at h
    split at h
    · cases h
      exact .stops rfl
    · split at h
      · cases h
        exact .stops rfl
      · cases h
        exact .idle rfl rfl ⟨fun _ hr => hr, fun _ => trivial⟩
  | consuming email token ephemeralPub =>
    rcases hscript : otpConsumeScript s email token with ⟨s₁, r⟩
    rcases otpConsumeScript_cases hscript with ⟨-, hnot⟩ | ⟨husable, rfl, rfl⟩
    · have hsame : some (s, .returned) = some (s', p') := by
        rw [← h]
        cases r with
        | ok userID => exact absurd rfl (hnot userID)
        | notVerified | alreadyConsumed | invalidToken => simp only [initiateStep, hscript]
      cases hsame
      exact .stops rfl
    · simp only [initiateStep, hscript] at h
      split at h
      · exact .command (some.inj h) (.consuming husable (.inl rfl))
      · next hne => exact .command (some.inj h) (.consuming husable (.inr ⟨hne, rfl⟩))
  | initiateLimiting email token userID ephemeralPub =>
    simp only [initiateStep] at h
    split at h
    · cases h
      exact .stops rfl
    · split at h
      · cases h
      · next hfresh =>
        cases h
        exact .named (Bool.eq_false_iff.mpr hfresh)
  | claiming email token userID ephemeralPub sessionID =>
    simp only [initiateStep] at h
    split at h
    · cases h
      exact .stops rfl
    · next hnone => exact .command (some.inj h) (.claiming hnone)
  | creating email token userID ephemeralPub sessionID =>
    exact .command (some.inj h) (.creating email token userID ephemeralPub sessionID)
  | expiringSession userID sessionID =>
    exact .command (some.inj h) (.expiringSession userID sessionID)
  | unindexing userID => exact .command (some.inj h) (.unindexing userID)
  | _ => cases h

theorem completeStep_turn (h : completeStep s o p = some (s', p')) : Turn s o p s' p' := by
  cases p with
  | completeBegun r =>
    simp only [completeStep] at h
    split at h
    · cases h
      exact .stops rfl
    · rcases hfound : s.sessions r.sessionID with _ | e
      · simp only [completeTransitionScript, hfound] at h
        cases h
        exact .stops rfl
      · cases hstate : e.value.state with
        | pending | approved | done =>
          simp only [completeTransitionScript, hfound, hstate] at h
          cases h
          exact .stops rfl
        | completed =>
          simp only [completeTransitionScript, hfound, hstate] at h
          exact .command (some.inj h) (.completing hfound hstate)
  | recovering sessionID userID =>
    simp only [completeStep] at h
    split at h
    · cases h
      exact .stops rfl
    · split at h
      · next u hfound =>
        cases h
        exact .found hfound
      · cases h
        exact .stops rfl
  | executing sessionID userID email =>
    simp only [completeStep] at h
    split at h
    · next u hfound =>
      cases h
      refine .recovered hfound ?_
      split
      · exact .inr rfl
      · exact .inl rfl
    · cases h
      exact .stops rfl
  | issuing sessionID userID =>
    simp only [completeStep] at h
    split at h
    · cases h
      exact .stops rfl
    · cases h
      exact .idle rfl rfl ⟨fun _ hr => hr, fun _ => trivial⟩
  | cleaningSession sessionID userID =>
    exact .command (some.inj h) (.cleaningSession sessionID userID)
  | cleaningIndex userID => exact .command (some.inj h) (.cleaningIndex userID)
  | _ => cases h

/-- The script does nothing to a session that is not approved. -/
theorem pollTransitionScript_turn {sessionID : SessionID}
    (h : command s o (fun s => (pollTransitionScript s sessionID).1) .returned .returned =
      (s', p')) : Turn s o (.pollBegun sessionID) s' p' := by
  rcases hfound : s.sessions sessionID with _ | e
  · exact .command_idle h (by simp only [pollTransitionScript, hfound]) rfl
  · cases hstate : e.value.state with
    | pending | completed | done =>
      exact .command_idle h (by simp only [pollTransitionScript, hfound, hstate]) rfl
    | approved =>
      refine .command h ?_
      simp only [pollTransitionScript, hfound, hstate]
      exact .polling hfound hstate

/-- Nor to one that is not pending, or another user's. -/
theorem approveTransitionScript_turn {sessionID : SessionID} {bundle : Bytes} {deviceID userID : ID}
    (h : command s o (fun s => (approveTransitionScript s sessionID bundle deviceID userID).1)
    .returned .returned = (s', p')) :
    Turn s o (.approveBegun (some (userID, deviceID)) sessionID bundle) s' p' := by
  rcases hfound : s.sessions sessionID with _ | e
  · exact .command_idle h (by simp only [approveTransitionScript, hfound]) rfl
  · by_cases hpending : e.value.state = .pending
    · by_cases huser : e.value.userID = userID
      · subst huser
        refine .command h ?_
        simp only [approveTransitionScript, hfound, hpending, ne_eq, not_true, if_false]
        exact .approving bundle deviceID hfound hpending
      · exact .command_idle h (by simp [approveTransitionScript, hfound, hpending, huser]) rfl
    · exact .command_idle h (by simp [approveTransitionScript, hfound, hpending]) rfl

theorem scriptStep_turn (h : scriptStep s o p = some (s', p')) : Turn s o p s' p' := by
  cases p with
  | verifyBegun email code =>
    simp only [scriptStep] at h
    split_ifs at h
    · cases h
      exact .stops rfl
    · cases h
      exact .idle rfl rfl ⟨fun _ hr => hr, fun _ => trivial⟩
    · cases h
      exact .stops rfl
    · cases h
      exact .idle rfl rfl ⟨fun _ hr => hr, fun _ => trivial⟩
  | pollBegun sessionID =>
    simp only [scriptStep] at h
    split at h
    · cases h
      exact .stops rfl
    · exact pollTransitionScript_turn (some.inj h)
  | approveBegun caller sessionID wrappedBundle =>
    simp only [scriptStep] at h
    split at h
    · cases h
      exact .stops rfl
    · split at h
      · cases h
        exact .stops rfl
      · exact approveTransitionScript_turn (some.inj h)
  | registering u =>
    cases h
    exact .registered u
  | waiting seconds =>
    cases h
    exact .passed seconds
  | evicting key =>
    cases h
    exact .evicted key
  | _ => cases h

theorem next_turn {others : List Phase} (h : next s others p o = some (s', p')) :
    Turn s o p s' p' := by
  cases p with
  | sendLimiting _ | sendLooking _ _ | sendStoring _ _ _ | sendExpiring _ =>
    exact sendStep_turn h
  | verifyCounting _ _ | invalidating _ | verifyChecking _ _ | marking _ _ | refreshing _ _
  | indexing _ _ =>
    exact verifyStep_turn h
  | initiateBegun _ _ | consuming _ _ _ | initiateLimiting _ _ _ _ | claiming _ _ _ _ _
  | creating _ _ _ _ _ | expiringSession _ _ | unindexing _ =>
    exact initiateStep_turn h
  | completeBegun _ | recovering _ _ | executing _ _ _ | issuing _ _ | cleaningSession _ _
  | cleaningIndex _ =>
    exact completeStep_turn h
  | verifyBegun _ _ | pollBegun _ | approveBegun _ _ _ | registering _ | waiting _ | evicting _ =>
    exact scriptStep_turn h
  | returned => cases h

/-! ### The effect of a branch -/

/-- A call goes on with nothing. -/
theorem Effect.free (hshrinks : s.Shrinks s') (hfree : p'.Free) : Effect s p s' p' :=
  .quiet hshrinks (fun r hr => absurd hr (hfree.holds r)) fun _ => hfree.truthful s'

/-- A call whose command failed holds nothing. -/
theorem Issues.free (h : Issues s p t k failed) : failed.Free := by
  cases h <;> exact ⟨fun _ hr => hr, fun _ => trivial⟩

theorem Issues.effect (h : Issues s p t k failed) (hgoes : p' = k ∨ p' = failed) :
    Effect s p t p' := by
  have hfree : k.Free → p'.Free := by
    intro hk
    rcases hgoes with rfl | rfl
    · exact hk
    · exact h.free
  cases h with
  | sendStoring email code userID => exact .sent (hfree ⟨fun _ hr => hr, fun _ => trivial⟩)
  | sendExpiring email => exact .free (expireOTP_shrinks s email 300) (hfree free_returned)
  | @counting email code k hk =>
    refine .counted email (hfree ?_)
    rcases hk with ⟨rfl, -⟩ | rfl
    · exact ⟨fun _ hr => hr, fun _ => trivial⟩
    · exact ⟨fun _ hr => hr, fun _ => trivial⟩
  | invalidating email => exact .free (delOTP_shrinks s email) (hfree free_returned)
  | marking email token => exact .verified (hfree ⟨fun _ hr => hr, fun _ => trivial⟩)
  | refreshing email token =>
    exact .free (expireOTP_shrinks s email 300) (hfree ⟨fun _ hr => hr, fun _ => trivial⟩)
  | indexing email token =>
    exact .free (setTokenIndex_shrinks s token email 300) (hfree free_returned)
  | @consuming email token ephemeralPub k husable hk =>
    refine @Effect.used s email token ephemeralPub _ _ husable ?_
    rcases hgoes with rfl | rfl
    · rcases hk with rfl | hk
      · exact .inl free_returned
      · exact .inr hk
    · exact .inl free_returned
  | @claiming email token userID ephemeralPub sessionID hnone =>
    rcases hgoes with rfl | rfl
    · exact .quiet (setUserIndex_shrinks s userID sessionID 300) (fun _ hr => hr) fun htrue => htrue
    · exact .free (setUserIndex_shrinks s userID sessionID 300) free_returned
  | creating email token userID ephemeralPub sessionID =>
    exact .created (hfree ⟨fun _ hr => hr, fun _ => trivial⟩)
  | expiringSession userID sessionID =>
    exact .free (expireSession_shrinks s sessionID 300) (hfree free_returned)
  | unindexing userID | cleaningIndex userID =>
    exact .free (delUserIndex_shrinks s userID) (hfree free_returned)
  | polling hfound happroved => exact .handedOut hfound happroved (hfree free_returned)
  | approving bundle deviceID hfound hpending =>
    exact .approved bundle deviceID hfound hpending (hfree free_returned)
  | completing hfound hcompleted =>
    refine .finished hfound hcompleted ?_
    rcases hgoes with rfl | rfl
    · exact .inr rfl
    · exact .inl free_returned
  | cleaningSession sessionID userID =>
    exact .free (delSession_shrinks s sessionID) (hfree ⟨fun _ hr => hr, fun _ => trivial⟩)

theorem next_effect {others : List Phase} (h : next s others p o = some (s', p')) :
    Effect s p s' p' := by
  cases next_turn h with
  | idle _ _ hfree => exact .free (shrinks_refl s) hfree
  | refused hissues _ => exact .free (shrinks_refl s) hissues.free
  | executed hissues _ hgoes => exact hissues.effect hgoes
  | looked hregistered =>
    exact .quiet (shrinks_refl s) (fun _ hr => hr) fun _ hne => hregistered hne
  | wrong => exact .free (shrinks_refl s) free_returned
  | drew _ hright hfresh => exact .drew hright hfresh
  | named hfresh => exact .named hfresh
  | found hfound =>
    refine .quiet (shrinks_refl s) (fun _ hr => hr) fun hfinished => ⟨hfinished, ?_⟩
    obtain ⟨hmem, hid⟩ := Table.mem_of_lookup hfound
    exact ⟨_, hmem, hid, rfl⟩
  | recovered hfound hgoes =>
    refine .recovered hfound ?_
    rcases hgoes with rfl | rfl
    · exact ⟨fun _ hr => hr, fun _ => trivial⟩
    · exact free_returned
  | registered u => exact .free (insert_shrinks s u) free_returned
  | passed seconds => exact .free (pass_shrinks s seconds) free_returned
  | evicted key => exact .free (evict_shrinks s key) free_returned

end Turns

end Meza.Auth.Recovery
