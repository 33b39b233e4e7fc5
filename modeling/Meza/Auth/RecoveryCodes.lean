import Meza.Auth.RecoveryTrail

/-! # Codes and session tokens

    A code that is sent by email is compared with what callers submit, and the
    session token that the right one is exchanged for is used. An observer
    notes what a caller can see of it: how often a code has been compared, which
    tokens have been returned, and when they expire. -/

namespace Meza.Auth.Recovery
open Function

open Aead (Bytes)
open Store (ID)

/-! ## Section 1: What an observer notes -/

structure Watch where
  /-- The user that the last code was stored for. -/
  user : Email → ID := fun _ => ""
  /-- How often the last code has been compared. -/
  compares : Email → Nat := fun _ => 0
  /-- When a session token expires. -/
  expiry : Bytes → Option Nat := fun _ => none
  /-- The session tokens that have been returned. -/
  returned : List (Email × Bytes) := []

def Watch.stored (w : Watch) (email : Email) (userID : ID) : Watch :=
  { w with
    user := update w.user email userID
    compares := update w.compares email 0 }

def Watch.compared (w : Watch) (email : Email) : Watch :=
  { w with compares := update w.compares email (w.compares email + 1) }

def Watch.refreshed (w : Watch) (token : Bytes) (expiry : Nat) : Watch :=
  { w with expiry := update w.expiry token ((w.expiry token).or (some expiry)) }

/-- A step of a call is observed. -/
def Watch.see (s : State) (p : Phase) (o : Outcome) (w : Watch) : Watch :=
  match p with
  | .sendStoring email _ userID => if o.reply = .refused then w else w.stored email userID
  | .verifyChecking email _ =>
    if o.reply = .ok ∧ (s.otpRecord email).codeHash ≠ none then w.compared email else w
  | .refreshing _ token => if o.reply = .refused then w else w.refreshed token (s.now + 300)
  -- the call returns the token when the last command has not failed
  | .indexing email token =>
    if o.reply = .ok then { w with returned := (email, token) :: w.returned } else w
  | _ => w

abbrev Watched := Pool.State (State × Watch) Phase

def watchedStep : Watched → Event → Watched := Pool.step .begin (Pool.watched .see next)

def watchedInitial (users : Users) : Watched := { shared := ({ users }, {}), calls := [] }

/-- No code has been stored for the email address since the token was drawn. -/
def Newest (log : List Act) (email : Email) (token : Bytes) : Prop :=
  ∃ after before code, log = after ++ .drew email code token :: before ∧ ∀ c, .sent email c ∉ after

/-- The token leads to the record of the email address, and the script consumes it. -/
def State.Accepts (s : State) (email : Email) (token : Bytes) (userID : ID) : Prop :=
  (∃ e, s.tokenIndex (sha256 token) = some e ∧ e.value = email) ∧
    (otpConsumeScript s email token).2 = .ok userID

/-- Codes work once, and only within their attempts. -/
structure WorkOnce (s : State) (w : Watch) : Prop where
  attempts : ∀ email, w.compares email ≤ 5
  newest : ∀ after before email token userID,
    s.log = after ++ .used email token userID :: before → Newest before email token
  accepted : ∀ email token, (email, token) ∈ w.returned → ∃ expiry, w.expiry token = some expiry ∧
    (s.now ≤ expiry → Newest s.log email token → (∀ u, .used email token u ∉ s.log) →
      s.Accepts email token (w.user email))

/-! ## Section 2: The condition -/

/-- A code is about to be compared. -/
def Phase.checks (email : Email) : Phase → Bool
  | .verifyChecking e _ => e = email
  | _ => false

/-- The record is about to be marked with a token. -/
def Phase.marks (email : Email) : Phase → Bool
  | .marking e _ => e = email
  | _ => false

/-- A record that has been verified gets no other code, no other token and is not deleted; no
    call compares or marks what a newer code has replaced, or what has expired. -/
def keepsCodes (s : State) (others : List Phase) (p : Phase) (o : Outcome) : Prop :=
  match p with
  | .sendStoring email _ _ =>
    o.reply ≠ .refused → (s.otpRecord email).verified = false ∧
      ∀ q ∈ others, q.checks email = false ∧ q.marks email = false
  | .verifyChecking email code =>
    o.reply = .ok → (s.otpRecord email).codeHash = some (sha256 code) →
      (s.otpRecord email).verified = false ∧ ∀ q ∈ others, q.marks email = false
  | .marking email _ => o.reply ≠ .refused → (s.otpRecord email).codeHash ≠ none
  | .refreshing email _ => o.reply ≠ .refused → (s.otpRecord email).verified = true
  | .invalidating email => o.reply ≠ .refused → (s.otpRecord email).verified = false
  | .evicting (.otp email) => (s.otpRecord email).verified = false
  | .evicting (.tokenIndex token) => (s.tokenIndex token).isNone
  | _ => True

instance (s : State) (others : List Phase) (p : Phase) (o : Outcome) :
    Decidable (keepsCodes s others p o) := by
  unfold keepsCodes
  split <;> infer_instance

def KeepsCodes : Watched → Event → Prop :=
  Pool.Allows (fun _ _ => True) fun sw => keepsCodes sw.1

instance (t : Watched) (ev : Event) : Decidable (KeepsCodes t ev) :=
  inferInstanceAs (Decidable (Pool.Allows (fun _ _ => True) (fun sw => keepsCodes sw.1) t ev))

/-! ## Section 3: What a step does to codes and tokens -/

/-- The act is about a code or a token of the email address. -/
def Act.concerns (email : Email) : Act → Prop
  | .sent e _ | .drew e _ _ | .verified e _ | .used e _ _ => e = email
  | _ => False

/-- Nothing that concerns codes is written. -/
structure State.SameCodes (s s' : State) : Prop where
  now : s'.now = s.now
  otp : s'.otp = s.otp
  tokenIndex : s'.tokenIndex = s.tokenIndex
  log : s'.log = s.log ∨ ∃ a, s'.log = a :: s.log ∧ ∀ email, ¬ a.concerns email

/-- What a step does, to the state and to what is noted. -/
inductive Move (s : State) (w : Watch) (o : Outcome) : Phase → State → Watch → Phase → Prop where
  | aside {p p' : Phase} {s' : State} (same : s.SameCodes s') (idle : p'.verifying = false) :
      Move s w o p s' w p'
  | stored {email : Email} {code : Bytes} {userID : ID} {p' : Phase} (executed : o.reply ≠ .refused)
      (idle : p'.verifying = false) :
      Move s w o (.sendStoring email code userID) ((s.hsetOTP email fun r =>
          { r with codeHash := some (sha256 code), attempts := 0, userID }).record
            (.sent email code)) (w.stored email userID) p'
  | renewed {email : Email} {p p' : Phase} (idle : p'.verifying = false) :
      Move s w o p (s.expireOTP email 300) w p'
  | counted {email : Email} {code : Bytes} {p' : Phase}
      (goesOn : (p' = .verifyChecking email code ∧ (s.otpRecord email).attempts + 1 ≤ 5) ∨
        p'.verifying = false) :
      Move s w o (.verifyCounting email code)
        (s.hsetOTP email fun r => { r with attempts := r.attempts + 1 }) w p'
  | deleted {email : Email} {p p' : Phase}
      (which : (p = .invalidating email ∧ o.reply ≠ .refused) ∨ p = .evicting (.otp email))
      (idle : p'.verifying = false) : Move s w o p (s.delOTP email) w p'
  | compared {email : Email} {code : Bytes} {p' : Phase}
      (there : (s.otpRecord email).codeHash ≠ none) (idle : p'.verifying = false) :
      Move s w o (.verifyChecking email code) s (w.compared email) p'
  | drew {email : Email} {code : Bytes} (executed : o.reply = .ok)
      (right : (s.otpRecord email).codeHash = some (sha256 code)) :
      Move s w o (.verifyChecking email code) (s.record (.drew email code o.token))
        (w.compared email) (.marking email o.token)
  | marked {email : Email} {token : Bytes} {p' : Phase} (executed : o.reply ≠ .refused)
      (goesOn : p' = .refreshing email token ∨ p'.verifying = false) :
      Move s w o (.marking email token) ((s.hsetOTP email fun r =>
          { r with sessionTokenHash := some (sha256 token), verified := true }).record
            (.verified email token)) w p'
  | refreshed {email : Email} {token : Bytes} {p' : Phase} (executed : o.reply ≠ .refused)
      (goesOn : p' = .indexing email token ∨ p'.verifying = false) :
      Move s w o (.refreshing email token) (s.expireOTP email 300)
        (w.refreshed token (s.now + 300)) p'
  | indexed {email : Email} {token : Bytes} {w' : Watch} {p' : Phase}
      (noted : w' = w ∨ w' = { w with returned := (email, token) :: w.returned })
      (idle : p'.verifying = false) :
      Move s w o (.indexing email token) (s.setTokenIndex token email 300) w' p'
  | used {email : Email} {token : Bytes} {p p' : Phase} (usable : (s.otpRecord email).usable token)
      (idle : p'.verifying = false) :
      Move s w o p ((s.hsetOTP email fun r => { r with consumed := true }).record
        (.used email token (s.otpRecord email).userID)) w p'
  | passed {seconds : Nat} {p p' : Phase} (idle : p'.verifying = false) :
      Move s w o p (s.pass seconds) w p'
  | lost {token : Digest} {p' : Phase} (idle : p'.verifying = false) :
      Move s w o (.evicting (.tokenIndex token))
        { s with tokenIndex := update s.tokenIndex token none } w p'

theorem SameCodes.refl (s : State) : s.SameCodes s := ⟨rfl, rfl, rfl, .inl rfl⟩

section Moves

variable {s s' t : State} {w : Watch} {p p' k failed : Phase} {o : Outcome}

theorem Move.nothing (idle : p'.verifying = false) : Move s w o p s w p' :=
  .aside (SameCodes.refl s) idle

theorem Issues.idle (h : Issues s p t k failed) : failed.verifying = false := by
  cases h <;> rfl

theorem Issues.see_refused (h : Issues s p t k failed) (hreply : o.reply = .refused) :
    w.see s p o = w := by
  cases h with
  | sendStoring | refreshing => exact if_pos hreply
  | indexing email token => exact if_neg (by simp [hreply])
  | _ => rfl

theorem see_of_unseen (h : p.noted = false) : w.see s p o = w := by
  cases p with
  | sendStoring _ _ _ | verifyChecking _ _ | refreshing _ _ | indexing _ _ => cases h
  | _ => rfl

theorem Issues.move (h : Issues s p t k failed) (hreply : o.reply ≠ .refused)
    (hgoes : p' = k ∨ p' = failed) : Move s w o p t (w.see s p o) p' := by
  have hidle : k.verifying = false → p'.verifying = false := by
    intro hk
    rcases hgoes with rfl | rfl
    · exact hk
    · exact h.idle
  have hon : p' = k ∨ p'.verifying = false :=
    hgoes.imp_right fun (heq : p' = failed) => heq ▸ h.idle
  cases h with
  | sendStoring email code userID =>
    rw [Watch.see, if_neg hreply]
    exact .stored hreply (hidle rfl)
  | sendExpiring email => exact .renewed (hidle rfl)
  | counting hk =>
    refine .counted ?_
    rcases hon with rfl | hon
    · rcases hk with hk | rfl
      · exact Or.inl hk
      · exact Or.inr rfl
    · exact Or.inr hon
  | invalidating email => exact .deleted (Or.inl ⟨rfl, hreply⟩) (hidle rfl)
  | marking email token => exact .marked hreply hon
  | refreshing email token =>
    rw [Watch.see, if_neg hreply]
    exact .refreshed hreply hon
  | indexing email token =>
    refine .indexed ?_ (hidle rfl)
    rw [Watch.see]
    split
    · exact Or.inr rfl
    · exact Or.inl rfl
  | consuming husable hk =>
    refine .used husable (hidle ?_)
    rcases hk with rfl | ⟨-, rfl⟩
    · rfl
    · rfl
  | creating email token userID ephemeralPub sessionID =>
    refine .aside ?_ (hidle rfl)
    unfold State.hsetSession
    split
    · exact ⟨rfl, rfl, rfl, Or.inr ⟨_, rfl, fun _ hact => hact⟩⟩
    · exact ⟨rfl, rfl, rfl, Or.inr ⟨_, rfl, fun _ hact => hact⟩⟩
  | polling _ _ | approving _ _ _ _ | completing _ _ =>
    exact .aside ⟨rfl, rfl, rfl, Or.inr ⟨_, rfl, fun _ hact => hact⟩⟩ (hidle rfl)
  | claiming _ | expiringSession _ _ | unindexing _ | cleaningSession _ _ | cleaningIndex _ =>
    exact .aside ⟨rfl, rfl, rfl, Or.inl rfl⟩ (hidle rfl)

theorem next_move {others : List Phase} (h : next s others p o = some (s', p')) :
    Move s w o p s' (w.see s p o) p' := by
  cases next_turn h with
  | idle hunseen hidle _ =>
    rw [see_of_unseen hunseen]
    exact .nothing hidle
  | refused hissues hreply =>
    rw [hissues.see_refused hreply]
    exact .nothing hissues.idle
  | executed hissues hreply hgoes => exact hissues.move hreply hgoes
  | wrong =>
    rw [Watch.see]
    split
    · next hseen => exact .compared hseen.2 rfl
    · exact .nothing rfl
  | drew hreply hright _ =>
    rw [Watch.see, if_pos ⟨hreply, by simp [hright]⟩]
    exact .drew hreply hright
  | looked _ | found _ => exact .nothing rfl
  | named _ => exact .aside ⟨rfl, rfl, rfl, Or.inr ⟨_, rfl, fun _ hact => hact⟩⟩ rfl
  | recovered _ hgoes =>
    refine .aside ⟨rfl, rfl, rfl, Or.inr ⟨_, rfl, fun _ hact => hact⟩⟩ ?_
    rcases hgoes with rfl | rfl
    · rfl
    · rfl
  | registered u => exact .aside ⟨rfl, rfl, rfl, Or.inl rfl⟩ rfl
  | passed seconds => exact .passed rfl
  | evicted key =>
    cases key with
    | otp email => exact .deleted (Or.inr rfl) rfl
    | tokenIndex token => exact .lost rfl
    | session | userIndex => exact .aside ⟨rfl, rfl, rfl, Or.inl rfl⟩ rfl

end Moves

end Meza.Auth.Recovery
