import Meza.Auth.RecoveryCodes
import Meza.Auth.RecoveryIndex

/-! # Codes work once

    As long as a verified record is left alone, a code is compared five times at
    most, and the token that it is exchanged for is accepted until it expires, is
    used, or a newer code is stored; and not afterwards. -/

namespace Meza.Auth.Recovery
open List State Function Phase Run Option OTPRecord

open Aead (Bytes)
open Store (ID)

/-! ## Section 1: The log -/

section Log

variable {log : List Act} {email : Email}

/-- A token is the newest if it has just been drawn, or was before and no code is stored. -/
theorem newest_cons : Newest (a :: log) email token ↔
    (∃ c, a = .drew email c token) ∨ ((∀ c, a ≠ .sent email c) ∧ Newest log email token) := by
  constructor
  · rintro ⟨after, before, code, hlog, hnone⟩
    cases after with
    | nil =>
      obtain ⟨rfl, rfl⟩ := cons.inj hlog
      exact .inl ⟨code, rfl⟩
    | cons b after =>
      obtain ⟨rfl, rfl⟩ := cons.inj hlog
      refine .inr ⟨fun c heq => hnone c (heq ▸ mem_cons_self), after, before, code, rfl, ?_⟩
      exact fun c hc => hnone c (mem_cons_of_mem _ hc)
  · rintro (⟨c, rfl⟩ | ⟨hne, after, before, code, rfl, hnone⟩)
    · refine ⟨[], log, c, rfl, fun c hc => ?_⟩
      cases hc
    · refine ⟨a :: after, before, code, rfl, fun c hc => ?_⟩
      rcases mem_cons.mp hc with heq | hc
      · exact hne c heq.symm
      · exact hnone c hc

theorem newest_of_other (h : ¬ a.concerns email) :
    Newest (a :: log) email token ↔ Newest log email token := by
  rw [newest_cons]
  constructor
  · rintro (⟨c, rfl⟩ | ⟨-, hold⟩)
    · exact absurd rfl h
    · exact hold
  · intro hold
    refine .inr ⟨?_, hold⟩
    rintro c rfl
    exact h rfl

/-- Only a new code takes the place of a token. -/
theorem Newest.cons (h : Newest log email token) (hne : ∀ c, a ≠ .sent email c) :
    Newest (a :: log) email token :=
  newest_cons.mpr (.inr ⟨hne, h⟩)

theorem not_newest_sent {code : Bytes} : ¬ Newest (.sent email code :: log) email token := by
  rw [newest_cons]
  rintro (⟨c, hc⟩ | ⟨hne, -⟩)
  · cases hc
  · exact hne code rfl

theorem verified_of_other (h : ¬ a.concerns email) :
    .verified email token ∈ a :: log ↔ .verified email token ∈ log := by
  rw [mem_cons, or_iff_right]
  rintro rfl
  exact h rfl

/-- A token that is drawn now has not been verified. -/
theorem Sound.not_verified_drew {code : Bytes} {e : Email}
    (h : Sound (.drew email code token :: log)) : .verified e token ∉ log := by
  intro hverified
  obtain ⟨after, before, rfl, ⟨⟨c, hdrew⟩, -⟩, -⟩ := h.2.split hverified
  exact h.1.2 e c (mem_append_right _ (mem_cons_of_mem _ hdrew))

end Log

theorem sha256_inj {b b' : Bytes} (h : sha256 b = sha256 b') : b = b' := congrArg Digest.preimage h

/-! ## Section 2: Records -/

section Records

variable {s : State} {email e : Email}

@[simp] theorem otpRecord_record (a : Act) : (s.record a).otpRecord email = s.otpRecord email := rfl

@[simp] theorem otpRecord_hsetOTP :
    (s.hsetOTP email f).otpRecord email = f (s.otpRecord email) := by
  simp [otpRecord, hsetOTP]

theorem otpRecord_hsetOTP_of_ne (h : e ≠ email) :
    (s.hsetOTP email f).otpRecord e = s.otpRecord e := by
  simp [otpRecord, hsetOTP, update_of_ne h]

@[simp] theorem otpRecord_expireOTP (ttl : Nat) :
    (s.expireOTP email ttl).otpRecord e = s.otpRecord e := by
  by_cases h : e = email
  · subst h
    simp only [State.otpRecord, State.expireOTP, update_self, Option.map_map]
    rfl
  · simp [State.otpRecord, State.expireOTP, update_of_ne h]

/-- A deleted record is as good as new. -/
theorem otpRecord_delOTP : (s.delOTP email).otpRecord e = s.otpRecord e ∨
    (e = email ∧ (s.delOTP email).otpRecord e = {}) := by
  by_cases h : e = email
  · subst h
    exact .inr ⟨rfl, by simp [otpRecord, delOTP]⟩
  · exact .inl (by simp [otpRecord, delOTP, update_of_ne h])

/-- So is one that has expired. -/
theorem otpRecord_pass (seconds : Nat) :
    (s.pass seconds).otpRecord e = s.otpRecord e ∨ (s.pass seconds).otpRecord e = {} := by
  unfold otpRecord State.pass
  cases hfound : s.otp e with
  | none => exact .inl (by simp [hfound])
  | some entry =>
    cases halive : entry.alive (s.now + seconds) with
    | true => exact .inl (by simp [hfound, Option.filter, halive])
    | false => exact .inr (by simp [hfound, Option.filter, halive])

theorem otp_of_code (h : (s.otpRecord email).codeHash ≠ none) :
    ∃ entry, s.otp email = some entry ∧ entry.value.codeHash ≠ none := by
  unfold otpRecord at h
  cases hfound : s.otp email with
  | none => simp [hfound] at h
  | some entry =>
    refine ⟨entry, rfl, ?_⟩
    simpa [hfound] using h

theorem otpRecord_of_otp {entry : Entry OTPRecord} (h : s.otp email = some entry) :
    s.otpRecord email = entry.value := by
  simp [otpRecord, h]

end Records

/-- What a record says of the last code and its token. -/
structure OTPRecord.Current (log : List Act) (user : ID) (email : Email) (r : OTPRecord) :
    Prop where
  consumed : r.consumed = true → r.verified = true
  user : r.codeHash ≠ none → r.userID = user
  verified : r.verified = true → r.codeHash ≠ none ∧
    ∃ t, r.sessionTokenHash = some (sha256 t) ∧ Newest log email t
  newest : r.codeHash ≠ none → ∀ t, .verified email t ∈ log → Newest log email t →
    r.verified = true ∧ r.sessionTokenHash = some (sha256 t)
  used : r.consumed = true → ∀ t, r.sessionTokenHash = some (sha256 t) → ∃ u, .used email t u ∈ log

variable {token : Bytes} {a : Act}

section Current

variable {log : List Act} {user : ID} {email : Email} {r : OTPRecord}

theorem current_empty : Current log user email {} where
  consumed h := h
  user h := absurd rfl h
  verified h := by cases h
  newest h := absurd rfl h
  used h := by cases h

section

variable (h : r.Current log user email)
include h

theorem OTPRecord.Current.other (ha : ¬ a.concerns email) :
    r.Current (a :: log) user email where
  consumed := h.consumed
  user := h.user
  verified hverified := by
    obtain ⟨hcode, t, ht, hnewest⟩ := h.verified hverified
    exact ⟨hcode, t, ht, (newest_of_other ha).mpr hnewest⟩
  newest hcode t hverified hnewest :=
    h.newest hcode t ((verified_of_other ha).mp hverified) ((newest_of_other ha).mp hnewest)
  used hconsumed t ht := by
    obtain ⟨u, hused⟩ := h.used hconsumed t ht
    exact ⟨u, mem_cons_of_mem _ hused⟩

theorem OTPRecord.Current.stored (hverified : r.verified = false)
    (code : Bytes) (userID : ID) :
    Current (.sent email code :: log) userID email
      { r with codeHash := some (sha256 code), attempts := 0, userID } where
  consumed := h.consumed
  user _ := rfl
  verified hverified' := by
    rw [hverified] at hverified'
    cases hverified'
  newest _ t _ hnewest := absurd hnewest not_newest_sent
  used hconsumed := by
    have hverified' := h.consumed hconsumed
    rw [hverified] at hverified'
    cases hverified'

theorem OTPRecord.Current.counted (attempts : Nat) :
    Current log user email { r with attempts } :=
  ⟨h.consumed, h.user, h.verified, h.newest, h.used⟩

theorem OTPRecord.Current.drew {code token : Bytes}
    (hsound : Sound (.drew email code token :: log)) :
    r.Current (.drew email code token :: log) user email where
  consumed := h.consumed
  user := h.user
  verified hverified := by
    obtain ⟨hcode, t, ht, hnewest⟩ := h.verified hverified
    exact ⟨hcode, t, ht, hnewest.cons (by simp)⟩
  newest hcode t hverified hnewest := by
    have hbefore : .verified email t ∈ log := by simpa using hverified
    rcases newest_cons.mp hnewest with ⟨c, hdrew⟩ | ⟨-, hold⟩
    · cases hdrew
      exact absurd hbefore hsound.not_verified_drew
    · exact h.newest hcode t hbefore hold
  used hconsumed t ht := by
    obtain ⟨u, hused⟩ := h.used hconsumed t ht
    exact ⟨u, mem_cons_of_mem _ hused⟩

theorem OTPRecord.Current.marked {token : Bytes}
    (hverified : r.verified = false) (hcode : r.codeHash ≠ none)
    (hnewest : Newest log email token) :
    Current (.verified email token :: log) user email
      { r with sessionTokenHash := some (sha256 token), verified := true } where
  consumed _ := rfl
  user := h.user
  verified _ := ⟨hcode, token, rfl, hnewest.cons (by simp)⟩
  newest _ t ht hnewest' := by
    refine ⟨rfl, ?_⟩
    rcases mem_cons.mp ht with heq | ht
    · cases heq
      rfl
    · -- another token of the same code would have been marked before
      rcases newest_cons.mp hnewest' with ⟨c, hc⟩ | ⟨-, hold⟩
      · cases hc
      · have hverified' := (h.newest hcode t ht hold).1
        rw [hverified] at hverified'
        cases hverified'
  used hconsumed := by
    have hverified' := h.consumed hconsumed
    rw [hverified] at hverified'
    cases hverified'

theorem OTPRecord.Current.consume {userID : ID}
    (husable : r.usable token) :
    Current (.used email token userID :: log) user email { r with consumed := true } where
  consumed _ := husable.1
  user := h.user
  verified hverified := by
    obtain ⟨hcode, t, ht, hnewest⟩ := h.verified hverified
    exact ⟨hcode, t, ht, hnewest.cons (by simp)⟩
  newest hcode t hverified hnewest := by
    have hbefore : .verified email t ∈ log := by simpa using hverified
    rcases newest_cons.mp hnewest with ⟨c, hc⟩ | ⟨-, hold⟩
    · cases hc
    · exact h.newest hcode t hbefore hold
  used _ t ht := by
    have htoken : t = token := by
      rw [husable.2.2] at ht
      exact (sha256_inj (some.inj ht)).symm
    rw [htoken]
    exact ⟨userID, mem_cons_self⟩

end

end Current

/-! ## Section 3: Codes and tokens -/

/-- The record of a token outlasts it. -/
def State.Lasts (s : State) (email : Email) (expiry : Nat) : Prop :=
  ∃ e, s.otp email = some e ∧ e.value.codeHash ≠ none ∧ ∀ t ∈ e.expiresAt, expiry ≤ t

/-- So does its index. -/
def State.Leads (s : State) (token : Bytes) (email : Email) (expiry : Nat) : Prop :=
  ∃ e, s.tokenIndex (sha256 token) = some e ∧ e.value = email ∧ ∀ t ∈ e.expiresAt, expiry ≤ t

structure Codes (s : State) (w : Watch) : Prop where
  current : ∀ email, (s.otpRecord email).Current s.log (w.user email) email
  expiry : ∀ token expiry, w.expiry token = some expiry →
    (∃ email, .verified email token ∈ s.log) ∧ expiry ≤ s.now + 300
  lasts : ∀ email token expiry, .verified email token ∈ s.log → w.expiry token = some expiry →
    Newest s.log email token → s.now ≤ expiry → s.Lasts email expiry
  leads : ∀ email token, (email, token) ∈ w.returned → .verified email token ∈ s.log ∧
    ∃ expiry, w.expiry token = some expiry ∧ (s.now ≤ expiry → s.Leads token email expiry)
  newest : ∀ after before email token userID,
    s.log = after ++ .used email token userID :: before → Newest before email token

/-- What a call that verifies a code relies on. -/
def Phase.Relies (s : State) (w : Watch) : Phase → Prop
  | .marking email token => Newest s.log email token ∧ (s.otpRecord email).verified = false
  | .refreshing email token => .verified email token ∈ s.log
  | .indexing email token => .verified email token ∈ s.log ∧ w.expiry token ≠ none
  | _ => True

variable {p : Phase} {s : State} {w : Watch} {email : Email} {expiry : Nat}

theorem relies_idle (h : p.verifying = false) : p.Relies s w := by
  cases p with
  | verifyChecking _ _ | marking _ _ | refreshing _ _ | indexing _ _ => cases h
  | _ => trivial

theorem lasts_record : (s.record a).Lasts email expiry ↔ s.Lasts email expiry := .rfl

variable {f : OTPRecord → OTPRecord}

theorem lasts_hsetOTP {e : Email} (hf : ∀ r, r.codeHash ≠ none → (f r).codeHash ≠ none)
    (h : s.Lasts e expiry) :
    (s.hsetOTP email f).Lasts e expiry := by
  obtain ⟨entry, hfound, hcode, hexpiry⟩ := h
  by_cases he : e = email
  · subst he
    refine ⟨_, update_self _ _ _, ?_, ?_⟩
    · rw [otpRecord_of_otp hfound]
      exact hf _ hcode
    · rw [hfound]
      exact hexpiry
  · exact ⟨entry, (update_of_ne he _ _).trans hfound, hcode, hexpiry⟩

theorem lasts_expireOTP (hcode : (s.otpRecord email).codeHash ≠ none) (h : expiry ≤ s.now + 300) :
    (s.expireOTP email 300).Lasts email expiry := by
  obtain ⟨entry, hfound, hcode'⟩ := otp_of_code hcode
  refine ⟨{ entry with expiresAt := some (s.now + 300) }, ?_, hcode', ?_⟩
  · simp [expireOTP, hfound]
  · rintro t ht
    cases ht
    exact h

theorem alive_of_le {α : Type} {e : Entry α} {now : Nat} (hexpiry : ∀ t ∈ e.expiresAt, expiry ≤ t)
    (hnow : now ≤ expiry) : e.alive now = true := by
  rw [Entry.alive, Option.all_eq_true]
  intro t ht
  exact decide_eq_true (hnow.trans (hexpiry t ht))

theorem lasts_pass {seconds : Nat} (h : s.Lasts email expiry) (hnow : s.now + seconds ≤ expiry) :
    (s.pass seconds).Lasts email expiry := by
  obtain ⟨entry, hfound, hcode, hexpiry⟩ := h
  refine ⟨entry, ?_, hcode, hexpiry⟩
  have halive : entry.alive (s.now + seconds) = true := alive_of_le hexpiry hnow
  simp [State.pass, hfound, halive]

theorem leads_pass {seconds : Nat} (h : s.Leads token email expiry)
    (hnow : s.now + seconds ≤ expiry) :
    (s.pass seconds).Leads token email expiry := by
  obtain ⟨entry, hfound, hvalue, hexpiry⟩ := h
  refine ⟨entry, ?_, hvalue, hexpiry⟩
  have halive : entry.alive (s.now + seconds) = true := alive_of_le hexpiry hnow
  simp [State.pass, hfound, halive]

section Step

variable {s' : State} {w' : Watch} {o : Outcome} {p' : Phase}

section

variable (h : Move s w o p s' w' p')
include h

theorem Move.log : s'.log = s.log ∨ ∃ a, s'.log = a :: s.log := by
  cases h with
  | aside same _ =>
    rcases same.log with hlog | ⟨a, hlog, -⟩
    · exact .inl hlog
    · exact .inr ⟨a, hlog⟩
  | stored _ _ | drew _ _ | marked _ _ | used _ _ => exact .inr ⟨_, rfl⟩
  | _ => exact .inl rfl

theorem Move.mem_log (ha : a ∈ s.log) : a ∈ s'.log := by
  rcases h.log with hlog | ⟨b, hlog⟩
  · rw [hlog]
    exact ha
  · rw [hlog]
    exact mem_cons_of_mem _ ha

theorem Move.current (hcodes : Codes s w) (hp : p.Relies s w)
    (hok : keepsCodes s others p o) (hsound : Sound s'.log) (email : Email) :
    (s'.otpRecord email).Current s'.log (w'.user email) email := by
  have hcurrent := hcodes.current email
  cases h with
  | aside same _ =>
    have hrecord : s'.otpRecord email = s.otpRecord email := by
      unfold State.otpRecord
      rw [same.otp]
    rw [hrecord]
    rcases same.log with hlog | ⟨a, hlog, ha⟩
    · rw [hlog]
      exact hcurrent
    · rw [hlog]
      exact hcurrent.other (ha email)
  | @stored email' code userID _ executed _ =>
    by_cases hemail : email = email'
    · subst hemail
      simp only [otpRecord_record, otpRecord_hsetOTP, Watch.stored, update_self]
      exact hcurrent.stored (hok executed).1 code userID
    · simp only [otpRecord_record, otpRecord_hsetOTP_of_ne hemail, Watch.stored,
        update_of_ne hemail]
      exact hcurrent.other fun heq => hemail heq.symm
  | renewed | refreshed =>
    rw [otpRecord_expireOTP]
    exact hcurrent
  | @counted email' _ _ _ =>
    by_cases hemail : email = email'
    · subst hemail
      rw [otpRecord_hsetOTP]
      exact hcurrent.counted _
    · rw [otpRecord_hsetOTP_of_ne hemail]
      exact hcurrent
  | @deleted email' _ _ _ _ =>
    rcases @otpRecord_delOTP s email' email with hsame | ⟨-, hempty⟩
    · rw [hsame]
      exact hcurrent
    · -- a record that is gone promises nothing
      rw [hempty]
      exact current_empty
  | compared | lost => exact hcurrent
  | @drew email' code executed right =>
    by_cases hemail : email = email'
    · subst hemail
      exact hcurrent.drew hsound
    · exact hcurrent.other fun heq => hemail heq.symm
  | @marked email' token _ executed _ =>
    by_cases hemail : email = email'
    · subst hemail
      simp only [otpRecord_record, otpRecord_hsetOTP]
      exact hcurrent.marked hp.2 (hok executed) hp.1
    · simp only [otpRecord_record, otpRecord_hsetOTP_of_ne hemail]
      exact hcurrent.other fun heq => hemail heq.symm
  | indexed noted _ =>
    rcases noted with rfl | rfl
    · exact hcurrent
    · exact hcurrent
  | @used email' token _ _ usable _ =>
    by_cases hemail : email = email'
    · subst hemail
      simp only [otpRecord_record, otpRecord_hsetOTP]
      exact hcurrent.consume usable
    · simp only [otpRecord_record, otpRecord_hsetOTP_of_ne hemail]
      exact hcurrent.other fun heq => hemail heq.symm
  | @passed seconds _ _ _ =>
    rcases @otpRecord_pass s email seconds with hsame | hempty
    · rw [hsame]
      exact hcurrent
    · rw [hempty]
      exact current_empty

theorem Move.now : s.now ≤ s'.now := by
  cases h with
  | aside same _ => exact le_of_eq same.now.symm
  | passed _ => exact Nat.le_add_right _ _
  | _ => exact le_rfl

theorem Move.expiry_mono (hexpiry : w.expiry token = some expiry) :
    w'.expiry token = some expiry := by
  cases h with
  | @refreshed _ token' _ _ _ =>
    by_cases htoken : token = token'
    · subst htoken
      simp [Watch.refreshed, hexpiry]
    · simpa [Watch.refreshed, update_of_ne htoken] using hexpiry
  | indexed noted _ =>
    rcases noted with rfl | rfl
    · exact hexpiry
    · exact hexpiry
  | _ => exact hexpiry

theorem Move.expiry_cases (hexpiry : w'.expiry token = some expiry) :
    w.expiry token = some expiry ∨
      ∃ email, p = .refreshing email token ∧ o.reply ≠ .refused ∧ expiry = s.now + 300 := by
  cases h with
  | @refreshed email token' _ executed _ =>
    by_cases htoken : token = token'
    · subst htoken
      simp only [Watch.refreshed, update_self, Option.or_eq_some_iff,
        some.injEq] at hexpiry
      rcases hexpiry with hold | ⟨-, rfl⟩
      · exact .inl hold
      · exact .inr ⟨email, rfl, executed, rfl⟩
    · exact .inl (by simpa [Watch.refreshed, update_of_ne htoken] using hexpiry)
  | indexed noted _ =>
    rcases noted with rfl | rfl
    · exact .inl hexpiry
    · exact .inl hexpiry
  | _ => exact .inl hexpiry

theorem Move.expiry_le (hcodes : Codes s w) (hp : p.Relies s w)
    (hexpiry : w'.expiry token = some expiry) :
    (∃ email, .verified email token ∈ s'.log) ∧ expiry ≤ s'.now + 300 := by
  have hnow := h.now
  rcases h.expiry_cases hexpiry with hold | ⟨email, rfl, -, rfl⟩
  · obtain ⟨⟨email, hverified⟩, hle⟩ := hcodes.expiry token expiry hold
    exact ⟨⟨email, h.mem_log hverified⟩, by omega⟩
  · exact ⟨⟨email, h.mem_log hp⟩, by omega⟩

theorem Move.verified_cases (hverified : .verified email token ∈ s'.log) :
    .verified email token ∈ s.log ∨ p = .marking email token := by
  have hcons : ∀ {a : Act}, .verified email token ∈ a :: s.log → a ≠ .verified email token →
      .verified email token ∈ s.log := by
    intro a hmem hne
    exact (mem_cons.mp hmem).resolve_left fun heq => hne heq.symm
  cases h with
  | aside same _ =>
    rcases same.log with hlog | ⟨a, hlog, ha⟩
    · exact .inl (hlog ▸ hverified)
    · refine .inl (hcons (hlog ▸ hverified) ?_)
      rintro rfl
      exact ha email rfl
  | stored _ _ | drew _ _ | used _ _ => exact .inl (hcons hverified (by simp))
  | @marked email' token' _ _ _ =>
    rcases mem_cons.mp hverified with heq | hold
    · cases heq
      exact .inr rfl
    · exact .inl hold
  | _ => exact .inl hverified

theorem Move.newest_cases (hnewest : Newest s'.log email token) :
    Newest s.log email token ∨ ∃ code, s'.log = .drew email code token :: s.log := by
  rcases h.log with hlog | ⟨a, hlog⟩
  · rw [hlog] at hnewest
    exact .inl hnewest
  · rw [hlog] at hnewest ⊢
    rcases newest_cons.mp hnewest with ⟨c, rfl⟩ | ⟨-, hold⟩
    · exact .inr ⟨c, rfl⟩
    · exact .inl hold

theorem Move.lasts (hcodes : Codes s w) (hp : p.Relies s w) (hok : keepsCodes s others p o)
    (hsound : Sound s'.log) (hverified : .verified email token ∈ s'.log)
    (hexpiry : w'.expiry token = some expiry) (hnewest : Newest s'.log email token)
    (hnow : s'.now ≤ expiry) : s'.Lasts email expiry := by
  -- the token was verified before this step
  have hverified' : .verified email token ∈ s.log := by
    rcases h.verified_cases hverified with hold | rfl
    · exact hold
    · rcases h.expiry_cases hexpiry with hknown | ⟨e, heq, -⟩
      · obtain ⟨⟨e, he⟩, -⟩ := hcodes.expiry token expiry hknown
        have hemail := hsound.verified_unique hverified (h.mem_log he)
        rwa [← hemail] at he
      · cases heq
  have hnewest' : Newest s.log email token := by
    rcases h.newest_cases hnewest with hold | ⟨code, hlog⟩
    · exact hold
    · rw [hlog] at hsound
      exact absurd hverified' hsound.not_verified_drew
  by_cases hknown : w.expiry token = some expiry
  · have hlasts := hcodes.lasts email token expiry hverified' hknown hnewest' (h.now.trans hnow)
    have hcode : (s.otpRecord email).codeHash ≠ none := by
      obtain ⟨entry, hfound, hcode, -⟩ := hlasts
      rwa [otpRecord_of_otp hfound]
    have hisVerified := ((hcodes.current email).newest hcode token hverified' hnewest').1
    have hle := (hcodes.expiry token expiry hknown).2
    cases h with
    | aside same _ =>
      unfold Lasts
      rw [same.otp]
      exact hlasts
    | stored _ _ => exact lasts_record.mpr (lasts_hsetOTP (fun _ _ => by simp) hlasts)
    | @renewed email' _ _ _ | @refreshed email' _ _ _ _ =>
      by_cases hemail : email = email'
      · subst hemail
        exact lasts_expireOTP hcode hle
      · obtain ⟨entry, hfound, hentry⟩ := hlasts
        exact ⟨entry, (update_of_ne hemail _ _).trans hfound, hentry⟩
    | counted _ => exact lasts_hsetOTP (fun _ hr => hr) hlasts
    | marked _ _ | used _ _ => exact lasts_record.mpr (lasts_hsetOTP (fun _ hr => hr) hlasts)
    | @deleted email' _ _ which _ =>
      have hne : email ≠ email' := by
        rintro rfl
        -- a verified record is not deleted
        have hnot : (s.otpRecord email).verified = false := by
          rcases which with ⟨rfl, executed⟩ | rfl
          · exact hok executed
          · exact hok
        rw [hisVerified] at hnot
        cases hnot
      obtain ⟨entry, hfound, hentry⟩ := hlasts
      exact ⟨entry, (update_of_ne hne _ _).trans hfound, hentry⟩
    | passed _ => exact lasts_pass hlasts hnow
    | compared _ _ | drew _ _ | indexed _ _ | lost _ => exact hlasts
  · -- the record is extended now
    obtain ⟨e, rfl, executed, rfl⟩ := (h.expiry_cases hexpiry).resolve_left hknown
    have hemail : e = email := hsound.verified_unique (h.mem_log hp) hverified
    subst hemail
    cases h with
    | refreshed _ _ =>
      exact lasts_expireOTP ((hcodes.current e).verified (hok executed)).1 le_rfl
    | _ => exact absurd hexpiry hknown

theorem Move.returned_cases (hreturned : (email, token) ∈ w'.returned) :
    (email, token) ∈ w.returned ∨
      (p = .indexing email token ∧ s' = s.setTokenIndex token email 300) := by
  cases h with
  | @indexed email' token' _ _ noted _ =>
    rcases noted with rfl | rfl
    · exact .inl hreturned
    · rcases mem_cons.mp hreturned with heq | hold
      · cases heq
        exact .inr ⟨rfl, rfl⟩
      · exact .inl hold
  | _ => exact .inl hreturned

omit h in
theorem leads_setTokenIndex (h : expiry ≤ s.now + 300) :
    (s.setTokenIndex token email 300).Leads token email expiry := by
  refine ⟨_, update_self _ _ _, rfl, ?_⟩
  rintro t ht
  cases ht
  exact h

theorem Move.leads (hcodes : Codes s w) (hp : p.Relies s w)
    (hok : keepsCodes s others p o) (hsound : Sound s'.log)
    (hreturned : (email, token) ∈ w'.returned) :
    .verified email token ∈ s'.log ∧ ∃ expiry, w'.expiry token = some expiry ∧
      (s'.now ≤ expiry → s'.Leads token email expiry) := by
  rcases h.returned_cases hreturned with hold | ⟨rfl, rfl⟩
  · obtain ⟨hverified, expiry, hexpiry, hleads⟩ := hcodes.leads email token hold
    refine ⟨h.mem_log hverified, expiry, h.expiry_mono hexpiry, fun hnow => ?_⟩
    have hleads := hleads (h.now.trans hnow)
    cases h with
    | aside same _ =>
      unfold Leads
      rw [same.tokenIndex]
      exact hleads
    | passed _ => exact leads_pass hleads hnow
    | @indexed email' token' _ _ noted _ =>
      by_cases htoken : token = token'
      · subst htoken
        have hemail : email = email' := hsound.verified_unique hverified hp.1
        subst hemail
        exact leads_setTokenIndex (hcodes.expiry token expiry hexpiry).2
      · obtain ⟨entry, hfound, hentry⟩ := hleads
        have hne : sha256 token ≠ sha256 token' := fun heq => htoken (sha256_inj heq)
        exact ⟨entry, (update_of_ne hne _ _).trans hfound, hentry⟩
    | @lost token' _ _ =>
      obtain ⟨entry, hfound, hentry⟩ := hleads
      have hne : sha256 token ≠ token' := by
        rintro rfl
        -- only an index that is not there is lost
        have hnone : (s.tokenIndex (sha256 token)).isNone = true := hok
        rw [hfound] at hnone
        cases hnone
      exact ⟨entry, (update_of_ne hne _ _).trans hfound, hentry⟩
    | _ => exact hleads
  · obtain ⟨hverified, hknown⟩ := hp
    obtain ⟨expiry, hexpiry⟩ := ne_none_iff_exists'.mp hknown
    refine ⟨hverified, expiry, h.expiry_mono hexpiry, fun _ => ?_⟩
    exact leads_setTokenIndex (hcodes.expiry token expiry hexpiry).2

/-- A token is used while it is the newest. -/
theorem Move.newest (hcodes : Codes s w) {after before : List Act}
    {userID : ID} (hlog : s'.log = after ++ .used email token userID :: before) :
    Newest before email token := by
  have hold : ∀ {a : Act}, a :: s.log = after ++ .used email token userID :: before →
      a ≠ .used email token userID → Newest before email token := by
    intro a heq hne
    cases after with
    | nil => exact absurd (cons.inj heq).1 hne
    | cons b after => exact hcodes.newest after before email token userID (cons.inj heq).2
  cases h with
  | aside same _ =>
    rcases same.log with hsame | ⟨a, hcons, ha⟩
    · exact hcodes.newest after before email token userID (hsame.symm.trans hlog)
    · refine hold (hcons.symm.trans hlog) ?_
      rintro rfl
      exact ha email rfl
  | stored _ _ | drew _ _ | marked _ _ => exact hold hlog (by simp)
  | @used email' token' _ _ usable _ =>
    cases after with
    | nil =>
      obtain ⟨heq, rfl⟩ := cons.inj hlog
      cases heq
      obtain ⟨-, t, ht, hnewest⟩ := (hcodes.current email).verified usable.1
      have htoken : token = t := by
        rw [usable.2.2] at ht
        exact sha256_inj (some.inj ht)
      rw [htoken]
      exact hnewest
    | cons b after => exact hcodes.newest after before email token userID (cons.inj hlog).2
  | _ => exact hcodes.newest after before email token userID hlog

theorem Move.codes (hcodes : Codes s w) (hp : p.Relies s w)
    (hok : keepsCodes s others p o) (hsound : Sound s'.log) : Codes s' w' where
  current := h.current hcodes hp hok hsound
  expiry _ _ hexpiry := h.expiry_le hcodes hp hexpiry
  lasts _ _ _ hverified hexpiry hnewest hnow :=
    h.lasts hcodes hp hok hsound hverified hexpiry hnewest hnow
  leads _ _ hreturned := h.leads hcodes hp hok hsound hreturned
  newest _ _ _ _ _ hlog := h.newest hcodes hlog

/-! ## Section 4: Calls -/

theorem Move.relies (hp : p.Relies s w)
    (hok : keepsCodes s others p o) : p'.Relies s' w' := by
  cases h with
  | aside _ idle | stored _ idle | renewed idle | deleted _ idle | compared _ idle
  | indexed _ idle | used _ idle | passed idle | lost idle => exact relies_idle idle
  | counted goesOn =>
    rcases goesOn with ⟨rfl, -⟩ | idle
    · trivial
    · exact relies_idle idle
  | @drew email code executed right =>
    exact ⟨newest_cons.mpr (.inl ⟨code, rfl⟩), (hok executed right).1⟩
  | marked _ goesOn =>
    rcases goesOn with rfl | idle
    · exact mem_cons_self
    · exact relies_idle idle
  | refreshed _ goesOn =>
    rcases goesOn with rfl | idle
    · exact ⟨hp, by simp [Watch.refreshed]⟩
    · exact relies_idle idle

/-- The marking of a record is left to one call. -/
def Phase.Apart (p q : Phase) : Prop := ∀ email, ¬ (p.marks email = true ∧ q.marks email = true)

omit h in
theorem marks_idle (h : p.verifying = false) (email : Email) : p.marks email = false := by
  cases p with
  | marking _ _ => cases h
  | _ => rfl

theorem Move.apart (hok : keepsCodes s others p o) {q : Phase}
    (hq : q ∈ others) : p'.Apart q := by
  have hidle : p'.verifying = false → p'.Apart q := by
    rintro idle email ⟨hmarks, -⟩
    rw [marks_idle idle] at hmarks
    cases hmarks
  cases h with
  | aside _ idle | stored _ idle | renewed idle | deleted _ idle | compared _ idle
  | indexed _ idle | used _ idle | passed idle | lost idle => exact hidle idle
  | counted goesOn =>
    rcases goesOn with ⟨rfl, -⟩ | idle
    · rintro email ⟨hmarks, -⟩
      cases hmarks
    · exact hidle idle
  | @drew email code executed right =>
    rintro e ⟨hmarks, hmarks'⟩
    have he : email = e := of_decide_eq_true hmarks
    subst he
    rw [(hok executed right).2 q hq] at hmarks'
    cases hmarks'
  | marked _ goesOn | refreshed _ goesOn =>
    rcases goesOn with rfl | idle
    · rintro email ⟨hmarks, -⟩
      cases hmarks
    · exact hidle idle

theorem Move.relies_other (hok : keepsCodes s others p o) {q : Phase}
    (hq : q ∈ others) (hrelies : q.Relies s w) (hapart : p.Apart q) : q.Relies s' w' := by
  cases q with
  | refreshing email token => exact h.mem_log hrelies
  | indexing email token =>
    obtain ⟨expiry, hexpiry⟩ := ne_none_iff_exists'.mp hrelies.2
    exact ⟨h.mem_log hrelies.1, by simp [h.expiry_mono hexpiry]⟩
  | marking email token =>
    obtain ⟨hnewest, hverified⟩ := hrelies
    have hmarks : marks email (.marking email token) = true := decide_eq_true rfl
    have hgrows : ∀ {a : Act}, (∀ c, a ≠ .sent email c) → Newest (a :: s.log) email token :=
      fun hne => hnewest.cons hne
    cases h with
    | aside same _ =>
      have hrecord : s'.otpRecord email = s.otpRecord email := by
        unfold otpRecord
        rw [same.otp]
      refine ⟨?_, hrecord ▸ hverified⟩
      rcases same.log with hlog | ⟨a, hlog, ha⟩
      · rw [hlog]
        exact hnewest
      · rw [hlog]
        exact (newest_of_other (ha email)).mpr hnewest
    | @stored email' code userID _ executed _ =>
      have hemail : email ≠ email' := by
        rintro rfl
        -- no code is stored while the record is about to be marked
        have hnone := ((hok executed).2 _ hq).2
        rw [hmarks] at hnone
        cases hnone
      refine ⟨hgrows fun c heq => ?_, ?_⟩
      · cases heq
        exact hemail rfl
      · rw [otpRecord_record, otpRecord_hsetOTP_of_ne hemail]
        exact hverified
    | renewed _ | refreshed _ _ => exact ⟨hnewest, by rwa [otpRecord_expireOTP]⟩
    | @counted email' _ _ _ =>
      refine ⟨hnewest, ?_⟩
      by_cases hemail : email = email'
      · subst hemail
        rw [otpRecord_hsetOTP]
        exact hverified
      · rw [otpRecord_hsetOTP_of_ne hemail]
        exact hverified
    | @deleted email' _ _ _ _ =>
      refine ⟨hnewest, ?_⟩
      rcases @otpRecord_delOTP s email' email with hsame | ⟨-, hempty⟩
      · rw [hsame]
        exact hverified
      · rw [hempty]
    | @marked email' _ _ _ _ =>
      have hemail : email ≠ email' := by
        rintro rfl
        exact hapart email ⟨decide_eq_true rfl, hmarks⟩
      refine ⟨hgrows fun c => by simp, ?_⟩
      rw [otpRecord_record, otpRecord_hsetOTP_of_ne hemail]
      exact hverified
    | @used email' _ _ _ usable _ =>
      have hemail : email ≠ email' := by
        rintro rfl
        rw [usable.1] at hverified
        cases hverified
      refine ⟨hgrows fun c => by simp, ?_⟩
      rw [otpRecord_record, otpRecord_hsetOTP_of_ne hemail]
      exact hverified
    | passed _ =>
      refine ⟨hnewest, ?_⟩
      rcases otpRecord_pass _ with hsame | hempty
      · rw [hsame]
        exact hverified
      · rw [hempty]
    | drew _ _ => exact ⟨hgrows fun c => by simp, hverified⟩
    | compared _ _ | indexed _ _ | lost _ => exact ⟨hnewest, hverified⟩
  | _ => trivial

end

/-! ## Section 5: Attempts -/

/-- Whoever compares a code has been counted. -/
def Counted (s : State) (w : Watch) (calls : List Phase) : Prop :=
  ∀ email, w.compares email ≤ 5 ∧ ((s.otpRecord email).codeHash ≠ none →
    w.compares email + calls.countP (checks email) ≤ min (s.otpRecord email).attempts 5)

theorem checks_idle (h : p.verifying = false) (email : Email) : p.checks email = false := by
  cases p with
  | verifyChecking _ _ => cases h
  | _ => rfl

variable {others : List Phase}

theorem countP_cons_of_false (h : p.checks email = false) :
    (p :: others).countP (checks email) = others.countP (checks email) :=
  countP_cons_of_neg (by simp [h])

theorem countP_verifyChecking {code : Bytes} :
    (verifyChecking email code :: others).countP (checks email) =
      others.countP (checks email) + 1 :=
  countP_cons_of_pos (p := checks email) (decide_eq_true rfl)

theorem Counted.same (h : Counted s w (p :: others))
    (hcompares : w'.compares = w.compares) (hchecks : ∀ email, p'.checks email = false)
    (hrecord : ∀ email, (s'.otpRecord email).codeHash ≠ none → (s.otpRecord email).codeHash ≠ none ∧
    (s.otpRecord email).attempts ≤ (s'.otpRecord email).attempts) :
    Counted s' w' (p' :: others) := by
  intro email
  rw [hcompares, countP_cons_of_false (hchecks email)]
  refine ⟨(h email).1, fun hcode => ?_⟩
  obtain ⟨hcode', hattempts⟩ := hrecord email hcode
  have hcount := (h email).2 hcode'
  have hothers : others.countP (checks email) ≤ (p :: others).countP (checks email) :=
    (sublist_cons_self p others).countP_le
  omega

theorem hsetOTP_attempts {e : Email}
    (hf : ∀ r, (f r).codeHash = r.codeHash ∧ r.attempts ≤ (f r).attempts)
    (hcode : ((s.hsetOTP email f).otpRecord e).codeHash ≠ none) :
    (s.otpRecord e).codeHash ≠ none ∧
      (s.otpRecord e).attempts ≤ ((s.hsetOTP email f).otpRecord e).attempts := by
  by_cases he : e = email
  · subst he
    rw [otpRecord_hsetOTP] at hcode ⊢
    rw [(hf _).1] at hcode
    exact ⟨hcode, (hf _).2⟩
  · rw [otpRecord_hsetOTP_of_ne he] at hcode ⊢
    exact ⟨hcode, le_rfl⟩

theorem Counted.compared {code : Bytes} {log : List Act}
    (h : Counted s w (.verifyChecking email code :: others))
    (hcode : (s.otpRecord email).codeHash ≠ none) (hchecks : ∀ e, p'.checks e = false) :
    Counted { s with log } (w.compared email) (p' :: others) := by
  intro e
  rw [countP_cons_of_false (hchecks e)]
  by_cases he : e = email
  · subst he
    have hcount := (h e).2 hcode
    rw [countP_verifyChecking] at hcount
    simp only [Watch.compared, update_self]
    refine ⟨by omega, fun _ => ?_⟩
    show w.compares e + 1 + _ ≤ min (s.otpRecord e).attempts 5
    omega
  · have hchecks' : checks e (.verifyChecking email code) = false :=
      decide_eq_false fun heq => he heq.symm
    have hcount := h e
    rw [countP_cons_of_false hchecks'] at hcount
    simp only [Watch.compared, update_of_ne he]
    exact hcount

theorem Move.counted' (h : Move s w o p s' w' p') (hok : keepsCodes s others p o)
    (hcounted : Counted s w (p :: others)) : Counted s' w' (p' :: others) := by
  have hsame : ∀ e, (s.otpRecord e).codeHash ≠ none → (s.otpRecord e).codeHash ≠ none ∧
      (s.otpRecord e).attempts ≤ (s.otpRecord e).attempts := fun _ hcode => ⟨hcode, le_rfl⟩
  cases h with
  | aside same idle =>
    refine hcounted.same rfl (checks_idle idle) ?_
    unfold State.otpRecord
    rw [same.otp]
    exact hsame
  | @stored email code userID _ executed idle =>
    intro e
    rw [countP_cons_of_false (checks_idle idle e)]
    by_cases he : e = email
    · subst he
      -- a code is stored only while no other call checks one
      have hnone : others.countP (Phase.checks e) = 0 := by
        rw [List.countP_eq_zero]
        intro q hq hchecks
        rw [((hok executed).2 q hq).1] at hchecks
        cases hchecks
      simp only [Watch.stored, update_self, otpRecord_record, otpRecord_hsetOTP, hnone]
      exact ⟨Nat.zero_le _, fun _ => Nat.zero_le _⟩
    · have hcount := hcounted e
      simp only [Watch.stored, update_of_ne he, otpRecord_record,
        otpRecord_hsetOTP_of_ne he]
      exact hcount
  | renewed idle =>
    refine hcounted.same rfl (checks_idle idle) fun e => ?_
    rw [otpRecord_expireOTP]
    exact hsame e
  | @counted email code _ goesOn =>
    -- one more attempt is counted, and one more call may check
    rcases goesOn with ⟨rfl, hfew⟩ | idle
    · intro e
      have hcount := hcounted e
      rw [countP_cons_of_false (by rfl)] at hcount
      refine ⟨hcount.1, fun hcode => ?_⟩
      by_cases he : e = email
      · subst he
        rw [otpRecord_hsetOTP] at hcode ⊢
        have hle := hcount.2 hcode
        rw [countP_verifyChecking]
        show _ ≤ min ((s.otpRecord e).attempts + 1) 5
        omega
      · have hchecks : Phase.checks e (.verifyChecking email code) = false :=
          decide_eq_false fun heq => he heq.symm
        rw [otpRecord_hsetOTP_of_ne he] at hcode ⊢
        rw [countP_cons_of_false hchecks]
        exact hcount.2 hcode
    · exact hcounted.same rfl (checks_idle idle) fun e =>
        hsetOTP_attempts fun r => ⟨rfl, Nat.le_succ _⟩
  | @deleted email _ _ _ idle =>
    refine hcounted.same rfl (checks_idle idle) fun e hcode => ?_
    rcases @otpRecord_delOTP s email e with hrecord | ⟨-, hempty⟩
    · rw [hrecord] at hcode ⊢
      exact hsame e hcode
    · rw [hempty] at hcode
      exact absurd rfl hcode
  | compared there idle => exact hcounted.compared there (checks_idle idle)
  | drew executed right => exact hcounted.compared (by simp [right]) fun _ => rfl
  | marked _ goesOn =>
    refine hcounted.same rfl ?_ fun e => ?_
    · rcases goesOn with rfl | idle
      · exact fun _ => rfl
      · exact checks_idle idle
    · rw [otpRecord_record]
      exact hsetOTP_attempts fun r => ⟨rfl, le_rfl⟩
  | refreshed _ goesOn =>
    refine hcounted.same rfl ?_ fun e => ?_
    · rcases goesOn with rfl | idle
      · exact fun _ => rfl
      · exact checks_idle idle
    · rw [otpRecord_expireOTP]
      exact hsame e
  | indexed noted idle =>
    rcases noted with rfl | rfl
    · exact hcounted.same rfl (checks_idle idle) hsame
    · exact hcounted.same rfl (checks_idle idle) hsame
  | used _ idle =>
    refine hcounted.same rfl (checks_idle idle) fun e => ?_
    rw [otpRecord_record]
    exact hsetOTP_attempts fun r => ⟨rfl, le_rfl⟩
  | passed idle =>
    refine hcounted.same rfl (checks_idle idle) fun e hcode => ?_
    rcases otpRecord_pass _ with hrecord | hempty
    · rw [hrecord] at hcode ⊢
      exact hsame e hcode
    · rw [hempty] at hcode
      exact absurd rfl hcode
  | lost idle => exact hcounted.same rfl (checks_idle idle) hsame

end Step

/-! ## Section 6: Runs -/

structure Tracked (t : Watched) : Prop where
  course : Course t.erase
  codes : Pool.Inv (fun sw => Codes sw.1 sw.2) (fun sw p => p.Relies sw.1 sw.2)
    (fun _ p q => p.Apart q) t
  counted : Counted t.shared.1 t.shared.2 t.calls

theorem tracked_perm : Pool.OrderFree Tracked := by
  intro sw l l' hperm h
  refine ⟨course_perm sw.1 l l' hperm h.course,
    .perm (fun _ _ _ hpq email hqp => hpq email hqp.symm) sw l l' hperm h.codes, fun email => ?_⟩
  show _ ∧ (_ → _ + l'.countP _ ≤ _)
  rw [← hperm.countP_eq]
  exact h.counted email

theorem verifying_begin (call : Call) : (begin call).verifying = false := by
  cases call <;> rfl

theorem tracked_start : Pool.StartKeeps begin Tracked := by
  intro sw calls call h
  refine ⟨course_start sw.1 calls call h.course,
    h.codes.cons (relies_idle (verifying_begin call)) ?_, fun email => ?_⟩
  · rintro q - email ⟨hmarks, -⟩
    rw [marks_idle (verifying_begin call)] at hmarks
    cases hmarks
  · show _ ∧ (_ → _ + (begin call :: calls).countP _ ≤ _)
    rw [countP_cons_of_false (checks_idle (verifying_begin call) email)]
    exact h.counted email

theorem tracked_next : Pool.AllowedKeeps (fun sw => keepsCodes sw.1) (Pool.watched .see next)
    Tracked := by
  intro sw p others o sw' p' h hok hnext
  obtain ⟨hstep, hsee⟩ := Pool.watched_cases hnext
  have hcourse := course_next sw.1 p others o sw'.1 p' h.course hstep
  have hmove : Move sw.1 sw.2 o p sw'.1 sw'.2 p' := by
    rw [hsee]
    exact next_move hstep
  have hcodes := h.codes.shared
  have hp := h.codes.each p mem_cons_self
  have hsound : Sound sw'.1.log := hcourse.ledger.sound
  refine ⟨hcourse, h.codes.replace ?_ ?_ ?_ fun _ _ hapart => hapart, ?_⟩
  · exact hmove.codes hcodes hp hok hsound
  · exact hmove.relies hp hok
  · intro q hq hrelies hapart
    exact ⟨hmove.relies_other hok hq hrelies hapart, hmove.apart hok hq⟩
  · exact hmove.counted' hok h.counted

theorem tracked_initial (users : Users) : Tracked (watchedInitial users) where
  course := course_initial users
  codes := by
    refine .init ⟨fun _ => current_empty, ?_, ?_, ?_, ?_⟩
    · rintro _ _ h
      cases h
    · rintro _ _ _ h
      cases h
    · rintro _ _ h
      cases h
    · intro after before email token userID h
      cases after <;> cases h
  counted _ := ⟨Nat.zero_le _, fun h => absurd rfl h⟩

theorem Codes.accepts (h : Codes s w) (hreturned : (email, token) ∈ w.returned) :
    ∃ expiry, w.expiry token = some expiry ∧
      (s.now ≤ expiry → Newest s.log email token → (∀ u, .used email token u ∉ s.log) →
        s.Accepts email token (w.user email)) := by
  obtain ⟨hverified, expiry, hexpiry, hleads⟩ := h.leads email token hreturned
  refine ⟨expiry, hexpiry, fun hnow hnewest hunused => ?_⟩
  obtain ⟨entry, hfound, hvalue, -⟩ := hleads hnow
  refine ⟨⟨entry, hfound, hvalue⟩, ?_⟩
  have hcurrent := h.current email
  obtain ⟨record, hrecord, hcode, -⟩ := h.lasts email token expiry hverified hexpiry hnewest hnow
  rw [← otpRecord_of_otp hrecord] at hcode
  obtain ⟨hisVerified, htoken⟩ := hcurrent.newest hcode token hverified hnewest
  have hconsumed : (s.otpRecord email).consumed = false := by
    refine Bool.eq_false_iff.mpr fun hconsumed => ?_
    obtain ⟨u, hused⟩ := hcurrent.used hconsumed token htoken
    exact hunused u hused
  simp [otpConsumeScript, hisVerified, hconsumed, htoken, hcurrent.user hcode]

/-- As long as verified records are left alone, codes work once. -/
theorem workOnce_exec (users : Users) {evs : List Event}
    (h : Guarded watchedStep KeepsCodes (watchedInitial users) evs) :
    WorkOnce (exec watchedStep (watchedInitial users) evs).shared.1
      (exec watchedStep (watchedInitial users) evs).shared.2 := by
  have htracked : Tracked (exec watchedStep (watchedInitial users) evs) :=
    Pool.keeps_exec tracked_perm (fun sw calls call hJ _ => tracked_start sw calls call hJ)
      tracked_next (tracked_initial users) h
  have hcodes := htracked.codes.shared
  exact ⟨fun email => (htracked.counted email).1, hcodes.newest,
    fun _ _ hreturned => hcodes.accepts hreturned⟩

/-- A code is sent and verified, and the token is used. -/
def oneRound : List Event :=
  [.start (.verifyRecoveryEmail "anna@home" []),
   .advance 0 {}, .advance 0 { code }, .advance 0 {}, .advance 0 {}, .advance 0 {},
   .start (.verifyRecoveryEmail "anna@home" code),
   .advance 1 {}, .advance 1 {}, .advance 1 { token := [9] }, .advance 1 {}, .advance 1 {},
   .advance 1 {},
   .start (.initiateDeviceRecovery [9] (replicate 32 5)), .advance 2 {}, .advance 2 {}]

theorem workOnce_oneRound :
    WorkOnce (exec watchedStep (watchedInitial annasTable) oneRound).shared.1
      (exec watchedStep (watchedInitial annasTable) oneRound).shared.2 :=
  workOnce_exec annasTable (by decide +kernel)

/-- A minute later, another code is sent and verified. -/
def secondRound : List Event :=
  oneRound ++
    [.start (.clock 61), .advance 3 {},
     .start (.verifyRecoveryEmail "anna@home" []),
     .advance 4 {}, .advance 4 { code }, .advance 4 {}, .advance 4 {}, .advance 4 {},
     .start (.verifyRecoveryEmail "anna@home" code),
     .advance 5 {}, .advance 5 {}, .advance 5 { token := [8] }, .advance 5 {}, .advance 5 {},
     .advance 5 {}]

/-- The second token is refused: the record says that the first has been consumed. -/
theorem not_workOnce_secondRound :
    ¬ WorkOnce (exec watchedStep (watchedInitial annasTable) secondRound).shared.1
      (exec watchedStep (watchedInitial annasTable) secondRound).shared.2 := by
  intro h
  have hlog : (exec watchedStep (watchedInitial annasTable) secondRound).shared.1.log =
      [.verified "anna@home" [8], .drew "anna@home" code [8], .sent "anna@home" code,
        .used "anna@home" [9] "anna", .verified "anna@home" [9], .drew "anna@home" code [9],
        .sent "anna@home" code] := by
    decide +kernel
  have hreturned : (exec watchedStep (watchedInitial annasTable) secondRound).shared.2.returned =
      [("anna@home", [8]), ("anna@home", [9])] := by
    decide +kernel
  have hnow : (exec watchedStep (watchedInitial annasTable) secondRound).shared.1.now = 61 := by
    decide +kernel
  obtain ⟨expiry, hsome, haccepts⟩ := h.accepted "anna@home" [8] (by simp [hreturned])
  cases hsome
  have hnewest : Newest (exec watchedStep (watchedInitial annasTable) secondRound).shared.1.log
      "anna@home" [8] := by
    refine ⟨[.verified "anna@home" [8]], _, code, hlog, ?_⟩
    intro c hc
    simp at hc
  have haccepted := (haccepts (by omega) hnewest fun u hu => by simp [hlog] at hu).2
  cases haccepted

end Meza.Auth.Recovery
