import Meza.Auth.RecoverySteps

/-! # The course of a device recovery

    In every run, whoever calls and whatever is lost from Redis on the way, a
    session goes from pending to approved, completed and done, and an account is
    recovered only at the end of a chain of acts that begins with a code sent to
    the email address of its user. -/

namespace Meza.Auth.Recovery
open List Rights Act State Function RecoveryState Run Recovery

open Aead (Bytes)
open Store (ID)

/-! ## Section 1: The ledger is kept -/

variable {a : Act} {token : Bytes} {email : Email} {userID : ID} {log : List Act} {p p' : Phase}
  {i sessionID : SessionID} {s s' s₁ : State} {users : Users}

theorem Users.Registered.mono {users' : Users} (h : users.Registered userID email)
    (hsub : ∀ u ∈ users.rows, u ∈ users'.rows) : users'.Registered userID email := by
  obtain ⟨u, hu, hid, hemail⟩ := h
  exact ⟨u, hsub u hu, hid, hemail⟩

theorem OTPRecord.Truthful.mono {log' : List Act} {users' : Users} {r : OTPRecord}
    (h : r.Truthful log users email) (hlog : ∀ a ∈ log, a ∈ log')
    (husers : ∀ u ∈ users.rows, u ∈ users'.rows) : r.Truthful log' users' email where
  code c hc := hlog _ (h.code c hc)
  user hne := (h.user hne).mono husers
  token t ht := hlog _ (h.token t ht)

theorem Session.Truthful.other {r : Session} (h : r.Truthful log i) (ha : a.entered i = none) :
    r.Truthful (a :: log) i where
  current := by
    have hsame : history (a :: log) i = history log i := by simp [history, ha]
    rw [hsame]
    exact h.current
  user := by
    obtain ⟨email, token, hcreated⟩ := h.user
    exact ⟨email, token, mem_cons_of_mem _ hcreated⟩
  bundle := by
    intro hstate
    obtain ⟨caller, bundle, hbundle, happroved⟩ := h.bundle hstate
    exact ⟨caller, bundle, hbundle, mem_cons_of_mem _ happroved⟩

theorem Phase.Truthful.mono (h : p.Truthful s) (hlog : ∀ a ∈ s.log, a ∈ s'.log)
    (husers : ∀ u ∈ s.users.rows, u ∈ s'.users.rows) : p.Truthful s' := by
  cases p with
  | sendStoring email code userID => exact fun hne => (h hne).mono husers
  | marking email token =>
    obtain ⟨code, hdrew⟩ := h
    exact ⟨code, hlog _ hdrew⟩
  | initiateLimiting _ _ _ _ | claiming _ _ _ _ _ | creating _ _ _ _ _ =>
    exact ⟨hlog _ h.1, h.2.mono husers⟩
  | recovering sessionID userID => exact hlog _ h
  | executing sessionID userID email => exact ⟨hlog _ h.1, h.2.mono husers⟩
  | _ => trivial

theorem truthful_otpRecord (h : Ledger s) (email : Email) :
    (s.otpRecord email).Truthful s.log s.users email := by
  unfold otpRecord
  rcases hfound : s.otp email with _ | e
  · refine ⟨?_, fun hne => absurd rfl hne, ?_⟩
    · intro c hc
      cases hc
    · intro t ht
      cases ht
  · exact h.otp email e hfound

theorem otp_hsetOTP {f : OTPRecord → OTPRecord} {P : Email → OTPRecord → Prop}
    (hothers : ∀ i e, s.otp i = some e → P i e.value) (hnew : P email (f (s.otpRecord email)))
    (i : Email) (e : Entry OTPRecord) (he : (s.hsetOTP email f).otp i = some e) : P i e.value := by
  by_cases hi : i = email
  · subst hi
    simp only [hsetOTP, update_self, Option.some.injEq] at he
    rw [← he]
    exact hnew
  · simp only [hsetOTP, update_of_ne hi] at he
    exact hothers i e he

theorem history_created (h : Sound log) (hnot : ∀ u e t, .created sessionID u e t ∉ log) :
    history log sessionID = [] := by
  rcases hhistory : history log sessionID with _ | ⟨state, states⟩
  · rfl
  · -- the first state of a session is that it is created with
    have hcourse := h.history_eq (by rw [hhistory]; rfl)
    have hpending : pending ∈ history log sessionID := by
      rw [hcourse]
      cases state <;> simp [course]
    obtain ⟨a, ha, hentered⟩ := mem_filterMap.mp hpending
    cases a with
    | created i u e t =>
      by_cases hi : i = sessionID
      · subst hi
        exact absurd ha (hnot u e t)
      · simp [entered, hi] at hentered
    | _ => simp [entered] at hentered

theorem Ledger.quiet (h : Ledger s)
    (hlog : s'.log = s.log) (husers : ∀ u ∈ s.users.rows, u ∈ s'.users.rows)
    (hotp : ∀ email e', s'.otp email = some e' → e'.value.Truthful s.log s.users email)
    (hsessions : ∀ i e', s'.sessions i = some e' →
    ∃ e, s.sessions i = some e ∧ e.value = e'.value) : Ledger s' where
  sound := by
    rw [hlog]
    exact h.sound
  otp := by
    intro email e' he'
    refine (hotp email e' he').mono ?_ husers
    intro a ha
    rw [hlog]
    exact ha
  sessions := by
    intro i e' he'
    obtain ⟨e, he, hvalue⟩ := hsessions i e' he'
    rw [hlog, ← hvalue]
    exact h.sessions i e he
  created := by
    intro i email token userID hcreated
    rw [hlog] at hcreated
    exact (h.created i email token userID hcreated).mono husers

theorem Ledger.act (h : Ledger s) (hlog : s₁.log = s.log) (husers : s₁.users = s.users)
    (hallowed : Allowed s.log a)
    (hotp : ∀ email e, s₁.otp email = some e → e.value.Truthful (a :: s.log) s.users email)
    (hsessions : ∀ i e, s₁.sessions i = some e → e.value.Truthful (a :: s.log) i)
    (hcreated : ∀ i email token userID, a = .created i userID email token →
      s.users.Registered userID email := by simp) : Ledger (s₁.record a) where
  sound := by
    show Sound (a :: s₁.log)
    rw [hlog]
    exact ⟨hallowed, h.sound⟩
  otp := by
    intro email e he
    show e.value.Truthful (a :: s₁.log) s₁.users email
    rw [hlog, husers]
    exact hotp email e he
  sessions := by
    intro i e he
    show e.value.Truthful (a :: s₁.log) i
    rw [hlog]
    exact hsessions i e he
  created := by
    intro i email token userID hmem
    show s₁.users.Registered userID email
    rw [husers]
    have hmem : .created i userID email token ∈ a :: s.log := by
      rw [← hlog]
      exact hmem
    rcases mem_cons.mp hmem with heq | hmem
    · exact hcreated i email token userID heq.symm
    · exact h.created i email token userID hmem

theorem Ledger.otp_act (h : Ledger s) (a : Act) (email : Email) (e : Entry OTPRecord)
    (he : s.otp email = some e) : e.value.Truthful (a :: s.log) s.users email :=
  (h.otp email e he).mono (fun _ hb => mem_cons_of_mem _ hb) fun _ hu => hu

theorem Ledger.sessions_act (h : Ledger s) (ha : ∀ i, a.entered i = none) (i : SessionID)
    (e : Entry Session) (he : s.sessions i = some e) : e.value.Truthful (a :: s.log) i :=
  (h.sessions i e he).other (ha i)

theorem Ledger.written (h : Ledger s) {f : OTPRecord → OTPRecord} (hallowed : Allowed s.log a)
    (hentered : ∀ i, a.entered i = none)
    (hnew : (s.otpRecord email).Truthful (a :: s.log) s.users email →
      (f (s.otpRecord email)).Truthful (a :: s.log) s.users email)
    (hcreated : ∀ i email token userID, a = .created i userID email token →
      s.users.Registered userID email := by simp) : Ledger ((s.hsetOTP email f).record a) := by
  have hrecord := (truthful_otpRecord h email).mono (fun b hb => mem_cons_of_mem a hb) fun _ hu => hu
  refine h.act rfl rfl hallowed ?_ (h.sessions_act hentered) hcreated
  exact otp_hsetOTP (P := fun i r => r.Truthful (a :: s.log) s.users i) (h.otp_act a) (hnew hrecord)

theorem Ledger.enters (h : Ledger s) {new : Entry Session} (hallowed : Allowed s.log a)
    (hentered : ∀ i, a.entered i = if sessionID = i then some new.value.state else none)
    (huser : ∃ email token, .created sessionID new.value.userID email token ∈ a :: s.log)
    (hbundle : new.value.state = .approved → ∃ caller bundle,
      new.value.wrappedBundle = some bundle ∧ .approved sessionID caller bundle ∈ a :: s.log)
    (hcreated : ∀ i email token userID, a = .created i userID email token →
      s.users.Registered userID email := by simp) :
    Ledger ((s.setSession sessionID new).record a) := by
  refine h.act rfl rfl hallowed (h.otp_act a) ?_ hcreated
  intro i e he
  by_cases hi : i = sessionID
  · subst hi
    simp only [setSession, update_self, Option.some.injEq] at he
    rw [← he]
    exact ⟨by simp [history, hentered], huser, hbundle⟩
  · simp only [setSession, update_of_ne hi] at he
    exact (h.sessions i e he).other (by rw [hentered, if_neg (Ne.symm hi)])

theorem tokenDrawn_eq_false (h : s.tokenDrawn token = false) (email : Email) (code : Bytes) :
    .drew email code token ∉ s.log := by
  intro hmem
  have hnone := (any_eq_false.mp h) _ hmem
  simp at hnone

theorem sessionNamed_eq_false (h : s.sessionNamed sessionID = false) :
    .named sessionID ∉ s.log := by
  simpa [sessionNamed] using h

theorem recovered_id {u : User} (h : users.Registered userID email)
    (hfound : users.recovered email = some u) : u.id = userID := by
  obtain ⟨v, hv, hid, hemail⟩ := h
  obtain ⟨hu, huemail⟩ := Table.mem_of_lookup hfound
  have huv : u = v := Table.eq_of_key users.emails hu hv (by rw [huemail, hemail])
  rw [huv]
  exact hid

theorem Effect.ledger (heffect : Effect s p s' p') (h : Ledger s) (hp : p.Truthful s)
    (hI : ∀ r, Rights.Sound books s r) (hL : ∀ r, Rights.Rightful books s p r) : Ledger s' := by
  cases heffect with
  | quiet hshrinks hholds htruthful =>
    refine h.quiet hshrinks.log hshrinks.users ?_ hshrinks.sessions
    intro email e' he'
    obtain ⟨e, he, hvalue⟩ := hshrinks.otp email e' he'
    rw [← hvalue]
    exact h.otp email e he
  | counted email hfree =>
    have hrecord := truthful_otpRecord h email
    refine h.quiet rfl (fun _ hu => hu) ?_ (fun _ e' he' => ⟨e', he', rfl⟩)
    exact otp_hsetOTP (P := fun i r => r.Truthful s.log s.users i) h.otp
      ⟨hrecord.code, hrecord.user, hrecord.token⟩
  | @sent email code userID _ hfree =>
    refine h.written trivial (fun _ => rfl) fun hrecord => ⟨?_, hp, hrecord.token⟩
    intro c hc
    cases hc
    exact mem_cons_self
  | @drew _ email code token hright hfresh =>
    have hsent := (truthful_otpRecord h email).code code hright
    exact h.act rfl rfl ⟨hsent, tokenDrawn_eq_false hfresh⟩ (h.otp_act _)
      (h.sessions_act fun _ => rfl)
  | @verified email token _ hfree =>
    -- the right to mark the record is the call's own, and unspent
    have hnew : ∀ e, .verified e token ∉ s.log := fun e hmem =>
      (hL (.mark token)).spent rfl ⟨_, hmem, rfl⟩
    refine h.written ⟨hp, hnew⟩ (fun _ => rfl) fun hrecord => ⟨hrecord.code, hrecord.user, ?_⟩
    intro t ht
    cases ht
    exact mem_cons_self
  | @used email token _ _ _ husable hfree =>
    -- a usable record stocks the right to use its token
    have hstock : s.stocks (.use token) := by
      rcases hfound : s.otp email with _ | e
      · simp [State.otpRecord, hfound, OTPRecord.usable] at husable
      · refine ⟨email, e, hfound, ?_⟩
        simpa [State.otpRecord, hfound] using husable
    have hnew : ∀ e u, .used e token u ∉ s.log := fun e u hmem =>
      (hI (.use token)).stock_spent hstock ⟨_, hmem, rfl⟩
    exact h.written ⟨(truthful_otpRecord h email).token token husable.2.2, hnew⟩ (fun _ => rfl)
      fun hrecord => ⟨hrecord.code, hrecord.user, hrecord.token⟩
  | named hfresh =>
    exact h.act rfl rfl (sessionNamed_eq_false hfresh) (h.otp_act _) (h.sessions_act fun _ => rfl)
  | @created email token userID ephemeralPub sessionID _ hfree =>
    have hnew : ∀ i u e, .created i u e token ∉ s.log := fun i u e hmem =>
      (hL (.create token)).spent (Or.inl rfl) ⟨_, hmem, Or.inl rfl⟩
    have hfirst : ∀ u e t, .created sessionID u e t ∉ s.log := fun u e t hmem =>
      (hL (.name sessionID)).spent (Or.inr rfl) ⟨_, hmem, Or.inr rfl⟩
    have hempty := history_created h.sound hfirst
    -- a session that is stored was created, and this one has just been named
    have hmissing : s.sessions sessionID = none := by
      rcases hfound : s.sessions sessionID with _ | e
      · rfl
      · obtain ⟨email', token', hmem⟩ := (h.sessions sessionID e hfound).user
        exact absurd hmem (hfirst _ _ _)
    have hset : s.hsetSession sessionID userID ephemeralPub = s.setSession sessionID
        { value := { userID, ephemeralPub, state := .pending } } := by
      simp only [State.hsetSession, hmissing]
    rw [hset]
    refine h.enters ⟨hp.1, hnew, hempty⟩ (fun _ => rfl) ⟨email, token, mem_cons_self⟩ ?_ ?_
    · intro hstate
      cases hstate
    · intro i email' token' userID' heq
      cases heq
      exact hp.2
  | @approved _ _ sessionID e bundle deviceID hfound hpending hfree =>
    have hsession := h.sessions sessionID e hfound
    have hcourse := h.sound.history_eq hsession.current
    rw [hpending] at hcourse
    obtain ⟨email, token, hcreated⟩ := hsession.user
    refine h.enters ⟨hsession.user, hcourse⟩ (fun _ => rfl)
      ⟨email, token, mem_cons_of_mem _ hcreated⟩ ?_
    intro _
    exact ⟨e.value.userID, bundle, rfl, mem_cons_self⟩
  | @handedOut _ _ sessionID e hfound hstate hfree =>
    have hsession := h.sessions sessionID e hfound
    have hcourse := h.sound.history_eq hsession.current
    rw [hstate] at hcourse
    obtain ⟨email, token, hcreated⟩ := hsession.user
    -- what is handed out is what was approved
    obtain ⟨caller, bundle, hbundle, happroved⟩ := hsession.bundle hstate
    rw [hbundle]
    have hentered : Ledger ((s.setSession sessionID
        { e with value := { e.value with state := .completed } }).record
          (.handedOut sessionID bundle)) := by
      refine h.enters ⟨⟨caller, happroved⟩, hcourse⟩ (fun _ => rfl)
        ⟨email, token, mem_cons_of_mem _ hcreated⟩ ?_
      intro hcompleted
      cases hcompleted
    exact hentered.quiet rfl (fun _ hu => hu) hentered.otp
      (expireSession_shrinks _ sessionID 600).sessions
  | @finished _ _ sessionID e hfound hstate hfree =>
    have hsession := h.sessions sessionID e hfound
    have hcourse := h.sound.history_eq hsession.current
    rw [hstate] at hcourse
    obtain ⟨email, token, hcreated⟩ := hsession.user
    refine h.enters ⟨hsession.user, hcourse⟩ (fun _ => rfl)
      ⟨email, token, mem_cons_of_mem _ hcreated⟩ ?_
    intro hdone
    cases hdone
  | @recovered sessionID userID email u _ hfound hfree =>
    -- emails are unique, so the account that is reset is the one the session names
    have hid := recovered_id hp.2 hfound
    have hnew : ∀ v, .recovered sessionID v ∉ s.log := fun v hmem =>
      (hL (.recover sessionID)).spent rfl ⟨_, hmem, rfl⟩
    have hfinished : .finished sessionID u.id ∈ s.log := by
      rw [hid]
      exact hp.1
    exact h.act rfl rfl ⟨hfinished, hnew⟩ (h.otp_act _) (h.sessions_act fun _ => rfl)

theorem Effect.truthful (heffect : Effect s p s' p') (h : Ledger s) (hp : p.Truthful s) :
    p'.Truthful s' := by
  cases heffect with
  | quiet hshrinks hholds htruthful => exact htruthful hp
  | sent hfree | counted _ hfree | verified hfree | created hfree | approved _ _ _ _ hfree
  | handedOut _ _ hfree | recovered _ hfree => exact hfree.truthful _
  | drew hright hfresh => exact ⟨_, mem_cons_self⟩
  | @used email token ephemeralPub _ _ husable hfree =>
    rcases hfree with hfree | ⟨hne, rfl⟩
    · exact hfree.truthful _
    · exact ⟨mem_cons_self, (truthful_otpRecord h email).user hne⟩
  | named hfresh => exact ⟨mem_cons_of_mem _ hp.1, hp.2⟩
  | finished hfound hcompleted hfree =>
    rcases hfree with hfree | rfl
    · exact hfree.truthful _
    · exact mem_cons_self

/-- Nothing that has been achieved is forgotten. -/
theorem Effect.grows (heffect : Effect s p s' p') :
    s.log <:+ s'.log ∧ ∀ u ∈ s.users.rows, u ∈ s'.users.rows := by
  cases heffect with
  | quiet hshrinks hholds htruthful =>
    refine ⟨?_, hshrinks.users⟩
    rw [hshrinks.log]
  | counted email hfree => exact ⟨suffix_refl _, fun _ hu => hu⟩
  | @created email token userID ephemeralPub sessionID _ hfree =>
    refine ⟨?_, fun u hu => ?_⟩
    · unfold hsetSession
      split
      · exact suffix_cons _ _
      · exact suffix_cons _ _
    · show u ∈ (s.hsetSession sessionID userID ephemeralPub).users.rows
      unfold hsetSession
      split
      · exact hu
      · exact hu
  | sent _ | drew _ _ | verified _ | used _ _ | named _ | approved _ _ _ _ _ | handedOut _ _ _
  | finished _ _ _ | recovered _ _ => exact ⟨suffix_cons _ _, fun _ hu => hu⟩

/-! ## Section 2: Rights are passed on -/

theorem known_record (hlog : s₁.log = s.log) (r : Right) :
    books.known (s₁.record a) r ↔ a.grants r ∨ books.known s r := by
  simp [books, record, hlog]

theorem spent_record (hlog : s₁.log = s.log) (r : Right) :
    books.spent (s₁.record a) r ↔ a.spends r ∨ books.spent s r := by
  simp [books, record, hlog]

theorem stock_record (s : State) (a : Act) (r : Right) :
    books.stock (s.record a) r ↔ s.stocks r := by
  cases r <;> exact .rfl

section Passing

variable {r : Right}

theorem passes_act (hI : Rights.Sound books s r) (hL : Rights.Rightful books s p r)
    (hlog : s₁.log = s.log) (hgrants : ¬ a.grants r) (hspends : ¬ a.spends r)
    (hstock : s₁.stocks r → s.stocks r) (hholds : p'.holds r → p.holds r) :
    Passes books s p (s₁.record a) p' r := by
  refine .same hI hL ?_ ?_ ?_ hholds
  · rw [known_record hlog]
    exact or_iff_right hgrants
  · rw [stock_record]
    exact hstock
  · rw [spent_record hlog]
    exact or_iff_right hspends

/-- The right that an act is about goes to the call, if the call holds it. -/
theorem passes_grant (hI : Rights.Sound books s r) (hlog : s₁.log = s.log) (hgrants : a.grants r)
    (hspends : ¬ a.spends r) (hnew : ¬ books.known s r) (hstock : ¬ s₁.stocks r) :
    Passes books s p (s₁.record a) p' r := by
  have hknown : books.known (s₁.record a) r := (known_record hlog r).mpr (.inl hgrants)
  have hstock' : ¬ books.stock (s₁.record a) r := fun h => hstock ((stock_record s₁ a r).mp h)
  have hspent' : ¬ books.spent (s₁.record a) r := by
    rw [spent_record hlog]
    rintro (h | h)
    · exact hspends h
    · exact hnew (hI.spent_known h)
  exact .grant hnew hknown hstock' hspent'

theorem passes_spend (hL : Rightful books s p r) (hlog : s₁.log = s.log)
    (hheld : p.holds r) (hstock : ¬ s₁.stocks r) (hholds : ¬ p'.holds r) :
    Passes books s p (s₁.record a) p' r := by
  refine .spend hL hheld ?_ ?_ hholds
  · intro h
    exact (known_record hlog r).mpr (.inr h)
  · intro h
    exact hstock ((stock_record s₁ a r).mp h)

end Passing

/-- A record under which as little can be used as before. -/
theorem stocks_hsetOTP {s : State} {email : Email} {f : OTPRecord → OTPRecord} {r : Right}
    (hf : ∀ t, r = .use t → (f (s.otpRecord email)).usable t → (s.otpRecord email).usable t)
    (h : (s.hsetOTP email f).stocks r) : s.stocks r := by
  cases r with
  | use token =>
    obtain ⟨i, e, he, husable⟩ := h
    by_cases hi : i = email
    · subst hi
      simp only [hsetOTP, update_self, Option.some.injEq] at he
      subst he
      have hbefore := hf token rfl husable
      rcases hfound : s.otp i with _ | e
      · simp [otpRecord, hfound, OTPRecord.usable] at hbefore
      · refine ⟨i, e, hfound, ?_⟩
        simpa [otpRecord, hfound] using hbefore
    · simp only [hsetOTP, update_of_ne hi] at he
      exact ⟨i, e, he, husable⟩
  | mark _ | create _ | name _ | recover _ => exact h

theorem Sound.verified_unique (h : Sound log) {e e' : Email} (he : .verified e token ∈ log)
    (he' : .verified e' token ∈ log) : e = e' := by
  induction log with
  | nil => cases he
  | cons a before ih =>
    rcases mem_cons.mp he with rfl | hbefore
    · rcases mem_cons.mp he' with heq | hbefore'
      · cases heq
        rfl
      · exact absurd hbefore' (h.1.2 e')
    · rcases mem_cons.mp he' with rfl | hbefore'
      · exact absurd hbefore (h.1.2 e)
      · exact ih h.2 hbefore hbefore'

theorem done_mem_history (h : .finished sessionID userID ∈ log) : .done ∈ history log sessionID :=
  mem_filterMap.mpr ⟨_, h, by simp [entered]⟩

section Passing

theorem passes_verified (hI : ∀ r, Rights.Sound books s r)
    (hL : ∀ r, Rightful books s (.marking email token) r) (hfree : p'.Free) (r : Right) :
    Passes books s (.marking email token) ((s.hsetOTP email fun r =>
        { r with sessionTokenHash := some (sha256 token), verified := true }).record
          (.verified email token)) p' r := by
  have hholds : ¬ p'.holds r := hfree.holds r
  by_cases hmark : r = .mark token
  · subst hmark
    exact passes_spend (hL _) rfl rfl (fun h => h) hholds
  by_cases huse : r = .use token
  · subst huse
    -- the token has not been verified before
    have hnew : ¬ books.known s (.use token) := by
      rintro ⟨a, ha, hgrants⟩
      cases a with
      | verified e t =>
        cases hgrants
        exact (hL (.mark token)).spent rfl ⟨_, ha, rfl⟩
      | _ => cases hgrants
    refine .store hnew ?_ ?_ hholds
    · exact (known_record rfl _).mpr (.inl rfl)
    · rw [spent_record rfl]
      rintro (h | h)
      · cases h
      · exact hnew ((hI _).spent_known h)
  · refine passes_act (hI r) (hL r) rfl huse hmark ?_ fun h => absurd h hholds
    refine stocks_hsetOTP ?_
    rintro t rfl husable
    have heq : token = t := by
      have htoken := husable.2.2
      cases htoken
      rfl
    exact absurd (by rw [heq]) huse

theorem passes_used {ephemeralPub : Bytes} (h : Ledger s) (hI : ∀ r, Rights.Sound books s r)
    (hL : ∀ r, Rights.Rightful books s p r) (husable : (s.otpRecord email).usable token)
    (hfree : p'.Free ∨ ((s.otpRecord email).userID ≠ "" ∧
      p' = .initiateLimiting email token (s.otpRecord email).userID ephemeralPub)) (r : Right) :
    Rights.Passes books s p ((s.hsetOTP email fun r => { r with consumed := true }).record
      (.used email token (s.otpRecord email).userID)) p' r := by
  have hholds : p'.holds r → r = .create token := by
    intro hr
    rcases hfree with hfree | ⟨-, rfl⟩
    · exact absurd hr (hfree.holds r)
    · exact hr
  have hverified : .verified email token ∈ s.log := (truthful_otpRecord h email).token _ husable.2.2
  have hstocked : s.stocks (.use token) := by
    refine @stocks_hsetOTP s email (fun _ => s.otpRecord email) _ ?_ ?_
    · exact fun t _ ht => ht
    · exact ⟨email, _, Function.update_self _ _ _, husable⟩
  have hunused : ¬ ((s.hsetOTP email fun r => { r with consumed := true }).stocks
      (.use token)) := by
    rintro ⟨i, e, he, husable'⟩
    by_cases hi : i = email
    · subst hi
      simp only [State.hsetOTP, Function.update_self, Option.some.injEq] at he
      subst he
      exact absurd husable'.2.1 (by simp)
    · -- a token is verified for one email address only
      simp only [State.hsetOTP, Function.update_of_ne hi] at he
      exact hi (h.sound.verified_unique ((h.otp i e he).token _ husable'.2.2) hverified)
  by_cases huse : r = .use token
  · subst huse
    refine .use (hI _) hstocked ?_ ?_ ?_
    · exact fun hknown => (known_record rfl _).mpr (.inr hknown)
    · exact hunused
    · intro hr
      cases hholds hr
  by_cases hcreate : r = .create token
  · subst hcreate
    have hnew : ¬ books.known s (.create token) := by
      rintro ⟨a, ha, hgrants⟩
      cases a with
      | used e t u =>
        cases hgrants
        exact (hI (.use token)).stock_spent hstocked ⟨_, ha, rfl⟩
      | _ => cases hgrants
    exact passes_grant (hI _) rfl rfl (fun h => by cases h) hnew fun h => h
  · refine passes_act (hI r) (hL r) rfl hcreate huse ?_ fun hr => absurd (hholds hr) hcreate
    exact stocks_hsetOTP fun t _ ht => ⟨ht.1, absurd ht.2.1 (by simp), ht.2.2⟩

theorem passes_created {ephemeralPub : Bytes} (hI : ∀ r, Rights.Sound books s r)
    (hL : ∀ r, Rightful books s (.creating email token userID ephemeralPub sessionID) r)
    (hfree : p'.Free) (r : Right) :
    Passes books s (.creating email token userID ephemeralPub sessionID)
      ((s.hsetSession sessionID userID ephemeralPub).record
        (.created sessionID userID email token)) p' r := by
  have hholds : ¬ p'.holds r := hfree.holds r
  have hlog : (s.hsetSession sessionID userID ephemeralPub).log = s.log := by
    unfold hsetSession
    split
    · rfl
    · rfl
  have hstock : (s.hsetSession sessionID userID ephemeralPub).stocks r → s.stocks r := by
    unfold hsetSession
    split
    · exact fun h => h
    · exact fun h => h
  by_cases hheld : r = .create token ∨ r = .name sessionID
  · refine passes_spend (hL r) hlog hheld ?_ hholds
    intro h
    rcases hheld with rfl | rfl
    · exact hstock h
    · exact hstock h
  · exact passes_act (hI r) (hL r) hlog (fun h => h) hheld hstock fun h => absurd h hholds

end Passing

theorem Effect.passes (heffect : Effect s p s' p') (h : Ledger s) (hI : ∀ r, Rights.Sound books s r)
    (hL : ∀ r, Rightful books s p r) (r : Right) : Passes books s p s' p' r := by
  cases heffect with
  | quiet hshrinks hholds htruthful =>
    refine .same (hI r) (hL r) ?_ ?_ ?_ (hholds r)
    · simp [books, hshrinks.log]
    · cases r with
      | use token =>
        rintro ⟨email, e', he', husable⟩
        obtain ⟨e, he, hvalue⟩ := hshrinks.otp email e' he'
        exact ⟨email, e, he, hvalue ▸ husable⟩
      | _ => exact fun hr => hr
    · simp [books, hshrinks.log]
  | counted email hfree =>
    refine .same (hI r) (hL r) .rfl ?_ .rfl fun hr => absurd hr (hfree.holds r)
    exact stocks_hsetOTP fun _ _ ht => ht
  | sent hfree =>
    refine passes_act (hI r) (hL r) rfl (fun h => h) (fun h => h) ?_
      fun hr => absurd hr (hfree.holds r)
    exact stocks_hsetOTP fun _ _ ht => ht
  | @drew _ email code token hright hfresh =>
    by_cases hmark : r = .mark token
    · subst hmark
      have hnew : ¬ books.known s (.mark token) := by
        rintro ⟨a, ha, hgrants⟩
        cases a with
        | drew e c t =>
          cases hgrants
          exact tokenDrawn_eq_false hfresh e c ha
        | _ => cases hgrants
      exact passes_grant (hI _) rfl rfl (fun h => h) hnew fun h => h
    · exact passes_act (hI r) (hL r) rfl hmark (fun h => h) (fun h => h) fun h => absurd h hmark
  | verified hfree => exact passes_verified hI hL hfree r
  | used husable hfree => exact passes_used h hI hL husable hfree r
  | @named email token userID ephemeralPub sessionID hfresh =>
    by_cases hname : r = .name sessionID
    · subst hname
      have hnew : ¬ books.known s (.name sessionID) := by
        rintro ⟨a, ha, hgrants⟩
        cases a with
        | named i =>
          cases hgrants
          exact sessionNamed_eq_false hfresh ha
        | _ => cases hgrants
      exact passes_grant (hI _) rfl rfl (fun h => h) hnew fun h => h
    · refine passes_act (hI r) (hL r) rfl hname (fun h => h) (fun h => h) ?_
      exact fun hr => hr.resolve_right hname
  | created hfree => exact passes_created hI hL hfree r
  | approved bundle deviceID hfound hpending hfree | handedOut hfound hstate hfree =>
    exact passes_act (hI r) (hL r) rfl (fun h => h) (fun h => h) (fun h => h)
      fun hr => absurd hr (hfree.holds r)
  | @finished _ _ sessionID e hfound hstate hfree =>
    by_cases hrecover : r = .recover sessionID
    · subst hrecover
      have hnew : ¬ books.known s (.recover sessionID) := by
        rintro ⟨a, ha, hgrants⟩
        cases a with
        | finished i u =>
          cases hgrants
          -- a finished session would not be completed
          have hdone := done_mem_history ha
          rw [h.sound.history_eq (h.sessions sessionID e hfound).current, hstate] at hdone
          simp [course] at hdone
        | _ => cases hgrants
      exact passes_grant (hI _) rfl rfl (fun h => h) hnew fun h => h
    · refine passes_act (hI r) (hL r) rfl hrecover (fun h => h) (fun h => h) ?_
      intro hr
      rcases hfree with hfree | rfl
      · exact absurd hr (hfree.holds r)
      · exact absurd hr hrecover
  | @recovered sessionID userID email u _ hfound hfree =>
    have hholds : ¬ p'.holds r := hfree.holds r
    by_cases hrecover : r = .recover sessionID
    · subst hrecover
      exact passes_spend (hL _) rfl rfl (fun h => h) hholds
    · exact passes_act (hI r) (hL r) rfl (fun h => h) hrecover (fun h => h)
        fun hr => absurd hr hholds

/-! ## Section 3: Whole runs -/

/-- The rights are kept, and everything that is said is true. -/
structure Course (s : Pooled) : Prop where
  kept : Kept books s
  ledger : Ledger s.shared
  truthful : ∀ p ∈ s.calls, p.Truthful s.shared

theorem course_perm : Pool.OrderFree Course := by
  intro s l l' hperm h
  exact ⟨.perm s l l' hperm h.kept, h.ledger, fun p hp => h.truthful p (hperm.mem_iff.mpr hp)⟩

theorem free_begin (call : Call) : (Phase.begin call).Free := by
  cases call <;> exact ⟨fun _ h => h, fun _ => trivial⟩

theorem course_start : Pool.StartKeeps Phase.begin Course := by
  intro s calls call h
  refine ⟨h.kept.start (free_begin call).holds, h.ledger, fun p hp => ?_⟩
  rcases mem_cons.mp hp with rfl | hp
  · exact (free_begin call).truthful s
  · exact h.truthful p hp

theorem course_next : Pool.NextKeeps next Course := by
  intro s p others o s' p' h hnext
  have heffect := next_effect hnext
  have hp : p.Truthful s := h.truthful p mem_cons_self
  have hI := h.kept.shared
  have hL : ∀ r, Rights.Rightful books s p r := h.kept.each p mem_cons_self
  constructor
  · exact h.kept.pass (heffect.passes h.ledger hI hL)
  · exact heffect.ledger h.ledger hp hI hL
  · intro q hq
    rcases List.mem_cons.mp hq with rfl | hq
    · exact heffect.truthful h.ledger hp
    · have hq' := h.truthful q (mem_cons_of_mem _ hq)
      exact hq'.mono (fun _ ha => heffect.grows.1.subset ha) heffect.grows.2

theorem course_initial (users : Users) : Course (initial users) where
  kept := by
    refine .init fun r => ⟨?_, ?_, ?_⟩
    · intro hstock
      cases r with
      | use token =>
        obtain ⟨email, e, he, -⟩ := hstock
        cases he
      | _ => cases hstock
    · rintro - ⟨a, ha, -⟩
      cases ha
    · rintro ⟨a, ha, -⟩
      cases ha
  ledger := by
    constructor
    · trivial
    · intro email e he
      cases he
    · intro sessionID e he
      cases he
    · intro sessionID email token userID hmem
      cases hmem
  truthful := by
    intro p hp
    cases hp

theorem course_exec (users : Users) (evs : List Event) : Course (exec step (initial users) evs) :=
  Pool.keeps_always course_perm course_start course_next (course_initial users) evs

theorem log_exec (s : Pooled) (evs : List Event) :
    s.shared.log <:+ (exec step s evs).shared.log := by
  have hstep : ∀ (t : Pooled) ev, s.shared.log <:+ t.shared.log →
      s.shared.log <:+ (step t ev).shared.log := by
    intro t ev h
    rcases @Pool.step_shared _ _ _ _ .begin next t ev with
      hsame | ⟨i, outcome, p, p', -, -, hnext, -⟩
    · show s.shared.log <:+ (Pool.step .begin next t ev).shared.log
      rw [hsame]
      exact h
    · exact h.trans (next_effect hnext).grows.1
  exact exec_kept hstep (suffix_refl _) evs

/-! ## Section 4: The law -/

theorem created_unique (h : Sound log) {u u' : ID} {e e' : Email} {t t' : Bytes}
    (hmem : .created i u e t ∈ log) (hmem' : .created i u' e' t' ∈ log) : u = u' := by
  have hpending : ∀ {before : List Act} {v : ID} {f : Email} {w : Bytes},
      .created i v f w ∈ before → history before i ≠ [] := by
    intro before v f w hbefore hempty
    have hmem : pending ∈ history before i :=
      mem_filterMap.mpr ⟨_, hbefore, by simp [entered]⟩
    rw [hempty] at hmem
    cases hmem
  induction log with
  | nil => cases hmem
  | cons a before ih =>
    rcases mem_cons.mp hmem with rfl | hbefore
    · rcases mem_cons.mp hmem' with heq | hbefore'
      · cases heq
        rfl
      · exact absurd h.1.2.2 (hpending hbefore')
    · rcases mem_cons.mp hmem' with rfl | hbefore'
      · exact absurd h.1.2.2 (hpending hbefore)
      · exact ih h.2 hbefore hbefore'

/-- The act brings the session into a state. -/
def Act.enters (sessionID : SessionID) (state : RecoveryState) (a : Act) : Bool :=
  a.entered sessionID = some state

def Act.recovers (sessionID : SessionID) : Act → Bool
  | .recovered i _ => i = sessionID
  | _ => false

theorem countP_enters (log : List Act) (sessionID : SessionID) (state : RecoveryState) :
    log.countP (enters sessionID state) = (history log sessionID).count state := by
  induction log with
  | nil => rfl
  | cons a log ih =>
    rcases hentered : a.entered sessionID with _ | state'
    · have hsame : history (a :: log) sessionID = history log sessionID := by
        simp [history, hentered]
      rw [hsame, ← ih, countP_cons_of_neg]
      simp [enters, hentered]
    · have hcons : history (a :: log) sessionID = state' :: history log sessionID := by
        simp [history, hentered]
      rw [hcons, countP_cons, count_cons, ih]
      simp [enters, hentered]

theorem Sound.countP_enters_le (h : Sound log) (sessionID : SessionID) (state : RecoveryState) :
    log.countP (enters sessionID state) ≤ 1 := by
  rw [countP_enters]
  have hnodup : (history log sessionID).Nodup :=
    (h.history_suffix sessionID).sublist.nodup (by decide)
  exact nodup_iff_count_le_one.mp hnodup state

theorem Sound.countP_recovers_le (h : Sound log) (sessionID : SessionID) :
    log.countP (recovers sessionID) ≤ 1 := by
  induction log with
  | nil => exact Nat.zero_le 1
  | cons a before ih =>
    by_cases ha : a.recovers sessionID = true
    · have hnone : before.countP (recovers sessionID) = 0 := by
        rw [countP_eq_zero]
        intro b hb hrecovers
        cases a with
        | recovered i u =>
          cases b with
          | recovered j v =>
            simp only [recovers, decide_eq_true_eq] at ha hrecovers
            subst ha
            subst hrecovers
            exact h.1.2 v hb
          | _ => cases hrecovers
        | _ => cases ha
      rw [countP_cons_of_pos ha]
      omega
    · rw [countP_cons_of_neg ha]
      exact ih h.2

/-- What holds of the sessions, and of what calls have achieved. -/
structure Lawful (s : State) : Prop where
  /-- A session is pending, approved, completed and done, in this order. -/
  states : ∀ i, history s.log i <:+ [.done, .completed, .approved, .pending]
  current : ∀ i e, s.sessions i = some e → (history s.log i).head? = some e.value.state
  user : ∀ i e, s.sessions i = some e → ∃ email token, .created i e.value.userID email token ∈ s.log
  /-- One `ApproveDeviceRecovery` succeeds, and its caller is the user of the session. -/
  approvedOnce : ∀ i, s.log.countP (enters i .approved) ≤ 1
  approved : ∀ after before i caller bundle,
    s.log = after ++ .approved i caller bundle :: before →
      ∃ email token, .created i caller email token ∈ before
  /-- The bundle is returned once, and it is the one of the approval. -/
  handedOutOnce : ∀ i, s.log.countP (enters i .completed) ≤ 1
  handedOut : ∀ after before i bundle, s.log = after ++ .handedOut i bundle :: before →
    ∃ caller, .approved i caller bundle ∈ before
  /-- `RecoverAccount` is executed once, for the user of the session, after the hand-out. -/
  recoveredOnce : ∀ i, s.log.countP (recovers i) ≤ 1
  recovered : ∀ after before i userID, s.log = after ++ .recovered i userID :: before →
    (∃ email token, .created i userID email token ∈ before) ∧ ∃ bundle, .handedOut i bundle ∈ before
  /-- The token was verified for the email of the user, and made no other session. -/
  created : ∀ after before i userID email token,
    s.log = after ++ .created i userID email token :: before →
      s.users.Registered userID email ∧ .verified email token ∈ before ∧
        .used email token userID ∈ before ∧ ∀ j u e, .created j u e token ∉ before
  usedOnce : ∀ after before email token userID,
    s.log = after ++ .used email token userID :: before → ∀ e u, .used e token u ∉ before

theorem exists_handedOut (h : .completed ∈ history log i) :
    ∃ bundle, .handedOut i bundle ∈ log := by
  obtain ⟨a, ha, hentered⟩ := mem_filterMap.mp h
  cases a with
  | handedOut j bundle =>
    by_cases hj : j = i
    · subst hj
      exact ⟨bundle, ha⟩
    · simp [entered, hj] at hentered
  | _ => simp [entered] at hentered

theorem Sound.finished {log : List Act} (h : Sound log) {i : SessionID} {userID : ID}
    (hmem : .finished i userID ∈ log) :
    (∃ email token, .created i userID email token ∈ log) ∧ ∃ bundle, .handedOut i bundle ∈ log := by
  obtain ⟨after, before, rfl, ⟨⟨email, token, hcreated⟩, hhistory⟩, -⟩ := h.split hmem
  have hcompleted : completed ∈ history before i := by
    rw [hhistory]
    simp
  obtain ⟨bundle, hbundle⟩ := exists_handedOut hcompleted
  refine ⟨⟨email, token, ?_⟩, bundle, ?_⟩
  · exact mem_append_right _ (mem_cons_of_mem _ hcreated)
  · exact mem_append_right _ (mem_cons_of_mem _ hbundle)

theorem Ledger.lawful (h : Ledger s) : Lawful s where
  states i := h.sound.history_suffix i
  current i e he := (h.sessions i e he).current
  user i e he := (h.sessions i e he).user
  approvedOnce i := h.sound.countP_enters_le i .approved
  approved := by
    intro after before i caller bundle hlog
    have hsound := h.sound
    rw [hlog] at hsound
    exact hsound.before.1.1
  handedOutOnce i := h.sound.countP_enters_le i .completed
  handedOut := by
    intro after before i bundle hlog
    have hsound := h.sound
    rw [hlog] at hsound
    exact hsound.before.1.1
  recoveredOnce i := h.sound.countP_recovers_le i
  recovered := by
    intro after before i userID hlog
    have hsound := h.sound
    rw [hlog] at hsound
    obtain ⟨⟨hfinished, -⟩, hbefore⟩ := hsound.before
    exact hbefore.finished hfinished
  created := by
    intro after before i userID email token hlog
    have hsound := h.sound
    rw [hlog] at hsound
    obtain ⟨⟨hused, hfirst, -⟩, hbefore⟩ := hsound.before
    obtain ⟨after', before', rfl, ⟨hverified, -⟩, -⟩ := hbefore.split hused
    refine ⟨?_, mem_append_right _ (mem_cons_of_mem _ hverified), hused, hfirst⟩
    refine h.created i email token userID ?_
    rw [hlog]
    exact mem_append_right _ mem_cons_self
  usedOnce := by
    intro after before email token userID hlog
    have hsound := h.sound
    rw [hlog] at hsound
    exact hsound.before.1.2

/-- In every run, every session is lawful, and its state only moves forward. -/
theorem deviceRecovery_lawful (users : Users) (evs : List Event) :
    Lawful (exec step (initial users) evs).shared ∧
      ∀ pre, pre <+: evs → ∀ i e e',
        (exec step (initial users) pre).shared.sessions i = some e →
        (exec step (initial users) evs).shared.sessions i = some e' →
        e.value.userID = e'.value.userID ∧ e.value.state.course <:+ e'.value.state.course := by
  have hledger := (course_exec users evs).ledger
  refine ⟨hledger.lawful, ?_⟩
  rintro pre ⟨post, rfl⟩ i e e' he he'
  have hpre := (course_exec users pre).ledger
  have hlog : (exec step (initial users) pre).shared.log <:+
      (exec step (initial users) (pre ++ post)).shared.log := by
    rw [exec_append]
    exact log_exec _ post
  have hsession := hpre.sessions i e he
  have hsession' := hledger.sessions i e' he'
  constructor
  · -- a session is created once
    obtain ⟨email, token, hcreated⟩ := hsession.user
    obtain ⟨email', token', hcreated'⟩ := hsession'.user
    exact created_unique hledger.sound (hlog.subset hcreated) hcreated'
  · rw [← hpre.sound.history_eq hsession.current, ← hledger.sound.history_eq hsession'.current]
    obtain ⟨later, hlater⟩ := hlog
    refine ⟨history later i, ?_⟩
    rw [← hlater]
    exact (filterMap_append).symm

end Meza.Auth.Recovery
