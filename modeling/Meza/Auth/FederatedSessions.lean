import Meza.Auth.SessionSteps
import Meza.Lib.Rights

/-! # Federated sessions

    A shadow user gets tokens from `FederationJoin` and `FederationRefresh`, for
    an assertion of his origin server whose id is consumed. His refresh tokens
    are rows of the table that `RefreshToken` consumes as well, which knows
    nothing of assertions. -/

namespace Meza.Auth.Sessions
open List Rights Phase Run Passes Sessions Function

open Aead (Bytes)
open Store (ID)

/-! ## Section 1: Presentations -/

/-- An id, and the time at which it was consumed. -/
abbrev Key := Bytes × Nat

def Presentation.key (x : Presentation) : Key := (x.assertion.jti, x.consumedAt)

def consumptions (log : List Act) : List Key :=
  log.filterMap fun a => match a with
    | .consumedJTI jti n => some (jti, n)
    | _ => none

/-- What pairs were issued for, once for each pair. -/
def presentations (log : List Act) : List Key :=
  log.filterMap fun a => match a with
    | .issued source _ _ => source.presentation.map Presentation.key
    | _ => none

/-- What is presented and not used. -/
def shownBooks : Books State Phase Key where
  known s k := k ∈ consumptions s.log
  stock _ _ := False
  spent s k := k ∈ presentations s.log
  holds p k := ∃ x, p.presents = some x ∧ x.key = k

/-- An id is not consumed again within two minutes. -/
def Apart (later earlier : Key) : Prop := later.1 = earlier.1 → earlier.2 + 120 < later.2

/-- A pair of a shadow user was issued for an assertion of his origin server. -/
def Vouched (s : State) : Prop :=
  ∀ source access refresh, .issued source access refresh ∈ s.log →
    ∀ homeServer remoteUserID, s.IsShadow access.userID homeServer remoteUserID →
      access.isFederated = true ∧ ∃ x, source.presentation = some x ∧ s.Presented x ∧
        x.assertion.issuer = homeServer ∧ x.assertion.userID = remoteUserID

structure StaysFederated (s : State) : Prop where
  vouched : Vouched s
  /-- An assertion that is consumed is good for one pair. -/
  once : (presentations s.log).Nodup
  apart : (consumptions s.log).Pairwise Apart

/-- `RefreshToken` issues no pair for a federated user. -/
def refreshesLocal (s : State) (_ : List Phase) (p : Phase) (o : Outcome) : Prop :=
  match p with
  | .generating userID _ (.refresh _) =>
    o.reply = .ok → s.jtiDrawn o.accessJTI = false → s.jtiDrawn o.refreshJTI = false →
      ∀ u, s.userByID userID = some u → u.isFederated = false
  | _ => True

abbrev RefreshesLocal : Pooled → Event → Prop :=
  Pool.Allows (fun _ _ => True) refreshesLocal

/-! ## Section 2: One step -/

section Step

variable {s s' : State} {o : Outcome} {p p' : Phase}

theorem consumptions_revoked (ds : List ID) (log : List Act) :
    consumptions (ds.map .revoked ++ log) = consumptions log ∧
      presentations (ds.map .revoked ++ log) = presentations log := by
  induction ds with
  | nil => exact ⟨rfl, rfl⟩
  | cons d ds ih => exact ih

/-- Nothing is consumed, and no pair is issued. -/
structure NoneShown (s : State) (p : Phase) (s' : State) (p' : Phase) : Prop where
  consumptions : consumptions s'.log = consumptions s.log
  presentations : presentations s'.log = presentations s.log
  usedJTI : s'.usedJTI = s.usedJTI
  holds : ∀ x ∈ p'.presents, x ∈ p.presents

theorem NoneShown.of_log (hlog : s'.log = s.log) (hused : s'.usedJTI = s.usedJTI)
    (hholds : ∀ x ∈ p'.presents, x ∈ p.presents) : NoneShown s p s' p' := by
  refine ⟨?_, ?_, hused, hholds⟩
  · rw [hlog]
  · rw [hlog]

/-- What a step does to presentations. -/
theorem Effect.shown (h : Effect s o p s' p') :
    NoneShown s p s' p' ∨
      (∃ jti, (∀ expiry, s.usedJTI jti = some expiry → expiry < s.now) ∧
        consumptions s'.log = (jti, s.now) :: consumptions s.log ∧
        presentations s'.log = presentations s.log ∧
        s'.usedJTI = update s.usedJTI jti (some (s.now + 120)) ∧
        ∀ x ∈ p'.presents, x.key = (jti, s.now)) ∨
      (∃ u d source, p = .generating u d source ∧
        consumptions s'.log = consumptions s.log ∧
        presentations s'.log =
          (source.presentation.map Presentation.key).toList ++ presentations s.log ∧
        s'.usedJTI = s.usedJTI ∧ p'.presents = none) := by
  cases h with
  | quiet hquiet hkeeps _ => exact .inl (.of_log hquiet.log hquiet.usedJTI hkeeps.presents)
  | revoked hquiet _ =>
    left
    refine ⟨?_, ?_, hquiet.usedJTI, by simp [presents]⟩
    · show consumptions (_ ++ (s.atSuccess o p).log) = _
      rw [(consumptions_revoked _ _).1, hquiet.log]
    · show presentations (_ ++ (s.atSuccess o p).log) = _
      rw [(consumptions_revoked _ _).2, hquiet.log]
  | hashed _ _ _ _ _ hpresents _ => exact .inl ⟨rfl, rfl, rfl, by simp [hpresents]⟩
  | created _ hgoes | recovered hgoes =>
    left
    refine ⟨rfl, rfl, rfl, ?_⟩
    rcases hgoes with rfl | rfl
    · simp [presents]
    · simp [presents, Source.presentation]
  | opened _ _ hgoes =>
    left
    refine ⟨rfl, rfl, rfl, ?_⟩
    rcases hgoes with rfl | rfl
    · exact fun _ hx => hx
    · exact fun _ hx => hx
  | @upserted u d _ _ _ hkeeps _ =>
    obtain ⟨l, hl⟩ := upsertDevice_eq s d u
    rw [hl]
    exact .inl ⟨rfl, rfl, rfl, hkeeps.presents⟩
  | @drew u _ d _ _ =>
    obtain ⟨l, hl⟩ := upsertDevice_eq (s.record (.opened d u)) d u
    rw [hl]
    exact .inl ⟨rfl, rfl, rfl, by simp [presents]⟩
  | @issued u d source _ _ _ =>
    right
    right
    refine ⟨u, d, source, rfl, rfl, ?_, rfl, rfl⟩
    rcases hshown : source.presentation with _ | x
    · simp [presentations, State.record, hshown]
    · simp [presentations, State.record, hshown]
  | stored hstored =>
    obtain ⟨-, rfl⟩ := storeRefreshToken_cases hstored
    exact .inl ⟨rfl, rfl, rfl, by simp [presents]⟩
  | consumed hconsumed hgoes =>
    obtain ⟨-, -, -, rfl⟩ := consumeRefreshToken_cases hconsumed
    left
    refine ⟨rfl, rfl, rfl, ?_⟩
    rcases hgoes with rfl | ⟨rfl, rfl⟩ | ⟨x, rfl, rfl⟩
    · simp [presents]
    · simp [presents, Source.presentation]
    · exact fun _ hx => hx
  | @consumedJTI a _ _ _ hconsumed hgoes =>
    obtain ⟨hfree, rfl⟩ := consumeJTI_cases hconsumed
    right
    left
    -- `SETNX` succeeds on an id that is free, and the call then holds the presentation
    refine ⟨a.jti, hfree, rfl, rfl, rfl, ?_⟩
    rcases hgoes with rfl | ⟨n, -, rfl⟩ | ⟨t, n, -, rfl⟩
    · simp [presents]
    · rintro x ⟨⟩
      rfl
    · rintro x ⟨⟩
      rfl
  | joined _ hgoes =>
    left
    refine ⟨rfl, rfl, rfl, ?_⟩
    rcases hgoes with rfl | rfl
    · simp [presents]
    · exact fun _ hx => hx
  | @accepted t rpc _ =>
    left
    refine ⟨rfl, rfl, rfl, ?_⟩
    cases rpc <;> simp [handler, presents]
  | changed hchanged =>
    obtain ⟨-, rfl⟩ := changePassword_cases hchanged
    exact .inl ⟨rfl, rfl, rfl, by simp [presents]⟩

/-- What was consumed is in Redis, unless its time has passed. -/
def Remembered (s : State) : Prop :=
  ∀ k ∈ consumptions s.log, ∃ expiry, s.usedJTI k.1 = some expiry ∧ k.2 + 120 ≤ expiry

/-- An id that is free was consumed long ago. -/
theorem Remembered.apart (h : Remembered s) {jti : Bytes}
    (hfree : ∀ expiry, s.usedJTI jti = some expiry → expiry < s.now) :
    ∀ k ∈ consumptions s.log, Apart (jti, s.now) k := by
  intro k hk hjti
  obtain ⟨expiry, hexpiry, hle⟩ := h k hk
  have hlt := hfree expiry (by rw [← hexpiry]; exact congrArg s.usedJTI hjti)
  show k.2 + 120 < s.now
  omega

theorem Remembered.not_known (h : Remembered s) {jti : Bytes}
    (hfree : ∀ expiry, s.usedJTI jti = some expiry → expiry < s.now) :
    (jti, s.now) ∉ consumptions s.log := by
  intro hmem
  have hapart := h.apart hfree _ hmem rfl
  omega

theorem Effect.passesShown (h : Effect s o p s' p') (hremembered : Remembered s)
    (hI : ∀ k, Rights.Sound shownBooks s k) (hL : ∀ k, Rights.Rightful shownBooks s p k)
    (k : Key) : Passes shownBooks s p s' p' k := by
  rcases h.shown with hnone | ⟨jti, hfree, hconsumed, hpairs, -, hholds⟩ |
    ⟨u, d, source, rfl, hconsumed, hpairs, -, hholds⟩
  · refine same (hI k) (hL k) ?_ (fun hstock => hstock) ?_ ?_
    · simp only [shownBooks, hnone.consumptions]
    · simp only [shownBooks, hnone.presentations]
    · rintro ⟨x, hx, hkey⟩
      exact ⟨x, hnone.holds x hx, hkey⟩
  · by_cases hk : k = (jti, s.now)
    · subst hk
      -- Redis forgets an id only when it is too old to be accepted again
      have hnew := hremembered.not_known hfree
      refine grant hnew ?_ (fun hstock => hstock) ?_
      · show _ ∈ consumptions s'.log
        rw [hconsumed]
        exact mem_cons_self
      · intro hspent
        have hspent' : _ ∈ presentations s'.log := hspent
        rw [hpairs] at hspent'
        exact hnew ((hI _).spent_known hspent')
    · refine same (hI k) (hL k) ?_ (fun hstock => hstock) ?_ ?_
      · simp only [shownBooks, hconsumed, mem_cons, hk, false_or]
      · simp only [shownBooks, hpairs]
      · rintro ⟨x, hx, rfl⟩
        exact absurd (hholds x hx) hk
  · have hnot : ¬ shownBooks.holds p' k := by
      rintro ⟨x, hx, -⟩
      have hx' : p'.presents = some x := hx
      rw [hholds] at hx'
      cases hx'
    by_cases hk : ∃ x, source.presentation = some x ∧ x.key = k
    · refine spend (hL k) hk ?_ (fun hstock => hstock) hnot
      simp only [shownBooks, hconsumed]
      exact id
    · refine same (hI k) (hL k) ?_ (fun hstock => hstock) ?_
        fun hholds' => absurd hholds' hnot
      · simp only [shownBooks, hconsumed]
      · simp only [shownBooks, hpairs, mem_append, Option.mem_toList,
          Option.map_eq_some_iff, hk, false_or]

end Step

/-! ## Section 3: What every run keeps -/

structure Shown (s : Pooled) : Prop where
  sound : Sound s
  rights : Kept shownBooks s
  remembered : Remembered s.shared
  once : (presentations s.shared.log).Nodup
  apart : (consumptions s.shared.log).Pairwise Apart

theorem Shown.perm : Pool.OrderFree Shown := by
  intro s l l' hperm h
  exact { h with
    sound := .perm s l l' hperm h.sound
    rights := .perm s l l' hperm h.rights }

theorem Shown.start : Pool.StartKeeps begin Shown := by
  intro s calls call h
  refine { h with sound := .start s calls call h.sound, rights := h.rights.start ?_ }
  rintro k ⟨x, hx, -⟩
  rw [(begin_free call).presents] at hx
  cases hx

theorem Shown.next : Pool.NextKeeps next Shown := by
  intro s p others o s' p' h hnext
  have heffect := next_effect hnext
  have hremembered : Remembered s := h.remembered
  have hrightful : ∀ k, Rightful shownBooks s p k := h.rights.each p mem_cons_self
  have hsound := Sound.next s p others o s' p' h.sound hnext
  have hrights : Kept shownBooks { shared := s', calls := p' :: others } :=
    h.rights.pass (heffect.passesShown hremembered h.rights.shared hrightful)
  have honce : (presentations s.log).Nodup := h.once
  have hapart : (consumptions s.log).Pairwise Apart := h.apart
  rcases heffect.shown with hnone | ⟨jti, hfree, hconsumed, hpairs, hused, -⟩ |
    ⟨u, d, source, rfl, hconsumed, hpairs, hused, -⟩
  · refine ⟨hsound, hrights, ?_, ?_, ?_⟩
    · simp only [Remembered, hnone.consumptions, hnone.usedJTI]
      exact hremembered
    · simp only [hnone.presentations]
      exact honce
    · simp only [hnone.consumptions]
      exact hapart
  · refine ⟨hsound, hrights, ?_, ?_, ?_⟩
    · simp only [Remembered, hconsumed, hused]
      intro k hk
      rcases mem_cons.mp hk with rfl | hk
      · exact ⟨s.now + 120, by rw [update_self], Nat.le_refl _⟩
      · by_cases hjti : k.1 = jti
        · -- the entry is renewed
          have hlt := hremembered.apart hfree k hk hjti.symm
          refine ⟨s.now + 120, by rw [hjti, update_self], ?_⟩
          omega
        · rw [update_of_ne hjti]
          exact hremembered k hk
    · simp only [hpairs]
      exact honce
    · simp only [hconsumed]
      exact pairwise_cons.mpr ⟨hremembered.apart hfree, hapart⟩
  · refine ⟨hsound, hrights, ?_, ?_, ?_⟩
    · simp only [Remembered, hconsumed, hused]
      exact hremembered
    · simp only [hpairs]
      rcases hshown : source.presentation with _ | x
      · exact honce
      · refine nodup_cons.mpr ⟨?_, honce⟩
        exact (hrightful x.key).spent ⟨x, hshown, rfl⟩
    · simp only [hconsumed]
      exact hapart

theorem Shown.init (originURL instanceURL : String) : Shown (initial originURL instanceURL) := by
  refine ⟨.init originURL instanceURL, .init fun k => ⟨?_, ?_, ?_⟩, ?_, nodup_nil, .nil⟩
  · exact fun hstock => absurd hstock id
  · exact fun hstock => absurd hstock id
  · exact fun hspent => absurd hspent not_mem_nil
  · exact fun k hk => absurd hk not_mem_nil

theorem shown_exec (originURL instanceURL : String) (evs : List Event) :
    Shown (exec step (initial originURL instanceURL) evs) :=
  Pool.keeps_always Shown.perm Shown.start Shown.next (.init originURL instanceURL) evs

/-! ## Section 4: The condition -/

section Condition

variable {s s' : State} {o : Outcome} {p p' : Phase}

theorem Effect.issuedActs (h : Effect s o p s' p') {source : Source} {access refresh : Token}
    (hissued : .issued source access refresh ∈ s'.log) :
    .issued source access refresh ∈ s.log ∨
      ∃ u d, p = .generating u d source ∧ access = s.accessClaims o u d source ∧
        o.reply = .ok ∧ s.jtiDrawn o.accessJTI = false ∧ s.jtiDrawn o.refreshJTI = false := by
  rcases h.acts with hlog | ⟨a, hlog, hact⟩ | ⟨rfl, -, hlog⟩
  · rw [hlog] at hissued
    exact .inl hissued
  · rw [hlog] at hissued
    rcases mem_cons.mp hissued with rfl | hold
    · exact .inr hact
    · exact .inl hold
  · rcases mem_append.mp hissued with hnew | hold
    · simp at hnew
    · rw [hlog] at hold
      exact .inl hold

variable {remoteUserID u : ID} {homeServer : String}

/-- Who is known was who he is before. -/
theorem IsShadow.old (hgrows : s.Grows s') (hknown : (s.userByID u).isSome = true)
    (h : s'.IsShadow u homeServer remoteUserID) : s.IsShadow u homeServer remoteUserID := by
  obtain ⟨x, hx⟩ := Option.isSome_iff_exists.mp hknown
  obtain ⟨y, hy, hmatch⟩ := h
  have hsame : some x = some y := (hgrows.users u x hx).symm.trans hy
  cases hsame
  exact ⟨x, hx, hmatch⟩

theorem not_isShadow_of_isLocal (hlocal : s.IsLocal u) :
    ¬ s.IsShadow u homeServer remoteUserID := by
  rintro ⟨x, hx, hfederated, -⟩
  obtain ⟨y, hy, hnot⟩ := hlocal
  rw [hx] at hy
  cases hy
  rw [hfederated] at hnot
  cases hnot

theorem presentation_of_vouches {source : Source} (hvouched : s.Vouches u source)
    (hshadow : s.IsShadow u homeServer remoteUserID) (hrefresh : ∀ t, source ≠ .refresh t) :
    source.isFederated = true ∧ ∃ x, source.presentation = some x ∧ s.Presented x ∧
      x.assertion.issuer = homeServer ∧ x.assertion.userID = remoteUserID := by
  have hmatch : ∀ {x : Presentation}, s.IsShadow u x.assertion.issuer x.assertion.userID →
      x.assertion.issuer = homeServer ∧ x.assertion.userID = remoteUserID := by
    rintro x ⟨y, hy, -, hserver, hremote⟩
    obtain ⟨z, hz, -, hserver', hremote'⟩ := hshadow
    rw [hy] at hz
    cases hz
    exact ⟨hserver.symm.trans hserver', hremote.symm.trans hremote'⟩
  cases source with
  | login | recovery => exact absurd hshadow (not_isShadow_of_isLocal hvouched)
  | refresh t => exact absurd rfl (hrefresh t)
  | join x | federationRefresh t x => exact ⟨rfl, x, rfl, hvouched.1, hmatch hvouched.2⟩

theorem vouched_next {others : List Phase} (hledger : Ledger s) (htrue : p.Truthful s)
    (h : Vouched s) (hnext : next s others p o = some (s', p')) :
    Vouched s' ↔ refreshesLocal s others p o := by
  have heffect := next_effect hnext
  constructor
  · intro hvouched
    cases p with
    | generating u d source =>
      cases source with
      | refresh t =>
        intro hreply haccess hrefresh x hx
        by_contra hfederated
        have hissued : .issued (.refresh t) (s.accessClaims o u d (.refresh t))
            (s.refreshClaims o u d (.refresh t)) ∈ s'.log := by
          simp only [next, loginStep, hreply, haccess, hrefresh, ne_eq, not_true,
            if_false, Bool.false_eq_true, or_self, Option.some.injEq, Prod.mk.injEq] at hnext
          rw [← hnext.1]
          exact mem_cons_self
        have hshadow : s.IsShadow u x.homeServer x.remoteUserID :=
          ⟨x, hx, Bool.eq_true_of_not_eq_false hfederated, rfl, rfl⟩
        obtain ⟨-, shown, hshown, -⟩ :=
          hvouched _ _ _ hissued _ _ (heffect.grows.isShadow hshadow)
        cases hshown
      | _ => trivial
    | _ => trivial
  · intro hlocal source access refresh hissued homeServer remoteUserID hshadow
    have hgrows := heffect.grows
    rcases heffect.issuedActs hissued with hold | ⟨u, d, rfl, rfl, hreply, haccess, hrefresh⟩
    · have hknown := known_of_vouches (hledger.acts _ hold).1.vouched
      obtain ⟨hfederated, x, hx, hpresented, hmatch⟩ :=
        h source access refresh hold homeServer remoteUserID (IsShadow.old hgrows hknown hshadow)
      exact ⟨hfederated, x, hx, hgrows.presented hpresented, hmatch⟩
    · have hentitled : s.Entitles u d source := htrue
      have hshadow' := IsShadow.old hgrows (known_of_vouches hentitled.vouched) hshadow
      have hnot : ∀ t, source ≠ .refresh t := by
        rintro t rfl
        obtain ⟨x, hx, hfederated, -⟩ := hshadow'
        have hno := hlocal hreply haccess hrefresh x hx
        rw [hfederated] at hno
        cases hno
      obtain ⟨hfederated, x, hx, hpresented, hmatch⟩ :=
        presentation_of_vouches hentitled.vouched hshadow' hnot
      exact ⟨hfederated, x, hx, hgrows.presented hpresented, hmatch⟩

theorem refreshesLocal_of_waiting {others : List Phase}
    (h : next s others p o = none) : refreshesLocal s others p o := by
  cases p with
  | generating u d source =>
    cases source with
    | refresh t =>
      intro hreply haccess hrefresh
      simp [next, loginStep, hreply, haccess, hrefresh] at h
    | _ => trivial
  | _ => trivial

end Condition

/-! ## Section 5: Runs -/

theorem vouched_step (s : Pooled) (ev : Event) (hshown : Shown s) (h : Vouched s.shared) :
    Vouched (step s ev).shared ↔ RefreshesLocal s ev :=
  Pool.event_iff (J := Shown) (I := fun t : Pooled => Vouched t.shared) Shown.perm
    (fun _ _ _ _ hI => hI) (fun _ _ _ hI => hI)
    (fun _ _ _ _ hwaits => refreshesLocal_of_waiting hwaits)
    (fun _ _ _ _ _ _ hJ hI hnext =>
      vouched_next hJ.sound.shared (hJ.sound.each _ mem_cons_self) hI hnext) s ev hshown h

theorem shown_step (s : Pooled) (ev : Event) (h : Shown s) : Shown (step s ev) :=
  Pool.keeps_event Shown.perm Shown.start Shown.next s ev h

def emmasAssertion : Assertion :=
  { issuer := "https://meza.chat", userID := "emma", audience := "https://spoke.example"
    jti := [1], expiresAt := some 60 }

def emmasRefresh : Token :=
  { jti := [3], userID := "shadow", deviceID := "federation_1", isRefresh := true
    isFederated := true, expiresAt := 2592000 }

/-- A remote user joins, and gives the refresh token to `RefreshToken`. -/
def refreshesAsLocal : List Event :=
  [.start (.federationJoin emmasAssertion),
   .advance 0 {}, .advance 0 {}, .advance 0 { userID := "shadow" },
   .advance 0 { deviceID := "federation_1" }, .advance 0 { accessJTI := [2], refreshJTI := [3] },
   .advance 0 {},
   .start (.refreshToken emmasRefresh), .advance 1 {}, .advance 1 {},
   .advance 1 { accessJTI := [4], refreshJTI := [5] }]

end Meza.Auth.Sessions
