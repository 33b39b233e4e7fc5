import Meza.Auth.Sessions

/-! # The steps of a session

    `next_effect` says what one step of any call does to the service, and what
    the call has in hand afterwards. The ledger is what every run keeps: who
    a token was issued to, that its device was opened for its user, and what
    was presented for it. -/

namespace Meza.Auth.Sessions
open List Option Function

open Aead (Bytes)
open Store (ID)

/-! ## Section 1: What calls have in hand -/

/-- The device that the call is about to issue tokens for, or to store one of. -/
def Phase.issues : Phase → Option ID
  | .upserting _ d _ | .generating _ d _ => some d
  | .storing t => some t.deviceID
  | _ => none

/-- The refresh token that was given for a pair. -/
def Phase.spends : Phase → Option Token
  | .opening _ source | .upserting _ _ source | .generating _ _ source => source.token
  | _ => none

/-- The hash that the call will write. -/
def Phase.hash : Phase → Option Hash
  | .registering _ _ h | .changing _ _ _ h | .recoverLocking _ _ _ _ h | .recoverUpdating _ _ _ h
  | .recoverDeleting _ _ _ h | .recoverCommitting _ _ h _ => some h
  | _ => none

/-- The refresh token that the call will store. -/
def Phase.stores : Phase → Option Token
  | .storing t => some t
  | _ => none

/-- What was presented for the pair. -/
def Source.presentation : Source → Option Presentation
  | .join x | .federationRefresh _ x => some x
  | .login | .recovery | .refresh _ => none

/-- What was presented to the call, and has not been used for a pair. -/
def Phase.presents : Phase → Option Presentation
  | .joining x | .federationLooking _ x | .federationConsuming _ x => some x
  | .opening _ source | .upserting _ _ source | .generating _ _ source => source.presentation
  | _ => none

/-- The call has nothing in hand. -/
structure Phase.Free (p : Phase) : Prop where
  issues : p.issues = none
  spends : p.spends = none
  hash : p.hash = none
  stores : p.stores = none
  presents : p.presents = none

/-- What the call has in hand it had in hand before. -/
structure Phase.Keeps (p p' : Phase) : Prop where
  issues : ∀ d ∈ p'.issues, d ∈ p.issues
  spends : ∀ t ∈ p'.spends, t ∈ p.spends
  hash : ∀ h ∈ p'.hash, h ∈ p.hash
  stores : ∀ t ∈ p'.stores, t ∈ p.stores
  presents : ∀ x ∈ p'.presents, x ∈ p.presents

variable {d u : ID} {k p : Phase} {source : Source} {t : Token}

theorem Phase.Free.keeps {p' : Phase} (h : p'.Free) : p.Keeps p' where
  issues := by simp [h.issues]
  spends := by simp [h.spends]
  hash := by simp [h.hash]
  stores := by simp [h.stores]
  presents := by simp [h.presents]

/-! ## Section 2: The ledger -/

def State.Opened (s : State) (deviceID : ID) : Prop := ∃ u, .opened deviceID u ∈ s.log

def State.IsLocal (s : State) (userID : ID) : Prop :=
  ∃ u, s.userByID userID = some u ∧ u.isFederated = false

/-- The shadow user of a remote user. -/
def State.IsShadow (s : State) (userID : ID) (homeServer : String) (remoteUserID : ID) : Prop :=
  ∃ u, s.userByID userID = some u ∧ u.isFederated = true ∧ u.homeServer = homeServer ∧
    u.remoteUserID = remoteUserID

/-- An assertion was valid when it was verified, and its id was consumed. -/
structure State.Presented (s : State) (x : Presentation) : Prop where
  valid : x.assertion.valid s.originURL s.instanceURL x.verifiedAt = true
  consumed : .consumedJTI x.assertion.jti x.consumedAt ∈ s.log

/-- The user is who the pair is issued to. -/
def State.Vouches (s : State) (userID : ID) : Source → Prop
  | .login | .recovery => s.IsLocal userID
  | .refresh _ => (s.userByID userID).isSome = true
  | .join x | .federationRefresh _ x =>
    s.Presented x ∧ s.IsShadow userID x.assertion.issuer x.assertion.userID

/-- The pair is issued to the user, on a device of his. -/
structure State.Entitles (s : State) (userID deviceID : ID) (source : Source) : Prop where
  opened : .opened deviceID userID ∈ s.log
  vouched : s.Vouches userID source
  token : ∀ t ∈ source.token, t.userID = userID ∧ t.deviceID = deviceID

/-- An act was in order. -/
def State.Records (s : State) : Act → Prop
  | .opened d _ => d ≠ ""
  | .issued source access refresh =>
    s.Entitles access.userID access.deviceID source ∧ access.isFederated = source.isFederated ∧
      refresh ∈ s.signed
  | .revoked d => s.Opened d
  | _ => True

structure State.Signs (s : State) (t : Token) : Prop where
  opened : .opened t.deviceID t.userID ∈ s.log
  known : (s.userByID t.userID).isSome = true
  expires : t.isRefresh = false → t.expiresAt ≤ s.now + accessTokenExpiry

structure State.Stores (s : State) (r : RefreshRow) : Prop where
  signed : r.token ∈ s.signed
  userID : r.userID = r.token.userID
  deviceID : r.deviceID = r.token.deviceID

structure Ledger (s : State) : Prop where
  acts : ∀ a ∈ s.log, s.Records a
  ids : ∀ x ∈ s.users, s.userByID x.id = some x
  signed : ∀ t ∈ s.signed, s.Signs t
  cache : ∀ t ∈ s.cache, t ∈ s.signed
  rows : ∀ r ∈ s.refreshTokens, s.Stores r
  devices : ∀ d ∈ s.devices, s.Opened d.id
  userAuth : ∀ u, (s.userAuth u).isSome = true → s.IsLocal u

/-- What a call says is true. -/
def Phase.Truthful (s : State) : Phase → Prop
  | .opening u source => s.Vouches u source ∧ source.token = none
  | .upserting u d source | .generating u d source => s.Entitles u d source
  | .storing t | .consuming t | .federationVerifying t _ => t ∈ s.signed
  | .joinConsuming a verifiedAt => a.valid s.originURL s.instanceURL verifiedAt = true
  | .joining x => s.Presented x
  | .federationConsumingJTI t a verifiedAt =>
    t ∈ s.signed ∧ a.valid s.originURL s.instanceURL verifiedAt = true
  | .federationLooking t x => t ∈ s.signed ∧ s.Presented x
  | .federationConsuming t x => t ∈ s.signed ∧ s.Vouches t.userID (.federationRefresh t x)
  | .checking t _ => t ∈ s.signed ∧ t.isRefresh = false
  | .logoutDeleting _ d | .logoutBlocking d | .registeringDevice _ d | .revokeBlocking d =>
    s.Opened d
  | .othersBlocking revoked _ => ∀ d ∈ revoked, s.Opened d
  | .recoverUpdating u _ _ _ | .recoverDeleting u _ _ _ | .recoverCommitting u _ _ _ =>
    (s.userAuth u).isSome = true
  | _ => True

/-- Nothing that a call may say is forgotten. -/
structure State.Grows (s s' : State) : Prop where
  log : ∀ a ∈ s.log, a ∈ s'.log
  signed : ∀ t ∈ s.signed, t ∈ s'.signed
  users : ∀ u x, s.userByID u = some x → s'.userByID u = some x
  userAuth : ∀ u, (s.userAuth u).isSome = true → (s'.userAuth u).isSome = true
  origin : s'.originURL = s.originURL
  instanceU : s'.instanceURL = s.instanceURL

section Grows

variable {s s' : State} (h : s.Grows s')
include h

theorem State.Grows.known (hknown : (s.userByID u).isSome = true) :
    (s'.userByID u).isSome = true := by
  obtain ⟨x, hx⟩ := isSome_iff_exists.mp hknown
  rw [h.users u x hx]
  rfl

theorem State.Grows.isLocal (hlocal : s.IsLocal u) : s'.IsLocal u := by
  obtain ⟨x, hx, hlocal⟩ := hlocal
  exact ⟨x, h.users u x hx, hlocal⟩

theorem State.Grows.isShadow {remoteUserID : ID} {homeServer : String}
    (hshadow : s.IsShadow u homeServer remoteUserID) : s'.IsShadow u homeServer remoteUserID := by
  obtain ⟨x, hx, hmatch⟩ := hshadow
  exact ⟨x, h.users u x hx, hmatch⟩

theorem State.Grows.opened {d : ID} (hopened : s.Opened d) : s'.Opened d := by
  obtain ⟨u, hu⟩ := hopened
  exact ⟨u, h.log _ hu⟩

theorem State.Grows.valid {a : Assertion} {verifiedAt : Nat}
    (hvalid : a.valid s.originURL s.instanceURL verifiedAt = true) :
    a.valid s'.originURL s'.instanceURL verifiedAt = true := by
  rw [h.origin, h.instanceU]
  exact hvalid

theorem State.Grows.presented {x : Presentation} (hp : s.Presented x) : s'.Presented x where
  valid := h.valid hp.valid
  consumed := h.log _ hp.consumed

theorem State.Grows.vouches (hv : s.Vouches u source) : s'.Vouches u source := by
  have hshadow : ∀ {x : Presentation},
      s.Presented x ∧ s.IsShadow u x.assertion.issuer x.assertion.userID →
        s'.Presented x ∧ s'.IsShadow u x.assertion.issuer x.assertion.userID := by
    rintro x ⟨hpresented, hshadow⟩
    exact ⟨h.presented hpresented, h.isShadow hshadow⟩
  cases source with
  | login | recovery => exact h.isLocal hv
  | refresh t => exact h.known hv
  | join | federationRefresh => exact hshadow hv

theorem State.Grows.entitles (he : s.Entitles u d source) : s'.Entitles u d source where
  opened := h.log _ he.opened
  vouched := h.vouches he.vouched
  token := he.token

theorem Phase.Truthful.mono (ht : p.Truthful s) : p.Truthful s' := by
  cases p with
  | opening u source => exact ⟨h.vouches ht.1, ht.2⟩
  | upserting | generating => exact h.entitles ht
  | storing t | consuming t | federationVerifying t a => exact h.signed t ht
  | joinConsuming a n => exact h.valid ht
  | joining x => exact h.presented ht
  | federationConsumingJTI t a n => exact ⟨h.signed t ht.1, h.valid ht.2⟩
  | federationLooking t x => exact ⟨h.signed t ht.1, h.presented ht.2⟩
  | federationConsuming t x => exact ⟨h.signed t ht.1, h.vouches ht.2⟩
  | checking t rpc => exact ⟨h.signed t ht.1, ht.2⟩
  | logoutDeleting | logoutBlocking | registeringDevice | revokeBlocking => exact h.opened ht
  | othersBlocking revoked remaining => exact fun d hd => h.opened (ht d hd)
  | recoverUpdating u excluded c hash | recoverDeleting u excluded c hash
  | recoverCommitting u c hash deleted => exact h.userAuth u ht
  | _ => trivial

end Grows

/-! ## Section 3: What a step does -/

/-- An access token has expired, or its device is blocked until it expires. -/
def State.Covered (s : State) (t : Token) : Prop :=
  t.expiresAt < s.now ∨ ∃ expiry ∈ s.blocked t.deviceID, t.expiresAt ≤ expiry

/-- No call has achieved anything, and nothing has been added. -/
structure State.Quiet (s s' : State) : Prop where
  log : s'.log = s.log
  signed : s'.signed = s.signed
  users : s'.users = s.users
  userAuth : s'.userAuth = s.userAuth
  usedJTI : s'.usedJTI = s.usedJTI
  origin : s'.originURL = s.originURL
  instanceU : s'.instanceURL = s.instanceURL
  now : s.now ≤ s'.now
  rows : s'.refreshTokens.Sublist s.refreshTokens
  devices : ∀ d ∈ s'.devices, d ∈ s.devices
  cache : ∀ t ∈ s'.cache, t ∈ s.cache ∨ t ∈ s.signed
  covered : ∀ t, t.expiresAt ≤ s.now + accessTokenExpiry → s.Covered t → s'.Covered t

/-- The devices whose revocation the step makes a success. -/
def Phase.revokes (o : Outcome) : Phase → List ID
  | .logoutBlocking d => [d]
  | .revokeBlocking d => if o.reply = .ok then [d] else []
  | .othersBlocking revoked [] => revoked
  | _ => []

/-- The state in which it does. -/
def State.atSuccess (s : State) (o : Outcome) : Phase → State
  | .logoutBlocking d | .revokeBlocking d => s.afterBlock o d
  | _ => s

inductive Effect (s : State) (o : Outcome) : Phase → State → Phase → Prop where
  | quiet {p p' : Phase} {s' : State} (quiet : s.Quiet s') (keeps : p.Keeps p')
      (truthful : Ledger s → p.Truthful s → p'.Truthful s) : Effect s o p s' p'
  | hashed {p p' : Phase} {h : Hash} (fresh : s.hashDrawn h = false) (issues : p'.issues = none)
      (spends : p'.spends = none) (hash : p'.hash = some h) (stores : p'.stores = none)
      (presents : p'.presents = none) (truthful : ∀ s', p'.Truthful s') :
      Effect s o p (s.record (.hashed h)) p'
  | created {u : ID} {c : NewCredentials} {h : Hash} {p' : Phase} (fresh : s.userByID u = none)
      (goesOn : p' = .returned ∨ p' = .opening u .login) :
      Effect s o (.registering u c h)
        ((s.createUser u (c.row h)).record (.wrote u none (c.row h))) p'
  | opened {u d : ID} {source : Source} {p' : Phase} (named : d ≠ "")
      (fresh : s.deviceOpened d = false)
      (goesOn : p' = .generating u d source ∨ p' = .upserting u d source) :
      Effect s o (.opening u source) (s.record (.opened d u)) p'
  | upserted {u d : ID} {p p' : Phase} (opened : p.Truthful s → s.Opened d) (keeps : p.Keeps p')
      (truthful : p.Truthful s → p'.Truthful s) : Effect s o p (s.upsertDevice d u) p'
  | drew {u d d' : ID} (named : d' ≠ "") (fresh : s.deviceOpened d' = false) :
      Effect s o (.registeringDevice u d) ((s.record (.opened d' u)).upsertDevice d' u) .returned
  | issued {u d : ID} {source : Source} (replied : o.reply = .ok)
      (access : s.jtiDrawn o.accessJTI = false) (refresh : s.jtiDrawn o.refreshJTI = false) :
      Effect s o (.generating u d source)
        (.record
          { s with
            signed := s.accessClaims o u d source :: s.refreshClaims o u d source :: s.signed }
          (.issued source (s.accessClaims o u d source) (s.refreshClaims o u d source)))
        (.storing (s.refreshClaims o u d source))
  | stored {t : Token} {s₁ : State} (stored : s.storeRefreshToken t = some s₁) :
      Effect s o (.storing t) (s₁.record (.stored t)) .returned
  | consumed {t : Token} {s₁ : State} {r : RefreshRow} {p p' : Phase}
      (consumed : s.consumeRefreshToken t = some (s₁, r))
      (goesOn : p' = .returned ∨
        (p = .consuming t ∧ p' = .generating r.userID r.deviceID (.refresh t)) ∨
        ∃ x, p = .federationConsuming t x ∧
          p' = .generating t.userID t.deviceID (.federationRefresh t x)) :
      Effect s o p s₁ p'
  | consumedJTI {a : Assertion} {s₁ : State} {p p' : Phase}
      (consumed : s.consumeJTI a.jti = some s₁)
      (goesOn : p' = .returned ∨ (∃ n, p = .joinConsuming a n ∧ p' = .joining ⟨a, n, s.now⟩) ∨
        ∃ t n, p = .federationConsumingJTI t a n ∧ p' = .federationLooking t ⟨a, n, s.now⟩) :
      Effect s o p (s₁.record (.consumedJTI a.jti s.now)) p'
  | joined {x : Presentation} {u : ID} {p' : Phase} (fresh : s.userByID u = none)
      (goesOn : p' = .returned ∨ p' = .opening u (.join x)) :
      Effect s o (.joining x)
        { s with
          users := { id := u, isFederated := true, homeServer := x.assertion.issuer
                     remoteUserID := x.assertion.userID } :: s.users } p'
  | accepted {t : Token} {rpc : RPC}
      (unblocked : t.deviceID ≠ "" → s.isDeviceBlocked t.deviceID = false) :
      Effect s o (.checking t rpc) (s.record (.accepted t)) (.handler t.userID t.deviceID rpc)
  | revoked {p : Phase} (quiet : s.Quiet (s.atSuccess o p))
      (opened : p.Truthful s → ∀ d ∈ p.revokes o, s.Opened d) :
      Effect s o p ((s.atSuccess o p).recordRevoked (p.revokes o)) .returned
  | changed {u : ID} {v : Hash} {c : NewCredentials} {h : Hash} {s₁ : State}
      (changed : s.changePassword u v (c.row h) = some s₁) :
      Effect s o (.changing u v c h) (s₁.record (.wrote u (some v) (c.row h))) .returned
  | recovered {u : ID} {c : NewCredentials} {h : Hash} {deleted : List Token} {p' : Phase}
      (goesOn : p' = .returned ∨ p' = .opening u .recovery) :
      Effect s o (.recoverCommitting u c h deleted)
        ((State.deleteRefreshTokens
          { s with userAuth := update s.userAuth u (some (c.row h)) }
          fun r => r.token ∈ deleted).record (.wrote u none (c.row h))) p'

section Quiet

variable (s : State)

theorem quiet_refl : s.Quiet s where
  log := rfl
  signed := rfl
  users := rfl
  userAuth := rfl
  usedJTI := rfl
  origin := rfl
  instanceU := rfl
  now := Nat.le_refl _
  rows := .refl _
  devices := fun _ h => h
  cache := fun _ h => .inl h
  covered := fun _ _ h => h

theorem blockDevice_quiet (d : ID) : s.Quiet (s.blockDevice d) := by
  refine { quiet_refl s with covered := ?_ }
  rintro t hexpires (hpast | ⟨expiry, hblocked, hle⟩)
  · exact .inl hpast
  · right
    by_cases hd : t.deviceID = d
    · refine ⟨s.now + accessTokenExpiry, ?_, hexpires⟩
      simp [State.blockDevice, hd]
    · refine ⟨expiry, ?_, hle⟩
      simp [State.blockDevice, update_of_ne hd, hblocked]

theorem afterBlock_quiet (o : Outcome) (d : ID) : s.Quiet (s.afterBlock o d) := by
  unfold State.afterBlock
  split
  · exact quiet_refl s
  · exact blockDevice_quiet s d

theorem wait_quiet (seconds : Nat) : s.Quiet { s with now := s.now + seconds } := by
  refine { quiet_refl s with now := Nat.le_add_right _ _, covered := ?_ }
  rintro t - (hpast | hblocked)
  · exact .inl (Nat.lt_of_lt_of_le hpast (Nat.le_add_right _ _))
  · exact .inr hblocked

theorem deleteDevices_quiet (p : Device → Bool) :
    s.Quiet { s with devices := s.devices.filter p } :=
  { quiet_refl s with devices := fun _ hd => mem_of_mem_filter hd }

theorem deleteRefreshTokens_quiet (p : RefreshRow → Bool) : s.Quiet (s.deleteRefreshTokens p) :=
  { quiet_refl s with rows := filter_sublist }

theorem cache_quiet (ht : t ∈ s.cache ∨ t ∈ s.signed) :
    s.Quiet { s with cache := t :: s.cache } := by
  refine { quiet_refl s with cache := ?_ }
  intro t' ht'
  rcases mem_cons.mp ht' with rfl | hmem
  · exact ht
  · exact .inl hmem

end Quiet

theorem free_of_returned : p.Keeps .returned :=
  Phase.Free.keeps ⟨rfl, rfl, rfl, rfl, rfl⟩

theorem command_cases {s s' t : State} {o : Outcome} {p' : Phase} (h : command s o t k = (s', p')) :
    (s' = s ∧ p' = .returned) ∨ (s' = t ∧ (p' = .returned ∨ p' = k)) := by
  unfold command at h
  split at h
  · cases h
    exact .inr ⟨rfl, .inr rfl⟩
  · cases h
    exact .inr ⟨rfl, .inl rfl⟩
  · cases h
    exact .inl ⟨rfl, rfl⟩

section Steps

variable {s s' : State} {p' : Phase} {o : Outcome}

theorem Effect.ends (hquiet : s.Quiet s') : Effect s o p s' .returned :=
  .quiet hquiet free_of_returned fun _ _ => trivial

theorem Effect.stops : Effect s o p s .returned := .ends (quiet_refl s)

theorem Effect.goes (hfree : p'.Free) (htruthful : Ledger s → p.Truthful s → p'.Truthful s) :
    Effect s o p s p' := .quiet (quiet_refl s) hfree.keeps htruthful

theorem Effect.command {t : State} (h : Sessions.command s o t k = (s', p')) (hquiet : s.Quiet t)
    (hkeeps : p.Keeps k) (htruthful : Ledger s → p.Truthful s → k.Truthful s) :
    Effect s o p s' p' := by
  rcases command_cases h with ⟨rfl, rfl⟩ | ⟨rfl, rfl | rfl⟩
  · exact .stops
  · exact .ends hquiet
  · exact Effect.quiet hquiet hkeeps htruthful

theorem Effect.statement {t : State} (h : Sessions.command s o t k = (s', p'))
    (heffect : ∀ q, q = .returned ∨ q = k → Effect s o p t q) : Effect s o p s' p' := by
  rcases command_cases h with ⟨rfl, rfl⟩ | ⟨rfl, hp'⟩
  · exact .stops
  · exact heffect p' hp'

theorem hashPassword_effect {c : NewCredentials} {k : Hash → Phase}
    (h : s.hashPassword o c k = some (s', p')) (hissues : ∀ h, (k h).issues = none)
    (hspends : ∀ h, (k h).spends = none) (hhash : ∀ h, (k h).hash = some h)
    (hstores : ∀ h, (k h).stores = none) (hpresents : ∀ h, (k h).presents = none)
    (htruthful : ∀ h s', (k h).Truthful s') : Effect s o p s' p' := by
  simp only [State.hashPassword] at h
  split at h
  · cases h
  · rename_i hfresh
    cases h
    exact .hashed (Bool.eq_false_iff.mpr hfresh) (hissues _) (hspends _) (hhash _)
      (hstores _) (hpresents _) (htruthful _)

theorem userByID_none (h : ¬ (s.userByID u).isSome = true) : s.userByID u = none := by
  rcases hu : s.userByID u with _ | x
  · rfl
  · simp [hu] at h

variable {others : List Phase}

theorem loginStep_effect (h : loginStep s others o p = some (s', p')) : Effect s o p s' p' := by
  cases p with
  | registerBegun c =>
    simp only [loginStep] at h
    split at h
    · cases h
      exact .stops
    · exact hashPassword_effect h (fun _ => rfl) (fun _ => rfl) (fun _ => rfl) (fun _ => rfl)
        (fun _ => rfl) fun _ _ => trivial
  | registering u c hash =>
    simp only [loginStep] at h
    split at h
    · cases h
      exact .stops
    · rename_i hfresh
      exact .statement (some.inj h) fun q hq =>
        .created (userByID_none hfresh) hq
  | loginBegun u authKey =>
    simp only [loginStep] at h
    split at h
    · cases h
      exact .stops
    · split at h
      · cases h
        exact .stops
      · rename_i r hr
        split at h
        · cases h
          refine .goes ⟨rfl, rfl, rfl, rfl, rfl⟩ fun hledger _ => ⟨?_, rfl⟩
          exact hledger.userAuth u (by rw [hr]; rfl)
        · cases h
          exact .stops
  | opening u source =>
    simp only [loginStep] at h
    split at h
    · cases h
    · rename_i hd
      push Not at hd
      cases h
      refine .opened hd.1 (Bool.eq_false_iff.mpr hd.2) ?_
      split
      · exact .inl rfl
      · exact .inr rfl
  | upserting u d source =>
    simp only [loginStep] at h
    split at h
    · cases h
    · have hopened (htrue : (Phase.upserting u d source).Truthful s) : s.Opened d :=
        ⟨u, htrue.opened⟩
      refine .statement (some.inj h) ?_
      rintro q (rfl | rfl)
      · exact .upserted hopened free_of_returned fun _ => trivial
      · exact .upserted hopened
          ⟨fun _ hd => hd, fun _ ht => ht, fun _ hh => hh, fun _ ht => ht, fun _ hx => hx⟩ id
  | generating u d source =>
    simp only [loginStep] at h
    split at h
    · cases h
      exact .stops
    · rename_i hreply
      split at h
      · cases h
      · rename_i hfresh
        push Not at hfresh
        cases h
        exact .issued (not_not.mp hreply) (Bool.eq_false_iff.mpr hfresh.1)
          (Bool.eq_false_iff.mpr hfresh.2)
  | storing t =>
    simp only [loginStep] at h
    split at h
    · cases h
    · split at h
      · cases h
        exact .stops
      · rename_i s₁ hstored
        refine .statement (some.inj h) ?_
        rintro q (rfl | rfl) <;> exact .stored hstored
  | _ => cases h

theorem consume_effect {k : RefreshRow → Phase} (h : consume s others o t k = some (s', p'))
    (hk : ∀ r, (p = .consuming t ∧ k r = .generating r.userID r.deviceID (.refresh t)) ∨
    ∃ x, p = .federationConsuming t x ∧
    k r = .generating t.userID t.deviceID (.federationRefresh t x)) : Effect s o p s' p' := by
  simp only [consume] at h
  split at h
  · cases h
  · split at h
    · cases h
      exact .stops
    · rename_i s₁ r hconsumed
      refine .statement (some.inj h) ?_
      rintro q (rfl | rfl)
      · exact .consumed hconsumed (.inl rfl)
      · exact .consumed hconsumed (.inr (hk r))

theorem checkJTIReplay_effect {a : Assertion} (h : checkJTIReplay s o a k = some (s', p'))
    (hk : (∃ n, p = .joinConsuming a n ∧ k = .joining ⟨a, n, s.now⟩) ∨
      ∃ t n, p = .federationConsumingJTI t a n ∧ k = .federationLooking t ⟨a, n, s.now⟩) :
    Effect s o p s' p' := by
  simp only [checkJTIReplay] at h
  split at h
  · cases h
    exact .stops
  · split at h
    · cases h
      exact .stops
    · rename_i s₁ hconsumed
      refine .statement (some.inj h) ?_
      rintro q (rfl | rfl)
      · exact .consumedJTI hconsumed (.inl rfl)
      · exact .consumedJTI hconsumed (.inr hk)

theorem mem_signed_of_validates (h : s.validates t = true) : t ∈ s.signed := by
  simp only [State.validates, decide_eq_true_eq] at h
  exact h.1

theorem upsertShadowUser_cases {homeServer : String} {remoteUserID u' : ID} {s₁ : State}
    (h : s.upsertShadowUser homeServer remoteUserID u = some (s₁, u')) :
    (s₁ = s ∧ ∃ x ∈ s.users, x.id = u' ∧ x.isFederated = true ∧ x.homeServer = homeServer ∧
        x.remoteUserID = remoteUserID) ∨
      (s.userByID u = none ∧ u' = u ∧
        s₁ = { s with
          users := { id := u, isFederated := true, homeServer, remoteUserID } :: s.users }) := by
  simp only [State.upsertShadowUser] at h
  split at h
  · rename_i x hx
    cases h
    have hmatch := find?_some hx
    simp only [decide_eq_true_eq] at hmatch
    exact .inl ⟨rfl, x, mem_of_find?_eq_some hx, rfl, hmatch⟩
  · split at h
    · cases h
    · rename_i hfresh
      cases h
      exact .inr ⟨userByID_none hfresh, rfl, rfl⟩

theorem refreshStep_effect (h : refreshStep s others o p = some (s', p')) : Effect s o p s' p' := by
  cases p with
  | refreshBegun | federationBegun =>
    simp only [refreshStep] at h
    split at h
    · rename_i hvalid
      cases h
      exact .goes ⟨rfl, rfl, rfl, rfl, rfl⟩ fun _ _ => mem_signed_of_validates hvalid.1
    · cases h
      exact .stops
  | consuming t =>
    exact consume_effect h fun r => Or.inl ⟨rfl, rfl⟩
  | joinBegun a =>
    simp only [refreshStep] at h
    split at h
    · rename_i hvalid
      cases h
      exact .goes ⟨rfl, rfl, rfl, rfl, rfl⟩ fun _ _ => hvalid.1
    · cases h
      exact .stops
  | joinConsuming a n =>
    exact checkJTIReplay_effect h (Or.inl ⟨n, rfl, rfl⟩)
  | joining shown =>
    simp only [refreshStep] at h
    split at h
    · cases h
    · split at h
      · cases h
        exact .stops
      · rename_i s₁ u' hupsert
        rcases upsertShadowUser_cases hupsert with ⟨rfl, x, hx, rfl, hmatch⟩ | ⟨hfresh, rfl, rfl⟩
        · -- a shadow user who was here before keeps the row
          refine .command (some.inj h) (quiet_refl _) ⟨by simp [Phase.issues],
            by simp [Phase.spends, Source.token], by simp [Phase.hash], by simp [Phase.stores],
            fun _ hshown => hshown⟩ fun hledger hpresented => ⟨⟨hpresented, x, ?_, hmatch⟩, rfl⟩
          exact hledger.ids x hx
        · exact .statement (some.inj h) fun q hq => Effect.joined hfresh hq
  | federationVerifying t a =>
    simp only [refreshStep] at h
    split at h
    · rename_i hvalid
      cases h
      exact .goes ⟨rfl, rfl, rfl, rfl, rfl⟩ fun _ hsigned => ⟨hsigned, hvalid.1⟩
    · cases h
      exact .stops
  | federationConsumingJTI t a n =>
    exact checkJTIReplay_effect h (Or.inr ⟨t, n, rfl, rfl⟩)
  | federationLooking t shown =>
    simp only [refreshStep] at h
    split at h
    · cases h
      exact .stops
    · rename_i x hx
      split at h
      · rename_i hmatch
        cases h
        refine Effect.quiet (quiet_refl s) ⟨by simp [Phase.issues], by simp [Phase.spends],
          by simp [Phase.hash], by simp [Phase.stores], fun _ hshown => hshown⟩
          fun _ htrue => ⟨htrue.1, htrue.2, x, hx, ?_⟩
        exact ⟨hmatch.2.1, hmatch.2.2.2.symm, hmatch.2.2.1.symm⟩
      · cases h
        exact .stops
  | federationConsuming t shown =>
    exact consume_effect h fun r => Or.inr ⟨shown, rfl, rfl⟩
  | _ => cases h

theorem interceptorStep_effect (h : interceptorStep s o p = some (s', p')) :
    Effect s o p s' p' := by
  cases p with
  | requestBegun t rpc =>
    simp only [interceptorStep] at h
    split at h
    · rename_i hvalid
      -- the cache is asked first, the signature only if the token is not there
      have hknown : t ∈ s.cache ∨ t ∈ s.signed := by
        rcases hvalid with ⟨-, hcached⟩ | hvalid
        · simp only [State.cached, decide_eq_true_eq] at hcached
          exact .inl hcached.1
        · exact .inr (mem_signed_of_validates hvalid)
      split at h
      · cases h
        exact .ends (cache_quiet s hknown)
      · rename_i haccess
        cases h
        refine .quiet (cache_quiet s hknown) (Phase.Free.keeps ⟨rfl, rfl, rfl, rfl, rfl⟩) ?_
        intro hledger _
        refine ⟨?_, Bool.eq_false_iff.mpr haccess⟩
        rcases hknown with hcached | hsigned
        · exact hledger.cache t hcached
        · exact hsigned
    · cases h
      exact .stops
  | checking t rpc =>
    simp only [interceptorStep] at h
    split at h
    · cases h
      exact .stops
    · rename_i hopen
      split at h
      · cases h
        exact .stops
      · cases h
        refine .accepted fun hd => ?_
        simp only [hd, ne_eq, not_false_eq_true, true_and, not_or] at hopen
        exact Bool.eq_false_iff.mpr hopen.2
  | _ => cases h

theorem deviceStep_effect (h : deviceStep s others o p = some (s', p')) : Effect s o p s' p' := by
  cases p with
  | logoutDeleting u d =>
    simp only [deviceStep] at h
    split at h
    · cases h
      exact .stops
    · split at h
      · cases h
      · exact .command (some.inj h) (deleteRefreshTokens_quiet s _)
          (Phase.Free.keeps ⟨rfl, rfl, rfl, rfl, rfl⟩) fun _ hopened => hopened
  | logoutBlocking d =>
    cases h
    refine Effect.revoked (afterBlock_quiet s o d) ?_
    intro hopened d' hd'
    rw [mem_singleton.mp hd']
    exact hopened
  | registeringDevice u d =>
    simp only [deviceStep] at h
    split at h
    · cases h
    · split at h
      · refine .statement (some.inj h) ?_
        rintro q (rfl | rfl)
        · exact Effect.upserted id free_of_returned fun _ => trivial
        · exact Effect.upserted id free_of_returned fun _ => trivial
      · split at h
        · cases h
        · rename_i hd
          push Not at hd
          refine .statement (some.inj h) ?_
          rintro q (rfl | rfl)
          · exact Effect.drew hd.1 (Bool.eq_false_iff.mpr hd.2)
          · exact Effect.drew hd.1 (Bool.eq_false_iff.mpr hd.2)
  | revokeDeleting u d =>
    simp only [deviceStep] at h
    split at h
    · cases h
      exact .stops
    · rename_i hfound
      refine .command (some.inj h) (deleteDevices_quiet s _)
        (Phase.Free.keeps ⟨rfl, rfl, rfl, rfl, rfl⟩) fun hledger _ => ?_
      push Not at hfound
      obtain ⟨row, hrow, hmatch⟩ := any_eq_true.mp hfound.2
      simp only [decide_eq_true_eq] at hmatch
      rw [← hmatch.2]
      exact hledger.devices row hrow
  | revokeBlocking d =>
    simp only [deviceStep] at h
    split at h
    · rename_i hok
      cases h
      have hrevokes : (Phase.revokeBlocking d).revokes o = [d] := by
        simp [Phase.revokes, hok]
      have heffect : Effect s o (.revokeBlocking d)
          ((s.atSuccess o (.revokeBlocking d)).recordRevoked [d]) .returned := by
        rw [← hrevokes]
        refine Effect.revoked (afterBlock_quiet s o d) fun hopened d' hd' => ?_
        rw [hrevokes] at hd'
        rw [mem_singleton.mp hd']
        exact hopened
      exact heffect
    · cases h
      exact .ends (afterBlock_quiet s o d)
  | othersDeleting u current =>
    simp only [deviceStep] at h
    split at h
    · cases h
      exact .stops
    · refine .command (some.inj h) (deleteDevices_quiet s _)
        (Phase.Free.keeps ⟨rfl, rfl, rfl, rfl, rfl⟩) fun _ _ => ?_
      intro d hd
      obtain ⟨a, ha, had⟩ := mem_filterMap.mp (mem_of_mem_filter hd)
      cases a with
      | opened d' u' =>
        have hsame : d' = d := by
          by_cases hu : u' = u
          · simpa [hu] using had
          · simp [hu] at had
        subst hsame
        exact ⟨u', ha⟩
      | _ => cases had
  | othersBlocking revoked remaining =>
    cases remaining with
    | nil =>
      cases h
      exact Effect.revoked (quiet_refl s) fun hopened d hd => hopened d hd
    | cons d remaining =>
      exact .command (some.inj h) (blockDevice_quiet s d)
        (Phase.Free.keeps ⟨rfl, rfl, rfl, rfl, rfl⟩) fun _ hopened => hopened
  | _ => cases h

theorem passwordStep_effect (h : passwordStep s others o p = some (s', p')) :
    Effect s o p s' p' := by
  cases p with
  | changeReading u old c =>
    simp only [passwordStep] at h
    split at h
    · cases h
      exact .stops
    · split at h
      · cases h
        exact .stops
      · split at h
        · cases h
          exact .goes ⟨rfl, rfl, rfl, rfl, rfl⟩ fun _ _ => trivial
        · cases h
          exact .stops
  | changeHashing u verified c =>
    exact hashPassword_effect h (fun _ => rfl) (fun _ => rfl) (fun _ => rfl) (fun _ => rfl)
      (fun _ => rfl) fun _ _ => trivial
  | changing u verified c hash =>
    simp only [passwordStep] at h
    split at h
    · cases h
    · split at h
      · cases h
        exact .stops
      · rename_i s₁ hchanged
        refine .statement (some.inj h) ?_
        rintro q (rfl | rfl)
        · exact .changed hchanged
        · exact .changed hchanged
  | recoverBegun u proof excluded c =>
    simp only [passwordStep] at h
    split at h
    · cases h
      exact .stops
    · exact hashPassword_effect h (fun _ => rfl) (fun _ => rfl) (fun _ => rfl) (fun _ => rfl)
        (fun _ => rfl) fun _ _ => trivial
  | recoverLocking u proof excluded c hash =>
    simp only [passwordStep] at h
    split at h
    · cases h
    · split at h
      · cases h
        exact .stops
      · rename_i r hr
        split at h
        · cases h
          refine .quiet (quiet_refl s)
            ⟨fun _ h => h, fun _ h => h, fun _ h => h, fun _ h => h, fun _ h => h⟩ fun _ _ => ?_
          show (s.userAuth u).isSome = true
          rw [hr]
          rfl
        · cases h
          exact .stops
  | recoverUpdating | recoverDeleting =>
    simp only [passwordStep] at h
    split at h
    · cases h
      exact .quiet (quiet_refl s)
        ⟨fun _ h => h, fun _ h => h, fun _ h => h, fun _ h => h, fun _ h => h⟩ fun _ hauth => hauth
    · cases h
      exact .stops
  | recoverCommitting u c hash deleted =>
    exact .statement (some.inj h) fun q hq => .recovered hq
  | _ => cases h

theorem next_effect (h : next s others p o = some (s', p')) : Effect s o p s' p' := by
  cases p with
  | registerBegun _ | registering _ _ _ | loginBegun _ _ | opening _ _ | upserting _ _ _
  | generating _ _ _ | storing _ =>
    simp only [next] at h
    exact loginStep_effect h
  | refreshBegun _ | consuming _ | joinBegun _ | joinConsuming _ _ | joining _
  | federationBegun _ _ | federationVerifying _ _ | federationConsumingJTI _ _ _
  | federationLooking _ _ | federationConsuming _ _ =>
    simp only [next] at h
    exact refreshStep_effect h
  | requestBegun _ _ | checking _ _ =>
    exact interceptorStep_effect h
  | logoutDeleting _ _ | logoutBlocking _ | registeringDevice _ _ | revokeDeleting _ _
  | revokeBlocking _ | othersDeleting _ _ | othersBlocking _ _ =>
    simp only [next] at h
    exact deviceStep_effect h
  | changeReading _ _ _ | changeHashing _ _ _ | changing _ _ _ _ | recoverBegun _ _ _ _
  | recoverLocking _ _ _ _ _ | recoverUpdating _ _ _ _ | recoverDeleting _ _ _ _
  | recoverCommitting _ _ _ _ =>
    simp only [next] at h
    exact passwordStep_effect h
  | pruning deviceIDs =>
    cases h
    exact .ends (deleteDevices_quiet s _)
  | waiting seconds =>
    cases h
    exact .ends (wait_quiet s seconds)
  | returned => cases h

end Steps

/-! ## Section 4: The ledger is kept -/

section Statements

variable {s s₁ : State}

theorem userByID_cons (s : State) (x : User) (u : ID) :
    State.userByID { s with users := x :: s.users } u =
      if x.id = u then some x else s.userByID u := by
  by_cases hu : x.id = u
  · simp [State.userByID, hu]
  · simp [State.userByID, hu]

theorem upsertDevice_eq (s : State) (d u : ID) :
    ∃ devices, s.upsertDevice d u = { s with devices } := by
  unfold State.upsertDevice
  split
  · exact ⟨s.devices, rfl⟩
  · exact ⟨_, rfl⟩

theorem not_opened_of_fresh (h : s.deviceOpened d = false) : .opened d u ∉ s.log := by
  intro hmem
  have hopened : s.deviceOpened d = true := by
    refine any_eq_true.mpr ⟨_, hmem, ?_⟩
    simp
  rw [h] at hopened
  cases hopened

theorem storeRefreshToken_cases (h : s.storeRefreshToken t = some s₁) :
    (∀ r ∈ s.refreshTokens, r.token ≠ t) ∧
      s₁ = { s with
        refreshTokens :=
          { token := t, userID := t.userID, deviceID := t.deviceID
            expiresAt := s.now + refreshTokenExpiry } :: s.refreshTokens } := by
  simp only [State.storeRefreshToken] at h
  split at h
  · cases h
  · rename_i hfresh
    cases h
    refine ⟨fun r hr heq => hfresh ?_, rfl⟩
    exact any_eq_true.mpr ⟨r, hr, by simp [heq]⟩

theorem consumeRefreshToken_cases {r : RefreshRow} (h : s.consumeRefreshToken t = some (s₁, r)) :
    r ∈ s.refreshTokens ∧ r.token = t ∧ s.now < r.expiresAt ∧
      s₁ = s.deleteRefreshTokens fun r => r.token = t ∧ s.now < r.expiresAt := by
  obtain ⟨r', hfind, heq⟩ := map_eq_some_iff.mp h
  cases heq
  have hmatch := find?_some hfind
  simp only [decide_eq_true_eq] at hmatch
  exact ⟨mem_of_find?_eq_some hfind, hmatch.1, hmatch.2, rfl⟩

theorem consumeJTI_cases {jti : Bytes} (h : s.consumeJTI jti = some s₁) :
    (∀ expiry, s.usedJTI jti = some expiry → expiry < s.now) ∧
      s₁ = { s with usedJTI := update s.usedJTI jti (some (s.now + 120)) } := by
  simp only [State.consumeJTI] at h
  split at h
  · cases h
  · rename_i hfree
    cases h
    refine ⟨fun expiry hexpiry => ?_, rfl⟩
    simp only [hexpiry, any_some, decide_eq_true_eq] at hfree
    omega

theorem changePassword_cases {v : Hash} {c : Credentials} (h : s.changePassword u v c = some s₁) :
    (∃ old, s.userAuth u = some old ∧ old.authKeyHash = v) ∧
      s₁ = { s with userAuth := update s.userAuth u (some c) } := by
  simp only [State.changePassword] at h
  split at h
  · rename_i hverified
    cases h
    refine ⟨?_, rfl⟩
    rcases hold : s.userAuth u with _ | old
    · simp [hold] at hverified
    · refine ⟨old, rfl, ?_⟩
      simpa [hold] using hverified
  · cases h

end Statements

theorem State.Quiet.grows {s s' : State} (h : s.Quiet s') : s.Grows s' where
  log := by simp [h.log]
  signed := by simp [h.signed]
  users := by simp [State.userByID, h.users]
  userAuth := by simp [h.userAuth]
  origin := h.origin
  instanceU := h.instanceU

/-- What a state has that another had not. -/
structure State.Adds (s s' : State) : Prop extends s.Grows s' where
  now : s.now ≤ s'.now
  acts : ∀ a ∈ s'.log, a ∈ s.log ∨ s'.Records a
  ids : ∀ x ∈ s'.users, x ∈ s.users ∨ s'.userByID x.id = some x
  signs : ∀ t ∈ s'.signed, t ∈ s.signed ∨ s'.Signs t
  cache : ∀ t ∈ s'.cache, t ∈ s.cache ∨ t ∈ s.signed
  rows : ∀ r ∈ s'.refreshTokens, r ∈ s.refreshTokens ∨ s'.Stores r
  devices : ∀ d ∈ s'.devices, d ∈ s.devices ∨ s'.Opened d.id
  accounts : ∀ u, (s'.userAuth u).isSome = true → (s.userAuth u).isSome = true ∨ s'.IsLocal u

theorem State.Records.mono {s s' : State} (h : s.Grows s') {a : Act} (ha : s.Records a) :
    s'.Records a := by
  cases a with
  | opened d u => exact ha
  | issued source access refresh =>
    exact ⟨h.entitles ha.1, ha.2.1, h.signed refresh ha.2.2⟩
  | revoked d => exact h.opened ha
  | _ => trivial

theorem Ledger.adds {s s' : State} (h : Ledger s) (hadds : s.Adds s') : Ledger s' where
  acts := by
    intro a ha
    rcases hadds.acts a ha with hold | hnew
    · exact .mono hadds.toGrows (h.acts a hold)
    · exact hnew
  ids := by
    intro x hx
    rcases hadds.ids x hx with hold | hnew
    · exact hadds.users _ _ (h.ids x hold)
    · exact hnew
  signed := by
    intro t ht
    rcases hadds.signs t ht with hold | hnew
    · have hsigns := h.signed t hold
      refine ⟨hadds.log _ hsigns.opened, hadds.known hsigns.known, fun haccess => ?_⟩
      have hexpires := hsigns.expires haccess
      have hnow := hadds.now
      omega
    · exact hnew
  cache := by
    intro t ht
    rcases hadds.cache t ht with hold | hsigned
    · exact hadds.signed t (h.cache t hold)
    · exact hadds.signed t hsigned
  rows := by
    intro r hr
    rcases hadds.rows r hr with hold | hnew
    · have hstores := h.rows r hold
      exact ⟨hadds.signed _ hstores.signed, hstores.userID, hstores.deviceID⟩
    · exact hnew
  devices := by
    intro d hd
    rcases hadds.devices d hd with hold | hnew
    · exact hadds.opened (h.devices d hold)
    · exact hnew
  userAuth := by
    intro u hu
    rcases hadds.accounts u hu with hold | hnew
    · exact hadds.isLocal (h.userAuth u hold)
    · exact hnew

theorem State.Quiet.adds {s s' : State} (h : s.Quiet s') : s.Adds s' where
  toGrows := h.grows
  now := h.now
  acts := by simp +contextual [h.log]
  ids := by simp +contextual [h.users]
  signs := by simp +contextual [h.signed]
  cache := h.cache
  rows := fun r hr => .inl (h.rows.subset hr)
  devices := fun d hd => .inl (h.devices d hd)
  accounts := by simp +contextual [h.userAuth]

section Grows

variable (s : State)

theorem grows_record (a : Act) : s.Grows (s.record a) where
  log := fun _ hb => mem_cons_of_mem a hb
  signed := fun _ ht => ht
  users := fun _ _ hx => hx
  userAuth := fun _ hu => hu
  origin := rfl
  instanceU := rfl

theorem grows_recordRevoked (ds : List ID) : s.Grows (s.recordRevoked ds) where
  log := fun _ ha => mem_append_right _ ha
  signed := fun _ ht => ht
  users := fun _ _ hx => hx
  userAuth := fun _ hu => hu
  origin := rfl
  instanceU := rfl

theorem grows_sign (l : List Token) : s.Grows { s with signed := l ++ s.signed } where
  log := fun _ ha => ha
  signed := fun _ ht => mem_append_right l ht
  users := fun _ _ hx => hx
  userAuth := fun _ hu => hu
  origin := rfl
  instanceU := rfl

theorem grows_insert {x : User} (hfresh : s.userByID x.id = none) :
    s.Grows { s with users := x :: s.users } where
  log := fun _ ha => ha
  signed := fun _ ht => ht
  users := by
    intro u y hy
    rw [userByID_cons, if_neg, hy]
    rintro rfl
    rw [hfresh] at hy
    cases hy
  userAuth := fun _ hu => hu
  origin := rfl
  instanceU := rfl

theorem grows_setAuth (u : ID) (c : Credentials) :
    s.Grows { s with userAuth := update s.userAuth u (some c) } where
  log := fun _ ha => ha
  signed := fun _ ht => ht
  users := fun _ _ hx => hx
  userAuth := by
    intro u' hu'
    by_cases hu : u' = u
    · simp [hu]
    · simpa [hu] using hu'
  origin := rfl
  instanceU := rfl

theorem grows_parts (rows : List RefreshRow) (m : Bytes → Option Nat) (ds : List Device) :
    s.Grows { s with refreshTokens := rows, usedJTI := m, devices := ds } where
  log := fun _ ha => ha
  signed := fun _ ht => ht
  users := fun _ _ hx => hx
  userAuth := fun _ hu => hu
  origin := rfl
  instanceU := rfl

theorem grows_store (r : RefreshRow) : s.Grows { s with refreshTokens := r :: s.refreshTokens } :=
  grows_parts s (r :: s.refreshTokens) s.usedJTI s.devices

theorem grows_setJTI (m : Bytes → Option Nat) : s.Grows { s with usedJTI := m } :=
  grows_parts s s.refreshTokens m s.devices

theorem grows_device (d : Device) : s.Grows { s with devices := d :: s.devices } :=
  grows_parts s s.refreshTokens s.usedJTI (d :: s.devices)

end Grows

section Ledger

variable {s : State}

theorem Ledger.quiet {s' : State} (h : Ledger s) (hquiet : s.Quiet s') : Ledger s' :=
  h.adds hquiet.adds

theorem Ledger.record (h : Ledger s) {a : Act} (ha : (s.record a).Records a) :
    Ledger (s.record a) := by
  refine h.adds ⟨grows_record s a, Nat.le_refl _, ?_, fun _ hx => .inl hx,
    fun _ ht => .inl ht, fun _ ht => .inl ht, fun _ hr => .inl hr, fun _ hd => .inl hd,
    fun _ hu => .inl hu⟩
  intro b hb
  rcases mem_cons.mp hb with rfl | hb
  · exact .inr ha
  · exact .inl hb

theorem Ledger.recordRevoked (h : Ledger s) {ds : List ID} (hds : ∀ d ∈ ds, s.Opened d) :
    Ledger (s.recordRevoked ds) := by
  induction ds with
  | nil => exact h
  | cons d ds ih =>
    have hrest := ih fun d' hd' => hds d' (mem_cons_of_mem _ hd')
    obtain ⟨u, hu⟩ := hds d mem_cons_self
    exact hrest.record ⟨u, mem_cons_of_mem _ (mem_append_right _ hu)⟩

theorem Ledger.insert (h : Ledger s) {x : User} (hfresh : s.userByID x.id = none) :
    Ledger { s with users := x :: s.users } := by
  refine h.adds ⟨grows_insert s hfresh, Nat.le_refl _, fun _ ha => .inl ha, ?_,
    fun _ ht => .inl ht, fun _ ht => .inl ht, fun _ hr => .inl hr, fun _ hd => .inl hd,
    fun _ hu => .inl hu⟩
  intro y hy
  rcases mem_cons.mp hy with rfl | hy
  · right
    rw [userByID_cons, if_pos rfl]
  · exact .inl hy

theorem Ledger.setAuth (h : Ledger s) (hlocal : s.IsLocal u) (c : Credentials) :
    Ledger { s with userAuth := update s.userAuth u (some c) } := by
  refine h.adds ⟨grows_setAuth s u c, Nat.le_refl _, fun _ ha => .inl ha,
    fun _ hx => .inl hx, fun _ ht => .inl ht, fun _ ht => .inl ht, fun _ hr => .inl hr,
    fun _ hd => .inl hd, ?_⟩
  intro u' hu'
  by_cases hu : u' = u
  · right
    rw [hu]
    exact hlocal
  · left
    simpa [hu] using hu'

theorem Ledger.sign (h : Ledger s) {l : List Token} (hl : ∀ t ∈ l, s.Signs t) :
    Ledger { s with signed := l ++ s.signed } := by
  refine h.adds ⟨grows_sign s l, Nat.le_refl _, fun _ ha => .inl ha, fun _ hx => .inl hx, ?_,
    fun _ ht => .inl ht, fun _ hr => .inl hr, fun _ hd => .inl hd, fun _ hu => .inl hu⟩
  intro t ht
  rcases mem_append.mp ht with hnew | hold
  · exact .inr ⟨(hl t hnew).opened, (hl t hnew).known, (hl t hnew).expires⟩
  · exact .inl hold

theorem Ledger.store (h : Ledger s) {r : RefreshRow} (hr : s.Stores r) :
    Ledger { s with refreshTokens := r :: s.refreshTokens } := by
  refine h.adds ⟨grows_store s r, Nat.le_refl _, fun _ ha => .inl ha, fun _ hx => .inl hx,
    fun _ ht => .inl ht, fun _ ht => .inl ht, ?_, fun _ hd => .inl hd, fun _ hu => .inl hu⟩
  intro r' hr'
  rcases mem_cons.mp hr' with rfl | hr'
  · exact .inr ⟨hr.signed, hr.userID, hr.deviceID⟩
  · exact .inl hr'

theorem Ledger.setJTI (h : Ledger s) (m : Bytes → Option Nat) : Ledger { s with usedJTI := m } :=
  h.adds ⟨grows_setJTI s m, Nat.le_refl _, fun _ ha => .inl ha, fun _ hx => .inl hx,
    fun _ ht => .inl ht, fun _ ht => .inl ht, fun _ hr => .inl hr, fun _ hd => .inl hd,
    fun _ hu => .inl hu⟩

theorem Ledger.upsertDevice (h : Ledger s) (u : ID) (hd : s.Opened d) :
    Ledger (s.upsertDevice d u) := by
  unfold State.upsertDevice
  split
  · exact h
  · refine h.adds ⟨grows_device s _, Nat.le_refl _, fun _ ha => .inl ha, fun _ hx => .inl hx,
      fun _ ht => .inl ht, fun _ ht => .inl ht, fun _ hr => .inl hr, ?_,
      fun _ hu => .inl hu⟩
    intro row hrow
    rcases mem_cons.mp hrow with rfl | hrow
    · exact .inr hd
    · exact .inl hrow

end Ledger

section Effects

variable {s s' : State} {o : Outcome} {p' : Phase}

theorem State.Grows.trans {s'' : State} (h : s.Grows s') (h' : s'.Grows s'') : s.Grows s'' where
  log := fun a ha => h'.log a (h.log a ha)
  signed := fun t ht => h'.signed t (h.signed t ht)
  users := fun u x hx => h'.users u x (h.users u x hx)
  userAuth := fun u hu => h'.userAuth u (h.userAuth u hu)
  origin := h'.origin.trans h.origin
  instanceU := h'.instanceU.trans h.instanceU

theorem grows_upsertDevice (s : State) (d u : ID) : s.Grows (s.upsertDevice d u) := by
  unfold State.upsertDevice
  split
  · exact (quiet_refl s).grows
  · exact grows_device s _

theorem grows_createUser (hfresh : s.userByID u = none) (c : Credentials) :
    s.Grows (s.createUser u c) :=
  (@grows_insert s { id := u } hfresh).trans (grows_setAuth _ u c)

theorem Effect.grows (h : Effect s o p s' p') : s.Grows s' := by
  cases h with
  | quiet hquiet _ _ => exact hquiet.grows
  | hashed _ _ _ _ _ _ _ | opened _ _ _ | accepted _ => exact grows_record s _
  | created hfresh _ => exact (grows_createUser hfresh _).trans (grows_record _ _)
  | @upserted u d _ _ _ _ _ => exact grows_upsertDevice s d u
  | @drew u _ d' _ _ => exact (grows_record s _).trans (grows_upsertDevice _ d' u)
  | issued _ _ _ => exact (grows_sign s [_, _]).trans (grows_record _ _)
  | stored hstored =>
    obtain ⟨-, rfl⟩ := storeRefreshToken_cases hstored
    exact (grows_store s _).trans (grows_record _ _)
  | consumed hconsumed _ =>
    obtain ⟨-, -, -, rfl⟩ := consumeRefreshToken_cases hconsumed
    exact (deleteRefreshTokens_quiet s _).grows
  | consumedJTI hconsumed _ =>
    obtain ⟨-, rfl⟩ := consumeJTI_cases hconsumed
    exact (grows_setJTI s _).trans (grows_record _ _)
  | joined hfresh _ => exact grows_insert s hfresh
  | revoked hquiet _ => exact hquiet.grows.trans (grows_recordRevoked _ _)
  | @changed u _ _ _ _ hchanged =>
    obtain ⟨-, rfl⟩ := changePassword_cases hchanged
    exact (grows_setAuth s u _).trans (grows_record _ _)
  | @recovered u c hash _ _ _ =>
    exact ((grows_setAuth s u (c.row hash)).trans (deleteRefreshTokens_quiet _ _).grows).trans
      (grows_record _ _)

theorem isLocal_createUser (c : Credentials) : (s.createUser u c).IsLocal u := by
  refine ⟨{ id := u }, ?_, rfl⟩
  show State.userByID { s with users := { id := u } :: s.users } u = _
  rw [userByID_cons, if_pos rfl]

theorem Ledger.consumed {t : Token} {s₁ : State} {r : RefreshRow} (h : Ledger s)
    (hconsumed : s.consumeRefreshToken t = some (s₁, r)) :
    t ∈ s.signed ∧ r.userID = t.userID ∧ r.deviceID = t.deviceID ∧ s.now < r.expiresAt := by
  obtain ⟨hr, rfl, hnow, -⟩ := consumeRefreshToken_cases hconsumed
  have hstores := h.rows r hr
  exact ⟨hstores.signed, hstores.userID, hstores.deviceID, hnow⟩

theorem known_of_vouches (h : s.Vouches u source) : (s.userByID u).isSome = true := by
  have hsome : ∀ {x : User}, s.userByID u = some x → (s.userByID u).isSome = true := by
    intro x hx
    rw [hx]
    rfl
  cases source with
  | login | recovery =>
    obtain ⟨x, hx, -⟩ := h
    exact hsome hx
  | refresh t => exact h
  | join | federationRefresh =>
    obtain ⟨-, x, hx, -⟩ := h
    exact hsome hx

theorem Effect.ledger (h : Effect s o p s' p') (hledger : Ledger s) (htrue : p.Truthful s) :
    Ledger s' := by
  cases h with
  | quiet hquiet _ _ => exact hledger.quiet hquiet
  | hashed | accepted => exact hledger.record trivial
  | @created u c hash _ hfresh _ =>
    have hinsert : Ledger { s with users := { id := u } :: s.users } := hledger.insert hfresh
    have hcreated : Ledger (s.createUser u (c.row hash)) :=
      hinsert.setAuth (isLocal_createUser (c.row hash)) (c.row hash)
    exact hcreated.record trivial
  | opened hnamed _ _ => exact hledger.record hnamed
  | @upserted u _ _ _ hopened _ _ => exact hledger.upsertDevice u (hopened htrue)
  | @drew u _ d' hnamed _ =>
    have hrecord : Ledger (s.record (.opened d' u)) := hledger.record hnamed
    exact hrecord.upsertDevice u ⟨u, mem_cons_self⟩
  | @issued u d source _ _ _ =>
    have hentitled : s.Entitles u d source := htrue
    have hknown := known_of_vouches hentitled.vouched
    -- the access token and the refresh token are signed for one device
    let pair := [s.accessClaims o u d source, s.refreshClaims o u d source]
    have hsign : Ledger { s with signed := pair ++ s.signed } := hledger.sign ?_
    · have hgrows := (grows_sign s pair).trans (grows_record _
        (.issued source (s.accessClaims o u d source) (s.refreshClaims o u d source)))
      exact hsign.record ⟨hgrows.entitles hentitled, rfl, mem_cons_of_mem _ mem_cons_self⟩
    · intro t ht
      rcases mem_cons.mp ht with rfl | ht
      · exact ⟨hentitled.opened, hknown, fun _ => Nat.le_refl _⟩
      · rw [mem_singleton.mp ht]
        exact ⟨hentitled.opened, hknown, fun haccess => by cases haccess⟩
  | stored hstored =>
    obtain ⟨-, rfl⟩ := storeRefreshToken_cases hstored
    have hsigned : _ ∈ s.signed := htrue
    exact (hledger.store ⟨hsigned, rfl, rfl⟩).record trivial
  | consumed hconsumed _ =>
    obtain ⟨-, -, -, rfl⟩ := consumeRefreshToken_cases hconsumed
    exact hledger.quiet (deleteRefreshTokens_quiet s _)
  | consumedJTI hconsumed _ =>
    obtain ⟨-, rfl⟩ := consumeJTI_cases hconsumed
    exact (hledger.setJTI _).record trivial
  | joined hfresh _ => exact hledger.insert hfresh
  | revoked hquiet hopened =>
    refine (hledger.quiet hquiet).recordRevoked fun d hd => ?_
    exact hquiet.grows.opened (hopened htrue d hd)
  | @changed u _ c hash _ hchanged =>
    -- only local users have a password to change
    obtain ⟨⟨old, hold, -⟩, rfl⟩ := changePassword_cases hchanged
    have hlocal : s.IsLocal u := hledger.userAuth u (by rw [hold]; rfl)
    exact (hledger.setAuth hlocal (c.row hash)).record trivial
  | @recovered u c hash deleted _ _ =>
    have hlocal : s.IsLocal u := hledger.userAuth u htrue
    have hset := hledger.setAuth hlocal (c.row hash)
    exact (hset.quiet (deleteRefreshTokens_quiet _ _)).record trivial

/-- Where a request goes on says what its token says. -/
theorem handler_truthful (hopened : s.Opened t.deviceID) (rpc : RPC) :
    (Phase.handler t.userID t.deviceID rpc).Truthful s := by
  cases rpc with
  | logout | registerDevice => exact hopened
  | _ => trivial

theorem Effect.truthful (h : Effect s o p s' p') (hledger : Ledger s) (htrue : p.Truthful s) :
    p'.Truthful s' := by
  have hgrows := h.grows
  cases h with
  | quiet _ _ htruthful => exact (htruthful hledger htrue).mono hgrows
  | hashed _ _ _ _ _ _ htruthful => exact htruthful _
  | @created u c hash _ _ hgoes =>
    rcases hgoes with rfl | rfl
    · trivial
    · have hlocal : (s.createUser u (c.row hash)).IsLocal u := isLocal_createUser (c.row hash)
      exact ⟨(grows_record _ _).isLocal hlocal, rfl⟩
  | @opened u d source _ _ _ hgoes =>
    have hentitled : State.Entitles (s.record (.opened d u)) u d source := by
      refine ⟨mem_cons_self, hgrows.vouches htrue.1, ?_⟩
      rw [htrue.2]
      rintro t ⟨⟩
    rcases hgoes with rfl | rfl
    · exact hentitled
    · exact hentitled
  | upserted _ _ htruthful => exact (htruthful htrue).mono hgrows
  | drew | stored | revoked | changed => trivial
  | issued _ _ _ => exact mem_cons_of_mem _ mem_cons_self
  | @consumed t _ r _ _ hconsumed hgoes =>
    -- the row was stored for the claims of its token
    obtain ⟨hsigned, huser, hdevice, -⟩ := hledger.consumed hconsumed
    have hsigns := hledger.signed t hsigned
    rcases hgoes with rfl | ⟨rfl, rfl⟩ | ⟨shown, rfl, rfl⟩
    · trivial
    · rw [huser, hdevice]
      refine hgrows.entitles ⟨hsigns.opened, hsigns.known, ?_⟩
      rintro t' ⟨⟩
      exact ⟨rfl, rfl⟩
    · refine hgrows.entitles ⟨hsigns.opened, htrue.2, ?_⟩
      rintro t' ⟨⟩
      exact ⟨rfl, rfl⟩
  | @consumedJTI a _ _ _ hconsumed hgoes =>
    rcases hgoes with rfl | ⟨n, rfl, rfl⟩ | ⟨t, n, rfl, rfl⟩
    · trivial
    · exact ⟨hgrows.valid htrue, mem_cons_self⟩
    · exact ⟨hgrows.signed t htrue.1, hgrows.valid htrue.2, mem_cons_self⟩
  | @joined x u _ hfresh hgoes =>
    rcases hgoes with rfl | rfl
    · trivial
    · refine ⟨⟨hgrows.presented htrue, ?_⟩, rfl⟩
      exact ⟨{ id := u, isFederated := true, homeServer := x.assertion.issuer
               remoteUserID := x.assertion.userID },
        by rw [userByID_cons, if_pos rfl], rfl, rfl, rfl⟩
  | @accepted t rpc _ =>
    refine handler_truthful ?_ rpc
    exact ⟨t.userID, hgrows.log _ (hledger.signed t htrue.1).opened⟩
  | @recovered u c hash _ _ hgoes =>
    rcases hgoes with rfl | rfl
    · trivial
    · exact ⟨hgrows.isLocal (hledger.userAuth u htrue), rfl⟩

/-- What a call that records an act is about to do. -/
def Phase.Acts (s : State) (o : Outcome) (p : Phase) : Act → Prop
  | .issued source access _ => ∃ u d, p = .generating u d source ∧
      access = s.accessClaims o u d source ∧ o.reply = .ok ∧
        s.jtiDrawn o.accessJTI = false ∧ s.jtiDrawn o.refreshJTI = false
  | .accepted t => ∃ rpc, p = .checking t rpc ∧
      (t.deviceID ≠ "" → s.isDeviceBlocked t.deviceID = false)
  | .revoked _ => False
  | _ => True

theorem Effect.acts (h : Effect s o p s' p') :
    s'.log = s.log ∨ (∃ a, s'.log = a :: s.log ∧ p.Acts s o a) ∨
      (s' = (s.atSuccess o p).recordRevoked (p.revokes o) ∧ p' = .returned ∧
        (s.atSuccess o p).log = s.log) := by
  cases h with
  | quiet hquiet _ _ => exact .inl hquiet.log
  | revoked hquiet _ => exact .inr (.inr ⟨rfl, rfl, hquiet.log⟩)
  | @upserted u d _ _ _ _ _ =>
    obtain ⟨l, hl⟩ := upsertDevice_eq s d u
    rw [hl]
    exact .inl rfl
  | joined _ _ => exact .inl rfl
  | consumed hconsumed _ =>
    obtain ⟨-, -, -, rfl⟩ := consumeRefreshToken_cases hconsumed
    exact .inl rfl
  | hashed _ _ _ _ _ _ _ | created _ _ | opened _ _ _ | recovered _ =>
    exact .inr (.inl ⟨_, rfl, trivial⟩)
  | @drew u _ d _ _ =>
    obtain ⟨l, hl⟩ := upsertDevice_eq (s.record (.opened d u)) d u
    rw [hl]
    exact .inr (.inl ⟨_, rfl, trivial⟩)
  | stored hstored =>
    obtain ⟨-, rfl⟩ := storeRefreshToken_cases hstored
    exact .inr (.inl ⟨_, rfl, trivial⟩)
  | consumedJTI hconsumed _ =>
    obtain ⟨-, rfl⟩ := consumeJTI_cases hconsumed
    exact .inr (.inl ⟨_, rfl, trivial⟩)
  | changed hchanged =>
    obtain ⟨-, rfl⟩ := changePassword_cases hchanged
    exact .inr (.inl ⟨_, rfl, trivial⟩)
  | issued hreply haccess hrefresh =>
    exact .inr (.inl ⟨_, rfl, _, _, rfl, rfl, hreply, haccess, hrefresh⟩)
  | accepted hunblocked => exact .inr (.inl ⟨_, rfl, _, rfl, hunblocked⟩)

theorem Effect.rows (h : Effect s o p s' p') : s'.refreshTokens.Sublist s.refreshTokens ∨
    ∃ r, p = .storing r.token ∧ r.deviceID = r.token.deviceID ∧
      s'.refreshTokens = r :: s.refreshTokens ∧ ∀ r' ∈ s.refreshTokens, r'.token ≠ r.token := by
  cases h with
  | quiet hquiet _ _ | revoked hquiet _ => exact .inl hquiet.rows
  | hashed _ _ _ _ _ _ _ | created _ _ | opened _ _ _ | issued _ _ _ | joined _ _ | accepted _ =>
    exact .inl (.refl _)
  | @upserted u d _ _ _ _ _ =>
    obtain ⟨l, hl⟩ := upsertDevice_eq s d u
    rw [hl]
    exact .inl (.refl _)
  | @drew u _ d _ _ =>
    obtain ⟨l, hl⟩ := upsertDevice_eq (s.record (.opened d u)) d u
    rw [hl]
    exact .inl (.refl _)
  | stored hstored =>
    obtain ⟨hfresh, rfl⟩ := storeRefreshToken_cases hstored
    exact .inr ⟨_, rfl, rfl, rfl, hfresh⟩
  | consumed hconsumed _ =>
    obtain ⟨-, -, -, rfl⟩ := consumeRefreshToken_cases hconsumed
    exact .inl filter_sublist
  | consumedJTI hconsumed _ =>
    obtain ⟨-, rfl⟩ := consumeJTI_cases hconsumed
    exact .inl (.refl _)
  | changed hchanged =>
    obtain ⟨-, rfl⟩ := changePassword_cases hchanged
    exact .inl (.refl _)
  | recovered _ => exact .inl filter_sublist

end Effects

/-! ## Section 5: Runs -/

/-- The ledger is kept, and every call says what is true. -/
def Sound : Pooled → Prop := Pool.Inv Ledger (fun s p => p.Truthful s) fun _ _ _ => True

theorem Sound.init (originURL instanceURL : String) : Sound (initial originURL instanceURL) := by
  refine Pool.Inv.init ⟨?_, ?_, ?_, ?_, ?_, ?_, ?_⟩
  all_goals simp

theorem begin_truthful (s : State) (call : Call) : (Phase.begin call).Truthful s := by
  cases call <;> trivial

theorem begin_free (call : Call) : (Phase.begin call).Free := by
  cases call <;> exact ⟨rfl, rfl, rfl, rfl, rfl⟩

theorem Sound.perm : Pool.OrderFree Sound := Pool.Inv.perm fun _ _ _ _ => trivial

theorem Sound.start : Pool.StartKeeps Phase.begin Sound := by
  intro s calls call h
  exact h.cons (begin_truthful s call) fun _ _ => trivial

theorem Sound.next : Pool.NextKeeps Sessions.next Sound := by
  intro s p others o s' p' h hnext
  have heffect := next_effect hnext
  have htrue := h.each p mem_cons_self
  refine Pool.Inv.replace h (heffect.ledger h.shared htrue) (heffect.truthful h.shared htrue) ?_ ?_
  · exact fun q _ hq _ => ⟨hq.mono heffect.grows, trivial⟩
  · exact fun _ _ _ => trivial

end Meza.Auth.Sessions
