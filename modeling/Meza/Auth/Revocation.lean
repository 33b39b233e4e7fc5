import Meza.Auth.SessionSteps

/-! # Revocation

    A device is revoked by `Logout`, `RevokeDevice` and `RevokeAllOtherDevices`.
    Its refresh tokens are deleted by the first only, and its access tokens are
    refused through the blocklist while its entry lives. What the device can
    still do afterwards depends on what is left when the call returns: a row of
    `refresh_tokens`, a call in flight that is about to store one, a token that
    outlives its entry. -/

namespace Meza.Auth.Sessions
open List Act

open Aead (Bytes)
open Store (ID)

/-! ## Section 1: What is final -/

/-- A request is let through, or tokens are issued, for a token of the device. -/
def Act.uses (deviceID : ID) : Act → Bool
  | .accepted t => t.deviceID = deviceID
  | .issued source _ _ => source.token.any fun t => t.deviceID = deviceID
  | _ => false

/-- Nothing that comes later uses what was revoked. -/
def Act.respects (later earlier : Act) : Prop :=
  match earlier with
  | .revoked d => later.uses d = false
  | _ => True

def Final (log : List Act) : Prop := log.Pairwise respects

instance (later earlier : Act) : Decidable (later.respects earlier) :=
  match earlier with
  | .revoked d => inferInstanceAs (Decidable (later.uses d = false))
  | .opened _ _ | .hashed _ | .wrote _ _ _ | .issued _ _ _ | .stored _ | .consumedJTI _ _
  | .accepted _ => inferInstanceAs (Decidable True)

instance (log : List Act) : Decidable (Final log) :=
  inferInstanceAs (Decidable (log.Pairwise respects))

theorem Final.cons {log : List Act} (h : Final log) {a : Act}
    (ha : ∀ d, .revoked d ∈ log → a.uses d = false) : Final (a :: log) := by
  refine pairwise_cons.mpr ⟨?_, h⟩
  intro b hb
  cases b with
  | revoked d => exact ha d hb
  | _ => trivial

theorem Final.recordRevoked {log : List Act} (h : Final log) (ds : List ID) :
    Final (ds.map .revoked ++ log) := by
  induction ds with
  | nil => exact h
  | cons d ds ih => exact ih.cons fun _ _ => rfl

/-! ## Section 2: The condition -/

/-- Nothing is left with which the device could get tokens, or be let through. -/
structure Sealed (s : State) (calls : List Phase) (deviceID : ID) : Prop where
  rows : ∀ r ∈ s.refreshTokens, r.deviceID = deviceID → r.expiresAt ≤ s.now
  calls : ∀ p ∈ calls, p.issues ≠ some deviceID
  tokens : ∀ t ∈ s.signed, t.isRefresh = false → t.deviceID = deviceID → s.Covered t

/-- The token whose device is looked up in the blocklist. -/
def Phase.checks : Phase → Option Token
  | .checking t _ => some t
  | _ => none

/-- A step that makes a revocation a success seals the device. A request of a device that is
    revoked is not held up before the blocklist until its token has expired. -/
def SealsRevoked (s : State) (others : List Phase) (p : Phase) (o : Outcome) : Prop :=
  (∀ d ∈ p.revokes o, Sealed (s.atSuccess o p) others d) ∧
    ∀ t ∈ p.checks, .revoked t.deviceID ∈ s.log → s.now ≤ t.expiresAt

abbrev Seals : Pooled → Event → Prop := Pool.Allows (fun _ _ => True) SealsRevoked

instance (s : State) (t : Token) : Decidable (s.Covered t) := inferInstanceAs (Decidable (_ ∨ _))

theorem sealed_iff {s : State} {calls : List Phase} {d : ID} :
    Sealed s calls d ↔ (∀ r ∈ s.refreshTokens, r.deviceID = d → r.expiresAt ≤ s.now) ∧
      (∀ p ∈ calls, p.issues ≠ some d) ∧
      ∀ t ∈ s.signed, t.isRefresh = false → t.deviceID = d → s.Covered t :=
  ⟨fun h => ⟨h.rows, h.calls, h.tokens⟩, fun h => ⟨h.1, h.2.1, h.2.2⟩⟩

instance (s : State) (calls : List Phase) (d : ID) : Decidable (Sealed s calls d) :=
  decidable_of_iff _ sealed_iff.symm

instance (s : State) (others : List Phase) (p : Phase) (o : Outcome) :
    Decidable (SealsRevoked s others p o) :=
  inferInstanceAs (Decidable ((∀ d ∈ p.revokes o, Sealed (s.atSuccess o p) others d) ∧
    ∀ t ∈ p.checks, .revoked t.deviceID ∈ s.log → s.now ≤ t.expiresAt))

/-! ## Section 3: One step -/

section Step

variable {s s' : State} {o : Outcome} {p p' : Phase}

/-- Time does not go back, and what covers a token goes on to. -/
theorem Effect.covered (h : Effect s o p s' p') :
    s.now ≤ s'.now ∧ ∀ t, t.expiresAt ≤ s.now + accessTokenExpiry → s.Covered t → s'.Covered t := by
  cases h with
  | quiet hquiet _ _ | revoked hquiet _ => exact ⟨hquiet.now, hquiet.covered⟩
  | hashed _ _ _ _ _ _ _ | created _ _ | opened _ _ _ | issued _ _ _ | joined _ _ | accepted _
  | recovered _ => exact ⟨Nat.le_refl _, fun _ _ hcovered => hcovered⟩
  | @upserted u d _ _ _ _ _ =>
    obtain ⟨l, hl⟩ := upsertDevice_eq s d u
    rw [hl]
    exact ⟨Nat.le_refl _, fun _ _ hcovered => hcovered⟩
  | @drew u _ d _ _ =>
    obtain ⟨l, hl⟩ := upsertDevice_eq (s.record (.opened d u)) d u
    rw [hl]
    exact ⟨Nat.le_refl _, fun _ _ hcovered => hcovered⟩
  | stored hstored =>
    obtain ⟨-, rfl⟩ := storeRefreshToken_cases hstored
    exact ⟨Nat.le_refl _, fun _ _ hcovered => hcovered⟩
  | consumed hconsumed _ =>
    obtain ⟨-, -, -, rfl⟩ := consumeRefreshToken_cases hconsumed
    exact ⟨Nat.le_refl _, fun _ _ hcovered => hcovered⟩
  | consumedJTI hconsumed _ =>
    obtain ⟨-, rfl⟩ := consumeJTI_cases hconsumed
    exact ⟨Nat.le_refl _, fun _ _ hcovered => hcovered⟩
  | changed hchanged =>
    obtain ⟨-, rfl⟩ := changePassword_cases hchanged
    exact ⟨Nat.le_refl _, fun _ _ hcovered => hcovered⟩

theorem Effect.signed (h : Effect s o p s' p') :
    ∀ t ∈ s'.signed, t ∈ s.signed ∨ p.issues = some t.deviceID := by
  intro t ht
  cases h with
  | quiet hquiet _ _ =>
    rw [hquiet.signed] at ht
    exact .inl ht
  | revoked hquiet _ =>
    have ht' : t ∈ (s.atSuccess o p).signed := ht
    rw [hquiet.signed] at ht'
    exact .inl ht'
  | hashed _ _ _ _ _ _ _ | created _ _ | opened _ _ _ | joined _ _ | accepted _ | recovered _ =>
    exact .inl ht
  | @upserted u d _ _ _ _ _ =>
    obtain ⟨l, hl⟩ := upsertDevice_eq s d u
    rw [hl] at ht
    exact .inl ht
  | @drew u _ d _ _ =>
    obtain ⟨l, hl⟩ := upsertDevice_eq (s.record (.opened d u)) d u
    rw [hl] at ht
    exact .inl ht
  | issued _ _ _ =>
    rcases mem_cons.mp ht with rfl | ht
    · exact .inr rfl
    · rcases mem_cons.mp ht with rfl | ht
      · exact .inr rfl
      · exact .inl ht
  | stored hstored =>
    obtain ⟨-, rfl⟩ := storeRefreshToken_cases hstored
    exact .inl ht
  | consumed hconsumed _ =>
    obtain ⟨-, -, -, rfl⟩ := consumeRefreshToken_cases hconsumed
    exact .inl ht
  | consumedJTI hconsumed _ =>
    obtain ⟨-, rfl⟩ := consumeJTI_cases hconsumed
    exact .inl ht
  | changed hchanged =>
    obtain ⟨-, rfl⟩ := changePassword_cases hchanged
    exact .inl ht

/-- A call is about to issue tokens for a device that is new, or whose token it has just
    consumed, or was before. -/
theorem Effect.issues (h : Effect s o p s' p') (hledger : Ledger s) {d : ID}
    (hd : p'.issues = some d) : p.issues = some d ∨ ¬ s.Opened d ∨
      ∃ r ∈ s.refreshTokens, r.deviceID = d ∧ s.now < r.expiresAt := by
  cases h with
  | quiet _ hkeeps _ | upserted _ hkeeps _ => exact .inl (hkeeps.issues d hd)
  | hashed _ hissues _ _ _ _ _ =>
    rw [hissues] at hd
    cases hd
  | created _ hgoes | joined _ hgoes | recovered hgoes =>
    rcases hgoes with rfl | rfl
    · cases hd
    · cases hd
  | opened _ hfresh hgoes =>
    have hnew : ¬ s.Opened d := by
      rintro ⟨u', hu'⟩
      rcases hgoes with rfl | rfl
      · cases hd
        exact not_opened_of_fresh hfresh hu'
      · cases hd
        exact not_opened_of_fresh hfresh hu'
    exact .inr (.inl hnew)
  | drew _ _ | stored _ | revoked _ _ | changed _ => cases hd
  | issued _ _ _ =>
    cases hd
    exact .inl rfl
  | consumed hconsumed hgoes =>
    obtain ⟨hr, -, hnow, -⟩ := consumeRefreshToken_cases hconsumed
    obtain ⟨-, -, hdevice, -⟩ := hledger.consumed hconsumed
    rcases hgoes with rfl | ⟨rfl, rfl⟩ | ⟨x, rfl, rfl⟩
    · cases hd
    · cases hd
      exact .inr (.inr ⟨_, hr, rfl, hnow⟩)
    · cases hd
      exact .inr (.inr ⟨_, hr, hdevice, hnow⟩)
  | consumedJTI _ hgoes =>
    rcases hgoes with rfl | ⟨n, rfl, rfl⟩ | ⟨t, n, rfl, rfl⟩
    · cases hd
    · cases hd
    · cases hd
  | @accepted t rpc _ => cases rpc <;> cases hd

theorem Sealed.step {others : List Phase} {d : ID} (h : Sealed s (p :: others) d)
    (heffect : Effect s o p s' p') (hledger : Ledger s) (hopened : s.Opened d) :
    Sealed s' (p' :: others) d := by
  have hidle : p.issues ≠ some d := h.calls p mem_cons_self
  obtain ⟨hnow, hcovered⟩ := heffect.covered
  refine ⟨?_, ?_, ?_⟩
  · intro r hr hd
    rcases heffect.rows with hsub | ⟨r', rfl, hdevice, hrows, -⟩
    · exact Nat.le_trans (h.rows r (hsub.subset hr) hd) hnow
    · rw [hrows] at hr
      rcases mem_cons.mp hr with rfl | hold
      · exact absurd (congrArg some (hdevice.symm.trans hd)) hidle
      · exact Nat.le_trans (h.rows r hold hd) hnow
  · intro q hq hissues
    rcases mem_cons.mp hq with rfl | hq
    · rcases heffect.issues hledger hissues with hheld | hnew | ⟨r, hr, hd, hlive⟩
      · exact hidle hheld
      · exact hnew hopened
      · have hexpired := h.rows r hr hd
        omega
    · exact h.calls q (mem_cons_of_mem _ hq) hissues
  · intro t ht haccess hd
    rcases heffect.signed t ht with hold | hnew
    · exact hcovered t ((hledger.signed t hold).expires haccess) (h.tokens t hold haccess hd)
    · rw [hd] at hnew
      exact absurd hnew hidle

/-- Why an act may use a device. -/
def Licensed (s : State) (p : Phase) (d : ID) : Prop :=
  (∃ t rpc, p = .checking t rpc ∧ t.deviceID = d ∧
    (t.deviceID ≠ "" → s.isDeviceBlocked t.deviceID = false)) ∨
  ∃ u d' source, p = .generating u d' source ∧ ∃ t ∈ source.token, t.deviceID = d

theorem Phase.Acts.licensed {a : Act} {d : ID} (h : p.Acts s o a) (huses : a.uses d = true) :
    Licensed s p d := by
  cases a with
  | issued source access refresh =>
    obtain ⟨u, d', rfl, -⟩ := h
    rcases htoken : source.token with _ | t
    · simp [uses, htoken] at huses
    · exact .inr ⟨u, d', source, rfl, t, htoken, by simpa [uses, htoken] using huses⟩
  | accepted t =>
    obtain ⟨rpc, rfl, hunblocked⟩ := h
    exact .inl ⟨t, rpc, rfl, by simpa [uses] using huses, hunblocked⟩
  | _ => simp [uses] at huses

theorem Sealed.not_licensed {others : List Phase} {d : ID} (h : Sealed s (p :: others) d)
    (hledger : Ledger s) (htrue : p.Truthful s) (hopened : s.Opened d)
    (hchecks : ∀ t ∈ p.checks, t.deviceID = d → s.now ≤ t.expiresAt) : ¬ Licensed s p d := by
  rintro (⟨t, rpc, rfl, hd, hunblocked⟩ | ⟨u, d', source, rfl, t, ht, hd⟩)
  · have hlive := hchecks t rfl hd
    obtain ⟨hsigned, haccess⟩ := htrue
    have hnamed : t.deviceID ≠ "" := by
      obtain ⟨u, hu⟩ := hopened
      rw [hd]
      exact hledger.acts _ hu
    rcases h.tokens t hsigned haccess hd with hpast | ⟨expiry, hexpiry, hle⟩
    · omega
    · -- the entry of the blocklist has not expired
      have hblocked : s.isDeviceBlocked t.deviceID = true := by
        rw [State.isDeviceBlocked, Option.mem_def.mp hexpiry]
        simp only [Option.any_some, decide_eq_true_eq]
        omega
      rw [hunblocked hnamed] at hblocked
      cases hblocked
  · have hentitled : s.Entitles u d' source := htrue
    have hissues := h.calls _ mem_cons_self
    rw [← hd, (hentitled.token t ht).2] at hissues
    exact hissues rfl

end Step

/-! ## Section 4: Runs -/

/-- What was revoked has not been used since, and is sealed. -/
structure Lasting (s : Pooled) : Prop where
  sound : Sound s
  isFinal : Final s.shared.log
  sealed : ∀ d, .revoked d ∈ s.shared.log → Sealed s.shared s.calls d

theorem Sealed.perm {s : State} {l l' : List Phase} {d : ID} (h : Sealed s l d)
    (hperm : l.Perm l') : Sealed s l' d :=
  { h with calls := fun p hp => h.calls p (hperm.mem_iff.mpr hp) }

theorem Lasting.perm : Pool.OrderFree Lasting := by
  intro s l l' hperm h
  exact ⟨.perm s l l' hperm h.sound, h.isFinal, fun d hd => (h.sealed d hd).perm hperm⟩

theorem Lasting.start : Pool.StartKeeps Phase.begin Lasting := by
  intro s calls call h
  refine ⟨.start s calls call h.sound, h.isFinal, fun d hd => ?_⟩
  have hsealed := h.sealed d hd
  refine { hsealed with calls := fun p hp => ?_ }
  rcases mem_cons.mp hp with rfl | hp
  · rw [(begin_free call).issues]
    exact fun hnone => by cases hnone
  · exact hsealed.calls p hp

theorem Lasting.next : Pool.AllowedKeeps SealsRevoked Sessions.next Lasting := by
  intro s p others o s' p' h hseals hnext
  have heffect := next_effect hnext
  have hledger : Ledger s := h.sound.shared
  have htrue : p.Truthful s := h.sound.each p mem_cons_self
  have hopened : ∀ d, .revoked d ∈ s.log → s.Opened d := fun d hd => hledger.acts _ hd
  have hkept : ∀ d, .revoked d ∈ s.log → Sealed s' (p' :: others) d :=
    fun d hd => (h.sealed d hd).step heffect hledger (hopened d hd)
  refine ⟨Sound.next s p others o s' p' h.sound hnext, ?_, ?_⟩
  · show Final s'.log
    rcases heffect.acts with hlog | ⟨a, hlog, hact⟩ | ⟨rfl, -, hlog⟩
    · rw [hlog]
      exact h.isFinal
    · rw [hlog]
      refine h.isFinal.cons fun d hd => Bool.eq_false_iff.mpr fun hu => ?_
      refine (h.sealed d hd).not_licensed hledger htrue (hopened d hd) ?_ (hact.licensed hu)
      rintro t ht rfl
      exact hseals.2 t ht hd
    · have hfinal : Final (s.atSuccess o p).log := by
        rw [hlog]
        exact h.isFinal
      exact hfinal.recordRevoked (p.revokes o)
  · show ∀ d, .revoked d ∈ s'.log → Sealed s' (p' :: others) d
    intro d hd
    rcases heffect.acts with hlog | ⟨a, hlog, hact⟩ | ⟨rfl, rfl, hlog⟩
    · rw [hlog] at hd
      exact hkept d hd
    · rw [hlog] at hd
      rcases mem_cons.mp hd with rfl | hd
      · exact hact.elim
      · exact hkept d hd
    · rcases mem_append.mp hd with hnew | hold
      · obtain ⟨d', hd', heq⟩ := mem_map.mp hnew
        cases heq
        have hsealed := hseals.1 d hd'
        refine ⟨hsealed.rows, ?_, hsealed.tokens⟩
        intro q hq
        rcases mem_cons.mp hq with rfl | hq
        · exact fun hnone => by cases hnone
        · exact hsealed.calls q hq
      · rw [hlog] at hold
        exact hkept d hold

/-- A user registers on a phone. -/
def registers : List Event :=
  [.start (.register { authKey := [1], salt := [2] }),
   .advance 0 { userID := "anna", salt := [3] }, .advance 0 {}, .advance 0 { deviceID := "phone" },
   .advance 0 {}, .advance 0 { accessJTI := [4], refreshJTI := [5] }, .advance 0 {}]

def phoneAccess : Token :=
  { jti := [4], userID := "anna", deviceID := "phone", expiresAt := 3600 }

def phoneRefresh : Token :=
  { jti := [5], userID := "anna", deviceID := "phone", isRefresh := true, expiresAt := 2592000 }

/-- The phone logs out. Neither of its tokens is worth anything then. -/
def logsOut : List Event :=
  registers ++
    [.start (.request phoneAccess .logout), .advance 1 {}, .advance 1 {}, .advance 1 {},
     .advance 1 {},
     .start (.refreshToken phoneRefresh), .advance 2 {}, .advance 2 {},
     .advance 2 { accessJTI := [6], refreshJTI := [7] },
     .start (.request phoneAccess .other), .advance 3 {}, .advance 3 {}]

def laptopAccess : Token :=
  { jti := [8], userID := "anna", deviceID := "laptop", expiresAt := 3600 }

/-- The phone is revoked from a laptop. Its refresh token is left, and it gets new tokens. -/
def comesBack : List Event :=
  registers ++
    [.start (.login "anna" [1]), .advance 1 {}, .advance 1 { deviceID := "laptop" }, .advance 1 {},
     .advance 1 { accessJTI := [8], refreshJTI := [9] }, .advance 1 {},
     .start (.request laptopAccess (.revokeDevice "phone")), .advance 2 {}, .advance 2 {},
     .advance 2 {}, .advance 2 {},
     .start (.refreshToken phoneRefresh), .advance 3 {}, .advance 3 {},
     .advance 3 { accessJTI := [6], refreshJTI := [7] }, .advance 3 {}]

end Meza.Auth.Sessions
