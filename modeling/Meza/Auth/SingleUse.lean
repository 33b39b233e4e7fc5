import Meza.Auth.SessionSteps
import Meza.Lib.Rights

/-! # What is used once

    A refresh token lies in the table until one statement takes it out, and
    yields one pair of tokens at most. A hash is written once, so that of the
    calls that have verified it one at most finds it again. Both are rights:
    to issue a pair for a token, to store a token, to write a hash. -/

namespace Meza.Auth.Sessions
open List Rights Phase Act Option Credentials Sessions

open Aead (Bytes)
open Store (ID)

/-! ## Section 1: Rights -/

inductive Right where
  | use (t : Token)
  | store (t : Token)
  | write (h : Hash)
  deriving DecidableEq, Repr

def Act.grants : Act → Option Right
  | .stored t => some (.use t)
  | .issued _ _ t => some (.store t)
  | .hashed h => some (.write h)
  | _ => none

/-- The rights that an act spends: an issued pair may have a refresh token, or none. -/
def Act.spends : Act → Option Right
  | .issued source _ _ => source.token.map .use
  | .stored t => some (.store t)
  | .wrote _ _ c => some (.write c.authKeyHash)
  | _ => none

def Phase.holds (p : Phase) : Right → Prop
  | .use t => p.spends = some t
  | .store t => p.stores = some t
  | .write h => p.hash = some h

def State.stocks (s : State) : Right → Prop
  | .use t => ∃ r ∈ s.refreshTokens, r.token = t
  | _ => False

def books : Books State Phase Right where
  known s r := ∃ a ∈ s.log, a.grants = some r
  stock := State.stocks
  spent s r := ∃ a ∈ s.log, a.spends = some r
  holds := holds

variable {u : ID} {p : Phase} {t : Token}

theorem Phase.Free.not_holds (h : p.Free) (r : Right) : ¬ p.holds r := by
  cases r with
  | use t => simp [holds, h.spends]
  | store t => simp [holds, h.stores]
  | write k => simp [holds, h.hash]

theorem Phase.Keeps.holds {p' : Phase} (h : p.Keeps p') {r : Right} (hr : p'.holds r) :
    p.holds r := by
  cases r with
  | use t => exact h.spends t hr
  | store t => exact h.stores t hr
  | write k => exact h.hash k hr

/-! ## Section 2: One step -/

section Step

variable {s s' : State} {o : Outcome} {p' : Phase} {r : Right}

theorem passes_same (hI : Rights.Sound books s r) (hL : Rights.Rightful books s p r)
    (hold : ∀ a ∈ s.log, a ∈ s'.log)
    (hnew : ∀ a ∈ s'.log, a ∈ s.log ∨ (a.grants ≠ some r ∧ a.spends ≠ some r))
    (hrows : ∀ row ∈ s'.refreshTokens, row ∈ s.refreshTokens ∨ r ≠ .use row.token)
    (hholds : p'.holds r → p.holds r) : Passes books s p s' p' r := by
  refine Passes.same hI hL ⟨?_, ?_⟩ ?_ ⟨?_, ?_⟩ hholds
  · rintro ⟨a, ha, hgrants⟩
    rcases hnew a ha with ha | ha
    · exact ⟨a, ha, hgrants⟩
    · exact absurd hgrants ha.1
  · rintro ⟨a, ha, hgrants⟩
    exact ⟨a, hold a ha, hgrants⟩
  · intro hstock
    cases r with
    | use t =>
      obtain ⟨row, hrow, rfl⟩ := hstock
      rcases hrows row hrow with hrow | hne
      · exact ⟨row, hrow, rfl⟩
      · exact absurd rfl hne
    | store | write => exact hstock
  · rintro ⟨a, ha, hspends⟩
    rcases hnew a ha with ha | ha
    · exact ⟨a, ha, hspends⟩
    · exact absurd hspends ha.2
  · rintro ⟨a, ha, hspends⟩
    exact ⟨a, hold a ha, hspends⟩

theorem mem_record_same {log : List Act} {a : Act} (hgrants : a.grants ≠ some r)
    (hspends : a.spends ≠ some r) :
    ∀ b ∈ a :: log, b ∈ log ∨ (b.grants ≠ some r ∧ b.spends ≠ some r) := by
  intro b hb
  rcases mem_cons.mp hb with rfl | hb
  · exact .inr ⟨hgrants, hspends⟩
  · exact .inl hb

theorem passes_write {h : Hash} {v : Option Hash} {c : Credentials} (hI : Rights.Sound books s r)
    (hL : Rights.Rightful books s p r) (hp : p.hash = some h) (hc : c.authKeyHash = h)
    (hlog : s'.log = .wrote u v c :: s.log)
    (hrows : ∀ row ∈ s'.refreshTokens, row ∈ s.refreshTokens) (hfree : p'.Free) :
    Rights.Passes books s p s' p' r := by
  by_cases hr : r = .write h
  · subst hr
    refine Rights.Passes.spend hL hp ?_ (fun hstock => hstock) (hfree.not_holds (.write h))
    rintro ⟨a, ha, hgrants⟩
    exact ⟨a, by rw [hlog]; exact List.mem_cons_of_mem _ ha, hgrants⟩
  · refine passes_same hI hL (by rw [hlog]; exact fun _ ha => List.mem_cons_of_mem _ ha) ?_
      (fun row hrow => .inl (hrows row hrow)) fun hholds => absurd hholds (hfree.not_holds r)
    rw [hlog]
    refine mem_record_same (by simp [Act.grants]) ?_
    simp only [Act.spends, hc, ne_eq, Option.some.injEq]
    exact fun heq => hr heq.symm

/-- The tokens of the table are different. -/
def DistinctRows (s : State) : Prop := (s.refreshTokens.map RefreshRow.token).Nodup

theorem not_stocks_consumed {row : RefreshRow} (hdistinct : DistinctRows s)
    (hconsumed : s.consumeRefreshToken t = some (s', row)) : ¬ s'.stocks (.use t) := by
  obtain ⟨hrow, rfl, hlive, rfl⟩ := consumeRefreshToken_cases hconsumed
  rintro ⟨other, hother, htoken⟩
  obtain ⟨hother, hkept⟩ := mem_filter.mp hother
  have hsame : other = row := inj_on_of_nodup_map hdistinct hother hrow htoken
  subst hsame
  simp [hlive] at hkept

theorem not_known_refreshClaims {u d : ID} {source : Source} (hledger : Ledger s)
    (hfresh : s.jtiDrawn o.refreshJTI = false) :
    ¬ books.known s (.store (s.refreshClaims o u d source)) := by
  rintro ⟨a, ha, hgrants⟩
  cases a with
  | issued source' access refresh =>
    have heq : refresh = s.refreshClaims o u d source := by simpa [grants] using hgrants
    have hsigned := (hledger.acts _ ha).2.2
    rw [heq] at hsigned
    have hdrawn : s.jtiDrawn o.refreshJTI = true :=
      any_eq_true.mpr ⟨_, hsigned, by simp [State.refreshClaims]⟩
    rw [hfresh] at hdrawn
    cases hdrawn
  | _ => simp [grants] at hgrants

theorem issued_passes {d : ID} {source : Source} (hledger : Ledger s)
    (hfresh : s.jtiDrawn o.refreshJTI = false) (hsigned : s'.refreshTokens = s.refreshTokens)
    (hlog : s'.log = .issued source (s.accessClaims o u d source)
      (s.refreshClaims o u d source) :: s.log) (hI : Rights.Sound books s r)
    (hL : Rightful books s (.generating u d source) r) :
    Passes books s (.generating u d source) s' (.storing (s.refreshClaims o u d source)) r := by
  have hold : ∀ a ∈ s.log, a ∈ s'.log := by
    rw [hlog]
    exact fun _ ha => mem_cons_of_mem _ ha
  -- the right to store the new token is granted, and the right to use the old one is spent
  by_cases hstore : r = .store (s.refreshClaims o u d source)
  · subst hstore
    have hnew := @not_known_refreshClaims s o u d source hledger hfresh
    refine Passes.grant hnew ⟨_, by rw [hlog]; exact mem_cons_self, rfl⟩ (fun hstock => hstock) ?_
    rintro ⟨a, ha, hspends⟩
    rw [hlog] at ha
    rcases mem_cons.mp ha with rfl | ha
    · simp [Act.spends] at hspends
    · exact hnew (hI.spent_known ⟨a, ha, hspends⟩)
  · by_cases huse : ∃ t, source.token = some t ∧ r = .use t
    · obtain ⟨t, htoken, rfl⟩ := huse
      refine Passes.spend hL htoken ?_ ?_ (fun hholds => by cases hholds)
      · rintro ⟨a, ha, hgrants⟩
        exact ⟨a, hold a ha, hgrants⟩
      · rintro ⟨row, hrow, hrowToken⟩
        rw [hsigned] at hrow
        exact hL.stock htoken ⟨row, hrow, hrowToken⟩
    · refine passes_same hI hL hold ?_ ?_ ?_
      · rw [hlog]
        refine mem_record_same ?_ ?_
        · simp only [grants, ne_eq, some.injEq]
          exact fun heq => hstore heq.symm
        · intro hspends
          obtain ⟨t, htoken, hr⟩ := map_eq_some_iff.mp hspends
          exact huse ⟨t, htoken, hr.symm⟩
      · rw [hsigned]
        exact fun row hrow => Or.inl hrow
      · intro hholds
        cases r with
        | use | write => cases hholds
        | store t =>
          cases hholds
          exact absurd rfl hstore

theorem stored_passes (hstored : s.storeRefreshToken t = some s') (hI : ∀ r, Rights.Sound books s r)
    (hL : ∀ r, Rights.Rightful books s (.storing t) r) :
    Rights.Passes books s (.storing t) (s'.record (.stored t)) .returned r := by
  obtain ⟨-, rfl⟩ := storeRefreshToken_cases hstored
  by_cases hstore : r = .store t
  · subst hstore
    refine Rights.Passes.spend (hL _) rfl ?_ (fun hstock => hstock) (fun hholds => by cases hholds)
    rintro ⟨a, ha, hgrants⟩
    exact ⟨a, List.mem_cons_of_mem _ ha, hgrants⟩
  · by_cases huse : r = .use t
    · subst huse
      -- a token that is known to the table was stored
      have hnew : ¬ books.known s (.use t) := by
        rintro ⟨a, ha, hgrants⟩
        cases a with
        | stored t' =>
          have heq : t' = t := by simpa [Act.grants] using hgrants
          subst heq
          exact (hL (.store t')).spent rfl ⟨_, ha, rfl⟩
        | _ => simp [Act.grants] at hgrants
      refine .store hnew ⟨_, List.mem_cons_self, rfl⟩ ?_ (fun hholds => by cases hholds)
      rintro ⟨a, ha, hspends⟩
      rcases List.mem_cons.mp ha with rfl | ha
      · simp [Act.spends] at hspends
      · exact hnew ((hI _).spent_known ⟨a, ha, hspends⟩)
    · refine passes_same (hI r) (hL r) (fun _ ha => List.mem_cons_of_mem _ ha)
        (mem_record_same ?_ ?_) ?_ free_of_returned.holds
      · simp only [Act.grants, ne_eq, Option.some.injEq]
        exact fun heq => huse heq.symm
      · simp only [Act.spends, ne_eq, Option.some.injEq]
        exact fun heq => hstore heq.symm
      · intro row hrow
        rcases List.mem_cons.mp hrow with rfl | hrow
        · exact .inr huse
        · exact .inl hrow

/-- A token that is taken from the table is in the hand of the call, or lost. -/
theorem consumed_passes {row : RefreshRow} (hdistinct : DistinctRows s)
    (hconsumed : s.consumeRefreshToken t = some (s', row)) (hI : Rights.Sound books s r)
    (hL : Rightful books s p r)
    (hp' : p' = .returned ∨ ∃ u d source, p' = .generating u d source ∧ source.token = some t) :
    Passes books s p s' p' r := by
  have hnone := not_stocks_consumed hdistinct hconsumed
  obtain ⟨hrow, htoken, -, rfl⟩ := consumeRefreshToken_cases hconsumed
  have hrows : ∀ row ∈ (s.deleteRefreshTokens fun r => r.token = t ∧ s.now < r.expiresAt
      ).refreshTokens, row ∈ s.refreshTokens ∨ r ≠ .use row.token :=
    fun row hrow => .inl (mem_of_mem_filter hrow)
  rcases hp' with rfl | ⟨u, d, source, rfl, hsource⟩
  · exact passes_same hI hL (fun _ ha => ha) (fun _ ha => .inl ha) hrows free_of_returned.holds
  · by_cases huse : r = .use t
    · subst huse
      -- no other row holds the token, since the rows are distinct
      exact .take hI ⟨row, hrow, htoken⟩ id hnone id
    · refine passes_same hI hL (fun _ ha => ha) (fun _ ha => .inl ha) hrows ?_
      intro hholds
      cases r with
      | use t' =>
        have heq : some t = some t' := hsource.symm.trans hholds
        cases heq
        exact absurd rfl huse
      | store | write => cases hholds

theorem Effect.passes (h : Effect s o p s' p') (hdistinct : DistinctRows s) (hledger : Ledger s)
    (hI : ∀ r, Rights.Sound books s r) (hL : ∀ r, Rights.Rightful books s p r) (r : Right) :
    Passes books s p s' p' r := by
  have hlog := h.grows.log
  cases h with
  | quiet hquiet hkeeps _ =>
    refine passes_same (hI r) (hL r) hlog ?_ (fun row hrow => .inl (hquiet.rows.subset hrow))
      hkeeps.holds
    rw [hquiet.log]
    exact fun a ha => .inl ha
  | revoked hquiet _ =>
    refine passes_same (hI r) (hL r) hlog ?_ (fun row hrow => .inl (hquiet.rows.subset hrow))
      free_of_returned.holds
    intro a ha
    rcases mem_append.mp ha with hnew | hold
    · obtain ⟨d, -, rfl⟩ := mem_map.mp hnew
      exact .inr ⟨by simp [Act.grants], by simp [Act.spends]⟩
    · rw [hquiet.log] at hold
      exact .inl hold
  | @hashed _ _ h hfresh hissues hspends hhash hstores _ _ =>
    -- a fresh hash grants the right to write it
    by_cases hr : r = .write h
    · subst hr
      have hnew : ¬ books.known s (.write h) := by
        rintro ⟨a, ha, hgrants⟩
        cases a with
        | hashed h' =>
          have heq : h' = h := by simpa [grants] using hgrants
          subst heq
          simp [State.hashDrawn, ha] at hfresh
        | _ => simp [grants] at hgrants
      refine Passes.grant hnew ⟨_, mem_cons_self, rfl⟩ (fun hstock => hstock) ?_
      rintro ⟨a, ha, hspends'⟩
      rcases mem_cons.mp ha with rfl | ha
      · simp [Act.spends] at hspends'
      · exact hnew ((hI _).spent_known ⟨a, ha, hspends'⟩)
    · refine passes_same (hI r) (hL r) hlog (mem_record_same ?_ (by simp [Act.spends]))
        (fun row hrow => .inl hrow) ?_
      · simp only [grants, ne_eq, some.injEq]
        exact fun heq => hr heq.symm
      · intro hholds
        cases r with
        | use t => simp [holds, hspends] at hholds
        | store t => simp [holds, hstores] at hholds
        | write k =>
          rw [holds, hhash] at hholds
          cases hholds
          exact absurd rfl hr
  | created _ hgoes =>
    refine passes_write (hI r) (hL r) rfl rfl rfl (fun _ hrow => hrow) ?_
    rcases hgoes with rfl | rfl
    · exact ⟨rfl, rfl, rfl, rfl, rfl⟩
    · exact ⟨rfl, rfl, rfl, rfl, rfl⟩
  | opened _ _ hgoes =>
    refine passes_same (hI r) (hL r) hlog
      (mem_record_same (by simp [Act.grants]) (by simp [Act.spends])) (fun _ hrow => .inl hrow) ?_
    rcases hgoes with rfl | rfl
    · cases r <;> exact id
    · cases r <;> exact id
  | @upserted u d _ _ _ hkeeps _ =>
    obtain ⟨l, hl⟩ := upsertDevice_eq s d u
    rw [hl] at hlog ⊢
    exact passes_same (hI r) (hL r) hlog (fun a ha => .inl ha) (fun row hrow => .inl hrow)
      hkeeps.holds
  | @drew u _ d _ _ =>
    obtain ⟨l, hl⟩ := upsertDevice_eq (s.record (.opened d u)) d u
    rw [hl] at hlog ⊢
    exact passes_same (hI r) (hL r) hlog
      (mem_record_same (by simp [Act.grants]) (by simp [Act.spends]))
      (fun row hrow => .inl hrow) free_of_returned.holds
  | issued _ _ hrefresh => exact issued_passes hledger hrefresh rfl rfl (hI r) (hL r)
  | stored hstored => exact stored_passes hstored hI hL
  | @consumed t _ row _ _ hconsumed hgoes =>
    refine consumed_passes hdistinct hconsumed (hI r) (hL r) ?_
    rcases hgoes with rfl | ⟨-, rfl⟩ | ⟨x, -, rfl⟩
    · exact .inl rfl
    · exact .inr ⟨_, _, _, rfl, rfl⟩
    · exact .inr ⟨_, _, _, rfl, rfl⟩
  | consumedJTI hconsumed hgoes =>
    obtain ⟨-, rfl⟩ := consumeJTI_cases hconsumed
    have hnone : ¬ p'.holds r := by
      rcases hgoes with rfl | ⟨n, -, rfl⟩ | ⟨t, n, -, rfl⟩
      · cases r <;> simp [Phase.holds, Phase.spends, Phase.stores, Phase.hash]
      · cases r <;> simp [Phase.holds, Phase.spends, Phase.stores, Phase.hash]
      · cases r <;> simp [Phase.holds, Phase.spends, Phase.stores, Phase.hash]
    exact passes_same (hI r) (hL r) hlog
      (mem_record_same (by simp [Act.grants]) (by simp [Act.spends]))
      (fun _ hrow => .inl hrow) fun hholds => absurd hholds hnone
  | joined _ hgoes =>
    have hnone : ¬ p'.holds r := by
      rcases hgoes with rfl | rfl
      · cases r <;> simp [Phase.holds, Phase.spends, Phase.stores, Phase.hash]
      · cases r <;> simp [Phase.holds, Phase.spends, Phase.stores, Phase.hash, Source.token]
    exact passes_same (hI r) (hL r) hlog (fun _ ha => .inl ha) (fun _ hrow => .inl hrow)
      fun hholds => absurd hholds hnone
  | @accepted t rpc _ =>
    have hfree : (handler t.userID t.deviceID rpc).Free := by
      cases rpc <;> exact ⟨rfl, rfl, rfl, rfl, rfl⟩
    exact passes_same (hI r) (hL r) hlog
      (mem_record_same (by simp [Act.grants]) (by simp [Act.spends]))
      (fun _ hrow => .inl hrow) fun hholds => absurd hholds (hfree.not_holds r)
  | changed hchanged =>
    obtain ⟨-, rfl⟩ := changePassword_cases hchanged
    exact passes_write (hI r) (hL r) rfl rfl rfl (fun _ hrow => hrow) ⟨rfl, rfl, rfl, rfl, rfl⟩
  | recovered hgoes =>
    refine passes_write (hI r) (hL r) rfl rfl rfl (fun _ hrow => mem_of_mem_filter hrow) ?_
    rcases hgoes with rfl | rfl
    · exact ⟨rfl, rfl, rfl, rfl, rfl⟩
    · exact ⟨rfl, rfl, rfl, rfl, rfl⟩

end Step

/-! ## Section 3: Pairs and passwords -/

/-- The refresh tokens that pairs were issued for, once for each pair. -/
def pairTokens (log : List Act) : List Token :=
  log.filterMap fun a => match a with
    | .issued source _ _ => source.token
    | _ => none

/-- Credentials that were written, by a call that had verified a hash or not. -/
structure Write where
  userID : ID
  verified : Option Hash
  credentials : Credentials
  deriving DecidableEq, Repr

def writes (log : List Act) : List Write :=
  log.filterMap fun a => match a with
    | .wrote userID verified credentials => some { userID, verified, credentials }
    | _ => none

/-- What was written for a user last. -/
def latest (ws : List Write) (userID : ID) : Option Credentials :=
  (ws.find? fun w => w.userID = userID).map Write.credentials

theorem latest_cons (w : Write) (ws : List Write) (u : ID) :
    latest (w :: ws) u = if w.userID = u then some w.credentials else latest ws u := by
  by_cases hu : w.userID = u
  · simp [latest, hu]
  · simp [latest, hu]

/-- The write of a call that had verified a hash. -/
def Write.changes (userID : ID) (h : Hash) (w : Write) : Bool :=
  w.userID = userID ∧ w.verified = some h

/-- A call that had verified a hash has found it again. -/
def Chained : List Write → Prop
  | [] => True
  | w :: ws =>
    (∀ h ∈ w.verified, (latest ws w.userID).map authKeyHash = some h) ∧ Chained ws

/-- For each change from a hash the hash had been written, and it is gone after it. -/
theorem Chained.count_le {ws : List Write} (hchained : Chained ws) (u : ID) (h : Hash) :
    ws.countP (Write.changes u h) +
        (if (latest ws u).map authKeyHash = some h then 1 else 0) ≤
      (ws.map fun w => w.credentials.authKeyHash).count h := by
  induction ws with
  | nil => simp [latest]
  | cons w ws ih =>
    have hrest := ih hchained.2
    rw [countP_cons, map_cons, count_cons, latest_cons]
    by_cases hu : w.userID = u
    · subst hu
      by_cases hv : w.verified = some h
      · have hlatest := hchained.1 h hv
        rw [if_pos hlatest] at hrest
        simp only [Write.changes, hv, and_self, decide_true, if_true, map_some,
          some.injEq, beq_iff_eq]
        split <;> omega
      · simp only [Write.changes, hv, and_false, decide_false, Bool.false_eq_true, if_false,
          if_true, map_some, some.injEq, beq_iff_eq]
        split <;> omega
    · simp only [Write.changes, hu, false_and, decide_false, Bool.false_eq_true, if_false]
      omega

section Step

variable {s s' : State} {o : Outcome} {p' : Phase}

theorem writes_revoked (ds : List ID) (log : List Act) :
    writes (ds.map .revoked ++ log) = writes log ∧
      pairTokens (ds.map .revoked ++ log) = pairTokens log := by
  induction ds with
  | nil => exact ⟨rfl, rfl⟩
  | cons d ds ih => exact ih

/-- A pair is issued by a call that has the token in hand. -/
theorem Effect.pairs (h : Effect s o p s' p') : pairTokens s'.log = pairTokens s.log ∨
    ∃ t, p.spends = some t ∧ pairTokens s'.log = t :: pairTokens s.log := by
  rcases h.acts with hlog | ⟨a, hlog, hact⟩ | ⟨rfl, -, hlog⟩
  · rw [hlog]
    exact .inl rfl
  · rw [hlog]
    cases a with
    | issued source access refresh =>
      obtain ⟨u, d, rfl, -⟩ := hact
      rcases htoken : source.token with _ | t
      · left
        simp [pairTokens, htoken]
      · exact .inr ⟨t, htoken, by simp [pairTokens, htoken]⟩
    | _ => exact .inl rfl
  · left
    show pairTokens (_ ++ (s.atSuccess o p).log) = _
    rw [(writes_revoked _ _).2, hlog]

/-- Credentials are written as a whole, by a call that has their hash in hand. -/
theorem Effect.writes (h : Effect s o p s' p') :
    (s'.userAuth = s.userAuth ∧ writes s'.log = writes s.log) ∨
      ∃ w : Write, s'.userAuth = Function.update s.userAuth w.userID (some w.credentials) ∧
        writes s'.log = w :: writes s.log ∧
        p.hash = some w.credentials.authKeyHash ∧
        ∀ k ∈ w.verified, (s.userAuth w.userID).map authKeyHash = some k := by
  cases h with
  | quiet hquiet _ _ =>
    left
    rw [hquiet.log, hquiet.userAuth]
    exact ⟨rfl, rfl⟩
  | revoked hquiet _ =>
    left
    refine ⟨hquiet.userAuth, ?_⟩
    show writes (_ ++ (s.atSuccess o p).log) = _
    rw [(writes_revoked _ _).1, hquiet.log]
  | @upserted u d _ _ _ _ _ =>
    obtain ⟨l, hl⟩ := upsertDevice_eq s d u
    rw [hl]
    exact .inl ⟨rfl, rfl⟩
  | @drew u _ d _ _ =>
    obtain ⟨l, hl⟩ := upsertDevice_eq (s.record (.opened d u)) d u
    rw [hl]
    exact .inl ⟨rfl, rfl⟩
  | issued _ _ _ | hashed _ _ _ _ _ _ _ | opened _ _ _ | joined _ _ | accepted _ =>
    exact .inl ⟨rfl, rfl⟩
  | stored hstored =>
    obtain ⟨-, rfl⟩ := storeRefreshToken_cases hstored
    exact .inl ⟨rfl, rfl⟩
  | consumed hconsumed _ =>
    obtain ⟨-, -, -, rfl⟩ := consumeRefreshToken_cases hconsumed
    exact .inl ⟨rfl, rfl⟩
  | consumedJTI hconsumed _ =>
    obtain ⟨-, rfl⟩ := consumeJTI_cases hconsumed
    exact .inl ⟨rfl, rfl⟩
  | @created u c hash _ _ _ | @recovered u c hash _ _ _ =>
    right
    refine ⟨{ userID := u, verified := none, credentials := c.row hash }, rfl, rfl, rfl, ?_⟩
    rintro k ⟨⟩
  | @changed u v c hash _ hchanged =>
    obtain ⟨⟨old, hold, hhash⟩, rfl⟩ := changePassword_cases hchanged
    right
    refine ⟨{ userID := u, verified := some v, credentials := c.row hash }, rfl, rfl, rfl, ?_⟩
    rintro k ⟨⟩
    simp [hold, hhash]

theorem DistinctRows.step (h : DistinctRows s) (heffect : Effect s o p s' p') :
    DistinctRows s' := by
  rcases heffect.rows with hsub | ⟨r, -, -, hrows, hfresh⟩
  · exact (hsub.map RefreshRow.token).nodup h
  · show (s'.refreshTokens.map _).Nodup
    rw [hrows]
    refine nodup_cons.mpr ⟨fun hmem => ?_, h⟩
    obtain ⟨r', hr', htoken⟩ := mem_map.mp hmem
    exact hfresh r' hr' htoken

end Step

/-! ## Section 4: Runs -/

/-- Every right is in one place, and what has spent one is in the log once. -/
structure Accounted (s : Pooled) : Prop where
  sound : Sound s
  rights : Rights.Kept books s
  distinct : DistinctRows s.shared
  pairs : (pairTokens s.shared.log).Nodup
  hashes : ((writes s.shared.log).map fun w => w.credentials.authKeyHash).Nodup
  written : ∀ u, s.shared.userAuth u = latest (writes s.shared.log) u
  chained : Chained (writes s.shared.log)

theorem Accounted.perm : Pool.OrderFree Accounted := by
  intro s l l' hperm h
  exact { h with
    sound := .perm s l l' hperm h.sound
    rights := .perm s l l' hperm h.rights }

theorem Accounted.start : Pool.StartKeeps begin Accounted := by
  intro s calls call h
  exact { h with
    sound := .start s calls call h.sound
    rights := h.rights.start (begin_free call).not_holds }

/-- A right that a call has in hand has not been spent. -/
theorem not_mem_pairTokens {s : State}
    (h : Rightful books s p (.use t)) (ht : p.spends = some t) : t ∉ pairTokens s.log := by
  intro hmem
  obtain ⟨a, ha, hat⟩ := mem_filterMap.mp hmem
  cases a with
  | issued source access refresh =>
    refine h.spent ht ⟨_, ha, ?_⟩
    have htoken : source.token = some t := hat
    simp [Act.spends, htoken]
  | _ => cases hat

theorem not_mem_hashes {s : State} {k : Hash} (h : Rightful books s p (.write k))
    (hk : p.hash = some k) : k ∉ (writes s.log).map fun w => w.credentials.authKeyHash := by
  intro hmem
  obtain ⟨w, hw, hwk⟩ := mem_map.mp hmem
  obtain ⟨a, ha, haw⟩ := mem_filterMap.mp hw
  cases a with
  | wrote u v c =>
    cases haw
    exact h.spent hk ⟨_, ha, by rw [← hwk]; rfl⟩
  | _ => cases haw

theorem Accounted.next : Pool.NextKeeps next Accounted := by
  intro s p others o s' p' h hnext
  have heffect := next_effect hnext
  have hrightful : ∀ r, Rightful books s p r := h.rights.each p mem_cons_self
  have hsound := Sound.next s p others o s' p' h.sound hnext
  have hrights : Rights.Kept books { shared := s', calls := p' :: others } :=
    h.rights.pass (heffect.passes h.distinct h.sound.shared h.rights.shared hrightful)
  have hdistinct : DistinctRows s' := DistinctRows.step h.distinct heffect
  have hpairs : (pairTokens s'.log).Nodup := by
    rcases heffect.pairs with hsame | ⟨t, ht, hcons⟩
    · rw [hsame]
      exact h.pairs
    · rw [hcons]
      exact nodup_cons.mpr ⟨not_mem_pairTokens (hrightful _) ht, h.pairs⟩
  rcases heffect.writes with ⟨hauth, hsame⟩ | ⟨w, hauth, hcons, hhash, hverified⟩
  · refine ⟨hsound, hrights, hdistinct, hpairs, ?_, ?_, ?_⟩
    · show ((writes s'.log).map _).Nodup
      rw [hsame]
      exact h.hashes
    · show ∀ u, s'.userAuth u = latest (writes s'.log) u
      rw [hsame, hauth]
      exact h.written
    · show Chained (writes s'.log)
      rw [hsame]
      exact h.chained
  · refine ⟨hsound, hrights, hdistinct, hpairs, ?_, ?_, ?_⟩
    · show ((writes s'.log).map _).Nodup
      rw [hcons]
      exact nodup_cons.mpr ⟨not_mem_hashes (hrightful _) hhash, h.hashes⟩
    · show ∀ u, s'.userAuth u = latest (writes s'.log) u
      intro u
      rw [hcons, hauth, latest_cons]
      by_cases hu : w.userID = u
      · subst hu
        rw [Function.update_self, if_pos rfl]
      · rw [Function.update_of_ne (Ne.symm hu), if_neg hu]
        exact h.written u
    · show Chained (writes s'.log)
      rw [hcons]
      refine ⟨fun k hk => ?_, h.chained⟩
      have hlatest : s.userAuth w.userID = latest (writes s.log) w.userID := h.written w.userID
      rw [← hlatest]
      exact hverified k hk

theorem accounted_exec (originURL instanceURL : String) (evs : List Event) :
    Accounted (Run.exec step (initial originURL instanceURL) evs) := by
  refine Pool.keeps_always Accounted.perm Accounted.start Accounted.next ?_ evs
  refine ⟨Sound.init originURL instanceURL, Pool.Inv.init fun r => ⟨?_, ?_, ?_⟩, nodup_nil,
    nodup_nil, nodup_nil, fun _ => rfl, trivial⟩
  · intro hstock
    cases r with
    | use t =>
      obtain ⟨row, hrow, -⟩ := hstock
      cases hrow
    | store | write => cases hstock
  · rintro - ⟨a, ha, -⟩
    cases ha
  · rintro ⟨a, ha, -⟩
    cases ha

/-- A token yields one pair at most. Of the calls that have verified a hash one at most changes
    the account, and then no other does: the credentials and the bundle are as it wrote them. -/
structure SingleUse (s : Pooled) : Prop where
  pairs : ∀ t, (pairTokens s.shared.log).count t ≤ 1
  changes : ∀ u h, (writes s.shared.log).countP (Write.changes u h) ≤ 1
  written : ∀ u, s.shared.userAuth u = latest (writes s.shared.log) u
  losers : ∀ i o u v c h, s.calls[i]? = some (.changing u v c h) →
    (∃ w ∈ writes s.shared.log, w.changes u v = true) →
    (step s (.advance i o)).shared = s.shared

theorem Accounted.changes_le {s : Pooled} (h : Accounted s) (u : ID) (k : Hash) :
    (writes s.shared.log).countP (Write.changes u k) +
      (if (s.shared.userAuth u).map authKeyHash = some k then 1 else 0) ≤ 1 := by
  rw [h.written u]
  exact Nat.le_trans (h.chained.count_le u k) (nodup_iff_count_le_one.mp h.hashes k)

/-- A call whose hash has been changed by another finds it no more. -/
theorem Accounted.losers {s : Pooled} (h : Accounted s) {i : Nat} {v : Hash} {c : NewCredentials}
    {k : Hash} (hp : s.calls[i]? = some (.changing u v c k))
    (hwon : ∃ w ∈ writes s.shared.log, w.changes u v = true) (o : Outcome) :
    (step s (.advance i o)).shared = s.shared := by
  have hpos := countP_pos_iff.mpr hwon
  have hle := h.changes_le u v
  have hgone : s.shared.changePassword u v (c.row k) = none := by
    rcases hchanged : s.shared.changePassword u v (c.row k) with _ | s₁
    · rfl
    · obtain ⟨⟨old, hold, hhash⟩, -⟩ := changePassword_cases hchanged
      rw [hold, map_some, hhash, if_pos rfl] at hle
      omega
  rw [step, Pool.shared_advance hp]
  simp only [Sessions.next, passwordStep, hgone]
  split
  · rfl
  · rfl

/-- **Refresh tokens are single use**, and so are the hashes that are verified. -/
theorem singleUse_exec (originURL instanceURL : String) (evs : List Event) :
    SingleUse (Run.exec step (initial originURL instanceURL) evs) := by
  have haccounted := accounted_exec originURL instanceURL evs
  refine ⟨nodup_iff_count_le_one.mp haccounted.pairs, ?_, haccounted.written, ?_⟩
  · intro u k
    exact Nat.le_trans (Nat.le_add_right _ _) (haccounted.changes_le u k)
  · intro i o u v c k hp hwon
    exact haccounted.losers hp hwon o

end Meza.Auth.Sessions
