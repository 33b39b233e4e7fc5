import Meza.Keys.EnvelopeStore

/-! # Concurrent rotations

    Any number of `RotateChannelKey` and `StoreKeyEnvelopes` calls run as
    transactions, one statement a step. A transaction sees the committed
    tables; what it writes becomes visible when it commits, and until then
    nobody else can write the version row it has written. A call can fail at
    any point, and a commit can go through without the caller hearing of it.

    The version row is what rotations agree on: Section 3 shows that it only
    moves forward, one step at a time, and that at most one rotation succeeds
    for each expected version. -/

namespace Meza.Keys

open Store Table KeyTables EnvelopeRow

/-! ## Section 1: Calls and phases -/

inductive KeyCall where
  | rotate (channelID : ID) (expectedVersion : Nat) (envelopes : List KeyEnvelope)
  | store (channelID : ID) (version : Nat) (envelopes : List KeyEnvelope)

def KeyCall.channelID : KeyCall → ID
  | .rotate c _ _ => c
  | .store c _ _ => c

def KeyCall.envelopes : KeyCall → List KeyEnvelope
  | .rotate _ _ envs => envs
  | .store _ _ envs => envs

/-- What a transaction has done to the version row. -/
inductive VersionWrite where
  | none
  | insert (version : Nat)
  | bump (expectedVersion : Nat)
  deriving DecidableEq

def VersionWrite.apply (channelID : ID) (k : KeyTables) : VersionWrite → KeyTables
  | .none => k
  | .insert v => k.insertVersion channelID v
  | .bump e => k.bumpVersion channelID e

/-- An open transaction with its uncommitted writes. -/
structure Tx where
  call : KeyCall
  newVersion : Nat
  version : VersionWrite
  puts : List KeyEnvelope := []
  deletes : List (ID × ID × Nat) := []

/-- The tables once the transaction's writes are applied. -/
def Tx.apply (tx : Tx) (k : KeyTables) : KeyTables :=
  let k := tx.version.apply tx.call.channelID k
  let k := k.putEnvelopes tx.call.channelID tx.newVersion tx.puts
  { k with
    channelKeyEnvelopes := deleteWhere (·.key ∈ tx.deletes) k.channelKeyEnvelopes }

inductive Phase where
  | idle
  | begun (call : KeyCall)
  /-- The version statement is done. -/
  | claimed (tx : Tx)
  /-- The envelopes are written. -/
  | filled (tx : Tx)
  /-- A rotation has cleaned up. -/
  | cleaned (tx : Tx)
  | returned (call : KeyCall) (result : Except KeyError Nat)

/-- The transaction of a phase that has written something. -/
def Phase.tx : Phase → Option Tx
  | .claimed tx | .filled tx | .cleaned tx => some tx
  | _ => none

/-- The call of a phase that is neither idle nor finished. -/
def Phase.running : Phase → Option KeyCall
  | .begun call => some call
  | .claimed tx | .filled tx | .cleaned tx => some tx.call
  | _ => none

abbrev CallID : Type := Nat

structure Sys where
  tables : KeyTables
  phase : CallID → Phase

/-- The phase holds the lock on the channel's version row. -/
def Phase.Holds (channelID : ID) (phase : Phase) : Prop :=
  ∃ tx, phase.tx = some tx ∧ tx.call.channelID = channelID ∧ tx.version ≠ .none

/-- No other call holds the lock. -/
def Sys.Free (s : Sys) (i : CallID) (channelID : ID) : Prop :=
  ∀ j, j ≠ i → ¬ (s.phase j).Holds channelID

def Sys.goto (s : Sys) (i : CallID) (phase : Phase) : Sys :=
  { s with phase := Function.update s.phase i phase }

/-- The keys the clean-up statement deletes: it sees the committed rows and the
    transaction's own. -/
def staleKeys (tx : Tx) (k : KeyTables) : List (ID × ID × Nat) :=
  (((tx.apply k).channelKeyEnvelopes.filter fun row =>
      row.channelID = tx.call.channelID ∧ row.keyVersion < tx.newVersion ∧
        row.userID ∉ tx.puts.map (·.userID))).map key

/-- A step of call `i`. -/
inductive Step (i : CallID) (s : Sys) : Sys → Prop where
  | begin (call : KeyCall) : s.phase i = .idle → Step i s (s.goto i (.begun call))
  /-- `INSERT … ON CONFLICT DO NOTHING` of a first rotation: the row is new. -/
  | rotateInsert (c : ID) (envs : List KeyEnvelope) :
      s.phase i = .begun (.rotate c 0 envs) → s.Free i c → s.tables.currentVersion c = none →
      Step i s (s.goto i (.claimed
        { call := .rotate c 0 envs, newVersion := 1, version := .insert 1 }))
  /-- The row is there already: `ErrVersionMismatch`. -/
  | rotateExists (c : ID) (envs : List KeyEnvelope) (v : Nat) :
      s.phase i = .begun (.rotate c 0 envs) → s.tables.currentVersion c = some v →
      Step i s (s.goto i (.returned (.rotate c 0 envs) (.error .versionMismatch)))
  /-- `UPDATE … WHERE current_version = $2` finds the row. -/
  | rotateBump (c : ID) (e : Nat) (envs : List KeyEnvelope) :
      s.phase i = .begun (.rotate c e envs) → e ≠ 0 → s.Free i c →
      s.tables.currentVersion c = some e →
      Step i s (s.goto i (.claimed
        { call := .rotate c e envs, newVersion := e + 1, version := .bump e }))
  /-- The update finds no row; it need not wait for the lock to see that. -/
  | rotateMiss (c : ID) (e : Nat) (envs : List KeyEnvelope) :
      s.phase i = .begun (.rotate c e envs) → e ≠ 0 → s.tables.currentVersion c ≠ some e →
      Step i s (s.goto i (.returned (.rotate c e envs) (.error .versionMismatch)))
  /-- `StoreKeyEnvelopes` creates the version row. -/
  | storeInsert (c : ID) (v : Nat) (envs : List KeyEnvelope) :
      s.phase i = .begun (.store c v envs) → s.Free i c → s.tables.currentVersion c = none →
      Step i s (s.goto i (.claimed
        { call := .store c v envs, newVersion := v, version := .insert v }))
  /-- `StoreKeyEnvelopes` leaves an existing version row alone. -/
  | storeExists (c : ID) (v w : Nat) (envs : List KeyEnvelope) :
      s.phase i = .begun (.store c v envs) → s.tables.currentVersion c = some w →
      Step i s (s.goto i (.claimed { call := .store c v envs, newVersion := v, version := .none }))
  | fill (tx : Tx) :
      s.phase i = .claimed tx →
      Step i s (s.goto i (.filled { tx with puts := tx.call.envelopes }))
  | clean (tx : Tx) (c : ID) (e : Nat) (envs : List KeyEnvelope) :
      s.phase i = .filled tx → tx.call = .rotate c e envs →
      Step i s (s.goto i (.cleaned
        { tx with deletes := if envs.isEmpty then [] else staleKeys tx s.tables }))
  /-- A rotation commits after the clean-up, a store after the envelopes. -/
  | commit (tx : Tx) (result : Except KeyError Nat) :
      s.phase i = .cleaned tx ∨
        (s.phase i = .filled tx ∧ ∃ c v envs, tx.call = .store c v envs) →
      -- the answer is the new version, or lost on the way back
      (result = .ok tx.newVersion ∨ ∃ op, result = .error (.failed op)) →
      Step i s ({ s with tables := tx.apply s.tables }.goto i (.returned tx.call result))
  /-- A constraint, a timeout or a lost connection: rolled back. -/
  | fail (call : KeyCall) (op : String) :
      (s.phase i).running = some call →
      Step i s (s.goto i (.returned call (.error (.failed op))))

/-- Any interleaving. -/
def Steps : Sys → Sys → Prop := Relation.ReflTransGen (fun s s' => ∃ i, Step i s s')

variable {i j : CallID} {r : Except KeyError Nat} {c : ID} {call : KeyCall} {k : KeyTables} {tx : Tx}
  {p : Phase} {s s' : Sys}

@[simp] theorem goto_tables (s : Sys) (i : CallID) (p : Phase) : (s.goto i p).tables = s.tables :=
  rfl

@[simp] theorem goto_phase_self (s : Sys) (i : CallID) (p : Phase) : (s.goto i p).phase i = p :=
  Function.update_self _ _ _

theorem goto_phase_of_ne (s : Sys) (p : Phase) (h : j ≠ i) : (s.goto i p).phase j = s.phase j :=
  Function.update_of_ne h _ _

/-! ## Section 2: The invariant -/

/-- What an open transaction may rely on: the version row it has written is
    still as its statement found it. -/
def Tx.Sound (k : KeyTables) (tx : Tx) : Prop :=
  match tx.version with
  | .none => ∃ c v envs, tx.call = .store c v envs
  | .insert v => k.currentVersion tx.call.channelID = none ∧ tx.newVersion = v ∧
      ∀ c e envs, tx.call = .rotate c e envs → e = 0 ∧ v = 1
  | .bump e => k.currentVersion tx.call.channelID = some e ∧ tx.newVersion = e + 1 ∧
      ∃ c envs, tx.call = .rotate c e envs

def Phase.Sound (k : KeyTables) : Phase → Prop
  | .claimed tx | .filled tx | .cleaned tx => tx.Sound k
  | .returned (.rotate c e _) (.ok r) => r = e + 1 ∧ ∃ v, k.currentVersion c = some v ∧ e + 1 ≤ v
  | _ => True

theorem Phase.Sound.of_tx (h : p.Sound k) (htx : p.tx = some tx) : tx.Sound k := by
  cases p with
  | claimed | filled | cleaned => cases htx; exact h
  | _ => cases htx

/-- The call has returned success to a rotation of `c` from version `e`. -/
def Phase.Rotated (c : ID) (e : Nat) (phase : Phase) : Prop :=
  ∃ envs r, phase = .returned (.rotate c e envs) (.ok r)

structure Inv (s : Sys) : Prop where
  /-- At most one call holds the version row of a channel. -/
  exclusive : ∀ c i j, (s.phase i).Holds c → (s.phase j).Holds c → i = j
  sound : ∀ i, (s.phase i).Sound s.tables
  /-- One winner per channel and expected version. -/
  once : ∀ c e i j, (s.phase i).Rotated c e → (s.phase j).Rotated c e → i = j

/-- A version row moves from absent to any version, and then by one. -/
def VersionMoves (before after : Option Nat) : Prop :=
  after = before ∨ before = none ∨ ∃ v, before = some v ∧ after = some (v + 1)

theorem apply_currentVersion (h : tx.Sound k) (c : ID) :
    (tx.apply k).currentVersion c =
      if c = tx.call.channelID ∧ tx.version ≠ .none then some tx.newVersion
      else k.currentVersion c := by
  have happly : (tx.apply k).currentVersion c =
      (tx.version.apply tx.call.channelID k).currentVersion c := rfl
  rw [happly]
  unfold Tx.Sound at h
  cases hv : tx.version with
  | none => simp [VersionWrite.apply]
  | insert v =>
    rw [hv] at h
    obtain ⟨hnone, hnew, -⟩ := h
    simp only [VersionWrite.apply, currentVersion_insertVersion, hnone]
    by_cases hc : c = tx.call.channelID
    · simp [hc, hnew]
    · simp [hc]
  | bump e =>
    rw [hv] at h
    obtain ⟨hcur, hnew, -⟩ := h
    simp only [VersionWrite.apply, currentVersion_bumpVersion _ _ _ _ hcur]
    by_cases hc : c = tx.call.channelID
    · simp [hc, hnew]
    · simp [hc]

theorem apply_moves (h : tx.Sound k) (c : ID) :
    VersionMoves (k.currentVersion c) ((tx.apply k).currentVersion c) := by
  rw [apply_currentVersion h]
  by_cases hc : c = tx.call.channelID ∧ tx.version ≠ .none
  · rw [if_pos hc]
    obtain ⟨rfl, hwrite⟩ := hc
    unfold Tx.Sound at h
    cases hv : tx.version with
    | none => exact absurd hv hwrite
    | insert v =>
      rw [hv] at h
      exact .inr (.inl h.1)
    | bump e =>
      rw [hv] at h
      exact .inr (.inr ⟨e, h.1, by rw [h.2.1]⟩)
  · rw [if_neg hc]
    exact .inl rfl

theorem VersionMoves.le {before after : Option Nat} (h : VersionMoves before after) {v : Nat}
    (hv : before = some v) : ∃ w, after = some w ∧ v ≤ w := by
  rcases h with h | h | ⟨u, hu, hafter⟩
  · exact ⟨v, h.trans hv, Nat.le_refl v⟩
  · rw [h] at hv
    cases hv
  · rw [hu] at hv
    cases hv
    exact ⟨v + 1, hafter, by omega⟩

theorem Tx.Sound.rotate (h : tx.Sound k) {e : Nat} {envs : List KeyEnvelope}
    (hcall : tx.call = .rotate c e envs) :
    tx.version ≠ .none ∧ tx.newVersion = e + 1 ∧
      (k.currentVersion c = none ∧ e = 0 ∨ k.currentVersion c = some e) := by
  have hchan : tx.call.channelID = c := by rw [hcall]; rfl
  unfold Tx.Sound at h
  cases hv : tx.version with
  | none =>
    rw [hv] at h
    obtain ⟨c', v', envs', hstore⟩ := h
    rw [hcall] at hstore
    cases hstore
  | insert v =>
    rw [hv, hchan] at h
    obtain ⟨hnone, hnew, hzero⟩ := h
    obtain ⟨rfl, rfl⟩ := hzero c e envs hcall
    exact ⟨by simp, hnew, .inl ⟨hnone, rfl⟩⟩
  | bump e' =>
    rw [hv, hchan] at h
    obtain ⟨hcur, hnew, c', envs', hrot⟩ := h
    rw [hcall] at hrot
    cases hrot
    exact ⟨by simp, hnew, .inr hcur⟩

/-! ## Section 3: Every step keeps the invariant -/

/-- A step that leaves the tables alone: the new phase is sound, takes the lock
    only when it is free, and is no success. -/
structure Quiet (i : CallID) (s : Sys) (p : Phase) : Prop where
  sound : p.Sound s.tables
  locks : ∀ c, p.Holds c → (s.phase i).Holds c ∨ s.Free i c
  notOk : ∀ call r, p ≠ .returned call (.ok r)

theorem not_holds_returned : ¬ (Phase.returned call r).Holds c := by
  intro hex
  obtain ⟨tx, htx, -⟩ := hex
  cases htx

theorem sound_error (call : KeyCall) (err : KeyError) :
    (Phase.returned call (.error err)).Sound k := by
  cases call <;> trivial

theorem quiet_error (i : CallID) (s : Sys) (call : KeyCall) (err : KeyError) :
    Quiet i s (.returned call (.error err)) where
  sound := sound_error call err
  locks := fun _ h => absurd h not_holds_returned
  notOk := by
    intro call' r h
    cases h

theorem quiet_claimed (hsound : tx.Sound s.tables)
    (hfree : tx.version ≠ .none → s.Free i tx.call.channelID) : Quiet i s (.claimed tx) where
  sound := hsound
  locks := by
    rintro c ⟨tx', htx', rfl, hwrite⟩
    cases htx'
    exact .inr (hfree hwrite)
  notOk := by
    intro call r h
    cases h

theorem quiet_later {tx' : Tx} (htx : (s.phase i).tx = some tx) (hp : p.tx = some tx')
    (hcall : tx'.call = tx.call) (hversion : tx'.version = tx.version) (hsound : p.Sound s.tables)
    (hnotOk : ∀ call r, p ≠ .returned call (.ok r)) : Quiet i s p where
  sound := hsound
  locks := by
    rintro c ⟨tx'', htx'', hchan, hwrite⟩
    rw [hp] at htx''
    cases htx''
    exact .inl ⟨tx, htx, by rw [← hcall]; exact hchan, by rw [← hversion]; exact hwrite⟩
  notOk := hnotOk

/-- **What a step can do**: change only its own phase, or commit. -/
theorem step_cases (h : Step i s s') (hsound : (s.phase i).Sound s.tables) :
    (∃ p, s' = s.goto i p ∧ Quiet i s p) ∨
      ∃ tx result, (s.phase i).tx = some tx ∧
        (result = .ok tx.newVersion ∨ ∃ op, result = .error (.failed op)) ∧
        s' = { s with tables := tx.apply s.tables }.goto i (.returned tx.call result) := by
  cases h with
  | begin call hidle =>
    refine .inl ⟨_, rfl, trivial, ?_, ?_⟩
    · rintro c ⟨tx, htx, -⟩
      cases htx
    · intro call' r h
      cases h
  | rotateInsert c envs hbegun hfree hnone =>
    refine .inl ⟨_, rfl, quiet_claimed ⟨hnone, rfl, ?_⟩ fun _ => hfree⟩
    intro c' e' envs' hcall
    cases hcall
    exact ⟨rfl, rfl⟩
  | rotateExists | rotateMiss | fail => exact .inl ⟨_, rfl, quiet_error i s _ _⟩
  | rotateBump c e envs hbegun hpos hfree hcur =>
    exact .inl ⟨_, rfl, quiet_claimed ⟨hcur, rfl, c, envs, rfl⟩ fun _ => hfree⟩
  | storeInsert c v envs hbegun hfree hnone =>
    refine .inl ⟨_, rfl, quiet_claimed ⟨hnone, rfl, ?_⟩ fun _ => hfree⟩
    intro c' e' envs' hcall
    cases hcall
  | storeExists c v w envs hbegun hcur =>
    -- nothing is written, so the lock is not needed
    exact .inl ⟨_, rfl, quiet_claimed ⟨c, v, envs, rfl⟩ fun hwrite => absurd rfl hwrite⟩
  | fill tx hclaimed =>
    rw [hclaimed] at hsound
    have htx : (s.phase i).tx = some tx := by rw [hclaimed]; rfl
    refine .inl ⟨_, rfl, quiet_later htx rfl rfl rfl hsound ?_⟩
    intro call r h
    cases h
  | clean tx c e envs hfilled hcall =>
    rw [hfilled] at hsound
    have htx : (s.phase i).tx = some tx := by rw [hfilled]; rfl
    refine .inl ⟨_, rfl, quiet_later htx rfl rfl rfl hsound ?_⟩
    intro call r h
    cases h
  | commit tx result hready hresult =>
    refine .inr ⟨tx, result, ?_, hresult, rfl⟩
    rcases hready with h | ⟨h, -⟩
    · rw [h]
      rfl
    · rw [h]
      rfl

/-- What at most one call had at most one call has after a step, if the call
    that moved has it only when no other does. -/
theorem unique_goto {P : Phase → Prop} (hold : ∀ j l, P (s.phase j) → P (s.phase l) → j = l)
    (hnew : ∀ j, j ≠ i → P p → ¬ P (s.phase j)) (j l : CallID) (hj : P ((s.goto i p).phase j))
    (hl : P ((s.goto i p).phase l)) : j = l := by
  by_cases hji : j = i
  · by_cases hli : l = i
    · rw [hji, hli]
    · rw [hji, goto_phase_self] at hj
      rw [goto_phase_of_ne s p hli] at hl
      exact absurd hl (hnew l hli hj)
  · rw [goto_phase_of_ne s p hji] at hj
    by_cases hli : l = i
    · rw [hli, goto_phase_self] at hl
      exact absurd hj (hnew j hji hl)
    · rw [goto_phase_of_ne s p hli] at hl
      exact hold j l hj hl

theorem inv_quiet (hinv : Inv s) (hq : Quiet i s p) : Inv (s.goto i p) := by
  refine ⟨?_, ?_, ?_⟩
  · intro c
    refine unique_goto (hinv.exclusive c) ?_
    intro j hj hp hholds
    -- the lock was free or already this call's
    rcases hq.locks c hp with hown | hfree
    · exact hj (hinv.exclusive c j i hholds hown)
    · exact hfree j hj hholds
  · intro j
    by_cases hji : j = i
    · rw [hji, goto_phase_self]
      exact hq.sound
    · rw [goto_phase_of_ne s p hji]
      exact hinv.sound j
  · intro c e
    refine unique_goto (hinv.once c e) ?_
    rintro j - ⟨envs, r, hp⟩
    exact absurd hp (hq.notOk _ _)

/-- Another call's phase stays sound when a transaction commits: either it does
    not look at that version row, or it would hold the same lock. -/
theorem sound_of_commit (hinv : Inv s) (hji : j ≠ i) (htx : (s.phase i).tx = some tx) :
    (s.phase j).Sound (tx.apply s.tables) := by
  have hsound : tx.Sound s.tables := (hinv.sound i).of_tx htx
  have hopen : ∀ tx', (s.phase j).tx = some tx' → tx'.Sound s.tables →
      tx'.Sound (tx.apply s.tables) := by
    intro tx' htx' hsound'
    by_cases hnone : tx'.version = .none
    · unfold Tx.Sound at hsound' ⊢
      rw [hnone] at hsound' ⊢
      exact hsound'
    · have hsame : (tx.apply s.tables).currentVersion tx'.call.channelID =
          s.tables.currentVersion tx'.call.channelID := by
        rw [apply_currentVersion hsound, if_neg]
        intro hboth
        obtain ⟨hchan, hwrite⟩ := hboth
        exact hji (hinv.exclusive tx'.call.channelID j i ⟨tx', htx', rfl, hnone⟩
          ⟨tx, htx, hchan.symm, hwrite⟩)
      unfold Tx.Sound at hsound' ⊢
      rw [hsame]
      exact hsound'
  have hj := hinv.sound j
  -- of the phases without a transaction only a success says something
  cases hp : s.phase j with
  | idle | begun => trivial
  | claimed tx' | filled tx' | cleaned tx' =>
    rw [hp] at hj hopen
    exact hopen tx' rfl hj
  | returned call result =>
    rw [hp] at hj
    cases call with
    | store c v envs => trivial
    | rotate c e envs =>
      cases result with
      | error err => trivial
      | ok r =>
        obtain ⟨hr, v, hv, hle⟩ := hj
        obtain ⟨w, hw, hvw⟩ := (apply_moves hsound c).le hv
        exact ⟨hr, w, hw, by omega⟩

theorem inv_commit {result : Except KeyError Nat} (hinv : Inv s) (htx : (s.phase i).tx = some tx)
    (hresult : result = .ok tx.newVersion ∨ ∃ op, result = .error (.failed op)) :
    Inv ({ s with tables := tx.apply s.tables }.goto i (.returned tx.call result)) := by
  have hsound : tx.Sound s.tables := (hinv.sound i).of_tx htx
  refine ⟨?_, ?_, ?_⟩
  · intro c
    exact unique_goto (hinv.exclusive c) fun _ _ hholds => absurd hholds not_holds_returned
  · intro j
    by_cases hji : j = i
    · rw [hji, goto_phase_self, goto_tables]
      rcases hresult with rfl | ⟨op, rfl⟩
      · cases hcall : tx.call with
        | store c v envs => trivial
        | rotate c e envs =>
          obtain ⟨hwrite, hnew, -⟩ := hsound.rotate hcall
          refine ⟨hnew, tx.newVersion, ?_, by omega⟩
          rw [apply_currentVersion hsound, if_pos ⟨by rw [hcall]; rfl, hwrite⟩]
      · exact sound_error _ _
    · rw [goto_phase_of_ne _ _ hji]
      exact sound_of_commit hinv hji htx
  · intro c e
    refine unique_goto (hinv.once c e) ?_
    -- a second winner would have found an older version than the first left
    rintro m - ⟨envs', r', hret⟩ ⟨envs, r, hm⟩
    injection hret with hcall _
    have hm' := hinv.sound m
    rw [show s.phase m = _ from hm] at hm'
    obtain ⟨-, v, hv, hle⟩ := hm'
    obtain ⟨-, -, hnone | hcur⟩ := hsound.rotate hcall
    · rw [hnone.1] at hv
      cases hv
    · rw [hcur] at hv
      cases hv
      omega

theorem inv_step (hinv : Inv s) (h : Step i s s') : Inv s' := by
  rcases step_cases h (hinv.sound i) with ⟨p, rfl, hq⟩ | ⟨tx, result, htx, hresult, rfl⟩
  · exact inv_quiet hinv hq
  · exact inv_commit hinv htx hresult

theorem inv_steps (hinv : Inv s) (h : Steps s s') : Inv s' := by
  induction h with
  | refl => exact hinv
  | tail _ hstep ih =>
    obtain ⟨i, hstep⟩ := hstep
    exact inv_step ih hstep

theorem inv_init (h : ∀ i, s.phase i = .idle) : Inv s := by
  refine ⟨?_, ?_, ?_⟩
  · rintro c i j ⟨tx, htx, -⟩
    rw [h i] at htx
    cases htx
  · intro i
    rw [h i]
    trivial
  · rintro c e i j ⟨envs, r, hi⟩
    rw [h i] at hi
    cases hi

/-! ## Section 4: Whole runs -/

theorem step_moves (hinv : Inv s) (h : Step i s s') (c : ID) :
    VersionMoves (s.tables.currentVersion c) (s'.tables.currentVersion c) := by
  rcases step_cases h (hinv.sound i) with ⟨p, rfl, -⟩ | ⟨tx, result, htx, -, rfl⟩
  · exact .inl rfl
  · exact apply_moves ((hinv.sound i).of_tx htx) c

theorem steps_monotone (hinv : Inv s) (h : Steps s s') (c : ID) {v : Nat}
    (hv : s.tables.currentVersion c = some v) :
    ∃ w, s'.tables.currentVersion c = some w ∧ v ≤ w := by
  induction h with
  | refl => exact ⟨v, hv, Nat.le_refl v⟩
  | tail hrun hstep ih =>
    obtain ⟨i, hstep⟩ := hstep
    obtain ⟨u, hu, hvu⟩ := ih
    obtain ⟨w, hw, huw⟩ := (step_moves (inv_steps hinv hrun) hstep c).le hu
    exact ⟨w, hw, by omega⟩

theorem step_phase_ne (h : Step i s s') : s.phase i ≠ .returned call r := by
  intro hret
  cases h with
  | commit tx result hready hresult =>
    rcases hready with h | ⟨h, -⟩
    · rw [hret] at h
      cases h
    · rw [hret] at h
      cases h
  | fail call op hrunning =>
    rw [hret] at hrunning
    cases hrunning
  | _ => simp_all

theorem step_other (h : Step i s s') (hj : j ≠ i) : s'.phase j = s.phase j := by
  cases h <;> exact goto_phase_of_ne _ _ hj

theorem returned_stays (h : Steps s s') (hret : s.phase i = .returned call r) :
    s'.phase i = .returned call r := by
  induction h with
  | refl => exact hret
  | tail _ hstep ih =>
    obtain ⟨j, hstep⟩ := hstep
    by_cases hij : i = j
    · -- the call itself is done
      subst hij
      exact absurd ih (step_phase_ne hstep)
    · rw [step_other hstep hij]
      exact ih

/-- **Concurrent rotations are safe.** In every interleaving the version of a
    channel never falls and moves by one once set, at most one rotation
    succeeds per expected version and returns the next one, and a call that
    ends in a version mismatch has changed nothing at any of its steps. -/
theorem rotation_safe {s₀ s : Sys} (hinit : ∀ i, s₀.phase i = .idle) (hrun : Steps s₀ s) :
    (∀ i s', Step i s s' → ∀ c,
      VersionMoves (s.tables.currentVersion c) (s'.tables.currentVersion c)) ∧
    (∀ s', Steps s s' → ∀ c v, s.tables.currentVersion c = some v →
      ∃ w, s'.tables.currentVersion c = some w ∧ v ≤ w) ∧
    (∀ i c e envs r, s.phase i = .returned (.rotate c e envs) (.ok r) → r = e + 1) ∧
    (∀ c e i j, (s.phase i).Rotated c e → (s.phase j).Rotated c e → i = j) ∧
    (∀ i s' s'' call, Step i s s' → Steps s' s'' →
      s''.phase i = .returned call (.error .versionMismatch) → s'.tables = s.tables) := by
  have hinv : Inv s := inv_steps (inv_init hinit) hrun
  refine ⟨fun i s' h c => step_moves hinv h c, fun s' h c v hv => steps_monotone hinv h c hv,
    ?_, hinv.once, ?_⟩
  · intro i c e envs r hret
    have hsound := hinv.sound i
    rw [hret] at hsound
    exact hsound.1
  · intro i s' s'' call hstep hrest hmismatch
    rcases step_cases hstep (hinv.sound i) with ⟨p, rfl, -⟩ | ⟨tx, result, -, hresult, rfl⟩
    · rfl
    · -- a call that has committed answers with success or a lost reply
      have hret := returned_stays hrest (goto_phase_self _ i (.returned tx.call result))
      rw [hmismatch] at hret
      injection hret with _ herr
      rcases hresult with rfl | ⟨op, rfl⟩
      · cases herr
      · cases herr

/-! ## Section 5: One call alone -/

/-- Deleting by key and deleting by condition are the same when the condition
    reads only the key. -/
theorem deleteWhere_keys {p : EnvelopeRow → Bool} (hp : ∀ a b, a.key = b.key → p a = p b)
    (rows : List EnvelopeRow) :
    deleteWhere (fun row => decide (row.key ∈ (rows.filter p).map key)) rows =
      deleteWhere p rows := by
  apply List.filter_congr
  intro row hrow
  congr 1
  apply Bool.eq_iff_iff.mpr
  rw [decide_eq_true_eq, List.mem_map]
  constructor
  · intro hex
    obtain ⟨a, ha, hkey⟩ := hex
    rw [← hp a row hkey]
    exact (List.mem_filter.mp ha).2
  · intro h
    exact ⟨row, List.mem_filter.mpr ⟨hrow, h⟩, rfl⟩

/-- The writes of a rotation that ran without interruption are those of the
    store call. -/
theorem tx_apply_eq_cleanUp (k : KeyTables) (c : ID) (e newVersion : Nat)
    (envs : List KeyEnvelope) (version : VersionWrite) :
    let tx : Tx := { call := .rotate c e envs, newVersion, version, puts := envs }
    ({ tx with deletes := if envs.isEmpty then [] else staleKeys tx k } : Tx).apply k =
      ((version.apply c k).putEnvelopes c newVersion envs).cleanUp c newVersion envs := by
  intro tx
  have hputs : (tx.apply k).channelKeyEnvelopes =
      ((version.apply c k).putEnvelopes c newVersion envs).channelKeyEnvelopes := by
    show deleteWhere _ _ = _
    simp [deleteWhere, tx]
    rfl
  unfold cleanUp
  by_cases hnil : envs.isEmpty = true
  · rw [if_pos hnil, if_pos hnil]
    show mk _ (deleteWhere _ _) = _
    simp [deleteWhere, tx]
    rfl
  · rw [if_neg hnil, if_neg hnil]
    unfold staleKeys
    rw [hputs]
    show mk _ (deleteWhere _ _) = mk _ (deleteWhere _ _)
    congr 1
    apply deleteWhere_keys
    intro a b hkey
    simp only [key, Prod.mk.injEq] at hkey
    obtain ⟨hc, hu, hv⟩ := hkey
    simp only [hc, hu, hv]

/-- **The sequential call is one of the interleavings**: a rotation that finds
    the version row free can run through and leaves the tables and the answer
    of `rotateChannelKey`. -/
theorem rotateChannelKey_steps {t : Tables} {e newVersion : Nat} {envs : List KeyEnvelope}
    {k' : KeyTables} (hidle : s.phase i = .idle) (hfree : s.Free i c)
    (h : rotateChannelKey t s.tables c e envs = .ok (newVersion, k')) :
    ∃ s', Steps s s' ∧ s'.tables = k' ∧
      s'.phase i = .returned (.rotate c e envs) (.ok newVersion) := by
  obtain ⟨claimed, hclaim, rfl⟩ := rotateChannelKey_ok h
  obtain ⟨hnew, hexpected, -, -⟩ := claimVersion_ok hclaim
  -- every step below is the call's own
  have hstep : ∀ {a b : Sys}, Step i a b → Steps a b :=
    fun hab => Relation.ReflTransGen.single ⟨i, hab⟩
  have hbegin : Steps s (s.goto i (.begun (.rotate c e envs))) :=
    hstep (Step.begin _ hidle)
  have hfree' : (s.goto i (.begun (.rotate c e envs))).Free i c := by
    intro j hj
    rw [goto_phase_of_ne _ _ hj]
    exact hfree j hj
  -- the version statement of the call is the one its expected version selects
  obtain ⟨version, hversion, hclaimed⟩ : ∃ version : VersionWrite,
      claimed = version.apply c s.tables ∧
      Step i (s.goto i (.begun (.rotate c e envs)))
        ((s.goto i (.begun (.rotate c e envs))).goto i
          (.claimed { call := .rotate c e envs, newVersion, version })) := by
    rcases hexpected with ⟨hnone, rfl⟩ | ⟨hcur, hpos⟩
    · refine ⟨.insert 1, ?_, ?_⟩
      · unfold claimVersion at hclaim
        rw [if_pos rfl, hnone] at hclaim
        injection hclaim with hclaim
        exact (Prod.mk.inj hclaim).2.symm
      · rw [hnew]
        exact Step.rotateInsert c envs (goto_phase_self _ _ _) hfree' hnone
    · refine ⟨.bump e, ?_, ?_⟩
      · unfold claimVersion at hclaim
        rw [if_neg hpos, if_pos hcur] at hclaim
        split at hclaim
        · cases hclaim
        · split at hclaim
          · cases hclaim
          · injection hclaim with hclaim
            exact (Prod.mk.inj hclaim).2.symm
      · rw [hnew]
        exact Step.rotateBump c e envs (goto_phase_self _ _ _) hpos hfree' hcur
  have hfill := Step.fill _ (goto_phase_self (s.goto i (.begun (.rotate c e envs))) i
    (.claimed { call := .rotate c e envs, newVersion, version }))
  have hclean := Step.clean _ c e envs (goto_phase_self _ i (.filled
    { call := .rotate c e envs, newVersion, version, puts := envs })) rfl
    (s := (((s.goto i (.begun (.rotate c e envs))).goto i
      (.claimed { call := .rotate c e envs, newVersion, version })).goto i (.filled
        { call := .rotate c e envs, newVersion, version, puts := envs })))
  have hcommit := Step.commit _ (.ok newVersion) (Or.inl (goto_phase_self _ i _)) (Or.inl rfl)
    (s := ((((s.goto i (.begun (.rotate c e envs))).goto i
      (.claimed { call := .rotate c e envs, newVersion, version })).goto i (.filled
        { call := .rotate c e envs, newVersion, version, puts := envs })).goto i (.cleaned
        { call := .rotate c e envs, newVersion, version, puts := envs,
          deletes := if envs.isEmpty then [] else
            staleKeys { call := .rotate c e envs, newVersion, version, puts := envs } s.tables })))
  refine ⟨_, (((hbegin.trans (hstep hclaimed)).trans (hstep hfill)).trans (hstep hclean)).trans
    (hstep hcommit), ?_, goto_phase_self _ _ _⟩
  rw [hversion]
  exact tx_apply_eq_cleanUp s.tables c e newVersion envs version

/-- The first rotation of a new channel, run alone: nobody else can have won
    version 0 as well. -/
theorem rotation_safe_first :
    ∃ s, Steps { tables := {}, phase := fun _ => .idle } s ∧
      s.phase 0 = .returned (.rotate "general" 0 []) (.ok 1) ∧
      ∀ j, (s.phase j).Rotated "general" 0 → 0 = j := by
  have hcall : rotateChannelKey
      { channels := [{ id := "general", serverID := none, name := "general" }] } {}
      "general" 0 [] =
        .ok (1, { channelKeyVersions := [{ channelID := "general", currentVersion := 1 }] }) := by
    decide
  have hidle : ∀ i, (Sys.mk {} (fun _ => .idle)).phase i = .idle := fun _ => rfl
  have hfree : (Sys.mk {} (fun _ => .idle)).Free 0 "general" := by
    rintro j - ⟨tx, htx, -⟩
    cases htx
  obtain ⟨s, hrun, -, hret⟩ := rotateChannelKey_steps (s := Sys.mk {} (fun _ => .idle))
    (hidle 0) hfree hcall
  refine ⟨s, hrun, hret, ?_⟩
  intro j hj
  exact (rotation_safe hidle hrun).2.2.2.1 "general" 0 0 j ⟨[], 1, hret⟩ hj

end Meza.Keys
