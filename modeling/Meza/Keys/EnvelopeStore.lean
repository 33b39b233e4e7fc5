import Meza.Store.Schema

/-! # The key envelope store

    `KeyEnvelopeStore` keeps, per channel, the current key version and one
    wrapped key per user and version. `StoreKeyEnvelopes` adds envelopes of a
    version the caller names, `RotateChannelKey` moves the version on and
    replaces the set of recipients. -/

namespace Meza.Keys

open Store Table Prod

/-! ## Section 1: Tables -/

structure KeyEnvelope where
  userID : ID
  envelope : List UInt8
  deriving DecidableEq, Repr

structure EnvelopeRow where
  channelID : ID
  userID : ID
  keyVersion : Nat
  envelope : List UInt8
  deriving DecidableEq, Repr

def EnvelopeRow.key (row : EnvelopeRow) : ID × ID × Nat :=
  (row.channelID, row.userID, row.keyVersion)

structure KeyVersion where
  channelID : ID
  currentVersion : Nat
  deriving DecidableEq, Repr

structure KeyTables where
  channelKeyVersions : List KeyVersion := []
  channelKeyEnvelopes : List EnvelopeRow := []
  deriving DecidableEq, Repr

@[mk_iff]
structure KeyTables.Constraints (t : Tables) (k : KeyTables) : Prop where
  versionsPK : UniqueOn KeyVersion.channelID k.channelKeyVersions
  versionsChannel : ∀ v ∈ k.channelKeyVersions, v.channelID ∈ t.channels.map (·.id)
  envelopesPK : UniqueOn EnvelopeRow.key k.channelKeyEnvelopes
  envelopesChannel : ∀ e ∈ k.channelKeyEnvelopes, e.channelID ∈ t.channels.map (·.id)
  envelopesUser : ∀ e ∈ k.channelKeyEnvelopes, e.userID ∈ t.users.map (·.id)
  envelopesVersion : ∀ e ∈ k.channelKeyEnvelopes, 0 < e.keyVersion
  envelopesLength : ∀ e ∈ k.channelKeyEnvelopes, e.envelope.length = 93

instance (t : Tables) (k : KeyTables) : Decidable (k.Constraints t) :=
  decidable_of_iff' _ (KeyTables.constraints_iff t k)

def KeyTables.currentVersion (k : KeyTables) (channelID : ID) : Option Nat :=
  (lookup KeyVersion.channelID channelID k.channelKeyVersions).map (·.currentVersion)

/-! ## Section 2: Statements -/

/-- `ErrVersionMismatch`, or any other error with the text it is wrapped in. -/
inductive KeyError where
  | versionMismatch
  | failed (op : String)
  deriving DecidableEq, Repr

/-- `INSERT INTO channel_key_versions … ON CONFLICT (channel_id) DO NOTHING`. -/
def KeyTables.insertVersion (k : KeyTables) (channelID : ID) (version : Nat) : KeyTables :=
  { k with
    channelKeyVersions :=
      insertNew KeyVersion.channelID { channelID, currentVersion := version }
        k.channelKeyVersions }

/-- `UPDATE … SET current_version = current_version + 1 WHERE channel_id = $1 AND
    current_version = $2`. -/
def KeyTables.bumpVersion (k : KeyTables) (channelID : ID) (expectedVersion : Nat) : KeyTables :=
  { k with
    channelKeyVersions :=
      updateWhere
        (fun v => v.channelID = channelID ∧ v.currentVersion = expectedVersion)
        (fun v => { v with currentVersion := v.currentVersion + 1 }) k.channelKeyVersions }

/-- The version statement of a rotation. `expectedVersion = 0` means atomic
    initial creation; no row returned is a mismatch. -/
def KeyTables.claimVersion (k : KeyTables) (channelID : ID) (expectedVersion : Nat) :
    Except KeyError (Nat × KeyTables) :=
  if expectedVersion = 0 then
    match k.currentVersion channelID with
    | some _ => .error .versionMismatch
    | none => .ok (1, k.insertVersion channelID 1)
  else if maxInt4 < expectedVersion then .error (.failed "rotate channel key version")
  else if k.currentVersion channelID = some expectedVersion then
    -- integer out of range
    if expectedVersion = maxInt4 then .error (.failed "rotate channel key version")
    else .ok (expectedVersion + 1, k.bumpVersion channelID expectedVersion)
  else .error .versionMismatch

/-- One `INSERT INTO channel_key_envelopes … ON CONFLICT … DO UPDATE SET envelope`. -/
def putEnvelope (channelID : ID) (version : Nat) (rows : List EnvelopeRow) (env : KeyEnvelope) :
    List EnvelopeRow :=
  upsert EnvelopeRow.key (fun row => { row with envelope := env.envelope })
    { channelID, userID := env.userID, keyVersion := version, envelope := env.envelope } rows

/-- The batch of envelope upserts. -/
def KeyTables.putEnvelopes (k : KeyTables) (channelID : ID) (version : Nat)
    (envelopes : List KeyEnvelope) : KeyTables :=
  { k with
    channelKeyEnvelopes :=
      envelopes.foldl (putEnvelope channelID version) k.channelKeyEnvelopes }

/-- `DELETE … WHERE channel_id = $1 AND key_version < $2 AND user_id != ALL($3)`. -/
def KeyTables.removeStale (k : KeyTables) (channelID : ID) (newVersion : Nat)
    (recipientIDs : List ID) : KeyTables :=
  { k with
    channelKeyEnvelopes :=
      deleteWhere
        (fun row => row.channelID = channelID ∧ row.keyVersion < newVersion ∧
          row.userID ∉ recipientIDs) k.channelKeyEnvelopes }

/-- The clean-up statement; skipped when there are no recipients. -/
def KeyTables.cleanUp (k : KeyTables) (channelID : ID) (newVersion : Nat)
    (envelopes : List KeyEnvelope) : KeyTables :=
  if envelopes.isEmpty then k else k.removeStale channelID newVersion (envelopes.map (·.userID))

/-! ## Section 3: Store calls -/

def commitKeys (t : Tables) (k : KeyTables) (op : String) : Except KeyError KeyTables :=
  if k.Constraints t then .ok k else .error (.failed op)

def storeKeyEnvelopes (t : Tables) (k : KeyTables) (channelID : ID) (version : Nat)
    (envelopes : List KeyEnvelope) : Except KeyError KeyTables :=
  if maxInt4 < version then .error (.failed "upsert channel key version")
  else
    let k := k.insertVersion channelID version
    let k := k.putEnvelopes channelID version envelopes
    commitKeys t k "upsert key envelope"

def rotateChannelKey (t : Tables) (k : KeyTables) (channelID : ID) (expectedVersion : Nat)
    (envelopes : List KeyEnvelope) : Except KeyError (Nat × KeyTables) := do
  let (newVersion, k) ← k.claimVersion channelID expectedVersion
  let k := k.putEnvelopes channelID newVersion envelopes
  let k := k.cleanUp channelID newVersion envelopes
  let k ← commitKeys t k "insert rotated envelope"
  return (newVersion, k)

structure VersionedEnvelope where
  keyVersion : Nat
  envelope : List UInt8
  deriving DecidableEq, Repr

/-- `ORDER BY key_version ASC`. -/
def getKeyEnvelopes (k : KeyTables) (channelID userID : ID) : List VersionedEnvelope :=
  ((k.channelKeyEnvelopes.filter fun row =>
      row.channelID = channelID ∧ row.userID = userID).map fun row =>
        { keyVersion := row.keyVersion, envelope := row.envelope }).insertionSort
    (fun a b => a.keyVersion ≤ b.keyVersion)

/-! ## Section 4: What the statements do -/

theorem currentVersion_insertVersion (k : KeyTables) (channelID c : ID) (version : Nat) :
    (k.insertVersion channelID version).currentVersion c =
      if c = channelID then some ((k.currentVersion channelID).getD version)
      else k.currentVersion c := by
  unfold KeyTables.currentVersion KeyTables.insertVersion
  rw [lookup_insertNew]
  by_cases h : c = channelID
  · subst h
    simp only [↓reduceIte, Option.map_some, Option.some.injEq]
    cases lookup KeyVersion.channelID c k.channelKeyVersions <;> rfl
  · simp [h]

theorem currentVersion_bumpVersion (k : KeyTables) (channelID c : ID) (e : Nat)
    (he : k.currentVersion channelID = some e) :
    (k.bumpVersion channelID e).currentVersion c =
      if c = channelID then some (e + 1) else k.currentVersion c := by
  have hkeys : ∀ v : KeyVersion,
      KeyVersion.channelID { v with currentVersion := v.currentVersion + 1 } = v.channelID :=
    fun _ => rfl
  unfold KeyTables.currentVersion KeyTables.bumpVersion
  rw [lookup_updateWhere hkeys]
  by_cases h : c = channelID
  · subst h
    obtain ⟨v, hv, hcur⟩ := Option.map_eq_some_iff.mp he
    have hkey := (mem_of_lookup hv).2
    simp [hv, hcur, hkey]
  · rw [if_neg h]
    cases hv : lookup KeyVersion.channelID c k.channelKeyVersions with
    | none => rfl
    | some v =>
      have hne : v.channelID ≠ channelID := by
        rw [(mem_of_lookup hv).2]
        exact h
      simp [hne]

variable {row : EnvelopeRow} {channelID : ID} {k k' : KeyTables} {envelopes : List KeyEnvelope}
  {e newVersion version : Nat} {t : Tables}

@[simp] theorem putEnvelopes_currentVersion (k : KeyTables) (c : ID) (v : Nat)
    (envelopes : List KeyEnvelope) (channelID : ID) :
    (k.putEnvelopes c v envelopes).currentVersion channelID = k.currentVersion channelID := rfl

@[simp] theorem cleanUp_currentVersion (k : KeyTables) (c : ID) (v : Nat)
    (envelopes : List KeyEnvelope) (channelID : ID) :
    (k.cleanUp c v envelopes).currentVersion channelID = k.currentVersion channelID := by
  unfold KeyTables.cleanUp
  split <;> rfl

/-- What a version statement that returns a row has found and done. -/
theorem claimVersion_ok (h : k.claimVersion channelID e = .ok (newVersion, k')) :
    newVersion = e + 1 ∧
      (k.currentVersion channelID = none ∧ e = 0 ∨
        k.currentVersion channelID = some e ∧ e ≠ 0) ∧
      k'.channelKeyEnvelopes = k.channelKeyEnvelopes ∧
      ∀ c, k'.currentVersion c =
        if c = channelID then some newVersion else k.currentVersion c := by
  unfold KeyTables.claimVersion at h
  split at h
  · -- initial creation: the row must not exist yet
    rename_i hzero
    split at h
    · cases h
    · rename_i hnone
      injection h with h
      obtain ⟨rfl, rfl⟩ := mk.inj h
      refine ⟨by omega, .inl ⟨hnone, hzero⟩, rfl, ?_⟩
      intro c
      rw [currentVersion_insertVersion, hnone]
      rfl
  · -- compare and increment, within the range of the column
    rename_i hpos
    split at h
    · cases h
    · split at h
      · rename_i hcur
        split at h
        · cases h
        · injection h with h
          obtain ⟨rfl, rfl⟩ := mk.inj h
          exact ⟨rfl, .inr ⟨hcur, hpos⟩, rfl,
            fun c => currentVersion_bumpVersion k channelID c e hcur⟩
      · cases h

theorem mem_putEnvelope {rows : List EnvelopeRow} {env : KeyEnvelope}
    (h : row ∈ putEnvelope channelID version rows env) :
    row ∈ rows ∨ (row.channelID = channelID ∧ row.keyVersion = version) := by
  rcases mem_upsert h with h | rfl | ⟨b, -, hkey, rfl⟩
  · exact Or.inl h
  · exact Or.inr ⟨rfl, rfl⟩
  · simp only [EnvelopeRow.key, mk.injEq] at hkey
    exact Or.inr ⟨hkey.1, hkey.2.2⟩

/-- An envelope batch writes rows of its channel and version only. -/
theorem mem_putEnvelopes
    (h : row ∈ (k.putEnvelopes channelID version envelopes).channelKeyEnvelopes) :
    row ∈ k.channelKeyEnvelopes ∨ (row.channelID = channelID ∧ row.keyVersion = version) := by
  unfold KeyTables.putEnvelopes at h
  -- the batch is a loop over the envelopes, from whatever rows it meets
  generalize k.channelKeyEnvelopes = rows at h ⊢
  induction envelopes generalizing rows with
  | nil => exact .inl h
  | cons env envs ih =>
    rcases ih _ h with h | h
    · exact mem_putEnvelope h
    · exact .inr h

theorem mem_putEnvelope_written {rows : List EnvelopeRow} {env : KeyEnvelope}
    (h : row ∈ putEnvelope channelID version rows env) :
    row ∈ rows ∨ row =
      { channelID, userID := env.userID, keyVersion := version, envelope := env.envelope } := by
  rcases mem_upsert h with h | rfl | ⟨b, -, hkey, rfl⟩
  · exact Or.inl h
  · exact Or.inr rfl
  · right
    simp only [EnvelopeRow.key, mk.injEq] at hkey
    obtain ⟨hchannel, huser, hversion⟩ := hkey
    rw [← hchannel, ← huser, ← hversion]

theorem mem_putEnvelopes_written
    (h : row ∈ (k.putEnvelopes channelID version envelopes).channelKeyEnvelopes) :
    row ∈ k.channelKeyEnvelopes ∨ ∃ env ∈ envelopes, row =
      { channelID, userID := env.userID, keyVersion := version, envelope := env.envelope } := by
  unfold KeyTables.putEnvelopes at h
  generalize k.channelKeyEnvelopes = rows at h ⊢
  induction envelopes generalizing rows with
  | nil => exact .inl h
  | cons env envs ih =>
    rcases ih _ h with hrow | ⟨env', henv', rfl⟩
    · rcases mem_putEnvelope_written hrow with hold | rfl
      · exact .inl hold
      · exact .inr ⟨env, List.mem_cons_self, rfl⟩
    · exact .inr ⟨env', List.mem_cons_of_mem _ henv', rfl⟩

theorem mem_putEnvelopes_of_ne (envelopes : List KeyEnvelope) (h : row ∈ k.channelKeyEnvelopes)
    (hne : ¬ (row.channelID = channelID ∧ row.keyVersion = version)) :
    row ∈ (k.putEnvelopes channelID version envelopes).channelKeyEnvelopes := by
  unfold KeyTables.putEnvelopes
  generalize k.channelKeyEnvelopes = rows at h ⊢
  induction envelopes generalizing rows with
  | nil => exact h
  | cons env envs ih =>
    apply ih
    apply mem_upsert_of_ne h
    simp only [EnvelopeRow.key, ne_eq, mk.injEq]
    intro hboth
    obtain ⟨hc, -, hv⟩ := hboth
    exact hne ⟨hc, hv⟩

theorem mem_cleanUp :
    row ∈ (k.cleanUp channelID newVersion envelopes).channelKeyEnvelopes ↔
      row ∈ k.channelKeyEnvelopes ∧
        (envelopes = [] ∨ row.channelID ≠ channelID ∨ newVersion ≤ row.keyVersion ∨
          row.userID ∈ envelopes.map (·.userID)) := by
  unfold KeyTables.cleanUp
  cases envelopes with
  | nil => simp
  | cons env envs =>
    rw [if_neg (by simp)]
    unfold KeyTables.removeStale
    rw [mem_deleteWhere, decide_eq_false_iff_not]
    constructor
    · intro hboth
      obtain ⟨hrow, hkeep⟩ := hboth
      refine ⟨hrow, .inr ?_⟩
      by_contra hcon
      simp only [not_or, not_not, not_le] at hcon
      exact hkeep hcon
    · intro hboth
      obtain ⟨hrow, hkeep⟩ := hboth
      refine ⟨hrow, ?_⟩
      intro hboth
      obtain ⟨hc, hv, hu⟩ := hboth
      rcases hkeep with hnil | hne | hle | hmem
      · cases hnil
      · exact hne hc
      · omega
      · exact hu hmem

/-! ## Section 5: What the calls do -/

theorem commitKeys_ok {op : String} (h : commitKeys t k op = .ok k') : k' = k := by
  unfold commitKeys at h
  split at h
  · injection h with h
    exact h.symm
  · cases h

theorem storeKeyEnvelopes_ok (h : storeKeyEnvelopes t k channelID version envelopes = .ok k') :
    k' = (k.insertVersion channelID version).putEnvelopes channelID version envelopes := by
  unfold storeKeyEnvelopes at h
  split at h
  · cases h
  · exact commitKeys_ok h

theorem rotateChannelKey_ok
    (h : rotateChannelKey t k channelID e envelopes = .ok (newVersion, k')) :
    ∃ claimed, k.claimVersion channelID e = .ok (newVersion, claimed) ∧
      k' = (claimed.putEnvelopes channelID newVersion envelopes).cleanUp channelID newVersion
        envelopes := by
  unfold rotateChannelKey at h
  cases hclaim : k.claimVersion channelID e with
  | error err => rw [hclaim] at h; cases h
  | ok res =>
    obtain ⟨v, claimed⟩ := res
    rw [hclaim] at h
    simp only [bind, Except.bind, pure, Except.pure] at h
    split at h
    · cases h
    · rename_i k₂ hcommit
      injection h with h
      obtain ⟨rfl, rfl⟩ := mk.inj h
      exact ⟨claimed, rfl, commitKeys_ok hcommit⟩

/-- A successful rotation: the version it expected, the next version, and for
    rows of older versions exactly the recipients' survive. -/
theorem rotateChannelKey_spec
    (h : rotateChannelKey t k channelID e envelopes = .ok (newVersion, k')) :
    newVersion = e + 1 ∧
      (k.currentVersion channelID = none ∧ e = 0 ∨
        k.currentVersion channelID = some e ∧ e ≠ 0) ∧
      (∀ c, k'.currentVersion c =
        if c = channelID then some newVersion else k.currentVersion c) ∧
      (∀ row ∈ k'.channelKeyEnvelopes, row ∈ k.channelKeyEnvelopes ∨
        (row.channelID = channelID ∧ row.keyVersion = newVersion)) ∧
      ∀ row ∈ k.channelKeyEnvelopes, row.channelID = channelID → row.keyVersion < newVersion →
        (row ∈ k'.channelKeyEnvelopes ↔
          envelopes = [] ∨ row.userID ∈ envelopes.map (·.userID)) := by
  obtain ⟨claimed, hclaim, rfl⟩ := rotateChannelKey_ok h
  obtain ⟨hnew, hexpected, henvs, hversion⟩ := claimVersion_ok hclaim
  refine ⟨hnew, hexpected, ?_, ?_, ?_⟩
  · intro c
    rw [cleanUp_currentVersion, putEnvelopes_currentVersion]
    exact hversion c
  · intro row hrow
    rw [← henvs]
    exact mem_putEnvelopes (mem_cleanUp.mp hrow).1
  · intro row hrow hchan hold
    rw [mem_cleanUp]
    -- an older row is not written, so only the clean-up can remove it
    have hput :
        row ∈ (claimed.putEnvelopes channelID newVersion envelopes).channelKeyEnvelopes := by
      apply mem_putEnvelopes_of_ne
      · rw [henvs]
        exact hrow
      · omega
    constructor
    · rintro ⟨-, hnil | hne | hle | hmem⟩
      · exact .inl hnil
      · exact absurd hchan hne
      · omega
      · exact .inr hmem
    · rintro (hnil | hmem)
      · exact ⟨hput, .inl hnil⟩
      · exact ⟨hput, .inr (.inr (.inr hmem))⟩

end Meza.Keys
