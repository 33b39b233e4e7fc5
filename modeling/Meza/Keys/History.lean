import Meza.Keys.Service
import Meza.Lib.Run

/-! # Envelope history

    Two things one would like to hold of the envelope table: a rotation does
    not take old keys from members who are still there, and no envelope is of
    a version the channel has not reached. Neither holds for every call. This
    module says for which calls they do. -/

namespace Meza.Keys

open Store Permissions Run

/-! ## Section 1: What a rotation deletes -/

/-- Every older envelope of a user who may view the channel survives. -/
def KeepsHistory (t : Tables) (nowUnix : Int) (channelID : ID) (newVersion : Nat)
    (k k' : KeyTables) : Prop :=
  ∀ row ∈ k.channelKeyEnvelopes, row.channelID = channelID → row.keyVersion < newVersion →
    hasViewChannel t nowUnix row.userID channelID = true → row ∈ k'.channelKeyEnvelopes

/-- Every user who may view the channel and has an envelope up to `version` is
    among the recipients. -/
def CoversViewers (t : Tables) (nowUnix : Int) (channelID : ID) (version : Nat)
    (k : KeyTables) (envelopes : List KeyEnvelope) : Prop :=
  ∀ row ∈ k.channelKeyEnvelopes, row.channelID = channelID → row.keyVersion ≤ version →
    hasViewChannel t nowUnix row.userID channelID = true → row.userID ∈ envelopes.map (·.userID)

/-- **A rotation keeps the history of those it names, and of nobody else.** -/
theorem rotateChannelKey_keepsHistory_iff {t : Tables} {nowUnix : Int} {k k' : KeyTables}
    {caller : Option ID} {req : Service.RotateChannelKeyRequest} {newVersion : Nat}
    (h : Service.rotateChannelKey t nowUnix k caller req = .ok (newVersion, k')) :
    KeepsHistory t nowUnix req.channelID newVersion k k' ↔
      CoversViewers t nowUnix req.channelID req.expectedVersion k req.envelopes := by
  obtain ⟨hnonempty, hrotate⟩ := Service.rotateChannelKey_ok h
  obtain ⟨hnew, -, -, -, hold⟩ := rotateChannelKey_spec hrotate
  constructor
  · -- the request is never empty, so the clean-up has run
    intro hkeeps row hrow hchan hle hview
    have hlt : row.keyVersion < newVersion := by omega
    have hkept := hkeeps row hrow hchan hlt hview
    exact ((hold row hrow hchan hlt).mp hkept).resolve_left hnonempty
  · intro hcovers row hrow hchan hlt hview
    exact (hold row hrow hchan hlt).mpr (.inr (hcovers row hrow hchan (by omega) hview))

/-- A server with two members and one channel that both can see. -/
def twoMembers : Tables where
  users := [{ id := "alice", signingPublicKey := none }, { id := "bob", signingPublicKey := none }]
  servers := [{ id := "srv", ownerID := "alice" }]
  members := [{ userID := "alice", serverID := "srv" }, { userID := "bob", serverID := "srv" }]
  channels := [{ id := "general", serverID := some "srv", name := "general" }]
  roles := [{ id := "srv", serverID := "srv", name := "@everyone",
              permissions := defaultEveryonePermissions, position := 0 }]

/-- An envelope of the right size and version byte. -/
def sampleEnvelope (userID : ID) : KeyEnvelope :=
  { userID, envelope := 0x02 :: .replicate 92 0 }

def sampleRow (userID : ID) (keyVersion : Nat) : EnvelopeRow :=
  { channelID := "general", userID, keyVersion, envelope := 0x02 :: .replicate 92 0 }

/-- The channel's keys after a first rotation for both members. -/
def bothWrapped : KeyTables where
  channelKeyVersions := [{ channelID := "general", currentVersion := 1 }]
  channelKeyEnvelopes := [sampleRow "alice" 1, sampleRow "bob" 1]

/-- Alice creates the key for both; then she rotates with an envelope for
    herself only, and Bob's old envelope is gone though he can still see the
    channel. -/
theorem rotateChannelKey_drops_history :
    Service.rotateChannelKey twoMembers 0 {} (some "alice")
        { channelID := "general", expectedVersion := 0,
          envelopes := [sampleEnvelope "alice", sampleEnvelope "bob"] } =
      .ok (1, bothWrapped) ∧
    ∃ k', Service.rotateChannelKey twoMembers 0 bothWrapped (some "alice")
          { channelID := "general", expectedVersion := 1,
            envelopes := [sampleEnvelope "alice"] } = .ok (2, k') ∧
      ¬ KeepsHistory twoMembers 0 "general" 2 bothWrapped k' := by
  refine ⟨by decide +kernel, ⟨[{ channelID := "general", currentVersion := 2 }],
    [sampleRow "alice" 1, sampleRow "alice" 2]⟩, by decide +kernel, ?_⟩
  intro hkeeps
  have hview : hasViewChannel twoMembers 0 "bob" "general" = true := by decide +kernel
  have hkept := hkeeps (sampleRow "bob" 1) (by decide) rfl (by decide) hview
  exact absurd hkept (by decide)

/-- With envelopes for both members the older rows of both survive. -/
theorem rotateChannelKey_keepsHistory_both :
    ∃ k', Service.rotateChannelKey twoMembers 0 bothWrapped (some "alice")
          { channelID := "general", expectedVersion := 1,
            envelopes := [sampleEnvelope "alice", sampleEnvelope "bob"] } = .ok (2, k') ∧
      KeepsHistory twoMembers 0 "general" 2 bothWrapped k' := by
  have hcall : Service.rotateChannelKey twoMembers 0 bothWrapped (some "alice")
      { channelID := "general", expectedVersion := 1,
        envelopes := [sampleEnvelope "alice", sampleEnvelope "bob"] } =
      .ok (2, ⟨[{ channelID := "general", currentVersion := 2 }],
        [sampleRow "alice" 1, sampleRow "bob" 1, sampleRow "alice" 2, sampleRow "bob" 2]⟩) := by
    decide +kernel
  refine ⟨_, hcall, (rotateChannelKey_keepsHistory_iff hcall).mpr ?_⟩
  intro row hrow _ _ _
  simp only [bothWrapped, List.mem_cons, List.not_mem_nil, or_false] at hrow
  rcases hrow with rfl | rfl
  · decide
  · decide

/-! ## Section 2: Versions in range -/

inductive KeyRequest where
  | store (caller : Option ID) (req : Service.StoreKeyEnvelopesRequest)
  | rotate (caller : Option ID) (req : Service.RotateChannelKeyRequest)

/-- One RPC, with the tables and the time its permission checks see. -/
structure KeyEvent where
  tables : Tables
  nowUnix : Int
  request : KeyRequest

/-- The envelope tables after the RPC; a call that fails changes nothing. -/
def handle (k : KeyTables) (ev : KeyEvent) : KeyTables :=
  match ev.request with
  | .store caller req =>
    match Service.storeKeyEnvelopes ev.tables ev.nowUnix k caller req with
    | .ok k' => k'
    | .error _ => k
  | .rotate caller req =>
    match Service.rotateChannelKey ev.tables ev.nowUnix k caller req with
    | .ok (_, k') => k'
    | .error _ => k

/-- Every envelope is of a version from 1 to its channel's current one. -/
def VersionsInRange (k : KeyTables) : Prop :=
  ∀ row ∈ k.channelKeyEnvelopes, ∃ v, k.currentVersion row.channelID = some v ∧
    1 ≤ row.keyVersion ∧ row.keyVersion ≤ v

/-- A `StoreKeyEnvelopes` call does not name a version beyond the current one;
    where the channel has none yet, any version will do. -/
def NotAhead (k : KeyTables) (ev : KeyEvent) : Prop :=
  match ev.request with
  | .store _ req => ∀ v, k.currentVersion req.channelID = some v → req.keyVersion ≤ v
  | .rotate _ _ => True

variable {channelID : ID} {k k' : KeyTables} {envelopes : List KeyEnvelope} {t : Tables}

theorem versionsInRange_store {version : Nat} (hinv : VersionsInRange k) (hpos : 0 < version)
    (hahead : ∀ v, k.currentVersion channelID = some v → version ≤ v)
    (h : storeKeyEnvelopes t k channelID version envelopes = .ok k') : VersionsInRange k' := by
  rw [storeKeyEnvelopes_ok h]
  intro row hrow
  rw [putEnvelopes_currentVersion, currentVersion_insertVersion]
  by_cases hchan : row.channelID = channelID
  · -- a channel that had no version row had no envelopes either
    rw [if_pos hchan]
    refine ⟨_, rfl, ?_⟩
    rcases mem_putEnvelopes hrow with hold | ⟨-, hversion⟩
    · obtain ⟨v, hv, hrange⟩ := hinv row hold
      rw [hchan] at hv
      rw [hv]
      exact hrange
    · rw [hversion]
      refine ⟨hpos, ?_⟩
      cases hcur : k.currentVersion channelID with
      | none => exact Nat.le_refl version
      | some v => exact hahead v hcur
  · rw [if_neg hchan]
    rcases mem_putEnvelopes hrow with hold | ⟨hchan', -⟩
    · exact hinv row hold
    · exact absurd hchan' hchan

theorem rotate_versions_below {e newVersion : Nat} (hinv : VersionsInRange k)
    (h : rotateChannelKey t k channelID e envelopes = .ok (newVersion, k')) :
    ∀ row ∈ k.channelKeyEnvelopes, row.channelID = channelID → row.keyVersion < newVersion := by
  obtain ⟨hnew, hexpected, -⟩ := rotateChannelKey_spec h
  intro row hrow hchan
  obtain ⟨v, hv, -, hle⟩ := hinv row hrow
  rw [hchan] at hv
  rcases hexpected with ⟨hnone, -⟩ | ⟨hcur, -⟩
  · -- a channel without a version has no envelopes
    rw [hnone] at hv
    cases hv
  · rw [hcur] at hv
    cases hv
    omega

theorem versionsInRange_rotate {e newVersion : Nat} (hinv : VersionsInRange k)
    (h : rotateChannelKey t k channelID e envelopes = .ok (newVersion, k')) :
    VersionsInRange k' := by
  have hbelow := rotate_versions_below hinv h
  obtain ⟨hnew, -, hversion, hrows, -⟩ := rotateChannelKey_spec h
  intro row hrow
  rw [hversion]
  rcases hrows row hrow with hold | ⟨hchan, hv⟩
  · obtain ⟨v, hv, hpos, hle⟩ := hinv row hold
    by_cases hchan : row.channelID = channelID
    · rw [if_pos hchan]
      have hlt := hbelow row hold hchan
      exact ⟨newVersion, rfl, hpos, by omega⟩
    · rw [if_neg hchan]
      exact ⟨v, hv, hpos, hle⟩
  · rw [if_pos hchan]
    exact ⟨newVersion, rfl, by omega, by omega⟩

theorem versionsInRange_handle (k : KeyTables) (ev : KeyEvent) (hinv : VersionsInRange k)
    (hahead : NotAhead k ev) : VersionsInRange (handle k ev) := by
  unfold handle
  unfold NotAhead at hahead
  cases hreq : ev.request with
  | store caller req =>
    rw [hreq] at hahead
    dsimp only
    split
    · rename_i k' hok
      obtain ⟨hpos, -, hstore⟩ := Service.storeKeyEnvelopes_ok hok
      exact versionsInRange_store hinv hpos hahead hstore
    · exact hinv
  | rotate caller req =>
    dsimp only
    split
    · rename_i newVersion k' hok
      exact versionsInRange_rotate hinv (Service.rotateChannelKey_ok hok).2
    · exact hinv

/-- **Versions stay in range as long as nobody stores ahead.** In every state
    of such a run the envelopes are of reached versions, and a rotation never
    finds an envelope of the version it creates. -/
theorem versions_in_range (evs : List KeyEvent) (h : Guarded handle NotAhead {} evs)
    (pre post : List KeyEvent) (hsplit : evs = pre ++ post) :
    VersionsInRange (exec handle {} pre) ∧
      ∀ t nowUnix caller req newVersion k',
        Service.rotateChannelKey t nowUnix (exec handle {} pre) caller req =
            .ok (newVersion, k') →
          ∀ row ∈ (exec handle {} pre).channelKeyEnvelopes,
            row.channelID = req.channelID → row.keyVersion ≠ newVersion := by
  rw [hsplit] at h
  have hempty : VersionsInRange {} := by
    intro row hrow
    cases hrow
  have hinv := exec_invariant versionsInRange_handle hempty h.left
  refine ⟨hinv, ?_⟩
  intro t nowUnix caller req newVersion k' hok row hrow hchan
  have hlt := rotate_versions_below hinv (Service.rotateChannelKey_ok hok).2 row hrow hchan
  omega

/-- Alice creates version 1 and then stores an envelope of version 5. -/
def storeAhead : List KeyEvent :=
  [{ tables := twoMembers, nowUnix := 0,
     request := .rotate (some "alice")
       { channelID := "general", expectedVersion := 0, envelopes := [sampleEnvelope "alice"] } },
   { tables := twoMembers, nowUnix := 0,
     request := .store (some "alice")
       { channelID := "general", keyVersion := 5, envelopes := [sampleEnvelope "bob"] } }]

theorem storeAhead_out_of_range : ¬ VersionsInRange (exec handle {} storeAhead) := by
  have hexec : exec handle {} storeAhead =
      { channelKeyVersions := [{ channelID := "general", currentVersion := 1 }]
        channelKeyEnvelopes := [sampleRow "alice" 1, sampleRow "bob" 5] } := by
    decide +kernel
  rw [hexec]
  intro hinv
  obtain ⟨v, hv, -, hle⟩ := hinv (sampleRow "bob" 5) (by simp)
  have hone : v = 1 := by
    have hcur : some v = some 1 := hv.symm.trans (by decide)
    injection hcur
  rw [hone] at hle
  exact absurd hle (by decide)

/-- Storing at the current version is fine. -/
theorem versions_in_range_distribute :
    VersionsInRange (exec handle {}
      [{ tables := twoMembers, nowUnix := 0,
         request := .rotate (some "alice")
           { channelID := "general", expectedVersion := 0,
             envelopes := [sampleEnvelope "alice"] } },
       { tables := twoMembers, nowUnix := 0,
         request := .store (some "alice")
           { channelID := "general", keyVersion := 1,
             envelopes := [sampleEnvelope "bob"] } }]) := by
  refine (versions_in_range _ ?_ _ [] (List.append_nil _).symm).1
  refine ⟨trivial, ?_, trivial⟩
  intro v hv
  have hcur : some v = some 1 := hv.symm.trans (by decide +kernel)
  injection hcur with hcur
  rw [hcur]

end Meza.Keys
