import Meza.Keys.EnvelopeStore
import Meza.Store.ChannelPermission

/-! # The key service

    The handlers of `cmd/keys/service.go` that store, hand out and rotate
    channel keys. Every handler checks `hasViewChannel` first. Events that a
    rotation publishes are not modelled. -/

namespace Meza.Keys

open Store Permissions

/-! ## Section 1: Validation -/

def maxEnvelopeSize : Nat := 93
def envelopeVersion : UInt8 := 0x02
def maxEnvelopeBatch : Nat := 1000

/-- `%02x`. -/
def hexByte (b : UInt8) : String :=
  let digits := .ofList (Nat.toDigits 16 b.toNat)
  if b.toNat < 16 then "0" ++ digits else digits

def requireCaller (caller : Option ID) : Except ConnectError ID :=
  match caller with
  | none => .error { code := .unauthenticated, message := "authentication required" }
  | some id => .ok id

/-- The checks of one envelope. -/
def validateEnvelope (i : Nat) (env : KeyEnvelope) : Except ConnectError Unit := do
  rejectIf (env.userID = "") .invalidArgument s!"envelope[{i}]: user_id is required"
  let got := env.envelope.length
  rejectIf (got ≠ maxEnvelopeSize) .invalidArgument
    s!"envelope[{i}]: must be exactly {maxEnvelopeSize} bytes, got {got}"
  let first := env.envelope.headD 0
  let byte := hexByte first
  let expected := hexByte envelopeVersion
  rejectIf (first ≠ envelopeVersion) .invalidArgument
    s!"envelope[{i}]: unsupported version byte 0x{byte}, expected 0x{expected}"

/-- The loop over the envelopes, from index `i` on. -/
def validateFrom : Nat → List KeyEnvelope → Except ConnectError Unit
  | _, [] => .ok ()
  | i, env :: envs => do
    validateEnvelope i env
    validateFrom (i + 1) envs

def validateAndConvertEnvelopes (envelopes : List KeyEnvelope) :
    Except ConnectError (List KeyEnvelope) := do
  rejectIf (envelopes.length = 0) .invalidArgument "envelopes must not be empty"
  let got := envelopes.length
  rejectIf (maxEnvelopeBatch < got) .invalidArgument
    s!"too many envelopes: max {maxEnvelopeBatch}, got {got}"
  validateFrom 0 envelopes
  return envelopes

/-- `SELECT COUNT(DISTINCT m.user_id)` over the channel's server, or else over
    the channel's own members, against the number of distinct ids. -/
def areServerMembersOfChannel (t : Tables) (channelID : ID) (userIDs : List ID) : Bool :=
  if userIDs.isEmpty then true
  else
    let unique := userIDs.dedup.length
    let serverMembers := (t.members.filter fun m =>
      m.userID ∈ userIDs ∧ t.channels.any fun c => c.id = channelID ∧ c.serverID = some m.serverID)
    if (serverMembers.map (·.userID)).dedup.length = unique then true
    else
      let channelMembers := (t.channelMembers.filter fun cm =>
        cm.channelID = channelID ∧ cm.userID ∈ userIDs)
      (channelMembers.map (·.userID)).dedup.length = unique

/-- Ensures every recipient is a member of the server that owns the channel. -/
def validateEnvelopeRecipients (t : Tables) (channelID : ID) (envelopes : List KeyEnvelope) :
    Except ConnectError Unit :=
  rejectIf (¬ areServerMembersOfChannel t channelID (envelopes.map (·.userID)))
    .invalidArgument "envelope targets non-member"

/-! ## Section 2: Handlers -/

namespace Service

structure StoreKeyEnvelopesRequest where
  channelID : ID
  keyVersion : Nat
  envelopes : List KeyEnvelope

structure RotateChannelKeyRequest where
  channelID : ID
  expectedVersion : Nat
  envelopes : List KeyEnvelope

/-- The check every handler starts with. -/
def requireViewChannel (t : Tables) (nowUnix : Int) (userID channelID : ID) :
    Except ConnectError Unit :=
  rejectIf (¬ hasViewChannel t nowUnix userID channelID) .permissionDenied
    "no ViewChannel permission on this channel"

def storeKeyEnvelopes (t : Tables) (nowUnix : Int) (k : KeyTables) (caller : Option ID)
    (req : StoreKeyEnvelopesRequest) : Except ConnectError KeyTables := do
  let userID ← requireCaller caller
  rejectIf (req.channelID = "") .invalidArgument "channel_id is required"
  rejectIf (req.keyVersion = 0) .invalidArgument "key_version must be > 0"
  requireViewChannel t nowUnix userID req.channelID
  let envelopes ← validateAndConvertEnvelopes req.envelopes
  validateEnvelopeRecipients t req.channelID envelopes
  match Keys.storeKeyEnvelopes t k req.channelID req.keyVersion envelopes with
  | .ok k' => return k'
  | .error _ => throw { code := .internal, message := "failed to store key envelopes" }

/-- A caller without ViewChannel may still fetch keys as a channel member. -/
def getKeyEnvelopes (t : Tables) (nowUnix : Int) (k : KeyTables) (caller : Option ID)
    (channelID : ID) : Except ConnectError (List VersionedEnvelope) := do
  let userID ← requireCaller caller
  rejectIf (channelID = "") .invalidArgument "channel_id is required"
  if ¬ hasViewChannel t nowUnix userID channelID then
    rejectIf (¬ isChannelMember t channelID userID) .permissionDenied
      "no access to this channel's keys"
  return Keys.getKeyEnvelopes k channelID userID

def rotateChannelKey (t : Tables) (nowUnix : Int) (k : KeyTables) (caller : Option ID)
    (req : RotateChannelKeyRequest) : Except ConnectError (Nat × KeyTables) := do
  let userID ← requireCaller caller
  rejectIf (req.channelID = "") .invalidArgument "channel_id is required"
  requireViewChannel t nowUnix userID req.channelID
  let envelopes ← validateAndConvertEnvelopes req.envelopes
  validateEnvelopeRecipients t req.channelID envelopes
  match Keys.rotateChannelKey t k req.channelID req.expectedVersion envelopes with
  | .ok res => return res
  | .error .versionMismatch =>
    let channelID := req.channelID
    let expectedVersion := req.expectedVersion
    throw
      { code := .aborted,
        message := s!"key version mismatch for channel {channelID}: expected {expectedVersion}" }
  | .error (.failed _) => throw { code := .internal, message := "failed to rotate channel key" }

/-! ## Section 3: What a successful call has checked -/

theorem validateAndConvertEnvelopes_ok {envelopes envelopes' : List KeyEnvelope}
    (h : validateAndConvertEnvelopes envelopes = .ok envelopes') :
    envelopes' = envelopes ∧ envelopes ≠ [] ∧ envelopes.length ≤ maxEnvelopeBatch := by
  obtain ⟨_, hempty, h⟩ := bind_eq_ok.mp h
  obtain ⟨_, hbatch, h⟩ := bind_eq_ok.mp h
  obtain ⟨_, -, h⟩ := bind_eq_ok.mp h
  rw [rejectIf_ok] at hempty hbatch
  injection h with h
  refine ⟨h.symm, ?_, by omega⟩
  intro hnil
  exact hempty (by rw [hnil]; rfl)

variable {nowUnix : Int} {k : KeyTables} {t : Tables}

theorem storeKeyEnvelopes_ok {k' : KeyTables} {caller : Option ID} {req : StoreKeyEnvelopesRequest}
    (h : storeKeyEnvelopes t nowUnix k caller req = .ok k') :
    0 < req.keyVersion ∧ req.envelopes ≠ [] ∧
      Keys.storeKeyEnvelopes t k req.channelID req.keyVersion req.envelopes = .ok k' := by
  obtain ⟨userID, -, h⟩ := bind_eq_ok.mp h
  obtain ⟨_, -, h⟩ := bind_eq_ok.mp h
  obtain ⟨_, hversion, h⟩ := bind_eq_ok.mp h
  obtain ⟨_, -, h⟩ := bind_eq_ok.mp h
  obtain ⟨envelopes, henvs, h⟩ := bind_eq_ok.mp h
  obtain ⟨_, -, h⟩ := bind_eq_ok.mp h
  obtain ⟨rfl, hnonempty, -⟩ := validateAndConvertEnvelopes_ok henvs
  rw [rejectIf_ok] at hversion
  refine ⟨by omega, hnonempty, ?_⟩
  split at h
  · rename_i hstore
    injection h with h
    rw [hstore, h]
  · cases h

theorem rotateChannelKey_ok {k' : KeyTables} {caller : Option ID} {req : RotateChannelKeyRequest}
    {newVersion : Nat} (h : rotateChannelKey t nowUnix k caller req = .ok (newVersion, k')) :
    req.envelopes ≠ [] ∧
      Keys.rotateChannelKey t k req.channelID req.expectedVersion req.envelopes =
        .ok (newVersion, k') := by
  obtain ⟨userID, -, h⟩ := bind_eq_ok.mp h
  obtain ⟨_, -, h⟩ := bind_eq_ok.mp h
  obtain ⟨_, -, h⟩ := bind_eq_ok.mp h
  obtain ⟨envelopes, henvs, h⟩ := bind_eq_ok.mp h
  obtain ⟨_, -, h⟩ := bind_eq_ok.mp h
  obtain ⟨rfl, hnonempty, -⟩ := validateAndConvertEnvelopes_ok henvs
  refine ⟨hnonempty, ?_⟩
  split at h
  · rename_i hrotate
    injection h with h
    rw [hrotate, h]
  · cases h
  · cases h

/-- Keys are handed out to those with ViewChannel and to channel members. -/
theorem getKeyEnvelopes_isOk {userID channelID : ID} (hchannel : channelID ≠ "") :
    (∃ envelopes, getKeyEnvelopes t nowUnix k (some userID) channelID = .ok envelopes) ↔
      hasViewChannel t nowUnix userID channelID = true ∨
        isChannelMember t channelID userID = true := by
  unfold getKeyEnvelopes
  simp only [requireCaller, bind_eq_ok]
  by_cases hview : hasViewChannel t nowUnix userID channelID = true
  · simp [hview, rejectIf, hchannel, bind, Except.bind, pure, Except.pure]
  · by_cases hmember : isChannelMember t channelID userID = true
    · simp [hview, hmember, rejectIf, hchannel, bind, Except.bind, pure, Except.pure]
    · simp [hview, hmember, rejectIf, hchannel, bind, Except.bind]

end Service

end Meza.Keys
