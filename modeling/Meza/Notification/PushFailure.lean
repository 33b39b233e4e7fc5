import Meza.Lib.Pool
import Meza.Rpc
import Meza.Store.Schema

/-! # Expired push subscriptions

    A push service that answers that a subscription is gone makes the
    notification service switch the device off. It writes back the whole row as
    it was read before the push was sent, and inserts it where it is missing.
    Meanwhile the device may have been revoked, or have registered anew. -/

namespace Meza.Notification.PushFailure
open List Option Table Function Run

open Store (ID)

/-! ## Section 1: Devices -/

/-- A row of `devices` without its times. The columns that can be null are read as empty. -/
structure Device where
  id : ID
  userID : ID
  deviceName : String := ""
  platform : String := "web"
  pushEndpoint : String := ""
  pushP256dh : String := ""
  pushAuth : String := ""
  pushToken : String := ""
  pushEnabled : Bool := false
  devicePublicKey : String := ""
  deviceSignature : String := ""
  deriving DecidableEq, Repr

/-- The device with its push switched off. -/
def Device.disabled (d : Device) : Device := { d with pushEnabled := false }

/-- What `ON CONFLICT (id) DO UPDATE` makes of a row: it stays the user's, and an empty name
    does not replace another. -/
def Device.merge (excluded row : Device) : Device :=
  { excluded with
    id := row.id
    userID := row.userID
    deviceName := if excluded.deviceName ≠ "" then excluded.deviceName else row.deviceName }

theorem Device.merge_id (excluded row : Device) : (excluded.merge row).id = row.id := rfl

theorem Device.disabled_id (d : Device) : d.disabled.id = d.id := rfl

variable {d : Device} {devices : Devices}

theorem Device.merge_disabled {row : Device} (h : row = d ∨ row = d.disabled) :
    d.disabled.merge row = d.disabled := by
  have hname : (if d.deviceName ≠ "" then d.deviceName else d.deviceName) = d.deviceName := by
    split <;> rfl
  have hall : d.disabled.merge d = d.disabled :=
    congrArg (fun deviceName => { d.disabled with deviceName }) hname
  rcases h with rfl | rfl
  · exact hall
  · exact hall

/-- With the primary key. -/
structure Devices where
  rows : List Device
  ids : UniqueOn Device.id rows

namespace Devices

def lookup (devices : Devices) (id : ID) : Option Device :=
  Table.lookup Device.id id devices.rows

theorem unique_upsertDevice (devices : Devices) (d : Device) :
    UniqueOn Device.id (upsert Device.id d.merge d devices.rows) := by
  refine unique_upsert devices.ids d.merge_id ?_
  intro hnew hmem
  obtain ⟨r, hr, hkey⟩ := mem_map.mp hmem
  rw [exists?_eq_true.mpr ⟨r, hr, hkey⟩] at hnew
  cases hnew

def upsertDevice (devices : Devices) (d : Device) : Devices where
  rows := upsert Device.id d.merge d devices.rows
  ids := devices.unique_upsertDevice d

/-- `DELETE FROM devices WHERE p`, with `RETURNING id`. -/
def delete (devices : Devices) (p : Device → Bool) : Devices × List ID :=
  (⟨deleteWhere p devices.rows, unique_deleteWhere devices.ids p⟩,
    (devices.rows.filter p).map (·.id))

def getPushEnabledDevices (devices : Devices) (userIDs : List ID) : List Device :=
  devices.rows.filter fun d => d.userID ∈ userIDs ∧ d.pushEnabled

theorem lookup_upsertDevice (devices : Devices) (d : Device) (id : ID) :
    (devices.upsertDevice d).lookup id =
      if id = d.id then some (((devices.lookup id).map d.merge).getD d)
      else devices.lookup id :=
  Table.lookup_upsert d.merge_id d devices.rows id

theorem lookup_delete (devices : Devices) (p : Device → Bool) (id : ID) :
    (devices.delete p).1.lookup id = (devices.lookup id).filter fun d => !p d :=
  Table.lookup_deleteWhere_of_unique devices.ids p id

theorem of_mem_deleted {p : Device → Bool} {id : ID} (h : id ∈ (devices.delete p).2) :
    (devices.delete p).1.lookup id = none ∧ (devices.lookup id).isSome := by
  obtain ⟨d, hd, rfl⟩ := mem_map.mp h
  obtain ⟨hmem, hp⟩ := mem_filter.mp hd
  have hlookup : devices.lookup d.id = some d := Table.lookup_of_mem devices.ids hmem
  rw [lookup_delete, hlookup]
  simp [hp]

theorem of_mem_pushEnabled {userIDs : List ID} (h : d ∈ devices.getPushEnabledDevices userIDs) :
    devices.lookup d.id = some d ∧ d.pushEnabled = true := by
  obtain ⟨hmem, hcond⟩ := mem_filter.mp h
  exact ⟨Table.lookup_of_mem devices.ids hmem, (of_decide_eq_true hcond).2⟩

end Devices

/-! ## Section 2: The calls -/

structure RegisterDeviceRequest where
  platform : String := ""
  deviceName : String := ""
  pushEndpoint : Option String := none
  pushP256dh : Option String := none
  pushAuth : Option String := none
  pushToken : Option String := none
  userAgent : String := ""
  deriving DecidableEq, Repr

def contains (s sub : String) : Bool := s.toList.tails.any sub.toList.isPrefixOf

def parseBrowser (ua : String) : String :=
  if contains ua "Electron" then "Desktop App"
  else if contains ua "Edg/" || contains ua "Edg " then "Edge"
  else if contains ua "OPR/" || contains ua "Opera" then "Opera"
  else if contains ua "Brave" then "Brave"
  else if contains ua "Vivaldi" then "Vivaldi"
  else if contains ua "Firefox" then "Firefox"
  else if contains ua "Chrome" && !contains ua "Chromium" then "Chrome"
  else if contains ua "Chromium" then "Chromium"
  else if contains ua "Safari" && !contains ua "Chrome" then "Safari"
  else ""

def parseOS (ua : String) : String :=
  if contains ua "iPhone" || contains ua "iPad" then "iOS"
  else if contains ua "Android" then "Android"
  else if contains ua "Mac OS X" || contains ua "Macintosh" then "macOS"
  else if contains ua "Windows" then "Windows"
  else if contains ua "CrOS" then "ChromeOS"
  else if contains ua "Linux" then "Linux"
  else ""

def deviceNameFromUA (ua : String) : String :=
  let browser := parseBrowser ua
  let os := parseOS ua
  if browser = "" ∧ os = "" then ""
  else if browser = "" then os
  else if os = "" then browser
  else browser ++ " on " ++ os

def platformFromUA (ua : String) : String :=
  if contains ua "Electron" then "electron" else "web"

/-- The device that `RegisterDevice` writes. -/
def registerDevice (userID deviceID : ID) (r : RegisterDeviceRequest) :
    Except ConnectError Device := do
  let platform := if r.platform = "" then "web" else r.platform
  rejectIf (platform ≠ "web" ∧ platform ≠ "android" ∧ platform ≠ "ios" ∧ platform ≠ "electron")
    .invalidArgument "platform must be web, android, ios, or electron"
  rejectIf (100 < r.deviceName.utf8ByteSize)
    .invalidArgument "device_name must be at most 100 characters"
  let deviceName :=
    if r.deviceName = "" then deviceNameFromUA r.userAgent else r.deviceName
  let pushEnabled :=
    if platform = "web" ∧ r.pushEndpoint.getD "" ≠ "" then true
    else decide ((platform = "android" ∨ platform = "ios") ∧ r.pushToken.getD "" ≠ "")
  return {
    id := deviceID
    userID
    deviceName
    platform
    pushEnabled
    pushEndpoint := r.pushEndpoint.getD ""
    pushP256dh := r.pushP256dh.getD ""
    pushAuth := r.pushAuth.getD ""
    pushToken := r.pushToken.getD "" }

/-- The device that `RecoverAccount` writes. -/
def recoveredDevice (userID deviceID : ID) (userAgent : String) : Device where
  id := deviceID
  userID
  deviceName := deviceNameFromUA userAgent
  platform := platformFromUA userAgent

/-- How the notification service is set up. -/
structure Config where
  vapidPrivateKey : String
  fcmClient : Bool

/-- Whether a push is sent to the device, given the answer to it, to find that the
    subscription is gone. -/
def sendPush (cfg : Config) (d : Device) (gone : Bool) : Bool :=
  match d.platform with
  | "web"             => gone && cfg.vapidPrivateKey ≠ "" && d.pushEndpoint ≠ ""
  | "android" | "ios" => gone && cfg.fcmClient
  | _ => false

/-! ## Section 3: The system -/

/-- A device read for a push, and how often it had registered then. -/
structure Noted where
  device : Device
  registrations : Nat
  deriving DecidableEq, Repr

/-- The table, and the ids in use. The rest is noted for the statements only. -/
structure State where
  devices : Devices
  used : List ID
  /-- The ids of the rows that revocations have deleted. -/
  revoked : List ID := []
  registrations : ID → Nat := fun _ => 0
  /-- The row as the last registration of the id left it. -/
  latest : ID → Option Device
  /-- A push that read this row found the subscription gone. -/
  expired : ID → Bool := fun _ => false

/-- The devices there are at the start are as they were registered. -/
def State.init (devices : Devices) : State where
  devices
  used := devices.rows.map (·.id)
  latest := devices.lookup

/-- The upsert of a registration. -/
def State.register (s : State) (d : Device) : State :=
  let devices := s.devices.upsertDevice d
  { s with
    devices
    used := d.id :: s.used
    registrations := update s.registrations d.id (s.registrations d.id + 1)
    latest := update s.latest d.id (devices.lookup d.id)
    expired := update s.expired d.id false }

/-- The upsert of a device whose subscription is gone. -/
def State.disable (s : State) (n : Noted) : State :=
  { s with
    devices := s.devices.upsertDevice n.device.disabled
    expired :=
      if n.registrations = s.registrations n.device.id
      then update s.expired n.device.id true else s.expired }

def State.revoke (s : State) (p : Device → Bool) : State :=
  let (devices, ids) := s.devices.delete p
  { s with devices, revoked := ids ++ s.revoked }

def State.readPushEnabled (s : State) (userIDs : List ID) : List Noted :=
  (s.devices.getPushEnabledDevices userIDs).map fun d => ⟨d, s.registrations d.id⟩

/-- A push to some users, or a call of a user that is signed in. -/
inductive Call where
  | push (userIDs : List ID)
  | registerDevice (userID : ID) (deviceID : Option ID) (r : RegisterDeviceRequest)
  | revokeDevice (userID deviceID : ID)
  | revokeAllOtherDevices (userID currentDeviceID : ID)
  | recoverAccount (userID : ID) (userAgent : String)
  deriving DecidableEq, Repr

inductive Phase where
  | reading (userIDs : List ID)
  | sending (pending : List Noted)
  | disabling (noted : Noted) (pending : List Noted)
  | registering (userID : ID) (deviceID : Option ID) (r : RegisterDeviceRequest)
  | revoking (userID deviceID : ID)
  | revokingOthers (userID currentDeviceID : ID)
  | recovering (userID : ID) (userAgent : String)
  | returned
  deriving DecidableEq, Repr

def start : Call → Phase
  | .push userIDs => .reading userIDs
  | .registerDevice userID deviceID r => .registering userID deviceID r
  | .revokeDevice userID deviceID => .revoking userID deviceID
  | .revokeAllOtherDevices userID currentDeviceID => .revokingOthers userID currentDeviceID
  | .recoverAccount userID userAgent => .recovering userID userAgent

/-- A query fails, the push service finds the subscription gone, an id is drawn. -/
structure Outcome where
  fails : Bool := false
  gone : Bool := false
  newID : ID := ""
  deriving DecidableEq, Repr

/-- A device that registers without an id is given a new one. -/
def registeredID (deviceID : Option ID) (o : Outcome) : ID := deviceID.getD o.newID

/-- A step of a call. An id in use is not drawn again. -/
def next (cfg : Config) (s : State) (_others : List Phase) (p : Phase) (o : Outcome) :
    Option (State × Phase) :=
  match p with
  | .reading userIDs =>
    if o.fails then some (s, .returned) else some (s, .sending (s.readPushEnabled userIDs))
  | .sending [] => some (s, .returned)
  -- a device that is connected, or that the push reaches, is passed over
  | .sending (noted :: pending) =>
    if sendPush cfg noted.device o.gone then some (s, .disabling noted pending)
    else some (s, .sending pending)
  | .disabling noted pending =>
    if o.fails then some (s, .sending pending) else some (s.disable noted, .sending pending)
  | .registering userID deviceID r =>
    if deviceID = none ∧ o.newID ∈ s.used then none
    else
      match registerDevice userID (registeredID deviceID o) r with
      | .error _ => some (s, .returned)
      | .ok d => if o.fails then some (s, .returned) else some (s.register d, .returned)
  | .revoking userID deviceID =>
    if deviceID = "" ∨ o.fails then some (s, .returned)
    else some (s.revoke fun d => d.userID = userID ∧ d.id = deviceID, .returned)
  | .revokingOthers userID currentDeviceID =>
    if currentDeviceID = "" ∨ o.fails then some (s, .returned)
    else some (s.revoke fun d => d.userID = userID ∧ d.id ≠ currentDeviceID, .returned)
  | .recovering userID userAgent =>
    if o.newID ∈ s.used then none
    else if o.fails then some (s, .returned)
    else some (s.register (recoveredDevice userID o.newID userAgent), .returned)
  | .returned => none

abbrev System := Pool.State State Phase

abbrev Event := Pool.Event Call Outcome

def step (cfg : Config) : System → Event → System := Pool.step start (next cfg)

/-! ## Section 4: What must not be lost -/

structure NothingLost (s : State) : Prop where
  /-- A row that a revocation has deleted does not come back. -/
  gone : ∀ id ∈ s.revoked, s.devices.lookup id = none
  /-- A row is as the last registration left it, or switched off by a push that read it
      after that. -/
  kept : ∀ id d r, s.devices.lookup id = some d → s.latest id = some r →
    d = if s.expired id then r.disabled else r

/-- A device is switched off while its row is there and as it was read, and registers only
    if it was not revoked. -/
def Timely (s : State) (_others : List Phase) (p : Phase) (o : Outcome) : Prop :=
  match p with
  | .disabling noted _ =>
    o.fails = true ∨ (s.devices.lookup noted.device.id).isSome ∧
      noted.registrations = s.registrations noted.device.id
  | .registering _ deviceID _ => ∀ id ∈ deviceID, id ∉ s.revoked
  | _ => True

instance (s : State) (others : List Phase) (p : Phase) (o : Outcome) :
    Decidable (Timely s others p o) := by
  unfold Timely
  split <;> infer_instance

/-- No write of a push comes too late. -/
def InTime (cfg : Config) (devices : Devices) (evs : List Event) : Prop :=
  Guarded (step cfg) (Pool.Allows (fun _ _ => True) Timely)
    { shared := State.init devices, calls := [] } evs

/-! ## Section 5: The invariant -/

/-- Besides, the ids that are known are in use, and every row has registered. -/
structure Ledger (s : State) : Prop where
  lost : NothingLost s
  rows : ∀ id, (s.devices.lookup id).isSome → id ∈ s.used ∧ (s.latest id).isSome
  revocation : ∀ id ∈ s.revoked, id ∈ s.used

/-- A device is as it registered, unless it has registered again. -/
structure Noted.Sound (s : State) (n : Noted) : Prop where
  past : n.registrations ≤ s.registrations n.device.id
  current : n.registrations = s.registrations n.device.id → s.latest n.device.id = some n.device

/-- The devices a push has still to be sent to. -/
def Phase.noted : Phase → List Noted
  | .sending pending => pending
  | .disabling n pending => n :: pending
  | _ => []

def Phase.Sound (s : State) (p : Phase) : Prop := ∀ n ∈ p.noted, n.Sound s

section Steps

variable {s : State}

theorem ledger_init (devices : Devices) : Ledger (State.init devices) where
  lost :=
    { gone := by
        intro id hid
        cases hid
      kept := by
        intro id d r hd hr
        exact some.inj (hd.symm.trans hr) }
  rows := by
    intro id hid
    obtain ⟨d, hd⟩ := isSome_iff_exists.mp hid
    obtain ⟨hmem, rfl⟩ := Table.mem_of_lookup hd
    exact ⟨mem_map_of_mem hmem, hid⟩
  revocation := by
    intro id hid
    cases hid

theorem ledger_register (h : Ledger s) (hd : d.id ∉ s.revoked) : Ledger (s.register d) where
  lost :=
    { gone := by
        intro id hid
        have hne : id ≠ d.id := fun heq => hd (heq ▸ hid)
        show (s.devices.upsertDevice d).lookup id = none
        rw [Devices.lookup_upsertDevice, if_neg hne]
        exact h.lost.gone id hid
      kept := by
        intro id row r hrow hr
        by_cases hid : id = d.id
        · subst hid
          simp only [State.register, update_self] at hrow hr ⊢
          exact some.inj (hrow.symm.trans hr)
        · simp only [State.register, Devices.lookup_upsertDevice, if_neg hid,
            update_of_ne hid] at hrow hr ⊢
          exact h.lost.kept id row r hrow hr }
  rows := by
    intro id hrow
    by_cases hid : id = d.id
    · subst hid
      refine ⟨mem_cons_self, ?_⟩
      simp only [State.register, update_self]
      exact hrow
    · simp only [State.register, Devices.lookup_upsertDevice, if_neg hid,
        update_of_ne hid] at hrow ⊢
      exact ⟨mem_cons_of_mem _ (h.rows id hrow).1, (h.rows id hrow).2⟩
  revocation := by
    intro id hid
    exact mem_cons_of_mem _ (h.revocation id hid)

theorem ledger_revoke (h : Ledger s) (p : Device → Bool) : Ledger (s.revoke p) where
  lost :=
    { gone := by
        intro id hid
        rcases mem_append.mp hid with hid | hid
        · exact (Devices.of_mem_deleted hid).1
        · show (s.devices.delete p).1.lookup id = none
          rw [Devices.lookup_delete, h.lost.gone id hid]
          rfl
      kept := by
        intro id d r hd hr
        have hbefore : (s.devices.lookup id).filter (fun d => !p d) = some d :=
          (Devices.lookup_delete s.devices p id).symm.trans hd
        exact h.lost.kept id d r (filter_eq_some_iff.mp hbefore).1 hr }
  rows := by
    intro id hid
    obtain ⟨d, hd⟩ := isSome_iff_exists.mp hid
    have hbefore : (s.devices.lookup id).filter (fun d => !p d) = some d :=
      (Devices.lookup_delete s.devices p id).symm.trans hd
    rw [filter_eq_some_iff] at hbefore
    exact h.rows id (isSome_of_mem hbefore.1)
  revocation := by
    intro id hid
    rcases mem_append.mp hid with hid | hid
    · exact (h.rows id (Devices.of_mem_deleted hid).2).1
    · exact h.revocation id hid

variable {n : Noted}

theorem ledger_disable (h : Ledger s) (hn : n.Sound s)
    (hthere : (s.devices.lookup n.device.id).isSome)
    (hsame : n.registrations = s.registrations n.device.id) : Ledger (s.disable n) := by
  obtain ⟨row, hrow⟩ := isSome_iff_exists.mp hthere
  have hlatest : s.latest n.device.id = some n.device := hn.current hsame
  -- the row is the one read, perhaps switched off since
  have hmerge : n.device.disabled.merge row = n.device.disabled := by
    have hkept := h.lost.kept _ _ _ hrow hlatest
    refine Device.merge_disabled ?_
    by_cases hexp : s.expired n.device.id = true
    · right
      rwa [if_pos hexp] at hkept
    · left
      rwa [if_neg hexp] at hkept
  have hlookup (id : ID) : (s.disable n).devices.lookup id =
      if id = n.device.id then some n.device.disabled else s.devices.lookup id := by
    show (s.devices.upsertDevice n.device.disabled).lookup id = _
    rw [Devices.lookup_upsertDevice, Device.disabled_id]
    by_cases hid : id = n.device.id
    · rw [if_pos hid, if_pos hid, hid, hrow, map_some, hmerge, getD_some]
    · rw [if_neg hid, if_neg hid]
  have hexpired : (s.disable n).expired = update s.expired n.device.id true :=
    if_pos hsame
  refine ⟨⟨?_, ?_⟩, ?_, h.revocation⟩
  · intro id hid
    rw [hlookup]
    have hne : id ≠ n.device.id := by
      intro heq
      have hnone := h.lost.gone id hid
      rw [heq, hrow] at hnone
      cases hnone
    rw [if_neg hne]
    exact h.lost.gone id hid
  · intro id d r hd hr
    rw [hlookup] at hd
    rw [hexpired]
    by_cases hid : id = n.device.id
    · subst hid
      rw [if_pos rfl] at hd
      have heq : n.device = r := some.inj (hlatest.symm.trans hr)
      rw [update_self, if_pos rfl, ← heq]
      exact (some.inj hd).symm
    · rw [if_neg hid] at hd
      rw [update_of_ne hid]
      exact h.lost.kept id d r hd hr
  · intro id hid
    rw [hlookup] at hid
    refine h.rows id ?_
    split at hid
    · rename_i heq
      rw [heq]
      exact hthere
    · exact hid

theorem sound_register (hn : n.Sound s) (d : Device) : n.Sound (s.register d) := by
  by_cases hid : n.device.id = d.id
  · have hnow : (s.register d).registrations n.device.id = s.registrations n.device.id + 1 := by
      simp only [State.register, hid, update_self]
    have hpast := hn.past
    constructor
    · omega
    · intro heq
      omega
  · have hnow : (s.register d).registrations n.device.id = s.registrations n.device.id :=
      update_of_ne hid _ _
    have hlatest : (s.register d).latest n.device.id = s.latest n.device.id :=
      update_of_ne hid _ _
    constructor
    · rw [hnow]
      exact hn.past
    · rw [hnow, hlatest]
      exact hn.current

/-- What is read is as it registered: a row that is switched off is not read. -/
theorem sound_read (h : Ledger s) {userIDs : List ID} (hn : n ∈ s.readPushEnabled userIDs) :
    n.Sound s := by
  obtain ⟨d, hd, rfl⟩ := mem_map.mp hn
  obtain ⟨hlookup, henabled⟩ := Devices.of_mem_pushEnabled hd
  obtain ⟨r, hr⟩ := isSome_iff_exists.mp (h.rows d.id (isSome_of_mem hlookup)).2
  have hkept := h.lost.kept d.id d r hlookup hr
  refine ⟨le_rfl, ?_⟩
  intro _
  by_cases hexp : s.expired d.id = true
  · rw [if_pos hexp] at hkept
    rw [hkept] at henabled
    cases henabled
  · rw [if_neg hexp] at hkept
    rw [hr, hkept]

theorem sound_revoke (hn : n.Sound s) (p : Device → Bool) : n.Sound (s.revoke p) :=
  ⟨hn.past, hn.current⟩

theorem sound_disable (hn : n.Sound s) (m : Noted) : n.Sound (s.disable m) :=
  ⟨hn.past, hn.current⟩

theorem registerDevice_id {userID deviceID : ID} {r : RegisterDeviceRequest}
    (h : registerDevice userID deviceID r = .ok d) : d.id = deviceID := by
  obtain ⟨_, -, h⟩ := bind_eq_ok.mp h
  obtain ⟨_, -, h⟩ := bind_eq_ok.mp h
  cases h
  rfl

theorem sound_pending {p p' : Phase} (hp : p.Sound s) (h : p'.noted ⊆ p.noted) : p'.Sound s := by
  intro n hn
  exact hp n (h hn)

theorem next_keeps {cfg : Config} {s' : State} {others : List Phase} {p p' : Phase} {o : Outcome}
    (h : Ledger s) (hp : p.Sound s) (htimely : Timely s others p o)
    (hnext : next cfg s others p o = some (s', p')) :
    Ledger s' ∧ p'.Sound s' ∧ ∀ n : Noted, n.Sound s → n.Sound s' := by
  -- a step that leaves the table
  have hstay {q : Phase} (heq : (s, q) = (s', p')) (hq : q.noted ⊆ p.noted) :
      Ledger s' ∧ p'.Sound s' ∧ ∀ n : Noted, n.Sound s → n.Sound s' := by
    cases heq
    exact ⟨h, sound_pending hp hq, fun _ hn => hn⟩
  have hregister {d : Device} (hd : d.id ∉ s.revoked)
      (heq : (s.register d, Phase.returned) = (s', p')) :
      Ledger s' ∧ p'.Sound s' ∧ ∀ n : Noted, n.Sound s → n.Sound s' := by
    cases heq
    exact ⟨ledger_register h hd, forall_mem_nil _, fun _ hn => sound_register hn d⟩
  have hrevoke {q : Device → Bool} (heq : (s.revoke q, Phase.returned) = (s', p')) :
      Ledger s' ∧ p'.Sound s' ∧ ∀ n : Noted, n.Sound s → n.Sound s' := by
    cases heq
    exact ⟨ledger_revoke h q, forall_mem_nil _, fun _ hn => sound_revoke hn q⟩
  -- an id that is drawn is not one that was revoked
  have hdrawn (hnew : o.newID ∉ s.used) : o.newID ∉ s.revoked :=
    fun hmem => hnew (h.revocation _ hmem)
  cases p with
  | reading userIDs =>
    unfold next at hnext
    dsimp only at hnext
    split at hnext
    · exact hstay (some.inj hnext) (nil_subset _)
    · cases hnext
      exact ⟨h, fun n hn => sound_read h hn, fun _ hn => hn⟩
  | sending pending =>
    cases pending with
    | nil => exact hstay (some.inj hnext) (nil_subset _)
    | cons noted pending =>
      unfold next at hnext
      dsimp only at hnext
      split at hnext
      · exact hstay (some.inj hnext) (fun _ hmem => hmem)
      · exact hstay (some.inj hnext) (subset_cons_self _ _)
  | disabling noted pending =>
    unfold next at hnext
    dsimp only at hnext
    split at hnext
    · exact hstay (some.inj hnext) (subset_cons_self _ _)
    · rename_i hwrites
      cases hnext
      obtain ⟨hthere, hsame⟩ := htimely.resolve_left hwrites
      have hnoted : noted.Sound s := hp noted mem_cons_self
      refine ⟨ledger_disable h hnoted hthere hsame, ?_, fun _ hn => sound_disable hn noted⟩
      intro n hn
      exact sound_disable (hp n (mem_cons_of_mem _ hn)) noted
  | registering userID deviceID r =>
    unfold next at hnext
    dsimp only at hnext
    split at hnext
    · cases hnext
    · rename_i hfresh
      split at hnext
      · exact hstay (some.inj hnext) (nil_subset _)
      · rename_i d hd
        split at hnext
        · exact hstay (some.inj hnext) (nil_subset _)
        · refine hregister ?_ (some.inj hnext)
          rw [registerDevice_id hd]
          cases deviceID with
          | none => exact hdrawn fun hmem => hfresh ⟨rfl, hmem⟩
          | some id => exact htimely id rfl
  | revoking | revokingOthers =>
    unfold next at hnext
    dsimp only at hnext
    split at hnext
    · exact hstay (some.inj hnext) (nil_subset _)
    · exact hrevoke (some.inj hnext)
  | recovering userID userAgent =>
    unfold next at hnext
    dsimp only at hnext
    split at hnext
    · cases hnext
    · rename_i hfresh
      split at hnext
      · exact hstay (some.inj hnext) (nil_subset _)
      · exact hregister (hdrawn hfresh) (some.inj hnext)
  | returned => cases hnext

end Steps

/-! ## Section 6: Runs -/

/-- The invariant, and what is known of the pushes under way. -/
def Inv : System → Prop := Pool.Inv Ledger Phase.Sound fun _ _ _ => True

theorem inv_exec {cfg : Config} {evs : List Event} (h : InTime cfg devices evs) :
    Inv (exec (step cfg) { shared := State.init devices, calls := [] } evs) := by
  refine Pool.keeps_exec ?_ ?_ ?_ (Pool.Inv.init (ledger_init devices)) h
  · exact Pool.Inv.perm fun _ _ _ htrue => htrue
  · intro sh calls call hinv _
    have hnothing : (start call).noted = [] := by cases call <;> rfl
    refine hinv.cons ?_ fun _ _ => trivial
    intro n hn
    rw [hnothing] at hn
    cases hn
  · intro sh p others o sh' p' hinv htimely hnext
    obtain ⟨hledger, hsound, hmono⟩ :=
      next_keeps hinv.shared (hinv.each p mem_cons_self) htimely hnext
    refine hinv.replace hledger hsound ?_ fun _ _ htrue => htrue
    intro q _ hq _
    exact ⟨fun n hn => hmono n (hq n hn), trivial⟩

/-- Where the writes of pushes come in time nothing is ever lost. -/
theorem nothingLost_along {cfg : Config} {devices : Devices}
    {evs : List Event} (h : InTime cfg devices evs) {pre : List Event} (hpre : pre <+: evs) :
    NothingLost (exec (step cfg) { shared := State.init devices, calls := [] } pre).shared := by
  obtain ⟨post, rfl⟩ := hpre
  exact (inv_exec (Guarded.left h)).shared.lost

/-! ### A phone whose subscription is gone -/

def phone : Device where
  id := "phone"
  userID := "ann"
  pushEndpoint := "https://push.example.org/1"
  pushEnabled := true

theorem phone_ids : UniqueOn Device.id [phone] := nodup_singleton _

def phoneOnly : Devices := ⟨[phone], phone_ids⟩

def vapidOnly : Config := ⟨"key", false⟩

def renewed : RegisterDeviceRequest where
  pushEndpoint := some "https://push.example.org/2"

/-- The push has found the subscription gone, and the write is still to come. -/
def pushed : List Event :=
  [.start (.push ["ann"]), .advance 0 {}, .advance 0 { gone := true }]

/-- The phone is switched off, and registers anew. -/
def switchedOff : List Event :=
  pushed ++ [.advance 0 {}, .start (.registerDevice "ann" (some "phone") renewed), .advance 1 {}]

theorem inTime_switchedOff : InTime vapidOnly phoneOnly switchedOff := by
  unfold InTime
  decide

theorem nothingLost_along_switchedOff :
    InTime vapidOnly phoneOnly switchedOff ∧
      NothingLost (exec (step vapidOnly) { shared := State.init phoneOnly, calls := [] }
        switchedOff).shared :=
  ⟨inTime_switchedOff, nothingLost_along inTime_switchedOff (prefix_refl _)⟩

/-- The phone is revoked before the write. -/
def revokedMeanwhile : List Event :=
  pushed ++ [.start (.revokeDevice "ann" "phone"), .advance 1 {}, .advance 0 {}]

/-- The phone registers anew before the write. -/
def registeredMeanwhile : List Event :=
  pushed ++ [.start (.registerDevice "ann" (some "phone") renewed), .advance 1 {}, .advance 0 {}]

theorem nothingLost_fails_phone :
    ¬ NothingLost (exec (step vapidOnly) { shared := State.init phoneOnly, calls := [] }
        revokedMeanwhile).shared ∧
      ¬ NothingLost (exec (step vapidOnly) { shared := State.init phoneOnly, calls := [] }
        registeredMeanwhile).shared := by
  constructor
  · intro h
    have hgone := h.gone "phone" (by decide)
    revert hgone
    decide
  · intro h
    have hkept := h.kept "phone" phone.disabled
      { phone with pushEndpoint := "https://push.example.org/2" } (by decide) (by decide)
    revert hkept
    decide

end Meza.Notification.PushFailure
