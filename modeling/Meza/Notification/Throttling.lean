import Meza.Notification.Audience

/-! # Throttle slots

    A push takes the slot of its user, its channel and its kind for half a
    minute. In a server the slot is taken for users with a device that is away.
    In a direct message it is taken for every user with a device, and so a
    message that all of them have read on their screens keeps a later one from
    being pushed. -/

namespace Meza.Notification
open State Run List

open Store (ID)

/-! ## Section 1: Happenings -/

structure DirectMessage where
  trigger : PushTrigger
  isDM : trigger.kind = .dm
  deriving DecidableEq, Repr

/-- What a message in a server asks of one batch of members. -/
structure ServerMessage where
  userIDs : List ID
  mentioned : List ID
  mentionEveryone : Bool
  base : PushTrigger
  userIDsNodup : userIDs.Nodup
  isMessage : base.kind = .message
  deriving DecidableEq, Repr

/-- The set of connected devices expires on its own when nothing is heard of the user. -/
inductive Happening where
  | direct (userID : ID) (m : DirectMessage)
  | server (m : ServerMessage)
  | connect (userID deviceID : ID)
  | disconnect (userID deviceID : ID)
  | expire (userID : ID)
  | wait (seconds : Nat)
  deriving DecidableEq, Repr

def Happening.isMessage : Happening → Bool
  | .direct _ _ | .server _ => true
  | _ => false

def State.setConnected (s : State) (userID : ID) (deviceIDs : List ID) : State :=
  { s with connected := Function.update s.connected userID deviceIDs }

def happen (s : State) : Happening → List Push × State
  | .direct userID m => notifyOfflineDevices s userID m.trigger
  | .server m =>
    processServerNotifications s m.userIDs m.mentioned m.mentionEveryone m.base
  | .connect userID deviceID =>
    ([], s.setConnected userID ((s.connected userID).insert deviceID))
  | .disconnect userID deviceID =>
    ([], s.setConnected userID ((s.connected userID).filter (· ≠ deviceID)))
  | .expire userID => ([], s.setConnected userID [])
  | .wait seconds => ([], { s with now := s.now + seconds })

def State.sent (s : State) (ev : Happening) : List Push := (happen s ev).1

def State.after (s : State) (ev : Happening) : State := (happen s ev).2

/-! ## Section 2: Which slots a message takes -/

variable {evs : List Happening} {s : State} {key : ThrottleKey}

section Slots

theorem OnlyThrottles.symm {s' : State} (h : OnlyThrottles s s') : OnlyThrottles s' s := by
  obtain ⟨f, rfl⟩ := h
  exact ⟨s.throttles, rfl⟩

theorem setNX_throttles (s : State) (key key' : ThrottleKey) (seconds : Int) :
    (s.setNX key seconds).2.throttles key' =
      if key' = key ∧ s.live key' = false then some (s.now + seconds) else s.throttles key' := by
  unfold setNX
  by_cases hkey : key' = key
  · subst hkey
    rcases hlive : s.live key' with _ | _
    · simp
    · simp
  · rcases hlive : s.live key with _ | _
    · simp [hkey]
    · simp [hkey]

theorem throttleTargets_throttles {keyOf : OfflineTarget → ThrottleKey}
    {targets : List OfflineTarget} (s : State) (key : ThrottleKey) (hd : (targets.map keyOf).Nodup) :
    (throttleTargets s keyOf targets).2.throttles key =
      if key ∈ targets.map keyOf ∧ s.live key = false
      then some (s.now + defaultThrottleSeconds) else s.throttles key := by
  induction targets generalizing s with
  | nil => simp [throttleTargets]
  | cons ot targets ih =>
    rw [map_cons, nodup_cons] at hd
    obtain ⟨f, hf⟩ : OnlyThrottles s (s.setNX (keyOf ot) defaultThrottleSeconds).2 :=
      setNX_onlyThrottles
    have hnow : (s.setNX (keyOf ot) defaultThrottleSeconds).2.now = s.now := by rw [hf]
    unfold throttleTargets
    rw [ih _ hd.2, hnow, setNX_throttles, map_cons]
    by_cases hkey : key = keyOf ot
    · rw [hkey, if_neg (fun h => hd.1 h.1)]
      simp
    · rw [setNX_live_of_ne hkey]
      simp [hkey]

end Slots

/-- What the message of a batch counts as for one of its users. -/
def ServerMessage.mentions (m : ServerMessage) (uid : ID) : Bool :=
  decide (uid ∈ m.mentioned) || m.mentionEveryone

/-- The message tries to take the slot. -/
def State.Claims (s : State) : Happening → ThrottleKey → Prop
  | .direct uid m, key =>
    getPushEnabledDevices s uid ≠ [] ∧ key = .push .dm uid m.trigger.channelID
  | .server m, key =>
    ∃ uid ∈ m.userIDs, s.waiting uid ≠ [] ∧
      (getEffectiveLevel s.preferences uid m.base.serverID m.base.channelID).permits
        (m.mentions uid) = true ∧
      key = .push (messageKind (m.mentions uid)) uid m.base.channelID
  | _, _ => False

instance (s : State) : (ev : Happening) → (key : ThrottleKey) → Decidable (s.Claims ev key)
  | .direct _ _, _ => inferInstanceAs (Decidable (_ ∧ _))
  | .server m, _ => inferInstanceAs (Decidable (∃ _ ∈ m.userIDs, _))
  | .connect _ _, _ | .disconnect _ _, _ | .expire _, _ => inferInstanceAs (Decidable False)
  | .wait _, _ => inferInstanceAs (Decidable False)

/-- What is sent to a user. -/
def Happening.triggerFor (s : State) (uid : ID) : Happening → Option PushTrigger
  | .server m => some (userTrigger s m.base (m.mentions uid))
  | .direct _ m => some m.trigger
  | _ => none

theorem DirectMessage.throttleKey (m : DirectMessage) (uid : ID) :
    m.trigger.throttleKey uid = .push .dm uid m.trigger.channelID := by
  unfold PushTrigger.throttleKey PushTrigger.throttleKeyType
  rw [if_pos m.isDM]

section Messages

variable {ev : Happening} {type : PushKind} {uid channelID : ID}

theorem claims_server_iff {m : ServerMessage} :
    s.Claims (.server m) (.push type uid channelID) ↔
      .push type uid channelID ∈
        (offlineTargets s m.userIDs m.mentioned m.mentionEveryone m.base).map fun ot =>
          (userTrigger s m.base ot.isMention).throttleKey ot.userID := by
  simp only [userTrigger_throttleKey m.isMessage]
  rw [mem_map]
  constructor
  · intro h
    obtain ⟨uid', huid, hwaiting, hlevel, hkey⟩ := h
    exact ⟨⟨⟨uid', m.mentions uid'⟩, s.waiting uid'⟩,
      mem_offlineTargets.mpr ⟨huid, hlevel, rfl, rfl, hwaiting⟩, hkey.symm⟩
  · intro h
    obtain ⟨ot, hot, hkey⟩ := h
    obtain ⟨huid, hlevel, hmention, -, hwaiting⟩ := mem_offlineTargets.mp hot
    rw [hmention] at hlevel hkey
    exact ⟨ot.userID, huid, hwaiting, hlevel, hkey.symm⟩

theorem after_throttles :
    (s.after ev).throttles (.push type uid channelID) =
      if s.Claims ev (.push type uid channelID) ∧ s.live (.push type uid channelID) = false
      then some (s.now + defaultThrottleSeconds) else s.throttles (.push type uid channelID) := by
  cases ev with
  | direct userID m =>
    unfold State.after happen notifyOfflineDevices
    dsimp only
    by_cases hnone : getPushEnabledDevices s userID = []
    · rw [if_pos hnone, if_neg (fun h => h.1.1 hnone)]
    · have hclaims : s.Claims (.direct userID m) (.push type uid channelID) ↔
          ThrottleKey.push type uid channelID = m.trigger.throttleKey userID := by
        rw [m.throttleKey]
        exact and_iff_right hnone
      have hset := setNX_throttles s (m.trigger.throttleKey userID) (.push type uid channelID)
        defaultThrottleSeconds
      simp only [← hclaims] at hset
      rw [if_neg hnone, ← hset]
      split
      · rfl
      · rfl
  | server m =>
    have hd : ((offlineTargets s m.userIDs m.mentioned m.mentionEveryone m.base).map fun ot =>
        (userTrigger s m.base ot.isMention).throttleKey ot.userID).Nodup := by
      exact offlineTargets_keys_nodup m.userIDsNodup
    have htargets := throttleTargets_throttles s (.push type uid channelID) hd
    simp only [← claims_server_iff] at htargets
    unfold State.after happen
    dsimp only
    rw [processServerNotifications_eq, ← htargets]
  | connect | disconnect | expire | wait => exact (if_neg fun h => h.1).symm

theorem devices_of_waiting (h : s.waiting uid ≠ []) : getPushEnabledDevices s uid ≠ [] := by
  intro hnone
  apply h
  unfold waiting
  rw [hnone]
  rfl

theorem mem_sent {p : Push} :
    p ∈ s.sent ev ↔ ∃ type uid channelID, s.Claims ev (.push type uid channelID) ∧
      s.live (.push type uid channelID) = false ∧ p.device ∈ s.waiting uid ∧
      ev.triggerFor s uid = some p.trigger := by
  cases ev with
  | direct userID m =>
    unfold sent happen
    rw [mem_notifyOfflineDevices, m.throttleKey]
    constructor
    · intro h
      obtain ⟨hdevice, hfree, htrigger⟩ := h
      have hsome := devices_of_waiting (ne_nil_of_mem hdevice)
      exact ⟨_, _, _, ⟨hsome, rfl⟩, hfree, hdevice, congrArg some htrigger.symm⟩
    · intro h
      obtain ⟨type, uid, channelID, ⟨-, hkey⟩, hfree, hdevice, htrigger⟩ := h
      rw [hkey] at hfree
      injection hkey with _ huid _
      rw [huid] at hdevice
      exact ⟨hdevice, hfree, (Option.some.inj htrigger).symm⟩
  | server m =>
    unfold sent happen
    rw [mem_processServerNotifications s m.userIDsNodup m.isMessage]
    constructor
    · intro h
      obtain ⟨uid, huid, hdevice, ⟨hlevel, hfree⟩, htrigger⟩ := h
      exact ⟨_, uid, _, ⟨uid, huid, ne_nil_of_mem hdevice, hlevel, rfl⟩, hfree, hdevice,
        congrArg some htrigger.symm⟩
    · intro h
      obtain ⟨type, uid, channelID, ⟨uid', huid, -, hlevel, hkey⟩, hfree, hdevice, htrigger⟩ := h
      rw [hkey] at hfree
      injection hkey with _ hsame _
      subst hsame
      exact ⟨uid, huid, hdevice, ⟨hlevel, hfree⟩, (Option.some.inj htrigger).symm⟩
  | connect | disconnect | expire | wait => simp [sent, happen, Claims]

theorem not_claims_of_isMessage_false (h : ev.isMessage = false) : ¬ s.Claims ev key := by
  cases ev with
  | direct | server => simp [Happening.isMessage] at h
  | connect | disconnect | expire | wait => exact id

theorem after_onlyThrottles (h : ev.isMessage = true) : OnlyThrottles s (s.after ev) := by
  cases ev with
  | direct uid m => exact notifyOfflineDevices_onlyThrottles s uid
  | server m => exact processServerNotifications_onlyThrottles s m.userIDs
  | connect | disconnect | expire | wait => simp [Happening.isMessage] at h

theorem now_le_after (s : State) (ev : Happening) : s.now ≤ (s.after ev).now := by
  by_cases h : ev.isMessage = true
  · obtain ⟨f, hf⟩ := after_onlyThrottles (s := s) h
    rw [hf]
  · cases ev with
    | wait seconds => exact Int.le_add_of_nonneg_right (Int.natCast_nonneg seconds)
    | connect _ _ | disconnect _ _ | expire _ => exact le_refl _
    | direct | server => exact absurd rfl h

end Messages

/-! ## Section 3: Slots and pushes -/

/-- A direct message that finds the slot free finds a device away, or none at all. -/
def State.SlotSent (s : State) : Happening → Prop
  | .direct uid m =>
    getPushEnabledDevices s uid = [] ∨ s.live (.push .dm uid m.trigger.channelID) = true ∨
      s.waiting uid ≠ []
  | _ => True

section Steps

variable {ev : Happening} {type : PushKind} {uid channelID : ID}

theorem State.SlotSent.away (h : s.SlotSent ev) (hclaims : s.Claims ev (.push type uid channelID))
    (hfree : s.live (.push type uid channelID) = false) : s.waiting uid ≠ [] := by
  cases ev with
  | direct uid' m =>
    obtain ⟨hsome, hkey⟩ := hclaims
    rw [hkey] at hfree
    injection hkey with _ huid _
    subst huid
    rcases h with hnone | hlive | haway
    · exact absurd hnone hsome
    · simp [hfree] at hlive
    · exact haway
  | server m =>
    obtain ⟨uid', -, haway, -, hkey⟩ := hclaims
    injection hkey with _ huid _
    exact huid ▸ haway
  | connect | disconnect | expire | wait => exact hclaims.elim

theorem triggerFor_of_claims (hclaims : s.Claims ev key) (uid : ID) :
    ∃ t, ev.triggerFor s uid = some t := by
  cases ev with
  | direct _ m | server => exact ⟨_, rfl⟩
  | connect | disconnect | expire | wait => exact hclaims.elim

theorem sent_of_claims (hclaims : s.Claims ev (.push type uid channelID))
    (hfree : s.live (.push type uid channelID) = false) (haway : s.waiting uid ≠ []) :
    ∃ p ∈ s.sent ev, p.device.userID = uid := by
  obtain ⟨d, hd⟩ := exists_mem_of_ne_nil _ haway
  obtain ⟨t, ht⟩ := triggerFor_of_claims hclaims uid
  exact ⟨⟨d, t⟩, mem_sent.mpr ⟨type, uid, channelID, hclaims, hfree, hd, ht⟩,
    (mem_waiting.mp hd).2.1⟩

theorem claims_of_live (hlive : (s.after ev).live (.push type uid channelID) = true)
    (hfree : s.live (.push type uid channelID) = false) :
    s.Claims ev (.push type uid channelID) := by
  by_contra hnot
  unfold live at hlive hfree
  rw [after_throttles, if_neg (fun h => hnot h.1)] at hlive
  rcases hslot : s.throttles (.push type uid channelID) with _ | expiry
  · rw [hslot] at hlive
    simp at hlive
  · rw [hslot] at hlive hfree
    simp only [Option.any_some, decide_eq_true_eq, decide_eq_false_iff_not] at hlive hfree
    have hnow := now_le_after s ev
    omega

theorem live_after_of_claims (hclaims : s.Claims ev (.push type uid channelID))
    (hfree : s.live (.push type uid channelID) = false) (hmessage : ev.isMessage = true) :
    (s.after ev).live (.push type uid channelID) = true := by
  obtain ⟨f, hf⟩ := after_onlyThrottles (s := s) hmessage
  have hnow : (s.after ev).now = s.now := by rw [hf]
  unfold live
  rw [after_throttles, if_pos ⟨hclaims, hfree⟩, Option.any_some, hnow]
  exact decide_eq_true (Int.lt_add_of_pos_right _ (by decide))

end Steps

/-- Every slot that is taken goes with a push to its user. -/
def SpentOnPushes (s : State) (evs : List Happening) : Prop :=
  ∀ pre ev, pre ++ [ev] <+: evs → ∀ type uid channelID,
    (exec after s pre).live (.push type uid channelID) = false →
    (exec after s (pre ++ [ev])).live (.push type uid channelID) = true →
    ∃ p ∈ (exec after s pre).sent ev, p.device.userID = uid

theorem slotSent_of_spent {ev : Happening}
    (h : ∀ type uid channelID, s.live (.push type uid channelID) = false →
      (s.after ev).live (.push type uid channelID) = true →
      ∃ p ∈ s.sent ev, p.device.userID = uid) : s.SlotSent ev := by
  cases ev with
  | direct uid m =>
    by_contra hnot
    simp only [SlotSent, not_or, not_not, Bool.not_eq_true] at hnot
    obtain ⟨hsome, hfree, hnone⟩ := hnot
    have hclaims : s.Claims (.direct uid m) (.push .dm uid m.trigger.channelID) := ⟨hsome, rfl⟩
    obtain ⟨p, hp, huid⟩ := h _ _ _ hfree (live_after_of_claims hclaims hfree rfl)
    obtain ⟨_, uid', _, -, -, hdevice, -⟩ := mem_sent.mp hp
    rw [← (mem_waiting.mp hdevice).2.1, huid, hnone] at hdevice
    exact not_mem_nil hdevice
  | server | connect | disconnect | expire | wait => trivial

/-- Slots are spent on pushes all along exactly when the direct messages spend theirs so. -/
theorem spentOnPushes_iff : SpentOnPushes s evs ↔ Guarded after SlotSent s evs := by
  constructor
  · intro h
    induction evs generalizing s with
    | nil => trivial
    | cons ev evs ih =>
      refine ⟨slotSent_of_spent (h [] ev ⟨evs, rfl⟩), ih ?_⟩
      intro pre ev' hpre
      exact h (ev :: pre) ev' (cons_prefix_cons.mpr ⟨rfl, hpre⟩)
  · intro h pre ev hpre type uid channelID hfree hlive
    obtain ⟨post, rfl⟩ := hpre
    rw [append_assoc] at h
    rw [exec_append] at hlive
    have hclaims := claims_of_live hlive hfree
    exact sent_of_claims hclaims hfree (h.meets.away hclaims hfree)

/-! ## Section 4: A message that is not pushed -/

/-- The states differ in the throttles of other users only. -/
def SameFor (uid : ID) (s s' : State) : Prop :=
  OnlyThrottles s s' ∧ ∀ type channelID,
    s'.throttles (.push type uid channelID) = s.throttles (.push type uid channelID)

section SameFor

variable {uid : ID} {s' : State} {ev : Happening}

theorem OnlyThrottles.claims_iff (h : OnlyThrottles s s') : s'.Claims ev key ↔ s.Claims ev key := by
  obtain ⟨f, rfl⟩ := h
  cases ev with
  | direct _ _ => rfl
  | server _ => rfl
  | connect _ _ => rfl
  | disconnect _ _ => rfl
  | expire _ => rfl
  | wait _ => rfl

theorem OnlyThrottles.after (h : OnlyThrottles s s') :
    OnlyThrottles (s.after ev) (s'.after ev) := by
  by_cases hmessage : ev.isMessage = true
  · exact (after_onlyThrottles hmessage).symm.trans (h.trans (after_onlyThrottles hmessage))
  · obtain ⟨f, rfl⟩ := h
    cases ev with
    | direct | server => exact absurd rfl hmessage
    | connect | disconnect | expire | wait => exact ⟨f, rfl⟩

theorem SameFor.live (h : SameFor uid s s') (type : PushKind) (channelID : ID) :
    s'.live (.push type uid channelID) = s.live (.push type uid channelID) := by
  obtain ⟨⟨f, rfl⟩, hthrottles⟩ := h
  unfold live
  rw [hthrottles]

theorem SameFor.after (h : SameFor uid s s') : SameFor uid (s.after ev) (s'.after ev) := by
  refine ⟨h.1.after, ?_⟩
  intro type channelID
  have hnow : s'.now = s.now := by
    obtain ⟨⟨f, rfl⟩, -⟩ := h
    rfl
  rw [after_throttles, after_throttles, h.live, h.2, hnow]
  exact if_congr (and_congr_left fun _ => h.1.claims_iff) rfl rfl

theorem SameFor.mem_sent (h : SameFor uid s s') {p : Push} (hp : p.device.userID = uid) :
    p ∈ s'.sent ev ↔ p ∈ s.sent ev := by
  have htrigger : ∀ u, ev.triggerFor s' u = ev.triggerFor s u := by
    obtain ⟨⟨f, rfl⟩, -⟩ := h
    intro u
    cases ev with
    | direct _ _ => rfl
    | server _ => rfl
    | connect _ _ => rfl
    | disconnect _ _ => rfl
    | expire _ => rfl
    | wait _ => rfl
  rw [Notification.mem_sent, Notification.mem_sent]
  refine exists_congr fun type => exists_congr fun u => exists_congr fun channelID => ?_
  rw [h.1.claims_iff, h.1.waiting, htrigger]
  refine and_congr_right fun _ => ?_
  constructor
  · rintro ⟨hfree, hdevice, ht⟩
    have hu : u = uid := (mem_waiting.mp hdevice).2.1.symm.trans hp
    rw [hu, h.live] at hfree
    exact ⟨hu ▸ hfree, hdevice, ht⟩
  · rintro ⟨hfree, hdevice, ht⟩
    have hu : u = uid := (mem_waiting.mp hdevice).2.1.symm.trans hp
    rw [hu, ← h.live] at hfree
    exact ⟨hu ▸ hfree, hdevice, ht⟩

theorem sameFor_after (hmessage : ev.isMessage = true) (hguard : s.SlotSent ev)
    (hquiet : ∀ p ∈ s.sent ev, p.device.userID ≠ uid) : SameFor uid s (s.after ev) := by
  refine ⟨after_onlyThrottles hmessage, ?_⟩
  intro type channelID
  rw [after_throttles, if_neg]
  rintro ⟨hclaims, hfree⟩
  obtain ⟨p, hp, huid⟩ := sent_of_claims hclaims hfree (hguard.away hclaims hfree)
  exact hquiet p hp huid

end SameFor

/-- A message that sends a user nothing leaves what later ones send to the user as it would be
    without the message. -/
def NeverSuppresses (s : State) (evs : List Happening) : Prop :=
  ∀ pre m later m', pre ++ m :: later ++ [m'] <+: evs → m.isMessage = true →
    ∀ uid, (∀ p ∈ (exec after s pre).sent m, p.device.userID ≠ uid) →
    ∀ p, p.device.userID = uid →
      (p ∈ (exec after s (pre ++ m :: later)).sent m' ↔ p ∈ (exec after s (pre ++ later)).sent m')

theorem neverSuppresses_of_guarded (h : Guarded after SlotSent s evs) : NeverSuppresses s evs := by
  intro pre m later m' hpre hmessage uid hquiet p hp
  obtain ⟨post, rfl⟩ := hpre
  have hguard : Guarded after SlotSent s (pre ++ m :: (later ++ [m'] ++ post)) := by
    simpa using h
  have hsame := sameFor_after hmessage hguard.meets hquiet
  have hrun : SameFor uid (exec after s (pre ++ later)) (exec after s (pre ++ m :: later)) := by
    have hstep : ∀ t t' ev ev', SameFor uid t t' → ev = ev' →
        SameFor uid (t.after ev) (t'.after ev') := by
      rintro t t' ev _ ht rfl
      exact ht.after
    have hlater : Forall₂ (· = ·) later later := forall₂_refl later
    have hlong : exec after s (pre ++ m :: later) =
        exec after ((exec after s pre).after m) later := exec_append
    rw [exec_append, hlong]
    exact exec_related hstep hsame hlater
  exact hrun.mem_sent hp

/-! ## Section 5: The two paths -/

/-- A user who is written to in a DM channel in one history, and in a channel of a server,
    always with or always without a mention, in the other. -/
structure Correspondence where
  userID : ID
  dmID : ID
  serverID : ID
  channelID : ID
  isMention : Bool

/-- The slot of the messages in the server. -/
def Correspondence.serverSlot (k : Correspondence) : ThrottleKey :=
  .push (messageKind k.isMention) k.userID k.channelID

/-- The same devices, connections and throttle, and the user wants to hear of the messages. -/
structure Aligned (k : Correspondence) (s s' : State) : Prop where
  devices : s'.devices = s.devices
  connected : s'.connected = s.connected
  now : s'.now = s.now
  throttle : s'.throttles k.serverSlot = s.throttles (.push .dm k.userID k.dmID)
  permitted :
    (getEffectiveLevel s'.preferences k.userID k.serverID k.channelID).permits k.isMention = true

/-- The messages go to the user, the one in the server in any batch; the rest is the same. -/
inductive Counterpart (k : Correspondence) : Happening → Happening → Prop
  | message {m : DirectMessage} {m' : ServerMessage} (hdm : m.trigger.channelID = k.dmID)
      (hbatch : k.userID ∈ m'.userIDs) (hserver : m'.base.serverID = k.serverID)
      (hchannel : m'.base.channelID = k.channelID) (hmention : m'.mentions k.userID = k.isMention) :
      Counterpart k (.direct k.userID m) (.server m')
  | other {ev : Happening} (hother : ev.isMessage = false) : Counterpart k ev ev

section Paths

variable {k : Correspondence} {s' : State} {ev ev' : Happening}

section

variable (h : Aligned k s s')
include h

theorem Aligned.waiting (uid : ID) : s'.waiting uid = s.waiting uid := by
  unfold State.waiting State.offline getPushEnabledDevices
  rw [h.devices, h.connected]

theorem Aligned.live :
    s'.live k.serverSlot = s.live (.push .dm k.userID k.dmID) := by
  unfold State.live
  rw [h.throttle, h.now]

theorem Aligned.claims_iff {m : DirectMessage} {m' : ServerMessage}
    (hev : Counterpart k (.direct k.userID m) (.server m')) :
    s'.Claims (.server m') k.serverSlot ↔ s.waiting k.userID ≠ [] := by
  cases hev with
  | message hdm hbatch hserver hchannel hmention =>
    unfold Claims Correspondence.serverSlot
    rw [← h.waiting]
    constructor
    · rintro ⟨uid, -, haway, -, hkey⟩
      injection hkey with _ huid _
      exact huid ▸ haway
    · intro haway
      refine ⟨k.userID, hbatch, haway, ?_, ?_⟩
      · rw [hserver, hchannel, hmention]
        exact h.permitted
      · rw [hchannel, hmention]

theorem Aligned.throttle_after {m : DirectMessage} {m' : ServerMessage}
    (hev : Counterpart k (.direct k.userID m) (.server m'))
    (hguard : s.SlotSent (.direct k.userID m)) :
    (s'.after (.server m')).throttles k.serverSlot =
      (s.after (.direct k.userID m)).throttles (.push .dm k.userID k.dmID) := by
  have hclaims := h.claims_iff hev
  have hlive := h.live
  have hthrottle := h.throttle
  cases hev with
  | message hdm hbatch hserver hchannel hmention =>
    unfold Correspondence.serverSlot at hclaims hlive hthrottle ⊢
    rw [after_throttles, after_throttles, h.now]
    refine if_congr ?_ rfl hthrottle
    rw [hclaims, hlive]
    refine and_congr_left ?_
    intro hfree
    constructor
    · intro haway
      exact ⟨devices_of_waiting haway, by rw [hdm]⟩
    · rintro ⟨hsome, -⟩
      have hclaimed : s.Claims (.direct k.userID m) (.push .dm k.userID k.dmID) :=
        ⟨hsome, by rw [hdm]⟩
      exact hguard.away hclaimed hfree

theorem Aligned.of_onlyThrottles {t t' : State} (hs : OnlyThrottles s t)
    (hs' : OnlyThrottles s' t')
    (hthrottle : t'.throttles k.serverSlot = t.throttles (.push .dm k.userID k.dmID)) :
    Aligned k t t' := by
  obtain ⟨f, rfl⟩ := hs
  obtain ⟨f', rfl⟩ := hs'
  exact ⟨h.devices, h.connected, h.now, hthrottle, h.permitted⟩

theorem Aligned.after (hev : Counterpart k ev ev') (hguard : s.SlotSent ev) :
    Aligned k (s.after ev) (s'.after ev') := by
  cases hev with
  | @message m m' hdm hbatch hserver hchannel hmention =>
    exact h.of_onlyThrottles (after_onlyThrottles rfl) (after_onlyThrottles rfl)
      (h.throttle_after (.message hdm hbatch hserver hchannel hmention) hguard)
  | other hother =>
    obtain ⟨hdevices, hconnected, hnow, hthrottle, hpermitted⟩ := h
    cases ev with
    | direct | server => simp [Happening.isMessage] at hother
    | connect | disconnect | expire =>
      exact ⟨hdevices, by simp [State.after, happen, State.setConnected, hconnected], hnow,
        hthrottle, hpermitted⟩
    | wait _ =>
      exact ⟨hdevices, hconnected, by simp [State.after, happen, hnow], hthrottle, hpermitted⟩

end

/-- The device gets a push. -/
def Dispatched (s : State) (ev : Happening) (d : Device) : Prop := ∃ p ∈ s.sent ev, p.device = d

theorem dispatched_iff {d : Device} :
    Dispatched s ev d ↔ ∃ type channelID, s.Claims ev (.push type d.userID channelID) ∧
      s.live (.push type d.userID channelID) = false ∧ d ∈ s.waiting d.userID := by
  constructor
  · rintro ⟨p, hp, rfl⟩
    obtain ⟨type, uid, channelID, hclaims, hfree, hdevice, -⟩ := mem_sent.mp hp
    obtain ⟨-, rfl, -⟩ := mem_waiting.mp hdevice
    exact ⟨type, channelID, hclaims, hfree, hdevice⟩
  · rintro ⟨type, channelID, hclaims, hfree, hdevice⟩
    obtain ⟨t, ht⟩ := triggerFor_of_claims hclaims d.userID
    exact ⟨⟨d, t⟩, mem_sent.mpr ⟨type, _, channelID, hclaims, hfree, hdevice, ht⟩, rfl⟩

theorem Aligned.dispatched_iff (h : Aligned k s s') (hev : Counterpart k ev ev') {d : Device}
    (hd : d.userID = k.userID) : Dispatched s ev d ↔ Dispatched s' ev' d := by
  rw [Notification.dispatched_iff, Notification.dispatched_iff, h.waiting, hd]
  cases hev with
  | @message m m' hdm hbatch hserver hchannel hmention =>
    have hclaims := h.claims_iff (.message hdm hbatch hserver hchannel hmention)
    constructor
    · rintro ⟨type, channelID, ⟨-, hkey⟩, hfree, hdevice⟩
      rw [hkey, hdm, ← h.live] at hfree
      exact ⟨_, _, hclaims.mpr (ne_nil_of_mem hdevice), hfree, hdevice⟩
    · rintro ⟨type, channelID, ⟨uid, -, -, -, hkey⟩, hfree, hdevice⟩
      have huid : k.userID = uid := by injection hkey
      rw [hkey, ← huid, hmention, hchannel] at hfree
      have hsome := devices_of_waiting (ne_nil_of_mem hdevice)
      exact ⟨.dm, k.dmID, ⟨hsome, by rw [hdm]⟩, h.live.symm.trans hfree, hdevice⟩
  | other hother =>
    refine iff_of_false ?_ ?_
    · rintro ⟨_, _, hclaims, -⟩
      exact not_claims_of_isMessage_false hother hclaims
    · rintro ⟨_, _, hclaims, -⟩
      exact not_claims_of_isMessage_false hother hclaims

end Paths

/-- Along corresponding histories the two paths push to the same devices of the user. -/
def PathsAgree (s : State) (evs : List Happening) : Prop :=
  ∀ (k : Correspondence) (s' : State) (pre pre' : List Happening) (ev ev' : Happening),
    Aligned k s s' → pre ++ [ev] <+: evs → Forall₂ (Counterpart k) pre pre' →
    Counterpart k ev ev' → ∀ d : Device, d.userID = k.userID →
      (Dispatched (exec after s pre) ev d ↔ Dispatched (exec after s' pre') ev' d)

theorem pathsAgree_of_guarded (h : Guarded after SlotSent s evs) : PathsAgree s evs := by
  intro k s' pre pre' ev ev' haligned hpre hpast hev d hd
  obtain ⟨post, rfl⟩ := hpre
  rw [append_assoc] at h
  have hnow : Aligned k (exec after s pre) (exec after s' pre') :=
    exec_related_of_guarded (fun _ _ _ _ => .after) haligned hpast h.left
  exact hnow.dispatched_iff hev hd

/-- **Slots are for pushes.** Every slot is spent on a push, no message that is not pushed
    suppresses a later one, and the two paths decide alike, exactly when every direct message
    that finds its slot free finds a device away, or none to push to. -/
theorem slots_iff (s : State) (evs : List Happening) :
    (SpentOnPushes s evs ∧ NeverSuppresses s evs ∧ PathsAgree s evs) ↔
      Guarded after SlotSent s evs := by
  constructor
  · intro h
    exact spentOnPushes_iff.mp h.1
  · intro h
    exact ⟨spentOnPushes_iff.mpr h, neverSuppresses_of_guarded h, pathsAgree_of_guarded h⟩

/-- A message of the mod to the guest. -/
def note (messageID : ID) : DirectMessage where
  trigger := { kind := .dm, channelID := "dm", senderID := "mod", messageID }
  isDM := rfl

/-- The guest's only device is the phone, which is connected. -/
def onlineState : State :=
  { theatreState with
    preferences := []
    connected := fun uid => if uid = "guest" then ["phone"] else [] }

/-- The guest reads the first note on the phone, closes it, and is not told of the second. -/
def quietEvening : List Happening :=
  [.direct "guest" (note "first"), .disconnect "guest" "phone", .direct "guest" (note "second")]

/-- Without the first note the second would be pushed. -/
theorem slots_fails_quietEvening :
    onlineState.sent (.direct "guest" (note "first")) = [] ∧
      (exec after onlineState (quietEvening.take 2)).sent
        (.direct "guest" (note "second")) = [] ∧
      (exec after onlineState [.disconnect "guest" "phone"]).sent
        (.direct "guest" (note "second")) ≠ [] ∧
      ¬ ∀ s evs, NeverSuppresses s evs := by
  have hfirst : onlineState.sent (.direct "guest" (note "first")) = [] := by decide
  have hlost : (exec after onlineState (quietEvening.take 2)).sent
      (.direct "guest" (note "second")) = [] := by decide
  have hdue : (exec after onlineState [.disconnect "guest" "phone"]).sent
      (.direct "guest" (note "second")) =
        [⟨⟨"phone", "guest", true⟩, (note "second").trigger⟩] := by decide
  refine ⟨hfirst, hlost, by rw [hdue]; exact cons_ne_nil _ _, ?_⟩
  intro hall
  have hnever := hall onlineState quietEvening [] (.direct "guest" (note "first"))
    [.disconnect "guest" "phone"] (.direct "guest" (note "second")) prefix_rfl rfl "guest"
    (fun p hp => absurd (hfirst ▸ hp) not_mem_nil)
    ⟨⟨"phone", "guest", true⟩, (note "second").trigger⟩ rfl
  have hmem := hnever.mpr (by rw [nil_append, hdue]; exact mem_singleton_self _)
  exact absurd (hlost ▸ hmem) not_mem_nil

end Meza.Notification
