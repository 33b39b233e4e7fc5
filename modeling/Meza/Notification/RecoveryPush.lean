import Meza.Notification.Audience

/-! # Recovery pushes

    A device that asks for access to an account is announced to the other
    devices of the user: the service is delivered an event, and sends a push to
    those that are not connected. A Redis key keeps a session from being
    announced twice within five minutes. It is claimed for each device anew,
    and so the first device that is away is the only one to hear of it. -/

namespace Meza.Notification

open Store (ID)

/-! ## Section 1: The handler -/

/-- The part of a `device_recovery_request` event that the service reads. -/
structure DeviceRecoveryRequest where
  sessionID : ID
  deriving DecidableEq, Repr

inductive UserEvent where
  | deviceRecoveryRequest (request : DeviceRecoveryRequest)
  | other
  deriving DecidableEq, Repr

structure RecoveryPush where
  device : Device
  type : String
  title : String
  body : String
  sessionID : ID
  deriving DecidableEq, Repr

/-- Besides the rest, when the keys `push_throttle:device_recovery:…` of a user and a
    session expire. -/
structure RecoveryState extends State where
  recoveryThrottles : ID × ID → Option Int := fun _ => none

/-- The key is set and has not expired. -/
def RecoveryState.announced (s : RecoveryState) (userID sessionID : ID) : Bool :=
  (s.recoveryThrottles (userID, sessionID)).any (s.now < ·)

/-- `SETNX` with an expiry in seconds. -/
def RecoveryState.claim (s : RecoveryState) (userID sessionID : ID) (seconds : Int) :
    Bool × RecoveryState :=
  if s.announced userID sessionID then (false, s)
  else
    (true, { s with
      recoveryThrottles :=
        Function.update s.recoveryThrottles (userID, sessionID) (some (s.now + seconds)) })

def recoveryThrottleSeconds : Int := 300

def sendRecoveryPush (device : Device) (sessionID : ID) : RecoveryPush where
  device
  type := "device_recovery"
  title := "Account Recovery Request"
  body := "Another device is requesting access to your account"
  sessionID

/-- The loop over the user's devices. -/
def pushRecovery (userID sessionID : ID) (s : RecoveryState) :
    List Device → List RecoveryPush × RecoveryState
  | [] => ([], s)
  | device :: devices =>
    if device.id ∈ s.connected userID then pushRecovery userID sessionID s devices
    else
      let (set, s₁) := s.claim userID sessionID recoveryThrottleSeconds
      -- a key that is taken ends the loop
      if !set then ([], s₁)
      else
        let (rest, s₂) := pushRecovery userID sessionID s₁ devices
        (sendRecoveryPush device sessionID :: rest, s₂)

/-- The subject is split at its dots, and its fourth part is the user. -/
def handleRecoveryEvent (s : RecoveryState) (subject : List String) (event : UserEvent) :
    List RecoveryPush × RecoveryState :=
  match subject[3]?, event with
  | some userID, .deviceRecoveryRequest request =>
    pushRecovery userID request.sessionID s (getPushEnabledDevices s.toState userID)
  | _, _ => ([], s)

def RecoveryState.later (s : RecoveryState) (seconds : Nat) : RecoveryState :=
  { s with now := s.now + seconds }

/-- The parts of the subject that the event is published under. -/
def userRecovery (userID : ID) : List String := ["meza", "user", "recovery", userID]

/-- The event is delivered several times, each so many seconds after the time before. -/
def deliverRecovery (subject : List String) (event : UserEvent) (s : RecoveryState) :
    List Nat → List RecoveryPush × RecoveryState
  | [] => ([], s)
  | wait :: waits =>
    let (sent, s₁) := handleRecoveryEvent (s.later wait) subject event
    let (later, s₂) := deliverRecovery subject event s₁ waits
    (sent ++ later, s₂)

/-! ## Section 2: One delivery -/

section Delivery

variable {s : RecoveryState} {uid sid : ID} {seconds : Int}

theorem claim_of_announced (h : s.announced uid sid = true) :
    s.claim uid sid seconds = (false, s) := if_pos h

theorem claim_of_free (h : s.announced uid sid = false) : (s.claim uid sid seconds).1 = true := by
  unfold RecoveryState.claim
  rw [if_neg (by simp [h])]

theorem claim_toState : (s.claim uid sid seconds).2.toState = s.toState := by
  unfold RecoveryState.claim
  split
  · rfl
  · rfl

/-- The key expires as long after as it is told to. -/
theorem claim_throttles (h : s.announced uid sid = false) :
    (s.claim uid sid seconds).2.recoveryThrottles (uid, sid) = some (s.now + seconds) := by
  unfold RecoveryState.claim
  rw [if_neg (by simp [h])]
  exact Function.update_self _ _ _

theorem announced_claim (h : s.announced uid sid = false) :
    (s.claim uid sid recoveryThrottleSeconds).2.announced uid sid = true := by
  unfold RecoveryState.announced
  rw [claim_throttles h, claim_toState, Option.any_some]
  exact decide_eq_true (Int.lt_add_of_pos_right _ (by decide))

theorem pushRecovery_of_announced (h : s.announced uid sid = true) (devices : List Device) :
    pushRecovery uid sid s devices = ([], s) := by
  induction devices with
  | nil => rfl
  | cons d devices ih =>
    unfold pushRecovery
    rw [ih, claim_of_announced h]
    split
    · rfl
    · rfl

/-- The first device that is away takes the key, and ends the loop for the others. -/
theorem pushRecovery_of_free (h : s.announced uid sid = false) (devices : List Device) :
    pushRecovery uid sid s devices =
      match s.offline uid devices with
      | [] => ([], s)
      | d :: _ =>
        ([sendRecoveryPush d sid], (s.claim uid sid recoveryThrottleSeconds).2) := by
  induction devices with
  | nil => rfl
  | cons d devices ih =>
    unfold pushRecovery
    by_cases hconnected : d.id ∈ s.connected uid
    · have hskip : s.offline uid (d :: devices) = s.offline uid devices :=
        List.filter_cons_of_neg (by simp [hconnected])
      rw [if_pos hconnected, ih, hskip]
    · have hfirst : s.offline uid (d :: devices) = d :: s.offline uid devices :=
        List.filter_cons_of_pos (by simp [hconnected])
      rw [if_neg hconnected, hfirst]
      dsimp only
      rw [claim_of_free h, pushRecovery_of_announced (announced_claim h)]
      rfl

end Delivery

/-! ## Section 3: Every delivery -/

variable {d : Device}

section Deliveries

variable {uid : ID} {request : DeviceRecoveryRequest} {s : RecoveryState}

theorem handleRecoveryEvent_toState (s : RecoveryState) :
    (handleRecoveryEvent s (userRecovery uid) (.deviceRecoveryRequest request)).2.toState =
      s.toState := by
  change (pushRecovery uid request.sessionID s _).2.toState = s.toState
  rcases h : s.announced uid request.sessionID with _ | _
  · rw [pushRecovery_of_free h]
    split
    · rfl
    · exact claim_toState
  · rw [pushRecovery_of_announced h]

theorem handleRecoveryEvent_of_announced (h : s.announced uid request.sessionID = true) :
    handleRecoveryEvent s (userRecovery uid) (.deviceRecoveryRequest request) = ([], s) :=
  pushRecovery_of_announced h _

variable {ds : List Device}

theorem handleRecoveryEvent_first (haway : s.waiting uid = d :: ds)
    (h : s.announced uid request.sessionID = false) :
    handleRecoveryEvent s (userRecovery uid) (.deviceRecoveryRequest request) =
      ([sendRecoveryPush d request.sessionID],
        (s.claim uid request.sessionID recoveryThrottleSeconds).2) := by
  change pushRecovery uid request.sessionID s _ = _
  unfold State.waiting at haway
  rw [pushRecovery_of_free h, haway]

theorem mem_deliverRecovery (haway : s.waiting uid = d :: ds) {waits : List Nat} {p : RecoveryPush}
    (hp : p ∈ (deliverRecovery (userRecovery uid) (.deviceRecoveryRequest request) s waits).1) :
    p = sendRecoveryPush d request.sessionID := by
  induction waits generalizing s with
  | nil => exact absurd hp List.not_mem_nil
  | cons w waits ih =>
    unfold deliverRecovery at hp
    rcases List.mem_append.mp hp with hnow | hlater
    · have hsame : (s.later w).waiting uid = d :: ds := haway
      rcases h : (s.later w).announced uid request.sessionID with _ | _
      · rw [handleRecoveryEvent_first hsame h] at hnow
        exact List.mem_singleton.mp hnow
      · rw [handleRecoveryEvent_of_announced h] at hnow
        exact absurd hnow List.not_mem_nil
    · refine ih ?_ hlater
      rw [handleRecoveryEvent_toState]
      exact haway

/-- Once the key is taken, a delivery sends something again when the key has expired. -/
theorem deliverRecovery_eq_nil_iff (haway : s.waiting uid = d :: ds) {expiry : Int}
    (hkey : s.recoveryThrottles (uid, request.sessionID) = some expiry) (hlive : s.now < expiry)
    (waits : List Nat) :
    (deliverRecovery (userRecovery uid) (.deviceRecoveryRequest request) s waits).1 = [] ↔
      s.now + waits.sum < expiry := by
  induction waits generalizing s with
  | nil => simpa [deliverRecovery] using hlive
  | cons w waits ih =>
    have hsame : (s.later w).waiting uid = d :: ds := haway
    have hannounced : (s.later w).announced uid request.sessionID =
        decide (s.now + w < expiry) := by
      unfold RecoveryState.announced RecoveryState.later
      rw [hkey, Option.any_some]
    unfold deliverRecovery
    dsimp only
    by_cases hstill : s.now + w < expiry
    · rw [decide_eq_true hstill] at hannounced
      rw [handleRecoveryEvent_of_announced hannounced, List.nil_append,
        ih hsame hkey hstill, List.sum_cons]
      exact iff_of_eq (congrArg (· < expiry) (Int.add_assoc _ _ _))
    · rw [decide_eq_false hstill] at hannounced
      rw [handleRecoveryEvent_first hsame hannounced, List.sum_cons]
      refine iff_of_false (by simp) ?_
      omega

end Deliveries

/-! ## Section 4: Each device once -/

/-- The recovery pushes for the session that went to the device. -/
def heard (sent : List RecoveryPush) (d : Device) (sessionID : ID) : Nat :=
  sent.count (sendRecoveryPush d sessionID)

/-- No device is away, or one is and the deliveries, of which there are some, are all made
    within the five minutes that the key lasts. -/
def AtMostOneAway (s : RecoveryState) (uid : ID) (waits : List Nat) : Prop :=
  match s.waiting uid, waits with
  | [], _ => True
  | [_], _ :: later => (later.sum : Int) < recoveryThrottleSeconds
  | _, _ => False

theorem announced_later {s : RecoveryState} {uid sid : ID} (h : s.announced uid sid = false)
    (w : Nat) : (s.later w).announced uid sid = false := by
  unfold RecoveryState.announced at h ⊢
  unfold RecoveryState.later
  dsimp only
  rcases hkey : s.recoveryThrottles (uid, sid) with _ | expiry
  · rfl
  · rw [hkey, Option.any_some, decide_eq_false_iff_not] at h
    rw [Option.any_some, decide_eq_false_iff_not]
    omega

theorem heard_eq_zero_iff {sent : List RecoveryPush} {sid : ID}
    (h : ∀ p ∈ sent, p = sendRecoveryPush d sid) : heard sent d sid = 0 ↔ sent = [] := by
  unfold heard
  rw [List.count_eq_zero]
  constructor
  · intro hnone
    refine List.eq_nil_iff_forall_not_mem.mpr ?_
    intro p hp
    exact hnone (h p hp ▸ hp)
  · rintro rfl
    exact List.not_mem_nil

/-- **Each device once.** A session that was not yet announced is announced to every device
    that is away, and to each of them once, exactly when at most one is. -/
theorem recovery_once_iff (s : RecoveryState) (uid : ID) (request : DeviceRecoveryRequest)
    (waits : List Nat) (hdevices : Table.UniqueOn Device.id s.devices)
    (hfree : s.announced uid request.sessionID = false) :
    (∀ d ∈ s.waiting uid, heard (deliverRecovery (userRecovery uid)
        (.deviceRecoveryRequest request) s waits).1 d request.sessionID = 1) ↔
      AtMostOneAway s uid waits := by
  unfold AtMostOneAway
  rcases haway : s.waiting uid with _ | ⟨d, _ | ⟨d', ds⟩⟩
  · simp
  · rcases waits with _ | ⟨w, later⟩
    · simp [heard, deliverRecovery]
    · -- the first delivery reaches the device, and no other may
      have hfree' := announced_later hfree w
      have hsame : (s.later w).waiting uid = [d] := haway
      have hstate : ((s.later w).claim uid request.sessionID recoveryThrottleSeconds).2.toState =
          (s.later w).toState := claim_toState
      have hnow : ((s.later w).claim uid request.sessionID recoveryThrottleSeconds).2.now =
          s.now + w := by
        rw [hstate]
        rfl
      have hall : ∀ p ∈ (deliverRecovery (userRecovery uid) (.deviceRecoveryRequest request)
          ((s.later w).claim uid request.sessionID recoveryThrottleSeconds).2 later).1,
          p = sendRecoveryPush d request.sessionID :=
        fun p hp => mem_deliverRecovery (hstate ▸ hsame) hp
      have hnone := deliverRecovery_eq_nil_iff (by rw [hstate]; exact hsame)
        (claim_throttles hfree') (by rw [hnow]; exact Int.lt_add_of_pos_right _ (by decide)) later
      have hzero := heard_eq_zero_iff hall
      rw [List.forall_mem_singleton]
      unfold deliverRecovery
      dsimp only
      rw [handleRecoveryEvent_first hsame hfree']
      unfold heard at hzero ⊢
      rw [List.singleton_append, List.count_cons_self, Nat.add_eq_right, hzero, hnone, hnow]
      exact Int.add_lt_add_iff_left _
  · refine iff_of_false ?_ id
    intro hall
    have hsecond := hall d' (by simp)
    have hmem : sendRecoveryPush d' request.sessionID ∈ (deliverRecovery (userRecovery uid)
        (.deviceRecoveryRequest request) s waits).1 := by
      apply List.count_pos_iff.mp
      unfold heard at hsecond
      omega
    have heq : d' = d := congrArg RecoveryPush.device (mem_deliverRecovery haway hmem)
    have hnodup : (s.waiting uid).Nodup :=
      (List.Nodup.of_map _ hdevices).sublist (List.filter_sublist.trans List.filter_sublist)
    rw [haway, heq] at hnodup
    simp at hnodup

/-- The guest's devices; none of them is connected. -/
def ringingState (devices : List Device) : RecoveryState := { theatreState with devices }

def phone : Device := ⟨"phone", "guest", true⟩

def tablet : Device := ⟨"tablet", "guest", true⟩

/-- The only device hears of the request once, also when the event is delivered again. -/
theorem recovery_once_phone :
    Table.UniqueOn Device.id (ringingState [phone]).devices ∧
      (ringingState [phone]).announced "guest" "session" = false ∧
      ((∀ d ∈ (ringingState [phone]).waiting "guest",
        heard (deliverRecovery (userRecovery "guest") (.deviceRecoveryRequest ⟨"session"⟩)
          (ringingState [phone]) [0, 20]).1 d "session" = 1) ↔
        AtMostOneAway (ringingState [phone]) "guest" [0, 20]) := by
  refine ⟨by decide, rfl, ?_⟩
  exact recovery_once_iff (ringingState [phone]) "guest" ⟨"session"⟩ [0, 20] (by decide) rfl

/-- Of two devices that are away the second hears nothing. -/
theorem recovery_once_fails_tablet :
    heard (deliverRecovery (userRecovery "guest") (.deviceRecoveryRequest ⟨"session"⟩)
        (ringingState [phone, tablet]) [0]).1 tablet "session" = 0 ∧
      ¬ ∀ (s : RecoveryState) (uid : ID) (request : DeviceRecoveryRequest) (waits : List Nat),
        Table.UniqueOn Device.id s.devices → s.announced uid request.sessionID = false →
        waits ≠ [] →
        ∀ d ∈ s.waiting uid, heard (deliverRecovery (userRecovery uid)
          (.deviceRecoveryRequest request) s waits).1 d request.sessionID = 1 := by
  have hsilent : heard (deliverRecovery (userRecovery "guest")
      (.deviceRecoveryRequest ⟨"session"⟩) (ringingState [phone, tablet]) [0]).1 tablet
      "session" = 0 := by decide
  refine ⟨hsilent, ?_⟩
  intro hall
  have honce := hall (ringingState [phone, tablet]) "guest" ⟨"session"⟩ [0] (by decide) rfl
    (by decide) tablet (by decide)
  exact absurd (hsilent.symm.trans honce) (by decide)

end Meza.Notification
