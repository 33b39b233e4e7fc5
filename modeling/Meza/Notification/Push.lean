import Meza.Chat.Messages
import Meza.Notification.Preferences

/-! # Push notifications

    The notification service is delivered the events of all channels. For a
    new message it looks for users who are to be notified, for their devices
    that are not connected, and dispatches a push to each of these, at most one
    message in 30 seconds for a user, a channel and a kind.

    Direct messages and messages in servers are handled by code of their own.
    Queries and Redis commands that fail are not modelled; all of them end in
    fewer pushes. The batches of an @everyone message run one after the other:
    they concern different users. -/

namespace Meza.Notification

open Store (ID DB Tables)

/-! ## Section 1: Devices, triggers and state -/

/-- The columns of `devices` that the service reads. -/
structure Device where
  id : ID
  userID : ID
  pushEnabled : Bool
  deriving DecidableEq, Repr

inductive PushKind where
  | message
  | mention
  | dm
  deriving DecidableEq, Repr

structure PushTrigger where
  kind : PushKind
  channelID : ID
  senderID : ID
  messageID : ID
  serverID : ID := ""
  isMention : Bool := false
  title : String := ""
  body : String := ""
  senderDisplayName : String := ""
  channelName : String := ""
  serverName : String := ""
  deriving DecidableEq, Repr

structure Push where
  device : Device
  trigger : PushTrigger
  deriving DecidableEq, Repr

/-- The keys `everyone_throttle:…` and `push_throttle:…`. -/
inductive ThrottleKey where
  | everyone (serverID : ID)
  | push (type : PushKind) (userID channelID : ID)
  deriving DecidableEq, Repr

/-- Times are seconds. `connected` holds the sets `connected_devices:…`, and
    `throttles` when a throttle key expires. -/
structure State where
  db : DB
  now : Int
  /-- The column `name` of `servers`, which only pushes show. -/
  serverNames : ID → String := fun _ => ""
  preferences : List Preference := []
  devices : List Device := []
  connected : ID → List ID := fun _ => []
  throttles : ThrottleKey → Option Int := fun _ => none

/-- The key is set and has not expired. -/
def State.live (s : State) (key : ThrottleKey) : Bool := (s.throttles key).any (s.now < ·)

/-- `SETNX` with an expiry in seconds. -/
def State.setNX (s : State) (key : ThrottleKey) (seconds : Int) : Bool × State :=
  if s.live key then (false, s)
  else (true, { s with throttles := Function.update s.throttles key (some (s.now + seconds)) })

/-- The part of a `message_create` event that the service reads. -/
structure MessageCreate where
  id : ID
  authorID : ID
  mentionedUserIDs : List ID := []
  mentionEveryone : Bool := false
  deriving DecidableEq, Repr

inductive Event where
  | messageCreate (message : MessageCreate)
  | other
  deriving DecidableEq, Repr

/-! ## Section 2: Titles and bodies -/

/-- `unicode.IsControl`. -/
def isControl (c : Char) : Bool := c.val ≤ 0x1F ∨ (0x7F ≤ c.val ∧ c.val ≤ 0x9F)

/-- `unicode.IsSpace`. -/
def isSpace (c : Char) : Bool :=
  c.val ∈ [0x09, 0x0A, 0x0B, 0x0C, 0x0D, 0x20, 0x85, 0xA0, 0x1680, 0x2028, 0x2029, 0x202F,
    0x205F, 0x3000] ∨ (0x2000 ≤ c.val ∧ c.val ≤ 0x200A)

/-- Bidi controls, direction marks and the byte-order mark. -/
def isDropped (c : Char) : Bool :=
  (0x202A ≤ c.val ∧ c.val ≤ 0x202E) ∨ (0x2066 ≤ c.val ∧ c.val ≤ 0x2069) ∨
    c.val ∈ [0x200E, 0x200F, 0xFEFF]

/-- `strings.Fields`. -/
def fields (s : List Char) : List (List Char) :=
  (s.splitOnP isSpace).filter fun word => word ≠ []

def sanitizeNotificationTitle (s : String) : String :=
  let kept := (s.toList.filter (! isDropped ·)).map fun c => if isControl c then ' ' else c
  .ofList ([' '].intercalate (fields kept))

/-- The display name, or the username if nothing is left of it. -/
def resolveSenderName (s : State) (senderID : ID) : String :=
  match Table.lookup Store.User.id senderID s.db.tables.users with
  | none => ""
  | some u =>
    let name := sanitizeNotificationTitle u.displayName
    if name ≠ "" then name else sanitizeNotificationTitle u.username

def resolveServerName (s : State) (serverID : ID) : String :=
  if serverID = "" then ""
  else
    match Table.lookup Store.Server.id serverID s.db.tables.servers with
    | none => ""
    | some _ => sanitizeNotificationTitle (s.serverNames serverID)

def channelPushTitle (channelName serverName : String) : String :=
  if channelName ≠ "" ∧ serverName ≠ "" then "#" ++ channelName ++ " · " ++ serverName
  else if channelName ≠ "" then "#" ++ channelName
  else if serverName ≠ "" then serverName
  else "New message"

def channelPushBody (senderName : String) (isMention : Bool) : String :=
  if isMention then
    if senderName ≠ "" then senderName ++ " mentioned you" else "You were mentioned"
  else if senderName ≠ "" then senderName ++ ": New message"
  else "New message"

def dmTitle (senderName : String) : String :=
  if senderName ≠ "" then senderName ++ " (DM)" else "Direct message"

/-! ## Section 3: Devices and throttles -/

def getPushEnabledDevices (s : State) (userID : ID) : List Device :=
  s.devices.filter fun d => d.userID = userID ∧ d.pushEnabled

/-- The map from users to their devices. -/
def getPushEnabledDevicesForUsers (s : State) (userIDs : List ID) : ID → List Device :=
  let found := s.devices.filter fun d => d.userID ∈ userIDs ∧ d.pushEnabled
  fun userID => found.filter fun d => d.userID = userID

/-- The devices that are not in the user's connected set. -/
def State.offline (s : State) (userID : ID) (devices : List Device) : List Device :=
  devices.filter fun d => d.id ∉ s.connected userID

def PushTrigger.throttleKeyType (t : PushTrigger) : PushKind :=
  if t.kind = .dm then .dm else if t.isMention then .mention else .message

def PushTrigger.throttleKey (t : PushTrigger) (userID : ID) : ThrottleKey :=
  .push t.throttleKeyType userID t.channelID

def defaultThrottleSeconds : Int := 30

def everyoneThrottleSeconds : Int := 60

/-! ## Section 4: Direct messages -/

def notifyOfflineDevices (s : State) (userID : ID) (t : PushTrigger) : List Push × State :=
  let devices := getPushEnabledDevices s userID
  if devices = [] then ([], s)
  else
    -- the slot is taken also when no device is offline
    let (set, s') := s.setNX (t.throttleKey userID) defaultThrottleSeconds
    if set then ((s.offline userID devices).map (.mk · t), s') else ([], s')

def notifyAll (s : State) (t : PushTrigger) : List ID → List Push × State
  | [] => ([], s)
  | uid :: uids =>
    let (sent, s₁) := notifyOfflineDevices s uid t
    let (rest, s₂) := notifyAll s₁ t uids
    (sent ++ rest, s₂)

def listChannelParticipantIDs (t : Tables) (channelID : ID) : List ID :=
  (t.channelMembers.filter (·.channelID = channelID)).map (·.userID)

/-! ## Section 5: Messages in servers -/

structure PushTarget where
  userID : ID
  isMention : Bool
  deriving DecidableEq, Repr

structure OfflineTarget extends PushTarget where
  devices : List Device
  deriving DecidableEq, Repr

/-- A user's target, if the level lets the message through. -/
def pushTarget (levels : ID → Level) (mentioned : List ID) (mentionEveryone : Bool) (uid : ID) :
    Option PushTarget :=
  let isMentioned := decide (uid ∈ mentioned)
  match levels uid with
  | .nothing => none
  | .mentionsOnly => if !isMentioned && !mentionEveryone then none else some ⟨uid, true⟩
  | .all => some ⟨uid, isMentioned || mentionEveryone⟩

def offlineTarget (s : State) (devices : ID → List Device) (t : PushTarget) :
    Option OfflineTarget :=
  let offline := s.offline t.userID (devices t.userID)
  if offline = [] then none else some ⟨t, offline⟩

/-- The targets whose throttle key could be set, in one pipeline. -/
def throttleTargets (s : State) (key : OfflineTarget → ThrottleKey) :
    List OfflineTarget → List OfflineTarget × State
  | [] => ([], s)
  | ot :: targets =>
    let (set, s₁) := s.setNX (key ot) defaultThrottleSeconds
    let (rest, s₂) := throttleTargets s₁ key targets
    (if set then ot :: rest else rest, s₂)

/-- The trigger of one target, with its names, title and body. -/
def targetTrigger (base : PushTrigger) (senderName serverName : String) (isMention : Bool) :
    PushTrigger :=
  { base with
    isMention
    title := channelPushTitle base.channelName serverName
    body := channelPushBody senderName isMention
    senderDisplayName := senderName
    serverName }

def processServerNotifications (s : State) (userIDs : List ID) (mentioned : List ID)
    (mentionEveryone : Bool) (base : PushTrigger) : List Push × State :=
  let levels := getEffectiveLevelsForUsers s.preferences userIDs base.serverID base.channelID
  let targets := userIDs.filterMap (pushTarget levels mentioned mentionEveryone)
  let devices := getPushEnabledDevicesForUsers s (targets.map (·.userID))
  let offlineTargets := targets.filterMap (offlineTarget s devices)
  let senderName := resolveSenderName s base.senderID
  let serverName := resolveServerName s base.serverID
  let trigger (ot : OfflineTarget) := targetTrigger base senderName serverName ot.isMention
  let (passed, s') := throttleTargets s (fun ot => (trigger ot).throttleKey ot.userID)
    offlineTargets
  (passed.flatMap fun ot => ot.devices.map (.mk · (trigger ot)), s')

def everyoneBatchSize : Nat := 300

/-- The consecutive slices of at most `size` elements. -/
def batches {α : Type} (size : Nat) (l : List α) : List (List α) :=
  (List.range ((l.length + (size - 1)) / size)).map fun i => (l.drop (i * size)).take size

def processBatches (s : State) (mentioned : List ID) (base : PushTrigger) :
    List (List ID) → List Push × State
  | [] => ([], s)
  | batch :: rest =>
    let (sent, s₁) := processServerNotifications s batch mentioned true base
    let (later, s₂) := processBatches s₁ mentioned base rest
    (sent ++ later, s₂)

def processEveryoneMention (s : State) (targetIDs : List ID) (mentioned : List ID)
    (base : PushTrigger) : List Push × State :=
  processBatches s mentioned base (batches everyoneBatchSize targetIDs)

def listMemberUserIDs (t : Tables) (serverID : ID) : List ID :=
  (t.members.filter (·.serverID = serverID)).map (·.userID)

/-- Whether an @everyone of the message counts: at most one a minute in a server. -/
def throttleEveryone (s : State) (serverID : ID) (mc : MessageCreate) : Bool × State :=
  if mc.mentionEveryone then s.setNX (.everyone serverID) everyoneThrottleSeconds
  else (false, s)

/-! ## Section 6: The handler -/

def dmTrigger (s : State) (channelID : ID) (mc : MessageCreate) : PushTrigger :=
  let senderName := resolveSenderName s mc.authorID
  { kind := .dm, channelID, senderID := mc.authorID, messageID := mc.id,
    title := dmTitle senderName, body := "New message", senderDisplayName := senderName }

def handleDM (s : State) (channelID : ID) (mc : MessageCreate) : List Push × State :=
  notifyAll s (dmTrigger s channelID mc)
    ((listChannelParticipantIDs s.db.tables channelID).filter (· ≠ mc.authorID))

def handleServerMessage (s : State) (channelID : ID) (channel : Store.Channel) (serverID : ID)
    (mc : MessageCreate) : List Push × State :=
  let memberIDs := listMemberUserIDs s.db.tables serverID
  let (mentionEveryone, s₁) := throttleEveryone s serverID mc
  let targetIDs := memberIDs.filter (· ≠ mc.authorID)
  let base : PushTrigger :=
    { kind := .message, channelID, senderID := mc.authorID, messageID := mc.id,
      serverID, channelName := sanitizeNotificationTitle channel.name }
  if mentionEveryone then processEveryoneMention s₁ targetIDs mc.mentionedUserIDs base
  else processServerNotifications s₁ targetIDs mc.mentionedUserIDs false base

def handleChannelEvent (s : State) (channelID : ID) : Event → List Push × State
  | .other => ([], s)
  | .messageCreate mc =>
    if mc.authorID = "" ∨ mc.authorID = Chat.systemUserID then ([], s)
    else
      match Store.ChatStore.getChannel s.db.tables channelID with
      | .error _ => ([], s)
      | .ok channel =>
        match channel.serverID with
        | none => handleDM s channelID mc
        | some serverID => handleServerMessage s channelID channel serverID mc

end Meza.Notification
