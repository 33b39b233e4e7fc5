import Meza.Lib.Aead
import Meza.Lib.Pool
import Meza.Store.Schema

/-! # Device recovery

    `service_device_recovery.go`: a user who has lost his password proves that he
    reads his email, another of his devices approves, and the new device is handed
    a bundle and sets new credentials. What is known of a recovery is in Redis,
    under four kinds of keys; each script is one step, and so is each command
    outside of one.

    A pipeline is a row of commands: other calls come in between, and when the
    connection breaks only the first of them have been executed.

    `log` is not part of the service. It records what calls have achieved. -/

namespace Meza.Auth.Recovery
open Function Table

open Aead (Bytes)
open Store (ID)

/-! ## Section 1: Users -/

abbrev Email := String

structure User where
  id : ID
  email : Email
  isFederated : Bool := false
  deriving DecidableEq, Repr

/-- The table `users`, with its primary key and its unique index. -/
structure Users where
  rows : List User
  ids : UniqueOn User.id rows
  emails : UniqueOn User.email rows

def Users.empty : Users := ⟨[], List.nodup_nil, List.nodup_nil⟩

def Users.byID (users : Users) (id : ID) : Option User := lookup User.id id users.rows

/-- `GetUserByEmail` -/
def Users.byEmail (users : Users) (email : Email) : Option User :=
  users.rows.find? fun u => u.email = email ∧ u.isFederated = false

/-- `WHERE u.email = $1` in `RecoverAccount`. -/
def Users.recovered (users : Users) (email : Email) : Option User :=
  lookup User.email email users.rows

theorem Users.unique_concat {users : Users} {u : User}
    (h : ∀ r ∈ users.rows, r.id ≠ u.id ∧ r.email ≠ u.email) :
    UniqueOn User.id (users.rows ++ [u]) ∧ UniqueOn User.email (users.rows ++ [u]) := by
  constructor
  · exact unique_snoc users.ids fun r hr => (h r hr).1
  · exact unique_snoc users.emails fun r hr => (h r hr).2

/-- `INSERT INTO users`, an error if a key is taken. -/
def Users.insert (users : Users) (u : User) : Users :=
  if h : ∀ r ∈ users.rows, r.id ≠ u.id ∧ r.email ≠ u.email then
    ⟨users.rows ++ [u], (Users.unique_concat h).1, (Users.unique_concat h).2⟩
  else users

/-! ## Section 2: Redis -/

/-- A SHA-256 hash, as it is compared. -/
structure Digest where
  preimage : Bytes
  deriving DecidableEq, Repr

def sha256 (b : Bytes) : Digest := ⟨b⟩

/-- 64 hexadecimal digits. -/
abbrev SessionID := List Char

/-- A key with the time of its expiry. -/
structure Entry (α : Type) where
  value : α
  expiresAt : Option Nat := none

/-- A key expires when its time has passed. -/
def Entry.alive {α : Type} (now : Nat) (e : Entry α) : Bool := e.expiresAt.all fun t => now ≤ t

/-- `recovery:otp:` -/
structure OTPRecord where
  codeHash : Option Digest := none
  attempts : Nat := 0
  userID : ID := ""
  sessionTokenHash : Option Digest := none
  verified : Bool := false
  consumed : Bool := false

inductive RecoveryState where
  | pending
  | approved
  | completed
  | done
  deriving DecidableEq, Repr

/-- `device:recovery:` -/
structure Session where
  userID : ID
  ephemeralPub : Bytes
  state : RecoveryState
  wrappedBundle : Option Bytes := none
  approverDeviceID : Option ID := none

/-- What calls have achieved. -/
inductive Act where
  /-- A code has been stored for an email address, and is sent to it. -/
  | sent (email : Email) (code : Bytes)
  /-- The code was given back, and a session token drawn. -/
  | drew (email : Email) (code token : Bytes)
  | verified (email : Email) (token : Bytes)
  | used (email : Email) (token : Bytes) (userID : ID)
  /-- A session id was drawn. -/
  | named (sessionID : SessionID)
  | created (sessionID : SessionID) (userID : ID) (email : Email) (token : Bytes)
  | approved (sessionID : SessionID) (caller : ID) (bundle : Bytes)
  | handedOut (sessionID : SessionID) (bundle : Bytes)
  | finished (sessionID : SessionID) (userID : ID)
  /-- `RecoverAccount` has been executed, for the account of a user. -/
  | recovered (sessionID : SessionID) (userID : ID)
  deriving DecidableEq, Repr

structure State where
  now : Nat := 0
  users : Users
  otp : Email → Option (Entry OTPRecord) := fun _ => none
  /-- `recovery:otp:token:` -/
  tokenIndex : Digest → Option (Entry Email) := fun _ => none
  sessions : SessionID → Option (Entry Session) := fun _ => none
  /-- `device:recovery:user:` -/
  userIndex : ID → Option (Entry SessionID) := fun _ => none
  /-- The latest act first. -/
  log : List Act := []

def State.record (s : State) (a : Act) : State := { s with log := a :: s.log }

/-- Random tokens of 32 bytes do not repeat. -/
def State.tokenDrawn (s : State) (token : Bytes) : Bool :=
  s.log.any fun a => match a with
    | .drew _ _ t => t = token
    | _ => false

def State.sessionNamed (s : State) (sessionID : SessionID) : Bool := .named sessionID ∈ s.log

/-! ### Commands -/

def State.otpRecord (s : State) (email : Email) : OTPRecord :=
  ((s.otp email).map Entry.value).getD {}

/-- `HSET` creates the key if it is missing, and keeps its expiry otherwise. -/
def State.hsetOTP (s : State) (email : Email) (f : OTPRecord → OTPRecord) : State :=
  let e : Entry OTPRecord :=
    { value := f (s.otpRecord email), expiresAt := (s.otp email).bind Entry.expiresAt }
  { s with otp := update s.otp email (some e) }

def State.expireOTP (s : State) (email : Email) (ttl : Nat) : State :=
  let e := (s.otp email).map fun e => { e with expiresAt := some (s.now + ttl) }
  { s with otp := update s.otp email e }

def State.delOTP (s : State) (email : Email) : State :=
  { s with otp := update s.otp email none }

def State.setTokenIndex (s : State) (token : Bytes) (email : Email) (ttl : Nat) : State :=
  let e : Entry Email := { value := email, expiresAt := some (s.now + ttl) }
  { s with tokenIndex := update s.tokenIndex (sha256 token) (some e) }

def State.setUserIndex (s : State) (userID : ID) (sessionID : SessionID) (ttl : Nat) : State :=
  let e : Entry SessionID := { value := sessionID, expiresAt := some (s.now + ttl) }
  { s with userIndex := update s.userIndex userID (some e) }

def State.delUserIndex (s : State) (userID : ID) : State :=
  { s with userIndex := update s.userIndex userID none }

def State.setSession (s : State) (sessionID : SessionID) (e : Entry Session) : State :=
  { s with sessions := update s.sessions sessionID (some e) }

/-- The `HSET` that creates a session. -/
def State.hsetSession (s : State) (sessionID : SessionID) (userID : ID) (ephemeralPub : Bytes) :
    State :=
  match s.sessions sessionID with
  | none => s.setSession sessionID { value := { userID, ephemeralPub, state := .pending } }
  | some e =>
    s.setSession sessionID
      { e with value := { e.value with userID, ephemeralPub, state := .pending } }

def State.expireSession (s : State) (sessionID : SessionID) (ttl : Nat) : State :=
  let e := (s.sessions sessionID).map fun e => { e with expiresAt := some (s.now + ttl) }
  { s with sessions := update s.sessions sessionID e }

def State.delSession (s : State) (sessionID : SessionID) : State :=
  { s with sessions := update s.sessions sessionID none }

/-- Time passes, and what has expired is gone. -/
def State.pass (s : State) (seconds : Nat) : State :=
  let now := s.now + seconds
  { s with
    now
    otp := fun k => (s.otp k).filter (Entry.alive now)
    tokenIndex := fun k => (s.tokenIndex k).filter (Entry.alive now)
    sessions := fun k => (s.sessions k).filter (Entry.alive now)
    userIndex := fun k => (s.userIndex k).filter (Entry.alive now) }

inductive Key where
  | otp (email : Email)
  | tokenIndex (token : Digest)
  | session (sessionID : SessionID)
  | userIndex (userID : ID)
  deriving DecidableEq, Repr

/-- A key is lost before its time. -/
def State.evict (s : State) : Key → State
  | .otp email => s.delOTP email
  | .tokenIndex token => { s with tokenIndex := update s.tokenIndex token none }
  | .session sessionID => s.delSession sessionID
  | .userIndex userID => s.delUserIndex userID

/-! ### Scripts -/

inductive Consumed where
  | notVerified
  | alreadyConsumed
  | invalidToken
  | ok (userID : ID)
  deriving DecidableEq, Repr

def otpConsumeScript (s : State) (email : Email) (token : Bytes) : State × Consumed :=
  let r := s.otpRecord email
  if r.verified = false then (s, .notVerified)
  else if r.consumed then (s, .alreadyConsumed)
  else if r.sessionTokenHash ≠ some (sha256 token) then (s, .invalidToken)
  else
    ((s.hsetOTP email fun r => { r with consumed := true }).record (.used email token r.userID),
      .ok r.userID)

inductive Polled where
  | expired
  | pending
  | completed
  | approved (bundle : Bytes)
  deriving DecidableEq, Repr

def pollTransitionScript (s : State) (sessionID : SessionID) : State × Polled :=
  match s.sessions sessionID with
  | none => (s, .expired)
  | some e =>
    match e.value.state with
    | .pending => (s, .pending)
    | .completed | .done => (s, .completed)
    | .approved =>
      let bundle := e.value.wrappedBundle.getD []
      let s := s.setSession sessionID { e with value := { e.value with state := .completed } }
      ((s.expireSession sessionID 600).record (.handedOut sessionID bundle), .approved bundle)

inductive Approved where
  | expired
  | alreadyApproved
  | wrongUser
  | ok
  deriving DecidableEq, Repr

def approveTransitionScript (s : State) (sessionID : SessionID) (bundle : Bytes) (deviceID : ID)
    (callerUserID : ID) : State × Approved :=
  match s.sessions sessionID with
  | none => (s, .expired)
  | some e =>
    if e.value.state ≠ .pending then (s, .alreadyApproved)
    else if e.value.userID ≠ callerUserID then (s, .wrongUser)
    else
      let session : Session := { e.value with
        wrappedBundle := some bundle
        approverDeviceID := some deviceID
        state := .approved }
      let s := s.setSession sessionID { e with value := session }
      (s.record (.approved sessionID callerUserID bundle), .ok)

inductive Completed where
  | expired
  | alreadyDone
  | notReady (state : RecoveryState)
  | ok (userID : ID) (approverDeviceID : Option ID)
  deriving DecidableEq, Repr

def completeTransitionScript (s : State) (sessionID : SessionID) : State × Completed :=
  match s.sessions sessionID with
  | none => (s, .expired)
  | some e =>
    match e.value.state with
    | .done => (s, .alreadyDone)
    | .pending => (s, .notReady .pending)
    | .approved => (s, .notReady .approved)
    | .completed =>
      let s := s.setSession sessionID { e with value := { e.value with state := .done } }
      (s.record (.finished sessionID e.value.userID), .ok e.value.userID e.value.approverDeviceID)

/-! ## Section 3: Calls -/

structure CompleteRequest where
  sessionID : SessionID
  newAuthKey : Bytes
  newSalt : Bytes
  newEncryptedKeyBundle : Bytes
  newKeyBundleIV : Bytes
  newRecoveryVerifier : Bytes := []

inductive Call where
  /-- A code is sent if none is given, and verified otherwise. -/
  | verifyRecoveryEmail (email : Email) (code : Bytes)
  | initiateDeviceRecovery (otpSessionToken ephemeralPublicKey : Bytes)
  | pollDeviceRecovery (sessionID : SessionID)
  /-- By an authenticated user, if any. -/
  | approveDeviceRecovery (caller : Option (ID × ID)) (sessionID : SessionID)
      (wrappedBundle : Bytes)
  | completeDeviceRecovery (r : CompleteRequest)
  | register (u : User)
  | clock (seconds : Nat)
  | evict (key : Key)

inductive Phase where
  | verifyBegun (email : Email) (code : Bytes)
  | sendLimiting (email : Email)
  | sendLooking (email : Email) (code : Bytes)
  | sendStoring (email : Email) (code : Bytes) (userID : ID)
  | sendExpiring (email : Email)
  | verifyCounting (email : Email) (code : Bytes)
  | invalidating (email : Email)
  | verifyChecking (email : Email) (code : Bytes)
  /-- The code is right; the pipeline that stores the token. -/
  | marking (email : Email) (token : Bytes)
  | refreshing (email : Email) (token : Bytes)
  | indexing (email : Email) (token : Bytes)
  | initiateBegun (token ephemeralPub : Bytes)
  | consuming (email : Email) (token ephemeralPub : Bytes)
  /-- The token is used. -/
  | initiateLimiting (email : Email) (token : Bytes) (userID : ID) (ephemeralPub : Bytes)
  /-- `SETNX` of the index of the user. -/
  | claiming (email : Email) (token : Bytes) (userID : ID) (ephemeralPub : Bytes)
      (sessionID : SessionID)
  | creating (email : Email) (token : Bytes) (userID : ID) (ephemeralPub : Bytes)
      (sessionID : SessionID)
  | expiringSession (userID : ID) (sessionID : SessionID)
  /-- The pipeline has failed. -/
  | unindexing (userID : ID)
  | pollBegun (sessionID : SessionID)
  | approveBegun (caller : Option (ID × ID)) (sessionID : SessionID) (wrappedBundle : Bytes)
  | completeBegun (r : CompleteRequest)
  /-- The session is done. -/
  | recovering (sessionID : SessionID) (userID : ID)
  | executing (sessionID : SessionID) (userID : ID) (email : Email)
  /-- The new device and its tokens. -/
  | issuing (sessionID : SessionID) (userID : ID)
  /-- The cleanup in the background. -/
  | cleaningSession (sessionID : SessionID) (userID : ID)
  | cleaningIndex (userID : ID)
  | registering (u : User)
  | waiting (seconds : Nat)
  | evicting (key : Key)
  | returned

def Phase.begin : Call → Phase
  | .verifyRecoveryEmail email code => .verifyBegun email code
  | .initiateDeviceRecovery token ephemeralPub => .initiateBegun token ephemeralPub
  | .pollDeviceRecovery sessionID => .pollBegun sessionID
  | .approveDeviceRecovery caller sessionID wrappedBundle =>
    .approveBegun caller sessionID wrappedBundle
  | .completeDeviceRecovery r => .completeBegun r
  | .register u => .registering u
  | .clock seconds => .waiting seconds
  | .evict key => .evicting key

/-- What becomes of a command: it may be executed and yet be taken for failed. -/
inductive Reply where
  | ok
  | lost
  | refused
  deriving DecidableEq, Repr

structure Outcome where
  reply : Reply := .ok
  /-- A rate limit is exceeded. -/
  limited : Bool := false
  /-- What is done outside of Redis fails. -/
  failed : Bool := false
  /-- Random values. -/
  code : Bytes := []
  token : Bytes := []
  sessionID : SessionID := []

/-- A command, and where the call goes on or ends. -/
def command (s : State) (o : Outcome) (run : State → State) (k failed : Phase) : State × Phase :=
  match o.reply with
  | .ok => (run s, k)
  | .lost => (run s, failed)
  | .refused => (s, failed)

/-- Known X25519 low-order points that produce all-zero shared secrets. -/
def x25519LowOrderPoints : List Bytes :=
  [.replicate 32 0,
   1 :: .replicate 31 0,
   0xec :: (.replicate 30 0xff ++ [0x7f]),
   [0xe0, 0xeb, 0x7a, 0x7c, 0x3b, 0x41, 0xb8, 0xae, 0x16, 0x56, 0xe3, 0xfa, 0xf1, 0x9f, 0xc4, 0x6a,
    0xda, 0x09, 0x8d, 0xeb, 0x9c, 0x32, 0xb1, 0xfd, 0x86, 0x62, 0x05, 0x16, 0x5f, 0x49, 0xb8, 0x00],
   [0x5f, 0x9c, 0x95, 0xbc, 0xa3, 0x50, 0x8c, 0x24, 0xb1, 0xd0, 0xb1, 0x55, 0x9c, 0x83, 0xef, 0x5b,
    0x04, 0x44, 0x5c, 0xc4, 0x58, 0x1c, 0x8e, 0x86, 0xd8, 0x22, 0x4e, 0xdd, 0xd0, 0x9f, 0x11, 0x57]]

def isLowOrderPoint (pub : Bytes) : Bool := pub ∈ x25519LowOrderPoints

def isHexDigit (c : Char) : Bool :=
  ('0' ≤ c ∧ c ≤ '9') ∨ ('a' ≤ c ∧ c ≤ 'f') ∨ ('A' ≤ c ∧ c ≤ 'F')

def validSessionID (id : SessionID) : Bool := id.length = 64 ∧ id.all isHexDigit

/-- The checks at the start of `CompleteDeviceRecovery`. -/
def CompleteRequest.valid (r : CompleteRequest) : Bool :=
  validSessionID r.sessionID ∧ r.newAuthKey ≠ [] ∧ r.newSalt ≠ [] ∧
    r.newEncryptedKeyBundle ≠ [] ∧ r.newKeyBundleIV ≠ [] ∧
    (r.newRecoveryVerifier = [] ∨ r.newRecoveryVerifier.length = 32)

/-- Sending a code, from the rate limits on. -/
def sendStep (s : State) (o : Outcome) : Phase → Option (State × Phase)
  | .sendLimiting email =>
    if o.reply ≠ .ok ∨ o.limited then some (s, .returned) else some (s, .sendLooking email o.code)
  | .sendLooking email code =>
    match s.users.byEmail email with
    | some u => some (s, .sendStoring email code (if o.failed then "" else u.id))
    | none => some (s, .sendStoring email code "")
  | .sendStoring email code userID =>
    let run (s : State) : State :=
      (s.hsetOTP email fun r =>
        { r with codeHash := some (sha256 code), attempts := 0, userID }).record (.sent email code)
    some (command s o run (.sendExpiring email) .returned)
  | .sendExpiring email => some (command s o (·.expireOTP email 300) .returned .returned)
  | _ => none

/-- Verifying a code, from the count of the attempts on. -/
def verifyStep (s : State) (o : Outcome) : Phase → Option (State × Phase)
  | .verifyCounting email code =>
    let counted := s.hsetOTP email fun r => { r with attempts := r.attempts + 1 }
    if 5 < (counted.otpRecord email).attempts then
      some (command s o (fun _ => counted) (.invalidating email) .returned)
    else some (command s o (fun _ => counted) (.verifyChecking email code) .returned)
  | .invalidating email => some (command s o (·.delOTP email) .returned .returned)
  | .verifyChecking email code =>
    if o.reply ≠ .ok ∨ (s.otpRecord email).codeHash ≠ some (sha256 code) then some (s, .returned)
    else if s.tokenDrawn o.token then none
    else some (s.record (.drew email code o.token), .marking email o.token)
  | .marking email token =>
    let run (s : State) : State :=
      (s.hsetOTP email fun r =>
        { r with sessionTokenHash := some (sha256 token), verified := true }).record
          (.verified email token)
    some (command s o run (.refreshing email token) .returned)
  | .refreshing email token =>
    some (command s o (·.expireOTP email 300) (.indexing email token) .returned)
  | .indexing email token =>
    some (command s o (·.setTokenIndex token email 300) .returned .returned)
  | _ => none

def initiateStep (s : State) (o : Outcome) : Phase → Option (State × Phase)
  | .initiateBegun token ephemeralPub =>
    if token = [] ∨ ephemeralPub.length ≠ 32 ∨ isLowOrderPoint ephemeralPub ∨ o.reply ≠ .ok then
      some (s, .returned)
    else match s.tokenIndex (sha256 token) with
    | none => some (s, .returned)
    | some e => some (s, .consuming e.value token ephemeralPub)
  | .consuming email token ephemeralPub =>
    match otpConsumeScript s email token with
    | (s', .ok userID) =>
      if userID = "" then some (command s o (fun _ => s') .returned .returned)
      else some (command s o (fun _ => s')
        (.initiateLimiting email token userID ephemeralPub) .returned)
    | _ => some (s, .returned)
  | .initiateLimiting email token userID ephemeralPub =>
    if o.reply ≠ .ok ∨ o.limited then some (s, .returned)
    else if s.sessionNamed o.sessionID then none
    else some (s.record (.named o.sessionID), .claiming email token userID ephemeralPub o.sessionID)
  | .claiming email token userID ephemeralPub sessionID =>
    match s.userIndex userID with
    | some _ => some (s, .returned)
    | none =>
      some (command s o (·.setUserIndex userID sessionID 300)
        (.creating email token userID ephemeralPub sessionID) .returned)
  | .creating email token userID ephemeralPub sessionID =>
    let run (s : State) : State :=
      (s.hsetSession sessionID userID ephemeralPub).record (.created sessionID userID email token)
    some (command s o run (.expiringSession userID sessionID) (.unindexing userID))
  | .expiringSession userID sessionID =>
    some (command s o (·.expireSession sessionID 300) .returned (.unindexing userID))
  | .unindexing userID => some (command s o (·.delUserIndex userID) .returned .returned)
  | _ => none

def completeStep (s : State) (o : Outcome) : Phase → Option (State × Phase)
  | .completeBegun r =>
    if r.valid = false then some (s, .returned)
    else match completeTransitionScript s r.sessionID with
    | (s', .ok userID _) => some (command s o (fun _ => s') (.recovering r.sessionID userID) .returned)
    | _ => some (s, .returned)
  | .recovering sessionID userID =>
    if o.failed then some (s, .returned)
    else match s.users.byID userID with
    | some u => some (s, .executing sessionID userID u.email)
    | none => some (s, .returned)
  | .executing sessionID userID email =>
    match s.users.recovered email with
    | some u =>
      some (s.record (.recovered sessionID u.id),
        if o.failed then .returned else .issuing sessionID userID)
    | none => some (s, .returned)
  | .issuing sessionID userID =>
    if o.failed then some (s, .returned) else some (s, .cleaningSession sessionID userID)
  | .cleaningSession sessionID userID =>
    some (command s o (·.delSession sessionID) (.cleaningIndex userID) .returned)
  | .cleaningIndex userID => some (command s o (·.delUserIndex userID) .returned .returned)
  | _ => none

/-- The calls of one step. -/
def scriptStep (s : State) (o : Outcome) : Phase → Option (State × Phase)
  | .verifyBegun email code =>
    if email = "" then some (s, .returned)
    else if code = [] then some (s, .sendLimiting email)
    else if code.length ≠ 6 then some (s, .returned)
    else some (s, .verifyCounting email code)
  | .pollBegun sessionID =>
    if validSessionID sessionID = false then some (s, .returned)
    else some (command s o (fun s => (pollTransitionScript s sessionID).1) .returned .returned)
  | .approveBegun caller sessionID wrappedBundle =>
    if validSessionID sessionID = false ∨ wrappedBundle.length ≠ 124 then some (s, .returned)
    else match caller with
    | none => some (s, .returned)
    | some (userID, deviceID) =>
      some (command s o
        (fun s => (approveTransitionScript s sessionID wrappedBundle deviceID userID).1)
        .returned .returned)
  | .registering u => some ({ s with users := s.users.insert u }, .returned)
  | .waiting seconds => some (s.pass seconds, .returned)
  | .evicting key => some (s.evict key, .returned)
  | _ => none

/-- One command, script or query of a call. -/
def next (s : State) (_ : List Phase) (p : Phase) (o : Outcome) : Option (State × Phase) :=
  match p with
  | .sendLimiting _ | .sendLooking _ _ | .sendStoring _ _ _ | .sendExpiring _ => sendStep s o p
  | .verifyCounting _ _ | .invalidating _ | .verifyChecking _ _ | .marking _ _ | .refreshing _ _
  | .indexing _ _ => verifyStep s o p
  | .initiateBegun _ _ | .consuming _ _ _ | .initiateLimiting _ _ _ _ | .claiming _ _ _ _ _
  | .creating _ _ _ _ _ | .expiringSession _ _ | .unindexing _ => initiateStep s o p
  | .completeBegun _ | .recovering _ _ | .executing _ _ _ | .issuing _ _ | .cleaningSession _ _
  | .cleaningIndex _ => completeStep s o p
  | .verifyBegun _ _ | .pollBegun _ | .approveBegun _ _ _ | .registering _ | .waiting _
  | .evicting _ => scriptStep s o p
  | .returned => none

abbrev Pooled := Pool.State State Phase
abbrev Event := Pool.Event Call Outcome

def step : Pooled → Event → Pooled := Pool.step .begin next

/-- Redis is empty. -/
def initial (users : Users) : Pooled := { shared := { users }, calls := [] }

end Meza.Auth.Recovery
