import Meza.Auth.Recovery

/-! # Sessions

    `service.go`, `federation_service.go` and their stores: who gets tokens, how
    refresh tokens are rotated, and what a logout, a revocation, a new password
    and a recovery do to them. Every statement, every command of Redis and every
    validation of a token is one step; a signed token stands for itself under
    SHA-256.

    `log` is not part of the service. It records what calls have achieved. -/

namespace Meza.Auth.Sessions
open Function

open Aead (Bytes)
open Store (ID)
open Recovery (Digest sha256)

/-! ## Section 1: Tokens -/

/-- The claims of a token of this instance. -/
structure Token where
  jti : Bytes
  userID : ID
  deviceID : ID
  isRefresh : Bool := false
  isFederated : Bool := false
  expiresAt : Nat
  deriving DecidableEq, Repr

/-- AccessTokenExpiry is the lifetime of an access token. -/
def accessTokenExpiry : Nat := 3600

def refreshTokenExpiry : Nat := 30 * 24 * 3600

/-- A federation assertion; `signed` if the key is the issuer's. The times are there if the
    issuer has put them in. -/
structure Assertion where
  signed : Bool := true
  issuer : String
  userID : ID
  audience : String
  purpose : String := "federation"
  jti : Bytes
  expiresAt : Option Nat
  notBefore : Option Nat := none
  deriving DecidableEq, Repr

/-- `VerifyAssertion`: a trusted issuer, and a valid assertion for this instance. Times that are
    not there are not checked. -/
def Assertion.valid (originURL instanceURL : String) (now : Nat) (a : Assertion) : Bool :=
  a.issuer = originURL ∧ a.signed ∧ a.purpose = "federation" ∧ a.userID ≠ "" ∧
    a.issuer ≠ "" ∧ a.audience = instanceURL ∧ (a.expiresAt.all fun t => now < t + 15) ∧
    a.notBefore.all fun t => t ≤ now + 15

/-- An assertion that a call has verified, and whose id it has consumed, at which times. -/
structure Presentation where
  assertion : Assertion
  verifiedAt : Nat
  consumedAt : Nat
  deriving DecidableEq, Repr

/-- What a pair of tokens is issued for. -/
inductive Source where
  | login
  | recovery
  | refresh (t : Token)
  | join (x : Presentation)
  | federationRefresh (t : Token) (x : Presentation)
  deriving DecidableEq, Repr

/-- `generateTokenPair` and `generateLocalTokenPair`. -/
def Source.isFederated : Source → Bool
  | .login | .recovery | .refresh _ => false
  | .join _ | .federationRefresh _ _ => true

/-- The refresh token that is given for the pair. -/
def Source.token : Source → Option Token
  | .refresh t | .federationRefresh t _ => some t
  | .login | .recovery | .join _ => none

/-! ## Section 2: Tables -/

structure User where
  id : ID
  isFederated : Bool := false
  homeServer : String := ""
  remoteUserID : ID := ""
  deriving DecidableEq, Repr

/-- A PHC string: the password and its random salt are taken for the hash. -/
structure Hash where
  password : Bytes
  salt : Bytes
  deriving DecidableEq, Repr

def verifyPassword (h : Hash) (password : Bytes) : Bool := h.password = password

/-- A row of `user_auth`. -/
structure Credentials where
  authKeyHash : Hash
  salt : Bytes
  encryptedKeyBundle : Bytes
  keyBundleIV : Bytes
  recoveryEncryptedKeyBundle : Bytes
  recoveryKeyBundleIV : Bytes
  recoveryVerifierHash : Option Digest
  deriving DecidableEq, Repr

/-- What a request sets. -/
structure NewCredentials where
  authKey : Bytes
  salt : Bytes
  encryptedKeyBundle : Bytes := []
  keyBundleIV : Bytes := []
  recoveryEncryptedKeyBundle : Bytes := []
  recoveryKeyBundleIV : Bytes := []
  recoveryVerifier : Bytes := []
  deriving DecidableEq, Repr

def hashRecoveryVerifier (verifier : Bytes) : Option Digest :=
  if verifier = [] then none else some (sha256 verifier)

def verifyRecoveryVerifier (storedHash : Option Digest) (submittedVerifier : Bytes) : Bool :=
  submittedVerifier ≠ [] ∧ storedHash = some (sha256 submittedVerifier)

def NewCredentials.row (c : NewCredentials) (h : Hash) : Credentials where
  authKeyHash := h
  salt := c.salt
  encryptedKeyBundle := c.encryptedKeyBundle
  keyBundleIV := c.keyBundleIV
  recoveryEncryptedKeyBundle := c.recoveryEncryptedKeyBundle
  recoveryKeyBundleIV := c.recoveryKeyBundleIV
  recoveryVerifierHash := hashRecoveryVerifier c.recoveryVerifier

structure Device where
  id : ID
  userID : ID
  deriving DecidableEq, Repr

/-- A row of `refresh_tokens`. -/
structure RefreshRow where
  token : Token
  userID : ID
  deviceID : ID
  expiresAt : Nat
  deriving DecidableEq, Repr

/-- What calls have achieved. -/
inductive Act where
  /-- The id of a device was drawn. -/
  | opened (deviceID userID : ID)
  /-- A password was hashed with a random salt. -/
  | hashed (h : Hash)
  /-- The credentials were written, by a call that had verified a hash or not. -/
  | wrote (userID : ID) (verified : Option Hash) (c : Credentials)
  | issued (source : Source) (access refresh : Token)
  | stored (t : Token)
  /-- The id of an assertion was consumed, at a time. -/
  | consumedJTI (jti : Bytes) (consumedAt : Nat)
  /-- The interceptor let a request with the token through. -/
  | accepted (t : Token)
  /-- A call that revokes the device has returned success. -/
  | revoked (deviceID : ID)
  deriving DecidableEq, Repr

structure State where
  now : Nat := 0
  originURL : String
  instanceURL : String
  users : List User := []
  userAuth : ID → Option Credentials := fun _ => none
  devices : List Device := []
  refreshTokens : List RefreshRow := []
  /-- `blocked:device:`, with the time of its expiry. -/
  blocked : ID → Option Nat := fun _ => none
  /-- The claims that the interceptors have cached. -/
  cache : List Token := []
  /-- `fed_jti:`, with the time of its expiry. -/
  usedJTI : Bytes → Option Nat := fun _ => none
  /-- What has been signed with the private key of the instance. -/
  signed : List Token := []
  /-- The latest act first. -/
  log : List Act := []

def State.record (s : State) (a : Act) : State := { s with log := a :: s.log }

def State.userByID (s : State) (userID : ID) : Option User := s.users.find? fun u => u.id = userID

/-- `ValidateTokenEd25519` -/
def State.validates (s : State) (t : Token) : Bool :=
  t ∈ s.signed ∧ t.userID ≠ "" ∧ s.now < t.expiresAt

/-- `VerificationCache.Get` -/
def State.cached (s : State) (t : Token) : Bool := t ∈ s.cache ∧ s.now ≤ t.expiresAt

/-- `IsDeviceBlocked` -/
def State.isDeviceBlocked (s : State) (deviceID : ID) : Bool :=
  (s.blocked deviceID).any fun t => s.now ≤ t

/-- `BlockDevice`, for the lifetime of an access token. -/
def State.blockDevice (s : State) (deviceID : ID) : State :=
  { s with blocked := update s.blocked deviceID (some (s.now + accessTokenExpiry)) }

def State.jtiDrawn (s : State) (jti : Bytes) : Bool := s.signed.any fun t => t.jti = jti

/-- The ids of devices do not repeat. -/
def State.deviceOpened (s : State) (deviceID : ID) : Bool :=
  s.log.any fun a => match a with
    | .opened d _ => d = deviceID
    | _ => false

/-- The salts of hashes do not repeat. -/
def State.hashDrawn (s : State) (h : Hash) : Bool := .hashed h ∈ s.log

/-- `CreateUser`: one transaction. -/
def State.createUser (s : State) (userID : ID) (c : Credentials) : State :=
  { s with
    users := { id := userID } :: s.users
    userAuth := update s.userAuth userID (some c) }

def State.upsertDevice (s : State) (deviceID userID : ID) : State :=
  if s.devices.any fun d => d.id = deviceID then s
  else { s with devices := { id := deviceID, userID } :: s.devices }

/-- `INSERT INTO refresh_tokens`, an error if the hash is taken. -/
def State.storeRefreshToken (s : State) (t : Token) : Option State :=
  let row : RefreshRow :=
    { token := t, userID := t.userID, deviceID := t.deviceID
      expiresAt := s.now + refreshTokenExpiry }
  if s.refreshTokens.any fun r => r.token = t then none
  else some { s with refreshTokens := row :: s.refreshTokens }

def State.deleteRefreshTokens (s : State) (p : RefreshRow → Bool) : State :=
  { s with refreshTokens := s.refreshTokens.filter fun r => !p r }

/-- `DELETE … WHERE token_hash = $1 AND expires_at > NOW() RETURNING user_id, device_id` -/
def State.consumeRefreshToken (s : State) (t : Token) : Option (State × RefreshRow) :=
  (s.refreshTokens.find? fun r => r.token = t ∧ s.now < r.expiresAt).map fun r =>
    (s.deleteRefreshTokens fun r => r.token = t ∧ s.now < r.expiresAt, r)

/-- `UPDATE user_auth … WHERE user_id = $1 AND auth_key_hash = $9` -/
def State.changePassword (s : State) (userID : ID) (oldAuthKeyHash : Hash) (c : Credentials) :
    Option State :=
  if (s.userAuth userID).any fun old => old.authKeyHash = oldAuthKeyHash then
    some { s with userAuth := update s.userAuth userID (some c) }
  else none

/-- `SETNX` with a TTL of 120 s. -/
def State.consumeJTI (s : State) (jti : Bytes) : Option State :=
  if (s.usedJTI jti).any fun t => s.now ≤ t then none
  else some { s with usedJTI := update s.usedJTI jti (some (s.now + 120)) }

/-- The devices of a user that have been opened. -/
def devicesOf (log : List Act) (userID : ID) : List ID :=
  log.filterMap fun a => match a with
    | .opened d u => if u = userID then some d else none
    | _ => none

/-- A revocation of several devices has returned success. -/
def State.recordRevoked (s : State) (deviceIDs : List ID) : State :=
  { s with log := deviceIDs.map .revoked ++ s.log }

/-- `FederationJoinTx`: the shadow user of a remote user, who is inserted with the drawn id if
    there is none. -/
def State.upsertShadowUser (s : State) (homeServer : String) (remoteUserID userID : ID) :
    Option (State × ID) :=
  match s.users.find? fun u =>
    u.isFederated ∧ u.homeServer = homeServer ∧ u.remoteUserID = remoteUserID with
  | some u => some (s, u.id)
  | none =>
    if (s.userByID userID).isSome then none
    else
      let u : User := { id := userID, isFederated := true, homeServer, remoteUserID }
      some ({ s with users := u :: s.users }, userID)


/-! ## Section 3: Calls -/

/-- What a request with an access token is for. -/
inductive RPC where
  | other
  | logout
  | registerDevice
  | revokeDevice (deviceID : ID)
  | revokeAllOtherDevices
  | changePassword (oldAuthKey : Bytes) (c : NewCredentials)
  deriving DecidableEq, Repr

inductive Call where
  | register (c : NewCredentials)
  | login (userID : ID) (authKey : Bytes)
  | refreshToken (t : Token)
  | federationJoin (a : Assertion)
  | federationRefresh (t : Token) (a : Assertion)
  | request (t : Token) (rpc : RPC)
  | recoverAccount (userID : ID) (recoveryVerifier : Bytes) (c : NewCredentials)
  /-- From its `RecoverAccount` on. -/
  | completeDeviceRecovery (userID : ID) (approverDeviceID : Option ID) (c : NewCredentials)
  /-- Rows of `devices` are pruned. -/
  | prune (deviceIDs : List ID)
  | clock (seconds : Nat)

inductive Phase where
  | registerBegun (c : NewCredentials)
  | registering (userID : ID) (c : NewCredentials) (h : Hash)
  | loginBegun (userID : ID) (authKey : Bytes)
  /-- The user is known; the device and the pair of tokens. -/
  | opening (userID : ID) (source : Source)
  | upserting (userID deviceID : ID) (source : Source)
  | generating (userID deviceID : ID) (source : Source)
  | storing (refresh : Token)
  | refreshBegun (t : Token)
  | consuming (t : Token)
  | joinBegun (a : Assertion)
  | joinConsuming (a : Assertion) (verifiedAt : Nat)
  | joining (x : Presentation)
  | federationBegun (t : Token) (a : Assertion)
  | federationVerifying (t : Token) (a : Assertion)
  | federationConsumingJTI (t : Token) (a : Assertion) (verifiedAt : Nat)
  | federationLooking (t : Token) (x : Presentation)
  | federationConsuming (t : Token) (x : Presentation)
  | requestBegun (t : Token) (rpc : RPC)
  /-- The token is valid; the blocklist. -/
  | checking (t : Token) (rpc : RPC)
  | logoutDeleting (userID deviceID : ID)
  | logoutBlocking (deviceID : ID)
  | registeringDevice (userID deviceID : ID)
  | revokeDeleting (userID deviceID : ID)
  | revokeBlocking (deviceID : ID)
  | othersDeleting (userID currentDeviceID : ID)
  /-- Some of the revoked devices remain to be blocked. -/
  | othersBlocking (revoked remaining : List ID)
  | changeReading (userID : ID) (oldAuthKey : Bytes) (c : NewCredentials)
  | changeHashing (userID : ID) (verified : Hash) (c : NewCredentials)
  | changing (userID : ID) (verified : Hash) (c : NewCredentials) (h : Hash)
  | recoverBegun (userID : ID) (proof : Option Bytes) (excluded : List ID) (c : NewCredentials)
  | recoverLocking (userID : ID) (proof : Option Bytes) (excluded : List ID) (c : NewCredentials)
      (h : Hash)
  /-- The rows of the user are locked. -/
  | recoverUpdating (userID : ID) (excluded : List ID) (c : NewCredentials) (h : Hash)
  | recoverDeleting (userID : ID) (excluded : List ID) (c : NewCredentials) (h : Hash)
  | recoverCommitting (userID : ID) (c : NewCredentials) (h : Hash) (deleted : List Token)
  | pruning (deviceIDs : List ID)
  | waiting (seconds : Nat)
  | returned

def Phase.begin : Call → Phase
  | .register c => .registerBegun c
  | .login userID authKey => .loginBegun userID authKey
  | .refreshToken t => .refreshBegun t
  | .federationJoin a => .joinBegun a
  | .federationRefresh t a => .federationBegun t a
  | .request t rpc => .requestBegun t rpc
  | .recoverAccount userID v c => .recoverBegun userID (some v) [] c
  | .completeDeviceRecovery userID approver c => .recoverBegun userID none approver.toList c
  | .prune deviceIDs => .pruning deviceIDs
  | .clock seconds => .waiting seconds

/-- What becomes of a statement: it may be executed and yet be taken for failed. -/
inductive Reply where
  | ok
  | lost
  | refused
  deriving DecidableEq, Repr

structure Outcome where
  reply : Reply := .ok
  /-- The claims are found in the cache. -/
  hit : Bool := false
  /-- Random values. -/
  userID : ID := ""
  deviceID : ID := ""
  salt : Bytes := []
  accessJTI : Bytes := []
  refreshJTI : Bytes := []

/-- A statement that takes the service to a state, and where the call goes on or ends. -/
def command (s : State) (o : Outcome) (s' : State) (k : Phase) : State × Phase :=
  match o.reply with
  | .ok => (s', k)
  | .lost => (s', .returned)
  | .refused => (s, .returned)

/-- The recovery of a user holds his row in `user_auth`, and in `users`. -/
def Phase.locks (userID : ID) : Phase → Bool
  | .recoverUpdating u _ _ _ | .recoverDeleting u _ _ _ | .recoverCommitting u _ _ _ => u = userID
  | _ => false

/-- A recovery has deleted the row of a token, and has not committed. -/
def Phase.deletes (t : Token) : Phase → Bool
  | .recoverCommitting _ _ _ deleted => t ∈ deleted
  | _ => false

def NewCredentials.valid (c : NewCredentials) : Bool :=
  c.authKey ≠ [] ∧ c.salt ≠ [] ∧ (c.recoveryVerifier = [] ∨ c.recoveryVerifier.length = 32)

/-- `HashPassword` -/
def State.hashPassword (s : State) (o : Outcome) (c : NewCredentials) (k : Hash → Phase) :
    Option (State × Phase) :=
  let h : Hash := { password := c.authKey, salt := o.salt }
  if s.hashDrawn h then none else some (s.record (.hashed h), k h)

/-- The claims of an access token, and below of a refresh token. -/
def State.accessClaims (s : State) (o : Outcome) (userID deviceID : ID) (source : Source) :
    Token where
  jti := o.accessJTI
  userID := userID
  deviceID := deviceID
  isFederated := source.isFederated
  expiresAt := s.now + accessTokenExpiry

def State.refreshClaims (s : State) (o : Outcome) (userID deviceID : ID) (source : Source) :
    Token where
  jti := o.refreshJTI
  userID := userID
  deviceID := deviceID
  isRefresh := true
  isFederated := source.isFederated
  expiresAt := s.now + refreshTokenExpiry

/-- Register, Login, and the tokens of every call that issues some. -/
def loginStep (s : State) (others : List Phase) (o : Outcome) : Phase → Option (State × Phase)
  | .registerBegun c =>
    if c.valid = false ∨ 128 < c.authKey.length ∨ o.userID = "" then some (s, .returned)
    else s.hashPassword o c (.registering o.userID c)
  | .registering userID c h =>
    if (s.userByID userID).isSome then some (s, .returned)
    else
      let s' := (s.createUser userID (c.row h)).record (.wrote userID none (c.row h))
      some (command s o s' (.opening userID .login))
  | .loginBegun userID authKey =>
    if authKey = [] ∨ 128 < authKey.length ∨ o.reply ≠ .ok then some (s, .returned)
    else match s.userAuth userID with
    | none => some (s, .returned)
    | some r =>
      if verifyPassword r.authKeyHash authKey then some (s, .opening userID .login)
      else some (s, .returned)
  | .opening userID source =>
    if o.deviceID = "" ∨ s.deviceOpened o.deviceID then none
    else
      some (s.record (.opened o.deviceID userID),
        if source.isFederated then .generating userID o.deviceID source
        else .upserting userID o.deviceID source)
  | .upserting userID deviceID source =>
    if others.any (Phase.locks userID) then none
    else some (command s o (s.upsertDevice deviceID userID) (.generating userID deviceID source))
  | .generating userID deviceID source =>
    if o.reply ≠ .ok then some (s, .returned)
    else if s.jtiDrawn o.accessJTI ∨ s.jtiDrawn o.refreshJTI then none
    else
      let access := s.accessClaims o userID deviceID source
      let refresh := s.refreshClaims o userID deviceID source
      let s' := { s with signed := access :: refresh :: s.signed }
      some (s'.record (.issued source access refresh), .storing refresh)
  | .storing refresh =>
    if others.any (Phase.locks refresh.userID) then none
    else match s.storeRefreshToken refresh with
    | none => some (s, .returned)
    | some s' => some (command s o (s'.record (.stored refresh)) .returned)
  | _ => none

/-- The statement that consumes a refresh token waits for a recovery that has deleted it. -/
def consume (s : State) (others : List Phase) (o : Outcome) (t : Token) (k : RefreshRow → Phase) :
    Option (State × Phase) :=
  if others.any (Phase.deletes t) then none
  else match s.consumeRefreshToken t with
  | none => some (s, .returned)
  | some (s', r) => some (command s o s' (k r))

/-- `checkJTIReplay` -/
def checkJTIReplay (s : State) (o : Outcome) (a : Assertion) (k : Phase) : Option (State × Phase) :=
  if a.jti = [] then some (s, .returned)
  else match s.consumeJTI a.jti with
  | none => some (s, .returned)
  | some s' => some (command s o (s'.record (.consumedJTI a.jti s.now)) k)

def refreshStep (s : State) (others : List Phase) (o : Outcome) : Phase → Option (State × Phase)
  | .refreshBegun t =>
    if s.validates t ∧ t.isRefresh then some (s, .consuming t) else some (s, .returned)
  | .consuming t => consume s others o t fun r => .generating r.userID r.deviceID (.refresh t)
  | .joinBegun a =>
    if a.valid s.originURL s.instanceURL s.now ∧ o.reply = .ok then some (s, .joinConsuming a s.now)
    else some (s, .returned)
  | .joinConsuming a verifiedAt =>
    checkJTIReplay s o a (.joining { assertion := a, verifiedAt, consumedAt := s.now })
  | .joining x =>
    -- the invite, the bans and the membership may fail as well
    if o.userID = "" then none
    else match s.upsertShadowUser x.assertion.issuer x.assertion.userID o.userID with
    | none => some (s, .returned)
    | some (s', uid) => some (command s o s' (.opening uid (.join x)))
  | .federationBegun t a =>
    if s.validates t ∧ t.isRefresh then some (s, .federationVerifying t a) else some (s, .returned)
  | .federationVerifying t a =>
    if a.valid s.originURL s.instanceURL s.now ∧ o.reply = .ok then
      some (s, .federationConsumingJTI t a s.now)
    else some (s, .returned)
  | .federationConsumingJTI t a verifiedAt =>
    checkJTIReplay s o a (.federationLooking t { assertion := a, verifiedAt, consumedAt := s.now })
  | .federationLooking t x =>
    match s.userByID t.userID with
    | none => some (s, .returned)
    | some u =>
      if o.reply = .ok ∧ u.isFederated ∧ x.assertion.userID = u.remoteUserID ∧
          x.assertion.issuer = u.homeServer then some (s, .federationConsuming t x)
      else some (s, .returned)
  | .federationConsuming t x =>
    consume s others o t fun _ => .generating t.userID t.deviceID (.federationRefresh t x)
  | _ => none

/-- The handler of a request that was let through. -/
def Phase.handler (userID deviceID : ID) : RPC → Phase
  | .other => .returned
  | .logout => .logoutDeleting userID deviceID
  | .registerDevice => .registeringDevice userID deviceID
  | .revokeDevice d => .revokeDeleting userID d
  | .revokeAllOtherDevices => .othersDeleting userID deviceID
  | .changePassword oldAuthKey c => .changeReading userID oldAuthKey c

/-- The interceptors. Those of the auth service refuse federated users. -/
def interceptorStep (s : State) (o : Outcome) : Phase → Option (State × Phase)
  | .requestBegun t rpc =>
    if o.hit ∧ s.cached t ∨ s.validates t then
      let s' := { s with cache := t :: s.cache }
      if t.isRefresh then some (s', .returned) else some (s', .checking t rpc)
    else some (s, .returned)
  | .checking t rpc =>
    -- the blocklist fails closed
    if t.deviceID ≠ "" ∧ (o.reply ≠ .ok ∨ s.isDeviceBlocked t.deviceID) then some (s, .returned)
    else if rpc ≠ .other ∧ t.isFederated then some (s, .returned)
    else some (s.record (.accepted t), .handler t.userID t.deviceID rpc)
  | _ => none

/-- The state after a step that may block a device. -/
def State.afterBlock (s : State) (o : Outcome) (deviceID : ID) : State :=
  if o.reply = .refused then s else s.blockDevice deviceID

def deviceStep (s : State) (others : List Phase) (o : Outcome) : Phase → Option (State × Phase)
  | .logoutDeleting userID deviceID =>
    let p (r : RefreshRow) : Bool := r.userID = userID ∧ r.deviceID = deviceID
    if deviceID = "" then some (s, .returned)
    else if s.refreshTokens.any fun r => p r ∧ others.any (Phase.deletes r.token) then none
    else some (command s o (s.deleteRefreshTokens p) (.logoutBlocking deviceID))
  -- a block that fails is not fatal
  | .logoutBlocking deviceID =>
    some ((s.afterBlock o deviceID).record (.revoked deviceID), .returned)
  | .registeringDevice userID deviceID =>
    if others.any (Phase.locks userID) then none
    else if deviceID ≠ "" then some (command s o (s.upsertDevice deviceID userID) .returned)
    else if o.deviceID = "" ∨ s.deviceOpened o.deviceID then none
    else
      let s' := s.record (.opened o.deviceID userID)
      some (command s o (s'.upsertDevice o.deviceID userID) .returned)
  | .revokeDeleting userID deviceID =>
    let p (d : Device) : Bool := d.userID = userID ∧ d.id = deviceID
    if deviceID = "" ∨ ¬ s.devices.any p then some (s, .returned)
    else
      let s' := { s with devices := s.devices.filter fun d => !p d }
      some (command s o s' (.revokeBlocking deviceID))
  | .revokeBlocking deviceID =>
    let s' := s.afterBlock o deviceID
    if o.reply = .ok then some (s'.record (.revoked deviceID), .returned) else some (s', .returned)
  | .othersDeleting userID currentDeviceID =>
    let p (d : Device) : Bool := d.userID = userID ∧ d.id ≠ currentDeviceID
    if currentDeviceID = "" then some (s, .returned)
    else
      let deletedIDs := (s.devices.filter p).map Device.id
      let revoked := (devicesOf s.log userID).filter fun d => d ≠ currentDeviceID
      let s' := { s with devices := s.devices.filter fun d => !p d }
      some (command s o s' (.othersBlocking revoked deletedIDs))
  | .othersBlocking revoked [] => some (s.recordRevoked revoked, .returned)
  | .othersBlocking revoked (deviceID :: remaining) =>
    some (command s o (s.blockDevice deviceID) (.othersBlocking revoked remaining))
  | _ => none

def passwordStep (s : State) (others : List Phase) (o : Outcome) : Phase → Option (State × Phase)
  | .changeReading userID oldAuthKey c =>
    if oldAuthKey = [] ∨ 128 < oldAuthKey.length ∨ 128 < c.authKey.length ∨ c.valid = false ∨
        o.reply ≠ .ok then some (s, .returned)
    else match s.userAuth userID with
    | none => some (s, .returned)
    | some r =>
      if verifyPassword r.authKeyHash oldAuthKey then
        some (s, .changeHashing userID r.authKeyHash c)
      else some (s, .returned)
  | .changeHashing userID verified c => s.hashPassword o c (.changing userID verified c)
  | .changing userID verified c h =>
    if others.any (Phase.locks userID) then none
    else match s.changePassword userID verified (c.row h) with
    | none => some (s, .returned)
    | some s' => some (command s o (s'.record (.wrote userID (some verified) (c.row h))) .returned)
  | .recoverBegun userID proof excluded c =>
    -- a rate limit may fail
    let malformed := proof.any fun v => v ≠ [] ∧ v.length ≠ 32
    if c.valid = false ∨ c.encryptedKeyBundle = [] ∨ c.keyBundleIV = [] ∨ malformed ∨
        o.reply ≠ .ok then some (s, .returned)
    else s.hashPassword o c (.recoverLocking userID proof excluded c)
  | .recoverLocking userID proof excluded c h =>
    if others.any (Phase.locks userID) then none
    else match s.userAuth userID with
    | none => some (s, .returned)
    | some r =>
      if o.reply = .ok ∧ proof.all (verifyRecoveryVerifier r.recoveryVerifierHash) then
        some (s, .recoverUpdating userID excluded c h)
      else some (s, .returned)
  -- other calls see what the transaction writes when it has committed
  | .recoverUpdating userID excluded c h =>
    if o.reply = .ok then some (s, .recoverDeleting userID excluded c h) else some (s, .returned)
  | .recoverDeleting userID excluded c h =>
    let rows := s.refreshTokens.filter fun r => r.userID = userID ∧ r.deviceID ∉ excluded
    if o.reply = .ok then some (s, .recoverCommitting userID c h (rows.map RefreshRow.token))
    else some (s, .returned)
  | .recoverCommitting userID c h deleted =>
    let s' := { s with userAuth := update s.userAuth userID (some (c.row h)) }
    let s' := (s'.deleteRefreshTokens fun r => r.token ∈ deleted).record
      (.wrote userID none (c.row h))
    some (command s o s' (.opening userID .recovery))
  | _ => none

/-- One statement, command or validation of a call. -/
def next (s : State) (others : List Phase) (p : Phase) (o : Outcome) : Option (State × Phase) :=
  match p with
  | .registerBegun _ | .registering _ _ _ | .loginBegun _ _ | .opening _ _ | .upserting _ _ _
  | .generating _ _ _ | .storing _ => loginStep s others o p
  | .refreshBegun _ | .consuming _ | .joinBegun _ | .joinConsuming _ _ | .joining _
  | .federationBegun _ _ | .federationVerifying _ _ | .federationConsumingJTI _ _ _
  | .federationLooking _ _ | .federationConsuming _ _ => refreshStep s others o p
  | .requestBegun _ _ | .checking _ _ => interceptorStep s o p
  | .logoutDeleting _ _ | .logoutBlocking _ | .registeringDevice _ _ | .revokeDeleting _ _
  | .revokeBlocking _ | .othersDeleting _ _ | .othersBlocking _ _ => deviceStep s others o p
  | .changeReading _ _ _ | .changeHashing _ _ _ | .changing _ _ _ _ | .recoverBegun _ _ _ _
  | .recoverLocking _ _ _ _ _ | .recoverUpdating _ _ _ _ | .recoverDeleting _ _ _ _
  | .recoverCommitting _ _ _ _ => passwordStep s others o p
  | .pruning deviceIDs =>
    some ({ s with devices := s.devices.filter fun d => d.id ∉ deviceIDs }, .returned)
  | .waiting seconds => some ({ s with now := s.now + seconds }, .returned)
  | .returned => none

abbrev Pooled := Pool.State State Phase
abbrev Event := Pool.Event Call Outcome

def step : Pooled → Event → Pooled := Pool.step .begin next

/-- Nobody has registered. -/
def initial (originURL instanceURL : String) : Pooled :=
  { shared := { originURL, instanceURL }, calls := [] }

end Meza.Auth.Sessions
