import Meza.Chat.Membership
import Meza.Social.Store

/-! # Friend requests

    `SendFriendRequest` and `AcceptFriendRequest` of `service_friend.go`, the two
    ways in which users become friends, each as one request. What other requests
    commit in the middle of it, how often the caller has asked within the hour and
    which of the queries fail whose failure is only logged are arguments. The
    events that tell the two users are not modelled. -/

namespace Meza.Social

open Store (ID StoreError)
open Chat (internalError authenticate orElse toLower trimSpace)

/-! ## Section 1: Checks -/

structure SendFriendRequestRequest where
  userID : ID := ""
  username : Option String := none

def friendRequestRateLimit : Nat := 10

def maxPendingOutgoingRequests : Nat := 100

def userNotFound : ConnectError := { code := .notFound, message := "user not found" }

/-- `count` is what Redis has counted in this hour. -/
def checkFriendRequestRate (count : Nat) : Except ConnectError Unit :=
  rejectIf (friendRequestRateLimit < count) .resourceExhausted
    "too many friend requests, please try again later"

/-- Whom a request names. -/
inductive Target where
  | id (userID : ID)
  | username (name : String)

def namedTarget (req : SendFriendRequestRequest) : Except ConnectError Target :=
  if req.username.getD "" ≠ "" then
    if req.userID ≠ "" then
      .error { code := .invalidArgument
               message := "provide either user_id or username, not both" }
    else
      let username := toLower (trimSpace (req.username.getD ""))
      if username = "" then
        .error { code := .invalidArgument, message := "username is required" }
      else .ok (.username username)
  else if req.userID = "" then
    .error { code := .invalidArgument, message := "user_id or username is required" }
  else .ok (.id req.userID)

/-- The target's id, and its row if it was looked up by name. -/
def resolveTarget (t : Tables) : Target → Except ConnectError (ID × Option User)
  | .id userID => .ok (userID, none)
  | .username name =>
    (orElse userNotFound (AuthStore.getUserByUsername t name)).map fun u => (u.id, some u)

def checkFriendRequestPrivacy (t : Tables) (callerID : ID) (target : User) :
    Except ConnectError Unit :=
  match target.friendRequestPrivacy with
  | .nobody => .error userNotFound
  | .serverCoMembers =>
    rejectIf (¬ ChatStore.shareAnyServer t callerID target.id) .notFound "user not found"
  | .everyone => .ok ()

def requireOther (userID targetID : ID) : Except ConnectError Unit :=
  rejectIf (userID = targetID) .invalidArgument "cannot send friend request to yourself"

def checkPendingRequests (t : Tables) (userID : ID) : Except ConnectError Unit :=
  rejectIf (maxPendingOutgoingRequests ≤ FriendStore.countPendingOutgoingRequests t userID)
    .resourceExhausted "too many pending friend requests"

def checkNotBlocked (t : Tables) (userID targetID : ID) : Except ConnectError Unit :=
  rejectIf (BlockStore.isBlockedEither t userID targetID) .notFound "user not found"

/-- The target's row, unless it is known already. -/
def requireUser (t : Tables) (targetID : ID) : Option User → Except ConnectError User
  | some target => .ok target
  | none => orElse userNotFound (AuthStore.getUserByID t targetID)

def checkNotFriends (t : Tables) (userID targetID : ID) : Except ConnectError Unit :=
  rejectIf (FriendStore.areFriends t userID targetID) .alreadyExists
    "already friends with this user"

/-! ## Section 2: Handlers -/

abbrev Handler : Type → Type := EStateM ConnectError DB

/-- A check against the tables. -/
def require {α : Type} (f : Tables → Except ConnectError α) : Handler α :=
  Action.check fun db => f db.tables

/-- A transaction that must succeed. -/
def transact {α : Type} (f : DB → Except StoreError (α × DB)) : Handler α :=
  Action.update fun db => orElse internalError (f db)

/-- Answers whether the request was accepted at once. -/
def sendFriendRequest (count : Nat) (between : DB → DB) (caller : Option ID)
    (req : SendFriendRequestRequest) : Handler Bool := do
  let userID ← require fun _ => authenticate caller
  require fun _ => checkFriendRequestRate count
  let named ← require fun _ => namedTarget req
  let (targetID, known) ← require fun t => resolveTarget t named
  require fun _ => requireOther userID targetID
  require fun t => checkPendingRequests t userID
  require fun t => checkNotBlocked t userID targetID
  let target ← require fun t => requireUser t targetID known
  require fun t => checkNotFriends t userID targetID
  require fun t => checkFriendRequestPrivacy t userID target
  let autoAccepted ← transact fun db => FriendStore.sendFriendRequest between db userID targetID
  let _ ← require fun t => orElse internalError (AuthStore.getUserByID t userID)
  return autoAccepted

/-- Which of the queries about the DM fail. -/
structure DMFaults where
  lookup : Bool := false
  update : Bool := false

/-- Activates a pending DM of the two users. -/
def activatePendingDM (faults : DMFaults) (userID requesterID : ID) : Handler Unit :=
  Action.modify fun db =>
    match ChatStore.getDMChannelByPairKey db.tables userID requesterID with
    | none => db
    | some existing =>
      if faults.lookup = false ∧ existing.dmStatus = .pending ∧ faults.update = false then
        -- a failure is only logged
        match ChatStore.updateDMStatus db existing.id .active with
        | .ok db' => db'
        | .error _ => db
      else db

def acceptFriendRequest (faults : DMFaults) (caller : Option ID) (requesterID : ID) :
    Handler Unit := do
  let userID ← require fun _ => authenticate caller
  require fun _ => rejectIf (requesterID = "") .invalidArgument "user_id is required"
  transact fun db => (FriendStore.acceptFriendRequest db userID requesterID).map ((), ·)
  activatePendingDM faults userID requesterID

end Meza.Social
