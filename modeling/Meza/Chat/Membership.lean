import Meza.Chat.Moderation
import Meza.Chat.Channels

/-! # Joining, leaving and onboarding -/

namespace Meza.Chat

open Store Permissions ChatStore

/-! ## Section 1: Invites -/

/-- `strings.TrimSpace`. -/
def trimSpace (s : String) : String :=
  .ofList (((s.toList.dropWhile isSpace).reverse.dropWhile isSpace).reverse)

/-- `strings.ToLower`. Of the letters outside ASCII only the Kelvin sign and the
    dotted capital I become ASCII letters; the others cannot occur in a code. -/
def toLower (s : String) : String :=
  .ofList (s.toList.map fun c =>
    if c.toNat = 0x212A then 'k' else if c.toNat = 0x0130 then 'i' else c.toLower)

structure JoinServerRequest where
  inviteCode : String

def invalidInvite : ConnectError := { code := .notFound, message := "invalid invite" }

/-- The invite is looked at before it is used, so that nobody wastes a use. -/
def joinServer (caller : Option ID) (req : JoinServerRequest) : Handler Server := do
  let userID ← require fun _ => authenticate caller
  reject (req.inviteCode = "") .invalidArgument "invite_code is required"
  let code := toLower (trimSpace req.inviteCode)
  let inv ← require fun t => orElse invalidInvite (getInvite t code)
  require fun t => rejectIf (isBanned t inv.serverID userID) .permissionDenied
    "you are banned from this server"
  require fun t => rejectIf (isMember t userID inv.serverID) .alreadyExists
    "already a member"
  let now ← Action.check fun s => .ok s.now
  let consumed ← transact (fun db => consumeInvite db now code)
    { code := .internal, message := "consume invite failed" }
  let consumed ← require fun _ => orElse invalidInvite (oneRow (.notFound "invite") consumed)
  run (fun db => addMember db userID consumed.serverID)
    { code := .internal, message := "add member failed" }
  require fun t => orElse { code := .internal, message := "get server failed" }
    (getServer t consumed.serverID)

/-! ## Section 2: Leaving -/

structure LeaveServerRequest where
  serverID : ID

def leaveServer (caller : Option ID) (req : LeaveServerRequest) : Handler Unit := do
  let userID ← require fun _ => authenticate caller
  reject (req.serverID = "") .invalidArgument "server_id is required"
  let srv ← require fun t => orElse { code := .notFound, message := "server not found" }
    (getServer t req.serverID)
  reject (srv.ownerID = userID) .failedPrecondition "server owner cannot leave"
  require fun t => rejectIf (¬ isMember t userID req.serverID) .notFound "not a member"
  run fun db => removeMember db userID req.serverID
  removeChannelMembersForServer userID req.serverID

/-! ## Section 3: Onboarding -/

structure CompleteOnboardingRequest where
  serverID : ID
  channelIDs : List ID := []
  roleIDs : List ID := []

structure CompleteOnboardingResponse where
  completedAt : Int
  skippedChannelIDs : List ID
  skippedRoleIDs : List ID
  deriving DecidableEq, Repr

/-- Rules must be acknowledged first where the server asks for it. -/
def requireRules (t : Tables) (userID : ID) (srv : Server) : Except ConnectError Unit :=
  if srv.rulesRequired then do
    let acknowledged ← orElse internalError (checkRulesAcknowledged t userID srv.id)
    rejectIf (¬ acknowledged) .failedPrecondition
      "you must acknowledge server rules before completing onboarding"
  else .ok ()

def completeOnboarding (caller : Option ID) (req : CompleteOnboardingRequest) :
    Handler CompleteOnboardingResponse := do
  let userID ← require fun _ => authenticate caller
  reject (req.serverID = "") .invalidArgument "server_id is required"
  require fun t => requireMembership t userID req.serverID
  let srv ← require fun t => orElse { code := .notFound, message := "server not found" }
    (ChatStore.getServer t req.serverID)
  reject (¬ srv.onboardingEnabled) .failedPrecondition
    "onboarding is not enabled for this server"
  require fun t => requireRules t userID srv
  let now ← Action.check fun s => .ok s.now
  let skipped ← transact fun db =>
    ChatStore.completeOnboarding db now userID req.serverID req.channelIDs req.roleIDs
  return { completedAt := now, skippedChannelIDs := skipped.1, skippedRoleIDs := skipped.2 }

end Meza.Chat
