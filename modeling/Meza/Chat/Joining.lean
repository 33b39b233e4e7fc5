import Meza.Chat.Membership
import Meza.Lib.Pool

/-! # Joins, bans and invites side by side

    `JoinServer`, `BanMember`, `UnbanMember`, `RevokeInvite` and
    `CleanExpiredKeyBundles` as they run at the same time: every store call is a
    step, and between two steps of a call the others can do anything. A store
    call can also fail, which leaves the tables alone and ends the request.

    A phase says which store call comes next and what the handler has in its
    hands by then. -/

namespace Meza.Chat.Joining

open Store Permissions ChatStore Prod Option

/-! ## Section 1: Requests and phases -/

structure JoinServerResponse where
  server : Server
  encryptedChannelKeys : Option (List UInt8)
  channelKeysIV : Option (List UInt8)

inductive JoinPhase where
  /-- `GetInvite` -/
  | begun (userID : ID) (code : String)
  /-- `IsBanned` -/
  | found (userID : ID) (inv : Invite)
  /-- `IsMember` -/
  | unbanned (userID : ID) (inv : Invite)
  /-- `ConsumeInvite` -/
  | outside (userID : ID) (inv : Invite)
  /-- `AddMember` -/
  | consumed (userID : ID) (inv consumed : Invite)
  /-- `GetServer` -/
  | added (userID : ID) (inv consumed : Invite) (inserted : Bool)

inductive BanPhase where
  /-- `requireMembership` -/
  | begun (userID : ID) (req : BanMemberRequest)
  /-- `requirePermission` -/
  | inside (userID : ID) (req : BanMemberRequest)
  /-- `IsBanned` -/
  | authorized (callerPos : Nat) (ban : Ban)
  /-- `IsMember` -/
  | unbanned (callerPos : Nat) (ban : Ban)
  /-- `getEffectivePosition` -/
  | member (callerPos : Nat) (ban : Ban)
  /-- `CreateBanAndRemoveMember` -/
  | outranked (callerPos : Nat) (ban : Ban)
  /-- `RemoveChannelMembersForServer` -/
  | removed (ban : Ban)
  /-- `CreateBan` -/
  | stranger (ban : Ban)

inductive UnbanPhase where
  /-- `requireMembership` -/
  | begun (userID : ID) (req : UnbanMemberRequest)
  /-- `requirePermission` -/
  | inside (userID : ID) (req : UnbanMemberRequest)
  /-- `IsBanned` -/
  | authorized (req : UnbanMemberRequest)
  /-- `DeleteBan` -/
  | banned (req : UnbanMemberRequest)

inductive RevokePhase where
  /-- `GetInvite` -/
  | begun (userID : ID) (code : String)
  /-- `requireMembership` -/
  | found (userID : ID) (inv : Invite)
  /-- `GetServer`, unless the caller created the invite -/
  | inside (userID : ID) (inv : Invite)
  /-- `RevokeInvite` -/
  | authorized (code : String)

inductive Phase where
  | join (p : JoinPhase)
  | ban (p : BanPhase)
  | unban (p : UnbanPhase)
  | revoke (p : RevokePhase)
  | clean
  /-- A join that has got past `AddMember`; `inserted` tells whether that made a member. -/
  | joined (code : String) (inserted : Bool) (result : Except ConnectError JoinServerResponse)
  | returned (result : Except ConnectError Unit)

/-- The call is over. -/
def Phase.finished : Phase → Bool
  | .joined _ _ _ | .returned _ => true
  | _ => false

inductive JoinCall where
  | joinServer (caller : Option ID) (req : JoinServerRequest)
  | banMember (caller : Option ID) (req : BanMemberRequest)
  | unbanMember (caller : Option ID) (req : UnbanMemberRequest)
  | revokeInvite (caller : Option ID) (code : String)
  | cleanExpiredKeyBundles

/-- How a store call ends, and when. -/
structure Outcome where
  failed : Bool := false
  now : Int := 0

/-! ## Section 2: Steps -/

def refuse (e : ConnectError) : Phase := .returned (.error e)

/-- Goes on with the answer, or ends the call. -/
def answer {α : Type} (db : DB) (r : Except ConnectError α) (k : α → Phase) : DB × Phase :=
  match r with
  | .ok a => (db, k a)
  | .error e => (db, refuse e)

/-- Goes on in the changed tables, or ends the call. -/
def store {α : Type} (db : DB) (error : ConnectError) (r : Except StoreError (α × DB))
    (k : α → Phase) : DB × Phase :=
  match r with
  | .ok (a, db') => (db', k a)
  | .error _ => (db, refuse error)

/-- What the handlers check before the first store call. -/
def start : JoinCall → Phase
  | .joinServer caller req =>
    match authenticate caller with
    | .error e => refuse e
    | .ok userID =>
      if req.inviteCode = "" then
        refuse { code := .invalidArgument, message := "invite_code is required" }
      else .join (.begun userID (toLower (trimSpace req.inviteCode)))
  | .banMember caller req =>
    match authenticate caller with
    | .error e => refuse e
    | .ok userID =>
      if req.serverID = "" ∨ req.userID = "" then
        refuse { code := .invalidArgument, message := "server_id and user_id are required" }
      else .ban (.begun userID req)
  | .unbanMember caller req =>
    match authenticate caller with
    | .error e => refuse e
    | .ok userID =>
      if req.serverID = "" ∨ req.userID = "" then
        refuse { code := .invalidArgument, message := "server_id and user_id are required" }
      else .unban (.begun userID req)
  | .revokeInvite caller code =>
    match authenticate caller with
    | .error e => refuse e
    | .ok userID =>
      if code = "" then refuse { code := .invalidArgument, message := "code is required" }
      else .revoke (.begun userID (toLower (trimSpace code)))
  | .cleanExpiredKeyBundles => .clean

def checkMembershipFailed : ConnectError :=
  { code := .internal, message := "check membership failed" }

def consumeInviteFailed : ConnectError :=
  { code := .internal, message := "consume invite failed" }

def addMemberFailed : ConnectError := { code := .internal, message := "add member failed" }

def getServerFailed : ConnectError := { code := .internal, message := "get server failed" }

/-- The request ends like this when its next store call fails. -/
def JoinPhase.failed : JoinPhase → Phase
  | .begun _ _ => refuse invalidInvite
  | .found _ _ => refuse internalError
  | .unbanned _ _ => refuse checkMembershipFailed
  | .outside _ _ => refuse consumeInviteFailed
  | .consumed _ _ _ => refuse addMemberFailed
  | .added _ inv _ inserted => .joined inv.code inserted (.error getServerFailed)

def joinNext (db : DB) (now : Int) : JoinPhase → DB × Phase
  | .begun userID code =>
    answer db (orElse invalidInvite (getInvite db.tables code))
      fun inv => .join (.found userID inv)
  | .found userID inv =>
    answer db (rejectIf (isBanned db.tables inv.serverID userID) .permissionDenied
        "you are banned from this server")
      fun _ => .join (.unbanned userID inv)
  | .unbanned userID inv =>
    answer db (rejectIf (isMember db.tables userID inv.serverID) .alreadyExists
        "already a member")
      fun _ => .join (.outside userID inv)
  | .outside userID inv =>
    -- a conditional update: no row if the invite admits nobody any more
    store db consumeInviteFailed (consumeInvite db now inv.code)
      fun consumed =>
        match consumed with
        | none => refuse invalidInvite
        | some row => .join (.consumed userID inv row)
  | .consumed userID inv consumed =>
    store db addMemberFailed
      ((addMember db userID consumed.serverID).map ((), ·))
      fun _ => .join (.added userID inv consumed
        (!isMember db.tables userID consumed.serverID))
  | .added _ inv consumed inserted =>
    match getServer db.tables consumed.serverID with
    | .error _ => (db, .joined inv.code inserted (.error getServerFailed))
    | .ok server =>
      (db, .joined inv.code inserted (.ok
        { server
          encryptedChannelKeys := inv.encryptedChannelKeys
          channelKeysIV := inv.channelKeysIV }))

/-- The membership checks of `requirePermission` and what follows it. -/
def authorizeBan (t : Tables) (userID : ID) (req : BanMemberRequest) :
    Except ConnectError Authority := do
  let auth ← requirePermission t userID req.serverID banMembers
  rejectIf (req.userID = userID) .invalidArgument "cannot ban yourself"
  rejectIf (auth.srv.ownerID = req.userID) .permissionDenied "cannot ban the server owner"
  return auth

def banNext (db : DB) : BanPhase → DB × Phase
  | .begun userID req =>
    answer db (requireMembership db.tables userID req.serverID) fun _ => .ban (.inside userID req)
  | .inside userID req =>
    answer db (authorizeBan db.tables userID req)
      fun auth => .ban (.authorized auth.callerPos
        { serverID := req.serverID
          userID := req.userID
          reason := some req.reason
          bannedBy := some userID })
  | .authorized callerPos ban =>
    answer db (rejectIf (isBanned db.tables ban.serverID ban.userID) .alreadyExists
        "user is already banned")
      fun _ => .ban (.unbanned callerPos ban)
  | .unbanned callerPos ban =>
    -- the rank only matters among members
    if isMember db.tables ban.userID ban.serverID then (db, .ban (.member callerPos ban))
    else (db, .ban (.stranger ban))
  | .member callerPos ban =>
    answer db (requireOutranks callerPos db.tables ban.userID ban.serverID
        "cannot ban a member with equal or higher role")
      fun _ => .ban (.outranked callerPos ban)
  | .outranked callerPos ban =>
    store db internalError ((createBanAndRemoveMember db ban callerPos).map ((), ·))
      fun _ => .ban (.removed ban)
  | .removed ban =>
    -- a failure is only logged
    (tried (fun db => ChatStore.removeChannelMembersForServer db ban.userID ban.serverID) db,
      .returned (.ok ()))
  | .stranger ban =>
    store db internalError (createBan db ban)
      fun created =>
        if created then .returned (.ok ())
        else refuse { code := .alreadyExists, message := "user is already banned" }

/-- The request ends like this when its next store call fails. -/
def BanPhase.failed : BanPhase → Phase
  | .removed _ => .returned (.ok ())
  | _ => refuse internalError

def unbanNext (db : DB) : UnbanPhase → DB × Phase
  | .begun userID req =>
    answer db (requireMembership db.tables userID req.serverID)
      fun _ => .unban (.inside userID req)
  | .inside userID req =>
    answer db (requirePermission db.tables userID req.serverID banMembers)
      fun _ => .unban (.authorized req)
  | .authorized req =>
    answer db (rejectIf (¬ isBanned db.tables req.serverID req.userID) .notFound
        "user is not banned")
      fun _ => .unban (.banned req)
  | .banned req =>
    store db internalError ((deleteBan db req.serverID req.userID).map ((), ·))
      fun _ => .returned (.ok ())

def revokeNext (db : DB) : RevokePhase → DB × Phase
  | .begun userID code =>
    answer db (orElse { code := .notFound, message := "invite not found" }
        (getInvite db.tables code))
      fun inv => .revoke (.found userID inv)
  | .found userID inv =>
    -- the creator needs no further right
    answer db (requireMembership db.tables userID inv.serverID)
      fun _ =>
        if inv.creatorID = userID then .revoke (.authorized inv.code)
        else .revoke (.inside userID inv)
  | .inside userID inv =>
    answer db (do
        let srv ← orElse internalError (getServer db.tables inv.serverID)
        rejectIf (srv.ownerID ≠ userID) .permissionDenied
          "only the invite creator or server owner can revoke")
      fun _ => .revoke (.authorized inv.code)
  | .authorized code =>
    store db internalError ((revokeInvite db code).map ((), ·))
      fun _ => .returned (.ok ())

/-- The request ends like this when its next store call fails. -/
def RevokePhase.failed : RevokePhase → Phase
  | .begun _ _ => refuse { code := .notFound, message := "invite not found" }
  | _ => refuse internalError

/-- The next store call. -/
def next (db : DB) (_others : List Phase) : Phase → Outcome → Option (DB × Phase)
  | .joined _ _ _, _ | .returned _, _ => none
  | .join p, outcome =>
    some (if outcome.failed then (db, p.failed) else joinNext db outcome.now p)
  | .ban p, outcome => some (if outcome.failed then (db, p.failed) else banNext db p)
  | .unban p, outcome =>
    some (if outcome.failed then (db, refuse internalError) else unbanNext db p)
  | .revoke p, outcome =>
    some (if outcome.failed then (db, p.failed) else revokeNext db p)
  | .clean, outcome =>
    some (if outcome.failed then (db, refuse internalError)
      else store db internalError
        ((cleanExpiredKeyBundles db outcome.now).map ((), ·)) fun _ => .returned (.ok ()))

abbrev State : Type := Pool.State DB Phase

abbrev Event : Type := Pool.Event JoinCall Outcome

/-- Any interleaving. -/
abbrev step : State → Event → State := Pool.step start next

/-- Nothing has been called yet. -/
def initial (db : DB) : State := { shared := db, calls := [] }

/-! ## Section 3: What a step changes -/

/-- The invite a join has taken a use of. -/
def Phase.usedCode : Phase → Option String
  | .join (.consumed _ inv _) | .join (.added _ inv _ _) => some inv.code
  | .joined code _ _ => some code
  | _ => none

/-- The invite through which a join has made a member. -/
def Phase.admittedBy : Phase → Option String
  | .join (.added _ inv _ true) => some inv.code
  | .joined code true _ => some code
  | _ => none

/-- The member that `AddMember` is about to insert. -/
def Phase.adds : Phase → Option Member
  | .join (.consumed userID _ consumed) => some { userID, serverID := consumed.serverID }
  | _ => none

/-- A step that only reads, or that has nothing to do with invites. -/
structure Aside (p p' : Phase) : Prop where
  used : p'.usedCode = p.usedCode
  admitted : p'.admittedBy = p.admittedBy
  adds : p.adds = none

/-- What a step does to the tables. -/
inductive Change (db : DB) (outcome : Outcome) : Phase → DB → Phase → Prop where
  | read {p p' : Phase} (aside : Aside p p') : Change db outcome p db p'
  /-- `AddMember` fails after the use was taken. -/
  | lose {userID : ID} {inv consumed : Invite} {e : ConnectError}
      (cause : outcome.failed = true ∨
        ∃ e, addMember db userID consumed.serverID = .error e) :
      Change db outcome (.join (.consumed userID inv consumed)) db (refuse e)
  | consume {userID : ID} {inv row : Invite} {db' : DB}
      (write : consumeInvite db outcome.now inv.code = .ok (some row, db')) :
      Change db outcome (.join (.outside userID inv)) db' (.join (.consumed userID inv row))
  /-- The invite admits nobody any more. -/
  | miss {userID : ID} {inv : Invite} {db' : DB}
      (write : consumeInvite db outcome.now inv.code = .ok (none, db')) :
      Change db outcome (.join (.outside userID inv)) db' (refuse invalidInvite)
  | add {userID : ID} {inv consumed : Invite} {db' : DB}
      (write : addMember db userID consumed.serverID = .ok db') :
      Change db outcome (.join (.consumed userID inv consumed)) db'
        (.join (.added userID inv consumed
          (!isMember db.tables userID consumed.serverID)))
  | banMember {callerPos : Nat} {ban : Ban} {db' : DB}
      (write : createBanAndRemoveMember db ban callerPos = .ok db') :
      Change db outcome (.ban (.outranked callerPos ban)) db' (.ban (.removed ban))
  | leaveChannels {ban : Ban} {db' : DB}
      (write : ChatStore.removeChannelMembersForServer db ban.userID ban.serverID = .ok db') :
      Change db outcome (.ban (.removed ban)) db' (.returned (.ok ()))
  | banStranger {ban : Ban} {created : Bool} {db' : DB} {p' : Phase}
      (write : createBan db ban = .ok (created, db'))
      (aside : Aside (.ban (.stranger ban)) p') : Change db outcome (.ban (.stranger ban)) db' p'
  | unban {req : UnbanMemberRequest} {db' : DB}
      (write : deleteBan db req.serverID req.userID = .ok db') :
      Change db outcome (.unban (.banned req)) db' (.returned (.ok ()))
  | revoke {code : String} {db' : DB} (write : revokeInvite db code = .ok db') :
      Change db outcome (.revoke (.authorized code)) db' (.returned (.ok ()))
  | clean {db' : DB}
      (write : cleanExpiredKeyBundles db outcome.now = .ok db') :
      Change db outcome .clean db' (.returned (.ok ()))

section Changes

variable {db db' : DB} {outcome : Outcome} {p' : Phase}

theorem answer_change {α : Type} {p : Phase} {r : Except ConnectError α} {k : α → Phase}
    (h : answer db r k = (db', p')) (hend : ∀ e, Aside p (refuse e)) (hk : ∀ a, Aside p (k a)) :
    Change db outcome p db' p' := by
  unfold answer at h
  split at h
  · rename_i a
    obtain ⟨rfl, rfl⟩ := mk.inj h
    exact .read (hk a)
  · rename_i e
    obtain ⟨rfl, rfl⟩ := mk.inj h
    exact .read (hend e)

theorem store_change {α : Type} {error : ConnectError} {r : Except StoreError (α × DB)}
    {k : α → Phase} (h : store db error r k = (db', p')) :
    (∃ a, r = .ok (a, db') ∧ p' = k a) ∨ ((∃ e, r = .error e) ∧ db' = db ∧ p' = refuse error) := by
  unfold store at h
  split at h
  · obtain ⟨rfl, rfl⟩ := mk.inj h
    exact .inl ⟨_, rfl, rfl⟩
  · obtain ⟨rfl, rfl⟩ := mk.inj h
    exact .inr ⟨⟨_, rfl⟩, rfl, rfl⟩

theorem map_unit_error {r : Except StoreError DB} {e : StoreError}
    (h : r.map (((), ·) : DB → Unit × DB) = .error e) : ∃ e, r = .error e := by
  rcases r with e' | db₁
  · exact ⟨e', rfl⟩
  · cases h

theorem joinNext_change {p : JoinPhase} (h : joinNext db outcome.now p = (db', p')) :
    Change db outcome (.join p) db' p' := by
  cases p with
  | begun | found | unbanned =>
    exact answer_change h (fun _ => ⟨rfl, rfl, rfl⟩) (fun _ => ⟨rfl, rfl, rfl⟩)
  | outside userID inv =>
    rcases store_change h with ⟨consumed, hwrite, rfl⟩ | ⟨-, rfl, rfl⟩
    · cases consumed with
      | none => exact Change.miss hwrite
      | some row => exact Change.consume hwrite
    · exact .read ⟨rfl, rfl, rfl⟩
  | consumed userID inv consumed =>
    rcases store_change h with ⟨u, hwrite, rfl⟩ | ⟨⟨e, herr⟩, rfl, rfl⟩
    · exact Change.add (map_unit_ok hwrite)
    · exact Change.lose (Or.inr (map_unit_error herr))
  | added userID inv consumed inserted =>
    -- the join is through, whatever `GetServer` says
    simp only [joinNext] at h
    split at h
    · obtain ⟨rfl, rfl⟩ := mk.inj h
      cases inserted with
      | false | true => exact .read ⟨rfl, rfl, rfl⟩
    · obtain ⟨rfl, rfl⟩ := mk.inj h
      cases inserted with
      | false | true => exact .read ⟨rfl, rfl, rfl⟩

theorem banNext_change {p : BanPhase} (h : banNext db p = (db', p')) :
    Change db outcome (.ban p) db' p' := by
  have hend : ∀ e, Aside (.ban p) (refuse e) := fun _ => ⟨rfl, rfl, rfl⟩
  cases p with
  | begun | inside | authorized | member => exact answer_change h hend (fun _ => ⟨rfl, rfl, rfl⟩)
  | unbanned callerPos ban =>
    simp only [banNext] at h
    split at h
    · obtain ⟨rfl, rfl⟩ := mk.inj h
      exact .read ⟨rfl, rfl, rfl⟩
    · obtain ⟨rfl, rfl⟩ := mk.inj h
      exact .read ⟨rfl, rfl, rfl⟩
  | outranked callerPos ban =>
    rcases store_change h with ⟨u, hwrite, rfl⟩ | ⟨-, rfl, rfl⟩
    · exact Change.banMember (map_unit_ok hwrite)
    · exact .read (hend _)
  | removed ban =>
    obtain ⟨rfl, rfl⟩ := mk.inj h
    unfold tried
    split
    · rename_i db' hwrite
      exact Change.leaveChannels hwrite
    · exact .read ⟨rfl, rfl, rfl⟩
  | stranger ban =>
    rcases store_change h with ⟨created, hwrite, rfl⟩ | ⟨-, rfl, rfl⟩
    · refine Change.banStranger hwrite ?_
      cases created with
      | false | true => exact ⟨rfl, rfl, rfl⟩
    · exact .read (hend _)

theorem unbanNext_change {p : UnbanPhase} (h : unbanNext db p = (db', p')) :
    Change db outcome (.unban p) db' p' := by
  have hend : ∀ e, Aside (.unban p) (refuse e) := fun _ => ⟨rfl, rfl, rfl⟩
  cases p with
  | begun | inside | authorized => exact answer_change h hend (fun _ => ⟨rfl, rfl, rfl⟩)
  | banned req =>
    rcases store_change h with ⟨u, hwrite, rfl⟩ | ⟨-, rfl, rfl⟩
    · exact Change.unban (map_unit_ok hwrite)
    · exact .read (hend _)

theorem revokeNext_change {p : RevokePhase} (h : revokeNext db p = (db', p')) :
    Change db outcome (.revoke p) db' p' := by
  have hend : ∀ e, Aside (.revoke p) (refuse e) := fun _ => ⟨rfl, rfl, rfl⟩
  cases p with
  | begun | inside => exact answer_change h hend (fun _ => ⟨rfl, rfl, rfl⟩)
  | found userID inv =>
    refine answer_change h hend ?_
    intro _
    split
    · exact ⟨rfl, rfl, rfl⟩
    · exact ⟨rfl, rfl, rfl⟩
  | authorized code =>
    rcases store_change h with ⟨u, hwrite, rfl⟩ | ⟨-, rfl, rfl⟩
    · exact Change.revoke (map_unit_ok hwrite)
    · exact .read (hend _)

/-- A store call that fails changes nothing; what a join had used up may be lost. -/
theorem failed_change {p : JoinPhase} (hfailed : outcome.failed = true)
    (h : (db, p.failed) = (db', p')) : Change db outcome (.join p) db' p' := by
  obtain ⟨rfl, rfl⟩ := mk.inj h
  cases p with
  | consumed userID inv consumed => exact Change.lose (Or.inl hfailed)
  | added userID inv consumed inserted =>
    cases inserted with
    | false | true => exact .read ⟨rfl, rfl, rfl⟩
  | _ => exact .read ⟨rfl, rfl, rfl⟩

theorem next_change {others : List Phase} {p : Phase}
    (h : next db others p outcome = some (db', p')) : Change db outcome p db' p' := by
  cases p with
  | joined | returned => cases h
  | join p =>
    have h := some.inj h
    split at h
    · rename_i hfailed
      exact failed_change hfailed h
    · exact joinNext_change h
  | ban p =>
    have h := some.inj h
    split at h
    · obtain ⟨rfl, rfl⟩ := mk.inj h
      cases p with
      | removed ban => exact .read ⟨rfl, rfl, rfl⟩
      | _ => exact .read ⟨rfl, rfl, rfl⟩
    · exact banNext_change h
  | unban p =>
    have h := some.inj h
    split at h
    · obtain ⟨rfl, rfl⟩ := mk.inj h
      exact .read ⟨rfl, rfl, rfl⟩
    · exact unbanNext_change h
  | revoke p =>
    have h := some.inj h
    split at h
    · obtain ⟨rfl, rfl⟩ := mk.inj h
      cases p with
      | begun userID code => exact .read ⟨rfl, rfl, rfl⟩
      | _ => exact .read ⟨rfl, rfl, rfl⟩
    · exact revokeNext_change h
  | clean =>
    have h := some.inj h
    split at h
    · obtain ⟨rfl, rfl⟩ := mk.inj h
      exact .read ⟨rfl, rfl, rfl⟩
    · rcases store_change h with ⟨u, hwrite, rfl⟩ | ⟨-, rfl, rfl⟩
      · exact Change.clean (map_unit_ok hwrite)
      · exact .read ⟨rfl, rfl, rfl⟩

end Changes

end Meza.Chat.Joining
