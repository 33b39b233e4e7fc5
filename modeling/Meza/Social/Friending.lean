import Meza.Lib.Pool
import Meza.Social.Service

/-! # Friend requests and blocks side by side

    `SendFriendRequest`, `AcceptFriendRequest`, `DeclineFriendRequest`,
    `CancelFriendRequest`, `RemoveFriend`, `BlockUser` and `UnblockUser` as they
    run at the same time, with a step for every store call.

    `BlockUser` is the only one with a transaction of several calls. What it has
    written is seen by nobody before it commits, and the rows it has deleted stay
    locked until then: whoever wants to change one of them waits. A store call
    that has to wait in the middle, as `SendFriendRequest` may, goes on from there.

    A store call can fail, which leaves the tables alone and ends the request.
    Reads that only feed events are left out. -/

namespace Meza.Social.Friending
open FriendStore Friendship Option BlockStore

open Store (ID StoreError)
open Chat (internalError authenticate orElse)
open FriendStore (SendWrite)

/-! ## Section 1: Requests and phases -/

inductive SendPhase where
  /-- The counter in Redis -/
  | begun (userID : ID) (req : SendFriendRequestRequest)
  /-- `GetUserByUsername` -/
  | named (userID : ID) (username : String)
  /-- `CountPendingOutgoingRequests` -/
  | resolved (userID targetID : ID) (known : Option User)
  /-- `IsBlockedEither` -/
  | counted (userID targetID : ID) (known : Option User)
  /-- `GetUserByID` -/
  | unblocked (userID targetID : ID)
  /-- `AreFriends` -/
  | found (userID targetID : ID) (target : User)
  /-- `ShareAnyServer` -/
  | strangers (userID targetID : ID) (target : User)
  /-- `SendFriendRequest` -/
  | permitted (userID targetID : ID)
  /-- `SendFriendRequest` has taken its lock and waits for a row. -/
  | waiting (userID targetID : ID) (write : SendWrite)
  /-- `GetUserByID` for the caller -/
  | sent (userID : ID) (autoAccepted : Bool)

inductive AcceptPhase where
  /-- `AcceptFriendRequest` -/
  | begun (userID requesterID : ID)
  /-- `GetDMChannelByPairKey` -/
  | accepted (userID requesterID : ID)
  /-- `UpdateDMStatus` -/
  | activating (channelID : ID)

inductive BlockPhase where
  /-- `BlockUserTx` -/
  | begun (userID targetID : ID)
  /-- `RemoveFriendshipsByUserTx`; `new` tells whether a block was inserted. -/
  | inserted (userID targetID : ID) (new : Bool)
  /-- `Commit`, with the keys of the deleted friendships -/
  | removed (userID targetID : ID) (new : Bool) (deleted : List (ID × ID))

inductive Response where
  | sendFriendRequest (autoAccepted : Bool)
  | empty

inductive Phase where
  | send (p : SendPhase)
  | accept (p : AcceptPhase)
  | decline (userID requesterID : ID)
  | cancel (userID addresseeID : ID)
  | remove (userID targetID : ID)
  | block (p : BlockPhase)
  | unblock (userID targetID : ID)
  | returned (result : Except ConnectError Response)

/-- The call is over. -/
def Phase.finished : Phase → Bool
  | .returned _ => true
  | _ => false

inductive FriendCall where
  | sendFriendRequest (caller : Option ID) (req : SendFriendRequestRequest)
  | acceptFriendRequest (caller : Option ID) (userID : ID)
  | declineFriendRequest (caller : Option ID) (userID : ID)
  | cancelFriendRequest (caller : Option ID) (userID : ID)
  | removeFriend (caller : Option ID) (userID : ID)
  | blockUser (caller : Option ID) (userID : ID)
  | unblockUser (caller : Option ID) (userID : ID)

/-- Whether the store call fails, and what the counter in Redis says. -/
structure Outcome where
  failed : Bool := false
  count : Nat := 0

/-! ## Section 2: Locks -/

/-- The rows of `friendships` that an open transaction has deleted. -/
def Phase.deletes : Phase → List (ID × ID)
  | .block (.removed _ _ _ deleted) => deleted
  | _ => []

/-- The row of `user_blocks` that an open transaction has inserted. -/
def Phase.inserts : Phase → Option (ID × ID)
  | .block (.inserted userID targetID true) => some (userID, targetID)
  | .block (.removed userID targetID true _) => some (userID, targetID)
  | _ => none

/-- The advisory lock that a call holds. -/
def Phase.holds : Phase → Option Int64
  | .send (.waiting userID targetID _) => some (friendPairLockKey userID targetID)
  | _ => none

/-- One of the rows that a statement is about to change is locked. -/
def locked (t : Tables) (others : List Phase) (p : Friendship → Bool) : Bool :=
  t.friendships.any fun f => p f ∧ others.any fun q => q.deletes.contains f.key

/-- The rows that the last statement of `SendFriendRequest` needs for itself. -/
def touches (userID targetID : ID) : SendWrite → Friendship → Bool
  | .keep, _ => false
  | .acceptReverse, f => f.requests targetID userID
  | .insert, f => f.key = (userID, targetID)

/-! ## Section 3: Steps -/

def refuse (e : ConnectError) : Phase := .returned (.error e)

def done : Phase := .returned (.ok .empty)

def answer {α : Type} (db : DB) (r : Except ConnectError α) (k : α → Phase) : DB × Phase :=
  Pool.answer refuse db r k

def write {α : Type} (db : DB) (r : Except StoreError (α × DB)) (k : α → Phase) : DB × Phase :=
  Pool.write (refuse internalError) db r k

/-- A handler that needs the caller and another user. -/
def withUser (caller : Option ID) (userID : ID) (k : ID → Phase) : Phase :=
  match authenticate caller with
  | .error e => refuse e
  | .ok callerID =>
    if userID = "" then refuse { code := .invalidArgument, message := "user_id is required" }
    else k callerID

/-- What the handlers check before the first store call. -/
def start : FriendCall → Phase
  | .sendFriendRequest caller req =>
    match authenticate caller with
    | .error e => refuse e
    | .ok userID => .send (.begun userID req)
  | .acceptFriendRequest caller requesterID =>
    withUser caller requesterID fun userID => .accept (.begun userID requesterID)
  | .declineFriendRequest caller requesterID =>
    withUser caller requesterID fun userID => .decline userID requesterID
  | .cancelFriendRequest caller addresseeID =>
    withUser caller addresseeID fun userID => .cancel userID addresseeID
  | .removeFriend caller targetID => withUser caller targetID fun userID => .remove userID targetID
  | .blockUser caller targetID =>
    withUser caller targetID fun userID =>
      if userID = targetID then
        refuse { code := .invalidArgument, message := "cannot block yourself" }
      else if targetID = systemUserID then
        refuse { code := .invalidArgument, message := "cannot block system user" }
      else .block (.begun userID targetID)
  | .unblockUser caller targetID => withUser caller targetID fun userID => .unblock userID targetID

def sendNext (db : DB) (others : List Phase) (count : Nat) : SendPhase → Option (DB × Phase)
  | .begun userID req =>
    answer db (do
        checkFriendRequestRate count
        match ← namedTarget req with
        | .id targetID =>
          requireOther userID targetID
          return .resolved userID targetID none
        | .username username => return .named userID username)
      .send
  | .named userID username =>
    answer db (do
        let target ← orElse userNotFound (AuthStore.getUserByUsername db.tables username)
        requireOther userID target.id
        return .resolved userID target.id (some target))
      .send
  | .resolved userID targetID known =>
    answer db (checkPendingRequests db.tables userID)
      fun _ => .send (.counted userID targetID known)
  | .counted userID targetID known =>
    answer db (checkNotBlocked db.tables userID targetID)
      fun _ =>
        match known with
        | some target => .send (.found userID targetID target)
        | none => .send (.unblocked userID targetID)
  | .unblocked userID targetID =>
    answer db (orElse userNotFound (AuthStore.getUserByID db.tables targetID))
      fun target => .send (.found userID targetID target)
  | .found userID targetID target =>
    answer db (checkNotFriends db.tables userID targetID)
      fun _ =>
        match target.friendRequestPrivacy with
        | .nobody => refuse userNotFound
        | .serverCoMembers => .send (.strangers userID targetID target)
        | .everyone => .send (.permitted userID targetID)
  | .strangers userID targetID target =>
    answer db (checkFriendRequestPrivacy db.tables userID target)
      fun _ => .send (.permitted userID targetID)
  | .permitted userID targetID =>
    -- the transaction takes the lock of the pair, then looks which statement to run
    let statement := sendWrite db.tables userID targetID
    if others.any fun q => q.holds = some (friendPairLockKey userID targetID) then none
    else if locked db.tables others (touches userID targetID statement) then
      some (db, .send (.waiting userID targetID statement))
    else write db (statement.run db userID targetID) fun accepted => .send (.sent userID accepted)
  | .waiting userID targetID statement =>
    -- it goes on with the statement it has decided for
    if locked db.tables others (touches userID targetID statement) then none
    else write db (statement.run db userID targetID) fun accepted => .send (.sent userID accepted)
  | .sent userID autoAccepted =>
    answer db (orElse internalError (AuthStore.getUserByID db.tables userID))
      fun _ => .returned (.ok (.sendFriendRequest autoAccepted))

/-- The request ends like this when its next store call fails. -/
def SendPhase.failed : SendPhase → Phase
  | .named _ _ => refuse userNotFound
  | .unblocked _ _ => refuse userNotFound
  | _ => refuse internalError

/-- A single statement that changes rows of `friendships`, unless one is locked. -/
def statement (db : DB) (others : List Phase) (p : Friendship → Bool)
    (r : Except StoreError DB) (k : Phase) : Option (DB × Phase) :=
  if locked db.tables others p then none else write db (r.map ((), ·)) fun _ => k

def acceptNext (db : DB) (others : List Phase) : AcceptPhase → Option (DB × Phase)
  | .begun userID requesterID =>
    statement db others (requests requesterID userID)
      (FriendStore.acceptFriendRequest db userID requesterID)
      (.accept (.accepted userID requesterID))
  | .accepted userID requesterID =>
    match ChatStore.getDMChannelByPairKey db.tables userID requesterID with
    | none => some (db, done)
    | some existing =>
      if existing.dmStatus = .pending then some (db, .accept (.activating existing.id))
      else some (db, done)
  | .activating channelID =>
    -- a failure is only logged
    some (Pool.write done db ((ChatStore.updateDMStatus db channelID .active).map ((), ·))
      fun _ => done)

/-- The request ends like this when its next store call fails. -/
def AcceptPhase.failed : AcceptPhase → Phase
  | .begun _ _ => refuse internalError
  | _ => done

/-- The tables after `BlockUser`. -/
def blocked (t : Tables) (userID targetID : ID) (new : Bool) (deleted : List (ID × ID)) : Tables :=
  { t with
    userBlocks := if new then blockUserTx userID targetID t.userBlocks
      else t.userBlocks
    friendships := Table.deleteWhere (fun f => deleted.contains f.key) t.friendships }

def blockNext (db : DB) (others : List Phase) : BlockPhase → Option (DB × Phase)
  | .begun userID targetID =>
    -- waits for another insert of the same row
    if others.any fun q => q.inserts = some (userID, targetID) then none
    else
      answer db (orElse internalError (commit (blocked db.tables userID targetID true [])))
        fun _ => .block (.inserted userID targetID
          (!Table.exists? UserBlock.key (userID, targetID) db.tables.userBlocks))
  | .inserted userID targetID new =>
    -- deleted for the others when the transaction commits
    if locked db.tables others (joins userID targetID) then none
    else
      some (db, .block (.removed userID targetID new
        ((removeFriendshipsByUserTx db.tables userID targetID).map key)))
  | .removed userID targetID new deleted =>
    write db ((commit (blocked db.tables userID targetID new deleted)).map ((), ·)) fun _ => done

/-- The next store call, or nothing while it has to wait. -/
def next (db : DB) (others : List Phase) : Phase → Outcome → Option (DB × Phase)
  | .returned _, _ => none
  | .send p, outcome =>
    if outcome.failed then some (db, p.failed) else sendNext db others outcome.count p
  | .accept p, outcome =>
    if outcome.failed then some (db, p.failed) else acceptNext db others p
  | .decline userID requesterID, outcome =>
    if outcome.failed then some (db, refuse internalError)
    else statement db others (requests requesterID userID)
      (declineFriendRequest db userID requesterID) done
  | .cancel userID addresseeID, outcome =>
    if outcome.failed then some (db, refuse internalError)
    else statement db others (requests userID addresseeID)
      (cancelFriendRequest db userID addresseeID) done
  | .remove userID targetID, outcome =>
    if outcome.failed then some (db, refuse internalError)
    else statement db others (fun f => f.joins userID targetID ∧ f.status = .accepted)
      (removeFriend db userID targetID) done
  | .block p, outcome =>
    if outcome.failed then some (db, refuse internalError) else blockNext db others p
  | .unblock userID targetID, outcome =>
    if outcome.failed then some (db, refuse internalError)
    else write db ((unblockUser db userID targetID).map ((), ·)) fun _ => done

abbrev State : Type := Pool.State DB Phase

abbrev Event : Type := Pool.Event FriendCall Outcome

/-- Any interleaving. -/
abbrev step : State → Event → State := Pool.step start next

/-- Nothing has been called yet. -/
def initial (db : DB) : State := { shared := db, calls := [] }

/-! ## Section 4: What a step changes -/

/-- The pair whose friendships an open transaction has deleted, and their keys. -/
def Phase.unfriends : Phase → Option (Sym2 ID × List (ID × ID))
  | .block (.removed userID targetID _ deleted) => some (s(userID, targetID), deleted)
  | _ => none

/-- The call neither holds the advisory lock nor has it deleted anything. -/
structure Phase.Plain (p : Phase) : Prop where
  holds : p.holds = none
  unfriends : p.unfriends = none

/-- The call is about to run the last statement of `SendFriendRequest`. -/
inductive Sends (t : Tables) (userID targetID : ID) : SendWrite → Phase → Prop where
  | permitted : Sends t userID targetID (sendWrite t userID targetID)
      (.send (.permitted userID targetID))
  | waiting {statement : SendWrite} : Sends t userID targetID statement
      (.send (.waiting userID targetID statement))

/-- What a step does to the tables. -/
inductive Change (db : DB) (others : List Phase) : Phase → DB → Phase → Prop where
  | read {p p' : Phase} (plain : p'.Plain) : Change db others p db p'
  | wait {userID targetID : ID} {statement : SendWrite}
      (found : statement = sendWrite db.tables userID targetID)
      (free : ∀ q ∈ others, q.holds ≠ some (friendPairLockKey userID targetID)) :
      Change db others (.send (.permitted userID targetID)) db
        (.send (.waiting userID targetID statement))
  | send {p : Phase} {userID targetID : ID} {statement : SendWrite} {accepted : Bool} {db' : DB}
      (sends : Sends db.tables userID targetID statement p)
      (free : p.holds = some (friendPairLockKey userID targetID) ∨
        ∀ q ∈ others, q.holds ≠ some (friendPairLockKey userID targetID))
      (write : statement.run db userID targetID = .ok (accepted, db')) :
      Change db others p db' (.send (.sent userID accepted))
  | accept {userID requesterID : ID} {db' : DB}
      (write : FriendStore.acceptFriendRequest db userID requesterID = .ok db') :
      Change db others (.accept (.begun userID requesterID)) db'
        (.accept (.accepted userID requesterID))
  | delete {p : Phase} {what : String} {rows : Friendship → Bool} {db' : DB}
      (write : deleteFriendships what rows db = .ok db') : Change db others p db' done
  | activate {channelID : ID} {db' : DB}
      (write : ChatStore.updateDMStatus db channelID .active = .ok db') :
      Change db others (.accept (.activating channelID)) db' done
  | unfriend {userID targetID : ID} {new : Bool} :
      Change db others (.block (.inserted userID targetID new)) db
        (.block (.removed userID targetID new
          ((removeFriendshipsByUserTx db.tables userID targetID).map key)))
  | block {userID targetID : ID} {new : Bool} {deleted : List (ID × ID)} {db' : DB}
      (write : commit (blocked db.tables userID targetID new deleted) = .ok db') :
      Change db others (.block (.removed userID targetID new deleted)) db' done
  | unblock {userID targetID : ID} {db' : DB}
      (write : unblockUser db userID targetID = .ok db') :
      Change db others (.unblock userID targetID) db' done

section Steps

variable {db db' : DB} {others : List Phase} {p' : Phase}

theorem plain_refuse (e : ConnectError) : (refuse e).Plain := ⟨rfl, rfl⟩

theorem plain_done : done.Plain := ⟨rfl, rfl⟩

/-- A query changes nothing and does not wait. -/
theorem answer_change {α : Type} {p : Phase} {r : Except ConnectError α} {k : α → Phase}
    (h : some (answer db r k) = some (db', p')) (hk : ∀ a, r = .ok a → (k a).Plain) :
    Change db others p db' p' := by
  obtain ⟨rfl, ⟨a, hr, rfl⟩ | ⟨e, rfl⟩⟩ := Pool.answer_cases (some.inj h)
  · exact .read (hk a hr)
  · exact .read (plain_refuse e)

theorem statement_change {p k : Phase} {rows : Friendship → Bool} {r : Except StoreError DB}
    (h : statement db others rows r k = some (db', p'))
    (hk : r = .ok db' → Change db others p db' k) : Change db others p db' p' := by
  unfold statement at h
  split at h
  · cases h
  · rcases Pool.write_cases (some.inj h) with ⟨u, hr, rfl⟩ | ⟨rfl, rfl⟩
    · exact hk (map_unit_ok hr)
    · exact .read (plain_refuse _)

theorem send_change {p : Phase} {userID targetID : ID} {statement : SendWrite}
    (h : some (write db (statement.run db userID targetID)
      fun accepted => .send (.sent userID accepted)) = some (db', p'))
    (hsends : Sends db.tables userID targetID statement p)
    (hfree : p.holds = some (friendPairLockKey userID targetID) ∨
      ∀ q ∈ others, q.holds ≠ some (friendPairLockKey userID targetID)) :
    Change db others p db' p' := by
  rcases Pool.write_cases (some.inj h) with ⟨accepted, hr, rfl⟩ | ⟨rfl, rfl⟩
  · exact Change.send hsends hfree hr
  · exact .read (plain_refuse _)

theorem sendNext_change {count : Nat} {p : SendPhase}
    (h : sendNext db others count p = some (db', p')) : Change db others (.send p) db' p' := by
  cases p with
  | begun userID req =>
    refine answer_change h ?_
    intro p hp
    obtain ⟨_, -, hp⟩ := bind_eq_ok.mp hp
    obtain ⟨target, -, hp⟩ := bind_eq_ok.mp hp
    cases target with
    | id targetID =>
      obtain ⟨_, -, hp⟩ := bind_eq_ok.mp hp
      cases hp
      exact ⟨rfl, rfl⟩
    | username username =>
      cases hp
      exact ⟨rfl, rfl⟩
  | named userID username =>
    refine answer_change h ?_
    intro p hp
    obtain ⟨target, -, hp⟩ := bind_eq_ok.mp hp
    obtain ⟨_, -, hp⟩ := bind_eq_ok.mp hp
    cases hp
    exact ⟨rfl, rfl⟩
  | resolved | unblocked | strangers | sent => exact answer_change h fun _ _ => ⟨rfl, rfl⟩
  | counted userID targetID known =>
    refine answer_change h ?_
    intro _ _
    cases known with
    | none | some => exact ⟨rfl, rfl⟩
  | found userID targetID target =>
    refine answer_change h ?_
    intro _ _
    cases target.friendRequestPrivacy with
    | nobody => exact plain_refuse _
    | serverCoMembers | everyone => exact ⟨rfl, rfl⟩
  | permitted userID targetID =>
    simp only [sendNext] at h
    split at h
    · cases h
    · rename_i hheld
      -- no other transaction holds the advisory lock of the pair
      have hfree : ∀ q ∈ others, q.holds ≠ some (friendPairLockKey userID targetID) := by
        intro q hq hholds
        exact hheld (List.any_eq_true.mpr ⟨q, hq, decide_eq_true hholds⟩)
      split at h
      · cases h
        exact Change.wait rfl hfree
      · exact send_change h Sends.permitted (Or.inr hfree)
  | waiting userID targetID statement =>
    simp only [sendNext] at h
    split at h
    · cases h
    · exact send_change h Sends.waiting (Or.inl rfl)

theorem SendPhase.plain_failed (p : SendPhase) : p.failed.Plain := by
  cases p <;> exact plain_refuse _

theorem acceptNext_change {p : AcceptPhase} (h : acceptNext db others p = some (db', p')) :
    Change db others (.accept p) db' p' := by
  cases p with
  | begun userID requesterID => exact statement_change h Change.accept
  | accepted userID requesterID =>
    simp only [acceptNext] at h
    split at h
    · cases h
      exact .read plain_done
    · split at h
      · cases h
        exact .read ⟨rfl, rfl⟩
      · cases h
        exact .read plain_done
  | activating channelID =>
    rcases Pool.write_cases (some.inj h) with ⟨u, hr, rfl⟩ | ⟨rfl, rfl⟩
    · exact Change.activate (map_unit_ok hr)
    · exact .read plain_done

theorem AcceptPhase.plain_failed (p : AcceptPhase) : p.failed.Plain := by
  cases p with
  | begun userID requesterID => exact plain_refuse _
  | accepted | activating => exact plain_done

theorem blockNext_change {p : BlockPhase} (h : blockNext db others p = some (db', p')) :
    Change db others (.block p) db' p' := by
  cases p with
  | begun userID targetID =>
    simp only [blockNext] at h
    split at h
    · cases h
    · exact answer_change h fun _ _ => ⟨rfl, rfl⟩
  | inserted userID targetID new =>
    simp only [blockNext] at h
    split at h
    · cases h
    · cases h
      exact Change.unfriend
  | removed userID targetID new deleted =>
    rcases Pool.write_cases (some.inj h) with ⟨u, hr, rfl⟩ | ⟨rfl, rfl⟩
    · exact Change.block (map_unit_ok hr)
    · exact .read (plain_refuse _)

theorem next_change {p : Phase} {outcome : Outcome}
    (h : next db others p outcome = some (db', p')) : Change db others p db' p' := by
  cases p with
  | returned result => cases h
  | send p =>
    simp only [next] at h
    split at h
    · cases h
      exact .read p.plain_failed
    · exact sendNext_change h
  | accept p =>
    simp only [next] at h
    split at h
    · cases h
      exact .read p.plain_failed
    · exact acceptNext_change h
  | decline | cancel | remove =>
    simp only [next] at h
    split at h
    · cases h
      exact .read (plain_refuse _)
    · exact statement_change h Change.delete
  | block p =>
    simp only [next] at h
    split at h
    · cases h
      exact .read (plain_refuse _)
    · exact blockNext_change h
  | unblock userID targetID =>
    simp only [next] at h
    split at h
    · cases h
      exact .read (plain_refuse _)
    · rcases Pool.write_cases (some.inj h) with ⟨u, hr, rfl⟩ | ⟨rfl, rfl⟩
      · exact Change.unblock (map_unit_ok hr)
      · exact .read (plain_refuse _)

end Steps

end Meza.Social.Friending
