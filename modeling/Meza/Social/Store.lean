import Mathlib.Data.String.Basic
import Mathlib.Data.Sym.Sym2
import Meza.Rpc
import Meza.Store.Schema

/-! # Friends, blocks and direct messages: the tables

    The columns of `users`, `members`, `friendships`, `user_blocks`, `channels`
    and `channel_members` that friend requests, blocks and one-to-one DMs read
    and write, the constraints on them, and the queries of `FriendStore`,
    `BlockStore` and `ChatStore` they go through. Every row of `channels` here
    is a DM channel (type 3). -/

namespace Meza.Social
open Table Store ChannelMember

open Store (ID StoreError oneRow refuseIf)

/-! ## Section 1: Rows -/

inductive DMPrivacy where
  | anyone
  | messageRequests
  | friends
  | mutualServers
  | nobody
  deriving DecidableEq, Repr

inductive FriendRequestPrivacy where
  | everyone
  | serverCoMembers
  | nobody
  deriving DecidableEq, Repr

structure User where
  id : ID
  username : String := ""
  isFederated : Bool := false
  dmPrivacy : DMPrivacy := .messageRequests
  friendRequestPrivacy : FriendRequestPrivacy := .everyone
  deriving DecidableEq, Repr

inductive FriendStatus where
  | pending
  | accepted
  deriving DecidableEq, Repr

structure Friendship where
  requesterID : ID
  addresseeID : ID
  status : FriendStatus := .pending
  deriving DecidableEq, Repr

structure UserBlock where
  blockerID : ID
  blockedID : ID
  deriving DecidableEq, Repr

inductive DMStatus where
  | active
  | pending
  | declined
  deriving DecidableEq, Repr

/-- `dmInitiatorID` is empty where the column is null. -/
structure Channel where
  id : ID
  dmPairKey : String
  dmStatus : DMStatus := .active
  dmInitiatorID : ID := ""
  deriving DecidableEq, Repr

structure Tables where
  users : List User := []
  members : List Member := []
  friendships : List Friendship := []
  userBlocks : List UserBlock := []
  channels : List Channel := []
  channelMembers : List ChannelMember := []
  deriving DecidableEq, Repr

/-! ## Section 2: Constraints -/

def Friendship.key (f : Friendship) : ID × ID := (f.requesterID, f.addresseeID)

/-- The two users, in no order. -/
def Friendship.pair (f : Friendship) : Sym2 ID := s(f.requesterID, f.addresseeID)

def UserBlock.key (b : UserBlock) : ID × ID := (b.blockerID, b.blockedID)

/-- The rows that `idx_friendships_unique_pair_accepted` indexes. -/
def acceptedRows (friendships : List Friendship) : List Friendship :=
  friendships.filter fun f => f.status = .accepted

@[mk_iff]
structure Tables.Constraints (t : Tables) : Prop where
  usersPK : UniqueOn User.id t.users
  friendshipsPK : UniqueOn Friendship.key t.friendships
  friendshipsDistinct : ∀ f ∈ t.friendships, f.requesterID ≠ f.addresseeID
  friendshipsUsers : ∀ f ∈ t.friendships,
    f.requesterID ∈ t.users.map (·.id) ∧ f.addresseeID ∈ t.users.map (·.id)
  friendshipsAccepted : UniqueOn Friendship.pair (acceptedRows t.friendships)
  userBlocksPK : UniqueOn UserBlock.key t.userBlocks
  userBlocksUsers : ∀ b ∈ t.userBlocks,
    b.blockerID ∈ t.users.map (·.id) ∧ b.blockedID ∈ t.users.map (·.id)
  channelsPK : UniqueOn Channel.id t.channels
  channelsPairKey : UniqueOn Channel.dmPairKey t.channels
  channelMembersPK : UniqueOn key t.channelMembers
  channelMembersChannel : ∀ cm ∈ t.channelMembers, cm.channelID ∈ t.channels.map (·.id)
  channelMembersUser : ∀ cm ∈ t.channelMembers, cm.userID ∈ t.users.map (·.id)

instance (t : Tables) : Decidable t.Constraints :=
  decidable_of_iff' _ (Tables.constraints_iff t)

/-- A committed state of these tables. -/
structure DB where
  tables : Tables
  constraints : tables.Constraints

/-- Ends a transaction: PostgreSQL accepts the new tables or refuses them. -/
def commit (t : Tables) : Except StoreError DB :=
  if h : t.Constraints then .ok ⟨t, h⟩ else .error .constraint

variable {t : Tables}

theorem commit_ok {db : DB} (h : commit t = .ok db) : db.tables = t := by
  unfold commit at h
  split at h
  · injection h with h
    rw [← h]
  · cases h

/-! ## Section 3: Users and members -/

/-- The pre-seeded user of system messages. -/
def systemUserID : ID := "00000000000000000000000000"

def AuthStore.getUserByID (t : Tables) (userID : ID) : Except StoreError User :=
  oneRow (.refused "user not found") (lookup User.id userID t.users)

def AuthStore.getUserByUsername (t : Tables) (username : String) : Except StoreError User :=
  oneRow (.refused "user not found")
    (t.users.find? fun u => u.username = username ∧ u.isFederated = false)

def ChatStore.shareAnyServer (t : Tables) (userID₁ userID₂ : ID) : Bool :=
  t.members.any fun m₁ => t.members.any fun m₂ =>
    m₁.serverID = m₂.serverID ∧ m₁.userID = userID₁ ∧ m₂.userID = userID₂

/-! ## Section 4: `FriendStore` -/

/-- The row is about these two users, in either direction. -/
def Friendship.joins (a b : ID) (f : Friendship) : Bool :=
  (f.requesterID = a ∧ f.addresseeID = b) ∨ (f.requesterID = b ∧ f.addresseeID = a)

/-- The row is this user's open request to the other. -/
def Friendship.requests (requesterID addresseeID : ID) (f : Friendship) : Bool :=
  f.requesterID = requesterID ∧ f.addresseeID = addresseeID ∧ f.status = .pending

namespace FriendStore

def fnv64a (bytes : List UInt8) : UInt64 :=
  bytes.foldl (fun h b => (h ^^^ b.toUInt64) * 1099511628211) 14695981039346656037

/-- The key of the advisory lock that `SendFriendRequest` takes. -/
def friendPairLockKey (a b : ID) : Int64 :=
  let (a, b) := if b < a then (b, a) else (a, b)
  (fnv64a (a.toUTF8.toList ++ [0] ++ b.toUTF8.toList)).toInt64

def areFriends (t : Tables) (userA userB : ID) : Bool :=
  t.friendships.any fun f => f.joins userA userB ∧ f.status = .accepted

def hasRequested (t : Tables) (requesterID addresseeID : ID) : Bool :=
  t.friendships.any fun f => f.requests requesterID addresseeID

def countPendingOutgoingRequests (t : Tables) (userID : ID) : Nat :=
  (t.friendships.filter fun f => f.requesterID = userID ∧ f.status = .pending).length

/-- The `UPDATE` that turns an open request into a friendship. -/
def acceptRequest (requesterID addresseeID : ID) (friendships : List Friendship) :
    List Friendship :=
  updateWhere (Friendship.requests requesterID addresseeID)
    (fun f => { f with status := .accepted }) friendships

/-- Which statement `SendFriendRequest` ends with, by what its two `SELECT`s have found. -/
inductive SendWrite where
  /-- Nothing: the two are friends. -/
  | keep
  /-- `UPDATE` of the request in the other direction. -/
  | acceptReverse
  /-- `INSERT ... ON CONFLICT DO NOTHING` -/
  | insert
  deriving DecidableEq, Repr

def sendWrite (t : Tables) (requesterID addresseeID : ID) : SendWrite :=
  if areFriends t requesterID addresseeID then .keep
  else if hasRequested t addresseeID requesterID then .acceptReverse
  else .insert

/-- The statement and the commit, with the answer whether the request was accepted. -/
def SendWrite.run (db : DB) (requesterID addresseeID : ID) :
    SendWrite → Except StoreError (Bool × DB)
  | .keep => .ok (true, db)
  | .acceptReverse =>
    (commit { db.tables with
      friendships := acceptRequest addresseeID requesterID db.tables.friendships }).map (true, ·)
  | .insert =>
    (commit { db.tables with
      friendships := insertNew Friendship.key { requesterID, addresseeID }
        db.tables.friendships }).map (false, ·)

/-- `between` is what other requests commit after the two `SELECT`s. -/
def sendFriendRequest (between : DB → DB) (db : DB) (requesterID addresseeID : ID) :
    Except StoreError (Bool × DB) :=
  (sendWrite db.tables requesterID addresseeID).run (between db) requesterID addresseeID

def acceptFriendRequest (db : DB) (addresseeID requesterID : ID) : Except StoreError DB := do
  refuseIf (¬ hasRequested db.tables requesterID addresseeID) (.notFound "accept friend request")
  commit { db.tables with
    friendships := acceptRequest requesterID addresseeID db.tables.friendships }

/-- A `DELETE` of friendships that must find one. -/
def deleteFriendships (what : String) (p : Friendship → Bool) (db : DB) : Except StoreError DB := do
  refuseIf (¬ db.tables.friendships.any p) (.notFound what)
  commit { db.tables with friendships := deleteWhere p db.tables.friendships }

def declineFriendRequest (db : DB) (addresseeID requesterID : ID) : Except StoreError DB :=
  deleteFriendships "decline friend request" (Friendship.requests requesterID addresseeID) db

def cancelFriendRequest (db : DB) (requesterID addresseeID : ID) : Except StoreError DB :=
  deleteFriendships "cancel friend request" (Friendship.requests requesterID addresseeID) db

def removeFriend (db : DB) (userA userB : ID) : Except StoreError DB :=
  deleteFriendships "remove friend" (fun f => f.joins userA userB ∧ f.status = .accepted) db

/-- The rows that `RemoveFriendshipsByUserTx` deletes. -/
def removeFriendshipsByUserTx (t : Tables) (userID otherID : ID) : List Friendship :=
  t.friendships.filter (Friendship.joins userID otherID)

end FriendStore

/-! ## Section 5: `BlockStore` -/

namespace BlockStore

def isBlockedEither (t : Tables) (userA userB : ID) : Bool :=
  t.userBlocks.any fun b =>
    (b.blockerID = userA ∧ b.blockedID = userB) ∨ (b.blockerID = userB ∧ b.blockedID = userA)

/-- The rows after `BlockUserTx`. -/
def blockUserTx (blockerID blockedID : ID) (userBlocks : List UserBlock) : List UserBlock :=
  insertNew UserBlock.key { blockerID, blockedID } userBlocks

def unblockUser (db : DB) (blockerID blockedID : ID) : Except StoreError DB :=
  commit { db.tables with
    userBlocks := deleteWhere (fun b => b.blockerID = blockerID ∧ b.blockedID = blockedID)
      db.tables.userBlocks }

end BlockStore

/-! ## Section 6: DM channels -/

namespace ChatStore

/-- One key for both orders of the two users. -/
def dmPairKey (userID₁ userID₂ : ID) : String :=
  if userID₁ < userID₂ then userID₁ ++ ":" ++ userID₂ else userID₂ ++ ":" ++ userID₁

def getDMChannelByPairKey (t : Tables) (userID₁ userID₂ : ID) : Option Channel :=
  lookup Channel.dmPairKey (dmPairKey userID₁ userID₂) t.channels

def updateDMStatus (db : DB) (channelID : ID) (status : DMStatus) : Except StoreError DB :=
  commit { db.tables with
    channels := updateWhere (fun c => c.id = channelID)
      (fun c => { c with dmStatus := status }) db.tables.channels }

/-- The two rows of `channel_members` for a new DM, or one for a DM with oneself. -/
def withParticipants (channelID userID₁ userID₂ : ID) (members : List ChannelMember) :
    List ChannelMember :=
  insertNew key { channelID, userID := userID₂ }
    (insertNew key { channelID, userID := userID₁ } members)

/-- The tables with a new DM. -/
def insertDMChannel (t : Tables) (ch : Channel) (userID₁ userID₂ : ID) : Tables :=
  { t with
    channels := t.channels ++ [ch]
    channelMembers := withParticipants ch.id userID₁ userID₂ t.channelMembers }

end ChatStore

/-! ## Section 7: What the queries find and write -/

theorem FriendStore.friendPairLockKey_comm (a b : ID) :
    FriendStore.friendPairLockKey a b = FriendStore.friendPairLockKey b a := by
  unfold FriendStore.friendPairLockKey
  rcases lt_trichotomy a b with h | rfl | h
  · simp only [h, not_lt_of_gt h, if_true, if_false]
  · rfl
  · simp only [h, not_lt_of_gt h, if_true, if_false]

theorem ChatStore.dmPairKey_comm (a b : ID) :
    ChatStore.dmPairKey a b = ChatStore.dmPairKey b a := by
  unfold ChatStore.dmPairKey
  rcases lt_trichotomy a b with h | rfl | h
  · simp only [h, not_lt_of_gt h, if_true, if_false]
  · rfl
  · simp only [h, not_lt_of_gt h, if_true, if_false]

@[simp]
theorem Friendship.joins_iff {a b : ID} {f : Friendship} :
    f.joins a b = true ↔ f.pair = s(a, b) := by
  unfold Friendship.joins Friendship.pair
  rw [decide_eq_true_iff, Sym2.eq_iff]

theorem ChatStore.mem_withParticipants {channelID a b : ID} {members : List ChannelMember}
    {cm : ChannelMember} (h : cm ∈ ChatStore.withParticipants channelID a b members) :
    cm ∈ members ∨ (cm.channelID = channelID ∧ (cm.userID = a ∨ cm.userID = b)) := by
  rcases mem_insertNew.mp h with h | ⟨rfl, -⟩
  · rcases mem_insertNew.mp h with h | ⟨rfl, -⟩
    · exact Or.inl h
    · exact Or.inr ⟨rfl, Or.inl rfl⟩
  · exact Or.inr ⟨rfl, Or.inr rfl⟩

theorem Friendship.pair_of_requests {a b : ID} {f : Friendship} (h : f.requests a b = true) :
    f.pair = s(a, b) := by
  obtain ⟨hreq, haddr, -⟩ := of_decide_eq_true h
  unfold Friendship.pair
  rw [hreq, haddr]

theorem BlockStore.isBlockedEither_iff {a b : ID} :
    BlockStore.isBlockedEither t a b = true ↔
      ∃ x ∈ t.userBlocks, s(x.blockerID, x.blockedID) = s(a, b) := by
  unfold BlockStore.isBlockedEither
  rw [List.any_eq_true]
  simp only [decide_eq_true_iff, Sym2.eq_iff]

theorem FriendStore.areFriends_iff {a b : ID} :
    FriendStore.areFriends t a b = true ↔
      ∃ f ∈ t.friendships, f.pair = s(a, b) ∧ f.status = .accepted := by
  unfold FriendStore.areFriends
  rw [List.any_eq_true]
  simp only [decide_eq_true_iff, Friendship.joins_iff]

theorem FriendStore.hasRequested_iff {a b : ID} :
    FriendStore.hasRequested t a b = true ↔ ∃ f ∈ t.friendships, f.requests a b = true := by
  unfold FriendStore.hasRequested
  rw [List.any_eq_true]

theorem FriendStore.map_key_acceptRequest (a b : ID) (rows : List Friendship) :
    (FriendStore.acceptRequest a b rows).map Friendship.key = rows.map Friendship.key := by
  unfold FriendStore.acceptRequest
  rw [map_key_updateWhere]
  intro f
  rfl

section Writes

variable {db db' : DB} {a b : ID}

theorem FriendStore.acceptFriendRequest_ok (h : FriendStore.acceptFriendRequest db a b = .ok db') :
    FriendStore.hasRequested db.tables b a = true ∧
      db'.tables = { db.tables with
        friendships := FriendStore.acceptRequest b a db.tables.friendships } := by
  obtain ⟨_, hreq, hcommit⟩ := bind_eq_ok.mp h
  exact ⟨not_not.mp (refuseIf_ok.mp hreq), commit_ok hcommit⟩

theorem FriendStore.deleteFriendships_ok {what : String} {p : Friendship → Bool}
    (h : FriendStore.deleteFriendships what p db = .ok db') :
    db'.tables = { db.tables with
      friendships := deleteWhere p db.tables.friendships } := by
  obtain ⟨_, _, hcommit⟩ := bind_eq_ok.mp h
  exact commit_ok hcommit

theorem BlockStore.unblockUser_ok (h : BlockStore.unblockUser db a b = .ok db') :
    db'.tables = { db.tables with
      userBlocks := deleteWhere (fun x => x.blockerID = a ∧ x.blockedID = b)
        db.tables.userBlocks } :=
  commit_ok h

theorem ChatStore.updateDMStatus_ok {channelID : ID} {status : DMStatus}
    (h : ChatStore.updateDMStatus db channelID status = .ok db') :
    db'.tables = { db.tables with
      channels := updateWhere (fun c => c.id = channelID)
        (fun c => { c with dmStatus := status }) db.tables.channels } :=
  commit_ok h

/-- What the last statement of `SendFriendRequest` leaves behind. -/
theorem FriendStore.SendWrite.run_ok {write : FriendStore.SendWrite} {accepted : Bool}
    (h : write.run db a b = .ok (accepted, db')) :
    (write = .keep ∧ accepted = true ∧ db' = db) ∨
    (write = .acceptReverse ∧ accepted = true ∧
      db'.tables = { db.tables with
        friendships := FriendStore.acceptRequest b a db.tables.friendships }) ∨
    (write = .insert ∧ accepted = false ∧
      db'.tables = { db.tables with
        friendships := insertNew Friendship.key { requesterID := a, addresseeID := b }
          db.tables.friendships }) := by
  cases write with
  | keep =>
    left
    cases h
    exact ⟨rfl, rfl, rfl⟩
  | acceptReverse =>
    right; left
    obtain ⟨after, hcommit, heq⟩ := map_eq_ok.mp h
    cases heq
    exact ⟨rfl, rfl, commit_ok hcommit⟩
  | insert =>
    right; right
    obtain ⟨after, hcommit, heq⟩ := map_eq_ok.mp h
    cases heq
    exact ⟨rfl, rfl, commit_ok hcommit⟩

end Writes

end Meza.Social
