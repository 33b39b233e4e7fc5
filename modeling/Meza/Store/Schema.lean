import Meza.Lib.Table
import Meza.Permissions.Resolve

/-! # The tables

    The PostgreSQL tables behind the chat and key services, with the columns
    the modelled queries read, and the constraints the migrations declare.
    PostgreSQL refuses a change that breaks a constraint, so a database state
    carries the proof that its tables meet them. -/

namespace Meza.Store
open Table

open Permissions (Mask)

abbrev ID : Type := String

/-- The largest value of an `INTEGER` column. -/
def maxInt4 : Nat := 2147483647

/-! ## Section 1: Rows -/

structure User where
  id : ID
  signingPublicKey : Option (List UInt8)
  username : String := ""
  displayName : String := ""
  deriving DecidableEq, Repr

structure Server where
  id : ID
  ownerID : ID
  onboardingEnabled : Bool := false
  rulesRequired : Bool := false
  defaultChannelPrivacy : Bool := false
  deriving DecidableEq, Repr

/-- Timestamps are Unix seconds. -/
structure Member where
  userID : ID
  serverID : ID
  nickname : String := ""
  timedOutUntil : Option Int := none
  onboardingCompletedAt : Option Int := none
  rulesAcknowledgedAt : Option Int := none
  deriving DecidableEq, Repr

structure ChannelGroup where
  id : ID
  serverID : ID
  deriving DecidableEq, Repr

/-- `serverID` is `none` for DM and group DM channels. -/
structure Channel where
  id : ID
  serverID : Option ID
  channelGroupID : Option ID := none
  name : String
  type : Nat := 1
  topic : String := ""
  position : Int := 0
  isPrivate : Bool := false
  isDefault : Bool := false
  slowModeSeconds : Option Int := none
  voiceTextChannelID : Option ID := none
  contentWarning : String := ""
  permissionsSynced : Bool := false
  deriving DecidableEq, Repr

structure ChannelMember where
  channelID : ID
  userID : ID
  deriving DecidableEq, Repr

structure Role where
  id : ID
  serverID : ID
  name : String
  permissions : Mask
  color : Int := 0
  position : Nat
  isSelfAssignable : Bool := false
  deriving DecidableEq, Repr

structure MemberRole where
  userID : ID
  serverID : ID
  roleID : ID
  deriving DecidableEq, Repr

structure Ban where
  serverID : ID
  userID : ID
  reason : Option String := none
  bannedBy : Option ID := none
  deriving DecidableEq, Repr

/-- The target columns `channel_group_id` and `channel_id`, exactly one of
    which is set. -/
inductive OverrideScope where
  | group (id : ID)
  | channel (id : ID)
  deriving DecidableEq, Repr

/-- The columns `role_id` and `user_id`, exactly one of which is set. -/
inductive OverrideSubject where
  | role (id : ID)
  | user (id : ID)
  deriving DecidableEq, Repr

structure PermissionOverride where
  id : ID
  scope : OverrideScope
  subject : OverrideSubject
  allow : Mask
  deny : Mask
  deriving DecidableEq, Repr

structure Invite where
  code : String
  serverID : ID
  creatorID : ID
  maxUses : Nat := 0
  useCount : Nat := 0
  expiresAt : Option Int := none
  revoked : Bool := false
  /-- The key bundle for those who join: the ciphertext and its nonce. -/
  encryptedChannelKeys : Option (List UInt8) := none
  channelKeysIV : Option (List UInt8) := none
  deriving DecidableEq, Repr

structure Tables where
  users : List User := []
  servers : List Server := []
  members : List Member := []
  channelGroups : List ChannelGroup := []
  channels : List Channel := []
  channelMembers : List ChannelMember := []
  roles : List Role := []
  memberRoles : List MemberRole := []
  bans : List Ban := []
  permissionOverrides : List PermissionOverride := []
  invites : List Invite := []
  deriving DecidableEq, Repr

/-! ## Section 2: Keys and constraints -/

def Member.key (m : Member) : ID × ID := (m.userID, m.serverID)
def ChannelMember.key (cm : ChannelMember) : ID × ID := (cm.channelID, cm.userID)
def Role.rank (r : Role) : ID × Nat := (r.serverID, r.position)
def Ban.key (b : Ban) : ID × ID := (b.serverID, b.userID)
def PermissionOverride.target (po : PermissionOverride) : OverrideScope × OverrideSubject :=
  (po.scope, po.subject)

/-- A nullable reference points to an existing row. -/
def References (ref : Option ID) (ids : List ID) : Prop := ∀ id ∈ ref, id ∈ ids

instance (ref : Option ID) (ids : List ID) : Decidable (References ref ids) :=
  inferInstanceAs (Decidable (∀ id ∈ ref, id ∈ ids))

/-- The channels that `channels_server_id_name_key` indexes. -/
def Channel.indexedName (c : Channel) : Option (ID × String) :=
  if c.voiceTextChannelID = none then c.serverID.map (·, c.name) else none

/-- The row an override is attached to exists. -/
def OverrideScope.Exists (t : Tables) : OverrideScope → Prop
  | .group id => id ∈ t.channelGroups.map (·.id)
  | .channel id => id ∈ t.channels.map (·.id)

instance (t : Tables) : ∀ scope : OverrideScope, Decidable (scope.Exists t)
  | .group id | .channel id => inferInstanceAs (Decidable (id ∈ _))

/-- The role or user an override is about exists. -/
def OverrideSubject.Exists (t : Tables) : OverrideSubject → Prop
  | .role id => id ∈ t.roles.map (·.id)
  | .user id => id ∈ t.users.map (·.id)

instance (t : Tables) : ∀ subject : OverrideSubject, Decidable (subject.Exists t)
  | .role id | .user id => inferInstanceAs (Decidable (id ∈ _))

/-- Constraints of `users`, `servers`, `members`, `bans` and `invites`. -/
@[mk_iff]
structure Tables.ServerConstraints (t : Tables) : Prop where
  usersPK : UniqueOn User.id t.users
  serversPK : UniqueOn Server.id t.servers
  serversOwner : ∀ s ∈ t.servers, s.ownerID ∈ t.users.map (·.id)
  membersPK : UniqueOn Member.key t.members
  membersUser : ∀ m ∈ t.members, m.userID ∈ t.users.map (·.id)
  membersServer : ∀ m ∈ t.members, m.serverID ∈ t.servers.map (·.id)
  bansPK : UniqueOn Ban.key t.bans
  bansServer : ∀ b ∈ t.bans, b.serverID ∈ t.servers.map (·.id)
  bansBy : ∀ b ∈ t.bans, References b.bannedBy (t.users.map (·.id))
  bansReason : ∀ b ∈ t.bans, ∀ reason ∈ b.reason, 1 ≤ reason.length ∧ reason.length ≤ 512
  invitesPK : UniqueOn Invite.code t.invites
  invitesServer : ∀ i ∈ t.invites, i.serverID ∈ t.servers.map (·.id)

/-- Constraints of `channel_groups`, `channels` and `channel_members`. -/
@[mk_iff]
structure Tables.ChannelConstraints (t : Tables) : Prop where
  groupsPK : UniqueOn ChannelGroup.id t.channelGroups
  groupsServer : ∀ g ∈ t.channelGroups, g.serverID ∈ t.servers.map (·.id)
  channelsPK : UniqueOn Channel.id t.channels
  channelsServer : ∀ c ∈ t.channels, References c.serverID (t.servers.map (·.id))
  channelsGroup : ∀ c ∈ t.channels, References c.channelGroupID (t.channelGroups.map (·.id))
  channelsCompanion : ∀ c ∈ t.channels, References c.voiceTextChannelID (t.channels.map (·.id))
  channelsName : (t.channels.filterMap Channel.indexedName).Nodup
  channelsSynced : ∀ c ∈ t.channels, c.permissionsSynced = true → c.channelGroupID ≠ none
  channelsSlowMode : ∀ c ∈ t.channels, ∀ seconds ∈ c.slowModeSeconds, 0 ≤ seconds ∧ seconds ≤ 21600
  membersPK : UniqueOn ChannelMember.key t.channelMembers
  membersChannel : ∀ cm ∈ t.channelMembers, cm.channelID ∈ t.channels.map (·.id)
  membersUser : ∀ cm ∈ t.channelMembers, cm.userID ∈ t.users.map (·.id)

/-- Constraints of `roles`, `member_roles` and `permission_overrides`. -/
@[mk_iff]
structure Tables.RoleConstraints (t : Tables) : Prop where
  rolesPK : UniqueOn Role.id t.roles
  rolesServer : ∀ r ∈ t.roles, r.serverID ∈ t.servers.map (·.id)
  rolesRank : UniqueOn Role.rank t.roles
  rolesName : ∀ r ∈ t.roles, 1 ≤ r.name.length ∧ r.name.length ≤ 100
  rolesColor : ∀ r ∈ t.roles, 0 ≤ r.color ∧ r.color ≤ 16777215
  memberRolesPK : t.memberRoles.Nodup
  memberRolesRole : ∀ mr ∈ t.memberRoles, mr.roleID ∈ t.roles.map (·.id)
  memberRolesMember : ∀ mr ∈ t.memberRoles, (mr.userID, mr.serverID) ∈ t.members.map Member.key
  overridesPK : UniqueOn PermissionOverride.id t.permissionOverrides
  overridesTarget : UniqueOn PermissionOverride.target t.permissionOverrides
  overridesScope : ∀ po ∈ t.permissionOverrides, po.scope.Exists t
  overridesSubject : ∀ po ∈ t.permissionOverrides, po.subject.Exists t

/-- The primary keys, unique indexes, foreign keys and checks of the schema. -/
@[mk_iff]
structure Tables.Constraints (t : Tables) : Prop where
  servers : t.ServerConstraints
  channels : t.ChannelConstraints
  roles : t.RoleConstraints

instance (t : Tables) : Decidable t.ServerConstraints :=
  decidable_of_iff' _ (Tables.serverConstraints_iff t)

instance (t : Tables) : Decidable t.ChannelConstraints :=
  decidable_of_iff' _ (Tables.channelConstraints_iff t)

instance (t : Tables) : Decidable t.RoleConstraints :=
  decidable_of_iff' _ (Tables.roleConstraints_iff t)

instance (t : Tables) : Decidable t.Constraints :=
  decidable_of_iff' _ (Tables.constraints_iff t)

/-! ## Section 3: Database states -/

/-- A committed database state. -/
structure DB where
  tables : Tables
  constraints : tables.Constraints

/-- What a store call reports when it fails. -/
inductive StoreError where
  /-- An error that wraps `store.ErrNotFound`. -/
  | notFound (what : String)
  /-- An error that wraps `store.ErrAlreadyExists`. -/
  | alreadyExists (what : String)
  /-- The change would break a constraint. -/
  | constraint
  /-- A refusal that the service passes on to the client. -/
  | invalid (msg : String)
  /-- Any other error, with its text. -/
  | refused (msg : String)
  deriving DecidableEq, Repr

/-- The result of a query for one row. -/
def oneRow {α : Type} (error : StoreError) : Option α → Except StoreError α
  | none => .error error
  | some a => .ok a

theorem oneRow_ok {α : Type} {error : StoreError} {row : Option α} {a : α} :
    oneRow error row = .ok a ↔ row = some a := by
  rcases row with _ | b
  · simp [oneRow]
  · simp [oneRow]

/-- A store's own refusal under a condition. -/
def refuseIf (cond : Prop) [Decidable cond] (error : StoreError) : Except StoreError Unit :=
  if cond then .error error else .ok ()

theorem refuseIf_ok {cond : Prop} [Decidable cond] {error : StoreError} {u : Unit} :
    refuseIf cond error = .ok u ↔ ¬ cond := by
  unfold refuseIf
  by_cases h : cond
  · simp [h]
  · simp [h]

/-- Ends a transaction: PostgreSQL accepts the new tables or refuses them. -/
def commit (t : Tables) : Except StoreError DB :=
  if h : t.Constraints then .ok ⟨t, h⟩ else .error .constraint

theorem commit_ok {t : Tables} {db : DB} (h : commit t = .ok db) : db.tables = t := by
  unfold commit at h
  split at h
  · injection h with h
    rw [← h]
  · cases h

end Meza.Store
