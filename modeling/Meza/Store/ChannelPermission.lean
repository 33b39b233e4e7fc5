import Meza.Store.OverrideStore
import Meza.Lib.Paging
import Mathlib.Data.String.Basic

/-! # Who may view a channel

    `ChannelPermissionStore` answers the question for one user
    (`hasViewChannel`) and lists all members for whom the answer is yes
    (`listMembersWithViewChannel`). The key service asks it before it hands
    out channel keys. A query that fails is not modelled: the store then
    answers no. -/

namespace Meza.Store

open Permissions

/-! ## Section 1: One user -/

/-- The channel's server, category and the server's owner. DM channels have no
    server and yield no row. -/
def channelServer (t : Tables) (channelID : ID) : Option (Server × Option ID) :=
  (Table.lookup Channel.id channelID t.channels).bind fun c =>
    (c.serverID.bind fun serverID => Table.lookup Server.id serverID t.servers).map
      (·, c.channelGroupID)

/-- `SELECT EXISTS(SELECT 1 FROM channel_members …)`. -/
def isChannelMember (t : Tables) (channelID userID : ID) : Bool :=
  t.channelMembers.any fun cm => cm.channelID = channelID ∧ cm.userID = userID

/-- Checks if the user is a member of a DM channel. -/
def isDMParticipant (t : Tables) (channelID userID : ID) : Bool :=
  isChannelMember t channelID userID

/-- The role ids of `member_roles`. -/
def Tables.roleIDsOf (t : Tables) (userID serverID : ID) : List ID :=
  (t.memberRoles.filter fun mr => mr.userID = userID ∧ mr.serverID = serverID).map (·.roleID)

/-- Permissions of the role whose id is the server's, 0 if there is none. -/
def Tables.everyonePerms (t : Tables) (serverID : ID) : Mask :=
  ((Table.lookup Role.id serverID t.roles).map (·.permissions)).getD 0

/-- `SELECT permissions FROM roles WHERE id = ANY($1) AND server_id = $2`. -/
def Tables.rolePerms (t : Tables) (roleIDs : List ID) (serverID : ID) : List Mask :=
  (t.roles.filter fun r => r.id ∈ roleIDs ∧ r.serverID = serverID).map (·.permissions)

/-- The store's own query; the caller passes the category. -/
def getAllOverrides (t : Tables) (channelID : ID) (channelGroupID : Option ID)
    (roleIDs : List ID) (userID : ID) : ChannelOverrides :=
  collectOverrides (t.permissionOverrides.filter fun po =>
    po.targets channelID channelGroupID && po.concerns roleIDs userID)

/-- The resolver's input for a member who is not the owner. -/
def viewInput (t : Tables) (serverID channelID : ID) (channelGroupID : Option ID)
    (member : Member) : ResolveInput :=
  let roleIDs := t.roleIDsOf member.userID serverID
  let overrides := getAllOverrides t channelID channelGroupID (serverID :: roleIDs) member.userID
  { everyonePerms := t.everyonePerms serverID
    rolePerms := t.rolePerms roleIDs serverID
    isOwner := false
    timedOutUntil := member.timedOutUntil.getD 0
    groupRoleOverrides := overrides.groupRoleOverrides
    channelRoleOverrides := overrides.channelRoleOverrides
    groupUserOverride := overrides.groupUserOverride
    channelUserOverride := overrides.channelUserOverride }

def hasViewChannel (t : Tables) (nowUnix : Int) (userID channelID : ID) : Bool :=
  match channelServer t channelID with
  | none => isDMParticipant t channelID userID
  | some (server, channelGroupID) =>
    -- Owner bypass, before membership is looked at.
    if server.ownerID = userID then true
    else
      match Table.lookup Member.key (userID, server.id) t.members with
      | none => false
      | some member =>
        has (resolveEffective (viewInput t server.id channelID channelGroupID member) nowUnix)
          viewChannel

end Meza.Store
