import Meza.Store.Writing

/-! # Servers from templates

    `CreateServerFromTemplate` writes a whole server in one transaction: its
    categories and channels, its roles, and the overrides that hide private
    channels and gate categories. Specs refer to each other by name, and the
    store resolves the names while it draws the ids. -/

namespace Meza.Store.ChatStore

open Permissions List

/-! ## Section 1: The template -/

structure TemplateChannelSpec where
  name : String
  type : Nat := 1
  isDefault : Bool := false
  isPrivate : Bool := false
  /-- Roles that get access to a private channel. -/
  roleNames : List String := []
  /-- Empty for a channel without a category. -/
  groupName : String := ""
  deriving DecidableEq, Repr

/-- With roles to allow the category is gated: the others do not see it. -/
structure TemplateChannelGroupSpec where
  name : String
  allowedRoleNames : List String := []
  deriving DecidableEq, Repr

structure TemplateRoleSpec where
  name : String
  permissions : Mask
  color : Int := 0
  isSelfAssignable : Bool := false
  deriving DecidableEq, Repr

structure CreateServerFromTemplateParams where
  ownerID : ID
  onboardingEnabled : Bool := false
  rulesRequired : Bool := false
  defaultChannelPrivacy : Bool := false
  channels : List TemplateChannelSpec
  roles : List TemplateRoleSpec := []
  everyonePermissions : Option Mask := none
  channelGroups : List TemplateChannelGroupSpec := []
  deriving DecidableEq, Repr

/-- The ids that are drawn: by the place of a spec in its list, and for the
    overrides by what they are attached to. -/
structure TemplateIDs where
  serverID : ID
  group : Nat → ID
  channel : Nat → ID
  companion : Nat → ID
  role : Nat → ID
  deny : ID → ID
  allow : ID → Nat → ID

/-! ## Section 2: The rows -/

/-- A map from names to ids that is filled in order: the last of equal names wins. -/
def idByName (names : List String) (id : Nat → ID) (name : String) : Option ID :=
  (names.zipIdx.reverse.find? fun p => p.1 = name).map fun p => id p.2

section Rows

variable (ids : TemplateIDs) (params : CreateServerFromTemplateParams)

def templateGroups : List ChannelGroup :=
  params.channelGroups.zipIdx.map fun (_, i) => { id := ids.group i, serverID := ids.serverID }

/-- The category a channel asks for. -/
def templateGroupOf (spec : TemplateChannelSpec) : Option ID :=
  idByName (params.channelGroups.map (·.name)) ids.group spec.groupName

/-- The rows of one spec. A private channel gets overrides of its own, so it is
    never synced; the companion of a voice channel comes first. -/
def templateChannel (spec : TemplateChannelSpec) (i : Nat) : List Channel :=
  let channelGroupID := templateGroupOf ids params spec
  let ch : Channel :=
    { id := ids.channel i, serverID := some ids.serverID, channelGroupID, name := spec.name,
      type := spec.type, position := i, isPrivate := spec.isPrivate, isDefault := spec.isDefault,
      permissionsSynced := channelGroupID.isSome && !spec.isPrivate }
  if spec.type = 2 then
    [{ ch with id := ids.companion i, type := 1, isDefault := false },
     { ch with voiceTextChannelID := some (ids.companion i) }]
  else [ch]

def templateChannels : List Channel :=
  params.channels.zipIdx.flatMap fun (spec, i) => templateChannel ids params spec i

/-- Positions start at 1, above `@everyone`. -/
def templateRoles : List Role :=
  params.roles.zipIdx.map fun (spec, i) =>
    { id := ids.role i, serverID := ids.serverID, name := spec.name,
      permissions := spec.permissions, color := spec.color, position := i + 1,
      isSelfAssignable := spec.isSelfAssignable }

def everyoneRole : Role :=
  { id := ids.serverID, serverID := ids.serverID, name := "@everyone",
    permissions := params.everyonePermissions.getD defaultEveryonePermissions, position := 0 }

/-- Everyone is kept out and the named roles are let in; unknown names are left out. -/
def gateRows (scope : OverrideScope) (roleNames : List String) : List PermissionOverride :=
  { id := ids.deny scope.id, scope, subject := .role ids.serverID, allow := 0,
    deny := viewChannel } ::
  roleNames.zipIdx.filterMap fun (roleName, i) =>
    (idByName (params.roles.map (·.name)) ids.role roleName).map fun roleID =>
      { id := ids.allow scope.id i, scope, subject := .role roleID,
        allow := viewChannel ||| sendMessages, deny := 0 }

/-- The channels of one spec in the order in which they are returned. -/
def createdIDs (spec : TemplateChannelSpec) (i : Nat) : List ID :=
  if spec.type = 2 then [ids.channel i, ids.companion i] else [ids.channel i]

def channelGates : List PermissionOverride :=
  params.channels.zipIdx.flatMap fun (spec, i) =>
    if spec.isPrivate then
      (createdIDs ids spec i).flatMap fun channelID =>
        gateRows ids params (.channel channelID) spec.roleNames
    else []

def groupGates : List PermissionOverride :=
  params.channelGroups.zipIdx.flatMap fun (spec, i) =>
    if spec.allowedRoleNames = [] then []
    else gateRows ids params (.group (ids.group i)) spec.allowedRoleNames

def templateServer : Server :=
  { id := ids.serverID, ownerID := params.ownerID, onboardingEnabled := params.onboardingEnabled,
    rulesRequired := params.rulesRequired,
    defaultChannelPrivacy := params.defaultChannelPrivacy }

/-- The tables with the new server. -/
def withTemplate (t : Tables) : Tables :=
  { t with
    servers := t.servers ++ [templateServer ids params]
    members := t.members ++ [{ userID := params.ownerID, serverID := ids.serverID }]
    channelGroups := t.channelGroups ++ templateGroups ids params
    channels := t.channels ++ templateChannels ids params
    roles := t.roles ++ everyoneRole ids params :: templateRoles ids params
    permissionOverrides :=
      t.permissionOverrides ++ (channelGates ids params ++ groupGates ids params) }

/-- Also returns the ids of the channels. -/
def createServerFromTemplate (db : DB) : Except StoreError ((Server × List ID) × DB) := do
  -- `channels_type_check`
  refuseIf (∃ spec ∈ params.channels, 4 < spec.type) .constraint
  let db' ← commit (withTemplate ids params db.tables)
  return ((templateServer ids params,
    params.channels.zipIdx.flatMap fun (spec, i) => createdIDs ids spec i), db')

end Rows

/-- `InviteStore.CreateInvite`: a second code is drawn if the first is taken. -/
def createInvite (db : DB) (codes : String × String) (serverID creatorID : ID) (maxUses : Nat)
    (expiresAt : Option Int) (encryptedChannelKeys channelKeysIV : Option (List UInt8)) :
    Except StoreError (Invite × DB) := do
  let t := db.tables
  let code := if codes.1 ∈ t.invites.map (·.code) then codes.2 else codes.1
  let inv : Invite :=
    { code, serverID, creatorID, maxUses, expiresAt, encryptedChannelKeys, channelKeysIV }
  let db' ← commit { t with invites := t.invites ++ [inv] }
  return (inv, db')

/-! ## Section 3: What the rows refer to -/

section Facts

variable {ids : TemplateIDs} {params : CreateServerFromTemplateParams}

theorem createServerFromTemplate_ok {db db' : DB} {srv : Server} {channelIDs : List ID}
    (h : createServerFromTemplate ids params db = .ok ((srv, channelIDs), db')) :
    db'.tables = withTemplate ids params db.tables ∧ srv = templateServer ids params := by
  obtain ⟨_, -, h⟩ := bind_eq_ok.mp h
  obtain ⟨db₁, hcommit, h⟩ := bind_eq_ok.mp h
  injection h with h
  obtain ⟨hresult, rfl⟩ := Prod.mk.inj h
  exact ⟨commit_ok hcommit, (Prod.mk.inj hresult).1.symm⟩

theorem idByName_mem {names : List String} {id : Nat → ID} {name : String} {found : ID}
    (h : idByName names id name = some found) : ∃ i < names.length, found = id i := by
  obtain ⟨p, hp, rfl⟩ := Option.map_eq_some_iff.mp h
  have hmem := mem_reverse.mp (mem_of_find?_eq_some hp)
  obtain ⟨hlt, -⟩ := List.getElem?_eq_some_iff.mp (List.mem_zipIdx_iff_getElem?.mp hmem)
  exact ⟨p.2, hlt, rfl⟩

variable {c : Channel} {i : Nat} {spec : TemplateChannelSpec}

theorem templateGroupOf_mem {groupID : ID} (h : templateGroupOf ids params spec = some groupID) :
    ∃ g ∈ templateGroups ids params, g.id = groupID := by
  obtain ⟨i, hi, rfl⟩ := idByName_mem h
  rw [length_map] at hi
  refine ⟨_, mem_map.mpr ⟨(params.channelGroups[i], i), ?_, rfl⟩, rfl⟩
  exact mem_zipIdx_iff_getElem?.mpr (getElem?_eq_getElem hi)

theorem serverID_of_mem_templateGroups {g : ChannelGroup} (h : g ∈ templateGroups ids params) :
    g.serverID = ids.serverID := by
  obtain ⟨p, -, rfl⟩ := mem_map.mp h
  rfl

theorem of_mem_templateChannel (h : c ∈ templateChannel ids params spec i) :
    c.id ∈ createdIDs ids spec i ∧ c.serverID = some ids.serverID ∧
      c.channelGroupID = templateGroupOf ids params spec ∧ c.isPrivate = spec.isPrivate ∧
      c.permissionsSynced = ((templateGroupOf ids params spec).isSome && !spec.isPrivate) := by
  unfold templateChannel at h
  unfold createdIDs
  split at h
  · rename_i hvoice
    rw [if_pos hvoice]
    rcases mem_cons.mp h with rfl | h
    · exact ⟨mem_cons_of_mem _ mem_cons_self, rfl, rfl, rfl, rfl⟩
    · rw [mem_singleton.mp h]
      exact ⟨mem_cons_self, rfl, rfl, rfl, rfl⟩
  · rename_i hvoice
    rw [if_neg hvoice, mem_singleton.mp h]
    exact ⟨mem_cons_self, rfl, rfl, rfl, rfl⟩

theorem companion_of_mem_templateChannel (h : c ∈ templateChannel ids params spec i)
    {companionID : ID} (hcompanion : c.voiceTextChannelID = some companionID) :
    ∃ d ∈ templateChannel ids params spec i, d.id = companionID := by
  unfold templateChannel at h ⊢
  split at h
  · rename_i hvoice
    rw [if_pos hvoice]
    rcases mem_cons.mp h with rfl | h
    · cases hcompanion
    · rw [mem_singleton.mp h] at hcompanion
      injection hcompanion with hcompanion
      exact ⟨_, mem_cons_self, hcompanion⟩
  · rw [mem_singleton.mp h] at hcompanion
    cases hcompanion

/-- Each of the returned ids is the id of a row. -/
theorem exists_of_mem_createdIDs {id : ID} (h : id ∈ createdIDs ids spec i) :
    ∃ c ∈ templateChannel ids params spec i, c.id = id := by
  unfold createdIDs at h
  unfold templateChannel
  split at h
  · rename_i hvoice
    rw [if_pos hvoice]
    rcases mem_cons.mp h with rfl | h
    · exact ⟨_, mem_cons_of_mem _ mem_cons_self, rfl⟩
    · exact ⟨_, mem_cons_self, (mem_singleton.mp h).symm⟩
  · rename_i hvoice
    rw [if_neg hvoice]
    exact ⟨_, mem_cons_self, (mem_singleton.mp h).symm⟩

theorem mem_templateChannels :
    c ∈ templateChannels ids params ↔
      ∃ p ∈ params.channels.zipIdx, c ∈ templateChannel ids params p.1 p.2 :=
  mem_flatMap

theorem scope_of_mem_gateRows {scope : OverrideScope} {roleNames : List String}
    {po : PermissionOverride} (h : po ∈ gateRows ids params scope roleNames) :
    po.scope = scope := by
  rcases mem_cons.mp h with rfl | h
  · rfl
  · obtain ⟨p, -, hrow⟩ := mem_filterMap.mp h
    obtain ⟨roleID, -, rfl⟩ := Option.map_eq_some_iff.mp hrow
    rfl

/-- **Private and unsynced**: a channel that the template writes overrides for is not
    marked as synced. -/
theorem unsynced_of_gate {po : PermissionOverride}
    (h : po ∈ channelGates ids params ++ groupGates ids params) {channelID : ID}
    (hscope : po.scope = .channel channelID) :
    ∃ c ∈ templateChannels ids params, c.id = channelID ∧ c.permissionsSynced = false := by
  rcases mem_append.mp h with h | h
  · obtain ⟨⟨spec, i⟩, hp, h⟩ := mem_flatMap.mp h
    dsimp only at h
    split at h
    · rename_i hprivate
      obtain ⟨id, hid, hrow⟩ := mem_flatMap.mp h
      have hsame : OverrideScope.channel id = .channel channelID :=
        (scope_of_mem_gateRows hrow).symm.trans hscope
      injection hsame with hsame
      have hcreated : ∃ c ∈ templateChannel ids params spec i, c.id = id :=
        exists_of_mem_createdIDs hid
      obtain ⟨c, hc, hcid⟩ := hcreated
      obtain ⟨-, -, -, -, hsynced⟩ := of_mem_templateChannel hc
      refine ⟨c, mem_templateChannels.mpr ⟨(spec, i), hp, hc⟩, hcid.trans hsame, ?_⟩
      rw [hsynced, hprivate]
      simp
    · cases h
  · obtain ⟨⟨spec, i⟩, -, h⟩ := mem_flatMap.mp h
    dsimp only at h
    split at h
    · cases h
    · rw [scope_of_mem_gateRows h] at hscope
      cases hscope

end Facts

end Meza.Store.ChatStore
