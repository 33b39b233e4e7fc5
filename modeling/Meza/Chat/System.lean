import Meza.Lib.Run
import Meza.Keys.Listing
import Meza.Chat.ChannelEffects

/-! # The system

    Calls arrive one after the other, time passes between them, and every call
    leaves a state for the next. This module puts the lemmas about the
    handlers together and proves what every run keeps: each server has its
    `@everyone` role at the bottom and its owner among its members, and nothing
    refers to a role, a category or a text companion of another server. -/

namespace Meza.Chat

open Store Permissions Table List Action ChatStore

/-! ## Section 1: Calls and events -/

/-- A request with the ids that are drawn while it is handled. -/
inductive Call where
  | updateMember (req : UpdateMemberRequest)
  | setMemberRoles (req : SetMemberRolesRequest)
  | kickMember (req : KickMemberRequest)
  | banMember (req : BanMemberRequest)
  | unbanMember (req : UnbanMemberRequest)
  | timeoutMember (req : TimeoutMemberRequest)
  | removeTimeout (req : RemoveTimeoutRequest)
  | createRole (newID : ID) (req : CreateRoleRequest)
  | updateRole (req : UpdateRoleRequest)
  | deleteRole (req : DeleteRoleRequest)
  | reorderRoles (req : ReorderRolesRequest)
  | setPermissionOverride (newID mirrorID : ID) (req : SetPermissionOverrideRequest)
  | deletePermissionOverride (req : DeletePermissionOverrideRequest)
  | syncChannelPermissions (req : SyncChannelPermissionsRequest)
  | updateChannel (overrideID mirrorID : ID) (uuid : ID → ID → ID) (req : UpdateChannelRequest)
  | deleteChannelGroup (uuid : ID → ID → ID) (req : DeleteChannelGroupRequest)
  | joinServer (req : JoinServerRequest)
  | leaveServer (req : LeaveServerRequest)
  | completeOnboarding (req : CompleteOnboardingRequest)
  | getEffectivePermissions (req : GetEffectivePermissionsRequest)
  | listChannels (req : ListChannelsRequest)

def ignore {α : Type} (x : Handler α) : Handler Unit := do
  let _ ← x
  return ()

def Call.handle (caller : Option ID) : Call → Handler Unit
  | .updateMember req => ignore (Chat.updateMember caller req)
  | .setMemberRoles req => ignore (Chat.setMemberRoles caller req)
  | .kickMember req => Chat.kickMember caller req
  | .banMember req => Chat.banMember caller req
  | .unbanMember req => Chat.unbanMember caller req
  | .timeoutMember req => ignore (Chat.timeoutMember caller req)
  | .removeTimeout req => ignore (Chat.removeTimeout caller req)
  | .createRole newID req => ignore (Chat.createRole newID caller req)
  | .updateRole req => ignore (Chat.updateRole caller req)
  | .deleteRole req => Chat.deleteRole caller req
  | .reorderRoles req => Chat.reorderRoles caller req
  | .setPermissionOverride newID mirrorID req =>
    ignore (Chat.setPermissionOverride newID mirrorID caller req)
  | .deletePermissionOverride req => Chat.deletePermissionOverride caller req
  | .syncChannelPermissions req => ignore (Chat.syncChannelPermissions caller req)
  | .updateChannel overrideID mirrorID uuid req =>
    ignore (Chat.updateChannel overrideID mirrorID uuid caller req)
  | .deleteChannelGroup uuid req => Chat.deleteChannelGroup uuid caller req
  | .joinServer req => ignore (Chat.joinServer caller req)
  | .leaveServer req => Chat.leaveServer caller req
  | .completeOnboarding req => ignore (Chat.completeOnboarding caller req)
  | .getEffectivePermissions req => ignore (Chat.getEffectivePermissions caller req)
  | .listChannels req => ignore (Chat.listChannels caller req)

inductive Event where
  | call (caller : Option ID) (c : Call)
  /-- Time passes. -/
  | tick (seconds : Nat)

def step (s : ChatState) : Event → ChatState
  | .call caller c => after (c.handle caller) s
  | .tick seconds => { s with now := s.now + seconds }

/-! ## Section 2: What a call does -/

/-- The effect of a successful call. -/
def Call.Effect (caller : Option ID) : Call → ChatState → ChatState → Prop
  | .updateMember req => NicknameSet caller req
  | .setMemberRoles req => RolesSet caller req
  | .kickMember req => Kicked caller req
  | .banMember req => Banned caller req
  | .unbanMember req => Changed (fun t => { t with
    bans := deleteWhere (fun b => b.serverID = req.serverID ∧ b.userID = req.userID) t.bans }) id
  | .timeoutMember req =>
    TimeoutSet caller req.serverID req.userID (some (req.timedOutUntil.getD 0))
  | .removeTimeout req => TimeoutSet caller req.serverID req.userID none
  | .createRole newID req => RoleCreated newID caller req
  | .updateRole req => RoleUpdated caller req
  | .deleteRole req => RoleDeleted caller req
  | .reorderRoles req => RolesReordered caller req
  | .setPermissionOverride _ _ req => OverrideWritten caller req.targetID
  | .deletePermissionOverride req => OverrideWritten caller req.targetID
  | .syncChannelPermissions req => Synced caller req
  | .updateChannel _ _ _ req => ChannelUpdated caller req
  | .deleteChannelGroup _ req => GroupDeleted req
  | .joinServer req => Joined caller req
  | .leaveServer req => Left caller req
  | .completeOnboarding req => Onboarded caller req
  | .getEffectivePermissions _ => Filled
  | .listChannels _ => Filled

/-- What a call may leave behind. A failed call can have computed permissions,
    used up an invite, or failed only after its effect. -/
inductive Outcome (caller : Option ID) (c : Call) (s s' : ChatState) : Prop where
  | filled (h : Filled s s')
  | spent (invites : List Invite) (h : Changed (fun t => { t with invites }) id s s')
  | done (h : c.Effect caller s s')

theorem ends_ignore {α : Type} {x : Handler α} {s : ChatState} {P : ChatState → Prop}
    {E : ConnectError → ChatState → Prop} (h : Ends x s (fun _ s' => P s') E) :
    Ends (ignore x) s (fun _ s' => P s') E := by
  unfold ignore
  rw [ends_bind]
  exact h.mono (fun _ _ hP => ends_pure hP) (fun _ _ hE => hE)

section Outcome

variable {caller : Option ID} {c : Call} {s s' : ChatState}

theorem Outcome.of_same (h : s' = s) : Outcome caller c s s' := by
  rw [h]
  exact .filled (.refl s)

theorem Outcome.of_same_or (h : s' = s ∨ c.Effect caller s s') : Outcome caller c s s' := by
  rcases h with h | h
  · exact .of_same h
  · exact .done h

end Outcome

/-- **Every call** ends with its effect, and a failed one with what the outcomes
    list. -/
theorem handle_spec (caller : Option ID) (c : Call) (s : ChatState)
    (hids : ∀ ch ∈ s.db.tables.channels, ch.id ≠ "") :
    Ends (c.handle caller) s (fun _ s' => c.Effect caller s s')
      (fun _ s' => Outcome caller c s s') := by
  have hsame : ∀ (_ : ConnectError) s', s' = s → Outcome caller c s s' :=
    fun _ _ => Outcome.of_same
  have hor : ∀ (_ : ConnectError) s', s' = s ∨ c.Effect caller s s' → Outcome caller c s s' :=
    fun _ _ => Outcome.of_same_or
  have hfill : ∀ (_ : ConnectError) s', Filled s s' → Outcome caller c s s' :=
    fun _ _ => Outcome.filled
  cases c with
  | updateMember req =>
    refine ends_ignore ((updateMember_spec caller req s).mono (fun _ _ h => h) ?_)
    intro _ s' h
    rcases h with h | h
    · exact Outcome.filled h
    · exact Outcome.done h
  | setMemberRoles req =>
    exact ends_ignore ((setMemberRoles_spec caller req s).mono (fun _ _ h => h) hor)
  | kickMember req => exact (kickMember_spec caller req s).mono (fun _ _ h => h) hsame
  | banMember req => exact (banMember_spec caller req s).mono (fun _ _ h => h) hor
  | unbanMember req => exact (unbanMember_spec caller req s).mono (fun _ _ h => h) hsame
  | timeoutMember req =>
    exact ends_ignore ((timeoutMember_spec caller req s).mono (fun _ _ h => h) hor)
  | removeTimeout req =>
    exact ends_ignore ((removeTimeout_spec caller req s).mono (fun _ _ h => h) hor)
  | createRole newID req =>
    exact ends_ignore ((createRole_spec newID caller req s).mono (fun _ _ h => h) hsame)
  | updateRole req => exact ends_ignore ((updateRole_spec caller req s).mono (fun _ _ h => h) hsame)
  | deleteRole req => exact (deleteRole_spec caller req s).mono (fun _ _ h => h) hsame
  | reorderRoles req => exact (reorderRoles_spec caller req s).mono (fun _ _ h => h) hsame
  | setPermissionOverride newID mirrorID req =>
    exact ends_ignore
      ((setPermissionOverride_spec newID mirrorID caller req s).mono (fun _ _ h => h) hsame)
  | deletePermissionOverride req =>
    exact (deletePermissionOverride_spec caller req s).mono (fun _ _ h => h) hsame
  | syncChannelPermissions req =>
    exact ends_ignore ((syncChannelPermissions_spec caller req s).mono (fun _ _ h => h) hor)
  | updateChannel overrideID mirrorID uuid req =>
    exact ends_ignore
      ((updateChannel_spec overrideID mirrorID uuid caller req s).mono (fun _ _ h => h) hor)
  | deleteChannelGroup uuid req =>
    exact (deleteChannelGroup_spec uuid caller req s).mono (fun _ _ h => h) hsame
  | joinServer req =>
    refine ends_ignore ((joinServer_spec caller req s).mono (fun _ _ h => h) ?_)
    intro _ s' h
    rcases h with h | ⟨invites, h⟩
    · exact Outcome.done h
    · exact Outcome.spent invites h
  | leaveServer req => exact (leaveServer_spec caller req s).mono (fun _ _ h => h) hsame
  | completeOnboarding req =>
    exact ends_ignore ((completeOnboarding_spec caller req s).mono (fun _ _ h => h) hsame)
  | getEffectivePermissions req =>
    exact ends_ignore ((getEffectivePermissions_spec caller req s).mono (fun _ _ h => h) hfill)
  | listChannels req =>
    exact ends_ignore ((listChannels_spec caller req s hids).mono (fun _ _ h => h) hfill)

theorem handle_outcome (caller : Option ID) (c : Call) (s : ChatState)
    (hids : ∀ ch ∈ s.db.tables.channels, ch.id ≠ "") :
    Outcome caller c s (after (c.handle caller) s) := by
  refine Ends.after ?_
  exact (handle_spec caller c s hids).mono (fun _ _ => Outcome.done) (fun _ _ h => h)

/-! ## Section 3: Roles stay with their server -/

/-- Every server has its `@everyone` role at the bottom, and members hold roles
    of their own server only. -/
structure RolesLocal (t : Tables) : Prop where
  everyone : ∀ srv ∈ t.servers, ∃ r ∈ t.roles, r.id = srv.id ∧ r.serverID = srv.id ∧ r.position = 0
  assigned : ∀ mr ∈ t.memberRoles, ∀ r ∈ t.roles, r.id = mr.roleID → r.serverID = mr.serverID

namespace RolesLocal

variable {t' : Tables}

theorem position_eq_zero (h : RolesLocal t) (hc : t.Constraints) {r : Role} (hr : r ∈ t.roles)
    (hid : r.id = r.serverID) : r.position = 0 := by
  obtain ⟨srv, hsrv, hsame⟩ := mem_map.mp (hc.roles.rolesServer r hr)
  obtain ⟨e, he, heid, -, hpos⟩ := h.everyone srv hsrv
  rw [eq_of_key hc.roles.rolesPK hr he (by rw [heid, hsame, hid]), hpos]

theorem server_of_id (h : RolesLocal t) (hc : t.Constraints) {srv : Server} (hsrv : srv ∈ t.servers)
    {r : Role} (hr : r ∈ t.roles) (hid : r.id = srv.id) : r.serverID = srv.id := by
  obtain ⟨e, he, heid, hserver, -⟩ := h.everyone srv hsrv
  rw [eq_of_key hc.roles.rolesPK hr he (by rw [heid, hid]), hserver]

theorem of_memberRoles (h : RolesLocal t) (hservers : t'.servers = t.servers)
    (hroles : t'.roles = t.roles) (hmr : ∀ mr ∈ t'.memberRoles, mr ∈ t.memberRoles ∨
    ∀ r ∈ t.roles, r.id = mr.roleID → r.serverID = mr.serverID) : RolesLocal t' := by
  constructor
  · rw [hservers, hroles]
    exact h.everyone
  · intro mr hmem r hr hid
    rw [hroles] at hr
    rcases hmr mr hmem with hold | hnew
    · exact h.assigned mr hold r hr hid
    · exact hnew r hr hid

theorem of_roles (h : RolesLocal t) (hservers : t'.servers = t.servers)
    (hmr : ∀ mr ∈ t'.memberRoles, mr ∈ t.memberRoles)
    (heveryone : ∀ r ∈ t.roles, r.position = 0 → (∃ srv ∈ t.servers, r.id = srv.id) →
      ∃ r' ∈ t'.roles, r'.id = r.id ∧ r'.serverID = r.serverID ∧ r'.position = 0)
    (hroles : ∀ r' ∈ t'.roles, (∃ r ∈ t.roles, r'.id = r.id ∧ r'.serverID = r.serverID) ∨
      ∀ mr ∈ t.memberRoles, r'.id ≠ mr.roleID) : RolesLocal t' := by
  constructor
  · intro srv hsrv
    rw [hservers] at hsrv
    obtain ⟨r, hr, hid, hserver, hpos⟩ := h.everyone srv hsrv
    obtain ⟨r', hr', hid', hserver', hpos'⟩ := heveryone r hr hpos ⟨srv, hsrv, hid⟩
    exact ⟨r', hr', hid'.trans hid, hserver'.trans hserver, hpos'⟩
  · intro mr hmem r' hr' hid
    rcases hroles r' hr' with ⟨r, hr, hsame, hserver⟩ | hnone
    · rw [hserver]
      exact h.assigned mr (hmr mr hmem) r hr (hsame.symm.trans hid)
    · exact absurd hid (hnone mr (hmr mr hmem))

end RolesLocal

variable {serverID userID : ID} {t : Tables}

theorem mem_foldl_insertNew {mr : MemberRole} (roleIDs : List ID) (rows : List MemberRole)
    (h : mr ∈ roleIDs.foldl (fun rows roleID =>
      insertNew id { userID, serverID, roleID } rows) rows) :
    mr ∈ rows ∨ ∃ roleID ∈ roleIDs, mr = { userID, serverID, roleID } := by
  induction roleIDs generalizing rows with
  | nil => exact .inl h
  | cons roleID roleIDs ih =>
    rcases ih _ h with hrow | ⟨roleID', hmem, rfl⟩
    · rcases mem_insertNew.mp hrow with hrow | ⟨rfl, -⟩
      · exact .inl hrow
      · exact .inr ⟨roleID, mem_cons_self, rfl⟩
    · exact .inr ⟨roleID', mem_cons_of_mem _ hmem, rfl⟩

theorem mem_onboardedRoles {roleIDs : List ID} {mr : MemberRole}
    (h : mr ∈ onboardedRoles t userID serverID roleIDs) :
    mr ∈ t.memberRoles ∨ ∃ r ∈ t.roles, r.id ∈ roleIDs ∧ r.serverID = serverID ∧
      r.isSelfAssignable = true ∧ mr = { userID, serverID, roleID := r.id } := by
  rcases mem_foldl_insertNew _ _ h with hold | ⟨roleID, hmem, rfl⟩
  · exact .inl hold
  · obtain ⟨r, hr, rfl⟩ := mem_map.mp hmem
    obtain ⟨hr, hcond⟩ := mem_filter.mp hr
    obtain ⟨hid, hserver, hself⟩ := of_decide_eq_true hcond
    exact .inr ⟨r, hr, hid, hserver, hself, rfl⟩

section RoleCalls

variable {caller : Option ID} {s s' : ChatState}

theorem RolesSet.rolesLocal {req : SetMemberRolesRequest} (h : RolesSet caller req s s')
    (hs : RolesLocal s.db.tables) : RolesLocal s'.db.tables := by
  obtain ⟨userID, auth, -, -, hassign⟩ := h.rights
  rw [h.change.tables]
  refine hs.of_memberRoles rfl rfl ?_
  intro mr hmr
  rcases mem_append.mp hmr with hold | hnew
  · exact .inl (mem_deleteWhere.mp hold).1
  · obtain ⟨roleID, hmem, rfl⟩ := mem_map.mp hnew
    right
    intro r hr hid
    have hlisted : r.id = roleID := hid
    rw [← hlisted] at hmem
    exact (requireAssignable_ok s.db.constraints.roles.rolesPK hassign hr hmem).1

theorem Onboarded.rolesLocal {req : CompleteOnboardingRequest} (h : Onboarded caller req s s')
    (hs : RolesLocal s.db.tables) : RolesLocal s'.db.tables := by
  obtain ⟨userID, srv, completedAt, channelMembers, -, -, -, -, hchange⟩ := h.change
  rw [hchange.tables]
  refine hs.of_memberRoles rfl rfl ?_
  intro mr hmr
  rcases mem_onboardedRoles hmr with hold | ⟨r, hr, -, hserver, -, rfl⟩
  · exact Or.inl hold
  · right
    intro r' hr' hid
    rw [eq_of_key s.db.constraints.roles.rolesPK hr' hr hid, hserver]

theorem MemberRemoved.rolesLocal (h : MemberRemoved userID serverID s s')
    (hs : RolesLocal s.db.tables) : RolesLocal s'.db.tables := by
  obtain ⟨channelMembers, hchange⟩ := h
  rw [hchange.tables]
  refine hs.of_memberRoles rfl rfl ?_
  intro mr hmr
  exact .inl (mem_deleteWhere.mp hmr).1

theorem Banned.rolesLocal {req : BanMemberRequest} (h : Banned caller req s s')
    (hs : RolesLocal s.db.tables) : RolesLocal s'.db.tables := by
  obtain ⟨bans, -, ⟨-, channelMembers, hchange⟩ | ⟨-, hchange⟩⟩ := h.change
  · rw [hchange.tables]
    refine hs.of_memberRoles rfl rfl ?_
    intro mr hmr
    exact .inl (mem_deleteWhere.mp hmr).1
  · rw [hchange.tables]
    exact hs.of_memberRoles rfl rfl fun _ => .inl

theorem RoleCreated.rolesLocal {newID : ID} {req : CreateRoleRequest}
    (h : RoleCreated newID caller req s s') (hs : RolesLocal s.db.tables) :
    RolesLocal s'.db.tables := by
  obtain ⟨created, -, -, -, -, -, hchange⟩ := h.change
  have hpk := s'.db.constraints.roles.rolesPK
  rw [hchange.tables] at hpk ⊢
  refine hs.of_roles rfl (fun _ => id) ?_ ?_
  · intro r hr hpos _
    exact ⟨r, mem_append_left _ hr, rfl, rfl, hpos⟩
  · intro r hr
    rcases mem_append.mp hr with hr | hr
    · exact .inl ⟨r, hr, rfl, rfl⟩
    · -- the id of the new role is fresh, so nobody holds it yet
      right
      intro mr hmr hid
      rw [mem_singleton.mp hr] at hid
      exact notMem_of_append hpk (hid ▸ s.db.constraints.roles.memberRolesRole mr hmr)

theorem RoleUpdated.rolesLocal {req : UpdateRoleRequest} (h : RoleUpdated caller req s s')
    (hs : RolesLocal s.db.tables) : RolesLocal s'.db.tables := by
  obtain ⟨userID, auth, role, -, -, -, -, hchange⟩ := h.rights
  rw [hchange.tables]
  refine hs.of_roles rfl (fun _ => id) ?_ ?_
  · intro r hr hpos _
    refine ⟨_, mem_updateWhere.mpr ⟨r, hr, rfl⟩, ?_⟩
    split
    · exact ⟨rfl, rfl, hpos⟩
    · exact ⟨rfl, rfl, hpos⟩
  · intro r' hr'
    obtain ⟨r, hr, rfl⟩ := mem_updateWhere.mp hr'
    refine .inl ⟨r, hr, ?_⟩
    split
    · exact ⟨rfl, rfl⟩
    · exact ⟨rfl, rfl⟩

theorem RoleDeleted.rolesLocal {req : DeleteRoleRequest} (h : RoleDeleted caller req s s')
    (hs : RolesLocal s.db.tables) : RolesLocal s'.db.tables := by
  obtain ⟨userID, auth, role, hrole, -, hordinary, -, hchange⟩ := h.rights
  obtain ⟨hmem, -⟩ := mem_of_lookup hrole
  rw [hchange.tables]
  refine hs.of_roles rfl (fun mr hmr => (mem_deleteWhere.mp hmr).1) ?_ ?_
  · intro r hr hpos ⟨srv, hsrv, hid⟩
    -- `@everyone` cannot be deleted and is below every gap
    have hkept : r.id ≠ role.id := by
      intro heq
      have hserver := hs.server_of_id s.db.constraints hsrv hmem (heq.symm.trans hid)
      exact hordinary (by rw [hserver, ← heq, hid])
    refine ⟨r, mem_updateWhere.mpr ⟨r, mem_deleteWhere.mpr ⟨hr, ?_⟩, ?_⟩,
      rfl, rfl, hpos⟩
    · exact decide_eq_false hkept
    · rw [if_neg]
      simp [hpos]
  · intro r' hr'
    obtain ⟨r, hr, rfl⟩ := mem_updateWhere.mp hr'
    refine .inl ⟨r, (mem_deleteWhere.mp hr).1, ?_⟩
    split
    · exact ⟨rfl, rfl⟩
    · exact ⟨rfl, rfl⟩

theorem RolesReordered.rolesLocal {req : ReorderRolesRequest} (h : RolesReordered caller req s s')
    (hs : RolesLocal s.db.tables) : RolesLocal s'.db.tables := by
  obtain ⟨userID, auth, callerPos, -, -, -, -, hlisted, hchange⟩ := h.rights
  have hpk := s.db.constraints.roles.rolesPK
  rw [hchange.tables, RoleStore.reordered_eq_map]
  refine hs.of_roles rfl (fun _ => id) ?_ ?_
  · intro r hr hpos ⟨srv, hsrv, hid⟩
    have hserver := hs.server_of_id s.db.constraints hsrv hr hid
    -- `@everyone` is neither listed nor among the roles from the caller up
    have hnot : r.id ∉ req.roleIDs.eraseDups := by
      intro hmem
      obtain ⟨r', hr', -, hid'⟩ := hlisted r.id hmem
      obtain ⟨hr', hcond⟩ := mem_filter.mp hr'
      obtain ⟨hserver', hordinary⟩ := of_decide_eq_true hcond
      rw [eq_of_key hpk hr' hr hid'] at hserver' hordinary
      exact hordinary (by rw [hid, ← hserver, hserver'])
    have hother : r.serverID ≠ req.serverID ∨ r.id = req.serverID := by
      by_cases heq : r.serverID = req.serverID
      · exact .inr (by rw [hid, ← hserver, heq])
      · exact .inl heq
    refine ⟨_, mem_map_of_mem hr, rfl, rfl, ?_⟩
    show RoleStore.newPosition _ _ _ _ r = 0
    rw [RoleStore.newPosition_of_other hpk hr hnot hother, hpos]
  · intro r' hr'
    obtain ⟨r, hr, rfl⟩ := mem_map.mp hr'
    exact .inl ⟨r, hr, rfl, rfl⟩

end RoleCalls

/-! ## Section 4: Channels stay with their server -/

/-- Categories and text companions are of the channel's server, and ids tell
    channels, categories and the server level apart. -/
structure ChannelsLocal (t : Tables) : Prop where
  groups : ∀ c ∈ t.channels, ∀ g ∈ t.channelGroups, c.channelGroupID = some g.id →
    c.serverID = some g.serverID
  companions : ∀ c ∈ t.channels, ∀ d ∈ t.channels, c.voiceTextChannelID = some d.id →
    d.serverID = c.serverID
  disjoint : ∀ c ∈ t.channels, ∀ g ∈ t.channelGroups, c.id ≠ g.id
  channelIDs : ∀ c ∈ t.channels, c.id ≠ ""
  serverIDs : ∀ srv ∈ t.servers, srv.id ≠ ""

/-- The category or channel belongs to the server. -/
def InServer (t : Tables) (serverID : ID) : OverrideScope → Prop
  | .group id => ∃ g ∈ t.channelGroups, g.id = id ∧ g.serverID = serverID
  | .channel id => ∃ c ∈ t.channels, c.id = id ∧ c.serverID = some serverID

theorem server_of_reaches (hs : ChannelsLocal t) (hc : t.Constraints) {targetID : ID}
    {target : OverrideTarget} {scope : OverrideScope}
    (htarget : resolveTargetServerID t targetID = .ok target) (hreach : Reaches t targetID scope)
    (hin : InServer t serverID scope) : target.serverID = serverID := by
  unfold resolveTargetServerID at htarget
  split at htarget
  · -- the target is a category; it shares its id with no channel
    rename_i group hgroup
    injection htarget with htarget
    rw [← htarget]
    obtain ⟨hmem, hid⟩ := mem_of_lookup (oneRow_ok.mp hgroup)
    rcases hreach with hscope | ⟨c, hcmem, hcid, -⟩
    · rcases scope with id | id
      · obtain ⟨g, hg, hgid, hserver⟩ := hin
        rw [← hserver, eq_of_key hc.channels.groupsPK hg hmem (hgid.trans (hscope.trans hid.symm))]
      · obtain ⟨c, hcmem, hcid, -⟩ := hin
        exact absurd (hcid.trans (hscope.trans hid.symm)) (hs.disjoint c hcmem group hmem)
    · exact absurd (hcid.trans hid.symm) (hs.disjoint c hcmem group hmem)
  · -- the target is a channel, and the call reaches its text companion too
    rename_i ch hch _
    injection htarget with htarget
    rw [← htarget]
    obtain ⟨hmem, hid⟩ := mem_of_lookup (oneRow_ok.mp hch)
    have hch' : ∀ c ∈ t.channels, c.id = targetID → c = ch := fun c hcmem hcid =>
      eq_of_key hc.channels.channelsPK hcmem hmem (hcid.trans hid.symm)
    rcases hreach with hscope | ⟨c, hcmem, hcid, hcompanion⟩
    · rcases scope with id | id
      · obtain ⟨g, hg, hgid, -⟩ := hin
        exact absurd (hid.trans (hscope.symm.trans hgid.symm)) (hs.disjoint ch hmem g hg)
      · obtain ⟨c, hcmem, hcid, hserver⟩ := hin
        rw [← hch' c hcmem (hcid.trans hscope), hserver]
        rfl
    · rw [hch' c hcmem hcid] at hcompanion
      rcases scope with id | id
      · obtain ⟨g, hg, hgid, -⟩ := hin
        obtain ⟨d, hd, hdid⟩ :=
          mem_map.mp (hc.channels.channelsCompanion ch hmem _ hcompanion)
        exact absurd (hdid.trans hgid.symm) (hs.disjoint d hd g hg)
      · obtain ⟨d, hd, hdid, hserver⟩ := hin
        have hsame := hs.companions ch hmem d hd (by rw [hcompanion, hdid]; rfl)
        rw [← hsame, hserver]
        rfl
  · cases htarget

variable {touched : OverrideScope → OverrideSubject → Prop} {regroup : ID → Option ID → Prop}

/-- Channels that only move to categories of their server. -/
theorem ChannelsLocal.of_changed {t' : Tables} (hs : ChannelsLocal t)
    (h : ChannelsChanged regroup touched t t')
    (hgroup : ∀ c ∈ t.channels, ∀ g ∈ t.channelGroups, regroup c.id (some g.id) →
      c.serverID = some g.serverID) : ChannelsLocal t' := by
  have hservers : t'.servers = t.servers := by
    rw [h.rest]
  refine ⟨?_, ?_, ?_, ?_, ?_⟩
  · intro c' hc' g hg hin
    obtain ⟨c, hc, hedit⟩ := exists_of_forall₂ h.channels hc'
    rw [hedit.serverID]
    rcases hedit.group with hsame | hmove
    · exact hs.groups c hc g (h.groups g hg) (hsame.symm.trans hin)
    · rw [hin] at hmove
      exact hgroup c hc g (h.groups g hg) hmove
  · intro c' hc' d' hd' hcompanion
    obtain ⟨c, hc, hedit⟩ := exists_of_forall₂ h.channels hc'
    obtain ⟨d, hd, hedit'⟩ := exists_of_forall₂ h.channels hd'
    rw [hedit.serverID, hedit'.serverID]
    exact hs.companions c hc d hd (by rw [← hedit.companion, hcompanion, hedit'.id])
  · intro c' hc' g hg
    obtain ⟨c, hc, hedit⟩ := exists_of_forall₂ h.channels hc'
    rw [hedit.id]
    exact hs.disjoint c hc g (h.groups g hg)
  · intro c' hc'
    obtain ⟨c, hc, hedit⟩ := exists_of_forall₂ h.channels hc'
    rw [hedit.id]
    exact hs.channelIDs c hc
  · rw [hservers]
    exact hs.serverIDs

theorem requireGroupOfServer_ok {groupID : ID}
    (h : requireGroupOfServer t groupID serverID = .ok ()) (hne : groupID ≠ "") :
    ∃ g ∈ t.channelGroups, g.id = groupID ∧ g.serverID = serverID := by
  unfold requireGroupOfServer at h
  rw [if_neg hne] at h
  obtain ⟨g, hg, h⟩ := bind_eq_ok.mp h
  obtain ⟨hmem, hid⟩ := mem_of_lookup (oneRow_ok.mp (orElse_ok.mp hg))
  exact ⟨g, hmem, hid, by simpa using rejectIf_ok.mp h⟩

variable {req : UpdateChannelRequest}

/-- The channels that `UpdateChannel` edits are of the channel's server. -/
theorem server_of_regroups (hs : ChannelsLocal t) (hc : t.Constraints) {ch : Channel}
    (hch : lookup Channel.id req.channelID t.channels = some ch) {c : Channel}
    (hmem : c ∈ t.channels) (h : c.id = req.channelID ∨ ch.voiceTextChannelID = some c.id) :
    c.serverID = ch.serverID := by
  obtain ⟨hchmem, hid⟩ := mem_of_lookup hch
  rcases h with heq | hcompanion
  · rw [eq_of_key hc.channels.channelsPK hmem hchmem (heq.trans hid.symm)]
  · exact hs.companions ch hchmem c hmem hcompanion

theorem ChannelUpdated.channelsLocal {caller : Option ID} {s s' : ChatState}
    (h : ChannelUpdated caller req s s') (hs : ChannelsLocal s.db.tables) :
    ChannelsLocal s'.db.tables := by
  obtain ⟨userID, auth, ch, hch, hserver, -, hvalid, hchange⟩ := h.rights
  refine hs.of_changed hchange.tables ?_
  intro c hc g hg hregroup
  obtain ⟨hwhich, newGroup, hnew, hnull⟩ := hregroup
  -- the new category was checked against the server of the channel
  rw [server_of_regroups hs s.db.constraints hch hc hwhich]
  unfold orNull at hnull
  split at hnull
  · cases hnull
  · rename_i hne
    injection hnull with hnull
    obtain ⟨g', hg', hid, hsame⟩ := requireGroupOfServer_ok (hvalid newGroup hnew) hne
    rw [eq_of_key s.db.constraints.channels.groupsPK hg hg' (hnull.trans hid.symm), hsame]
    rcases hnone : ch.serverID with _ | serverID
    · exact absurd hnone hserver
    · rfl

/-! ## Section 5: Servers, users and owners -/

/-- What no call does: touch servers or users, or end the membership of an
    owner. -/
structure Framed (t t' : Tables) : Prop where
  servers : t'.servers = t.servers
  users : t'.users = t.users
  owners : ∀ srv ∈ t.servers, (srv.ownerID, srv.id) ∈ t.members.map Member.key →
    (srv.ownerID, srv.id) ∈ t'.members.map Member.key

section Frame

variable {caller : Option ID} {c : Call} {t' : Tables} {s s' : ChatState}

theorem Framed.of_members (hservers : t'.servers = t.servers) (husers : t'.users = t.users)
    (hmembers : ∀ key ∈ t.members.map Member.key, key ∈ t'.members.map Member.key) : Framed t t' :=
  ⟨hservers, husers, fun _ _ => hmembers _⟩

theorem Framed.of_filled (h : Filled s s') : Framed s.db.tables s'.db.tables := by
  rw [h.db]
  exact .of_members rfl rfl fun _ => id

theorem Framed.of_updated {p : Member → Bool} {f : Member → Member}
    (hservers : t'.servers = t.servers) (husers : t'.users = t.users)
    (hmembers : t'.members = updateWhere p f t.members)
    (hf : ∀ m, (f m).key = m.key) : Framed t t' := by
  refine .of_members hservers husers ?_
  intro key hkey
  rwa [hmembers, map_key_updateWhere hf]

/-- The server that a handler finds is the only one with its id. -/
theorem not_owner_of_found (hc : t.Constraints) {found : Server}
    (hfound : getServer t serverID = .ok found) (hother : found.ownerID ≠ userID) :
    ∀ srv ∈ t.servers, srv.id = serverID → srv.ownerID ≠ userID := by
  intro srv hsrv hid
  obtain ⟨hmem, hfoundID⟩ := mem_of_lookup (oneRow_ok.mp hfound)
  rwa [eq_of_key hc.servers.serversPK hsrv hmem (hid.trans hfoundID.symm)]

theorem framed_removed {channelMembers : List ChannelMember} {bans : List Ban}
    (hother : ∀ srv ∈ t.servers, srv.id = serverID → srv.ownerID ≠ userID) :
    Framed t { withoutMember t userID serverID with channelMembers, bans } := by
  refine ⟨rfl, rfl, ?_⟩
  intro srv hsrv hmember
  obtain ⟨m, hm, hkey⟩ := mem_map.mp hmember
  refine mem_map.mpr ⟨m, mem_deleteWhere.mpr ⟨hm, ?_⟩, hkey⟩
  refine decide_eq_false fun hremoved => ?_
  obtain ⟨huser, hserver⟩ := Prod.mk.inj hkey
  exact hother srv hsrv (hserver.symm.trans hremoved.2) (huser.symm.trans hremoved.1)

/-- **The frame of every call.** -/
theorem Outcome.framed (hout : Outcome caller c s s') : Framed s.db.tables s'.db.tables := by
  have hc := s.db.constraints
  rcases hout with hfill | ⟨invites, hchange⟩ | heffect
  · exact .of_filled hfill
  · rw [hchange.tables]
    exact .of_members rfl rfl fun _ => id
  · cases c with
    | updateMember req =>
      obtain ⟨-, s₁, hfill, hchange⟩ := heffect
      rw [hchange.tables, hfill.db]
      exact .of_updated rfl rfl rfl fun _ => rfl
    | timeoutMember | removeTimeout =>
      rw [heffect.change.tables]
      exact .of_updated rfl rfl rfl fun _ => rfl
    | completeOnboarding req =>
      obtain ⟨userID, srv, completedAt, channelMembers, -, -, -, -, hchange⟩ := heffect
      rw [hchange.tables]
      exact .of_updated rfl rfl rfl fun _ => rfl
    -- memberships that end: none of them is an owner's
    | kickMember req =>
      obtain ⟨⟨userID, auth, hauth, howner, -⟩, channelMembers, hchange⟩ := heffect
      rw [hchange.tables]
      exact framed_removed (not_owner_of_found hc (requirePermission_ok hauth.granted).1 howner)
    | banMember req =>
      obtain ⟨⟨userID, auth, hauth, howner, -⟩, bans, -, hchange⟩ := heffect
      rcases hchange with ⟨-, channelMembers, hchange⟩ | ⟨-, hchange⟩
      · rw [hchange.tables]
        exact framed_removed (not_owner_of_found hc (requirePermission_ok hauth.granted).1 howner)
      · rw [hchange.tables]
        exact .of_members rfl rfl fun _ => id
    | leaveServer req =>
      obtain ⟨userID, srv, -, hsrv, howner, channelMembers, hchange⟩ := heffect
      rw [hchange.tables]
      exact framed_removed (not_owner_of_found hc hsrv howner)
    | joinServer req =>
      obtain ⟨userID, inv, invites, -, -, -, hchange⟩ := heffect
      rw [hchange.tables]
      refine .of_members rfl rfl ?_
      intro key hkey
      obtain ⟨m, hm, rfl⟩ := mem_map.mp hkey
      exact mem_map_of_mem (mem_insertNew.mpr (Or.inl hm))
    -- calls that do not look at memberships
    | setMemberRoles req =>
      rw [heffect.change.tables]
      exact .of_members rfl rfl fun _ => id
    | unbanMember req =>
      rw [heffect.tables]
      exact .of_members rfl rfl fun _ => id
    | createRole newID req =>
      obtain ⟨-, created, -, -, -, -, -, hchange⟩ := heffect
      rw [hchange.tables]
      exact .of_members rfl rfl fun _ => id
    | updateRole req =>
      obtain ⟨userID, auth, role, -, -, -, -, hchange⟩ := heffect
      rw [hchange.tables]
      exact .of_members rfl rfl fun _ => id
    | deleteRole req =>
      obtain ⟨userID, auth, role, -, -, -, -, hchange⟩ := heffect
      rw [hchange.tables]
      exact .of_members rfl rfl fun _ => id
    | reorderRoles req =>
      obtain ⟨userID, auth, callerPos, -, -, -, -, -, hchange⟩ := heffect
      rw [hchange.tables]
      exact .of_members rfl rfl fun _ => id
    | setPermissionOverride newID mirrorID req =>
      obtain ⟨userID, auth, target, subject, -, -, -, hchange⟩ := heffect
      rw [hchange.tables.rest]
      exact .of_members rfl rfl fun _ => id
    | deletePermissionOverride req =>
      obtain ⟨userID, auth, target, subject, -, -, -, hchange⟩ := heffect
      rw [hchange.tables.rest]
      exact .of_members rfl rfl fun _ => id
    | syncChannelPermissions req =>
      obtain ⟨userID, auth, ch, -, -, hchange⟩ := heffect
      rw [hchange.tables.rest]
      exact .of_members rfl rfl fun _ => id
    | updateChannel overrideID mirrorID uuid req =>
      obtain ⟨userID, auth, ch, -, -, -, -, hchange⟩ := heffect
      rw [hchange.tables.rest]
      exact .of_members rfl rfl fun _ => id
    | deleteChannelGroup uuid req =>
      obtain ⟨group, -, hchange⟩ := heffect
      rw [hchange.tables.rest]
      exact .of_members rfl rfl fun _ => id
    | getEffectivePermissions req => exact .of_filled heffect
    | listChannels req => exact .of_filled heffect

end Frame

/-! ## Section 6: Runs -/

/-- What every run keeps. -/
structure WellFormed (t : Tables) : Prop where
  roles : RolesLocal t
  channels : ChannelsLocal t

theorem wellFormed_users (users : List User) : WellFormed { users } := by
  refine ⟨⟨?_, ?_⟩, ⟨?_, ?_, ?_, ?_, ?_⟩⟩
  all_goals exact fun _ hmem => absurd hmem not_mem_nil

theorem createServer_wellFormed {db db' : DB} {channelID ownerID : ID}
    {defaultChannelPrivacy : Bool} (h : WellFormed db.tables)
    (hcreate : createServer db serverID channelID ownerID defaultChannelPrivacy =
      .ok db') (hserver : serverID ≠ "") (hchannel : channelID ≠ "")
    (hfresh : ∀ g ∈ db.tables.channelGroups, channelID ≠ g.id) : WellFormed db'.tables := by
  have hconstraints := db'.constraints
  rw [commit_ok hcreate] at hconstraints ⊢
  have hrole := notMem_of_append hconstraints.roles.rolesPK
  have hchan := notMem_of_append hconstraints.channels.channelsPK
  refine ⟨⟨?_, ?_⟩, ⟨?_, ?_, ?_, ?_, ?_⟩⟩
  · intro srv hsrv
    rcases mem_append.mp hsrv with hsrv | hsrv
    · obtain ⟨r, hr, hr'⟩ := h.roles.everyone srv hsrv
      exact ⟨r, mem_append_left _ hr, hr'⟩
    · rw [mem_singleton.mp hsrv]
      exact ⟨_, mem_append_right _ mem_cons_self, rfl, rfl, rfl⟩
  · intro mr hmr r hr hid
    rcases mem_append.mp hr with hr | hr
    · exact h.roles.assigned mr hmr r hr hid
    · rw [mem_singleton.mp hr] at hid
      exact absurd (hid ▸ db.constraints.roles.memberRolesRole mr hmr) hrole
  · intro c hc g hg hin
    rcases mem_append.mp hc with hc | hc
    · exact h.channels.groups c hc g hg hin
    · rw [mem_singleton.mp hc] at hin
      cases hin
  · intro c hc d hd hcompanion
    rcases mem_append.mp hc with hc | hc
    · rcases mem_append.mp hd with hd | hd
      · exact h.channels.companions c hc d hd hcompanion
      · rw [mem_singleton.mp hd] at hcompanion
        exact absurd (db.constraints.channels.channelsCompanion c hc _ hcompanion) hchan
    · rw [mem_singleton.mp hc] at hcompanion
      cases hcompanion
  · intro c hc g hg
    rcases mem_append.mp hc with hc | hc
    · exact h.channels.disjoint c hc g hg
    · rw [mem_singleton.mp hc]
      exact hfresh g hg
  · intro c hc
    rcases mem_append.mp hc with hc | hc
    · exact h.channels.channelIDs c hc
    · rw [mem_singleton.mp hc]
      exact hchannel
  · intro srv hsrv
    rcases mem_append.mp hsrv with hsrv | hsrv
    · exact h.channels.serverIDs srv hsrv
    · rw [mem_singleton.mp hsrv]
      exact hserver

section Runs

variable {caller : Option ID} {c : Call} {s s' : ChatState} {g : Cache → Cache}
  {f : Tables → Tables}

section

variable (h : WellFormed s.db.tables)
include h

theorem WellFormed.of_changed (hchange : Changed f g s s')
    (hf : ∀ t, (f t).servers = t.servers ∧ (f t).channels = t.channels ∧
      (f t).channelGroups = t.channelGroups) (hroles : RolesLocal s'.db.tables) :
    WellFormed s'.db.tables := by
  obtain ⟨hservers, hchannels, hgroups⟩ := hf s.db.tables
  rw [← hchange.tables] at hservers hchannels hgroups
  refine ⟨hroles, ?_, ?_, ?_, ?_, ?_⟩
  · rw [hchannels, hgroups]
    exact h.channels.groups
  · rw [hchannels]
    exact h.channels.companions
  · rw [hchannels, hgroups]
    exact h.channels.disjoint
  · rw [hchannels]
    exact h.channels.channelIDs
  · rw [hservers]
    exact h.channels.serverIDs

theorem WellFormed.of_untouched (hchange : Changed f g s s')
    (hf : ∀ t, (f t).servers = t.servers ∧ (f t).channels = t.channels ∧
      (f t).channelGroups = t.channelGroups)
    (hr : ∀ t, (f t).roles = t.roles ∧ (f t).memberRoles = t.memberRoles) :
    WellFormed s'.db.tables := by
  refine h.of_changed hchange hf ?_
  obtain ⟨hservers, -, -⟩ := hf s.db.tables
  obtain ⟨hroles, hassigned⟩ := hr s.db.tables
  rw [hchange.tables]
  refine h.roles.of_memberRoles hservers hroles ?_
  intro mr hmr
  rw [hassigned] at hmr
  exact .inl hmr

theorem WellFormed.of_rearranged
    (hchange : Rearranged regroup touched g s s') (hchannels : ChannelsLocal s'.db.tables) :
    WellFormed s'.db.tables := by
  refine ⟨?_, hchannels⟩
  rw [hchange.tables.rest]
  exact h.roles.of_memberRoles rfl rfl fun _ => .inl

theorem WellFormed.of_filled (hfill : Filled s s') :
    WellFormed s'.db.tables := by
  rw [hfill.db]
  exact h

/-- **Every effect keeps** roles, categories and companions with their server. -/
theorem WellFormed.of_effect (heffect : c.Effect caller s s') :
    WellFormed s'.db.tables := by
  cases c with
  | updateMember req =>
    obtain ⟨-, s₁, hfill, hchange⟩ := heffect
    exact (h.of_filled hfill).of_untouched hchange (fun _ => ⟨rfl, rfl, rfl⟩) (fun _ => ⟨rfl, rfl⟩)
  | setMemberRoles req =>
    exact h.of_changed heffect.change (fun _ => ⟨rfl, rfl, rfl⟩) (heffect.rolesLocal h.roles)
  | kickMember req =>
    have hroles := heffect.change.rolesLocal h.roles
    obtain ⟨-, channelMembers, hchange⟩ := heffect
    exact h.of_changed hchange (fun _ => ⟨rfl, rfl, rfl⟩) hroles
  | banMember req =>
    have hroles := heffect.rolesLocal h.roles
    obtain ⟨-, bans, -, ⟨-, channelMembers, hchange⟩ | ⟨-, hchange⟩⟩ := heffect
    · exact h.of_changed hchange (fun _ => ⟨rfl, rfl, rfl⟩) hroles
    · exact h.of_changed hchange (fun _ => ⟨rfl, rfl, rfl⟩) hroles
  | unbanMember req => exact h.of_untouched heffect (fun _ => ⟨rfl, rfl, rfl⟩) (fun _ => ⟨rfl, rfl⟩)
  | timeoutMember | removeTimeout =>
    exact h.of_untouched heffect.change (fun _ => ⟨rfl, rfl, rfl⟩) (fun _ => ⟨rfl, rfl⟩)
  | createRole newID req =>
    have hroles := heffect.rolesLocal h.roles
    obtain ⟨-, created, -, -, -, -, -, hchange⟩ := heffect
    exact h.of_changed hchange (fun _ => ⟨rfl, rfl, rfl⟩) hroles
  | updateRole | deleteRole =>
    have hroles := heffect.rolesLocal h.roles
    obtain ⟨userID, auth, role, -, -, -, -, hchange⟩ := heffect
    exact h.of_changed hchange (fun _ => ⟨rfl, rfl, rfl⟩) hroles
  | reorderRoles req =>
    have hroles := heffect.rolesLocal h.roles
    obtain ⟨userID, auth, callerPos, -, -, -, -, -, hchange⟩ := heffect
    exact h.of_changed hchange (fun _ => ⟨rfl, rfl, rfl⟩) hroles
  | setPermissionOverride | deletePermissionOverride =>
    obtain ⟨userID, auth, target, subject, -, -, -, hchange⟩ := heffect
    exact h.of_rearranged hchange (h.channels.of_changed hchange.tables fun _ _ _ _ => False.elim)
  | syncChannelPermissions req =>
    obtain ⟨userID, auth, ch, -, -, hchange⟩ := heffect
    exact h.of_rearranged hchange (h.channels.of_changed hchange.tables fun _ _ _ _ => False.elim)
  | updateChannel overrideID mirrorID uuid req =>
    have hchannels := heffect.channelsLocal h.channels
    obtain ⟨userID, auth, ch, -, -, -, -, hchange⟩ := heffect
    exact h.of_rearranged hchange hchannels
  | deleteChannelGroup uuid req =>
    obtain ⟨group, -, hchange⟩ := heffect
    refine h.of_rearranged hchange (h.channels.of_changed hchange.tables ?_)
    intro c _ g _ hregroup
    -- the channels of the category end up without one
    exact absurd hregroup.1 (Option.some_ne_none g.id)
  | joinServer req =>
    obtain ⟨userID, inv, invites, -, -, -, hchange⟩ := heffect
    exact h.of_untouched hchange (fun _ => ⟨rfl, rfl, rfl⟩) (fun _ => ⟨rfl, rfl⟩)
  | leaveServer req =>
    obtain ⟨userID, srv, -, -, -, hremoved⟩ := heffect
    have hroles := hremoved.rolesLocal h.roles
    obtain ⟨channelMembers, hchange⟩ := hremoved
    exact h.of_changed hchange (fun _ => ⟨rfl, rfl, rfl⟩) hroles
  | completeOnboarding req =>
    have hroles := heffect.rolesLocal h.roles
    obtain ⟨userID, srv, completedAt, channelMembers, -, -, -, -, hchange⟩ := heffect
    exact h.of_changed hchange (fun _ => ⟨rfl, rfl, rfl⟩) hroles
  | getEffectivePermissions | listChannels => exact h.of_filled heffect

theorem WellFormed.of_outcome (hout : Outcome caller c s s') :
    WellFormed s'.db.tables := by
  rcases hout with hfill | ⟨invites, hchange⟩ | heffect
  · exact h.of_filled hfill
  · exact h.of_untouched hchange (fun _ => ⟨rfl, rfl, rfl⟩) (fun _ => ⟨rfl, rfl⟩)
  · exact h.of_effect heffect

theorem step_wellFormed (ev : Event) :
    WellFormed (step s ev).db.tables := by
  rcases ev with ⟨caller, c⟩ | seconds
  · exact h.of_outcome (handle_outcome caller c s h.channels.channelIDs)
  · exact h

/-- **Every run** from a well-formed state stays well formed. -/
theorem run_wellFormed (evs : List Event) :
    WellFormed (Run.exec step s evs).db.tables := by
  induction evs generalizing s with
  | nil => exact h
  | cons ev evs ih => exact ih (step_wellFormed h ev)

theorem step_framed (ev : Event) :
    Framed s.db.tables (step s ev).db.tables := by
  rcases ev with ⟨caller, c⟩ | seconds
  · exact (handle_outcome caller c s h.channels.channelIDs).framed
  · exact .of_members rfl rfl fun _ => id

end

end Runs

end Meza.Chat
