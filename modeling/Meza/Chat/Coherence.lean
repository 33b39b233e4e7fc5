import Meza.Chat.System

/-! # Coherence of the permission cache

    A cached mask is served for five minutes unless somebody drops it. It is
    coherent when the current tables still give the same mask; that a timeout
    may have run out since the mask was computed is left aside.

    Most calls drop what they make stale. Four do not: `CompleteOnboarding`
    assigns roles, `UpdateChannel` toggles privacy and moves channels between
    categories, `SyncChannelPermissions` forgets the text companion, and
    `JoinServer` lets a former member back to masks of its earlier membership.
    Runs in which none of them meets a live entry keep the cache coherent. -/

namespace Meza.Chat

open Store Permissions Table ChatStore Cache Run RoleStore Option

/-! ## Section 1: Coherence -/

/-- Every live entry of a member is what the tables give. Entries of others are
    not served: every handler checks the membership first. -/
def Coherent (s : ChatState) : Prop :=
  ∀ e ∈ s.cache, e.live s.now = true →
    isMember s.db.tables e.key.userID e.key.serverID = true →
    computePermissions s.db.tables e.setAt e.key = .ok e.perms

instance (s : ChatState) : Decidable (Coherent s) := inferInstanceAs (Decidable (∀ _ ∈ s.cache, _))

/-- Every entry is at the server level or for a channel of its server. -/
def KeysLocal (s : ChatState) : Prop := ∀ e ∈ s.cache, KeyOfServer s.db.tables e.key

/-- The category the request moves a channel to is not its own. -/
def Recategorizes (t : Tables) (req : UpdateChannelRequest) (channelID : ID) : Prop :=
  ∃ newGroup ∈ req.channelGroupID, orNull newGroup ≠ t.channelGroupOf channelID

/-- The call changes what the entry was computed from and does not drop it. -/
def Disturbs (t : Tables) (caller : Option ID) (key : CacheKey) : Call → Prop
  | .completeOnboarding req =>
    -- a role is assigned to the member of the entry
    caller = some key.userID ∧ req.serverID = key.serverID ∧
      isMember t key.userID key.serverID = true ∧
      (∃ srv, getServer t key.serverID = .ok srv ∧ srv.onboardingEnabled = true) ∧
      ∃ r ∈ t.roles, r.id ∈ req.roleIDs ∧ r.serverID = key.serverID ∧
        r.isSelfAssignable = true ∧
        { userID := key.userID, serverID := key.serverID, roleID := r.id } ∉ t.memberRoles
  | .updateChannel _ _ _ req =>
    -- the channel of the entry, or its voice channel, is toggled or moved
    ∃ ch userID auth, lookup Channel.id req.channelID t.channels = some ch ∧
      Authorized t caller (ch.serverID.getD "") manageChannels userID auth ∧
      ((key.channelID = req.channelID ∧
          ((privacyToggle ch req).isSome = true ∨ Recategorizes t req key.channelID)) ∨
        (ch.voiceTextChannelID = some key.channelID ∧
          ((touchesCompanion req = true ∧ (privacyToggle ch req).isSome = true) ∨
            Recategorizes t req key.channelID)))
  | .syncChannelPermissions req =>
    -- the voice channel of the entry is synced, and the entry has overrides to lose
    ∃ ch userID auth, lookup Channel.id req.channelID t.channels = some ch ∧
      Authorized t caller (ch.serverID.getD "") manageRoles userID auth ∧
      ch.voiceTextChannelID = some key.channelID ∧
      ∃ po ∈ t.permissionOverrides, po.scope = .channel key.channelID
  | .joinServer req =>
    -- the user of the entry comes back
    caller = some key.userID ∧ isMember t key.userID key.serverID = false ∧
      ∃ inv, lookup Invite.code (toLower (trimSpace req.inviteCode)) t.invites = some inv ∧
        inv.serverID = key.serverID
  | _ => False

/-- The call disturbs no live entry. -/
def Spares (s : ChatState) (caller : Option ID) (c : Call) : Prop :=
  ∀ e ∈ s.cache, e.live s.now = true → ¬ Disturbs s.db.tables caller e.key c

def Undisturbed (s : ChatState) : Event → Prop
  | .call caller c => Spares s caller c
  | .tick _ => True

/-! ## Section 2: What a mask is computed from -/

/-- The roles assigned to the member of the key. -/
def assignedTo (t : Tables) (key : CacheKey) : List MemberRole :=
  t.memberRoles.filter fun mr => mr.userID = key.userID ∧ mr.serverID = key.serverID

/-- The tables agree on everything the key's mask is computed from. -/
structure SameView (t t' : Tables) (key : CacheKey) : Prop where
  servers : t'.servers = t.servers
  users : t'.users = t.users
  member : ∀ m, lookup Member.key (key.userID, key.serverID) t.members = some m →
    ∃ m', lookup Member.key (key.userID, key.serverID) t'.members = some m' ∧
      m'.timedOutUntil = m.timedOutUntil
  assigned : assignedTo t' key = assignedTo t key
  everyone : ∀ srv ∈ t.servers, srv.id = key.serverID →
    ∀ r, lookup Role.id key.serverID t.roles = some r →
    ∃ r', lookup Role.id key.serverID t'.roles = some r' ∧ r'.permissions = r.permissions
  roles : (getRolesByIDs t' ((assignedTo t key).map (·.roleID)) key.serverID).map
      (·.permissions) =
    (getRolesByIDs t ((assignedTo t key).map (·.roleID)) key.serverID).map (·.permissions)
  overrides : key.channelID ≠ "" →
    getAllOverridesForChannel t' key.channelID
      (key.serverID :: (assignedTo t key).map (·.roleID)) key.userID =
    getAllOverridesForChannel t key.channelID
      (key.serverID :: (assignedTo t key).map (·.roleID)) key.userID

variable {t t' : Tables} {key : CacheKey} {serverID userID : ID}

/-- **The mask depends on the view only.** -/
theorem SameView.compute {now : Int} {perms : Mask} (h : SameView t t' key)
    (hok : computePermissions t now key = .ok perms) :
    computePermissions t' now key = .ok perms := by
  obtain ⟨input, hinput, hperms⟩ := map_eq_ok.mp hok
  refine map_eq_ok.mpr ⟨input, ?_, hperms⟩
  obtain ⟨srv, hsrv, hinput⟩ := bind_eq_ok.mp hinput
  obtain ⟨r, hr, hinput⟩ := bind_eq_ok.mp hinput
  obtain ⟨info, hinfo, hinput⟩ := bind_eq_ok.mp hinput
  -- the same server, `@everyone` role and member are found in the new tables
  have hsrv' : getServer t' key.serverID = .ok srv := by
    unfold getServer
    rw [h.servers]
    exact hsrv
  obtain ⟨hsrvmem, hsrvid⟩ := mem_of_lookup (oneRow_ok.mp hsrv)
  obtain ⟨r', hr', hrperms⟩ := h.everyone srv hsrvmem hsrvid r (oneRow_ok.mp hr)
  obtain ⟨m, hm, hfound⟩ := bind_eq_some_iff.mp (oneRow_ok.mp hinfo)
  obtain ⟨u, huser, rfl⟩ := map_eq_some_iff.mp hfound
  obtain ⟨m', hm', htimeout⟩ := h.member m hm
  rw [← h.users] at huser
  have hinfo' := getMember_of_lookup hm' huser
  refine bind_eq_ok.mpr ⟨srv, hsrv', bind_eq_ok.mpr ⟨r', oneRow_ok.mpr hr',
    bind_eq_ok.mpr ⟨_, hinfo', ?_⟩⟩⟩
  have hassigned : t'.memberRoles.filter (fun mr =>
      mr.userID = key.userID ∧ mr.serverID = key.serverID) = assignedTo t key := h.assigned
  rw [hassigned, ← hinput]
  dsimp only
  rw [h.roles, hrperms, htimeout]
  -- overrides are only read for a channel
  by_cases hchannel : key.channelID = ""
  · rw [if_pos hchannel, if_pos hchannel]
    rfl
  · rw [if_neg hchannel, if_neg hchannel, h.overrides hchannel]
    rfl

/-! ## Section 3: Views of members -/

section Members

variable {members : List Member} {memberRoles : List MemberRole}
  {channelMembers : List ChannelMember} {bans : List Ban} {invites : List Invite}

theorem SameView.of_members
    (hmember : ∀ m, lookup Member.key (key.userID, key.serverID) t.members = some m →
      ∃ m', lookup Member.key (key.userID, key.serverID) members = some m' ∧
        m'.timedOutUntil = m.timedOutUntil)
    (hassigned : memberRoles.filter (fun mr =>
      mr.userID = key.userID ∧ mr.serverID = key.serverID) = assignedTo t key) :
    SameView t { t with members, memberRoles, channelMembers, bans, invites } key :=
  ⟨rfl, rfl, hmember, hassigned, fun _ _ _ r hr => ⟨r, hr, rfl⟩, rfl, fun _ => rfl⟩

theorem SameView.of_withMember {f : Member → Member} (hkey : ∀ m, (f m).key = m.key)
    (hf : (key.userID = userID ∧ key.serverID = serverID) → ∀ m, (f m).timedOutUntil = m.timedOutUntil) :
    SameView t (withMember serverID userID f t) key := by
  refine SameView.of_members ?_ rfl
  intro m hm
  refine ⟨_, by rw [lookup_updateWhere hkey, hm]; rfl, ?_⟩
  dsimp only
  split
  · rename_i hcond
    obtain ⟨hserver, huser⟩ := of_decide_eq_true hcond
    obtain ⟨huser', hserver'⟩ := Prod.mk.inj (mem_of_lookup hm).2
    exact hf ⟨huser'.symm.trans huser, hserver'.symm.trans hserver⟩ m
  · rfl

theorem SameView.of_removed (hother : ¬ (key.userID = userID ∧ key.serverID = serverID)) :
    SameView t { withoutMember t userID serverID with channelMembers, bans } key := by
  refine SameView.of_members ?_ ?_
  · intro m hm
    refine ⟨m, ?_, rfl⟩
    rw [← hm]
    refine lookup_deleteWhere ?_ _
    intro m' hm'
    obtain ⟨huser, hserver⟩ := Prod.mk.inj hm'
    exact decide_eq_false fun h => hother ⟨huser.symm.trans h.1, hserver.symm.trans h.2⟩
  · refine agreeOutside_deleteWhere (P := fun mr : MemberRole =>
      mr.userID = userID ∧ mr.serverID = serverID) (fun _ _ h => of_decide_eq_true h) _ ?_
    intro mr hmr
    exact decide_eq_false fun h => hother ⟨h.1.symm.trans hmr.1, h.2.symm.trans hmr.2⟩

end Members

theorem exists_server_of_isMember (hc : t.Constraints) (h : isMember t userID serverID = true) :
    ∃ srv ∈ t.servers, srv.id = serverID := by
  obtain ⟨m, hm, hkey⟩ := isMember_iff.mp h
  obtain ⟨srv, hsrv, hid⟩ := List.mem_map.mp (hc.servers.membersServer m hm)
  exact ⟨srv, hsrv, hid.trans (Prod.mk.inj hkey).2⟩

/-- Nobody becomes a member by an update that keeps the keys. -/
theorem isMember_of_updateWhere {p : Member → Bool} {f : Member → Member}
    (h : isMember t' userID serverID = true) (hmembers : t'.members = updateWhere p f t.members)
    (hkey : ∀ m, (f m).key = m.key) : isMember t userID serverID = true := by
  obtain ⟨m', hm', hid⟩ := isMember_iff.mp h
  rw [hmembers] at hm'
  obtain ⟨m, hm, rfl⟩ := mem_updateWhere.mp hm'
  refine isMember_iff.mpr ⟨m, hm, ?_⟩
  split at hid
  · rwa [hkey] at hid
  · exact hid

/-! ## Section 4: Views of roles and channels -/

theorem SameView.of_roles (hs : RolesLocal t) (hc : t.Constraints)
    (hother : key.serverID ≠ serverID) {roles : List Role} {memberRoles : List MemberRole}
    {permissionOverrides : List PermissionOverride} (hpk : UniqueOn Role.id roles)
    (hroles : AgreeOutside (fun r => r.serverID = serverID) t.roles roles)
    (hassigned : memberRoles.filter (fun mr => mr.userID = key.userID ∧ mr.serverID = key.serverID) = assignedTo t key)
    (hoverrides : ∀ channelGroupID, permissionOverrides.filter (fun po => po.targets key.channelID channelGroupID && po.concerns (key.serverID :: (assignedTo t key).map (·.roleID)) key.userID) = t.permissionOverrides.filter (fun po => po.targets key.channelID channelGroupID && po.concerns (key.serverID :: (assignedTo t key).map (·.roleID)) key.userID)) :
    SameView t { t with roles, memberRoles, permissionOverrides } key := by
  refine ⟨rfl, rfl, fun m hm => ⟨m, hm, rfl⟩, hassigned, ?_, ?_, ?_⟩
  · -- `@everyone` has the id of its server, so it is of the entry's own server
    intro srv hsrv hid r hr
    obtain ⟨hmem, hrid⟩ := mem_of_lookup hr
    refine ⟨r, ?_, rfl⟩
    have hserver := hs.server_of_id hc hsrv hmem (hrid.trans hid.symm)
    have hkept : r ∈ roles := by
      refine (hroles.mem_iff ?_).mpr hmem
      intro hchanged
      exact hother (by rw [← hchanged, hserver, hid])
    rw [← hrid]
    exact lookup_of_mem hpk hkept
  · refine congrArg (List.map _) (hroles _ ?_)
    intro r hr
    refine decide_eq_false fun h => hother (h.2.symm.trans hr)
  · intro _
    exact congrArg collectOverrides (hoverrides _)

variable {touched : OverrideScope → OverrideSubject → Prop} {regroup : ID → Option ID → Prop}

theorem SameView.of_channels (hkey : KeyOfServer t key) (h : ChannelsChanged regroup touched t t')
    (hregroup : ∀ c ∈ t.channels, c.id = key.channelID → ∀ groupID, regroup c.id groupID → groupID = c.channelGroupID)
    (htouched : ∀ c ∈ t.channels, c.id = key.channelID → ∀ subject, ¬ touched (.channel c.id) subject ∧ ∀ groupID ∈ c.channelGroupID, ¬ touched (.group groupID) subject) :
    SameView t t' key := by
  have hgroup : t'.channelGroupOf key.channelID = t.channelGroupOf key.channelID := by
    unfold Tables.channelGroupOf
    rcases lookup_forall₂ (fun _ _ hedit => hedit.id) h.channels key.channelID with
      ⟨hnone, hnone'⟩ | ⟨c, c', hc, hc', hedit⟩
    · rw [hnone, hnone']
    · rw [hc, hc', bind_some, bind_some]
      obtain ⟨hmem, hid⟩ := mem_of_lookup hc
      rcases hedit.group with hsame | hmoved
      · exact hsame
      · exact hregroup c hmem hid _ hmoved
  have hview : key.channelID ≠ "" → ∀ roleIDs,
      getAllOverridesForChannel t' key.channelID roleIDs key.userID =
        getAllOverridesForChannel t key.channelID roleIDs key.userID := by
    intro hne roleIDs
    -- an entry for a channel is about a channel that exists
    obtain ⟨c, hc, hid, -⟩ := hkey.resolve_left hne
    unfold getAllOverridesForChannel
    rw [hgroup]
    refine congrArg collectOverrides (h.overrides _ ?_)
    intro po hpo
    rw [Bool.and_eq_false_iff]
    left
    unfold PermissionOverride.targets
    rcases hscope : po.scope with groupID | channelID
    · refine decide_eq_false fun hin => ?_
      obtain ⟨d, hd, hin⟩ := bind_eq_some_iff.mp hin
      obtain ⟨hmem, hdid⟩ := mem_of_lookup hd
      rw [hscope] at hpo
      exact (htouched d hmem hdid po.subject).2 groupID hin hpo
    · refine decide_eq_false fun hin => ?_
      rw [hscope, hin, ← hid] at hpo
      exact (htouched c hc hid po.subject).1 hpo
  obtain ⟨groups, channels, overrides, rfl⟩ : ∃ groups channels overrides, t' =
      { t with
        channelGroups := groups
        channels := channels
        permissionOverrides := overrides } := ⟨_, _, _, h.rest⟩
  exact ⟨rfl, rfl, fun m hm => ⟨m, hm, rfl⟩, rfl, fun _ _ _ r hr => ⟨r, hr, rfl⟩, rfl,
    fun hne => hview hne _⟩

/-! ## Section 5: One call -/

/-- The invariant of undisturbed runs. -/
structure Sound (s : ChatState) : Prop where
  wellFormed : WellFormed s.db.tables
  keys : KeysLocal s
  coherent : Coherent s

theorem Sound.of_empty {s : ChatState} (h : WellFormed s.db.tables) (hcache : s.cache = []) :
    Sound s := by
  refine ⟨h, ?_, ?_⟩
  · intro e he
    rw [hcache] at he
    cases he
  · intro e he
    rw [hcache] at he
    cases he

section Calls

variable {caller : Option ID} {s s' : ChatState}

theorem Sound.of_filled (h : Sound s) (hfill : Filled s s') : Sound s' := by
  refine ⟨by rw [hfill.db]; exact h.wellFormed, ?_, ?_⟩
  · intro e he
    rw [hfill.db]
    rcases hfill.cache e he with hold | ⟨-, hkey, -⟩
    · exact h.keys e hold
    · exact hkey
  · intro e he hlive hmember
    rw [hfill.db] at hmember ⊢
    rw [hfill.now] at hlive
    rcases hfill.cache e he with hold | ⟨hset, -, hperms⟩
    · exact h.coherent e hold hlive hmember
    · rw [hset]
      exact hperms

theorem Sound.of_view (h : Sound s) (hwf : WellFormed s'.db.tables) (hnow : s'.now = s.now)
    (hcache : ∀ e ∈ s'.cache, e ∈ s.cache)
    (hkeys : ∀ key, KeyOfServer s.db.tables key → KeyOfServer s'.db.tables key)
    (hview : ∀ e ∈ s'.cache, e.live s.now = true →
      isMember s'.db.tables e.key.userID e.key.serverID = true →
      isMember s.db.tables e.key.userID e.key.serverID = true ∧
        SameView s.db.tables s'.db.tables e.key) : Sound s' := by
  refine ⟨hwf, fun e he => hkeys e.key (h.keys e (hcache e he)), ?_⟩
  intro e he hlive hmember
  rw [hnow] at hlive
  obtain ⟨hmember, hsame⟩ := hview e he hlive hmember
  exact hsame.compute (h.coherent e (hcache e he) hlive hmember)

variable {g : Cache → Cache}

theorem Sound.of_changed {f : Tables → Tables} (h : Sound s) (hwf : WellFormed s'.db.tables)
    (hchange : Changed f g s s') (hchannels : (f s.db.tables).channels = s.db.tables.channels)
    (hg : ∀ e ∈ g s.cache, e ∈ s.cache) (hview : ∀ e ∈ g s.cache, e.live s.now = true →
      isMember (f s.db.tables) e.key.userID e.key.serverID = true →
      isMember s.db.tables e.key.userID e.key.serverID = true ∧
        SameView s.db.tables (f s.db.tables) e.key) : Sound s' := by
  refine h.of_view hwf hchange.now ?_ ?_ ?_
  · rw [hchange.cache]
    exact hg
  · intro key hkey
    unfold KeyOfServer
    rw [hchange.tables, hchannels]
    exact hkey
  · rw [hchange.cache, hchange.tables]
    exact hview

theorem Sound.of_rearranged (h : Sound s) (hwf : WellFormed s'.db.tables)
    (hchange : Rearranged regroup touched g s s') (hg : ∀ e ∈ g s.cache, e ∈ s.cache)
    (hview : ∀ e ∈ g s.cache, e.live s.now = true →
      SameView s.db.tables s'.db.tables e.key) : Sound s' := by
  refine h.of_view hwf hchange.now ?_ ?_ ?_
  · rw [hchange.cache]
    exact hg
  · intro key hkey
    rcases hkey with hlevel | ⟨c, hc, hid, hserver⟩
    · exact Or.inl hlevel
    · obtain ⟨c', hc', hedit⟩ := exists_of_forall₂ hchange.tables.channels.flip hc
      exact Or.inr ⟨c', hc', hedit.id.trans hid, hedit.serverID.trans hserver⟩
  · rw [hchange.cache]
    intro e he hlive hmember
    refine ⟨?_, hview e he hlive⟩
    rwa [hchange.tables.rest] at hmember

theorem NicknameSet.sound {req : UpdateMemberRequest} (heffect : NicknameSet caller req s s')
    (h : Sound s) : Sound s' := by
  obtain ⟨-, s₁, hfill, hchange⟩ := heffect
  have h₁ := h.of_filled hfill
  have hwf := h₁.wellFormed.of_untouched hchange (fun _ => ⟨rfl, rfl, rfl⟩) (fun _ => ⟨rfl, rfl⟩)
  refine h₁.of_changed hwf hchange rfl (fun _ he => he) ?_
  intro e _ _ hmember
  exact ⟨isMember_of_updateWhere hmember rfl (fun _ => rfl),
    SameView.of_withMember (fun _ => rfl) (fun _ _ => rfl)⟩

theorem TimeoutSet.sound {timedOutUntil : Option Int}
    (heffect : TimeoutSet caller serverID userID timedOutUntil s s') (h : Sound s) : Sound s' := by
  have hwf := h.wellFormed.of_untouched heffect.change (fun _ => ⟨rfl, rfl, rfl⟩)
    (fun _ => ⟨rfl, rfl⟩)
  refine h.of_changed hwf heffect.change rfl (fun e he => (mem_invalidateUser he).1) ?_
  intro e he _ hmember
  exact ⟨isMember_of_updateWhere hmember rfl (fun _ => rfl),
    SameView.of_withMember (fun _ => rfl) fun htarget =>
      absurd htarget (mem_invalidateUser he).2⟩

theorem RolesSet.sound {req : SetMemberRolesRequest} (heffect : RolesSet caller req s s')
    (h : Sound s) (hwf : WellFormed s'.db.tables) : Sound s' := by
  refine h.of_changed hwf heffect.change rfl (fun e he => (mem_invalidateUser he).1) ?_
  intro e he _ hmember
  refine ⟨hmember, SameView.of_members (fun m hm => ⟨m, hm, rfl⟩) ?_⟩
  have hagree : AgreeOutside (fun mr : MemberRole =>
      mr.userID = req.userID ∧ mr.serverID = req.serverID) s.db.tables.memberRoles
      (deleteWhere (fun mr => mr.userID = req.userID ∧ mr.serverID = req.serverID)
        s.db.tables.memberRoles ++ req.dedupedRoleIDs.map fun roleID =>
          { userID := req.userID, serverID := req.serverID, roleID }) := by
    refine (agreeOutside_deleteWhere fun _ _ hcond => of_decide_eq_true hcond).trans
      (agreeOutside_append ?_)
    intro mr hmr
    obtain ⟨roleID, -, rfl⟩ := List.mem_map.mp hmr
    exact ⟨rfl, rfl⟩
  -- the entry left in the cache is of somebody else
  refine hagree _ fun mr hmr => decide_eq_false fun hkey => (mem_invalidateUser he).2 ?_
  exact ⟨hkey.1.symm.trans hmr.1, hkey.2.symm.trans hmr.2⟩

/-- The former member's entries stay, but nobody is served from them. -/
theorem isMember_of_removed (hmembers : t'.members = (withoutMember t userID serverID).members)
    {userID' serverID' : ID} (h : isMember t' userID' serverID' = true) :
    isMember t userID' serverID' = true ∧ ¬ (userID' = userID ∧ serverID' = serverID) := by
  obtain ⟨m, hm, hkey⟩ := isMember_iff.mp h
  rw [hmembers] at hm
  obtain ⟨hm, hkept⟩ := mem_deleteWhere.mp hm
  refine ⟨isMember_iff.mpr ⟨m, hm, hkey⟩, ?_⟩
  intro hboth
  obtain ⟨huser, hserver⟩ := hboth
  obtain ⟨hmuser, hmserver⟩ := Prod.mk.inj hkey
  exact of_decide_eq_false hkept ⟨hmuser.trans huser, hmserver.trans hserver⟩

theorem MemberRemoved.sound (heffect : MemberRemoved userID serverID s s') (h : Sound s)
    (hwf : WellFormed s'.db.tables) : Sound s' := by
  obtain ⟨channelMembers, hchange⟩ := heffect
  refine h.of_changed hwf hchange rfl (fun _ he => he) ?_
  intro e _ _ hmember
  obtain ⟨hmember, hother⟩ := isMember_of_removed rfl hmember
  exact ⟨hmember, SameView.of_removed hother⟩

theorem Banned.sound {req : BanMemberRequest} (heffect : Banned caller req s s') (h : Sound s)
    (hwf : WellFormed s'.db.tables) : Sound s' := by
  obtain ⟨-, bans, -, ⟨-, channelMembers, hchange⟩ | ⟨-, hchange⟩⟩ := heffect
  · refine h.of_changed hwf hchange rfl (fun _ he => he) ?_
    intro e _ _ hmember
    obtain ⟨hmember, hother⟩ := isMember_of_removed rfl hmember
    exact ⟨hmember, SameView.of_removed hother⟩
  · refine h.of_changed hwf hchange rfl (fun _ he => he) ?_
    intro e _ _ hmember
    exact ⟨hmember, SameView.of_members (fun m hm => ⟨m, hm, rfl⟩) rfl⟩

/-- A role that is new is held by nobody. -/
theorem RoleCreated.sound {newID : ID} {req : CreateRoleRequest}
    (heffect : RoleCreated newID caller req s s') (h : Sound s) (hwf : WellFormed s'.db.tables) :
    Sound s' := by
  obtain ⟨-, created, -, -, -, -, -, hchange⟩ := heffect
  -- the primary key still holds, so the id is new
  have hpk := s'.db.constraints.roles.rolesPK
  rw [hchange.tables] at hpk
  have hfresh := notMem_of_append hpk
  refine h.of_changed hwf hchange rfl (fun _ he => he) ?_
  intro e _ _ hmember
  refine ⟨hmember, rfl, rfl, fun m hm => ⟨m, hm, rfl⟩, rfl, ?_, ?_, fun _ => rfl⟩
  · intro _ _ _ r hr
    refine ⟨r, ?_, rfl⟩
    unfold lookup at hr ⊢
    rw [List.find?_append, hr]
    rfl
  · unfold getRolesByIDs
    rw [List.filter_append, List.map_append]
    have hnone : [created].filter (fun r => r.id ∈ (assignedTo s.db.tables e.key).map (·.roleID) ∧
        r.serverID = e.key.serverID) = [] := by
      rw [List.filter_eq_nil_iff]
      intro r hr hcond
      rw [List.mem_singleton.mp hr] at hcond
      obtain ⟨mr, hmr, hid⟩ := List.mem_map.mp (of_decide_eq_true hcond).1
      have hheld := s.db.constraints.roles.memberRolesRole mr (List.mem_filter.mp hmr).1
      rw [hid] at hheld
      exact hfresh hheld
    rw [hnone, List.map_nil, List.append_nil]

theorem RoleUpdated.sound {req : UpdateRoleRequest} (heffect : RoleUpdated caller req s s')
    (h : Sound s) (hwf : WellFormed s'.db.tables) : Sound s' := by
  obtain ⟨userID, auth, role, hrole, -, -, -, hchange⟩ := heffect.rights
  obtain ⟨hmem, hid⟩ := mem_of_lookup hrole
  have hpk := s'.db.constraints.roles.rolesPK
  rw [hchange.tables] at hpk
  -- the update stays in the server whose entries were dropped
  have hisRole : ∀ r ∈ s.db.tables.roles, decide (r.id = req.roleID) = true →
      r.serverID = role.serverID := by
    intro r hr hcond
    rw [eq_of_key s.db.constraints.roles.rolesPK hr hmem ((of_decide_eq_true hcond).trans hid.symm)]
  refine h.of_changed hwf hchange rfl (fun e he => (mem_invalidateServer he).1) ?_
  intro e he _ hmember
  refine ⟨hmember, SameView.of_roles h.wellFormed.roles s.db.constraints
    (mem_invalidateServer he).2 hpk ?_ rfl (fun _ => rfl)⟩
  exact agreeOutside_updateWhere hisRole hisRole

theorem role_notMem_assignedTo (hs : RolesLocal t) {role : Role} (hrole : role ∈ t.roles)
    (hother : key.serverID ≠ role.serverID) :
    role.id ∉ (assignedTo t key).map (·.roleID) := by
  intro hmem
  obtain ⟨mr, hmr, hid⟩ := List.mem_map.mp hmem
  obtain ⟨hmr, hcond⟩ := List.mem_filter.mp hmr
  have hserver := hs.assigned mr hmr role hrole hid.symm
  exact hother ((of_decide_eq_true hcond).2.symm.trans hserver.symm)

theorem assignedTo_of_deleted {roleID : ID} (hnot : roleID ∉ (assignedTo t key).map (·.roleID)) :
    (deleteWhere (fun mr => mr.roleID = roleID) t.memberRoles).filter (fun mr =>
      mr.userID = key.userID ∧ mr.serverID = key.serverID) = assignedTo t key := by
  unfold deleteWhere assignedTo
  rw [List.filter_filter]
  refine List.filter_congr ?_
  intro mr hmr
  by_cases hkey : mr.userID = key.userID ∧ mr.serverID = key.serverID
  · have hkept : mr.roleID ≠ roleID := by
      intro hsame
      exact hnot (List.mem_map.mpr ⟨mr, List.mem_filter.mpr ⟨hmr, decide_eq_true hkey⟩, hsame⟩)
    simp [hkey, hkept]
  · simp [hkey]

theorem overrides_of_deleted {overrides : List PermissionOverride} {roleID channelID : ID}
    {channelGroupID : Option ID} {roleIDs : List ID} (hnot : roleID ∉ roleIDs) :
    (deleteWhere (fun po => po.subject = .role roleID) overrides).filter (fun po =>
      po.targets channelID channelGroupID && po.concerns roleIDs userID) =
    overrides.filter (fun po =>
      po.targets channelID channelGroupID && po.concerns roleIDs userID) := by
  refine agreeOutside_deleteWhere (P := fun po : PermissionOverride =>
    po.subject = .role roleID) (fun _ _ hcond => of_decide_eq_true hcond) _ ?_
  intro po hpo
  rw [Bool.and_eq_false_iff]
  right
  unfold PermissionOverride.concerns
  rw [hpo]
  exact decide_eq_false hnot

theorem RoleDeleted.sound {req : DeleteRoleRequest} (heffect : RoleDeleted caller req s s')
    (h : Sound s) (hwf : WellFormed s'.db.tables) : Sound s' := by
  obtain ⟨userID, auth, role, hrole, -, -, -, hchange⟩ := heffect.rights
  obtain ⟨hmem, hid⟩ := mem_of_lookup hrole
  have hpk := s'.db.constraints.roles.rolesPK
  rw [hchange.tables] at hpk
  refine h.of_changed hwf hchange rfl (fun e he => (mem_invalidateServer he).1) ?_
  intro e he _ hmember
  have hother := (mem_invalidateServer he).2
  have hnot := role_notMem_assignedTo h.wellFormed.roles hmem hother
  rw [hid] at hnot
  -- nor is it the `@everyone` role of the entry's server
  have hconcerned : req.roleID ∉
      e.key.serverID :: (assignedTo s.db.tables e.key).map (·.roleID) := by
    intro hin
    rcases List.mem_cons.mp hin with heveryone | hassigned
    · obtain ⟨srv, hsrv, hsrvid⟩ := exists_server_of_isMember s.db.constraints hmember
      have hserver := h.wellFormed.roles.server_of_id s.db.constraints hsrv hmem
        (hid.trans (heveryone.trans hsrvid.symm))
      exact hother (hsrvid.symm.trans hserver.symm)
    · exact hnot hassigned
  refine ⟨hmember, SameView.of_roles h.wellFormed.roles s.db.constraints hother hpk ?_
    (assignedTo_of_deleted hnot) (fun _ => overrides_of_deleted hconcerned)⟩
  refine (agreeOutside_deleteWhere ?_).trans (agreeOutside_updateWhere ?_ ?_)
  · intro r hr hcond
    rw [eq_of_key s.db.constraints.roles.rolesPK hr hmem (of_decide_eq_true hcond)]
  · exact fun _ _ hcond => (of_decide_eq_true hcond).1
  · exact fun _ _ hcond => (of_decide_eq_true hcond).1

theorem RolesReordered.sound {req : ReorderRolesRequest} (heffect : RolesReordered caller req s s')
    (h : Sound s) (hwf : WellFormed s'.db.tables) : Sound s' := by
  obtain ⟨userID, auth, callerPos, -, -, -, -, hlisted, hchange⟩ := heffect.rights
  have hpk := s'.db.constraints.roles.rolesPK
  rw [hchange.tables] at hpk
  refine h.of_changed hwf hchange rfl (fun e he => (mem_invalidateServer he).1) ?_
  intro e he _ hmember
  refine ⟨hmember, SameView.of_roles h.wellFormed.roles s.db.constraints
    (mem_invalidateServer he).2 hpk ?_ rfl (fun _ => rfl)⟩
  rw [reordered_eq_map]
  refine agreeOutside_map ?_
  intro r hr
  by_cases hserver : r.serverID = req.serverID
  · exact Or.inr ⟨hserver, hserver⟩
  · -- roles of other servers are neither listed nor shifted
    left
    have hnot : r.id ∉ req.roleIDs.eraseDups := by
      intro hin
      obtain ⟨r', hr', -, hid⟩ := hlisted r.id hin
      obtain ⟨hr', hcond⟩ := List.mem_filter.mp hr'
      rw [eq_of_key s.db.constraints.roles.rolesPK hr' hr hid] at hcond
      exact hserver (of_decide_eq_true hcond).1
    rw [newPosition_of_other s.db.constraints.roles.rolesPK hr hnot (Or.inl hserver)]

theorem inServer_of_key (hs : ChannelsLocal t) (hc : t.Constraints) (hkey : KeyOfServer t key)
    {c : Channel} (hmem : c ∈ t.channels) (hid : c.id = key.channelID) :
    InServer t key.serverID (.channel c.id) ∧
      ∀ groupID ∈ c.channelGroupID, InServer t key.serverID (.group groupID) := by
  have hserver : c.serverID = some key.serverID := by
    rcases hkey with hlevel | ⟨d, hd, hdid, hserver⟩
    · exact absurd (hid.trans hlevel) (hs.channelIDs c hmem)
    · rwa [eq_of_key hc.channels.channelsPK hmem hd (hid.trans hdid.symm)]
  refine ⟨⟨c, hmem, rfl, hserver⟩, ?_⟩
  intro groupID hgroup
  obtain ⟨g, hg, rfl⟩ := List.mem_map.mp (hc.channels.channelsGroup c hmem groupID hgroup)
  have hlocal := hs.groups c hmem g hg hgroup
  rw [hserver] at hlocal
  injection hlocal with hlocal
  exact ⟨g, hg, rfl, hlocal.symm⟩

theorem OverrideWritten.sound {targetID : ID} (heffect : OverrideWritten caller targetID s s')
    (h : Sound s) (hwf : WellFormed s'.db.tables) : Sound s' := by
  obtain ⟨userID, auth, target, subject, htarget, -, -, hchange⟩ := heffect.rights
  refine h.of_rearranged hwf hchange (fun e he => (mem_invalidateServer he).1) ?_
  intro e he _
  obtain ⟨hold, hother⟩ := mem_invalidateServer he
  have hkey := h.keys e hold
  -- what is touched belongs to the server whose entries were dropped
  have huntouched : ∀ scope, InServer s.db.tables e.key.serverID scope → ∀ subject',
      ¬ (Reaches s.db.tables targetID scope ∧ subject' = subject) := by
    intro scope hin _ htouched
    exact hother (server_of_reaches h.wellFormed.channels s.db.constraints htarget htouched.1
      hin).symm
  refine SameView.of_channels hkey hchange.tables (fun _ _ _ _ => False.elim) ?_
  intro c hc hid subject'
  obtain ⟨hin, hgroups⟩ :=
    inServer_of_key h.wellFormed.channels s.db.constraints hkey hc hid
  exact ⟨huntouched _ hin _, fun groupID hgroup => huntouched _ (hgroups groupID hgroup) _⟩

theorem GroupDeleted.sound {req : DeleteChannelGroupRequest} (heffect : GroupDeleted req s s')
    (h : Sound s) (hwf : WellFormed s'.db.tables) : Sound s' := by
  obtain ⟨group, hgroup, hchange⟩ := heffect
  obtain ⟨hmem, hgid⟩ := mem_of_lookup hgroup
  refine h.of_rearranged hwf hchange (fun e he => (mem_invalidateServer he).1) ?_
  intro e he _
  obtain ⟨hold, hother⟩ := mem_invalidateServer he
  have hkey := h.keys e hold
  have hpk := s.db.constraints.channels.channelsPK
  -- a channel of the category is of its server
  have hinside : ∀ c ∈ s.db.tables.channels, c.id = e.key.channelID →
      c.channelGroupID ≠ some req.channelGroupID := by
    intro c hc hid hin
    obtain ⟨hinServer, -⟩ := inServer_of_key h.wellFormed.channels s.db.constraints hkey hc hid
    obtain ⟨d, hd, hdid, hserver⟩ := hinServer
    have hlocal := h.wellFormed.channels.groups c hc group hmem (by rw [hin, hgid])
    rw [eq_of_key hpk hd hc hdid, hlocal] at hserver
    injection hserver with hserver
    exact hother hserver.symm
  refine .of_channels hkey hchange.tables ?_ ?_
  · intro c hc hid groupID hregroup
    obtain ⟨-, d, hd, hdid, hin⟩ := hregroup
    rw [eq_of_key hpk hd hc hdid] at hin
    exact absurd hin (hinside c hc hid)
  · intro c hc hid _
    constructor
    · rintro (hscope | ⟨d, hd, hin, hscope⟩)
      · cases hscope
      · injection hscope with hscope
        rw [eq_of_key hpk hd hc hscope.symm] at hin
        exact hinside c hc hid hin
    · rintro groupID hin (hscope | ⟨d, -, -, hscope⟩)
      · injection hscope with hscope
        rw [hscope] at hin
        exact hinside c hc hid hin
      · cases hscope

/-! ## Section 6: The calls that drop too little -/

theorem Synced.sound {req : SyncChannelPermissionsRequest} (heffect : Synced caller req s s')
    (h : Sound s) (hwf : WellFormed s'.db.tables)
    (hspares : Spares s caller (.syncChannelPermissions req)) : Sound s' := by
  obtain ⟨userID, auth, ch, hch, hauth, hchange⟩ := heffect.rights
  refine h.of_rearranged hwf hchange (fun e he => (mem_invalidateChannel he).1) ?_
  intro e he hlive
  obtain ⟨hold, hother⟩ := mem_invalidateChannel he
  refine SameView.of_channels (h.keys e hold) hchange.tables (fun _ _ _ _ => False.elim) ?_
  intro c hc hid _
  constructor
  · rintro (hscope | ⟨companionID, hcompanion, hscope, hoverride⟩)
    · injection hscope with hscope
      exact hother (hid.symm.trans hscope)
    · -- the companion's overrides go, but its entries are not dropped
      injection hscope with hscope
      subst hscope
      rw [hid] at hcompanion hoverride
      exact hspares e hold hlive ⟨ch, userID, auth, hch, hauth, hcompanion, hoverride⟩
  · rintro groupID - (hscope | ⟨companionID, -, hscope, -⟩)
    · cases hscope
    · cases hscope

/-- A channel that takes a copy of its category's overrides leaves the category. -/
theorem recategorized_of_snapshot {ch : Channel} {req : UpdateChannelRequest} {oldGroup : ID}
    (h : groupMove ch req = .snapshot oldGroup) :
    ∃ newGroup ∈ req.channelGroupID, orNull newGroup ≠ ch.channelGroupID := by
  unfold groupMove at h
  dsimp only at h
  split at h
  · cases h
  · rename_i newGroup hnew
    refine ⟨newGroup, hnew, ?_⟩
    split at h
    · cases h
    · rename_i hdifferent
      split at h
      · rename_i hempty
        rw [hempty]
        intro hnone
        have hnull : ch.channelGroupID = none := hnone.symm
        rw [hnull, hempty] at hdifferent
        exact hdifferent rfl
      · cases h

section UpdateChannel

variable {overrideID mirrorID : ID} {uuid : ID → ID → ID}
  {req : UpdateChannelRequest} {auth : Authority} {ch c : Channel}
  (hpk : UniqueOn Channel.id t.channels)
  (hch : lookup Channel.id req.channelID t.channels = some ch)
  (hauth : Authorized t caller (ch.serverID.getD "") manageChannels userID auth)
  (hc : c ∈ t.channels) (hid : c.id = key.channelID)

include hpk hch hauth hc hid

theorem disturbs_of_regroups {groupID : Option ID} (h : Regroups ch req c.id groupID)
    (hmoved : groupID ≠ c.channelGroupID) :
    Disturbs t caller key (.updateChannel overrideID mirrorID uuid req) := by
  obtain ⟨hwhich, newGroup, hnew, rfl⟩ := h
  have hother : Recategorizes t req key.channelID := by
    refine ⟨newGroup, hnew, ?_⟩
    rwa [← hid, Tables.channelGroupOf_of_mem hpk hc]
  rw [hid] at hwhich
  refine ⟨ch, userID, auth, hch, hauth, ?_⟩
  rcases hwhich with hchannel | hcompanion
  · exact Or.inl ⟨hchannel, Or.inr hother⟩
  · exact Or.inr ⟨hcompanion, Or.inr hother⟩

theorem disturbs_of_retouches {subject : OverrideSubject}
    (h : Retouches ch req (.channel c.id) subject) :
    Disturbs t caller key (.updateChannel overrideID mirrorID uuid req) := by
  obtain ⟨hchmem, hchid⟩ := mem_of_lookup hch
  refine ⟨ch, userID, auth, hch, hauth, ?_⟩
  rcases h with ⟨hchannel, htouched⟩ | ⟨hcompanion, htouched⟩
  · have hsame : c.id = req.channelID := hchannel
    refine .inl ⟨hid.symm.trans hsame, ?_⟩
    rcases htouched with htoggle | ⟨oldGroup, hmove⟩
    · exact .inl htoggle
    · -- a snapshot is taken when the channel leaves its category
      obtain ⟨newGroup, hnew, hne⟩ := recategorized_of_snapshot hmove
      refine .inr ⟨newGroup, hnew, ?_⟩
      rwa [← hid, Tables.channelGroupOf_of_mem hpk hc,
        eq_of_key hpk hc hchmem (hsame.trans hchid.symm)]
  · have hsame : ch.voiceTextChannelID = some c.id := hcompanion
    rw [hid] at hsame
    exact .inr ⟨hsame, .inl htouched⟩

end UpdateChannel

theorem ChannelUpdated.sound {overrideID mirrorID : ID} {uuid : ID → ID → ID}
    {req : UpdateChannelRequest} (heffect : ChannelUpdated caller req s s') (h : Sound s)
    (hwf : WellFormed s'.db.tables)
    (hspares : Spares s caller (.updateChannel overrideID mirrorID uuid req)) : Sound s' := by
  obtain ⟨userID, auth, ch, hch, -, hauth, -, hchange⟩ := heffect.rights
  obtain ⟨hchmem, hchid⟩ := mem_of_lookup hch
  have hpk := s.db.constraints.channels.channelsPK
  refine h.of_rearranged hwf hchange (fun _ he => he) ?_
  intro e hold hlive
  have hspared := hspares e hold hlive
  refine .of_channels (h.keys e hold) hchange.tables ?_ ?_
  · intro c hc hid groupID hregroup
    by_contra hmoved
    exact hspared (disturbs_of_regroups hpk hch hauth hc hid hregroup hmoved)
  · intro c hc hid _
    constructor
    · exact fun htouched => hspared (disturbs_of_retouches hpk hch hauth hc hid htouched)
    · -- the id of a category is the id of no channel
      intro groupID hgroup htouched
      obtain ⟨g, hg, rfl⟩ :=
        List.mem_map.mp (s.db.constraints.channels.channelsGroup c hc groupID hgroup)
      rcases htouched with ⟨hchannel, -⟩ | ⟨hcompanion, -⟩
      · exact h.wellFormed.channels.disjoint ch hchmem g hg (hchid.trans hchannel.symm)
      · obtain ⟨d, hd, hdid⟩ := List.mem_map.mp
          (s.db.constraints.channels.channelsCompanion ch hchmem _ hcompanion)
        exact h.wellFormed.channels.disjoint d hd g hg hdid

theorem Joined.sound {req : JoinServerRequest} (heffect : Joined caller req s s') (h : Sound s)
    (hwf : WellFormed s'.db.tables) (hspares : Spares s caller (.joinServer req)) : Sound s' := by
  obtain ⟨userID, inv, invites, hcaller, hinv, hnot, hchange⟩ := heffect.change
  refine h.of_changed hwf hchange rfl (fun _ he => he) ?_
  intro e hold hlive hmember
  -- a live entry of the user who joins would be an old one
  have hother : (e.key.userID, e.key.serverID) ≠ (userID, inv.serverID) := by
    intro hkey
    obtain ⟨huser, hserver⟩ := Prod.mk.inj hkey
    rw [← huser] at hcaller hnot
    rw [← hserver] at hnot
    exact hspares e hold hlive ⟨hcaller, hnot, inv, hinv, hserver.symm⟩
  constructor
  · obtain ⟨m, hm, hkey⟩ := isMember_iff.mp hmember
    rcases mem_insertNew.mp hm with hm | ⟨rfl, -⟩
    · exact isMember_iff.mpr ⟨m, hm, hkey⟩
    · exact absurd hkey.symm hother
  · refine SameView.of_members ?_ rfl
    intro m hm
    refine ⟨m, ?_, rfl⟩
    rw [lookup_insertNew]
    exact (if_neg hother).trans hm

theorem foldl_insertNew_agree {P : MemberRole → Prop} {old : List MemberRole} (roleIDs : List ID)
    (rows : List MemberRole) (hrows : ∀ mr ∈ old, mr ∈ rows)
    (hP : ∀ roleID ∈ roleIDs, { userID, serverID, roleID } ∉ old → P { userID, serverID, roleID }) :
    AgreeOutside P rows (roleIDs.foldl (fun rows roleID =>
      insertNew id { userID, serverID, roleID } rows) rows) := by
  induction roleIDs generalizing rows with
  | nil => exact .refl _ rows
  | cons roleID roleIDs ih =>
    obtain ⟨hfirst, hrest⟩ := List.forall_mem_cons.mp hP
    refine .trans (agreeOutside_insertNew ?_) (ih _ ?_ hrest)
    · intro hnew
      refine hfirst fun hold => ?_
      rw [exists?_eq_true.mpr ⟨_, hrows _ hold, rfl⟩] at hnew
      cases hnew
    · exact fun mr hmr => mem_insertNew.mpr (Or.inl (hrows mr hmr))

theorem onboardedRoles_agree (t : Tables) (userID serverID : ID) (roleIDs : List ID) :
    AgreeOutside (fun mr => mr ∉ t.memberRoles ∧ ∃ r ∈ t.roles, r.id ∈ roleIDs ∧
        r.serverID = serverID ∧ r.isSelfAssignable = true ∧
        mr = { userID, serverID, roleID := r.id })
      t.memberRoles (onboardedRoles t userID serverID roleIDs) := by
  refine foldl_insertNew_agree _ _ (fun _ hmr => hmr) ?_
  intro id hid hnew
  obtain ⟨r, hr, rfl⟩ := List.mem_map.mp hid
  obtain ⟨hr, hcond⟩ := List.mem_filter.mp hr
  obtain ⟨hasked, hserver, hself⟩ := of_decide_eq_true hcond
  exact ⟨hnew, r, hr, hasked, hserver, hself, rfl⟩

theorem Onboarded.sound {req : CompleteOnboardingRequest} (heffect : Onboarded caller req s s')
    (h : Sound s) (hwf : WellFormed s'.db.tables)
    (hspares : Spares s caller (.completeOnboarding req)) : Sound s' := by
  obtain ⟨userID, srv, completedAt, channelMembers, hcaller, hmem, hsrv, henabled, hchange⟩ :=
    heffect.change
  refine h.of_changed hwf hchange rfl (fun _ he => he) ?_
  intro e hold hlive hmember
  refine ⟨isMember_of_updateWhere hmember rfl (fun _ => rfl), SameView.of_members ?_ ?_⟩
  · have hkey : ∀ m : Member,
        ({ m with onboardingCompletedAt := completedAt } : Member).key = m.key := fun _ => rfl
    intro m hm
    refine ⟨_, by rw [lookup_updateWhere hkey, hm]; rfl, ?_⟩
    dsimp only
    split
    · rfl
    · rfl
  · refine onboardedRoles_agree s.db.tables userID req.serverID req.roleIDs _ ?_
    rintro mr ⟨hnew, r, hr, hasked, hserver, hself, rfl⟩
    refine decide_eq_false fun hkey => ?_
    obtain ⟨huser, hkeyserver⟩ := hkey
    dsimp only at huser hkeyserver
    refine hspares e hold hlive ⟨by rw [hcaller, huser], hkeyserver, ?_, ⟨srv, ?_, henabled⟩,
      r, hr, hasked, hserver.trans hkeyserver, hself, ?_⟩
    · rwa [← huser, ← hkeyserver]
    · rwa [← hkeyserver]
    · rwa [← huser, ← hkeyserver]

/-! ## Section 7: Runs -/

/-- **One call** that spares the live entries keeps the cache sound. -/
theorem Sound.of_outcome {c : Call} (h : Sound s) (hspares : Spares s caller c)
    (hout : Outcome caller c s s') : Sound s' := by
  have hwf := h.wellFormed.of_outcome hout
  rcases hout with hfill | ⟨invites, hchange⟩ | hdone
  · exact h.of_filled hfill
  · refine h.of_changed hwf hchange rfl (fun _ he => he) ?_
    intro e _ _ hmember
    exact ⟨hmember, SameView.of_members (fun m hm => ⟨m, hm, rfl⟩) rfl⟩
  · cases c with
    | updateMember req => exact NicknameSet.sound hdone h
    | setMemberRoles req => exact RolesSet.sound hdone h hwf
    | kickMember req => exact MemberRemoved.sound hdone.change h hwf
    | banMember req => exact Banned.sound hdone h hwf
    | unbanMember req =>
      refine h.of_changed hwf hdone rfl (fun _ he => he) ?_
      intro e _ _ hmember
      exact ⟨hmember, SameView.of_members (fun m hm => ⟨m, hm, rfl⟩) rfl⟩
    | timeoutMember | removeTimeout => exact TimeoutSet.sound hdone h
    | createRole newID req => exact RoleCreated.sound hdone h hwf
    | updateRole req => exact RoleUpdated.sound hdone h hwf
    | deleteRole req => exact RoleDeleted.sound hdone h hwf
    | reorderRoles req => exact RolesReordered.sound hdone h hwf
    | setPermissionOverride | deletePermissionOverride => exact OverrideWritten.sound hdone h hwf
    | syncChannelPermissions req => exact Synced.sound hdone h hwf hspares
    | updateChannel overrideID mirrorID uuid req => exact ChannelUpdated.sound hdone h hwf hspares
    | deleteChannelGroup uuid req => exact GroupDeleted.sound hdone h hwf
    | joinServer req => exact Joined.sound hdone h hwf hspares
    | leaveServer req =>
      obtain ⟨userID, srv, -, -, -, hremoved⟩ := hdone.rights
      exact MemberRemoved.sound hremoved h hwf
    | completeOnboarding req => exact Onboarded.sound hdone h hwf hspares
    | getEffectivePermissions | listChannels => exact h.of_filled hdone

theorem Sound.of_tick (h : Sound s) (seconds : Nat) : Sound (step s (.tick seconds)) := by
  refine ⟨h.wellFormed, h.keys, ?_⟩
  intro e he hlive hmember
  refine h.coherent e he ?_ hmember
  have hlater : s.now + seconds < e.setAt + cacheTTL := of_decide_eq_true hlive
  exact decide_eq_true (by omega)

theorem step_sound {ev : Event} (h : Sound s) (hev : Undisturbed s ev) : Sound (step s ev) := by
  rcases ev with ⟨caller, c⟩ | seconds
  · exact h.of_outcome hev (handle_outcome caller c s h.wellFormed.channels.channelIDs)
  · exact h.of_tick seconds

end Calls

/-- **The cache stays coherent**: in every state of a run from a sound state in
    which no step disturbs a live entry, what is served is what the tables
    give. -/
theorem cache_coherent (s : ChatState) (hs : Sound s) (evs : List Event)
    (hrun : Guarded step Undisturbed s evs) : Coherent (exec step s evs) := by
  have hstep : ∀ s ev, Sound s → Undisturbed s ev → Sound (step s ev) :=
    fun _ _ h hev => step_sound h hev
  exact (exec_invariant hstep hs hrun).coherent

/-! ## Section 8: The calls that disturb entries -/

/-- A server with a self-assignable role and a voice channel whose text companion
    is closed to the guest. -/
def lobbyTables : Tables where
  users := [{ id := "owner", signingPublicKey := none },
    { id := "guest", signingPublicKey := none }]
  servers := [{ id := "srv", ownerID := "owner", onboardingEnabled := true }]
  members := [{ userID := "owner", serverID := "srv" }, { userID := "guest", serverID := "srv" }]
  channelGroups := [{ id := "stage", serverID := "srv" }]
  channels := [{ id := "text", serverID := some "srv", channelGroupID := some "stage",
                 name := "stage" },
    { id := "voice", serverID := some "srv", channelGroupID := some "stage", name := "stage",
      type := 2, voiceTextChannelID := some "text" }]
  roles := [{ id := "srv", serverID := "srv", name := "@everyone", permissions := viewChannel,
              position := 0 },
    { id := "helpers", serverID := "srv", name := "helpers", permissions := kickMembers,
      position := 1, isSelfAssignable := true }]
  permissionOverrides := [{ id := "closed", scope := .channel "text", subject := .user "guest",
                            allow := 0, deny := viewChannel }]
  invites := [{ code := "hello", serverID := "srv", creatorID := "owner" }]

def lobbyState : ChatState where
  db := ⟨lobbyTables, by decide⟩

theorem lobbyTables_wellFormed : WellFormed lobbyTables := by
  refine ⟨⟨by decide, by decide⟩, ⟨by decide, by decide, by decide, by decide, by decide⟩⟩

/-- The guest asks for its permissions. -/
def ask (channelID : ID) : Event :=
  .call (some "guest") (.getEffectivePermissions { serverID := "srv", channelID })

def takeRole : Event :=
  .call (some "guest") (.completeOnboarding { serverID := "srv", roleIDs := ["helpers"] })

def hideVoice : Event :=
  .call (some "owner") (.updateChannel "hide" "mirror" (fun channelID _ => channelID)
    { channelID := "voice", isPrivate := some true })

def syncVoice : Event := .call (some "owner") (.syncChannelPermissions { channelID := "voice" })

def leave : Event := .call (some "guest") (.leaveServer { serverID := "srv" })

def rejoin : Event := .call (some "guest") (.joinServer { inviteCode := "hello" })

/-- The guest takes the role after its entry has run out. -/
theorem cache_coherent_lobby :
    Coherent (exec step lobbyState [ask "", .tick 300, takeRole, ask ""]) := by
  have hsound : Sound lobbyState := Sound.of_empty lobbyTables_wellFormed rfl
  refine cache_coherent lobbyState hsound _ ⟨?_, ?_, ?_, ?_, ?_⟩
  · exact fun _ _ _ => not_false
  · trivial
  · -- the entry has run out when the role is taken
    have hdead : ∀ e ∈ (step (step lobbyState (ask "")) (.tick 300)).cache,
        e.live (step (step lobbyState (ask "")) (.tick 300)).now = false := by decide
    intro e he hlive
    rw [hdead e he] at hlive
    cases hlive
  · exact fun _ _ _ => not_false
  · trivial

/-- Each of the four calls leaves an entry that is served and wrong. -/
theorem lobby_serves_stale :
    WellFormed lobbyTables ∧ lobbyState.cache = [] ∧
    ¬ Coherent (exec step lobbyState [ask "", takeRole]) ∧
    ¬ Coherent (exec step lobbyState [ask "voice", hideVoice]) ∧
    ¬ Coherent (exec step lobbyState [ask "text", syncVoice]) ∧
    ¬ Coherent (exec step lobbyState [takeRole, ask "", leave, rejoin]) :=
  ⟨lobbyTables_wellFormed, rfl, by decide, by decide, by decide, by decide⟩

end Meza.Chat
