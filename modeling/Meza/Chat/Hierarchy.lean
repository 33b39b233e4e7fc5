import Meza.Chat.System

/-! # Rank

    Positions order the roles of a server, and a member ranks as high as the
    highest role assigned to it. This module follows eleven handlers and
    proves that a caller who does not own the server leaves alone what stands
    at or above its own rank: roles, their order, who holds them, and the
    members who do.

    Two things are outside the theorem. Deleting a role takes it from everyone
    who holds it, whatever else they hold. And `SetMemberRoles` looks at the
    roles it assigns, but neither at the rank of the member nor at the roles it
    takes away. -/

namespace Meza.Chat

open Store Permissions Table List RoleStore ChatStore

/-! ## Section 1: What a call must leave alone -/

/-- The role or member stands at or above the position. -/
def AtOrAbove (t : Tables) (serverID : ID) (pos : Nat) : OverrideSubject → Prop
  | .role id => ∃ r ∈ t.roles, r.id = id ∧ r.serverID = serverID ∧ pos ≤ r.position
  | .user id => isMember t id serverID = true ∧ pos ≤ getEffectivePosition t id serverID

section Kept

variable (serverID : ID) (pos : Nat) (t t' : Tables)

/-- Roles from the position up are the same but for their positions, and in the
    same order. -/
structure RolesKept : Prop where
  same : ∀ r ∈ t.roles, r.serverID = serverID → pos ≤ r.position →
    ∃ r' ∈ t'.roles, r' = { r with position := r'.position }
  order : ∀ a ∈ t.roles, ∀ b ∈ t.roles, a.serverID = serverID → b.serverID = serverID →
    pos ≤ a.position → a.position < b.position →
    ∀ a' ∈ t'.roles, ∀ b' ∈ t'.roles, a'.id = a.id → b'.id = b.id → a'.position < b'.position

/-- Roles from the position up are neither granted nor taken away, and members
    from the position up keep their role sets. Assignments that are
    `reassigned` and roles that are `deleted` are left out. -/
structure AssignmentsKept (reassigned : MemberRole → Prop) (deleted : ID → Prop) : Prop where
  granted : ∀ mr ∈ t'.memberRoles, mr.serverID = serverID → mr ∉ t.memberRoles →
    ∀ r ∈ t.roles, r.id = mr.roleID → r.position < pos
  taken : ∀ mr ∈ t.memberRoles, mr.serverID = serverID → ¬ reassigned mr →
    ∀ r ∈ t.roles, r.id = mr.roleID → pos ≤ r.position → mr ∈ t'.memberRoles
  sets : ∀ mr, mr.serverID = serverID → pos ≤ getEffectivePosition t mr.userID serverID →
    ¬ reassigned mr → ¬ deleted mr.roleID → (mr ∈ t'.memberRoles ↔ mr ∈ t.memberRoles)

/-- Members from the position up are not kicked, timed out, or renamed by
    somebody else. -/
def MembersKept (callerID : ID) : Prop :=
  ∀ m ∈ t.members, m.serverID = serverID → pos ≤ getEffectivePosition t m.userID serverID →
    ∃ m' ∈ t'.members, m'.key = m.key ∧ m'.timedOutUntil = m.timedOutUntil ∧
      (m.userID ≠ callerID → m'.nickname = m.nickname)

/-- Members from the position up are not banned. -/
def BansKept : Prop :=
  ∀ b ∈ t'.bans, b.serverID = serverID → b ∉ t.bans →
    isMember t b.userID serverID = true →
    getEffectivePosition t b.userID serverID < pos

/-- Overrides for roles and members from the position up are the same. -/
def OverridesKept : Prop :=
  ∀ po, InServer t serverID po.scope → AtOrAbove t serverID pos po.subject →
    (po ∈ t'.permissionOverrides ↔ po ∈ t.permissionOverrides)

end Kept

/-- A call leaves everything at or above the caller's rank alone. -/
structure RankRespected (reassigned : MemberRole → Prop) (deleted : ID → Prop)
    (callerID serverID : ID) (t t' : Tables) : Prop where
  roles : RolesKept serverID (getEffectivePosition t callerID serverID) t t'
  assignments : AssignmentsKept serverID (getEffectivePosition t callerID serverID) t t'
    reassigned deleted
  members : MembersKept serverID (getEffectivePosition t callerID serverID) t t' callerID
  bans : BansKept serverID (getEffectivePosition t callerID serverID) t t'
  overrides : OverridesKept serverID (getEffectivePosition t callerID serverID) t t'

/-- The handlers that compare ranks. -/
def Call.ranked : Call → Bool
  | .updateMember _ | .setMemberRoles _ | .kickMember _ | .banMember _ | .updateRole _
  | .deleteRole _ | .reorderRoles _ | .timeoutMember _ | .removeTimeout _
  | .setPermissionOverride _ _ _ | .deletePermissionOverride _ => true
  | _ => false

/-- The assignments that `SetMemberRoles` replaces. -/
def Call.Reassigns (c : Call) (mr : MemberRole) : Prop :=
  match c with
  | .setMemberRoles req => mr.userID = req.userID ∧ mr.serverID = req.serverID
  | _ => False

/-- The role that `DeleteRole` deletes. -/
def Call.Deletes (c : Call) (roleID : ID) : Prop :=
  match c with
  | .deleteRole req => roleID = req.roleID
  | _ => False

/-! ## Section 2: Tables that do not change -/

section Unchanged

variable {serverID callerID : ID} {pos : Nat} {t t' : Tables}

theorem RolesKept.of_eq (hpk : UniqueOn Role.id t.roles) (h : t'.roles = t.roles) :
    RolesKept serverID pos t t' := by
  constructor
  · intro r hr _ _
    exact ⟨r, by rwa [h], rfl⟩
  · intro a ha b hb _ _ _ hlt a' ha' b' hb' hida hidb
    rw [h] at ha' hb'
    rwa [eq_of_key hpk ha' ha hida, eq_of_key hpk hb' hb hidb]

theorem AssignmentsKept.of_eq {reassigned : MemberRole → Prop} {deleted : ID → Prop}
    (h : t'.memberRoles = t.memberRoles) :
    AssignmentsKept serverID pos t t' reassigned deleted := by
  refine ⟨?_, ?_, ?_⟩
  · intro mr hmr _ hnew
    rw [h] at hmr
    exact absurd hmr hnew
  · intro mr hmr _ _ _ _ _ _
    rwa [h]
  · intro mr _ _ _ _
    rw [h]

theorem MembersKept.of_eq (h : t'.members = t.members) :
    MembersKept serverID pos t t' callerID := by
  intro m hm _ _
  exact ⟨m, by rwa [h], rfl, rfl, fun _ => rfl⟩

theorem BansKept.of_eq (h : t'.bans = t.bans) : BansKept serverID pos t t' := by
  intro b hb _ hnew
  rw [h] at hb
  exact absurd hb hnew

theorem OverridesKept.of_eq (h : t'.permissionOverrides = t.permissionOverrides) :
    OverridesKept serverID pos t t' := by
  intro po _ _
  rw [h]

end Unchanged

/-! ## Section 3: Ranks -/

variable {auth : Authority} {userID : ID}

/-- The rank the handlers see is the rank of the caller, unless it owns the
    server. -/
theorem callerPos_eq {t : Tables} (hc : t.Constraints) {callerID : ID} {perm : Mask} {srv : Server}
    (hsrv : srv ∈ t.servers) (hother : srv.ownerID ≠ callerID)
    (h : Authorized t (some callerID) srv.id perm userID auth) :
    userID = callerID ∧ auth.srv = srv ∧
      auth.callerPos = getEffectivePosition t callerID srv.id := by
  obtain ⟨huser, hgranted⟩ := h
  injection huser with huser
  subst huser
  obtain ⟨hfound, hrank⟩ := requirePermission_ok hgranted
  obtain ⟨hmem, hid⟩ := mem_of_lookup (oneRow_ok.mp hfound)
  have hsame := eq_of_key hc.servers.serversPK hmem hsrv hid
  rw [hsame] at hrank
  exact ⟨rfl, hsame, (hrank hother).1⟩

/-- Whoever holds a role ranks at least as high. -/
theorem position_le_rank {t : Tables} (hc : t.Constraints) {mr : MemberRole}
    (hmr : mr ∈ t.memberRoles) {r : Role} (hr : r ∈ t.roles) (hid : r.id = mr.roleID) :
    r.position ≤ getEffectivePosition t mr.userID mr.serverID := by
  refine le_maxPosition (mem_getMemberRoles.mpr ⟨mr, hmr, rfl, rfl, ?_⟩)
  rw [← hid]
  exact lookup_of_mem hc.roles.rolesPK hr

/-- The two ways to find a member's rank agree. -/
theorem rank_le_of_getUserMaxRolePosition {t : Tables} (hs : RolesLocal t) {serverID : ID}
    {pos : Nat} (h : getUserMaxRolePosition t userID serverID = .ok pos) :
    getEffectivePosition t userID serverID ≤ pos := by
  obtain ⟨member, hmember, h⟩ := bind_eq_ok.mp h
  injection h with h
  rw [← h]
  refine maxPosition_le.mpr ?_
  intro r hr
  obtain ⟨mr, hmr, huser, hserver, hlook⟩ := mem_getMemberRoles.mp hr
  obtain ⟨hr, hid⟩ := mem_of_lookup hlook
  refine le_maxPosition (mem_filter.mpr ⟨hr, decide_eq_true ⟨?_, ?_⟩⟩)
  · rw [(getMember_ok hmember).2, hid]
    exact mem_map_of_mem (mem_filter.mpr ⟨hmr, decide_eq_true ⟨huser, hserver⟩⟩)
  · rw [hs.assigned mr hmr r hr hid, hserver]

theorem not_atOrAbove_of_below {t : Tables} (hc : t.Constraints) (hs : RolesLocal t) {serverID : ID}
    {subject : OverrideSubject} (howner : userID ≠ auth.srv.ownerID)
    (h : SubjectBelow t serverID userID auth subject) :
    ¬ AtOrAbove t serverID auth.callerPos subject := by
  intro habove
  rcases subject with roleID | targetID
  · obtain ⟨role, hrole, hlow⟩ := h
    obtain ⟨r, hr, hid, -, hpos⟩ := habove
    obtain ⟨hmem, hid'⟩ := mem_of_lookup hrole
    rw [eq_of_key hc.roles.rolesPK hr hmem (hid.trans hid'.symm)] at hpos
    omega
  · obtain ⟨pos, hpos, hlow⟩ := h
    have hrank := rank_le_of_getUserMaxRolePosition hs hpos
    have hlow := hlow howner
    have habove := habove.2
    omega

/-! ## Section 4: Members -/

section Members

variable {serverID callerID serverID' : ID} {pos : Nat} {t t' : Tables}

/-- A change of one member, who ranks below or changes the own nickname. -/
theorem MembersKept.of_withMember {f : Member → Member}
    (hmembers : t'.members = (withMember serverID' userID f t).members)
    (hkey : ∀ m, (f m).key = m.key)
    (hrank : serverID' = serverID → pos ≤ getEffectivePosition t userID serverID →
      userID = callerID ∧ ∀ m, (f m).timedOutUntil = m.timedOutUntil) :
    MembersKept serverID pos t t' callerID := by
  intro m hm hserver hpos
  refine ⟨_, by rw [hmembers]; exact mem_updateWhere.mpr ⟨m, hm, rfl⟩, ?_⟩
  split
  · rename_i htarget
    obtain ⟨hserver', huser⟩ := of_decide_eq_true htarget
    obtain ⟨hself, htimeout⟩ := hrank (hserver'.symm.trans hserver) (by rwa [← huser])
    exact ⟨hkey m, htimeout m, fun hne => absurd (huser.trans hself) hne⟩
  · exact ⟨rfl, rfl, fun _ => rfl⟩

theorem MembersKept.of_removed (hmembers : t'.members = (withoutMember t userID serverID').members)
    (hrank : serverID' = serverID → getEffectivePosition t userID serverID < pos) :
    MembersKept serverID pos t t' callerID := by
  intro m hm hserver hpos
  refine ⟨m, ?_, rfl, rfl, fun _ => rfl⟩
  rw [hmembers]
  refine mem_deleteWhere.mpr ⟨hm, decide_eq_false ?_⟩
  intro htarget
  have hlow := hrank (htarget.2.symm.trans hserver)
  rw [← htarget.1] at hlow
  omega

theorem AssignmentsKept.of_removed (hc : t.Constraints) {reassigned : MemberRole → Prop}
    {deleted : ID → Prop}
    (hassigned : t'.memberRoles = (withoutMember t userID serverID').memberRoles)
    (hrank : serverID' = serverID → getEffectivePosition t userID serverID < pos) :
    AssignmentsKept serverID pos t t' reassigned deleted := by
  have hkept : ∀ mr ∈ t.memberRoles, mr.serverID = serverID →
      pos ≤ getEffectivePosition t mr.userID serverID → mr ∈ t'.memberRoles := by
    intro mr hmr hserver hpos
    rw [hassigned]
    refine mem_deleteWhere.mpr ⟨hmr, decide_eq_false ?_⟩
    intro htarget
    have hlow := hrank (htarget.2.symm.trans hserver)
    rw [← htarget.1] at hlow
    omega
  have hold : ∀ mr ∈ t'.memberRoles, mr ∈ t.memberRoles := by
    intro mr hmr
    rw [hassigned] at hmr
    exact (mem_deleteWhere.mp hmr).1
  refine ⟨?_, ?_, ?_⟩
  · intro mr hmr _ hnew
    exact absurd (hold mr hmr) hnew
  · intro mr hmr hserver _ r hr hid hpos
    refine hkept mr hmr hserver (Nat.le_trans hpos ?_)
    rw [← hserver]
    exact position_le_rank hc hmr hr hid
  · intro mr hserver hpos _ _
    exact ⟨hold mr, fun hmr => hkept mr hmr hserver hpos⟩

end Members

section Calls

variable {callerID : ID} {s s' : ChatState} {srv : Server} (hsrv : srv ∈ s.db.tables.servers)
  (hother : srv.ownerID ≠ callerID)

include hsrv hother

theorem NicknameSet.rank {req : UpdateMemberRequest} (h : NicknameSet (some callerID) req s s') :
    RankRespected (Call.updateMember req).Reassigns (Call.updateMember req).Deletes callerID
      srv.id s.db.tables s'.db.tables := by
  obtain ⟨⟨userID, srv', huser, hsrv', hrights⟩, s₁, hfill, hchange⟩ := h
  injection huser with huser
  subst huser
  have hpk := s.db.constraints.roles.rolesPK
  rw [hchange.tables, hfill.db]
  refine ⟨.of_eq hpk rfl, .of_eq rfl, ?_, .of_eq rfl, .of_eq rfl⟩
  refine MembersKept.of_withMember rfl (fun _ => rfl) ?_
  intro hserver hpos
  rcases hrights with hself | howner | hlow
  · exact ⟨hself, fun _ => rfl⟩
  · -- the owner of this server is somebody else
    obtain ⟨hmem, hid⟩ := mem_of_lookup (oneRow_ok.mp hsrv')
    have hsame := eq_of_key s.db.constraints.servers.serversPK hmem hsrv (hid.trans hserver)
    rw [hsame] at howner
    exact absurd howner.symm hother
  · rw [hserver] at hlow
    omega

variable {c : Call}

theorem TimeoutSet.rank {serverID : ID} {timedOutUntil : Option Int}
    (h : TimeoutSet (some callerID) serverID userID timedOutUntil s s') :
    RankRespected c.Reassigns c.Deletes callerID srv.id s.db.tables s'.db.tables := by
  obtain ⟨⟨callerID', auth, hauth, hlow⟩, hchange⟩ := h
  have hpk := s.db.constraints.roles.rolesPK
  rw [hchange.tables]
  refine ⟨.of_eq hpk rfl, .of_eq rfl, ?_, .of_eq rfl, .of_eq rfl⟩
  refine MembersKept.of_withMember rfl (fun _ => rfl) ?_
  intro hserver hpos
  subst hserver
  rw [(callerPos_eq s.db.constraints hsrv hother hauth).2.2] at hlow
  omega

theorem Kicked.rank {req : KickMemberRequest} (h : Kicked (some callerID) req s s') :
    RankRespected (Call.kickMember req).Reassigns (Call.kickMember req).Deletes callerID srv.id
      s.db.tables s'.db.tables := by
  obtain ⟨⟨userID, auth, hauth, -, hlow⟩, channelMembers, hchange⟩ := h
  have hpk := s.db.constraints.roles.rolesPK
  rw [hchange.tables]
  have hrank : req.serverID = srv.id → getEffectivePosition s.db.tables req.userID srv.id <
      getEffectivePosition s.db.tables callerID srv.id := by
    intro hserver
    rw [hserver] at hauth hlow
    rwa [(callerPos_eq s.db.constraints hsrv hother hauth).2.2] at hlow
  exact ⟨.of_eq hpk rfl, .of_removed s.db.constraints rfl hrank, .of_removed rfl hrank,
    .of_eq rfl, .of_eq rfl⟩

theorem Banned.rank {req : BanMemberRequest} (h : Banned (some callerID) req s s') :
    RankRespected (Call.banMember req).Reassigns (Call.banMember req).Deletes callerID srv.id
      s.db.tables s'.db.tables := by
  obtain ⟨⟨userID, auth, hauth, -, hlow⟩, bans, hbans, hchange⟩ := h
  have hpk := s.db.constraints.roles.rolesPK
  have hrank : req.serverID = srv.id →
      isMember s.db.tables req.userID req.serverID = true →
      getEffectivePosition s.db.tables req.userID srv.id <
        getEffectivePosition s.db.tables callerID srv.id := by
    intro hserver hmember
    have hlow := hlow hmember
    rw [hserver] at hauth hlow
    rwa [(callerPos_eq s.db.constraints hsrv hother hauth).2.2] at hlow
  -- a new ban is for the target, who is checked only as a member
  have hplaced : ∀ t', t'.bans = bans → BansKept srv.id
      (getEffectivePosition s.db.tables callerID srv.id) s.db.tables t' := by
    intro t' ht' b hb hserver hnew hmember
    rw [ht'] at hb
    rcases hbans b hb with hold | hkey
    · exact absurd hold hnew
    · obtain ⟨hserver', huser⟩ := Prod.mk.inj hkey
      have hsame : req.serverID = srv.id := hserver'.symm.trans hserver
      rw [huser] at hmember ⊢
      exact hrank hsame (by rwa [hsame])
  rcases hchange with ⟨hmember, channelMembers, hchange⟩ | ⟨-, hchange⟩
  · rw [hchange.tables]
    have hlow := fun hserver => hrank hserver hmember
    exact ⟨.of_eq hpk rfl, .of_removed s.db.constraints rfl hlow, .of_removed rfl hlow,
      hplaced _ rfl, .of_eq rfl⟩
  · rw [hchange.tables]
    exact ⟨.of_eq hpk rfl, .of_eq rfl, .of_eq rfl, hplaced _ rfl, .of_eq rfl⟩

/-! ## Section 5: Roles -/

theorem RolesSet.rank {req : SetMemberRolesRequest} (h : RolesSet (some callerID) req s s') :
    RankRespected (Call.setMemberRoles req).Reassigns (Call.setMemberRoles req).Deletes callerID
      srv.id s.db.tables s'.db.tables := by
  obtain ⟨⟨userID, auth, hauth, -, hassign⟩, -, hchange⟩ := h
  have hpk := s.db.constraints.roles.rolesPK
  rw [hchange.tables]
  refine ⟨.of_eq hpk rfl, ⟨?_, ?_, ?_⟩, .of_eq rfl, .of_eq rfl, .of_eq rfl⟩
  · -- what is granted was listed, and so passed `requireAssignable`
    intro mr hmr hserver hnew r hr hid
    rcases mem_append.mp hmr with hold | hadded
    · exact absurd (mem_deleteWhere.mp hold).1 hnew
    · obtain ⟨roleID, hmem, rfl⟩ := mem_map.mp hadded
      dsimp only at hserver hid
      rw [hserver] at hauth hassign
      obtain ⟨huser, hsame, hpos⟩ := callerPos_eq s.db.constraints hsrv hother hauth
      have howner : userID ≠ auth.srv.ownerID := by
        rw [huser, hsame]
        exact hother.symm
      rw [← hid] at hmem
      have hbelow := ((requireAssignable_ok hpk hassign hr hmem).2 howner).1
      rwa [hpos] at hbelow
  · intro mr hmr _ hkept _ _ _ _
    refine mem_append_left _ (mem_deleteWhere.mpr ⟨hmr, decide_eq_false hkept⟩)
  · intro mr _ _ hkept _
    constructor
    · intro hmr
      rcases mem_append.mp hmr with hold | hadded
      · exact (mem_deleteWhere.mp hold).1
      · obtain ⟨roleID, -, rfl⟩ := mem_map.mp hadded
        exact absurd ⟨rfl, rfl⟩ hkept
    · intro hmr
      exact mem_append_left _ (mem_deleteWhere.mpr ⟨hmr, decide_eq_false hkept⟩)

/-- A role that `requirePermission` let the caller touch is below the caller. -/
theorem position_lt_rank {role : Role} {perm : Mask}
    (hauth : Authorized s.db.tables (some callerID) role.serverID perm userID auth)
    (hlow : role.position < auth.callerPos) (hserver : role.serverID = srv.id) :
    role.position < getEffectivePosition s.db.tables callerID srv.id := by
  rw [hserver] at hauth
  rwa [(callerPos_eq s.db.constraints hsrv hother hauth).2.2] at hlow

theorem RoleUpdated.rank {req : UpdateRoleRequest} (h : RoleUpdated (some callerID) req s s') :
    RankRespected (Call.updateRole req).Reassigns (Call.updateRole req).Deletes callerID srv.id
      s.db.tables s'.db.tables := by
  obtain ⟨userID, auth, role, hrole, hauth, hlow, -, hchange⟩ := h.rights
  have hpk := s.db.constraints.roles.rolesPK
  obtain ⟨hmem, hid⟩ := mem_of_lookup hrole
  rw [hchange.tables]
  refine ⟨⟨?_, ?_⟩, .of_eq rfl, .of_eq rfl, .of_eq rfl, .of_eq rfl⟩
  · -- a role from the caller up is not the updated one
    intro r hr hserver hpos
    refine ⟨r, mem_updateWhere.mpr ⟨r, hr, if_neg ?_⟩, rfl⟩
    intro hcond
    have hsame := eq_of_key hpk hr hmem ((of_decide_eq_true hcond).trans hid.symm)
    have hbelow := position_lt_rank hsrv hother hauth hlow (by rw [← hsame, hserver])
    rw [hsame] at hpos
    omega
  · intro a ha b hb _ _ _ hlt a' ha' b' hb' hida hidb
    rwa [position_of_mem_updated hpk ha ha' hida, position_of_mem_updated hpk hb hb' hidb]

theorem RoleDeleted.rank {req : DeleteRoleRequest} (h : RoleDeleted (some callerID) req s s')
    (hs : WellFormed s.db.tables) :
    RankRespected (Call.deleteRole req).Reassigns (Call.deleteRole req).Deletes callerID srv.id
      s.db.tables s'.db.tables := by
  obtain ⟨userID, auth, role, hrole, hauth, -, hlow, hchange⟩ := h.rights
  have hpk := s.db.constraints.roles.rolesPK
  obtain ⟨hmem, hid⟩ := mem_of_lookup hrole
  -- the deleted role is below the caller
  have habove : ∀ r ∈ s.db.tables.roles, r.serverID = srv.id →
      getEffectivePosition s.db.tables callerID srv.id ≤ r.position → r.id ≠ role.id := by
    intro r hr hserver hpos hsame
    have heq := eq_of_key hpk hr hmem hsame
    have hbelow := position_lt_rank hsrv hother hauth hlow (by rw [← heq, hserver])
    rw [heq] at hpos
    omega
  rw [hchange.tables]
  refine ⟨⟨?_, ?_⟩, ⟨?_, ?_, ?_⟩, .of_eq rfl, .of_eq rfl, ?_⟩
  · intro r hr hserver hpos
    refine ⟨_, mem_updateWhere.mpr ⟨r, mem_deleteWhere.mpr
      ⟨hr, decide_eq_false (habove r hr hserver hpos)⟩, rfl⟩, ?_⟩
    split
    · rfl
    · rfl
  · intro a ha b hb hsa hsb hpos hlt a' ha' b' hb' hida hidb
    rw [position_of_mem_withoutRole hpk ha ha' hida,
      position_of_mem_withoutRole hpk hb hb' hidb, hsa, hsb]
    by_cases hserver : srv.id = role.serverID
    · -- the deleted role is below both, so both move down by one
      have hbelow := position_lt_rank hsrv hother hauth hlow hserver.symm
      rw [if_pos ⟨hserver, by omega⟩, if_pos ⟨hserver, by omega⟩]
      omega
    · rw [if_neg (fun h => hserver h.1), if_neg (fun h => hserver h.1)]
      exact hlt
  · intro mr hmr _ hnew
    exact absurd (mem_deleteWhere.mp hmr).1 hnew
  · -- roles are assigned in their own server, so a role from the caller up is not the one
    intro mr hmr hserver _ r hr hrid hpos
    refine mem_deleteWhere.mpr ⟨hmr, decide_eq_false ?_⟩
    intro hdeleted
    have hrserver := hs.roles.assigned mr hmr r hr hrid
    exact habove r hr (hrserver.trans hserver) hpos (by rw [hrid, hdeleted, hid])
  · intro mr _ _ _ hkept
    constructor
    · exact fun hmr => (mem_deleteWhere.mp hmr).1
    · exact fun hmr => mem_deleteWhere.mpr ⟨hmr, decide_eq_false hkept⟩
  · intro po _ habove'
    constructor
    · exact fun hpo => (mem_deleteWhere.mp hpo).1
    · intro hpo
      refine mem_deleteWhere.mpr ⟨hpo, decide_eq_false ?_⟩
      intro hsubject
      rw [hsubject] at habove'
      obtain ⟨r, hr, hrid, hserver, hpos⟩ := habove'
      exact habove r hr hserver hpos (hrid.trans hid.symm)

theorem RolesReordered.rank {req : ReorderRolesRequest}
    (h : RolesReordered (some callerID) req s s') (hs : WellFormed s.db.tables) :
    RankRespected (Call.reorderRoles req).Reassigns (Call.reorderRoles req).Deletes callerID
      srv.id s.db.tables s'.db.tables := by
  obtain ⟨userID, auth, callerPos, hauth, hcaller, hnonempty, -, hlisted, hchange⟩ := h.rights
  have hpk := s.db.constraints.roles.rolesPK
  rw [hchange.tables, reordered_eq_map]
  refine ⟨⟨?_, ?_⟩, .of_eq rfl, .of_eq rfl, .of_eq rfl, .of_eq rfl⟩
  · intro r hr _ _
    exact ⟨_, mem_map_of_mem hr, rfl⟩
  · intro a ha b hb hsa hsb hpos hlt a' ha' b' hb' hida hidb
    obtain ⟨a₀, ha₀, rfl⟩ := mem_map.mp ha'
    obtain ⟨b₀, hb₀, rfl⟩ := mem_map.mp hb'
    rw [eq_of_key hpk ha₀ ha hida, eq_of_key hpk hb₀ hb hidb]
    show newPosition _ _ _ _ a < newPosition _ _ _ _ b
    by_cases hserver : req.serverID = srv.id
    · rw [hserver] at hauth hlisted ⊢
      obtain ⟨huser, hsame, hrank⟩ := callerPos_eq s.db.constraints hsrv hother hauth
      have hcallerPos : callerPos = getEffectivePosition s.db.tables callerID srv.id := by
        rw [hcaller (by rw [huser, hsame]; exact hother.symm), hrank]
      -- some role is listed, so the caller stands above `@everyone`
      obtain ⟨roleID, hmem⟩ := exists_mem_of_ne_nil _ hnonempty
      obtain ⟨low, -, hlow, -⟩ := hlisted roleID (mem_eraseDups.mpr hmem)
      refine newPosition_lt hpk ha hb ?_ hlt
      -- both roles are shifted together: not `@everyone`, not listed, not below the caller
      intro r hr
      have hr' : r ∈ s.db.tables.roles ∧ r.serverID = srv.id ∧ callerPos ≤ r.position := by
        rcases hr with rfl | rfl
        · exact ⟨ha, hsa, by omega⟩
        · exact ⟨hb, hsb, by omega⟩
      obtain ⟨hrmem, hrserver, hrpos⟩ := hr'
      refine ⟨hrserver, ?_, hrpos, ?_⟩
      · intro hid
        have hzero := hs.roles.position_eq_zero s.db.constraints hrmem (hid.trans hrserver.symm)
        omega
      · intro hin
        obtain ⟨r', hr', hpos', hid'⟩ := hlisted r.id hin
        rw [eq_of_key hpk (mem_filter.mp hr').1 hrmem hid'] at hpos'
        omega
    · -- a reordering of another server
      have hstays : ∀ r ∈ s.db.tables.roles, r.serverID = srv.id →
          newPosition req.serverID callerPos req.roleIDs.eraseDups
            s.db.tables.roles r = r.position := by
        intro r hr hrserver
        refine newPosition_of_other hpk hr ?_ (.inl ?_)
        · intro hin
          obtain ⟨r', hr', -, hid'⟩ := hlisted r.id hin
          obtain ⟨hr', hcond⟩ := mem_filter.mp hr'
          have hserver' := (of_decide_eq_true hcond).1
          rw [eq_of_key hpk hr' hr hid', hrserver] at hserver'
          exact hserver hserver'.symm
        · exact fun hsame => hserver (hsame.symm.trans hrserver)
      rwa [hstays a ha hsa, hstays b hb hsb]

/-! ## Section 6: Overrides -/

theorem OverrideWritten.rank {targetID : ID} (h : OverrideWritten (some callerID) targetID s s')
    (hs : WellFormed s.db.tables) :
    RankRespected c.Reassigns c.Deletes callerID srv.id s.db.tables s'.db.tables := by
  obtain ⟨userID, auth, target, subject, htarget, hauth, hbelow, hchange⟩ := h.rights
  have hpk := s.db.constraints.roles.rolesPK
  have hrest := hchange.tables.rest
  refine ⟨.of_eq hpk (by rw [hrest]), .of_eq (by rw [hrest]), .of_eq (by rw [hrest]),
    .of_eq (by rw [hrest]), ?_⟩
  intro po hin habove
  -- what the call reaches is of the target's server, where the subject is below the caller
  have huntouched : ¬ (Reaches s.db.tables targetID po.scope ∧ po.subject = subject) := by
    intro hboth
    obtain ⟨hreach, hsubject⟩ := hboth
    have hserver := server_of_reaches hs.channels s.db.constraints htarget hreach hin
    rw [hserver] at hauth hbelow
    obtain ⟨huser, hsame, hrank⟩ := callerPos_eq s.db.constraints hsrv hother hauth
    rw [← hrank, hsubject] at habove
    have howner : userID ≠ auth.srv.ownerID := by
      rw [huser, hsame]
      exact hother.symm
    exact not_atOrAbove_of_below s.db.constraints hs.roles howner hbelow habove
  exact hchange.tables.overrides.mem_iff huntouched

/-! ## Section 7: Every ranked call -/

theorem rankRespected_of_effect (hranked : c.ranked = true) (h : c.Effect (some callerID) s s')
    (hs : WellFormed s.db.tables) :
    RankRespected c.Reassigns c.Deletes callerID srv.id s.db.tables s'.db.tables := by
  cases c with
  | updateMember req => exact NicknameSet.rank hsrv hother h
  | setMemberRoles req => exact RolesSet.rank hsrv hother h
  | kickMember req => exact Kicked.rank hsrv hother h
  | banMember req => exact Banned.rank hsrv hother h
  | timeoutMember | removeTimeout => exact TimeoutSet.rank hsrv hother h
  | updateRole req => exact RoleUpdated.rank hsrv hother h
  | deleteRole req => exact RoleDeleted.rank hsrv hother h hs
  | reorderRoles req => exact RolesReordered.rank hsrv hother h hs
  | setPermissionOverride | deletePermissionOverride => exact OverrideWritten.rank hsrv hother h hs
  | _ => cases hranked

end Calls

/-- **Rank is respected**: after any run, a successful ranked call leaves alone,
    in every server that the caller does not own, what stands at or above the
    caller, up to the deleted role and the assignments `SetMemberRoles`
    replaces. -/
theorem rank_respected (s₀ : ChatState) (h₀ : WellFormed s₀.db.tables) (evs : List Event)
    (callerID : ID) (c : Call) (hranked : c.ranked = true)
    (hok : Action.succeeds (c.handle (some callerID)) (Run.exec step s₀ evs) = true)
    (srv : Server) (hsrv : srv ∈ (Run.exec step s₀ evs).db.tables.servers)
    (hother : srv.ownerID ≠ callerID) :
    RankRespected c.Reassigns c.Deletes callerID srv.id (Run.exec step s₀ evs).db.tables
      (step (Run.exec step s₀ evs) (.call (some callerID) c)).db.tables := by
  have hs := run_wellFormed h₀ evs
  have heffect := (handle_spec (some callerID) c _ hs.channels.channelIDs).of_succeeds hok
  exact rankRespected_of_effect hsrv hother hranked heffect hs

/-- A server with a moderator at position 2 and a member at position 3 who also
    holds the lowest role. -/
def rankTables : Tables where
  users := [{ id := "owner", signingPublicKey := none }, { id := "mod", signingPublicKey := none },
    { id := "high", signingPublicKey := none }]
  servers := [{ id := "srv", ownerID := "owner" }]
  members := [{ userID := "owner", serverID := "srv" }, { userID := "mod", serverID := "srv" },
    { userID := "high", serverID := "srv" }]
  roles := [
    { id := "srv", serverID := "srv", name := "@everyone", permissions := 0, position := 0 },
    { id := "low", serverID := "srv", name := "low", permissions := 0, position := 1 },
    { id := "mods", serverID := "srv", name := "mods", permissions := manageRoles, position := 2 },
    { id := "top", serverID := "srv", name := "top", permissions := 0, position := 3 }]
  memberRoles := [{ userID := "mod", serverID := "srv", roleID := "mods" },
    { userID := "high", serverID := "srv", roleID := "top" },
    { userID := "high", serverID := "srv", roleID := "low" }]

def rankState : ChatState where
  db := ⟨rankTables, by decide⟩

theorem rankTables_wellFormed : WellFormed rankTables := by
  refine ⟨⟨by decide, by decide⟩, ⟨by decide, by decide, by decide, by decide, by decide⟩⟩

/-- The moderator deletes the lowest role; everything else is left alone. -/
theorem rank_respected_deleteRole :
    RankRespected (fun _ => False) (fun roleID => roleID = "low") "mod" "srv" rankTables
      (step rankState (.call (some "mod") (.deleteRole { roleID := "low" }))).db.tables :=
  rank_respected rankState rankTables_wellFormed [] "mod" (.deleteRole { roleID := "low" }) rfl
    (by decide) { id := "srv", ownerID := "owner" } mem_cons_self (by decide)

/-- The deletion takes the role from the member above the moderator as well. -/
theorem deleteRole_takes_from_above :
    WellFormed rankState.db.tables ∧
    Action.succeeds ((Call.deleteRole { roleID := "low" }).handle (some "mod")) rankState = true ∧
    getEffectivePosition rankTables "mod" "srv" < getEffectivePosition rankTables "high" "srv" ∧
    ¬ RankRespected (fun _ => False) (fun _ => False) "mod" "srv" rankTables
      (step rankState (.call (some "mod") (.deleteRole { roleID := "low" }))).db.tables := by
  refine ⟨rankTables_wellFormed, by decide, by decide, ?_⟩
  intro h
  have hsame := h.assignments.sets { userID := "high", serverID := "srv", roleID := "low" } rfl
    (by decide) not_false not_false
  revert hsame
  decide

end Meza.Chat
