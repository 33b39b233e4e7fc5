import Meza.Chat.Hierarchy

/-! # Escalation

    Server-level permissions are what `@everyone` and the own roles grant.
    Members create and change roles and assign them, each step checked against
    the permissions of its caller at that moment. This module bounds what a
    whole run of such steps can give to anybody: what the acting members had
    when it began, and what the self-assignable roles carried then.
    Administrator stands for every permission, in the bound as in the checks.

    Making an existing role self-assignable is not checked against the caller's
    permissions. Runs in which somebody does so with a role beyond the own
    permissions are outside the theorem. -/

namespace Meza.Chat

open Store Permissions BitMask List Table RoleStore Subset Run

/-! ## Section 1: Permissions of a server -/

/-- What `@everyone` and the assigned roles grant. -/
def serverPerms (t : Tables) (serverID userID : ID) : Mask :=
  combine ((lookup Role.id serverID t.roles).toList.map (·.permissions)) |||
    combine ((getMemberRoles t userID serverID).map (·.permissions))

/-- What the users have between them. -/
def heldBy (t : Tables) (serverID : ID) (users : List ID) : Mask :=
  combine (users.map (serverPerms t serverID))

/-- What the self-assignable roles of the server carry. -/
def selfAssignable (t : Tables) (serverID : ID) : Mask :=
  combine ((t.roles.filter fun r => r.serverID = serverID ∧ r.isSelfAssignable = true).map
    (·.permissions))

/-- Administrator reaches every permission. -/
def reach (held : Mask) : Mask := held ||| effectiveCallerPerms held

/-- The users who act in a run. -/
def actors (evs : List Event) : List ID :=
  evs.filterMap fun
    | .call caller _ => caller
    | .tick _ => none

/-- The handlers through which permissions move between members. -/
def Call.moves : Call → Bool
  | .createRole _ _ | .updateRole _ | .setMemberRoles _ | .setPermissionOverride _ _ _
  | .completeOnboarding _ => true
  | _ => false

/-- Whoever makes a role self-assignable without setting its permissions has
    them, or the role is self-assignable already. -/
def OpensWithin (t : Tables) (caller : Option ID) : Call → Prop
  | .updateRole req => req.isSelfAssignable = some true → req.permissions = none →
      ∀ r ∈ t.roles, r.id = req.roleID → r.isSelfAssignable = true ∨
        ∃ userID ∈ caller, escalated r.permissions
          (combine ((getMemberRoles t userID r.serverID).map (·.permissions))) = 0
  | _ => True

/-- A step of a run by members other than the owner. -/
def StepWithin (srv : Server) (s : ChatState) : Event → Prop
  | .call caller c =>
    c.moves = true ∧ caller ≠ some srv.ownerID ∧ OpensWithin s.db.tables caller c
  | .tick _ => True

/-! ## Section 2: Masks -/

theorem escalated_eq_zero {perms callerPerms : Mask} :
    escalated perms callerPerms = 0 ↔ Subset perms (effectiveCallerPerms callerPerms) := by
  rfl

theorem has_administrator {perms : Mask} :
    has perms administrator = true ↔ perms.getLsbD administratorBit = true := by
  rw [has_iff, administrator_eq, and_single_ne_zero perms (by decide), or_self]

theorem subset_reach (held : Mask) : Subset held (reach held) :=
  subset_or_left _ _

/-- Nobody within the reach reaches further. -/
theorem effective_subset_reach {held perms : Mask} (h : Subset perms (reach held)) :
    Subset (effectiveCallerPerms perms) (reach held) := by
  unfold effectiveCallerPerms
  split
  · rename_i hadmin
    have hbit := (subset_iff _ _).mp h _ (has_administrator.mp hadmin)
    -- the reach has the Administrator bit only when `held` has it
    have hheld : has held administrator = true := by
      unfold reach effectiveCallerPerms at hbit
      rw [BitVec.getLsbD_or, Bool.or_eq_true] at hbit
      rcases hbit with hbit | hbit
      · exact has_administrator.mpr hbit
      · split at hbit
        · assumption
        · exact has_administrator.mpr hbit
    have hall : reach held = held ||| allPermissions := by
      unfold reach effectiveCallerPerms
      rw [if_pos hheld]
    rw [hall]
    exact subset_or_right _ _
  · exact h

/-! ## Section 3: The bound along a run -/

/-- `start` tells what everybody had at the beginning, `bound` what may be added
    to it. -/
structure Bounded (serverID : ID) (start : ID → Mask) (bound : Mask) (t : Tables) : Prop where
  everyone : ∀ r ∈ t.roles, r.id = serverID →
    ∀ userID, Subset r.permissions (start userID ||| bound)
  held : ∀ mr ∈ t.memberRoles, mr.serverID = serverID → ∀ r ∈ t.roles, r.id = mr.roleID →
    Subset r.permissions (start mr.userID ||| bound)
  offered : ∀ r ∈ t.roles, r.serverID = serverID → r.isSelfAssignable = true →
    Subset r.permissions bound

section Bounded

variable {serverID : ID} {start : ID → Mask} {bound : Mask} {t t' : Tables}

theorem Bounded.memberRoles_subset (h : Bounded serverID start bound t) (userID : ID) :
    Subset (combine ((getMemberRoles t userID serverID).map (·.permissions)))
      (start userID ||| bound) := by
  refine combine_subset ?_
  intro p hp
  obtain ⟨r, hr, rfl⟩ := mem_map.mp hp
  obtain ⟨mr, hmr, huser, hserver, hlook⟩ := mem_getMemberRoles.mp hr
  obtain ⟨hmem, hid⟩ := mem_of_lookup hlook
  rw [← huser]
  exact h.held mr hmr hserver r hmem hid

theorem Bounded.serverPerms_subset (h : Bounded serverID start bound t) (userID : ID) :
    Subset (serverPerms t serverID userID) (start userID ||| bound) := by
  refine or_subset (combine_subset ?_) (h.memberRoles_subset userID)
  intro p hp
  obtain ⟨r, hr, rfl⟩ := mem_map.mp hp
  obtain ⟨hmem, hid⟩ := mem_of_lookup (Option.mem_toList.mp hr)
  exact h.everyone r hmem hid userID

theorem bounded_start (hc : t.Constraints)
    (hopen : Subset (selfAssignable t serverID) bound) :
    Bounded serverID (serverPerms t serverID) bound t := by
  refine ⟨?_, ?_, ?_⟩
  · intro r hr hid userID
    refine trans ?_ (subset_or_left _ _)
    refine trans (subset_combine (mem_map_of_mem ?_)) (subset_or_left _ _)
    rw [← hid, lookup_of_mem hc.roles.rolesPK hr]
    exact mem_cons_self
  · intro mr hmr hserver r hr hid
    refine trans ?_ (subset_or_left _ _)
    refine trans (subset_combine (mem_map_of_mem ?_)) (subset_or_right _ _)
    refine mem_getMemberRoles.mpr ⟨mr, hmr, rfl, hserver, ?_⟩
    rw [← hid]
    exact lookup_of_mem hc.roles.rolesPK hr
  · intro r hr hserver hself
    refine trans (subset_combine (mem_map_of_mem ?_)) hopen
    exact mem_filter.mpr ⟨hr, decide_eq_true ⟨hserver, hself⟩⟩

theorem Bounded.of_memberRoles (h : Bounded serverID start bound t) (hroles : t'.roles = t.roles)
    (hmr : ∀ mr ∈ t'.memberRoles, mr.serverID = serverID → mr ∈ t.memberRoles ∨
      ∀ r ∈ t.roles, r.id = mr.roleID → Subset r.permissions bound) :
    Bounded serverID start bound t' := by
  refine ⟨by rw [hroles]; exact h.everyone, ?_, by rw [hroles]; exact h.offered⟩
  intro mr hmem hserver r hr hid
  rw [hroles] at hr
  rcases hmr mr hmem hserver with hold | hnew
  · exact h.held mr hold hserver r hr hid
  · exact .trans (hnew r hr hid) (subset_or_right _ _)

/-- Roles of the server that keep their permissions or get some within the
    bound, the self-assignable ones all within the bound. -/
theorem Bounded.of_updateWhere {srv : Server} (h : Bounded srv.id start bound t)
    (hs : RolesLocal t) (hc : t.Constraints) (hsrv : srv ∈ t.servers) {p : Role → Bool}
    {f : Role → Role} (hplace : ∀ r, (f r).id = r.id ∧ (f r).serverID = r.serverID)
    (hperms : ∀ r ∈ t.roles, r.serverID = srv.id → p r = true →
      (f r).permissions = r.permissions ∨ Subset (f r).permissions bound)
    (hoffered : ∀ r ∈ t.roles, r.serverID = srv.id → p r = true →
      (f r).isSelfAssignable = true → Subset (f r).permissions bound) :
    Bounded srv.id start bound { t with roles := updateWhere p f t.roles } := by
  have hid : ∀ r, (if p r then f r else r).id = r.id := by
    intro r
    split
    · exact (hplace r).1
    · rfl
  have hkept : ∀ r ∈ t.roles, r.serverID = srv.id → ∀ own : Mask,
      Subset r.permissions (own ||| bound) →
      Subset (if p r then f r else r).permissions (own ||| bound) := by
    intro r hr hserver own hold
    split
    · rename_i hcond
      rcases hperms r hr hserver hcond with hsame | hset
      · rwa [hsame]
      · exact .trans hset (subset_or_right _ _)
    · exact hold
  refine ⟨?_, ?_, ?_⟩
  · intro r' hr' hrid userID
    obtain ⟨r, hr, rfl⟩ := mem_updateWhere.mp hr'
    rw [hid] at hrid
    exact hkept r hr (hs.server_of_id hc hsrv hr hrid) _ (h.everyone r hr hrid userID)
  · intro mr hmr hmrserver r' hr' hrid
    obtain ⟨r, hr, rfl⟩ := mem_updateWhere.mp hr'
    rw [hid] at hrid
    have hserver := (hs.assigned mr hmr r hr hrid).trans hmrserver
    exact hkept r hr hserver _ (h.held mr hmr hmrserver r hr hrid)
  · intro r' hr' hserver hself
    obtain ⟨r, hr, rfl⟩ := mem_updateWhere.mp hr'
    split at hserver
    · rename_i hcond
      rw [if_pos hcond] at hself ⊢
      exact hoffered r hr ((hplace r).2.symm.trans hserver) hcond hself
    · rename_i hcond
      rw [if_neg hcond] at hself ⊢
      exact h.offered r hr hserver hself

end Bounded

/-- Only an explicit flag makes a role self-assignable. -/
theorem opened_of_apply {patch : RolePatch} {r : Role}
    (hself : (patch.apply r).isSelfAssignable = true) (hold : ¬ r.isSelfAssignable = true) :
    patch.isSelfAssignable = some true := by
  have hflag : patch.isSelfAssignable.getD r.isSelfAssignable = true := hself
  rcases hpatch : patch.isSelfAssignable with _ | flag
  · rw [hpatch] at hflag
    exact absurd hflag hold
  · rw [hpatch] at hflag
    exact congrArg some hflag

section Steps

variable {srv : Server} {start : ID → Mask} {held : Mask} {caller : Option ID} {s s' : ChatState}

section Actor

variable (h : Bounded srv.id start (reach held) s.db.tables) (hsrv : srv ∈ s.db.tables.servers)
  (hother : caller ≠ some srv.ownerID)
  (hactor : ∀ userID ∈ caller, Subset (start userID) (reach held))

include h hsrv hother hactor

/-- The permissions a step is checked against are within the bound. -/
theorem caller_within {perm : Mask} {userID : ID} {auth : Authority}
    (hauth : Authorized s.db.tables caller srv.id perm userID auth) :
    userID ≠ auth.srv.ownerID ∧
      auth.callerPerms =
        combine ((getMemberRoles s.db.tables userID srv.id).map (·.permissions)) ∧
      Subset (effectiveCallerPerms auth.callerPerms) (reach held) := by
  obtain ⟨hcaller, hgranted⟩ := hauth
  obtain ⟨hfound, hrank⟩ := requirePermission_ok hgranted
  obtain ⟨hmem, hid⟩ := mem_of_lookup (oneRow_ok.mp hfound)
  have hsame := eq_of_key s.db.constraints.servers.serversPK hmem hsrv hid
  have howner : auth.srv.ownerID ≠ userID := by
    rw [hsame]
    intro heq
    exact hother (by rw [hcaller, heq])
  refine ⟨howner.symm, (hrank howner).2, effective_subset_reach ?_⟩
  rw [(hrank howner).2]
  exact .trans (h.memberRoles_subset userID) (or_subset (hactor userID hcaller) (subset_refl _))

theorem RoleCreated.bounded {newID : ID} {req : CreateRoleRequest}
    (heffect : RoleCreated newID caller req s s') (hs : WellFormed s.db.tables) :
    Bounded srv.id start (reach held) s'.db.tables := by
  obtain ⟨⟨userID, auth, hauth, hesc⟩, created, -, hserver, hperms, -, -, hchange⟩ := heffect
  have hpk := s'.db.constraints.roles.rolesPK
  rw [hchange.tables] at hpk ⊢
  have hfresh := notMem_of_append hpk
  refine ⟨?_, ?_, ?_⟩
  · -- the new role is not `@everyone`, whose id is taken
    intro r hr hid
    rcases mem_append.mp hr with hr | hr
    · exact h.everyone r hr hid
    · rw [mem_singleton.mp hr] at hid
      obtain ⟨e, he, heid, -⟩ := hs.roles.everyone srv hsrv
      exact absurd (mem_map.mpr ⟨e, he, heid.trans hid.symm⟩) hfresh
  · -- and nobody holds it yet
    intro mr hmr hmrserver r hr hid
    rcases mem_append.mp hr with hr | hr
    · exact h.held mr hmr hmrserver r hr hid
    · rw [mem_singleton.mp hr] at hid
      exact absurd (hid ▸ s.db.constraints.roles.memberRolesRole mr hmr) hfresh
  · intro r hr hrserver hself
    rcases mem_append.mp hr with hr | hr
    · exact h.offered r hr hrserver hself
    · rw [mem_singleton.mp hr] at hrserver ⊢
      rw [hperms]
      rw [← hserver, hrserver] at hauth
      obtain ⟨howner, -, hwithin⟩ := caller_within h hsrv hother hactor hauth
      exact .trans (escalated_eq_zero.mp (hesc howner)) hwithin

theorem RoleUpdated.bounded {req : UpdateRoleRequest} (heffect : RoleUpdated caller req s s')
    (hs : WellFormed s.db.tables) (hopens : OpensWithin s.db.tables caller (.updateRole req)) :
    Bounded srv.id start (reach held) s'.db.tables := by
  obtain ⟨userID, auth, role, hrole, hauth, -, hesc, hchange⟩ := heffect.rights
  have hpk := s.db.constraints.roles.rolesPK
  obtain ⟨hmem, hroleID⟩ := mem_of_lookup hrole
  have hisRole : ∀ r ∈ s.db.tables.roles, r.id = req.roleID → r = role := fun r hr hid =>
    eq_of_key hpk hr hmem (hid.trans hroleID.symm)
  -- permissions set by the caller are within the bound
  have hset : role.serverID = srv.id → ∀ p ∈ req.permissions, Subset p (reach held) := by
    intro hserver p hp
    rw [hserver] at hauth
    obtain ⟨howner, -, hwithin⟩ := caller_within h hsrv hother hactor hauth
    exact .trans (escalated_eq_zero.mp (hesc howner p hp)) hwithin
  rw [hchange.tables]
  refine h.of_updateWhere hs.roles s.db.constraints hsrv (fun _ => ⟨rfl, rfl⟩) ?_ ?_
  · intro r hr hserver hcond
    rw [hisRole r hr (of_decide_eq_true hcond)] at hserver
    show req.permissions.getD r.permissions = r.permissions ∨
      Subset (req.permissions.getD r.permissions) (reach held)
    rcases hp : req.permissions with _ | p
    · exact .inl rfl
    · exact .inr (hset hserver p hp)
  · intro r hr hserver hcond hself
    have hsame := hisRole r hr (of_decide_eq_true hcond)
    show Subset (req.permissions.getD r.permissions) (reach held)
    rcases hp : req.permissions with _ | p
    · show Subset r.permissions (reach held)
      by_cases hold : r.isSelfAssignable = true
      · exact h.offered r hr hserver hold
      · -- the role is opened by this step, so the caller has its permissions
        have hopened := opened_of_apply hself hold
        rcases hopens hopened hp r hr (of_decide_eq_true hcond) with hyes | ⟨user, huser, hwithin⟩
        · exact absurd hyes hold
        · rw [← hsame, hserver] at hauth
          obtain ⟨-, hcallerPerms, hbound⟩ := caller_within h hsrv hother hactor hauth
          have huserID : user = userID := by
            have hboth := hauth.caller
            rw [Option.mem_def.mp huser] at hboth
            injection hboth
          rw [huserID, hserver, ← hcallerPerms] at hwithin
          exact .trans (escalated_eq_zero.mp hwithin) hbound
    · rw [hsame] at hserver
      exact hset hserver p hp

theorem RolesSet.bounded {req : SetMemberRolesRequest} (heffect : RolesSet caller req s s') :
    Bounded srv.id start (reach held) s'.db.tables := by
  obtain ⟨⟨userID, auth, hauth, -, hassign⟩, -, hchange⟩ := heffect
  have hpk := s.db.constraints.roles.rolesPK
  rw [hchange.tables]
  refine h.of_memberRoles rfl ?_
  intro mr hmr hserver
  rcases mem_append.mp hmr with hold | hadded
  · exact .inl (mem_deleteWhere.mp hold).1
  · obtain ⟨roleID, hmem, rfl⟩ := mem_map.mp hadded
    right
    intro r hr hid
    dsimp only at hserver hid
    rw [hserver] at hauth hassign
    obtain ⟨howner, -, hwithin⟩ := caller_within h hsrv hother hactor hauth
    rw [← hid] at hmem
    have hperms := ((requireAssignable_ok hpk hassign hr hmem).2 howner).2
    exact .trans hperms hwithin

end Actor

theorem Onboarded.bounded {req : CompleteOnboardingRequest} (heffect : Onboarded caller req s s')
    (h : Bounded srv.id start (reach held) s.db.tables) :
    Bounded srv.id start (reach held) s'.db.tables := by
  obtain ⟨userID, srv', completedAt, channelMembers, -, -, -, -, hchange⟩ := heffect.change
  rw [hchange.tables]
  refine h.of_memberRoles rfl ?_
  intro mr hmr hserver
  rcases mem_onboardedRoles hmr with hold | ⟨r, hr, -, hrserver, hself, rfl⟩
  · exact .inl hold
  · right
    intro r' hr' hid
    rw [eq_of_key s.db.constraints.roles.rolesPK hr' hr hid]
    exact h.offered r hr (hrserver.trans hserver) hself

/-- **One step** keeps everybody within the bound. -/
theorem step_bounded {ev : Event} (hs : WellFormed s.db.tables)
    (h : Bounded srv.id start (reach held) s.db.tables) (hsrv : srv ∈ s.db.tables.servers)
    (hev : StepWithin srv s ev)
    (hactor : ∀ userID ∈ actors [ev], Subset (start userID) (reach held)) :
    Bounded srv.id start (reach held) (step s ev).db.tables := by
  rcases ev with ⟨caller, c⟩ | seconds
  · obtain ⟨hmoves, hother, hopens⟩ := hev
    have hcaller : ∀ userID ∈ caller, Subset (start userID) (reach held) := by
      intro userID hmem
      refine hactor userID ?_
      rw [Option.mem_def.mp hmem]
      exact mem_cons_self
    show Bounded srv.id start (reach held) (Action.after (c.handle caller) s).db.tables
    rcases handle_outcome caller c s hs.channels.channelIDs with hfill | ⟨invites, hchange⟩ | hdone
    · rw [hfill.db]
      exact h
    · rw [hchange.tables]
      exact h.of_memberRoles rfl fun _ hmr _ => .inl hmr
    · cases c with
      | createRole newID req => exact RoleCreated.bounded h hsrv hother hcaller hdone hs
      | updateRole req => exact RoleUpdated.bounded h hsrv hother hcaller hdone hs hopens
      | setMemberRoles req => exact RolesSet.bounded h hsrv hother hcaller hdone
      | setPermissionOverride newID mirrorID req =>
        obtain ⟨userID, auth, target, subject, -, -, -, hchange⟩ := hdone.rights
        rw [hchange.tables.rest]
        exact h.of_memberRoles rfl fun _ hmr _ => .inl hmr
      | completeOnboarding req => exact Onboarded.bounded hdone h
      | _ => cases hmoves
  · exact h

/-- **A run** keeps everybody within the bound. -/
theorem run_bounded (evs : List Event) (hs : WellFormed s.db.tables)
    (h : Bounded srv.id start (reach held) s.db.tables) (hsrv : srv ∈ s.db.tables.servers)
    (hrun : Guarded step (StepWithin srv) s evs)
    (hactors : ∀ userID ∈ actors evs, Subset (start userID) (reach held)) :
    Bounded srv.id start (reach held) (exec step s evs).db.tables := by
  -- the bound is fixed by the first state; only the tables move along the run
  induction evs generalizing s with
  | nil => exact h
  | cons ev evs ih =>
    have hsplit : ∀ userID, userID ∈ actors (ev :: evs) ↔
        userID ∈ actors [ev] ∨ userID ∈ actors evs := by
      intro userID
      show userID ∈ actors ([ev] ++ evs) ↔ _
      unfold actors
      rw [filterMap_append, mem_append]
    have hservers := (step_framed hs ev).servers
    refine ih (step_wellFormed hs ev) ?_ (by rw [hservers]; exact hsrv) hrun.2 ?_
    · exact step_bounded hs h hsrv hrun.1 fun userID hmem =>
        hactors userID ((hsplit userID).mpr (.inl hmem))
    · exact fun userID hmem => hactors userID ((hsplit userID).mpr (.inr hmem))

end Steps

/-! ## Section 4: No escalation -/

/-- **No escalation**: after a run of role and onboarding calls by members other
    than the owner, everybody's server-level permissions are within what they
    had, what the acting members had, and what the self-assignable roles
    carried at the beginning. -/
theorem no_escalation (s : ChatState) (hs : WellFormed s.db.tables) (srv : Server)
    (hsrv : srv ∈ s.db.tables.servers) (evs : List Event)
    (hrun : Guarded step (StepWithin srv) s evs) (userID : ID) :
    Subset (serverPerms (exec step s evs).db.tables srv.id userID)
      (serverPerms s.db.tables srv.id userID |||
        reach (heldBy s.db.tables srv.id (actors evs) ||| selfAssignable s.db.tables srv.id)) := by
  have hstart : Bounded srv.id (serverPerms s.db.tables srv.id)
      (reach (heldBy s.db.tables srv.id (actors evs) ||| selfAssignable s.db.tables srv.id))
      s.db.tables :=
    bounded_start s.db.constraints (trans (subset_or_right _ _) (subset_reach _))
  refine (run_bounded evs hs hstart hsrv hrun ?_).serverPerms_subset userID
  intro actor hactor
  have hheld : Subset (serverPerms s.db.tables srv.id actor)
      (heldBy s.db.tables srv.id (actors evs)) := subset_combine (mem_map_of_mem hactor)
  exact trans hheld (trans (subset_or_left _ _) (subset_reach _))

/-- A server with a self-assignable role that may kick, a role that may ban, and
    a member whose only role is Administrator. -/
def officeTables : Tables where
  users := [{ id := "owner", signingPublicKey := none },
    { id := "admin", signingPublicKey := none },
    { id := "new", signingPublicKey := none }]
  servers := [{ id := "srv", ownerID := "owner", onboardingEnabled := true }]
  members := [{ userID := "owner", serverID := "srv" }, { userID := "admin", serverID := "srv" },
    { userID := "new", serverID := "srv" }]
  roles := [{ id := "srv", serverID := "srv", name := "@everyone", permissions := viewChannel,
              position := 0 },
    { id := "helpers", serverID := "srv", name := "helpers", permissions := kickMembers,
      position := 1, isSelfAssignable := true },
    { id := "judges", serverID := "srv", name := "judges", permissions := banMembers,
      position := 2 },
    { id := "admins", serverID := "srv", name := "admins", permissions := administrator,
      position := 3 }]
  memberRoles := [{ userID := "admin", serverID := "srv", roleID := "admins" }]

def officeState : ChatState where
  db := ⟨officeTables, by decide⟩

theorem officeTables_wellFormed : WellFormed officeTables := by
  refine ⟨⟨by decide, by decide⟩, ⟨by decide, by decide, by decide, by decide, by decide⟩⟩

/-- The new member takes the self-assignable role. -/
def takeHelpers : List Event :=
  [.call (some "new") (.completeOnboarding { serverID := "srv", roleIDs := ["helpers"] })]

/-- The administrator makes the new member a judge. -/
def makeJudge : List Event :=
  [.call (some "admin")
    (.setMemberRoles { serverID := "srv", userID := "new", roleIDs := ["judges"] })]

theorem no_escalation_office :
    Subset (serverPerms (exec step officeState (takeHelpers ++ makeJudge)).db.tables
        "srv" "new")
      (serverPerms officeTables "srv" "new" |||
        reach (heldBy officeTables "srv" ["new", "admin"] ||| selfAssignable officeTables "srv")) :=
  no_escalation officeState officeTables_wellFormed
    { id := "srv", ownerID := "owner", onboardingEnabled := true } mem_cons_self
    (takeHelpers ++ makeJudge)
    ⟨⟨rfl, by decide, trivial⟩, ⟨rfl, by decide, trivial⟩, trivial⟩ "new"

/-- Each of the two runs gives the new member a bit that it did not have and that
    nobody who acts had as a bit. -/
theorem office_adds_bits :
    WellFormed officeState.db.tables ∧
    ¬ Subset
      (serverPerms (exec step officeState takeHelpers).db.tables "srv" "new")
      (serverPerms officeTables "srv" "new" |||
        heldBy officeTables "srv" (actors takeHelpers)) ∧
    ¬ Subset
      (serverPerms (exec step officeState makeJudge).db.tables "srv" "new")
      (serverPerms officeTables "srv" "new" |||
        heldBy officeTables "srv" (actors makeJudge)) :=
  ⟨officeTables_wellFormed, by decide, by decide⟩

/-! ## Section 5: Owners -/

end Meza.Chat
