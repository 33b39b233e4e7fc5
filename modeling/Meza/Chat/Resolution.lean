import Meza.Chat.System

/-! # Ways to the same answer

    Effective permissions are computed in more than one place. The batch of
    `resolvePermissionsBatch` joins the overrides of many channels in one query
    and files the rows by hand; `resolvePermissions` asks for one channel; and
    `requirePermission` does not go through the resolver at all.

    `storedInput` says what all of them are after: the rows stored for the
    channel, for its category and for the member. -/

namespace Meza.Chat

open Store Permissions List Table Option Action PermissionOverride Except RoleStore ChatStore BitMask Tables

/-! ## Section 1: What is stored for a member and a channel -/

/-- The overrides stored in a scope for any of the roles. -/
def roleOverridesOf (t : Tables) (scope : Option OverrideScope) (roleIDs : List ID) :
    List Override :=
  (t.permissionOverrides.filter fun po =>
    some po.scope = scope ∧ ∃ roleID ∈ roleIDs, po.subject = .role roleID).map (·.override)

/-- The override stored in a scope for the user. -/
def userOverrideOf (t : Tables) (scope : Option OverrideScope) (userID : ID) : Option Override :=
  (scope.bind fun scope =>
    lookup target (scope, .user userID) t.permissionOverrides).map (·.override)

/-- The resolver's input, read off the tables; without a channel there are no
    overrides. -/
def storedInput (t : Tables) (srv : Server) (m : Member) (c : Option Channel) : ResolveInput :=
  let roleIDs := t.roleIDsOf m.userID srv.id
  let group := (c.bind (·.channelGroupID)).map .group
  let channel := c.map fun c => .channel c.id
  { everyonePerms := t.everyonePerms srv.id
    rolePerms := t.rolePerms roleIDs srv.id
    isOwner := srv.ownerID = m.userID
    timedOutUntil := m.timedOutUntil.getD 0
    groupRoleOverrides := roleOverridesOf t group (srv.id :: roleIDs)
    channelRoleOverrides := roleOverridesOf t channel (srv.id :: roleIDs)
    groupUserOverride := userOverrideOf t group m.userID
    channelUserOverride := userOverrideOf t channel m.userID }

section Layers

variable {t : Tables} {group : Option ID} {roleIDs : List ID} {userID : ID}

theorem layerRows_roles (layer : Layer) (scope : Option OverrideScope)
    (hlayer : ∀ po : PermissionOverride,
      (po.layer = layer ∧ po.targets channelID group = true) ↔
        some po.scope = scope ∧ ∃ roleID, po.subject = .role roleID) :
    layerRows layer (t.permissionOverrides.filter fun po =>
        po.targets channelID group && po.concerns roleIDs userID) =
      roleOverridesOf t scope roleIDs := by
  unfold layerRows roleOverridesOf
  rw [List.filter_filter]
  congr 1
  apply filter_congr
  intro po _
  have hpo := hlayer po
  rcases hsubject : po.subject with roleID | id
  · simp only [hsubject, OverrideSubject.role.injEq, exists_eq', and_true] at hpo
    simp only [PermissionOverride.concerns, hsubject, OverrideSubject.role.injEq,
      exists_eq_right', ← hpo]
    by_cases htargets : po.targets channelID group = true
    · simp [htargets]
    · simp [htargets]
  · have hnot : ¬ (po.layer = layer ∧ po.targets channelID group = true) := by
      rw [hpo]
      simp [hsubject]
    simp only [PermissionOverride.concerns, hsubject, reduceCtorEq, and_false, exists_const,
      decide_false]
    by_contra htrue
    simp only [Bool.not_eq_false, Bool.and_eq_true, decide_eq_true_eq] at htrue
    exact hnot ⟨htrue.1, htrue.2.1⟩

/-- A user layer holds the one row stored in its scope for the user. -/
theorem layerRows_user (htarget : Table.UniqueOn PermissionOverride.target t.permissionOverrides)
    (layer : Layer) (scope : Option OverrideScope)
    (hlayer : ∀ po : PermissionOverride,
      (po.layer = layer ∧ po.targets channelID group = true) ↔
        some po.scope = scope ∧ ∃ id, po.subject = .user id) :
    (layerRows layer (t.permissionOverrides.filter fun po =>
        po.targets channelID group && po.concerns roleIDs userID)).getLast? =
      userOverrideOf t scope userID := by
  unfold layerRows userOverrideOf
  rw [List.filter_filter]
  have hcond : ∀ po : PermissionOverride,
      (decide (po.layer = layer) && (po.targets channelID group && po.concerns roleIDs userID)) =
        decide (some po.scope = scope ∧ po.subject = .user userID) := by
    intro po
    have hpo := hlayer po
    rw [Bool.eq_iff_iff, Bool.and_eq_true, Bool.and_eq_true, decide_eq_true_iff,
      decide_eq_true_iff, ← and_assoc, hpo]
    rcases hsubject : po.subject with roleID | id
    · simp
    · simp [PermissionOverride.concerns, hsubject]
  simp only [hcond]
  rcases scope with _ | scope
  · simp
  · have hrows := Table.filter_key htarget (scope, .user userID)
    simp only [PermissionOverride.target, Prod.mk.injEq] at hrows
    simp only [Option.some.injEq, hrows, Option.bind_some]
    rcases Table.lookup PermissionOverride.target (scope, .user userID) t.permissionOverrides with
      _ | po
    · rfl
    · rfl

theorem collectOverrides_stored (htarget : UniqueOn target t.permissionOverrides)
    (channelID : ID) (group : Option ID) (roleIDs : List ID) (userID : ID) :
    collectOverrides (t.permissionOverrides.filter fun po =>
        po.targets channelID group && po.concerns roleIDs userID) =
      { groupRoleOverrides := roleOverridesOf t (group.map .group) roleIDs
        channelRoleOverrides := roleOverridesOf t (some (.channel channelID)) roleIDs
        groupUserOverride := userOverrideOf t (group.map .group) userID
        channelUserOverride := userOverrideOf t (some (.channel channelID)) userID } := by
  rw [collectOverrides_eq, layerRows_roles .groupRole (group.map .group),
    layerRows_roles .channelRole (some (.channel channelID)),
    layerRows_user htarget .groupUser (group.map .group),
    layerRows_user htarget .channelUser (some (.channel channelID))]
  all_goals
    intro po
    unfold layer targets
    rcases po.subject with id | id <;> rcases po.scope with id' | id' <;>
      simp [eq_comm]

end Layers

/-! ## Section 2: One channel -/

section Members

variable {t : Tables} {srv : Server} {m : Member}

theorem getServer_of_mem (hc : t.Constraints) (hsrv : srv ∈ t.servers) :
    getServer t srv.id = .ok srv := by
  unfold getServer
  rw [lookup_of_mem hc.servers.serversPK hsrv]
  rfl

theorem getMember_of_mem (hc : t.Constraints) (hm : m ∈ t.members) :
    ∃ name, getMember t m.userID m.serverID =
      .ok { member := m, name, roleIDs := t.roleIDsOf m.userID m.serverID } := by
  obtain ⟨u, hu, hid⟩ := mem_map.mp (hc.servers.membersUser m hm)
  have hmember : lookup Member.key (m.userID, m.serverID) t.members = some m :=
    lookup_of_mem hc.servers.membersPK hm
  have huser : lookup User.id m.userID t.users = some u := by
    rw [← hid]
    exact lookup_of_mem hc.servers.usersPK hu
  exact ⟨_, getMember_of_lookup hmember huser⟩

theorem getRole_everyone (hs : RolesLocal t) (hc : t.Constraints) (hsrv : srv ∈ t.servers) :
    ∃ r, getRole t srv.id = .ok r ∧ r.permissions = t.everyonePerms srv.id := by
  obtain ⟨r, hr, hid, -, -⟩ := hs.everyone srv hsrv
  have hlook : lookup Role.id srv.id t.roles = some r := by
    rw [← hid]
    exact lookup_of_mem hc.roles.rolesPK hr
  refine ⟨r, oneRow_ok.mpr hlook, ?_⟩
  unfold everyonePerms
  rw [hlook]
  rfl

/-- **What is computed for a member** is computed from what is stored, in a
    channel and at the server level. -/
theorem resolveInput_stored (hs : RolesLocal t) (hc : t.Constraints) (hsrv : srv ∈ t.servers)
    (hm : m ∈ t.members) (hserver : m.serverID = srv.id) (c : Option Channel)
    (hch : ∀ ch ∈ c, ch ∈ t.channels ∧ ch.id ≠ "") :
    resolveInput t m.userID srv.id ((c.map (·.id)).getD "") = .ok (storedInput t srv m c) := by
  obtain ⟨r, hr, hperms⟩ := getRole_everyone hs hc hsrv
  obtain ⟨name, hmember⟩ := getMember_of_mem hc hm
  rw [hserver] at hmember
  refine bind_eq_ok.mpr ⟨srv, getServer_of_mem hc hsrv, bind_eq_ok.mpr ⟨r, hr,
    bind_eq_ok.mpr ⟨_, hmember, ?_⟩⟩⟩
  unfold storedInput
  rw [hperms]
  rcases c with _ | ch
  · simp [roleOverridesOf, userOverrideOf, rolePerms, RoleStore.getRolesByIDs, pure, Except.pure]
  · obtain ⟨hmem, hne⟩ := hch ch rfl
    have hstored := collectOverrides_stored hc.roles.overridesTarget ch.id ch.channelGroupID
      (srv.id :: t.roleIDsOf m.userID srv.id) m.userID
    rw [Option.map_some, Option.getD_some, if_neg hne]
    unfold getAllOverridesForChannel
    rw [channelGroupOf_of_mem hc.channels.channelsPK hmem, hstored]
    rfl

/-- The key service resolves from the same input; the owner it lets through
    before. -/
theorem viewInput_stored (hc : t.Constraints) (howner : srv.ownerID ≠ m.userID) (c : Channel) :
    viewInput t srv.id c.id c.channelGroupID m = storedInput t srv m (some c) := by
  unfold viewInput getAllOverrides storedInput
  dsimp only
  rw [collectOverrides_stored hc.roles.overridesTarget]
  simp [howner]

theorem computePermissions_stored (hs : RolesLocal t) (hc : t.Constraints)
    (hsrv : srv ∈ t.servers) (hm : m ∈ t.members) (hserver : m.serverID = srv.id)
    (c : Option Channel) (hch : ∀ ch ∈ c, ch ∈ t.channels ∧ ch.id ≠ "") (now : Int) :
    computePermissions t now
        { userID := m.userID, serverID := srv.id, channelID := (c.map (·.id)).getD "" } =
      .ok (resolveEffective (storedInput t srv m c) now) := by
  unfold computePermissions
  rw [resolveInput_stored hs hc hsrv hm hserver c hch]
  rfl

theorem computePermissions_channel (hs : WellFormed t) (hc : t.Constraints)
    (hsrv : srv ∈ t.servers) (hm : m ∈ t.members) (hserver : m.serverID = srv.id) {c : Channel}
    (hch : c ∈ t.channels) (now : Int) :
    computePermissions t now { userID := m.userID, serverID := srv.id, channelID := c.id } =
      .ok (resolveEffective (storedInput t srv m (some c)) now) := by
  refine computePermissions_stored hs.roles hc hsrv hm hserver (some c) ?_ now
  intro ch hsame
  rw [← mem_some.mp hsame]
  exact ⟨hch, hs.channels.channelIDs c hch⟩

end Members

/-! ## Section 3: Many channels -/

variable {s : ChatState} {channelID : ID}

theorem result_resolvePermissions {userID serverID : ID} {perms : Mask}
    (h : computePermissions s.db.tables s.now { userID, serverID, channelID } = .ok perms) :
    result (resolvePermissions userID serverID channelID) s =
      .ok ((s.cache.get s.now { userID, serverID, channelID }).getD perms) := by
  unfold result resolvePermissions update
  dsimp only
  rw [h]
  rcases s.cache.get s.now { userID, serverID, channelID } with _ | cached
  · rfl
  · rfl

theorem result_of_miss (hs : WellFormed s.db.tables) {srv : Server}
    (hsrv : srv ∈ s.db.tables.servers) {m : Member} (hm : m ∈ s.db.tables.members)
    (hserver : m.serverID = srv.id) {c : Channel} (hch : c ∈ s.db.tables.channels)
    (hmiss : s.cache.get s.now { userID := m.userID, serverID := srv.id, channelID := c.id } =
      none) :
    result (resolvePermissions m.userID srv.id c.id) s =
      .ok (resolveEffective (storedInput s.db.tables srv m (some c)) s.now) := by
  have hcompute := computePermissions_channel hs s.db.constraints hsrv hm hserver hch s.now
  rw [result_resolvePermissions hcompute, hmiss]
  rfl

/-- Cached masks come first, then those of the other channels. -/
theorem mem_served {channelIDs : List ID} {C : ID → Option Mask} {R : ID → Mask} {perms : Mask} :
    (channelID, perms) ∈ (channelIDs.filterMap fun id => (C id).map (id, ·)) ++
        ((channelIDs.filter fun id => C id = none).map fun id => (id, R id)) ↔
      channelID ∈ channelIDs ∧ perms = (C channelID).getD (R channelID) := by
  rw [mem_append, mem_filterMap, List.mem_map]
  constructor
  · intro h
    rcases h with ⟨id, hid, hmap⟩ | ⟨id, hid, hpair⟩
    · obtain ⟨mask, hmask, hpair⟩ := Option.map_eq_some_iff.mp hmap
      obtain ⟨rfl, rfl⟩ := Prod.mk.inj hpair
      exact ⟨hid, by rw [hmask]; rfl⟩
    · obtain ⟨rfl, rfl⟩ := Prod.mk.inj hpair
      obtain ⟨hmem, hnone⟩ := List.mem_filter.mp hid
      exact ⟨hmem, by rw [of_decide_eq_true hnone]; rfl⟩
  · intro h
    obtain ⟨hmem, rfl⟩ := h
    rcases hcached : C channelID with _ | mask
    · exact .inr ⟨channelID, List.mem_filter.mpr ⟨hmem, decide_eq_true hcached⟩, rfl⟩
    · exact .inl ⟨channelID, hmem, by rw [hcached]; rfl⟩

/-- What the batch serves: for each channel the cached mask, or else the one of
    the joined query. -/
theorem result_resolvePermissionsBatch {userID serverID : ID} {common : ResolveInput}
    {member : MemberInfo}
    (hcommon : resolveInput s.db.tables userID serverID "" = .ok common)
    (hmember : getMember s.db.tables userID serverID = .ok member) (channelIDs : List ID)
    :
    ∃ pairs, result (resolvePermissionsBatch userID serverID channelIDs) s = .ok pairs ∧
      ∀ channelID perms, (channelID, perms) ∈ pairs ↔ channelID ∈ channelIDs ∧
        perms = (s.cache.get s.now { userID, serverID, channelID }).getD
          (resolveEffective (batchInput common
            (getAllOverridesForChannels s.db.tables (channelIDs.filter fun channelID =>
                s.cache.get s.now { userID, serverID, channelID } = none)
              (serverID :: member.roleIDs) userID channelID)) s.now) := by
  unfold result resolvePermissionsBatch update
  dsimp only
  rw [hcommon, hmember]
  by_cases hempty : (channelIDs.filter fun channelID =>
      s.cache.get s.now { userID, serverID, channelID } = none).isEmpty = true
  · -- nothing is left to resolve, so the second part of the answer is empty
    rw [if_pos hempty]
    refine ⟨_, rfl, ?_⟩
    intro channelID perms
    rw [← mem_served (C := fun id =>
        s.cache.get s.now { userID, serverID, channelID := id })
      (R := fun id => resolveEffective (batchInput common
        (getAllOverridesForChannels s.db.tables (channelIDs.filter fun channelID =>
            s.cache.get s.now { userID, serverID, channelID } = none)
          (serverID :: member.roleIDs) userID id)) s.now)]
    rw [isEmpty_iff.mp hempty, map_nil, append_nil]
  · rw [if_neg hempty]
    exact ⟨_, rfl, fun channelID perms => mem_served⟩

/-- **The batch serves what single requests serve**: in any state the two give
    the same mask for every channel, and one that is not cached is what the
    resolver makes of the stored rows. -/
theorem resolvePermissionsBatch_agrees (s : ChatState) (hs : WellFormed s.db.tables)
    (srv : Server) (hsrv : srv ∈ s.db.tables.servers) (m : Member) (hm : m ∈ s.db.tables.members)
    (hserver : m.serverID = srv.id) (channels : List Channel)
    (hch : ∀ c ∈ channels, c ∈ s.db.tables.channels ∧ c.serverID = some srv.id) :
    ∃ pairs,
      result (resolvePermissionsBatch m.userID srv.id (channels.map (·.id))) s =
        .ok pairs ∧
      (∀ pair ∈ pairs, pair.1 ∈ channels.map (·.id)) ∧
      ∀ c ∈ channels,
        (∀ perms, (c.id, perms) ∈ pairs ↔
          result (resolvePermissions m.userID srv.id c.id) s = .ok perms) ∧
        (s.cache.get s.now { userID := m.userID, serverID := srv.id, channelID := c.id } = none →
          result (resolvePermissions m.userID srv.id c.id) s =
            .ok (resolveEffective (storedInput s.db.tables srv m (some c)) s.now)) := by
  have hc := s.db.constraints
  have hcommon := resolveInput_stored hs.roles hc hsrv hm hserver none (fun _ h => nomatch h)
  obtain ⟨name, hmember⟩ := getMember_of_mem hc hm
  rw [hserver] at hmember
  obtain ⟨pairs, hpairs, hmem⟩ :=
    result_resolvePermissionsBatch hcommon hmember (channels.map (·.id))
  refine ⟨pairs, hpairs, fun pair hpair => ((hmem pair.1 pair.2).mp hpair).1, ?_⟩
  intro c hcin
  obtain ⟨hin, -⟩ := hch c hcin
  have hne := hs.channels.channelIDs c hin
  have hinput : resolveInput s.db.tables m.userID srv.id c.id =
      .ok (storedInput s.db.tables srv m (some c)) :=
    resolveInput_stored hs.roles hc hsrv hm hserver (some c) fun ch hsame => by
      rw [← mem_some.mp hsame]
      exact ⟨hin, hne⟩
  have hcompute := computePermissions_channel hs hc hsrv hm hserver hin s.now
  have hid : c.id ∈ channels.map (·.id) := mem_map_of_mem hcin
  rw [result_resolvePermissions hcompute]
  refine ⟨?_, ?_⟩
  · intro perms
    rw [hmem c.id perms, ok.injEq, eq_comm (b := perms)]
    rcases hcached : s.cache.get s.now
        { userID := m.userID, serverID := srv.id, channelID := c.id } with _ | cached
    · -- the channel is among those that the joined query is for
      have huncached : c.id ∈ (channels.map (·.id)).filter fun channelID =>
          s.cache.get s.now { userID := m.userID, serverID := srv.id, channelID } = none :=
        mem_filter.mpr ⟨hid, decide_eq_true hcached⟩
      have hbatch := resolveInput_of_batch hcommon hmember hne
        (getAllOverridesForChannels_eq hc.channels.channelsPK hin huncached _ _)
      rw [hinput, ok.injEq] at hbatch
      rw [getD_none, getD_none, hbatch]
      exact and_iff_right hid
    · exact and_iff_right hid
  · intro hcold
    rw [hcold]
    rfl

/-- A stage with a voice channel, its text companion and a pit, a hall outside the
    category and a private backstage. Stage and backstage are hidden from everyone;
    overrides invite the guest to the voice channel and to the backstage. -/
def stageTables : Tables where
  users := [{ id := "owner", signingPublicKey := none }, { id := "mod", signingPublicKey := none },
    { id := "guest", signingPublicKey := none }]
  servers := [{ id := "srv", ownerID := "owner" }]
  members := [{ userID := "owner", serverID := "srv" },
    { userID := "mod", serverID := "srv", timedOutUntil := some 100 },
    { userID := "guest", serverID := "srv" }]
  channelGroups := [{ id := "stage", serverID := "srv" }]
  channels := [{ id := "text", serverID := some "srv", channelGroupID := some "stage",
                 name := "voice" },
    { id := "voice", serverID := some "srv", channelGroupID := some "stage", name := "voice",
      type := 2, voiceTextChannelID := some "text" },
    { id := "hall", serverID := some "srv", name := "hall" },
    { id := "pit", serverID := some "srv", channelGroupID := some "stage", name := "pit" },
    { id := "backstage", serverID := some "srv", name := "backstage", isPrivate := true }]
  roles := [{ id := "srv", serverID := "srv", name := "@everyone",
              permissions := viewChannel ||| createInvite, position := 0 },
    { id := "mods", serverID := "srv", name := "mods", permissions := kickMembers,
      position := 1 }]
  memberRoles := [{ userID := "mod", serverID := "srv", roleID := "mods" }]
  permissionOverrides := [
    { id := "hidden", scope := .group "stage", subject := .role "srv", allow := 0,
      deny := viewChannel },
    { id := "invited", scope := .channel "voice", subject := .user "guest",
      allow := viewChannel, deny := 0 },
    { id := "mirrored", scope := .channel "text", subject := .user "guest",
      allow := viewChannel, deny := 0 },
    { id := "closed", scope := .channel "backstage", subject := .role "srv", allow := 0,
      deny := viewChannel },
    { id := "friend", scope := .channel "backstage", subject := .user "guest",
      allow := viewChannel, deny := 0 }]

def stageState : ChatState where
  db := ⟨stageTables, by decide⟩
  now := 50

theorem stageTables_wellFormed : WellFormed stageTables := by
  refine ⟨⟨by decide, by decide⟩, ⟨by decide, by decide, by decide, by decide, by decide⟩⟩

/-- The category's override reaches the channels of the stage and not the hall. -/
theorem resolvePermissionsBatch_agrees_stage :
    ∃ pairs, result (resolvePermissionsBatch "guest" "srv" ["voice", "hall", "pit", "voice"])
        stageState = .ok pairs ∧
      ("voice", viewChannel ||| createInvite) ∈ pairs ∧
      ("hall", viewChannel ||| createInvite) ∈ pairs ∧ ("pit", 0) ∈ pairs := by
  obtain ⟨pairs, hpairs, -, hall⟩ := resolvePermissionsBatch_agrees stageState
    stageTables_wellFormed { id := "srv", ownerID := "owner" } (by decide)
    { userID := "guest", serverID := "srv" } (by decide) rfl
    [stageTables.channels[1], stageTables.channels[2], stageTables.channels[3],
      stageTables.channels[1]] (by decide)
  refine ⟨pairs, hpairs, ?_, ?_, ?_⟩
  · exact ((hall stageTables.channels[1] (by decide)).1 _).mpr (by rfl)
  · exact ((hall stageTables.channels[2] (by decide)).1 _).mpr (by rfl)
  · exact ((hall stageTables.channels[3] (by decide)).1 _).mpr (by rfl)

/-! ## Section 4: The two gates -/

/-- A role assigned to the member grants bit `i`. -/
def roleGrants (t : Tables) (m : Member) (i : Nat) : Bool :=
  (t.rolePerms (t.roleIDsOf m.userID m.serverID) m.serverID).any (·.getLsbD i)

/-- The `@everyone` role of the server grants bit `i`. -/
def everyoneGrants (t : Tables) (serverID : ID) (i : Nat) : Bool :=
  (t.everyonePerms serverID).getLsbD i

def Member.timedOut (m : Member) (now : Int) : Bool :=
  0 < m.timedOutUntil.getD 0 ∧ now < m.timedOutUntil.getD 0

/-- When the gate that looks at the assigned roles only and the resolver come to
    the same decision: either nothing but the assigned roles counts, or
    `@everyone` and a timeout happen to make no difference for the bit. -/
def GatesMeet (t : Tables) (now : Int) (srv : Server) (m : Member) (i : Nat) : Prop :=
  srv.ownerID = m.userID ∨ roleGrants t m administratorBit = true ∨
    if roleGrants t m i then
      everyoneGrants t srv.id administratorBit = true ∨
        if Member.timedOut m now then i = viewChannelBit ∨ i = readMessageHistoryBit
        else everyoneGrants t srv.id viewChannelBit = true ∨ roleGrants t m viewChannelBit = true
    else
      everyoneGrants t srv.id administratorBit = false ∧
        if Member.timedOut m now then ¬ (i = viewChannelBit ∨ i = readMessageHistoryBit)
        else everyoneGrants t srv.id i = false ∨
          (everyoneGrants t srv.id viewChannelBit = false ∧ roleGrants t m viewChannelBit = false)

section Gates

variable {t : Tables} {srv : Server} {m : Member}

/-- The query by assignment and the query by id find the same roles. -/
theorem getMemberRoles_any (hs : RolesLocal t) (hc : t.Constraints) (p : Mask → Bool) :
    ((RoleStore.getMemberRoles t m.userID m.serverID).map (·.permissions)).any p =
      (t.rolePerms (t.roleIDsOf m.userID m.serverID) m.serverID).any p := by
  apply any_congr_mem
  intro perms
  unfold rolePerms roleIDsOf
  rw [List.mem_map, List.mem_map]
  constructor
  · intro h
    obtain ⟨r, hr, rfl⟩ := h
    obtain ⟨mr, hmr, huser, hserver, hlook⟩ := RoleStore.mem_getMemberRoles.mp hr
    obtain ⟨hmem, hid⟩ := Table.mem_of_lookup hlook
    refine ⟨r, List.mem_filter.mpr ⟨hmem, decide_eq_true ⟨?_, ?_⟩⟩, rfl⟩
    · rw [hid]
      exact List.mem_map.mpr ⟨mr, List.mem_filter.mpr ⟨hmr, decide_eq_true ⟨huser, hserver⟩⟩, rfl⟩
    · rw [hs.assigned mr hmr r hmem hid, hserver]
  · intro h
    obtain ⟨r, hr, rfl⟩ := h
    obtain ⟨hmem, hcond⟩ := List.mem_filter.mp hr
    obtain ⟨mr, hmr, hid⟩ := List.mem_map.mp (of_decide_eq_true hcond).1
    obtain ⟨hmr, hmine⟩ := List.mem_filter.mp hmr
    obtain ⟨huser, hserver⟩ := of_decide_eq_true hmine
    refine ⟨r, RoleStore.mem_getMemberRoles.mpr ⟨mr, hmr, huser, hserver, ?_⟩, rfl⟩
    rw [hid]
    exact Table.lookup_of_mem hc.roles.rolesPK hmem

theorem requirePermission_iff (hs : RolesLocal t) (hc : t.Constraints) (hsrv : srv ∈ t.servers)
    (hserver : m.serverID = srv.id) {i : Nat} (hi : i < 64) :
    (∃ auth, requirePermission t m.userID srv.id (single 64 i) = .ok auth) ↔
      srv.ownerID = m.userID ∨ roleGrants t m administratorBit = true ∨
        roleGrants t m i = true := by
  have hgrants : ∀ j, (combine ((getMemberRoles t m.userID srv.id).map
      (·.permissions))).getLsbD j = roleGrants t m j := by
    intro j
    rw [combine_getLsbD, ← hserver]
    exact getMemberRoles_any hs hc _
  have hhas : has (combine ((getMemberRoles t m.userID srv.id).map (·.permissions)))
      (single 64 i) = true ↔ roleGrants t m administratorBit = true ∨ roleGrants t m i = true := by
    rw [has_iff, and_single_ne_zero _ hi, hgrants, hgrants]
  rw [← hhas]
  unfold requirePermission rejectIf
  rw [getServer_of_mem hc hsrv]
  by_cases howner : srv.ownerID = m.userID
  · simp [orElse, howner, pure, Except.pure, bind, Except.bind]
  · by_cases hroles : has (combine ((getMemberRoles t m.userID srv.id).map
        (·.permissions))) (single 64 i) = true
    · simp [orElse, howner, hroles, pure, Except.pure, bind, Except.bind]
    · simp [orElse, howner, hroles, bind, Except.bind]

theorem storedInput_none_layeredGrants (i : Nat) :
    (storedInput t srv m none).layeredGrants i = (storedInput t srv m none).baseGrants i := by
  have hlayers : (storedInput t srv m none).layers = [[], [], [], []] := by
    simp [storedInput, ResolveInput.layers, roleOverridesOf, userOverrideOf]
  unfold ResolveInput.layeredGrants
  rw [hlayers]
  split
  · rfl
  · rfl

theorem storedInput_baseGrants (hserver : m.serverID = srv.id) (c : Option Channel) (i : Nat) :
    (storedInput t srv m c).baseGrants i = (everyoneGrants t srv.id i || roleGrants t m i) := by
  unfold roleGrants
  rw [hserver]
  rfl

theorem storedInput_timedOut (c : Option Channel) (now : Int) :
    (storedInput t srv m c).timedOut now = Member.timedOut m now := rfl

end Gates

/-- **Where the two gates part.** `requirePermission` and the resolver decide a
    bit alike exactly when the gates meet. -/
theorem requirePermission_agrees_iff (db : DB) (hs : WellFormed db.tables) (srv : Server)
    (hsrv : srv ∈ db.tables.servers) (m : Member) (hm : m ∈ db.tables.members)
    (hserver : m.serverID = srv.id) (now : Int) (i : Nat)
    (hi : allPermissions.getLsbD i = true) :
    ((∃ auth, requirePermission db.tables m.userID srv.id (single 64 i) = .ok auth) ↔
        ∃ perms, computePermissions db.tables now
            { userID := m.userID, serverID := srv.id, channelID := "" } = .ok perms ∧
          perms.getLsbD i = true) ↔
      GatesMeet db.tables now srv m i := by
  have hc := db.constraints
  have hlt : i < 64 := BitVec.lt_of_getLsbD hi
  have hcompute := computePermissions_stored hs.roles hc hsrv hm hserver none
    (fun _ h => nomatch h) now
  simp only [map_none, getD_none] at hcompute
  rw [requirePermission_iff hs.roles hc hsrv hserver hlt, hcompute]
  simp only [ok.injEq, exists_eq_left', resolveEffective_getLsbD_eq _ _ hi,
    storedInput_none_layeredGrants, storedInput_baseGrants hserver, storedInput_timedOut]
  have howner : (storedInput db.tables srv m none).isOwner = decide (srv.ownerID = m.userID) := rfl
  rw [howner]
  unfold GatesMeet
  -- what is left is about eight truth values
  by_cases hown : srv.ownerID = m.userID
  · simp [hown]
  · rcases Member.timedOut m now <;> rcases roleGrants db.tables m administratorBit <;>
      rcases roleGrants db.tables m i <;> rcases everyoneGrants db.tables srv.id i <;>
      simp [hown]

/-- The moderator of the stage may kick, by the roles as well as by the resolver,
    once the timeout is over. -/
theorem requirePermission_agrees_afterTimeout :
    (∃ auth, requirePermission stageTables "mod" "srv" (single 64 0) = .ok auth) ↔
      ∃ perms, computePermissions stageTables 200
          { userID := "mod", serverID := "srv", channelID := "" } = .ok perms ∧
        perms.getLsbD 0 = true :=
  (requirePermission_agrees_iff ⟨stageTables, by decide⟩ stageTables_wellFormed
    { id := "srv", ownerID := "owner" } (by decide)
    { userID := "mod", serverID := "srv", timedOutUntil := some 100 } (by decide) rfl 200 0
    (by decide)).mpr (by
      refine Or.inr (Or.inr ?_)
      decide)

/-- While timed out the moderator may kick by its roles but not by the resolver,
    and the guest may invite by the resolver but not by its roles. -/
theorem stage_gates_disagree :
    WellFormed stageTables ∧
      ¬ ((∃ auth, requirePermission stageTables "mod" "srv" kickMembers = .ok auth) ↔
        ∃ perms, computePermissions stageTables 50
            { userID := "mod", serverID := "srv", channelID := "" } = .ok perms ∧
          perms.getLsbD 0 = true) ∧
      ¬ ((∃ auth, requirePermission stageTables "guest" "srv" createInvite = .ok auth) ↔
        ∃ perms, computePermissions stageTables 50
            { userID := "guest", serverID := "srv", channelID := "" } = .ok perms ∧
          perms.getLsbD 18 = true) := by
  refine ⟨stageTables_wellFormed, ?_, ?_⟩
  · intro hagree
    obtain ⟨perms, hperms, hbit⟩ := hagree.mp ⟨_, rfl⟩
    injection hperms with hperms
    rw [← hperms] at hbit
    exact absurd hbit (by decide)
  · intro hagree
    obtain ⟨auth, hauth⟩ := hagree.mpr ⟨viewChannel ||| createInvite, by rfl, by decide⟩
    cases hauth

end Meza.Chat
