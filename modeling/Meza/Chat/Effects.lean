import Meza.Chat.Membership

/-! # What a call does

    One lemma for every handler: what a successful call has checked and how the
    state it leaves differs from the one it found, and what state a failed call
    leaves. Everything else about the handlers is derived from these lemmas. -/

namespace Meza.Chat

open Store Permissions Action ChatStore RoleStore List Table

/-! ## Section 1: Shapes of effects -/

/-- The caller passed `requirePermission`. -/
structure Authorized (t : Tables) (caller : Option ID) (serverID : ID) (perm : Mask)
    (userID : ID) (auth : Authority) : Prop where
  caller : caller = some userID
  granted : requirePermission t userID serverID perm = .ok auth

/-- A server-level key, or one for a channel of its server. -/
def KeyOfServer (t : Tables) (key : CacheKey) : Prop :=
  key.channelID = "" ∨
    ∃ c ∈ t.channels, c.id = key.channelID ∧ c.serverID = some key.serverID

/-- Only the cache differs, and only by what was computed from the tables. -/
structure Filled (s s' : ChatState) : Prop where
  db : s'.db = s.db
  now : s'.now = s.now
  cache : ∀ e ∈ s'.cache, e ∈ s.cache ∨
    (e.setAt = s.now ∧ KeyOfServer s.db.tables e.key ∧
      computePermissions s.db.tables s.now e.key = .ok e.perms)

theorem Filled.refl (s : ChatState) : Filled s s :=
  ⟨rfl, rfl, fun _ he => .inl he⟩

theorem Filled.trans {s₁ s₂ s₃ : ChatState} (h₁ : Filled s₁ s₂) (h₂ : Filled s₂ s₃) :
    Filled s₁ s₃ := by
  refine ⟨h₂.db.trans h₁.db, h₂.now.trans h₁.now, ?_⟩
  intro e he
  rcases h₂.cache e he with he | he
  · exact h₁.cache e he
  · rw [h₁.db, h₁.now] at he
    exact .inr he

/-- The tables are changed by `f`, the cache by `g`. -/
structure Changed (f : Tables → Tables) (g : Cache → Cache) (s s' : ChatState) : Prop where
  tables : s'.db.tables = f s.db.tables
  cache : s'.cache = g s.cache
  now : s'.now = s.now

variable {s : ChatState} {serverID userID : ID} {t : Tables} {u : Unit}

theorem authenticate_ok {caller : Option ID} (h : authenticate caller = .ok userID) :
    caller = some userID := by
  rcases caller with _ | id
  · cases h
  · injection h with h
    rw [h]

theorem orElse_ok {α : Type} {error : ConnectError} {x : Except StoreError α} {a : α} :
    orElse error x = .ok a ↔ x = .ok a := by
  rcases x with e | b
  · simp [orElse]
  · simp [orElse]

/-- What `requirePermission` tells of the server and, of everybody but its
    owner, of the caller. -/
theorem requirePermission_ok {perm : Mask} {auth : Authority}
    (h : requirePermission t userID serverID perm = .ok auth) :
    getServer t serverID = .ok auth.srv ∧
      (auth.srv.ownerID ≠ userID →
        auth.callerPos = getEffectivePosition t userID serverID ∧
        auth.callerPerms = combine ((getMemberRoles t userID serverID).map (·.permissions))) := by
  obtain ⟨srv, hsrv, h⟩ := bind_eq_ok.mp h
  split at h
  · rename_i howner
    injection h with h
    rw [← h]
    exact ⟨orElse_ok.mp hsrv, fun hne => absurd howner hne⟩
  · obtain ⟨_, -, h⟩ := bind_eq_ok.mp h
    injection h with h
    rw [← h]
    exact ⟨orElse_ok.mp hsrv, fun _ => ⟨rfl, rfl⟩⟩

/-! ## Section 2: Effective permissions -/

theorem resolvePermissions_spec {channelID : ID}
    (hkey : KeyOfServer s.db.tables { userID, serverID, channelID }) :
    Ends (resolvePermissions userID serverID channelID) s
      (fun _ s' => Filled s s') (fun _ s' => s' = s) := by
  apply ends_last
  refine ends_update ?_
  intro perms s' h
  dsimp only at h
  split at h
  · -- a hit leaves the cache as it is
    injection h with h
    obtain ⟨-, rfl⟩ := Prod.mk.inj h
    exact .refl s
  · split at h
    · cases h
    · rename_i result hresult
      injection h with h
      obtain ⟨-, rfl⟩ := Prod.mk.inj h
      refine ⟨rfl, rfl, ?_⟩
      intro e he
      rcases Cache.mem_set he with rfl | ⟨hmem, -⟩
      · exact .inr ⟨rfl, hkey, hresult⟩
      · exact .inl hmem

theorem resolveInput_of_batch {channelID : ID} {common : ResolveInput}
    {member : MemberInfo} {overrides : Option ChannelOverrides}
    (hcommon : resolveInput t userID serverID "" = .ok common)
    (hmember : getMember t userID serverID = .ok member) (hne : channelID ≠ "")
    (hov : overrides.getD {} =
      getAllOverridesForChannel t channelID (serverID :: member.roleIDs) userID) :
    resolveInput t userID serverID channelID = .ok (batchInput common overrides) := by
  obtain ⟨srv, hsrv, hcommon⟩ := bind_eq_ok.mp hcommon
  obtain ⟨everyone, heveryone, hcommon⟩ := bind_eq_ok.mp hcommon
  obtain ⟨member', hmember', hcommon⟩ := bind_eq_ok.mp hcommon
  rw [hmember] at hmember'
  injection hmember' with hmember'
  subst hmember'
  injection hcommon with hcommon
  refine bind_eq_ok.mpr ⟨srv, hsrv, bind_eq_ok.mpr ⟨everyone, heveryone,
    bind_eq_ok.mpr ⟨member, hmember, ?_⟩⟩⟩
  unfold batchInput
  rw [← hcommon, hov, if_neg hne]
  rfl

theorem foldl_set_mem {now : Int} {e : CacheEntry} (resolved : List (ID × Mask)) (cache : Cache)
    (h : e ∈ resolved.foldl (fun cache row =>
      .set cache now { userID, serverID, channelID := row.1 } row.2) cache) :
    e ∈ cache ∨ ∃ row ∈ resolved,
      e = { key := { userID, serverID, channelID := row.1 }, perms := row.2, setAt := now } := by
  induction resolved generalizing cache with
  | nil => exact .inl h
  | cons row resolved ih =>
    rcases ih _ h with h | ⟨row', hrow', rfl⟩
    · rcases Cache.mem_set h with rfl | ⟨hmem, -⟩
      · exact .inr ⟨row, mem_cons_self, rfl⟩
      · exact .inl hmem
    · exact .inr ⟨row', mem_cons_of_mem _ hrow', rfl⟩

theorem resolvePermissionsBatch_spec {channelIDs : List ID}
    (hch : ∀ channelID ∈ channelIDs, channelID ≠ "" ∧
      ∃ c ∈ s.db.tables.channels, c.id = channelID ∧ c.serverID = some serverID) :
    Ends (resolvePermissionsBatch userID serverID channelIDs) s
      (fun _ s' => Filled s s') (fun _ s' => s' = s) := by
  apply ends_last
  refine ends_update ?_
  intro result s' h
  dsimp only at h
  split at h
  · injection h with h
    obtain ⟨-, rfl⟩ := Prod.mk.inj h
    exact .refl s
  · split at h
    · rename_i common member hcommon hmember
      injection h with h
      obtain ⟨-, rfl⟩ := Prod.mk.inj h
      refine ⟨rfl, rfl, ?_⟩
      intro e he
      rcases foldl_set_mem _ _ he with he | ⟨row, hrow, rfl⟩
      · exact .inl he
      · -- only channels without a live entry are resolved and stored
        obtain ⟨channelID, huncached, rfl⟩ := mem_map.mp hrow
        obtain ⟨hne, c, hc, rfl, hserver⟩ := hch channelID (mem_filter.mp huncached).1
        refine .inr ⟨rfl, .inr ⟨c, hc, rfl, hserver⟩, ?_⟩
        unfold computePermissions
        rw [resolveInput_of_batch hcommon hmember hne
          (getAllOverridesForChannels_eq s.db.constraints.channels.channelsPK hc huncached _ _)]
        rfl
    · cases h

/-! ## Section 3: Members -/

/-- One member row changed by `f`. -/
def withMember (serverID userID : ID) (f : Member → Member) (t : Tables) : Tables :=
  { t with
    members := updateWhere (fun m => m.serverID = serverID ∧ m.userID = userID) f t.members }

theorem requireTargetMember_ok (h : requireTargetMember t userID serverID = .ok u) :
    isMember t userID serverID = true := by
  have hmember := rejectIf_ok.mp h
  simpa using hmember

theorem requireOutranks_ok {callerPos : Nat} {message : String}
    (h : requireOutranks callerPos t userID serverID message = .ok u) :
    getEffectivePosition t userID serverID < callerPos := by
  have hrank := rejectIf_ok.mp h
  omega

theorem requireAssignable_ok (hpk : UniqueOn Role.id t.roles) {auth : Authority}
    {roleIDs : List ID} (h : requireAssignable userID auth serverID roleIDs t = .ok ()) {r : Role}
    (hr : r ∈ t.roles) (hlisted : r.id ∈ roleIDs) :
    r.serverID = serverID ∧ (userID ≠ auth.srv.ownerID → r.position < auth.callerPos ∧
      BitMask.Subset r.permissions (effectiveCallerPerms auth.callerPerms)) := by
  unfold requireAssignable at h
  split at h
  · rename_i hempty
    rw [isEmpty_iff.mp hempty] at hlisted
    cases hlisted
  · obtain ⟨_, hlen, h⟩ := bind_eq_ok.mp h
    obtain ⟨_, hrank, hperms⟩ := bind_eq_ok.mp h
    have hfound : r ∈ getRolesByIDs t roleIDs serverID := by
      obtain ⟨r', hr', hid⟩ := exists_of_length_getRolesByIDs hpk
        (by simpa using rejectIf_ok.mp hlen) hlisted
      rwa [eq_of_key hpk hr (mem_filter.mp hr').1 hid.symm]
    refine ⟨(of_decide_eq_true (mem_filter.mp hfound).2).2, ?_⟩
    intro howner
    constructor
    · by_contra hle
      refine rejectIf_ok.mp hrank ⟨howner, any_eq_true.mpr ⟨r, hfound, ?_⟩⟩
      exact decide_eq_true (by omega)
    · have hwithin : escalated (combine ((getRolesByIDs t roleIDs serverID).map
          (·.permissions))) auth.callerPerms = 0 := by
        by_contra hne
        exact rejectIf_ok.mp hperms ⟨howner, hne⟩
      exact .trans (subset_combine (mem_map_of_mem hfound)) hwithin

theorem memberResponse_spec {P : ChatState → Prop} (h : P s) :
    Ends (memberResponse userID serverID) s (fun _ s' => P s') (fun _ s' => P s') := by
  apply ends_last
  exact ends_require (fun _ _ => h) (fun _ => h)

/-- Somebody's nickname was set by themselves, by the owner or from above. -/
structure NicknameSet (caller : Option ID) (req : UpdateMemberRequest) (s s' : ChatState) :
    Prop where
  rights : ∃ userID srv, caller = some userID ∧
    getServer s.db.tables req.serverID = .ok srv ∧
    (req.userID = userID ∨ userID = srv.ownerID ∨
      getEffectivePosition s.db.tables req.userID req.serverID <
        getEffectivePosition s.db.tables userID req.serverID)
  change : ∃ s₁, Filled s s₁ ∧ Changed
    (withMember req.serverID req.userID fun m => { m with nickname := req.nickname.getD "" })
    id s₁ s'

theorem requireNicknameRights_ok {srv : Server} {perms : Mask} {req : UpdateMemberRequest}
    (h : requireNicknameRights userID srv perms req t = .ok u) :
    req.userID = userID ∨ userID = srv.ownerID ∨
      getEffectivePosition t req.userID req.serverID <
        getEffectivePosition t userID req.serverID := by
  unfold requireNicknameRights at h
  split at h
  · rename_i hself
    exact .inl hself
  · obtain ⟨_, -, h⟩ := bind_eq_ok.mp h
    obtain ⟨_, -, h⟩ := bind_eq_ok.mp h
    have hrank := rejectIf_ok.mp h
    by_cases howner : userID = srv.ownerID
    · exact .inr (.inl howner)
    · right
      right
      by_contra hle
      exact hrank ⟨howner, by omega⟩

theorem updateMember_spec (caller : Option ID) (req : UpdateMemberRequest) (s : ChatState) :
    Ends (updateMember caller req) s (fun _ s' => NicknameSet caller req s s')
      (fun _ s' => Filled s s' ∨ NicknameSet caller req s s') := by
  have hsame : ∀ e : ConnectError, Filled s s ∨ NicknameSet caller req s s :=
    fun _ => .inl (.refl s)
  refine ends_require ?_
  intro userID huser
  refine ends_reject ?_
  intro _
  refine ends_reject ?_
  intro _
  refine ends_reject ?_
  intro _
  refine ends_reject ?_
  intro _
  refine ends_require ?_
  intro _ _
  refine ends_require ?_
  intro _ _
  refine ends_require ?_
  intro srv hsrv
  rw [ends_bind]
  refine (resolvePermissions_spec (.inl rfl)).mono ?_ ?_
  · -- from here on a failed call has filled the cache
    intro perms s₁ hfill
    refine ends_require ?_ (fun _ => .inl hfill)
    intro _ hrights
    refine ends_run ?_ (fun _ => .inl hfill)
    intro db hdb
    have hset : NicknameSet caller req s { s₁ with db } := by
      refine ⟨⟨userID, srv, authenticate_ok huser, orElse_ok.mp hsrv, ?_⟩, s₁, hfill, ?_⟩
      · have hrank := requireNicknameRights_ok hrights
        rwa [hfill.db] at hrank
      · exact ⟨updateMember_ok hdb, rfl, rfl⟩
    exact (memberResponse_spec hset).mono (fun _ _ h => h) (fun _ _ h => .inr h)
  · intro e s' hs'
    rw [hs']
    exact hsame e

/-- The roles of a member were replaced. -/
structure RolesSet (caller : Option ID) (req : SetMemberRolesRequest) (s s' : ChatState) :
    Prop where
  rights : ∃ userID auth, Authorized s.db.tables caller req.serverID manageRoles userID auth ∧
    (userID ≠ auth.srv.ownerID → req.userID ≠ userID) ∧
    requireAssignable userID auth req.serverID req.dedupedRoleIDs s.db.tables = .ok ()
  target : isMember s.db.tables req.userID req.serverID = true
  change : Changed
    (fun t => { t with
      memberRoles :=
        deleteWhere (fun mr => mr.userID = req.userID ∧ mr.serverID = req.serverID)
            t.memberRoles ++
          req.dedupedRoleIDs.map fun roleID =>
            { userID := req.userID, serverID := req.serverID, roleID } })
    (·.invalidateUser req.userID req.serverID) s s'

theorem setMemberRoles_spec (caller : Option ID) (req : SetMemberRolesRequest) (s : ChatState) :
    Ends (setMemberRoles caller req) s (fun _ s' => RolesSet caller req s s')
      (fun _ s' => s' = s ∨ RolesSet caller req s s') := by
  have hsame : ∀ e : ConnectError, s = s ∨ RolesSet caller req s s := fun _ => .inl rfl
  refine ends_require ?_
  intro userID huser
  refine ends_reject ?_
  intro _
  refine ends_reject ?_
  intro _
  refine ends_require ?_
  intro _ _
  refine ends_require ?_
  intro _ htarget
  refine ends_require ?_
  intro auth hauth
  refine ends_reject ?_
  intro _
  refine ends_reject ?_
  intro hself
  refine ends_require ?_
  intro _ hassign
  refine ends_run ?_
  intro db hdb
  refine ends_invalidate ?_
  -- the roles are stored even if the answer cannot be built
  have hset : RolesSet caller req s
      { s with
        db
        cache := s.cache.invalidateUser req.userID req.serverID } := by
    refine ⟨⟨userID, auth, ⟨authenticate_ok huser, hauth⟩, ?_, hassign⟩,
      requireTargetMember_ok htarget, ?_⟩
    · intro howner heq
      exact hself ⟨heq, howner⟩
    · exact ⟨setMemberRoles_ok hdb, rfl, rfl⟩
  exact (memberResponse_spec hset).mono (fun _ _ h => h) (fun _ _ h => .inr h)

/-- A timeout was set or removed from above. -/
structure TimeoutSet (caller : Option ID) (serverID userID : ID) (timedOutUntil : Option Int)
    (s s' : ChatState) : Prop where
  rights : ∃ callerID auth,
    Authorized s.db.tables caller serverID timeoutMembers callerID auth ∧
    getEffectivePosition s.db.tables userID serverID < auth.callerPos
  change : Changed (withMember serverID userID fun m => { m with timedOutUntil })
    (·.invalidateUser userID serverID) s s'

theorem timeoutMember_spec (caller : Option ID) (req : TimeoutMemberRequest) (s : ChatState) :
    Ends (timeoutMember caller req) s
      (fun _ s' => TimeoutSet caller req.serverID req.userID (some (req.timedOutUntil.getD 0)) s s')
      (fun _ s' => s' = s ∨
        TimeoutSet caller req.serverID req.userID (some (req.timedOutUntil.getD 0)) s s') := by
  have hsame : ∀ e : ConnectError, s = s ∨
      TimeoutSet caller req.serverID req.userID (some (req.timedOutUntil.getD 0)) s s :=
    fun _ => .inl rfl
  refine ends_require ?_
  intro callerID huser
  refine ends_reject ?_
  intro _
  refine ends_require ?_
  intro _ _
  refine ends_reject ?_
  intro _
  refine ends_require ?_
  intro auth hauth
  refine ends_reject ?_
  intro _
  refine ends_require ?_
  intro _ _
  refine ends_require ?_
  intro _ hrank
  refine ends_check ?_ hsame
  intro _ _
  refine ends_check ?_ hsame
  intro _ _
  refine ends_run ?_
  intro db hdb
  refine ends_invalidate ?_
  have hset : TimeoutSet caller req.serverID req.userID (some (req.timedOutUntil.getD 0)) s
      { s with
        db
        cache := s.cache.invalidateUser req.userID req.serverID } :=
    ⟨⟨callerID, auth, ⟨authenticate_ok huser, hauth⟩, requireOutranks_ok hrank⟩,
      updateMember_ok hdb, rfl, rfl⟩
  exact (memberResponse_spec hset).mono (fun _ _ h => h) (fun _ _ h => .inr h)

theorem removeTimeout_spec (caller : Option ID) (req : RemoveTimeoutRequest) (s : ChatState) :
    Ends (removeTimeout caller req) s
      (fun _ s' => TimeoutSet caller req.serverID req.userID none s s')
      (fun _ s' => s' = s ∨ TimeoutSet caller req.serverID req.userID none s s') := by
  have hsame : ∀ e : ConnectError, s = s ∨
      TimeoutSet caller req.serverID req.userID none s s := fun _ => .inl rfl
  refine ends_require ?_
  intro callerID huser
  refine ends_reject ?_
  intro _
  refine ends_require ?_
  intro _ _
  refine ends_require ?_
  intro auth hauth
  refine ends_require ?_
  intro _ _
  refine ends_require ?_
  intro _ hrank
  refine ends_run ?_
  intro db hdb
  refine ends_invalidate ?_
  have hset : TimeoutSet caller req.serverID req.userID none s
      { s with
        db
        cache := s.cache.invalidateUser req.userID req.serverID } :=
    ⟨⟨callerID, auth, ⟨authenticate_ok huser, hauth⟩, requireOutranks_ok hrank⟩,
      updateMember_ok hdb, rfl, rfl⟩
  exact (memberResponse_spec hset).mono (fun _ _ h => h) (fun _ _ h => .inr h)

/-! ## Section 4: Kicks, bans and leaving -/

/-- The clean-up touches channel memberships and key envelopes only. -/
theorem removeChannelMembersForServer_spec {P : ChatState → Prop}
    {E : ConnectError → ChatState → Prop}
    (h : ∀ s' channelMembers, Changed (fun t => { t with channelMembers }) id s s' → P s') :
    Ends (removeChannelMembersForServer userID serverID) s (fun _ s' => P s') E := by
  apply ends_last
  refine Action.ends_attempt ?_ ?_
  · intro s' hs'
    rcases hstore : ChatStore.removeChannelMembersForServer s.db userID serverID with e | db
    · rw [hstore] at hs'
      cases hs'
    · rw [hstore] at hs'
      injection hs' with hs'
      rw [← hs']
      exact h _ _ ⟨commit_ok hstore, rfl, rfl⟩
  · exact h s s.db.tables.channelMembers ⟨rfl, rfl, rfl⟩

/-- A membership is gone, with its roles and channel memberships. -/
def MemberRemoved (userID serverID : ID) (s s' : ChatState) : Prop :=
  ∃ channelMembers, Changed
    (fun t => { withoutMember t userID serverID with channelMembers }) id s s'

/-- Somebody was kicked from above. -/
structure Kicked (caller : Option ID) (req : KickMemberRequest) (s s' : ChatState) : Prop where
  rights : ∃ userID auth, Authorized s.db.tables caller req.serverID kickMembers userID auth ∧
    auth.srv.ownerID ≠ req.userID ∧
    getEffectivePosition s.db.tables req.userID req.serverID < auth.callerPos
  change : MemberRemoved req.userID req.serverID s s'

theorem kickMember_spec (caller : Option ID) (req : KickMemberRequest) (s : ChatState) :
    Ends (kickMember caller req) s (fun _ s' => Kicked caller req s s') (fun _ s' => s' = s) := by
  refine ends_require ?_
  intro userID huser
  refine ends_reject ?_
  intro _
  refine ends_require ?_
  intro _ _
  refine ends_require ?_
  intro auth hauth
  refine ends_reject ?_
  intro _
  refine ends_reject ?_
  intro howner
  refine ends_require ?_
  intro _ _
  refine ends_require ?_
  intro _ hrank
  refine ends_run ?_
  intro db hdb
  refine removeChannelMembersForServer_spec ?_
  intro s' channelMembers hclean
  refine ⟨⟨userID, auth, ⟨authenticate_ok huser, hauth⟩, howner, requireOutranks_ok hrank⟩,
    channelMembers, ?_, hclean.cache, hclean.now⟩
  rw [hclean.tables]
  show { db.tables with channelMembers } = _
  rw [commit_ok hdb]

/-- Somebody was banned: a member from above, or somebody who is no member. -/
structure Banned (caller : Option ID) (req : BanMemberRequest) (s s' : ChatState) : Prop where
  rights : ∃ userID auth, Authorized s.db.tables caller req.serverID banMembers userID auth ∧
    auth.srv.ownerID ≠ req.userID ∧
    (isMember s.db.tables req.userID req.serverID = true →
      getEffectivePosition s.db.tables req.userID req.serverID < auth.callerPos)
  change : ∃ bans, (∀ b ∈ bans, b ∈ s.db.tables.bans ∨ b.key = (req.serverID, req.userID)) ∧
    ((isMember s.db.tables req.userID req.serverID = true ∧ ∃ channelMembers, Changed (fun t =>
          { withoutMember t req.userID req.serverID with channelMembers, bans })
        id s s') ∨
      (isMember s.db.tables req.userID req.serverID = false ∧
        Changed (fun t => { t with bans }) id s s'))

theorem banMember_spec (caller : Option ID) (req : BanMemberRequest) (s : ChatState) :
    Ends (banMember caller req) s (fun _ s' => Banned caller req s s')
      (fun _ s' => s' = s ∨ Banned caller req s s') := by
  have hsame : ∀ e : ConnectError, s = s ∨ Banned caller req s s := fun _ => Or.inl rfl
  refine ends_require ?_
  intro userID huser
  refine ends_reject ?_
  intro _
  refine ends_require ?_
  intro _ _
  refine ends_require ?_
  intro auth hauth
  refine ends_reject ?_
  intro _
  refine ends_reject ?_
  intro howner
  refine ends_require ?_
  intro _ _
  have hwho := Authorized.mk (authenticate_ok huser) hauth
  refine ends_require ?_
  intro member hmember
  injection hmember with hmember
  split
  · -- a member is outranked and removed with the ban
    rename_i hmem
    rw [← hmember] at hmem
    refine ends_require ?_
    intro _ hrank
    refine ends_run ?_
    intro db hdb
    refine removeChannelMembersForServer_spec ?_
    intro s' channelMembers hclean
    have htables := createBanAndRemoveMember_ok hdb
    refine ⟨⟨userID, auth, hwho, howner, fun _ => requireOutranks_ok hrank⟩, db.tables.bans, ?_,
      Or.inl ⟨hmem, channelMembers, ?_, hclean.cache, hclean.now⟩⟩
    · intro b hb
      rw [htables] at hb
      rcases mem_append.mp hb with hb | hb
      · exact Or.inl hb
      · rw [mem_singleton.mp hb]
        exact Or.inr rfl
    · rw [hclean.tables]
      show { db.tables with channelMembers } = _
      rw [htables]
  · -- a stranger is banned in advance; a second ban is reported as an error
    rename_i hnot
    rw [← hmember, Bool.not_eq_true] at hnot
    refine ends_transact ?_
    intro created db hdb
    have hban : Banned caller req s { s with db } := by
      refine ⟨⟨userID, auth, hwho, howner, ?_⟩, _, ?_, Or.inr ⟨hnot, createBan_ok hdb, rfl, rfl⟩⟩
      · intro hmem
        rw [hnot] at hmem
        cases hmem
      · intro b hb
        rcases mem_insertNew.mp hb with hb | ⟨rfl, -⟩
        · exact Or.inl hb
        · exact Or.inr rfl
    apply ends_last
    exact ends_reject (fun _ => hban) (fun _ => Or.inr hban)

theorem unbanMember_spec (caller : Option ID) (req : UnbanMemberRequest) (s : ChatState) :
    Ends (unbanMember caller req) s
      (fun _ s' => Changed (fun t => { t with
        bans := deleteWhere (fun b => b.serverID = req.serverID ∧ b.userID = req.userID)
          t.bans }) id s s')
      (fun _ s' => s' = s) := by
  refine ends_require ?_
  intro userID _
  refine ends_reject ?_
  intro _
  refine ends_require ?_
  intro _ _
  refine ends_require ?_
  intro _ _
  refine ends_require ?_
  intro _ _
  apply ends_last
  refine ends_run ?_
  intro db hdb
  exact ⟨commit_ok hdb, rfl, rfl⟩

/-- A member left; the owner cannot. -/
structure Left (caller : Option ID) (req : LeaveServerRequest) (s s' : ChatState) : Prop where
  rights : ∃ userID srv, caller = some userID ∧
    getServer s.db.tables req.serverID = .ok srv ∧ srv.ownerID ≠ userID ∧
    MemberRemoved userID req.serverID s s'

theorem leaveServer_spec (caller : Option ID) (req : LeaveServerRequest) (s : ChatState) :
    Ends (leaveServer caller req) s (fun _ s' => Left caller req s s') (fun _ s' => s' = s) := by
  refine ends_require ?_
  intro userID huser
  refine ends_reject ?_
  intro _
  refine ends_require ?_
  intro srv hsrv
  refine ends_reject ?_
  intro howner
  refine ends_require ?_
  intro _ _
  refine ends_run ?_
  intro db hdb
  refine removeChannelMembersForServer_spec ?_
  intro s' channelMembers hclean
  refine ⟨userID, srv, authenticate_ok huser, orElse_ok.mp hsrv, howner, channelMembers, ?_,
    hclean.cache, hclean.now⟩
  rw [hclean.tables]
  show { db.tables with channelMembers } = _
  rw [commit_ok hdb]

/-! ## Section 5: Roles -/

/-- A role was created within the caller's permissions. -/
structure RoleCreated (newID : ID) (caller : Option ID) (req : CreateRoleRequest)
    (s s' : ChatState) : Prop where
  rights : ∃ userID auth, Authorized s.db.tables caller req.serverID manageRoles userID auth ∧
    (userID ≠ auth.srv.ownerID → escalated req.permissions auth.callerPerms = 0)
  change : ∃ created : Role, created.id = newID ∧ created.serverID = req.serverID ∧
    created.permissions = req.permissions ∧ created.isSelfAssignable = req.isSelfAssignable ∧
    created.position =
      maxPosition (s.db.tables.roles.filter (·.serverID = req.serverID)) + 1 ∧
    Changed (fun t => { t with roles := t.roles ++ [created] }) id s s'

theorem escalated_zero (callerPerms : Mask) : escalated 0 callerPerms = 0 := by
  exact BitVec.zero_and

theorem createRole_spec (newID : ID) (caller : Option ID) (req : CreateRoleRequest)
    (s : ChatState) :
    Ends (createRole newID caller req) s (fun _ s' => RoleCreated newID caller req s s')
      (fun _ s' => s' = s) := by
  refine ends_require ?_
  intro userID huser
  refine ends_reject ?_
  intro _
  refine ends_require ?_
  intro _ _
  refine ends_require ?_
  intro auth hauth
  refine ends_reject ?_
  intro _
  refine ends_reject ?_
  intro hesc
  apply ends_last
  refine ends_transact ?_
  intro created db hdb
  obtain ⟨hcreated, htables⟩ := createRole_ok hdb
  refine ⟨⟨userID, auth, ⟨authenticate_ok huser, hauth⟩, ?_⟩, created, ?_⟩
  · intro howner
    by_cases hzero : req.permissions = 0
    · rw [hzero]
      exact escalated_zero _
    · by_contra hne
      exact hesc ⟨hzero, howner, hne⟩
  · rw [hcreated] at htables ⊢
    exact ⟨rfl, rfl, rfl, rfl, rfl, htables, rfl, rfl⟩

/-- A role below the caller was changed within the caller's permissions. -/
structure RoleUpdated (caller : Option ID) (req : UpdateRoleRequest) (s s' : ChatState) :
    Prop where
  rights : ∃ userID auth role, lookup Role.id req.roleID s.db.tables.roles = some role ∧
    Authorized s.db.tables caller role.serverID manageRoles userID auth ∧
    role.position < auth.callerPos ∧
    (userID ≠ auth.srv.ownerID → ∀ p ∈ req.permissions, escalated p auth.callerPerms = 0) ∧
    Changed
      (fun t => { t with
        roles := updateWhere (fun r => r.id = req.roleID) req.toRolePatch.apply t.roles })
      (·.invalidateServer role.serverID) s s'

theorem updateRole_spec (caller : Option ID) (req : UpdateRoleRequest) (s : ChatState) :
    Ends (updateRole caller req) s (fun _ s' => RoleUpdated caller req s s')
      (fun _ s' => s' = s) := by
  refine ends_require ?_
  intro userID huser
  refine ends_reject ?_
  intro _
  refine ends_require ?_
  intro role hrole
  refine ends_require ?_
  intro _ _
  refine ends_require ?_
  intro auth hauth
  refine ends_reject ?_
  intro _
  refine ends_reject ?_
  intro hrank
  refine ends_require ?_
  intro _ hsettable
  refine ends_transact ?_
  intro updated db hdb
  refine ends_invalidate (ends_pure ?_)
  obtain ⟨_, -, hsettable⟩ := bind_eq_ok.mp hsettable
  have hesc := rejectIf_ok.mp hsettable
  refine ⟨userID, auth, role, oneRow_ok.mp (orElse_ok.mp hrole),
    ⟨authenticate_ok huser, hauth⟩, by omega, ?_, updateRole_ok hdb, rfl, rfl⟩
  intro howner p hp
  by_contra hne
  refine hesc ⟨howner, ?_⟩
  rw [Option.mem_def.mp hp]
  exact decide_eq_true hne

/-- An ordinary role below the caller was deleted. -/
structure RoleDeleted (caller : Option ID) (req : DeleteRoleRequest) (s s' : ChatState) :
    Prop where
  rights : ∃ userID auth role, lookup Role.id req.roleID s.db.tables.roles = some role ∧
    Authorized s.db.tables caller role.serverID manageRoles userID auth ∧
    role.id ≠ role.serverID ∧ role.position < auth.callerPos ∧
    Changed
      (fun t => { t with
        roles := withoutRole role t.roles
        memberRoles := deleteWhere (fun mr => mr.roleID = req.roleID) t.memberRoles
        permissionOverrides := deleteWhere (fun po => po.subject = .role req.roleID)
          t.permissionOverrides })
      (·.invalidateServer role.serverID) s s'

theorem deleteRole_spec (caller : Option ID) (req : DeleteRoleRequest) (s : ChatState) :
    Ends (deleteRole caller req) s (fun _ s' => RoleDeleted caller req s s')
      (fun _ s' => s' = s) := by
  refine ends_require ?_
  intro userID huser
  refine ends_reject ?_
  intro _
  refine ends_require ?_
  intro role hrole
  refine ends_require ?_
  intro _ _
  refine ends_require ?_
  intro auth hauth
  refine ends_reject ?_
  intro heveryone
  refine ends_reject ?_
  intro hrank
  refine ends_run ?_
  intro db hdb
  apply ends_last
  refine ends_invalidate (ends_pure ?_)
  -- the store looks the role up once more
  have hlook := oneRow_ok.mp (orElse_ok.mp hrole)
  obtain ⟨role', hlook', htables⟩ := deleteRole_ok hdb
  rw [hlook] at hlook'
  injection hlook' with hlook'
  subst hlook'
  exact ⟨userID, auth, role, hlook, ⟨authenticate_ok huser, hauth⟩, heveryone, by omega,
    htables, rfl, rfl⟩

/-- The roles below the caller were put in the requested order. -/
structure RolesReordered (caller : Option ID) (req : ReorderRolesRequest) (s s' : ChatState) :
    Prop where
  rights : ∃ userID auth callerPos,
    Authorized s.db.tables caller req.serverID manageRoles userID auth ∧
    (userID ≠ auth.srv.ownerID → callerPos = auth.callerPos) ∧ req.roleIDs ≠ [] ∧
    req.roleIDs.eraseDups.length =
      ((ordinaryRoles s.db.tables req.serverID).filter
        (·.position < callerPos)).length ∧
    (∀ roleID ∈ req.roleIDs.eraseDups, ∃ r ∈ ordinaryRoles s.db.tables req.serverID,
      r.position < callerPos ∧ r.id = roleID) ∧
    Changed
      (fun t => { t with
        roles := shiftAbove req.serverID callerPos (req.roleIDs.eraseDups.length + 1)
          (assignPositions req.roleIDs.eraseDups t.roles) })
      (·.invalidateServer req.serverID) s s'

theorem reorderRoles_spec (caller : Option ID) (req : ReorderRolesRequest) (s : ChatState) :
    Ends (reorderRoles caller req) s (fun _ s' => RolesReordered caller req s s')
      (fun _ s' => s' = s) := by
  refine ends_require ?_
  intro userID huser
  refine ends_reject ?_
  intro _
  refine ends_reject ?_
  intro hnonempty
  refine ends_reject ?_
  intro _
  refine ends_require ?_
  intro _ _
  refine ends_require ?_
  intro auth hauth
  refine ends_reject ?_
  intro _
  refine ends_update ?_
  intro _ s' hs'
  apply ends_last
  refine ends_invalidate (ends_pure ?_)
  split at hs'
  · rename_i db hdb
    injection hs' with hs'
    obtain ⟨-, rfl⟩ := Prod.mk.inj hs'
    obtain ⟨hlen, hall, htables⟩ := reorderRoles_ok hdb
    refine ⟨userID, auth, _, ⟨authenticate_ok huser, hauth⟩, ?_, ?_, hlen, hall, htables,
      rfl, rfl⟩
    · intro howner
      rw [if_neg howner]
    · intro hnil
      exact hnonempty (by rw [hnil]; rfl)
  · cases hs'
  · cases hs'

end Meza.Chat
