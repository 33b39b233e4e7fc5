import Meza.Chat.Effects
import Meza.Store.Writing

/-! # What a call does to channels and memberships

    The lemmas about the remaining handlers. A call on the channel side edits
    channel rows in place and changes override rows of a few scopes; which
    channels and which scopes is what the lemmas say. -/

namespace Meza.Chat

open Store Permissions Action List Table ChatStore

/-! ## Section 1: Shapes of effects -/

/-- The same channel of the same server, in its category or in one that
    `regroup` allows. -/
structure Edited (regroup : ID → Option ID → Prop) (c c' : Channel) : Prop where
  id : c'.id = c.id
  serverID : c'.serverID = c.serverID
  companion : c'.voiceTextChannelID = c.voiceTextChannelID
  group : c'.channelGroupID = c.channelGroupID ∨ regroup c.id c'.channelGroupID

theorem Edited.refl (regroup : ID → Option ID → Prop) (c : Channel) : Edited regroup c c :=
  ⟨rfl, rfl, rfl, .inl rfl⟩

variable {auth : Authority} {ch updated : Channel} {db db' : DB}
  {channelID serverID targetID userID : ID} {uuid : ID → ID → ID} {regroup : ID → Option ID → Prop}
  {touched : OverrideScope → OverrideSubject → Prop} {subject : OverrideSubject} {t : Tables}
  {req : UpdateChannelRequest}

theorem Edited.trans {c₁ c₂ c₃ : Channel} (h₁ : Edited regroup c₁ c₂) (h₂ : Edited regroup c₂ c₃) :
    Edited regroup c₁ c₃ := by
  refine ⟨h₂.id.trans h₁.id, h₂.serverID.trans h₁.serverID, h₂.companion.trans h₁.companion, ?_⟩
  rcases h₂.group with hgroup | hgroup
  · rw [hgroup]
    exact h₁.group
  · rw [h₁.id] at hgroup
    exact .inr hgroup

/-- Channels are edited, overrides change only in the touched scopes, categories
    may disappear, and all other tables are the same. -/
structure ChannelsChanged (regroup : ID → Option ID → Prop)
    (touched : OverrideScope → OverrideSubject → Prop) (t t' : Tables) : Prop where
  rest : t' = { t with
    channelGroups := t'.channelGroups
    channels := t'.channels
    permissionOverrides := t'.permissionOverrides }
  groups : ∀ g ∈ t'.channelGroups, g ∈ t.channelGroups
  channels : List.Forall₂ (Edited regroup) t.channels t'.channels
  overrides : AgreeOutside (fun po => touched po.scope po.subject) t.permissionOverrides
    t'.permissionOverrides

section ChannelsChanged

theorem ChannelsChanged.refl (t : Tables) : ChannelsChanged regroup touched t t :=
  ⟨rfl, fun _ hg => hg, List.forall₂_same.mpr fun c _ => .refl regroup c, .refl _ _⟩

theorem ChannelsChanged.trans {t₁ t₂ t₃ : Tables} (h₁ : ChannelsChanged regroup touched t₁ t₂)
    (h₂ : ChannelsChanged regroup touched t₂ t₃) : ChannelsChanged regroup touched t₁ t₃ := by
  refine ⟨?_, fun g hg => h₁.groups g (h₂.groups g hg), ?_, h₁.overrides.trans h₂.overrides⟩
  · rw [h₂.rest, h₁.rest]
  · exact forall₂_trans (fun _ _ _ => .trans) h₁.channels h₂.channels

theorem ChannelsChanged.of_ok (h : (.ok db : Except StoreError DB) = .ok db') :
    ChannelsChanged regroup touched db.tables db'.tables := by
  injection h with h
  rw [h]
  exact .refl _

theorem tried_changed {f : DB → Except StoreError DB}
    (h : ∀ db', f db = .ok db' → ChannelsChanged regroup touched db.tables db'.tables) :
    ChannelsChanged regroup touched db.tables (tried f db).tables := by
  unfold tried
  split
  · rename_i hok
    exact h _ hok
  · exact .refl _

theorem ChannelsChanged.of_overrides {permissionOverrides : List PermissionOverride}
    (h : AgreeOutside (fun po => touched po.scope po.subject) t.permissionOverrides
    permissionOverrides) : ChannelsChanged regroup touched t { t with permissionOverrides } :=
  ⟨rfl, fun _ hg => hg, List.forall₂_same.mpr fun c _ => .refl regroup c, h⟩

theorem ChannelsChanged.of_channels {p : Channel → Bool}
    {f : Channel → Channel} (h : ∀ c ∈ t.channels, p c = true → Edited regroup c (f c)) :
    ChannelsChanged regroup touched t { t with channels := updateWhere p f t.channels } :=
  ⟨rfl, fun _ hg => hg, forall₂_updateWhere (.refl regroup) h, .refl _ _⟩

theorem setSynced_changed (synced : Bool) (channelID : ID) :
    ChannelsChanged regroup touched t
      { t with channels := setSynced synced channelID t.channels } :=
  .of_channels fun _ _ _ => ⟨rfl, rfl, rfl, .inl rfl⟩

end ChannelsChanged

/-- The tables change so, and the cache by `g`. -/
structure Rearranged (regroup : ID → Option ID → Prop)
    (touched : OverrideScope → OverrideSubject → Prop) (g : Cache → Cache) (s s' : ChatState) :
    Prop where
  tables : ChannelsChanged regroup touched s.db.tables s'.db.tables
  cache : s'.cache = g s.cache
  now : s'.now = s.now

/-! ## Section 2: Overrides -/

/-- The scopes an override call reaches: its target and the text companion. -/
def Reaches (t : Tables) (targetID : ID) (scope : OverrideScope) : Prop :=
  scope.id = targetID ∨ ∃ c ∈ t.channels, c.id = targetID ∧ c.voiceTextChannelID = some scope.id

/-- The caller outranks the role or member of an override. -/
def SubjectBelow (t : Tables) (serverID userID : ID) (auth : Authority) : OverrideSubject → Prop
  | .role roleID => ∃ role, lookup Role.id roleID t.roles = some role ∧
      role.position < auth.callerPos
  | .user targetID => ∃ pos, getUserMaxRolePosition t targetID serverID = .ok pos ∧
      (userID ≠ auth.srv.ownerID → pos < auth.callerPos)

theorem below_of_role {roleID : ID} {role : Role} (hrole : RoleStore.getRole t roleID = .ok role)
    (hrank : ¬ auth.callerPos ≤ role.position) :
    SubjectBelow t serverID userID auth (.role roleID) := by
  have hbelow : role.position < auth.callerPos := not_le.mp hrank
  exact ⟨role, oneRow_ok.mp hrole, hbelow⟩

theorem below_of_user {pos : Nat} (hpos : getUserMaxRolePosition t targetID serverID = .ok pos)
    (hrank : ¬ (auth.callerPos ≤ pos ∧ userID ≠ auth.srv.ownerID)) :
    SubjectBelow t serverID userID auth (.user targetID) := by
  refine ⟨pos, hpos, ?_⟩
  intro howner
  by_contra hle
  exact hrank ⟨not_lt.mp hle, howner⟩

theorem requireSettableSubject_ok {req : SetPermissionOverrideRequest}
    (h : requireSettableSubject userID serverID auth req t = .ok subject) :
    SubjectBelow t serverID userID auth subject ∧
      subject = if req.roleID = "" then .user req.userID else .role req.roleID := by
  unfold requireSettableSubject at h
  split at h
  · rename_i hempty
    obtain ⟨role, hrole, h⟩ := bind_eq_ok.mp h
    obtain ⟨_, -, h⟩ := bind_eq_ok.mp h
    obtain ⟨_, hrank, h⟩ := bind_eq_ok.mp h
    injection h with h
    rw [← h, if_neg hempty]
    exact ⟨below_of_role (orElse_ok.mp hrole) (rejectIf_ok.mp hrank), rfl⟩
  · rename_i hempty
    obtain ⟨_, -, h⟩ := bind_eq_ok.mp h
    obtain ⟨_, -, h⟩ := bind_eq_ok.mp h
    obtain ⟨pos, hpos, h⟩ := bind_eq_ok.mp h
    obtain ⟨_, hrank, h⟩ := bind_eq_ok.mp h
    injection h with h
    rw [← h, if_pos (not_not.mp hempty)]
    exact ⟨below_of_user (orElse_ok.mp hpos) (rejectIf_ok.mp hrank), rfl⟩

/-- Whoever is no member has no position, and not because the row is gone. -/
theorem getUserMaxRolePosition_error {e : StoreError}
    (h : getUserMaxRolePosition t userID serverID = .error e) :
    e = .refused "member not found" := by
  unfold getUserMaxRolePosition getMember oneRow at h
  split at h
  · injection h with h
    exact h.symm
  · cases h

theorem requireDeletableSubject_ok {req : DeletePermissionOverrideRequest}
    (h : requireDeletableSubject userID serverID auth req t = .ok subject) :
    SubjectBelow t serverID userID auth subject ∧
      subject = if req.roleID = "" then .user req.userID else .role req.roleID := by
  unfold requireDeletableSubject at h
  split at h
  · rename_i hempty
    obtain ⟨role, hrole, h⟩ := bind_eq_ok.mp h
    obtain ⟨_, -, h⟩ := bind_eq_ok.mp h
    obtain ⟨_, hrank, h⟩ := bind_eq_ok.mp h
    injection h with h
    rw [← h, if_neg hempty]
    exact ⟨below_of_role (orElse_ok.mp hrole) (rejectIf_ok.mp hrank), rfl⟩
  · rename_i hempty
    rw [if_pos (not_not.mp hempty)]
    obtain ⟨_, -, h⟩ := bind_eq_ok.mp h
    split at h
    · -- the branch for a member that is gone tests for `ErrNotFound` and is never taken
      rename_i what herror
      cases getUserMaxRolePosition_error herror
    · cases h
    · rename_i pos hpos
      obtain ⟨_, hrank, h⟩ := bind_eq_ok.mp h
      injection h with h
      rw [← h]
      exact ⟨below_of_user hpos (rejectIf_ok.mp hrank), rfl⟩

theorem rejectCompanion_ok {target : OverrideTarget} {message : String} {u : Unit}
    (h : rejectCompanion t target targetID message = .ok u) :
    ¬ (target.isGroup = false ∧ isVoiceTextCompanion t targetID = true) := by
  have hnot := rejectIf_ok.mp h
  intro hboth
  exact hnot ⟨by rw [hboth.1]; exact Bool.false_ne_true, hboth.2⟩

section Overrides

theorem setOverride_changed {override stored : PermissionOverride}
    (h : setOverride db override = .ok (stored, db'))
    (hscope : touched override.scope override.subject) :
    ChannelsChanged regroup touched db.tables db'.tables := by
  rw [setOverride_ok h]
  refine ChannelsChanged.of_overrides (agreeOutside_upsert hscope ?_)
  intro po hpo
  have hsame : touched po.scope po.subject := by
    rwa [show po.scope = override.scope from congrArg Prod.fst hpo,
      show po.subject = override.subject from congrArg Prod.snd hpo]
  exact ⟨hsame, hsame⟩

theorem deleteOverrideFor_ok (h : deleteOverrideFor targetID subject db = .ok db') :
    db'.tables = { db.tables with
      permissionOverrides := deleteWhere
        (fun po => po.onTarget targetID ∧ po.subject = subject)
        db.tables.permissionOverrides } := by
  rcases subject with roleID | userID
  · exact deleteOverrideOf_ok h
  · exact deleteOverrideOf_ok h

theorem deleteOverrideFor_changed (h : deleteOverrideFor targetID subject db = .ok db')
    (hscope : ∀ scope : OverrideScope, scope.id = targetID → touched scope subject) :
    ChannelsChanged regroup touched db.tables db'.tables := by
  rw [deleteOverrideFor_ok h]
  refine ChannelsChanged.of_overrides (agreeOutside_deleteWhere ?_)
  intro po _ hpo
  obtain ⟨htarget, hsubject⟩ := of_decide_eq_true hpo
  rw [hsubject]
  exact hscope po.scope (onTarget_iff.mp htarget)

theorem mirrorOverride_changed {mirrorID : ID} {override : PermissionOverride}
    (h : mirrorOverride mirrorID override db = .ok db')
    (hscope : ∀ c ∈ db.tables.channels, override.scope = .channel c.id →
      ∀ companionID ∈ c.voiceTextChannelID, touched (.channel companionID) override.subject) :
    ChannelsChanged regroup touched db.tables db'.tables := by
  unfold mirrorOverride at h
  split at h
  · exact .of_ok h
  · rename_i channelID hchannel
    obtain ⟨c, hc, hrest⟩ := bind_eq_ok.mp h
    obtain ⟨hmem, rfl⟩ := mem_of_lookup (oneRow_ok.mp hc)
    split at hrest
    · exact .of_ok hrest
    · rename_i companionID hcompanion
      obtain ⟨⟨stored, db₁⟩, hset, rfl⟩ := map_eq_ok.mp hrest
      exact setOverride_changed hset (hscope c hmem hchannel companionID hcompanion)

variable {scope : OverrideScope}

theorem mirrorDeletion_changed (h : mirrorDeletion scope subject db = .ok db')
    (hscope : ∀ c ∈ db.tables.channels, scope = .channel c.id →
      ∀ scope' : OverrideScope, c.voiceTextChannelID = some scope'.id → touched scope' subject) :
    ChannelsChanged regroup touched db.tables db'.tables := by
  unfold mirrorDeletion at h
  split at h
  · exact .of_ok h
  · rename_i channelID hchannel
    obtain ⟨c, hc, hrest⟩ := bind_eq_ok.mp h
    obtain ⟨hmem, rfl⟩ := mem_of_lookup (oneRow_ok.mp hc)
    split at hrest
    · exact .of_ok hrest
    · rename_i companionID hcompanion
      refine deleteOverrideFor_changed hrest ?_
      intro scope' hid
      refine hscope c hmem rfl scope' ?_
      rw [hcompanion, hid]

theorem unsyncOverridden_changed (h : unsyncOverridden scope db = .ok db') :
    ChannelsChanged regroup touched db.tables db'.tables := by
  unfold unsyncOverridden at h
  split at h
  · exact .of_ok h
  · obtain ⟨c, hc, hrest⟩ := bind_eq_ok.mp h
    split at hrest
    · rw [commit_ok hrest]
      exact setSynced_changed false _
    · exact .of_ok hrest

end Overrides

theorem scope_id (target : OverrideTarget) (targetID : ID) :
    (target.scope targetID).id = targetID := by
  unfold OverrideTarget.scope
  split
  · rfl
  · rfl

theorem channelID_of_scope {target : OverrideTarget}
    (h : target.scope targetID = .channel channelID) : channelID = targetID := by
  have hid := scope_id target targetID
  rwa [h] at hid

/-- An override was set or deleted by somebody who may manage roles, for a role
    or member below. -/
structure OverrideWritten (caller : Option ID) (targetID : ID) (s s' : ChatState) : Prop where
  rights : ∃ userID auth target subject, resolveTargetServerID s.db.tables targetID = .ok target ∧
    Authorized s.db.tables caller target.serverID manageRoles userID auth ∧
    SubjectBelow s.db.tables target.serverID userID auth subject ∧
    Rearranged (fun _ _ => False)
      (fun scope subject' => Reaches s.db.tables targetID scope ∧ subject' = subject)
      (·.invalidateServer target.serverID) s s'

/-- What an override call has checked, of its target and of its role or member. -/
structure OverrideChecked (caller : Option ID) (targetID roleID memberID : ID) (t : Tables)
    (target : OverrideTarget) (subject : OverrideSubject) : Prop where
  resolved : resolveTargetServerID t targetID = .ok target
  direct : ¬ (target.isGroup = false ∧ isVoiceTextCompanion t targetID = true)
  rights : ∃ userID auth, Authorized t caller target.serverID manageRoles userID auth ∧
    SubjectBelow t target.serverID userID auth subject
  chosen : subject = if roleID = "" then .user memberID else .role roleID

theorem setPermissionOverride_steps (newID mirrorID : ID) (caller : Option ID)
    (req : SetPermissionOverrideRequest) (s : ChatState) :
    Action.Ends (setPermissionOverride newID mirrorID caller req) s
      (fun _ s' => ∃ target subject stored db override,
        OverrideChecked caller req.targetID req.roleID req.userID s.db.tables target subject ∧
        override = { id := newID, scope := target.scope req.targetID, subject,
                     allow := req.allow, deny := req.deny } ∧
        setOverride s.db override = .ok (stored, db) ∧
        s' = { s with
          db := tried (unsyncOverridden override.scope)
            (tried (mirrorOverride mirrorID override) db)
          cache := s.cache.invalidateServer target.serverID })
      (fun _ s' => s' = s) := by
  refine ends_require ?_
  intro userID huser
  iterate 4
    refine ends_reject ?_
    intro _
  refine ends_require ?_
  intro target htarget
  refine ends_require ?_
  intro _ hdirect
  refine ends_require ?_
  intro _ _
  refine ends_require ?_
  intro auth hauth
  refine ends_require ?_
  intro subject hsubject
  iterate 2
    refine ends_reject ?_
    intro _
  refine ends_transact ?_
  intro created db hdb
  refine ends_tried (ends_tried (ends_invalidate (ends_pure ?_)))
  obtain ⟨hbelow, hsubject⟩ := requireSettableSubject_ok hsubject
  exact ⟨target, subject, created, db, _, ⟨htarget, rejectCompanion_ok hdirect,
    ⟨userID, auth, ⟨authenticate_ok huser, hauth⟩, hbelow⟩, hsubject⟩, rfl, hdb, rfl⟩

theorem deletePermissionOverride_steps (caller : Option ID)
    (req : DeletePermissionOverrideRequest) (s : ChatState) :
    Action.Ends (deletePermissionOverride caller req) s
      (fun _ s' => ∃ target subject db,
        OverrideChecked caller req.targetID req.roleID req.userID s.db.tables target subject ∧
        deleteOverrideFor req.targetID subject s.db = .ok db ∧
        s' = { s with
          db := tried (mirrorDeletion (target.scope req.targetID) subject) db
          cache := s.cache.invalidateServer target.serverID })
      (fun _ s' => s' = s) := by
  refine ends_require ?_
  intro userID huser
  iterate 2
    refine ends_reject ?_
    intro _
  refine ends_require ?_
  intro target htarget
  refine ends_require ?_
  intro _ hdirect
  refine ends_require ?_
  intro _ _
  refine ends_require ?_
  intro auth hauth
  refine ends_require ?_
  intro subject hsubject
  refine ends_run ?_
  intro db hdb
  refine ends_tried ?_
  apply ends_last
  refine ends_invalidate (ends_pure ?_)
  obtain ⟨hbelow, hsubject⟩ := requireDeletableSubject_ok hsubject
  exact ⟨target, subject, db, ⟨htarget, rejectCompanion_ok hdirect,
    ⟨userID, auth, ⟨authenticate_ok huser, hauth⟩, hbelow⟩, hsubject⟩, hdb, rfl⟩

theorem OverrideChecked.written {caller : Option ID} {roleID memberID : ID}
    {target : OverrideTarget} {s : ChatState}
    (h : OverrideChecked caller targetID roleID memberID s.db.tables target subject)
    (hchange : ChannelsChanged (fun _ _ => False)
      (fun scope subject' => Reaches s.db.tables targetID scope ∧ subject' = subject)
      s.db.tables db.tables) :
    OverrideWritten caller targetID s
      { s with
        db
        cache := s.cache.invalidateServer target.serverID } := by
  obtain ⟨userID, auth, hauth, hbelow⟩ := h.rights
  exact ⟨userID, auth, target, subject, h.resolved, hauth, hbelow, hchange, rfl, rfl⟩

theorem setPermissionOverride_spec (newID mirrorID : ID) (caller : Option ID)
    (req : SetPermissionOverrideRequest) (s : ChatState) :
    Action.Ends (setPermissionOverride newID mirrorID caller req) s
      (fun _ s' => OverrideWritten caller req.targetID s s') (fun _ s' => s' = s) := by
  refine (setPermissionOverride_steps newID mirrorID caller req s).mono ?_ (fun _ _ h => h)
  rintro _ _ ⟨target, subject, stored, db, _, hchecked, rfl, hset, rfl⟩
  refine hchecked.written (.trans (.trans ?_ (tried_changed fun db₂ hdb₂ => ?_))
    (tried_changed fun db₃ hdb₃ => unsyncOverridden_changed hdb₃))
  · exact setOverride_changed hset ⟨.inl (scope_id target req.targetID), rfl⟩
  · refine mirrorOverride_changed hdb₂ ?_
    intro c hc hscope companionID hcompanion
    rw [setOverride_ok hset] at hc
    exact ⟨.inr ⟨c, hc, channelID_of_scope hscope, hcompanion⟩, rfl⟩

theorem deletePermissionOverride_spec (caller : Option ID)
    (req : DeletePermissionOverrideRequest) (s : ChatState) :
    Action.Ends (deletePermissionOverride caller req) s
      (fun _ s' => OverrideWritten caller req.targetID s s') (fun _ s' => s' = s) := by
  refine (deletePermissionOverride_steps caller req s).mono ?_ (fun _ _ h => h)
  rintro _ _ ⟨target, subject, db, hchecked, hdel, rfl⟩
  refine hchecked.written (.trans ?_ (tried_changed fun db₂ hdb₂ => ?_))
  · exact deleteOverrideFor_changed hdel fun _ hid => ⟨.inl hid, rfl⟩
  · refine mirrorDeletion_changed hdb₂ ?_
    intro c hc hscope scope' hcompanion
    rw [deleteOverrideFor_ok hdel] at hc
    exact ⟨.inr ⟨c, hc, channelID_of_scope hscope, hcompanion⟩, rfl⟩

/-- A channel and its text companion lost their overrides; only the channel is
    dropped from the cache. -/
structure Synced (caller : Option ID) (req : SyncChannelPermissionsRequest) (s s' : ChatState) :
    Prop where
  rights : ∃ userID auth ch,
    lookup Channel.id req.channelID s.db.tables.channels = some ch ∧
    Authorized s.db.tables caller (ch.serverID.getD "") manageRoles userID auth ∧
    Rearranged (fun _ _ => False)
      (fun scope _ => scope = .channel req.channelID ∨
        ∃ companionID ∈ ch.voiceTextChannelID, scope = .channel companionID ∧
          ∃ po ∈ s.db.tables.permissionOverrides, po.scope = scope)
      (·.invalidateChannel req.channelID) s s'

theorem syncChannel_changed (h : ∀ po ∈ t.permissionOverrides, po.scope = .channel channelID →
      touched po.scope po.subject) :
    ChannelsChanged regroup touched t (syncChannel t channelID) := by
  have hdel : ChannelsChanged regroup touched t
      { t with
        permissionOverrides :=
          deleteWhere (fun po => po.scope = .channel channelID) t.permissionOverrides } := by
    refine ChannelsChanged.of_overrides (agreeOutside_deleteWhere ?_)
    intro po hpo hscope
    exact h po hpo (of_decide_eq_true hscope)
  exact hdel.trans (setSynced_changed true channelID)

theorem syncChannelPermissions_steps (caller : Option ID) (req : SyncChannelPermissionsRequest)
    (s : ChatState) {Q : ChatState → Prop}
    (h : ∀ userID auth ch db, lookup Channel.id req.channelID s.db.tables.channels = some ch →
      isVoiceTextCompanion s.db.tables req.channelID = false →
      Authorized s.db.tables caller (ch.serverID.getD "") manageRoles userID auth →
      syncChannelToCategory s.db req.channelID ch.voiceTextChannelID = .ok db →
      Q { s with
          db
          cache := s.cache.invalidateChannel req.channelID }) :
    Action.Ends (syncChannelPermissions caller req) s (fun _ s' => Q s')
      (fun _ s' => s' = s ∨ Q s') := by
  have hsame : ∀ e : ConnectError, s = s ∨ Q s := fun _ => .inl rfl
  refine ends_require ?_
  intro userID huser
  refine ends_reject ?_
  intro _
  refine ends_require ?_
  intro ch hch
  refine ends_reject ?_
  intro _
  refine ends_require ?_
  intro _ hdirect
  refine ends_require ?_
  intro _ _
  refine ends_require ?_
  intro auth hauth
  refine ends_require ?_
  intro _ _
  refine ends_run ?_
  intro db hdb
  refine ends_invalidate ?_
  have hdone := h userID auth ch db (oneRow_ok.mp (orElse_ok.mp hch))
    (by simpa using rejectIf_ok.mp hdirect) ⟨authenticate_ok huser, hauth⟩ hdb
  -- the response reads the channel again, after the commit
  apply ends_last
  exact ends_require (fun _ _ => hdone) (fun _ => .inr hdone)

theorem syncChannelPermissions_spec (caller : Option ID) (req : SyncChannelPermissionsRequest)
    (s : ChatState) :
    Action.Ends (syncChannelPermissions caller req) s (fun _ s' => Synced caller req s s')
      (fun _ s' => s' = s ∨ Synced caller req s s') := by
  refine syncChannelPermissions_steps caller req s ?_
  intro userID auth ch db hch _ hauth hdb
  refine ⟨userID, auth, ch, hch, hauth, ?_, rfl, rfl⟩
  show ChannelsChanged _ _ _ db.tables
  rw [commit_ok hdb]
  have hfirst : ChannelsChanged (fun _ _ => False)
      (fun scope _ => scope = .channel req.channelID ∨
        ∃ companionID ∈ ch.voiceTextChannelID, scope = .channel companionID ∧
          ∃ po ∈ s.db.tables.permissionOverrides, po.scope = scope) s.db.tables
      (syncChannel s.db.tables req.channelID) :=
    syncChannel_changed fun _ _ hscope => Or.inl hscope
  split
  · exact hfirst
  · rename_i companionID hcompanion
    refine hfirst.trans (syncChannel_changed ?_)
    intro po hpo hscope
    exact Or.inr ⟨companionID, hcompanion, hscope, po, (mem_deleteWhere.mp hpo).1, rfl⟩

/-! ## Section 3: Channels and categories -/

/-- Where `UpdateChannel` may put the channel and its companion. -/
def Regroups (ch : Channel) (req : UpdateChannelRequest) (id : ID) (groupID : Option ID) : Prop :=
  (id = req.channelID ∨ ch.voiceTextChannelID = some id) ∧
    ∃ newGroup ∈ req.channelGroupID, groupID = orNull newGroup

/-- The scopes whose overrides `UpdateChannel` may change: the channel's by a
    toggle or a snapshot, the companion's by a toggle. -/
def Retouches (ch : Channel) (req : UpdateChannelRequest) (scope : OverrideScope)
    (_ : OverrideSubject) : Prop :=
  (scope.id = req.channelID ∧
    ((privacyToggle ch req).isSome ∨ ∃ oldGroup, groupMove ch req = .snapshot oldGroup)) ∨
  (ch.voiceTextChannelID = some scope.id ∧ touchesCompanion req ∧ (privacyToggle ch req).isSome)

/-- A channel was updated, maybe not to the end; nothing is dropped from the
    cache. -/
structure ChannelUpdated (caller : Option ID) (req : UpdateChannelRequest) (s s' : ChatState) :
    Prop where
  rights : ∃ userID auth ch,
    lookup Channel.id req.channelID s.db.tables.channels = some ch ∧
    ch.serverID ≠ none ∧
    Authorized s.db.tables caller (ch.serverID.getD "") manageChannels userID auth ∧
    (∀ newGroup ∈ req.channelGroupID,
      requireGroupOfServer s.db.tables newGroup (ch.serverID.getD "") = .ok ()) ∧
    Rearranged (Regroups ch req) (Retouches ch req) id s s'

theorem patchChannels_changed {patch : ChannelPatch}
    (hpatch : patch.channelGroupID = req.channelGroupID)
    (hid : channelID = req.channelID ∨ ch.voiceTextChannelID = some channelID) :
    ChannelsChanged (Regroups ch req) touched t
      { t with channels := patchChannels channelID patch t.channels } := by
  refine .of_channels ?_
  intro c _ hc
  refine ⟨rfl, rfl, rfl, ?_⟩
  have happly : (patch.apply c).channelGroupID =
      (req.channelGroupID.map orNull).getD c.channelGroupID := by
    rw [← hpatch]
    rfl
  rw [happly, of_decide_eq_true hc]
  -- without a category in the request the column stays
  rcases hgroup : req.channelGroupID with _ | newGroup
  · exact .inl rfl
  · exact .inr ⟨hid, newGroup, hgroup, rfl⟩

theorem togglePrivacy_changed {overrideID everyoneRoleID : ID} {isPrivate : Bool}
    (h : ∀ (scope : OverrideScope) (subject : OverrideSubject), scope.id = channelID →
      touched scope subject) :
    ChannelsChanged regroup touched t
      { t with
        permissionOverrides := togglePrivacy overrideID channelID everyoneRoleID
          isPrivate t.permissionOverrides } := by
  refine ChannelsChanged.of_overrides ?_
  unfold togglePrivacy
  split
  · refine agreeOutside_upsert (h _ _ rfl) ?_
    intro po hpo
    have hscope : po.scope = .channel channelID := congrArg Prod.fst hpo
    have hid : po.scope.id = channelID := by
      rw [hscope]
      rfl
    exact ⟨h _ _ hid, h _ _ hid⟩
  · refine agreeOutside_deleteWhere ?_
    intro po _ hpo
    exact h _ _ (onTarget_iff.mp (of_decide_eq_true hpo).1)

theorem storeUpdate_exact (h : storeUpdate overrideID ch req db = .ok (updated, db'))
    (hch : lookup Channel.id req.channelID db.tables.channels = some ch) :
    updated = req.toChannelPatch.apply ch ∧
      db'.tables = { db.tables with
        channels := patchChannels req.channelID req.toChannelPatch db.tables.channels
        permissionOverrides := match privacyToggle ch req with
          | none => db.tables.permissionOverrides
          | some isPrivate => togglePrivacy overrideID req.channelID
              (ch.serverID.getD "") isPrivate db.tables.permissionOverrides } := by
  unfold storeUpdate at h
  rcases htoggle : privacyToggle ch req with _ | isPrivate
  · rw [htoggle] at h
    obtain ⟨⟨old, hold, rfl⟩, htables⟩ := updateChannel_ok h
    rw [hch] at hold
    injection hold with hold
    exact ⟨by rw [hold], htables⟩
  · rw [htoggle] at h
    obtain ⟨⟨old, hold, rfl⟩, htables⟩ := updateChannelPrivacy_ok h
    rw [hch] at hold
    injection hold with hold
    exact ⟨by rw [hold], htables⟩

/-- A synced channel cannot leave its category: the CHECK refuses the update, so
    the branch that copies overrides is never taken. -/
theorem groupMove_ne_snapshot (hmem : req.toChannelPatch.apply ch ∈ db'.tables.channels)
    (oldGroup : ID) : groupMove ch req ≠ .snapshot oldGroup := by
  intro hmove
  unfold groupMove at hmove
  dsimp only at hmove
  split at hmove
  · cases hmove
  · rename_i newGroup hnew
    split at hmove
    · cases hmove
    · split at hmove
      · rename_i hempty
        split at hmove
        · rename_i hsynced
          refine db'.constraints.channels.channelsSynced _ hmem hsynced ?_
          show (req.channelGroupID.map orNull).getD ch.channelGroupID = none
          rw [hnew, hempty]
          rfl
        · cases hmove
      · cases hmove

theorem storeUpdate_changed {overrideID : ID} (h : storeUpdate overrideID ch req db = .ok (updated, db'))
    (hch : lookup Channel.id req.channelID db.tables.channels = some ch) :
    ChannelsChanged (Regroups ch req) (Retouches ch req) db.tables db'.tables := by
  have hpatched : ChannelsChanged (Regroups ch req) (Retouches ch req) db.tables
      { db.tables with
        channels := patchChannels req.channelID req.toChannelPatch
          db.tables.channels } := patchChannels_changed rfl (.inl rfl)
  rw [(storeUpdate_exact h hch).2]
  rcases htoggle : privacyToggle ch req with _ | isPrivate
  · exact hpatched
  · -- a toggle writes the `@everyone` override in the same transaction
    refine hpatched.trans (togglePrivacy_changed ?_)
    intro scope _ hid
    exact .inl ⟨hid, .inl (by rw [htoggle]; rfl)⟩

theorem foldl_insertOverride_agree {P : PermissionOverride → Prop} (new : List PermissionOverride)
    (hnew : ∀ po ∈ new, P po) (rows : List PermissionOverride) :
    AgreeOutside P rows (new.foldl insertOverride rows) := by
  induction new generalizing rows with
  | nil => exact AgreeOutside.refl _ _
  | cons po new ih =>
    refine AgreeOutside.trans ?_
      (ih (fun po' hpo' => hnew po' (List.mem_cons_of_mem _ hpo')) (insertOverride rows po))
    unfold insertOverride
    split
    · exact AgreeOutside.refl _ _
    · refine agreeOutside_append ?_
      intro po' hpo'
      rw [List.mem_singleton.mp hpo']
      exact hnew po List.mem_cons_self

theorem scope_of_mem_snapshotRows {groupID : ID} {po : PermissionOverride}
    (h : po ∈ snapshotRows t uuid groupID channelID) : po.scope = .channel channelID := by
  obtain ⟨po', -, rfl⟩ := List.mem_map.mp h
  rfl

/-- The move between categories marks the channel as unsynced when it enters one. -/
theorem applyGroupMove_exact {s : ChatState} {E : ConnectError → ChatState → Prop}
    (hmem : req.toChannelPatch.apply ch ∈ s.db.tables.channels) :
    Action.Ends (applyGroupMove uuid userID ch req) s
      (fun _ s' => s' = { s with db := s'.db } ∧ s'.db.tables = { s.db.tables with
        channels := if groupMove ch req = .enters then
          setSynced false req.channelID s.db.tables.channels else s.db.tables.channels }) E := by
  unfold applyGroupMove
  split
  · rename_i hmove
    exact ends_pure ⟨rfl, by rw [hmove]; rfl⟩
  · rename_i hmove
    exact ends_pure ⟨rfl, by rw [hmove]; rfl⟩
  · rename_i oldGroup hmove
    exact absurd hmove (groupMove_ne_snapshot hmem oldGroup)
  · rename_i hmove
    obtain ⟨db', hdb'⟩ : ∃ db', setPermissionsSynced s.db req.channelID false = .ok db' :=
      setPermissionsSynced_accepted req.channelID
    refine ends_run_of_ok hdb' (ends_pure ⟨rfl, ?_⟩)
    rw [if_pos hmove]
    exact commit_ok hdb'

theorem syncCompanion_changed (hcompanion : updated.voiceTextChannelID = ch.voiceTextChannelID)
    (h : syncCompanion updated req db = .ok db') :
    ChannelsChanged (Regroups ch req) (Retouches ch req) db.tables db'.tables := by
  unfold syncCompanion at h
  split at h
  · exact .of_ok h
  · rename_i companionID hid
    split at h
    · rw [commit_ok h]
      exact patchChannels_changed rfl (.inr (by rw [← hcompanion, hid]))
    · exact .of_ok h

theorem syncCompanionPrivacy_changed {mirrorID : ID}
    (hcompanion : updated.voiceTextChannelID = ch.voiceTextChannelID)
    (h : syncCompanionPrivacy mirrorID ch updated req db = .ok db') :
    ChannelsChanged (Regroups ch req) (Retouches ch req) db.tables db'.tables := by
  unfold syncCompanionPrivacy at h
  split at h
  · rename_i companionID isPrivate hid htoggle
    have hscope : touchesCompanion req = true → ∀ (scope : OverrideScope)
        (subject : OverrideSubject), scope.id = companionID → Retouches ch req scope subject := by
      intro htouch scope _ hscope
      refine .inr ⟨?_, htouch, by rw [htoggle]; rfl⟩
      rw [← hcompanion, hid, hscope]
    split at h
    · rename_i htouch
      split at h
      · obtain ⟨⟨stored, db₁⟩, hset, rfl⟩ := map_eq_ok.mp h
        exact setOverride_changed hset (hscope htouch _ _ rfl)
      · have hdel : deleteOverrideFor companionID (.role (ch.serverID.getD "")) db = .ok db' := h
        exact deleteOverrideFor_changed hdel fun scope => hscope htouch scope _
    · exact .of_ok h
  · exact .of_ok h

theorem validateUpdate_ok {u : Unit} (h : validateUpdate ch req t = .ok u) :
    ∀ newGroup ∈ req.channelGroupID,
      requireGroupOfServer t newGroup (ch.serverID.getD "") = .ok () := by
  obtain ⟨_, -, h⟩ := bind_eq_ok.mp h
  intro newGroup hgroup
  rw [Option.mem_def.mp hgroup] at h
  obtain ⟨_, hok, -⟩ := bind_eq_ok.mp h
  exact hok

/-- What `UpdateChannel` has checked. -/
structure UpdateChecked (caller : Option ID) (req : UpdateChannelRequest) (t : Tables)
    (ch : Channel) : Prop where
  found : lookup Channel.id req.channelID t.channels = some ch
  server : ch.serverID ≠ none
  direct : isVoiceTextCompanion t req.channelID = false
  rights : ∃ userID auth, Authorized t caller (ch.serverID.getD "") manageChannels userID auth
  groups : ∀ newGroup ∈ req.channelGroupID,
    requireGroupOfServer t newGroup (ch.serverID.getD "") = .ok ()

/-- The channel is updated and moved; then its companion follows if it can. -/
theorem updateChannel_steps (overrideID mirrorID : ID) (uuid : ID → ID → ID) (caller : Option ID)
    (req : UpdateChannelRequest) (s : ChatState) :
    Action.Ends (updateChannel overrideID mirrorID uuid caller req) s
      (fun _ s' => ∃ ch updated db₁ db₂, UpdateChecked caller req s.db.tables ch ∧
        updated = req.toChannelPatch.apply ch ∧
        storeUpdate overrideID ch req s.db = .ok (updated, db₁) ∧
        db₂.tables = { db₁.tables with
          channels := if groupMove ch req = .enters then
            setSynced false req.channelID db₁.tables.channels else db₁.tables.channels } ∧
        s' = { s with
          db := tried (syncCompanionPrivacy mirrorID ch updated req)
            (tried (syncCompanion updated req) db₂) })
      (fun _ s' => s' = s) := by
  refine ends_require ?_
  intro userID huser
  refine ends_reject ?_
  intro _
  refine ends_require ?_
  intro ch hch
  refine ends_reject ?_
  intro hserver
  refine ends_require ?_
  intro _ hdirect
  refine ends_require ?_
  intro auth hauth
  refine ends_require ?_
  intro _ hvalid
  refine ends_transact ?_
  intro updated db₁ hdb₁
  have hlook := oneRow_ok.mp (orElse_ok.mp hch)
  obtain ⟨hchmem, hchid⟩ := mem_of_lookup hlook
  obtain ⟨hupdated, htables⟩ := storeUpdate_exact hdb₁ hlook
  have hmem : req.toChannelPatch.apply ch ∈ db₁.tables.channels := by
    rw [htables]
    exact mem_updateWhere.mpr ⟨ch, hchmem, if_pos (decide_eq_true hchid)⟩
  rw [ends_bind]
  refine (applyGroupMove_exact (s := { s with db := db₁ }) hmem).mono ?_ (fun _ _ h => h)
  rintro unsynced s₁ ⟨hs₁, hmoved⟩
  rw [hs₁]
  refine ends_tried (ends_tried (ends_pure ?_))
  exact ⟨ch, updated, db₁, s₁.db, ⟨hlook, hserver, by simpa using rejectIf_ok.mp hdirect,
    ⟨userID, auth, authenticate_ok huser, hauth⟩, validateUpdate_ok hvalid⟩,
    hupdated, hdb₁, hmoved, rfl⟩

theorem updateChannel_spec (overrideID mirrorID : ID) (uuid : ID → ID → ID) (caller : Option ID)
    (req : UpdateChannelRequest) (s : ChatState) :
    Action.Ends (updateChannel overrideID mirrorID uuid caller req) s
      (fun _ s' => ChannelUpdated caller req s s')
      (fun _ s' => s' = s ∨ ChannelUpdated caller req s s') := by
  refine (updateChannel_steps overrideID mirrorID uuid caller req s).mono ?_ (fun _ _ h => .inl h)
  rintro _ _ ⟨ch, _, db₁, db₂, hchecked, rfl, hdb₁, htables₂, rfl⟩
  obtain ⟨userID, auth, hauth⟩ := hchecked.rights
  refine ⟨userID, auth, ch, hchecked.found, hchecked.server, hauth, hchecked.groups, ?_, rfl, rfl⟩
  have hmoved : ChannelsChanged (Regroups ch req) (Retouches ch req) db₁.tables db₂.tables := by
    rw [htables₂]
    split
    · exact setSynced_changed false req.channelID
    · exact .refl _
  refine (storeUpdate_changed hdb₁ hchecked.found).trans (hmoved.trans (.trans
    (tried_changed fun db₃ hdb₃ => ?_) (tried_changed fun db₄ hdb₄ => ?_)))
  · exact syncCompanion_changed rfl hdb₃
  · exact syncCompanionPrivacy_changed rfl hdb₄

/-- A category was deleted; its channels keep its overrides as their own. -/
structure GroupDeleted (req : DeleteChannelGroupRequest) (s s' : ChatState) : Prop where
  change : ∃ group, lookup ChannelGroup.id req.channelGroupID s.db.tables.channelGroups =
    some group ∧ Rearranged (fun id groupID => groupID = none ∧
    ∃ c ∈ s.db.tables.channels, c.id = id ∧ c.channelGroupID = some req.channelGroupID)
    (fun scope _ => scope = .group req.channelGroupID ∨
    ∃ c ∈ s.db.tables.channels, c.channelGroupID = some req.channelGroupID ∧ scope = .channel c.id)
    (·.invalidateServer group.serverID) s s'

theorem deleteChannelGroupWithSnapshot_ok {channelGroupID : ID}
    (h : deleteChannelGroupWithSnapshot db uuid channelGroupID = .ok db') :
    ChannelsChanged
      (fun id groupID => groupID = none ∧
        ∃ c ∈ db.tables.channels, c.id = id ∧ c.channelGroupID = some channelGroupID)
      (fun scope _ => scope = .group channelGroupID ∨
        ∃ c ∈ db.tables.channels, c.channelGroupID = some channelGroupID ∧
          scope = .channel c.id) db.tables db'.tables := by
  obtain ⟨_, -, h⟩ := bind_eq_ok.mp h
  rw [commit_ok h]
  refine ⟨rfl, ?_, ?_, ?_⟩
  · intro g hg
    exact (mem_deleteWhere.mp hg).1
  · refine forall₂_updateWhere (Edited.refl _) ?_
    intro c hc hgroup
    exact ⟨rfl, rfl, rfl, Or.inr ⟨rfl, c, hc, rfl, of_decide_eq_true hgroup⟩⟩
  · -- first the copies to the channels, then the category's own rows go
    refine AgreeOutside.trans (foldl_insertOverride_agree _ ?_ _) (agreeOutside_deleteWhere ?_)
    · intro po hpo
      obtain ⟨c, hc, hpo⟩ := List.mem_flatMap.mp hpo
      obtain ⟨hc, hgroup⟩ := List.mem_filter.mp hc
      exact Or.inr ⟨c, hc, of_decide_eq_true hgroup, scope_of_mem_snapshotRows hpo⟩
    · intro po _ hscope
      exact Or.inl (of_decide_eq_true hscope)

theorem deleteChannelGroup_steps (uuid : ID → ID → ID) (caller : Option ID)
    (req : DeleteChannelGroupRequest) (s : ChatState) :
    Action.Ends (deleteChannelGroup uuid caller req) s
      (fun _ s' => ∃ group db,
        lookup ChannelGroup.id req.channelGroupID s.db.tables.channelGroups = some group ∧
        deleteChannelGroupWithSnapshot s.db uuid req.channelGroupID = .ok db ∧
        s' = { s with
          db
          cache := s.cache.invalidateServer group.serverID })
      (fun _ s' => s' = s) := by
  refine ends_require ?_
  intro userID huser
  refine ends_reject ?_
  intro _
  refine ends_require ?_
  intro group hgroup
  iterate 3
    refine ends_require ?_
    intro _ _
  refine ends_run ?_
  intro db hdb
  apply ends_last
  refine ends_invalidate (ends_pure ?_)
  exact ⟨group, db, oneRow_ok.mp (orElse_ok.mp hgroup), hdb, rfl⟩

theorem deleteChannelGroup_spec (uuid : ID → ID → ID) (caller : Option ID)
    (req : DeleteChannelGroupRequest) (s : ChatState) :
    Action.Ends (deleteChannelGroup uuid caller req) s (fun _ s' => GroupDeleted req s s')
      (fun _ s' => s' = s) := by
  refine (deleteChannelGroup_steps uuid caller req s).mono ?_ (fun _ _ h => h)
  rintro _ _ ⟨group, db, hgroup, hdb, rfl⟩
  exact ⟨group, hgroup, deleteChannelGroupWithSnapshot_ok hdb, rfl, rfl⟩

/-! ## Section 4: Joining and onboarding -/

/-- Somebody who is no member joined with an invite. -/
structure Joined (caller : Option ID) (req : JoinServerRequest) (s s' : ChatState) : Prop where
  change : ∃ userID inv invites, caller = some userID ∧
    lookup Invite.code (toLower (trimSpace req.inviteCode)) s.db.tables.invites =
      some inv ∧
    isMember s.db.tables userID inv.serverID = false ∧
    Changed
      (fun t => { t with
        members := insertNew Member.key { userID, serverID := inv.serverID } t.members
        invites }) id s s'

theorem joinServer_spec (caller : Option ID) (req : JoinServerRequest) (s : ChatState) :
    Action.Ends (joinServer caller req) s (fun _ s' => Joined caller req s s')
      (fun _ s' => Joined caller req s s' ∨
        ∃ invites, Changed (fun t => { t with invites }) id s s') := by
  have hsame : ∀ e : ConnectError, Joined caller req s s ∨
      ∃ invites, Changed (fun t => { t with invites }) id s s :=
    fun _ => Or.inr ⟨s.db.tables.invites, rfl, rfl, rfl⟩
  refine ends_require ?_
  intro userID huser
  refine ends_reject ?_
  intro _
  refine ends_require ?_
  intro inv hinv
  refine ends_require ?_
  intro _ _
  refine ends_require ?_
  intro _ hmember
  refine ends_check ?_ hsame
  intro now _
  refine ends_transact ?_
  intro consumed db hdb
  obtain ⟨hconsumed, invites, htables⟩ := consumeInvite_ok hdb
  -- from here on a use of the invite is lost when the request fails
  have hused : ∀ e : ConnectError, Joined caller req s { s with db } ∨
      ∃ invites, Changed (fun t => { t with invites }) id s { s with db } :=
    fun _ => Or.inr ⟨invites, htables, rfl, rfl⟩
  refine ends_require ?_ hused
  intro used hrow
  refine ends_run ?_ hused
  intro db₂ hdb₂
  -- the invite that was used is the one that was looked at
  have hinvite := oneRow_ok.mp (orElse_ok.mp hinv)
  obtain ⟨inv', hinv', hserver⟩ := hconsumed used (oneRow_ok.mp (orElse_ok.mp hrow))
  rw [hinvite] at hinv'
  injection hinv' with hinv'
  have hjoined : Joined caller req s { s with db := db₂ } := by
    refine ⟨userID, inv, invites, authenticate_ok huser, hinvite, ?_, ?_, rfl, rfl⟩
    · simpa using rejectIf_ok.mp hmember
    · show db₂.tables = _
      rw [commit_ok hdb₂, hserver, ← hinv']
      rw [htables]
  apply ends_last
  exact ends_require (fun _ _ => hjoined) (fun _ => Or.inl hjoined)

/-- A member completed the onboarding; nothing is dropped from the cache. -/
structure Onboarded (caller : Option ID) (req : CompleteOnboardingRequest) (s s' : ChatState) :
    Prop where
  change : ∃ userID srv completedAt channelMembers, caller = some userID ∧
    isMember s.db.tables userID req.serverID = true ∧
    getServer s.db.tables req.serverID = .ok srv ∧ srv.onboardingEnabled = true ∧
    Changed
      (fun t => { t with
        members := updateWhere (fun m => m.userID = userID ∧ m.serverID = req.serverID)
          (fun m => { m with onboardingCompletedAt := completedAt }) t.members
        channelMembers
        memberRoles := onboardedRoles t userID req.serverID req.roleIDs }) id s s'

theorem completeOnboarding_spec (caller : Option ID) (req : CompleteOnboardingRequest)
    (s : ChatState) :
    Action.Ends (completeOnboarding caller req) s (fun _ s' => Onboarded caller req s s')
      (fun _ s' => s' = s) := by
  refine ends_require ?_
  intro userID huser
  refine ends_reject ?_
  intro hserver
  refine ends_require ?_
  intro _ hmember
  refine ends_require ?_
  intro srv hsrv
  refine ends_reject ?_
  intro henabled
  refine ends_require ?_
  intro _ _
  refine ends_check ?_
  intro now _
  refine ends_transact ?_
  intro skipped db hdb
  refine ends_pure ?_
  obtain ⟨channelMembers, htables⟩ := completeOnboarding_ok hdb
  refine ⟨userID, srv, some now, channelMembers, authenticate_ok huser, ?_, orElse_ok.mp hsrv, ?_,
    htables, rfl, rfl⟩
  · by_contra hnot
    exact rejectIf_ok.mp hmember ⟨hserver, hnot⟩
  · simpa using henabled

/-! ## Section 5: Reading effective permissions -/

theorem keyOfServer_of_channel {u : Unit} (hserver : serverID ≠ "")
    (h : requireChannelOfServer t channelID serverID = .ok u) :
    KeyOfServer t { userID, serverID, channelID } := by
  unfold requireChannelOfServer at h
  split at h
  · rename_i hempty
    exact .inl hempty
  · obtain ⟨c, hc, h⟩ := bind_eq_ok.mp h
    obtain ⟨hmem, hid⟩ := mem_of_lookup (oneRow_ok.mp (orElse_ok.mp hc))
    have hsame := rejectIf_ok.mp h
    refine .inr ⟨c, hmem, hid, ?_⟩
    rcases hc : c.serverID with _ | id
    · rw [hc] at hsame
      exact absurd (fun heq => hserver heq.symm) hsame
    · rw [hc] at hsame
      simpa using hsame

theorem requireTargetAccess_spec (userID targetUserID serverID : ID) (s : ChatState) :
    Action.Ends (requireTargetAccess userID targetUserID serverID) s (fun _ s' => Filled s s')
      (fun _ s' => Filled s s') := by
  unfold requireTargetAccess
  split
  · exact ends_pure (.refl s)
  · rw [ends_bind]
    refine (resolvePermissions_spec (.inl rfl)).mono ?_ ?_
    · intro perms s₁ h₁
      refine ends_reject ?_ (fun _ => h₁)
      intro _
      apply ends_last
      exact ends_require (fun _ _ => h₁) (fun _ => h₁)
    · intro _ s₁ h₁
      rw [h₁]
      exact .refl s

theorem getEffectivePermissions_spec (caller : Option ID) (req : GetEffectivePermissionsRequest)
    (s : ChatState) :
    Action.Ends (getEffectivePermissions caller req) s (fun _ s' => Filled s s')
      (fun _ s' => Filled s s') := by
  have hsame : ∀ e : ConnectError, Filled s s := fun _ => .refl s
  refine ends_require ?_
  intro userID huser
  refine ends_reject ?_
  intro hserver
  refine ends_require ?_
  intro _ _
  rw [ends_bind]
  refine (requireTargetAccess_spec _ _ _ s).mono ?_ (fun _ _ h => h)
  intro _ s₁ h₁
  refine ends_require ?_ (fun _ => h₁)
  intro _ hchannel
  rw [ends_bind]
  refine (resolvePermissions_spec (keyOfServer_of_channel hserver hchannel)).mono ?_ ?_
  · intro permissions s₂ h₂
    refine ends_check ?_ (fun _ => h₁.trans h₂)
    intro sources _
    exact ends_pure (h₁.trans h₂)
  · intro _ s₂ h₂
    rw [h₂]
    exact h₁

theorem listChannels_spec (caller : Option ID) (req : ListChannelsRequest) (s : ChatState)
    (hids : ∀ c ∈ s.db.tables.channels, c.id ≠ "") :
    Action.Ends (listChannels caller req) s (fun _ s' => Filled s s')
      (fun _ s' => Filled s s') := by
  have hsame : ∀ e : ConnectError, Filled s s := fun _ => .refl s
  refine ends_require ?_
  intro userID huser
  refine ends_reject ?_
  intro _
  refine ends_require ?_
  intro _ _
  refine ends_require ?_
  intro channels hchannels
  injection hchannels with hchannels
  rw [ends_bind]
  refine (resolvePermissionsBatch_spec ?_).mono ?_ ?_
  · -- the query returns channels of the server only
    intro channelID hid
    obtain ⟨c, hc, rfl⟩ := mem_map.mp hid
    rw [← hchannels] at hc
    obtain ⟨hc, hserver⟩ := mem_filter.mp ((perm_insertionSort _ _).mem_iff.mp hc)
    exact ⟨hids c hc, c, hc, rfl, of_decide_eq_true hserver⟩
  · intro permsMap s' h
    exact ends_pure h
  · intro _ s' h
    rw [h]
    exact .refl s

end Meza.Chat
