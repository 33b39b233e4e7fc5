import Meza.Chat.Creation

/-! # What the calls write

    The effects of `ChannelEffects` bound what a call may touch. This module says
    exactly what the calls on channels and overrides leave in the two tables:
    every channel keeps its seat or gets a new one, and the override map changes
    by a known function. The handlers write to a voice channel and its text
    companion in separate transactions; with ids that are new none of the second
    ones is refused, except where the lemma about `UpdateChannel` says so. -/

namespace Meza.Chat

open Store Permissions List ChatStore Table Action OverrideSubject

/-! ## Section 1: Seats and scopes -/

/-- The same channel with the same server, companion, category and privacy. -/
structure SameSeat (c c' : Channel) : Prop where
  id : c'.id = c.id
  serverID : c'.serverID = c.serverID
  companion : c'.voiceTextChannelID = c.voiceTextChannelID
  group : c'.channelGroupID = c.channelGroupID
  isPrivate : c'.isPrivate = c.isPrivate

theorem SameSeat.refl (c : Channel) : SameSeat c c := ⟨rfl, rfl, rfl, rfl, rfl⟩

theorem SameSeat.trans {c₁ c₂ c₃ : Channel} (h₁ : SameSeat c₁ c₂) (h₂ : SameSeat c₂ c₃) :
    SameSeat c₁ c₃ :=
  ⟨h₂.id.trans h₁.id, h₂.serverID.trans h₁.serverID, h₂.companion.trans h₁.companion,
    h₂.group.trans h₁.group, h₂.isPrivate.trans h₁.isPrivate⟩

theorem sameSeat_refl (channels : List Channel) : Forall₂ SameSeat channels channels :=
  forall₂_same.mpr fun c _ => .refl c

theorem sameSeat_setSynced (synced : Bool) (channelID : ID) (channels : List Channel) :
    Forall₂ SameSeat channels (setSynced synced channelID channels) :=
  forall₂_updateWhere .refl fun _ _ _ => ⟨rfl, rfl, rfl, rfl, rfl⟩

/-- The text companion of a channel. -/
def companionOf (t : Tables) : OverrideScope → Option ID
  | .group _ => none
  | .channel id => (lookup Channel.id id t.channels).bind (·.voiceTextChannelID)

/-- The scope, and the companion's if it is a voice channel's. -/
def Covers (t : Tables) (scope scope' : OverrideScope) : Prop :=
  scope' = scope ∨ ∃ companionID ∈ companionOf t scope, scope' = .channel companionID

instance (t : Tables) (scope scope' : OverrideScope) : Decidable (Covers t scope scope') :=
  inferInstanceAs (Decidable (_ ∨ _))

variable {db : DB} {channelID companionID mirrorID userID : ID} {uuid : ID → ID → ID}
  {rows : List PermissionOverride} {scope : OverrideScope} {subject : OverrideSubject} {t : Tables}

theorem companionOf_channel {ch : Channel}
    (h : lookup Channel.id channelID t.channels = some ch) :
    companionOf t (.channel channelID) = ch.voiceTextChannelID := by
  show (lookup Channel.id channelID t.channels).bind _ = _
  rw [h]
  rfl

theorem covers_channel {ch : Channel} (h : lookup Channel.id channelID t.channels = some ch)
    (scope : OverrideScope) :
    Covers t (.channel channelID) scope ↔ scope = .channel channelID ∨
      ∃ companionID ∈ ch.voiceTextChannelID, scope = .channel companionID := by
  unfold Covers
  rw [companionOf_channel h]

theorem scope_eq_of_id (hs : WellFormed t) {scope' : OverrideScope} (h : scope.Exists t)
    (h' : scope'.Exists t) (hid : scope'.id = scope.id) : scope' = scope := by
  rcases scope with id | id <;> rcases scope' with id' | id'
  · exact congrArg OverrideScope.group hid
  · obtain ⟨g, hg, hgid⟩ := mem_map.mp h
    obtain ⟨c, hcmem, hcid⟩ := mem_map.mp h'
    exact absurd (hcid.trans (hid.trans hgid.symm)) (hs.channels.disjoint c hcmem g hg)
  · obtain ⟨c, hcmem, hcid⟩ := mem_map.mp h
    obtain ⟨g, hg, hgid⟩ := mem_map.mp h'
    exact absurd (hcid.trans (hid.symm.trans hgid.symm)) (hs.channels.disjoint c hcmem g hg)
  · exact congrArg OverrideScope.channel hid

theorem companion_exists (hc : t.Constraints) (h : companionID ∈ companionOf t scope) :
    (OverrideScope.channel companionID).Exists t := by
  rcases scope with id | id
  · cases h
  · obtain ⟨c, hlook, hcompanion⟩ := Option.bind_eq_some_iff.mp h
    exact hc.channels.channelsCompanion c (mem_of_lookup hlook).1 companionID hcompanion

/-! ## Section 2: Setting and deleting overrides -/

theorem tried_setOverride {w : PermissionOverride} (hscope : w.scope.Exists db.tables)
    (hsubject : w.subject.Exists db.tables)
    (hid : w.id ∉ db.tables.permissionOverrides.map (·.id)) :
    (tried (fun db => (setOverride db w).map (·.2)) db).tables = { db.tables with
      permissionOverrides := writeOverride db.tables.permissionOverrides w } := by
  obtain ⟨stored, db', hset⟩ := setOverride_accepted hscope hsubject hid
  unfold tried
  simp only [hset, Except.map]
  exact setOverride_ok hset

theorem tried_deleteOverrideFor (targetID : ID) (subject : OverrideSubject) (db : DB) :
    (tried (deleteOverrideFor targetID subject) db).tables = { db.tables with
      permissionOverrides := deleteWhere
        (fun po => po.onTarget targetID ∧ po.subject = subject)
        db.tables.permissionOverrides } := by
  unfold tried
  rcases hdel : deleteOverrideFor targetID subject db with e | db'
  · have hnone : ∀ po ∈ db.tables.permissionOverrides,
        ¬ (po.onTarget targetID = true ∧ po.subject = subject) := by
      by_contra hsome
      -- then the deletion is not refused and breaks no constraint
      obtain ⟨db', hcommit⟩ : ∃ db', commit { db.tables with
          permissionOverrides := deleteWhere
            (fun po => po.onTarget targetID ∧ po.subject = subject)
            db.tables.permissionOverrides } = .ok db' := commit_deleteWhere _
      have hok : ∀ notFound, deleteOverrideOf notFound db targetID subject = .ok db' := by
        intro notFound
        exact bind_eq_ok.mpr ⟨(), refuseIf_ok.mpr hsome, hcommit⟩
      rcases subject with roleID | userID
      · exact nomatch hdel.symm.trans (hok _)
      · exact nomatch hdel.symm.trans (hok _)
    have hsame : deleteWhere (fun po => po.onTarget targetID ∧ po.subject = subject)
        db.tables.permissionOverrides = db.tables.permissionOverrides := by
      unfold deleteWhere
      rw [filter_eq_self]
      intro po hpo
      simpa [or_iff_not_imp_left] using hnone po hpo
    rw [hsame]
  · exact deleteOverrideFor_ok hdel

/-- An update of the override map; the channels keep their seats. -/
structure Rewritten (f : OverrideScope → OverrideSubject → Option Override → Option Override)
    (t t' : Tables) : Prop where
  channels : Forall₂ SameSeat t.channels t'.channels
  overrides : ∀ scope subject, overrideAt t'.permissionOverrides scope subject =
    f scope subject (overrideAt t.permissionOverrides scope subject)

/-- What a scope and its companion store for a subject is replaced. -/
def replaceAt (t : Tables) (scope : OverrideScope) (subject : OverrideSubject)
    (new : Option Override) (scope' : OverrideScope) (subject' : OverrideSubject)
    (old : Option Override) : Option Override :=
  if Covers t scope scope' ∧ subject' = subject then new else old

/-- A step for the text companion of a voice channel, and none for other scopes. -/
def onCompanion (scope : OverrideScope) (g : ID → DB → Except StoreError DB) (db : DB) :
    Except StoreError DB :=
  match scope with
  | .group _ => .ok db
  | .channel channelID => do
    let ch ← getChannel db.tables channelID
    match ch.voiceTextChannelID with
    | none => .ok db
    | some companionID => g companionID db

theorem tried_onCompanion (scope : OverrideScope) (g : ID → DB → Except StoreError DB) (db : DB) :
    tried (onCompanion scope g) db =
      match companionOf db.tables scope with
      | none => db
      | some companionID => tried (g companionID) db := by
  rcases scope with id | id
  · rfl
  · unfold tried onCompanion companionOf getChannel
    rcases hlook : lookup Channel.id id db.tables.channels with _ | c
    · simp [hlook, oneRow, bind, Except.bind]
    · rcases hcompanion : c.voiceTextChannelID with _ | companionID
      · simp [hlook, oneRow, bind, Except.bind, hcompanion]
      · simp [hlook, oneRow, bind, Except.bind, hcompanion]

theorem mirrorOverride_eq (mirrorID : ID) (override : PermissionOverride) :
    mirrorOverride mirrorID override = onCompanion override.scope fun companionID db =>
      (setOverride db
        { override with id := mirrorID, scope := .channel companionID }).map (·.2) := rfl

theorem mirrorDeletion_eq (scope : OverrideScope) (subject : OverrideSubject) :
    mirrorDeletion scope subject = onCompanion scope fun companionID =>
      deleteOverrideFor companionID subject := rfl

theorem tried_unsyncOverridden (scope : OverrideScope) (db : DB) :
    Forall₂ SameSeat db.tables.channels
        (tried (unsyncOverridden scope) db).tables.channels ∧
      (tried (unsyncOverridden scope) db).tables.permissionOverrides =
        db.tables.permissionOverrides := by
  unfold tried
  rcases hunsync : unsyncOverridden scope db with e | db'
  · exact ⟨sameSeat_refl _, rfl⟩
  · unfold unsyncOverridden at hunsync
    split at hunsync
    · injection hunsync with hunsync
      rw [← hunsync]
      exact ⟨sameSeat_refl _, rfl⟩
    · obtain ⟨c, -, hrest⟩ := bind_eq_ok.mp hunsync
      split at hrest
      · dsimp only
        rw [commit_ok hrest]
        exact ⟨sameSeat_setSynced false _ _, rfl⟩
      · injection hrest with hrest
        rw [← hrest]
        exact ⟨sameSeat_refl _, rfl⟩

/-- An override call replaced what its target and the companion store for the role
    or member of the request. -/
structure Replaced (targetID roleID userID : ID) (new : Option Override) (s s' : ChatState) :
    Prop where
  change : ∃ target subject, resolveTargetServerID s.db.tables targetID = .ok target ∧
    ¬ (target.isGroup = false ∧ isVoiceTextCompanion s.db.tables targetID = true) ∧
    subject = (if roleID = "" then .user userID else .role roleID) ∧
    Rewritten (replaceAt s.db.tables (target.scope targetID) subject new) s.db.tables s'.db.tables

theorem rewritten_set {db₁ : DB} {override stored : PermissionOverride}
    (hset : setOverride db override = .ok (stored, db₁))
    (hmirror : mirrorID ∉ db.tables.permissionOverrides.map (·.id)) (hne : mirrorID ≠ override.id) :
    Rewritten (replaceAt db.tables override.scope override.subject (some override.override))
      db.tables (tried (unsyncOverridden override.scope)
        (tried (mirrorOverride mirrorID override) db₁)).tables := by
  have htables := setOverride_ok hset
  have hchannels : db₁.tables.channels = db.tables.channels := by
    rw [htables]
  have hrows : db₁.tables.permissionOverrides =
      writeOverride db.tables.permissionOverrides override := by
    rw [htables]
    rfl
  have hcompanion : companionOf db₁.tables override.scope =
      companionOf db.tables override.scope := by
    unfold companionOf
    rw [hchannels]
  -- the mirror is a second write for the same subject
  have hsecond : (tried (mirrorOverride mirrorID override) db₁).tables = { db₁.tables with
      permissionOverrides := match companionOf db.tables override.scope with
        | none => db₁.tables.permissionOverrides
        | some companionID => writeOverride db₁.tables.permissionOverrides
            { override with id := mirrorID, scope := .channel companionID } } := by
    rw [mirrorOverride_eq, tried_onCompanion, hcompanion]
    rcases hsome : companionOf db.tables override.scope with _ | companionID
    · rfl
    · refine tried_setOverride ?_ ?_ ?_
      · exact companion_exists db₁.constraints (hcompanion.trans hsome)
      · have hstored : overrideAt db₁.tables.permissionOverrides override.scope
            override.subject = some override.override := by
          rw [hrows, overrideAt_writeOverride]
          exact if_pos rfl
        obtain ⟨po, hpo, -, hsubject, -⟩ := overrideAt_eq_some hstored
        rw [← hsubject]
        exact db₁.constraints.roles.overridesSubject po hpo
      · rw [hrows]
        rcases ids_writeOverride db.tables.permissionOverrides override with hids | hids
        · rwa [hids]
        · rw [hids]
          intro hmem
          rcases mem_append.mp hmem with hmem | hmem
          · exact hmirror hmem
          · exact hne (mem_singleton.mp hmem)
  obtain ⟨hseats, hsame⟩ := tried_unsyncOverridden override.scope
    (tried (mirrorOverride mirrorID override) db₁)
  rw [hsecond] at hseats hsame
  refine ⟨by rwa [← hchannels], ?_⟩
  intro scope' subject'
  rw [hsame]
  have hread : overrideAt (match companionOf db.tables override.scope with
        | none => db₁.tables.permissionOverrides
        | some companionID => writeOverride db₁.tables.permissionOverrides
            { override with id := mirrorID, scope := .channel companionID }) scope' subject' =
      if (∃ companionID ∈ companionOf db.tables override.scope, scope' = .channel companionID) ∧
        subject' = override.subject then some override.override
      else if scope' = override.scope ∧ subject' = override.subject then some override.override
      else overrideAt db.tables.permissionOverrides scope' subject' := by
    cases companionOf db.tables override.scope with
    | none =>
      rw [hrows, overrideAt_writeOverride]
      simp [PermissionOverride.target]
    | some companionID =>
      rw [overrideAt_writeOverride, hrows, overrideAt_writeOverride]
      simp [PermissionOverride.target, PermissionOverride.override]
  refine hread.trans ?_
  unfold replaceAt Covers
  -- whichever write came last, both store the same masks
  by_cases hsubject : subject' = override.subject
  · by_cases hscope : scope' = override.scope
    · simp [hsubject, hscope]
    · simp [hsubject, hscope]
  · simp [hsubject]

theorem setPermissionOverride_replaced {newID : ID} (caller : Option ID)
    (req : SetPermissionOverrideRequest) (s : ChatState)
    (hmirror : mirrorID ∉ s.db.tables.permissionOverrides.map (·.id)) (hne : mirrorID ≠ newID) :
    Ends (setPermissionOverride newID mirrorID caller req) s
      (fun _ s' => Replaced req.targetID req.roleID req.userID
        (some { allow := req.allow, deny := req.deny }) s s') (fun _ s' => s' = s) := by
  refine (setPermissionOverride_steps newID mirrorID caller req s).mono ?_ (fun _ _ h => h)
  rintro _ _ ⟨target, subject, stored, db, _, hchecked, rfl, hset, rfl⟩
  exact ⟨target, subject, hchecked.resolved, hchecked.direct, hchecked.chosen,
    rewritten_set hset hmirror hne⟩

theorem rewritten_delete {db₁ : DB} (hs : WellFormed db.tables) (hscope : scope.Exists db.tables)
    (hdel : deleteOverrideFor scope.id subject db = .ok db₁) :
    Rewritten (replaceAt db.tables scope subject none) db.tables
      (tried (mirrorDeletion scope subject) db₁).tables := by
  have htables := deleteOverrideFor_ok hdel
  have hchannels : db₁.tables.channels = db.tables.channels := by
    rw [htables]
  have hrows : db₁.tables.permissionOverrides = deleteWhere
      (fun po => po.onTarget scope.id ∧ po.subject = subject) db.tables.permissionOverrides := by
    rw [htables]
  have hcompanion : companionOf db₁.tables scope = companionOf db.tables scope := by
    unfold companionOf
    rw [hchannels]
  have hsecond : (tried (mirrorDeletion scope subject) db₁).tables = { db₁.tables with
      permissionOverrides := match companionOf db.tables scope with
        | none => db₁.tables.permissionOverrides
        | some companionID => deleteWhere
            (fun po => po.onTarget companionID ∧ po.subject = subject)
            db₁.tables.permissionOverrides } := by
    rw [mirrorDeletion_eq, tried_onCompanion, hcompanion]
    cases companionOf db.tables scope with
    | none => rfl
    | some companionID => exact tried_deleteOverrideFor companionID subject db₁
  rw [hsecond]
  refine ⟨by rw [hchannels]; exact sameSeat_refl _, ?_⟩
  intro scope' subject'
  -- two deletions by id, the companion's last
  have hread : overrideAt (match companionOf db.tables scope with
        | none => db₁.tables.permissionOverrides
        | some companionID => deleteWhere
            (fun po => po.onTarget companionID ∧ po.subject = subject)
            db₁.tables.permissionOverrides) scope' subject' =
      if (∃ companionID ∈ companionOf db.tables scope, scope'.id = companionID) ∧
        subject' = subject then none
      else if scope'.id = scope.id ∧ subject' = subject then none
      else overrideAt db.tables.permissionOverrides scope' subject' := by
    cases companionOf db.tables scope with
    | none =>
      rw [hrows, overrideAt_deleteOnTarget]
      simp
    | some companionID =>
      rw [overrideAt_deleteOnTarget, hrows, overrideAt_deleteOnTarget]
      simp [eq_comm]
  refine hread.trans ?_
  unfold replaceAt
  by_cases hexists : scope'.Exists db.tables
  · -- an existing scope is told by its id
    have hsame : scope'.id = scope.id ↔ scope' = scope :=
      ⟨scope_eq_of_id hs hscope hexists, fun h => by rw [h]⟩
    have hmirrored : (∃ companionID ∈ companionOf db.tables scope, scope'.id = companionID) ↔
        ∃ companionID ∈ companionOf db.tables scope, scope' = .channel companionID := by
      constructor
      · rintro ⟨companionID, hmem, hid⟩
        exact ⟨companionID, hmem,
          scope_eq_of_id hs (companion_exists db.constraints hmem) hexists hid⟩
      · rintro ⟨companionID, hmem, rfl⟩
        exact ⟨companionID, hmem, rfl⟩
    unfold Covers
    by_cases hsubject : subject' = subject
    · by_cases hown : scope' = scope
      · simp [hsubject, hown]
      · simp only [hmirrored, hsame, hsubject, hown, and_true, false_or, if_false]
    · simp [hsubject]
  · simp [overrideAt_of_not_exists db.constraints hexists]

theorem resolveTargetServerID_exists {targetID : ID} {target : OverrideTarget}
    (h : resolveTargetServerID t targetID = .ok target) : (target.scope targetID).Exists t := by
  unfold resolveTargetServerID at h
  split at h
  · rename_i group hgroup
    injection h with h
    rw [← h]
    obtain ⟨hmem, hid⟩ := mem_of_lookup (oneRow_ok.mp hgroup)
    exact mem_map.mpr ⟨group, hmem, hid⟩
  · rename_i ch hch _
    injection h with h
    rw [← h]
    obtain ⟨hmem, hid⟩ := mem_of_lookup (oneRow_ok.mp hch)
    exact mem_map.mpr ⟨ch, hmem, hid⟩
  · cases h

theorem deletePermissionOverride_replaced (caller : Option ID)
    (req : DeletePermissionOverrideRequest) (s : ChatState) (hs : WellFormed s.db.tables) :
    Ends (deletePermissionOverride caller req) s
      (fun _ s' => Replaced req.targetID req.roleID req.userID none s s')
      (fun _ s' => s' = s) := by
  refine (deletePermissionOverride_steps caller req s).mono ?_ (fun _ _ h => h)
  rintro _ _ ⟨target, subject, db, hchecked, hdel, rfl⟩
  refine ⟨target, subject, hchecked.resolved, hchecked.direct, hchecked.chosen, ?_⟩
  refine rewritten_delete hs (resolveTargetServerID_exists hchecked.resolved) ?_
  rwa [scope_id]

/-! ## Section 3: Syncing with the category -/

/-- A channel and its companion lost all their overrides. -/
structure Emptied (channelID : ID) (s s' : ChatState) : Prop where
  change : ∃ ch, lookup Channel.id channelID s.db.tables.channels = some ch ∧
    isVoiceTextCompanion s.db.tables channelID = false ∧
    Rewritten
      (fun scope _ old => if Covers s.db.tables (.channel channelID) scope then none else old)
      s.db.tables s'.db.tables

theorem rewritten_syncChannel (t : Tables) (channelID : ID) :
    Rewritten (fun scope _ old => if scope = .channel channelID then none else old) t
      (syncChannel t channelID) :=
  ⟨sameSeat_setSynced true channelID t.channels, fun _ _ =>
    overrideAt_deleteWhere fun scope _ => scope = .channel channelID⟩

theorem syncChannelPermissions_emptied (caller : Option ID) (req : SyncChannelPermissionsRequest)
    (s : ChatState) :
    Ends (syncChannelPermissions caller req) s (fun _ s' => Emptied req.channelID s s')
      (fun _ s' => s' = s ∨ Emptied req.channelID s s') := by
  refine syncChannelPermissions_steps caller req s ?_
  intro userID auth ch db hlook hdirect _ hdb
  refine ⟨ch, hlook, hdirect, ?_⟩
  -- one transaction for the channel and its companion
  have hfirst := rewritten_syncChannel s.db.tables req.channelID
  show Rewritten _ _ db.tables
  rw [commit_ok hdb]
  rcases hcompanion : ch.voiceTextChannelID with _ | companionID
  · refine ⟨hfirst.channels, ?_⟩
    intro scope subject
    rw [hfirst.overrides]
    simp [covers_channel hlook, hcompanion]
  · have hsecond := rewritten_syncChannel (syncChannel s.db.tables req.channelID) companionID
    refine ⟨forall₂_trans (fun _ _ _ => SameSeat.trans) hfirst.channels hsecond.channels, ?_⟩
    intro scope subject
    rw [hsecond.overrides, hfirst.overrides]
    simp only [covers_channel hlook, hcompanion, Option.mem_def, Option.some.injEq, exists_eq_left']
    by_cases hown : scope = .channel req.channelID
    · simp [hown]
    · simp [hown]

/-! ## Section 4: Updating a channel -/

/-- The category after the update. -/
def regrouped (req : UpdateChannelRequest) (old : Option ID) : Option ID :=
  (req.channelGroupID.map orNull).getD old

/-- The row of the companion can take over name and category: it may not be synced
    when it loses its category, and the name must be free. -/
def CompanionFollows (t : Tables) (ch : Channel) (req : UpdateChannelRequest) : Prop :=
  ∀ c ∈ t.channels, ch.voiceTextChannelID = some c.id →
    (req.channelGroupID = some "" → c.permissionsSynced = false) ∧
    ∀ newName ∈ req.name, ∀ d ∈ t.channels, d.id ≠ c.id → d.voiceTextChannelID = none →
      d.serverID = c.serverID → d.name ≠ newName

instance (t : Tables) (ch : Channel) (req : UpdateChannelRequest) :
    Decidable (CompanionFollows t ch req) := inferInstanceAs (Decidable (∀ _ ∈ t.channels, _))

/-- Where a channel is after the update of `ch`. -/
structure UpdatedSeat (t : Tables) (ch : Channel) (req : UpdateChannelRequest) (c c' : Channel) :
    Prop where
  id : c'.id = c.id
  serverID : c'.serverID = c.serverID
  companion : c'.voiceTextChannelID = c.voiceTextChannelID
  own : c.id = req.channelID → c'.channelGroupID = regrouped req c.channelGroupID ∧
    c'.isPrivate = req.isPrivate.getD c.isPrivate
  other : c.id ≠ req.channelID → c'.isPrivate = c.isPrivate ∧
    (c'.channelGroupID = c.channelGroupID ∨
      ch.voiceTextChannelID = some c.id ∧ c'.channelGroupID = regrouped req c.channelGroupID)
  follows : ch.voiceTextChannelID = some c.id → CompanionFollows t ch req →
    c'.channelGroupID = regrouped req c.channelGroupID

/-- The overrides after the update: a toggle of the flag changes what the channel
    stores for everyone, and sets it anew for the companion if the request has
    something else for the companion. -/
def updatedOverride (ch : Channel) (req : UpdateChannelRequest) (scope : OverrideScope)
    (subject : OverrideSubject) (old : Option Override) : Option Override :=
  match privacyToggle ch req with
  | none => old
  | some isPrivate =>
    if subject = .role (ch.serverID.getD "") then
      if scope = .channel req.channelID then toggled isPrivate old
      else if touchesCompanion req = true ∧
          ∃ companionID ∈ ch.voiceTextChannelID, scope = .channel companionID then
        toggled isPrivate none
      else old
    else old

structure Updated (req : UpdateChannelRequest) (s s' : ChatState) : Prop where
  change : ∃ ch, lookup Channel.id req.channelID s.db.tables.channels = some ch ∧
    ch.serverID ≠ none ∧ isVoiceTextCompanion s.db.tables req.channelID = false ∧
    Forall₂ (UpdatedSeat s.db.tables ch req) s.db.tables.channels s'.db.tables.channels ∧
    ∀ scope subject, overrideAt s'.db.tables.permissionOverrides scope subject =
    updatedOverride ch req scope subject (overrideAt s.db.tables.permissionOverrides scope subject)

section Update

variable {ch updated : Channel} {req : UpdateChannelRequest} {db₁ : DB}
  {f : Channel → Channel} {overrideID : ID}

/-- The channel rows before the companion is looked at: the channel itself has
    changed and all others are as they were. -/
structure OwnSeat (t t₂ : Tables) (req : UpdateChannelRequest) (f : Channel → Channel) :
    Prop where
  channels : t₂.channels = t.channels.map f
  groups : t₂.channelGroups = t.channelGroups
  others : ∀ c, c.id ≠ req.channelID → f c = c
  id : ∀ c, (f c).id = c.id
  serverID : ∀ c, (f c).serverID = c.serverID
  companion : ∀ c, (f c).voiceTextChannelID = c.voiceTextChannelID
  group : ∀ c, c.id = req.channelID → (f c).channelGroupID = regrouped req c.channelGroupID
  isPrivate : ∀ c, c.id = req.channelID → (f c).isPrivate = req.isPrivate.getD c.isPrivate

theorem ownSeat_updateWhere {t₂ : Tables} {g : Channel → Channel}
    (hchannels : t₂.channels = updateWhere (fun c => c.id = req.channelID) g t.channels)
    (hgroups : t₂.channelGroups = t.channelGroups) (hid : ∀ c, (g c).id = c.id)
    (hserver : ∀ c, (g c).serverID = c.serverID)
    (hcompanion : ∀ c, (g c).voiceTextChannelID = c.voiceTextChannelID)
    (hgroup : ∀ c, (g c).channelGroupID = regrouped req c.channelGroupID)
    (hprivate : ∀ c, (g c).isPrivate = req.isPrivate.getD c.isPrivate) :
    OwnSeat t t₂ req fun c => if decide (c.id = req.channelID) = true then g c else c := by
  refine ⟨hchannels, hgroups, fun c hne => by simp [hne], ?_, ?_, ?_, ?_, ?_⟩
  · intro c
    split
    · exact hid c
    · rfl
  · intro c
    split
    · exact hserver c
    · rfl
  · intro c
    split
    · exact hcompanion c
    · rfl
  · intro c hown
    rw [if_pos (decide_eq_true hown), hgroup]
  · intro c hown
    rw [if_pos (decide_eq_true hown), hprivate]

theorem ownSeat_patch {t₁ t₂ : Tables}
    (hchannels₁ : t₁.channels = patchChannels req.channelID req.toChannelPatch t.channels)
    (hchannels₂ : t₂.channels = if groupMove ch req = .enters then
      setSynced false req.channelID t₁.channels else t₁.channels)
    (hgroups : t₂.channelGroups = t.channelGroups) : ∃ f, OwnSeat t t₂ req f := by
  rw [hchannels₁] at hchannels₂
  split at hchannels₂
  · refine ⟨_, @ownSeat_updateWhere _ _ _
      (fun c => { req.toChannelPatch.apply c with permissionsSynced := false }) ?_ hgroups
      (fun _ => rfl) (fun _ => rfl) (fun _ => rfl) (fun _ => rfl) (fun _ => rfl)⟩
    rw [hchannels₂]
    unfold setSynced patchChannels updateWhere
    rw [map_map]
    refine map_congr_left fun c _ => ?_
    by_cases hown : c.id = req.channelID
    · simp [hown, ChannelPatch.apply]
    · simp [hown]
  · exact ⟨_, ownSeat_updateWhere hchannels₂ hgroups (fun _ => rfl) (fun _ => rfl) (fun _ => rfl)
      (fun _ => rfl) (fun _ => rfl)⟩

theorem companion_ne_own (hmem : ch ∈ t.channels)
    (hdirect : isVoiceTextCompanion t req.channelID = false)
    (hcompanion : ch.voiceTextChannelID = some companionID) : companionID ≠ req.channelID := by
  intro heq
  rw [heq] at hcompanion
  have htrue : isVoiceTextCompanion t req.channelID = true :=
    any_eq_true.mpr ⟨ch, hmem, decide_eq_true hcompanion⟩
  rw [hdirect] at htrue
  cases htrue

theorem updateCompanion_accepted {db₂ : DB} (hc : db.tables.Constraints)
    (hch : lookup Channel.id req.channelID db.tables.channels = some ch)
    (hdirect : isVoiceTextCompanion db.tables req.channelID = false)
    (hvalid : ∀ newGroup ∈ req.channelGroupID,
      requireGroupOfServer db.tables newGroup (ch.serverID.getD "") = .ok ())
    (h : OwnSeat db.tables db₂.tables req f) (hfollows : CompanionFollows db.tables ch req)
    (hcompanion : ch.voiceTextChannelID = some companionID) :
    ∃ db₃, updateCompanionChannel db₂ companionID req.name req.topic
      req.channelGroupID = .ok db₃ := by
  obtain ⟨hchmem, hchid⟩ := mem_of_lookup hch
  have hown : companionID ≠ req.channelID := companion_ne_own hchmem hdirect hcompanion
  -- the rows the checks look at are not the channel's
  have hold : ∀ d ∈ db₂.tables.channels, d.id ≠ req.channelID → d ∈ db.tables.channels := by
    intro d hd hne
    rw [h.channels] at hd
    obtain ⟨d₀, hd₀, rfl⟩ := mem_map.mp hd
    rw [h.id] at hne
    rwa [h.others d₀ hne]
  have hcomp : ∀ c ∈ db₂.tables.channels, c.id = companionID →
      c ∈ db.tables.channels ∧ ch.voiceTextChannelID = some c.id := by
    intro c hcmem hid
    refine ⟨hold c hcmem ?_, by rw [hid]; exact hcompanion⟩
    rw [hid]
    exact hown
  refine updateCompanionChannel_accepted ?_ ?_ ?_
  · intro groupID hnew hne
    rw [h.groups]
    obtain ⟨g, hg, hgid, -⟩ := requireGroupOfServer_ok (hvalid groupID hnew) hne
    exact mem_map.mpr ⟨g, hg, hgid⟩
  · intro newName hname c hcmem hid d hd hne hplain hserver
    obtain ⟨hcold, hcc⟩ := hcomp c hcmem hid
    refine (hfollows c hcold hcc).2 newName hname d (hold d hd ?_) ?_ hplain hserver
    · -- the channel itself has a companion
      intro hdid
      rw [h.channels] at hd
      obtain ⟨d₀, hd₀, rfl⟩ := mem_map.mp hd
      rw [h.companion] at hplain
      rw [h.id] at hdid
      rw [eq_of_key hc.channels.channelsPK hd₀ hchmem (hdid.trans hchid.symm), hcompanion] at hplain
      cases hplain
    · rw [hid]
      exact hne
  · intro hunset c hcmem hid
    obtain ⟨hcold, hcc⟩ := hcomp c hcmem hid
    exact (hfollows c hcold hcc).1 hunset

theorem OwnSeat.updatedSeat {t₂ : Tables} (h : OwnSeat t t₂ req f)
    (c : Channel) (hfollows : ch.voiceTextChannelID = some c.id → CompanionFollows t ch req →
    (f c).channelGroupID = regrouped req c.channelGroupID) : UpdatedSeat t ch req c (f c) := by
  refine ⟨h.id c, h.serverID c, h.companion c, ?_, ?_, hfollows⟩
  · intro hid
    exact ⟨h.group c hid, h.isPrivate c hid⟩
  · intro hne
    rw [h.others c hne]
    exact ⟨rfl, .inl rfl⟩

/-- What the companion takes over. -/
def companionPatch (req : UpdateChannelRequest) : ChannelPatch :=
  { name := req.name, topic := req.topic, channelGroupID := req.channelGroupID }

variable {R : Channel → Channel → Prop}

theorem seats_of_map (h : ∀ c ∈ t.channels, R c (f c)) :
    Forall₂ R t.channels (t.channels.map f) := by
  rw [forall₂_map_right_iff, forall₂_same]
  exact h

theorem tried_syncCompanion {db₂ : DB}
    (hch : lookup Channel.id req.channelID db.tables.channels = some ch)
    (hdirect : isVoiceTextCompanion db.tables req.channelID = false)
    (hvalid : ∀ newGroup ∈ req.channelGroupID,
      requireGroupOfServer db.tables newGroup (ch.serverID.getD "") = .ok ())
    (hupdated : updated.voiceTextChannelID = ch.voiceTextChannelID)
    (h : OwnSeat db.tables db₂.tables req f) :
    Forall₂ (UpdatedSeat db.tables ch req) db.tables.channels
        (tried (syncCompanion updated req) db₂).tables.channels ∧
      (tried (syncCompanion updated req) db₂).tables = { db₂.tables with
        channels := (tried (syncCompanion updated req) db₂).tables.channels } := by
  obtain ⟨hchmem, -⟩ := mem_of_lookup hch
  -- the cases in which nothing happens to the companion
  have hidle : (∀ c ∈ db.tables.channels, ch.voiceTextChannelID = some c.id →
      CompanionFollows db.tables ch req → regrouped req c.channelGroupID = c.channelGroupID) →
      Forall₂ (UpdatedSeat db.tables ch req) db.tables.channels db₂.tables.channels := by
    intro hsame
    rw [h.channels]
    refine seats_of_map fun c hmem => h.updatedSeat c ?_
    intro hcompanion hfollows
    rw [h.others c (companion_ne_own hchmem hdirect hcompanion), hsame c hmem hcompanion hfollows]
  unfold tried syncCompanion
  rw [hupdated]
  rcases hcompanion : ch.voiceTextChannelID with _ | companionID
  · refine ⟨hidle fun c _ hc => ?_, rfl⟩
    rw [hcompanion] at hc
    cases hc
  · dsimp only
    by_cases htouch : touchesCompanion req = true
    · rw [if_pos htouch]
      -- a refused update leaves the companion where it is
      rcases hrow : updateCompanionChannel db₂ companionID req.name req.topic
        req.channelGroupID with e | db₃
      · refine ⟨hidle fun c _ _ hfollows => ?_, rfl⟩
        obtain ⟨db₃, hok⟩ := updateCompanion_accepted db.constraints hch hdirect hvalid h hfollows
          hcompanion
        exact nomatch hrow.symm.trans hok
      · have htables := commit_ok hrow
        have hchannels : db₃.tables.channels = db.tables.channels.map fun c =>
            if decide ((f c).id = companionID) = true then (companionPatch req).apply (f c)
            else f c := by
          rw [htables]
          show patchChannels companionID (companionPatch req) db₂.tables.channels = _
          rw [h.channels]
          unfold patchChannels updateWhere
          rw [map_map]
          rfl
        refine ⟨?_, by rw [htables]⟩
        show Forall₂ _ _ db₃.tables.channels
        rw [hchannels]
        refine seats_of_map fun c _ => ?_
        by_cases hid : c.id = companionID
        · have hne : c.id ≠ req.channelID := by
            rw [hid]
            exact companion_ne_own hchmem hdirect hcompanion
          rw [h.others c hne, if_pos (decide_eq_true hid)]
          have hgroup : ((companionPatch req).apply c).channelGroupID =
              regrouped req c.channelGroupID := rfl
          refine ⟨rfl, rfl, rfl, fun hown => absurd hown hne, ?_, fun _ _ => hgroup⟩
          intro _
          exact ⟨rfl, Or.inr ⟨by rw [hcompanion, hid], hgroup⟩⟩
        · rw [h.id, if_neg (by simpa using hid)]
          refine h.updatedSeat c ?_
          intro hc _
          rw [hcompanion] at hc
          injection hc with hc
          exact absurd hc.symm hid
    · rw [if_neg htouch]
      refine ⟨hidle fun c _ _ _ => ?_, rfl⟩
      -- then the request has no category
      have hnone : req.channelGroupID = none := by
        by_contra hsome
        refine htouch ?_
        unfold touchesCompanion
        simp [Option.isSome_iff_ne_none.mpr hsome]
      unfold regrouped
      rw [hnone]
      rfl

/-- What the toggle of the flag does to the companion. -/
theorem tried_syncCompanionPrivacy (req : UpdateChannelRequest) {db₃ : DB}
    (hupdated : updated.voiceTextChannelID = ch.voiceTextChannelID)
    (hexists : ∀ companionID ∈ ch.voiceTextChannelID,
      (OverrideScope.channel companionID).Exists db₃.tables)
    (hdisjoint : ∀ companionID ∈ ch.voiceTextChannelID,
      ∀ po ∈ db₃.tables.permissionOverrides, po.scope ≠ .group companionID)
    (hrole : (role (ch.serverID.getD "")).Exists db₃.tables)
    (hmirror : mirrorID ∉ db₃.tables.permissionOverrides.map (·.id)) :
    (tried (syncCompanionPrivacy mirrorID ch updated req) db₃).tables.channels =
        db₃.tables.channels ∧
      ∀ scope subject, overrideAt
          (tried (syncCompanionPrivacy mirrorID ch updated req) db₃).tables.permissionOverrides
          scope subject =
        match privacyToggle ch req with
        | none => overrideAt db₃.tables.permissionOverrides scope subject
        | some isPrivate =>
          if subject = .role (ch.serverID.getD "") ∧ touchesCompanion req = true ∧
              ∃ companionID ∈ ch.voiceTextChannelID, scope = .channel companionID then
            toggled isPrivate none
          else overrideAt db₃.tables.permissionOverrides scope subject := by
  rcases htoggle : privacyToggle ch req with _ | isPrivate
  · have hidle : syncCompanionPrivacy mirrorID ch updated req db₃ = .ok db₃ := by
      unfold syncCompanionPrivacy
      rw [htoggle]
      cases updated.voiceTextChannelID <;> rfl
    unfold tried
    rw [hidle]
    exact ⟨rfl, fun _ _ => rfl⟩
  · rcases hcompanion : ch.voiceTextChannelID with _ | companionID
    · have hidle : syncCompanionPrivacy mirrorID ch updated req db₃ = .ok db₃ := by
        unfold syncCompanionPrivacy
        rw [hupdated, hcompanion]
      unfold tried
      rw [hidle]
      exact ⟨rfl, fun _ _ => by simp⟩
    · by_cases htouch : touchesCompanion req = true
      · have hcond : ∀ (scope : OverrideScope) (subject : OverrideSubject),
            (subject = .role (ch.serverID.getD "") ∧ touchesCompanion req = true ∧
              ∃ id ∈ some companionID, scope = .channel id) ↔
            subject = .role (ch.serverID.getD "") ∧ scope = .channel companionID := by
          simp [htouch]
        -- going private writes the deny, going public deletes the override
        cases isPrivate with
        | true =>
          have hset : tried (syncCompanionPrivacy mirrorID ch updated req) db₃ =
              tried (fun db => (setOverride db
                { id := mirrorID, scope := .channel companionID,
                  subject := .role (ch.serverID.getD ""), allow := 0,
                  deny := viewChannel }).map (·.2)) db₃ := by
            unfold tried syncCompanionPrivacy
            simp only [hupdated, hcompanion, htoggle, htouch, if_true]
          rw [hset, tried_setOverride (hexists companionID hcompanion) hrole hmirror]
          refine ⟨rfl, ?_⟩
          intro scope subject
          dsimp only
          rw [overrideAt_writeOverride]
          by_cases htarget : subject = .role (ch.serverID.getD "") ∧ scope = .channel companionID
          · rw [if_pos (by rw [htarget.1, htarget.2]; rfl),
              if_pos ((hcond scope subject).mpr htarget)]
            rfl
          · have hne : (scope, subject) ≠
                (.channel companionID, role (ch.serverID.getD "")) :=
              fun h => htarget ⟨(Prod.mk.inj h).2, (Prod.mk.inj h).1⟩
            rw [if_neg (by exact hne), if_neg fun h => htarget ((hcond scope subject).mp h)]
        | false =>
          have hdel : tried (syncCompanionPrivacy mirrorID ch updated req) db₃ =
              tried (deleteOverrideFor companionID (.role (ch.serverID.getD ""))) db₃ := by
            unfold tried syncCompanionPrivacy
            simp only [hupdated, hcompanion, htoggle, htouch, if_true, Bool.false_eq_true, if_false]
            rfl
          rw [hdel, tried_deleteOverrideFor]
          refine ⟨rfl, ?_⟩
          intro scope subject
          dsimp only
          rw [overrideAt_deleteOnTarget]
          by_cases htarget : subject = .role (ch.serverID.getD "") ∧ scope = .channel companionID
          · rw [if_pos ⟨by rw [htarget.2]; rfl, htarget.1⟩,
              if_pos ((hcond scope subject).mpr htarget)]
            rfl
          · rw [if_neg fun h => htarget ((hcond scope subject).mp h)]
            split
            · -- no category has the id of the companion
              rename_i hid
              rcases scope with id | id
              · symm
                rw [overrideAt_eq_none]
                intro po hpo hsame
                exact hdisjoint companionID hcompanion po hpo
                  (hsame.1.trans (congrArg OverrideScope.group hid.1))
              · exact absurd ⟨hid.2, congrArg OverrideScope.channel hid.1⟩ htarget
            · rfl
      · have hidle : syncCompanionPrivacy mirrorID ch updated req db₃ = .ok db₃ := by
          unfold syncCompanionPrivacy
          simp only [hupdated, hcompanion, htoggle, htouch]
          rfl
        unfold tried
        rw [hidle]
        exact ⟨rfl, fun _ _ => by simp [htouch]⟩

theorem ids_of_seats (hR : ∀ c c', R c c' → c'.id = c.id) {channels channels' : List Channel}
    (h : Forall₂ R channels channels') : channels'.map (·.id) = channels.map (·.id) := by
  induction h with
  | nil => rfl
  | cons hcc _ ih => rw [map_cons, map_cons, ih, hR _ _ hcc]

theorem ids_togglePrivacy {everyoneRoleID : ID} {isPrivate : Bool} {id : ID}
    (h : id ∈ (togglePrivacy overrideID channelID everyoneRoleID isPrivate rows).map
      (·.id)) : id ∈ rows.map (·.id) ∨ id = overrideID := by
  obtain ⟨po, hpo, rfl⟩ := mem_map.mp h
  unfold togglePrivacy at hpo
  split at hpo
  · rcases mem_upsert hpo with hpo | rfl | ⟨old, hold, -, rfl⟩
    · exact .inl (mem_map_of_mem hpo)
    · exact .inr rfl
    · exact .inl (mem_map.mpr ⟨old, hold, rfl⟩)
  · exact .inl (mem_map_of_mem (mem_deleteWhere.mp hpo).1)

theorem scope_ne_group (hs : WellFormed t) (hexists : ∀ po ∈ rows, po.scope.Exists t)
    (hchannel : channelID ∈ t.channels.map (·.id)) : ∀ po ∈ rows, po.scope ≠ .group channelID := by
  intro po hpo hscope
  have hgroup := hexists po hpo
  rw [hscope] at hgroup
  obtain ⟨g, hg, hgid⟩ := mem_map.mp hgroup
  obtain ⟨c, hc, hcid⟩ := mem_map.mp hchannel
  exact hs.channels.disjoint c hc g hg (hcid.trans hgid.symm)

theorem scope_exists_congr {t' : Tables}
    (hchannels : t'.channels.map (·.id) = t.channels.map (·.id))
    (hgroups : t'.channelGroups = t.channelGroups) (h : scope.Exists t') : scope.Exists t := by
  rcases scope with id | id
  · show id ∈ t.channelGroups.map (·.id)
    rw [← hgroups]
    exact h
  · show id ∈ t.channels.map (·.id)
    rw [← hchannels]
    exact h

theorem everyone_exists (hs : WellFormed t) (hc : t.Constraints) (hch : ch ∈ t.channels)
    (hserver : ch.serverID ≠ none) :
    (role (ch.serverID.getD "")).Exists t := by
  rcases hid : ch.serverID with _ | serverID
  · exact absurd hid hserver
  · obtain ⟨srv, hsrv, hsrvID⟩ := mem_map.mp (hc.channels.channelsServer ch hch _ hid)
    obtain ⟨r, hr, hrid, -⟩ := hs.roles.everyone srv hsrv
    exact mem_map.mpr ⟨r, hr, hrid.trans hsrvID⟩

theorem overrideAt_toggles (overrideID : ID) (isPrivate : Bool)
    (hdisjoint : ∀ po ∈ rows, po.scope ≠ .group req.channelID)
    (hother : ∀ companionID ∈ ch.voiceTextChannelID, companionID ≠ req.channelID)
    (htoggle : privacyToggle ch req = some isPrivate) (scope : OverrideScope)
    (subject : OverrideSubject) :
    (if subject = .role (ch.serverID.getD "") ∧ touchesCompanion req = true ∧
          ∃ companionID ∈ ch.voiceTextChannelID, scope = .channel companionID then
        toggled isPrivate none
      else overrideAt (togglePrivacy overrideID req.channelID (ch.serverID.getD "")
        isPrivate rows) scope subject) =
      updatedOverride ch req scope subject (overrideAt rows scope subject) := by
  unfold updatedOverride
  rw [htoggle, overrideAt_togglePrivacy _ _ _ _ hdisjoint]
  by_cases hsubject : subject = .role (ch.serverID.getD "")
  · by_cases hscope : scope = .channel req.channelID
    · have hnot : ¬ ∃ companionID ∈ ch.voiceTextChannelID, scope = .channel companionID := by
        rintro ⟨companionID, hcid, heq⟩
        rw [hscope] at heq
        injection heq with heq
        exact hother companionID hcid heq.symm
      simp only [hsubject, hscope, true_and, if_true, and_self]
      rw [hscope] at hnot
      simp only [hnot, and_false, if_false]
    · simp only [hsubject, hscope, true_and, false_and, if_false, if_true]
  · simp only [hsubject, false_and, and_false, if_false]

theorem updateChannel_updated (caller : Option ID) (req : UpdateChannelRequest) (s : ChatState)
    (hs : WellFormed s.db.tables) (hmirror : mirrorID ∉ s.db.tables.permissionOverrides.map (·.id))
    (hne : mirrorID ≠ overrideID) :
    Ends (updateChannel overrideID mirrorID uuid caller req) s
      (fun _ s' => Updated req s s') (fun _ s' => s' = s) := by
  have hc := s.db.constraints
  refine (updateChannel_steps overrideID mirrorID uuid caller req s).mono ?_ (fun _ _ h => h)
  rintro _ _ ⟨ch, updated, db₁, db₂, ⟨hlook, hserver, hdirect, -, hvalid⟩, hupdated, hdb₁, hrest,
    rfl⟩
  obtain ⟨hchmem, hchid⟩ := mem_of_lookup hlook
  obtain ⟨-, htables₁⟩ := storeUpdate_exact hdb₁ hlook
  have hcompanion : updated.voiceTextChannelID = ch.voiceTextChannelID := by
    rw [hupdated]
    rfl
  -- the channel rows before the companion is looked at
  obtain ⟨f, hseat⟩ : ∃ f, OwnSeat s.db.tables db₂.tables req f :=
    @ownSeat_patch _ ch req db₁.tables _ (by rw [htables₁]) (by rw [hrest])
      (by rw [hrest, htables₁])
  obtain ⟨hseats, hrest₃⟩ := tried_syncCompanion hlook hdirect hvalid hcompanion hseat
  have hids := ids_of_seats (fun _ _ h => h.id) hseats
  have hrows₃ : (tried (syncCompanion updated req) db₂).tables.permissionOverrides =
      db₁.tables.permissionOverrides := by
    rw [hrest₃, hrest]
  have hexists : ∀ companionID ∈ ch.voiceTextChannelID,
      companionID ∈ s.db.tables.channels.map (·.id) :=
    hc.channels.channelsCompanion ch hchmem
  have hexists₃ : ∀ companionID ∈ ch.voiceTextChannelID, (OverrideScope.channel companionID).Exists
      (tried (syncCompanion updated req) db₂).tables := by
    intro companionID hcid
    show companionID ∈ (tried (syncCompanion updated req) db₂).tables.channels.map (·.id)
    rw [hids]
    exact hexists companionID hcid
  have hgroups₃ : (tried (syncCompanion updated req) db₂).tables.channelGroups =
      s.db.tables.channelGroups := by
    rw [hrest₃]
    exact hseat.groups
  have hdisjoint₃ : ∀ companionID ∈ ch.voiceTextChannelID,
      ∀ po ∈ (tried (syncCompanion updated req) db₂).tables.permissionOverrides,
        po.scope ≠ .group companionID := by
    intro companionID hcid
    refine scope_ne_group hs ?_ (hexists companionID hcid)
    intro po hpo
    exact scope_exists_congr hids hgroups₃
      ((tried (syncCompanion updated req) db₂).constraints.roles.overridesScope po hpo)
  have hrole₃ : (role (ch.serverID.getD "")).Exists
      (tried (syncCompanion updated req) db₂).tables := by
    have hrole : ch.serverID.getD "" ∈ s.db.tables.roles.map (·.id) :=
      everyone_exists hs hc hchmem hserver
    show ch.serverID.getD "" ∈ (tried (syncCompanion updated req) db₂).tables.roles.map (·.id)
    rw [hrest₃, hrest, htables₁]
    exact hrole
  have hmirror₃ : mirrorID ∉
      (tried (syncCompanion updated req) db₂).tables.permissionOverrides.map (·.id) := by
    rw [hrows₃, htables₁]
    rcases privacyToggle ch req with _ | isPrivate
    · exact hmirror
    · intro hmem'
      rcases ids_togglePrivacy hmem' with hold | hnew
      · exact hmirror hold
      · exact hne hnew
  obtain ⟨hchannels, hoverrides⟩ :=
    tried_syncCompanionPrivacy req hcompanion hexists₃ hdisjoint₃ hrole₃ hmirror₃
  refine ⟨ch, hlook, hserver, hdirect, ?_, ?_⟩
  · show Forall₂ _ _ (tried (syncCompanionPrivacy mirrorID ch updated req)
      (tried (syncCompanion updated req) db₂)).tables.channels
    rw [hchannels]
    exact hseats
  · intro scope subject
    refine (hoverrides scope subject).trans ?_
    rw [hrows₃, htables₁]
    rcases htoggle : privacyToggle ch req with _ | isPrivate
    · unfold updatedOverride
      rw [htoggle]
    · have hdisjoint : ∀ po ∈ s.db.tables.permissionOverrides, po.scope ≠ .group req.channelID :=
        scope_ne_group hs hc.roles.overridesScope (mem_map.mpr ⟨ch, hchmem, hchid⟩)
      exact overrideAt_toggles overrideID isPrivate hdisjoint
        (fun _ => companion_ne_own hchmem hdirect) htoggle scope subject

end Update

/-! ## Section 5: Deleting a category -/

/-- The copies of the category's overrides for its channels. -/
def groupSnapshots (t : Tables) (uuid : ID → ID → ID) (groupID : ID) : List PermissionOverride :=
  (t.channels.filter (·.channelGroupID = some groupID)).flatMap fun c =>
    snapshotRows t uuid groupID c.id

/-- A channel of the category is without one; all else stays. -/
structure DissolvedSeat (groupID : ID) (c c' : Channel) : Prop where
  id : c'.id = c.id
  serverID : c'.serverID = c.serverID
  companion : c'.voiceTextChannelID = c.voiceTextChannelID
  isPrivate : c'.isPrivate = c.isPrivate
  group : c'.channelGroupID =
    if c.channelGroupID = some groupID then none else c.channelGroupID

/-- Its channels keep their own overrides and take over those of the category that
    they have none for. -/
def dissolvedOverride (t : Tables) (groupID : ID) (scope : OverrideScope)
    (subject : OverrideSubject) (old : Option Override) : Option Override :=
  match scope with
  | .group id => if id = groupID then none else old
  | .channel id =>
    if ∃ c ∈ t.channels, c.id = id ∧ c.channelGroupID = some groupID then
      old.or (overrideAt t.permissionOverrides (.group groupID) subject)
    else old

structure Dissolved (groupID : ID) (s s' : ChatState) : Prop where
  channels : Forall₂ (DissolvedSeat groupID) s.db.tables.channels s'.db.tables.channels
  overrides : ∀ scope subject, overrideAt s'.db.tables.permissionOverrides scope subject =
    dissolvedOverride s.db.tables groupID scope subject
      (overrideAt s.db.tables.permissionOverrides scope subject)

theorem overrideAt_eq_of_all {o : Override}
    (hmem : ∃ po ∈ rows, po.scope = scope ∧ po.subject = subject)
    (hall : ∀ po ∈ rows, po.scope = scope → po.subject = subject → po.override = o) :
    overrideAt rows scope subject = some o := by
  rcases hread : overrideAt rows scope subject with _ | o'
  · obtain ⟨po, hpo, hsame⟩ := hmem
    exact absurd hsame (overrideAt_eq_none.mp hread po hpo)
  · obtain ⟨po, hpo, hscope, hsubject, rfl⟩ := overrideAt_eq_some hread
    rw [hall po hpo hscope hsubject]

theorem mem_groupSnapshots {groupID : ID} {po : PermissionOverride} :
    po ∈ groupSnapshots t uuid groupID ↔
      ∃ c ∈ t.channels, c.channelGroupID = some groupID ∧
        ∃ ovr ∈ t.permissionOverrides, ovr.scope = .group groupID ∧
          po = { ovr with id := uuid ovr.id c.id, scope := .channel c.id } := by
  unfold groupSnapshots snapshotRows
  simp only [mem_flatMap, mem_filter, mem_map, decide_eq_true_eq, and_assoc]
  constructor
  · rintro ⟨c, hc, hgroup, ovr, hovr, hscope, rfl⟩
    exact ⟨c, hc, hgroup, ovr, hovr, hscope, rfl⟩
  · rintro ⟨c, hc, hgroup, ovr, hovr, hscope, rfl⟩
    exact ⟨c, hc, hgroup, ovr, hovr, hscope, rfl⟩

/-- What the copies say about a channel is what the category says. -/
theorem overrideAt_groupSnapshots (hc : t.Constraints) (uuid : ID → ID → ID) (groupID : ID)
    (scope : OverrideScope) (subject : OverrideSubject) :
    overrideAt (groupSnapshots t uuid groupID) scope subject =
      if ∃ c ∈ t.channels, scope = .channel c.id ∧ c.channelGroupID = some groupID then
        overrideAt t.permissionOverrides (.group groupID) subject
      else none := by
  split
  · rename_i hin
    obtain ⟨c, hcmem, rfl, hgroup⟩ := hin
    rcases hread : overrideAt t.permissionOverrides (.group groupID) subject with _ | o
    · rw [overrideAt_eq_none]
      intro po hpo hsame
      obtain ⟨c', -, -, ovr, hovr, hscope, rfl⟩ := mem_groupSnapshots.mp hpo
      exact overrideAt_eq_none.mp hread ovr hovr ⟨hscope, hsame.2⟩
    · obtain ⟨ovr, hovr, hscope, hsubject, rfl⟩ := overrideAt_eq_some hread
      refine overrideAt_eq_of_all ?_ ?_
      · exact ⟨_, mem_groupSnapshots.mpr ⟨c, hcmem, hgroup, ovr, hovr, hscope, rfl⟩, rfl, hsubject⟩
      · intro po hpo _ hsame
        obtain ⟨c', -, -, ovr', hovr', hscope', rfl⟩ := mem_groupSnapshots.mp hpo
        have heq : ovr' = ovr := by
          refine eq_of_key hc.roles.overridesTarget hovr' hovr ?_
          exact Prod.ext (hscope'.trans hscope.symm) (hsame.trans hsubject.symm)
        rw [heq]
        rfl
  · rename_i hout
    rw [overrideAt_eq_none]
    intro po hpo hsame
    obtain ⟨c, hcmem, hgroup, ovr, -, -, rfl⟩ := mem_groupSnapshots.mp hpo
    exact hout ⟨c, hcmem, hsame.1.symm, hgroup⟩

theorem deleteChannelGroup_dissolved (caller : Option ID) (req : DeleteChannelGroupRequest)
    (s : ChatState) (hids : ((groupSnapshots s.db.tables uuid req.channelGroupID ++
      s.db.tables.permissionOverrides).map (·.id)).Nodup) :
    Ends (deleteChannelGroup uuid caller req) s
      (fun _ s' => Dissolved req.channelGroupID s s') (fun _ s' => s' = s) := by
  refine (deleteChannelGroup_steps uuid caller req s).mono ?_ (fun _ _ h => h)
  rintro _ _ ⟨group, db, -, hdb, rfl⟩
  obtain ⟨_, -, hdb⟩ := bind_eq_ok.mp hdb
  have htables := commit_ok hdb
  -- channels leave the category; its overrides go after the copies were made
  constructor
  · show Forall₂ _ _ db.tables.channels
    rw [htables]
    unfold updateWhere
    rw [forall₂_map_right_iff, forall₂_same]
    intro c _
    by_cases hin : c.channelGroupID = some req.channelGroupID
    · rw [if_pos (decide_eq_true hin)]
      exact ⟨rfl, rfl, rfl, rfl, by rw [if_pos hin]⟩
    · rw [if_neg (by simpa using hin)]
      exact ⟨rfl, rfl, rfl, rfl, by rw [if_neg hin]⟩
  · intro scope subject
    show overrideAt db.tables.permissionOverrides scope subject = _
    rw [htables, overrideAt_deleteWhere fun scope _ => scope = .group req.channelGroupID]
    have hcopied : overrideAt ((groupSnapshots s.db.tables uuid req.channelGroupID).foldl
        insertOverride s.db.tables.permissionOverrides) scope subject = _ :=
      overrideAt_foldl_insertOverride _ hids
    rw [overrideAt_groupSnapshots s.db.constraints] at hcopied
    unfold dissolvedOverride
    rcases scope with id | id
    · -- the copies are about channels
      by_cases hid : id = req.channelGroupID
      · simp only [hid, if_true]
      · have hne : OverrideScope.group id ≠ .group req.channelGroupID := by
          intro heq
          injection heq with heq
          exact hid heq
        have hout : ¬ ∃ c ∈ s.db.tables.channels, OverrideScope.group id = .channel c.id ∧
            c.channelGroupID = some req.channelGroupID := by
          rintro ⟨c, -, heq, -⟩
          cases heq
        rw [if_neg hout, Option.or_none] at hcopied
        rw [if_neg hne]
        dsimp only
        rw [if_neg hid]
        exact hcopied
    · have hne : OverrideScope.channel id ≠ .group req.channelGroupID := by
        intro heq
        cases heq
      have hiff : (∃ c ∈ s.db.tables.channels, OverrideScope.channel id = .channel c.id ∧
          c.channelGroupID = some req.channelGroupID) ↔
          ∃ c ∈ s.db.tables.channels, c.id = id ∧ c.channelGroupID = some req.channelGroupID := by
        simp only [OverrideScope.channel.injEq, eq_comm]
      refine hcopied.trans ?_
      dsimp only
      by_cases hin : ∃ c ∈ s.db.tables.channels, c.id = id ∧
          c.channelGroupID = some req.channelGroupID
      · rw [if_pos hin, if_pos (hiff.mpr hin)]
      · rw [if_neg hin, if_neg fun h => hin (hiff.mp h), Option.or_none]

/-! ## Section 6: Every event -/

/-- The override ids that a call draws are new. -/
def Call.Fresh (t : Tables) : Call → Prop
  | .setPermissionOverride newID mirrorID _ =>
    mirrorID ∉ t.permissionOverrides.map (·.id) ∧ mirrorID ≠ newID
  | .updateChannel overrideID mirrorID _ _ =>
    mirrorID ∉ t.permissionOverrides.map (·.id) ∧ mirrorID ≠ overrideID
  | .deleteChannelGroup uuid req =>
    ((groupSnapshots t uuid req.channelGroupID ++ t.permissionOverrides).map (·.id)).Nodup
  | _ => True

def ServerEvent.Fresh (t : Tables) : ServerEvent → Prop
  | .event (.call _ c) => c.Fresh t
  | .event (.tick _) => True
  | .createChannel ids _ req => ids.Fresh req t

/-- **What an event writes** to channels and overrides. -/
inductive Writes (s s' : ChatState) : ServerEvent → Prop where
  | nothing {ev : ServerEvent} (channels : s'.db.tables.channels = s.db.tables.channels)
      (overrides : s'.db.tables.permissionOverrides = s.db.tables.permissionOverrides) :
      Writes s s' ev
  | set {caller : Option ID} {newID mirrorID : ID} {req : SetPermissionOverrideRequest}
      (h : Replaced req.targetID req.roleID req.userID
        (some { allow := req.allow, deny := req.deny }) s s') :
      Writes s s' (.event (.call caller (.setPermissionOverride newID mirrorID req)))
  | delete {caller : Option ID} {req : DeletePermissionOverrideRequest}
      (h : Replaced req.targetID req.roleID req.userID none s s') :
      Writes s s' (.event (.call caller (.deletePermissionOverride req)))
  | sync {caller : Option ID} {req : SyncChannelPermissionsRequest}
      (h : Emptied req.channelID s s') :
      Writes s s' (.event (.call caller (.syncChannelPermissions req)))
  | update {caller : Option ID} {overrideID mirrorID : ID} {uuid : ID → ID → ID}
      {req : UpdateChannelRequest} (h : Updated req s s') :
      Writes s s' (.event (.call caller (.updateChannel overrideID mirrorID uuid req)))
  | deleteGroup {caller : Option ID} {uuid : ID → ID → ID} {req : DeleteChannelGroupRequest}
      (h : Dissolved req.channelGroupID s s') :
      Writes s s' (.event (.call caller (.deleteChannelGroup uuid req)))
  | deleteRole {caller : Option ID} {req : DeleteRoleRequest}
      (ordinary : ∀ srv ∈ s.db.tables.servers, req.roleID ≠ srv.id)
      (h : Rewritten (fun _ subject old => if subject = .role req.roleID then none else old)
        s.db.tables s'.db.tables) :
      Writes s s' (.event (.call caller (.deleteRole req)))
  | create {ids : CreationIDs} {caller : Option ID} {req : CreateChannelRequest}
      (h : Created ids caller req s s') : Writes s s' (.createChannel ids caller req)

section Events

variable {caller : Option ID} {s s' : ChatState} {ev : ServerEvent}

theorem Writes.of_same (h : s' = s) : Writes s s' ev :=
  .nothing (by rw [h]) (by rw [h])

theorem Writes.of_filled (h : Filled s s') : Writes s s' ev :=
  .nothing (by rw [h.db]) (by rw [h.db])

theorem Writes.of_changed {f : Tables → Tables} {g : Cache → Cache} (h : Changed f g s s')
    (hchannels : ∀ t, (f t).channels = t.channels)
    (hoverrides : ∀ t, (f t).permissionOverrides = t.permissionOverrides) : Writes s s' ev :=
  .nothing (by rw [h.tables, hchannels]) (by rw [h.tables, hoverrides])

theorem RoleDeleted.writes {req : DeleteRoleRequest} (h : RoleDeleted caller req s s')
    (hs : WellFormed s.db.tables) : Writes s s' (.event (.call caller (.deleteRole req))) := by
  obtain ⟨userID, auth, role, hrole, -, hordinary, -, hchange⟩ := h.rights
  obtain ⟨hmem, hid⟩ := mem_of_lookup hrole
  refine .deleteRole ?_ ⟨?_, ?_⟩
  · intro srv hsrv heq
    have hserver := hs.roles.server_of_id s.db.constraints hsrv hmem (hid.trans heq)
    exact hordinary (by rw [hserver, hid, heq])
  · rw [hchange.tables]
    exact sameSeat_refl _
  · intro scope subject
    rw [hchange.tables]
    exact overrideAt_deleteWhere fun _ subject => subject = .role req.roleID

/-- The calls of the sections above. -/
def Call.rewrites : Call → Bool
  | .setPermissionOverride _ _ _ => true
  | .deletePermissionOverride _ => true
  | .syncChannelPermissions _ => true
  | .updateChannel _ _ _ _ => true
  | .deleteChannelGroup _ _ => true
  | _ => false

/-- The other calls write neither table; only the deletion of a role takes its
    overrides along. -/
theorem Outcome.writes {c : Call} (hout : Outcome caller c s s') (hs : WellFormed s.db.tables)
    (hother : c.rewrites = false) : Writes s s' (.event (.call caller c)) := by
  rcases hout with hfill | ⟨invites, hchange⟩ | heffect
  · exact .of_filled hfill
  · exact .of_changed hchange (fun _ => rfl) (fun _ => rfl)
  · cases c with
    | updateMember req =>
      obtain ⟨-, s₁, hfill, hchange⟩ := heffect
      exact .nothing (by rw [hchange.tables, hfill.db]; rfl) (by rw [hchange.tables, hfill.db]; rfl)
    | setMemberRoles | timeoutMember | removeTimeout =>
      exact .of_changed heffect.change (fun _ => rfl) (fun _ => rfl)
    | kickMember req =>
      obtain ⟨-, channelMembers, hchange⟩ := heffect
      exact .of_changed hchange (fun _ => rfl) (fun _ => rfl)
    | banMember req =>
      obtain ⟨-, bans, -, ⟨-, channelMembers, hchange⟩ | ⟨-, hchange⟩⟩ := heffect
      · exact .of_changed hchange (fun _ => rfl) (fun _ => rfl)
      · exact .of_changed hchange (fun _ => rfl) (fun _ => rfl)
    | unbanMember req => exact .of_changed heffect (fun _ => rfl) (fun _ => rfl)
    | createRole newID req =>
      obtain ⟨-, created, -, -, -, -, -, hchange⟩ := heffect
      exact .of_changed hchange (fun _ => rfl) (fun _ => rfl)
    | updateRole req =>
      obtain ⟨userID, auth, role, -, -, -, -, hchange⟩ := heffect
      exact .of_changed hchange (fun _ => rfl) (fun _ => rfl)
    | deleteRole req => exact heffect.writes hs
    | reorderRoles req =>
      obtain ⟨userID, auth, callerPos, -, -, -, -, -, hchange⟩ := heffect
      exact .of_changed hchange (fun _ => rfl) (fun _ => rfl)
    | joinServer req =>
      obtain ⟨userID, inv, invites, -, -, -, hchange⟩ := heffect
      exact .of_changed hchange (fun _ => rfl) (fun _ => rfl)
    | leaveServer req =>
      obtain ⟨userID, srv, -, -, -, channelMembers, hchange⟩ := heffect
      exact .of_changed hchange (fun _ => rfl) (fun _ => rfl)
    | completeOnboarding req =>
      obtain ⟨userID, srv, completedAt, channelMembers, -, -, -, -, hchange⟩ := heffect
      exact .of_changed hchange (fun _ => rfl) (fun _ => rfl)
    | getEffectivePermissions | listChannels => exact .of_filled heffect
    | setPermissionOverride | deletePermissionOverride | syncChannelPermissions | updateChannel
    | deleteChannelGroup => cases hother

theorem handle_writes (c : Call) (hs : WellFormed s.db.tables) (hfresh : c.Fresh s.db.tables) :
    Ends (c.handle caller) s (fun _ s' => Writes s s' (.event (.call caller c)))
      (fun _ s' => Writes s s' (.event (.call caller c))) := by
  have hother : c.rewrites = false → Ends (c.handle caller) s
      (fun _ s' => Writes s s' (.event (.call caller c)))
      (fun _ s' => Writes s s' (.event (.call caller c))) := by
    intro hother
    refine (handle_spec caller c s hs.channels.channelIDs).mono ?_ ?_
    · exact fun _ s' h => (Outcome.done h).writes hs hother
    · exact fun _ s' h => h.writes hs hother
  cases c with
  | setPermissionOverride newID mirrorID req =>
    exact ends_ignore ((setPermissionOverride_replaced caller req s hfresh.1 hfresh.2).mono
      (fun _ _ => .set) (fun _ _ => .of_same))
  | deletePermissionOverride req =>
    exact (deletePermissionOverride_replaced caller req s hs).mono
      (fun _ _ => .delete) (fun _ _ => .of_same)
  | syncChannelPermissions req =>
    refine ends_ignore ((syncChannelPermissions_emptied caller req s).mono (fun _ _ => .sync) ?_)
    intro _ s' h
    rcases h with h | h
    · exact .of_same h
    · exact .sync h
  | updateChannel overrideID mirrorID uuid req =>
    exact ends_ignore ((updateChannel_updated caller req s hs hfresh.1 hfresh.2).mono
      (fun _ _ => .update) (fun _ _ => .of_same))
  | deleteChannelGroup uuid req =>
    exact (deleteChannelGroup_dissolved caller req s hfresh).mono
      (fun _ _ => .deleteGroup) (fun _ _ => .of_same)
  | _ => exact hother rfl

/-- **Every event** writes what its call writes, and a refused one nothing. -/
theorem serverStep_writes (hs : WellFormed s.db.tables) (hfresh : ev.Fresh s.db.tables) :
    Writes s (serverStep s ev) ev := by
  rcases ev with ev | ⟨ids, caller, req⟩
  · rcases ev with ⟨caller, c⟩ | seconds
    · exact (handle_writes c hs hfresh).after
    · exact .nothing rfl rfl
  · have hcreate : Ends (createChannel ids caller req) s
        (fun _ s' => Writes s s' (.createChannel ids caller req))
        (fun _ s' => Writes s s' (.createChannel ids caller req)) :=
      (createChannel_spec caller hs hfresh).mono (fun _ _ => .create) (fun _ _ => .of_same)
    exact hcreate.after

theorem serverStep_wellFormed (hs : WellFormed s.db.tables) (hfresh : ev.Fresh s.db.tables) :
    WellFormed (serverStep s ev).db.tables := by
  rcases ev with ev | ⟨ids, caller, req⟩
  · exact step_wellFormed hs ev
  · have hcreate : Ends (createChannel ids caller req) s
        (fun _ s' => WellFormed s'.db.tables) (fun _ s' => WellFormed s'.db.tables) :=
      (createChannel_spec caller hs hfresh).mono (fun _ _ h => h.wellFormed hs hfresh)
        (fun _ _ h => by rw [h]; exact hs)
    exact hcreate.after

end Events

end Meza.Chat
