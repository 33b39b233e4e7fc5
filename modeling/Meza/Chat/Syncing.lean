import Mathlib.Data.Set.Lattice
import Mathlib.Order.CompletePartialOrder
import Meza.Chat.Onboarding

/-! # Synced channels

    A channel with `permissions_synced` takes its overrides from its category and
    stores none of its own. The flag is kept by hand: a channel that gets an
    override loses it. A new channel in a category starts with the flag and with
    copies of the category's overrides, the privacy toggle writes an override of
    its own, and what is mirrored to a text companion leaves the companion's flag
    as it is. -/

namespace Meza.Chat

open Store Permissions Action Table ChatStore List

/-! ## Section 1: Flags and overrides -/

/-- Synced channels are in a category and have no override of their own. -/
def SyncedBare (t : Tables) : Prop :=
  ∀ c ∈ t.channels, c.permissionsSynced = true →
    c.channelGroupID ≠ none ∧ ∀ po ∈ t.permissionOverrides, po.scope ≠ .channel c.id

instance (t : Tables) : Decidable (SyncedBare t) :=
  inferInstanceAs (Decidable (∀ _ ∈ t.channels, _))

/-- The ids of the channels with the flag. -/
def syncedIDs (channels : List Channel) : Set ID :=
  {id | ∃ c ∈ channels, c.id = id ∧ c.permissionsSynced = true}

/-- The ids of the channels with overrides of their own. -/
def overriddenIDs (rows : List PermissionOverride) : Set ID :=
  {id | ∃ po ∈ rows, po.scope = .channel id}

section Sets

variable {t t' : Tables}

/-- The CHECK of the table answers for the category. -/
theorem syncedBare_iff (hc : t.Constraints) :
    SyncedBare t ↔ Disjoint (syncedIDs t.channels) (overriddenIDs t.permissionOverrides) := by
  rw [Set.disjoint_left]
  constructor
  · intro h id hsynced hown
    obtain ⟨c, hmem, rfl, hflag⟩ := hsynced
    obtain ⟨po, hpo, hscope⟩ := hown
    exact (h c hmem hflag).2 po hpo hscope
  · intro h c hmem hflag
    refine ⟨hc.channels.channelsSynced c hmem hflag, ?_⟩
    intro po hpo hscope
    exact h ⟨c, hmem, rfl, hflag⟩ ⟨po, hpo, hscope⟩

theorem SyncedBare.of_new (h : SyncedBare t) (hc : t.Constraints)
    (hc' : t'.Constraints) (hflags : ∀ id ∈ syncedIDs t'.channels, id ∉ syncedIDs t.channels →
    id ∉ overriddenIDs t'.permissionOverrides) (hrows : ∀ id ∈ overriddenIDs t'.permissionOverrides,
    id ∉ overriddenIDs t.permissionOverrides → id ∉ syncedIDs t'.channels) : SyncedBare t' := by
  have hdisjoint := Set.disjoint_left.mp ((syncedBare_iff hc).mp h)
  refine (syncedBare_iff hc').mpr (Set.disjoint_left.mpr ?_)
  intro id hsynced hown
  by_cases hold : id ∈ syncedIDs t.channels
  · exact hrows id hown (hdisjoint hold) hsynced
  · exact hflags id hsynced hold hown

theorem SyncedBare.of_same (h : SyncedBare t) (hchannels : t'.channels = t.channels)
    (hrows : t'.permissionOverrides = t.permissionOverrides) : SyncedBare t' := by
  unfold SyncedBare
  rw [hchannels, hrows]
  exact h

theorem mem_overriddenIDs {rows : List PermissionOverride} {id : ID} :
    id ∈ overriddenIDs rows ↔ ∃ subject, overrideAt rows (.channel id) subject ≠ none := by
  constructor
  · intro h
    obtain ⟨po, hpo, hscope⟩ := h
    refine ⟨po.subject, ?_⟩
    intro hnone
    exact overrideAt_eq_none.mp hnone po hpo ⟨hscope, rfl⟩
  · intro h
    obtain ⟨subject, hsome⟩ := h
    obtain ⟨o, ho⟩ := Option.ne_none_iff_exists'.mp hsome
    obtain ⟨po, hpo, hscope, -⟩ := overrideAt_eq_some ho
    exact ⟨po, hpo, hscope⟩

theorem exists_of_overridden (hc : t.Constraints) {id : ID}
    (h : id ∈ overriddenIDs t.permissionOverrides) : id ∈ t.channels.map (·.id) := by
  obtain ⟨po, hpo, hscope⟩ := h
  have hexists := hc.roles.overridesScope po hpo
  rw [hscope] at hexists
  exact hexists

theorem syncedIDs_updateWhere {p : Channel → Bool} {f : Channel → Channel}
    (hid : ∀ c, (f c).id = c.id) (hflag : ∀ c, (f c).permissionsSynced = c.permissionsSynced)
    (channels : List Channel) :
    syncedIDs (updateWhere p f channels) = syncedIDs channels := by
  have hsame : ∀ c, (if p c = true then f c else c).id = c.id ∧
      (if p c = true then f c else c).permissionsSynced = c.permissionsSynced := by
    intro c
    split
    · exact ⟨hid c, hflag c⟩
    · exact ⟨rfl, rfl⟩
  ext id
  constructor
  · intro h
    obtain ⟨c, hmem, rfl, hsynced⟩ := h
    obtain ⟨old, hold, rfl⟩ := mem_updateWhere.mp hmem
    exact ⟨old, hold, (hsame old).1.symm, (hsame old).2.symm.trans hsynced⟩
  · intro h
    obtain ⟨old, hold, rfl, hsynced⟩ := h
    exact ⟨_, mem_updateWhere.mpr ⟨old, hold, rfl⟩, (hsame old).1, (hsame old).2.trans hsynced⟩

theorem syncedIDs_patch (channelID : ID) (patch : ChannelPatch)
    (channels : List Channel) :
    syncedIDs (patchChannels channelID patch channels) = syncedIDs channels :=
  syncedIDs_updateWhere (f := patch.apply) (fun _ => rfl) (fun _ => rfl) channels

theorem syncedIDs_unsync (channelID : ID) (channels : List Channel) :
    syncedIDs (setSynced false channelID channels) = syncedIDs channels \ {channelID} := by
  ext id
  constructor
  · intro h
    obtain ⟨c, hmem, rfl, hsynced⟩ := h
    obtain ⟨old, hold, rfl⟩ := mem_updateWhere.mp hmem
    by_cases hid : old.id = channelID
    · rw [if_pos (decide_eq_true hid)] at hsynced
      cases hsynced
    · rw [if_neg (by simpa using hid)] at hsynced ⊢
      exact ⟨⟨old, hold, rfl, hsynced⟩, hid⟩
  · intro h
    obtain ⟨⟨old, hold, rfl, hsynced⟩, hne⟩ := h
    refine ⟨old, mem_updateWhere.mpr ⟨old, hold, ?_⟩, rfl, hsynced⟩
    exact if_neg (by simpa using hne)

theorem syncedIDs_append (channels new : List Channel) :
    syncedIDs (channels ++ new) = syncedIDs channels ∪ syncedIDs new := by
  ext id
  constructor
  · intro h
    obtain ⟨c, hmem, hc⟩ := h
    rcases mem_append.mp hmem with hmem | hmem
    · exact .inl ⟨c, hmem, hc⟩
    · exact .inr ⟨c, hmem, hc⟩
  · intro h
    rcases h with ⟨c, hmem, hc⟩ | ⟨c, hmem, hc⟩
    · exact ⟨c, mem_append_left _ hmem, hc⟩
    · exact ⟨c, mem_append_right _ hmem, hc⟩

end Sets

/-! ## Section 2: What calls do to the flags -/

section Flags

variable {s : ChatState} {mirrorID : ID} {uuid : ID → ID → ID}

theorem mirrorOverride_channels {override : PermissionOverride} (db : DB) :
    (tried (mirrorOverride mirrorID override) db).tables.channels = db.tables.channels := by
  rw [mirrorOverride_eq, tried_onCompanion]
  split
  · rfl
  · unfold tried
    split
    · rename_i db' hset
      obtain ⟨⟨stored, db₁⟩, hset, heq⟩ := map_eq_ok.mp hset
      rw [← heq]
      show db₁.tables.channels = _
      rw [setOverride_ok hset]
    · rfl

theorem unsyncOverridden_flags {scope : OverrideScope} {db : DB}
    (hscope : ∀ channelID, scope = .channel channelID →
      channelID ∈ db.tables.channels.map (·.id)) :
    syncedIDs (tried (unsyncOverridden scope) db).tables.channels =
      {id ∈ syncedIDs db.tables.channels | scope ≠ .channel id} := by
  rcases scope with groupID | channelID
  · have hidle : tried (unsyncOverridden (.group groupID)) db = db := rfl
    rw [hidle]
    ext id
    simp
  · obtain ⟨c, hc, hid⟩ := mem_map.mp (hscope channelID rfl)
    have hlook : getChannel db.tables channelID = .ok c :=
      oneRow_ok.mpr (hid ▸ lookup_of_mem db.constraints.channels.channelsPK hc)
    have hset : {id ∈ syncedIDs db.tables.channels |
        OverrideScope.channel channelID ≠ .channel id} =
          syncedIDs db.tables.channels \ {channelID} := by
      ext id
      simp [eq_comm]
    rw [hset]
    by_cases hflag : c.permissionsSynced = true
    · have haccepted : ∃ db', setPermissionsSynced db channelID false = .ok db' :=
        setPermissionsSynced_accepted channelID
      obtain ⟨db', hdb'⟩ := haccepted
      have hrun : unsyncOverridden (.channel channelID) db = .ok db' :=
        bind_eq_ok.mpr ⟨c, hlook, by rw [if_pos hflag]; exact hdb'⟩
      unfold tried
      rw [hrun]
      show syncedIDs db'.tables.channels = _
      rw [commit_ok hdb']
      exact syncedIDs_unsync channelID db.tables.channels
    · have hrun : unsyncOverridden (.channel channelID) db = .ok db :=
        bind_eq_ok.mpr ⟨c, hlook, by rw [if_neg hflag]⟩
      unfold tried
      rw [hrun]
      -- a channel without the flag cannot lose it
      refine (Set.sdiff_singleton_eq_self ?_).symm
      intro hsynced
      obtain ⟨c', hc', hid', hflag'⟩ := hsynced
      have hsame := eq_of_key db.constraints.channels.channelsPK hc' hc (hid'.trans hid.symm)
      exact hflag (hsame ▸ hflag')

theorem setOverride_flags {db db₁ : DB} {override stored : PermissionOverride}
    (hset : setOverride db override = .ok (stored, db₁))
    (hscope : override.scope.Exists db.tables) :
    syncedIDs (tried (unsyncOverridden override.scope)
        (tried (mirrorOverride mirrorID override) db₁)).tables.channels =
      {id ∈ syncedIDs db.tables.channels | override.scope ≠ .channel id} := by
  have hchannels : (tried (mirrorOverride mirrorID override) db₁).tables.channels =
      db.tables.channels := by
    rw [mirrorOverride_channels, setOverride_ok hset]
  rw [unsyncOverridden_flags, hchannels]
  intro channelID heq
  rw [heq] at hscope
  rw [hchannels]
  exact hscope

theorem setPermissionOverride_flags {newID : ID} (caller : Option ID)
    (req : SetPermissionOverrideRequest) :
    Ends (setPermissionOverride newID mirrorID caller req) s
      (fun _ s' => ∃ target, resolveTargetServerID s.db.tables req.targetID = .ok target ∧
        syncedIDs s'.db.tables.channels =
          {id ∈ syncedIDs s.db.tables.channels | target.scope req.targetID ≠ .channel id})
      (fun _ s' => s' = s) := by
  refine (setPermissionOverride_steps newID mirrorID caller req s).mono ?_ (fun _ _ h => h)
  rintro _ _ ⟨target, subject, stored, db, _, hchecked, rfl, hset, rfl⟩
  exact ⟨target, hchecked.resolved,
    setOverride_flags hset (resolveTargetServerID_exists hchecked.resolved)⟩

theorem deletePermissionOverride_channels (caller : Option ID)
    (req : DeletePermissionOverrideRequest) :
    Ends (deletePermissionOverride caller req) s
      (fun _ s' => s'.db.tables.channels = s.db.tables.channels) (fun _ s' => s' = s) := by
  refine (deletePermissionOverride_steps caller req s).mono ?_ (fun _ _ h => h)
  rintro _ _ ⟨target, subject, db, -, hdel, rfl⟩
  have hchannels : db.tables.channels = s.db.tables.channels := by
    rw [deleteOverrideFor_ok hdel]
  show (tried _ db).tables.channels = _
  rw [mirrorDeletion_eq, tried_onCompanion]
  split
  · exact hchannels
  · rw [tried_deleteOverrideFor]
    exact hchannels

theorem tried_syncCompanion_flags (updated : Channel) (req : UpdateChannelRequest) (db : DB) :
    syncedIDs (tried (syncCompanion updated req) db).tables.channels =
      syncedIDs db.tables.channels := by
  unfold tried
  rcases hsync : syncCompanion updated req db with e | db'
  · rfl
  · unfold syncCompanion at hsync
    split at hsync
    · injection hsync with hsync
      rw [← hsync]
    · split at hsync
      · show syncedIDs db'.tables.channels = _
        rw [commit_ok hsync]
        exact syncedIDs_patch _ _ db.tables.channels
      · injection hsync with hsync
        rw [← hsync]

theorem tried_syncCompanionPrivacy_channels (mirrorID : ID) (ch updated : Channel)
    (req : UpdateChannelRequest) (db : DB) :
    (tried (syncCompanionPrivacy mirrorID ch updated req) db).tables.channels =
      db.tables.channels := by
  unfold tried
  rcases hsync : syncCompanionPrivacy mirrorID ch updated req db with e | db'
  · rfl
  · unfold syncCompanionPrivacy at hsync
    split at hsync
    · split at hsync
      · split at hsync
        · obtain ⟨⟨stored, db₁⟩, hset, heq⟩ := map_eq_ok.mp hsync
          rw [← heq]
          show db₁.tables.channels = _
          rw [setOverride_ok hset]
        · show db'.tables.channels = _
          rw [deleteOverrideOf_ok hsync]
      · injection hsync with hsync
        rw [← hsync]
    · injection hsync with hsync
      rw [← hsync]

theorem updateChannel_flags {overrideID : ID} (caller : Option ID) (req : UpdateChannelRequest) :
    Ends (updateChannel overrideID mirrorID uuid caller req) s
      (fun _ s' => ∃ ch, lookup Channel.id req.channelID s.db.tables.channels = some ch ∧
        syncedIDs s'.db.tables.channels = {id ∈ syncedIDs s.db.tables.channels |
          ¬ (id = req.channelID ∧ groupMove ch req = .enters)}) (fun _ s' => s' = s) := by
  refine (updateChannel_steps overrideID mirrorID uuid caller req s).mono ?_ (fun _ _ h => h)
  rintro _ _ ⟨ch, updated, db₁, db₂, hchecked, -, hdb₁, hrest, rfl⟩
  refine ⟨ch, hchecked.found, ?_⟩
  have hpatched : syncedIDs db₁.tables.channels = syncedIDs s.db.tables.channels := by
    rw [(storeUpdate_exact hdb₁ hchecked.found).2]
    exact syncedIDs_patch _ _ s.db.tables.channels
  rw [tried_syncCompanionPrivacy_channels, tried_syncCompanion_flags, hrest, ← hpatched]
  -- only entering a category costs the flag
  by_cases hmove : groupMove ch req = .enters
  · rw [if_pos hmove]
    refine (syncedIDs_unsync req.channelID db₁.tables.channels).trans ?_
    ext id
    simp [hmove]
  · rw [if_neg hmove]
    ext id
    simp [hmove]

theorem deleteChannelGroup_flags (caller : Option ID) (req : DeleteChannelGroupRequest) :
    Ends (deleteChannelGroup uuid caller req) s
      (fun _ s' => ∀ id ∈ syncedIDs s'.db.tables.channels, id ∈ syncedIDs s.db.tables.channels ∧
        ∀ c ∈ s.db.tables.channels, c.id = id → c.channelGroupID ≠ some req.channelGroupID)
      (fun _ s' => s' = s) := by
  refine (deleteChannelGroup_steps uuid caller req s).mono ?_ (fun _ _ h => h)
  rintro _ _ ⟨group, db, -, hdb, rfl⟩
  obtain ⟨_, -, hdb⟩ := bind_eq_ok.mp hdb
  show ∀ id ∈ syncedIDs db.tables.channels, _
  rw [commit_ok hdb]
  intro id hsynced
  obtain ⟨c, hmem, rfl, hflag⟩ := hsynced
  obtain ⟨old, hold, rfl⟩ := mem_updateWhere.mp hmem
  by_cases hin : old.channelGroupID = some req.channelGroupID
  · rw [if_pos (decide_eq_true hin)] at hflag
    cases hflag
  · rw [if_neg (by simpa using hin)] at hflag ⊢
    refine ⟨⟨old, hold, rfl, hflag⟩, ?_⟩
    intro c hc hid
    rwa [eq_of_key s.db.constraints.channels.channelsPK hc hold hid]

end Flags

/-! ## Section 3: What keeps synced channels bare -/

/-- An override for a role. -/
def OverrideSubject.isRole : OverrideSubject → Bool
  | .role _ => true
  | .user _ => false

/-- The text companion of a channel is not synced. -/
def CompanionUnsynced (t : Tables) (channelID : ID) : Prop :=
  ∀ d ∈ t.channels, companionOf t (.channel channelID) = some d.id → d.permissionsSynced = false

instance (t : Tables) (channelID : ID) : Decidable (CompanionUnsynced t channelID) :=
  inferInstanceAs (Decidable (∀ d ∈ t.channels, _ → _))

/-- A channel that is created in a category gets no override of its own: it is not
    private, and the category has none to copy. -/
def CreatesBare (t : Tables) (req : CreateChannelRequest) : Prop :=
  req.channelGroupID ≠ "" → channelPrivacy req t ≠ .ok true ∧
    ∀ po ∈ t.permissionOverrides, po.scope = .group req.channelGroupID →
      OverrideSubject.isRole po.subject = false

/-- A channel that is hidden is not synced, or moves into a category; its companion
    is not synced if it is hidden as well. -/
def HidesUnsynced (t : Tables) (req : UpdateChannelRequest) : Prop :=
  ∀ ch ∈ t.channels, ch.id = req.channelID → privacyToggle ch req = some true →
    (ch.permissionsSynced = false ∨ groupMove ch req = .enters) ∧
    (touchesCompanion req = true → CompanionUnsynced t req.channelID)

instance (t : Tables) (req : CreateChannelRequest) : Decidable (CreatesBare t req) :=
  inferInstanceAs (Decidable (_ → _))

def InstanceEvent.SparesSynced (t : Tables) : InstanceEvent → Prop
  | .server (.createChannel _ _ req) => CreatesBare t req
  | .server (.event (.call _ (.setPermissionOverride _ _ req))) => CompanionUnsynced t req.targetID
  | .server (.event (.call _ (.updateChannel _ _ _ req))) => HidesUnsynced t req
  | _ => True

/-- The ids drawn are new, and no synced channel gets an override. -/
structure KeepsSynced (s : ChatState) (ev : InstanceEvent) : Prop where
  fresh : ev.Fresh s.db.tables
  spares : ev.SparesSynced s.db.tables

section Steps

variable {s s' : ChatState} {req : CreateChannelRequest} {caller : Option ID} {t : Tables}

/-- Overrides that reach the companion do not reach a synced channel. -/
theorem CompanionUnsynced.notMem {channelID companionID : ID} (h : CompanionUnsynced t channelID)
    (hcompanion : companionID ∈ companionOf t (.channel channelID)) :
    companionID ∉ syncedIDs t.channels := by
  intro hsynced
  obtain ⟨d, hd, rfl, hflag⟩ := hsynced
  have hoff := h d hd hcompanion
  rw [hflag] at hoff
  cases hoff

theorem SyncedBare.of_set {req : SetPermissionOverrideRequest} {new : Option Override}
    (h : SyncedBare s.db.tables) (hrows : Replaced req.targetID req.roleID req.userID new s s')
    (hflags : ∃ target, resolveTargetServerID s.db.tables req.targetID = .ok target ∧
    syncedIDs s'.db.tables.channels =
    {id ∈ syncedIDs s.db.tables.channels | target.scope req.targetID ≠ .channel id})
    (hcompanion : CompanionUnsynced s.db.tables req.targetID) : SyncedBare s'.db.tables := by
  obtain ⟨target, htarget, hflags⟩ := hflags
  obtain ⟨target', subject, htarget', -, -, hrewritten⟩ := hrows.change
  rw [htarget] at htarget'
  injection htarget' with htarget'
  rw [← htarget'] at hrewritten
  refine h.of_new s.db.constraints s'.db.constraints ?_ ?_
  · intro id hsynced hnot
    rw [hflags] at hsynced
    exact absurd hsynced.1 hnot
  · intro id hown hnot hsynced
    rw [hflags] at hsynced
    obtain ⟨subject', hsome⟩ := mem_overriddenIDs.mp hown
    rw [hrewritten.overrides] at hsome
    unfold replaceAt at hsome
    split at hsome
    · rename_i hreached
      rcases hreached.1 with heq | ⟨companionID, hmem, heq⟩
      · exact hsynced.2 heq.symm
      · injection heq with heq
        rw [heq] at hsynced
        -- categories have no companion
        unfold OverrideTarget.scope at hmem
        split at hmem
        · cases hmem
        · exact hcompanion.notMem hmem hsynced.1
    · exact hnot (mem_overriddenIDs.mpr ⟨subject', hsome⟩)

theorem SyncedBare.of_delete {targetID roleID userID : ID} (h : SyncedBare s.db.tables)
    (hrows : Replaced targetID roleID userID none s s')
    (hchannels : s'.db.tables.channels = s.db.tables.channels) : SyncedBare s'.db.tables := by
  obtain ⟨target, subject, -, -, -, hrewritten⟩ := hrows.change
  refine h.of_new s.db.constraints s'.db.constraints ?_ ?_
  · intro id hsynced hnot
    rw [hchannels] at hsynced
    exact absurd hsynced hnot
  · intro id hown hnot
    obtain ⟨subject', hsome⟩ := mem_overriddenIDs.mp hown
    rw [hrewritten.overrides] at hsome
    unfold replaceAt at hsome
    split at hsome
    · exact absurd rfl hsome
    · exact absurd (mem_overriddenIDs.mpr ⟨subject', hsome⟩) hnot

theorem disjoint_syncChannel (channelID : ID)
    (h : Disjoint (syncedIDs t.channels) (overriddenIDs t.permissionOverrides)) :
    Disjoint (syncedIDs (syncChannel t channelID).channels)
      (overriddenIDs (syncChannel t channelID).permissionOverrides) := by
  rw [Set.disjoint_left] at h ⊢
  intro id hsynced hown
  obtain ⟨c, hmem, rfl, hflag⟩ := hsynced
  obtain ⟨old, hold, rfl⟩ := mem_updateWhere.mp hmem
  obtain ⟨po, hpo, hscope⟩ := hown
  obtain ⟨hpo, hkept⟩ := mem_deleteWhere.mp hpo
  have hne : po.scope ≠ .channel channelID := of_decide_eq_false hkept
  by_cases hid : old.id = channelID
  · rw [if_pos (decide_eq_true hid)] at hscope
    exact hne (hscope.trans (congrArg OverrideScope.channel hid))
  · rw [if_neg (by simpa using hid)] at hflag hscope
    exact h ⟨old, hold, rfl, hflag⟩ ⟨po, hpo, hscope⟩

theorem syncChannelPermissions_bare (caller : Option ID) (req : SyncChannelPermissionsRequest)
    (h : SyncedBare s.db.tables) :
    Ends (syncChannelPermissions caller req) s (fun _ s' => SyncedBare s'.db.tables)
      (fun _ s' => SyncedBare s'.db.tables) := by
  have hsteps := syncChannelPermissions_steps caller req s (Q := fun s' => SyncedBare s'.db.tables) ?_
  · exact hsteps.mono (fun _ _ h => h) fun _ s' hs' => hs'.elim (fun heq => heq ▸ h) id
  intro userID auth ch db _ _ _ hdb
  have hdisjoint := (syncedBare_iff s.db.constraints).mp h
  refine (syncedBare_iff db.constraints).mpr ?_
  show Disjoint (syncedIDs db.tables.channels) _
  rw [commit_ok hdb]
  cases ch.voiceTextChannelID with
  | none => exact disjoint_syncChannel req.channelID hdisjoint
  | some companionID =>
    exact disjoint_syncChannel companionID (disjoint_syncChannel req.channelID hdisjoint)

theorem SyncedBare.of_update {req : UpdateChannelRequest} (h : SyncedBare s.db.tables)
    (hrows : Updated req s s')
    (hflags : ∃ ch, lookup Channel.id req.channelID s.db.tables.channels = some ch ∧
      syncedIDs s'.db.tables.channels = {id ∈ syncedIDs s.db.tables.channels |
        ¬ (id = req.channelID ∧ groupMove ch req = .enters)})
    (hhides : HidesUnsynced s.db.tables req) : SyncedBare s'.db.tables := by
  have hc := s.db.constraints
  obtain ⟨ch, hlook, hflags⟩ := hflags
  obtain ⟨ch', hlook', -, -, -, hoverrides⟩ := hrows.change
  rw [hlook] at hlook'
  injection hlook' with hlook'
  rw [← hlook'] at hoverrides
  obtain ⟨hmem, hid⟩ := mem_of_lookup hlook
  refine h.of_new hc s'.db.constraints ?_ ?_
  · intro id hsynced hnot
    rw [hflags] at hsynced
    exact absurd hsynced.1 hnot
  · intro id hown hnot hsynced
    rw [hflags] at hsynced
    obtain ⟨subject, hsome⟩ := mem_overriddenIDs.mp hown
    rw [hoverrides] at hsome
    have hold : overrideAt s.db.tables.permissionOverrides (.channel id) subject = none := by
      by_contra hstored
      exact hnot (mem_overriddenIDs.mpr ⟨subject, hstored⟩)
    rw [hold] at hsome
    unfold updatedOverride at hsome
    rcases htoggle : privacyToggle ch req with _ | isPrivate
    · rw [htoggle] at hsome
      exact hsome rfl
    · rw [htoggle] at hsome
      dsimp only at hsome
      -- only hiding writes
      have hpriv : isPrivate = true := by
        cases isPrivate with
        | true => rfl
        | false =>
          refine absurd ?_ hsome
          unfold toggled
          simp
      rw [hpriv] at htoggle
      obtain ⟨hself, hcompanion⟩ := hhides ch hmem hid htoggle
      split at hsome
      · split at hsome
        · rename_i heq
          injection heq with heq
          rcases hself with hoff | henters
          · obtain ⟨c, hcmem, hcid, hflag⟩ := hsynced.1
            have hsame := eq_of_key hc.channels.channelsPK hcmem hmem
              (hcid.trans (heq.trans hid.symm))
            rw [hsame, hoff] at hflag
            cases hflag
          · exact hsynced.2 ⟨heq, henters⟩
        · split at hsome
          · rename_i htouch
            obtain ⟨htouch, companionID, hcomp, heq⟩ := htouch
            injection heq with heq
            refine (hcompanion htouch).notMem ?_ (heq ▸ hsynced.1)
            rw [companionOf_channel hlook]
            exact hcomp
          · exact hsome rfl
      · exact hsome rfl

theorem SyncedBare.of_dissolved {groupID : ID} (h : SyncedBare s.db.tables)
    (hrows : Dissolved groupID s s')
    (hflags : ∀ id ∈ syncedIDs s'.db.tables.channels, id ∈ syncedIDs s.db.tables.channels ∧
      ∀ c ∈ s.db.tables.channels, c.id = id → c.channelGroupID ≠ some groupID) :
    SyncedBare s'.db.tables := by
  refine h.of_new s.db.constraints s'.db.constraints ?_ ?_
  · intro id hsynced hnot
    exact absurd (hflags id hsynced).1 hnot
  · intro id hown hnot hsynced
    obtain ⟨subject, hsome⟩ := mem_overriddenIDs.mp hown
    rw [hrows.overrides] at hsome
    unfold dissolvedOverride at hsome
    dsimp only at hsome
    split at hsome
    · rename_i hin
      obtain ⟨c, hmem, hid, hgroup⟩ := hin
      exact (hflags id hsynced).2 c hmem hid hgroup
    · exact hnot (mem_overriddenIDs.mpr ⟨subject, hsome⟩)

theorem synced_of_mem_newChannels {ids : CreationIDs} {isPrivate : Bool} {c : Channel}
    (h : c ∈ newChannels ids req isPrivate t) (hsynced : c.permissionsSynced = true) :
    req.channelGroupID ≠ "" := by
  unfold newChannels at h
  split at h
  · rcases mem_cons.mp h with rfl | h
    · exact of_decide_eq_true hsynced
    · rw [mem_singleton.mp h] at hsynced
      exact of_decide_eq_true hsynced
  · rw [mem_singleton.mp h] at hsynced
    exact of_decide_eq_true hsynced

theorem initialOverride_bare {isPrivate : Bool} (hgroup : req.channelGroupID ≠ "")
    (hprivate : channelPrivacy req t = .ok isPrivate) (h : CreatesBare t req)
    (subject : OverrideSubject) :
    initialOverride req isPrivate t subject = none := by
  obtain ⟨hpublic, hcategory⟩ := h hgroup
  have hopen : isPrivate = false := by
    cases isPrivate with
    | false => rfl
    | true => exact absurd hprivate hpublic
  unfold initialOverride
  cases subject with
  | user userID => rfl
  | role roleID =>
    have hnone : overrideAt t.permissionOverrides (.group req.channelGroupID) (.role roleID) =
        none := by
      rw [overrideAt_eq_none]
      intro po hpo hsame
      have huser := hcategory po hpo hsame.1
      rw [hsame.2] at huser
      cases huser
    unfold inheritedOverride
    dsimp only
    rw [if_neg hgroup, hnone, hopen]
    simp

theorem SyncedBare.of_created {ids : CreationIDs} (h : SyncedBare s.db.tables)
    (hs : WellFormed s.db.tables) (hcreated : Created ids caller req s s')
    (hbare : CreatesBare s.db.tables req) : SyncedBare s'.db.tables := by
  obtain ⟨isPrivate, hprivate, hchannels, hoverrides⟩ := hcreated.overrideAt hs
  refine h.of_new s.db.constraints s'.db.constraints ?_ ?_
  · -- a channel that is synced from the start
    intro id hsynced hnot hown
    rw [hchannels, syncedIDs_append] at hsynced
    rcases hsynced with hsynced | hsynced
    · exact hnot hsynced
    · obtain ⟨c, hmem, rfl, hflag⟩ := hsynced
      have hgroup := synced_of_mem_newChannels hmem hflag
      obtain ⟨subject, hsome⟩ := mem_overriddenIDs.mp hown
      rw [hoverrides, if_pos (mem_map_of_mem (of_mem_newChannels hmem).1)] at hsome
      exact hsome (initialOverride_bare hgroup hprivate hbare subject)
  · -- new overrides belong to new channels
    intro id hown hnot hsynced
    obtain ⟨subject, hsome⟩ := mem_overriddenIDs.mp hown
    rw [hoverrides] at hsome
    split at hsome
    · rw [hchannels, syncedIDs_append] at hsynced
      rcases hsynced with hsynced | hsynced
      · obtain ⟨c, hmem, rfl, -⟩ := hsynced
        rename_i hscope
        exact hcreated.notMem_created hmem hscope
      · obtain ⟨c, hmem, -, hflag⟩ := hsynced
        have hgroup := synced_of_mem_newChannels hmem hflag
        exact hsome (initialOverride_bare hgroup hprivate hbare subject)
    · exact hnot (mem_overriddenIDs.mpr ⟨subject, hsome⟩)

theorem SyncedBare.of_founded {ids : TemplateIDs} {req : CreateServerFromTemplateRequest}
    (h : SyncedBare s.db.tables) (hfounded : Founded ids req s s') : SyncedBare s'.db.tables := by
  have hc := s.db.constraints
  have hc' := s'.db.constraints
  obtain ⟨userID, invites, channelMembers, -, hchange⟩ := hfounded.change
  have hpk := hc'.channels.channelsPK
  refine h.of_new hc hc' ?_ ?_
  · intro id hsynced hnot hown
    rw [hchange.tables] at hsynced hown hpk
    obtain ⟨c, hmem, rfl, hflag⟩ := hsynced
    rcases mem_append.mp hmem with hold | hnew
    · exact hnot ⟨c, hold, rfl, hflag⟩
    · obtain ⟨po, hpo, hscope⟩ := hown
      rcases mem_append.mp hpo with hpo | hpo
      · have hexists := exists_of_overridden hc ⟨po, hpo, hscope⟩
        exact ne_of_append hpk hexists hnew rfl
      · obtain ⟨d, hd, hid, hoff⟩ := unsynced_of_gate hpo hscope
        have hsame := eq_of_key hpk (mem_append_right _ hd) hmem hid
        rw [hsame, hflag] at hoff
        cases hoff
  · intro id hown hnot hsynced
    rw [hchange.tables] at hown hsynced hpk
    obtain ⟨po, hpo, hscope⟩ := hown
    rcases mem_append.mp hpo with hpo | hpo
    · exact hnot ⟨po, hpo, hscope⟩
    · obtain ⟨d, hd, hid, hoff⟩ := unsynced_of_gate hpo hscope
      obtain ⟨c, hmem, hcid, hflag⟩ := hsynced
      have hsame := eq_of_key hpk (mem_append_right _ hd) hmem (hid.trans hcid.symm)
      rw [hsame, hflag] at hoff
      cases hoff

theorem SyncedBare.of_roleDeleted {req : DeleteRoleRequest} (h : SyncedBare s.db.tables)
    (hdeleted : RoleDeleted caller req s s') : SyncedBare s'.db.tables := by
  obtain ⟨userID, auth, role, -, -, -, -, hchange⟩ := hdeleted.rights
  intro c hmem hflag
  rw [hchange.tables] at hmem ⊢
  obtain ⟨hgroup, hbare⟩ := h c hmem hflag
  exact ⟨hgroup, fun po hpo => hbare po (mem_deleteWhere.mp hpo).1⟩

/-! ## Section 4: Steps and runs -/

theorem handle_syncedBare {c : Call} (hs : WellFormed s.db.tables) (hinv : SyncedBare s.db.tables)
    (hfresh : c.Fresh s.db.tables)
    (hspares : InstanceEvent.SparesSynced s.db.tables (.server (.event (.call caller c)))) :
    Ends (c.handle caller) s (fun _ s' => SyncedBare s'.db.tables)
      (fun _ s' => SyncedBare s'.db.tables) := by
  have hsame : ∀ s', s' = s → SyncedBare s'.db.tables := by
    intro s' h
    rw [h]
    exact hinv
  -- what writes neither table, or takes overrides with a role
  have hother : c.rewrites = false → Ends (c.handle caller) s
      (fun _ s' => SyncedBare s'.db.tables) (fun _ s' => SyncedBare s'.db.tables) := by
    intro hother
    have hout : ∀ s', Outcome caller c s s' → SyncedBare s'.db.tables := by
      intro s' hout
      have hwrites := hout.writes hs hother
      cases hwrites with
      | nothing hchannels hrows => exact hinv.of_same hchannels hrows
      | deleteRole _ hrewritten =>
        rcases hout with hfill | ⟨invites, hchange⟩ | heffect
        · exact hinv.of_same (by rw [hfill.db]) (by rw [hfill.db])
        · exact hinv.of_same (by rw [hchange.tables]) (by rw [hchange.tables])
        · exact hinv.of_roleDeleted heffect
      | _ => cases hother
    exact (handle_spec caller c s hs.channels.channelIDs).mono
      (fun _ s' h => hout s' (.done h)) (fun _ => hout)
  cases c with
  | setPermissionOverride newID mirrorID req =>
    refine ends_ignore (((setPermissionOverride_replaced caller req s hfresh.1 hfresh.2).and
      (setPermissionOverride_flags caller req)).mono ?_ (fun _ s' h => hsame s' h.1))
    intro _ s' h
    exact hinv.of_set h.1 h.2 hspares
  | deletePermissionOverride req =>
    refine ((deletePermissionOverride_replaced caller req s hs).and
      (deletePermissionOverride_channels caller req)).mono ?_ (fun _ s' h => hsame s' h.1)
    intro _ s' h
    exact hinv.of_delete h.1 h.2
  | syncChannelPermissions req => exact ends_ignore (syncChannelPermissions_bare caller req hinv)
  | updateChannel overrideID mirrorID uuid req =>
    refine ends_ignore (((updateChannel_updated caller req s hs hfresh.1 hfresh.2).and
      (updateChannel_flags caller req)).mono ?_ (fun _ s' h => hsame s' h.1))
    intro _ s' h
    exact hinv.of_update h.1 h.2 hspares
  | deleteChannelGroup uuid req =>
    refine ((deleteChannelGroup_dissolved caller req s hfresh).and
      (deleteChannelGroup_flags caller req)).mono ?_ (fun _ s' h => hsame s' h.1)
    intro _ s' h
    exact hinv.of_dissolved h.1 h.2
  | _ => exact hother rfl

/-- **Every event** that gives no override to a synced channel keeps them bare. -/
theorem instanceStep_syncedBare {ev : InstanceEvent} (hs : WellFormed s.db.tables)
    (hinv : SyncedBare s.db.tables) (hkeeps : KeepsSynced s ev) :
    SyncedBare (instanceStep s ev).db.tables := by
  have hsame : ∀ (_ : ConnectError) s', s' = s → SyncedBare s'.db.tables := by
    intro _ s' h
    rw [h]
    exact hinv
  obtain ⟨hfresh, hspares⟩ := hkeeps
  cases ev with
  | createServer serverID channelID caller req =>
    refine Ends.after ((createServer_spec serverID channelID caller req).mono ?_ hsame)
    intro _ s' h
    obtain ⟨userID, hcreate⟩ := h
    rw [commit_ok hcreate]
    intro c hmem hflag
    rcases mem_append.mp hmem with hmem | hmem
    · exact hinv c hmem hflag
    · rw [mem_singleton.mp hmem] at hflag
      cases hflag
  | createServerFromTemplate ids codes caller req =>
    refine Ends.after ((createServerFromTemplate_spec ids codes caller req).mono ?_ hsame)
    intro _ s' h
    exact hinv.of_founded h
  | updateServer caller req =>
    refine Ends.after ((updateServer_spec caller req s).mono ?_ hsame)
    intro _ s' h
    exact hinv.of_same (by rw [h.change.tables]) (by rw [h.change.tables])
  | server ev =>
    rcases ev with ev | ⟨ids, caller, req⟩
    · rcases ev with ⟨caller, c⟩ | seconds
      · exact (handle_syncedBare hs hinv hfresh hspares).after
      · exact hinv
    · refine Ends.after ((createChannel_spec caller hs hfresh).mono ?_ hsame)
      intro _ s' h
      exact hinv.of_created hs h hspares

/-- **Synced channels are bare**: in every state of a run whose steps give no override
    to a channel that stays synced, a channel with the flag is in a category and has
    no override of its own. -/
theorem permissionsSynced_bare (s : ChatState) (hs : WellFormed s.db.tables)
    (hinv : SyncedBare s.db.tables) (evs : List InstanceEvent)
    (hrun : Run.Guarded instanceStep KeepsSynced s evs) :
    SyncedBare (Run.exec instanceStep s evs).db.tables := by
  have hstep : ∀ s ev, (WellFormed s.db.tables ∧ SyncedBare s.db.tables) →
      KeepsSynced s ev → WellFormed (instanceStep s ev).db.tables ∧
        SyncedBare (instanceStep s ev).db.tables := by
    intro s ev h hkeeps
    exact ⟨instanceStep_wellFormed h.1 hkeeps.fresh, instanceStep_syncedBare h.1 h.2 hkeeps⟩
  exact (Run.exec_invariant hstep ⟨hs, hinv⟩ hrun).2

end Steps

def clubIDs : TemplateIDs where
  serverID := "club"
  group := fun _ => "team"
  channel := fun _ => "lobby"
  companion := fun _ => "lobby text"
  role := fun _ => "role"
  deny := fun id => "deny " ++ id
  allow := fun id _ => "allow " ++ id

/-- A club with one category and a channel outside it. -/
def clubRequest : CreateServerFromTemplateRequest where
  name := "club"
  channels := [{ name := "lobby" }]
  channelGroups := [{ name := "team" }]

def clubFounded : InstanceEvent :=
  .createServerFromTemplate clubIDs ("first", "second") (some "owner") clubRequest

/-- A new channel in the category, of the given type. -/
def loungeCreated (type : Nat) (isPrivate : Bool) : InstanceEvent :=
  .server (.createChannel
    { channelID := "lounge", companionID := "lounge text", deny := fun id => "hide " ++ id,
      copy := fun overrideID id => overrideID ++ " " ++ id } (some "owner")
    { serverID := "club", name := "lounge", type, isPrivate, channelGroupID := "team" })

/-- Everyone is silenced in a category or channel. -/
def silenced (targetID : ID) : InstanceEvent :=
  .server (.event (.call (some "owner") (.setPermissionOverride "silence" "mirror"
    { targetID, roleID := "club", allow := 0, deny := sendMessages })))

def loungeHidden : InstanceEvent :=
  .server (.event (.call (some "owner") (.updateChannel "hide" "mirror" (fun _ id => id)
    { channelID := "lounge", isPrivate := some true })))

def loungeSynced : InstanceEvent :=
  .server (.event (.call (some "owner") (.syncChannelPermissions { channelID := "lounge" })))

theorem clubFounded_fresh : clubFounded.Fresh emptyInstance.db.tables := by
  refine ⟨by decide, ?_, ?_⟩
  · intro userID
    exact (by decide : ∀ c ∈ templateChannels clubIDs (clubRequest.toParams "owner"),
      c.id ≠ "")
  · intro userID
    exact (by decide : ∀ c ∈ templateChannels clubIDs (clubRequest.toParams "owner"),
      ∀ g ∈ templateGroups clubIDs (clubRequest.toParams "owner"), c.id ≠ g.id)

/-- The lounge gets an override, loses the flag, and is synced again. -/
theorem permissionsSynced_bare_lounge :
    SyncedBare (Run.exec instanceStep emptyInstance
      [clubFounded, loungeCreated 1 false, silenced "lounge", loungeSynced]).db.tables := by
  refine permissionsSynced_bare emptyInstance (wellFormed_users _) (by decide) _
    ⟨⟨clubFounded_fresh, trivial⟩, ⟨?_, ?_⟩, ⟨⟨?_, ?_⟩, ?_⟩, ⟨trivial, trivial⟩, trivial⟩
  · exact ⟨by decide +kernel, by decide +kernel, by decide +kernel⟩
  · show CreatesBare _ _
    decide +kernel
  · decide +kernel
  · decide +kernel
  · show CompanionUnsynced _ _
    decide +kernel

/-- What a run of the club stores at its end. -/
def clubBare (evs : List InstanceEvent) : Bool :=
  SyncedBare (Run.exec instanceStep emptyInstance (clubFounded :: evs)).db.tables

/-- A private lounge, a lounge in a category with an override, the companion of a
    lounge with a voice, and a lounge that is hidden later: each is synced and has an
    override of its own. -/
theorem lounge_synced_overridden :
    clubBare [] = true ∧
    clubBare [loungeCreated 1 true] = false ∧
    clubBare [silenced "team", loungeCreated 1 false] = false ∧
    clubBare [loungeCreated 2 false, silenced "lounge"] = false ∧
    clubBare [loungeCreated 1 false, loungeHidden] = false := by
  refine ⟨?_, ?_, ?_, ?_, ?_⟩
  · decide +kernel
  · decide +kernel
  · decide +kernel
  · decide +kernel
  · decide +kernel

end Meza.Chat
