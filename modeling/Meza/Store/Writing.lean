import Meza.Store.ChatStore

/-! # Writing overrides and channels

    The unique indexes of `permission_overrides` allow one row for a scope and a
    subject, so the table is a map from these to pairs of masks, and every write
    is an update of the map. The last section says which writes PostgreSQL
    accepts. -/

namespace Meza.Store

open Permissions Table List Option ChatStore PermissionOverride OverrideScope Channel

/-! ## Section 1: The map -/

/-- The masks stored in a scope for a subject. -/
def overrideAt (rows : List PermissionOverride) (scope : OverrideScope)
    (subject : OverrideSubject) : Option Override :=
  (lookup target (scope, subject) rows).map (·.override)

section Map

variable {rows : List PermissionOverride} {scope : OverrideScope} {subject : OverrideSubject}

theorem overrideAt_of_mem (hu : UniqueOn target rows)
    {po : PermissionOverride} (hpo : po ∈ rows) :
    overrideAt rows po.scope po.subject = some po.override := by
  unfold overrideAt
  rw [show (po.scope, po.subject) = po.target from rfl, lookup_of_mem hu hpo]
  rfl

theorem overrideAt_eq_some {o : Override} (h : overrideAt rows scope subject = some o) :
    ∃ po ∈ rows, po.scope = scope ∧ po.subject = subject ∧ po.override = o := by
  obtain ⟨po, hlook, ho⟩ := map_eq_some_iff.mp h
  obtain ⟨hmem, htarget⟩ := mem_of_lookup hlook
  obtain ⟨hscope, hsubject⟩ := Prod.mk.inj htarget
  exact ⟨po, hmem, hscope, hsubject, ho⟩

theorem overrideAt_eq_none :
    overrideAt rows scope subject = none ↔
      ∀ po ∈ rows, ¬ (po.scope = scope ∧ po.subject = subject) := by
  unfold overrideAt
  rw [map_eq_none_iff, lookup_eq_none]
  refine forall₂_congr fun po _ => not_congr ?_
  exact Prod.mk.injEq _ _ _ _ ▸ .rfl

/-- Nothing is stored for a channel or category that does not exist. -/
theorem overrideAt_of_not_exists {t : Tables} (hc : t.Constraints) (h : ¬ scope.Exists t)
    (subject : OverrideSubject) : overrideAt t.permissionOverrides scope subject = none := by
  rw [overrideAt_eq_none]
  intro po hpo hsame
  have hexists := hc.roles.overridesScope po hpo
  rw [hsame.1] at hexists
  exact h hexists

/-! ## Section 2: Writes as updates of the map -/

/-- `SetOverride` writes both masks. -/
def writeOverride (rows : List PermissionOverride) (w : PermissionOverride) :
    List PermissionOverride :=
  upsert target (fun po => { po with allow := w.allow, deny := w.deny }) w rows

theorem overrideAt_writeOverride (w : PermissionOverride) :
    overrideAt (writeOverride rows w) scope subject =
      if (scope, subject) = w.target then some w.override
      else overrideAt rows scope subject := by
  unfold overrideAt writeOverride
  rw [lookup_upsert]
  · by_cases hk : (scope, subject) = w.target
    · rw [if_pos hk, if_pos hk]
      cases lookup target (scope, subject) rows with
      | none => rfl
      | some po => rfl
    · rw [if_neg hk, if_neg hk]
  · intro po
    rfl

theorem overrideAt_deleteWhere (q : OverrideScope → OverrideSubject → Prop)
    [∀ scope subject, Decidable (q scope subject)] :
    overrideAt (deleteWhere (fun po => q po.scope po.subject) rows) scope subject =
      if q scope subject then none else overrideAt rows scope subject := by
  have hlook : lookup target (scope, subject)
      (deleteWhere (fun po => q po.scope po.subject) rows) = _ :=
    lookup_deleteWhere_key target (fun k => decide (q k.1 k.2)) rows (scope, subject)
  unfold overrideAt
  rw [hlook]
  by_cases hq : q scope subject
  · simp [hq]
  · simp [hq]

theorem overrideAt_deleteOnTarget (targetID : ID) (deleted : OverrideSubject) :
    overrideAt (deleteWhere (fun po => po.onTarget targetID ∧ po.subject = deleted) rows)
        scope subject =
      if scope.id = targetID ∧ subject = deleted then none
      else overrideAt rows scope subject := by
  simp only [onTarget_iff]
  exact overrideAt_deleteWhere fun scope subject => scope.id = targetID ∧ subject = deleted

theorem OverrideScope.channel_ne {id id' : ID} (h : id ≠ id') : channel id ≠ .channel id' := by
  intro heq
  injection heq with heq
  exact h heq

/-- The toggle of the privacy flag: the deny is written and the allow of an
    existing row stays, or the row is deleted. -/
def toggled (isPrivate : Bool) (old : Option Override) : Option Override :=
  if isPrivate then some { allow := (old.map (·.allow)).getD 0, deny := viewChannel } else none

theorem overrideAt_hide (overrideID channelID everyoneRoleID : ID) :
    overrideAt (togglePrivacy overrideID channelID everyoneRoleID true rows) scope
        subject =
      if scope = .channel channelID ∧ subject = .role everyoneRoleID then
        toggled true (overrideAt rows scope subject)
      else overrideAt rows scope subject := by
  unfold togglePrivacy toggled overrideAt
  simp only [if_true]
  rw [lookup_upsert]
  · by_cases hk : scope = .channel channelID ∧ subject = .role everyoneRoleID
    · rw [if_pos hk, if_pos (by rw [hk.1, hk.2]; rfl)]
      cases lookup target (scope, subject) rows with
      | none => rfl
      | some po => rfl
    · have hne : (scope, subject) ≠
          (channel channelID, .role everyoneRoleID) :=
        fun h => hk (Prod.mk.inj h)
      rw [if_neg hk, if_neg (by exact hne)]
  · intro po
    rfl

theorem overrideAt_togglePrivacy (overrideID channelID everyoneRoleID : ID) (isPrivate : Bool)
    (hdisjoint : ∀ po ∈ rows, po.scope ≠ .group channelID) :
    overrideAt (togglePrivacy overrideID channelID everyoneRoleID isPrivate rows) scope
        subject =
      if scope = .channel channelID ∧ subject = .role everyoneRoleID then
        toggled isPrivate (overrideAt rows scope subject)
      else overrideAt rows scope subject := by
  cases isPrivate with
  | true => exact overrideAt_hide overrideID channelID everyoneRoleID
  | false =>
    unfold togglePrivacy toggled
    simp only [Bool.false_eq_true, if_false]
    rw [overrideAt_deleteOnTarget]
    -- the statement also looks for a category with the id, and there is none
    rcases scope with id | id
    · have hother : ¬ (group id = .channel channelID ∧
          subject = .role everyoneRoleID) := by
        intro h
        cases h.1
      rw [if_neg hother]
      by_cases hid : (group id).id = channelID ∧ subject = .role everyoneRoleID
      · rw [if_pos hid]
        symm
        rw [overrideAt_eq_none]
        intro po hpo hsame
        exact hdisjoint po hpo (hsame.1.trans (congrArg group hid.1))
      · rw [if_neg hid]
    · by_cases hid : id = channelID ∧ subject = .role everyoneRoleID
      · rw [if_pos (by exact hid), if_pos ⟨by rw [hid.1], hid.2⟩]
      · rw [if_neg (by exact hid), if_neg fun h => hid ⟨channel.inj h.1, h.2⟩]

theorem overrideAt_insertOverride {po : PermissionOverride} (hid : po.id ∉ rows.map (·.id)) :
    overrideAt (insertOverride rows po) scope subject =
      (overrideAt rows scope subject).or
        (if (scope, subject) = po.target then some po.override else none) := by
  unfold insertOverride
  split
  · rename_i hclash
    obtain ⟨row, hrow, hclash⟩ := any_eq_true.mp hclash
    rcases of_decide_eq_true hclash with hsame | htarget
    · exact absurd (mem_map.mpr ⟨row, hrow, hsame⟩) hid
    · by_cases hk : (scope, subject) = po.target
      · -- the target has a row, so there is something that stays
        have hsome : (overrideAt rows scope subject).isSome = true := by
          rw [isSome_iff_ne_none]
          intro hnone
          obtain ⟨hscope, hsubject⟩ := Prod.mk.inj (htarget.trans hk.symm)
          exact overrideAt_eq_none.mp hnone row hrow ⟨hscope, hsubject⟩
        obtain ⟨o, ho⟩ := isSome_iff_exists.mp hsome
        rw [ho]
        rfl
      · rw [if_neg hk, or_none]
  · unfold overrideAt Table.lookup
    rw [find?_append]
    cases rows.find? (fun row => row.target = (scope, subject)) with
    | some row => rfl
    | none =>
      by_cases hk : (scope, subject) = po.target
      · simp [hk]
      · have hne : ¬ po.target = (scope, subject) := fun h => hk h.symm
        simp [hk, hne]

theorem overrideAt_foldl_insertOverride (new : List PermissionOverride)
    (hids : ((new ++ rows).map (·.id)).Nodup) :
    overrideAt (new.foldl insertOverride rows) scope subject =
      (overrideAt rows scope subject).or (overrideAt new scope subject) := by
  induction new generalizing rows with
  | nil => simp [overrideAt, Table.lookup]
  | cons po new ih =>
    rw [cons_append, map_cons, nodup_cons] at hids
    obtain ⟨hfresh, hids⟩ := hids
    have hpo : po.id ∉ rows.map (·.id) := fun hmem =>
      hfresh (by rw [map_append]; exact mem_append_right _ hmem)
    rw [List.foldl_cons, ih, overrideAt_insertOverride hpo, Option.or_assoc]
    · congr 1
      unfold overrideAt Table.lookup
      by_cases hk : (scope, subject) = po.target
      · simp [hk]
      · have hne : ¬ po.target = (scope, subject) := fun h => hk h.symm
        simp [hk, hne]
    · -- the id of the copy is not drawn again
      unfold insertOverride
      split
      · exact hids
      · rw [← append_assoc, map_append, map_singleton, ← concat_eq_append]
        exact hids.concat hfresh

/-- Several writes, one after the other. -/
def writeAll (rows writes : List PermissionOverride) : List PermissionOverride :=
  writes.foldl writeOverride rows

theorem overrideAt_writeAll_of_none {writes : List PermissionOverride}
    (h : ∀ w ∈ writes, w.target ≠ (scope, subject)) :
    overrideAt (writeAll rows writes) scope subject = overrideAt rows scope subject := by
  unfold writeAll
  induction writes generalizing rows with
  | nil => rfl
  | cons w writes ih =>
    obtain ⟨hw, hwrites⟩ := forall_mem_cons.mp h
    rw [foldl_cons, ih hwrites, overrideAt_writeOverride, if_neg fun heq => hw heq.symm]

theorem overrideAt_writeAll_of_mem {writes : List PermissionOverride} {o : Override}
    (hmem : ∃ w ∈ writes, w.target = (scope, subject))
    (hall : ∀ w ∈ writes, w.target = (scope, subject) → w.override = o) :
    overrideAt (writeAll rows writes) scope subject = some o := by
  unfold writeAll
  induction writes generalizing rows with
  | nil =>
    obtain ⟨w, hw, -⟩ := hmem
    cases hw
  | cons w writes ih =>
    obtain ⟨hw, hwrites⟩ := forall_mem_cons.mp hall
    rw [foldl_cons]
    by_cases hlater : ∃ w' ∈ writes, w'.target = (scope, subject)
    · exact ih hlater hwrites
    · -- this is the last write to the target
      obtain ⟨w', hw', htarget⟩ := hmem
      rcases mem_cons.mp hw' with rfl | hw'
      · refine (overrideAt_writeAll_of_none ?_).trans ?_
        · intro w'' hw'' hsame
          exact hlater ⟨w'', hw'', hsame⟩
        · rw [overrideAt_writeOverride, if_pos htarget.symm, hw htarget]
      · exact absurd ⟨w', hw', htarget⟩ hlater

end Map

/-! ## Section 3: What PostgreSQL accepts -/

section Accepted

variable {t : Tables} {db : DB}

theorem Tables.Constraints.of_overrides (hc : t.Constraints)
    {permissionOverrides : List PermissionOverride}
    (hpk : Table.UniqueOn PermissionOverride.id permissionOverrides)
    (htarget : UniqueOn target permissionOverrides)
    (hscope : ∀ po ∈ permissionOverrides, po.scope.Exists t)
    (hsubject : ∀ po ∈ permissionOverrides, po.subject.Exists t) :
    ({ t with permissionOverrides } : Tables).Constraints where
  servers := { hc.servers with }
  channels := { hc.channels with }
  roles :=
    { hc.roles with
      overridesPK := hpk
      overridesTarget := htarget
      overridesScope := hscope
      overridesSubject := hsubject }

theorem commit_of_constraints (h : t.Constraints) : commit t = .ok ⟨t, h⟩ := by
  unfold commit
  rw [dif_pos h]

theorem commit_deleteWhere (p : PermissionOverride → Bool) :
    ∃ db', commit { db.tables with
      permissionOverrides := deleteWhere p db.tables.permissionOverrides } = .ok db' := by
  have hc := db.constraints
  refine ⟨_, commit_of_constraints (hc.of_overrides ?_ ?_ ?_ ?_)⟩
  · exact unique_deleteWhere hc.roles.overridesPK p
  · exact unique_deleteWhere hc.roles.overridesTarget p
  · intro po hpo
    exact hc.roles.overridesScope po (mem_deleteWhere.mp hpo).1
  · intro po hpo
    exact hc.roles.overridesSubject po (mem_deleteWhere.mp hpo).1

theorem setOverride_accepted {w : PermissionOverride} (hscope : w.scope.Exists db.tables)
    (hsubject : w.subject.Exists db.tables)
    (hid : w.id ∉ db.tables.permissionOverrides.map (·.id)) :
    ∃ stored db', setOverride db w = .ok (stored, db') := by
  have hc := db.constraints
  have hrow : ∀ po ∈ writeOverride db.tables.permissionOverrides w,
      po.scope.Exists db.tables ∧ po.subject.Exists db.tables := by
    intro po hpo
    rcases mem_upsert hpo with hpo | rfl | ⟨old, hold, -, rfl⟩
    · exact ⟨hc.roles.overridesScope po hpo, hc.roles.overridesSubject po hpo⟩
    · exact ⟨hscope, hsubject⟩
    · exact ⟨hc.roles.overridesScope old hold, hc.roles.overridesSubject old hold⟩
  have haccepted : ({ db.tables with
      permissionOverrides := writeOverride db.tables.permissionOverrides w } :
        Tables).Constraints := by
    refine hc.of_overrides ?_ ?_ (fun po hpo => (hrow po hpo).1) (fun po hpo => (hrow po hpo).2)
    · exact unique_upsert hc.roles.overridesPK (fun _ => rfl) fun _ => hid
    · refine unique_upsert hc.roles.overridesTarget (fun _ => rfl) ?_
      intro hnone hmem
      obtain ⟨po, hpo, htarget⟩ := mem_map.mp hmem
      rw [exists?_eq_true.mpr ⟨po, hpo, htarget⟩] at hnone
      cases hnone
  refine ⟨_, _, bind_eq_ok.mpr ⟨_, commit_of_constraints haccepted, rfl⟩⟩

variable {f : Channel → Channel}

theorem Tables.Constraints.of_channels (hc : t.Constraints) {p : Channel → Bool}
    (hid : ∀ c, (f c).id = c.id) (hserver : ∀ c, (f c).serverID = c.serverID)
    (hcompanion : ∀ c, (f c).voiceTextChannelID = c.voiceTextChannelID)
    (hslow : ∀ c, (f c).slowModeSeconds = c.slowModeSeconds)
    (hgroup : ∀ c ∈ t.channels, p c = true →
      References (f c).channelGroupID (t.channelGroups.map (·.id)))
    (hname : ((updateWhere p f t.channels).filterMap indexedName).Nodup)
    (hsynced : ∀ c ∈ t.channels, p c = true → (f c).permissionsSynced = true →
      (f c).channelGroupID ≠ none) :
    ({ t with channels := updateWhere p f t.channels } : Tables).Constraints := by
  have hids : (updateWhere p f t.channels).map (·.id) = t.channels.map (·.id) :=
    map_key_updateWhere hid p t.channels
  -- a column that a row keeps or takes from `f` meets what both meet
  have hrow : ∀ P : Channel → Prop, (∀ c ∈ t.channels, P c) →
      (∀ c ∈ t.channels, p c = true → P (f c)) → ∀ c' ∈ updateWhere p f t.channels, P c' := by
    intro P hold hnew c' hc'
    obtain ⟨c, hmem, rfl⟩ := mem_updateWhere.mp hc'
    split
    · rename_i hp
      exact hnew c hmem hp
    · exact hold c hmem
  refine ⟨{ hc.servers with }, ?_, ?_⟩
  · refine
      { hc.channels with
        channelsPK := (congrArg Nodup hids).mpr hc.channels.channelsPK
        channelsServer := hrow _ hc.channels.channelsServer ?_
        channelsGroup := hrow _ hc.channels.channelsGroup hgroup
        channelsCompanion := ?_
        channelsName := hname
        channelsSynced := hrow _ hc.channels.channelsSynced hsynced
        channelsSlowMode := hrow _ hc.channels.channelsSlowMode ?_
        membersChannel := ?_ }
    · intro c hmem _
      rw [hserver]
      exact hc.channels.channelsServer c hmem
    · show ∀ c ∈ updateWhere p f t.channels, References c.voiceTextChannelID
        ((updateWhere p f t.channels).map (·.id))
      rw [hids]
      refine hrow _ hc.channels.channelsCompanion ?_
      intro c hmem _
      rw [hcompanion]
      exact hc.channels.channelsCompanion c hmem
    · intro c hmem _
      rw [hslow]
      exact hc.channels.channelsSlowMode c hmem
    · intro cm hcm
      show cm.channelID ∈ (updateWhere p f t.channels).map (·.id)
      rw [hids]
      exact hc.channels.membersChannel cm hcm
  · refine { hc.roles with overridesScope := ?_ }
    intro po hpo
    have hexists := hc.roles.overridesScope po hpo
    rcases hscope : po.scope with id | id
    · rw [hscope] at hexists
      exact hexists
    · rw [hscope] at hexists
      show id ∈ (updateWhere p f t.channels).map (·.id)
      rw [hids]
      exact hexists

theorem indexedNames_updateWhere {p : Channel → Bool} (channels : List Channel)
    (h : ∀ c, (f c).indexedName = c.indexedName) :
    (updateWhere p f channels).filterMap indexedName = channels.filterMap indexedName := by
  unfold updateWhere
  rw [filterMap_map]
  refine filterMap_congr fun c _ => ?_
  show (if p c then f c else c).indexedName = _
  split
  · exact h c
  · rfl

theorem setPermissionsSynced_accepted (channelID : ID) :
    ∃ db', setPermissionsSynced db channelID false = .ok db' := by
  have hc := db.constraints
  have haccepted : ({ db.tables with
      channels := setSynced false channelID db.tables.channels } : Tables).Constraints := by
    refine hc.of_channels ?_ ?_ ?_ ?_ ?_ ?_ ?_
    -- the keys stay
    iterate 4 exact fun _ => rfl
    · intro c hmem _
      exact hc.channels.channelsGroup c hmem
    · refine (congrArg Nodup (indexedNames_updateWhere _ ?_)).mpr hc.channels.channelsName
      exact fun _ => rfl
    · intro c _ _ hsynced
      cases hsynced
  exact ⟨_, commit_of_constraints haccepted⟩

theorem indexedNames_rename (hc : t.Constraints) {channelID : ID}
    (hserver : ∀ c, (f c).serverID = c.serverID)
    (hfree : ∀ c ∈ t.channels, c.id = channelID → ∀ d ∈ t.channels, d.id ≠ channelID →
      d.voiceTextChannelID = none → d.serverID = c.serverID → d.name ≠ (f c).name) :
    ((updateWhere (fun c => c.id = channelID) f t.channels).filterMap indexedName).Nodup := by
  have hother : ∀ c ∈ t.channels, c.id = channelID → ∀ d ∈ t.channels, d.id ≠ channelID →
      ∀ key, (f c).indexedName = some key → d.indexedName ≠ some key := by
    intro c hmem hid d hd hne key hkey hkey'
    unfold indexedName at hkey hkey'
    split at hkey'
    · rename_i hplain
      split at hkey
      · obtain ⟨serverID, hs, rfl⟩ := map_eq_some_iff.mp hkey
        obtain ⟨serverID', hs', heq⟩ := map_eq_some_iff.mp hkey'
        obtain ⟨rfl, hname⟩ := Prod.mk.inj heq
        refine hfree c hmem hid d hd hne hplain ?_ hname
        rw [hs', ← hs, hserver]
      · cases hkey
    · cases hkey'
  have hold := pairwise_filterMap.mp hc.channels.channelsName
  have hpk : t.channels.Pairwise fun c d => c.id ≠ d.id :=
    pairwise_map.mp hc.channels.channelsPK
  unfold updateWhere
  rw [filterMap_map]
  refine pairwise_filterMap.mpr ?_
  refine .imp_of_mem ?_ (hold.and hpk)
  intro c d hmem hd hpair key hkey key' hkey' heq
  obtain ⟨hnames, hids⟩ := hpair
  subst heq
  simp only [Function.comp, decide_eq_true_eq] at hkey hkey'
  by_cases hid : c.id = channelID
  · have hne : d.id ≠ channelID := fun h => hids (hid.trans h.symm)
    rw [if_pos hid] at hkey
    rw [if_neg hne] at hkey'
    exact hother c hmem hid d hd hne key hkey hkey'
  · rw [if_neg hid] at hkey
    by_cases hid' : d.id = channelID
    · rw [if_pos hid'] at hkey'
      exact hother d hd hid' c hmem hid key hkey' hkey
    · rw [if_neg hid'] at hkey'
      exact hnames key hkey key hkey' rfl

/-- The update of a companion goes through if its category exists, its name is
    free and the CHECK on synced channels is met. -/
theorem updateCompanionChannel_accepted {companionID : ID} {name topic : Option String}
    {channelGroupID : Option ID}
    (hgroup : ∀ groupID ∈ channelGroupID, groupID ≠ "" →
      groupID ∈ db.tables.channelGroups.map (·.id))
    (hfree : ∀ newName ∈ name, ∀ c ∈ db.tables.channels, c.id = companionID →
      ∀ d ∈ db.tables.channels, d.id ≠ companionID → d.voiceTextChannelID = none →
        d.serverID = c.serverID → d.name ≠ newName)
    (hsynced : channelGroupID = some "" → ∀ c ∈ db.tables.channels, c.id = companionID →
      c.permissionsSynced = false) :
    ∃ db', updateCompanionChannel db companionID name topic channelGroupID = .ok db' := by
  have hc := db.constraints
  have haccepted : ({ db.tables with
      channels := patchChannels companionID { name, topic, channelGroupID }
        db.tables.channels } : Tables).Constraints := by
    refine hc.of_channels ?_ ?_ ?_ ?_ ?_ ?_ ?_
    iterate 3 exact fun _ => rfl
    · exact fun _ => none_or
    · intro c hmem _
      show References ((channelGroupID.map orNull).getD c.channelGroupID) _
      rcases hnew : channelGroupID with _ | groupID
      · exact hc.channels.channelsGroup c hmem
      · intro id hid
        by_cases hempty : groupID = ""
        · simp [orNull, hempty] at hid
        · simp only [map_some, getD_some, orNull, if_neg hempty,
            mem_def, some.injEq] at hid
          exact hid ▸ hgroup groupID hnew hempty
    · rcases hnew : name with _ | newName
      · refine (congrArg Nodup (indexedNames_updateWhere _ ?_)).mpr hc.channels.channelsName
        exact fun _ => rfl
      · refine indexedNames_rename hc ?_ ?_
        · exact fun _ => rfl
        · exact hfree newName hnew
    · intro c hmem hid hflag
      have hold : c.permissionsSynced = true := hflag
      show (channelGroupID.map orNull).getD c.channelGroupID ≠ none
      rcases hnew : channelGroupID with _ | groupID
      · exact hc.channels.channelsSynced c hmem hold
      · by_cases hempty : groupID = ""
        · rw [hempty] at hnew
          rw [hsynced hnew c hmem (of_decide_eq_true hid)] at hold
          cases hold
        · simp [orNull, hempty]
  exact ⟨_, commit_of_constraints haccepted⟩

end Accepted

end Meza.Store
