import Meza.Store.Writing

/-! # Hiding a channel and showing it again

    `UpdateChannelPrivacy` manages "the ViewChannel permission override on
    `@everyone`" together with the flag of the channel. There is no such
    override: there is one row for `@everyone`, with all the bits that somebody
    set for it. Hiding writes the whole deny mask of that row and showing deletes
    the row, so the way back leads to the old state only from a row that was
    about ViewChannel alone. -/

namespace Meza.Store.ChatStore

open Permissions Table

/-! ## Section 1: The two calls -/

/-- The bits that are none of the toggle's business. -/
def outsideView (m : Mask) : Mask := m &&& ~~~viewChannel

/-- What the channel stores for `@everyone`; no row counts as no bit. -/
def everyoneMasks (rows : List PermissionOverride) (channelID everyoneRoleID : ID) : Override :=
  (overrideAt rows (.channel channelID) (.role everyoneRoleID)).getD { allow := 0, deny := 0 }

def SameOutsideView (o o' : Override) : Prop :=
  outsideView o'.allow = outsideView o.allow ∧ outsideView o'.deny = outsideView o.deny

/-- The override of the channel for `@everyone`. -/
def IsEveryoneRow (channelID everyoneRoleID : ID) (po : PermissionOverride) : Prop :=
  po.target = (.channel channelID, .role everyoneRoleID)

/-- A public channel is made private and then public again; the other fields of
    the two requests are free. -/
structure RoundTrip (db db₁ db₂ : DB) (channelID everyoneRoleID : ID) : Prop where
  isPublic : ∃ c ∈ db.tables.channels, c.id = channelID ∧ c.isPrivate = false
  hidden : ∃ overrideID patch ch, patch.isPrivate = some true ∧
    updateChannelPrivacy db overrideID channelID patch true everyoneRoleID = .ok (ch, db₁)
  shown : ∃ overrideID patch ch, patch.isPrivate = some false ∧
    updateChannelPrivacy db₁ overrideID channelID patch false everyoneRoleID = .ok (ch, db₂)

/-- Nothing but ViewChannel was touched, in between and in the end. -/
structure OnlyViewTouched (db db₁ db₂ : DB) (channelID everyoneRoleID : ID) : Prop where
  /-- The other overrides are the same rows in the same order. -/
  others : AgreeOutside (IsEveryoneRow channelID everyoneRoleID)
    db.tables.permissionOverrides db₂.tables.permissionOverrides
  hidden : SameOutsideView (everyoneMasks db.tables.permissionOverrides channelID everyoneRoleID)
    (everyoneMasks db₁.tables.permissionOverrides channelID everyoneRoleID)
  shown : SameOutsideView (everyoneMasks db.tables.permissionOverrides channelID everyoneRoleID)
    (everyoneMasks db₂.tables.permissionOverrides channelID everyoneRoleID)

/-- The overrides for `@everyone` that the channel's id names are the channel's
    own and mention no other bit. -/
def OnlyViewStored (rows : List PermissionOverride) (channelID everyoneRoleID : ID) : Prop :=
  ∀ po ∈ rows, po.onTarget channelID = true → po.subject = .role everyoneRoleID →
    po.scope = .channel channelID ∧ outsideView po.allow = 0 ∧ outsideView po.deny = 0

/-! ## Section 2: The row on its way -/

section Rows

variable {rows : List PermissionOverride} {overrideID channelID everyoneRoleID : ID}

theorem everyoneMasks_hide :
    everyoneMasks (togglePrivacy overrideID channelID everyoneRoleID true rows) channelID
        everyoneRoleID =
      { allow := (everyoneMasks rows channelID everyoneRoleID).allow, deny := viewChannel } := by
  unfold everyoneMasks
  rw [overrideAt_hide, if_pos ⟨rfl, rfl⟩]
  cases overrideAt rows (.channel channelID) (.role everyoneRoleID) with
  | none => rfl
  | some o => rfl

theorem everyoneMasks_show :
    everyoneMasks (togglePrivacy overrideID channelID everyoneRoleID false rows) channelID
      everyoneRoleID = { allow := 0, deny := 0 } := by
  have hnone : overrideAt (togglePrivacy overrideID channelID everyoneRoleID false rows)
      (.channel channelID) (.role everyoneRoleID) = none := by
    unfold togglePrivacy
    simp only [Bool.false_eq_true, if_false]
    rw [overrideAt_deleteOnTarget, if_pos ⟨rfl, rfl⟩]
  unfold everyoneMasks
  rw [hnone]
  rfl

theorem agreeOutside_hide :
    AgreeOutside (IsEveryoneRow channelID everyoneRoleID) rows
      (togglePrivacy overrideID channelID everyoneRoleID true rows) := by
  refine agreeOutside_upsert rfl ?_
  intro po hpo
  exact ⟨hpo, hpo⟩

theorem OnlyViewStored.masks (h : OnlyViewStored rows channelID everyoneRoleID) :
    outsideView (everyoneMasks rows channelID everyoneRoleID).allow = 0 ∧
      outsideView (everyoneMasks rows channelID everyoneRoleID).deny = 0 := by
  unfold everyoneMasks
  cases hrow : overrideAt rows (.channel channelID) (.role everyoneRoleID) with
  | none => exact ⟨rfl, rfl⟩
  | some o =>
    obtain ⟨po, hpo, hscope, hsubject, rfl⟩ := overrideAt_eq_some hrow
    have hon : po.onTarget channelID = true := onTarget_iff.mpr (by rw [hscope]; rfl)
    exact (h po hpo hon hsubject).2

/-- Showing deletes no other row if the id names no other. -/
theorem agreeOutside_show
    (h : ∀ po ∈ rows, po.onTarget channelID = true → po.subject = .role everyoneRoleID →
      po.scope = .channel channelID) :
    AgreeOutside (IsEveryoneRow channelID everyoneRoleID) rows
      (togglePrivacy overrideID channelID everyoneRoleID false rows) := by
  refine agreeOutside_deleteWhere ?_
  intro po hpo hdeleted
  obtain ⟨hon, hsubject⟩ := of_decide_eq_true hdeleted
  exact Prod.ext (h po hpo hon hsubject) hsubject

theorem notMem_show {po : PermissionOverride} (hon : po.onTarget channelID = true)
    (hsubject : po.subject = .role everyoneRoleID) :
    po ∉ togglePrivacy overrideID channelID everyoneRoleID false rows := by
  intro hpo
  have hkept := (mem_deleteWhere.mp hpo).2
  simp [hon, hsubject] at hkept

end Rows

theorem outsideView_zero : outsideView 0 = 0 := by decide

theorem outsideView_viewChannel : outsideView viewChannel = 0 := by decide

/-! ## Section 3: The way back -/

section Trip

variable {db db₁ db₂ : DB} {channelID everyoneRoleID : ID}

theorem RoundTrip.rows (h : RoundTrip db db₁ db₂ channelID everyoneRoleID) :
    (∃ overrideID, db₁.tables.permissionOverrides =
      togglePrivacy overrideID channelID everyoneRoleID true db.tables.permissionOverrides) ∧
    ∃ overrideID, db₂.tables.permissionOverrides =
      togglePrivacy overrideID channelID everyoneRoleID false db₁.tables.permissionOverrides := by
  obtain ⟨hideID, hidePatch, ch, -, hhide⟩ := h.hidden
  obtain ⟨showID, showPatch, ch', -, hshow⟩ := h.shown
  obtain ⟨-, hhide⟩ := updateChannelPrivacy_ok hhide
  obtain ⟨-, hshow⟩ := updateChannelPrivacy_ok hshow
  exact ⟨⟨hideID, by rw [hhide]⟩, ⟨showID, by rw [hshow]⟩⟩

/-- The ids of a hidden channel name the same kinds of rows as before. -/
theorem scope_hide {rows : List PermissionOverride} {overrideID : ID}
    (h : OnlyViewStored rows channelID everyoneRoleID) :
    ∀ po ∈ togglePrivacy overrideID channelID everyoneRoleID true rows,
      po.onTarget channelID = true → po.subject = .role everyoneRoleID →
        po.scope = .channel channelID := by
  intro po hpo hon hsubject
  rcases mem_upsert hpo with hold | rfl | ⟨old, -, htarget, rfl⟩
  · exact (h po hold hon hsubject).1
  · rfl
  · exact congrArg Prod.fst htarget

/-- **There and back**: making a public channel private and public again leaves
    everything but ViewChannel alone exactly if the override of the channel for
    `@everyone` had no other bit. -/
theorem roundTrip_onlyViewTouched_iff (h : RoundTrip db db₁ db₂ channelID everyoneRoleID) :
    OnlyViewTouched db db₁ db₂ channelID everyoneRoleID ↔
      OnlyViewStored db.tables.permissionOverrides channelID everyoneRoleID := by
  obtain ⟨⟨hideID, hhide⟩, ⟨showID, hshow⟩⟩ := h.rows
  constructor
  · intro htouched po hpo hon hsubject
    have hscope : po.scope = .channel channelID := by
      -- a row of a category with the id is deleted, though it is another row
      by_contra hother
      have hne : ¬ IsEveryoneRow channelID everyoneRoleID po :=
        fun htarget => hother (congrArg Prod.fst htarget)
      have hkept := (htouched.others.mem_iff hne).mpr hpo
      rw [hshow] at hkept
      exact notMem_show hon hsubject hkept
    have hmasks : everyoneMasks db.tables.permissionOverrides channelID everyoneRoleID =
        po.override := by
      unfold everyoneMasks
      rw [← hscope, ← hsubject, overrideAt_of_mem db.constraints.roles.overridesTarget hpo]
      rfl
    have hshown := htouched.shown
    rw [hshow, everyoneMasks_show, hmasks] at hshown
    exact ⟨hscope, hshown.1.symm.trans outsideView_zero, hshown.2.symm.trans outsideView_zero⟩
  · intro hstored
    obtain ⟨hallow, hdeny⟩ := hstored.masks
    refine ⟨?_, ?_, ?_⟩
    · have hhidden : AgreeOutside (IsEveryoneRow channelID everyoneRoleID)
          db.tables.permissionOverrides
          (togglePrivacy hideID channelID everyoneRoleID true db.tables.permissionOverrides) :=
        agreeOutside_hide
      rw [hshow, hhide]
      exact hhidden.trans (agreeOutside_show (scope_hide hstored))
    · rw [hhide, everyoneMasks_hide]
      exact ⟨rfl, outsideView_viewChannel.trans hdeny.symm⟩
    · rw [hshow, everyoneMasks_show]
      exact ⟨outsideView_zero.trans hallow.symm, outsideView_zero.trans hdeny.symm⟩

end Trip

def lobby (isPrivate : Bool) : Channel :=
  { id := "lobby", serverID := some "srv", name := "lobby", isPrivate }

/-- A channel that everybody reads and where a moderator speaks. -/
def lobbyTables (isPrivate : Bool) (permissionOverrides : List PermissionOverride) : Tables where
  users := [{ id := "owner", signingPublicKey := none }, { id := "mod", signingPublicKey := none }]
  servers := [{ id := "srv", ownerID := "owner" }]
  channels := [lobby isPrivate]
  roles := [{ id := "srv", serverID := "srv", name := "@everyone",
              permissions := viewChannel ||| sendMessages, position := 0 }]
  permissionOverrides

/-- The moderator may speak. -/
def modSpeaks : PermissionOverride :=
  { id := "speaks", scope := .channel "lobby", subject := .user "mod", allow := sendMessages,
    deny := 0 }

/-- The others may only read. -/
def quiet (deny : Mask) : PermissionOverride :=
  { id := "quiet", scope := .channel "lobby", subject := .role "srv", allow := 0, deny }

theorem roundTrip_lobby {rows : List PermissionOverride}
    (hc : (lobbyTables false rows).Constraints)
    (hhidden : (lobbyTables true (togglePrivacy "new" "lobby" "srv" true rows)).Constraints)
    (hshown : (lobbyTables false (togglePrivacy "" "lobby" "srv" false
      (togglePrivacy "new" "lobby" "srv" true rows))).Constraints) :
    RoundTrip ⟨_, hc⟩ ⟨_, hhidden⟩ ⟨_, hshown⟩ "lobby" "srv" := by
  refine ⟨⟨_, List.mem_cons_self, rfl, rfl⟩, ?_, ?_⟩
  · refine ⟨"new", { isPrivate := some true }, lobby true, rfl, ?_⟩
    exact bind_eq_ok.mpr ⟨lobby false, rfl, bind_eq_ok.mpr ⟨_, commit_of_constraints hhidden, rfl⟩⟩
  · refine ⟨"", { isPrivate := some false }, lobby false, rfl, ?_⟩
    exact bind_eq_ok.mpr ⟨lobby true, rfl, bind_eq_ok.mpr ⟨_, commit_of_constraints hshown, rfl⟩⟩

theorem roundTrip_onlyViewTouched_iff_lobby :
    ∃ db db₁ db₂, db.tables = lobbyTables false [modSpeaks] ∧
      RoundTrip db db₁ db₂ "lobby" "srv" ∧ OnlyViewTouched db db₁ db₂ "lobby" "srv" := by
  have htrip := @roundTrip_lobby [modSpeaks] (by decide) (by decide) (by decide)
  refine ⟨_, _, _, rfl, htrip, (roundTrip_onlyViewTouched_iff htrip).mpr ?_⟩
  intro po hpo _ hsubject
  rw [List.mem_singleton.mp hpo] at hsubject
  cases hsubject

/-- In a channel where the others may only read, they may write while it is hidden
    and shown again. -/
theorem lobby_speaks :
    ∃ db db₁ db₂, db.tables = lobbyTables false [modSpeaks, quiet sendMessages] ∧
      RoundTrip db db₁ db₂ "lobby" "srv" ∧ ¬ OnlyViewTouched db db₁ db₂ "lobby" "srv" := by
  have htrip := @roundTrip_lobby [modSpeaks, quiet sendMessages] (by decide) (by decide) (by decide)
  refine ⟨_, _, _, rfl, htrip, ?_⟩
  intro htouched
  have hdeny := htouched.shown.2
  exact absurd hdeny (by decide)

end Meza.Store.ChatStore
