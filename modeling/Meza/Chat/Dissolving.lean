import Meza.Permissions.Flatten
import Meza.Chat.Mirror

/-! # A category is dissolved

    `DeleteChannelGroup` snapshots: the channels of the category take over its
    overrides before these are deleted, so that everybody keeps the access they
    had. A channel that has an override of its own for the same role or user
    keeps only that one, and for the resolver the copies are overrides of the
    channel, no longer below them. -/

namespace Meza.Chat

open Store Permissions

/-! ## Section 1: What a channel takes over -/

/-- The member's roles that the channel has no override for. -/
def uncoveredRoles (t : Tables) (srv : Server) (m : Member) (c : Channel) : List ID :=
  (srv.id :: t.roleIDsOf m.userID srv.id).filter fun roleID =>
    overrideAt t.permissionOverrides (.channel c.id) (.role roleID) = none

/-- The overrides of the category for these roles. -/
def movedOverrides (t : Tables) (srv : Server) (m : Member) (c : Channel) : List Override :=
  roleOverridesOf t (c.channelGroupID.map .group) (uncoveredRoles t srv m c)

section Move

variable {s s' : ChatState} {groupID : ID} {srv : Server} {m : Member} {c c' : Channel}

/-- An override of a channel afterwards: its own or the category's. -/
theorem Dissolved.overrideAt_channel (h : Dissolved groupID s s')
    (hc : c ∈ s.db.tables.channels) (hgroup : c.channelGroupID = some groupID)
    (subject : OverrideSubject) :
    overrideAt s'.db.tables.permissionOverrides (.channel c.id) subject =
      (overrideAt s.db.tables.permissionOverrides (.channel c.id) subject).or
        (overrideAt s.db.tables.permissionOverrides (.group groupID) subject) := by
  have hin : ∃ ch ∈ s.db.tables.channels, ch.id = c.id ∧ ch.channelGroupID = some groupID :=
    ⟨c, hc, rfl, hgroup⟩
  rw [h.overrides]
  exact if_pos hin

theorem Dissolved.mem_roles (h : Dissolved groupID s s') (hc : c ∈ s.db.tables.channels)
    (hgroup : c.channelGroupID = some groupID) (o : Override) :
    o ∈ roleOverridesOf s'.db.tables (some (.channel c.id))
        (srv.id :: s.db.tables.roleIDsOf m.userID srv.id) ↔
      o ∈ roleOverridesOf s.db.tables (some (.channel c.id))
          (srv.id :: s.db.tables.roleIDsOf m.userID srv.id) ++
        movedOverrides s.db.tables srv m c := by
  unfold movedOverrides uncoveredRoles
  rw [hgroup, List.mem_append, mem_roleOverridesOf s'.db.constraints,
    mem_roleOverridesOf s.db.constraints]
  show _ ↔ _ ∨ o ∈ roleOverridesOf s.db.tables (some (.group groupID)) _
  rw [mem_roleOverridesOf s.db.constraints]
  constructor
  · intro hin
    obtain ⟨roleID, hrole, hread⟩ := hin
    rw [h.overrideAt_channel hc hgroup] at hread
    rcases hown : overrideAt s.db.tables.permissionOverrides (.channel c.id) (.role roleID) with
      _ | o'
    · rw [hown] at hread
      exact .inr ⟨roleID, List.mem_filter.mpr ⟨hrole, decide_eq_true hown⟩, hread⟩
    · rw [hown] at hread
      exact .inl ⟨roleID, hrole, hown.trans hread⟩
  · intro hin
    rcases hin with ⟨roleID, hrole, hread⟩ | ⟨roleID, hrole, hread⟩
    · refine ⟨roleID, hrole, ?_⟩
      rw [h.overrideAt_channel hc hgroup, hread]
      rfl
    · obtain ⟨hrole, hnone⟩ := List.mem_filter.mp hrole
      refine ⟨roleID, hrole, ?_⟩
      rw [h.overrideAt_channel hc hgroup, of_decide_eq_true hnone, hread]
      rfl

/-- **What the resolver reads afterwards** is the flattened input, up to the order
    of the rows. -/
theorem Dissolved.storedInput (h : Dissolved groupID s s')
    (hrest : s'.db.tables = { s.db.tables with
      channelGroups := s'.db.tables.channelGroups
      channels := s'.db.tables.channels
      permissionOverrides := s'.db.tables.permissionOverrides })
    (hc : c ∈ s.db.tables.channels) (hgroup : c.channelGroupID = some groupID)
    (hid : c'.id = c.id) (hout : c'.channelGroupID = none) :
    ((storedInput s.db.tables srv m (some c)).flattened
        (movedOverrides s.db.tables srv m c)).SameUpToOrder
      (storedInput s'.db.tables srv m (some c')) := by
  -- the roles and their permissions are those of before
  have hroles : s'.db.tables.roleIDsOf m.userID srv.id = s.db.tables.roleIDsOf m.userID srv.id := by
    rw [hrest]
    rfl
  refine ⟨?_, rfl, rfl, ?_, ?_, ?_, ?_, ?_⟩
  · rw [hrest]
    rfl
  · show userOverrideOf s'.db.tables (c'.channelGroupID.map .group) m.userID = none
    rw [hout]
    rfl
  · show overrideAt s'.db.tables.permissionOverrides (.channel c'.id) (.user m.userID) =
      (overrideAt s.db.tables.permissionOverrides (.channel c.id) (.user m.userID)).or
        (userOverrideOf s.db.tables (c.channelGroupID.map .group) m.userID)
    rw [hid, hgroup]
    exact h.overrideAt_channel hc hgroup _
  · intro p
    rw [hrest]
    rfl
  · intro o
    show o ∈ roleOverridesOf s'.db.tables (c'.channelGroupID.map .group) _ ↔ o ∈ []
    rw [hout]
    simp [roleOverridesOf]
  · intro o
    show o ∈ roleOverridesOf s'.db.tables (some (.channel c'.id))
      (srv.id :: s'.db.tables.roleIDsOf m.userID srv.id) ↔ _
    rw [hid, hroles]
    exact h.mem_roles hc hgroup o

end Move

/-! ## Section 2: The deletion -/

/-- **Access after the deletion**: in a channel of the category a member keeps the
    effective permissions exactly if flattening keeps the mask. -/
theorem deleteChannelGroup_keepsMask_iff {s : ChatState} (hs : WellFormed s.db.tables)
    {uuid : ID → ID → ID} {caller : Option ID} {req : DeleteChannelGroupRequest}
    (hids : ((groupSnapshots s.db.tables uuid req.channelGroupID ++
      s.db.tables.permissionOverrides).map (·.id)).Nodup)
    (hdone : Action.succeeds (deleteChannelGroup uuid caller req) s = true)
    {srv : Server} (hsrv : srv ∈ s.db.tables.servers) {m : Member} (hm : m ∈ s.db.tables.members)
    (hserver : m.serverID = srv.id) {c : Channel} (hc : c ∈ s.db.tables.channels)
    (hgroup : c.channelGroupID = some req.channelGroupID) (now : Int) :
    computePermissions (step s (.call caller (.deleteChannelGroup uuid req))).db.tables now
        { userID := m.userID, serverID := srv.id, channelID := c.id } =
      computePermissions s.db.tables now
        { userID := m.userID, serverID := srv.id, channelID := c.id } ↔
    (storedInput s.db.tables srv m (some c)).MaskKept (movedOverrides s.db.tables srv m c)
      now := by
  have hs' := step_wellFormed hs (.call caller (.deleteChannelGroup uuid req))
  have hdissolved : Dissolved req.channelGroupID s
      (step s (.call caller (.deleteChannelGroup uuid req))) :=
    (deleteChannelGroup_dissolved caller req s hids).of_succeeds hdone
  obtain ⟨group, -, hchanged⟩ : GroupDeleted req s
      (step s (.call caller (.deleteChannelGroup uuid req))) :=
    (deleteChannelGroup_spec uuid caller req s).of_succeeds hdone
  generalize step s (.call caller (.deleteChannelGroup uuid req)) = s' at *
  have hrest := hchanged.tables.rest
  -- the channel is still there, without the category
  obtain ⟨c', hc', hseat⟩ := Table.exists_of_forall₂ hdissolved.channels.flip hc
  have hout : c'.channelGroupID = none := by
    rw [hseat.group, if_pos hgroup]
  have hsrv' : srv ∈ s'.db.tables.servers := by
    rw [hrest]
    exact hsrv
  have hm' : m ∈ s'.db.tables.members := by
    rw [hrest]
    exact hm
  have hsame : ((storedInput s.db.tables srv m (some c)).flattened
      (movedOverrides s.db.tables srv m c)).SameUpToOrder
        (storedInput s'.db.tables srv m (some c')) :=
    hdissolved.storedInput hrest hc hgroup hseat.id hout
  have hafter := computePermissions_channel hs' s'.db.constraints hsrv' hm' hserver hc' now
  rw [hseat.id, resolveEffective_congr now hsame] at hafter
  rw [hafter, computePermissions_channel hs s.db.constraints hsrv hm hserver hc now,
    Except.ok.injEq]
  exact resolveEffective_flattened_iff _ _ now

/-- A category for the moderators with three channels. The den has an override of
    its own for the moderators, the hall one for those who are muted. -/
def annexTables : Tables where
  users := [{ id := "owner", signingPublicKey := none }, { id := "mod", signingPublicKey := none }]
  servers := [{ id := "srv", ownerID := "owner" }]
  members := [{ userID := "owner", serverID := "srv" }, { userID := "mod", serverID := "srv" }]
  channelGroups := [{ id := "annex", serverID := "srv" }]
  channels := [{ id := "desk", serverID := some "srv", channelGroupID := some "annex",
                 name := "desk", permissionsSynced := true },
    { id := "den", serverID := some "srv", channelGroupID := some "annex", name := "den" },
    { id := "hall", serverID := some "srv", channelGroupID := some "annex", name := "hall" }]
  roles := [{ id := "srv", serverID := "srv", name := "@everyone",
              permissions := viewChannel ||| sendMessages, position := 0 },
    { id := "muted", serverID := "srv", name := "muted", permissions := 0, position := 1 },
    { id := "mods", serverID := "srv", name := "mods", permissions := 0, position := 2 }]
  memberRoles := [{ userID := "mod", serverID := "srv", roleID := "muted" },
    { userID := "mod", serverID := "srv", roleID := "mods" }]
  permissionOverrides := [{ id := "closed", scope := .group "annex", subject := .role "srv",
                            allow := 0, deny := viewChannel },
    { id := "open", scope := .group "annex", subject := .role "mods",
      allow := viewChannel ||| sendMessages, deny := 0 },
    { id := "tidy", scope := .channel "den", subject := .role "mods", allow := manageMessages,
      deny := 0 },
    { id := "silence", scope := .channel "hall", subject := .role "muted", allow := 0,
      deny := sendMessages }]

def annexState : ChatState where
  db := ⟨annexTables, by decide⟩

theorem annexTables_wellFormed : WellFormed annexTables := by
  refine ⟨⟨by decide, by decide⟩, ⟨by decide, by decide, by decide, by decide, by decide⟩⟩

/-- The annex is dissolved. -/
def withoutAnnex : ChatState :=
  step annexState (.call (some "owner")
    (.deleteChannelGroup (fun overrideID id => overrideID ++ " " ++ id)
      { channelGroupID := "annex" }))

def modMask (t : Tables) (channelID : ID) : Except StoreError Mask :=
  computePermissions t 0 { userID := "mod", serverID := "srv", channelID }

/-- At the desk, which has no overrides of its own, everything stays. -/
theorem deleteChannelGroup_keepsMask_iff_desk :
    modMask withoutAnnex.db.tables "desk" = modMask annexTables "desk" := by
  have hserver : ({ id := "srv", ownerID := "owner" } : Server) ∈ annexTables.servers := by decide
  refine (deleteChannelGroup_keepsMask_iff (s := annexState) annexTables_wellFormed
    (by decide +kernel) (by decide +kernel) hserver
    (m := { userID := "mod", serverID := "srv" }) (by decide) rfl
    (c := annexTables.channels[0]) (by decide) rfl 0).mpr ?_
  exact maskKept_of_bare rfl rfl 0

/-- In the den the moderators' own override keeps that of the category out, and they
    lose the channel; in the hall the copy for them is heard beside the override for
    the muted, and they can write. -/
theorem annex_shifts :
    Action.succeeds (deleteChannelGroup (fun overrideID id => overrideID ++ " " ++ id)
      (some "owner") { channelGroupID := "annex" }) annexState = true ∧
    modMask annexTables "den" = .ok (viewChannel ||| sendMessages ||| manageMessages) ∧
    modMask withoutAnnex.db.tables "den" = .ok 0 ∧
    modMask annexTables "hall" = .ok viewChannel ∧
    modMask withoutAnnex.db.tables "hall" = .ok (viewChannel ||| sendMessages) := by
  refine ⟨?_, ?_, ?_, ?_, ?_⟩
  · decide +kernel
  · decide +kernel
  · decide +kernel
  · decide +kernel
  · decide +kernel

end Meza.Chat
