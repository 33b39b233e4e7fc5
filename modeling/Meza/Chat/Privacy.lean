import Meza.Chat.Access
import Meza.Chat.Rewrites

/-! # Private channels

    Privacy is stored twice: in the flag of the channel, and in an override of the
    channel that denies ViewChannel to `@everyone`. The resolver looks at the
    override only; `CreateChannel` and `UpdateChannel` write both.

    The override is an override like any other. Whoever may set and delete
    overrides can change it, or have the channel synced with its category, and
    the flag stays. Runs in which nothing of that kind happens to a private
    channel keep it from everybody who was not given access. -/

namespace Meza.Chat

open Store Permissions List Option Run Table OverrideScope PermissionOverride ResolveInput

/-! ## Section 1: Concealed channels -/

/-- The override mentions ViewChannel, one way or the other. -/
def MentionsView (o : Override) : Prop :=
  o.allows viewChannelBit = true ∨ o.denies viewChannelBit = true

instance (o : Override) : Decidable (MentionsView o) := inferInstanceAs (Decidable (_ ∨ _))

/-- A channel with an override for `@everyone` that mentions ViewChannel. -/
def Concealed (t : Tables) (serverID channelID : ID) : Prop :=
  ∃ o ∈ overrideAt t.permissionOverrides (.channel channelID) (.role serverID), MentionsView o

def AllConcealed (t : Tables) : Prop :=
  ∀ c ∈ t.channels, c.isPrivate = true → ∀ serverID ∈ c.serverID, Concealed t serverID c.id

/-- No override for the member, by a role or by name, in the channel or in its
    category, allows ViewChannel. -/
def NothingAllowed (t : Tables) (srv : Server) (m : Member) (c : Channel) : Prop :=
  ∀ po ∈ t.permissionOverrides, po.targets c.id c.channelGroupID = true →
    po.concerns (srv.id :: t.roleIDsOf m.userID srv.id) m.userID = true →
      po.override.allows viewChannelBit = false

instance (t : Tables) (srv : Server) (m : Member) (c : Channel) :
    Decidable (NothingAllowed t srv m c) :=
  inferInstanceAs (Decidable (∀ _ ∈ t.permissionOverrides, _))

/-- Members without access do not see private channels: neither as owner or
    Administrator, nor by a timeout, nor by an override. -/
def PrivateHidden (s : ChatState) : Prop :=
  ∀ srv ∈ s.db.tables.servers, ∀ m ∈ s.db.tables.members, m.serverID = srv.id →
    ∀ c ∈ s.db.tables.channels, c.serverID = some srv.id → c.isPrivate = true →
      srv.ownerID ≠ m.userID → everyoneGrants s.db.tables srv.id administratorBit = false →
      roleGrants s.db.tables m administratorBit = false → Member.timedOut m s.now = false →
      NothingAllowed s.db.tables srv m c →
      ∃ mask, computePermissions s.db.tables s.now
          { userID := m.userID, serverID := srv.id, channelID := c.id } = .ok mask ∧
        mask &&& viewChannel = 0

variable {s : ChatState} {channelID : ID}

section Hidden

variable {t : Tables} {srv : Server} {m : Member} {c : Channel}

theorem row_of_layer {layer : List Override}
    (hlayer : layer ∈ (storedInput t srv m (some c)).layers) {o : Override} (ho : o ∈ layer) :
    ∃ po ∈ t.permissionOverrides, po.targets c.id c.channelGroupID = true ∧
      po.concerns (srv.id :: t.roleIDsOf m.userID srv.id) m.userID = true ∧ po.override = o := by
  have htargets : ∀ po : PermissionOverride, some po.scope = some (channel c.id) ∨
      some po.scope = c.channelGroupID.map group →
      po.targets c.id c.channelGroupID = true := by
    intro po hscope
    unfold targets
    rcases hscope with hscope | hscope
    · injection hscope with hscope
      simp [hscope]
    · obtain ⟨id, hid, hgroup⟩ := map_eq_some_iff.mp hscope.symm
      simp [← hgroup, hid]
  have hroles : ∀ scope, (∀ po : PermissionOverride, some po.scope = scope →
      po.targets c.id c.channelGroupID = true) →
      o ∈ roleOverridesOf t scope (srv.id :: t.roleIDsOf m.userID srv.id) →
      ∃ po ∈ t.permissionOverrides, po.targets c.id c.channelGroupID = true ∧
      po.concerns (srv.id :: t.roleIDsOf m.userID srv.id) m.userID = true ∧ po.override = o := by
    intro scope htarget hmem
    obtain ⟨po, hpo, rfl⟩ := mem_map.mp hmem
    obtain ⟨hpo, hcond⟩ := mem_filter.mp hpo
    obtain ⟨hscope, roleID, hrole, hsubject⟩ := of_decide_eq_true hcond
    refine ⟨po, hpo, htarget po hscope, ?_, rfl⟩
    unfold concerns
    rw [hsubject]
    exact decide_eq_true hrole
  have husers : ∀ scope, (∀ po : PermissionOverride, some po.scope = scope →
      po.targets c.id c.channelGroupID = true) → o ∈ (userOverrideOf t scope m.userID).toList →
      ∃ po ∈ t.permissionOverrides, po.targets c.id c.channelGroupID = true ∧
      po.concerns (srv.id :: t.roleIDsOf m.userID srv.id) m.userID = true ∧ po.override = o := by
    intro scope htarget hmem
    rw [mem_toList] at hmem
    obtain ⟨po, hlook, rfl⟩ := map_eq_some_iff.mp hmem
    obtain ⟨scope', hscope, hlook⟩ := bind_eq_some_iff.mp hlook
    obtain ⟨hpo, hkey⟩ := mem_of_lookup hlook
    obtain ⟨hposcope, hsubject⟩ := Prod.mk.inj hkey
    refine ⟨po, hpo, htarget po (by rw [hposcope, hscope]), ?_, rfl⟩
    unfold concerns
    rw [hsubject]
    exact decide_eq_true rfl
  -- the layers: by name in the channel and the category, then by role in each
  simp only [layers, mem_cons, not_mem_nil, or_false] at hlayer
  rcases hlayer with rfl | rfl | rfl | rfl
  · exact husers _ (fun po h => htargets po (Or.inl h)) ho
  · exact husers _ (fun po h => htargets po (Or.inr h)) ho
  · exact hroles _ (fun po h => htargets po (Or.inl h)) ho
  · exact hroles _ (fun po h => htargets po (Or.inr h)) ho

theorem layeredGrants_concealed (hconcealed : Concealed t srv.id c.id)
    (hnothing : NothingAllowed t srv m c) :
    (storedInput t srv m (some c)).layeredGrants viewChannelBit = false := by
  have hsilent : ∀ layer ∈ (storedInput t srv m (some c)).layers,
      layer.any (Override.allows viewChannelBit) = false := by
    intro layer hlayer
    rw [List.any_eq_false]
    intro o ho
    obtain ⟨po, hpo, htargets, hconcerns, rfl⟩ := row_of_layer hlayer ho
    rw [hnothing po hpo htargets hconcerns]
    exact Bool.false_ne_true
  obtain ⟨o, hread, hmentions⟩ := hconcealed
  have hmem : o ∈ (storedInput t srv m (some c)).channelRoleOverrides := by
    obtain ⟨po, hpo, hscope, hsubject, rfl⟩ := overrideAt_eq_some hread
    refine mem_map.mpr ⟨po, mem_filter.mpr ⟨hpo, decide_eq_true ⟨?_, ?_⟩⟩, rfl⟩
    · rw [hscope]
      rfl
    · exact ⟨srv.id, mem_cons_self, hsubject⟩
  have hlayer : (storedInput t srv m (some c)).channelRoleOverrides ∈
      (storedInput t srv m (some c)).layers := by
    simp [layers]
  have hdenies : Override.denies viewChannelBit o = true := by
    rcases hmentions with hallows | hdenies
    · exact absurd hallows (any_eq_false.mp (hsilent _ hlayer) o hmem)
    · exact hdenies
  unfold layeredGrants
  -- no layer allows the bit, and the roles of the channel deny it
  refine Layered.decision_of_refused ?_ ?_ _
  · intro hgrant
    obtain ⟨layer, hmem', hdecision⟩ := mem_map.mp hgrant
    unfold layerDecision at hdecision
    rw [Layered.aggregate_of_no_allow _ _ (hsilent layer hmem')] at hdecision
    split at hdecision
    · cases hdecision
    · cases hdecision
  · refine mem_map.mpr ⟨_, hlayer, ?_⟩
    unfold layerDecision
    rw [Layered.aggregate_of_no_allow _ _ (hsilent _ hlayer),
      if_pos (any_eq_true.mpr ⟨o, hmem, hdenies⟩)]

theorem AllConcealed.privateHidden (h : AllConcealed s.db.tables) (hs : WellFormed s.db.tables) :
    PrivateHidden s := by
  intro srv hsrv m hm hserver c hc hin hprivate howner heveryone hroles htime hnothing
  refine ⟨_, computePermissions_channel hs s.db.constraints hsrv hm hserver hc s.now, ?_⟩
  by_contra hview
  have hsees := (has_viewChannel_stored howner hserver s.now).mp ((has_iff _ _).mpr (.inr hview))
  rcases hsees with hadmin | hadmin | htimed | hgrants
  · rw [heveryone] at hadmin
    cases hadmin
  · rw [hroles] at hadmin
    cases hadmin
  · rw [htime] at htimed
    cases htimed
  · rw [layeredGrants_concealed (h c hc hprivate srv.id hin) hnothing] at hgrants
    cases hgrants

end Hidden

/-! ## Section 2: What exposes a private channel -/

/-- The target is a private channel or has one for a companion, and the role is the
    `@everyone` of its server. -/
def ReachesPrivate (t : Tables) (targetID roleID : ID) : Prop :=
  ∃ c ∈ t.channels, c.isPrivate = true ∧ c.serverID = some roleID ∧
    Covers t (.channel targetID) (.channel c.id)

/-- The update makes a voice channel public and deletes the override of a companion
    whose flag stays. -/
def OpensCompanion (t : Tables) (req : UpdateChannelRequest) : Prop :=
  ∃ ch ∈ t.channels, ch.id = req.channelID ∧ privacyToggle ch req = some false ∧
    touchesCompanion req = true ∧
    ∃ c ∈ t.channels, ch.voiceTextChannelID = some c.id ∧ c.isPrivate = true

/-- A private channel is created in a category whose override for `@everyone` takes
    the place of the deny and does not mention ViewChannel. -/
def InheritsOver (t : Tables) (req : CreateChannelRequest) : Prop :=
  channelPrivacy req t = .ok true ∧ ∃ o ∈ inheritedOverride req t req.serverID, ¬ MentionsView o

/-- The events after which the override of a private channel for `@everyone` is gone
    or does not mention ViewChannel. -/
def Unhides (t : Tables) : ServerEvent → Prop
  | .event (.call _ (.setPermissionOverride _ _ req)) =>
    ¬ MentionsView { allow := req.allow, deny := req.deny } ∧
      ReachesPrivate t req.targetID req.roleID
  | .event (.call _ (.deletePermissionOverride req)) => ReachesPrivate t req.targetID req.roleID
  | .event (.call _ (.syncChannelPermissions req)) =>
    ∃ c ∈ t.channels, c.isPrivate = true ∧ Covers t (.channel req.channelID) (.channel c.id)
  | .event (.call _ (.updateChannel _ _ _ req)) => OpensCompanion t req
  | .createChannel _ _ req => InheritsOver t req
  | _ => False

structure KeepsPrivate (s : ChatState) (ev : ServerEvent) : Prop where
  fresh : ev.Fresh s.db.tables
  closed : ¬ Unhides s.db.tables ev

section Steps

variable {t t' : Tables} {s' : ChatState}

theorem AllConcealed.of_rewritten
    {f : OverrideScope → OverrideSubject → Option Override → Option Override}
    (h : AllConcealed t) (hw : Rewritten f t t')
    (hf : ∀ c ∈ t.channels, c.isPrivate = true → ∀ serverID, c.serverID = some serverID →
    ∀ o, MentionsView o → ∃ o' ∈ f (.channel c.id) (.role serverID) (some o), MentionsView o') :
    AllConcealed t' := by
  intro c' hc' hprivate serverID hserver
  obtain ⟨c, hc, hseat⟩ := exists_of_forall₂ hw.channels hc'
  rw [hseat.isPrivate] at hprivate
  rw [hseat.serverID] at hserver
  obtain ⟨o, hread, hmentions⟩ := h c hc hprivate serverID hserver
  unfold Concealed
  rw [hseat.id, hw.overrides, hread]
  exact hf c hc hprivate serverID hserver o hmentions

theorem covers_of_target {target : OverrideTarget} {targetID : ID}
    (h : Covers t (target.scope targetID) (.channel channelID)) :
    Covers t (.channel targetID) (.channel channelID) := by
  unfold OverrideTarget.scope at h
  split at h
  · rcases h with heq | ⟨companionID, hmem, -⟩
    · cases heq
    · cases hmem
  · exact h

theorem AllConcealed.of_replaced {targetID roleID userID : ID} {new : Option Override}
    (h : AllConcealed s.db.tables) (hw : Replaced targetID roleID userID new s s')
    (hnew : ReachesPrivate s.db.tables targetID roleID → ∃ o ∈ new, MentionsView o) :
    AllConcealed s'.db.tables := by
  obtain ⟨target, subject, -, -, hsubject, hrewritten⟩ := hw.change
  refine h.of_rewritten hrewritten ?_
  intro c hc hprivate serverID hserver o hmentions
  unfold replaceAt
  split
  · rename_i hreplaced
    obtain ⟨hcovers, heq⟩ := hreplaced
    -- the subject is `@everyone` of the channel's server
    have hrole : serverID = roleID := by
      rw [hsubject] at heq
      split at heq
      · cases heq
      · injection heq
    rw [hrole] at hserver
    exact hnew ⟨c, hc, hprivate, hserver, covers_of_target hcovers⟩
  · exact ⟨o, rfl, hmentions⟩

theorem AllConcealed.of_emptied (h : AllConcealed s.db.tables) (hw : Emptied channelID s s')
    (hnone : ¬ ∃ c ∈ s.db.tables.channels, c.isPrivate = true ∧
      Covers s.db.tables (.channel channelID) (.channel c.id)) : AllConcealed s'.db.tables := by
  obtain ⟨ch, -, -, hrewritten⟩ := hw.change
  refine h.of_rewritten hrewritten ?_
  intro c hc hprivate serverID _ o hmentions
  rw [if_neg fun hcovers => hnone ⟨c, hc, hprivate, hcovers⟩]
  exact ⟨o, rfl, hmentions⟩

/-- The overrides of the channels outlive their category. -/
theorem AllConcealed.of_dissolved {groupID : ID} (h : AllConcealed s.db.tables)
    (hw : Dissolved groupID s s') : AllConcealed s'.db.tables := by
  intro c' hc' hprivate serverID hserver
  obtain ⟨c, hc, hseat⟩ := exists_of_forall₂ hw.channels hc'
  rw [hseat.isPrivate] at hprivate
  rw [hseat.serverID] at hserver
  obtain ⟨o, hread, hmentions⟩ := h c hc hprivate serverID hserver
  refine ⟨o, ?_, hmentions⟩
  rw [hseat.id, hw.overrides, hread]
  unfold dissolvedOverride
  dsimp only
  split
  · rfl
  · rfl

theorem mentionsView_toggled (old : Option Override) : ∃ o ∈ toggled true old, MentionsView o :=
  ⟨_, rfl, .inr (by decide : Override.denies viewChannelBit
    { allow := 0, deny := viewChannel } = true)⟩

variable {req : UpdateChannelRequest}

theorem isPrivate_of_no_toggle {ch : Channel} (h : privacyToggle ch req = none) :
    req.isPrivate.getD ch.isPrivate = ch.isPrivate := by
  unfold privacyToggle at h
  rcases hflag : req.isPrivate with _ | isPrivate
  · rfl
  · rw [hflag, filter_eq_none_iff] at h
    simpa using h

theorem of_toggle {ch : Channel} {isPrivate : Bool} (h : privacyToggle ch req = some isPrivate) :
    req.isPrivate = some isPrivate := by
  exact (filter_eq_some_iff.mp h).1

theorem AllConcealed.of_updated (h : AllConcealed s.db.tables) (hw : Updated req s s')
    (hclosed : ¬ OpensCompanion s.db.tables req) : AllConcealed s'.db.tables := by
  obtain ⟨ch, hlook, -, -, hseats, hoverrides⟩ := hw.change
  obtain ⟨hch, hchid⟩ := mem_of_lookup hlook
  intro c' hc' hprivate serverID hserver
  obtain ⟨c, hc, hseat⟩ := exists_of_forall₂ hseats hc'
  rw [hseat.serverID] at hserver
  unfold Concealed
  rw [hseat.id, hoverrides]
  by_cases hown : c.id = req.channelID
  · obtain rfl : c = ch :=
      eq_of_key s.db.constraints.channels.channelsPK hc hch (hown.trans hchid.symm)
    rw [(hseat.own hown).2] at hprivate
    unfold updatedOverride
    rcases htoggle : privacyToggle c req with _ | isPrivate
    · -- the flag was set before
      rw [isPrivate_of_no_toggle htoggle] at hprivate
      exact h c hc hprivate serverID hserver
    · rw [of_toggle htoggle] at hprivate
      have hset : isPrivate = true := hprivate
      dsimp only
      rw [hserver, getD_some, if_pos rfl, hown, if_pos rfl, hset]
      exact mentionsView_toggled _
  · rw [(hseat.other hown).1] at hprivate
    obtain ⟨o, hread, hmentions⟩ := h c hc hprivate serverID hserver
    unfold updatedOverride
    rcases htoggle : privacyToggle ch req with _ | isPrivate
    · exact ⟨o, hread, hmentions⟩
    · dsimp only
      rw [if_neg (channel_ne hown)]
      split
      · split
        · -- the companion of the channel
          rename_i hmirrored
          obtain ⟨htouch, companionID, hcompanion, heq⟩ := hmirrored
          injection heq with heq
          rw [← heq] at hcompanion
          cases isPrivate with
          | true => exact mentionsView_toggled _
          | false =>
            exact absurd ⟨ch, hch, hchid, htoggle, htouch, c, hc, hcompanion, hprivate⟩ hclosed
        · exact ⟨o, hread, hmentions⟩
      · exact ⟨o, hread, hmentions⟩

/-- A new private channel has the deny, or what its category says instead. -/
theorem AllConcealed.of_created {ids : CreationIDs} {caller : Option ID}
    {req : CreateChannelRequest} (h : AllConcealed s.db.tables) (hs : WellFormed s.db.tables)
    (hw : Created ids caller req s s') (hclosed : ¬ InheritsOver s.db.tables req) :
    AllConcealed s'.db.tables := by
  obtain ⟨isPrivate, hprivacy, hchannels, hoverrides⟩ := hw.overrideAt hs
  intro c hc hprivate serverID hserver
  unfold Concealed
  rw [hchannels] at hc
  rw [hoverrides]
  rcases mem_append.mp hc with hc | hc
  · rw [if_neg (hw.notMem_created hc)]
    exact h c hc hprivate serverID hserver
  · obtain ⟨hid, hin, -, hflag, -⟩ := of_mem_newChannels hc
    rw [if_pos (mem_map_of_mem hid)]
    rw [hin] at hserver
    injection hserver with hserver
    rw [← hserver]
    rw [← hflag, hprivate] at hprivacy
    unfold initialOverride
    dsimp only
    rcases hinherited : inheritedOverride req s.db.tables req.serverID with _ | o
    · rw [none_or, ← hflag, hprivate, if_pos ⟨rfl, rfl⟩]
      exact mentionsView_toggled none
    · -- the category's override is there instead of the deny
      refine ⟨o, rfl, ?_⟩
      by_contra hsilent
      exact hclosed ⟨hprivacy, o, hinherited, hsilent⟩

/-- **Every event** that exposes no private channel keeps them concealed. -/
theorem AllConcealed.of_writes {ev : ServerEvent} (h : AllConcealed s.db.tables)
    (hs : WellFormed s.db.tables) (hclosed : ¬ Unhides s.db.tables ev) (hw : Writes s s' ev) :
    AllConcealed s'.db.tables := by
  cases hw with
  | nothing hchannels hoverrides =>
    intro c hc hprivate serverID hserver
    unfold Concealed
    rw [hchannels] at hc
    rw [hoverrides]
    exact h c hc hprivate serverID hserver
  | @set _ _ _ req hreplaced =>
    refine h.of_replaced hreplaced ?_
    intro hreaches
    refine ⟨_, rfl, ?_⟩
    by_contra hsilent
    exact hclosed ⟨hsilent, hreaches⟩
  | delete hreplaced => exact h.of_replaced hreplaced fun hreaches => absurd hreaches hclosed
  | sync hemptied => exact h.of_emptied hemptied hclosed
  | update hupdated => exact h.of_updated hupdated hclosed
  | deleteGroup hdissolved => exact h.of_dissolved hdissolved
  | @deleteRole _ req hordinary hrewritten =>
    refine h.of_rewritten hrewritten ?_
    intro c hc _ serverID hserver o hmentions
    -- a server's `@everyone` cannot be deleted
    obtain ⟨srv, hsrv, hid⟩ :=
      mem_map.mp (s.db.constraints.channels.channelsServer c hc serverID hserver)
    have hne : OverrideSubject.role serverID ≠ .role req.roleID := by
      intro heq
      injection heq with heq
      exact hordinary srv hsrv (heq.symm.trans hid.symm)
    rw [if_neg hne]
    exact ⟨o, rfl, hmentions⟩
  | create hcreated => exact h.of_created hs hcreated hclosed

end Steps

/-! ## Section 3: Runs -/

/-- What a run keeps. -/
structure PrivacyKept (s : ChatState) : Prop where
  wellFormed : WellFormed s.db.tables
  concealed : AllConcealed s.db.tables

theorem serverStep_privacyKept {ev : ServerEvent} (h : PrivacyKept s) (hkeeps : KeepsPrivate s ev) :
    PrivacyKept (serverStep s ev) :=
  ⟨serverStep_wellFormed h.wellFormed hkeeps.fresh,
    h.concealed.of_writes h.wellFormed hkeeps.closed (serverStep_writes h.wellFormed hkeeps.fresh)⟩

/-- **Private channels stay hidden**: in every state of a run in which no step
    exposes one, members without access do not see it. -/
theorem private_hidden (s : ChatState) (hs : PrivacyKept s) (evs : List ServerEvent)
    (hrun : Guarded serverStep KeepsPrivate s evs) :
    PrivateHidden (exec serverStep s evs) := by
  have hstep : ∀ s ev, PrivacyKept s → KeepsPrivate s ev → PrivacyKept (serverStep s ev) :=
    fun _ _ h hkeeps => serverStep_privacyKept h hkeeps
  have hend := exec_invariant hstep hs hrun
  exact hend.concealed.privateHidden hend.wellFormed

/-- A server with a category that has an override for `@everyone`, before it has a
    private channel. -/
def vaultTables : Tables where
  users := [{ id := "owner", signingPublicKey := none },
    { id := "guest", signingPublicKey := none }]
  servers := [{ id := "srv", ownerID := "owner" }]
  members := [{ userID := "owner", serverID := "srv" }, { userID := "guest", serverID := "srv" }]
  channelGroups := [{ id := "news", serverID := "srv" }]
  roles := [{ id := "srv", serverID := "srv", name := "@everyone", permissions := viewChannel,
              position := 0 }]
  permissionOverrides := [{ id := "quiet", scope := .group "news", subject := .role "srv",
                            allow := 0, deny := sendMessages }]

def vaultState : ChatState where
  db := ⟨vaultTables, by decide⟩

theorem vaultState_privacyKept : PrivacyKept vaultState :=
  ⟨⟨⟨by decide, by decide⟩, ⟨by decide, by decide, by decide, by decide, by decide⟩⟩,
    fun _ hc => absurd hc not_mem_nil⟩

def createPrivate (type : Nat) (channelGroupID : ID) : ServerEvent :=
  .createChannel
    { channelID := "vault", companionID := "text", deny := fun id => "deny " ++ id,
      copy := fun overrideID id => overrideID ++ " " ++ id }
    (some "owner") { serverID := "srv", name := "vault", type, isPrivate := true, channelGroupID }

def ownerCalls (c : Call) : ServerEvent := .event (.call (some "owner") c)

/-- The override of a private channel is replaced by one that denies more. -/
theorem private_hidden_vault :
    PrivateHidden (exec serverStep vaultState [createPrivate 1 "",
      ownerCalls (.setPermissionOverride "quiet vault" "quiet text"
        { targetID := "vault", roleID := "srv", allow := 0,
          deny := viewChannel ||| sendMessages })]) := by
  refine private_hidden vaultState vaultState_privacyKept _
    ⟨⟨⟨?_, ?_, ?_⟩, ?_⟩, ⟨⟨?_, ?_⟩, ?_⟩, trivial⟩
  · decide
  · decide
  · decide
  · rintro ⟨-, o, ho, -⟩
    cases ho
  · decide +kernel
  · decide
  · rintro ⟨hsilent, -⟩
    revert hsilent
    decide

theorem not_privateHidden
    (h : ∃ srv ∈ s.db.tables.servers, ∃ m ∈ s.db.tables.members, m.serverID = srv.id ∧
    ∃ c ∈ s.db.tables.channels, c.serverID = some srv.id ∧ c.isPrivate = true ∧
    srv.ownerID ≠ m.userID ∧ everyoneGrants s.db.tables srv.id administratorBit = false ∧
    roleGrants s.db.tables m administratorBit = false ∧ Member.timedOut m s.now = false ∧
    NothingAllowed s.db.tables srv m c ∧ computePermissions s.db.tables s.now
    { userID := m.userID, serverID := srv.id, channelID := c.id } = .ok viewChannel) :
    ¬ PrivateHidden s := by
  intro hhidden
  obtain ⟨srv, hsrv, m, hm, hserver, c, hc, hin, hprivate, howner, heveryone, hroles, htime,
    hnothing, hcompute⟩ := h
  obtain ⟨mask, hmask, hzero⟩ := hhidden srv hsrv m hm hserver c hc hin hprivate howner heveryone
    hroles htime hnothing
  rw [hcompute] at hmask
  injection hmask with hmask
  rw [← hmask] at hzero
  revert hzero
  decide

/-- A private channel is seen by everyone after its override was deleted, replaced
    or dropped in favour of the category's; and after two calls that leave the
    flag without the deny: a creation in a category, and an update that makes a
    voice channel public but not its companion. -/
theorem vault_exposed :
    PrivacyKept vaultState ∧
    ¬ PrivateHidden (exec serverStep vaultState [createPrivate 1 "",
      ownerCalls (.deletePermissionOverride { targetID := "vault", roleID := "srv" })]) ∧
    ¬ PrivateHidden (exec serverStep vaultState [createPrivate 1 "",
      ownerCalls (.setPermissionOverride "quiet vault" "quiet text"
        { targetID := "vault", roleID := "srv", allow := 0, deny := sendMessages })]) ∧
    ¬ PrivateHidden (exec serverStep vaultState [createPrivate 1 "",
      ownerCalls (.updateChannel "hide" "hide text" (fun _ id => id)
        { channelID := "vault", channelGroupID := some "news" }),
      ownerCalls (.syncChannelPermissions { channelID := "vault" })]) ∧
    ¬ PrivateHidden (exec serverStep vaultState [createPrivate 1 "news"]) ∧
    ¬ PrivateHidden (exec serverStep vaultState [createPrivate 2 "",
      ownerCalls (.updateChannel "hide" "hide text" (fun _ id => id)
        { channelID := "vault", name := some "den", isPrivate := some false })]) := by
  refine ⟨vaultState_privacyKept, ?_, ?_, ?_, ?_, ?_⟩
  · exact not_privateHidden (by decide +kernel)
  · exact not_privateHidden (by decide +kernel)
  · exact not_privateHidden (by decide +kernel)
  · exact not_privateHidden (by decide +kernel)
  · exact not_privateHidden (by decide +kernel)

end Meza.Chat
