import Meza.Chat.Resolution

/-! # Access to channels

    Three parts of the system decide for themselves who may see a channel. The
    gateway delivers the events of `getUserChannels`, the key service hands out
    keys by `hasViewChannel`, and the handlers of the chat service check
    `requireChannelAccess`. The first goes by the privacy flag and the rows of
    `channel_members`, the second by the resolver, and the third by one of the
    two, depending on the flag. -/

namespace Meza.Chat

open Store Permissions Action ChatStore List Table

/-! ## Section 1: The gate of the chat service -/

/-- Private channels: channel members, the owner and Administrators by role. -/
def requirePrivateAccess (t : Tables) (ch : Channel) (serverID userID : ID) :
    Except ConnectError Unit :=
  if isChannelMember t ch.id userID then .ok ()
  else do
    let srv ← orElse internalError (getServer t serverID)
    if srv.ownerID = userID then .ok ()
    else
      let combined := combine ((RoleStore.getMemberRoles t userID serverID).map (·.permissions))
      rejectIf (¬ has combined administrator) .permissionDenied "no access to this channel"

/-- DM channels pass: their participants are checked elsewhere. Public channels
    go by ViewChannel. -/
def requireChannelAccess (ch : Channel) (userID : ID) : Handler Unit :=
  match ch.serverID with
  | none => pure ()
  | some serverID =>
    if ch.isPrivate then require fun t => requirePrivateAccess t ch serverID userID
    else do
      let resolved ← resolvePermissions userID serverID ch.id
      reject (¬ has resolved viewChannel) .permissionDenied "no access to this channel"

/-! ## Section 2: What each part looks at -/

/-- The member sees the channel: as an Administrator by any role, while timed
    out, or by what the most specific layer of overrides says. -/
def Sees (t : Tables) (now : Int) (srv : Server) (m : Member) (c : Channel) : Prop :=
  everyoneGrants t srv.id administratorBit = true ∨ roleGrants t m administratorBit = true ∨
    Member.timedOut m now = true ∨
    (storedInput t srv m (some c)).layeredGrants viewChannelBit = true

section Access

variable {t : Tables} {srv : Server} {m : Member} {c : Channel}

theorem mem_getUserChannels (hc : t.Constraints) (hsrv : srv ∈ t.servers) (hm : m ∈ t.members)
    (hserver : m.serverID = srv.id) (hch : c ∈ t.channels) (hin : c.serverID = some srv.id) :
    c.id ∈ getUserChannels t m.userID ↔
      srv.ownerID = m.userID ∨ c.isPrivate = false ∨ isChannelMember t c.id m.userID = true := by
  unfold getUserChannels
  rw [mem_dedup, mem_map]
  constructor
  · intro h
    obtain ⟨d, hd, hid⟩ := h
    have hsame : d = c := by
      have hmem : d ∈ t.channels := by
        rcases mem_append.mp hd with hd | hd
        · exact (mem_filter.mp hd).1
        · exact (mem_filter.mp hd).1
      exact eq_of_key hc.channels.channelsPK hmem hch hid
    subst hsame
    rcases mem_append.mp hd with hd | hd
    · obtain ⟨-, hcond⟩ := mem_filter.mp hd
      obtain ⟨-, hpublic | hrow | ⟨srv', hsrv', hin', howner⟩⟩ := of_decide_eq_true hcond
      · exact Or.inr (Or.inl hpublic)
      · exact Or.inr (Or.inr hrow)
      · rw [hin] at hin'
        injection hin' with hid
        rw [eq_of_key hc.servers.serversPK hsrv hsrv' hid]
        exact Or.inl howner
    · exact Or.inr (Or.inr (of_decide_eq_true (mem_filter.mp hd).2).1)
  · intro h
    refine ⟨c, mem_append_left _ (mem_filter.mpr ⟨hch, decide_eq_true ⟨?_, ?_⟩⟩), rfl⟩
    · exact ⟨m, hm, rfl, by rw [hin, hserver]⟩
    · rcases h with howner | hpublic | hrow
      · exact Or.inr (Or.inr ⟨srv, hsrv, hin, howner⟩)
      · exact Or.inl hpublic
      · exact Or.inr (Or.inl hrow)

theorem channelServer_of_mem (hc : t.Constraints) (hsrv : srv ∈ t.servers) (hch : c ∈ t.channels)
    (hin : c.serverID = some srv.id) : channelServer t c.id = some (srv, c.channelGroupID) := by
  unfold channelServer
  rw [lookup_of_mem hc.channels.channelsPK hch, Option.bind_some, hin, Option.bind_some,
    lookup_of_mem hc.servers.serversPK hsrv]
  rfl

theorem has_viewChannel_stored (howner : srv.ownerID ≠ m.userID) (hserver : m.serverID = srv.id)
    (now : Int) :
    has (resolveEffective (storedInput t srv m (some c)) now) viewChannel = true ↔
      Sees t now srv m c := by
  have hnot : (storedInput t srv m (some c)).isOwner = false := decide_eq_false howner
  rw [has_viewChannel_resolveEffective _ _ hnot, storedInput_baseGrants hserver,
    storedInput_timedOut]
  unfold Sees
  simp only [Bool.or_eq_true, or_assoc]

theorem hasViewChannel_iff (hc : t.Constraints) (hsrv : srv ∈ t.servers) (hm : m ∈ t.members)
    (hserver : m.serverID = srv.id) (hch : c ∈ t.channels) (hin : c.serverID = some srv.id)
    (now : Int) :
    hasViewChannel t now m.userID c.id = true ↔ srv.ownerID = m.userID ∨ Sees t now srv m c := by
  unfold hasViewChannel
  rw [channelServer_of_mem hc hsrv hch hin]
  by_cases howner : srv.ownerID = m.userID
  · simp [howner]
  · have hmember : lookup Member.key (m.userID, srv.id) t.members = some m := by
      rw [← hserver]
      exact lookup_of_mem hc.servers.membersPK hm
    rw [or_iff_right howner, ← has_viewChannel_stored howner hserver now]
    dsimp only
    rw [if_neg howner, hmember]
    dsimp only
    rw [viewInput_stored hc howner]

theorem requirePrivateAccess_iff (hs : RolesLocal t) (hc : t.Constraints)
    (hsrv : srv ∈ t.servers) (hserver : m.serverID = srv.id) :
    requirePrivateAccess t c srv.id m.userID = .ok () ↔
      isChannelMember t c.id m.userID = true ∨ srv.ownerID = m.userID ∨
        roleGrants t m administratorBit = true := by
  have hhas : has (combine ((RoleStore.getMemberRoles t m.userID srv.id).map (·.permissions)))
      administrator = true ↔ roleGrants t m administratorBit = true := by
    rw [has_iff, administrator_eq, BitMask.and_single_ne_zero _ (by decide), or_self,
      combine_getLsbD, ← hserver, getMemberRoles_any hs hc]
    rfl
  unfold requirePrivateAccess rejectIf
  rw [← hhas, getServer_of_mem hc hsrv]
  by_cases hrow : isChannelMember t c.id m.userID = true
  · simp [hrow]
  · by_cases howner : srv.ownerID = m.userID
    · simp [hrow, howner, orElse, bind, Except.bind]
    · simp [hrow, howner, orElse, bind, Except.bind]

/-- Public channels go by the mask that is served. -/
theorem succeeds_requireChannelAccess {s : ChatState} {serverID userID : ID}
    (hin : c.serverID = some serverID) :
    succeeds (requireChannelAccess c userID) s = true ↔
      if c.isPrivate then requirePrivateAccess s.db.tables c serverID userID = .ok ()
      else ∃ perms, result (resolvePermissions userID serverID c.id) s = .ok perms ∧
        has perms viewChannel = true := by
  unfold requireChannelAccess
  rw [hin]
  rcases hprivate : c.isPrivate with _ | _
  · simp only [Bool.false_eq_true, ↓reduceIte, succeeds_iff, bind_ok, reject_ok,
      result_ok]
    constructor
    · intro h
      obtain ⟨_, s', perms, s₁, hperms, hview, -⟩ := h
      exact ⟨perms, ⟨s₁, hperms⟩, by simpa using hview⟩
    · intro h
      obtain ⟨perms, ⟨s₁, hperms⟩, hview⟩ := h
      exact ⟨(), s₁, perms, s₁, hperms, by simpa using hview, rfl⟩
  · simp only [↓reduceIte, succeeds_iff, require_ok]
    constructor
    · intro h
      obtain ⟨_, s', hok, -⟩ := h
      exact hok
    · intro h
      exact ⟨(), s, h, rfl⟩

end Access

/-- **One notion of access.** Gateway, key service and chat service agree on a
    member and a channel exactly when the member is the owner, or sees the
    channel and is not kept out by the flag, or neither sees it nor is let in by
    the flag. -/
theorem access_agrees_iff (db : DB) (hs : WellFormed db.tables) (now : Int) (srv : Server)
    (hsrv : srv ∈ db.tables.servers) (m : Member) (hm : m ∈ db.tables.members)
    (hserver : m.serverID = srv.id) (c : Channel) (hch : c ∈ db.tables.channels)
    (hin : c.serverID = some srv.id) :
    ((c.id ∈ getUserChannels db.tables m.userID ↔
        hasViewChannel db.tables now m.userID c.id = true) ∧
      (hasViewChannel db.tables now m.userID c.id = true ↔
        succeeds (requireChannelAccess c m.userID) { db, now } = true)) ↔
      srv.ownerID = m.userID ∨
        (Sees db.tables now srv m c ∧
          (c.isPrivate = false ∨ isChannelMember db.tables c.id m.userID = true)) ∨
        (¬ Sees db.tables now srv m c ∧ c.isPrivate = true ∧
          isChannelMember db.tables c.id m.userID = false) := by
  have hc := db.constraints
  have hpublic : (∃ perms, result (resolvePermissions m.userID srv.id c.id) { db, now } =
        .ok perms ∧ has perms viewChannel = true) ↔
      srv.ownerID = m.userID ∨ Sees db.tables now srv m c := by
    -- with an empty cache the mask is computed
    have hmask := result_of_miss (s := { db, now }) hs hsrv hm hserver hch rfl
    rw [hmask]
    simp only [Except.ok.injEq, exists_eq_left']
    by_cases howner : srv.ownerID = m.userID
    · have hown : (storedInput db.tables srv m (some c)).isOwner = true := decide_eq_true howner
      rw [resolveEffective_eq, if_pos (Or.inl hown)]
      exact iff_of_true (by decide) (.inl howner)
    · rw [has_viewChannel_stored howner hserver, or_iff_right howner]
  have hadmin : roleGrants db.tables m administratorBit = true → Sees db.tables now srv m c :=
    fun h => .inr (.inl h)
  rw [mem_getUserChannels hc hsrv hm hserver hch hin,
    hasViewChannel_iff hc hsrv hm hserver hch hin, succeeds_requireChannelAccess hin,
    requirePrivateAccess_iff hs.roles hc hsrv hserver, hpublic]
  by_cases howner : srv.ownerID = m.userID
  · simp [howner]
  · rcases c.isPrivate with _ | _
    · simp [howner]
    · by_cases hsees : Sees db.tables now srv m c
      · simp [howner, hsees]
        tauto
      · have hnot : ¬ roleGrants db.tables m administratorBit = true := fun h => hsees (hadmin h)
        simp [howner, hsees, hnot]

/-- The guest may enter the hall, whoever is asked. -/
theorem access_agrees_hall :
    ("hall" ∈ getUserChannels stageTables "guest" ↔
        hasViewChannel stageTables 50 "guest" "hall" = true) ∧
      (hasViewChannel stageTables 50 "guest" "hall" = true ↔
        succeeds
          (requireChannelAccess { id := "hall", serverID := some "srv", name := "hall" } "guest")
          { db := ⟨stageTables, by decide⟩, now := 50 } = true) :=
  (access_agrees_iff ⟨stageTables, by decide⟩ stageTables_wellFormed 50
    { id := "srv", ownerID := "owner" } (by decide) { userID := "guest", serverID := "srv" }
    (by decide) rfl { id := "hall", serverID := some "srv", name := "hall" } (by decide) rfl).mpr
    (.inr (.inl ⟨.inr (.inr (.inr (by decide))), .inl rfl⟩))

/-- The guest gets the events of the hidden pit without keys or access,
    and the keys of the backstage without events or access. -/
theorem stage_access_disagrees :
    WellFormed stageTables ∧
      ("pit" ∈ getUserChannels stageTables "guest" ∧
        hasViewChannel stageTables 50 "guest" "pit" = false ∧
        succeeds (requireChannelAccess stageTables.channels[3] "guest")
          { db := ⟨stageTables, by decide⟩, now := 50 } = false) ∧
      ("backstage" ∉ getUserChannels stageTables "guest" ∧
        hasViewChannel stageTables 50 "guest" "backstage" = true ∧
        succeeds (requireChannelAccess stageTables.channels[4] "guest")
          { db := ⟨stageTables, by decide⟩, now := 50 } = false) :=
  ⟨stageTables_wellFormed, ⟨by decide, by decide, by decide⟩, by decide, by decide, by decide⟩

end Meza.Chat
