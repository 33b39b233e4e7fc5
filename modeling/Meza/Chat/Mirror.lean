import Meza.Chat.Reading
import Meza.Chat.Rewrites

/-! # Text companions

    A voice channel and its text companion are two rows with overrides of their
    own, and each handler that changes one of them writes to the other as well.
    As long as they agree on category and overrides, the resolver gives one mask
    for both.

    `UpdateChannel` is the handler that can part them: a toggle of the privacy
    flag reaches the companion only if the request has something else for it,
    and what is stored for everyone is handled differently on the two sides; a
    refused update of the companion's row is logged and forgotten. Runs in
    which no update does so keep the companions in step. -/

namespace Meza.Chat

open Store Permissions List Table OverrideScope Run

/-! ## Section 1: Two channels, one mask -/

/-- Every companion is a plain text channel of one voice channel and agrees with it
    on category and overrides. -/
structure Mirrored (t : Tables) : Prop where
  plain : ∀ v ∈ t.channels, ∀ c ∈ t.channels, v.voiceTextChannelID = some c.id →
    c.voiceTextChannelID = none
  single : ∀ v ∈ t.channels, ∀ w ∈ t.channels, ∀ companionID,
    v.voiceTextChannelID = some companionID → w.voiceTextChannelID = some companionID → w.id = v.id
  category : ∀ v ∈ t.channels, ∀ c ∈ t.channels, v.voiceTextChannelID = some c.id →
    c.channelGroupID = v.channelGroupID
  overrides : ∀ v ∈ t.channels, ∀ c ∈ t.channels, v.voiceTextChannelID = some c.id →
    ∀ subject, overrideAt t.permissionOverrides (.channel c.id) subject =
      overrideAt t.permissionOverrides (.channel v.id) subject

theorem Mirrored.of_none {t : Tables} (h : ∀ v ∈ t.channels, v.voiceTextChannelID = none) :
    Mirrored t := by
  have hnone : ∀ v ∈ t.channels, ∀ id, v.voiceTextChannelID ≠ some id := by
    intro v hv id hid
    rw [h v hv] at hid
    cases hid
  refine ⟨?_, ?_, ?_, ?_⟩
  · exact fun v hv c _ hc => absurd hc (hnone v hv c.id)
  · exact fun v hv _ _ id hid => absurd hid (hnone v hv id)
  · exact fun v hv c _ hc => absurd hc (hnone v hv c.id)
  · exact fun v hv c _ hc => absurd hc (hnone v hv c.id)

/-- For every member there is one mask that both channels of a pair are answered
    with, unless the answer comes from the cache. -/
def SameMasks (s : ChatState) : Prop :=
  ∀ srv ∈ s.db.tables.servers, ∀ m ∈ s.db.tables.members, m.serverID = srv.id →
    ∀ v ∈ s.db.tables.channels, ∀ c ∈ s.db.tables.channels, v.serverID = some srv.id →
      v.voiceTextChannelID = some c.id →
      ∃ mask, ∀ channelID ∈ [v.id, c.id],
        s.cache.get s.now { userID := m.userID, serverID := srv.id, channelID } = none →
          Action.result (resolvePermissions m.userID srv.id channelID) s = .ok mask

variable {c : Channel} {s : ChatState}

section Masks

variable {t : Tables}

theorem mem_roleOverridesOf {scope : OverrideScope} {roleIDs : List ID}
    (hc : t.Constraints) {o : Override} :
    o ∈ roleOverridesOf t (some scope) roleIDs ↔
      ∃ roleID ∈ roleIDs, overrideAt t.permissionOverrides scope (.role roleID) = some o := by
  unfold roleOverridesOf
  simp only [mem_map, mem_filter, decide_eq_true_eq, Option.some.injEq]
  constructor
  · rintro ⟨po, ⟨hpo, hscope, roleID, hrole, hsubject⟩, rfl⟩
    have hread := overrideAt_of_mem hc.roles.overridesTarget hpo
    rw [hscope, hsubject] at hread
    exact ⟨roleID, hrole, hread⟩
  · rintro ⟨roleID, hrole, hread⟩
    obtain ⟨po, hpo, hscope, hsubject, rfl⟩ := overrideAt_eq_some hread
    exact ⟨po, ⟨hpo, hscope, roleID, hrole, hsubject⟩, rfl⟩

/-- The resolver reads a channel by its category and its overrides. -/
theorem storedInput_same (hc : t.Constraints) (srv : Server) (m : Member) {d : Channel}
    (hgroup : d.channelGroupID = c.channelGroupID)
    (hoverrides : ∀ subject, overrideAt t.permissionOverrides (.channel d.id) subject =
      overrideAt t.permissionOverrides (.channel c.id) subject) :
    (storedInput t srv m (some c)).SameUpToOrder (storedInput t srv m (some d)) := by
  refine ⟨rfl, rfl, rfl, ?_, ?_, fun _ => .rfl, ?_, ?_⟩
  · show userOverrideOf t (d.channelGroupID.map .group) m.userID = _
    rw [hgroup]
    rfl
  · exact hoverrides (.user m.userID)
  · intro o
    show o ∈ roleOverridesOf t (d.channelGroupID.map .group) _ ↔ _
    rw [hgroup]
    rfl
  · intro o
    show o ∈ roleOverridesOf t (some (.channel d.id)) _ ↔
      o ∈ roleOverridesOf t (some (.channel c.id)) _
    rw [mem_roleOverridesOf hc, mem_roleOverridesOf hc]
    simp only [hoverrides]

theorem Mirrored.sameMasks (h : Mirrored s.db.tables) (hs : WellFormed s.db.tables) :
    SameMasks s := by
  intro srv hsrv m hm hserver v hv c hc hvsrv hcompanion
  refine ⟨resolveEffective (storedInput s.db.tables srv m (some v)) s.now, ?_⟩
  intro channelID hid hmiss
  rcases mem_cons.mp hid with rfl | hid
  · exact result_of_miss hs hsrv hm hserver hv hmiss
  · rw [mem_singleton.mp hid] at hmiss ⊢
    rw [result_of_miss hs hsrv hm hserver hc hmiss]
    have hsame := storedInput_same s.db.constraints srv m (h.category v hv c hc hcompanion)
      (h.overrides v hv c hc hcompanion)
    rw [resolveEffective_congr s.now hsame]

end Masks

/-! ## Section 2: What parts a pair -/

/-- A toggle of the flag treats both channels alike: it reaches the companion and
    keeps no allow that only the voice channel has, or it writes what is stored
    already. -/
def TogglesAlike (t : Tables) (ch : Channel) (req : UpdateChannelRequest) : Prop :=
  ∀ isPrivate ∈ privacyToggle ch req,
    let old := overrideAt t.permissionOverrides (.channel ch.id) (.role (ch.serverID.getD ""))
    if touchesCompanion req then isPrivate = true → ∀ o ∈ old, o.allow = 0
    else toggled isPrivate old = old

instance (t : Tables) (ch : Channel) (req : UpdateChannelRequest) :
    Decidable (TogglesAlike t ch req) := inferInstanceAs (Decidable (∀ _ ∈ privacyToggle ch req, _))

/-- The companion takes over a new category. -/
def MovesAlike (t : Tables) (ch : Channel) (req : UpdateChannelRequest) : Prop :=
  regrouped req ch.channelGroupID = ch.channelGroupID ∨ CompanionFollows t ch req

instance (t : Tables) (ch : Channel) (req : UpdateChannelRequest) :
    Decidable (MovesAlike t ch req) := inferInstanceAs (Decidable (_ ∨ _))

/-- The ids drawn are new, and an update of a voice channel does to the companion
    what it does to the channel. -/
structure KeepsCompanions (s : ChatState) (ev : ServerEvent) : Prop where
  fresh : ev.Fresh s.db.tables
  updates : ∀ caller overrideID mirrorID uuid req,
    ev = .event (.call caller (.updateChannel overrideID mirrorID uuid req)) →
    ∀ ch ∈ s.db.tables.channels, ch.id = req.channelID → ch.voiceTextChannelID ≠ none →
      TogglesAlike s.db.tables ch req ∧ MovesAlike s.db.tables ch req

section Steps

variable {t t' : Tables} {s' : ChatState}

theorem Mirrored.of_seats {R : Channel → Channel → Prop} (h : Mirrored t)
    (hseats : Forall₂ R t.channels t'.channels)
    (hid : ∀ c c', R c c' → c'.id = c.id ∧ c'.voiceTextChannelID = c.voiceTextChannelID)
    (hgroup : ∀ v ∈ t.channels, ∀ c ∈ t.channels, v.voiceTextChannelID = some c.id →
      ∀ v' c', R v v' → R c c' → c'.channelGroupID = v'.channelGroupID)
    (hoverrides : ∀ v ∈ t.channels, ∀ c ∈ t.channels, v.voiceTextChannelID = some c.id →
      ∀ subject, overrideAt t'.permissionOverrides (.channel c.id) subject =
        overrideAt t'.permissionOverrides (.channel v.id) subject) : Mirrored t' := by
  -- a pair of the new rows comes from a pair of the old ones
  have hpair : ∀ v' ∈ t'.channels, ∀ c' ∈ t'.channels, v'.voiceTextChannelID = some c'.id →
      ∃ v ∈ t.channels, ∃ c ∈ t.channels, R v v' ∧ R c c' ∧ v.voiceTextChannelID = some c.id := by
    intro v' hv' c' hc' hcompanion
    obtain ⟨v, hv, hvR⟩ := exists_of_forall₂ hseats hv'
    obtain ⟨c, hc, hcR⟩ := exists_of_forall₂ hseats hc'
    refine ⟨v, hv, c, hc, hvR, hcR, ?_⟩
    rw [← (hid v v' hvR).2, ← (hid c c' hcR).1]
    exact hcompanion
  refine ⟨?_, ?_, ?_, ?_⟩
  · intro v' hv' c' hc' hcompanion
    obtain ⟨v, hv, c, hc, hvR, hcR, hold⟩ := hpair v' hv' c' hc' hcompanion
    rw [(hid c c' hcR).2]
    exact h.plain v hv c hc hold
  · intro v' hv' w' hw' companionID hvc hwc
    obtain ⟨v, hv, hvR⟩ := exists_of_forall₂ hseats hv'
    obtain ⟨w, hw, hwR⟩ := exists_of_forall₂ hseats hw'
    rw [(hid v v' hvR).2] at hvc
    rw [(hid w w' hwR).2] at hwc
    rw [(hid v v' hvR).1, (hid w w' hwR).1]
    exact h.single v hv w hw companionID hvc hwc
  · intro v' hv' c' hc' hcompanion
    obtain ⟨v, hv, c, hc, hvR, hcR, hold⟩ := hpair v' hv' c' hc' hcompanion
    exact hgroup v hv c hc hold v' c' hvR hcR
  · intro v' hv' c' hc' hcompanion subject
    obtain ⟨v, hv, c, hc, hvR, hcR, hold⟩ := hpair v' hv' c' hc' hcompanion
    rw [(hid v v' hvR).1, (hid c c' hcR).1]
    exact hoverrides v hv c hc hold subject

theorem Mirrored.of_rewritten
    {f : OverrideScope → OverrideSubject → Option Override → Option Override} (h : Mirrored t)
    (hw : Rewritten f t t')
    (hf : ∀ v ∈ t.channels, ∀ c ∈ t.channels, v.voiceTextChannelID = some c.id →
      ∀ subject old, f (.channel c.id) subject old = f (.channel v.id) subject old) :
    Mirrored t' := by
  refine h.of_seats hw.channels (fun c c' hR => ⟨hR.id, hR.companion⟩) ?_ ?_
  · intro v hv c hc hcompanion v' c' hvR hcR
    rw [hvR.group, hcR.group]
    exact h.category v hv c hc hcompanion
  · intro v hv c hc hcompanion subject
    rw [hw.overrides, hw.overrides, h.overrides v hv c hc hcompanion subject]
    exact hf v hv c hc hcompanion subject _

/-- A scope that is not a companion covers both channels of a pair or none. -/
theorem Mirrored.covers_iff (h : Mirrored t) (hcon : t.Constraints) {v : Channel}
    (hv : v ∈ t.channels) (hcompanion : v.voiceTextChannelID = some c.id) {scope : OverrideScope}
    (hdirect : scope ≠ .channel c.id) :
    Covers t scope (.channel c.id) ↔ Covers t scope (.channel v.id) := by
  constructor
  · intro hcovers
    rcases hcovers with hown | ⟨companionID, hmem, heq⟩
    · exact absurd hown.symm hdirect
    · -- the scope is the voice channel of `c`, and there is one only
      injection heq with heq
      rcases scope with id | id
      · cases hmem
      · obtain ⟨w, hlook, hw⟩ := Option.bind_eq_some_iff.mp hmem
        obtain ⟨hwmem, hwid⟩ := mem_of_lookup hlook
        have hsame := h.single v hv w hwmem c.id hcompanion (by rw [heq]; exact hw)
        exact .inl (by rw [← hwid, hsame])
  · intro hcovers
    rcases hcovers with hown | ⟨companionID, hmem, heq⟩
    · have hlook := lookup_of_mem hcon.channels.channelsPK hv
      rw [← hown]
      exact .inr ⟨c.id, by rw [companionOf_channel hlook]; exact hcompanion, rfl⟩
    · -- a voice channel is no companion
      injection heq with heq
      rcases scope with id | id
      · cases hmem
      · obtain ⟨w, hlook, hw⟩ := Option.bind_eq_some_iff.mp hmem
        have hnone := h.plain w (mem_of_lookup hlook).1 v hv (by rw [heq]; exact hw)
        rw [hcompanion] at hnone
        cases hnone

theorem isCompanion_of_pair {v : Channel} (hv : v ∈ t.channels)
    (hcompanion : v.voiceTextChannelID = some c.id) :
    ChatStore.isVoiceTextCompanion t c.id = true :=
  any_eq_true.mpr ⟨v, hv, decide_eq_true hcompanion⟩

theorem Mirrored.of_replaced {targetID roleID userID : ID} {new : Option Override}
    (h : Mirrored s.db.tables) (hw : Replaced targetID roleID userID new s s') :
    Mirrored s'.db.tables := by
  obtain ⟨target, subject, -, hdirect, -, hrewritten⟩ := hw.change
  refine h.of_rewritten hrewritten ?_
  intro v hv c hc hcompanion subject' old
  -- the handlers refuse companions as targets
  have hscope : target.scope targetID ≠ .channel c.id := by
    intro heq
    refine hdirect ⟨?_, ?_⟩
    · unfold OverrideTarget.scope at heq
      split at heq
      · cases heq
      · rename_i hgroup
        simpa using hgroup
    · rw [← channelID_of_scope heq]
      exact isCompanion_of_pair hv hcompanion
  unfold replaceAt
  simp only [h.covers_iff s.db.constraints hv hcompanion hscope]

theorem Mirrored.of_emptied {channelID : ID} (h : Mirrored s.db.tables)
    (hw : Emptied channelID s s') : Mirrored s'.db.tables := by
  obtain ⟨ch, -, hdirect, hrewritten⟩ := hw.change
  refine h.of_rewritten hrewritten ?_
  intro v hv c hc hcompanion subject old
  have hscope : channel channelID ≠ .channel c.id := by
    apply channel_ne
    intro heq
    rw [heq, isCompanion_of_pair hv hcompanion] at hdirect
    cases hdirect
  simp only [h.covers_iff s.db.constraints hv hcompanion hscope]

theorem Mirrored.of_dissolved {groupID : ID} (h : Mirrored s.db.tables)
    (hw : Dissolved groupID s s') : Mirrored s'.db.tables := by
  refine h.of_seats hw.channels (fun c c' hR => ⟨hR.id, hR.companion⟩) ?_ ?_
  · intro v hv c hc hcompanion v' c' hvR hcR
    rw [hvR.group, hcR.group, h.category v hv c hc hcompanion]
  · intro v hv c hc hcompanion subject
    -- both channels are in the category, or none is
    have hin : ∀ d ∈ s.db.tables.channels,
        (∃ d' ∈ s.db.tables.channels, d'.id = d.id ∧ d'.channelGroupID = some groupID) ↔
          d.channelGroupID = some groupID := by
      intro d hd
      constructor
      · rintro ⟨d', hd', hid, hgroup⟩
        rwa [← eq_of_key s.db.constraints.channels.channelsPK hd' hd hid]
      · exact fun hgroup => ⟨d, hd, rfl, hgroup⟩
    rw [hw.overrides, hw.overrides, h.overrides v hv c hc hcompanion subject]
    unfold dissolvedOverride
    simp only [hin v hv, hin c hc, h.category v hv c hc hcompanion]

variable {req : UpdateChannelRequest}

/-- Both sides of a toggle end up alike. -/
theorem TogglesAlike.updatedOverride_eq {ch : Channel} (h : TogglesAlike t ch req)
    (hid : ch.id = req.channelID) {companionID : ID}
    (hcompanion : ch.voiceTextChannelID = some companionID) (hother : companionID ≠ req.channelID)
    (subject : OverrideSubject) :
    updatedOverride ch req (.channel companionID) subject
        (overrideAt t.permissionOverrides (.channel ch.id) subject) =
      updatedOverride ch req (.channel ch.id) subject
        (overrideAt t.permissionOverrides (.channel ch.id) subject) := by
  unfold updatedOverride
  rcases htoggle : privacyToggle ch req with _ | isPrivate
  · rfl
  · by_cases hsubject : subject = .role (ch.serverID.getD "")
    · have hne := channel_ne hother
      have halike := h isPrivate htoggle
      dsimp only at halike ⊢
      rw [if_pos hsubject, if_pos hsubject, if_neg hne, hid, if_pos rfl, hsubject]
      rw [hid] at halike
      by_cases htouch : touchesCompanion req = true
      · -- the companion's override is set anew, without an allow
        rw [if_pos ⟨htouch, companionID, hcompanion, rfl⟩]
        rw [if_pos htouch] at halike
        unfold toggled
        rcases isPrivate with _ | _
        · rfl
        · rcases hold : overrideAt t.permissionOverrides (.channel req.channelID)
            (.role (ch.serverID.getD "")) with _ | o
          · rfl
          · simp [halike rfl o hold]
      · -- the companion keeps what it has
        rw [if_neg fun h => htouch h.1]
        rw [if_neg htouch] at halike
        exact halike.symm
    · dsimp only
      rw [if_neg hsubject, if_neg hsubject]

theorem updatedOverride_of_other {ch : Channel} {id : ID} (hid : id ≠ req.channelID)
    (hcompanion : ch.voiceTextChannelID ≠ some id) (subject : OverrideSubject)
    (old : Option Override) : updatedOverride ch req (.channel id) subject old = old := by
  unfold updatedOverride
  split
  · rfl
  · have hnone : ¬ (touchesCompanion req = true ∧ ∃ companionID ∈ ch.voiceTextChannelID,
        channel id = .channel companionID) := by
      rintro ⟨-, companionID, hmem, heq⟩
      injection heq with heq
      exact hcompanion (by rw [heq]; exact hmem)
    rw [if_neg (channel_ne hid), if_neg hnone, ite_self]

/-- **An update that treats both alike** keeps them together. -/
theorem Mirrored.of_updated (h : Mirrored s.db.tables) (hw : Updated req s s')
    (halike : ∀ ch ∈ s.db.tables.channels, ch.id = req.channelID → ch.voiceTextChannelID ≠ none →
    TogglesAlike s.db.tables ch req ∧ MovesAlike s.db.tables ch req) : Mirrored s'.db.tables := by
  obtain ⟨ch, hlook, -, hdirect, hseats, hoverrides⟩ := hw.change
  obtain ⟨hch, hchid⟩ := mem_of_lookup hlook
  have hpk := s.db.constraints.channels.channelsPK
  -- the channel is no companion, and a pair it is not part of is left alone
  have hnot : ∀ v ∈ s.db.tables.channels, ∀ c : Channel, v.voiceTextChannelID = some c.id →
      c.id ≠ req.channelID := by
    intro v hv c hcompanion heq
    rw [← heq, isCompanion_of_pair hv hcompanion] at hdirect
    cases hdirect
  have hvoice : ∀ v ∈ s.db.tables.channels, ∀ companionID, v.voiceTextChannelID = some companionID →
      ch.voiceTextChannelID ≠ some v.id := by
    intro v hv companionID hcompanion heq
    have hnone := h.plain ch hch v hv heq
    rw [hcompanion] at hnone
    cases hnone
  have hchc : ∀ v ∈ s.db.tables.channels, ∀ c : Channel, v.voiceTextChannelID = some c.id →
      v.id ≠ req.channelID → ch.voiceTextChannelID ≠ some c.id := by
    intro v hv c hcompanion hne heq
    refine hne ?_
    rw [← hchid]
    exact (h.single v hv ch hch c.id hcompanion heq).symm
  refine h.of_seats hseats (fun c c' hR => ⟨hR.id, hR.companion⟩) ?_ ?_
  · intro v hv c hc hcompanion v' c' hvR hcR
    have hgroup := h.category v hv c hc hcompanion
    have hcother := (hcR.other (hnot v hv c hcompanion)).2
    by_cases hown : v.id = req.channelID
    · -- the voice channel moves, and the companion follows or need not
      obtain rfl : v = ch := eq_of_key hpk hv hch (hown.trans hchid.symm)
      rw [(hvR.own hown).1]
      rcases (halike v hv hown (by rw [hcompanion]; exact Option.some_ne_none _)).2 with
        hstays | hfollows
      · rcases hcother with hc' | ⟨-, hc'⟩
        · rw [hc', hstays, hgroup]
        · rw [hc', hgroup]
      · rw [hcR.follows hcompanion hfollows, hgroup]
    · have hc' : c'.channelGroupID = c.channelGroupID := by
        rcases hcother with hc' | ⟨heq, -⟩
        · exact hc'
        · exact absurd heq (hchc v hv c hcompanion hown)
      have hv' : v'.channelGroupID = v.channelGroupID := by
        rcases (hvR.other hown).2 with hv' | ⟨heq, -⟩
        · exact hv'
        · exact absurd heq (hvoice v hv c.id hcompanion)
      rw [hc', hv', hgroup]
  · intro v hv c hc hcompanion subject
    rw [hoverrides, hoverrides, h.overrides v hv c hc hcompanion subject]
    by_cases hown : v.id = req.channelID
    · obtain rfl : v = ch := eq_of_key hpk hv hch (hown.trans hchid.symm)
      have htoggles := (halike v hv hown (by rw [hcompanion]; exact Option.some_ne_none _)).1
      exact htoggles.updatedOverride_eq hown hcompanion (hnot v hv c hcompanion) subject
    · rw [updatedOverride_of_other (hnot v hv c hcompanion) (hchc v hv c hcompanion hown),
        updatedOverride_of_other hown (hvoice v hv c.id hcompanion)]

theorem Mirrored.of_created {ids : CreationIDs} {caller : Option ID} {req : CreateChannelRequest}
    (h : Mirrored s.db.tables) (hs : WellFormed s.db.tables) (hw : Created ids caller req s s') :
    Mirrored s'.db.tables := by
  have hpk' := s'.db.constraints.channels.channelsPK
  obtain ⟨isPrivate, -, hchannels, hoverrides⟩ := hw.overrideAt hs
  -- an old channel has an old companion, a new one a new companion
  have hold : ∀ v ∈ s.db.tables.channels, ∀ id, v.voiceTextChannelID = some id →
      id ∉ ids.created req := by
    intro v hv id hid hmem
    exact hw.created_new hmem (s.db.constraints.channels.channelsCompanion v hv id hid)
  have hfound : ∀ v ∈ s'.db.tables.channels, v ∈ s.db.tables.channels ∨
      v ∈ newChannels ids req isPrivate s.db.tables := by
    intro v hv
    rw [hchannels] at hv
    exact mem_append.mp hv
  have hpair : ∀ v ∈ s'.db.tables.channels, ∀ c ∈ s'.db.tables.channels,
      v.voiceTextChannelID = some c.id → (v ∈ s.db.tables.channels ∧ c ∈ s.db.tables.channels) ∨
      (v ∈ newChannels ids req isPrivate s.db.tables ∧
      c ∈ newChannels ids req isPrivate s.db.tables) := by
    intro v hv c hc hcompanion
    rcases hfound v hv with hv | hv
    · rcases hfound c hc with hc | hc
      · exact .inl ⟨hv, hc⟩
      · exact absurd (of_mem_newChannels hc).1 (hold v hv c.id hcompanion)
    · rcases hfound c hc with hc | hc
      · obtain ⟨-, -, -, -, hvoice⟩ := of_mem_newChannels hv
        exact absurd (mem_map_of_mem hc) (hw.created_new (hvoice c.id hcompanion).2.2)
      · exact .inr ⟨hv, hc⟩
  refine ⟨?_, ?_, ?_, ?_⟩
  · intro v hv c hc hcompanion
    rcases hpair v hv c hc hcompanion with ⟨hvold, hcold⟩ | ⟨hvnew, hcnew⟩
    · exact h.plain v hvold c hcold hcompanion
    · refine newCompanion_plain ?_ hvnew hcnew hcompanion
      unfold UniqueOn at hpk' ⊢
      rw [hchannels, map_append] at hpk'
      exact (nodup_append.mp hpk').2.1
  · intro v hv w hw' companionID hvc hwc
    rcases hfound v hv with hvold | hvnew
    · rcases hfound w hw' with hwold | hwnew
      · exact h.single v hvold w hwold companionID hvc hwc
      · obtain ⟨-, -, -, -, hvoice⟩ := of_mem_newChannels hwnew
        exact absurd (hvoice companionID hwc).2.2 (hold v hvold companionID hvc)
    · obtain ⟨-, -, -, -, hvoice⟩ := of_mem_newChannels hvnew
      obtain ⟨-, hvid, hmem⟩ := hvoice companionID hvc
      rcases hfound w hw' with hwold | hwnew
      · exact absurd hmem (hold w hwold companionID hwc)
      · obtain ⟨-, -, -, -, hvoice'⟩ := of_mem_newChannels hwnew
        rw [hvid, (hvoice' companionID hwc).2.1]
  · intro v hv c hc hcompanion
    rcases hpair v hv c hc hcompanion with ⟨hvold, hcold⟩ | ⟨hvnew, hcnew⟩
    · exact h.category v hvold c hcold hcompanion
    · rw [(of_mem_newChannels hvnew).2.2.1, (of_mem_newChannels hcnew).2.2.1]
  · intro v hv c hc hcompanion subject
    rw [hoverrides, hoverrides]
    rcases hpair v hv c hc hcompanion with ⟨hvold, hcold⟩ | ⟨hvnew, hcnew⟩
    · rw [if_neg (hw.notMem_created hcold), if_neg (hw.notMem_created hvold)]
      exact h.overrides v hvold c hcold hcompanion subject
    · rw [if_pos (mem_map_of_mem (of_mem_newChannels hcnew).1),
        if_pos (mem_map_of_mem (of_mem_newChannels hvnew).1)]

/-- **Every event** that treats both alike keeps the companions. -/
theorem Mirrored.of_writes {ev : ServerEvent} (h : Mirrored s.db.tables)
    (hs : WellFormed s.db.tables) (hkeeps : KeepsCompanions s ev) (hw : Writes s s' ev) :
    Mirrored s'.db.tables := by
  cases hw with
  | nothing hchannels hoverrides =>
    refine h.of_rewritten (f := fun _ _ old => old) ⟨?_, ?_⟩ fun _ _ _ _ _ _ _ => rfl
    · rw [hchannels]
      exact sameSeat_refl _
    · intro scope subject
      rw [hoverrides]
  | set hreplaced | delete hreplaced => exact h.of_replaced hreplaced
  | sync hemptied => exact h.of_emptied hemptied
  | update hupdated => exact h.of_updated hupdated (hkeeps.updates _ _ _ _ _ rfl)
  | deleteGroup hdissolved => exact h.of_dissolved hdissolved
  | deleteRole _ hrewritten => exact h.of_rewritten hrewritten fun _ _ _ _ _ _ _ => rfl
  | create hcreated => exact h.of_created hs hcreated

end Steps

/-! ## Section 3: Runs -/

/-- What a run keeps. -/
structure InStep (s : ChatState) : Prop where
  wellFormed : WellFormed s.db.tables
  mirrored : Mirrored s.db.tables

theorem serverStep_inStep {ev : ServerEvent} (h : InStep s) (hkeeps : KeepsCompanions s ev) :
    InStep (serverStep s ev) :=
  ⟨serverStep_wellFormed h.wellFormed hkeeps.fresh,
    h.mirrored.of_writes h.wellFormed hkeeps (serverStep_writes h.wellFormed hkeeps.fresh)⟩

/-- **Companions stay in step**: in every state of a run whose updates treat both
    channels alike, the two have the same mask for every member. -/
theorem companions_sameMasks (s : ChatState) (hs : InStep s) (evs : List ServerEvent)
    (hrun : Guarded serverStep KeepsCompanions s evs) :
    SameMasks (exec serverStep s evs) := by
  have hstep : ∀ s ev, InStep s → KeepsCompanions s ev → InStep (serverStep s ev) :=
    fun _ _ h hkeeps => serverStep_inStep h hkeeps
  have hend := exec_invariant hstep hs hrun
  exact hend.mirrored.sameMasks hend.wellFormed

/-- A server with a closed category, before it has a voice channel. -/
def clubTables : Tables where
  users := [{ id := "owner", signingPublicKey := none },
    { id := "guest", signingPublicKey := none }]
  servers := [{ id := "srv", ownerID := "owner" }]
  members := [{ userID := "owner", serverID := "srv" }, { userID := "guest", serverID := "srv" }]
  channelGroups := [{ id := "stage", serverID := "srv" }]
  channels := [{ id := "general", serverID := some "srv", name := "general" }]
  roles := [{ id := "srv", serverID := "srv", name := "@everyone", permissions := viewChannel,
              position := 0 }]
  permissionOverrides := [{ id := "closed", scope := .group "stage", subject := .role "srv",
                            allow := 0, deny := viewChannel }]

def clubState : ChatState where
  db := ⟨clubTables, by decide⟩

theorem clubState_inStep : InStep clubState :=
  ⟨⟨⟨by decide, by decide⟩, ⟨by decide, by decide, by decide, by decide, by decide⟩⟩,
    .of_none (by decide)⟩

def openVoice (channelGroupID : ID) : ServerEvent :=
  .createChannel
    { channelID := "voice", companionID := "text", deny := fun id => "deny " ++ id,
      copy := fun overrideID id => overrideID ++ " " ++ id }
    (some "owner") { serverID := "srv", name := "club", type := 2, channelGroupID }

def updateVoice (req : UpdateChannelRequest) : ServerEvent :=
  .event (.call (some "owner") (.updateChannel "hide voice" "hide text" (fun _ id => id) req))

def allowVoice (newID mirrorID roleID userID : ID) (allow : Mask) : ServerEvent :=
  .event (.call (some "owner") (.setPermissionOverride newID mirrorID
    { targetID := "voice", roleID, userID, allow, deny := 0 }))

/-- A toggle that comes with a name reaches the companion. -/
theorem companions_sameMasks_club :
    SameMasks (exec serverStep clubState [openVoice "",
      updateVoice { channelID := "voice", name := some "den", isPrivate := some true }]) := by
  refine companions_sameMasks clubState clubState_inStep _
    ⟨⟨⟨?_, ?_, ?_⟩, ?_⟩, ⟨⟨?_, ?_⟩, ?_⟩, trivial⟩
  · decide
  · decide
  · decide
  · intro _ _ _ _ _ h
    cases h
  · decide +kernel
  · decide
  · intro _ _ _ _ req h
    injection h with h
    injection h with _ h
    injection h with _ _ _ h
    rw [← h]
    decide +kernel

theorem not_sameMasks (hcache : s.cache = [])
    (h : ∃ srv ∈ s.db.tables.servers, ∃ m ∈ s.db.tables.members, m.serverID = srv.id ∧
    ∃ v ∈ s.db.tables.channels, ∃ c ∈ s.db.tables.channels, v.serverID = some srv.id ∧
    v.voiceTextChannelID = some c.id ∧ Action.result (resolvePermissions m.userID srv.id v.id) s ≠
    Action.result (resolvePermissions m.userID srv.id c.id) s) : ¬ SameMasks s := by
  intro hsame
  obtain ⟨srv, hsrv, m, hm, hserver, v, hv, c, hc, hin, hcompanion, hne⟩ := h
  obtain ⟨mask, hmask⟩ := hsame srv hsrv m hm hserver v hv c hc hin hcompanion
  refine hne ((hmask v.id mem_cons_self ?_).trans (hmask c.id ?_ ?_).symm)
  · rw [hcache]
    rfl
  · exact mem_cons_of_mem _ mem_cons_self
  · rw [hcache]
    rfl

/-- Four updates that part the two: a toggle alone does not reach the companion, a
    toggle keeps an allow on one side, and a new category is refused for the
    companion, whose name is taken or which is still synced. -/
theorem club_parted :
    InStep clubState ∧
    ¬ SameMasks (exec serverStep clubState [openVoice "",
      updateVoice { channelID := "voice", isPrivate := some true }]) ∧
    ¬ SameMasks (exec serverStep clubState [openVoice "",
      allowVoice "see" "see text" "" "guest" viewChannel,
      allowVoice "send" "send text" "srv" "" sendMessages,
      updateVoice { channelID := "voice", name := some "den", isPrivate := some true }]) ∧
    ¬ SameMasks (exec serverStep clubState [openVoice "",
      updateVoice { channelID := "voice", name := some "general",
                    channelGroupID := some "stage" }]) ∧
    ¬ SameMasks (exec serverStep clubState [openVoice "stage",
      allowVoice "send" "send text" "srv" "" sendMessages,
      updateVoice { channelID := "voice", channelGroupID := some "" }]) := by
  refine ⟨clubState_inStep, ?_, ?_, ?_, ?_⟩
  · exact not_sameMasks (by decide +kernel) (by decide +kernel)
  · exact not_sameMasks (by decide +kernel) (by decide +kernel)
  · exact not_sameMasks (by decide +kernel) (by decide +kernel)
  · exact not_sameMasks (by decide +kernel) (by decide +kernel)

end Meza.Chat
