import Meza.Store.TemplateStore
import Meza.Chat.Creation
import Meza.Reports.Isolation

/-! # Founding servers

    `CreateServer` makes a server with one channel; `CreateServerFromTemplate`
    makes one after a template, which it checks first: sizes, names, permission
    bits, and that every name a spec refers to is declared. What comes after the
    transaction, an invite and the owner's channel memberships, is best effort. -/

namespace Meza.Chat

open Store Permissions ChatStore List Action Table

/-! ## Section 1: Requests -/

structure CreateServerRequest where
  name : String
  defaultChannelPrivacy : Bool := false

structure TemplateChannel where
  name : String
  type : Nat := 1
  isDefault : Bool := false
  isPrivate : Bool := false
  roleNames : List String := []
  groupName : Option String := none

def TemplateChannel.toSpec (ch : TemplateChannel) : TemplateChannelSpec :=
  { name := ch.name, type := ch.type, isDefault := ch.isDefault, isPrivate := ch.isPrivate,
    roleNames := ch.roleNames, groupName := ch.groupName.getD "" }

structure CreateServerFromTemplateRequest where
  name : String
  welcomeMessage : Option String := none
  rules : Option String := none
  onboardingEnabled : Bool := false
  rulesRequired : Bool := false
  channels : List TemplateChannel
  roles : List TemplateRoleSpec := []
  everyonePermissions : Option Mask := none
  channelGroups : List TemplateChannelGroupSpec := []

/-- The default channel privacy of a server is not part of a template. -/
def CreateServerFromTemplateRequest.toParams (req : CreateServerFromTemplateRequest)
    (ownerID : ID) : CreateServerFromTemplateParams :=
  { ownerID, onboardingEnabled := req.onboardingEnabled, rulesRequired := req.rulesRequired,
    channels := req.channels.map TemplateChannel.toSpec, roles := req.roles,
    everyonePermissions := req.everyonePermissions, channelGroups := req.channelGroups }

/-! ## Section 2: Checks -/

/-- The whitelist of bits for `@everyone`. -/
def safeEveryonePermissions : Mask :=
  defaultEveryonePermissions ||| streamVideo ||| mentionEveryone ||| exemptSlowMode |||
  manageSoundboard

/-- Welcome message and rules of a server, where they are given. -/
def validateOnboardingTexts (welcomeMessage rules : Option String) : Except ConnectError Unit := do
  rejectIf (∃ msg ∈ welcomeMessage, 5000 < msg.utf8ByteSize) .invalidArgument
    "welcome_message exceeds 5000 characters"
  -- `strings.Split` gives one line more than there are line breaks
  rejectIf (∃ text ∈ rules, 25 < text.toList.count '\n' + 1) .invalidArgument
    "rules exceed 25 lines"

def rulesNeedOnboarding : String := "rules_required requires onboarding_enabled"

/-- The name of the spec at place `i`. -/
def validateTemplateName (kind : String) (i : Nat) (name : String) : Except ConnectError Unit := do
  rejectIf (name = "") .invalidArgument s!"{kind} {i}: name is required"
  rejectIf (100 < name.utf8ByteSize) .invalidArgument s!"{kind} {i}: name exceeds 100 characters"

/-- Templates contain neither unknown bits nor Administrator. -/
def validateTemplateRole (i : Nat) (r : TemplateRoleSpec) :
    Except ConnectError Unit := do
  validateTemplateName "role" i r.name
  rejectIf (¬ validate r.permissions) .invalidArgument s!"role {i}: invalid permission bits"
  rejectIf (r.permissions &&& administrator ≠ 0) .invalidArgument
    s!"role {i}: must not include Administrator"

def validateEveryonePermissions (everyonePermissions : Option Mask) :
    Except ConnectError Unit := do
  rejectIf (everyonePermissions.any (! validate ·)) .invalidArgument
    "invalid everyone_permissions bits"
  rejectIf (everyonePermissions.any (· &&& ~~~safeEveryonePermissions ≠ 0)) .invalidArgument
    "everyone_permissions contains disallowed bits"

/-- A name that a spec refers to is declared; `%q` quotes it. -/
def requireDeclared (declared : List String) (field : String) (name : String) :
    Except ConnectError Unit :=
  let quoted := name.quote
  rejectIf (name ∉ declared) .invalidArgument s!"{field} {quoted}"

/-- The store would drop unknown names silently. -/
def validateReferences (req : CreateServerFromTemplateRequest) : Except ConnectError Unit := do
  let groupNames := req.channelGroups.map (·.name)
  let roleNames := req.roles.map (·.name)
  req.channelGroups.zipIdx.forM fun (g, i) =>
    g.allowedRoleNames.forM
      (requireDeclared roleNames s!"channel_group {i}: unknown allowed_role_name")
  req.channels.zipIdx.forM fun (ch, i) => do
    if ch.groupName.getD "" ≠ "" then
      requireDeclared groupNames s!"channel {i}: unknown group_name" (ch.groupName.getD "")
    ch.roleNames.forM (requireDeclared roleNames s!"channel {i}: unknown role_name")

/-- All checks of a template, in the order in which they are made. -/
def validateTemplate (req : CreateServerFromTemplateRequest) : Except ConnectError Unit := do
  Reports.validateServerName req.name
  rejectIf (req.channels = []) .invalidArgument "at least one channel is required"
  rejectIf (50 < req.channels.length) .invalidArgument "too many channels"
  rejectIf (20 < req.roles.length) .invalidArgument "too many roles"
  rejectIf (10 < req.channelGroups.length) .invalidArgument "too many channel groups"
  validateOnboardingTexts req.welcomeMessage req.rules
  rejectIf (req.rulesRequired = true ∧ req.onboardingEnabled = false) .invalidArgument
    rulesNeedOnboarding
  req.channels.zipIdx.forM fun (ch, i) => validateTemplateName "channel" i ch.name
  req.roles.zipIdx.forM fun (r, i) => validateTemplateRole i r
  validateEveryonePermissions req.everyonePermissions
  req.channelGroups.zipIdx.forM fun (g, i) => validateTemplateName "channel_group" i g.name
  validateReferences req

theorem validateTemplate_rules {req : CreateServerFromTemplateRequest}
    (h : validateTemplate req = .ok ()) (hrules : req.rulesRequired = true) :
    req.onboardingEnabled = true := by
  obtain ⟨_, -, h⟩ := bind_eq_ok.mp h
  obtain ⟨_, -, h⟩ := bind_eq_ok.mp h
  obtain ⟨_, -, h⟩ := bind_eq_ok.mp h
  obtain ⟨_, -, h⟩ := bind_eq_ok.mp h
  obtain ⟨_, -, h⟩ := bind_eq_ok.mp h
  obtain ⟨_, -, h⟩ := bind_eq_ok.mp h
  obtain ⟨_, hchecked, -⟩ := bind_eq_ok.mp h
  have hnot := rejectIf_ok.mp hchecked
  by_contra hoff
  exact hnot ⟨hrules, by simpa using hoff⟩

/-! ## Section 3: Handlers -/

/-- `serverID` and `channelID` are the ids that are drawn. -/
def createServer (serverID channelID : ID) (caller : Option ID) (req : CreateServerRequest) :
    Handler Unit := do
  let userID ← require fun _ => authenticate caller
  require fun _ => Reports.validateServerName req.name
  run fun db => ChatStore.createServer db serverID channelID userID req.defaultChannelPrivacy

/-- The invite of a new server runs for seven days. -/
def defaultInviteSeconds : Int := 604800

def createServerFromTemplate (ids : TemplateIDs) (codes : String × String)
    (caller : Option ID) (req : CreateServerFromTemplateRequest) : Handler Server := do
  let userID ← require fun _ => authenticate caller
  require fun _ => validateTemplate req
  let now ← check fun s => .ok s.now
  let (srv, channelIDs) ← transact fun db =>
    ChatStore.createServerFromTemplate ids (req.toParams userID) db
  attempt fun db =>
    (createInvite db codes srv.id userID 0 (some (now + defaultInviteSeconds)) none
      none).map (·.2)
  -- the owner keeps the keys of all channels
  channelIDs.forM fun channelID => attempt fun db => addChannelMember db channelID userID
  return srv

/-! ## Section 4: What a founding does -/

/-- A server was made after a template that passed the checks. -/
structure Founded (ids : TemplateIDs) (req : CreateServerFromTemplateRequest)
    (s s' : ChatState) : Prop where
  change : ∃ userID invites channelMembers, validateTemplate req = .ok () ∧
    Changed (fun t => { withTemplate ids (req.toParams userID) t with
      invites, channelMembers }) id s s'

section Spec

variable {s : ChatState}

theorem createInvite_ok {db db' : DB} {codes : String × String} {serverID creatorID : ID}
    {maxUses : Nat} {expiresAt : Option Int} {keys iv : Option (List UInt8)} {inv : Invite}
    (h : createInvite db codes serverID creatorID maxUses expiresAt keys iv =
      .ok (inv, db')) : ∃ invites, db'.tables = { db.tables with invites } := by
  obtain ⟨db₁, hcommit, h⟩ := bind_eq_ok.mp h
  injection h with h
  obtain ⟨-, rfl⟩ := Prod.mk.inj h
  exact ⟨_, commit_ok hcommit⟩

theorem createServerFromTemplate_spec (ids : ChatStore.TemplateIDs) (codes : String × String)
    (caller : Option ID) (req : CreateServerFromTemplateRequest) :
    Ends (createServerFromTemplate ids codes caller req) s
      (fun _ s' => Founded ids req s s') (fun _ s' => s' = s) := by
  refine ends_require ?_
  intro userID _
  refine ends_require ?_
  intro _ hvalid
  refine ends_check ?_
  intro now _
  refine ends_transact ?_
  intro result db hdb
  obtain ⟨srv, channelIDs⟩ := result
  obtain ⟨htables, -⟩ := createServerFromTemplate_ok hdb
  -- with the invite or without it
  have hrest : ∀ invites s₁, Changed (fun t =>
      { withTemplate ids (req.toParams userID) t with invites }) id s s₁ →
      Ends (channelIDs.forM (fun channelID => attempt fun db =>
        addChannelMember db channelID userID) >>= fun _ => (pure srv : Handler Server))
        s₁ (fun _ s' => Founded ids req s s') (fun _ s' => s' = s) := by
    intro invites s₁ h₁
    rw [ends_bind]
    refine (addMembers_spec id channelIDs userID).mono ?_ (fun _ _ h => h)
    intro _ s₂ h₂
    obtain ⟨channelMembers, h₂⟩ := h₂
    refine ends_pure ⟨userID, invites, channelMembers, hvalid, ?_, ?_, ?_⟩
    · rw [h₂.tables, h₁.tables]
    · rw [h₂.cache, h₁.cache]
      rfl
    · rw [h₂.now, h₁.now]
  refine ends_attempt ?_ (hrest db.tables.invites _ ⟨?_, rfl, rfl⟩)
  · intro db' hdb'
    obtain ⟨⟨inv, db''⟩, hinvite, heq⟩ := map_eq_ok.mp hdb'
    obtain ⟨invites, htables'⟩ := createInvite_ok hinvite
    refine hrest invites _ ⟨?_, rfl, rfl⟩
    show db'.tables = _
    rw [← heq]
    show db''.tables = _
    rw [htables', htables]
  · show db.tables = _
    rw [htables]

/-- The ids that a template draws are told apart from categories and from the
    server level. -/
structure TemplateFresh (ids : TemplateIDs) (req : CreateServerFromTemplateRequest)
    (t : Tables) : Prop where
  server : ids.serverID ≠ ""
  channels : ∀ userID, ∀ c ∈ templateChannels ids (req.toParams userID), c.id ≠ ""
  disjoint : ∀ userID,
    ∀ c ∈ t.channels ++ templateChannels ids (req.toParams userID),
    ∀ g ∈ t.channelGroups ++ templateGroups ids (req.toParams userID), c.id ≠ g.id

variable {s' : ChatState} {ids : TemplateIDs} {req : CreateServerFromTemplateRequest}

/-- **Founded well**: names are resolved within the template, and what was there
    refers to what was there. -/
theorem Founded.wellFormed (h : Founded ids req s s') (hs : WellFormed s.db.tables)
    (hfresh : TemplateFresh ids req s.db.tables) : WellFormed s'.db.tables := by
  obtain ⟨userID, invites, channelMembers, -, hchange⟩ := h.change
  have hc := s.db.constraints
  have hc' := s'.db.constraints
  rw [hchange.tables] at hc' ⊢
  generalize hparams : req.toParams userID = params at *
  have hnewChannels := hfresh.channels userID
  have hdisjoint := hfresh.disjoint userID
  rw [hparams] at hnewChannels hdisjoint
  refine ⟨⟨?_, ?_⟩, ⟨?_, ?_, ?_, ?_, ?_⟩⟩
  · intro srv hsrv
    rcases mem_append.mp hsrv with hsrv | hsrv
    · obtain ⟨r, hr, hr'⟩ := hs.roles.everyone srv hsrv
      exact ⟨r, mem_append_left _ hr, hr'⟩
    · rw [mem_singleton.mp hsrv]
      exact ⟨_, mem_append_right _ mem_cons_self, rfl, rfl, rfl⟩
  · intro mr hmr r hr hid
    rcases mem_append.mp hr with hr | hr
    · exact hs.roles.assigned mr hmr r hr hid
    · have hold := hc.roles.memberRolesRole mr hmr
      exact absurd hid (ne_of_append hc'.roles.rolesPK hold hr)
  · intro c hcmem g hg hin
    rcases mem_append.mp hcmem with hcmem | hcmem
    · -- an old channel is in an old category
      rcases mem_append.mp hg with hg | hg
      · exact hs.channels.groups c hcmem g hg hin
      · have hold := hc.channels.channelsGroup c hcmem g.id hin
        exact absurd rfl (ne_of_append hc'.channels.groupsPK hold hg)
    · obtain ⟨p, -, hcmem⟩ := mem_templateChannels.mp hcmem
      obtain ⟨-, hserver, hgroup, -, -⟩ := of_mem_templateChannel hcmem
      obtain ⟨g', hg', hid⟩ := templateGroupOf_mem (hgroup.symm.trans hin)
      have hsame : g = g' := eq_of_key hc'.channels.groupsPK hg (mem_append_right _ hg') hid.symm
      rw [hserver, hsame, serverID_of_mem_templateGroups hg']
  · intro c hcmem d hd hcompanion
    rcases mem_append.mp hcmem with hcmem | hcmem
    · rcases mem_append.mp hd with hd | hd
      · exact hs.channels.companions c hcmem d hd hcompanion
      · have hold := hc.channels.channelsCompanion c hcmem d.id hcompanion
        exact absurd rfl (ne_of_append hc'.channels.channelsPK hold hd)
    · obtain ⟨p, hp, hcmem⟩ := mem_templateChannels.mp hcmem
      obtain ⟨d', hd', hid⟩ := companion_of_mem_templateChannel hcmem hcompanion
      have hsame : d = d' := eq_of_key hc'.channels.channelsPK hd
        (mem_append_right _ (mem_templateChannels.mpr ⟨p, hp, hd'⟩)) hid.symm
      rw [hsame, (of_mem_templateChannel hd').2.1, (of_mem_templateChannel hcmem).2.1]
  · exact hdisjoint
  · intro c hcmem
    rcases mem_append.mp hcmem with hcmem | hcmem
    · exact hs.channels.channelIDs c hcmem
    · exact hnewChannels c hcmem
  · intro srv hsrv
    rcases mem_append.mp hsrv with hsrv | hsrv
    · exact hs.channels.serverIDs srv hsrv
    · rw [mem_singleton.mp hsrv]
      exact hfresh.server

end Spec

end Meza.Chat
