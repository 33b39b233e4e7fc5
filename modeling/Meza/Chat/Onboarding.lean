import Meza.Chat.Templates
import Meza.Chat.Rewrites

/-! # Onboarding settings

    A server that requires its rules to be acknowledged needs the onboarding in
    which they are shown. `CreateServerFromTemplate` checks the two settings of
    the request against each other; `UpdateServer`, where either may be absent,
    looks up the stored one when the rules become required, and looks up nothing
    when the onboarding is switched off. -/

namespace Meza.Chat

open Store Permissions Action Table List Ends ChatStore

/-! ## Section 1: UpdateServer -/

/-- Fields that are absent stay. -/
structure UpdateServerRequest where
  serverID : ID
  name : Option String := none
  iconURL : Option String := none
  welcomeMessage : Option String := none
  rules : Option String := none
  onboardingEnabled : Option Bool := none
  rulesRequired : Option Bool := none
  defaultChannelPrivacy : Option Bool := none
  bannerURL : Option String := none

/-- Rules are required only together with the onboarding: the requested one, or the
    stored one if the request has none. -/
def requireOnboarding (req : UpdateServerRequest) (t : Tables) : Except ConnectError Unit :=
  if req.rulesRequired = some true then
    match req.onboardingEnabled with
    | some enabled => rejectIf (enabled = false) .invalidArgument rulesNeedOnboarding
    | none => do
      let srv ← orElse { code := .notFound, message := "server not found" }
        (getServer t req.serverID)
      rejectIf (srv.onboardingEnabled = false) .invalidArgument rulesNeedOnboarding
  else .ok ()

/-- An empty URL removes the picture. -/
def validateMediaURL (field : String) (url : Option String) : Except ConnectError Unit := do
  rejectIf (∃ v ∈ url, v ≠ "" ∧ ¬ "/media/".toList <+: v.toList) .invalidArgument
    s!"{field} must start with /media/"
  rejectIf (∃ v ∈ url, 256 < v.utf8ByteSize) .invalidArgument s!"{field} too long"

def validateNewServerName (name : Option String) : Except ConnectError Unit := do
  rejectIf (∃ n ∈ name, trimSpace n = "") .invalidArgument "server name cannot be empty"
  rejectIf (∃ n ∈ name, 100 < (trimSpace n).length) .invalidArgument
    "server name cannot exceed 100 characters"

/-- The columns that are set. -/
def UpdateServerRequest.apply (req : UpdateServerRequest) (srv : Server) : Server :=
  { srv with
    onboardingEnabled := req.onboardingEnabled.getD srv.onboardingEnabled
    rulesRequired := req.rulesRequired.getD srv.rulesRequired
    defaultChannelPrivacy := req.defaultChannelPrivacy.getD srv.defaultChannelPrivacy }

/-- `ChatStore.UpdateServer`; without a field it only reads the server. -/
def storeServerUpdate (req : UpdateServerRequest) (db : DB) : Except StoreError (Server × DB) := do
  let t := db.tables
  let srv ← getServer t req.serverID
  let db' ← commit
    { t with servers := updateWhere (fun srv => srv.id = req.serverID) req.apply t.servers }
  return (req.apply srv, db')

def updateServer (caller : Option ID) (req : UpdateServerRequest) : Handler Server := do
  let userID ← require fun _ => authenticate caller
  reject (req.serverID = "") .invalidArgument "server_id is required"
  let _ ← require fun t => requirePermission t userID req.serverID manageServer
  require fun _ => validateOnboardingTexts req.welcomeMessage req.rules
  require (requireOnboarding req)
  require fun _ => validateMediaURL "icon_url" req.iconURL
  require fun _ => validateMediaURL "banner_url" req.bannerURL
  require fun _ => validateNewServerName req.name
  transact (storeServerUpdate req)

/-- The settings of a server were changed, after the check of the two settings. -/
structure ServerUpdated (req : UpdateServerRequest) (s s' : ChatState) : Prop where
  checked : requireOnboarding req s.db.tables = .ok ()
  change : Changed (fun t => { t with
    servers := updateWhere (fun srv => srv.id = req.serverID) req.apply t.servers }) id s s'

theorem updateServer_spec (caller : Option ID) (req : UpdateServerRequest) (s : ChatState) :
    Ends (updateServer caller req) s (fun _ s' => ServerUpdated req s s') (fun _ s' => s' = s) := by
  refine ends_require ?_
  intro userID _
  refine ends_reject ?_
  intro _
  refine ends_require ?_
  intro _ _
  refine ends_require ?_
  intro _ _
  refine ends_require ?_
  intro _ hchecked
  iterate 3
    refine ends_require ?_
    intro _ _
  apply ends_last
  refine ends_transact ?_
  intro srv db hdb
  obtain ⟨old, -, hdb⟩ := bind_eq_ok.mp hdb
  obtain ⟨db', hcommit, hdb⟩ := bind_eq_ok.mp hdb
  injection hdb with hdb
  obtain ⟨-, rfl⟩ := Prod.mk.inj hdb
  exact ends_pure ⟨hchecked, commit_ok hcommit, rfl, rfl⟩

/-! ## Section 2: The instance -/

/-- What happens on an instance: servers are founded and set up, and live. -/
inductive InstanceEvent where
  | createServer (serverID channelID : ID) (caller : Option ID) (req : CreateServerRequest)
  | createServerFromTemplate (ids : TemplateIDs) (codes : String × String)
      (caller : Option ID) (req : CreateServerFromTemplateRequest)
  | updateServer (caller : Option ID) (req : UpdateServerRequest)
  | server (ev : ServerEvent)

def instanceStep (s : ChatState) : InstanceEvent → ChatState
  | .createServer serverID channelID caller req =>
    after (createServer serverID channelID caller req) s
  | .createServerFromTemplate ids codes caller req =>
    after (createServerFromTemplate ids codes caller req) s
  | .updateServer caller req => after (updateServer caller req) s
  | .server ev => serverStep s ev

/-- The ids that are drawn are new. -/
def InstanceEvent.Fresh (t : Tables) : InstanceEvent → Prop
  | .createServer serverID channelID _ _ =>
    serverID ≠ "" ∧ channelID ≠ "" ∧ ∀ g ∈ t.channelGroups, channelID ≠ g.id
  | .createServerFromTemplate ids _ _ req => TemplateFresh ids req t
  | .updateServer _ _ => True
  | .server ev => ev.Fresh t

variable {req : UpdateServerRequest}

section Steps

variable {s s' : ChatState} {ev : InstanceEvent}

theorem createServer_spec (serverID channelID : ID) (caller : Option ID)
    (req : CreateServerRequest) :
    Ends (createServer serverID channelID caller req) s
      (fun _ s' => ∃ userID, ChatStore.createServer s.db serverID channelID userID
        req.defaultChannelPrivacy = .ok s'.db) (fun _ s' => s' = s) := by
  refine ends_require ?_
  intro userID _
  refine ends_require ?_
  intro _ _
  apply ends_last
  refine ends_run ?_
  intro db hdb
  exact ends_pure ⟨userID, hdb⟩

theorem ids_updateServer (req : UpdateServerRequest) (servers : List Server) :
    (updateWhere (fun srv => srv.id = req.serverID) req.apply servers).map (·.id) =
      servers.map (·.id) :=
  map_key_updateWhere (f := req.apply) (fun _ => rfl) _ servers

/-- The settings are no part of what makes a state well formed. -/
theorem ServerUpdated.wellFormed (h : ServerUpdated req s s') (hs : WellFormed s.db.tables) :
    WellFormed s'.db.tables := by
  rw [h.change.tables]
  -- every server has the id of an old one
  have hold : ∀ srv ∈ updateWhere (fun srv => srv.id = req.serverID) req.apply
      s.db.tables.servers, ∃ old ∈ s.db.tables.servers, old.id = srv.id := by
    intro srv hsrv
    have hid := mem_map_of_mem (f := Server.id) hsrv
    rw [ids_updateServer] at hid
    exact mem_map.mp hid
  refine ⟨⟨?_, hs.roles.assigned⟩, hs.channels.groups, hs.channels.companions,
    hs.channels.disjoint, hs.channels.channelIDs, ?_⟩
  · intro srv hsrv
    obtain ⟨old, hmem, hid⟩ := hold srv hsrv
    obtain ⟨r, hr, hr'⟩ := hs.roles.everyone old hmem
    rw [hid] at hr'
    exact ⟨r, hr, hr'⟩
  · intro srv hsrv
    obtain ⟨old, hmem, hid⟩ := hold srv hsrv
    rw [← hid]
    exact hs.channels.serverIDs old hmem

/-- **Every event of the instance** keeps the state well formed. -/
theorem instanceStep_wellFormed (hs : WellFormed s.db.tables) (hfresh : ev.Fresh s.db.tables) :
    WellFormed (instanceStep s ev).db.tables := by
  have hsame : ∀ (_ : ConnectError) s', s' = s → WellFormed s'.db.tables := by
    intro _ s' h
    rw [h]
    exact hs
  cases ev with
  | createServer serverID channelID caller req =>
    obtain ⟨hserver, hchannel, hgroups⟩ := hfresh
    refine after ((createServer_spec serverID channelID caller req).mono ?_ hsame)
    intro _ s' h
    obtain ⟨userID, hcreate⟩ := h
    exact createServer_wellFormed hs hcreate hserver hchannel hgroups
  | createServerFromTemplate ids codes caller req =>
    refine after ((createServerFromTemplate_spec ids codes caller req).mono ?_ hsame)
    intro _ s' h
    exact h.wellFormed hs hfresh
  | updateServer caller req =>
    refine after ((updateServer_spec caller req s).mono ?_ hsame)
    intro _ s' h
    exact h.wellFormed hs
  | server ev => exact serverStep_wellFormed hs hfresh

theorem serverStep_servers {ev : ServerEvent} (hs : WellFormed s.db.tables)
    (hfresh : ev.Fresh s.db.tables) :
    (serverStep s ev).db.tables.servers = s.db.tables.servers := by
  rcases ev with ev | ⟨ids, caller, req⟩
  · exact (step_framed hs ev).servers
  · have hcreate : Ends (createChannel ids caller req) s
        (fun _ s' => s'.db.tables.servers = s.db.tables.servers)
        (fun _ s' => s'.db.tables.servers = s.db.tables.servers) := by
      refine (createChannel_spec caller hs hfresh).mono ?_ ?_
      · intro _ s' h
        obtain ⟨userID, auth, isPrivate, channelMembers, -, -, -, hchange⟩ := h.change
        rw [hchange.tables]
      · intro _ s' h
        rw [h]
    exact hcreate.after

end Steps

/-! ## Section 3: Rules and onboarding -/

def RulesOnboard (t : Tables) : Prop :=
  ∀ srv ∈ t.servers, srv.rulesRequired = true → srv.onboardingEnabled = true

instance (t : Tables) : Decidable (RulesOnboard t) :=
  inferInstanceAs (Decidable (∀ srv ∈ t.servers, _ → _))

/-- The onboarding of a server that requires its rules is not switched off without a
    word about the rules. -/
def KeepsRules (t : Tables) (req : UpdateServerRequest) : Prop :=
  req.onboardingEnabled = some false → req.rulesRequired = none →
    ∀ srv ∈ t.servers, srv.id = req.serverID → srv.rulesRequired = false

instance (t : Tables) (req : UpdateServerRequest) : Decidable (KeepsRules t req) :=
  inferInstanceAs (Decidable (_ → _))

/-- The ids drawn are new, and updates keep the rules together with the onboarding. -/
structure KeepsOnboarding (s : ChatState) (ev : InstanceEvent) : Prop where
  fresh : ev.Fresh s.db.tables
  updates : ∀ caller req, ev = .updateServer caller req → KeepsRules s.db.tables req

section Rules

variable {s s' : ChatState} {ev : InstanceEvent}

theorem requireOnboarding_ok {t : Tables} (hc : t.Constraints)
    (h : requireOnboarding req t = .ok ()) (hrules : req.rulesRequired = some true) {srv : Server}
    (hsrv : srv ∈ t.servers) (hid : srv.id = req.serverID) :
    req.onboardingEnabled.getD srv.onboardingEnabled = true := by
  unfold requireOnboarding at h
  rw [if_pos hrules] at h
  cases honboarding : req.onboardingEnabled with
  | some enabled =>
    rw [honboarding] at h
    have hnot := rejectIf_ok.mp h
    show enabled = true
    rwa [Bool.not_eq_false] at hnot
  | none =>
    rw [honboarding] at h
    obtain ⟨found, hfound, h⟩ := bind_eq_ok.mp h
    have hlook := oneRow_ok.mp (orElse_ok.mp hfound)
    rw [← hid, lookup_of_mem hc.servers.serversPK hsrv] at hlook
    injection hlook with hlook
    have hnot := rejectIf_ok.mp h
    rw [← hlook, Bool.not_eq_false] at hnot
    exact hnot

/-- **One update** keeps the rules with the onboarding exactly if it does not switch
    the onboarding off and leave the rules required. -/
theorem ServerUpdated.rulesOnboard_iff (h : ServerUpdated req s s')
    (hinv : RulesOnboard s.db.tables) : RulesOnboard s'.db.tables ↔ KeepsRules s.db.tables req := by
  have hc := s.db.constraints
  have hservers : s'.db.tables.servers = updateWhere (fun srv => srv.id = req.serverID)
      req.apply s.db.tables.servers := by
    rw [h.change.tables]
  unfold RulesOnboard
  rw [hservers]
  constructor
  · intro hafter hoff habsent srv hsrv hid
    have hnew := hafter (req.apply srv) (mem_updateWhere.mpr
      ⟨srv, hsrv, if_pos (decide_eq_true hid)⟩)
    unfold UpdateServerRequest.apply at hnew
    rw [hoff, habsent] at hnew
    cases hrules : srv.rulesRequired with
    | false => rfl
    | true => exact absurd (hnew hrules) Bool.false_ne_true
  · intro hkeeps srv hsrv hrules
    obtain ⟨old, hold, rfl⟩ := mem_updateWhere.mp hsrv
    by_cases hid : old.id = req.serverID
    · rw [if_pos (decide_eq_true hid)] at hrules ⊢
      show req.onboardingEnabled.getD old.onboardingEnabled = true
      have hrules : req.rulesRequired.getD old.rulesRequired = true := hrules
      cases hreq : req.rulesRequired with
      | some required =>
        rw [hreq] at hrules
        have hrequired : required = true := hrules
        exact requireOnboarding_ok hc h.checked (hrequired ▸ hreq) hold hid
      | none =>
        -- the rules stay required, so the onboarding was on and is not switched off
        rw [hreq] at hrules
        have honboard := hinv old hold hrules
        cases hoff : req.onboardingEnabled with
        | none => exact honboard
        | some enabled =>
          cases enabled with
          | true => rfl
          | false =>
            have hnot := hkeeps hoff hreq old hold hid
            exact absurd (hnot.symm.trans hrules) Bool.false_ne_true
    · rw [if_neg (by simpa using hid)] at hrules ⊢
      exact hinv old hold hrules

theorem instanceStep_rulesOnboard (hs : WellFormed s.db.tables) (hinv : RulesOnboard s.db.tables)
    (hkeeps : KeepsOnboarding s ev) : RulesOnboard (instanceStep s ev).db.tables := by
  have hsame : ∀ (_ : ConnectError) s', s' = s → RulesOnboard s'.db.tables := by
    intro _ s' h
    rw [h]
    exact hinv
  have hfresh := hkeeps.fresh
  cases ev with
  | createServer serverID channelID caller req =>
    refine after ((createServer_spec serverID channelID caller req).mono ?_ hsame)
    intro _ s' h
    obtain ⟨userID, hcreate⟩ := h
    rw [commit_ok hcreate]
    intro srv hsrv hrules
    rcases mem_append.mp hsrv with hsrv | hsrv
    · exact hinv srv hsrv hrules
    · rw [mem_singleton.mp hsrv] at hrules
      cases hrules
  | createServerFromTemplate ids codes caller req =>
    refine after ((createServerFromTemplate_spec ids codes caller req).mono ?_ hsame)
    intro _ s' h
    obtain ⟨userID, invites, channelMembers, hvalid, hchange⟩ := h.change
    rw [hchange.tables]
    intro srv hsrv hrules
    rcases mem_append.mp hsrv with hsrv | hsrv
    · exact hinv srv hsrv hrules
    · rw [mem_singleton.mp hsrv] at hrules ⊢
      exact validateTemplate_rules hvalid hrules
  | updateServer caller req =>
    refine after ((updateServer_spec caller req s).mono ?_ hsame)
    intro _ s' h
    exact (h.rulesOnboard_iff hinv).mpr (hkeeps.updates caller req rfl)
  | server ev =>
    show RulesOnboard (serverStep s ev).db.tables
    unfold RulesOnboard
    rw [serverStep_servers hs hfresh]
    exact hinv

/-- **Rules come with the onboarding**: in every state of a run whose updates keep the
    two together, no server requires its rules without the onboarding. -/
theorem rulesRequired_needsOnboarding (s : ChatState) (hs : WellFormed s.db.tables)
    (hinv : RulesOnboard s.db.tables) (evs : List InstanceEvent)
    (hrun : Run.Guarded instanceStep KeepsOnboarding s evs) :
    RulesOnboard (Run.exec instanceStep s evs).db.tables := by
  have hstep : ∀ s ev, (WellFormed s.db.tables ∧ RulesOnboard s.db.tables) →
      KeepsOnboarding s ev → WellFormed (instanceStep s ev).db.tables ∧
        RulesOnboard (instanceStep s ev).db.tables := by
    intro s ev h hkeeps
    exact ⟨instanceStep_wellFormed h.1 hkeeps.fresh, instanceStep_rulesOnboard h.1 h.2 hkeeps⟩
  exact (Run.exec_invariant hstep ⟨hs, hinv⟩ hrun).2

theorem KeepsOnboarding.of_update {caller : Option ID} (h : KeepsRules s.db.tables req) :
    KeepsOnboarding s (.updateServer caller req) := by
  refine ⟨trivial, ?_⟩
  intro _ _ heq
  injection heq with _ heq
  rw [← heq]
  exact h

theorem KeepsOnboarding.of_createServer {serverID channelID : ID} {caller : Option ID}
    {req : CreateServerRequest}
    (h : (InstanceEvent.createServer serverID channelID caller req).Fresh s.db.tables) :
    KeepsOnboarding s (.createServer serverID channelID caller req) := by
  refine ⟨h, ?_⟩
  intro _ _ heq
  cases heq

end Rules

/-- An instance with one user and no server. -/
def emptyInstance : ChatState where
  db := ⟨{ users := [{ id := "owner", signingPublicKey := none }] }, by decide⟩

def homeFounded : InstanceEvent :=
  .createServer "home" "general" (some "owner") { name := "home" }

/-- The onboarding and the rules are switched on together. -/
def rulesOn : InstanceEvent :=
  .updateServer (some "owner")
    { serverID := "home", onboardingEnabled := some true, rulesRequired := some true }

def onboardingOff (rulesRequired : Option Bool) : InstanceEvent :=
  .updateServer (some "owner")
    { serverID := "home", onboardingEnabled := some false, rulesRequired }

/-- Both are switched off again. -/
theorem rulesRequired_needsOnboarding_home :
    RulesOnboard (Run.exec instanceStep emptyInstance
      [homeFounded, rulesOn, onboardingOff (some false)]).db.tables := by
  refine rulesRequired_needsOnboarding emptyInstance (wellFormed_users _) (by decide) _
    ⟨?_, ?_, ?_, trivial⟩
  · exact KeepsOnboarding.of_createServer ⟨by decide, by decide, by decide⟩
  · exact KeepsOnboarding.of_update (by decide +kernel)
  · exact KeepsOnboarding.of_update (by decide +kernel)

/-- Only the onboarding is switched off, and the rules stay required. -/
theorem home_rules_left :
    ¬ RulesOnboard (Run.exec instanceStep emptyInstance
      [homeFounded, rulesOn, onboardingOff none]).db.tables := by
  decide +kernel

end Meza.Chat
