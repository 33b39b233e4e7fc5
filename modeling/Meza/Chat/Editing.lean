import Meza.Chat.Reading
import Meza.Media.Service
import Meza.Social.Requests

/-! # Sending and editing

    `SendMessage` and `EditMessage` for one caller after the other, with all that
    they check. Both strip an `@everyone` that the author may not use. Sending
    asks the author's mask for the channel, editing the author's roles, and the
    overrides of the channel and its category are heard by the first only. -/

namespace Meza.Chat

open Store Permissions Action Table Option MessageStore ChatStore RoleStore

/-! ## Section 1: The handlers -/

/-- What the handlers look up outside the chat tables. -/
structure Surroundings where
  /-- Blocks, and the status of DMs -/
  social : Social.Tables := {}
  attachments : List Media.Attachment := []
  /-- `HasChannelKeyVersion` -/
  encrypted : ID → Bool := fun _ => false

/-- In a one-to-one DM neither participant blocks the other. -/
def checkDM (around : Surroundings) (ch : Channel) (userID : ID) : Except ConnectError Unit :=
  if ch.type = 3 then Social.checkUnblocked around.social ch.id userID else .ok ()

/-- A pending DM is the initiator's. -/
def checkAccepted (around : Surroundings) (ch : Channel) (userID : ID) : Except ConnectError Unit :=
  let pending := ch.type = 3 ∧ ∃ dm ∈ around.social.channels, dm.id = ch.id ∧
    dm.dmStatus = .pending ∧ dm.dmInitiatorID ≠ userID
  rejectIf pending .permissionDenied "accept this message request before replying"

/-- A key version of 0 means plain text. -/
def checkEncryption (around : Surroundings) (channelID : ID) (keyVersion : Nat) :
    Except ConnectError Unit :=
  rejectIf (keyVersion = 0 ∧ around.encrypted channelID) .invalidArgument
    "encrypted channel requires keyVersion > 0"

/-- Server channels only; answers with the author's mask for the channel. -/
def requireSending (ch : Channel) (userID : ID) (attaches : Bool) : Handler Mask :=
  match ch.serverID with
  | none => pure 0
  | some serverID => do
    let srv ← require fun t => orElse internalError (getServer t serverID)
    let channelPerms ← resolvePermissions userID serverID ch.id
    reject (¬ has channelPerms sendMessages) .permissionDenied "missing SendMessages permission"
    reject (attaches = true ∧ ¬ has channelPerms attachFiles) .permissionDenied
      "missing AttachFiles permission"
    let acknowledged ← require fun t => checkRulesAcknowledged t userID serverID srv.rulesRequired
    reject (acknowledged = false) .permissionDenied
      "you must acknowledge server rules before sending messages"
    return channelPerms

/-- An insert of a row that is there replaces it. -/
def insertMessage (msg : Message) (a : Archive) : Archive :=
  { a with
    messages := upsert Message.key (fun _ => msg) msg a.messages
    messagesPK := unique_upsert_row a.messagesPK msg }

/-- `newID` is the id drawn for the message. -/
def sendMessage (around : Surroundings) (newID : ID) (caller : Option ID)
    (req : SendMessageRequest) : Messaging Message := do
  let userID ← onChat (require fun _ => authenticate caller)
  onChat (reject (userID = systemUserID) .permissionDenied
    "system user cannot send messages via API")
  onChat (reject (req.channelID = "") .invalidArgument "channel_id is required")
  onChat (require fun _ => checkContent req.encryptedContent)
  let ch ← onChat (require fun t =>
    requireParticipant "not a member of this server" t req.channelID userID)
  onChat (require fun _ => checkDM around ch userID)
  onChat (require fun _ => checkAccepted around ch userID)
  onChat (requireChannelAccess ch userID)
  let channelPerms ← onChat (requireSending ch userID (req.attachmentIDs ≠ []))
  onChat (require fun _ => checkEncryption around req.channelID req.keyVersion)
  onChat (require fun _ => Media.checkAttachments around.attachments userID req.attachmentIDs)
  check fun s =>
    checkReply req.replyToID (getMessage s.archive req.channelID req.replyToID)
  let mentions ← onChat (require fun _ => sanitizeMentions userID (ch.serverID = none)
    (has channelPerms mentionEveryone) req.mentions)
  let now ← query fun s => s.chat.now
  let msg := req.message newID userID now mentions
  Action.modify fun s => { s with archive := insertMessage msg s.archive }
  return msg

/-- Who is timed out has lost SendMessages and cannot edit either. -/
def requireEditing (ch : Channel) (userID : ID) : Handler Unit :=
  match ch.serverID with
  | none => pure ()
  | some serverID => do
    let perms ← resolvePermissions userID serverID ch.id
    reject (¬ has perms sendMessages) .permissionDenied "missing SendMessages permission"

def rewriteMessage (channelID messageID : ID) (f : Message → Message)
    (hkey : ∀ m, (f m).key = m.key) (a : Archive) : Archive :=
  { a with
    messages := updateWhere (fun m => m.key = (channelID, messageID)) f a.messages
    messagesPK := (congrArg List.Nodup (map_key_updateWhere hkey _ _)).mpr a.messagesPK }

def editMessage (around : Surroundings) (caller : Option ID) (req : EditMessageRequest) :
    Messaging Message := do
  let userID ← onChat (require fun _ => authenticate caller)
  onChat (reject (req.channelID = "" ∨ req.messageID = "") .invalidArgument
    "channel_id and message_id are required")
  onChat (require fun _ => checkContent req.encryptedContent)
  let ch ← onChat (require fun t =>
    requireParticipant "not a member of this server" t req.channelID userID)
  onChat (require fun _ => checkDM around ch userID)
  onChat (requireChannelAccess ch userID)
  let msg ← check fun s =>
    checkEditable userID (getMessage s.archive req.channelID req.messageID)
  onChat (requireEditing ch userID)
  onChat (require fun _ => checkEncryption around req.channelID req.keyVersion)
  -- this time without the channel
  let mentions ← onChat (require fun t => sanitizeMentions userID (ch.serverID = none)
    (hasPermission t userID (ch.serverID.getD "") mentionEveryone) req.mentions)
  let now ← query fun s => s.chat.now
  Action.modify fun s => { s with
    archive := rewriteMessage req.channelID req.messageID (req.apply now mentions)
      (fun _ => rfl) s.archive }
  return req.apply now mentions msg

/-! ## Section 2: What both have checked when they write -/

section Steps

variable {α β : Type} {s s' : MessagingState} {b : β}

theorem bind_require_ok {f : Tables → Except ConnectError α} {k : α → Messaging β} :
    (onChat (require f) >>= k) s = .ok b s' ↔
      ∃ a, f s.chat.db.tables = .ok a ∧ k a s = .ok b s' := by
  rw [bind_ok]
  simp only [onChat_ok, require_ok]
  constructor
  · intro h
    obtain ⟨a, _, ⟨chat, ⟨hf, rfl⟩, rfl⟩, hk⟩ := h
    exact ⟨a, hf, hk⟩
  · intro h
    obtain ⟨a, hf, hk⟩ := h
    exact ⟨a, s, ⟨s.chat, ⟨hf, rfl⟩, rfl⟩, hk⟩

theorem bind_reject_ok {cond : Prop} [Decidable cond] {code : Code} {message : String}
    {k : Unit → Messaging β} :
    (onChat (reject cond code message) >>= k) s = .ok b s' ↔ ¬ cond ∧ k () s = .ok b s' := by
  unfold reject
  rw [bind_require_ok]
  simp only [rejectIf_ok]
  constructor
  · intro h
    obtain ⟨_, hcond, hk⟩ := h
    exact ⟨hcond, hk⟩
  · intro h
    exact ⟨(), h.1, h.2⟩

theorem bind_check_ok {f : MessagingState → Except ConnectError α} {k : α → Messaging β} :
    (check f >>= k) s = .ok b s' ↔ ∃ a, f s = .ok a ∧ k a s = .ok b s' := by
  rw [bind_ok]
  simp only [check_ok]
  constructor
  · intro h
    obtain ⟨a, _, ⟨hf, rfl⟩, hk⟩ := h
    exact ⟨a, hf, hk⟩
  · intro h
    obtain ⟨a, hf, hk⟩ := h
    exact ⟨a, s, ⟨hf, rfl⟩, hk⟩

theorem bind_onChat_ok {x : Handler α} {k : α → Messaging β} :
    (onChat x >>= k) s = .ok b s' ↔
      ∃ a chat, x s.chat = .ok a chat ∧ k a { s with chat } = .ok b s' := by
  rw [bind_ok]
  simp only [onChat_ok]
  constructor
  · intro h
    obtain ⟨a, _, ⟨chat, hx, rfl⟩, hk⟩ := h
    exact ⟨a, chat, hx, hk⟩
  · intro h
    obtain ⟨a, chat, hx, hk⟩ := h
    exact ⟨a, _, ⟨chat, hx, rfl⟩, hk⟩

theorem bind_query_ok {f : MessagingState → α} {k : α → Messaging β} :
    (query f >>= k) s = .ok b s' ↔ k (f s) s = .ok b s' := by
  unfold query
  rw [bind_check_ok]
  simp

end Steps

section Gates

variable {s s' : ChatState} {c : Channel}

theorem requireEditing_ok (h : requireEditing c userID s = .ok () s') :
    SameServed s s' ∧ ∀ serverID ∈ c.serverID, Served s userID serverID c.id sendMessages := by
  unfold requireEditing at h
  rcases hserver : c.serverID with _ | serverID
  · rw [hserver] at h
    rw [(pure_ok.mp h).2]
    exact ⟨.refl s, fun _ hid => nomatch hid⟩
  · rw [hserver] at h
    obtain ⟨perms, s₁, hrun, h⟩ := bind_ok.mp h
    obtain ⟨hsend, rfl⟩ := reject_ok.mp h
    refine ⟨resolvePermissions_same hrun, ?_⟩
    intro id hid
    rw [← mem_some.mp hid]
    exact served_iff.mpr ⟨perms, _, hrun, not_not.mp hsend⟩

theorem requireSending_ok {attaches : Bool} {perms : Mask}
    (h : requireSending c userID attaches s = .ok perms s') :
    SameServed s s' ∧ ∀ serverID ∈ c.serverID,
      result (resolvePermissions userID serverID c.id) s = .ok perms := by
  unfold requireSending at h
  rcases hserver : c.serverID with _ | serverID
  · rw [hserver] at h
    rw [(pure_ok.mp h).2]
    exact ⟨.refl s, fun _ hid => nomatch hid⟩
  · rw [hserver] at h
    simp only [bind_ok, require_ok, reject_ok, pure_ok] at h
    obtain ⟨srv, _, ⟨-, rfl⟩, mask, s₁, hrun, _, _, ⟨-, rfl⟩, _, _, ⟨-, rfl⟩, _, _, ⟨-, rfl⟩,
      _, _, ⟨-, rfl⟩, rfl, rfl⟩ := h
    refine ⟨resolvePermissions_same hrun, ?_⟩
    intro id hid
    rw [← mem_some.mp hid]
    exact result_ok.mpr ⟨_, hrun⟩

theorem sanitizeMentions_everyone {serverless may : Bool} {m mentions : Mentions}
    (h : sanitizeMentions userID serverless may m = .ok mentions) :
    mentions.everyone = (m.everyone && !serverless && may) := by
  obtain ⟨_, -, h⟩ := bind_eq_ok.mp h
  obtain ⟨userIDs, -, h⟩ := bind_eq_ok.mp h
  obtain ⟨_, -, h⟩ := bind_eq_ok.mp h
  obtain ⟨roleIDs, -, h⟩ := bind_eq_ok.mp h
  injection h with h
  rw [← h]

end Gates

variable {req : EditMessageRequest}

section Handlers

variable {around : Surroundings} {s s' : MessagingState} {msg : Message}

/-- What is sent mentions everyone if its author may in this channel. -/
theorem sendMessage_everyone {newID : ID} {req : SendMessageRequest}
    (h : sendMessage around newID (some userID) req s = .ok msg s') :
    ∃ c, lookup Channel.id req.channelID s.chat.db.tables.channels = some c ∧
      (msg.mentionEveryone = true ↔ req.mentions.everyone = true ∧
        ∃ serverID ∈ c.serverID, Served s.chat userID serverID c.id mentionEveryone) := by
  unfold sendMessage at h
  rw [bind_require_ok] at h
  obtain ⟨_, hcaller, h⟩ := h
  cases hcaller
  obtain ⟨-, h⟩ := bind_reject_ok.mp h
  obtain ⟨-, h⟩ := bind_reject_ok.mp h
  obtain ⟨_, -, h⟩ := bind_require_ok.mp h
  obtain ⟨c, hc, h⟩ := bind_require_ok.mp h
  obtain ⟨_, -, h⟩ := bind_require_ok.mp h
  obtain ⟨_, -, h⟩ := bind_require_ok.mp h
  obtain ⟨_, chat₁, haccess, h⟩ := bind_onChat_ok.mp h
  obtain ⟨perms, chat₂, hsending, h⟩ := bind_onChat_ok.mp h
  obtain ⟨_, -, h⟩ := bind_require_ok.mp h
  obtain ⟨_, -, h⟩ := bind_require_ok.mp h
  obtain ⟨_, -, h⟩ := bind_check_ok.mp h
  obtain ⟨mentions, hmentions, h⟩ := bind_require_ok.mp h
  obtain ⟨rfl, -⟩ := pure_ok.mp h
  refine ⟨c, (requireBelonging_ok.mp hc).1, ?_⟩
  have hsame := requireChannelAccess_same haccess
  have hperms := (requireSending_ok hsending).2
  show mentions.everyone = true ↔ _
  rw [sanitizeMentions_everyone hmentions]
  rcases hserver : c.serverID with _ | serverID
  · simp
  · rw [hserver] at hperms
    have hserved := hperms serverID rfl
    rw [hsame.served] at hserved
    simp [Served, hserved]

/-- What an edit leaves mentions everyone if a role of its author has the permission. -/
theorem editMessage_everyone (h : editMessage around (some userID) req s = .ok msg s') :
    ∃ c, Table.lookup Channel.id req.channelID s.chat.db.tables.channels = some c ∧
      (∀ serverID ∈ c.serverID, Served s.chat userID serverID c.id sendMessages) ∧
      MessageStore.getMessage s'.archive req.channelID req.messageID = some msg ∧
      (msg.mentionEveryone = true ↔ req.mentions.everyone = true ∧ ∃ serverID ∈ c.serverID,
        hasPermission s.chat.db.tables userID serverID mentionEveryone = true) := by
  unfold editMessage at h
  rw [bind_require_ok] at h
  obtain ⟨_, hcaller, h⟩ := h
  cases hcaller
  obtain ⟨-, h⟩ := bind_reject_ok.mp h
  obtain ⟨_, -, h⟩ := bind_require_ok.mp h
  obtain ⟨c, hc, h⟩ := bind_require_ok.mp h
  obtain ⟨_, -, h⟩ := bind_require_ok.mp h
  obtain ⟨_, chat₁, haccess, h⟩ := bind_onChat_ok.mp h
  obtain ⟨row, hrow, h⟩ := bind_check_ok.mp h
  obtain ⟨_, chat₂, hediting, h⟩ := bind_onChat_ok.mp h
  obtain ⟨_, -, h⟩ := bind_require_ok.mp h
  obtain ⟨mentions, hmentions, h⟩ := bind_require_ok.mp h
  rw [bind_query_ok] at h
  obtain ⟨_, _, hwrite, h⟩ := Action.bind_ok.mp h
  obtain ⟨rfl, rfl⟩ := Action.pure_ok.mp h
  have hwrite := Action.modify_ok.mp hwrite
  have hsame := requireChannelAccess_same haccess
  obtain ⟨hsame', hsend⟩ := requireEditing_ok hediting
  refine ⟨c, (requireBelonging_ok.mp hc).1, ?_, ?_, ?_⟩
  · intro serverID hserver
    exact hsame.iff.mp (hsend serverID hserver)
  · have hfound := (checkEditable_ok hrow).1
    rw [hwrite]
    unfold MessageStore.getMessage at hfound ⊢
    unfold rewriteMessage
    have hkey : ∀ m, (req.apply chat₂.now mentions m).key = m.key := fun _ => rfl
    rw [Table.lookup_updateWhere hkey, hfound, Option.map_some,
      if_pos (decide_eq_true (Table.mem_of_lookup hfound).2)]
  · show mentions.everyone = true ↔ _
    rw [sanitizeMentions_everyone hmentions, hsame'.db, hsame.db]
    rcases c.serverID with _ | serverID
    · simp
    · simp

end Handlers

/-! ## Section 3: Where the two part -/

/-- Owners may mention everyone, and who was given a role that may. -/
def RolesMention (t : Tables) (userID serverID : ID) : Prop :=
  ∃ srv, getServer t serverID = .ok srv ∧ (srv.ownerID = userID ∨
    ∃ r ∈ getMemberRoles t userID serverID, has r.permissions mentionEveryone = true)

/-- The overrides of the channel and its category do not take the permission away:
    owners and Administrators do not hear them, for others the layers grant it. -/
def OverridesSpare (t : Tables) (userID serverID : ID) (c : Channel) : Prop :=
  ∀ srv ∈ t.servers, srv.id = serverID → ∀ m ∈ t.members, m.key = (userID, serverID) →
    srv.ownerID = userID ∨ everyoneGrants t serverID administratorBit = true ∨
      roleGrants t m administratorBit = true ∨
      (storedInput t srv m (some c)).layeredGrants mentionEveryoneBit = true

/-- Whoever may by a role and asks for it may in the channel: by the mask that is
    cached, or else by the overrides. -/
def MentionKept (s : ChatState) (userID : ID) (req : EditMessageRequest) : Prop :=
  req.mentions.everyone = true →
    ∀ c ∈ lookup Channel.id req.channelID s.db.tables.channels, ∀ serverID ∈ c.serverID,
      RolesMention s.db.tables userID serverID →
        match s.cache.get s.now { userID, serverID, channelID := c.id } with
        | some cached => has cached mentionEveryone = true
        | none => OverridesSpare s.db.tables userID serverID c

theorem has_combine {perms : List Mask} {i : Nat} (hi : i < 64) :
    has (combine perms) (BitMask.single 64 i) = true ↔
      ∃ p ∈ perms, has p (BitMask.single 64 i) = true := by
  simp only [has_iff, BitMask.and_single_ne_zero _ hi, combine_getLsbD, List.any_eq_true]
  constructor
  · intro h
    rcases h with ⟨p, hp, hbit⟩ | ⟨p, hp, hbit⟩
    · exact ⟨p, hp, .inl hbit⟩
    · exact ⟨p, hp, .inr hbit⟩
  · intro h
    obtain ⟨p, hp, hbit | hbit⟩ := h
    · exact .inl ⟨p, hp, hbit⟩
    · exact .inr ⟨p, hp, hbit⟩

variable {userID : ID}

theorem hasPermission_mention {t : Tables} {serverID : ID} :
    hasPermission t userID serverID mentionEveryone = true ↔ RolesMention t userID serverID := by
  have hcombine : has (combine ((getMemberRoles t userID serverID).map (·.permissions)))
      mentionEveryone = true ↔ ∃ r ∈ getMemberRoles t userID serverID,
      has r.permissions mentionEveryone = true := by
    rw [mentionEveryone_eq, has_combine (by decide)]
    simp
  unfold hasPermission requirePermission RolesMention
  rcases getServer t serverID with e | srv
  · simp [orElse, bind, Except.bind]
  · by_cases howner : srv.ownerID = userID
    · have hall : has allPermissions mentionEveryone = true := by decide
      simp [orElse, howner, hall, bind, Except.bind, pure, Except.pure]
    · by_cases hhas : has (combine ((getMemberRoles t userID serverID).map
          (·.permissions))) mentionEveryone = true
      · have hrole := hcombine.mp hhas
        simp [orElse, howner, rejectIf, hhas, hrole, bind, Except.bind, pure, Except.pure]
      · have hrole := fun h => hhas (hcombine.mpr h)
        simpa [orElse, howner, rejectIf, hhas, bind, Except.bind] using hrole

section Served

variable {s : ChatState} {serverID : ID} {c : Channel}

/-- Who may send and has no cached mask may mention everyone unless the overrides
    forbid it. -/
theorem served_mention_iff (hs : WellFormed s.db.tables) (hc : c ∈ s.db.tables.channels)
    (hget : s.cache.get s.now { userID, serverID, channelID := c.id } = none)
    (hsend : Served s userID serverID c.id sendMessages) :
    Served s userID serverID c.id mentionEveryone ↔
      OverridesSpare s.db.tables userID serverID c := by
  have hserved : ∀ perm, Served s userID serverID c.id perm ↔
      ∃ perms, computePermissions s.db.tables s.now { userID, serverID, channelID := c.id } =
        .ok perms ∧ has perms perm = true := by
    intro perm
    unfold Served
    rw [result_eq_servedMask]
    unfold servedMask
    rw [hget]
    simp only [orElse_ok]
  rw [hserved] at hsend ⊢
  -- the mask was computed, so server and member are there
  obtain ⟨perms, hcompute, hhas⟩ := hsend
  have hinput : ∃ input, resolveInput s.db.tables userID serverID c.id = .ok input := by
    unfold computePermissions at hcompute
    rcases hinput : resolveInput s.db.tables userID serverID c.id with e | input
    · rw [hinput] at hcompute
      cases hcompute
    · exact ⟨input, rfl⟩
  obtain ⟨input, hinput⟩ := hinput
  obtain ⟨srv, hfound, hinput⟩ := bind_eq_ok.mp hinput
  obtain ⟨_, -, hinput⟩ := bind_eq_ok.mp hinput
  obtain ⟨info, hinfo, -⟩ := bind_eq_ok.mp hinput
  obtain ⟨hsrv, rfl⟩ := mem_of_lookup (oneRow_ok.mp hfound)
  obtain ⟨hm, hkey⟩ := mem_of_lookup (getMember_ok hinfo).1
  obtain ⟨rfl, hserver⟩ := Prod.mk.inj hkey
  have hconstraints := s.db.constraints
  rw [computePermissions_channel hs hconstraints hsrv hm hserver hc] at hcompute ⊢
  injection hcompute with hcompute
  rw [← hcompute, sendMessages_eq, has_resolveEffective _ _ (by decide) (by decide)] at hhas
  simp only [Except.ok.injEq, exists_eq_left', mentionEveryone_eq]
  rw [has_resolveEffective _ _ (by decide) (by decide)]
  have howner : (storedInput s.db.tables srv info.member (some c)).isOwner =
      decide (srv.ownerID = info.member.userID) := rfl
  rw [storedInput_baseGrants hserver, howner] at hhas ⊢
  have hspare : OverridesSpare s.db.tables info.member.userID srv.id c ↔
      srv.ownerID = info.member.userID ∨
        everyoneGrants s.db.tables srv.id administratorBit = true ∨
        roleGrants s.db.tables info.member administratorBit = true ∨
        (storedInput s.db.tables srv info.member (some c)).layeredGrants mentionEveryoneBit =
          true := by
    constructor
    · intro h
      exact h srv hsrv rfl info.member hm hkey
    · intro h srv' hsrv' hid m' hm' hkey'
      rw [eq_of_key hconstraints.servers.serversPK hsrv' hsrv hid,
        eq_of_key hconstraints.servers.membersPK hm' hm (hkey'.trans hkey.symm)]
      exact h
  rw [hspare]
  simp only [decide_eq_true_eq, Bool.or_eq_true] at hhas ⊢
  -- sending has shown that the author is not timed out and sees the channel
  constructor
  · intro h
    rcases h with h | (h | h) | ⟨-, -, h⟩
    · exact .inl h
    · exact .inr (.inl h)
    · exact .inr (.inr (.inl h))
    · exact .inr (.inr (.inr h))
  · intro h
    rcases h with h | h | h | h
    · exact .inl h
    · exact .inr (.inl (.inl h))
    · exact .inr (.inl (.inr h))
    · rcases hhas with hhas | hhas | ⟨htime, hview, -⟩
      · exact .inl hhas
      · exact .inr (.inl hhas)
      · exact .inr (.inr ⟨htime, hview, h⟩)

theorem served_mention (hs : WellFormed s.db.tables) (hc : c ∈ s.db.tables.channels)
    (hsend : Served s userID serverID c.id sendMessages) :
    Served s userID serverID c.id mentionEveryone ↔
      match s.cache.get s.now { userID, serverID, channelID := c.id } with
      | some cached => has cached mentionEveryone = true
      | none => OverridesSpare s.db.tables userID serverID c := by
  rcases hget : s.cache.get s.now { userID, serverID, channelID := c.id } with _ | cached
  · exact served_mention_iff hs hc hget hsend
  · unfold Served
    rw [result_eq_servedMask]
    unfold servedMask
    rw [hget]
    simp

end Served

/-! ## Section 4: Agreement -/

/-- What the edit leaves in the archive. -/
def leftByEdit (around : Surroundings) (userID : ID) (req : EditMessageRequest)
    (s : MessagingState) : Option Message :=
  getMessage (after (editMessage around (some userID) req) s).archive req.channelID req.messageID

/-- A message that mentions everyone after an edit is in a channel whose mask lets
    its author do so, and sending the same there keeps the mention. -/
structure MentionsAgree (around : Surroundings) (userID : ID) (req : EditMessageRequest)
    (s : MessagingState) : Prop where
  permitted : ∀ m ∈ leftByEdit around userID req s, m.mentionEveryone = true →
    ∃ c ∈ lookup Channel.id req.channelID s.chat.db.tables.channels,
      ∃ serverID ∈ c.serverID, Served s.chat userID serverID c.id mentionEveryone
  sent : ∀ m ∈ leftByEdit around userID req s, m.mentionEveryone = true →
    ∀ around' newID attachmentIDs replyToID sent s',
      sendMessage around' newID (some userID)
          { channelID := req.channelID, encryptedContent := req.encryptedContent, attachmentIDs,
            replyToID, mentions := req.mentions, keyVersion := req.keyVersion } s = .ok sent s' →
        sent.mentionEveryone = true

section Failures

variable {α β : Type} {s : MessagingState} {a : Archive} {Q : β → MessagingState → Prop}

theorem ends_onChat_archive {x : Handler α} {k : α → Messaging β} (h : s.archive = a)
    (hk : ∀ v s', s'.archive = a → Ends (k v) s' Q (fun _ s' => s'.archive = a)) :
    Ends (onChat x >>= k) s Q (fun _ s' => s'.archive = a) := by
  rw [ends_bind]
  unfold Ends onChat
  rcases x s.chat with ⟨v, chat⟩ | ⟨e, chat⟩
  · exact hk v _ h
  · exact h

theorem editMessage_failed {around : Surroundings}
    (h : succeeds (editMessage around (some userID) req) s = false) :
    (after (editMessage around (some userID) req) s).archive = s.archive := by
  have hends : Ends (editMessage around (some userID) req) s (fun _ _ => True)
      (fun _ s' => s'.archive = s.archive) := by
    refine ends_onChat_archive rfl fun _ _ h => ?_
    refine ends_onChat_archive h fun _ _ h => ?_
    refine ends_onChat_archive h fun _ _ h => ?_
    refine ends_onChat_archive h fun _ _ h => ?_
    refine ends_onChat_archive h fun _ _ h => ?_
    refine ends_onChat_archive h fun _ _ h => ?_
    refine ends_check (fun row _ => ?_) (fun _ => h)
    refine ends_onChat_archive h fun _ _ h => ?_
    refine ends_onChat_archive h fun _ _ h => ?_
    refine ends_onChat_archive h fun _ _ h => ?_
    refine ends_check (fun now _ => ?_) (fun _ => h)
    exact ends_modify (ends_pure trivial)
  unfold Ends at hends
  unfold Action.succeeds at h
  unfold after
  rcases hrun : editMessage around (some userID) req s with ⟨msg, s'⟩ | ⟨e, s'⟩
  · rw [hrun] at h
    cases h
  · rw [hrun] at hends
    exact hends

end Failures

/-- **An edit mentions everyone as sending would.** An edit that fails changes no
    message; one that succeeds keeps an `@everyone` that sending would keep, exactly
    when the overrides leave the permission to who has it by a role. -/
theorem editMessage_agrees_iff (around : Surroundings) (userID : ID) (req : EditMessageRequest)
    (s : MessagingState) (hs : WellFormed s.chat.db.tables) :
    (succeeds (editMessage around (some userID) req) s = false →
        (after (editMessage around (some userID) req) s).archive = s.archive) ∧
      (succeeds (editMessage around (some userID) req) s = true →
        (MentionsAgree around userID req s ↔ MentionKept s.chat userID req)) := by
  refine ⟨editMessage_failed, ?_⟩
  intro hsucceeds
  obtain ⟨msg, s', hrun⟩ := succeeds_iff.mp hsucceeds
  obtain ⟨c, hlook, hsend, hleft, hmention⟩ := editMessage_everyone hrun
  have hafter : leftByEdit around userID req s = some msg := by
    unfold leftByEdit after
    rw [hrun]
    exact hleft
  have hc := (mem_of_lookup hlook).1
  constructor
  · intro h hasked c' hc' serverID hserver hroles
    rw [mem_def, hlook] at hc'
    injection hc' with hc'
    subst hc'
    have hflag := hmention.mpr ⟨hasked, serverID, hserver, hasPermission_mention.mpr hroles⟩
    obtain ⟨c', hc', serverID', hserver', hserved⟩ := h.permitted msg hafter hflag
    rw [mem_def, hlook] at hc'
    injection hc' with hc'
    subst hc'
    rw [mem_unique hserver' hserver] at hserved
    exact (served_mention hs hc (hsend serverID hserver)).mp hserved
  · intro h
    -- whom the roles let mention everyone, the channel serves too
    have hpermitted : ∀ m ∈ leftByEdit around userID req s, m.mentionEveryone = true →
        req.mentions.everyone = true ∧
          ∃ serverID ∈ c.serverID, Served s.chat userID serverID c.id mentionEveryone := by
      intro m hm hflag
      rw [mem_def, hafter] at hm
      injection hm with hm
      subst hm
      obtain ⟨hasked, serverID, hserver, hperm⟩ := hmention.mp hflag
      have hkept := h hasked c hlook serverID hserver (hasPermission_mention.mp hperm)
      exact ⟨hasked, serverID, hserver, (served_mention hs hc (hsend serverID hserver)).mpr hkept⟩
    refine ⟨?_, ?_⟩
    · intro m hm hflag
      obtain ⟨-, serverID, hserver, hserved⟩ := hpermitted m hm hflag
      exact ⟨c, hlook, serverID, hserver, hserved⟩
    · intro m hm hflag around' newID attachmentIDs replyToID sent s'' hsent
      obtain ⟨hasked, hserved⟩ := hpermitted m hm hflag
      obtain ⟨c', hc', hsent⟩ := sendMessage_everyone hsent
      rw [hlook] at hc'
      injection hc' with hc'
      subst hc'
      exact hsent.mpr ⟨hasked, hserved⟩

/-- The crier may mention everyone by a role, but not in the quiet room nor in a
    room of the quiet wing. -/
def rallyTables : Tables where
  users := [{ id := "owner", signingPublicKey := none },
    { id := "crier", signingPublicKey := none }]
  servers := [{ id := "srv", ownerID := "owner" }]
  members := [{ userID := "owner", serverID := "srv" }, { userID := "crier", serverID := "srv" }]
  channelGroups := [{ id := "wing", serverID := "srv" }]
  channels := [{ id := "hall", serverID := some "srv", name := "hall" },
    { id := "quiet", serverID := some "srv", name := "quiet" },
    { id := "den", serverID := some "srv", channelGroupID := some "wing", name := "den" }]
  roles := [{ id := "srv", serverID := "srv", name := "@everyone",
              permissions := viewChannel ||| sendMessages, position := 0 },
    { id := "criers", serverID := "srv", name := "criers", permissions := mentionEveryone,
      position := 1 }]
  memberRoles := [{ userID := "crier", serverID := "srv", roleID := "criers" }]
  permissionOverrides := [
    { id := "room", scope := .channel "quiet", subject := .role "criers", allow := 0,
      deny := mentionEveryone },
    { id := "rooms", scope := .group "wing", subject := .role "srv", allow := 0,
      deny := mentionEveryone }]

theorem rallyTables_constraints : rallyTables.Constraints := by decide

def rallyState : MessagingState where
  chat := { db := ⟨rallyTables, rallyTables_constraints⟩ }
  archive :=
    { messages := ["hall", "quiet", "den"].map fun channelID =>
        { channelID, messageID := "call", authorID := "crier", encryptedContent := [1] }
      pinsPK := unique_noPins }

def callToAll (channelID : ID) : EditMessageRequest :=
  { channelID, messageID := "call", encryptedContent := [2], mentions := { everyone := true } }

theorem rallyTables_wellFormed : WellFormed rallyTables := by
  refine ⟨⟨by decide, by decide⟩, ⟨by decide, by decide, by decide, by decide, by decide⟩⟩

/-- In the hall the crier calls everyone, by an edit as by a new message. -/
theorem editMessage_agrees_hall :
    (leftByEdit {} "crier" (callToAll "hall") rallyState).any (·.mentionEveryone) = true ∧
      MentionsAgree {} "crier" (callToAll "hall") rallyState := by
  refine ⟨by decide, ((editMessage_agrees_iff {} "crier" (callToAll "hall") rallyState
    rallyTables_wellFormed).2 (by decide)).mpr ?_⟩
  intro _ c hc serverID hserver _
  have hhall : Table.lookup Channel.id "hall" rallyTables.channels =
      some { id := "hall", serverID := some "srv", name := "hall" } := by decide
  rw [← Option.some.inj (hhall.symm.trans hc)] at hserver ⊢
  rw [← Option.some.inj hserver]
  show OverridesSpare rallyTables "crier" "srv" _
  unfold OverridesSpare
  decide

/-- In the quiet room and in the quiet wing an edit calls everyone, and sending the
    same calls nobody. -/
theorem quiet_edit_calls :
    WellFormed rallyState.chat.db.tables ∧ ∀ channelID ∈ ["quiet", "den"],
      (leftByEdit {} "crier" (callToAll channelID) rallyState).any (·.mentionEveryone) = true ∧
        ¬ MentionsAgree {} "crier" (callToAll channelID) rallyState := by
  have hdisagree : ∀ channelID,
      (leftByEdit {} "crier" (callToAll channelID) rallyState).any (·.mentionEveryone) = true →
      (∃ sent s', sendMessage {} "new" (some "crier")
          { channelID, encryptedContent := [2], mentions := { everyone := true } } rallyState =
            .ok sent s' ∧ sent.mentionEveryone = false) →
        ¬ MentionsAgree {} "crier" (callToAll channelID) rallyState := by
    intro channelID hleft hsent hagree
    obtain ⟨sent, s', hrun, hstripped⟩ := hsent
    rcases hm : leftByEdit {} "crier" (callToAll channelID) rallyState with _ | m
    · rw [hm] at hleft
      cases hleft
    · rw [hm] at hleft
      rw [hagree.sent m hm hleft {} "new" [] "" sent s' hrun] at hstripped
      cases hstripped
  have hquiet : (leftByEdit {} "crier" (callToAll "quiet") rallyState).any (·.mentionEveryone) =
      true := by decide
  have hden : (leftByEdit {} "crier" (callToAll "den") rallyState).any (·.mentionEveryone) =
      true := by decide
  refine ⟨rallyTables_wellFormed, ?_⟩
  intro channelID hchannel
  simp only [List.mem_cons, List.not_mem_nil, or_false] at hchannel
  rcases hchannel with rfl | rfl
  · exact ⟨hquiet, hdisagree "quiet" hquiet ⟨_, _, rfl, rfl⟩⟩
  · exact ⟨hden, hdisagree "den" hden ⟨_, _, rfl, rfl⟩⟩

end Meza.Chat
