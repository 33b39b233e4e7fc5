import Meza.Chat.Rewrites

/-! # UpdateChannel when a statement fails

    `UpdateChannel` writes in up to four steps: the row, or the row and an
    override in one transaction; then the move between categories; then, only
    logging errors, the companion's row and its override. An error after the
    first write leaves that write in place.

    Two errors come after it. The refusal of a caller without ManageRoles and
    the copying of overrides belong to a synced channel that leaves its
    category, and the first write of such a request never succeeds. What is
    left is the statement that marks a channel as unsynced when it enters a
    category. The tables never refuse it, but like any other statement it may
    get no answer. So the handler is modelled here with its outages: timeouts,
    lost connections and requests that the client cancels. -/

namespace Meza.Chat

open Store Permissions Action ChatStore Table

/-! ## Section 1: Model -/

/-- The steps at which `UpdateChannel` asks the database. -/
inductive Statement where
  | getChannel
  | isVoiceTextCompanion
  | requireManageChannels
  | getChannelGroup
  | updateChannel
  | requireManageRoles
  | copyCategoryOverrides
  | setPermissionsSynced
  | updateCompanionChannel
  | companionOverride
  deriving DecidableEq, Repr

/-- The statements that fail for reasons outside the data. They have no effect. -/
abbrev Outage := Statement → Bool

def noOutage : Outage := fun _ => false

/-- The text is only logged. -/
def answer {α : Type} (lost : Bool) (x : Except StoreError α) : Except StoreError α :=
  if lost then .error (.refused "no answer") else x

def requirePermissionDuring (lost : Bool) (t : Tables) (userID serverID : ID) (perm : Mask) :
    Except ConnectError Authority :=
  if lost then .error internalError else requirePermission t userID serverID perm

def requireGroupOfServerDuring (lost : Bool) (t : Tables) (groupID serverID : ID) :
    Except ConnectError Unit :=
  if groupID = "" then .ok ()
  else do
    let group ← orElse { code := .notFound, message := "channel group not found" }
      (answer lost (getChannelGroup t groupID))
    rejectIf (group.serverID ≠ serverID) .invalidArgument
      "channel group does not belong to this server"

def validateUpdateDuring (lost : Bool) (ch : Channel) (req : UpdateChannelRequest) (t : Tables) :
    Except ConnectError Unit := do
  rejectIf (ch.isPrivate = true ∧ req.isDefault = some true) .invalidArgument
    "private channels cannot be marked as default"
  match req.channelGroupID with
  | none => pure ()
  | some groupID => requireGroupOfServerDuring lost t groupID (ch.serverID.getD "")
  match req.contentWarning with
  | none => pure ()
  | some cw => validateContentWarning cw

def applyGroupMoveDuring (outage : Outage) (uuid : ID → ID → ID) (userID : ID) (ch : Channel)
    (req : UpdateChannelRequest) : Handler Bool :=
  match groupMove ch req with
  | .stays | .leaves => pure false
  | .snapshot oldGroup => do
    let _ ← require fun t => requirePermissionDuring (outage .requireManageRoles) t userID
      (ch.serverID.getD "") manageRoles
    run fun db => answer (outage .copyCategoryOverrides)
      (copyCategoryOverridesToChannel db uuid oldGroup req.channelID)
    run fun db => answer (outage .setPermissionsSynced)
      (setPermissionsSynced db req.channelID false)
    return true
  | .enters => do
    run fun db => answer (outage .setPermissionsSynced)
      (setPermissionsSynced db req.channelID false)
    return true

/-- `UpdateChannel` with the statements that fail. -/
def updateChannelDuring (outage : Outage) (overrideID mirrorID : ID) (uuid : ID → ID → ID)
    (caller : Option ID) (req : UpdateChannelRequest) : Handler Channel := do
  let userID ← require fun _ => authenticate caller
  reject (req.channelID = "") .invalidArgument "channel_id is required"
  let ch ← require fun t => orElse { code := .notFound, message := "channel not found" }
    (answer (outage .getChannel) (getChannel t req.channelID))
  reject (ch.serverID = none) .failedPrecondition "cannot update DM channels"
  let isCompanion ← require fun t => orElse internalError
    (answer (outage .isVoiceTextCompanion) (.ok (isVoiceTextCompanion t req.channelID)))
  reject (isCompanion = true) .failedPrecondition
    "cannot update a voice text channel directly; update the parent voice channel instead"
  let _ ← require fun t => requirePermissionDuring (outage .requireManageChannels) t userID
    (ch.serverID.getD "") manageChannels
  require fun t => validateUpdateDuring (outage .getChannelGroup) ch req t
  let updated ← transact fun db =>
    answer (outage .updateChannel) (storeUpdate overrideID ch req db)
  let unsynced ← applyGroupMoveDuring outage uuid userID ch req
  attempt fun db => answer (outage .updateCompanionChannel) (syncCompanion updated req db)
  attempt fun db => answer (outage .companionOverride)
    (syncCompanionPrivacy mirrorID ch updated req db)
  return { updated with permissionsSynced := updated.permissionsSynced && !unsynced }

/-- When every statement is answered this is the handler of `Channels`. -/
theorem updateChannelDuring_noOutage (overrideID mirrorID : ID) (uuid : ID → ID → ID)
    (caller : Option ID) (req : UpdateChannelRequest) (s : ChatState) :
    updateChannelDuring noOutage overrideID mirrorID uuid caller req s =
      updateChannel overrideID mirrorID uuid caller req s := by
  rfl

/-! ## Section 2: What an error must leave alone -/

/-- The rows of the channel and of its companion, and all overrides. -/
structure Unchanged (channelID : ID) (t t' : Tables) : Prop where
  channel : Table.lookup Channel.id channelID t'.channels =
    Table.lookup Channel.id channelID t.channels
  companion : ∀ ch, Table.lookup Channel.id channelID t.channels = some ch →
    ∀ companionID ∈ ch.voiceTextChannelID,
      Table.lookup Channel.id companionID t'.channels =
        Table.lookup Channel.id companionID t.channels
  overrides : t'.permissionOverrides = t.permissionOverrides

theorem Unchanged.refl (channelID : ID) (t : Tables) : Unchanged channelID t t :=
  ⟨rfl, fun _ _ _ _ => rfl, rfl⟩

/-- The request passes the checks, and the first write succeeds. -/
structure Accepted (outage : Outage) (overrideID : ID) (caller : Option ID)
    (req : UpdateChannelRequest) (s : ChatState) (userID : ID) (ch updated : Channel) (db : DB) :
    Prop where
  user : authenticate caller = .ok userID
  named : req.channelID ≠ ""
  found : answer (outage .getChannel) (getChannel s.db.tables req.channelID) = .ok ch
  server : ch.serverID ≠ none
  direct : answer (outage .isVoiceTextCompanion)
    (.ok (isVoiceTextCompanion s.db.tables req.channelID)) = .ok false
  permitted : ∃ auth, requirePermissionDuring (outage .requireManageChannels) s.db.tables userID
    (ch.serverID.getD "") manageChannels = .ok auth
  valid : validateUpdateDuring (outage .getChannelGroup) ch req s.db.tables = .ok ()
  written : answer (outage .updateChannel) (storeUpdate overrideID ch req s.db) = .ok (updated, db)

/-- The request moves the channel into another category and is accepted. -/
def MovesIn (outage : Outage) (overrideID : ID) (caller : Option ID) (req : UpdateChannelRequest)
    (s : ChatState) : Prop :=
  ∃ userID ch updated db, Accepted outage overrideID caller req s userID ch updated db ∧
    groupMove ch req = .enters

/-! ## Section 3: Where an error can come from -/

section

variable {outage : Outage} {overrideID : ID} {caller : Option ID} {req : UpdateChannelRequest}
  {s : ChatState} {userID : ID} {ch updated : Channel} {db : DB}

theorem answer_ok {α : Type} {lost : Bool} {x : Except StoreError α} {a : α} :
    answer lost x = .ok a ↔ lost = false ∧ x = .ok a := by
  unfold answer
  cases lost with
  | false => simp
  | true => simp

theorem Accepted.mem (h : Accepted outage overrideID caller req s userID ch updated db) :
    Table.lookup Channel.id req.channelID s.db.tables.channels = some ch ∧
      Table.lookup Channel.id req.channelID db.tables.channels =
        some (req.toChannelPatch.apply ch) := by
  have hlook := oneRow_ok.mp (answer_ok.mp h.found).2
  obtain ⟨-, htables⟩ := storeUpdate_exact (answer_ok.mp h.written).2 hlook
  refine ⟨hlook, ?_⟩
  have hchannels : db.tables.channels =
      patchChannels req.channelID req.toChannelPatch s.db.tables.channels := by
    rw [htables]
  have hkey : ∀ c, (req.toChannelPatch.apply c).id = c.id := fun _ => rfl
  have hid : ch.id = req.channelID := (mem_of_lookup hlook).2
  rw [hchannels]
  unfold patchChannels
  rw [lookup_updateWhere hkey, hlook]
  simp [hid]

theorem Accepted.ne_snapshot (h : Accepted outage overrideID caller req s userID ch updated db)
    (oldGroup : ID) : groupMove ch req ≠ .snapshot oldGroup :=
  groupMove_ne_snapshot (mem_of_lookup h.mem.2).1 oldGroup

/-- A channel that enters a category has another category afterwards. -/
theorem regrouped_of_enters (h : groupMove ch req = .enters) :
    (req.toChannelPatch.apply ch).channelGroupID ≠ ch.channelGroupID := by
  unfold groupMove at h
  dsimp only at h
  split at h
  · cases h
  next newGroup hgroup =>
  split at h
  · cases h
  next hnew =>
  split at h
  · split at h
    · cases h
    · cases h
  next hnonempty =>
  -- the request names a category that is not the one of the row
  have happly : (req.toChannelPatch.apply ch).channelGroupID = some newGroup := by
    show (req.channelGroupID.map orNull).getD ch.channelGroupID = some newGroup
    rw [hgroup]
    show orNull newGroup = some newGroup
    unfold orNull
    rw [if_neg hnonempty]
  intro hsame
  rw [happly] at hsame
  apply hnew
  rw [← hsame]
  rfl

/-- An error leaves the state alone, unless it is the one of the last statement
    of a move into a category. -/
theorem updateChannelDuring_error (outage : Outage) (overrideID mirrorID : ID)
    (uuid : ID → ID → ID) (caller : Option ID) (req : UpdateChannelRequest) (s : ChatState) :
    Ends (updateChannelDuring outage overrideID mirrorID uuid caller req) s
      (fun _ _ => True)
      (fun _ s' => s' = s ∨
        (outage .setPermissionsSynced = true ∧ MovesIn outage overrideID caller req s)) := by
  have hsame : ∀ _ : ConnectError, s = s ∨
      (outage .setPermissionsSynced = true ∧ MovesIn outage overrideID caller req s) :=
    fun _ => .inl rfl
  apply ends_require _ hsame
  intro userID huser
  apply ends_reject _ hsame
  intro hnamed
  apply ends_require _ hsame
  intro ch hch
  apply ends_reject _ hsame
  intro hserver
  apply ends_require _ hsame
  intro isCompanion hcompanion
  apply ends_reject _ hsame
  intro hdirect
  apply ends_require _ hsame
  intro auth hauth
  apply ends_require _ hsame
  intro _ hvalid
  apply ends_transact _ hsame
  intro updated db hdb
  -- the request has passed its checks, and the first write has succeeded
  have haccepted : Accepted outage overrideID caller req s userID ch updated db := by
    have hno : isCompanion = false := by simpa using hdirect
    refine ⟨huser, hnamed, orElse_ok.mp hch, hserver, ?_, ⟨auth, hauth⟩, hvalid, hdb⟩
    rw [← hno]
    exact orElse_ok.mp hcompanion
  -- the errors of the companion's updates are only logged
  have hlast : ∀ (unsynced : Bool) (s₁ : ChatState), Ends (do
      attempt fun db => answer (outage .updateCompanionChannel) (syncCompanion updated req db)
      attempt fun db => answer (outage .companionOverride)
        (syncCompanionPrivacy mirrorID ch updated req db)
      return { updated with
        permissionsSynced := updated.permissionsSynced && !unsynced }) s₁ (fun _ _ => True)
      (fun _ s' => s' = s ∨
        (outage .setPermissionsSynced = true ∧ MovesIn outage overrideID caller req s)) := by
    intro unsynced s₁
    exact ends_tried (ends_tried (ends_pure trivial))
  rw [ends_bind]
  have hmove : Ends (applyGroupMoveDuring outage uuid userID ch req) { s with db }
      (fun _ _ => True)
      (fun _ _ => outage .setPermissionsSynced = true ∧
        MovesIn outage overrideID caller req s) := by
    unfold applyGroupMoveDuring
    split
    · exact ends_pure trivial
    · exact ends_pure trivial
    · next oldGroup hsnapshot => exact absurd hsnapshot (haccepted.ne_snapshot oldGroup)
    · next henters =>
      cases hlost : outage .setPermissionsSynced with
      | false =>
        -- the tables accept every channel as unsynced
        obtain ⟨db', hdb'⟩ : ∃ db', setPermissionsSynced db req.channelID false = .ok db' :=
          setPermissionsSynced_accepted req.channelID
        exact ends_run_of_ok (answer_ok.mpr ⟨rfl, hdb'⟩) (ends_pure trivial)
      | true =>
        -- the row is in the new category by now
        apply ends_run _ (fun _ => ⟨rfl, userID, ch, updated, db, haccepted, henters⟩)
        intro db' hdb'
        exact ends_pure trivial
  exact hmove.mono (fun unsynced s₁ _ => hlast unsynced s₁) (fun _ _ h => .inr h)

/-- Without an answer to that statement the request fails after its first write. -/
theorem updateChannelDuring_partial (mirrorID : ID) (uuid : ID → ID → ID)
    (hlost : outage .setPermissionsSynced = true)
    (h : Accepted outage overrideID caller req s userID ch updated db)
    (henters : groupMove ch req = .enters) :
    Ends (updateChannelDuring outage overrideID mirrorID uuid caller req) s
      (fun _ _ => False) (fun _ s' => s' = { s with db }) := by
  obtain ⟨auth, hauth⟩ := h.permitted
  apply ends_require_of_ok h.user
  apply ends_reject_of_not h.named
  apply ends_require_of_ok (orElse_ok.mpr h.found)
  apply ends_reject_of_not h.server
  apply ends_require_of_ok (orElse_ok.mpr h.direct)
  apply ends_reject_of_not Bool.false_ne_true
  apply ends_require_of_ok hauth
  apply ends_require_of_ok h.valid
  apply ends_transact_of_ok h.written
  rw [ends_bind]
  unfold applyGroupMoveDuring
  rw [henters]
  refine ends_run ?_
  intro db' hdb'
  rw [hlost] at hdb'
  cases hdb'

end

/-! ## Section 4: Main theorem -/

/-- **Atomicity.** Whatever statements fail, an error leaves the channel, its
    companion and the overrides as they were, unless the request moves the
    channel into another category, gets as far as that, and the statement
    that unsyncs the channel is not answered. -/
theorem updateChannel_unchanged_iff (outage : Outage) (overrideID mirrorID : ID)
    (uuid : ID → ID → ID) (caller : Option ID) (req : UpdateChannelRequest) (s : ChatState) :
    (∀ e s', updateChannelDuring outage overrideID mirrorID uuid caller req s = .error e s' →
        Unchanged req.channelID s.db.tables s'.db.tables) ↔
      ¬ (outage .setPermissionsSynced = true ∧ MovesIn outage overrideID caller req s) := by
  constructor
  · rintro hunchanged ⟨hlost, userID, ch, updated, db, haccepted, henters⟩
    have hends := updateChannelDuring_partial mirrorID uuid hlost haccepted henters
    unfold Ends at hends
    rcases hrun : updateChannelDuring outage overrideID mirrorID uuid caller req s with
      ⟨updated', s'⟩ | ⟨e, s'⟩
    · rw [hrun] at hends
      exact hends
    · rw [hrun] at hends
      have hchannel := (hunchanged e s' hrun).channel
      rw [hends, haccepted.mem.1, haccepted.mem.2] at hchannel
      injection hchannel with hchannel
      exact regrouped_of_enters henters (congrArg Channel.channelGroupID hchannel)
  · intro hnot e s' hrun
    have hends := updateChannelDuring_error outage overrideID mirrorID uuid caller req s
    unfold Ends at hends
    rw [hrun] at hends
    rw [hends.resolve_right hnot]
    exact Unchanged.refl _ _

/-- Two categories, and a channel that is synced with the first. -/
def galleryTables : Tables where
  users := [{ id := "owner", signingPublicKey := none }]
  servers := [{ id := "srv", ownerID := "owner" }]
  members := [{ userID := "owner", serverID := "srv" }]
  channelGroups := [{ id := "stage", serverID := "srv" }, { id := "wing", serverID := "srv" }]
  channels := [{ id := "desk", serverID := some "srv", channelGroupID := some "stage"
                 name := "desk", permissionsSynced := true }]
  roles := [{ id := "srv", serverID := "srv", name := "@everyone", permissions := viewChannel,
              position := 0 }]

def galleryState : ChatState where
  db := ⟨galleryTables, by decide⟩

/-- The owner moves the channel, and the second write gets no answer. -/
def moveToWing : Handler Channel :=
  updateChannelDuring (fun statement => statement = .setPermissionsSynced) "override" "mirror"
    (fun _ id => id) (some "owner") { channelID := "desk", channelGroupID := some "wing" }

/-- The request fails, and the channel is in the other category and still marked
    as synced. -/
theorem not_unchanged_moveToWing :
    ¬ ∀ e s', moveToWing galleryState = .error e s' →
      Unchanged "desk" galleryState.db.tables s'.db.tables := by
  intro hunchanged
  have hfails : succeeds moveToWing galleryState = false := by decide +kernel
  have hmoved : Table.lookup Channel.id "desk"
      (after moveToWing galleryState).db.tables.channels ≠
      Table.lookup Channel.id "desk" galleryState.db.tables.channels := by decide +kernel
  unfold Action.succeeds at hfails
  unfold after at hmoved
  rcases hrun : moveToWing galleryState with ⟨ch, s'⟩ | ⟨e, s'⟩
  · rw [hrun] at hfails
    cases hfails
  · rw [hrun] at hmoved
    exact hmoved (hunchanged e s' hrun).channel

end Meza.Chat
