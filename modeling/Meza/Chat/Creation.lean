import Mathlib.Data.List.Flatten
import Meza.Store.Writing
import Meza.Chat.System

/-! # Creating channels

    `CreateChannel` inserts a channel, or a voice channel with its text
    companion, and then writes the first overrides: a ViewChannel deny for
    `@everyone` if the channel is private, and copies of the category's role
    overrides. Everything after the insertion is best effort.

    The second half says which overrides a new channel ends up with, and adds
    the call to the events of the system. -/

namespace Meza.Chat

open Store Permissions List Action ChatStore Table OverrideSubject OverrideScope

/-! ## Section 1: CreateChannel -/

structure CreateChannelRequest where
  serverID : ID
  name : String
  type : Nat := 0
  isPrivate : Bool := false
  channelGroupID : ID := ""

/-- The ids that are drawn: of the two channels, of the deny of a channel, and of
    the copy of an override for a channel. -/
structure CreationIDs where
  channelID : ID
  companionID : ID
  deny : ID → ID
  copy : ID → ID → ID

/-- The privacy of the request, or else the server's default. -/
def channelPrivacy (req : CreateChannelRequest) (t : Tables) : Except ConnectError Bool :=
  if req.isPrivate then .ok true
  else (orElse internalError (getServer t req.serverID)).map (·.defaultChannelPrivacy)

def creationError : StoreError → ConnectError
  | .alreadyExists _ =>
    { code := .alreadyExists, message := "a channel with that name already exists" }
  | _ => internalError

/-- Voice channels, of type 2, get a text companion. -/
def insertChannels (ids : CreationIDs) (req : CreateChannelRequest) (isPrivate : Bool) (db : DB) :
    Except StoreError ((Channel × Option Channel) × DB) :=
  if req.type = 2 then
    (createVoiceChannelWithCompanion db ids.channelID ids.companionID req.serverID
      req.name isPrivate req.channelGroupID).map
        fun ((voiceCh, textCh), db) => ((voiceCh, some textCh), db)
  else
    (createChannel db ids.channelID req.serverID req.name req.type isPrivate
      req.channelGroupID).map fun (ch, db) => ((ch, none), db)

/-- A transaction whose errors are told apart. -/
def transactOr {α : Type} (f : DB → Except StoreError (α × DB))
    (toError : StoreError → ConnectError) : Handler α :=
  update fun s =>
    match f s.db with
    | .ok (a, db) => .ok (a, { s with db })
    | .error e => .error (toError e)

/-- The override that hides a private channel from everyone. -/
def denyRow (ids : CreationIDs) (serverID channelID : ID) : PermissionOverride :=
  { id := ids.deny channelID, scope := .channel channelID, subject := .role serverID,
    allow := 0, deny := viewChannel }

/-- A category's override for the new channel. The copy takes over the role only:
    one made from a member's override has neither role nor member. -/
def copyRow (ids : CreationIDs) (channelID : ID) (ovr : PermissionOverride) :
    Option PermissionOverride :=
  match ovr.subject with
  | .role roleID =>
    some { id := ids.copy ovr.id channelID, scope := .channel channelID, subject := .role roleID,
           allow := ovr.allow, deny := ovr.deny }
  | .user _ => none

/-- A row without a subject breaks `permission_overrides_role_or_user_check`. -/
def setNewOverride (row : Option PermissionOverride) (db : DB) : Except StoreError DB :=
  match row with
  | none => .error .constraint
  | some w => (setOverride db w).map (·.2)

/-- Private channels are hidden from everyone. -/
def hideChannels (ids : CreationIDs) (serverID : ID) (isPrivate : Bool) (created : List Channel) :
    Handler Unit :=
  if isPrivate then
    created.forM fun c => attempt (setNewOverride (some (denyRow ids serverID c.id)))
  else pure ()

/-- The category's overrides are the first overrides of the channel. -/
def inheritOverrides (ids : CreationIDs) (groupID : ID) (created : List Channel) : Handler Unit :=
  if groupID = "" then pure ()
  else do
    let categoryOverrides ← require fun t => .ok (listOverridesByTarget t groupID)
    -- a copy for `@everyone` takes the place of the deny written before
    categoryOverrides.forM fun ovr =>
      created.forM fun c => attempt (setNewOverride (copyRow ids c.id ovr))

def createChannel (ids : CreationIDs) (caller : Option ID) (req : CreateChannelRequest) :
    Handler Channel := do
  let userID ← require fun _ => authenticate caller
  reject (req.serverID = "" ∨ req.name = "") .invalidArgument "server_id and name are required"
  require fun t => requireMembership t userID req.serverID
  let _ ← require fun t => requirePermission t userID req.serverID manageChannels
  require fun t => requireGroupOfServer t req.channelGroupID req.serverID
  let isPrivate ← require fun t => channelPrivacy req t
  let (ch, companionCh) ← transactOr (insertChannels ids req isPrivate) creationError
  -- from here on a failure is logged and the channel stays
  let created := ch :: companionCh.toList
  created.forM fun c => attempt fun db => addChannelMember db c.id userID
  hideChannels ids req.serverID ch.isPrivate created
  inheritOverrides ids req.channelGroupID created
  return ch

/-! ## Section 2: Writes that go through -/

/-- The writes have new ids and are about existing rows. -/
structure Writable (t : Tables) (writes : List PermissionOverride) : Prop where
  ids : ((writes ++ t.permissionOverrides).map (·.id)).Nodup
  scopes : ∀ w ∈ writes, w.scope.Exists t
  subjects : ∀ w ∈ writes, w.subject.Exists t

/-- The state changed by the writes alone. -/
structure Wrote (writes : List PermissionOverride) (s s' : ChatState) : Prop where
  state : s' = { s with db := s'.db }
  tables : s'.db.tables = { s.db.tables with
    permissionOverrides := writeAll s.db.tables.permissionOverrides writes }

theorem Wrote.refl (s : ChatState) : Wrote [] s s := ⟨rfl, rfl⟩

theorem Wrote.trans {ws₁ ws₂ : List PermissionOverride} {s₁ s₂ s₃ : ChatState}
    (h₁ : Wrote ws₁ s₁ s₂) (h₂ : Wrote ws₂ s₂ s₃) : Wrote (ws₁ ++ ws₂) s₁ s₃ := by
  refine ⟨?_, ?_⟩
  · rw [h₂.state, h₁.state]
  · rw [h₂.tables, h₁.tables]
    unfold writeAll
    rw [foldl_append]

theorem ids_writeOverride (rows : List PermissionOverride) (w : PermissionOverride) :
    (writeOverride rows w).map (·.id) = rows.map (·.id) ∨
      (writeOverride rows w).map (·.id) = rows.map (·.id) ++ [w.id] := by
  unfold writeOverride upsert
  split
  · left
    apply map_key_updateWhere
    exact fun _ => rfl
  · exact .inr map_append

variable {t : Tables} {w : PermissionOverride}

theorem Writable.after_one {ws : List PermissionOverride} (h : Writable t (w :: ws)) :
    Writable { t with permissionOverrides := writeOverride t.permissionOverrides w } ws := by
  refine ⟨?_, ?_, ?_⟩
  · -- the id of the write is the only one that may be added
    have hids := h.ids
    rw [cons_append, map_cons, nodup_cons] at hids
    show ((ws ++ writeOverride t.permissionOverrides w).map (·.id)).Nodup
    rw [map_append] at hids ⊢
    rcases ids_writeOverride t.permissionOverrides w with hsame | hnew
    · rw [hsame]
      exact hids.2
    · rw [hnew, ← append_assoc, ← concat_eq_append]
      exact hids.2.concat hids.1
  · intro w' hw'
    exact h.scopes w' (mem_cons_of_mem _ hw')
  · intro w' hw'
    exact h.subjects w' (mem_cons_of_mem _ hw')

theorem Writable.after {ws₁ ws₂ : List PermissionOverride} (h : Writable t (ws₁ ++ ws₂)) :
    Writable { t with permissionOverrides := writeAll t.permissionOverrides ws₁ } ws₂ := by
  induction ws₁ generalizing t with
  | nil => exact h
  | cons w ws₁ ih => exact ih h.after_one

theorem Writable.left {ws₁ ws₂ : List PermissionOverride} (h : Writable t (ws₁ ++ ws₂)) :
    Writable t ws₁ := by
  refine ⟨?_, ?_, ?_⟩
  · refine .sublist ?_ h.ids
    exact ((sublist_append_left ws₁ ws₂).append (.refl _)).map _
  · intro w hw
    exact h.scopes w (mem_append_left _ hw)
  · intro w hw
    exact h.subjects w (mem_append_left _ hw)

variable {E : ConnectError → ChatState → Prop} {s : ChatState}

theorem attempt_setNewOverride {row : Option PermissionOverride}
    (h : Writable s.db.tables row.toList) :
    Ends (attempt (setNewOverride row)) s (fun _ s' => Wrote row.toList s s') E := by
  apply ends_last
  rcases row with _ | w
  · exact ends_tried (ends_pure (.refl s))
  · have hids := h.ids
    rw [Option.toList_some, singleton_append, map_cons, nodup_cons] at hids
    obtain ⟨stored, db', hset⟩ := setOverride_accepted (h.scopes w mem_cons_self)
      (h.subjects w mem_cons_self) hids.1
    have hok : setNewOverride (some w) s.db = .ok db' := by
      show (setOverride s.db w).map (·.2) = .ok db'
      rw [hset]
      rfl
    refine ends_tried (ends_pure ⟨rfl, ?_⟩)
    unfold tried
    rw [hok]
    exact setOverride_ok hset

theorem ends_writes {α : Type} {f : α → Handler PUnit} {g : α → List PermissionOverride}
    (hf : ∀ a s, Writable s.db.tables (g a) → Ends (f a) s (fun _ s' => Wrote (g a) s s') E)
    (l : List α) (h : Writable s.db.tables (l.flatMap g)) :
    Ends (l.forM f) s (fun _ s' => Wrote (l.flatMap g) s s') E := by
  -- what was done and what is left make up the whole
  let I : List α → ChatState → Prop := fun rest s' =>
    ∃ done, l.flatMap g = done ++ rest.flatMap g ∧ Wrote done s s' ∧
      Writable s'.db.tables (rest.flatMap g)
  have hloop : Ends (l.forM f) s (fun _ s' => I [] s') E := by
    refine ends_forM ?_ ⟨[], rfl, .refl s, h⟩
    intro a rest s₁ hrest
    obtain ⟨done, hall, hwrote, hleft⟩ := hrest
    rw [flatMap_cons] at hall hleft
    refine (hf a s₁ hleft.left).mono ?_ (fun _ _ hE => hE)
    intro _ s₂ hstep
    refine ⟨done ++ g a, by rw [hall, append_assoc], hwrote.trans hstep, ?_⟩
    rw [hstep.tables]
    exact hleft.after
  refine hloop.mono ?_ (fun _ _ hE => hE)
  intro _ s' hend
  obtain ⟨done, hall, hwrote, -⟩ := hend
  rw [flatMap_nil, append_nil] at hall
  rwa [hall]

/-! ## Section 3: What a new channel starts with -/

/-- The ids of the channels that are created. -/
def CreationIDs.created (ids : CreationIDs) (req : CreateChannelRequest) : List ID :=
  if req.type = 2 then [ids.channelID, ids.companionID] else [ids.channelID]

/-- The inserted rows, the companion first. -/
def newChannels (ids : CreationIDs) (req : CreateChannelRequest) (isPrivate : Bool)
    (t : Tables) : List Channel :=
  if req.type = 2 then
    [newChannel t ids.companionID req.serverID req.name 1 isPrivate req.channelGroupID,
     { newChannel t ids.channelID req.serverID req.name 2 isPrivate
        req.channelGroupID with voiceTextChannelID := some ids.companionID }]
  else
    [newChannel t ids.channelID req.serverID req.name req.type isPrivate req.channelGroupID]

def denyWrites (ids : CreationIDs) (serverID : ID) (isPrivate : Bool) (created : List ID) :
    List PermissionOverride :=
  if isPrivate then created.map (denyRow ids serverID) else []

def copyWrites (ids : CreationIDs) (groupID : ID) (created : List ID) (t : Tables) :
    List PermissionOverride :=
  if groupID = "" then []
  else (listOverridesByTarget t groupID).flatMap fun ovr =>
    created.flatMap fun channelID => (copyRow ids channelID ovr).toList

/-- The denies, and then the copies of each override of the category. -/
def firstWrites (ids : CreationIDs) (req : CreateChannelRequest) (isPrivate : Bool)
    (t : Tables) : List PermissionOverride :=
  denyWrites ids req.serverID isPrivate (ids.created req) ++
    copyWrites ids req.channelGroupID (ids.created req) t

/-- The drawn ids are new. -/
structure CreationIDs.Fresh (ids : CreationIDs) (req : CreateChannelRequest) (t : Tables) :
    Prop where
  nonempty : ∀ id ∈ ids.created req, id ≠ ""
  groups : ∀ id ∈ ids.created req, ∀ g ∈ t.channelGroups, id ≠ g.id
  overrides : ((ids.created req).map ids.deny ++
    (listOverridesByTarget t req.channelGroupID).flatMap
      (fun ovr => (ids.created req).map (ids.copy ovr.id)) ++
    t.permissionOverrides.map (·.id)).Nodup

/-- A channel was created. -/
structure Created (ids : CreationIDs) (caller : Option ID) (req : CreateChannelRequest)
    (s s' : ChatState) : Prop where
  change : ∃ userID auth isPrivate channelMembers,
    Authorized s.db.tables caller req.serverID manageChannels userID auth ∧
    channelPrivacy req s.db.tables = .ok isPrivate ∧
    requireGroupOfServer s.db.tables req.channelGroupID req.serverID = .ok () ∧
    Changed
      (fun t => { t with
        channels := t.channels ++ newChannels ids req isPrivate t
        channelMembers
        permissionOverrides :=
          writeAll t.permissionOverrides (firstWrites ids req isPrivate t) }) id s s'

variable {isPrivate : Bool}

section Spec

variable {ids : CreationIDs} {req : CreateChannelRequest}

theorem insertChannels_ok {db db' : DB} {ch : Channel} {companionCh : Option Channel}
    (h : insertChannels ids req isPrivate db = .ok ((ch, companionCh), db')) :
    db'.tables = { db.tables with
      channels := db.tables.channels ++ newChannels ids req isPrivate db.tables } ∧
    (ch :: companionCh.toList).map (·.id) = ids.created req ∧ ch.isPrivate = isPrivate := by
  unfold insertChannels at h
  unfold newChannels CreationIDs.created
  split at h
  · rename_i hvoice
    rw [if_pos hvoice, if_pos hvoice]
    obtain ⟨⟨⟨voiceCh, textCh⟩, db₁⟩, hcreate, heq⟩ := map_eq_ok.mp h
    obtain ⟨_, -, hcreate⟩ := bind_eq_ok.mp hcreate
    obtain ⟨db₂, hcommit, hcreate⟩ := bind_eq_ok.mp hcreate
    obtain ⟨⟨rfl, rfl⟩, rfl⟩ := heq
    obtain ⟨⟨rfl, rfl⟩, rfl⟩ := hcreate
    exact ⟨commit_ok hcommit, rfl, rfl⟩
  · rename_i hvoice
    rw [if_neg hvoice, if_neg hvoice]
    obtain ⟨⟨c, db₁⟩, hcreate, heq⟩ := map_eq_ok.mp h
    obtain ⟨_, -, hcreate⟩ := bind_eq_ok.mp hcreate
    obtain ⟨_, -, hcreate⟩ := bind_eq_ok.mp hcreate
    obtain ⟨db₂, hcommit, hcreate⟩ := bind_eq_ok.mp hcreate
    obtain ⟨⟨rfl, rfl⟩, rfl⟩ := heq
    obtain ⟨rfl, rfl⟩ := hcreate
    exact ⟨commit_ok hcommit, rfl, rfl⟩

theorem ends_transactOr {α β : Type} {k : α → Handler β} {Q : β → ChatState → Prop}
    {f : DB → Except StoreError (α × DB)} {toError : StoreError → ConnectError}
    (hok : ∀ a db, f s.db = .ok (a, db) → Ends (k a) { s with db } Q E)
    (herr : ∀ e, E e s := by first | exact fun _ => rfl | assumption) :
    Ends (transactOr f toError >>= k) s Q E := by
  refine ends_update ?_ herr
  intro a s' h
  rcases hf : f s.db with e | ⟨b, db⟩
  · rw [hf] at h
    cases h
  · rw [hf] at h
    injection h with h
    obtain ⟨rfl, rfl⟩ := Prod.mk.inj h
    exact hok b db hf

theorem addMembers_spec {α : Type} (channelID : α → ID) (created : List α) (userID : ID) :
    Ends (created.forM fun c =>
        attempt fun db => addChannelMember db (channelID c) userID)
      s (fun _ s' => ∃ channelMembers, Changed (fun t => { t with channelMembers }) id s s') E := by
  let I : List α → ChatState → Prop := fun _ s' =>
    ∃ channelMembers, Changed (fun t => { t with channelMembers }) id s s'
  refine ends_forM (I := I) ?_ ⟨s.db.tables.channelMembers, rfl, rfl, rfl⟩
  intro c rest s₁ h₁
  obtain ⟨channelMembers, htables, hcache, hnow⟩ := h₁
  apply ends_last
  refine ends_attempt ?_ (ends_pure ⟨channelMembers, htables, hcache, hnow⟩)
  intro db hdb
  refine ends_pure ⟨db.tables.channelMembers, ?_, hcache, hnow⟩
  show db.tables = _
  rw [commit_ok hdb, htables]

theorem hideChannels_spec {serverID : ID} {created : List Channel}
    (h : Writable s.db.tables (denyWrites ids serverID isPrivate (created.map (·.id)))) :
    Ends (hideChannels ids serverID isPrivate created) s
      (fun _ s' => Wrote (denyWrites ids serverID isPrivate (created.map (·.id))) s s') E := by
  unfold hideChannels denyWrites at *
  split
  · rename_i hpriv
    rw [if_pos hpriv] at h
    have hall : (created.map (·.id)).map (denyRow ids serverID) =
        created.flatMap fun c => (some (denyRow ids serverID c.id)).toList := by
      rw [map_map]
      exact map_eq_flatMap
    rw [hall] at h ⊢
    exact ends_writes (fun c s' hw => attempt_setNewOverride hw) created h
  · exact ends_pure (.refl s)

variable {groupID : ID}

theorem inheritOverrides_spec {created : List Channel}
    (h : Writable s.db.tables (copyWrites ids groupID (created.map (·.id)) s.db.tables)) :
    Ends (inheritOverrides ids groupID created) s
      (fun _ s' => Wrote (copyWrites ids groupID (created.map (·.id)) s.db.tables) s s') E := by
  unfold inheritOverrides
  split
  · rename_i hgroup
    have hnone : copyWrites ids groupID (created.map (·.id)) s.db.tables = [] := by
      unfold copyWrites
      rw [if_pos hgroup]
    rw [hnone]
    exact ends_pure (.refl s)
  · rename_i hgroup
    have hall : copyWrites ids groupID (created.map (·.id)) s.db.tables =
        (listOverridesByTarget s.db.tables groupID).flatMap fun ovr =>
          created.flatMap fun c => (copyRow ids c.id ovr).toList := by
      unfold copyWrites
      rw [if_neg hgroup]
      simp only [flatMap_map]
    rw [hall] at h ⊢
    show Ends ((listOverridesByTarget s.db.tables groupID).forM fun ovr =>
      created.forM fun c => attempt (setNewOverride (copyRow ids c.id ovr))) s _ E
    refine ends_writes (g := fun ovr => created.flatMap fun c => (copyRow ids c.id ovr).toList)
      ?_ _ h
    intro ovr s₁ h₁
    exact ends_writes (fun c s' hw => attempt_setNewOverride hw) created h₁

theorem scope_of_mem_denyWrites {serverID : ID} {created : List ID}
    (h : w ∈ denyWrites ids serverID isPrivate created) :
    isPrivate = true ∧ ∃ channelID ∈ created, w = denyRow ids serverID channelID := by
  unfold denyWrites at h
  split at h
  · rename_i hpriv
    obtain ⟨channelID, hmem, rfl⟩ := mem_map.mp h
    exact ⟨hpriv, channelID, hmem, rfl⟩
  · cases h

theorem mem_copyWrites {created : List ID} :
    w ∈ copyWrites ids groupID created t ↔ groupID ≠ "" ∧
      ∃ ovr ∈ t.permissionOverrides, ovr.scope.id = groupID ∧ ∃ channelID ∈ created,
        ∃ roleID, ovr.subject = .role roleID ∧
          w = { id := ids.copy ovr.id channelID, scope := .channel channelID,
                subject := .role roleID, allow := ovr.allow, deny := ovr.deny } := by
  have hcopy : ∀ (ovr : PermissionOverride) (channelID : ID),
      w ∈ (copyRow ids channelID ovr).toList ↔ ∃ roleID, ovr.subject = .role roleID ∧
        w = { id := ids.copy ovr.id channelID, scope := .channel channelID,
              subject := .role roleID, allow := ovr.allow, deny := ovr.deny } := by
    intro ovr channelID
    unfold copyRow
    rcases ovr.subject with roleID | userID
    · simp
    · simp
  unfold copyWrites
  by_cases hgroup : groupID = ""
  · simp [hgroup]
  · rw [if_neg hgroup]
    simp only [mem_flatMap, listOverridesByTarget, mem_filter, onTarget_iff, hcopy,
      ne_eq, hgroup, not_false_eq_true, true_and, and_assoc]

theorem created_subset_newChannels {id : ID} (h : id ∈ ids.created req) :
    id ∈ (newChannels ids req isPrivate t).map (·.id) := by
  unfold CreationIDs.created at h
  unfold newChannels
  split
  · rename_i hvoice
    rw [if_pos hvoice] at h
    simpa [newChannel, or_comm] using h
  · rename_i hvoice
    rw [if_neg hvoice] at h
    simpa [newChannel] using h

/-- The ids of the writes are among the drawn ones, in order. -/
theorem ids_firstWrites (isPrivate : Bool) (t : Tables) :
    ((firstWrites ids req isPrivate t).map (·.id)).Sublist
      ((ids.created req).map ids.deny ++
        (listOverridesByTarget t req.channelGroupID).flatMap
          fun ovr => (ids.created req).map (ids.copy ovr.id)) := by
  unfold firstWrites
  rw [map_append]
  refine .append ?_ ?_
  · unfold denyWrites
    split
    · rw [map_map]
      exact .refl _
    · exact nil_sublist _
  · unfold copyWrites
    split
    · exact nil_sublist _
    · rw [map_flatMap]
      refine .flatMap_right _ fun ovr _ => ?_
      unfold copyRow
      rcases ovr.subject with roleID | userID
      · simp only [Option.toList_some, map_flatMap, map_cons, map_nil]
        rw [← map_eq_flatMap]
      · simp only [Option.toList_none]
        rw [flatMap_eq_nil_iff.mpr fun _ _ => rfl]
        exact nil_sublist _

/-- Writes to other scopes leave the overrides of a category alone. -/
theorem listOverridesByTarget_writeAll {rows writes : List PermissionOverride}
    (h : ∀ w ∈ writes, w.scope.id ≠ groupID) :
    (writeAll rows writes).filter (·.onTarget groupID) = rows.filter (·.onTarget groupID) := by
  unfold writeAll
  induction writes generalizing rows with
  | nil => rfl
  | cons w writes ih =>
    obtain ⟨hw, hwrites⟩ := forall_mem_cons.mp h
    rw [foldl_cons, ih hwrites]
    have hagree : AgreeOutside (fun po => po.scope.id ≠ groupID) rows (writeOverride rows w) := by
      refine agreeOutside_upsert hw ?_
      intro po hpo
      have hscope : po.scope = w.scope := congrArg Prod.fst hpo
      rw [hscope]
      exact ⟨hw, hw⟩
    refine hagree (·.onTarget groupID) ?_
    intro po hpo
    rw [← Bool.not_eq_true, onTarget_iff]
    exact hpo

theorem firstWrites_writable (hs : WellFormed t) (hc : t.Constraints) (hfresh : ids.Fresh req t)
    (hserver : req.serverID ∈ t.servers.map (·.id)) (isPrivate : Bool)
    (channelMembers : List ChannelMember) :
    Writable
      { t with channels := t.channels ++ newChannels ids req isPrivate t, channelMembers }
      (firstWrites ids req isPrivate t) := by
  have hexists : ∀ id ∈ ids.created req,
      id ∈ (t.channels ++ newChannels ids req isPrivate t).map (·.id) := by
    intro id hid
    rw [map_append]
    exact mem_append_right _ (created_subset_newChannels hid)
  refine ⟨?_, ?_, ?_⟩
  · rw [map_append]
    exact .sublist ((ids_firstWrites isPrivate t).append (.refl _)) hfresh.overrides
  · intro w hw
    rcases mem_append.mp hw with hw | hw
    · obtain ⟨-, channelID, hmem, rfl⟩ := scope_of_mem_denyWrites hw
      exact hexists channelID hmem
    · obtain ⟨-, ovr, -, -, channelID, hmem, roleID, -, rfl⟩ := mem_copyWrites.mp hw
      exact hexists channelID hmem
  · intro w hw
    rcases mem_append.mp hw with hw | hw
    · -- the role of everyone has the id of the server
      obtain ⟨-, channelID, -, rfl⟩ := scope_of_mem_denyWrites hw
      obtain ⟨srv, hsrv, hid⟩ := mem_map.mp hserver
      obtain ⟨r, hr, hrid, -⟩ := hs.roles.everyone srv hsrv
      exact mem_map.mpr ⟨r, hr, hrid.trans hid⟩
    · obtain ⟨-, ovr, hovr, -, channelID, -, roleID, hsubject, rfl⟩ := mem_copyWrites.mp hw
      have hrole := hc.roles.overridesSubject ovr hovr
      rw [hsubject] at hrole
      exact hrole

theorem createChannel_spec (caller : Option ID) (hs : WellFormed s.db.tables)
    (hfresh : ids.Fresh req s.db.tables) :
    Ends (createChannel ids caller req) s (fun _ s' => Created ids caller req s s')
      (fun _ s' => s' = s) := by
  refine ends_require ?_
  intro userID huser
  refine ends_reject ?_
  intro _
  refine ends_require ?_
  intro _ _
  refine ends_require ?_
  intro auth hauth
  refine ends_require ?_
  intro _ hgroup
  refine ends_require ?_
  intro isPrivate hprivate
  refine ends_transactOr ?_
  intro pair db hdb
  obtain ⟨ch, companionCh⟩ := pair
  obtain ⟨hinserted, hids, hflag⟩ := insertChannels_ok hdb
  have hserver : req.serverID ∈ s.db.tables.servers.map (·.id) := by
    obtain ⟨hmem, hid⟩ := mem_of_lookup (oneRow_ok.mp (requirePermission_ok hauth).1)
    exact mem_map.mpr ⟨_, hmem, hid⟩
  rw [ends_bind]
  refine (addMembers_spec Channel.id (ch :: companionCh.toList) userID).mono ?_ (fun _ _ h => h)
  intro _ s₂ h₂
  obtain ⟨channelMembers, htables₂, hcache, hnow⟩ := h₂
  have hwritable := firstWrites_writable hs s.db.constraints hfresh hserver isPrivate channelMembers
  have htables₂ : s₂.db.tables = { s.db.tables with
      channels := s.db.tables.channels ++ newChannels ids req isPrivate s.db.tables
      channelMembers } := by
    rw [htables₂, hinserted]
  rw [← htables₂] at hwritable
  rw [ends_bind, hflag]
  refine (hideChannels_spec (by rw [hids]; exact hwritable.left)).mono ?_ (fun _ _ h => h)
  intro _ s₃ h₃
  rw [hids] at h₃
  -- the category's overrides are read after the denies were written
  have hcopies : copyWrites ids req.channelGroupID ((ch :: companionCh.toList).map (·.id))
      s₃.db.tables = copyWrites ids req.channelGroupID (ids.created req) s.db.tables := by
    unfold copyWrites
    rw [hids]
    by_cases hempty : req.channelGroupID = ""
    · rw [if_pos hempty, if_pos hempty]
    · rw [if_neg hempty, if_neg hempty]
      congr 1
      rw [h₃.tables, htables₂]
      refine listOverridesByTarget_writeAll ?_
      intro w hw
      obtain ⟨-, channelID, hmem, rfl⟩ := scope_of_mem_denyWrites hw
      obtain ⟨g, hg, hgid, -⟩ := requireGroupOfServer_ok hgroup hempty
      rw [← hgid]
      exact hfresh.groups channelID hmem g hg
  rw [ends_bind]
  refine (inheritOverrides_spec ?_).mono ?_ (fun _ _ h => h)
  · rw [hcopies, h₃.tables]
    exact hwritable.after
  · intro _ s₄ h₄
    rw [hcopies] at h₄
    have hwrote := h₃.trans h₄
    refine ends_pure ⟨userID, auth, isPrivate, channelMembers,
      ⟨authenticate_ok huser, hauth⟩, hprivate, hgroup, ?_, ?_, ?_⟩
    · rw [hwrote.tables, htables₂]
      rfl
    · rw [hwrote.state, hcache]
    · rw [hwrote.state, hnow]

/-- What the category says about a role. -/
def inheritedOverride (req : CreateChannelRequest) (t : Tables) (roleID : ID) : Option Override :=
  if req.channelGroupID = "" then none
  else overrideAt t.permissionOverrides (.group req.channelGroupID) (.role roleID)

/-- The masks a new channel starts with: the category's for a role, or else the
    deny. -/
def initialOverride (req : CreateChannelRequest) (isPrivate : Bool) (t : Tables) :
    OverrideSubject → Option Override
  | .role roleID =>
    (inheritedOverride req t roleID).or
      (if isPrivate = true ∧ roleID = req.serverID then some { allow := 0, deny := viewChannel }
        else none)
  | .user _ => none

theorem overrideAt_firstWrites_of_ne {scope : OverrideScope}
    (h : ∀ id ∈ ids.created req, scope ≠ .channel id) (subject : OverrideSubject) :
    overrideAt (writeAll t.permissionOverrides (firstWrites ids req isPrivate t)) scope subject =
      overrideAt t.permissionOverrides scope subject := by
  refine overrideAt_writeAll_of_none ?_
  intro w hw htarget
  have hscope : w.scope = scope := congrArg Prod.fst htarget
  rcases mem_append.mp hw with hw | hw
  · obtain ⟨-, channelID, hmem, rfl⟩ := scope_of_mem_denyWrites hw
    exact h channelID hmem hscope.symm
  · obtain ⟨-, ovr, -, -, channelID, hmem, roleID, -, rfl⟩ := mem_copyWrites.mp hw
    exact h channelID hmem hscope.symm

/-- What the denies leave for a new channel. -/
theorem overrideAt_denyWrites {rows : List PermissionOverride} {serverID id : ID}
    {created : List ID} (hid : id ∈ created)
    (hnone : ∀ subject, overrideAt rows (.channel id) subject = none) (roleID : ID) :
    overrideAt (writeAll rows (denyWrites ids serverID isPrivate created)) (.channel id)
        (.role roleID) =
      if isPrivate = true ∧ roleID = serverID then some { allow := 0, deny := viewChannel }
      else none := by
  by_cases hdeny : isPrivate = true ∧ roleID = serverID
  · rw [if_pos hdeny]
    refine overrideAt_writeAll_of_mem ?_ ?_
    · refine ⟨denyRow ids serverID id, ?_, ?_⟩
      · unfold denyWrites
        rw [if_pos hdeny.1]
        exact mem_map_of_mem hid
      · rw [hdeny.2]
        rfl
    · intro w hw _
      obtain ⟨-, channelID, -, rfl⟩ := scope_of_mem_denyWrites hw
      rfl
  · rw [if_neg hdeny, ← hnone (.role roleID)]
    refine overrideAt_writeAll_of_none ?_
    intro w hw htarget
    obtain ⟨hpriv, channelID, -, rfl⟩ := scope_of_mem_denyWrites hw
    have hsubject : role serverID = .role roleID := congrArg Prod.snd htarget
    injection hsubject with hrole
    exact hdeny ⟨hpriv, hrole.symm⟩

/-- **The first overrides** are the same for the channel and its companion. -/
theorem overrideAt_firstWrites (hc : t.Constraints)
    (hscope : req.channelGroupID ≠ "" → ∀ ovr ∈ t.permissionOverrides,
      ovr.scope.id = req.channelGroupID → ovr.scope = .group req.channelGroupID) {id : ID}
    (hid : id ∈ ids.created req)
    (hnone : ∀ subject, overrideAt t.permissionOverrides (.channel id) subject = none)
    (subject : OverrideSubject) :
    overrideAt (writeAll t.permissionOverrides (firstWrites ids req isPrivate t)) (.channel id)
      subject = initialOverride req isPrivate t subject := by
  have hsplit : writeAll t.permissionOverrides (firstWrites ids req isPrivate t) =
      writeAll (writeAll t.permissionOverrides
        (denyWrites ids req.serverID isPrivate (ids.created req)))
        (copyWrites ids req.channelGroupID (ids.created req) t) := by
    unfold writeAll firstWrites
    rw [foldl_append]
  rcases subject with roleID | userID
  · show _ = (inheritedOverride req t roleID).or _
    rw [hsplit]
    rcases hcategory : inheritedOverride req t roleID with _ | o
    · -- the category says nothing about the role
      rw [Option.none_or, ← overrideAt_denyWrites hid hnone roleID]
      refine overrideAt_writeAll_of_none ?_
      intro w hw htarget
      obtain ⟨hgroup, ovr, hovr, hovrID, channelID, -, roleID', hsubject, rfl⟩ :=
        mem_copyWrites.mp hw
      unfold inheritedOverride at hcategory
      rw [if_neg hgroup] at hcategory
      have hsame : role roleID' = .role roleID := congrArg Prod.snd htarget
      exact overrideAt_eq_none.mp hcategory ovr hovr
        ⟨hscope hgroup ovr hovr hovrID, hsubject.trans hsame⟩
    · unfold inheritedOverride at hcategory
      have hgroup : req.channelGroupID ≠ "" := by
        intro hempty
        rw [if_pos hempty] at hcategory
        cases hcategory
      rw [if_neg hgroup] at hcategory
      obtain ⟨ovr, hovr, hovrScope, hsubject, rfl⟩ := overrideAt_eq_some hcategory
      show _ = some ovr.override
      refine overrideAt_writeAll_of_mem ?_ ?_
      · refine ⟨_, mem_copyWrites.mpr ⟨hgroup, ovr, hovr, by rw [hovrScope]; rfl, id, hid,
          roleID, hsubject, rfl⟩, rfl⟩
      · -- the category has one row for the role
        intro w hw htarget
        obtain ⟨-, ovr', hovr', hovrID', channelID, -, roleID', hsubject', rfl⟩ :=
          mem_copyWrites.mp hw
        have hsame : role roleID' = .role roleID := congrArg Prod.snd htarget
        have heq : ovr' = ovr := by
          refine eq_of_key hc.roles.overridesTarget hovr' hovr ?_
          refine Prod.ext ?_ ?_
          · exact (hscope hgroup ovr' hovr' hovrID').trans hovrScope.symm
          · exact hsubject'.trans (hsame.trans hsubject.symm)
        rw [heq]
        rfl
  · show _ = none
    rw [← hnone (.user userID)]
    refine overrideAt_writeAll_of_none ?_
    intro w hw htarget
    have hsubject : w.subject = .user userID := congrArg Prod.snd htarget
    rcases mem_append.mp hw with hw | hw
    · obtain ⟨-, channelID, -, rfl⟩ := scope_of_mem_denyWrites hw
      cases hsubject
    · obtain ⟨-, ovr, -, -, channelID, -, roleID, -, rfl⟩ := mem_copyWrites.mp hw
      cases hsubject

end Spec

/-! ## Section 4: The system with new channels -/

section Local

variable {ids : CreationIDs} {caller : Option ID} {req : CreateChannelRequest} {s' : ChatState}

theorem of_mem_newChannels {c : Channel} (h : c ∈ newChannels ids req isPrivate t) :
    c.id ∈ ids.created req ∧ c.serverID = some req.serverID ∧
      c.channelGroupID = orNull req.channelGroupID ∧ c.isPrivate = isPrivate ∧
      ∀ companionID ∈ c.voiceTextChannelID,
        companionID = ids.companionID ∧ c.id = ids.channelID ∧ companionID ∈ ids.created req := by
  unfold newChannels at h
  unfold CreationIDs.created
  split at h
  · rename_i hvoice
    rw [if_pos hvoice]
    rcases mem_cons.mp h with rfl | h
    · refine ⟨by simp [newChannel], rfl, rfl, rfl, ?_⟩
      intro companionID hcompanion
      cases hcompanion
    · rw [mem_singleton.mp h]
      refine ⟨by simp [newChannel], rfl, rfl, rfl, ?_⟩
      intro companionID hcompanion
      injection hcompanion with hcompanion
      exact ⟨hcompanion.symm, rfl, by simp [← hcompanion]⟩
  · rename_i hvoice
    rw [if_neg hvoice, mem_singleton.mp h]
    refine ⟨by simp [newChannel], rfl, rfl, rfl, ?_⟩
    intro companionID hcompanion
    cases hcompanion

theorem newCompanion_plain (hpk : UniqueOn Channel.id (newChannels ids req isPrivate t))
    {v c : Channel} (hv : v ∈ newChannels ids req isPrivate t)
    (hc : c ∈ newChannels ids req isPrivate t) (hcompanion : v.voiceTextChannelID = some c.id) :
    c.voiceTextChannelID = none := by
  unfold newChannels at hpk hv hc
  split at hpk
  · rename_i hvoice
    rw [if_pos hvoice] at hv hc
    rcases mem_cons.mp hc with rfl | hc
    · rfl
    · rcases mem_cons.mp hv with rfl | hv
      · cases hcompanion
      · -- then the two ids are the same
        rw [mem_singleton.mp hv, mem_singleton.mp hc] at hcompanion
        injection hcompanion with hcompanion
        unfold UniqueOn at hpk
        rw [map_cons, nodup_cons] at hpk
        refine absurd ?_ hpk.1
        exact mem_cons.mpr (.inl hcompanion)
  · rename_i hvoice
    rw [if_neg hvoice] at hc
    rw [mem_singleton.mp hc]
    rfl

theorem Created.created_new (h : Created ids caller req s s') {id : ID}
    (hid : id ∈ ids.created req) : id ∉ s.db.tables.channels.map (·.id) := by
  obtain ⟨userID, auth, isPrivate, channelMembers, -, -, -, hchange⟩ := h.change
  have hpk := s'.db.constraints.channels.channelsPK
  rw [hchange.tables] at hpk
  unfold UniqueOn at hpk
  rw [map_append, nodup_append] at hpk
  intro hold
  exact hpk.2.2 id hold id (created_subset_newChannels hid) rfl

theorem Created.notMem_created (h : Created ids caller req s s') {c : Channel}
    (hc : c ∈ s.db.tables.channels) :
    channel c.id ∉ (ids.created req).map channel := by
  intro hmem
  obtain ⟨id, hid, heq⟩ := mem_map.mp hmem
  injection heq with heq
  rw [heq] at hid
  exact h.created_new hid (mem_map_of_mem hc)

theorem scope_of_category (hs : WellFormed t) (hc : t.Constraints)
    (hgroup : requireGroupOfServer t req.channelGroupID req.serverID = .ok ())
    (hne : req.channelGroupID ≠ "") {ovr : PermissionOverride} (hovr : ovr ∈ t.permissionOverrides)
    (hid : ovr.scope.id = req.channelGroupID) :
    ovr.scope = .group req.channelGroupID := by
  obtain ⟨g, hg, hgid, -⟩ := requireGroupOfServer_ok hgroup hne
  have hexists := hc.roles.overridesScope ovr hovr
  rcases hscope : ovr.scope with id | id
  · rw [hscope] at hid
    exact congrArg group hid
  · rw [hscope] at hid hexists
    obtain ⟨c, hcmem, hcid⟩ := mem_map.mp hexists
    exact absurd (hcid.trans (hid.trans hgid.symm)) (hs.channels.disjoint c hcmem g hg)

/-- **What is stored after a creation**: the first overrides for the new channels,
    and everything else as before. -/
theorem Created.overrideAt (h : Created ids caller req s s') (hs : WellFormed s.db.tables) :
    ∃ isPrivate, channelPrivacy req s.db.tables = .ok isPrivate ∧
      s'.db.tables.channels =
        s.db.tables.channels ++ newChannels ids req isPrivate s.db.tables ∧
      ∀ scope subject, overrideAt s'.db.tables.permissionOverrides scope subject =
        if scope ∈ (ids.created req).map .channel then
          initialOverride req isPrivate s.db.tables subject
        else overrideAt s.db.tables.permissionOverrides scope subject := by
  obtain ⟨userID, auth, isPrivate, channelMembers, -, hprivate, hgroup, hchange⟩ := h.change
  refine ⟨isPrivate, hprivate, by rw [hchange.tables], ?_⟩
  intro scope subject
  rw [hchange.tables]
  split
  · rename_i hscope
    obtain ⟨id, hid, rfl⟩ := mem_map.mp hscope
    refine overrideAt_firstWrites s.db.constraints ?_ hid ?_ subject
    · intro hne ovr hovr hovrID
      exact scope_of_category hs s.db.constraints hgroup hne hovr hovrID
    · exact overrideAt_of_not_exists s.db.constraints (h.created_new hid)
  · rename_i hscope
    refine overrideAt_firstWrites_of_ne ?_ subject
    intro id hid heq
    exact hscope (heq ▸ mem_map_of_mem hid)

theorem Created.wellFormed (h : Created ids caller req s s') (hs : WellFormed s.db.tables)
    (hfresh : ids.Fresh req s.db.tables) : WellFormed s'.db.tables := by
  have hnew : ∀ id ∈ ids.created req, id ∉ s.db.tables.channels.map (·.id) :=
    fun _ hid => h.created_new hid
  have hpk' := s'.db.constraints.channels.channelsPK
  obtain ⟨userID, auth, isPrivate, channelMembers, -, -, hgroup, hchange⟩ := h.change
  rw [hchange.tables] at hpk' ⊢
  refine ⟨hs.roles.of_memberRoles rfl rfl fun _ => .inl, ?_, ?_, ?_, ?_, hs.channels.serverIDs⟩
  · intro c hc g hg hin
    rcases mem_append.mp hc with hc | hc
    · exact hs.channels.groups c hc g hg hin
    · -- the category was checked against the server of the request
      obtain ⟨-, hserver, hcategory, -, -⟩ := of_mem_newChannels hc
      rw [hcategory] at hin
      unfold orNull at hin
      split at hin
      · cases hin
      · rename_i hne
        injection hin with hin
        obtain ⟨g', hg', hid, hsame⟩ := requireGroupOfServer_ok hgroup hne
        rw [hserver, eq_of_key s.db.constraints.channels.groupsPK hg hg'
          (hin.symm.trans hid.symm), hsame]
  · intro c hc d hd hcompanion
    rcases mem_append.mp hc with hc | hc
    · rcases mem_append.mp hd with hd | hd
      · exact hs.channels.companions c hc d hd hcompanion
      · -- an old channel refers to an old one
        have hold := s.db.constraints.channels.channelsCompanion c hc d.id hcompanion
        exact absurd hold (hnew d.id (of_mem_newChannels hd).1)
    · obtain ⟨-, hserver, -, -, hvoice⟩ := of_mem_newChannels hc
      obtain ⟨-, -, hcreated⟩ := hvoice d.id hcompanion
      rcases mem_append.mp hd with hd | hd
      · exact absurd (mem_map_of_mem hd) (hnew d.id hcreated)
      · rw [hserver, (of_mem_newChannels hd).2.1]
  · intro c hc g hg
    rcases mem_append.mp hc with hc | hc
    · exact hs.channels.disjoint c hc g hg
    · exact hfresh.groups c.id (of_mem_newChannels hc).1 g hg
  · intro c hc
    rcases mem_append.mp hc with hc | hc
    · exact hs.channels.channelIDs c hc
    · exact hfresh.nonempty c.id (of_mem_newChannels hc).1

end Local

/-- The events of the system, and the creation of channels. -/
inductive ServerEvent where
  | event (ev : Event)
  | createChannel (ids : CreationIDs) (caller : Option ID) (req : CreateChannelRequest)

def serverStep (s : ChatState) : ServerEvent → ChatState
  | .event ev => step s ev
  | .createChannel ids caller req => after (createChannel ids caller req) s

end Meza.Chat
