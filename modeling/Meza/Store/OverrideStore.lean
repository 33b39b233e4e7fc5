import Meza.Rpc
import Meza.Store.Schema

/-! # Permission overrides

    `PermissionOverrideStore` selects the override rows that concern a member
    and a channel, and sorts them into the four layers of the resolver. The
    same loop body runs for one channel and for a batch of channels. The
    functions that write override rows stand at the end. -/

namespace Meza.Store

open Permissions List Table PermissionOverride

/-! ## Section 1: Model -/

/-- The overrides of one channel, by layer. -/
structure ChannelOverrides where
  groupRoleOverrides : List Override := []
  channelRoleOverrides : List Override := []
  groupUserOverride : Option Override := none
  channelUserOverride : Option Override := none
  deriving DecidableEq, Repr

def PermissionOverride.override (po : PermissionOverride) : Override :=
  { allow := po.allow, deny := po.deny }

/-- The loop body that files one row. -/
def ChannelOverrides.add (co : ChannelOverrides) (po : PermissionOverride) : ChannelOverrides :=
  match po.subject, po.scope with
  | .role _, .group _ =>
    { co with groupRoleOverrides := co.groupRoleOverrides ++ [po.override] }
  | .role _, .channel _ =>
    { co with channelRoleOverrides := co.channelRoleOverrides ++ [po.override] }
  | .user _, .group _ => { co with groupUserOverride := some po.override }
  | .user _, .channel _ => { co with channelUserOverride := some po.override }

def collectOverrides (rows : List PermissionOverride) : ChannelOverrides :=
  rows.foldl .add {}

/-- `po.channel_id = $1 OR po.channel_group_id = $3`; a null group matches
    nothing. -/
def PermissionOverride.targets (channelID : ID) (channelGroupID : Option ID)
    (po : PermissionOverride) : Bool :=
  match po.scope with
  | .channel id => id = channelID
  | .group id => channelGroupID = some id

/-- `po.role_id = ANY($2) OR po.user_id = $4`. -/
def PermissionOverride.concerns (roleIDs : List ID) (userID : ID)
    (po : PermissionOverride) : Bool :=
  match po.subject with
  | .role id => id ∈ roleIDs
  | .user id => id = userID

/-- `SELECT channel_group_id FROM channels WHERE id = $1`. -/
def Tables.channelGroupOf (t : Tables) (channelID : ID) : Option ID :=
  (lookup Channel.id channelID t.channels).bind (·.channelGroupID)

theorem Tables.channelGroupOf_of_mem {t : Tables} (hpk : UniqueOn Channel.id t.channels)
    {c : Channel} (hc : c ∈ t.channels) : t.channelGroupOf c.id = c.channelGroupID := by
  unfold Tables.channelGroupOf
  rw [lookup_of_mem hpk hc]
  rfl

def getAllOverridesForChannel (t : Tables) (channelID : ID) (roleIDs : List ID)
    (userID : ID) : ChannelOverrides :=
  collectOverrides (t.permissionOverrides.filter fun po =>
    po.targets channelID (t.channelGroupOf channelID) && po.concerns roleIDs userID)

/-- The rows of the batch query: a channel joined with its override rows. -/
def batchRows (t : Tables) (channelIDs roleIDs : List ID) (userID : ID) :
    List (ID × PermissionOverride) :=
  (t.channels.filter (·.id ∈ channelIDs)).flatMap fun c =>
    (t.permissionOverrides.filter fun po =>
      po.targets c.id c.channelGroupID && po.concerns roleIDs userID).map (c.id, ·)

/-- The loop body of the batch: files one row under its channel. -/
def fileRow (result : ID → Option ChannelOverrides) (row : ID × PermissionOverride) :
    ID → Option ChannelOverrides :=
  Function.update result row.1 (some (((result row.1).getD {}).add row.2))

/-- The result map of the batch: channels without a row stay absent. -/
def getAllOverridesForChannels (t : Tables) (channelIDs roleIDs : List ID) (userID : ID) :
    ID → Option ChannelOverrides :=
  (batchRows t channelIDs roleIDs userID).foldl fileRow (fun _ => none)

/-! ## Section 2: The four layers of a list of rows -/

inductive Layer where
  | groupRole
  | channelRole
  | groupUser
  | channelUser
  deriving DecidableEq, Repr

def PermissionOverride.layer (po : PermissionOverride) : Layer :=
  match po.subject, po.scope with
  | .role _, .group _ => .groupRole
  | .role _, .channel _ => .channelRole
  | .user _, .group _ => .groupUser
  | .user _, .channel _ => .channelUser

/-- The overrides of one layer, in row order. -/
def layerRows (layer : Layer) (rows : List PermissionOverride) : List Override :=
  (rows.filter (·.layer = layer)).map (·.override)

theorem layerRows_cons (layer : Layer) (po : PermissionOverride)
    (rows : List PermissionOverride) :
    layerRows layer (po :: rows) =
      if po.layer = layer then po.override :: layerRows layer rows
      else layerRows layer rows := by
  unfold layerRows
  by_cases h : po.layer = layer
  · simp [h]
  · simp [h]

theorem foldl_add (rows : List PermissionOverride) (co : ChannelOverrides) :
    rows.foldl .add co =
      { groupRoleOverrides := co.groupRoleOverrides ++ layerRows .groupRole rows
        channelRoleOverrides := co.channelRoleOverrides ++ layerRows .channelRole rows
        groupUserOverride := (layerRows .groupUser rows).getLast?.or co.groupUserOverride
        channelUserOverride :=
          (layerRows .channelUser rows).getLast?.or co.channelUserOverride } := by
  induction rows generalizing co with
  | nil => simp [layerRows]
  | cons po rows ih =>
    rw [foldl_cons, ih]
    simp only [layerRows_cons]
    unfold ChannelOverrides.add layer
    rcases po.subject with r | u <;> rcases po.scope with g | c <;>
      simp [getLast?_cons]

theorem collectOverrides_eq (rows : List PermissionOverride) :
    collectOverrides rows =
      { groupRoleOverrides := layerRows .groupRole rows
        channelRoleOverrides := layerRows .channelRole rows
        groupUserOverride := (layerRows .groupUser rows).getLast?
        channelUserOverride := (layerRows .channelUser rows).getLast? } := by
  unfold collectOverrides
  rw [foldl_add]
  simp

/-! ## Section 3: The batch query -/

theorem foldl_batch (rows : List (ID × PermissionOverride)) (result : ID → Option ChannelOverrides)
    (channelID : ID) :
    ((rows.foldl fileRow result) channelID).getD {} =
      ((rows.filter (·.1 = channelID)).map (·.2)).foldl ChannelOverrides.add
        ((result channelID).getD {}) := by
  induction rows generalizing result with
  | nil => rfl
  | cons row rows ih =>
    rw [foldl_cons, ih]
    unfold fileRow
    by_cases h : row.1 = channelID
    · simp [h]
    · have hne : channelID ≠ row.1 := fun heq => h heq.symm
      simp [h, Function.update_of_ne hne]

/-- A channel with its own id among unique ids is the only one. -/
theorem flatMap_of_unique {α : Type*} {channels : List Channel}
    (hpk : UniqueOn Channel.id channels) {c : Channel} (hc : c ∈ channels)
    (g : Channel → List α) (hg : ∀ c' ∈ channels, c'.id ≠ c.id → g c' = []) :
    channels.flatMap g = g c := by
  induction channels with
  | nil => cases hc
  | cons a channels ih =>
    obtain ⟨hfresh, hpk⟩ := List.nodup_cons.mp hpk
    rw [flatMap_cons]
    rcases mem_cons.mp hc with rfl | hmem
    · have hrest : channels.flatMap g = [] := by
        rw [flatMap_eq_nil_iff]
        intro b hb
        refine hg b (mem_cons_of_mem _ hb) ?_
        intro heq
        exact hfresh (mem_map.mpr ⟨b, hb, heq⟩)
      rw [hrest, append_nil]
    · have ha : g a = [] := by
        refine hg a mem_cons_self ?_
        intro heq
        exact hfresh (mem_map.mpr ⟨c, hmem, heq.symm⟩)
      rw [ha, nil_append]
      exact ih hpk hmem (fun b hb => hg b (mem_cons_of_mem _ hb))

/-- **One query for many channels** finds for each of them what its own query
    finds. -/
theorem getAllOverridesForChannels_eq {t : Tables} (hpk : UniqueOn Channel.id t.channels)
    {c : Channel} (hc : c ∈ t.channels) {channelIDs : List ID} (hid : c.id ∈ channelIDs)
    (roleIDs : List ID) (userID : ID) :
    (getAllOverridesForChannels t channelIDs roleIDs userID c.id).getD {} =
      getAllOverridesForChannel t c.id roleIDs userID := by
  have hgroup := Tables.channelGroupOf_of_mem hpk hc
  unfold getAllOverridesForChannels getAllOverridesForChannel batchRows collectOverrides
  rw [foldl_batch, hgroup, filter_flatMap]
  -- of the joined rows only those of the channel itself are left
  have hpk' : UniqueOn Channel.id (t.channels.filter (·.id ∈ channelIDs)) :=
    List.Nodup.sublist (List.filter_sublist.map _) hpk
  have hc' : c ∈ t.channels.filter (·.id ∈ channelIDs) :=
    List.mem_filter.mpr ⟨hc, decide_eq_true hid⟩
  rw [flatMap_of_unique hpk' hc']
  · rw [filter_map, map_map]
    congr 1
    rw [List.filter_eq_self.mpr (by simp)]
    exact map_id' _
  · intro c' _ hne
    rw [filter_map]
    simp [hne]

/-! ## Section 4: Writing -/

/-- `channel_group_id = $1 OR channel_id = $1`. -/
def PermissionOverride.onTarget (targetID : ID) (po : PermissionOverride) : Bool :=
  match po.scope with
  | .group id => id = targetID
  | .channel id => id = targetID

/-- The category or channel of a scope. -/
def OverrideScope.id : OverrideScope → ID
  | .group id => id
  | .channel id => id

theorem onTarget_iff {po : PermissionOverride} {targetID : ID} :
    po.onTarget targetID = true ↔ po.scope.id = targetID := by
  unfold onTarget OverrideScope.id
  rcases po.scope with id | id
  · exact decide_eq_true_iff
  · exact decide_eq_true_iff

def listOverridesByTarget (t : Tables) (targetID : ID) : List PermissionOverride :=
  t.permissionOverrides.filter (·.onTarget targetID)

/-- Inserts the override, or changes the masks of the one with its target and
    subject; returns the stored row. -/
def setOverride (db : DB) (override : PermissionOverride) :
    Except StoreError (PermissionOverride × DB) := do
  let t := db.tables
  let permissionOverrides := upsert target
    (fun po => { po with allow := override.allow, deny := override.deny })
    override t.permissionOverrides
  let db' ← commit { t with permissionOverrides }
  return ((lookup target override.target permissionOverrides).getD override, db')

/-- Deletes the override of a target with the given subject. -/
def deleteOverrideOf (notFound : String) (db : DB) (targetID : ID) (subject : OverrideSubject) :
    Except StoreError DB := do
  let t := db.tables
  refuseIf (∀ po ∈ t.permissionOverrides, ¬ (po.onTarget targetID ∧ po.subject = subject))
    (.refused notFound)
  commit
    { t with
      permissionOverrides := deleteWhere
        (fun po => po.onTarget targetID ∧ po.subject = subject) t.permissionOverrides }

def deleteOverride (db : DB) (targetID roleID : ID) : Except StoreError DB :=
  deleteOverrideOf "permission override not found" db targetID (.role roleID)

def deleteOverrideByUser (db : DB) (targetID userID : ID) : Except StoreError DB :=
  deleteOverrideOf "user permission override not found" db targetID (.user userID)

/-- `INSERT … ON CONFLICT DO NOTHING`: a row that clashes with any unique index
    is left out. -/
def insertOverride (rows : List PermissionOverride) (po : PermissionOverride) :
    List PermissionOverride :=
  if rows.any fun row => row.id = po.id ∨ row.target = po.target then rows else rows ++ [po]

/-- A category's overrides as rows of a channel. `uuid` stands for
    `gen_random_uuid()`. -/
def snapshotRows (t : Tables) (uuid : ID → ID → ID) (channelGroupID channelID : ID) :
    List PermissionOverride :=
  (t.permissionOverrides.filter (·.scope = .group channelGroupID)).map fun po =>
    { po with id := uuid po.id channelID, scope := .channel channelID }

def copyCategoryOverridesToChannel (db : DB) (uuid : ID → ID → ID)
    (channelGroupID channelID : ID) : Except StoreError DB :=
  let t := db.tables
  commit
    { t with
      permissionOverrides := (snapshotRows t uuid channelGroupID channelID).foldl insertOverride
        t.permissionOverrides }

theorem setOverride_ok {db db' : DB} {override stored : PermissionOverride}
    (h : setOverride db override = .ok (stored, db')) :
    db'.tables = { db.tables with
      permissionOverrides := upsert target
        (fun po => { po with allow := override.allow, deny := override.deny })
        override db.tables.permissionOverrides } := by
  obtain ⟨db₁, hcommit, h⟩ := bind_eq_ok.mp h
  injection h with h
  obtain ⟨-, rfl⟩ := Prod.mk.inj h
  exact commit_ok hcommit

theorem deleteOverrideOf_ok {db db' : DB} {notFound : String} {targetID : ID}
    {subject : OverrideSubject} (h : deleteOverrideOf notFound db targetID subject = .ok db') :
    db'.tables = { db.tables with
      permissionOverrides := deleteWhere
        (fun po => po.onTarget targetID ∧ po.subject = subject)
        db.tables.permissionOverrides } := by
  obtain ⟨_, -, h⟩ := bind_eq_ok.mp h
  exact commit_ok h

end Meza.Store
