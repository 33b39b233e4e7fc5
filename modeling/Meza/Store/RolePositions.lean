import Meza.Lib.Pool
import Meza.Store.RoleStore

/-! # Concurrent changes of role positions

    Any number of `CreateRole`, `DeleteRole` and `ReorderRoles` calls on one
    server run as transactions, one statement a step. A statement sees the
    committed rows and the transaction's own writes. A lock statement locks the
    rows it saw when it began, as far as they still exist when no other
    transaction has one of them locked; rows that were committed while it waited
    are not among them. A statement that writes locks what it writes. The
    deferred constraint on positions is checked at the commit, and a call can
    fail at any point, which rolls it back.

    Sections 2 and 3 count: positions that are different, and none of which
    exceeds the number of roles, are 1 to n. -/

namespace Meza.Store.RolePositions

open RoleStore List Table

/-! ## Section 1: Calls and phases -/

inductive RoleCall where
  | create (role : Role)
  | delete (roleID : ID)
  | reorder (roleIDs : List ID) (callerPosition : Nat)

/-- What a transaction does once it has its locks. A deletion goes by the position
    it has read before. -/
inductive Job where
  | create (role : Role)
  | delete (roleID : ID) (position : Nat)
  | reorder (roleIDs : List ID) (callerPosition : Nat)

/-- The uncommitted writes of a transaction, the latest position of a row first. -/
structure Writes where
  inserted : List Role := []
  positions : List (ID × Nat) := []
  deleted : List ID := []

def Writes.newPosition (w : Writes) (r : Role) : Nat := (w.positions.lookup r.id).getD r.position

/-- The rows once the writes are applied. -/
def Writes.apply (w : Writes) (roles : List Role) : List Role :=
  (roles.filter (·.id ∉ w.deleted)).map (fun r => { r with position := w.newPosition r }) ++
    w.inserted

structure Tx where
  locks : List ID
  writes : Writes := {}

inductive Phase where
  | begun (call : RoleCall)
  /-- `DeleteRole` has found the role and its position. -/
  | found (roleID : ID) (position : Nat)
  /-- The lock statement has begun and seen these rows. -/
  | locking (job : Job) (seen : List ID)
  | locked (job : Job) (tx : Tx)
  /-- `DeleteRole` has deleted the role. -/
  | deleted (roleID : ID) (position : Nat) (tx : Tx)
  /-- `ReorderRoles` has moved the listed roles. -/
  | assigned (roleIDs : List ID) (callerPosition : Nat) (tx : Tx)
  /-- All statements are done. -/
  | written (job : Job) (tx : Tx)
  | returned (result : Except StoreError Unit)

/-- The rows that the call's transaction has locked. -/
def Phase.locks : Phase → List ID
  | .locked _ tx | .deleted _ _ tx | .assigned _ _ tx | .written _ tx => tx.locks
  | _ => []

/-- No other transaction has one of the rows locked. -/
def Free (others : List Phase) (ids : List ID) : Prop := ∀ q ∈ others, ∀ id ∈ ids, id ∉ q.locks

instance (others : List Phase) (ids : List ID) : Decidable (Free others ids) :=
  inferInstanceAs (Decidable (∀ _ ∈ others, _))

/-- The roles of the server without `@everyone`. -/
def ordinary (serverID : ID) (roles : List Role) : List Role := roles.filter (·.id ≠ serverID)

/-- `SELECT id … FOR UPDATE`: a reordering leaves `@everyone` out. -/
def Job.sees (serverID : ID) (roles : List Role) : Job → List ID
  | .create _ | .delete _ _ => roles.map (·.id)
  | .reorder _ _ => (ordinary serverID roles).map (·.id)

/-- `roleIDs` must be exactly the locked roles below the caller. -/
def checkBelow (existingRoles : List Role) (roleIDs : List ID) (callerPosition : Nat) :
    Except StoreError Unit := do
  let belowCaller := (existingRoles.filter (·.position < callerPosition)).map (·.id)
  let count := belowCaller.length
  refuseIf (roleIDs.length ≠ count)
    (.invalid s!"role_ids must contain all {count} roles below your position")
  let id := (roleIDs.find? (· ∉ belowCaller)).getD ""
  refuseIf (∃ roleID ∈ roleIDs, roleID ∉ belowCaller)
    (.invalid s!"role {id} is not below your position or does not exist")

/-- The check that a job makes on the rows it has locked. -/
def Job.check (existingRoles : List Role) : Job → Except StoreError Unit
  | .create _ | .delete _ _ => .ok ()
  | .reorder roleIDs callerPosition => checkBelow existingRoles roleIDs callerPosition

/-- The rows `ids` get the positions `first`, `first + 1`, …. -/
def numberFrom (first : Nat) (ids : List ID) : List (ID × Nat) :=
  ids.map fun id => (id, first + ids.idxOf id)

/-- The roles that the second update of a reordering moves, in their order. -/
def above (serverID : ID) (callerPosition : Nat) (view : List Role) : List ID :=
  (((ordinary serverID view).filter (callerPosition ≤ ·.position)).insertionSort
    (fun a b => a.position ≤ b.position)).map (·.id)

/-- The deferred constraint and the primary key. -/
def Accepts (roles : List Role) : Prop :=
  UniqueOn Role.id roles ∧ UniqueOn Role.position roles

instance (roles : List Role) : Decidable (Accepts roles) := inferInstanceAs (Decidable (_ ∧ _))

/-- Writes the rows `ids`, or waits for them. -/
def write (others : List Phase) (tx : Tx) (ids : List ID) (writes : Writes) : Option Tx :=
  if Free others ids then some { locks := ids ++ tx.locks, writes } else none

/-- What the handlers check before they call the store. -/
def start (serverID : ID) : RoleCall → Phase
  | .create role => .begun (.create role)
  | .delete roleID =>
    if roleID = serverID then .returned (.error (.invalid "cannot delete the @everyone role"))
    else .begun (.delete roleID)
  | .reorder roleIDs callerPosition =>
    if roleIDs = [] then .returned (.error (.invalid "role_ids is required"))
    else if serverID ∈ roleIDs then
      .returned (.error (.invalid "@everyone role cannot be reordered"))
    else .begun (.reorder roleIDs.eraseDups callerPosition)

/-- The next statement of a call. -/
def next (serverID : ID) (roles : List Role) (others : List Phase) :
    Phase → Bool → Option (List Role × Phase)
  | .returned _, _ => none
  -- a timeout, a deadlock or a lost connection
  | _, false => some (roles, .returned (.error (.refused "failed")))
  | .begun (.create role), true =>
    some (roles, .locking (.create role) (Job.sees serverID roles (.create role)))
  | .begun (.delete roleID), true =>
    match lookup Role.id roleID roles with
    | none => some (roles, .returned (.error (.refused "role not found")))
    | some role => some (roles, .found roleID role.position)
  | .found roleID position, true =>
    some (roles,
      .locking (.delete roleID position) (Job.sees serverID roles (.delete roleID position)))
  | .begun (.reorder roleIDs callerPosition), true =>
    some (roles, .locking (.reorder roleIDs callerPosition)
      (Job.sees serverID roles (.reorder roleIDs callerPosition)))
  | .locking job seen, true =>
    let existingRoles := roles.filter (·.id ∈ seen)
    let locks := existingRoles.map (·.id)
    if Free others locks then
      match job.check existingRoles with
      | .ok _ => some (roles, .locked job { locks })
      | .error e => some (roles, .returned (.error e))
    else none
  | .locked (.create role) tx, true =>
    let view := tx.writes.apply roles
    if role.id ∈ view.map (·.id) then some (roles, .returned (.error .constraint))
    else
      -- `COALESCE(MAX(position), 0) + 1`
      let created := { role with position := maxPosition view + 1 }
      (write others tx [role.id] { tx.writes with inserted := [created] }).map
        fun tx => (roles, .written (.create role) tx)
  | .locked (.delete roleID position) tx, true =>
    let targets := ((tx.writes.apply roles).filter (·.id = roleID)).map (·.id)
    (write others tx targets { tx.writes with deleted := targets }).map
      fun tx => (roles, .deleted roleID position tx)
  | .deleted roleID position tx, true =>
    -- the roles above the position that was read before the lock move down
    let targets := (tx.writes.apply roles).filter (position < ·.position)
    (write others tx (targets.map (·.id))
      { tx.writes with positions := targets.map fun r => (r.id, r.position - 1) }).map
      fun tx => (roles, .written (.delete roleID position) tx)
  | .locked (.reorder roleIDs callerPosition) tx, true =>
    (write others tx roleIDs { tx.writes with positions := numberFrom 1 roleIDs }).map
      fun tx => (roles, .assigned roleIDs callerPosition tx)
  | .assigned roleIDs callerPosition tx, true =>
    if maxInt4 < callerPosition then
      some (roles, .returned (.error
        (.refused "shift above-caller positions: value out of range for INTEGER")))
    else
      let moved := above serverID callerPosition (tx.writes.apply roles)
      (write others tx moved
        { tx.writes with
          positions := numberFrom (roleIDs.length + 1) moved ++ tx.writes.positions }).map
        fun tx => (roles, .written (.reorder roleIDs callerPosition) tx)
  | .written _ tx, true =>
    let committed := tx.writes.apply roles
    if Accepts committed then some (committed, .returned (.ok ()))
    else some (roles, .returned (.error .constraint))

/-- Any interleaving of the calls on a server. -/
abbrev step (serverID : ID) : Pool.State (List Role) Phase → Pool.Event RoleCall Bool →
    Pool.State (List Role) Phase :=
  Pool.step (start serverID) (next serverID)

/-! ## Section 2: Numbered roles -/

/-- The number of ordinary roles. -/
def count (serverID : ID) (roles : List Role) : Nat := (ordinary serverID roles).length

/-- The ordinary roles have the positions 1 to n, each once, and `@everyone` is at 0. -/
@[mk_iff]
structure Numbered (serverID : ID) (roles : List Role) : Prop where
  rolesPK : UniqueOn Role.id roles
  everyone : ∃ r ∈ roles, r.id = serverID ∧ r.position = 0
  positions : ((ordinary serverID roles).map (·.position)).Perm (range' 1 (count serverID roles))

instance (serverID : ID) (roles : List Role) : Decidable (Numbered serverID roles) :=
  decidable_of_iff' _ (numbered_iff serverID roles)

section Counting

variable {serverID : ID} {roles : List Role} {r r' : Role}

theorem mem_ordinary : r ∈ ordinary serverID roles ↔ r ∈ roles ∧ r.id ≠ serverID := by
  simp [ordinary]

/-- Different positions, none of which exceeds the number of roles, are 1 to n. -/
theorem numbered_of_bounded (hunique : Accepts roles)
    (heveryone : ∃ r ∈ roles, r.id = serverID ∧ r.position = 0)
    (hbound : ∀ r ∈ roles, r.id ≠ serverID → 1 ≤ r.position ∧ r.position ≤ count serverID roles) :
    Numbered serverID roles where
  rolesPK := hunique.1
  everyone := heveryone
  positions := by
    have hnodup : ((ordinary serverID roles).map (·.position)).Nodup :=
      Nodup.sublist (filter_sublist.map _) hunique.2
    have hsub : (ordinary serverID roles).map (·.position) ⊆ range' 1 (count serverID roles) := by
      intro pos hpos
      obtain ⟨r, hr, rfl⟩ := mem_map.mp hpos
      obtain ⟨hr, hne⟩ := mem_ordinary.mp hr
      have := hbound r hr hne
      rw [mem_range'_1]
      omega
    refine (subperm_of_subset hnodup hsub).perm_of_length_le ?_
    simp [count]

section

variable (h : Numbered serverID roles)
include h

theorem Numbered.bound (hr : r ∈ roles) (hne : r.id ≠ serverID) :
    1 ≤ r.position ∧ r.position ≤ count serverID roles := by
  have hmem := h.positions.mem_iff.mp (mem_map_of_mem (mem_ordinary.mpr ⟨hr, hne⟩))
  rw [mem_range'_1] at hmem
  omega

theorem Numbered.everyone_eq (hr : r ∈ roles)
    (hid : r.id = serverID) : r.position = 0 := by
  obtain ⟨e, he, heid, hzero⟩ := h.everyone
  rw [eq_of_key h.rolesPK hr he (hid.trans heid.symm), hzero]

theorem Numbered.position_inj (hr : r ∈ roles) (hr' : r' ∈ roles)
    (hne : r.id ≠ serverID) (hne' : r'.id ≠ serverID) (hpos : r.position = r'.position) :
    r = r' := by
  have hnodup : ((ordinary serverID roles).map (·.position)).Nodup :=
    h.positions.nodup_iff.mpr nodup_range'
  exact inj_on_of_nodup_map hnodup (mem_ordinary.mpr ⟨hr, hne⟩) (mem_ordinary.mpr ⟨hr', hne'⟩) hpos

/-- Someone has the highest position. -/
theorem Numbered.top (hpos : 0 < count serverID roles) :
    ∃ r ∈ roles, r.id ≠ serverID ∧ r.position = count serverID roles := by
  have hmem : count serverID roles ∈ range' 1 (count serverID roles) := by
    rw [mem_range'_1]
    omega
  obtain ⟨r, hr, htop⟩ := mem_map.mp (h.positions.mem_iff.mpr hmem)
  obtain ⟨hr, hne⟩ := mem_ordinary.mp hr
  exact ⟨r, hr, hne, htop⟩

theorem Numbered.maxPosition_eq :
    maxPosition roles = count serverID roles := by
  apply Nat.le_antisymm
  · rw [maxPosition_le]
    intro r hr
    by_cases hid : r.id = serverID
    · rw [h.everyone_eq hr hid]
      exact Nat.zero_le _
    · exact (h.bound hr hid).2
  · rcases Nat.eq_zero_or_pos (count serverID roles) with hzero | hpos
    · rw [hzero]
      exact Nat.zero_le _
    · obtain ⟨r, hr, -, htop⟩ := h.top hpos
      rw [← htop]
      exact le_maxPosition hr

end

/-- Different ordinary roles are no more than there are. -/
theorem length_le_count {ids : List ID} (hnodup : ids.Nodup)
    (hex : ∀ id ∈ ids, id ≠ serverID ∧ ∃ r ∈ roles, r.id = id) :
    ids.length ≤ count serverID roles := by
  have hsub : ids ⊆ (ordinary serverID roles).map (·.id) := by
    intro id hid
    obtain ⟨hne, r, hr, rfl⟩ := hex id hid
    exact mem_map_of_mem (mem_ordinary.mpr ⟨hr, hne⟩)
  have hle := (subperm_of_subset hnodup hsub).length_le
  rwa [length_map] at hle

end Counting

/-! ## Section 3: What a commit changes -/

section Applying

variable {serverID : ID} {w : Writes} {roles : List Role} {r : Role}

/-- The rows that are written. -/
def Writes.ids (w : Writes) : List ID :=
  w.positions.map (·.1) ++ w.deleted ++ w.inserted.map (·.id)

theorem newPosition_cases (w : Writes) (r : Role) :
    (r.id, w.newPosition r) ∈ w.positions ∨
      (r.id ∉ w.positions.map (·.1) ∧ w.newPosition r = r.position) := by
  unfold Writes.newPosition
  cases hlook : w.positions.lookup r.id with
  | some pos =>
    left
    obtain ⟨l₁, l₂, heq, -⟩ := lookup_eq_some_iff.mp hlook
    rw [heq]
    simp
  | none =>
    right
    refine ⟨?_, rfl⟩
    intro hmem
    obtain ⟨e, he, hid⟩ := mem_map.mp hmem
    have := lookup_eq_none_iff.mp hlook e he
    simp [hid] at this

theorem mem_apply : r ∈ w.apply roles ↔
    (∃ r₀ ∈ roles, r₀.id ∉ w.deleted ∧ r = { r₀ with position := w.newPosition r₀ }) ∨
      r ∈ w.inserted := by
  unfold Writes.apply
  rw [mem_append, mem_map]
  constructor
  · intro h
    rcases h with ⟨r₀, hr₀, rfl⟩ | h
    · obtain ⟨hr₀, hdel⟩ := mem_filter.mp hr₀
      exact .inl ⟨r₀, hr₀, of_decide_eq_true hdel, rfl⟩
    · exact .inr h
  · intro h
    rcases h with ⟨r₀, hr₀, hdel, rfl⟩ | h
    · exact .inl ⟨r₀, mem_filter.mpr ⟨hr₀, decide_eq_true hdel⟩, rfl⟩
    · exact .inr h

theorem mem_apply_of_notMem (h : r.id ∉ w.ids) : r ∈ w.apply roles ↔ r ∈ roles := by
  unfold Writes.ids at h
  simp only [mem_append, not_or] at h
  obtain ⟨⟨hpos, hdel⟩, hins⟩ := h
  have hsame : ∀ r₀ : Role, r₀.id = r.id → w.newPosition r₀ = r₀.position := by
    intro r₀ hid
    rcases newPosition_cases w r₀ with hmem | ⟨-, hsame⟩
    · rw [hid] at hmem
      exact absurd (mem_map_of_mem hmem) hpos
    · exact hsame
  rw [mem_apply]
  constructor
  · intro h
    rcases h with ⟨r₀, hr₀, -, heq⟩ | h
    · have hid : r₀.id = r.id := by rw [heq]
      rw [hsame r₀ hid] at heq
      rw [heq]
      exact hr₀
    · exact absurd (mem_map_of_mem h) hins
  · intro hr
    refine .inl ⟨r, hr, hdel, ?_⟩
    rw [hsame r rfl]

@[simp] theorem apply_empty (roles : List Role) : ({} : Writes).apply roles = roles := by
  simp [Writes.apply, Writes.newPosition]

theorem ordinary_apply : ordinary serverID (w.apply roles) =
    ((ordinary serverID roles).filter (·.id ∉ w.deleted)).map
        (fun r => { r with position := w.newPosition r }) ++ ordinary serverID w.inserted := by
  unfold ordinary Writes.apply
  rw [filter_append, filter_map, filter_filter, filter_filter]
  congr 2
  refine filter_congr ?_
  intro r _
  rw [Bool.and_comm]
  rfl

theorem count_apply : count serverID (w.apply roles) =
    ((ordinary serverID roles).filter (·.id ∉ w.deleted)).length +
      (ordinary serverID w.inserted).length := by
  unfold count
  rw [ordinary_apply, length_append, length_map]

theorem count_apply_positions (hdel : w.deleted = []) (hins : w.inserted = []) :
    count serverID (w.apply roles) = count serverID roles := by
  rw [count_apply, hdel, hins]
  simp [count, ordinary]

theorem count_apply_deleted (hpk : UniqueOn Role.id roles) {roleID : ID}
    (hdel : w.deleted = [roleID]) (hins : w.inserted = []) (hne : roleID ≠ serverID)
    (hex : ∃ r ∈ roles, r.id = roleID) :
    count serverID (w.apply roles) + 1 = count serverID roles := by
  rw [count_apply, hdel, hins]
  obtain ⟨r, hr, rfl⟩ := hex
  have hunique : UniqueOn Role.id (ordinary serverID roles) :=
    Nodup.sublist (filter_sublist.map _) hpk
  have hone : (ordinary serverID roles).filter (fun a => a.id = r.id) = [r] := by
    rw [filter_key hunique, lookup_of_mem hunique (mem_ordinary.mpr ⟨hr, hne⟩)]
    rfl
  have hsplit := length_eq_length_filter_add
    (l := ordinary serverID roles) (fun a : Role => decide (a.id = r.id))
  rw [hone] at hsplit
  unfold count
  rw [hsplit]
  simp [ordinary, Nat.add_comm]

end Applying

end Meza.Store.RolePositions
