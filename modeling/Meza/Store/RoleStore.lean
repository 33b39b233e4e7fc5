import Meza.Rpc
import Meza.Store.Schema

/-! # Roles and role assignments

    `RoleStore` keeps the roles of a server in a strict order of positions and
    the assignment of roles to members. Each function is one transaction. -/

namespace Meza.Store.RoleStore
open Table List

open Permissions (Mask)

/-! ## Section 1: Queries -/

def getRole (t : Tables) (roleID : ID) : Except StoreError Role :=
  oneRow (.refused "role not found") (Table.lookup Role.id roleID t.roles)

/-- `WHERE id = ANY($1) AND server_id = $2`. -/
def getRolesByIDs (t : Tables) (roleIDs : List ID) (serverID : ID) : List Role :=
  t.roles.filter fun r => r.id ∈ roleIDs ∧ r.serverID = serverID

/-- `member_roles` joined with `roles`, `ORDER BY r.position DESC`. -/
def getMemberRoles (t : Tables) (userID serverID : ID) : List Role :=
  ((t.memberRoles.filter fun mr => mr.userID = userID ∧ mr.serverID = serverID).filterMap
    fun mr => Table.lookup Role.id mr.roleID t.roles).insertionSort
      (fun a b => b.position ≤ a.position)

/-- `COALESCE(MAX(position), 0)`. -/
def maxPosition (roles : List Role) : Nat := roles.foldl (fun pos r => max pos r.position) 0

/-! ## Section 2: Transactions -/

/-- A new role goes just above the highest role of its server. -/
def createRole (db : DB) (role : Role) : Except StoreError (Role × DB) := do
  let t := db.tables
  let position := maxPosition (t.roles.filter (·.serverID = role.serverID)) + 1
  let created := { role with position }
  let db' ← commit { t with roles := t.roles ++ [created] }
  return (created, db')

/-- The columns an `UPDATE` sets; a field that is absent stays. -/
structure RolePatch where
  name : Option String := none
  permissions : Option Mask := none
  color : Option Int := none
  isSelfAssignable : Option Bool := none
  deriving DecidableEq, Repr

def RolePatch.apply (patch : RolePatch) (r : Role) : Role :=
  { r with
    name := patch.name.getD r.name
    permissions := patch.permissions.getD r.permissions
    color := patch.color.getD r.color
    isSelfAssignable := patch.isSelfAssignable.getD r.isSelfAssignable }

def updateRole (db : DB) (roleID : ID) (patch : RolePatch) : Except StoreError (Role × DB) := do
  let t := db.tables
  let role ← getRole t roleID
  let db' ← commit
    { t with
      roles := updateWhere (fun r => r.id = roleID) patch.apply t.roles }
  return (patch.apply role, db')

/-- Deletes the role, and with it its assignments and overrides, and closes the
    gap in the positions. -/
def deleteRole (db : DB) (roleID : ID) : Except StoreError DB := do
  let t := db.tables
  let role ← getRole t roleID
  let remaining := deleteWhere (fun r => r.id = roleID) t.roles
  -- `member_roles` and `permission_overrides` follow by `ON DELETE CASCADE`
  commit
    { t with
      roles := updateWhere
        (fun r => r.serverID = role.serverID ∧ role.position < r.position)
        (fun r => { r with position := r.position - 1 }) remaining
      memberRoles := deleteWhere (fun mr => mr.roleID = roleID) t.memberRoles
      permissionOverrides :=
        deleteWhere (fun po => po.subject = .role roleID) t.permissionOverrides }

/-- The roles of a server without `@everyone`. -/
def ordinaryRoles (t : Tables) (serverID : ID) : List Role :=
  t.roles.filter fun r => r.serverID = serverID ∧ r.id ≠ serverID

/-- The first update: the listed roles get the positions 1, 2, …. -/
def assignPositions (roleIDs : List ID) (roles : List Role) : List Role :=
  updateWhere (fun r => r.id ∈ roleIDs)
    (fun r => { r with position := roleIDs.idxOf r.id + 1 }) roles

/-- The second update: the roles from the caller's position up follow in their
    order, from `offset` on. -/
def shiftAbove (serverID : ID) (callerPosition offset : Nat) (roles : List Role) : List Role :=
  let above := (roles.filter fun r =>
    r.serverID = serverID ∧ r.id ≠ serverID ∧ callerPosition ≤ r.position).insertionSort
      (fun a b => a.position ≤ b.position)
  updateWhere (fun r => r.id ∈ above.map (·.id))
    (fun r => { r with position := offset + (above.map (·.id)).idxOf r.id }) roles

/-- The listed roles must be exactly those below the caller. The caller's
    position is a parameter of type `INTEGER`, and a larger one is refused. -/
def reorderRoles (db : DB) (serverID : ID) (roleIDs : List ID) (callerPosition : Nat) :
    Except StoreError DB := do
  let t := db.tables
  let belowCaller := ((ordinaryRoles t serverID).filter (·.position < callerPosition)).map (·.id)
  let count := belowCaller.length
  refuseIf (roleIDs.length ≠ count)
    (.invalid s!"role_ids must contain all {count} roles below your position")
  let id := (roleIDs.find? (· ∉ belowCaller)).getD ""
  refuseIf (∃ roleID ∈ roleIDs, roleID ∉ belowCaller)
    (.invalid s!"role {id} is not below your position or does not exist")
  -- the unique index on positions is deferred, so only the final tables count
  refuseIf (maxInt4 < callerPosition)
    (.refused "shift above-caller positions: value out of range for INTEGER")
  commit
    { t with
      roles := shiftAbove serverID callerPosition (roleIDs.length + 1)
        (assignPositions roleIDs t.roles) }

def setMemberRoles (db : DB) (userID serverID : ID) (roleIDs : List ID) :
    Except StoreError DB := do
  let t := db.tables
  refuseIf (exists? Member.key (userID, serverID) t.members = false)
    (.refused "member not found")
  commit
    { t with
      memberRoles :=
        deleteWhere (fun mr => mr.userID = userID ∧ mr.serverID = serverID) t.memberRoles ++
          roleIDs.map fun roleID => { userID, serverID, roleID } }

theorem foldl_max_le (roles : List Role) (acc pos : Nat) :
    roles.foldl (fun pos r => max pos r.position) acc ≤ pos ↔
      acc ≤ pos ∧ ∀ r ∈ roles, r.position ≤ pos := by
  induction roles generalizing acc with
  | nil => simp
  | cons r roles ih =>
    rw [foldl_cons, ih, forall_mem_cons, Nat.max_le, and_assoc]

variable {db db' : DB} {roleID serverID : ID} {roleIDs : List ID} {roles : List Role} {a r : Role}

theorem maxPosition_le {pos : Nat} : maxPosition roles ≤ pos ↔ ∀ r ∈ roles, r.position ≤ pos := by
  unfold maxPosition
  rw [foldl_max_le]
  simp

theorem le_maxPosition (h : r ∈ roles) : r.position ≤ maxPosition roles :=
  maxPosition_le.mp (Nat.le_refl _) r h

theorem mem_getMemberRoles {t : Tables} {userID : ID} :
    r ∈ getMemberRoles t userID serverID ↔ ∃ mr ∈ t.memberRoles, mr.userID = userID ∧
      mr.serverID = serverID ∧ Table.lookup Role.id mr.roleID t.roles = some r := by
  unfold getMemberRoles
  rw [mem_insertionSort, mem_filterMap]
  constructor
  · intro hex
    obtain ⟨mr, hmr, hlook⟩ := hex
    obtain ⟨hmr, hcond⟩ := mem_filter.mp hmr
    exact ⟨mr, hmr, (of_decide_eq_true hcond).1, (of_decide_eq_true hcond).2, hlook⟩
  · intro hex
    obtain ⟨mr, hmr, huser, hserver, hlook⟩ := hex
    exact ⟨mr, mem_filter.mpr ⟨hmr, decide_eq_true ⟨huser, hserver⟩⟩, hlook⟩

/-! ## Section 3: What a successful call does -/

/-- As many rows as ids were asked for: every id was found. -/
theorem exists_of_length_getRolesByIDs {t : Tables} (hpk : Table.UniqueOn Role.id t.roles)
    (hlen : (getRolesByIDs t roleIDs serverID).length = roleIDs.length) (hmem : roleID ∈ roleIDs) :
    ∃ r ∈ getRolesByIDs t roleIDs serverID, r.id = roleID := by
  have hsub : (getRolesByIDs t roleIDs serverID).map Role.id ⊆ roleIDs := by
    intro id hid
    obtain ⟨r, hr, rfl⟩ := mem_map.mp hid
    exact (of_decide_eq_true (mem_filter.mp hr).2).1
  have hunique : ((getRolesByIDs t roleIDs serverID).map Role.id).Nodup :=
    Nodup.sublist (filter_sublist.map _) hpk
  -- different ids, all of them asked for, and no fewer of them
  have hperm := (subperm_of_subset hunique hsub).perm_of_length_le (by rw [length_map, hlen])
  exact mem_map.mp (hperm.mem_iff.mpr hmem)

theorem createRole_ok {role created : Role} (h : createRole db role = .ok (created, db')) :
    created = { role with
      position := maxPosition (db.tables.roles.filter (·.serverID = role.serverID)) + 1 } ∧
    db'.tables = { db.tables with roles := db.tables.roles ++ [created] } := by
  obtain ⟨db₁, hcommit, h⟩ := bind_eq_ok.mp h
  injection h with h
  obtain ⟨rfl, rfl⟩ := Prod.mk.inj h
  exact ⟨rfl, commit_ok hcommit⟩

theorem updateRole_ok {patch : RolePatch} {updated : Role}
    (h : updateRole db roleID patch = .ok (updated, db')) :
    db'.tables = { db.tables with
      roles := updateWhere (fun r => r.id = roleID) patch.apply db.tables.roles } := by
  obtain ⟨role, -, h⟩ := bind_eq_ok.mp h
  obtain ⟨db₁, hcommit, h⟩ := bind_eq_ok.mp h
  injection h with h
  obtain ⟨-, rfl⟩ := Prod.mk.inj h
  exact commit_ok hcommit

theorem position_of_mem_updated {patch : RolePatch} (hpk : Table.UniqueOn Role.id roles) {a' : Role}
    (ha : a ∈ roles) (ha' : a' ∈ updateWhere (fun r => r.id = roleID) patch.apply roles)
    (hid : a'.id = a.id) : a'.position = a.position := by
  obtain ⟨a₀, ha₀, rfl⟩ := mem_updateWhere.mp ha'
  split at hid
  · rename_i hcond
    rw [if_pos hcond, eq_of_key hpk ha ha₀ hid.symm]
    rfl
  · rename_i hcond
    rw [if_neg hcond, eq_of_key hpk ha ha₀ hid.symm]

/-- The roles after a deletion. -/
def withoutRole (role : Role) (roles : List Role) : List Role :=
  updateWhere (fun r => r.serverID = role.serverID ∧ role.position < r.position)
    (fun r => { r with position := r.position - 1 })
    (deleteWhere (fun r => r.id = role.id) roles)

/-- A role that is left has its position, or the one below it when the deleted role
    stood underneath. -/
theorem position_of_mem_withoutRole {role : Role} (hpk : Table.UniqueOn Role.id roles) {a' : Role}
    (ha : a ∈ roles) (ha' : a' ∈ withoutRole role roles) (hid : a'.id = a.id) :
    a'.position =
      if a.serverID = role.serverID ∧ role.position < a.position then a.position - 1
      else a.position := by
  obtain ⟨a₀, ha₀, rfl⟩ := mem_updateWhere.mp ha'
  have heq : a₀ = a := by
    refine eq_of_key hpk (mem_deleteWhere.mp ha₀).1 ha ?_
    rw [← hid]
    split
    · rfl
    · rfl
  rw [heq]
  by_cases hcond : a.serverID = role.serverID ∧ role.position < a.position
  · rw [if_pos (decide_eq_true hcond), if_pos hcond]
  · rw [if_neg (by simpa using hcond), if_neg hcond]

theorem deleteRole_ok (h : deleteRole db roleID = .ok db') :
    ∃ role, Table.lookup Role.id roleID db.tables.roles = some role ∧
      db'.tables =
        { db.tables with
          roles := withoutRole role db.tables.roles
          memberRoles := Table.deleteWhere (fun mr => mr.roleID = roleID) db.tables.memberRoles
          permissionOverrides := Table.deleteWhere (fun po => po.subject = .role roleID)
            db.tables.permissionOverrides } := by
  obtain ⟨role, hrole, h⟩ := bind_eq_ok.mp h
  have hlook := oneRow_ok.mp hrole
  refine ⟨role, hlook, ?_⟩
  rw [commit_ok h]
  unfold withoutRole
  rw [(Table.mem_of_lookup hlook).2]

theorem reorderRoles_ok {callerPosition : Nat}
    (h : reorderRoles db serverID roleIDs callerPosition = .ok db') :
    roleIDs.length =
        ((ordinaryRoles db.tables serverID).filter (·.position < callerPosition)).length ∧
      (∀ roleID ∈ roleIDs, ∃ r ∈ ordinaryRoles db.tables serverID,
        r.position < callerPosition ∧ r.id = roleID) ∧
      db'.tables = { db.tables with
        roles := shiftAbove serverID callerPosition (roleIDs.length + 1)
          (assignPositions roleIDs db.tables.roles) } := by
  obtain ⟨_, hlen, h⟩ := bind_eq_ok.mp h
  obtain ⟨_, hall, h⟩ := bind_eq_ok.mp h
  obtain ⟨_, -, h⟩ := bind_eq_ok.mp h
  rw [refuseIf_ok] at hlen hall
  refine ⟨by simpa using hlen, ?_, commit_ok h⟩
  intro roleID hmem
  by_contra hnone
  apply hall
  refine ⟨roleID, hmem, ?_⟩
  intro hbelow
  obtain ⟨r, hr, hid⟩ := mem_map.mp hbelow
  obtain ⟨hr, hpos⟩ := mem_filter.mp hr
  exact hnone ⟨r, hr, of_decide_eq_true hpos, hid⟩

theorem setMemberRoles_ok {userID : ID} (h : setMemberRoles db userID serverID roleIDs = .ok db') :
    db'.tables = { db.tables with
      memberRoles :=
        deleteWhere (fun mr => mr.userID = userID ∧ mr.serverID = serverID)
            db.tables.memberRoles ++
          roleIDs.map fun roleID => { userID, serverID, roleID } } := by
  obtain ⟨_, -, h⟩ := bind_eq_ok.mp h
  exact commit_ok h

/-! ## Section 4: Positions after a reordering -/

/-- The roles that the second update of a reordering moves, in their order. -/
def rolesAbove (serverID : ID) (callerPosition : Nat) (roles : List Role) : List Role :=
  (roles.filter fun r =>
    r.serverID = serverID ∧ r.id ≠ serverID ∧ callerPosition ≤ r.position).insertionSort
      (fun a b => a.position ≤ b.position)

/-- The position of a role after both updates. -/
def newPosition (serverID : ID) (callerPosition : Nat) (roleIDs : List ID) (roles : List Role)
    (r : Role) : Nat :=
  let above := (rolesAbove serverID callerPosition (assignPositions roleIDs roles)).map (·.id)
  if r.id ∈ above then roleIDs.length + 1 + above.idxOf r.id
  else if r.id ∈ roleIDs then roleIDs.idxOf r.id + 1
  else r.position

theorem reordered_eq_map (serverID : ID) (callerPosition : Nat) (roleIDs : List ID)
    (roles : List Role) :
    shiftAbove serverID callerPosition (roleIDs.length + 1) (assignPositions roleIDs roles) =
      roles.map fun r =>
        { r with position := newPosition serverID callerPosition roleIDs roles r } := by
  let above := (rolesAbove serverID callerPosition (assignPositions roleIDs roles)).map (·.id)
  show map
      (fun r : Role => if decide (r.id ∈ above) = true then
        { r with position := roleIDs.length + 1 + above.idxOf r.id } else r)
      (roles.map _) = _
  rw [map_map]
  refine map_congr_left ?_
  intro r _
  show _ = { r with
    position := if r.id ∈ above then roleIDs.length + 1 + above.idxOf r.id
      else if r.id ∈ roleIDs then roleIDs.idxOf r.id + 1 else r.position }
  by_cases hlisted : r.id ∈ roleIDs
  · by_cases habove : r.id ∈ above
    · simp [hlisted, habove]
    · simp [hlisted, habove]
  · by_cases habove : r.id ∈ above
    · simp [hlisted, habove]
    · simp [hlisted, habove]

section Reordering

variable {callerPosition : Nat}

theorem mem_assignPositions (h : r ∈ assignPositions roleIDs roles) :
    ∃ r₀ ∈ roles, r = { r₀ with position := r.position } := by
  obtain ⟨r₀, hr₀, rfl⟩ := mem_updateWhere.mp h
  refine ⟨r₀, hr₀, ?_⟩
  split
  · rfl
  · rfl

theorem mem_rolesAbove
    (h : r ∈ rolesAbove serverID callerPosition (assignPositions roleIDs roles)) :
    ∃ r₀ ∈ roles, r₀.id = r.id ∧ r₀.serverID = serverID ∧ r₀.id ≠ serverID := by
  obtain ⟨hr, hcond⟩ := mem_filter.mp ((perm_insertionSort _ _).mem_iff.mp h)
  obtain ⟨hserver, hordinary, -⟩ := of_decide_eq_true hcond
  obtain ⟨r₀, hr₀, hsame⟩ := mem_assignPositions hr
  rw [hsame] at hserver hordinary ⊢
  exact ⟨r₀, hr₀, rfl, hserver, hordinary⟩

/-- Roles of other servers and `@everyone` stay where they are. -/
theorem newPosition_of_other (hpk : Table.UniqueOn Role.id roles) (hr : r ∈ roles)
    (hlisted : r.id ∉ roleIDs) (hother : r.serverID ≠ serverID ∨ r.id = serverID) :
    newPosition serverID callerPosition roleIDs roles r = r.position := by
  unfold newPosition
  rw [if_neg, if_neg hlisted]
  intro habove
  -- the second update selects ordinary roles of the server only
  obtain ⟨r', hr', hid⟩ := List.mem_map.mp habove
  obtain ⟨r₀, hr₀, hid₀, hserver, hordinary⟩ := mem_rolesAbove hr'
  rw [Table.eq_of_key hpk hr₀ hr (hid₀.trans hid)] at hserver hordinary
  rcases hother with hother | hother
  · exact hother hserver
  · exact hordinary hother

/-- The roles from the caller's position up keep their order. -/
theorem newPosition_lt (hpk : Table.UniqueOn Role.id roles) {b : Role} (ha : a ∈ roles)
    (hb : b ∈ roles) (hmoved : ∀ r, r = a ∨ r = b → r.serverID = serverID ∧ r.id ≠ serverID ∧
      callerPosition ≤ r.position ∧ r.id ∉ roleIDs) (hlt : a.position < b.position) :
    newPosition serverID callerPosition roleIDs roles a <
      newPosition serverID callerPosition roleIDs roles b := by
  have hmem : ∀ r, r = a ∨ r = b →
      r ∈ rolesAbove serverID callerPosition (assignPositions roleIDs roles) := by
    intro r hr
    obtain ⟨hserver, hordinary, hpos, hlisted⟩ := hmoved r hr
    refine (perm_insertionSort _ _).mem_iff.mpr (mem_filter.mpr ⟨?_, ?_⟩)
    · refine mem_updateWhere.mpr ⟨r, ?_, by simp [hlisted]⟩
      rcases hr with rfl | rfl
      · exact ha
      · exact hb
    · exact decide_eq_true ⟨hserver, hordinary, hpos⟩
  have hunique : Table.UniqueOn Role.id
      (rolesAbove serverID callerPosition (assignPositions roleIDs roles)) := by
    have hperm := perm_insertionSort (fun a b : Role => a.position ≤ b.position)
      ((assignPositions roleIDs roles).filter fun r =>
        r.serverID = serverID ∧ r.id ≠ serverID ∧ callerPosition ≤ r.position)
    refine (hperm.map Role.id).nodup_iff.mpr (List.Nodup.sublist (List.filter_sublist.map _) ?_)
    have hids : (assignPositions roleIDs roles).map Role.id = roles.map Role.id := by
      unfold assignPositions updateWhere
      rw [map_map]
      refine map_congr_left ?_
      intro r _
      show (if _ then _ else r).id = r.id
      split
      · rfl
      · rfl
    rw [hids]
    exact hpk
  have hidx := idxOf_lt_of_sorted hunique (pairwise_insertionSort _ _)
    (hmem a (Or.inl rfl)) (hmem b (Or.inr rfl)) hlt
  unfold newPosition
  rw [if_pos (mem_map_of_mem (hmem a (Or.inl rfl))), if_pos (mem_map_of_mem (hmem b (Or.inr rfl)))]
  exact Nat.add_lt_add_left hidx _

end Reordering

end Meza.Store.RoleStore
