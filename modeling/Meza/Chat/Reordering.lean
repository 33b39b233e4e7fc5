import Meza.Chat.System

/-! # The order of roles

    `ReorderRoles` of the store puts the roles below the caller in the order of a
    list, and those above after them. It counts the list and looks up every id,
    but does not look for repetitions, which the handler has removed. The
    caller's position is a parameter of the second update, and the one that the
    handler has for owners is larger than an `INTEGER`. -/

namespace Meza.Chat

open Store RoleStore List Table Role

/-! ## Section 1: The two updates -/

/-- An id that is listed more than once is joined with several positions, and
    `UPDATE … FROM` takes one of them, here that of index `pick id`. -/
def Picks (roleIDs : List ID) (pick : ID → Nat) : Prop :=
  ∀ id ∈ roleIDs, roleIDs[pick id]? = some id

def assignPicked (pick : ID → Nat) (roleIDs : List ID) (roles : List Role) : List Role :=
  updateWhere (fun r => r.id ∈ roleIDs) (fun r => { r with position := pick r.id + 1 }) roles

/-- The roles below the caller. -/
def rolesBelow (t : Tables) (serverID : ID) (callerPosition : Nat) : List Role :=
  (ordinaryRoles t serverID).filter (·.position < callerPosition)

/-- `RoleStore.reorderRoles` for any list. -/
def reorderPicked (pick : ID → Nat) (db : DB) (serverID : ID) (roleIDs : List ID)
    (callerPosition : Nat) : Except StoreError DB := do
  let t := db.tables
  let belowCaller := (rolesBelow t serverID callerPosition).map (·.id)
  let count := belowCaller.length
  refuseIf (roleIDs.length ≠ count)
    (.invalid s!"role_ids must contain all {count} roles below your position")
  let id := (roleIDs.find? (· ∉ belowCaller)).getD ""
  refuseIf (∃ roleID ∈ roleIDs, roleID ∉ belowCaller)
    (.invalid s!"role {id} is not below your position or does not exist")
  refuseIf (maxInt4 < callerPosition)
    (.refused "shift above-caller positions: value out of range for INTEGER")
  commit
    { t with
      roles := shiftAbove serverID callerPosition (roleIDs.length + 1)
        (assignPicked pick roleIDs t.roles) }

theorem Picks.eq_idxOf {roleIDs : List ID} {pick : ID → Nat} (h : Picks roleIDs pick)
    (hnodup : roleIDs.Nodup) {id : ID} (hid : id ∈ roleIDs) : pick id = roleIDs.idxOf id := by
  obtain ⟨hlt, hget⟩ := List.getElem?_eq_some_iff.mp (h id hid)
  have hidx := hnodup.idxOf_getElem (pick id) hlt
  rw [hget] at hidx
  exact hidx.symm

theorem picks_idxOf (roleIDs : List ID) : Picks roleIDs roleIDs.idxOf := by
  intro id hid
  have hlt := idxOf_lt_length_of_mem hid
  rw [getElem?_eq_getElem hlt, getElem_idxOf hlt]

/-! ## Section 2: Positions after both updates -/

/-- The list passes the two checks. -/
structure Admitted (t : Tables) (serverID : ID) (roleIDs : List ID) (callerPosition : Nat) :
    Prop where
  length : roleIDs.length = (rolesBelow t serverID callerPosition).length
  below : ∀ id ∈ roleIDs, id ∈ (rolesBelow t serverID callerPosition).map (·.id)

/-- The roles below the caller that the list leaves out. -/
def unlisted (t : Tables) (serverID : ID) (roleIDs : List ID) (callerPosition : Nat) : List Role :=
  (rolesBelow t serverID callerPosition).filter (·.id ∉ roleIDs)

/-- The position of a role after both updates. -/
def pickedPosition (pick : ID → Nat) (serverID : ID) (roleIDs : List ID) (callerPosition : Nat)
    (roles : List Role) (r : Role) : Nat :=
  let above := (rolesAbove serverID callerPosition roles).map (·.id)
  if r.id ∈ above then roleIDs.length + 1 + above.idxOf r.id
  else if r.id ∈ roleIDs then pick r.id + 1
  else r.position

section Positions

variable {t : Tables} {serverID : ID} {roleIDs : List ID} {callerPosition : Nat}
  {pick : ID → Nat} {r : Role}

theorem mem_rolesBelow : r ∈ rolesBelow t serverID callerPosition ↔
    r ∈ t.roles ∧ r.serverID = serverID ∧ r.id ≠ serverID ∧ r.position < callerPosition := by
  unfold rolesBelow ordinaryRoles
  simp only [mem_filter, decide_eq_true_eq, and_assoc]

theorem mem_above : r ∈ rolesAbove serverID callerPosition t.roles ↔
    r ∈ t.roles ∧ r.serverID = serverID ∧ r.id ≠ serverID ∧ callerPosition ≤ r.position := by
  unfold rolesAbove
  rw [mem_insertionSort, mem_filter, decide_eq_true_eq]

theorem nodup_rolesBelow (hc : t.Constraints) :
    ((rolesBelow t serverID callerPosition).map (·.id)).Nodup :=
  .sublist ((filter_sublist.trans filter_sublist).map _) hc.roles.rolesPK

theorem nodup_above (hc : t.Constraints) :
    ((rolesAbove serverID callerPosition t.roles).map (·.id)).Nodup := by
  have hperm := perm_insertionSort (fun a b : Role => a.position ≤ b.position)
    (t.roles.filter fun r =>
      r.serverID = serverID ∧ r.id ≠ serverID ∧ callerPosition ≤ r.position)
  exact (hperm.map Role.id).nodup_iff.mpr (Nodup.sublist (filter_sublist.map _) hc.roles.rolesPK)

theorem position_pos (hs : RolesLocal t) (hc : t.Constraints) (hr : r ∈ t.roles)
    (hserver : r.serverID = serverID) (hne : r.id ≠ serverID) : 1 ≤ r.position := by
  obtain ⟨srv, hsrv, hid⟩ := mem_map.mp (hc.roles.rolesServer r hr)
  obtain ⟨e, he, heid, heserver, hpos⟩ := hs.everyone srv hsrv
  by_contra hzero
  have hrank : r.rank = e.rank := by
    unfold rank
    rw [heserver, hpos, hid]
    congr 1
    omega
  have heq := eq_of_key hc.roles.rolesRank hr he hrank
  apply hne
  rw [heq, heid, hid, hserver]

theorem length_rolesBelow (hs : RolesLocal t) (hc : t.Constraints)
    (hne : rolesBelow t serverID callerPosition ≠ []) :
    (rolesBelow t serverID callerPosition).length < callerPosition := by
  have hnodup : ((rolesBelow t serverID callerPosition).map (·.position)).Nodup := by
    have hids : (rolesBelow t serverID callerPosition).Nodup :=
      Nodup.of_map _ (nodup_rolesBelow hc)
    refine Nodup.map_on ?_ hids
    intro a ha b hb hpos
    obtain ⟨ha, haserver, -, -⟩ := mem_rolesBelow.mp ha
    obtain ⟨hb, hbserver, -, -⟩ := mem_rolesBelow.mp hb
    refine eq_of_key hc.roles.rolesRank ha hb ?_
    unfold rank
    rw [haserver, hbserver, hpos]
  have hsub : (rolesBelow t serverID callerPosition).map (·.position) ⊆
      range' 1 (callerPosition - 1) := by
    intro pos hpos
    obtain ⟨r, hr, rfl⟩ := mem_map.mp hpos
    obtain ⟨hr, hserver, hordinary, hlt⟩ := mem_rolesBelow.mp hr
    have hge := position_pos hs hc hr hserver hordinary
    rw [mem_range'_1]
    omega
  have hle := (subperm_of_subset hnodup hsub).length_le
  rw [length_map, length_range'] at hle
  have hpos := length_pos_of_ne_nil hne
  omega

section

variable (h : Admitted t serverID roleIDs callerPosition)
include h

/-- A listed role is still below the caller after the first update. -/
theorem Admitted.pick_lt (hs : RolesLocal t)
    (hc : t.Constraints) (hpick : Picks roleIDs pick) {id : ID} (hid : id ∈ roleIDs) :
    pick id < roleIDs.length ∧ pick id + 1 < callerPosition := by
  obtain ⟨hlt, -⟩ := List.getElem?_eq_some_iff.mp (hpick id hid)
  refine ⟨hlt, ?_⟩
  have hne : rolesBelow t serverID callerPosition ≠ [] := by
    intro hnil
    rw [h.length, hnil] at hlt
    exact absurd hlt (Nat.not_lt_zero _)
  have hlength := length_rolesBelow hs hc hne
  rw [h.length] at hlt
  omega

theorem Admitted.listed (hc : t.Constraints)
    (hr : r ∈ t.roles) (hid : r.id ∈ roleIDs) :
    r.serverID = serverID ∧ r.id ≠ serverID ∧ r.position < callerPosition := by
  obtain ⟨r', hr', hsame⟩ := mem_map.mp (h.below r.id hid)
  obtain ⟨hr', hcond⟩ := mem_rolesBelow.mp hr'
  rw [← eq_of_key hc.roles.rolesPK hr' hr hsame]
  exact hcond

/-- The second update moves the roles that were above the caller before the first. -/
theorem Admitted.rolesAbove_assigned
    (hs : RolesLocal t) (hc : t.Constraints) (hpick : Picks roleIDs pick) :
    rolesAbove serverID callerPosition (assignPicked pick roleIDs t.roles) =
      rolesAbove serverID callerPosition t.roles := by
  let above : Role → Bool := fun r =>
    r.serverID = serverID ∧ r.id ≠ serverID ∧ callerPosition ≤ r.position
  have hassign : ∀ r ∈ t.roles, above r = true → r.id ∉ roleIDs := by
    intro r hr habove hid
    have hlisted := h.listed hc hr hid
    have hcond := of_decide_eq_true habove
    omega
  have hfilter : (assignPicked pick roleIDs t.roles).filter above = t.roles.filter above := by
    unfold assignPicked updateWhere
    rw [filter_map]
    have hsame : t.roles.filter (above ∘ fun r => if decide (r.id ∈ roleIDs) = true then
        { r with position := pick r.id + 1 } else r) = t.roles.filter above := by
      refine filter_congr ?_
      intro r hr
      by_cases hid : r.id ∈ roleIDs
      · have hlisted := h.listed hc hr hid
        have hlt := (h.pick_lt hs hc hpick hid).2
        simp only [Function.comp_apply, hid, decide_true, if_true, above]
        refine decide_eq_decide.mpr (iff_of_false ?_ ?_)
        · intro hcond
          omega
        · intro hcond
          omega
      · simp [hid]
    rw [hsame]
    refine (map_congr_left ?_).trans (map_id _)
    intro r hr
    obtain ⟨hr, habove⟩ := mem_filter.mp hr
    simp [hassign r hr habove]
  unfold rolesAbove
  exact congrArg _ hfilter

/-- The two updates change positions only. -/
theorem Admitted.updates_eq (hs : RolesLocal t) (hc : t.Constraints) (hpick : Picks roleIDs pick) :
    shiftAbove serverID callerPosition (roleIDs.length + 1) (assignPicked pick roleIDs t.roles) =
      t.roles.map fun r => { r with
        position := pickedPosition pick serverID roleIDs callerPosition t.roles r } := by
  let above := (rolesAbove serverID callerPosition t.roles).map (·.id)
  have hshift : shiftAbove serverID callerPosition (roleIDs.length + 1)
      (assignPicked pick roleIDs t.roles) =
        updateWhere (fun r => r.id ∈ above)
          (fun r => { r with position := roleIDs.length + 1 + above.idxOf r.id })
          (assignPicked pick roleIDs t.roles) := by
    have habove := h.rolesAbove_assigned hs hc hpick
    unfold rolesAbove at habove
    unfold shiftAbove
    rw [habove]
    rfl
  rw [hshift]
  unfold assignPicked updateWhere
  rw [map_map]
  refine map_congr_left ?_
  intro r _
  show _ = { r with
    position := if r.id ∈ above then roleIDs.length + 1 + above.idxOf r.id
      else if r.id ∈ roleIDs then pick r.id + 1 else r.position }
  generalize above = ids
  by_cases hlisted : r.id ∈ roleIDs
  · by_cases hmoved : r.id ∈ ids
    · simp [hlisted, hmoved]
    · simp [hlisted, hmoved]
  · by_cases hmoved : r.id ∈ ids
    · simp [hlisted, hmoved]
    · simp [hlisted, hmoved]

end

theorem moved_iff (hc : t.Constraints) (hr : r ∈ t.roles) :
    r.id ∈ (rolesAbove serverID callerPosition t.roles).map (·.id) ↔
      r ∈ rolesAbove serverID callerPosition t.roles := by
  rw [mem_map]
  constructor
  · intro hex
    obtain ⟨r', hr', hid⟩ := hex
    rw [← eq_of_key hc.roles.rolesPK (mem_above.mp hr').1 hr hid]
    exact hr'
  · intro hmem
    exact ⟨r, hmem, rfl⟩

theorem position_above (hc : t.Constraints) {i : Nat}
    (hi : (rolesAbove serverID callerPosition t.roles)[i]? = some r) :
    pickedPosition pick serverID roleIDs callerPosition t.roles r = roleIDs.length + 1 + i := by
  obtain ⟨hlt, hget⟩ := List.getElem?_eq_some_iff.mp hi
  have hmem := mem_of_getElem? hi
  unfold pickedPosition
  rw [if_pos ((moved_iff hc (mem_above.mp hmem).1).mpr hmem)]
  have hlt' : i < ((rolesAbove serverID callerPosition t.roles).map (·.id)).length := by
    rw [length_map]
    exact hlt
  have hidx := (nodup_above hc).idxOf_getElem i hlt'
  rw [getElem_map, hget] at hidx
  rw [hidx]

theorem Admitted.position_listed (h : Admitted t serverID roleIDs callerPosition)
    (hc : t.Constraints) (hr : r ∈ t.roles) (hid : r.id ∈ roleIDs) :
    pickedPosition pick serverID roleIDs callerPosition t.roles r = pick r.id + 1 := by
  have hbelow := h.listed hc hr hid
  have hnot : r ∉ rolesAbove serverID callerPosition t.roles := by
    intro hmem
    have habove := mem_above.mp hmem
    omega
  unfold pickedPosition
  rw [if_neg (mt (moved_iff hc hr).mp hnot), if_pos hid]

theorem position_kept (hc : t.Constraints) (hr : r ∈ t.roles) (hid : r.id ∉ roleIDs)
    (hnot : r ∉ rolesAbove serverID callerPosition t.roles) :
    pickedPosition pick serverID roleIDs callerPosition t.roles r = r.position := by
  unfold pickedPosition
  rw [if_neg (mt (moved_iff hc hr).mp hnot), if_neg hid]

theorem mem_unlisted : r ∈ unlisted t serverID roleIDs callerPosition ↔
    r ∈ rolesBelow t serverID callerPosition ∧ r.id ∉ roleIDs := by
  unfold unlisted
  rw [mem_filter, decide_eq_true_eq]

theorem position_unlisted (hc : t.Constraints)
    (hr : r ∈ unlisted t serverID roleIDs callerPosition) :
    pickedPosition pick serverID roleIDs callerPosition t.roles r = r.position := by
  obtain ⟨hbelow, hid⟩ := mem_unlisted.mp hr
  obtain ⟨hr, -, -, hlt⟩ := mem_rolesBelow.mp hbelow
  refine position_kept hc hr hid ?_
  intro hmem
  have habove := mem_above.mp hmem
  omega

theorem Admitted.position_other (h : Admitted t serverID roleIDs callerPosition)
    (hc : t.Constraints) (hr : r ∈ t.roles) (hother : r.serverID ≠ serverID ∨ r.id = serverID) :
    pickedPosition pick serverID roleIDs callerPosition t.roles r = r.position := by
  refine position_kept hc hr ?_ ?_
  · intro hid
    obtain ⟨hserver, hordinary, -⟩ := h.listed hc hr hid
    exact hother.elim (· hserver) hordinary
  · intro hmem
    obtain ⟨-, hserver, hordinary, -⟩ := mem_above.mp hmem
    exact hother.elim (· hserver) hordinary

theorem role_cases (roleIDs : List ID) (callerPosition : Nat) (hr : r ∈ t.roles)
    (hserver : r.serverID = serverID) :
    r.id = serverID ∨ r.id ∈ roleIDs ∨
      (∃ i : Nat, (rolesAbove serverID callerPosition t.roles)[i]? = some r) ∨
      r ∈ unlisted t serverID roleIDs callerPosition := by
  by_cases heveryone : r.id = serverID
  · exact .inl heveryone
  · by_cases hlisted : r.id ∈ roleIDs
    · exact .inr (.inl hlisted)
    · by_cases hpos : callerPosition ≤ r.position
      · have hmem := mem_above.mpr ⟨hr, hserver, heveryone, hpos⟩
        exact .inr (.inr (.inl (mem_iff_getElem?.mp hmem)))
      · have hbelow := mem_rolesBelow.mpr ⟨hr, hserver, heveryone, Nat.lt_of_not_le hpos⟩
        exact .inr (.inr (.inr (mem_unlisted.mpr ⟨hbelow, hlisted⟩)))

end Positions

/-! ## Section 3: When two roles meet -/

/-- A role that the list leaves out is at a position that another role gets. -/
def Meeting (pick : ID → Nat) (t : Tables) (serverID : ID) (roleIDs : List ID)
    (callerPosition : Nat) : Prop :=
  ∃ r ∈ unlisted t serverID roleIDs callerPosition,
    (∃ id ∈ roleIDs, pick id + 1 = r.position) ∨
      (roleIDs.length < r.position ∧
        r.position ≤ roleIDs.length + (rolesAbove serverID callerPosition t.roles).length)

/-- They meet whatever is picked. -/
def Collides (t : Tables) (serverID : ID) (roleIDs : List ID) (callerPosition : Nat) : Prop :=
  let left := (unlisted t serverID roleIDs callerPosition).map (·.position)
  (∃ pos ∈ left, roleIDs.length < pos ∧
      pos ≤ roleIDs.length + (rolesAbove serverID callerPosition t.roles).length) ∨
    ∃ id ∈ roleIDs, ∀ i < roleIDs.length, roleIDs[i]? = some id → i + 1 ∈ left

section Meetings

variable {t : Tables} {serverID : ID} {roleIDs : List ID} {callerPosition : Nat}
  {pick : ID → Nat}

theorem collides_iff : Collides t serverID roleIDs callerPosition ↔
    ∀ pick, Picks roleIDs pick → Meeting pick t serverID roleIDs callerPosition := by
  constructor
  · intro h pick hpick
    rcases h with ⟨pos, hpos, hrange⟩ | ⟨id, hid, hall⟩
    · obtain ⟨r, hr, rfl⟩ := mem_map.mp hpos
      exact ⟨r, hr, .inr hrange⟩
    · obtain ⟨hlt, -⟩ := List.getElem?_eq_some_iff.mp (hpick id hid)
      obtain ⟨r, hr, hpos⟩ := mem_map.mp (hall (pick id) hlt (hpick id hid))
      exact ⟨r, hr, .inl ⟨id, hid, hpos.symm⟩⟩
  · intro h
    by_contra hnot
    obtain ⟨hrange, hfree⟩ := not_or.mp hnot
    -- some position of each listed id is free
    have hchoice : ∀ id, ∃ i, id ∈ roleIDs → roleIDs[i]? = some id ∧
        i + 1 ∉ (unlisted t serverID roleIDs callerPosition).map (·.position) := by
      intro id
      by_cases hid : id ∈ roleIDs
      · by_contra hnone
        apply hfree
        refine ⟨id, hid, ?_⟩
        intro i _ hi
        by_contra hmem
        exact hnone ⟨i, fun _ => ⟨hi, hmem⟩⟩
      · exact ⟨0, fun hmem => absurd hmem hid⟩
    choose pick hpick using hchoice
    obtain ⟨r, hr, ⟨id, hid, hpos⟩ | hpos⟩ := h pick (fun id hid => (hpick id hid).1)
    · exact (hpick id hid).2 (hpos ▸ mem_map_of_mem hr)
    · exact hrange ⟨r.position, mem_map_of_mem hr, hpos⟩

theorem unique_positions_iff (hc : t.Constraints) (pos : Role → Nat) :
    UniqueOn rank (t.roles.map fun r => { r with position := pos r }) ↔
      ∀ a ∈ t.roles, ∀ b ∈ t.roles, a.serverID = b.serverID → pos a = pos b → a = b := by
  unfold UniqueOn
  rw [map_map]
  constructor
  · intro hnodup a ha b hb hserver hpos
    refine inj_on_of_nodup_map hnodup ha hb ?_
    show (a.serverID, pos a) = (b.serverID, pos b)
    rw [hserver, hpos]
  · intro hall
    refine .map_on ?_ (.of_map _ hc.roles.rolesPK)
    intro a ha b hb hrank
    obtain ⟨hserver, hpos⟩ := Prod.mk.inj hrank
    exact hall a ha b hb hserver hpos

/-- A role that meets one that was left out was left out itself. -/
theorem Admitted.unlisted_of_eq (h : Admitted t serverID roleIDs callerPosition) (hs : RolesLocal t)
    (hc : t.Constraints) (hapart : ¬ Meeting pick t serverID roleIDs callerPosition)
    {a b : Role} (ha : a ∈ unlisted t serverID roleIDs callerPosition)
    (hb : b ∈ t.roles) (hserver : b.serverID = serverID)
    (hpos : pickedPosition pick serverID roleIDs callerPosition t.roles b = a.position) :
    b ∈ unlisted t serverID roleIDs callerPosition := by
  rcases role_cases roleIDs callerPosition hb hserver with heveryone | hid | ⟨i, hi⟩ | hleft
  · obtain ⟨hmem, haserver, hordinary, -⟩ := mem_rolesBelow.mp (mem_unlisted.mp ha).1
    have hge := position_pos hs hc hmem haserver hordinary
    rw [h.position_other hc hb (Or.inr heveryone),
      hs.position_eq_zero hc hb (heveryone.trans hserver.symm)] at hpos
    omega
  · rw [h.position_listed hc hb hid] at hpos
    exact absurd ⟨a, ha, .inl ⟨b.id, hid, hpos⟩⟩ hapart
  · obtain ⟨hlt, -⟩ := List.getElem?_eq_some_iff.mp hi
    rw [position_above hc hi] at hpos
    exact absurd ⟨a, ha, .inr ⟨by omega, by omega⟩⟩ hapart
  · exact hleft

/-- Who gets a position: `@everyone`, the listed roles and the roles above. -/
def occupant (t : Tables) (serverID : ID) (roleIDs : List ID) (callerPosition pos : Nat) :
    Option ID :=
  if pos = 0 then some serverID
  else if pos ≤ roleIDs.length then roleIDs[pos - 1]?
  else ((rolesAbove serverID callerPosition t.roles)[pos - roleIDs.length - 1]?).map (·.id)

theorem Admitted.occupant_eq (h : Admitted t serverID roleIDs callerPosition) (hs : RolesLocal t)
    (hc : t.Constraints) (hpick : Picks roleIDs pick) {r : Role} (hr : r ∈ t.roles)
    (hserver : r.serverID = serverID) (hleft : r ∉ unlisted t serverID roleIDs callerPosition) :
    occupant t serverID roleIDs callerPosition
        (pickedPosition pick serverID roleIDs callerPosition t.roles r) = some r.id := by
  unfold occupant
  rcases role_cases roleIDs callerPosition hr hserver with hid | hid | ⟨i, hi⟩ | hmem
  · have hzero := hs.position_eq_zero hc hr (hid.trans hserver.symm)
    rw [h.position_other hc hr (Or.inr hid), if_pos hzero, hid]
  · obtain ⟨hlt, -⟩ := List.getElem?_eq_some_iff.mp (hpick r.id hid)
    rw [h.position_listed hc hr hid, if_neg (Nat.succ_ne_zero _), if_pos (Nat.succ_le_of_lt hlt)]
    exact hpick r.id hid
  · have hidx : roleIDs.length + 1 + i - roleIDs.length - 1 = i := by omega
    rw [position_above hc hi, if_neg (by omega), if_neg (by omega), hidx, hi]
    rfl
  · exact absurd hmem hleft

/-- Two roles of one server end up at one position exactly when there is a meeting. -/
theorem Admitted.unique_iff (h : Admitted t serverID roleIDs callerPosition) (hs : RolesLocal t)
    (hc : t.Constraints) (hpick : Picks roleIDs pick) :
    UniqueOn rank (t.roles.map fun r => { r with
        position := pickedPosition pick serverID roleIDs callerPosition t.roles r }) ↔
      ¬ Meeting pick t serverID roleIDs callerPosition := by
  rw [unique_positions_iff hc]
  constructor
  · intro hunique hmeeting
    obtain ⟨r, hr, hmeets⟩ := hmeeting
    obtain ⟨hbelow, hnot⟩ := mem_unlisted.mp hr
    obtain ⟨hmem, hserver, -, hlt⟩ := mem_rolesBelow.mp hbelow
    rcases hmeets with ⟨id, hid, hsame⟩ | ⟨hgt, hle⟩
    · obtain ⟨b, hb, rfl⟩ := mem_map.mp (h.below id hid)
      obtain ⟨hb, hbserver, -, -⟩ := mem_rolesBelow.mp hb
      have heq := hunique r hmem b hb (hserver.trans hbserver.symm)
        (by rw [position_unlisted hc hr, h.position_listed hc hb hid, hsame])
      rw [heq] at hnot
      exact hnot hid
    · -- the role above that gets this position
      have hi : r.position - roleIDs.length - 1 <
          (rolesAbove serverID callerPosition t.roles).length := by omega
      have hget := getElem?_eq_getElem hi
      obtain ⟨hb, hbserver, -, hbpos⟩ := mem_above.mp (mem_of_getElem? hget)
      have heq := hunique r hmem _ hb (hserver.trans hbserver.symm) (by
        rw [position_unlisted hc hr, position_above hc hget]
        omega)
      rw [← heq] at hbpos
      omega
  · intro hapart a ha b hb hserver hpos
    by_cases hhere : a.serverID = serverID
    · have hthere : b.serverID = serverID := hserver.symm.trans hhere
      by_cases haleft : a ∈ unlisted t serverID roleIDs callerPosition
      · rw [position_unlisted hc haleft] at hpos
        have hbleft := h.unlisted_of_eq hs hc hapart haleft hb hthere hpos.symm
        rw [position_unlisted hc hbleft] at hpos
        exact eq_of_key hc.roles.rolesRank ha hb (Prod.ext hserver hpos)
      · have hbleft : b ∉ unlisted t serverID roleIDs callerPosition := by
          intro hbleft
          rw [position_unlisted hc hbleft] at hpos
          exact haleft (h.unlisted_of_eq hs hc hapart hbleft ha hhere hpos)
        have haid := h.occupant_eq hs hc hpick ha hhere haleft
        rw [hpos, h.occupant_eq hs hc hpick hb hthere hbleft] at haid
        exact eq_of_key hc.roles.rolesPK ha hb (Option.some.inj haid).symm
    · have hthere : b.serverID ≠ serverID := fun heq => hhere (hserver.trans heq)
      rw [h.position_other hc ha (Or.inl hhere), h.position_other hc hb (Or.inl hthere)] at hpos
      exact eq_of_key hc.roles.rolesRank ha hb (Prod.ext hserver hpos)

end Meetings

/-! ## Section 4: The specification -/

/-- The listed roles are first, in the order of the list, and the roles that were
    above follow in theirs; nothing else is different. -/
structure PutInOrder (serverID : ID) (roleIDs : List ID) (callerPosition : Nat) (t t' : Tables) :
    Prop where
  tables : t' = { t with roles := t'.roles }
  fields : t'.roles.map (fun r => { r with position := 0 }) =
    t.roles.map fun r => { r with position := 0 }
  listed : ∀ (i : Nat) id, roleIDs[i]? = some id →
    ∃ r ∈ t.roles, r.id = id ∧ { r with position := i + 1 } ∈ t'.roles
  above : ∀ (i : Nat) r, (rolesAbove serverID callerPosition t.roles)[i]? = some r →
    { r with position := roleIDs.length + 1 + i } ∈ t'.roles
  others : ∀ r ∈ t.roles, r.serverID ≠ serverID ∨ r.id = serverID → r ∈ t'.roles

/-- Permutations of the roles below the caller are accepted and all other lists
    refused. -/
structure ReorderSpec (db : DB) (serverID : ID) (roleIDs : List ID) (callerPosition : Nat) :
    Prop where
  accepted : roleIDs.Perm ((rolesBelow db.tables serverID callerPosition).map (·.id)) →
    ∀ pick, Picks roleIDs pick → ∃ db',
      reorderPicked pick db serverID roleIDs callerPosition = .ok db' ∧
        PutInOrder serverID roleIDs callerPosition db.tables db'.tables
  refused : ¬ roleIDs.Perm ((rolesBelow db.tables serverID callerPosition).map (·.id)) →
    ∀ pick, Picks roleIDs pick → ∃ e,
      reorderPicked pick db serverID roleIDs callerPosition = .error e

/-- The caller's position is an `INTEGER`, unless the list is wrong; and a list that
    passes the checks by its repetitions runs into the unique index. -/
structure Orderable (t : Tables) (serverID : ID) (roleIDs : List ID) (callerPosition : Nat) :
    Prop where
  fits : roleIDs.Perm ((rolesBelow t serverID callerPosition).map (·.id)) → callerPosition ≤ maxInt4
  repeated : callerPosition ≤ maxInt4 → Admitted t serverID roleIDs callerPosition →
    ¬ roleIDs.Nodup → Collides t serverID roleIDs callerPosition

section Spec

variable {t : Tables} {serverID : ID} {roleIDs : List ID} {callerPosition : Nat}
  {pick : ID → Nat}

theorem perm_below_iff (hc : t.Constraints) :
    roleIDs.Perm ((rolesBelow t serverID callerPosition).map (·.id)) ↔
      Admitted t serverID roleIDs callerPosition ∧ roleIDs.Nodup := by
  constructor
  · intro h
    refine ⟨⟨?_, fun id hid => h.mem_iff.mp hid⟩, h.nodup_iff.mpr (nodup_rolesBelow hc)⟩
    have hlength := h.length_eq
    rwa [length_map] at hlength
  · intro h
    obtain ⟨hadmitted, hnodup⟩ := h
    refine (subperm_of_subset hnodup hadmitted.below).perm_of_length_le ?_
    rw [length_map, hadmitted.length]

theorem not_meeting_of_perm (h : roleIDs.Perm ((rolesBelow t serverID callerPosition).map (·.id))) :
    ¬ Meeting pick t serverID roleIDs callerPosition := by
  intro hmeeting
  obtain ⟨r, hr, -⟩ := hmeeting
  obtain ⟨hbelow, hnot⟩ := mem_unlisted.mp hr
  exact hnot (h.mem_iff.mpr (mem_map_of_mem hbelow))

/-- Only the unique index on positions can refuse new positions. -/
theorem constraints_positions_iff (hc : t.Constraints) (pos : Role → Nat) :
    Tables.Constraints { t with roles := t.roles.map fun r => { r with position := pos r } } ↔
      UniqueOn rank (t.roles.map fun r => { r with position := pos r }) := by
  have hids : (t.roles.map fun r => { r with position := pos r }).map (·.id) =
      t.roles.map (·.id) := by
    rw [map_map]
    rfl
  constructor
  · intro h
    exact h.roles.rolesRank
  · intro hunique
    refine ⟨⟨hc.servers.usersPK, hc.servers.serversPK, hc.servers.serversOwner,
      hc.servers.membersPK, hc.servers.membersUser, hc.servers.membersServer, hc.servers.bansPK,
      hc.servers.bansServer, hc.servers.bansBy, hc.servers.bansReason, hc.servers.invitesPK,
      hc.servers.invitesServer⟩, ⟨hc.channels.groupsPK, hc.channels.groupsServer,
      hc.channels.channelsPK, hc.channels.channelsServer, hc.channels.channelsGroup,
      hc.channels.channelsCompanion, hc.channels.channelsName, hc.channels.channelsSynced,
      hc.channels.channelsSlowMode, hc.channels.membersPK, hc.channels.membersChannel,
      hc.channels.membersUser⟩, ?_⟩
    refine ⟨?_, ?_, hunique, ?_, ?_, hc.roles.memberRolesPK, ?_, hc.roles.memberRolesMember,
      hc.roles.overridesPK, hc.roles.overridesTarget, ?_, ?_⟩
    · unfold UniqueOn
      rw [hids]
      exact hc.roles.rolesPK
    · intro r hr
      obtain ⟨r₀, hr₀, rfl⟩ := mem_map.mp hr
      exact hc.roles.rolesServer r₀ hr₀
    · intro r hr
      obtain ⟨r₀, hr₀, rfl⟩ := mem_map.mp hr
      exact hc.roles.rolesName r₀ hr₀
    · intro r hr
      obtain ⟨r₀, hr₀, rfl⟩ := mem_map.mp hr
      exact hc.roles.rolesColor r₀ hr₀
    · intro mr hmr
      rw [hids]
      exact hc.roles.memberRolesRole mr hmr
    · intro po hpo
      have hexists := hc.roles.overridesScope po hpo
      rcases hscope : po.scope with id | id
      · rw [hscope] at hexists
        exact hexists
      · rw [hscope] at hexists
        exact hexists
    · intro po hpo
      have hexists := hc.roles.overridesSubject po hpo
      rcases hsubject : po.subject with id | id
      · rw [hsubject] at hexists
        show id ∈ (t.roles.map fun r => { r with position := pos r }).map (·.id)
        rw [hids]
        exact hexists
      · rw [hsubject] at hexists
        exact hexists

variable {db db' : DB}

theorem reorderPicked_ok (h : reorderPicked pick db serverID roleIDs callerPosition = .ok db') :
    Admitted db.tables serverID roleIDs callerPosition ∧ callerPosition ≤ maxInt4 ∧
      db'.tables = { db.tables with
        roles := shiftAbove serverID callerPosition (roleIDs.length + 1)
          (assignPicked pick roleIDs db.tables.roles) } := by
  obtain ⟨_, hlength, h⟩ := bind_eq_ok.mp h
  obtain ⟨_, hall, h⟩ := bind_eq_ok.mp h
  obtain ⟨_, hfits, h⟩ := bind_eq_ok.mp h
  rw [refuseIf_ok] at hlength hall hfits
  refine ⟨⟨by simpa using hlength, ?_⟩, Nat.le_of_not_lt hfits, commit_ok h⟩
  intro id hid
  by_contra hnot
  exact hall ⟨id, hid, hnot⟩

/-- An admitted list is refused for the caller's position, or by the index. -/
theorem reorderPicked_iff (hs : RolesLocal db.tables) (hpick : Picks roleIDs pick) :
    (∃ db', reorderPicked pick db serverID roleIDs callerPosition = .ok db') ↔
      Admitted db.tables serverID roleIDs callerPosition ∧ callerPosition ≤ maxInt4 ∧
        ¬ Meeting pick db.tables serverID roleIDs callerPosition := by
  have hc := db.constraints
  constructor
  · intro h
    obtain ⟨db', hdb'⟩ := h
    obtain ⟨hadmitted, hfits, htables⟩ := reorderPicked_ok hdb'
    refine ⟨hadmitted, hfits, ?_⟩
    have hc' := db'.constraints
    rw [htables, hadmitted.updates_eq hs hc hpick] at hc'
    exact (hadmitted.unique_iff hs hc hpick).mp ((constraints_positions_iff hc _).mp hc')
  · intro h
    obtain ⟨hadmitted, hfits, hapart⟩ := h
    have hc' := (constraints_positions_iff hc _).mpr ((hadmitted.unique_iff hs hc hpick).mpr hapart)
    rw [← hadmitted.updates_eq hs hc hpick] at hc'
    refine ⟨⟨_, hc'⟩, ?_⟩
    have hlength : ¬ roleIDs.length ≠
        ((rolesBelow db.tables serverID callerPosition).map (·.id)).length := by
      rw [length_map]
      exact not_not.mpr hadmitted.length
    have hall : ¬ ∃ roleID ∈ roleIDs,
        roleID ∉ (rolesBelow db.tables serverID callerPosition).map (·.id) := by
      intro hex
      obtain ⟨id, hid, hnot⟩ := hex
      exact hnot (hadmitted.below id hid)
    unfold reorderPicked
    refine bind_eq_ok.mpr ⟨(), refuseIf_ok.mpr hlength, ?_⟩
    refine bind_eq_ok.mpr ⟨(), refuseIf_ok.mpr hall, ?_⟩
    refine bind_eq_ok.mpr ⟨(), refuseIf_ok.mpr (Nat.not_lt.mpr hfits), ?_⟩
    unfold commit
    rw [dif_pos hc']

theorem Admitted.putInOrder (h : Admitted t serverID roleIDs callerPosition) (hs : RolesLocal t)
    (hc : t.Constraints) (hpick : Picks roleIDs pick) (hnodup : roleIDs.Nodup) :
    PutInOrder serverID roleIDs callerPosition t { t with
      roles := shiftAbove serverID callerPosition (roleIDs.length + 1)
        (assignPicked pick roleIDs t.roles) } := by
  rw [h.updates_eq hs hc hpick]
  have hmoved : ∀ r ∈ t.roles, ∀ pos,
      pickedPosition pick serverID roleIDs callerPosition t.roles r = pos →
        { r with position := pos } ∈ t.roles.map fun r => { r with
          position := pickedPosition pick serverID roleIDs callerPosition t.roles r } := by
    intro r hr pos hpos
    exact mem_map.mpr ⟨r, hr, by rw [hpos]⟩
  refine ⟨rfl, ?_, ?_, ?_, ?_⟩
  · rw [map_map]
    rfl
  · intro i id hid
    have hmem := mem_of_getElem? hid
    obtain ⟨r, hr, rfl⟩ := mem_map.mp (h.below id hmem)
    have hr := (mem_rolesBelow.mp hr).1
    refine ⟨r, hr, rfl, hmoved r hr _ ?_⟩
    have hsame : pick r.id = i := by
      rw [hpick.eq_idxOf hnodup hmem]
      obtain ⟨hlt, hget⟩ := List.getElem?_eq_some_iff.mp hid
      rw [← hget]
      exact hnodup.idxOf_getElem i hlt
    rw [h.position_listed hc hr hmem, hsame]
  · intro i r hi
    exact hmoved r (mem_above.mp (mem_of_getElem? hi)).1 _ (position_above hc hi)
  · intro r hr hother
    exact hmoved r hr _ (h.position_other hc hr hother)

end Spec

/-- **The order of roles.** The store reorders as specified exactly when the
    caller's position fits the column, or the list is one to refuse; repetitions
    apart, which the handler removes. -/
theorem reorderRoles_spec_iff (db : DB) (hs : RolesLocal db.tables) (serverID : ID)
    (roleIDs : List ID) (callerPosition : Nat) :
    ReorderSpec db serverID roleIDs callerPosition ↔
      Orderable db.tables serverID roleIDs callerPosition := by
  have hc := db.constraints
  constructor
  · intro h
    refine ⟨?_, ?_⟩
    · intro hperm
      obtain ⟨db', hdb', -⟩ := h.accepted hperm _ (picks_idxOf roleIDs)
      exact (reorderPicked_ok hdb').2.1
    · intro hfits hadmitted hrepeated
      rw [collides_iff]
      intro pick hpick
      by_contra hapart
      obtain ⟨db', hdb'⟩ := (reorderPicked_iff hs hpick).mpr ⟨hadmitted, hfits, hapart⟩
      have hnot : ¬ roleIDs.Perm ((rolesBelow db.tables serverID callerPosition).map (·.id)) :=
        fun hperm => hrepeated ((perm_below_iff hc).mp hperm).2
      obtain ⟨e, he⟩ := h.refused hnot pick hpick
      rw [hdb'] at he
      cases he
  · intro h
    refine ⟨?_, ?_⟩
    · intro hperm pick hpick
      obtain ⟨hadmitted, hnodup⟩ := (perm_below_iff hc).mp hperm
      obtain ⟨db', hdb'⟩ := (reorderPicked_iff hs hpick).mpr
        ⟨hadmitted, h.fits hperm, not_meeting_of_perm hperm⟩
      refine ⟨db', hdb', ?_⟩
      rw [(reorderPicked_ok hdb').2.2]
      exact hadmitted.putInOrder hs hc hpick hnodup
    · intro hnot pick hpick
      rcases hrun : reorderPicked pick db serverID roleIDs callerPosition with e | db'
      · exact ⟨e, rfl⟩
      · obtain ⟨hadmitted, hfits, hapart⟩ := (reorderPicked_iff hs hpick).mp ⟨db', hrun⟩
        have hrepeated : ¬ roleIDs.Nodup :=
          fun hnodup => hnot ((perm_below_iff hc).mpr ⟨hadmitted, hnodup⟩)
        exact absurd (collides_iff.mp (h.repeated hfits hadmitted hrepeated) pick hpick) hapart

/-- A server with two roles below its moderators. -/
def parlourTables : Tables where
  users := [{ id := "owner", signingPublicKey := none }, { id := "mod", signingPublicKey := none }]
  servers := [{ id := "srv", ownerID := "owner" }]
  members := [{ userID := "owner", serverID := "srv" }, { userID := "mod", serverID := "srv" }]
  roles := [{ id := "srv", serverID := "srv", name := "@everyone", permissions := 0,
              position := 0 },
    { id := "guests", serverID := "srv", name := "guests", permissions := 0, position := 1 },
    { id := "regulars", serverID := "srv", name := "regulars", permissions := 0, position := 2 },
    { id := "mods", serverID := "srv", name := "mods", permissions := Permissions.manageRoles,
      position := 3 }]
  memberRoles := [{ userID := "mod", serverID := "srv", roleID := "mods" }]

def parlourDB : DB := ⟨parlourTables, by decide⟩

theorem parlourTables_rolesLocal : RolesLocal parlourTables := ⟨by decide, by decide⟩

/-- The moderator puts the guests above the regulars. -/
theorem reorderRoles_spec_parlour : ReorderSpec parlourDB "srv" ["regulars", "guests"] 3 :=
  (reorderRoles_spec_iff parlourDB parlourTables_rolesLocal "srv" ["regulars", "guests"] 3).mpr
    ⟨fun _ => by decide, fun _ _ hrepeated => absurd (by decide) hrepeated⟩

/-- The owner, for whom the handler passes a position that is no `INTEGER`, cannot
    order the three roles. -/
theorem parlour_owner_refused :
    RolesLocal parlourDB.tables ∧
      ["mods", "regulars", "guests"].Perm
        ((rolesBelow parlourDB.tables "srv" ownerReorderPosition).map (·.id)) ∧
      ¬ ReorderSpec parlourDB "srv" ["mods", "regulars", "guests"] ownerReorderPosition ∧
      reorderRoles (some "owner")
          { serverID := "srv", roleIDs := ["mods", "regulars", "guests"] } { db := parlourDB } =
        .error internalError { db := parlourDB } := by
  have hperm : ["mods", "regulars", "guests"].Perm
      ((rolesBelow parlourDB.tables "srv" ownerReorderPosition).map (·.id)) := by decide
  refine ⟨parlourTables_rolesLocal, hperm, ?_, by rfl⟩
  intro hspec
  obtain ⟨db', hdb', -⟩ := hspec.accepted hperm _ (picks_idxOf _)
  exact absurd (reorderPicked_ok hdb').2.1 (by decide)

end Meza.Chat
