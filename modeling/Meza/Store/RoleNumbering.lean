import Meza.Store.RolePositions

/-! # Role positions in every run

    The three calls lock different rows: a reordering leaves `@everyone` out, so
    it can run beside a creation or deletion. What is needed of the locks is
    little: two transactions never write the same row, and a creation and a
    deletion exclude each other. A commit then writes no position above the
    number of roles, and the constraint sees to the rest.

    The exception is a deletion that reads the position of its role, and waits
    for its locks while the role moves down: it moves the roles above the
    position that it has read, and the gap stays. -/

namespace Meza.Store.RolePositions

open RoleStore List Phase Writes Pool Table

/-! ## Section 1: What a transaction can rely on -/

/-- The rows with these ids exist and are ordinary roles. -/
def Present (serverID : ID) (roles : List Role) (ids : List ID) : Prop :=
  ∀ id ∈ ids, id ≠ serverID ∧ ∃ r ∈ roles, r.id = id

/-- A creation that has inserted its role on top. -/
structure Creation (serverID : ID) (roles : List Role) (tx : Tx) : Prop where
  exclusive : serverID ∈ tx.locks
  inserted : ∃ created : Role, tx.writes = { inserted := [created] } ∧
    created.id ≠ serverID ∧ created.position = count serverID roles + 1

/-- A deletion that has deleted its role, if it was still there. The role on top
    is the deleted one, or it will move down. -/
structure Deletion (serverID roleID : ID) (position : Nat) (roles : List Role) (tx : Tx) :
    Prop where
  exclusive : serverID ∈ tx.locks
  inserted : tx.writes.inserted = []
  positive : 1 ≤ position
  target : tx.writes.deleted = [] ∨ (tx.writes.deleted = [roleID] ∧ roleID ≠ serverID ∧
    ∃ r ∈ roles, r.id = roleID ∧
      (r.position = count serverID roles ∨ position < count serverID roles))

/-- A deletion that has moved the roles above the position it has read. -/
structure Compaction (serverID roleID : ID) (roles : List Role) (tx : Tx) : Prop where
  exclusive : serverID ∈ tx.locks
  inserted : tx.writes.inserted = []
  moved : ∀ e ∈ tx.writes.positions, e.1 ≠ serverID ∧ 1 ≤ e.2 ∧
    ∃ r ∈ roles, r.id = e.1 ∧ r.position = e.2 + 1
  target : tx.writes.deleted = [] ∨ (tx.writes.deleted = [roleID] ∧ roleID ≠ serverID ∧
    (∃ r ∈ roles, r.id = roleID) ∧ ∃ top ∈ roles, top.id ≠ serverID ∧
      top.position = count serverID roles ∧
      (top.id = roleID ∨ top.id ∈ tx.writes.positions.map (·.1)))

/-- A reordering before its second update. -/
structure Listing (serverID : ID) (roleIDs : List ID) (callerPosition : Nat) (roles : List Role)
    (tx : Tx) : Prop where
  nodup : roleIDs.Nodup
  locked : roleIDs ⊆ tx.locks
  below : ∀ id ∈ roleIDs, id ≠ serverID ∧ ∃ r ∈ roles, r.id = id ∧ r.position < callerPosition

/-- A reordering after its second update: the rows it moves get positions up to
    their number. -/
structure Reordering (serverID : ID) (roles : List Role) (tx : Tx) : Prop where
  inserted : tx.writes.inserted = []
  deleted : tx.writes.deleted = []
  moved : ∃ ids : List ID, ids.Nodup ∧ ids ⊆ tx.locks ∧ Present serverID roles ids ∧
    ∀ e ∈ tx.writes.positions, e.1 ∈ ids ∧ 1 ≤ e.2 ∧ e.2 ≤ ids.length

def Job.Sound (serverID : ID) : Job → Prop
  | .create _ => True
  | .delete roleID pos => roleID ≠ serverID ∧ 1 ≤ pos
  | .reorder roleIDs _ => roleIDs.Nodup ∧ serverID ∉ roleIDs

/-- A creation or deletion locks `@everyone`. -/
def Job.Locks (serverID : ID) (ids : List ID) : Job → Prop
  | .create _ | .delete _ _ => serverID ∈ ids
  | .reorder _ _ => True

def Phase.Sound (serverID : ID) (roles : List Role) : Phase → Prop
  | .begun (.create _) => True
  | .begun (.delete roleID) => roleID ≠ serverID
  | .begun (.reorder roleIDs _) => roleIDs.Nodup ∧ serverID ∉ roleIDs
  | .found roleID position => roleID ≠ serverID ∧ 1 ≤ position
  | .locking job seen => job.Sound serverID ∧ job.Locks serverID seen
  | .locked (.create _) tx => serverID ∈ tx.locks ∧ tx.writes = {}
  | .locked (.delete roleID position) tx =>
    (roleID ≠ serverID ∧ 1 ≤ position) ∧ serverID ∈ tx.locks ∧ tx.writes = {}
  | .locked (.reorder roleIDs callerPosition) tx =>
    Listing serverID roleIDs callerPosition roles tx ∧ tx.writes = {}
  | .deleted roleID position tx =>
    Deletion serverID roleID position roles tx ∧ tx.writes.positions = [] ∧ tx.writes.ids ⊆ tx.locks
  | .assigned roleIDs callerPosition tx =>
    Listing serverID roleIDs callerPosition roles tx ∧
      tx.writes = { positions := numberFrom 1 roleIDs }
  | .written (.create _) tx => Creation serverID roles tx ∧ tx.writes.ids ⊆ tx.locks
  | .written (.delete roleID _) tx =>
    Compaction serverID roleID roles tx ∧ tx.writes.ids ⊆ tx.locks
  | .written (.reorder _ _) tx => Reordering serverID roles tx ∧ tx.writes.ids ⊆ tx.locks
  | .returned _ => True

/-- Two transactions lock different rows. -/
def Apart (p q : Phase) : Prop := ∀ id ∈ p.locks, id ∉ q.locks

/-- Nothing changes for a transaction with these locks. -/
structure Kept (serverID : ID) (locks : List ID) (roles roles' : List Role) : Prop where
  rows : ∀ r : Role, r.id ∈ locks → (r ∈ roles' ↔ r ∈ roles)
  count : serverID ∈ locks → count serverID roles' = count serverID roles

variable {outcome : Bool} {job : Job} {ids : List ID} {position : Nat} {p p' : Phase} {w : Writes}

section Keeping

variable {roleID : ID} {roles' : List Role} {tx : Tx}

theorem Kept.present (h : Kept serverID tx.locks roles roles') (hlocked : ids ⊆ tx.locks)
    (hpresent : Present serverID roles ids) : Present serverID roles' ids := by
  intro id hid
  obtain ⟨hne, r, hr, rfl⟩ := hpresent id hid
  exact ⟨hne, r, (h.rows r (hlocked hid)).mpr hr, rfl⟩

theorem Creation.keep (h : Creation serverID roles tx)
    (hkept : Kept serverID tx.locks roles roles') : Creation serverID roles' tx where
  exclusive := h.exclusive
  inserted := by
    rw [hkept.count h.exclusive]
    exact h.inserted

theorem Deletion.keep (h : Deletion serverID roleID position roles tx)
    (hids : tx.writes.ids ⊆ tx.locks) (hkept : Kept serverID tx.locks roles roles') :
    Deletion serverID roleID position roles' tx where
  exclusive := h.exclusive
  inserted := h.inserted
  positive := h.positive
  target := by
    rw [hkept.count h.exclusive]
    rcases h.target with hnone | ⟨hdel, hne, r, hr, hid, htop⟩
    · exact .inl hnone
    · have hlocked : r.id ∈ tx.locks := by
        apply hids
        simp [ids, hdel, hid]
      exact .inr ⟨hdel, hne, r, (hkept.rows r hlocked).mpr hr, hid, htop⟩

theorem Compaction.keep (h : Compaction serverID roleID roles tx) (hids : tx.writes.ids ⊆ tx.locks)
    (hkept : Kept serverID tx.locks roles roles') : Compaction serverID roleID roles' tx where
  exclusive := h.exclusive
  inserted := h.inserted
  moved := by
    intro e he
    obtain ⟨hne, hpos, r, hr, hid, heq⟩ := h.moved e he
    have hlocked : r.id ∈ tx.locks := by
      apply hids
      rw [hid]
      simp only [ids, mem_append]
      exact .inl (.inl (mem_map_of_mem he))
    exact ⟨hne, hpos, r, (hkept.rows r hlocked).mpr hr, hid, heq⟩
  target := by
    rw [hkept.count h.exclusive]
    rcases h.target with hnone | ⟨hdel, hne, ⟨r, hr, hid⟩, top, htop, hord, hpos, hmoves⟩
    · exact .inl hnone
    · have hdeleted : roleID ∈ tx.locks := by
        apply hids
        simp [ids, hdel]
      have hlocked : top.id ∈ tx.locks := by
        rcases hmoves with hmoves | hmoves
        · rw [hmoves]
          exact hdeleted
        · apply hids
          simp only [ids, mem_append]
          exact .inl (.inl hmoves)
      exact .inr ⟨hdel, hne, ⟨r, (hkept.rows r (hid ▸ hdeleted)).mpr hr, hid⟩, top,
        (hkept.rows top hlocked).mpr htop, hord, hpos, hmoves⟩

theorem Listing.keep {roleIDs : List ID} {callerPosition : Nat}
    (h : Listing serverID roleIDs callerPosition roles tx)
    (hkept : Kept serverID tx.locks roles roles') :
    Listing serverID roleIDs callerPosition roles' tx where
  nodup := h.nodup
  locked := h.locked
  below := by
    intro id hid
    obtain ⟨hne, r, hr, rfl, hpos⟩ := h.below id hid
    exact ⟨hne, r, (hkept.rows r (h.locked hid)).mpr hr, rfl, hpos⟩

theorem Reordering.keep (h : Reordering serverID roles tx)
    (hkept : Kept serverID tx.locks roles roles') : Reordering serverID roles' tx where
  inserted := h.inserted
  deleted := h.deleted
  moved := by
    obtain ⟨ids, hnodup, hlocked, hpresent, hmoved⟩ := h.moved
    exact ⟨ids, hnodup, hlocked, hkept.present hlocked hpresent, hmoved⟩

theorem Phase.Sound.keep (h : p.Sound serverID roles) (hkept : Kept serverID p.locks roles roles') :
    p.Sound serverID roles' := by
  cases p with
  | begun call =>
    cases call with
    | create | delete | reorder => exact h
  | found | locking => exact h
  | locked job tx =>
    cases job with
    | create | delete => exact h
    | reorder ids pos => exact ⟨h.1.keep hkept, h.2⟩
  | deleted r pos tx => exact ⟨h.1.keep h.2.2 hkept, h.2⟩
  | assigned ids pos tx => exact ⟨h.1.keep hkept, h.2⟩
  | written job tx =>
    cases job with
    | create | reorder => exact ⟨h.1.keep hkept, h.2⟩
    | delete r pos => exact ⟨h.1.keep h.2 hkept, h.2⟩
  | returned result => trivial

end Keeping

/-! ## Section 2: Commits -/

section Committing

variable {roleID : ID} {tx : Tx}

theorem everyone_apply (h : Numbered serverID roles) (hids : serverID ∉ w.ids) :
    ∃ r ∈ w.apply roles, r.id = serverID ∧ r.position = 0 := by
  obtain ⟨e, he, hid, hzero⟩ := h.everyone
  rw [← hid] at hids
  exact ⟨e, (mem_apply_of_notMem hids).mpr he, hid, hzero⟩

theorem Creation.commit (h : Creation serverID roles tx) (hnum : Numbered serverID roles)
    (hacc : Accepts (tx.writes.apply roles)) : Numbered serverID (tx.writes.apply roles) := by
  obtain ⟨created, hw, hne, hpos⟩ := h.inserted
  rw [hw] at hacc ⊢
  have hcount : count serverID (apply { inserted := [created] } roles) =
      count serverID roles + 1 := by
    rw [count_apply]
    simp [count, ordinary, hne]
  refine numbered_of_bounded hacc (everyone_apply hnum ?_) ?_
  · simpa [ids] using hne.symm
  · intro r hr hord
    rcases mem_apply.mp hr with ⟨r₀, hr₀, -, rfl⟩ | hins
    · have := hnum.bound hr₀ hord
      show 1 ≤ r₀.position ∧ r₀.position ≤ _
      omega
    · rw [mem_singleton.mp hins, hpos]
      omega

theorem Compaction.notMem_ids (h : Compaction serverID roleID roles tx) :
    serverID ∉ tx.writes.ids := by
  unfold ids
  rw [h.inserted]
  simp only [mem_append, map_nil, not_mem_nil, or_false, not_or]
  constructor
  · intro hmem
    obtain ⟨e, he, hid⟩ := mem_map.mp hmem
    exact (h.moved e he).1 hid
  · rcases h.target with hnone | ⟨hdel, hne, -⟩
    · simp [hnone]
    · simpa [hdel] using hne.symm

/-- A role that moves down stays above 0 and leaves the position it had. -/
theorem Compaction.newPosition_of_moved (h : Compaction serverID roleID roles tx)
    (hnum : Numbered serverID roles) {r : Role} (hr : r ∈ roles)
    (hmem : (r.id, tx.writes.newPosition r) ∈ tx.writes.positions) :
    1 ≤ tx.writes.newPosition r ∧ tx.writes.newPosition r + 1 = r.position := by
  obtain ⟨-, hpos, r', hr', hid, heq⟩ := h.moved _ hmem
  rw [eq_of_key hnum.rolesPK hr' hr hid] at heq
  exact ⟨hpos, heq.symm⟩

/-- A role that stays is not the one on top, if a role is deleted. -/
theorem position_ne_count {r top : Role} (hnum : Numbered serverID roles) (hr : r ∈ roles)
    (hord : r.id ≠ serverID) (htop : top ∈ roles) (htopord : top.id ≠ serverID)
    (htoppos : top.position = count serverID roles) (hdel : tx.writes.deleted = [roleID])
    (hmoves : top.id = roleID ∨ top.id ∈ tx.writes.positions.map (·.1))
    (hkept : r.id ∉ tx.writes.deleted) (hnot : r.id ∉ tx.writes.positions.map (·.1)) :
    r.position ≠ count serverID roles := by
  intro heq
  have hsame := hnum.position_inj hr htop hord htopord (heq.trans htoppos.symm)
  subst hsame
  rcases hmoves with hmoves | hmoves
  · apply hkept
    rw [hdel, hmoves]
    exact mem_singleton_self _
  · exact hnot hmoves

theorem Compaction.commit (h : Compaction serverID roleID roles tx) (hnum : Numbered serverID roles)
    (hacc : Accepts (tx.writes.apply roles)) : Numbered serverID (tx.writes.apply roles) := by
  refine numbered_of_bounded hacc (everyone_apply hnum h.notMem_ids) ?_
  intro r hr hord
  rw [mem_apply, h.inserted] at hr
  rcases hr with ⟨r₀, hr₀, hkept, rfl⟩ | hr
  · show 1 ≤ tx.writes.newPosition r₀ ∧ tx.writes.newPosition r₀ ≤ _
    have hbound := hnum.bound hr₀ hord
    rcases h.target with hnone | ⟨hdel, hne, hex, top, htop, htopord, htoppos, hmoves⟩
    · rw [count_apply_positions hnone h.inserted]
      rcases newPosition_cases tx.writes r₀ with hmem | ⟨-, hsame⟩
      · have := h.newPosition_of_moved hnum hr₀ hmem
        omega
      · rw [hsame]
        exact hbound
    · have hcount := count_apply_deleted hnum.rolesPK hdel h.inserted hne hex
      rcases newPosition_cases tx.writes r₀ with hmem | ⟨hnot, hsame⟩
      · have := h.newPosition_of_moved hnum hr₀ hmem
        omega
      · rw [hsame]
        have hlow := position_ne_count hnum hr₀ hord htop htopord htoppos hdel hmoves hkept hnot
        omega
  · cases hr

theorem Reordering.commit (h : Reordering serverID roles tx)
    (hids : tx.writes.ids ⊆ tx.writes.positions.map (·.1)) (hnum : Numbered serverID roles)
    (hacc : Accepts (tx.writes.apply roles)) : Numbered serverID (tx.writes.apply roles) := by
  obtain ⟨ids, hnodup, -, hpresent, hmoved⟩ := h.moved
  have hlen := length_le_count hnodup hpresent
  refine numbered_of_bounded hacc (everyone_apply hnum ?_) ?_
  · intro hmem
    obtain ⟨e, he, hid⟩ := mem_map.mp (hids hmem)
    exact (hpresent _ (hmoved e he).1).1 hid
  · intro r hr hord
    rw [count_apply_positions h.deleted h.inserted]
    rw [mem_apply, h.inserted] at hr
    rcases hr with ⟨r₀, hr₀, -, rfl⟩ | hr
    · show 1 ≤ tx.writes.newPosition r₀ ∧ tx.writes.newPosition r₀ ≤ _
      rcases newPosition_cases tx.writes r₀ with hmem | ⟨-, hsame⟩
      · have := hmoved _ hmem
        exact ⟨this.2.1, Nat.le_trans this.2.2 hlen⟩
      · rw [hsame]
        exact hnum.bound hr₀ hord
    · cases hr

theorem commit_numbered (h : (written job tx).Sound serverID roles)
    (hnum : Numbered serverID roles) (hacc : Accepts (tx.writes.apply roles)) :
    Numbered serverID (tx.writes.apply roles) := by
  cases job with
  | create | delete => exact h.1.commit hnum hacc
  | reorder ids pos =>
    refine h.1.commit ?_ hnum hacc
    intro id hid
    simpa [Writes.ids, h.1.deleted, h.1.inserted] using hid

/-- Other transactions do not notice a commit in the rows they have locked. -/
theorem commit_kept (h : (written job tx).Sound serverID roles) {q : Phase}
    (hapart : Apart (.written job tx) q) : Kept serverID q.locks roles (tx.writes.apply roles) := by
  have hids : tx.writes.ids ⊆ tx.locks := by
    cases job with
    | create | delete | reorder => exact h.2
  constructor
  · intro r hr
    apply mem_apply_of_notMem
    intro hmem
    exact hapart r.id (hids hmem) hr
  · intro hserver
    -- creations and deletions have locked `@everyone` themselves
    cases job with
    | create | delete => exact absurd hserver (hapart serverID h.1.exclusive)
    | reorder ids pos => exact count_apply_positions h.1.deleted h.1.inserted

end Committing

/-! ## Section 3: Statements -/

/-- A deletion that goes by a position that is not below the top deletes the top role. -/
def Timely (serverID : ID) (roles : List Role) (_others : List Phase) (p : Phase) (_ : Bool) :
    Prop :=
  match p with
  | .locked (.delete roleID position) _ =>
    ∀ r ∈ roles, r.id = roleID → r.position = count serverID roles ∨ position < count serverID roles
  | _ => True

instance (serverID : ID) (roles : List Role) (others : List Phase) :
    ∀ p outcome, Decidable (Timely serverID roles others p outcome)
  | .locked (.delete _ _) _, _ => inferInstanceAs (Decidable (∀ _ ∈ roles, _))
  | .locked (.create _) _, _ | .locked (.reorder _ _) _, _ | .begun _, _ | .found _ _, _
  | .locking _ _, _ | .deleted _ _ _, _ | .assigned _ _ _, _ | .written _ _, _
  | .returned _, _ => inferInstanceAs (Decidable True)

section Statements

variable {roleID : ID} {roles' : List Role} {others : List Phase} {tx tx' : Tx}
  {callerPosition : Nat} {roleIDs : List ID}

theorem write_eq_some :
    write others tx ids w = some tx' ↔
      Free others ids ∧ tx' = { locks := ids ++ tx.locks, writes := w } := by
  unfold write
  by_cases h : Free others ids
  · simp [h, eq_comm]
  · simp [h]

theorem checkBelow_ok {existingRoles : List Role} {u : Unit}
    (h : checkBelow existingRoles roleIDs callerPosition = .ok u) :
    ∀ id ∈ roleIDs, ∃ r ∈ existingRoles, r.id = id ∧ r.position < callerPosition := by
  obtain ⟨_, -, h⟩ := bind_eq_ok.mp h
  rw [refuseIf_ok] at h
  intro id hid
  by_contra hnone
  apply h
  refine ⟨id, hid, ?_⟩
  intro hbelow
  obtain ⟨r, hr, hrid⟩ := mem_map.mp hbelow
  obtain ⟨hr, hpos⟩ := mem_filter.mp hr
  exact hnone ⟨r, hr, hrid, of_decide_eq_true hpos⟩

theorem nodup_eraseDups (ids : List ID) : ids.eraseDups.Nodup := by
  induction hlen : ids.length using Nat.strong_induction_on generalizing ids with
  | _ n ih =>
    cases ids with
    | nil => simp
    | cons id ids =>
      rw [eraseDups_cons, nodup_cons]
      constructor
      · rw [mem_eraseDups]
        simp
      · have hshort := length_filter_le (fun b => !b == id) ids
        exact ih _ (by rw [← hlen, length_cons]; omega) _ rfl

theorem start_sound (call : RoleCall) : (start serverID call).Sound serverID roles := by
  cases call with
  | create role => trivial
  | delete roleID =>
    simp only [start]
    split
    · trivial
    · assumption
  | reorder roleIDs callerPosition =>
    simp only [start]
    split
    · trivial
    · split
      · trivial
      · rename_i hserver
        refine ⟨nodup_eraseDups roleIDs, ?_⟩
        rw [mem_eraseDups]
        exact hserver

section

variable (hnum : Numbered serverID roles)
include hnum

theorem sees_sound (job : Job) :
    job.Locks serverID (job.sees serverID roles) := by
  have heveryone : serverID ∈ roles.map (·.id) := by
    obtain ⟨e, he, hid, -⟩ := hnum.everyone
    exact mem_map.mpr ⟨e, he, hid⟩
  cases job with
  | create | delete => exact heveryone
  | reorder ids pos => trivial

theorem granted_sound {seen : List ID} {u : Unit}
    (h : (locking job seen).Sound serverID roles)
    (hcheck : job.check (roles.filter (·.id ∈ seen)) = .ok u) :
    (locked job { locks := (roles.filter (·.id ∈ seen)).map (·.id) }).Sound serverID
      roles := by
  have heveryone : serverID ∈ seen → serverID ∈ (roles.filter (·.id ∈ seen)).map (·.id) := by
    intro hseen
    obtain ⟨e, he, hid, -⟩ := hnum.everyone
    refine mem_map.mpr ⟨e, mem_filter.mpr ⟨he, ?_⟩, hid⟩
    simpa [hid] using hseen
  obtain ⟨hjob, hlocks⟩ := h
  cases job with
  | create role => exact ⟨heveryone hlocks, rfl⟩
  | delete r pos => exact ⟨hjob, heveryone hlocks, rfl⟩
  | reorder ids pos =>
    have hbelow := checkBelow_ok hcheck
    refine ⟨⟨hjob.1, ?_, ?_⟩, rfl⟩
    · intro id hid
      obtain ⟨r, hr, hrid, -⟩ := hbelow id hid
      exact mem_map.mpr ⟨r, hr, hrid⟩
    · intro id hid
      obtain ⟨r, hr, hrid, hpos⟩ := hbelow id hid
      refine ⟨?_, r, (mem_filter.mp hr).1, hrid, hpos⟩
      intro hserver
      exact hjob.2 (hserver ▸ hid)

theorem insert_sound {role : Role}
    (h : (locked (.create role) tx).Sound serverID roles)
    (hnew : role.id ∉ (tx.writes.apply roles).map (·.id)) :
    (written (.create role)
      { locks := [role.id] ++ tx.locks
        writes := { tx.writes with
          inserted := [{ role with position := maxPosition (tx.writes.apply roles) + 1 }] } }).Sound
      serverID roles := by
  obtain ⟨hserver, hw⟩ := h
  rw [hw, apply_empty] at hnew ⊢
  rw [hnum.maxPosition_eq]
  refine ⟨⟨mem_append_right _ hserver, _, rfl, ?_, rfl⟩, ?_⟩
  · intro hid
    obtain ⟨e, he, heid, -⟩ := hnum.everyone
    exact hnew (mem_map.mpr ⟨e, he, heid.trans hid.symm⟩)
  · intro id hid
    simp only [ids, map_nil, nil_append, map_cons, mem_singleton] at hid
    simp [hid]

theorem delete_sound (h : (locked (.delete roleID position) tx).Sound serverID roles)
    (htimely : Timely serverID roles others (.locked (.delete roleID position) tx) outcome) :
    (deleted roleID position
      { locks := ((tx.writes.apply roles).filter (·.id = roleID)).map (·.id) ++ tx.locks
        writes := { tx.writes with
          deleted := ((tx.writes.apply roles).filter (·.id = roleID)).map (·.id) } }).Sound
      serverID roles := by
  obtain ⟨⟨hne, hpos⟩, hserver, hw⟩ := h
  rw [hw, apply_empty]
  refine ⟨⟨mem_append_right _ hserver, rfl, hpos, ?_⟩, rfl, ?_⟩
  · show map _ _ = [] ∨ map _ _ = [roleID] ∧ _
    rw [filter_key hnum.rolesPK]
    cases hlook : lookup Role.id roleID roles with
    | none => exact .inl rfl
    | some r =>
      obtain ⟨hr, hid⟩ := mem_of_lookup hlook
      exact .inr ⟨congrArg (fun id => [id]) hid, hne, r, hr, hid, htimely r hr hid⟩
  · intro id hid
    simp only [ids, map_nil, nil_append, append_nil] at hid
    exact mem_append_left _ hid

theorem compact_sound (h : (Phase.deleted roleID position tx).Sound serverID roles) :
    (Phase.written (.delete roleID position)
      { locks := ((tx.writes.apply roles).filter (position < ·.position)).map (·.id) ++ tx.locks
        writes := { tx.writes with
          positions := ((tx.writes.apply roles).filter (position < ·.position)).map
            fun r => (r.id, r.position - 1) } }).Sound serverID roles := by
  obtain ⟨hdel, hnopos, hids⟩ := h
  -- so far the transaction has only deleted its role
  have hview : ∀ r, r ∈ tx.writes.apply roles ↔ r ∈ roles ∧ r.id ∉ tx.writes.deleted := by
    intro r
    rw [mem_apply, hdel.inserted]
    simp only [Writes.newPosition, hnopos, lookup_nil, Option.getD_none, not_mem_nil,
      or_false]
    constructor
    · intro hex
      obtain ⟨r₀, hr₀, hkept, rfl⟩ := hex
      exact ⟨hr₀, hkept⟩
    · intro hr
      exact ⟨r, hr.1, hr.2, rfl⟩
  refine ⟨⟨mem_append_right _ hdel.exclusive, hdel.inserted, ?_, ?_⟩, ?_⟩
  · intro e he
    obtain ⟨r, hr, rfl⟩ := List.mem_map.mp he
    obtain ⟨hr, hpos⟩ := List.mem_filter.mp hr
    have hlt : position < r.position := of_decide_eq_true hpos
    have hmem := ((hview r).mp hr).1
    have hpositive := hdel.positive
    refine ⟨?_, by show 1 ≤ r.position - 1; omega, r, hmem, rfl, by
      show r.position = r.position - 1 + 1; omega⟩
    intro hid
    rw [hnum.everyone_eq hmem hid] at hlt
    exact Nat.not_lt_zero _ hlt
  · rcases hdel.target with hnone | ⟨hone, hne, r, hr, hid, htop⟩
    · exact .inl hnone
    · refine .inr ⟨hone, hne, ⟨r, hr, hid⟩, ?_⟩
      rcases htop with htop | htop
      · exact ⟨r, hr, hid ▸ hne, htop, .inl hid⟩
      · -- the top role is above the position that was read, so it moves
        obtain ⟨top, htopmem, htopord, htoppos⟩ := hnum.top (by omega)
        refine ⟨top, htopmem, htopord, htoppos, ?_⟩
        by_cases hsame : top.id = roleID
        · exact .inl hsame
        · right
          rw [map_map]
          refine List.mem_map.mpr
            ⟨top, List.mem_filter.mpr ⟨(hview top).mpr ⟨htopmem, ?_⟩, ?_⟩, rfl⟩
          · simpa [hone] using hsame
          · exact decide_eq_true (by omega)
  · intro id hid
    simp only [Writes.ids, mem_append, map_map] at hid
    rw [mem_append]
    rcases hid with (hid | hid) | hid
    · exact .inl hid
    · exact .inr (hids (by simp [Writes.ids, hid]))
    · exact .inr (hids (by simp [Writes.ids, hid]))

end

theorem mem_numberFrom {first : Nat} {e : ID × Nat} (he : e ∈ numberFrom first ids) :
    e.1 ∈ ids ∧ first ≤ e.2 ∧ e.2 < first + ids.length := by
  obtain ⟨id, hid, rfl⟩ := mem_map.mp he
  have := idxOf_lt_length_of_mem hid
  exact ⟨hid, by simp, by simpa using this⟩

/-- Fewer roles are listed than the caller's position says. -/
theorem Listing.length_lt (h : Listing serverID roleIDs callerPosition roles tx)
    (hnum : Numbered serverID roles) (hne : roleIDs ≠ []) : roleIDs.length < callerPosition := by
  let position (id : ID) : Nat := ((lookup Role.id id roles).map (·.position)).getD 0
  have hposition : ∀ r ∈ roles, position r.id = r.position := by
    intro r hr
    simp [position, lookup_of_mem hnum.rolesPK hr]
  -- their positions are different and lie between 1 and the caller's
  have hnodup : (roleIDs.map position).Nodup := by
    refine h.nodup.map_on ?_
    intro a ha b hb heq
    obtain ⟨hanot, ra, hra, rfl, -⟩ := h.below a ha
    obtain ⟨hbnot, rb, hrb, rfl, -⟩ := h.below b hb
    rw [hposition ra hra, hposition rb hrb] at heq
    rw [hnum.position_inj hra hrb hanot hbnot heq]
  have hsub : roleIDs.map position ⊆ range' 1 (callerPosition - 1) := by
    intro pos hpos
    obtain ⟨id, hid, rfl⟩ := mem_map.mp hpos
    obtain ⟨hnot, r, hr, rfl, hlt⟩ := h.below id hid
    have := hnum.bound hr hnot
    rw [hposition r hr, mem_range'_1]
    omega
  have hle := (subperm_of_subset hnodup hsub).length_le
  have hpos : 0 < roleIDs.length := length_pos_of_ne_nil hne
  rw [length_map, length_range'] at hle
  omega

theorem assign_sound (h : (locked (.reorder roleIDs callerPosition) tx).Sound serverID roles) :
    (assigned roleIDs callerPosition
      { locks := roleIDs ++ tx.locks
        writes := { tx.writes with positions := numberFrom 1 roleIDs } }).Sound serverID roles := by
  obtain ⟨hlist, hw⟩ := h
  refine ⟨⟨hlist.nodup, subset_append_left _ _, hlist.below⟩, ?_⟩
  rw [hw]

theorem mem_above {view : List Role} {id : ID} :
    id ∈ above serverID callerPosition view ↔
      ∃ r ∈ view, r.id = id ∧ r.id ≠ serverID ∧ callerPosition ≤ r.position := by
  unfold above
  rw [mem_map]
  constructor
  · intro hex
    obtain ⟨r, hr, hid⟩ := hex
    obtain ⟨hr, hpos⟩ := mem_filter.mp ((mem_insertionSort _).mp hr)
    obtain ⟨hr, hne⟩ := mem_ordinary.mp hr
    exact ⟨r, hr, hid, hne, of_decide_eq_true hpos⟩
  · intro hex
    obtain ⟨r, hr, hid, hne, hpos⟩ := hex
    refine ⟨r, (mem_insertionSort _).mpr (mem_filter.mpr ⟨?_, decide_eq_true hpos⟩), hid⟩
    exact mem_ordinary.mpr ⟨hr, hne⟩

theorem nodup_above {view : List Role} (hpk : UniqueOn Role.id view) :
    (above serverID callerPosition view).Nodup := by
  have hperm := perm_insertionSort (fun a b : Role => a.position ≤ b.position)
    ((ordinary serverID view).filter (callerPosition ≤ ·.position))
  refine (hperm.map Role.id).nodup_iff.mpr ?_
  exact .sublist ((filter_sublist.trans filter_sublist).map _) hpk

theorem shift_sound (hnum : Numbered serverID roles)
    (h : (assigned roleIDs callerPosition tx).Sound serverID roles) :
    (written (.reorder roleIDs callerPosition)
      { locks := above serverID callerPosition (tx.writes.apply roles) ++ tx.locks
        writes := { tx.writes with
          positions := numberFrom (roleIDs.length + 1)
              (above serverID callerPosition (tx.writes.apply roles)) ++
            tx.writes.positions } }).Sound serverID roles := by
  obtain ⟨hlist, hw⟩ := h
  rw [hw]
  let w : Writes := { positions := numberFrom 1 roleIDs }
  let moved := above serverID callerPosition (w.apply roles)
  have hview : (w.apply roles).map Role.id = roles.map Role.id := by
    simp [w, apply, Function.comp_def]
  have hmoved : ∀ id ∈ moved, id ∉ roleIDs ∧ id ≠ serverID ∧ ∃ r ∈ roles, r.id = id := by
    intro id hid
    obtain ⟨r, hr, rfl, hne, hpos⟩ := mem_above.mp hid
    rcases mem_apply.mp hr with ⟨r₀, hr₀, -, rfl⟩ | hr
    · refine ⟨?_, hne, r₀, hr₀, rfl⟩
      -- a listed role is below the caller after the first update
      intro hlisted
      have hlt := hlist.length_lt hnum (ne_nil_of_mem hlisted)
      rcases newPosition_cases w r₀ with hmem | ⟨hnot, -⟩
      · have := (mem_numberFrom hmem).2.2
        have hge : callerPosition ≤ w.newPosition r₀ := hpos
        omega
      · exact hnot (mem_map.mpr ⟨_, mem_map_of_mem hlisted, rfl⟩)
    · cases hr
  have hnodup : (moved ++ roleIDs).Nodup := by
    refine nodup_append.mpr ⟨nodup_above ?_, hlist.nodup, ?_⟩
    · show ((w.apply roles).map Role.id).Nodup
      rw [hview]
      exact hnum.rolesPK
    · rintro id hid _ hlisted rfl
      exact (hmoved id hid).1 hlisted
  have hlocked : moved ++ roleIDs ⊆ moved ++ tx.locks := by
    intro id hid
    rcases mem_append.mp hid with hid | hid
    · exact mem_append_left _ hid
    · exact mem_append_right _ (hlist.locked hid)
  have hwritten : ∀ e ∈ numberFrom (roleIDs.length + 1) moved ++ numberFrom 1 roleIDs,
      e.1 ∈ moved ++ roleIDs ∧ 1 ≤ e.2 ∧ e.2 ≤ (moved ++ roleIDs).length := by
    intro e he
    rw [length_append]
    rcases mem_append.mp he with he | he
    · obtain ⟨hid, hge, hlt⟩ := mem_numberFrom he
      exact ⟨mem_append_left _ hid, by omega, by omega⟩
    · obtain ⟨hid, hge, hlt⟩ := mem_numberFrom he
      exact ⟨mem_append_right _ hid, by omega, by omega⟩
  refine ⟨⟨rfl, rfl, moved ++ roleIDs, hnodup, hlocked, ?_, hwritten⟩, ?_⟩
  · intro id hid
    rcases mem_append.mp hid with hid | hid
    · exact (hmoved id hid).2
    · obtain ⟨hne, r, hr, hrid, -⟩ := hlist.below id hid
      exact ⟨hne, r, hr, hrid⟩
  · intro id hid
    simp only [ids, append_nil, map_nil] at hid
    obtain ⟨e, he, rfl⟩ := mem_map.mp hid
    exact hlocked (hwritten e he).1

/-- A statement that leaves the rows alone and locks free ones. -/
structure Proceeds (serverID : ID) (roles : List Role) (others : List Phase) (p : Phase)
    (result : List Role × Phase) : Prop where
  rows : result.1 = roles
  sound : result.2.Sound serverID roles
  locks : ∀ id ∈ result.2.locks, id ∈ p.locks ∨ ∀ q ∈ others, id ∉ q.locks

variable {result : List Role × Phase}

theorem proceeds_unlocked (h : some (roles, p') = some result) (hlocks : p'.locks = [])
    (hsound : p'.Sound serverID roles) : Proceeds serverID roles others p result := by
  cases h
  refine ⟨rfl, hsound, ?_⟩
  intro id hid
  rw [hlocks] at hid
  cases hid

theorem proceeds_write {k : Tx → Phase}
    (h : (write others tx ids w).map (fun tx' => (roles, k tx')) = some result)
    (hp : p.locks = tx.locks) (hk : ∀ tx', (k tx').locks = tx'.locks)
    (hsound : (k { locks := ids ++ tx.locks, writes := w }).Sound serverID roles) :
    Proceeds serverID roles others p result := by
  obtain ⟨tx', hwrite, rfl⟩ := Option.map_eq_some_iff.mp h
  obtain ⟨hfree, rfl⟩ := write_eq_some.mp hwrite
  refine ⟨rfl, hsound, ?_⟩
  intro id hid
  rw [hk] at hid
  rw [hp]
  rcases mem_append.mp hid with hid | hid
  · exact .inr fun q hq => hfree q hq id hid
  · exact .inl hid

theorem begun_proceeds {call : RoleCall} (hnum : Numbered serverID roles)
    (hsound : (begun call).Sound serverID roles)
    (h : next serverID roles others (.begun call) true = some result) :
    Proceeds serverID roles others (.begun call) result := by
  cases call with
  | create role => exact proceeds_unlocked h rfl ⟨trivial, sees_sound hnum (.create role)⟩
  | delete roleID =>
    simp only [next] at h
    split at h
    · exact proceeds_unlocked h rfl trivial
    · rename_i role hlook
      obtain ⟨hr, hid⟩ := mem_of_lookup hlook
      exact proceeds_unlocked h rfl ⟨hsound, (hnum.bound hr (hid ▸ hsound)).1⟩
  | reorder ids pos => exact proceeds_unlocked h rfl ⟨hsound, trivial⟩

theorem locking_proceeds {seen : List ID} (hnum : Numbered serverID roles)
    (hsound : (locking job seen).Sound serverID roles)
    (h : next serverID roles others (.locking job seen) true = some result) :
    Proceeds serverID roles others (.locking job seen) result := by
  simp only [next] at h
  split at h
  · rename_i hfree
    split at h
    · rename_i hcheck
      cases h
      refine ⟨rfl, granted_sound hnum hsound hcheck, ?_⟩
      intro id hid
      exact .inr fun q hq => hfree q hq id hid
    · exact proceeds_unlocked h rfl trivial
  · cases h

theorem locked_proceeds (hnum : Numbered serverID roles)
    (hsound : (locked job tx).Sound serverID roles)
    (htimely : Timely serverID roles others (.locked job tx) true)
    (h : next serverID roles others (.locked job tx) true = some result) :
    Proceeds serverID roles others (.locked job tx) result := by
  cases job with
  | create role =>
    simp only [next] at h
    split at h
    · exact proceeds_unlocked h rfl trivial
    · rename_i hnew
      exact proceeds_write h rfl (fun _ => rfl) (insert_sound hnum hsound hnew)
  | delete r pos => exact proceeds_write h rfl (fun _ => rfl) (delete_sound hnum hsound htimely)
  | reorder ids pos => exact proceeds_write h rfl (fun _ => rfl) (assign_sound hsound)

theorem next_sound (hnum : Numbered serverID roles) (hsound : p.Sound serverID roles)
    (htimely : Timely serverID roles others p outcome)
    (h : next serverID roles others p outcome = some (roles', p')) :
    (∃ job tx, p = .written job tx ∧ Accepts (tx.writes.apply roles) ∧
      roles' = tx.writes.apply roles ∧ p' = .returned (.ok ())) ∨
    Proceeds serverID roles others p (roles', p') := by
  cases outcome with
  | false =>
    right
    cases p with
    | returned result => cases h
    | _ => exact proceeds_unlocked h rfl trivial
  | true =>
    cases p with
    | returned result => cases h
    | begun call => exact .inr (begun_proceeds hnum hsound h)
    | found r pos =>
      right
      exact proceeds_unlocked h rfl ⟨hsound, sees_sound hnum (.delete r pos)⟩
    | locking job seen => exact .inr (locking_proceeds hnum hsound h)
    | locked job tx => exact .inr (locked_proceeds hnum hsound htimely h)
    | deleted r pos tx =>
      right
      exact proceeds_write h rfl (fun _ => rfl) (compact_sound hnum hsound)
    | assigned ids pos tx =>
      right
      simp only [next] at h
      split at h
      · exact proceeds_unlocked h rfl trivial
      · exact proceeds_write h rfl (fun _ => rfl) (shift_sound hnum hsound)
    | written job tx =>
      -- the deferred constraint decides
      simp only [next] at h
      split at h
      · rename_i hacc
        obtain ⟨rfl, rfl⟩ := Prod.mk.inj (Option.some.inj h)
        exact .inl ⟨job, tx, rfl, hacc, rfl, rfl⟩
      · exact .inr (proceeds_unlocked h rfl trivial)

end Statements

/-! ## Section 4: Every run -/

def Inv (serverID : ID) : State (List Role) Phase → Prop :=
  Pool.Inv (Numbered serverID) (fun roles p => p.Sound serverID roles) (fun _ p q => Apart p q)

theorem apart_symm {q : Phase} (h : Apart p q) : Apart q p := by
  intro id hq hp
  exact h id hp hq

variable {roles : List Role} {serverID : ID}

theorem inv_start {calls : List Phase} (call : RoleCall)
    (h : Inv serverID { shared := roles, calls }) :
    Inv serverID { shared := roles, calls := start serverID call :: calls } := by
  refine h.cons (start_sound call) ?_
  intro q _ id hid
  have hlocks : (start serverID call).locks = [] := by
    cases call with
    | create role => rfl
    | delete r =>
      simp only [start]
      split <;> rfl
    | reorder ids pos =>
      simp only [start]
      split
      · rfl
      · split <;> rfl
  rw [hlocks] at hid
  cases hid

theorem inv_next {roles' : List Role} {others : List Phase}
    (h : Inv serverID { shared := roles, calls := p :: others })
    (htimely : Timely serverID roles others p outcome)
    (hnext : next serverID roles others p outcome = some (roles', p')) :
    Inv serverID { shared := roles', calls := p' :: others } := by
  have hsound := h.each p mem_cons_self
  rcases next_sound h.shared hsound htimely hnext with
    ⟨job, tx, rfl, hacc, rfl, rfl⟩ | ⟨hrows, hsound', hlocks⟩
  · refine .replace h (commit_numbered hsound h.shared hacc) trivial ?_ fun _ _ h' => h'
    intro q _ hq hapart
    exact ⟨hq.keep (commit_kept hsound hapart), fun id hid => by cases hid⟩
  · obtain rfl : roles' = roles := hrows
    refine .replace h h.shared hsound' ?_ fun _ _ h' => h'
    intro q hq hqsound hapart
    refine ⟨hqsound, ?_⟩
    intro id hid
    rcases hlocks id hid with hold | hfree
    · exact hapart id hold
    · exact hfree q hq

/-- Along every run in which no deletion goes by an outdated position, the roles
    stay numbered. -/
theorem positions_numbered {serverID : ID} {roles : List Role} (hnum : Numbered serverID roles)
    (evs : List (Event RoleCall Bool))
    (hrun : Run.Guarded (step serverID) (Allows (fun _ _ => True) (Timely serverID))
      { shared := roles, calls := [] } evs) :
    Numbered serverID (Run.exec (step serverID) { shared := roles, calls := [] } evs).shared := by
  have hexec : Inv serverID (Run.exec (step serverID) { shared := roles, calls := [] } evs) := by
    refine Pool.keeps_exec (Pool.Inv.perm ?_) ?_ ?_ (Pool.Inv.init hnum) hrun
    · intro _ p q hpq
      exact apart_symm hpq
    · intro roles calls call h _
      exact inv_start call h
    · intro roles p others outcome roles' p' h htimely hnext
      exact inv_next h htimely hnext
  exact hexec.shared

def rosterRole (id : ID) (position : Nat) : Role :=
  { id, serverID := "srv", name := "role", permissions := 0, position }

def roster : List Role :=
  [rosterRole "srv" 0, rosterRole "helper" 1, rosterRole "mod" 2, rosterRole "admin" 3]

/-- One call after the other. -/
def deletionThenReorder : List (Event RoleCall Bool) :=
  .start (.delete "helper") :: replicate 6 (.advance 0 true) ++
    .start (.reorder ["admin", "mod"] 5) :: replicate 6 (.advance 1 true)

theorem positions_numbered_roster :
    Numbered "srv" (Run.exec (step "srv") { shared := roster, calls := [] }
      deletionThenReorder).shared :=
  positions_numbered (by decide +kernel) deletionThenReorder (by decide +kernel)

/-- Both deletions read their positions before one of them takes its locks. -/
def twoDeletions : List (Event RoleCall Bool) :=
  [.start (.delete "helper"), .start (.delete "mod"), .advance 0 true, .advance 1 true] ++
    replicate 5 (.advance 0 true) ++ replicate 5 (.advance 1 true)

/-- The second one does not move the role that is left, which stays at 2. -/
theorem twoDeletions_leave_gap :
    Numbered "srv" roster ∧
      ¬ Numbered "srv" (Run.exec (step "srv") { shared := roster, calls := [] }
        twoDeletions).shared := by
  decide +kernel

end Meza.Store.RolePositions
