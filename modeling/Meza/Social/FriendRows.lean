import Meza.Social.Friending

/-! # One row for two friends, none for a blocked pair

    The advisory lock of `SendFriendRequest` keeps two requests of a pair apart,
    so that a pair never has a row in each direction. It does not keep
    `BlockUser` away: a request that has looked at the blocks can insert its row
    after the block has deleted the friendships. -/

namespace Meza.Social.Friending
open List FriendStore Table BlockStore Friendship Run SendWrite

open Store (ID)
open FriendStore (SendWrite)

/-! ## Section 1: Rows -/

/-- At most one friendship for two users, in whichever direction. -/
def OneRow (t : Tables) : Prop := UniqueOn pair t.friendships

instance (t : Tables) : Decidable (OneRow t) := inferInstanceAs (Decidable (Nodup _))

/-- No friendship, pending or accepted, of two users one of whom blocks the other. -/
def Clear (t : Tables) : Prop :=
  ∀ f ∈ t.friendships, isBlockedEither t f.requesterID f.addresseeID = false

instance (t : Tables) : Decidable (Clear t) :=
  inferInstanceAs (Decidable (∀ f ∈ t.friendships, _))

theorem Friendship.pair_eq (f : Friendship) : f.pair = s(f.key.1, f.key.2) := rfl

/-- The rows of the pair are the user's own requests. -/
def OnlyOwn (t : Tables) (userID targetID : ID) : Prop :=
  ∀ f ∈ t.friendships, f.pair = s(userID, targetID) → f.key = (userID, targetID)

variable {targetID userID : ID} {outcome : Outcome}

theorem onlyOwn_of_sendWrite {t : Tables} (h : sendWrite t userID targetID = .insert) :
    OnlyOwn t userID targetID := by
  unfold sendWrite at h
  split at h
  · cases h
  · rename_i hfriends
    split at h
    · cases h
    · rename_i hreverse
      intro f hf hpair
      rcases Sym2.eq_iff.mp hpair with ⟨hreq, haddr⟩ | ⟨hreq, haddr⟩
      · exact Prod.ext hreq haddr
      · -- a row in the other direction would have been found by one of the two queries
        exfalso
        cases hstatus : f.status with
        | accepted => exact hfriends (areFriends_iff.mpr ⟨f, hf, hpair, hstatus⟩)
        | pending =>
          refine hreverse (hasRequested_iff.mpr ⟨f, hf, ?_⟩)
          exact decide_eq_true ⟨hreq, haddr, hstatus⟩

theorem friendPairLockKey_of_pair {a b c d : ID} (h : s(a, b) = s(c, d)) :
    friendPairLockKey a b = friendPairLockKey c d := by
  rcases Sym2.eq_iff.mp h with ⟨rfl, rfl⟩ | ⟨rfl, rfl⟩
  · rfl
  · exact friendPairLockKey_comm a b

/-! ## Section 2: What a step does to the rows -/

variable {db db' : DB} {others : List Phase} {p p' : Phase}

/-- A request adds a row to those that are there. -/
structure Adds (db : DB) (others : List Phase) (p : Phase) (db' : DB) (userID targetID : ID) :
    Prop where
  sends : Sends db.tables userID targetID .insert p
  free : p.holds = some (friendPairLockKey userID targetID) ∨
    ∀ q ∈ others, q.holds ≠ some (friendPairLockKey userID targetID)
  fresh : exists? key (userID, targetID) db.tables.friendships = false
  rows : db'.tables.friendships =
    db.tables.friendships ++ [{ requesterID := userID, addresseeID := targetID }]
  blocks : db'.tables.userBlocks = db.tables.userBlocks

/-- No new rows: only `SendFriendRequest` inserts. -/
def Keeps (db db' : DB) : Prop :=
  (db'.tables.friendships.map key).Sublist (db.tables.friendships.map key)

theorem Keeps.refl (db : DB) : Keeps db db := Sublist.refl _

theorem keeps_deleteWhere {rows : Friendship → Bool}
    (h : db'.tables.friendships = deleteWhere rows db.tables.friendships) : Keeps db db' := by
  unfold Keeps
  rw [h]
  exact filter_sublist.map _

theorem keeps_acceptRequest {a b : ID}
    (h : db'.tables.friendships = acceptRequest a b db.tables.friendships) :
    Keeps db db' := by
  unfold Keeps
  rw [h, map_key_acceptRequest]

theorem Change.rows (h : Change db others p db' p') :
    (∃ userID targetID, Adds db others p db' userID targetID) ∨ Keeps db db' := by
  cases h with
  | read | wait | unfriend => exact Or.inr (Keeps.refl db)
  | send sends free write =>
    rename_i userID targetID statement accepted
    rcases run_ok write with
      ⟨-, -, rfl⟩ | ⟨-, -, htables⟩ | ⟨rfl, -, htables⟩
    · exact Or.inr (Keeps.refl _)
    · right
      apply keeps_acceptRequest
      rw [htables]
    · -- `ON CONFLICT DO NOTHING`
      cases hfresh : exists? key (userID, targetID) db.tables.friendships with
      | true =>
        right
        have hsame : db'.tables.friendships = db.tables.friendships := by
          rw [htables]
          exact insertNew_of_exists hfresh
        unfold Keeps
        rw [hsame]
      | false =>
        refine Or.inl ⟨userID, targetID, sends, free, hfresh, ?_, ?_⟩
        · rw [htables]
          exact insertNew_of_new hfresh
        · rw [htables]
  | accept write =>
    right
    apply keeps_acceptRequest
    rw [(FriendStore.acceptFriendRequest_ok write).2]
  | delete write =>
    right
    apply keeps_deleteWhere
    rw [deleteFriendships_ok write]
  | activate write =>
    right
    unfold Keeps
    rw [ChatStore.updateDMStatus_ok write]
  | block write =>
    right
    apply keeps_deleteWhere
    rw [commit_ok write]
    rfl
  | unblock write =>
    right
    unfold Keeps
    rw [unblockUser_ok write]

theorem Keeps.key_mem (h : Keeps db db') {f : Friendship} (hf : f ∈ db'.tables.friendships) :
    ∃ f₀ ∈ db.tables.friendships, f₀.key = f.key :=
  mem_map.mp (h.subset (mem_map_of_mem hf))

theorem Keeps.onlyOwn (h : Keeps db db') (hown : OnlyOwn db.tables userID targetID) :
    OnlyOwn db'.tables userID targetID := by
  intro f hf hpair
  obtain ⟨f₀, hf₀, hkey⟩ := h.key_mem hf
  rw [← hkey]
  apply hown f₀ hf₀
  rw [Friendship.pair_eq, hkey]
  exact hpair

theorem Keeps.oneRow (h : Keeps db db') (hone : OneRow db.tables) : OneRow db'.tables := by
  have hsub := h.map fun k => s(k.1, k.2)
  rw [map_map, map_map] at hsub
  exact hone.sublist hsub

theorem Adds.oneRow (h : Adds db others p db' userID targetID)
    (hown : OnlyOwn db.tables userID targetID) (hone : OneRow db.tables) : OneRow db'.tables := by
  unfold OneRow
  rw [h.rows]
  refine unique_snoc hone ?_
  -- a row of the pair would be in the same direction, and so the same row
  intro f hf heq
  have hexists : exists? key (userID, targetID) db.tables.friendships = true :=
    exists?_eq_true.mpr ⟨f, hf, hown f hf heq⟩
  rw [h.fresh] at hexists
  cases hexists

/-! ## Section 3: One row for a pair -/

/-- A request that waits to insert has seen no row in the other direction. -/
def WaitsOwn (db : DB) (p : Phase) : Prop :=
  ∀ userID targetID, p = .send (.waiting userID targetID .insert) →
    OnlyOwn db.tables userID targetID

/-- Two calls do not hold the same lock. -/
def Apart (_ : DB) (p q : Phase) : Prop := ∀ k, p.holds = some k → q.holds ≠ some k

theorem Apart.symm (db : DB) (p q : Phase) (h : Apart db p q) : Apart db q p :=
  fun k hq hp => h k hp hq

abbrev RowsInv : State → Prop := Pool.Inv (fun db => OneRow db.tables) WaitsOwn Apart

theorem Phase.Plain.waitsOwn (h : p.Plain) : WaitsOwn db p := by
  rintro userID targetID rfl
  cases h.holds

theorem Phase.Plain.apart (h : p.Plain) (q : Phase) : Apart db p q := by
  intro k hk
  rw [h.holds] at hk
  cases hk

theorem plain_start (call : FriendCall) : (start call).Plain := by
  have huser : ∀ (caller : Option ID) (userID : ID) (k : ID → Phase), (∀ id, (k id).Plain) →
      (withUser caller userID k).Plain := by
    intro caller userID k hk
    unfold withUser
    split
    · exact plain_refuse _
    · split
      · exact plain_refuse _
      · exact hk _
  cases call with
  | sendFriendRequest caller req =>
    simp only [start]
    split
    · exact plain_refuse _
    · exact ⟨rfl, rfl⟩
  | acceptFriendRequest | declineFriendRequest | cancelFriendRequest | removeFriend | unblockUser =>
    exact huser _ _ _ fun _ => ⟨rfl, rfl⟩
  | blockUser caller userID =>
    refine huser _ _ _ ?_
    intro id
    split
    · exact plain_refuse _
    · split
      · exact plain_refuse _
      · exact ⟨rfl, rfl⟩

theorem Adds.onlyOwn {u v : ID} (h : Adds db others p db' userID targetID)
    (hkey : friendPairLockKey userID targetID ≠ friendPairLockKey u v)
    (hown : OnlyOwn db.tables u v) : OnlyOwn db'.tables u v := by
  intro f hf hpair
  rw [h.rows] at hf
  rcases mem_append.mp hf with hf | hf
  · exact hown f hf hpair
  · rw [mem_singleton.mp hf] at hpair
    exact absurd (friendPairLockKey_of_pair hpair) hkey

theorem Change.waitsOwn (h : Change db others p db' p') {q : Phase} (hq : q ∈ others)
    (hapart : Apart db p q) (hown : WaitsOwn db q) : WaitsOwn db' q := by
  rintro u v rfl
  rcases h.rows with ⟨userID, targetID, hadds⟩ | hkeeps
  · -- who waits holds the lock of its pair, so the new row is for another one
    refine hadds.onlyOwn ?_ (hown u v rfl)
    intro hkey
    rcases hadds.free with hheld | hfree
    · exact hapart _ hheld (congrArg some hkey.symm)
    · exact hfree _ hq (congrArg some hkey.symm)
  · exact hkeeps.onlyOwn (hown u v rfl)

theorem Sends.onlyOwn (h : Sends db.tables userID targetID .insert p) (hown : WaitsOwn db p) :
    OnlyOwn db.tables userID targetID := by
  generalize hstatement : insert = statement at h
  cases h with
  | permitted => exact onlyOwn_of_sendWrite hstatement.symm
  | waiting =>
    subst hstatement
    exact hown userID targetID rfl

theorem Change.oneRow (h : Change db others p db' p') (hown : WaitsOwn db p)
    (hone : OneRow db.tables) : OneRow db'.tables := by
  rcases h.rows with ⟨userID, targetID, hadds⟩ | hkeeps
  · exact hadds.oneRow (hadds.sends.onlyOwn hown) hone
  · exact hkeeps.oneRow hone

/-- The phase after a step. -/
theorem Change.phase (h : Change db others p db' p') : WaitsOwn db' p' ∧
    ∀ q ∈ others, Apart db' p' q := by
  have hplain : p'.Plain → WaitsOwn db' p' ∧ ∀ q ∈ others, Apart db' p' q :=
    fun hplain => ⟨hplain.waitsOwn, fun q _ => hplain.apart q⟩
  cases h with
  | read plain => exact hplain plain
  | wait found free =>
    refine ⟨?_, ?_⟩
    · intro u v heq
      cases heq
      exact onlyOwn_of_sendWrite found.symm
    · intro q hq k hk
      cases hk
      exact free q hq
  | send | accept => exact hplain ⟨rfl, rfl⟩
  | delete | activate | block | unblock => exact hplain plain_done
  | unfriend =>
    refine ⟨?_, ?_⟩
    · intro u v heq
      cases heq
    · intro q _ k hk
      cases hk

theorem rowsInv_next : Pool.NextKeeps next RowsInv := by
  intro sh p others outcome sh' p' h hnext
  have hchange := next_change hnext
  have hown : WaitsOwn sh p := h.each p mem_cons_self
  obtain ⟨hown', hapart'⟩ := hchange.phase
  refine h.replace (hchange.oneRow hown h.shared) hown' ?_ fun _ _ hapart => hapart
  intro q hq hownq hapart
  exact ⟨hchange.waitsOwn hq hapart hownq, hapart' q hq⟩

theorem rowsInv_start : Pool.StartKeeps start RowsInv := by
  intro sh calls call h
  exact h.cons (plain_start call).waitsOwn fun q _ => (plain_start call).apart q

theorem oneRow_exec (hone : OneRow db.tables) (evs : List Event) :
    OneRow (exec step (initial db) evs).shared.tables :=
  (Pool.keeps_always (J := RowsInv) (.perm .symm) rowsInv_start rowsInv_next
    (.init hone) evs).shared

/-! ## Section 4: No row for a blocked pair -/

/-- The row that `SendFriendRequest` is about to insert. -/
def Phase.insertsRow (t : Tables) : Phase → Option (ID × ID)
  | .send (.permitted userID targetID) =>
    if sendWrite t userID targetID = .insert ∧
        exists? key (userID, targetID) t.friendships = false then
      some (userID, targetID)
    else none
  | .send (.waiting userID targetID .insert) =>
    if exists? key (userID, targetID) t.friendships = false then
      some (userID, targetID)
    else none
  | _ => none

/-- When a row is inserted, neither user blocks the other and no `BlockUser` for them
    has deleted the friendships without having committed yet. -/
def StillClear (db : DB) (others : List Phase) (p : Phase) (_ : Outcome) : Prop :=
  ∀ row ∈ p.insertsRow db.tables,
    isBlockedEither db.tables row.1 row.2 = false ∧
      ∀ q ∈ others, ∀ o ∈ q.unfriends, o.1 ≠ s(row.1, row.2)

instance (db : DB) (others : List Phase) (p : Phase) (outcome : Outcome) :
    Decidable (StillClear db others p outcome) :=
  inferInstanceAs (Decidable (∀ row ∈ p.insertsRow db.tables, _ ∧ _))

/-- An open transaction has deleted all that there is between the two users. -/
def Unfriended (db : DB) (p : Phase) : Prop :=
  ∀ pair deleted, p.unfriends = some (pair, deleted) →
    ∀ f ∈ db.tables.friendships, f.pair = pair → f.key ∈ deleted

abbrev ClearInv : State → Prop :=
  Pool.Inv (fun db => Clear db.tables) Unfriended fun _ _ _ => True

theorem Adds.insertsRow (h : Adds db others p db' userID targetID) :
    p.insertsRow db.tables = some (userID, targetID) := by
  have hsends := h.sends
  generalize hstatement : insert = statement at hsends
  cases hsends with
  | permitted =>
    simp only [Phase.insertsRow]
    rw [if_pos ⟨hstatement.symm, h.fresh⟩]
  | waiting =>
    subst hstatement
    simp only [Phase.insertsRow]
    rw [if_pos h.fresh]

theorem Change.blocks (h : Change db others p db' p') :
    db'.tables.userBlocks ⊆ db.tables.userBlocks ∨
      ∃ userID targetID new deleted, p = .block (.removed userID targetID new deleted) ∧
        db'.tables = blocked db.tables userID targetID new deleted := by
  cases h with
  | read | wait | unfriend => exact Or.inl fun _ hb => hb
  | send sends free write =>
    left
    rcases run_ok write with
      ⟨-, -, rfl⟩ | ⟨-, -, htables⟩ | ⟨-, -, htables⟩
    · exact fun _ hb => hb
    · rw [htables]
      exact fun _ hb => hb
    · rw [htables]
      exact fun _ hb => hb
  | accept write =>
    left
    rw [(FriendStore.acceptFriendRequest_ok write).2]
    exact fun _ hb => hb
  | delete write =>
    left
    rw [deleteFriendships_ok write]
    exact fun _ hb => hb
  | activate write =>
    left
    rw [ChatStore.updateDMStatus_ok write]
    exact fun _ hb => hb
  | block write => exact Or.inr ⟨_, _, _, _, rfl, commit_ok write⟩
  | unblock write =>
    left
    rw [unblockUser_ok write]
    exact fun _ hb => (mem_deleteWhere.mp hb).1

section Tables

variable {t t' : Tables} {a b : ID}

theorem isBlockedEither_mono (hblocks : t'.userBlocks ⊆ t.userBlocks)
    (h : isBlockedEither t a b = false) : isBlockedEither t' a b = false := by
  rw [Bool.eq_false_iff] at h ⊢
  intro hblocked
  obtain ⟨x, hx, hpair⟩ := isBlockedEither_iff.mp hblocked
  exact h (isBlockedEither_iff.mpr ⟨x, hblocks hx, hpair⟩)

theorem isBlockedEither_blockUserTx {u v : ID} (hne : s(a, b) ≠ s(u, v))
    (h : isBlockedEither t a b = false)
    (hblocks : ∀ x ∈ t'.userBlocks, x ∈ t.userBlocks ∨ x = { blockerID := u, blockedID := v }) :
    isBlockedEither t' a b = false := by
  rw [Bool.eq_false_iff] at h ⊢
  intro hblocked
  obtain ⟨x, hx, hpair⟩ := isBlockedEither_iff.mp hblocked
  rcases hblocks x hx with hx | rfl
  · exact h (isBlockedEither_iff.mpr ⟨x, hx, hpair⟩)
  · exact hne hpair.symm

theorem mem_blocked_userBlocks {new : Bool} {deleted : List (ID × ID)} {x : UserBlock}
    (hx : x ∈ (blocked t a b new deleted).userBlocks) :
    x ∈ t.userBlocks ∨ x = { blockerID := a, blockedID := b } := by
  cases new with
  | false => exact .inl hx
  | true =>
    rcases mem_insertNew.mp hx with hx | ⟨hx, -⟩
    · exact .inl hx
    · exact .inr hx

end Tables

theorem Keeps.clear (h : Keeps db db') (hblocks : db'.tables.userBlocks ⊆ db.tables.userBlocks)
    (hclear : Clear db.tables) : Clear db'.tables := by
  intro f hf
  obtain ⟨f₀, hf₀, hkey⟩ := h.key_mem hf
  obtain ⟨hreq, haddr⟩ := Prod.mk.inj hkey
  rw [← hreq, ← haddr]
  exact isBlockedEither_mono hblocks (hclear f₀ hf₀)

theorem Adds.clear (h : Adds db others p db' userID targetID) (hclear : Clear db.tables)
    (hstill : StillClear db others p outcome) : Clear db'.tables := by
  have hblocks : db'.tables.userBlocks ⊆ db.tables.userBlocks := by
    rw [h.blocks]
    exact fun _ hb => hb
  intro f hf
  rw [h.rows] at hf
  rcases mem_append.mp hf with hf | hf
  · exact isBlockedEither_mono hblocks (hclear f hf)
  · rw [mem_singleton.mp hf]
    exact isBlockedEither_mono hblocks (hstill _ h.insertsRow).1

theorem blocked_clear {new : Bool} {deleted : List (ID × ID)} (hclear : Clear db.tables)
    (hunfriended : Unfriended db (.block (.removed userID targetID new deleted))) :
    Clear (blocked db.tables userID targetID new deleted) := by
  intro f hf
  obtain ⟨hf, hkept⟩ := mem_deleteWhere.mp hf
  refine isBlockedEither_blockUserTx ?_ (hclear f hf) fun x hx => mem_blocked_userBlocks hx
  intro hpair
  have hdeleted := hunfriended _ _ rfl f hf hpair
  simp [hdeleted] at hkept

theorem Change.clear (h : Change db others p db' p') (hclear : Clear db.tables)
    (hunfriended : Unfriended db p) (hstill : StillClear db others p outcome) :
    Clear db'.tables := by
  rcases h.rows with ⟨userID, targetID, hadds⟩ | hkeeps
  · exact hadds.clear hclear hstill
  · rcases h.blocks with hblocks | ⟨userID, targetID, new, deleted, rfl, htables⟩
    · exact hkeeps.clear hblocks hclear
    · rw [htables]
      exact blocked_clear hclear hunfriended

/-- What an open transaction has deleted stays all there is. -/
theorem Change.unfriended (h : Change db others p db' p') {q : Phase} (hq : q ∈ others)
    (hunfriended : Unfriended db q) (hstill : StillClear db others p outcome) :
    Unfriended db' q := by
  intro pair deleted hopen f hf hpair
  rcases h.rows with ⟨userID, targetID, hadds⟩ | hkeeps
  · rw [hadds.rows] at hf
    rcases mem_append.mp hf with hf | hf
    · exact hunfriended pair deleted hopen f hf hpair
    · rw [mem_singleton.mp hf] at hpair
      exact absurd hpair.symm ((hstill _ hadds.insertsRow).2 q hq _ hopen)
  · obtain ⟨f₀, hf₀, hkey⟩ := hkeeps.key_mem hf
    rw [← hkey]
    apply hunfriended pair deleted hopen f₀ hf₀
    rw [Friendship.pair_eq, hkey]
    exact hpair

theorem Phase.Plain.unfriended (h : p.Plain) : Unfriended db p := by
  intro pair deleted hopen
  rw [h.unfriends] at hopen
  cases hopen

theorem Change.phase_unfriended (h : Change db others p db' p') : Unfriended db' p' := by
  have hplain : p'.Plain → Unfriended db' p' := Phase.Plain.unfriended
  cases h with
  | read plain => exact hplain plain
  | wait found free =>
    intro pair deleted hopen
    cases hopen
  | send | accept => exact hplain ⟨rfl, rfl⟩
  | delete | activate | block | unblock => exact hplain plain_done
  | unfriend =>
    intro pair deleted hopen f hf hpair
    cases hopen
    refine mem_map_of_mem (mem_filter.mpr ⟨hf, ?_⟩)
    exact joins_iff.mpr hpair

theorem clearInv_next : Pool.AllowedKeeps StillClear next ClearInv := by
  intro sh p others outcome sh' p' h hstill hnext
  have hchange := next_change hnext
  have hunfriended : Unfriended sh p := h.each p mem_cons_self
  refine h.replace (hchange.clear h.shared hunfriended hstill) hchange.phase_unfriended ?_
    fun _ _ _ => trivial
  intro q hq hother _
  exact ⟨hchange.unfriended hq hother hstill, trivial⟩

theorem clearInv_start : Pool.StartKeeps start ClearInv := by
  intro sh calls call h
  exact h.cons (plain_start call).unfriended fun _ _ => trivial

/-- A pair has one row in every run, and none while one blocks the other if rows are
    inserted only for pairs that are clear by then. -/
theorem friendships_kept {db : DB} (hone : OneRow db.tables) (hclear : Clear db.tables)
    (evs : List Event) :
    OneRow (exec step (initial db) evs).shared.tables ∧
      (Guarded step (Pool.Allows (fun _ _ => True) StillClear) (initial db) evs →
        Clear (exec step (initial db) evs).shared.tables) := by
  refine ⟨oneRow_exec hone evs, ?_⟩
  intro hrun
  have hinv : ClearInv (exec step (initial db) evs) :=
    Pool.keeps_exec (.perm fun _ _ _ _ => trivial)
      (fun sh calls call h _ => clearInv_start sh calls call h) clearInv_next
      (.init hclear) hrun
  exact hinv.shared

/-! ## Section 5: A block between check and insert -/

def pairTables : Tables where
  users := [{ id := "ann" }, { id := "bob" }]

def pairDB : DB := ⟨pairTables, by decide +kernel⟩

def annRequests : Event := .start (.sendFriendRequest (some "ann") { userID := "bob" })

def bobBlocks : Event := .start (.blockUser (some "bob") "ann")

/-- Ann's request is there before Bob blocks her. -/
theorem friendships_kept_pair :
    OneRow (exec step (initial pairDB)
        (annRequests :: replicate 7 (.advance 0 {}) ++
          bobBlocks :: replicate 3 (.advance 1 {}))).shared.tables ∧
      Clear (exec step (initial pairDB)
        (annRequests :: replicate 7 (.advance 0 {}) ++
          bobBlocks :: replicate 3 (.advance 1 {}))).shared.tables := by
  have hkept := @friendships_kept pairDB (by decide +kernel) (by decide +kernel)
    (annRequests :: replicate 7 (.advance 0 {}) ++ bobBlocks :: replicate 3 (.advance 1 {}))
  exact ⟨hkept.1, hkept.2 (by decide +kernel)⟩

/-- Bob blocks Ann after her request has looked at the blocks. -/
def blockWhileRequesting : List Event :=
  [annRequests, bobBlocks] ++ replicate 5 (.advance 0 {}) ++
    replicate 3 (.advance 1 {}) ++ replicate 2 (.advance 0 {})

theorem blockWhileRequesting_requested :
    OneRow pairDB.tables ∧ Clear pairDB.tables ∧
      Pool.Quiescent Phase.finished (exec step (initial pairDB) blockWhileRequesting) ∧
      ¬ Clear (exec step (initial pairDB) blockWhileRequesting).shared.tables := by
  decide +kernel

end Meza.Social.Friending
