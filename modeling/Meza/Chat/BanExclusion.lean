import Meza.Chat.Joining

/-! # Nobody is banned and a member

    `JoinServer` looks at the bans before it takes a use of the invite and adds
    the member; `BanMember` looks at the members before it writes a ban that
    removes nobody. Nothing holds these checks in place. As long as they still
    hold when the row is written, the two tables stay apart. -/

namespace Meza.Chat.Joining

open Store ChatStore Table

/-! ## Section 1: The two tables -/

/-- No row of `bans` has its user in `members`. -/
def Exclusive (t : Tables) : Prop :=
  ∀ b ∈ t.bans, isMember t b.userID b.serverID = false

instance (t : Tables) : Decidable (Exclusive t) := inferInstanceAs (Decidable (∀ _ ∈ t.bans, _))

/-- The ban that `CreateBan` is about to insert. -/
def Phase.bansStranger : Phase → Option Ban
  | .ban (.stranger b) => some b
  | _ => none

/-- What the handler has checked before still holds when it writes: `JoinServer` that
    the user is not banned, `BanMember` that the user is no member. -/
def StillHolds (db : DB) (_others : List Phase) (p : Phase) (_ : Outcome) : Prop :=
  (∀ m ∈ p.adds, isBanned db.tables m.serverID m.userID = false) ∧
    ∀ b ∈ p.bansStranger, isMember db.tables b.userID b.serverID = false

instance (db : DB) (others : List Phase) (p : Phase) (outcome : Outcome) :
    Decidable (StillHolds db others p outcome) := inferInstanceAs (Decidable (_ ∧ _))

section Tables

variable {t t' : Tables} {userID serverID : ID}

theorem Exclusive.mono (h : Exclusive t) (hbans : t'.bans ⊆ t.bans)
    (hmembers : t'.members ⊆ t.members) : Exclusive t' := by
  intro b hb
  have hnot := h b (hbans hb)
  rw [Bool.eq_false_iff] at hnot ⊢
  intro hmember
  obtain ⟨m, hm, hkey⟩ := isMember_iff.mp hmember
  exact hnot (isMember_iff.mpr ⟨m, hmembers hm, hkey⟩)

theorem Exclusive.add (h : Exclusive t) (hfree : isBanned t serverID userID = false) :
    Exclusive { t with members := insertNew Member.key { userID, serverID } t.members } := by
  intro b hb
  have hnot := h b hb
  rw [Bool.eq_false_iff] at hnot hfree ⊢
  intro hmember
  obtain ⟨m, hm, hkey⟩ := isMember_iff.mp hmember
  rcases mem_insertNew.mp hm with hm | ⟨rfl, -⟩
  · exact hnot (isMember_iff.mpr ⟨m, hm, hkey⟩)
  · -- the new member would be banned already
    obtain ⟨huser, hserver⟩ := Prod.mk.inj hkey
    apply hfree
    refine exists?_eq_true.mpr ⟨b, hb, ?_⟩
    exact Prod.ext hserver.symm huser.symm

theorem Exclusive.ban (h : Exclusive t)
    {ban : Ban} {bans : List Ban} (hbans : ∀ b ∈ bans, b ∈ t.bans ∨ b = ban)
    (hfree : isMember t ban.userID ban.serverID = false) : Exclusive { t with bans } := by
  intro b hb
  rcases hbans b hb with hb | rfl
  · exact h b hb
  · exact hfree

theorem isMember_withoutMember :
    isMember (withoutMember t userID serverID) userID serverID = false := by
  rw [Bool.eq_false_iff]
  intro hmember
  obtain ⟨m, hm, hkey⟩ := isMember_iff.mp hmember
  have hgone := (mem_deleteWhere.mp hm).2
  obtain ⟨huser, hserver⟩ := Prod.mk.inj hkey
  simp [huser, hserver] at hgone

end Tables

/-! ## Section 2: Steps and runs -/

theorem Change.exclusive {db db' : DB} {outcome : Outcome} {others : List Phase} {p p' : Phase}
    (h : Change db outcome p db' p') (hex : Exclusive db.tables)
    (hstill : StillHolds db others p outcome) : Exclusive db'.tables := by
  cases h with
  | read | lose => exact hex
  | consume write | miss write =>
    rw [(consumeInvite_used write).2]
    exact hex
  | add write =>
    rw [addMember_ok write]
    exact hex.add (hstill.1 _ rfl)
  | banMember write =>
    rename_i callerPos ban
    rw [createBanAndRemoveMember_ok write]
    -- the member goes in the same transaction
    have hremoved : Exclusive (withoutMember db.tables ban.userID ban.serverID) :=
      hex.mono (fun _ hb => hb) (fun _ hm => (mem_deleteWhere.mp hm).1)
    refine hremoved.ban ?_ isMember_withoutMember
    intro b hb
    rcases List.mem_append.mp hb with hb | hb
    · exact .inl hb
    · exact .inr (List.mem_singleton.mp hb)
  | leaveChannels write =>
    obtain ⟨channelMembers, htables⟩ := removeChannelMembersForServer_ok write
    rw [htables]
    exact hex
  | banStranger write aside =>
    -- nobody is removed here, so the banned user must not be a member
    rw [createBan_ok write]
    refine hex.ban ?_ (hstill.2 _ rfl)
    intro b hb
    rcases mem_insertNew.mp hb with hb | ⟨rfl, -⟩
    · exact .inl hb
    · exact .inr rfl
  | unban write =>
    rw [deleteBan_ok write]
    exact hex.mono (fun _ hb => (mem_deleteWhere.mp hb).1) (fun _ hm => hm)
  | revoke write =>
    rw [revokeInvite_ok write]
    exact hex
  | clean write =>
    rw [cleanExpiredKeyBundles_ok write]
    exact hex

/-- In every run in which the checks still hold when the rows are written, nobody is
    banned and a member. -/
theorem exclusive_run {db : DB} (hex : Exclusive db.tables) (evs : List Event)
    (hrun : Run.Guarded step (Pool.Allows (fun _ _ => True) StillHolds) (initial db) evs) :
    Exclusive (Run.exec step (initial db) evs).shared.tables := by
  refine @Pool.keeps_exec _ _ _ _ start next (fun s => Exclusive s.shared.tables)
    (fun _ _ => True) StillHolds ?_ ?_ ?_ _ evs hex hrun
  · intro sh l l' _ h
    exact h
  · intro sh calls call h _
    exact h
  · intro sh p others outcome sh' p' h hstill hnext
    exact (next_change hnext).exclusive h hstill

/-! ## Section 3: A ban between check and insert -/

def partyTables : Tables where
  users := [{ id := "owner", signingPublicKey := none },
    { id := "guest", signingPublicKey := none }]
  servers := [{ id := "srv", ownerID := "owner" }]
  members := [{ userID := "owner", serverID := "srv" }]
  roles := [{ id := "srv", serverID := "srv", name := "@everyone", permissions := 0,
              position := 0 }]
  invites := [{ code := "hello", serverID := "srv", creatorID := "owner", maxUses := 2 }]

def partyDB : DB := ⟨partyTables, by decide +kernel⟩

def guestJoins : Event := .start (.joinServer (some "guest") { inviteCode := "hello" })

def ownerBans : Event :=
  .start (.banMember (some "owner") { serverID := "srv", userID := "guest", reason := "spam" })

/-- The ban waits until the guest has joined. -/
theorem exclusive_run_party :
    Exclusive (Run.exec step (initial partyDB)
      (guestJoins :: List.replicate 6 (.advance 0 {}) ++
        ownerBans :: List.replicate 7 (.advance 1 {}))).shared.tables :=
  exclusive_run (by decide +kernel) _ (by decide +kernel)

/-- The guest is banned after `JoinServer` has looked at the bans. -/
def banWhileJoining : List Event :=
  [guestJoins, ownerBans] ++ .replicate 3 (.advance 0 {}) ++
    .replicate 5 (.advance 1 {}) ++ .replicate 3 (.advance 0 {})

theorem banWhileJoining_both :
    Exclusive partyDB.tables ∧
      Pool.Quiescent Phase.finished (Run.exec step (initial partyDB) banWhileJoining) ∧
      ¬ Exclusive (Run.exec step (initial partyDB) banWhileJoining).shared.tables := by
  decide +kernel

end Meza.Chat.Joining
