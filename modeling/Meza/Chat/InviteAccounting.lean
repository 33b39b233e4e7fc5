import Meza.Chat.Joining

/-! # Uses of an invite

    `ConsumeInvite` is one conditional update, so an invite is never used more
    often than it allows, admits nobody once it is revoked, expired or used up,
    and loses its key bundle with its last use. This holds in every run.

    That every use makes a member does not: the membership is looked up before
    the use is taken and written after it, so the same user can take two uses,
    and a use is lost when the member cannot be added. Section 3 shows that
    these are the only ways to lose one. -/

namespace Meza.Chat.Joining

open Store ChatStore List Table Run Invite Option
open ChatStore (Invite.usable Invite.exhausted Invite.used Invite.withoutKeys)

/-! ## Section 1: Rows of `invites` -/

/-- No more uses than allowed, and no key bundle where nobody is admitted any more. -/
structure Sealed (i : Invite) : Prop where
  uses : 0 < i.maxUses → i.useCount ≤ i.maxUses
  keys : exhausted i = true ∨ i.revoked = true →
    i.encryptedChannelKeys = none ∧ i.channelKeysIV = none

variable {db db' : DB} {i : Invite} {outcome : Outcome} {p p' : Phase}

theorem usable_iff {now : Int} :
    usable now i = true ↔ i.revoked = false ∧ (∀ e ∈ i.expiresAt, now < e) ∧
      (i.maxUses = 0 ∨ i.useCount < i.maxUses) := by
  unfold usable
  rw [decide_eq_true_iff]

theorem Sealed.used {now : Int} {i : Invite} (h : usable now i = true) : Sealed (used i) := by
  obtain ⟨hrevoked, -, hleft⟩ := usable_iff.mp h
  constructor
  · intro hmax
    rw [Invite.used_maxUses] at hmax ⊢
    rw [Invite.used_useCount]
    omega
  · intro hdone
    have hlast : 0 < i.maxUses ∧ i.maxUses ≤ i.useCount + 1 := by
      rcases hdone with hdone | hdone
      · unfold exhausted at hdone
        exact of_decide_eq_true hdone
      · rw [Invite.used_revoked, hrevoked] at hdone
        cases hdone
    exact ⟨if_pos hlast, if_pos hlast⟩

theorem Sealed.withoutKeys (h : Sealed i) (revoked : Bool) :
    Sealed { withoutKeys i with revoked } where
  uses := h.uses
  keys := fun _ => ⟨rfl, rfl⟩

section

variable (h : Change db outcome p db' p')
include h

theorem Change.invites (hi : i ∈ db'.tables.invites) :
    i ∈ db.tables.invites ∨
      (∃ i₀ ∈ db.tables.invites, usable outcome.now i₀ = true ∧ i = used i₀) ∨
      ∃ i₀ ∈ db.tables.invites, ∃ revoked, i = { withoutKeys i₀ with revoked } := by
  cases h with
  | read | lose => exact .inl hi
  | consume write | miss write =>
    rw [(consumeInvite_used write).2] at hi
    obtain ⟨i₀, hi₀, rfl⟩ := mem_updateWhere.mp hi
    split
    · rename_i hcond
      exact .inr (.inl ⟨i₀, hi₀, (of_decide_eq_true hcond).2, rfl⟩)
    · exact .inl hi₀
  | add write =>
    rw [addMember_ok write] at hi
    exact .inl hi
  | banMember write =>
    rw [createBanAndRemoveMember_ok write] at hi
    exact .inl hi
  | leaveChannels write =>
    obtain ⟨channelMembers, htables⟩ := removeChannelMembersForServer_ok write
    rw [htables] at hi
    exact .inl hi
  | banStranger write aside =>
    rw [createBan_ok write] at hi
    exact .inl hi
  | unban write =>
    rw [deleteBan_ok write] at hi
    exact .inl hi
  | revoke write =>
    rw [revokeInvite_ok write] at hi
    obtain ⟨i₀, hi₀, rfl⟩ := mem_updateWhere.mp hi
    split
    · exact .inr (.inr ⟨i₀, hi₀, true, rfl⟩)
    · exact .inl hi₀
  | clean write =>
    rw [cleanExpiredKeyBundles_ok write] at hi
    obtain ⟨i₀, hi₀, rfl⟩ := mem_updateWhere.mp hi
    split
    · exact .inr (.inr ⟨i₀, hi₀, i₀.revoked, rfl⟩)
    · exact .inl hi₀

theorem Change.sealed (hs : ∀ i ∈ db.tables.invites, Sealed i) :
    ∀ i ∈ db'.tables.invites, Sealed i := by
  intro i hi
  rcases h.invites hi with hi | ⟨i₀, -, husable, rfl⟩ | ⟨i₀, hi₀, revoked, rfl⟩
  · exact hs i hi
  · exact .used husable
  · exact (hs i₀ hi₀).withoutKeys revoked

/-! ## Section 2: Who is admitted -/

/-- A step takes a use only of an invite that admits somebody at that moment, and
    makes only those members whose join has taken one. -/
structure Admission (s : State) (ev : Event) : Prop where
  use : ∀ (i : Nat) (p p' : Phase) (code : String), s.calls[i]? = some p →
    (step s ev).calls[i]? = some p' → p.usedCode = none → p'.usedCode = some code →
    ∃ outcome inv, ev = .advance i outcome ∧ inv ∈ s.shared.tables.invites ∧ inv.code = code ∧
      usable outcome.now inv = true
  member : ∀ m ∈ (step s ev).shared.tables.members, m ∉ s.shared.tables.members →
    ∃ p ∈ s.calls, p.adds = some m ∧ p.usedCode ≠ none

theorem Change.use {code : String} (hp : p.usedCode = none)
    (hp' : p'.usedCode = some code) :
    ∃ inv ∈ db.tables.invites, inv.code = code ∧ usable outcome.now inv = true := by
  cases h with
  | consume write =>
    obtain ⟨hrow, -⟩ := consumeInvite_used write
    obtain ⟨inv, hinv, -⟩ := map_eq_some_iff.mp hrow.symm
    obtain ⟨hlook, husable⟩ := filter_eq_some_iff.mp hinv
    obtain ⟨hmem, hcode⟩ := mem_of_lookup hlook
    exact ⟨inv, hmem, hcode.trans (some.inj hp'), husable⟩
  | read aside | banStranger write aside =>
    rw [aside.used, hp] at hp'
    cases hp'
  | add | lose => cases hp
  | _ => cases hp'

theorem Change.member {m : Member} (hm : m ∈ db'.tables.members)
    (hnew : m ∉ db.tables.members) : p.adds = some m ∧ p.usedCode ≠ none := by
  cases h with
  | read | lose => exact absurd hm hnew
  | consume write | miss write =>
    rw [(consumeInvite_used write).2] at hm
    exact absurd hm hnew
  | add write =>
    rw [addMember_ok write] at hm
    rcases mem_insertNew.mp hm with hm | ⟨rfl, -⟩
    · exact absurd hm hnew
    · exact ⟨rfl, some_ne_none _⟩
  | banMember write =>
    rw [createBanAndRemoveMember_ok write] at hm
    exact absurd (mem_deleteWhere.mp hm).1 hnew
  | leaveChannels write =>
    obtain ⟨channelMembers, htables⟩ := removeChannelMembersForServer_ok write
    rw [htables] at hm
    exact absurd hm hnew
  | banStranger write aside =>
    rw [createBan_ok write] at hm
    exact absurd hm hnew
  | unban write =>
    rw [deleteBan_ok write] at hm
    exact absurd hm hnew
  | revoke write =>
    rw [revokeInvite_ok write] at hm
    exact absurd hm hnew
  | clean write =>
    rw [cleanExpiredKeyBundles_ok write] at hm
    exact absurd hm hnew

end

theorem admission (s : State) (ev : Event) : Admission s ev where
  use := by
    intro i p p' code hp hp' hnone hused
    rcases Pool.step_call hp hp' with rfl | ⟨outcome, rfl, hnext⟩
    · rw [hnone] at hused
      cases hused
    · obtain ⟨inv, hmem, hcode, husable⟩ := (next_change hnext).use hnone hused
      exact ⟨outcome, inv, rfl, hmem, hcode, husable⟩
  member := by
    intro m hm hnew
    rcases @Pool.step_shared _ _ _ _ start next s ev with
      hsame | ⟨i, outcome, p, p', -, hp, hnext, -⟩
    · rw [show (step s ev).shared = s.shared from hsame] at hm
      exact absurd hm hnew
    · exact ⟨p, mem_of_getElem? hp, (next_change hnext).member hm hnew⟩

/-! ## Section 3: Uses and members -/

/-- The number of joins that have taken a use of the invite. -/
def uses (code : String) (calls : List Phase) : Nat :=
  calls.countP fun p => p.usedCode = some code

/-- The number of members made through the invite. -/
def admitted (code : String) (calls : List Phase) : Nat :=
  calls.countP fun p => p.admittedBy = some code

/-- A join that has taken a use makes a new member: the insert does not fail, the user
    and the server exist, and the user is no member yet. -/
def NothingLost (db : DB) (_others : List Phase) (p : Phase) (outcome : Outcome) : Prop :=
  ∀ m ∈ p.adds, outcome.failed = false ∧ m.userID ∈ db.tables.users.map (·.id) ∧
    m.serverID ∈ db.tables.servers.map (·.id) ∧
    isMember db.tables m.userID m.serverID = false

instance (db : DB) (others : List Phase) (p : Phase) (outcome : Outcome) :
    Decidable (NothingLost db others p outcome) :=
  inferInstanceAs (Decidable (∀ m ∈ p.adds, _))

/-- Every use since `base` belongs to a join, and every join that has got further has
    made a member. -/
structure Accounted (base : Tables) (s : State) : Prop where
  uses : ∀ i ∈ s.shared.tables.invites, ∃ i₀ ∈ base.invites, i₀.code = i.code ∧
    i.useCount = i₀.useCount + uses i.code s.calls
  paid : ∀ p ∈ s.calls, p.adds = none → p.admittedBy = p.usedCode

theorem addMember_ok_of_new {userID serverID : ID} (huser : userID ∈ db.tables.users.map (·.id))
    (hserver : serverID ∈ db.tables.servers.map (·.id)) :
    ∃ db', addMember db userID serverID = .ok db' := by
  have hc := db.constraints
  have hmem : ∀ m ∈ insertNew Member.key { userID, serverID } db.tables.members,
      m ∈ db.tables.members ∨ m = { userID, serverID } := by
    intro m hm
    rcases mem_insertNew.mp hm with hm | ⟨rfl, -⟩
    · exact Or.inl hm
    · exact Or.inr rfl
  have hnew : Tables.Constraints { db.tables with
      members := insertNew Member.key { userID, serverID } db.tables.members } := by
    refine ⟨{ hc.servers with membersPK := ?_, membersUser := ?_, membersServer := ?_ },
      { hc.channels with }, { hc.roles with memberRolesMember := ?_ }⟩
    · exact unique_insertNew hc.servers.membersPK _
    · intro m hm
      rcases hmem m hm with hm | rfl
      · exact hc.servers.membersUser m hm
      · exact huser
    · intro m hm
      rcases hmem m hm with hm | rfl
      · exact hc.servers.membersServer m hm
      · exact hserver
    · intro mr hmr
      obtain ⟨m, hm, hkey⟩ := mem_map.mp (hc.roles.memberRolesMember mr hmr)
      exact mem_map.mpr ⟨m, mem_insertNew.mpr (Or.inl hm), hkey⟩
  exact ⟨⟨_, hnew⟩, dif_pos hnew⟩

/-- 1 if the phase has taken a use of the invite. -/
def Phase.weight (code : String) (p : Phase) : Nat := if p.usedCode = some code then 1 else 0

theorem uses_cons (code : String) (p : Phase) (calls : List Phase) :
    uses code (p :: calls) = uses code calls + p.weight code := by
  unfold uses Phase.weight
  rw [countP_cons]
  simp

/-- `ConsumeInvite` takes a use of the invite that it returns, and no other. -/
theorem consumeInvite_counts {now : Int} {code : String} {row : Option Invite}
    (h : consumeInvite db now code = .ok (row, db')) (hi : i ∈ db'.tables.invites) :
    ∃ i₀ ∈ db.tables.invites, i₀.code = i.code ∧
      i.useCount = i₀.useCount + if row ≠ none ∧ i.code = code then 1 else 0 := by
  have hpk := db.constraints.servers.invitesPK
  obtain ⟨hrow, htables⟩ := consumeInvite_used h
  rw [htables] at hi
  obtain ⟨i₀, hi₀, rfl⟩ := mem_updateWhere.mp hi
  by_cases hcode : i₀.code = code
  · -- the row with the code is updated just when it is returned
    have hlook := lookup_of_mem hpk hi₀
    rw [hcode] at hlook
    rw [hlook] at hrow
    by_cases husable : usable now i₀ = true
    · rw [if_pos (decide_eq_true ⟨hcode, husable⟩)]
      refine ⟨i₀, hi₀, rfl, ?_⟩
      simp [hrow, hcode, husable]
    · rw [if_neg (by simp [husable])]
      refine ⟨i₀, hi₀, rfl, ?_⟩
      simp [hrow, husable]
  · rw [if_neg (by simp [hcode])]
    refine ⟨i₀, hi₀, rfl, ?_⟩
    simp [hcode]

theorem updateWhere_counts {rows : List Invite} {q : Invite → Bool} {f : Invite → Invite}
    (hi : i ∈ updateWhere q f rows)
    (hf : ∀ i, (f i).code = i.code ∧ (f i).useCount = i.useCount) :
    ∃ i₀ ∈ rows, i₀.code = i.code ∧ i.useCount = i₀.useCount := by
  obtain ⟨i₀, hi₀, rfl⟩ := mem_updateWhere.mp hi
  refine ⟨i₀, hi₀, ?_⟩
  split
  · exact ⟨(hf i₀).1.symm, (hf i₀).2⟩
  · exact ⟨rfl, rfl⟩

theorem Change.counted {db db' : DB} {outcome : Outcome} {others : List Phase} {p p' : Phase}
    (h : Change db outcome p db' p') (hkept : NothingLost db others p outcome) {i : Invite}
    (hi : i ∈ db'.tables.invites) :
    ∃ i₀ ∈ db.tables.invites, i₀.code = i.code ∧
      i.useCount + p.weight i.code = i₀.useCount + p'.weight i.code := by
  cases h with
  | read aside =>
    refine ⟨i, hi, rfl, ?_⟩
    unfold Phase.weight
    rw [aside.used]
  | lose cause =>
    -- the insert cannot fail
    obtain ⟨hok, huser, hserver, -⟩ := hkept _ rfl
    rcases cause with hfailed | ⟨e, herr⟩
    · rw [hok] at hfailed
      cases hfailed
    · obtain ⟨db', hdb'⟩ := addMember_ok_of_new huser hserver
      rw [hdb'] at herr
      cases herr
  | consume write =>
    obtain ⟨i₀, hi₀, hcode, hcount⟩ := consumeInvite_counts write hi
    refine ⟨i₀, hi₀, hcode, ?_⟩
    rw [hcount]
    simp [Phase.weight, Phase.usedCode, eq_comm]
  | miss write =>
    obtain ⟨i₀, hi₀, hcode, hcount⟩ := consumeInvite_counts write hi
    refine ⟨i₀, hi₀, hcode, ?_⟩
    rw [hcount]
    rfl
  | add write =>
    rw [addMember_ok write] at hi
    exact ⟨i, hi, rfl, rfl⟩
  | banMember write =>
    rw [createBanAndRemoveMember_ok write] at hi
    exact ⟨i, hi, rfl, rfl⟩
  | leaveChannels write =>
    obtain ⟨channelMembers, htables⟩ := removeChannelMembersForServer_ok write
    rw [htables] at hi
    exact ⟨i, hi, rfl, rfl⟩
  | banStranger write aside =>
    rw [createBan_ok write] at hi
    refine ⟨i, hi, rfl, ?_⟩
    unfold Phase.weight
    rw [aside.used]
  | unban write =>
    rw [deleteBan_ok write] at hi
    exact ⟨i, hi, rfl, rfl⟩
  | revoke write =>
    rw [revokeInvite_ok write] at hi
    obtain ⟨i₀, hi₀, hcode, hcount⟩ := updateWhere_counts hi fun _ => ⟨rfl, rfl⟩
    exact ⟨i₀, hi₀, hcode, congrArg (· + 0) hcount⟩
  | clean write =>
    rw [cleanExpiredKeyBundles_ok write] at hi
    obtain ⟨i₀, hi₀, hcode, hcount⟩ := updateWhere_counts hi fun _ => ⟨rfl, rfl⟩
    exact ⟨i₀, hi₀, hcode, congrArg (· + 0) hcount⟩

theorem Change.paid {others : List Phase} (h : Change db outcome p db' p')
    (hkept : NothingLost db others p outcome) (hpaid : p.adds = none → p.admittedBy = p.usedCode)
    (hp' : p'.adds = none) : p'.admittedBy = p'.usedCode := by
  cases h with
  | read aside | banStranger write aside =>
    rw [aside.used, aside.admitted]
    exact hpaid aside.adds
  | consume write => cases hp'
  | add write =>
    obtain ⟨-, -, -, hnew⟩ := hkept _ rfl
    rw [hnew]
    rfl
  | _ => rfl

theorem Change.accounted {base : Tables} {others : List Phase} (h : Change db outcome p db' p')
    (hacc : Accounted base { shared := db, calls := p :: others })
    (hkept : NothingLost db others p outcome) :
    Accounted base { shared := db', calls := p' :: others } where
  uses := by
    intro i hi
    obtain ⟨i₁, hi₁, hcode₁, hstep⟩ := h.counted hkept hi
    obtain ⟨i₀, hi₀, hcode₀, hcount⟩ := hacc.uses i₁ hi₁
    refine ⟨i₀, hi₀, hcode₀.trans hcode₁, ?_⟩
    rw [hcode₁, uses_cons] at hcount
    rw [uses_cons]
    omega
  paid := by
    intro q hq hadds
    rcases mem_cons.mp hq with rfl | hq
    · exact h.paid hkept (hacc.paid p mem_cons_self) hadds
    · exact hacc.paid q (mem_cons_of_mem _ hq) hadds

theorem start_quiet (call : JoinCall) :
    (start call).usedCode = none ∧ (start call).admittedBy = none := by
  cases call with
  | cleanExpiredKeyBundles => exact ⟨rfl, rfl⟩
  | _ =>
    simp only [start]
    split
    · exact ⟨rfl, rfl⟩
    · split <;> exact ⟨rfl, rfl⟩

theorem accounted_run (evs : List Event)
    (hrun : Guarded step (Pool.Allows (fun _ _ => True) NothingLost) (initial db) evs) :
    Accounted db.tables (exec step (initial db) evs) := by
  have hinit : Accounted db.tables (initial db) := by
    constructor
    · intro i hi
      exact ⟨i, hi, rfl, rfl⟩
    · intro p hp
      cases hp
  refine @Pool.keeps_exec _ _ _ _ start next (Accounted db.tables) (fun _ _ => True) NothingLost
    ?_ ?_ ?_ _ evs hinit hrun
  · intro sh l l' hperm h
    constructor
    · intro i hi
      obtain ⟨i₀, hi₀, hcode, hcount⟩ := h.uses i hi
      refine ⟨i₀, hi₀, hcode, ?_⟩
      unfold uses at hcount ⊢
      rw [← hperm.countP_eq]
      exact hcount
    · intro p hp
      exact h.paid p (hperm.mem_iff.mpr hp)
  · intro sh calls call h _
    obtain ⟨hused, hadmitted⟩ := start_quiet call
    constructor
    · intro i hi
      obtain ⟨i₀, hi₀, hcode, hcount⟩ := h.uses i hi
      refine ⟨i₀, hi₀, hcode, ?_⟩
      rw [uses_cons, Phase.weight, hused]
      exact hcount
    · intro p hp hadds
      rcases mem_cons.mp hp with rfl | hp
      · rw [hused, hadmitted]
      · exact h.paid p hp hadds
  · intro sh p others outcome sh' p' h hkept hnext
    exact (next_change hnext).accounted h hkept

/-- In every run no invite is used more often than it allows, one that is revoked,
    expired or used up admits nobody, and one that is revoked or used up has no key
    bundle. Where no use is lost there are as many uses as members made, once all
    calls are done. -/
theorem invites_accounted {db : DB} (hsealed : ∀ i ∈ db.tables.invites, Sealed i)
    (evs : List Event) :
    (∀ i ∈ (exec step (initial db) evs).shared.tables.invites, Sealed i) ∧
      (∀ ev, Admission (exec step (initial db) evs) ev) ∧
      (Guarded step (Pool.Allows (fun _ _ => True) NothingLost) (initial db) evs →
        Pool.Quiescent Phase.finished (exec step (initial db) evs) →
        ∀ i ∈ (exec step (initial db) evs).shared.tables.invites, ∃ i₀ ∈ db.tables.invites,
          i₀.code = i.code ∧
            i.useCount = i₀.useCount + admitted i.code (exec step (initial db) evs).calls) := by
  refine ⟨?_, fun ev => admission _ ev, ?_⟩
  · refine @Pool.keeps_always _ _ _ _ start next
      (fun s => ∀ i ∈ s.shared.tables.invites, Sealed i) ?_ ?_ ?_ _ hsealed evs
    · intro sh l l' _ h
      exact h
    · intro sh calls call h
      exact h
    · intro sh p others outcome sh' p' h hnext
      exact (next_change hnext).sealed h
  · intro hrun hquiet i hi
    have hacc := accounted_run evs hrun
    obtain ⟨i₀, hi₀, hcode, hcount⟩ := hacc.uses i hi
    refine ⟨i₀, hi₀, hcode, ?_⟩
    rw [hcount]
    congr 1
    -- a call that is over is not about to add a member
    refine countP_congr ?_
    intro p hp
    have hdone : p.adds = none := by
      have hfinished := hquiet p hp
      cases p with
      | joined code inserted result => rfl
      | returned result => rfl
      | _ => cases hfinished
    rw [hacc.paid p hp hdone]

def freshInvite : Invite where
  code := "hello"
  serverID := "srv"
  creatorID := "owner"
  maxUses := 2
  useCount := 0
  encryptedChannelKeys := some [1, 2, 3]
  channelKeysIV := some [7]

def doorTables : Tables where
  users := [{ id := "owner", signingPublicKey := none },
    { id := "guest", signingPublicKey := none }, { id := "friend", signingPublicKey := none }]
  servers := [{ id := "srv", ownerID := "owner" }]
  members := [{ userID := "owner", serverID := "srv" }]
  invites := [freshInvite]

def doorDB : DB := ⟨doorTables, by decide +kernel⟩

def joins (userID : ID) : Event := .start (.joinServer (some userID) { inviteCode := "Hello " })

/-- Two users join at the same time. -/
def twoGuests : List Event :=
  [joins "guest", joins "friend"] ++ replicate 4 (.advance 0 {}) ++
    replicate 6 (.advance 1 {}) ++ replicate 2 (.advance 0 {})

theorem sealed_doorDB : ∀ i ∈ doorDB.tables.invites, Sealed i := by
  intro i hi
  rw [mem_singleton.mp hi]
  exact ⟨by decide, by decide⟩

theorem invites_accounted_twoGuests :
    admitted "hello" (exec step (initial doorDB) twoGuests).calls = 2 ∧
      ∀ i ∈ (exec step (initial doorDB) twoGuests).shared.tables.invites,
        ∃ i₀ ∈ doorDB.tables.invites, i₀.code = i.code ∧
          i.useCount = i₀.useCount + admitted i.code (exec step (initial doorDB) twoGuests).calls :=
  ⟨by decide +kernel,
    (invites_accounted sealed_doorDB twoGuests).2.2 (by decide +kernel) (by decide +kernel)⟩

/-- The same user joins twice at the same time: both calls find it is no member. -/
def oneGuestTwice : List Event :=
  [joins "guest", joins "guest"] ++ replicate 3 (.advance 0 {}) ++
    replicate 6 (.advance 1 {}) ++ replicate 3 (.advance 0 {})

/-- Two uses are gone and the key bundle with them, and there is one new member. -/
theorem oneGuestTwice_wastes :
    Pool.Quiescent Phase.finished (exec step (initial doorDB) oneGuestTwice) ∧
      (exec step (initial doorDB) oneGuestTwice).shared.tables.invites =
        [{ freshInvite with useCount := 2, encryptedChannelKeys := none, channelKeysIV := none }] ∧
      admitted "hello" (exec step (initial doorDB) oneGuestTwice).calls = 1 := by
  decide +kernel

end Meza.Chat.Joining
