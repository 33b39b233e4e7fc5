import Meza.Social.Service

/-! # Becoming friends

    Two users become friends when one accepts the other's request, or when both
    have asked. A pending DM between them is to become active then.
    `AcceptFriendRequest` sees to that; `SendFriendRequest` does not, and it takes
    the request in the other direction for granted once it has seen it. -/

namespace Meza.Social
open Table FriendStore Action ChatStore

open Store (ID StoreError)

/-! ## Section 1: The two ways -/

/-- The two users have a DM that waits to be accepted. -/
def hasPendingDM (t : Tables) (a b : ID) : Bool :=
  t.channels.any fun c => c.dmPairKey = dmPairKey a b ∧ c.dmStatus = .pending

/-- Friends, without a pending DM. -/
def Befriended (t : Tables) (a b : ID) : Prop :=
  areFriends t a b = true ∧ hasPendingDM t a b = false

instance (t : Tables) (a b : ID) : Decidable (Befriended t a b) :=
  inferInstanceAs (Decidable (_ ∧ _))

inductive Befriending where
  | send (count : Nat) (between : DB → DB) (caller : Option ID) (req : SendFriendRequestRequest)
  | accept (faults : DMFaults) (caller : Option ID) (requesterID : ID)

/-- Answers whether the two are friends now. -/
def Befriending.handle : Befriending → Handler Bool
  | .send count between caller req => sendFriendRequest count between caller req
  | .accept faults caller requesterID => do
    acceptFriendRequest faults caller requesterID
    return true

/-- The caller and the other user. -/
def Befriending.parties (t : Tables) : Befriending → Except ConnectError (ID × ID)
  | .send _ _ caller req => do
    let userID ← Chat.authenticate caller
    let named ← namedTarget req
    let (targetID, _) ← resolveTarget t named
    return (userID, targetID)
  | .accept _ caller requesterID => do
    let userID ← Chat.authenticate caller
    return (userID, requesterID)

/-- For `SendFriendRequest`: the other's request is still there when it is accepted, or
    somebody else has accepted it by then, and there is no pending DM. For
    `AcceptFriendRequest`: there is no pending DM, or it can be read and updated. -/
def Befriending.Completes (db : DB) (a b : ID) : Befriending → Prop
  | .send _ between _ _ =>
    (hasRequested (between db).tables b a = true ∨
      areFriends (between db).tables a b = true) ∧
    hasPendingDM (between db).tables a b = false
  | .accept faults _ _ =>
    hasPendingDM db.tables a b = false ∨ (faults.lookup = false ∧ faults.update = false)

/-! ## Section 2: Rows after the two writes -/

section Rows

variable {t t' : Tables} {a b : ID}

theorem hasPendingDM_iff :
    hasPendingDM t a b = true ↔
      ∃ c ∈ t.channels, c.dmPairKey = dmPairKey a b ∧ c.dmStatus = .pending := by
  unfold hasPendingDM
  rw [List.any_eq_true]
  simp only [decide_eq_true_iff]

/-- Accepting a request makes friends of those who have asked. -/
theorem areFriends_acceptRequest (h : t'.friendships = acceptRequest b a t.friendships) :
    areFriends t' a b = true ↔ hasRequested t b a = true ∨ areFriends t a b = true := by
  simp only [areFriends_iff, hasRequested_iff]
  constructor
  · rintro ⟨f, hf, hpair, hstatus⟩
    rw [h] at hf
    obtain ⟨f₀, hf₀, heq⟩ := mem_updateWhere.mp hf
    split at heq
    · rename_i hrequests
      exact .inl ⟨f₀, hf₀, hrequests⟩
    · subst heq
      exact .inr ⟨f₀, hf₀, hpair, hstatus⟩
  · rintro (⟨f₀, hf₀, hrequests⟩ | ⟨f₀, hf₀, hpair, hstatus⟩)
    · refine ⟨{ f₀ with status := .accepted }, ?_, ?_, rfl⟩
      · rw [h]
        exact mem_updateWhere.mpr ⟨f₀, hf₀, if_pos hrequests⟩
      · show f₀.pair = s(a, b)
        rw [Sym2.eq_swap]
        exact Friendship.pair_of_requests hrequests
    · refine ⟨f₀, ?_, hpair, hstatus⟩
      rw [h]
      refine mem_updateWhere.mpr ⟨f₀, hf₀, if_neg ?_⟩
      intro hrequests
      have hpending := (of_decide_eq_true hrequests).2.2
      rw [hstatus] at hpending
      cases hpending

theorem updateDMStatus_accepted (db : DB) (channelID : ID) (status : DMStatus) :
    ∃ db', updateDMStatus db channelID status = .ok db' := by
  have hid : (updateWhere (fun c : Channel => c.id = channelID)
      (fun c => { c with dmStatus := status }) db.tables.channels).map (·.id) =
        db.tables.channels.map (·.id) := by
    rw [map_key_updateWhere]
    intro c
    rfl
  have hkey : (updateWhere (fun c : Channel => c.id = channelID)
      (fun c => { c with dmStatus := status }) db.tables.channels).map (·.dmPairKey) =
        db.tables.channels.map (·.dmPairKey) := by
    rw [map_key_updateWhere]
    intro c
    rfl
  have hc := db.constraints
  have hconstraints : Tables.Constraints { db.tables with
      channels := updateWhere (fun c => c.id = channelID)
        (fun c => { c with dmStatus := status }) db.tables.channels } :=
    { hc with
      channelsPK := by
        unfold UniqueOn
        rw [hid]
        exact hc.channelsPK
      channelsPairKey := by
        unfold UniqueOn
        rw [hkey]
        exact hc.channelsPairKey
      channelMembersChannel := by
        intro cm hcm
        rw [hid]
        exact hc.channelMembersChannel cm hcm }
  exact ⟨⟨_, hconstraints⟩, dif_pos hconstraints⟩

end Rows

/-! ## Section 3: The handlers -/

section Handlers

variable {db db' : DB} {α β : Type}

theorem require_bind_ok {f : Tables → Except ConnectError α} {k : α → Handler β} {b : β} :
    (require f >>= k) db = .ok b db' ↔ ∃ a, f db.tables = .ok a ∧ k a db = .ok b db' := by
  rw [bind_ok]
  constructor
  · rintro ⟨a, db₁, hcheck, hk⟩
    obtain ⟨hf, rfl⟩ := check_ok.mp hcheck
    exact ⟨a, hf, hk⟩
  · rintro ⟨a, hf, hk⟩
    exact ⟨a, db, check_ok.mpr ⟨hf, rfl⟩, hk⟩

theorem transact_bind_ok {f : DB → Except StoreError (α × DB)} {k : α → Handler β} {b : β} :
    (transact f >>= k) db = .ok b db' ↔ ∃ a db₁, f db = .ok (a, db₁) ∧ k a db₁ = .ok b db' := by
  have hstep : ∀ a db₁, transact f db = .ok a db₁ ↔ f db = .ok (a, db₁) := by
    intro a db₁
    unfold transact update
    rcases hf : f db with e | ⟨a', db'⟩
    · simp [hf, Chat.orElse]
    · simp [hf, Chat.orElse]
  simp only [bind_ok, hstep]

variable {a b : ID}

/-- `SendFriendRequest` that answers with a friendship has found the other's request. -/
theorem sendFriendRequest_ok {count : Nat} {between : DB → DB} {caller : Option ID}
    {req : SendFriendRequestRequest}
    (h : sendFriendRequest count between caller req db = .ok true db')
    (hparties : (Befriending.send count between caller req).parties db.tables = .ok (a, b)) :
    db'.tables = { (between db).tables with
      friendships := acceptRequest b a (between db).tables.friendships } := by
  -- whom the request names
  obtain ⟨userID, hcaller, hparties⟩ := bind_eq_ok.mp hparties
  obtain ⟨named, hnamed, hparties⟩ := bind_eq_ok.mp hparties
  obtain ⟨⟨targetID, known⟩, hresolve, hparties⟩ := bind_eq_ok.mp hparties
  cases hparties
  simp only [sendFriendRequest, require_bind_ok, transact_bind_ok, hcaller, hnamed, hresolve,
    Except.ok.injEq, exists_eq_left', pure_ok] at h
  -- the checks before the write, and what follows it
  obtain ⟨_, _, _, _, _, _, _, _, _, _, _, hfriends, _, _, accepted, db₁, hwrite, _, _, rfl,
    rfl⟩ := h
  rcases SendWrite.run_ok hwrite with
    ⟨hkeep, -, -⟩ | ⟨-, -, htables⟩ | ⟨-, hfalse, -⟩
  · exfalso
    unfold sendWrite at hkeep
    rw [if_neg (rejectIf_ok.mp hfriends)] at hkeep
    split at hkeep
    · cases hkeep
    · cases hkeep
  · exact htables
  · cases hfalse

theorem acceptFriendRequest_ok {faults : DMFaults} {caller : Option ID}
    (h : acceptFriendRequest faults caller b db = .ok () db')
    (hcaller : Chat.authenticate caller = .ok a) :
    ∃ db₁, FriendStore.acceptFriendRequest db a b = .ok db₁ ∧
      activatePendingDM faults a b db₁ = .ok () db' := by
  simp only [acceptFriendRequest, require_bind_ok, transact_bind_ok, hcaller, Except.ok.injEq,
    exists_eq_left'] at h
  obtain ⟨_, _, _, db₁, hwrite, h⟩ := h
  obtain ⟨db₂, haccept, heq⟩ := map_eq_ok.mp hwrite
  cases heq
  exact ⟨db₁, haccept, h⟩

theorem hasPendingDM_of_lookup {c : Channel}
    (h : getDMChannelByPairKey db.tables a b = some c) :
    hasPendingDM db.tables a b = true ↔ c.dmStatus = .pending := by
  obtain ⟨hc, hkey⟩ := mem_of_lookup h
  rw [hasPendingDM_iff]
  constructor
  · rintro ⟨c', hc', hkey', hpending⟩
    rwa [eq_of_key db.constraints.channelsPairKey hc hc' (hkey.trans hkey'.symm)]
  · intro hpending
    exact ⟨c, hc, hkey, hpending⟩

theorem hasPendingDM_of_none (h : getDMChannelByPairKey db.tables a b = none) :
    hasPendingDM db.tables a b = false := by
  rw [Bool.eq_false_iff]
  intro hpending
  obtain ⟨c, hc, hkey, -⟩ := hasPendingDM_iff.mp hpending
  exact lookup_eq_none.mp h c hc hkey

theorem hasPendingDM_of_active {existing : Channel}
    (h : getDMChannelByPairKey db.tables a b = some existing)
    (hupdate : updateDMStatus db existing.id .active = .ok db') :
    hasPendingDM db'.tables a b = false := by
  obtain ⟨hmem, hkey⟩ := mem_of_lookup h
  rw [Bool.eq_false_iff]
  intro hstill
  obtain ⟨c', hc', hkey', hstatus⟩ := hasPendingDM_iff.mp hstill
  rw [updateDMStatus_ok hupdate] at hc'
  obtain ⟨c, hc, heq⟩ := mem_updateWhere.mp hc'
  split at heq
  · subst heq
    cases hstatus
  · rename_i hother
    subst heq
    apply hother
    rw [eq_of_key db.constraints.channelsPairKey hc hmem (hkey'.trans hkey.symm)]
    exact decide_eq_true rfl

/-- What is left pending after `AcceptFriendRequest`. -/
theorem activatePendingDM_ok {faults : DMFaults}
    (h : activatePendingDM faults a b db = .ok () db') :
    db'.tables.friendships = db.tables.friendships ∧
      (hasPendingDM db'.tables a b = false ↔
        hasPendingDM db.tables a b = false ∨ (faults.lookup = false ∧ faults.update = false)) := by
  injection h with _ h
  cases hlook : getDMChannelByPairKey db.tables a b with
  | none =>
    simp only [hlook] at h
    subst h
    simp [hasPendingDM_of_none hlook]
  | some existing =>
    simp only [hlook] at h
    by_cases hfires : faults.lookup = false ∧ existing.dmStatus = .pending ∧ faults.update = false
    · -- the DM becomes active
      rw [if_pos hfires] at h
      obtain ⟨db₁, hupdate⟩ := updateDMStatus_accepted db existing.id .active
      rw [hupdate] at h
      subst h
      refine ⟨by rw [updateDMStatus_ok hupdate], ?_⟩
      simp [hasPendingDM_of_active hlook hupdate, hfires.1, hfires.2.2]
    · rw [if_neg hfires] at h
      subst h
      refine ⟨rfl, ?_⟩
      constructor
      · exact .inl
      · rintro (hnone | ⟨hlookup, hupdate⟩)
        · exact hnone
        · rw [Bool.eq_false_iff]
          intro hstill
          exact hfires ⟨hlookup, (hasPendingDM_of_lookup hlook).mp hstill, hupdate⟩

/-- After a call that makes two users friends they are friends without a pending DM
    if and only if it could complete. -/
theorem befriended_iff {call : Befriending} {a b : ID} (h : call.handle db = .ok true db')
    (hparties : call.parties db.tables = .ok (a, b)) :
    Befriended db'.tables a b ↔ call.Completes db a b := by
  unfold Befriended
  cases call with
  | send count between caller req =>
    have htables := sendFriendRequest_ok h hparties
    have hfriends := @areFriends_acceptRequest (between db).tables db'.tables a b (by rw [htables])
    have hdm : hasPendingDM db'.tables a b = hasPendingDM (between db).tables a b := by
      rw [htables]
      rfl
    rw [hfriends, hdm]
    rfl
  | accept faults caller requesterID =>
    obtain ⟨userID, hcaller, heq⟩ := bind_eq_ok.mp hparties
    cases heq
    obtain ⟨_, db₂, haccepted, hret⟩ := bind_ok.mp h
    obtain ⟨-, rfl⟩ := pure_ok.mp hret
    obtain ⟨db₁, haccept, hactivate⟩ := acceptFriendRequest_ok haccepted hcaller
    obtain ⟨hrequested, htables⟩ := FriendStore.acceptFriendRequest_ok haccept
    obtain ⟨hrows, hpending⟩ := activatePendingDM_ok hactivate
    have hfriends : areFriends db'.tables a b = true := by
      refine (areFriends_acceptRequest ?_).mpr (Or.inl hrequested)
      rw [hrows, htables]
    have hsame : hasPendingDM db₁.tables a b = hasPendingDM db.tables a b := by
      rw [htables]
      rfl
    rw [hsame] at hpending
    rw [hpending]
    show _ ∧ _ ↔ _
    simp [hfriends, Befriending.Completes]

end Handlers

/-! ## Section 4: A pending DM that stays pending -/

/-- Bob has asked Ann to be friends and to answer his messages. -/
def askedTables : Tables where
  users := [{ id := "ann" }, { id := "bob" }]
  friendships := [{ requesterID := "bob", addresseeID := "ann" }]
  channels := [{ id := "dm", dmPairKey := "ann:bob", dmStatus := .pending,
                 dmInitiatorID := "bob" }]
  channelMembers := [{ channelID := "dm", userID := "ann" }, { channelID := "dm", userID := "bob" }]

def askedDB : DB := ⟨askedTables, by decide +kernel⟩

theorem befriended_iff_accepted :
    ∃ db', (Befriending.accept {} (some "ann") "bob").handle askedDB = .ok true db' ∧
      Befriended db'.tables "ann" "bob" := by
  have hok :
      result (Befriending.accept {} (some "ann") "bob").handle askedDB = .ok true := by
    decide +kernel
  obtain ⟨db', h⟩ := result_ok.mp hok
  exact ⟨db', h, (befriended_iff h rfl).mpr (Or.inr ⟨rfl, rfl⟩)⟩

/-- Ann sends a request of her own instead of accepting his. -/
def annAsksToo : Befriending := .send 1 id (some "ann") { userID := "bob" }

theorem annAsksToo_pending :
    result annAsksToo.handle askedDB = .ok true ∧
      annAsksToo.parties askedDB.tables = .ok ("ann", "bob") ∧
      hasPendingDM (after annAsksToo.handle askedDB).tables "ann" "bob" = true ∧
      ¬ Befriended (after annAsksToo.handle askedDB).tables "ann" "bob" := by
  decide +kernel

end Meza.Social
