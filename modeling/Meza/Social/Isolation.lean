import Meza.Social.Befriending
import Meza.Social.Requests

/-! # What a message request lets through

    A DM that is pending or declined becomes active when its recipient wants it
    or when the two become friends. While it is declined `SendMessage` publishes
    nothing; `EditMessage` does. -/

namespace Meza.Social
open Action ChatStore Table FriendStore Run

open Store (ID StoreError Message)
open Chat (EditMessageRequest SendMessageRequest)

/-! ## Section 1: Recipients -/

/-- The user is one of the two that the DM is for. -/
def Channel.isFor (c : Channel) (userID : ID) : Prop :=
  ∃ otherID, c.dmPairKey = ChatStore.dmPairKey userID otherID

/-- A DM that a user has with nobody else. -/
def Channel.withOneself (c : Channel) : Prop :=
  ∃ userID, c.dmPairKey = ChatStore.dmPairKey userID userID

structure Channel.Recipient (c : Channel) (userID : ID) : Prop where
  isFor : c.isFor userID
  notInitiator : c.dmInitiatorID ≠ userID

/-- What may make a DM active: its recipient accepts it, takes a decline back or opens it
    again after declining, or the two become friends. -/
inductive ActivatedBy (t : Tables) (c : Channel) : Request → Prop where
  | accept {userID : ID} (pending : c.dmStatus = .pending) (recipient : c.Recipient userID) :
      ActivatedBy t c (.acceptMessageRequest (some userID) c.id)
  | reverse {userID : ID} (declined : c.dmStatus = .declined) (recipient : c.Recipient userID) :
      ActivatedBy t c (.reverseDecline (some userID) c.id)
  | reopen {dmCount : Nat} {newID userID recipientID : ID} (declined : c.dmStatus = .declined)
      (recipient : c.Recipient userID) :
      ActivatedBy t c (.createOrGetDMChannel dmCount newID (some userID) recipientID)
  | friends {faults : DMFaults} {userID requesterID : ID}
      (asked : hasRequested t requesterID userID = true)
      (pair : c.dmPairKey = dmPairKey userID requesterID) :
      ActivatedBy t c (.acceptFriendRequest faults (some userID) requesterID)

/-- A request leaves a DM that is not active alone unless it may make it active, and
    publishes nothing of the initiator's in a declined one. -/
structure Isolated (w : World) (req : Request) : Prop where
  activates : ∀ c ∈ w.db.tables.channels, ¬ c.withOneself → c.dmStatus ≠ .active →
    ∀ c' ∈ (step w req).db.tables.channels, c'.id = c.id → c'.dmStatus = .active →
      ActivatedBy w.db.tables c req
  silent : ∀ c ∈ w.db.tables.channels, c.dmStatus = .declined →
    ∀ d ∈ published w req, d.channelID = c.id → d.authorID ≠ c.dmInitiatorID

/-- No message of the initiator's is edited while the DM is declined. -/
def Discreet (w : World) : Request → Prop
  | .editMessage outside _ caller req =>
    ∀ checked ∈ (checkEdit outside w caller req).toOption,
      ¬ (checked.1.dmStatus = .declined ∧ checked.2.1.authorID = checked.1.dmInitiatorID)
  | _ => True

instance (w : World) : ∀ req, Decidable (Discreet w req)
  | .editMessage _ _ _ _ => inferInstanceAs (Decidable (∀ checked ∈ Except.toOption _, _))
  | .createOrGetDMChannel _ _ _ _ | .acceptMessageRequest _ _ | .declineMessageRequest _ _
  | .reverseDecline _ _ | .sendMessage _ _ _ _ _ | .sendFriendRequest _ _ _
  | .acceptFriendRequest _ _ _ | .declineFriendRequest _ _ | .cancelFriendRequest _ _
  | .removeFriend _ _ | .blockUser _ _ | .unblockUser _ _ => isTrue trivial

/-- Members of a DM are those it is for. -/
def MembersFit (t : Tables) : Prop :=
  ∀ cm ∈ t.channelMembers, ∀ c ∈ t.channels, c.id = cm.channelID → c.isFor cm.userID

/-! ## Section 2: What a request does to the DMs -/

inductive DMChange (t : Tables) (req : Request) (t' : Tables) : Prop where
  | same (channels : t'.channels = t.channels) (members : t'.channelMembers = t.channelMembers)
  | status (c : Channel) (status : DMStatus) (mem : c ∈ t.channels)
      (channels : t'.channels = updateWhere (fun c' => c'.id = c.id)
        (fun c' => { c' with dmStatus := status }) t.channels)
      (members : t'.channelMembers = t.channelMembers)
      (cause : status = .active → c.dmStatus ≠ .active → ¬ c.withOneself → ActivatedBy t c req)
  | create (newID userID₁ userID₂ dmInitiatorID : ID) (dmStatus : DMStatus)
      (channels : t'.channels = t.channels ++
        [{ id := newID, dmPairKey := dmPairKey userID₁ userID₂, dmStatus,
           dmInitiatorID }])
      (members : t'.channelMembers = withParticipants newID userID₁ userID₂ t.channelMembers)

variable {c : Channel} {d : Delivery} {ereq : EditMessageRequest}
  {outside : Except ConnectError Unit} {newID userID : ID} {now : Int} {deliveries : List Delivery}
  {caller : Option ID} {sreq : SendMessageRequest} {t : Tables} {α : Type}

theorem DMChange.refl {req : Request} : DMChange t req t := .same rfl rfl

section Handlers

variable {β : Type} {db : DB} {k : α → Handler β} {Q : β → DB → Prop} {E : ConnectError → DB → Prop}
  {req : Request}

variable {f : Tables → Except ConnectError α}

theorem ends_require (hok : ∀ a, f db.tables = .ok a → Ends (k a) db Q E)
    (herr : ∀ e, E e db := by first | exact fun _ => rfl | assumption) :
    Ends (require f >>= k) db Q E :=
  ends_check hok herr

theorem ends_transact {f : DB → Except StoreError (α × DB)}
    (hok : ∀ a db', f db = .ok (a, db') → Ends (k a) db' Q E)
    (herr : ∀ e, E e db := by first | exact fun _ => rfl | assumption) :
    Ends (transact f >>= k) db Q E := by
  refine ends_update ?_ herr
  intro a db' h
  apply hok
  cases hf : f db with
  | error e =>
    rw [hf] at h
    cases h
  | ok r =>
    rw [hf] at h
    exact congrArg Except.ok (Except.ok.inj h)

theorem ends_run {f : DB → Except StoreError DB} {k : Unit → Handler β}
    (hok : ∀ db', f db = .ok db' → Ends (k ()) db' Q E)
    (herr : ∀ e, E e db := by first | exact fun _ => rfl | assumption) :
    Ends (run f >>= k) db Q E := by
  refine ends_transact ?_ herr
  intro _ db' h
  obtain ⟨db₁, hf, heq⟩ := map_eq_ok.mp h
  cases heq
  exact hok db' hf

/-- However the handler ends, this is what it has done to the DMs. -/
abbrev Changes (req : Request) (db : DB) (x : Handler α) : Prop :=
  Ends x db (fun _ db' => DMChange db.tables req db'.tables)
    (fun _ db' => DMChange db.tables req db'.tables)

/-- A request that is refused has changed nothing. -/
theorem changes_require (h : ∀ a, f db.tables = .ok a → Changes req db (k a)) :
    Changes req db (require f >>= k) :=
  ends_require h fun _ => .refl

theorem changes_run {f : DB → Except StoreError DB}
    (h : ∀ db', f db = .ok db' → DMChange db.tables req db'.tables) : Changes req db (run f) := by
  refine ends_last (ends_run ?_ fun _ => .refl)
  intro db' hf
  exact ends_pure (h db' hf)

variable {status : DMStatus} {channelID : ID}

theorem changes_updateDMStatus (hc : c ∈ db.tables.channels)
    (hcause : status = .active → c.dmStatus ≠ .active → ¬ c.withOneself →
      ActivatedBy db.tables c req) {db' : DB}
    (h : updateDMStatus db c.id status = .ok db') :
    DMChange db.tables req db'.tables := by
  have htables := updateDMStatus_ok h
  refine .status c status hc ?_ ?_ hcause
  · rw [htables]
  · rw [htables]

theorem changes_withUser {f : ID → DB → Except StoreError DB}
    (hf : ∀ id db', f id db = .ok db' → db'.tables.channels = db.tables.channels ∧
      db'.tables.channelMembers = db.tables.channelMembers) :
    Changes req db (withUser caller userID f) := by
  refine changes_require fun id _ => ?_
  refine changes_require fun _ _ => ?_
  refine changes_run fun db' h => ?_
  exact .same (hf id db' h).1 (hf id db' h).2

theorem deleteFriendships_channels {what : String} {p : Friendship → Bool} {db' : DB}
    (h : deleteFriendships what p db = .ok db') :
    db'.tables.channels = db.tables.channels ∧
      db'.tables.channelMembers = db.tables.channelMembers := by
  rw [deleteFriendships_ok h]
  exact ⟨rfl, rfl⟩

theorem changes_blockUser {targetID : ID} : Changes req db (blockUser caller targetID) := by
  refine changes_require fun _ _ => ?_
  refine changes_require fun _ _ => ?_
  refine changes_require fun _ _ => ?_
  refine changes_require fun _ _ => ?_
  refine changes_run fun db' h => ?_
  refine .same ?_ ?_
  · rw [commit_ok h]
  · rw [commit_ok h]

theorem changes_sendFriendRequest {count : Nat} {freq : SendFriendRequestRequest} :
    Changes req db (sendFriendRequest count id caller freq) := by
  refine changes_require fun _ _ => ?_
  refine changes_require fun _ _ => ?_
  refine changes_require fun _ _ => ?_
  refine changes_require fun target _ => ?_
  refine changes_require fun _ _ => ?_
  refine changes_require fun _ _ => ?_
  refine changes_require fun _ _ => ?_
  refine changes_require fun _ _ => ?_
  refine changes_require fun _ _ => ?_
  refine changes_require fun _ _ => ?_
  refine ends_transact (fun accepted db' h => ?_) fun _ => .refl
  have hsame : DMChange db.tables req db'.tables := by
    rcases SendWrite.run_ok h with ⟨-, -, rfl⟩ | ⟨-, -, htables⟩ | ⟨-, -, htables⟩
    · exact .refl
    · rw [htables]
      exact .same rfl rfl
    · rw [htables]
      exact .same rfl rfl
  exact ends_require (fun _ _ => ends_pure hsame) fun _ => hsame

theorem authenticate_ok (h : Chat.authenticate caller = .ok userID) : caller = some userID := by
  cases caller with
  | none => cases h
  | some id =>
    cases h
    rfl

theorem changes_acceptFriendRequest {faults : DMFaults} {requesterID : ID} :
    Changes (.acceptFriendRequest faults caller requesterID) db
      (acceptFriendRequest faults caller requesterID) := by
  refine changes_require fun userID hcaller => ?_
  refine changes_require fun _ _ => ?_
  refine ends_transact (fun _ db₁ h => ?_) fun _ => .refl
  obtain ⟨db₂, haccept, heq⟩ := map_eq_ok.mp h
  cases heq
  obtain ⟨hasked, htables⟩ := FriendStore.acceptFriendRequest_ok haccept
  obtain rfl := authenticate_ok hcaller
  have hchannels : db₁.tables.channels = db.tables.channels := by rw [htables]
  have hmembers : db₁.tables.channelMembers = db.tables.channelMembers := by rw [htables]
  have hsame : DMChange db.tables (.acceptFriendRequest faults (some userID) requesterID)
      db₁.tables := .same hchannels hmembers
  -- the DM is looked up after the friendship is committed, and failures are only logged
  refine ends_last (ends_modify (ends_pure ?_))
  split
  · exact hsame
  · rename_i existing hlook
    obtain ⟨hmem, hpair⟩ := mem_of_lookup hlook
    split
    · split
      · rename_i db' hupdate
        have hupdated := updateDMStatus_ok hupdate
        rw [hchannels] at hmem
        refine .status existing .active hmem ?_ ?_ fun _ _ _ => .friends hasked hpair
        · rw [hupdated, hchannels]
        · rw [hupdated, hmembers]
      · exact hsame
    · exact hsame

theorem requireMember_ok {error : ConnectError}
    (h : requireMember error t channelID userID = .ok c) :
    c ∈ t.channels ∧ c.id = channelID ∧
      { channelID, userID : Store.ChannelMember } ∈ t.channelMembers := by
  unfold requireMember at h
  split at h
  · cases h
  · rename_i ch hlook
    split at h
    · rename_i hmember
      cases h
      obtain ⟨hc, hid⟩ := mem_of_lookup hlook
      obtain ⟨cm, hcm, hkey⟩ := exists?_eq_true.mp hmember
      obtain ⟨rfl, rfl⟩ := Prod.mk.inj hkey
      exact ⟨hc, hid, hcm⟩
    · cases h

theorem requireAnswerable_ok {texts : AnswerTexts}
    (h : requireAnswerable texts status t channelID userID = .ok c) (hfit : MembersFit t) :
    c ∈ t.channels ∧ c.id = channelID ∧ c.dmStatus = status ∧ c.Recipient userID := by
  obtain ⟨_, _, h⟩ := bind_eq_ok.mp h
  obtain ⟨c', hmember, h⟩ := bind_eq_ok.mp h
  obtain ⟨_, hstatus, h⟩ := bind_eq_ok.mp h
  obtain ⟨_, hinitiator, h⟩ := bind_eq_ok.mp h
  cases h
  obtain ⟨hc, hid, hcm⟩ := requireMember_ok hmember
  exact ⟨hc, hid, not_not.mp (rejectIf_ok.mp hstatus), hfit _ hcm c hc hid,
    rejectIf_ok.mp hinitiator⟩

theorem changes_activate {texts : AnswerTexts} {unable : String} (hfit : MembersFit db.tables)
    (hcause : ∀ c userID, c.id = channelID → caller = some userID → c.dmStatus = status →
      c.Recipient userID → ActivatedBy db.tables c req) :
    Changes req db (activate texts unable status caller channelID) := by
  refine changes_require fun userID hcaller => ?_
  refine changes_require fun c hc => ?_
  refine changes_require fun _ _ => ?_
  refine changes_run fun db' h => ?_
  obtain ⟨hmem, hid, hstatus, hrecipient⟩ := requireAnswerable_ok hc hfit
  refine changes_updateDMStatus hmem ?_ h
  intro _ _ _
  exact hcause c userID hid (authenticate_ok hcaller) hstatus hrecipient

theorem changes_acceptMessageRequest (hfit : MembersFit db.tables) :
    Changes (.acceptMessageRequest caller channelID) db
      (acceptMessageRequest caller channelID) := by
  refine changes_activate hfit ?_
  rintro c userID rfl rfl hpending hrecipient
  exact .accept hpending hrecipient

theorem changes_reverseDecline (hfit : MembersFit db.tables) :
    Changes (.reverseDecline caller channelID) db (reverseDecline caller channelID) := by
  refine changes_activate hfit ?_
  rintro c userID rfl rfl hdeclined hrecipient
  exact .reverse hdeclined hrecipient

theorem changes_declineMessageRequest (hfit : MembersFit db.tables) :
    Changes req db (declineMessageRequest caller channelID) := by
  refine changes_require fun userID _ => ?_
  refine changes_require fun c hc => ?_
  refine changes_run fun db' h => ?_
  obtain ⟨hmem, -, -, -⟩ := requireAnswerable_ok hc hfit
  refine changes_updateDMStatus hmem ?_ h
  intro hactive
  cases hactive

theorem createDMChannel_ok {a b dmInitiatorID : ID} {dmStatus : DMStatus} {created : Bool}
    {db' : DB}
    (h : createDMChannel db newID a b dmStatus dmInitiatorID = .ok (created, db')) :
    DMChange db.tables req db'.tables := by
  unfold createDMChannel at h
  split at h
  · cases h
    exact .refl
  · obtain ⟨db₁, hcommit, heq⟩ := map_eq_ok.mp h
    cases heq
    refine .create newID a b dmInitiatorID dmStatus ?_ ?_
    · rw [commit_ok hcommit]
      rfl
    · rw [commit_ok hcommit]
      rfl

theorem changes_createOrGetDMChannel {dmCount : Nat} {recipientID : ID} :
    Changes (.createOrGetDMChannel dmCount newID caller recipientID) db
      (createOrGetDMChannel dmCount newID caller recipientID) := by
  refine changes_require fun userID hcaller => ?_
  refine changes_require fun _ _ => ?_
  refine changes_require fun _ _ => ?_
  refine changes_require fun _ _ => ?_
  refine changes_require fun user _ => ?_
  refine changes_require fun recipient _ => ?_
  refine changes_require fun _ _ => ?_
  refine changes_require fun existing hlook => ?_
  obtain rfl := authenticate_ok hcaller
  cases existing with
  | none =>
    refine changes_require fun dmStatus _ => ?_
    refine ends_last (ends_transact (fun created db' h => ?_) fun _ => DMChange.refl)
    exact ends_pure (createDMChannel_ok h)
  | some existing =>
    obtain ⟨hmem, hpair⟩ := mem_of_lookup (Except.ok.inj hlook)
    simp only
    split
    · rename_i hreopens
      refine ends_run (fun db' h => ?_) fun _ => DMChange.refl
      refine ends_pure (changes_updateDMStatus hmem ?_ h)
      intro _ _ htwo
      refine .reopen hreopens.1 ⟨⟨recipientID, hpair⟩, ?_⟩
      -- a DM with oneself is left out
      rcases hreopens.2 with rfl | hinitiator
      · exact absurd ⟨userID, hpair⟩ htwo
      · exact hinitiator
    · exact ends_pure DMChange.refl

end Handlers

/-! ## Section 3: Steps -/

variable {w : World} {req : Request}

theorem after_silently (x : Handler α) (w : World) :
    after (silently x) w = { w with db := after x w.db } := by
  rcases hx : x w.db with ⟨a, db⟩ | ⟨e, db⟩
  · simp [after, silently, onDB, bind, EStateM.bind, pure, EStateM.pure, hx]
  · simp [after, silently, onDB, bind, EStateM.bind, hx]

theorem silently_ok {x : Handler α} {w w' : World} (h : silently x w = .ok deliveries w') :
    deliveries = [] := by
  obtain ⟨_, _, _, h⟩ := bind_ok.mp h
  exact (pure_ok.mp h).1

theorem step_silently {x : Handler α} (hreq : req.handle = silently x) (hx : Changes req w.db x) :
    DMChange w.db.tables req (step w req).db.tables := by
  unfold step
  rw [hreq, after_silently]
  exact hx.after

theorem step_messages {x : Messaging (List Delivery)} (hreq : req.handle = x)
    (hx : Ends x w (fun _ w' => w'.db = w.db) (fun _ w' => w'.db = w.db)) :
    DMChange w.db.tables req (step w req).db.tables := by
  have hdb : (step w req).db = w.db := by
    unfold step
    rw [hreq]
    exact hx.after
  rw [hdb]
  exact .refl

theorem sendMessage_db :
    Ends (sendMessage outside newID now caller sreq) w (fun _ w' => w'.db = w.db)
      (fun _ w' => w'.db = w.db) := by
  refine ends_check (fun checked _ => ?_) fun _ => rfl
  exact ends_modify (ends_pure rfl)

theorem editMessage_db :
    Ends (editMessage outside now caller ereq) w (fun _ w' => w'.db = w.db)
      (fun _ w' => w'.db = w.db) := by
  refine ends_check (fun checked _ => ?_) fun _ => rfl
  exact ends_modify (ends_pure rfl)

theorem step_change (hfit : MembersFit w.db.tables) (req : Request) :
    DMChange w.db.tables req (step w req).db.tables := by
  cases req with
  | createOrGetDMChannel dmCount newID caller recipientID =>
    exact step_silently rfl changes_createOrGetDMChannel
  | acceptMessageRequest caller channelID =>
    exact step_silently rfl (changes_acceptMessageRequest hfit)
  | declineMessageRequest caller channelID =>
    exact step_silently rfl (changes_declineMessageRequest hfit)
  | reverseDecline caller channelID => exact step_silently rfl (changes_reverseDecline hfit)
  | sendMessage outside newID now caller sreq => exact step_messages rfl sendMessage_db
  | editMessage outside now caller ereq => exact step_messages rfl editMessage_db
  | sendFriendRequest count caller freq => exact step_silently rfl changes_sendFriendRequest
  | acceptFriendRequest faults caller requesterID =>
    exact step_silently rfl changes_acceptFriendRequest
  | declineFriendRequest | cancelFriendRequest | removeFriend =>
    exact step_silently rfl (changes_withUser fun _ _ h => deleteFriendships_channels h)
  | blockUser caller targetID => exact step_silently rfl changes_blockUser
  | unblockUser caller targetID =>
    refine step_silently rfl (changes_withUser fun _ db' h => ?_)
    rw [BlockStore.unblockUser_ok h]
    exact ⟨rfl, rfl⟩

/-! ## Section 4: Invariants of runs -/

theorem DMChange.membersFit {db db' : DB} (h : DMChange db.tables req db'.tables)
    (hfit : MembersFit db.tables) : MembersFit db'.tables := by
  cases h with
  | same channels members =>
    intro cm hcm c hc hid
    rw [members] at hcm
    rw [channels] at hc
    exact hfit cm hcm c hc hid
  | status c₀ status mem channels members cause =>
    intro cm hcm c hc hid
    rw [members] at hcm
    rw [channels] at hc
    obtain ⟨c₁, hc₁, heq⟩ := mem_updateWhere.mp hc
    have hkept : c₁.id = c.id ∧ c₁.dmPairKey = c.dmPairKey := by
      rw [← heq]
      split
      · exact ⟨rfl, rfl⟩
      · exact ⟨rfl, rfl⟩
    obtain ⟨otherID, hpair⟩ := hfit cm hcm c₁ hc₁ (hkept.1.trans hid)
    exact ⟨otherID, hkept.2.symm.trans hpair⟩
  | create newID a b dmInitiatorID dmStatus channels members =>
    -- the new id is no old one, so that old members stay with old channels
    have hfresh : newID ∉ db.tables.channels.map (·.id) := by
      have hpk := db'.constraints.channelsPK
      rw [channels] at hpk
      exact notMem_of_append hpk
    intro cm hcm c hc hid
    rw [members] at hcm
    rw [channels] at hc
    rcases List.mem_append.mp hc with hc | hc
    · rcases mem_withParticipants hcm with hcm | ⟨hnew, -⟩
      · exact hfit cm hcm c hc hid
      · exact absurd (List.mem_map.mpr ⟨c, hc, hid.trans hnew⟩) hfresh
    · rw [List.mem_singleton.mp hc] at hid ⊢
      rcases mem_withParticipants hcm with hcm | ⟨-, huser | huser⟩
      · have hold := db.constraints.channelMembersChannel cm hcm
        rw [← hid] at hold
        exact absurd hold hfresh
      · rw [huser]
        exact ⟨b, rfl⟩
      · rw [huser]
        exact ⟨a, dmPairKey_comm a b⟩

theorem DMChange.activates {db db' : DB} (h : DMChange db.tables req db'.tables) {c' : Channel}
    (hc : c ∈ db.tables.channels) (htwo : ¬ c.withOneself) (hstatus : c.dmStatus ≠ .active)
    (hc' : c' ∈ db'.tables.channels) (hid : c'.id = c.id) (hactive : c'.dmStatus = .active) :
    ActivatedBy db.tables c req := by
  have hunique : ∀ c₁ ∈ db.tables.channels, c₁.id = c.id → c₁ = c := by
    intro c₁ hc₁ heq
    exact eq_of_key db.constraints.channelsPK hc₁ hc heq
  cases h with
  | same channels members =>
    rw [channels] at hc'
    rw [hunique c' hc' hid] at hactive
    exact absurd hactive hstatus
  | status c₀ status mem channels members cause =>
    rw [channels] at hc'
    obtain ⟨c₁, hc₁, heq⟩ := mem_updateWhere.mp hc'
    split at heq
    · rename_i hchanged
      subst heq
      have hc₀ : c₀ = c := hunique c₀ mem ((of_decide_eq_true hchanged).symm.trans hid)
      rw [← hc₀] at hstatus htwo ⊢
      exact cause hactive hstatus htwo
    · subst heq
      rw [hunique c₁ hc₁ hid] at hactive
      exact absurd hactive hstatus
  | create newID a b dmInitiatorID dmStatus channels members =>
    rw [channels] at hc'
    rcases List.mem_append.mp hc' with hc' | hc'
    · rw [hunique c' hc' hid] at hactive
      exact absurd hactive hstatus
    · exfalso
      have hpk := db'.constraints.channelsPK
      rw [channels] at hpk
      rw [List.mem_singleton.mp hc'] at hid
      exact notMem_of_append hpk (List.mem_map.mpr ⟨c, hc, hid.symm⟩)

/-! ## Section 5: What is published -/

theorem checkSend_ok {ch : Channel} {mentions : Chat.Mentions}
    (h : checkSend outside w caller sreq = .ok (userID, ch, mentions)) :
    ch ∈ w.db.tables.channels ∧ ch.id = sreq.channelID := by
  obtain ⟨userID', _, h⟩ := bind_eq_ok.mp h
  obtain ⟨_, _, h⟩ := bind_eq_ok.mp h
  obtain ⟨_, _, h⟩ := bind_eq_ok.mp h
  obtain ⟨_, _, h⟩ := bind_eq_ok.mp h
  obtain ⟨ch', hmember, h⟩ := bind_eq_ok.mp h
  obtain ⟨_, _, h⟩ := bind_eq_ok.mp h
  obtain ⟨_, _, h⟩ := bind_eq_ok.mp h
  obtain ⟨_, _, h⟩ := bind_eq_ok.mp h
  obtain ⟨_, _, h⟩ := bind_eq_ok.mp h
  obtain ⟨mentions', _, h⟩ := bind_eq_ok.mp h
  cases h
  obtain ⟨hc, hid, -⟩ := requireMember_ok hmember
  exact ⟨hc, hid⟩

theorem checkEdit_ok {ch : Channel} {msg : Message} {mentions : Chat.Mentions}
    (h : checkEdit outside w caller ereq = .ok (ch, msg, mentions)) :
    ch ∈ w.db.tables.channels ∧ ch.id = ereq.channelID ∧
      getMessage w.messages ereq.channelID ereq.messageID = some msg := by
  obtain ⟨userID, _, h⟩ := bind_eq_ok.mp h
  obtain ⟨_, _, h⟩ := bind_eq_ok.mp h
  obtain ⟨_, _, h⟩ := bind_eq_ok.mp h
  obtain ⟨ch', hmember, h⟩ := bind_eq_ok.mp h
  obtain ⟨_, _, h⟩ := bind_eq_ok.mp h
  obtain ⟨msg', hmsg, h⟩ := bind_eq_ok.mp h
  obtain ⟨_, _, h⟩ := bind_eq_ok.mp h
  obtain ⟨mentions', _, h⟩ := bind_eq_ok.mp h
  cases h
  obtain ⟨hc, hid, -⟩ := requireMember_ok hmember
  exact ⟨hc, hid, (Chat.checkEditable_ok hmsg).1⟩

theorem mem_published_ok :
    d ∈ published w req ↔ ∃ deliveries w', req.handle w = .ok deliveries w' ∧ d ∈ deliveries := by
  unfold published result
  cases h : req.handle w with
  | ok deliveries w' => simp
  | error e w' => simp

/-- `SendMessage` delivers nothing in a declined DM. -/
theorem sendMessage_delivers {w' : World}
    (h : sendMessage outside newID now caller sreq w = .ok deliveries w') (hd : d ∈ deliveries) :
    ∃ userID ch mentions, checkSend outside w caller sreq = .ok (userID, ch, mentions) ∧
      ch.dmStatus ≠ .declined ∧ d.channelID = sreq.channelID := by
  obtain ⟨⟨userID, ch, mentions⟩, w₁, hcheck, h⟩ := bind_ok.mp h
  obtain ⟨hchecked, -⟩ := check_ok.mp hcheck
  obtain ⟨hdeliveries, -⟩ := pure_ok.mp h
  rw [hdeliveries] at hd
  split at hd
  · cases hd
  · rename_i hstatus
    rw [List.mem_singleton.mp hd]
    exact ⟨userID, ch, mentions, hchecked, hstatus, rfl⟩

/-- `EditMessage` delivers the message, whatever the status of the DM. -/
theorem editMessage_delivers {w' : World}
    (h : editMessage outside now caller ereq w = .ok deliveries w') (hd : d ∈ deliveries) :
    ∃ ch msg mentions, checkEdit outside w caller ereq = .ok (ch, msg, mentions) ∧
      d.channelID = msg.channelID ∧ d.authorID = msg.authorID := by
  obtain ⟨⟨ch, msg, mentions⟩, w₁, hcheck, h⟩ := bind_ok.mp h
  obtain ⟨hchecked, -⟩ := check_ok.mp hcheck
  obtain ⟨hdeliveries, -⟩ := pure_ok.mp h
  rw [hdeliveries] at hd
  rw [List.mem_singleton.mp hd]
  exact ⟨ch, msg, mentions, hchecked, rfl, rfl⟩

theorem mem_published (h : d ∈ published w req) :
    (∃ outside newID now caller sreq userID ch mentions,
      req = .sendMessage outside newID now caller sreq ∧
      checkSend outside w caller sreq = .ok (userID, ch, mentions) ∧
      ch.dmStatus ≠ .declined ∧ d.channelID = sreq.channelID) ∨
    ∃ outside now caller ereq ch msg mentions,
      req = .editMessage outside now caller ereq ∧
      checkEdit outside w caller ereq = .ok (ch, msg, mentions) ∧
      d.channelID = msg.channelID ∧ d.authorID = msg.authorID := by
  obtain ⟨deliveries, w', hrun, hd⟩ := mem_published_ok.mp h
  have hsilent : ∀ {α : Type} (x : Handler α), req.handle = silently x → False := by
    intro α x hreq
    rw [hreq] at hrun
    rw [silently_ok hrun] at hd
    cases hd
  cases req with
  | sendMessage outside newID now caller sreq =>
    obtain ⟨userID, ch, mentions, hsent⟩ := sendMessage_delivers hrun hd
    exact .inl ⟨_, _, _, _, _, userID, ch, mentions, rfl, hsent⟩
  | editMessage outside now caller ereq =>
    obtain ⟨ch, msg, mentions, hedited⟩ := editMessage_delivers hrun hd
    exact .inr ⟨_, _, _, _, ch, msg, mentions, rfl, hedited⟩
  | createOrGetDMChannel | acceptMessageRequest | declineMessageRequest | reverseDecline
  | sendFriendRequest | acceptFriendRequest | declineFriendRequest | cancelFriendRequest
  | removeFriend | blockUser | unblockUser => exact (hsilent _ rfl).elim

theorem silent_of_discreet (hguard : Discreet w req)
    (hc : c ∈ w.db.tables.channels) (hdeclined : c.dmStatus = .declined)
    (hd : d ∈ published w req) (hchannel : d.channelID = c.id) : d.authorID ≠ c.dmInitiatorID := by
  have hunique : ∀ ch ∈ w.db.tables.channels, ch.id = c.id → ch = c := by
    intro ch hch heq
    exact eq_of_key w.db.constraints.channelsPK hch hc heq
  rcases mem_published hd with
    ⟨_, _, _, _, sreq, _, ch, _, rfl, hchecked, hstatus, hid⟩ |
    ⟨_, _, _, ereq, ch, msg, _, rfl, hchecked, hid, hauthor⟩
  · exfalso
    obtain ⟨hch, hsame⟩ := checkSend_ok hchecked
    rw [hunique ch hch (hsame.trans (hid.symm.trans hchannel))] at hstatus
    exact hstatus hdeclined
  · obtain ⟨hch, hsame, hmsg⟩ := checkEdit_ok hchecked
    have hkey := (mem_of_lookup hmsg).2
    have hmsgChannel : msg.channelID = ereq.channelID := (Prod.mk.inj hkey).1
    have heq : ch = c := by
      apply hunique ch hch
      rw [hsame, ← hmsgChannel, ← hid, hchannel]
    have hnot := hguard (ch, msg, _) (by rw [hchecked]; rfl)
    rw [heq] at hnot
    rw [hauthor]
    exact fun hinitiator => hnot ⟨hdeclined, hinitiator⟩

/-! ## Section 6: Runs -/

theorem membersFit_exec (hfit : MembersFit w.db.tables) (reqs : List Request) :
    MembersFit (exec step w reqs).db.tables := by
  induction reqs generalizing w with
  | nil => exact hfit
  | cons req reqs ih => exact ih ((step_change hfit req).membersFit hfit)

/-- In every run that edits nothing of the initiator's in a declined DM, every request
    keeps message requests apart. -/
theorem isolated_run {w : World} (hfit : MembersFit w.db.tables) {pre post : List Request}
    {req : Request} (hrun : Guarded step Discreet w (pre ++ req :: post)) :
    Isolated (exec step w pre) req where
  activates := by
    intro c hc htwo hstatus c' hc' hid hactive
    exact (step_change (membersFit_exec hfit pre) req).activates hc htwo hstatus hc' hid hactive
  silent := by
    intro c hc hdeclined d hd hchannel
    exact silent_of_discreet hrun.meets hc hdeclined hd hchannel

/-! ## Section 7: An edit after the decline -/

def strangersTables : Tables where
  users := [{ id := "ann" }, { id := "bob" }]

def strangers : World where
  db := ⟨strangersTables, by decide +kernel⟩

/-- Ann writes to Bob, who does not want to hear from her. -/
def annWrites (messageID : ID) : Request :=
  .sendMessage (.ok ()) messageID 0 (some "ann") { channelID := "dm", encryptedContent := [1] }

def bobDeclines : List Request :=
  [.createOrGetDMChannel 1 "dm" (some "ann") "bob", annWrites "m1",
    .declineMessageRequest (some "bob") "dm"]

/-- She goes on writing. -/
theorem isolated_run_bobDeclines :
    Isolated (exec step strangers bobDeclines) (annWrites "m2") := by
  have hfit : MembersFit strangers.db.tables := by
    intro cm hcm
    cases hcm
  exact @isolated_run strangers hfit bobDeclines [] (annWrites "m2") (by decide +kernel)

/-- She edits her first message instead. -/
def annEdits : Request :=
  .editMessage (.ok ()) 1 (some "ann")
    { channelID := "dm", messageID := "m1", encryptedContent := [2] }

theorem annEdits_published :
    (∃ c ∈ (exec step strangers bobDeclines).db.tables.channels,
      c.dmStatus = .declined ∧
        ∃ d ∈ published (exec step strangers bobDeclines) annEdits,
          d.channelID = c.id ∧ d.authorID = c.dmInitiatorID ∧ d.encryptedContent = [2]) ∧
      ¬ Isolated (exec step strangers bobDeclines) annEdits := by
  have hpublished : ∃ c ∈ (exec step strangers bobDeclines).db.tables.channels,
      c.dmStatus = .declined ∧ ∃ d ∈ published (exec step strangers bobDeclines) annEdits,
      d.channelID = c.id ∧ d.authorID = c.dmInitiatorID ∧ d.encryptedContent = [2] := by
    decide +kernel
  refine ⟨hpublished, ?_⟩
  intro hisolated
  obtain ⟨c, hc, hdeclined, d, hd, hchannel, hauthor, -⟩ := hpublished
  exact hisolated.silent c hc hdeclined d hd hchannel hauthor

end Meza.Social
