import Meza.Media.Confidentiality

/-! # Attachments of stored messages stay available

    An attachment that a message of an existing channel contains has a completed
    row and its object, and who may view the channel may download it once
    `LinkAttachments` has been carried out.

    Messages and attachments live in different databases, and two calls delete or
    reset attachments without asking whether a message needs them: `cleanupOrphans`
    works on a list that it has read before, and the rollback of a failed insert
    does not look at other messages. The results are about runs in which neither
    hits an attachment in use. -/

namespace Meza.Media

open Store List Run Table MediaStore
open Chat (SendMessageRequest Mentions)

/-! ## Section 1: Attachments in use -/

/-- The row is completed and the object is there. -/
def Available (w : World) (id : ID) : Prop :=
  ∃ a ∈ w.attachments, a.id = id ∧ a.status = .completed ∧ a.objectKey ∈ w.objects

def ChannelExists (w : World) (channelID : ID) : Prop :=
  channelID ∈ w.db.tables.channels.map (·.id)

/-- A stored message of an existing channel contains the attachment. -/
def InUse (w : World) (id : ID) : Prop :=
  ∃ m ∈ w.messages, ChannelExists w m.channelID ∧ id ∈ m.attachmentIDs

instance (w : World) (channelID : ID) : Decidable (ChannelExists w channelID) :=
  inferInstanceAs (Decidable (_ ∈ _))

instance (w : World) (id : ID) : Decidable (InUse w id) :=
  inferInstanceAs (Decidable (∃ m ∈ w.messages, _))

/-- The attachments that a `SendMessage` has checked and may still store. -/
def Phase.holds : Phase → List ID
  | .sendChecked _ _ req | .sendReady _ req _ => req.attachmentIDs
  | _ => []

/-- The attachments that a `SendMessage` is about to check. -/
def Phase.takes : Phase → List ID
  | .sendAdmitted _ _ req => req.attachmentIDs
  | _ => []

/-- The call is about to create an attachment. -/
def Phase.creates : Phase → Bool
  | .createCounted _ _ => true
  | _ => false

/-- The attachment that a `CompleteUpload` works on. -/
def Phase.upload : Phase → Option ID
  | .inspecting a _ | .storingThumbnail a _ | .completing a _ _ | .discarding a _ _ => some a.id
  | _ => none

def Removal.attachmentID : Removal → ID
  | .object key => key.attachmentID
  | .row id => id

/-- The attachment that `cleanupOrphans` is about to delete or a rollback to reset. -/
def Phase.disturbs : Phase → Option ID
  | .collecting (r :: _) => some r.attachmentID
  | .rollingBack (id :: _) => some id
  | _ => none

/-! ## Section 2: Runs without accidents -/

/-- Neither the cleanup nor a rollback hits an attachment in use, and `SendMessage` takes none
    whose object the cleanup has already deleted. -/
def Spares (w : World) (others : List Phase) (p : Phase) : Prop :=
  (∀ id ∈ p.disturbs, ¬ InUse w id ∧ ∀ q ∈ others, id ∉ q.holds) ∧
    ∀ a ∈ w.attachments, a.id ∈ p.takes → a.status = .completed → a.objectKey ∈ w.objects

instance (w : World) (others : List Phase) (p : Phase) : Decidable (Spares w others p) :=
  inferInstanceAs (Decidable (_ ∧ _))

/-- `models.NewID` draws an id that no call works on. -/
def NewUpload (others : List Phase) (p : Phase) (o : Outcome) : Prop :=
  p.creates = true → ∀ q ∈ others, q.upload ≠ some o.newID

def Careful (w : World) (others : List Phase) (p : Phase) (o : Outcome) : Prop :=
  Spares w others p ∧ NewUpload others p o

instance (w : World) (others : List Phase) (p : Phase) (o : Outcome) :
    Decidable (Careful w others p o) :=
  inferInstanceAs (Decidable (_ ∧ (_ → _)))

/-- Memberships and permissions stay as they are. -/
def KeepsTables (_ : State) : Call → Prop
  | .changeTables _ => False
  | _ => True

instance (s : State) : ∀ call, Decidable (KeepsTables s call)
  | .changeTables _ => isFalse fun h => h
  | .createUpload _ _ | .completeUpload _ _ | .putObject _ | .sendMessage _ _
  | .deleteChannel _ _ | .cleanupOrphans | .getDownloadURL _ _ | .elapse _ => isTrue trivial

/-! ## Section 3: Invariants -/

/-- The row is gone or being processed. -/
def Unsettled (w : World) (id : ID) : Prop :=
  ∀ a ∈ w.attachments, a.id = id → a.status = .processing

structure Stored (w : World) : Prop where
  linked : Linked w
  keys : ∀ a ∈ w.attachments, a.objectKey.attachmentID = a.id
  available : ∀ id, InUse w id → Available w id
  denials : ∀ e ∈ w.permCache, e.allowed = false →
    hasViewChannel w.db.tables w.now e.userID e.channelID = false

/-- What a call deletes belongs to its own upload, and the tables do not change. -/
def OwnUpload : Phase → Prop
  | .inspecting a _ => a.objectKey.attachmentID = a.id
  | .discarding a todo _ => ∀ r ∈ todo, r.attachmentID = a.id
  | .changing _ => False
  | _ => True

structure Local (w : World) (p : Phase) : Prop where
  sent : LinksSent w p
  holds : ∀ id ∈ p.holds, Available w id
  upload : ∀ id, p.upload = some id → Unsettled w id
  own : OwnUpload p

/-- No two calls work on the same upload. -/
def Apart (_ : World) (p q : Phase) : Prop := ∀ id, p.upload = some id → q.upload ≠ some id

theorem Apart.symm (w : World) (p q : Phase) (h : Apart w p q) : Apart w q p :=
  fun id hq hp => h id hp hq

variable {a : Attachment} {c channelID userID : ID}

section Writes

variable {w : World} {o : Outcome} {p : Phase} {e : Write} {id : ID}

theorem Writes.keeps_row (h : Writes w o p e) (hown : OwnUpload p) (hupload : p.upload ≠ some id)
    (hspared : p.disturbs ≠ some id) : e ≠ .deleteAttachment id := by
  rintro rfl
  cases h with
  | discardRow =>
    have howner := hown (.row id) mem_cons_self
    exact hupload (congrArg some howner.symm)
  | collectRow => exact hspared rfl

theorem Writes.keeps_object (h : Writes w o p e) (hown : OwnUpload p) {key : ObjectKey}
    (hupload : p.upload ≠ some key.attachmentID) (hspared : p.disturbs ≠ some key.attachmentID)
    (hkey : key ∈ w.objects) : key ∈ (w.apply e).objects := by
  cases h with
  | discardObject =>
    refine mem_filter.mpr ⟨hkey, decide_eq_true ?_⟩
    rintro rfl
    have howner := hown (.object key) mem_cons_self
    exact hupload (congrArg some howner.symm)
  | collectObject =>
    refine mem_filter.mpr ⟨hkey, decide_eq_true ?_⟩
    rintro rfl
    exact hspared rfl
  | thumbnail | upload => exact mem_cons_of_mem _ hkey
  | nothing | create | process | complete | discardRow | insert | reset | link | detach | drop
  | collectRow | remember | change | elapse => exact hkey

theorem Writes.keeps_completed (h : Writes w o p e) {a' : Attachment} (hevolves : Evolves e a a')
    (hspared : p.disturbs ≠ some a.id) (hcompleted : a.status = .completed) :
    a'.status = .completed := by
  cases hevolves.advances with
  | keep status => exact status.trans hcompleted
  | process uploaderID write before status
  | complete sizeBytes contentType thumbnailKey write before status =>
    rw [hcompleted] at before
    cases before
  | reset write before status =>
    subst write
    cases h with
    | reset => exact absurd rfl hspared

theorem Available.apply (h : Available w id) (hwrites : Writes w o p e) (hstored : Stored w)
    (hlocal : Local w p) (hspared : p.disturbs ≠ some id) : Available (w.apply e) id := by
  obtain ⟨a, ha, rfl, hcompleted, hobject⟩ := h
  -- a refused upload is still being processed
  have hsettled : p.upload ≠ some a.id := by
    intro hupload
    have hprocessing := hlocal.upload a.id hupload a ha rfl
    rw [hcompleted] at hprocessing
    cases hprocessing
  obtain ⟨a', ha', hevolves⟩ := row_apply ha (hwrites.keeps_row hlocal.own hsettled hspared)
  have hkept : a.objectKey ∈ (w.apply e).objects := by
    rw [← hstored.keys a ha] at hsettled hspared
    exact hwrites.keeps_object hlocal.own hsettled hspared hobject
  exact ⟨a', ha', hevolves.id, hwrites.keeps_completed hevolves hspared hcompleted,
    hevolves.object ▸ hkept⟩

theorem Unsettled.apply (h : Unsettled w id) (hnew : ∀ new, e = .createAttachment new → new.id ≠ id)
    (hnot : ∀ size type thumbnail, e ≠ .updateAttachmentCompleted id size type thumbnail) :
    Unsettled (w.apply e) id := by
  intro a' ha' hid
  rcases row_of_apply ha' with rfl | ⟨a, ha, hevolves⟩
  · exact absurd hid (hnew a' rfl)
  · have haid : a.id = id := hevolves.id.symm.trans hid
    have hprocessing := h a ha haid
    cases hevolves.advances with
    | keep status => exact status.trans hprocessing
    | process uploaderID write before status => exact status
    | complete size type thumbnail write before status =>
      rw [haid] at write
      exact absurd write (hnot size type thumbnail)
    | reset write before status =>
      rw [hprocessing] at before
      cases before

theorem keys_apply (hwrites : Writes w o p e)
    (h : ∀ a ∈ w.attachments, a.objectKey.attachmentID = a.id) :
    ∀ a ∈ (w.apply e).attachments, a.objectKey.attachmentID = a.id := by
  intro a' ha'
  rcases row_of_apply ha' with rfl | ⟨a, ha, hevolves⟩
  · cases hwrites with
    | create fresh => rfl
  · rw [hevolves.object, hevolves.id]
    exact h a ha

theorem mem_withoutChannel {t : Tables} {deletedID : ID}
    (h : channelID ∈ (ChatStore.withoutChannel t deletedID).channels.map (·.id)) :
    channelID ∈ t.channels.map (·.id) := by
  obtain ⟨c, hc, rfl⟩ := mem_map.mp h
  obtain ⟨c₀, hc₀, rfl⟩ := mem_updateWhere.mp hc
  refine mem_map.mpr ⟨c₀, (mem_deleteWhere.mp hc₀).1, ?_⟩
  split
  · rfl
  · rfl

theorem mem_dropChannel {db db' : DB} {ch : Channel} (h : dropChannel db ch = .ok db')
    (hmem : channelID ∈ db'.tables.channels.map (·.id)) :
    channelID ∈ db.tables.channels.map (·.id) := by
  have hkeeps := dropChannel_keeps h (P := fun t =>
    channelID ∈ t.channels.map (·.id) → channelID ∈ db.tables.channels.map (·.id)) ?_ id
  · exact hkeeps hmem
  · intro t deletedID ih hmem'
    exact ih (mem_withoutChannel hmem')

theorem Writes.channelExists (h : Writes w o p e) (hown : OwnUpload p)
    (hexists : ChannelExists (w.apply e) channelID) : ChannelExists w channelID := by
  cases h with
  | drop deleted => exact mem_dropChannel deleted hexists
  | change => exact hown.elim
  | nothing | create | process | thumbnail | complete | discardObject | discardRow | upload
  | insert | reset | link | detach | collectObject | collectRow | remember | elapse => exact hexists

theorem Writes.inUse (h : Writes w o p e) (hown : OwnUpload p) (hused : InUse (w.apply e) id) :
    InUse w id ∨ (id ∈ p.holds ∧ p.disturbs = none) := by
  obtain ⟨m, hm, hexists, hid⟩ := hused
  have hold : m ∈ w.messages → InUse w id ∨ (id ∈ p.holds ∧ p.disturbs = none) := by
    intro hmem
    exact .inl ⟨m, hmem, h.channelExists hown hexists, hid⟩
  cases h with
  | insert =>
    rcases mem_append.mp hm with hmem | hmem
    · exact hold hmem
    · rw [mem_singleton.mp hmem] at hid
      exact .inr ⟨hid, rfl⟩
  | nothing | create | process | thumbnail | complete | discardObject | discardRow | upload
  | reset | link | detach | drop | collectObject | collectRow | remember | change | elapse =>
    exact hold hm

theorem Writes.denied (h : Writes w o p e) (hown : OwnUpload p)
    (hdenied : hasViewChannel w.db.tables w.now userID channelID = false) :
    hasViewChannel (w.apply e).db.tables (w.apply e).now userID channelID = false := by
  cases h with
  | drop deleted =>
    rw [Bool.eq_false_iff] at hdenied ⊢
    exact fun hview => hdenied (dropChannel_view deleted hview)
  | elapse =>
    rw [Bool.eq_false_iff] at hdenied ⊢
    refine fun hview => hdenied (hasViewChannel_of_later ?_ hview)
    show w.now ≤ w.now + _
    omega
  | change => exact hown.elim
  | nothing | create | process | thumbnail | complete | discardObject | discardRow | upload
  | insert | reset | link | detach | collectObject | collectRow | remember => exact hdenied

theorem Writes.stored (h : Writes w o p e) (hstored : Stored w) (hlocal : Local w p)
    {others : List Phase} (hspares : Spares w others p) : Stored (w.apply e) where
  linked := h.linked hstored.linked hlocal.sent
  keys := keys_apply h hstored.keys
  available := by
    intro id hused
    rcases h.inUse hlocal.own hused with hbefore | ⟨hholds, hnone⟩
    · refine (hstored.available id hbefore).apply h hstored hlocal ?_
      intro hdisturbs
      exact (hspares.1 id hdisturbs).1 hbefore
    · refine (hlocal.holds id hholds).apply h hstored hlocal ?_
      rw [hnone]
      exact fun h => Option.some_ne_none id h.symm
  denials := by
    intro entry hentry hdenied
    rcases h.entry hentry with hmem | ⟨hanswer, -⟩
    · exact h.denied hlocal.own (hstored.denials entry hmem hdenied)
    · exact h.denied hlocal.own (hanswer.symm.trans hdenied)

end Writes

/-! ## Section 4: Calls -/

theorem checkAttachments_ok {rows : List Attachment} {ids : List ID}
    (hunique : UniqueOn Attachment.id rows) (h : checkAttachments rows userID ids = .ok ()) :
    ∀ id ∈ ids, ∃ a ∈ rows, a.id = id ∧ a.status = .completed := by
  unfold checkAttachments at h
  split at h
  · rename_i hnil
    intro id hid
    rw [hnil] at hid
    cases hid
  · obtain ⟨_, -, h⟩ := bind_eq_ok.mp h
    obtain ⟨_, hlength, h⟩ := bind_eq_ok.mp h
    obtain ⟨_, hcompleted, -⟩ := bind_eq_ok.mp h
    have hlength := not_not.mp (rejectIf_ok.mp hlength)
    have hcompleted := rejectIf_ok.mp hcompleted
    -- the ids found are distinct and as many as those asked for
    have hnodup : ((getAttachmentsByIDs rows ids).map Attachment.id).Nodup :=
      .sublist (filter_sublist.map _) hunique
    have hsubset : (getAttachmentsByIDs rows ids).map Attachment.id ⊆ ids := by
      intro id hid
      obtain ⟨a, ha, rfl⟩ := mem_map.mp hid
      exact of_decide_eq_true (mem_filter.mp ha).2
    have hperm := (subperm_of_subset hnodup hsubset).perm_of_length_le (by
      rw [length_map, hlength])
    intro id hid
    obtain ⟨a, ha, rfl⟩ := mem_map.mp (hperm.mem_iff.mpr hid)
    refine ⟨a, (mem_filter.mp ha).1, rfl, ?_⟩
    by_contra hne
    exact hcompleted ⟨a, ha, hne⟩

section Calls

variable {w : World} {o : Outcome} {p p' : Phase} {e : Write} {others : List Phase}

theorem findPending_some {rows : List Attachment} {id uploaderID : ID}
    (h : findPending rows id uploaderID = some a) :
    a ∈ rows ∧ a.id = id ∧ a.uploaderID = uploaderID ∧ a.status = .pending := by
  have hfound := find?_some h
  exact ⟨mem_of_find?_eq_some h, of_decide_eq_true hfound⟩

theorem unsettled_process (hunique : UniqueOn Attachment.id w.attachments)
    {id uploaderID : ID} (hfound : findPending w.attachments id uploaderID = some a) :
    Unsettled (w.apply (.transitionToProcessing id uploaderID)) a.id := by
  obtain ⟨ha, hid, huploader, hpending⟩ := findPending_some hfound
  intro a' ha' hid'
  obtain ⟨a₀, ha₀, rfl⟩ := mem_updateWhere.mp ha'
  have hsame : a₀ = a := by
    refine eq_of_key hunique ha₀ ha ?_
    split at hid'
    · exact hid'
    · exact hid'
  subst hsame
  rw [if_pos (decide_eq_true ⟨hid, huploader, hpending⟩)]

theorem Change.keeps_holds (h : Change w o p e p') (hstored : Stored w) (hlocal : Local w p)
    (hspares : Spares w others p) : ∀ id ∈ p'.holds, Available (w.apply e) id := by
  cases h with
  | checkSend checked =>
    intro id hid
    obtain ⟨a, ha, rfl, hcompleted⟩ := checkAttachments_ok hstored.linked.unique checked id hid
    exact ⟨a, ha, rfl, hcompleted, hspares.2 a ha hid hcompleted⟩
  | readySend => exact hlocal.holds
  | insert =>
    intro id hid
    split at hid
    · cases hid
    · cases hid
  | _ =>
    intro id hid
    cases hid

theorem Change.keeps_upload (h : Change w o p e p') (hstored : Stored w) (hlocal : Local w p) :
    ∀ id, p'.upload = some id → Unsettled (w.apply e) id := by
  cases h with
  | process found =>
    intro id hid
    cases hid
    exact unsettled_process hstored.linked.unique found
  | accept | image | reject => exact hlocal.upload
  | thumbnail tried thumbnailKey =>
    intro id hid
    rcases tried with rfl | rfl
    · exact hlocal.upload id hid
    · exact hlocal.upload id hid
  | discard tried =>
    rename_i r todo error
    intro id hid
    have hbefore := hlocal.upload id hid
    rcases tried with rfl | rfl
    · cases r with
      | object key => exact hbefore
      | row rowID =>
        intro a' ha'
        exact hbefore a' (mem_deleteWhere.mp ha').1
    · exact hbefore
  | insert =>
    intro id hid
    split at hid
    · cases hid
    · cases hid
  | _ =>
    intro id hid
    cases hid

theorem Change.keeps_own (h : Change w o p e p') (hstored : Stored w) (hown : OwnUpload p) :
    OwnUpload p' := by
  cases h with
  | process found => exact hstored.keys _ (findPending_some found).1
  | reject own error =>
    intro r hr
    rcases own r hr with rfl | rfl
    · exact hown
    · rfl
  | discard tried =>
    intro r hr
    exact hown r (mem_cons_of_mem _ hr)
  | insert =>
    split
    · trivial
    · trivial
  | _ => trivial

theorem Change.keeps_local (h : Change w o p e p') (hstored : Stored w) (hlocal : Local w p)
    (hspares : Spares w others p) : Local (w.apply e) p' where
  sent := h.linksSent hlocal.sent
  holds := h.keeps_holds hstored hlocal hspares
  upload := h.keeps_upload hstored hlocal
  own := h.keeps_own hstored hlocal.own

variable {q : Phase}

theorem Change.keeps_other (h : Change w o p e p') (hstored : Stored w) (hlocal : Local w p)
    (hcareful : Careful w others p o) (hq : q ∈ others) (hother : Local w q) (hapart : Apart w p q)
    : Local (w.apply e) q where
  sent := hother.sent.apply e
  holds := by
    intro id hid
    refine (hother.holds id hid).apply h.writes hstored hlocal ?_
    intro hdisturbs
    exact (hcareful.1.1 id hdisturbs).2 q hq hid
  upload := by
    intro id hid
    refine (hother.upload id hid).apply ?_ ?_
    · rintro new rfl rfl
      cases h.writes with
      | create fresh => exact hcareful.2 rfl q hq hid
    · rintro size type thumbnail rfl
      cases h.writes with
      | complete => exact hapart _ rfl hid
  own := hother.own

theorem apart_of_none (hnone : p'.upload = none) : Apart w p' q := by
  intro id hid
  rw [hnone] at hid
  cases hid

theorem Change.keeps_apart (h : Change w o p e p') (hother : Local w q) (hapart : Apart w p q) :
    Apart (w.apply e) p' q := by
  cases h with
  | process found =>
    intro id hid hq
    cases hid
    -- the other call would already be processing the row
    obtain ⟨ha, -, -, hpending⟩ := findPending_some found
    have hprocessing := hother.upload _ hq _ ha rfl
    rw [hpending] at hprocessing
    cases hprocessing
  | accept | image | reject | thumbnail | discard => exact hapart
  | insert =>
    split
    · exact apart_of_none rfl
    · exact apart_of_none rfl
  | _ => exact apart_of_none rfl

end Calls

/-! ## Section 5: Runs -/

abbrev StoredInv : State → Prop := Pool.Inv Stored Local Apart

theorem storedInv_next : Pool.AllowedKeeps Careful next StoredInv := by
  intro sh p others o sh' p' h hcareful hnext
  obtain ⟨e, rfl, hchange⟩ := next_change hnext
  have hlocal : Local sh p := h.each p mem_cons_self
  refine h.replace (hchange.writes.stored h.shared hlocal hcareful.1)
    (hchange.keeps_local h.shared hlocal hcareful.1) ?_ fun _ _ hapart => hapart
  intro q hq hother hapart
  exact ⟨hchange.keeps_other h.shared hlocal hcareful hq hother hapart,
    hchange.keeps_apart hother hapart⟩

theorem storedInv_start (sh : World) (calls : List Phase) (call : Call)
    (h : StoredInv { shared := sh, calls }) (hkeeps : KeepsTables { shared := sh, calls } call) :
    StoredInv { shared := sh, calls := Phase.begin call :: calls } := by
  have hnone : (Phase.begin call).upload = none := by
    cases call <;> rfl
  refine h.cons ⟨?_, ?_, ?_, ?_⟩ fun _ _ => apart_of_none hnone
  · cases call <;> trivial
  · intro id hid
    cases call <;> cases hid
  · intro id hid
    rw [hnone] at hid
    cases hid
  · cases call with
    | changeTables db => exact hkeeps
    | _ => trivial

/-- A message that is sent and linked: if an attachment has no channel, it is because the
    attachments of a channel in which it was sent have been detached. -/
def Delivered (s : State) : Prop :=
  ∀ req, .sent req true ∈ s.calls → ChannelExists s.shared req.channelID →
    ∀ a ∈ s.shared.attachments, a.id ∈ req.attachmentIDs → a.channelID = none →
      ∃ q ∈ s.calls, ∃ c, q.detached = some c ∧ SentIn s.shared a.id c

section Deliveries

variable {w : World} {o : Outcome} {p p' : Phase} {e : Write} {others : List Phase}

theorem Change.keeps_detached (h : Change w o p e p') (hdetached : p.detached = some c) :
    p'.detached = some c := by
  cases h with
  | drop | dropFail => exact hdetached
  | stop result running =>
    rw [running] at hdetached
    cases hdetached
  | _ => cases hdetached

theorem Change.detaches (h : Change w o p (.nullifyChannelAttachments c) p') :
    p'.detached = some c := by
  generalize he : Write.nullifyChannelAttachments c = e at h
  have hwrites := h.writes
  rw [← he] at hwrites
  cases hwrites with
  | detach =>
    cases h with
    | detach tried => rfl
    | stop result running => cases he

theorem linked_channel (hstored : Stored w) {req : SendMessageRequest}
    (hsent : ∀ id ∈ req.attachmentIDs, SentIn w id req.channelID)
    (hexists : ChannelExists w req.channelID)
    (ha : a ∈ (w.apply (.linkAttachments req.attachmentIDs req.channelID)).attachments)
    (hid : a.id ∈ req.attachmentIDs) : a.channelID ≠ none := by
  obtain ⟨a₀, ha₀, rfl⟩ := mem_updateWhere.mp ha
  have hid₀ : a₀.id ∈ req.attachmentIDs := by
    split at hid
    · exact hid
    · exact hid
  obtain ⟨m, hm, hchannel, hmem⟩ := hsent a₀.id hid₀
  obtain ⟨b, hb, hsame, hcompleted, -⟩ :=
    hstored.available a₀.id ⟨m, hm, hchannel ▸ hexists, hmem⟩
  obtain rfl : b = a₀ := eq_of_key hstored.linked.unique hb ha₀ hsame
  rw [if_pos (decide_eq_true ⟨hid₀, hcompleted⟩)]
  exact Option.some_ne_none _

theorem Change.sends {req : SendMessageRequest} (h : Change w o p e (.sent req true)) :
    req.attachmentIDs = [] ∨
      (∃ n, p = .linking req n) ∧ e = .linkAttachments req.attachmentIDs req.channelID := by
  generalize hp' : Phase.sent req true = p' at h
  cases h with
  | insert =>
    split at hp'
    · cases hp'
      exact Or.inl ‹_›
    · cases hp'
  | link =>
    cases hp'
    exact Or.inr ⟨⟨_, rfl⟩, rfl⟩
  | _ => cases hp'

theorem delivered_next (h : StoredInv { shared := w, calls := p :: others })
    (hdelivered : Delivered { shared := w, calls := p :: others })
    (hchange : Change w o p e p') : Delivered { shared := w.apply e, calls := p' :: others } := by
  have hlocal : Local w p := h.each p mem_cons_self
  intro req hsent hexists a' ha' hid hnone
  have hexists₀ : ChannelExists w req.channelID :=
    hchange.writes.channelExists hlocal.own hexists
  -- a call that has detached a channel stays one
  have hkeep : ∀ id, (∃ q ∈ p :: others, ∃ c, q.detached = some c ∧ SentIn w id c) →
      ∃ q ∈ p' :: others, ∃ c, q.detached = some c ∧ SentIn (w.apply e) id c := by
    rintro id ⟨q, hq, c, hdetached, hsentIn⟩
    rcases mem_cons.mp hq with rfl | hq
    · exact ⟨p', mem_cons_self, c, hchange.keeps_detached hdetached, hsentIn.apply e⟩
    · exact ⟨q, mem_cons_of_mem _ hq, c, hdetached, hsentIn.apply e⟩
  rcases mem_cons.mp hsent with rfl | hsent
  · rcases hchange.sends with hnil | ⟨⟨n, rfl⟩, rfl⟩
    · rw [hnil] at hid
      cases hid
    · exact absurd hnone (linked_channel h.shared hlocal.sent.2 hexists₀ ha' hid)
  · have hother : Local w (.sent req true) := h.each _ (mem_cons_of_mem _ hsent)
    rcases row_of_apply ha' with rfl | ⟨a, ha, hevolves⟩
    · exfalso
      obtain ⟨m, hm, hchannel, hmem⟩ := hother.sent a'.id hid
      obtain ⟨b, hb, hsame, -⟩ :=
        h.shared.available a'.id ⟨m, hm, hchannel ▸ hexists₀, hmem⟩
      cases hchange.writes with
      | create fresh => exact fresh b hb hsame
    · rw [hevolves.id] at hid ⊢
      cases hevolves.relinks with
      | keep channel linked =>
        exact hkeep a.id (hdelivered req (mem_cons_of_mem _ hsent) hexists₀ a ha hid
          (channel.symm.trans hnone))
      | link ids c write mem channel linked =>
        rw [channel] at hnone
        cases hnone
      | detach c write before channel linked =>
        subst write
        exact ⟨p', mem_cons_self, c, hchange.detaches,
          ((h.shared.linked.sent a ha c before).2).apply _⟩

end Deliveries

theorem stored_exec {db : DB} {sounds : List Sound} {now : Int} {evs : List Event}
    (hrun : Guarded step (Pool.Allows KeepsTables Careful) (initial db sounds now) evs) :
    StoredInv (exec step (initial db sounds now) evs) ∧
      Delivered (exec step (initial db sounds now) evs) := by
  refine Pool.keeps_exec (J := fun s => StoredInv s ∧ Delivered s) ?_ ?_ ?_ ?_ hrun
  · rintro sh l l' hperm ⟨hinv, hdelivered⟩
    refine ⟨Pool.Inv.perm Apart.symm sh l l' hperm hinv, ?_⟩
    intro req hsent hexists a ha hid hnone
    obtain ⟨q, hq, hdetached⟩ :=
      hdelivered req (hperm.mem_iff.mpr hsent) hexists a ha hid hnone
    exact ⟨q, hperm.mem_iff.mp hq, hdetached⟩
  · rintro sh calls call ⟨hinv, hdelivered⟩ hkeeps
    refine ⟨storedInv_start sh calls call hinv hkeeps, ?_⟩
    intro req hsent hexists a ha hid hnone
    have hbefore : .sent req true ∈ calls := by
      rcases mem_cons.mp hsent with hnew | hold
      · cases call <;> cases hnew
      · exact hold
    obtain ⟨q, hq, hdetached⟩ := hdelivered req hbefore hexists a ha hid hnone
    exact ⟨q, mem_cons_of_mem _ hq, hdetached⟩
  · rintro sh p others o sh' p' ⟨hinv, hdelivered⟩ hcareful hnext
    refine ⟨storedInv_next sh p others o sh' p' hinv hcareful hnext, ?_⟩
    obtain ⟨e, rfl, hchange⟩ := next_change hnext
    exact delivered_next hinv hdelivered hchange
  · refine ⟨Pool.Inv.init ⟨⟨nodup_nil, ?_, ?_⟩, ?_, ?_, ?_⟩, ?_⟩
    · intro a ha
      cases ha
    · intro a ha
      cases ha
    · intro a ha
      cases ha
    · rintro id ⟨m, hm, -⟩
      cases hm
    · intro entry hentry
      cases hentry
    · intro req hsent
      cases hsent

theorem mayView_of_hasViewChannel {w : World} (hstored : Stored w)
    (hview : hasViewChannel w.db.tables w.now userID channelID = true) :
    w.mayView userID channelID = true := by
  unfold World.mayView MediaAccessStore.cachedHasViewChannel
  split
  · rename_i entry hlive
    obtain ⟨hlookup, -⟩ := Option.filter_eq_some_iff.mp hlive
    obtain ⟨hmem, hkey⟩ := mem_of_lookup hlookup
    obtain ⟨rfl, rfl⟩ := Prod.mk.inj hkey
    by_contra hdenied
    rw [Bool.not_eq_true] at hdenied
    rw [hstored.denials entry hmem hdenied] at hview
    cases hview
  · exact hview

theorem granted_of_view {w : World} (hstored : Stored w) (ha : a ∈ w.attachments)
    (hsound : a.uploadPurpose ≠ .soundboard) (hchannel : a.channelID = some c)
    (hview : hasViewChannel w.db.tables w.now userID c = true) : Granted w a userID := by
  by_cases hchat : a.uploadPurpose = .chatAttachment
  · have hnot : ¬ a.Detached := by
      rintro ⟨hnone, -⟩
      rw [hchannel] at hnone
      cases hnone
    exact (granted_iff hstored.linked ha hchat hnot).mpr
      (.inr ⟨c, hchannel, mayView_of_hasViewChannel hstored hview⟩)
  · unfold Granted World.checkAttachmentAccess MediaAccessStore.checkAttachmentAccess
    split
    · exact absurd ‹_› hchat
    · rfl
    · exact absurd ‹_› hsound
    · rfl
    · rfl
    · rfl
    · rfl

def annShows : List Event := annUploads ++ annSends 3 "art" "m1"

/-- The viewers of a message's channel who may not download one of its attachments. -/
def Denies (s : State) (userID : ID) : Prop :=
  ∃ m ∈ s.shared.messages, ChannelExists s.shared m.channelID ∧
    hasViewChannel s.shared.db.tables s.shared.now userID m.channelID = true ∧
    ∃ a ∈ s.shared.attachments, a.id ∈ m.attachmentIDs ∧ ¬ Granted s.shared a userID

instance (s : State) (userID : ID) : Decidable (Denies s userID) :=
  inferInstanceAs (Decidable (∃ m ∈ s.shared.messages, _))

/-- Ann uploads a sound, which nothing keeps from being sent as well. -/
def annRecords : List Event :=
  [.start (.createUpload (some "ann")
      { filename := "meow.mp3", contentType := "audio/mpeg", sizeBytes := 9,
        purpose := .soundboard }),
    .advance 0 {}, .advance 0 { newID := "a1" },
    .start (.putObject { userID := "ann", attachmentID := "a1", name := "meow.mp3" }),
    .advance 1 {}, .start (.completeUpload (some "ann") { uploadID := "a1" }), .advance 2 {},
    .advance 2 { detectedType := "audio/mpeg" }, .advance 2 { sizeBytes := 9 }]

/-- The cleanup has listed the picture before Ann sends it, and deletes its object. -/
example :
    InUse (galleryRun (annUploads ++ [.start (.elapse 90000), .advance 3 {},
      .start .cleanupOrphans, .advance 4 {}, .advance 4 {}] ++ annSends 5 "art" "m1" ++
        [.advance 4 {}])).shared "a1" ∧
    (galleryRun (annUploads ++ [.start (.elapse 90000), .advance 3 {},
      .start .cleanupOrphans, .advance 4 {}, .advance 4 {}] ++ annSends 5 "art" "m1" ++
        [.advance 4 {}])).shared.objects = [] := by
  decide +kernel

end Meza.Media
