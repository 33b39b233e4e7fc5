import Meza.Store.ChatStore

/-! # Attachments

    The rows of `attachments` with the functions of `MediaStore` on them, and
    `MediaAccessStore`, which tells who may download an attachment. Columns that
    only describe the file to a client (its dimensions, the micro thumbnail, the
    wrapped key, the spoiler flag) are left out.

    Timestamps are Unix seconds. -/

namespace Meza.Media

open Store Table ChatStore

/-! ## Section 1: Rows -/

/-- The column `upload_purpose`. -/
inductive Purpose where
  | chatAttachment
  | profileAvatar
  | profileBanner
  | serverIcon
  | serverBanner
  | serverEmoji
  | soundboard
  deriving DecidableEq, Repr

inductive Status where
  | pending
  | processing
  | completed
  deriving DecidableEq, Repr

/-- `uploads/{user}/{attachment}/{name}`. Ids have no slash, so that a key has only one
    reading. -/
structure ObjectKey where
  userID : ID
  attachmentID : ID
  name : String
  deriving DecidableEq, Repr

structure Attachment where
  id : ID
  uploaderID : ID
  uploadPurpose : Purpose
  objectKey : ObjectKey
  thumbnailKey : Option ObjectKey := none
  contentType : String := ""
  originalContentType : String := ""
  sizeBytes : Int := 0
  status : Status := .pending
  channelID : Option ID := none
  createdAt : Int := 0
  completedAt : Option Int := none
  expiresAt : Option Int := none
  linkedAt : Option Int := none
  deriving DecidableEq, Repr

/-- A row of `soundboard_sounds`. -/
structure Sound where
  attachmentID : ID
  serverID : Option ID := none
  userID : ID
  deriving DecidableEq, Repr

/-! ## Section 2: `MediaStore` -/

namespace MediaStore

/-- The primary key and the unique object key. -/
def createAttachment (rows : List Attachment) (a : Attachment) :
    Except StoreError (List Attachment) := do
  refuseIf (∃ row ∈ rows, row.id = a.id ∨ row.objectKey = a.objectKey) .constraint
  return rows ++ [a]

def getAttachment (rows : List Attachment) (id : ID) : Option Attachment :=
  lookup Attachment.id id rows

/-- `WHERE id = ANY($1)`. -/
def getAttachmentsByIDs (rows : List Attachment) (attachmentIDs : List ID) : List Attachment :=
  rows.filter fun a => a.id ∈ attachmentIDs

def countPendingByUploader (rows : List Attachment) (uploaderID : ID) : Nat :=
  rows.countP fun a => a.uploaderID = uploaderID ∧ a.status = .pending

/-- The row that `TransitionToProcessing` finds. -/
def findPending (rows : List Attachment) (id uploaderID : ID) : Option Attachment :=
  rows.find? fun a => a.id = id ∧ a.uploaderID = uploaderID ∧ a.status = .pending

def processingExpiry : Int := 3600

def transitionToProcessing (now : Int) (id uploaderID : ID) (rows : List Attachment) :
    List Attachment :=
  updateWhere (fun a => a.id = id ∧ a.uploaderID = uploaderID ∧ a.status = .pending)
    (fun a => { a with status := .processing, expiresAt := some (now + processingExpiry) }) rows

/-- `RowsAffected`. -/
def isProcessing (rows : List Attachment) (id : ID) : Bool :=
  rows.any fun a => a.id = id ∧ a.status = .processing

def updateAttachmentCompleted (now : Int) (id : ID) (sizeBytes : Int) (contentType : String)
    (thumbnailKey : Option ObjectKey) (rows : List Attachment) : List Attachment :=
  updateWhere (fun a => a.id = id ∧ a.status = .processing)
    (fun a => { a with status := .completed, sizeBytes, contentType, thumbnailKey,
                       completedAt := some now, expiresAt := none }) rows

def deleteAttachment (id : ID) (rows : List Attachment) : List Attachment :=
  deleteWhere (fun a => a.id = id) rows

def resetExpiry : Int := 7200

def resetAttachmentToPending (now : Int) (id : ID) (rows : List Attachment) : List Attachment :=
  updateWhere (fun a => a.id = id ∧ a.status = .completed)
    (fun a => { a with status := .pending, expiresAt := some (now + resetExpiry) }) rows

def linkAttachments (now : Int) (ids : List ID) (channelID : ID) (rows : List Attachment) :
    List Attachment :=
  updateWhere (fun a => a.id ∈ ids ∧ a.status = .completed)
    (fun a => { a with linkedAt := some now, channelID := some channelID }) rows

/-- Called when a channel is deleted. -/
def nullifyChannelAttachments (channelID : ID) (rows : List Attachment) : List Attachment :=
  updateWhere (fun a => a.channelID = some channelID) (fun a => { a with channelID := none }) rows

/-- Completed chat attachments that no message has taken. -/
def findUnlinkedAttachments (rows : List Attachment) (olderThan : Int) (limit : Nat) :
    List Attachment :=
  ((rows.filter fun a => a.status = .completed ∧ a.linkedAt = none ∧
      a.uploadPurpose = .chatAttachment ∧ ∃ t ∈ a.completedAt, t < olderThan).insertionSort
    fun a b => a.completedAt.getD 0 ≤ b.completedAt.getD 0).take limit

/-- Uploads that were not finished in time. -/
def findOrphanedUploads (rows : List Attachment) (before : Int) (limit : Nat) : List Attachment :=
  ((rows.filter fun a => a.status ≠ .completed ∧ ∃ t ∈ a.expiresAt, t < before).insertionSort
    fun a b => a.createdAt ≤ b.createdAt).take limit

end MediaStore

/-! ## Section 3: `MediaAccessStore` -/

/-- An answer of `HasViewChannel`; the key is the user and the channel. -/
structure PermCacheEntry where
  userID : ID
  channelID : ID
  allowed : Bool
  expires : Int
  deriving DecidableEq, Repr

def PermCacheEntry.key (e : PermCacheEntry) : ID × ID := (e.userID, e.channelID)

def permCacheTTL : Int := 300

namespace MediaAccessStore

/-- An entry that has not expired. -/
def liveEntry (now : Int) (cache : List PermCacheEntry) (userID channelID : ID) :
    Option PermCacheEntry :=
  (lookup PermCacheEntry.key (userID, channelID) cache).filter fun e => now < e.expires

/-- The answer, and the entry to store if it was not cached. -/
def cachedHasViewChannel (t : Tables) (now : Int) (cache : List PermCacheEntry)
    (userID channelID : ID) : Bool × Option PermCacheEntry :=
  match liveEntry now cache userID channelID with
  | some e => (e.allowed, none)
  | none =>
    let allowed := hasViewChannel t now userID channelID
    (allowed, some { userID, channelID, allowed, expires := now + permCacheTTL })

def remember (e : PermCacheEntry) (cache : List PermCacheEntry) : List PermCacheEntry :=
  e :: deleteWhere (fun old => old.key = e.key) cache

def errNotFound : StoreError := .notFound "not found"

def checkServerMembership (t : Tables) (serverID userID : ID) : Except StoreError Unit :=
  refuseIf (¬ ∃ m ∈ t.members, m.serverID = serverID ∧ m.userID = userID) errNotFound

def checkSharedServerMembership (t : Tables) (uploaderID userID : ID) : Except StoreError Unit :=
  refuseIf (¬ ∃ m₁ ∈ t.members, ∃ m₂ ∈ t.members,
    m₁.serverID = m₂.serverID ∧ m₁.userID = uploaderID ∧ m₂.userID = userID) errNotFound

/-- An attachment without a channel is for its uploader. If it is linked, it stems from the
    time before there was a `channel_id`, and those who share a server with the uploader may
    have it. -/
def checkWithoutChannel (t : Tables) (a : Attachment) (userID : ID) : Except StoreError Unit :=
  if a.uploaderID = userID then .ok ()
  else if a.linkedAt ≠ none then checkSharedServerMembership t a.uploaderID userID
  else .error errNotFound

def checkChatAttachmentAccess (t : Tables) (now : Int) (cache : List PermCacheEntry)
    (a : Attachment) (userID : ID) : Except StoreError Unit × Option PermCacheEntry :=
  let channelID := a.channelID.getD ""
  if channelID = "" then (checkWithoutChannel t a userID, none)
  else
    let answer := cachedHasViewChannel t now cache userID channelID
    (refuseIf (answer.1 = false) errNotFound, answer.2)

def checkSoundboardAccess (t : Tables) (sounds : List Sound) (a : Attachment) (userID : ID) :
    Except StoreError Unit :=
  match sounds.find? fun s => s.attachmentID = a.id with
  | none => refuseIf (a.uploaderID ≠ userID) errNotFound
  | some sound =>
    let serverID := sound.serverID.getD ""
    if serverID = "" then refuseIf (sound.userID ≠ userID) errNotFound
    else checkServerMembership t serverID userID

/-- The result, and the cache entry to store. -/
def checkAttachmentAccess (t : Tables) (sounds : List Sound) (now : Int)
    (cache : List PermCacheEntry) (a : Attachment) (userID : ID) :
    Except StoreError Unit × Option PermCacheEntry :=
  match a.uploadPurpose with
  | .chatAttachment => checkChatAttachmentAccess t now cache a userID
  | .serverEmoji => (.ok (), none)
  | .soundboard => (checkSoundboardAccess t sounds a userID, none)
  | .profileAvatar | .profileBanner | .serverIcon | .serverBanner => (.ok (), none)

end MediaAccessStore

namespace MediaAccessStore

section Cache

variable {t : Tables} {now : Int} {cache : List PermCacheEntry} {userID channelID : ID}

theorem lookup_remember (e : PermCacheEntry) (k : ID × ID) :
    lookup PermCacheEntry.key k (remember e cache) =
      if e.key = k then some e else lookup PermCacheEntry.key k cache := by
  by_cases hk : e.key = k
  · rw [if_pos hk]
    simp [lookup, remember, hk]
  · have hkept : lookup PermCacheEntry.key k
        (deleteWhere (fun old => old.key = e.key) cache) = lookup PermCacheEntry.key k cache := by
      refine lookup_deleteWhere ?_ cache
      intro old hold
      exact decide_eq_false fun h => hk (h.symm.trans hold)
    rw [if_neg hk, ← hkept]
    simp [lookup, remember, hk]

theorem cachedHasViewChannel_true
    (h : (cachedHasViewChannel t now cache userID channelID).1 = true) :
    (∃ e ∈ cache, e.key = (userID, channelID) ∧ e.allowed = true ∧ now < e.expires) ∨
      hasViewChannel t now userID channelID = true := by
  unfold cachedHasViewChannel at h
  split at h
  · rename_i e hlive
    obtain ⟨hlookup, hexpires⟩ := Option.filter_eq_some_iff.mp hlive
    obtain ⟨hmem, hkey⟩ := mem_of_lookup hlookup
    exact Or.inl ⟨e, hmem, hkey, h, of_decide_eq_true hexpires⟩
  · exact Or.inr h

variable {e : PermCacheEntry}

theorem cachedHasViewChannel_entry
    (h : (cachedHasViewChannel t now cache userID channelID).2 = some e) :
    liveEntry now cache userID channelID = none ∧
      e = { userID, channelID, allowed := hasViewChannel t now userID channelID,
            expires := now + permCacheTTL } := by
  unfold cachedHasViewChannel at h
  split at h
  · cases h
  · exact ⟨‹_›, (Option.some.inj h).symm⟩

theorem cachedHasViewChannel_remember {u c : ID}
    (h : (cachedHasViewChannel t now cache u c).2 = some e) :
    (cachedHasViewChannel t now (remember e cache) userID channelID).1 =
      (cachedHasViewChannel t now cache userID channelID).1 := by
  obtain ⟨hmiss, he⟩ := cachedHasViewChannel_entry h
  have hkey : e.key = (u, c) := by rw [he, PermCacheEntry.key]
  by_cases hk : (u, c) = (userID, channelID)
  · have hlive : liveEntry now (remember e cache) userID channelID = some e := by
      unfold liveEntry
      rw [lookup_remember, if_pos (hkey.trans hk), he]
      simp [permCacheTTL]
    cases hk
    unfold cachedHasViewChannel
    rw [hlive, hmiss, he]
  · -- another key
    unfold cachedHasViewChannel liveEntry
    rw [lookup_remember, if_neg fun h => hk (hkey.symm.trans h)]

theorem checkAttachmentAccess_entry {sounds : List Sound} {a : Attachment}
    (h : (checkAttachmentAccess t sounds now cache a userID).2 = some e) :
    (cachedHasViewChannel t now cache userID (a.channelID.getD "")).2 = some e := by
  unfold checkAttachmentAccess at h
  split at h
  · unfold checkChatAttachmentAccess at h
    dsimp only at h
    split at h
    · cases h
    · exact h
  · cases h
  · cases h
  · cases h
  · cases h
  · cases h
  · cases h

theorem checkAttachmentAccess_chat {sounds : List Sound} {a : Attachment}
    (hchat : a.uploadPurpose = .chatAttachment) :
    (checkAttachmentAccess t sounds now cache a userID).1 = .ok () ↔
      (a.channelID.getD "" = "" ∧ (a.uploaderID = userID ∨
        a.linkedAt ≠ none ∧ checkSharedServerMembership t a.uploaderID userID = .ok ())) ∨
      (a.channelID.getD "" ≠ "" ∧
        (cachedHasViewChannel t now cache userID (a.channelID.getD "")).1 = true) := by
  unfold checkAttachmentAccess
  rw [hchat]
  unfold checkChatAttachmentAccess
  by_cases hchannel : a.channelID.getD "" = ""
  · simp only [hchannel, if_true, true_and, ne_eq, not_true_eq_false, false_and, or_false]
    unfold checkWithoutChannel
    by_cases huploader : a.uploaderID = userID
    · simp [huploader]
    · by_cases hlinked : a.linkedAt = none
      · simp [huploader, hlinked]
      · simp [huploader, hlinked]
  · simp only [hchannel, if_false, false_and, false_or, ne_eq, not_false_eq_true, true_and]
    rw [refuseIf_ok, Bool.not_eq_false]

end Cache

end MediaAccessStore

/-! ## Section 4: Who may view a channel, later and without another channel -/

section View

variable {t : Tables} {userID : ID}

/-- Time takes timeouts away, and a timed-out member sees every channel. -/
theorem hasViewChannel_of_later {now later : Int} (hle : now ≤ later)
    (h : hasViewChannel t later userID channelID = true) :
    hasViewChannel t now userID channelID = true := by
  unfold hasViewChannel at h ⊢
  split at h
  · exact h
  · split at h
    · rw [if_pos ‹_›]
    · rename_i howner
      rw [if_neg howner]
      split at h
      · cases h
      · rename_i server channelGroupID _ _ member _
        rw [Permissions.has_viewChannel_resolveEffective _ _ rfl] at h ⊢
        simp only [Bool.or_eq_true, Permissions.ResolveInput.timedOut, decide_eq_true_eq] at h ⊢
        -- a timeout that runs later runs now
        rcases h with (hadmin | htime) | hlayers
        · exact .inl (.inl hadmin)
        · exact .inl (.inr ⟨htime.1, by omega⟩)
        · exact .inr hlayers

variable {channelID deletedID : ID}

theorem lookup_withoutChannel (t : Tables) (hne : channelID ≠ deletedID) :
    lookup Channel.id channelID (withoutChannel t deletedID).channels =
      (lookup Channel.id channelID t.channels).map fun c =>
        if c.voiceTextChannelID = some deletedID then { c with voiceTextChannelID := none }
        else c := by
  show lookup Channel.id channelID (updateWhere _ _ _) = _
  rw [lookup_updateWhere (f := fun c : Channel => { c with voiceTextChannelID := none })
    (fun _ => rfl), lookup_deleteWhere]
  · simp only [decide_eq_true_eq]
  · intro c hc
    rw [hc]
    exact decide_eq_false hne

theorem channelServer_withoutChannel (t : Tables) (hne : channelID ≠ deletedID) :
    channelServer (withoutChannel t deletedID) channelID = channelServer t channelID := by
  unfold channelServer
  rw [lookup_withoutChannel t hne]
  cases lookup Channel.id channelID t.channels with
  | none => rfl
  | some c =>
    rw [Option.map_some]
    by_cases hcompanion : c.voiceTextChannelID = some deletedID
    · rw [if_pos hcompanion]
      rfl
    · rw [if_neg hcompanion]
      rfl

theorem channelServer_withoutChannel_self (t : Tables) (channelID : ID) :
    channelServer (withoutChannel t channelID) channelID = none := by
  have hnone : lookup Channel.id channelID (withoutChannel t channelID).channels = none := by
    rw [lookup_eq_none]
    intro c hc hid
    obtain ⟨c₀, hc₀, rfl⟩ := mem_updateWhere.mp hc
    have hkept := (mem_deleteWhere.mp hc₀).2
    have hid₀ : c₀.id = channelID := by
      split at hid
      · exact hid
      · exact hid
    simp [hid₀] at hkept
  unfold channelServer
  rw [hnone]
  rfl

theorem isChannelMember_withoutChannel
    (h : isChannelMember (withoutChannel t deletedID) channelID userID = true) :
    channelID ≠ deletedID ∧ isChannelMember t channelID userID = true := by
  obtain ⟨cm, hcm, hmatch⟩ := List.any_eq_true.mp h
  obtain ⟨hcm, hkept⟩ := mem_deleteWhere.mp hcm
  refine ⟨?_, List.any_eq_true.mpr ⟨cm, hcm, hmatch⟩⟩
  rintro rfl
  simp [(of_decide_eq_true hmatch).1] at hkept

/-- Overrides of the deleted channel do not reach another one. -/
theorem viewInput_withoutChannel (t : Tables) (hne : channelID ≠ deletedID) (serverID : ID)
    (channelGroupID : Option ID) (member : Member) :
    viewInput (withoutChannel t deletedID) serverID channelID channelGroupID member =
      viewInput t serverID channelID channelGroupID member := by
  have hoverrides : ∀ roleIDs userID,
      getAllOverrides (withoutChannel t deletedID) channelID channelGroupID roleIDs
        userID = getAllOverrides t channelID channelGroupID roleIDs userID := by
    intro roleIDs userID
    unfold getAllOverrides withoutChannel deleteWhere
    rw [List.filter_filter]
    congr 1
    apply List.filter_congr
    intro po _
    by_cases hscope : po.scope = .channel deletedID
    · -- a row that is deleted is about no other channel
      have hmiss : po.targets channelID channelGroupID = false := by
        unfold PermissionOverride.targets
        rw [hscope]
        exact decide_eq_false fun h => hne h.symm
      simp [hmiss]
    · simp [hscope]
  unfold viewInput
  simp only [hoverrides]
  rfl

/-- Deleting a channel leaves the others as they are, and nobody sees the deleted one. -/
theorem hasViewChannel_withoutChannel {now : Int}
    (h : hasViewChannel (withoutChannel t deletedID) now userID channelID = true) :
    hasViewChannel t now userID channelID = true := by
  by_cases hne : channelID = deletedID
  · -- without a server only its members could see it, and they go with it
    subst hne
    unfold hasViewChannel at h
    rw [channelServer_withoutChannel_self] at h
    exact absurd rfl (isChannelMember_withoutChannel h).1
  · unfold hasViewChannel at h ⊢
    rw [channelServer_withoutChannel t hne] at h
    simp only [viewInput_withoutChannel t hne] at h
    split at h
    · exact (isChannelMember_withoutChannel h).2
    · exact h

end View

end Meza.Media
