import Meza.Media.Steps

/-! # Who may download a chat attachment

    A chat attachment is for its uploader and for those who may view a channel in
    which it was sent. The media service keeps an answer about a channel for five
    minutes, so somebody who has just lost the permission can still download.

    Nothing is said about an attachment that has lost its channel: after
    `DeleteChannel` its row looks like one from before there was a `channel_id`,
    and the check falls back to shared servers. -/

namespace Meza.Media

open Store Run MediaAccessStore

/-! ## Section 1: Grants -/

def Granted (w : World) (a : Attachment) (userID : ID) : Prop :=
  (w.checkAttachmentAccess a userID).1 = .ok ()

instance (w : World) (a : Attachment) (userID : ID) : Decidable (Granted w a userID) :=
  decidable_of_iff ((w.checkAttachmentAccess a userID).1.isOk = true) (by
    unfold Granted
    cases (w.checkAttachmentAccess a userID).1 with
    | ok u => simp [Except.isOk, Except.toBool]
    | error e => simp [Except.isOk, Except.toBool])

/-- Linked, but to no channel. -/
def Attachment.Detached (a : Attachment) : Prop := a.channelID = none ∧ a.linkedAt ≠ none

instance (a : Attachment) : Decidable a.Detached := inferInstanceAs (Decidable (_ ∧ _))

/-- What the service answers about a channel. -/
def World.mayView (w : World) (userID channelID : ID) : Bool :=
  (cachedHasViewChannel w.db.tables w.now w.permCache userID channelID).1

variable {channelID userID : ID} {o : Outcome} {p : Phase} {w : World} {e : Write}

/-- An attachment that is not detached is for the uploader until it is linked, and then for
    those who may view its channel. -/
theorem granted_iff {a : Attachment} (hlinked : Linked w) (ha : a ∈ w.attachments)
    (hchat : a.uploadPurpose = .chatAttachment) (hnot : ¬ a.Detached) :
    Granted w a userID ↔ (a.channelID = none ∧ a.uploaderID = userID) ∨
      ∃ c, a.channelID = some c ∧ w.mayView userID c = true := by
  unfold Granted World.checkAttachmentAccess
  rw [checkAttachmentAccess_chat hchat]
  cases hchannel : a.channelID with
  | none =>
    have hunlinked : a.linkedAt = none := by
      by_contra hne
      exact hnot ⟨hchannel, hne⟩
    simp [hunlinked]
  | some c =>
    -- the check takes an empty `channel_id` for none
    have hne : c ≠ "" := (hlinked.sent a ha c hchannel).1
    simp [hne, World.mayView]

/-! ## Section 2: Answers are not older than five minutes -/

section Lately

variable (s₀ : State)

/-- The user could view the channel at a moment of the run less than five minutes ago. -/
def ViewedLately (evs : List Event) (userID channelID : ID) : Prop :=
  ∃ pre, pre <+: evs ∧
    hasViewChannel (exec step s₀ pre).shared.db.tables (exec step s₀ pre).shared.now
      userID channelID = true ∧
    (exec step s₀ evs).shared.now < (exec step s₀ pre).shared.now + permCacheTTL

/-- Every grant in the cache was right when it was stored. -/
def CacheSound (evs : List Event) (s : State) : Prop :=
  ∀ e ∈ s.shared.permCache, e.allowed = true → ∃ pre, pre <+: evs ∧
    hasViewChannel (exec step s₀ pre).shared.db.tables (exec step s₀ pre).shared.now
      e.userID e.channelID = true ∧
    e.expires = (exec step s₀ pre).shared.now + permCacheTTL

theorem Writes.entry (h : Writes w o p e) {entry : PermCacheEntry}
    (hentry : entry ∈ (w.apply e).permCache) :
    entry ∈ w.permCache ∨
      (entry.allowed = hasViewChannel w.db.tables w.now entry.userID entry.channelID ∧
        entry.expires = w.now + permCacheTTL) := by
  cases h with
  | remember answered =>
    rcases List.mem_cons.mp hentry with rfl | hold
    · -- it was not cached, so it has just been computed
      right
      obtain ⟨-, heq⟩ := cachedHasViewChannel_entry (checkAttachmentAccess_entry answered)
      rw [heq]
      exact ⟨rfl, rfl⟩
    · exact .inl (Table.mem_deleteWhere.mp hold).1
  | nothing | create | process | thumbnail | complete | discardObject | discardRow | upload
  | insert | reset | link | detach | drop | collectObject | collectRow | change | elapse =>
    exact .inl hentry

theorem cacheSound_exec (hempty : s₀.shared.permCache = []) (evs : List Event) :
    CacheSound s₀ evs (exec step s₀ evs) := by
  refine exec_history ?_ ?_ evs
  · intro e he
    rw [hempty] at he
    cases he
  · intro pre ev ih entry hentry hallowed
    have hold : entry ∈ (exec step s₀ pre).shared.permCache →
        ∃ pre', pre' <+: pre ++ [ev] ∧ hasViewChannel (exec step s₀ pre').shared.db.tables
        (exec step s₀ pre').shared.now entry.userID entry.channelID = true ∧
        entry.expires = (exec step s₀ pre').shared.now + permCacheTTL := by
      intro hmem
      obtain ⟨pre', hprefix, hview⟩ := ih entry hmem hallowed
      exact ⟨pre', hprefix.trans (List.prefix_append _ _), hview⟩
    rcases @Pool.step_shared _ _ _ _ .begin next (exec step s₀ pre) ev with
      heq | ⟨i, o, p, p', -, -, hnext, -⟩
    · rw [heq] at hentry
      exact hold hentry
    · obtain ⟨e, heq, hchange⟩ := next_change hnext
      rw [heq] at hentry
      rcases hchange.writes.entry hentry with hmem | ⟨hview, hexpires⟩
      · exact hold hmem
      · exact ⟨pre, List.prefix_append _ _, hview.symm.trans hallowed, hexpires⟩

theorem viewedLately_of_mayView (hempty : s₀.shared.permCache = []) {evs : List Event}
    (h : (exec step s₀ evs).shared.mayView userID channelID = true) :
    ViewedLately s₀ evs userID channelID := by
  rcases cachedHasViewChannel_true h with ⟨e, he, hkey, hallowed, hlive⟩ | hview
  · -- a live entry is younger than its five minutes
    obtain ⟨pre, hprefix, hview, hexpires⟩ := cacheSound_exec s₀ hempty evs e he hallowed
    obtain ⟨rfl, rfl⟩ := Prod.mk.inj hkey
    exact ⟨pre, hprefix, hview, hexpires ▸ hlive⟩
  · refine ⟨evs, List.prefix_rfl, hview, ?_⟩
    unfold permCacheTTL
    omega

end Lately

/-! ## Section 3: What can open an attachment -/

/-- The step of the call sends the attachment, changes the tables or lets time pass. -/
def Phase.mayOpen (id : ID) : Phase → Prop
  | .linking req _ => id ∈ req.attachmentIDs
  | .changing _ | .elapsing _ => True
  | _ => False

theorem dropChannel_view {db db' : DB} {ch : Channel} (h : dropChannel db ch = .ok db') {now : Int}
    (hview : hasViewChannel db'.tables now userID channelID = true) :
    hasViewChannel db.tables now userID channelID = true := by
  have hkeeps := dropChannel_keeps h (P := fun t =>
    hasViewChannel t now userID channelID = true →
      hasViewChannel db.tables now userID channelID = true) ?_ id
  · exact hkeeps hview
  · intro t deletedID ih hview'
    exact ih (hasViewChannel_withoutChannel hview')

/-- Fewer channels, fewer answers. -/
theorem mayView_dropChannel {db : DB} {ch : Channel} (h : dropChannel w.db ch = .ok db)
    (hview : (w.apply (.setDB db)).mayView userID channelID = true) :
    w.mayView userID channelID = true := by
  unfold World.mayView cachedHasViewChannel at hview ⊢
  -- the cache and the time are the same
  have hsame : liveEntry (w.apply (.setDB db)).now
      (w.apply (.setDB db)).permCache userID channelID =
        liveEntry w.now w.permCache userID channelID := rfl
  rw [hsame] at hview
  cases hlive : liveEntry w.now w.permCache userID channelID with
  | some e =>
    rw [hlive] at hview
    exact hview
  | none =>
    rw [hlive] at hview
    exact dropChannel_view h hview

theorem Writes.mayView (h : Writes w o p e) (id : ID)
    (hview : (w.apply e).mayView userID channelID = true) :
    w.mayView userID channelID = true ∨ p.mayOpen id := by
  cases h with
  | drop deleted => exact Or.inl (mayView_dropChannel deleted hview)
  | remember answered =>
    left
    have hentry := checkAttachmentAccess_entry answered
    unfold World.mayView
    rw [← cachedHasViewChannel_remember hentry]
    exact hview
  | change | elapse => exact Or.inr trivial
  | nothing | create | process | thumbnail | complete | discardObject | discardRow | upload
  | insert | reset | link | detach | collectObject | collectRow => exact Or.inl hview

theorem Writes.opens (h : Writes w o p e) (hlinked : Linked w) (hlinked' : Linked (w.apply e))
    {a a' : Attachment} (ha : a ∈ w.attachments) (ha' : a' ∈ (w.apply e).attachments)
    (hid : a'.id = a.id) (hchat : a'.uploadPurpose = .chatAttachment) (hnot : ¬ a'.Detached)
    (hdenied : ¬ Granted w a userID) (hgranted : Granted (w.apply e) a' userID) :
    p.mayOpen a.id := by
  rcases row_of_apply ha' with rfl | ⟨a₀, ha₀, hevolves⟩
  · cases h with
    | create fresh => exact absurd hid.symm (fresh a ha)
  · -- the row is the one that was denied
    have hsame : a₀ = a := Table.eq_of_key hlinked.unique ha₀ ha (hevolves.id.symm.trans hid)
    subst hsame
    have hchat₀ : a₀.uploadPurpose = .chatAttachment := hevolves.purpose.symm.trans hchat
    cases hevolves.relinks with
    | keep channel linked =>
      have hnot₀ : ¬ a₀.Detached := by
        rintro ⟨hnone, hmarked⟩
        exact hnot ⟨channel.trans hnone, linked ▸ hmarked⟩
      rcases (granted_iff hlinked' ha' hchat hnot).mp hgranted with
        ⟨hnone, huploader⟩ | ⟨c, hc, hview⟩
      · exfalso
        refine hdenied ((granted_iff hlinked ha hchat₀ hnot₀).mpr (.inl ⟨?_, ?_⟩))
        · exact channel.symm.trans hnone
        · exact hevolves.uploader.symm.trans huploader
      · rcases h.mayView a₀.id hview with hview₀ | hopen
        · exfalso
          refine hdenied ((granted_iff hlinked ha hchat₀ hnot₀).mpr (.inr ⟨c, ?_, hview₀⟩))
          exact channel.symm.trans hc
        · exact hopen
    | link ids c write mem channel linked =>
      -- sending it is one of the three ways
      subst write
      cases h with
      | link => exact mem
    | detach c write before channel linked =>
      -- a row with a channel is marked as linked, so it is detached now
      exfalso
      refine hnot ⟨channel, ?_⟩
      rw [linked]
      refine hlinked.marked a₀ ha ?_
      rw [before]
      exact Option.some_ne_none c

/-! ## Section 4: Confidentiality -/

/-- In every run, a chat attachment that is not detached is granted to its uploader or to
    somebody who could view a channel with it less than five minutes ago; and only sending
    it, a change of the tables or the time can turn a denial into a grant. -/
theorem attachments_confined (db : DB) (sounds : List Sound) (now : Int) (evs : List Event) :
    (∀ a ∈ (exec step (initial db sounds now) evs).shared.attachments, ∀ userID,
      a.uploadPurpose = .chatAttachment → ¬ a.Detached →
      Granted (exec step (initial db sounds now) evs).shared a userID →
      a.uploaderID = userID ∨
        ∃ c, SentIn (exec step (initial db sounds now) evs).shared a.id c ∧
          ViewedLately (initial db sounds now) evs userID c) ∧
    ∀ ev, ∀ a ∈ (exec step (initial db sounds now) evs).shared.attachments,
      ∀ a' ∈ (step (exec step (initial db sounds now) evs) ev).shared.attachments, ∀ userID,
      a'.id = a.id → a'.uploadPurpose = .chatAttachment → ¬ a'.Detached →
      ¬ Granted (exec step (initial db sounds now) evs).shared a userID →
      Granted (step (exec step (initial db sounds now) evs) ev).shared a' userID →
      ∃ i o p, ev = .advance i o ∧
        (exec step (initial db sounds now) evs).calls[i]? = some p ∧ p.mayOpen a.id := by
  have hlinked := (linksInv_exec db sounds now evs).shared
  constructor
  · intro a ha userID hchat hnot hgranted
    rcases (granted_iff hlinked ha hchat hnot).mp hgranted with ⟨-, huploader⟩ | ⟨c, hc, hview⟩
    · exact .inl huploader
    · exact .inr ⟨c, (hlinked.sent a ha c hc).2, viewedLately_of_mayView _ rfl hview⟩
  · intro ev a ha a' ha' userID hid hchat hnot hdenied hgranted
    have hlinked' : Linked (step (exec step (initial db sounds now) evs) ev).shared := by
      have hlater := (linksInv_exec db sounds now (evs ++ [ev])).shared
      rw [exec_append] at hlater
      exact hlater
    rcases @Pool.step_shared _ _ _ _ .begin next
        (exec step (initial db sounds now) evs) ev with
      heq | ⟨i, o, p, p', rfl, hp, hnext, -⟩
    · exfalso
      rw [heq] at ha' hgranted
      have hsame : a' = a := Table.eq_of_key hlinked.unique ha' ha hid
      subst hsame
      exact hdenied hgranted
    · obtain ⟨e, heq, hchange⟩ := next_change hnext
      rw [heq] at ha' hgranted hlinked'
      exact ⟨i, o, p, rfl, hp,
        hchange.writes.opens hlinked hlinked' ha ha' hid hchat hnot hdenied hgranted⟩

def galleryTables : Tables where
  users := [{ id := "owner", signingPublicKey := none }, { id := "ann", signingPublicKey := none },
    { id := "bob", signingPublicKey := none }]
  servers := [{ id := "srv", ownerID := "owner" }]
  members := [{ userID := "owner", serverID := "srv" }, { userID := "ann", serverID := "srv" },
    { userID := "bob", serverID := "srv" }]
  channels := [{ id := "art", serverID := some "srv", name := "art" },
    { id := "staff", serverID := some "srv", name := "staff" }]
  roles := [{ id := "srv", serverID := "srv", name := "@everyone",
              permissions := Permissions.viewChannel, position := 0 }]
  permissionOverrides := [{ id := "o1", scope := .channel "staff", subject := .user "bob",
                            allow := 0, deny := Permissions.viewChannel }]

def galleryDB : DB := ⟨galleryTables, by decide +kernel⟩

/-- Bob has left. -/
def withoutBob : DB :=
  ⟨ChatStore.withoutMember galleryTables "bob" "srv", by decide +kernel⟩

/-- Ann uploads a picture. -/
def annUploads : List Event :=
  [.start (.createUpload (some "ann")
      { filename := "cat.png", contentType := "application/octet-stream", sizeBytes := 9,
        purpose := .chatAttachment }),
    .advance 0 {}, .advance 0 { newID := "a1" },
    .start (.putObject { userID := "ann", attachmentID := "a1", name := "cat.png" }), .advance 1 {},
    .start (.completeUpload (some "ann") { uploadID := "a1", encryptedKey := [1] }), .advance 2 {},
    .advance 2 {}, .advance 2 { sizeBytes := 9 }]

/-- And stores a message with it; linking comes next. -/
def annPosts (i : Nat) (channelID messageID : ID) : List Event :=
  .start (.sendMessage (some "ann")
      { channelID, encryptedContent := [1], attachmentIDs := ["a1"], keyVersion := 1 }) ::
    [.advance i {}, .advance i {}, .advance i {}, .advance i { newID := messageID }]

def annSends (i : Nat) (channelID messageID : ID) : List Event :=
  annPosts i channelID messageID ++ [.advance i {}]

def bobDownloads (i : Nat) : List Event :=
  [.start (.getDownloadURL (some "bob") "a1"), .advance i {}, .advance i {}]

def galleryRun (evs : List Event) : State := exec step (initial galleryDB [] 100) evs

/-- Bob downloads the picture and leaves the server. -/
def bobLeaves : List Event :=
  annUploads ++ annSends 3 "art" "m1" ++ bobDownloads 4 ++
    [.start (.changeTables withoutBob), .advance 5 {}]

theorem attachments_confined_bobLeaves :
    ∃ a ∈ (galleryRun bobLeaves).shared.attachments,
      ∃ c, SentIn (galleryRun bobLeaves).shared a.id c ∧
        ViewedLately (initial galleryDB [] 100) bobLeaves "bob" c := by
  have hgranted : ∃ a ∈ (galleryRun bobLeaves).shared.attachments,
      a.uploadPurpose = .chatAttachment ∧ ¬ a.Detached ∧ a.uploaderID ≠ "bob" ∧
        Granted (galleryRun bobLeaves).shared a "bob" := by
    decide +kernel
  obtain ⟨a, ha, hchat, hnot, hother, hgranted⟩ := hgranted
  have hconfined := (attachments_confined galleryDB [] 100 bobLeaves).1 a ha "bob" hchat hnot
  exact ⟨a, ha, (hconfined hgranted).resolve_left hother⟩

/-- For five minutes he may download it again. -/
theorem bobLeaves_granted :
    ∃ a ∈ (galleryRun bobLeaves).shared.attachments,
      a.uploadPurpose = .chatAttachment ∧ a.uploaderID ≠ "bob" ∧
        Granted (galleryRun bobLeaves).shared a "bob" ∧
        ∀ m ∈ (galleryRun bobLeaves).shared.messages,
          hasViewChannel (galleryRun bobLeaves).shared.db.tables
            (galleryRun bobLeaves).shared.now "bob" m.channelID = false := by
  decide +kernel

/-- Bob does not see the staff channel, but when it is deleted he may have its pictures. -/
example :
    (∃ a ∈ (galleryRun (annUploads ++ annSends 3 "staff" "m1")).shared.attachments,
      ¬ Granted (galleryRun (annUploads ++ annSends 3 "staff" "m1")).shared a "bob") ∧
    ∃ a ∈ (galleryRun (annUploads ++ annSends 3 "staff" "m1" ++
        [.start (.deleteChannel (some "owner") "staff"), .advance 4 {}, .advance 4 {},
          .advance 4 {}])).shared.attachments,
      Granted (galleryRun (annUploads ++ annSends 3 "staff" "m1" ++
        [.start (.deleteChannel (some "owner") "staff"), .advance 4 {}, .advance 4 {},
          .advance 4 {}])).shared a "bob" := by
  decide +kernel

end Meza.Media
