import Meza.Client.MessageText
import Meza.Store.MessagePages

/-! # The backfill of the search index

    `backfillChannel` of `indexer.ts` goes back through the history of a channel, page by
    page, and indexes what it fetches. The server sends a page oldest first; the cursor
    is taken from its last message. -/

namespace Meza.Client.Backfill
open List Store.MessageStore

open Crypto.MessageContent (ParseError)
open MessageText (IndexableMessage toIndexable)
open Store (ID Archive unique_noPins)

/-! ## Section 1: The run -/

/-- What a run finds: the server's messages, the channel, the attachments that the server looks
    up, and the clock. -/
structure Setting where
  archive : Archive
  channelID : ID
  attachments : List ID → List MessageText.Attachment
  now : Int

section

variable (c : Setting)

/-- The rows of the channel, newest first. -/
def Setting.history : List Store.Message := newestFirst c.archive c.channelID

/-- A row as a response carries it. -/
def received (m : Store.Message) : MessageText.Message where
  id := m.messageID
  authorId := m.authorID
  encryptedContent := m.encryptedContent
  keyVersion := m.keyVersion
  attachments := c.attachments m.attachmentIDs
  createdAt := some m.createdAt
  mentionedUserIds := m.mentionedUserIDs
  mentionEveryone := m.mentionEveryone

def indexable (m : Store.Message) : Except ParseError (Option IndexableMessage) :=
  toIndexable c.now c.channelID (received c m)

def toBatch : List Store.Message → Except ParseError (List IndexableMessage)
  | [] => .ok []
  | msg :: msgs => do
    let indexable ← indexable c msg
    let batch ← toBatch msgs
    return indexable.toList ++ batch

/-- The pages that were fetched, and what was indexed. -/
structure Progress where
  fetched : List (List Store.Message) := []
  indexed : List IndexableMessage := []

/-- The loop, with the number of pages that it may still fetch. Content that cannot be parsed
    throws. -/
def backfill (batchSize : Nat) : Nat → ID → Progress
  | 0, _ => {}
  | pages + 1, beforeId =>
    let res := getMessages c.archive c.channelID { before := beforeId, limit := batchSize }
    match res.1.getLast? with
    | none => {}
    | some oldest =>
      match toBatch c res.1 with
      | .error _ => { fetched := [res.1] }
      | .ok batch =>
        let rest := if res.2 then backfill batchSize pages oldest.messageID else {}
        { fetched := res.1 :: rest.fetched, indexed := batch ++ rest.indexed }

/-- Phase A and phase B. -/
def totalPages : Nat := 10 + 20

def backfillChannel (batchSize : Nat) : Progress :=
  backfill c batchSize totalPages ""

/-- A message to be indexed: one of the newest 3000, not deleted, and indexable. -/
structure Wanted (m : Store.Message) (x : IndexableMessage) : Prop where
  newest : m ∈ c.history.take 3000
  there : m.deleted = false
  indexable : indexable c m = .ok (some x)

def Unwanted (rows : List Store.Message) : Prop :=
  ∀ m ∈ rows, ∀ x, ¬ Wanted c m x

/-- Of some rows, a run indexes what is wanted, and every page is older than those before. -/
structure CompleteOn (rows : List Store.Message) (p : Progress) : Prop where
  indexed : ∀ m ∈ rows, ∀ x, Wanted c m x → x ∈ p.indexed
  older : p.fetched.Pairwise fun page page' =>
    ∀ m ∈ page, ∀ m' ∈ page', m'.messageID < m.messageID

def Complete (batchSize : Nat) : Prop :=
  CompleteOn c c.history (backfillChannel c batchSize)

/-- What a page shows of the rows at the front. -/
def page (batchSize : Nat) (rows : List Store.Message) : List Store.Message :=
  (rows.take batchSize).filter (!·.deleted)

/-- What is older than the newest message that is not deleted. -/
def older (rows : List Store.Message) : List Store.Message := (rows.dropWhile (·.deleted)).tail

/-- What has to hold of the rows when a page is fetched; `next` if the page is full. -/
def PageOk (batchSize : Nat) (rows : List Store.Message) (next : Prop) : Prop :=
  if page batchSize rows = [] then Unwanted c (rows.drop batchSize)
  else if ∃ m ∈ page batchSize rows, (indexable c m).isOk = false then Unwanted c rows
  else rows.length < batchSize ∨ next

/-- Every page but the last has a single message that is not deleted. -/
def Spread (batchSize : Nat) : Nat → List Store.Message → Prop
  | 0, rows => PageOk c batchSize rows (Unwanted c (rows.drop batchSize))
  | pages + 1, rows => PageOk c batchSize rows
      ((page batchSize rows).length = 1 ∧ Spread batchSize pages (older rows))

end

/-! ## Section 2: Pages and batches -/

variable {c : Setting} {batchSize : Nat} {m : Store.Message}

theorem indexable_id {x : IndexableMessage}
    (h : indexable c m = .ok (some x)) : x.id = m.messageID := by
  unfold indexable toIndexable at h
  split at h
  · cases h
  · split at h
    · cases h
    · obtain ⟨parsed, -, h⟩ := bind_eq_ok.mp h
      split at h
      · cases h
      · split at h
        · cases h
          rfl
        · cases h

theorem toBatch_cases (msgs : List Store.Message) :
    ((∃ e, toBatch c msgs = .error e) ∧
      ∃ m ∈ msgs, (indexable c m).isOk = false) ∨
    ∃ batch, toBatch c msgs = .ok batch ∧
      (∀ m ∈ msgs, (indexable c m).isOk = true) ∧
      ∀ x, x ∈ batch ↔ ∃ m ∈ msgs, indexable c m = .ok (some x) := by
  induction msgs with
  | nil => exact .inr ⟨[], rfl, by simp, by simp⟩
  | cons m msgs ih =>
    rcases hm : indexable c m with e | found
    · exact .inl ⟨⟨e, by rw [toBatch, hm]; rfl⟩, m, mem_cons_self, by rw [hm]; rfl⟩
    · rcases ih with ⟨⟨e, he⟩, m', hm', hfails⟩ | ⟨batch, hbatch, hok, hmem⟩
      · exact .inl ⟨⟨e, by rw [toBatch, hm, he]; rfl⟩, m', mem_cons_of_mem _ hm', hfails⟩
      · refine .inr ⟨found.toList ++ batch, by rw [toBatch, hm, hbatch]; rfl,
          forall_mem_cons.mpr ⟨by rw [hm]; rfl, hok⟩, fun x => ?_⟩
        rw [mem_append, Option.mem_toList, hmem, exists_mem_cons_iff, hm]
        exact or_congr_left (by simp)

/-! ## Section 3: The loop over the rows -/

/-- The rows that a cursor leads to. -/
def rowsBefore (c : Setting) (beforeId : ID) : List Store.Message :=
  if beforeId = "" then c.history else c.history.filter (·.messageID < beforeId)

abbrev Descending (rows : List Store.Message) : Prop :=
  rows.Pairwise fun m m' => m'.messageID < m.messageID

variable {rows more : List Store.Message}

/-- What stands before the newest message of a page is deleted, and the next page has the rest. -/
theorem page_eq_cons (h : page batchSize rows = m :: more) :
    ∃ dead, rows = dead ++ m :: older rows ∧ (∀ x ∈ dead, x.deleted = true) ∧
      ∀ x ∈ more, x ∈ page batchSize (older rows) := by
  obtain ⟨dead, front, htake, hdead, hlive, hmore⟩ := filter_eq_cons_iff.mp h
  have hdead' : ∀ x ∈ dead, x.deleted = true := fun x hx => by simpa using hdead x hx
  have hrows : rows = dead ++ m :: (front ++ rows.drop batchSize) := by
    conv_lhs => rw [← take_append_drop batchSize rows, htake]
    rw [append_assoc, cons_append]
  have holder : older rows = front ++ rows.drop batchSize := by
    unfold older
    conv_lhs => rw [hrows]
    rw [dropWhile_append_of_pos hdead', dropWhile_cons_of_neg (by simpa using hlive), tail_cons]
  refine ⟨dead, holder ▸ hrows, hdead', fun x hx => ?_⟩
  have hlength := length_take_le batchSize rows
  rw [htake, length_append, length_cons] at hlength
  rw [← hmore, mem_filter] at hx
  rw [page, holder, take_append, take_of_length_le (by omega)]
  exact mem_filter.mpr ⟨mem_append_left _ hx.1, hx.2⟩

theorem descending_rowsBefore (c : Setting) (beforeId : ID) :
    Descending (rowsBefore c beforeId) := by
  have hdescending : Descending c.history := by
    rw [Setting.history, newestFirst_eq]
    exact pairwise_reverse.mpr (ascending_oldestFirst c.archive c.channelID)
  unfold rowsBefore
  split
  · exact hdescending
  · exact hdescending.filter _

theorem getMessages_before (hpos : 1 ≤ batchSize) (hmax : batchSize ≤ 100) (beforeId : ID) :
    getMessages c.archive c.channelID { before := beforeId, limit := batchSize } =
      ((page batchSize (rowsBefore c beforeId)).reverse,
        decide (batchSize ≤ (rowsBefore c beforeId).length)) := by
  have hlimit : pageLimit 50 100 (batchSize : Int) = batchSize := by
    unfold pageLimit
    rw [if_neg (by omega), if_neg (by omega), Int.toNat_natCast]
  have hfetch : fetchMessages c.archive c.channelID { before := beforeId, limit := batchSize }
      batchSize = ((rowsBefore c beforeId).take batchSize).reverse := by
    unfold fetchMessages rowsBefore Setting.history
    by_cases hcursor : beforeId = "" <;> simp [hcursor]
  unfold getMessages page
  simp only [hlimit, hfetch, filter_reverse, length_reverse, length_take, le_min_iff, le_refl,
    true_and]

/-- The cursor of a message leads to what is older. -/
theorem rowsBefore_eq_older {beforeId : ID} (hid : m.messageID ≠ "")
    (h : page batchSize (rowsBefore c beforeId) = m :: more) :
    rowsBefore c m.messageID = older (rowsBefore c beforeId) := by
  obtain ⟨dead, hrows, -, -⟩ := page_eq_cons h
  have hdescending := descending_rowsBefore c beforeId
  have hm : m ∈ rowsBefore c beforeId := hrows ▸ mem_append_right _ mem_cons_self
  have hfilter : rowsBefore c m.messageID =
      (rowsBefore c beforeId).filter (·.messageID < m.messageID) := by
    unfold rowsBefore at hm ⊢
    rw [if_neg hid]
    split
    · rfl
    · next hcursor =>
      rw [if_neg hcursor, mem_filter] at hm
      rw [filter_filter]
      refine filter_congr fun x _ => ?_
      have hlt := of_decide_eq_true hm.2
      simpa using fun hx : x.messageID < m.messageID => hx.trans hlt
  rw [hfilter]
  conv_lhs => rw [hrows]
  rw [hrows, Descending, pairwise_append, pairwise_cons] at hdescending
  obtain ⟨-, ⟨holder, -⟩, hbefore⟩ := hdescending
  rw [filter_append, filter_cons_of_neg (by simp), filter_eq_nil_iff.mpr fun x hx hlt => absurd
      (of_decide_eq_true hlt) (hbefore x hx m mem_cons_self).not_gt,
    filter_eq_self.mpr fun x hx => decide_eq_true (holder x hx), nil_append]

/-- The loop without cursors. -/
def walk (c : Setting) (batchSize : Nat) : Nat → List Store.Message → Progress
  | 0, _ => {}
  | pages + 1, rows =>
    if page batchSize rows = [] then {}
    else
      match toBatch c (page batchSize rows).reverse with
      | .error _ => { fetched := [(page batchSize rows).reverse] }
      | .ok batch =>
        let rest := if batchSize ≤ rows.length then walk c batchSize pages (older rows) else {}
        { fetched := (page batchSize rows).reverse :: rest.fetched
          indexed := batch ++ rest.indexed }

theorem backfill_eq_walk (hpos : 1 ≤ batchSize) (hmax : batchSize ≤ 100)
    (hids : ∀ m ∈ c.archive.messages, m.messageID ≠ "") (pages : Nat) (beforeId : ID) :
    backfill c batchSize pages beforeId = walk c batchSize pages (rowsBefore c beforeId) := by
  induction pages generalizing beforeId with
  | zero => rfl
  | succ pages ih =>
    rw [backfill, walk, getMessages_before hpos hmax]
    rcases hpage : page batchSize (rowsBefore c beforeId) with _ | ⟨oldest, more⟩
    · rfl
    · have hmem : oldest ∈ rowsBefore c beforeId :=
        mem_of_mem_take (mem_of_mem_filter (hpage ▸ mem_cons_self : oldest ∈ page batchSize _))
      have hid : oldest.messageID ≠ "" := by
        unfold rowsBefore at hmem
        split at hmem
        · exact hids _ (mem_newestFirst.mp hmem).1
        · exact hids _ (mem_newestFirst.mp (mem_of_mem_filter hmem)).1
      rw [if_neg (cons_ne_nil _ _), ← rowsBefore_eq_older hid hpage, ← ih]
      simp only [getLast?_reverse, head?_cons, decide_eq_true_eq]

/-! ## Section 4: When a run is complete -/

theorem mem_of_fetched {pages : Nat} {fetched : List Store.Message}
    (h : fetched ∈ (walk c batchSize pages rows).fetched) (hm : m ∈ fetched) : m ∈ rows := by
  induction pages generalizing rows with
  | zero => cases h
  | succ pages ih =>
    have hsub : m ∈ (page batchSize rows).reverse → m ∈ rows :=
      fun hm => mem_of_mem_take (mem_of_mem_filter (mem_reverse.mp hm))
    unfold walk at h
    split at h
    · cases h
    · split at h
      · exact hsub (mem_singleton.mp h ▸ hm)
      · rcases mem_cons.mp h with rfl | h
        · exact hsub hm
        · split at h
          · exact (dropWhile_sublist _).subset (mem_of_mem_tail (ih h))
          · cases h

theorem first_fetched (pages : Nat) (hm : m ∈ page batchSize rows) :
    (page batchSize rows).reverse ∈ (walk c batchSize (pages + 1) rows).fetched := by
  unfold walk
  rw [if_neg (ne_nil_of_mem hm)]
  split <;> exact mem_cons_self

theorem mem_page_of_wanted {x : IndexableMessage} (hm : m ∈ rows.take batchSize)
    (hx : Wanted c m x) : m ∈ page batchSize rows :=
  mem_filter.mpr ⟨hm, by simp [hx.there]⟩

theorem wanted_or {x : IndexableMessage} (hm : m ∈ rows) (hx : Wanted c m x) (batchSize : Nat) :
    m ∈ page batchSize rows ∨ m ∈ rows.drop batchSize := by
  rw [← take_append_drop batchSize rows, mem_append] at hm
  exact hm.imp_left fun hm => mem_page_of_wanted hm hx

/-- The cases in which the run ends with this page; `next` is for the others. -/
theorem completeOn_succ (pages : Nat) (next : Prop)
    (hnext : ∀ batch, page batchSize rows ≠ [] → (∀ x, x ∈ batch ↔
        ∃ m ∈ page batchSize rows, indexable c m = .ok (some x)) →
      (CompleteOn c rows
        { fetched := (page batchSize rows).reverse ::
            (walk c batchSize pages (older rows)).fetched
          indexed := batch ++ (walk c batchSize pages (older rows)).indexed } ↔ next)) :
    CompleteOn c rows (walk c batchSize (pages + 1) rows) ↔ PageOk c batchSize rows next := by
  unfold walk PageOk
  by_cases hpage : page batchSize rows = []
  · rw [if_pos hpage, if_pos hpage]
    constructor
    · intro h m hm x hx
      exact absurd (h.indexed m (mem_of_mem_drop hm) x hx) not_mem_nil
    · refine fun h => ⟨fun m hm x hx => ?_, .nil⟩
      rcases wanted_or hm hx batchSize with hm | hm
      · rw [hpage] at hm
        cases hm
      · exact absurd hx (h m hm x)
  · rw [if_neg hpage, if_neg hpage]
    rcases toBatch_cases (c := c) (page batchSize rows).reverse with
      ⟨⟨e, he⟩, hfails⟩ | ⟨batch, hbatch, hok, hmem⟩
    · rw [he]
      dsimp only
      rw [if_pos (by simpa only [mem_reverse] using hfails)]
      constructor
      · intro h m hm x hx
        exact absurd (h.indexed m hm x hx) not_mem_nil
      · exact fun h => ⟨fun m hm x hx => absurd hx (h m hm x), pairwise_singleton _ _⟩
    · simp only [mem_reverse] at hok hmem
      rw [hbatch]
      dsimp only
      rw [if_neg (c := ∃ m ∈ page batchSize rows, _) (by
        rintro ⟨m, hm, hfails⟩
        exact absurd ((hok m hm).symm.trans hfails) (by simp))]
      by_cases hfull : batchSize ≤ rows.length
      · rw [if_pos hfull, or_iff_right (not_lt.mpr hfull)]
        exact hnext batch hpage hmem
      · rw [if_neg hfull]
        have htake : rows.take batchSize = rows := take_of_length_le (not_le.mp hfull).le
        refine iff_of_true ⟨fun m hm x hx => ?_, pairwise_singleton _ _⟩ (.inl (not_le.mp hfull))
        exact mem_append_left _
          ((hmem x).mpr ⟨m, mem_page_of_wanted (htake.symm ▸ hm) hx, hx.indexable⟩)

theorem completeOn_walk (hrows : Descending rows) (pages : Nat) :
    CompleteOn c rows (walk c batchSize (pages + 1) rows) ↔ Spread c batchSize pages rows := by
  induction pages generalizing rows with
  | zero =>
    refine completeOn_succ 0 _ fun batch hpage hmem => ?_
    constructor
    · intro h m hm x hx
      have hindexed := h.indexed m (mem_of_mem_drop hm) x hx
      obtain ⟨m', hm', hx'⟩ := (hmem x).mp ((mem_append.mp hindexed).resolve_right not_mem_nil)
      rw [← take_append_drop batchSize rows, Descending, pairwise_append] at hrows
      have hlt := hrows.2.2 m' (mem_of_mem_filter hm') m hm
      exact hlt.ne ((indexable_id hx.indexable).symm.trans (indexable_id hx'))
    · refine fun h => ⟨fun m hm x hx => ?_, pairwise_singleton _ _⟩
      rcases wanted_or hm hx batchSize with hm | hm
      · exact mem_append_left _ ((hmem x).mpr ⟨m, hm, hx.indexable⟩)
      · exact absurd hx (h m hm x)
  | succ pages ih =>
    refine completeOn_succ (pages + 1) _ fun batch hpage hmem => ?_
    obtain ⟨newest, more, hcons⟩ := exists_cons_of_ne_nil hpage
    obtain ⟨dead, heq, hdead, hmore⟩ := page_eq_cons hcons
    have hsplit := hrows
    rw [heq, Descending, pairwise_append, pairwise_cons] at hsplit
    obtain ⟨-, ⟨hlt, holder⟩, -⟩ := hsplit
    rw [hcons] at hmem ⊢
    rw [← ih holder]
    constructor
    · intro h
      obtain ⟨hfirst, hrest⟩ := pairwise_cons.mp h.older
      -- a second message of the page is fetched again
      have hone : more = [] := by
        refine eq_nil_iff_forall_not_mem.mpr fun m hm => ?_
        have hagain := hmore m hm
        exact lt_irrefl _ (hfirst _ (first_fetched pages hagain) m (by simp [hm]) m
          (mem_reverse.mpr hagain))
      subst hone
      refine ⟨rfl, fun m hm x hx => ?_, hrest⟩
      have hindexed := h.indexed m (heq ▸ mem_append_right _ (mem_cons_of_mem _ hm)) x hx
      refine (mem_append.mp hindexed).resolve_left fun hbatch => ?_
      obtain ⟨m', hm', hx'⟩ := (hmem x).mp hbatch
      cases mem_singleton.mp hm'
      exact (hlt m hm).ne ((indexable_id hx.indexable).symm.trans (indexable_id hx'))
    · rintro ⟨hone, h⟩
      obtain rfl : more = [] := length_eq_zero_iff.mp (Nat.succ.inj hone)
      refine ⟨fun m hm x hx => ?_, pairwise_cons.mpr ⟨?_, h.older⟩⟩
      · rw [heq, mem_append, mem_cons] at hm
        rcases hm with hm | rfl | hm
        · exact absurd ((hdead m hm).symm.trans hx.there) (by simp)
        · exact mem_append_left _ ((hmem x).mpr ⟨m, mem_singleton.mpr rfl, hx.indexable⟩)
        · exact mem_append_right _ (h.indexed m hm x hx)
      · intro fetched hfetched m hm m' hm'
        rw [mem_reverse, mem_singleton] at hm
        exact hm ▸ hlt m' (mem_of_fetched hfetched hm')

/-- The cursor is the newest message of a page, so a page that has two is fetched again in part: a
    run is complete exactly when it has at most one page, or pages of one message each, or
    nothing to index beyond them. Ids of messages are not empty. -/
theorem complete_iff (hpos : 1 ≤ batchSize) (hmax : batchSize ≤ 100)
    (hids : ∀ m ∈ c.archive.messages, m.messageID ≠ "") :
    Complete c batchSize ↔ Spread c batchSize 29 c.history := by
  rw [Complete, backfillChannel, totalPages, backfill_eq_walk hpos hmax hids]
  exact completeOn_walk (descending_rowsBefore c "") 29

def posted (messageID : ID) : Store.Message where
  channelID := "general"
  messageID := messageID
  authorID := "ann"
  encryptedContent := []

def general (messages : List Store.Message) (h : Table.UniqueOn Store.Message.key messages) :
    Setting :=
  ⟨{ messages, messagesPK := h, pinsPK := unique_noPins }, "general", fun _ => [], 0⟩

theorem complete_one : Complete (general [posted "01"] (by decide)) 100 := by
  refine (complete_iff (by decide) (by decide) (by decide)).mpr ?_
  have hrows : (general [posted "01"] (by decide)).history = [posted "01"] := by decide
  rw [hrows, Spread, PageOk]
  exact .inl (by decide)

theorem not_complete_three :
    ¬ ∀ c batchSize, 1 ≤ batchSize → batchSize ≤ 100 → Complete c batchSize := fun h =>
  absurd (h (general [posted "01", posted "02", posted "03"] (by decide)) 2 (by decide)
    (by decide)).older (by decide)

end Meza.Client.Backfill
