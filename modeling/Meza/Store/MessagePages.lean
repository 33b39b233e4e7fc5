import Mathlib.Data.String.Basic
import Meza.Lib.Paging
import Meza.Store.MessageStore

/-! # Pages of messages

    A page of a channel is cut from one scan of its partition, or from two
    when it lies around a message, and the soft-deleted rows are filtered out
    afterwards. `has_more` compares what was fetched with the limit.

    Section 2 says what a client relies on: the page is in order, and if there
    is no more then everything in the direction of the page is on it. Of the
    four modes three always keep to this (Section 3). Around a message the
    limit is split over two scans, and one side can be cut off while the other
    stays short of its share, so that the page as a whole is not full.
    Section 4 says exactly when.

    The unread badge counts what follows the position that was read. It takes
    its rows before it filters them, and leaves the deleted ones in
    (Section 6). -/

namespace Meza.Store.MessageStore
open List Paging Message

/-! ## Section 1: The two scans -/

section
variable (a : Archive) (channelID : ID)

theorem unique_partition :
    Table.UniqueOn messageID (a.messages.filter (·.channelID = channelID)) := by
  apply Table.unique_of_filter (f := fun id => (channelID, id)) _ a.messagesPK
  intro m hm
  rw [← of_decide_eq_true hm]
  rfl

theorem ascending_oldestFirst : Ascending messageID (oldestFirst a channelID) :=
  ascending_orderBy (unique_partition a channelID)

theorem newestFirst_eq : newestFirst a channelID = (oldestFirst a channelID).reverse :=
  insertionSort_descending (unique_partition a channelID)

variable {a channelID}

/-- Whatever is cut from a scan in native order is in order once reversed. -/
theorem ascending_reverse {rows : List Message} (h : Sublist rows (newestFirst a channelID)) :
    Ascending messageID rows.reverse := by
  rw [newestFirst_eq] at h
  apply (ascending_oldestFirst a channelID).sublist
  simpa using h.reverse

end

/-! ## Section 2: What a page promises -/

/-- A message of the channel that is not marked deleted. -/
structure Live (a : Archive) (channelID : ID) (m : Message) : Prop where
  stored : m ∈ a.messages
  within : m.channelID = channelID
  present : m.deleted = false

/-- The direction of a page: below `before`, above `after`, either side of
    `around`, and all of the channel for the latest page. -/
def GetMessagesOpts.ahead (opts : GetMessagesOpts) (m : Message) : Bool :=
  if opts.around ≠ "" then true
  else if opts.before ≠ "" then m.messageID < opts.before
  else if opts.after ≠ "" then opts.after < m.messageID
  else true

structure Paged (a : Archive) (channelID : ID) (opts : GetMessagesOpts) : Prop where
  live : ∀ m ∈ (getMessages a channelID opts).1, Live a channelID m
  ascending : Ascending messageID (getMessages a channelID opts).1
  nodup : (getMessages a channelID opts).1.Nodup
  complete : (getMessages a channelID opts).2 = false →
    ∀ m, Live a channelID m → opts.ahead m = true → m ∈ (getMessages a channelID opts).1

/-- The rows at or below a message, newest first, and those above it. -/
def rowsUpTo (a : Archive) (channelID messageID : ID) : List Message :=
  (newestFirst a channelID).filter (·.messageID ≤ messageID)

def rowsAbove (a : Archive) (channelID messageID : ID) : List Message :=
  (oldestFirst a channelID).filter (messageID < ·.messageID)

/-- On either side of the target the rows that are cut off are all deleted, or
    the other side is long enough to fill the page. -/
def Balanced (a : Archive) (channelID : ID) (opts : GetMessagesOpts) : Prop :=
  let limit := pageLimit 50 100 opts.limit
  let halfLimit := max 1 (limit / 2)
  let older := rowsUpTo a channelID opts.around
  let newer := rowsAbove a channelID opts.around
  ((∀ m ∈ older.drop (halfLimit + 1), m.deleted = true) ∨
    limit ≤ halfLimit + 1 + newer.length) ∧
  ((∀ m ∈ newer.drop halfLimit, m.deleted = true) ∨ limit ≤ older.length + halfLimit)

/-! ## Section 3: Order and direction -/

section
variable {a : Archive} {channelID : ID} {opts : GetMessagesOpts} {limit : Nat} {m : Message}

theorem live_of_mem (h : m ∈ (getMessages a channelID opts).1) : Live a channelID m := by
  obtain ⟨hfetched, hdeleted⟩ := mem_filter.mp h
  obtain ⟨hstored, hwithin⟩ := mem_of_mem_fetchMessages hfetched
  exact ⟨hstored, hwithin, by simpa using hdeleted⟩

theorem mem_getMessages :
    m ∈ (getMessages a channelID opts).1 ↔
      m ∈ fetchMessages a channelID opts (pageLimit 50 100 opts.limit) ∧ m.deleted = false := by
  unfold getMessages
  rw [mem_filter, Bool.not_eq_true']

theorem ascending_fetchMessages (a : Archive) (channelID : ID) (opts : GetMessagesOpts)
    (limit : Nat) : Ascending messageID (fetchMessages a channelID opts limit) := by
  unfold fetchMessages
  split
  · -- the two halves meet at the target
    apply Ascending.append
    · exact ascending_reverse ((take_sublist _ _).trans filter_sublist)
    · exact ((ascending_oldestFirst a channelID).filter _).sublist (take_sublist _ _)
    · intro m hm m' hm'
      have hle := (mem_filter.mp (mem_of_mem_take (mem_reverse.mp hm))).2
      have hlt := (mem_filter.mp (mem_of_mem_take hm')).2
      exact lt_of_le_of_lt (of_decide_eq_true hle) (of_decide_eq_true hlt)
  split
  · exact ascending_reverse ((take_sublist _ _).trans filter_sublist)
  split
  · exact ((ascending_oldestFirst a channelID).filter _).sublist (take_sublist _ _)
  · exact ascending_reverse (take_sublist _ _)

theorem ascending_getMessages (a : Archive) (channelID : ID) (opts : GetMessagesOpts) :
    Ascending messageID (getMessages a channelID opts).1 :=
  (ascending_fetchMessages a channelID opts _).filter _

theorem fetchMessages_complete (haround : opts.around = "")
    (hshort : (fetchMessages a channelID opts limit).length < limit)
    (hm : m ∈ a.messages ∧ m.channelID = channelID) (hahead : opts.ahead m = true) :
    m ∈ fetchMessages a channelID opts limit := by
  unfold fetchMessages at hshort ⊢
  unfold GetMessagesOpts.ahead at hahead
  rw [if_neg (by simpa using haround)] at hshort hahead ⊢
  split at hshort
  · next hbefore =>
    rw [if_pos hbefore] at hahead ⊢
    rw [length_reverse] at hshort
    rw [mem_reverse, take_eq_of_short hshort]
    exact mem_filter.mpr ⟨mem_newestFirst.mpr hm, hahead⟩
  next hbefore =>
  rw [if_neg hbefore] at hahead ⊢
  split at hshort
  · next hafter =>
    rw [if_pos hafter] at hahead ⊢
    rw [take_eq_of_short hshort]
    exact mem_filter.mpr ⟨mem_oldestFirst.mpr hm, hahead⟩
  · next hafter =>
    rw [if_neg hafter]
    rw [length_reverse] at hshort
    rw [mem_reverse, take_eq_of_short hshort]
    exact mem_newestFirst.mpr hm

end

/-! ## Section 4: Around a message -/

section
variable {a : Archive} {channelID : ID} {opts : GetMessagesOpts}

theorem one_le_pageLimit (dflt max : Nat) (limit : Int) (hdflt : 1 ≤ dflt) (hmax : 1 ≤ max) :
    1 ≤ pageLimit dflt max limit := by
  unfold pageLimit
  split
  · exact hdflt
  split
  · exact hmax
  · omega

theorem fetchMessages_around (haround : opts.around ≠ "") (limit : Nat) :
    fetchMessages a channelID opts limit =
      ((rowsUpTo a channelID opts.around).take (max 1 (limit / 2) + 1)).reverse ++
        (rowsAbove a channelID opts.around).take (max 1 (limit / 2)) := by
  unfold fetchMessages
  rw [if_pos haround]
  rfl

theorem mem_sides {m : Message} (hm : m ∈ a.messages ∧ m.channelID = channelID) (target : ID) :
    m ∈ rowsUpTo a channelID target ∨ m ∈ rowsAbove a channelID target := by
  rcases le_or_gt m.messageID target with hle | hlt
  · exact .inl (mem_filter.mpr ⟨mem_newestFirst.mpr hm, decide_eq_true hle⟩)
  · exact .inr (mem_filter.mpr ⟨mem_oldestFirst.mpr hm, decide_eq_true hlt⟩)

theorem notMem_of_drop {older newer : List Message} {n k : Nat} {m : Message}
    (hnodup : (older.reverse ++ newer).Nodup) (h : m ∈ older.drop n ∨ m ∈ newer.drop k) :
    m ∉ (older.take n).reverse ++ newer.take k := by
  rw [nodup_append] at hnodup
  obtain ⟨holder, hnewer, hcross⟩ := hnodup
  rw [nodup_reverse] at holder
  rw [mem_append, mem_reverse]
  rintro (hm | hm)
  · rcases h with h | h
    · exact (disjoint_take_drop holder (le_refl n)) hm h
    · exact hcross m (mem_reverse.mpr (mem_of_mem_take hm)) m (mem_of_mem_drop h) rfl
  · rcases h with h | h
    · exact hcross m (mem_reverse.mpr (mem_of_mem_drop h)) m (mem_of_mem_take hm) rfl
    · exact (disjoint_take_drop hnewer (le_refl k)) hm h

theorem nodup_sides (a : Archive) (channelID target : ID) :
    ((rowsUpTo a channelID target).reverse ++ rowsAbove a channelID target).Nodup := by
  suffices h : Ascending messageID
      ((rowsUpTo a channelID target).reverse ++ rowsAbove a channelID target) from h.nodup
  apply Ascending.append
  · exact ascending_reverse filter_sublist
  · exact (ascending_oldestFirst a channelID).filter _
  · intro m hm m' hm'
    have hle := (mem_filter.mp (mem_reverse.mp hm)).2
    have hlt := (mem_filter.mp hm').2
    exact lt_of_le_of_lt (of_decide_eq_true hle) (of_decide_eq_true hlt)

/-- A live row of a side is on the page unless the side cuts it off. -/
theorem complete_around_iff (haround : opts.around ≠ "") (limit : Nat) :
    (∀ m, Live a channelID m → m ∈ fetchMessages a channelID opts limit) ↔
      (∀ m ∈ (rowsUpTo a channelID opts.around).drop (max 1 (limit / 2) + 1),
        m.deleted = true) ∧
      ∀ m ∈ (rowsAbove a channelID opts.around).drop (max 1 (limit / 2)), m.deleted = true := by
  rw [fetchMessages_around haround]
  constructor
  · intro hall
    constructor
    · intro m hm
      by_contra hlive
      have hrow := mem_newestFirst.mp (mem_filter.mp (mem_of_mem_drop hm)).1
      have hpage := hall m ⟨hrow.1, hrow.2, by simpa using hlive⟩
      exact notMem_of_drop (nodup_sides a channelID opts.around) (.inl hm) hpage
    · intro m hm
      by_contra hlive
      have hrow := mem_oldestFirst.mp (mem_filter.mp (mem_of_mem_drop hm)).1
      have hpage := hall m ⟨hrow.1, hrow.2, by simpa using hlive⟩
      exact notMem_of_drop (nodup_sides a channelID opts.around) (.inr hm) hpage
  · rintro ⟨holder, hnewer⟩ m hm
    rw [mem_append, mem_reverse]
    have hpresent : ¬ m.deleted = true := by simp [hm.present]
    -- a live row is on its side's share, or else cut off
    rcases mem_sides ⟨hm.stored, hm.within⟩ opts.around with hside | hside
    · rcases mem_take_or_drop hside (max 1 (limit / 2) + 1) with htake | hdrop
      · exact .inl htake
      · exact absurd (holder m hdrop) hpresent
    · rcases mem_take_or_drop hside (max 1 (limit / 2)) with htake | hdrop
      · exact .inr htake
      · exact absurd (hnewer m hdrop) hpresent

/-- A side that cuts off a live row is longer than its share. -/
theorem share_lt_of_cut {rows : List Message} {n : Nat}
    (h : ¬ ∀ m ∈ rows.drop n, m.deleted = true) : n < rows.length := by
  by_contra hle
  apply h
  rw [drop_of_length_le (by omega)]
  simp

theorem balanced_iff (haround : opts.around ≠ "") :
    Balanced a channelID opts ↔
      ((getMessages a channelID opts).2 = false →
        ∀ m, Live a channelID m →
          m ∈ fetchMessages a channelID opts (pageLimit 50 100 opts.limit)) := by
  have hlimit := one_le_pageLimit 50 100 opts.limit (by omega) (by omega)
  unfold Balanced getMessages
  dsimp only
  rw [complete_around_iff haround, fetchMessages_around haround]
  generalize pageLimit 50 100 opts.limit = limit at hlimit ⊢
  generalize rowsUpTo a channelID opts.around = older
  generalize rowsAbove a channelID opts.around = newer
  -- only the lengths of the sides and what they cut off matter
  have holder := @share_lt_of_cut older (max 1 (limit / 2) + 1)
  have hnewer := @share_lt_of_cut newer (max 1 (limit / 2))
  generalize (∀ m ∈ older.drop (max 1 (limit / 2) + 1), m.deleted = true) = keepsOlder at *
  generalize (∀ m ∈ newer.drop (max 1 (limit / 2)), m.deleted = true) = keepsNewer at *
  simp only [length_append, length_reverse, length_take, decide_eq_false_iff_not]
  by_cases hkeepsOlder : keepsOlder
  · by_cases hkeepsNewer : keepsNewer
    · simp [hkeepsOlder, hkeepsNewer]
    · have hlong := hnewer hkeepsNewer
      simp only [hkeepsOlder, hkeepsNewer, true_or, false_or, true_and, and_false, imp_false,
        not_not]
      omega
  · have hlong := holder hkeepsOlder
    by_cases hkeepsNewer : keepsNewer
    · simp only [hkeepsOlder, hkeepsNewer, true_or, false_or, and_true, imp_false, not_not]
      omega
    · have hlong' := hnewer hkeepsNewer
      omega

end

/-! ## Section 5: Main theorem -/

/-- **Pages.** A page keeps its promise iff it does not lie around a message
    or the two sides of that message are balanced. -/
theorem paged_iff (a : Archive) (channelID : ID) (opts : GetMessagesOpts) :
    Paged a channelID opts ↔ (opts.around ≠ "" → Balanced a channelID opts) := by
  have hcomplete : Paged a channelID opts ↔
      ((getMessages a channelID opts).2 = false → ∀ m, Live a channelID m →
        opts.ahead m = true → m ∈ (getMessages a channelID opts).1) := by
    have hascending := ascending_getMessages a channelID opts
    constructor
    · exact fun h => h.complete
    · exact fun h => ⟨fun m hm => live_of_mem hm, hascending, hascending.nodup, h⟩
  rw [hcomplete]
  by_cases haround : opts.around = ""
  · -- one scan: a page below the limit is all there is
    have hnot : ¬ opts.around ≠ "" := by simpa using haround
    constructor
    · intro _ h
      exact absurd h hnot
    · intro _ hmore m hm hahead
      have hshort : (fetchMessages a channelID opts (pageLimit 50 100 opts.limit)).length <
          pageLimit 50 100 opts.limit := by
        have := of_decide_eq_false hmore
        omega
      rw [mem_getMessages]
      exact ⟨fetchMessages_complete haround hshort ⟨hm.stored, hm.within⟩ hahead, hm.present⟩
  · -- around a message every row lies ahead
    have hahead : ∀ m, opts.ahead m = true := by
      intro m
      unfold GetMessagesOpts.ahead
      rw [if_pos haround]
    constructor
    · intro h _
      rw [balanced_iff haround]
      exact fun hmore m hm => (mem_getMessages.mp (h hmore m hm (hahead m))).1
    · intro h hmore m hm _
      rw [mem_getMessages]
      exact ⟨(balanced_iff haround).mp (h haround) hmore m hm, hm.present⟩

/-- Four messages; a jump to the last of them with a limit of 4 fetches three
    rows, and says that there is no more. -/
def fourMessages : Archive where
  messages :=
    [ { channelID := "news", messageID := "01", authorID := "ann", encryptedContent := [] },
      { channelID := "news", messageID := "02", authorID := "ann", encryptedContent := [] },
      { channelID := "news", messageID := "03", authorID := "ann", encryptedContent := [] },
      { channelID := "news", messageID := "04", authorID := "ann", encryptedContent := [] } ]
  pinsPK := unique_noPins

theorem not_paged_around : ¬ Paged fourMessages "news" { around := "04", limit := 4 } := by
  intro h
  have hfirst := h.complete (by decide +kernel)
    { channelID := "news", messageID := "01", authorID := "ann", encryptedContent := [] }
    ⟨by decide, rfl, rfl⟩ (by decide)
  revert hfirst
  decide +kernel

/-! ## Section 6: The unread badge -/

section
variable (a : Archive) (channelID afterMessageID : ID) (cap : Nat)

/-- `CountMessagesAfter` with its `LIMIT` as a parameter. -/
def countUpTo : Nat :=
  (((rowsAbove a channelID afterMessageID).take cap).filter (·.type = 0)).length

theorem countMessagesAfter_eq :
    countMessagesAfter a channelID afterMessageID = countUpTo a channelID afterMessageID 1000 :=
  rfl

/-- What is left to read: messages that users have written and not deleted. -/
def unread : List Message :=
  (rowsAbove a channelID afterMessageID).filter fun m => m.type = 0 ∧ m.deleted = false

/-- The deleted messages of users that the limit leaves in the count, and the
    live ones that it cuts off. -/
def deletedWithin : List Message :=
  ((rowsAbove a channelID afterMessageID).take cap).filter fun m => m.type = 0 ∧ m.deleted = true

def liveBeyond : List Message :=
  ((rowsAbove a channelID afterMessageID).drop cap).filter fun m => m.type = 0 ∧ m.deleted = false

/-- The deleted messages make up for the live ones that were cut off: one for
    one, or, if no system message takes up a row, with more to come. -/
def MadeUp : Prop :=
  (deletedWithin a channelID afterMessageID cap).length =
      (liveBeyond a channelID afterMessageID cap).length ∨
    ((∀ m ∈ (rowsAbove a channelID afterMessageID).take cap, m.type = 0) ∧
      (deletedWithin a channelID afterMessageID cap).length <
        (liveBeyond a channelID afterMessageID cap).length)

end

theorem length_users (rows : List Message) :
    (rows.filter (·.type = 0)).length =
      (rows.filter fun m => m.type = 0 ∧ m.deleted = false).length +
        (rows.filter fun m => m.type = 0 ∧ m.deleted = true).length := by
  induction rows with
  | nil => rfl
  | cons m rows ih =>
    rw [filter_cons, filter_cons, filter_cons]
    by_cases htype : m.type = 0
    · cases hdeleted : m.deleted with
      | false =>
        simp only [htype, and_self, and_false, decide_true, decide_false, if_true,
          Bool.false_eq_true, if_false, length_cons]
        omega
      | true =>
        simp only [htype, and_self, and_false, decide_true, decide_false, if_true,
          Bool.false_eq_true, if_false, reduceCtorEq, length_cons]
        omega
    · simpa [htype] using ih

/-- **Unread counts.** Under any limit the count is that of the unread
    messages, up to the limit, iff the deleted ones make up for what the limit
    cuts off. -/
theorem countMessagesAfter_iff (a : Archive) (channelID afterMessageID : ID) :
    countMessagesAfter a channelID afterMessageID =
        countUpTo a channelID afterMessageID 1000 ∧
      ∀ cap, countUpTo a channelID afterMessageID cap =
          min cap (unread a channelID afterMessageID).length ↔
        MadeUp a channelID afterMessageID cap := by
  refine ⟨countMessagesAfter_eq a channelID afterMessageID, ?_⟩
  intro cap
  unfold countUpTo unread MadeUp deletedWithin liveBeyond
  generalize rowsAbove a channelID afterMessageID = rows
  have hwithin := length_users (rows.take cap)
  -- the unread rows are those the limit leaves and those it cuts off
  have hunread : (rows.filter fun m => m.type = 0 ∧ m.deleted = false).length =
      ((rows.take cap).filter fun m => m.type = 0 ∧ m.deleted = false).length +
        ((rows.drop cap).filter fun m => m.type = 0 ∧ m.deleted = false).length := by
    rw [← length_append, ← filter_append, take_append_drop]
  have hcount : ((rows.take cap).filter (·.type = 0)).length ≤ (rows.take cap).length :=
    length_filter_le _ _
  have hlimit : (rows.take cap).length = min cap rows.length := length_take
  have hbeyond : ((rows.drop cap).filter fun m => m.type = 0 ∧ m.deleted = false).length ≤
      rows.length - cap := by
    rw [← length_drop]
    exact length_filter_le _ _
  -- no system message among the rows means that all of them count
  have hsystem : (∀ m ∈ rows.take cap, m.type = 0) ↔
      ((rows.take cap).filter (·.type = 0)).length = (rows.take cap).length := by
    rw [length_filter_eq_length_iff]
    simp only [decide_eq_true_eq]
  rw [hsystem, hunread]
  omega

/-- A deleted message is still unread for the badge, though no page shows it. -/
def retractedMessage : Archive where
  messages :=
    [ { channelID := "news", messageID := "02", authorID := "ann", encryptedContent := []
        deleted := true } ]
  pinsPK := unique_noPins

theorem not_counted_deleted :
    countMessagesAfter retractedMessage "news" "01" ≠
      min 1000 (unread retractedMessage "news" "01").length := by
  decide +kernel

end Meza.Store.MessageStore
