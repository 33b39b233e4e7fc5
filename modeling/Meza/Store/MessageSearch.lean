import Meza.Store.MessagePages

/-! # Searching a channel

    A search has two phases. The first goes through the partition, from the
    newest row down or upwards from a bound, and collects the ids of the rows
    that pass the filters until it has one more than the page holds, runs out
    of rows or reaches its scan depth. The second reads the messages behind
    the ids.

    Section 2 says what the scan collects and Section 3 that nothing is lost
    when the messages are read. A search is therefore a filter over the rows
    the scan may visit (Section 4): the whole range, as long as that is not
    deeper than the scan. -/

namespace Meza.Store.MessageStore
open List Message SearchMessagesOpts Table

/-! ## Section 1: What a search is for -/

def SearchMessagesOpts.pageSize (opts : SearchMessagesOpts) : Nat := pageLimit 25 100 opts.limit

/-- The bounds that are given hold. -/
def SearchMessagesOpts.inBounds (opts : SearchMessagesOpts) (m : Message) : Bool :=
  (opts.beforeID = "" ∨ m.messageID < opts.beforeID) ∧
    (opts.afterID = "" ∨ opts.afterID < m.messageID)

/-- All messages that a search looks for, newest first. -/
def matching (a : Archive) (opts : SearchMessagesOpts) : List Message :=
  (newestFirst a opts.channelID).filter fun m => opts.inBounds m && opts.admits m

/-- The newest matching messages, and whether a further one matches. -/
def Exact (a : Archive) (opts : SearchMessagesOpts) : Prop :=
  searchMessages a opts =
    ((matching a opts).take opts.pageSize, decide (opts.pageSize < (matching a opts).length))

/-- The rows within the bounds, in the order of the scan: upwards from a lower
    bound, otherwise downwards. -/
def scanRange (a : Archive) (opts : SearchMessagesOpts) : List Message :=
  (if opts.afterID ≠ "" then oldestFirst a opts.channelID
    else newestFirst a opts.channelID).filter opts.inBounds

/-- The matching messages that are not too deep for the scan. -/
def hits (a : Archive) (opts : SearchMessagesOpts) : List Message :=
  ((scanRange a opts).take maxScanDepth).filter opts.admits

/-- The page of the first hits, newest first, and whether there may be more. -/
def Searched (a : Archive) (opts : SearchMessagesOpts) : Prop :=
  searchMessages a opts =
    (if opts.afterID ≠ "" then ((hits a opts).take opts.pageSize).reverse
      else (hits a opts).take opts.pageSize,
     decide (opts.pageSize < (hits a opts).length ∨ maxScanDepth < (scanRange a opts).length))

/-! ## Section 2: The scan -/

/-- What is left of the scan collects the rows that pass, up to one more than a
    page, and gives up if rows remain below its depth and the page is not full. -/
theorem searchScan_eq (opts : SearchMessagesOpts) (limit : Nat) (rows : List Message)
    (scanned : Nat) (matched : List ID) (hmatched : matched.length ≤ limit) :
    searchScan opts limit rows scanned matched =
      (matched ++ ((((rows.take (maxScanDepth - scanned)).filter opts.admits).take
          (limit + 1 - matched.length)).map messageID),
       decide (maxScanDepth - scanned < rows.length ∧
        matched.length + ((rows.take (maxScanDepth - scanned)).filter opts.admits).length ≤
          limit)) := by
  induction rows generalizing scanned matched with
  | nil => simp [searchScan]
  | cons m rows ih =>
    unfold searchScan
    by_cases hdepth : maxScanDepth < scanned + 1
    · have hleft : maxScanDepth - scanned = 0 := by omega
      rw [if_pos hdepth, hleft]
      simp [hmatched]
    · -- one row fewer is left
      obtain ⟨left, hleft⟩ : ∃ left, maxScanDepth - scanned = left + 1 :=
        ⟨maxScanDepth - scanned - 1, by omega⟩
      have hnext : maxScanDepth - (scanned + 1) = left := by omega
      rw [if_neg hdepth, hleft, take_succ_cons, filter_cons]
      by_cases hadmits : opts.admits m = true
      · rw [if_pos hadmits, if_pos hadmits]
        have hlength : (matched ++ [m.messageID]).length = matched.length + 1 := by simp
        by_cases hfull : limit < (matched ++ [m.messageID]).length
        · have hone : limit + 1 - matched.length = 1 := by omega
          rw [if_pos hfull, hone, take_succ_cons, take_zero, map_cons, map_nil]
          congr 1
          symm
          rw [decide_eq_false_iff_not, length_cons, length_cons]
          omega
        · rw [if_neg hfull, ih (scanned + 1) (matched ++ [m.messageID]) (by omega), hnext, hlength]
          have hmore : limit + 1 - matched.length = limit + 1 - (matched.length + 1) + 1 := by
            omega
          rw [hmore, take_succ_cons, map_cons, append_assoc, singleton_append]
          congr 1
          apply decide_eq_decide.mpr
          rw [length_cons, length_cons]
          omega
      · rw [if_neg hadmits, if_neg hadmits, ih (scanned + 1) matched hmatched, hnext]
        congr 1
        apply decide_eq_decide.mpr
        rw [length_cons]
        omega

/-! ## Section 3: The hydration -/

variable {a : Archive} {m : Message} {opts : SearchMessagesOpts}

theorem mem_getMessagesByIDs {channelID : ID} {messageIDs : List ID} :
    m ∈ getMessagesByIDs a channelID messageIDs ↔
      m ∈ a.messages ∧ m.channelID = channelID ∧ m.messageID ∈ messageIDs := by
  unfold getMessagesByIDs
  rw [mem_filter, decide_eq_true_eq]

theorem unique_getMessagesByIDs (a : Archive) (channelID : ID) (messageIDs : List ID) :
    UniqueOn messageID (getMessagesByIDs a channelID messageIDs) := by
  apply unique_of_filter (f := fun id => (channelID, id)) _ a.messagesPK
  intro m hm
  rw [← (of_decide_eq_true hm).1]
  rfl

theorem hydrate_eq {channelID : ID} {rows : List Message}
    (h : ∀ m ∈ rows, m ∈ a.messages ∧ m.channelID = channelID) :
    ((rows.map messageID).filterMap fun id =>
        (getMessagesByIDs a channelID (rows.map messageID)).find? (·.messageID = id)) =
      rows := by
  -- an id names one row of the channel, so the lookup gives back the row it came from
  have hfind : ∀ m ∈ rows, (getMessagesByIDs a channelID (rows.map messageID)).find?
      (·.messageID = m.messageID) = some m := by
    intro m hm
    apply lookup_of_mem (unique_getMessagesByIDs a channelID _)
    exact mem_getMessagesByIDs.mpr ⟨(h m hm).1, (h m hm).2, mem_map_of_mem hm⟩
  rw [filterMap_map]
  generalize getMessagesByIDs a channelID (rows.map messageID) = found at hfind
  induction rows with
  | nil => rfl
  | cons m rows ih =>
    have hfirst : ((fun id => found.find? (·.messageID = id)) ∘ messageID) m = some m :=
      hfind m (by simp)
    rw [filterMap_cons_some hfirst]
    congr 1
    exact ih (fun m' hm' => h m' (by simp [hm'])) (fun m' hm' => hfind m' (by simp [hm']))

/-! ## Section 4: Main theorem -/

/-- The rows the code scans: with a lower bound it does not look at the upper
    one. -/
def searchRows (a : Archive) (opts : SearchMessagesOpts) : List Message :=
  if opts.afterID ≠ "" then
    (oldestFirst a opts.channelID).filter (opts.afterID < ·.messageID)
  else if opts.beforeID ≠ "" then
    (newestFirst a opts.channelID).filter (·.messageID < opts.beforeID)
  else newestFirst a opts.channelID

theorem mem_searchRows (h : m ∈ searchRows a opts) :
    m ∈ a.messages ∧ m.channelID = opts.channelID := by
  unfold searchRows at h
  split at h
  · exact mem_oldestFirst.mp (mem_filter.mp h).1
  split at h
  · exact mem_newestFirst.mp (mem_filter.mp h).1
  · exact mem_newestFirst.mp h

/-- The second phase: the page behind the ids of the first. -/
def searchPage (a : Archive) (opts : SearchMessagesOpts) (scan : List ID × Bool) :
    List Message × Bool :=
  let found := getMessagesByIDs a opts.channelID (scan.1.take opts.pageSize)
  let messages := (scan.1.take opts.pageSize).filterMap fun id =>
    found.find? (·.messageID = id)
  (if opts.afterID ≠ "" then messages.reverse else messages,
    opts.pageSize < scan.1.length ∨ scan.2)

theorem searchMessages_phases (a : Archive) (opts : SearchMessagesOpts) :
    searchMessages a opts =
      searchPage a opts (searchScan opts opts.pageSize (searchRows a opts) 0 []) :=
  rfl

/-- Both phases together are a filter of the rows down to the depth. -/
theorem searchMessages_eq (a : Archive) (opts : SearchMessagesOpts) :
    searchMessages a opts =
      (if opts.afterID ≠ "" then
          ((((searchRows a opts).take maxScanDepth).filter opts.admits).take opts.pageSize).reverse
        else (((searchRows a opts).take maxScanDepth).filter opts.admits).take opts.pageSize,
       decide (opts.pageSize < (((searchRows a opts).take maxScanDepth).filter
        opts.admits).length ∨ maxScanDepth < (searchRows a opts).length)) := by
  have hscan := searchScan_eq opts opts.pageSize (searchRows a opts) 0 [] (Nat.zero_le _)
  have hrows : ∀ m ∈ (((searchRows a opts).take maxScanDepth).filter opts.admits).take
      opts.pageSize, m ∈ a.messages ∧ m.channelID = opts.channelID := by
    intro m hm
    have hfilter := mem_of_mem_take hm
    exact mem_searchRows (mem_of_mem_take (mem_filter.mp hfilter).1)
  have hhydrate := hydrate_eq hrows
  rw [Nat.sub_zero, nil_append, length_nil, Nat.sub_zero, Nat.zero_add] at hscan
  rw [searchMessages_phases, hscan]
  generalize ((searchRows a opts).take maxScanDepth).filter opts.admits = found at *
  -- the page takes the ids of its first hits
  have hids : ((found.take (opts.pageSize + 1)).map messageID).take opts.pageSize =
      (found.take opts.pageSize).map messageID := by
    rw [← map_take, take_take, Nat.min_eq_left (Nat.le_succ _)]
  unfold searchPage
  dsimp only
  rw [hids, hhydrate, length_map, length_take]
  congr 1
  apply decide_eq_decide.mpr
  rw [decide_eq_true_eq]
  omega

/-- With one bound at most the code scans the range. -/
theorem searchRows_eq (h : opts.afterID = "" ∨ opts.beforeID = "") :
    searchRows a opts = scanRange a opts := by
  unfold searchRows scanRange
  by_cases hafter : opts.afterID = ""
  · have hdown : ¬ opts.afterID ≠ "" := by simpa using hafter
    rw [if_neg hdown, if_neg hdown]
    by_cases hbefore : opts.beforeID = ""
    · rw [if_neg (by simpa using hbefore)]
      symm
      rw [filter_eq_self]
      intro m _
      simp [inBounds, hafter, hbefore]
    · rw [if_pos hbefore]
      apply filter_congr
      intro m _
      simp [inBounds, hafter, hbefore]
  · have hbefore := h.resolve_left hafter
    have hup : opts.afterID ≠ "" := hafter
    rw [if_pos hup, if_pos hup]
    apply filter_congr
    intro m _
    simp [inBounds, hafter, hbefore]

theorem searched (h : opts.afterID = "" ∨ opts.beforeID = "") : Searched a opts := by
  unfold Searched hits
  rw [← searchRows_eq h]
  exact searchMessages_eq a opts

/-- A scan that is deep enough hits whatever matches. -/
theorem matching_of_shallow (hdepth : (scanRange a opts).length ≤ maxScanDepth) :
    matching a opts = if opts.afterID ≠ "" then (hits a opts).reverse else hits a opts := by
  have hboth : (fun m => opts.inBounds m && opts.admits m) =
      fun m => opts.admits m && opts.inBounds m := by
    funext m
    rw [Bool.and_comm]
  unfold matching hits
  rw [take_of_length_le hdepth, hboth]
  unfold scanRange
  by_cases hafter : opts.afterID ≠ ""
  · rw [if_pos hafter, if_pos hafter, filter_filter, newestFirst_eq, filter_reverse]
  · rw [if_neg hafter, if_neg hafter, filter_filter]

/-- Such a scan finds the newest matches if it goes down, or if it goes up and
    they all fit on the page. -/
theorem exact_of_shallow (hsearched : Searched a opts)
    (hdepth : (scanRange a opts).length ≤ maxScanDepth)
    (hpage : opts.afterID = "" ∨ (matching a opts).length ≤ opts.pageSize) : Exact a opts := by
  have hmatching := matching_of_shallow hdepth
  have hmore : (opts.pageSize < (hits a opts).length ∨ maxScanDepth < (scanRange a opts).length) ↔
      opts.pageSize < (matching a opts).length := by
    have hlength : (matching a opts).length = (hits a opts).length := by
      rw [hmatching]
      split
      · rw [length_reverse]
      · rfl
    omega
  unfold Exact
  rw [hsearched, decide_eq_decide.mpr hmore]
  congr 1
  by_cases hafter : opts.afterID ≠ ""
  · -- upwards both cuts leave everything, and the reversal agrees
    have hfits := hpage.resolve_left hafter
    rw [if_pos hafter] at hmatching ⊢
    have hall : (hits a opts).length ≤ opts.pageSize := by
      rwa [hmatching, length_reverse] at hfits
    rw [take_of_length_le hfits, take_of_length_le hall, hmatching]
  · rw [if_neg hafter] at hmatching ⊢
    rw [hmatching]

/-- **Search.** With one bound at most, a search returns the first hits of its
    scan; these are the newest matches of a range no deeper than the scan,
    unless an upward scan meets more of them than the page holds. -/
theorem searchMessages_spec (a : Archive) (opts : SearchMessagesOpts)
    (h : opts.afterID = "" ∨ opts.beforeID = "") :
    Searched a opts ∧
      ((scanRange a opts).length ≤ maxScanDepth →
        opts.afterID = "" ∨ (matching a opts).length ≤ opts.pageSize → Exact a opts) :=
  ⟨searched h, exact_of_shallow (searched h)⟩

/-- Three messages after "01", of which the middle one is deleted. -/
def postedLater : Archive where
  messages :=
    [ { channelID := "news", messageID := "02", authorID := "ann", encryptedContent := [] },
      { channelID := "news", messageID := "03", authorID := "ann", encryptedContent := []
        deleted := true },
      { channelID := "news", messageID := "04", authorID := "ann", encryptedContent := [] } ]
  pinsPK := unique_noPins

theorem searchMessages_spec_upwards :
    Searched postedLater { channelID := "news", afterID := "01", limit := 1 } :=
  (searchMessages_spec postedLater { channelID := "news", afterID := "01", limit := 1 }
    (.inr rfl)).1

/-- A channel in which everything has been deleted. -/
def deletedRows (n : Nat) : List Message :=
  (range n).map fun i =>
    { channelID := "news", messageID := .ofList (replicate i 'x'), authorID := "ann"
      encryptedContent := [], deleted := true }

theorem unique_deletedRows (n : Nat) : UniqueOn key (deletedRows n) := by
  unfold UniqueOn deletedRows
  rw [map_map]
  apply Nodup.map _ nodup_range
  intro i j hkey
  have hchars : replicate i 'x' = replicate j 'x' :=
    String.ofList_injective (Prod.mk.inj hkey).2
  simpa using congrArg length hchars

theorem mem_deletedRows {n : Nat} (h : m ∈ deletedRows n) :
    m.channelID = "news" ∧ m.deleted = true := by
  obtain ⟨i, -, rfl⟩ := mem_map.mp h
  exact ⟨rfl, rfl⟩

def deletedArchive (n : Nat) : Archive where
  messages := deletedRows n
  messagesPK := unique_deletedRows n
  pinsPK := unique_noPins

/-- There is nothing to find, but a scan that stops at its depth cannot know. -/
theorem not_exact_deep {n : Nat} (hdeep : maxScanDepth < n) :
    ¬ Exact (deletedArchive n) { channelID := "news" } := by
  intro h
  have hnone : matching (deletedArchive n) { channelID := "news" } = [] := by
    unfold matching
    rw [filter_eq_nil_iff]
    intro m hm
    have hdeleted := (mem_deletedRows (mem_newestFirst.mp hm).1).2
    simp [admits, hdeleted]
  have hlength : (searchRows (deletedArchive n) { channelID := "news" }).length = n := by
    show (newestFirst (deletedArchive n) "news").length = n
    unfold newestFirst
    rw [length_insertionSort, filter_eq_self.mpr]
    · show (deletedRows n).length = n
      unfold deletedRows
      rw [length_map, length_range]
    · intro m hm
      exact decide_eq_true (mem_deletedRows hm).1
  have hmore := congrArg Prod.snd ((searchMessages_eq (deletedArchive n) _).symm.trans h)
  rw [hnone, hlength] at hmore
  simp [hdeep] at hmore

/-- Neither a page of an upward scan nor a scan that stops at its depth is what
    the filters alone would give. -/
theorem not_exact :
    ¬ Exact postedLater { channelID := "news", afterID := "01", limit := 1 } ∧
      ¬ Exact (deletedArchive 10001) { channelID := "news" } := by
  constructor
  · unfold Exact
    decide +kernel
  · exact not_exact_deep (by unfold maxScanDepth; omega)

end Meza.Store.MessageStore
