import Meza.Chat.Editing
import Meza.Lib.TiedPaging

/-! # Paging through the pins

    A client asks for the pins of a channel page by page: first without a cursor,
    then below the `pinned_at` of the last pin it has received, as long as there
    are more. Pins whose message is gone are removed by the request that comes
    across them.

    The time stands still in the meantime, and nobody else writes. -/

namespace Meza.Chat

open Store Permissions List TiedPaging PinnedMessage Option Action Table PinStore MessageStore

/-! ## Section 1: The client -/

section Client

variable (clock : Int) (parseTime : String → Option Int) (formatTime : Int → String)
  (caller : Option ID) (channelID : ID) (limit : Int)

/-- The cursor after an answer. -/
def nextBefore (before : String) (received : List PinInfo) : String :=
  match received.getLast? with
  | some info => formatTime info.pinnedAt
  | none => before

/-- The pins received, if the client comes to the end with so many requests. -/
def followPins : Nat → String → MessagingState → Option (List PinInfo)
  | 0, _, _ => none
  | fuel + 1, before, s =>
    match getPinnedMessages clock parseTime caller { channelID, before, limit } s with
    | .error _ _ => none
    | .ok r s' =>
      if r.hasMore then
        (followPins fuel (nextBefore formatTime before r.pinnedMessages) s').map
          (r.pinnedMessages ++ ·)
      else some r.pinnedMessages

end Client

/-- Every pin of a message that is not deleted has been received, and once. -/
def ReceivedOnce (a : Archive) (channelID : ID) (received : List PinInfo) : Prop :=
  ∀ p ∈ a.pins, p.channelID = channelID → (pinned a p).isSome = true →
    (received.map (·.message.messageID)).count p.messageID = 1

/-! ## Section 2: One answer -/

/-- The pins of a channel before a time, latest first. -/
def pinsBefore (a : Archive) (channelID : ID) (before : Int) : List PinnedMessage :=
  descending pinnedAt (a.pins.filter fun p => p.channelID = channelID ∧ p.pinnedAt < before)

/-- The pin's message is there. -/
def live (a : Archive) (p : PinnedMessage) : Bool := (pinned a p).isSome

def pinLimit (limit : Int) : Nat := pageLimit 50 100 limit

/-- One row more than the limit is asked for, and 101 is out of the store's range. -/
theorem pinPage_eq (a : Archive) (channelID : ID) (before : Int) (limit : Nat) :
    pinPage a channelID before limit =
      (pinsBefore a channelID before).take (if limit < 100 then limit + 1 else 50) := by
  unfold pinPage PinStore.getPinnedMessages pinsBefore descending
  congr 1
  split
  · split
    · omega
    · rfl
  · split
    · rfl
    · omega

/-- The pins that a request looks at. -/
def pinsOnPage (a : Archive) (channelID : ID) (before : Int) (limit : Nat) : List PinnedMessage :=
  (pinPage a channelID before limit).take limit

def pinAnswer (a : Archive) (channelID : ID) (before : Int) (limit : Nat) :
    GetPinnedMessagesResponse :=
  { pinnedMessages := (pinsOnPage a channelID before limit).filterMap (pinned a)
    hasMore := limit < (pinPage a channelID before limit).length }

/-- The caller has access to the channel. -/
def MayReadPins (chat : ChatState) (channelID userID : ID) : Prop :=
  channelID ≠ "" ∧ ∃ c, requireParticipant "not a member" chat.db.tables channelID userID = .ok c ∧
    ∀ serverID ∈ c.serverID, Enters chat c serverID userID

theorem Enters.same {chat chat' : ChatState} (h : SameServed chat chat') {c : Channel}
    {serverID userID : ID} (hc : Enters chat c serverID userID) :
    Enters chat' c serverID userID := by
  unfold Enters at hc ⊢
  rw [h.db]
  split
  · next hprivate =>
    rw [if_pos hprivate] at hc
    exact hc
  · next hpublic =>
    rw [if_neg hpublic] at hc
    exact h.iff.mpr hc

theorem MayReadPins.same {chat chat' : ChatState} (h : SameServed chat chat') {channelID userID : ID}
    (hread : MayReadPins chat channelID userID) : MayReadPins chat' channelID userID := by
  obtain ⟨hchannel, c, hc, henters⟩ := hread
  refine ⟨hchannel, c, ?_, fun serverID hserver => (henters serverID hserver).same h⟩
  rw [h.db]
  exact hc

section Answer

variable {clock : Int} {parseTime : String → Option Int} {userID : ID}
  {req : GetPinnedMessagesRequest} {s' : MessagingState}

variable {r : GetPinnedMessagesResponse}

theorem getPinnedMessages_ok :
    getPinnedMessages clock parseTime (some userID) req s = .ok r s' ↔
      req.channelID ≠ "" ∧ ∃ c, requireParticipant "not a member" s.chat.db.tables req.channelID
          userID = .ok c ∧ ∃ chat, requireChannelAccess c userID s.chat = .ok () chat ∧
        ∃ before, pinCursor clock parseTime req.before = .ok before ∧
          r = pinAnswer s.archive req.channelID before (pinLimit req.limit) ∧
          s' = { s with chat, archive := unpinOrphans s.archive
                          (pinsOnPage s.archive req.channelID before (pinLimit req.limit)) } := by
  unfold getPinnedMessages
  rw [bind_require_ok]
  simp only [bind_onChat_ok, bind_check_ok, bind_query_ok, reject_ok, require_ok]
  constructor
  · intro h
    obtain ⟨_, huser, _, _, ⟨hchannel, rfl⟩, c, _, ⟨hc, rfl⟩, _, chat, haccess, before, hbefore,
      h⟩ := h
    cases huser
    obtain ⟨_, s₁, hmodify, hpure⟩ := bind_ok.mp h
    rw [modify_ok] at hmodify
    obtain ⟨hr, hs'⟩ := pure_ok.mp hpure
    exact ⟨hchannel, c, hc, chat, haccess, before, hbefore, hr, hs'.trans hmodify⟩
  · intro h
    obtain ⟨hchannel, c, hc, chat, haccess, before, hbefore, hr, hs'⟩ := h
    refine ⟨userID, rfl, (), s.chat, ⟨hchannel, rfl⟩, c, s.chat, ⟨hc, rfl⟩, (), chat, haccess,
      before, hbefore, ?_⟩
    exact bind_ok.mpr ⟨(), s', modify_ok.mpr hs', pure_ok.mpr ⟨hr, rfl⟩⟩

theorem getPinnedMessages_of_mayRead (hread : MayReadPins s.chat req.channelID userID) {before : Int}
    (hbefore : pinCursor clock parseTime req.before = .ok before) :
    ∃ chat, SameServed s.chat chat ∧
      getPinnedMessages clock parseTime (some userID) req s =
        .ok (pinAnswer s.archive req.channelID before (pinLimit req.limit))
          { s with chat, archive := unpinOrphans s.archive
                     (pinsOnPage s.archive req.channelID before (pinLimit req.limit)) } := by
  obtain ⟨hchannel, c, hc, henters⟩ := hread
  obtain ⟨chat, haccess⟩ := requireChannelAccess_ok.mpr henters
  refine ⟨chat, requireChannelAccess_same haccess, ?_⟩
  exact getPinnedMessages_ok.mpr ⟨hchannel, c, hc, chat, haccess, before, hbefore, rfl, rfl⟩

theorem mayRead_of_answered {caller : Option ID}
    (h : getPinnedMessages clock parseTime caller req s = .ok r s') :
    ∃ userID, caller = some userID ∧ MayReadPins s.chat req.channelID userID := by
  rcases caller with _ | userID
  · unfold getPinnedMessages at h
    obtain ⟨_, hnone, -⟩ := bind_require_ok.mp h
    cases hnone
  · obtain ⟨hchannel, c, hc, chat, haccess, -⟩ := getPinnedMessages_ok.mp h
    exact ⟨userID, rfl, hchannel, c, hc, requireChannelAccess_ok.mp ⟨chat, haccess⟩⟩

end Answer

/-! ## Section 3: What a request removes -/

theorem foldl_unpin (a : Archive) (pins : List PinnedMessage) :
    (pins.foldl (fun a p => unpinMessage a p.channelID p.messageID) a).messages =
        a.messages ∧
      (pins.foldl (fun a p => unpinMessage a p.channelID p.messageID) a).pins =
        a.pins.filter fun p => p.key ∉ pins.map key := by
  induction pins generalizing a with
  | nil => simp
  | cons q pins ih =>
    obtain ⟨hmessages, hpins⟩ := ih (unpinMessage a q.channelID q.messageID)
    refine ⟨hmessages, ?_⟩
    rw [foldl_cons, hpins]
    show (deleteWhere _ a.pins).filter _ = _
    unfold deleteWhere
    rw [List.filter_filter]
    refine filter_congr ?_
    intro p _
    have hkey : (p.channelID = q.channelID ∧ p.messageID = q.messageID) ↔ p.key = q.key := by
      unfold key
      rw [Prod.mk.injEq]
    rw [Bool.and_comm]
    simp [hkey]

variable {a : Archive}

theorem pinned_congr {a' : Archive} (h : a'.messages = a.messages) (p : PinnedMessage) :
    pinned a' p = pinned a p := by
  unfold pinned getMessage
  rw [h]

variable {p : PinnedMessage}

section Removed

variable {channelID : ID} {before : Int}

theorem unpinOrphans_messages (a : Archive) (page : List PinnedMessage) :
    (unpinOrphans a page).messages = a.messages := (foldl_unpin a _).1

theorem pinned_unpinOrphans (a : Archive) (page : List PinnedMessage) :
    pinned (unpinOrphans a page) = pinned a :=
  funext (pinned_congr (unpinOrphans_messages a page))

theorem live_unpinOrphans (a : Archive) (page : List PinnedMessage) :
    live (unpinOrphans a page) = live a := by
  funext p
  unfold live
  rw [pinned_unpinOrphans]

/-- The pins of the page that are removed. -/
def orphans (a : Archive) (page : List PinnedMessage) : List PinnedMessage :=
  page.filter fun p => (pinned a p).isNone

theorem unpinOrphans_pins (a : Archive) (page : List PinnedMessage) :
    (unpinOrphans a page).pins = a.pins.filter fun p => p.key ∉ (orphans a page).map key :=
  (foldl_unpin a _).2

theorem mem_pinsBefore :
    p ∈ pinsBefore a channelID before ↔
      p ∈ a.pins ∧ p.channelID = channelID ∧ p.pinnedAt < before := by
  unfold pinsBefore
  rw [mem_descending, mem_filter, decide_eq_true_eq]

theorem pinsBefore_unpinOrphans (page : List PinnedMessage) {earlier : Int}
    (hle : earlier ≤ before) :
    pinsBefore (unpinOrphans a page) channelID earlier =
      (pinsBefore a channelID before).filter fun p =>
        p.key ∉ (orphans a page).map PinnedMessage.key ∧ p.pinnedAt < earlier := by
  unfold pinsBefore
  rw [TiedPaging.filter_descending, unpinOrphans_pins, List.filter_filter, List.filter_filter]
  congr 1
  refine filter_congr ?_
  intro p _
  rw [Bool.eq_iff_iff]
  simp only [Bool.and_eq_true, decide_eq_true_eq]
  constructor
  · rintro ⟨⟨hchannel, htime⟩, hkept⟩
    exact ⟨⟨hkept, htime⟩, hchannel, by omega⟩
  · rintro ⟨⟨hkept, htime⟩, hchannel, -⟩
    exact ⟨⟨hchannel, htime⟩, hkept⟩

theorem pinsBefore_nodup : ((pinsBefore a channelID before).map key).Nodup := by
  have hperm := perm_insertionSort (fun p p' : PinnedMessage => p'.pinnedAt ≤ p.pinnedAt)
    (a.pins.filter fun p => p.channelID = channelID ∧ p.pinnedAt < before)
  refine (hperm.map key).nodup_iff.mpr ?_
  exact (filter_sublist.map _).nodup a.pinsPK

variable {page : List PinnedMessage}

theorem mem_orphans : p ∈ orphans a page ↔ p ∈ page ∧ live a p = false := by
  unfold orphans live
  rw [mem_filter, isNone_iff_eq_none, ← isNone_iff_eq_none, isSome_eq_false_iff]

theorem filter_page {earlier : Int} (h : ∀ p ∈ page, live a p = true → earlier ≤ p.pinnedAt) :
    page.filter (fun p =>
      p.key ∉ (orphans a page).map key ∧ p.pinnedAt < earlier) = [] := by
  rw [filter_eq_nil_iff]
  intro p hp hkeep
  obtain ⟨hkept, hbelow⟩ := of_decide_eq_true hkeep
  by_cases hlive : live a p = true
  · have hge := h p hp hlive
    omega
  · have horphan : p ∈ orphans a page := mem_orphans.mpr ⟨hp, by simpa using hlive⟩
    exact hkept (mem_map_of_mem horphan)

theorem filter_beyond {rest : List PinnedMessage}
    (hnodup : ((page ++ rest).map key).Nodup) (earlier : Int) :
    rest.filter (fun p =>
      p.key ∉ (orphans a page).map key ∧ p.pinnedAt < earlier) =
      rest.filter fun p => p.pinnedAt < earlier := by
  refine filter_congr ?_
  intro p hp
  have hkept : p.key ∉ (orphans a page).map key := by
    intro h
    obtain ⟨q, hq, hkey⟩ := mem_map.mp h
    rw [map_append] at hnodup
    refine (nodup_append.mp hnodup).2.2 q.key ?_ p.key (mem_map_of_mem hp) hkey
    exact mem_map_of_mem (mem_orphans.mp hq).1
  rw [Bool.eq_iff_iff, decide_eq_true_eq, decide_eq_true_eq]
  exact ⟨fun h => h.2, fun h => ⟨hkept, h⟩⟩

/-- The last of the live pins of a page is not above another one. -/
theorem last_le (h : page.Pairwise fun p p' => p'.pinnedAt ≤ p.pinnedAt) {last : PinnedMessage}
    (hlast : (page.filter (live a)).getLast? = some last) :
    ∀ p ∈ page, live a p = true → last.pinnedAt ≤ p.pinnedAt := by
  intro p hp hlive
  obtain ⟨pre, hpre⟩ := getLast?_eq_some_iff.mp hlast
  have hmem : p ∈ page.filter (live a) := mem_filter.mpr ⟨hp, hlive⟩
  have hsorted := h.sublist (filter_sublist (p := live a))
  rw [hpre] at hmem hsorted
  rcases mem_append.mp hmem with hmem | hmem
  · exact (pairwise_append.mp hsorted).2.2 p hmem last mem_cons_self
  · rw [mem_singleton.mp hmem]

/-- The time below which the next request lists pins. -/
def nextTime (a : Archive) (before : Int) (limit : Nat) (rows : List PinnedMessage) : Int :=
  match (handedOut (live a) limit rows).getLast? with
  | some last => last.pinnedAt
  | none => before

theorem pinsBefore_next (limit : Nat) :
    pinsBefore (unpinOrphans a ((pinsBefore a channelID before).take limit)) channelID
        (nextTime a before limit (pinsBefore a channelID before)) =
      left pinnedAt (live a) limit (pinsBefore a channelID before) := by
  have hsorted : (pinsBefore a channelID before).Pairwise fun p p' => p'.pinnedAt ≤ p.pinnedAt :=
    pairwise_descending _
  have hnodup := @pinsBefore_nodup a channelID before
  have htimes : ∀ p ∈ pinsBefore a channelID before, p.pinnedAt < before :=
    fun p hp => (mem_pinsBefore.mp hp).2.2
  have hle : nextTime a before limit (pinsBefore a channelID before) ≤ before := by
    unfold nextTime
    split
    · next last hlast =>
      have hmem := (mem_filter.mp (mem_of_getLast? hlast)).1
      exact le_of_lt (htimes last (mem_of_mem_take hmem))
    · exact le_refl _
  rw [pinsBefore_unpinOrphans _ hle]
  have hsplit : pinsBefore a channelID before =
      (pinsBefore a channelID before).take limit ++ (pinsBefore a channelID before).drop limit :=
    (take_append_drop limit _).symm
  unfold nextTime left handedOut
  generalize (pinsBefore a channelID before).take limit = page at *
  generalize (pinsBefore a channelID before).drop limit = rest at *
  rw [hsplit] at hsorted hnodup htimes ⊢
  rw [filter_append, filter_beyond hnodup]
  rcases hlast : (page.filter (live a)).getLast? with _ | last
  · -- the page consists of orphans
    have hempty : page.filter (live a) = [] := getLast?_eq_none_iff.mp hlast
    have hnone : ∀ p ∈ page, live a p = true → before ≤ p.pinnedAt :=
      fun p hp hlive => absurd hlive (filter_eq_nil_iff.mp hempty p hp)
    have hstay : (rest.filter fun p => p.pinnedAt < before) = rest := by
      rw [filter_eq_self]
      exact fun p hp => decide_eq_true (htimes p (mem_append_right _ hp))
    rw [filter_page hnone, hstay, nil_append]
  · dsimp only
    rw [filter_page (last_le (pairwise_append.mp hsorted).1 hlast), nil_append]

end Removed

/-! ## Section 4: The client follows the pages -/

theorem filterMap_live (a : Archive) (page : List PinnedMessage) :
    (page.filter (live a)).filterMap (pinned a) = page.filterMap (pinned a) := by
  rw [filterMap_filter]
  congr 1
  funext p
  unfold live
  rcases pinned a p with _ | info
  · rfl
  · rfl

theorem getLast?_received (a : Archive) (page : List PinnedMessage) :
    (page.filterMap (pinned a)).getLast?.map PinInfo.pinnedAt =
      (page.filter (live a)).getLast?.map pinnedAt := by
  induction page using reverseRecOn with
  | nil => rfl
  | append_singleton page p ih =>
    rcases hp : pinned a p with _ | info
    · have hdead : live a p = false := by
        unfold live
        rw [hp]
        rfl
      simpa [hp, hdead] using ih
    · have hlive : live a p = true := by
        unfold live
        rw [hp]
        rfl
      have htime : info.pinnedAt = p.pinnedAt := by
        obtain ⟨message, -, rfl⟩ := map_eq_some_iff.mp hp
        rfl
      simp [hp, hlive, htime]

/-- The times of the pins can be written and read. -/
def Readable (parseTime : String → Option Int) (formatTime : Int → String) (a : Archive) : Prop :=
  ∀ p ∈ a.pins, formatTime p.pinnedAt ≠ "" ∧ parseTime (formatTime p.pinnedAt) = some p.pinnedAt

variable {s : MessagingState} {time : Int}

section Follow

variable {clock : Int} {parseTime : String → Option Int} {formatTime : Int → String}
  {userID channelID : ID} {limit : Int}

theorem pinCursor_next (hreadable : Readable parseTime formatTime a) {before : String}
    (hbefore : pinCursor clock parseTime before = .ok time) (limit : Nat) :
    pinCursor clock parseTime (nextBefore formatTime before
      (((pinsBefore a channelID time).take limit).filterMap (pinned a))) =
        .ok (nextTime a time limit (pinsBefore a channelID time)) := by
  have hlast := getLast?_received a ((pinsBefore a channelID time).take limit)
  unfold nextBefore nextTime handedOut
  rcases hlive : (((pinsBefore a channelID time).take limit).filter (live a)).getLast? with
    _ | last
  · rw [hlive, map_none, map_eq_none_iff] at hlast
    rw [hlast]
    exact hbefore
  · rw [hlive, map_some, map_eq_some_iff] at hlast
    obtain ⟨info, hinfo, htime⟩ := hlast
    rw [hinfo]
    have hmem := mem_of_mem_take (mem_filter.mp (mem_of_getLast? hlive)).1
    obtain ⟨hne, hparse⟩ := hreadable last (mem_pinsBefore.mp hmem).1
    dsimp only
    rw [htime]
    unfold pinCursor
    rw [if_neg hne, hparse]

theorem Readable.unpinOrphans (h : Readable parseTime formatTime a) (page : List PinnedMessage) :
    Readable parseTime formatTime (unpinOrphans a page) := by
  intro p hp
  rw [unpinOrphans_pins] at hp
  exact h p (mem_filter.mp hp).1

theorem pinsOnPage_of_lt {before : Int} {limit : Nat} (h : limit < 100) :
    pinsOnPage a channelID before limit = (pinsBefore a channelID before).take limit := by
  unfold pinsOnPage
  rw [pinPage_eq, if_pos h, take_take]
  congr 1
  omega

/-- Below a limit of 100 the client follows the pages of the pins. -/
theorem followPins_eq (hlimit : pinLimit limit < 100) {before : String}
    (hread : MayReadPins s.chat channelID userID)
    (hreadable : Readable parseTime formatTime s.archive)
    (hbefore : pinCursor clock parseTime before = .ok time) (fuel : Nat) :
    followPins clock parseTime formatTime (some userID) channelID limit fuel before s =
      (follow pinnedAt (live s.archive) (pinLimit limit) fuel
        (pinsBefore s.archive channelID time)).map (filterMap (pinned s.archive)) := by
  induction fuel generalizing before time s with
  | zero => rfl
  | succ fuel ih =>
    obtain ⟨chat, hsame, hrun⟩ := @getPinnedMessages_of_mayRead clock parseTime userID
      { channelID, before, limit } s hread time hbefore
    unfold followPins follow
    rw [hrun]
    dsimp only
    have hmore : (pinAnswer s.archive channelID time (pinLimit limit)).hasMore =
        decide (pinLimit limit < (pinsBefore s.archive channelID time).length) := by
      unfold pinAnswer
      rw [pinPage_eq, if_pos hlimit, length_take, Bool.eq_iff_iff, decide_eq_true_eq,
        decide_eq_true_eq]
      omega
    have hanswer : (pinAnswer s.archive channelID time (pinLimit limit)).pinnedMessages =
        ((pinsBefore s.archive channelID time).take (pinLimit limit)).filterMap
          (pinned s.archive) := by
      unfold pinAnswer
      rw [pinsOnPage_of_lt hlimit]
    have hhanded : (handedOut (live s.archive) (pinLimit limit)
        (pinsBefore s.archive channelID time)).filterMap (pinned s.archive) =
          ((pinsBefore s.archive channelID time).take (pinLimit limit)).filterMap
            (pinned s.archive) := filterMap_live _ _
    rw [hmore, hanswer, pinsOnPage_of_lt hlimit]
    -- the pins that a page removes are not live, so the next page is one of the same pins
    by_cases hlong : pinLimit limit < (pinsBefore s.archive channelID time).length
    · rw [decide_eq_true hlong, if_pos rfl, if_pos hlong, ih (hread.same hsame)
        (hreadable.unpinOrphans _) (pinCursor_next hreadable hbefore _), pinsBefore_next,
        live_unpinOrphans, pinned_unpinOrphans, Option.map_map, Option.map_map]
      congr 1
      funext rest
      show _ ++ rest.filterMap (pinned s.archive) =
        (handedOut _ _ _ ++ rest).filterMap (pinned s.archive)
      rw [filterMap_append, hhanded]
    · rw [decide_eq_false hlong, if_neg Bool.false_ne_true, if_neg hlong, map_some,
        take_of_length_le (Nat.le_of_not_lt hlong), filterMap_live]

/-- At a limit of 100 the store lists 50, and the client takes them for all. -/
theorem followPins_of_max (hlimit : pinLimit limit = 100) {before : String}
    (hread : MayReadPins s.chat channelID userID)
    (hbefore : pinCursor clock parseTime before = .ok time) (fuel : Nat) :
    followPins clock parseTime formatTime (some userID) channelID limit (fuel + 1) before s =
      some (((pinsBefore s.archive channelID time).take 50).filterMap (pinned s.archive)) := by
  obtain ⟨chat, hsame, hrun⟩ := @getPinnedMessages_of_mayRead clock parseTime userID
    { channelID, before, limit } s hread time hbefore
  unfold followPins
  rw [hrun]
  dsimp only
  have hpage : pinPage s.archive channelID time (pinLimit limit) =
      (pinsBefore s.archive channelID time).take 50 := by
    rw [pinPage_eq, hlimit]
    rfl
  have hlast : (pinAnswer s.archive channelID time (pinLimit limit)).hasMore = false := by
    unfold pinAnswer
    rw [hpage, hlimit, decide_eq_false_iff_not, length_take]
    omega
  rw [hlast, if_neg Bool.false_ne_true]
  unfold pinAnswer pinsOnPage
  rw [hpage, hlimit, take_take]
  rfl

end Follow

/-! ## Section 5: What the client receives -/

theorem pinned_messageID {info : PinInfo} (h : pinned a p = some info) :
    info.message.messageID = p.messageID := by
  obtain ⟨message, hmessage, rfl⟩ := map_eq_some_iff.mp h
  have hlookup := (filter_eq_some_iff.mp hmessage).1
  exact congrArg Prod.snd (mem_of_lookup hlookup).2

theorem messageIDs_received {got : List PinnedMessage} (h : ∀ p ∈ got, live a p = true) :
    (got.filterMap (pinned a)).map (·.message.messageID) = got.map (·.messageID) := by
  induction got with
  | nil => rfl
  | cons p got ih =>
    obtain ⟨hp, hgot⟩ := forall_mem_cons.mp h
    obtain ⟨info, hinfo⟩ := isSome_iff_exists.mp hp
    rw [filterMap_cons_some hinfo, map_cons, map_cons, ih hgot, pinned_messageID hinfo]

/-- A client that gets some of the live pins gets them all if none is in the future and none
    has been passed over. -/
theorem receivedOnce_iff {channelID : ID} {got : List PinnedMessage}
    (hgot : got.Sublist ((pinsBefore a channelID time).filter (live a))) :
    ReceivedOnce a channelID (got.filterMap (pinned a)) ↔
      (∀ p ∈ a.pins, p.channelID = channelID → live a p = true → p.pinnedAt < time) ∧
        got = (pinsBefore a channelID time).filter (live a) := by
  have hlive : ∀ p ∈ got, live a p = true :=
    fun p hp => (mem_filter.mp (hgot.subset hp)).2
  have hlisted : ∀ p ∈ got, p ∈ a.pins ∧ p.channelID = channelID ∧ p.pinnedAt < time :=
    fun p hp => mem_pinsBefore.mp (mem_filter.mp (hgot.subset hp)).1
  have hkeys : (got.map key).Nodup :=
    ((hgot.trans filter_sublist).map _).nodup pinsBefore_nodup
  have hids : (got.map (·.messageID)).Nodup := by
    refine Nodup.map_on ?_ hkeys.of_map
    intro p hp q hq hid
    refine eq_of_key a.pinsPK (hlisted p hp).1 (hlisted q hq).1 ?_
    unfold key
    rw [(hlisted p hp).2.1, (hlisted q hq).2.1, hid]
  unfold ReceivedOnce
  rw [messageIDs_received hlive]
  constructor
  · intro hall
    -- whoever has the id of a live pin of the channel among those received is that pin
    have hmem : ∀ p ∈ a.pins, p.channelID = channelID → live a p = true → p ∈ got := by
      intro p hp hchannel hplive
      have hone := hall p hp hchannel hplive
      have hpos : 0 < (got.map (·.messageID)).count p.messageID := by omega
      obtain ⟨q, hq, hid⟩ := mem_map.mp (count_pos_iff.mp hpos)
      have hkey : q.key = p.key := by
        unfold key
        rw [(hlisted q hq).2.1, hchannel, hid]
      rwa [← eq_of_key a.pinsPK (hlisted q hq).1 hp hkey]
    refine ⟨fun p hp hchannel hplive => (hlisted p (hmem p hp hchannel hplive)).2.2, ?_⟩
    have hback : (pinsBefore a channelID time).filter (live a) ⊆ got := by
      intro p hp
      obtain ⟨hlist, hplive⟩ := mem_filter.mp hp
      obtain ⟨hpin, hchannel, -⟩ := mem_pinsBefore.mp hlist
      exact hmem p hpin hchannel hplive
    have hnodup : ((pinsBefore a channelID time).filter (live a)).Nodup :=
      pinsBefore_nodup.of_map.filter _
    exact hgot.eq_of_length_le (hnodup.subperm hback).length_le
  · rintro ⟨htimes, rfl⟩ p hp hchannel hplive
    refine count_eq_one_of_mem hids (mem_map_of_mem ?_)
    refine mem_filter.mpr ⟨mem_pinsBefore.mpr ⟨hp, hchannel, ?_⟩, hplive⟩
    exact htimes p hp hchannel hplive

theorem pinLimit_bounds (limit : Int) : 0 < pinLimit limit ∧ pinLimit limit ≤ 100 := by
  unfold pinLimit pageLimit
  split
  · omega
  · split
    · omega
    · omega

/-- No page ends between two live pins with the same time; and where the limit is 100, the
    live pins are among the first 50. -/
def NothingCutOff (a : Archive) (channelID : ID) (clock limit : Int) : Prop :=
  if pinLimit limit < 100 then
    Seamless pinnedAt (live a) (pinLimit limit) (pinsBefore a channelID clock)
  else ∀ p ∈ (pinsBefore a channelID clock).drop 50, live a p = false

/-- What the client ends with, for all it needs to know about the pages. -/
theorem followPins_spec (clock limit : Int) {parseTime : String → Option Int}
    {formatTime : Int → String} {userID channelID : ID}
    (hread : MayReadPins s.chat channelID userID)
    (hreadable : Readable parseTime formatTime s.archive) :
    (∃ fuel received,
        followPins clock parseTime formatTime (some userID) channelID limit fuel "" s =
          some received) ∧
      ∀ fuel received,
        followPins clock parseTime formatTime (some userID) channelID limit fuel "" s =
            some received →
          ∃ got, received = got.filterMap (pinned s.archive) ∧
            got.Sublist ((pinsBefore s.archive channelID clock).filter (live s.archive)) ∧
            (got = (pinsBefore s.archive channelID clock).filter (live s.archive) ↔
              NothingCutOff s.archive channelID clock limit) := by
  have hfirst : pinCursor clock parseTime "" = .ok clock := rfl
  obtain ⟨hpos, hmax⟩ := pinLimit_bounds limit
  unfold NothingCutOff
  by_cases hlimit : pinLimit limit < 100
  · -- below the most the pages are those of the library
    have hfollow : ∀ fuel, followPins clock parseTime formatTime (some userID) channelID limit
        fuel "" s = _ := followPins_eq hlimit hread hreadable hfirst
    rw [if_pos hlimit]
    constructor
    · obtain ⟨got, hgot⟩ := follow_ends pinnedAt (live s.archive) hpos _ _
        (Nat.lt_succ_self (pinsBefore s.archive channelID clock).length)
      exact ⟨_, _, by rw [hfollow, hgot]; rfl⟩
    · intro fuel received h
      rw [hfollow] at h
      obtain ⟨got, hgot, rfl⟩ := map_eq_some_iff.mp h
      exact ⟨got, rfl, follow_sublist hgot, follow_all_iff (pairwise_descending _) hgot⟩
  · -- at the most there is one page only, and its lookahead is never seen
    have hmost : pinLimit limit = 100 := by omega
    have hfollow : ∀ fuel, followPins clock parseTime formatTime (some userID) channelID limit
        (fuel + 1) "" s = _ := followPins_of_max hmost hread hfirst
    rw [if_neg hlimit]
    refine ⟨⟨1, _, hfollow 0⟩, ?_⟩
    intro fuel received h
    rcases fuel with _ | fuel
    · cases h
    · rw [hfollow] at h
      cases h
      refine ⟨((pinsBefore s.archive channelID clock).take 50).filter (live s.archive),
        (filterMap_live _ _).symm, (take_sublist _ _).filter _, ?_⟩
      have hsplit := filter_split (live s.archive) 50 (pinsBefore s.archive channelID clock)
      rw [hsplit]
      unfold handedOut
      rw [self_eq_append_right, filter_eq_nil_iff]
      simp only [Bool.not_eq_true]

/-- A client that may read the pins receives every pin of a message that is not deleted once
    if and only if these pins are in the past and no page cuts any of them off. -/
theorem followPins_complete_iff {clock : Int} {parseTime : String → Option Int}
    {formatTime : Int → String} {caller : Option ID} {channelID : ID} {limit : Int}
    {s s' : MessagingState} {r : GetPinnedMessagesResponse}
    (hreadable : Readable parseTime formatTime s.archive)
    (hanswered : getPinnedMessages clock parseTime caller { channelID, limit } s = .ok r s') :
    (∃ fuel received,
        followPins clock parseTime formatTime caller channelID limit fuel "" s = some received ∧
          ReceivedOnce s.archive channelID received) ↔
      (∀ p ∈ s.archive.pins, p.channelID = channelID → live s.archive p = true →
        p.pinnedAt < clock) ∧ NothingCutOff s.archive channelID clock limit := by
  obtain ⟨userID, rfl, hread⟩ := mayRead_of_answered hanswered
  obtain ⟨hends, hspec⟩ := followPins_spec clock limit hread hreadable
  constructor
  · rintro ⟨fuel, received, hrun, honce⟩
    obtain ⟨got, rfl, hsub, hwhole⟩ := hspec fuel received hrun
    obtain ⟨htimes, hall⟩ := (receivedOnce_iff hsub).mp honce
    exact ⟨htimes, hwhole.mp hall⟩
  · rintro ⟨htimes, hcut⟩
    obtain ⟨fuel, received, hrun⟩ := hends
    obtain ⟨got, rfl, hsub, hwhole⟩ := hspec fuel received hrun
    exact ⟨fuel, _, hrun, (receivedOnce_iff hsub).mpr ⟨htimes, hwhole.mpr hcut⟩⟩

/-- A DM in which two have written. -/
def diaryTables : Tables where
  users := [{ id := "ann", signingPublicKey := none }, { id := "bob", signingPublicKey := none }]
  channels := [{ id := "dm", serverID := none, name := "dm", type := 3 }]
  channelMembers := [⟨"dm", "ann"⟩, ⟨"dm", "bob"⟩]

def entry (messageID : ID) (deleted : Bool) : Message :=
  { channelID := "dm", messageID, authorID := "ann", encryptedContent := [1], deleted }

def pinAt (messageID : ID) (pinnedAt : Int) : PinnedMessage :=
  { channelID := "dm", messageID, pinnedBy := some "bob", pinnedAt }

/-- The third message has been deleted, and two were pinned at the same time. -/
def diary : MessagingState where
  chat := { db := ⟨diaryTables, by decide⟩ }
  archive :=
    { messages := [entry "m1" false, entry "m2" false, entry "m3" true, entry "m4" false,
        entry "m5" false]
      pins := [pinAt "m1" 10, pinAt "m2" 20, pinAt "m3" 20, pinAt "m4" 30, pinAt "m5" 30] }

/-- The times of the diary in RFC 3339. -/
def diaryTime (t : Int) : String :=
  if t = 10 then "1970-01-01T00:00:00.00001Z"
  else if t = 20 then "1970-01-01T00:00:00.00002Z"
  else "1970-01-01T00:00:00.00003Z"

def parseDiaryTime (before : String) : Option Int :=
  if before = "1970-01-01T00:00:00.00001Z" then some 10
  else if before = "1970-01-01T00:00:00.00002Z" then some 20
  else if before = "1970-01-01T00:00:00.00003Z" then some 30
  else none

/-- Two by two, the four pins that are left are received. -/
theorem followPins_complete_diary :
    ∃ fuel received, followPins 100 parseDiaryTime diaryTime (some "ann") "dm" 2 fuel "" diary =
      some received ∧ ReceivedOnce diary.archive "dm" received := by
  have hreadable : Readable parseDiaryTime diaryTime diary.archive := by
    unfold Readable
    decide
  have hanswered : ∃ r s', getPinnedMessages 100 parseDiaryTime (some "ann")
      { channelID := "dm", limit := 2 } diary = .ok r s' := ⟨_, _, rfl⟩
  obtain ⟨r, s', hrun⟩ := hanswered
  refine (followPins_complete_iff hreadable hrun).mpr ⟨by decide, ?_⟩
  show Seamless pinnedAt (live diary.archive) 2
    (pinsBefore diary.archive "dm" 100)
  exact .page (by decide) (by decide) (.page (by decide) (by decide) (.last (by decide)))

/-- One by one, one of the two that were pinned at the same time is not received. -/
theorem twin_pin_lost :
    (∃ r s', getPinnedMessages 100 parseDiaryTime (some "ann") { channelID := "dm", limit := 1 }
      diary = .ok r s') ∧
    ¬ ∃ fuel received,
      followPins 100 parseDiaryTime diaryTime (some "ann") "dm" 1 fuel "" diary = some received ∧
        ReceivedOnce diary.archive "dm" received := by
  have hanswered : ∃ r s', getPinnedMessages 100 parseDiaryTime (some "ann")
      { channelID := "dm", limit := 1 } diary = .ok r s' := ⟨_, _, rfl⟩
  refine ⟨hanswered, ?_⟩
  rintro ⟨fuel, received, hrun, honce⟩
  obtain ⟨r, s', hfirst⟩ := hanswered
  obtain ⟨userID, huser, hread⟩ := mayRead_of_answered hfirst
  cases huser
  have hreadable : Readable parseDiaryTime diaryTime diary.archive := by
    unfold Readable
    decide
  obtain ⟨got, rfl, hsub, hwhole⟩ := (followPins_spec 100 1 hread hreadable).2 fuel received hrun
  have hall := ((receivedOnce_iff hsub).mp honce).2
  have hseamless : Seamless pinnedAt (live diary.archive) 1
    (pinsBefore diary.archive "dm" 100) := hwhole.mp hall
  cases hseamless with
  | last short =>
    revert short
    decide
  | page long apart rest =>
    revert apart
    decide

end Meza.Chat
