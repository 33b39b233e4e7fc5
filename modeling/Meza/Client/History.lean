import Meza.Client.Gateway
import Meza.Store.MessageStore

/-! # The start of the history

    A channel is read from its end: the client loads the latest page, then older
    ones, and each answer says whether there is more. Once one has said no, the
    channel is not asked for older messages again. But the array is bounded, and
    a message that arrives pushes the oldest one out without a word about it. -/

namespace Meza.Client

open Store (ID)
open Paging List Function MessageState GatewayEvent Run Index

/-! ## Section 1: The log of a channel -/

/-- What the server has of a channel, oldest first. Deleted messages keep their rows. -/
structure ChannelLog where
  rows : List Message
  deleted : List ID
  ascending : Ascending Message.id rows
  named : ∀ r ∈ rows, "" < r.id

namespace ChannelLog

def empty : ChannelLog := ⟨[], [], List.Pairwise.nil, by simp⟩

def known (l : ChannelLog) : List Message := l.rows.filter fun r => r.id ∉ l.deleted

def oldest (l : ChannelLog) : Option Message := l.known.head?

/-- The ids are ULIDs: a new one is greater than all before it. -/
def Fresh (l : ChannelLog) (m : Message) : Prop := "" < m.id ∧ ∀ r ∈ l.rows, r.id < m.id

instance (l : ChannelLog) (m : Message) : Decidable (l.Fresh m) :=
  inferInstanceAs (Decidable (_ ∧ _))

def post (l : ChannelLog) (m : Message) (h : l.Fresh m) : ChannelLog where
  rows := l.rows ++ [m]
  deleted := l.deleted
  ascending := l.ascending.append (pairwise_singleton _ m) fun r hr m' hm' => by
    rw [List.mem_singleton.mp hm']
    exact h.2 r hr
  named := by
    intro r hr
    rcases List.mem_append.mp hr with hr | hr
    · exact l.named r hr
    · rw [List.mem_singleton.mp hr]
      exact h.1

def edit (l : ChannelLog) (m : Message) : ChannelLog where
  rows := l.rows.map (replacedBy m)
  deleted := l.deleted
  ascending := l.ascending.map (replacedBy_id m)
  named := by
    intro r hr
    obtain ⟨r', hr', rfl⟩ := List.mem_map.mp hr
    rw [replacedBy_id]
    exact l.named r' hr'

def delete (l : ChannelLog) (messageId : ID) : ChannelLog :=
  { l with deleted := messageId :: l.deleted }

/-- The newest rows, all or before a cursor, without the deleted ones. There is more if as
    many rows were found as asked for. Who has not agreed to the rules gets nothing. -/
def getMessages (l : ChannelLog) (before : ID) (limit : Int) (acknowledged : Bool) :
    List Message × Bool :=
  if acknowledged then
    let n := Store.MessageStore.pageLimit 50 100 limit
    let rows := if before = "" then l.rows else l.rows.filter (·.id < before)
    let fetched := rows.drop (rows.length - n)
    (fetched.filter fun r => r.id ∉ l.deleted, n ≤ fetched.length)
  else ([], false)

end ChannelLog

/-! ## Section 2: Pages and live events -/

/-- An answer on its way to the client. -/
structure Answer where
  channelId : ID
  before : ID
  page : List Message
  hasMore : Bool
  deriving DecidableEq, Repr

structure History where
  store : MessageState
  logs : ID → ChannelLog
  answers : List Answer

/-- A page is asked for at one time and taken at another, if it arrives. A `before` that is
    empty asks for the latest. -/
inductive HistoryEvent where
  | live (ev : GatewayEvent)
  | request (channelId before : ID) (limit : Int) (acknowledged : Bool)
  | receive (i : Nat)
  | fail (i : Nat) (error : String)
  deriving DecidableEq, Repr

/-- How an answer's page is put into the store. -/
def Answer.action (a : Answer) : Action :=
  if a.before ≠ "" then .prependMessages a.channelId a.page else .hydrateMessages a.channelId a.page

/-- The rest of `getMessages` in the client, once it has the answer. -/
def MessageState.takeAnswer (s : MessageState) (a : Answer) : MessageState :=
  ((a.action.run s).setHasMore a.channelId a.hasMore).setLoading a.channelId false

namespace History

variable (currentUserId : ID)

/-- An event in the server's log and in the client's store. -/
def deliver (h : History) (ev : GatewayEvent) (log : ChannelLog) : History :=
  { h with
    store := ev.deliver currentUserId h.store
    logs := update h.logs ev.channelId log }

def step (h : History) : HistoryEvent → History
  | .live (.messageCreate msg) =>
    if hfresh : (h.logs msg.channelId).Fresh msg then
      h.deliver currentUserId (.messageCreate msg) ((h.logs msg.channelId).post msg hfresh)
    else h
  | .live (.messageUpdate msg) =>
    h.deliver currentUserId (.messageUpdate msg) ((h.logs msg.channelId).edit msg)
  | .live (.messageDelete channelId messageId) =>
    h.deliver currentUserId (.messageDelete channelId messageId)
      ((h.logs channelId).delete messageId)
  | .request channelId before limit acknowledged =>
    let (page, hasMore) := (h.logs channelId).getMessages before limit acknowledged
    { h with
      store := (h.store.setLoading channelId true).setError channelId none
      answers := h.answers ++ [⟨channelId, before, page, hasMore⟩] }
  | .receive i =>
    match h.answers[i]? with
    | none => h
    | some a => { h with store := h.store.takeAnswer a, answers := h.answers.eraseIdx i }
  | .fail i error =>
    match h.answers[i]? with
    | none => h
    | some a =>
      { h with
        store := h.store.setError a.channelId (some error)
        answers := h.answers.eraseIdx i }

/-- The client is opened: it has loaded nothing and asked for nothing. -/
def opened (logs : ID → ChannelLog) : History := ⟨{}, logs, []⟩

end History

/-! ## Section 3: What the client holds -/

namespace MessageState

/-- A message with the id is in the array. -/
def Holds (s : MessageState) (channelId messageId : ID) : Prop :=
  ∃ m ∈ s.messages channelId, m.id = messageId

/-- The index has no more than the array. -/
def IndexHeld (s : MessageState) (channelId : ID) : Prop :=
  ∀ id, s.lookup channelId id ≠ none → s.Holds channelId id

section Holds

variable {s : MessageState} {c id : ID}

theorem SameAt.holds_iff {s' : MessageState} (h : s'.SameAt s c) : s'.Holds c id ↔ s.Holds c id := by
  unfold Holds
  rw [h.messages]

theorem SameAt.indexHeld {s' : MessageState} (h : s'.SameAt s c) (hi : s.IndexHeld c) :
    s'.IndexHeld c := by
  intro id hid
  rw [h.lookup] at hid
  exact h.holds_iff.mpr (hi id hid)

theorem map_id_replaceFirst (message : Message) (messages : List Message) :
    (replaceFirst message messages).map Message.id = messages.map Message.id := by
  induction messages with
  | nil => rfl
  | cons m messages ih =>
    unfold replaceFirst
    split
    · next hid => rw [map_cons, map_cons, hid]
    · rw [map_cons, map_cons, ih]

theorem holds_iff_mem_map : s.Holds c id ↔ id ∈ (s.messages c).map Message.id := by
  unfold Holds
  rw [mem_map]

theorem holds_updateMessage (m : Message) : (s.updateMessage c m).Holds c id ↔ s.Holds c id := by
  rw [holds_iff_mem_map, holds_iff_mem_map]
  unfold updateMessage
  split
  · simp only [messages, update_self, Option.getD_some]
    rw [map_id_replaceFirst]
  · rfl

theorem IndexHeld.updateMessage (h : s.IndexHeld c) (m : Message) :
    (s.updateMessage c m).IndexHeld c := by
  intro id hid
  rw [holds_updateMessage]
  by_cases hthere : ∃ m' ∈ s.messages c, m'.id = m.id
  · by_cases hsame : id = m.id
    · rw [hsame]
      exact hthere
    · apply h id
      intro hnone
      apply hid
      unfold MessageState.updateMessage
      rw [if_pos hthere]
      refine (lookup_modifyIndex _ id fun _ => update_of_ne hsame _ _).trans ?_
      rw [update_of_ne hsame, hnone]
  · unfold MessageState.updateMessage at hid
    rw [if_neg hthere] at hid
    exact h id hid

theorem holds_removeMessage (messageId : ID) :
    (s.removeMessage c messageId).Holds c id ↔ s.Holds c id ∧ id ≠ messageId := by
  unfold Holds removeMessage
  rw [messages_removeMessages]
  constructor
  · rintro ⟨m, hm, rfl⟩
    obtain ⟨hmem, hout⟩ := List.mem_filter.mp hm
    exact ⟨⟨m, hmem, rfl⟩, by simpa using hout⟩
  · rintro ⟨⟨m, hm, rfl⟩, hne⟩
    exact ⟨m, List.mem_filter.mpr ⟨hm, by simpa using hne⟩, rfl⟩

theorem IndexHeld.removeMessage (h : s.IndexHeld c) (messageId : ID) :
    (s.removeMessage c messageId).IndexHeld c := by
  intro id hid
  rw [holds_removeMessage]
  unfold MessageState.removeMessage removeMessages at hid
  split at hid
  · next hnone =>
    -- nothing is in the array, and so nothing is in the index
    obtain ⟨m, hm, -⟩ := h id hid
    simp [messages, hnone] at hm
  · change ((s.modifyIndex c fun index => erase index [messageId]) c).bind
      (fun index => index id) ≠ none at hid
    rw [lookup_modifyIndex _ id fun _ => by rw [erase_apply, ite_self], erase_apply] at hid
    by_cases hremoved : id ∈ [messageId]
    · exact absurd (if_pos hremoved) hid
    · rw [if_neg hremoved] at hid
      exact ⟨h id hid, by simpa using hremoved⟩

theorem messages_prependMessages (page : List Message) :
    (s.prependMessages c page).messages c = page ++ s.messages c := by
  simp [prependMessages, messages]

theorem holds_prependMessages (page : List Message) :
    (s.prependMessages c page).Holds c id ↔ (∃ p ∈ page, p.id = id) ∨ s.Holds c id := by
  unfold Holds
  rw [messages_prependMessages]
  simp only [mem_append, or_and_right, exists_or]

theorem IndexHeld.prependMessages (h : s.IndexHeld c) (page : List Message) :
    (s.prependMessages c page).IndexHeld c := by
  intro id hid
  rw [holds_prependMessages]
  by_cases hpage : ∃ p ∈ page, p.id = id
  · exact .inl hpage
  · refine .inr (h id ?_)
    intro hnone
    apply hid
    push Not at hpage
    have hlookup : (s.prependMessages c page).lookup c id =
        enter Message.id (s.lookup c) page id := by
      simp [MessageState.prependMessages, lookup, ← s.getD_byId c]
    rw [hlookup]
    exact enter_eq_none_iff.mpr ⟨hnone, hpage⟩

theorem indexHeld_replaceMessages (messages : List Message) :
    (s.replaceMessages c messages).IndexHeld c := by
  intro id hid
  rw [lookup_replaceMessages] at hid
  unfold Holds
  rw [messages_replaceMessages]
  by_contra hnone
  push Not at hnone
  exact hid (Option.isNone_iff_eq_none.mp (buildByIdIndex_isNone.mpr hnone))

theorem indexHeld_hydrateMessages (page : List Message) :
    (s.hydrateMessages c page).IndexHeld c := by
  obtain ⟨buffer, heq⟩ := s.hydrateMessages_eq c page
  rw [heq]
  exact s.indexHeld_replaceMessages (page ++ s.kept c page)

theorem holds_pushMessage_self (m : Message) : (s.pushMessage c m).Holds c m.id := by
  unfold Holds
  rw [messages_pushMessage]
  exact ⟨m, by simp, rfl⟩

theorem holds_pushMessage_of_room (m : Message) (hroom : (s.messages c).length < maxMessages)
    (h : s.Holds c id) : (s.pushMessage c m).Holds c id := by
  obtain ⟨m', hm', rfl⟩ := h
  have hnone : (s.messages c ++ [m]).length - maxMessages = 0 := by
    rw [length_append, length_singleton]
    omega
  unfold Holds
  rw [messages_pushMessage, hnone, drop_zero]
  exact ⟨m', mem_append_left _ hm', rfl⟩

theorem IndexHeld.pushMessage (h : s.IndexHeld c) (m : Message) :
    (s.pushMessage c m).IndexHeld c := by
  intro id hid
  by_cases hself : id = m.id
  · rw [hself]
    exact holds_pushMessage_self m
  · rw [lookup_pushMessage, update_of_ne hself, erase_apply] at hid
    set n := (s.messages c ++ [m]).length - maxMessages with hn
    by_cases hevicted : id ∈ ((s.messages c).take n).map Message.id
    · exact absurd (if_pos hevicted) hid
    · rw [if_neg hevicted] at hid
      obtain ⟨m', hm', rfl⟩ := h id hid
      unfold Holds
      rw [messages_pushMessage, ← hn]
      rcases mem_take_or_drop hm' n with htake | hdrop
      · exact absurd (mem_map_of_mem htake) hevicted
      · exact ⟨m', mem_append_left _ hdrop, rfl⟩

theorem holds_hydrateMessages_page {page : List Message} {p : Message} (hp : p ∈ page) :
    (s.hydrateMessages c page).Holds c p.id := by
  unfold Holds
  rw [messages_hydrateMessages]
  exact ⟨p, mem_append_left _ hp, rfl⟩

theorem holds_hydrateMessages_newer {page : List Message} (hpending : s.pendingMessages c = none)
    (hnamed : "" < id) (hnewer : ∀ p ∈ page, p.id < id) (h : s.Holds c id) :
    (s.hydrateMessages c page).Holds c id := by
  obtain ⟨m, hm, rfl⟩ := h
  have hlast : (page.getLast?.map Message.id).getD "" < m.id := by
    rcases hlast : page.getLast? with _ | last
    · exact hnamed
    · exact hnewer last (mem_of_getLast? hlast)
  have hout : (buildByIdIndex page m.id).isNone :=
    buildByIdIndex_isNone.mpr fun p hp => (hnewer p hp).ne
  unfold Holds
  rw [messages_hydrateMessages]
  unfold kept
  rw [hpending]
  exact ⟨m, mem_append_right _ (List.mem_filter.mpr ⟨hm, decide_eq_true ⟨hlast, hout⟩⟩), rfl⟩

end Holds

end MessageState

/-! ## Section 4: Answers under way -/

namespace ChannelLog

variable {l : ChannelLog} {k m : Message}

theorem mem_known : k ∈ l.known ↔ k ∈ l.rows ∧ k.id ∉ l.deleted := by
  unfold known
  rw [mem_filter, decide_eq_true_eq]

theorem oldest_mem (h : l.oldest = some k) : k ∈ l.known := mem_of_head? h

theorem oldest_le (h : l.oldest = some k) {k' : Message} (hk' : k' ∈ l.known) : k.id ≤ k'.id := by
  have hascending : Ascending Message.id l.known := l.ascending.filter _
  unfold oldest at h
  rcases hknown : l.known with _ | ⟨first, others⟩
  · rw [hknown] at hk'
    exact absurd hk' not_mem_nil
  · rw [hknown] at h hk' hascending
    cases h
    rcases List.mem_cons.mp hk' with rfl | hlater
    · exact le_refl _
    · exact ((List.pairwise_cons.mp hascending).1 k' hlater).le

theorem mem_known_post {h : l.Fresh m} (hk : k ∈ (l.post m h).known) : k ∈ l.known ∨ k = m := by
  obtain ⟨hrow, hkept⟩ := mem_known.mp hk
  rcases List.mem_append.mp hrow with hrow | hrow
  · exact Or.inl (mem_known.mpr ⟨hrow, hkept⟩)
  · exact Or.inr (List.mem_singleton.mp hrow)

theorem oldest_post {h : l.Fresh m} (hk : (l.post m h).oldest = some k) :
    l.oldest = some k ∨ k = m := by
  have hknown : (l.post m h).known = l.known ++ [m].filter fun r => r.id ∉ l.deleted :=
    filter_append l.rows [m]
  unfold oldest at hk ⊢
  rw [hknown] at hk
  rcases hold : l.known with _ | ⟨first, others⟩
  · rw [hold, nil_append] at hk
    exact Or.inr (List.mem_singleton.mp (mem_of_mem_filter (mem_of_head? hk)))
  · rw [hold] at hk
    exact Or.inl hk

theorem known_edit : (l.edit m).known = l.known.map (replacedBy m) := by
  unfold known edit
  dsimp only
  rw [filter_map]
  congr 1
  apply filter_congr
  intro r _
  simp [replacedBy_id]

theorem oldest_edit (hk : (l.edit m).oldest = some k) : ∃ k', l.oldest = some k' ∧ k'.id = k.id := by
  unfold oldest at hk ⊢
  rw [known_edit, head?_map] at hk
  obtain ⟨k', hk', rfl⟩ := Option.map_eq_some_iff.mp hk
  exact ⟨k', hk', (replacedBy_id m k').symm⟩

end ChannelLog

/-- The page has every known message up to the last of its own. -/
def Answer.Final (a : Answer) (l : ChannelLog) : Prop :=
  ∀ p ∈ a.page, (∃ r ∈ l.rows, r.id = p.id) ∧
    ∀ k ∈ l.known, k.id ≤ p.id → ∃ p' ∈ a.page, p'.id = k.id

section Final

variable {a : Answer} {l : ChannelLog} {m : Message}

theorem Answer.Final.post (ha : a.Final l) (h : l.Fresh m) : a.Final (l.post m h) := by
  intro p hp
  obtain ⟨⟨r, hr, hid⟩, hbefore⟩ := ha p hp
  refine ⟨⟨r, mem_append_left _ hr, hid⟩, ?_⟩
  intro k hk hle
  rcases ChannelLog.mem_known_post hk with hk | rfl
  · exact hbefore k hk hle
  · exact absurd (hid ▸ h.2 r hr) (not_lt_of_ge hle)

theorem Answer.Final.edit (ha : a.Final l) (m : Message) : a.Final (l.edit m) := by
  intro p hp
  obtain ⟨⟨r, hr, hid⟩, hbefore⟩ := ha p hp
  refine ⟨⟨_, mem_map_of_mem hr, (replacedBy_id m r).trans hid⟩, ?_⟩
  intro k hk hle
  rw [ChannelLog.known_edit] at hk
  obtain ⟨k', hk', rfl⟩ := List.mem_map.mp hk
  rw [replacedBy_id] at hle ⊢
  exact hbefore k' hk' hle

theorem Answer.Final.delete (ha : a.Final l) (messageId : ID) : a.Final (l.delete messageId) := by
  intro p hp
  obtain ⟨hrow, hbefore⟩ := ha p hp
  refine ⟨hrow, ?_⟩
  intro k hk hle
  obtain ⟨hrow, hkept⟩ := ChannelLog.mem_known.mp hk
  exact hbefore k (ChannelLog.mem_known.mpr ⟨hrow, fun h => hkept (mem_cons_of_mem _ h)⟩) hle

/-- An answer that finds no more is final when it is given. -/
theorem final_getMessages {before : ID} {limit : Int} {acknowledged : Bool}
    (hpage : a.page = (l.getMessages before limit acknowledged).1)
    (h : (l.getMessages before limit acknowledged).2 = false) : a.Final l := by
  unfold Answer.Final
  rw [hpage]
  unfold ChannelLog.getMessages at h ⊢
  rcases acknowledged with _ | _
  · exact fun p hp => absurd hp not_mem_nil
  · rw [if_pos rfl] at h ⊢
    dsimp only at h ⊢
    set n := Store.MessageStore.pageLimit 50 100 limit
    set rows := if before = "" then l.rows else l.rows.filter (·.id < before) with hrows
    have hshort : rows.length - n = 0 := by
      rw [decide_eq_false_iff_not, length_drop] at h
      omega
    have hmem : ∀ r, r ∈ rows ↔ r ∈ l.rows ∧ (before = "" ∨ r.id < before) := by
      intro r
      rw [hrows]
      split
      · next hlatest => simp [hlatest]
      · next hlatest => simp [hlatest]
    rw [hshort, drop_zero]
    intro p hp
    obtain ⟨hp, -⟩ := List.mem_filter.mp hp
    obtain ⟨hrow, hcursor⟩ := (hmem p).mp hp
    refine ⟨⟨p, hrow, rfl⟩, ?_⟩
    intro k hk hle
    obtain ⟨hk, hkept⟩ := ChannelLog.mem_known.mp hk
    have hbefore : before = "" ∨ k.id < before := hcursor.imp id fun h => lt_of_le_of_lt hle h
    exact ⟨k, List.mem_filter.mpr ⟨(hmem k).mpr ⟨hk, hbefore⟩, decide_eq_true hkept⟩, rfl⟩

end Final

/-! ## Section 5: What an event keeps -/

variable {ev : GatewayEvent} {msg : Message}

namespace MessageState

/-- The channel is read at its end, its buffer is empty and its index in order. -/
structure Tailing (s : MessageState) (c : ID) : Prop where
  live : s.viewMode c = none
  unbuffered : s.pendingMessages c = none
  indexed : s.IndexHeld c

section Tailing

variable {s : MessageState} {c : ID}

theorem SameAt.tailing {s' : MessageState} (h : s'.SameAt s c) (ht : s.Tailing c) : s'.Tailing c :=
  ⟨h.viewMode.trans ht.live, h.pending.trans ht.unbuffered, h.indexHeld ht.indexed⟩

theorem Tailing.addMessage (h : s.Tailing c) (m : Message) :
    (s.addMessage c m = s ∧ s.Holds c m.id) ∨ s.addMessage c m = s.pushMessage c m := by
  unfold MessageState.addMessage
  rw [if_neg (by simp [h.live])]
  rcases hfound : s.lookup c m.id with _ | found
  · exact .inr (if_neg (by simp))
  · refine .inl ⟨if_pos rfl, h.indexed _ ?_⟩
    rw [hfound]
    exact Option.some_ne_none found

theorem Tailing.deliver (u : ID) (h : s.Tailing ev.channelId) :
    (ev.deliver u s).Tailing ev.channelId := by
  cases ev with
  | messageCreate msg =>
    rcases @deliver_messageCreate u s msg with
      ⟨existing, -, -, heq⟩ | ⟨-, heq⟩
    · rw [heq]
      exact ⟨by simpa using h.live, by simpa using h.unbuffered, h.indexed.updateMessage _⟩
    · rw [heq]
      rcases Tailing.addMessage (c := msg.channelId) h msg with ⟨hsame, -⟩ | hpush
      · rw [hsame]
        exact h
      · rw [hpush]
        exact ⟨h.live, h.unbuffered, h.indexed.pushMessage msg⟩
  | messageUpdate msg =>
    exact ⟨by simpa [deliver, action, Action.run] using h.live,
      by simpa [deliver, action, Action.run] using h.unbuffered,
      h.indexed.updateMessage msg⟩
  | messageDelete channelId messageId =>
    exact ⟨by simpa [deliver, action, Action.run, removeMessage] using h.live,
      by simpa [deliver, action, Action.run, removeMessage]
        using h.unbuffered,
      h.indexed.removeMessage messageId⟩

theorem Tailing.holds_create (u : ID) (h : s.Tailing msg.channelId)
    (hroom : (s.messages msg.channelId).length < maxMessages) {id : ID}
    (hid : s.Holds msg.channelId id ∨ id = msg.id) :
    ((messageCreate msg).deliver u s).Holds msg.channelId id := by
  rcases @deliver_messageCreate u s msg with
    ⟨existing, -, hfound, heq⟩ | ⟨-, heq⟩
  · rw [heq, holds_updateMessage]
    rcases hid with hid | rfl
    · exact hid
    · refine h.indexed _ ?_
      rw [hfound]
      exact Option.some_ne_none existing
  · rw [heq]
    rcases h.addMessage msg with ⟨hsame, hthere⟩ | hpush
    · rw [hsame]
      rcases hid with hid | rfl
      · exact hid
      · exact hthere
    · rw [hpush]
      rcases hid with hid | rfl
      · exact holds_pushMessage_of_room msg hroom hid
      · exact holds_pushMessage_self msg

theorem hasMore_deliver (u : ID) (ev : GatewayEvent) : (ev.deliver u s).hasMore = s.hasMore := by
  cases ev with
  | messageCreate msg =>
    rcases @deliver_messageCreate u s msg with
      ⟨existing, -, -, heq⟩ | ⟨-, heq⟩
    · rw [heq]
      unfold updateMessage
      split
      · rfl
      · rfl
    · rw [heq]
      unfold addMessage bufferMessage
      split_ifs
      · rfl
      · rfl
      · rfl
      · rfl
      · rfl
  | messageUpdate msg =>
    unfold deliver action Action.run updateMessage
    dsimp only
    split
    · rfl
    · rfl
  | messageDelete channelId messageId =>
    unfold deliver action Action.run removeMessage removeMessages
    dsimp only
    split
    · rfl
    · rfl

/-! ### An answer is taken -/

theorem hasMore_takeAnswer (a : Answer) :
    (s.takeAnswer a).hasMore a.channelId = some a.hasMore := update_self _ _ _

theorem hasMore_takeAnswer_of_ne (a : Answer) (hc : c ≠ a.channelId) :
    (s.takeAnswer a).hasMore c = s.hasMore c := by
  have hmerge : (a.action.run s).hasMore = s.hasMore := by
    unfold Answer.action
    split
    · rfl
    · obtain ⟨buffer, heq⟩ := s.hydrateMessages_eq a.channelId a.page
      change (s.hydrateMessages a.channelId a.page).hasMore = s.hasMore
      rw [heq]
      rfl
  exact (update_of_ne hc _ _).trans (congrFun hmerge c)

theorem sameAt_takeAnswer (a : Answer) (c : ID) : (s.takeAnswer a).SameAt (a.action.run s) c :=
  ⟨rfl, rfl, rfl, rfl⟩

theorem takeAnswer_other (a : Answer) (hc : c ≠ a.channelId) : (s.takeAnswer a).SameAt s c := by
  have hchannel : a.action.channelId = a.channelId := by
    unfold Answer.action
    split
    · rfl
    · rfl
  obtain ⟨hmessages, hindex, hmode, hpending⟩ := Action.run_other s a.action (hchannel ▸ hc)
  exact ⟨hmessages, hindex, hmode, hpending⟩

theorem Tailing.takeAnswer {a : Answer} (h : s.Tailing a.channelId) :
    (s.takeAnswer a).Tailing a.channelId := by
  apply (sameAt_takeAnswer a a.channelId).tailing
  unfold Answer.action
  split
  · exact ⟨h.live, h.unbuffered, h.indexed.prependMessages a.page⟩
  · obtain ⟨buffer, heq⟩ := s.hydrateMessages_eq a.channelId a.page
    have hmode : (s.hydrateMessages a.channelId a.page).viewMode = s.viewMode := by
      rw [heq]
      rfl
    refine ⟨?_, ?_, indexHeld_hydrateMessages a.page⟩
    · exact (congrFun hmode a.channelId).trans h.live
    · unfold Action.run hydrateMessages
      dsimp only
      split
      · exact h.unbuffered
      · rw [h.unbuffered]
        exact h.unbuffered

theorem holds_takeAnswer_page {a : Answer} {p : Message} (hp : p ∈ a.page) :
    (s.takeAnswer a).Holds a.channelId p.id := by
  apply (sameAt_takeAnswer a a.channelId).holds_iff.mpr
  unfold Answer.action
  split
  · exact (holds_prependMessages a.page).mpr (.inl ⟨p, hp, rfl⟩)
  · exact holds_hydrateMessages_page hp

theorem Tailing.holds_takeAnswer {a : Answer} {id : ID} (h : s.Tailing a.channelId)
    (hnamed : "" < id) (hnewer : ∀ p ∈ a.page, p.id < id) (hheld : s.Holds a.channelId id) :
    (s.takeAnswer a).Holds a.channelId id := by
  apply (sameAt_takeAnswer a a.channelId).holds_iff.mpr
  unfold Answer.action
  split
  · exact (holds_prependMessages a.page).mpr (.inr hheld)
  · exact holds_hydrateMessages_newer h.unbuffered hnamed hnewer hheld

end Tailing

end MessageState

namespace History

/-- The store is in order at the channel, and the answers that say there is no more are final. -/
structure Sound (h : History) (c : ID) : Prop where
  tailing : h.store.Tailing c
  final : ∀ a ∈ h.answers, a.channelId = c → a.hasMore = false → a.Final (h.logs c)

/-- **No unreachable history** in a state: where there is said to be no more, the oldest known
    message is in the array. -/
def Reachable (h : History) (c : ID) : Prop :=
  h.store.hasMore c = some false → ∀ k, (h.logs c).oldest = some k → h.store.Holds c k.id

/-- Where there is said to be no more, a live message finds room, and a deletion leaves an oldest
    message that is held. An answer that there is no more brings a message that still exists, or
    finds the oldest one held. -/
def HistoryKept (h : History) : HistoryEvent → Prop
  | .live (.messageCreate msg) =>
    h.store.hasMore msg.channelId = some false →
      (h.store.messages msg.channelId).length < maxMessages
  | .live (.messageDelete channelId messageId) =>
    h.store.hasMore channelId = some false →
      ∀ k, ((h.logs channelId).delete messageId).oldest = some k → h.store.Holds channelId k.id
  | .receive i =>
    ∀ a, h.answers[i]? = some a → a.hasMore = false →
      (∃ p ∈ a.page, ∃ k ∈ (h.logs a.channelId).known, k.id = p.id) ∨
        ∀ k, (h.logs a.channelId).oldest = some k → h.store.Holds a.channelId k.id
  | _ => True

section Steps

variable {u : ID} {h : History} {c : ID}

theorem Sound.deliver {log : ChannelLog} (hs : h.Sound c)
    (hfinal : ∀ a : Answer, ev.channelId = c → a.Final (h.logs c) → a.Final log) :
    (h.deliver u ev log).Sound c := by
  by_cases hc : c = ev.channelId
  · subst hc
    refine ⟨hs.tailing.deliver u, ?_⟩
    intro a ha hchannel hmore
    have hlog : (h.deliver u ev log).logs ev.channelId = log := update_self _ _ _
    rw [hlog]
    exact hfinal a rfl (hs.final a ha hchannel hmore)
  · refine ⟨(ev.deliver_other h.store hc).tailing hs.tailing, ?_⟩
    intro a ha hchannel hmore
    have hlog : (h.deliver u ev log).logs c = h.logs c := update_of_ne hc _ _
    rw [hlog]
    exact hs.final a ha hchannel hmore

theorem step_create (hfresh : (h.logs msg.channelId).Fresh msg) :
    h.step u (.live (.messageCreate msg)) =
      h.deliver u (.messageCreate msg) ((h.logs msg.channelId).post msg hfresh) := dif_pos hfresh

theorem step_create_stale (hstale : ¬ (h.logs msg.channelId).Fresh msg) :
    h.step u (.live (.messageCreate msg)) = h := dif_neg hstale

theorem step_receive {i : Nat} {a : Answer} (ha : h.answers[i]? = some a) :
    h.step u (.receive i) =
      { h with store := h.store.takeAnswer a, answers := h.answers.eraseIdx i } := by
  simp only [step, ha]

theorem step_fail {i : Nat} {a : Answer} {error : String} (ha : h.answers[i]? = some a) :
    h.step u (.fail i error) =
      { h with
        store := h.store.setError a.channelId (some error)
        answers := h.answers.eraseIdx i } := by
  simp only [step, ha]

theorem Sound.step (hs : h.Sound c) (ev : HistoryEvent) : (h.step u ev).Sound c := by
  cases ev with
  | live ev =>
    cases ev with
    | messageCreate msg =>
      by_cases hfresh : (h.logs msg.channelId).Fresh msg
      · rw [step_create hfresh]
        refine hs.deliver ?_
        rintro a rfl ha
        exact ha.post hfresh
      · rw [step_create_stale hfresh]
        exact hs
    | messageUpdate msg =>
      refine hs.deliver ?_
      rintro a rfl ha
      exact ha.edit msg
    | messageDelete channelId messageId =>
      refine hs.deliver ?_
      rintro a rfl ha
      exact ha.delete messageId
  | request channelId before limit acknowledged =>
    refine ⟨⟨hs.tailing.live, hs.tailing.unbuffered, hs.tailing.indexed⟩, ?_⟩
    intro a ha hchannel hmore
    rcases List.mem_append.mp ha with ha | ha
    · exact hs.final a ha hchannel hmore
    · rw [List.mem_singleton.mp ha] at hchannel hmore ⊢
      subst hchannel
      exact final_getMessages rfl hmore
  | receive i =>
    rcases ha : h.answers[i]? with _ | a
    · simp only [History.step, ha]
      exact hs
    · rw [step_receive ha]
      refine ⟨?_, fun b hb => hs.final b (mem_of_mem_eraseIdx hb)⟩
      by_cases hc : c = a.channelId
      · subst hc
        exact hs.tailing.takeAnswer
      · exact (takeAnswer_other a hc).tailing hs.tailing
  | fail i error =>
    rcases ha : h.answers[i]? with _ | a
    · simp only [History.step, ha]
      exact hs
    · rw [step_fail ha]
      refine ⟨?_, fun b hb => hs.final b (mem_of_mem_eraseIdx hb)⟩
      exact ⟨hs.tailing.live, hs.tailing.unbuffered, hs.tailing.indexed⟩

/-- A live event is about one channel, and says nothing of whether there is more. -/
theorem reachable_deliver {log : ChannelLog} (hr : h.Reachable c)
    (hhere : c = ev.channelId → h.store.hasMore c = some false → ∀ k, log.oldest = some k →
      (ev.deliver u h.store).Holds c k.id) : (h.deliver u ev log).Reachable c := by
  intro hmore k hk
  have hsame : (h.deliver u ev log).store.hasMore = h.store.hasMore :=
    hasMore_deliver u ev
  rw [hsame] at hmore
  by_cases hc : c = ev.channelId
  · have hlog : (h.deliver u ev log).logs c = log := by
      rw [hc]
      exact update_self _ _ _
    rw [hlog] at hk
    exact hhere hc hmore k hk
  · have hlog : (h.deliver u ev log).logs c = h.logs c := update_of_ne hc _ _
    rw [hlog] at hk
    exact (ev.deliver_other h.store hc).holds_iff.mpr (hr hmore k hk)

theorem reachable_receive {a : Answer}
    {answers : List Answer} (hs : h.Sound c) (hr : h.Reachable c) (ha : a ∈ h.answers)
    (hguard : a.hasMore = false → (∃ p ∈ a.page, ∃ k ∈ (h.logs a.channelId).known, k.id = p.id) ∨
    ∀ k, (h.logs a.channelId).oldest = some k → h.store.Holds a.channelId k.id) :
    Reachable { h with store := h.store.takeAnswer a, answers } c := by
  intro hmore k hk
  dsimp only at hmore hk ⊢
  by_cases hc : c = a.channelId
  · subst hc
    rw [hasMore_takeAnswer] at hmore
    have hfalse : a.hasMore = false := Option.some.inj hmore
    have hfinal := hs.final a ha rfl hfalse
    -- the oldest message is in the page, or is newer than all of it
    by_cases hin : ∃ p ∈ a.page, k.id ≤ p.id
    · obtain ⟨p, hp, hle⟩ := hin
      obtain ⟨p', hp', hid⟩ := (hfinal p hp).2 k (ChannelLog.oldest_mem hk) hle
      rw [← hid]
      exact holds_takeAnswer_page hp'
    · push Not at hin
      rcases hguard hfalse with ⟨p, hp, k', hk', hid⟩ | hheld
      · exact absurd (hid ▸ ChannelLog.oldest_le hk hk') (not_le_of_gt (hin p hp))
      · have hrow := (ChannelLog.mem_known.mp (ChannelLog.oldest_mem hk)).1
        exact hs.tailing.holds_takeAnswer ((h.logs a.channelId).named k hrow) hin (hheld k hk)
  · rw [hasMore_takeAnswer_of_ne a hc] at hmore
    exact (takeAnswer_other a hc).holds_iff.mpr (hr hmore k hk)

/-- What an event that meets the condition keeps. -/
theorem Reachable.step (hs : ∀ c, h.Sound c) {ev : HistoryEvent} (hr : h.Reachable c)
    (hguard : h.HistoryKept ev) : (h.step u ev).Reachable c := by
  cases ev with
  | live ev =>
    cases ev with
    | messageCreate msg =>
      by_cases hfresh : (h.logs msg.channelId).Fresh msg
      · rw [step_create hfresh]
        refine reachable_deliver hr ?_
        rintro rfl hmore k hk
        refine (hs _).tailing.holds_create u (hguard hmore) ?_
        rcases ChannelLog.oldest_post hk with hk | rfl
        · exact Or.inl (hr hmore k hk)
        · exact Or.inr rfl
      · rw [step_create_stale hfresh]
        exact hr
    | messageUpdate msg =>
      refine reachable_deliver hr ?_
      rintro rfl hmore k hk
      obtain ⟨k', hk', hid⟩ := ChannelLog.oldest_edit hk
      rw [← hid]
      exact (holds_updateMessage msg).mpr (hr hmore k' hk')
    | messageDelete channelId messageId =>
      refine reachable_deliver hr ?_
      rintro rfl hmore k hk
      refine (holds_removeMessage messageId).mpr ⟨hguard hmore k hk, ?_⟩
      have hkept := (ChannelLog.mem_known.mp (ChannelLog.oldest_mem hk)).2
      exact fun hid => hkept (hid ▸ mem_cons_self)
  | request channelId before limit acknowledged => exact hr
  | receive i =>
    rcases ha : h.answers[i]? with _ | a
    · simp only [History.step, ha]
      exact hr
    · rw [step_receive ha]
      exact reachable_receive (hs c) hr (mem_of_getElem? ha) (hguard a ha)
  | fail i error =>
    rcases ha : h.answers[i]? with _ | a
    · simp only [History.step, ha]
      exact hr
    · rw [step_fail ha]
      exact hr

end Steps

/-! ## Section 6: Whole sessions -/

theorem sound_opened (logs : ID → ChannelLog) (c : ID) : (opened logs).Sound c where
  tailing := ⟨rfl, rfl, fun _ hid => absurd rfl hid⟩
  final := fun _ ha => absurd ha not_mem_nil

theorem sound_exec (u : ID) (logs : ID → ChannelLog) (evs : List HistoryEvent) (c : ID) :
    (exec (step u) (opened logs) evs).Sound c := by
  have hstep : ∀ (h : History) (ev : HistoryEvent), h.Sound c → (h.step u ev).Sound c :=
    fun _ ev hs => hs.step ev
  exact exec_kept hstep (sound_opened logs c) evs

/-- **No unreachable history**, all along a session whose events meet the condition. -/
theorem reachable_along (u : ID) (logs : ID → ChannelLog) {evs : List HistoryEvent}
    (hguard : Guarded (step u) HistoryKept (opened logs) evs) :
    ∀ pre, pre <+: evs → ∀ c, (exec (step u) (opened logs) pre).Reachable c := by
  rintro pre ⟨post, rfl⟩
  have hstep : ∀ (h : History) (ev : HistoryEvent), (∀ c, h.Sound c ∧ h.Reachable c) →
      h.HistoryKept ev → ∀ c, (h.step u ev).Sound c ∧ (h.step u ev).Reachable c := by
    intro h ev hall hev c
    exact ⟨(hall c).1.step ev, (hall c).2.step (fun c => (hall c).1) hev⟩
  have hinit : ∀ c, (opened logs).Sound c ∧ (opened logs).Reachable c := by
    intro c
    refine ⟨sound_opened logs c, ?_⟩
    intro hmore
    exact absurd hmore (by simp [opened])
  intro c
  exact (exec_invariant hstep hinit hguard.left c).2

/-- The client opens a channel without messages, and stays there while they arrive. -/
def longSession (c : ID) (l : List Message) : List HistoryEvent :=
  [.request c "" 0 true, .receive 0] ++ l.map fun m => .live (.messageCreate m)

section LongSession

variable {u c : ID} {logs : ID → ChannelLog}

theorem messages_create {h : History} {m : Message} (hs : h.Sound m.channelId)
    (hplain : m.keyVersion = 0) (hfresh : (h.logs m.channelId).Fresh m)
    (hnew : ¬ h.store.Holds m.channelId m.id) :
    (h.step u (.live (.messageCreate m))).store.messages m.channelId =
      (h.store.messages m.channelId ++ [m]).drop
        ((h.store.messages m.channelId ++ [m]).length - maxMessages) := by
  have hadd : (messageCreate m).deliver u h.store = h.store.addMessage m.channelId m := by
    rcases @deliver_messageCreate u h.store m with
      ⟨existing, hown, -⟩ | ⟨-, heq⟩
    · omega
    · exact heq
  have hpush : h.store.addMessage m.channelId m = h.store.pushMessage m.channelId m := by
    rcases hs.tailing.addMessage m with ⟨-, hthere⟩ | hpush
    · exact absurd hthere hnew
    · exact hpush
  rw [step_create hfresh]
  change ((messageCreate m).deliver u h.store).messages m.channelId = _
  rw [hadd, hpush, messages_pushMessage, drop_append_of_le_length (excess_le _)]

/-- The newest 500 of the messages are held, and there is said to be no more. -/
theorem exec_longSession (hempty : logs c = .empty) {l : List Message}
    (hl : Ascending Message.id l)
    (hmessages : ∀ m ∈ l, "" < m.id ∧ m.channelId = c ∧ m.keyVersion = 0) :
    let h := exec (step u) (opened logs) (longSession c l)
    h.store.hasMore c = some false ∧ (h.logs c).rows = l ∧ (h.logs c).deleted = [] ∧
      h.store.messages c = l.drop (l.length - maxMessages) := by
  dsimp only
  induction l using reverseRecOn with
  | nil =>
    have hpage : (logs c).getMessages "" 0 true = ([], false) := by
      rw [hempty]
      decide
    have hexec : exec (step u) (opened logs) (longSession c []) =
        { store := ((({} : MessageState).setLoading c true).setError c none).takeAnswer
            ⟨c, "", [], false⟩
          logs
          answers := [] } := by
      unfold longSession exec step opened
      simp [hpage]
    rw [hexec]
    have hlog : (logs c).rows = [] ∧ (logs c).deleted = [] := by
      rw [hempty]
      exact ⟨rfl, rfl⟩
    refine ⟨hasMore_takeAnswer ⟨c, "", [], false⟩, hlog.1, hlog.2, ?_⟩
    simp [takeAnswer, Answer.action, Action.run, hydrateMessages,
      messages, pending, setError, setLoading,
      setHasMore, replaceMessages]
  | append_singleton l m ih =>
    have hold : Ascending Message.id l := hl.sublist (sublist_append_left l [m])
    obtain ⟨hmore, hrows, hdeleted, hheld⟩ :=
      ih hold fun m' hm' => hmessages m' (mem_append_left _ hm')
    obtain ⟨hnamed, rfl, hplain⟩ := hmessages m (by simp)
    have hlast : ∀ m' ∈ l, m'.id < m.id := by
      intro m' hm'
      exact (List.pairwise_append.mp hl).2.2 m' hm' m (mem_singleton_self m)
    have hsplit : longSession m.channelId (l ++ [m]) =
        longSession m.channelId l ++ [.live (.messageCreate m)] := by
      simp [longSession]
    have hsound : (exec (step u) (opened logs) (longSession m.channelId l)).Sound
        m.channelId := sound_exec u logs _ m.channelId
    rw [hsplit, exec_append]
    generalize exec (step u) (opened logs) (longSession m.channelId l) = h at *
    have hone : exec (step u) h [.live (.messageCreate m)] =
        h.step u (.live (.messageCreate m)) := rfl
    rw [hone]
    have hfresh : (h.logs m.channelId).Fresh m := ⟨hnamed, fun r hr => hlast r (hrows ▸ hr)⟩
    have hnew : ¬ h.store.Holds m.channelId m.id := by
      rintro ⟨m', hm', hid⟩
      rw [hheld] at hm'
      exact (hlast m' (mem_of_mem_drop hm')).ne hid
    have hlog : (h.step u (.live (.messageCreate m))).logs m.channelId =
        (h.logs m.channelId).post m hfresh := by
      rw [step_create hfresh]
      exact update_self _ _ _
    refine ⟨?_, ?_, ?_, ?_⟩
    · rw [step_create hfresh]
      exact (congrFun (hasMore_deliver u _) _).trans hmore
    · rw [hlog]
      exact congrArg (· ++ [m]) hrows
    · rw [hlog]
      exact hdeleted
    · rw [messages_create hsound hplain hfresh hnew, hheld, ← drop_append_of_le_length (Nat.sub_le _ _), drop_drop]
      have hcut : l.length - maxMessages +
          (((l ++ [m]).drop (l.length - maxMessages)).length -
            maxMessages) = (l ++ [m]).length - maxMessages := by
        rw [length_drop, length_append, length_singleton]
        omega
      rw [hcut]

/-- Among more messages than the array can hold, the oldest is out of reach. -/
theorem unreachable_longSession (hempty : logs c = .empty) {l : List Message}
    (hl : Ascending Message.id l)
    (hmessages : ∀ m ∈ l, "" < m.id ∧ m.channelId = c ∧ m.keyVersion = 0)
    (hmany : maxMessages < l.length) :
    ¬ (exec (step u) (opened logs) (longSession c l)).Reachable c := by
  obtain ⟨hmore, hrows, hdeleted, hheld⟩ := exec_longSession (u := u) hempty hl hmessages
  rcases l with _ | ⟨first, others⟩
  · exact absurd hmany (by simp)
  · have holdest : ((exec (step u) (opened logs) (longSession c (first :: others))).logs
        c).oldest = some first := by
      unfold ChannelLog.oldest ChannelLog.known
      rw [hrows, hdeleted]
      simp
    intro hreach
    obtain ⟨m, hm, hid⟩ := hreach hmore first holdest
    rw [hheld] at hm
    have hcut : (first :: others).length - maxMessages = (others.length - maxMessages) + 1 := by
      rw [length_cons] at hmany ⊢
      omega
    rw [hcut, drop_succ_cons] at hm
    exact ((List.pairwise_cons.mp hl).1 m (mem_of_mem_drop hm)).ne' hid

end LongSession

/-- The ids of the example are of one digit, each longer than the one before. -/
def chatter (i : Nat) : Message :=
  { id := .ofList (.replicate (i + 1) '0'), channelId := "general" }

theorem chatter_id_lt {i j : Nat} (h : i < j) : (chatter i).id < (chatter j).id := by
  have hlists : ∀ n m : Nat, n < m → replicate n '0' < replicate m '0' := by
    intro n
    induction n with
    | zero =>
      intro m hm
      obtain ⟨m, rfl⟩ := Nat.exists_eq_succ_of_ne_zero hm.ne'
      exact nil_lt_cons _ _
    | succ n ih =>
      intro m hm
      obtain ⟨m, rfl⟩ := Nat.exists_eq_succ_of_ne_zero (Nat.ne_zero_of_lt hm)
      exact List.cons_lt_cons_self.mpr (ih m (Nat.lt_of_succ_lt_succ hm))
  unfold chatter
  rw [String.lt_iff_toList_lt, String.toList_ofList, String.toList_ofList]
  exact hlists (i + 1) (j + 1) (Nat.succ_lt_succ h)

theorem chatter_named (i : Nat) : "" < (chatter i).id := by
  have hlist : (chatter i).id.toList = '0' :: .replicate i '0' := String.toList_ofList
  rw [String.lt_iff_toList_lt, hlist]
  exact nil_lt_cons '0' (.replicate i '0')

/-- The channel is opened, is empty, and is written to once. -/
def greeting : List HistoryEvent :=
  [.request "general" "" 0 true, .receive 0, .live (.messageCreate (chatter 0))]

theorem greeting_kept : Guarded (step "me") HistoryKept (opened fun _ => .empty) greeting := by
  refine ⟨trivial, ?_, ?_, trivial⟩
  · intro a _ _
    right
    intro k hk
    exact absurd hk (by simp [step, opened, ChannelLog.oldest, ChannelLog.known, ChannelLog.empty])
  · intro _
    decide

theorem reachable_along_greeting :
    (exec (step "me") (opened fun _ => .empty) greeting).Reachable "general" :=
  reachable_along "me" (fun _ => .empty) greeting_kept greeting prefix_rfl "general"

/-- After 501 messages the first is neither held nor ever asked for. -/
theorem reachable_fails_chatter :
    ¬ (exec (step "me") (opened fun _ => .empty)
        (longSession "general" ((range 501).map chatter))).Reachable "general" ∧
      ¬ ∀ (u : ID) (logs : ID → ChannelLog) (evs : List HistoryEvent) (c : ID),
        (exec (step u) (opened logs) evs).Reachable c := by
  have hlost : ¬ (exec (step "me") (opened fun _ => .empty)
      (longSession "general" ((range 501).map chatter))).Reachable "general" := by
    refine unreachable_longSession rfl ?_ ?_ ?_
    · exact pairwise_map.mpr (pairwise_lt_range.imp chatter_id_lt)
    · intro m hm
      obtain ⟨i, -, rfl⟩ := mem_map.mp hm
      exact ⟨chatter_named i, rfl, rfl⟩
    · rw [length_map, length_range]
      decide
  exact ⟨hlost, fun hall => hlost (hall _ _ _ _)⟩

end History

end Meza.Client
