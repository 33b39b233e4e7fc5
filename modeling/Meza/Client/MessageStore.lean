import Mathlib.Data.String.Basic
import Meza.Lib.Index
import Meza.Lib.Run
import Meza.Store.Schema

/-! # The message store of the client

    The client keeps the messages of each channel it has opened in an array,
    oldest first, with an index by message id beside it. Pages fetched from
    the server and events from the gateway write to both by hand.

    Section 2 has the store's actions, Section 3 what each of them needs to
    keep the array ascending and the index exact, and Section 4 whole
    sequences of actions. -/

namespace Meza.Client

open Store (ID)
open Paging List Option Function Index Table

/-! ## Section 1: Messages and the state of the store -/

structure Attachment where
  id : ID
  filename : String := ""
  contentType : String := ""
  encryptedKey : List UInt8 := []
  deriving DecidableEq, Repr

structure LinkEmbed where
  url : String
  title : String := ""
  description : String := ""
  deriving DecidableEq, Repr

/-- A key version of 0 means that the content is plain text. -/
structure Message where
  id : ID
  channelId : ID
  authorId : ID := ""
  encryptedContent : List UInt8 := []
  attachments : List Attachment := []
  keyVersion : Nat := 0
  embeds : List LinkEmbed := []
  mentionedUserIds : List ID := []
  mentionEveryone : Bool := false
  deriving DecidableEq, Repr

/-- `historical` while old messages are shown after a jump. -/
inductive ViewMode where
  | live
  | historical
  deriving DecidableEq, Repr

/-- A `Record<string, α>`: what is not set or deleted is `none`. -/
abbrev Record (α : Type) := ID → Option α

structure MessageState where
  byChannel : Record (List Message) := fun _ => none
  byId : Record (Record Message) := fun _ => none
  hasMore : Record Bool := fun _ => none
  isLoading : Record Bool := fun _ => none
  error : Record String := fun _ => none
  viewMode : Record ViewMode := fun _ => none
  pendingMessages : Record (List Message) := fun _ => none

namespace MessageState

/-- `byChannel[channelId] ?? []`. -/
def messages (s : MessageState) (channelId : ID) : List Message :=
  (s.byChannel channelId).getD []

/-- `byId[channelId]?.[messageId]`. -/
def lookup (s : MessageState) (channelId messageId : ID) : Option Message :=
  (s.byId channelId).bind fun index => index messageId

/-- `pendingMessages[channelId] ?? []`. -/
def pending (s : MessageState) (channelId : ID) : List Message :=
  (s.pendingMessages channelId).getD []

/-! ## Section 2: Actions -/

/-- Rebuilds the index from an array of messages. -/
def buildByIdIndex (messages : List Message) : Record Message :=
  enter Message.id (fun _ => none) messages

/-- The array and its index in place of what was there. -/
def replaceMessages (s : MessageState) (channelId : ID) (messages : List Message) : MessageState :=
  { s with
    byChannel := update s.byChannel channelId (some messages)
    byId := update s.byId channelId (some (buildByIdIndex messages))
    isLoading := update s.isLoading channelId none }

def setMessages (s : MessageState) (channelId : ID) (messages : List Message) : MessageState :=
  s.replaceMessages channelId messages

/-- The existing messages that a fetched page does not have and that are newer than all of it. -/
def newerThan (fetched existing : List Message) : List Message :=
  let fetchedIndex := buildByIdIndex fetched
  let lastFetchedId := (fetched.getLast?.map Message.id).getD ""
  existing.filter fun m => lastFetchedId < m.id ∧ (fetchedIndex m.id).isNone

/-- The buffered messages that are neither in the page nor there already, one by one. -/
def addPending (fetched : List Message) : List Message → List Message → List Message
  | trailing, [] => trailing
  | trailing, m :: pending =>
    if (buildByIdIndex fetched m.id).isNone ∧ ∀ t ∈ trailing, t.id ≠ m.id then
      addPending fetched (trailing ++ [m]) pending
    else addPending fetched trailing pending

/-- Replaces the messages by a fetched page, but keeps those that arrived while the
    request was in flight or were buffered. -/
def hydrateMessages (s : MessageState) (channelId : ID) (fetched : List Message) : MessageState :=
  if s.messages channelId = [] ∧ s.pending channelId = [] then
    s.replaceMessages channelId fetched
  else
    let trailing := newerThan fetched (s.messages channelId)
    match s.pendingMessages channelId with
    | none => s.replaceMessages channelId (fetched ++ trailing)
    | some pending =>
      { s.replaceMessages channelId
          (fetched ++ Paging.orderBy Message.id (addPending fetched trailing pending)) with
        pendingMessages := update s.pendingMessages channelId none }

def prependMessages (s : MessageState) (channelId : ID) (messages : List Message) : MessageState :=
  { s with
    byChannel := update s.byChannel channelId (some (messages ++ s.messages channelId))
    byId := update s.byId channelId
      (some (enter Message.id ((s.byId channelId).getD fun _ => none) messages))
    isLoading := update s.isLoading channelId none }

/-- The array is cut at the front to this length. -/
def maxMessages : Nat := 500

/-- A message that arrives in historical mode is buffered. -/
def bufferMessage (s : MessageState) (channelId : ID) (message : Message) : MessageState :=
  if ∃ m ∈ s.pending channelId, m.id = message.id then
    { s with pendingMessages :=
        update s.pendingMessages channelId (some (s.pending channelId)) }
  else
    { s with pendingMessages :=
        update s.pendingMessages channelId (some (s.pending channelId ++ [message])) }

/-- A message that arrives in live mode goes to the end. -/
def pushMessage (s : MessageState) (channelId : ID) (message : Message) : MessageState :=
  let arr := s.messages channelId ++ [message]
  let excess := arr.length - maxMessages
  let index := erase ((s.byId channelId).getD fun _ => none) ((arr.take excess).map Message.id)
  { s with
    byChannel := update s.byChannel channelId (some (arr.drop excess))
    byId := update s.byId channelId
      (some (update index message.id (some message))) }

def addMessage (s : MessageState) (channelId : ID) (message : Message) : MessageState :=
  if s.viewMode channelId = some .historical then
    if (s.lookup channelId message.id).isSome then s else s.bufferMessage channelId message
  else if (s.lookup channelId message.id).isSome then s
  else s.pushMessage channelId message

/-- `state.byId[channelId]` is written to only if it is there. -/
def modifyIndex (s : MessageState) (channelId : ID) (f : Record Message → Record Message) :
    Record (Record Message) :=
  update s.byId channelId ((s.byId channelId).map f)

/-- The first element with the id is replaced. -/
def replaceFirst (message : Message) : List Message → List Message
  | [] => []
  | m :: messages =>
    if m.id = message.id then message :: messages else m :: replaceFirst message messages

def updateMessage (s : MessageState) (channelId : ID) (message : Message) : MessageState :=
  if ∃ m ∈ s.messages channelId, m.id = message.id then
    { s with
      byChannel := update s.byChannel channelId (some (replaceFirst message (s.messages channelId)))
      byId := s.modifyIndex channelId fun index =>
        update index message.id (some message) }
  else s

/-- `updateMap.get(id)`: the last update for an id counts. -/
def lastUpdate (updates : List Message) (messageId : ID) : Option Message :=
  updates.reverse.find? fun m => m.id = messageId

def bulkUpdateMessages (s : MessageState) (channelId : ID) (updates : List Message) :
    MessageState :=
  match s.byChannel channelId with
  | none => s
  | some messages =>
    { s with
      byChannel := update s.byChannel channelId
        (some (messages.map fun m => (lastUpdate updates m.id).getD m))
      byId := s.modifyIndex channelId fun index =>
        enter Message.id index (messages.filterMap fun m => lastUpdate updates m.id) }

def removeMessages (s : MessageState) (channelId : ID) (messageIds : List ID) : MessageState :=
  match s.byChannel channelId with
  | none => s
  | some messages =>
    { s with
      byChannel := update s.byChannel channelId (some (messages.filter fun m => m.id ∉ messageIds))
      byId := s.modifyIndex channelId fun index => erase index messageIds }

def removeMessage (s : MessageState) (channelId messageId : ID) : MessageState :=
  s.removeMessages channelId [messageId]

/-- The embeds of a message, in the array and in the index. -/
def patchEmbeds (s : MessageState) (channelId messageId : ID) (embeds : List LinkEmbed) :
    MessageState :=
  match (s.messages channelId).find? fun m => m.id = messageId with
  | none => s
  | some m =>
    { s with
      byChannel := update s.byChannel channelId
        (some (replaceFirst { m with embeds } (s.messages channelId)))
      byId := s.modifyIndex channelId fun index =>
        update index messageId ((index messageId).map fun m => { m with embeds }) }

def setHasMore (s : MessageState) (channelId : ID) (hasMore : Bool) : MessageState :=
  { s with hasMore := update s.hasMore channelId (some hasMore) }

def setLoading (s : MessageState) (channelId : ID) (loading : Bool) : MessageState :=
  { s with isLoading :=
      update s.isLoading channelId (if loading then some true else none) }

def setError (s : MessageState) (channelId : ID) (error : Option String) : MessageState :=
  { s with
    error := update s.error channelId (error.filter (· ≠ ""))
    isLoading := update s.isLoading channelId none }

def setViewMode (s : MessageState) (channelId : ID) (mode : ViewMode) : MessageState :=
  { s with viewMode := update s.viewMode channelId (some mode) }

/-- The buffer is cleared as well: the page fetched next has what it held. -/
def returnToPresent (s : MessageState) (channelId : ID) : MessageState :=
  { s with
    byChannel := update s.byChannel channelId none
    byId := update s.byId channelId none
    hasMore := update s.hasMore channelId none
    viewMode := update s.viewMode channelId none
    pendingMessages := update s.pendingMessages channelId none }

/-! ## Section 3: What keeps a channel indexed -/

/-- The array is in ascending order of the ids, and so without duplicates, and the index
    is exactly that of the array. -/
structure Indexed (s : MessageState) (channelId : ID) : Prop where
  ascending : Ascending Message.id (s.messages channelId)
  exact : Exact Message.id (s.messages channelId) (s.lookup channelId)

/-- The order of the messages apart. -/
structure Coherent (s : MessageState) (channelId : ID) : Prop where
  unique : UniqueOn Message.id (s.messages channelId)
  exact : Exact Message.id (s.messages channelId) (s.lookup channelId)

variable {s s' : MessageState} {channelId : ID}

theorem Indexed.coherent (h : s.Indexed channelId) :
    s.Coherent channelId where
  unique := h.ascending.unique
  exact := h.exact

theorem Indexed.congr (h : s.Indexed channelId)
    (hmessages : s'.messages channelId = s.messages channelId)
    (hlookup : s'.lookup channelId = s.lookup channelId) : s'.Indexed channelId where
  ascending := hmessages ▸ h.ascending
  exact := hmessages ▸ hlookup ▸ h.exact

/-- Two states that agree on a channel. -/
structure SameAt (s' s : MessageState) (channelId : ID) : Prop where
  byChannel : s'.byChannel channelId = s.byChannel channelId
  byId : s'.byId channelId = s.byId channelId
  viewMode : s'.viewMode channelId = s.viewMode channelId
  pending : s'.pendingMessages channelId = s.pendingMessages channelId

theorem SameAt.messages (h : s'.SameAt s channelId) :
    s'.messages channelId = s.messages channelId := by
  simp only [MessageState.messages, h.byChannel]

theorem SameAt.lookup (h : s'.SameAt s channelId) : s'.lookup channelId = s.lookup channelId := by
  funext id
  simp only [MessageState.lookup, h.byId]

theorem sameAt_replaceMessages (s : MessageState) {c : ID} (page : List Message) (h : c ≠ channelId) :
    (s.replaceMessages channelId page).SameAt s c :=
  ⟨update_of_ne h _ _, update_of_ne h _ _, rfl, rfl⟩

theorem sameAt_removeMessages (s : MessageState) {c : ID} (ids : List ID) (h : c ≠ channelId) :
    (s.removeMessages channelId ids).SameAt s c := by
  unfold removeMessages
  split
  · exact ⟨rfl, rfl, rfl, rfl⟩
  · exact ⟨update_of_ne h _ _, update_of_ne h _ _, rfl, rfl⟩

theorem Indexed.empty (hmessages : s.byChannel channelId = none) (hlookup : s.byId channelId = none) :
    s.Indexed channelId where
  ascending := by
    simp [messages, hmessages, Ascending]
  exact := by
    intro k m
    simp [messages, lookup, hmessages, hlookup]

section Replace

variable (s) (channelId) (page : List Message)

theorem messages_replaceMessages : (s.replaceMessages channelId page).messages channelId = page := by
  simp [replaceMessages, messages]

theorem lookup_replaceMessages :
    (s.replaceMessages channelId page).lookup channelId = buildByIdIndex page := by
  funext k
  simp [replaceMessages, lookup]

theorem indexed_replaceMessages_iff :
    (s.replaceMessages channelId page).Indexed channelId ↔ Ascending Message.id page := by
  constructor
  · intro h
    have hpage := h.ascending
    rw [messages_replaceMessages] at hpage
    exact hpage
  · intro h
    constructor
    · rw [messages_replaceMessages]
      exact h
    · rw [messages_replaceMessages, lookup_replaceMessages]
      exact Exact.build h.unique

end Replace

/-! ### Merging a page -/

variable {messageId : ID} {fetched trailing : List Message}

theorem buildByIdIndex_isNone {messages : List Message} :
    (buildByIdIndex messages messageId).isNone ↔ ∀ m ∈ messages, m.id ≠ messageId := by
  rw [isNone_iff_eq_none]
  exact enter_eq_none_iff.trans (and_iff_right rfl)

theorem lastFetchedId_lt_iff (h : Ascending Message.id fetched) (hne : fetched ≠ []) :
    (fetched.getLast?.map Message.id).getD "" < messageId ↔ ∀ f ∈ fetched, f.id < messageId := by
  obtain ⟨front, last, rfl⟩ := (eq_nil_or_concat' fetched).resolve_left hne
  simp only [getLast?_append, getLast?_singleton, some_or, map_some, getD_some]
  constructor
  · intro hlast f hf
    rcases mem_append.mp hf with hf | hf
    · have hflast : f.id < last.id := (pairwise_append.mp h).2.2 f hf last (by simp)
      exact lt_trans hflast hlast
    · rw [mem_singleton] at hf
      exact hf ▸ hlast
  · intro hall
    exact hall last (by simp)

theorem mem_newerThan {existing : List Message} (h : Ascending Message.id fetched) {m : Message}
    (hm : m ∈ newerThan fetched existing) : m ∈ existing ∧ ∀ f ∈ fetched, f.id < m.id := by
  obtain ⟨hmem, hnew⟩ := List.mem_filter.mp hm
  rw [decide_eq_true_iff] at hnew
  refine ⟨hmem, ?_⟩
  by_cases hne : fetched = []
  · simp [hne]
  · exact (lastFetchedId_lt_iff h hne).mp hnew.1

theorem mem_addPending {pending : List Message} {m : Message}
    (hm : m ∈ addPending fetched trailing pending) :
    m ∈ trailing ∨ (m ∈ pending ∧ ∀ f ∈ fetched, f.id ≠ m.id) := by
  induction pending generalizing trailing with
  | nil => exact .inl hm
  | cons p pending ih =>
    unfold addPending at hm
    split at hm
    · next hnew =>
      rcases ih hm with htrailing | ⟨hpending, hout⟩
      · rcases List.mem_append.mp htrailing with htrailing | hp
        · exact .inl htrailing
        · rw [mem_singleton] at hp
          subst hp
          exact .inr ⟨mem_cons_self, buildByIdIndex_isNone.mp hnew.1⟩
      · exact .inr ⟨mem_cons_of_mem _ hpending, hout⟩
    · rcases ih hm with htrailing | ⟨hpending, hout⟩
      · exact .inl htrailing
      · exact .inr ⟨mem_cons_of_mem _ hpending, hout⟩

theorem subset_addPending {pending : List Message} :
    trailing ⊆ addPending fetched trailing pending := by
  induction pending generalizing trailing with
  | nil => exact .refl trailing
  | cons p pending ih =>
    unfold addPending
    split
    · exact fun m hm => ih (mem_append_left _ hm)
    · exact ih

theorem exists_addPending {fetched trailing pending : List Message} {m : Message}
    (hm : m ∈ pending) (hout : ∀ f ∈ fetched, f.id ≠ m.id) :
    ∃ t ∈ addPending fetched trailing pending, t.id = m.id := by
  induction pending generalizing trailing with
  | nil => cases hm
  | cons p pending ih =>
    unfold addPending
    rcases List.mem_cons.mp hm with rfl | hm
    · split
      · exact ⟨m, subset_addPending (by simp), rfl⟩
      · next hold =>
        -- not taken although it is outside the page: its id is there already
        have hthere : ∃ t ∈ trailing, t.id = m.id := by
          by_contra hnone
          push Not at hnone
          exact hold ⟨buildByIdIndex_isNone.mpr hout, hnone⟩
        obtain ⟨t, ht, hid⟩ := hthere
        exact ⟨t, subset_addPending ht, hid⟩
    · split
      · exact ih hm
      · exact ih hm

theorem unique_addPending {pending : List Message} (h : UniqueOn Message.id trailing) :
    UniqueOn Message.id (addPending fetched trailing pending) := by
  induction pending generalizing trailing with
  | nil => exact h
  | cons p pending ih =>
    unfold addPending
    split
    · next hnew =>
      apply ih
      exact unique_snoc h hnew.2
    · exact ih h

/-- What follows the page in the merged array. -/
def kept (s : MessageState) (channelId : ID) (fetched : List Message) : List Message :=
  match s.pendingMessages channelId with
  | none => newerThan fetched (s.messages channelId)
  | some pending => orderBy Message.id
      (addPending fetched (newerThan fetched (s.messages channelId)) pending)

theorem hydrateMessages_eq (s : MessageState) (channelId : ID) (fetched : List Message) :
    ∃ buffer, s.hydrateMessages channelId fetched =
      { s.replaceMessages channelId (fetched ++ s.kept channelId fetched) with
        pendingMessages := buffer } := by
  unfold hydrateMessages kept
  split
  · next hempty =>
    refine ⟨s.pendingMessages, ?_⟩
    obtain ⟨hmessages, hpending⟩ := hempty
    unfold pending at hpending
    rw [hmessages]
    rcases hbuffer : s.pendingMessages channelId with _ | buffered
    · simp [newerThan, replaceMessages]
    · rw [hbuffer, getD_some] at hpending
      subst hpending
      simp [newerThan, addPending, orderBy, replaceMessages]
  · rcases hbuffer : s.pendingMessages channelId with _ | buffered
    · exact ⟨s.pendingMessages, rfl⟩
    · exact ⟨_, rfl⟩

theorem messages_hydrateMessages (s : MessageState) (channelId : ID) (fetched : List Message) :
    (s.hydrateMessages channelId fetched).messages channelId =
      fetched ++ s.kept channelId fetched := by
  obtain ⟨buffer, heq⟩ := s.hydrateMessages_eq channelId fetched
  rw [heq]
  exact s.messages_replaceMessages channelId _

theorem pending_hydrateMessages (s : MessageState) (channelId : ID) (fetched : List Message) :
    (s.hydrateMessages channelId fetched).pending channelId = [] := by
  unfold hydrateMessages
  split
  · next hempty => exact hempty.2
  · rcases hbuffer : s.pendingMessages channelId with _ | buffered
    · simp [pending, replaceMessages, hbuffer]
    · simp [pending]

theorem coherent_hydrateMessages
    (hunique : UniqueOn Message.id (fetched ++ s.kept channelId fetched)) :
    (s.hydrateMessages channelId fetched).Coherent channelId := by
  obtain ⟨buffer, heq⟩ := s.hydrateMessages_eq channelId fetched
  have hmessages := s.messages_replaceMessages channelId (fetched ++ s.kept channelId fetched)
  have hlookup := s.lookup_replaceMessages channelId (fetched ++ s.kept channelId fetched)
  rw [heq]
  refine ⟨?_, ?_⟩
  · exact hmessages.symm ▸ hunique
  · exact hmessages.symm ▸ hlookup.symm ▸ Exact.build hunique

theorem ascending_kept (h : s.Indexed channelId) (fetched : List Message) :
    Ascending Message.id (s.kept channelId fetched) := by
  have hnewer : Ascending Message.id (newerThan fetched (s.messages channelId)) :=
    h.ascending.filter _
  unfold kept
  split
  · exact hnewer
  · exact ascending_orderBy (unique_addPending hnewer.unique)

/-- Every buffered message that the page does not have is newer than the page. -/
def BufferNewer (s : MessageState) (channelId : ID) (fetched : List Message) : Prop :=
  ∀ m ∈ s.pending channelId, (∀ f ∈ fetched, f.id ≠ m.id) → ∀ f ∈ fetched, f.id < m.id

instance decidableBufferNewer (s : MessageState) (channelId : ID) (fetched : List Message) :
    Decidable (s.BufferNewer channelId fetched) :=
  inferInstanceAs (Decidable (∀ _ ∈ s.pending channelId, _))

theorem kept_newer_iff (hpage : Ascending Message.id fetched) :
    (∀ f ∈ fetched, ∀ m ∈ s.kept channelId fetched, f.id < m.id) ↔
      s.BufferNewer channelId fetched := by
  unfold kept BufferNewer pending
  rcases hbuffer : s.pendingMessages channelId with _ | buffered
  · refine iff_of_true ?_ ?_
    · intro f hf m hm
      exact (mem_newerThan hpage hm).2 f hf
    · intro m hm
      cases hm
  · simp only [mem_orderBy, getD_some]
    constructor
    · intro hall m hm hout f hf
      obtain ⟨t, ht, hid⟩ := @exists_addPending _
        (newerThan fetched (s.messages channelId)) _ _ hm hout
      exact hid ▸ hall f hf t ht
    · intro hall f hf m hm
      rcases mem_addPending hm with hm | ⟨hm, hout⟩
      · exact (mem_newerThan hpage hm).2 f hf
      · exact hall m hm hout f hf

theorem indexed_hydrateMessages_iff (h : s.Indexed channelId) (hpage : Ascending Message.id fetched) :
    (s.hydrateMessages channelId fetched).Indexed channelId ↔ s.BufferNewer channelId fetched := by
  obtain ⟨buffer, heq⟩ := s.hydrateMessages_eq channelId fetched
  have hwritten : (s.hydrateMessages channelId fetched).Indexed channelId ↔
      (s.replaceMessages channelId (fetched ++ s.kept channelId fetched)).Indexed channelId := by
    rw [heq]
    exact ⟨fun hindexed => hindexed.congr rfl rfl, fun hindexed => hindexed.congr rfl rfl⟩
  rw [hwritten, indexed_replaceMessages_iff,
    ascending_append_iff hpage (ascending_kept h fetched), kept_newer_iff hpage]

/-! ### The other actions -/

theorem getD_byId (s : MessageState) (channelId : ID) :
    (s.byId channelId).getD (fun _ => none) = s.lookup channelId := by
  funext k
  unfold lookup
  rcases s.byId channelId with _ | index <;> rfl

theorem indexed_prependMessages_iff {page : List Message} (h : s.Indexed channelId)
    (hpage : Ascending Message.id page) :
    (s.prependMessages channelId page).Indexed channelId ↔
      ∀ p ∈ page, ∀ m ∈ s.messages channelId, p.id < m.id := by
  have hmessages : (s.prependMessages channelId page).messages channelId =
      page ++ s.messages channelId := by
    simp [prependMessages, messages]
  have hlookup : (s.prependMessages channelId page).lookup channelId =
      enter Message.id (s.lookup channelId) page := by
    funext k
    simp [prependMessages, lookup, ← s.getD_byId channelId]
  constructor
  · intro hafter
    have hasc := hafter.ascending
    rw [hmessages, ascending_append_iff hpage h.ascending] at hasc
    exact hasc
  · intro hcross
    have hasc : Ascending Message.id (page ++ s.messages channelId) :=
      (ascending_append_iff hpage h.ascending).mpr hcross
    constructor
    · rw [hmessages]
      exact hasc
    · rw [hmessages, hlookup]
      have hperm : (page ++ s.messages channelId).Perm (s.messages channelId ++ page) :=
        perm_append_comm
      have hunique : UniqueOn Message.id (s.messages channelId ++ page) :=
        (hperm.map Message.id).nodup_iff.mp hasc.unique
      exact (h.exact.enter hunique).congr fun m => hperm.mem_iff

section Push

variable {message : Message}

theorem excess_le (old : List Message) : (old ++ [message]).length - maxMessages ≤ old.length := by
  have hlength : (old ++ [message]).length = old.length + 1 := by simp
  unfold maxMessages
  omega

theorem messages_pushMessage : (s.pushMessage channelId message).messages channelId =
    (s.messages channelId).drop ((s.messages channelId ++ [message]).length - maxMessages) ++
      [message] := by
  rw [← drop_append_of_le_length (excess_le _)]
  simp [pushMessage, messages]

theorem lookup_pushMessage : (s.pushMessage channelId message).lookup channelId =
    update (erase (s.lookup channelId) (((s.messages channelId).take
      ((s.messages channelId ++ [message]).length - maxMessages)).map Message.id))
      message.id (some message) := by
  rw [← take_append_of_le_length (excess_le _)]
  funext k
  simp only [pushMessage, lookup, update_self, bind_some]
  rw [s.getD_byId channelId]

/-- Wherever it belongs, a message that is not there yet can be added. -/
theorem Coherent.pushMessage (h : s.Coherent channelId)
    (hnew : s.lookup channelId message.id = none) :
    (s.pushMessage channelId message).Coherent channelId := by
  set n := (s.messages channelId ++ [message]).length - maxMessages with hn
  have hother : ∀ m ∈ (s.messages channelId).drop n, m.id ≠ message.id :=
    fun m hm => h.exact.eq_none_iff.mp hnew m (mem_of_mem_drop hm)
  constructor
  · rw [messages_pushMessage, ← hn]
    have hkept : UniqueOn Message.id ((s.messages channelId).drop n) :=
      h.unique.sublist ((drop_sublist n _).map Message.id)
    exact unique_snoc hkept hother
  · rw [messages_pushMessage, lookup_pushMessage, ← hn]
    refine Exact.push ?_ hother
    rw [← filter_notMem_take h.unique n]
    exact h.exact.erase _

theorem indexed_pushMessage_iff (h : s.Indexed channelId) :
    (s.pushMessage channelId message).Indexed channelId ↔
      ∀ m ∈ s.messages channelId, m.id < message.id := by
  set n := (s.messages channelId ++ [message]).length - maxMessages with hn
  have hdropped : Ascending Message.id ((s.messages channelId).drop n) :=
    Ascending.drop h.ascending n
  have hsingle : Ascending Message.id [message] := pairwise_singleton _ _
  constructor
  · intro hafter m hm
    have hasc := hafter.ascending
    rw [messages_pushMessage, ← hn, ascending_append_iff hdropped hsingle] at hasc
    -- the last message before is not cut off, and it is the greatest
    obtain ⟨front, last, hlast⟩ :=
      (eq_nil_or_concat' (s.messages channelId)).resolve_left (ne_nil_of_mem hm)
    have hcut : n ≤ front.length := by
      have hlength : (s.messages channelId ++ [message]).length = front.length + 2 := by
        simp [hlast]
      unfold maxMessages at hn
      omega
    have hlt : last.id < message.id := by
      refine hasc last ?_ message (by simp)
      rw [hlast, drop_append_of_le_length hcut]
      simp
    have hbefore := h.ascending
    rw [hlast] at hbefore hm
    rcases List.mem_append.mp hm with hm | hm
    · exact lt_trans ((List.pairwise_append.mp hbefore).2.2 m hm last (by simp)) hlt
    · rw [mem_singleton] at hm
      exact hm ▸ hlt
  · intro hgreatest
    have hless : ∀ m ∈ (s.messages channelId).drop n, m.id < message.id :=
      fun m hm => hgreatest m (mem_of_mem_drop hm)
    constructor
    · rw [messages_pushMessage, ← hn, ascending_append_iff hdropped hsingle]
      intro m hm m' hm'
      rw [mem_singleton] at hm'
      exact hm' ▸ hless m hm
    · have hnew : s.lookup channelId message.id = none :=
        h.exact.eq_none_iff.mpr fun m hm => ne_of_lt (hgreatest m hm)
      exact (h.coherent.pushMessage hnew).exact

end Push

variable {f : Message → Message}

theorem Coherent.map (h : s.Coherent channelId) (hid : ∀ m, (f m).id = m.id)
    (hmessages : s'.messages channelId = (s.messages channelId).map f)
    (hlookup : ∀ k, s'.lookup channelId k = (s.lookup channelId k).map f) :
    s'.Coherent channelId where
  unique := by
    have hids : ((s.messages channelId).map f).map Message.id =
        (s.messages channelId).map Message.id := by
      rw [List.map_map]
      exact map_congr_left fun m _ => hid m
    rw [hmessages]
    unfold UniqueOn
    rw [hids]
    exact h.unique
  exact := by
    rw [hmessages]
    exact h.exact.map hid hlookup

theorem Indexed.map (h : s.Indexed channelId) (hid : ∀ m, (f m).id = m.id)
    (hmessages : s'.messages channelId = (s.messages channelId).map f)
    (hlookup : ∀ k, s'.lookup channelId k = (s.lookup channelId k).map f) :
    s'.Indexed channelId where
  ascending := by
    rw [hmessages]
    exact h.ascending.map hid
  exact := (h.coherent.map hid hmessages hlookup).exact

section Update

theorem lookup_modifyIndex (f : Record Message → Record Message) (k : ID)
    (hf : (s.byId channelId) = none → f (fun _ => none) k = none) :
    ((s.modifyIndex channelId f) channelId).bind (fun index => index k) =
      f (s.lookup channelId) k := by
  unfold modifyIndex
  rw [update_self, ← s.getD_byId channelId]
  rcases hindex : s.byId channelId with _ | index
  · exact (hf hindex).symm
  · rfl

/-- A message after the update of one with its id. -/
def replacedBy (message m : Message) : Message := if m.id = message.id then message else m

theorem replacedBy_id (message m : Message) : (replacedBy message m).id = m.id := by
  unfold replacedBy
  split
  · next hid => exact hid.symm
  · rfl

theorem map_replacedBy_of_notMem {message : Message} {messages : List Message}
    (h : ∀ m ∈ messages, m.id ≠ message.id) : messages.map (replacedBy message) = messages := by
  refine (map_congr_left ?_).trans (map_id' messages)
  intro m hm
  exact if_neg (h m hm)

theorem replaceFirst_eq_map {message : Message} {messages : List Message}
    (h : UniqueOn Message.id messages) :
    replaceFirst message messages = messages.map (replacedBy message) := by
  induction messages with
  | nil => rfl
  | cons m messages ih =>
    unfold UniqueOn at h ih
    rw [map_cons, nodup_cons] at h
    unfold replaceFirst
    rw [map_cons]
    by_cases hid : m.id = message.id
    · have hrest : ∀ m' ∈ messages, m'.id ≠ message.id := by
        intro m' hm' hid'
        exact h.1 (mem_map.mpr ⟨m', hm', hid'.trans hid.symm⟩)
      rw [if_pos hid, map_replacedBy_of_notMem hrest, replacedBy, if_pos hid]
    · rw [if_neg hid, ih h.2, replacedBy, if_neg hid]

theorem messages_updateMessage (h : s.Coherent channelId) (message : Message) :
    (s.updateMessage channelId message).messages channelId =
      (s.messages channelId).map (replacedBy message) := by
  unfold updateMessage
  split
  · rw [← replaceFirst_eq_map h.unique]
    simp [messages]
  · next hnone =>
    push Not at hnone
    rw [map_replacedBy_of_notMem hnone]

theorem lookup_updateMessage (h : s.Coherent channelId) (message : Message) (k : ID) :
    (s.updateMessage channelId message).lookup channelId k =
      (s.lookup channelId k).map (replacedBy message) := by
  -- a message found under `k` has that id
  have hother : k ≠ message.id →
      (s.lookup channelId k).map (replacedBy message) = s.lookup channelId k := by
    intro hk
    rcases hfound : s.lookup channelId k with _ | m
    · rfl
    · have hid := ((h.exact k m).mp hfound).2
      rw [map_some, replacedBy, if_neg (hid ▸ hk)]
  unfold updateMessage
  split
  · next hthere =>
    obtain ⟨m, hm, hid⟩ := hthere
    have hfound := (h.exact message.id m).mpr ⟨hm, hid⟩
    have hmodify := @lookup_modifyIndex s channelId
      (fun index => update index message.id (some message)) k
    have hindex : s.byId channelId ≠ none := by
      intro hnone
      rw [lookup, hnone] at hfound
      cases hfound
    refine (hmodify fun hnone => absurd hnone hindex).trans ?_
    by_cases hk : k = message.id
    · rw [hk, update_self, hfound, map_some, replacedBy, if_pos hid]
    · rw [update_of_ne hk, hother hk]
  · next hnone =>
    by_cases hk : k = message.id
    · have habsent : s.lookup channelId k = none := by
        rw [h.exact.eq_none_iff]
        intro m hm hid
        exact hnone ⟨m, hm, hid.trans hk⟩
      rw [habsent, map_none]
    · exact (hother hk).symm

theorem Coherent.updateMessage (h : s.Coherent channelId) (message : Message) :
    (s.updateMessage channelId message).Coherent channelId :=
  h.map (replacedBy_id message) (messages_updateMessage h message) (lookup_updateMessage h message)

theorem Indexed.updateMessage (h : s.Indexed channelId) (message : Message) :
    (s.updateMessage channelId message).Indexed channelId :=
  h.map (replacedBy_id message) (messages_updateMessage h.coherent message)
    (lookup_updateMessage h.coherent message)

/-- A message after a batch of updates. -/
def updatedBy (updates : List Message) (m : Message) : Message := (lastUpdate updates m.id).getD m

theorem lastUpdate_id {updates : List Message} {u : Message}
    (h : lastUpdate updates messageId = some u) : u.id = messageId := by
  have hid := find?_some h
  simpa using hid

theorem updatedBy_id (updates : List Message) (m : Message) : (updatedBy updates m).id = m.id := by
  unfold updatedBy
  rcases hu : lastUpdate updates m.id with _ | u
  · rfl
  · exact lastUpdate_id hu

theorem messages_bulkUpdateMessages (updates : List Message) :
    (s.bulkUpdateMessages channelId updates).messages channelId =
      (s.messages channelId).map (updatedBy updates) := by
  unfold bulkUpdateMessages messages
  rcases hmessages : s.byChannel channelId with _ | messages
  · simp [hmessages]
  · simp [updatedBy]

theorem lookup_bulkUpdateMessages (h : s.Coherent channelId) (updates : List Message) (k : ID) :
    (s.bulkUpdateMessages channelId updates).lookup channelId k =
      (s.lookup channelId k).map (updatedBy updates) := by
  unfold bulkUpdateMessages
  rcases hmessages : s.byChannel channelId with _ | messages
  · have hempty : s.lookup channelId k = none := by
      rw [h.exact.eq_none_iff]
      simp [MessageState.messages, hmessages]
    rw [hempty, map_none]
  · have hlist : s.messages channelId = messages := by simp [MessageState.messages, hmessages]
    set written := messages.filterMap fun m => lastUpdate updates m.id with hwritten
    have hid : ∀ u ∈ written, ∃ m ∈ messages, lastUpdate updates m.id = some u ∧ u.id = m.id := by
      intro u hu
      obtain ⟨m, hm, hlast⟩ := List.mem_filterMap.mp hu
      exact ⟨m, hm, hlast, lastUpdate_id hlast⟩
    have hmodify := @lookup_modifyIndex s channelId (fun index => enter Message.id index written) k
    refine (hmodify ?_).trans ?_
    · intro hnone
      -- without an index there are no messages
      have hmessages' : messages = [] := by
        rw [← hlist]
        refine List.eq_nil_iff_forall_not_mem.mpr fun m hm => ?_
        have hfound := (h.exact m.id m).mpr ⟨hm, rfl⟩
        rw [lookup, hnone] at hfound
        cases hfound
      simp [hwritten, hmessages', enter]
    · rcases hfound : s.lookup channelId k with _ | m
      · rw [enter_of_notMem, hfound, map_none]
        intro u hu hk
        obtain ⟨m, hm, -, hum⟩ := hid u hu
        exact (h.exact.eq_none_iff.mp hfound) m (hlist ▸ hm) (hum.symm.trans hk)
      · obtain ⟨hm, hk⟩ := (h.exact k m).mp hfound
        rw [map_some, updatedBy]
        rcases hlast : lastUpdate updates m.id with _ | u
        · rw [enter_of_notMem, hfound, getD_none]
          intro u hu huk
          obtain ⟨m', -, hlast', hum'⟩ := hid u hu
          rw [← hum', huk, ← hk, hlast] at hlast'
          cases hlast'
        · have huk : u.id = k := (lastUpdate_id hlast).trans hk
          have hu : u ∈ written := List.mem_filterMap.mpr ⟨m, hlist ▸ hm, hlast⟩
          rw [← huk, enter_of_mem hu, getD_some]
          intro u' hu' hid'
          obtain ⟨m', -, hlast', hum'⟩ := hid u' hu'
          rw [← hum', hid', huk, ← hk, hlast] at hlast'
          exact (Option.some.inj hlast').symm

theorem Indexed.bulkUpdateMessages (h : s.Indexed channelId) (updates : List Message) :
    (s.bulkUpdateMessages channelId updates).Indexed channelId :=
  h.map (updatedBy_id updates) (messages_bulkUpdateMessages updates)
    (lookup_bulkUpdateMessages h.coherent updates)

theorem messages_removeMessages (messageIds : List ID) :
    (s.removeMessages channelId messageIds).messages channelId =
      (s.messages channelId).filter fun m => m.id ∉ messageIds := by
  unfold removeMessages messages
  rcases hmessages : s.byChannel channelId with _ | messages
  · simp [hmessages]
  · simp

theorem lookup_removeMessages (h : s.Coherent channelId) (messageIds : List ID) :
    (s.removeMessages channelId messageIds).lookup channelId =
      erase (s.lookup channelId) messageIds := by
  funext k
  unfold removeMessages
  rcases hmessages : s.byChannel channelId with _ | messages
  · have hempty : s.lookup channelId k = none := by
      rw [h.exact.eq_none_iff]
      simp [MessageState.messages, hmessages]
    rw [erase_apply, hempty, ite_self]
  · refine lookup_modifyIndex (fun index => erase index messageIds) k fun _ => ?_
    rw [erase_apply, ite_self]

theorem Coherent.removeMessages (h : s.Coherent channelId) (messageIds : List ID) :
    (s.removeMessages channelId messageIds).Coherent channelId where
  unique := by
    rw [messages_removeMessages]
    exact h.unique.sublist (List.filter_sublist.map Message.id)
  exact := by
    rw [messages_removeMessages, lookup_removeMessages h]
    exact h.exact.erase messageIds

theorem Indexed.removeMessages (h : s.Indexed channelId) (messageIds : List ID) :
    (s.removeMessages channelId messageIds).Indexed channelId where
  ascending := by
    rw [messages_removeMessages]
    exact h.ascending.filter _
  exact := (h.coherent.removeMessages messageIds).exact

/-! Updates and removals touch neither the view mode nor the buffer. -/

@[simp] theorem updateMessage_viewMode (m : Message) :
    (s.updateMessage channelId m).viewMode = s.viewMode := by
  unfold updateMessage
  split <;> rfl

@[simp] theorem updateMessage_pendingMessages (m : Message) :
    (s.updateMessage channelId m).pendingMessages = s.pendingMessages := by
  unfold updateMessage
  split <;> rfl

@[simp] theorem bulkUpdateMessages_viewMode (updates : List Message) :
    (s.bulkUpdateMessages channelId updates).viewMode = s.viewMode := by
  unfold bulkUpdateMessages
  split <;> rfl

@[simp] theorem bulkUpdateMessages_pendingMessages (updates : List Message) :
    (s.bulkUpdateMessages channelId updates).pendingMessages = s.pendingMessages := by
  unfold bulkUpdateMessages
  split <;> rfl

@[simp] theorem removeMessages_viewMode (ids : List ID) :
    (s.removeMessages channelId ids).viewMode = s.viewMode := by
  unfold removeMessages
  split <;> rfl

@[simp] theorem removeMessages_pendingMessages (ids : List ID) :
    (s.removeMessages channelId ids).pendingMessages = s.pendingMessages := by
  unfold removeMessages
  split <;> rfl

end Update

end MessageState

/-! ## Section 4: Sequences of actions -/

inductive Action where
  | setMessages (channelId : ID) (messages : List Message)
  | hydrateMessages (channelId : ID) (messages : List Message)
  | prependMessages (channelId : ID) (messages : List Message)
  | addMessage (channelId : ID) (message : Message)
  | updateMessage (channelId : ID) (message : Message)
  | bulkUpdateMessages (channelId : ID) (messages : List Message)
  | removeMessage (channelId messageId : ID)
  | removeMessages (channelId : ID) (messageIds : List ID)
  | setViewMode (channelId : ID) (mode : ViewMode)
  | returnToPresent (channelId : ID)

namespace Action

def channelId : Action → ID
  | .setMessages channelId _ | .hydrateMessages channelId _ | .prependMessages channelId _
  | .addMessage channelId _ | .updateMessage channelId _ | .bulkUpdateMessages channelId _
  | .removeMessage channelId _ | .removeMessages channelId _ | .setViewMode channelId _
  | .returnToPresent channelId => channelId

/-- The page that an action takes from the server. -/
def page : Action → List Message
  | .setMessages _ messages | .hydrateMessages _ messages | .prependMessages _ messages => messages
  | _ => []

def run (s : MessageState) : Action → MessageState
  | .setMessages channelId messages => s.setMessages channelId messages
  | .hydrateMessages channelId messages => s.hydrateMessages channelId messages
  | .prependMessages channelId messages => s.prependMessages channelId messages
  | .addMessage channelId message => s.addMessage channelId message
  | .updateMessage channelId message => s.updateMessage channelId message
  | .bulkUpdateMessages channelId messages => s.bulkUpdateMessages channelId messages
  | .removeMessage channelId messageId => s.removeMessage channelId messageId
  | .removeMessages channelId messageIds => s.removeMessages channelId messageIds
  | .setViewMode channelId mode => s.setViewMode channelId mode
  | .returnToPresent channelId => s.returnToPresent channelId

/-- What a page, a live message or the buffer adds goes where its ids belong. -/
def InOrder (s : MessageState) : Action → Prop
  | .hydrateMessages channelId fetched => s.BufferNewer channelId fetched
  | .prependMessages channelId page => ∀ p ∈ page, ∀ m ∈ s.messages channelId, p.id < m.id
  | .addMessage channelId message =>
    s.viewMode channelId = some .historical ∨ (s.lookup channelId message.id).isSome ∨
      ∀ m ∈ s.messages channelId, m.id < message.id
  | _ => True

instance decidableInOrder (s : MessageState) : ∀ a : Action, Decidable (a.InOrder s)
  | .hydrateMessages channelId fetched => MessageState.decidableBufferNewer s channelId fetched
  | .prependMessages _ page => inferInstanceAs (Decidable (∀ _ ∈ page, _))
  | .addMessage _ _ => inferInstanceAs (Decidable (_ ∨ _))
  | .setMessages _ _ | .updateMessage _ _ | .bulkUpdateMessages _ _ | .removeMessage _ _
  | .removeMessages _ _ | .setViewMode _ _ | .returnToPresent _ => inferInstanceAs (Decidable True)

theorem run_other (s : MessageState) (a : Action) {channelId : ID} (h : channelId ≠ a.channelId) :
    (a.run s).SameAt s channelId := by
  cases a with
  | setMessages c page => exact s.sameAt_replaceMessages page h
  | hydrateMessages c page =>
    simp only [run, MessageState.hydrateMessages]
    split_ifs
    · exact s.sameAt_replaceMessages page h
    · split
      · exact s.sameAt_replaceMessages _ h
      · exact { s.sameAt_replaceMessages _ h with pending := update_of_ne h _ _ }
  | prependMessages c page =>
    exact ⟨update_of_ne h _ _, update_of_ne h _ _, rfl, rfl⟩
  | addMessage c m =>
    simp only [run, MessageState.addMessage, MessageState.bufferMessage]
    split_ifs
    · exact ⟨rfl, rfl, rfl, rfl⟩
    · exact ⟨rfl, rfl, rfl, update_of_ne h _ _⟩
    · exact ⟨rfl, rfl, rfl, update_of_ne h _ _⟩
    · exact ⟨rfl, rfl, rfl, rfl⟩
    · exact ⟨update_of_ne h _ _, update_of_ne h _ _, rfl, rfl⟩
  | updateMessage c m =>
    simp only [run, MessageState.updateMessage]
    split_ifs
    · exact ⟨update_of_ne h _ _, update_of_ne h _ _, rfl, rfl⟩
    · exact ⟨rfl, rfl, rfl, rfl⟩
  | bulkUpdateMessages c updates =>
    simp only [run, MessageState.bulkUpdateMessages]
    split
    · exact ⟨rfl, rfl, rfl, rfl⟩
    · exact ⟨update_of_ne h _ _, update_of_ne h _ _, rfl, rfl⟩
  | removeMessage c id => exact s.sameAt_removeMessages [id] h
  | removeMessages c ids => exact s.sameAt_removeMessages ids h
  | setViewMode c mode => exact ⟨rfl, rfl, update_of_ne h _ _, rfl⟩
  | returnToPresent c =>
    exact ⟨update_of_ne h _ _, update_of_ne h _ _, update_of_ne h _ _, update_of_ne h _ _⟩

/-- An action keeps its channel indexed exactly when what it adds goes where it belongs. -/
theorem indexed_run_iff {s : MessageState} {a : Action} (h : s.Indexed a.channelId)
    (hpage : Ascending Message.id a.page) : (a.run s).Indexed a.channelId ↔ a.InOrder s := by
  cases a with
  | setMessages c page =>
    exact iff_of_true ((s.indexed_replaceMessages_iff c page).mpr hpage) trivial
  | hydrateMessages c page => exact MessageState.indexed_hydrateMessages_iff h hpage
  | prependMessages c page => exact MessageState.indexed_prependMessages_iff h hpage
  | addMessage c m =>
    have hc : s.Indexed c := h
    simp only [run, InOrder, channelId, MessageState.addMessage]
    by_cases hmode : s.viewMode c = some .historical
    · refine iff_of_true ?_ (Or.inl hmode)
      unfold MessageState.bufferMessage
      split_ifs
      · exact h
      · exact h.congr rfl rfl
      · exact h.congr rfl rfl
    · rw [if_neg hmode]
      by_cases hthere : (s.lookup c m.id).isSome = true
      · rw [if_pos hthere]
        exact iff_of_true h (Or.inr (Or.inl hthere))
      · rw [if_neg hthere, MessageState.indexed_pushMessage_iff hc]
        simp [hmode, hthere]
  | updateMessage c m => exact iff_of_true (h.updateMessage m) trivial
  | bulkUpdateMessages c updates => exact iff_of_true (h.bulkUpdateMessages updates) trivial
  | removeMessage c id => exact iff_of_true (h.removeMessages [id]) trivial
  | removeMessages c ids => exact iff_of_true (h.removeMessages ids) trivial
  | setViewMode c mode => exact iff_of_true (h.congr rfl rfl) trivial
  | returnToPresent c =>
    refine iff_of_true (MessageState.Indexed.empty ?_ ?_) trivial
    · exact update_self _ _ _
    · exact update_self _ _ _

theorem indexed_run_all_iff {s : MessageState} {a : Action} (h : ∀ c, s.Indexed c)
    (hpage : Ascending Message.id a.page) : (∀ c, (a.run s).Indexed c) ↔ a.InOrder s := by
  constructor
  · intro hall
    exact (indexed_run_iff (h _) hpage).mp (hall _)
  · intro hord c
    by_cases hc : c = a.channelId
    · subst hc
      exact (indexed_run_iff (h _) hpage).mpr hord
    · exact (h c).congr (run_other s a hc).messages (run_other s a hc).lookup

end Action

/-- A store without messages. -/
theorem MessageState.indexed_init (channelId : ID) : ({} : MessageState).Indexed channelId :=
  Indexed.empty rfl rfl

/-- A sequence of actions keeps every channel indexed all along exactly when each action
    puts what it adds where it belongs. -/
theorem indexed_along_iff {actions : List Action}
    (hpages : ∀ a ∈ actions, Ascending Message.id a.page) :
    (∀ pre, pre <+: actions → ∀ c, (Run.exec Action.run {} pre).Indexed c) ↔
      Run.Guarded Action.run Action.InOrder {} actions := by
  have hstep : ∀ (s : MessageState) (a : Action), (∀ c, s.Indexed c) →
      Ascending Message.id a.page → ((∀ c, (a.run s).Indexed c) ↔ a.InOrder s) :=
    fun s a hs ha => Action.indexed_run_all_iff hs ha
  exact Run.along_iff hstep MessageState.indexed_init hpages

/-- A page, an older page, a message that arrives and an edit. -/
theorem indexed_along_paging :
    (Run.exec Action.run {} [.setMessages "general" [{ id := "03", channelId := "general" }],
      .prependMessages "general" [{ id := "01", channelId := "general" }],
      .addMessage "general" { id := "04", channelId := "general" },
      .updateMessage "general" { id := "01", channelId := "general", authorId := "ann" }]).Indexed
      "general" := by
  refine (indexed_along_iff ?_).mpr ?_ _ (prefix_refl _) "general"
  · decide
  · decide +kernel

/-- A page that overlaps what is loaded puts a message into the array twice. -/
theorem not_indexed_overlap :
    ¬ ∀ actions : List Action, (∀ a ∈ actions, Ascending Message.id a.page) →
      ∀ pre, pre <+: actions → ∀ c, (Run.exec Action.run {} pre).Indexed c := by
  intro h
  have hboth := h [.setMessages "general" [{ id := "01", channelId := "general" },
      { id := "02", channelId := "general" }],
    .prependMessages "general" [{ id := "01", channelId := "general" }]] (by decide) _
    (prefix_refl _) "general"
  exact absurd hboth.ascending (by decide)

end Meza.Client
