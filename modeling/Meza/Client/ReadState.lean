import Meza.Client.MessageStore
import Meza.Store.MessageStore
import Meza.Store.ReadStateStore

/-! # Read states of the client

    What the client shows as read and unread. The READY payload of the gateway
    replaces everything; after it each `READ_STATE_UPDATE` replaces the entry of
    its channel, whatever was there. -/

namespace Meza.Client

open Store Function

/-! ## Section 1: The store -/

/-- `v1.ReadState`, as the server sends it. -/
structure ReadState where
  channelID : ID
  lastReadMessageID : ID
  unreadCount : Nat
  deriving DecidableEq, Repr

structure ReadStateData where
  lastReadMessageId : ID
  unreadCount : Nat
  mentionOrDmCount : Nat := 0
  deriving DecidableEq, Repr

structure ReadStateState where
  byChannel : Record ReadStateData := fun _ => none

namespace ReadStateState

/-- The mentions are counted by the client alone, and kept while something is unread. -/
def mentionOrDmCount (s : ReadStateState) (channelId : ID) (unreadCount : Nat) : Nat :=
  if unreadCount = 0 then 0
  else ((s.byChannel channelId).map (·.mentionOrDmCount)).getD 0

/-- The entry that a read state of the server is turned into. -/
def entry (s : ReadStateState) (rs : ReadState) : ReadStateData :=
  { lastReadMessageId := rs.lastReadMessageID
    unreadCount := rs.unreadCount
    mentionOrDmCount := s.mentionOrDmCount rs.channelID rs.unreadCount }

/-- Replaces the entire map by the entries of these states. -/
def setReadStates (s : ReadStateState) (states : List ReadState) : ReadStateState :=
  { byChannel := fun channelId =>
      (Index.enter ReadState.channelID (fun _ => none) states channelId).map s.entry }

def updateReadState (s : ReadStateState) (rs : ReadState) : ReadStateState :=
  { byChannel := update s.byChannel rs.channelID (some (s.entry rs)) }

def incrementUnread (s : ReadStateState) (channelId : ID) : ReadStateState :=
  { byChannel := update s.byChannel channelId (some (
      match s.byChannel channelId with
      | some existing => { existing with unreadCount := existing.unreadCount + 1 }
      | none => { lastReadMessageId := "", unreadCount := 1, mentionOrDmCount := 0 })) }

def incrementUnreadWithMention (s : ReadStateState) (channelId : ID) : ReadStateState :=
  { byChannel := update s.byChannel channelId (some (
      match s.byChannel channelId with
      | some existing =>
        { existing with
          unreadCount := existing.unreadCount + 1
          mentionOrDmCount := existing.mentionOrDmCount + 1 }
      | none => { lastReadMessageId := "", unreadCount := 1, mentionOrDmCount := 1 })) }

end ReadStateState

/-! ## Section 2: Agreeing with the server -/

/-- What the server says about a channel that has been read up to a message. -/
def readStateOf (a : Archive) (channelID lastReadMessageID : ID) : ReadState :=
  { channelID, lastReadMessageID
    unreadCount := MessageStore.countMessagesAfter a channelID lastReadMessageID }

/-- The read states of the READY payload. -/
def readyReadStates (a : Archive) (rows : List ReadStateRow) (userID : ID) : List ReadState :=
  (ReadStateStore.getReadStates rows userID).map fun row =>
    readStateOf a row.channelID row.lastReadMessageID

/-- The client shows this read state of a channel. -/
def ReadStateState.Shows (s : ReadStateState) (rs : ReadState) : Prop :=
  ∃ data, s.byChannel rs.channelID = some data ∧
    data.lastReadMessageId = rs.lastReadMessageID ∧ data.unreadCount = rs.unreadCount

/-- The client shows what the server has stored for the user. -/
def ReadStateState.Agrees (s : ReadStateState) (a : Archive) (rows : List ReadStateRow)
    (userID : ID) : Prop :=
  ∀ channelID last, ReadStateStore.lastRead rows userID channelID = some last →
    s.Shows (readStateOf a channelID last)

theorem shows_updateReadState (s : ReadStateState) (rs : ReadState) :
    (s.updateReadState rs).Shows rs :=
  ⟨s.entry rs, update_self _ _ _, rfl, rfl⟩

/-- An update leaves the other channels alone. -/
theorem shows_updateReadState_of_ne {s : ReadStateState} {rs rs' : ReadState}
    (hne : rs'.channelID ≠ rs.channelID) : (s.updateReadState rs).Shows rs' ↔ s.Shows rs' := by
  have hsame : (s.updateReadState rs).byChannel rs'.channelID = s.byChannel rs'.channelID :=
    update_of_ne hne _ _
  unfold ReadStateState.Shows
  rw [hsame]

end Meza.Client
