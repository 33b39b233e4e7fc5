import Mathlib.Data.String.Basic
import Meza.Store.Schema

/-! # Read states

    How far each user has read each channel, one row of `channel_read_states`
    for each of them. An upsert moves a row forward or leaves it. -/

namespace Meza.Store

structure ReadStateRow where
  userID : ID
  channelID : ID
  lastReadMessageID : ID
  deriving DecidableEq, Repr

def ReadStateRow.key (row : ReadStateRow) : ID × ID := (row.userID, row.channelID)

namespace ReadStateStore

/-- `ON CONFLICT (user_id, channel_id) DO UPDATE ... WHERE
    channel_read_states.last_read_message_id < EXCLUDED.last_read_message_id`. -/
def upsertReadState (rows : List ReadStateRow) (userID channelID messageID : ID) :
    List ReadStateRow :=
  Table.upsert ReadStateRow.key
    (fun row => if row.lastReadMessageID < messageID then
      { row with lastReadMessageID := messageID } else row)
    { userID, channelID, lastReadMessageID := messageID } rows

def getReadState (rows : List ReadStateRow) (userID channelID : ID) : Option ReadStateRow :=
  Table.lookup ReadStateRow.key (userID, channelID) rows

def getReadStates (rows : List ReadStateRow) (userID : ID) : List ReadStateRow :=
  rows.filter (·.userID = userID)

/-- The column that the upsert moves. -/
def lastRead (rows : List ReadStateRow) (userID channelID : ID) : Option ID :=
  (getReadState rows userID channelID).map (·.lastReadMessageID)

/-- An upsert takes the maximum. -/
theorem lastRead_upsertReadState (rows : List ReadStateRow) (userID channelID messageID u c : ID) :
    lastRead (upsertReadState rows userID channelID messageID) u c =
      if u = userID ∧ c = channelID then
        some ((lastRead rows userID channelID).elim messageID fun last => max last messageID)
      else lastRead rows u c := by
  have hkey : ∀ row : ReadStateRow, (if row.lastReadMessageID < messageID then
      { row with lastReadMessageID := messageID } else row).key = row.key := by
    intro row
    split
    · rfl
    · rfl
  unfold lastRead getReadState upsertReadState
  rw [Table.lookup_upsert hkey]
  by_cases hsame : u = userID ∧ c = channelID
  · obtain ⟨rfl, rfl⟩ := hsame
    have hk : (u, c) = ReadStateRow.key ⟨u, c, messageID⟩ := rfl
    rw [if_pos hk, if_pos ⟨rfl, rfl⟩]
    rcases Table.lookup ReadStateRow.key (u, c) rows with _ | row
    · rfl
    · show some (if row.lastReadMessageID < messageID then _ else row).lastReadMessageID =
        some (max row.lastReadMessageID messageID)
      by_cases hlt : row.lastReadMessageID < messageID
      · rw [if_pos hlt, max_eq_right hlt.le]
      · rw [if_neg hlt, max_eq_left (not_lt.mp hlt)]
  · have hk : (u, c) ≠ ReadStateRow.key ⟨userID, channelID, messageID⟩ := by
      intro heq
      exact hsame (Prod.mk.inj heq)
    rw [if_neg hk, if_neg hsame]

end ReadStateStore

end Meza.Store
