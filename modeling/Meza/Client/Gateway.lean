import Meza.Client.MessageStore

/-! # Message events of the gateway

    What the client does to its message store when the gateway delivers a
    message event. Every event becomes one action of the store. -/

namespace Meza.Client

open Store (ID)

inductive GatewayEvent where
  | messageCreate (msg : Message)
  | messageUpdate (msg : Message)
  | messageDelete (channelId messageId : ID)
  deriving DecidableEq, Repr

namespace GatewayEvent

variable (currentUserId : ID)

/-- The own message that an encrypted echo is about: it was added in plain text when it
    was sent. -/
def existingOwn (s : MessageState) (msg : Message) : Option Message :=
  if msg.authorId = currentUserId ∧ 0 < msg.keyVersion then s.lookup msg.channelId msg.id else none

/-- An echo of an own message only brings the attachments. -/
def action (s : MessageState) : GatewayEvent → Action
  | .messageCreate msg =>
    match existingOwn currentUserId s msg with
    | some existing =>
      .updateMessage msg.channelId { existing with attachments := msg.attachments }
    | none => .addMessage msg.channelId msg
  | .messageUpdate msg => .updateMessage msg.channelId msg
  | .messageDelete channelId messageId => .removeMessage channelId messageId

def deliver (s : MessageState) (ev : GatewayEvent) : MessageState :=
  (ev.action currentUserId s).run s

def channelId : GatewayEvent → ID
  | .messageCreate msg | .messageUpdate msg => msg.channelId
  | .messageDelete channelId _ => channelId

def messageId : GatewayEvent → ID
  | .messageCreate msg | .messageUpdate msg => msg.id
  | .messageDelete _ messageId => messageId

variable {currentUserId}

theorem action_channelId (s : MessageState) (ev : GatewayEvent) :
    (ev.action currentUserId s).channelId = ev.channelId := by
  cases ev with
  | messageCreate msg =>
    simp only [action, channelId]
    split
    · rfl
    · rfl
  | messageUpdate msg => rfl
  | messageDelete c id => rfl

theorem deliver_other (s : MessageState) (ev : GatewayEvent) {c : ID} (h : c ≠ ev.channelId) :
    (ev.deliver currentUserId s).SameAt s c := by
  refine Action.run_other s _ ?_
  rw [action_channelId]
  exact h

/-- What a new message does: the echo of an own message that is there updates it, and any
    other message is added. -/
theorem deliver_messageCreate (s : MessageState) (msg : Message) :
    (∃ existing, (msg.authorId = currentUserId ∧ 0 < msg.keyVersion) ∧
      s.lookup msg.channelId msg.id = some existing ∧
      (messageCreate msg).deliver currentUserId s =
        s.updateMessage msg.channelId { existing with attachments := msg.attachments }) ∨
    ((msg.authorId = currentUserId ∧ 0 < msg.keyVersion →
        s.lookup msg.channelId msg.id = none) ∧
      (messageCreate msg).deliver currentUserId s = s.addMessage msg.channelId msg) := by
  unfold deliver action
  by_cases hown : msg.authorId = currentUserId ∧ 0 < msg.keyVersion
  · rcases hfound : s.lookup msg.channelId msg.id with _ | existing
    · right
      refine ⟨fun _ => rfl, ?_⟩
      simp only [existingOwn, if_pos hown, hfound]
      rfl
    · left
      refine ⟨existing, hown, rfl, ?_⟩
      simp only [existingOwn, if_pos hown, hfound]
      rfl
  · right
    refine ⟨fun h => absurd h hown, ?_⟩
    simp only [existingOwn, if_neg hown]
    rfl

end GatewayEvent

end Meza.Client
