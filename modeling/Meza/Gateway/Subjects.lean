import Meza.Gateway.ChannelEvents
import Meza.Gateway.Registry
import Meza.Lib.Unicode

/-! # Subjects

    Services publish events under a subject that ends with the id of a channel, a server or a
    user, `subjects.go`. The gateway subscribes to families of subjects, takes the id out of the
    subject again and looks up whom to send the event to. -/

namespace Meza.Gateway.Subjects

open List
open Aead (Bytes)
open ChannelEvents (decodeServerChannelEvent encodeServerChannelEvent decode_encode)
open Store (ID)

/-! ## Section 1: Subjects -/

/-- `strings.NewReplacer(".", "_", "*", "_", ">", "_", " ", "_")`. -/
def sanitizeID (id : ID) : List Char :=
  id.toList.map fun c => if c ∈ ['.', '*', '>', ' '] then '_' else c

inductive Family where
  | deliverChannel
  | presenceHeartbeat
  | presenceUpdate
  | serverMember
  | serverChannel
  | serverMeta
  | serverRole
  | serverEmoji
  | serverSoundboard
  | serverChannelGroup
  | userUpdate
  | userReadState
  | userSubscription
  | userRecovery
  | deviceConnected
  | deviceDisconnected
  deriving DecidableEq

/-- The words in front of the id. -/
def Family.words : Family → List String
  | .deliverChannel => ["meza", "deliver", "channel"]
  | .presenceHeartbeat => ["meza", "presence", "heartbeat"]
  | .presenceUpdate => ["meza", "presence", "update"]
  | .serverMember => ["meza", "server", "member"]
  | .serverChannel => ["meza", "server", "channel"]
  | .serverMeta => ["meza", "server", "meta"]
  | .serverRole => ["meza", "server", "role"]
  | .serverEmoji => ["meza", "server", "emoji"]
  | .serverSoundboard => ["meza", "server", "soundboard"]
  | .serverChannelGroup => ["meza", "server", "channelgroup"]
  | .userUpdate => ["meza", "user", "update"]
  | .userReadState => ["meza", "user", "readstate"]
  | .userSubscription => ["meza", "user", "subscription"]
  | .userRecovery => ["meza", "user", "recovery"]
  | .deviceConnected => ["meza", "device", "connected"]
  | .deviceDisconnected => ["meza", "device", "disconnected"]

def Family.tokens (f : Family) (last : List Char) : List (List Char) :=
  f.words.map String.toList ++ [last]

def Family.subject (f : Family) (id : ID) : List Char :=
  ['.'].intercalate (f.tokens (sanitizeID id))

def Family.wildcard (f : Family) : List Char := ['.'].intercalate (f.tokens ['>'])

/-- A subscription hears a subject: `*` stands for one token, and `>` for all that are left. No
    token is empty. -/
def hears : List (List Char) → List (List Char) → Bool
  | [], [] => true
  | p :: ps, t :: ts =>
    t ≠ [] && (p = ['>'] && ps = [] && ts.all (· ≠ []) || (p = ['*'] || p = t) && hears ps ts)
  | _, _ => false

/-! ## Section 2: The subscriptions of the gateway -/

/-- What the handler of a family does with the id of a subject and the data. -/
def delivery (id : ID) (data : Bytes) : Family → Option Delivery
  | .deliverChannel => some (.channel id)
  | .serverChannel =>
    match decodeServerChannelEvent data with
    | .error _ => none
    | .ok (_, channelID) =>
      if channelID ≠ [] then some (.channel (.ofList (Utf8.decode channelID)))
      else some (.server id)
  | .serverMember | .serverRole | .serverEmoji | .serverSoundboard | .serverChannelGroup
  | .serverMeta => some (.server id)
  | .userReadState => some (.user id)
  | .presenceUpdate | .userUpdate => some (.sharedServers id)
  | .presenceHeartbeat | .userSubscription | .userRecovery | .deviceConnected
  | .deviceDisconnected => none

def subscriptions : List Family :=
  [.deliverChannel, .serverChannel, .serverMember, .serverRole, .serverEmoji, .serverSoundboard,
    .serverChannelGroup, .serverMeta, .userReadState, .presenceUpdate, .userUpdate]

/-- All that the gateway delivers for one message. -/
def onMessage (subject : List Char) (data : Bytes) : List Delivery :=
  let parts := subject.splitOn '.'
  subscriptions.filterMap fun f =>
    if hears (f.wildcard.splitOn '.') parts then
      parts[3]?.bind fun id => delivery (.ofList id) data f
    else none

/-! ## Section 3: No id gets out of its place -/

variable {f g : Family} {last : List Char} {id : ID} {data : Bytes}

theorem notMem_sanitizeID {c : Char} (hc : c ∈ ['.', '*', '>', ' ']) : c ∉ sanitizeID id := by
  intro hmem
  obtain ⟨d, -, rfl⟩ := mem_map.mp hmem
  split at hc
  · exact absurd hc (by decide)
  · next hd => exact hd hc

theorem splitOn_tokens (h : '.' ∉ last) (f : Family) :
    (['.'].intercalate (f.tokens last)).splitOn '.' = f.tokens last := by
  refine splitOn_intercalate '.' ?_ (by simp [Family.tokens])
  intro token hmem
  rcases mem_append.mp hmem with hmem | hmem
  · have hwords : ∀ token ∈ f.words.map String.toList, '.' ∉ token := by cases f <;> decide
    exact hwords token hmem
  · rwa [mem_singleton.mp hmem]

theorem filterMap_of_nodup {α β : Type*} [DecidableEq α] {d : α → Option β} {a : α} {l : List α}
    (h : l.Nodup) :
    (l.filterMap fun x => if x = a then d x else none) = if a ∈ l then (d a).toList else [] := by
  induction l with
  | nil => rfl
  | cons x l ih =>
    have hx := (nodup_cons.mp h).1
    rw [filterMap_cons, ih (nodup_cons.mp h).2]
    by_cases hxa : x = a
    · subst hxa
      rw [if_pos rfl, if_neg hx, if_pos mem_cons_self]
      cases d x <;> rfl
    · simp [hxa, Ne.symm hxa]

/-- Words that are no wildcards are heard one by one. -/
theorem hears_append {ws vs : List (List Char)} {own : List Char}
    (hplain : ∀ w ∈ ws, w ∉ [[], ['>'], ['*']]) (hlength : ws.length = vs.length) :
    hears (ws ++ [own]) (vs ++ [last]) = true ↔ ws = vs ∧ hears [own] [last] = true := by
  induction ws generalizing vs with
  | nil =>
    rw [eq_nil_of_length_eq_zero hlength.symm]
    simp
  | cons w ws ih =>
    obtain ⟨v, vs, rfl⟩ := exists_cons_of_length_eq_add_one hlength.symm
    obtain ⟨hw, hplain⟩ := forall_mem_cons.mp hplain
    have hrest := ih hplain (Nat.succ.inj hlength)
    simp only [mem_cons, not_mem_nil, or_false, not_or] at hw
    by_cases hvw : w = v
    · subst hvw
      simp [hears, hw, hrest]
    · simp [hears, hw, hvw]

theorem words_inj : f.words = g.words → f = g := by
  cases f <;> cases g <;> simp [Family.words]

theorem hears_tokens (f g : Family) (own last : List Char) :
    hears (f.tokens own) (g.tokens last) = true ↔ f = g ∧ hears [own] [last] = true := by
  have hplain : ∀ w ∈ f.words.map String.toList, w ∉ [[], ['>'], ['*']] := by
    cases f <;> decide
  have hthree : ∀ f : Family, (f.words.map String.toList).length = 3 := by
    intro f
    rw [length_map]
    cases f <;> rfl
  refine (hears_append hplain ((hthree f).trans (hthree g).symm)).trans
    (and_congr_left' ⟨fun h => ?_, ?_⟩)
  · exact words_inj (map_injective_iff.mpr (fun _ _ => String.toList_inj.mp) h)
  · rintro rfl
    rfl

theorem splitOn_subject (f : Family) (id : ID) :
    (f.subject id).splitOn '.' = f.tokens (sanitizeID id) :=
  splitOn_tokens (notMem_sanitizeID (by decide)) f

theorem sanitizeID_nil : sanitizeID id = [] ↔ id = "" := by simp [sanitizeID]

theorem onMessage_eq (f : Family) (id : ID) (data : Bytes) :
    onMessage (f.subject id) data =
      if f ∈ subscriptions ∧ id ≠ "" then (delivery (.ofList (sanitizeID id)) data f).toList
      else [] := by
  have hpart : (f.tokens (sanitizeID id))[3]? = some (sanitizeID id) := by cases f <;> rfl
  have hlast : hears [['>']] [sanitizeID id] = true ↔ id ≠ "" := by simp [hears, sanitizeID_nil]
  unfold onMessage
  -- of all the subscriptions only that of `f` hears the subject
  simp only [splitOn_subject, Family.wildcard, splitOn_tokens (show '.' ∉ ['>'] by decide),
    hears_tokens, hlast, hpart, Option.bind_some]
  by_cases hid : id = ""
  · simp [hid]
  · simp only [hid, ne_eq, not_false_eq_true, and_true]
    exact filterMap_of_nodup (by decide)

/-- **A private event stays in its channel.** What is published about a channel of a server gets
    to the clients of that channel if it is private, and else to those of the server. -/
theorem channelEvent_confined (g : GatewayState) (c : ClientID) {serverID channelID : ID}
    (hserver : serverID ≠ "") (hlength : (Utf8.encode channelID.toList).length ≤ 255) :
    (∃ d ∈ onMessage (Family.serverChannel.subject serverID)
        (encodeServerChannelEvent data (Utf8.encode channelID.toList)),
      g.recipients c d = true) ↔
      if channelID = "" then g.serverClients (.ofList (sanitizeID serverID)) c = true
      else g.channelClients channelID c = true := by
  rw [onMessage_eq, if_pos ⟨by decide, hserver⟩]
  unfold delivery
  rw [decode_encode hlength]
  by_cases hid : channelID = ""
  · simp [hid, Utf8.encode, GatewayState.recipients]
  · have hsome : Utf8.encode channelID.toList ≠ [] := fun h =>
      hid (String.toList_eq_nil_iff.mp (h ▸ Utf8.decode_encode channelID.toList).symm)
    simp [hid, hsome, Utf8.decode_encode, GatewayState.recipients]

theorem channelEvent_confined_staff : ¬ ∃ d ∈ onMessage (Family.serverChannel.subject "srv")
      (encodeServerChannelEvent [7] (Utf8.encode "staff".toList)),
    ({ tables := {}, serverClients := fun _ _ => true } : GatewayState).recipients 1 d = true := by
  rw [channelEvent_confined _ 1 (by decide) (by decide)]
  decide

end Meza.Gateway.Subjects
