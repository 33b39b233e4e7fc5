import Mathlib.Tactic.SplitIfs
import Meza.Lib.Aead

/-! # Channel events between the services

    An event about a channel of a server goes to the gateway with a hint in front,
    `subjects.go`: a zero byte if the channel is public, else a one, the length of the
    channel's id in one byte, and the id. The gateway sends the event to the clients of
    that channel or, if there is no id, to all the clients of the server.

    The strings of Go are byte strings. -/

namespace Meza.Gateway.ChannelEvents

open Aead (Bytes)

/-! ## Section 1: The hint -/

def encodeServerChannelEvent (data privateChannelID : Bytes) : Bytes :=
  if privateChannelID = [] then 0x00 :: data
  else
    let chIDBytes := privateChannelID
    0x01 :: UInt8.ofNat chIDBytes.length :: (chIDBytes ++ data)

inductive DecodeError where
  /-- empty server channel event payload -/
  | emptyPayload
  /-- unrecognized server channel event prefix -/
  | unrecognizedPrefix (hint : UInt8)
  deriving DecidableEq

/-- The event and the private channel's id, which is empty for a public channel. -/
def decodeServerChannelEvent : Bytes → Except DecodeError (Bytes × Bytes)
  | [] => .error .emptyPayload
  | hint :: rest =>
    if hint = 0x00 then .ok (rest, [])
    else
      match rest with
      | [] => .error (.unrecognizedPrefix hint)
      | chIDLen :: rest =>
        if hint = 0x01 ∧ chIDLen.toNat ≤ rest.length then
          .ok (rest.drop chIDLen.toNat, rest.take chIDLen.toNat)
        else .error (.unrecognizedPrefix hint)

variable {Client : Type}

/-- Whom the gateway sends a message on a server's channel subject. -/
def recipients (channelClients : Bytes → List Client) (serverClients : List Client) (raw : Bytes) :
    List Client :=
  match decodeServerChannelEvent raw with
  | .error _ => []
  | .ok (_, channelID) => if channelID ≠ [] then channelClients channelID else serverClients

/-- What is encoded is decoded again; what is decoded was encoded so; and what is marked as
    private is not decoded as public. -/
structure Scoped (data privateChannelID raw : Bytes) : Prop where
  priv : privateChannelID ≠ [] → privateChannelID.length ≤ 255 →
    decodeServerChannelEvent (encodeServerChannelEvent data privateChannelID) =
      .ok (data, privateChannelID)
  pub : decodeServerChannelEvent (encodeServerChannelEvent data []) = .ok (data, [])
  encoded : ∀ event id, decodeServerChannelEvent raw = .ok (event, id) →
    encodeServerChannelEvent event id = raw
  marked : ∀ rest, raw = 0x01 :: rest → ∀ event, decodeServerChannelEvent raw ≠ .ok (event, [])

/-! ## Section 2: Encoding and decoding -/

variable {data id raw event : Bytes}

theorem toNat_ofNat_length (h : id.length < 256) : (UInt8.ofNat id.length).toNat = id.length :=
  UInt8.toNat_ofNat_of_lt' h

theorem decode_encode (hlength : id.length ≤ 255) :
    decodeServerChannelEvent (encodeServerChannelEvent data id) = .ok (data, id) := by
  unfold encodeServerChannelEvent
  split
  · next hpublic => exact hpublic ▸ rfl
  · simp [decodeServerChannelEvent, toNat_ofNat_length (Nat.lt_succ_of_le hlength)]

theorem decode_eq_ok (h : decodeServerChannelEvent raw = .ok (event, id)) :
    (raw = 0x00 :: event ∧ id = []) ∨
      (id.length < 256 ∧ raw = 0x01 :: UInt8.ofNat id.length :: (id ++ event)) := by
  cases raw with
  | nil => cases h
  | cons hint rest =>
    unfold decodeServerChannelEvent at h
    dsimp only at h
    by_cases hzero : hint = 0x00
    · rw [if_pos hzero] at h
      cases h
      exact .inl ⟨congrArg (· :: _) hzero, rfl⟩
    · rw [if_neg hzero] at h
      cases rest with
      | nil => cases h
      | cons chIDLen rest =>
        dsimp only at h
        split_ifs at h with hone
        obtain ⟨rfl, hle⟩ := hone
        cases h
        have hlength : (rest.take chIDLen.toNat).length = chIDLen.toNat := by
          rw [List.length_take, Nat.min_eq_left hle]
        refine .inr ⟨lt_of_eq_of_lt hlength chIDLen.toNat_lt, ?_⟩
        rw [hlength, UInt8.ofNat_toNat, List.take_append_drop]

/-- An empty id behind a one is decoded, and is never encoded. -/
theorem encode_of_decode (h : decodeServerChannelEvent raw = .ok (event, id)) :
    encodeServerChannelEvent event id = raw ↔ ¬ [0x01, 0x00] <+: raw := by
  rcases decode_eq_ok h with ⟨rfl, rfl⟩ | ⟨hlength, rfl⟩
  · exact iff_of_true rfl (by simp)
  · by_cases hid : id = []
    · subst hid
      exact iff_of_false (by simp [encodeServerChannelEvent]) (by simp)
    · refine iff_of_true (if_neg hid) fun hprefix => hid ?_
      -- the byte of the length is not zero
      have hzero : 0 = UInt8.ofNat id.length := by simpa using hprefix
      have hlen := toNat_ofNat_length hlength
      rw [← hzero] at hlen
      exact List.length_eq_zero_iff.mp hlen.symm

theorem decode_private {rest : Bytes} (hrest : ¬ [0x01, 0x00] <+: (0x01 :: rest : Bytes)) :
    decodeServerChannelEvent (0x01 :: rest) ≠ .ok (event, []) := by
  intro h
  have hpublic := (encode_of_decode h).mpr hrest
  rw [encodeServerChannelEvent, if_pos rfl] at hpublic
  cases hpublic

/-- All is as it should be but for the messages that are marked as private and have no id. -/
theorem scoped_iff (data id raw : Bytes) : Scoped data id raw ↔ ¬ [0x01, 0x00] <+: raw := by
  constructor
  · rintro h ⟨rest, rfl⟩
    exact h.marked (0x00 :: rest) rfl rest rfl
  · intro hraw
    refine ⟨fun _ => decode_encode, decode_encode (Nat.zero_le _),
      fun event id h => (encode_of_decode h).mpr hraw, ?_⟩
    rintro rest rfl event
    exact decode_private hraw

theorem not_scoped_empty : ¬ ∀ data id raw, Scoped data id raw := fun h =>
  (h [] [] [0x01, 0x00, 0x2a]).marked [0x00, 0x2a] rfl [0x2a] rfl

/-! ## Section 3: Whom the gateway sends an event -/

variable (channelClients : Bytes → List Client) (serverClients : List Client)

theorem recipients_private (hid : id ≠ []) (hlength : id.length ≤ 255) :
    recipients channelClients serverClients (encodeServerChannelEvent data id) =
      channelClients id := by
  rw [recipients, decode_encode hlength]
  exact if_pos hid

/-- What is marked as private reaches no more than one channel, unless it has no id. -/
theorem recipients_marked {rest : Bytes} (hrest : rest.head? ≠ some 0x00) :
    recipients channelClients serverClients (0x01 :: rest) = [] ∨
      ∃ id ≠ [], recipients channelClients serverClients (0x01 :: rest) = channelClients id := by
  unfold recipients
  rcases hdecode : decodeServerChannelEvent (0x01 :: rest) with e | ⟨event, id⟩
  · exact .inl rfl
  · refine .inr ⟨id, ?_, if_pos ?_⟩ <;>
    · rintro rfl
      refine decode_private (fun hprefix => hrest ?_) hdecode
      obtain ⟨rest', heq⟩ := hprefix
      cases heq
      rfl

end Meza.Gateway.ChannelEvents
