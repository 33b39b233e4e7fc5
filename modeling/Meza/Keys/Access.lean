import Meza.Keys.Service

/-! # Timeouts and channel keys

    A timeout replaces what a member may do by ViewChannel and
    ReadMessageHistory, before any override is looked at. This module follows
    that through `hasViewChannel` to the key envelopes. -/

namespace Meza.Keys

open Store Permissions Table Member BitMask

/-- The tables with the member's timeout set, as `SetMemberTimeout` does. -/
def withMemberTimeout (t : Tables) (serverID userID : ID) (timedOutUntil : Option Int) : Tables :=
  { t with
    members := updateWhere (fun m => m.serverID = serverID ∧ m.userID = userID)
      (fun m => { m with timedOutUntil }) t.members }

theorem lookup_withMemberTimeout (t : Tables) (serverID userID : ID) (newTimeout : Option Int) :
    lookup key (userID, serverID)
        (withMemberTimeout t serverID userID newTimeout).members =
      (lookup key (userID, serverID) t.members).map
        (fun m => { m with timedOutUntil := newTimeout }) := by
  have hkeys : ∀ m : Member, key { m with timedOutUntil := newTimeout } = m.key :=
    fun _ => rfl
  unfold withMemberTimeout
  rw [lookup_updateWhere hkeys]
  cases h : lookup key (userID, serverID) t.members with
  | none => rfl
  | some m =>
    have hkey := (mem_of_lookup h).2
    simp only [key, Prod.mk.injEq] at hkey
    simp [hkey.1, hkey.2]

theorem hasViewChannel_withMemberTimeout {t : Tables} {userID channelID : ID} {server : Server}
    {group : Option ID} {member : Member} (nowUnix : Int) (newTimeout : Option Int)
    (hch : channelServer t channelID = some (server, group)) (howner : server.ownerID ≠ userID)
    (hmember : lookup key (userID, server.id) t.members = some member) :
    hasViewChannel (withMemberTimeout t server.id userID newTimeout) nowUnix userID channelID =
      has (resolveEffective ((viewInput t server.id channelID group member).withTimeout
        (newTimeout.getD 0)) nowUnix) viewChannel := by
  have hch' : channelServer (withMemberTimeout t server.id userID newTimeout) channelID =
      some (server, group) := hch
  unfold hasViewChannel
  rw [hch']
  simp only [howner, ↓reduceIte, lookup_withMemberTimeout, hmember, Option.map_some]
  rfl

/-- **What a timeout does.** Beyond ViewChannel and ReadMessageHistory it only
    takes permissions away; these two it leaves or gives to everybody, so that a
    timed-out member sees every channel and may fetch the keys stored for them. -/
theorem timeout_effect {nowUnix timedOutUntil : Int} (hpos : 0 < timedOutUntil)
    (hactive : nowUnix < timedOutUntil) :
    (∀ input : ResolveInput, input.isOwner = false →
      resolveEffective (input.withTimeout timedOutUntil) nowUnix =
          (if input.baseGrants administratorBit = true then allPermissions
           else viewChannel ||| readMessageHistory) ∧
        Subset (resolveEffective (input.withTimeout timedOutUntil) nowUnix)
            (resolveEffective (input.withTimeout 0) nowUnix |||
              (viewChannel ||| readMessageHistory)) ∧
        (Subset (resolveEffective (input.withTimeout timedOutUntil) nowUnix)
            (resolveEffective (input.withTimeout 0) nowUnix) ↔
          input.baseGrants administratorBit = true ∨
            (input.layeredGrants viewChannelBit = true ∧
              input.layeredGrants readMessageHistoryBit = true))) ∧
    ∀ (t : Tables) (k : KeyTables) (userID channelID : ID) (server : Server) (group : Option ID)
      (member : Member), channelServer t channelID = some (server, group) →
      server.ownerID ≠ userID → channelID ≠ "" →
      lookup key (userID, server.id) t.members = some member →
      let input := viewInput t server.id channelID group member
      let timed := withMemberTimeout t server.id userID (some timedOutUntil)
      let free := withMemberTimeout t server.id userID none
      hasViewChannel timed nowUnix userID channelID = true ∧
        (hasViewChannel free nowUnix userID channelID = true ↔
          input.baseGrants administratorBit = true ∨
            input.layeredGrants viewChannelBit = true) ∧
        (∃ envelopes, Service.getKeyEnvelopes timed nowUnix k (some userID) channelID =
          .ok envelopes) ∧
        ((∃ envelopes, Service.getKeyEnvelopes free nowUnix k (some userID) channelID =
            .ok envelopes) ↔
          (input.baseGrants administratorBit = true ∨
            input.layeredGrants viewChannelBit = true) ∨
              isChannelMember t channelID userID = true) := by
  refine ⟨fun input howner => ⟨resolveEffective_timedOut input hpos hactive howner,
    timeout_subset_or input hpos hactive howner, timeout_subset_iff input hpos hactive howner⟩, ?_⟩
  intro t k userID channelID server group member hch howner hchannel hmember input timed free
  -- the timeout gives ViewChannel before any override is looked at
  have htimed : hasViewChannel timed nowUnix userID channelID = true := by
    rw [hasViewChannel_withMemberTimeout nowUnix _ hch howner hmember,
      has_viewChannel_resolveEffective _ _ rfl]
    have hrunning := withTimeout_timedOut (viewInput t server.id channelID group member)
      hpos hactive
    rw [Option.getD_some, hrunning, Bool.or_true, Bool.true_or]
  have hfree : hasViewChannel free nowUnix userID channelID = true ↔
      input.baseGrants administratorBit = true ∨ input.layeredGrants viewChannelBit = true := by
    rw [hasViewChannel_withMemberTimeout nowUnix _ hch howner hmember,
      has_viewChannel_resolveEffective _ _ rfl, Option.getD_none, withTimeout_zero_timedOut,
      Bool.or_false, Bool.or_eq_true]
    rfl
  refine ⟨htimed, hfree, ?_, ?_⟩
  · exact (Service.getKeyEnvelopes_isOk hchannel).mpr (Or.inl htimed)
  · -- `channel_members` is not touched by a timeout
    rw [Service.getKeyEnvelopes_isOk hchannel, hfree]
    rfl

/-- A private channel: `@everyone` may do the usual things, but a channel
    override denies ViewChannel. -/
def hiddenChannel : ResolveInput where
  everyonePerms := defaultEveryonePermissions
  rolePerms := []
  isOwner := false
  timedOutUntil := 0
  channelRoleOverrides := [{ allow := 0, deny := viewChannel }]

/-- A timeout that runs until 100 gives the member at time 0 two permissions
    that they do not have without it. -/
theorem timeout_gains_view :
    resolveEffective (hiddenChannel.withTimeout 100) 0 = viewChannel ||| readMessageHistory ∧
      resolveEffective (hiddenChannel.withTimeout 0) 0 = 0 ∧
      ¬ Subset (resolveEffective (hiddenChannel.withTimeout 100) 0)
        (resolveEffective (hiddenChannel.withTimeout 0) 0) := by
  decide

theorem timeout_effect_sample :
    Subset (resolveEffective (hiddenChannel.withTimeout 100) 0)
      (resolveEffective (hiddenChannel.withTimeout 0) 0 ||| (viewChannel ||| readMessageHistory)) :=
  ((@timeout_effect 0 100 (by decide) (by decide)).1 hiddenChannel rfl).2.1

end Meza.Keys
