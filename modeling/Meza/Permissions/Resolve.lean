import Meza.Lib.BitMask
import Meza.Lib.Layered

/-! # Effective permissions

    The permission bitfield of `internal/permissions/permissions.go` and the
    resolver every authorization decision goes through.

    `resolveEffective` is the function of the source, step by step.
    `layeredGrants` says, bit by bit, what it is for: the most specific
    override layer that mentions a channel-scoped bit decides it, and
    `@everyone` together with the member's roles decides the rest. -/

namespace Meza.Permissions
open BitMask Layered List

/-! ## Section 1: Permission bits -/

/-- Permission bitfields are Go `int64` values. -/
abbrev Mask : Type := BitVec 64

def kickMembers : Mask := 1 <<< 0
def banMembers : Mask := 1 <<< 1
def manageRoles : Mask := 1 <<< 2
def administrator : Mask := 1 <<< 3
def manageEmojis : Mask := 1 <<< 4
def manageChannels : Mask := 1 <<< 5
def manageMessages : Mask := 1 <<< 6
def timeoutMembers : Mask := 1 <<< 7
def viewAuditLog : Mask := 1 <<< 8
def exemptSlowMode : Mask := 1 <<< 9
def streamVideo : Mask := 1 <<< 10
def manageSoundboard : Mask := 1 <<< 11
def addReactions : Mask := 1 <<< 12
def viewChannel : Mask := 1 <<< 13
def sendMessages : Mask := 1 <<< 14
def connect : Mask := 1 <<< 15
def mentionEveryone : Mask := 1 <<< 16
def manageServer : Mask := 1 <<< 17
def createInvite : Mask := 1 <<< 18
def embedLinks : Mask := 1 <<< 19
def attachFiles : Mask := 1 <<< 20
def readMessageHistory : Mask := 1 <<< 21
def useExternalEmojis : Mask := 1 <<< 22
def speak : Mask := 1 <<< 23
def muteMembers : Mask := 1 <<< 24
def deafenMembers : Mask := 1 <<< 25
def moveMembers : Mask := 1 <<< 26
def changeNickname : Mask := 1 <<< 27
def manageNicknames : Mask := 1 <<< 28
def manageWebhooks : Mask := 1 <<< 29
def manageReports : Mask := 1 <<< 30

/-- The union of all defined permissions. -/
def allPermissions : Mask :=
  kickMembers ||| banMembers ||| manageRoles ||| administrator |||
  manageEmojis ||| manageChannels ||| manageMessages ||| timeoutMembers |||
  viewAuditLog ||| exemptSlowMode ||| streamVideo ||| manageSoundboard |||
  addReactions ||| viewChannel ||| sendMessages ||| connect ||| mentionEveryone |||
  manageServer ||| createInvite ||| embedLinks ||| attachFiles |||
  readMessageHistory ||| useExternalEmojis ||| speak ||| muteMembers |||
  deafenMembers ||| moveMembers ||| changeNickname ||| manageNicknames |||
  manageWebhooks ||| manageReports

/-- The bits valid in permission overrides. -/
def channelScopedPermissions : Mask :=
  manageMessages ||| exemptSlowMode ||| streamVideo |||
  manageSoundboard ||| addReactions ||| viewChannel ||| sendMessages |||
  connect ||| mentionEveryone ||| manageEmojis ||| embedLinks ||| attachFiles |||
  readMessageHistory ||| useExternalEmojis ||| speak ||| muteMembers |||
  deafenMembers ||| moveMembers ||| manageWebhooks

/-- What the `@everyone` role of a new server grants. -/
def defaultEveryonePermissions : Mask :=
  viewChannel ||| sendMessages ||| connect ||| speak |||
  addReactions ||| readMessageHistory ||| embedLinks ||| attachFiles |||
  useExternalEmojis ||| createInvite ||| changeNickname

/-- Administrator grants all permissions. -/
def has (combined perm : Mask) : Bool :=
  if combined &&& administrator ≠ 0 then true else combined &&& perm ≠ 0

/-- The bitwise OR of all permissions. -/
def combine (perms : List Mask) : Mask := perms.foldl (· ||| ·) 0

/-- Rejects unknown bits. -/
def validate (perms : Mask) : Bool := perms &&& ~~~allPermissions = 0

/-- Rejects bits that are not valid for permission overrides. -/
def validateChannelScoped (perms : Mask) : Bool :=
  perms &&& ~~~channelScopedPermissions = 0

theorem combine_subset {perms : List Mask} {bound : Mask}
    (h : ∀ p ∈ perms, Subset p bound) : Subset (combine perms) bound :=
  foldl_or_subset (zero_subset _) h

theorem combine_getLsbD (perms : List Mask) (i : Nat) :
    (combine perms).getLsbD i = perms.any (·.getLsbD i) := by
  unfold combine
  rw [getLsbD_foldl_or]
  simp

theorem subset_combine {perms : List Mask} {p : Mask} (h : p ∈ perms) : Subset p (combine perms) :=
  subset_foldl_or_of_mem h 0

/-! ## Section 2: The resolver -/

/-- An allow/deny pair for a channel or category override. -/
structure Override where
  allow : Mask
  deny : Mask
  deriving DecidableEq, Repr

/-- All data needed to compute effective permissions. -/
structure ResolveInput where
  everyonePerms : Mask
  rolePerms : List Mask
  isOwner : Bool
  /-- Unix timestamp; 0 means not timed out. -/
  timedOutUntil : Int
  groupRoleOverrides : List Override := []
  channelRoleOverrides : List Override := []
  groupUserOverride : Option Override := none
  channelUserOverride : Option Override := none
  deriving DecidableEq, Repr

/-- `@everyone` together with all assigned roles. -/
def ResolveInput.base (input : ResolveInput) : Mask :=
  input.rolePerms.foldl (· ||| ·) input.everyonePerms

/-- The timeout is running at `nowUnix`. -/
def ResolveInput.timedOut (input : ResolveInput) (nowUnix : Int) : Bool :=
  input.timedOutUntil > 0 ∧ nowUnix < input.timedOutUntil

/-- Accumulates the channel-scoped allow and deny masks of a list of role
    overrides, as the loops of steps 5 and 6 do. -/
def aggregateOverrides (ovrs : List Override) : Override :=
  ovrs.foldl (fun acc ovr =>
      { allow := acc.allow ||| (ovr.allow &&& channelScopedPermissions)
        deny := acc.deny ||| (ovr.deny &&& channelScopedPermissions) })
    { allow := 0, deny := 0 }

/-- `(base & ^deny) | allow`. -/
def applyLayer (base : Mask) (ovr : Override) : Mask :=
  (base &&& ~~~ovr.deny) ||| ovr.allow

/-- A user override, restricted to the channel-scoped bits. -/
def Override.scoped (ovr : Override) : Override :=
  { allow := ovr.allow &&& channelScopedPermissions
    deny := ovr.deny &&& channelScopedPermissions }

def applyUserOverride (base : Mask) : Option Override → Mask
  | none => base
  | some ovr => applyLayer base ovr.scoped

/-- Steps 5 to 8: the four override layers, least specific first. -/
def applyOverrides (input : ResolveInput) (base : Mask) : Mask :=
  let base := applyLayer base (aggregateOverrides input.groupRoleOverrides)
  let base := applyLayer base (aggregateOverrides input.channelRoleOverrides)
  let base := applyUserOverride base input.groupUserOverride
  applyUserOverride base input.channelUserOverride

def resolveEffective (input : ResolveInput) (nowUnix : Int) : Mask :=
  -- 1. Owner bypass.
  if input.isOwner then allPermissions
  else
    -- 2. Base = @everyone | all role perms.
    let base := input.base
    -- 3. Administrator short-circuit.
    if base &&& administrator ≠ 0 then allPermissions
    -- 4. Timeout strip.
    else if input.timedOut nowUnix then viewChannel ||| readMessageHistory
    else
      let base := applyOverrides input base
      -- 9. ViewChannel denied → no permissions in this channel.
      if base &&& viewChannel = 0 then 0 else base

/-! ## Section 3: The layered specification -/

/-- Bit numbers of the three permissions the resolver names. -/
def administratorBit : Nat := 3
def viewChannelBit : Nat := 13
def readMessageHistoryBit : Nat := 21

/-- And of two that it does not. -/
def sendMessagesBit : Nat := 14
def mentionEveryoneBit : Nat := 16

/-- `@everyone` or one of the roles grants bit `i`. -/
def ResolveInput.baseGrants (input : ResolveInput) (i : Nat) : Bool :=
  input.everyonePerms.getLsbD i || input.rolePerms.any (·.getLsbD i)

def Override.allows (i : Nat) (ovr : Override) : Bool := ovr.allow.getLsbD i

def Override.denies (i : Nat) (ovr : Override) : Bool := ovr.deny.getLsbD i

/-- The override layers, most specific first. -/
def ResolveInput.layers (input : ResolveInput) : List (List Override) :=
  [input.channelUserOverride.toList, input.groupUserOverride.toList,
   input.channelRoleOverrides, input.groupRoleOverrides]

/-- What one layer says about bit `i`: allow beats deny over all its overrides,
    and a layer in which no override mentions the bit says nothing. -/
def layerDecision (i : Nat) (ovrs : List Override) : Option Bool :=
  aggregate (Override.allows i) (Override.denies i) ovrs

/-- Bit `i` after all layers: a channel-scoped bit is decided by the most
    specific layer that mentions it, any other bit by `@everyone` and roles. -/
def ResolveInput.layeredGrants (input : ResolveInput) (i : Nat) : Bool :=
  if channelScopedPermissions.getLsbD i then
    decision (input.layers.map (layerDecision i)) (input.baseGrants i)
  else input.baseGrants i

theorem layeredGrants_of_scoped {input : ResolveInput} {i : Nat}
    (hscoped : channelScopedPermissions.getLsbD i = true) :
    input.layeredGrants i =
      override (override (override (override (input.baseGrants i)
        (layerDecision i input.groupRoleOverrides))
        (layerDecision i input.channelRoleOverrides))
        (layerDecision i input.groupUserOverride.toList))
        (layerDecision i input.channelUserOverride.toList) := by
  unfold ResolveInput.layeredGrants ResolveInput.layers
  rw [if_pos hscoped]
  simp only [List.map_cons, List.map_nil, decision_cons, decision_nil]

theorem administrator_eq : administrator = single 64 administratorBit := rfl
theorem viewChannel_eq : viewChannel = single 64 viewChannelBit := rfl
theorem readMessageHistory_eq : readMessageHistory = single 64 readMessageHistoryBit := rfl
theorem sendMessages_eq : sendMessages = single 64 sendMessagesBit := rfl
theorem mentionEveryone_eq : mentionEveryone = single 64 mentionEveryoneBit := rfl

/-! ## Section 4: The resolver meets the specification -/

theorem base_getLsbD (input : ResolveInput) (i : Nat) : input.base.getLsbD i = input.baseGrants i :=
  getLsbD_foldl_or input.rolePerms input.everyonePerms i

theorem applyLayer_getLsbD (base : Mask) (ovr : Override) (i : Nat) :
    (applyLayer base ovr).getLsbD i =
      override (base.getLsbD i) (allowDeny (ovr.allow.getLsbD i) (ovr.deny.getLsbD i)) := by
  rw [override_allowDeny]
  by_cases hi : i < 64
  · simp [applyLayer, hi]
  · -- past the width both sides are false
    simp [BitVec.getLsbD_of_ge _ i (by omega : 64 ≤ i)]

/-- The loops of steps 5 and 6 collect, for every bit, whether some override
    allows it and whether some override denies it. -/
theorem aggregateOverrides_getLsbD (ovrs : List Override) (i : Nat) :
    (aggregateOverrides ovrs).allow.getLsbD i =
        (channelScopedPermissions.getLsbD i && ovrs.any (Override.allows i)) ∧
      (aggregateOverrides ovrs).deny.getLsbD i =
        (channelScopedPermissions.getLsbD i && ovrs.any (Override.denies i)) := by
  -- The accumulator is general, so that the induction covers every prefix.
  suffices h : ∀ (acc : Override),
      let out := ovrs.foldl (fun acc ovr =>
          ({ allow := acc.allow ||| (ovr.allow &&& channelScopedPermissions)
             deny := acc.deny ||| (ovr.deny &&& channelScopedPermissions) } : Override)) acc
      out.allow.getLsbD i =
          (acc.allow.getLsbD i ||
            (channelScopedPermissions.getLsbD i && ovrs.any (Override.allows i))) ∧
        out.deny.getLsbD i =
          (acc.deny.getLsbD i ||
            (channelScopedPermissions.getLsbD i && ovrs.any (Override.denies i))) by
    simpa [aggregateOverrides] using h { allow := 0, deny := 0 }
  induction ovrs with
  | nil => intro acc; simp
  | cons o os ih =>
    intro acc
    -- the rest of the list starts with what this override has added
    obtain ⟨ha, hd⟩ := ih
      { allow := acc.allow ||| (o.allow &&& channelScopedPermissions)
        deny := acc.deny ||| (o.deny &&& channelScopedPermissions) }
    simp only [foldl_cons, any_cons]
    constructor
    · rw [ha, BitVec.getLsbD_or, BitVec.getLsbD_and, Override.allows]
      cases acc.allow.getLsbD i <;> cases o.allow.getLsbD i <;>
        cases channelScopedPermissions.getLsbD i <;> simp
    · rw [hd, BitVec.getLsbD_or, BitVec.getLsbD_and, Override.denies]
      cases acc.deny.getLsbD i <;> cases o.deny.getLsbD i <;>
        cases channelScopedPermissions.getLsbD i <;> simp

theorem applyLayer_aggregate_getLsbD (base : Mask) (ovrs : List Override) (i : Nat) :
    (applyLayer base (aggregateOverrides ovrs)).getLsbD i =
      if channelScopedPermissions.getLsbD i then
        override (base.getLsbD i) (layerDecision i ovrs)
      else base.getLsbD i := by
  obtain ⟨ha, hd⟩ := aggregateOverrides_getLsbD ovrs i
  rw [applyLayer_getLsbD, ha, hd]
  cases channelScopedPermissions.getLsbD i
  · simp [allowDeny, override]
  · simp [layerDecision, aggregate]

theorem applyUserOverride_getLsbD (base : Mask) (o : Option Override) (i : Nat) :
    (applyUserOverride base o).getLsbD i =
      if channelScopedPermissions.getLsbD i then
        override (base.getLsbD i) (layerDecision i o.toList)
      else base.getLsbD i := by
  cases o with
  | none =>
    simp [applyUserOverride, layerDecision, aggregate, allowDeny, override]
  | some ovr =>
    rw [applyUserOverride, applyLayer_getLsbD]
    simp only [Override.scoped, BitVec.getLsbD_and]
    cases channelScopedPermissions.getLsbD i
    · simp [allowDeny, override]
    · simp [layerDecision, aggregate, Override.allows, Override.denies]

/-- Steps 2 and 5 to 8 compute the layered specification. -/
theorem applyOverrides_getLsbD (input : ResolveInput) (i : Nat) :
    (applyOverrides input input.base).getLsbD i = input.layeredGrants i := by
  simp only [applyOverrides, applyUserOverride_getLsbD, applyLayer_aggregate_getLsbD,
    base_getLsbD, ResolveInput.layeredGrants]
  cases channelScopedPermissions.getLsbD i
  · simp
  · simp only [↓reduceIte, ResolveInput.layers, map_cons, map_nil]
    -- the code applies the layers from the category roles upwards
    rw [← foldr_override]
    rfl

theorem base_administrator (input : ResolveInput) :
    input.base &&& administrator ≠ 0 ↔ input.baseGrants administratorBit = true := by
  rw [administrator_eq, ← base_getLsbD]
  exact and_single_ne_zero _ (by decide)

theorem applyOverrides_viewChannel (input : ResolveInput) :
    applyOverrides input input.base &&& viewChannel = 0 ↔
      input.layeredGrants viewChannelBit = false := by
  rw [viewChannel_eq, ← applyOverrides_getLsbD]
  exact and_single_eq_zero _ (by decide)

/-- What the resolver returns, with every mask test read as a bit. -/
theorem resolveEffective_eq (input : ResolveInput) (nowUnix : Int) :
    resolveEffective input nowUnix =
      if input.isOwner ∨ input.baseGrants administratorBit = true then allPermissions
      else if input.timedOut nowUnix then viewChannel ||| readMessageHistory
      else if input.layeredGrants viewChannelBit = false then 0
      else applyOverrides input input.base := by
  unfold resolveEffective
  simp only [base_administrator, applyOverrides_viewChannel]
  cases input.isOwner
  · simp
  · simp

/-- For a member who is neither owner, Administrator nor timed out, a bit is
    granted iff the layers grant it and they grant ViewChannel. -/
theorem resolveEffective_getLsbD (input : ResolveInput) (nowUnix : Int)
    (howner : input.isOwner = false)
    (hadmin : input.baseGrants administratorBit = false)
    (htime : input.timedOut nowUnix = false) (i : Nat) :
    (resolveEffective input nowUnix).getLsbD i =
      (input.layeredGrants viewChannelBit && input.layeredGrants i) := by
  rw [resolveEffective_eq]
  simp only [howner, hadmin, htime, Bool.false_eq_true, or_self, ↓reduceIte]
  by_cases hview : input.layeredGrants viewChannelBit = false
  · simp [hview]
  · rw [if_neg hview, applyOverrides_getLsbD]
    simp [hview]

/-! ## Section 5: Bounds and independence of list order -/

/-- Every mask of the input passes `validate`. -/
structure ResolveInput.Valid (input : ResolveInput) : Prop where
  everyone : validate input.everyonePerms = true
  roles : ∀ p ∈ input.rolePerms, validate p = true
  overrides : ∀ layer ∈ input.layers, ∀ ovr ∈ layer,
    validate ovr.allow = true ∧ validate ovr.deny = true

/-- Two inputs that differ only in the order and multiplicity of the roles and
    of the role overrides. -/
structure ResolveInput.SameUpToOrder (input input' : ResolveInput) : Prop where
  everyonePerms : input'.everyonePerms = input.everyonePerms
  isOwner : input'.isOwner = input.isOwner
  timedOutUntil : input'.timedOutUntil = input.timedOutUntil
  groupUserOverride : input'.groupUserOverride = input.groupUserOverride
  channelUserOverride : input'.channelUserOverride = input.channelUserOverride
  rolePerms : ∀ p, p ∈ input'.rolePerms ↔ p ∈ input.rolePerms
  groupRoleOverrides : ∀ o, o ∈ input'.groupRoleOverrides ↔ o ∈ input.groupRoleOverrides
  channelRoleOverrides : ∀ o, o ∈ input'.channelRoleOverrides ↔ o ∈ input.channelRoleOverrides

theorem validate_iff (p : Mask) : validate p = true ↔ BitMask.Subset p allPermissions := by
  simp [validate, BitMask.Subset]

theorem channelScoped_subset_all : Subset channelScopedPermissions allPermissions := by decide

/-- A bit the layers grant is a defined permission: outside the channel-scoped
    bits only `@everyone` and the roles speak, and those are validated. -/
theorem layeredGrants_defined (input : ResolveInput)
    (heveryone : validate input.everyonePerms = true)
    (hroles : ∀ p ∈ input.rolePerms, validate p = true)
    (i : Nat) (h : input.layeredGrants i = true) : allPermissions.getLsbD i = true := by
  by_cases hscope : channelScopedPermissions.getLsbD i = true
  · exact (subset_iff _ _).mp channelScoped_subset_all i hscope
  · rw [ResolveInput.layeredGrants, if_neg hscope, ResolveInput.baseGrants,
      Bool.or_eq_true, any_eq_true] at h
    rcases h with h | ⟨p, hp, h⟩
    · exact (subset_iff _ _).mp ((validate_iff _).mp heveryone) i h
    · exact (subset_iff _ _).mp ((validate_iff _).mp (hroles p hp)) i h

theorem resolveEffective_subset (input : ResolveInput) (nowUnix : Int)
    (heveryone : validate input.everyonePerms = true)
    (hroles : ∀ p ∈ input.rolePerms, validate p = true) :
    Subset (resolveEffective input nowUnix) allPermissions := by
  rw [resolveEffective_eq]
  split
  · exact subset_refl _
  · split
    · -- the mask of a timeout is a constant
      decide
    · split
      · exact zero_subset _
      · rw [subset_iff]
        intro i hi
        rw [applyOverrides_getLsbD] at hi
        exact layeredGrants_defined input heveryone hroles i hi

theorem any_congr_mem {α : Type*} {xs ys : List α} (f : α → Bool)
    (h : ∀ x, x ∈ ys ↔ x ∈ xs) : ys.any f = xs.any f := by
  rw [Bool.eq_iff_iff, any_eq_true, any_eq_true]
  exact exists_congr fun x => and_congr_left' (h x)

theorem layerDecision_congr {xs ys : List Override} (i : Nat)
    (h : ∀ o, o ∈ ys ↔ o ∈ xs) : layerDecision i ys = layerDecision i xs := by
  unfold layerDecision aggregate
  rw [any_congr_mem _ h, any_congr_mem _ h]

variable {nowUnix u : Int} {input input' : ResolveInput}

theorem ResolveInput.SameUpToOrder.baseGrants (h : input.SameUpToOrder input') (i : Nat) :
    input'.baseGrants i = input.baseGrants i := by
  unfold ResolveInput.baseGrants
  rw [h.everyonePerms, any_congr_mem _ h.rolePerms]

theorem layeredGrants_congr (i : Nat) (hbase : input'.baseGrants i = input.baseGrants i)
    (hlayers : input'.layers.map (layerDecision i) = input.layers.map (layerDecision i)) :
    input'.layeredGrants i = input.layeredGrants i := by
  unfold ResolveInput.layeredGrants
  rw [hlayers, hbase]

theorem ResolveInput.SameUpToOrder.layeredGrants (h : input.SameUpToOrder input') (i : Nat) :
    input'.layeredGrants i = input.layeredGrants i := by
  apply layeredGrants_congr i (h.baseGrants i)
  simp only [ResolveInput.layers, map_cons, map_nil, h.channelUserOverride,
    h.groupUserOverride, layerDecision_congr i h.channelRoleOverrides,
    layerDecision_congr i h.groupRoleOverrides]

/-- The resolver sees of its lists only what they grant. -/
theorem resolveEffective_eq_of_grants (nowUnix : Int) (howner : input'.isOwner = input.isOwner)
    (htimeout : input'.timedOutUntil = input.timedOutUntil)
    (hbase : ∀ i, input'.baseGrants i = input.baseGrants i)
    (hgrants : ∀ i, input'.layeredGrants i = input.layeredGrants i) :
    resolveEffective input' nowUnix = resolveEffective input nowUnix := by
  have hlayered : applyOverrides input' input'.base = applyOverrides input input.base := by
    apply BitVec.eq_of_getLsbD_eq
    intro i _
    rw [applyOverrides_getLsbD, applyOverrides_getLsbD, hgrants]
  have htime : input'.timedOut nowUnix = input.timedOut nowUnix := by
    unfold ResolveInput.timedOut
    rw [htimeout]
  rw [resolveEffective_eq, resolveEffective_eq, howner, hbase, hgrants, hlayered, htime]

/-- The resolver reads its lists as sets. -/
theorem resolveEffective_congr (nowUnix : Int) (h : input.SameUpToOrder input') :
    resolveEffective input' nowUnix = resolveEffective input nowUnix :=
  resolveEffective_eq_of_grants nowUnix h.isOwner h.timedOutUntil h.baseGrants h.layeredGrants

/-! ## Section 6: Timeouts and ViewChannel -/

theorem has_iff (combined perm : Mask) :
    has combined perm = true ↔
      combined.getLsbD administratorBit = true ∨ combined &&& perm ≠ 0 := by
  unfold has
  rw [← and_single_ne_zero combined (by decide : administratorBit < 64), ← administrator_eq]
  by_cases hadmin : combined &&& administrator ≠ 0
  · rw [if_pos hadmin]
    exact iff_of_true rfl (.inl hadmin)
  · rw [if_neg hadmin, decide_eq_true_eq]
    exact ⟨.inr, fun h => h.resolve_left hadmin⟩

section

variable (input : ResolveInput)

/-- Who is not the owner sees the channel as an Administrator, while timed out,
    or because the layers say so. -/
theorem has_viewChannel_resolveEffective (nowUnix : Int)
    (howner : input.isOwner = false) :
    has (resolveEffective input nowUnix) viewChannel =
      (input.baseGrants administratorBit || input.timedOut nowUnix ||
        input.layeredGrants viewChannelBit) := by
  rw [resolveEffective_eq, howner]
  -- one case for each step of the resolver that may return
  by_cases hadmin : input.baseGrants administratorBit = true
  · rw [if_pos (Or.inr hadmin), hadmin, Bool.true_or, Bool.true_or]
    decide
  · rw [if_neg (by simpa using hadmin)]
    rw [Bool.not_eq_true] at hadmin
    by_cases htime : input.timedOut nowUnix = true
    · rw [if_pos htime, hadmin, htime, Bool.false_or, Bool.true_or]
      decide
    · rw [if_neg htime]
      rw [Bool.not_eq_true] at htime
      by_cases hview : input.layeredGrants viewChannelBit = false
      · rw [if_pos hview, hadmin, htime, hview]
        decide
      · rw [if_neg hview]
        have hset := mt (applyOverrides_viewChannel input).mp hview
        rw [Bool.not_eq_false] at hview
        rw [hview, Bool.or_true]
        exact (has_iff _ _).mpr (.inr hset)

/-- The same member with another timeout. -/
def ResolveInput.withTimeout (input : ResolveInput) (timedOutUntil : Int) : ResolveInput :=
  { input with timedOutUntil := timedOutUntil }

@[simp] theorem withTimeout_isOwner (u : Int) :
    (input.withTimeout u).isOwner = input.isOwner := rfl

@[simp] theorem withTimeout_baseGrants (u : Int) (i : Nat) :
    (input.withTimeout u).baseGrants i = input.baseGrants i := rfl

theorem withTimeout_zero_timedOut (nowUnix : Int) :
    (input.withTimeout 0).timedOut nowUnix = false := by
  simp [ResolveInput.timedOut, ResolveInput.withTimeout]

theorem withTimeout_timedOut (hpos : 0 < u) (hactive : nowUnix < u) :
    (input.withTimeout u).timedOut nowUnix = true := by
  simp [ResolveInput.timedOut, ResolveInput.withTimeout, hpos, hactive]

/-- A running timeout leaves an Administrator alone and gives everybody else
    exactly two bits. -/
theorem resolveEffective_timedOut (hpos : 0 < u) (hactive : nowUnix < u)
    (howner : input.isOwner = false) :
    resolveEffective (input.withTimeout u) nowUnix =
      if input.baseGrants administratorBit = true then allPermissions
      else viewChannel ||| readMessageHistory := by
  rw [resolveEffective_eq, withTimeout_timedOut input hpos hactive]
  simp [howner]

theorem resolveEffective_withoutTimeout_getLsbD (nowUnix : Int)
    (howner : input.isOwner = false) (hadmin : input.baseGrants administratorBit = false)
    (i : Nat) :
    (resolveEffective (input.withTimeout 0) nowUnix).getLsbD i =
      (input.layeredGrants viewChannelBit && input.layeredGrants i) :=
  resolveEffective_getLsbD (input.withTimeout 0) nowUnix howner hadmin
    (withTimeout_zero_timedOut input nowUnix) i

theorem stripped_getLsbD (i : Nat) :
    (viewChannel ||| readMessageHistory).getLsbD i =
      decide (i = viewChannelBit ∨ i = readMessageHistoryBit) := by
  rw [BitVec.getLsbD_or, viewChannel_eq, readMessageHistory_eq,
    getLsbD_single _ _ (by decide), getLsbD_single _ _ (by decide)]
  simp [eq_comm]

/-- Every defined bit, in every case of the resolver. -/
theorem resolveEffective_getLsbD_eq (nowUnix : Int) {i : Nat}
    (hi : allPermissions.getLsbD i = true) :
    (resolveEffective input nowUnix).getLsbD i =
      (input.isOwner || input.baseGrants administratorBit ||
        if input.timedOut nowUnix then decide (i = viewChannelBit ∨ i = readMessageHistoryBit)
        else input.layeredGrants viewChannelBit && input.layeredGrants i) := by
  by_cases hall : input.isOwner = true ∨ input.baseGrants administratorBit = true
  · rw [resolveEffective_eq, if_pos hall, hi]
    rcases hall with howner | hadmin
    · simp [howner]
    · simp [hadmin]
  · obtain ⟨howner, hadmin⟩ := not_or.mp hall
    rw [Bool.not_eq_true] at howner hadmin
    rw [howner, hadmin]
    by_cases htime : input.timedOut nowUnix = true
    · rw [resolveEffective_eq, if_neg (by simp [howner, hadmin]), if_pos htime, if_pos htime,
        stripped_getLsbD]
      rfl
    · rw [if_neg htime]
      exact resolveEffective_getLsbD input nowUnix howner hadmin (Bool.eq_false_iff.mpr htime) i

/-- A channel-scoped permission is had as the owner, as an Administrator, or, out of a
    timeout, because the layers grant it together with ViewChannel. -/
theorem has_resolveEffective (nowUnix : Int) {i : Nat}
    (hi : channelScopedPermissions.getLsbD i = true)
    (hother : ¬ (i = viewChannelBit ∨ i = readMessageHistoryBit)) :
    has (resolveEffective input nowUnix) (single 64 i) = true ↔
      input.isOwner = true ∨ input.baseGrants administratorBit = true ∨
        (input.timedOut nowUnix = false ∧ input.layeredGrants viewChannelBit = true ∧
          input.layeredGrants i = true) := by
  have hdefined : allPermissions.getLsbD i = true :=
    (subset_iff _ _).mp channelScoped_subset_all i hi
  have hadmin : input.layeredGrants administratorBit = input.baseGrants administratorBit := by
    exact if_neg (by decide)
  rw [has_iff, and_single_ne_zero _ (BitVec.lt_of_getLsbD hi),
    resolveEffective_getLsbD_eq input nowUnix hdefined,
    resolveEffective_getLsbD_eq input nowUnix (by decide : allPermissions.getLsbD administratorBit),
    hadmin, decide_eq_false hother]
  -- what is left is about six truth values
  rcases input.isOwner <;> rcases input.baseGrants administratorBit <;>
    rcases input.timedOut nowUnix <;> simp [administratorBit, viewChannelBit, readMessageHistoryBit]

/-- When a timeout takes permissions away and adds none. -/
theorem timeout_subset_iff (hpos : 0 < u) (hactive : nowUnix < u)
    (howner : input.isOwner = false) :
    Subset (resolveEffective (input.withTimeout u) nowUnix)
        (resolveEffective (input.withTimeout 0) nowUnix) ↔
      input.baseGrants administratorBit = true ∨
        (input.layeredGrants viewChannelBit = true ∧
          input.layeredGrants readMessageHistoryBit = true) := by
  rw [resolveEffective_timedOut input hpos hactive howner]
  by_cases hadmin : input.baseGrants administratorBit = true
  · have hall : resolveEffective (input.withTimeout 0) nowUnix = allPermissions := by
      rw [resolveEffective_eq]
      simp [hadmin]
    rw [if_pos hadmin, hall]
    exact iff_of_true (subset_refl _) (.inl hadmin)
  · rw [if_neg hadmin, subset_iff, or_iff_right hadmin]
    rw [Bool.not_eq_true] at hadmin
    have hbit := resolveEffective_withoutTimeout_getLsbD input nowUnix howner hadmin
    simp only [stripped_getLsbD, hbit, decide_eq_true_eq, Bool.and_eq_true]
    -- the strip has two bits, and without it every bit needs ViewChannel as well
    constructor
    · intro h
      exact ⟨(h viewChannelBit (.inl rfl)).1, (h readMessageHistoryBit (.inr rfl)).2⟩
    · rintro ⟨hview, hread⟩ i (rfl | rfl)
      · exact ⟨hview, hview⟩
      · exact ⟨hview, hread⟩

/-- Beyond those two bits a timeout only takes away. -/
theorem timeout_subset_or (hpos : 0 < u) (hactive : nowUnix < u)
    (howner : input.isOwner = false) :
    Subset (resolveEffective (input.withTimeout u) nowUnix)
      (resolveEffective (input.withTimeout 0) nowUnix |||
        (viewChannel ||| readMessageHistory)) := by
  by_cases hadmin : input.baseGrants administratorBit = true
  · exact ((timeout_subset_iff input hpos hactive howner).mpr (.inl hadmin)).trans
      (subset_or_left _ _)
  · rw [resolveEffective_timedOut input hpos hactive howner, if_neg hadmin]
    exact subset_or_right _ _

end

/-! ## Section 7: The whole specification -/

/-- **Layered resolution.** Channel-scoped bits follow the most specific layer
    that mentions them, other bits follow `@everyone` and the roles, a hidden
    channel gives nothing, and neither bounds nor list order can be escaped. -/
theorem resolveEffective_layered (input : ResolveInput) (nowUnix : Int)
    (hvalid : input.Valid) :
    (input.isOwner = false → input.baseGrants administratorBit = false →
      input.timedOut nowUnix = false →
        (input.layeredGrants viewChannelBit = true → ∀ i,
          (channelScopedPermissions.getLsbD i = true →
            (resolveEffective input nowUnix).getLsbD i =
              decision (input.layers.map (layerDecision i)) (input.baseGrants i)) ∧
          (channelScopedPermissions.getLsbD i = false →
            (resolveEffective input nowUnix).getLsbD i = input.baseGrants i)) ∧
        (input.layeredGrants viewChannelBit = false → resolveEffective input nowUnix = 0)) ∧
    Subset (resolveEffective input nowUnix) allPermissions ∧
    ∀ input', input.SameUpToOrder input' →
      resolveEffective input' nowUnix = resolveEffective input nowUnix := by
  refine ⟨?_, resolveEffective_subset input nowUnix hvalid.everyone hvalid.roles,
    fun input' h => resolveEffective_congr nowUnix h⟩
  intro howner hadmin htime
  have hbit := resolveEffective_getLsbD input nowUnix howner hadmin htime
  refine ⟨?_, ?_⟩
  · intro hview i
    have hi := hbit i
    rw [hview, Bool.true_and, ResolveInput.layeredGrants] at hi
    refine ⟨?_, ?_⟩
    · intro hscope
      rw [hi, if_pos hscope]
    · intro hscope
      rw [hi, if_neg (by simp [hscope])]
  · intro hview
    apply BitVec.eq_of_getLsbD_eq
    intro i _
    rw [hbit i, hview]
    simp

/-- A member with one role, a category deny and a channel allow for it. -/
def sampleInput : ResolveInput where
  everyonePerms := viewChannel ||| sendMessages
  rolePerms := [addReactions]
  isOwner := false
  timedOutUntil := 0
  groupRoleOverrides := [{ allow := 0, deny := sendMessages ||| speak }]
  channelRoleOverrides := [{ allow := sendMessages, deny := 0 }]

theorem resolveEffective_layered_sample :
    sampleInput.Valid ∧
      (resolveEffective sampleInput 0).getLsbD 14 =
        decision (sampleInput.layers.map (layerDecision 14)) (sampleInput.baseGrants 14) := by
  have hvalid : sampleInput.Valid := by
    refine ⟨by decide, ?_, ?_⟩
    · simp only [sampleInput, mem_singleton, forall_eq]
      decide
    · simp only [sampleInput, ResolveInput.layers, Option.toList_none, mem_cons,
        not_mem_nil, or_false, forall_eq_or_imp, forall_eq, false_implies,
        implies_true, true_and]
      decide
  have hspec := resolveEffective_layered sampleInput 0 hvalid
  refine ⟨hvalid, ?_⟩
  exact ((hspec.1 (by decide) (by decide) (by decide)).1 (by decide) 14).1 (by decide)

/-! ## Section 8: Granting more -/

/-- The second input grants whatever the first one does, layer by layer, and denies no more. -/
structure ResolveInput.AtMost (input input' : ResolveInput) : Prop where
  isOwner : input.isOwner = true → input'.isOwner = true
  timedOutUntil : input'.timedOutUntil = input.timedOutUntil
  base : Subset input.base input'.base
  layers : Forall₂ (fun ovrs ovrs' =>
    Subset (aggregateOverrides ovrs).allow (aggregateOverrides ovrs').allow ∧
      Subset (aggregateOverrides ovrs').deny (aggregateOverrides ovrs).deny)
    input.layers input'.layers

theorem ResolveInput.AtMost.baseGrants (h : input.AtMost input') (i : Nat)
    (hi : input.baseGrants i = true) : input'.baseGrants i = true := by
  rw [← base_getLsbD] at hi ⊢
  exact (subset_iff _ _).mp h.base i hi

theorem decision_layers_mono {layers layers' : List (List Override)} {i : Nat} {b b' : Bool}
    (hscoped : channelScopedPermissions.getLsbD i = true)
    (h : Forall₂ (fun ovrs ovrs' =>
      Subset (aggregateOverrides ovrs).allow (aggregateOverrides ovrs').allow ∧
        Subset (aggregateOverrides ovrs').deny (aggregateOverrides ovrs).deny) layers layers')
    (hb : b = true → b' = true) (hi : decision (layers.map (layerDecision i)) b = true) :
    decision (layers'.map (layerDecision i)) b' = true := by
  have hlayer : ∀ ovrs, layerDecision i ovrs =
      allowDeny ((aggregateOverrides ovrs).allow.getLsbD i)
        ((aggregateOverrides ovrs).deny.getLsbD i) := by
    intro ovrs
    rw [(aggregateOverrides_getLsbD ovrs i).1, (aggregateOverrides_getLsbD ovrs i).2, hscoped]
    rfl
  induction h with
  | nil => exact hb hi
  | cons hovrs _ ih =>
    rw [map_cons, decision_cons, hlayer] at hi ⊢
    exact override_allowDeny_mono ih ((subset_iff _ _).mp hovrs.1 i)
      ((subset_iff _ _).mp hovrs.2 i) hi

theorem ResolveInput.AtMost.layeredGrants (h : input.AtMost input') (i : Nat)
    (hi : input.layeredGrants i = true) : input'.layeredGrants i = true := by
  unfold ResolveInput.layeredGrants at hi ⊢
  by_cases hscoped : channelScopedPermissions.getLsbD i = true
  · rw [if_pos hscoped] at hi ⊢
    exact decision_layers_mono hscoped h.layers (h.baseGrants i) hi
  · rw [if_neg hscoped] at hi ⊢
    exact h.baseGrants i hi

end Meza.Permissions
