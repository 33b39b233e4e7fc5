import Meza.Permissions.Resolve

/-! # Two levels made one

    A category and a channel are two levels of overrides. When the category goes,
    its overrides move to the channel, as far as the channel has none for the same
    role or user. What a member had by the order of the levels is then decided
    among rows of one level, and some rows of the category are gone.

    `Kept` says for one bit when that makes no difference. -/

namespace Meza.Permissions
open Layered ResolveInput

/-! ## Section 1: The two inputs -/

/-- Only the channel level is left. `moved` are the role overrides of the category
    that the channel takes over. -/
def ResolveInput.flattened (input : ResolveInput) (moved : List Override) : ResolveInput :=
  { input with
    groupRoleOverrides := []
    channelRoleOverrides := input.channelRoleOverrides ++ moved
    groupUserOverride := none
    channelUserOverride := input.channelUserOverride.or input.groupUserOverride }

/-- Neither override for the user mentions the bit. -/
def ResolveInput.UserSilent (input : ResolveInput) (i : Nat) : Prop :=
  layerDecision i input.channelUserOverride.toList = none ∧
    layerDecision i input.groupUserOverride.toList = none

/-- The bit stays what it is when the levels become one. -/
structure ResolveInput.Kept (input : ResolveInput) (moved : List Override) (i : Nat) : Prop where
  /-- The category's override for the user goes if the channel has one; where only
      the former mentions the bit, the roles say the same. -/
  user : input.channelUserOverride ≠ none →
    layerDecision i input.channelUserOverride.toList = none →
    ∀ b, layerDecision i input.groupUserOverride.toList = some b →
      override (input.baseGrants i) (layerDecision i (input.channelRoleOverrides ++ moved)) = b
  /-- No moved override allows what the roles' overrides of the channel deny. -/
  denied : input.UserSilent i → layerDecision i input.channelRoleOverrides = some false →
    moved.any (Override.allows i) = false
  /-- Where the channel says nothing, the moved overrides speak for all overrides
      of the category. -/
  silent : input.UserSilent i → layerDecision i input.channelRoleOverrides = none →
    override (input.baseGrants i) (layerDecision i moved) =
      override (input.baseGrants i) (layerDecision i input.groupRoleOverrides)

/-- The mask stays: nothing is resolved by overrides, or the member keeps seeing the
    channel with all bits, or keeps not seeing it. -/
def ResolveInput.MaskKept (input : ResolveInput) (moved : List Override) (nowUnix : Int) : Prop :=
  input.isOwner = true ∨ input.baseGrants administratorBit = true ∨
    input.timedOut nowUnix = true ∨
    (input.Kept moved viewChannelBit ∧
      (input.layeredGrants viewChannelBit = true →
        ∀ i, channelScopedPermissions.getLsbD i = true → input.Kept moved i))

/-! ## Section 2: One bit -/

section Bit

variable {input : ResolveInput} {moved : List Override} {i : Nat}

theorem layerDecision_nil (i : Nat) : layerDecision i [] = none := rfl

theorem flattened_grants_of_scoped (hscoped : channelScopedPermissions.getLsbD i = true) :
    (input.flattened moved).layeredGrants i =
      override (override (input.baseGrants i)
        (layerDecision i (input.channelRoleOverrides ++ moved)))
        (layerDecision i (input.channelUserOverride.or input.groupUserOverride).toList) :=
  layeredGrants_of_scoped hscoped

theorem flattened_baseGrants (i : Nat) :
    (input.flattened moved).baseGrants i = input.baseGrants i := rfl

/-- Without a word about the user the roles decide, before and after. -/
theorem flattened_roles_iff (huser : input.UserSilent i) :
    override (input.baseGrants i)
        (layerDecision i (input.channelRoleOverrides ++ moved)) =
      override (override (input.baseGrants i)
        (layerDecision i input.groupRoleOverrides))
        (layerDecision i input.channelRoleOverrides) ↔
      input.Kept moved i := by
  unfold layerDecision
  rw [override_aggregate_append_iff]
  constructor
  · intro h
    refine ⟨?_, fun _ => h.1, fun _ => h.2⟩
    intro _ _ b hb
    exact absurd (huser.2.symm.trans hb) (by simp)
  · intro h
    exact ⟨h.denied huser, h.silent huser⟩

/-- **One level for two**: a bit of the scope stays exactly if it is `Kept`. -/
theorem flattened_grants_iff (hscoped : channelScopedPermissions.getLsbD i = true) :
    (input.flattened moved).layeredGrants i = input.layeredGrants i ↔ input.Kept moved i := by
  rw [flattened_grants_of_scoped hscoped, layeredGrants_of_scoped hscoped]
  cases hchannel : layerDecision i input.channelUserOverride.toList with
  | some b =>
    -- the channel's word about the user counts, before and after
    obtain ⟨o, ho⟩ : ∃ o, input.channelUserOverride = some o := by
      rw [← Option.ne_none_iff_exists']
      intro hnone
      rw [hnone] at hchannel
      cases hchannel
    have hleft : layerDecision i
        (input.channelUserOverride.or input.groupUserOverride).toList = some b := by
      rw [ho] at hchannel ⊢
      exact hchannel
    rw [hleft]
    refine iff_of_true rfl ⟨?_, ?_, ?_⟩
    · intro _ hsilent
      rw [hchannel] at hsilent
      cases hsilent
    · intro huser
      exact absurd (hchannel.symm.trans huser.1) (by simp)
    · intro huser
      exact absurd (hchannel.symm.trans huser.1) (by simp)
  | none =>
    cases hgroup : layerDecision i input.groupUserOverride.toList with
    | none =>
      have huser : input.UserSilent i := ⟨hchannel, hgroup⟩
      have hboth : layerDecision i
          (input.channelUserOverride.or input.groupUserOverride).toList = none := by
        cases hrow : input.channelUserOverride with
        | none => exact hgroup
        | some o =>
          rw [hrow] at hchannel
          exact hchannel
      rw [hboth]
      exact flattened_roles_iff huser
    | some b =>
      have hnot : ¬ input.UserSilent i := by
        intro huser
        exact absurd (hgroup.symm.trans huser.2) (by simp)
      cases hrow : input.channelUserOverride with
      | none =>
        -- the category's row for the user moves to the channel
        have hmoved : layerDecision i
            ((none : Option Override).or input.groupUserOverride).toList = some b := hgroup
        rw [hmoved]
        refine iff_of_true rfl ⟨?_, fun huser => absurd huser hnot, fun huser => absurd huser hnot⟩
        intro hsome
        exact absurd hrow hsome
      | some o =>
        -- it is lost behind the channel's own
        have hleft : layerDecision i ((some o).or input.groupUserOverride).toList = none := by
          rw [hrow] at hchannel
          exact hchannel
        rw [hleft]
        constructor
        · intro h
          refine ⟨?_, fun huser => absurd huser hnot, fun huser => absurd huser hnot⟩
          intro _ _ b' hb'
          rw [hgroup, Option.some.injEq] at hb'
          rw [← hb']
          exact h
        · intro h
          have hsome : input.channelUserOverride ≠ none := by
            rw [hrow]
            exact Option.some_ne_none o
          exact h.user hsome hchannel b hgroup

/-- A channel without overrides of its own takes over everything. -/
theorem kept_of_bare (huser : input.channelUserOverride = none)
    (hroles : input.channelRoleOverrides = []) (i : Nat) :
    input.Kept input.groupRoleOverrides i := by
  refine ⟨?_, ?_, fun _ _ => rfl⟩
  · intro hsome
    exact absurd huser hsome
  · intro _ hdenied
    rw [hroles] at hdenied
    cases hdenied

theorem maskKept_of_bare (huser : input.channelUserOverride = none)
    (hroles : input.channelRoleOverrides = []) (nowUnix : Int) :
    input.MaskKept input.groupRoleOverrides nowUnix :=
  .inr (.inr (.inr ⟨kept_of_bare huser hroles viewChannelBit,
    fun _ i _ => kept_of_bare huser hroles i⟩))

theorem flattened_grants_of_unscoped (hscoped : channelScopedPermissions.getLsbD i = false) :
    (input.flattened moved).layeredGrants i = input.layeredGrants i := by
  unfold layeredGrants
  simp only [hscoped, Bool.false_eq_true, if_false]
  rfl

end Bit

/-! ## Section 3: The mask -/

theorem viewChannel_scoped : channelScopedPermissions.getLsbD viewChannelBit = true := by decide

/-- Bit by bit: what is seen of the channel, and with which bits. -/
theorem seenBits_flattened_iff (input : ResolveInput) (moved : List Override) :
    (∀ i, ((input.flattened moved).layeredGrants viewChannelBit &&
        (input.flattened moved).layeredGrants i) =
          (input.layeredGrants viewChannelBit && input.layeredGrants i)) ↔
      input.Kept moved viewChannelBit ∧
        (input.layeredGrants viewChannelBit = true →
          ∀ i, channelScopedPermissions.getLsbD i = true → input.Kept moved i) := by
  constructor
  · intro hgrants
    have hview : (input.flattened moved).layeredGrants viewChannelBit =
        input.layeredGrants viewChannelBit := by
      have h := hgrants viewChannelBit
      rwa [Bool.and_self, Bool.and_self] at h
    refine ⟨(flattened_grants_iff viewChannel_scoped).mp hview, ?_⟩
    intro hsees i hscoped
    have h := hgrants i
    rw [hview, hsees, Bool.true_and, Bool.true_and] at h
    exact (flattened_grants_iff hscoped).mp h
  · intro h i
    obtain ⟨hkept, hrest⟩ := h
    rw [(flattened_grants_iff viewChannel_scoped).mpr hkept]
    cases hsees : input.layeredGrants viewChannelBit with
    | false => rfl
    | true =>
      cases hscoped : channelScopedPermissions.getLsbD i with
      | true => exact (flattened_grants_iff hscoped).mpr (hrest hsees i hscoped)
      | false => exact flattened_grants_of_unscoped hscoped

/-- **The mask of one level** is that of the two exactly if `MaskKept` says so. -/
theorem resolveEffective_flattened_iff (input : ResolveInput) (moved : List Override)
    (nowUnix : Int) :
    resolveEffective (input.flattened moved) nowUnix = resolveEffective input nowUnix ↔
      input.MaskKept moved nowUnix := by
  unfold MaskKept
  -- owners, administrators and timed out members are resolved without overrides
  cases howner : input.isOwner with
  | true =>
    refine iff_of_true ?_ (Or.inl rfl)
    rw [resolveEffective_eq, resolveEffective_eq, if_pos (Or.inl howner),
      if_pos (Or.inl (by exact howner))]
  | false =>
    cases hadmin : input.baseGrants administratorBit with
    | true =>
      refine iff_of_true ?_ (Or.inr (Or.inl rfl))
      rw [resolveEffective_eq, resolveEffective_eq, if_pos (Or.inr hadmin),
        if_pos (Or.inr (by exact hadmin))]
    | false =>
      cases htime : input.timedOut nowUnix with
      | true =>
        refine iff_of_true ?_ (Or.inr (Or.inr (Or.inl rfl)))
        have htime' : (input.flattened moved).timedOut nowUnix = true := htime
        have howner' : (input.flattened moved).isOwner = false := howner
        have hadmin' : (input.flattened moved).baseGrants administratorBit = false := hadmin
        rw [resolveEffective_eq, resolveEffective_eq]
        simp [howner, hadmin, htime, howner', hadmin', htime']
      | false =>
        have hbits := resolveEffective_getLsbD input nowUnix howner hadmin htime
        have hbits' := resolveEffective_getLsbD (input.flattened moved) nowUnix howner hadmin htime
        simp only [Bool.false_eq_true, false_or]
        rw [← seenBits_flattened_iff]
        constructor
        · intro hmask i
          rw [← hbits, ← hbits', hmask]
        · intro h
          apply BitVec.eq_of_getLsbD_eq
          intro i _
          rw [hbits, hbits', h]

end Meza.Permissions
