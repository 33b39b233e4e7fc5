import Meza.Permissions.Resolve

/-! # Source attribution

    `AttributeSources` explains where each permission bit of a member comes
    from. It is a second, hand-written walk through the nine steps of
    `resolveEffective`: it keeps the running mask together with a table that
    holds the latest source of every bit.

    The two walks treat the overrides of one role layer differently. The
    resolver collects the allows and denies of all roles first and lets allow
    win; the attribution applies the overrides one role after the other, so
    a later deny wins over an earlier allow. Section 5 says exactly for which
    inputs this shows. -/

namespace Meza.Permissions
open Layered List BitMask Override ResolveInput Function

/-! ## Section 1: Model -/

/-- Values of the proto enum `PermissionSourceType`; `unspecified` is its zero
    value. -/
inductive SourceType where
  | unspecified
  | baseRole
  | roleOverride
  | categoryOverride
  | channelOverride
  | userOverride
  | administrator
  | owner
  deriving DecidableEq, Repr

/-- Where a permission bit comes from. The defaults are Go's zero values. -/
structure Source where
  permission : Mask := 0
  granted : Bool := false
  sourceType : SourceType := .unspecified
  sourceName : String := ""
  deriving DecidableEq, Repr

structure AttributeSourcesInput extends ResolveInput where
  everyoneName : String
  /-- Parallel to `rolePerms`. -/
  roleNames : List String

/-- The running mask and the `bitSources` table. -/
structure Walk where
  effective : Mask
  bitSources : Mask → Option Source

/-- The bits of `for bit := 1; bit <= AllPermissions; bit <<= 1`, without those
    the loop body skips. -/
def permissionBits : List Mask :=
  (bitsUpTo allPermissions).filter (fun bit => allPermissions &&& bit ≠ 0)

/-- `name := "Role"`, replaced by the role's own name where there is one. -/
def roleName (roleNames : List String) (i : Nat) : String :=
  (roleNames[i]?).getD "Role"

/-- The source of a bit before any override: `@everyone` first, then the first
    role that grants it, else the denial is attributed to `@everyone`. -/
def baseSource (input : AttributeSourcesInput) (bit : Mask) : Source :=
  if input.everyonePerms &&& bit ≠ 0 then
    { permission := bit, granted := true, sourceType := .baseRole,
      sourceName := input.everyoneName }
  else
    match input.rolePerms.findIdx? (fun rp => rp &&& bit ≠ 0) with
    | some i =>
      { permission := bit, granted := true, sourceType := .baseRole,
        sourceName := roleName input.roleNames i }
    | none =>
      { permission := bit, granted := false, sourceType := .baseRole,
        sourceName := input.everyoneName }

/-- The table after the base loop. -/
def baseWalk (input : AttributeSourcesInput) : Walk where
  effective := input.base
  bitSources := fun bit =>
    if bit ∈ permissionBits then some (baseSource input bit) else none

/-- Records a decision for one bit. -/
def Walk.record (walk : Walk) (bit : Mask) (granted : Bool) (sourceType : SourceType)
    (sourceName : String) : Walk where
  effective := if granted then walk.effective ||| bit else walk.effective &&& ~~~bit
  bitSources := update walk.bitSources bit
    (some { permission := bit, granted := granted, sourceType := sourceType,
            sourceName := sourceName })

/-- The body of the bit loop of one override: deny first, then allow. -/
def applyBit (sourceType : SourceType) (sourceName : String) (allow deny : Mask)
    (walk : Walk) (bit : Mask) : Walk :=
  let walk := if deny &&& bit ≠ 0 then walk.record bit false sourceType sourceName else walk
  if allow &&& bit ≠ 0 then walk.record bit true sourceType sourceName else walk

/-- One override, restricted to the channel-scoped bits. -/
def applyOverride (sourceType : SourceType) (sourceName : String)
    (walk : Walk) (ovr : Override) : Walk :=
  (bitsUpTo channelScopedPermissions).foldl
    (applyBit sourceType sourceName ovr.scoped.allow ovr.scoped.deny) walk

/-- The four override loops, least specific first. -/
def applyAllOverrides (input : AttributeSourcesInput) (walk : Walk) : Walk :=
  let walk := input.groupRoleOverrides.foldl
    (applyOverride .categoryOverride "Category Override") walk
  let walk := input.channelRoleOverrides.foldl
    (applyOverride .channelOverride "Channel Override") walk
  let walk := input.groupUserOverride.toList.foldl
    (applyOverride .userOverride "Category User Override") walk
  input.channelUserOverride.toList.foldl
    (applyOverride .userOverride "Channel User Override") walk

def attributeSources (input : AttributeSourcesInput) (nowUnix : Int) : List Source :=
  -- Owner bypass: all permissions come from ownership.
  if input.isOwner then
    permissionBits.map fun bit =>
      { permission := bit, granted := true, sourceType := .owner,
        sourceName := "Server Owner" }
  -- Administrator short-circuit.
  else if input.base &&& administrator ≠ 0 then
    permissionBits.map fun bit =>
      { permission := bit, granted := true, sourceType := .administrator,
        sourceName := "Administrator" }
  -- Timeout strip.
  else if input.timedOut nowUnix then
    permissionBits.map fun bit =>
      { permission := bit, granted := bit = viewChannel ∨ bit = readMessageHistory,
        sourceType := .baseRole, sourceName := "Timed Out" }
  else
    let walk := applyAllOverrides input (baseWalk input)
    -- ViewChannel denied: all denied, each with the source it had.
    if walk.effective &&& viewChannel = 0 then
      permissionBits.map fun bit =>
        { (walk.bitSources bit).getD {} with granted := false }
    else permissionBits.filterMap walk.bitSources

/-- The OR of the permission bits of the granted sources. -/
def grantedMask (sources : List Source) : Mask :=
  combine ((sources.filter (·.granted)).map (·.permission))

/-! ## Section 2: The bit loops -/

theorem permissionBits_eq : permissionBits = (range 31).map (single 64) := by
  decide

theorem scopedBits_eq : bitsUpTo channelScopedPermissions = (range 30).map (single 64) := by
  decide

theorem allPermissions_getLsbD (i : Nat) : allPermissions.getLsbD i = decide (i < 31) := by
  have heq : allPermissions = .setWidth 64 (.allOnes 31) := by decide
  rw [heq, BitVec.getLsbD_setWidth, BitVec.getLsbD_allOnes]
  by_cases hi : i < 31
  · have hi' : i < 64 := by omega
    simp [hi, hi']
  · simp [hi]

variable {i : Nat} {walk : Walk}

theorem scoped_lt_thirty (h : channelScopedPermissions.getLsbD i = true) : i < 30 := by
  by_contra hge
  have hwidth : channelScopedPermissions =
      .setWidth 64 (.setWidth 30 channelScopedPermissions) := by decide
  rw [hwidth] at h
  simp only [BitVec.getLsbD_setWidth, Bool.and_eq_true, decide_eq_true_eq] at h
  omega

theorem mem_permissionBits {bit : Mask} : bit ∈ permissionBits ↔ ∃ i < 31, bit = single 64 i := by
  rw [permissionBits_eq, mem_map]
  constructor
  · intro hex
    obtain ⟨i, hi, rfl⟩ := hex
    exact ⟨i, mem_range.mp hi, rfl⟩
  · intro hex
    obtain ⟨i, hi, rfl⟩ := hex
    exact ⟨i, mem_range.mpr hi, rfl⟩

/-! ## Section 3: What one override does to one bit -/

theorem record_getLsbD (walk : Walk) (granted : Bool) (sourceType : SourceType)
    (sourceName : String) (i j : Nat) (hj : j < 64) :
    (walk.record (single 64 j) granted sourceType sourceName).effective.getLsbD i =
      if i = j then granted else walk.effective.getLsbD i := by
  unfold Walk.record
  by_cases hi : i < 64
  · by_cases hij : i = j
    · subst hij
      cases granted
      · simp [getLsbD_single i i hi]
      · simp [getLsbD_single i i hi]
    · have hji : ¬ j = i := fun h => hij h.symm
      have hbit : (single 64 j).getLsbD i = false := by
        simp [getLsbD_single j i hj, hji]
      cases granted
      · simp only [Bool.false_eq_true, ↓reduceIte, BitVec.getLsbD_and, BitVec.getLsbD_not,
          hbit, hi, hij, decide_true, Bool.not_false, Bool.and_true]
      · simp only [↓reduceIte, BitVec.getLsbD_or, hbit, hij, Bool.or_false]
  · have hij : i ≠ j := by omega
    simp [hij, BitVec.getLsbD_of_ge _ i (by omega : 64 ≤ i)]

theorem applyBit_getLsbD (sourceType : SourceType) (sourceName : String) (allow deny : Mask)
    (walk : Walk) (i j : Nat) (hj : j < 64) :
    (applyBit sourceType sourceName allow deny walk (single 64 j)).effective.getLsbD i =
      if i = j then
        override (walk.effective.getLsbD i) (allowDeny (allow.getLsbD i) (deny.getLsbD i))
      else walk.effective.getLsbD i := by
  simp only [applyBit, and_single_ne_zero _ hj]
  by_cases hij : i = j
  · subst hij
    cases ha : allow.getLsbD i
    · cases hd : deny.getLsbD i
      · simp [allowDeny, override]
      · simp [record_getLsbD _ _ _ _ _ _ hj, allowDeny, override]
    · simp [record_getLsbD _ _ _ _ _ _ hj, allowDeny, override]
  · cases allow.getLsbD j
    · cases deny.getLsbD j
      · simp [hij]
      · simp [record_getLsbD _ _ _ _ _ _ hj, hij]
    · cases deny.getLsbD j
      · simp [record_getLsbD _ _ _ _ _ _ hj, hij]
      · simp [record_getLsbD _ _ _ _ _ _ hj, hij]

/-- A loop over bits touches each visited bit once and no other. -/
theorem foldl_applyBit_getLsbD (sourceType : SourceType) (sourceName : String)
    (allow deny : Mask) (i : Nat) (js : List Nat) (hjs : ∀ j ∈ js, j < 64) (walk : Walk) :
    ((js.map (single 64)).foldl
        (applyBit sourceType sourceName allow deny) walk).effective.getLsbD i =
      if i ∈ js then
        override (walk.effective.getLsbD i) (allowDeny (allow.getLsbD i) (deny.getLsbD i))
      else walk.effective.getLsbD i := by
  induction js generalizing walk with
  | nil => simp
  | cons j js ih =>
    have hj : j < 64 := hjs j (by simp)
    have hrest : ∀ k ∈ js, k < 64 := fun k hk => hjs k (by simp [hk])
    simp only [map_cons, foldl_cons]
    rw [ih hrest, applyBit_getLsbD _ _ _ _ _ _ _ hj]
    -- a bit visited again would be overridden with the same decision
    by_cases hij : i = j
    · simp [hij, override_idem]
    · simp [hij]

/-- One override, seen at one bit: only channel-scoped bits can change. -/
theorem applyOverride_getLsbD (sourceType : SourceType) (sourceName : String)
    (walk : Walk) (ovr : Override) (i : Nat) :
    (applyOverride sourceType sourceName walk ovr).effective.getLsbD i =
      if channelScopedPermissions.getLsbD i then
        override (walk.effective.getLsbD i) (allowDeny (ovr.allows i) (ovr.denies i))
      else walk.effective.getLsbD i := by
  unfold applyOverride
  rw [scopedBits_eq, foldl_applyBit_getLsbD _ _ _ _ _ _ (by simp; omega)]
  simp only [Override.scoped, BitVec.getLsbD_and, Override.allows, Override.denies]
  by_cases hscope : channelScopedPermissions.getLsbD i = true
  · have hi : i < 30 := scoped_lt_thirty hscope
    simp [hscope, hi]
  · rw [Bool.not_eq_true] at hscope
    simp [hscope, allowDeny, override]

/-- A whole layer applied one override after the other. -/
theorem foldl_applyOverride_getLsbD (sourceType : SourceType) (sourceName : String)
    (ovrs : List Override) (walk : Walk) (i : Nat) :
    (ovrs.foldl (applyOverride sourceType sourceName) walk).effective.getLsbD i =
      if channelScopedPermissions.getLsbD i then
        inTurn (allows i) (denies i) ovrs (walk.effective.getLsbD i)
      else walk.effective.getLsbD i := by
  induction ovrs generalizing walk with
  | nil => simp [inTurn]
  | cons o os ih =>
    rw [foldl_cons, ih, applyOverride_getLsbD]
    by_cases hscope : channelScopedPermissions.getLsbD i = true
    · simp [hscope, inTurn]
    · simp [hscope]

/-- A bit after the four loops: each layer speaks in list order. -/
def ResolveInput.attributedGrants (input : ResolveInput) (i : Nat) : Bool :=
  if channelScopedPermissions.getLsbD i then
    input.layers.foldr
      (fun ovrs b => inTurn (allows i) (denies i) ovrs b)
      (input.baseGrants i)
  else input.baseGrants i

theorem applyAllOverrides_getLsbD (input : AttributeSourcesInput) (i : Nat) :
    (applyAllOverrides input (baseWalk input)).effective.getLsbD i = input.attributedGrants i := by
  simp only [applyAllOverrides, foldl_applyOverride_getLsbD, attributedGrants,
    layers, foldr_cons, foldr_nil]
  have hbase : (baseWalk input).effective.getLsbD i = input.baseGrants i :=
    base_getLsbD input.toResolveInput i
  rw [hbase]
  by_cases hscope : channelScopedPermissions.getLsbD i = true
  · simp [hscope]
  · simp [hscope]

/-! ## Section 4: The table tracks the running mask -/

/-- Every defined bit has a source of its own whose verdict is the bit of the
    running mask. -/
def Walk.Tracks (walk : Walk) : Prop :=
  ∀ i < 31, ∃ src, walk.bitSources (single 64 i) = some src ∧
    src.permission = single 64 i ∧ src.granted = walk.effective.getLsbD i

theorem record_tracks (h : walk.Tracks) (granted : Bool) (sourceType : SourceType)
    (sourceName : String) (j : Nat) (hj : j < 64) :
    (walk.record (single 64 j) granted sourceType sourceName).Tracks := by
  intro i hi
  rw [record_getLsbD _ _ _ _ _ _ hj]
  by_cases hij : i = j
  · subst hij
    refine ⟨_, update_self _ _ _, rfl, ?_⟩
    simp
  · obtain ⟨src, hsrc, hperm, hgrant⟩ := h i hi
    refine ⟨src, ?_, hperm, ?_⟩
    · have hne : single 64 i ≠ single 64 j := by
        intro heq
        exact hij (single_injective (by omega) heq)
      show update walk.bitSources _ _ _ = some src
      rw [update_of_ne hne]
      exact hsrc
    · rw [if_neg hij]
      exact hgrant

theorem applyBit_tracks (h : walk.Tracks) (sourceType : SourceType) (sourceName : String)
    (allow deny : Mask) (j : Nat) (hj : j < 64) :
    (applyBit sourceType sourceName allow deny walk (single 64 j)).Tracks := by
  have hdeny : (if deny &&& single 64 j ≠ 0 then
      walk.record (single 64 j) false sourceType sourceName else walk).Tracks := by
    split
    · exact record_tracks h _ _ _ j hj
    · exact h
  show (if allow &&& single 64 j ≠ 0 then _ else _ : Walk).Tracks
  split
  · exact record_tracks hdeny _ _ _ j hj
  · exact hdeny

theorem foldl_applyBit_tracks (sourceType : SourceType) (sourceName : String) (allow deny : Mask)
    (js : List Nat) (hjs : ∀ j ∈ js, j < 64) (h : walk.Tracks) :
    ((js.map (single 64)).foldl (applyBit sourceType sourceName allow deny) walk).Tracks := by
  induction js generalizing walk with
  | nil => exact h
  | cons j js ih =>
    have hj : j < 64 := hjs j (by simp)
    exact ih (fun k hk => hjs k (by simp [hk])) (applyBit_tracks h _ _ _ _ j hj)

theorem foldl_applyOverride_tracks (sourceType : SourceType) (sourceName : String)
    (ovrs : List Override) (h : walk.Tracks) :
    (ovrs.foldl (applyOverride sourceType sourceName) walk).Tracks := by
  induction ovrs generalizing walk with
  | nil => exact h
  | cons o os ih =>
    apply ih
    unfold applyOverride
    rw [scopedBits_eq]
    exact foldl_applyBit_tracks _ _ _ _ _ (by simp; omega) h

section

variable (input : AttributeSourcesInput)

/-- The base loop attributes a bit to somebody who grants it, or denies it. -/
theorem baseSource_spec (i : Nat) (hi : i < 64) :
    (baseSource input (single 64 i)).permission = single 64 i ∧
      (baseSource input (single 64 i)).granted = input.baseGrants i := by
  unfold baseSource
  simp only [and_single_ne_zero _ hi, baseGrants]
  by_cases heveryone : input.everyonePerms.getLsbD i = true
  · simp [heveryone]
  · rw [if_neg heveryone]
    rw [Bool.not_eq_true] at heveryone
    rw [heveryone, Bool.false_or]
    cases hfind : input.rolePerms.findIdx? (fun rp => decide (rp.getLsbD i = true)) with
    | none =>
      refine ⟨rfl, ?_⟩
      rw [findIdx?_eq_none_iff] at hfind
      show false = _
      rw [eq_comm, any_eq_false]
      intro p hp
      simpa using hfind p hp
    | some k =>
      refine ⟨rfl, ?_⟩
      obtain ⟨hk, hbit, -⟩ := findIdx?_eq_some_iff_getElem.mp hfind
      show true = _
      rw [eq_comm, any_eq_true]
      exact ⟨_, getElem_mem hk, by simpa using hbit⟩

theorem baseWalk_tracks : (baseWalk input).Tracks := by
  intro i hi
  obtain ⟨hperm, hgrant⟩ := baseSource_spec input i (by omega)
  refine ⟨baseSource input (single 64 i), ?_, hperm, ?_⟩
  · exact if_pos (mem_permissionBits.mpr ⟨i, hi, rfl⟩)
  · rw [hgrant]
    exact (base_getLsbD input.toResolveInput i).symm

theorem applyAllOverrides_tracks :
    (applyAllOverrides input (baseWalk input)).Tracks := by
  apply foldl_applyOverride_tracks
  apply foldl_applyOverride_tracks
  apply foldl_applyOverride_tracks
  apply foldl_applyOverride_tracks
  exact baseWalk_tracks input

/-! ## Section 5: Attribution against resolution -/

/-- The verdict the attribution gives for bit `i`. -/
def ResolveInput.attributedBit (input : ResolveInput) (nowUnix : Int) (i : Nat) : Bool :=
  if input.isOwner ∨ input.baseGrants administratorBit = true then true
  else if input.timedOut nowUnix then i = viewChannelBit ∨ i = readMessageHistoryBit
  else input.attributedGrants viewChannelBit && input.attributedGrants i

theorem filterMap_eq_map_getD {α β : Type*} (f : α → Option β) (d : β) (l : List α)
    (h : ∀ x ∈ l, (f x).isSome) : l.filterMap f = l.map (fun x => (f x).getD d) := by
  induction l with
  | nil => rfl
  | cons x xs ih =>
    have hx := h x (by simp)
    have hxs := ih (fun y hy => h y (by simp [hy]))
    rw [filterMap_cons, map_cons, ← hxs]
    cases hfx : f x with
    | none => simp [hfx] at hx
    | some y => simp

/-- The result is one source per defined bit, in bit order. -/
theorem attributeSources_shape (nowUnix : Int) :
    ∃ g : Nat → Source, attributeSources input nowUnix = (range 31).map g ∧
      ∀ i < 31, (g i).permission = single 64 i ∧ (g i).granted = input.attributedBit nowUnix i := by
  have hrange : ∀ f : Mask → Source,
      permissionBits.map f = (range 31).map (fun i => f (single 64 i)) := by
    intro f
    rfl
  unfold attributeSources attributedBit
  simp only [base_administrator input.toResolveInput]
  by_cases howner : input.isOwner = true
  · simp only [howner, ↓reduceIte, true_or, hrange]
    exact ⟨_, rfl, fun i _ => ⟨rfl, rfl⟩⟩
  by_cases hadmin : input.baseGrants administratorBit = true
  · simp only [howner, Bool.false_eq_true, ↓reduceIte, hadmin, or_true, hrange]
    exact ⟨_, rfl, fun i _ => ⟨rfl, rfl⟩⟩
  simp only [howner, hadmin, Bool.false_eq_true, ↓reduceIte, or_self, hrange]
  by_cases htime : input.timedOut nowUnix = true
  · simp only [htime, ↓reduceIte]
    refine ⟨_, rfl, fun i hi => ⟨rfl, ?_⟩⟩
    have hinj : ∀ j, single 64 i = single 64 j ↔ i = j := fun j =>
      ⟨single_injective (by omega), fun h => by rw [h]⟩
    simp only [viewChannel_eq, readMessageHistory_eq, hinj]
  simp only [htime, Bool.false_eq_true, ↓reduceIte]
  have htracks := applyAllOverrides_tracks input
  have hbits := applyAllOverrides_getLsbD input
  have hview : (applyAllOverrides input (baseWalk input)).effective &&& viewChannel = 0 ↔
      input.attributedGrants viewChannelBit = false := by
    rw [viewChannel_eq, ← hbits]
    exact and_single_eq_zero _ (by decide)
  by_cases hhidden : input.attributedGrants viewChannelBit = false
  · -- ViewChannel denied: the recorded sources with their verdict cleared
    rw [if_pos (hview.mpr hhidden)]
    refine ⟨_, rfl, fun i hi => ?_⟩
    obtain ⟨src, hsrc, hperm, -⟩ := htracks i hi
    simp [hsrc, hperm, hhidden]
  · -- the table has an entry for every defined bit, so no bit is skipped
    rw [if_neg (fun h => hhidden (hview.mp h))]
    have hsome : ∀ bit ∈ permissionBits,
        ((applyAllOverrides input (baseWalk input)).bitSources bit).isSome := by
      intro bit hbit
      obtain ⟨i, hi, rfl⟩ := mem_permissionBits.mp hbit
      obtain ⟨src, hsrc, -, -⟩ := htracks i hi
      simp [hsrc]
    rw [filterMap_eq_map_getD _ {} _ hsome, hrange]
    refine ⟨_, rfl, fun i hi => ?_⟩
    obtain ⟨src, hsrc, hperm, hgrant⟩ := htracks i hi
    simp [hsrc, hperm, hgrant, hbits, hhidden]

/-- Exactly one source for each defined permission bit, and no other. -/
def OneSourcePerBit (sources : List Source) : Prop :=
  (∀ s ∈ sources, ∃ i, allPermissions.getLsbD i = true ∧ s.permission = single 64 i) ∧
  ∀ i, allPermissions.getLsbD i = true → sources.countP (fun s => s.permission = single 64 i) = 1

theorem attributeSources_onePerBit (nowUnix : Int) :
    OneSourcePerBit (attributeSources input nowUnix) := by
  obtain ⟨g, hg, hspec⟩ := attributeSources_shape input nowUnix
  rw [hg]
  refine ⟨?_, ?_⟩
  · intro s hs
    obtain ⟨i, hi, rfl⟩ := mem_map.mp hs
    have hi' : i < 31 := mem_range.mp hi
    exact ⟨i, by simp [allPermissions_getLsbD, hi'], (hspec i hi').1⟩
  · intro i hi
    have hi' : i < 31 := by simpa [allPermissions_getLsbD] using hi
    rw [countP_map]
    have hcongr : (range 31).countP
        ((fun s : Source => decide (s.permission = single 64 i)) ∘ g) =
        (range 31).countP (fun j => j == i) := by
      apply countP_congr
      intro j hj
      have hj' : j < 31 := mem_range.mp hj
      simp only [comp_apply, (hspec j hj').1, decide_eq_true_eq, beq_iff_eq]
      exact ⟨single_injective (by omega), fun h => by rw [h]⟩
    rw [hcongr]
    show (range 31).count i = 1
    simp [hi']

theorem grantedMask_getLsbD (nowUnix : Int) (i : Nat) :
    (grantedMask (attributeSources input nowUnix)).getLsbD i =
      (decide (i < 31) && input.attributedBit nowUnix i) := by
  obtain ⟨g, hg, hspec⟩ := attributeSources_shape input nowUnix
  have hzero : (0 : Mask).getLsbD i = false := BitVec.getLsbD_zero
  rw [hg, grantedMask, combine, getLsbD_foldl_or, hzero, Bool.false_or]
  apply Bool.eq_iff_iff.mpr
  simp only [any_eq_true, mem_map, mem_filter, Bool.and_eq_true,
    decide_eq_true_eq]
  constructor
  · rintro ⟨_, ⟨_, ⟨⟨j, hj, rfl⟩, hgranted⟩, rfl⟩, hbit⟩
    have hj' : j < 31 := mem_range.mp hj
    rw [(hspec j hj').1, getLsbD_single j i (by omega)] at hbit
    have hji : j = i := by simpa using hbit
    subst hji
    exact ⟨hj', (hspec j hj').2 ▸ hgranted⟩
  · intro hboth
    obtain ⟨hi, hbit⟩ := hboth
    refine ⟨_, ⟨g i, ⟨⟨i, mem_range.mpr hi, rfl⟩, ?_⟩, rfl⟩, ?_⟩
    · rw [(hspec i hi).2]
      exact hbit
    · rw [(hspec i hi).1, getLsbD_single i i (by omega)]
      simp

end

/-- No override of the layer mentions bit `i`. -/
def Silent (i : Nat) (ovrs : List Override) : Prop :=
  (ovrs.any (allows i) || ovrs.any (denies i)) = false

theorem speaks_of_not_silent {ovrs : List Override} (h : ¬ Silent i ovrs) :
    (ovrs.any (allows i) || ovrs.any (denies i)) = true := by
  unfold Silent at h
  rwa [Bool.not_eq_false] at h

/-- In the role layer that decides bit `i`, one role's allow is followed by
    another role's deny with no allow after it. -/
def ResolveInput.RoleAllowShadowed (input : ResolveInput) (i : Nat) : Prop :=
  channelScopedPermissions.getLsbD i = true ∧
  Silent i input.channelUserOverride.toList ∧ Silent i input.groupUserOverride.toList ∧
  (Shadowed (allows i) (denies i) input.channelRoleOverrides ∨
    (Silent i input.channelRoleOverrides ∧ Shadowed (allows i) (denies i) input.groupRoleOverrides))

theorem inTurn_toList (i : Nat) (o : Option Override) (b : Bool) :
    inTurn (allows i) (denies i) o.toList b = override b (layerDecision i o.toList) := by
  cases o with
  | none => rfl
  | some ovr => simp [inTurn, layerDecision, aggregate]

theorem roleLayers_iff (i : Nat) (chan group : List Override) (b : Bool) :
    inTurn (allows i) (denies i) chan
        (inTurn (allows i) (denies i) group b) =
      override (override b (layerDecision i group)) (layerDecision i chan) ↔
    ¬ (Shadowed (allows i) (denies i) chan ∨
        (Silent i chan ∧ Shadowed (allows i) (denies i) group)) := by
  -- a channel layer that speaks hides whatever the category layer did
  by_cases hsilent : Silent i chan
  · have hchan : ¬ Shadowed (allows i) (denies i) chan := by
      rw [← inTurn_eq_aggregate_iff _ _ chan b, inTurn_of_none _ _ _ _ hsilent,
        override_aggregate_of_none _ _ _ _ hsilent]
    unfold layerDecision
    rw [inTurn_of_none _ _ _ _ hsilent,
      override_aggregate_of_none _ _ _ _ hsilent, inTurn_eq_aggregate_iff]
    simp [hchan, hsilent]
  · have hspeaks := speaks_of_not_silent hsilent
    unfold layerDecision
    rw [inTurn_of_some _ _ chan _ b hspeaks,
      override_aggregate_of_some _ _ chan _ b hspeaks, inTurn_eq_aggregate_iff]
    simp [hsilent]

theorem roleLayers_le (i : Nat) (chan group : List Override) (b : Bool)
    (h : inTurn (allows i) (denies i) chan
        (inTurn (allows i) (denies i) group b) = true) :
    override (override b (layerDecision i group)) (layerDecision i chan) = true := by
  have hchan := inTurn_le_aggregate _ _ _ _ h
  by_cases hsilent : Silent i chan
  · rw [override_aggregate_of_none _ _ _ _ hsilent] at hchan
    unfold layerDecision
    rw [override_aggregate_of_none _ _ _ _ hsilent]
    exact inTurn_le_aggregate _ _ _ _ hchan
  · have hspeaks := speaks_of_not_silent hsilent
    unfold layerDecision
    rw [override_aggregate_of_some _ _ chan _ _ hspeaks]
    exact hchan

/-- A user layer on top leaves two answers different iff it is silent. -/
theorem userLayer_eq_iff (i : Nat) (o : Option Override) (b b' : Bool) :
    override b (layerDecision i o.toList) =
      override b' (layerDecision i o.toList) ↔ (Silent i o.toList → b = b') := by
  by_cases hsilent : Silent i o.toList
  · unfold layerDecision
    rw [override_aggregate_of_none _ _ _ _ hsilent, override_aggregate_of_none _ _ _ _ hsilent]
    simp [hsilent]
  · have hspeaks := speaks_of_not_silent hsilent
    unfold layerDecision
    rw [override_aggregate_of_some _ _ o.toList b b' hspeaks]
    simp [hsilent]

theorem override_mono (d : Option Bool) {b b' : Bool} (h : b = true → b' = true) :
    override b d = true → override b' d = true := by
  cases d with
  | none => exact h
  | some c => exact fun hc => hc

theorem attributedGrants_unfold (input : ResolveInput) (i : Nat)
    (hscope : channelScopedPermissions.getLsbD i = true) :
    input.attributedGrants i =
      override (override
        (inTurn (allows i) (denies i) input.channelRoleOverrides
          (inTurn (allows i) (denies i) input.groupRoleOverrides (input.baseGrants i)))
        (layerDecision i input.groupUserOverride.toList))
        (layerDecision i input.channelUserOverride.toList) := by
  rw [attributedGrants, if_pos hscope]
  simp only [layers, foldr_cons, foldr_nil, inTurn_toList]

theorem attributedGrants_eq_iff (input : ResolveInput) (i : Nat) :
    input.attributedGrants i = input.layeredGrants i ↔ ¬ input.RoleAllowShadowed i := by
  by_cases hscope : channelScopedPermissions.getLsbD i = true
  · rw [layeredGrants_of_scoped hscope, attributedGrants_unfold input i hscope,
      userLayer_eq_iff, userLayer_eq_iff, roleLayers_iff]
    unfold RoleAllowShadowed
    tauto
  · simp [attributedGrants, layeredGrants, RoleAllowShadowed, hscope]

theorem attributedGrants_le (input : ResolveInput) (i : Nat)
    (h : input.attributedGrants i = true) : input.layeredGrants i = true := by
  by_cases hscope : channelScopedPermissions.getLsbD i = true
  · rw [attributedGrants_unfold input i hscope] at h
    rw [layeredGrants_of_scoped hscope]
    exact override_mono _ (override_mono _ (roleLayers_le i _ _ _)) h
  · simpa [attributedGrants, layeredGrants, hscope] using h

/-- A shadowed allow is granted by the resolver and lost by the attribution. -/
theorem lost_of_shadowed {input : ResolveInput} (h : input.RoleAllowShadowed i) :
    input.layeredGrants i = true ∧ input.attributedGrants i = false := by
  have hne : ¬ input.attributedGrants i = input.layeredGrants i := by
    rw [attributedGrants_eq_iff]
    exact not_not_intro h
  have hle := attributedGrants_le input i
  -- the two verdicts differ, and the attribution never grants more
  rcases hattr : input.attributedGrants i with _ | _
  · rw [hattr] at hne
    exact ⟨Bool.eq_true_of_not_eq_false fun hfalse => hne hfalse.symm, rfl⟩
  · rw [hattr, hle hattr] at hne
    exact absurd rfl hne

/-- The attribution is exact: one source per defined bit, and the granted bits
    together are the effective permissions. -/
def AttributionExact (input : AttributeSourcesInput) (nowUnix : Int) : Prop :=
  OneSourcePerBit (attributeSources input nowUnix) ∧
    grantedMask (attributeSources input nowUnix) = resolveEffective input.toResolveInput nowUnix

/-- Either no override matters, or the channel is hidden anyway, or no role's
    allow is followed by another role's deny of the same bit in the layer that
    decides it. -/
def ResolveInput.OrderIrrelevant (input : ResolveInput) (nowUnix : Int) : Prop :=
  input.isOwner = true ∨ input.baseGrants administratorBit = true ∨
    input.timedOut nowUnix = true ∨ input.layeredGrants viewChannelBit = false ∨
    ∀ i, ¬ input.RoleAllowShadowed i

/-- The granted sources give the effective permissions iff the attributed and
    the resolved verdict agree on every bit. -/
theorem grantedMask_eq_iff (input : AttributeSourcesInput) (nowUnix : Int)
    (heveryone : validate input.everyonePerms = true)
    (hroles : ∀ p ∈ input.rolePerms, validate p = true) :
    grantedMask (attributeSources input nowUnix) =
        resolveEffective input.toResolveInput nowUnix ↔
      ∀ i < 31, input.attributedBit nowUnix i =
        (resolveEffective input.toResolveInput nowUnix).getLsbD i := by
  have hbound := (subset_iff _ _).mp
    (resolveEffective_subset input.toResolveInput nowUnix heveryone hroles)
  constructor
  · intro heq i hi
    have hbit := grantedMask_getLsbD input nowUnix i
    rw [heq] at hbit
    simpa [hi] using hbit.symm
  · intro h
    apply BitVec.eq_of_getLsbD_eq
    intro i _
    rw [grantedMask_getLsbD]
    by_cases hi : i < 31
    · simp [hi, h i hi]
    · have hclear : (resolveEffective input.toResolveInput nowUnix).getLsbD i = false := by
        rw [← Bool.not_eq_true]
        intro hset
        have hdef := hbound i hset
        rw [allPermissions_getLsbD] at hdef
        exact hi (by simpa using hdef)
      rw [hclear]
      simp [hi]

/-- **Attribution and resolution agree exactly when no role's allow is
    shadowed** in a layer that counts. -/
theorem attributeSources_exact_iff (input : AttributeSourcesInput) (nowUnix : Int)
    (heveryone : validate input.everyonePerms = true)
    (hroles : ∀ p ∈ input.rolePerms, validate p = true) :
    AttributionExact input nowUnix ↔ input.OrderIrrelevant nowUnix := by
  unfold AttributionExact
  rw [and_iff_right (attributeSources_onePerBit input nowUnix),
    grantedMask_eq_iff input nowUnix heveryone hroles]
  unfold OrderIrrelevant
  -- owner and Administrator: every bit is granted on both sides
  by_cases hbypass : input.isOwner = true ∨ input.baseGrants administratorBit = true
  · have htriv : ∀ i < 31, input.attributedBit nowUnix i =
        (resolveEffective input.toResolveInput nowUnix).getLsbD i := by
      intro i hi
      rw [resolveEffective_eq, if_pos hbypass, attributedBit, if_pos hbypass,
        allPermissions_getLsbD]
      simp [hi]
    refine iff_of_true htriv ?_
    rcases hbypass with h | h
    · exact .inl h
    · exact .inr (.inl h)
  have hplain := hbypass
  rw [not_or, Bool.not_eq_true, Bool.not_eq_true] at hplain
  obtain ⟨howner, hadmin⟩ := hplain
  -- a running timeout: both sides give the same two bits
  by_cases htime : input.timedOut nowUnix = true
  · have htriv : ∀ i < 31, input.attributedBit nowUnix i =
        (resolveEffective input.toResolveInput nowUnix).getLsbD i := by
      intro i _
      rw [resolveEffective_eq, if_neg hbypass, if_pos htime, attributedBit,
        if_neg hbypass, if_pos htime, stripped_getLsbD]
    exact iff_of_true htriv (.inr (.inr (.inl htime)))
  rw [Bool.not_eq_true] at htime
  have hres := resolveEffective_getLsbD input.toResolveInput nowUnix howner hadmin htime
  have hattr : ∀ i, input.attributedBit nowUnix i =
      (input.attributedGrants viewChannelBit && input.attributedGrants i) := by
    intro i
    simp [attributedBit, howner, hadmin, htime]
  simp only [howner, hadmin, htime, Bool.false_eq_true, false_or, hres, hattr]
  constructor
  · -- A shadowed bit of a visible channel is lost by the attribution.
    intro hall
    by_contra hcon
    rw [not_or] at hcon
    obtain ⟨hview, hshadow⟩ := hcon
    rw [Bool.not_eq_false] at hview
    apply hshadow
    intro i hi
    have hlt : i < 31 := by
      have := scoped_lt_thirty hi.1
      omega
    obtain ⟨hlayered, hlost⟩ := lost_of_shadowed hi
    have hbit := hall i hlt
    rw [hlost, hview, hlayered] at hbit
    simp at hbit
  · rintro (hhidden | hnone) i _
    · -- the attribution hides the channel too, since it grants no more
      have hattrHidden : input.attributedGrants viewChannelBit = false := by
        rw [← Bool.not_eq_true]
        intro htrue
        rw [attributedGrants_le input.toResolveInput _ htrue] at hhidden
        cases hhidden
      rw [hhidden, hattrHidden]
      rfl
    · rw [(attributedGrants_eq_iff input.toResolveInput _).mpr (hnone viewChannelBit),
        (attributedGrants_eq_iff input.toResolveInput i).mpr (hnone i)]

/-- Two roles with overrides in one channel: the first allows SendMessages, the
    second denies it. -/
def conflictingRoles : AttributeSourcesInput where
  everyonePerms := viewChannel
  rolePerms := [0, 0]
  isOwner := false
  timedOutUntil := 0
  channelRoleOverrides :=
    [{ allow := sendMessages, deny := 0 }, { allow := 0, deny := sendMessages }]
  everyoneName := "@everyone"
  roleNames := ["Writers", "Muted"]

/-- The resolver grants SendMessages, the attribution reports it as denied. -/
theorem attributeSources_conflictingRoles :
    validate conflictingRoles.everyonePerms = true ∧
      (∀ p ∈ conflictingRoles.rolePerms, validate p = true) ∧
      ¬ AttributionExact conflictingRoles 0 := by
  refine ⟨by decide, ?_, ?_⟩
  · simp only [conflictingRoles, mem_cons, not_mem_nil, or_false, or_self, forall_eq]
    decide
  · intro h
    have heq := h.2
    exact absurd heq (by decide)

/-- The same roles in the other order: the attribution is exact. -/
theorem attributeSources_exact_reversed :
    AttributionExact
      { conflictingRoles with
        channelRoleOverrides := conflictingRoles.channelRoleOverrides.reverse } 0 := by
  apply (attributeSources_exact_iff _ _ (by decide) _).mpr
  · refine .inr (.inr (.inr (.inr ?_)))
    rintro i ⟨hscope, -, -, hshadow | ⟨-, pre, v, post, hsplit, -⟩⟩
    · obtain ⟨pre, v, post, hsplit, hpre, hdeny, -, -⟩ := hshadow
      rcases pre with _ | ⟨a, _ | ⟨b, pre⟩⟩
      · simp at hpre
      · simp only [conflictingRoles, reverse_cons, reverse_nil, nil_append,
          cons_append, cons.injEq] at hsplit
        rw [← hsplit.1] at hpre
        simp [allows] at hpre
      · have hlen := congrArg length hsplit
        simp [conflictingRoles] at hlen
    · have hlen := congrArg length hsplit
      simp [conflictingRoles] at hlen
  · simp only [conflictingRoles, mem_cons, not_mem_nil, or_false, or_self, forall_eq]
    decide

end Meza.Permissions
