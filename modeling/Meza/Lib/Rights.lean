import Meza.Lib.Pool

/-! # Rights that are used once

    A right is made known, lies in the shared state or is held by a call, and is
    spent. It is in one place at a time, and a step passes it on: then no right
    is held by two calls, and none is spent twice.

    A right may also be lost: it is in no place then, and never comes back. -/

namespace Rights

variable {σ φ ρ κ ω : Type*}

/-- Where a right can be. -/
structure Books (σ φ ρ : Type*) where
  known : σ → ρ → Prop
  stock : σ → ρ → Prop
  spent : σ → ρ → Prop
  holds : φ → ρ → Prop

variable (B : Books σ φ ρ)

/-- The rights of the shared state. -/
structure Sound (sh : σ) (r : ρ) : Prop where
  stock_known : B.stock sh r → B.known sh r
  stock_spent : B.stock sh r → ¬ B.spent sh r
  spent_known : B.spent sh r → B.known sh r

/-- The rights of a call. -/
structure Rightful (sh : σ) (p : φ) (r : ρ) : Prop where
  known : B.holds p r → B.known sh r
  stock : B.holds p r → ¬ B.stock sh r
  spent : B.holds p r → ¬ B.spent sh r

/-- Every right is in one place at most. -/
def Kept : Pool.State σ φ → Prop :=
  Pool.Inv (fun sh => ∀ r, Sound B sh r) (fun sh p => ∀ r, Rightful B sh p r)
    (fun _ p q => ∀ r, ¬ (B.holds p r ∧ B.holds q r))

/-- What a step of a call may do to a right: it comes from where it was, or is new. -/
structure Passes (sh : σ) (p : φ) (sh' : σ) (p' : φ) (r : ρ) : Prop where
  known : B.known sh r → B.known sh' r
  comes : B.stock sh' r ∨ B.spent sh' r ∨ B.holds p' r →
    B.stock sh r ∨ B.spent sh r ∨ B.holds p r ∨ ¬ B.known sh r
  sound : Sound B sh' r
  rightful : Rightful B sh' p' r

variable {B}

theorem Kept.perm : Pool.OrderFree (Kept B) :=
  Pool.Inv.perm fun _ _ _ hpq r hqp => hpq r hqp.symm

variable {r : ρ} {sh sh' : σ} {p p' : φ}

theorem Kept.start {calls : List φ} (h : Kept B { shared := sh, calls }) (hp : ∀ r, ¬ B.holds p r) :
    Kept B { shared := sh, calls := p :: calls } := by
  refine Pool.Inv.cons h ?_ ?_
  · intro r
    exact ⟨fun hr => absurd hr (hp r), fun hr => absurd hr (hp r), fun hr => absurd hr (hp r)⟩
  · intro q _ r hpq
    exact hp r hpq.1

/-- A step that passes rights on. -/
theorem Kept.pass {sh sh' : σ} {p p' : φ} {others : List φ}
    (h : Kept B { shared := sh, calls := p :: others })
    (hpass : ∀ r, Passes B sh p sh' p' r) : Kept B { shared := sh', calls := p' :: others } := by
  refine Pool.Inv.replace h (fun r => (hpass r).sound) (fun r => (hpass r).rightful) ?_ ?_
  · intro q _ hq hpq
    -- what another call holds was not where it could have been taken from
    have hnone : ∀ r, B.holds q r → ¬ (B.stock sh' r ∨ B.spent sh' r ∨ B.holds p' r) := by
      intro r hr hplace
      rcases (hpass r).comes hplace with hstock | hspent | hheld | hnew
      · exact (hq r).stock hr hstock
      · exact (hq r).spent hr hspent
      · exact hpq r ⟨hheld, hr⟩
      · exact hnew ((hq r).known hr)
    refine ⟨fun r => ⟨?_, ?_, ?_⟩, ?_⟩
    · exact fun hr => (hpass r).known ((hq r).known hr)
    · exact fun hr hstock => hnone r hr (Or.inl hstock)
    · exact fun hr hspent => hnone r hr (Or.inr (Or.inl hspent))
    · exact fun r hboth => hnone r hboth.2 (Or.inr (Or.inr hboth.1))
  · exact fun q q' hqq' => hqq'

/-- A right that no place gains, and none that was known is forgotten. -/
theorem Passes.same (hI : Sound B sh r) (hL : Rightful B sh p r)
    (hknown : B.known sh' r ↔ B.known sh r) (hstock : B.stock sh' r → B.stock sh r)
    (hspent : B.spent sh' r ↔ B.spent sh r) (hholds : B.holds p' r → B.holds p r) :
    Passes B sh p sh' p' r where
  known := hknown.mpr
  comes := by
    rintro (hr | hr | hr)
    · exact Or.inl (hstock hr)
    · exact Or.inr (Or.inl (hspent.mp hr))
    · exact Or.inr (Or.inr (Or.inl (hholds hr)))
  sound := by
    refine ⟨fun hr => ?_, fun hr => ?_, fun hr => ?_⟩
    · exact hknown.mpr (hI.stock_known (hstock hr))
    · exact fun hr' => hI.stock_spent (hstock hr) (hspent.mp hr')
    · exact hknown.mpr (hI.spent_known (hspent.mp hr))
  rightful := by
    refine ⟨fun hr => ?_, fun hr => ?_, fun hr => ?_⟩
    · exact hknown.mpr (hL.known (hholds hr))
    · exact fun hr' => hL.stock (hholds hr) (hstock hr')
    · exact fun hr' => hL.spent (hholds hr) (hspent.mp hr')

/-- A right that was not known is given to the call. -/
theorem Passes.grant (hnew : ¬ B.known sh r) (hknown : B.known sh' r)
    (hstock : ¬ B.stock sh' r) (hspent : ¬ B.spent sh' r) : Passes B sh p sh' p' r where
  known := fun hr => absurd hr hnew
  comes := fun _ => .inr (.inr (.inr hnew))
  sound := ⟨fun hr => absurd hr hstock, fun hr => absurd hr hstock, fun hr => absurd hr hspent⟩
  rightful := ⟨fun _ => hknown, fun _ => hstock, fun _ => hspent⟩

/-- A right that was not known is put into the shared state. -/
theorem Passes.store (hnew : ¬ B.known sh r) (hknown : B.known sh' r)
    (hspent : ¬ B.spent sh' r) (hholds : ¬ B.holds p' r) : Passes B sh p sh' p' r where
  known := fun hr => absurd hr hnew
  comes := fun _ => Or.inr (Or.inr (Or.inr hnew))
  sound := ⟨fun _ => hknown, fun _ => hspent, fun hr => absurd hr hspent⟩
  rightful := ⟨fun hr => absurd hr hholds, fun hr => absurd hr hholds, fun hr => absurd hr hholds⟩

/-- The call takes a right from the shared state. -/
theorem Passes.take (hI : Sound B sh r) (hfrom : B.stock sh r)
    (hknown : B.known sh r → B.known sh' r) (hstock : ¬ B.stock sh' r)
    (hspent : B.spent sh' r → B.spent sh r) : Passes B sh p sh' p' r where
  known := hknown
  comes := fun _ => .inl hfrom
  sound := by
    refine ⟨fun hr => absurd hr hstock, fun hr => absurd hr hstock, fun hr => ?_⟩
    exact absurd (hspent hr) (hI.stock_spent hfrom)
  rightful := by
    refine ⟨fun _ => hknown (hI.stock_known hfrom), fun _ => hstock, fun _ hr => ?_⟩
    exact hI.stock_spent hfrom (hspent hr)

/-- A right is spent from the shared state. -/
theorem Passes.use (hI : Sound B sh r) (hfrom : B.stock sh r)
    (hknown : B.known sh r → B.known sh' r) (hstock : ¬ B.stock sh' r) (hholds : ¬ B.holds p' r) :
    Passes B sh p sh' p' r where
  known := hknown
  comes := fun _ => Or.inl hfrom
  sound := ⟨fun hr => absurd hr hstock, fun hr => absurd hr hstock,
    fun _ => hknown (hI.stock_known hfrom)⟩
  rightful := ⟨fun hr => absurd hr hholds, fun hr => absurd hr hholds, fun hr => absurd hr hholds⟩

theorem Passes.spend (hL : Rightful B sh p r) (hfrom : B.holds p r)
    (hknown : B.known sh r → B.known sh' r) (hstock : ¬ B.stock sh' r) (hholds : ¬ B.holds p' r) :
    Passes B sh p sh' p' r where
  known := hknown
  comes := fun _ => Or.inr (Or.inr (Or.inl hfrom))
  sound := ⟨fun hr => absurd hr hstock, fun hr => absurd hr hstock,
    fun _ => hknown (hL.known hfrom)⟩
  rightful := ⟨fun hr => absurd hr hholds, fun hr => absurd hr hholds, fun hr => absurd hr hholds⟩

end Rights
