import Mathlib.Data.Finset.Card
import Meza.Lib.Pool

/-! # Pledges

    Calls on a shared state count what is there, are let pass while it is below a
    limit, and put something in with a later step. Until then a call has pledged
    what it is going to put in, and others count without it.

    What is there and what has been pledged stays within the limit if no call is
    let pass without room for its item. Then there is always room for what is
    there already. -/

namespace Pledges
open List

variable {σ φ κ ι : Type*}

/-- What is counted, and what a call is going to put in. -/
structure Books (σ φ κ ι : Type*) where
  items : σ → κ → List ι
  pledges : φ → κ → Option ι
  limit : κ → Nat

variable [DecidableEq ι] (B : Books σ φ κ ι)

/-- What is there and what the calls have pledged. -/
def Books.due (sh : σ) (calls : List φ) (k : κ) : Finset ι :=
  (B.items sh k ++ calls.filterMap (B.pledges · k)).toFinset

/-- All that is due is within the limits. -/
def Kept (s : Pool.State σ φ) : Prop := ∀ k, (B.due s.shared s.calls k).card ≤ B.limit k

/-- The limit leaves room for the item beside all that is due. -/
def Books.HasRoom (sh : σ) (others : List φ) (k : κ) (i : ι) : Prop :=
  (insert i (B.due sh others k)).card ≤ B.limit k

instance (sh : σ) (others : List φ) (k : κ) (i : ι) : Decidable (B.HasRoom sh others k i) :=
  inferInstanceAs (Decidable (_ ≤ _))

variable {B} {calls others : List φ} {i : ι} {k : κ} {sh : σ} {p : φ}

theorem mem_due :
    i ∈ B.due sh calls k ↔ i ∈ B.items sh k ∨ ∃ p ∈ calls, B.pledges p k = some i := by
  unfold Books.due
  rw [mem_toFinset, mem_append, mem_filterMap]

/-- One call more. -/
theorem mem_due_cons :
    i ∈ B.due sh (p :: calls) k ↔ B.pledges p k = some i ∨ i ∈ B.due sh calls k := by
  rw [mem_due, mem_due, exists_mem_cons_iff]
  constructor
  · rintro (hi | hp | hcalls)
    · exact .inr (.inl hi)
    · exact .inl hp
    · exact .inr (.inr hcalls)
  · rintro (hp | hi | hcalls)
    · exact .inr (.inl hp)
    · exact .inl hi
    · exact .inr (.inr hcalls)

theorem Kept.items_le {s : Pool.State σ φ} (h : Kept B s) (k : κ) :
    (B.items s.shared k).toFinset.card ≤ B.limit k := by
  have hsub : (B.items s.shared k).toFinset ⊆ B.due s.shared s.calls k := by
    intro i hi
    exact mem_due.mpr (.inl (mem_toFinset.mp hi))
  have hle := Finset.card_le_card hsub
  have hkept := h k
  omega

theorem Kept.init (h : ∀ k, (B.items sh k).toFinset.card ≤ B.limit k) :
    Kept B { shared := sh, calls := [] } := by
  intro k
  unfold Books.due
  rw [filterMap_nil, append_nil]
  exact h k

theorem Kept.perm : Pool.OrderFree (Kept B) := by
  intro sh l l' hperm h k
  have hsame : B.due sh l' k = B.due sh l k := by
    ext i
    simp only [mem_due, hperm.mem_iff]
  show (B.due sh l' k).card ≤ B.limit k
  rw [hsame]
  exact h k

theorem Kept.start (h : Kept B { shared := sh, calls }) (hp : ∀ k, B.pledges p k = none) :
    Kept B { shared := sh, calls := p :: calls } := by
  intro k
  have hsame : B.due sh (p :: calls) k = B.due sh calls k := by
    ext i
    rw [mem_due_cons, hp k]
    simp
  show (B.due sh (p :: calls) k).card ≤ B.limit k
  rw [hsame]
  exact h k

/-- A step of a call: what is due afterwards was due before, or is within the limit. -/
theorem Kept.next {sh' : σ} {p' : φ} (h : Kept B { shared := sh, calls := p :: others })
    (hstep : ∀ k, (∀ i, i ∈ B.items sh' k ∨ B.pledges p' k = some i →
    i ∈ B.items sh k ∨ B.pledges p k = some i) ∨ (B.due sh' (p' :: others) k).card ≤ B.limit k) :
    Kept B { shared := sh', calls := p' :: others } := by
  intro k
  rcases hstep k with hfrom | hroom
  · have hsub : B.due sh' (p' :: others) k ⊆ B.due sh (p :: others) k := by
      intro i hi
      rw [mem_due_cons, mem_due] at hi ⊢
      rcases hi with hp' | hitems | hothers
      · rcases hfrom i (.inr hp') with hitems | hp
        · exact .inr (.inl hitems)
        · exact .inl hp
      · rcases hfrom i (.inl hitems) with hitems | hp
        · exact .inr (.inl hitems)
        · exact .inl hp
      · exact .inr (.inr hothers)
    have hle := Finset.card_le_card hsub
    have hkept : (B.due sh (p :: others) k).card ≤ B.limit k := h k
    show (B.due sh' (p' :: others) k).card ≤ B.limit k
    omega
  · exact hroom

/-- What a call with room for its item makes due. -/
theorem Books.HasRoom.card_due (h : B.HasRoom sh others k i) (hp : B.pledges p k = some i) :
    (B.due sh (p :: others) k).card ≤ B.limit k := by
  have hsame : B.due sh (p :: others) k = insert i (B.due sh others k) := by
    ext j
    rw [mem_due_cons, hp, Finset.mem_insert, Option.some.injEq, eq_comm]
  rw [hsame]
  exact h

theorem Kept.hasRoom_of_mem (h : Kept B { shared := sh, calls := p :: others })
    (hi : i ∈ B.items sh k) : B.HasRoom sh others k i := by
  have hsub : insert i (B.due sh others k) ⊆ B.due sh (p :: others) k := by
    intro j hj
    rw [mem_due_cons]
    rcases Finset.mem_insert.mp hj with rfl | hj
    · exact .inr (mem_due.mpr (.inl hi))
    · exact .inr hj
  have hle := Finset.card_le_card hsub
  have hkept : (B.due sh (p :: others) k).card ≤ B.limit k := h k
  unfold Books.HasRoom
  omega

end Pledges
