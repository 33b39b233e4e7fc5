import Mathlib.Data.List.Basic

/-! # Last-writer-wins cells

    A cell keeps the value with the latest timestamp, whatever the order in which
    the writes arrive. Where two writes carry the same timestamp the larger value
    stays. -/

namespace Register

variable {α : Type*}

structure Cell (α : Type*) where
  value : α
  writtenAt : Int
  deriving DecidableEq, Repr

section Write

variable [LT α] [DecidableLT α]

def Cell.write (c : Cell α) (timestamp : Int) (a : α) : Cell α :=
  if c.writtenAt < timestamp ∨ (c.writtenAt = timestamp ∧ c.value < a) then
    { value := a, writtenAt := timestamp }
  else c

variable {c : Cell α} {timestamp : Int} {a b : α}

theorem write_of_wins (h : c.writtenAt < timestamp ∨ (c.writtenAt = timestamp ∧ c.value < a)) :
    c.write timestamp a = { value := a, writtenAt := timestamp } := by
  unfold Cell.write
  rw [if_pos h]

theorem write_of_loses (h : ¬ (c.writtenAt < timestamp ∨ (c.writtenAt = timestamp ∧ c.value < a))) :
    c.write timestamp a = c := by
  unfold Cell.write
  rw [if_neg h]

/-- The least value is there after it is written if it was there before or is
    written later. -/
theorem write_least (hleast : ∀ b, ¬ b < a) :
    (c.write timestamp a).value = a ↔ c.value = a ∨ c.writtenAt < timestamp := by
  by_cases hlater : c.writtenAt < timestamp
  · rw [write_of_wins (Or.inl hlater)]
    simp [hlater]
  · have hloses : ¬ (c.writtenAt < timestamp ∨ (c.writtenAt = timestamp ∧ c.value < a)) := by
      rintro (h | ⟨-, h⟩)
      · exact hlater h
      · exact hleast _ h
    rw [write_of_loses hloses]
    simp [hlater]

theorem write_greatest (hgreatest : ∀ b, b ≠ a → b < a) :
    (c.write timestamp a).value = a ↔ c.value = a ∨ c.writtenAt ≤ timestamp := by
  by_cases hwins : c.writtenAt < timestamp ∨ (c.writtenAt = timestamp ∧ c.value < a)
  · have hle : c.writtenAt ≤ timestamp := by omega
    rw [write_of_wins hwins]
    simp [hle]
  · rw [write_of_loses hwins]
    refine ⟨.inl, ?_⟩
    rintro (heq | hle)
    · exact heq
    · -- written at the same time, so only the greatest value could stay
      by_contra hne
      have hsame : c.writtenAt = timestamp := by omega
      exact hwins (.inr ⟨hsame, hgreatest _ hne⟩)

/-- Where a smaller value stands, a value stays out only if it comes with an
    earlier timestamp. -/
theorem write_over (hlt : c.value < b) (hne : b ≠ c.value) :
    (c.write timestamp b).value = c.value ↔ timestamp < c.writtenAt := by
  by_cases hearlier : timestamp < c.writtenAt
  · have hloses : ¬ (c.writtenAt < timestamp ∨ (c.writtenAt = timestamp ∧ c.value < b)) := by
      omega
    rw [write_of_loses hloses]
    exact iff_of_true rfl hearlier
  · have hwins : c.writtenAt < timestamp ∨ (c.writtenAt = timestamp ∧ c.value < b) := by
      by_cases hsame : c.writtenAt = timestamp
      · exact .inr ⟨hsame, hlt⟩
      · left
        omega
    rw [write_of_wins hwins]
    exact iff_of_false hne hearlier

end Write

end Register
