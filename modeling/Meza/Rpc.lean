import Mathlib.Data.List.Basic

/-! # RPC errors -/

namespace Meza

universe u

/-- The Connect error codes the handlers use. -/
inductive Code where
  | invalidArgument
  | notFound
  | alreadyExists
  | permissionDenied
  | resourceExhausted
  | deadlineExceeded
  | failedPrecondition
  | aborted
  | internal
  | unauthenticated
  deriving DecidableEq, Repr

structure ConnectError where
  code : Code
  message : String
  deriving DecidableEq, Repr

/-- `return nil, connect.NewError(code, message)` under a condition. -/
def rejectIf (cond : Prop) [Decidable cond] (code : Code) (message : String) :
    Except ConnectError Unit :=
  if cond then .error { code, message } else .ok ()

theorem rejectIf_ok {cond : Prop} [Decidable cond] {code : Code} {message : String} {u : Unit} :
    rejectIf cond code message = .ok u ↔ ¬ cond := by
  unfold rejectIf
  by_cases h : cond
  · simp [h]
  · simp [h]

/-- A sequence of checks succeeds when each of them does. -/
theorem bind_eq_ok {ε : Type*} {α β : Type u} {x : Except ε α} {f : α → Except ε β} {b : β} :
    (x >>= f) = .ok b ↔ ∃ a, x = .ok a ∧ f a = .ok b := by
  cases x with
  | error | ok => simp [bind, Except.bind]

theorem map_eq_ok {ε : Type*} {α β : Type u} {x : Except ε α} {f : α → β} {b : β} :
    x.map f = .ok b ↔ ∃ a, x = .ok a ∧ f a = b := by
  rcases x with e | a
  · simp [Except.map]
  · simp [Except.map]

theorem map_unit_ok {ε σ : Type*} {r : Except ε σ} {u : Unit} {x : σ}
    (h : r.map ((), ·) = .ok (u, x)) : r = .ok x := by
  obtain ⟨y, hr, heq⟩ := map_eq_ok.mp h
  cases heq
  exact hr

end Meza
