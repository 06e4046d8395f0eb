import Mathlib.Tactic.Common

/-!
# Fallible computations

Computations that can panic, and how a computation that succeeded is peeled
apart into its steps.
-/

namespace Netflector.Foundation

universe u v

inductive Panic where
  | expect (message : String)
  | outOfRange
  | overflow
  deriving DecidableEq, Repr

inductive Stop (Error : Type) where
  | panic (panic : Panic)
  | error (error : Error)
  deriving DecidableEq

section Result

variable {Error : Type u} {First : Type v} {Value : Type v}

theorem except_bind_ok {action : Except Error First}
    {next : First → Except Error Value} {value : Value}
    (h : action >>= next = .ok value) :
    ∃ first, action = .ok first ∧ next first = .ok value := by
  cases action with
  | error error => cases h
  | ok first => exact ⟨first, rfl, h⟩

theorem except_map_ok {action : Except Error First} {change : First → Value}
    {value : Value} (h : action.map change = .ok value) :
    ∃ first, action = .ok first ∧ change first = value := by
  cases action with
  | error error => cases h
  | ok first =>
      cases h
      exact ⟨first, rfl, rfl⟩

theorem toOption_eq_some {answer : Except Error Value} {value : Value} :
    answer.toOption = some value ↔ answer = .ok value := by
  cases answer <;> simp [Except.toOption]

theorem except_guard_ok {fails : Prop} [Decidable fails] {error : Error}
    {action : Except Error Value} {value : Value} :
    (if fails then .error error else action) = .ok value ↔
      ¬ fails ∧ action = .ok value := by
  split
  · rename_i hfails
    simp [hfails]
  · rename_i hholds
    simp [hholds]

/-- `Option::expect`, and every other access that panics. -/
def orPanic (panic : Panic) : Option Value → Except Panic Value
  | some value => .ok value
  | none => .error panic

@[simp] theorem orPanic_some (panic : Panic) (value : Value) :
    orPanic panic (some value) = .ok value :=
  rfl

theorem orPanic_ok {panic : Panic} {option : Option Value} {value : Value}
    (h : orPanic panic option = .ok value) : option = some value := by
  cases option with
  | none => cases h
  | some found =>
      cases h
      rfl

end Result

section Stop

variable {Error : Type} {Value : Type}

def fail (error : Error) : Except (Stop Error) Value := .error (.error error)

def liftPanic : Except Panic Value → Except (Stop Error) Value
  | .ok value => .ok value
  | .error panic => .error (.panic panic)

@[simp] theorem liftPanic_ok (value : Value) :
    liftPanic (.ok value : Except Panic Value) =
      (.ok value : Except (Stop Error) Value) :=
  rfl

theorem liftPanic_eq_ok {action : Except Panic Value} {value : Value}
    (h : (liftPanic action : Except (Stop Error) Value) = .ok value) :
    action = .ok value := by
  cases action with
  | error panic => cases h
  | ok found =>
      cases h
      rfl

end Stop

end Netflector.Foundation
