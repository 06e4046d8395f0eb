import Mathlib.Tactic.Common

/-!
# Metered computations that may panic

A computation that spends from a budget, may refuse its input, and may panic.
The budget survives a refusal, as a mutable reference does.  `none` is where
the code would panic, or where a loop outlasts the rounds it was given; so a
computation that is never `none` both stays in range and terminates.
-/

namespace Netflector.Foundation

/-! ## Machine words -/

inductive Usize where
  | bits32
  | bits64
  deriving DecidableEq, Repr

/-- One past the largest `usize`. -/
def Usize.top : Usize → Nat
  | .bits32 => 4294967296
  | .bits64 => 18446744073709551616

/-- The longest slice the language allows: `isize::MAX` octets. -/
def Usize.maxLen : Usize → Nat
  | .bits32 => 2147483647
  | .bits64 => 9223372036854775807

/-- An unchecked addition: overflow is a panic. -/
def Usize.add (usize : Usize) (first second : Nat) : Option Nat :=
  if first + second < usize.top then some (first + second) else none

/-- An unchecked subtraction: going below zero is a panic. -/
def Usize.sub (first second : Nat) : Option Nat :=
  if second ≤ first then some (first - second) else none

theorem Usize.add_eq {usize : Usize} {first second : Nat}
    (h : first + second < usize.top) :
    usize.add first second = some (first + second) := if_pos h

theorem Usize.sub_eq {first second : Nat} (h : second ≤ first) :
    Usize.sub first second = some (first - second) := if_pos h

theorem Usize.maxLen_lt_top (usize : Usize) :
    usize.maxLen + 1000000 < usize.top := by
  cases usize <;> decide

/-! ## Metered computations -/

theorem except_ok_bind {ε α β : Type} (value : α) (next : α → Except ε β) :
    (Except.ok value >>= next) = next value := rfl

theorem except_error_bind {ε α β : Type} (reason : ε)
    (next : α → Except ε β) :
    (Except.error reason >>= next) = .error reason := rfl

/-- From the budget before to how the computation ends and the budget after. -/
def Metered (ε α : Type) := Nat → Option (Except ε α × Nat)

namespace Metered

variable {ε α β : Type}

def pure (value : α) : Metered ε α := fun budget => some (.ok value, budget)

def refuse (reason : ε) : Metered ε α :=
  fun budget => some (.error reason, budget)

def bind (run : Metered ε α) (next : α → Metered ε β) : Metered ε β :=
  fun budget =>
    match run budget with
    | none => none
    | some (.error reason, budget) => some (.error reason, budget)
    | some (.ok value, budget) => next value budget

instance : Monad (Metered ε) where
  pure := pure
  bind := bind

def ofExcept (result : Except ε α) : Metered ε α :=
  fun budget => some (result, budget)

/-- An access the code leaves unchecked. -/
def access : Option α → Metered ε α
  | none => fun _ => none
  | some value => pure value

/-- An access whose failure the code turns into a refusal. -/
def demand (reason : ε) : Option α → Metered ε α
  | none => refuse reason
  | some value => pure value

/-- A refusal where the code returns early. -/
def require (reason : ε) (condition : Prop) [Decidable condition] :
    Metered ε Unit :=
  if condition then pure () else refuse reason

/-! ## Computations that cannot panic -/

/-- It comes to an end without a panic, spends only what it has, and what it
returns meets `post`. -/
def Safe (run : Metered ε α) (post : α → Prop) : Prop :=
  ∀ budget, ∃ ending left, run budget = some (ending, left) ∧
    left ≤ budget ∧ ∀ value, ending = .ok value → post value

theorem Safe.pure {post : α → Prop} {value : α} (h : post value) :
    Safe (Pure.pure value : Metered ε α) post := by
  intro budget
  refine ⟨.ok value, budget, rfl, Nat.le_refl budget, ?_⟩
  rintro _ ⟨⟩
  exact h

theorem Safe.refuse (reason : ε) (post : α → Prop) :
    Safe (Metered.refuse reason) post := by
  intro budget
  exact ⟨.error reason, budget, rfl, Nat.le_refl budget, fun _ h => by cases h⟩

theorem Safe.bind {run : Metered ε α} {next : α → Metered ε β}
    {middle : α → Prop} {post : β → Prop} (hrun : Safe run middle)
    (hnext : ∀ value, middle value → Safe (next value) post) :
    Safe (run >>= next) post := by
  intro budget
  obtain ⟨ending, left, hends, hle, hmiddle⟩ := hrun budget
  cases ending with
  | error reason =>
      refine ⟨.error reason, left, ?_, hle, fun _ h => by cases h⟩
      show Metered.bind run next budget = _
      simp only [Metered.bind, hends]
  | ok value =>
      obtain ⟨ending, rest, hafter, hless, hpost⟩ :=
        hnext value (hmiddle value rfl) left
      refine ⟨ending, rest, ?_, Nat.le_trans hless hle, hpost⟩
      show Metered.bind run next budget = _
      simp only [Metered.bind, hends, hafter]

theorem Safe.demand {reason : ε} {option : Option α} {post : α → Prop}
    (h : ∀ value, option = some value → post value) :
    Safe (Metered.demand reason option) post := by
  cases option with
  | none => exact Safe.refuse reason post
  | some value => exact Safe.pure (h value rfl)

theorem Safe.require {reason : ε} {condition : Prop} [Decidable condition] :
    Safe (Metered.require reason condition) fun _ => condition := by
  unfold Metered.require
  split
  · rename_i h
    exact Safe.pure h
  · exact Safe.refuse reason _

theorem require_bind {reason : ε} {condition : Prop} [Decidable condition]
    (h : condition) (next : Unit → Metered ε β) :
    (require reason condition >>= next) = next () := by
  unfold require
  rw [if_pos h]
  rfl

theorem require_not_bind {reason : ε} {condition : Prop} [Decidable condition]
    (h : ¬condition) (next : Unit → Metered ε β) :
    (require reason condition >>= next) = refuse reason := by
  unfold require
  rw [if_neg h]
  rfl

/-! ## Agreeing with a computation that has no panics -/

/-- The two end alike: with the same value and the same budget, or refused.
A refusal need not leave the same budget, only no more than there was. -/
inductive Alike (budget : Nat) (post : α → Prop) :
    Option (Except ε α × Nat) → Except ε (α × Nat) → Prop
  | ok (value : α) (left : Nat) (hle : left ≤ budget) (hpost : post value) :
      Alike budget post (some (.ok value, left)) (.ok (value, left))
  | error (reason : ε) (left : Nat) (hle : left ≤ budget) :
      Alike budget post (some (.error reason, left)) (.error reason)

theorem Alike.mono {budget more : Nat} {post : α → Prop}
    {ends : Option (Except ε α × Nat)} {expected : Except ε (α × Nat)}
    (h : Alike budget post ends expected) (hle : budget ≤ more) :
    Alike more post ends expected := by
  cases h with
  | ok value left hless hpost =>
      exact .ok value left (Nat.le_trans hless hle) hpost
  | error reason left hless =>
      exact .error reason left (Nat.le_trans hless hle)

theorem Alike.weaken {budget : Nat} {post post' : α → Prop}
    {ends : Option (Except ε α × Nat)} {expected : Except ε (α × Nat)}
    (h : Alike budget post ends expected)
    (himp : ∀ value, post value → post' value) :
    Alike budget post' ends expected := by
  cases h with
  | ok value left hle hpost => exact .ok value left hle (himp value hpost)
  | error reason left hle => exact .error reason left hle

theorem Alike.congr {budget : Nat} {post : α → Prop}
    {ends : Option (Except ε α × Nat)} {expected expected' : Except ε (α × Nat)}
    (h : Alike budget post ends expected) (heq : expected = expected') :
    Alike budget post ends expected' := heq ▸ h

/-- `run` is `model` with the panics of the code written in: it ends as
`model` does from every budget, and never panics. -/
def Agrees (run : Metered ε α) (model : Nat → Except ε (α × Nat))
    (post : α → Prop) : Prop :=
  ∀ budget, Alike budget post (run budget) (model budget)

theorem Agrees.safe {run : Metered ε α} {model : Nat → Except ε (α × Nat)}
    {post : α → Prop} (h : Agrees run model post) : Safe run post := by
  intro budget
  have halike := h budget
  generalize run budget = ends, model budget = expected at halike
  cases halike with
  | ok value left hle hpost =>
      refine ⟨.ok value, left, rfl, hle, ?_⟩
      rintro _ ⟨⟩
      exact hpost
  | error reason left hle =>
      exact ⟨.error reason, left, rfl, hle, fun _ h => by cases h⟩

theorem Alike.cases {ends : Option (Except ε α × Nat)}
    {expected : Except ε (α × Nat)} {post : α → Prop} {budget : Nat}
    (h : Alike budget post ends expected) :
    (∃ value left, ends = some (.ok value, left) ∧
      expected = .ok (value, left) ∧ left ≤ budget ∧ post value) ∨
    ∃ reason left, ends = some (.error reason, left) ∧
      expected = .error reason ∧ left ≤ budget := by
  cases h with
  | ok value left hle hpost => exact .inl ⟨value, left, rfl, rfl, hle, hpost⟩
  | error reason left hle => exact .inr ⟨reason, left, rfl, rfl, hle⟩

def Spends (run : Metered ε Unit) (model : Nat → Except ε Nat) : Prop :=
  ∀ budget,
    (∃ left, run budget = some (.ok (), left) ∧ model budget = .ok left ∧
      left ≤ budget) ∨
    ∃ reason left, run budget = some (.error reason, left) ∧
      model budget = .error reason ∧ left ≤ budget

theorem Spends.safe {run : Metered ε Unit} {model : Nat → Except ε Nat}
    (h : Spends run model) : Safe run fun _ => True := by
  intro budget
  obtain ⟨left, hrun, -, hle⟩ | ⟨reason, left, hrun, -, hle⟩ := h budget
  · exact ⟨.ok (), left, hrun, hle, fun _ _ => trivial⟩
  · exact ⟨.error reason, left, hrun, hle, fun _ _ => trivial⟩

theorem bind_ok {run : Metered ε α} {budget left : Nat} {value : α}
    (h : run budget = some (.ok value, left)) (next : α → Metered ε β) :
    (run >>= next) budget = next value left := by
  show Metered.bind run next budget = _
  simp only [Metered.bind, h]

theorem bind_error {run : Metered ε α} {budget left : Nat} {reason : ε}
    (h : run budget = some (.error reason, left)) (next : α → Metered ε β) :
    (run >>= next) budget = some (.error reason, left) := by
  show Metered.bind run next budget = _
  simp only [Metered.bind, h]

@[simp] theorem pure_bind (value : α) (next : α → Metered ε β) :
    ((Pure.pure value : Metered ε α) >>= next) = next value := rfl

@[simp] theorem access_bind (value : α) (next : α → Metered ε β) :
    (access (some value) >>= next) = next value := rfl

@[simp] theorem demand_some_bind (reason : ε) (value : α)
    (next : α → Metered ε β) :
    (demand reason (some value) >>= next) = next value := rfl

@[simp] theorem demand_none_bind (reason : ε) (next : α → Metered ε β) :
    (demand reason none >>= next) = refuse reason := rfl

end Metered

end Netflector.Foundation
