import Mathlib.Data.List.Basic
import Mathlib.Tactic.Common

/-!
# Incremental readers

A reader looks at a state and the symbols that have arrived, and takes some of
them, asks for more, or fails.  When symbols that arrive later change none of
its decisions, a whole run depends on the stream only and not on how the stream
was cut into pieces.
-/

namespace Netflector.Foundation

universe u v w x

inductive Atom (State : Type u) (Emit : Type w) (Error : Type x) where
  | more
  | fail (error : Error)
  | take (size : Nat) (next : State) (emit : Emit)

section Incremental

variable {State : Type u} {Symbol : Type v} {Emit : Type w} {Error : Type x}

/-- In one state, later symbols change no decision but the one to wait. -/
structure StableAt (decision : List Symbol → Atom State Emit Error) :
    Prop where
  size_pos : ∀ {rest size next emit},
    decision rest = .take size next emit → 0 < size
  size_le : ∀ {rest size next emit},
    decision rest = .take size next emit → size ≤ rest.length
  take_append : ∀ {rest size next emit},
    decision rest = .take size next emit →
    ∀ later, decision (rest ++ later) = .take size next emit
  fail_append : ∀ {rest error}, decision rest = .fail error →
    ∀ later, ∃ error', decision (rest ++ later) = .fail error'

def PrefixStable (reader : State → List Symbol → Atom State Emit Error) :
    Prop :=
  ∀ state, StableAt (reader state)

variable (reader : State → List Symbol → Atom State Emit Error)

inductive Reads : State → List Symbol → List Emit → State → List Symbol → Prop
  | refl {state : State} {rest : List Symbol} : Reads state rest [] state rest
  | step {state next final : State} {rest left : List Symbol} {size : Nat}
      {emit : Emit} {emits : List Emit} :
      reader state rest = .take size next emit →
      Reads next (rest.drop size) emits final left →
      Reads state rest (emit :: emits) final left

variable {reader}

theorem Reads.trans {state middle final : State}
    {rest between left : List Symbol} {emits emits' : List Emit}
    (h : Reads reader state rest emits middle between)
    (h' : Reads reader middle between emits' final left) :
    Reads reader state rest (emits ++ emits') final left := by
  induction h with
  | refl => exact h'
  | step htake _ ih => exact .step htake (ih h')

theorem Reads.single {state next : State} {rest : List Symbol} {size : Nat}
    {emit : Emit} (h : reader state rest = .take size next emit) :
    Reads reader state rest [emit] next (rest.drop size) :=
  .step h .refl

theorem Reads.append (hstable : PrefixStable reader) {state final : State}
    {rest left : List Symbol} {emits : List Emit}
    (h : Reads reader state rest emits final left) (later : List Symbol) :
    Reads reader state (rest ++ later) emits final (left ++ later) := by
  induction h with
  | refl => exact .refl
  | step htake _ ih =>
      refine .step ((hstable _).take_append htake later) ?_
      rwa [List.drop_append_of_le_length ((hstable _).size_le htake)]

theorem Reads.length_le {state final : State} {rest left : List Symbol}
    {emits : List Emit} (h : Reads reader state rest emits final left) :
    left.length ≤ rest.length := by
  induction h with
  | refl => exact Nat.le_refl _
  | step _ _ ih =>
      rw [List.length_drop] at ih
      omega

/-- A partial reading is an initial part of any reading that can go no
further. -/
theorem Reads.complete {state middle final : State}
    {rest between left : List Symbol} {emits emits' : List Emit}
    (h : Reads reader state rest emits middle between)
    (h' : Reads reader state rest emits' final left)
    (hend : ∀ size next emit, reader final left ≠ .take size next emit) :
    ∃ later, emits' = emits ++ later ∧
      Reads reader middle between later final left := by
  induction h generalizing emits' with
  | refl => exact ⟨emits', rfl, h'⟩
  | step htake _ ih =>
      cases h' with
      | refl => exact absurd htake (hend _ _ _)
      | step htake' hrest' =>
          rw [htake] at htake'
          cases htake'
          obtain ⟨later, rfl, hlater⟩ := ih hrest'
          exact ⟨later, rfl, hlater⟩

theorem Reads.unique {state first second : State}
    {rest left left' : List Symbol} {emits emits' : List Emit}
    (h : Reads reader state rest emits first left)
    (hend : ∀ size next emit, reader first left ≠ .take size next emit)
    (h' : Reads reader state rest emits' second left')
    (hend' : ∀ size next emit, reader second left' ≠ .take size next emit) :
    emits = emits' ∧ first = second ∧ left = left' := by
  obtain ⟨later, rfl, hlater⟩ := h.complete h' hend'
  cases hlater with
  | refl => exact ⟨by simp, rfl, rfl⟩
  | step htake _ => exact absurd htake (hend _ _ _)

end Incremental

end Netflector.Foundation
