import Mathlib.Data.List.Basic
import Mathlib.Data.List.Perm.Basic
import Mathlib.Tactic.Common

/-!
# The earliest of the best

Which element of a list a running maximum ends with, when only a strictly
better element replaces the one held.
-/

namespace Netflector.Foundation

variable {α : Type} {score : α → Nat}

def improve (score : α → Nat) (held : Option α) (candidate : α) : Option α :=
  match held with
  | none => some candidate
  | some winner =>
      if score winner < score candidate then some candidate else some winner

/-- What a running maximum of the candidates holds: nothing before the first
one, then one that beats all before it and that none after it beats. -/
inductive Earliest (score : α → Nat) : List α → Option α → Prop
  | empty : Earliest score [] none
  | won (before after : List α) (winner : α)
      (hbefore : ∀ other ∈ before, score other < score winner)
      (hafter : ∀ other ∈ after, score other ≤ score winner) :
      Earliest score (before ++ winner :: after) (some winner)

theorem Earliest.snoc {candidates : List α} {held : Option α}
    (h : Earliest score candidates held) (candidate : α) :
    Earliest score (candidates ++ [candidate])
      (improve score held candidate) := by
  cases h with
  | empty => exact .won [] [] candidate (by simp) (by simp)
  | won before after winner hbefore hafter =>
      unfold improve
      by_cases hbetter : score winner < score candidate
      · simp only [if_pos hbetter]
        refine .won _ [] candidate ?_ (by simp)
        intro other hmem
        rcases List.mem_append.mp hmem with hmem | hmem
        · exact Nat.lt_trans (hbefore other hmem) hbetter
        · rcases List.mem_cons.mp hmem with rfl | hmem
          · exact hbetter
          · exact Nat.lt_of_le_of_lt (hafter other hmem) hbetter
      · simp only [if_neg hbetter, List.append_assoc, List.cons_append]
        refine .won before _ winner hbefore ?_
        intro other hmem
        rcases List.mem_append.mp hmem with hmem | hmem
        · exact hafter other hmem
        · rw [List.mem_singleton.mp hmem]
          omega

theorem Earliest.isSome_iff {candidates : List α} {winner : Option α}
    (h : Earliest score candidates winner) :
    winner.isSome = true ↔ candidates ≠ [] := by
  cases h with
  | empty => simp
  | won before after winner hbefore hafter => simp

theorem Earliest.mem {candidates : List α} {winner : α}
    (h : Earliest score candidates (some winner)) :
    winner ∈ candidates := by
  cases h
  simp

theorem Earliest.best {candidates : List α} {winner other : α}
    (h : Earliest score candidates (some winner))
    (hmem : other ∈ candidates) : score other ≤ score winner := by
  cases h with
  | won before after _ hbefore hafter =>
      rcases List.mem_append.mp hmem with hmem | hmem
      · exact Nat.le_of_lt (hbefore other hmem)
      · rcases List.mem_cons.mp hmem with rfl | hmem
        · exact Nat.le_refl _
        · exact hafter other hmem

theorem Earliest.score_perm {candidates candidates' : List α}
    {winner winner' : Option α} (h : Earliest score candidates winner)
    (h' : Earliest score candidates' winner')
    (hperm : candidates.Perm candidates') :
    winner.map score = winner'.map score := by
  cases winner with
  | none =>
      cases winner' with
      | none => rfl
      | some held =>
          have hmem := hperm.mem_iff.mpr h'.mem
          cases h
          cases hmem
  | some held =>
      cases winner' with
      | none =>
          have hmem := hperm.mem_iff.mp h.mem
          cases h'
          cases hmem
      | some held' =>
          have hle := h'.best (hperm.mem_iff.mp h.mem)
          have hge := h.best (hperm.mem_iff.mpr h'.mem)
          simp only [Option.map_some]
          rw [Nat.le_antisymm hle hge]

end Netflector.Foundation
