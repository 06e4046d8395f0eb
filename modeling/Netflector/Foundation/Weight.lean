import Mathlib.Data.List.Perm.Subperm

/-!
# Weights of lists

The total weight of the members of a list, for accounts in which every member
pays at most once.
-/

namespace Netflector.Foundation

variable {α : Type}

def weigh (weight : α → Nat) : List α → Nat
  | [] => 0
  | member :: members => weight member + weigh weight members

@[simp] theorem weigh_nil (weight : α → Nat) : weigh weight [] = 0 := rfl

@[simp] theorem weigh_cons (weight : α → Nat) (member : α)
    (members : List α) :
    weigh weight (member :: members) =
      weight member + weigh weight members :=
  rfl

@[simp] theorem weigh_append (weight : α → Nat) (first second : List α) :
    weigh weight (first ++ second) =
      weigh weight first + weigh weight second := by
  induction first with
  | nil => simp
  | cons member members ih =>
      rw [List.cons_append, weigh_cons, weigh_cons, ih]
      omega

theorem weigh_perm (weight : α → Nat) {first second : List α}
    (h : first.Perm second) : weigh weight first = weigh weight second := by
  induction h with
  | nil => rfl
  | cons member _ ih => rw [weigh_cons, weigh_cons, ih]
  | swap member other members =>
      simp only [weigh_cons]
      omega
  | trans _ _ ih ih' => rw [ih, ih']

theorem weigh_sublist (weight : α → Nat) {first second : List α}
    (h : first.Sublist second) :
    weigh weight first ≤ weigh weight second := by
  induction h with
  | slnil => exact Nat.le_refl _
  | cons member _ ih =>
      rw [weigh_cons]
      omega
  | cons_cons member _ ih =>
      rw [weigh_cons, weigh_cons]
      omega

theorem weigh_subset (weight : α → Nat) {first second : List α}
    (hnodup : first.Nodup) (hsub : first ⊆ second) :
    weigh weight first ≤ weigh weight second := by
  obtain ⟨middle, hperm, hsublist⟩ := List.subperm_of_subset hnodup hsub
  rw [weigh_perm weight hperm.symm]
  exact weigh_sublist weight hsublist

end Netflector.Foundation
