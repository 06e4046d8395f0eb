import Mathlib.Data.List.Basic
import Mathlib.Data.List.Count
import Mathlib.Tactic.Common

/-!
# Histories

A history is a list that grows at its end.  A mark is guarded when, at each of
its occurrences, what came before satisfied the guard.
-/

namespace Netflector.Foundation

universe u

variable {Event : Type u}

def Guarded (mark : Event) (guard : List Event → Prop) (log : List Event) :
    Prop :=
  ∀ before after, log = before ++ mark :: after → guard before

theorem guarded_nil (mark : Event) (guard : List Event → Prop) :
    Guarded mark guard [] := by
  intro before after h
  simp at h

theorem Guarded.append {mark : Event} {guard : List Event → Prop}
    {log events : List Event} (h : Guarded mark guard log)
    (hevents : mark ∉ events) : Guarded mark guard (log ++ events) := by
  intro before after hsplit
  rcases List.append_eq_append_iff.mp hsplit with
    ⟨between, rfl, hrest⟩ | ⟨between, rfl, hrest⟩
  · -- The occurrence would lie among the new events.
    rw [hrest] at hevents
    simp at hevents
  · cases between with
    | nil =>
        rw [List.nil_append] at hrest
        rw [← hrest] at hevents
        simp at hevents
    | cons first between =>
        cases hrest
        exact h before between rfl

theorem Guarded.mark {mark : Event} {guard : List Event → Prop}
    {log : List Event} (hguard : guard log) (hfresh : mark ∉ log) :
    Guarded mark guard (log ++ [mark]) := by
  intro before after hsplit
  rcases List.append_eq_append_iff.mp hsplit with
    ⟨between, rfl, hrest⟩ | ⟨between, rfl, hrest⟩
  · cases between with
    | nil => rwa [List.append_nil]
    | cons first between => simp at hrest
  · cases between with
    | nil => rwa [List.append_nil] at hguard
    | cons first between =>
        cases hrest
        simp at hfresh

theorem Guarded.count_le_one [DecidableEq Event] {mark : Event}
    {guard : List Event → Prop} {log : List Event}
    (h : Guarded mark guard log) (hfresh : ∀ before, guard before →
      mark ∉ before) : log.count mark ≤ 1 := by
  by_contra hmany
  have hmem : mark ∈ log := by
    rw [← List.count_pos_iff]
    omega
  obtain ⟨before, after, rfl, hnot⟩ := List.eq_append_cons_of_mem hmem
  rw [List.count_append, List.count_cons_self,
    List.count_eq_zero.mpr hnot] at hmany
  have hafter : mark ∈ after := by
    rw [← List.count_pos_iff]
    omega
  obtain ⟨between, last, rfl⟩ := List.append_of_mem hafter
  apply hfresh _ (h (before ++ mark :: between) last (by simp))
  simp

end Netflector.Foundation
