import Mathlib.Data.List.Nodup

/-!
# Duplicate-free lists

A list that is never empty and holds nothing twice, under a rule that each of
its elements passes.
-/

namespace Netflector

/-- The noun of the error texts, and why an element is refused. -/
structure ListRule (Item : Type) where
  noun : String
  refuse : Item → Option String

structure UniqueList {Item : Type} (rule : ListRule Item) where
  items : List Item
  nonempty : items ≠ []
  nodup : items.Nodup
  admitted : ∀ item ∈ items, rule.refuse item = none

theorem UniqueList.ext_items {Item : Type} {rule : ListRule Item}
    {first second : UniqueList rule} (h : first.items = second.items) :
    first = second := by
  cases first
  cases second
  cases h
  rfl

instance {Item : Type} {rule : ListRule Item} [DecidableEq Item] :
    DecidableEq (UniqueList rule) := fun first second =>
  decidable_of_iff (first.items = second.items)
    ⟨UniqueList.ext_items, congrArg UniqueList.items⟩

/-! ## Building one -/

inductive ListError (Item : Type) where
  | empty (noun : String)
  | duplicate (noun : String) (item : Item)
  | refused (item : Item) (reason : String)

section TryFrom

variable {Item : Type} [DecidableEq Item]

/-- The first item that the rule refuses or that stands among those `before`
it. -/
def firstFault (rule : ListRule Item) (before : List Item) :
    List Item → Option (ListError Item)
  | [] => none
  | item :: rest =>
      match rule.refuse item with
      | some reason => some (.refused item reason)
      | none =>
          if before.contains item then some (.duplicate rule.noun item)
          else firstFault rule (before ++ [item]) rest

theorem firstFault_none_iff {rule : ListRule Item} {before items : List Item} :
    firstFault rule before items = none ↔
      items.Nodup ∧ (∀ item ∈ items, item ∉ before) ∧
        ∀ item ∈ items, rule.refuse item = none := by
  induction items generalizing before with
  | nil => simp [firstFault]
  | cons item items ih =>
      unfold firstFault
      cases hrefuse : rule.refuse item with
      | some reason => simp [hrefuse]
      | none =>
          simp only [List.contains_iff_mem, List.nodup_cons,
            List.forall_mem_cons, hrefuse, true_and]
          by_cases hmem : item ∈ before
          · simp [hmem]
          · rw [if_neg hmem, ih]
            simp only [List.mem_append, List.mem_singleton, not_or]
            constructor
            · rintro ⟨hnodup, hfresh, hadmitted⟩
              exact ⟨⟨fun h => (hfresh item h).2 rfl, hnodup⟩,
                ⟨hmem, fun later h => (hfresh later h).1⟩, hadmitted⟩
            · rintro ⟨⟨hitem, hnodup⟩, ⟨_, hfresh⟩, hadmitted⟩
              exact ⟨hnodup, fun later h => ⟨hfresh later h,
                fun heq => hitem (heq ▸ h)⟩, hadmitted⟩

def UniqueList.tryFrom (rule : ListRule Item) (items : List Item) :
    Except (ListError Item) (UniqueList rule) :=
  if hempty : items = [] then .error (.empty rule.noun)
  else
    match hfault : firstFault rule [] items with
    | some fault => .error fault
    | none => .ok ⟨items, hempty, (firstFault_none_iff.mp hfault).1,
        (firstFault_none_iff.mp hfault).2.2⟩

theorem UniqueList.tryFrom_part {rule : ListRule Item}
    (list : UniqueList rule) {part : List Item} (h : part.Sublist list.items)
    (hne : part ≠ []) :
    ∃ kept, UniqueList.tryFrom rule part = .ok kept ∧ kept.items = part := by
  have hnone : firstFault rule [] part = none := by
    refine firstFault_none_iff.mpr ⟨list.nodup.sublist h, by simp, ?_⟩
    exact fun item hmem => list.admitted item (h.subset hmem)
  unfold UniqueList.tryFrom
  rw [dif_neg hne]
  split
  · rename_i fault hfault
    rw [hnone] at hfault
    cases hfault
  · exact ⟨_, rfl, rfl⟩

end TryFrom

end Netflector
