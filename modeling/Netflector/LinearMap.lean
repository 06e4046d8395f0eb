import Mathlib.Data.List.Nodup
import Mathlib.Data.List.Perm.Basic
import Mathlib.Tactic.Common

/-!
# The linear map

A map over a list of pairs, scanned from the front.  No key occurs twice, so
looking a key up is membership.
-/

namespace Netflector

/-- `Vec::swap_remove`: the last item takes the place of the removed one. -/
def swapRemove {Item : Type} (items : List Item) (index : Nat) : List Item :=
  match items.getLast? with
  | none => []
  | some last => (items.set index last).dropLast

theorem swapRemove_perm {Item : Type} {items : List Item} {index : Nat}
    (h : index < items.length) :
    (swapRemove items index).Perm (items.eraseIdx index) := by
  rcases List.eq_nil_or_concat items with rfl | ⟨front, last, rfl⟩
  · cases h
  rw [List.concat_eq_append] at h ⊢
  rw [List.length_append, List.length_singleton] at h
  simp only [swapRemove, List.getLast?_append, List.getLast?_singleton,
    Option.some_or]
  by_cases hfront : index < front.length
  · rw [List.set_append_left _ _ hfront, List.dropLast_concat,
      List.eraseIdx_append_of_lt_length hfront,
      List.set_eq_take_append_cons_drop, if_pos hfront,
      List.eraseIdx_eq_take_drop_succ]
    exact List.perm_middle.trans (List.perm_append_singleton _ _).symm
  · have hlast : index = front.length := by omega
    subst hlast
    simp [List.set_append_right, List.eraseIdx_append_of_length_le]

structure LinearMap (Key Value : Type) where
  entries : List (Key × Value)
  nodup : (entries.map Prod.fst).Nodup

namespace LinearMap

variable {Key Value : Type}

def new : LinearMap Key Value := ⟨[], List.nodup_nil⟩

def len (map : LinearMap Key Value) : Nat := map.entries.length

def retain (map : LinearMap Key Value) (keep : Key → Value → Bool) :
    LinearMap Key Value where
  entries := map.entries.filter fun entry => keep entry.1 entry.2
  nodup := map.nodup.sublist ((List.filter_sublist).map _)

theorem mem_retain {map : LinearMap Key Value} {keep : Key → Value → Bool}
    {entry : Key × Value} :
    entry ∈ (map.retain keep).entries ↔
      entry ∈ map.entries ∧ keep entry.1 entry.2 = true := by
  rw [retain, List.mem_filter]

def mapValues (map : LinearMap Key Value) (change : Key → Value → Value) :
    LinearMap Key Value where
  entries := map.entries.map fun entry => (entry.1, change entry.1 entry.2)
  nodup := by
    rw [List.map_map]
    exact map.nodup

variable [DecidableEq Key]

def get (map : LinearMap Key Value) (key : Key) : Option Value :=
  (map.entries.find? (·.1 = key)).map Prod.snd

theorem get_eq_some_iff {map : LinearMap Key Value} {key : Key}
    {value : Value} : map.get key = some value ↔ (key, value) ∈ map.entries := by
  unfold get
  obtain ⟨entries, hnodup⟩ := map
  simp only
  induction entries with
  | nil => simp
  | cons entry entries ih =>
      rw [List.map_cons, List.nodup_cons] at hnodup
      by_cases hkey : entry.1 = key
      · rw [List.find?_cons_of_pos (by simpa using hkey), Option.map_some,
          Option.some.injEq, List.mem_cons]
        constructor
        · rintro rfl
          exact .inl (by rw [← hkey])
        · rintro (rfl | hmem)
          · rfl
          · exact absurd (hkey ▸ List.mem_map_of_mem hmem) hnodup.1
      · rw [List.find?_cons_of_neg (by simpa using hkey), ih hnodup.2,
          List.mem_cons]
        constructor
        · exact .inr
        · rintro (rfl | hmem)
          · exact absurd rfl hkey
          · exact hmem

theorem get_eq_none_iff {map : LinearMap Key Value} {key : Key} :
    map.get key = none ↔ ∀ value, (key, value) ∉ map.entries := by
  constructor
  · intro hnone value hmem
    rw [get_eq_some_iff.mpr hmem] at hnone
    cases hnone
  · intro hnone
    cases hget : map.get key with
    | none => rfl
    | some value => exact absurd (get_eq_some_iff.mp hget) (hnone value)

/-- The new value takes the place of an old one; a new key goes last. -/
def insert (map : LinearMap Key Value) (key : Key) (value : Value) :
    LinearMap Key Value :=
  if h : map.get key = none then
    { entries := map.entries ++ [(key, value)]
      nodup := by
        rw [List.map_append, List.nodup_append]
        refine ⟨map.nodup, List.nodup_singleton _, ?_⟩
        rintro _ hmem _ hlast rfl
        obtain ⟨⟨key', value'⟩, hentry, rfl⟩ := List.mem_map.mp hmem
        have hkey : key' = key := by simpa using hlast
        subst hkey
        exact get_eq_none_iff.mp h value' hentry }
  else map.mapValues fun key' value' => if key' = key then value else value'

def remove (map : LinearMap Key Value) (key : Key) :
    LinearMap Key Value × Option Value :=
  match h : map.entries.findIdx? (·.1 = key) with
  | none => (map, none)
  | some index =>
      ({ entries := swapRemove map.entries index
         nodup := by
           have hindex := (List.findIdx?_eq_some_iff_getElem.mp h).1
           have hperm := (swapRemove_perm hindex).map Prod.fst
           rw [hperm.nodup_iff]
           exact map.nodup.sublist ((List.eraseIdx_sublist _ _).map _) },
        map.entries[index]?.map Prod.snd)

/-! ## Entries after an operation -/

theorem mem_insert {map : LinearMap Key Value} {key : Key} {value : Value}
    {entry : Key × Value} :
    entry ∈ (map.insert key value).entries ↔
      entry = (key, value) ∨ (entry ∈ map.entries ∧ entry.1 ≠ key) := by
  obtain ⟨key', value'⟩ := entry
  unfold insert
  split
  · rename_i hnone
    rw [List.mem_append, List.mem_singleton, or_comm]
    constructor
    · rintro (hnew | hold)
      · exact .inl hnew
      · refine .inr ⟨hold, ?_⟩
        rintro rfl
        exact get_eq_none_iff.mp hnone _ hold
    · rintro (hnew | ⟨hold, _⟩)
      · exact .inl hnew
      · exact .inr hold
  · rename_i hsome
    obtain ⟨old, hold⟩ := Option.ne_none_iff_exists'.mp hsome
    simp only [mapValues, List.mem_map, Prod.mk.injEq, Prod.exists]
    constructor
    · rintro ⟨key₀, value₀, hmem, rfl, rfl⟩
      by_cases hkey : key₀ = key
      · exact .inl ⟨hkey, if_pos hkey⟩
      · rw [if_neg hkey]
        exact .inr ⟨hmem, hkey⟩
    · rintro (⟨rfl, rfl⟩ | ⟨hmem, hkey⟩)
      · exact ⟨key', old, get_eq_some_iff.mp hold, rfl, if_pos rfl⟩
      · exact ⟨key', value', hmem, rfl, if_neg hkey⟩

theorem len_insert_of_none {map : LinearMap Key Value} {key : Key}
    (h : map.get key = none) (value : Value) :
    (map.insert key value).len = map.len + 1 := by
  rw [insert, dif_pos h]
  exact List.length_append

theorem len_insert_of_some {map : LinearMap Key Value} {key : Key}
    {old : Value} (h : map.get key = some old) (value : Value) :
    (map.insert key value).len = map.len := by
  rw [insert, dif_neg (by simp [h])]
  exact List.length_map _

theorem get_insert (map : LinearMap Key Value) (key : Key) (value : Value) :
    (map.insert key value).get key = some value :=
  get_eq_some_iff.mpr (mem_insert.mpr (.inl rfl))

theorem mem_remove {map : LinearMap Key Value} {key : Key}
    {entry : Key × Value} :
    entry ∈ (map.remove key).1.entries ↔
      entry ∈ map.entries ∧ entry.1 ≠ key := by
  unfold remove
  split
  · rename_i hnone
    rw [List.findIdx?_eq_none_iff] at hnone
    constructor
    · intro hmem
      exact ⟨hmem, by simpa using hnone entry hmem⟩
    · exact And.left
  · rename_i index hindex
    obtain ⟨hbound, hkey, _⟩ := List.findIdx?_eq_some_iff_getElem.mp hindex
    have hkey' : (map.entries.get ⟨index, hbound⟩).1 = key := by
      simpa using hkey
    simp only
    rw [(swapRemove_perm hbound).mem_iff, List.mem_eraseIdx_iff_getElem]
    constructor
    · rintro ⟨other, hother, hne, rfl⟩
      refine ⟨List.getElem_mem hother, ?_⟩
      intro hsame
      apply hne
      have hfirst : other < (map.entries.map Prod.fst).length := by
        simpa using hother
      have hsecond : index < (map.entries.map Prod.fst).length := by
        simpa using hbound
      have hinj : (map.entries.map Prod.fst).get ⟨other, hfirst⟩ =
          (map.entries.map Prod.fst).get ⟨index, hsecond⟩ := by
        simpa using hsame.trans hkey'.symm
      simpa using List.nodup_iff_injective_get.mp map.nodup hinj
    · rintro ⟨hmem, hne⟩
      obtain ⟨other, hother, rfl⟩ := List.getElem_of_mem hmem
      refine ⟨other, hother, ?_, rfl⟩
      rintro rfl
      exact hne hkey'

theorem len_remove {map : LinearMap Key Value} {key : Key} {value : Value}
    (h : (key, value) ∈ map.entries) :
    (map.remove key).1.len + 1 = map.len := by
  unfold remove len
  split
  · rename_i hnone
    rw [List.findIdx?_eq_none_iff] at hnone
    simpa using hnone _ h
  · rename_i index hindex
    obtain ⟨hbound, _⟩ := List.findIdx?_eq_some_iff_getElem.mp hindex
    simp only
    rw [(swapRemove_perm hbound).length_eq, List.length_eraseIdx_add_one hbound]

theorem remove_value (map : LinearMap Key Value) (key : Key) :
    (map.remove key).2 = map.get key := by
  unfold remove
  split
  · rename_i hnone
    rw [List.findIdx?_eq_none_iff] at hnone
    symm
    rw [get_eq_none_iff]
    intro value hmem
    simpa using hnone _ hmem
  · rename_i index hindex
    obtain ⟨hbound, hkey, _⟩ := List.findIdx?_eq_some_iff_getElem.mp hindex
    simp only [List.getElem?_eq_getElem hbound, Option.map_some]
    symm
    rw [get_eq_some_iff]
    have hkey' : (map.entries.get ⟨index, hbound⟩).1 = key := by
      simpa using hkey
    rw [← hkey']
    exact List.getElem_mem hbound

theorem remove_none {map : LinearMap Key Value} {key : Key}
    (h : (map.remove key).2 = none) : (map.remove key).1 = map := by
  rw [remove_value, get_eq_none_iff] at h
  unfold remove
  split
  · rfl
  · rename_i index hindex
    obtain ⟨hbound, hkey, _⟩ := List.findIdx?_eq_some_iff_getElem.mp hindex
    have hkey' : (map.entries.get ⟨index, hbound⟩).1 = key := by
      simpa using hkey
    refine absurd (List.getElem_mem hbound) ?_
    rw [← hkey'] at h
    exact h _

/-! ## Looking up after an operation -/

theorem get_insert_ne {map : LinearMap Key Value} {key other : Key}
    (hne : other ≠ key) (value : Value) :
    (map.insert key value).get other = map.get other := by
  ext found
  rw [get_eq_some_iff, get_eq_some_iff, mem_insert]
  constructor
  · rintro (hnew | ⟨hold, _⟩)
    · cases hnew
      exact absurd rfl hne
    · exact hold
  · intro hold
    exact .inr ⟨hold, hne⟩

theorem get_remove (map : LinearMap Key Value) (key other : Key) :
    (map.remove key).1.get other =
      if other = key then none else map.get other := by
  ext found
  rw [get_eq_some_iff, mem_remove]
  split
  · rename_i hsame
    simp [hsame]
  · rename_i hne
    simp [hne, get_eq_some_iff]

theorem get_retain (map : LinearMap Key Value) (keep : Key → Value → Bool)
    (key : Key) :
    (map.retain keep).get key = (map.get key).filter (keep key) := by
  ext found
  rw [get_eq_some_iff, mem_retain, Option.filter_eq_some_iff, get_eq_some_iff]

theorem len_retain_le (map : LinearMap Key Value)
    (keep : Key → Value → Bool) : (map.retain keep).len ≤ map.len :=
  List.length_filter_le _ _

end LinearMap

end Netflector
