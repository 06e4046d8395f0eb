import Netflector.Reactor.Arena

/-!
# Laws of the arena

What every operation does to every key, and why a removed key stays stale as
long as its slot is reused less than 2^32 times.
-/

namespace Netflector.Reactor

open Netflector.Foundation

namespace Arena

variable {Value : Type} {arena : Arena Value} {key : Key} {value : Value}

theorem get_eq_some_iff :
    arena.get key = some value ↔
      ∃ slot, arena.slots[key.index.toNat]? = some slot ∧
        slot.generation = key.generation ∧ slot.value = some value := by
  simp only [get, slot, Option.bind_eq_some_iff, Option.filter_eq_some_iff,
    decide_eq_true_eq, and_assoc]

/-! ## Well-formed arenas -/

/-- Only empty slots are free, each of them once. -/
structure Wf (arena : Arena Value) : Prop where
  bound : arena.slots.length ≤ 0x100000000
  free : ∀ index ∈ arena.free, ∃ slot,
    arena.slots[index.toNat]? = some slot ∧ slot.value = none
  nodup : arena.free.Nodup

theorem wf_new : (new : Arena Value).Wf := by
  refine ⟨Nat.zero_le _, ?_, List.nodup_nil⟩
  intro index hmem
  cases hmem

theorem get_set_slot {slots : List (Slot Value)} {free : List UInt32}
    {index : UInt32} {slot : Slot Value}
    (h : index.toNat < slots.length) (key : Key) :
    (⟨slots.set index.toNat slot, free⟩ : Arena Value).get key =
      if key.index = index then
        if slot.generation = key.generation then slot.value else none
      else (⟨slots, free⟩ : Arena Value).get key := by
  simp only [get, Arena.slot]
  by_cases hindex : key.index = index
  · subst hindex
    rw [List.getElem?_set_self h, if_pos rfl, Option.filter_some]
    by_cases hgeneration : slot.generation = key.generation
    · simp [hgeneration]
    · simp [hgeneration]
  · have hne : index.toNat ≠ key.index.toNat := by
      intro hsame
      exact hindex (UInt32.toNat_inj.mp hsame.symm)
    rw [List.getElem?_set_ne hne, if_neg hindex]

structure Inserted (arena arena' : Arena Value) (key : Key) (value : Value) :
    Prop where
  fresh : arena.get key = none
  get_eq : ∀ other, arena'.get other =
    if other = key then some value else arena.get other

structure Placed (arena arena' : Arena Value) (key : Key) (value : Value) :
    Prop where
  inserted : Inserted arena arena' key value
  wf : arena'.Wf
  slot : arena'.slots[key.index.toNat]? = some ⟨key.generation, some value⟩
  others : ∀ index : UInt32, index ≠ key.index →
    arena'.slots[index.toNat]? = arena.slots[index.toNat]?
  generation : ∀ slot, arena.slots[key.index.toNat]? = some slot →
    slot.generation = key.generation
  grown : arena.slots[key.index.toNat]? = none → key.generation = 0

theorem insertFrom_reused (hwf : arena.Wf) (make : Key → Value)
    {index : UInt32} {free : List UInt32} (hfree : arena.free = index :: free) :
    ∃ arena' key, arena.insertFrom make = .ok (arena', key) ∧
      Placed arena arena' key (make key) := by
  obtain ⟨slot, hslot, hempty⟩ :=
    hwf.free index (by rw [hfree]; exact List.mem_cons_self ..)
  have hnodup := hwf.nodup
  rw [hfree, List.nodup_cons] at hnodup
  obtain ⟨hlt, _⟩ := List.getElem?_eq_some_iff.mp hslot
  simp only [insertFrom, hfree, hslot]
  have hvacant : ∀ key : Key, key.index = index → arena.get key = none := by
    rintro key rfl
    simp [get, Arena.slot, hslot, Option.filter_some, hempty]
  refine ⟨_, _, rfl, ?_, ?_, ?_, ?_, ?_, ?_⟩
  · refine ⟨hvacant _ rfl, ?_⟩
    intro other
    rw [get_set_slot hlt]
    by_cases hindex : other.index = index
    · rw [if_pos hindex, hvacant other hindex]
      by_cases hgeneration : slot.generation = other.generation
      · have hkey : other = ⟨index, slot.generation⟩ := by
          rw [hgeneration, ← hindex]
        rw [if_pos hgeneration, if_pos hkey]
      · have hkey : other ≠ ⟨index, slot.generation⟩ := by
          rintro rfl
          exact hgeneration rfl
        rw [if_neg hgeneration, if_neg hkey]
    · have hkey : other ≠ ⟨index, slot.generation⟩ := by
        rintro rfl
        exact hindex rfl
      rw [if_neg hindex, if_neg hkey]
      rfl
  · refine ⟨by rw [List.length_set]; exact hwf.bound, ?_, hnodup.2⟩
    intro later hlater
    obtain ⟨found, hfound, hnone⟩ := hwf.free later (by
      rw [hfree]
      exact List.mem_cons_of_mem _ hlater)
    refine ⟨found, ?_, hnone⟩
    have hne : index.toNat ≠ later.toNat := by
      intro hsame
      exact hnodup.1 (UInt32.toNat_inj.mp hsame ▸ hlater)
    rw [List.getElem?_set_ne hne]
    exact hfound
  · rw [List.getElem?_set_self hlt]
  · intro other hother
    have hne : index.toNat ≠ other.toNat := by
      intro hsame
      exact hother (UInt32.toNat_inj.mp hsame).symm
    rw [List.getElem?_set_ne hne]
  · intro found hfound
    rw [hslot, Option.some.injEq] at hfound
    rw [hfound]
  · intro hnone
    rw [hslot] at hnone
    cases hnone

theorem insertFrom_grown (make : Key → Value) (hfree : arena.free = [])
    (hroom : arena.slots.length < 0x100000000) :
    ∃ arena' key, arena.insertFrom make = .ok (arena', key) ∧
      Placed arena arena' key (make key) := by
  simp only [insertFrom, hfree, if_pos hroom]
  have hindex : (UInt32.ofNat arena.slots.length).toNat =
      arena.slots.length := by
    rw [UInt32.toNat_ofNat']
    omega
  have hlast : ∀ index : UInt32, index ≠ UInt32.ofNat arena.slots.length →
      ∀ slot : Slot Value, (arena.slots ++ [slot])[index.toNat]? =
        arena.slots[index.toNat]? := by
    intro index hne slot
    have hne' : index.toNat ≠ arena.slots.length := by
      rw [← hindex]
      exact fun hsame => hne (UInt32.toNat_inj.mp hsame)
    rcases Nat.lt_or_gt_of_ne hne' with hlt | hgt
    · exact List.getElem?_append_left hlt
    · rw [List.getElem?_eq_none (by simp; omega),
        List.getElem?_eq_none (by omega)]
  have hnew : ∀ slot : Slot Value, (arena.slots ++ [slot])[
      (UInt32.ofNat arena.slots.length).toNat]? = some slot := by
    intro slot
    rw [hindex, List.getElem?_concat_length]
  have hnone : arena.slots[(UInt32.ofNat arena.slots.length).toNat]? =
      none := by
    rw [hindex]
    exact List.getElem?_eq_none (Nat.le_refl _)
  refine ⟨_, _, rfl, ?_, ?_, hnew _, ?_, ?_, fun _ => rfl⟩
  · refine ⟨by rw [get, Arena.slot, hnone]; rfl, ?_⟩
    intro other
    simp only [get, Arena.slot]
    by_cases hother : other.index = UInt32.ofNat arena.slots.length
    · rw [hother, hnew, hnone]
      by_cases hgeneration : other.generation = 0
      · have hkey : other = ⟨UInt32.ofNat arena.slots.length, 0⟩ := by
          rw [← hother, ← hgeneration]
        rw [if_pos hkey]
        simp [Option.filter_some, hgeneration]
      · have hkey : other ≠ ⟨UInt32.ofNat arena.slots.length, 0⟩ := by
          rintro rfl
          exact hgeneration rfl
        have hold : (0 : UInt32) ≠ other.generation :=
          fun hsame => hgeneration hsame.symm
        rw [if_neg hkey]
        simp [Option.filter_some, hold]
    · have hkey : other ≠ ⟨UInt32.ofNat arena.slots.length, 0⟩ := by
        rintro rfl
        exact hother rfl
      rw [hlast other.index hother, if_neg hkey]
  · refine ⟨by simp; omega, ?_, List.nodup_nil⟩
    intro index hmem
    cases hmem
  · exact fun index hne => hlast index hne _
  · intro slot hslot
    rw [hnone] at hslot
    cases hslot

theorem insertFrom_total (hwf : arena.Wf) (make : Key → Value) :
    (∃ arena' key, arena.insertFrom make = .ok (arena', key) ∧
      Placed arena arena' key (make key)) ∨
    arena.insertFrom make = .error (.expect "arena index space exhausted") := by
  cases hfree : arena.free with
  | cons index free => exact .inl (insertFrom_reused hwf make hfree)
  | nil =>
      by_cases hroom : arena.slots.length < 0x100000000
      · exact .inl (insertFrom_grown make hfree hroom)
      · right
        simp only [insertFrom, hfree, if_neg hroom]

/-! ## Removing and storing -/

theorem remove_none (h : arena.get key = none) :
    arena.remove key = (arena, none) := by
  rw [remove, h]

theorem index_lt (h : arena.get key = some value) :
    key.index.toNat < arena.slots.length := by
  obtain ⟨slot, hslot, _⟩ := get_eq_some_iff.mp h
  exact (List.getElem?_eq_some_iff.mp hslot).1

theorem get_same_index (h : arena.get key = some value) {other : Key}
    (hindex : other.index = key.index) (hne : other ≠ key) :
    arena.get other = none := by
  obtain ⟨slot, hslot, hgeneration, _⟩ := get_eq_some_iff.mp h
  cases hget : arena.get other with
  | none => rfl
  | some found =>
      obtain ⟨slot', hslot', hgeneration', _⟩ := get_eq_some_iff.mp hget
      rw [hindex, hslot, Option.some.injEq] at hslot'
      subst hslot'
      obtain ⟨index, generation⟩ := other
      obtain ⟨index', generation'⟩ := key
      simp only at hindex hgeneration hgeneration'
      subst hindex
      rw [hgeneration] at hgeneration'
      subst hgeneration'
      exact absurd rfl hne

theorem remove_some (h : arena.get key = some value) :
    arena.remove key =
      (⟨arena.slots.set key.index.toNat ⟨key.generation + 1, none⟩,
        key.index :: arena.free⟩, some value) := by
  rw [remove, h]

theorem get_remove (h : arena.get key = some value) (other : Key) :
    (arena.remove key).1.get other =
      if other = key then none else arena.get other := by
  rw [remove_some h]
  simp only
  rw [get_set_slot (index_lt h)]
  by_cases hindex : other.index = key.index
  · rw [if_pos hindex]
    by_cases hsame : other = key
    · rw [if_pos hsame]
      split <;> rfl
    · rw [if_neg hsame, get_same_index h hindex hsame]
      split <;> rfl
  · have hne : other ≠ key := by
      rintro rfl
      exact hindex rfl
    rw [if_neg hindex, if_neg hne]
    rfl

theorem wf_remove (hwf : arena.Wf) (h : arena.get key = some value) :
    (arena.remove key).1.Wf := by
  obtain ⟨slot, hslot, hgeneration, hvalue⟩ := get_eq_some_iff.mp h
  have hlt := index_lt h
  rw [remove_some h]
  refine ⟨by rw [List.length_set]; exact hwf.bound, ?_, ?_⟩
  · intro index hmem
    rcases List.mem_cons.mp hmem with rfl | hold
    · exact ⟨_, List.getElem?_set_self hlt, rfl⟩
    · obtain ⟨found, hfound, hnone⟩ := hwf.free index hold
      refine ⟨found, ?_, hnone⟩
      have hne : key.index.toNat ≠ index.toNat := by
        intro hsame
        rw [← hsame, hslot, Option.some.injEq] at hfound
        rw [hfound, hnone] at hvalue
        cases hvalue
      rw [List.getElem?_set_ne hne]
      exact hfound
  · rw [List.nodup_cons]
    refine ⟨?_, hwf.nodup⟩
    intro hmem
    obtain ⟨found, hfound, hnone⟩ := hwf.free key.index hmem
    rw [hslot, Option.some.injEq] at hfound
    rw [hfound, hnone] at hvalue
    cases hvalue

theorem set_none (h : arena.get key = none) (stored : Value) :
    arena.set key stored = arena := by
  rw [set, h]

theorem set_some (h : arena.get key = some value) (stored : Value) :
    arena.set key stored =
      ⟨arena.slots.set key.index.toNat ⟨key.generation, some stored⟩,
        arena.free⟩ := by
  rw [set, h]

theorem get_set (h : arena.get key = some value) (stored : Value)
    (other : Key) :
    (arena.set key stored).get other =
      if other = key then some stored else arena.get other := by
  rw [set_some h]
  rw [get_set_slot (index_lt h)]
  by_cases hindex : other.index = key.index
  · rw [if_pos hindex]
    by_cases hsame : other = key
    · rw [if_pos hsame, hsame, if_pos rfl]
    · have hgeneration : key.generation ≠ other.generation := by
        intro hgeneration
        obtain ⟨index, generation⟩ := other
        obtain ⟨index', generation'⟩ := key
        simp only at hindex hgeneration
        subst hindex hgeneration
        exact hsame rfl
      rw [if_neg hsame, if_neg hgeneration, get_same_index h hindex hsame]
  · have hne : other ≠ key := by
      rintro rfl
      exact hindex rfl
    rw [if_neg hindex, if_neg hne]

theorem wf_set (hwf : arena.Wf) (key : Key) (stored : Value) :
    (arena.set key stored).Wf := by
  cases hget : arena.get key with
  | none =>
      rw [set_none hget]
      exact hwf
  | some value =>
      obtain ⟨slot, hslot, hgeneration, hvalue⟩ := get_eq_some_iff.mp hget
      rw [set_some hget]
      refine ⟨by rw [List.length_set]; exact hwf.bound, ?_, hwf.nodup⟩
      intro index hmem
      obtain ⟨found, hfound, hnone⟩ := hwf.free index hmem
      refine ⟨found, ?_, hnone⟩
      have hne : key.index.toNat ≠ index.toNat := by
        intro hsame
        rw [← hsame, hslot, Option.some.injEq] at hfound
        rw [hfound, hnone] at hvalue
        cases hvalue
      rw [List.getElem?_set_ne hne]
      exact hfound

theorem mem_iter (hwf : arena.Wf) :
    (key, value) ∈ arena.iter ↔ arena.get key = some value := by
  rw [get_eq_some_iff]
  simp only [iter, List.mem_filterMap, Option.map_eq_some_iff, Prod.exists,
    Prod.mk.injEq, List.mem_zipIdx_iff_getElem?]
  constructor
  · rintro ⟨slot, index, hslot, found, hfound, rfl, rfl⟩
    have hlt := (List.getElem?_eq_some_iff.mp hslot).1
    have hbound := hwf.bound
    refine ⟨slot, ?_, rfl, hfound⟩
    simp only [UInt32.toNat_ofNat']
    rw [Nat.mod_eq_of_lt (by omega)]
    exact hslot
  · rintro ⟨slot, hslot, hgeneration, hvalue⟩
    refine ⟨slot, key.index.toNat, hslot, value, hvalue, ?_, rfl⟩
    rw [UInt32.ofNat_toNat, hgeneration]

theorem iter_keys_nodup (hwf : arena.Wf) :
    (arena.iter.map Prod.fst).Nodup := by
  have hbound := hwf.bound
  rw [iter, List.map_filterMap, List.Nodup, List.pairwise_filterMap,
    List.pairwise_iff_getElem]
  intro i j hi hj hlt key hkey key' hkey'
  simp only [List.getElem_zipIdx, Nat.zero_add, Option.map_map,
    Option.map_eq_some_iff, Function.comp_apply] at hkey hkey'
  obtain ⟨_, _, rfl⟩ := hkey
  obtain ⟨_, _, rfl⟩ := hkey'
  rw [List.length_zipIdx] at hi hj
  intro hsame
  have hindex := congrArg (fun key : Key => key.index.toNat) hsame
  simp only [UInt32.toNat_ofNat'] at hindex
  rw [Nat.mod_eq_of_lt (by omega), Nat.mod_eq_of_lt (by omega)] at hindex
  omega

/-! ## Stale keys -/

/-- How often the slot was emptied, by the keys removed so far. -/
def reuses (retired : List Key) (index : UInt32) : Nat :=
  retired.countP fun key => key.index = index

/-- Every slot's generation counts how often it was emptied. -/
structure Aged (arena : Arena Value) (retired : List Key) : Prop where
  wf : arena.Wf
  generation : ∀ (index : UInt32) slot,
    arena.slots[index.toNat]? = some slot →
    slot.generation = UInt32.ofNat (reuses retired index)
  unused : ∀ index : UInt32, arena.slots[index.toNat]? = none →
    reuses retired index = 0
  past : ∀ key ∈ retired, ∃ earlier, earlier < reuses retired key.index ∧
    key.generation = UInt32.ofNat earlier

structure AgedFrom (base : UInt32 → UInt32) (arena : Arena Value)
    (retired : List Key) : Prop where
  wf : arena.Wf
  generation : ∀ (index : UInt32) slot,
    arena.slots[index.toNat]? = some slot →
    slot.generation = base index + UInt32.ofNat (reuses retired index)
  unused : ∀ index : UInt32, arena.slots[index.toNat]? = none →
    base index = 0 ∧ reuses retired index = 0
  past : ∀ key ∈ retired, ∃ earlier, earlier < reuses retired key.index ∧
    key.generation = base key.index + UInt32.ofNat earlier

theorem aged_iff {retired : List Key} :
    arena.Aged retired ↔ arena.AgedFrom (fun _ => 0) retired := by
  constructor
  · rintro ⟨hwf, hgeneration, hunused, hpast⟩
    exact ⟨hwf, by simpa only [UInt32.zero_add] using hgeneration,
      fun index hnone => ⟨rfl, hunused index hnone⟩,
      by simpa only [UInt32.zero_add] using hpast⟩
  · rintro ⟨hwf, hgeneration, hunused, hpast⟩
    exact ⟨hwf, by simpa only [UInt32.zero_add] using hgeneration,
      fun index hnone => (hunused index hnone).2,
      by simpa only [UInt32.zero_add] using hpast⟩

theorem aged_new : (new : Arena Value).Aged [] := by
  refine ⟨wf_new, ?_, fun _ _ => rfl, ?_⟩
  · intro index slot hslot
    cases hslot
  · intro key hmem
    cases hmem

def generations (arena : Arena Value) (index : UInt32) : UInt32 :=
  (arena.slots[index.toNat]?.map (·.generation)).getD 0

theorem agedFrom_start (hwf : arena.Wf) :
    arena.AgedFrom arena.generations [] := by
  refine ⟨hwf, ?_, ?_, ?_⟩
  · intro index slot hslot
    have hzero : UInt32.ofNat (reuses [] index) = 0 := rfl
    rw [hzero, UInt32.add_zero, generations, hslot]
    rfl
  · intro index hnone
    rw [generations, hnone]
    exact ⟨rfl, rfl⟩
  · intro key hmem
    cases hmem

theorem ofNat_inj_of_lt {first second : Nat} (hfirst : first < 0x100000000)
    (hsecond : second < 0x100000000)
    (h : UInt32.ofNat first = UInt32.ofNat second) : first = second := by
  have hnat := congrArg UInt32.toNat h
  rwa [UInt32.toNat_ofNat', UInt32.toNat_ofNat', Nat.mod_eq_of_lt hfirst,
    Nat.mod_eq_of_lt hsecond] at hnat

section AgedFrom

variable {base : UInt32 → UInt32} {retired : List Key}

theorem AgedFrom.stale (h : arena.AgedFrom base retired)
    (hmem : key ∈ retired) (hreuses : reuses retired key.index < 0x100000000) :
    arena.get key = none := by
  obtain ⟨earlier, hlt, hgeneration⟩ := h.past key hmem
  cases hget : arena.get key with
  | none => rfl
  | some value =>
      obtain ⟨slot, hslot, hsame, _⟩ := get_eq_some_iff.mp hget
      have hnow := h.generation key.index slot hslot
      rw [hsame, hgeneration, UInt32.add_right_inj] at hnow
      have := ofNat_inj_of_lt (by omega) hreuses hnow
      omega

theorem AgedFrom.placed {arena' : Arena Value}
    (h : arena.AgedFrom base retired)
    (hplaced : Placed arena arena' key value) :
    arena'.AgedFrom base retired := by
  refine ⟨hplaced.wf, ?_, ?_, h.past⟩
  · intro index slot hslot
    by_cases hindex : index = key.index
    · subst hindex
      rw [hplaced.slot, Option.some.injEq] at hslot
      rw [← hslot]
      cases hold : arena.slots[key.index.toNat]? with
      | none =>
          rw [(h.unused _ hold).1, (h.unused _ hold).2]
          exact hplaced.grown hold
      | some old =>
          rw [← h.generation _ old hold, hplaced.generation old hold]
    · rw [hplaced.others index hindex] at hslot
      exact h.generation index slot hslot
  · intro index hnone
    by_cases hindex : index = key.index
    · subst hindex
      rw [hplaced.slot] at hnone
      cases hnone
    · rw [hplaced.others index hindex] at hnone
      exact h.unused index hnone

theorem reuses_cons (retired : List Key) (key : Key) (index : UInt32) :
    reuses (key :: retired) index =
      reuses retired index + if key.index = index then 1 else 0 := by
  rw [reuses, List.countP_cons]
  simp only [decide_eq_true_eq]
  rfl

theorem AgedFrom.remove (h : arena.AgedFrom base retired)
    (hget : arena.get key = some value) :
    (arena.remove key).1.AgedFrom base (key :: retired) := by
  obtain ⟨slot, hslot, hgeneration, _⟩ := get_eq_some_iff.mp hget
  have hnow := h.generation key.index slot hslot
  have hlt := index_lt hget
  refine ⟨wf_remove h.wf hget, ?_, ?_, ?_⟩
  · intro index found hfound
    rw [remove_some hget] at hfound
    simp only at hfound
    rw [reuses_cons]
    by_cases hindex : key.index = index
    · subst hindex
      rw [List.getElem?_set_self hlt, Option.some.injEq] at hfound
      rw [if_pos rfl, ← hfound, ← hgeneration, hnow, UInt32.ofNat_add,
        ← UInt32.add_assoc]
      rfl
    · have hne : key.index.toNat ≠ index.toNat :=
        fun hsame => hindex (UInt32.toNat_inj.mp hsame)
      rw [List.getElem?_set_ne hne] at hfound
      rw [if_neg hindex, Nat.add_zero]
      exact h.generation index found hfound
  · intro index hnone
    rw [remove_some hget] at hnone
    simp only at hnone
    rw [reuses_cons]
    by_cases hindex : key.index = index
    · subst hindex
      rw [List.getElem?_set_self hlt] at hnone
      cases hnone
    · have hne : key.index.toNat ≠ index.toNat :=
        fun hsame => hindex (UInt32.toNat_inj.mp hsame)
      rw [List.getElem?_set_ne hne] at hnone
      rw [if_neg hindex, Nat.add_zero]
      exact h.unused index hnone
  · intro other hmem
    rw [reuses_cons]
    rcases List.mem_cons.mp hmem with rfl | hold
    · rw [if_pos rfl]
      exact ⟨reuses retired other.index, Nat.lt_succ_self _, by
        rw [← hnow, hgeneration]⟩
    · obtain ⟨earlier, hearlier, hother⟩ := h.past other hold
      exact ⟨earlier, by omega, hother⟩

theorem AgedFrom.set (h : arena.AgedFrom base retired) (key : Key)
    (stored : Value) : (arena.set key stored).AgedFrom base retired := by
  cases hget : arena.get key with
  | none =>
      rw [set_none hget]
      exact h
  | some value =>
      have hwf := wf_set h.wf key stored
      have hlt := index_lt hget
      obtain ⟨slot, hslot, hgeneration, _⟩ := get_eq_some_iff.mp hget
      rw [set_some hget] at hwf ⊢
      refine ⟨hwf, ?_, ?_, h.past⟩
      · intro index found hfound
        simp only at hfound
        by_cases hindex : key.index = index
        · subst hindex
          rw [List.getElem?_set_self hlt, Option.some.injEq] at hfound
          rw [← hfound, ← hgeneration]
          exact h.generation key.index slot hslot
        · have hne : key.index.toNat ≠ index.toNat :=
            fun hsame => hindex (UInt32.toNat_inj.mp hsame)
          rw [List.getElem?_set_ne hne] at hfound
          exact h.generation index found hfound
      · intro index hnone
        simp only [List.getElem?_eq_none_iff, List.length_set] at hnone
        exact h.unused index (List.getElem?_eq_none hnone)

end AgedFrom

theorem Aged.stale {retired : List Key} (h : arena.Aged retired)
    (hmem : key ∈ retired) (hreuses : reuses retired key.index < 0x100000000) :
    arena.get key = none :=
  (aged_iff.mp h).stale hmem hreuses

theorem Aged.placed {retired : List Key} {arena' : Arena Value}
    (h : arena.Aged retired) (hplaced : Placed arena arena' key value) :
    arena'.Aged retired :=
  aged_iff.mpr ((aged_iff.mp h).placed hplaced)

theorem Aged.remove {retired : List Key} (h : arena.Aged retired)
    (hget : arena.get key = some value) :
    (arena.remove key).1.Aged (key :: retired) :=
  aged_iff.mpr ((aged_iff.mp h).remove hget)

theorem Aged.set {retired : List Key} (h : arena.Aged retired) (key : Key)
    (stored : Value) : (arena.set key stored).Aged retired :=
  aged_iff.mpr ((aged_iff.mp h).set key stored)

end Arena

end Netflector.Reactor
