import Mathlib.Data.List.Nodup
import Mathlib.Data.List.Perm.Basic
import Mathlib.Order.Lattice
import Mathlib.Tactic.Common

/-!
# The ordered map

A map over a list of pairs in the order of their keys, so that two maps that
hold the same are equal.
-/

namespace Netflector

structure SortedMap (Key Value : Type) [LinearOrder Key] where
  entries : List (Key × Value)
  sorted : entries.Pairwise fun first second => first.1 < second.1

namespace SortedMap

variable {Key Value : Type} [LinearOrder Key]

def new : SortedMap Key Value := ⟨[], .nil⟩

def single (key : Key) (value : Value) : SortedMap Key Value :=
  ⟨[(key, value)], List.pairwise_singleton _ _⟩

def keys (map : SortedMap Key Value) : List Key := map.entries.map Prod.fst

def get (map : SortedMap Key Value) (key : Key) : Option Value :=
  (map.entries.find? fun entry => entry.1 = key).map Prod.snd

def place (key : Key) (value : Value) :
    List (Key × Value) → List (Key × Value)
  | [] => [(key, value)]
  | entry :: rest =>
      if key < entry.1 then (key, value) :: entry :: rest
      else if key = entry.1 then (key, value) :: rest
      else entry :: place key value rest

theorem mem_place {key : Key} {value : Value} {entries : List (Key × Value)}
    (h : entries.Pairwise fun first second => first.1 < second.1)
    {entry : Key × Value} :
    entry ∈ place key value entries ↔
      entry = (key, value) ∨ entry ∈ entries ∧ entry.1 ≠ key := by
  induction entries with
  | nil => simp [place]
  | cons first entries ih =>
      obtain ⟨hfirst, hrest⟩ := List.pairwise_cons.mp h
      unfold place
      split
      · rename_i hlt
        rw [List.mem_cons]
        refine or_congr_right ⟨fun hmem => ⟨hmem, ?_⟩, And.left⟩
        rcases List.mem_cons.mp hmem with rfl | hlater
        · exact ne_of_gt hlt
        · exact ne_of_gt (hlt.trans (hfirst entry hlater))
      split
      · rename_i _ heq
        rw [List.mem_cons, List.mem_cons]
        refine or_congr_right ⟨fun hmem => ⟨.inr hmem, ?_⟩, ?_⟩
        · rw [heq]
          exact ne_of_gt (hfirst entry hmem)
        · rintro ⟨rfl | hmem, hne⟩
          · exact absurd heq.symm hne
          · exact hmem
      · rename_i _ hne
        rw [List.mem_cons, List.mem_cons, ih hrest]
        constructor
        · rintro (rfl | rfl | ⟨hmem, hkey⟩)
          · exact .inr ⟨.inl rfl, fun heq => hne heq.symm⟩
          · exact .inl rfl
          · exact .inr ⟨.inr hmem, hkey⟩
        · rintro (rfl | ⟨rfl | hmem, hkey⟩)
          · exact .inr (.inl rfl)
          · exact .inl rfl
          · exact .inr (.inr ⟨hmem, hkey⟩)

theorem place_sorted {key : Key} {value : Value}
    {entries : List (Key × Value)}
    (h : entries.Pairwise fun first second => first.1 < second.1) :
    (place key value entries).Pairwise fun first second =>
      first.1 < second.1 := by
  induction entries with
  | nil => exact List.pairwise_singleton _ _
  | cons first entries ih =>
      obtain ⟨hfirst, hrest⟩ := List.pairwise_cons.mp h
      unfold place
      split
      · rename_i hlt
        refine .cons ?_ h
        intro entry hmem
        rcases List.mem_cons.mp hmem with rfl | hlater
        · exact hlt
        · exact hlt.trans (hfirst entry hlater)
      split
      · rename_i _ heq
        refine .cons ?_ hrest
        intro entry hmem
        rw [heq]
        exact hfirst entry hmem
      · rename_i hlt hne
        refine .cons ?_ (ih hrest)
        intro entry hmem
        rcases (mem_place hrest).mp hmem with rfl | ⟨hlater, _⟩
        · exact lt_of_le_of_ne (not_lt.mp hlt) (Ne.symm hne)
        · exact hfirst entry hlater

def insert (map : SortedMap Key Value) (key : Key) (value : Value) :
    SortedMap Key Value :=
  ⟨place key value map.entries, place_sorted map.sorted⟩

theorem get_eq_some {map : SortedMap Key Value} {key : Key} {value : Value} :
    map.get key = some value ↔ (key, value) ∈ map.entries := by
  unfold get
  constructor
  · intro h
    obtain ⟨entry, hfound, rfl⟩ := Option.map_eq_some_iff.mp h
    have hkey := List.find?_some hfound
    rw [← of_decide_eq_true hkey]
    exact List.mem_of_find?_eq_some hfound
  · intro h
    -- Nothing before it has its key.
    obtain ⟨before, after, hentries⟩ := List.append_of_mem h
    have hsorted := map.sorted
    rw [hentries, List.pairwise_append] at hsorted
    rw [hentries, List.find?_append]
    have hbefore : before.find? (fun entry => decide (entry.1 = key)) =
        none := by
      rw [List.find?_eq_none]
      intro entry hmem
      have hlt := hsorted.2.2 entry hmem (key, value) List.mem_cons_self
      simpa using ne_of_lt hlt
    rw [hbefore]
    simp

theorem ext_get {first second : SortedMap Key Value}
    (h : ∀ key, first.get key = second.get key) : first = second := by
  have hnodup : ∀ map : SortedMap Key Value, map.entries.Nodup := fun map =>
    map.sorted.imp fun hlt heq => absurd (congrArg Prod.fst heq) (ne_of_lt hlt)
  have hperm : first.entries.Perm second.entries := by
    rw [List.perm_ext_iff_of_nodup (hnodup first) (hnodup second)]
    rintro ⟨key, value⟩
    rw [← get_eq_some, ← get_eq_some, h]
  have hentries := hperm.eq_of_pairwise (fun entry other _ _ hlt hgt =>
    absurd (hlt.trans hgt) (lt_irrefl _)) first.sorted second.sorted
  cases first
  cases second
  cases hentries
  rfl

@[simp] theorem get_insert_self (map : SortedMap Key Value) (key : Key)
    (value : Value) : (map.insert key value).get key = some value :=
  get_eq_some.mpr ((mem_place map.sorted).mpr (.inl rfl))

theorem get_insert_ne {map : SortedMap Key Value} {key other : Key}
    {value : Value} (h : other ≠ key) :
    (map.insert key value).get other = map.get other := by
  refine Option.ext fun found => ?_
  rw [get_eq_some, get_eq_some]
  refine (mem_place map.sorted).trans ⟨?_, fun hmem => .inr ⟨hmem, h⟩⟩
  rintro (heq | ⟨hmem, _⟩)
  · exact absurd (congrArg Prod.fst heq) h
  · exact hmem

theorem insert_comm {map : SortedMap Key Value} {first second : Key}
    (h : first ≠ second) (value other : Value) :
    (map.insert first value).insert second other =
      (map.insert second other).insert first value := by
  refine ext_get fun key => ?_
  by_cases hfirst : key = first
  · subst hfirst
    rw [get_insert_ne h, get_insert_self, get_insert_self]
  by_cases hsecond : key = second
  · subst hsecond
    rw [get_insert_self, get_insert_ne hfirst, get_insert_self]
  · rw [get_insert_ne hsecond, get_insert_ne hfirst, get_insert_ne hfirst,
      get_insert_ne hsecond]

theorem insert_insert (map : SortedMap Key Value) (key : Key)
    (value other : Value) :
    (map.insert key value).insert key other = map.insert key other := by
  refine ext_get fun found => ?_
  by_cases hkey : found = key
  · subst hkey
    rw [get_insert_self, get_insert_self]
  · rw [get_insert_ne hkey, get_insert_ne hkey, get_insert_ne hkey]

theorem mem_keys {map : SortedMap Key Value} {key : Key} :
    key ∈ map.keys ↔ (map.get key).isSome = true := by
  rw [Option.isSome_iff_exists, keys, List.mem_map]
  constructor
  · rintro ⟨entry, hmem, rfl⟩
    exact ⟨entry.2, get_eq_some.mpr hmem⟩
  · rintro ⟨value, hvalue⟩
    exact ⟨(key, value), get_eq_some.mp hvalue, rfl⟩

end SortedMap

end Netflector
