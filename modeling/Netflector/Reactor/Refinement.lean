import Mathlib.Data.List.Induction
import Mathlib.Data.List.Nodup
import Mathlib.Logic.Function.Basic
import Netflector.Reactor.Generations

/-!
# The arena as a map

Over whole runs the arena is a map whose keys are never handed out twice, as
long as no slot is freed 2^32 times.
-/

namespace Netflector.Reactor

open Netflector.Foundation

theorem Key.fromU64_toU64 (key : Key) : fromU64 key.toU64 = key := by
  obtain ⟨index, generation⟩ := key
  have hindex := index.toNat_lt
  have hgeneration := generation.toNat_lt
  have hshift : UInt64.toNat 32 % 64 = 32 := rfl
  have hpacked : (Key.mk index generation).toU64.toNat =
      index.toNat * 4294967296 + generation.toNat := by
    simp only [toU64, UInt64.toNat_or, UInt64.toNat_shiftLeft,
      UInt32.toNat_toUInt64]
    rw [hshift, Nat.mod_eq_of_lt (by rw [Nat.shiftLeft_eq]; omega),
      ← Nat.shiftLeft_add_eq_or_of_lt (by omega), Nat.shiftLeft_eq]
  simp only [fromU64, Key.mk.injEq, ← UInt32.toNat_inj, UInt64.toNat_toUInt32,
    UInt64.toNat_shiftRight, hpacked, Nat.shiftRight_eq_div_pow]
  rw [hshift]
  omega

namespace Arena

variable {Value Handler : Type} {arena arena' : Arena Value} {key : Key}

/-! ## Vacant slots -/

def Tidy (arena : Arena Value) : Prop :=
  ∀ index : UInt32, index ∈ arena.free ↔
    ∃ slot, arena.slots[index.toNat]? = some slot ∧ slot.value = none

theorem tidy_new : (new : Arena Value).Tidy := by
  intro index
  simp [new]

theorem tidy_insertFrom (hwf : arena.Wf) (h : arena.Tidy)
    {make : Key → Value}
    (hinsert : arena.insertFrom make = .ok (arena', key)) : arena'.Tidy := by
  unfold insertFrom at hinsert
  split at hinsert
  · rename_i index free hfree
    split at hinsert
    · cases hinsert
    · rename_i slot hslot
      cases hinsert
      have hlt := (List.getElem?_eq_some_iff.mp hslot).1
      have hnodup := hwf.nodup
      rw [hfree, List.nodup_cons] at hnodup
      intro other
      by_cases hindex : other = index
      · subst hindex
        simp [hnodup.1, List.getElem?_set_self hlt]
      · have hne : index.toNat ≠ other.toNat :=
          fun hsame => hindex (UInt32.toNat_inj.mp hsame.symm)
        have hold := h other
        rw [hfree, List.mem_cons, or_iff_right hindex] at hold
        rw [hold, List.getElem?_set_ne hne]
  · rename_i hfree
    split at hinsert
    · cases hinsert
      intro other
      have hold := h other
      rw [hfree] at hold
      simp only [List.not_mem_nil, false_iff] at hold ⊢
      rintro ⟨slot, hslot, hnone⟩
      rcases Nat.lt_or_ge other.toNat arena.slots.length with hlt | hge
      · rw [List.getElem?_append_left hlt] at hslot
        exact hold ⟨slot, hslot, hnone⟩
      · rw [List.getElem?_append_right hge] at hslot
        have hlast := List.mem_of_getElem? hslot
        rw [List.mem_singleton] at hlast
        rw [hlast] at hnone
        cases hnone
    · cases hinsert

theorem tidy_remove {value : Value} (h : arena.Tidy)
    (hget : arena.get key = some value) : (arena.remove key).1.Tidy := by
  have hlt := index_lt hget
  rw [remove_some hget]
  intro other
  simp only [List.mem_cons]
  by_cases hindex : other = key.index
  · subst hindex
    simp [List.getElem?_set_self hlt]
  · have hne : key.index.toNat ≠ other.toNat :=
      fun hsame => hindex (UInt32.toNat_inj.mp hsame.symm)
    rw [or_iff_right hindex, h other, List.getElem?_set_ne hne]

theorem tidy_set {value : Value} (h : arena.Tidy)
    (hget : arena.get key = some value) (stored : Value) :
    (arena.set key stored).Tidy := by
  have hlt := index_lt hget
  obtain ⟨slot, hslot, _, hvalue⟩ := get_eq_some_iff.mp hget
  rw [set_some hget]
  intro other
  by_cases hindex : other = key.index
  · subst hindex
    simp [h key.index, hslot, hvalue, List.getElem?_set_self hlt]
  · have hne : key.index.toNat ≠ other.toNat :=
      fun hsame => hindex (UInt32.toNat_inj.mp hsame.symm)
    rw [h other, List.getElem?_set_ne hne]

/-! ## Changing a value -/

theorem getMut_none (h : arena.get key = none) (change : Value → Value) :
    arena.getMut key change = (arena, none) := by
  rw [getMut, h]

theorem getMut_some {value : Value} (h : arena.get key = some value)
    (change : Value → Value) :
    arena.getMut key change = (arena.set key (change value), some value) := by
  rw [getMut, h]

theorem remove_found (arena : Arena Value) (key : Key) :
    (arena.remove key).2 = arena.get key := by
  cases hget : arena.get key with
  | none => rw [remove_none hget]
  | some value => rw [remove_some hget]

theorem getMut_found (arena : Arena Value) (key : Key)
    (change : Value → Value) : (arena.getMut key change).2 = arena.get key := by
  cases hget : arena.get key with
  | none => rw [getMut_none hget]
  | some value => rw [getMut_some hget]

theorem get_getMut (arena : Arena Value) (key : Key)
    (change : Value → Value) (other : Key) :
    (arena.getMut key change).1.get other =
      if other = key then (arena.get key).map change else arena.get other := by
  cases hget : arena.get key with
  | none =>
      rw [getMut_none hget]
      by_cases hother : other = key
      · rw [if_pos hother, hother, hget]
        rfl
      · rw [if_neg hother]
  | some value =>
      rw [getMut_some hget, get_set hget]
      rfl

/-! ## Runs -/

inductive Op (Value Handler : Type) where
  | insert (value : Value)
  | insertFrom (make : Key → Value)
  | remove (key : Key)
  | getMut (key : Key) (change : Value → Value)
  | takeHandler (key : Key)
  | restoreHandler (key : Key) (handler : Handler)

inductive Outcome (Value Handler : Type) where
  | inserted (key : Key)
  | removed (value : Option Value)
  | found (value : Option Value)
  | taken (handler : Option Handler)
  | restored

/-- The arena beside the map it stands for, with the keys handed out and those
whose removal returned a value. -/
structure Session (Value : Type) where
  arena : Arena Value
  contents : Key → Option Value
  issued : List Key
  retired : List Key

namespace Session

def start : Session Value := ⟨new, fun _ => none, [], []⟩

def inserted (session : Session Value) (arena : Arena Value) (key : Key)
    (value : Value) : Session Value where
  arena := arena
  contents := Function.update session.contents key (some value)
  issued := session.issued ++ [key]
  retired := session.retired

def removed (session : Session Value) (arena : Arena Value) (key : Key)
    (value : Option Value) : Session Value where
  arena := arena
  contents := Function.update session.contents key none
  issued := session.issued
  retired := if value.isSome then key :: session.retired else session.retired

def changed (session : Session Value) (arena : Arena Value) (key : Key)
    (change : Value → Value) : Session Value where
  arena := arena
  contents :=
    Function.update session.contents key ((session.contents key).map change)
  issued := session.issued
  retired := session.retired

def step (field : HandlerSlot Value Handler) (session : Session Value) :
    Op Value Handler → Except Panic (Session Value × Outcome Value Handler)
  | .insert value => do
      let (arena, key) ← session.arena.insert value
      .ok (session.inserted arena key value, .inserted key)
  | .insertFrom make => do
      let (arena, key) ← session.arena.insertFrom make
      .ok (session.inserted arena key (make key), .inserted key)
  | .remove key =>
      let (arena, value) := session.arena.remove key
      .ok (session.removed arena key value, .removed value)
  | .getMut key change =>
      let (arena, value) := session.arena.getMut key change
      .ok (session.changed arena key change, .found value)
  | .takeHandler key =>
      let (arena, handler) := session.arena.takeHandler field key
      .ok (session.changed arena key fun value => field.slotMut value none,
        .taken handler)
  | .restoreHandler key handler =>
      .ok (session.changed (session.arena.restoreHandler field key handler) key
        fun value => field.slotMut value (some handler), .restored)

def advance (field : HandlerSlot Value Handler) (session : Session Value)
    (op : Op Value Handler) : Except Panic (Session Value) := do
  let (session, _) ← session.step field op
  .ok session

def run (field : HandlerSlot Value Handler) (ops : List (Op Value Handler)) :
    Except Panic (Session Value) :=
  ops.foldlM (advance field) start

variable {session session' : Session Value}

/-! ## What a run keeps -/

structure Kept (session : Session Value) : Prop where
  aged : session.arena.Aged session.retired
  tidy : session.arena.Tidy
  agrees : ∀ key, session.arena.get key = session.contents key
  live : ∀ key, (session.contents key).isSome ↔
    key ∈ session.issued ∧ key ∉ session.retired
  issued : session.issued.Nodup
  retired : session.retired.Nodup
  known : ∀ key ∈ session.retired, key ∈ session.issued

theorem kept_start : (start : Session Value).Kept where
  aged := aged_new
  tidy := tidy_new
  agrees _ := rfl
  live _ := by simp [start]
  issued := List.nodup_nil
  retired := List.nodup_nil
  known _ hmem := by cases hmem

/-- No slot was freed 2^32 times. -/
def Unexhausted (session : Session Value) : Prop :=
  ∀ index, reuses session.retired index < 0x100000000

/-- A key handed out now was not handed out before: it is neither live nor one
of the removed ones, which stay stale. -/
theorem Kept.fresh (h : session.Kept) (hreuses : session.Unexhausted)
    {arena' : Arena Value} {key : Key} {value : Value}
    (hplaced : Placed session.arena arena' key value) :
    key ∉ session.issued := by
  intro hissued
  by_cases hretired : key ∈ session.retired
  · have hstale := (h.aged.placed hplaced).stale hretired (hreuses key.index)
    rw [hplaced.inserted.get_eq, if_pos rfl] at hstale
    cases hstale
  · have hlive := (h.live key).mpr ⟨hissued, hretired⟩
    rw [← h.agrees, hplaced.inserted.fresh] at hlive
    cases hlive

theorem Kept.inserted (h : session.Kept) (hreuses : session.Unexhausted)
    {arena' : Arena Value} {key : Key} {value : Value}
    (hplaced : Placed session.arena arena' key value) (htidy : arena'.Tidy) :
    (session.inserted arena' key value).Kept := by
  have hfresh := h.fresh hreuses hplaced
  have hactive : key ∉ session.retired := fun hmem => hfresh (h.known key hmem)
  refine ⟨h.aged.placed hplaced, htidy, ?_, ?_, ?_, h.retired, ?_⟩
  · intro other
    simp only [Session.inserted]
    rw [hplaced.inserted.get_eq, h.agrees, Function.update_apply]
  · intro other
    simp only [Session.inserted, Function.update_apply, List.mem_append,
      List.mem_singleton]
    by_cases hother : other = key
    · subst hother
      simp [hactive]
    · simp [hother, h.live other]
  · simp only [Session.inserted]
    rw [List.nodup_append]
    refine ⟨h.issued, List.nodup_singleton _, ?_⟩
    rintro other hother _ hlast rfl
    rw [List.mem_singleton] at hlast
    exact hfresh (hlast ▸ hother)
  · intro other hother
    exact List.mem_append_left _ (h.known other hother)

theorem Kept.removed (h : session.Kept) (key : Key) :
    (session.removed (session.arena.remove key).1 key
      (session.arena.remove key).2).Kept := by
  cases hget : session.arena.get key with
  | none =>
      have hsame : Function.update session.contents key none =
          session.contents := by
        rw [← hget, h.agrees, Function.update_eq_self]
      rw [remove_none hget]
      simp only [Session.removed, hsame]
      exact ⟨h.aged, h.tidy, h.agrees, h.live, h.issued, h.retired, h.known⟩
  | some value =>
      have hlive := (h.live key).mp (by rw [← h.agrees, hget]; rfl)
      have hvalue : (session.arena.remove key).2 = some value := by
        rw [remove_some hget]
      rw [hvalue]
      refine ⟨h.aged.remove hget, tidy_remove h.tidy hget, ?_, ?_, h.issued,
        List.nodup_cons.mpr ⟨hlive.2, h.retired⟩, ?_⟩
      · intro other
        simp only [Session.removed]
        rw [get_remove hget, h.agrees, Function.update_apply]
      · intro other
        simp only [Session.removed, Option.isSome_some, if_true,
          Function.update_apply, List.mem_cons, not_or]
        by_cases hother : other = key
        · simp [hother]
        · simp [hother, h.live other]
      · intro other hother
        rcases List.mem_cons.mp hother with rfl | hold
        · exact hlive.1
        · exact h.known other hold

theorem Kept.changed (h : session.Kept) (key : Key)
    (change : Value → Value) :
    (session.changed (session.arena.getMut key change).1 key change).Kept := by
  refine ⟨?_, ?_, ?_, ?_, h.issued, h.retired, h.known⟩
  · cases hget : session.arena.get key with
    | none =>
        rw [getMut_none hget]
        exact h.aged
    | some value =>
        rw [getMut_some hget]
        exact h.aged.set key (change value)
  · cases hget : session.arena.get key with
    | none =>
        rw [getMut_none hget]
        exact h.tidy
    | some value =>
        rw [getMut_some hget]
        exact tidy_set h.tidy hget (change value)
  · intro other
    simp only [Session.changed]
    rw [get_getMut, h.agrees, h.agrees, Function.update_apply]
  · intro other
    refine Iff.trans ?_ (h.live other)
    simp only [Session.changed, Function.update_apply]
    by_cases hother : other = key
    · simp [hother]
    · simp [hother]

def Meets (field : HandlerSlot Value Handler) (session : Session Value) :
    Op Value Handler → Outcome Value Handler → Prop
  | .insert _, outcome | .insertFrom _, outcome =>
      ∃ key, outcome = .inserted key ∧ key ∉ session.issued
  | .remove key, outcome => outcome = .removed (session.contents key)
  | .getMut key _, outcome => outcome = .found (session.contents key)
  | .takeHandler key, outcome =>
      outcome = .taken ((session.contents key).bind field.slot)
  | .restoreHandler _ _, outcome => outcome = .restored

def Answers (field : HandlerSlot Value Handler) (session : Session Value)
    (op : Op Value Handler) : Prop :=
  (∃ session' outcome, session.step field op = .ok (session', outcome) ∧
    session'.Kept ∧ session.Meets field op outcome) ∨
  (session.step field op = .error (.expect "arena index space exhausted") ∧
    session.arena.slots.length = 0x100000000 ∧
    ∀ slot ∈ session.arena.slots, slot.value.isSome)

theorem insertFrom_full {make : Key → Value} (hwf : session.arena.Wf)
    (htidy : session.arena.Tidy)
    (h : session.arena.insertFrom make =
      .error (.expect "arena index space exhausted")) :
    session.arena.slots.length = 0x100000000 ∧
      ∀ slot ∈ session.arena.slots, slot.value.isSome := by
  have hbound := hwf.bound
  unfold insertFrom at h
  split at h
  · split at h
    · cases h
    · cases h
  · rename_i hfree
    split at h
    · cases h
    · rename_i hfull
      refine ⟨by omega, ?_⟩
      intro slot hmem
      obtain ⟨index, hslot⟩ := List.getElem?_of_mem hmem
      have hindex := (List.getElem?_eq_some_iff.mp hslot).1
      cases hvalue : slot.value with
      | some value => rfl
      | none =>
          have hvacant := (htidy (UInt32.ofNat index)).mpr ⟨slot, by
            rw [UInt32.toNat_ofNat', Nat.mod_eq_of_lt (by omega)]
            exact hslot, hvalue⟩
          rw [hfree] at hvacant
          cases hvacant

theorem Kept.insertFrom (h : session.Kept) (hreuses : session.Unexhausted)
    (make : Key → Value) :
    (∃ arena' key, session.arena.insertFrom make = .ok (arena', key) ∧
      key ∉ session.issued ∧
      (session.inserted arena' key (make key)).Kept) ∨
    (session.arena.insertFrom make =
        .error (.expect "arena index space exhausted") ∧
      session.arena.slots.length = 0x100000000 ∧
      ∀ slot ∈ session.arena.slots, slot.value.isSome) := by
  rcases insertFrom_total h.aged.wf make with
    ⟨arena', key, hinsert, hplaced⟩ | hfull
  · exact .inl ⟨arena', key, hinsert, h.fresh hreuses hplaced,
      h.inserted hreuses hplaced (tidy_insertFrom h.aged.wf h.tidy hinsert)⟩
  · exact .inr ⟨hfull, insertFrom_full h.aged.wf h.tidy hfull⟩

theorem Kept.answers (field : HandlerSlot Value Handler) (h : session.Kept)
    (hreuses : session.Unexhausted) (op : Op Value Handler) :
    session.Answers field op := by
  cases op with
  | insert value =>
      rcases h.insertFrom hreuses (fun _ => value) with
        ⟨arena', key, hinsert, hfresh, hkept⟩ | ⟨hfull, hall⟩
      · refine .inl ⟨_, .inserted key, ?_, hkept, key, rfl, hfresh⟩
        simp only [step, Arena.insert, hinsert, bind, Except.bind]
      · refine .inr ⟨?_, hall⟩
        simp only [step, Arena.insert, hfull, bind, Except.bind]
  | insertFrom make =>
      rcases h.insertFrom hreuses make with
        ⟨arena', key, hinsert, hfresh, hkept⟩ | ⟨hfull, hall⟩
      · refine .inl ⟨_, .inserted key, ?_, hkept, key, rfl, hfresh⟩
        simp only [step, hinsert, bind, Except.bind]
      · refine .inr ⟨?_, hall⟩
        simp only [step, hfull, bind, Except.bind]
  | remove key =>
      refine .inl ⟨session.removed (session.arena.remove key).1 key
        (session.arena.remove key).2, .removed (session.arena.remove key).2,
        rfl, h.removed key, ?_⟩
      rw [Meets, remove_found, h.agrees]
  | getMut key change =>
      refine .inl ⟨_, .found (session.arena.getMut key change).2, rfl,
        h.changed key change, ?_⟩
      rw [Meets, getMut_found, h.agrees]
  | takeHandler key =>
      refine .inl ⟨_, .taken (session.arena.takeHandler field key).2, rfl,
        h.changed key _, ?_⟩
      simp only [Meets, takeHandler, getMut_found, h.agrees]
  | restoreHandler key handler =>
      exact .inl ⟨_, _, rfl, h.changed key _, rfl⟩

theorem step_reuses {field : HandlerSlot Value Handler}
    {op : Op Value Handler} {outcome : Outcome Value Handler}
    (h : session.step field op = .ok (session', outcome))
    (hreuses : session'.Unexhausted) : session.Unexhausted := by
  have hretired : session'.retired = session.retired ∨
      ∃ key, session'.retired = key :: session.retired := by
    cases op with
    | insert value =>
        obtain ⟨⟨arena', key⟩, _, h⟩ := except_bind_ok h
        cases h
        exact .inl rfl
    | insertFrom make =>
        obtain ⟨⟨arena', key⟩, _, h⟩ := except_bind_ok h
        cases h
        exact .inl rfl
    | remove key =>
        have hsame : session.removed (session.arena.remove key).1 key
            (session.arena.remove key).2 = session' :=
          congrArg Prod.fst (Except.ok.inj h)
        rw [← hsame]
        simp only [Session.removed]
        split
        · exact .inr ⟨key, rfl⟩
        · exact .inl rfl
    | getMut key change =>
        cases h
        exact .inl rfl
    | takeHandler key =>
        cases h
        exact .inl rfl
    | restoreHandler key handler =>
        cases h
        exact .inl rfl
  intro index
  have hlater := hreuses index
  rcases hretired with hsame | ⟨key, hmore⟩
  · rwa [hsame] at hlater
  · rw [hmore, reuses_cons] at hlater
    omega

theorem run_concat {field : HandlerSlot Value Handler}
    {ops : List (Op Value Handler)} {op : Op Value Handler}
    (h : run field (ops ++ [op]) = .ok session') :
    ∃ session outcome, run field ops = .ok session ∧
      session.step field op = .ok (session', outcome) := by
  rw [run, List.foldlM_append] at h
  obtain ⟨session, hrun, h⟩ := except_bind_ok h
  obtain ⟨_, hadvance, h⟩ := except_bind_ok h
  cases h
  obtain ⟨⟨_, outcome⟩, hstep, h⟩ := except_bind_ok hadvance
  cases h
  exact ⟨session, outcome, hrun, hstep⟩

theorem run_kept {field : HandlerSlot Value Handler}
    {ops : List (Op Value Handler)} (h : run field ops = .ok session)
    (hreuses : session.Unexhausted) : session.Kept := by
  induction ops using List.reverseRecOn generalizing session with
  | nil =>
      cases h
      exact kept_start
  | append_singleton ops op ih =>
      obtain ⟨before, outcome, hrun, hstep⟩ := run_concat h
      have hbefore := step_reuses hstep hreuses
      rcases (ih hrun hbefore).answers field hbefore op with
        ⟨_, _, hstep', hkept, _⟩ | ⟨hpanic, _⟩
      · rw [hstep] at hstep'
        cases hstep'
        exact hkept
      · rw [hstep] at hpanic
        cases hpanic

structure Refines (session : Session Value) : Prop where
  get_eq : ∀ key, session.arena.get key = session.contents key
  live_iff : ∀ key, (session.contents key).isSome ↔
    key ∈ session.issued ∧ key ∉ session.retired
  issued_nodup : session.issued.Nodup
  retired_nodup : session.retired.Nodup
  iter_nodup : (session.arena.iter.map Prod.fst).Nodup
  mem_iter : ∀ key value, (key, value) ∈ session.arena.iter ↔
    session.contents key = some value
  free_nodup : session.arena.free.Nodup
  free_iff : session.arena.Tidy

theorem Kept.refines (h : session.Kept) : session.Refines where
  get_eq := h.agrees
  live_iff := h.live
  issued_nodup := h.issued
  retired_nodup := h.retired
  iter_nodup := iter_keys_nodup h.aged.wf
  mem_iter key value := by rw [Arena.mem_iter h.aged.wf, h.agrees]
  free_nodup := h.aged.wf.nodup
  free_iff := h.tidy

/-- The arena is a map with keys that are never reused, over every run in which
no slot is freed 2^32 times. -/
theorem refines_map (field : HandlerSlot Value Handler)
    (ops : List (Op Value Handler)) (session : Session Value)
    (h : run field ops = .ok session) (hreuses : session.Unexhausted) :
    session.Refines ∧ (∀ op, session.Answers field op) ∧
      ∀ key : Key, Key.fromU64 key.toU64 = key := by
  have hkept := run_kept h hreuses
  exact ⟨hkept.refines, hkept.answers field hreuses, Key.fromU64_toU64⟩

def boxField : HandlerSlot (Option Nat) Nat := ⟨id, fun _ handler => handler⟩

/-- A key is removed twice, and its slot reused in between. -/
def reuseOps : List (Op (Option Nat) Nat) :=
  [.insert (some 1), .takeHandler ⟨0, 0⟩, .remove ⟨0, 0⟩,
    .insertFrom fun key => some key.generation.toNat, .remove ⟨0, 0⟩]

theorem refines_map_reuse :
    ∃ session, run boxField reuseOps = .ok session ∧
      session.issued = [⟨0, 0⟩, ⟨0, 1⟩] ∧ session.retired = [⟨0, 0⟩] ∧
      session.Refines ∧ ∀ op, session.Answers boxField op := by
  refine ⟨_, rfl, rfl, rfl, ?_⟩
  obtain ⟨hrefines, hanswers, _⟩ := refines_map boxField reuseOps _ rfl (by
    intro index
    exact Nat.lt_of_le_of_lt List.countP_le_length (by decide))
  exact ⟨hrefines, hanswers⟩

end Session

end Arena

end Netflector.Reactor
