import Netflector.Dispatch.Reporting

/-!
# Re-arming the reconcile

A pass steps every interface once and sets when the next one is due: soon while
something is unsettled, and no later than a failed bind waits, unless another
bind is overdue after the pass.  Failed binds in a row wait longer each time.
-/

namespace Netflector.Dispatch

open Netflector.Net

/-! ## What a step makes of a presence -/

def Presence.attemptsAt (was : Presence) (ifindex : Nat) : Nat :=
  match was with
  | .unbound failed =>
      if failed.ifindex = ifindex then min (failed.attempts + 1) u32Max else 0
  | .present _ | .parked => 0

def Presence.DueAt (was : Presence) (ifindex now : Nat) : Prop :=
  ∀ failed, was = .unbound failed → failed.ifindex = ifindex →
    failed.nextTry ≤ now

inductive Presents (calls : StepCalls) (now : Nat) (was : Presence) :
    Step → Presence → Prop where
  | kept (hwaits : ∀ unbound, was = .unbound unbound →
      calls.lookup = .ok (some unbound.ifindex) ∧ now < unbound.nextTry) :
      Presents calls now was .kept was
  | lookupFailed (error : Errno) (hlookup : calls.lookup = .error error) :
      Presents calls now was (.lookupFailed error) was
  | parked (bound : Option Nat) (hlookup : calls.lookup = .ok none) :
      Presents calls now was (.parked bound) .parked
  | bound (ifindex : Nat) (gone : Bool)
      (hlookup : calls.lookup = .ok (some ifindex))
      (hdue : was.DueAt ifindex now) :
      Presents calls now was (.bound was ifindex gone) (.present ifindex)
  | bindFailed (ifindex : Nat) (error : Errno)
      (hlookup : calls.lookup = .ok (some ifindex))
      (hdue : was.DueAt ifindex now) :
      Presents calls now was
        (.bindFailed was ifindex error (retryDelay (was.attemptsAt ifindex))
          (was.attemptsAt ifindex = 0))
        (.unbound ⟨ifindex, was.attemptsAt ifindex,
          now + retryDelay (was.attemptsAt ifindex)⟩)

def InterfaceTable.presenceOf (table : InterfaceTable)
    (interface : InterfaceKey) : Option Presence :=
  (table.entry interface).map (·.presence)

theorem converge_presence (platform : Platform) (calls : Nat → JoinCalls)
    (entry : InterfaceEntry) (now : Nat) :
    (entry.converge platform calls now).1.presence = entry.presence := by
  unfold InterfaceEntry.converge
  split <;> rfl

namespace InterfaceTable

theorem presenceOf_setEntry {table : InterfaceTable}
    {interface : InterfaceKey} {entry : InterfaceEntry}
    (h : table.entry interface = some entry) (stored : InterfaceEntry) :
    (table.setEntry interface stored).presenceOf interface =
      some stored.presence := by
  rw [presenceOf, entry_setEntry h]
  rfl

theorem converge_presenceOf (platform : Platform) (calls : ConvergeCalls)
    (table : InterfaceTable) (interface : InterfaceKey) (now : Nat)
    (other : InterfaceKey) :
    (table.converge platform calls interface now).1.presenceOf other =
      table.presenceOf other := by
  by_cases hsame : other = interface
  · subst hsame
    simp only [converge]
    split
    · rfl
    split
    · rfl
    · rename_i entry hentry
      rw [presenceOf_setEntry hentry, converge_presence, presenceOf, hentry]
      rfl
  · rw [presenceOf, presenceOf,
      (confined_converge platform calls table interface now).others other
        hsame]

theorem settleBind_presents {calls : StepCalls} {table : InterfaceTable}
    {interface : InterfaceKey} {held : InterfaceEntry}
    (hheld : table.entry interface = some held) (entry : InterfaceEntry)
    {ifindex now : Nat} {was : Presence}
    (hlookup : calls.lookup = .ok (some ifindex))
    (hdue : was.DueAt ifindex now) (platform : Platform)
    (bound : Except Errno Unit) :
    ∃ presence, (table.settleBind platform calls.converge interface entry
        ifindex was bound now).1.presenceOf interface = some presence ∧
      Presents calls now was (table.settleBind platform calls.converge
        interface entry ifindex was bound now).2 presence := by
  cases bound with
  | error error =>
      exact ⟨_, presenceOf_setEntry hheld _,
        .bindFailed ifindex error hlookup hdue⟩
  | ok done =>
      refine ⟨.present ifindex, ?_, .bound ifindex _ hlookup hdue⟩
      exact (converge_presenceOf ..).trans (presenceOf_setEntry hheld _)

theorem bind_presents {calls : StepCalls} {table : InterfaceTable}
    {interface : InterfaceKey} {entry : InterfaceEntry}
    (hentry : table.entry interface = some entry) {ifindex now : Nat}
    (hlookup : calls.lookup = .ok (some ifindex))
    (hdue : entry.presence.DueAt ifindex now) (platform : Platform) :
    ∃ presence, (table.bind platform calls interface entry ifindex
        now).1.presenceOf interface = some presence ∧
      Presents calls now entry.presence
        (table.bind platform calls interface entry ifindex now).2 presence := by
  have hrebound : (table.rebindCaptures calls.rebind interface).1.entry
      interface = some entry := hentry
  simp only [bind]
  split
  · exact settleBind_presents hentry _ hlookup hdue _ _
  split
  · rename_i heq
    rw [heq] at hrebound
    exact settleBind_presents hrebound _ hlookup hdue _ _
  · rename_i heq
    rw [heq] at hrebound
    exact settleBind_presents hrebound _ hlookup hdue _ _

theorem step_presents {table : InterfaceTable} {interface : InterfaceKey}
    {entry : InterfaceEntry} (hentry : table.entry interface = some entry)
    (platform : Platform) (calls : StepCalls) (now : Nat) :
    ∃ presence, (table.step platform calls interface now).1.presenceOf
        interface = some presence ∧
      Presents calls now entry.presence
        (table.step platform calls interface now).2 presence := by
  have hhere : table.presenceOf interface = some entry.presence := by
    rw [presenceOf, hentry]
    rfl
  simp only [step, hentry]
  split
  · rename_i error hlookup
    exact ⟨_, hhere, .lookupFailed error hlookup⟩
  · rename_i hlookup
    split
    · rename_i hpresence
      refine ⟨_, hhere, .kept ?_⟩
      intro unbound hunbound
      rw [hpresence] at hunbound
      cases hunbound
    · exact ⟨_, presenceOf_setEntry hentry _, .parked _ hlookup⟩
    · exact ⟨_, presenceOf_setEntry hentry _, .parked _ hlookup⟩
  · rename_i current hlookup
    split
    · rename_i bound hpresence
      split
      · refine ⟨_, hhere, .kept ?_⟩
        intro unbound hunbound
        rw [hpresence] at hunbound
        cases hunbound
      · refine bind_presents hentry hlookup ?_ platform
        intro failed hfailed
        rw [hpresence] at hfailed
        cases hfailed
    · rename_i unbound hpresence
      split
      · rename_i hwaits
        refine ⟨_, hhere, .kept ?_⟩
        intro other hother
        rw [hpresence] at hother
        cases hother
        rw [hlookup, hwaits.1]
        exact ⟨rfl, hwaits.2⟩
      · rename_i hdue
        refine bind_presents hentry hlookup ?_ platform
        intro failed hfailed hsame
        rw [hpresence] at hfailed
        cases hfailed
        exact Nat.le_of_not_lt fun hwaits => hdue ⟨hsame.symm, hwaits⟩
    · rename_i hpresence
      refine bind_presents hentry hlookup ?_ platform
      intro failed hfailed
      rw [hpresence] at hfailed
      cases hfailed

end InterfaceTable

/-! ## Turns -/

def turn (platform : Platform) (calls : ReconcileCalls)
    (table : InterfaceTable) (now : Nat) (interface : InterfaceKey) :
    InterfaceTable :=
  (reconcileEach platform calls now
    ((List.range interface.index).map InterfaceKey.mk) table).1

section Turns

variable {platform : Platform} {calls : ReconcileCalls} {now : Nat}

variable (platform calls now) in
theorem reconcileEach_append (before rest : List InterfaceKey)
    (table : InterfaceTable) :
    (reconcileEach platform calls now (before ++ rest) table).1 =
        (reconcileEach platform calls now rest
          (reconcileEach platform calls now before table).1).1 ∧
      (reconcileEach platform calls now (before ++ rest) table).2.1 =
        ((reconcileEach platform calls now before table).2.1 ||
          (reconcileEach platform calls now rest
            (reconcileEach platform calls now before table).1).2.1) := by
  induction before generalizing table with
  | nil => exact ⟨rfl, by simp [reconcileEach]⟩
  | cons interface before ih =>
      obtain ⟨htable, hsoon⟩ :=
        ih (reconcileOne platform calls now interface table).1
      refine ⟨htable, ?_⟩
      simp only [List.cons_append, reconcileEach, hsoon, Bool.or_assoc]

theorem reconcileEach_others {interfaces : List InterfaceKey}
    {other : InterfaceKey} (h : other ∉ interfaces)
    (table : InterfaceTable) :
    (reconcileEach platform calls now interfaces table).1.entry other =
      table.entry other := by
  induction interfaces generalizing table with
  | nil => rfl
  | cons interface rest ih =>
      rw [List.mem_cons, not_or] at h
      exact (ih h.2 _).trans ((reconcileOne_confined platform calls now
        interface table).others other h.1)

theorem interfaces_split {table : InterfaceTable} {interface : InterfaceKey}
    {entry : InterfaceEntry} (h : table.entry interface = some entry) :
    ∃ rest, table.interfaces =
        (List.range interface.index).map InterfaceKey.mk ++
          interface :: rest ∧
      interface ∉ (List.range interface.index).map InterfaceKey.mk ∧
      interface ∉ rest := by
  obtain ⟨more, hmore⟩ := Nat.exists_eq_add_of_lt
    (List.getElem?_eq_some_iff.mp h).1
  refine ⟨(List.range more).map fun later =>
    ⟨interface.index + later.succ⟩, ?_, ?_, ?_⟩
  · rw [InterfaceTable.interfaces, hmore, Nat.add_assoc, List.range_add,
      List.range_succ_eq_map]
    simp [Function.comp_def]
  · intro hmem
    obtain ⟨index, hindex, heq⟩ := List.mem_map.mp hmem
    have hsame := congrArg InterfaceKey.index heq
    exact absurd hsame (Nat.ne_of_lt (List.mem_range.mp hindex))
  · intro hmem
    obtain ⟨later, _, heq⟩ := List.mem_map.mp hmem
    have hsame := congrArg InterfaceKey.index heq
    simp only at hsame
    omega

variable (platform calls now) in
/-- An interface comes to its turn as it was, what the turn makes of it stays,
and what the turn leaves to retry is not lost. -/
theorem turn_taken {table : InterfaceTable} {interface : InterfaceKey}
    {entry : InterfaceEntry} (h : table.entry interface = some entry) :
    (turn platform calls table now interface).entry interface = some entry ∧
      (reconcileEach platform calls now table.interfaces table).1.entry
          interface =
        (reconcileOne platform calls now interface
          (turn platform calls table now interface)).1.entry interface ∧
      ((reconcileOne platform calls now interface
          (turn platform calls table now interface)).2.1 = true →
        (reconcileEach platform calls now table.interfaces table).2.1 =
          true) := by
  obtain ⟨rest, hsplit, hbefore, hafter⟩ := interfaces_split h
  obtain ⟨htable, hsoon⟩ := reconcileEach_append platform calls now _
    (interface :: rest) table
  rw [hsplit]
  refine ⟨(reconcileEach_others hbefore table).trans h, ?_, ?_⟩
  · rw [htable]
    exact reconcileEach_others hafter _
  · intro hone
    rw [hsoon]
    simp only [reconcileEach]
    have hturn : (reconcileOne platform calls now interface
        (reconcileEach platform calls now
          ((List.range interface.index).map InterfaceKey.mk) table).1).2.1 =
        true := hone
    rw [hturn]
    simp

def InterfaceTable.Op.stepped :
    InterfaceTable.Op → Option (StepCalls × InterfaceKey × Nat)
  | .step calls interface now => some (calls, interface, now)
  | _ => none

variable (platform calls now) in
theorem reconcileEach_run (interfaces : List InterfaceKey)
    (table : InterfaceTable) :
    ∃ ops, (reconcileEach platform calls now interfaces table).1 =
        table.run platform ops ∧
      ops.filterMap InterfaceTable.Op.stepped =
        interfaces.map fun interface =>
          (calls.step interface, interface, now) := by
  induction interfaces generalizing table with
  | nil => exact ⟨[], rfl, rfl⟩
  | cons interface rest ih =>
      obtain ⟨ops, hrun, hsteps⟩ :=
        ih (reconcileOne platform calls now interface table).1
      have htable := reconcileOne_table platform calls now interface table
      by_cases hkept : (table.step platform (calls.step interface) interface
          now).2 = .kept
      · rw [if_pos hkept] at htable
        refine ⟨.step (calls.step interface) interface now ::
          .converge (calls.converge interface) interface now :: ops,
          hrun.trans ?_, ?_⟩
        · rw [htable]
          rfl
        · exact congrArg (_ :: ·) hsteps
      · rw [if_neg hkept] at htable
        refine ⟨.step (calls.step interface) interface now :: ops,
          hrun.trans ?_, ?_⟩
        · rw [htable]
          rfl
        · exact congrArg (_ :: ·) hsteps

variable (platform calls now) in
theorem pass_presents {table : InterfaceTable} {interface : InterfaceKey}
    {was : Presence} (h : table.presenceOf interface = some was) :
    ∃ step presence,
      (reconcileEach platform calls now table.interfaces table).1.presenceOf
        interface = some presence ∧
      Presents (calls.step interface) now was step presence := by
  obtain ⟨entry, hentry, rfl⟩ := Option.map_eq_some_iff.mp h
  obtain ⟨hturn, hafter, _⟩ := turn_taken platform calls now hentry
  obtain ⟨presence, hpresence, hpresents⟩ := InterfaceTable.step_presents
    hturn platform (calls.step interface) now
  refine ⟨_, presence, ?_, hpresents⟩
  rw [InterfaceTable.presenceOf, hafter, reconcileOne_table]
  split
  · exact (InterfaceTable.converge_presenceOf ..).trans hpresence
  · exact hpresence

theorem pass_length (interfaces : List InterfaceKey)
    (table : InterfaceTable) :
    (reconcileEach platform calls now interfaces table).1.entries.length =
      table.entries.length := by
  induction interfaces generalizing table with
  | nil => rfl
  | cons interface rest ih =>
      exact (ih _).trans
        (reconcileOne_confined platform calls now interface table).length

theorem pass_known {table : InterfaceTable} {interface : InterfaceKey}
    {presence : Presence}
    (h : (reconcileEach platform calls now table.interfaces
      table).1.presenceOf interface = some presence) :
    ∃ was, table.presenceOf interface = some was := by
  obtain ⟨entry, hentry, _⟩ := Option.map_eq_some_iff.mp h
  have hlt := (List.getElem?_eq_some_iff.mp hentry).1
  rw [pass_length] at hlt
  refine ⟨(table.entries.get ⟨interface.index, hlt⟩).presence, ?_⟩
  rw [InterfaceTable.presenceOf, InterfaceTable.entry,
    List.getElem?_eq_getElem hlt]
  rfl

/-- A failed bind that a pass leaves as it was: its name could not be looked
up, or it waits at the index the name has. -/
def Unbound.Left (failed : Unbound) (calls : StepCalls) (now : Nat) : Prop :=
  (∃ error, calls.lookup = .error error) ∨
    (calls.lookup = .ok (some failed.ifindex) ∧ now < failed.nextTry)

end Turns

theorem retryDelay_ge (attempts : Nat) : second ≤ retryDelay attempts := by
  simp only [retryDelay]
  split
  · have hpow : 0 < 1 <<< attempts := by
      rw [Nat.one_shiftLeft]
      exact Nat.two_pow_pos attempts
    exact Nat.le_min.mpr ⟨Nat.le_mul_of_pos_left second hpow, by decide⟩
  · decide

theorem Presents.unbound {calls : StepCalls} {now : Nat} {was : Presence}
    {step : Step} {failed : Unbound}
    (h : Presents calls now was step (.unbound failed)) :
    (was = .unbound failed ∧ failed.Left calls now) ∨
      now + reconcileRetry ≤ failed.nextTry := by
  have hretry : reconcileRetry = second := rfl
  cases h with
  | kept hwaits => exact .inl ⟨rfl, .inr (hwaits failed rfl)⟩
  | lookupFailed error hlookup => exact .inl ⟨rfl, .inl ⟨error, hlookup⟩⟩
  | bindFailed ifindex error hlookup hdue =>
      have hdelay := retryDelay_ge (was.attemptsAt ifindex)
      right
      rw [hretry]
      exact Nat.add_le_add_left hdelay now

theorem Presents.left {calls : StepCalls} {now : Nat} {failed : Unbound}
    {step : Step} {presence : Presence}
    (h : Presents calls now (.unbound failed) step presence)
    (hleft : failed.Left calls now) : presence = .unbound failed := by
  cases h with
  | kept hwaits => rfl
  | lookupFailed error hlookup => rfl
  | parked bound hlookup =>
      rcases hleft with ⟨error, herror⟩ | ⟨hindex, _⟩
      · rw [hlookup] at herror
        cases herror
      · rw [hlookup] at hindex
        cases hindex
  | bound ifindex gone hlookup hdue =>
      rcases hleft with ⟨error, herror⟩ | ⟨hindex, hwaits⟩
      · rw [hlookup] at herror
        cases herror
      · rw [hlookup] at hindex
        cases hindex
        exact absurd (hdue failed rfl rfl) (Nat.not_le.mpr hwaits)
  | bindFailed ifindex error hlookup hdue =>
      rcases hleft with ⟨error, herror⟩ | ⟨hindex, hwaits⟩
      · rw [hlookup] at herror
        cases herror
      · rw [hlookup] at hindex
        cases hindex
        exact absurd (hdue failed rfl rfl) (Nat.not_le.mpr hwaits)

/-! ## The next pass -/

theorem nextBindRetry_le {table : InterfaceTable} {interface : InterfaceKey}
    {failed : Unbound}
    (h : table.presenceOf interface = some (.unbound failed)) :
    ∃ due, table.nextBindRetry = some due ∧ due ≤ failed.nextTry := by
  obtain ⟨entry, hentry, hpresence⟩ := Option.map_eq_some_iff.mp h
  have hmem : failed.nextTry ∈
      table.entries.filterMap InterfaceEntry.nextTry := by
    refine List.mem_filterMap.mpr ⟨entry, List.mem_of_getElem? hentry, ?_⟩
    rw [InterfaceEntry.nextTry, hpresence]
  cases hdue : table.nextBindRetry with
  | none =>
      rw [List.min?_eq_none_iff.mp hdue] at hmem
      cases hmem
  | some due =>
      exact ⟨due, rfl, (List.min?_eq_some_iff.mp hdue).2 _ hmem⟩

theorem nextBindRetry_mem {table : InterfaceTable} {due : Nat}
    (h : table.nextBindRetry = some due) :
    ∃ interface failed,
      table.presenceOf interface = some (.unbound failed) ∧
        failed.nextTry = due := by
  obtain ⟨entry, hmem, hdue⟩ :=
    List.mem_filterMap.mp (List.min?_eq_some_iff.mp h).1
  obtain ⟨index, hlt, hentry⟩ := List.mem_iff_getElem.mp hmem
  rw [InterfaceEntry.nextTry] at hdue
  split at hdue
  · rename_i failed hpresence
    refine ⟨⟨index⟩, failed, ?_, Option.some.inj hdue⟩
    rw [InterfaceTable.presenceOf, InterfaceTable.entry,
      List.getElem?_eq_getElem hlt, hentry, ← hpresence]
    rfl
  · cases hdue

def passWait (soon : Bool) : Nat :=
  if soon then reconcileRetry else reconcileTick

theorem nextPass_waits {now due : Nat} (h : now < due) (soon : Bool) :
    nextPass now soon (some due) = min due (now + passWait soon) :=
  if_pos h

theorem nextPass_due {now due : Nat} (h : ¬now < due) (soon : Bool) :
    nextPass now soon (some due) = now + passWait soon :=
  if_neg h

theorem nextPass_le (now : Nat) (soon : Bool) (bindRetry : Option Nat) :
    nextPass now soon bindRetry ≤ now + passWait soon := by
  cases bindRetry with
  | none => exact Nat.le_refl _
  | some due =>
      by_cases hdue : now < due
      · rw [nextPass_waits hdue]
        exact Nat.min_le_right _ _
      · rw [nextPass_due hdue]

theorem nextPass_later (now : Nat) (soon : Bool) (bindRetry : Option Nat) :
    now < nextPass now soon bindRetry := by
  have hwait : now < now + passWait soon := by
    cases soon <;> exact Nat.lt_add_of_pos_right (by decide)
  cases bindRetry with
  | none => exact hwait
  | some due =>
      by_cases hdue : now < due
      · rw [nextPass_waits hdue]
        exact Nat.lt_min.mpr ⟨hdue, hwait⟩
      · rw [nextPass_due hdue]
        exact hwait

/-- In its turn an interface finds its index gone: kept, by the joins it still
has to make, or bound, by those behind the bind. -/
def FoundGone (platform : Platform) (calls : ReconcileCalls) (now : Nat)
    (interface : InterfaceKey) (table : InterfaceTable) : Prop :=
  ((table.step platform (calls.step interface) interface now).2 = .kept ∧
    ((table.step platform (calls.step interface) interface now).1.converge
      platform (calls.converge interface) interface now).2 = true) ∨
  ∃ was ifindex,
    (table.step platform (calls.step interface) interface now).2 =
      .bound was ifindex true

/-- What a reconcile is to do: step every interface once, and leave the next
pass armed within the tick, soon while something is unsettled, and no later
than a failed bind that still waits. -/
structure Rearmed (platform : Platform) (calls : ReconcileCalls)
    (table : InterfaceTable) (now : Nat)
    (passed : InterfaceLifecycle × InterfaceTable × List Rebuilt) : Prop where
  stepped : ∃ ops, passed.2.1 = table.run platform ops ∧
    ops.filterMap InterfaceTable.Op.stepped =
      table.interfaces.map fun interface =>
        (calls.step interface, interface, now)
  later : now < passed.1.nextReconcile
  ticking : passed.1.nextReconcile ≤ now + reconcileTick
  parked : ∀ interface, passed.2.1.presenceOf interface = some .parked →
    passed.1.nextReconcile ≤ now + reconcileRetry
  lookup : ∀ interface ∈ table.interfaces, ∀ error,
    (calls.step interface).lookup = .error error →
      passed.1.nextReconcile ≤ now + reconcileRetry
  gone : ∀ interface ∈ table.interfaces,
    FoundGone platform calls now interface
      (turn platform calls table now interface) →
        passed.1.nextReconcile ≤ now + reconcileRetry
  bindRetry : ∀ interface failed,
    passed.2.1.presenceOf interface = some (.unbound failed) →
      now < failed.nextTry → passed.1.nextReconcile ≤ failed.nextTry

/-- A bind is due, and the name of its interface cannot be looked up. -/
def Overdue (calls : ReconcileCalls) (table : InterfaceTable) (now : Nat) :
    Prop :=
  ∃ interface failed error,
    table.presenceOf interface = some (.unbound failed) ∧
      failed.nextTry ≤ now ∧ (calls.step interface).lookup = .error error

/-- A bind is due before the retry of an unsettled pass, and the pass leaves
it. -/
def Imminent (calls : ReconcileCalls) (table : InterfaceTable) (now : Nat) :
    Prop :=
  ∃ interface failed,
    table.presenceOf interface = some (.unbound failed) ∧
      now < failed.nextTry ∧ failed.nextTry < now + reconcileRetry ∧
      failed.Left (calls.step interface) now

section Passes

variable {platform : Platform} {calls : ReconcileCalls}
  {table : InterfaceTable} {now : Nat}

theorem mem_interfaces {interface : InterfaceKey} :
    interface ∈ table.interfaces ↔
      ∃ entry, table.entry interface = some entry := by
  constructor
  · intro hmem
    obtain ⟨index, hindex, rfl⟩ := List.mem_map.mp hmem
    exact ⟨_, List.getElem?_eq_getElem (List.mem_range.mp hindex)⟩
  · rintro ⟨entry, hentry⟩
    have hlt := (List.getElem?_eq_some_iff.mp hentry).1
    exact List.mem_map.mpr ⟨interface.index, List.mem_range.mpr hlt, rfl⟩

theorem soon_armed (lifecycle : InterfaceLifecycle)
    (h : (reconcileEach platform calls now table.interfaces table).2.1 = true ∨
      (reconcileEach platform calls now table.interfaces
        table).1.anyParked = true) :
    (lifecycle.reconcile platform calls table now).1.nextReconcile ≤
      now + reconcileRetry := by
  refine (nextPass_le _ _ _).trans (Nat.add_le_add_left ?_ _)
  have hsoon : ((reconcileEach platform calls now table.interfaces
      table).2.1 || (reconcileEach platform calls now table.interfaces
      table).1.anyParked) = true := by
    rw [Bool.or_eq_true]
    exact h
  rw [hsoon]
  exact Nat.le_refl _

theorem one_armed (lifecycle : InterfaceLifecycle) {interface : InterfaceKey}
    (hmem : interface ∈ table.interfaces)
    (h : (reconcileOne platform calls now interface
      (turn platform calls table now interface)).2.1 = true) :
    (lifecycle.reconcile platform calls table now).1.nextReconcile ≤
      now + reconcileRetry := by
  obtain ⟨entry, hentry⟩ := mem_interfaces.mp hmem
  exact soon_armed lifecycle
    (.inl ((turn_taken platform calls now hentry).2.2 h))

theorem lookup_soon {interface : InterfaceKey} {turned : InterfaceTable}
    {entry : InterfaceEntry} (hentry : turned.entry interface = some entry)
    {error : Errno} (h : (calls.step interface).lookup = .error error) :
    (reconcileOne platform calls now interface turned).2.1 = true := by
  have hstep : turned.step platform (calls.step interface) interface now =
      (turned, .lookupFailed error) := by
    simp only [InterfaceTable.step, hentry, h]
  simp [reconcileOne, hstep, unsettled]

theorem foundGone_soon {interface : InterfaceKey} {turned : InterfaceTable}
    (h : FoundGone platform calls now interface turned) :
    (reconcileOne platform calls now interface turned).2.1 = true := by
  rcases h with ⟨hkept, hgone⟩ | ⟨was, ifindex, hbound⟩
  · simp [reconcileOne, hkept, hgone]
  · simp [reconcileOne, hbound, unsettled]

variable (platform now) in
theorem lookup_armed (lifecycle : InterfaceLifecycle)
    {interface : InterfaceKey} (hmem : interface ∈ table.interfaces)
    {error : Errno} (h : (calls.step interface).lookup = .error error) :
    (lifecycle.reconcile platform calls table now).1.nextReconcile ≤
      now + reconcileRetry := by
  obtain ⟨entry, hentry⟩ := mem_interfaces.mp hmem
  exact one_armed lifecycle hmem
    (lookup_soon (turn_taken platform calls now hentry).1 h)

theorem presenceOf_mem {interface : InterfaceKey} {presence : Presence}
    (h : table.presenceOf interface = some presence) :
    interface ∈ table.interfaces := by
  obtain ⟨entry, hentry, _⟩ := Option.map_eq_some_iff.mp h
  exact mem_interfaces.mpr ⟨entry, hentry⟩

theorem pass_unbound {interface : InterfaceKey} {failed : Unbound}
    (h : (reconcileEach platform calls now table.interfaces
      table).1.presenceOf interface = some (.unbound failed)) :
    (table.presenceOf interface = some (.unbound failed) ∧
        failed.Left (calls.step interface) now) ∨
      now + reconcileRetry ≤ failed.nextTry := by
  obtain ⟨was, hwas⟩ := pass_known h
  obtain ⟨step, presence, hpresence, hpresents⟩ :=
    pass_presents platform calls now hwas
  rw [h] at hpresence
  cases hpresence
  rcases hpresents.unbound with ⟨rfl, hleft⟩ | hlong
  · exact .inl ⟨hwas, hleft⟩
  · exact .inr hlong

variable (platform) in
theorem pass_left {interface : InterfaceKey} {failed : Unbound}
    (h : table.presenceOf interface = some (.unbound failed))
    (hleft : failed.Left (calls.step interface) now) :
    (reconcileEach platform calls now table.interfaces
      table).1.presenceOf interface = some (.unbound failed) := by
  obtain ⟨step, presence, hpresence, hpresents⟩ :=
    pass_presents platform calls now h
  rw [hpresence, hpresents.left hleft]

variable (platform) in
theorem overdue_passes (lifecycle : InterfaceLifecycle)
    (h : Overdue calls table now) :
    now + reconcileRetry ≤
      (lifecycle.reconcile platform calls table now).1.nextReconcile := by
  obtain ⟨interface, failed, error, hfailed, hdue, hlookup⟩ := h
  obtain ⟨due, hretry, hle⟩ := nextBindRetry_le
    (pass_left platform hfailed (.inl ⟨error, hlookup⟩))
  have hnext : (lifecycle.reconcile platform calls table
      now).1.nextReconcile = nextPass now _ (some due) :=
    congrArg (nextPass now _) hretry
  rw [hnext, nextPass_due (Nat.not_lt.mpr (hle.trans hdue))]
  apply Nat.add_le_add_left
  unfold passWait
  split
  · exact Nat.le_refl _
  · decide

/-- The pass waits no longer than a failed bind does, unless another is
overdue and this one due before the retry of the pass. -/
theorem bindRetry_iff (lifecycle : InterfaceLifecycle) :
    (∀ interface failed,
      (lifecycle.reconcile platform calls table now).2.1.presenceOf interface =
          some (.unbound failed) → now < failed.nextTry →
        (lifecycle.reconcile platform calls table now).1.nextReconcile ≤
          failed.nextTry) ↔
      ¬(Overdue calls table now ∧ Imminent calls table now) := by
  constructor
  · rintro hretry ⟨hoverdue, interface, failed, hfailed, hwaits, hsoon, hleft⟩
    have hearly := hretry interface failed (pass_left platform hfailed hleft)
      hwaits
    have hlate := overdue_passes platform lifecycle hoverdue
    exact absurd (hlate.trans hearly) (Nat.not_le.mpr hsoon)
  · intro hnot interface failed hfailed hwaits
    obtain ⟨due, hretry, hle⟩ := nextBindRetry_le hfailed
    have hnext : (lifecycle.reconcile platform calls table
        now).1.nextReconcile = nextPass now _ (some due) :=
      congrArg (nextPass now _) hretry
    by_cases hdue : now < due
    · rw [hnext, nextPass_waits hdue]
      exact (Nat.min_le_left _ _).trans hle
    · obtain ⟨late, overdue, hoverdue, hsame⟩ := nextBindRetry_mem hretry
      -- A bind that is due after the pass could not be looked up.
      obtain ⟨hwas, error, hlookup⟩ : table.presenceOf late =
          some (.unbound overdue) ∧
            ∃ error, (calls.step late).lookup = .error error := by
        rcases pass_unbound hoverdue with ⟨hwas, hleft⟩ | hlong
        · rcases hleft with hlookup | ⟨_, hlater⟩
          · exact ⟨hwas, hlookup⟩
          · rw [hsame] at hlater
            exact absurd hlater hdue
        · have hpos : 0 < reconcileRetry := by decide
          rw [hsame] at hlong
          exact absurd (by omega) hdue
      have harmed := lookup_armed platform now lifecycle
        (presenceOf_mem hwas) hlookup
      refine harmed.trans ?_
      rcases pass_unbound hfailed with ⟨hbefore, hleft⟩ | hlong
      · refine Nat.le_of_not_lt fun hsoon => hnot ⟨?_, ?_⟩
        · exact ⟨late, overdue, error, hwas,
            hsame.le.trans (Nat.le_of_not_lt hdue), hlookup⟩
        · exact ⟨interface, failed, hbefore, hwaits, hsoon, hleft⟩
      · exact hlong

theorem rearmed_iff_unhidden (lifecycle : InterfaceLifecycle) :
    Rearmed platform calls table now
        (lifecycle.reconcile platform calls table now) ↔
      ¬(Overdue calls table now ∧ Imminent calls table now) := by
  constructor
  · intro h
    exact (bindRetry_iff lifecycle).mp h.bindRetry
  · intro h
    refine ⟨reconcileEach_run platform calls now table.interfaces table,
      nextPass_later .., ?_, ?_, ?_, ?_, (bindRetry_iff lifecycle).mpr h⟩
    · refine (nextPass_le _ _ _).trans (Nat.add_le_add_left ?_ _)
      unfold passWait
      split
      · decide
      · exact Nat.le_refl _
    · intro interface hparked
      obtain ⟨entry, hentry, hpresence⟩ := Option.map_eq_some_iff.mp hparked
      refine soon_armed lifecycle (.inr (List.any_eq_true.mpr
        ⟨entry, List.mem_of_getElem? hentry, ?_⟩))
      exact decide_eq_true hpresence
    · intro interface hmem error hlookup
      exact lookup_armed platform now lifecycle hmem hlookup
    · intro interface hmem hgone
      exact one_armed lifecycle hmem (foundGone_soon hgone)

end Passes

/-! ## Failed binds in a row -/

def backoff (earlier : Nat) : Nat :=
  [1, 2, 4, 8, 16].getD earlier 30 * second

/-- Binds in a row that failed at `ifindex`: the last, and those before it. -/
structure Streak where
  ifindex : Nat
  earlier : Nat
  deriving DecidableEq

namespace Streak

def next (streak : Option Streak) (ifindex : Nat) : Streak :=
  match streak with
  | none => ⟨ifindex, 0⟩
  | some failed =>
      if failed.ifindex = ifindex then ⟨ifindex, failed.earlier + 1⟩
      else ⟨ifindex, 0⟩

def after (streak : Option Streak) : Step → Option Streak
  | .kept | .lookupFailed _ => streak
  | .parked _ | .bound _ _ _ => none
  | .bindFailed _ ifindex _ _ _ => some (next streak ifindex)

end Streak

def streakOf (platform : Platform) (interface : InterfaceKey)
    (table : InterfaceTable) (streak : Option Streak) :
    List InterfaceTable.Op → Option Streak
  | [] => streak
  | .step calls stepped now :: ops =>
      streakOf platform interface (table.step platform calls stepped now).1
        (if stepped = interface then
          Streak.after streak (table.step platform calls stepped now).2
        else streak) ops
  | op :: ops =>
      streakOf platform interface (table.apply platform op) streak ops

def Presence.failures : Presence → Option (Nat × Nat)
  | .unbound failed => some (failed.ifindex, failed.attempts)
  | .present _ | .parked => none

def InterfaceTable.failuresOf (table : InterfaceTable)
    (interface : InterfaceKey) : Option (Nat × Nat) :=
  (table.entry interface).bind (·.presence.failures)

def Streak.counted (streak : Streak) : Nat × Nat :=
  (streak.ifindex, min streak.earlier u32Max)

theorem retryDelay_saturated (earlier : Nat) :
    retryDelay (min earlier u32Max) = backoff earlier := by
  by_cases hfew : earlier < 32
  · have hmin : min earlier u32Max = earlier :=
      Nat.min_eq_left (Nat.le_of_lt (hfew.trans (by decide)))
    rw [hmin]
    have hall : ∀ few : Fin 32, retryDelay few = backoff few := by decide
    exact hall ⟨earlier, hfew⟩
  · have hlong : ¬min earlier u32Max < 32 := by
      have hmax : 32 ≤ u32Max := by decide
      omega
    have hrest : [1, 2, 4, 8, 16].getD earlier 30 = 30 := by
      rw [List.getD_eq_getElem?_getD, List.getElem?_eq_none]
      · rfl
      · simp only [List.length_cons, List.length_nil]
        omega
    rw [retryDelay, if_neg hlong, backoff, hrest]

namespace InterfaceTable

theorem failuresOf_set {table : InterfaceTable} {interface : InterfaceKey}
    {entry stored : InterfaceEntry}
    (h : table.entry interface = some entry)
    (hsame : stored.presence.failures = entry.presence.failures)
    (other : InterfaceKey) :
    (table.setEntry interface stored).failuresOf other =
      table.failuresOf other := by
  by_cases hother : other = interface
  · subst hother
    rw [failuresOf, failuresOf, entry_setEntry h, h]
    exact hsame
  · rw [failuresOf, failuresOf,
      (confined_setEntry table interface stored).others other hother]

theorem findOrAddInterface_failuresOf (table : InterfaceTable)
    (name : InterfaceName) (lookup : Except Errno (Option Nat))
    (read : Except Errno Reading) (other : InterfaceKey) :
    (table.findOrAddInterface name lookup read).1.failuresOf other =
      table.failuresOf other := by
  simp only [findOrAddInterface]
  split
  · rfl
  split
  · rfl
  · rfl
  split
  · rfl
  · simp only [failuresOf, entry]
    by_cases hlt : other.index < table.entries.length
    · rw [List.getElem?_append_left hlt]
    · rw [List.getElem?_append_right (Nat.le_of_not_lt hlt),
        List.getElem?_eq_none (Nat.le_of_not_lt hlt)]
      cases other.index - table.entries.length with
      | zero => rfl
      | succ past => rfl

theorem joinOn_failuresOf (platform : Platform) (calls : JoinCalls)
    (table : InterfaceTable) (interface : InterfaceKey) (group : IpAddr)
    (wanted : Wanted) (now : Nat) (other : InterfaceKey) :
    (table.joinOn platform calls interface group wanted
      now).1.failuresOf other = table.failuresOf other := by
  simp only [joinOn]
  split
  · rfl
  rename_i entry hentry
  split
  · rfl
  split
  · refine failuresOf_set hentry ?_ other
    rfl
  · refine failuresOf_set hentry ?_ other
    rfl
  · refine failuresOf_set hentry ?_ other
    rfl

theorem converge_failuresOf (platform : Platform) (calls : ConvergeCalls)
    (table : InterfaceTable) (interface : InterfaceKey) (now : Nat)
    (other : InterfaceKey) :
    (table.converge platform calls interface now).1.failuresOf other =
      table.failuresOf other := by
  simp only [converge]
  split
  · rfl
  split
  · rfl
  · rename_i entry hentry
    exact failuresOf_set hentry (by rw [converge_presence]) other

theorem convergeEach_failuresOf (platform : Platform)
    (calls : InterfaceKey → ConvergeCalls) (now : Nat)
    (interfaces : List InterfaceKey) (table : InterfaceTable)
    (other : InterfaceKey) :
    (convergeEach platform calls now interfaces table).1.failuresOf other =
      table.failuresOf other := by
  induction interfaces generalizing table with
  | nil => rfl
  | cons interface rest ih =>
      exact (ih _).trans (converge_failuresOf ..)

theorem refresh_presence (entry : InterfaceEntry)
    (read : Except Errno Reading) :
    (entry.refresh read).1.presence = entry.presence := by
  unfold InterfaceEntry.refresh
  split <;> rfl

theorem refresh_failuresOf (table : InterfaceTable) (interface : InterfaceKey)
    (read : Except Errno Reading) (other : InterfaceKey) :
    (table.refresh interface read).1.failuresOf other =
      table.failuresOf other := by
  simp only [refresh]
  split
  · rfl
  · rename_i entry hentry
    exact failuresOf_set hentry (by rw [refresh_presence]) other

theorem refreshAll_failuresOf (table : InterfaceTable)
    (read : InterfaceKey → Except Errno Reading) (other : InterfaceKey) :
    (table.refreshAll read).1.failuresOf other = table.failuresOf other := by
  simp only [failuresOf, entry, refreshAll, List.getElem?_map,
    List.getElem?_zipIdx]
  cases table.entries[other.index]? with
  | none => rfl
  | some entry => exact congrArg Presence.failures (refresh_presence entry _)

theorem wake_failures (now : Nat) (waits : Unbound → Bool)
    (entry : InterfaceEntry) :
    (entry.wake now waits).presence.failures = entry.presence.failures := by
  unfold InterfaceEntry.wake
  split
  · rename_i failed hpresence
    split
    · rw [hpresence]
      rfl
    · rfl
  · rfl

theorem wakeAll_failuresOf (table : InterfaceTable) (now : Nat)
    (waits : Unbound → Bool) (other : InterfaceKey) :
    InterfaceTable.failuresOf { table with
        entries := table.entries.map (InterfaceEntry.wake now waits) } other =
      table.failuresOf other := by
  simp only [failuresOf, entry, List.getElem?_map]
  cases table.entries[other.index]? with
  | none => rfl
  | some entry => exact wake_failures now waits entry

theorem openCapture_failuresOf (table : InterfaceTable)
    (name : InterfaceName) (lookup : Except Errno (Option Nat))
    (read : Except Errno Reading) (attach : Except Errno LinkType)
    (other : InterfaceKey) :
    (table.openCapture name lookup read attach).1.failuresOf other =
      table.failuresOf other := by
  have hfound :=
    table.findOrAddInterface_failuresOf name lookup read other
  simp only [openCapture]
  split
  · rename_i heq
    rw [heq] at hfound
    exact hfound
  · rename_i heq
    rw [heq] at hfound
    split
    · exact hfound
    split
    · exact hfound
    · exact hfound

end InterfaceTable

/-! ### One step -/

theorem attemptsAt_counted {was : Presence} {streak : Option Streak}
    (h : was.failures = streak.map Streak.counted) (ifindex : Nat) :
    (ifindex, was.attemptsAt ifindex) =
      (Streak.next streak ifindex).counted := by
  cases streak with
  | none =>
      cases was with
      | unbound failed => cases h
      | present bound => rfl
      | parked => rfl
  | some streak =>
      cases was with
      | present bound => cases h
      | parked => cases h
      | unbound failed =>
          have hpair := Option.some.inj h
          have hindex : failed.ifindex = streak.ifindex :=
            congrArg Prod.fst hpair
          have hattempts : failed.attempts = min streak.earlier u32Max :=
            congrArg Prod.snd hpair
          simp only [Presence.attemptsAt, Streak.next, hindex, hattempts]
          split
          · refine congrArg (Prod.mk ifindex) ?_
            simp only
            omega
          · rfl

theorem step_streak {table : InterfaceTable} {interface : InterfaceKey}
    {streak : Option Streak}
    (h : table.failuresOf interface = streak.map Streak.counted)
    (platform : Platform) (calls : StepCalls) (now : Nat) :
    (table.step platform calls interface now).1.failuresOf interface =
      (Streak.after streak
        (table.step platform calls interface now).2).map Streak.counted := by
  have hof : ∀ made : InterfaceTable, made.failuresOf interface =
      (made.presenceOf interface).bind Presence.failures := by
    intro made
    rw [InterfaceTable.failuresOf, InterfaceTable.presenceOf,
      Option.bind_map]
    rfl
  cases hentry : table.entry interface with
  | none =>
      rw [InterfaceTable.step_unknown hentry]
      exact h
  | some entry =>
      have hwas : entry.presence.failures = streak.map Streak.counted := by
        rw [← h, InterfaceTable.failuresOf, hentry]
        rfl
      obtain ⟨presence, hpresence, hpresents⟩ :=
        InterfaceTable.step_presents hentry platform calls now
      rw [hof, hpresence]
      generalize (table.step platform calls interface now).2 = step
        at hpresents ⊢
      cases hpresents with
      | kept hwaits => exact hwas
      | lookupFailed error hlookup => exact hwas
      | parked bound hlookup => rfl
      | bound ifindex gone hlookup hdue => rfl
      | bindFailed ifindex error hlookup hdue =>
          exact congrArg some (attemptsAt_counted hwas ifindex)

/-! ### Runs -/

theorem run_streak {platform : Platform} {interface : InterfaceKey}
    (ops : List InterfaceTable.Op) {table : InterfaceTable}
    {streak : Option Streak}
    (h : table.failuresOf interface = streak.map Streak.counted) :
    (table.run platform ops).failuresOf interface =
      (streakOf platform interface table streak ops).map Streak.counted := by
  induction ops generalizing table streak with
  | nil => exact h
  | cons op ops ih =>
      cases op with
      | step calls stepped now =>
          apply ih
          split
          · rename_i hsame
            subst hsame
            exact step_streak h platform calls now
          · rename_i hother
            refine Eq.trans ?_ h
            exact congrArg
              (fun found : Option InterfaceEntry =>
                found.bind (·.presence.failures))
              ((InterfaceTable.confined_step platform calls table stepped
                now).others interface (Ne.symm hother))
      | findOrAddInterface name lookup read =>
          exact ih ((table.findOrAddInterface_failuresOf ..).trans h)
      | openCapture name lookup read attach =>
          exact ih ((table.openCapture_failuresOf ..).trans h)
      | joinOn calls joined group wanted now =>
          exact ih ((InterfaceTable.joinOn_failuresOf ..).trans h)
      | refresh refreshed read =>
          exact ih ((table.refresh_failuresOf ..).trans h)
      | refreshAll read =>
          exact ih ((table.refreshAll_failuresOf ..).trans h)
      | converge calls converged now =>
          exact ih ((InterfaceTable.converge_failuresOf ..).trans h)
      | convergeAll calls now =>
          exact ih ((InterfaceTable.convergeEach_failuresOf ..).trans h)
      | wakeUnbound ifindex now =>
          exact ih ((table.wakeAll_failuresOf ..).trans h)
      | wakeAllUnbound now =>
          exact ih ((table.wakeAll_failuresOf ..).trans h)

/-- A bind that fails waits as long as those in a row before it say, and until
then a step that finds the name at its index keeps the interface. -/
def BacksOff (platform : Platform) (interface : InterfaceKey)
    (table : InterfaceTable) (streak : Option Streak) : Prop :=
  ∀ (calls : StepCalls) (now : Nat) (was : Presence) (ifindex : Nat)
    (error : Errno) (retryIn : Nat) (first : Bool),
    (table.step platform calls interface now).2 =
        .bindFailed was ifindex error retryIn first →
      retryIn = backoff (Streak.next streak ifindex).earlier ∧
      ∀ (again : StepCalls) (later : Nat),
        again.lookup = .ok (some ifindex) →
          (((table.step platform calls interface now).1.step platform again
            interface later).2 = .kept ↔ later < now + retryIn)

theorem backsOff_of_counted {platform : Platform} {interface : InterfaceKey}
    {table : InterfaceTable} {streak : Option Streak}
    (h : table.failuresOf interface = streak.map Streak.counted) :
    BacksOff platform interface table streak := by
  intro calls now was ifindex error retryIn first hstep
  cases hentry : table.entry interface with
  | none =>
      rw [InterfaceTable.step_unknown hentry] at hstep
      cases hstep
  | some entry =>
      have hwas : entry.presence.failures = streak.map Streak.counted := by
        rw [← h, InterfaceTable.failuresOf, hentry]
        rfl
      obtain ⟨presence, hpresence, hpresents⟩ :=
        InterfaceTable.step_presents hentry platform calls now
      rw [hstep] at hpresents
      cases hpresents with
      | bindFailed _ _ hlookup hdue =>
          have hcounted : entry.presence.attemptsAt ifindex =
              min (Streak.next streak ifindex).earlier u32Max :=
            congrArg Prod.snd (attemptsAt_counted hwas ifindex)
          refine ⟨by rw [hcounted, retryDelay_saturated], ?_⟩
          intro again later hagain
          obtain ⟨left, hleft, hfailed⟩ :=
            Option.map_eq_some_iff.mp hpresence
          generalize (table.step platform calls interface now).1 = after at *
          obtain ⟨_, _, hnext⟩ :=
            InterfaceTable.step_presents hleft platform again later
          rw [hfailed] at hnext
          generalize (after.step platform again interface later).2 = step
            at hnext ⊢
          cases hnext with
          | kept hwaits => exact iff_of_true rfl (hwaits _ rfl).2
          | lookupFailed error hfault =>
              rw [hagain] at hfault
              cases hfault
          | parked bound hnone =>
              rw [hagain] at hnone
              cases hnone
          | bound index gone hindex hready =>
              rw [hagain] at hindex
              cases hindex
              refine iff_of_false (fun hkept => by cases hkept) ?_
              exact Nat.not_lt.mpr (hready _ rfl rfl)
          | bindFailed index error hindex hready =>
              rw [hagain] at hindex
              cases hindex
              refine iff_of_false (fun hkept => by cases hkept) ?_
              exact Nat.not_lt.mpr (hready _ rfl rfl)

/-! ## Every pass and every run -/

/-- A pass is re-armed as it should be exactly when no overdue bind hides an
imminent one; and over every run of a table its failed binds back off. -/
theorem rearmed_unless_overdue (platform : Platform) (calls : ReconcileCalls)
    (lifecycle : InterfaceLifecycle) (table : InterfaceTable) (now : Nat) :
    (Rearmed platform calls table now
        (lifecycle.reconcile platform calls table now) ↔
      ¬(Overdue calls table now ∧ Imminent calls table now)) ∧
    ∀ (joinGroups : Bool) (ops : List InterfaceTable.Op)
      (interface : InterfaceKey),
      BacksOff platform interface
        (InterfaceTable.run platform ⟨[], [], joinGroups⟩ ops)
        (streakOf platform interface ⟨[], [], joinGroups⟩ none ops) := by
  refine ⟨rearmed_iff_unhidden lifecycle, ?_⟩
  intro joinGroups ops interface
  exact backsOff_of_counted (run_streak ops rfl)

/-- Two binds that failed: one is due now, the other 200 ms from now. -/
def waitingTable : InterfaceTable where
  entries :=
    [⟨⟨[0x61], .default, none⟩, .unbound ⟨3, 1, 3 * second⟩, none⟩,
      ⟨⟨[0x62], .default, none⟩, .unbound ⟨4, 0, 3200000000⟩, none⟩]
  captures := []
  joinGroups := false

/-- The first name cannot be looked up, with EMFILE; the second still has its
index. -/
def waitingCalls : ReconcileCalls where
  step interface :=
    { lookup := if interface.index = 0 then .error (.other 24) else .ok (some 4)
      attached := fun _ => true
      read := .error .noDev
      rebind := fun _ => .error .noDev
      converge := ⟨fun _ => true, fun _ => ⟨.ok (), .ok (), .ok none⟩⟩ }
  converge _ := ⟨fun _ => true, fun _ => ⟨.ok (), .ok (), .ok none⟩⟩

theorem overdue_bind_hides_next :
    ((⟨false, none, 0, 0⟩ : InterfaceLifecycle).reconcile .linux waitingCalls
        waitingTable (3 * second)).1.nextReconcile = 4 * second ∧
    ¬Rearmed .linux waitingCalls waitingTable (3 * second)
      ((⟨false, none, 0, 0⟩ : InterfaceLifecycle).reconcile .linux waitingCalls
        waitingTable (3 * second)) := by
  have harmed : ((⟨false, none, 0, 0⟩ : InterfaceLifecycle).reconcile .linux
      waitingCalls waitingTable (3 * second)).1.nextReconcile =
        4 * second := by decide
  refine ⟨harmed, fun h => ?_⟩
  have hlate := h.bindRetry ⟨1⟩ ⟨4, 0, 3200000000⟩ (by decide) (by decide)
  rw [harmed] at hlate
  exact absurd hlate (by decide)

end Netflector.Dispatch
