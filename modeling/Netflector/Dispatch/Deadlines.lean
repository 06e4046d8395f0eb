import Netflector.Dispatch.Enrollment
import Netflector.Dispatch.Rearming
import Netflector.Net.Groups

/-!
# What a deadline leaves due

The reactor waits until the dispatcher's next deadline, and a timer that is left
due makes it wait not at all.  Only a failed join can be: where its interface is
found gone before the group's attempt, and the reconcile that follows leaves the
interface as it is.
-/

namespace Netflector.Dispatch

open Netflector.Foundation
open Netflector.Net
open Netflector.Reactor
open Netflector.Reflector

/-! ## Failed joins -/

theorem convergeFrom_waits {platform : Platform} {calls : Nat → JoinCalls}
    {ifindex now : Nat} {membership : Membership} {due : Nat}
    (hdue : membership.retryAt = some due) (groups : List Membership)
    {position : Nat} {sockets : Sockets}
    (hmem : membership ∈ (Memberships.convergeFrom platform calls ifindex now
      position sockets groups).1.groups) :
    now < due ∨
      ((Memberships.convergeFrom platform calls ifindex now position sockets
        groups).2 = true ∧ membership ∈ groups) := by
  have hsettled : ∀ {found : Membership} {outcome : JoinOutcome},
      membership = found.settle outcome now → now < due := by
    intro found outcome hfound
    subst hfound
    cases outcome with
    | joined => cases hdue
    | waits wait => cases hdue
    | failed source capped =>
        cases hdue
        exact Nat.lt_add_of_pos_right (retryDelay_pos _)
  induction groups generalizing position sockets with
  | nil => cases hmem
  | cons head rest ih =>
      simp only [Memberships.convergeFrom] at hmem ⊢
      split at hmem
      · rename_i hwaits
        rw [if_pos hwaits]
        rcases List.mem_cons.mp hmem with rfl | hlater
        · left
          cases hstate : membership.state with
          | failed attempts retryAt =>
              simp only [Membership.retryAt, hstate, Option.some.injEq] at hdue
              simpa [Membership.isSettled, hstate, hdue] using hwaits
          | pending => simp [Membership.retryAt, hstate] at hdue
          | joined => simp [Membership.retryAt, hstate] at hdue
          | waiting wait => simp [Membership.retryAt, hstate] at hdue
        · refine (ih hlater).imp id ?_
          exact fun hgone => ⟨hgone.1, List.mem_cons_of_mem _ hgone.2⟩
      · rename_i hattempted
        rw [if_neg hattempted]
        split at hmem
        · rcases List.mem_cons.mp hmem with rfl | hlater
          · cases hdue
          · exact .inr ⟨rfl, List.mem_cons_of_mem _ hlater⟩
        · rcases List.mem_cons.mp hmem with hhead | hlater
          · exact .inl (hsettled hhead)
          · refine (ih hlater).imp id ?_
            exact fun hgone => ⟨hgone.1, List.mem_cons_of_mem _ hgone.2⟩

def InterfaceEntry.retries (entry : InterfaceEntry) : List Nat :=
  match entry.memberships with
  | none => []
  | some memberships => memberships.groups.filterMap Membership.retryAt

theorem InterfaceEntry.nextJoinRetry_eq (entry : InterfaceEntry) :
    entry.nextJoinRetry = entry.retries.min? := by
  unfold InterfaceEntry.nextJoinRetry InterfaceEntry.retries
  cases entry.memberships with
  | none => rfl
  | some memberships => rfl

theorem InterfaceEntry.retries_rebased {entry : InterfaceEntry}
    {was : Option Memberships}
    (h : entry.memberships = was.map Memberships.rebase) :
    entry.retries = [] := by
  unfold InterfaceEntry.retries
  rw [h]
  cases was with
  | none => rfl
  | some memberships =>
      refine List.filterMap_eq_nil_iff.mpr fun membership hmem => ?_
      obtain ⟨group, _, rfl⟩ := List.mem_map.mp hmem
      rfl

theorem InterfaceEntry.Inert.retries {entry : InterfaceEntry}
    (h : entry.Inert) : entry.retries = [] := by
  unfold InterfaceEntry.retries
  cases hmemberships : entry.memberships with
  | none => rfl
  | some memberships =>
      refine List.filterMap_eq_nil_iff.mpr fun membership hmem => ?_
      simp [Membership.retryAt, (h.idle memberships hmemberships).pending
        membership hmem]

theorem InterfaceEntry.converge_retries {entry : InterfaceEntry}
    (h : entry.Settled) {platform : Platform} {calls : Nat → JoinCalls}
    {now due : Nat} (hdue : due ∈ (entry.converge platform calls now).1.retries) :
    now < due ∨ ((entry.converge platform calls now).2 = true ∧
      due ∈ entry.retries) := by
  cases hpresence : entry.presence with
  | present ifindex =>
      cases hmemberships : entry.memberships with
      | none =>
          simp [InterfaceEntry.converge, InterfaceEntry.retries, hpresence,
            hmemberships] at hdue
      | some memberships =>
          simp only [InterfaceEntry.converge, InterfaceEntry.retries,
            hpresence, hmemberships] at hdue ⊢
          obtain ⟨membership, hmem, hretry⟩ := List.mem_filterMap.mp hdue
          refine (convergeFrom_waits hretry _ hmem).imp id ?_
          exact fun hgone =>
            ⟨hgone.1, List.mem_filterMap.mpr ⟨membership, hgone.2, hretry⟩⟩
  | parked =>
      have hinert := h (by simp [InterfaceEntry.ifindex, hpresence])
      simp [InterfaceEntry.converge, hpresence, hinert.retries] at hdue
  | unbound failed =>
      have hinert := h (by simp [InterfaceEntry.ifindex, hpresence])
      simp [InterfaceEntry.converge, hpresence, hinert.retries] at hdue

namespace InterfaceTable

def retriesOf (table : InterfaceTable) (interface : InterfaceKey) : List Nat :=
  ((table.entry interface).map InterfaceEntry.retries).getD []

theorem retriesOf_congr {table other : InterfaceTable}
    {interface : InterfaceKey}
    (h : table.entry interface = other.entry interface) :
    table.retriesOf interface = other.retriesOf interface := by
  rw [retriesOf, retriesOf, h]

theorem retriesOf_entry {table : InterfaceTable} {interface : InterfaceKey}
    {entry : InterfaceEntry} (h : table.entry interface = some entry) :
    table.retriesOf interface = entry.retries := by
  rw [retriesOf, h]
  rfl

theorem retriesOf_setEntry {table : InterfaceTable} {interface : InterfaceKey}
    {entry : InterfaceEntry} (h : table.entry interface = some entry)
    (stored : InterfaceEntry) :
    (table.setEntry interface stored).retriesOf interface =
      stored.retries :=
  retriesOf_entry (entry_setEntry h stored)

theorem nextJoinRetry_mem {table : InterfaceTable} {due : Nat}
    (h : table.nextJoinRetry = some due) :
    ∃ interface, due ∈ table.retriesOf interface := by
  obtain ⟨entry, hmem, hnext⟩ := List.mem_filterMap.mp (List.min?_mem h)
  obtain ⟨index, hindex⟩ := List.mem_iff_getElem?.mp hmem
  refine ⟨⟨index⟩, ?_⟩
  have hentry : table.entry ⟨index⟩ = some entry := hindex
  rw [retriesOf_entry hentry]
  rw [InterfaceEntry.nextJoinRetry_eq] at hnext
  exact List.min?_mem hnext

theorem nextJoinRetry_le {table : InterfaceTable} {interface : InterfaceKey}
    {due : Nat} (h : due ∈ table.retriesOf interface) :
    ∃ next, table.nextJoinRetry = some next ∧ next ≤ due := by
  cases hentry : table.entry interface with
  | none =>
      rw [retriesOf, hentry] at h
      cases h
  | some entry =>
      rw [retriesOf_entry hentry] at h
      obtain ⟨first, hfirst⟩ :=
        Option.isSome_iff_exists.mp (List.isSome_min?_of_mem h)
      have hearliest := (List.min?_eq_some_iff.mp hfirst).2 due h
      rw [← InterfaceEntry.nextJoinRetry_eq] at hfirst
      have hmem : first ∈
          table.entries.filterMap InterfaceEntry.nextJoinRetry :=
        List.mem_filterMap.mpr ⟨entry, List.mem_of_getElem? hentry, hfirst⟩
      obtain ⟨next, hnext⟩ :=
        Option.isSome_iff_exists.mp (List.isSome_min?_of_mem hmem)
      exact ⟨next, hnext,
        ((List.min?_eq_some_iff.mp hnext).2 first hmem).trans hearliest⟩

/-- A pass over an interface leaves a retry due only where it found the
interface gone. -/
theorem converge_retries {table : InterfaceTable} (h : table.Settled)
    {platform : Platform} {calls : ConvergeCalls} {interface : InterfaceKey}
    {now due : Nat} (hdue : due ∈
      (table.converge platform calls interface now).1.retriesOf interface) :
    now < due ∨ ((table.converge platform calls interface now).2 = true ∧
      due ∈ table.retriesOf interface) := by
  simp only [converge] at hdue ⊢
  split at hdue
  · rename_i hdetached
    rw [if_pos hdetached]
    exact .inr ⟨rfl, hdue⟩
  · rename_i hattached
    rw [if_neg hattached]
    split at hdue
    · rename_i hnone
      rw [retriesOf, hnone] at hdue
      cases hdue
    · rename_i entry hentry
      rw [retriesOf_setEntry hentry] at hdue
      rw [retriesOf_entry hentry]
      exact InterfaceEntry.converge_retries (h.entry hentry) hdue

/-! ## A pass over the table -/

theorem mem_interfaces {table : InterfaceTable} {interface : InterfaceKey}
    {entry : InterfaceEntry} (h : table.entry interface = some entry) :
    interface ∈ table.interfaces := by
  refine List.mem_map.mpr ⟨interface.index, ?_, rfl⟩
  exact List.mem_range.mpr (List.getElem?_eq_some_iff.mp h).1

theorem not_mem_interfaces {table : InterfaceTable} {interface : InterfaceKey}
    (h : table.entry interface = none) : interface ∉ table.interfaces := by
  intro hmem
  obtain ⟨index, hindex, rfl⟩ := List.mem_map.mp hmem
  rw [entry, List.getElem?_eq_none_iff] at h
  exact Nat.not_le_of_lt (List.mem_range.mp hindex) h

theorem converge_captures (platform : Platform) (calls : ConvergeCalls)
    (table : InterfaceTable) (interface : InterfaceKey) (now : Nat) :
    (table.converge platform calls interface now).1.captures =
      table.captures := by
  simp only [converge]
  split
  · rfl
  split
  · rfl
  · rfl

theorem probe_congr {table other : InterfaceTable} {interface : InterfaceKey}
    (hentry : table.entry interface = other.entry interface)
    (hcaptures : table.captures = other.captures)
    (attached : CaptureKey → Bool) :
    table.probe attached interface = other.probe attached interface := by
  rw [probe, probe, interfaceIndex, interfaceIndex, hentry, hcaptures]

theorem converge_congr {table other : InterfaceTable}
    {interface : InterfaceKey}
    (hentry : table.entry interface = other.entry interface)
    (hcaptures : table.captures = other.captures) (platform : Platform)
    (calls : ConvergeCalls) (now : Nat) :
    (table.converge platform calls interface now).2 =
      (other.converge platform calls interface now).2 ∧
    (table.converge platform calls interface now).1.entry interface =
      (other.converge platform calls interface now).1.entry interface := by
  simp only [converge, probe_congr hentry hcaptures, hentry]
  split
  · exact ⟨rfl, hentry⟩
  split
  · exact ⟨rfl, hentry⟩
  · rename_i entry hfound
    refine ⟨rfl, ?_⟩
    rw [entry_setEntry (hentry.trans hfound), entry_setEntry hfound]

theorem convergeEach_others {platform : Platform}
    {calls : InterfaceKey → ConvergeCalls} {now : Nat}
    {interfaces : List InterfaceKey} {other : InterfaceKey}
    (h : other ∉ interfaces) (table : InterfaceTable) :
    (convergeEach platform calls now interfaces table).1.entry other =
      table.entry other := by
  induction interfaces generalizing table with
  | nil => rfl
  | cons interface rest ih =>
      rw [List.mem_cons, not_or] at h
      exact (ih h.2 _).trans ((confined_converge platform (calls interface)
        table interface now).others other h.1)

/-- The pass over an interface finds it gone before a failed group's attempt:
the retry is due as it was. -/
structure Unattempted (platform : Platform) (calls : ConvergeCalls)
    (now : Nat) (table : InterfaceTable) (interface : InterfaceKey)
    (due : Nat) : Prop where
  gone : (table.converge platform calls interface now).2 = true
  was : due ∈ table.retriesOf interface
  stays : due ∈
    (table.converge platform calls interface now).1.retriesOf interface

theorem Unattempted.congr {platform : Platform} {calls : ConvergeCalls}
    {table other : InterfaceTable} {interface : InterfaceKey} {now due : Nat}
    (h : Unattempted platform calls now table interface due)
    (hentry : table.entry interface = other.entry interface)
    (hcaptures : table.captures = other.captures) :
    Unattempted platform calls now other interface due := by
  obtain ⟨hgone, hafter⟩ :=
    converge_congr hentry hcaptures platform calls now
  exact ⟨hgone ▸ h.gone, retriesOf_congr hentry ▸ h.was,
    retriesOf_congr hafter ▸ h.stays⟩

theorem convergeEach_retries {platform : Platform}
    {calls : InterfaceKey → ConvergeCalls} {now due : Nat}
    (interfaces : List InterfaceKey) (hnodup : interfaces.Nodup)
    {table : InterfaceTable} (h : table.Settled) {interface : InterfaceKey}
    (hmem : interface ∈ interfaces)
    (hdue : due ∈
      (convergeEach platform calls now interfaces table).1.retriesOf
        interface) :
    now < due ∨
      ((convergeEach platform calls now interfaces table).2 = true ∧
        Unattempted platform (calls interface) now table interface due) := by
  induction interfaces generalizing table with
  | nil => cases hmem
  | cons head rest ih =>
      obtain ⟨hfresh, hrest⟩ := List.nodup_cons.mp hnodup
      simp only [convergeEach] at hdue ⊢
      rcases List.mem_cons.mp hmem with rfl | hlater
      · rw [retriesOf_congr (convergeEach_others hfresh _)] at hdue
        refine (converge_retries h hdue).imp id ?_
        rintro ⟨hgone, hwas⟩
        exact ⟨by rw [hgone, Bool.true_or], hgone, hwas, hdue⟩
      · have hne : interface ≠ head := by
          rintro rfl
          exact hfresh hlater
        have hsettled := h.converge platform (calls head) head now
        refine (ih hrest hsettled hlater hdue).imp id ?_
        rintro ⟨hany, hunattempted⟩
        exact ⟨by rw [hany, Bool.or_true], hunattempted.congr
          ((confined_converge platform (calls head) table
            head now).others interface hne)
          (converge_captures platform (calls head) table head now)⟩

theorem interfaces_nodup (table : InterfaceTable) : table.interfaces.Nodup := by
  refine List.nodup_range.map ?_
  intro first second hsame
  cases hsame
  rfl

/-! ## A step -/

theorem settleBind_retries {table : InterfaceTable} (h : table.Settled)
    {interface : InterfaceKey} {held entry : InterfaceEntry}
    (hheld : table.entry interface = some held) (hnone : entry.retries = [])
    {platform : Platform} {calls : ConvergeCalls} {ifindex now due : Nat}
    {was : Presence} {bound : Except Errno Unit}
    (hdue : due ∈ (table.settleBind platform calls interface entry ifindex was
      bound now).1.retriesOf interface) : now < due := by
  cases bound with
  | error error =>
      simp only [settleBind] at hdue
      rw [retriesOf_setEntry hheld, (entry.release_inert _).retries] at hdue
      cases hdue
  | ok done =>
      simp only [settleBind] at hdue
      have hpresent : InterfaceEntry.Settled
          { entry with presence := .present ifindex } :=
        InterfaceEntry.settled_present ifindex rfl
      refine (converge_retries (h.setEntry interface hpresent)
        hdue).resolve_right ?_
      rintro ⟨_, hold⟩
      rw [retriesOf_setEntry hheld] at hold
      have hempty : due ∈ entry.retries := hold
      rw [hnone] at hempty
      cases hempty

theorem bind_retries {table : InterfaceTable} (h : table.Settled)
    {interface : InterfaceKey} {entry : InterfaceEntry}
    (hentry : table.entry interface = some entry) {platform : Platform}
    {calls : StepCalls} {ifindex now due : Nat}
    (hdue : due ∈ (table.bind platform calls interface entry ifindex
      now).1.retriesOf interface) : now < due := by
  have hrebased : ∀ {made : InterfaceEntry},
      made.memberships = entry.memberships.map Memberships.rebase →
      made.retries = [] := fun hmade => InterfaceEntry.retries_rebased hmade
  have hrebound : (table.rebindCaptures calls.rebind interface).1.entry
      interface = some entry := hentry
  have hsettled := h.rebindCaptures calls.rebind interface
  simp only [bind] at hdue
  split at hdue
  · exact settleBind_retries h hentry (hrebased rfl) hdue
  split at hdue
  · rename_i heq
    rw [heq] at hrebound hsettled
    exact settleBind_retries hsettled hrebound (hrebased rfl) hdue
  · rename_i heq
    rw [heq] at hrebound hsettled
    exact settleBind_retries hsettled hrebound (hrebased rfl) hdue

theorem step_retries {table : InterfaceTable} (h : table.Settled)
    (platform : Platform) (calls : StepCalls) (interface : InterfaceKey)
    (now : Nat) :
    ((table.step platform calls interface now).1 = table ∧
      ((table.step platform calls interface now).2 = .kept ∨
        ∃ error, (table.step platform calls interface now).2 =
          .lookupFailed error)) ∨
      ∀ due ∈ (table.step platform calls interface now).1.retriesOf interface,
        now < due := by
  have hidle : ∀ {made : InterfaceTable} {entry : InterfaceEntry},
      made.entry interface = some entry → entry.retries = [] →
      ∀ due ∈ made.retriesOf interface, now < due := by
    intro made entry hentry hnone due hdue
    rw [retriesOf_entry hentry, hnone] at hdue
    cases hdue
  have hbind : ∀ entry current, table.entry interface = some entry →
      ∀ due ∈ (table.bind platform calls interface entry current
        now).1.retriesOf interface, now < due :=
    fun _ _ hentry _ hdue => bind_retries h hentry hdue
  simp only [step]
  split
  · exact .inl ⟨rfl, .inl rfl⟩
  rename_i entry hentry
  split
  · rename_i error hlookup
    exact .inl ⟨rfl, .inr ⟨error, rfl⟩⟩
  · split
    · exact .inl ⟨rfl, .inl rfl⟩
    · exact .inr (hidle (entry_setEntry hentry _)
        (entry.release_inert .parked).retries)
    · rename_i failed hpresence
      have hinert := h.entry hentry
        (by simp [InterfaceEntry.ifindex, hpresence])
      exact .inr (hidle (entry_setEntry hentry _) hinert.retries)
  · rename_i current hlookup
    split
    · split
      · exact .inl ⟨rfl, .inl rfl⟩
      · exact .inr (hbind entry current hentry)
    · split
      · exact .inl ⟨rfl, .inl rfl⟩
      · exact .inr (hbind entry current hentry)
    · exact .inr (hbind entry current hentry)

end InterfaceTable

/-! ## A reconcile -/

/-- The reconcile of an interface leaves its joins to a later pass: its name
cannot be looked up, or it is kept and found gone. -/
def Lingers (platform : Platform) (calls : ReconcileCalls)
    (table : InterfaceTable) (interface : InterfaceKey) (now : Nat) : Prop :=
  (∃ error, (table.step platform (calls.step interface) interface now).2 =
    .lookupFailed error) ∨
  (table.step platform (calls.step interface) interface now).2 = .kept ∧
    (table.converge platform (calls.converge interface) interface now).2 = true

theorem reconcileOne_retries {platform : Platform} {calls : ReconcileCalls}
    {interface : InterfaceKey} {table : InterfaceTable} (h : table.Settled)
    {now due : Nat}
    (hdue : due ∈ (reconcileOne platform calls now interface
      table).1.retriesOf interface) :
    now < due ∨ (Lingers platform calls table interface now ∧
      due ∈ table.retriesOf interface) := by
  obtain ⟨hsame, hkept⟩ | hlater :=
    InterfaceTable.step_retries h platform (calls.step interface) interface now
  · obtain hkept | ⟨error, hfailed⟩ := hkept
    · simp only [reconcileOne, hkept, if_pos, hsame] at hdue
      refine (InterfaceTable.converge_retries h hdue).imp id ?_
      exact fun hgone => ⟨.inr ⟨hkept, hgone.1⟩, hgone.2⟩
    · simp only [reconcileOne, hfailed, reduceCtorEq, if_false, hsame] at hdue
      exact .inr ⟨.inl ⟨error, hfailed⟩, hdue⟩
  · left
    by_cases hkept :
        (table.step platform (calls.step interface) interface now).2 = .kept
    · simp only [reconcileOne, hkept, if_pos] at hdue
      obtain hwaits | ⟨_, hold⟩ := InterfaceTable.converge_retries
        (h.step platform (calls.step interface) interface now) hdue
      · exact hwaits
      · exact hlater due hold
    · simp only [reconcileOne, if_neg hkept] at hdue
      exact hlater due hdue

theorem reconcileEach_retries {platform : Platform} {calls : ReconcileCalls}
    {table : InterfaceTable} (h : table.Settled) {interface : InterfaceKey}
    {now due : Nat}
    (hdue : due ∈ (reconcileEach platform calls now table.interfaces
      table).1.retriesOf interface) :
    now < due ∨ (due ∈ table.retriesOf interface ∧
      Lingers platform calls (turn platform calls table now interface)
        interface now) := by
  cases hentry : table.entry interface with
  | none =>
      rw [InterfaceTable.retriesOf_congr (reconcileEach_others
        (InterfaceTable.not_mem_interfaces hentry) table),
        InterfaceTable.retriesOf, hentry] at hdue
      cases hdue
  | some entry =>
      obtain ⟨hturn, hafter, _⟩ := turn_taken platform calls now hentry
      rw [InterfaceTable.retriesOf_congr hafter] at hdue
      have hsettled : (turn platform calls table now interface).Settled :=
        (reconcileEach_reconciled platform calls now _ h).settled
      refine (reconcileOne_retries hsettled hdue).imp id ?_
      rintro ⟨hlingers, hold⟩
      rw [InterfaceTable.retriesOf_congr (hturn.trans hentry.symm)] at hold
      exact ⟨hold, hlingers⟩

/-! ## The retries of a deadline -/

/-- The joins' retry finds the interface gone before the group that is due, and
the reconcile that this calls for leaves its joins as they are. -/
structure Stranded (platform : Platform) (calls : DeadlineCalls) (now : Nat)
    (table : InterfaceTable) (interface : InterfaceKey) (due : Nat) :
    Prop where
  unattempted : InterfaceTable.Unattempted platform (calls.retry interface)
    now table interface due
  lingers : Lingers platform calls.reconcile.reconcile
    (turn platform calls.reconcile.reconcile
      (retried platform calls now table).1 (now + calls.reconcile.elapsed)
      interface) interface (now + calls.reconcile.elapsed)

theorem retried_retries {platform : Platform} {calls : DeadlineCalls}
    {table : InterfaceTable} (h : table.Settled) {interface : InterfaceKey}
    {now due : Nat}
    (hdue : due ∈ (retried platform calls now table).1.retriesOf interface) :
    now < due ∨ ((retried platform calls now table).2 = true ∧
      InterfaceTable.Unattempted platform (calls.retry interface) now table
        interface due) := by
  simp only [retried] at hdue ⊢
  split at hdue
  · rename_i hany
    rw [if_pos hany]
    cases hentry : table.entry interface with
    | none =>
        rw [InterfaceTable.convergeAll, InterfaceTable.retriesOf_congr
          (InterfaceTable.convergeEach_others
            (InterfaceTable.not_mem_interfaces hentry) table),
          InterfaceTable.retriesOf, hentry] at hdue
        cases hdue
    | some entry =>
        exact InterfaceTable.convergeEach_retries _ table.interfaces_nodup h
          (InterfaceTable.mem_interfaces hentry) hdue
  · rename_i hnone
    left
    obtain ⟨next, hnext, hle⟩ := InterfaceTable.nextJoinRetry_le hdue
    rw [hnext, Option.any_some, decide_eq_true_eq, Nat.not_le] at hnone
    exact Nat.lt_of_lt_of_le hnone hle

theorem afterRepair_rest (poll : Reactor.Poll) (touched : List CaptureKey)
    (rebuilt : List Rebuilt) (daemon : Daemon) :
    (afterRepair poll touched rebuilt daemon).dispatcher.table =
        daemon.dispatcher.table ∧
      (afterRepair poll touched rebuilt daemon).dispatcher.lifecycle =
        daemon.dispatcher.lifecycle ∧
      (afterRepair poll touched rebuilt daemon).dispatcher.report =
        daemon.dispatcher.report := by
  simp only [afterRepair, notifyIfaceChange]
  split
  · exact ⟨rfl, rfl, rfl⟩
  · rw [callEach_rest (onIfaceChange_ends _) _ _]
    exact ⟨rfl, rfl, rfl⟩

structure Reconciles (platform : Platform) (calls : RepairCalls) (now : Nat)
    (daemon after : Daemon) : Prop where
  table : after.dispatcher.table = (reconcileEach platform calls.reconcile
    (now + calls.elapsed) daemon.dispatcher.table.interfaces
    daemon.dispatcher.table).1
  later : now < after.dispatcher.lifecycle.nextReconcile
  recheck : after.dispatcher.lifecycle.nextRecheck =
    daemon.dispatcher.lifecycle.nextRecheck
  report : after.dispatcher.report = daemon.dispatcher.report

theorem reconcileInterfaces_reconciles (platform : Platform)
    (calls : RepairCalls) (now : Nat) (daemon : Daemon) :
    Reconciles platform calls now daemon
      (reconcileInterfaces platform calls now daemon) := by
  obtain ⟨htable, hlifecycle, hreport⟩ := afterRepair_rest calls.poll []
    (daemon.dispatcher.lifecycle.reconcile platform calls.reconcile
      daemon.dispatcher.table (now + calls.elapsed)).2.2
    { daemon with dispatcher := { daemon.dispatcher with
      lifecycle := (daemon.dispatcher.lifecycle.reconcile platform
        calls.reconcile daemon.dispatcher.table (now + calls.elapsed)).1
      table := (daemon.dispatcher.lifecycle.reconcile platform
        calls.reconcile daemon.dispatcher.table
        (now + calls.elapsed)).2.1 } }
  refine ⟨htable, ?_, ?_, hreport⟩
  · refine Nat.lt_of_le_of_lt (Nat.le_add_right now calls.elapsed) ?_
    exact Nat.lt_of_lt_of_eq (nextPass_later _ _ _)
      (congrArg InterfaceLifecycle.nextReconcile hlifecycle).symm
  · have hsame := congrArg InterfaceLifecycle.nextRecheck hlifecycle
    exact hsame

theorem applyInterfaceChanges_timers (platform : Platform)
    (calls : RepairCalls) (now : Nat) (changes : Changes) (daemon : Daemon) :
    (applyInterfaceChanges platform calls now changes
        daemon).dispatcher.lifecycle.nextRecheck =
        daemon.dispatcher.lifecycle.nextRecheck ∧
      (applyInterfaceChanges platform calls now changes
        daemon).dispatcher.report = daemon.dispatcher.report := by
  simp only [applyInterfaceChanges]
  split
  · obtain ⟨_, hlifecycle, hreport⟩ := afterRepair_rest calls.poll
      changes.touched _ _
    have hsame := congrArg InterfaceLifecycle.nextRecheck hlifecycle
    exact ⟨hsame, hreport⟩
  · obtain ⟨_, hlifecycle, hreport⟩ := afterRepair_rest calls.poll
      changes.touched _ _
    have hsame := congrArg InterfaceLifecycle.nextRecheck hlifecycle
    exact ⟨hsame, hreport⟩

theorem recheckDue_timers (platform : Platform) (calls : DeadlineCalls)
    (now : Nat) (daemon : Daemon) :
    now < (recheckDue platform calls now
        daemon).dispatcher.lifecycle.nextRecheck ∧
      (recheckDue platform calls now daemon).dispatcher.report =
        daemon.dispatcher.report := by
  simp only [recheckDue]
  split
  · obtain ⟨hrecheck, hreport⟩ := applyInterfaceChanges_timers platform
      calls.repair now (daemon.dispatcher.lifecycle.recheck platform
        calls.recheck daemon.dispatcher.table now).2.2
      { daemon with dispatcher := { daemon.dispatcher with
        lifecycle := (daemon.dispatcher.lifecycle.recheck platform
          calls.recheck daemon.dispatcher.table now).1
        table := (daemon.dispatcher.lifecycle.recheck platform
          calls.recheck daemon.dispatcher.table now).2.1 } }
    refine ⟨Nat.lt_of_lt_of_eq ?_ hrecheck.symm, hreport⟩
    exact Nat.lt_add_of_pos_right (by decide)
  · rename_i hwaits
    exact ⟨Nat.lt_of_not_le hwaits, rfl⟩

theorem swept_report (calls : DeadlineCalls) (now : Nat) (daemon : Daemon)
    {report : CounterReport}
    (h : (swept calls now daemon).dispatcher.report = some report) :
    now < report.next := by
  obtain ⟨before, _, hbefore⟩ := Option.map_eq_some_iff.mp h
  subst hbefore
  split
  · exact Nat.lt_add_of_pos_right before.positive
  · rename_i hwaits
    exact Nat.lt_of_not_le hwaits

theorem retryDue_timers {daemon : Daemon}
    (h : daemon.dispatcher.table.Settled) (platform : Platform)
    (calls : DeadlineCalls) (now : Nat) :
    now < (retryDue platform calls now
        daemon).dispatcher.lifecycle.nextReconcile ∧
      (retryDue platform calls now daemon).dispatcher.lifecycle.nextRecheck =
        daemon.dispatcher.lifecycle.nextRecheck ∧
      (retryDue platform calls now daemon).dispatcher.report =
        daemon.dispatcher.report ∧
      ∀ interface, ∀ due ∈ (retryDue platform calls now
          daemon).dispatcher.table.retriesOf interface,
        now < due ∨ Stranded platform calls now daemon.dispatcher.table
          interface due := by
  obtain ⟨hsettled, _⟩ := retried_steady h platform calls now
  rw [retryDue_eq]
  split
  · have hreconciles := reconcileInterfaces_reconciles platform
      calls.reconcile now { daemon with dispatcher := { daemon.dispatcher with
        table := (retried platform calls now daemon.dispatcher.table).1 } }
    refine ⟨hreconciles.later, hreconciles.recheck, hreconciles.report, ?_⟩
    intro interface due hdue
    rw [hreconciles.table] at hdue
    obtain hwaits | ⟨hretried, hlingers⟩ :=
      reconcileEach_retries hsettled hdue
    · exact .inl (Nat.lt_of_le_of_lt (Nat.le_add_right _ _) hwaits)
    · refine (retried_retries h hretried).imp id ?_
      exact fun hgone => ⟨hgone.2, hlingers⟩
  · rename_i hidle
    rw [Bool.or_eq_true, not_or, decide_eq_true_eq, Nat.not_le] at hidle
    refine ⟨hidle.2, rfl, rfl, ?_⟩
    intro interface due hdue
    refine (retried_retries h hdue).imp id ?_
    exact fun hgone => absurd hgone.1 hidle.1

/-! ## Sessions -/

/-- A handler that is swept drops what is due, and the next deadline of one that
is not lies after `now`. -/
theorem Daemon.Anchored.swept_sessions {daemon : Daemon} (h : daemon.Anchored)
    {calls : DeadlineCalls} {now : Nat} {own : Key}
    {reflector : SearchReflector}
    (hsearches : Searches (Dispatch.swept calls now daemon).lookup own
      reflector) :
    ∀ entry ∈ reflector.sessions.entries, now < entry.2.expiry := by
  obtain ⟨before, hbefore, _, hsessions⟩ :=
    called_searches (onDeadlineOf_ends now) _ h.matched.bijective hsearches
  intro entry hmem
  obtain ⟨hold, hkeep⟩ := hsessions entry hmem
  by_contra hdue
  rw [Nat.not_lt] at hdue
  obtain ⟨registration, hget, hhandler⟩ := hbefore
  have hhandlers : (own, ⟨.search before, none⟩) ∈
      daemon.dispatcher.handlers := by
    refine List.mem_filterMap.mpr ⟨(own, registration),
      (Arena.mem_iter h.matched.wf).mpr hget, ?_⟩
    rw [hhandler]
    rfl
  -- its earliest session is no later than this one
  have hexpiry : entry.2.expiry ∈
      before.sessions.entries.map (·.2.expiry) :=
    List.mem_map_of_mem hold
  obtain ⟨first, hfirst⟩ :=
    Option.isSome_iff_exists.mp (List.isSome_min?_of_mem hexpiry)
  have hle := (List.min?_eq_some_iff.mp hfirst).2 _ hexpiry
  have hnext : PacketHandler.nextDeadline ⟨.search before, none⟩ =
      some first := hfirst
  have hswept := hkeep (List.mem_map.mpr ⟨_, List.mem_filter.mpr
    ⟨hhandlers, by simpa [hnext] using hle.trans hdue⟩, rfl⟩)
  simp only [Bool.not_eq_true', decide_eq_false_iff_not] at hswept
  exact hswept hdue

theorem Daemon.Anchored.handler_sessions {daemon : Daemon}
    (h : daemon.Anchored) {item : Key × PacketHandler}
    (hmem : item ∈ daemon.dispatcher.handlers) {due : Nat}
    (hdue : item.2.nextDeadline = some due) :
    ∃ reflector, Searches daemon.lookup item.1 reflector ∧
      ∃ entry ∈ reflector.sessions.entries, entry.2.expiry = due := by
  obtain ⟨key, leg, creator⟩ := item
  obtain ⟨⟨found, registration⟩, hiter, hitem⟩ := List.mem_filterMap.mp hmem
  obtain ⟨handler, hhandler, hsame⟩ := Option.map_eq_some_iff.mp hitem
  cases hsame
  have hget := (Arena.mem_iter h.matched.wf).mp hiter
  cases leg with
  | simple leg => cases hdue
  | search reflector =>
      have hroot : creator = none :=
        h.matched.bijective.rooted found registration _ reflector hget hhandler
          rfl
      subst hroot
      refine ⟨reflector, ⟨registration, hget, hhandler⟩, ?_⟩
      exact List.mem_map.mp (List.min?_mem hdue)

/-! ## Deadlines -/

def retriedTable (platform : Platform) (calls : DeadlineCalls) (now : Nat)
    (daemon : Daemon) : InterfaceTable :=
  (recheckDue platform calls now (swept calls now daemon)).dispatcher.table

/-- A deadline at `now` leaves no timer due but the retries of stranded
interfaces. -/
structure Rearms (platform : Platform) (calls : DeadlineCalls) (now : Nat)
    (before after : Daemon) : Prop where
  sessions : ∀ item ∈ after.dispatcher.handlers, ∀ due,
    item.2.nextDeadline = some due → now < due
  grace : ∀ due, after.dispatcher.dial.nextGrace = some due → now < due
  report : ∀ report, after.dispatcher.report = some report →
    now < report.next
  reconcile : now < after.dispatcher.lifecycle.nextReconcile
  recheck : now < after.dispatcher.lifecycle.nextRecheck
  joins : ∀ interface, ∀ due ∈ after.dispatcher.table.retriesOf interface,
    now < due ∨ Stranded platform calls now
      (retriedTable platform calls now before) interface due

theorem Daemon.Consistent.rearms {daemon : Daemon} (h : daemon.Consistent)
    (platform : Platform) (calls : DeadlineCalls) (now : Nat) :
    Rearms platform calls now daemon
      (onDeadline platform calls now daemon) := by
  have hswept := h.anchored.swept calls now
  have hrechecked := hswept.anchored.recheckDue platform calls now
  have hretried := hrechecked.anchored.retryDue platform calls now
  obtain ⟨hrecheck, hreport⟩ :=
    recheckDue_timers platform calls now (Dispatch.swept calls now daemon)
  obtain ⟨hlater, hsame, hkept, hjoins⟩ :=
    retryDue_timers hrechecked.anchored.settled platform calls now
  rw [onDeadline_eq]
  refine ⟨?_, ?_, ?_, hlater, ?_, hjoins⟩
  · intro item hmem due hdue
    obtain ⟨reflector, hsearches, ⟨id, session⟩, hentry, rfl⟩ :=
      hretried.anchored.handler_sessions hmem hdue
    obtain ⟨old, hold, _, hentry, _⟩ :=
      (hrechecked.trans hretried).stayed _ _ id session hsearches hentry
    exact h.anchored.swept_sessions hold (id, session) hentry
  · intro due hdue
    obtain ⟨item, hmem, rfl⟩ := List.mem_map.mp (List.min?_mem hdue)
    exact (h.deadline platform calls now).2 item hmem
  · intro report hfound
    rw [hkept, hreport] at hfound
    exact swept_report calls now daemon hfound
  · rw [hsame]
    exact hrecheck

/-- In every run, a deadline leaves the next one later than `now`, or due for
the join of an interface that is stranded. -/
theorem deadlines_rearmed {platform : Platform}
    {digest : MacAddr → Datagram → UInt64} {joinGroups monitor : Bool}
    {seed : UInt32} {start : Nat} {items : List Setup}
    {moments : List Daemon.Moment} {observed : Observed}
    (hrun : daemonRun platform digest
      (Daemon.new joinGroups monitor seed start) items moments =
        .ok observed) (now : Nat) (calls : DeadlineCalls) :
    Rearms platform calls now observed.daemon
      (onDeadline platform calls now observed.daemon) ∧
    ∀ due, (onDeadline platform calls now
        observed.daemon).dispatcher.nextDeadline = some due →
      now < due ∨ ∃ interface,
        due ∈ (onDeadline platform calls now
          observed.daemon).dispatcher.table.retriesOf interface ∧
        Stranded platform calls now
          (retriedTable platform calls now observed.daemon) interface due := by
  have hheld := daemonRun_held (consistent_invariant platform digest)
    (fun ready hready => setupAll_consistent hready) hrun
  have hrearms := hheld.1.rearms platform calls now
  refine ⟨hrearms, ?_⟩
  intro due hdue
  have hmem := List.min?_mem hdue
  simp only [List.mem_append, Option.mem_toList, List.mem_cons,
    List.not_mem_nil, or_false, List.mem_filterMap] at hmem
  rcases hmem with ((((⟨item, hitem, hnext⟩ | hgrace) | hreport) | hpasses) |
    hjoin)
  · exact .inl (hrearms.sessions item hitem due hnext)
  · exact .inl (hrearms.grace due hgrace)
  · obtain ⟨report, hfound, rfl⟩ := Option.map_eq_some_iff.mp hreport
    exact .inl (hrearms.report report hfound)
  · rcases hpasses with rfl | rfl
    · exact .inl hrearms.reconcile
    · exact .inl hrearms.recheck
  · obtain ⟨interface, hretry⟩ := InterfaceTable.nextJoinRetry_mem hjoin
    exact (hrearms.joins interface due hretry).imp id
      fun hstranded => ⟨interface, hretry, hstranded⟩

def strandedSetup : List Setup :=
  [.openCapture [0x61] (.ok (some 2)) (.ok ⟨.default, none⟩) (.ok .ethernet),
    .joinGroup ⟨.ok (), .error .noBufs, .ok (some 2)⟩ ⟨0⟩
      (.v4 Mdns.mdnsGroupV4) ⟨false⟩ 0]

/-- What answers a deadline: whether the capture is attached, and what its
interface's name resolves to.  No join succeeds. -/
def strandedCalls (attached : Bool) (lookup : Except Errno (Option Nat)) :
    DeadlineCalls :=
  let converge : ConvergeCalls :=
    ⟨fun _ => attached, fun _ => ⟨.ok (), .error .noBufs, lookup⟩⟩
  let repair : RepairCalls :=
    ⟨⟨fun _ => ⟨lookup, fun _ => attached, .error .noDev,
      fun _ => .error .noDev, converge⟩, fun _ => converge⟩, 1, fun _ => none⟩
  ⟨fun _ => none, ⟨fun _ => .ok ⟨.default, none⟩, fun _ => converge⟩, repair,
    fun _ => converge, repair⟩

/-- The re-read after thirty seconds attempts the join in vain. -/
def strandedMoments : List Daemon.Moment :=
  [.deadline (30 * second) (strandedCalls true (.ok (some 2)))]

/-- A second later the capture is detached and no name can be looked up: the
join is due as long as that lasts. -/
theorem deadlines_rearmed_stranded :
    ∃ observed interface,
      daemonRun .linux (fun _ _ => 0) (Daemon.new true true 0 0) strandedSetup
        strandedMoments = .ok observed ∧
      (onDeadline .linux (strandedCalls false (.error (.other 24)))
        (31 * second) observed.daemon).dispatcher.nextDeadline =
          some (31 * second) ∧
      Stranded .linux (strandedCalls false (.error (.other 24))) (31 * second)
        (retriedTable .linux (strandedCalls false (.error (.other 24)))
          (31 * second) observed.daemon) interface (31 * second) := by
  have hdue : ∃ observed,
      daemonRun .linux (fun _ _ => 0) (Daemon.new true true 0 0) strandedSetup
        strandedMoments = .ok observed ∧
      (onDeadline .linux (strandedCalls false (.error (.other 24)))
        (31 * second) observed.daemon).dispatcher.nextDeadline =
          some (31 * second) :=
    ⟨_, rfl, by decide +kernel⟩
  obtain ⟨observed, hrun, hnext⟩ := hdue
  obtain hlater | ⟨interface, _, hstranded⟩ := (deadlines_rearmed hrun
    (31 * second) (strandedCalls false (.error (.other 24)))).2 _ hnext
  · exact absurd hlater (Nat.lt_irrefl _)
  · exact ⟨observed, interface, hrun, hnext, hstranded⟩

end Netflector.Dispatch
