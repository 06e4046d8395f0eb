import Netflector.Dispatch.InterfaceTable

/-!
# Addresses come from scans

An interface's addresses are what the last read of it found, or none: whatever
is done to a table, they are those of some scan.
-/

namespace Netflector.Dispatch

open Netflector.Foundation
open Netflector.Net

def FromScan (read : Except Errno Reading) : Prop :=
  ∀ reading, read = .ok reading → reading.addrs.Scanned

namespace InterfaceTable

def Scanned (table : InterfaceTable) : Prop :=
  ∀ entry ∈ table.entries, entry.interface.addrs.Scanned

def Op.Scanned : Op → Prop
  | .findOrAddInterface _ _ read => FromScan read
  | .openCapture _ _ read _ => FromScan read
  | .step calls _ _ => FromScan calls.read
  | .refresh _ read => FromScan read
  | .refreshAll read => ∀ interface, FromScan (read interface)
  | .joinOn .. => True
  | .converge .. => True
  | .convergeAll .. => True
  | .wakeUnbound .. => True
  | .wakeAllUnbound .. => True

end InterfaceTable

/-! ## One entry -/

namespace InterfaceEntry

theorem converge_addrs (platform : Platform) (calls : Nat → JoinCalls)
    (entry : InterfaceEntry) (now : Nat) :
    (entry.converge platform calls now).1.interface = entry.interface := by
  unfold converge
  split <;> rfl

theorem wake_addrs (now : Nat) (waits : Unbound → Bool)
    (entry : InterfaceEntry) :
    (entry.wake now waits).interface = entry.interface := by
  unfold wake
  split
  · split <;> rfl
  · rfl

theorem refresh_scanned {entry : InterfaceEntry}
    (h : entry.interface.addrs.Scanned) {read : Except Errno Reading}
    (hread : FromScan read) :
    (entry.refresh read).1.interface.addrs.Scanned := by
  unfold refresh
  split
  · cases hcase : read with
    | error error => exact h
    | ok reading => exact hread reading hcase
  · exact h
  · exact h

end InterfaceEntry

/-! ## The table -/

namespace InterfaceTable.Scanned

variable {table : InterfaceTable} (h : table.Scanned)

include h

theorem entry {interface : InterfaceKey} {entry : InterfaceEntry}
    (hentry : table.entry interface = some entry) :
    entry.interface.addrs.Scanned :=
  h entry (List.mem_of_getElem? hentry)

theorem egressAddrs {capture : CaptureKey} {addrs : InterfaceAddresses}
    (haddrs : table.egressAddrs capture = some addrs) : addrs.Scanned := by
  obtain ⟨interface, _, hfound⟩ := Option.bind_eq_some_iff.mp haddrs
  obtain ⟨entry, hentry, rfl⟩ := Option.map_eq_some_iff.mp hfound
  exact h.entry hentry

theorem setEntry (interface : InterfaceKey) {entry : InterfaceEntry}
    (hentry : entry.interface.addrs.Scanned) :
    (table.setEntry interface entry).Scanned := by
  intro found hmem
  rcases List.mem_or_eq_of_mem_set hmem with hold | rfl
  · exact h found hold
  · exact hentry

theorem findOrAddInterface (name : InterfaceName)
    (lookup : Except Errno (Option Nat)) {read : Except Errno Reading}
    (hread : FromScan read) :
    (table.findOrAddInterface name lookup read).1.Scanned := by
  simp only [InterfaceTable.findOrAddInterface]
  split
  · exact h
  split
  · exact h
  · exact h
  split
  · exact h
  · rename_i interface hopened
    intro entry hmem
    rcases List.mem_append.mp hmem with hold | hnew
    · exact h entry hold
    · rw [List.mem_singleton.mp hnew]
      cases hcase : read with
      | error error =>
          rw [hcase] at hopened
          cases hopened
      | ok reading =>
          rw [hcase] at hopened
          cases hopened
          exact hread reading hcase

theorem openCapture (name : InterfaceName)
    (lookup : Except Errno (Option Nat)) {read : Except Errno Reading}
    (hread : FromScan read) (attach : Except Errno LinkType) :
    (table.openCapture name lookup read attach).1.Scanned := by
  have hfound := h.findOrAddInterface name lookup hread
  simp only [InterfaceTable.openCapture]
  split
  · rename_i found error heq
    rw [heq] at hfound
    exact hfound
  · rename_i found interface heq
    rw [heq] at hfound
    split
    · exact hfound
    split
    · exact hfound
    · exact hfound

theorem joinOn (platform : Platform) (calls : JoinCalls)
    (interface : InterfaceKey) (group : IpAddr) (wanted : Wanted)
    (now : Nat) :
    (table.joinOn platform calls interface group wanted now).1.Scanned := by
  simp only [InterfaceTable.joinOn]
  split
  · exact h
  rename_i entry hentry
  have hscanned := h.entry hentry
  split
  · exact h
  split
  · exact h.setEntry interface hscanned
  · exact h.setEntry interface hscanned
  · exact h.setEntry interface hscanned

theorem converge (platform : Platform) (calls : ConvergeCalls)
    (interface : InterfaceKey) (now : Nat) :
    (table.converge platform calls interface now).1.Scanned := by
  simp only [InterfaceTable.converge]
  split
  · exact h
  split
  · exact h
  · rename_i entry hentry
    refine h.setEntry interface ?_
    rw [InterfaceEntry.converge_addrs]
    exact h.entry hentry

omit h in
theorem convergeEach (h : table.Scanned) (platform : Platform)
    (calls : InterfaceKey → ConvergeCalls) (now : Nat)
    (interfaces : List InterfaceKey) :
    (InterfaceTable.convergeEach platform calls now interfaces
      table).1.Scanned := by
  induction interfaces generalizing table with
  | nil => exact h
  | cons interface rest ih =>
      exact ih (h.converge platform (calls interface) interface now)

theorem refresh (interface : InterfaceKey) {read : Except Errno Reading}
    (hread : FromScan read) : (table.refresh interface read).1.Scanned := by
  simp only [InterfaceTable.refresh]
  split
  · exact h
  · rename_i entry hentry
    exact h.setEntry interface
      (InterfaceEntry.refresh_scanned (h.entry hentry) hread)

theorem refreshAll {read : InterfaceKey → Except Errno Reading}
    (hread : ∀ interface, FromScan (read interface)) :
    (table.refreshAll read).1.Scanned := by
  intro entry hmem
  obtain ⟨⟨was, index⟩, hwas, rfl⟩ := List.mem_map.mp hmem
  exact InterfaceEntry.refresh_scanned
    (h was (List.fst_mem_of_mem_zipIdx hwas)) (hread ⟨index⟩)

theorem wakeAll (now : Nat) (waits : Unbound → Bool) :
    InterfaceTable.Scanned { table with
      entries := table.entries.map (InterfaceEntry.wake now waits) } := by
  intro entry hmem
  obtain ⟨was, hwas, rfl⟩ := List.mem_map.mp hmem
  rw [InterfaceEntry.wake_addrs]
  exact h was hwas

theorem settleBind (platform : Platform) (calls : ConvergeCalls)
    (interface : InterfaceKey) (entry : InterfaceEntry)
    (hentry : entry.interface.addrs.Scanned) (ifindex : Nat) (was : Presence)
    (bound : Except Errno Unit) (now : Nat) :
    (table.settleBind platform calls interface entry ifindex was bound
      now).1.Scanned := by
  cases bound with
  | error error =>
      exact h.setEntry interface InterfaceAddresses.scanned_default
  | ok done =>
      have hset : (table.setEntry interface
          { entry with presence := .present ifindex }).Scanned :=
        h.setEntry interface hentry
      exact hset.converge platform calls interface now

theorem bind (platform : Platform) {calls : StepCalls}
    (hread : FromScan calls.read) (interface : InterfaceKey)
    {entry : InterfaceEntry} (hentry : entry.interface.addrs.Scanned)
    (ifindex : Nat) (now : Nat) :
    (table.bind platform calls interface entry ifindex now).1.Scanned := by
  simp only [InterfaceTable.bind]
  split
  · refine h.settleBind platform _ _ _ ?_ _ _ _ _
    exact hentry
  · rename_i reading hcase
    have hrebound :
        (table.rebindCaptures calls.rebind interface).1.Scanned := h
    split
    · rename_i heq
      rw [heq] at hrebound
      refine hrebound.settleBind platform _ _ _ ?_ _ _ _ _
      exact hentry
    · rename_i heq
      rw [heq] at hrebound
      refine hrebound.settleBind platform _ _ _ ?_ _ _ _ _
      exact hread reading hcase

theorem step (platform : Platform) {calls : StepCalls}
    (hread : FromScan calls.read) (interface : InterfaceKey) (now : Nat) :
    (table.step platform calls interface now).1.Scanned := by
  simp only [InterfaceTable.step]
  split
  · exact h
  rename_i entry hentry
  have hscanned := h.entry hentry
  split
  · exact h
  · split
    · exact h
    · exact h.setEntry interface InterfaceAddresses.scanned_default
    · exact h.setEntry interface hscanned
  · split
    · split
      · exact h
      · exact h.bind platform hread _ hscanned _ _
    · split
      · exact h
      · exact h.bind platform hread _ hscanned _ _
    · exact h.bind platform hread _ hscanned _ _

theorem apply (platform : Platform) {op : Op} (hop : op.Scanned) :
    (table.apply platform op).Scanned := by
  cases op with
  | findOrAddInterface name lookup read =>
      exact h.findOrAddInterface name lookup hop
  | openCapture name lookup read attach =>
      exact h.openCapture name lookup hop attach
  | joinOn calls interface group wanted now =>
      exact h.joinOn platform calls interface group wanted now
  | step calls interface now => exact h.step platform hop interface now
  | refresh interface read => exact h.refresh interface hop
  | refreshAll read => exact h.refreshAll hop
  | converge calls interface now =>
      exact h.converge platform calls interface now
  | convergeAll calls now =>
      exact h.convergeEach platform calls now table.interfaces
  | wakeUnbound ifindex now => exact h.wakeAll now _
  | wakeAllUnbound now => exact h.wakeAll now _

end InterfaceTable.Scanned

end Netflector.Dispatch
