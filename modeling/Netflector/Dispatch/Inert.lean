import Netflector.Dispatch.Egress
import Netflector.Dispatch.Routing

/-!
# An interface that is not bound is inert

Presence, addresses, memberships and captures are updated apart from each
other.  Every operation of the table keeps the interfaces that are not bound
without addresses, sockets and attempts; so nothing is routed from their
captures and nothing is sent on them.
-/

namespace Netflector.Dispatch

open Netflector.Foundation
open Netflector.Net

/-! ## Memberships -/

/-- No socket is held and no group was attempted. -/
structure Memberships.Idle (memberships : Memberships) : Prop where
  socketless : memberships.sockets = .none
  pending : ∀ membership ∈ memberships.groups, membership.state = .pending

theorem Memberships.rebase_idle (memberships : Memberships) :
    memberships.rebase.Idle := by
  constructor
  · rfl
  · intro membership hmem
    obtain ⟨was, _, rfl⟩ := List.mem_map.mp hmem
    rfl

theorem Memberships.Idle.add {memberships : Memberships}
    (h : memberships.Idle) (group : IpAddr) : (memberships.add group).1.Idle := by
  simp only [Memberships.add]
  split
  · exact h
  · constructor
    · exact h.socketless
    · intro membership hmem
      rcases List.mem_append.mp hmem with hold | hnew
      · exact h.pending membership hold
      · rw [List.mem_singleton.mp hnew]

theorem Memberships.Idle.nextRetry {memberships : Memberships}
    (h : memberships.Idle) : memberships.nextRetry = none := by
  have hnone : memberships.groups.filterMap Membership.retryAt = [] := by
    rw [List.filterMap_eq_nil_iff]
    intro membership hmem
    simp [Membership.retryAt, h.pending membership hmem]
  rw [Memberships.nextRetry, hnone]
  rfl

/-! ## Entries -/

structure InterfaceEntry.Inert (entry : InterfaceEntry) : Prop where
  addrs : entry.interface.addrs = .default
  mtu : entry.interface.mtu = none
  idle : ∀ memberships, entry.memberships = some memberships →
    memberships.Idle

def InterfaceEntry.Settled (entry : InterfaceEntry) : Prop :=
  entry.ifindex = none → entry.Inert

theorem InterfaceEntry.settled_present {entry : InterfaceEntry}
    (ifindex : Nat) (h : entry.presence = .present ifindex) : entry.Settled := by
  intro hnone
  simp [InterfaceEntry.ifindex, h] at hnone

theorem InterfaceEntry.release_inert (entry : InterfaceEntry)
    (presence : Presence) : (entry.release presence).Inert := by
  constructor
  · rfl
  · rfl
  · intro memberships h
    obtain ⟨was, _, rfl⟩ := Option.map_eq_some_iff.mp h
    exact was.rebase_idle

theorem InterfaceEntry.Inert.nextJoinRetry {entry : InterfaceEntry}
    (h : entry.Inert) : entry.nextJoinRetry = none := by
  cases hmemberships : entry.memberships with
  | none => simp [InterfaceEntry.nextJoinRetry, hmemberships]
  | some memberships =>
      simp [InterfaceEntry.nextJoinRetry, hmemberships,
        (h.idle memberships hmemberships).nextRetry]

theorem InterfaceEntry.Settled.converge {entry : InterfaceEntry}
    (h : entry.Settled) (platform : Platform) (calls : Nat → JoinCalls)
    (now : Nat) : (entry.converge platform calls now).1.Settled := by
  cases hpresence : entry.presence with
  | present ifindex =>
      apply InterfaceEntry.settled_present ifindex
      cases hmemberships : entry.memberships with
      | none => simp only [InterfaceEntry.converge, hpresence, hmemberships]
      | some memberships =>
          simp only [InterfaceEntry.converge, hpresence, hmemberships]
  | parked => simpa [InterfaceEntry.converge, hpresence] using h
  | unbound unbound => simpa [InterfaceEntry.converge, hpresence] using h

theorem InterfaceEntry.Settled.refresh {entry : InterfaceEntry}
    (h : entry.Settled) (read : Except Errno Reading) :
    (entry.refresh read).1.Settled := by
  cases hpresence : entry.presence with
  | present ifindex =>
      apply InterfaceEntry.settled_present ifindex
      simp only [InterfaceEntry.refresh, hpresence]
  | parked => simpa [InterfaceEntry.refresh, hpresence] using h
  | unbound unbound => simpa [InterfaceEntry.refresh, hpresence] using h

theorem InterfaceEntry.Settled.wake {entry : InterfaceEntry}
    (h : entry.Settled) (now : Nat) (waits : Unbound → Bool) :
    (entry.wake now waits).Settled := by
  cases hpresence : entry.presence with
  | present ifindex => simpa [InterfaceEntry.wake, hpresence] using h
  | parked => simpa [InterfaceEntry.wake, hpresence] using h
  | unbound unbound =>
      have hinert := h (by simp [InterfaceEntry.ifindex, hpresence])
      simp only [InterfaceEntry.wake, hpresence]
      split
      · intro _
        exact ⟨hinert.addrs, hinert.mtu, hinert.idle⟩
      · exact h

/-! ## The table -/

namespace InterfaceTable

def Settled (table : InterfaceTable) : Prop :=
  ∀ entry ∈ table.entries, entry.Settled

theorem Settled.entry {table : InterfaceTable} (h : table.Settled)
    {interface : InterfaceKey} {entry : InterfaceEntry}
    (hentry : table.entry interface = some entry) : entry.Settled :=
  h entry (List.mem_of_getElem? hentry)

theorem Settled.setEntry {table : InterfaceTable} (h : table.Settled)
    (interface : InterfaceKey) {entry : InterfaceEntry}
    (hentry : entry.Settled) : (table.setEntry interface entry).Settled := by
  intro found hmem
  rcases List.mem_or_eq_of_mem_set hmem with hold | rfl
  · exact h found hold
  · exact hentry

theorem Settled.findOrAddInterface {table : InterfaceTable}
    (h : table.Settled) (name : InterfaceName)
    (lookup : Except Errno (Option Nat)) (read : Except Errno Reading) :
    (table.findOrAddInterface name lookup read).1.Settled := by
  simp only [InterfaceTable.findOrAddInterface]
  split
  · exact h
  split
  · exact h
  · exact h
  split
  · exact h
  · intro entry hmem
    rcases List.mem_append.mp hmem with hold | hnew
    · exact h entry hold
    · rw [List.mem_singleton.mp hnew]
      exact InterfaceEntry.settled_present _ rfl

theorem Settled.openCapture {table : InterfaceTable} (h : table.Settled)
    (name : InterfaceName) (lookup : Except Errno (Option Nat))
    (read : Except Errno Reading) (attach : Except Errno LinkType) :
    (table.openCapture name lookup read attach).1.Settled := by
  have hfound := h.findOrAddInterface name lookup read
  simp only [InterfaceTable.openCapture]
  split
  · rename_i found error heq
    rw [heq] at hfound
    exact hfound
  · rename_i found interface heq
    rw [heq] at hfound
    split
    · exact hfound
    split
    · exact hfound
    · exact hfound

theorem Settled.joinOn {table : InterfaceTable} (h : table.Settled)
    (platform : Platform) (calls : JoinCalls) (interface : InterfaceKey)
    (group : IpAddr) (wanted : Wanted) (now : Nat) :
    (table.joinOn platform calls interface group wanted now).1.Settled := by
  have hadd : ∀ {entry memberships}, table.entry interface = some entry →
      entry.memberships = some memberships → entry.ifindex = none →
      InterfaceEntry.Settled
        { entry with memberships := some (memberships.add group).1 } := by
    intro entry memberships hentry hmemberships hnone _
    have hinert := h.entry hentry hnone
    refine ⟨hinert.addrs, hinert.mtu, ?_⟩
    intro added hadded
    cases hadded
    exact (hinert.idle memberships hmemberships).add group
  simp only [InterfaceTable.joinOn]
  split
  · exact h
  rename_i entry hentry
  split
  · exact h
  rename_i memberships hmemberships
  split
  · rename_i ifindex hpresence
    exact h.setEntry interface (InterfaceEntry.settled_present ifindex hpresence)
  · rename_i hpresence
    exact h.setEntry interface (hadd hentry hmemberships
      (by simp [InterfaceEntry.ifindex, hpresence]))
  · rename_i unbound hpresence
    exact h.setEntry interface (hadd hentry hmemberships
      (by simp [InterfaceEntry.ifindex, hpresence]))

theorem Settled.converge {table : InterfaceTable} (h : table.Settled)
    (platform : Platform) (calls : ConvergeCalls) (interface : InterfaceKey)
    (now : Nat) : (table.converge platform calls interface now).1.Settled := by
  simp only [InterfaceTable.converge]
  split
  · exact h
  split
  · exact h
  · rename_i entry hentry
    exact h.setEntry interface
      ((h.entry hentry).converge platform calls.join now)

theorem Settled.convergeEach {table : InterfaceTable} (h : table.Settled)
    (platform : Platform) (calls : InterfaceKey → ConvergeCalls) (now : Nat)
    (interfaces : List InterfaceKey) :
    (InterfaceTable.convergeEach platform calls now interfaces
      table).1.Settled := by
  induction interfaces generalizing table with
  | nil => exact h
  | cons interface rest ih =>
      exact ih (h.converge platform (calls interface) interface now)

theorem Settled.refresh {table : InterfaceTable} (h : table.Settled)
    (interface : InterfaceKey) (read : Except Errno Reading) :
    (table.refresh interface read).1.Settled := by
  simp only [InterfaceTable.refresh]
  split
  · exact h
  · rename_i entry hentry
    exact h.setEntry interface ((h.entry hentry).refresh read)

theorem Settled.refreshAll {table : InterfaceTable} (h : table.Settled)
    (read : InterfaceKey → Except Errno Reading) :
    (table.refreshAll read).1.Settled := by
  intro entry hmem
  obtain ⟨⟨was, index⟩, hwas, rfl⟩ := List.mem_map.mp hmem
  have hentry := h was (List.fst_mem_of_mem_zipIdx hwas)
  exact hentry.refresh (read ⟨index⟩)

theorem Settled.wakeAll {table : InterfaceTable} (h : table.Settled)
    (now : Nat) (waits : Unbound → Bool) :
    InterfaceTable.Settled { table with
      entries := table.entries.map (InterfaceEntry.wake now waits) } := by
  intro entry hmem
  obtain ⟨was, hwas, rfl⟩ := List.mem_map.mp hmem
  exact (h was hwas).wake now waits

/-! ## Steps -/

theorem Settled.rebindCaptures {table : InterfaceTable} (h : table.Settled)
    (rebind : CaptureKey → Except Errno LinkType) (interface : InterfaceKey) :
    (table.rebindCaptures rebind interface).1.Settled :=
  h

theorem Settled.settleBind {table : InterfaceTable} (h : table.Settled)
    (platform : Platform) (calls : ConvergeCalls) (interface : InterfaceKey)
    (entry : InterfaceEntry) (ifindex : Nat) (was : Presence)
    (bound : Except Errno Unit) (now : Nat) :
    (table.settleBind platform calls interface entry ifindex was bound
      now).1.Settled := by
  cases bound with
  | error error =>
      exact h.setEntry interface fun _ => entry.release_inert _
  | ok done =>
      have hpresent : InterfaceEntry.Settled
          { entry with presence := .present ifindex } :=
        InterfaceEntry.settled_present ifindex rfl
      exact (h.setEntry interface hpresent).converge platform calls interface
        now

theorem Settled.bind {table : InterfaceTable} (h : table.Settled)
    (platform : Platform) (calls : StepCalls) (interface : InterfaceKey)
    (entry : InterfaceEntry) (ifindex : Nat) (now : Nat) :
    (table.bind platform calls interface entry ifindex now).1.Settled := by
  simp only [InterfaceTable.bind]
  split
  · exact h.settleBind _ _ _ _ _ _ _ _
  have hrebound := h.rebindCaptures calls.rebind interface
  split
  · rename_i heq
    rw [heq] at hrebound
    exact hrebound.settleBind _ _ _ _ _ _ _ _
  · rename_i heq
    rw [heq] at hrebound
    exact hrebound.settleBind _ _ _ _ _ _ _ _

theorem Settled.step {table : InterfaceTable} (h : table.Settled)
    (platform : Platform) (calls : StepCalls) (interface : InterfaceKey)
    (now : Nat) : (table.step platform calls interface now).1.Settled := by
  simp only [InterfaceTable.step]
  split
  · exact h
  rename_i entry hentry
  split
  · exact h
  · split
    · exact h
    · exact h.setEntry interface fun _ => entry.release_inert _
    · -- The release was made when the interface lost its binding.
      rename_i unbound hpresence
      have hinert := h.entry hentry (by simp [InterfaceEntry.ifindex, hpresence])
      exact h.setEntry interface
        fun _ => ⟨hinert.addrs, hinert.mtu, hinert.idle⟩
  · split
    · split
      · exact h
      · exact h.bind _ _ _ _ _ _
    · split
      · exact h
      · exact h.bind _ _ _ _ _ _
    · exact h.bind _ _ _ _ _ _

/-! ## Runs -/

theorem Settled.apply {table : InterfaceTable} (h : table.Settled)
    (platform : Platform) (op : Op) : (table.apply platform op).Settled := by
  cases op with
  | findOrAddInterface name lookup read =>
      exact h.findOrAddInterface name lookup read
  | openCapture name lookup read attach =>
      exact h.openCapture name lookup read attach
  | joinOn calls interface group wanted now =>
      exact h.joinOn platform calls interface group wanted now
  | step calls interface now => exact h.step platform calls interface now
  | refresh interface read => exact h.refresh interface read
  | refreshAll read => exact h.refreshAll read
  | converge calls interface now =>
      exact h.converge platform calls interface now
  | convergeAll calls now =>
      exact h.convergeEach platform calls now table.interfaces
  | wakeUnbound ifindex now => exact h.wakeAll now _
  | wakeAllUnbound now => exact h.wakeAll now _

theorem Settled.run {table : InterfaceTable} (h : table.Settled)
    (platform : Platform) (ops : List Op) :
    (table.run platform ops).Settled := by
  induction ops generalizing table with
  | nil => exact h
  | cons op ops ih => exact ih (h.apply platform op)

end InterfaceTable

/-! ## Sends and drains -/

def Fate.frames : Fate → List Bytes
  | .transmitted frames _ => frames
  | _ => []

def Unsent (sendings : List Sending) : Prop :=
  ∀ sending ∈ sendings, sending.fate.frames = []

theorem plan_unbound {table : InterfaceTable} {key : CaptureKey}
    (h : table.ifindexOf key = none) (egress : Egress) (dstMac : MacAddr)
    (datagram : Datagram) :
    (egress.plan table key dstMac datagram).2 ≠ .ok (some frames) := by
  simp only [Egress.plan, h]
  split
  · simp
  · simp

section Sends

variable {table : InterfaceTable} {key : CaptureKey}
    (h : table.ifindexOf key = none)
    (digest : MacAddr → Datagram → UInt64)

include h

theorem sendUdp_unbound (inject : Nat → Except Errno Unit) (egress : Egress)
    (dstMac : MacAddr) (datagram : Datagram) :
    Unsent (egress.sendUdp digest inject table key dstMac
      datagram).sendings := by
  intro sending hmem
  simp only [Egress.sendUdp] at hmem
  split at hmem
  · rw [List.mem_singleton.mp hmem]
    rfl
  split at hmem
  · rw [List.mem_singleton.mp hmem]
    rfl
  · rw [List.mem_singleton.mp hmem]
    rfl
  · rename_i frames heq
    exact absurd (by rw [heq]) (plan_unbound h egress dstMac datagram)

theorem sendUdpGroup_unbound (inject : Nat → Except Errno Unit)
    (egress : Egress) (datagram : Datagram) :
    Unsent (egress.sendUdpGroup digest inject table key
      datagram).sendings := by
  simp only [Egress.sendUdpGroup]
  split
  · intro sending hmem
    cases hmem
  · exact sendUdp_unbound h digest inject egress _ datagram

theorem sendToEach_unbound (inject : Nat → Nat → Except Errno Unit)
    (datagram : Datagram) (position : Nat) (peers : List IpAddr)
    (delivered : Bool) (failure : Option (Stop SendError))
    (egress : Egress) :
    Unsent (Egress.sendToEach digest inject key datagram position peers
      delivered failure egress table).sendings := by
  induction peers generalizing position delivered failure egress with
  | nil =>
      intro sending hmem
      cases hmem
  | cons peer peers ih =>
      intro sending hmem
      simp only [Egress.sendToEach] at hmem
      split at hmem
      · rcases List.mem_cons.mp hmem with rfl | hrest
        · rfl
        · exact ih _ _ _ _ sending hrest
      split at hmem
      · rw [List.mem_singleton.mp hmem]
        rfl
      · rw [List.mem_singleton.mp hmem]
        rfl
      · rename_i frames heq
        exact absurd (by rw [heq]) (plan_unbound h egress .broadcast _)

end Sends

theorem drainLoop_unbound {State : Type} (route : Packet → State → State)
    (reassemble : Fragment → State → State) (link : LinkType)
    (polls : List Poll) (drained : Drained) (state : State) :
    (drainLoop route reassemble false link polls drained state).1 = state := by
  induction polls generalizing drained with
  | nil => rfl
  | cons poll polls ih =>
      rw [drainLoop]
      split
      · rfl
      split
      · rfl
      · rfl
      · exact ih _
      · exact ih _

theorem interfaceOf_take (table : InterfaceTable) (key other : CaptureKey) :
    (table.take key).1.interfaceOf other = table.interfaceOf other := by
  simp only [InterfaceTable.interfaceOf, InterfaceTable.captureEntry,
    InterfaceTable.take, List.getElem?_modify]
  cases table.captures[other.index.toNat]? with
  | none => rfl
  | some entry =>
      by_cases hsame : key.index.toNat = other.index.toNat
      · simp [hsame]
      · simp [hsame]

theorem ifindexOf_take (table : InterfaceTable) (key other : CaptureKey) :
    (table.take key).1.ifindexOf other = table.ifindexOf other := by
  rw [InterfaceTable.ifindexOf, interfaceOf_take]
  rfl

/-- The frames that a capture of an interface not bound still reads reach no
handler, whatever the handlers would do. -/
theorem drainAndRoute_unbound {table : InterfaceTable} {ingress : CaptureKey}
    (h : table.ifindexOf ingress = none) {Rest : Type}
    (route : Packet → InterfaceTable × Rest → InterfaceTable × Rest)
    (reassemble : Fragment → InterfaceTable × Rest → InterfaceTable × Rest)
    (polls : List Poll) (rest : Rest) :
    (drainAndRoute Prod.fst (fun state table => (table, state.2)) route
      reassemble ingress polls (table, rest)).1.2 = rest := by
  have hbound : ((table.take ingress).1.ifindexOf ingress).isSome = false := by
    rw [ifindexOf_take, h]
    rfl
  simp only [drainAndRoute]
  split
  · rfl
  · rename_i taken capture heq
    rw [heq] at hbound
    rw [hbound, drainLoop_unbound]

/-! ## Every reachable table -/

/-- In every table that the operations reach, an interface that is not bound
has no address, no MTU, no socket and no attempted group, so no retry is due on
it; no frame read on its captures is routed, and no frame is handed to them. -/
theorem unbound_inert (platform : Platform) (joinGroups : Bool)
    (ops : List InterfaceTable.Op) (table : InterfaceTable)
    (hrun : InterfaceTable.run platform ⟨[], [], joinGroups⟩ ops = table) :
    (∀ interface entry, table.entry interface = some entry →
      entry.ifindex = none →
        entry.interface.addrs = .default ∧ entry.interface.mtu = none ∧
        (∀ memberships, entry.memberships = some memberships →
          memberships.sockets = .none ∧
          ∀ membership ∈ memberships.groups, membership.state = .pending) ∧
        entry.nextJoinRetry = none) ∧
    ∀ capture, table.ifindexOf capture = none →
      (∀ (Rest : Type)
          (route : Packet → InterfaceTable × Rest → InterfaceTable × Rest)
          (reassemble : Fragment → InterfaceTable × Rest →
            InterfaceTable × Rest)
          (polls : List Poll) (rest : Rest),
        (drainAndRoute Prod.fst (fun state table => (table, state.2)) route
          reassemble capture polls (table, rest)).1.2 = rest) ∧
      ∀ (digest : MacAddr → Datagram → UInt64) (egress : Egress)
        (datagram : Datagram),
        (∀ inject dstMac, Unsent (egress.sendUdp digest inject table capture
          dstMac datagram).sendings) ∧
        (∀ inject, Unsent (egress.sendUdpGroup digest inject table capture
          datagram).sendings) ∧
        ∀ inject peers, Unsent (egress.sendUdpToPeers digest inject table
          capture peers datagram).sendings := by
  have hsettled : table.Settled := by
    rw [← hrun]
    apply InterfaceTable.Settled.run
    intro entry hmem
    cases hmem
  constructor
  · intro interface entry hentry hnone
    have hinert := hsettled.entry hentry hnone
    refine ⟨hinert.addrs, hinert.mtu, ?_, hinert.nextJoinRetry⟩
    intro memberships hmemberships
    have hidle := hinert.idle memberships hmemberships
    exact ⟨hidle.socketless, hidle.pending⟩
  · intro capture hnone
    constructor
    · intro Rest route reassemble polls rest
      exact drainAndRoute_unbound hnone route reassemble polls rest
    · intro digest egress datagram
      refine ⟨?_, ?_, ?_⟩
      · intro inject dstMac
        exact sendUdp_unbound hnone digest inject egress dstMac datagram
      · intro inject
        exact sendUdpGroup_unbound hnone digest inject egress datagram
      · intro inject peers
        exact sendToEach_unbound hnone digest inject datagram 0 _ false none
          egress

def parkingOps : List InterfaceTable.Op :=
  [.openCapture [0x61] (.ok (some 2))
      (.ok ⟨{ InterfaceAddresses.default with
        v4 := some ⟨[10, 0, 7, 2], rfl⟩ }, some 1500⟩) (.ok .ethernet),
    .step
      { lookup := .ok none
        attached := fun _ => true
        read := .error .noDev
        rebind := fun _ => .error .noDev
        converge := ⟨fun _ => true, fun _ => ⟨.ok (), .ok (), .ok none⟩⟩ }
      ⟨0⟩ 5]

theorem unbound_inert_parked :
    ∃ entry, (InterfaceTable.run .linux ⟨[], [], true⟩ parkingOps).entry ⟨0⟩ =
        some entry ∧
      entry.ifindex = none ∧ entry.interface.addrs = .default ∧
      (InterfaceTable.run .linux ⟨[], [], true⟩ parkingOps).ifindexOf ⟨0⟩ =
        none ∧
      Unsent ((Egress.new 0).sendUdp (fun _ _ => 0) (fun _ => .ok ())
        (InterfaceTable.run .linux ⟨[], [], true⟩ parkingOps) ⟨0⟩ .broadcast
        ⟨⟨.v4 ⟨[10, 0, 0, 3], rfl⟩, 9⟩, .egress 9, 1, []⟩).sendings := by
  obtain ⟨hentries, hcaptures⟩ := unbound_inert .linux true parkingOps _ rfl
  have hentry := hentries ⟨0⟩ _ rfl rfl
  have hsends := (hcaptures ⟨0⟩ rfl).2 (fun _ _ => 0) (Egress.new 0)
    ⟨⟨.v4 ⟨[10, 0, 0, 3], rfl⟩, 9⟩, .egress 9, 1, []⟩
  exact ⟨_, rfl, rfl, hentry.1, rfl, hsends.1 (fun _ => .ok ()) .broadcast⟩

end Netflector.Dispatch
