import Netflector.Dispatch.Memberships
import Netflector.Dispatch.Reassembly
import Netflector.Interface

/-!
# The interface table

Every interface with its presence and memberships, and every capture linked to
its interface, all addressed by index.  What the system calls of an operation
answer is an argument of it.  The counters and the kind of link that only a
capture's attachment reads are left out.
-/

namespace Netflector.Dispatch

open Netflector.Foundation
open Netflector.Net

def InterfaceName : Type := Bytes

instance : DecidableEq InterfaceName := inferInstanceAs (DecidableEq Bytes)

/-- An index into the table's interface entries; they are only added. -/
structure InterfaceKey where
  index : Nat
  deriving DecidableEq, Repr

structure Unbound where
  ifindex : Nat
  attempts : Nat
  nextTry : Nat
  deriving DecidableEq, Repr

inductive Presence where
  | present (ifindex : Nat)
  | parked
  | unbound (unbound : Unbound)
  deriving DecidableEq, Repr

inductive Step where
  | kept
  | lookupFailed (error : Errno)
  | parked (was : Option Nat)
  | bound (was : Presence) (ifindex : Nat) (gone : Bool)
  | bindFailed (was : Presence) (ifindex : Nat) (error : Errno)
      (retryIn : Nat) (first : Bool)
  deriving DecidableEq, Repr

/-! ## Interfaces -/

structure Reading where
  addrs : InterfaceAddresses
  mtu : Option Nat
  deriving DecidableEq

structure AddressChange where
  mac : Bool
  v4 : Bool
  v6 : Bool
  deriving DecidableEq, Repr

def AddressChange.default : AddressChange := ⟨false, false, false⟩

structure Interface where
  name : InterfaceName
  addrs : InterfaceAddresses
  mtu : Option Nat
  deriving DecidableEq

namespace Interface

def replaceAddrs (interface : Interface) (addrs : InterfaceAddresses)
    (mtu : Option Nat) : Interface × AddressChange :=
  ({ interface with addrs := addrs, mtu := mtu },
    { mac := interface.addrs.mac ≠ addrs.mac
      v4 := interface.addrs.v4 ≠ addrs.v4
      v6 := interface.addrs.v6Any ≠ addrs.v6Any ∨
        interface.addrs.v6Routable ≠ addrs.v6Routable })

def adopt (interface : Interface) (reading : Reading) :
    Interface × AddressChange :=
  interface.replaceAddrs reading.addrs reading.mtu

def forget (interface : Interface) : Interface :=
  (interface.replaceAddrs .default none).1

def refresh (interface : Interface) (read : Except Errno Reading) :
    Interface × Except Errno AddressChange :=
  match read with
  | .error error => (interface, .error error)
  | .ok reading =>
      let (interface, change) := interface.adopt reading
      (interface, .ok change)

def «open» (name : InterfaceName) (read : Except Errno Reading) :
    Except Errno Interface :=
  match (Interface.mk name .default none).refresh read with
  | (_, .error error) => .error error
  | (interface, .ok _) => .ok interface

end Interface

/-! ## The table -/

structure Capture where
  linkType : LinkType
  deriving DecidableEq, Repr

/-- `capture` is absent while it is taken out for its drain.  `sent` are the
digests of the datagrams sent for the packet numbered `sentPacket`. -/
structure CaptureEntry where
  capture : Option Capture
  interface : InterfaceKey
  sentPacket : Nat
  sent : List UInt64
  deriving DecidableEq

/-- No memberships: the daemon runs without group joins. -/
structure InterfaceEntry where
  interface : Interface
  presence : Presence
  memberships : Option Memberships
  deriving DecidableEq

namespace InterfaceEntry

def ifindex (entry : InterfaceEntry) : Option Nat :=
  match entry.presence with
  | .present ifindex => some ifindex
  | .parked | .unbound _ => none

/-- Only a present interface joins. -/
def converge (platform : Platform) (calls : Nat → JoinCalls)
    (entry : InterfaceEntry) (now : Nat) : InterfaceEntry × Bool :=
  match entry.presence, entry.memberships with
  | .present ifindex, some memberships =>
      let (memberships, gone) :=
        memberships.converge platform calls ifindex now
      ({ entry with memberships := some memberships }, gone)
  | _, _ => (entry, false)

/-- Unbind: the memberships go with their sockets, and the addresses are
forgotten. -/
def release (entry : InterfaceEntry) (presence : Presence) : InterfaceEntry where
  interface := entry.interface.forget
  presence := presence
  memberships := entry.memberships.map Memberships.rebase

def nextJoinRetry (entry : InterfaceEntry) : Option Nat :=
  entry.memberships.bind Memberships.nextRetry

def wake (now : Nat) (waits : Unbound → Bool)
    (entry : InterfaceEntry) : InterfaceEntry :=
  match entry.presence with
  | .unbound unbound =>
      if waits unbound then
        { entry with presence := .unbound { unbound with nextTry := now } }
      else entry
  | _ => entry

def waitsOn (ifindex : Nat) (entry : InterfaceEntry) : Bool :=
  match entry.presence with
  | .unbound unbound => unbound.ifindex = ifindex
  | _ => false

def refresh (entry : InterfaceEntry)
    (read : Except Errno Reading) :
    InterfaceEntry × Except Errno AddressChange :=
  match entry.presence with
  | .present _ =>
      let (interface, result) := entry.interface.refresh read
      ({ entry with interface := interface }, result)
  | .parked | .unbound _ => (entry, .ok .default)

def nextTry (entry : InterfaceEntry) : Option Nat :=
  match entry.presence with
  | .unbound unbound => some unbound.nextTry
  | _ => none

end InterfaceEntry

def CaptureEntry.recordSent (entry : CaptureEntry) (packet : Nat)
    (digest : UInt64) : CaptureEntry :=
  if entry.sentPacket ≠ packet then
    { entry with sentPacket := packet, sent := [digest] }
  else { entry with sent := entry.sent ++ [digest] }

structure InterfaceTable where
  entries : List InterfaceEntry
  captures : List CaptureEntry
  joinGroups : Bool
  deriving DecidableEq

/-- What the calls of one converge answer: whether a capture is attached, and
the attempts on the groups by their position. -/
structure ConvergeCalls where
  attached : CaptureKey → Bool
  join : Nat → JoinCalls

/-- What the calls of one step answer: looking the name up, whether a capture
is attached, reading the interface, re-binding a capture, and the groups'
attempts behind a bind. -/
structure StepCalls where
  lookup : Except Errno (Option Nat)
  attached : CaptureKey → Bool
  read : Except Errno Reading
  rebind : CaptureKey → Except Errno LinkType
  converge : ConvergeCalls

namespace InterfaceTable

def new : InterfaceTable := ⟨[], [], true⟩

def withoutGroupJoins : InterfaceTable := { new with joinGroups := false }

def entry (table : InterfaceTable) (interface : InterfaceKey) :
    Option InterfaceEntry :=
  table.entries[interface.index]?

def setEntry (table : InterfaceTable) (interface : InterfaceKey)
    (entry : InterfaceEntry) : InterfaceTable :=
  { table with entries := table.entries.set interface.index entry }

def captureEntry (table : InterfaceTable) (capture : CaptureKey) :
    Option CaptureEntry :=
  table.captures[capture.index.toNat]?

def interfaceOf (table : InterfaceTable) (capture : CaptureKey) :
    Option InterfaceKey :=
  (table.captureEntry capture).map (·.interface)

/-- None for an unknown key, or while the interface is not bound. -/
def interfaceIndex (table : InterfaceTable) (interface : InterfaceKey) :
    Option Nat :=
  (table.entry interface).bind (·.ifindex)

def ifindexOf (table : InterfaceTable) (capture : CaptureKey) : Option Nat :=
  (table.interfaceOf capture).bind table.interfaceIndex

def egressAddrs (table : InterfaceTable) (capture : CaptureKey) :
    Option InterfaceAddresses :=
  (table.interfaceOf capture).bind fun interface =>
    (table.entry interface).map (·.interface.addrs)

def mtuOf (table : InterfaceTable) (capture : CaptureKey) : Option Nat :=
  (table.interfaceOf capture).bind fun interface =>
    (table.entry interface).bind (·.interface.mtu)

def capture (table : InterfaceTable) (key : CaptureKey) : Option Capture :=
  (table.captureEntry key).bind (·.capture)

/-! ## Sends of the packet being routed -/

def wasSent (table : InterfaceTable) (egress : CaptureKey) (packet : Nat)
    (digest : UInt64) : Bool :=
  (table.captureEntry egress).any fun entry =>
    entry.sentPacket = packet && entry.sent.contains digest

def recordSent (table : InterfaceTable) (egress : CaptureKey) (packet : Nat)
    (digest : UInt64) : InterfaceTable :=
  { table with
    captures := table.captures.modify egress.index.toNat
      (CaptureEntry.recordSent · packet digest) }

/-! ## Startup -/

inductive TableError where
  | notFound
  | os (errno : Errno)
  deriving DecidableEq, Repr

/-- `lookup` resolves the name and `read` the interface found; neither runs
for a name the table has. -/
def findOrAddInterface (table : InterfaceTable) (name : InterfaceName)
    (lookup : Except Errno (Option Nat)) (read : Except Errno Reading) :
    InterfaceTable × Except TableError InterfaceKey :=
  match table.entries.findIdx? (·.interface.name = name) with
  | some index => (table, .ok ⟨index⟩)
  | none =>
      match lookup with
      | .error error => (table, .error (.os error))
      | .ok none => (table, .error .notFound)
      | .ok (some ifindex) =>
          match Interface.open name read with
          | .error error => (table, .error (.os error))
          | .ok interface =>
              ({ table with entries := table.entries ++
                  [⟨interface, .present ifindex,
                    if table.joinGroups then some .new else none⟩] },
                .ok ⟨table.entries.length⟩)

def openCapture (table : InterfaceTable) (name : InterfaceName)
    (lookup : Except Errno (Option Nat)) (read : Except Errno Reading)
    (attach : Except Errno LinkType) :
    InterfaceTable × Except TableError CaptureKey :=
  match table.findOrAddInterface name lookup read with
  | (table, .error error) => (table, .error error)
  | (table, .ok interface) =>
      match table.interfaceIndex interface with
      | none => (table, .error .notFound)
      | some _ =>
          match attach with
          | .error error => (table, .error (.os error))
          | .ok linkType =>
              ({ table with captures := table.captures ++
                  [⟨some ⟨linkType⟩, interface, 0, []⟩] },
                .ok ⟨UInt32.ofNat table.captures.length⟩)

/-- Want `group` on `interface` and join it; one not bound joins it once
bound. -/
def joinOn (platform : Platform) (calls : JoinCalls) (table : InterfaceTable)
    (interface : InterfaceKey) (group : IpAddr) (wanted : Wanted)
    (now : Nat) : InterfaceTable × Except JoinError Unit :=
  match table.entry interface with
  | none => (table, .ok ())
  | some entry =>
      match entry.memberships with
      | none => (table, .ok ())
      | some memberships =>
          match entry.presence with
          | .present ifindex =>
              let (memberships, result) :=
                memberships.join platform calls group wanted ifindex now
              (table.setEntry interface
                { entry with memberships := some memberships }, result)
          | .parked | .unbound _ =>
              (table.setEntry interface
                { entry with memberships := some (memberships.add group).1 },
                .ok ())

/-! ## Joining -/

/-- Whether every capture on `interface` is still attached to its index; true
while it is not bound. -/
def probe (table : InterfaceTable) (attached : CaptureKey → Bool)
    (interface : InterfaceKey) : Bool :=
  match table.interfaceIndex interface with
  | none => true
  | some _ =>
      table.captures.zipIdx.all fun entry =>
        entry.1.interface ≠ interface || entry.1.capture.isNone ||
          attached ⟨UInt32.ofNat entry.2⟩

/-- Attempt the groups not joined on `interface`; the flag says that the index
is gone, or another interface's now. -/
def converge (platform : Platform) (calls : ConvergeCalls)
    (table : InterfaceTable) (interface : InterfaceKey) (now : Nat) :
    InterfaceTable × Bool :=
  if !table.probe calls.attached interface then (table, true)
  else
    match table.entry interface with
    | none => (table, false)
    | some entry =>
        let (entry, gone) := entry.converge platform calls.join now
        (table.setEntry interface entry, gone)

def interfaces (table : InterfaceTable) : List InterfaceKey :=
  (List.range table.entries.length).map InterfaceKey.mk

def convergeEach (platform : Platform) (calls : InterfaceKey → ConvergeCalls)
    (now : Nat) : List InterfaceKey → InterfaceTable → InterfaceTable × Bool
  | [], table => (table, false)
  | interface :: rest, table =>
      let (table, gone) :=
        table.converge platform (calls interface) interface now
      let (table, more) := convergeEach platform calls now rest table
      (table, gone || more)

def convergeAll (platform : Platform) (calls : InterfaceKey → ConvergeCalls)
    (table : InterfaceTable) (now : Nat) : InterfaceTable × Bool :=
  convergeEach platform calls now table.interfaces table

def nextJoinRetry (table : InterfaceTable) : Option Nat :=
  (table.entries.filterMap InterfaceEntry.nextJoinRetry).min?

/-! ## Changes -/

def keyByIfindex (table : InterfaceTable) (ifindex : Nat) :
    Option InterfaceKey :=
  (table.entries.findIdx? (·.ifindex = some ifindex)).map InterfaceKey.mk

/-- Make an interface that failed to bind to `ifindex` due for its retry;
whether one was waiting on it. -/
def wakeUnbound (table : InterfaceTable) (ifindex : Nat) (now : Nat) :
    InterfaceTable × Bool :=
  ({ table with
      entries := table.entries.map
        (InterfaceEntry.wake now (·.ifindex = ifindex)) },
    table.entries.any (InterfaceEntry.waitsOn ifindex))

def wakeAllUnbound (table : InterfaceTable) (now : Nat) : InterfaceTable :=
  { table with
    entries := table.entries.map (InterfaceEntry.wake now fun _ => true) }

def refresh (table : InterfaceTable) (interface : InterfaceKey)
    (read : Except Errno Reading) :
    InterfaceTable × Except Errno AddressChange :=
  match table.entry interface with
  | none => (table, .ok .default)
  | some entry =>
      let (entry, result) := entry.refresh read
      (table.setEntry interface entry, result)

/-- Re-resolve every bound interface in place; a failure is returned with its
interface. -/
def refreshAll (table : InterfaceTable)
    (read : InterfaceKey → Except Errno Reading) :
    InterfaceTable × List (InterfaceKey × Except Errno AddressChange) :=
  ({ table with entries := table.entries.zipIdx.map fun entry =>
      (entry.1.refresh (read ⟨entry.2⟩)).1 },
    table.entries.zipIdx.filterMap fun entry =>
      entry.1.ifindex.map fun _ =>
        (⟨entry.2⟩, (entry.1.refresh (read ⟨entry.2⟩)).2))

def anyParked (table : InterfaceTable) : Bool :=
  table.entries.any (·.presence = .parked)

def nextBindRetry (table : InterfaceTable) : Option Nat :=
  (table.entries.filterMap InterfaceEntry.nextTry).min?

/-! ## Steps -/

def rebindFrom (rebind : CaptureKey → Except Errno LinkType)
    (interface : InterfaceKey) :
    Nat → List CaptureEntry → List CaptureEntry × Except Errno Unit
  | _, [] => ([], .ok ())
  | index, entry :: rest =>
      if entry.interface ≠ interface ∨ entry.capture = none then
        let (rest, result) := rebindFrom rebind interface (index + 1) rest
        (entry :: rest, result)
      else
        match rebind ⟨UInt32.ofNat index⟩ with
        | .error error => (entry :: rest, .error error)
        | .ok linkType =>
            let (rest, result) := rebindFrom rebind interface (index + 1) rest
            ({ entry with capture := some ⟨linkType⟩ } :: rest, result)

def rebindCaptures (table : InterfaceTable)
    (rebind : CaptureKey → Except Errno LinkType) (interface : InterfaceKey) :
    InterfaceTable × Except Errno Unit :=
  let (captures, result) := rebindFrom rebind interface 0 table.captures
  ({ table with captures := captures }, result)

def settleBind (platform : Platform) (calls : ConvergeCalls)
    (table : InterfaceTable) (interface : InterfaceKey)
    (entry : InterfaceEntry) (ifindex : Nat) (was : Presence)
    (bound : Except Errno Unit) (now : Nat) : InterfaceTable × Step :=
  match bound with
  | .error error =>
      let attempts :=
        match was with
        | .unbound unbound =>
            if unbound.ifindex = ifindex then
              min (unbound.attempts + 1) u32Max
            else 0
        | .present _ | .parked => 0
      let retryIn := retryDelay attempts
      (table.setEntry interface (entry.release
          (.unbound ⟨ifindex, attempts, now + retryIn⟩)),
        .bindFailed was ifindex error retryIn (attempts = 0))
  | .ok () =>
      let table := table.setEntry interface
        { entry with presence := .present ifindex }
      let (table, gone) := table.converge platform calls interface now
      (table, .bound was ifindex gone)

/-- Read the interface, re-bind every capture, and only then adopt the
addresses and join the groups. -/
def bind (platform : Platform) (calls : StepCalls) (table : InterfaceTable)
    (interface : InterfaceKey) (entry : InterfaceEntry) (ifindex : Nat)
    (now : Nat) : InterfaceTable × Step :=
  let was := entry.presence
  let entry :=
    { entry with memberships := entry.memberships.map Memberships.rebase }
  match calls.read with
  | .error error =>
      table.settleBind platform calls.converge interface entry ifindex was
        (.error error) now
  | .ok reading =>
      match table.rebindCaptures calls.rebind interface with
      | (table, .error error) =>
          table.settleBind platform calls.converge interface entry ifindex was
            (.error error) now
      | (table, .ok ()) =>
          table.settleBind platform calls.converge interface
            { entry with interface := (entry.interface.adopt reading).1 }
            ifindex was (.ok ()) now

def step (platform : Platform) (calls : StepCalls) (table : InterfaceTable)
    (interface : InterfaceKey) (now : Nat) : InterfaceTable × Step :=
  match table.entry interface with
  | none => (table, .kept)
  | some entry =>
      match calls.lookup with
      | .error error => (table, .lookupFailed error)
      | .ok none =>
          match entry.presence with
          | .parked => (table, .kept)
          | .present was =>
              (table.setEntry interface (entry.release .parked),
                .parked (some was))
          | .unbound _ =>
              (table.setEntry interface { entry with presence := .parked },
                .parked none)
      | .ok (some current) =>
          match entry.presence with
          | .present bound =>
              if current = bound ∧ table.probe calls.attached interface then
                (table, .kept)
              else table.bind platform calls interface entry current now
          | .unbound unbound =>
              if current = unbound.ifindex ∧ now < unbound.nextTry then
                (table, .kept)
              else table.bind platform calls interface entry current now
          | .parked => table.bind platform calls interface entry current now

def capturesOf (table : InterfaceTable) (interface : InterfaceKey) :
    List CaptureKey :=
  table.captures.zipIdx.filterMap fun entry =>
    if entry.1.interface = interface then some ⟨UInt32.ofNat entry.2⟩
    else none

/-! ## Draining a capture -/

def take (table : InterfaceTable) (key : CaptureKey) :
    InterfaceTable × Option Capture :=
  ({ table with
      captures := table.captures.modify key.index.toNat
        ({ · with capture := none }) },
    table.capture key)

def restore (table : InterfaceTable) (key : CaptureKey) (capture : Capture) :
    InterfaceTable :=
  { table with
    captures := table.captures.modify key.index.toNat
      ({ · with capture := some capture }) }

/-! ## Operations -/

inductive Op where
  | findOrAddInterface (name : InterfaceName)
      (lookup : Except Errno (Option Nat)) (read : Except Errno Reading)
  | openCapture (name : InterfaceName) (lookup : Except Errno (Option Nat))
      (read : Except Errno Reading) (attach : Except Errno LinkType)
  | joinOn (calls : JoinCalls) (interface : InterfaceKey) (group : IpAddr)
      (wanted : Wanted) (now : Nat)
  | step (calls : StepCalls) (interface : InterfaceKey) (now : Nat)
  | refresh (interface : InterfaceKey) (read : Except Errno Reading)
  | refreshAll (read : InterfaceKey → Except Errno Reading)
  | converge (calls : ConvergeCalls) (interface : InterfaceKey) (now : Nat)
  | convergeAll (calls : InterfaceKey → ConvergeCalls) (now : Nat)
  | wakeUnbound (ifindex : Nat) (now : Nat)
  | wakeAllUnbound (now : Nat)

def apply (platform : Platform) (table : InterfaceTable) : Op → InterfaceTable
  | .findOrAddInterface name lookup read =>
      (table.findOrAddInterface name lookup read).1
  | .openCapture name lookup read attach =>
      (table.openCapture name lookup read attach).1
  | .joinOn calls interface group wanted now =>
      (table.joinOn platform calls interface group wanted now).1
  | .step calls interface now => (table.step platform calls interface now).1
  | .refresh interface read => (table.refresh interface read).1
  | .refreshAll read => (table.refreshAll read).1
  | .converge calls interface now =>
      (table.converge platform calls interface now).1
  | .convergeAll calls now => (table.convergeAll platform calls now).1
  | .wakeUnbound ifindex now => (table.wakeUnbound ifindex now).1
  | .wakeAllUnbound now => table.wakeAllUnbound now

def run (platform : Platform) (table : InterfaceTable) (ops : List Op) :
    InterfaceTable :=
  ops.foldl (apply platform) table

end InterfaceTable

end Netflector.Dispatch
