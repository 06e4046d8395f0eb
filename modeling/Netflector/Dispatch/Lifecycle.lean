import Netflector.Dispatch.InterfaceTable
import Netflector.LinearMap

/-!
# The interface lifecycle

Keeping the table current: a drain of the monitor re-reads what its events
name, a periodic re-read catches what none announces, and the reconcile parks
or binds the interfaces whose names resolve elsewhere.  Each ends by attempting
the groups an interface has not joined.
-/

namespace Netflector.Dispatch

open Netflector.Net

def reconcileTick : Nat := 30 * second

/-- The reconcile's cadence while an interface is parked or a step could not
settle. -/
def reconcileRetry : Nat := 1 * second

def recheckInterval : Nat := 30 * second

inductive InterfaceEvent where
  | address (ifindex : Nat)
  | link (ifindex : Nat)
  | overflow
  deriving DecidableEq, Repr

def indexesMonotonic : Platform → Bool
  | .linux => true
  | .macos | .freebsd => false

def lifecycleEvents : Platform → Bool
  | .linux | .freebsd => true
  | .macos => false

structure Changes where
  /-- The interface moved its IPv4 address, or could not be read again. -/
  v4Moved : List CaptureKey
  /-- The interface moved an address of either family. -/
  touched : List CaptureKey
  reconcile : Bool
  deriving DecidableEq

def Changes.default : Changes := ⟨[], [], false⟩

structure Rebuilt where
  captures : List CaptureKey
  removed : Bool
  deriving DecidableEq

structure RefreshCalls where
  read : InterfaceKey → Except Errno Reading
  converge : InterfaceKey → ConvergeCalls

structure ReconcileCalls where
  step : InterfaceKey → StepCalls
  converge : InterfaceKey → ConvergeCalls

/-- `monitor` is false in the degraded mode where none could be opened. -/
structure InterfaceLifecycle where
  monitor : Bool
  maxSeenIfindex : Option Nat
  nextReconcile : Nat
  nextRecheck : Nat
  deriving DecidableEq

def capturesFor (table : InterfaceTable) (interfaces : List InterfaceKey) :
    List CaptureKey :=
  interfaces.flatMap table.capturesOf

/-! ## Re-reading -/

/-- `unread` says what a failed read counts as. -/
def v4MovedBy (unread : Bool) : Except Errno AddressChange → Bool
  | .ok change => change.v4
  | .error _ => unread

def touchedBy (unread : Bool) : Except Errno AddressChange → Bool
  | .ok change => change.v4 || change.v6
  | .error _ => unread

def keysWhere (test : Except Errno AddressChange → Bool)
    (results : List (InterfaceKey × Except Errno AddressChange)) :
    List InterfaceKey :=
  (results.filter fun result => test result.2).map Prod.fst

/-! ## Draining the monitor -/

/-- The indexes the events name, each with whether a link event did, and
whether the monitor overflowed. -/
def collect : List InterfaceEvent → LinearMap Nat Bool → Bool →
    LinearMap Nat Bool × Bool
  | [], changed, overflow => (changed, overflow)
  | .overflow :: events, changed, _ => collect events changed true
  | .address ifindex :: events, changed, overflow =>
      collect events
        (changed.insert ifindex ((changed.get ifindex).getD false)) overflow
  | .link ifindex :: events, changed, overflow =>
      collect events (changed.insert ifindex true) overflow

def raiseCeiling (ceiling : Option Nat) (ifindex : Nat) : Option Nat :=
  match ceiling with
  | none => some ifindex
  | some seen => some (max seen ifindex)

def aboveCeiling (ceiling : Option Nat) (ifindex : Nat) : Bool :=
  match ceiling with
  | none => true
  | some seen => seen < ifindex

/-- Whether an event on an index that no bound interface has can concern one of
ours: one that failed to bind there, or one recreated under a new index. -/
def unwatchedEventReconciles (platform : Platform) (table : InterfaceTable)
    (ifindex : Nat) (isLink : Bool) (priorCeiling : Option Nat) (now : Nat) :
    InterfaceTable × Bool :=
  let (table, woken) := table.wakeUnbound ifindex now
  let creation :=
    if indexesMonotonic platform then
      isLink && aboveCeiling priorCeiling ifindex
    else isLink
  (table, woken || creation || !lifecycleEvents platform)

structure Draining where
  table : InterfaceTable
  v4Moved : List InterfaceKey
  touched : List InterfaceKey
  reconcile : Bool

/-- One index of a drain.  An interface that cannot be read again counts as
moved, and may not have survived either. -/
def drainIndex (platform : Platform) (calls : RefreshCalls)
    (priorCeiling : Option Nat) (now : Nat) (draining : Draining)
    (ifindex : Nat) (isLink : Bool) : Draining :=
  match draining.table.keyByIfindex ifindex with
  | none =>
      let (table, reconcile) := unwatchedEventReconciles platform
        draining.table ifindex isLink priorCeiling now
      { draining with
        table := table
        reconcile := draining.reconcile || reconcile }
  | some key =>
      match draining.table.refresh key (calls.read key) with
      | (table, .ok change) =>
          let (table, gone) :=
            table.converge platform (calls.converge key) key now
          { table := table
            v4Moved := draining.v4Moved ++ if change.v4 then [key] else []
            touched := draining.touched ++
              if change.v4 || change.v6 then [key] else []
            reconcile := draining.reconcile || isLink || gone }
      | (table, .error _) =>
          { table := table
            v4Moved := draining.v4Moved ++ [key]
            touched := draining.touched ++ [key]
            reconcile := true }

/-! ## Reconciling -/

inductive Moved where
  | rebound
  | removed
  deriving DecidableEq, Repr

def moved : Step → Option Moved
  | .parked (some _) => some .removed
  | .bindFailed (.present _) _ _ _ _ => some .removed
  | .bound _ _ _ => some .rebound
  -- Its captures were not reading anything before either.
  | .kept | .lookupFailed _ | .parked none | .bindFailed _ _ _ _ _ => none

def unsettled : Step → Bool
  | .lookupFailed _ => true
  | .bound _ _ gone => gone
  | _ => false

/-- Step one interface; a kept one can still have groups to join.  Whether
something is left to retry is returned, and the interface if it moved. -/
def reconcileOne (platform : Platform) (calls : ReconcileCalls) (now : Nat)
    (interface : InterfaceKey) (table : InterfaceTable) :
    InterfaceTable × Bool × List Rebuilt :=
  let (table, step) :=
    table.step platform (calls.step interface) interface now
  let (table, gone) :=
    if step = .kept then
      table.converge platform (calls.converge interface) interface now
    else (table, false)
  (table, gone || unsettled step,
    match moved step with
    | none => []
    | some moved => [⟨table.capturesOf interface, moved = .removed⟩])

def reconcileEach (platform : Platform) (calls : ReconcileCalls) (now : Nat) :
    List InterfaceKey → InterfaceTable → InterfaceTable × Bool × List Rebuilt
  | [], table => (table, false, [])
  | interface :: rest, table =>
      let (table, retrySoon, rebuilt) :=
        reconcileOne platform calls now interface table
      let (table, moreSoon, more) :=
        reconcileEach platform calls now rest table
      (table, retrySoon || moreSoon, rebuilt ++ more)

/-- Soon while something is unsettled, else at the slow tick, and no later than
a failed bind's retry.  A retry already due was stepped in this pass. -/
def nextPass (now : Nat) (soon : Bool) (bindRetry : Option Nat) : Nat :=
  let next := now + if soon then reconcileRetry else reconcileTick
  match bindRetry with
  | none => next
  | some due => if now < due then min due next else next

namespace InterfaceLifecycle

def sawInterface (lifecycle : InterfaceLifecycle) (ifindex : Nat) :
    InterfaceLifecycle :=
  { lifecycle with
    maxSeenIfindex := raiseCeiling lifecycle.maxSeenIfindex ifindex }

def reconcileNow (lifecycle : InterfaceLifecycle) (now : Nat) :
    InterfaceLifecycle :=
  { lifecycle with nextReconcile := now }

/-- A failed read keeps the last-known addresses. -/
def recheck (platform : Platform) (calls : RefreshCalls)
    (lifecycle : InterfaceLifecycle) (table : InterfaceTable) (now : Nat) :
    InterfaceLifecycle × InterfaceTable × Changes :=
  let (table, results) := table.refreshAll calls.read
  let (table, gone) := table.convergeAll platform calls.converge now
  ({ lifecycle with nextRecheck := now + recheckInterval }, table,
    { v4Moved := capturesFor table (keysWhere (v4MovedBy false) results)
      touched := capturesFor table (keysWhere (touchedBy false) results)
      reconcile := gone })

/-- Re-resolve each interface the events name, once each; an overflow
re-resolves them all. -/
def drain (platform : Platform) (calls : RefreshCalls)
    (lifecycle : InterfaceLifecycle) (events : List InterfaceEvent)
    (table : InterfaceTable) (now : Nat) :
    InterfaceLifecycle × InterfaceTable × Changes :=
  let (changed, overflow) := collect events .new false
  if lifecycle.monitor = false ∨ (changed.len = 0 ∧ overflow = false) then
    (lifecycle, table, .default)
  else
    let lifecycle' :=
      { lifecycle with
        maxSeenIfindex := (changed.entries.map Prod.fst).foldl raiseCeiling
          lifecycle.maxSeenIfindex }
    if overflow then
      let table := table.wakeAllUnbound now
      let (table, results) := table.refreshAll calls.read
      (lifecycle', table,
        { v4Moved := capturesFor table (keysWhere (v4MovedBy true) results)
          touched := capturesFor table (keysWhere (touchedBy true) results)
          reconcile := true })
    else
      -- The ceiling before this batch: a creation's own event raises it.
      let drained := changed.entries.foldl
        (fun draining entry => drainIndex platform calls
          lifecycle.maxSeenIfindex now draining entry.1 entry.2)
        ⟨table, [], [], false⟩
      (lifecycle', drained.table,
        { v4Moved := capturesFor drained.table drained.v4Moved
          touched := capturesFor drained.table drained.touched
          reconcile := drained.reconcile })

def reconcile (platform : Platform) (calls : ReconcileCalls)
    (lifecycle : InterfaceLifecycle) (table : InterfaceTable) (now : Nat) :
    InterfaceLifecycle × InterfaceTable × List Rebuilt :=
  let (table, retrySoon, rebuilt) :=
    reconcileEach platform calls now table.interfaces table
  ({ lifecycle with
      nextReconcile := nextPass now (retrySoon || table.anyParked)
        table.nextBindRetry },
    table, rebuilt)

end InterfaceLifecycle

end Netflector.Dispatch
