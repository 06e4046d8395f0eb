import Netflector.Reflector.Search

/-!
# The daemon's moments

What the reactor runs the dispatcher for: a capture or the monitor that became
readable, and a deadline.  The proxies take their own turns in between.
-/

namespace Netflector.Dispatch

open Netflector.Foundation
open Netflector.Net
open Netflector.Reactor
open Netflector.Reflector

/-! ## Routing -/

/-- The all-zero address identifies nothing. -/
def isOwnEcho (srcMac ownMac : Option MacAddr) : Bool :=
  match srcMac, ownMac with
  | some src, some own => src = own && !own.isUnspecified
  | _, _ => false

def onPacket (digest : MacAddr → Datagram → UInt64) (calls : PacketCalls)
    (own : Key) (handler : PacketHandler) (packet : Packet)
    (daemon : Daemon) : Except Panic (PacketHandler × Daemon × Outcome) :=
  match handler.leg with
  | .simple reflector => do
      let (daemon, outcome) ← reflector.onPacket digest calls packet daemon
      .ok (handler, daemon, outcome)
  | .search reflector => do
      let (reflector, dispatcher, outcome) ←
        reflector.onPacket digest calls own packet daemon.dispatcher
      .ok ({ handler with leg := .search reflector },
        { daemon with dispatcher := dispatcher }, outcome)

def routeTo (digest : MacAddr → Datagram → UInt64) (calls : PacketCalls)
    (packet : Packet) (key : Key) (daemon : Daemon) : Except Panic Daemon :=
  match daemon.dispatcher.takeHandler key with
  | (_, none) => .error (.expect
      "a registration that just matched is live with its handler present")
  | (dispatcher, some handler) => do
      let (handler, daemon, _) ← onPacket digest calls key handler packet
        { daemon with dispatcher := dispatcher }
      .ok { daemon with
        dispatcher := daemon.dispatcher.restoreHandler key handler }

def routeEach (digest : MacAddr → Datagram → UInt64)
    (calls : Key → PacketCalls) (ingress : CaptureKey) (packet : Packet)
    (addrs : Option InterfaceAddresses) :
    List Key → Daemon → Except Panic Daemon
  | [], daemon => .ok daemon
  | key :: keys, daemon => do
      let applies := (daemon.dispatcher.registrations.get key).any
        fun registration => registration.applies ingress packet addrs
      let daemon ←
        if applies then routeTo digest (calls key) packet key daemon
        else .ok daemon
      routeEach digest calls ingress packet addrs keys daemon

/-- Offer a packet to the registrations there are as it arrives; the counts
that the outcomes go to are left out. -/
def route (digest : MacAddr → Datagram → UInt64) (calls : Key → PacketCalls)
    (ingress : CaptureKey) (packet : Packet) (daemon : Daemon) :
    Except Panic Daemon :=
  let dispatcher := daemon.dispatcher
  let addrs := dispatcher.table.egressAddrs ingress
  if isOwnEcho packet.srcMac (addrs.bind (·.mac)) then .ok daemon
  else do
    let daemon ← routeEach digest calls ingress packet addrs
      (dispatcher.registrations.iter.map Prod.fst)
      { daemon with dispatcher :=
        { dispatcher with egress := dispatcher.egress.beginPacket } }
    .ok { daemon with dispatcher := { daemon.dispatcher with
      egress := daemon.dispatcher.egress.endPacket } }

structure RouteCalls where
  now : Nat
  packet : Key → PacketCalls

/-- A daemon with the states it routed packets in so far, the last one first,
and the number of frames it was handed; nothing reads them but the calls'
answers, which are by frame. -/
structure Observed where
  daemon : Daemon
  routedIn : List Daemon
  frames : Nat

namespace Observed

def route (digest : MacAddr → Datagram → UInt64) (calls : RouteCalls)
    (ingress : CaptureKey) (packet : Packet) (observed : Observed) :
    Except Panic Observed := do
  let daemon ←
    Dispatch.route digest calls.packet ingress packet observed.daemon
  .ok ⟨daemon, observed.daemon :: observed.routedIn, observed.frames + 1⟩

def reassemble (digest : MacAddr → Datagram → UInt64) (calls : RouteCalls)
    (ingress : CaptureKey) (fragment : Fragment) (observed : Observed) :
    Except Panic Observed := do
  let dispatcher := observed.daemon.dispatcher
  let (reassembly, done) ← reassembleAndRoute dispatcher.registrations
    dispatcher.table.egressAddrs dispatcher.reassembly ingress fragment
    calls.now
  let observed := { observed with
    daemon := { observed.daemon with
      dispatcher := { dispatcher with reassembly := reassembly } } }
  match done with
  | none => .ok { observed with frames := observed.frames + 1 }
  | some packet => observed.route digest calls ingress packet

def withTable (table : InterfaceTable) (observed : Observed) : Observed :=
  { observed with daemon := { observed.daemon with
    dispatcher := { observed.daemon.dispatcher with table := table } } }

end Observed

def tableOf : Except Panic Observed → InterfaceTable
  | .ok observed => observed.daemon.dispatcher.table
  | .error _ => .new

/-- What a read of a capture whose interface is gone answers: `ENETDOWN` on
Linux, `ENXIO` on the others. -/
def lostInterface : Platform → Errno → Bool
  | .linux, error => error = .other 100
  | .macos, error | .freebsd, error => error = .other 6

/-- The calls are answered by the frame; `stopped` is the time of a read
error. -/
def onCaptureReadable (platform : Platform)
    (digest : MacAddr → Datagram → UInt64) (calls : Nat → RouteCalls)
    (ingress : CaptureKey) (polls : List Poll) (stopped : Nat)
    (observed : Observed) : Except Panic Observed :=
  let (drained, counts) := drainAndRoute tableOf
    (fun state table => state.map (Observed.withTable table))
    (fun packet state => state.bind fun observed =>
      observed.route digest (calls observed.frames) ingress packet)
    (fun fragment state => state.bind fun observed =>
      observed.reassemble digest (calls observed.frames) ingress fragment)
    ingress polls (.ok observed)
  drained.map fun observed =>
    if counts.error.any (lostInterface platform) then
      { observed with daemon := { observed.daemon with
        dispatcher := { observed.daemon.dispatcher with
          lifecycle :=
            observed.daemon.dispatcher.lifecycle.reconcileNow stopped } } }
    else observed

/-! ## Interface changes -/

/-- What the calls of a repair answer: `elapsed` until its reconcile looks at
the clock, and the poller to what is evicted. -/
structure RepairCalls where
  reconcile : ReconcileCalls
  elapsed : Nat
  poll : Reactor.Poll

def onIfaceChange (captures : List CaptureKey) (handler : PacketHandler)
    (dispatcher : PacketDispatcher) : PacketHandler × PacketDispatcher :=
  match handler.leg with
  | .simple _ => (handler, dispatcher)
  | .search reflector =>
      let (reflector, dispatcher) :=
        reflector.onIfaceChange captures dispatcher
      ({ handler with leg := .search reflector }, dispatcher)

/-- Call the handlers of the keys in turn and put each back; one removed
meanwhile is skipped. -/
def callEach
    (call : PacketHandler → PacketDispatcher →
      PacketHandler × PacketDispatcher) :
    List Key → PacketDispatcher → PacketDispatcher
  | [], dispatcher => dispatcher
  | key :: keys, dispatcher =>
      match dispatcher.takeHandler key with
      | (dispatcher, none) => callEach call keys dispatcher
      | (dispatcher, some handler) =>
          let (handler, dispatcher) := call handler dispatcher
          callEach call keys (dispatcher.restoreHandler key handler)

def notifyIfaceChange (captures : List CaptureKey)
    (dispatcher : PacketDispatcher) : PacketDispatcher :=
  if captures = [] then dispatcher
  else
    callEach (onIfaceChange captures)
      (dispatcher.registrations.iter.map Prod.fst) dispatcher

def evictRebuilt (poll : Reactor.Poll) :
    List Rebuilt → List CaptureKey → DialContext → Reactor Dial.Service →
      List CaptureKey × DialContext × Reactor Dial.Service
  | [], changed, dial, reactor => (changed, dial, reactor)
  | rebuilt :: rest, changed, dial, reactor =>
      let (dial, reactor) :=
        dial.evictOnInterfaceChange reactor poll rebuilt.captures
      let changed := rebuilt.captures.foldl
        (fun changed capture =>
          if changed.contains capture then changed
          else changed ++ [capture]) changed
      evictRebuilt poll rest changed dial reactor

/-- Tell the reflectors once about every capture that changed. -/
def afterRepair (poll : Reactor.Poll) (touched : List CaptureKey)
    (rebuilt : List Rebuilt) (daemon : Daemon) : Daemon :=
  let (changed, dial, reactor) := evictRebuilt poll rebuilt touched
    daemon.dispatcher.dial daemon.reactor
  ⟨notifyIfaceChange changed { daemon.dispatcher with dial := dial }, reactor⟩

def reconcileInterfaces (platform : Platform) (calls : RepairCalls)
    (now : Nat) (daemon : Daemon) : Daemon :=
  let dispatcher := daemon.dispatcher
  let (lifecycle, table, rebuilt) := dispatcher.lifecycle.reconcile platform
    calls.reconcile dispatcher.table (now + calls.elapsed)
  afterRepair calls.poll [] rebuilt
    { daemon with dispatcher :=
      { dispatcher with lifecycle := lifecycle, table := table } }

def applyInterfaceChanges (platform : Platform) (calls : RepairCalls)
    (now : Nat) (changes : Changes) (daemon : Daemon) : Daemon :=
  let dispatcher := daemon.dispatcher
  let (lifecycle, table, rebuilt) :=
    if changes.reconcile then
      dispatcher.lifecycle.reconcile platform calls.reconcile dispatcher.table
        (now + calls.elapsed)
    else (dispatcher.lifecycle, dispatcher.table, [])
  let (dial, reactor) := dispatcher.dial.evictOnInterfaceChange
    daemon.reactor calls.poll changes.v4Moved
  afterRepair calls.poll changes.touched rebuilt
    ⟨{ dispatcher with lifecycle := lifecycle, table := table, dial := dial },
      reactor⟩

def refreshChangedInterfaces (platform : Platform) (calls : RefreshCalls)
    (repair : RepairCalls) (events : List InterfaceEvent) (now : Nat)
    (daemon : Daemon) : Daemon :=
  let dispatcher := daemon.dispatcher
  let (lifecycle, table, changes) := dispatcher.lifecycle.drain platform calls
    events dispatcher.table now
  applyInterfaceChanges platform repair now changes
    { daemon with dispatcher :=
      { dispatcher with lifecycle := lifecycle, table := table } }

/-! ## Deadlines -/

/-- What the calls of a deadline answer: the poller to what the sweep evicts,
the recheck with its repair, the retries of the joins, and the last
reconcile. -/
structure DeadlineCalls where
  poll : Reactor.Poll
  recheck : RefreshCalls
  repair : RepairCalls
  retry : InterfaceKey → ConvergeCalls
  reconcile : RepairCalls

def onDeadlineOf (now : Nat) (handler : PacketHandler)
    (dispatcher : PacketDispatcher) : PacketHandler × PacketDispatcher :=
  match handler.leg with
  | .simple _ => (handler, dispatcher)
  | .search reflector =>
      let (reflector, dispatcher) := reflector.onDeadline now dispatcher
      ({ handler with leg := .search reflector }, dispatcher)

namespace PacketDispatcher

def handlers (dispatcher : PacketDispatcher) : List (Key × PacketHandler) :=
  dispatcher.registrations.iter.filterMap fun item =>
    item.2.handler.map fun handler => (item.1, handler)

def nextDeadline (dispatcher : PacketDispatcher) : Option Nat :=
  (dispatcher.handlers.filterMap (·.2.nextDeadline) ++
    dispatcher.dial.nextGrace.toList ++
    (dispatcher.report.map (·.next)).toList ++
    [dispatcher.lifecycle.nextReconcile, dispatcher.lifecycle.nextRecheck] ++
    dispatcher.table.nextJoinRetry.toList).min?

def sweepHandlers (dispatcher : PacketDispatcher) (now : Nat) :
    PacketDispatcher :=
  let due := dispatcher.handlers.filter fun item =>
    item.2.nextDeadline.any (· ≤ now)
  callEach (onDeadlineOf now) (due.map Prod.fst) dispatcher

def rearmReport (dispatcher : PacketDispatcher) (now : Nat) :
    PacketDispatcher :=
  { dispatcher with
    report := dispatcher.report.map fun report =>
      if report.next ≤ now then { report with next := now + report.interval }
      else report }

end PacketDispatcher

def recheckDue (platform : Platform) (calls : DeadlineCalls) (now : Nat)
    (daemon : Daemon) : Daemon :=
  let dispatcher := daemon.dispatcher
  if dispatcher.lifecycle.nextRecheck ≤ now then
    let (lifecycle, table, changes) := dispatcher.lifecycle.recheck platform
      calls.recheck dispatcher.table now
    applyInterfaceChanges platform calls.repair now changes
      { daemon with dispatcher :=
        { dispatcher with lifecycle := lifecycle, table := table } }
  else daemon

/-- The joins' retries, where one is due, and the reconcile, where it is due or
a retry found its index gone. -/
def retryDue (platform : Platform) (calls : DeadlineCalls) (now : Nat)
    (daemon : Daemon) : Daemon :=
  let dispatcher := daemon.dispatcher
  let (table, joinsFoundGone) :=
    if dispatcher.table.nextJoinRetry.any (· ≤ now) then
      dispatcher.table.convergeAll platform calls.retry now
    else (dispatcher.table, false)
  let daemon :=
    { daemon with dispatcher := { dispatcher with table := table } }
  if joinsFoundGone || decide (dispatcher.lifecycle.nextReconcile ≤ now) then
    reconcileInterfaces platform calls.reconcile now daemon
  else daemon

def onDeadline (platform : Platform) (calls : DeadlineCalls) (now : Nat)
    (daemon : Daemon) : Daemon :=
  let dispatcher := daemon.dispatcher.sweepHandlers now
  let (dial, reactor) := dispatcher.dial.sweep now daemon.reactor calls.poll
  let dispatcher := { dispatcher with dial := dial }.rearmReport now
  retryDue platform calls now
    (recheckDue platform calls now ⟨dispatcher, reactor⟩)

/-! ## Startup -/

inductive Setup where
  | openCapture (name : InterfaceName) (lookup : Except Errno (Option Nat))
      (read : Except Errno Reading) (attach : Except Errno LinkType)
  | joinGroup (calls : JoinCalls) (capture : CaptureKey) (group : IpAddr)
      (wanted : Wanted) (now : Nat)
  | registerSimple (ingress : CaptureKey) (filter : Filter)
      (reflector : SimpleReflector)
  | registerSearch (ingress : CaptureKey) (filter : Filter)
      (source target : CaptureKey) (delivery : Delivery)
      (deviceMacs : Option (List MacAddr)) (protocol : SearchProtocol)
      (makeReply : ReplyRewrite)
  | enableCounterReport (interval : Nat) (positive : 0 < interval) (now : Nat)
  | registerService (fds : List (RawFd × UInt64))
      (poll removed : Reactor.Poll)

namespace PacketDispatcher

def openCapture (dispatcher : PacketDispatcher) (name : InterfaceName)
    (lookup : Except Errno (Option Nat)) (read : Except Errno Reading)
    (attach : Except Errno LinkType) : PacketDispatcher :=
  match dispatcher.table.openCapture name lookup read attach with
  | (table, .error _) => { dispatcher with table := table }
  | (table, .ok key) =>
      { dispatcher with
        table := table
        lifecycle :=
          match table.ifindexOf key with
          | some ifindex => dispatcher.lifecycle.sawInterface ifindex
          | none => dispatcher.lifecycle }

def joinGroup (platform : Platform) (calls : JoinCalls)
    (dispatcher : PacketDispatcher) (capture : CaptureKey) (group : IpAddr)
    (wanted : Wanted) (now : Nat) : PacketDispatcher :=
  match dispatcher.table.interfaceOf capture with
  | none => dispatcher
  | some interface =>
      { dispatcher with table :=
        (dispatcher.table.joinOn platform calls interface group wanted now).1 }

end PacketDispatcher

namespace Daemon

def new (joinGroups monitor : Bool) (seed : UInt32) (now : Nat) : Daemon :=
  ⟨{ table := ⟨[], [], joinGroups⟩
     registrations := .new
     lifecycle :=
       ⟨monitor, none, now + reconcileTick, now + recheckInterval⟩
     dial := .new
     egress := .new seed
     reassembly := .new
     report := none }, .new⟩

def setup (platform : Platform) (daemon : Daemon) :
    Setup → Except Panic Daemon
  | .openCapture name lookup read attach =>
      .ok { daemon with dispatcher :=
        daemon.dispatcher.openCapture name lookup read attach }
  | .joinGroup calls capture group wanted now =>
      .ok { daemon with dispatcher :=
        daemon.dispatcher.joinGroup platform calls capture group wanted now }
  | .registerSimple ingress filter reflector => do
      let (dispatcher, _) ← daemon.dispatcher.register ingress filter
        ⟨.simple reflector, none⟩
      .ok { daemon with dispatcher := dispatcher }
  | .registerSearch ingress filter source target delivery deviceMacs protocol
      makeReply => do
      let (dispatcher, _) ← daemon.dispatcher.register ingress filter
        ⟨.search ⟨source, target, delivery, deviceMacs, protocol, makeReply,
          .new⟩, none⟩
      .ok { daemon with dispatcher := dispatcher }
  | .enableCounterReport interval positive now =>
      .ok { daemon with dispatcher := { daemon.dispatcher with
        report := some ⟨interval, now + interval, positive⟩ } }
  | .registerService fds poll removed => do
      let (reactor, _) ← daemon.reactor.registerWithFds Dial.Service.adoptKey
        .startup fds poll removed
      .ok { daemon with reactor := reactor }

def setupAll (platform : Platform) :
    Daemon → List Setup → Except Panic Daemon
  | daemon, [] => .ok daemon
  | daemon, item :: items => do
      let daemon ← daemon.setup platform item
      setupAll platform daemon items

end Daemon

/-! ## Runs -/

inductive ProxyTurn where
  | readable (event : ReadyEvent)
  | writable (event : ReadyEvent)
  | deadline (now : Nat)

def ProxyTurn.take (calls : Dial.ProxyCalls) (turn : Dial.Turn) :
    ProxyTurn → Except Panic Dial.Turn
  | .readable event => turn.onReadable calls event
  | .writable event => turn.onWritable calls event
  | .deadline now => turn.sweep calls now

def dispatchProxy (kernel : Dial.Kernel) (calls : Dial.ProxyCalls)
    (key : Key) (taken : ProxyTurn) (reactor : Reactor Dial.Service) :
    Except Panic (Reactor Dial.Service) :=
  match reactor.takeHandler key with
  | (reactor, some (.dialDevice proxy)) => do
      let turn ← taken.take calls ⟨proxy, reactor, ⟨kernel, []⟩, []⟩
      .ok (turn.reactor.restoreHandler key (.dialDevice turn.proxy))
  | (reactor, some .startup) => .ok (reactor.restoreHandler key .startup)
  | (reactor, none) => .ok reactor

inductive Daemon.Moment where
  | capture (ingress : CaptureKey) (polls : List Poll)
      (calls : Nat → RouteCalls) (stopped : Nat)
  | monitor (events : List InterfaceEvent) (now : Nat) (calls : RefreshCalls)
      (repair : RepairCalls)
  | deadline (now : Nat) (calls : DeadlineCalls)
  | proxy (key : Key) (taken : ProxyTurn) (kernel : Dial.Kernel)
      (calls : Dial.ProxyCalls)

namespace Observed

def moment (platform : Platform) (digest : MacAddr → Datagram → UInt64)
    (observed : Observed) : Daemon.Moment → Except Panic Observed
  | .capture ingress polls calls stopped =>
      onCaptureReadable platform digest calls ingress polls stopped observed
  | .monitor events now calls repair =>
      .ok { observed with
        daemon := refreshChangedInterfaces platform calls repair events now
          observed.daemon }
  | .deadline now calls =>
      .ok { observed with
        daemon := onDeadline platform calls now observed.daemon }
  | .proxy key taken kernel calls => do
      let reactor ←
        dispatchProxy kernel calls key taken observed.daemon.reactor
      .ok { observed with daemon := { observed.daemon with
        reactor := reactor } }

def run (platform : Platform) (digest : MacAddr → Datagram → UInt64) :
    Observed → List Daemon.Moment → Except Panic Observed
  | observed, [] => .ok observed
  | observed, moment :: moments => do
      let observed ← observed.moment platform digest moment
      run platform digest observed moments

end Observed

def daemonRun (platform : Platform) (digest : MacAddr → Datagram → UInt64)
    (daemon : Daemon) (items : List Setup) (moments : List Daemon.Moment) :
    Except Panic Observed := do
  let daemon ← daemon.setupAll platform items
  Observed.run platform digest ⟨daemon, [], 0⟩ moments

end Netflector.Dispatch
