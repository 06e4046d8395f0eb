import Netflector.Dispatch.InterfaceTable
import Netflector.Reactor.Registry
import Netflector.Reflector.Dial.Connection

/-!
# The DIAL proxy of one device

A description listener, a REST listener and a pool of live connections.  The
registry of the dispatcher owns its eviction.
-/

namespace Netflector.Reflector.Dial

open Netflector.Foundation
open Netflector.Net
open Netflector.Reactor
open Netflector.Dispatch

def maxConnections : Nat := 64

structure ListenSocket where
  fd : Nat
  localAddr : SocketAddrV4
  deriving DecidableEq

structure DialDeviceProxy where
  /-- Set at the registration. -/
  key : Option Key
  /-- The address that device connections bind. -/
  target : Ipv4Addr
  targetIface : Option InterfaceName
  desc : ListenSocket
  descEndpoint : SocketAddrV4
  rest : ListenSocket
  /-- Learned from a description response. -/
  restEndpoint : Option SocketAddrV4
  conns : Arena Connection

def DialDeviceProxy.new (target : Ipv4Addr)
    (targetIface : Option InterfaceName) (desc : ListenSocket)
    (descEndpoint : SocketAddrV4) (rest : ListenSocket) : DialDeviceProxy :=
  ⟨none, target, targetIface, desc, descEndpoint, rest, none, .new⟩

/-- Whether `endpoint` is one of this host's own addresses; a list that cannot
be read answers yes. -/
def namesThisHost (hostV4Addrs : Except Errno (List Ipv4Addr))
    (endpoint : SocketAddrV4) : Bool :=
  match hostV4Addrs with
  | .ok addrs => addrs.contains endpoint.ip
  | .error _ => true

/-- A handler of the reactor: a proxy, or one of those registered at startup
(the dispatcher, the memory report and the signal pipe). -/
inductive Service where
  | dialDevice (proxy : DialDeviceProxy)
  | startup

def Service.adoptKey (key : Key) : Service → Service
  | .dialDevice proxy => .dialDevice { proxy with key := some key }
  | .startup => .startup

/-! ## Keys and sockets -/

def keyToU64 (key : Key) : UInt64 :=
  key.index.toUInt64 <<< 32 ||| key.generation.toUInt64

def keyFromU64 (packed : UInt64) : Key :=
  ⟨(packed >>> 32).toUInt32, packed.toUInt32⟩

/-- What the calls of one turn of a proxy answer, apart from the connection's
own: `accept` and `connect` name the descriptor they made, the latter with
whether it is still connecting; `poll` answers what is watched, `armed` the
write interest armed behind it and `removed` what is unwatched. -/
structure ProxyCalls where
  accept : Except Errno (Option Nat)
  connect : Except Errno (Nat × Bool)
  poll : Reactor.Poll
  armed : Reactor.Poll
  removed : Reactor.Poll
  hostV4Addrs : Except Errno (List Ipv4Addr)

/-- What a proxy's turns are seen to do: dial an endpoint, act on the
connection of a descriptor, and adopt the endpoint that a connection learned
on a descriptor, with the host's addresses at that time. -/
inductive ProxyEvent where
  | dialed (endpoint : SocketAddrV4)
  | acted (fd : Nat) (clientFd deviceFd : Nat)
  | adopted (fd : Nat) (endpoint : SocketAddrV4)
      (hostV4Addrs : Except Errno (List Ipv4Addr))

structure Turn where
  proxy : DialDeviceProxy
  reactor : Reactor Service
  world : World
  events : List ProxyEvent

/-- What a connection asked of the reactor.  Where the poller refuses, an
interest stays as it was, but an unwatched descriptor is gone. -/
def applyEvent (reactor : Reactor Service) : Event → Reactor Service
  | .setReadInterest reg armed true =>
      (reactor.setReadInterest reg.key armed fun _ => none).1
  | .setWriteInterest reg armed true =>
      (reactor.setWriteInterest reg.key armed fun _ => none).1
  | .unwatch reg _ => (reactor.unwatch reg.key fun _ => none).1
  | _ => reactor

def applyEvents (reactor : Reactor Service) (events : List Event) :
    Reactor Service :=
  events.foldl applyEvent reactor

def Connection.teardown (connection : Connection) (removed : Reactor.Poll)
    (reactor : Reactor Service) : Reactor Service :=
  let reactor :=
    match connection.clientReg with
    | some reg => (reactor.unwatch reg.key removed).1
    | none => reactor
  match connection.deviceReg with
  | some reg => (reactor.unwatch reg.key removed).1
  | none => reactor

namespace Turn

def observe (turn : Turn) (event : ProxyEvent) : Turn :=
  { turn with events := turn.events ++ [event] }

def ownKey (turn : Turn) : Except Panic Key :=
  orPanic (.expect "adopt_key sets the proxy's key before any dispatch")
    turn.proxy.key

def closeConn (calls : ProxyCalls) (turn : Turn) (connKey : Key) :
    Except Panic Turn :=
  match turn.proxy.conns.remove connKey with
  | (_, none) =>
      .error (.expect "close_conn's callers hold a live connection key")
  | (conns, some connection) =>
      .ok { turn with
        proxy := { turn.proxy with conns := conns }
        reactor := connection.teardown calls.removed turn.reactor }

/-- A failed accept sheds the whole proxy; a client at the cap is dropped. -/
def acceptClient (calls : ProxyCalls) (turn : Turn) :
    Except Panic (Turn × Option TcpSocket) :=
  match calls.accept with
  | .ok none => .ok (turn, none)
  | .error _ => do
      let key ← turn.ownKey
      .ok ({ turn with
        reactor := (turn.reactor.unregister key calls.removed).1 }, none)
  | .ok (some fd) =>
      if maxConnections ≤ turn.proxy.conns.iter.length then .ok (turn, none)
      else .ok (turn, some ⟨fd, false⟩)

def watchBoth (calls : ProxyCalls) (turn : Turn) (key connKey : Key)
    (client device : TcpSocket) : Except Panic Turn := do
  let userData := keyToU64 connKey
  let (reactor, clientReg) ←
    turn.reactor.watch key client.fd userData calls.poll
  let turn := { turn with reactor := reactor }
  match clientReg with
  | .error _ => turn.closeConn calls connKey
  | .ok clientReg => do
      let (reactor, deviceReg) ←
        turn.reactor.watch key device.fd userData calls.poll
      let turn := { turn with reactor := reactor }
      match deviceReg with
      | .error _ =>
          let turn := { turn with
            reactor := (turn.reactor.unwatch clientReg calls.removed).1 }
          turn.closeConn calls connKey
      | .ok deviceReg => do
          let reactor :=
            (turn.reactor.setWriteInterest deviceReg true calls.armed).1
          let connection ← orPanic
            (.expect "the just-inserted connection is present")
            (turn.proxy.conns.get connKey)
          .ok { turn with
            reactor := reactor
            proxy := { turn.proxy with
              conns := turn.proxy.conns.set connKey
                (connection.attachRegistrations ⟨clientReg⟩ ⟨deviceReg⟩) } }

def startConnection (calls : ProxyCalls) (turn : Turn) (client : TcpSocket)
    (deviceEndpoint ownListener : SocketAddrV4) : Except Panic Turn := do
  let key ← turn.ownKey
  let turn := turn.observe (.dialed deviceEndpoint)
  match calls.connect with
  | .error _ => .ok turn
  | .ok (fd, connecting) => do
      let device : TcpSocket := ⟨fd, connecting⟩
      -- Inserted first: the arena's key tags both descriptors.
      let (conns, connKey) ← turn.proxy.conns.insert
        (Connection.new client device deviceEndpoint
          turn.proxy.rest.localAddr ownListener turn.world.now)
      let turn := { turn with proxy := { turn.proxy with conns := conns } }
      turn.watchBoth calls key connKey client device

def acceptDesc (calls : ProxyCalls) (turn : Turn) : Except Panic Turn := do
  let (turn, client) ← turn.acceptClient calls
  match client with
  | none => .ok turn
  | some client =>
      turn.startConnection calls client turn.proxy.descEndpoint
        turn.proxy.desc.localAddr

/-- A client before the REST endpoint is learned is dropped. -/
def acceptRest (calls : ProxyCalls) (turn : Turn) : Except Panic Turn := do
  let (turn, client) ← turn.acceptClient calls
  match client, turn.proxy.restEndpoint with
  | some client, some device =>
      turn.startConnection calls client device turn.proxy.rest.localAddr
  | _, _ => .ok turn

/-- Refuses an endpoint that can never name a device or names this host. -/
def adoptRestEndpoint (calls : ProxyCalls) (turn : Turn) (fd : Nat)
    (endpoint : SocketAddrV4) : Turn :=
  if turn.proxy.restEndpoint = some endpoint then turn
  else if isNeverAPeer (.v4 endpoint.ip) ||
      namesThisHost calls.hostV4Addrs endpoint then turn
  else
    let turn := { turn with
      proxy := { turn.proxy with restEndpoint := some endpoint } }
    turn.observe (.adopted fd endpoint calls.hostV4Addrs)

def storeConn (turn : Turn) (connKey : Key) (connection : Connection) :
    Turn :=
  { turn with
    proxy := { turn.proxy with
      conns := turn.proxy.conns.set connKey connection } }

/-- One edge of a connection: what it leaves in the arena, and what it asked of
the reactor. -/
def onEdge (turn : Turn) (connKey : Key) (fd : Nat)
    (connection : Connection) (edge : World →
      Except Panic (Connection × World × Outcome)) :
    Except Panic (Turn × Connection × Outcome) := do
  let turn := turn.observe
    (.acted fd connection.client.fd connection.device.fd)
  let (after, world, outcome) ← edge turn.world
  let reactor :=
    applyEvents turn.reactor (world.log.drop turn.world.log.length)
  let turn := { turn with reactor := reactor, world := world }
  .ok (turn.storeConn connKey after, after, outcome)

def onConnectionReadable (calls : ProxyCalls) (turn : Turn) (connKey : Key)
    (fd : Nat) : Except Panic Turn :=
  match turn.proxy.conns.get connKey with
  | none => .ok turn
  | some connection => do
      let (turn, connection, outcome) ←
        turn.onEdge connKey fd connection (connection.readable fd)
      let learned := connection.learnedRest
      let turn := turn.storeConn connKey { connection with learnedRest := none }
      let turn :=
        match learned with
        | none => turn
        | some endpoint => turn.adoptRestEndpoint calls fd endpoint
      if outcome = .close then turn.closeConn calls connKey else .ok turn

def onConnectionWritable (calls : ProxyCalls) (turn : Turn) (connKey : Key)
    (fd : Nat) : Except Panic Turn :=
  match turn.proxy.conns.get connKey with
  | none => .ok turn
  | some connection => do
      let (turn, _, outcome) ←
        turn.onEdge connKey fd connection (connection.writable fd)
      if outcome = .close then turn.closeConn calls connKey else .ok turn

def closeEach (calls : ProxyCalls) : List Key → Turn → Except Panic Turn
  | [], turn => .ok turn
  | connKey :: rest, turn => do
      let turn ← turn.closeConn calls connKey
      closeEach calls rest turn

def sweep (calls : ProxyCalls) (turn : Turn) (now : Nat) :
    Except Panic Turn :=
  closeEach calls
    ((turn.proxy.conns.iter.filter fun item =>
      decide (item.2.deadline ≤ now)).map Prod.fst) turn

def onReadable (calls : ProxyCalls) (turn : Turn) (event : ReadyEvent) :
    Except Panic Turn :=
  if event.fd = turn.proxy.desc.fd then turn.acceptDesc calls
  else if event.fd = turn.proxy.rest.fd then turn.acceptRest calls
  else
    turn.onConnectionReadable calls (keyFromU64 event.userData)
      event.fd.toNat

def onWritable (calls : ProxyCalls) (turn : Turn) (event : ReadyEvent) :
    Except Panic Turn :=
  turn.onConnectionWritable calls (keyFromU64 event.userData) event.fd.toNat

end Turn

end Netflector.Reflector.Dial
