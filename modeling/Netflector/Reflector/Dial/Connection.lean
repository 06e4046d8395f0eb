import Netflector.Net.Http.Framing
import Netflector.Net.StreamBuffer
import Netflector.Reactor.Arena

/-!
# One proxied connection

Two sockets, each direction with its framer, its receive buffer and its send
buffer, driven on the reactor's edges.  What the sockets and the poller answer
comes from outside, call by call, and every call is logged with its answer.
-/

namespace Netflector.Reflector.Dial

open Netflector.Foundation
open Netflector.Net
open Netflector.Net.Http
open Netflector.Reactor

def maxRecv : Nat := 4 * 1024
def maxSend : Nat := 8 * 1024
def connectTimeout : Nat := 10
def idleTimeout : Nat := 30

/-! ## The outside -/

structure TcpSocket where
  fd : Nat
  connecting : Bool
  deriving DecidableEq

structure RegKey where
  key : Key
  deriving DecidableEq

inductive IoResult (Value : Type) where
  | ready (value : Value)
  | wouldBlock
  | failed
  deriving DecidableEq

def IoResult.sent : IoResult Nat → Option Nat
  | .ready count => some count
  | .wouldBlock => some 0
  | .failed => none

/-- What happened, in order.  `framed` is no call: it records what a feed of
the bytes at hand produced for the destination. -/
inductive Event where
  | recv (fd : Nat) (answer : IoResult Bytes)
  | send (fd : Nat) (offered : Bytes) (answer : IoResult Nat)
  | shutdownWrite (fd : Nat)
  | finishConnect (fd : Nat) (answer : Bool)
  | setReadInterest (reg : RegKey) (armed answer : Bool)
  | setWriteInterest (reg : RegKey) (armed answer : Bool)
  | unwatch (reg : RegKey) (answer : Bool)
  | framed (fd : Nat) (input : Bytes) (framed : Framed)
  deriving DecidableEq

/-- What the kernel answers the call that is logged at a position. -/
structure Kernel where
  recv : Nat → IoResult Bytes
  send : Nat → IoResult Nat
  accepts : Nat → Bool
  now : Nat → Nat

structure World where
  kernel : Kernel
  log : List Event

namespace World

def record (world : World) (event : Event) : World :=
  { world with log := world.log ++ [event] }

def now (world : World) : Nat := world.kernel.now world.log.length

/-- A receive fills at most the room it is given. -/
def recv (world : World) (socket : TcpSocket) (room : Nat) :
    World × IoResult Bytes :=
  let answer :=
    match world.kernel.recv world.log.length with
    | .ready bytes => .ready (bytes.take room)
    | answer => answer
  (world.record (.recv socket.fd answer), answer)

/-- A send takes at most what it is offered. -/
def send (world : World) (socket : TcpSocket) (offered : Bytes) :
    World × IoResult Nat :=
  let answer :=
    match world.kernel.send world.log.length with
    | .ready count => .ready (min count offered.length)
    | answer => answer
  (world.record (.send socket.fd offered answer), answer)

def shutdownWrite (world : World) (socket : TcpSocket) : World :=
  world.record (.shutdownWrite socket.fd)

def ask (world : World) (event : Bool → Event) : World × Bool :=
  let answer := world.kernel.accepts world.log.length
  (world.record (event answer), answer)

end World

/-! ## One direction -/

inductive FlowState where
  | opened
  | sourceClosed
  | done
  deriving DecidableEq, Repr

structure Flow where
  framer : HttpFraming
  recv : StreamBuffer
  send : StreamBuffer
  state : FlowState

def Flow.new (kind : Kind) (rewrite : RewritePolicy) : Flow :=
  ⟨HttpFraming.new kind rewrite, .withCapacity maxRecv, .withCapacity maxSend,
    .opened⟩

inductive Direction where
  | clientToDevice
  | deviceToClient
  deriving DecidableEq, Repr

inductive Outcome where
  | keep
  | close
  deriving DecidableEq, Repr

inductive Forwarded where
  | opened
  | sourceEof
  | failed
  deriving DecidableEq, Repr

/-- One direction resolved against a connection. -/
structure DirectionContext where
  source : TcpSocket
  sourceReg : Option RegKey
  dest : TcpSocket
  destReg : Option RegKey
  flow : Flow
  learnedRest : Option SocketAddrV4
  deadline : Nat

/-- A `writev` count can land inside either slice. -/
def splitRemainder (header body : Bytes) (sent : Nat) :
    Except Panic (Bytes × Bytes) :=
  if sent ≥ header.length then do
    let bodyTail ← orPanic .outOfRange
      (slice? body (sent - header.length) body.length)
    .ok ([], bodyTail)
  else .ok (header.drop sent, body)

def bufferTail (send : StreamBuffer) (header body : Bytes) :
    Except Panic (StreamBuffer × Outcome) := do
  match ← send.append header with
  | none => .ok (send, .close)
  | some send =>
      match ← send.append body with
      | none => .ok (send, .close)
      | some send => .ok (send, .keep)

namespace DirectionContext

/-- A backlog or a pending connect buffers the whole message, to preserve
order; otherwise one scatter-gather write, and the unsent tail is buffered. -/
def sendFramed (ctx : DirectionContext) (world : World)
    (header body : Bytes) :
    Except Panic (DirectionContext × World × Outcome) :=
  if !ctx.flow.send.isEmpty ∨ ctx.dest.connecting then do
    let (send, outcome) ← bufferTail ctx.flow.send header body
    .ok ({ ctx with flow := { ctx.flow with send := send } }, world, outcome)
  else
    let (world, answer) := world.send ctx.dest (header ++ body)
    match answer.sent with
    | none => .ok (ctx, world, .close)
    | some sent => do
        let ctx :=
          if 0 < sent then { ctx with deadline := world.now + idleTimeout }
          else ctx
        if sent = header.length + body.length then .ok (ctx, world, .keep)
        else
          let (headerTail, bodyTail) ← splitRemainder header body sent
          let (send, outcome) ← bufferTail ctx.flow.send headerTail bodyTail
          .ok ({ ctx with flow := { ctx.flow with send := send } }, world,
            outcome)

/-- Frame whole messages out of the receive buffer and forward them.  Every
round that goes on consumes a byte, so one more round than there are bytes is
enough. -/
def forwardFramed : Nat → DirectionContext → World →
    Except Panic (DirectionContext × World × Forwarded)
  | 0, ctx, world => .ok (ctx, world, .opened)
  | rounds + 1, ctx, world => do
      let pending ← ctx.flow.recv.pending
      match ctx.flow.framer.feed pending with
      | .error _ => .ok (ctx, world, .failed)
      | .ok (framer, framed) =>
          let world := world.record (.framed ctx.dest.fd pending framed)
          let ctx := { ctx with
            flow := { ctx.flow with framer := framer }
            learnedRest := framed.applicationUrl.or ctx.learnedRest }
          if framed.consumed = 0 then .ok (ctx, world, .opened)
          else
            let (ctx, world, outcome) ←
              ctx.sendFramed world framed.header framed.body
            if outcome = .close then .ok (ctx, world, .failed)
            else
              forwardFramed rounds
                { ctx with flow := { ctx.flow with
                    recv := ctx.flow.recv.consume framed.consumed } }
                world

def forward (ctx : DirectionContext) (world : World) :
    Except Panic (DirectionContext × World × Forwarded) := do
  let (recv, room) ← ctx.flow.recv.freeTailMut
  let ctx := { ctx with flow := { ctx.flow with recv := recv } }
  if room = 0 then .ok (ctx, world, .failed)
  else
    match world.recv ctx.source room with
    | (world, .failed) => .ok (ctx, world, .failed)
    | (world, .wouldBlock) => .ok (ctx, world, .opened)
    | (world, .ready bytes) =>
        if bytes.length = 0 then .ok (ctx, world, .sourceEof)
        else
          let recv := (ctx.flow.recv.fillTail bytes).commit bytes.length
          forwardFramed (recv.len + 1)
            { ctx with flow := { ctx.flow with recv := recv } } world

/-- Armed while a backlog remains or the destination is still connecting, so
that the connect-completion edge survives. -/
def syncWriteInterest (ctx : DirectionContext) (world : World) :
    Except Panic (World × Outcome) := do
  let armed := !ctx.flow.send.isEmpty || ctx.dest.connecting
  let reg ← orPanic
    (.expect "an open flow's destination keeps its registration") ctx.destReg
  let (world, accepted) := world.ask (.setWriteInterest reg armed)
  .ok (world, if accepted then .keep else .close)

/-- Finish the destination once a closed source's backlog is flushed, then sync
the write interest. -/
def settle (ctx : DirectionContext) (world : World) :
    Except Panic (DirectionContext × World × Outcome) := do
  let (ctx, world) :=
    if ctx.flow.state = .sourceClosed ∧ ctx.flow.send.isEmpty ∧
        !ctx.dest.connecting then
      ({ ctx with flow := { ctx.flow with state := .done } },
        world.shutdownWrite ctx.dest)
    else (ctx, world)
  let (world, outcome) ← ctx.syncWriteInterest world
  .ok (ctx, world, outcome)

/-- Disarm the half-closed source's read interest: its end of stream is
permanently readable. -/
def halfClose (ctx : DirectionContext) (world : World) :
    Except Panic (DirectionContext × World × Outcome) := do
  let reg ← orPanic
    (.expect "an open flow's source keeps its registration") ctx.sourceReg
  let (world, accepted) := world.ask (.setReadInterest reg false)
  if accepted then
    let ctx := { ctx with flow := { ctx.flow with state := .sourceClosed } }
    ctx.settle world
  else .ok (ctx, world, .close)

def drain (ctx : DirectionContext) (world : World) :
    Except Panic (DirectionContext × World × Outcome) :=
  if ctx.flow.send.isEmpty then .ok (ctx, world, .keep)
  else do
    let pending ← ctx.flow.send.pending
    match world.send ctx.dest pending with
    | (world, .failed) => .ok (ctx, world, .close)
    | (world, .wouldBlock) => .ok (ctx, world, .keep)
    | (world, .ready count) =>
        let ctx := { ctx with
          flow := { ctx.flow with send := ctx.flow.send.consume count } }
        let ctx :=
          if 0 < count then { ctx with deadline := world.now + idleTimeout }
          else ctx
        .ok (ctx, world, .keep)

end DirectionContext

/-! ## The connection -/

structure Connection where
  client : TcpSocket
  clientReg : Option RegKey
  device : TcpSocket
  deviceReg : Option RegKey
  deviceEndpoint : SocketAddrV4
  c2u : Flow
  u2c : Flow
  learnedRest : Option SocketAddrV4
  deadline : Nat

namespace Connection

def new (client device : TcpSocket)
    (deviceEndpoint restListener ownListener : SocketAddrV4) (now : Nat) :
    Connection :=
  { client := client
    clientReg := none
    device := device
    deviceReg := none
    deviceEndpoint := deviceEndpoint
    c2u := Flow.new .request ⟨some deviceEndpoint, none, none⟩
    u2c := Flow.new .response ⟨none, some restListener, some ownListener⟩
    learnedRest := none
    deadline := now + connectTimeout }

def attachRegistrations (connection : Connection)
    (clientReg deviceReg : RegKey) : Connection :=
  { connection with clientReg := some clientReg, deviceReg := some deviceReg }

def context (connection : Connection) : Direction → DirectionContext
  | .clientToDevice =>
      { source := connection.client
        sourceReg := connection.clientReg
        dest := connection.device
        destReg := connection.deviceReg
        flow := connection.c2u
        learnedRest := connection.learnedRest
        deadline := connection.deadline }
  | .deviceToClient =>
      { source := connection.device
        sourceReg := connection.deviceReg
        dest := connection.client
        destReg := connection.clientReg
        flow := connection.u2c
        learnedRest := connection.learnedRest
        deadline := connection.deadline }

/-- What a context borrowed goes back. -/
def absorb (connection : Connection) (direction : Direction)
    (ctx : DirectionContext) : Connection :=
  let connection := { connection with
    learnedRest := ctx.learnedRest, deadline := ctx.deadline }
  match direction with
  | .clientToDevice => { connection with c2u := ctx.flow }
  | .deviceToClient => { connection with u2c := ctx.flow }

/-- On the device socket's first edge, readable or writable. -/
def finishDeviceConnect (connection : Connection) (world : World) :
    Connection × World × Outcome :=
  match world.ask (.finishConnect connection.device.fd) with
  | (world, true) =>
      ({ connection with
        device := { connection.device with connecting := false }
        deadline := world.now + idleTimeout }, world, .keep)
  | (world, false) => (connection, world, .close)

def closeIfComplete (connection : Connection) (outcome : Outcome) : Outcome :=
  if outcome = .close ∨
      (connection.c2u.state = .done ∧ connection.u2c.state = .done) then
    .close
  else .keep

/-- The reverse of `direction` given up and the registration of its source
taken. -/
def abandon (connection : Connection) : Direction → Connection
  | .clientToDevice => { connection with
      u2c := { connection.u2c with state := .done }
      clientReg := none }
  | .deviceToClient => { connection with
      c2u := { connection.c2u with state := .done }
      deviceReg := none }

/-- `direction`'s source peer hung up: its buffered bytes still drain, the
reverse direction is abandoned and the vanished fd unwatched. -/
def peerGone (connection : Connection) (direction : Direction)
    (world : World) : Except Panic (Connection × World × Outcome) := do
  let ctx := connection.context direction
  let disarmReg ← orPanic
    (.expect "a live destination keeps its registration") ctx.destReg
  let unwatchReg ← orPanic
    (.expect "the hung-up source still has its registration") ctx.sourceReg
  let connection := connection.abandon direction
  let (world, disarmed) := world.ask (.setReadInterest disarmReg false)
  if disarmed then
    let (world, unwatched) := world.ask (.unwatch unwatchReg)
    if unwatched then
      let (ctx, world, outcome) ← (connection.context direction).settle world
      let connection := connection.absorb direction ctx
      if outcome = .close then .ok (connection, world, .close)
      else .ok (connection, world, connection.closeIfComplete .keep)
    else .ok (connection, world, .close)
  else .ok (connection, world, .close)

def forwardOpened (connection : Connection) (direction : Direction)
    (world : World) : Except Panic (Connection × World × Outcome) := do
  let (ctx, world, forwarded) ← (connection.context direction).forward world
  let (ctx, world, outcome) ←
    (match forwarded with
    | .failed => .ok (ctx, world, .close)
    | .sourceEof => ctx.halfClose world
    | .opened => do
        let (world, outcome) ← ctx.syncWriteInterest world
        .ok (ctx, world, outcome))
  let connection := connection.absorb direction ctx
  .ok (connection, world, connection.closeIfComplete outcome)

def forward (connection : Connection) (direction : Direction)
    (world : World) : Except Panic (Connection × World × Outcome) := do
  let (connection, world, connected) :=
    if direction = .deviceToClient ∧ connection.device.connecting then
      connection.finishDeviceConnect world
    else (connection, world, .keep)
  if connected = .close then .ok (connection, world, .close)
  else
    let ctx := connection.context direction
    -- A flow that is not open had its read disarmed, so only a hangup or a
    -- reset wakes it.
    if ctx.flow.state ≠ .opened then
      if ctx.destReg.isNone then .ok (connection, world, .close)
      else connection.peerGone direction world
    else connection.forwardOpened direction world

def onWritable (connection : Connection) (direction : Direction)
    (world : World) : Except Panic (Connection × World × Outcome) := do
  let (connection, world, connected) :=
    if direction = .clientToDevice ∧ connection.device.connecting then
      connection.finishDeviceConnect world
    else (connection, world, .keep)
  if connected = .close then .ok (connection, world, .close)
  else
    let (ctx, world, drained) ← (connection.context direction).drain world
    if drained = .close then
      .ok (connection.absorb direction ctx, world, .close)
    else
      let (ctx, world, outcome) ← ctx.settle world
      let connection := connection.absorb direction ctx
      .ok (connection, world, connection.closeIfComplete outcome)

def readable (connection : Connection) (fd : Nat) (world : World) :
    Except Panic (Connection × World × Outcome) :=
  connection.forward
    (if connection.client.fd = fd then .clientToDevice else .deviceToClient)
    world

def writable (connection : Connection) (fd : Nat) (world : World) :
    Except Panic (Connection × World × Outcome) :=
  connection.onWritable
    (if connection.device.fd = fd then .clientToDevice else .deviceToClient)
    world

end Connection

end Netflector.Reflector.Dial
