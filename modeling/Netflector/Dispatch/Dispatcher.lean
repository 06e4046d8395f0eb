import Netflector.Dispatch.DialContext
import Netflector.Dispatch.Lifecycle
import Netflector.Dispatch.Routing
import Netflector.Reflector.Dial.Proxy
import Netflector.Reflector.Leg

/-!
# The packet dispatcher's state

What the dispatcher owns, and what a handler asks of it while it is called.
-/

namespace Netflector.Dispatch

open Netflector.Foundation
open Netflector.Net
open Netflector.Reactor
open Netflector.Reflector

/-- An interval of zero disables the report. -/
structure CounterReport where
  interval : Nat
  next : Nat
  positive : 0 < interval

structure PacketDispatcher where
  table : InterfaceTable
  registrations : Arena (Registration PacketHandler)
  lifecycle : InterfaceLifecycle
  dial : DialContext
  egress : Egress
  reassembly : Reassembler
  report : Option CounterReport

structure Daemon where
  dispatcher : PacketDispatcher
  reactor : Reactor Dial.Service

namespace PacketDispatcher

def register (dispatcher : PacketDispatcher) (ingress : CaptureKey)
    (filter : Filter) (handler : PacketHandler) :
    Except Panic (PacketDispatcher × Key) := do
  let (registrations, key) ←
    dispatcher.registrations.insert ⟨ingress, filter, some handler⟩
  .ok ({ dispatcher with registrations := registrations }, key)

/-- A stale key is a no-op. -/
def unregister (dispatcher : PacketDispatcher) (key : Key) :
    PacketDispatcher :=
  { dispatcher with
    registrations := (dispatcher.registrations.remove key).1 }

def takeHandler (dispatcher : PacketDispatcher) (key : Key) :
    PacketDispatcher × Option PacketHandler :=
  match dispatcher.registrations.get key with
  | none => (dispatcher, none)
  | some registration =>
      ({ dispatcher with
          registrations := dispatcher.registrations.set key
            { registration with handler := none } },
        registration.handler)

/-- A no-op for a registration removed during its own call. -/
def restoreHandler (dispatcher : PacketDispatcher) (key : Key)
    (handler : PacketHandler) : PacketDispatcher :=
  match dispatcher.registrations.get key with
  | none => dispatcher
  | some registration =>
      { dispatcher with
        registrations := dispatcher.registrations.set key
          { registration with handler := some handler } }

def replySource (dispatcher : PacketDispatcher) (target : CaptureKey)
    (dest : IpAddr) : Option IpAddr :=
  match dest with
  | .v4 _ =>
      (dispatcher.table.egressAddrs target).bind fun addrs =>
        addrs.v4.map IpAddr.v4
  | .v6 dst =>
      (dispatcher.table.egressAddrs target).bind fun addrs =>
        (addrs.v6 (.of dst)).map IpAddr.v6

def egressSources (dispatcher : PacketDispatcher) (egress : CaptureKey)
    (dst : SocketAddr) : Bool :=
  (dispatcher.table.egressAddrs egress).any fun addrs =>
    match dst.ip with
    | .v4 _ => addrs.v4.isSome
    | .v6 _ => addrs.v6Any.isSome

def afterSend (dispatcher : PacketDispatcher) (sent : SendResult) :
    Except Panic (PacketDispatcher × Except SendError Unit) :=
  let dispatcher :=
    { dispatcher with egress := sent.egress, table := sent.table }
  match sent.result with
  | .ok () => .ok (dispatcher, .ok ())
  | .error (.error error) => .ok (dispatcher, .error error)
  | .error (.panic panic) => .error panic

end PacketDispatcher

end Netflector.Dispatch
