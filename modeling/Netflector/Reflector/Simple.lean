import Netflector.Dispatch.Dispatcher
import Netflector.Reflector.Dial.Rewrite

/-!
# The simple reflector

Classify the payload and, if it is a message for this leg, re-emit it on the
egress, as captured or as the leg's rewrite decides.
-/

namespace Netflector.Reflector

open Netflector.Foundation
open Netflector.Net
open Netflector.Reactor
open Netflector.Dispatch

/-- What the calls a handler makes for a packet answer: the clock, the captures
to the frames, a port to reserve and the calls of a mint. -/
structure PacketCalls where
  now : Nat
  inject : Nat → Nat → Except Errno Unit
  reserve : Except Errno UInt16
  mint : Dial.MintCalls

def Delivery.send (digest : MacAddr → Datagram → UInt64)
    (inject : Nat → Nat → Except Errno Unit) (delivery : Delivery)
    (dispatcher : PacketDispatcher) (egress : CaptureKey) (dst : SocketAddr)
    (source : DatagramSource) (ttl : UInt8) (payload : Bytes) :
    Except Panic (PacketDispatcher × Except SendError Unit) :=
  match delivery with
  | .link =>
      dispatcher.afterSend (dispatcher.egress.sendUdpGroup digest (inject 0)
        dispatcher.table egress ⟨dst, source, ttl, payload⟩)
  | .peers addrs =>
      dispatcher.afterSend (dispatcher.egress.sendUdpToPeers digest inject
        dispatcher.table egress addrs ⟨dst, source, ttl, payload⟩)
  | .unicast searcher mac =>
      dispatcher.afterSend (dispatcher.egress.sendUdp digest (inject 0)
        dispatcher.table egress mac ⟨searcher, source, ttl, payload⟩)

def interfaceNameOf (table : InterfaceTable) (capture : CaptureKey) :
    Option InterfaceName :=
  (table.interfaceOf capture).bind fun interface =>
    (table.entry interface).map (·.interface.name)

/-- The placement of a proxy between the egress and the devices' side, while
both have an IPv4 address. -/
def placementFor (table : InterfaceTable) (egress target : CaptureKey) :
    Option Dial.ProxyPlacement := do
  let source ← (table.egressAddrs egress).bind (·.v4)
  let address ← (table.egressAddrs target).bind (·.v4)
  some ⟨egress, source, target, address, interfaceNameOf table target⟩

def ReplyRewrite.rewrite (calls : PacketCalls) (rewrite : ReplyRewrite)
    (packet : Packet) (egress : CaptureKey) (daemon : Daemon) :
    Except Panic (Daemon × Rewrite) :=
  match rewrite with
  | .noRewrite => .ok (daemon, .verbatim)
  | .services filter =>
      .ok (daemon, ServiceGate.judge filter packet.payload)
  | .responses gate => .ok (daemon, gate.judge packet.payload)
  | .dial target =>
      match placementFor daemon.dispatcher.table egress target with
      | none => .ok (daemon, .verbatim)
      | some placement => do
          let (context, reactor, rewritten) ← Dial.rewriteLocation calls.mint
            calls.now daemon.dispatcher.dial daemon.reactor packet.payload
            placement
          .ok (⟨{ daemon.dispatcher with dial := context }, reactor⟩,
            match rewritten with
            | some payload => .replaced payload
            | none => .verbatim)

namespace SimpleReflector

def destination (reflector : SimpleReflector) (packet : Packet)
    (dispatcher : PacketDispatcher) : Option SocketAddr :=
  match reflector.delivery with
  | .unicast searcher _ => some searcher
  | .link | .peers _ =>
      linkDestination packet.dest
        ((dispatcher.table.egressAddrs reflector.egress).bind
          (·.v4DirectedBroadcast)) reflector.emit.unicast

def emitTo (digest : MacAddr → Datagram → UInt64) (calls : PacketCalls)
    (reflector : SimpleReflector) (packet : Packet) (type : MessageType)
    (dest : SocketAddr) (payload : Bytes) (checked : Bool)
    (daemon : Daemon) : Except Panic (Daemon × Outcome) :=
  if checked && reflector.suppress payload then .ok (daemon, .dropped type)
  else do
    let (dispatcher, sent) ← reflector.delivery.send digest calls.inject
      daemon.dispatcher reflector.egress dest
      (reflector.emit.source.resolve packet)
      (reflector.emit.ttl.resolve packet) payload
    .ok ({ daemon with dispatcher := dispatcher },
      match sent with
      | .ok () => .reflected type
      | .error _ => .dropped type)

def onPacket (digest : MacAddr → Datagram → UInt64) (calls : PacketCalls)
    (reflector : SimpleReflector) (packet : Packet) (daemon : Daemon) :
    Except Panic (Daemon × Outcome) :=
  match reflector.classify packet with
  | .skip type => .ok (daemon, .skipped type)
  | .excluded => .ok (daemon, .filtered)
  | .junk => .ok (daemon, .filtered)
  | .reflect type =>
      if reflector.delivery.destination packet.dest.ip = none then
        .ok (daemon, .filtered)
      else
        match reflector.destination packet daemon.dispatcher with
        | none => .ok (daemon, .filtered)
        | some dest =>
            if daemon.dispatcher.egressSources reflector.egress dest then do
              let (daemon, rewritten) ← reflector.rewrite.rewrite calls packet
                reflector.egress daemon
              match rewritten with
              | .verbatim =>
                  reflector.emitTo digest calls packet type dest
                    packet.payload true daemon
              | .replaced payload =>
                  reflector.emitTo digest calls packet type dest payload
                    reflector.rewrite.keepsAdvertisedAddresses daemon
              | .refused => .ok (daemon, .refused type)
              | .unreadable => .ok (daemon, .dropped type)
            else .ok (daemon, .stalled type)

end SimpleReflector

end Netflector.Reflector
