import Netflector.Dispatch.Egress
import Netflector.Dispatch.Filter
import Netflector.LinearMap
import Netflector.Reactor.Arena
import Netflector.Reflector.Mdns

/-!
# The reflectors' legs

A simple leg classifies a payload and re-emits it; a search leg keeps a session
for each searcher, so that a unicast reply goes back to the one that asked.
What only the logs read, names and kinds, is left out.
-/

namespace Netflector.Reflector

open Netflector.Foundation
open Netflector.Net
open Netflector.Dispatch
open Netflector.Reactor

inductive MessageType where
  | mdnsQuery
  | mdnsResponse
  | ssdpAdvertisement
  | ssdpSearch
  | ssdpResponse
  | wsdAnnouncement
  | wsdSearch
  | wsdResponse
  | wakeOnLan
  | udpDatagram
  deriving DecidableEq, Repr

inductive Verdict where
  | reflect (type : MessageType)
  /-- A message for the other direction. -/
  | skip (type : MessageType)
  | excluded
  | junk
  deriving DecidableEq, Repr

inductive Outcome where
  | reflected (type : MessageType)
  | skipped (type : MessageType)
  | refused (type : MessageType)
  | dropped (type : MessageType)
  | stalled (type : MessageType)
  | filtered
  deriving DecidableEq, Repr

/-- Where a leg's re-emits go: onto the link, to each peer, or to the one
searcher that asked. -/
inductive Delivery where
  | link
  | peers (addrs : List IpAddr)
  | unicast (searcher : SocketAddr) (mac : MacAddr)
  deriving DecidableEq

/-- The address a datagram to `dst` actually reaches. -/
def Delivery.destination (delivery : Delivery) (dst : IpAddr) :
    Option IpAddr :=
  match delivery with
  | .link => some dst
  | .peers addrs => addrs.find? fun peer => isIpv6 peer = isIpv6 dst
  | .unicast searcher _ => some searcher.ip

/-! ## How a re-emit is stamped -/

inductive SourcePort where
  | fixed (port : UInt16)
  | captured
  deriving DecidableEq

def SourcePort.resolve (port : SourcePort) (packet : Packet) : UInt16 :=
  match port with
  | .fixed port => port
  | .captured => packet.source.port

inductive Source where
  | egress (port : SourcePort)
  | captured
  deriving DecidableEq

def Source.resolve (source : Source) (packet : Packet) : DatagramSource :=
  match source with
  | .egress port => .egress (port.resolve packet)
  | .captured => .exact packet.source

inductive Ttl where
  | fixed (ttl : UInt8)
  | captured
  deriving DecidableEq

def Ttl.resolve (ttl : Ttl) (packet : Packet) : UInt8 :=
  match ttl with
  | .fixed ttl => ttl
  | .captured => packet.ttl

inductive UnicastTo where
  | nowhere
  | broadcast
  | group (v4 : Ipv4Addr) (v6 : Ipv6Addr)
  deriving DecidableEq

structure Emit where
  source : Source
  ttl : Ttl
  unicast : UnicastTo
  deriving DecidableEq

namespace Emit

def fixed (port : UInt16) (ttl : UInt8) : Emit :=
  ⟨.egress (.fixed port), .fixed ttl, .nowhere⟩

def capturedFromEgress : Emit := ⟨.egress .captured, .captured, .nowhere⟩

def reply (ttl : UInt8) : Emit := ⟨.egress .captured, .fixed ttl, .nowhere⟩

def captured : Emit := ⟨.captured, .captured, .nowhere⟩

def unicastToBroadcast (emit : Emit) : Emit :=
  { emit with unicast := .broadcast }

def unicastToGroup (emit : Emit) (v4 : Ipv4Addr) (v6 : Ipv6Addr) : Emit :=
  { emit with unicast := .group v4 v6 }

end Emit

/-- The IPv6 stand-in for the limited broadcast. -/
def v6AllNodes : Ipv6Addr :=
  ⟨[0xff, 0x02, 0, 0, 0, 0, 0, 0, 0, 0, 0, 0, 0, 0, 0, 1], rfl⟩

def limitedBroadcast : Ipv4Addr := ⟨List.replicate 4 255, by simp⟩

/-- A group or the limited broadcast keeps its destination; anything else goes
where `unicast` says. -/
def linkDestination (dest : SocketAddr) (directedBroadcast : Option Ipv4Addr)
    (unicast : UnicastTo) : Option SocketAddr :=
  let keeps :=
    match dest.ip with
    | .v4 addr => addr.isMulticast || addr.isBroadcast
    | .v6 addr => addr.isMulticast
  if keeps then some dest
  else
    match unicast, dest.ip with
    | .nowhere, _ => none
    | .broadcast, .v4 _ =>
        some ⟨.v4 (directedBroadcast.getD limitedBroadcast), dest.port⟩
    | .broadcast, .v6 _ => some ⟨.v6 v6AllNodes, dest.port⟩
    | .group v4 _, .v4 _ => some ⟨.v4 v4, dest.port⟩
    | .group _ v6, .v6 _ => some ⟨.v6 v6, dest.port⟩

/-! ## Handlers -/

/-- What a leg makes of a payload before it is sent: nothing, the allow-list's
judgement, the mDNS response gate, or the DIAL `LOCATION` rewrite for the
devices behind `target`. -/
inductive ReplyRewrite where
  | noRewrite
  | services (filter : Net.Mdns.ServiceFilter)
  | responses (gate : ResponseGate)
  | dial (target : CaptureKey)

/-- Whether a replaced payload still advertises the far link's addresses. -/
def ReplyRewrite.keepsAdvertisedAddresses : ReplyRewrite → Bool
  | .dial _ => false
  | .noRewrite | .services _ | .responses _ => true

structure SimpleReflector where
  egress : CaptureKey
  delivery : Delivery
  classify : Packet → Verdict
  emit : Emit
  rewrite : ReplyRewrite
  suppress : Bytes → Bool

structure SearchProtocol where
  port : UInt16
  ttl : UInt8
  groupV4 : Ipv4Addr
  groupsV6 : List Ipv6Addr
  responseType : MessageType
  announcementVerdict : Bytes → Verdict
  searchVerdict : Bytes → Verdict
  /-- A search's session lifetime, from its payload. -/
  window : Bytes → Nat
  suppress : Bytes → Bool

/-- So that a burst of searchers cannot exhaust the ephemeral ports. -/
def maxSessions : Nat := 64

structure SessionKey where
  searcher : SocketAddr
  dest : SocketAddr
  deriving DecidableEq

/-- One search in flight.  `boundTo` is the index its target was bound to when
it was opened; nothing reads it. -/
structure Session where
  expiry : Nat
  reservation : SocketAddr
  responseKey : Key
  boundTo : Option Nat
  deriving DecidableEq

/-- `makeReply` is the transform of each session's replies. -/
structure SearchReflector where
  source : CaptureKey
  target : CaptureKey
  delivery : Delivery
  deviceMacs : Option (List MacAddr)
  protocol : SearchProtocol
  makeReply : ReplyRewrite
  sessions : LinearMap SessionKey Session

inductive Leg where
  | simple (reflector : SimpleReflector)
  | search (reflector : SearchReflector)

/-- A leg as it is registered.  `creator` is the registration whose call made
it, if one did; nothing reads it. -/
structure PacketHandler where
  leg : Leg
  creator : Option Key

namespace SearchReflector

def nextDeadline (reflector : SearchReflector) : Option Nat :=
  (reflector.sessions.entries.map (·.2.expiry)).min?

end SearchReflector

def PacketHandler.nextDeadline (handler : PacketHandler) : Option Nat :=
  match handler.leg with
  | .simple _ => none
  | .search reflector => reflector.nextDeadline

end Netflector.Reflector
