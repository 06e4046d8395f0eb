import Netflector.Config.Reflector
import Netflector.Net.Groups

/-!
# Conflicting entries

No two entries may reflect the same packet twice.  Each is expanded into the
classes of datagrams it relays, and two entries conflict where a datagram is in
a class of each.
-/

namespace Netflector.Config

open Netflector.Net
open Netflector.Dispatch

inductive Protocol where
  | wol
  | mdns
  | ssdp
  | wsd
  | udp
  deriving DecidableEq, Repr

inductive ParseValueError where
  | logLevel
  | logTarget
  | addressFamily
  | macs
  | services
  | interface
  | ports
  | addresses
  | reflectorName
  | runAs
  | bool
  | integer
  deriving DecidableEq

inductive RequiredField where
  | sourceIf
  | targetIf
  deriving DecidableEq

inductive ConfigError where
  | noReflectors
  | emptyReflectorName (key : Text)
  | sameInterface (name : ReflectorName) (value : InterfaceName)
  | noProtocol (name : ReflectorName)
  | udpRelayWithoutPorts (name : ReflectorName)
  | udpRelayNoDestination (name : ReflectorName)
  | udpGroupFamily (name : ReflectorName) (group : IpAddr)
  | peerFamily (name : ReflectorName) (peer : IpAddr)
  | udpBroadcastFamily (name : ReflectorName)
  | udpRelayDuplicates (name : ReflectorName) (port : UInt16)
      (protocol : Protocol)
  | wolPortsWithoutWol (name : ReflectorName)
  | mdnsServicesWithoutMdns (name : ReflectorName)
  | macsUnused (name : ReflectorName)
  | dialWithoutSsdp (name : ReflectorName)
  | dialRequiresIpv4 (name : ReflectorName)
  | duplicateReflectorName (name : ReflectorName)
  | conflictingReflectors (protocol : Protocol) (first second : ReflectorName)
      (ingress egress : InterfaceName)
  | ipv6OnlyRelay (name : ReflectorName)
  | ipv6OnlyPeers (name : ReflectorName) (field : String)
  | duplicateReflector (tag : Text)
  | envMalformedVar (var : Text)
  | envInvalidTag (var tag : Text)
  | envReservedTag (var : Text)
  | envUnknownParam (var param : Text)
  | envDuplicateParam (var param : Text)
  | envBadValue (var value : Text) (source : ParseValueError)
  | envMissingField (name : Text) (field : RequiredField)
  | intervalTooLarge (field : String) (secs max : Nat)
  deriving DecidableEq

/-! ## Flows -/

def familiesOverlap (first second : AddressFamily) : Bool :=
  (first.usesIpv4 && second.usesIpv4) || (first.usesIpv6 && second.usesIpv6)

def macsOverlap (first second : Option MacSet) : Bool :=
  match first, second with
  | some first, some second =>
      first.items.any fun mac => second.items.contains mac
  | _, _ => true

inductive Reach where
  /-- The Wake-on-LAN filter pins the port alone. -/
  | any (family : AddressFamily)
  | group (addr : IpAddr)
  /-- The limited broadcast and the segment's directed one. -/
  | broadcast
  deriving DecidableEq

def Reach.overlaps : Reach → Reach → Bool
  | .any first, .any second => familiesOverlap first second
  | .any family, .group addr => family.uses addr
  | .group addr, .any family => family.uses addr
  | .any family, .broadcast => family.usesIpv4
  | .broadcast, .any family => family.usesIpv4
  | .group first, .group second => first = second
  | .broadcast, .broadcast => true
  | .group _, .broadcast => false
  | .broadcast, .group _ => false

abbrev Leg : Type := InterfaceName × InterfaceName

/-- The datagrams to `port` and `reach` that arrive on `ingress` and leave on
`egress`. -/
structure Flow where
  protocol : Protocol
  ingress : InterfaceName
  egress : InterfaceName
  port : UInt16
  reach : Reach
  deriving DecidableEq

def Flow.overlaps (flow other : Flow) : Bool :=
  flow.ingress = other.ingress && flow.egress = other.egress &&
    flow.port = other.port && flow.reach.overlaps other.reach

def groupItems (groups : Option GroupList) : List IpAddr :=
  match groups with
  | some groups => groups.items
  | none => []

def UdpRelay.destinations (udp : UdpRelay) : List (UInt16 × Reach) :=
  udp.ports.items.flatMap fun port =>
    ((groupItems udp.groups).map fun group => (port.get, Reach.group group)) ++
      if udp.broadcast then [(port.get, .broadcast)] else []

namespace Reflector

def directions (reflector : Reflector) : List Leg :=
  (reflector.sourceIf, reflector.targetIf) ::
    if reflector.bidirectional then [(reflector.targetIf, reflector.sourceIf)]
    else []

/-- Discovery flows both ways whatever the entry's direction. -/
def discovery (reflector : Reflector) (protocol : Protocol) (port : UInt16)
    (groups : List IpAddr) : List Flow :=
  (groups.filter reflector.addressFamily.uses).flatMap fun group =>
    [⟨protocol, reflector.sourceIf, reflector.targetIf, port, .group group⟩,
      ⟨protocol, reflector.targetIf, reflector.sourceIf, port, .group group⟩]

def directed (reflector : Reflector) (leg : Leg) : List Flow :=
  (match reflector.wol with
    | some wol => wol.ports.items.map fun port =>
        ⟨.wol, leg.1, leg.2, port.get, .any reflector.addressFamily⟩
    | none => []) ++
    match reflector.udp with
    | some udp => udp.destinations.map fun destination =>
        ⟨.udp, leg.1, leg.2, destination.1, destination.2⟩
    | none => []

def flows (reflector : Reflector) : List Flow :=
  (if reflector.mdns.isSome then
    reflector.discovery .mdns Mdns.mdnsPort
      [.v4 Mdns.mdnsGroupV4, .v6 Mdns.mdnsGroupV6]
  else []) ++
  (if reflector.ssdp.isSome then
    reflector.discovery .ssdp Ssdp.ssdpPort
      [.v4 Ssdp.ssdpGroupV4, .v6 Ssdp.ssdpGroupV6LinkLocal,
        .v6 Ssdp.ssdpGroupV6SiteLocal]
  else []) ++
  (if reflector.wsd then
    reflector.discovery .wsd Wsd.wsdPort
      [.v4 Wsd.wsdGroupV4, .v6 Wsd.wsdGroupV6]
  else []) ++
  reflector.directions.flatMap reflector.directed

/-! ## Conflicts -/

/-- The first protocol that both entries reflect, apart from the relay. -/
def commonProtocol (reflector other : Reflector) : Option Protocol :=
  if reflector.wol.any fun wol => other.wol.any fun theirs =>
      wol.ports.items.any fun port => theirs.ports.items.contains port then
    some .wol
  else if reflector.mdns.isSome && other.mdns.isSome then some .mdns
  else if reflector.ssdp.isSome && other.ssdp.isSome then some .ssdp
  else if reflector.wsd && other.wsd then some .wsd
  else none

def sharedProtocol (reflector other : Reflector) : Option (Protocol × Leg) :=
  match reflector.directions.find? fun mine =>
      other.directions.any fun theirs => theirs = mine with
  | none => none
  | some leg =>
      if !macsOverlap reflector.macs other.macs ||
          !familiesOverlap reflector.addressFamily other.addressFamily then
        none
      else (reflector.commonProtocol other).map fun protocol => (protocol, leg)

def relayOverlap (reflector : Reflector) (others : List Flow) : Option Flow :=
  let relay := reflector.flows.filter fun flow => flow.protocol = .udp
  others.find? fun other => relay.any fun mine => mine.overlaps other

def relayDuplicates (reflector : Reflector) : Option (Protocol × UInt16) :=
  (reflector.relayOverlap (reflector.flows.filter fun flow =>
    flow.protocol ≠ .udp)).map fun flow => (flow.protocol, flow.port)

/-- The relay admits everything it captures, so it duplicates any protocol on
the same leg. -/
def conflictsWith (reflector other : Reflector) : Option (Protocol × Leg) :=
  (reflector.sharedProtocol other).or
    (((reflector.relayOverlap other.flows).or
      (other.relayOverlap reflector.flows)).map fun flow =>
        (flow.protocol, flow.ingress, flow.egress))

end Reflector

def checkAgainst (reflector : Reflector) :
    List Reflector → Except ConfigError Unit
  | [] => .ok ()
  | other :: rest =>
      if reflector.name = other.name then
        .error (.duplicateReflectorName reflector.name)
      else
        match reflector.conflictsWith other with
        | some (protocol, ingress, egress) =>
            .error (.conflictingReflectors protocol reflector.name other.name
              ingress egress)
        | none => checkAgainst reflector rest

def checkConflicts : List Reflector → Except ConfigError Unit
  | [] => .ok ()
  | reflector :: rest => do
      checkAgainst reflector rest
      checkConflicts rest

end Netflector.Config
