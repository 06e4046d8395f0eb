import Netflector.Reflector.Build
import Mathlib.Data.List.Pairwise

/-!
# What the conflict rule covers

The validation reasons on flows: a port and a group, the broadcasts or any
address.  The dispatcher matches on filters.  Every packet that a registration
carries is in a flow of its entry, but for an mDNS answer that is sent to this
host; and two flows that share a packet overlap, but for a group that is also
the segment's broadcast.  So these are the packets that cross a leg twice.
-/

namespace Netflector.Reflector

open Netflector.Foundation
open Netflector.Net
open Netflector.Config
open Netflector.Dispatch

def Leg.verdict (leg : Leg) (packet : Packet) : Verdict :=
  match leg with
  | .simple reflector => reflector.classify packet
  | .search reflector => reflector.protocol.searchVerdict packet.payload

namespace Registered

def reflects (item : Registered) (packet : Packet) : Prop :=
  ∃ handler type, item.registration.handler = some handler ∧
    handler.leg.verdict packet = .reflect type

def Carries (addrs : Option InterfaceAddresses) (packet : Packet)
    (item : Registered) : Prop :=
  item.registration.filter.matches packet addrs = true ∧
    item.reflects packet

/-- One of them is the relay's, and both carry the packet over one leg. -/
structure Doubles (addrs : Option InterfaceAddresses) (packet : Packet)
    (first second : Registered) : Prop where
  ingress : first.ingress = second.ingress
  egress : first.egress = second.egress
  relay : first.protocol = .udp ∨ second.protocol = .udp
  first : first.Carries addrs packet
  second : second.Carries addrs packet

end Registered

/-- No datagram crosses a leg through the relay and a second time. -/
def RelayedOnce (captures : InterfaceName → CaptureKey) (config : Config)
    (addrs : Option InterfaceAddresses) (packet : Packet) : Prop :=
  (registered captures config).Pairwise fun first second =>
    ¬ first.Doubles addrs packet second

def isBroadcast (addrs : Option InterfaceAddresses) (packet : Packet) : Bool :=
  packet.isBroadcast (addrs.bind (·.v4DirectedBroadcast))

/-! ## What the sides of the entries take -/

def sidesOf (config : Config) : List Reflector :=
  config.reflectors.flatMap Reflector.sides

def macAdmits (macs : Option (List MacAddr)) (packet : Packet) : Bool :=
  noneOr macs fun set =>
    match packet.srcMac with
    | some mac => set.contains mac
    | none => false

def RelaysGroup (packet : Packet) (side : Reflector) : Prop :=
  ∃ udp, side.udp = some udp ∧ packet.dest.ip ∈ groupItems udp.groups ∧
    packet.dest.port ∈ udp.ports.items.map (·.get)

def RelaysBroadcast (addrs : Option InterfaceAddresses) (packet : Packet)
    (side : Reflector) : Prop :=
  ∃ udp, side.udp = some udp ∧ udp.broadcast = true ∧
    isBroadcast addrs packet = true ∧
    packet.dest.port ∈ udp.ports.items.map (·.get)

/-- A search goes from the source to the target and an announcement back. -/
inductive TakesPair (packet : Packet) (side : Reflector)
    (protocol : SearchProtocol) : InterfaceName → InterfaceName → Prop where
  | search (type : MessageType)
      (hdest : packet.dest.ip ∈ protocol.groups side.addressFamily)
      (hport : packet.dest.port = protocol.port)
      (hverdict : protocol.searchVerdict packet.payload = .reflect type) :
      TakesPair packet side protocol side.sourceIf side.targetIf
  | announcement (type : MessageType)
      (hdest : packet.dest.ip ∈ protocol.groups side.addressFamily)
      (hport : packet.dest.port = protocol.port)
      (hmacs : macAdmits (macItems side.macs) packet = true)
      (hverdict : protocol.announcementVerdict packet.payload =
        .reflect type) :
      TakesPair packet side protocol side.targetIf side.sourceIf

inductive TakesGroup (packet : Packet) (side : Reflector) :
    InterfaceName → InterfaceName → Prop where
  | relay (h : RelaysGroup packet side) :
      TakesGroup packet side side.sourceIf side.targetIf
  | query (hmdns : side.mdns.isSome = true)
      (hdest : packet.dest.ip ∈ mdnsGroups side.addressFamily)
      (hport : packet.dest.port = Mdns.mdnsPort)
      (hkind : Mdns.classify packet.payload = some .query) :
      TakesGroup packet side side.sourceIf side.targetIf
  | response (hmdns : side.mdns.isSome = true)
      (hdest : packet.dest.ip ∈ mdnsGroups side.addressFamily)
      (hsrc : packet.source.port = Mdns.mdnsPort)
      (hport : packet.dest.port = Mdns.mdnsPort)
      (hmacs : macAdmits (macItems side.macs) packet = true)
      (hkind : Mdns.classify packet.payload = some .response) :
      TakesGroup packet side side.targetIf side.sourceIf
  | ssdp (hssdp : side.ssdp.isSome = true) {ingress egress : InterfaceName}
      (h : TakesPair packet side SSDP ingress egress) :
      TakesGroup packet side ingress egress
  | wsd (hwsd : side.wsd = true) {ingress egress : InterfaceName}
      (h : TakesPair packet side WSD ingress egress) :
      TakesGroup packet side ingress egress

/-- The side's mDNS takes the packet as an answer sent to this host. -/
structure AnswersHere (addrs : Option InterfaceAddresses) (packet : Packet)
    (side : Reflector) : Prop where
  mdns : side.mdns.isSome = true
  own : addrs.any (·.has packet.dest.ip) = true
  uses : side.addressFamily.uses packet.dest.ip = true
  srcPort : packet.source.port = Mdns.mdnsPort
  dstPort : packet.dest.port = Mdns.mdnsPort
  macs : macAdmits (macItems side.macs) packet = true
  response : Mdns.classify packet.payload = some .response

/-- The two ways past the validation, each on one leg: a group that is also the
segment's broadcast, taken as either, and an answer sent to this host that a
relay takes as well. -/
inductive Exposed (config : Config) (addrs : Option InterfaceAddresses)
    (packet : Packet) : Prop where
  | broadcast (side other : Reflector) (hside : side ∈ sidesOf config)
      (hother : other ∈ sidesOf config)
      (hrelay : RelaysBroadcast addrs packet side)
      (hgroup : TakesGroup packet other side.sourceIf side.targetIf)
  | answer (side other : Reflector) (hside : side ∈ sidesOf config)
      (hother : other ∈ sidesOf config)
      (hrelay : RelaysGroup packet side ∨ RelaysBroadcast addrs packet side)
      (hanswers : AnswersHere addrs packet other)
      (hingress : other.targetIf = side.sourceIf)
      (hegress : other.sourceIf = side.targetIf)

/-! ## Flows -/

/-- How the side takes the packet between the two interfaces, as the reach of a
flow. -/
inductive Reaches (addrs : Option InterfaceAddresses) (packet : Packet)
    (side : Reflector) : Reach → InterfaceName → InterfaceName → Prop where
  | any (family : AddressFamily) (huses : family.uses packet.dest.ip = true)
      {ingress egress : InterfaceName} :
      Reaches addrs packet side (.any family) ingress egress
  | group {ingress egress : InterfaceName}
      (h : TakesGroup packet side ingress egress) :
      Reaches addrs packet side (.group packet.dest.ip) ingress egress
  | broadcast (h : RelaysBroadcast addrs packet side) :
      Reaches addrs packet side .broadcast side.sourceIf side.targetIf

theorem isBroadcast_v4 {addrs : Option InterfaceAddresses} {packet : Packet}
    (h : isBroadcast addrs packet = true) :
    ∃ addr, packet.dest.ip = .v4 addr := by
  cases hip : packet.dest.ip with
  | v4 addr => exact ⟨addr, rfl⟩
  | v6 addr => simp [isBroadcast, Packet.isBroadcast, hip] at h

theorem uses_broadcast {addrs : Option InterfaceAddresses} {packet : Packet}
    {family : AddressFamily} (hbroadcast : isBroadcast addrs packet = true)
    (huses : family.uses packet.dest.ip = true) : family.usesIpv4 = true := by
  obtain ⟨addr, hip⟩ := isBroadcast_v4 hbroadcast
  rw [hip] at huses
  exact huses

theorem Reaches.overlaps {config : Config} {addrs : Option InterfaceAddresses}
    {packet : Packet} {side other : Reflector} (hside : side ∈ sidesOf config)
    (hother : other ∈ sidesOf config) {first second : Reach}
    {ingress egress : InterfaceName}
    (hfirst : Reaches addrs packet side first ingress egress)
    (hsecond : Reaches addrs packet other second ingress egress) :
    first.overlaps second = true ∨ Exposed config addrs packet := by
  cases hfirst with
  | any family huses =>
      left
      cases hsecond with
      | any other huses' =>
          simp only [Reach.overlaps, familiesOverlap, Bool.or_eq_true,
            Bool.and_eq_true]
          cases hip : packet.dest.ip with
          | v4 addr =>
              rw [hip] at huses huses'
              exact .inl ⟨huses, huses'⟩
          | v6 addr =>
              rw [hip] at huses huses'
              exact .inr ⟨huses, huses'⟩
      | group _ => exact huses
      | broadcast h =>
          obtain ⟨_, _, _, hbroadcast, _⟩ := h
          exact uses_broadcast hbroadcast huses
  | group htakes =>
      cases hsecond with
      | any family huses => exact .inl huses
      | group _ => exact .inl (by simp [Reach.overlaps])
      | broadcast h => exact .inr (.broadcast other side hother hside h htakes)
  | broadcast hrelay =>
      generalize hingress : side.sourceIf = ingress at hsecond
      generalize hegress : side.targetIf = egress at hsecond
      cases hsecond with
      | any family huses =>
          obtain ⟨_, _, _, hbroadcast, _⟩ := hrelay
          exact .inl (uses_broadcast hbroadcast huses)
      | group htakes =>
          subst hingress hegress
          exact .inr (.broadcast side other hside hother hrelay htakes)
      | broadcast _ => exact .inl rfl

theorem relayOverlap_none {reflector : Reflector} {others : List Flow}
    (h : reflector.relayOverlap others = none) {mine other : Flow}
    (hmine : mine ∈ reflector.flows) (hudp : mine.protocol = .udp)
    (hother : other ∈ others) : mine.overlaps other = false := by
  unfold Reflector.relayOverlap at h
  have hnone := List.find?_eq_none.mp h other hother
  simp only [List.any_eq_true, List.mem_filter, decide_eq_true_eq,
    not_exists, not_and] at hnone
  simpa using hnone mine ⟨hmine, hudp⟩

theorem mem_groupAddrs {family : AddressFamily} {port : UInt16}
    {v4 : Ipv4Addr} {v6 : List Ipv6Addr} {ip : IpAddr} :
    ip ∈ (groupAddrs family port v4 v6).map (·.ip) ↔
      ip ∈ IpAddr.v4 v4 :: v6.map .v6 ∧ family.uses ip = true := by
  cases ip with
  | v4 addr =>
      cases hv4 : family.usesIpv4 <;> cases hv6 : family.usesIpv6 <;>
        simp [groupAddrs, AddressFamily.uses, hv4, hv6]
  | v6 addr =>
      cases hv4 : family.usesIpv4 <;> cases hv6 : family.usesIpv6 <;>
        simp [groupAddrs, AddressFamily.uses, hv4, hv6]

section Side

variable {reflector : Reflector}

theorem mem_discovery {protocol : Protocol} {port : UInt16}
    {groups : List IpAddr} {flow : Flow} :
    flow ∈ reflector.discovery protocol port groups ↔
      ∃ group ∈ groups, reflector.addressFamily.uses group = true ∧
        (flow = ⟨protocol, reflector.sourceIf, reflector.targetIf, port,
            .group group⟩ ∨
          flow = ⟨protocol, reflector.targetIf, reflector.sourceIf, port,
            .group group⟩) := by
  simp only [Reflector.discovery, List.mem_flatMap, List.mem_filter,
    List.mem_cons, List.not_mem_nil, or_false]
  constructor
  · rintro ⟨group, ⟨hmem, huses⟩, hflow⟩
    exact ⟨group, hmem, huses, hflow⟩
  · rintro ⟨group, hmem, huses, hflow⟩
    exact ⟨group, ⟨hmem, huses⟩, hflow⟩

theorem mem_flows {flow : Flow} :
    flow ∈ reflector.flows ↔
      (reflector.mdns.isSome = true ∧
        flow ∈ reflector.discovery .mdns Mdns.mdnsPort
          [.v4 Mdns.mdnsGroupV4, .v6 Mdns.mdnsGroupV6]) ∨
      (reflector.ssdp.isSome = true ∧
        flow ∈ reflector.discovery .ssdp Ssdp.ssdpPort
          [.v4 Ssdp.ssdpGroupV4, .v6 Ssdp.ssdpGroupV6LinkLocal,
            .v6 Ssdp.ssdpGroupV6SiteLocal]) ∨
      (reflector.wsd = true ∧
        flow ∈ reflector.discovery .wsd Wsd.wsdPort
          [.v4 Wsd.wsdGroupV4, .v6 Wsd.wsdGroupV6]) ∨
      ∃ leg ∈ reflector.directions, flow ∈ reflector.directed leg := by
  simp only [Reflector.flows, List.mem_append, List.mem_ite_nil_right,
    List.mem_flatMap, or_assoc]

theorem side_flows {side : Reflector} (hside : side ∈ reflector.sides)
    {flow : Flow} (h : flow ∈ side.flows) : flow ∈ reflector.flows := by
  unfold Reflector.sides at hside
  split at hside
  · rename_i hboth
    rcases List.mem_cons.mp hside with rfl | hside
    · exact h
    rw [List.mem_singleton.mp hside] at h
    have hdiscovery : ∀ protocol port groups,
        flow ∈ reflector.reversed.discovery protocol port groups →
        flow ∈ reflector.discovery protocol port groups := by
      intro protocol port groups hflow
      obtain ⟨group, hmem, huses, hflow⟩ := mem_discovery.mp hflow
      exact mem_discovery.mpr ⟨group, hmem, huses, hflow.symm⟩
    rcases mem_flows.mp h with ⟨hon, h⟩ | ⟨hon, h⟩ | ⟨hon, h⟩ | h
    · exact mem_flows.mpr (.inl ⟨hon, hdiscovery _ _ _ h⟩)
    · exact mem_flows.mpr (.inr (.inl ⟨hon, hdiscovery _ _ _ h⟩))
    · exact mem_flows.mpr (.inr (.inr (.inl ⟨hon, hdiscovery _ _ _ h⟩)))
    · obtain ⟨leg, hleg, hflow⟩ := h
      refine mem_flows.mpr (.inr (.inr (.inr ⟨leg, ?_, hflow⟩)))
      simp only [Reflector.directions, Reflector.reversed, hboth, if_true,
        List.mem_cons, List.not_mem_nil, or_false] at hleg ⊢
      exact hleg.symm
  · rw [List.mem_singleton.mp hside] at h
    exact h

end Side

/-! ## Filters -/

section Filters

variable {addrs : Option InterfaceAddresses} {packet : Packet}
  {groups : List IpAddr} {ports : List UInt16}

theorem matches_ports :
    ({ Filter.any with dstPort := some ports } : Filter).matches packet
      addrs = true ↔ packet.dest.port ∈ ports := by
  simp [Filter.matches, Filter.any, noneOr]

theorem matches_groups :
    ({ Filter.any with
        dstIp := some groups
        dstPort := some ports } : Filter).matches packet addrs = true ↔
      packet.dest.ip ∈ groups ∧ packet.dest.port ∈ ports := by
  simp [Filter.matches, Filter.any, noneOr, Filter.acceptsDst]

theorem matches_announced {macs : Option (List MacAddr)} :
    ({ Filter.any with
        dstIp := some groups
        dstPort := some ports
        srcMac := macs } : Filter).matches packet addrs = true ↔
      packet.dest.ip ∈ groups ∧ packet.dest.port ∈ ports ∧
        macAdmits macs packet = true := by
  cases hmac : packet.srcMac <;>
    simp [Filter.matches, Filter.any, noneOr, Filter.acceptsDst, macAdmits,
      hmac, and_assoc]

theorem matches_responses {macs : Option (List MacAddr)} {port : UInt16}
    {family : AddressFamily} :
    ({ Filter.any with
        srcPort := some port
        dstIp := some groups
        dstPort := some ports
        srcMac := macs
        dstOwn := some family } : Filter).matches packet addrs = true ↔
      (packet.dest.ip ∈ groups ∨
        family.uses packet.dest.ip = true ∧
          addrs.any (·.has packet.dest.ip) = true) ∧
        packet.source.port = port ∧ packet.dest.port ∈ ports ∧
        macAdmits macs packet = true := by
  cases addrs <;> cases hmac : packet.srcMac <;>
    simp [Filter.matches, Filter.any, noneOr, Filter.acceptsDst, macAdmits,
      hmac, and_assoc]

theorem matches_broadcasts :
    ({ Filter.any with
        broadcast := true
        dstPort := some ports } : Filter).matches packet addrs = true ↔
      isBroadcast addrs packet = true ∧ packet.dest.port ∈ ports := by
  simp [Filter.matches, Filter.any, noneOr, isBroadcast]

end Filters

/-! ## What a registration carries is in a flow -/

structure Lies (addrs : Option InterfaceAddresses) (packet : Packet)
    (side : Reflector) (item : Registered) (flow : Flow) : Prop where
  protocol : flow.protocol = item.protocol
  ingress : flow.ingress = item.ingress
  egress : flow.egress = item.egress
  port : flow.port = packet.dest.port
  reach : Reaches addrs packet side flow.reach item.ingress item.egress

theorem directional_reflect {Kind : Type} [DecidableEq Kind]
    {typeOf : Kind → MessageType} {kind : Option Kind} {reflect : Kind}
    {type : MessageType}
    (h : directionalVerdict typeOf kind reflect = .reflect type) :
    kind = some reflect := by
  unfold directionalVerdict at h
  split at h
  · split at h
    · rename_i hkind
      rw [hkind]
    · cases h
  · cases h

section Carried

variable {addrs : Option InterfaceAddresses} {packet : Packet}
  {source target : CaptureKey} {side : Reflector} {item : Registered}

theorem wol_lies (h : item ∈ wolRegistered source target side)
    (hcarries : item.Carries addrs packet) :
    ∃ flow ∈ side.flows, Lies addrs packet side item flow := by
  unfold wolRegistered at h
  split at h
  · cases h
  rename_i wol hwol
  rw [List.mem_singleton] at h
  subst h
  obtain ⟨hmatches, handler, type, hhandler, hverdict⟩ := hcarries
  have hport := matches_ports.mp hmatches
  cases hhandler
  have huses : side.addressFamily.uses packet.dest.ip = true := by
    change Wol.WakeClassifier.classify _ packet = _ at hverdict
    unfold Wol.WakeClassifier.classify at hverdict
    split at hverdict
    · cases hverdict
    · split at hverdict
      · cases hverdict
      · split at hverdict
        · cases hverdict
        · rename_i huses
          simpa using huses
  obtain ⟨port, hmem, hget⟩ := List.mem_map.mp hport
  refine ⟨⟨.wol, side.sourceIf, side.targetIf, port.get,
    .any side.addressFamily⟩, ?_, rfl, rfl, rfl, hget, .any _ huses⟩
  refine mem_flows.mpr (.inr (.inr (.inr
    ⟨(side.sourceIf, side.targetIf), List.mem_cons_self, ?_⟩)))
  simp only [Reflector.directed, hwol]
  exact List.mem_append_left _ (List.mem_map_of_mem hmem)

theorem discovery_lies {protocol : Protocol} {port : UInt16}
    {groups : List IpAddr}
    (hflows : ∀ flow ∈ side.discovery protocol port groups,
      flow ∈ side.flows)
    (hprotocol : item.protocol = protocol)
    (hleg : (item.ingress = side.sourceIf ∧ item.egress = side.targetIf) ∨
      (item.ingress = side.targetIf ∧ item.egress = side.sourceIf))
    (hgroup : packet.dest.ip ∈ groups)
    (huses : side.addressFamily.uses packet.dest.ip = true)
    (hport : packet.dest.port = port)
    (htakes : TakesGroup packet side item.ingress item.egress) :
    ∃ flow ∈ side.flows, Lies addrs packet side item flow := by
  refine ⟨⟨protocol, item.ingress, item.egress, port,
    .group packet.dest.ip⟩, hflows _ (mem_discovery.mpr
      ⟨packet.dest.ip, hgroup, huses, ?_⟩), hprotocol.symm, rfl, rfl,
    hport.symm, .group htakes⟩
  rcases hleg with ⟨hingress, hegress⟩ | ⟨hingress, hegress⟩
  · exact .inl (by rw [hingress, hegress])
  · exact .inr (by rw [hingress, hegress])

theorem mdns_lies (h : item ∈ mdnsRegistered source target side)
    (hcarries : item.Carries addrs packet) :
    (∃ flow ∈ side.flows, Lies addrs packet side item flow) ∨
      (AnswersHere addrs packet side ∧ item.ingress = side.targetIf ∧
        item.egress = side.sourceIf) := by
  unfold mdnsRegistered at h
  split at h
  · cases h
  rename_i mdns hmdns
  have hsome : side.mdns.isSome = true := by rw [hmdns]; rfl
  have hflows : ∀ flow ∈ side.discovery .mdns Mdns.mdnsPort
      [.v4 Mdns.mdnsGroupV4, .v6 Mdns.mdnsGroupV6], flow ∈ side.flows :=
    fun flow hflow => mem_flows.mpr (.inl ⟨hsome, hflow⟩)
  obtain ⟨hmatches, handler, type, hhandler, hverdict⟩ := hcarries
  rcases List.mem_cons.mp h with rfl | h
  · cases hhandler
    obtain ⟨hdest, hport⟩ := matches_groups.mp hmatches
    obtain ⟨hlisted, huses⟩ := mem_groupAddrs.mp hdest
    have hport := List.mem_singleton.mp hport
    exact .inl (discovery_lies hflows rfl (.inl ⟨rfl, rfl⟩) hlisted huses
      hport (.query hsome hdest hport (directional_reflect hverdict)))
  · rw [List.mem_singleton] at h
    subst h
    cases hhandler
    obtain ⟨hdest, hsrc, hport, hmacs⟩ := matches_responses.mp hmatches
    have hport := List.mem_singleton.mp hport
    have hkind := directional_reflect hverdict
    rcases hdest with hdest | ⟨huses, hown⟩
    · obtain ⟨hlisted, huses⟩ := mem_groupAddrs.mp hdest
      exact .inl (discovery_lies hflows rfl (.inr ⟨rfl, rfl⟩) hlisted huses
        hport (.response hsome hdest hsrc hport hmacs hkind))
    · exact .inr ⟨⟨hsome, hown, huses, hsrc, hport, hmacs, hkind⟩, rfl, rfl⟩

theorem pair_lies {tag : Protocol} {protocol : SearchProtocol}
    {rewrite : ReplyRewrite}
    (hflows : ∀ flow ∈ side.discovery tag protocol.port
      (.v4 protocol.groupV4 :: protocol.groupsV6.map .v6),
      flow ∈ side.flows)
    (htakes : ∀ {ingress egress : InterfaceName},
      TakesPair packet side protocol ingress egress →
        TakesGroup packet side ingress egress)
    (h : item ∈ pairRegistered source target side tag protocol rewrite)
    (hcarries : item.Carries addrs packet) :
    ∃ flow ∈ side.flows, Lies addrs packet side item flow := by
  obtain ⟨hmatches, handler, type, hhandler, hverdict⟩ := hcarries
  rcases List.mem_cons.mp h with rfl | h
  · cases hhandler
    obtain ⟨hdest, hport, hmacs⟩ := matches_announced.mp hmatches
    obtain ⟨hlisted, huses⟩ := mem_groupAddrs.mp hdest
    have hport := List.mem_singleton.mp hport
    exact discovery_lies hflows rfl (.inr ⟨rfl, rfl⟩) hlisted huses hport
      (htakes (.announcement type hdest hport hmacs hverdict))
  · rw [List.mem_singleton] at h
    subst h
    cases hhandler
    obtain ⟨hdest, hport⟩ := matches_groups.mp hmatches
    obtain ⟨hlisted, huses⟩ := mem_groupAddrs.mp hdest
    have hport := List.mem_singleton.mp hport
    exact discovery_lies hflows rfl (.inl ⟨rfl, rfl⟩) hlisted huses hport
      (htakes (.search type hdest hport hverdict))

theorem ssdp_lies (h : item ∈ ssdpRegistered source target side)
    (hcarries : item.Carries addrs packet) :
    ∃ flow ∈ side.flows, Lies addrs packet side item flow := by
  unfold ssdpRegistered at h
  split at h
  · cases h
  rename_i ssdp hssdp
  have hsome : side.ssdp.isSome = true := by rw [hssdp]; rfl
  exact pair_lies (fun flow hflow => mem_flows.mpr (.inr (.inl
    ⟨hsome, hflow⟩))) (.ssdp hsome) h hcarries

theorem wsd_lies (h : item ∈ wsdRegistered source target side)
    (hcarries : item.Carries addrs packet) :
    ∃ flow ∈ side.flows, Lies addrs packet side item flow := by
  unfold wsdRegistered at h
  rw [List.mem_ite_nil_right] at h
  exact pair_lies (fun flow hflow => mem_flows.mpr (.inr (.inr (.inl
    ⟨h.1, hflow⟩)))) (.wsd h.1) h.2 hcarries

theorem udp_lies (h : item ∈ udpRegistered source target side)
    (hmatches : item.registration.filter.matches packet addrs = true) :
    (RelaysGroup packet side ∨ RelaysBroadcast addrs packet side) ∧
      item.ingress = side.sourceIf ∧ item.egress = side.targetIf ∧
      ∃ flow ∈ side.flows, Lies addrs packet side item flow := by
  unfold udpRegistered at h
  split at h
  · cases h
  rename_i udp hudp
  obtain ⟨filter, hfilter, rfl⟩ := List.mem_map.mp h
  have hdirected : ∀ port reach, (port, reach) ∈ udp.destinations →
      (⟨.udp, side.sourceIf, side.targetIf, port, reach⟩ : Flow) ∈
        side.flows := by
    intro port reach hmem
    refine mem_flows.mpr (.inr (.inr (.inr
      ⟨(side.sourceIf, side.targetIf), List.mem_cons_self, ?_⟩)))
    simp only [Reflector.directed, hudp]
    exact List.mem_append_right _ (List.mem_map.mpr ⟨_, hmem, rfl⟩)
  unfold udpFilters at hfilter
  rcases List.mem_append.mp hfilter with hfilter | hfilter
  · split at hfilter
    · cases hfilter
    rw [List.mem_singleton] at hfilter
    subst hfilter
    obtain ⟨hdest, hport⟩ := matches_groups.mp hmatches
    have hrelays : RelaysGroup packet side := ⟨udp, hudp, hdest, hport⟩
    obtain ⟨port, hmem, hget⟩ := List.mem_map.mp hport
    refine ⟨.inl hrelays, rfl, rfl, _,
      hdirected port.get (.group packet.dest.ip) ?_,
      rfl, rfl, rfl, hget, .group (.relay hrelays)⟩
    exact List.mem_flatMap.mpr ⟨port, hmem, List.mem_append_left _
      (List.mem_map_of_mem hdest)⟩
  · split at hfilter
    · rename_i hbroadcast
      rw [List.mem_singleton] at hfilter
      subst hfilter
      obtain ⟨hdest, hport⟩ := matches_broadcasts.mp hmatches
      have hrelays : RelaysBroadcast addrs packet side :=
        ⟨udp, hudp, hbroadcast, hdest, hport⟩
      obtain ⟨port, hmem, hget⟩ := List.mem_map.mp hport
      refine ⟨.inr hrelays, rfl, rfl, _, hdirected port.get .broadcast ?_,
        rfl, rfl, rfl, hget, .broadcast hrelays⟩
      refine List.mem_flatMap.mpr ⟨port, hmem, List.mem_append_right _ ?_⟩
      rw [if_pos hbroadcast]
      exact List.mem_singleton_self _
    · cases hfilter

theorem side_wol (h : item ∈ wolRegistered source target side) :
    item ∈ sideRegistered source target side := by
  simp only [sideRegistered, List.mem_append]
  exact .inl (.inl (.inl (.inl h)))

theorem side_mdns (h : item ∈ mdnsRegistered source target side) :
    item ∈ sideRegistered source target side := by
  simp only [sideRegistered, List.mem_append]
  exact .inl (.inl (.inl (.inr h)))

theorem side_ssdp (h : item ∈ ssdpRegistered source target side) :
    item ∈ sideRegistered source target side := by
  simp only [sideRegistered, List.mem_append]
  exact .inl (.inl (.inr h))

theorem side_wsd (h : item ∈ wsdRegistered source target side) :
    item ∈ sideRegistered source target side := by
  simp only [sideRegistered, List.mem_append]
  exact .inl (.inr h)

theorem side_lies (h : item ∈ sideRegistered source target side)
    (hcarries : item.Carries addrs packet) :
    (∃ flow ∈ side.flows, Lies addrs packet side item flow) ∨
      (AnswersHere addrs packet side ∧ item.ingress = side.targetIf ∧
        item.egress = side.sourceIf) := by
  simp only [sideRegistered, List.mem_append] at h
  rcases h with (((h | h) | h) | h) | h
  · exact .inl (wol_lies h hcarries)
  · exact mdns_lies h hcarries
  · exact .inl (ssdp_lies h hcarries)
  · exact .inl (wsd_lies h hcarries)
  · exact .inl (udp_lies h hcarries.1).2.2.2

theorem wol_protocol (h : item ∈ wolRegistered source target side) :
    item.protocol = .wol := by
  unfold wolRegistered at h
  split at h
  · cases h
  · rw [List.mem_singleton.mp h]

theorem mdns_protocol (h : item ∈ mdnsRegistered source target side) :
    item.protocol = .mdns := by
  unfold mdnsRegistered at h
  split at h
  · cases h
  · rcases List.mem_cons.mp h with rfl | h
    · rfl
    · rw [List.mem_singleton.mp h]

theorem pair_protocol {tag : Protocol} {protocol : SearchProtocol}
    {rewrite : ReplyRewrite}
    (h : item ∈ pairRegistered source target side tag protocol rewrite) :
    item.protocol = tag := by
  rcases List.mem_cons.mp h with rfl | h
  · rfl
  · rw [List.mem_singleton.mp h]

theorem ssdp_protocol (h : item ∈ ssdpRegistered source target side) :
    item.protocol = .ssdp := by
  unfold ssdpRegistered at h
  split at h
  · cases h
  · exact pair_protocol h

theorem wsd_protocol (h : item ∈ wsdRegistered source target side) :
    item.protocol = .wsd :=
  pair_protocol (List.mem_ite_nil_right.mp h).2

theorem udp_protocol (h : item ∈ udpRegistered source target side) :
    item.protocol = .udp := by
  unfold udpRegistered at h
  split at h
  · cases h
  · obtain ⟨filter, _, rfl⟩ := List.mem_map.mp h
    rfl

theorem side_filter_udp (source target : CaptureKey) (side : Reflector) :
    (sideRegistered source target side).filter (·.protocol = .udp) =
      udpRegistered source target side := by
  have hothers : ∀ (protocol : Protocol) (part : List Registered),
      protocol ≠ .udp → (∀ item ∈ part, item.protocol = protocol) →
        part.filter (·.protocol = .udp) = [] := by
    intro protocol part hprotocol hpart
    rw [List.filter_eq_nil_iff]
    intro item hmem
    simpa [hpart item hmem] using hprotocol
  simp only [sideRegistered, List.filter_append]
  rw [hothers .wol _ (by decide) fun _ => wol_protocol,
    hothers .mdns _ (by decide) fun _ => mdns_protocol,
    hothers .ssdp _ (by decide) fun _ => ssdp_protocol,
    hothers .wsd _ (by decide) fun _ => wsd_protocol,
    List.filter_eq_self.mpr fun item hmem => by simp [udp_protocol hmem]]
  rfl

theorem mem_udp (h : item ∈ sideRegistered source target side)
    (hudp : item.protocol = .udp) :
    item ∈ udpRegistered source target side := by
  rw [← side_filter_udp]
  exact List.mem_filter.mpr ⟨h, by simpa using hudp⟩

end Carried

/-! ## Two registrations of one leg -/

section Pairs

variable {captures : InterfaceName → CaptureKey} {config : Config}
  {addrs : Option InterfaceAddresses} {packet : Packet}

theorem mem_sidesOf {reflector side : Reflector}
    (hreflector : reflector ∈ config.reflectors)
    (hside : side ∈ reflector.sides) : side ∈ sidesOf config :=
  List.mem_flatMap.mpr ⟨reflector, hreflector, hside⟩

theorem relay_doubles {first second : Reflector} {relay other : Registered}
    {others : List Flow} (hfirst : first ∈ config.reflectors)
    (hsecond : second ∈ config.reflectors)
    (hrelay : relay ∈ entryRegistered captures first)
    (hother : other ∈ entryRegistered captures second)
    (hudp : relay.protocol = .udp) (hdoubles : relay.Doubles addrs packet other)
    (hothers : ∀ flow ∈ second.flows, flow.protocol = other.protocol →
      flow ∈ others)
    (hnone : first.relayOverlap others = none) :
    Exposed config addrs packet := by
  obtain ⟨side, hside, hmem⟩ := List.mem_flatMap.mp hrelay
  obtain ⟨side', hside', hmem'⟩ := List.mem_flatMap.mp hother
  obtain ⟨hrelays, hsource, htarget, flow, hflow, hlies⟩ :=
    udp_lies (mem_udp hmem hudp) hdoubles.first.1
  rcases side_lies hmem' hdoubles.second with
    ⟨flow', hflow', hlies'⟩ | ⟨hanswers, hingress, hegress⟩
  · -- A flow that holds the packet as well would overlap the relay's.
    have hapart := relayOverlap_none hnone (side_flows hside hflow)
      (hlies.protocol.trans hudp)
      (hothers flow' (side_flows hside' hflow') hlies'.protocol)
    have hreach' := hlies'.reach
    rw [← hdoubles.ingress, ← hdoubles.egress] at hreach'
    refine (hlies.reach.overlaps (mem_sidesOf hfirst hside)
      (mem_sidesOf hsecond hside') hreach').resolve_left ?_
    intro hover
    simp [Flow.overlaps, hlies.ingress, hlies'.ingress, hlies.egress,
      hlies'.egress, hlies.port, hlies'.port, hdoubles.ingress,
      hdoubles.egress, hover] at hapart
  · exact .answer side side' (mem_sidesOf hfirst hside)
      (mem_sidesOf hsecond hside') hrelays hanswers
      (by rw [← hingress, ← hdoubles.ingress, hsource])
      (by rw [← hegress, ← hdoubles.egress, htarget])

theorem Registered.Doubles.symm {first second : Registered}
    (h : first.Doubles addrs packet second) :
    second.Doubles addrs packet first :=
  ⟨h.ingress.symm, h.egress.symm, h.relay.symm, h.second, h.first⟩

theorem entries_doubles {first second : Reflector}
    (hfirst : first ∈ config.reflectors)
    (hsecond : second ∈ config.reflectors)
    (hnone : first.conflictsWith second = none) {item other : Registered}
    (hitem : item ∈ entryRegistered captures first)
    (hother : other ∈ entryRegistered captures second)
    (h : item.Doubles addrs packet other) : Exposed config addrs packet := by
  unfold Reflector.conflictsWith at hnone
  simp only [Option.or_eq_none_iff, Option.map_eq_none_iff] at hnone
  rcases h.relay with hudp | hudp
  · exact relay_doubles hfirst hsecond hitem hother hudp h
      (fun flow hflow _ => hflow) hnone.2.1
  · exact relay_doubles hsecond hfirst hother hitem hudp h.symm
      (fun flow hflow _ => hflow) hnone.2.2

theorem entry_doubles {reflector : Reflector}
    (hreflector : reflector ∈ config.reflectors)
    (hnone : reflector.relayDuplicates = none) {item other : Registered}
    (hitem : item ∈ entryRegistered captures reflector)
    (hother : other ∈ entryRegistered captures reflector)
    (h : item.Doubles addrs packet other) :
    Exposed config addrs packet ∨
      (item.protocol = .udp ∧ other.protocol = .udp) := by
  unfold Reflector.relayDuplicates at hnone
  rw [Option.map_eq_none_iff] at hnone
  have hflows : ∀ chosen : Registered, chosen.protocol ≠ .udp →
      ∀ flow ∈ reflector.flows, flow.protocol = chosen.protocol →
        flow ∈ reflector.flows.filter fun flow => flow.protocol ≠ .udp := by
    intro chosen hchosen flow hflow hsame
    exact List.mem_filter.mpr ⟨hflow, by simpa [hsame] using hchosen⟩
  by_cases hitem' : item.protocol = .udp
  · by_cases hother' : other.protocol = .udp
    · exact .inr ⟨hitem', hother'⟩
    · exact .inl (relay_doubles hreflector hreflector hitem hother hitem' h
        (hflows other hother') hnone)
  · have hudp := h.relay.resolve_left hitem'
    exact .inl (relay_doubles hreflector hreflector hother hitem hudp h.symm
      (hflows item hitem') hnone)

/-- The relay's two filters of one side share only a group that is also a
broadcast. -/
theorem udp_pairwise (addrs : Option InterfaceAddresses) (packet : Packet)
    (source target : CaptureKey) {side : Reflector}
    (hside : side ∈ sidesOf config) :
    (udpRegistered source target side).Pairwise fun item other =>
      item.Carries addrs packet → other.Carries addrs packet →
        Exposed config addrs packet := by
  unfold udpRegistered
  split
  · exact .nil
  rename_i udp hudp
  rw [List.pairwise_map]
  unfold udpFilters
  split
  · split
    · simp
    · simp
  · split
    · rename_i hbroadcast
      simp only [List.singleton_append, List.pairwise_cons, List.mem_singleton,
        forall_eq, List.not_mem_nil, false_implies, implies_true,
        List.Pairwise.nil, and_true]
      intro hfirst hsecond
      obtain ⟨hdest, hport⟩ := matches_groups.mp hfirst.1
      obtain ⟨hframe, _⟩ := matches_broadcasts.mp hsecond.1
      exact .broadcast side side hside hside
        ⟨udp, hudp, hbroadcast, hframe, hport⟩
        (.relay ⟨udp, hudp, hdest, hport⟩)
    · simp

theorem entry_udp_pairwise (captures : InterfaceName → CaptureKey)
    (addrs : Option InterfaceAddresses) (packet : Packet)
    {reflector : Reflector} (hreflector : reflector ∈ config.reflectors) :
    (entryRegistered captures reflector).Pairwise fun item other =>
      item.protocol = .udp → other.protocol = .udp →
        item.Doubles addrs packet other → Exposed config addrs packet := by
  have hside : ∀ side ∈ reflector.sides,
      (sideRegistered (captures side.sourceIf) (captures side.targetIf)
        side).Pairwise fun item other =>
          item.protocol = .udp → other.protocol = .udp →
            item.Doubles addrs packet other →
              Exposed config addrs packet := by
    intro side hmem
    have hudp := udp_pairwise addrs packet (captures side.sourceIf)
      (captures side.targetIf) (mem_sidesOf hreflector hmem)
    rw [← side_filter_udp, List.pairwise_filter] at hudp
    refine hudp.imp ?_
    intro item other hpair hitem hother hdoubles
    exact hpair (by simpa using hitem) (by simpa using hother) hdoubles.first
      hdoubles.second
  unfold entryRegistered
  rw [List.pairwise_flatMap]
  refine ⟨hside, ?_⟩
  unfold Reflector.sides
  split
  · rw [List.pairwise_pair]
    intro item hitem other hother hudp hudp' hdoubles
    -- The two sides have the legs of opposite directions.
    have hleg : ∀ (side : Reflector) (item : Registered),
        item ∈ sideRegistered (captures side.sourceIf)
          (captures side.targetIf) side → item.protocol = .udp →
        item.ingress = side.sourceIf := by
      intro side item hmem hudp
      have hmem := mem_udp hmem hudp
      unfold udpRegistered at hmem
      split at hmem
      · cases hmem
      · obtain ⟨filter, _, rfl⟩ := List.mem_map.mp hmem
        rfl
    have hsame := hdoubles.ingress
    rw [hleg _ item hitem hudp, hleg _ other hother hudp'] at hsame
    exact absurd hsame reflector.distinct
  · exact List.pairwise_singleton _ _

theorem relayed_once (haccepted : Accepted config)
    (hplain : ¬ Exposed config addrs packet) :
    RelayedOnce captures config addrs packet := by
  unfold RelayedOnce registered
  rw [List.pairwise_flatMap]
  constructor
  · intro reflector hmem
    refine (entry_udp_pairwise captures addrs packet hmem).imp_of_mem ?_
    intro item other hitem hother hpair hdoubles
    rcases entry_doubles hmem (haccepted.alone reflector hmem) hitem hother
      hdoubles with hbad | ⟨hudp, hudp'⟩
    · exact hplain hbad
    · exact hplain (hpair hudp hudp' hdoubles)
  · refine haccepted.apart.imp_of_mem ?_
    intro first second hfirst hsecond hpair item hitem other hother hdoubles
    exact hplain (entries_doubles hfirst hsecond hpair.2 hitem hother
      hdoubles)

/-! ## An exposed packet is carried twice -/

theorem simple_carries {leg : SimpleReflector} {type : MessageType}
    {item : Registered}
    (hhandler : item.registration.handler = simpleHandler leg)
    (hmatches : item.registration.filter.matches packet addrs = true)
    (hverdict : leg.classify packet = .reflect type) :
    item.Carries addrs packet :=
  ⟨hmatches, _, type, hhandler, hverdict⟩

section Sides

variable {side : Reflector} (source target : CaptureKey)

/-- The side has an item that carries the packet between the two interfaces,
by the broadcasts or not. -/
def CarriedBy (addrs : Option InterfaceAddresses) (packet : Packet)
    (source target : CaptureKey) (side : Reflector) (protocol : Protocol)
    (broadcast : Bool) (ingress egress : InterfaceName) : Prop :=
  ∃ item ∈ sideRegistered source target side, item.protocol = protocol ∧
    item.registration.filter.broadcast = broadcast ∧ item.ingress = ingress ∧
    item.egress = egress ∧ item.Carries addrs packet

theorem RelaysGroup.carried (h : RelaysGroup packet side) :
    CarriedBy addrs packet source target side .udp false side.sourceIf
      side.targetIf := by
  obtain ⟨udp, hudp, hdest, hport⟩ := h
  refine ⟨⟨.udp, side.sourceIf, side.targetIf, source,
    { Filter.any with
      dstIp := some (groupItems udp.groups)
      dstPort := some (udp.ports.items.map (·.get)) },
    simpleHandler (udpLeg target side)⟩, ?_, rfl, rfl, rfl, rfl,
    simple_carries rfl (matches_groups.mpr ⟨hdest, hport⟩) rfl⟩
  refine List.mem_append_right _ ?_
  simp only [udpRegistered, hudp]
  refine List.mem_map.mpr ⟨_, List.mem_append_left _ ?_, rfl⟩
  rw [if_neg (List.ne_nil_of_mem hdest)]
  exact List.mem_singleton_self _

theorem RelaysBroadcast.carried (h : RelaysBroadcast addrs packet side) :
    CarriedBy addrs packet source target side .udp true side.sourceIf
      side.targetIf := by
  obtain ⟨udp, hudp, hbroadcast, hframe, hport⟩ := h
  refine ⟨⟨.udp, side.sourceIf, side.targetIf, source,
    { Filter.any with
      broadcast := true
      dstPort := some (udp.ports.items.map (·.get)) },
    simpleHandler (udpLeg target side)⟩, ?_, rfl, rfl, rfl, rfl,
    simple_carries rfl (matches_broadcasts.mpr ⟨hframe, hport⟩) rfl⟩
  refine List.mem_append_right _ ?_
  simp only [udpRegistered, hudp]
  refine List.mem_map.mpr ⟨_, List.mem_append_right _ ?_, rfl⟩
  rw [if_pos hbroadcast]
  exact List.mem_singleton_self _

theorem directionalVerdict_reflect {Kind : Type} [DecidableEq Kind]
    {typeOf : Kind → MessageType} {kind : Option Kind} {reflect : Kind}
    (h : kind = some reflect) :
    directionalVerdict typeOf kind reflect = .reflect (typeOf reflect) := by
  rw [h, directionalVerdict, if_pos rfl]

theorem response_carried (hmdns : side.mdns.isSome = true)
    (hdest : packet.dest.ip ∈ mdnsGroups side.addressFamily ∨
      side.addressFamily.uses packet.dest.ip = true ∧
        addrs.any (·.has packet.dest.ip) = true)
    (hsrc : packet.source.port = Mdns.mdnsPort)
    (hport : packet.dest.port = Mdns.mdnsPort)
    (hmacs : macAdmits (macItems side.macs) packet = true)
    (hkind : Mdns.classify packet.payload = some .response) :
    CarriedBy addrs packet source target side .mdns false side.targetIf
      side.sourceIf := by
  obtain ⟨mdns, hsome⟩ := Option.isSome_iff_exists.mp hmdns
  have hmem : ∀ item ∈ mdnsRegistered source target side,
      item ∈ sideRegistered source target side :=
    fun item hitem => side_mdns hitem
  simp only [mdnsRegistered, hsome] at hmem
  exact ⟨_, hmem _ (List.mem_cons_of_mem _ List.mem_cons_self), rfl, rfl, rfl,
    rfl, simple_carries rfl (matches_responses.mpr
      ⟨hdest, hsrc, List.mem_singleton.mpr hport, hmacs⟩)
      (directionalVerdict_reflect hkind)⟩

theorem TakesPair.carried {tag : Protocol} {protocol : SearchProtocol}
    (rewrite : ReplyRewrite) {ingress egress : InterfaceName}
    (hmem : ∀ item ∈ pairRegistered source target side tag protocol rewrite,
      item ∈ sideRegistered source target side)
    (h : TakesPair packet side protocol ingress egress) :
    CarriedBy addrs packet source target side tag false ingress egress := by
  cases h with
  | search type hdest hport hverdict =>
      exact ⟨_, hmem _ (List.mem_cons_of_mem _ List.mem_cons_self), rfl, rfl,
        rfl, rfl, matches_groups.mpr ⟨hdest, List.mem_singleton.mpr hport⟩, _,
        type, rfl, hverdict⟩
  | announcement type hdest hport hmacs hverdict =>
      exact ⟨_, hmem _ List.mem_cons_self, rfl, rfl, rfl, rfl,
        simple_carries rfl (matches_announced.mpr
          ⟨hdest, List.mem_singleton.mpr hport, hmacs⟩) hverdict⟩

theorem TakesGroup.carried {ingress egress : InterfaceName}
    (h : TakesGroup packet side ingress egress) :
    ∃ protocol, CarriedBy addrs packet source target side protocol false
      ingress egress := by
  cases h with
  | relay h => exact ⟨.udp, h.carried source target⟩
  | query hmdns hdest hport hkind =>
      obtain ⟨mdns, hsome⟩ := Option.isSome_iff_exists.mp hmdns
      have hmem : ∀ item ∈ mdnsRegistered source target side,
          item ∈ sideRegistered source target side :=
        fun item hitem => side_mdns hitem
      simp only [mdnsRegistered, hsome] at hmem
      exact ⟨.mdns, _, hmem _ List.mem_cons_self, rfl, rfl, rfl, rfl,
        simple_carries rfl (matches_groups.mpr
          ⟨hdest, List.mem_singleton.mpr hport⟩)
          (directionalVerdict_reflect hkind)⟩
  | response hmdns hdest hsrc hport hmacs hkind =>
      exact ⟨.mdns, response_carried source target hmdns (.inl hdest) hsrc
        hport hmacs hkind⟩
  | ssdp hssdp h =>
      obtain ⟨ssdp, hsome⟩ := Option.isSome_iff_exists.mp hssdp
      refine ⟨.ssdp, h.carried source target
        (if ssdp.dial then .dial target else .noRewrite) ?_⟩
      intro item hitem
      refine side_ssdp ?_
      rw [ssdpRegistered, hsome]
      exact hitem
  | wsd hwsd h =>
      refine ⟨.wsd, h.carried source target .noRewrite ?_⟩
      intro item hitem
      refine side_wsd ?_
      rw [wsdRegistered, if_pos hwsd]
      exact hitem

theorem AnswersHere.carried (h : AnswersHere addrs packet side) :
    CarriedBy addrs packet source target side .mdns false side.targetIf
      side.sourceIf :=
  response_carried source target h.mdns (.inr ⟨h.uses, h.own⟩) h.srcPort
    h.dstPort h.macs h.response

end Sides

theorem RelayedOnce.apart (h : RelayedOnce captures config addrs packet)
    {item other : Registered} (hitem : item ∈ registered captures config)
    (hother : other ∈ registered captures config) (hne : item ≠ other) :
    ¬ item.Doubles addrs packet other := by
  have hsymm : Std.Symm fun first second : Registered =>
      ¬ first.Doubles addrs packet second :=
    ⟨fun _ _ hnot hdoubles => hnot hdoubles.symm⟩
  exact List.Pairwise.forall h hitem hother hne

theorem mem_registered {side : Reflector} {item : Registered}
    (hside : side ∈ sidesOf config)
    (h : item ∈ sideRegistered (captures side.sourceIf)
      (captures side.targetIf) side) : item ∈ registered captures config := by
  obtain ⟨reflector, hreflector, hmem⟩ := List.mem_flatMap.mp hside
  exact List.mem_flatMap.mpr
    ⟨reflector, hreflector, List.mem_flatMap.mpr ⟨side, hmem, h⟩⟩

theorem Exposed.relayed_twice (h : Exposed config addrs packet) :
    ¬ RelayedOnce captures config addrs packet := by
  intro honce
  cases h with
  | broadcast side other hside hother hrelay hgroup =>
      obtain ⟨item, hitem, hudp, hframe, hingress, hegress, hcarries⟩ :=
        hrelay.carried (captures side.sourceIf) (captures side.targetIf)
      obtain ⟨protocol, item', hitem', _, hplain, hingress', hegress',
        hcarries'⟩ := hgroup.carried (captures other.sourceIf)
          (captures other.targetIf)
      refine honce.apart (mem_registered hside hitem)
        (mem_registered hother hitem') ?_ ⟨hingress.trans hingress'.symm,
          hegress.trans hegress'.symm, .inl hudp, hcarries, hcarries'⟩
      rintro rfl
      rw [hframe] at hplain
      cases hplain
  | answer side other hside hother hrelay hanswers hsource htarget =>
      have hrelayed : ∃ broadcast, CarriedBy addrs packet
          (captures side.sourceIf) (captures side.targetIf) side .udp broadcast
          side.sourceIf side.targetIf := by
        rcases hrelay with hrelay | hrelay
        · exact ⟨false, hrelay.carried _ _⟩
        · exact ⟨true, hrelay.carried _ _⟩
      obtain ⟨_, item, hitem, hudp, _, hingress, hegress, hcarries⟩ := hrelayed
      obtain ⟨item', hitem', hmdns, _, hingress', hegress', hcarries'⟩ :=
        hanswers.carried (captures other.sourceIf) (captures other.targetIf)
      refine honce.apart (mem_registered hside hitem)
        (mem_registered hother hitem') ?_
        ⟨hingress.trans (hsource.symm.trans hingress'.symm),
          hegress.trans (htarget.symm.trans hegress'.symm), .inl hudp,
          hcarries, hcarries'⟩
      rintro rfl
      rw [hudp] at hmdns
      cases hmdns

end Pairs

/-- In an accepted configuration no leg takes a packet through the relay and
through another registration, exactly if the packet is not exposed. -/
theorem relayed_once_iff {raw : RawConfig} {config : Config}
    (h : Config.tryFrom raw = .ok config)
    (captures : InterfaceName → CaptureKey)
    (addrs : Option InterfaceAddresses) (packet : Packet) :
    RelayedOnce captures config addrs packet ↔
      ¬ Exposed config addrs packet := by
  constructor
  · intro honce hexposed
    exact hexposed.relayed_twice honce
  · intro hplain
    exact relayed_once (Config.tryFrom_ok h) hplain

/-! ## A relay beside mDNS -/

def oneEntry (raw : RawReflector) : RawConfig :=
  ⟨none, none, none, .single ['r'] raw⟩

theorem oneEntry_accepted {raw : RawReflector} {reflector : Reflector}
    (h : Reflector.tryFrom ['r'] raw = .ok reflector) :
    Config.tryFrom (oneEntry raw) = .ok ⟨none, none, none, [reflector]⟩ := by
  simp [Config.tryFrom, oneEntry, SortedMap.single, reflectorsFrom, h,
    checkConflicts, checkAgainst, intervalFrom, bind, Except.bind]

def sourceName : InterfaceName := ([0x61] : Bytes)

def targetName : InterfaceName := ([0x62] : Bytes)

theorem names_distinct : sourceName ≠ targetName := by
  decide

def mdnsPorts : PortList where
  items := [⟨Mdns.mdnsPort, by decide⟩]
  nonempty := by simp
  nodup := by decide
  admitted := fun _ _ => rfl

def relayingRaw : RawReflector :=
  { RawReflector.between sourceName targetName with
    mdns := true
    bidirectional := true
    udpPorts := some mdnsPorts
    udpBroadcast := true }

def relaying : Reflector where
  name := ⟨['r']⟩
  sourceIf := sourceName
  targetIf := targetName
  sourcePeers := none
  targetPeers := none
  macs := none
  addressFamily := .default
  wol := none
  mdns := some ⟨none⟩
  ssdp := none
  wsd := false
  bidirectional := true
  udp := some ⟨mdnsPorts, none, true⟩
  distinct := names_distinct

theorem relaying_accepted :
    Config.tryFrom (oneEntry relayingRaw) =
      .ok ⟨none, none, none, [relaying]⟩ :=
  oneEntry_accepted rfl

def hostAddrs : InterfaceAddresses :=
  { InterfaceAddresses.default with
    v4 := some (.new 10 0 15 1)
    v4Prefix := some 24 }

/-- An mDNS answer to this host in a broadcast frame. -/
def broadcastAnswer : Packet where
  source := ⟨.v4 (.new 10 0 15 2), 5353⟩
  dest := ⟨.v4 (.new 10 0 15 1), 5353⟩
  ttl := 255
  dstMac := some .broadcast
  srcMac := none
  payload := [0, 0, 0x84, 0, 0, 0, 0, 0, 0, 0, 0, 0]

theorem broadcastAnswer_relayed_twice :
    Config.tryFrom (oneEntry relayingRaw) =
        .ok ⟨none, none, none, [relaying]⟩ ∧
      ¬ RelayedOnce (fun name => if name = sourceName then ⟨0⟩ else ⟨1⟩)
        ⟨none, none, none, [relaying]⟩ (some hostAddrs) broadcastAnswer := by
  have hrelay : RelaysBroadcast (some hostAddrs) broadcastAnswer relaying :=
    ⟨_, rfl, rfl, rfl, List.mem_singleton_self _⟩
  have hanswers : AnswersHere (some hostAddrs) broadcastAnswer
      relaying.reversed := ⟨rfl, rfl, rfl, rfl, rfl, rfl, rfl⟩
  have hexposed : Exposed ⟨none, none, none, [relaying]⟩ (some hostAddrs)
      broadcastAnswer :=
    .answer relaying relaying.reversed List.mem_cons_self
      (List.mem_cons_of_mem _ List.mem_cons_self) (.inr hrelay) hanswers rfl
      rfl
  exact ⟨relaying_accepted, hexposed.relayed_twice⟩

def groupQuery : Packet where
  source := ⟨.v4 (.new 10 0 15 2), 5353⟩
  dest := ⟨.v4 Mdns.mdnsGroupV4, 5353⟩
  ttl := 255
  dstMac := none
  srcMac := none
  payload := [0, 0, 0, 0, 0, 1, 0, 0, 0, 0, 0, 0]

theorem relayed_once_iff_groupQuery :
    TakesGroup groupQuery relaying sourceName targetName ∧
      RelayedOnce (fun name => if name = sourceName then ⟨0⟩ else ⟨1⟩)
        ⟨none, none, none, [relaying]⟩ (some hostAddrs) groupQuery := by
  refine ⟨.query rfl (by decide) rfl rfl,
    (relayed_once_iff relaying_accepted _ _ _).mpr ?_⟩
  have hnone : ∀ side ∈ sidesOf ⟨none, none, none, [relaying]⟩,
      ¬ RelaysGroup groupQuery side ∧
        ¬ RelaysBroadcast (some hostAddrs) groupQuery side := by
    intro side hside
    have hudp : side.udp = some ⟨mdnsPorts, none, true⟩ := by
      rcases List.mem_cons.mp hside with rfl | hside
      · rfl
      · rw [List.mem_singleton.mp hside]
        rfl
    constructor
    · rintro ⟨udp, hsome, hdest, _⟩
      rw [hudp] at hsome
      cases hsome
      cases hdest
    · rintro ⟨_, _, _, hframe, _⟩
      exact absurd hframe (by decide)
  rintro (⟨side, _, hside, _, hrelay, _⟩ | ⟨side, _, hside, _, hrelay, _⟩)
  · exact (hnone side hside).2 hrelay
  · rcases hrelay with hrelay | hrelay
    · exact (hnone side hside).1 hrelay
    · exact (hnone side hside).2 hrelay

end Netflector.Reflector
