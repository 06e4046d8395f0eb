import Netflector.Dispatch.Reentrancy
import Netflector.Reflector.Coverage

/-!
# Which protocols speak for a packet

The outcomes of a packet's handlers are folded into one, and two that name
different protocols are an anomaly.  The discovery protocols have ports of
their own, but the ports of Wake-on-LAN are free.
-/

namespace Netflector.Reflector

open Netflector.Foundation
open Netflector.Net
open Netflector.Reactor
open Netflector.Config
open Netflector.Dispatch

/-! ## What a handler names -/

section Outcomes

variable {digest : MacAddr → Datagram → UInt64} {calls : PacketCalls}
  {packet : Packet} {outcome : Outcome}

theorem emitTo_type {reflector : SimpleReflector} {type : MessageType}
    {dest : SocketAddr} {payload : Bytes} {checked : Bool}
    {daemon after : Daemon}
    (h : reflector.emitTo digest calls packet type dest payload checked
      daemon = .ok (after, outcome)) : outcome.messageType = some type := by
  unfold SimpleReflector.emitTo at h
  split at h
  · cases h
    rfl
  · obtain ⟨⟨dispatcher, sent⟩, _, h⟩ := except_bind_ok h
    cases sent with
    | ok sent =>
        cases h
        rfl
    | error error =>
        cases h
        rfl

def Leg.delivery : Leg → Delivery
  | .simple reflector => reflector.delivery
  | .search reflector => reflector.delivery

/-- The leg names `type` for the packet: it passes the packet over as one, or
has somewhere to send it. -/
def Leg.Names (leg : Leg) (packet : Packet) (type : MessageType) : Prop :=
  leg.verdict packet = .skip type ∨
    leg.verdict packet = .reflect type ∧
      leg.delivery.destination packet.dest.ip ≠ none

theorem simple_names {reflector : SimpleReflector} {daemon after : Daemon}
    {type : MessageType}
    (h : reflector.onPacket digest calls packet daemon = .ok (after, outcome))
    (htype : outcome.messageType = some type) :
    (Leg.simple reflector).Names packet type := by
  unfold SimpleReflector.onPacket at h
  unfold Leg.Names Leg.verdict
  cases hclass : reflector.classify packet with
  | skip named =>
      simp only [hclass] at h
      cases h
      cases htype
      exact .inl hclass
  | excluded =>
      simp only [hclass] at h
      cases h
      cases htype
  | junk =>
      simp only [hclass] at h
      cases h
      cases htype
  | reflect named =>
      simp only [hclass] at h
      split at h
      · cases h
        cases htype
      rename_i hdelivers
      suffices hnamed : outcome.messageType = none ∨
          outcome.messageType = some named by
        rcases hnamed with hnone | hsome
        · rw [htype] at hnone
          cases hnone
        · rw [htype] at hsome
          cases hsome
          exact .inr ⟨hclass, hdelivers⟩
      split at h
      · cases h
        exact .inl rfl
      split at h
      · obtain ⟨⟨rewritten, rewrite⟩, _, h⟩ := except_bind_ok h
        cases rewrite with
        | verbatim => exact .inr (emitTo_type h)
        | replaced payload => exact .inr (emitTo_type h)
        | refused =>
            cases h
            exact .inr rfl
        | unreadable =>
            cases h
            exact .inr rfl
      · cases h
        exact .inr rfl

theorem makeSession_type {own : Key} {reflector : SearchReflector}
    {destination : IpAddr} {dispatcher after : PacketDispatcher}
    {expiry : Nat} {type : MessageType}
    (h : reflector.makeSession calls own packet destination dispatcher expiry
      type = .ok (after, .error outcome)) :
    outcome.messageType = some type := by
  unfold SearchReflector.makeSession at h
  split at h
  · cases h
    rfl
  split at h
  · cases h
    rfl
  split at h
  · cases h
    rfl
  · obtain ⟨⟨registered, key⟩, _, h⟩ := except_bind_ok h
    cases h

theorem open_type {own : Key} {reflector later : SearchReflector}
    {destination : IpAddr} {key : SessionKey}
    {dispatcher after : PacketDispatcher} {expiry : Nat} {type : MessageType}
    (h : reflector.open digest calls own packet destination key expiry type
      dispatcher = .ok (later, after, outcome)) :
    outcome.messageType = some type := by
  obtain ⟨⟨made, session⟩, hmade, h⟩ := except_bind_ok h
  cases session with
  | error failed =>
      cases h
      exact makeSession_type hmade
  | ok session =>
      obtain ⟨⟨reflected, sent⟩, _, h⟩ := except_bind_ok h
      cases sent with
      | ok sent =>
          cases h
          rfl
      | error error =>
          cases h
          rfl

theorem reuse_type {reflector later : SearchReflector} {key : SessionKey}
    {session : Session} {dispatcher after : PacketDispatcher} {expiry : Nat}
    {type : MessageType}
    (h : reflector.reuse digest calls packet key session expiry type
      dispatcher = .ok (later, after, outcome)) :
    outcome.messageType = some type := by
  obtain ⟨⟨reflected, sent⟩, _, h⟩ := except_bind_ok h
  cases sent with
  | ok sent =>
      cases h
      rfl
  | error error =>
      cases h
      rfl

theorem search_names {own : Key} {reflector later : SearchReflector}
    {dispatcher after : PacketDispatcher} {type : MessageType}
    (h : reflector.onPacket digest calls own packet dispatcher =
      .ok (later, after, outcome))
    (htype : outcome.messageType = some type) :
    (Leg.search reflector).Names packet type := by
  unfold SearchReflector.onPacket at h
  unfold Leg.Names Leg.verdict
  cases hclass : reflector.protocol.searchVerdict packet.payload with
  | skip named =>
      simp only [hclass] at h
      cases h
      cases htype
      exact .inl hclass
  | excluded =>
      simp only [hclass] at h
      cases h
      cases htype
  | junk =>
      simp only [hclass] at h
      cases h
      cases htype
  | reflect named =>
      simp only [hclass] at h
      split at h
      · cases h
        cases htype
      rename_i destination hdestination
      have hdelivers : reflector.delivery.destination packet.dest.ip ≠ none := by
        rw [hdestination]
        exact Option.some_ne_none _
      split at h
      · have hnamed := reuse_type h
        rw [htype] at hnamed
        cases hnamed
        exact .inr ⟨hclass, hdelivers⟩
      · have hnamed := open_type h
        rw [htype] at hnamed
        cases hnamed
        exact .inr ⟨hclass, hdelivers⟩

theorem onPacket_names {own : Key} {handler later : PacketHandler}
    {daemon after : Daemon} {type : MessageType}
    (h : onPacket digest calls own handler packet daemon =
      .ok (later, after, outcome))
    (htype : outcome.messageType = some type) :
    handler.leg.Names packet type := by
  unfold onPacket at h
  cases hleg : handler.leg with
  | simple reflector =>
      simp only [hleg] at h
      obtain ⟨⟨called, result⟩, hcalled, h⟩ := except_bind_ok h
      cases h
      exact simple_names hcalled htype
  | search reflector =>
      simp only [hleg] at h
      obtain ⟨⟨called, dispatcher, result⟩, hcalled, h⟩ := except_bind_ok h
      cases h
      exact search_names hcalled htype

end Outcomes

/-! ## The handlers that are called -/

/-- A leg as it may stand later: a search leg has had sessions since. -/
def Leg.Later : Leg → Leg → Prop
  | .simple first, .simple second => second = first
  | .search first, .search second =>
      second = { first with sessions := second.sessions }
  | _, _ => False

theorem Leg.Later.verdict {first second : Leg} (h : first.Later second)
    (packet : Packet) : second.verdict packet = first.verdict packet := by
  cases first with
  | simple first =>
      cases second with
      | simple second =>
          cases h
          rfl
      | search second => cases h
  | search first =>
      cases second with
      | simple second => cases h
      | search second =>
          simp only [Leg.Later] at h
          rw [h]
          rfl

theorem Leg.Later.delivery {first second : Leg} (h : first.Later second) :
    second.delivery = first.delivery := by
  cases first with
  | simple first =>
      cases second with
      | simple second =>
          cases h
          rfl
      | search second => cases h
  | search first =>
      cases second with
      | simple second => cases h
      | search second =>
          simp only [Leg.Later] at h
          rw [h]
          rfl

/-- The dispatcher calls the item's handler for the packet, in whatever state
it is, and the handler answers `outcome`. -/
def Called (addrs : Option InterfaceAddresses) (packet : Packet)
    (item : Registered) (outcome : Outcome) : Prop :=
  ∃ (digest : MacAddr → Datagram → UInt64) (calls : PacketCalls) (key : Key)
    (daemon after : Daemon) (built handler : PacketHandler),
    item.registration.handler = some built ∧ built.leg.Later handler.leg ∧
    daemon.dispatcher.registrations.get key = some ⟨item.registration.ingress,
      item.registration.filter, some handler⟩ ∧
    Reentrant.routeStep Reentrant.daemonHost
      (fun key handler daemon =>
        onPacket digest calls key handler packet daemon)
      item.registration.ingress packet addrs key daemon =
        .ok (after, some outcome)

structure Speaks (addrs : Option InterfaceAddresses) (packet : Packet)
    (item : Registered) (type : MessageType) : Prop where
  admitted : item.registration.filter.matches packet addrs = true
  names : ∃ built : PacketHandler,
    item.registration.handler = some built ∧ built.leg.Names packet type

theorem Called.speaks {addrs : Option InterfaceAddresses} {packet : Packet}
    {item : Registered} {outcome : Outcome} {type : MessageType}
    (h : Called addrs packet item outcome)
    (htype : outcome.messageType = some type) :
    Speaks addrs packet item type := by
  obtain ⟨digest, calls, key, daemon, after, built, handler, hbuilt, hlater,
    hget, hstep⟩ := h
  unfold Reentrant.routeStep at hstep
  simp only [Reentrant.registrations_daemon, hget, Option.any_some] at hstep
  split at hstep
  · rename_i happlies
    have hmatches := (Bool.and_eq_true_iff.mp happlies).2
    refine ⟨hmatches, built, hbuilt, ?_⟩
    simp only [Reentrant.takeHandler, Reentrant.registrations_daemon, hget,
      Reentrant.invoke] at hstep
    split at hstep
    · cases hstep
    · rename_i called hcalled
      cases hstep
      have hnames := onPacket_names hcalled htype
      unfold Leg.Names at hnames ⊢
      rwa [hlater.verdict, hlater.delivery] at hnames
  · cases hstep

/-! ## What a protocol names -/

def spoken (protocol : Protocol) (payload : Bytes) : Option MessageType :=
  match protocol with
  | .wol => (Wol.magicPacketMac payload).map fun _ => .wakeOnLan
  | .mdns => (Mdns.classify payload).map mdnsType
  | .ssdp => (Ssdp.classify payload).map ssdpType
  | .wsd => (Wsd.classify payload).map wsdType
  | .udp => some .udpDatagram

theorem directional_names {Kind : Type} [DecidableEq Kind]
    {typeOf : Kind → MessageType} {kind : Option Kind} {reflect : Kind}
    {type : MessageType} {delivers : Prop}
    (h : directionalVerdict typeOf kind reflect = .skip type ∨
      directionalVerdict typeOf kind reflect = .reflect type ∧ delivers) :
    ∃ found, kind = some found ∧ typeOf found = type ∧
      (found = reflect → delivers) := by
  unfold directionalVerdict at h
  cases kind with
  | none => rcases h with h | ⟨h, _⟩ <;> cases h
  | some found =>
      refine ⟨found, rfl, ?_⟩
      by_cases hsame : found = reflect
      · simp only [if_pos hsame, reduceCtorEq, false_or, Verdict.reflect.injEq]
          at h
        exact ⟨h.1, fun _ => h.2⟩
      · simp only [if_neg hsame, reduceCtorEq, false_and, or_false,
          Verdict.skip.injEq] at h
        exact ⟨h, fun heq => absurd heq hsame⟩

/-! ## Packets that two protocols take for their own -/

def Delivers (peers : Option PeerList) (packet : Packet) : Prop :=
  (Delivery.new peers).destination packet.dest.ip ≠ none

def Wakes (packet : Packet) (side : Reflector) : Prop :=
  ∃ wol mac, side.wol = some wol ∧
    packet.dest.port ∈ wol.ports.items.map (·.get) ∧
    Wol.magicPacketMac packet.payload = some mac ∧
    Wol.wakeAllowed mac side.macs = true ∧
    side.addressFamily.uses packet.dest.ip = true ∧
    Delivers side.targetPeers packet

/-- A leg of the side on the interface takes a magic packet for a message of
its protocol: mDNS any, for the flags have their top bit set, and WS-Discovery
one with an `Action` behind it.  The leg of the other direction passes it
over. -/
inductive Hears (addrs : Option InterfaceAddresses) (packet : Packet)
    (side : Reflector) : InterfaceName → Prop where
  | query (hmdns : side.mdns.isSome = true)
      (hdest : packet.dest.ip ∈ mdnsGroups side.addressFamily)
      (hport : packet.dest.port = Mdns.mdnsPort) :
      Hears addrs packet side side.sourceIf
  | response (hmdns : side.mdns.isSome = true)
      (hdest : packet.dest.ip ∈ mdnsGroups side.addressFamily ∨
        side.addressFamily.uses packet.dest.ip = true ∧
          addrs.any (·.has packet.dest.ip) = true)
      (hsrc : packet.source.port = Mdns.mdnsPort)
      (hport : packet.dest.port = Mdns.mdnsPort)
      (hmacs : macAdmits (macItems side.macs) packet = true)
      (hdelivers : Delivers side.sourcePeers packet) :
      Hears addrs packet side side.targetIf
  | announcement (hwsd : side.wsd = true) (kind : Wsd.WsdKind)
      (hkind : Wsd.classify packet.payload = some kind)
      (hdest : packet.dest.ip ∈ WSD.groups side.addressFamily)
      (hport : packet.dest.port = Wsd.wsdPort)
      (hmacs : macAdmits (macItems side.macs) packet = true)
      (hdelivers : kind = .announcement → Delivers side.sourcePeers packet) :
      Hears addrs packet side side.targetIf
  | search (hwsd : side.wsd = true) (kind : Wsd.WsdKind)
      (hkind : Wsd.classify packet.payload = some kind)
      (hdest : packet.dest.ip ∈ WSD.groups side.addressFamily)
      (hport : packet.dest.port = Wsd.wsdPort)
      (hdelivers : kind = .search → Delivers side.targetPeers packet) :
      Hears addrs packet side side.sourceIf

/-- The configuration wakes by the packet on an interface on which another
protocol hears it. -/
def Mistaken (config : Config) (addrs : Option InterfaceAddresses)
    (packet : Packet) : Prop :=
  ∃ wake ∈ sidesOf config, ∃ other ∈ sidesOf config,
    Wakes packet wake ∧ Hears addrs packet other wake.sourceIf

theorem magic_prefix {payload : Bytes}
    (h : (Wol.magicPacketMac payload).isSome = true) :
    ∃ rest, payload = 0xff :: 0xff :: 0xff :: rest ∧
      Mdns.dnsHeaderLen ≤ payload.length := by
  unfold Wol.magicPacketMac at h
  split at h
  · cases h
  rename_i hlong
  simp only at h
  split at h
  · cases h
  rename_i hprefix
  have hlen : 102 ≤ payload.length := by
    simpa [Wol.magicLen, Wol.prefixLen, Wol.macReps, Wol.macLen] using hlong
  simp only [Wol.prefixLen, Wol.magicLen, Wol.macReps, Wol.macLen,
    List.take_take, ne_eq, Decidable.not_not] at hprefix
  match payload, hlen, hprefix with
  | first :: second :: third :: rest, hlen, hprefix =>
      simp only [Nat.reduceMul, Nat.reduceAdd, Nat.reduceLeDiff, inf_of_le_left,
        List.take_succ_cons, List.replicate_succ, List.cons.injEq] at hprefix
      obtain ⟨rfl, rfl, rfl, _⟩ := hprefix
      refine ⟨rest, rfl, ?_⟩
      unfold Mdns.dnsHeaderLen
      omega

/-- A magic packet reads as an mDNS response. -/
theorem magic_response {payload : Bytes}
    (h : (Wol.magicPacketMac payload).isSome = true) :
    Mdns.classify payload = some .response := by
  obtain ⟨rest, hpayload, hlen⟩ := magic_prefix h
  unfold Mdns.classify
  rw [if_neg (by omega), hpayload]
  rfl

theorem magic_ssdp {payload : Bytes}
    (h : (Wol.magicPacketMac payload).isSome = true) :
    Ssdp.classify payload = none := by
  obtain ⟨rest, rfl, _⟩ := magic_prefix h
  rfl

section Spoken

variable {addrs : Option InterfaceAddresses} {packet : Packet}
  {source target : CaptureKey} {side : Reflector} {item : Registered}
  {type : MessageType}

theorem wol_speaks (h : item ∈ wolRegistered source target side)
    (hspeaks : Speaks addrs packet item type) :
    spoken .wol packet.payload = some type ∧ Wakes packet side ∧
      item.ingress = side.sourceIf := by
  unfold wolRegistered at h
  split at h
  · cases h
  rename_i wol hwol
  rw [List.mem_singleton] at h
  subst h
  obtain ⟨hmatches, built, hbuilt, hnames⟩ := hspeaks
  have hport := matches_ports.mp hmatches
  cases hbuilt
  simp only [Leg.Names, Leg.verdict, Leg.delivery, wolLeg, SimpleReflector.new,
    Wol.WakeClassifier.classify] at hnames
  cases hmac : Wol.magicPacketMac packet.payload with
  | none => simp [hmac] at hnames
  | some mac =>
      simp only [hmac] at hnames
      split at hnames
      · simp at hnames
      rename_i hallowed
      split at hnames
      · simp at hnames
      rename_i huses
      simp only [reduceCtorEq, false_or, Verdict.reflect.injEq] at hnames
      refine ⟨by simp [spoken, hmac, hnames.1], ⟨wol, mac, hwol, hport, hmac,
        by simpa using hallowed, by simpa using huses, hnames.2⟩, rfl⟩

theorem mdns_speaks (h : item ∈ mdnsRegistered source target side)
    (hspeaks : Speaks addrs packet item type) :
    spoken .mdns packet.payload = some type ∧
      packet.dest.port = Mdns.mdnsPort ∧
      ((Wol.magicPacketMac packet.payload).isSome = true →
        Hears addrs packet side item.ingress) := by
  unfold mdnsRegistered at h
  split at h
  · cases h
  rename_i mdns hmdns
  have hsome : side.mdns.isSome = true := by rw [hmdns]; rfl
  obtain ⟨hmatches, built, hbuilt, hnames⟩ := hspeaks
  rcases List.mem_cons.mp h with rfl | h
  · cases hbuilt
    obtain ⟨hdest, hport⟩ := matches_groups.mp hmatches
    have hport := List.mem_singleton.mp hport
    obtain ⟨found, hkind, htype, _⟩ := directional_names hnames
    exact ⟨by simp [spoken, hkind, htype], hport,
      fun _ => .query hsome hdest hport⟩
  · rw [List.mem_singleton] at h
    subst h
    cases hbuilt
    obtain ⟨hdest, hsrc, hport, hmacs⟩ := matches_responses.mp hmatches
    have hport := List.mem_singleton.mp hport
    obtain ⟨found, hkind, htype, hdelivers⟩ := directional_names hnames
    refine ⟨by simp [spoken, hkind, htype], hport, fun hmagic => ?_⟩
    rw [magic_response hmagic, Option.some.injEq] at hkind
    exact .response hsome hdest hsrc hport hmacs (hdelivers hkind.symm)

theorem ssdp_speaks (h : item ∈ ssdpRegistered source target side)
    (hspeaks : Speaks addrs packet item type) :
    spoken .ssdp packet.payload = some type ∧
      packet.dest.port = Ssdp.ssdpPort := by
  unfold ssdpRegistered at h
  split at h
  · cases h
  obtain ⟨hmatches, built, hbuilt, hnames⟩ := hspeaks
  rcases List.mem_cons.mp h with rfl | h
  · cases hbuilt
    obtain ⟨_, hport, _⟩ := matches_announced.mp hmatches
    obtain ⟨found, hkind, htype, _⟩ := directional_names hnames
    exact ⟨by simp [spoken, hkind, htype], List.mem_singleton.mp hport⟩
  · rw [List.mem_singleton] at h
    subst h
    cases hbuilt
    obtain ⟨_, hport⟩ := matches_groups.mp hmatches
    obtain ⟨found, hkind, htype, _⟩ := directional_names hnames
    exact ⟨by simp [spoken, hkind, htype], List.mem_singleton.mp hport⟩

theorem wsd_speaks (h : item ∈ wsdRegistered source target side)
    (hspeaks : Speaks addrs packet item type) :
    spoken .wsd packet.payload = some type ∧
      packet.dest.port = Wsd.wsdPort ∧ Hears addrs packet side item.ingress := by
  unfold wsdRegistered at h
  rw [List.mem_ite_nil_right] at h
  obtain ⟨hwsd, h⟩ := h
  obtain ⟨hmatches, built, hbuilt, hnames⟩ := hspeaks
  rcases List.mem_cons.mp h with rfl | h
  · cases hbuilt
    obtain ⟨hdest, hport, hmacs⟩ := matches_announced.mp hmatches
    have hport := List.mem_singleton.mp hport
    obtain ⟨found, hkind, htype, hdelivers⟩ := directional_names hnames
    exact ⟨by simp [spoken, hkind, htype], hport,
      .announcement hwsd found hkind hdest hport hmacs hdelivers⟩
  · rw [List.mem_singleton] at h
    subst h
    cases hbuilt
    obtain ⟨hdest, hport⟩ := matches_groups.mp hmatches
    have hport := List.mem_singleton.mp hport
    obtain ⟨found, hkind, htype, hdelivers⟩ := directional_names hnames
    exact ⟨by simp [spoken, hkind, htype], hport,
      .search hwsd found hkind hdest hport hdelivers⟩

theorem udp_speaks (h : item ∈ udpRegistered source target side)
    (hspeaks : Speaks addrs packet item type) :
    type = .udpDatagram := by
  unfold udpRegistered at h
  split at h
  · cases h
  obtain ⟨filter, _, rfl⟩ := List.mem_map.mp h
  obtain ⟨_, built, hbuilt, hnames⟩ := hspeaks
  cases hbuilt
  rcases hnames with hnames | ⟨hnames, _⟩ <;> cases hnames
  rfl

end Spoken

def Placed (addrs : Option InterfaceAddresses) (packet : Packet)
    (side : Reflector) (ingress : InterfaceName) : Protocol → Prop
  | .wol => Wakes packet side ∧ ingress = side.sourceIf
  | .mdns => packet.dest.port = Mdns.mdnsPort ∧
      ((Wol.magicPacketMac packet.payload).isSome = true →
        Hears addrs packet side ingress)
  | .ssdp => packet.dest.port = Ssdp.ssdpPort
  | .wsd => packet.dest.port = Wsd.wsdPort ∧ Hears addrs packet side ingress
  | .udp => True

section Registrations

variable {captures : InterfaceName → CaptureKey} {config : Config}
  {addrs : Option InterfaceAddresses} {packet : Packet}

theorem registered_speaks {item : Registered} {type : MessageType}
    (h : item ∈ registered captures config)
    (hspeaks : Speaks addrs packet item type) :
    spoken item.protocol packet.payload = some type ∧
      ∃ side ∈ sidesOf config,
        Placed addrs packet side item.ingress item.protocol := by
  obtain ⟨reflector, hreflector, hentry⟩ := List.mem_flatMap.mp h
  obtain ⟨side, hmem, hside⟩ := List.mem_flatMap.mp hentry
  have hsides := mem_sidesOf hreflector hmem
  simp only [sideRegistered, List.mem_append] at hside
  rcases hside with (((h | h) | h) | h) | h
  · rw [wol_protocol h]
    obtain ⟨hspoken, hplaced⟩ := wol_speaks h hspeaks
    exact ⟨hspoken, side, hsides, hplaced⟩
  · rw [mdns_protocol h]
    obtain ⟨hspoken, hplaced⟩ := mdns_speaks h hspeaks
    exact ⟨hspoken, side, hsides, hplaced⟩
  · rw [ssdp_protocol h]
    obtain ⟨hspoken, hplaced⟩ := ssdp_speaks h hspeaks
    exact ⟨hspoken, side, hsides, hplaced⟩
  · rw [wsd_protocol h]
    obtain ⟨hspoken, hplaced⟩ := wsd_speaks h hspeaks
    exact ⟨hspoken, side, hsides, hplaced⟩
  · rw [udp_protocol h, udp_speaks h hspeaks]
    exact ⟨rfl, side, hsides, trivial⟩

theorem competing {first second : Protocol} {type other : MessageType}
    {side side' : Reflector} {ingress : InterfaceName}
    (hne : first ≠ second) (hfirst : first ≠ .udp) (hsecond : second ≠ .udp)
    (hspoken : spoken first packet.payload = some type)
    (hspoken' : spoken second packet.payload = some other)
    (hside : side ∈ sidesOf config) (hside' : side' ∈ sidesOf config)
    (hplaced : Placed addrs packet side ingress first)
    (hplaced' : Placed addrs packet side' ingress second) :
    Mistaken config addrs packet := by
  -- Wake-on-LAN is one of the two: the ports of the others differ.
  have hwake : ∀ (protocol : Protocol) (named : MessageType)
      (wake other : Reflector), protocol ≠ .wol → protocol ≠ .udp →
      wake ∈ sidesOf config → other ∈ sidesOf config →
      spoken protocol packet.payload = some named →
      Placed addrs packet wake ingress .wol →
      Placed addrs packet other ingress protocol →
      Mistaken config addrs packet := by
    rintro protocol named wake other hwol hudp hwake hother hnamed
      ⟨hwakes, rfl⟩ hplaced
    have hmagic : (Wol.magicPacketMac packet.payload).isSome = true := by
      obtain ⟨_, mac, _, _, hmac, _⟩ := hwakes
      rw [hmac]
      rfl
    cases protocol with
    | wol => exact absurd rfl hwol
    | udp => exact absurd rfl hudp
    | mdns => exact ⟨wake, hwake, other, hother, hwakes, hplaced.2 hmagic⟩
    | ssdp =>
        simp only [spoken, magic_ssdp hmagic] at hnamed
        cases hnamed
    | wsd => exact ⟨wake, hwake, other, hother, hwakes, hplaced.2⟩
  have hports : Mdns.mdnsPort ≠ Ssdp.ssdpPort ∧
      Mdns.mdnsPort ≠ Wsd.wsdPort ∧ Ssdp.ssdpPort ≠ Wsd.wsdPort := by decide
  by_cases hwol : first = .wol
  · subst hwol
    exact hwake second other side side' (Ne.symm hne) hsecond hside hside'
      hspoken' hplaced hplaced'
  by_cases hwol' : second = .wol
  · subst hwol'
    exact hwake first type side' side hwol hfirst hside' hside hspoken hplaced'
      hplaced
  exfalso
  cases first <;> cases second <;> simp_all [Placed]

end Registrations

/-! ## The fold -/

def reportsMismatch : Option Outcome → List Outcome → Bool
  | _, [] => false
  | none, outcome :: rest => reportsMismatch (some outcome) rest
  | some prev, outcome :: rest =>
      (prev.combine outcome).2.typeMismatch ||
        reportsMismatch (some (prev.combine outcome).1) rest

def Outcome.Only (type : MessageType) (outcome : Outcome) : Prop :=
  ∀ named, outcome.messageType = some named → named.isSpecific = true →
    named = type

theorem messageType_withType (type : MessageType) (outcome : Outcome) :
    (outcome.withType type).messageType =
      outcome.messageType.map fun _ => type := by
  cases outcome <;> rfl

theorem Outcome.Only.combine {type : MessageType} {first second : Outcome}
    (hfirst : first.Only type) (hsecond : second.Only type) :
    (first.combine second).2.typeMismatch = false ∧
      (first.combine second).1.Only type := by
  have hwins : (if second.disposition.rank > first.disposition.rank then
      second else first).Only type := by
    split
    · exact hsecond
    · exact hfirst
  unfold Outcome.combine
  cases hnamed : first.messageType with
  | none => exact ⟨rfl, hwins⟩
  | some named =>
      cases hother : second.messageType with
      | none => exact ⟨rfl, hwins⟩
      | some other =>
          simp only
          constructor
          · by_contra hmismatch
            simp only [Bool.not_eq_false, Bool.and_eq_true,
              decide_eq_true_eq] at hmismatch
            obtain ⟨⟨hne, hspecific⟩, hspecific'⟩ := hmismatch
            exact hne ((hfirst named hnamed hspecific).trans
              (hsecond other hother hspecific').symm)
          · split
            · intro merged hmerged hspecific
              rw [messageType_withType, Option.map_eq_some_iff] at hmerged
              obtain ⟨_, _, rfl⟩ := hmerged
              split at hspecific
              · rename_i hfirst'
                rw [if_pos hfirst']
                exact hfirst named hnamed hfirst'
              · rename_i hfirst'
                rw [if_neg hfirst']
                exact hsecond other hother hspecific
            · exact hwins

theorem reportsMismatch_false {type : MessageType} {outcomes : List Outcome}
    (h : ∀ outcome ∈ outcomes, outcome.Only type) (final : Option Outcome)
    (hfinal : ∀ outcome, final = some outcome → outcome.Only type) :
    reportsMismatch final outcomes = false := by
  induction outcomes generalizing final with
  | nil => cases final <;> rfl
  | cons outcome outcomes ih =>
      have hrest : ∀ later ∈ outcomes, later.Only type := fun later hlater =>
        h later (List.mem_cons_of_mem _ hlater)
      cases final with
      | none =>
          refine ih hrest (some outcome) ?_
          rintro _ ⟨⟩
          exact h outcome List.mem_cons_self
      | some prev =>
          obtain ⟨hagree, honly⟩ :=
            (hfinal prev rfl).combine (h outcome List.mem_cons_self)
          rw [reportsMismatch, hagree, Bool.false_or]
          refine ih hrest _ ?_
          rintro _ ⟨⟩
          exact honly

/-! ## One voice -/

/-- Among the handlers that a packet is offered to on one ingress, no two name
different protocols, and at most one of the protocols reflects it onto an
egress. -/
def OneVoice (captures : InterfaceName → CaptureKey) (config : Config)
    (addrs : Option InterfaceAddresses) (packet : Packet) : Prop :=
  ∀ (ingress : InterfaceName) (answers : List (Registered × Outcome)),
    (∀ answer ∈ answers, answer.1 ∈ registered captures config ∧
      answer.1.ingress = ingress ∧
      Called addrs packet answer.1 answer.2) →
    reportsMismatch none (answers.map Prod.snd) = false ∧
    ∀ first ∈ answers, ∀ second ∈ answers,
      first.1.protocol ≠ .udp → second.1.protocol ≠ .udp →
      first.2.disposition = .reflected → second.2.disposition = .reflected →
      first.1.egress = second.1.egress →
      first.1.protocol = second.1.protocol

theorem spoken_specific {protocol : Protocol} {payload : Bytes}
    {type : MessageType} (h : spoken protocol payload = some type) :
    type.isSpecific = true ↔ protocol ≠ .udp := by
  cases protocol with
  | wol =>
      obtain ⟨_, _, rfl⟩ := Option.map_eq_some_iff.mp h
      decide
  | mdns =>
      obtain ⟨kind, _, rfl⟩ := Option.map_eq_some_iff.mp h
      cases kind <;> decide
  | ssdp =>
      obtain ⟨kind, _, rfl⟩ := Option.map_eq_some_iff.mp h
      cases kind <;> decide
  | wsd =>
      obtain ⟨kind, _, rfl⟩ := Option.map_eq_some_iff.mp h
      cases kind <;> decide
  | udp =>
      cases h
      decide

theorem one_voice {captures : InterfaceName → CaptureKey} {config : Config}
    {addrs : Option InterfaceAddresses} {packet : Packet}
    (hplain : ¬ Mistaken config addrs packet) :
    OneVoice captures config addrs packet := by
  intro ingress answers hanswers
  have hspoken : ∀ answer ∈ answers, ∀ type,
      answer.2.messageType = some type →
      spoken answer.1.protocol packet.payload = some type ∧
        ∃ side ∈ sidesOf config,
          Placed addrs packet side ingress answer.1.protocol := by
    intro answer hmem type htype
    obtain ⟨hregistered, rfl, hcalled⟩ := hanswers answer hmem
    exact registered_speaks hregistered (hcalled.speaks htype)
  -- Two that name a protocol name the same.
  have hsame : ∀ first ∈ answers, ∀ second ∈ answers, ∀ type other,
      first.2.messageType = some type → second.2.messageType = some other →
      first.1.protocol ≠ .udp → second.1.protocol ≠ .udp →
      first.1.protocol = second.1.protocol := by
    intro first hfirst second hsecond type other htype hother hudp hudp'
    obtain ⟨hnamed, side, hside, hplaced⟩ := hspoken first hfirst type htype
    obtain ⟨hnamed', side', hside', hplaced'⟩ :=
      hspoken second hsecond other hother
    by_contra hne
    exact hplain (competing hne hudp hudp' hnamed hnamed' hside hside' hplaced
      hplaced')
  constructor
  · by_cases hany : ∃ answer ∈ answers, ∃ type,
        answer.2.messageType = some type ∧ type.isSpecific = true
    · obtain ⟨leader, hleader, type, htype, hspecific⟩ := hany
      have hnamed := (hspoken leader hleader type htype).1
      have honly : ∀ outcome ∈ answers.map Prod.snd, outcome.Only type := by
        intro outcome hmem named hnames hspecific'
        obtain ⟨answer, hanswer, rfl⟩ := List.mem_map.mp hmem
        have hnamed' := (hspoken answer hanswer named hnames).1
        have hprotocol := hsame leader hleader answer hanswer type named htype
          hnames ((spoken_specific hnamed).mp hspecific)
          ((spoken_specific hnamed').mp hspecific')
        rw [← hprotocol, hnamed] at hnamed'
        exact (Option.some.inj hnamed').symm
      exact reportsMismatch_false honly none (by simp)
    · have honly : ∀ outcome ∈ answers.map Prod.snd,
          outcome.Only .udpDatagram := by
        intro outcome hmem named hnames hspecific
        obtain ⟨answer, hanswer, rfl⟩ := List.mem_map.mp hmem
        exact absurd ⟨answer, hanswer, named, hnames, hspecific⟩ hany
      exact reportsMismatch_false honly none (by simp)
  · intro first hfirst second hsecond hudp hudp' hreflected hreflected' _
    have hnamed : ∀ outcome : Outcome, outcome.disposition = .reflected →
        ∃ type, outcome.messageType = some type := by
      intro outcome houtcome
      cases outcome <;> first | exact ⟨_, rfl⟩ | cases houtcome
    obtain ⟨type, htype⟩ := hnamed _ hreflected
    obtain ⟨other, hother⟩ := hnamed _ hreflected'
    exact hsame first hfirst second hsecond type other htype hother hudp hudp'

/-! ## Two that speak -/

def idle (registration : Registration PacketHandler) : Daemon :=
  { Daemon.new true true 0 0 with
    dispatcher := { (Daemon.new true true 0 0).dispatcher with
      registrations := ⟨[⟨0, some registration⟩], []⟩ } }

def idleCalls : PacketCalls :=
  ⟨0, fun _ _ => .ok (), .ok 1,
    ⟨.ok [], .error .noBufs, .error .noBufs, fun _ => none, fun _ => none⟩⟩

section Idle

variable {addrs : Option InterfaceAddresses} {packet : Packet}
  {item : Registered} {outcome : Outcome}

theorem called_idle {handler : PacketHandler}
    (hhandler : item.registration.handler = some handler)
    (hmatches : item.registration.filter.matches packet addrs = true)
    (h : ∃ later after, onPacket (fun _ _ => 0) idleCalls ⟨0, 0⟩ handler
      packet (idle ⟨item.registration.ingress, item.registration.filter,
        none⟩) = .ok (later, after, outcome)) :
    Called addrs packet item outcome := by
  obtain ⟨later, after, h⟩ := h
  refine ⟨fun _ _ => 0, idleCalls, ⟨0, 0⟩, idle ⟨item.registration.ingress,
    item.registration.filter, some handler⟩,
    Reentrant.restoreHandler Reentrant.daemonHost after ⟨0, 0⟩ later, handler,
    handler, hhandler, ?_, rfl, ?_⟩
  · cases hleg : handler.leg with
    | simple reflector => rfl
    | search reflector => rfl
  · have happlies : (Registration.mk item.registration.ingress
        item.registration.filter (some handler)).applies
        item.registration.ingress packet addrs = true := by
      simp [Registration.applies, hmatches]
    change (if (Registration.mk item.registration.ingress
      item.registration.filter (some handler)).applies
        item.registration.ingress packet addrs then _ else _) = _
    rw [if_pos happlies]
    change Reentrant.invoke _ _ _ handler (idle _) = _
    simp only [Reentrant.invoke, h]

theorem called_skipped {leg : Leg} {type : MessageType}
    (hhandler : item.registration.handler = some ⟨leg, none⟩)
    (hmatches : item.registration.filter.matches packet addrs = true)
    (hverdict : leg.verdict packet = .skip type) :
    Called addrs packet item (.skipped type) := by
  refine called_idle hhandler hmatches ?_
  cases leg with
  | simple reflector =>
      simp only [Leg.verdict] at hverdict
      refine ⟨⟨.simple reflector, none⟩, idle ⟨item.registration.ingress,
        item.registration.filter, none⟩, ?_⟩
      simp only [onPacket, SimpleReflector.onPacket, hverdict, bind,
        Except.bind]
  | search reflector =>
      simp only [Leg.verdict] at hverdict
      refine ⟨⟨.search reflector, none⟩, idle ⟨item.registration.ingress,
        item.registration.filter, none⟩, ?_⟩
      simp only [onPacket, SearchReflector.onPacket, hverdict, bind,
        Except.bind]

theorem linkDestination_some {dest : SocketAddr}
    {directed : Option Ipv4Addr} {unicast : UnicastTo}
    (h : unicast ≠ .nowhere ∨ isGroup dest.ip = true) :
    ∃ aim, linkDestination dest directed unicast = some aim := by
  rcases h with hunicast | hgroup
  · cases hip : dest.ip <;> cases unicast <;>
      simp [linkDestination, hip] at hunicast ⊢ <;> split <;> simp
  · cases hip : dest.ip with
    | v4 addr =>
        rw [hip] at hgroup
        have hmulticast : addr.isMulticast = true := hgroup
        exact ⟨dest, by simp [linkDestination, hip, hmulticast]⟩
    | v6 addr =>
        rw [hip] at hgroup
        have hmulticast : addr.isMulticast = true := hgroup
        exact ⟨dest, by simp [linkDestination, hip, hmulticast]⟩

theorem called_stalled {reflector : SimpleReflector} {type : MessageType}
    {peers : Option PeerList}
    (hhandler : item.registration.handler = simpleHandler reflector)
    (hmatches : item.registration.filter.matches packet addrs = true)
    (hverdict : reflector.classify packet = .reflect type)
    (hdelivery : reflector.delivery = .new peers)
    (hdelivers : Delivers peers packet)
    (hplace : reflector.emit.unicast ≠ .nowhere ∨
      isGroup packet.dest.ip = true) :
    Called addrs packet item (.stalled type) := by
  refine called_idle hhandler hmatches ⟨⟨.simple reflector, none⟩,
    idle ⟨item.registration.ingress, item.registration.filter, none⟩, ?_⟩
  have hnone : reflector.delivery.destination packet.dest.ip ≠ none := by
    rw [hdelivery]
    exact hdelivers
  obtain ⟨dest, hdest⟩ : ∃ dest, reflector.destination packet
      (idle ⟨item.registration.ingress, item.registration.filter,
        none⟩).dispatcher = some dest := by
    unfold SimpleReflector.destination
    rw [hdelivery]
    cases peers with
    | none => exact linkDestination_some hplace
    | some peers => exact linkDestination_some hplace
  simp only [onPacket, SimpleReflector.onPacket, hverdict, hdest, if_neg hnone,
    bind, Except.bind]
  rfl

theorem called_unsent {reflector : SearchReflector} {type : MessageType}
    {peers : Option PeerList}
    (hhandler : item.registration.handler = some ⟨.search reflector, none⟩)
    (hmatches : item.registration.filter.matches packet addrs = true)
    (hverdict : reflector.protocol.searchVerdict packet.payload =
      .reflect type)
    (hdelivery : reflector.delivery = .new peers)
    (hdelivers : Delivers peers packet) (hsessions : reflector.sessions = .new) :
    Called addrs packet item (.stalled type) := by
  refine called_idle hhandler hmatches ⟨⟨.search reflector, none⟩,
    idle ⟨item.registration.ingress, item.registration.filter, none⟩, ?_⟩
  obtain ⟨destination, hdestination⟩ : ∃ destination,
      reflector.delivery.destination packet.dest.ip = some destination := by
    rw [hdelivery]
    exact Option.ne_none_iff_exists'.mp hdelivers
  have hsource : (idle ⟨item.registration.ingress, item.registration.filter,
      none⟩).dispatcher.replySource reflector.target destination = none := by
    cases destination <;> rfl
  have hmade : reflector.makeSession idleCalls ⟨0, 0⟩ packet destination
      (idle ⟨item.registration.ingress, item.registration.filter,
        none⟩).dispatcher (idleCalls.now +
          reflector.protocol.window packet.payload) type =
      .ok ((idle ⟨item.registration.ingress, item.registration.filter,
        none⟩).dispatcher, .error (.stalled type)) := by
    unfold SearchReflector.makeSession
    rw [hsessions, hsource]
    rfl
  have hnew : reflector.sessions.get ⟨packet.source, packet.dest⟩ = none := by
    rw [hsessions]
    rfl
  simp only [onPacket, SearchReflector.onPacket, hverdict, hdestination, hnew,
    SearchReflector.open, hmade, bind, Except.bind]

end Idle

section Heard

variable {captures : InterfaceName → CaptureKey} {config : Config}
  {addrs : Option InterfaceAddresses} {packet : Packet} {side : Reflector}

def Heard (captures : InterfaceName → CaptureKey) (config : Config)
    (addrs : Option InterfaceAddresses) (packet : Packet)
    (ingress : InterfaceName) (type : MessageType) : Prop :=
  ∃ item outcome, item ∈ registered captures config ∧
    item.ingress = ingress ∧ Called addrs packet item outcome ∧
    outcome.messageType = some type

theorem Wakes.heard (hside : side ∈ sidesOf config) (h : Wakes packet side) :
    Heard captures config addrs packet side.sourceIf .wakeOnLan := by
  obtain ⟨wol, mac, hwol, hport, hmac, hallowed, huses, hdelivers⟩ := h
  refine ⟨⟨.wol, side.sourceIf, side.targetIf, captures side.sourceIf,
    { Filter.any with dstPort := some (wol.ports.items.map (·.get)) },
    simpleHandler (wolLeg (captures side.targetIf) side)⟩,
    .stalled .wakeOnLan, mem_registered hside (side_wol ?_), rfl, ?_, rfl⟩
  · rw [wolRegistered, hwol]
    exact List.mem_singleton_self _
  · refine called_stalled rfl (matches_ports.mpr hport) ?_ rfl hdelivers
      (.inl ?_)
    · simp [wolLeg, SimpleReflector.new, Wol.WakeClassifier.classify, hmac,
        hallowed, huses]
    · rintro ⟨⟩

theorem directionalVerdict_skip {Kind : Type} [DecidableEq Kind]
    {typeOf : Kind → MessageType} {kind reflect : Kind}
    (h : kind ≠ reflect) :
    directionalVerdict typeOf (some kind) reflect = .skip (typeOf kind) :=
  if_neg h

theorem wsd_group {family : AddressFamily}
    (h : packet.dest.ip ∈ WSD.groups family) :
    isGroup packet.dest.ip = true := by
  have hall : ∀ ip ∈ IpAddr.v4 WSD.groupV4 :: WSD.groupsV6.map .v6,
      isGroup ip = true := by decide
  exact hall _ (mem_groupAddrs.mp h).1

theorem heard_query (hside : side ∈ sidesOf config)
    (hmagic : (Wol.magicPacketMac packet.payload).isSome = true)
    (hmdns : side.mdns.isSome = true)
    (hdest : packet.dest.ip ∈ mdnsGroups side.addressFamily)
    (hport : packet.dest.port = Mdns.mdnsPort) :
    Heard captures config addrs packet side.sourceIf .mdnsResponse := by
  obtain ⟨mdns, hsome⟩ := Option.isSome_iff_exists.mp hmdns
  have hmem : ∀ item ∈ mdnsRegistered (captures side.sourceIf)
      (captures side.targetIf) side, item ∈ registered captures config :=
    fun item hitem => mem_registered hside (side_mdns hitem)
  simp only [mdnsRegistered, hsome] at hmem
  refine ⟨_, .skipped .mdnsResponse, hmem _ List.mem_cons_self, rfl,
    called_skipped rfl
      (matches_groups.mpr ⟨hdest, List.mem_singleton.mpr hport⟩) ?_, rfl⟩
  simp only [Leg.verdict, mdnsQueryLeg, SimpleReflector.new, mdnsDirection,
    magic_response hmagic]
  exact directionalVerdict_skip (by decide)

theorem heard_response (hside : side ∈ sidesOf config)
    (hmagic : (Wol.magicPacketMac packet.payload).isSome = true)
    (hmdns : side.mdns.isSome = true)
    (hdest : packet.dest.ip ∈ mdnsGroups side.addressFamily ∨
      side.addressFamily.uses packet.dest.ip = true ∧
        addrs.any (·.has packet.dest.ip) = true)
    (hsrc : packet.source.port = Mdns.mdnsPort)
    (hport : packet.dest.port = Mdns.mdnsPort)
    (hmacs : macAdmits (macItems side.macs) packet = true)
    (hdelivers : Delivers side.sourcePeers packet) :
    Heard captures config addrs packet side.targetIf .mdnsResponse := by
  obtain ⟨mdns, hsome⟩ := Option.isSome_iff_exists.mp hmdns
  have hmem : ∀ item ∈ mdnsRegistered (captures side.sourceIf)
      (captures side.targetIf) side, item ∈ registered captures config :=
    fun item hitem => mem_registered hside (side_mdns hitem)
  simp only [mdnsRegistered, hsome] at hmem
  refine ⟨_, .stalled .mdnsResponse,
    hmem _ (List.mem_cons_of_mem _ List.mem_cons_self), rfl,
    called_stalled rfl (matches_responses.mpr
      ⟨hdest, hsrc, List.mem_singleton.mpr hport, hmacs⟩)
      (directionalVerdict_reflect (magic_response hmagic)) rfl hdelivers
      (.inl ?_), rfl⟩
  rintro ⟨⟩

theorem heard_announcement (hside : side ∈ sidesOf config)
    (hwsd : side.wsd = true) {kind : Wsd.WsdKind}
    (hkind : Wsd.classify packet.payload = some kind)
    (hdest : packet.dest.ip ∈ WSD.groups side.addressFamily)
    (hport : packet.dest.port = Wsd.wsdPort)
    (hmacs : macAdmits (macItems side.macs) packet = true)
    (hdelivers : kind = .announcement → Delivers side.sourcePeers packet) :
    Heard captures config addrs packet side.targetIf (wsdType kind) := by
  have hmem : ∀ item ∈ wsdRegistered (captures side.sourceIf)
      (captures side.targetIf) side, item ∈ registered captures config :=
    fun item hitem => mem_registered hside (side_wsd hitem)
  simp only [wsdRegistered, hwsd, if_true] at hmem
  have hadmitted : packet.dest.ip ∈ WSD.groups side.addressFamily ∧
      packet.dest.port ∈ [WSD.port] ∧
      macAdmits (macItems side.macs) packet = true :=
    ⟨hdest, List.mem_singleton.mpr hport, hmacs⟩
  refine ⟨_, ?_, hmem _ List.mem_cons_self, rfl, ?_⟩
  · exact if kind = .announcement then .stalled (wsdType kind)
      else .skipped (wsdType kind)
  by_cases hhere : kind = .announcement
  · rw [if_pos hhere]
    refine ⟨called_stalled rfl (matches_announced.mpr hadmitted) ?_ rfl
      (hdelivers hhere) (.inr (wsd_group hdest)), rfl⟩
    rw [hhere] at hkind ⊢
    exact directionalVerdict_reflect hkind
  · rw [if_neg hhere]
    refine ⟨called_skipped rfl (matches_announced.mpr hadmitted) ?_, rfl⟩
    simp only [Leg.verdict, announcementLeg, SimpleReflector.new, WSD, hkind]
    exact directionalVerdict_skip hhere

theorem heard_search (hside : side ∈ sidesOf config)
    (hwsd : side.wsd = true) {kind : Wsd.WsdKind}
    (hkind : Wsd.classify packet.payload = some kind)
    (hdest : packet.dest.ip ∈ WSD.groups side.addressFamily)
    (hport : packet.dest.port = Wsd.wsdPort)
    (hdelivers : kind = .search → Delivers side.targetPeers packet) :
    Heard captures config addrs packet side.sourceIf (wsdType kind) := by
  have hmem : ∀ item ∈ wsdRegistered (captures side.sourceIf)
      (captures side.targetIf) side, item ∈ registered captures config :=
    fun item hitem => mem_registered hside (side_wsd hitem)
  simp only [wsdRegistered, hwsd, if_true] at hmem
  have hadmitted : packet.dest.ip ∈ WSD.groups side.addressFamily ∧
      packet.dest.port ∈ [WSD.port] :=
    ⟨hdest, List.mem_singleton.mpr hport⟩
  refine ⟨_, ?_, hmem _ (List.mem_cons_of_mem _ List.mem_cons_self), rfl, ?_⟩
  · exact if kind = .search then .stalled (wsdType kind)
      else .skipped (wsdType kind)
  by_cases hhere : kind = .search
  · rw [if_pos hhere]
    refine ⟨called_unsent rfl (matches_groups.mpr hadmitted) ?_ rfl
      (hdelivers hhere) rfl, rfl⟩
    rw [hhere] at hkind ⊢
    exact directionalVerdict_reflect hkind
  · rw [if_neg hhere]
    refine ⟨called_skipped rfl (matches_groups.mpr hadmitted) ?_, rfl⟩
    simp only [Leg.verdict, searchLeg, WSD, hkind]
    exact directionalVerdict_skip hhere

theorem wsdType_specific (kind : Wsd.WsdKind) :
    (wsdType kind).isSpecific = true ∧ wsdType kind ≠ .wakeOnLan := by
  cases kind <;> decide

theorem Hears.heard (hside : side ∈ sidesOf config)
    (hmagic : (Wol.magicPacketMac packet.payload).isSome = true)
    {ingress : InterfaceName} (h : Hears addrs packet side ingress) :
    ∃ type, type.isSpecific = true ∧ type ≠ .wakeOnLan ∧
      Heard captures config addrs packet ingress type := by
  cases h with
  | query hmdns hdest hport =>
      exact ⟨.mdnsResponse, rfl, by decide,
        heard_query hside hmagic hmdns hdest hport⟩
  | response hmdns hdest hsrc hport hmacs hdelivers =>
      exact ⟨.mdnsResponse, rfl, by decide,
        heard_response hside hmagic hmdns hdest hsrc hport hmacs hdelivers⟩
  | announcement hwsd kind hkind hdest hport hmacs hdelivers =>
      exact ⟨wsdType kind, (wsdType_specific kind).1, (wsdType_specific kind).2,
        heard_announcement hside hwsd hkind hdest hport hmacs hdelivers⟩
  | search hwsd kind hkind hdest hport hdelivers =>
      exact ⟨wsdType kind, (wsdType_specific kind).1, (wsdType_specific kind).2,
        heard_search hside hwsd hkind hdest hport hdelivers⟩

theorem two_voices {ingress : InterfaceName} {type other : MessageType}
    (htype : type.isSpecific = true) (hother : other.isSpecific = true)
    (hne : type ≠ other) (h : Heard captures config addrs packet ingress type)
    (h' : Heard captures config addrs packet ingress other) :
    ¬ OneVoice captures config addrs packet := by
  intro hvoice
  obtain ⟨first, outcome, hfirst, hingress, hcalled, hnames⟩ := h
  obtain ⟨second, outcome', hsecond, hingress', hcalled', hnames'⟩ := h'
  have hanswers : ∀ answer ∈ [(first, outcome), (second, outcome')],
      answer.1 ∈ registered captures config ∧ answer.1.ingress = ingress ∧
        Called addrs packet answer.1 answer.2 := by
    intro answer hmem
    rcases List.mem_cons.mp hmem with rfl | hmem
    · exact ⟨hfirst, hingress, hcalled⟩
    · rw [List.mem_singleton.mp hmem]
      exact ⟨hsecond, hingress', hcalled'⟩
  have hagree := (hvoice ingress _ hanswers).1
  have hmismatch : (outcome.combine outcome').2.typeMismatch = true := by
    simp [Outcome.combine, hnames, hnames', htype, hother, hne]
  simp [reportsMismatch, hmismatch] at hagree

theorem Mistaken.two_voices (h : Mistaken config addrs packet) :
    ¬ OneVoice captures config addrs packet := by
  obtain ⟨wake, hwake, other, hother, hwakes, hhears⟩ := h
  have hmagic : (Wol.magicPacketMac packet.payload).isSome = true := by
    obtain ⟨_, mac, _, _, hmac, _⟩ := hwakes
    rw [hmac]
    rfl
  obtain ⟨type, hspecific, hne, hheard⟩ := hhears.heard hother hmagic
  exact Reflector.two_voices rfl hspecific hne.symm (hwakes.heard hwake) hheard

end Heard

/-- No two called handlers name different protocols, and at most one protocol
reflects the packet onto an egress, exactly if no other protocol hears a magic
packet that wakes. -/
theorem one_voice_iff (captures : InterfaceName → CaptureKey)
    (config : Config) (addrs : Option InterfaceAddresses) (packet : Packet) :
    OneVoice captures config addrs packet ↔
      ¬ Mistaken config addrs packet := by
  constructor
  · intro hvoice hmistaken
    exact hmistaken.two_voices hvoice
  · exact one_voice

/-! ## A configuration in which two speak -/

theorem mdnsPort_ne_zero : Mdns.mdnsPort ≠ 0 := by decide

def wakePorts : PortList where
  items := [⟨Mdns.mdnsPort, mdnsPort_ne_zero⟩]
  nonempty := List.cons_ne_nil _ _
  nodup := List.nodup_singleton _
  admitted := fun _ _ => rfl

def wakingRaw : RawReflector :=
  { RawReflector.between sourceName targetName with
    wol := true
    wolPorts := some wakePorts
    mdns := true }

def waking : Reflector where
  name := ⟨['r']⟩
  sourceIf := sourceName
  targetIf := targetName
  sourcePeers := none
  targetPeers := none
  macs := none
  addressFamily := .default
  wol := some ⟨wakePorts⟩
  mdns := some ⟨none⟩
  ssdp := none
  wsd := false
  bidirectional := false
  udp := none
  distinct := names_distinct

def magicToGroup : Packet where
  source := ⟨.v4 (.new 10 0 15 2), 9⟩
  dest := ⟨.v4 Mdns.mdnsGroupV4, Mdns.mdnsPort⟩
  ttl := 1
  dstMac := none
  srcMac := none
  payload := List.replicate 6 0xff ++
    (List.replicate 16 [2, 0, 0, 0, 0, 9]).flatten

theorem magicToGroup_two_voices :
    Config.tryFrom (oneEntry wakingRaw) = .ok ⟨none, none, none, [waking]⟩ ∧
      ¬ OneVoice (fun name => if name = sourceName then ⟨0⟩ else ⟨1⟩)
        ⟨none, none, none, [waking]⟩ (some hostAddrs) magicToGroup := by
  have hmac : Wol.magicPacketMac magicToGroup.payload =
      some ⟨[2, 0, 0, 0, 0, 9], rfl⟩ := by decide
  have hmistaken : Mistaken ⟨none, none, none, [waking]⟩ (some hostAddrs)
      magicToGroup :=
    ⟨waking, List.mem_singleton_self _, waking, List.mem_singleton_self _,
      ⟨_, _, rfl, List.mem_singleton_self _, hmac, rfl, rfl,
        Option.some_ne_none _⟩,
      .query rfl (by decide) rfl⟩
  exact ⟨oneEntry_accepted rfl, hmistaken.two_voices⟩

end Netflector.Reflector
