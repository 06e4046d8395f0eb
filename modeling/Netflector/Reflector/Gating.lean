import Netflector.Dispatch.Handling
import Netflector.Dispatch.PeerSends
import Netflector.Dispatch.Reading
import Netflector.Reflector.Coverage

/-!
# The gates of a re-emit

A leg checks the family of its peers, where the packet goes and whether the
egress has a source before it sends.  The datagram is built from scratch
behind that, and none of what it would refuse is left to refuse.
-/

namespace Netflector.Reflector

open Netflector.Foundation
open Netflector.Net
open Netflector.Reactor
open Netflector.Config
open Netflector.Dispatch

/-! ## What the gates rule out -/

def Misaddressed (error : SendError) : Prop :=
  error = .datagram .unicastDestination ∨ error = .datagram .noSourceAddress ∨
    error = .datagram .sourceFamilyMismatch

/-- The send does not fail for its addresses, and goes where it may. -/
structure Gated (sent : SendResult) (leads : IpAddr → Prop) : Prop where
  addressed : ∀ error, sent.result = .error (.error error) →
    ¬ Misaddressed error
  leads : ∀ sending ∈ sent.sendings, leads sending.datagram.dst.ip

def Sourced (table : InterfaceTable) (key : CaptureKey) (ipv6 : Bool)
    (source : DatagramSource) : Prop :=
  ∀ addrs, table.egressAddrs key = some addrs →
    addrs.Scanned ∧ sourceFault addrs ipv6 source = none

theorem Sourced.sameLinks {table after : InterfaceTable} {key : CaptureKey}
    {ipv6 : Bool} {source : DatagramSource}
    (h : Sourced table key ipv6 source) (hsame : table.SameLinks after) :
    Sourced after key ipv6 source := by
  intro addrs haddrs
  rw [hsame.addrs] at haddrs
  exact h addrs haddrs

theorem plan_addressed {table : InterfaceTable} {key : CaptureKey}
    {datagram : Datagram}
    (h : Sourced table key (isIpv6 datagram.dst.ip) datagram.source)
    {egress egress' : Egress} {dstMac : MacAddr} {error : SendError}
    (hplan : egress.plan table key dstMac datagram =
      (egress', .error (.error error))) : ¬ Misaddressed error := by
  unfold Egress.plan at hplan
  split at hplan
  · rename_i addrs capture haddrs _
    obtain ⟨hscanned, hsource⟩ := h addrs haddrs
    split at hplan
    · cases hplan
      simp [Misaddressed]
    · have hmeets := buildUdp_meets hscanned capture.linkType datagram.dst
        dstMac datagram.source datagram.ttl egress.nextId datagram.payload
        (frameMtu (table.mtuOf key))
      rw [datagramFault, hsource, Option.none_or] at hmeets
      obtain ⟨_, hbuilt⟩ := Prod.mk.inj hplan
      split at hbuilt
      · cases hbuilt
      · cases hbuilt
      · rename_i fault hbuild
        cases hbuilt
        cases hfault : (macFault addrs capture.linkType).or
            (frameFault (isIpv6 datagram.dst.ip) datagram.payload.length
              (frameMtu (table.mtuOf key))) with
        | none =>
            obtain ⟨frames, hframes⟩ := hmeets.2 hfault
            rw [hframes] at hbuild
            cases hbuild
        | some found =>
            rw [hmeets.1 found hfault] at hbuild
            cases hbuild
            rcases Option.or_eq_some_iff.mp hfault with hmac | ⟨_, hframe⟩
            · unfold macFault at hmac
              split at hmac
              · cases hmac
                simp [Misaddressed]
              · cases hmac
            · unfold frameFault at hframe
              split at hframe
              · cases hframe
                simp [Misaddressed]
              · split at hframe
                · cases hframe
                  simp [Misaddressed]
                · cases hframe
  · cases hplan

theorem transmitFrom_addressed {table : InterfaceTable} {key : CaptureKey}
    {frames : UdpFrames} {inject : Nat → Except Errno Unit}
    {left index : Nat} {handed : List Bytes} {error : SendError}
    (h : Egress.transmitFrom table key frames inject left index =
      (handed, .error (.error error))) : ¬ Misaddressed error := by
  induction left generalizing index handed with
  | zero => cases h
  | succ left ih =>
      rw [Egress.transmitFrom] at h
      split at h
      · cases h
      · cases h
        simp [Misaddressed]
      · split at h
        · rename_i sent stop hsent
          unfold Egress.send at hsent
          split at hsent
          · cases hsent
          · split at hsent
            · cases hsent
            · cases hsent
              cases h
              simp [Misaddressed]
        · obtain ⟨_, hrest⟩ := Prod.mk.inj h
          exact ih (Prod.ext rfl hrest)

theorem transmit_addressed {digest : MacAddr → Datagram → UInt64}
    {egress : Egress} {table table' : InterfaceTable} {key : CaptureKey}
    {dstMac : MacAddr} {datagram : Datagram} {frames : UdpFrames}
    {inject : Nat → Except Errno Unit} {handed : List Bytes}
    {error : SendError}
    (h : egress.transmit digest table key dstMac datagram frames inject =
      (table', handed, .error (.error error))) : ¬ Misaddressed error := by
  unfold Egress.transmit at h
  split at h
  · rename_i sent stop hfrom
    cases h
    exact transmitFrom_addressed hfrom
  · cases h

section Sends

variable {digest : MacAddr → Datagram → UInt64} {table : InterfaceTable}
  {key : CaptureKey} {leads : IpAddr → Prop}

theorem sendUdp_gated {datagram : Datagram}
    (h : Sourced table key (isIpv6 datagram.dst.ip) datagram.source)
    (hleads : leads datagram.dst.ip) (inject : Nat → Except Errno Unit)
    (egress : Egress) (dstMac : MacAddr) :
    Gated (egress.sendUdp digest inject table key dstMac datagram) leads := by
  have hone : ∀ fate, ∀ sending ∈ [Sending.mk key dstMac datagram fate],
      leads sending.datagram.dst.ip := by
    intro fate sending hmem
    rw [List.mem_singleton.mp hmem]
    exact hleads
  unfold Egress.sendUdp
  split
  · exact ⟨by simp, hone _⟩
  split
  · rename_i egress' stop hplan
    refine ⟨?_, hone _⟩
    rintro error ⟨⟩
    exact plan_addressed h hplan
  · exact ⟨by simp, hone _⟩
  · rename_i egress' frames hplan
    refine ⟨?_, hone _⟩
    intro error herror
    refine transmit_addressed (Prod.ext rfl (Prod.ext rfl herror))

theorem sendUdpGroup_gated {datagram : Datagram}
    (h : Sourced table key (isIpv6 datagram.dst.ip) datagram.source)
    (hleads : leads datagram.dst.ip) (inject : Nat → Except Errno Unit)
    (egress : Egress) {dstMac : MacAddr}
    (hgroup : ethernetDst datagram.dst.ip ((table.egressAddrs key).bind
      (·.v4DirectedBroadcast)) = .ok dstMac) :
    Gated (egress.sendUdpGroup digest inject table key datagram) leads := by
  unfold Egress.sendUdpGroup
  rw [hgroup]
  exact sendUdp_gated h hleads inject egress dstMac

theorem Gated.cons {rest : SendResult} (h : Gated rest leads)
    {sending : Sending} (hleads : leads sending.datagram.dst.ip) :
    Gated { rest with sendings := sending :: rest.sendings } leads := by
  refine ⟨h.addressed, ?_⟩
  intro found hmem
  rcases List.mem_cons.mp hmem with rfl | hlater
  · exact hleads
  · exact h.leads found hlater

theorem sendToEach_gated {datagram : Datagram} {ipv6 : Bool}
    (h : Sourced table key ipv6 datagram.source)
    (inject : Nat → Nat → Except Errno Unit) (position : Nat)
    (peers : List IpAddr)
    (hpeers : ∀ peer ∈ peers, isIpv6 peer = ipv6 ∧ leads peer)
    (delivered : Bool) {failure : Option (Stop SendError)}
    (hfailure : ∀ error, failure = some (.error error) →
      ¬ Misaddressed error) (egress : Egress) :
    Gated (Egress.sendToEach digest inject key datagram position peers
      delivered failure egress table) leads := by
  induction peers generalizing table position delivered failure egress with
  | nil =>
      refine ⟨?_, by simp [Egress.sendToEach]⟩
      intro error herror
      simp only [Egress.sendToEach] at herror
      split at herror
      · split at herror
        · cases herror
        · cases herror
          exact hfailure error rfl
      · cases herror
  | cons peer peers ih =>
      obtain ⟨hfamily, hleads⟩ := hpeers peer List.mem_cons_self
      have hlater : ∀ peer ∈ peers, isIpv6 peer = ipv6 ∧ leads peer :=
        fun peer hmem => hpeers peer (List.mem_cons_of_mem _ hmem)
      have hone : ∀ fate, ∀ sending ∈ [Sending.mk key .broadcast
          { datagram with dst := ⟨peer, datagram.dst.port⟩ } fate],
          leads sending.datagram.dst.ip := by
        intro fate sending hmem
        rw [List.mem_singleton.mp hmem]
        exact hleads
      simp only [Egress.sendToEach]
      split
      · exact (ih h (position + 1) hlater true hfailure egress).cons hleads
      split
      · rename_i egress' stop hplan
        refine ⟨?_, hone _⟩
        rintro error ⟨⟩
        exact plan_addressed (hfamily ▸ h) hplan
      · exact ⟨by simp, hone _⟩
      · rename_i egress' frames hplan
        split
        · rename_i table' handed htransmit
          exact (ih (h.sameLinks (transmit_same htransmit)) (position + 1)
            hlater true hfailure egress').cons hleads
        · exact ⟨by simp, hone _⟩
        · rename_i table' handed error htransmit
          have hthis : ∀ found, some (Stop.error error) =
              some (Stop.error found) → ¬ Misaddressed found := by
            rintro found ⟨⟩
            exact transmit_addressed htransmit
          exact (ih (h.sameLinks (transmit_same htransmit)) (position + 1)
            hlater delivered hthis egress').cons hleads

end Sends

/-! ## Where a delivery leads -/

def Delivery.attempt (digest : MacAddr → Datagram → UInt64)
    (inject : Nat → Nat → Except Errno Unit) (delivery : Delivery)
    (dispatcher : PacketDispatcher) (egress : CaptureKey) (dst : SocketAddr)
    (source : DatagramSource) (ttl : UInt8) (payload : Bytes) : SendResult :=
  match delivery with
  | .link =>
      dispatcher.egress.sendUdpGroup digest (inject 0) dispatcher.table egress
        ⟨dst, source, ttl, payload⟩
  | .peers addrs =>
      dispatcher.egress.sendUdpToPeers digest inject dispatcher.table egress
        addrs ⟨dst, source, ttl, payload⟩
  | .unicast searcher mac =>
      dispatcher.egress.sendUdp digest (inject 0) dispatcher.table egress mac
        ⟨searcher, source, ttl, payload⟩

theorem send_attempt (digest : MacAddr → Datagram → UInt64)
    (inject : Nat → Nat → Except Errno Unit) (delivery : Delivery)
    (dispatcher : PacketDispatcher) (egress : CaptureKey) (dst : SocketAddr)
    (source : DatagramSource) (ttl : UInt8) (payload : Bytes) :
    delivery.send digest inject dispatcher egress dst source ttl payload =
      dispatcher.afterSend (delivery.attempt digest inject dispatcher egress
        dst source ttl payload) := by
  cases delivery <;> rfl

def directedOf (table : InterfaceTable) (egress : CaptureKey) :
    Option Ipv4Addr :=
  (table.egressAddrs egress).bind (·.v4DirectedBroadcast)

/-- A group, a broadcast of the link, a configured peer or the searcher. -/
def Delivery.Leads (delivery : Delivery) (directed : Option Ipv4Addr)
    (ip : IpAddr) : Prop :=
  match delivery with
  | .link => isMulticast ip = true ∨ ip = .v4 limitedBroadcast ∨
      ∃ addr, directed = some addr ∧ ip = .v4 addr
  | .peers addrs => ip ∈ addrs
  | .unicast searcher _ => ip = searcher.ip

def Delivery.Aims (delivery : Delivery) (directed : Option Ipv4Addr)
    (dst : SocketAddr) (ipv6 : Bool) : Prop :=
  match delivery with
  | .link => isIpv6 dst.ip = ipv6 ∧ Delivery.link.Leads directed dst.ip
  | .peers _ => isIpv6 dst.ip = ipv6
  | .unicast searcher _ => isIpv6 searcher.ip = ipv6

theorem ethernetDst_leads {ip : IpAddr} {directed : Option Ipv4Addr}
    (h : Delivery.link.Leads directed ip) :
    ∃ mac, ethernetDst ip directed = .ok mac := by
  cases ip with
  | v4 addr =>
      unfold ethernetDst
      by_cases hbroadcast : (addr.isBroadcast ||
          decide (some addr = directed)) = true
      · rw [if_pos hbroadcast]
        exact ⟨_, rfl⟩
      · rcases h with hmulticast | heq | ⟨found, hdirected, heq⟩
        · rw [if_neg hbroadcast, if_pos hmulticast]
          exact ⟨_, rfl⟩
        · cases heq
          exact absurd rfl hbroadcast
        · cases heq
          refine absurd ?_ hbroadcast
          simp [hdirected]
  | v6 addr =>
      rcases h with hmulticast | heq | ⟨found, _, heq⟩
      · unfold ethernetDst
        rw [if_neg Bool.false_ne_true, if_pos hmulticast]
        exact ⟨_, rfl⟩
      · cases heq
      · cases heq

theorem attempt_gated (digest : MacAddr → Datagram → UInt64)
    (inject : Nat → Nat → Except Errno Unit) (delivery : Delivery)
    (dispatcher : PacketDispatcher) (egress : CaptureKey) (dst : SocketAddr)
    {source : DatagramSource} {ipv6 : Bool} (ttl : UInt8) (payload : Bytes)
    (hsourced : Sourced dispatcher.table egress ipv6 source)
    (haims : delivery.Aims (directedOf dispatcher.table egress) dst ipv6) :
    Gated (delivery.attempt digest inject dispatcher egress dst source ttl
      payload) fun ip => isIpv6 ip = ipv6 ∧
        delivery.Leads (directedOf dispatcher.table egress) ip := by
  cases delivery with
  | link =>
      obtain ⟨hfamily, hleads⟩ := haims
      obtain ⟨mac, hmac⟩ := ethernetDst_leads hleads
      subst hfamily
      exact sendUdpGroup_gated hsourced ⟨rfl, hleads⟩ (inject 0)
        dispatcher.egress hmac
  | peers addrs =>
      refine sendToEach_gated hsourced inject 0 _ ?_ false (by simp)
        dispatcher.egress
      intro peer hmem
      rw [List.mem_filter, decide_eq_true_eq] at hmem
      have hfamily : isIpv6 peer = ipv6 := hmem.2.trans haims
      exact ⟨hfamily, hfamily, hmem.1⟩
  | unicast searcher mac =>
      have hfamily : isIpv6 searcher.ip = ipv6 := haims
      subst hfamily
      exact sendUdp_gated hsourced ⟨rfl, rfl⟩ (inject 0) dispatcher.egress mac

/-! ## Up to the send -/

/-- Where the call of a simple leg comes to: an outcome without a send, or the
send. -/
inductive Reach where
  | stops (outcome : Outcome)
  | sends (type : MessageType) (dest : SocketAddr) (payload : Bytes)

namespace SimpleReflector

def offer (reflector : SimpleReflector) (type : MessageType)
    (dest : SocketAddr) (payload : Bytes) (checked : Bool) : Reach :=
  if checked && reflector.suppress payload then .stops (.dropped type)
  else .sends type dest payload

def reach (calls : PacketCalls) (reflector : SimpleReflector)
    (packet : Packet) (daemon : Daemon) : Except Panic (Daemon × Reach) :=
  match reflector.classify packet with
  | .skip type => .ok (daemon, .stops (.skipped type))
  | .excluded => .ok (daemon, .stops .filtered)
  | .junk => .ok (daemon, .stops .filtered)
  | .reflect type =>
      if reflector.delivery.destination packet.dest.ip = none then
        .ok (daemon, .stops .filtered)
      else
        match reflector.destination packet daemon.dispatcher with
        | none => .ok (daemon, .stops .filtered)
        | some dest =>
            if daemon.dispatcher.egressSources reflector.egress dest then do
              let (daemon, rewritten) ← reflector.rewrite.rewrite calls packet
                reflector.egress daemon
              .ok (daemon,
                match rewritten with
                | .verbatim => reflector.offer type dest packet.payload true
                | .replaced payload =>
                    reflector.offer type dest payload
                      reflector.rewrite.keepsAdvertisedAddresses
                | .refused => .stops (.refused type)
                | .unreadable => .stops (.dropped type))
            else .ok (daemon, .stops (.stalled type))

def finish (digest : MacAddr → Datagram → UInt64) (calls : PacketCalls)
    (reflector : SimpleReflector) (packet : Packet) (daemon : Daemon) :
    Reach → Except Panic (Daemon × Outcome)
  | .stops outcome => .ok (daemon, outcome)
  | .sends type dest payload =>
      reflector.emitTo digest calls packet type dest payload false daemon

theorem onPacket_reach (digest : MacAddr → Datagram → UInt64)
    (calls : PacketCalls) (reflector : SimpleReflector) (packet : Packet)
    (daemon : Daemon) :
    reflector.onPacket digest calls packet daemon =
      reflector.reach calls packet daemon >>= fun reached =>
        reflector.finish digest calls packet reached.1 reached.2 := by
  have hoffer : ∀ type dest payload checked (daemon : Daemon),
      reflector.emitTo digest calls packet type dest payload checked daemon =
        reflector.finish digest calls packet daemon
          (reflector.offer type dest payload checked) := by
    intro type dest payload checked daemon
    unfold offer emitTo
    split
    · rfl
    · rfl
  unfold onPacket reach
  cases reflector.classify packet with
  | skip type => rfl
  | excluded => rfl
  | junk => rfl
  | reflect type =>
      simp only
      by_cases hnone : reflector.delivery.destination packet.dest.ip = none
      · rw [if_pos hnone, if_pos hnone]
        rfl
      rw [if_neg hnone, if_neg hnone]
      cases reflector.destination packet daemon.dispatcher with
      | none => rfl
      | some dest =>
          simp only
          by_cases hsources :
              daemon.dispatcher.egressSources reflector.egress dest = true
          · rw [if_pos hsources, if_pos hsources]
            cases reflector.rewrite.rewrite calls packet reflector.egress
                daemon with
            | error panic => rfl
            | ok rewritten =>
                obtain ⟨after, rewrite⟩ := rewritten
                cases rewrite with
                | verbatim => exact hoffer _ _ _ _ _
                | replaced payload => exact hoffer _ _ _ _ _
                | refused => rfl
                | unreadable => rfl
          · rw [if_neg hsources, if_neg hsources]
            rfl

end SimpleReflector

/-- Where the call of a search leg comes to: an outcome without a send, or the
send from a session's reserved port. -/
inductive SearchReach where
  | stops (outcome : Outcome)
  | reuses (type : MessageType) (expiry : Nat) (session : Session)
  | opens (type : MessageType) (session : Session)

def SearchReach.session : SearchReach → Option Session
  | .stops _ => none
  | .reuses _ _ session => some session
  | .opens _ session => some session

namespace SearchReflector

def reach (calls : PacketCalls) (own : Key) (reflector : SearchReflector)
    (packet : Packet) (dispatcher : PacketDispatcher) :
    Except Panic (PacketDispatcher × SearchReach) :=
  match reflector.protocol.searchVerdict packet.payload with
  | .skip type => .ok (dispatcher, .stops (.skipped type))
  | .excluded => .ok (dispatcher, .stops .filtered)
  | .junk => .ok (dispatcher, .stops .filtered)
  | .reflect type =>
      match reflector.delivery.destination packet.dest.ip with
      | none => .ok (dispatcher, .stops .filtered)
      | some destination =>
          let expiry := calls.now + reflector.protocol.window packet.payload
          match reflector.sessions.get ⟨packet.source, packet.dest⟩ with
          | some session => .ok (dispatcher, .reuses type expiry session)
          | none => do
              let (dispatcher, made) ← reflector.makeSession calls own packet
                destination dispatcher expiry type
              .ok (dispatcher,
                match made with
                | .error outcome => .stops outcome
                | .ok session => .opens type session)

def finish (digest : MacAddr → Datagram → UInt64) (calls : PacketCalls)
    (reflector : SearchReflector) (packet : Packet)
    (dispatcher : PacketDispatcher) :
    SearchReach → Except Panic (SearchReflector × PacketDispatcher × Outcome)
  | .stops outcome => .ok (reflector, dispatcher, outcome)
  | .reuses type expiry session =>
      reflector.reuse digest calls packet ⟨packet.source, packet.dest⟩
        session expiry type dispatcher
  | .opens type session => do
      let (dispatcher, sent) ←
        reflector.reflectFrom digest calls packet session dispatcher
      match sent with
      | .ok () =>
          .ok ({ reflector with
              sessions := reflector.sessions.insert
                ⟨packet.source, packet.dest⟩ session },
            dispatcher, .reflected type)
      | .error _ =>
          .ok (reflector, dispatcher.unregister session.responseKey,
            .dropped type)

theorem onPacket_reach (digest : MacAddr → Datagram → UInt64)
    (calls : PacketCalls) (own : Key) (reflector : SearchReflector)
    (packet : Packet) (dispatcher : PacketDispatcher) :
    reflector.onPacket digest calls own packet dispatcher =
      reflector.reach calls own packet dispatcher >>= fun reached =>
        reflector.finish digest calls packet reached.1 reached.2 := by
  unfold onPacket reach
  cases reflector.protocol.searchVerdict packet.payload with
  | skip type => rfl
  | excluded => rfl
  | junk => rfl
  | reflect type =>
      simp only
      cases reflector.delivery.destination packet.dest.ip with
      | none => rfl
      | some destination =>
          simp only
          cases reflector.sessions.get ⟨packet.source, packet.dest⟩ with
          | some session => rfl
          | none =>
              simp only [SearchReflector.open]
              cases reflector.makeSession calls own packet destination
                  dispatcher (calls.now +
                    reflector.protocol.window packet.payload) type with
              | error panic => rfl
              | ok reserved =>
                  obtain ⟨after, made⟩ := reserved
                  cases made with
                  | error outcome => rfl
                  | ok session => rfl

end SearchReflector

/-! ## The legs that are built -/

def UnicastTo.Grouped (unicast : UnicastTo) : Prop :=
  ∀ v4 v6, unicast = .group v4 v6 →
    v4.isMulticast = true ∧ v6.isMulticast = true

def Delivery.Built (delivery : Delivery) : Prop :=
  delivery = .link ∨ ∃ addrs, delivery = .peers addrs

def Leg.Built (filter : Filter) : Leg → Prop
  | .simple leg => leg.delivery.Built ∧ leg.emit.unicast.Grouped
  | .search reflector => reflector.delivery.Built ∧
      reflector.sessions = .new ∧
      ∀ packet ingress, filter.matches packet ingress = true →
        isMulticast packet.dest.ip = true

theorem new_built (peers : Option PeerList) : (Delivery.new peers).Built := by
  cases peers with
  | none => exact .inl rfl
  | some peers => exact .inr ⟨_, rfl⟩

theorem ungrouped {unicast : UnicastTo} (h : unicast = .nowhere ∨
    unicast = .broadcast) : unicast.Grouped := by
  rintro v4 v6 hgroup
  rcases h with rfl | rfl <;> cases hgroup

theorem pair_built {source target : CaptureKey} {side : Reflector}
    {tag : Protocol} {protocol : SearchProtocol} {rewrite : ReplyRewrite}
    {item : Registered}
    (hgroups : ∀ ip ∈ IpAddr.v4 protocol.groupV4 ::
      protocol.groupsV6.map IpAddr.v6, isMulticast ip = true)
    (h : item ∈ pairRegistered source target side tag protocol rewrite) :
    ∀ handler, item.registration.handler = some handler →
      handler.leg.Built item.registration.filter := by
  unfold pairRegistered at h
  simp only [List.mem_cons, List.not_mem_nil, or_false] at h
  rcases h with rfl | rfl
  · rintro handler ⟨⟩
    exact ⟨new_built _, ungrouped (.inl rfl)⟩
  · rintro handler ⟨⟩
    refine ⟨new_built _, rfl, ?_⟩
    intro packet ingress hmatches
    exact hgroups _ (mem_groupAddrs.mp (matches_groups.mp hmatches).1).1

theorem side_built {source target : CaptureKey} {side : Reflector}
    {item : Registered} (h : item ∈ sideRegistered source target side) :
    ∀ handler, item.registration.handler = some handler →
      handler.leg.Built item.registration.filter := by
  simp only [sideRegistered, List.mem_append] at h
  rcases h with (((h | h) | h) | h) | h
  · unfold wolRegistered at h
    split at h
    · cases h
    · rw [List.mem_singleton.mp h]
      rintro handler ⟨⟩
      exact ⟨new_built _, ungrouped (.inr rfl)⟩
  · unfold mdnsRegistered at h
    split at h
    · cases h
    · simp only [List.mem_cons, List.not_mem_nil, or_false] at h
      rcases h with rfl | rfl
      · rintro handler ⟨⟩
        exact ⟨new_built _, ungrouped (.inl rfl)⟩
      · rintro handler ⟨⟩
        refine ⟨new_built _, ?_⟩
        rintro v4 v6 ⟨⟩
        exact ⟨by decide, by decide⟩
  · unfold ssdpRegistered at h
    split at h
    · cases h
    · exact pair_built (by decide) h
  · unfold wsdRegistered at h
    split at h
    · exact pair_built (by decide) h
    · cases h
  · unfold udpRegistered at h
    split at h
    · cases h
    · obtain ⟨filter, _, rfl⟩ := List.mem_map.mp h
      rintro handler ⟨⟩
      exact ⟨new_built _, ungrouped (.inr rfl)⟩

theorem registered_built {captures : InterfaceName → CaptureKey}
    {config : Config} {item : Registered}
    (h : item ∈ registered captures config) :
    ∀ handler, item.registration.handler = some handler →
      handler.leg.Built item.registration.filter := by
  obtain ⟨reflector, _, h⟩ := List.mem_flatMap.mp h
  obtain ⟨side, _, h⟩ := List.mem_flatMap.mp h
  exact side_built h

/-! ## Where a packet goes -/

theorem linkDestination_aims {dest found : SocketAddr}
    {directed : Option Ipv4Addr} {unicast : UnicastTo}
    (hgrouped : unicast.Grouped)
    (h : linkDestination dest directed unicast = some found) :
    isIpv6 found.ip = isIpv6 dest.ip ∧
      Delivery.link.Leads directed found.ip := by
  obtain ⟨ip, port⟩ := dest
  unfold linkDestination at h
  cases ip with
  | v4 addr =>
      simp only at h
      split at h
      · rename_i hkeeps
        cases h
        refine ⟨rfl, ?_⟩
        rcases (Bool.or_eq_true _ _).mp hkeeps with hgroup | hbroadcast
        · exact .inl hgroup
        · refine .inr (.inl (congrArg IpAddr.v4 ?_))
          obtain ⟨octets, hlength⟩ := addr
          have hoctets : octets = List.replicate 4 255 := eq_of_beq hbroadcast
          subst hoctets
          rfl
      · split at h
        · cases h
        · cases h
          refine ⟨rfl, .inr ?_⟩
          cases directed with
          | none => exact .inl rfl
          | some addr => exact .inr ⟨addr, rfl, rfl⟩
        · rename_i hcontra
          cases hcontra
        · rename_i v4 v6 _ _ _
          cases h
          exact ⟨rfl, .inl (hgrouped _ _ rfl).1⟩
        · rename_i hcontra
          cases hcontra
  | v6 addr =>
      simp only at h
      split at h
      · rename_i hkeeps
        cases h
        exact ⟨rfl, .inl hkeeps⟩
      · split at h
        · cases h
        · rename_i hcontra
          cases hcontra
        · cases h
          exact ⟨rfl, .inl rfl⟩
        · rename_i hcontra
          cases hcontra
        · cases h
          exact ⟨rfl, .inl (hgrouped _ _ rfl).2⟩

theorem destination_family {delivery : Delivery} (h : delivery.Built)
    {dst found : IpAddr} (hfound : delivery.destination dst = some found) :
    isIpv6 found = isIpv6 dst := by
  rcases h with rfl | ⟨addrs, rfl⟩
  · cases hfound
    rfl
  · simpa using List.find?_some hfound

theorem replySource_family {dispatcher : PacketDispatcher}
    {target : CaptureKey} {dest found : IpAddr}
    (h : dispatcher.replySource target dest = some found) :
    isIpv6 found = isIpv6 dest := by
  cases dest with
  | v4 dst =>
      obtain ⟨addrs, _, h⟩ := Option.bind_eq_some_iff.mp h
      obtain ⟨addr, _, rfl⟩ := Option.map_eq_some_iff.mp h
      rfl
  | v6 dst =>
      obtain ⟨addrs, _, h⟩ := Option.bind_eq_some_iff.mp h
      obtain ⟨addr, _, rfl⟩ := Option.map_eq_some_iff.mp h
      rfl

theorem rewrite_table {calls : PacketCalls} {rewrite : ReplyRewrite}
    {packet : Packet} {egress : CaptureKey} {daemon after : Daemon}
    {rewritten : Rewrite}
    (h : rewrite.rewrite calls packet egress daemon = .ok (after, rewritten)) :
    after.dispatcher.table = daemon.dispatcher.table := by
  cases rewrite with
  | noRewrite =>
      cases h
      rfl
  | services filter =>
      cases h
      rfl
  | responses gate =>
      cases h
      rfl
  | dial target =>
      simp only [ReplyRewrite.rewrite] at h
      split at h
      · cases h
        rfl
      · obtain ⟨⟨context, reactor, payload⟩, _, h⟩ := except_bind_ok h
        cases h
        rfl

/-! ## Simple legs -/

def ScannedAt (table : InterfaceTable) (egress : CaptureKey) : Prop :=
  ∀ addrs, table.egressAddrs egress = some addrs → addrs.Scanned

/-- Whatever the leg is called with that it accepts, the send that it comes to
is gated, and leads where it may at the packet's family. -/
def SimpleReflector.Safe (digest : MacAddr → Datagram → UInt64)
    (leg : SimpleReflector) (accepts : Packet → Prop) : Prop :=
  ∀ (calls : PacketCalls) (packet : Packet) (daemon after : Daemon)
    (type : MessageType) (dest : SocketAddr) (payload : Bytes),
    WasRead packet → accepts packet →
    ScannedAt daemon.dispatcher.table leg.egress →
    leg.reach calls packet daemon = .ok (after, .sends type dest payload) →
    Gated (leg.delivery.attempt digest calls.inject after.dispatcher
        leg.egress dest (leg.emit.source.resolve packet)
        (leg.emit.ttl.resolve packet) payload)
      fun ip => isIpv6 ip = isIpv6 packet.dest.ip ∧
        leg.delivery.Leads (directedOf daemon.dispatcher.table leg.egress) ip

theorem reach_gates {calls : PacketCalls} {leg : SimpleReflector}
    {packet : Packet} {daemon after : Daemon} {type : MessageType}
    {dest : SocketAddr} {payload : Bytes}
    (h : leg.reach calls packet daemon =
      .ok (after, .sends type dest payload)) :
    leg.destination packet daemon.dispatcher = some dest ∧
      daemon.dispatcher.egressSources leg.egress dest = true ∧
      after.dispatcher.table = daemon.dispatcher.table := by
  have hoffer : ∀ {type' dest' payload' checked},
      leg.offer type' dest' payload' checked = .sends type dest payload →
      dest' = dest := by
    intro type' dest' payload' checked hoffered
    unfold SimpleReflector.offer at hoffered
    split at hoffered
    · cases hoffered
    · cases hoffered
      rfl
  unfold SimpleReflector.reach at h
  split at h
  · cases h
  · cases h
  · cases h
  split at h
  · cases h
  split at h
  · cases h
  rename_i found hfound
  split at h
  · rename_i hsources
    obtain ⟨⟨left, rewritten⟩, hrewrite, hoffered⟩ := except_bind_ok h
    have htable := rewrite_table hrewrite
    simp only [Except.ok.injEq, Prod.mk.injEq] at hoffered
    obtain ⟨hleft, hsends⟩ := hoffered
    rw [hleft] at htable
    have hdest : found = dest := by
      split at hsends
      · exact hoffer hsends
      · exact hoffer hsends
      · cases hsends
      · cases hsends
    subst hdest
    exact ⟨hfound, hsources, htable⟩
  · cases h

theorem egressSources_sourced {dispatcher : PacketDispatcher}
    {egress : CaptureKey} {dest : SocketAddr} {source : DatagramSource}
    (hscanned : ScannedAt dispatcher.table egress)
    (h : dispatcher.egressSources egress dest = true)
    (hexact : ∀ addr, source = .exact addr →
      isIpv6 addr.ip = isIpv6 dest.ip) :
    Sourced dispatcher.table egress (isIpv6 dest.ip) source := by
  intro addrs haddrs
  refine ⟨hscanned addrs haddrs, ?_⟩
  unfold PacketDispatcher.egressSources at h
  rw [haddrs] at h
  cases source with
  | exact addr => rw [sourceFault, if_pos (hexact addr rfl)]
  | egress port =>
      obtain ⟨ip, destPort⟩ := dest
      cases ip with
      | v4 addr =>
          have hsome : addrs.v4.isSome = true := h
          simp [sourceFault, isIpv6, hsome]
      | v6 addr =>
          have hsome : addrs.v6Any.isSome = true := h
          simp [sourceFault, isIpv6, hsome]

theorem resolve_exact {source : Source} {packet : Packet}
    (hread : WasRead packet) (addr : SocketAddr)
    (h : source.resolve packet = .exact addr) :
    isIpv6 addr.ip = isIpv6 packet.dest.ip := by
  cases source with
  | egress port => cases h
  | captured =>
      cases h
      exact hread.family

theorem built_safe (digest : MacAddr → Datagram → UInt64)
    {leg : SimpleReflector} (hbuilt : leg.delivery.Built)
    (hgrouped : leg.emit.unicast.Grouped) :
    leg.Safe digest fun _ => True := by
  intro calls packet daemon after type dest payload hread _ hscanned hreach
  obtain ⟨hdest, hsources, htable⟩ := reach_gates hreach
  have haims : isIpv6 dest.ip = isIpv6 packet.dest.ip ∧
      Delivery.link.Leads (directedOf daemon.dispatcher.table leg.egress)
        dest.ip := by
    refine linkDestination_aims hgrouped ?_
    unfold SimpleReflector.destination at hdest
    rcases hbuilt with hlink | ⟨addrs, hpeers⟩
    · rw [hlink] at hdest
      exact hdest
    · rw [hpeers] at hdest
      exact hdest
  have hsourced : Sourced daemon.dispatcher.table leg.egress
      (isIpv6 dest.ip) (leg.emit.source.resolve packet) :=
    egressSources_sourced hscanned hsources fun addr haddr =>
      (resolve_exact hread addr haddr).trans haims.1.symm
  rw [haims.1] at hsourced
  rw [← htable] at hsourced haims ⊢
  refine attempt_gated digest calls.inject leg.delivery after.dispatcher
    leg.egress dest _ payload hsourced ?_
  rcases hbuilt with hlink | ⟨addrs, hpeers⟩
  · rw [hlink]
    exact haims
  · rw [hpeers]
    exact haims.1

theorem unicast_safe (digest : MacAddr → Datagram → UInt64)
    {leg : SimpleReflector} {searcher : SocketAddr} {mac : MacAddr}
    {port : SourcePort} {accepts : Packet → Prop}
    (hdelivery : leg.delivery = .unicast searcher mac)
    (hsource : leg.emit.source = .egress port)
    (hfamily : ∀ packet, accepts packet →
      isIpv6 searcher.ip = isIpv6 packet.dest.ip) :
    leg.Safe digest accepts := by
  intro calls packet daemon after type dest payload hread haccepts hscanned
    hreach
  obtain ⟨hdest, hsources, htable⟩ := reach_gates hreach
  have hsearcher : dest = searcher := by
    unfold SimpleReflector.destination at hdest
    rw [hdelivery] at hdest
    cases hdest
    rfl
  subst hsearcher
  have hsourced : Sourced daemon.dispatcher.table leg.egress
      (isIpv6 dest.ip) (leg.emit.source.resolve packet) := by
    refine egressSources_sourced hscanned hsources ?_
    intro addr haddr
    rw [hsource] at haddr
    cases haddr
  rw [hfamily packet haccepts] at hsourced
  rw [← htable] at hsourced ⊢
  refine attempt_gated digest calls.inject leg.delivery after.dispatcher
    leg.egress dest _ payload hsourced ?_
  rw [hdelivery]
  exact hfamily packet haccepts

/-! ## Search legs -/

/-- What a search leg becomes over its calls: packets that its filter lets
through, deadlines and interface changes, whatever the dispatcher is then. -/
inductive SearchReflector.Reached (digest : MacAddr → Datagram → UInt64)
    (filter : Filter) (start : SearchReflector) : SearchReflector → Prop where
  | start : Reached digest filter start start
  | packet {before after : SearchReflector} {calls : PacketCalls} {own : Key}
      {packet : Packet} {ingress : Option InterfaceAddresses}
      {dispatcher left : PacketDispatcher} {outcome : Outcome}
      (h : Reached digest filter start before) (hread : WasRead packet)
      (hmatches : filter.matches packet ingress = true)
      (hcall : before.onPacket digest calls own packet dispatcher =
        .ok (after, left, outcome)) : Reached digest filter start after
  | deadline {before : SearchReflector}
      (h : Reached digest filter start before) (now : Nat)
      (dispatcher : PacketDispatcher) :
      Reached digest filter start (before.onDeadline now dispatcher).1
  | change {before : SearchReflector}
      (h : Reached digest filter start before) (captures : List CaptureKey)
      (dispatcher : PacketDispatcher) :
      Reached digest filter start (before.onIfaceChange captures dispatcher).1

structure Reserved (start reflector : SearchReflector) : Prop where
  static : reflector = { start with sessions := reflector.sessions }
  family : ∀ entry ∈ reflector.sessions.entries,
    isIpv6 entry.2.reservation.ip = isIpv6 entry.1.dest.ip

theorem Reserved.insert {start reflector : SearchReflector}
    (h : Reserved start reflector) {key : SessionKey} {session : Session}
    (hfamily : isIpv6 session.reservation.ip = isIpv6 key.dest.ip) :
    Reserved start { reflector with
      sessions := reflector.sessions.insert key session } := by
  refine ⟨?_, ?_⟩
  · rw [h.static]
  · intro entry hmem
    rcases LinearMap.mem_insert.mp hmem with rfl | ⟨hold, _⟩
    · exact hfamily
    · exact h.family entry hold

theorem Reserved.acted {digest : MacAddr → Datagram → UInt64} {own : Key}
    {calls : PacketCalls} {start before after : SearchReflector}
    {packet : Packet} {dispatcher left : PacketDispatcher}
    (h : Reserved start before) (hbuilt : start.delivery.Built)
    (hacted : Acted digest own calls before packet dispatcher after left) :
    Reserved start after := by
  cases hacted with
  | passed left hsent => exact h
  | extended left session expiry hsession hsent =>
      refine h.insert ?_
      exact h.family (⟨packet.source, packet.dest⟩, session)
        (LinearMap.get_eq_some_iff.mp hsession)
  | opened made left destination ourAddr port responseKey expiry _ _
      hdestination haddr _ _ _ =>
      refine h.insert ?_
      have hdelivery : before.delivery = start.delivery := by rw [h.static]
      rw [hdelivery] at hdestination
      exact (replySource_family haddr).trans
        (destination_family hbuilt hdestination)
  | rolledBack made left filter handler responseKey hmade hsent => exact h

theorem Reserved.reached {digest : MacAddr → Datagram → UInt64}
    {filter : Filter} {start reflector : SearchReflector}
    (hbuilt : start.delivery.Built) (hnew : start.sessions = .new)
    (h : SearchReflector.Reached digest filter start reflector) :
    Reserved start reflector := by
  induction h with
  | start =>
      refine ⟨rfl, ?_⟩
      rw [hnew]
      intro entry hmem
      cases hmem
  | packet _ _ _ hcall ih => exact ih.acted hbuilt (search_onPacket_acted hcall)
  | deadline _ now dispatcher ih =>
      refine ⟨?_, ?_⟩
      · rw [ih.static]
        rfl
      · intro entry hmem
        exact ih.family entry (LinearMap.mem_retain.mp hmem).1
  | change _ captures dispatcher ih =>
      unfold SearchReflector.onIfaceChange
      split
      · exact ih
      · refine ⟨?_, ?_⟩
        · rw [ih.static]
        · intro entry hmem
          cases hmem

theorem makeSession_reserves {calls : PacketCalls} {own : Key}
    {reflector : SearchReflector} {packet : Packet} {destination : IpAddr}
    {dispatcher made : PacketDispatcher} {expiry : Nat} {type : MessageType}
    {session : Session}
    (h : reflector.makeSession calls own packet destination dispatcher expiry
      type = .ok (made, .ok session)) :
    made.table = dispatcher.table ∧
      isIpv6 session.reservation.ip = isIpv6 destination := by
  unfold SearchReflector.makeSession at h
  split at h
  · cases h
  split at h
  · cases h
  rename_i ourAddr haddr
  split at h
  · cases h
  obtain ⟨⟨registered, responseKey⟩, hregister, h⟩ := except_bind_ok h
  cases h
  obtain ⟨⟨registrations, key⟩, _, hregistered⟩ := except_bind_ok hregister
  cases hregistered
  exact ⟨rfl, replySource_family haddr⟩

theorem search_reserved {calls : PacketCalls} {own : Key}
    {start reflector : SearchReflector} {packet : Packet}
    {dispatcher made : PacketDispatcher} {reached : SearchReach}
    {session : Session} (h : Reserved start reflector)
    (hbuilt : start.delivery.Built)
    (hreach : reflector.reach calls own packet dispatcher =
      .ok (made, reached)) (hsession : reached.session = some session) :
    made.table = dispatcher.table ∧
      isIpv6 session.reservation.ip = isIpv6 packet.dest.ip := by
  have hdelivery : reflector.delivery = start.delivery := by rw [h.static]
  unfold SearchReflector.reach at hreach
  split at hreach
  · cases hreach
    cases hsession
  · cases hreach
    cases hsession
  · cases hreach
    cases hsession
  split at hreach
  · cases hreach
    cases hsession
  rename_i destination hdestination
  rw [hdelivery] at hdestination
  have hfamily := destination_family hbuilt hdestination
  simp only at hreach
  split at hreach
  · rename_i found hfound
    cases hreach
    cases hsession
    exact ⟨rfl, h.family (⟨packet.source, packet.dest⟩, session)
      (LinearMap.get_eq_some_iff.mp hfound)⟩
  · obtain ⟨⟨left, outcome⟩, hmade, hrest⟩ := except_bind_ok hreach
    cases outcome with
    | error outcome =>
        cases hrest
        cases hsession
    | ok opened =>
        cases hrest
        cases hsession
        obtain ⟨htable, hreserved⟩ := makeSession_reserves hmade
        exact ⟨htable, hreserved.trans hfamily⟩

theorem matches_response {reflector : SearchReflector}
    {reservation : SocketAddr} {packet : Packet}
    {ingress : Option InterfaceAddresses}
    (h : (reflector.responseFilter reservation).matches packet ingress =
      true) : packet.dest.ip = reservation.ip := by
  simp only [Filter.matches, SearchReflector.responseFilter, Filter.any,
    noneOr, Filter.acceptsDst, Bool.and_eq_true] at h
  simpa using h.1.1.1.1.2

/-- Whatever a search leg has become, its sends are gated, and so are the
sends of the leg that answers its searcher. -/
def SearchReflector.Safe (digest : MacAddr → Datagram → UInt64)
    (filter : Filter) (start : SearchReflector) : Prop :=
  ∀ (reflector : SearchReflector) (calls : PacketCalls) (own : Key)
    (packet : Packet) (ingress : Option InterfaceAddresses)
    (dispatcher made : PacketDispatcher) (reached : SearchReach)
    (session : Session),
    Reached digest filter start reflector → WasRead packet →
    filter.matches packet ingress = true →
    ScannedAt dispatcher.table reflector.target →
    reflector.reach calls own packet dispatcher = .ok (made, reached) →
    reached.session = some session →
    Gated (reflector.delivery.attempt digest calls.inject made
        reflector.target packet.dest (.exact session.reservation)
        reflector.protocol.ttl packet.payload)
      (fun ip => isIpv6 ip = isIpv6 packet.dest.ip ∧
        reflector.delivery.Leads (directedOf dispatcher.table
          reflector.target) ip) ∧
    (reflector.responseLeg packet).Safe digest fun answer =>
      ∃ ingress, (reflector.responseFilter session.reservation).matches answer
        ingress = true

theorem search_safe (digest : MacAddr → Datagram → UInt64) {filter : Filter}
    {start : SearchReflector} (h : (Leg.search start).Built filter) :
    start.Safe digest filter := by
  obtain ⟨hbuilt, hnew, hgroups⟩ := h
  intro reflector calls own packet ingress dispatcher made reached session
    hreached hread hmatches hscanned hreach hsession
  have hreserved := Reserved.reached hbuilt hnew hreached
  have hdelivery : reflector.delivery = start.delivery := by
    rw [hreserved.static]
  obtain ⟨htable, hfamily⟩ :=
    search_reserved hreserved hbuilt hreach hsession
  refine ⟨?_, ?_⟩
  · rw [← htable] at hscanned ⊢
    refine attempt_gated digest calls.inject reflector.delivery made
      reflector.target packet.dest _ packet.payload ?_ ?_
    · intro addrs haddrs
      exact ⟨hscanned addrs haddrs, by rw [sourceFault, if_pos hfamily]⟩
    · rw [hdelivery]
      rcases hbuilt with hlink | ⟨addrs, hpeers⟩
      · rw [hlink]
        exact ⟨rfl, .inl (hgroups packet ingress hmatches)⟩
      · rw [hpeers]
        exact rfl
  · refine unicast_safe digest rfl rfl ?_
    rintro answer ⟨side, hanswer⟩
    rw [matches_response hanswer, hfamily]
    exact hread.family

/-! ## Every leg -/

/-- Behind its gates no leg that a build makes, nor one that answers for it,
fails for the addresses of a datagram: a simple leg for any packet, and a
search leg, over any of its calls, for those its filter lets through. -/
theorem gates_suffice (digest : MacAddr → Datagram → UInt64)
    (captures : InterfaceName → CaptureKey) (config : Config) :
    (∀ item ∈ registered captures config, ∀ leg creator,
      item.registration.handler = some ⟨.simple leg, creator⟩ →
        leg.Safe digest fun _ => True) ∧
    (∀ item ∈ registered captures config, ∀ start creator,
      item.registration.handler = some ⟨.search start, creator⟩ →
        start.Safe digest item.registration.filter) ∧
    (∀ (calls : PacketCalls) (leg : SimpleReflector) (packet : Packet)
      (daemon : Daemon),
      leg.onPacket digest calls packet daemon =
        leg.reach calls packet daemon >>= fun reached =>
          leg.finish digest calls packet reached.1 reached.2) ∧
    (∀ (calls : PacketCalls) (own : Key) (reflector : SearchReflector)
      (packet : Packet) (dispatcher : PacketDispatcher),
      reflector.onPacket digest calls own packet dispatcher =
        reflector.reach calls own packet dispatcher >>= fun reached =>
          reflector.finish digest calls packet reached.1 reached.2) ∧
    (∀ inject (delivery : Delivery) dispatcher egress dst source ttl payload,
      delivery.send digest inject dispatcher egress dst source ttl payload =
        dispatcher.afterSend (delivery.attempt digest inject dispatcher
          egress dst source ttl payload)) ∧
    ∀ platform calls interfaces (dispatcher after : PacketDispatcher),
      dispatcher.registrations = .new → captureOf interfaces = captures →
      build platform calls interfaces config dispatcher = .ok after →
      after.registrations.iter.map Prod.snd =
        (registered captures config).map (·.registration) := by
  refine ⟨?_, ?_, SimpleReflector.onPacket_reach digest,
    SearchReflector.onPacket_reach digest, send_attempt digest, ?_⟩
  · intro item hitem leg creator hhandler
    obtain ⟨hbuilt, hgrouped⟩ := registered_built hitem _ hhandler
    exact built_safe digest hbuilt hgrouped
  · intro item hitem start creator hhandler
    exact search_safe digest (registered_built hitem _ hhandler)
  · intro platform calls interfaces dispatcher after hnew hcaptures hbuild
    rw [← hcaptures]
    exact build_registers hnew hbuild

/-! ## An entry whose legs send -/

theorem roomNames_distinct : ([0x61] : Bytes) ≠ [0x62] := by decide

def roomEntry : Reflector where
  name := ⟨['r']⟩
  sourceIf := ([0x61] : Bytes)
  targetIf := ([0x62] : Bytes)
  sourcePeers := none
  targetPeers := none
  macs := none
  addressFamily := .default
  wol := none
  mdns := none
  ssdp := some ⟨false⟩
  wsd := false
  bidirectional := false
  udp := none
  distinct := roomNames_distinct

def roomConfig : Config := ⟨none, none, none, [roomEntry]⟩

def roomReading : Reading where
  addrs := resolve
    [.v4 ⟨[10, 0, 1, 23], rfl⟩ (some 24), .link (some .broadcast)]
  mtu := none

def roomSetup : List Setup :=
  [.openCapture [0x61] (.ok (some 2)) (.ok hostReading) (.ok .ethernet),
    .openCapture [0x62] (.ok (some 3)) (.ok roomReading) (.ok .ethernet)]

def roomInterfaces : InterfaceMap :=
  (LinearMap.new.insert roomEntry.sourceIf ⟨0⟩).insert roomEntry.targetIf ⟨1⟩

def roomOpened : Except Panic Daemon :=
  (Daemon.new true true 0 0).setupAll .linux roomSetup

def roomBuilt : Except (Stop BuildError) (Daemon × Daemon) := do
  let opened ← liftPanic roomOpened
  let dispatcher ← build .linux ⟨fun _ _ => ⟨.ok (), .ok (), .ok (some 2)⟩, 0⟩
    roomInterfaces roomConfig opened.dispatcher
  .ok (opened, { opened with dispatcher := dispatcher })

def roomCalls : PacketCalls :=
  ⟨10, fun _ _ => .ok (), .ok 50000,
    ⟨.ok [], .error .noBufs, .error .noBufs, fun _ => none, fun _ => none⟩⟩

def roomFrame (length : UInt8) (host : UInt8) (payload : Bytes) : Bytes :=
  [0x45, 0, 0, length + 28, 0, 0, 0, 0, 2, 17, 0, 0, 10, 0, 0, host,
    239, 255, 255, 250, 0x07, 0x6c, 0x07, 0x6c, 0, length + 8, 0, 0] ++ payload

def roomPacket (host : UInt8) (payload : Bytes) : Packet where
  source := ⟨.v4 (.new 10 0 0 host), 1900⟩
  dest := ⟨.v4 Ssdp.ssdpGroupV4, Ssdp.ssdpPort⟩
  ttl := 2
  dstMac := none
  srcMac := none
  payload := payload

def notifyLine : Bytes := ascii "NOTIFY *\r\n\r\n"

def msearchLine : Bytes := ascii "M-SEARCH *\r\n\r\n"

theorem notify_read : WasRead (roomPacket 9 notifyLine) :=
  .inl ⟨.rawIp, roomFrame 12 9 notifyLine, by decide +kernel⟩

theorem msearch_read : WasRead (roomPacket 7 msearchLine) :=
  .inl ⟨.rawIp, roomFrame 14 7 msearchLine, by decide +kernel⟩

def announcer : SimpleReflector :=
  announcementLeg ⟨0⟩ roomEntry SSDP .noRewrite

def searcher : SearchReflector :=
  searchLeg ⟨0⟩ ⟨1⟩ roomEntry SSDP .noRewrite

def sendOf : Except Panic (Daemon × Reach) →
    Option (MessageType × SocketAddr × Bytes)
  | .ok (_, .sends type dest payload) => some (type, dest, payload)
  | _ => none

theorem sendOf_eq {answer : Except Panic (Daemon × Reach)}
    {type : MessageType} {dest : SocketAddr} {payload : Bytes}
    (h : sendOf answer = some (type, dest, payload)) :
    ∃ after, answer = .ok (after, .sends type dest payload) := by
  unfold sendOf at h
  split at h
  · cases h
    exact ⟨_, rfl⟩
  · cases h

def sessionOf : Except Panic (PacketDispatcher × SearchReach) →
    Option Session
  | .ok (_, reached) => reached.session
  | .error _ => none

theorem sessionOf_eq {answer : Except Panic (PacketDispatcher × SearchReach)}
    {session : Session} (h : sessionOf answer = some session) :
    ∃ made reached, answer = .ok (made, reached) ∧
      reached.session = some session := by
  unfold sessionOf at h
  split at h
  · rename_i made reached
    exact ⟨made, reached, rfl, h⟩
  · cases h

/-- What is seen of the build, and of what the legs then come to. -/
structure RoomView where
  slots : Nat
  free : List UInt32
  near : Option InterfaceAddresses
  far : Option InterfaceAddresses
  sent : Option (MessageType × SocketAddr × Bytes)
  reserved : Option SocketAddr
  deriving DecidableEq

def roomView (opened daemon : Daemon) : RoomView where
  slots := opened.dispatcher.registrations.slots.length
  free := opened.dispatcher.registrations.free
  near := daemon.dispatcher.table.egressAddrs ⟨0⟩
  far := daemon.dispatcher.table.egressAddrs ⟨1⟩
  sent := sendOf (announcer.reach roomCalls (roomPacket 9 notifyLine) daemon)
  reserved := (sessionOf (searcher.reach roomCalls ⟨1, 0⟩
    (roomPacket 7 msearchLine) daemon.dispatcher)).map (·.reservation)

theorem gates_suffice_room :
    ∃ opened daemon after made reached session,
      roomBuilt = .ok (opened, daemon) ∧
      daemon.dispatcher.registrations.iter.map Prod.snd =
        (registered (captureOf roomInterfaces) roomConfig).map
          (·.registration) ∧
      announcer.reach roomCalls (roomPacket 9 notifyLine) daemon =
        .ok (after, .sends .ssdpAdvertisement
          (roomPacket 9 notifyLine).dest notifyLine) ∧
      Gated (announcer.delivery.attempt lastOctet roomCalls.inject
          after.dispatcher announcer.egress (roomPacket 9 notifyLine).dest
          (announcer.emit.source.resolve (roomPacket 9 notifyLine))
          (announcer.emit.ttl.resolve (roomPacket 9 notifyLine)) notifyLine)
        (fun ip => isIpv6 ip = false ∧ announcer.delivery.Leads
          (directedOf daemon.dispatcher.table announcer.egress) ip) ∧
      searcher.reach roomCalls ⟨1, 0⟩ (roomPacket 7 msearchLine)
        daemon.dispatcher = .ok (made, reached) ∧
      reached.session = some session ∧
      Gated (searcher.delivery.attempt lastOctet roomCalls.inject made
          searcher.target (roomPacket 7 msearchLine).dest
          (.exact session.reservation) searcher.protocol.ttl msearchLine)
        (fun ip => isIpv6 ip = false ∧ searcher.delivery.Leads
          (directedOf daemon.dispatcher.table searcher.target) ip) := by
  have hview : roomBuilt.toOption.map (fun built =>
      roomView built.1 built.2) = some {
        slots := 0
        free := []
        near := some hostReading.addrs
        far := some roomReading.addrs
        sent := some (.ssdpAdvertisement, (roomPacket 9 notifyLine).dest,
          notifyLine)
        reserved := some ⟨.v4 ⟨[10, 0, 1, 23], rfl⟩, 50000⟩ } := by
    decide +kernel
  obtain ⟨⟨opened, daemon⟩, hbuilt, hview⟩ := Option.map_eq_some_iff.mp hview
  simp only [roomView, RoomView.mk.injEq] at hview
  obtain ⟨hslots, hfree, hnear, hfar, hsent, hreserved⟩ := hview
  have hbuilt := toOption_eq_some.mp hbuilt
  obtain ⟨_, _, hrest⟩ := except_bind_ok hbuilt
  obtain ⟨dispatcher, hmade, hsame⟩ := except_bind_ok hrest
  cases hsame
  have hnew : opened.dispatcher.registrations = .new := by
    cases hregistrations : opened.dispatcher.registrations with
    | mk slots free =>
        rw [hregistrations] at hslots hfree
        cases List.length_eq_zero_iff.mp hslots
        cases hfree
        rfl
  obtain ⟨after, hreach⟩ := sendOf_eq hsent
  obtain ⟨session, hsession, _⟩ := Option.map_eq_some_iff.mp hreserved
  obtain ⟨made, reached, hsearch, hreached⟩ := sessionOf_eq hsession
  obtain ⟨hsimple, hsearches, _, _, _, hbuilds⟩ :=
    gates_suffice lastOctet (captureOf roomInterfaces) roomConfig
  have hitems : registered (captureOf roomInterfaces) roomConfig =
      pairRegistered ⟨0⟩ ⟨1⟩ roomEntry .ssdp SSDP .noRewrite := rfl
  rw [hitems] at hsimple hsearches
  have hscanned : ∀ key addrs, (key = ⟨0⟩ ∨ key = ⟨1⟩) →
      dispatcher.table.egressAddrs key = some addrs → addrs.Scanned := by
    rintro key addrs (rfl | rfl) haddrs
    · cases hnear.symm.trans haddrs
      exact ⟨_, rfl⟩
    · cases hfar.symm.trans haddrs
      exact ⟨_, rfl⟩
  refine ⟨opened, _, after, made, reached, session, hbuilt,
    hbuilds _ _ _ _ _ hnew rfl hmade, hreach, ?_, hsearch, hreached, ?_⟩
  · exact hsimple _ List.mem_cons_self announcer none rfl roomCalls
      (roomPacket 9 notifyLine) _ after _ _ _ notify_read trivial
      (fun addrs => hscanned _ addrs (.inl rfl)) hreach
  · exact (hsearches _ (List.mem_cons_of_mem _ List.mem_cons_self) searcher
      none rfl searcher roomCalls ⟨1, 0⟩ (roomPacket 7 msearchLine) none _
      made reached session .start msearch_read (by decide +kernel)
      (fun addrs => hscanned _ addrs (.inr rfl)) hsearch hreached).1

end Netflector.Reflector
