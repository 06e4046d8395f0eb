import Netflector.Dispatch.Daemon
import Netflector.Reflector.Protocols

/-!
# Building the reflectors

What an entry of the configuration registers at startup: a leg for each
direction of each of its protocols, once the interfaces are known to carry
them.  `Registered` keeps the protocol and the names of the interfaces beside
the registration; nothing reads them.
-/

namespace Netflector.Reflector

open Netflector.Foundation
open Netflector.Net
open Netflector.Reactor
open Netflector.Config
open Netflector.Dispatch

structure Registered where
  protocol : Protocol
  ingress : InterfaceName
  egress : InterfaceName
  registration : Registration PacketHandler

def Delivery.new (peers : Option PeerList) : Delivery :=
  match peers with
  | some peers => .peers peers.items
  | none => .link

/-- A leg without a rewrite that drops nothing it would send. -/
def SimpleReflector.new (egress : CaptureKey) (delivery : Delivery)
    (classify : Packet → Verdict) (emit : Emit) : SimpleReflector where
  egress := egress
  delivery := delivery
  classify := classify
  emit := emit
  rewrite := .noRewrite
  suppress := fun _ => false

def simpleHandler (reflector : SimpleReflector) : Option PacketHandler :=
  some ⟨.simple reflector, none⟩

def groupAddrs (family : AddressFamily) (port : UInt16) (v4 : Ipv4Addr)
    (v6 : List Ipv6Addr) : List SocketAddr :=
  (if family.usesIpv4 then [⟨.v4 v4, port⟩] else []) ++
    if family.usesIpv6 then v6.map fun group => ⟨.v6 group, port⟩ else []

def macItems (macs : Option MacSet) : Option (List MacAddr) :=
  macs.map (·.items)

/-! ## What each protocol registers -/

section Registrations

variable (source target : CaptureKey) (reflector : Reflector)

def wolLeg : SimpleReflector :=
  .new target (.new reflector.targetPeers)
    (Wol.WakeClassifier.mk reflector.macs reflector.addressFamily).classify
    Emit.capturedFromEgress.unicastToBroadcast

/-- The re-emit keeps the captured port, so that one handler serves them
all. -/
def wolRegistered : List Registered :=
  match reflector.wol with
  | none => []
  | some wol =>
      [⟨.wol, reflector.sourceIf, reflector.targetIf, source,
        { Filter.any with dstPort := some (wol.ports.items.map (·.get)) },
        simpleHandler (wolLeg target reflector)⟩]

def mdnsGroups (family : AddressFamily) : List IpAddr :=
  (groupAddrs family Mdns.mdnsPort Mdns.mdnsGroupV4
    [Mdns.mdnsGroupV6]).map (·.ip)

def mdnsQueryLeg (mdns : Config.Mdns) : SimpleReflector :=
  { SimpleReflector.new target (.new reflector.targetPeers)
      (fun packet => mdnsDirection .query packet.payload)
      (.fixed Mdns.mdnsPort Mdns.mdnsTtl) with
    rewrite :=
      match mdns.services with
      | some services => .services ⟨services⟩
      | none => .noRewrite }

def mdnsResponseLeg (mdns : Config.Mdns) : SimpleReflector :=
  { SimpleReflector.new source (.new reflector.sourcePeers)
      (fun packet => mdnsDirection .response packet.payload)
      ((Emit.fixed Mdns.mdnsPort Mdns.mdnsTtl).unicastToGroup
        Mdns.mdnsGroupV4 Mdns.mdnsGroupV6) with
    rewrite := .responses ⟨mdns.services.map Mdns.ServiceFilter.mk⟩
    suppress := mdnsAdvertisesOnlyUnreachable }

/-- Queries go from the source to the target and responses back; an answer may
be sent to this host rather than to the group. -/
def mdnsRegistered : List Registered :=
  match reflector.mdns with
  | none => []
  | some mdns =>
      let groups := mdnsGroups reflector.addressFamily
      [⟨.mdns, reflector.sourceIf, reflector.targetIf, source,
          { Filter.any with
            dstIp := some groups
            dstPort := some [Mdns.mdnsPort] },
          simpleHandler (mdnsQueryLeg target reflector mdns)⟩,
        ⟨.mdns, reflector.targetIf, reflector.sourceIf, target,
          { Filter.any with
            srcPort := some Mdns.mdnsPort
            dstIp := some groups
            dstPort := some [Mdns.mdnsPort]
            srcMac := macItems reflector.macs
            dstOwn := some reflector.addressFamily },
          simpleHandler (mdnsResponseLeg source reflector mdns)⟩]

def SearchProtocol.groups (protocol : SearchProtocol)
    (family : AddressFamily) : List IpAddr :=
  (groupAddrs family protocol.port protocol.groupV4
    protocol.groupsV6).map (·.ip)

def announcementLeg (protocol : SearchProtocol) (rewrite : ReplyRewrite) :
    SimpleReflector :=
  { SimpleReflector.new source (.new reflector.sourcePeers)
      (fun packet => protocol.announcementVerdict packet.payload)
      (.fixed protocol.port protocol.ttl) with
    rewrite := rewrite
    suppress := protocol.suppress }

def searchLeg (protocol : SearchProtocol) (rewrite : ReplyRewrite) :
    SearchReflector where
  source := source
  target := target
  delivery := .new reflector.targetPeers
  deviceMacs := macItems reflector.macs
  protocol := protocol
  makeReply := rewrite
  sessions := .new

/-- Announcements go from the target to the source and searches the other way.
A search that another reflector relayed comes from its reserved port, so only
the group and the port are pinned. -/
def pairRegistered (tag : Protocol) (protocol : SearchProtocol)
    (rewrite : ReplyRewrite) : List Registered :=
  let groups := protocol.groups reflector.addressFamily
  [⟨tag, reflector.targetIf, reflector.sourceIf, target,
      { Filter.any with
        dstIp := some groups
        dstPort := some [protocol.port]
        srcMac := macItems reflector.macs },
      simpleHandler (announcementLeg source reflector protocol rewrite)⟩,
    ⟨tag, reflector.sourceIf, reflector.targetIf, source,
      { Filter.any with
        dstIp := some groups
        dstPort := some [protocol.port] },
      some ⟨.search (searchLeg source target reflector protocol rewrite),
        none⟩⟩]

def ssdpRegistered : List Registered :=
  match reflector.ssdp with
  | none => []
  | some ssdp =>
      pairRegistered source target reflector .ssdp SSDP
        (if ssdp.dial then .dial target else .noRewrite)

def wsdRegistered : List Registered :=
  if reflector.wsd then
    pairRegistered source target reflector .wsd WSD .noRewrite
  else []

/-- A filter matches every field it sets, so that the groups and the
broadcasts need one each. -/
def udpFilters (udp : UdpRelay) : List Filter :=
  let ports := udp.ports.items.map (·.get)
  (if groupItems udp.groups = [] then []
    else [{ Filter.any with
      dstIp := some (groupItems udp.groups)
      dstPort := some ports }]) ++
    if udp.broadcast then [{ Filter.any with
      broadcast := true
      dstPort := some ports }]
    else []

def udpLeg : SimpleReflector :=
  .new target (.new reflector.targetPeers) relay
    Emit.captured.unicastToBroadcast

def udpRegistered : List Registered :=
  match reflector.udp with
  | none => []
  | some udp =>
      (udpFilters udp).map fun filter =>
        ⟨.udp, reflector.sourceIf, reflector.targetIf, source, filter,
          simpleHandler (udpLeg target reflector)⟩

end Registrations

def sideRegistered (source target : CaptureKey) (reflector : Reflector) :
    List Registered :=
  wolRegistered source target reflector ++
    mdnsRegistered source target reflector ++
    ssdpRegistered source target reflector ++
    wsdRegistered source target reflector ++
    udpRegistered source target reflector

def entryRegistered (captures : InterfaceName → CaptureKey)
    (reflector : Reflector) : List Registered :=
  reflector.sides.flatMap fun side =>
    sideRegistered (captures side.sourceIf) (captures side.targetIf) side

def registered (captures : InterfaceName → CaptureKey) (config : Config) :
    List Registered :=
  config.reflectors.flatMap (entryRegistered captures)

/-! ## The builds -/

inductive IpFamily where
  | v4
  | v6
  deriving DecidableEq, Repr

/-- `reason` is what the join reported; its text is left out. -/
inductive BuildError where
  | unknownInterface (name : InterfaceName)
  | requiredFamilyUnavailable (name : InterfaceName) (family : IpFamily)
  | macsUnmatchable (name : InterfaceName)
  | interfaceGone (name : InterfaceName)
  | groupJoin (group : IpAddr) (name : InterfaceName) (reason : JoinError)
  deriving DecidableEq

abbrev InterfaceMap : Type := LinearMap InterfaceName CaptureKey

def requireCapture (interfaces : InterfaceMap) (name : InterfaceName) :
    Except (Stop BuildError) CaptureKey :=
  match interfaces.get name with
  | some key => .ok key
  | none => fail (.unknownInterface name)

/-- What the joins of a build answer, by capture and group; a group that has
settled is not joined again. -/
structure BuildCalls where
  join : CaptureKey → IpAddr → JoinCalls
  now : Nat

section Checks

variable (dispatcher : PacketDispatcher)

def addrsOf (capture : CaptureKey) : InterfaceAddresses :=
  (dispatcher.table.egressAddrs capture).getD .default

def missingRequiredFamily (family : AddressFamily)
    (addrs : InterfaceAddresses) : Option IpFamily :=
  if family.requiresIpv4 && addrs.v4.isNone then some .v4
  else if family.requiresIpv6 && addrs.v6Any.isNone then some .v6
  else none

def requireEgressFamily (egress : CaptureKey) (egressIf : InterfaceName)
    (family : AddressFamily) : Except (Stop BuildError) Unit :=
  match missingRequiredFamily family (addrsOf dispatcher egress) with
  | some missing => fail (.requiredFamilyUnavailable egressIf missing)
  | none => .ok ()

/-- The source is blamed where both sides lack the family. -/
def requireBothSidesFamily (reflector : Reflector)
    (source target : CaptureKey) : Except (Stop BuildError) Unit :=
  let family := reflector.addressFamily
  let src := addrsOf dispatcher source
  let tgt := addrsOf dispatcher target
  let blamed := fun (onSource : Bool) =>
    if onSource then reflector.sourceIf else reflector.targetIf
  if family.requiresIpv4 && !(src.v4.isSome && tgt.v4.isSome) then
    fail (.requiredFamilyUnavailable (blamed src.v4.isNone) .v4)
  else if family.requiresIpv6 && !(src.v6Any.isSome && tgt.v6Any.isSome) then
    fail (.requiredFamilyUnavailable (blamed src.v6Any.isNone) .v6)
  else .ok ()

/-- A filter's MACs never match on a link that carries none. -/
def requireMacsMatchable (macs : Option MacSet) (target : CaptureKey)
    (targetIf : InterfaceName) : Except (Stop BuildError) Unit :=
  if macs.isSome && ((dispatcher.table.capture target).any fun capture =>
      capture.linkType ≠ .ethernet) then
    fail (.macsUnmatchable targetIf)
  else .ok ()

def joinFailure (error : JoinError) (group : IpAddr) (name : InterfaceName) :
    BuildError :=
  match error with
  | .gone => .interfaceGone name
  | .noFamily => .groupJoin group name .noFamily
  | .failed source capped => .groupJoin group name (.failed source capped)

def requireGroupJoin (platform : Platform) (calls : BuildCalls)
    (capture : CaptureKey) (group : IpAddr) (name : InterfaceName)
    (required : Bool) : Except (Stop BuildError) PacketDispatcher :=
  match dispatcher.table.interfaceOf capture with
  | none => .ok dispatcher
  | some interface =>
      match dispatcher.table.joinOn platform (calls.join capture group)
          interface group ⟨required⟩ calls.now with
      | (table, .ok ()) => .ok { dispatcher with table := table }
      | (_, .error error) => fail (joinFailure error group name)

end Checks

def joinGroups (platform : Platform) (calls : BuildCalls)
    (family : AddressFamily) (captures : List (CaptureKey × InterfaceName)) :
    List IpAddr → PacketDispatcher →
      Except (Stop BuildError) PacketDispatcher
  | [], dispatcher => .ok dispatcher
  | group :: groups, dispatcher => do
      let dispatcher ← captures.foldlM (fun dispatcher capture =>
        requireGroupJoin dispatcher platform calls capture.1 group capture.2
          (family.requires group)) dispatcher
      joinGroups platform calls family captures groups dispatcher

def openPair (platform : Platform) (calls : BuildCalls)
    (interfaces : InterfaceMap) (reflector : Reflector)
    (groups : List IpAddr) (dispatcher : PacketDispatcher) :
    Except (Stop BuildError) (PacketDispatcher × CaptureKey × CaptureKey) := do
  let source ← requireCapture interfaces reflector.sourceIf
  let target ← requireCapture interfaces reflector.targetIf
  requireBothSidesFamily dispatcher reflector source target
  requireMacsMatchable dispatcher reflector.macs target reflector.targetIf
  let dispatcher ← joinGroups platform calls reflector.addressFamily
    [(source, reflector.sourceIf), (target, reflector.targetIf)] groups
    dispatcher
  .ok (dispatcher, source, target)

def registerAll : List Registered → PacketDispatcher →
    Except (Stop BuildError) PacketDispatcher
  | [], dispatcher => .ok dispatcher
  | item :: rest, dispatcher => do
      let (registrations, _) ←
        liftPanic (dispatcher.registrations.insert item.registration)
      registerAll rest { dispatcher with registrations := registrations }

section Builds

variable (platform : Platform) (calls : BuildCalls)
  (interfaces : InterfaceMap) (reflector : Reflector)

def wolBuild (dispatcher : PacketDispatcher) :
    Except (Stop BuildError) PacketDispatcher :=
  match reflector.wol with
  | none => .ok dispatcher
  | some _ => do
      let ingress ← requireCapture interfaces reflector.sourceIf
      let egress ← requireCapture interfaces reflector.targetIf
      requireEgressFamily dispatcher egress reflector.targetIf
        reflector.addressFamily
      registerAll (wolRegistered ingress egress reflector) dispatcher

def mdnsBuild (dispatcher : PacketDispatcher) :
    Except (Stop BuildError) PacketDispatcher :=
  match reflector.mdns with
  | none => .ok dispatcher
  | some _ => do
      let (dispatcher, source, target) ← openPair platform calls interfaces
        reflector (mdnsGroups reflector.addressFamily) dispatcher
      registerAll (mdnsRegistered source target reflector) dispatcher

/-- `rewrite` is given the target of the devices it is for. -/
def buildPair (tag : Protocol) (protocol : SearchProtocol)
    (rewrite : CaptureKey → ReplyRewrite) (dispatcher : PacketDispatcher) :
    Except (Stop BuildError) PacketDispatcher := do
  let (dispatcher, source, target) ← openPair platform calls interfaces
    reflector (protocol.groups reflector.addressFamily) dispatcher
  registerAll (pairRegistered source target reflector tag protocol
    (rewrite target)) dispatcher

def ssdpBuild (dispatcher : PacketDispatcher) :
    Except (Stop BuildError) PacketDispatcher :=
  match reflector.ssdp with
  | none => .ok dispatcher
  | some ssdp =>
      buildPair platform calls interfaces reflector .ssdp SSDP
        (fun target => if ssdp.dial then .dial target else .noRewrite)
        dispatcher

def wsdBuild (dispatcher : PacketDispatcher) :
    Except (Stop BuildError) PacketDispatcher :=
  if reflector.wsd then
    buildPair platform calls interfaces reflector .wsd WSD
      (fun _ => .noRewrite) dispatcher
  else .ok dispatcher

def udpBuild (dispatcher : PacketDispatcher) :
    Except (Stop BuildError) PacketDispatcher :=
  match reflector.udp with
  | none => .ok dispatcher
  | some udp => do
      let ingress ← requireCapture interfaces reflector.sourceIf
      let egress ← requireCapture interfaces reflector.targetIf
      requireEgressFamily dispatcher egress reflector.targetIf
        reflector.addressFamily
      let dispatcher ← joinGroups platform calls reflector.addressFamily
        [(ingress, reflector.sourceIf)] (groupItems udp.groups) dispatcher
      registerAll (udpRegistered ingress egress reflector) dispatcher

def buildReflector (dispatcher : PacketDispatcher) :
    Except (Stop BuildError) PacketDispatcher := do
  let dispatcher ← wolBuild interfaces reflector dispatcher
  let dispatcher ← mdnsBuild platform calls interfaces reflector dispatcher
  let dispatcher ← ssdpBuild platform calls interfaces reflector dispatcher
  let dispatcher ← wsdBuild platform calls interfaces reflector dispatcher
  udpBuild platform calls interfaces reflector dispatcher

end Builds

/-- A bidirectional entry is built once for each side. -/
def buildAll (platform : Platform) (calls : BuildCalls)
    (interfaces : InterfaceMap) :
    List Reflector → PacketDispatcher →
      Except (Stop BuildError) PacketDispatcher
  | [], dispatcher => .ok dispatcher
  | side :: sides, dispatcher => do
      let dispatcher ←
        buildReflector platform calls interfaces side dispatcher
      buildAll platform calls interfaces sides dispatcher

def build (platform : Platform) (calls : BuildCalls)
    (interfaces : InterfaceMap) (config : Config)
    (dispatcher : PacketDispatcher) :
    Except (Stop BuildError) PacketDispatcher :=
  buildAll platform calls interfaces
    (config.reflectors.flatMap Reflector.sides) dispatcher

/-! ## A build registers what it says -/

structure Registers (items : List Registered)
    (before after : PacketDispatcher) : Prop where
  free : after.registrations.free = []
  values : after.registrations.iter.map Prod.snd =
    before.registrations.iter.map Prod.snd ++ items.map (·.registration)

theorem insert_values {Value : Type} {arena after : Arena Value} {key : Key}
    {value : Value} (hfree : arena.free = [])
    (h : arena.insert value = .ok (after, key)) :
    after.free = [] ∧
      after.iter.map Prod.snd = arena.iter.map Prod.snd ++ [value] := by
  unfold Arena.insert Arena.insertFrom at h
  simp only [hfree] at h
  split at h
  · cases h
    refine ⟨rfl, ?_⟩
    simp [Arena.iter, List.zipIdx_append, List.filterMap_append]
  · cases h

theorem Registers.refl {dispatcher : PacketDispatcher}
    (h : dispatcher.registrations.free = []) :
    Registers [] dispatcher dispatcher :=
  ⟨h, by simp⟩

theorem Registers.append {first second : List Registered}
    {before between after : PacketDispatcher}
    (h : Registers first before between)
    (h' : Registers second between after) :
    Registers (first ++ second) before after :=
  ⟨h'.free, by rw [h'.values, h.values, List.map_append, List.append_assoc]⟩

theorem Registers.of_same {items : List Registered}
    {before same after : PacketDispatcher}
    (hsame : same.registrations = before.registrations)
    (h : Registers items same after) : Registers items before after :=
  ⟨h.free, by rw [h.values, hsame]⟩

theorem registerAll_registers {items : List Registered}
    {dispatcher after : PacketDispatcher}
    (hfree : dispatcher.registrations.free = [])
    (h : registerAll items dispatcher = .ok after) :
    Registers items dispatcher after := by
  induction items generalizing dispatcher with
  | nil =>
      cases h
      exact .refl hfree
  | cons item items ih =>
      obtain ⟨⟨registrations, key⟩, hinsert, hrest⟩ := except_bind_ok h
      obtain ⟨hfree', hvalues⟩ :=
        insert_values hfree (liftPanic_eq_ok hinsert)
      have hlater := ih hfree' hrest
      refine ⟨hlater.free, ?_⟩
      rw [hlater.values, hvalues, List.map_cons, List.append_assoc,
        List.singleton_append]

theorem requireGroupJoin_same {dispatcher after : PacketDispatcher}
    {platform : Platform} {calls : BuildCalls} {capture : CaptureKey}
    {group : IpAddr} {name : InterfaceName} {required : Bool}
    (h : requireGroupJoin dispatcher platform calls capture group name
      required = .ok after) :
    after.registrations = dispatcher.registrations := by
  unfold requireGroupJoin at h
  split at h
  · cases h
    rfl
  · split at h
    · cases h
      rfl
    · cases h

theorem joinGroups_same {platform : Platform} {calls : BuildCalls}
    {family : AddressFamily} {captures : List (CaptureKey × InterfaceName)}
    {groups : List IpAddr} {dispatcher after : PacketDispatcher}
    (h : joinGroups platform calls family captures groups dispatcher =
      .ok after) : after.registrations = dispatcher.registrations := by
  induction groups generalizing dispatcher with
  | nil =>
      cases h
      rfl
  | cons group groups ih =>
      obtain ⟨joined, hjoined, hrest⟩ := except_bind_ok h
      rw [ih hrest]
      clear h hrest ih
      induction captures generalizing dispatcher with
      | nil =>
          cases hjoined
          rfl
      | cons capture captures ih =>
          rw [List.foldlM_cons] at hjoined
          obtain ⟨next, hnext, hmore⟩ := except_bind_ok hjoined
          rw [ih hmore, requireGroupJoin_same hnext]

def captureOf (interfaces : InterfaceMap) (name : InterfaceName) :
    CaptureKey :=
  (interfaces.get name).getD ⟨0⟩

theorem requireCapture_ok {interfaces : InterfaceMap} {name : InterfaceName}
    {key : CaptureKey} (h : requireCapture interfaces name = .ok key) :
    key = captureOf interfaces name := by
  unfold requireCapture at h
  unfold captureOf
  split at h
  · rename_i found hfound
    cases h
    rw [hfound, Option.getD_some]
  · cases h

theorem openPair_ok {platform : Platform} {calls : BuildCalls}
    {interfaces : InterfaceMap} {reflector : Reflector}
    {groups : List IpAddr} {dispatcher after : PacketDispatcher}
    {source target : CaptureKey}
    (h : openPair platform calls interfaces reflector groups dispatcher =
      .ok (after, source, target)) :
    after.registrations = dispatcher.registrations ∧
      source = captureOf interfaces reflector.sourceIf ∧
      target = captureOf interfaces reflector.targetIf := by
  obtain ⟨source', hsource, h⟩ := except_bind_ok h
  obtain ⟨target', htarget, h⟩ := except_bind_ok h
  obtain ⟨_, _, h⟩ := except_bind_ok h
  obtain ⟨_, _, h⟩ := except_bind_ok h
  obtain ⟨joined, hjoined, h⟩ := except_bind_ok h
  cases h
  exact ⟨joinGroups_same hjoined, requireCapture_ok hsource,
    requireCapture_ok htarget⟩

section Builds

variable {platform : Platform} {calls : BuildCalls}
  {interfaces : InterfaceMap} {reflector : Reflector}
  {dispatcher after : PacketDispatcher}

theorem buildPair_registers {tag : Protocol} {protocol : SearchProtocol}
    {rewrite : CaptureKey → ReplyRewrite}
    (hfree : dispatcher.registrations.free = [])
    (h : buildPair platform calls interfaces reflector tag protocol rewrite
      dispatcher = .ok after) :
    Registers (pairRegistered (captureOf interfaces reflector.sourceIf)
      (captureOf interfaces reflector.targetIf) reflector tag protocol
      (rewrite (captureOf interfaces reflector.targetIf))) dispatcher
      after := by
  obtain ⟨⟨joined, source, target⟩, hpair, hrest⟩ := except_bind_ok h
  obtain ⟨hsame, rfl, rfl⟩ := openPair_ok hpair
  exact .of_same hsame (registerAll_registers (hsame ▸ hfree) hrest)

theorem wolBuild_registers (hfree : dispatcher.registrations.free = [])
    (h : wolBuild interfaces reflector dispatcher = .ok after) :
    Registers (wolRegistered (captureOf interfaces reflector.sourceIf)
      (captureOf interfaces reflector.targetIf) reflector) dispatcher
      after := by
  unfold wolBuild at h
  split at h
  · rename_i hnone
    cases h
    rw [wolRegistered, hnone]
    exact .refl hfree
  · obtain ⟨ingress, hingress, h⟩ := except_bind_ok h
    obtain ⟨egress, hegress, h⟩ := except_bind_ok h
    obtain ⟨_, _, h⟩ := except_bind_ok h
    rw [requireCapture_ok hingress, requireCapture_ok hegress] at h
    exact registerAll_registers hfree h

theorem mdnsBuild_registers (hfree : dispatcher.registrations.free = [])
    (h : mdnsBuild platform calls interfaces reflector dispatcher =
      .ok after) :
    Registers (mdnsRegistered (captureOf interfaces reflector.sourceIf)
      (captureOf interfaces reflector.targetIf) reflector) dispatcher
      after := by
  unfold mdnsBuild at h
  split at h
  · rename_i hnone
    cases h
    rw [mdnsRegistered, hnone]
    exact .refl hfree
  · obtain ⟨⟨joined, source, target⟩, hpair, hrest⟩ := except_bind_ok h
    obtain ⟨hsame, rfl, rfl⟩ := openPair_ok hpair
    exact .of_same hsame (registerAll_registers (hsame ▸ hfree) hrest)

theorem ssdpBuild_registers (hfree : dispatcher.registrations.free = [])
    (h : ssdpBuild platform calls interfaces reflector dispatcher =
      .ok after) :
    Registers (ssdpRegistered (captureOf interfaces reflector.sourceIf)
      (captureOf interfaces reflector.targetIf) reflector) dispatcher
      after := by
  unfold ssdpBuild at h
  rw [ssdpRegistered]
  split at h
  · cases h
    exact .refl hfree
  · exact buildPair_registers hfree h

theorem wsdBuild_registers (hfree : dispatcher.registrations.free = [])
    (h : wsdBuild platform calls interfaces reflector dispatcher =
      .ok after) :
    Registers (wsdRegistered (captureOf interfaces reflector.sourceIf)
      (captureOf interfaces reflector.targetIf) reflector) dispatcher
      after := by
  unfold wsdBuild at h
  rw [wsdRegistered]
  split at h
  · rename_i hwsd
    rw [if_pos hwsd]
    exact buildPair_registers hfree h
  · rename_i hwsd
    cases h
    rw [if_neg hwsd]
    exact .refl hfree

theorem udpBuild_registers (hfree : dispatcher.registrations.free = [])
    (h : udpBuild platform calls interfaces reflector dispatcher =
      .ok after) :
    Registers (udpRegistered (captureOf interfaces reflector.sourceIf)
      (captureOf interfaces reflector.targetIf) reflector) dispatcher
      after := by
  unfold udpBuild at h
  split at h
  · rename_i hnone
    cases h
    rw [udpRegistered, hnone]
    exact .refl hfree
  · obtain ⟨ingress, hingress, h⟩ := except_bind_ok h
    obtain ⟨egress, hegress, h⟩ := except_bind_ok h
    obtain ⟨_, _, h⟩ := except_bind_ok h
    obtain ⟨joined, hjoined, h⟩ := except_bind_ok h
    rw [requireCapture_ok hingress, requireCapture_ok hegress] at h
    have hsame := joinGroups_same hjoined
    exact .of_same hsame (registerAll_registers (hsame ▸ hfree) h)

theorem buildReflector_registers
    (hfree : dispatcher.registrations.free = [])
    (h : buildReflector platform calls interfaces reflector dispatcher =
      .ok after) :
    Registers (sideRegistered (captureOf interfaces reflector.sourceIf)
      (captureOf interfaces reflector.targetIf) reflector) dispatcher
      after := by
  obtain ⟨first, hwol, h⟩ := except_bind_ok h
  obtain ⟨second, hmdns, h⟩ := except_bind_ok h
  obtain ⟨third, hssdp, h⟩ := except_bind_ok h
  obtain ⟨fourth, hwsd, hudp⟩ := except_bind_ok h
  have hfirst := wolBuild_registers hfree hwol
  have hsecond := mdnsBuild_registers hfirst.free hmdns
  have hthird := ssdpBuild_registers hsecond.free hssdp
  have hfourth := wsdBuild_registers hthird.free hwsd
  have hfifth := udpBuild_registers hfourth.free hudp
  exact (((hfirst.append hsecond).append hthird).append hfourth).append hfifth

end Builds

/-- The registrations of a daemon built from nothing are those of its
configuration, in order. -/
theorem build_registers {platform : Platform} {calls : BuildCalls}
    {interfaces : InterfaceMap} {config : Config}
    {dispatcher after : PacketDispatcher}
    (hnew : dispatcher.registrations = .new)
    (h : build platform calls interfaces config dispatcher = .ok after) :
    after.registrations.iter.map Prod.snd =
      (registered (captureOf interfaces) config).map (·.registration) := by
  have hsides : ∀ (sides : List Reflector) (before : PacketDispatcher),
      before.registrations.free = [] →
      buildAll platform calls interfaces sides before = .ok after →
      Registers (sides.flatMap fun side =>
        sideRegistered (captureOf interfaces side.sourceIf)
          (captureOf interfaces side.targetIf) side) before after := by
    intro sides
    induction sides with
    | nil =>
        intro before hfree hbuilt
        cases hbuilt
        exact .refl hfree
    | cons side sides ih =>
        intro before hfree hbuilt
        obtain ⟨next, hnext, hrest⟩ := except_bind_ok hbuilt
        have hhere := buildReflector_registers hfree hnext
        exact hhere.append (ih next hhere.free hrest)
  have hall := (hsides _ dispatcher (by rw [hnew]; rfl) h).values
  rw [hall, hnew, registered]
  simp only [Arena.new, Arena.iter, List.zipIdx_nil, List.filterMap_nil,
    List.map_nil, List.nil_append, List.flatMap_assoc]
  rfl

end Netflector.Reflector
