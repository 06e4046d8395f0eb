import Netflector.Config.Conflict
import Netflector.SortedMap

/-!
# Validating a configuration

The deserialised entries, and the rules that make a configuration of them.
-/

namespace Netflector.Config

open Netflector.Foundation
open Netflector.Net
open Netflector.Net.Mdns
open Netflector.Dispatch

structure RawReflector where
  /-- Set by the environment alone; an entry of a file is named by its key. -/
  name : Option ReflectorName
  sourceIf : InterfaceName
  targetIf : InterfaceName
  sourcePeers : Option PeerList
  targetPeers : Option PeerList
  macs : Option MacSet
  addressFamily : AddressFamily
  wol : Bool
  wolPorts : Option PortList
  mdns : Bool
  mdnsServices : Option (List ServiceType)
  ssdp : Bool
  dial : Bool
  wsd : Bool
  bidirectional : Bool
  udpPorts : Option PortList
  udpGroups : Option GroupList
  udpBroadcast : Bool

def RawReflector.between (sourceIf targetIf : InterfaceName) :
    RawReflector where
  name := none
  sourceIf := sourceIf
  targetIf := targetIf
  sourcePeers := none
  targetPeers := none
  macs := none
  addressFamily := .default
  wol := false
  wolPorts := none
  mdns := false
  mdnsServices := none
  ssdp := false
  dial := false
  wsd := false
  bidirectional := false
  udpPorts := none
  udpGroups := none
  udpBroadcast := false

def peerItems (peers : Option PeerList) : List IpAddr :=
  match peers with
  | some peers => peers.items
  | none => []

def peerOfUnusedFamily (raw : RawReflector) : Option IpAddr :=
  (peerItems raw.sourcePeers ++ peerItems raw.targetPeers).find? fun peer =>
    !raw.addressFamily.uses peer

def checkPeers (raw : RawReflector) (name : ReflectorName) :
    Except ConfigError Unit :=
  match peerOfUnusedFamily raw with
  | some peer => .error (.peerFamily name peer)
  | none => .ok ()

/-- An entry that sets only groups is a relay without ports, not an entry
without a protocol. -/
def relayOf (raw : RawReflector) (name : ReflectorName) :
    Except ConfigError (Option UdpRelay) :=
  match raw.udpPorts, raw.udpGroups, raw.udpBroadcast with
  | none, none, false => .ok none
  | none, _, _ => .error (.udpRelayWithoutPorts name)
  | some _, none, false => .error (.udpRelayNoDestination name)
  | some ports, groups, broadcast =>
      if broadcast && !raw.addressFamily.usesIpv4 then
        .error (.udpBroadcastFamily name)
      else
        match (groupItems groups).find? fun group =>
            !raw.addressFamily.uses group with
        | some group => .error (.udpGroupFamily name group)
        | none => .ok (some ⟨ports, groups, broadcast⟩)

def checkUnused (raw : RawReflector) (name : ReflectorName)
    (udp : Option UdpRelay) : Except ConfigError Unit :=
  if !raw.wol && !raw.mdns && !raw.ssdp && !raw.wsd && udp.isNone then
    .error (.noProtocol name)
  else if raw.wolPorts.isSome && !raw.wol then
    .error (.wolPortsWithoutWol name)
  else if raw.mdnsServices.isSome && !raw.mdns then
    .error (.mdnsServicesWithoutMdns name)
  else if raw.macs.isSome && !raw.wol && !raw.mdns && !raw.ssdp &&
      !raw.wsd then
    .error (.macsUnused name)
  else if raw.dial && !raw.ssdp then .error (.dialWithoutSsdp name)
  else if raw.ssdp && raw.dial && !raw.addressFamily.usesIpv4 then
    .error (.dialRequiresIpv4 name)
  else .ok ()

def Reflector.nameOf (key : Text) (raw : RawReflector) :
    Except ConfigError ReflectorName :=
  match raw.name with
  | some name => .ok name
  | none =>
      match ReflectorName.fromStr key with
      | some name => .ok name
      | none => .error (.emptyReflectorName key)

def Reflector.tryFrom (key : Text) (raw : RawReflector) :
    Except ConfigError Reflector := do
  let name ← Reflector.nameOf key raw
  checkPeers raw name
  if h : raw.sourceIf = raw.targetIf then
    .error (.sameInterface name raw.sourceIf)
  else
    let udp ← relayOf raw name
    checkUnused raw name udp
    let reflector : Reflector :=
      { name := name
        sourceIf := raw.sourceIf
        targetIf := raw.targetIf
        sourcePeers := raw.sourcePeers
        targetPeers := raw.targetPeers
        macs := raw.macs
        addressFamily := raw.addressFamily
        wol :=
          if raw.wol then some ⟨raw.wolPorts.getD Wol.defaultPorts⟩ else none
        mdns := if raw.mdns then some ⟨raw.mdnsServices⟩ else none
        ssdp := if raw.ssdp then some ⟨raw.dial⟩ else none
        wsd := raw.wsd
        bidirectional := raw.bidirectional
        udp := udp
        distinct := h }
    match reflector.relayDuplicates with
    | some (protocol, port) =>
        .error (.udpRelayDuplicates name port protocol)
    | none => .ok reflector

/-! ## The whole configuration -/

structure RawConfig where
  user : Option RunAs
  debugMemoryIntervalSecs : Option Nat
  countersIntervalSecs : Option Nat
  reflectors : SortedMap Text RawReflector

structure Config where
  user : Option RunAs
  debugMemoryInterval : Option Nat
  counterInterval : Option Nat
  reflectors : List Reflector

def maxIntervalSecs : Nat := 60 * 60 * 24 * 365

def intervalFrom (secs : Option Nat) (field : String) :
    Except ConfigError (Option Nat) :=
  match secs with
  | none => .ok none
  | some secs =>
      if secs > maxIntervalSecs then
        .error (.intervalTooLarge field secs maxIntervalSecs)
      else .ok (if secs > 0 then some secs else none)

def reflectorsFrom : List (Text × RawReflector) →
    Except ConfigError (List Reflector)
  | [] => .ok []
  | (key, raw) :: rest => do
      let reflector ← Reflector.tryFrom key raw
      let reflectors ← reflectorsFrom rest
      .ok (reflector :: reflectors)

def Config.tryFrom (raw : RawConfig) : Except ConfigError Config := do
  let reflectors ← reflectorsFrom raw.reflectors.entries
  if reflectors = [] then .error .noReflectors
  else
    checkConflicts reflectors
    let debugMemoryInterval ← intervalFrom raw.debugMemoryIntervalSecs
      "debug_memory_interval_secs"
    let counterInterval ← intervalFrom raw.countersIntervalSecs
      "counters_interval_secs"
    .ok ⟨raw.user, debugMemoryInterval, counterInterval, reflectors⟩

/-! ## What is accepted -/

theorem checkAgainst_ok_iff {reflector : Reflector}
    {others : List Reflector} :
    checkAgainst reflector others = .ok () ↔
      ∀ other ∈ others, reflector.name ≠ other.name ∧
        reflector.conflictsWith other = none := by
  induction others with
  | nil => simp [checkAgainst]
  | cons first others ih =>
      unfold checkAgainst
      rw [List.forall_mem_cons, ← ih]
      by_cases hname : reflector.name = first.name
      · simp [hname]
      · cases hconflict : reflector.conflictsWith first with
        | none => simp [hname]
        | some conflict => simp [hname]

theorem checkConflicts_ok_iff {reflectors : List Reflector} :
    checkConflicts reflectors = .ok () ↔
      reflectors.Pairwise fun first second => first.name ≠ second.name ∧
        first.conflictsWith second = none := by
  induction reflectors with
  | nil => simp [checkConflicts]
  | cons reflector reflectors ih =>
      rw [List.pairwise_cons, ← ih, ← checkAgainst_ok_iff, checkConflicts]
      cases checkAgainst reflector reflectors with
      | ok result => simp [bind, Except.bind]
      | error error => simp [bind, Except.bind]

structure Reflector.Valid (reflector : Reflector) : Prop where
  peers : ∀ peer ∈ peerItems reflector.sourcePeers ++
    peerItems reflector.targetPeers,
    reflector.addressFamily.uses peer = true
  groups : ∀ udp, reflector.udp = some udp → ∀ group ∈ groupItems udp.groups,
    reflector.addressFamily.uses group = true
  destination : ∀ udp, reflector.udp = some udp →
    udp.groups ≠ none ∨ udp.broadcast = true
  broadcast : ∀ udp, reflector.udp = some udp → udp.broadcast = true →
    reflector.addressFamily.usesIpv4 = true
  protocol : reflector.wol.isSome = true ∨ reflector.mdns.isSome = true ∨
    reflector.ssdp.isSome = true ∨ reflector.wsd = true ∨
    reflector.udp.isSome = true
  macs : reflector.macs.isSome = true → reflector.wol.isSome = true ∨
    reflector.mdns.isSome = true ∨ reflector.ssdp.isSome = true ∨
    reflector.wsd = true
  dial : ∀ ssdp, reflector.ssdp = some ssdp → ssdp.dial = true →
    reflector.addressFamily.usesIpv4 = true
  alone : reflector.relayDuplicates = none

theorem checkPeers_ok_iff {raw : RawReflector} {name : ReflectorName} :
    checkPeers raw name = .ok () ↔
      ∀ peer ∈ peerItems raw.sourcePeers ++ peerItems raw.targetPeers,
        raw.addressFamily.uses peer = true := by
  unfold checkPeers peerOfUnusedFamily
  split
  · rename_i peer hfound
    have hunused := List.find?_some hfound
    have hmem := List.mem_of_find?_eq_some hfound
    simp only [reduceCtorEq, false_iff, not_forall]
    exact ⟨peer, hmem, by simpa using hunused⟩
  · rename_i hnone
    rw [List.find?_eq_none] at hnone
    simpa using hnone

theorem relayOf_ok {raw : RawReflector} {name : ReflectorName}
    {udp : UdpRelay} (h : relayOf raw name = .ok (some udp)) :
    (∀ group ∈ groupItems udp.groups, raw.addressFamily.uses group = true) ∧
      (udp.groups ≠ none ∨ udp.broadcast = true) ∧
      (udp.broadcast = true → raw.addressFamily.usesIpv4 = true) := by
  unfold relayOf at h
  split at h
  · cases h
  · cases h
  · cases h
  rename_i hsome
  rw [except_guard_ok] at h
  obtain ⟨hfamily, h⟩ := h
  split at h
  · cases h
  rename_i hgroups
  cases h
  refine ⟨?_, ?_, ?_⟩
  · simpa [List.find?_eq_none] using hgroups
  · cases hgroups : raw.udpGroups with
    | none => exact .inr (by simpa [hgroups] using hsome)
    | some groups => exact .inl (by simp)
  · intro hbroadcast
    simp only [Bool.and_eq_true, not_and, Bool.not_eq_true,
      Bool.not_eq_false'] at hfamily
    exact hfamily hbroadcast

theorem checkUnused_ok_iff {raw : RawReflector} {name : ReflectorName}
    {udp : Option UdpRelay} :
    checkUnused raw name udp = .ok () ↔
      (raw.wol = true ∨ raw.mdns = true ∨ raw.ssdp = true ∨ raw.wsd = true ∨
        udp.isSome = true) ∧
      (raw.wolPorts.isSome = true → raw.wol = true) ∧
      (raw.mdnsServices.isSome = true → raw.mdns = true) ∧
      (raw.macs.isSome = true → raw.wol = true ∨ raw.mdns = true ∨
        raw.ssdp = true ∨ raw.wsd = true) ∧
      (raw.dial = true → raw.ssdp = true) ∧
      (raw.ssdp = true → raw.dial = true →
        raw.addressFamily.usesIpv4 = true) := by
  simp only [checkUnused, except_guard_ok]
  cases raw.wol <;> cases raw.mdns <;> cases raw.ssdp <;> cases raw.wsd <;>
    cases udp <;> simp

theorem Reflector.tryFrom_valid {key : Text} {raw : RawReflector}
    {reflector : Reflector} (h : Reflector.tryFrom key raw = .ok reflector) :
    reflector.Valid := by
  obtain ⟨name, _, h⟩ := except_bind_ok h
  obtain ⟨_, hpeers, h⟩ := except_bind_ok h
  split at h
  · cases h
  obtain ⟨udp, hrelay, h⟩ := except_bind_ok h
  obtain ⟨_, hunused, h⟩ := except_bind_ok h
  simp only at h
  split at h
  · cases h
  rename_i hnone
  cases h
  obtain ⟨hprotocol, _, _, hmacs, _, hdial⟩ := checkUnused_ok_iff.mp hunused
  refine ⟨checkPeers_ok_iff.mp hpeers, ?_, ?_, ?_, ?_, ?_, ?_, hnone⟩
  · rintro udp rfl
    exact (relayOf_ok hrelay).1
  · rintro udp rfl
    exact (relayOf_ok hrelay).2.1
  · rintro udp rfl
    exact (relayOf_ok hrelay).2.2
  · simpa using hprotocol
  · simpa using hmacs
  · intro ssdp hssdp hset
    rw [Option.ite_none_right_eq_some] at hssdp
    obtain ⟨hraw, hssdp⟩ := hssdp
    cases hssdp
    exact hdial hraw hset

def Reflector.raw (reflector : Reflector) : RawReflector where
  name := some reflector.name
  sourceIf := reflector.sourceIf
  targetIf := reflector.targetIf
  sourcePeers := reflector.sourcePeers
  targetPeers := reflector.targetPeers
  macs := reflector.macs
  addressFamily := reflector.addressFamily
  wol := reflector.wol.isSome
  wolPorts := reflector.wol.map (·.ports)
  mdns := reflector.mdns.isSome
  mdnsServices := reflector.mdns.bind (·.services)
  ssdp := reflector.ssdp.isSome
  dial := reflector.ssdp.any (·.dial)
  wsd := reflector.wsd
  bidirectional := reflector.bidirectional
  udpPorts := reflector.udp.map (·.ports)
  udpGroups := reflector.udp.bind (·.groups)
  udpBroadcast := reflector.udp.any (·.broadcast)

theorem Reflector.Valid.relayOf {reflector : Reflector}
    (h : reflector.Valid) (name : ReflectorName) :
    relayOf reflector.raw name = .ok reflector.udp := by
  unfold Config.relayOf Reflector.raw
  cases hudp : reflector.udp with
  | none => rfl
  | some udp =>
      obtain ⟨ports, groups, broadcast⟩ := udp
      have hdestination := h.destination _ hudp
      have hfamily := h.broadcast _ hudp
      have hgroups : ((groupItems groups).find? fun group =>
          !reflector.addressFamily.uses group) = none := by
        simpa [List.find?_eq_none] using h.groups _ hudp
      cases groups with
      | none =>
          cases broadcast with
          | false => simp at hdestination
          | true => simp [hfamily rfl, hgroups]
      | some groups =>
          cases broadcast with
          | false => simp [hgroups]
          | true => simp [hfamily rfl, hgroups]

theorem Reflector.Valid.checkUnused {reflector : Reflector}
    (h : reflector.Valid) (name : ReflectorName) :
    checkUnused reflector.raw name reflector.udp = .ok () := by
  rw [checkUnused_ok_iff]
  refine ⟨h.protocol, ?_, ?_, h.macs, ?_, ?_⟩
  · simp [Reflector.raw]
  · cases hmdns : reflector.mdns <;> simp [Reflector.raw, hmdns]
  · cases hssdp : reflector.ssdp <;> simp [Reflector.raw, hssdp]
  · intro _ hdial
    obtain ⟨ssdp, hssdp, hset⟩ := (Option.any_eq_true _ _).mp hdial
    exact h.dial ssdp hssdp hset

theorem Reflector.Valid.tryFrom {reflector : Reflector}
    (h : reflector.Valid) (key : Text) :
    Reflector.tryFrom key reflector.raw = .ok reflector := by
  have hpeers : checkPeers reflector.raw reflector.name = .ok () :=
    checkPeers_ok_iff.mpr h.peers
  simp only [Reflector.tryFrom, Reflector.nameOf, bind, Except.bind]
  have hname : reflector.raw.name = some reflector.name := rfl
  simp only [hname, hpeers, h.relayOf, h.checkUnused]
  have hdistinct : reflector.raw.sourceIf ≠ reflector.raw.targetIf :=
    reflector.distinct
  rw [dif_neg hdistinct]
  have hself : (Reflector.mk reflector.name reflector.raw.sourceIf
      reflector.raw.targetIf reflector.raw.sourcePeers
      reflector.raw.targetPeers reflector.raw.macs reflector.raw.addressFamily
      (if reflector.raw.wol then
        some ⟨reflector.raw.wolPorts.getD Wol.defaultPorts⟩ else none)
      (if reflector.raw.mdns then some ⟨reflector.raw.mdnsServices⟩ else none)
      (if reflector.raw.ssdp then some ⟨reflector.raw.dial⟩ else none)
      reflector.raw.wsd reflector.raw.bidirectional reflector.udp
      hdistinct) = reflector := by
    obtain ⟨_, _, _, _, _, _, _, wol, mdns, ssdp, _, _, _, _⟩ := reflector
    cases wol <;> cases mdns <;> cases ssdp <;> rfl
  simp only [hself, h.alone]

theorem reflectorsFrom_valid {items : List (Text × RawReflector)}
    {reflectors : List Reflector} (h : reflectorsFrom items = .ok reflectors) :
    ∀ reflector ∈ reflectors, reflector.Valid := by
  induction items generalizing reflectors with
  | nil =>
      cases h
      simp
  | cons item items ih =>
      obtain ⟨first, hfirst, h⟩ := except_bind_ok h
      obtain ⟨rest, hrest, h⟩ := except_bind_ok h
      cases h
      exact List.forall_mem_cons.mpr
        ⟨Reflector.tryFrom_valid hfirst, ih hrest⟩

theorem Config.tryFrom_valid {raw : RawConfig} {config : Config}
    (h : Config.tryFrom raw = .ok config) :
    (∀ reflector ∈ config.reflectors, reflector.Valid) ∧
      checkConflicts config.reflectors = .ok () := by
  obtain ⟨reflectors, hreflectors, h⟩ := except_bind_ok h
  rw [except_guard_ok] at h
  obtain ⟨_, h⟩ := h
  obtain ⟨_, hcheck, h⟩ := except_bind_ok h
  obtain ⟨_, _, h⟩ := except_bind_ok h
  obtain ⟨_, _, h⟩ := except_bind_ok h
  cases h
  exact ⟨reflectorsFrom_valid hreflectors, hcheck⟩

/-- No entry of an accepted configuration relays what it also reflects, and no
two conflict. -/
structure Accepted (config : Config) : Prop where
  alone : ∀ reflector ∈ config.reflectors, reflector.relayDuplicates = none
  apart : config.reflectors.Pairwise fun first second =>
    first.name ≠ second.name ∧ first.conflictsWith second = none

theorem Config.tryFrom_ok {raw : RawConfig} {config : Config}
    (h : Config.tryFrom raw = .ok config) : Accepted config := by
  obtain ⟨hvalid, hcheck⟩ := Config.tryFrom_valid h
  exact ⟨fun reflector hmem => (hvalid reflector hmem).alone,
    checkConflicts_ok_iff.mp hcheck⟩

end Netflector.Config
