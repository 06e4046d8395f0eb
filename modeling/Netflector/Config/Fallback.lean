import Netflector.Config.Clash

/-!
# Without IPv6

On a host without IPv6 an entry on the default family becomes one of IPv4
alone and drops its IPv6 groups and peers.  It is not validated again.
-/

namespace Netflector.Config

open Netflector.Foundation
open Netflector.Net
open Netflector.Dispatch

def isIpv4 : IpAddr → Bool
  | .v4 _ => true
  | .v6 _ => false

def ipv4Part {rule : ListRule IpAddr} (list : UniqueList rule) :
    Except Panic (Option (UniqueList rule)) :=
  let v4 := list.items.filter isIpv4
  if v4 = [] then .ok none
  else
    match UniqueList.tryFrom rule v4 with
    | .ok part => .ok (some part)
    | .error _ => .error (.expect "a subset of a valid list")

def UdpRelay.fallBack (udp : UdpRelay) (name : ReflectorName) :
    Except (Stop ConfigError) UdpRelay :=
  match udp.groups with
  | none => .ok udp
  | some groups => do
      let part ← liftPanic (ipv4Part groups)
      if part.isNone && !udp.broadcast then fail (.ipv6OnlyRelay name)
      else .ok { udp with groups := part }

def fallBackRelay (name : ReflectorName) (udp : Option UdpRelay) :
    Except (Stop ConfigError) (Option UdpRelay) :=
  match udp with
  | none => .ok none
  | some udp => Except.map some (udp.fallBack name)

def fallBackPeers (name : ReflectorName) (field : String)
    (peers : Option PeerList) :
    Except (Stop ConfigError) (Option PeerList) :=
  match peers with
  | none => .ok none
  | some peers => do
      let part ← liftPanic (ipv4Part peers)
      if part.isNone then fail (.ipv6OnlyPeers name field) else .ok part

def Reflector.fallBackToIpv4 (reflector : Reflector) :
    Except (Stop ConfigError) Reflector :=
  if reflector.addressFamily ≠ .default then .ok reflector
  else do
    let udp ← fallBackRelay reflector.name reflector.udp
    let sourcePeers ← fallBackPeers reflector.name "source_peers"
      reflector.sourcePeers
    let targetPeers ← fallBackPeers reflector.name "target_peers"
      reflector.targetPeers
    .ok { reflector with
      addressFamily := .ipv4
      udp := udp
      sourcePeers := sourcePeers
      targetPeers := targetPeers }

def fallBackAll : List Reflector → Except (Stop ConfigError) (List Reflector)
  | [] => .ok []
  | reflector :: rest => do
      let reflector ← reflector.fallBackToIpv4
      let rest ← fallBackAll rest
      .ok (reflector :: rest)

def Config.fallBackToIpv4 (config : Config) :
    Except (Stop ConfigError) Config := do
  let reflectors ← fallBackAll config.reflectors
  .ok { config with reflectors := reflectors }

/-! ## What is left of an entry -/

theorem ipv4Part_ok {rule : ListRule IpAddr} (list : UniqueList rule) :
    ∃ part, ipv4Part list = .ok part ∧
      (part = none ↔ list.items.filter isIpv4 = []) ∧
      ∀ kept, part = some kept → kept.items = list.items.filter isIpv4 := by
  unfold ipv4Part
  by_cases hempty : list.items.filter isIpv4 = []
  · exact ⟨none, by simp [hempty], by simp [hempty], by simp⟩
  · obtain ⟨kept, hkept, hitems⟩ :=
      list.tryFrom_part List.filter_sublist hempty
    refine ⟨some kept, by simp [hempty, hkept], by simp [hempty], ?_⟩
    rintro _ ⟨⟩
    exact hitems

/-- The entry on IPv4: its IPv6 groups and peers are gone, and the rest is as
it was. -/
def Reflector.FellBack (before after : Reflector) : Prop :=
  ∃ sourcePeers targetPeers udp,
    after = { before with
      addressFamily := .ipv4
      sourcePeers := sourcePeers
      targetPeers := targetPeers
      udp := udp } ∧
    sourcePeers.map (·.items) =
      before.sourcePeers.map (·.items.filter isIpv4) ∧
    targetPeers.map (·.items) =
      before.targetPeers.map (·.items.filter isIpv4) ∧
    udp.map (fun udp => (udp.ports, groupItems udp.groups, udp.broadcast)) =
      before.udp.map fun udp =>
        (udp.ports, (groupItems udp.groups).filter isIpv4, udp.broadcast)

/-- Only an entry on the default family falls back. -/
def Reflector.Narrowed (before after : Reflector) : Prop :=
  (before.addressFamily = .default → before.FellBack after) ∧
    (before.addressFamily ≠ .default → after = before)

/-- An entry on the default family that would be left with an empty list of
peers or a relay without a destination. -/
def Reflector.Stranded (reflector : Reflector) : Prop :=
  reflector.addressFamily = .default ∧
    ((∃ peers : PeerList, (reflector.sourcePeers = some peers ∨
        reflector.targetPeers = some peers) ∧
        peers.items.filter isIpv4 = []) ∨
      ∃ udp, reflector.udp = some udp ∧
        (groupItems udp.groups).filter isIpv4 = [] ∧ udp.broadcast = false)

section Entry

variable {reflector : Reflector} {name : ReflectorName}

theorem fallBackPeers_cases (name : ReflectorName) (field : String)
    (peers : Option PeerList) :
    (∃ list : PeerList, peers = some list ∧
      list.items.filter isIpv4 = [] ∧
      fallBackPeers name field peers = fail (.ipv6OnlyPeers name field)) ∨
    (∀ list, peers = some list → list.items.filter isIpv4 ≠ []) ∧
      ∃ part, fallBackPeers name field peers = .ok part ∧
        part.map (·.items) = peers.map (·.items.filter isIpv4) := by
  cases peers with
  | none => exact .inr ⟨by simp, none, rfl, rfl⟩
  | some list =>
      obtain ⟨part, hpart, hnone, hitems⟩ := ipv4Part_ok list
      simp only [fallBackPeers, hpart, liftPanic_ok, bind, Except.bind]
      cases part with
      | none => exact .inl ⟨list, rfl, hnone.mp rfl, rfl⟩
      | some kept =>
          refine .inr ⟨?_, some kept, rfl, ?_⟩
          · rintro _ ⟨⟩ hempty
            cases hnone.mpr hempty
          · simp [hitems kept rfl]

theorem UdpRelay.fallBack_cases {udp : UdpRelay}
    (h : udp.groups ≠ none ∨ udp.broadcast = true) (name : ReflectorName) :
    ((groupItems udp.groups).filter isIpv4 = [] ∧ udp.broadcast = false ∧
      udp.fallBack name = fail (.ipv6OnlyRelay name)) ∨
    ¬ ((groupItems udp.groups).filter isIpv4 = [] ∧ udp.broadcast = false) ∧
      ∃ kept, udp.fallBack name = .ok kept ∧ kept.ports = udp.ports ∧
        groupItems kept.groups = (groupItems udp.groups).filter isIpv4 ∧
        kept.broadcast = udp.broadcast := by
  unfold UdpRelay.fallBack
  cases hgroups : udp.groups with
  | none =>
      rcases h with hsome | hbroadcast
      · exact absurd hgroups hsome
      · exact .inr ⟨by simp [hbroadcast], udp, rfl, rfl,
          by simp [hgroups, groupItems], rfl⟩
  | some groups =>
      obtain ⟨part, hpart, hnone, hitems⟩ := ipv4Part_ok groups
      simp only [hpart, liftPanic_ok, bind, Except.bind, groupItems]
      cases part with
      | none =>
          have hempty := hnone.mp rfl
          cases hbroadcast : udp.broadcast with
          | false => exact .inl ⟨hempty, rfl, rfl⟩
          | true =>
              exact .inr ⟨by simp, { udp with groups := none },
                by simp [hbroadcast], rfl, hempty.symm,
                hbroadcast⟩
      | some kept =>
          refine .inr ⟨fun hempty => ?_, { udp with groups := some kept },
            by simp, rfl, hitems kept rfl, rfl⟩
          cases hnone.mpr hempty.1

theorem fallBackRelay_cases (h : reflector.Valid) :
    (∃ udp, reflector.udp = some udp ∧
      (groupItems udp.groups).filter isIpv4 = [] ∧ udp.broadcast = false ∧
      fallBackRelay reflector.name reflector.udp =
        fail (.ipv6OnlyRelay reflector.name)) ∨
    (∀ udp, reflector.udp = some udp →
      ¬ ((groupItems udp.groups).filter isIpv4 = [] ∧
        udp.broadcast = false)) ∧
    ∃ relay, fallBackRelay reflector.name reflector.udp = .ok relay ∧
      relay.map (fun udp =>
        (udp.ports, groupItems udp.groups, udp.broadcast)) =
        reflector.udp.map fun udp =>
          (udp.ports, (groupItems udp.groups).filter isIpv4,
            udp.broadcast) := by
  cases hudp : reflector.udp with
  | none => exact .inr ⟨by simp, none, rfl, rfl⟩
  | some udp =>
      rcases UdpRelay.fallBack_cases (h.destination udp hudp)
        reflector.name with ⟨hempty, hbroadcast, hfail⟩ |
        ⟨hleft, kept, hkept, hports, hgroups, hbroadcast⟩
      · refine .inl ⟨udp, rfl, hempty, hbroadcast, ?_⟩
        simp only [fallBackRelay, hfail]
        rfl
      · refine .inr ⟨?_, some kept, ?_, ?_⟩
        · rintro _ ⟨⟩
          exact hleft
        · simp [fallBackRelay, hkept, Except.map]
        · simp [hports, hgroups, hbroadcast]

theorem Reflector.fallBack_cases (h : reflector.Valid) :
    (reflector.Stranded ∧ ∃ error, reflector.fallBackToIpv4 = fail error) ∨
    ¬ reflector.Stranded ∧ ∃ after, reflector.fallBackToIpv4 = .ok after ∧
      reflector.Narrowed after := by
  unfold Reflector.fallBackToIpv4
  by_cases hdefault : reflector.addressFamily = .default
  swap
  · exact .inr ⟨fun hstranded => hdefault hstranded.1, reflector,
      by simp [hdefault], fun hfamily => absurd hfamily hdefault,
      fun _ => rfl⟩
  rw [if_neg (not_not_intro hdefault)]
  rcases fallBackRelay_cases h with ⟨udp, hudp, hempty, hbroadcast, hfail⟩ |
    ⟨hleft, relay, hrelay, hgroups⟩
  · refine .inl ⟨⟨hdefault, .inr ⟨udp, hudp, hempty, hbroadcast⟩⟩,
      .ipv6OnlyRelay reflector.name, ?_⟩
    rw [hfail]
    rfl
  rw [hrelay]
  rcases fallBackPeers_cases reflector.name "source_peers"
    reflector.sourcePeers with ⟨list, hlist, hempty, hfail⟩ |
    ⟨hsource, sourcePeers, hsourceOk, hsourceItems⟩
  · refine .inl ⟨⟨hdefault, .inl ⟨list, .inl hlist, hempty⟩⟩,
      .ipv6OnlyPeers reflector.name "source_peers", ?_⟩
    rw [hfail]
    rfl
  rcases fallBackPeers_cases reflector.name "target_peers"
    reflector.targetPeers with ⟨list, hlist, hempty, hfail⟩ |
    ⟨htarget, targetPeers, htargetOk, htargetItems⟩
  · refine .inl ⟨⟨hdefault, .inl ⟨list, .inr hlist, hempty⟩⟩,
      .ipv6OnlyPeers reflector.name "target_peers", ?_⟩
    rw [hsourceOk, hfail]
    rfl
  refine .inr ⟨?_, { reflector with
      addressFamily := .ipv4
      sourcePeers := sourcePeers
      targetPeers := targetPeers
      udp := relay }, ?_, fun _ => ⟨sourcePeers, targetPeers, relay, rfl,
        hsourceItems, htargetItems, hgroups⟩, absurd hdefault⟩
  · rintro ⟨_, ⟨list, hlist | hlist, hempty⟩ | ⟨udp, hudp, hempty⟩⟩
    · exact hsource list hlist hempty
    · exact htarget list hlist hempty
    · exact hleft udp hudp hempty
  · rw [hsourceOk, htargetOk]
    rfl

end Entry

/-! ## A narrowed entry reflects less -/

section Narrowing

variable {before after : Reflector}

theorem ipv4_uses {addr : IpAddr} (h : AddressFamily.ipv4.uses addr = true) :
    AddressFamily.default.uses addr = true := by
  cases addr <;> rfl

theorem uses_of_isIpv4 {addr : IpAddr} (h : isIpv4 addr = true) :
    AddressFamily.ipv4.uses addr = true := by
  cases addr with
  | v4 addr => rfl
  | v6 addr => cases h

theorem relay_before {before after : Option UdpRelay}
    (h : after.map (fun udp =>
      (udp.ports, groupItems udp.groups, udp.broadcast)) =
      before.map fun udp =>
        (udp.ports, (groupItems udp.groups).filter isIpv4, udp.broadcast))
    {udp : UdpRelay} (hudp : after = some udp) :
    ∃ wide, before = some wide ∧ udp.ports = wide.ports ∧
      groupItems udp.groups = (groupItems wide.groups).filter isIpv4 ∧
      udp.broadcast = wide.broadcast := by
  subst hudp
  obtain ⟨wide, hwide, heq⟩ := Option.map_eq_some_iff.mp h.symm
  simp only [Prod.mk.injEq] at heq
  exact ⟨wide, hwide, heq.1.symm, heq.2.1.symm, heq.2.2.symm⟩

theorem destinations_before {udp wide : UdpRelay}
    (hports : udp.ports = wide.ports)
    (hgroups : groupItems udp.groups =
      (groupItems wide.groups).filter isIpv4)
    (hbroadcast : udp.broadcast = wide.broadcast) :
    ∀ destination ∈ udp.destinations, destination ∈ wide.destinations := by
  intro destination hmem
  obtain ⟨port, hport, hmem⟩ := List.mem_flatMap.mp hmem
  rw [hports] at hport
  refine List.mem_flatMap.mpr ⟨port, hport, ?_⟩
  rw [hgroups, hbroadcast] at hmem
  rcases List.mem_append.mp hmem with hgroup | hrest
  · obtain ⟨group, hkept, rfl⟩ := List.mem_map.mp hgroup
    exact List.mem_append_left _ (List.mem_map_of_mem
      (List.mem_filter.mp hkept).1)
  · exact List.mem_append_right _ hrest

theorem discovery_before (hfamily : before.addressFamily = .default)
    (hsource : after.sourceIf = before.sourceIf)
    (htarget : after.targetIf = before.targetIf)
    (hafter : after.addressFamily = .ipv4) (protocol : Protocol)
    (port : UInt16) (groups : List IpAddr) :
    ∀ flow ∈ after.discovery protocol port groups,
      flow ∈ before.discovery protocol port groups := by
  intro flow hmem
  obtain ⟨group, hgroup, hmem⟩ := List.mem_flatMap.mp hmem
  rw [List.mem_filter, hafter] at hgroup
  rw [hsource, htarget] at hmem
  refine List.mem_flatMap.mpr ⟨group, ?_, hmem⟩
  rw [List.mem_filter, hfamily]
  exact ⟨hgroup.1, ipv4_uses hgroup.2⟩

theorem Reflector.FellBack.flow (h : before.FellBack after)
    (hfamily : before.addressFamily = .default) {flow : Flow}
    (hflow : flow ∈ after.flows) :
    ∃ wide ∈ before.flows, wide.protocol = flow.protocol ∧
      ∀ datagram, flow.contains datagram → wide.contains datagram := by
  obtain ⟨sourcePeers, targetPeers, udp, rfl, _, _, hudp⟩ := h
  simp only [Reflector.flows, List.mem_append, List.mem_flatMap] at hflow ⊢
  rcases hflow with ((hmdns | hssdp) | hwsd) | ⟨leg, hleg, hdirected⟩
  · obtain ⟨hsome, hmem⟩ := List.mem_ite_nil_right.mp hmdns
    exact ⟨flow, .inl (.inl (.inl (List.mem_ite_nil_right.mpr
      ⟨hsome, discovery_before hfamily (by rfl) (by rfl) (by rfl) _ _ _ flow
        hmem⟩))), rfl, fun _ => id⟩
  · obtain ⟨hsome, hmem⟩ := List.mem_ite_nil_right.mp hssdp
    exact ⟨flow, .inl (.inl (.inr (List.mem_ite_nil_right.mpr
      ⟨hsome, discovery_before hfamily (by rfl) (by rfl) (by rfl) _ _ _ flow
        hmem⟩))), rfl, fun _ => id⟩
  · obtain ⟨hsome, hmem⟩ := List.mem_ite_nil_right.mp hwsd
    exact ⟨flow, .inl (.inr (List.mem_ite_nil_right.mpr
      ⟨hsome, discovery_before hfamily (by rfl) (by rfl) (by rfl) _ _ _ flow
        hmem⟩)), rfl, fun _ => id⟩
  · rcases List.mem_append.mp hdirected with hwol | hrelay
    · cases hsome : before.wol with
      | none =>
          simp only [hsome] at hwol
          cases hwol
      | some wol =>
          simp only [hsome] at hwol
          obtain ⟨port, hport, rfl⟩ := List.mem_map.mp hwol
          refine ⟨⟨.wol, leg.1, leg.2, port.get, .any before.addressFamily⟩,
            .inr ⟨leg, hleg, ?_⟩, rfl, ?_⟩
          · refine List.mem_append_left _ ?_
            simp only [hsome]
            exact List.mem_map_of_mem hport
          · rintro datagram ⟨hingress, hegress, hdport, hreach⟩
            refine ⟨hingress, hegress, hdport, ?_⟩
            rw [hfamily]
            cases hdestination : datagram.destination with
            | address addr =>
                rw [hdestination] at hreach
                exact ipv4_uses hreach
            | broadcast => rfl
    · cases hsome : udp with
      | none =>
          simp only [hsome] at hrelay
          cases hrelay
      | some relay =>
          obtain ⟨wide, hbefore, hports, hgroups, hbroadcast⟩ :=
            relay_before hudp hsome
          simp only [hsome] at hrelay
          obtain ⟨destination, hmem, rfl⟩ := List.mem_map.mp hrelay
          refine ⟨_, .inr ⟨leg, hleg, List.mem_append_right _ ?_⟩, rfl,
            fun _ => id⟩
          simp only [hbefore]
          exact List.mem_map_of_mem
            (destinations_before hports hgroups hbroadcast _ hmem)

theorem Reflector.Narrowed.flow (h : before.Narrowed after) {flow : Flow}
    (hflow : flow ∈ after.flows) :
    ∃ wide ∈ before.flows, wide.protocol = flow.protocol ∧
      ∀ datagram, flow.contains datagram → wide.contains datagram := by
  by_cases hfamily : before.addressFamily = .default
  · exact (h.1 hfamily).flow hfamily hflow
  · rw [h.2 hfamily] at hflow
    exact ⟨flow, hflow, rfl, fun _ => id⟩

theorem Reflector.Narrowed.reflects (h : before.Narrowed after)
    {datagram : Transit} (hreflects : after.Reflects datagram) :
    before.Reflects datagram := by
  obtain ⟨flow, hflow, hin⟩ := hreflects
  obtain ⟨wide, hwide, _, hcontains⟩ := h.flow hflow
  exact ⟨wide, hwide, hcontains datagram hin⟩

theorem Reflector.Narrowed.relays (h : before.Narrowed after)
    {datagram : Transit} (hrelays : after.Relays datagram) :
    before.Relays datagram := by
  obtain ⟨flow, hflow, hudp, hin⟩ := hrelays
  obtain ⟨wide, hwide, hprotocol, hcontains⟩ := h.flow hflow
  exact ⟨wide, hwide, hprotocol.trans hudp, hcontains datagram hin⟩

theorem Reflector.Narrowed.rest (h : before.Narrowed after) :
    after.name = before.name ∧ after.directions = before.directions ∧
      after.macs = before.macs ∧ after.wol = before.wol ∧
      after.mdns = before.mdns ∧ after.ssdp = before.ssdp ∧
      after.wsd = before.wsd := by
  by_cases hfamily : before.addressFamily = .default
  · obtain ⟨sourcePeers, targetPeers, udp, rfl, _⟩ := h.1 hfamily
    exact ⟨rfl, rfl, rfl, rfl, rfl, rfl, rfl⟩
  · rw [h.2 hfamily]
    exact ⟨rfl, rfl, rfl, rfl, rfl, rfl, rfl⟩

theorem Reflector.Narrowed.uses (h : before.Narrowed after) {addr : IpAddr}
    (huses : after.addressFamily.uses addr = true) :
    before.addressFamily.uses addr = true := by
  by_cases hfamily : before.addressFamily = .default
  · obtain ⟨sourcePeers, targetPeers, udp, rfl, _⟩ := h.1 hfamily
    rw [hfamily]
    exact ipv4_uses huses
  · rwa [h.2 hfamily] at huses

variable {other later : Reflector}

theorem Reflector.Narrowed.shares (h : before.Narrowed after)
    (h' : other.Narrowed later) (hshares : after.Shares later) :
    before.Shares other := by
  obtain ⟨_, hlegs, hmacs, hwol, hmdns, hssdp, hwsd⟩ := h.rest
  obtain ⟨_, hlegs', hmacs', hwol', hmdns', hssdp', hwsd'⟩ := h'.rest
  obtain ⟨hleg, ⟨protocol, hprotocol⟩, ⟨mac, hmac, hmac'⟩, addr, huses,
    huses'⟩ := hshares
  rw [hlegs, hlegs'] at hleg
  refine ⟨hleg, ⟨protocol, ?_⟩, ⟨mac, ?_, ?_⟩, addr, h.uses huses,
    h'.uses huses'⟩
  · cases protocol with
    | wol => simpa only [ShareProtocol, hwol, hwol'] using hprotocol
    | mdns => simpa only [ShareProtocol, hmdns, hmdns'] using hprotocol
    | ssdp => simpa only [ShareProtocol, hssdp, hssdp'] using hprotocol
    | wsd => simpa only [ShareProtocol, hwsd, hwsd'] using hprotocol
    | udp => exact hprotocol
  · rwa [Admits, hmacs] at hmac
  · rwa [Admits, hmacs'] at hmac'

theorem Reflector.Narrowed.clashes (h : before.Narrowed after)
    (h' : other.Narrowed later) (hclashes : after.Clashes later) :
    before.Clashes other := by
  cases hclashes with
  | name heq => exact .name (h.rest.1.symm.trans (heq.trans h'.rest.1))
  | shares hshares => exact .shares (h.shares h' hshares)
  | relayed datagram hfirst hsecond =>
      exact .relayed datagram (h.relays hfirst) (h'.reflects hsecond)
  | relaying datagram hfirst hsecond =>
      exact .relaying datagram (h.reflects hfirst) (h'.relays hsecond)

theorem narrowed_apart {reflectors kept : List Reflector}
    (h : List.Forall₂ Reflector.Narrowed reflectors kept)
    (hapart : reflectors.Pairwise fun first second =>
      ¬ first.Clashes second) :
    kept.Pairwise fun first second => ¬ first.Clashes second := by
  induction h with
  | nil => exact .nil
  | @cons first narrowed reflectors kept hfirst hrest ih =>
      obtain ⟨happart, hrests⟩ := List.pairwise_cons.mp hapart
      refine .cons ?_ (ih hrests)
      intro second hsecond hclashes
      obtain ⟨i, hi, rfl⟩ := List.getElem_of_mem hsecond
      have hlength := hrest.length_eq
      refine happart (reflectors[i]) (List.getElem_mem _) ?_
      exact hfirst.clashes (hrest.get (by omega) hi) hclashes

/-- The edits leave an entry that its validation would accept. -/
theorem Reflector.Narrowed.valid (h : before.Narrowed after)
    (hvalid : before.Valid) (hleft : ¬ before.Stranded) : after.Valid := by
  by_cases hfamily : before.addressFamily = .default
  swap
  · rwa [h.2 hfamily]
  have halone : after.relayDuplicates = none := by
    by_contra hsome
    rw [relayDuplicates, Option.map_eq_none_iff, ← ne_eq,
      ← Option.isSome_iff_ne_none, relayOverlap_iff] at hsome
    obtain ⟨datagram, hrelays, flow, hflow, hin⟩ := hsome
    rw [List.mem_filter] at hflow
    obtain ⟨wide, hwide, hprotocol, hcontains⟩ := h.flow hflow.1
    have hdouble : (before.relayOverlap (before.flows.filter fun flow =>
        flow.protocol ≠ .udp)).isSome = true := by
      rw [relayOverlap_iff]
      refine ⟨datagram, h.relays hrelays, wide, ?_, hcontains _ hin⟩
      rw [List.mem_filter, hprotocol]
      exact ⟨hwide, hflow.2⟩
    have hnone := hvalid.alone
    rw [relayDuplicates, Option.map_eq_none_iff] at hnone
    rw [hnone] at hdouble
    cases hdouble
  obtain ⟨sourcePeers, targetPeers, udp, rfl, hsource, htarget, hudp⟩ :=
    h.1 hfamily
  have hkept : ∀ {peers kept : Option PeerList},
      kept.map (·.items) = peers.map (·.items.filter isIpv4) →
      ∀ peer ∈ peerItems kept, isIpv4 peer = true := by
    intro peers kept hitems peer hmem
    cases kept with
    | none => cases hmem
    | some kept =>
        obtain ⟨wide, _, heq⟩ := Option.map_eq_some_iff.mp hitems.symm
        change peer ∈ kept.items at hmem
        have hpart : kept.items = wide.items.filter isIpv4 := heq.symm
        rw [hpart] at hmem
        exact (List.mem_filter.mp hmem).2
  have hsome : udp.isSome = before.udp.isSome := by
    simpa using congrArg Option.isSome hudp
  refine ⟨?_, ?_, ?_, fun _ _ _ => rfl, ?_, hvalid.macs, fun _ _ _ => rfl,
    halone⟩
  · intro peer hmem
    rcases List.mem_append.mp hmem with hmem | hmem
    · exact uses_of_isIpv4 (hkept hsource peer hmem)
    · exact uses_of_isIpv4 (hkept htarget peer hmem)
  · intro relay hrelay group hmem
    obtain ⟨wide, _, _, hgroups, _⟩ := relay_before hudp hrelay
    rw [hgroups] at hmem
    exact uses_of_isIpv4 (List.mem_filter.mp hmem).2
  · intro relay hrelay
    obtain ⟨wide, hwide, _, hgroups, hbroadcast⟩ := relay_before hudp hrelay
    by_contra hnowhere
    rw [not_or, not_not, Bool.not_eq_true] at hnowhere
    rw [hnowhere.1, groupItems] at hgroups
    rw [hnowhere.2] at hbroadcast
    exact hleft ⟨hfamily, .inr ⟨wide, hwide, hgroups.symm,
      hbroadcast.symm⟩⟩
  · simpa [hsome] using hvalid.protocol

end Narrowing

/-! ## The whole configuration -/

theorem fallBackAll_cases {reflectors : List Reflector}
    (h : ∀ reflector ∈ reflectors, reflector.Valid) :
    ((∃ reflector ∈ reflectors, reflector.Stranded) ∧
      ∃ error, fallBackAll reflectors = fail error) ∨
    (∀ reflector ∈ reflectors, ¬ reflector.Stranded) ∧
      ∃ kept, fallBackAll reflectors = .ok kept ∧
        List.Forall₂ Reflector.Narrowed reflectors kept := by
  induction reflectors with
  | nil => exact .inr ⟨by simp, [], rfl, .nil⟩
  | cons reflector reflectors ih =>
      rw [List.forall_mem_cons] at h
      rcases Reflector.fallBack_cases h.1 with ⟨hstranded, error, hfail⟩ |
        ⟨hleft, after, hafter, hnarrowed⟩
      · refine .inl ⟨⟨reflector, List.mem_cons_self, hstranded⟩, error, ?_⟩
        rw [fallBackAll, hfail]
        rfl
      rcases ih h.2 with ⟨⟨stranded, hmem, hstranded⟩, error, hfail⟩ |
        ⟨hrest, kept, hkept, hall⟩
      · refine .inl ⟨⟨stranded, List.mem_cons_of_mem _ hmem, hstranded⟩,
          error, ?_⟩
        rw [fallBackAll, hafter, hfail]
        rfl
      · refine .inr ⟨List.forall_mem_cons.mpr ⟨hleft, hrest⟩, after :: kept,
          ?_, .cons hnarrowed hall⟩
        rw [fallBackAll, hafter, hkept]
        rfl

theorem fallBackAll_settled {reflectors : List Reflector}
    (h : ∀ reflector ∈ reflectors, reflector.addressFamily ≠ .default) :
    fallBackAll reflectors = .ok reflectors := by
  induction reflectors with
  | nil => rfl
  | cons reflector reflectors ih =>
      rw [List.forall_mem_cons] at h
      rw [fallBackAll, Reflector.fallBackToIpv4, if_pos h.1, ih h.2]
      rfl

theorem fallBack_keeps {raw : RawConfig} {config : Config}
    (h : Config.tryFrom raw = .ok config) :
    (∀ panic, config.fallBackToIpv4 ≠ .error (.panic panic)) ∧
    ((∃ error, config.fallBackToIpv4 = fail error) ↔
      ∃ reflector ∈ config.reflectors, reflector.Stranded) ∧
    ∀ after, config.fallBackToIpv4 = .ok after →
      (∀ reflector ∈ after.reflectors, ∀ key,
        Reflector.tryFrom key reflector.raw = .ok reflector) ∧
      checkConflicts after.reflectors = .ok () ∧
      List.Forall₂ Reflector.Narrowed config.reflectors after.reflectors ∧
      after = { config with reflectors := after.reflectors } ∧
      after.fallBackToIpv4 = .ok after := by
  obtain ⟨hvalid, hapart⟩ := Config.tryFrom_valid h
  rcases fallBackAll_cases hvalid with ⟨hstranded, error, hfail⟩ |
    ⟨hleft, kept, hkept, hall⟩
  · have hresult : config.fallBackToIpv4 = fail error := by
      rw [Config.fallBackToIpv4, hfail]
      rfl
    rw [hresult]
    exact ⟨by simp [fail], ⟨fun _ => hstranded, fun _ => ⟨error, rfl⟩⟩,
      by simp [fail]⟩
  have hresult : config.fallBackToIpv4 =
      .ok { config with reflectors := kept } := by
    rw [Config.fallBackToIpv4, hkept]
    rfl
  rw [hresult]
  refine ⟨by simp, ?_, ?_⟩
  · constructor
    · rintro ⟨error, herror⟩
      cases herror
    · rintro ⟨reflector, hmem, hstranded⟩
      exact absurd hstranded (hleft reflector hmem)
  rintro _ ⟨⟩
  -- Every entry that is kept comes from one of the same place.
  have hfrom : ∀ after ∈ kept, ∃ before ∈ config.reflectors,
      before.Narrowed after := by
    intro after hmem
    obtain ⟨i, hi, rfl⟩ := List.getElem_of_mem hmem
    have hlength := hall.length_eq
    exact ⟨config.reflectors[i], List.getElem_mem _,
      hall.get (by omega) hi⟩
  refine ⟨?_, ?_, hall, rfl, ?_⟩
  · intro after hmem key
    obtain ⟨before, hbefore, hnarrowed⟩ := hfrom after hmem
    exact (hnarrowed.valid (hvalid before hbefore)
      (hleft before hbefore)).tryFrom key
  · exact checkConflicts_iff.mpr
      (narrowed_apart hall (checkConflicts_iff.mp hapart))
  · have hsettled : fallBackAll kept = .ok kept := by
      refine fallBackAll_settled ?_
      intro after hmem hdefault
      obtain ⟨before, _, hnarrowed⟩ := hfrom after hmem
      by_cases hfamily : before.addressFamily = .default
      · obtain ⟨_, _, _, rfl, _⟩ := hnarrowed.1 hfamily
        cases hdefault
      · rw [hnarrowed.2 hfamily] at hdefault
        exact hfamily hdefault
    rw [Config.fallBackToIpv4, hsettled]
    rfl

def bothGroups : GroupList where
  items := [.v4 (.new 239 1 2 3), .v6 Wsd.wsdGroupV6]
  nonempty := by simp
  nodup := by decide
  admitted := by decide

def bothPeers : PeerList where
  items := [.v6 (.ofEnds 0xfd00 9), .v4 (.new 10 0 1 9)]
  nonempty := by simp
  nodup := by decide
  admitted := by decide

def ipv4Peers : PeerList where
  items := [.v4 (.new 10 0 1 9)]
  nonempty := List.cons_ne_nil _ _
  nodup := List.nodup_singleton _
  admitted := by decide

def bothRaw : RawConfig :=
  ⟨none, none, none, (SortedMap.single ['b'] { RawReflector.between
      [0x62] [0x63] with
    mdns := true
    targetPeers := some bothPeers
    bidirectional := true }).insert ['a'] { RawReflector.between
      [0x61] [0x62] with
    sourcePeers := some bothPeers
    targetPeers := some ipv4Peers
    udpPorts := some Wol.defaultPorts
    udpGroups := some bothGroups }⟩

theorem bothNames_distinct : ([0x61] : Bytes) ≠ [0x62] := by decide

theorem nextNames_distinct : ([0x62] : Bytes) ≠ [0x63] := by decide

def bothConfig : Config :=
  ⟨none, none, none, [{
    name := ⟨['a']⟩
    sourceIf := [0x61]
    targetIf := [0x62]
    sourcePeers := some bothPeers
    targetPeers := some ipv4Peers
    macs := none
    addressFamily := .default
    wol := none
    mdns := none
    ssdp := none
    wsd := false
    bidirectional := false
    udp := some ⟨Wol.defaultPorts, some bothGroups, false⟩
    distinct := bothNames_distinct }, {
    name := ⟨['b']⟩
    sourceIf := [0x62]
    targetIf := [0x63]
    sourcePeers := none
    targetPeers := some bothPeers
    macs := none
    addressFamily := .default
    wol := none
    mdns := some ⟨none⟩
    ssdp := none
    wsd := false
    bidirectional := true
    udp := none
    distinct := nextNames_distinct }]⟩

def peersOf (config : Config) : List (Option (List IpAddr)) :=
  config.reflectors.flatMap fun reflector =>
    [reflector.sourcePeers.map (·.items), reflector.targetPeers.map (·.items)]

theorem bothConfig_falls_back :
    Config.tryFrom bothRaw = .ok bothConfig ∧
      ∃ after, bothConfig.fallBackToIpv4 = .ok after ∧
        peersOf after = [some ipv4Peers.items, some ipv4Peers.items, none,
          some ipv4Peers.items] ∧
        (∀ reflector ∈ after.reflectors, ∀ key,
          Reflector.tryFrom key reflector.raw = .ok reflector) ∧
        checkConflicts after.reflectors = .ok () ∧
        List.Forall₂ Reflector.Narrowed bothConfig.reflectors
          after.reflectors ∧
        after.fallBackToIpv4 = .ok after := by
  have haccepted : Config.tryFrom bothRaw = .ok bothConfig := rfl
  obtain ⟨_, _, hkeeps⟩ := fallBack_keeps haccepted
  obtain ⟨after, hafter, hpeers⟩ : ∃ after,
      bothConfig.fallBackToIpv4 = .ok after ∧
        peersOf after = [some ipv4Peers.items, some ipv4Peers.items, none,
          some ipv4Peers.items] :=
    ⟨_, rfl, rfl⟩
  obtain ⟨hvalid, hapart, hnarrowed, _, hagain⟩ := hkeeps after hafter
  exact ⟨haccepted, after, hafter, hpeers, hvalid, hapart, hnarrowed, hagain⟩

end Netflector.Config
