import Netflector.Config.Validation

/-!
# When entries clash

What the check of the conflicts refuses, said of sets of datagrams: a leg, a
port and a destination.  It does not depend on the order of the entries.
-/

namespace Netflector.Config

open Netflector.Net
open Netflector.Dispatch

/-! ## Destinations -/

/-- Where a datagram goes: to an address, or to the IPv4 broadcasts, which are
told apart on no segment. -/
inductive Destination where
  | address (addr : IpAddr)
  | broadcast
  deriving DecidableEq

def Reach.contains : Reach → Destination → Prop
  | .any family, .address addr => family.uses addr = true
  | .any family, .broadcast => family.usesIpv4 = true
  | .group listed, .address addr => addr = listed
  | .group _, .broadcast => False
  | .broadcast, .address _ => False
  | .broadcast, .broadcast => True

theorem familiesOverlap_iff {first second : AddressFamily} :
    familiesOverlap first second = true ↔
      ∃ addr, first.uses addr = true ∧ second.uses addr = true := by
  constructor
  · intro h
    simp only [familiesOverlap, Bool.or_eq_true, Bool.and_eq_true] at h
    rcases h with ⟨hfirst, hsecond⟩ | ⟨hfirst, hsecond⟩
    · exact ⟨.v4 Mdns.mdnsGroupV4, hfirst, hsecond⟩
    · exact ⟨.v6 Mdns.mdnsGroupV6, hfirst, hsecond⟩
  · rintro ⟨addr, hfirst, hsecond⟩
    simp only [familiesOverlap, Bool.or_eq_true, Bool.and_eq_true]
    cases addr with
    | v4 addr => exact .inl ⟨hfirst, hsecond⟩
    | v6 addr => exact .inr ⟨hfirst, hsecond⟩

theorem Reach.overlaps_iff {first second : Reach} :
    first.overlaps second = true ↔
      ∃ destination, first.contains destination ∧
        second.contains destination := by
  -- The table has a common destination exactly where it says so.
  cases first with
  | any family =>
      cases second with
      | any other =>
          rw [Reach.overlaps, familiesOverlap_iff]
          constructor
          · rintro ⟨addr, huses, huses'⟩
            exact ⟨.address addr, huses, huses'⟩
          · rintro ⟨destination, hfirst, hsecond⟩
            cases destination with
            | address addr => exact ⟨addr, hfirst, hsecond⟩
            | broadcast => exact ⟨.v4 Mdns.mdnsGroupV4, hfirst, hsecond⟩
      | group listed =>
          constructor
          · intro h
            exact ⟨.address listed, h, rfl⟩
          · rintro ⟨destination, hfirst, hsecond⟩
            cases destination with
            | address addr =>
                cases hsecond
                exact hfirst
            | broadcast => cases hsecond
      | broadcast =>
          constructor
          · intro h
            exact ⟨.broadcast, h, trivial⟩
          · rintro ⟨destination, hfirst, hsecond⟩
            cases destination with
            | address addr => cases hsecond
            | broadcast => exact hfirst
  | group listed =>
      cases second with
      | any family =>
          constructor
          · intro h
            exact ⟨.address listed, rfl, h⟩
          · rintro ⟨destination, hfirst, hsecond⟩
            cases destination with
            | address addr =>
                cases hfirst
                exact hsecond
            | broadcast => cases hfirst
      | group other =>
          constructor
          · intro h
            have hsame : listed = other := of_decide_eq_true h
            exact ⟨.address listed, rfl, hsame⟩
          · rintro ⟨destination, hfirst, hsecond⟩
            cases destination with
            | address addr =>
                cases hfirst
                exact decide_eq_true hsecond
            | broadcast => cases hfirst
      | broadcast =>
          constructor
          · rintro ⟨⟩
          · rintro ⟨destination, hfirst, hsecond⟩
            cases destination with
            | address addr => cases hsecond
            | broadcast => cases hfirst
  | broadcast =>
      cases second with
      | any family =>
          constructor
          · intro h
            exact ⟨.broadcast, trivial, h⟩
          · rintro ⟨destination, hfirst, hsecond⟩
            cases destination with
            | address addr => cases hfirst
            | broadcast => exact hsecond
      | group listed =>
          constructor
          · rintro ⟨⟩
          · rintro ⟨destination, hfirst, hsecond⟩
            cases destination with
            | address addr => cases hfirst
            | broadcast => cases hsecond
      | broadcast =>
          exact ⟨fun _ => ⟨.broadcast, trivial, trivial⟩, fun _ => rfl⟩

/-! ## Datagrams in the flows -/

structure Transit where
  ingress : InterfaceName
  egress : InterfaceName
  port : UInt16
  destination : Destination

def Flow.contains (flow : Flow) (datagram : Transit) : Prop :=
  flow.ingress = datagram.ingress ∧ flow.egress = datagram.egress ∧
    flow.port = datagram.port ∧ flow.reach.contains datagram.destination

theorem Flow.overlaps_iff {first second : Flow} :
    first.overlaps second = true ↔
      ∃ datagram, first.contains datagram ∧ second.contains datagram := by
  simp only [Flow.overlaps, Bool.and_eq_true, decide_eq_true_eq,
    Reach.overlaps_iff]
  constructor
  · rintro ⟨⟨⟨hingress, hegress⟩, hport⟩, destination, hfirst, hsecond⟩
    exact ⟨⟨first.ingress, first.egress, first.port, destination⟩,
      ⟨rfl, rfl, rfl, hfirst⟩,
      ⟨hingress.symm, hegress.symm, hport.symm, hsecond⟩⟩
  · rintro ⟨datagram, ⟨hingress, hegress, hport, hfirst⟩,
      ⟨hingress', hegress', hport', hsecond⟩⟩
    exact ⟨⟨⟨hingress.trans hingress'.symm, hegress.trans hegress'.symm⟩,
      hport.trans hport'.symm⟩, datagram.destination, hfirst, hsecond⟩

namespace Reflector

def Reflects (reflector : Reflector) (datagram : Transit) : Prop :=
  ∃ flow ∈ reflector.flows, flow.contains datagram

def Relays (reflector : Reflector) (datagram : Transit) : Prop :=
  ∃ flow ∈ reflector.flows, flow.protocol = .udp ∧ flow.contains datagram

theorem relayOverlap_iff {reflector : Reflector} {others : List Flow} :
    (reflector.relayOverlap others).isSome = true ↔
      ∃ datagram, reflector.Relays datagram ∧
        ∃ other ∈ others, other.contains datagram := by
  simp only [relayOverlap, List.find?_isSome, List.any_eq_true,
    List.mem_filter, decide_eq_true_eq, Flow.overlaps_iff]
  constructor
  · rintro ⟨other, hother, mine, ⟨hmine, hudp⟩, datagram, hin, hin'⟩
    exact ⟨datagram, ⟨mine, hmine, hudp, hin⟩, other, hother, hin'⟩
  · rintro ⟨datagram, ⟨mine, hmine, hudp, hin⟩, other, hother, hin'⟩
    exact ⟨other, hother, mine, ⟨hmine, hudp⟩, datagram, hin, hin'⟩

/-! ## Shared protocols -/

def ShareProtocol (first second : Reflector) : Protocol → Prop
  | .wol => ∃ mine theirs port, first.wol = some mine ∧
      second.wol = some theirs ∧ port ∈ mine.ports.items ∧
      port ∈ theirs.ports.items
  | .mdns => first.mdns.isSome = true ∧ second.mdns.isSome = true
  | .ssdp => first.ssdp.isSome = true ∧ second.ssdp.isSome = true
  | .wsd => first.wsd = true ∧ second.wsd = true
  | .udp => False

def Admits (reflector : Reflector) (mac : MacAddr) : Prop :=
  ∀ macs, reflector.macs = some macs → mac ∈ macs.items

structure Shares (first second : Reflector) : Prop where
  leg : ∃ leg, leg ∈ first.directions ∧ leg ∈ second.directions
  protocol : ∃ protocol, first.ShareProtocol second protocol
  mac : ∃ mac, first.Admits mac ∧ second.Admits mac
  family : ∃ addr, first.addressFamily.uses addr = true ∧
    second.addressFamily.uses addr = true

theorem macsOverlap_iff {first second : Reflector} :
    macsOverlap first.macs second.macs = true ↔
      ∃ mac, first.Admits mac ∧ second.Admits mac := by
  have hsome : ∀ macs : MacSet, ∃ mac, mac ∈ macs.items := fun macs =>
    List.exists_mem_of_ne_nil _ macs.nonempty
  unfold macsOverlap Admits
  cases first.macs with
  | none =>
      cases second.macs with
      | none => exact ⟨fun _ => ⟨.broadcast, by simp⟩, fun _ => rfl⟩
      | some macs =>
          obtain ⟨mac, hmem⟩ := hsome macs
          exact ⟨fun _ => ⟨mac, by simpa using hmem⟩, fun _ => rfl⟩
  | some macs =>
      cases second.macs with
      | none =>
          obtain ⟨mac, hmem⟩ := hsome macs
          exact ⟨fun _ => ⟨mac, by simpa using hmem⟩, fun _ => rfl⟩
      | some others => simp

theorem commonProtocol_iff {first second : Reflector} :
    (first.commonProtocol second).isSome = true ↔
      ∃ protocol, first.ShareProtocol second protocol := by
  have hwol : (first.wol.any fun wol => second.wol.any fun theirs =>
      wol.ports.items.any fun port => theirs.ports.items.contains port) = true
      ↔ first.ShareProtocol second .wol := by
    simp only [Option.any_eq_true, List.any_eq_true, List.contains_iff_mem,
      ShareProtocol]
    constructor
    · rintro ⟨mine, hmine, theirs, htheirs, port, hport, hport'⟩
      exact ⟨mine, theirs, port, hmine, htheirs, hport, hport'⟩
    · rintro ⟨mine, theirs, port, hmine, htheirs, hport, hport'⟩
      exact ⟨mine, hmine, theirs, htheirs, port, hport, hport'⟩
  have hsome : (first.commonProtocol second).isSome = true ↔
      first.ShareProtocol second .wol ∨ first.ShareProtocol second .mdns ∨
        first.ShareProtocol second .ssdp ∨
        first.ShareProtocol second .wsd := by
    rw [← hwol, commonProtocol]
    simp only [ShareProtocol, ← Bool.and_eq_true]
    split_ifs <;> simp_all
  rw [hsome]
  constructor
  · rintro (h | h | h | h)
    · exact ⟨.wol, h⟩
    · exact ⟨.mdns, h⟩
    · exact ⟨.ssdp, h⟩
    · exact ⟨.wsd, h⟩
  · rintro ⟨protocol, h⟩
    cases protocol with
    | wol => exact .inl h
    | mdns => exact .inr (.inl h)
    | ssdp => exact .inr (.inr (.inl h))
    | wsd => exact .inr (.inr (.inr h))
    | udp => cases h

theorem sharedProtocol_iff {first second : Reflector} :
    (first.sharedProtocol second).isSome = true ↔ first.Shares second := by
  have hleg : (first.directions.find? fun mine =>
      second.directions.any fun theirs => theirs = mine).isSome = true ↔
      ∃ leg, leg ∈ first.directions ∧ leg ∈ second.directions := by
    simp [List.find?_isSome]
  unfold sharedProtocol
  constructor
  · intro h
    split at h
    · cases h
    rename_i leg hfound
    split at h
    · cases h
    rename_i hoverlap
    simp only [Bool.or_eq_true, Bool.not_eq_true', not_or,
      Bool.not_eq_false] at hoverlap
    rw [Option.isSome_map] at h
    exact ⟨hleg.mp (by rw [hfound]; rfl), commonProtocol_iff.mp h,
      macsOverlap_iff.mp hoverlap.1, familiesOverlap_iff.mp hoverlap.2⟩
  · rintro ⟨hshared, hprotocol, hmac, hfamily⟩
    obtain ⟨leg, hfound⟩ := Option.isSome_iff_exists.mp (hleg.mpr hshared)
    rw [hfound]
    simp only [macsOverlap_iff.mpr hmac, familiesOverlap_iff.mpr hfamily,
      Bool.not_true, Bool.or_self, Bool.false_eq_true, if_false,
      Option.isSome_map]
    exact commonProtocol_iff.mpr hprotocol

/-! ## Clashes -/

/-- One name, one classifier on one leg, or a datagram that the relay of one
takes and the other reflects. -/
inductive Clashes (first second : Reflector) : Prop
  | name (h : first.name = second.name)
  | shares (h : first.Shares second)
  | relayed (datagram : Transit) (h : first.Relays datagram)
      (h' : second.Reflects datagram)
  | relaying (datagram : Transit) (h : first.Reflects datagram)
      (h' : second.Relays datagram)

theorem conflictsWith_iff {first second : Reflector} :
    first.name = second.name ∨
      (first.conflictsWith second).isSome = true ↔ first.Clashes second := by
  simp only [conflictsWith, Option.isSome_or, Option.isSome_map,
    Bool.or_eq_true, sharedProtocol_iff, relayOverlap_iff]
  constructor
  · rintro (h | h | ⟨datagram, h, h'⟩ | ⟨datagram, h, h'⟩)
    · exact .name h
    · exact .shares h
    · exact .relayed datagram h h'
    · exact .relaying datagram h' h
  · rintro (h | h | ⟨datagram, h, h'⟩ | ⟨datagram, h, h'⟩)
    · exact .inl h
    · exact .inr (.inl h)
    · exact .inr (.inr (.inl ⟨datagram, h, h'⟩))
    · exact .inr (.inr (.inr ⟨datagram, h', h⟩))

theorem ShareProtocol.symm {first second : Reflector} {protocol : Protocol}
    (h : first.ShareProtocol second protocol) :
    second.ShareProtocol first protocol := by
  cases protocol with
  | wol =>
      obtain ⟨mine, theirs, port, hmine, htheirs, hport, hport'⟩ := h
      exact ⟨theirs, mine, port, htheirs, hmine, hport', hport⟩
  | mdns => exact And.symm h
  | ssdp => exact And.symm h
  | wsd => exact And.symm h
  | udp => exact h

theorem Shares.symm {first second : Reflector} (h : first.Shares second) :
    second.Shares first := by
  obtain ⟨⟨leg, hleg, hleg'⟩, ⟨protocol, hprotocol⟩, ⟨mac, hmac, hmac'⟩,
    addr, huses, huses'⟩ := h
  exact ⟨⟨leg, hleg', hleg⟩, ⟨protocol, hprotocol.symm⟩, ⟨mac, hmac', hmac⟩,
    addr, huses', huses⟩

theorem Clashes.symm {first second : Reflector} (h : first.Clashes second) :
    second.Clashes first := by
  cases h with
  | name h => exact .name h.symm
  | shares h => exact .shares h.symm
  | relayed datagram h h' => exact .relaying datagram h' h
  | relaying datagram h h' => exact .relayed datagram h' h

end Reflector

/-! ## The check -/

theorem checkConflicts_iff {reflectors : List Reflector} :
    checkConflicts reflectors = .ok () ↔
      reflectors.Pairwise fun first second => ¬ first.Clashes second := by
  have hapart : ∀ first second : Reflector, ¬ first.Clashes second ↔
      first.name ≠ second.name ∧ first.conflictsWith second = none := by
    intro first second
    rw [← Reflector.conflictsWith_iff, not_or, Bool.not_eq_true,
      Option.isSome_eq_false_iff, Option.isNone_iff_eq_none]
  simp only [hapart]
  exact checkConflicts_ok_iff

/-- The check refuses the entries that clash, and those only, whatever their
order. -/
theorem checkConflicts_exact (reflectors : List Reflector) :
    ((∃ error, checkConflicts reflectors = .error error) ↔
      ∃ (i j : Nat) (first second : Reflector), i ≠ j ∧
        reflectors[i]? = some first ∧ reflectors[j]? = some second ∧
        first.Clashes second) ∧
    (∀ others, others.Perm reflectors →
      (checkConflicts others = .ok () ↔ checkConflicts reflectors = .ok ())) ∧
    ∀ part, part.Sublist reflectors → checkConflicts reflectors = .ok () →
      checkConflicts part = .ok () := by
  refine ⟨?_, ?_, ?_⟩
  · have herror : (∃ error, checkConflicts reflectors = .error error) ↔
        ¬ checkConflicts reflectors = .ok () := by
      cases checkConflicts reflectors <;> simp
    rw [herror, checkConflicts_iff, List.pairwise_iff_getElem]
    push Not
    constructor
    · rintro ⟨i, j, hi, hj, hlt, hclash⟩
      exact ⟨i, j, reflectors[i], reflectors[j], Nat.ne_of_lt hlt,
        List.getElem?_eq_getElem hi, List.getElem?_eq_getElem hj, hclash⟩
    · rintro ⟨i, j, first, second, hne, hfirst, hsecond, hclash⟩
      obtain ⟨hi, rfl⟩ := List.getElem?_eq_some_iff.mp hfirst
      obtain ⟨hj, rfl⟩ := List.getElem?_eq_some_iff.mp hsecond
      rcases Nat.lt_or_gt_of_ne hne with hlt | hlt
      · exact ⟨i, j, hi, hj, hlt, hclash⟩
      · exact ⟨j, i, hj, hi, hlt, hclash.symm⟩
  · intro others hperm
    rw [checkConflicts_iff, checkConflicts_iff]
    exact hperm.pairwise_iff fun hapart hclash => hapart hclash.symm
  · intro part hpart hall
    rw [checkConflicts_iff] at hall ⊢
    exact hall.sublist hpart

end Netflector.Config
