import Netflector.Dispatch.Interleaving
import Netflector.Dispatch.RoundTrip
import Netflector.Net.Parsing

/-!
# Fragmentation is transparent to routing

However a datagram is split and in whatever order its fragments arrive among
those of other datagrams, routing sees the packet that would have come whole, or
nothing where no registration wants it.
-/

namespace Netflector.Dispatch

open Netflector.Foundation
open Netflector.Net
open Netflector.Reactor

/-! ## Splits -/

def fragmentsFrom (header : FragmentHeader) : Nat → List Bytes → List Fragment
  | _, [] => []
  | offset, part :: parts =>
      ⟨{ header with offset := offset, more := !parts.isEmpty }, part⟩ ::
        fragmentsFrom header (offset + part.length) parts

/-- The parts make the datagram, and every cut is at a multiple of the fragment
unit. -/
structure Split (datagram : Bytes) (parts : List Bytes) : Prop where
  flatten : parts.flatten = datagram
  nonempty : ∀ part ∈ parts, part ≠ []
  units : ∀ part ∈ parts.dropLast, part.length % fragmentUnit = 0
  two : 2 ≤ parts.length

variable {header : FragmentHeader} {offset : Nat} {parts : List Bytes}
  {datagram : Bytes}

theorem mem_fragmentsFrom {piece : Fragment} :
    piece ∈ fragmentsFrom header offset parts ↔
      ∃ before part after, parts = before ++ part :: after ∧
        piece = ⟨{ header with
          offset := offset + before.flatten.length
          more := !after.isEmpty }, part⟩ := by
  induction parts generalizing offset with
  | nil => simp [fragmentsFrom]
  | cons first rest ih =>
      rw [fragmentsFrom, List.mem_cons, ih]
      constructor
      · rintro (rfl | ⟨before, part, after, rfl, rfl⟩)
        · exact ⟨[], first, rest, rfl, by simp⟩
        · exact ⟨first :: before, part, after, rfl, by
            simp [Nat.add_assoc]⟩
      · rintro ⟨before, part, after, hparts, rfl⟩
        cases before with
        | nil =>
            cases hparts
            exact .inl (by simp)
        | cons head before =>
            cases hparts
            exact .inr ⟨before, part, after, rfl, by simp [Nat.add_assoc]⟩

theorem fragmentsFrom_offset {piece : Fragment}
    (h : piece ∈ fragmentsFrom header offset parts) :
    offset ≤ piece.header.offset := by
  obtain ⟨before, part, after, _, rfl⟩ := mem_fragmentsFrom.mp h
  exact Nat.le_add_right _ _

theorem fragmentsFrom_apart (header : FragmentHeader) (offset : Nat)
    (parts : List Bytes) :
    (fragmentsFrom header offset parts).Pairwise Fragment.Apart := by
  induction parts generalizing offset with
  | nil => exact List.Pairwise.nil
  | cons first rest ih =>
      rw [fragmentsFrom, List.pairwise_cons]
      refine ⟨?_, ih _⟩
      intro piece hpiece position hfirst hsecond
      have hoffset := fragmentsFrom_offset hpiece
      have hstart := hsecond.1
      have hstop := hfirst.2
      simp only [Fragment.stop] at hstop
      omega

theorem fragmentsFrom_covered {position : Nat} (hstart : offset ≤ position)
    (hstop : position < offset + parts.flatten.length) :
    ∃ piece ∈ fragmentsFrom header offset parts,
      Fragment.Covers piece position := by
  induction parts generalizing offset with
  | nil => simp at hstop; omega
  | cons first rest ih =>
      rw [fragmentsFrom]
      by_cases hfirst : position < offset + first.length
      · exact ⟨_, List.mem_cons_self .., hstart, hfirst⟩
      · rw [List.flatten_cons, List.length_append] at hstop
        obtain ⟨piece, hpiece, hcovers⟩ :=
          ih (Nat.le_of_not_lt hfirst) (by omega)
        exact ⟨piece, List.mem_cons_of_mem _ hpiece, hcovers⟩

theorem flatten_units {parts : List Bytes}
    (h : ∀ part ∈ parts, part.length % fragmentUnit = 0) :
    parts.flatten.length % fragmentUnit = 0 := by
  induction parts with
  | nil => rfl
  | cons first rest ih =>
      rw [List.forall_mem_cons] at h
      rw [List.flatten_cons, List.length_append, Nat.add_mod, h.1, ih h.2]
      exact Nat.zero_mod _

theorem mem_dropLast_of_cons {before after : List Bytes} {part : Bytes}
    (hafter : after ≠ []) : part ∈ (before ++ part :: after).dropLast := by
  rw [List.dropLast_append_of_ne_nil (by simp)]
  apply List.mem_append_right
  obtain ⟨next, rest, rfl⟩ := List.exists_cons_of_ne_nil hafter
  rw [List.dropLast_cons_of_ne_nil (by simp)]
  exact List.mem_cons_self ..

theorem division_of_split (h : Split datagram parts)
    (hfits : datagram.length ≤ maxDatagramLen) :
    Division datagram (fragmentsFrom header 0 parts) := by
  have hbefore : ∀ before part after, parts = before ++ part :: after →
      before.flatten.length % fragmentUnit = 0 := by
    rintro before part after rfl
    apply flatten_units
    intro earlier hearlier
    apply h.units
    rw [List.dropLast_append_of_ne_nil (by simp)]
    exact List.mem_append_left _ hearlier
  have hlength : ∀ before part after, parts = before ++ part :: after →
      datagram.length =
        before.flatten.length + part.length + after.flatten.length := by
    rintro before part after rfl
    rw [← h.flatten]
    simp only [List.flatten_append, List.flatten_cons, List.length_append]
    omega
  have hpart : ∀ before part after, parts = before ++ part :: after →
      0 < part.length := by
    rintro before part after rfl
    exact List.length_pos_iff.mpr (h.nonempty part (by simp))
  constructor
  case fits => exact hfits
  case apart => exact fragmentsFrom_apart header 0 parts
  case aligned =>
    intro piece hpiece
    obtain ⟨before, part, after, hparts, rfl⟩ := mem_fragmentsFrom.mp hpiece
    simp only [Fragment.Aligned, Nat.zero_add]
    exact hbefore before part after hparts
  case whole =>
    intro piece hpiece hmore
    obtain ⟨before, part, after, hparts, rfl⟩ := mem_fragmentsFrom.mp hpiece
    apply h.units
    rw [hparts]
    exact mem_dropLast_of_cons (by simpa using hmore)
  case headed =>
    intro piece hpiece hzero
    obtain ⟨before, part, after, hparts, rfl⟩ := mem_fragmentsFrom.mp hpiece
    apply headers_isSome hzero
    have hpos := hpart before part after hparts
    simp only [Nat.zero_add] at hzero
    -- Nothing is before it, so something is behind it.
    have hnil : before = [] := by
      cases before with
      | nil => rfl
      | cons first rest =>
          have hfirst := h.nonempty first (by rw [hparts]; simp)
          rw [List.flatten_cons, List.length_append] at hzero
          have := List.length_pos_iff.mpr hfirst
          omega
    have hafter : after ≠ [] := by
      rintro rfl
      have := h.two
      rw [hparts, hnil] at this
      simp at this
    have hunit := h.units part (by
      rw [hparts]
      exact mem_dropLast_of_cons hafter)
    simp only [udpHeaderSize, fragmentUnit] at *
    omega
  case nonempty =>
    intro piece hpiece
    obtain ⟨before, part, after, hparts, rfl⟩ := mem_fragmentsFrom.mp hpiece
    have hpos := hpart before part after hparts
    refine ⟨Nat.le_refl _, ?_⟩
    simp only [Fragment.stop]
    omega
  case inside =>
    intro piece hpiece
    obtain ⟨before, part, after, hparts, rfl⟩ := mem_fragmentsFrom.mp hpiece
    have htotal := hlength before part after hparts
    simp only [Fragment.stop, Nat.zero_add]
    omega
  case last =>
    intro piece hpiece hmore
    obtain ⟨before, part, after, hparts, rfl⟩ := mem_fragmentsFrom.mp hpiece
    have htotal := hlength before part after hparts
    have hnil : after = [] := by simpa using hmore
    rw [hnil] at htotal
    simp only [Fragment.stop, Nat.zero_add]
    simpa using htotal.symm
  case data =>
    intro piece hpiece index hindex
    obtain ⟨before, part, after, hparts, rfl⟩ := mem_fragmentsFrom.mp hpiece
    rw [← h.flatten, hparts]
    simp only [List.flatten_append, List.flatten_cons, Nat.zero_add]
    rw [List.getElem?_append_right (Nat.le_add_right _ _),
      Nat.add_sub_cancel_left, List.getElem?_append_left hindex]
  case covered =>
    intro position hposition
    apply fragmentsFrom_covered (Nat.zero_le _)
    rw [h.flatten]
    omega
  case headedBy =>
    have htwo := h.two
    cases hcases : parts with
    | nil =>
        rw [hcases] at htwo
        simp at htwo
    | cons first rest =>
        exact ⟨_, mem_fragmentsFrom.mpr ⟨[], first, rest, rfl, rfl⟩, rfl⟩
  case endedBy =>
    have htwo := h.two
    rcases List.eq_nil_or_concat parts with hnil | ⟨before, last, hlast⟩
    · rw [hnil] at htwo
      simp at htwo
    · rw [List.concat_eq_append] at hlast
      exact ⟨_, mem_fragmentsFrom.mpr ⟨before, last, [], hlast, rfl⟩, rfl⟩

/-! ## Arrivals -/

/-- A fragment that came in, and so has an offset the parser gave. -/
structure Arrival where
  ingress : CaptureKey
  fragment : Fragment
  now : Nat
  placed : Fragment.Placed fragment

def Arrival.key (arrival : Arrival) : DatagramKey :=
  Reassembler.keyOf arrival.ingress arrival.fragment

section Arrivals

variable {Handler : Type} (registrations : Arena (Registration Handler))
  (addrs : CaptureKey → Option InterfaceAddresses)

/-- What is routed at each arrival, while the registrations and addresses stay
as they are. -/
def routeAll : Reassembler → List Arrival →
    Except Panic (Reassembler × List (Option Packet))
  | reassembly, [] => .ok (reassembly, [])
  | reassembly, arrival :: arrivals => do
      let (reassembly, routed) ← reassembleAndRoute registrations addrs
        reassembly arrival.ingress arrival.fragment arrival.now
      let (reassembly, rest) ← routeAll reassembly arrivals
      .ok (reassembly, routed :: rest)

/-- Nothing that a loan and its return change matters to a datagram. -/
structure Alike (first second : Reassembler) : Prop where
  collecting : first.collecting = second.collecting
  discarding : first.discarding = second.discarding

inductive Routes (done : Option Reassembled) : Option Packet → Prop where
  | nothing (h : done = none) : Routes done none
  | dropped (datagram : Reassembled) (error : ParseError)
      (h : done = some datagram) (hpacket : datagram.packet = fail error) :
      Routes done none
  | routed (datagram : Reassembled) (packet : Packet)
      (h : done = some datagram) (hpacket : datagram.packet = .ok packet) :
      Routes done (some packet)

theorem Routes.of_none {routed : Option Packet} (h : Routes none routed) :
    routed = none := by
  cases h with
  | nothing => rfl
  | dropped => rfl
  | routed _ _ hsome => cases hsome

theorem packet_total {done : Reassembled} (h : done.len ≤ maxDatagramLen) :
    (∃ error, done.packet = fail error) ∨
      ∃ packet, done.packet = .ok packet := by
  have hlen : done.len ≤ done.buf.bytes.length := by
    rw [done.buf.bytes_length]
    exact h
  obtain ⟨datagram, hbytes, hslice⟩ :=
    bytesAt_ok ParseError done.buf.bytes (Nat.zero_le done.len) hlen
  have hlength := slice?_length hslice
  have hmax : maxDatagramLen < 65536 := by decide
  simp only [Reassembled.packet, hbytes, bind, Except.bind]
  exact reassembled_total done.first (by omega)

theorem reassemble_total {reassembly : Reassembler} (hsane : reassembly.Sane)
    (ingress : CaptureKey) {fragment : Fragment}
    (hend : Fragment.EndFits fragment) (now : Nat) :
    ∃ offered done after routed,
      reassembly.offer ingress fragment
        (wanted registrations addrs ingress fragment) now =
          .ok (offered, done) ∧
      reassembleAndRoute registrations addrs reassembly ingress fragment now =
        .ok (after, routed) ∧
      offered.Sane ∧ Alike after offered ∧ Routes done routed := by
  obtain ⟨offered, done, hoffer, heffect⟩ := Reassembler.offer_total hsane
    ingress hend (wanted registrations addrs ingress fragment) now
  simp only [reassembleAndRoute, hoffer, bind, Except.bind]
  cases done with
  | none =>
      exact ⟨offered, none, _, _, rfl, rfl, heffect.sane, ⟨rfl, rfl⟩,
        .nothing rfl⟩
  | some done =>
      obtain ⟨_, first, len, _, _, hlen, hdone⟩ := heffect.completed done rfl
      have hmax : done.len ≤ maxDatagramLen := by
        rw [hdone]
        exact hlen
      rcases packet_total hmax with ⟨error, hpacket⟩ | ⟨packet, hpacket⟩
      · simp only [hpacket, fail]
        exact ⟨offered, some done, _, _, rfl, rfl, heffect.sane, ⟨rfl, rfl⟩,
          .dropped done error rfl hpacket⟩
      · simp only [hpacket]
        exact ⟨offered, some done, _, _, rfl, rfl, heffect.sane, ⟨rfl, rfl⟩,
          .routed done packet rfl hpacket⟩

theorem Alike.sane {first second : Reassembler} (h : Alike first second)
    (hsane : second.Sane) : first.Sane := by
  refine ⟨?_, ?_⟩
  · rw [h.collecting, h.discarding]
    exact hsane.separate
  · rw [h.collecting]
    exact hsane.sized

theorem Alike.keyed {first second : Reassembler} {keys : List DatagramKey}
    (h : Alike first second) (hkeyed : second.Keyed keys) :
    first.Keyed keys := by
  refine ⟨?_, ?_⟩
  · rw [h.collecting]
    exact hkeyed.collected
  · rw [h.discarding]
    exact hkeyed.discarded

theorem Alike.steady {key : DatagramKey} {before first second : Reassembler}
    (h : Alike first second) (hsteady : Reassembler.Steady key before second) :
    Reassembler.Steady key before first := by
  refine ⟨?_, ?_⟩
  · rw [h.collecting]
    exact hsteady.collected
  · rw [h.discarding]
    exact hsteady.discarded

theorem routeAll_total {reassembly : Reassembler} (hsane : reassembly.Sane)
    (arrivals : List Arrival) :
    ∃ after routed, routeAll registrations addrs reassembly arrivals =
        .ok (after, routed) ∧ routed.length = arrivals.length := by
  induction arrivals generalizing reassembly with
  | nil => exact ⟨reassembly, [], rfl, rfl⟩
  | cons arrival arrivals ih =>
      obtain ⟨offered, done, next, routed, _, hroute, hoffered, halike, _⟩ :=
        reassemble_total registrations addrs hsane arrival.ingress
          arrival.placed.endFits arrival.now
      obtain ⟨after, rest, hrest, hlength⟩ := ih (halike.sane hoffered)
      refine ⟨after, routed :: rest, ?_, ?_⟩
      · simp only [routeAll, hroute, hrest, bind, Except.bind]
      · rw [List.length_cons, List.length_cons, hlength]

/-! ## One datagram among others -/

structure Pending (keys : List DatagramKey) (key : DatagramKey) (start : Nat)
    (taken : List Fragment) (reassembly : Reassembler) : Prop where
  sane : reassembly.Sane
  keyed : reassembly.Keyed keys
  kept : ∀ since, (key, since) ∉ reassembly.discarding.entries
  slot : (taken = [] ∧ ∀ slot, (key, slot) ∉ reassembly.collecting.entries) ∨
    ∃ slot, (key, slot) ∈ reassembly.collecting.entries ∧
      start ≤ slot.started ∧ Assembled slot taken

structure Refused (keys : List DatagramKey) (key : DatagramKey) (start : Nat)
    (reassembly : Reassembler) : Prop where
  sane : reassembly.Sane
  keyed : reassembly.Keyed keys
  discarded : ∃ since, (key, since) ∈ reassembly.discarding.entries ∧
    start ≤ since

def Arrival.Within (start : Nat) (arrival : Arrival) : Prop :=
  start ≤ arrival.now ∧ arrival.now < start + expiry

section Datagram

variable {registrations addrs}
variable {keys : List DatagramKey} {key : DatagramKey} {start : Nat}
  {taken : List Fragment} {reassembly : Reassembler} {arrival : Arrival}

theorem pending_new (keys : List DatagramKey) (key : DatagramKey)
    (start : Nat) : Pending keys key start [] Reassembler.new where
  sane := Reassembler.sane_new
  keyed := Reassembler.keyed_new keys
  kept _ hmem := by cases hmem
  slot := .inl ⟨rfl, fun _ hmem => by cases hmem⟩

theorem Pending.slot_unique (h : Pending keys key start taken reassembly)
    {slot : Collecting} (hmem : (key, slot) ∈ reassembly.collecting.entries) :
    start ≤ slot.started ∧ Assembled slot taken := by
  rcases h.slot with ⟨_, hnone⟩ | ⟨found, hfound, hstart, hslot⟩
  · exact absurd hmem (hnone slot)
  · have hget := LinearMap.get_eq_some_iff.mpr hmem
    rw [LinearMap.get_eq_some_iff.mpr hfound, Option.some.injEq] at hget
    rw [← hget]
    exact ⟨hstart, hslot⟩

theorem Pending.current (h : Pending keys key start taken reassembly)
    (hwithin : arrival.Within start) :
    reassembly.Current key arrival.now := by
  have hnow := hwithin.2
  have hexpiry : 0 < expiry := by decide
  refine ⟨?_, ?_⟩
  · intro slot hmem
    have hstart := (h.slot_unique hmem).1
    omega
  · intro since hmem
    exact absurd hmem (h.kept since)

theorem Pending.finds (h : Pending keys key start taken reassembly)
    (hkeys : keys.length ≤ slots) (hwithin : arrival.Within start) :
    reassembly.Finds key arrival.now taken := by
  have hcurrent := h.current hwithin
  have hsteady :=
    (Reassembler.expire_steady h.keyed hkeys arrival.now).2 key hcurrent
  constructor
  · rw [LinearMap.get_eq_none_iff]
    intro since hmem
    exact h.kept since ((hsteady.discarded since).mp hmem)
  · rcases h.slot with ⟨rfl, hnone⟩ | ⟨slot, hmem, _, hslot⟩
    · refine .inl ⟨rfl, ?_⟩
      rw [LinearMap.get_eq_none_iff]
      intro slot hmem
      exact hnone slot ((hsteady.collected slot).mp hmem)
    · exact .inr ⟨slot, hmem, hcurrent.1 slot hmem, hslot⟩

theorem Pending.steady {after : Reassembler}
    (h : Pending keys key start taken reassembly) (hsane : after.Sane)
    (hkeyed : after.Keyed keys)
    (hsteady : Reassembler.Steady key reassembly after) :
    Pending keys key start taken after := by
  refine ⟨hsane, hkeyed, ?_, ?_⟩
  · intro since hmem
    exact h.kept since ((hsteady.discarded since).mp hmem)
  · rcases h.slot with ⟨hnil, hnone⟩ | ⟨slot, hmem, hstart, hslot⟩
    · exact .inl ⟨hnil, fun slot hmem =>
        hnone slot ((hsteady.collected slot).mp hmem)⟩
    · exact .inr ⟨slot, (hsteady.collected slot).mpr hmem, hstart, hslot⟩

theorem Refused.current (h : Refused keys key start reassembly)
    (hwithin : arrival.Within start) :
    reassembly.Current key arrival.now := by
  obtain ⟨since, hsince, hstart⟩ := h.discarded
  have hnow := hwithin.2
  have hexpiry : 0 < expiry := by decide
  refine ⟨?_, ?_⟩
  · intro slot hmem
    exact absurd hsince (h.sane.separate key slot since hmem)
  · intro other hmem
    have hget := LinearMap.get_eq_some_iff.mpr hmem
    rw [LinearMap.get_eq_some_iff.mpr hsince, Option.some.injEq] at hget
    omega

theorem Refused.steady {after : Reassembler}
    (h : Refused keys key start reassembly) (hsane : after.Sane)
    (hkeyed : after.Keyed keys)
    (hsteady : Reassembler.Steady key reassembly after) :
    Refused keys key start after := by
  obtain ⟨since, hsince, hstart⟩ := h.discarded
  exact ⟨hsane, hkeyed, since, (hsteady.discarded since).mpr hsince, hstart⟩

variable (registrations addrs) in
theorem arrival_other (hsane : reassembly.Sane)
    (hkeyed : reassembly.Keyed keys) (hkeys : keys.length ≤ slots)
    (hmem : arrival.key ∈ keys) (hne : arrival.key ≠ key)
    (hcurrent : reassembly.Current key arrival.now) :
    ∃ after routed,
      reassembleAndRoute registrations addrs reassembly arrival.ingress
        arrival.fragment arrival.now = .ok (after, routed) ∧
      after.Sane ∧ after.Keyed keys ∧
      Reassembler.Steady key reassembly after := by
  obtain ⟨offered, done, after, routed, hoffer, hroute, hoffered, halike, _⟩ :=
    reassemble_total registrations addrs hsane arrival.ingress
      arrival.placed.endFits arrival.now
  obtain ⟨hkeyed', hsteady⟩ :=
    Reassembler.offer_leaves hsane hkeyed hkeys arrival.placed.endFits hmem
      hoffer
  exact ⟨after, routed, hroute, halike.sane hoffered, halike.keyed hkeyed',
    halike.steady (hsteady key hne.symm hcurrent)⟩

theorem arrival_taken {datagram : Bytes} {missing : List Fragment}
    (h : Pending keys arrival.key start taken reassembly)
    (hkeys : keys.length ≤ slots) (hmem : arrival.key ∈ keys)
    (hwithin : arrival.Within start)
    (hwanted : wanted registrations addrs arrival.ingress arrival.fragment =
      true)
    (hdivision : Division datagram (taken ++ arrival.fragment :: missing))
    (hmissing : missing ≠ []) :
    ∃ after,
      reassembleAndRoute registrations addrs reassembly arrival.ingress
        arrival.fragment arrival.now = .ok (after, none) ∧
      Pending keys arrival.key start (taken ++ [arrival.fragment]) after := by
  have haligned := hdivision.aligned arrival.fragment (by simp)
  obtain ⟨slot, hslot, hopened, hresult⟩ := Reassembler.offer_finds h.sane
    (h.finds hkeys hwithin) haligned
    (fun slot => acceptable_of_division hdivision)
  obtain ⟨offered, done, after, routed, hoffer, hroute, _, halike, hroutes⟩ :=
    reassemble_total registrations addrs h.sane arrival.ingress
      arrival.placed.endFits arrival.now
  obtain ⟨hkeyed, _⟩ :=
    Reassembler.offer_leaves h.sane h.keyed hkeys arrival.placed.endFits hmem
      hoffer
  obtain ⟨next, rest, rfl⟩ := List.exists_cons_of_ne_nil hmissing
  have hrest : Division datagram ((taken ++ [arrival.fragment]) ++
      next :: rest) := by rwa [List.append_assoc]
  rw [hwanted] at hoffer
  rcases hresult with ⟨_, taking, htaking, hsane, hentry⟩ |
    ⟨first, len, _, hdone, _⟩
  · rw [htaking, Except.ok.injEq, Prod.mk.injEq] at hoffer
    obtain ⟨rfl, rfl⟩ := hoffer
    cases hroutes.of_none
    refine ⟨after, hroute, halike.sane hsane, halike.keyed hkeyed, ?_, .inr
      ⟨slot, ?_, ?_, hslot⟩⟩
    · intro since
      rw [halike.discarding]
      exact hsane.separate _ slot since hentry
    · rw [halike.collecting]
      exact hentry
    · rcases hopened with hnow | ⟨old, hold, hsame⟩
      · rw [hnow]
        exact hwithin.1
      · have hlive := ((Reassembler.expire_spec h.sane arrival.now).2 _).mp hold
        rw [hsame]
        exact (h.slot_unique hlive.1).1
  · exact absurd ⟨first, len, hdone⟩ (incomplete_of_division hrest hslot)

theorem arrival_completes {datagram : Bytes}
    (h : Pending keys arrival.key start taken reassembly)
    (hkeys : keys.length ≤ slots) (hmem : arrival.key ∈ keys)
    (hwithin : arrival.Within start)
    (hwanted : wanted registrations addrs arrival.ingress arrival.fragment =
      true)
    (hdivision : Division datagram (taken ++ [arrival.fragment]))
    {packet : Packet}
    (hpacket : ∀ piece ∈ taken ++ [arrival.fragment],
      Packet.reassembled piece.header datagram = .ok packet) :
    ∃ after,
      reassembleAndRoute registrations addrs reassembly arrival.ingress
        arrival.fragment arrival.now = .ok (after, some packet) ∧
      after.Sane ∧ after.Keyed keys := by
  obtain ⟨slot, hslot, _, hresult⟩ := Reassembler.offer_finds h.sane
    (h.finds hkeys hwithin) (hdivision.aligned arrival.fragment (by simp))
    (fun slot => acceptable_of_division hdivision)
  obtain ⟨offered, done, after, routed, hoffer, hroute, hoffered, halike,
      hroutes⟩ :=
    reassemble_total registrations addrs h.sane arrival.ingress
      arrival.placed.endFits arrival.now
  obtain ⟨hkeyed, _⟩ :=
    Reassembler.offer_leaves h.sane h.keyed hkeys arrival.placed.endFits hmem
      hoffer
  rw [hwanted] at hoffer
  obtain ⟨first, hcomplete, piece, hpiece, hfirst⟩ :=
    complete_of_division hdivision hslot
  rcases hresult with ⟨hincomplete, _⟩ | ⟨first', len, taking, hdone, htaking⟩
  · exact absurd ⟨first, _, hcomplete⟩ hincomplete
  rw [htaking, Except.ok.injEq, Prod.mk.injEq] at hoffer
  obtain ⟨rfl, rfl⟩ := hoffer
  have hsame : first' = first := by
    rw [← Option.some.injEq, ← hdone.1, hcomplete.1]
  have hlen : len = datagram.length := by
    rw [← Option.some.injEq, ← hdone.2.1, hcomplete.2.1]
  subst hsame hlen
  have hread : Reassembled.packet ⟨first', slot.buf, datagram.length⟩ =
      .ok packet := by
    rw [packet_of_bytes rfl hdivision.fits (bytes_of_division hdivision hslot),
      ← hfirst]
    exact hpacket piece hpiece
  have hrouted : routed = some packet := by
    cases hroutes with
    | nothing hnone => cases hnone
    | dropped found error hfound herror =>
        cases hfound
        rw [hread] at herror
        cases herror
    | routed found other hfound hother =>
        cases hfound
        rw [hread, Except.ok.injEq] at hother
        rw [hother]
  subst hrouted
  exact ⟨after, hroute, halike.sane hoffered, halike.keyed hkeyed⟩

theorem arrival_unwanted
    (h : Pending keys arrival.key start taken reassembly)
    (hkeys : keys.length ≤ slots) (hmem : arrival.key ∈ keys)
    (hwithin : arrival.Within start)
    (hwanted : wanted registrations addrs arrival.ingress arrival.fragment =
      false) :
    ∃ after,
      reassembleAndRoute registrations addrs reassembly arrival.ingress
        arrival.fragment arrival.now = .ok (after, none) ∧
      Refused keys arrival.key start after := by
  obtain ⟨offered, done, after, routed, hoffer, hroute, hoffered, halike,
      hroutes⟩ :=
    reassemble_total registrations addrs h.sane arrival.ingress
      arrival.placed.endFits arrival.now
  obtain ⟨hkeyed, _⟩ :=
    Reassembler.offer_leaves h.sane h.keyed hkeys arrival.placed.endFits hmem
      hoffer
  have hkept : ((reassembly.expire arrival.now).discarding.get
      (Reassembler.keyOf arrival.ingress arrival.fragment)) = none :=
    (h.finds hkeys hwithin).kept
  rw [hwanted] at hoffer
  simp only [Reassembler.offer, hkept, Option.isSome_none, Bool.false_eq_true,
    if_false, Bool.not_false, if_true, Except.ok.injEq, Prod.mk.injEq] at hoffer
  obtain ⟨rfl, rfl⟩ := hoffer
  cases hroutes.of_none
  refine ⟨after, hroute, halike.sane hoffered, halike.keyed hkeyed,
    arrival.now, ?_, hwithin.1⟩
  rw [halike.discarding]
  exact Reassembler.mem_refuse_discards ..

theorem arrival_refused
    (h : Refused keys arrival.key start reassembly)
    (hkeys : keys.length ≤ slots) (hwithin : arrival.Within start) :
    ∃ after,
      reassembleAndRoute registrations addrs reassembly arrival.ingress
        arrival.fragment arrival.now = .ok (after, none) ∧
      Refused keys arrival.key start after := by
  obtain ⟨offered, done, after, routed, hoffer, hroute, hoffered, halike,
      hroutes⟩ :=
    reassemble_total registrations addrs h.sane arrival.ingress
      arrival.placed.endFits arrival.now
  obtain ⟨hkeyed, hsteady⟩ := Reassembler.expire_steady h.keyed hkeys
    arrival.now
  obtain ⟨since, hsince, hstart⟩ := h.discarded
  have hlive := ((hsteady _ (h.current hwithin)).discarded since).mpr hsince
  have hget : ((reassembly.expire arrival.now).discarding.get
      (Reassembler.keyOf arrival.ingress arrival.fragment)) = some since :=
    LinearMap.get_eq_some_iff.mpr hlive
  simp only [Reassembler.offer, hget, Option.isSome_some, if_true,
    Except.ok.injEq, Prod.mk.injEq] at hoffer
  obtain ⟨rfl, rfl⟩ := hoffer
  cases hroutes.of_none
  refine ⟨after, hroute, halike.sane hoffered, halike.keyed hkeyed, since, ?_,
    hstart⟩
  rw [halike.discarding]
  exact hlive

end Datagram

/-! ## Whole runs -/

def fragmentsFor (key : DatagramKey) (arrivals : List Arrival) :
    List Fragment :=
  (arrivals.filter fun arrival => arrival.key = key).map Arrival.fragment

def routedFor (key : DatagramKey) (arrivals : List Arrival)
    (routed : List (Option Packet)) : List (Option Packet) :=
  ((arrivals.zip routed).filter fun entry => entry.1.key = key).map Prod.snd

section Runs

variable {registrations addrs}
variable {keys : List DatagramKey} {key : DatagramKey} {start : Nat}
  {taken : List Fragment} {reassembly : Reassembler} {datagram : Bytes}

theorem fragmentsFor_cons (key : DatagramKey) (arrival : Arrival)
    (arrivals : List Arrival) :
    fragmentsFor key (arrival :: arrivals) =
      if arrival.key = key then
        arrival.fragment :: fragmentsFor key arrivals
      else fragmentsFor key arrivals := by
  unfold fragmentsFor
  rw [List.filter_cons]
  split <;> simp_all

theorem routedFor_cons (key : DatagramKey) (arrival : Arrival)
    (arrivals : List Arrival) (packet : Option Packet)
    (routed : List (Option Packet)) :
    routedFor key (arrival :: arrivals) (packet :: routed) =
      if arrival.key = key then packet :: routedFor key arrivals routed
      else routedFor key arrivals routed := by
  unfold routedFor
  rw [List.zip_cons_cons, List.filter_cons]
  split <;> simp_all

theorem routedFor_of_none {arrivals : List Arrival}
    (h : fragmentsFor key arrivals = []) (routed : List (Option Packet)) :
    routedFor key arrivals routed = [] := by
  rw [fragmentsFor, List.map_eq_nil_iff, List.filter_eq_nil_iff] at h
  rw [routedFor, List.map_eq_nil_iff, List.filter_eq_nil_iff]
  intro entry hmem
  exact h entry.1 (List.of_mem_zip hmem).1

structure Admissible (keys : List DatagramKey) (start : Nat)
    (arrivals : List Arrival) : Prop where
  keyed : ∀ arrival ∈ arrivals, arrival.key ∈ keys
  within : ∀ arrival ∈ arrivals, arrival.Within start

theorem Admissible.tail {arrival : Arrival} {arrivals : List Arrival}
    (h : Admissible keys start (arrival :: arrivals)) :
    Admissible keys start arrivals :=
  ⟨fun later hmem => h.keyed later (List.mem_cons_of_mem _ hmem),
    fun later hmem => h.within later (List.mem_cons_of_mem _ hmem)⟩

theorem run_wanted {arrivals : List Arrival}
    (h : Pending keys key start taken reassembly)
    (hkeys : keys.length ≤ slots) (hadmissible : Admissible keys start arrivals)
    (hdivision : Division datagram (taken ++ fragmentsFor key arrivals))
    (hleft : fragmentsFor key arrivals ≠ [])
    (hwanted : ∀ arrival ∈ arrivals, arrival.key = key →
      wanted registrations addrs arrival.ingress arrival.fragment = true)
    {packet : Packet}
    (hpacket : ∀ piece ∈ taken ++ fragmentsFor key arrivals,
      Packet.reassembled piece.header datagram = .ok packet) :
    ∃ after routed,
      routeAll registrations addrs reassembly arrivals =
        .ok (after, routed) ∧
      routedFor key arrivals routed =
        List.replicate ((fragmentsFor key arrivals).length - 1) none ++
          [some packet] := by
  induction arrivals generalizing reassembly taken with
  | nil => exact absurd rfl hleft
  | cons arrival arrivals ih =>
      have hmem := hadmissible.keyed arrival (List.mem_cons_self ..)
      have hwithin := hadmissible.within arrival (List.mem_cons_self ..)
      have hrest := fun later hlater =>
        hwanted later (List.mem_cons_of_mem arrival hlater)
      rw [fragmentsFor_cons] at hdivision hleft hpacket ⊢
      by_cases hkey : arrival.key = key
      case neg =>
        rw [if_neg hkey] at hdivision hleft hpacket ⊢
        obtain ⟨next, packet', hroute, hsane, hkeyed, hsteady⟩ :=
          arrival_other registrations addrs h.sane h.keyed hkeys hmem hkey
            (h.current hwithin)
        obtain ⟨after, routed, hrun, hrouted⟩ := ih
          (h.steady hsane hkeyed hsteady) hadmissible.tail hdivision hleft hrest
          hpacket
        refine ⟨after, packet' :: routed, ?_, ?_⟩
        · simp only [routeAll, hroute, hrun, bind, Except.bind]
        · rw [routedFor_cons, if_neg hkey, hrouted]
      subst hkey
      rw [if_pos rfl] at hdivision hleft hpacket ⊢
      have hown := hwanted arrival (List.mem_cons_self ..) rfl
      cases hmissing : fragmentsFor arrival.key arrivals with
      | nil =>
          rw [hmissing] at hdivision hpacket
          obtain ⟨next, hroute, hsane, hkeyed⟩ :=
            arrival_completes h hkeys hmem hwithin hown hdivision hpacket
          obtain ⟨after, routed, hrun, _⟩ :=
            routeAll_total registrations addrs hsane arrivals
          refine ⟨after, some packet :: routed, ?_, ?_⟩
          · simp only [routeAll, hroute, hrun, bind, Except.bind]
          · rw [routedFor_cons, if_pos rfl, routedFor_of_none hmissing]
            rfl
      | cons fragment missing =>
          have hsome : fragmentsFor arrival.key arrivals ≠ [] := by simp [hmissing]
          obtain ⟨next, hroute, hpending⟩ :=
            arrival_taken h hkeys hmem hwithin hown hdivision hsome
          obtain ⟨after, routed, hrun, hrouted⟩ := ih hpending hadmissible.tail
            (by rwa [List.append_assoc]) hsome hrest
            (by rwa [List.append_assoc])
          refine ⟨after, none :: routed, ?_, ?_⟩
          · simp only [routeAll, hroute, hrun, bind, Except.bind]
          · rw [routedFor_cons, if_pos rfl, hrouted, hmissing]
            rfl

/-- The datagram is dropped, or has not shown that it is unwanted. -/
def Unrouted (keys : List DatagramKey) (key : DatagramKey) (start : Nat)
    (taken : List Fragment) (reassembly : Reassembler) : Prop :=
  Refused keys key start reassembly ∨
    (Pending keys key start taken reassembly ∧
      ∀ piece ∈ taken, piece.header.offset ≠ 0)

theorem arrival_unrouted {arrival : Arrival} {missing : List Fragment}
    (h : Unrouted keys arrival.key start taken reassembly)
    (hkeys : keys.length ≤ slots) (hmem : arrival.key ∈ keys)
    (hwithin : arrival.Within start)
    (hdivision : Division datagram (taken ++ arrival.fragment :: missing))
    (hwanted : wanted registrations addrs arrival.ingress arrival.fragment =
      decide (arrival.fragment.header.offset ≠ 0)) :
    ∃ after,
      reassembleAndRoute registrations addrs reassembly arrival.ingress
        arrival.fragment arrival.now = .ok (after, none) ∧
      Unrouted keys arrival.key start (taken ++ [arrival.fragment]) after := by
  rcases h with hrefused | ⟨hpending, hlater⟩
  · obtain ⟨after, hroute, hstill⟩ := arrival_refused hrefused hkeys hwithin
    exact ⟨after, hroute, .inl hstill⟩
  by_cases hzero : arrival.fragment.header.offset = 0
  · rw [hzero] at hwanted
    obtain ⟨after, hroute, hrefused⟩ :=
      arrival_unwanted hpending hkeys hmem hwithin hwanted
    exact ⟨after, hroute, .inl hrefused⟩
  rw [decide_eq_true hzero] at hwanted
  have htaken : ∀ piece ∈ taken ++ [arrival.fragment],
      piece.header.offset ≠ 0 := by
    intro piece hpiece
    rcases List.mem_append.mp hpiece with hold | hnew
    · exact hlater piece hold
    · rw [List.mem_singleton] at hnew
      rwa [hnew]
  -- The fragment at offset 0 is still to come.
  have hmissing : missing ≠ [] := by
    rintro rfl
    obtain ⟨piece, hpiece, hoffset⟩ := hdivision.headedBy
    exact htaken piece hpiece hoffset
  obtain ⟨after, hroute, hstill⟩ :=
    arrival_taken hpending hkeys hmem hwithin hwanted hdivision hmissing
  exact ⟨after, hroute, .inr ⟨hstill, htaken⟩⟩

theorem run_unwanted {arrivals : List Arrival} {missing : List Fragment}
    (h : Unrouted keys key start taken reassembly)
    (hkeys : keys.length ≤ slots) (hadmissible : Admissible keys start arrivals)
    (hdivision : Division datagram
      (taken ++ fragmentsFor key arrivals ++ missing))
    (hwanted : ∀ arrival ∈ arrivals, arrival.key = key →
      wanted registrations addrs arrival.ingress arrival.fragment =
        decide (arrival.fragment.header.offset ≠ 0)) :
    ∃ after routed,
      routeAll registrations addrs reassembly arrivals =
        .ok (after, routed) ∧
      (∀ packet ∈ routedFor key arrivals routed, packet = none) ∧
      Unrouted keys key start (taken ++ fragmentsFor key arrivals) after := by
  induction arrivals generalizing reassembly taken with
  | nil =>
      refine ⟨reassembly, [], rfl, ?_, ?_⟩
      · intro packet hpacket
        cases hpacket
      · simpa [fragmentsFor] using h
  | cons arrival arrivals ih =>
      have hmem := hadmissible.keyed arrival (List.mem_cons_self ..)
      have hwithin := hadmissible.within arrival (List.mem_cons_self ..)
      have hrest := fun later hlater =>
        hwanted later (List.mem_cons_of_mem arrival hlater)
      rw [fragmentsFor_cons] at hdivision ⊢
      by_cases hkey : arrival.key = key
      case neg =>
        rw [if_neg hkey] at hdivision ⊢
        have hnext : ∃ next packet,
            reassembleAndRoute registrations addrs reassembly arrival.ingress
              arrival.fragment arrival.now = .ok (next, packet) ∧
            Unrouted keys key start taken next := by
          rcases h with hrefused | ⟨hpending, hlater⟩
          · obtain ⟨next, packet, hroute, hsane, hkeyed, hsteady⟩ :=
              arrival_other registrations addrs hrefused.sane hrefused.keyed
                hkeys hmem hkey (hrefused.current hwithin)
            exact ⟨next, packet, hroute,
              .inl (hrefused.steady hsane hkeyed hsteady)⟩
          · obtain ⟨next, packet, hroute, hsane, hkeyed, hsteady⟩ :=
              arrival_other registrations addrs hpending.sane hpending.keyed
                hkeys hmem hkey (hpending.current hwithin)
            exact ⟨next, packet, hroute,
              .inr ⟨hpending.steady hsane hkeyed hsteady, hlater⟩⟩
        obtain ⟨next, packet, hroute, hnext⟩ := hnext
        obtain ⟨after, routed, hrun, hnone, hafter⟩ :=
          ih hnext hadmissible.tail hdivision hrest
        refine ⟨after, packet :: routed, ?_, ?_, hafter⟩
        · simp only [routeAll, hroute, hrun, bind, Except.bind]
        · rwa [routedFor_cons, if_neg hkey]
      subst hkey
      rw [if_pos rfl] at hdivision ⊢
      obtain ⟨next, hroute, hnext⟩ := arrival_unrouted h hkeys hmem hwithin
        (by simpa only [List.append_assoc, List.cons_append] using hdivision)
        (hwanted arrival (List.mem_cons_self ..) rfl)
      obtain ⟨after, routed, hrun, hnone, hafter⟩ := ih hnext hadmissible.tail
        (by simpa only [List.append_assoc, List.cons_append,
          List.nil_append] using hdivision) hrest
      refine ⟨after, none :: routed, ?_, ?_, ?_⟩
      · simp only [routeAll, hroute, hrun, bind, Except.bind]
      · rw [routedFor_cons, if_pos rfl, List.forall_mem_cons]
        exact ⟨rfl, hnone⟩
      · simpa only [List.append_assoc, List.cons_append,
          List.nil_append] using hafter

theorem Unrouted.no_slot {piece : Fragment}
    (h : Unrouted keys key start taken reassembly) (hmem : piece ∈ taken)
    (hzero : piece.header.offset = 0) :
    reassembly.collecting.get key = none := by
  rcases h with hrefused | ⟨_, hlater⟩
  · obtain ⟨since, hsince, _⟩ := hrefused.discarded
    rw [LinearMap.get_eq_none_iff]
    intro slot hslot
    exact hrefused.sane.separate key slot since hslot hsince
  · exact absurd hzero (hlater piece hmem)

end Runs

end Arrivals

/-! ## The headers of the first fragment -/

section Headers

variable {link : LinkHeader} {ip : IpHeader} {srcPort dstPort : UInt16}
  {length checksum : Nat} {payload : Bytes} {piece : Fragment}

def headerOf (link : LinkHeader) (ip : IpHeader) : FragmentHeader :=
  ⟨ip.source, ip.dest, ip.ident, 0, false, ip.ttl, link.dstMac, link.srcMac⟩

theorem first_data
    (hdivision : Division
      (udpLayout srcPort dstPort length checksum ++ payload)
      (fragmentsFrom header 0 parts))
    (hmem : piece ∈ fragmentsFrom header 0 parts)
    (hzero : piece.header.offset = 0) :
    ∃ rest, piece.data = udpLayout srcPort dstPort length checksum ++ rest := by
  have hheaders := hdivision.headed piece hmem hzero
  have hlong : udpHeaderSize ≤ piece.data.length := by
    by_contra hshort
    rw [headers_of_short (Nat.lt_of_not_le hshort)] at hheaders
    cases hheaders
  have htake : piece.data.take udpHeaderSize =
      udpLayout srcPort dstPort length checksum := by
    apply List.ext_getElem?
    intro index
    rcases Nat.lt_or_ge index udpHeaderSize with hinside | hbehind
    · have hdata := hdivision.data piece hmem index (by omega)
      rw [hzero, Nat.zero_add, List.getElem?_append_left (by
        rw [udpLayout_length]
        exact hinside)] at hdata
      rw [List.getElem?_take_of_lt hinside, hdata]
    · rw [List.getElem?_take_eq_none hbehind, List.getElem?_eq_none (by
        rw [udpLayout_length]
        exact hbehind)]
  refine ⟨piece.data.drop udpHeaderSize, ?_⟩
  rw [← htake, List.take_append_drop]

theorem headers_layout (hzero : piece.header.offset = 0) {rest : Bytes}
    (hdata : piece.data = udpLayout srcPort dstPort length checksum ++ rest) :
    piece.headers = some ⟨⟨piece.header.source, srcPort⟩,
      ⟨piece.header.dest, dstPort⟩, piece.header.ttl, piece.header.dstMac,
      piece.header.srcMac, []⟩ := by
  have hport : ∀ port : UInt16,
      UInt16.ofNat (be16 (UInt8.ofNat (port.toNat / 256))
        (UInt8.ofNat port.toNat)) = port := by
    intro port
    rw [be16_toBe16 port.toNat_lt, UInt16.ofNat_toNat]
  simp only [Fragment.headers, hzero, hdata, udpLayout, toBe16, ne_eq,
    not_true_eq_false, if_false, List.cons_append, List.nil_append, hport]

variable {Handler : Type} {registrations : Arena (Registration Handler)}
  {addrs : CaptureKey → Option InterfaceAddresses} {ingress : CaptureKey}

theorem wanted_later (hlater : piece.header.offset ≠ 0) :
    wanted registrations addrs ingress piece = true := by
  simp only [wanted, Fragment.headers, if_pos hlater]

theorem wanted_first
    (hdivision : Division
      (udpLayout srcPort dstPort length checksum ++ payload)
      (fragmentsFrom (headerOf link ip) 0 parts))
    (hmem : piece ∈ fragmentsFrom (headerOf link ip) 0 parts)
    (hzero : piece.header.offset = 0) :
    wanted registrations addrs ingress piece =
      wouldRoute registrations addrs ingress
        (packetOf link ip srcPort dstPort payload) := by
  obtain ⟨rest, hdata⟩ := first_data hdivision hmem hzero
  rw [wanted, headers_layout hzero hdata]
  obtain ⟨before, part, after, _, rfl⟩ := mem_fragmentsFrom.mp hmem
  rfl

end Headers

/-! ## Transparency -/

theorem whole_frame (link : LinkHeader) (ip : IpHeader)
    (srcPort dstPort : UInt16) (checksum : Nat) {payload : Bytes}
    (hfits : udpHeaderSize + payload.length ≤ maxDatagramLen) :
    ∃ header,
      ip.write (ip.size false) (udpHeaderSize + payload.length) none =
        .ok header ∧
      Parsed.parse link.linkType (link.write ip.isV6 ++ header ++
        (udpLayout srcPort dstPort (udpHeaderSize + payload.length) checksum ++
          payload)) =
        .ok (.datagram (packetOf link ip srcPort dstPort payload)) := by
  have hmax : maxDatagramLen < 65536 - ipv4HeaderSize := by decide
  have hlength : (udpLayout srcPort dstPort (udpHeaderSize + payload.length)
      checksum ++ payload).length = udpHeaderSize + payload.length := by
    rw [List.length_append, udpLayout_length]
  have hip : ip.Fits false (udpHeaderSize + payload.length) := by
    cases ip with
    | v4 src dst ttl id =>
        simp only [IpHeader.Fits]
        omega
    | v6 src dst hopLimit id =>
        simp only [IpHeader.Fits, IpHeader.size, Bool.false_eq_true, if_false]
        omega
  rw [← hlength] at hip
  obtain ⟨header, hwrite, _, hparse⟩ := write_whole ip hip
  rw [hlength] at hwrite
  refine ⟨header, hwrite, ?_⟩
  rw [hparse, datagram, parseUdp_layout srcPort dstPort checksum (by omega)]
  rfl

/-- Routing of one datagram that came in fragments, compared with its packet. -/
structure Transparent {Handler : Type}
    (registrations : Arena (Registration Handler))
    (addrs : CaptureKey → Option InterfaceAddresses) (key : DatagramKey)
    (packet : Packet) (arrivals : List Arrival) : Prop where
  /-- The packet is routed once, with the fragment that comes last. -/
  routed : wouldRoute registrations addrs key.ingress packet = true →
    ∃ after routed,
      routeAll registrations addrs .new arrivals = .ok (after, routed) ∧
      routedFor key arrivals routed =
        List.replicate ((fragmentsFor key arrivals).length - 1) none ++
          [some packet]
  /-- Nothing is routed, and nothing is held behind the first fragment. -/
  ignored : wouldRoute registrations addrs key.ingress packet = false →
    ∀ seen rest, arrivals = seen ++ rest →
      ∃ after routed,
        routeAll registrations addrs .new seen = .ok (after, routed) ∧
        (∀ packet ∈ routedFor key seen routed, packet = none) ∧
        ((∃ piece ∈ fragmentsFor key seen, piece.header.offset = 0) →
          after.collecting.get key = none)

theorem fragmentation_transparent {Handler : Type}
    (registrations : Arena (Registration Handler))
    (addrs : CaptureKey → Option InterfaceAddresses) (ingress : CaptureKey)
    (link : LinkHeader) (ip : IpHeader) (srcPort dstPort : UInt16)
    (checksum : UInt16) (payload : Bytes)
    (hfits : udpHeaderSize + payload.length ≤ maxDatagramLen)
    (hchecks : ip.ChecksumHolds
      (udpLayout srcPort dstPort (udpHeaderSize + payload.length)
        checksum.toNat) payload checksum.toNat)
    (parts : List Bytes)
    (hsplit : Split
      (udpLayout srcPort dstPort (udpHeaderSize + payload.length)
        checksum.toNat ++ payload) parts)
    (arrivals : List Arrival) (others : List DatagramKey) (start : Nat)
    (hothers : others.length ≤ 15)
    (hkeys : ∀ arrival ∈ arrivals,
      arrival.key = ⟨ingress, ip.source, ip.dest, ip.ident⟩ ∨
        arrival.key ∈ others)
    (hwithin : ∀ arrival ∈ arrivals, arrival.Within start)
    (hown : (fragmentsFor ⟨ingress, ip.source, ip.dest, ip.ident⟩
      arrivals).Perm (fragmentsFrom (headerOf link ip) 0 parts)) :
    ∃ header packet,
      ip.write (ip.size false) (udpHeaderSize + payload.length) none =
        .ok header ∧
      Parsed.parse link.linkType (link.write ip.isV6 ++ header ++
        (udpLayout srcPort dstPort (udpHeaderSize + payload.length)
          checksum.toNat ++ payload)) = .ok (.datagram packet) ∧
      Transparent registrations addrs
        ⟨ingress, ip.source, ip.dest, ip.ident⟩ packet arrivals := by
  obtain ⟨header, hwrite, hparse⟩ :=
    whole_frame link ip srcPort dstPort checksum.toNat hfits
  refine ⟨header, packetOf link ip srcPort dstPort payload, hwrite, hparse, ?_⟩
  have hmax : maxDatagramLen < 65536 := by decide
  have hpieces : Division _ (fragmentsFrom (headerOf link ip) 0 parts) :=
    division_of_split hsplit (by rwa [List.length_append, udpLayout_length])
  have hdivision := hpieces.perm hown
  generalize hkey : (⟨ingress, ip.source, ip.dest, ip.ident⟩ : DatagramKey) =
    key at *
  have hingress : key.ingress = ingress := by rw [← hkey]
  have hroom : (key :: others).length ≤ slots := by
    rw [List.length_cons]
    exact Nat.succ_le_succ hothers
  have hadmissible : Admissible (key :: others) start arrivals :=
    ⟨fun arrival hmem => List.mem_cons.mpr (hkeys arrival hmem), hwithin⟩
  have hpiece : ∀ arrival ∈ arrivals, arrival.key = key →
      arrival.ingress = ingress ∧
        arrival.fragment ∈ fragmentsFrom (headerOf link ip) 0 parts := by
    intro arrival hmem hsame
    refine ⟨?_, hown.mem_iff.mp ?_⟩
    · rw [← hingress, ← hsame]
      rfl
    · exact List.mem_map_of_mem
        (List.mem_filter.mpr ⟨hmem, decide_eq_true hsame⟩)
  constructor
  · intro hroute
    apply run_wanted (pending_new (key :: others) key start) hroom hadmissible
      hdivision
    · intro hnil
      obtain ⟨piece, hmem, _⟩ := hdivision.headedBy
      rw [hnil] at hmem
      cases hmem
    · intro arrival hmem hsame
      obtain ⟨hin, hfragment⟩ := hpiece arrival hmem hsame
      by_cases hzero : arrival.fragment.header.offset = 0
      · rw [wanted_first hpieces hfragment hzero, hin, ← hingress]
        exact hroute
      · exact wanted_later hzero
    · intro piece hmem
      obtain ⟨before, part, after, _, rfl⟩ :=
        mem_fragmentsFrom.mp (hown.mem_iff.mp hmem)
      exact reassembled_layout (by omega) checksum.toNat_lt hchecks rfl rfl
  · rintro hroute seen rest rfl
    have hsplits : fragmentsFor key (seen ++ rest) =
        fragmentsFor key seen ++ fragmentsFor key rest := by
      simp only [fragmentsFor, List.filter_append, List.map_append]
    rw [hsplits] at hdivision
    obtain ⟨after, routed, hrun, hnone, hafter⟩ := run_unwanted
      (.inr ⟨pending_new (key :: others) key start, by simp⟩) hroom
      ⟨fun arrival hmem => hadmissible.keyed arrival
        (List.mem_append_left _ hmem), fun arrival hmem =>
        hadmissible.within arrival (List.mem_append_left _ hmem)⟩
      hdivision (fun arrival hmem hsame => by
        obtain ⟨hin, hfragment⟩ :=
          hpiece arrival (List.mem_append_left _ hmem) hsame
        by_cases hzero : arrival.fragment.header.offset = 0
        · rw [wanted_first hpieces hfragment hzero, hin, ← hingress, hroute,
            hzero]
          rfl
        · rw [wanted_later hzero, decide_eq_true hzero])
    refine ⟨after, routed, hrun, hnone, ?_⟩
    rintro ⟨piece, hmem, hzero⟩
    exact hafter.no_slot hmem hzero

def anyOnFirst : Arena (Registration Unit) :=
  ⟨[⟨0, some ⟨⟨0⟩, .any, some ()⟩⟩], []⟩

def hostHeader : IpHeader := .v4 hostV4.ip hostV4.ip 64 7

def twoParts : List Bytes :=
  [udpLayout 3702 3702 24 0 ++ List.replicate 8 0x6a, List.replicate 8 0x6a]

def hostArrival (ident : UInt32) (units : Fin 8192) (more : Bool)
    (data : Bytes) (now : Nat) : Arrival :=
  ⟨⟨0⟩, ⟨⟨hostHeader.source, hostHeader.dest, ident,
      units.val * fragmentUnit, more, 64, none, none⟩, data⟩, now,
    ⟨units.val, units.isLt, rfl⟩⟩

/-- The second part, a fragment of another datagram, then the first part. -/
def swappedArrivals : List Arrival :=
  [hostArrival 7 2 false (List.replicate 8 0x6a) 100,
    hostArrival 8 2 true (List.replicate 3 0x6a) 150,
    hostArrival 7 0 true
      (udpLayout 3702 3702 24 0 ++ List.replicate 8 0x6a) 200]

theorem fragmentation_transparent_swapped :
    wouldRoute anyOnFirst (fun _ => none) ⟨0⟩
        (packetOf .rawIp hostHeader 3702 3702 sixteenBytes) = true ∧
      ∃ header packet,
        hostHeader.write (hostHeader.size false) 24 none = .ok header ∧
        Parsed.parse .rawIp (LinkHeader.rawIp.write false ++ header ++
          (udpLayout 3702 3702 24 0 ++ sixteenBytes)) =
            .ok (.datagram packet) ∧
        Transparent anyOnFirst (fun _ => none)
          ⟨⟨0⟩, hostHeader.source, hostHeader.dest, 7⟩ packet
          swappedArrivals := by
  have hsplit : Split (udpLayout 3702 3702 24 0 ++ sixteenBytes) twoParts := by
    constructor
    · decide
    · decide
    · decide
    · decide
  have hwithin : ∀ arrival ∈ swappedArrivals,
      100 ≤ arrival.now ∧ arrival.now < 100 + expiry := by decide
  refine ⟨by decide, ?_⟩
  exact fragmentation_transparent anyOnFirst (fun _ => none) ⟨0⟩ .rawIp
    hostHeader 3702 3702 0 sixteenBytes (by decide) (.inr ⟨rfl, rfl⟩) twoParts
    hsplit swappedArrivals
    [⟨⟨0⟩, hostHeader.source, hostHeader.dest, 8⟩] 100 (by decide)
    (by decide) hwithin (by decide)

end Netflector.Dispatch
