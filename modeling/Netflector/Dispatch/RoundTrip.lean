import Netflector.Dispatch.Completion
import Netflector.Net.Fragmentation

/-!
# The round trip

What goes out as frames comes back as the packet that was laid out: parsed from
its only frame, or reassembled from its fragments in any order.
-/

namespace Netflector.Dispatch

open Netflector.Foundation
open Netflector.Net

/-! ## The fragments divide the datagram -/

theorem headers_isSome {fragment : Fragment}
    (hzero : fragment.header.offset = 0)
    (hlength : udpHeaderSize ≤ fragment.data.length) :
    fragment.headers.isSome := by
  simp only [Fragment.headers]
  rw [if_neg (by simpa using hzero)]
  generalize fragment.data = data at *
  unfold udpHeaderSize at hlength
  rcases data with _ | ⟨_, _ | ⟨_, _ | ⟨_, _ | ⟨_, _ | ⟨_, _ | ⟨_, _ | ⟨_, _ |
    ⟨_, rest⟩⟩⟩⟩⟩⟩⟩⟩
  case cons.cons.cons.cons.cons.cons.cons.cons => rfl
  all_goals
    simp only [List.length_cons, List.length_nil] at hlength
    omega

theorem headers_of_short {fragment : Fragment}
    (hlength : fragment.data.length < udpHeaderSize) :
    fragment.headers = none := by
  simp only [Fragment.headers]
  split
  · rfl
  generalize fragment.data = data at *
  unfold udpHeaderSize at hlength
  rcases data with _ | ⟨_, _ | ⟨_, _ | ⟨_, _ | ⟨_, _ | ⟨_, _ | ⟨_, _ | ⟨_, _ |
    ⟨_, rest⟩⟩⟩⟩⟩⟩⟩⟩
  case cons.cons.cons.cons.cons.cons.cons.cons =>
    simp only [List.length_cons] at hlength
    omega
  all_goals rfl

variable {frames : UdpFrames} {mtu : Nat}

def fragmentsOf (frames : UdpFrames) : List Fragment :=
  (List.range frames.count).map frames.fragment

theorem mem_fragmentsOf {piece : Fragment} :
    piece ∈ fragmentsOf frames ↔
      ∃ index, index < frames.count ∧ frames.fragment index = piece := by
  simp only [fragmentsOf, List.mem_map, List.mem_range]

theorem fragment_stop (h : frames.Cut mtu) {index : Nat}
    (hindex : index < frames.count) :
    Fragment.stop (frames.fragment index) =
      min (index * frames.chunk + frames.chunk) frames.datagramLen := by
  rw [h.lt_count] at hindex
  have hlength := h.part_length index
  simp only [Fragment.stop, UdpFrames.fragment]
  omega

theorem fragment_more (h : frames.Cut mtu) {index : Nat} :
    (frames.fragment index).header.more = true ↔
      index * frames.chunk + frames.chunk < frames.datagramLen := by
  simp only [UdpFrames.fragment, decide_eq_true_iff]
  rw [h.lt_count, Nat.succ_mul]

theorem fragment_covers (h : frames.Cut mtu) {index position : Nat}
    (hindex : index < frames.count) :
    Fragment.Covers (frames.fragment index) position ↔
      index * frames.chunk ≤ position ∧
        position < index * frames.chunk + frames.chunk ∧
        position < frames.datagramLen := by
  simp only [Fragment.Covers]
  rw [fragment_stop h hindex, Nat.lt_min]
  rfl

theorem fragments_apart (h : frames.Cut mtu) :
    (fragmentsOf frames).Pairwise Fragment.Apart := by
  rw [fragmentsOf, List.pairwise_map]
  apply List.Pairwise.imp_of_mem _ List.pairwise_lt_range
  intro first second hfirst hsecond hlt position hcovers hcovers'
  rw [List.mem_range] at hfirst hsecond
  rw [fragment_covers h hfirst] at hcovers
  rw [fragment_covers h hsecond] at hcovers'
  have hle := Nat.mul_le_mul_right frames.chunk (Nat.succ_le_of_lt hlt)
  rw [Nat.succ_mul] at hle
  omega

theorem division_of_cut (h : frames.Cut mtu)
    (hfragmented : frames.fragmented = true)
    (hfits : frames.datagramLen ≤ maxDatagramLen) :
    Division frames.datagram (fragmentsOf frames) := by
  obtain ⟨hunit, hpos, _⟩ := h.parts hfragmented
  have hlength := h.datagram_length
  have hcount := h.fragmented_iff.mp hfragmented
  constructor
  case fits => rwa [hlength]
  case apart => exact fragments_apart h
  case aligned =>
    intro piece hpiece
    obtain ⟨index, hindex, rfl⟩ := mem_fragmentsOf.mp hpiece
    simp only [Fragment.Aligned, UdpFrames.fragment]
    rw [Nat.mul_mod, hunit, Nat.mul_zero, Nat.zero_mod]
  case whole =>
    intro piece hpiece hmore
    obtain ⟨index, hindex, rfl⟩ := mem_fragmentsOf.mp hpiece
    rw [fragment_more h] at hmore
    have hpart : (frames.fragment index).data.length = frames.chunk := by
      simp only [UdpFrames.fragment]
      rw [h.part_length]
      omega
    rw [hpart, hunit]
  case headed =>
    intro piece hpiece hzero
    obtain ⟨index, hindex, rfl⟩ := mem_fragmentsOf.mp hpiece
    apply headers_isSome hzero
    have hchunk := h.chunk_ge
    have hdatagram : udpHeaderSize ≤ frames.datagramLen := Nat.le_add_right _ _
    simp only [UdpFrames.fragment] at *
    rw [h.part_length]
    omega
  case nonempty =>
    intro piece hpiece
    obtain ⟨index, hindex, rfl⟩ := mem_fragmentsOf.mp hpiece
    rw [fragment_covers h hindex]
    rw [h.lt_count] at hindex
    simp only [UdpFrames.fragment]
    omega
  case inside =>
    intro piece hpiece
    obtain ⟨index, hindex, rfl⟩ := mem_fragmentsOf.mp hpiece
    rw [fragment_stop h hindex, hlength]
    exact Nat.min_le_right _ _
  case last =>
    intro piece hpiece hmore
    obtain ⟨index, hindex, rfl⟩ := mem_fragmentsOf.mp hpiece
    rw [← Bool.not_eq_true, fragment_more h] at hmore
    rw [fragment_stop h hindex, hlength]
    omega
  case data =>
    intro piece hpiece position hposition
    obtain ⟨index, hindex, rfl⟩ := mem_fragmentsOf.mp hpiece
    simp only [UdpFrames.fragment, UdpFrames.part] at *
    rw [List.length_take] at hposition
    rw [List.getElem?_take_of_lt (by omega), List.getElem?_drop]
  case covered =>
    intro position hposition
    rw [hlength] at hposition
    have hdiv := Nat.div_add_mod' position frames.chunk
    have hmod := Nat.mod_lt position hpos
    have hindex : position / frames.chunk < frames.count := by
      rw [h.lt_count]
      omega
    refine ⟨_, mem_fragmentsOf.mpr ⟨_, hindex, rfl⟩, ?_⟩
    rw [fragment_covers h hindex]
    omega
  case headedBy =>
    refine ⟨_, mem_fragmentsOf.mpr ⟨0, by omega, rfl⟩, ?_⟩
    simp only [UdpFrames.fragment, Nat.zero_mul]
  case endedBy =>
    refine ⟨_, mem_fragmentsOf.mpr ⟨frames.count - 1, by omega, rfl⟩, ?_⟩
    simp only [UdpFrames.fragment, decide_eq_false_iff_not]
    omega

/-! ## There and back -/

structure ParsesTo (frames : UdpFrames) (link : LinkHeader) (id : UInt32)
    (written : List Bytes) (fragments : List Fragment) : Prop where
  length : fragments.length = frames.count
  parse : ∀ (index : Nat) frame fragment, written[index]? = some frame →
    fragments[index]? = some fragment →
    Parsed.parse link.linkType frame = .ok (.fragment fragment)
  ident : ∀ fragment ∈ fragments, fragment.header.id = id
  aligned : ∀ fragment ∈ fragments, fragment.header.offset % 8 = 0
  more : ∀ (index : Nat) fragment, fragments[index]? = some fragment →
    (fragment.header.more = false ↔ index + 1 = frames.count)

/-- Offered in this order to a fresh reassembler, the fragments complete with
the last, and give the packet back. -/
def Completes (order : List Fragment) (packet : Packet) : Prop :=
  ∀ ingress now, ∃ after done,
    Reassembler.new.offerAll ingress now order =
      .ok (after, List.replicate (order.length - 1) none ++ [some done]) ∧
    done.packet = .ok packet

structure RoundTrips (frames : UdpFrames) (link : LinkHeader)
    (packet : Packet) (id : UInt32) (mtu : Nat) (written : List Bytes) :
    Prop where
  count : written.length = frames.count
  writes : ∀ (index : Nat) frame, written[index]? = some frame →
    frames.Writes index frame ∧ frame.length ≤ link.size + mtu
  whole : frames.count = 1 → ∀ frame ∈ written,
    Parsed.parse link.linkType frame = .ok (.datagram packet)
  parts : 2 ≤ frames.count → ∃ fragments,
    ParsesTo frames link id written fragments ∧
      (frames.datagramLen ≤ maxDatagramLen →
        ∀ order, order.Perm fragments → Completes order packet)

theorem exists_list {Value : Type} {P : Nat → Value → Prop} {count : Nat}
    (h : ∀ index, index < count → ∃ value, P index value) :
    ∃ values : List Value, values.length = count ∧
      ∀ (index : Nat) value, values[index]? = some value →
        P index value := by
  induction count with
  | zero => exact ⟨[], rfl, by simp⟩
  | succ count ih =>
      obtain ⟨values, hlength, hvalues⟩ :=
        ih fun index hindex => h index (Nat.lt_succ_of_lt hindex)
      obtain ⟨value, hvalue⟩ := h count (Nat.lt_succ_self count)
      refine ⟨values ++ [value], by simp [hlength], ?_⟩
      intro index found hfound
      rcases Nat.lt_trichotomy index count with hlt | rfl | hgt
      · rw [List.getElem?_append_left (by omega)] at hfound
        exact hvalues index found hfound
      · rw [← hlength, List.getElem?_concat_length, Option.some.injEq]
          at hfound
        rwa [← hfound]
      · rw [List.getElem?_eq_none (by simp; omega)] at hfound
        cases hfound

section Laid

variable {link : LinkHeader} {ip : IpHeader} {srcPort dstPort : UInt16}
  {payload : Bytes}

def packetOf (link : LinkHeader) (ip : IpHeader) (srcPort dstPort : UInt16)
    (payload : Bytes) : Packet :=
  ⟨⟨ip.source, srcPort⟩, ⟨ip.dest, dstPort⟩, ip.ttl, link.dstMac, link.srcMac,
    payload⟩

theorem packet_of_bytes {done : Reassembled} {datagram : Bytes}
    (hlen : done.len = datagram.length)
    (hfits : datagram.length ≤ maxDatagramLen)
    (hbytes : done.buf.bytes.take datagram.length = datagram) :
    done.packet = Packet.reassembled done.first datagram := by
  have hsome : slice? done.buf.bytes 0 done.len = some datagram := by
    rw [slice?_eq_some_iff, hlen]
    refine ⟨Nat.zero_le _, ?_, hbytes.symm⟩
    rw [done.buf.bytes_length]
    exact hfits
  have hslice : (bytesAt done.buf.bytes 0 done.len :
      Except (Stop ParseError) Bytes) = .ok datagram := by
    rw [bytesAt, hsome]
    rfl
  simp only [Reassembled.packet, hslice, bind, Except.bind]

theorem laid_completes
    (h : frames.Laid link ip srcPort dstPort payload mtu)
    (hfragmented : frames.fragmented = true)
    (hfits : frames.datagramLen ≤ maxDatagramLen) {order : List Fragment}
    (horder : order.Perm (fragmentsOf frames)) :
    Completes order (packetOf link ip srcPort dstPort payload) := by
  have hdivision := (division_of_cut h.cut hfragmented hfits).perm horder
  have hheaders : ∀ piece ∈ order, piece.header.source = ip.source ∧
      piece.header.dest = ip.dest ∧ piece.header.id = ip.ident ∧
      piece.header.ttl = ip.ttl ∧ piece.header.dstMac = link.dstMac ∧
      piece.header.srcMac = link.srcMac := by
    intro piece hpiece
    obtain ⟨index, _, rfl⟩ := mem_fragmentsOf.mp (horder.mem_iff.mp hpiece)
    simp only [UdpFrames.fragment, h.ip_eq, h.link_eq, and_self]
  intro ingress now
  cases order with
  | nil =>
      obtain ⟨piece, hpiece, _⟩ := hdivision.headedBy
      cases hpiece
  | cons fragment left =>
      have hkey : ∀ piece ∈ fragment :: left,
          Reassembler.keyOf ingress piece =
            ⟨ingress, ip.source, ip.dest, ip.ident⟩ := by
        intro piece hpiece
        obtain ⟨hsource, hdest, hid, _⟩ := hheaders piece hpiece
        rw [Reassembler.keyOf, hsource, hdest, hid]
      obtain ⟨after, done, hoffers, hbytes, hlen, piece, hpiece, hfirst⟩ :=
        Reassembler.offerAll_complete hdivision hkey
          (Reassembler.underway_new _ now)
      obtain ⟨hsource, hdest, _, httl, hdstMac, hsrcMac⟩ :=
        hheaders piece hpiece
      rw [hfirst] at hsource hdest httl hdstMac hsrcMac
      refine ⟨after, done, hoffers, ?_⟩
      rw [hlen] at hbytes
      rw [packet_of_bytes hlen hdivision.fits hbytes,
        h.reassembled hsource hdest, httl, hdstMac, hsrcMac]
      rfl

theorem laid_parsesTo (h : frames.Laid link ip srcPort dstPort payload mtu)
    (hfragmented : frames.fragmented = true) {written : List Bytes}
    (hwritten : ∀ (index : Nat) frame, written[index]? = some frame →
      Parsed.parse link.linkType frame =
        .ok (.fragment (frames.fragment index))) :
    ParsesTo frames link ip.ident written (fragmentsOf frames) := by
  have hget : ∀ (index : Nat) fragment,
      (fragmentsOf frames)[index]? = some fragment →
      index < frames.count ∧ frames.fragment index = fragment := by
    intro index fragment hfragment
    simp only [fragmentsOf, List.getElem?_map, Option.map_eq_some_iff]
      at hfragment
    obtain ⟨found, hfound, rfl⟩ := hfragment
    obtain ⟨hindex, rfl⟩ := List.getElem?_eq_some_iff.mp hfound
    rw [List.length_range] at hindex
    rw [List.getElem_range]
    exact ⟨hindex, rfl⟩
  constructor
  case length => simp [fragmentsOf]
  case parse =>
    intro index frame fragment hframe hfragment
    rw [← (hget index fragment hfragment).2]
    exact hwritten index frame hframe
  case ident =>
    intro fragment hmem
    obtain ⟨index, _, rfl⟩ := mem_fragmentsOf.mp hmem
    simp only [UdpFrames.fragment, h.ip_eq]
  case aligned =>
    intro fragment hmem
    obtain ⟨index, _, rfl⟩ := mem_fragmentsOf.mp hmem
    obtain ⟨hunit, _⟩ := h.cut.parts hfragmented
    simp only [UdpFrames.fragment, fragmentUnit] at *
    rw [Nat.mul_mod, hunit, Nat.mul_zero, Nat.zero_mod]
  case more =>
    intro index fragment hfragment
    obtain ⟨hindex, rfl⟩ := hget index fragment hfragment
    simp only [UdpFrames.fragment, decide_eq_false_iff_not]
    omega

theorem laid_roundTrips
    (h : frames.Laid link ip srcPort dstPort payload mtu) :
    ∃ written, RoundTrips frames link
      (packetOf link ip srcPort dstPort payload) ip.ident mtu written := by
  have hlink := h.link_eq
  have hiff := h.cut.fragmented_iff
  cases hfragmented : frames.fragmented with
  | false =>
      obtain ⟨checksum, hudp, _⟩ := h.udp
      obtain ⟨frame, hwrites, hlength, hparse⟩ :=
        h.cut.frame_whole hfragmented hudp
      rw [hlink, h.ip_eq, h.payload_eq] at hparse
      rw [hlink] at hlength
      have hcount : frames.count = 1 := by
        have hpos : 0 < frames.count := by
          rw [h.cut.lt_count, Nat.zero_mul, UdpFrames.datagramLen]
          exact Nat.lt_of_lt_of_le (by decide) (Nat.le_add_right _ _)
        rw [hfragmented, Bool.false_eq_true, false_iff] at hiff
        omega
      refine ⟨[frame], ?_, ?_, ?_, ?_⟩
      · rw [hcount]
        rfl
      · intro index found hfound
        cases index with
        | zero =>
            cases hfound
            exact ⟨hwrites, hlength⟩
        | succ index => cases hfound
      · intro _
        rw [List.forall_mem_singleton]
        exact hparse
      · intro htwo
        omega
  | true =>
      obtain ⟨written, hlength, hwritten⟩ := exists_list
        fun index (hindex : index < frames.count) =>
          h.cut.frame_fragment hfragmented hindex
      rw [hlink] at hwritten
      refine ⟨written, hlength, ?_, ?_, ?_⟩
      · intro index frame hframe
        obtain ⟨hwrites, hbound, _⟩ := hwritten index frame hframe
        exact ⟨hwrites, hbound⟩
      · intro hone
        have hcount := hiff.mp hfragmented
        omega
      · intro _
        refine ⟨fragmentsOf frames, laid_parsesTo h hfragmented ?_, ?_⟩
        · intro index frame hframe
          exact (hwritten index frame hframe).2.2
        · intro hfits order horder
          exact laid_completes h hfragmented hfits horder

end Laid

/-- Every datagram of either family that can be laid out comes back. -/
theorem udpFrames_round_trip (link : LinkHeader) (ttl : UInt8)
    (payload : Bytes) (mtu : Nat) (frames : UdpFrames) :
    (∀ (src dst : SocketAddrV4) (id : UInt16),
      UdpFrames.ipv4 link src dst ttl id payload mtu = .ok frames →
      ∃ written, RoundTrips frames link
        ⟨⟨.v4 src.ip, src.port⟩, ⟨.v4 dst.ip, dst.port⟩, ttl, link.dstMac,
          link.srcMac, payload⟩ (UInt32.ofNat id.toNat) mtu written) ∧
    (∀ (src dst : SocketAddrV6) (id : UInt32),
      UdpFrames.ipv6 link src dst ttl id payload mtu = .ok frames →
      ∃ written, RoundTrips frames link
        ⟨⟨.v6 src.ip, src.port⟩, ⟨.v6 dst.ip, dst.port⟩, ttl, link.dstMac,
          link.srcMac, payload⟩ id mtu written) := by
  constructor
  · intro src dst id h
    exact laid_roundTrips (UdpFrames.ipv4_laid h)
  · intro src dst id h
    exact laid_roundTrips (UdpFrames.ipv6_laid h)

def sixteenBytes : Bytes := List.replicate 16 0x6a

def hostV4 : SocketAddrV4 := ⟨⟨[10, 0, 70, 70], rfl⟩, 3702⟩

def hostV6 : SocketAddrV6 := ⟨⟨List.replicate 15 0 ++ [1], rfl⟩, 3702⟩

theorem udpFrames_round_trip_sixteenBytes :
    (∃ frames, UdpFrames.ipv4 .rawIp hostV4 hostV4 64 7 sixteenBytes 36 =
        .ok frames ∧ frames.count = 2 ∧
      ∃ written, RoundTrips frames .rawIp
        ⟨⟨.v4 hostV4.ip, 3702⟩, ⟨.v4 hostV4.ip, 3702⟩, 64, none, none,
          sixteenBytes⟩ 7 36 written) ∧
    ∃ frames, UdpFrames.ipv6 .dltNull hostV6 hostV6 64 7 sixteenBytes 56 =
        .ok frames ∧ frames.count = 3 ∧
      ∃ written, RoundTrips frames .dltNull
        ⟨⟨.v6 hostV6.ip, 3702⟩, ⟨.v6 hostV6.ip, 3702⟩, 64, none, none,
          sixteenBytes⟩ 7 56 written := by
  have hcount4 : (UdpFrames.ipv4 .rawIp hostV4 hostV4 64 7 sixteenBytes
      36).map UdpFrames.count = .ok 2 := by decide +kernel
  have hcount6 : (UdpFrames.ipv6 .dltNull hostV6 hostV6 64 7 sixteenBytes
      56).map UdpFrames.count = .ok 3 := by decide +kernel
  obtain ⟨frames4, hframes4, hcount4⟩ := except_map_ok hcount4
  obtain ⟨frames6, hframes6, hcount6⟩ := except_map_ok hcount6
  constructor
  · refine ⟨frames4, hframes4, hcount4, ?_⟩
    exact (udpFrames_round_trip .rawIp 64 sixteenBytes 36 frames4).1 hostV4
      hostV4 7 hframes4
  · refine ⟨frames6, hframes6, hcount6, ?_⟩
    exact (udpFrames_round_trip .dltNull 64 sixteenBytes 56 frames6).2 hostV6
      hostV6 7 hframes6

end Netflector.Dispatch
