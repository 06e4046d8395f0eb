import Netflector.Net.RoundTrip

/-!
# Frames of one datagram

Frame by frame, the datagram goes out cut into equal chunks; no length or index
that the code expects to be in range is out of it, and each frame reads back as
the chunk it carries.
-/

namespace Netflector.Net

open Netflector.Foundation

def IpHeader.Checks (ip : IpHeader) (header payload : Bytes) (checksum : Nat) :
    Prop :=
  match ip with
  | .v4 src dst _ _ => Checksum.udpV4 src dst header payload = .ok checksum
  | .v6 src dst _ _ => Checksum.udpV6 src dst header payload = .ok checksum

/-- A correct checksum, or none over IPv4. -/
def IpHeader.ChecksumHolds (ip : IpHeader) (header payload : Bytes)
    (checksum : Nat) : Prop :=
  ip.Checks header payload checksum ∨ (ip.isV6 = false ∧ checksum = 0)

theorem reassembled_layout {ip : IpHeader} {srcPort dstPort : UInt16}
    {checksum : Nat} {payload : Bytes}
    (hbound : udpHeaderSize + payload.length < 65536)
    (hlt : checksum < 65536)
    (hchecks : ip.ChecksumHolds
      (udpLayout srcPort dstPort (udpHeaderSize + payload.length) checksum)
      payload checksum)
    {first : FragmentHeader} (hsource : first.source = ip.source)
    (hdest : first.dest = ip.dest) :
    Packet.reassembled first
        (udpLayout srcPort dstPort (udpHeaderSize + payload.length) checksum ++
          payload) =
      .ok ⟨⟨ip.source, srcPort⟩, ⟨ip.dest, dstPort⟩, first.ttl, first.dstMac,
        first.srcMac, payload⟩ := by
  have hparse := parseUdp_layout srcPort dstPort checksum hbound
  generalize hudp : udpLayout srcPort dstPort (udpHeaderSize + payload.length)
    checksum = udp at *
  have hudpLength : udp.length = udpHeaderSize := by
    rw [← hudp]
    rfl
  have hheader : (udp ++ payload).take udpHeaderSize = udp :=
    List.take_left' hudpLength
  have hlength : (udp ++ payload).length = udpHeaderSize + payload.length := by
    rw [List.length_append, hudpLength]
  have hstored : (word udp 6 : Except (Stop ParseError) Nat) =
      .ok checksum := by
    have hfield : (word (toBe16 srcPort.toNat ++ toBe16 dstPort.toNat ++
        toBe16 (udpHeaderSize + payload.length) ++ (toBe16 checksum ++ [])) 6 :
        Except (Stop ParseError) Nat) = .ok checksum :=
      word_field _ rfl hlt
    rw [← hudp]
    exact hfield
  have hvalid : checksumValid first checksum udp payload = .ok true := by
    cases ip with
    | v4 src dst ttl id =>
        simp only [checksumValid, hsource, hdest, IpHeader.source,
          IpHeader.dest]
        rcases hchecks with hchecks | ⟨_, rfl⟩
        · have hsum : Checksum.udpV4 src dst udp payload = .ok checksum :=
            hchecks
          have hnonzero : checksum ≠ 0 :=
            Nat.pos_iff_ne_zero.mp (Checksum.udpV4_range hsum).1
          rw [if_neg hnonzero, hsum]
          simp [bind, Except.bind]
        · simp
    | v6 src dst hopLimit id =>
        simp only [checksumValid, hsource, hdest, IpHeader.source,
          IpHeader.dest]
        rcases hchecks with hchecks | ⟨hv4, _⟩
        · have hsum : Checksum.udpV6 src dst udp payload = .ok checksum :=
            hchecks
          simp [hsum, bind, Except.bind]
        · cases hv4
  simp only [Packet.reassembled, hparse, hheader, hstored, hvalid, bind,
    Except.bind]
  rw [if_neg (by omega), if_neg (by omega), hsource, hdest]
  rfl

namespace UdpFrames

def datagram (frames : UdpFrames) : Bytes := frames.udp ++ frames.payload

def part (frames : UdpFrames) (index : Nat) : Bytes :=
  (frames.datagram.drop (index * frames.chunk)).take frames.chunk

def fragment (frames : UdpFrames) (index : Nat) : Fragment :=
  ⟨⟨frames.ip.source, frames.ip.dest, frames.ip.ident, index * frames.chunk,
    decide (index + 1 < frames.count), frames.ip.ttl, frames.link.dstMac,
    frames.link.srcMac⟩, frames.part index⟩

structure Cut (frames : UdpFrames) (mtu : Nat) : Prop where
  header : frames.udp.length = udpHeaderSize
  bound : frames.ip.Fits false frames.datagramLen
  whole : frames.fragmented = false → frames.chunk = frames.datagramLen ∧
    frames.ip.size false + frames.datagramLen ≤ mtu
  parts : frames.fragmented = true → frames.chunk % fragmentUnit = 0 ∧
    0 < frames.chunk ∧ frames.ip.size true + frames.chunk ≤ mtu ∧
    frames.ip.size true + frames.chunk <
      frames.ip.size false + frames.datagramLen

variable {frames : UdpFrames} {mtu : Nat}

theorem new_cut {link : LinkHeader} {ip : IpHeader} {udp payload : Bytes}
    (hudp : udp.length = udpHeaderSize)
    (hbound : ip.Fits false (udpHeaderSize + payload.length))
    (h : new link ip udp payload mtu = .ok frames) :
    frames.link = link ∧ frames.ip = ip ∧ frames.udp = udp ∧
      frames.payload = payload ∧ frames.Cut mtu := by
  simp only [new] at h
  split at h
  · rename_i hwhole
    cases h
    refine ⟨rfl, rfl, rfl, rfl, hudp, hbound, fun _ => ⟨rfl, hwhole⟩, ?_⟩
    intro hfragmented
    cases hfragmented
  rename_i hlarge
  split at h
  · cases h
  rename_i hroom
  cases h
  refine ⟨rfl, rfl, rfl, rfl, hudp, hbound, ?_, ?_⟩
  · intro hfragmented
    cases hfragmented
  · intro _
    simp only [fragmentUnit, datagramLen] at *
    omega

/-! ## Chunks -/

theorem size_le (ip : IpHeader) : ip.size false ≤ ip.size true := by
  cases ip with
  | v4 => exact Nat.le_refl _
  | v6 => exact Nat.le_add_right _ _

theorem Cut.chunk_pos (h : frames.Cut mtu) : 0 < frames.chunk := by
  cases hfragmented : frames.fragmented with
  | false =>
      rw [(h.whole hfragmented).1, datagramLen]
      exact Nat.lt_of_lt_of_le (by decide) (Nat.le_add_right _ _)
  | true => exact (h.parts hfragmented).2.1

theorem Cut.chunk_ge (h : frames.Cut mtu) : udpHeaderSize ≤ frames.chunk := by
  cases hfragmented : frames.fragmented with
  | false =>
      rw [(h.whole hfragmented).1, datagramLen]
      exact Nat.le_add_right _ _
  | true =>
      obtain ⟨hunit, hpos, _⟩ := h.parts hfragmented
      simp only [fragmentUnit, udpHeaderSize] at *
      omega

theorem Cut.datagram_length (h : frames.Cut mtu) :
    frames.datagram.length = frames.datagramLen := by
  rw [datagram, List.length_append, h.header, datagramLen]

theorem Cut.lt_count (h : frames.Cut mtu) {index : Nat} :
    index < frames.count ↔ index * frames.chunk < frames.datagramLen := by
  have hpos := h.chunk_pos
  rw [count, ← Nat.succ_le_iff, Nat.le_div_iff_mul_le hpos, Nat.succ_mul]
  omega

theorem Cut.fragmented_iff (h : frames.Cut mtu) :
    frames.fragmented = true ↔ 1 < frames.count := by
  rw [h.lt_count, Nat.one_mul]
  constructor
  · intro hfragmented
    have hsize := size_le frames.ip
    have hparts := (h.parts hfragmented).2.2.2
    omega
  · intro hlt
    by_contra hwhole
    rw [Bool.not_eq_true] at hwhole
    have hchunk := (h.whole hwhole).1
    omega

/-- The header stands apart from the payload, but what goes out is a slice of
the two together. -/
theorem body_ok {start stop : Nat} (hheader : frames.udp.length = udpHeaderSize)
    (hstart : start = 0 ∨ udpHeaderSize ≤ start) (hle : start ≤ stop)
    (hfirst : udpHeaderSize ≤ stop) (hstop : stop ≤ frames.datagramLen) :
    frames.body start stop =
      .ok ((frames.datagram.drop start).take (stop - start)) := by
  simp only [datagramLen] at hstop
  simp only [body, datagram]
  rcases hstart with rfl | hbehind
  · have hpayload : slice? frames.payload 0 (stop - udpHeaderSize) =
        some (frames.payload.take (stop - udpHeaderSize)) :=
      slice?_eq_some_iff.mpr ⟨Nat.zero_le _, by omega, rfl⟩
    have hudp : frames.udp.take stop = frames.udp :=
      List.take_of_length_le (by omega)
    rw [if_pos rfl, if_neg (by omega)]
    simp only [hpayload, orPanic_some, bind, Except.bind]
    rw [List.drop_zero, Nat.sub_zero, List.take_append, hheader, hudp]
  · have hpayload : slice? frames.payload (start - udpHeaderSize)
          (stop - udpHeaderSize) =
        some ((frames.payload.drop (start - udpHeaderSize)).take
          (stop - udpHeaderSize - (start - udpHeaderSize))) :=
      slice?_eq_some_iff.mpr ⟨by omega, by omega, rfl⟩
    have hudp : frames.udp.drop start = [] :=
      List.drop_of_length_le (by omega)
    have hpos : start ≠ 0 := by
      unfold udpHeaderSize at hbehind
      omega
    have hlen : stop - udpHeaderSize - (start - udpHeaderSize) =
        stop - start := by omega
    rw [if_neg hpos, hpayload, orPanic_some, List.drop_append, hheader, hudp,
      List.nil_append, hlen]

theorem Cut.part_eq (h : frames.Cut mtu) (index : Nat) :
    frames.part index = (frames.datagram.drop (index * frames.chunk)).take
      (min (index * frames.chunk + frames.chunk) frames.datagramLen -
        index * frames.chunk) := by
  have hlength := h.datagram_length
  unfold part
  rcases Nat.le_total (index * frames.chunk + frames.chunk)
    frames.datagramLen with hinside | hlast
  · rw [Nat.min_eq_left hinside, Nat.add_sub_cancel_left]
  · rw [Nat.min_eq_right hlast, List.take_of_length_le, List.take_of_length_le]
    · rw [List.length_drop, hlength]
    · rw [List.length_drop, hlength]
      omega

theorem Cut.part_length (h : frames.Cut mtu) (index : Nat) :
    (frames.part index).length =
      min (index * frames.chunk + frames.chunk) frames.datagramLen -
        index * frames.chunk := by
  rw [part, List.length_take, List.length_drop, h.datagram_length]
  omega

theorem Cut.body_part (h : frames.Cut mtu) {index : Nat}
    (hindex : index < frames.count) :
    frames.body (index * frames.chunk)
        (min (index * frames.chunk + frames.chunk) frames.datagramLen) =
      .ok (frames.part index) := by
  have hchunk := h.chunk_ge
  have hdatagram : udpHeaderSize ≤ frames.datagramLen := Nat.le_add_right _ _
  rw [h.lt_count] at hindex
  have hstart : index * frames.chunk = 0 ∨
      udpHeaderSize ≤ index * frames.chunk := by
    cases index with
    | zero => exact .inl (Nat.zero_mul _)
    | succ index =>
        right
        rw [Nat.succ_mul]
        omega
  rw [body_ok h.header hstart (by omega) (by omega) (by omega), h.part_eq]

/-! ## Written frames -/

theorem link_write_length (link : LinkHeader) (ipv6 : Bool) :
    (link.write ipv6).length = link.size := by
  cases link with
  | ethernet dst src =>
      simp only [LinkHeader.write, LinkHeader.size, List.length_append,
        dst.length_eq, src.length_eq, toBe16_length, ethernetHeaderSize]
  | dltNull => cases ipv6 <;> rfl
  | rawIp => rfl

theorem fits_lt {ip : IpHeader} {len : Nat} (h : ip.Fits false len) :
    len < 65536 := by
  cases ip with
  | v4 src dst ttl id =>
      simp only [IpHeader.Fits] at h
      omega
  | v6 src dst hopLimit id =>
      simp only [IpHeader.Fits] at h
      omega

theorem fits_mono {ip : IpHeader} {fragmented : Bool} {small large : Nat}
    (hle : ip.size fragmented + small ≤ ip.size false + large)
    (h : ip.Fits false large) : ip.Fits fragmented small := by
  cases ip with
  | v4 src dst ttl id =>
      simp only [IpHeader.Fits, IpHeader.size] at *
      omega
  | v6 src dst hopLimit id =>
      cases fragmented with
      | false =>
          simp only [IpHeader.Fits, IpHeader.size, Bool.false_eq_true,
            if_false] at *
          omega
      | true =>
          simp only [IpHeader.Fits, IpHeader.size, Bool.false_eq_true,
            if_false, if_true] at *
          omega

/-- What the frame at `index` holds, in a buffer that is large enough; and
every buffer that is not is refused. -/
def Writes (frames : UdpFrames) (index : Nat) (frame : Bytes) : Prop :=
  ∀ available, frames.write index available =
    if frame.length ≤ available then .ok frame
    else fail (.bufferTooSmall frame.length available)

theorem Cut.writes (h : frames.Cut mtu) {index : Nat}
    (hindex : index < frames.count) {placement : Option Placement}
    {header : Bytes}
    (hplacement : placement =
      if frames.fragmented then
        some ⟨index * frames.chunk, decide (index + 1 < frames.count)⟩
      else none)
    (hwrite : frames.ip.write (frames.ip.size frames.fragmented)
      (frames.part index).length placement = .ok header)
    (hheader : header.length = frames.ip.size frames.fragmented) :
    frames.Writes index
      (frames.link.write frames.ip.isV6 ++ header ++ frames.part index) := by
  have hbody := h.body_part hindex
  have hlength := h.part_length index
  have hmore : decide (index + 1 < frames.count) =
      decide (min (index * frames.chunk + frames.chunk) frames.datagramLen <
        frames.datagramLen) := by
    rw [decide_eq_decide, h.lt_count, Nat.succ_mul]
    omega
  have hframe : (frames.link.write frames.ip.isV6 ++ header ++
      frames.part index).length = frames.link.size +
        frames.ip.size frames.fragmented + (frames.part index).length := by
    rw [List.length_append, List.length_append, link_write_length, hheader]
  rw [hmore] at hplacement
  rw [h.lt_count] at hindex
  intro available
  simp only [write]
  rw [if_neg (by omega), ← hlength, ← hplacement, hframe]
  split
  · rename_i hsmall
    rw [if_neg (by omega)]
  · rename_i hlarge
    rw [if_pos (by omega), hwrite, hbody]
    rfl

theorem Cut.frame_whole (h : frames.Cut mtu) {srcPort dstPort : UInt16}
    {checksum : Nat} (hwhole : frames.fragmented = false)
    (hudp : frames.udp =
      udpLayout srcPort dstPort frames.datagramLen checksum) :
    ∃ frame, frames.Writes 0 frame ∧
      frame.length ≤ frames.link.size + mtu ∧
      Parsed.parse frames.link.linkType frame =
        .ok (.datagram ⟨⟨frames.ip.source, srcPort⟩,
          ⟨frames.ip.dest, dstPort⟩, frames.ip.ttl, frames.link.dstMac,
          frames.link.srcMac, frames.payload⟩) := by
  obtain ⟨hchunk, hmtu⟩ := h.whole hwhole
  have hlength := h.datagram_length
  have hpart : frames.part 0 = frames.datagram := by
    rw [part, Nat.zero_mul, List.drop_zero,
      List.take_of_length_le (by omega)]
  have hpartLength : (frames.part 0).length = frames.datagramLen := by
    rw [hpart, hlength]
  have hfits : frames.ip.Fits false (frames.part 0).length := by
    rw [hpartLength]
    exact h.bound
  obtain ⟨header, hwrite, hheader, hreads⟩ := write_whole frames.ip hfits
  rw [← hwhole] at hwrite hheader
  have hindex : 0 < frames.count := by
    rw [h.lt_count, Nat.zero_mul, datagramLen]
    exact Nat.lt_of_lt_of_le (by decide) (Nat.le_add_right _ _)
  refine ⟨_, h.writes hindex (by rw [hwhole]; rfl) hwrite hheader, ?_, ?_⟩
  · rw [List.length_append, List.length_append, link_write_length, hheader,
      hpartLength, hwhole]
    omega
  · rw [hreads]
    have hbound : udpHeaderSize + frames.payload.length < 65536 :=
      fits_lt h.bound
    simp only [Net.datagram, hpart, datagram, hudp, datagramLen,
      parseUdp_layout srcPort dstPort checksum hbound, bind, Except.bind]

theorem Cut.frame_fragment (h : frames.Cut mtu) {index : Nat}
    (hfragmented : frames.fragmented = true) (hindex : index < frames.count) :
    ∃ frame, frames.Writes index frame ∧
      frame.length ≤ frames.link.size + mtu ∧
      Parsed.parse frames.link.linkType frame =
        .ok (.fragment (frames.fragment index)) := by
  obtain ⟨hunit, hpos, hmtu, hless⟩ := h.parts hfragmented
  have hlength := h.part_length index
  have hcount := h.fragmented_iff.mp hfragmented
  have hfits : frames.ip.Fits true (frames.part index).length := by
    apply fits_mono _ h.bound
    omega
  have hoffset : index * frames.chunk =
      index * (frames.chunk / fragmentUnit) * fragmentUnit := by
    rw [Nat.mul_assoc, Nat.div_mul_cancel (Nat.dvd_of_mod_eq_zero hunit)]
  have hstart := h.lt_count.mp hindex
  have hbound := fits_lt h.bound
  have hunits : index * (frames.chunk / fragmentUnit) < 8192 := by
    simp only [fragmentUnit] at *
    omega
  have hpart : ¬ (index * (frames.chunk / fragmentUnit) = 0 ∧
      decide (index + 1 < frames.count) = false) := by
    rintro ⟨hzero, hlast⟩
    rw [hzero, Nat.zero_mul] at hoffset
    rw [decide_eq_false_iff_not] at hlast
    have : index = 0 := by
      rcases Nat.mul_eq_zero.mp hoffset with hindex0 | hchunk0
      · exact hindex0
      · omega
    omega
  obtain ⟨header, hwrite, hheader, hreads⟩ :=
    write_fragment frames.ip hfits hunits hpart
  rw [← hoffset] at hwrite hreads
  rw [← hfragmented] at hwrite hheader
  refine ⟨_, h.writes hindex (by rw [hfragmented]; rfl) hwrite hheader, ?_,
    hreads frames.link⟩
  rw [List.length_append, List.length_append, link_write_length, hheader,
    hfragmented]
  omega

/-! ## What the constructors lay out -/

structure Laid (frames : UdpFrames) (link : LinkHeader) (ip : IpHeader)
    (srcPort dstPort : UInt16) (payload : Bytes) (mtu : Nat) : Prop where
  link_eq : frames.link = link
  ip_eq : frames.ip = ip
  payload_eq : frames.payload = payload
  cut : frames.Cut mtu
  udp : ∃ checksum,
    frames.udp = udpLayout srcPort dstPort frames.datagramLen checksum ∧
    0 < checksum ∧ checksum < 65536 ∧
    ip.Checks frames.udp payload checksum

theorem udpHeader_ok {srcPort dstPort : UInt16} {payload udp : Bytes}
    {ipv4Header : Nat}
    (h : udpHeader srcPort dstPort payload ipv4Header = .ok udp) :
    ipv4Header + (udpHeaderSize + payload.length) < 65536 ∧
      udp = udpLayout srcPort dstPort (udpHeaderSize + payload.length) 0 := by
  simp only [udpHeader] at h
  split at h
  · cases h
  rename_i hbound
  split at h
  · cases h
  cases h
  exact ⟨Nat.lt_of_not_le hbound, rfl⟩

theorem overwrite_checksum (srcPort dstPort : UInt16)
    (length checksum : Nat) :
    overwrite (udpLayout srcPort dstPort length 0) 6 (toBe16 checksum) =
      udpLayout srcPort dstPort length checksum :=
  rfl

theorem ipv4_laid {link : LinkHeader} {src dst : SocketAddrV4} {ttl : UInt8}
    {id : UInt16} {payload : Bytes}
    (h : ipv4 link src dst ttl id payload mtu = .ok frames) :
    frames.Laid link (.v4 src.ip dst.ip ttl id) src.port dst.port payload
      mtu := by
  obtain ⟨udp, hudp, h⟩ := except_bind_ok h
  obtain ⟨hbound, rfl⟩ := udpHeader_ok hudp
  obtain ⟨checksum, hchecksum, h⟩ := except_bind_ok h
  have hsum := liftPanic_eq_ok hchecksum
  obtain ⟨hpos, hlt⟩ := Checksum.udpV4_range hsum
  have hfits : (IpHeader.v4 src.ip dst.ip ttl id).Fits false
      (udpHeaderSize + payload.length) := hbound
  rw [overwrite_checksum] at h
  obtain ⟨hlink, hip, hframes, hpayload, hcut⟩ := new_cut rfl hfits h
  refine ⟨hlink, hip, hpayload, hcut, checksum, ?_, hpos, hlt, ?_⟩
  · rw [hframes, datagramLen, hpayload]
  · rw [hframes]
    exact (Checksum.udpV4_congr rfl).trans hsum

theorem ipv6_laid {link : LinkHeader} {src dst : SocketAddrV6}
    {hopLimit : UInt8} {id : UInt32} {payload : Bytes}
    (h : ipv6 link src dst hopLimit id payload mtu = .ok frames) :
    frames.Laid link (.v6 src.ip dst.ip hopLimit id) src.port dst.port payload
      mtu := by
  obtain ⟨udp, hudp, h⟩ := except_bind_ok h
  obtain ⟨hbound, rfl⟩ := udpHeader_ok hudp
  obtain ⟨checksum, hchecksum, h⟩ := except_bind_ok h
  have hsum := liftPanic_eq_ok hchecksum
  obtain ⟨hpos, hlt⟩ := Checksum.udpV6_range hsum
  have hfits : (IpHeader.v6 src.ip dst.ip hopLimit id).Fits false
      (udpHeaderSize + payload.length) := by
    rw [Nat.zero_add] at hbound
    simpa [IpHeader.Fits, IpHeader.size] using hbound
  rw [overwrite_checksum] at h
  obtain ⟨hlink, hip, hframes, hpayload, hcut⟩ := new_cut rfl hfits h
  refine ⟨hlink, hip, hpayload, hcut, checksum, ?_, hpos, hlt, ?_⟩
  · rw [hframes, datagramLen, hpayload]
  · rw [hframes]
    exact (Checksum.udpV6_congr rfl).trans hsum

theorem Laid.reassembled {link : LinkHeader} {ip : IpHeader}
    {srcPort dstPort : UInt16} {payload : Bytes}
    (h : frames.Laid link ip srcPort dstPort payload mtu)
    {first : FragmentHeader} (hsource : first.source = ip.source)
    (hdest : first.dest = ip.dest) :
    Packet.reassembled first frames.datagram =
      .ok ⟨⟨ip.source, srcPort⟩, ⟨ip.dest, dstPort⟩, first.ttl, first.dstMac,
        first.srcMac, payload⟩ := by
  obtain ⟨checksum, hudp, hpos, hlt, hchecks⟩ := h.udp
  have hbound : udpHeaderSize + payload.length < 65536 := by
    rw [← h.payload_eq]
    exact fits_lt h.cut.bound
  rw [datagramLen, h.payload_eq] at hudp
  rw [hudp] at hchecks
  rw [datagram, hudp, h.payload_eq]
  exact reassembled_layout hbound hlt (.inl hchecks) hsource hdest

end UdpFrames

end Netflector.Net
