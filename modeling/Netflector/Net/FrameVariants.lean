import Netflector.Net.FrameReading

/-!
# Frames that read the same

A priority tag and the header of an atomic fragment make no difference to what
is read.
-/

namespace Netflector.Net

open Netflector.Foundation

/-! ## Tags -/

def tagged (frame : Bytes) (tciHigh tciLow : UInt8) : Bytes :=
  frame.take 12 ++ (toBe16 ethertypeVlan ++ [tciHigh, tciLow]) ++ frame.drop 12

theorem parseLinkHeader_macs {frame other l3 l3' : Bytes} {link : ParsedLink}
    (h : parseLinkHeader .ethernet frame = .ok link)
    (hl3 : ethernetL3 frame = .ok l3) (hother : ethernetL3 other = .ok l3')
    (hmacs : slice? other 0 6 = slice? frame 0 6 ∧
      slice? other 6 12 = slice? frame 6 12) :
    parseLinkHeader .ethernet other = .ok { link with l3 := l3' } := by
  obtain ⟨found, hfound, h⟩ := except_bind_ok h
  obtain ⟨dst, hdst, h⟩ := except_bind_ok h
  obtain ⟨dstMac, hdstMac, h⟩ := except_bind_ok h
  obtain ⟨src, hsrc, h⟩ := except_bind_ok h
  obtain ⟨srcMac, hsrcMac, h⟩ := except_bind_ok h
  cases h
  have hdst' : (bytesAt other 0 6 : Except (Stop ParseError) Bytes) =
      .ok dst := by
    rw [bytesAt_iff, hmacs.1]
    exact bytesAt_iff.mp hdst
  have hsrc' : (bytesAt other 6 12 : Except (Stop ParseError) Bytes) =
      .ok src := by
    rw [bytesAt_iff, hmacs.2]
    exact bytesAt_iff.mp hsrc
  simp only [parseLinkHeader, hother, hdst', hsrc', hdstMac, hsrcMac, bind,
    Except.bind]

theorem tagged_slices {frame : Bytes} (h : ethernetHeaderSize ≤ frame.length)
    (tciHigh tciLow : UInt8) {start stop : Nat} (hstop : stop ≤ 12) :
    slice? (tagged frame tciHigh tciLow) start stop =
      slice? frame start stop := by
  have hlong : 14 ≤ frame.length := h
  apply slice?_congr
  · omega
  · simp [tagged, ethertypeVlan]
    omega
  · intro index _ hindex
    rw [tagged, List.append_assoc, List.getElem?_append_left (by
      rw [List.length_take]
      omega), List.getElem?_take_of_lt (by omega)]

theorem ethernetL3_tagged {frame : Bytes}
    (h : ethernetHeaderSize ≤ frame.length) (tciHigh tciLow : UInt8) :
    ethernetL3 (tagged frame tciHigh tciLow) =
      if be16 tciHigh tciLow &&& vlanIdMask = 0 then
        .ok (frame.drop ethernetHeaderSize)
      else fail (.vlanTagged (be16 tciHigh tciLow &&& vlanIdMask)) := by
  have hlong : 14 ≤ frame.length := h
  have hfirst : 12 < frame.length := by omega
  have hsecond : 13 < frame.length := by omega
  have htake : (frame.take 12).length = 12 := by
    rw [List.length_take]
    omega
  have hrest : frame.drop 12 = frame.get ⟨12, hfirst⟩ ::
      frame.get ⟨13, hsecond⟩ :: frame.drop 14 := by
    rw [List.drop_eq_getElem_cons hfirst, List.drop_eq_getElem_cons hsecond]
    rfl
  have hlength : ¬ (tagged frame tciHigh tciLow).length <
      ethernetHeaderSize := by
    simp only [tagged, List.length_append, htake, toBe16_length,
      List.length_cons, List.length_nil, ethernetHeaderSize]
    omega
  have hethertype : (bytesAt (tagged frame tciHigh tciLow) 12
      ethernetHeaderSize : Except (Stop ParseError) Bytes) =
        .ok (toBe16 ethertypeVlan) := by
    rw [bytesAt_iff, tagged, List.append_assoc, List.append_assoc,
      slice?_eq_some_iff]
    refine ⟨by decide, ?_, ?_⟩
    · simp only [List.length_append, htake, toBe16_length, ethernetHeaderSize]
      omega
    · rw [List.drop_append_of_le_length (by omega), List.drop_of_length_le
        (by omega), List.nil_append]
      rfl
  have hdrop : (tagged frame tciHigh tciLow).drop ethernetHeaderSize =
      tciHigh :: tciLow :: frame.get ⟨12, hfirst⟩ ::
        frame.get ⟨13, hsecond⟩ :: frame.drop 14 := by
    rw [tagged, hrest, List.append_assoc, List.drop_append, htake,
      List.drop_of_length_le (by rw [htake]; decide), List.nil_append]
    rfl
  simp only [ethernetL3]
  rw [if_neg hlength, hethertype, hdrop]
  simp only [bind, Except.bind, ne_eq, not_true_eq_false, if_false]
  rfl

theorem ethernetL3_untagged {frame l3 : Bytes} (h : ethernetL3 frame = .ok l3)
    (huntagged : slice? frame 12 14 ≠ some (toBe16 ethertypeVlan)) :
    ethernetHeaderSize ≤ frame.length ∧
      l3 = frame.drop ethernetHeaderSize := by
  simp only [ethernetL3] at h
  split at h
  · cases h
  rename_i hlong
  obtain ⟨ethertype, hethertype, h⟩ := except_bind_ok h
  have hread : slice? frame 12 14 = some ethertype := bytesAt_iff.mp hethertype
  rw [hread, ne_eq, Option.some.injEq] at huntagged
  rw [if_pos huntagged] at h
  cases h
  exact ⟨Nat.le_of_not_lt hlong, rfl⟩

theorem parse_tagged {frame : Bytes} {parsed : Parsed}
    (h : Parsed.parse .ethernet frame = .ok parsed)
    (huntagged : slice? frame 12 14 ≠ some (toBe16 ethertypeVlan))
    (tciHigh tciLow : UInt8) :
    Parsed.parse .ethernet (tagged frame tciHigh tciLow) =
      if be16 tciHigh tciLow &&& vlanIdMask = 0 then .ok parsed
      else fail (.vlanTagged (be16 tciHigh tciLow &&& vlanIdMask)) := by
  rw [parse_eq] at h ⊢
  obtain ⟨link, hlink, h⟩ := except_bind_ok h
  obtain ⟨l3, hl3, hmacs⟩ := except_bind_ok hlink
  obtain ⟨hlong, rfl⟩ := ethernetL3_untagged hl3 huntagged
  have htagged := ethernetL3_tagged hlong tciHigh tciLow
  split
  · rename_i hzero
    rw [if_pos hzero] at htagged
    have hsame := parseLinkHeader_macs hlink hl3 htagged
      ⟨tagged_slices hlong tciHigh tciLow (by decide),
        tagged_slices hlong tciHigh tciLow (by decide)⟩
    have hl3' : link.l3 = frame.drop ethernetHeaderSize := by
      obtain ⟨_, _, hmacs⟩ := except_bind_ok hmacs
      obtain ⟨_, _, hmacs⟩ := except_bind_ok hmacs
      obtain ⟨_, _, hmacs⟩ := except_bind_ok hmacs
      obtain ⟨_, _, hmacs⟩ := except_bind_ok hmacs
      cases hmacs
      rfl
    rw [hsame, ← hl3']
    exact h
  · rename_i hvlan
    rw [if_neg hvlan] at htagged
    simp only [parseLinkHeader, htagged]
    rfl

/-! ## Atomic fragments -/

structure Ipv6Base where
  version : UInt8
  flow : Bytes
  hopLimit : UInt8
  source : Ipv6Addr
  dest : Ipv6Addr
  version_eq : version >>> 4 = 6
  flow_length : flow.length = 3

def Ipv6Base.front (base : Ipv6Base) (payloadLen : Nat) (next : UInt8) :
    Bytes :=
  base.version :: base.flow ++ toBe16 payloadLen ++ [next, base.hopLimit]

def Ipv6Base.write (base : Ipv6Base) (payloadLen : Nat) (next : UInt8) :
    Bytes :=
  base.front payloadLen next ++ (base.source.octets ++ base.dest.octets)

section Base

variable (base : Ipv6Base) (payloadLen : Nat) (next : UInt8) {rest : Bytes}

theorem base_front_length : (base.front payloadLen next).length = 8 := by
  simp [Ipv6Base.front, base.flow_length]

theorem base_length : (base.write payloadLen next).length = 40 := by
  rw [Ipv6Base.write, List.length_append, base_front_length,
    List.length_append, base.source.length_eq, base.dest.length_eq]

theorem base_front_fields (hlen : payloadLen < 65536) (tail : Bytes) :
    (base.front payloadLen next ++ tail)[0]? = some base.version ∧
    be16At (base.front payloadLen next ++ tail) 4 = some payloadLen ∧
    (base.front payloadLen next ++ tail)[6]? = some next ∧
    (base.front payloadLen next ++ tail)[7]? = some base.hopLimit := by
  have hflow := base.flow_length
  unfold Ipv6Base.front
  obtain ⟨first, second, third, hthree⟩ := List.length_eq_three.mp hflow
  rw [hthree]
  refine ⟨rfl, ?_, rfl, rfl⟩
  exact be16At_eq_some_iff.mpr ⟨_, _, rfl, rfl, be16_toBe16 hlen⟩

theorem slice?_field {before part after : Bytes} {start stop : Nat}
    (hstart : before.length = start) (hstop : start + part.length = stop) :
    slice? (before ++ (part ++ after)) start stop = some part := by
  subst hstart hstop
  rw [← List.append_assoc, slice?_append_middle]

theorem base_fields (hlen : payloadLen < 65536)
    (hfits : payloadLen ≤ rest.length) :
    Ipv6Fields (base.write payloadLen next ++ rest) payloadLen base.source
      base.dest base.hopLimit next (rest.take payloadLen) := by
  have hlength := base_length base payloadLen next
  have hfront := base_front_length base payloadLen next
  have hsource := base.source.length_eq
  have hdest := base.dest.length_eq
  obtain ⟨_, hpayload, hnext, hhop⟩ := base_front_fields base payloadLen next
    hlen (base.source.octets ++ base.dest.octets ++ rest)
  have hwhole : base.write payloadLen next ++ rest =
      base.front payloadLen next ++
        (base.source.octets ++ base.dest.octets ++ rest) := by
    rw [Ipv6Base.write, List.append_assoc]
  have hbody : slice? (base.write payloadLen next ++ rest) 40
      (40 + payloadLen) = some (rest.take payloadLen) := by
    have htake : 40 + (rest.take payloadLen).length = 40 + payloadLen := by
      rw [List.length_take, Nat.min_eq_left hfits]
    have hcut : slice? (base.write payloadLen next ++
        (rest.take payloadLen ++ rest.drop payloadLen)) 40 (40 + payloadLen) =
          some (rest.take payloadLen) := slice?_field hlength htake
    rwa [List.take_append_drop] at hcut
  rw [hwhole] at hbody ⊢
  refine ⟨?_, hpayload, ?_, ⟨base.source.octets, ?_, ?_⟩,
    ⟨base.dest.octets, ?_, ?_⟩, hhop, hbody, hnext⟩
  · rw [← hwhole, List.length_append, hlength]
    exact Nat.le_add_right _ _
  · rw [← hwhole, List.length_append, hlength]
    exact Nat.add_le_add_left hfits _
  · rw [List.append_assoc]
    exact slice?_field hfront (by rw [hsource])
  · simp only [ipv6Addr, Ipv6Addr.ofBytes?, hsource, dif_pos]
  · rw [← List.append_assoc, ← List.append_assoc, List.append_assoc]
    exact slice?_field (by rw [List.length_append, hfront, hsource])
      (by rw [hdest])
  · simp only [ipv6Addr, Ipv6Addr.ofBytes?, hdest, dif_pos]

theorem base_short {link : ParsedLink} (hlen : payloadLen < 65536)
    (hshort : rest.length < payloadLen)
    (hl3 : link.l3 = base.write payloadLen next ++ rest) :
    parseIpv6 link = fail .badLength := by
  have hlength := base_length base payloadLen next
  have htotal : (base.write payloadLen next ++ rest).length =
      40 + rest.length := by
    rw [List.length_append, hlength]
  have hpayload : be16At (base.write payloadLen next ++ rest) 4 =
      some payloadLen := by
    rw [Ipv6Base.write, List.append_assoc]
    exact (base_front_fields base payloadLen next hlen _).2.1
  have hsize : ipv6HeaderSize = 40 := rfl
  simp only [parseIpv6, hl3]
  rw [if_neg (by omega), word_iff.mpr hpayload]
  simp only [bind, Except.bind]
  rw [if_pos (by omega)]

/-- A fragment header that cuts nothing off. -/
structure AtomicHeader where
  reserved : UInt8
  offsetHigh : UInt8
  offsetLow : UInt8
  id : Bytes
  offset_zero : be16 offsetHigh offsetLow >>> 3 = 0
  last : be16 offsetHigh offsetLow &&& 1 = 0
  id_length : id.length = 4

def AtomicHeader.write (atomic : AtomicHeader) : Bytes :=
  [ipProtoUdp, atomic.reserved, atomic.offsetHigh, atomic.offsetLow] ++ atomic.id

theorem AtomicHeader.write_length (atomic : AtomicHeader) :
    atomic.write.length = 8 := by
  simp [AtomicHeader.write, atomic.id_length]

theorem parseFragment_atomic (atomic : AtomicHeader) (link : ParsedLink)
    (source dest : Ipv6Addr) (hopLimit : UInt8) (data : Bytes) :
    parseFragment link source dest hopLimit (atomic.write ++ data) =
      datagram link (.v6 source) (.v6 dest) hopLimit data := by
  have hlength := atomic.write_length
  have hprotocol : (byteAt (atomic.write ++ data) 0 :
      Except (Stop ParseError) UInt8) = .ok ipProtoUdp := byteAt_iff.mpr rfl
  have hoffset : (word (atomic.write ++ data) 2 :
      Except (Stop ParseError) Nat) =
        .ok (be16 atomic.offsetHigh atomic.offsetLow) :=
    word_iff.mpr (be16At_eq_some_iff.mpr ⟨_, _, rfl, rfl, rfl⟩)
  have hdrop : (atomic.write ++ data).drop ipv6FragmentHeaderSize = data := by
    have height : ipv6FragmentHeaderSize = atomic.write.length := hlength.symm
    rw [height, List.drop_left]
  have hsize : ¬ (atomic.write ++ data).length < ipv6FragmentHeaderSize := by
    rw [List.length_append, hlength]
    exact Nat.not_lt.mpr (Nat.le_add_right _ _)
  simp only [parseFragment]
  rw [if_neg hsize, hprotocol]
  simp only [bind, Except.bind, ne_eq, not_true_eq_false, if_false, hoffset,
    hdrop, atomic.offset_zero, atomic.last, Nat.zero_mul]
  exact if_pos ⟨trivial, rfl⟩

theorem base_parseIp {link : ParsedLink} (hlen : payloadLen < 65536)
    (hl3 : link.l3 = base.write payloadLen next ++ rest) :
    parseIp link = parseIpv6 link := by
  have hfirst : link.l3[0]? = some base.version := by
    rw [hl3, Ipv6Base.write, List.append_assoc]
    exact (base_front_fields base payloadLen next hlen _).1
  exact (parseIp_of hfirst).2 base.version_eq

theorem parseIp_atomic (atomic : AtomicHeader) {dstMac srcMac : Option MacAddr}
    (data : Bytes) (hlen : payloadLen + 8 < 65536) :
    parseIp ⟨dstMac, srcMac, base.write (payloadLen + 8) ipv6NextFragment ++
        (atomic.write ++ data)⟩ =
      parseIp ⟨dstMac, srcMac, base.write payloadLen ipProtoUdp ++ data⟩ := by
  have hatomic := atomic.write_length
  have hlength : (atomic.write ++ data).length = 8 + data.length := by
    rw [List.length_append, hatomic]
  rw [base_parseIp base (payloadLen + 8) ipv6NextFragment hlen rfl,
    base_parseIp base payloadLen ipProtoUdp (by omega) rfl]
  rcases Nat.lt_or_ge data.length payloadLen with hshort | hfits
  · rw [base_short base (payloadLen + 8) ipv6NextFragment hlen (by omega) rfl,
      base_short base payloadLen ipProtoUdp (by omega) hshort rfl]
  · have hfields := base_fields base (payloadLen + 8) ipv6NextFragment hlen
      (show payloadLen + 8 ≤ (atomic.write ++ data).length by omega)
    have hfields' := base_fields base payloadLen ipProtoUdp (by omega) hfits
    have htake : (atomic.write ++ data).take (payloadLen + 8) =
        atomic.write ++ data.take payloadLen := by
      rw [Nat.add_comm, ← hatomic, List.take_length_add_append]
    rw [htake] at hfields
    rw [parseIpv6_eq hfields, parseIpv6_eq hfields', ipv6Content, ipv6Content,
      if_neg (by decide), if_pos rfl, if_pos rfl, parseFragment_atomic]
    rfl

end Base

theorem parse_atomic {linkType : LinkType} {front : Bytes}
    {dstMac srcMac : Option MacAddr}
    (hfront : parseLinkHeader linkType front = .ok ⟨dstMac, srcMac, []⟩)
    (base : Ipv6Base) (atomic : AtomicHeader) {payloadLen : Nat}
    (hlen : payloadLen + 8 < 65536) (data : Bytes) :
    Parsed.parse linkType (front ++
        (base.write (payloadLen + 8) ipv6NextFragment ++
          (atomic.write ++ data))) =
      Parsed.parse linkType (front ++
        (base.write payloadLen ipProtoUdp ++ data)) := by
  rw [parse_eq, parse_eq, parseLinkHeader_extended hfront,
    parseLinkHeader_extended hfront]
  exact parseIp_atomic base payloadLen atomic data hlen

/-- The parser returns on every frame, and neither padding nor a priority tag
nor an atomic fragment header changes what it reads. -/
theorem parse_reads :
    (∀ linkType frame,
      (∃ error, Parsed.parse linkType frame = fail error) ∨
        ∃ parsed, Parsed.parse linkType frame = .ok parsed) ∧
    (∀ linkType frame parsed, Parsed.parse linkType frame = .ok parsed →
      (∃ front l3 dstMac srcMac header total, frame = front ++ l3 ∧
        parseLinkHeader linkType frame = .ok ⟨dstMac, srcMac, l3⟩ ∧
        IpExtent l3 header total ∧ total ≤ l3.length ∧
        Selected frame (front.length + header) (front.length + total)
          parsed) ∧
      ∀ extra, Parsed.parse linkType (frame ++ extra) = .ok parsed) ∧
    (∀ frame parsed, Parsed.parse .ethernet frame = .ok parsed →
      slice? frame 12 14 ≠ some (toBe16 ethertypeVlan) →
      ∀ tciHigh tciLow, Parsed.parse .ethernet (tagged frame tciHigh tciLow) =
        if be16 tciHigh tciLow &&& vlanIdMask = 0 then .ok parsed
        else fail (.vlanTagged (be16 tciHigh tciLow &&& vlanIdMask))) ∧
    ∀ linkType front dstMac srcMac (base : Ipv6Base) (atomic : AtomicHeader)
      payloadLen data,
      parseLinkHeader linkType front = .ok ⟨dstMac, srcMac, []⟩ →
      payloadLen + 8 < 65536 →
      Parsed.parse linkType (front ++
          (base.write (payloadLen + 8) ipv6NextFragment ++
            (atomic.write ++ data))) =
        Parsed.parse linkType (front ++
          (base.write payloadLen ipProtoUdp ++ data)) := by
  refine ⟨parse_total, ?_, ?_, ?_⟩
  · intro linkType frame parsed h
    refine ⟨?_, parse_extended h⟩
    rw [parse_eq] at h
    obtain ⟨⟨dstMac, srcMac, l3⟩, hlink, h⟩ := except_bind_ok h
    obtain ⟨front, hfront⟩ := parseLinkHeader_front hlink
    obtain ⟨header, total, hextent, htotal, hselected⟩ := parseIp_selected h
    refine ⟨front, l3, dstMac, srcMac, header, total, hfront, hlink, hextent,
      htotal, ?_⟩
    rw [hfront]
    exact hselected.shifted
  · intro frame parsed h huntagged tciHigh tciLow
    exact parse_tagged h huntagged tciHigh tciLow
  · intro linkType front dstMac srcMac base atomic payloadLen data hfront hlen
    exact parse_atomic hfront base atomic hlen data

end Netflector.Net
