import Netflector.Net.Parsing

/-!
# What is read off a frame

The headers select a slice of the frame, and what follows the IP total length
makes no difference.
-/

namespace Netflector.Net

open Netflector.Foundation

/-! ## Reads -/

section Reads

variable {Error : Type} {bytes : Bytes}

theorem byteAt_iff {index : Nat} {byte : UInt8} :
    (byteAt bytes index : Except (Stop Error) UInt8) = .ok byte ↔
      bytes[index]? = some byte := by
  rw [byteAt]
  cases bytes[index]? with
  | none => simp [orPanic, liftPanic]
  | some found => simp [orPanic, liftPanic]

theorem bytesAt_iff {start stop : Nat} {part : Bytes} :
    (bytesAt bytes start stop : Except (Stop Error) Bytes) = .ok part ↔
      slice? bytes start stop = some part := by
  rw [bytesAt]
  cases slice? bytes start stop with
  | none => simp [orPanic, liftPanic]
  | some found => simp [orPanic, liftPanic]

theorem word_iff {index value : Nat} :
    (word bytes index : Except (Stop Error) Nat) = .ok value ↔
      be16At bytes index = some value := by
  rw [be16At_eq_some_iff]
  constructor
  · intro h
    obtain ⟨high, hhigh, h⟩ := except_bind_ok h
    obtain ⟨low, hlow, h⟩ := except_bind_ok h
    cases h
    exact ⟨high, low, byteAt_iff.mp hhigh, byteAt_iff.mp hlow, rfl⟩
  · rintro ⟨high, low, hhigh, hlow, rfl⟩
    simp only [word, byteAt_iff.mpr hhigh, byteAt_iff.mpr hlow, bind,
      Except.bind]

theorem getElem?_extended {index : Nat} {byte : UInt8}
    (h : bytes[index]? = some byte) (extra : Bytes) :
    (bytes ++ extra)[index]? = some byte := by
  rw [List.getElem?_append_left (List.getElem?_eq_some_iff.mp h).1, h]

theorem be16At_extended {index value : Nat}
    (h : be16At bytes index = some value) (extra : Bytes) :
    be16At (bytes ++ extra) index = some value := by
  obtain ⟨high, low, hhigh, hlow, rfl⟩ := be16At_eq_some_iff.mp h
  exact be16At_eq_some_iff.mpr ⟨high, low, getElem?_extended hhigh extra,
    getElem?_extended hlow extra, rfl⟩

theorem slice?_extended {start stop : Nat} {part : Bytes}
    (h : slice? bytes start stop = some part) (extra : Bytes) :
    slice? (bytes ++ extra) start stop = some part := by
  obtain ⟨hle, hstop, rfl⟩ := slice?_eq_some_iff.mp h
  rw [slice?_eq_some_iff, List.length_append]
  refine ⟨hle, by omega, ?_⟩
  rw [List.drop_append_of_le_length (by omega),
    List.take_append_of_le_length (by rw [List.length_drop]; omega)]

theorem bytesAt_extended {start stop : Nat} {part : Bytes}
    (h : (bytesAt bytes start stop : Except (Stop Error) Bytes) = .ok part)
    (extra : Bytes) :
    (bytesAt (bytes ++ extra) start stop : Except (Stop Error) Bytes) =
      .ok part :=
  bytesAt_iff.mpr (slice?_extended (bytesAt_iff.mp h) extra)

theorem slice?_shifted {front : Bytes} {start stop : Nat} {part : Bytes}
    (h : slice? bytes start stop = some part) :
    slice? (front ++ bytes) (front.length + start) (front.length + stop) =
      some part := by
  obtain ⟨hle, hstop, rfl⟩ := slice?_eq_some_iff.mp h
  rw [slice?_eq_some_iff, List.length_append]
  refine ⟨by omega, by omega, ?_⟩
  have hfront : front.length ≤ front.length + start := Nat.le_add_right _ _
  rw [List.drop_append, List.drop_of_length_le hfront, List.nil_append,
    Nat.add_sub_cancel_left, Nat.add_sub_add_left]

theorem slice?_within {start stop first last : Nat} {part inner : Bytes}
    (h : slice? bytes start stop = some part)
    (hinner : slice? part first last = some inner) :
    slice? bytes (start + first) (start + last) = some inner := by
  obtain ⟨hle, hstop, rfl⟩ := slice?_eq_some_iff.mp h
  obtain ⟨hle', hstop', rfl⟩ := slice?_eq_some_iff.mp hinner
  rw [List.length_take, List.length_drop] at hstop'
  rw [slice?_eq_some_iff]
  refine ⟨by omega, by omega, ?_⟩
  rw [List.drop_take, List.drop_drop, List.take_take]
  congr 1
  omega

end Reads

/-! ## The link header -/

theorem ethernetL3_total (frame : Bytes) :
    (∃ error, ethernetL3 frame = fail error) ∨
      (ethernetHeaderSize ≤ frame.length ∧ ∃ l3, ethernetL3 frame = .ok l3) := by
  simp only [ethernetL3]
  split
  · exact .inl ⟨_, rfl⟩
  rename_i hlong
  have hheader : ethernetHeaderSize ≤ frame.length := Nat.le_of_not_lt hlong
  obtain ⟨ethertype, hethertype, _⟩ := bytesAt_ok ParseError frame
    (show 12 ≤ ethernetHeaderSize by decide) hheader
  simp only [hethertype, bind, Except.bind]
  split
  · exact .inr ⟨hheader, _, rfl⟩
  split
  · split
    · exact .inr ⟨hheader, _, rfl⟩
    · exact .inl ⟨_, rfl⟩
  · exact .inl ⟨_, rfl⟩

theorem readMac_ok {bytes : Bytes} (h : bytes.length = 6) :
    ∃ mac, readMac bytes = .ok mac := by
  simp only [readMac, MacAddr.ofBytes?, h, dif_pos]
  exact ⟨_, rfl⟩

theorem parseLinkHeader_total (linkType : LinkType) (frame : Bytes) :
    (∃ error, parseLinkHeader linkType frame = fail error) ∨
      ∃ link, parseLinkHeader linkType frame = .ok link := by
  cases linkType with
  | ethernet =>
      simp only [parseLinkHeader]
      rcases ethernetL3_total frame with ⟨error, hfail⟩ | ⟨hlong, l3, hl3⟩
      · rw [hfail]
        exact .inl ⟨error, rfl⟩
      have hheader : 14 ≤ frame.length := hlong
      obtain ⟨dst, hdst, hdstSlice⟩ := bytesAt_ok ParseError frame
        (show 0 ≤ 6 by decide) (by omega)
      obtain ⟨src, hsrc, hsrcSlice⟩ := bytesAt_ok ParseError frame
        (show 6 ≤ 12 by decide) (by omega)
      obtain ⟨dstMac, hdstMac⟩ := readMac_ok (slice?_length hdstSlice)
      obtain ⟨srcMac, hsrcMac⟩ := readMac_ok (slice?_length hsrcSlice)
      simp only [hl3, hdst, hsrc, hdstMac, hsrcMac, bind, Except.bind]
      exact .inr ⟨_, rfl⟩
  | dltNull =>
      simp only [parseLinkHeader]
      split
      · exact .inl ⟨_, rfl⟩
      · exact .inr ⟨_, rfl⟩
  | rawIp => exact .inr ⟨_, rfl⟩

/-- Whatever the frame, the parser returns. -/
theorem parse_total (linkType : LinkType) (frame : Bytes) :
    (∃ error, Parsed.parse linkType frame = fail error) ∨
      ∃ parsed, Parsed.parse linkType frame = .ok parsed := by
  have hmalformed : ∀ {result : Except (Stop ParseError) Parsed},
      Malformed result → ∃ error, result = fail error := by
    rintro result (hresult | hresult)
    · exact ⟨_, hresult⟩
    · exact ⟨_, hresult⟩
  have hprotocol : ∀ {result : Except (Stop ParseError) Parsed}
      {protocol : UInt8}, ParsesProtocol result protocol →
      (∃ error, result = fail error) ∨ ∃ parsed, result = .ok parsed := by
    rintro result protocol (⟨_, hparsed⟩ | ⟨_, hfail⟩)
    · exact .inr hparsed
    · exact .inl ⟨_, hfail⟩
  simp only [Parsed.parse]
  rcases parseLinkHeader_total linkType frame with ⟨error, hfail⟩ | ⟨link, hlink⟩
  · rw [hfail]
    exact .inl ⟨error, rfl⟩
  simp only [hlink, bind, Except.bind]
  split
  · exact .inl ⟨_, rfl⟩
  split
  · rcases parseIpv4_total link with hbad | ⟨protocol, _, hparses⟩
    · exact .inl (hmalformed hbad)
    · exact hprotocol hparses
  split
  · rcases parseIpv6_total link with hbad | ⟨next, _, hparses⟩
    · exact .inl (hmalformed hbad)
    · rcases hparses with ⟨_, protocol, _, hparses⟩ | ⟨_, hparses⟩
      · exact hprotocol hparses
      · exact hprotocol hparses
  · exact .inl ⟨_, rfl⟩

/-! ## Padding -/

theorem ethernetL3_extended {frame l3 : Bytes}
    (h : ethernetL3 frame = .ok l3) (extra : Bytes) :
    ethernetL3 (frame ++ extra) = .ok (l3 ++ extra) := by
  simp only [ethernetL3] at h ⊢
  split at h
  · cases h
  rename_i hlong
  obtain ⟨ethertype, hethertype, h⟩ := except_bind_ok h
  rw [if_neg (by rw [List.length_append]; omega),
    bytesAt_extended hethertype extra,
    List.drop_append_of_le_length (Nat.le_of_not_lt hlong)]
  simp only [bind, Except.bind]
  split at h
  · rename_i huntagged
    cases h
    rw [if_pos huntagged]
  rename_i htagged
  rw [if_neg htagged]
  split at h
  · rename_i tciHigh tciLow high low rest hrest
    rw [hrest]
    simp only [List.cons_append]
    split at h
    · rename_i hzero
      cases h
      rw [if_pos hzero]
    · cases h
  · cases h

theorem parseLinkHeader_extended {linkType : LinkType} {frame : Bytes}
    {link : ParsedLink} (h : parseLinkHeader linkType frame = .ok link)
    (extra : Bytes) :
    parseLinkHeader linkType (frame ++ extra) =
      .ok { link with l3 := link.l3 ++ extra } := by
  cases linkType with
  | ethernet =>
      obtain ⟨l3, hl3, h⟩ := except_bind_ok h
      obtain ⟨dst, hdst, h⟩ := except_bind_ok h
      obtain ⟨dstMac, hdstMac, h⟩ := except_bind_ok h
      obtain ⟨src, hsrc, h⟩ := except_bind_ok h
      obtain ⟨srcMac, hsrcMac, h⟩ := except_bind_ok h
      cases h
      simp only [parseLinkHeader, ethernetL3_extended hl3 extra,
        bytesAt_extended hdst extra, bytesAt_extended hsrc extra, hdstMac,
        hsrcMac, bind, Except.bind]
  | dltNull =>
      simp only [parseLinkHeader] at h ⊢
      split at h
      · cases h
      · rename_i hlong
        cases h
        rw [if_neg (by rw [List.length_append]; omega),
          List.drop_append_of_le_length (Nat.le_of_not_lt hlong)]
  | rawIp =>
      cases h
      rfl

structure Ipv4Fields (l3 : Bytes) (headerLen totalLen flagsOffset id : Nat)
    (source dest : Ipv4Addr) (ttl : UInt8) (body : Bytes) : Prop where
  long : ipv4HeaderSize ≤ l3.length
  header : ∃ versionIhl, l3[0]? = some versionIhl ∧
    headerLen = (versionIhl &&& 0x0f).toNat * 4
  header_ge : ipv4HeaderSize ≤ headerLen
  header_le : headerLen ≤ l3.length
  protocol : l3[9]? = some ipProtoUdp
  total : be16At l3 2 = some totalLen
  total_ge : headerLen ≤ totalLen
  total_le : totalLen ≤ l3.length
  source : ∃ octets, slice? l3 12 16 = some octets ∧
    ipv4Addr octets = .ok source
  dest : ∃ octets, slice? l3 16 20 = some octets ∧ ipv4Addr octets = .ok dest
  ttl : l3[8]? = some ttl
  body : slice? l3 headerLen totalLen = some body
  flags : be16At l3 6 = some flagsOffset
  id : be16At l3 4 = some id

theorem Ipv4Fields.extended {l3 : Bytes}
    {headerLen totalLen flagsOffset id : Nat} {source dest : Ipv4Addr}
    {ttl : UInt8} {body : Bytes}
    (h : Ipv4Fields l3 headerLen totalLen flagsOffset id source dest ttl body)
    (extra : Bytes) :
    Ipv4Fields (l3 ++ extra) headerLen totalLen flagsOffset id source dest ttl
      body := by
  obtain ⟨versionIhl, hfirst, hheader⟩ := h.header
  obtain ⟨sourceOctets, hsource, hsourceAddr⟩ := h.source
  obtain ⟨destOctets, hdest, hdestAddr⟩ := h.dest
  have hlength : l3.length ≤ (l3 ++ extra).length := by
    rw [List.length_append]
    exact Nat.le_add_right _ _
  exact ⟨Nat.le_trans h.long hlength, ⟨versionIhl,
    getElem?_extended hfirst extra, hheader⟩, h.header_ge,
    Nat.le_trans h.header_le hlength, getElem?_extended h.protocol extra,
    be16At_extended h.total extra, h.total_ge,
    Nat.le_trans h.total_le hlength,
    ⟨sourceOctets, slice?_extended hsource extra, hsourceAddr⟩,
    ⟨destOctets, slice?_extended hdest extra, hdestAddr⟩,
    getElem?_extended h.ttl extra, slice?_extended h.body extra,
    be16At_extended h.flags extra, be16At_extended h.id extra⟩

def ipv4Content (link : ParsedLink) (flagsOffset id : Nat)
    (source dest : Ipv4Addr) (ttl : UInt8) (body : Bytes) :
    Except (Stop ParseError) Parsed :=
  let offset := (flagsOffset &&& 0x1fff) * fragmentUnit
  let more : Bool := flagsOffset &&& 0x2000 ≠ 0
  if offset = 0 ∧ !more then datagram link (.v4 source) (.v4 dest) ttl body
  else
    .ok (.fragment ⟨⟨.v4 source, .v4 dest, UInt32.ofNat id, offset, more, ttl,
      link.dstMac, link.srcMac⟩, body⟩)

theorem parseIpv4_iff {link : ParsedLink} {parsed : Parsed} :
    parseIpv4 link = .ok parsed ↔
      ∃ headerLen totalLen flagsOffset id source dest ttl body,
        Ipv4Fields link.l3 headerLen totalLen flagsOffset id source dest ttl
          body ∧
        ipv4Content link flagsOffset id source dest ttl body = .ok parsed := by
  constructor
  · intro h
    simp only [parseIpv4] at h
    split at h
    · cases h
    rename_i hlong
    obtain ⟨versionIhl, hfirst, h⟩ := except_bind_ok h
    split at h
    · cases h
    rename_i hheader
    obtain ⟨protocol, hprotocol, h⟩ := except_bind_ok h
    split at h
    · cases h
    rename_i hudp
    rw [not_not] at hudp
    obtain ⟨totalLen, htotal, h⟩ := except_bind_ok h
    split at h
    · cases h
    rename_i hbound
    obtain ⟨sourceOctets, hsource, h⟩ := except_bind_ok h
    obtain ⟨source, hsourceAddr, h⟩ := except_bind_ok h
    obtain ⟨destOctets, hdest, h⟩ := except_bind_ok h
    obtain ⟨dest, hdestAddr, h⟩ := except_bind_ok h
    obtain ⟨ttl, httl, h⟩ := except_bind_ok h
    obtain ⟨body, hbody, h⟩ := except_bind_ok h
    obtain ⟨flagsOffset, hflags, h⟩ := except_bind_ok h
    have hsize : 20 ≤ link.l3.length := Nat.le_of_not_lt hlong
    obtain ⟨id, hid⟩ := be16At_isSome (show 4 + 2 ≤ link.l3.length by omega)
    refine ⟨_, totalLen, flagsOffset, id, source, dest, ttl, body,
      ⟨Nat.le_of_not_lt hlong, ⟨versionIhl, byteAt_iff.mp hfirst, rfl⟩,
        by omega, by omega, hudp ▸ byteAt_iff.mp hprotocol, word_iff.mp htotal,
        by omega, by omega, ⟨sourceOctets, bytesAt_iff.mp hsource, hsourceAddr⟩,
        ⟨destOctets, bytesAt_iff.mp hdest, hdestAddr⟩, byteAt_iff.mp httl,
        bytesAt_iff.mp hbody, word_iff.mp hflags, hid⟩, ?_⟩
    simp only [ipv4Content]
    split at h
    · rename_i hwhole
      rw [if_pos hwhole]
      exact h
    · rename_i hpart
      rw [if_neg hpart]
      simp only [word_iff.mpr hid, bind, Except.bind] at h
      exact h
  · rintro ⟨headerLen, totalLen, flagsOffset, id, source, dest, ttl, body, h,
      hcontent⟩
    obtain ⟨versionIhl, hfirst, rfl⟩ := h.header
    obtain ⟨sourceOctets, hsource, hsourceAddr⟩ := h.source
    obtain ⟨destOctets, hdest, hdestAddr⟩ := h.dest
    have hheader := h.header_ge
    have hheader' := h.header_le
    have htotal := h.total_ge
    have htotal' := h.total_le
    have hlong := h.long
    simp only [parseIpv4]
    rw [if_neg (by omega), byteAt_iff.mpr hfirst]
    simp only [bind, Except.bind]
    rw [if_neg (by omega), byteAt_iff.mpr h.protocol]
    simp only [ne_eq, not_true_eq_false, if_false]
    rw [word_iff.mpr h.total]
    simp only
    rw [if_neg (by omega)]
    simp only [bytesAt_iff.mpr hsource, bytesAt_iff.mpr hdest, hsourceAddr,
      hdestAddr, byteAt_iff.mpr h.ttl, bytesAt_iff.mpr h.body,
      word_iff.mpr h.flags, word_iff.mpr h.id]
    exact hcontent

structure Ipv6Fields (l3 : Bytes) (payloadLen : Nat) (source dest : Ipv6Addr)
    (hopLimit next : UInt8) (body : Bytes) : Prop where
  long : ipv6HeaderSize ≤ l3.length
  payload : be16At l3 4 = some payloadLen
  total_le : ipv6HeaderSize + payloadLen ≤ l3.length
  source : ∃ octets, slice? l3 8 24 = some octets ∧ ipv6Addr octets = .ok source
  dest : ∃ octets, slice? l3 24 40 = some octets ∧ ipv6Addr octets = .ok dest
  hop : l3[7]? = some hopLimit
  body : slice? l3 ipv6HeaderSize (ipv6HeaderSize + payloadLen) = some body
  next : l3[6]? = some next

theorem Ipv6Fields.extended {l3 : Bytes} {payloadLen : Nat}
    {source dest : Ipv6Addr} {hopLimit next : UInt8} {body : Bytes}
    (h : Ipv6Fields l3 payloadLen source dest hopLimit next body)
    (extra : Bytes) :
    Ipv6Fields (l3 ++ extra) payloadLen source dest hopLimit next body := by
  obtain ⟨sourceOctets, hsource, hsourceAddr⟩ := h.source
  obtain ⟨destOctets, hdest, hdestAddr⟩ := h.dest
  have hlength : l3.length ≤ (l3 ++ extra).length := by
    rw [List.length_append]
    exact Nat.le_add_right _ _
  exact ⟨Nat.le_trans h.long hlength, be16At_extended h.payload extra,
    Nat.le_trans h.total_le hlength,
    ⟨sourceOctets, slice?_extended hsource extra, hsourceAddr⟩,
    ⟨destOctets, slice?_extended hdest extra, hdestAddr⟩,
    getElem?_extended h.hop extra, slice?_extended h.body extra,
    getElem?_extended h.next extra⟩

def ipv6Content (link : ParsedLink) (source dest : Ipv6Addr)
    (hopLimit next : UInt8) (body : Bytes) : Except (Stop ParseError) Parsed :=
  if next = ipProtoUdp then datagram link (.v6 source) (.v6 dest) hopLimit body
  else if next = ipv6NextFragment then
    parseFragment link source dest hopLimit body
  else fail (.notUdp next)

theorem parseIpv6_eq {link : ParsedLink} {payloadLen : Nat}
    {source dest : Ipv6Addr} {hopLimit next : UInt8} {body : Bytes}
    (h : Ipv6Fields link.l3 payloadLen source dest hopLimit next body) :
    parseIpv6 link = ipv6Content link source dest hopLimit next body := by
  obtain ⟨sourceOctets, hsource, hsourceAddr⟩ := h.source
  obtain ⟨destOctets, hdest, hdestAddr⟩ := h.dest
  have hlong := h.long
  have htotal := h.total_le
  simp only [parseIpv6]
  rw [if_neg (by omega), word_iff.mpr h.payload]
  simp only [bind, Except.bind]
  rw [if_neg (by omega)]
  simp only [bytesAt_iff.mpr hsource, bytesAt_iff.mpr hdest, hsourceAddr,
    hdestAddr, byteAt_iff.mpr h.hop, bytesAt_iff.mpr h.body,
    byteAt_iff.mpr h.next, ipv6Content]

theorem parseIpv6_fields {link : ParsedLink} {parsed : Parsed}
    (h : parseIpv6 link = .ok parsed) :
    ∃ payloadLen source dest hopLimit next body,
      Ipv6Fields link.l3 payloadLen source dest hopLimit next body := by
  simp only [parseIpv6] at h
  split at h
  · cases h
  rename_i hlong
  obtain ⟨payloadLen, hpayload, h⟩ := except_bind_ok h
  split at h
  · cases h
  rename_i hbound
  obtain ⟨sourceOctets, hsource, h⟩ := except_bind_ok h
  obtain ⟨source, hsourceAddr, h⟩ := except_bind_ok h
  obtain ⟨destOctets, hdest, h⟩ := except_bind_ok h
  obtain ⟨dest, hdestAddr, h⟩ := except_bind_ok h
  obtain ⟨hopLimit, hhop, h⟩ := except_bind_ok h
  obtain ⟨body, hbody, h⟩ := except_bind_ok h
  obtain ⟨next, hnext, h⟩ := except_bind_ok h
  exact ⟨payloadLen, source, dest, hopLimit, next, body,
    Nat.le_of_not_lt hlong, word_iff.mp hpayload, Nat.le_of_not_lt hbound,
    ⟨sourceOctets, bytesAt_iff.mp hsource, hsourceAddr⟩,
    ⟨destOctets, bytesAt_iff.mp hdest, hdestAddr⟩, byteAt_iff.mp hhop,
    bytesAt_iff.mp hbody, byteAt_iff.mp hnext⟩

def parseIp (link : ParsedLink) : Except (Stop ParseError) Parsed :=
  match link.l3 with
  | [] => fail .truncated
  | first :: _ =>
      let version := first >>> 4
      if version = 4 then parseIpv4 link
      else if version = 6 then parseIpv6 link
      else fail (.badIpVersion version)

theorem parse_eq (linkType : LinkType) (frame : Bytes) :
    Parsed.parse linkType frame =
      (parseLinkHeader linkType frame).bind parseIp := rfl

theorem parseIp_ok {link : ParsedLink} {parsed : Parsed}
    (h : parseIp link = .ok parsed) :
    ∃ first : UInt8, link.l3[0]? = some first ∧
      ((first >>> 4 = 4 ∧ parseIpv4 link = .ok parsed) ∨
        (first >>> 4 = 6 ∧ parseIpv6 link = .ok parsed)) := by
  unfold parseIp at h
  split at h
  · cases h
  rename_i first rest hl3
  refine ⟨first, by rw [hl3]; rfl, ?_⟩
  simp only at h
  split at h
  · rename_i hversion
    exact .inl ⟨hversion, h⟩
  split at h
  · rename_i hversion
    exact .inr ⟨hversion, h⟩
  · cases h

theorem parseIp_of {link : ParsedLink} {first : UInt8}
    (hfirst : link.l3[0]? = some first) :
    (first >>> 4 = 4 → parseIp link = parseIpv4 link) ∧
      (first >>> 4 = 6 → parseIp link = parseIpv6 link) := by
  unfold parseIp
  cases hl3 : link.l3 with
  | nil =>
      rw [hl3] at hfirst
      cases hfirst
  | cons other rest =>
      rw [hl3] at hfirst
      cases hfirst
      constructor
      · intro hversion
        simp only
        rw [if_pos hversion]
      · intro hversion
        simp only
        rw [if_neg (by rw [hversion]; decide), if_pos hversion]

theorem ipv6Content_link {link : ParsedLink} (l3 : Bytes)
    (source dest : Ipv6Addr) (hopLimit next : UInt8) (body : Bytes) :
    ipv6Content { link with l3 := l3 } source dest hopLimit next body =
      ipv6Content link source dest hopLimit next body := rfl

theorem parseIp_extended {link : ParsedLink} {parsed : Parsed}
    (h : parseIp link = .ok parsed) (extra : Bytes) :
    parseIp { link with l3 := link.l3 ++ extra } = .ok parsed := by
  obtain ⟨first, hfirst, hversion⟩ := parseIp_ok h
  have hfirst' : ({ link with l3 := link.l3 ++ extra } : ParsedLink).l3[0]? =
      some first := getElem?_extended hfirst extra
  obtain ⟨hv4, hv6⟩ := parseIp_of hfirst'
  rcases hversion with ⟨hversion, h⟩ | ⟨hversion, h⟩
  · rw [hv4 hversion]
    obtain ⟨headerLen, totalLen, flagsOffset, id, source, dest, ttl, body,
      hfields, hcontent⟩ := parseIpv4_iff.mp h
    exact parseIpv4_iff.mpr ⟨headerLen, totalLen, flagsOffset, id, source,
      dest, ttl, body, hfields.extended extra, hcontent⟩
  · rw [hv6 hversion]
    obtain ⟨payloadLen, source, dest, hopLimit, next, body, hfields⟩ :=
      parseIpv6_fields h
    rw [parseIpv6_eq hfields] at h
    rw [parseIpv6_eq (hfields.extended extra), ipv6Content_link]
    exact h

theorem parse_extended {linkType : LinkType} {frame : Bytes}
    {parsed : Parsed} (h : Parsed.parse linkType frame = .ok parsed)
    (extra : Bytes) : Parsed.parse linkType (frame ++ extra) = .ok parsed := by
  rw [parse_eq] at h ⊢
  obtain ⟨link, hlink, h⟩ := except_bind_ok h
  rw [parseLinkHeader_extended hlink extra]
  exact parseIp_extended h extra

/-! ## The slice that is returned -/

def IpExtent (l3 : Bytes) (header total : Nat) : Prop :=
  (∃ first : UInt8, l3[0]? = some first ∧ first >>> 4 = 4 ∧
    header = (first &&& 0x0f).toNat * 4 ∧ be16At l3 2 = some total) ∨
  ∃ (first : UInt8) (payload : Nat), l3[0]? = some first ∧ first >>> 4 = 6 ∧
    be16At l3 4 = some payload ∧ total = ipv6HeaderSize + payload ∧
    ((l3[6]? = some ipProtoUdp ∧ header = ipv6HeaderSize) ∨
      (l3[6]? = some ipv6NextFragment ∧
        header = ipv6HeaderSize + ipv6FragmentHeaderSize))

/-- The bytes between the two, cut at the UDP length of a datagram. -/
def Selected (bytes : Bytes) (start stop : Nat) : Parsed → Prop
  | .fragment fragment => slice? bytes start stop = some fragment.data
  | .datagram packet => ∃ udpLen, be16At bytes (start + 4) = some udpLen ∧
      start + udpLen ≤ stop ∧
      slice? bytes (start + udpHeaderSize) (start + udpLen) =
        some packet.payload

theorem be16At_within {bytes part : Bytes} {start stop index value : Nat}
    (h : slice? bytes start stop = some part)
    (hvalue : be16At part index = some value) :
    be16At bytes (start + index) = some value := by
  obtain ⟨high, low, hhigh, hlow, rfl⟩ := be16At_eq_some_iff.mp hvalue
  have hlast := (List.getElem?_eq_some_iff.mp hlow).1
  rw [slice?_length h] at hlast
  rw [getElem?_of_slice? h index (by omega)] at hhigh
  rw [getElem?_of_slice? h (index + 1) hlast] at hlow
  exact be16At_eq_some_iff.mpr ⟨high, low, hhigh, hlow, rfl⟩

theorem datagram_selected {link : ParsedLink} {source dest : IpAddr}
    {ttl : UInt8} {bytes l4 : Bytes} {start stop : Nat} {parsed : Parsed}
    (hl4 : slice? bytes start stop = some l4)
    (h : datagram link source dest ttl l4 = .ok parsed) :
    Selected bytes start stop parsed := by
  obtain ⟨⟨srcPort, dstPort, payload⟩, hudp, h⟩ := except_bind_ok h
  cases h
  simp only [parseUdp] at hudp
  split at hudp
  · cases hudp
  obtain ⟨_, _, hudp⟩ := except_bind_ok hudp
  obtain ⟨_, _, hudp⟩ := except_bind_ok hudp
  obtain ⟨udpLen, hlen, hudp⟩ := except_bind_ok hudp
  split at hudp
  · cases hudp
  rename_i hbound
  obtain ⟨_, hpayload, hudp⟩ := except_bind_ok hudp
  cases hudp
  have hlength := slice?_length hl4
  have hstart := (slice?_eq_some_iff.mp hl4).1
  refine ⟨udpLen, be16At_within hl4 (word_iff.mp hlen), ?_,
    slice?_within hl4 (bytesAt_iff.mp hpayload)⟩
  omega

theorem parseFragment_selected {link : ParsedLink} {source dest : Ipv6Addr}
    {hopLimit : UInt8} {bytes body : Bytes} {start stop : Nat}
    {parsed : Parsed} (hbody : slice? bytes start stop = some body)
    (h : parseFragment link source dest hopLimit body = .ok parsed) :
    Selected bytes (start + ipv6FragmentHeaderSize) stop parsed := by
  simp only [parseFragment] at h
  split at h
  · cases h
  rename_i hlong
  have hlength := slice?_length hbody
  have hstart := (slice?_eq_some_iff.mp hbody).1
  have hdata : slice? bytes (start + ipv6FragmentHeaderSize) stop =
      some (body.drop ipv6FragmentHeaderSize) := by
    have hinner : slice? body ipv6FragmentHeaderSize body.length =
        some (body.drop ipv6FragmentHeaderSize) := by
      rw [slice?_eq_some_iff]
      refine ⟨Nat.le_of_not_lt hlong, Nat.le_refl _, ?_⟩
      rw [List.take_of_length_le (Nat.le_of_eq List.length_drop)]
    have houter := slice?_within hbody hinner
    have hstop : start + body.length = stop := by omega
    rwa [hstop] at houter
  obtain ⟨protocol, _, h⟩ := except_bind_ok h
  split at h
  · cases h
  obtain ⟨offsetMore, _, h⟩ := except_bind_ok h
  split at h
  · exact datagram_selected hdata h
  · obtain ⟨_, _, h⟩ := except_bind_ok h
    obtain ⟨_, _, h⟩ := except_bind_ok h
    obtain ⟨_, _, h⟩ := except_bind_ok h
    obtain ⟨_, _, h⟩ := except_bind_ok h
    cases h
    exact hdata

theorem parseIp_selected {link : ParsedLink} {parsed : Parsed}
    (h : parseIp link = .ok parsed) :
    ∃ header total, IpExtent link.l3 header total ∧
      total ≤ link.l3.length ∧ Selected link.l3 header total parsed := by
  obtain ⟨first, hfirst, ⟨hversion, h⟩ | ⟨hversion, h⟩⟩ := parseIp_ok h
  · obtain ⟨headerLen, totalLen, flagsOffset, id, source, dest, ttl, body,
      hfields, hcontent⟩ := parseIpv4_iff.mp h
    obtain ⟨versionIhl, hihl, hheader⟩ := hfields.header
    rw [hfirst, Option.some.injEq] at hihl
    subst hihl
    refine ⟨headerLen, totalLen, .inl ⟨first, hfirst, hversion, hheader,
      hfields.total⟩, hfields.total_le, ?_⟩
    simp only [ipv4Content] at hcontent
    split at hcontent
    · exact datagram_selected hfields.body hcontent
    · cases hcontent
      exact hfields.body
  · obtain ⟨payloadLen, source, dest, hopLimit, next, body, hfields⟩ :=
      parseIpv6_fields h
    rw [parseIpv6_eq hfields, ipv6Content] at h
    split at h
    · rename_i hudp
      subst hudp
      exact ⟨_, _, .inr ⟨first, payloadLen, hfirst, hversion, hfields.payload,
        rfl, .inl ⟨hfields.next, rfl⟩⟩, hfields.total_le,
        datagram_selected hfields.body h⟩
    split at h
    · rename_i hnext
      subst hnext
      exact ⟨_, _, .inr ⟨first, payloadLen, hfirst, hversion, hfields.payload,
        rfl, .inr ⟨hfields.next, rfl⟩⟩, hfields.total_le,
        parseFragment_selected hfields.body h⟩
    · cases h

theorem parseLinkHeader_front {linkType : LinkType} {frame : Bytes}
    {link : ParsedLink} (h : parseLinkHeader linkType frame = .ok link) :
    ∃ front, frame = front ++ link.l3 := by
  cases linkType with
  | ethernet =>
      obtain ⟨l3, hl3, h⟩ := except_bind_ok h
      obtain ⟨_, _, h⟩ := except_bind_ok h
      obtain ⟨_, _, h⟩ := except_bind_ok h
      obtain ⟨_, _, h⟩ := except_bind_ok h
      obtain ⟨_, _, h⟩ := except_bind_ok h
      cases h
      simp only [ethernetL3] at hl3
      split at hl3
      · cases hl3
      obtain ⟨ethertype, _, hl3⟩ := except_bind_ok hl3
      split at hl3
      · cases hl3
        exact ⟨_, (List.take_append_drop ethernetHeaderSize frame).symm⟩
      split at hl3
      · rename_i tciHigh tciLow high low rest hrest
        split at hl3
        · cases hl3
          refine ⟨frame.take ethernetHeaderSize ++
            [tciHigh, tciLow, high, low], ?_⟩
          have hframe := List.take_append_drop ethernetHeaderSize frame
          rw [hrest] at hframe
          simpa using hframe.symm
        · cases hl3
      · cases hl3
  | dltNull =>
      simp only [parseLinkHeader] at h
      split at h
      · cases h
      · cases h
        exact ⟨_, (List.take_append_drop dltNullHeaderSize frame).symm⟩
  | rawIp =>
      cases h
      exact ⟨[], rfl⟩

theorem Selected.shifted {front l3 : Bytes} {start stop : Nat}
    {parsed : Parsed} (h : Selected l3 start stop parsed) :
    Selected (front ++ l3) (front.length + start) (front.length + stop)
      parsed := by
  cases parsed with
  | fragment fragment => exact slice?_shifted h
  | datagram packet =>
      obtain ⟨udpLen, hlen, hstop, hpayload⟩ := h
      refine ⟨udpLen, ?_, by omega, ?_⟩
      · obtain ⟨high, low, hhigh, hlow, rfl⟩ := be16At_eq_some_iff.mp hlen
        refine be16At_eq_some_iff.mpr ⟨high, low, ?_, ?_, rfl⟩
        · rw [List.getElem?_append_right (by omega), ← hhigh]
          congr 1
          omega
        · rw [List.getElem?_append_right (by omega), ← hlow]
          congr 1
          omega
      · rw [Nat.add_assoc, Nat.add_assoc]
        exact slice?_shifted hpayload

end Netflector.Net
