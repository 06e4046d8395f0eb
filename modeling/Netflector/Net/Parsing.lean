import Netflector.Net.Packet

/-!
# The parser never panics

Every index and slice that the parser takes is in range; what it cannot read it
reports.
-/

namespace Netflector.Net

open Netflector.Foundation

/-! ## Access in range -/

section Access

variable (Error : Type)

theorem byteAt_ok (bytes : Bytes) {index : Nat} (h : index < bytes.length) :
    ∃ byte, (byteAt bytes index : Except (Stop Error) UInt8) = .ok byte ∧
      bytes[index]? = some byte := by
  obtain ⟨byte, hbyte⟩ := Option.isSome_iff_exists.mp
    (show bytes[index]?.isSome by simpa using h)
  refine ⟨byte, ?_, hbyte⟩
  rw [byteAt, hbyte]
  rfl

theorem word_ok (bytes : Bytes) {index : Nat} (h : index + 1 < bytes.length) :
    ∃ value, (word bytes index : Except (Stop Error) Nat) = .ok value := by
  have hindex : index < bytes.length := by omega
  obtain ⟨high, hhigh, _⟩ := byteAt_ok Error bytes hindex
  obtain ⟨low, hlow, _⟩ := byteAt_ok Error bytes h
  refine ⟨be16 high low, ?_⟩
  rw [word, hhigh, hlow]
  rfl

theorem bytesAt_ok (bytes : Bytes) {start stop : Nat} (hle : start ≤ stop)
    (hstop : stop ≤ bytes.length) :
    ∃ part, (bytesAt bytes start stop : Except (Stop Error) Bytes) =
        .ok part ∧ slice? bytes start stop = some part := by
  obtain ⟨part, hpart⟩ := slice?_isSome bytes hle hstop
  refine ⟨part, ?_, hpart⟩
  rw [bytesAt, hpart]
  rfl

end Access

/-! ## UDP -/

theorem parseUdp_total (l4 : Bytes) :
    (∃ error, parseUdp l4 = fail error ∧
      (error = .truncated ∨ error = .badLength)) ∨
    ∃ srcPort dstPort payload,
      parseUdp l4 = .ok (srcPort, dstPort, payload) ∧
        udpHeaderSize + payload.length ≤ l4.length := by
  rw [parseUdp]
  split
  · exact .inl ⟨_, rfl, .inl rfl⟩
  rename_i hlength
  have hheader : 0 + 1 < l4.length ∧ 2 + 1 < l4.length ∧ 4 + 1 < l4.length := by
    simp only [udpHeaderSize] at hlength
    omega
  obtain ⟨srcPort, hsrc⟩ := word_ok ParseError l4 hheader.1
  obtain ⟨dstPort, hdst⟩ := word_ok ParseError l4 hheader.2.1
  obtain ⟨udpLen, hlen⟩ := word_ok ParseError l4 hheader.2.2
  simp only [hsrc, hdst, hlen, bind, Except.bind]
  split
  · exact .inl ⟨_, rfl, .inr rfl⟩
  rename_i hrange
  have hle : udpHeaderSize ≤ udpLen := by omega
  obtain ⟨payload, hpayload, hslice⟩ := bytesAt_ok ParseError l4 hle (by omega)
  have hpayloadLength := slice?_length hslice
  rw [hpayload]
  exact .inr ⟨_, _, payload, rfl, by omega⟩

theorem checksumValid_total (first : FragmentHeader) (stored : Nat)
    (header : Bytes) {payload : Bytes}
    (h : udpHeaderSize + payload.length < 65536) :
    ∃ valid, checksumValid first stored header payload = .ok valid := by
  unfold checksumValid
  cases first.source with
  | v4 src =>
      cases first.dest with
      | v4 dst =>
          obtain ⟨checksum, hchecksum⟩ := Checksum.udpV4_total src dst header h
          simp only [hchecksum]
          split
          · exact ⟨_, rfl⟩
          · exact ⟨_, rfl⟩
      | v6 dst => exact ⟨_, rfl⟩
  | v6 src =>
      cases first.dest with
      | v4 dst => exact ⟨_, rfl⟩
      | v6 dst =>
          obtain ⟨checksum, hchecksum⟩ := Checksum.udpV6_total src dst header h
          simp only [hchecksum]
          exact ⟨_, rfl⟩

theorem reassembled_total (first : FragmentHeader) {datagram : Bytes}
    (h : datagram.length < 65536) :
    (∃ error, Packet.reassembled first datagram = fail error) ∨
      ∃ packet, Packet.reassembled first datagram = .ok packet := by
  rcases parseUdp_total datagram with ⟨error, hparse, _⟩ |
    ⟨srcPort, dstPort, payload, hparse, hlength⟩
  · left
    refine ⟨error, ?_⟩
    rw [Packet.reassembled, hparse]
    rfl
  simp only [Packet.reassembled, hparse, bind, Except.bind]
  split
  · exact .inl ⟨_, rfl⟩
  rename_i hheader
  split
  · exact .inl ⟨_, rfl⟩
  have hword : 6 + 1 < (datagram.take udpHeaderSize).length := by
    rw [List.length_take]
    simp only [udpHeaderSize] at *
    omega
  obtain ⟨stored, hstored⟩ :=
    word_ok ParseError (datagram.take udpHeaderSize) hword
  have hbound : udpHeaderSize + payload.length < 65536 := by omega
  obtain ⟨valid, hvalid⟩ := checksumValid_total first stored
    (datagram.take udpHeaderSize) hbound
  simp only [hstored, hvalid]
  cases valid with
  | false => exact .inl ⟨_, rfl⟩
  | true => exact .inr ⟨_, rfl⟩

/-! ## IP -/

def Malformed (result : Except (Stop ParseError) Parsed) : Prop :=
  result = fail .truncated ∨ result = fail .badLength

theorem malformed_of {result : Except (Stop ParseError) Parsed}
    {error : ParseError} (h : result = fail error)
    (herror : error = .truncated ∨ error = .badLength) : Malformed result := by
  rcases herror with rfl | rfl
  · exact .inl h
  · exact .inr h

theorem datagram_total (link : ParsedLink) (source dest : IpAddr)
    (ttl : UInt8) (l4 : Bytes) :
    Malformed (datagram link source dest ttl l4) ∨
      ∃ parsed, datagram link source dest ttl l4 = .ok parsed := by
  rcases parseUdp_total l4 with ⟨error, hparse, herror⟩ |
    ⟨srcPort, dstPort, payload, hparse, _⟩
  · left
    apply malformed_of _ herror
    rw [datagram, hparse]
    rfl
  · right
    rw [datagram, hparse]
    exact ⟨_, rfl⟩

def ParsesProtocol (result : Except (Stop ParseError) Parsed)
    (protocol : UInt8) : Prop :=
  (protocol = ipProtoUdp ∧ ∃ parsed, result = .ok parsed) ∨
    (protocol ≠ ipProtoUdp ∧ result = fail (.notUdp protocol))

theorem ipv4Addr_ok {bytes : Bytes} (h : bytes.length = 4) :
    ∃ addr, ipv4Addr bytes = .ok addr := by
  simp only [ipv4Addr, Ipv4Addr.ofBytes?, h, dif_pos]
  exact ⟨_, rfl⟩

theorem ipv6Addr_ok {bytes : Bytes} (h : bytes.length = 16) :
    ∃ addr, ipv6Addr bytes = .ok addr := by
  simp only [ipv6Addr, Ipv6Addr.ofBytes?, h, dif_pos]
  exact ⟨_, rfl⟩

theorem parseIpv4_total (link : ParsedLink) :
    Malformed (parseIpv4 link) ∨
      ∃ protocol, link.l3[9]? = some protocol ∧
        ParsesProtocol (parseIpv4 link) protocol := by
  simp only [parseIpv4]
  split
  · exact .inl (.inl rfl)
  rename_i hlength
  have hheader : 20 ≤ link.l3.length := Nat.le_of_not_lt hlength
  obtain ⟨versionIhl, hversion, _⟩ :=
    byteAt_ok ParseError link.l3 (show 0 < link.l3.length by omega)
  simp only [hversion, bind, Except.bind]
  split
  · exact .inl (.inr rfl)
  rename_i hihl
  obtain ⟨protocol, hprotocol, hget⟩ :=
    byteAt_ok ParseError link.l3 (show 9 < link.l3.length by omega)
  simp only [hprotocol]
  by_cases hudp : protocol = ipProtoUdp
  case neg =>
    rw [if_pos hudp]
    exact .inr ⟨protocol, hget, .inr ⟨hudp, rfl⟩⟩
  rw [if_neg (fun h => h hudp)]
  obtain ⟨totalLen, htotal⟩ :=
    word_ok ParseError link.l3 (show 2 + 1 < link.l3.length by omega)
  simp only [htotal]
  split
  · exact .inl (.inr rfl)
  rename_i hrange
  obtain ⟨sourceBytes, hsourceBytes, hsourceSlice⟩ :=
    bytesAt_ok ParseError link.l3 (show 12 ≤ 16 by decide) (by omega)
  obtain ⟨destBytes, hdestBytes, hdestSlice⟩ :=
    bytesAt_ok ParseError link.l3 (show 16 ≤ 20 by decide) (by omega)
  obtain ⟨source, hsource⟩ := ipv4Addr_ok (slice?_length hsourceSlice)
  obtain ⟨dest, hdest⟩ := ipv4Addr_ok (slice?_length hdestSlice)
  obtain ⟨ttl, httl, _⟩ :=
    byteAt_ok ParseError link.l3 (show 8 < link.l3.length by omega)
  obtain ⟨body, hbody, _⟩ := bytesAt_ok ParseError link.l3
    (show (versionIhl &&& 0x0f).toNat * 4 ≤ totalLen by omega) (by omega)
  obtain ⟨flagsOffset, hflags⟩ :=
    word_ok ParseError link.l3 (show 6 + 1 < link.l3.length by omega)
  obtain ⟨id, hid⟩ :=
    word_ok ParseError link.l3 (show 4 + 1 < link.l3.length by omega)
  simp only [hsourceBytes, hdestBytes, hsource, hdest, httl, hbody, hflags]
  split
  · rcases datagram_total link (.v4 source) (.v4 dest) ttl body with
      hmalformed | hparsed
    · exact .inl hmalformed
    · exact .inr ⟨protocol, hget, .inl ⟨hudp, hparsed⟩⟩
  · simp only [hid]
    exact .inr ⟨protocol, hget, .inl ⟨hudp, _, rfl⟩⟩

theorem parseFragment_total (link : ParsedLink) (source dest : Ipv6Addr)
    (hopLimit : UInt8) (body : Bytes) :
    Malformed (parseFragment link source dest hopLimit body) ∨
      ∃ protocol, body[0]? = some protocol ∧
        ParsesProtocol (parseFragment link source dest hopLimit body)
          protocol := by
  simp only [parseFragment]
  split
  · exact .inl (.inl rfl)
  rename_i hlength
  have hheader : 8 ≤ body.length := Nat.le_of_not_lt hlength
  obtain ⟨protocol, hprotocol, hget⟩ :=
    byteAt_ok ParseError body (show 0 < body.length by omega)
  simp only [hprotocol, bind, Except.bind]
  by_cases hudp : protocol = ipProtoUdp
  case neg =>
    rw [if_pos hudp]
    exact .inr ⟨protocol, hget, .inr ⟨hudp, rfl⟩⟩
  rw [if_neg (fun h => h hudp)]
  obtain ⟨offsetMore, hoffset⟩ :=
    word_ok ParseError body (show 2 + 1 < body.length by omega)
  obtain ⟨id0, hid0, _⟩ :=
    byteAt_ok ParseError body (show 4 < body.length by omega)
  obtain ⟨id1, hid1, _⟩ :=
    byteAt_ok ParseError body (show 5 < body.length by omega)
  obtain ⟨id2, hid2, _⟩ :=
    byteAt_ok ParseError body (show 6 < body.length by omega)
  obtain ⟨id3, hid3, _⟩ :=
    byteAt_ok ParseError body (show 7 < body.length by omega)
  simp only [hoffset]
  split
  · rcases datagram_total link (.v6 source) (.v6 dest) hopLimit
      (body.drop ipv6FragmentHeaderSize) with hmalformed | hparsed
    · exact .inl hmalformed
    · exact .inr ⟨protocol, hget, .inl ⟨hudp, hparsed⟩⟩
  · simp only [hid0, hid1, hid2, hid3]
    exact .inr ⟨protocol, hget, .inl ⟨hudp, _, rfl⟩⟩

def ParsesNext (l3 : Bytes) (result : Except (Stop ParseError) Parsed)
    (next : UInt8) : Prop :=
  (next = ipv6NextFragment ∧ ∃ protocol, l3[40]? = some protocol ∧
    ParsesProtocol result protocol) ∨
  (next ≠ ipv6NextFragment ∧ ParsesProtocol result next)

theorem parseIpv6_total (link : ParsedLink) :
    Malformed (parseIpv6 link) ∨
      ∃ next, link.l3[6]? = some next ∧
        ParsesNext link.l3 (parseIpv6 link) next := by
  simp only [parseIpv6]
  split
  · exact .inl (.inl rfl)
  rename_i hlength
  have hheader : 40 ≤ link.l3.length := Nat.le_of_not_lt hlength
  obtain ⟨payloadLen, hpayload⟩ :=
    word_ok ParseError link.l3 (show 4 + 1 < link.l3.length by omega)
  simp only [hpayload, bind, Except.bind]
  split
  · exact .inl (.inr rfl)
  rename_i htotal
  obtain ⟨sourceBytes, hsourceBytes, hsourceSlice⟩ :=
    bytesAt_ok ParseError link.l3 (show 8 ≤ 24 by decide) (by omega)
  obtain ⟨destBytes, hdestBytes, hdestSlice⟩ :=
    bytesAt_ok ParseError link.l3 (show 24 ≤ 40 by decide) hheader
  obtain ⟨source, hsource⟩ := ipv6Addr_ok (slice?_length hsourceSlice)
  obtain ⟨dest, hdest⟩ := ipv6Addr_ok (slice?_length hdestSlice)
  obtain ⟨hopLimit, hhop, _⟩ :=
    byteAt_ok ParseError link.l3 (show 7 < link.l3.length by omega)
  obtain ⟨body, hbody, hslice⟩ := bytesAt_ok ParseError link.l3
    (Nat.le_add_right ipv6HeaderSize payloadLen) (by omega)
  obtain ⟨next, hnext, hget⟩ :=
    byteAt_ok ParseError link.l3 (show 6 < link.l3.length by omega)
  simp only [hsourceBytes, hdestBytes, hsource, hdest, hhop, hbody, hnext]
  by_cases hudp : next = ipProtoUdp
  · rw [if_pos hudp]
    rcases datagram_total link (.v6 source) (.v6 dest) hopLimit body with
      hmalformed | hparsed
    · exact .inl hmalformed
    · have hne : next ≠ ipv6NextFragment := by
        rw [hudp]
        decide
      exact .inr ⟨next, hget, .inr ⟨hne, .inl ⟨hudp, hparsed⟩⟩⟩
  rw [if_neg hudp]
  by_cases hfragment : next = ipv6NextFragment
  case neg =>
    rw [if_neg hfragment]
    exact .inr ⟨next, hget, .inr ⟨hfragment, .inr ⟨hudp, rfl⟩⟩⟩
  rw [if_pos hfragment]
  rcases parseFragment_total link source dest hopLimit body with
    hmalformed | ⟨protocol, hprotocol, hparses⟩
  · exact .inl hmalformed
  · refine .inr ⟨next, hget, .inl ⟨hfragment, protocol, ?_, hparses⟩⟩
    obtain ⟨hinside, _⟩ := List.getElem?_eq_some_iff.mp hprotocol
    rw [slice?_length hslice] at hinside
    rw [← hprotocol, getElem?_of_slice? hslice 0 hinside]
    rfl

end Netflector.Net
