import Mathlib.Data.Nat.Bitwise
import Netflector.Net.Frame

/-!
# Written frames read back

Each header is read back from the bytes its writer lays out, innermost first:
UDP, IP with and without fragmentation, and the link.
-/

namespace Netflector.Net

open Netflector.Foundation

/-! ## Reading a layout -/

section Layout

variable {Error : Type}

theorem bytesAt_field (before : Bytes) {part after : Bytes}
    {start stop : Nat}
    (hstart : before.length = start) (hstop : start + part.length = stop) :
    (bytesAt (before ++ (part ++ after)) start stop :
      Except (Stop Error) Bytes) = .ok part := by
  subst hstart hstop
  rw [bytesAt, ← List.append_assoc, slice?_append_middle]
  rfl

theorem bytesAt_rest {before after : Bytes} {start stop : Nat}
    (hstart : before.length = start) (hstop : start + after.length = stop) :
    (bytesAt (before ++ after) start stop : Except (Stop Error) Bytes) =
      .ok after := by
  have h : (bytesAt (before ++ (after ++ [])) start stop :
      Except (Stop Error) Bytes) = .ok after := bytesAt_field before hstart hstop
  rwa [List.append_nil] at h

theorem word_field (before : Bytes) {after : Bytes} {index value : Nat}
    (hindex : before.length = index) (h : value < 65536) :
    (word (before ++ (toBe16 value ++ after)) index :
      Except (Stop Error) Nat) = .ok value := by
  subst hindex
  simp only [word, byteAt]
  rw [List.getElem?_append_right (Nat.le_refl _), Nat.sub_self,
    List.getElem?_append_right (Nat.le_add_right _ 1),
    Nat.add_sub_cancel_left]
  simp only [toBe16, List.cons_append, List.getElem?_cons_zero,
    List.getElem?_cons_succ, orPanic_some, liftPanic_ok, bind, Except.bind]
  rw [be16_toBe16 h]

end Layout

theorem ofBytes?_octets4 (addr : Ipv4Addr) :
    ipv4Addr addr.octets = .ok addr := by
  simp only [ipv4Addr, Ipv4Addr.ofBytes?, addr.length_eq, dif_pos]

theorem ofBytes?_octets6 (addr : Ipv6Addr) :
    ipv6Addr addr.octets = .ok addr := by
  simp only [ipv6Addr, Ipv6Addr.ofBytes?, addr.length_eq, dif_pos]

theorem readMac_octets (mac : MacAddr) : readMac mac.octets = .ok mac := by
  simp only [readMac, MacAddr.ofBytes?, mac.length_eq, dif_pos]

theorem be32_toBe32 (value : UInt32) :
    be32 (UInt8.ofNat (value.toNat / 65536 / 256))
      (UInt8.ofNat (value.toNat / 65536)) (UInt8.ofNat (value.toNat / 256))
      (UInt8.ofNat value.toNat) = value := by
  have hlt := value.toNat_lt
  apply UInt32.toNat_inj.mp
  rw [be32, be16_toBe16 (by omega), UInt32.toNat_ofNat']
  simp only [be16, UInt8.toNat_ofNat']
  omega

/-! ## UDP -/

def udpLayout (srcPort dstPort : UInt16) (length checksum : Nat) : Bytes :=
  toBe16 srcPort.toNat ++ (toBe16 dstPort.toNat ++
    (toBe16 length ++ toBe16 checksum))

@[simp] theorem udpLayout_length (srcPort dstPort : UInt16)
    (length checksum : Nat) :
    (udpLayout srcPort dstPort length checksum).length = udpHeaderSize :=
  rfl

theorem parseUdp_layout (srcPort dstPort : UInt16) (checksum : Nat)
    {payload : Bytes} (h : udpHeaderSize + payload.length < 65536) :
    parseUdp (udpLayout srcPort dstPort (udpHeaderSize + payload.length)
        checksum ++ payload) = .ok (srcPort, dstPort, payload) := by
  have hlength : (udpLayout srcPort dstPort (udpHeaderSize + payload.length)
      checksum ++ payload).length = udpHeaderSize + payload.length := by
    rw [List.length_append, udpLayout_length]
  have hpayload : (bytesAt (udpLayout srcPort dstPort
      (udpHeaderSize + payload.length) checksum ++ payload) udpHeaderSize
      (udpHeaderSize + payload.length) : Except (Stop ParseError) Bytes) =
        .ok payload := bytesAt_rest rfl rfl
  have hsrc : (word (udpLayout srcPort dstPort
      (udpHeaderSize + payload.length) checksum ++ payload) 0 :
      Except (Stop ParseError) Nat) = .ok srcPort.toNat := by
    simp only [udpLayout, List.append_assoc]
    exact word_field [] rfl srcPort.toNat_lt
  have hdst : (word (udpLayout srcPort dstPort
      (udpHeaderSize + payload.length) checksum ++ payload) 2 :
      Except (Stop ParseError) Nat) = .ok dstPort.toNat := by
    simp only [udpLayout, List.append_assoc]
    exact word_field (toBe16 srcPort.toNat) rfl dstPort.toNat_lt
  have hlen : (word (udpLayout srcPort dstPort
      (udpHeaderSize + payload.length) checksum ++ payload) 4 :
      Except (Stop ParseError) Nat) = .ok (udpHeaderSize + payload.length) := by
    simp only [udpLayout, List.append_assoc]
    exact word_field (toBe16 srcPort.toNat ++ toBe16 dstPort.toNat) rfl h
  generalize udpLayout srcPort dstPort (udpHeaderSize + payload.length)
    checksum ++ payload = l4 at *
  rw [parseUdp, if_neg (by omega)]
  simp only [hsrc, hdst, hlen, bind, Except.bind]
  rw [if_neg (by omega), hpayload]
  simp

/-! ## Fragment offsets -/

theorem flags_or {units : Nat} (h : units < 8192) (more : Bool) :
    (units ||| if more then ipv4FlagMf else 0) =
      units + if more then 8192 else 0 := by
  cases more with
  | false => exact Nat.or_zero units
  | true =>
      have hor : 2 ^ 13 * 1 + units = 2 ^ 13 * 1 ||| units :=
        Nat.two_pow_add_eq_or_of_lt h 1
      rw [Nat.or_comm] at hor
      exact hor.symm.trans (Nat.add_comm _ _)

theorem flags_low {units : Nat} (h : units < 8192) (more : Bool) :
    (units ||| if more then ipv4FlagMf else 0) &&& 0x1fff = units := by
  rw [flags_or h]
  exact (Nat.and_two_pow_sub_one_eq_mod _ 13).trans (by split <;> omega)

theorem flags_more {units : Nat} (h : units < 8192) (more : Bool) :
    (units ||| if more then ipv4FlagMf else 0) &&& 0x2000 = 0 ↔
      more = false := by
  rw [flags_or h]
  have hbit : _ &&& 0x2000 = _ :=
    Nat.and_two_pow (units + if more then 8192 else 0) 13
  rw [hbit, Nat.testBit_eq_decide_div_mod_eq]
  have hdiv : units / 8192 = 0 := Nat.div_eq_of_lt h
  cases more with
  | false => simp [hdiv]
  | true => simp [hdiv]

theorem offsetMore_or {units : Nat} (h : units < 8192) (more : Bool) :
    ((units <<< 3) % 65536 ||| if more then 1 else 0) =
      units * 8 + if more then 1 else 0 := by
  have hshift : units <<< 3 = units * 8 := Nat.shiftLeft_eq units 3
  rw [Nat.mod_eq_of_lt (by omega), ← hshift]
  symm
  apply Nat.shiftLeft_add_eq_or_of_lt
  split <;> decide
/-! ## IPv4 -/

section Ipv4

variable {src dst : Ipv4Addr} {id flagsOffset checksum : Nat} {ttl : UInt8}
  {body : Bytes}

def ipv4Layout (src dst : Ipv4Addr) (id flagsOffset checksum : Nat)
    (ttl : UInt8) (body : Bytes) : Bytes :=
  [0x45, 0] ++ toBe16 (ipv4HeaderSize + body.length) ++ toBe16 id ++
    toBe16 flagsOffset ++ [ttl, ipProtoUdp] ++ toBe16 checksum ++
    (src.octets ++ (dst.octets ++ body))

theorem ipv4Layout_length :
    (ipv4Layout src dst id flagsOffset checksum ttl body).length =
      ipv4HeaderSize + body.length := by
  simp only [ipv4Layout, List.length_append, src.length_eq, dst.length_eq,
    toBe16_length, List.length_cons, List.length_nil, ipv4HeaderSize]
  omega

theorem parseIpv4_layout {link : ParsedLink}
    (hlink : link.l3 = ipv4Layout src dst id flagsOffset checksum ttl body)
    (htotal : ipv4HeaderSize + body.length < 65536) (hid : id < 65536)
    (hflags : flagsOffset < 65536) :
    parseIpv4 link =
      if (flagsOffset &&& 0x1fff) * fragmentUnit = 0 ∧
          flagsOffset &&& 0x2000 = 0 then
        datagram link (.v4 src) (.v4 dst) ttl body
      else
        .ok (.fragment ⟨⟨.v4 src, .v4 dst, UInt32.ofNat id,
          (flagsOffset &&& 0x1fff) * fragmentUnit,
          decide (flagsOffset &&& 0x2000 ≠ 0), ttl, link.dstMac, link.srcMac⟩,
          body⟩) := by
  obtain ⟨dstMac, srcMac, l3⟩ := link
  simp only at hlink
  have hlength : l3.length = ipv4HeaderSize + body.length := by
    rw [hlink, ipv4Layout_length]
  have hversion : (byteAt l3 0 : Except (Stop ParseError) UInt8) =
      .ok 0x45 := by rw [hlink]; rfl
  have hprotocol : (byteAt l3 9 : Except (Stop ParseError) UInt8) =
      .ok ipProtoUdp := by rw [hlink]; rfl
  have httl : (byteAt l3 8 : Except (Stop ParseError) UInt8) = .ok ttl := by
    rw [hlink]; rfl
  have htotalLen : (word l3 2 : Except (Stop ParseError) Nat) =
      .ok (ipv4HeaderSize + body.length) := by
    rw [hlink]
    exact word_field [0x45, 0] rfl htotal
  have hident : (word l3 4 : Except (Stop ParseError) Nat) = .ok id := by
    rw [hlink]
    exact word_field
      (([0x45, 0] : Bytes) ++ toBe16 (ipv4HeaderSize + body.length)) rfl hid
  have hflagsOffset : (word l3 6 : Except (Stop ParseError) Nat) =
      .ok flagsOffset := by
    rw [hlink]
    exact word_field
      (([0x45, 0] : Bytes) ++ toBe16 (ipv4HeaderSize + body.length) ++
        toBe16 id) rfl hflags
  have hsource : (bytesAt l3 12 16 : Except (Stop ParseError) Bytes) =
      .ok src.octets := by
    rw [hlink]
    exact bytesAt_field _ rfl (by rw [src.length_eq])
  have hdest : (bytesAt l3 16 20 : Except (Stop ParseError) Bytes) =
      .ok dst.octets := by
    rw [hlink, ipv4Layout, ← List.append_assoc]
    exact bytesAt_field _ (by rw [List.length_append, src.length_eq]; rfl)
      (by rw [dst.length_eq])
  have hbody : (bytesAt l3 ipv4HeaderSize (ipv4HeaderSize + body.length) :
      Except (Stop ParseError) Bytes) = .ok body := by
    rw [hlink, ipv4Layout, ← List.append_assoc, ← List.append_assoc]
    exact bytesAt_rest (by
      rw [List.length_append, List.length_append, src.length_eq,
        dst.length_eq]
      rfl) rfl
  have hheader : ((0x45 : UInt8) &&& 0x0f).toNat * 4 = ipv4HeaderSize := by
    decide
  simp only [parseIpv4]
  rw [if_neg (by omega)]
  simp only [hversion, hheader, hprotocol, htotalLen, hsource, hdest, httl,
    hbody, hflagsOffset, hident, ofBytes?_octets4, bind, Except.bind]
  rw [if_neg (by omega), if_neg (by simp), if_neg (by omega)]
  simp

end Ipv4

/-! ## IPv6 -/

section Ipv6

variable {src dst : Ipv6Addr} {hopLimit next : UInt8} {id : UInt32}
  {body data : Bytes}

def ipv6Layout (src dst : Ipv6Addr) (next hopLimit : UInt8) (body : Bytes) :
    Bytes :=
  [0x60, 0, 0, 0] ++ toBe16 body.length ++ [next, hopLimit] ++
    (src.octets ++ (dst.octets ++ body))

def fragmentLayout (offsetMore : Nat) (id : UInt32) : Bytes :=
  [ipProtoUdp, 0] ++ toBe16 offsetMore ++ toBe32 id

theorem ipv6Layout_length :
    (ipv6Layout src dst next hopLimit body).length =
      ipv6HeaderSize + body.length := by
  simp only [ipv6Layout, List.length_append, src.length_eq, dst.length_eq,
    toBe16_length, List.length_cons, List.length_nil, ipv6HeaderSize]
  omega

theorem parseIpv6_layout {link : ParsedLink}
    (hlink : link.l3 = ipv6Layout src dst next hopLimit body)
    (htotal : body.length < 65536) :
    parseIpv6 link =
      if next = ipProtoUdp then
        datagram link (.v6 src) (.v6 dst) hopLimit body
      else if next = ipv6NextFragment then
        parseFragment link src dst hopLimit body
      else fail (.notUdp next) := by
  obtain ⟨dstMac, srcMac, l3⟩ := link
  simp only at hlink
  have hlength : l3.length = ipv6HeaderSize + body.length := by
    rw [hlink, ipv6Layout_length]
  have hnext : (byteAt l3 6 : Except (Stop ParseError) UInt8) = .ok next := by
    rw [hlink]; rfl
  have hhop : (byteAt l3 7 : Except (Stop ParseError) UInt8) =
      .ok hopLimit := by rw [hlink]; rfl
  have hpayloadLen : (word l3 4 : Except (Stop ParseError) Nat) =
      .ok body.length := by
    rw [hlink]
    exact word_field [0x60, 0, 0, 0] rfl htotal
  have hsource : (bytesAt l3 8 24 : Except (Stop ParseError) Bytes) =
      .ok src.octets := by
    rw [hlink]
    exact bytesAt_field _ rfl (by rw [src.length_eq])
  have hdest : (bytesAt l3 24 40 : Except (Stop ParseError) Bytes) =
      .ok dst.octets := by
    rw [hlink, ipv6Layout, ← List.append_assoc]
    exact bytesAt_field _ (by rw [List.length_append, src.length_eq]; rfl)
      (by rw [dst.length_eq])
  have hbody : (bytesAt l3 ipv6HeaderSize (ipv6HeaderSize + body.length) :
      Except (Stop ParseError) Bytes) = .ok body := by
    rw [hlink, ipv6Layout, ← List.append_assoc, ← List.append_assoc]
    exact bytesAt_rest (by
      rw [List.length_append, List.length_append, src.length_eq,
        dst.length_eq]
      rfl) rfl
  simp only [parseIpv6]
  rw [if_neg (by omega)]
  simp only [hpayloadLen, hsource, hdest, hhop, hbody, hnext,
    ofBytes?_octets6, bind, Except.bind]
  rw [if_neg (by omega)]

theorem parseFragment_layout {link : ParsedLink} {units : Nat} {more : Bool}
    (hunits : units < 8192) (hpart : ¬ (units = 0 ∧ more = false)) :
    parseFragment link src dst hopLimit
        (fragmentLayout ((units <<< 3) % 65536 ||| if more then 1 else 0) id ++
          data) =
      .ok (.fragment ⟨⟨.v6 src, .v6 dst, id, units * fragmentUnit, more,
        hopLimit, link.dstMac, link.srcMac⟩, data⟩) := by
  rw [offsetMore_or hunits]
  generalize hfield : units * 8 + (if more then 1 else 0) = offsetMore
  have hlt : offsetMore < 65536 := by
    rw [← hfield]
    split <;> omega
  have hword : (word (fragmentLayout offsetMore id ++ data) 2 :
      Except (Stop ParseError) Nat) = .ok offsetMore :=
    word_field [ipProtoUdp, 0] rfl hlt
  have hlength : ¬ (fragmentLayout offsetMore id ++ data).length <
      ipv6FragmentHeaderSize := by
    rw [List.length_append]
    exact Nat.not_lt.mpr (Nat.le_add_right _ _)
  have hprotocol : (byteAt (fragmentLayout offsetMore id ++ data) 0 :
      Except (Stop ParseError) UInt8) = .ok ipProtoUdp := rfl
  have hdata : (fragmentLayout offsetMore id ++ data).drop
      ipv6FragmentHeaderSize = data := rfl
  have hshift : offsetMore >>> 3 = units := by
    rw [Nat.shiftRight_eq_div_pow, ← hfield]
    split <;> omega
  have hmore : decide (offsetMore &&& 1 ≠ 0) = more := by
    rw [Nat.and_one_is_mod, ← hfield]
    cases more with
    | false => simp [Nat.mul_mod]
    | true => simp [Nat.add_mod, Nat.mul_mod]
  simp only [parseFragment]
  rw [if_neg hlength]
  simp only [hprotocol, hword, hdata, hshift, hmore, bind, Except.bind]
  rw [if_neg (by simp), if_neg (by simpa [fragmentUnit] using hpart)]
  change Except.ok (Parsed.fragment ⟨⟨_, _, be32 _ _ _ _, _, _, _, _, _⟩, _⟩) =
    _
  rw [be32_toBe32]

end Ipv6

/-! ## Links -/

theorem ethernetL3_layout {dst src l3 : Bytes} {ethertype : Nat}
    (hdst : dst.length = 6) (hsrc : src.length = 6)
    (hethertype : toBe16 ethertype ≠ toBe16 ethertypeVlan) :
    ethernetL3 (dst ++ (src ++ (toBe16 ethertype ++ l3))) = .ok l3 := by
  have hlength : (dst ++ (src ++ (toBe16 ethertype ++ l3))).length =
      ethernetHeaderSize + l3.length := by
    simp only [List.length_append, hdst, hsrc, toBe16_length,
      ethernetHeaderSize]
    omega
  have htype : (bytesAt (dst ++ (src ++ (toBe16 ethertype ++ l3))) 12
      ethernetHeaderSize : Except (Stop ParseError) Bytes) =
      .ok (toBe16 ethertype) := by
    rw [← List.append_assoc]
    exact bytesAt_field _ (by rw [List.length_append, hdst, hsrc]) rfl
  have hrest : (dst ++ (src ++ (toBe16 ethertype ++ l3))).drop
      ethernetHeaderSize = l3 := by
    rw [← List.append_assoc, ← List.append_assoc]
    apply List.drop_left'
    simp only [List.length_append, hdst, hsrc, toBe16_length,
      ethernetHeaderSize]
  rw [ethernetL3, if_neg (by omega)]
  simp only [htype, bind, Except.bind]
  rw [if_pos hethertype, hrest]

theorem parseLinkHeader_layout (link : LinkHeader) (ipv6 : Bool) (l3 : Bytes) :
    parseLinkHeader link.linkType (link.write ipv6 ++ l3) =
      .ok ⟨link.dstMac, link.srcMac, l3⟩ := by
  cases link with
  | ethernet dst src =>
      have hethertype : toBe16
          (if ipv6 then ipv6Ethertype else ipv4Ethertype) ≠
          toBe16 ethertypeVlan := by cases ipv6 <;> decide
      simp only [LinkHeader.linkType, LinkHeader.write, List.append_assoc,
        parseLinkHeader, LinkHeader.dstMac, LinkHeader.srcMac]
      rw [ethernetL3_layout dst.length_eq src.length_eq hethertype]
      have hdst : (bytesAt (dst.octets ++ (src.octets ++ (toBe16
          (if ipv6 then ipv6Ethertype else ipv4Ethertype) ++ l3))) 0 6 :
          Except (Stop ParseError) Bytes) = .ok dst.octets :=
        bytesAt_field [] rfl (by rw [dst.length_eq])
      have hsrc : (bytesAt (dst.octets ++ (src.octets ++ (toBe16
          (if ipv6 then ipv6Ethertype else ipv4Ethertype) ++ l3))) 6 12 :
          Except (Stop ParseError) Bytes) = .ok src.octets :=
        bytesAt_field _ dst.length_eq (by rw [src.length_eq])
      simp only [hdst, hsrc, readMac_octets, bind, Except.bind]
  | dltNull => cases ipv6 <;> rfl
  | rawIp => rfl

/-! ## Whole packets -/

namespace IpHeader

def source : IpHeader → IpAddr
  | .v4 src _ _ _ => .v4 src
  | .v6 src _ _ _ => .v6 src

def dest : IpHeader → IpAddr
  | .v4 _ dst _ _ => .v4 dst
  | .v6 _ dst _ _ => .v6 dst

def ttl : IpHeader → UInt8
  | .v4 _ _ ttl _ => ttl
  | .v6 _ _ hopLimit _ => hopLimit

def ident : IpHeader → UInt32
  | .v4 _ _ _ id => UInt32.ofNat id.toNat
  | .v6 _ _ _ id => id

def Fits (ip : IpHeader) (fragmented : Bool) (dataLen : Nat) : Prop :=
  match ip with
  | .v4 .. => ipv4HeaderSize + dataLen < 65536
  | .v6 .. => ip.size fragmented - ipv6HeaderSize + dataLen < 65536

end IpHeader

theorem units_total {offset : Nat} (more : Bool) (h : offset < 65536) :
    Placement.units ⟨offset, more⟩ = .ok (offset / fragmentUnit) := by
  simp only [Placement.units]
  rw [if_pos (by simp only [fragmentUnit]; omega)]

theorem writeV4_layout (src dst : Ipv4Addr) (ttl : UInt8) (id : UInt16)
    {body : Bytes} {placement : Option Placement} {flags : Nat}
    (hflags : flagsOffset placement = .ok flags)
    (htotal : ipv4HeaderSize + body.length < 65536) :
    ∃ checksum header,
      IpHeader.writeV4 src dst ttl id body.length placement = .ok header ∧
      header.length = ipv4HeaderSize ∧
      header ++ body = ipv4Layout src dst id.toNat flags checksum ttl body := by
  have hlength : (([0x45, 0] : Bytes) ++
      toBe16 (ipv4HeaderSize + body.length) ++ toBe16 id.toNat ++
      toBe16 flags ++ [ttl, ipProtoUdp] ++ [0, 0] ++
      (src.octets ++ dst.octets)).length = 20 := by
    simp only [List.length_append, src.length_eq, dst.length_eq,
      toBe16_length, List.length_cons, List.length_nil]
  obtain ⟨checksum, hchecksum⟩ := Checksum.ipv4Header_total hlength
  simp only [IpHeader.writeV4]
  rw [if_neg (by omega)]
  simp only [hflags, hchecksum, bind, Except.bind]
  refine ⟨checksum, _, rfl, ?_, ?_⟩
  · simp only [List.length_append, src.length_eq, dst.length_eq,
      toBe16_length, List.length_cons, List.length_nil, ipv4HeaderSize]
  · simp only [ipv4Layout, List.append_assoc]

theorem writeV6_layout (src dst : Ipv6Addr) (hopLimit : UInt8) (id : UInt32)
    {body : Bytes} (htotal : body.length < 65536) :
    ∃ header, IpHeader.writeV6 src dst hopLimit id ipv6HeaderSize body.length
        none = .ok header ∧
      header.length = ipv6HeaderSize ∧
      header ++ body = ipv6Layout src dst ipProtoUdp hopLimit body := by
  simp only [IpHeader.writeV6, Nat.sub_self, Nat.zero_add]
  rw [if_neg (by omega)]
  refine ⟨_, rfl, ?_, ?_⟩
  · simp only [List.length_append, src.length_eq, dst.length_eq,
      toBe16_length, List.length_cons, List.length_nil, ipv6HeaderSize]
  · simp only [ipv6Layout, List.append_assoc]

theorem writeV6_fragment (src dst : Ipv6Addr) (hopLimit : UInt8)
    (id : UInt32) {data : Bytes} {offset : Nat} {more : Bool}
    (hoffset : offset < 65536)
    (htotal : ipv6FragmentHeaderSize + data.length < 65536) :
    ∃ header, IpHeader.writeV6 src dst hopLimit id
        (ipv6HeaderSize + ipv6FragmentHeaderSize) data.length
        (some ⟨offset, more⟩) = .ok header ∧
      header.length = ipv6HeaderSize + ipv6FragmentHeaderSize ∧
      header ++ data = ipv6Layout src dst ipv6NextFragment hopLimit
        (fragmentLayout (((offset / fragmentUnit) <<< 3) % 65536 |||
          if more then 1 else 0) id ++ data) := by
  have hlength : ∀ offsetMore,
      (fragmentLayout offsetMore id ++ data).length =
        ipv6FragmentHeaderSize + data.length := by
    intro offsetMore
    rw [List.length_append]
    rfl
  simp only [IpHeader.writeV6, Nat.add_sub_cancel_left,
    units_total more hoffset, bind, Except.bind]
  rw [if_neg (by omega)]
  refine ⟨_, rfl, ?_, ?_⟩
  · simp only [List.length_append, src.length_eq, dst.length_eq,
      toBe16_length, List.length_cons, List.length_nil, toBe32,
      ipv6HeaderSize, ipv6FragmentHeaderSize]
  · simp only [ipv6Layout, hlength]
    simp only [fragmentLayout, List.append_assoc]

theorem parse_of_v4 {link : LinkHeader} {src dst : Ipv4Addr} {ttl : UInt8}
    {id flags checksum : Nat} {body : Bytes} :
    Parsed.parse link.linkType (link.write false ++
        ipv4Layout src dst id flags checksum ttl body) =
      parseIpv4 ⟨link.dstMac, link.srcMac,
        ipv4Layout src dst id flags checksum ttl body⟩ := by
  simp only [Parsed.parse, parseLinkHeader_layout, bind, Except.bind]
  rfl

theorem parse_of_v6 {link : LinkHeader} {src dst : Ipv6Addr}
    {next hopLimit : UInt8} {body : Bytes} :
    Parsed.parse link.linkType (link.write true ++
        ipv6Layout src dst next hopLimit body) =
      parseIpv6 ⟨link.dstMac, link.srcMac,
        ipv6Layout src dst next hopLimit body⟩ := by
  simp only [Parsed.parse, parseLinkHeader_layout, bind, Except.bind]
  rfl

theorem write_whole (ip : IpHeader) {body : Bytes}
    (hfits : ip.Fits false body.length) :
    ∃ header, ip.write (ip.size false) body.length none = .ok header ∧
      header.length = ip.size false ∧
      ∀ link : LinkHeader,
        Parsed.parse link.linkType (link.write ip.isV6 ++ header ++ body) =
          datagram ⟨link.dstMac, link.srcMac, header ++ body⟩ ip.source ip.dest
            ip.ttl body := by
  cases ip with
  | v4 src dst ttl id =>
      have hflags : flagsOffset none = .ok 0 := rfl
      obtain ⟨checksum, header, hwrite, hlength, hlayout⟩ :=
        writeV4_layout src dst ttl id hflags hfits
      refine ⟨header, hwrite, hlength, ?_⟩
      intro link
      rw [List.append_assoc, hlayout]
      refine parse_of_v4.trans ?_
      rw [parseIpv4_layout rfl hfits id.toNat_lt (by decide)]
      rfl
  | v6 src dst hopLimit id =>
      have htotal : body.length < 65536 := by
        simpa [IpHeader.Fits, IpHeader.size] using hfits
      obtain ⟨header, hwrite, hlength, hlayout⟩ :=
        writeV6_layout src dst hopLimit id htotal
      refine ⟨header, hwrite, hlength, ?_⟩
      intro link
      rw [List.append_assoc, hlayout]
      refine parse_of_v6.trans ?_
      rw [parseIpv6_layout rfl htotal]
      rfl

theorem write_fragment (ip : IpHeader) {data : Bytes} {units : Nat}
    {more : Bool} (hfits : ip.Fits true data.length) (hunits : units < 8192)
    (hpart : ¬ (units = 0 ∧ more = false)) :
    ∃ header, ip.write (ip.size true) data.length
        (some ⟨units * fragmentUnit, more⟩) = .ok header ∧
      header.length = ip.size true ∧
      ∀ link : LinkHeader,
        Parsed.parse link.linkType (link.write ip.isV6 ++ header ++ data) =
          .ok (.fragment ⟨⟨ip.source, ip.dest, ip.ident, units * fragmentUnit,
            more, ip.ttl, link.dstMac, link.srcMac⟩, data⟩) := by
  have hoffset : units * fragmentUnit < 65536 := by
    simp only [fragmentUnit]
    omega
  have hdiv : units * fragmentUnit / fragmentUnit = units :=
    Nat.mul_div_cancel _ (by decide)
  cases ip with
  | v4 src dst ttl id =>
      have hflags : flagsOffset (some ⟨units * fragmentUnit, more⟩) =
          .ok (units ||| if more then ipv4FlagMf else 0) := by
        simp only [flagsOffset, units_total more hoffset, hdiv, bind,
          Except.bind]
      have hfield : (units ||| if more then ipv4FlagMf else 0) < 65536 := by
        rw [flags_or hunits]
        split <;> omega
      obtain ⟨checksum, header, hwrite, hlength, hlayout⟩ :=
        writeV4_layout src dst ttl id hflags hfits
      refine ⟨header, hwrite, hlength, ?_⟩
      intro link
      rw [List.append_assoc, hlayout]
      refine parse_of_v4.trans ?_
      have hpart' : ¬ (units * fragmentUnit = 0 ∧
          (units ||| if more then ipv4FlagMf else 0) &&& 0x2000 = 0) := by
        rw [flags_more hunits]
        simpa [fragmentUnit] using hpart
      have hmore : decide ((units ||| if more then ipv4FlagMf else 0) &&&
          0x2000 ≠ 0) = more := by
        rw [Bool.eq_iff_iff, decide_eq_true_iff, Ne, flags_more hunits,
          Bool.not_eq_false]
      rw [parseIpv4_layout rfl hfits id.toNat_lt hfield, flags_low hunits,
        if_neg hpart', hmore]
      rfl
  | v6 src dst hopLimit id =>
      have htotal : ipv6FragmentHeaderSize + data.length < 65536 := by
        simpa [IpHeader.Fits, IpHeader.size] using hfits
      obtain ⟨header, hwrite, hlength, hlayout⟩ :=
        writeV6_fragment src dst hopLimit id hoffset htotal
      refine ⟨header, hwrite, hlength, ?_⟩
      intro link
      rw [List.append_assoc, hlayout, hdiv]
      refine parse_of_v6.trans ?_
      rw [parseIpv6_layout rfl (by
        rw [List.length_append]
        exact htotal), if_neg (by decide), if_pos rfl,
        parseFragment_layout hunits hpart]
      rfl

end Netflector.Net
