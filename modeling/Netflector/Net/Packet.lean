import Netflector.Net.Checksum

/-!
# Captured packets

A captured frame is a whole UDP datagram or a fragment of one.  Every index and
slice the parser takes is checked: one out of range is a panic, apart from the
errors it reports.
-/

namespace Netflector.Net

open Netflector.Foundation

def ipv6NextFragment : UInt8 := 44
def ethernetHeaderSize : Nat := 14
def dltNullHeaderSize : Nat := 4
def ipv4HeaderSize : Nat := 20
def ipv6HeaderSize : Nat := 40
def ipv6FragmentHeaderSize : Nat := 8
def fragmentUnit : Nat := 8
def maxDatagramLen : Nat := 9000
def ipv4MaxHeaderSize : Nat := 60
def maxFrameLen : Nat := ethernetHeaderSize + ipv4MaxHeaderSize + maxDatagramLen
def maxMtu : Nat := maxFrameLen - ethernetHeaderSize
def ethertypeVlan : Nat := 0x8100
def vlanIdMask : Nat := 0x0fff

structure MacAddr where
  octets : Bytes
  length_eq : octets.length = 6
  deriving DecidableEq

def MacAddr.ofBytes? (bytes : Bytes) : Option MacAddr :=
  if h : bytes.length = 6 then some ⟨bytes, h⟩ else none

def MacAddr.broadcast : MacAddr := ⟨List.replicate 6 0xff, rfl⟩

def MacAddr.multicastFor : IpAddr → MacAddr
  | .v4 addr =>
      ⟨[0x01, 0x00, 0x5e, (addr.octets.getD 1 0) &&& 0x7f,
        addr.octets.getD 2 0, addr.octets.getD 3 0], rfl⟩
  | .v6 addr =>
      ⟨[0x33, 0x33, addr.octets.getD 12 0, addr.octets.getD 13 0,
        addr.octets.getD 14 0, addr.octets.getD 15 0], rfl⟩

def MacAddr.isUnspecified (mac : MacAddr) : Bool :=
  mac.octets == List.replicate 6 0

inductive LinkType where
  | ethernet
  | dltNull
  | rawIp
  deriving DecidableEq, Repr

structure SocketAddr where
  ip : IpAddr
  port : UInt16
  deriving DecidableEq

structure Packet where
  source : SocketAddr
  dest : SocketAddr
  ttl : UInt8
  dstMac : Option MacAddr
  srcMac : Option MacAddr
  payload : Bytes
  deriving DecidableEq

structure FragmentHeader where
  source : IpAddr
  dest : IpAddr
  id : UInt32
  offset : Nat
  more : Bool
  ttl : UInt8
  dstMac : Option MacAddr
  srcMac : Option MacAddr
  deriving DecidableEq

structure Fragment where
  header : FragmentHeader
  data : Bytes
  deriving DecidableEq

inductive Parsed where
  | datagram (packet : Packet)
  | fragment (fragment : Fragment)
  deriving DecidableEq

inductive ParseError where
  | truncated
  | badIpVersion (version : UInt8)
  | notUdp (protocol : UInt8)
  | badLength
  | badChecksum
  | vlanTagged (vlan : Nat)
  deriving DecidableEq

/-! ## Checked access -/

section Access

variable {Error : Type}

def byteAt (bytes : Bytes) (index : Nat) : Except (Stop Error) UInt8 :=
  liftPanic (orPanic .outOfRange bytes[index]?)

def bytesAt (bytes : Bytes) (start stop : Nat) : Except (Stop Error) Bytes :=
  liftPanic (orPanic .outOfRange (slice? bytes start stop))

def word (bytes : Bytes) (index : Nat) : Except (Stop Error) Nat := do
  let high ← byteAt bytes index
  let low ← byteAt bytes (index + 1)
  .ok (be16 high low)

end Access

/-! ## Parsing -/

def parseUdp (l4 : Bytes) :
    Except (Stop ParseError) (UInt16 × UInt16 × Bytes) :=
  if l4.length < udpHeaderSize then fail .truncated
  else do
    let srcPort ← word l4 0
    let dstPort ← word l4 2
    let udpLen ← word l4 4
    if udpLen < udpHeaderSize ∨ udpLen > l4.length then fail .badLength
    else
      let payload ← bytesAt l4 udpHeaderSize udpLen
      .ok (UInt16.ofNat srcPort, UInt16.ofNat dstPort, payload)

structure ParsedLink where
  dstMac : Option MacAddr
  srcMac : Option MacAddr
  l3 : Bytes

def readMac (bytes : Bytes) : Except (Stop ParseError) MacAddr :=
  match MacAddr.ofBytes? bytes with
  | some mac => .ok mac
  | none => fail .truncated

/-- The bytes past the Ethernet header.  A tag with VLAN id 0 carries only a
priority and is skipped. -/
def ethernetL3 (frame : Bytes) : Except (Stop ParseError) Bytes :=
  if frame.length < ethernetHeaderSize then fail .truncated
  else do
    let rest := frame.drop ethernetHeaderSize
    let ethertype ← bytesAt frame 12 ethernetHeaderSize
    if ethertype ≠ toBe16 ethertypeVlan then .ok rest
    else
      match rest with
      | tciHigh :: tciLow :: _ :: _ :: l3 =>
          let vlan := be16 tciHigh tciLow &&& vlanIdMask
          if vlan = 0 then .ok l3 else fail (.vlanTagged vlan)
      | _ => fail .truncated

def parseLinkHeader (linkType : LinkType) (frame : Bytes) :
    Except (Stop ParseError) ParsedLink :=
  match linkType with
  | .ethernet => do
      let l3 ← ethernetL3 frame
      let dst ← bytesAt frame 0 6
      let dstMac ← readMac dst
      let src ← bytesAt frame 6 12
      let srcMac ← readMac src
      .ok ⟨some dstMac, some srcMac, l3⟩
  | .dltNull =>
      if frame.length < dltNullHeaderSize then fail .truncated
      else .ok ⟨none, none, frame.drop dltNullHeaderSize⟩
  | .rawIp => .ok ⟨none, none, frame⟩

def datagram (link : ParsedLink) (source dest : IpAddr) (ttl : UInt8)
    (l4 : Bytes) : Except (Stop ParseError) Parsed := do
  let (srcPort, dstPort, payload) ← parseUdp l4
  .ok (.datagram ⟨⟨source, srcPort⟩, ⟨dest, dstPort⟩, ttl, link.dstMac,
    link.srcMac, payload⟩)

def ipv4Addr (bytes : Bytes) : Except (Stop ParseError) Ipv4Addr :=
  match Ipv4Addr.ofBytes? bytes with
  | some addr => .ok addr
  | none => fail .truncated

def ipv6Addr (bytes : Bytes) : Except (Stop ParseError) Ipv6Addr :=
  match Ipv6Addr.ofBytes? bytes with
  | some addr => .ok addr
  | none => fail .truncated

def parseIpv4 (link : ParsedLink) : Except (Stop ParseError) Parsed :=
  let l3 := link.l3
  if l3.length < ipv4HeaderSize then fail .truncated
  else do
    let versionIhl ← byteAt l3 0
    let headerLen := (versionIhl &&& 0x0f).toNat * 4
    if headerLen < ipv4HeaderSize ∨ headerLen > l3.length then fail .badLength
    else
      let protocol ← byteAt l3 9
      if protocol ≠ ipProtoUdp then fail (.notUdp protocol)
      else
        let totalLen ← word l3 2
        -- The total length trims trailing link padding.
        if totalLen < headerLen ∨ totalLen > l3.length then fail .badLength
        else
          let source ← ipv4Addr (← bytesAt l3 12 16)
          let dest ← ipv4Addr (← bytesAt l3 16 20)
          let ttl ← byteAt l3 8
          let body ← bytesAt l3 headerLen totalLen
          let flagsOffset ← word l3 6
          let offset := (flagsOffset &&& 0x1fff) * fragmentUnit
          let more : Bool := flagsOffset &&& 0x2000 ≠ 0
          if offset = 0 ∧ !more then
            datagram link (.v4 source) (.v4 dest) ttl body
          else
            let id ← word l3 4
            .ok (.fragment ⟨⟨.v4 source, .v4 dest, UInt32.ofNat id, offset,
              more, ttl, link.dstMac, link.srcMac⟩, body⟩)

def parseFragment (link : ParsedLink) (source dest : Ipv6Addr)
    (hopLimit : UInt8) (body : Bytes) : Except (Stop ParseError) Parsed :=
  if body.length < ipv6FragmentHeaderSize then fail .truncated
  else do
    let protocol ← byteAt body 0
    if protocol ≠ ipProtoUdp then fail (.notUdp protocol)
    else
      let data := body.drop ipv6FragmentHeaderSize
      let offsetMore ← word body 2
      let offset := (offsetMore >>> 3) * fragmentUnit
      let more : Bool := offsetMore &&& 1 ≠ 0
      -- An atomic fragment is the whole datagram.
      if offset = 0 ∧ !more then
        datagram link (.v6 source) (.v6 dest) hopLimit data
      else
        let id := be32 (← byteAt body 4) (← byteAt body 5)
          (← byteAt body 6) (← byteAt body 7)
        .ok (.fragment ⟨⟨.v6 source, .v6 dest, id, offset, more, hopLimit,
          link.dstMac, link.srcMac⟩, data⟩)

/-- Of the extension headers only a fragment header directly after the base
header is read. -/
def parseIpv6 (link : ParsedLink) : Except (Stop ParseError) Parsed :=
  let l3 := link.l3
  if l3.length < ipv6HeaderSize then fail .truncated
  else do
    let payloadLen ← word l3 4
    let totalLen := ipv6HeaderSize + payloadLen
    if totalLen > l3.length then fail .badLength
    else
      let source ← ipv6Addr (← bytesAt l3 8 24)
      let dest ← ipv6Addr (← bytesAt l3 24 40)
      let hopLimit ← byteAt l3 7
      let body ← bytesAt l3 ipv6HeaderSize totalLen
      let next ← byteAt l3 6
      if next = ipProtoUdp then
        datagram link (.v6 source) (.v6 dest) hopLimit body
      else if next = ipv6NextFragment then
        parseFragment link source dest hopLimit body
      else fail (.notUdp next)

/-- The version nibble, not the ethertype, governs the header layout. -/
def Parsed.parse (linkType : LinkType) (frame : Bytes) :
    Except (Stop ParseError) Parsed := do
  let link ← parseLinkHeader linkType frame
  match link.l3 with
  | [] => fail .truncated
  | first :: _ =>
      let version := first >>> 4
      if version = 4 then parseIpv4 link
      else if version = 6 then parseIpv6 link
      else fail (.badIpVersion version)

/-- The datagram's addressing as a packet without payload, from its first
fragment. -/
def Fragment.headers (fragment : Fragment) : Option Packet :=
  if fragment.header.offset ≠ 0 then none
  else
    match fragment.data with
    | src0 :: src1 :: dst0 :: dst1 :: _ :: _ :: _ :: _ :: _ =>
        some ⟨⟨fragment.header.source, UInt16.ofNat (be16 src0 src1)⟩,
          ⟨fragment.header.dest, UInt16.ofNat (be16 dst0 dst1)⟩,
          fragment.header.ttl, fragment.header.dstMac, fragment.header.srcMac,
          []⟩
    | _ => none

/-- On a link with MACs the all-ones destination is decisive; without them only
the address is left. -/
def Packet.isBroadcast (packet : Packet)
    (directedBroadcast : Option Ipv4Addr) : Bool :=
  match packet.dest.ip, packet.dstMac with
  | .v4 v4, some mac => !v4.isMulticast && mac = MacAddr.broadcast
  | .v4 v4, none => v4.isBroadcast || some v4 = directedBroadcast
  | .v6 _, _ => false

def checksumValid (first : FragmentHeader) (stored : Nat)
    (header payload : Bytes) : Except (Stop ParseError) Bool :=
  match first.source, first.dest with
  | .v4 src, .v4 dst =>
      -- IPv4 lets a sender leave the checksum out.
      if stored = 0 then .ok true
      else do
        let checksum ← liftPanic (Checksum.udpV4 src dst header payload)
        .ok (decide (checksum = stored))
  | .v6 src, .v6 dst => do
      let checksum ← liftPanic (Checksum.udpV6 src dst header payload)
      .ok (decide (checksum = stored))
  | _, _ => .ok false

/-- A datagram put back together: the UDP length must span it and its checksum
must hold. -/
def Packet.reassembled (first : FragmentHeader) (datagram : Bytes) :
    Except (Stop ParseError) Packet := do
  let (srcPort, dstPort, payload) ← parseUdp datagram
  if datagram.length < udpHeaderSize then fail .truncated
  else
    let header := datagram.take udpHeaderSize
    if udpHeaderSize + payload.length ≠ datagram.length then fail .badLength
    else
      let stored ← word header 6
      let valid ← checksumValid first stored header payload
      if !valid then fail .badChecksum
      else
        .ok ⟨⟨first.source, srcPort⟩, ⟨first.dest, dstPort⟩, first.ttl,
          first.dstMac, first.srcMac, payload⟩

end Netflector.Net
