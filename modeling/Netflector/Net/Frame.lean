import Netflector.Net.Packet

/-!
# Injected frames

A UDP datagram laid out for one link: a single frame when it fits the MTU,
otherwise one IP fragment per frame.  The headers are written field by field
in wire order; the fields the code leaves zero are written out.
-/

namespace Netflector.Net

open Netflector.Foundation

def ipv4Ethertype : Nat := 0x0800
def ipv6Ethertype : Nat := 0x86dd
def ipv4FlagMf : Nat := 0x2000

structure SocketAddrV6 where
  ip : Ipv6Addr
  port : UInt16
  deriving DecidableEq

inductive FrameError where
  | bufferTooSmall (needed available : Nat)
  | payloadTooLarge (payload : Nat)
  | mtuTooSmall (mtu : Nat)
  deriving DecidableEq

/-! ## Headers -/

inductive LinkHeader where
  | ethernet (dst src : MacAddr)
  | dltNull
  | rawIp
  deriving DecidableEq

namespace LinkHeader

def size : LinkHeader → Nat
  | .ethernet _ _ => ethernetHeaderSize
  | .dltNull => dltNullHeaderSize
  | .rawIp => 0

/-- The `DLT_NULL` family is in host byte order; the IPv6 one is macOS's. -/
def write (link : LinkHeader) (ipv6 : Bool) : Bytes :=
  match link with
  | .ethernet dst src =>
      dst.octets ++ src.octets ++
        toBe16 (if ipv6 then ipv6Ethertype else ipv4Ethertype)
  | .dltNull => if ipv6 then [30, 0, 0, 0] else [2, 0, 0, 0]
  | .rawIp => []

def linkType : LinkHeader → LinkType
  | .ethernet _ _ => .ethernet
  | .dltNull => .dltNull
  | .rawIp => .rawIp

def dstMac : LinkHeader → Option MacAddr
  | .ethernet dst _ => some dst
  | _ => none

def srcMac : LinkHeader → Option MacAddr
  | .ethernet _ src => some src
  | _ => none

end LinkHeader

structure Placement where
  offset : Nat
  more : Bool
  deriving DecidableEq

def Placement.units (placement : Placement) : Except Panic Nat :=
  let units := placement.offset / fragmentUnit
  if units < 65536 then .ok units
  else .error (.expect "a datagram's offsets fit 13 bits")

def flagsOffset : Option Placement → Except Panic Nat
  | none => .ok 0
  | some placement => do
      let units ← placement.units
      .ok (units ||| if placement.more then ipv4FlagMf else 0)

inductive IpHeader where
  | v4 (src dst : Ipv4Addr) (ttl : UInt8) (id : UInt16)
  | v6 (src dst : Ipv6Addr) (hopLimit : UInt8) (id : UInt32)
  deriving DecidableEq

namespace IpHeader

def isV6 : IpHeader → Bool
  | .v4 .. => false
  | .v6 .. => true

def size (ip : IpHeader) (fragmented : Bool) : Nat :=
  match ip with
  | .v4 .. => ipv4HeaderSize
  | .v6 .. =>
      if fragmented then ipv6HeaderSize + ipv6FragmentHeaderSize
      else ipv6HeaderSize

def writeV4 (src dst : Ipv4Addr) (ttl : UInt8) (id : UInt16) (dataLen : Nat)
    (placement : Option Placement) : Except Panic Bytes := do
  let totalLength := ipv4HeaderSize + dataLen
  if totalLength ≥ 65536 then
    .error (.expect "UdpFrames bounds a datagram by the total-length field")
  else
    let flagsOffset ← flagsOffset placement
    -- Version 4, five words of header.
    let front := [0x45, 0] ++ toBe16 totalLength ++ toBe16 id.toNat ++
      toBe16 flagsOffset ++ [ttl, ipProtoUdp]
    let back := src.octets ++ dst.octets
    let checksum ← Checksum.ipv4Header (front ++ [0, 0] ++ back)
    .ok (front ++ toBe16 checksum ++ back)

/-- `len` is the length of the header to fill.  The payload length counts any
extension header. -/
def writeV6 (src dst : Ipv6Addr) (hopLimit : UInt8) (id : UInt32)
    (len dataLen : Nat) (placement : Option Placement) :
    Except Panic Bytes := do
  let payloadLength := len - ipv6HeaderSize + dataLen
  if payloadLength ≥ 65536 then
    .error (.expect "UdpFrames bounds a datagram by the UDP length field")
  else
    let base (next : UInt8) := [0x60, 0, 0, 0] ++ toBe16 payloadLength ++
      [next, hopLimit] ++ src.octets ++ dst.octets
    match placement with
    | none => .ok (base ipProtoUdp)
    | some placement => do
        let units ← placement.units
        let offsetMore :=
          (units <<< 3) % 65536 ||| if placement.more then 1 else 0
        .ok (base ipv6NextFragment ++ [ipProtoUdp, 0] ++ toBe16 offsetMore ++
          toBe32 id)

def write (ip : IpHeader) (len dataLen : Nat)
    (placement : Option Placement) : Except Panic Bytes :=
  match ip with
  | .v4 src dst ttl id => writeV4 src dst ttl id dataLen placement
  | .v6 src dst hopLimit id =>
      writeV6 src dst hopLimit id len dataLen placement

end IpHeader

/-! ## Frames -/

structure UdpFrames where
  link : LinkHeader
  ip : IpHeader
  udp : Bytes
  payload : Bytes
  chunk : Nat
  fragmented : Bool
  deriving DecidableEq

/-- The checksum field is left zero.  IPv4 passes its header size: the whole
datagram must fit the 16-bit total length. -/
def udpHeader (srcPort dstPort : UInt16) (payload : Bytes)
    (ipv4Header : Nat) : Except (Stop FrameError) Bytes :=
  let length := udpHeaderSize + payload.length
  if ipv4Header + length ≥ 65536 then fail (.payloadTooLarge payload.length)
  else if length ≥ 65536 then
    .error (.panic (.expect "no longer than the bound just checked"))
  else
    .ok (toBe16 srcPort.toNat ++ toBe16 dstPort.toNat ++ toBe16 length ++
      [0, 0])

namespace UdpFrames

def new (link : LinkHeader) (ip : IpHeader) (udp payload : Bytes)
    (mtu : Nat) : Except (Stop FrameError) UdpFrames :=
  let datagram := udpHeaderSize + payload.length
  if ip.size false + datagram ≤ mtu then
    .ok ⟨link, ip, udp, payload, datagram, false⟩
  else
    let room := mtu - ip.size true
    let chunk := room - room % fragmentUnit
    if chunk = 0 then fail (.mtuTooSmall mtu)
    else .ok ⟨link, ip, udp, payload, chunk, true⟩

def ipv4 (link : LinkHeader) (src dst : SocketAddrV4) (ttl : UInt8)
    (id : UInt16) (payload : Bytes) (mtu : Nat) :
    Except (Stop FrameError) UdpFrames := do
  let udp ← udpHeader src.port dst.port payload ipv4HeaderSize
  let checksum ← liftPanic (Checksum.udpV4 src.ip dst.ip udp payload)
  new link (.v4 src.ip dst.ip ttl id) (overwrite udp 6 (toBe16 checksum))
    payload mtu

def ipv6 (link : LinkHeader) (src dst : SocketAddrV6) (hopLimit : UInt8)
    (id : UInt32) (payload : Bytes) (mtu : Nat) :
    Except (Stop FrameError) UdpFrames := do
  let udp ← udpHeader src.port dst.port payload 0
  let checksum ← liftPanic (Checksum.udpV6 src.ip dst.ip udp payload)
  new link (.v6 src.ip dst.ip hopLimit id) (overwrite udp 6 (toBe16 checksum))
    payload mtu

def datagramLen (frames : UdpFrames) : Nat :=
  udpHeaderSize + frames.payload.length

def count (frames : UdpFrames) : Nat :=
  (frames.datagramLen + frames.chunk - 1) / frames.chunk

/-- The datagram bytes from `start` up to `stop`.  The UDP header stands apart
from the payload and goes out whole with the first of them. -/
def body (frames : UdpFrames) (start stop : Nat) : Except Panic Bytes :=
  if start = 0 then
    if stop < udpHeaderSize then .error .outOfRange
    else do
      let payload ← orPanic .outOfRange
        (slice? frames.payload 0 (stop - udpHeaderSize))
      .ok (frames.udp ++ payload)
  else
    orPanic .outOfRange
      (slice? frames.payload (start - udpHeaderSize) (stop - udpHeaderSize))

def write (frames : UdpFrames) (index available : Nat) :
    Except (Stop FrameError) Bytes :=
  let start := index * frames.chunk
  if start ≥ frames.datagramLen then
    .error (.panic (.expect "frame index below the count"))
  else
    let stop := min (start + frames.chunk) frames.datagramLen
    let ipLen := frames.ip.size frames.fragmented
    let frameLen := frames.link.size + ipLen + (stop - start)
    if available < frameLen then fail (.bufferTooSmall frameLen available)
    else do
      let placement :=
        if frames.fragmented then
          some ⟨start, decide (stop < frames.datagramLen)⟩
        else none
      let header ← liftPanic (frames.ip.write ipLen (stop - start) placement)
      let body ← liftPanic (frames.body start stop)
      .ok (frames.link.write frames.ip.isV6 ++ header ++ body)

end UdpFrames

end Netflector.Net
