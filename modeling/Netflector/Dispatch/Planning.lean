import Netflector.Dispatch.Egress
import Netflector.Net.Fragmentation

/-!
# Planning a datagram

Whether a datagram can be laid out depends on the family of its destination and
the length of its payload, not on where it goes: an interface that has a source
for one scope has one for the other.  What is laid out fits the scratch.
-/

namespace Netflector.Dispatch

open Netflector.Foundation
open Netflector.Net

/-! ## What is wrong with a datagram -/

def sourceFault (addrs : InterfaceAddresses) (ipv6 : Bool) :
    DatagramSource → Option DatagramError
  | .egress _ =>
      if (if ipv6 then addrs.v6Any.isSome else addrs.v4.isSome) then none
      else some .noSourceAddress
  | .exact addr =>
      if isIpv6 addr.ip = ipv6 then none else some .sourceFamilyMismatch

def macFault (addrs : InterfaceAddresses) (link : LinkType) :
    Option DatagramError :=
  if link = .ethernet ∧ addrs.mac = none then some .noSourceMac else none

/-- The length of a datagram's data, its header and its payload, that an IP
header cannot announce. -/
def tooLong (ipv6 : Bool) (length : Nat) : Bool :=
  (if ipv6 then 0 else ipv4HeaderSize) + (udpHeaderSize + length) ≥ 65536

def headerSize (ipv6 fragmented : Bool) : Nat :=
  if ipv6 then
    if fragmented then ipv6HeaderSize + ipv6FragmentHeaderSize
    else ipv6HeaderSize
  else ipv4HeaderSize

def tooNarrow (ipv6 : Bool) (length mtu : Nat) : Bool :=
  mtu < headerSize ipv6 false + (udpHeaderSize + length) &&
    mtu - headerSize ipv6 true < fragmentUnit

def frameFault (ipv6 : Bool) (length mtu : Nat) : Option DatagramError :=
  if tooLong ipv6 length then some (.frame (.payloadTooLarge length))
  else if tooNarrow ipv6 length mtu then some (.frame (.mtuTooSmall mtu))
  else none

def datagramFault (addrs : InterfaceAddresses) (link : LinkType) (ipv6 : Bool)
    (source : DatagramSource) (length mtu : Nat) : Option DatagramError :=
  (sourceFault addrs ipv6 source).or
    ((macFault addrs link).or (frameFault ipv6 length mtu))

def Meets (fault : Option DatagramError)
    (result : Except (Stop DatagramError) UdpFrames) : Prop :=
  (∀ error, fault = some error → result = .error (.error error)) ∧
    (fault = none → ∃ frames, result = .ok frames)

theorem Meets.of_error {error : DatagramError}
    {result : Except (Stop DatagramError) UdpFrames}
    (h : result = .error (.error error)) : Meets (some error) result := by
  refine ⟨?_, ?_⟩
  · rintro _ ⟨⟩
    exact h
  · intro hnone
    cases hnone

/-! ## Laying it out -/

theorem size_headerSize (ip : IpHeader) (fragmented : Bool) :
    ip.size fragmented = headerSize ip.isV6 fragmented := by
  cases ip with
  | v4 src dst ttl id => rfl
  | v6 src dst hopLimit id => rfl

theorem new_meets (link : LinkHeader) (ip : IpHeader) (udp payload : Bytes)
    (mtu : Nat) (hlong : tooLong ip.isV6 payload.length = false) :
    Meets (frameFault ip.isV6 payload.length mtu)
      (liftFrame (UdpFrames.new link ip udp payload mtu)) := by
  unfold frameFault UdpFrames.new
  simp only [hlong, Bool.false_eq_true, if_false, size_headerSize]
  by_cases hnarrow : tooNarrow ip.isV6 payload.length mtu = true
  · rw [if_pos hnarrow]
    unfold tooNarrow at hnarrow
    simp only [Bool.and_eq_true, decide_eq_true_eq] at hnarrow
    refine .of_error ?_
    rw [if_neg (by omega), if_pos]
    · rfl
    · simp only [fragmentUnit] at hnarrow ⊢
      omega
  · rw [if_neg hnarrow]
    unfold tooNarrow at hnarrow
    simp only [Bool.and_eq_true, decide_eq_true_eq] at hnarrow
    refine ⟨by simp, fun _ => ?_⟩
    split
    · exact ⟨_, rfl⟩
    · rw [if_neg]
      · exact ⟨_, rfl⟩
      · simp only [fragmentUnit] at hnarrow ⊢
        omega

theorem udpHeader_long {srcPort dstPort : UInt16} {payload : Bytes}
    {ipv6 : Bool} (h : tooLong ipv6 payload.length = true) :
    udpHeader srcPort dstPort payload (if ipv6 then 0 else ipv4HeaderSize) =
      fail (.payloadTooLarge payload.length) := by
  unfold tooLong at h
  rw [decide_eq_true_eq] at h
  rw [udpHeader, if_pos h]

theorem udpHeader_short (srcPort dstPort : UInt16) {payload : Bytes}
    {ipv6 : Bool} (h : tooLong ipv6 payload.length = false) :
    udpHeaderSize + payload.length < 65536 ∧ ∃ udp,
      udpHeader srcPort dstPort payload (if ipv6 then 0 else ipv4HeaderSize) =
        .ok udp := by
  unfold tooLong at h
  rw [decide_eq_false_iff_not] at h
  have hlength : udpHeaderSize + payload.length < 65536 := by omega
  refine ⟨hlength, ?_⟩
  rw [udpHeader, if_neg h, if_neg (by omega)]
  exact ⟨_, rfl⟩

theorem ipv4_meets (link : LinkHeader) (src dst : SocketAddrV4) (ttl : UInt8)
    (id : UInt16) (payload : Bytes) (mtu : Nat) :
    Meets (frameFault false payload.length mtu)
      (liftFrame (UdpFrames.ipv4 link src dst ttl id payload mtu)) := by
  cases hlong : tooLong false payload.length with
  | true =>
      have hheader : udpHeader src.port dst.port payload ipv4HeaderSize = _ :=
        udpHeader_long hlong
      rw [frameFault, if_pos hlong]
      refine .of_error ?_
      rw [UdpFrames.ipv4, hheader]
      rfl
  | false =>
      obtain ⟨hlength, udp, hheader⟩ :=
        udpHeader_short src.port dst.port hlong
      obtain ⟨checksum, hchecksum⟩ :=
        Checksum.udpV4_total src.ip dst.ip udp hlength
      have hnew := new_meets link (.v4 src.ip dst.ip ttl id)
        (overwrite udp 6 (toBe16 checksum)) payload mtu hlong
      have heq : UdpFrames.ipv4 link src dst ttl id payload mtu =
          UdpFrames.new link (.v4 src.ip dst.ip ttl id)
            (overwrite udp 6 (toBe16 checksum)) payload mtu := by
        have hhere : udpHeader src.port dst.port payload ipv4HeaderSize = _ :=
          hheader
        rw [UdpFrames.ipv4, hhere]
        simp only [bind, Except.bind, hchecksum, liftPanic_ok]
      rw [heq]
      exact hnew

theorem ipv6_meets (link : LinkHeader) (src dst : SocketAddrV6)
    (hopLimit : UInt8) (id : UInt32) (payload : Bytes) (mtu : Nat) :
    Meets (frameFault true payload.length mtu)
      (liftFrame (UdpFrames.ipv6 link src dst hopLimit id payload mtu)) := by
  cases hlong : tooLong true payload.length with
  | true =>
      have hheader : udpHeader src.port dst.port payload 0 = _ :=
        udpHeader_long hlong
      rw [frameFault, if_pos hlong]
      refine .of_error ?_
      rw [UdpFrames.ipv6, hheader]
      rfl
  | false =>
      obtain ⟨hlength, udp, hheader⟩ :=
        udpHeader_short src.port dst.port hlong
      obtain ⟨checksum, hchecksum⟩ :=
        Checksum.udpV6_total src.ip dst.ip udp hlength
      have hnew := new_meets link (.v6 src.ip dst.ip hopLimit id)
        (overwrite udp 6 (toBe16 checksum)) payload mtu hlong
      have heq : UdpFrames.ipv6 link src dst hopLimit id payload mtu =
          UdpFrames.new link (.v6 src.ip dst.ip hopLimit id)
            (overwrite udp 6 (toBe16 checksum)) payload mtu := by
        have hhere : udpHeader src.port dst.port payload 0 = _ := hheader
        rw [UdpFrames.ipv6, hhere]
        simp only [bind, Except.bind, hchecksum, liftPanic_ok]
      rw [heq]
      exact hnew

/-! ## The sources -/

theorem linkHeader_fault (addrs : InterfaceAddresses) (link : LinkType)
    (dstMac : MacAddr) :
    (∀ error, macFault addrs link = some error →
      linkHeader addrs link dstMac = .error error) ∧
    (macFault addrs link = none →
      ∃ header, linkHeader addrs link dstMac = .ok header) := by
  cases link with
  | ethernet =>
      cases hmac : addrs.mac with
      | none => simp [macFault, linkHeader, hmac]
      | some mac => simp [macFault, linkHeader, hmac]
  | dltNull => simp [macFault, linkHeader]
  | rawIp => simp [macFault, linkHeader]

theorem sourceV4_fault (addrs : InterfaceAddresses)
    (source : DatagramSource) :
    (∀ error, sourceFault addrs false source = some error →
      sourceV4 addrs source = .error error) ∧
    (sourceFault addrs false source = none →
      ∃ src, sourceV4 addrs source = .ok src) := by
  cases source with
  | egress port =>
      cases haddr : addrs.v4 with
      | none => simp [sourceFault, sourceV4, haddr]
      | some addr => simp [sourceFault, sourceV4, haddr]
  | exact addr =>
      obtain ⟨ip, port⟩ := addr
      cases ip with
      | v4 addr => simp [sourceFault, sourceV4, isIpv6]
      | v6 addr => simp [sourceFault, sourceV4, isIpv6]

theorem sourceV6_fault {addrs : InterfaceAddresses} (h : addrs.Scanned)
    (dst : Ipv6Addr) (source : DatagramSource) :
    (∀ error, sourceFault addrs true source = some error →
      sourceV6 addrs dst source = .error error) ∧
    (sourceFault addrs true source = none →
      ∃ src, sourceV6 addrs dst source = .ok src) := by
  cases source with
  | egress port =>
      have hsome := h.v6_isSome (.of dst)
      cases haddr : addrs.v6 (.of dst) with
      | none =>
          rw [haddr] at hsome
          simp [sourceFault, sourceV6, haddr, ← hsome]
      | some addr =>
          rw [haddr] at hsome
          simp [sourceFault, sourceV6, haddr, ← hsome]
  | exact addr =>
      obtain ⟨ip, port⟩ := addr
      cases ip with
      | v4 addr => simp [sourceFault, sourceV6, isIpv6]
      | v6 addr => simp [sourceFault, sourceV6, isIpv6]

theorem Meets.bind {Value : Type} {fault rest : Option DatagramError}
    {stage : Except DatagramError Value}
    {next : Value → Except (Stop DatagramError) UdpFrames}
    (hstage : (∀ error, fault = some error → stage = .error error) ∧
      (fault = none → ∃ value, stage = .ok value))
    (hnext : ∀ value, Meets rest (next value)) :
    Meets (fault.or rest) (orFail stage >>= next) := by
  cases fault with
  | some error =>
      rw [Option.some_or, hstage.1 error rfl]
      exact .of_error rfl
  | none =>
      obtain ⟨value, hvalue⟩ := hstage.2 rfl
      rw [Option.none_or, hvalue]
      exact hnext value

theorem buildUdp_meets {addrs : InterfaceAddresses} (h : addrs.Scanned)
    (link : LinkType) (dst : SocketAddr) (dstMac : MacAddr)
    (source : DatagramSource) (ttl : UInt8) (id : UInt32) (payload : Bytes)
    (mtu : Nat) :
    Meets (datagramFault addrs link (isIpv6 dst.ip) source payload.length mtu)
      (buildUdp addrs link dst dstMac source ttl id payload mtu) := by
  obtain ⟨ip, port⟩ := dst
  cases ip with
  | v4 ip =>
      exact .bind (sourceV4_fault addrs source) fun src =>
        .bind (linkHeader_fault addrs link dstMac) fun header =>
          ipv4_meets header src ⟨ip, port⟩ ttl id.toUInt16 payload mtu
  | v6 ip =>
      exact .bind (sourceV6_fault h ip source) fun src =>
        .bind (linkHeader_fault addrs link dstMac) fun header =>
          ipv6_meets header src ⟨ip, port⟩ ttl id payload mtu

/-! ## The frames -/

theorem liftFrame_ok {result : Except (Stop FrameError) UdpFrames}
    {frames : UdpFrames} (h : liftFrame result = .ok frames) :
    result = .ok frames := by
  cases result with
  | ok found =>
      cases h
      rfl
  | error stop => cases stop <;> cases h

theorem buildUdp_laid {addrs : InterfaceAddresses} {link : LinkType}
    {dst : SocketAddr} {dstMac : MacAddr} {source : DatagramSource}
    {ttl : UInt8} {id : UInt32} {payload : Bytes} {mtu : Nat}
    {frames : UdpFrames}
    (h : buildUdp addrs link dst dstMac source ttl id payload mtu =
      .ok frames) :
    ∃ header ip srcPort,
      frames.Laid header ip srcPort dst.port payload mtu := by
  obtain ⟨ip, port⟩ := dst
  cases ip with
  | v4 ip =>
      obtain ⟨src, _, h⟩ := except_bind_ok h
      obtain ⟨header, _, h⟩ := except_bind_ok h
      exact ⟨header, _, _, UdpFrames.ipv4_laid (liftFrame_ok h)⟩
  | v6 ip =>
      obtain ⟨src, _, h⟩ := except_bind_ok h
      obtain ⟨header, _, h⟩ := except_bind_ok h
      exact ⟨header, _, _, UdpFrames.ipv6_laid (liftFrame_ok h)⟩

theorem link_size_le (link : LinkHeader) : link.size ≤ ethernetHeaderSize := by
  cases link with
  | ethernet dst src => exact Nat.le_refl _
  | dltNull => decide
  | rawIp => decide

theorem frameMtu_le (mtu : Option Nat) : frameMtu mtu ≤ maxMtu :=
  Nat.min_le_right _ _

theorem write_fits {frames : UdpFrames} {link : LinkHeader} {ip : IpHeader}
    {srcPort dstPort : UInt16} {payload : Bytes} {mtu index : Nat}
    (h : frames.Laid link ip srcPort dstPort payload mtu) (hmtu : mtu ≤ maxMtu)
    (hindex : index < frames.count) :
    ∃ frame, frames.write index maxFrameLen = .ok frame := by
  have hfits : ∀ frame : Bytes, frames.Writes index frame →
      frame.length ≤ frames.link.size + mtu →
      ∃ frame, frames.write index maxFrameLen = .ok frame := by
    intro frame hwrites hlength
    have hlink := link_size_le frames.link
    have hmax : ethernetHeaderSize + maxMtu = maxFrameLen := by decide
    refine ⟨frame, ?_⟩
    rw [hwrites, if_pos (by omega)]
  cases hfragmented : frames.fragmented with
  | false =>
      obtain ⟨checksum, hudp, _⟩ := h.udp
      have hzero : index = 0 := by
        have hcount := h.cut.fragmented_iff
        rw [hfragmented] at hcount
        have hone : ¬ 1 < frames.count := fun h => by
          cases hcount.mpr h
        omega
      subst hzero
      obtain ⟨frame, hwrites, hlength, _⟩ :=
        h.cut.frame_whole hfragmented hudp
      exact hfits frame hwrites hlength
  | true =>
      obtain ⟨frame, hwrites, hlength, _⟩ :=
        h.cut.frame_fragment hfragmented hindex
      exact hfits frame hwrites hlength

end Netflector.Dispatch
