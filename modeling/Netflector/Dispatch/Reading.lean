import Netflector.Dispatch.Memberships
import Netflector.Dispatch.Reassembly
import Netflector.Net.Parsing

/-!
# Packets that were read

A packet that was read off a frame, or put back together, is between addresses
of one family, and its payload leaves room for the headers it came under.
-/

namespace Netflector.Dispatch

open Netflector.Foundation
open Netflector.Net

def WasRead (packet : Packet) : Prop :=
  (∃ link frame, Parsed.parse link frame = .ok (.datagram packet)) ∨
    ∃ first bytes, Packet.reassembled first bytes = .ok packet

def Sound (len : Nat) : Parsed → Prop
  | .datagram packet =>
      isIpv6 packet.source.ip = isIpv6 packet.dest.ip ∧
        ipv4HeaderSize + udpHeaderSize + packet.payload.length ≤ len
  | .fragment _ => True

theorem Sound.mono {small large : Nat} {parsed : Parsed}
    (h : Sound small parsed) (hle : small ≤ large) : Sound large parsed := by
  cases parsed with
  | datagram packet => exact ⟨h.1, h.2.trans hle⟩
  | fragment fragment => trivial

theorem bytesAt_length {Error : Type} {bytes part : Bytes} {start stop : Nat}
    (h : (bytesAt bytes start stop : Except (Stop Error) Bytes) = .ok part) :
    start ≤ stop ∧ stop ≤ bytes.length ∧ part.length = stop - start := by
  rw [bytesAt] at h
  cases hslice : slice? bytes start stop with
  | none =>
      rw [hslice] at h
      cases h
  | some found =>
      rw [hslice] at h
      cases h
      obtain ⟨hle, hstop, _⟩ := slice?_eq_some_iff.mp hslice
      exact ⟨hle, hstop, slice?_length hslice⟩

theorem parseUdp_length {l4 payload : Bytes} {srcPort dstPort : UInt16}
    (h : parseUdp l4 = .ok (srcPort, dstPort, payload)) :
    udpHeaderSize + payload.length ≤ l4.length := by
  rcases parseUdp_total l4 with ⟨error, hfail, _⟩ | ⟨_, _, _, hok, hlength⟩
  · rw [hfail] at h
    cases h
  · rw [hok] at h
    cases h
    exact hlength

theorem datagram_sound {link : ParsedLink} {source dest : IpAddr}
    {ttl : UInt8} {l4 : Bytes} {parsed : Parsed} {len : Nat}
    (h : datagram link source dest ttl l4 = .ok parsed)
    (hfamily : isIpv6 source = isIpv6 dest)
    (hlength : ipv4HeaderSize + l4.length ≤ len) : Sound len parsed := by
  obtain ⟨⟨srcPort, dstPort, payload⟩, hports, h⟩ := except_bind_ok h
  cases h
  have hpayload := parseUdp_length hports
  refine ⟨hfamily, ?_⟩
  simp only
  omega

theorem parseIpv4_sound {link : ParsedLink} {parsed : Parsed}
    (h : parseIpv4 link = .ok parsed) : Sound link.l3.length parsed := by
  simp only [parseIpv4] at h
  split at h
  · cases h
  obtain ⟨versionIhl, _, h⟩ := except_bind_ok h
  split at h
  · cases h
  rename_i hheader
  obtain ⟨protocol, _, h⟩ := except_bind_ok h
  split at h
  · cases h
  obtain ⟨totalLen, _, h⟩ := except_bind_ok h
  split at h
  · cases h
  obtain ⟨_, _, h⟩ := except_bind_ok h
  obtain ⟨source, _, h⟩ := except_bind_ok h
  obtain ⟨_, _, h⟩ := except_bind_ok h
  obtain ⟨dest, _, h⟩ := except_bind_ok h
  obtain ⟨ttl, _, h⟩ := except_bind_ok h
  obtain ⟨body, hbody, h⟩ := except_bind_ok h
  obtain ⟨flagsOffset, _, h⟩ := except_bind_ok h
  obtain ⟨_, hstop, hlength⟩ := bytesAt_length hbody
  split at h
  · exact datagram_sound h rfl (by omega)
  · obtain ⟨id, _, h⟩ := except_bind_ok h
    cases h
    trivial

theorem parseFragment_sound {link : ParsedLink} {source dest : Ipv6Addr}
    {hopLimit : UInt8} {body : Bytes} {parsed : Parsed} {len : Nat}
    (h : parseFragment link source dest hopLimit body = .ok parsed)
    (hlength : ipv6HeaderSize + body.length ≤ len) : Sound len parsed := by
  simp only [parseFragment] at h
  split at h
  · cases h
  obtain ⟨protocol, _, h⟩ := except_bind_ok h
  split at h
  · cases h
  obtain ⟨offsetMore, _, h⟩ := except_bind_ok h
  split at h
  · refine datagram_sound h rfl ?_
    have hsmaller : ipv4HeaderSize ≤ ipv6HeaderSize := by decide
    rw [List.length_drop]
    omega
  · obtain ⟨_, _, h⟩ := except_bind_ok h
    obtain ⟨_, _, h⟩ := except_bind_ok h
    obtain ⟨_, _, h⟩ := except_bind_ok h
    obtain ⟨_, _, h⟩ := except_bind_ok h
    cases h
    trivial

theorem parseIpv6_sound {link : ParsedLink} {parsed : Parsed}
    (h : parseIpv6 link = .ok parsed) : Sound link.l3.length parsed := by
  simp only [parseIpv6] at h
  split at h
  · cases h
  obtain ⟨payloadLen, _, h⟩ := except_bind_ok h
  split at h
  · cases h
  obtain ⟨_, _, h⟩ := except_bind_ok h
  obtain ⟨source, _, h⟩ := except_bind_ok h
  obtain ⟨_, _, h⟩ := except_bind_ok h
  obtain ⟨dest, _, h⟩ := except_bind_ok h
  obtain ⟨hopLimit, _, h⟩ := except_bind_ok h
  obtain ⟨body, hbody, h⟩ := except_bind_ok h
  obtain ⟨next, _, h⟩ := except_bind_ok h
  obtain ⟨_, hstop, hlength⟩ := bytesAt_length hbody
  have hsmaller : ipv4HeaderSize ≤ ipv6HeaderSize := by decide
  split at h
  · exact datagram_sound h rfl (by omega)
  split at h
  · exact parseFragment_sound h (by omega)
  · cases h

theorem parseLinkHeader_length {link : LinkType} {frame : Bytes}
    {header : ParsedLink} (h : parseLinkHeader link frame = .ok header) :
    header.l3.length ≤ frame.length := by
  cases link with
  | ethernet =>
      obtain ⟨l3, hl3, h⟩ := except_bind_ok h
      obtain ⟨_, _, h⟩ := except_bind_ok h
      obtain ⟨_, _, h⟩ := except_bind_ok h
      obtain ⟨_, _, h⟩ := except_bind_ok h
      obtain ⟨_, _, h⟩ := except_bind_ok h
      cases h
      simp only [ethernetL3] at hl3
      split at hl3
      · cases hl3
      obtain ⟨ethertype, _, hl3⟩ := except_bind_ok hl3
      split at hl3
      · cases hl3
        rw [List.length_drop]
        exact Nat.sub_le _ _
      split at hl3
      · rename_i hrest
        split at hl3
        · cases hl3
          have hlength := congrArg List.length hrest
          rw [List.length_drop] at hlength
          simp only [List.length_cons] at hlength ⊢
          omega
        · cases hl3
      · cases hl3
  | dltNull =>
      simp only [parseLinkHeader] at h
      split at h
      · cases h
      · cases h
        rw [List.length_drop]
        exact Nat.sub_le _ _
  | rawIp =>
      cases h
      exact Nat.le_refl _

theorem parse_sound {link : LinkType} {frame : Bytes} {parsed : Parsed}
    (h : Parsed.parse link frame = .ok parsed) :
    Sound frame.length parsed := by
  obtain ⟨header, hheader, h⟩ := except_bind_ok h
  have hlength := parseLinkHeader_length hheader
  split at h
  · cases h
  · simp only at h
    split at h
    · exact (parseIpv4_sound h).mono hlength
    · split at h
      · exact (parseIpv6_sound h).mono hlength
      · cases h

theorem reassembled_family {first : FragmentHeader} {bytes : Bytes}
    {packet : Packet} (h : Packet.reassembled first bytes = .ok packet) :
    isIpv6 packet.source.ip = isIpv6 packet.dest.ip := by
  obtain ⟨⟨srcPort, dstPort, payload⟩, _, h⟩ := except_bind_ok h
  simp only at h
  split at h
  · cases h
  split at h
  · cases h
  obtain ⟨stored, _, h⟩ := except_bind_ok h
  obtain ⟨valid, hvalid, h⟩ := except_bind_ok h
  split at h
  · cases h
  rename_i hchecked
  cases h
  unfold checksumValid at hvalid
  split at hvalid
  · rename_i hsource hdest
    rw [hsource, hdest]
    rfl
  · rename_i hsource hdest
    rw [hsource, hdest]
    rfl
  · cases hvalid
    exact absurd rfl hchecked

theorem WasRead.family {packet : Packet} (h : WasRead packet) :
    isIpv6 packet.source.ip = isIpv6 packet.dest.ip := by
  rcases h with ⟨link, frame, h⟩ | ⟨first, bytes, h⟩
  · exact (parse_sound h).1
  · exact reassembled_family h

/-- A payload that came out of a frame the captures take, or of a buffer of
the reassembler. -/
inductive CameOut : Bytes → Prop
  | parsed {link : LinkType} {frame : Bytes} {packet : Packet}
      (hframe : frame.length ≤ maxFrameLen)
      (hparse : Parsed.parse link frame = .ok (.datagram packet)) :
      CameOut packet.payload
  | reassembled {done : Reassembled} {packet : Packet}
      (hpacket : done.packet = .ok packet) : CameOut packet.payload

theorem CameOut.length_le {payload : Bytes} (h : CameOut payload) :
    ipv4HeaderSize + udpHeaderSize + payload.length ≤ maxFrameLen := by
  cases h with
  | parsed hframe hparse => exact (parse_sound hparse).2.trans hframe
  | @reassembled done packet hpacket =>
      obtain ⟨datagram, hdatagram, hpacket⟩ := except_bind_ok hpacket
      obtain ⟨⟨srcPort, dstPort, payload⟩, hports, hpacket⟩ :=
        except_bind_ok hpacket
      obtain ⟨_, hstop, hlength⟩ := bytesAt_length hdatagram
      rw [done.buf.bytes_length] at hstop
      have hpayload := parseUdp_length hports
      have hroom : ipv4HeaderSize + maxDatagramLen ≤ maxFrameLen := by decide
      simp only at hpacket
      split at hpacket
      · cases hpacket
      split at hpacket
      · cases hpacket
      obtain ⟨stored, _, hpacket⟩ := except_bind_ok hpacket
      obtain ⟨valid, _, hpacket⟩ := except_bind_ok hpacket
      split at hpacket
      · cases hpacket
      · cases hpacket
        simp only
        omega

end Netflector.Dispatch
