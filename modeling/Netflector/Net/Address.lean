import Netflector.Foundation.Bytes

/-!
# IP addresses

Addresses are their octets in network order; the length is part of the type.
-/

namespace Netflector.Net

open Netflector.Foundation

structure Ipv4Addr where
  octets : Bytes
  length_eq : octets.length = 4
  deriving DecidableEq

structure Ipv6Addr where
  octets : Bytes
  length_eq : octets.length = 16
  deriving DecidableEq

inductive IpAddr where
  | v4 (addr : Ipv4Addr)
  | v6 (addr : Ipv6Addr)
  deriving DecidableEq

def Ipv4Addr.ofBytes? (bytes : Bytes) : Option Ipv4Addr :=
  if h : bytes.length = 4 then some ⟨bytes, h⟩ else none

def Ipv6Addr.ofBytes? (bytes : Bytes) : Option Ipv6Addr :=
  if h : bytes.length = 16 then some ⟨bytes, h⟩ else none

def Ipv4Addr.toBits (addr : Ipv4Addr) : UInt32 :=
  match addr.octets with
  | [first, second, third, fourth] => be32 first second third fourth
  | _ => 0

def Ipv4Addr.ofBits (bits : UInt32) : Ipv4Addr := ⟨toBe32 bits, rfl⟩

structure SocketAddrV4 where
  ip : Ipv4Addr
  port : UInt16
  deriving DecidableEq

/-! ## Address classes -/

def Ipv4Addr.isLinkLocal (addr : Ipv4Addr) : Bool :=
  addr.octets.take 2 == [169, 254]

def Ipv4Addr.isLoopback (addr : Ipv4Addr) : Bool :=
  addr.octets.take 1 == [127]

def Ipv4Addr.isUnspecified (addr : Ipv4Addr) : Bool :=
  addr.octets == List.replicate 4 0

def Ipv4Addr.isMulticast (addr : Ipv4Addr) : Bool :=
  match addr.octets with
  | first :: _ => 224 ≤ first ∧ first ≤ 239
  | [] => false

def Ipv4Addr.isBroadcast (addr : Ipv4Addr) : Bool :=
  addr.octets == List.replicate 4 255

def Ipv6Addr.toIpv4Mapped (addr : Ipv6Addr) : Option Ipv4Addr :=
  if addr.octets.take 12 = List.replicate 10 0 ++ [0xff, 0xff] then
    some ⟨addr.octets.drop 12, by simp [addr.length_eq]⟩
  else none

def Ipv6Addr.isUnicastLinkLocal (addr : Ipv6Addr) : Bool :=
  match addr.octets with
  | first :: second :: _ => first = 0xfe ∧ second &&& 0xc0 = 0x80
  | _ => false

def Ipv6Addr.isLoopback (addr : Ipv6Addr) : Bool :=
  addr.octets == List.replicate 15 0 ++ [1]

def Ipv6Addr.isUnspecified (addr : Ipv6Addr) : Bool :=
  addr.octets == List.replicate 16 0

def Ipv6Addr.isMulticast (addr : Ipv6Addr) : Bool :=
  addr.octets.take 1 == [0xff]

def isLinkLocal : IpAddr → Bool
  | .v4 addr => addr.isLinkLocal
  | .v6 addr =>
      match addr.toIpv4Mapped with
      | some mapped => mapped.isLinkLocal
      | none => addr.isUnicastLinkLocal

def Ipv4Addr.isNeverAPeer (addr : Ipv4Addr) : Bool :=
  addr.isLoopback || addr.isUnspecified || addr.isMulticast ||
    addr.isBroadcast

/-- Whether an address can never name another single host.  An IPv4-mapped
address is judged by its IPv4 rules. -/
def isNeverAPeer : IpAddr → Bool
  | .v4 addr => addr.isNeverAPeer
  | .v6 addr =>
      match addr.toIpv4Mapped with
      | some mapped => mapped.isNeverAPeer
      | none => addr.isLoopback || addr.isUnspecified || addr.isMulticast

end Netflector.Net
