import Netflector.Net.Address

/-!
# The discovery protocols' groups
-/

namespace Netflector.Net

open Netflector.Foundation

theorem four_octets (first second third fourth : UInt8) :
    [first, second, third, fourth].length = 4 :=
  rfl

def Ipv4Addr.new (first second third fourth : UInt8) : Ipv4Addr :=
  ⟨[first, second, third, fourth], four_octets first second third fourth⟩

/-- The address of eight 16-bit segments, of which only the first and the last
are not zero. -/
def Ipv6Addr.ofEnds (first last : Nat) : Ipv6Addr :=
  ⟨toBe16 first ++ List.replicate 12 0 ++ toBe16 last, rfl⟩

namespace Mdns

def mdnsPort : UInt16 := 5353
def mdnsTtl : UInt8 := 255
def mdnsGroupV4 : Ipv4Addr := .new 224 0 0 251
def mdnsGroupV6 : Ipv6Addr := .ofEnds 0xff02 0xfb

end Mdns

namespace Ssdp

def ssdpPort : UInt16 := 1900
def ssdpTtl : UInt8 := 2
def ssdpGroupV4 : Ipv4Addr := .new 239 255 255 250
def ssdpGroupV6LinkLocal : Ipv6Addr := .ofEnds 0xff02 0x0c
def ssdpGroupV6SiteLocal : Ipv6Addr := .ofEnds 0xff05 0x0c

end Ssdp

namespace Wsd

def wsdPort : UInt16 := 3702
def wsdTtl : UInt8 := 1
def wsdGroupV4 : Ipv4Addr := .new 239 255 255 250
def wsdGroupV6 : Ipv6Addr := .ofEnds 0xff02 0x0c

end Wsd

end Netflector.Net
