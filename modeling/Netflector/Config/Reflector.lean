import Netflector.Config.Value
import Netflector.Dispatch.InterfaceTable
import Netflector.Net.Mdns.Services

/-!
# Reflector entries

One validated entry of the configuration: the two interfaces it bridges and
the protocols it is for.
-/

namespace Netflector.Config

open Netflector.Net
open Netflector.Net.Mdns
open Netflector.Dispatch

structure Wol where
  ports : PortList
  deriving DecidableEq

def Wol.defaultPorts : PortList where
  items := [⟨7, by decide⟩, ⟨9, by decide⟩]
  nonempty := by simp
  nodup := by decide
  admitted := fun _ _ => rfl

structure UdpRelay where
  ports : PortList
  /-- The groups to join and relay on those ports. -/
  groups : Option GroupList
  broadcast : Bool
  deriving DecidableEq

/-- `none` reflects every service type. -/
structure Mdns where
  services : Option (List ServiceType)
  deriving DecidableEq

structure Ssdp where
  dial : Bool
  deriving DecidableEq

structure Reflector where
  name : ReflectorName
  sourceIf : InterfaceName
  targetIf : InterfaceName
  sourcePeers : Option PeerList
  targetPeers : Option PeerList
  /-- The devices allowed; `none` allows any. -/
  macs : Option MacSet
  addressFamily : AddressFamily
  wol : Option Wol
  mdns : Option Mdns
  ssdp : Option Ssdp
  wsd : Bool
  bidirectional : Bool
  udp : Option UdpRelay
  distinct : sourceIf ≠ targetIf
  deriving DecidableEq

namespace Reflector

def reversed (reflector : Reflector) : Reflector :=
  { reflector with
    sourceIf := reflector.targetIf
    targetIf := reflector.sourceIf
    sourcePeers := reflector.targetPeers
    targetPeers := reflector.sourcePeers
    distinct := reflector.distinct.symm }

/-- The entry as it is built: once for each of its directions. -/
def sides (reflector : Reflector) : List Reflector :=
  if reflector.bidirectional then [reflector, reflector.reversed]
  else [reflector]

end Reflector

end Netflector.Config
