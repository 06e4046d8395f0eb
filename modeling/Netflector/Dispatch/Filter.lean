import Netflector.Config.Value
import Netflector.Interface

/-!
# Packet filters

What a registration admits; a field that is not set matches anything.
-/

namespace Netflector.Dispatch

open Netflector.Foundation
open Netflector.Net
open Netflector.Config

structure Filter where
  srcIp : Option IpAddr
  dstIp : Option (List IpAddr)
  srcPort : Option UInt16
  dstPort : Option (List UInt16)
  srcMac : Option (List MacAddr)
  dstMac : Option MacAddr
  broadcast : Bool
  /-- Also accept a destination equal to an ingress address of this family. -/
  dstOwn : Option AddressFamily

/-- Whether an unset field, or the test of a set one, holds. -/
def noneOr {Value : Type} (field : Option Value) (test : Value → Bool) :
    Bool :=
  match field with
  | none => true
  | some value => test value

namespace Filter

def any : Filter := ⟨none, none, none, none, none, none, false, none⟩

def acceptsDst (filter : Filter) (dest : IpAddr)
    (ingress : Option InterfaceAddresses) (set : List IpAddr) : Bool :=
  set.contains dest ||
    match filter.dstOwn, ingress with
    | some family, some addrs => family.uses dest && addrs.has dest
    | _, _ => false

def «matches» (filter : Filter) (packet : Packet)
    (ingress : Option InterfaceAddresses) : Bool :=
  (!filter.broadcast ||
      packet.isBroadcast (ingress.bind (·.v4DirectedBroadcast))) &&
    noneOr filter.srcIp (packet.source.ip = ·) &&
    noneOr filter.dstIp (filter.acceptsDst packet.dest.ip ingress) &&
    noneOr filter.srcPort (packet.source.port = ·) &&
    noneOr filter.dstPort (·.contains packet.dest.port) &&
    noneOr filter.srcMac (fun set =>
      match packet.srcMac with
      | some mac => set.contains mac
      | none => false) &&
    noneOr filter.dstMac (packet.dstMac = some ·)

end Filter

end Netflector.Dispatch
