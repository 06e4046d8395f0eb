import Mathlib.Data.Char
import Mathlib.Data.List.Lex
import Netflector.Net.Packet
import Netflector.UniqueList

/-!
# Configuration values
-/

namespace Netflector.Config

open Netflector.Net

inductive AddressFamily where
  | default
  | dual
  | ipv4
  | ipv6
  deriving DecidableEq, Repr

namespace AddressFamily

def usesIpv4 : AddressFamily → Bool
  | .default | .dual | .ipv4 => true
  | .ipv6 => false

def usesIpv6 : AddressFamily → Bool
  | .default | .dual | .ipv6 => true
  | .ipv4 => false

def uses (family : AddressFamily) : IpAddr → Bool
  | .v4 _ => family.usesIpv4
  | .v6 _ => family.usesIpv6

def requiresIpv4 : AddressFamily → Bool
  | .default | .dual | .ipv4 => true
  | .ipv6 => false

/-- The default reflects v6 where there is some, but starts without it. -/
def requiresIpv6 : AddressFamily → Bool
  | .dual | .ipv6 => true
  | .default | .ipv4 => false

def requires (family : AddressFamily) : IpAddr → Bool
  | .v4 _ => family.requiresIpv4
  | .v6 _ => family.requiresIpv6

end AddressFamily

/-! ## Lists -/

structure NonZeroU16 where
  get : UInt16
  nonzero : get ≠ 0
  deriving DecidableEq

def Ports : ListRule NonZeroU16 where
  noun := "port"
  refuse := fun _ => none

abbrev PortList : Type := UniqueList Ports

def isGroup : IpAddr → Bool
  | .v4 addr => addr.isMulticast
  | .v6 addr => addr.isMulticast

def Groups : ListRule IpAddr where
  noun := "group"
  refuse := fun group =>
    if isGroup group then none else some "is not a multicast address"

abbrev GroupList : Type := UniqueList Groups

def isUnicast : IpAddr → Bool
  | .v4 addr => !addr.isMulticast && !addr.isBroadcast && !addr.isUnspecified
  | .v6 addr => !addr.isMulticast && !addr.isUnspecified

def Peers : ListRule IpAddr where
  noun := "peer"
  refuse := fun peer =>
    if isUnicast peer then none else some "is not a unicast address"

abbrev PeerList : Type := UniqueList Peers

def Macs : ListRule MacAddr where
  noun := "MAC"
  refuse := fun _ => none

abbrev MacSet : Type := UniqueList Macs

/-! ## Names -/

abbrev Text : Type := List Char

/-- Unicode's `White_Space`. -/
def isWhitespace (char : Char) : Bool :=
  let code := char.toNat
  (0x09 ≤ code && code ≤ 0x0d) || (0x2000 ≤ code && code ≤ 0x200a) ||
    [0x20, 0x85, 0xa0, 0x1680, 0x2028, 0x2029, 0x202f, 0x205f,
      0x3000].contains code

def trim (text : Text) : Text :=
  ((text.dropWhile isWhitespace).reverse.dropWhile isWhitespace).reverse

/-- Trimmed and lowercased, so that equality is the check of identity. -/
structure ReflectorName where
  text : Text
  deriving DecidableEq

def ReflectorName.fromStr (text : Text) : Option ReflectorName :=
  if trim text = [] then none else some ⟨(trim text).map Char.toLower⟩

/-! ## Accounts -/

inductive Principal where
  | name (name : Text)
  | id (id : UInt32)
  deriving DecidableEq

structure RunAs where
  user : Principal
  group : Option Principal
  deriving DecidableEq

end Netflector.Config
