import Netflector.Interface
import Netflector.Interface.Netlink

/-!
# Scanning address messages

One `RTM_NEWADDR` of a dump: whose address it is, the address itself, and
whether it may be used as a source.
-/

namespace Netflector.Interface

open Netflector.Foundation
open Netflector.Net

variable (target : Target)

def afInet : Nat := 2
def afInet6 : Nat := 10

def ifaAddress : Nat := 1
def ifaLocal : Nat := 2
def ifaFlags : Nat := 8

def ifaFDadfailed : Nat := 0x08
def ifaFDeprecated : Nat := 0x20
def ifaFTentative : Nat := 0x40

def ifaFUnusable : Nat := ifaFTentative ||| ifaFDeprecated ||| ifaFDadfailed

/-- What the attributes of an address message hold.  The flags attribute has
all 32 bits and supersedes the 8-bit field. -/
structure AddrParts where
  localAddr : Option Bytes
  address : Option Bytes
  flags : Nat
  deriving DecidableEq

def AddrParts.note (endian : Endian) (parts : AddrParts)
    (part : Attribute) : AddrParts :=
  if part.kind = ifaAddress then { parts with address := some part.data }
  else if part.kind = ifaLocal then { parts with localAddr := some part.data }
  else if part.kind = ifaFlags then
    if part.data.length = 4 then
      { parts with flags := endian.read32 part.data 0 }
    else parts
  else parts

def usableAddr (family : Nat) (prefixLen : UInt8) (flags : Nat)
    (bytes : Bytes) : Option Finding :=
  if flags &&& ifaFUnusable ≠ 0 then none
  else if family = afInet then
    (Ipv4Addr.ofBytes? bytes).map fun addr => .v4 addr (some prefixLen)
  else (Ipv6Addr.ofBytes? bytes).map .v6

def record (state : V6Pick × InterfaceAddresses) :
    Option Finding → V6Pick × InterfaceAddresses
  | none => state
  | some finding => scanOne state finding

def scanAddr (ifindex : Nat) (msg : Bytes)
    (state : V6Pick × InterfaceAddresses) :
    Option (V6Pick × InterfaceAddresses) := do
  let bodyAt ← nlAlign target nlmsghdrLen
  match readAt target msg bodyAt ifaddrmsgLen with
  | none => some state
  | some body =>
      let family := (body.getD 0 0).toNat
      if target.endian.read32 body bodyIndexAt ≠ ifindex ∨
          (family ≠ afInet ∧ family ≠ afInet6) then some state
      else do
        let bodyLen ← nlAlign target ifaddrmsgLen
        let first ← target.usize.add bodyAt bodyLen
        let run ← rtattrs target msg first
        let parts := run.items.foldl (AddrParts.note target.endian)
          ⟨none, none, (body.getD 2 0).toNat⟩
        match parts.localAddr.or parts.address with
        | none => some state
        | some bytes =>
            some (record state
              (usableAddr family (body.getD 1 0) parts.flags bytes))

def scanAddrs (ifindex : Nat) :
    List Bytes → V6Pick × InterfaceAddresses →
      Option (V6Pick × InterfaceAddresses)
  | [], state => some state
  | msg :: msgs, state => do
      let state ← scanAddr target ifindex msg state
      scanAddrs ifindex msgs state

end Netflector.Interface
