import Netflector.Foundation.Ascii
import Netflector.Net.Address

/-!
# HTTP message helpers

Authorities and header names, as the proxy's header rewrites and the SSDP
`LOCATION` rewrite read them.  Text is bytes: a number or an address is ASCII,
so bytes that are not UTF-8 fail its parse.
-/

namespace Netflector.Net.Http

open Netflector.Foundation

def stripPrefixIgnoreAsciiCase (line pattern : Bytes) : Option Bytes :=
  if pattern.length ≤ line.length ∧
      eqIgnoreAsciiCase (line.take pattern.length) pattern then
    some (line.drop pattern.length)
  else none

/-- One to three digits without a leading zero, up to 255. -/
def parseOctet (text : Bytes) : Option UInt8 :=
  if 1 ≤ text.length ∧ text.length ≤ 3 ∧ text.all (isDigit 10) ∧
      (text.length = 1 ∨ text.head? ≠ some 0x30) ∧
      digitsValue 10 text ≤ 255 then
    some (UInt8.ofNat (digitsValue 10 text))
  else none

def parseIpv4Addr (text : Bytes) : Option Ipv4Addr :=
  match splitOn 0x2e text with
  | [first, second, third, fourth] => do
      let first ← parseOctet first
      let second ← parseOctet second
      let third ← parseOctet third
      let fourth ← parseOctet fourth
      some ⟨[first, second, third, fourth], rfl⟩
  | _ => none

structure Authority where
  endpoint : SocketAddrV4
  offset : Nat
  len : Nat
  deriving DecidableEq

def endsAuthority (octet : UInt8) : Bool :=
  octet ∈ ascii "/?# \t\r"

def splitLastColon (text : Bytes) : Option (Bytes × Bytes) :=
  match text.reverse.findIdx? (· == 0x3a) with
  | none => none
  | some behind =>
      let colon := text.length - 1 - behind
      some (text.take colon, text.drop (colon + 1))

def parseEndpoint (authority : Bytes) : Option SocketAddrV4 :=
  match splitLastColon authority with
  | none => do
      let ip ← parseIpv4Addr authority
      some ⟨ip, 80⟩
  | some (host, port) => do
      let port ← parseUnsigned 10 65536 port
      if port = 0 then none
      else
        let ip ← parseIpv4Addr host
        some ⟨ip, UInt16.ofNat port⟩

/-- `bare` takes the whole value as the authority; otherwise `value` is an
`http://` URL.  Hostnames and IPv6 are rejected. -/
def parseAuthority (value : Bytes) (bare : Bool) : Option Authority := do
  let rest ←
    if bare then some value
    else stripPrefixIgnoreAsciiCase value (ascii "http://")
  let len := (rest.findIdx? endsAuthority).getD rest.length
  let endpoint ← parseEndpoint (rest.take len)
  some ⟨endpoint, value.length - rest.length, len⟩

end Netflector.Net.Http
