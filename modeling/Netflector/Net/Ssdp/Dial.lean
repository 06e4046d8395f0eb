import Netflector.Net.Http

/-!
# DIAL in SSDP messages

Whether an SSDP message is about the DIAL service, which endpoint its
`LOCATION` names, and how long it stays valid.
-/

namespace Netflector.Net.Ssdp

open Netflector.Foundation
open Netflector.Net.Http

/-- Without the version at its end, so that any version matches. -/
def dialServiceType : Bytes := ascii "urn:dial-multiscreen-org:service:dial"

def containsIgnoreAsciiCase (haystack needle : Bytes) : Bool :=
  (findSubslice (asciiLower needle) (asciiLower haystack)).isSome

def isDialServiceMessage (payload : Bytes) : Bool :=
  containsIgnoreAsciiCase payload dialServiceType

def stripCarriageReturn (line : Bytes) : Bytes :=
  if line.getLast? = some 0x0d then line.dropLast else line

def fieldValue (name line : Bytes) : Option Bytes :=
  (stripPrefixIgnoreAsciiCase line name).bind fun rest =>
    if rest.head? = some 0x3a then some (rest.drop 1) else none

def headerValueFrom (name : Bytes) :
    Nat → List Bytes → Option (Nat × Bytes)
  | _, [] => none
  | offset, line :: lines =>
      match fieldValue name (stripCarriageReturn line) with
      | some value =>
          let trimmed := trimAsciiStart value
          some (offset + (stripCarriageReturn line).length - trimmed.length,
            trimmed)
      | none => headerValueFrom name (offset + line.length + 1) lines

def headerValue (message name : Bytes) : Option (Nat × Bytes) :=
  headerValueFrom name 0 (splitOn 0x0a message)

def dialLocationValue (payload : Bytes) : Option (Nat × Bytes) :=
  (headerValue payload (ascii "LOCATION")).filter (·.2 ≠ [])

/-- The span is relative to the whole payload. -/
def parseDialLocationAuthority (payload : Bytes) : Option Authority := do
  let (offset, url) ← dialLocationValue payload
  let found ← parseAuthority url false
  some { found with offset := offset + found.offset }

/-- The first directive named `max-age` decides. -/
def maxAgeIn : List Bytes → Option Nat
  | [] => none
  | directive :: directives =>
      match directive.findIdx? (· == 0x3d) with
      | none => maxAgeIn directives
      | some equals =>
          if eqIgnoreAsciiCase (trimAscii (directive.take equals))
              (ascii "max-age") then
            parseUnsigned 10 0x100000000
              (trimAscii (directive.drop (equals + 1)))
          else maxAgeIn directives

def maxAgeSeconds (value : Bytes) : Option Nat := maxAgeIn (splitOn 0x2c value)

def parseCacheControlMaxAge (payload : Bytes) : Option Nat :=
  (headerValue payload (ascii "CACHE-CONTROL")).bind fun found =>
    maxAgeSeconds found.2

end Netflector.Net.Ssdp
