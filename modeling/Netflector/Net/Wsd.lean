import Netflector.Net.Groups
import Netflector.Net.Http.Host

/-!
# WS-Discovery messages

A SOAP message is an announcement or a search by its `Action`.  The scan is of
tags alone, so that a name in a text does not match.
-/

namespace Netflector.Net.Wsd

open Netflector.Foundation
open Netflector.Net.Http

inductive WsdKind where
  | announcement
  | search
  deriving DecidableEq, Repr

def afterLast (separator : UInt8) (bytes : Bytes) : Bytes :=
  ((splitOn separator bytes).getLast?).getD bytes

/-- Whether the text between `<` and `>` opens an element of this local name
that has content: not a closing tag, a declaration, a comment or one closed at
once. -/
def opensElement (localName tag : Bytes) : Bool :=
  if tag.head? ∈ [some 0x2f, some 0x3f, some 0x21] then false
  else if tag.getLast? = some 0x2f then false
  else
    let name := tag.takeWhile fun octet =>
      !(isAsciiWhitespace octet || octet == 0x2f)
    eqIgnoreAsciiCase (afterLast 0x3a name) localName

/-- The trimmed texts of the elements with this local name, any prefix and any
attributes, one octet at a time; `tag` is what a tag that is open holds so
far.  The search goes on after each text. -/
def elementTexts (localName : Bytes) : Option Bytes → Bytes → List Bytes
  | _, [] => []
  | none, octet :: rest =>
      elementTexts localName (if octet = 0x3c then some [] else none) rest
  | some tag, octet :: rest =>
      if octet ≠ 0x3e then elementTexts localName (some (tag ++ [octet])) rest
      else if opensElement localName tag then
        trimAscii (rest.takeWhile (· != 0x3c)) ::
          elementTexts localName none rest
      else elementTexts localName none rest

def elementText (payload localName : Bytes) : Option Bytes :=
  (elementTexts localName none payload).head?

def actionSegment (payload : Bytes) : Option Bytes := do
  let uri ← elementText payload (ascii "Action")
  let segment := afterLast 0x2f uri
  if segment = [] then none else some segment

/-- By the last path segment of the `Action`; the namespaces of the two
versions differ only before it. -/
def classify (payload : Bytes) : Option WsdKind :=
  match actionSegment payload with
  | none => none
  | some segment =>
      if segment = ascii "Hello" ∨ segment = ascii "Bye" then
        some .announcement
      else if segment = ascii "Probe" ∨ segment = ascii "Resolve" then
        some .search
      else none

def words (text : Bytes) : List Bytes :=
  (splitOn 0x20 (text.map fun octet =>
    if isAsciiWhitespace octet then 0x20 else octet)).filter (· ≠ [])

/-- At least one `XAddrs` URI, and every one names a link-local address or one
that is never a peer. -/
def advertisesOnlyUnreachable (payload : Bytes) : Bool :=
  let listed := (elementTexts (ascii "XAddrs") none payload).flatMap words
  !listed.isEmpty && listed.all fun uri =>
    (urlHostIp uri).any fun ip => isLinkLocal ip || isNeverAPeer ip

end Netflector.Net.Wsd
