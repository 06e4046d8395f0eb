import Netflector.Net.Http.Framing

/-!
# Well-formed HTTP streams

What the proxy's peers are meant to send: messages with a body delimited as
their headers say, one behind the other.  A message is written down from its
parts; the framer is compared with that in `Acceptance`.
-/

namespace Netflector.Net.Http

open Netflector.Foundation

/-! ## Lines -/

structure Line where
  text : Bytes
  nonempty : text ≠ []
  unbroken : findCrlf text = none

def Line.render (line : Line) : Bytes := line.text ++ crlf

def renderLines : List Line → Bytes
  | [] => crlf
  | line :: lines => line.render ++ renderLines lines

/-- The line before a chunk: a size in hexadecimal, maybe with blanks around
it and extensions behind it. -/
structure SizeLine where
  lead : Bytes
  digits : Bytes
  trail : Bytes
  extensions : Bytes
  leadBlank : lead.all isAsciiWhitespace
  trailBlank : trail.all isAsciiWhitespace
  sized : digits ≠ []
  hexadecimal : digits.all (isDigit 16)
  separated : extensions.head?.all (· == 0x3b)
  unbroken : findCrlf (lead ++ digits ++ trail ++ extensions) = none

def SizeLine.text (line : SizeLine) : Bytes :=
  line.lead ++ line.digits ++ line.trail ++ line.extensions

def SizeLine.render (line : SizeLine) : Bytes := line.text ++ crlf

def SizeLine.size (line : SizeLine) : Nat := digitsValue 16 line.digits

/-! ## Bodies -/

/-- The data may hold anything, CRLFs and header-like lines included. -/
structure Chunk where
  line : SizeLine
  data : Bytes
  nonempty : data ≠ []
  announced : line.size = data.length
  bounded : data.length + crlf.length < usizeLimit

def Chunk.render (chunk : Chunk) : Bytes :=
  chunk.line.render ++ (chunk.data ++ crlf)

structure ChunkedBody where
  chunks : List Chunk
  last : SizeLine
  trailers : List Line
  final : last.size = 0

def ChunkedBody.render (body : ChunkedBody) : Bytes :=
  body.chunks.flatMap Chunk.render ++
    (body.last.render ++ renderLines body.trailers)

inductive Body where
  | none
  | sized (bytes : Bytes)
  | chunked (body : ChunkedBody)
  | untilClose (bytes : Bytes)

def Body.render : Body → Bytes
  | .none => []
  | .sized bytes => bytes
  | .chunked body => body.render
  | .untilClose bytes => bytes

/-! ## Headers -/

def contentLengths (fields : List Line) : List Bytes :=
  fields.filterMap fun field =>
    stripPrefixIgnoreAsciiCase field.text (ascii "Content-Length:")

def saysChunked (fields : List Line) : Bool :=
  fields.any fun field =>
    (stripPrefixIgnoreAsciiCase field.text (ascii "Transfer-Encoding:")).any
      valueHasChunked

/-- The value writes `length` in decimal, maybe with blanks around it. -/
def WritesLength (length : Nat) (value : Bytes) : Prop :=
  ∃ lead digits trail,
    value = lead ++ digits ++ trail ∧ lead.all isAsciiWhitespace ∧
      trail.all isAsciiWhitespace ∧ digits ≠ [] ∧ digits.all (isDigit 10) ∧
      digitsValue 10 digits = length

/-- A `usize` holds the length that the value writes. -/
def NamesLength (length : Nat) (value : Bytes) : Prop :=
  WritesLength length value ∧ length < usizeLimit

def hasBodylessStatus (kind : Kind) (startLine : Line) : Bool :=
  kind = .response && bodylessStatus (parseStatusCode startLine.text)

inductive Delimits (kind : Kind) (startLine : Line) (fields : List Line) :
    Body → Prop where
  | bodyless (length : Nat) (hstatus : hasBodylessStatus kind startLine)
      (hlengths : ∀ value ∈ contentLengths fields, WritesLength length value)
      (hone : contentLengths fields = [] ∨ saysChunked fields = false) :
      Delimits kind startLine fields .none
  | chunked (body : ChunkedBody)
      (hstatus : hasBodylessStatus kind startLine = false)
      (hlengths : contentLengths fields = [])
      (hchunked : saysChunked fields) :
      Delimits kind startLine fields (.chunked body)
  | sized (bytes : Bytes) (hstatus : hasBodylessStatus kind startLine = false)
      (hsome : contentLengths fields ≠ [])
      (hlengths : ∀ value ∈ contentLengths fields,
        NamesLength bytes.length value)
      (hchunked : saysChunked fields = false) :
      Delimits kind startLine fields (.sized bytes)
  | request (hkind : kind = .request) (hlengths : contentLengths fields = [])
      (hchunked : saysChunked fields = false) :
      Delimits kind startLine fields .none
  | response (bytes : Bytes) (hkind : kind = .response)
      (hstatus : hasBodylessStatus kind startLine = false)
      (hlengths : contentLengths fields = [])
      (hchunked : saysChunked fields = false) :
      Delimits kind startLine fields (.untilClose bytes)

/-! ## Messages -/

/-- `gap` counts the empty lines in front of the message. -/
structure Message (kind : Kind) where
  gap : Nat
  startLine : Line
  fields : List Line
  body : Body
  supported : kind = .request → ¬ (ascii "HEAD ").isPrefixOf startLine.text
  bounded : (startLine.render ++ renderLines fields).length ≤ maxHeader
  delimited : Delimits kind startLine fields body

def Message.block (message : Message kind) : Bytes :=
  message.startLine.render ++ renderLines message.fields

def Message.render (message : Message kind) : Bytes :=
  (List.replicate message.gap crlf).flatten ++
    (message.block ++ message.body.render)

def Message.closeDelimited (message : Message kind) : Bool :=
  match message.body with
  | .untilClose _ => true
  | _ => false

/-- No body goes with the status, and the headers write a length for it that no
`usize` holds. -/
def Message.Overlong (message : Message kind) : Prop :=
  hasBodylessStatus kind message.startLine = true ∧
    ∃ value ∈ contentLengths message.fields,
      usizeLimit ≤ digitsValue 10 (trimAscii value)

/-! ## What the client is to see of a message -/

/-- The authority of an authority header is replaced as the policy says; every
other line stays as it is. -/
def rewriteLine (kind : Kind) (rewrite : RewritePolicy) (line : Bytes) :
    Bytes :=
  match rewritableAuthority line kind with
  | none => line
  | some (offset, found, header) =>
      match rewrite.target header with
      | none => line
      | some replacement =>
          line.take (offset + found.offset) ++ authorityText replacement ++
            line.drop (offset + found.offset + found.len)

def Message.rewritten (rewrite : RewritePolicy) (message : Message kind) :
    Bytes :=
  message.startLine.render ++
    (message.fields.flatMap
      (fun field => rewriteLine kind rewrite field.text ++ crlf) ++ crlf)

def applicationUrlOf (line : Bytes) : Option SocketAddrV4 := do
  let value ← stripPrefixIgnoreAsciiCase line (ascii "Application-URL:")
  let found ← parseAuthority (trimAsciiStart value) false
  some found.endpoint

/-- The first one that parses; a request names none. -/
def Message.applicationUrl (message : Message kind) : Option SocketAddrV4 :=
  match kind with
  | .request => none
  | .response =>
      (message.fields.filterMap fun field => applicationUrlOf field.text).head?

def Message.framed (rewrite : RewritePolicy) (message : Message kind) :
    Framed where
  header := message.rewritten rewrite
  body := message.body.render
  consumed := message.render.length
  applicationUrl := message.applicationUrl

/-- The framer behind the message: between two messages it is as new, and a
close-delimited body goes on. -/
def Message.behind (rewrite : RewritePolicy) (message : Message kind) :
    HttpFraming :=
  if message.closeDelimited then
    { HttpFraming.new kind rewrite with phase := .bodyCloseDelimited }
  else HttpFraming.new kind rewrite

/-- Feed until nothing is consumed, with every framer on the way and what it
handed out. -/
def HttpFraming.feedAll : Nat → HttpFraming → Bytes →
    Except FramingError (Bytes × List (HttpFraming × Framed))
  | 0, _, input => .ok (input, [])
  | rounds + 1, framer, input => do
      let (framer, framed) ← framer.feed input
      if framed.consumed = 0 then .ok (input, [])
      else
        let (left, more) ← feedAll rounds framer (input.drop framed.consumed)
        .ok (left, (framer, framed) :: more)

end Netflector.Net.Http
