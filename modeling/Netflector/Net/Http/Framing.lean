import Netflector.Foundation.Result
import Netflector.Net.Http

/-!
# The streaming HTTP framer

One direction of the proxy: the framer buffers and rewrites a header block,
then forwards the body as it arrives.  The unconsumed tail lives with its
owner, who feeds it again with more bytes behind it.  The header scratch is
local to one feed, so it is returned and not part of the state.
-/

namespace Netflector.Net.Http

open Netflector.Foundation

def crlf : Bytes := [0x0d, 0x0a]
def headerTerminator : Bytes := [0x0d, 0x0a, 0x0d, 0x0a]

def maxHeader : Nat := 2 * 1024
def maxChunkLine : Nat := 256
def maxTrailerLine : Nat := 1024

/-- One past what a `usize` of 64 bits holds; the builds for 32-bit ARM refuse
lengths from 2^32 on. -/
def usizeLimit : Nat := 0x10000000000000000

inductive Kind where
  | request
  | response
  deriving DecidableEq, Repr

/-- `header` doubles as "no body": the message ends at the blank line. -/
inductive Phase where
  | header
  | bodyContentLength
  | bodyChunked
  | bodyChunkedTrailers
  | bodyCloseDelimited
  deriving DecidableEq, Repr

inductive FramingError where
  | unsupportedMethod
  | headerTooLong
  | malformedContentLength
  | conflictingContentLength
  | contentLengthWithChunked
  | malformedChunkSize
  | chunkSizeTooLarge
  | chunkLineTooLong
  | trailerLineTooLong
  deriving DecidableEq, Repr

inductive AuthorityHeader where
  | host (endpoint : SocketAddrV4)
  | applicationUrl (endpoint : SocketAddrV4)
  | location (endpoint : SocketAddrV4)
  deriving DecidableEq

structure RewritePolicy where
  host : Option SocketAddrV4
  applicationUrl : Option SocketAddrV4
  location : Option SocketAddrV4
  deriving DecidableEq

def RewritePolicy.target (policy : RewritePolicy) :
    AuthorityHeader → Option SocketAddrV4
  | .host _ => policy.host
  | .applicationUrl _ => policy.applicationUrl
  | .location _ => policy.location

structure Framed where
  header : Bytes
  body : Bytes
  consumed : Nat
  applicationUrl : Option SocketAddrV4
  deriving DecidableEq

structure HttpFraming where
  kind : Kind
  rewrite : RewritePolicy
  phase : Phase
  bodyRemaining : Nat
  chunkRemaining : Nat
  deriving DecidableEq

def HttpFraming.new (kind : Kind) (rewrite : RewritePolicy) : HttpFraming :=
  ⟨kind, rewrite, .header, 0, 0⟩

/-! ## Lines -/

def findCrlf (bytes : Bytes) : Option Nat := findSubslice crlf bytes

def findHeaderEnd (bytes : Bytes) : Option Nat :=
  (findSubslice headerTerminator bytes).map (· + headerTerminator.length)

def parseChunkSize (line : Bytes) : Except FramingError Nat :=
  let hex := trimAscii (line.takeWhile (· != 0x3b))
  if !(hex.head?.any (isDigit 16)) then .error .malformedChunkSize
  else
    match parseUnsigned 16 usizeLimit hex with
    | some size => .ok size
    | none => .error .malformedChunkSize

/-- Zero when unparseable: no bodyless status matches it. -/
def parseStatusCode (line : Bytes) : Nat :=
  (((splitOn 0x20 line)[1]?).bind (parseUnsigned 10 65536)).getD 0

def parseContentLength (value : Bytes) : Except FramingError Nat :=
  let digits := trimAscii value
  if !(digits.head?.any (isDigit 10)) then .error .malformedContentLength
  else
    match parseUnsigned 10 usizeLimit digits with
    | some length => .ok length
    | none => .error .malformedContentLength

def valueHasChunked (value : Bytes) : Bool :=
  (splitOn 0x2c value).any fun coding =>
    eqIgnoreAsciiCase (trimAscii coding) (ascii "chunked")

/-! ## Header blocks -/

/-- The authority header of `kind`'s side, if `line` is one: where its value
starts, the authority in it, and which header it was.  Each header is
recognized only on the side that defines it. -/
def rewritableAuthority (line : Bytes) (kind : Kind) :
    Option (Nat × Authority × AuthorityHeader) := do
  let (value, bare, wrap) ←
    match kind with
    | .request =>
        (stripPrefixIgnoreAsciiCase line (ascii "Host:")).map
          fun value => (value, true, AuthorityHeader.host)
    | .response =>
        match stripPrefixIgnoreAsciiCase line (ascii "Application-URL:") with
        | some value => some (value, false, AuthorityHeader.applicationUrl)
        | none =>
            (stripPrefixIgnoreAsciiCase line (ascii "Location:")).map
              fun value => (value, false, AuthorityHeader.location)
  let trimmed := trimAsciiStart value
  let found ← parseAuthority trimmed bare
  some (line.length - trimmed.length, found, wrap found.endpoint)

def authorityText (endpoint : SocketAddrV4) : Bytes :=
  List.intercalate (ascii ".")
      (endpoint.ip.octets.map fun octet => decimal octet.toNat) ++
    ascii ":" ++ decimal endpoint.port.toNat

structure HeaderScan where
  header : Bytes
  contentLength : Option Nat
  chunked : Bool
  applicationUrl : Option SocketAddrV4
  status : Nat
  first : Bool
  deriving DecidableEq

def HeaderScan.start : HeaderScan := ⟨[], none, false, none, 0, true⟩

def HeaderScan.copyLine (scan : HeaderScan) (line : Bytes) : HeaderScan :=
  { scan with header := scan.header ++ line ++ crlf }

/-- Detect the framing headers, rewrite an authority header, and emit the
line. -/
def HeaderScan.inspectAndEmit (kind : Kind) (rewrite : RewritePolicy)
    (scan : HeaderScan) (line : Bytes) :
    Except FramingError (HeaderScan × Option AuthorityHeader) :=
  match stripPrefixIgnoreAsciiCase line (ascii "Content-Length:") with
  | some value => do
      let length ← parseContentLength value
      if scan.contentLength.any (· != length) then
        .error .conflictingContentLength
      else
        .ok ({ scan with contentLength := some length }.copyLine line, none)
  | none =>
      match stripPrefixIgnoreAsciiCase line (ascii "Transfer-Encoding:") with
      | some value =>
          let chunked := scan.chunked || valueHasChunked value
          .ok ({ scan with chunked := chunked }.copyLine line, none)
      | none =>
          match rewritableAuthority line kind with
          | some (offset, found, header) =>
              match rewrite.target header with
              | some replacement =>
                  let start := offset + found.offset
                  let line := line.take start ++ authorityText replacement ++
                    line.drop (start + found.len)
                  .ok (scan.copyLine line, some header)
              | none => .ok (scan.copyLine line, some header)
          | none => .ok (scan.copyLine line, none)

def HeaderScan.line (kind : Kind) (rewrite : RewritePolicy)
    (scan : HeaderScan) (line : Bytes) : Except FramingError HeaderScan :=
  if scan.first then
    match kind with
    | .response =>
        .ok ({ scan with
          status := parseStatusCode line, first := false }.copyLine line)
    | .request =>
        if (ascii "HEAD ").isPrefixOf line then .error .unsupportedMethod
        else .ok ({ scan with first := false }.copyLine line)
  else do
    let (scan, header) ← scan.inspectAndEmit kind rewrite line
    match header with
    -- The first one wins, as a client reads a repeated field.
    | some (.applicationUrl endpoint) =>
        .ok { scan with
          applicationUrl := scan.applicationUrl.or (some endpoint) }
    | _ => .ok scan

/-- The line loop over what is left of the block; a line takes an octet at
least, so the block's length bounds the rounds. -/
def HeaderScan.lines (kind : Kind) (rewrite : RewritePolicy) :
    Nat → Bytes → HeaderScan → Except FramingError HeaderScan
  | 0, _, scan => .ok scan
  | rounds + 1, rest, scan =>
      if rest = [] then .ok scan
      else do
        let stop := (findCrlf rest).getD rest.length
        let scan ← scan.line kind rewrite (rest.take stop)
        lines kind rewrite rounds (rest.drop (stop + crlf.length)) scan

def bodylessStatus (status : Nat) : Bool :=
  (100 ≤ status ∧ status ≤ 199) ∨ status = 204 ∨ status = 304

def HttpFraming.setBodyPhase (framer : HttpFraming) (status : Nat)
    (contentLength : Option Nat) (chunked : Bool) : HttpFraming :=
  let framer := { framer with bodyRemaining := 0, chunkRemaining := 0 }
  if framer.kind = .response ∧ bodylessStatus status then
    { framer with phase := .header }
  else if chunked then { framer with phase := .bodyChunked }
  else
    match contentLength with
    | some length =>
        if length = 0 then { framer with phase := .header }
        else { framer with phase := .bodyContentLength, bodyRemaining := length }
    | none =>
        match framer.kind with
        | .request => { framer with phase := .header }
        | .response => { framer with phase := .bodyCloseDelimited }

def HttpFraming.scanAndRewriteHeader (framer : HttpFraming) (block : Bytes) :
    Except FramingError (HttpFraming × Bytes × Option SocketAddrV4) := do
  let scan ← HeaderScan.lines framer.kind framer.rewrite block.length block
    .start
  if scan.contentLength.isSome ∧ scan.chunked then
    .error .contentLengthWithChunked
  else
    .ok (framer.setBodyPhase scan.status scan.contentLength scan.chunked,
      scan.header, scan.applicationUrl)

/-! ## Feeding -/

def skipCrlfs : Bytes → Nat
  | first :: second :: rest =>
      if [first, second] = crlf then crlf.length + skipCrlfs rest else 0
  | _ => 0

/-- The body loop over the input from `rest` on; returns how much of it was
taken.  Every round that goes on takes an octet, so one more round than there
are octets is enough. -/
def HttpFraming.takeBody :
    Nat → HttpFraming → Bytes → Except FramingError (HttpFraming × Nat)
  | 0, framer, _ => .ok (framer, 0)
  | rounds + 1, framer, rest =>
      if rest = [] then .ok (framer, 0)
      else
        match framer.phase with
        | .header => .ok (framer, 0)
        | .bodyContentLength =>
            let taken := min framer.bodyRemaining rest.length
            let left := framer.bodyRemaining - taken
            .ok ({ framer with
              bodyRemaining := left
              phase := if left = 0 then .header else framer.phase }, taken)
        | .bodyCloseDelimited => .ok (framer, rest.length)
        | .bodyChunked =>
            if 0 < framer.chunkRemaining then
              let taken := min framer.chunkRemaining rest.length
              let left := framer.chunkRemaining - taken
              let framer := { framer with chunkRemaining := left }
              if 0 < left then .ok (framer, taken)
              else do
                let (framer, more) ←
                  takeBody rounds framer (rest.drop taken)
                .ok (framer, taken + more)
            else
              match findCrlf rest with
              | none =>
                  if rest.length > maxChunkLine then .error .chunkLineTooLong
                  else .ok (framer, 0)
              | some stop => do
                  let size ← parseChunkSize (rest.take stop)
                  let taken := stop + crlf.length
                  if size = 0 then
                    let (framer, more) ← takeBody rounds
                      { framer with phase := .bodyChunkedTrailers }
                      (rest.drop taken)
                    .ok (framer, taken + more)
                  -- The data plus its terminating CRLF.
                  else if size + crlf.length ≥ usizeLimit then
                    .error .chunkSizeTooLarge
                  else
                    let (framer, more) ← takeBody rounds
                      { framer with chunkRemaining := size + crlf.length }
                      (rest.drop taken)
                    .ok (framer, taken + more)
        | .bodyChunkedTrailers =>
            match findCrlf rest with
            | none =>
                if rest.length > maxTrailerLine then .error .trailerLineTooLong
                else .ok (framer, 0)
            | some stop => do
                let taken := stop + crlf.length
                let (framer, more) ← takeBody rounds
                  { framer with
                    phase := if stop = 0 then .header else framer.phase }
                  (rest.drop taken)
                .ok (framer, taken + more)

/-- Feed a contiguous view of the owner's buffered bytes.  Each call yields at
most one message's header and as much of its body as arrived; `consumed = 0`
means that more bytes are needed. -/
def HttpFraming.feed (framer : HttpFraming) (input : Bytes) :
    Except FramingError (HttpFraming × Framed) :=
  if framer.phase = .header then
    let skipped := skipCrlfs input
    let rest := input.drop skipped
    match findHeaderEnd rest with
    | none =>
        if rest.length > maxHeader then .error .headerTooLong
        else .ok (framer, ⟨[], [], 0, none⟩)
    | some stop =>
        if stop > maxHeader then .error .headerTooLong
        else do
          let (framer, header, url) ←
            framer.scanAndRewriteHeader (rest.take stop)
          let tail := rest.drop stop
          let (framer, taken) ← takeBody (tail.length + 1) framer tail
          .ok (framer, ⟨header, tail.take taken, skipped + stop + taken, url⟩)
  else do
    let (framer, taken) ← takeBody (input.length + 1) framer input
    .ok (framer, ⟨[], input.take taken, taken, none⟩)

theorem feed_nothing {framer framer' : HttpFraming} {input : Bytes}
    {framed : Framed} (h : framer.feed input = .ok (framer', framed))
    (hnone : framed.consumed = 0) : framed.header = [] ∧ framed.body = [] := by
  simp only [HttpFraming.feed] at h
  split at h
  · split at h
    · split at h
      · cases h
      · cases h
        exact ⟨rfl, rfl⟩
    · rename_i stop hstop
      obtain ⟨position, _, hposition⟩ := Option.map_eq_some_iff.mp hstop
      have hfour : headerTerminator.length = 4 := rfl
      split at h
      · cases h
      obtain ⟨⟨next, header, url⟩, _, h⟩ := except_bind_ok h
      obtain ⟨⟨final, taken⟩, _, h⟩ := except_bind_ok h
      cases h
      simp only at hnone
      omega
  · obtain ⟨⟨final, taken⟩, _, h⟩ := except_bind_ok h
    cases h
    simp only at hnone
    rw [hnone]
    exact ⟨rfl, rfl⟩

end Netflector.Net.Http
