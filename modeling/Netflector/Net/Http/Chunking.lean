import Netflector.Net.Http.Acceptance

/-!
# Accepted chunked bodies

What the framer forwards between a header block with a chunked body and the
next message, whatever the feeds.  It counts the data of a chunk and the two
octets behind it together, and does not look at those two.
-/

namespace Netflector.Net.Http

open Netflector.Foundation

/-! ## What is read so far -/

/-- Where the framer is in a chunked body: `chunk left` with that many octets
of data and its CRLF to come, none before a size line. -/
inductive ChunkState where
  | chunk (left : Nat)
  | trailers
  | done
  deriving DecidableEq

inductive Takes : ChunkState → Bytes → ChunkState → Prop where
  | refl (state : ChunkState) : Takes state [] state
  | octet (left : Nat) (octet : UInt8) {rest : Bytes} {state : ChunkState}
      (hrest : Takes (.chunk left) rest state) :
      Takes (.chunk (left + 1)) (octet :: rest) state
  | size {line : Bytes} {size : Nat} {rest : Bytes} {state : ChunkState}
      (hline : findCrlf line = none) (hsize : parseChunkSize line = .ok size)
      (hpositive : size ≠ 0) (hfits : size + crlf.length < usizeLimit)
      (hrest : Takes (.chunk (size + crlf.length)) rest state) :
      Takes (.chunk 0) (line ++ (crlf ++ rest)) state
  | last {line : Bytes} {rest : Bytes} {state : ChunkState}
      (hline : findCrlf line = none) (hsize : parseChunkSize line = .ok 0)
      (hrest : Takes .trailers rest state) :
      Takes (.chunk 0) (line ++ (crlf ++ rest)) state
  | trailer {line : Bytes} {rest : Bytes} {state : ChunkState}
      (hline : findCrlf line = none) (hsome : line ≠ [])
      (hrest : Takes .trailers rest state) :
      Takes .trailers (line ++ (crlf ++ rest)) state
  | blank : Takes .trailers crlf .done

theorem Takes.trans {first second third : ChunkState} {bytes more : Bytes}
    (h : Takes first bytes second) (h' : Takes second more third)
    (hgoing : second ≠ .done) : Takes first (bytes ++ more) third := by
  induction h with
  | refl state => exact h'
  | octet left octet hrest ih => exact .octet left octet (ih h' hgoing)
  | size hline hsize hpositive hfits hrest ih =>
      rw [List.append_assoc, List.append_assoc]
      exact .size hline hsize hpositive hfits (ih h' hgoing)
  | last hline hsize hrest ih =>
      rw [List.append_assoc, List.append_assoc]
      exact .last hline hsize (ih h' hgoing)
  | trailer hline hsome hrest ih =>
      rw [List.append_assoc, List.append_assoc]
      exact .trailer hline hsome (ih h' hgoing)
  | blank => exact absurd rfl hgoing

theorem Takes.octets (data : Bytes) (left : Nat) :
    Takes (.chunk (data.length + left)) data (.chunk left) := by
  induction data with
  | nil =>
      rw [List.length_nil, Nat.zero_add]
      exact .refl _
  | cons octet data ih =>
      rw [List.length_cons, Nat.add_right_comm]
      exact .octet _ octet ih

def HttpFraming.chunkState (framer : HttpFraming) : Option ChunkState :=
  match framer.phase with
  | .bodyChunked => some (.chunk framer.chunkRemaining)
  | .bodyChunkedTrailers => some .trailers
  | .header => some .done
  | .bodyContentLength | .bodyCloseDelimited => none

theorem findCrlf_take {rest : Bytes} {stop : Nat}
    (h : findCrlf rest = some stop) :
    findCrlf (rest.take stop) = none ∧
      rest = rest.take stop ++ (crlf ++ rest.drop (stop + crlf.length)) := by
  induction rest generalizing stop with
  | nil => cases h
  | cons octet rest ih =>
      simp only [findCrlf, findSubslice] at h ih ⊢
      split at h
      next hhere =>
        cases h
        obtain ⟨later, hlater⟩ := List.isPrefixOf_iff_prefix.mp hhere
        refine ⟨rfl, ?_⟩
        rw [← hlater]
        simp
      next hnot =>
        obtain ⟨next, hnext, rfl⟩ := Option.map_eq_some_iff.mp h
        obtain ⟨hnone, hsplit⟩ := ih hnext
        refine ⟨?_, ?_⟩
        · rw [List.take_succ_cons, findSubslice, if_neg, hnone]
          · rfl
          · intro hprefix
            apply hnot
            rw [List.isPrefixOf_iff_prefix] at hprefix ⊢
            exact hprefix.trans (List.take_prefix (next + 1) (octet :: rest))
        · rw [List.take_succ_cons, Nat.add_right_comm, List.drop_succ_cons,
            List.cons_append, ← hsplit]

theorem take_line {rest : Bytes} {stop more : Nat}
    (h : findCrlf rest = some stop) :
    rest.take (stop + crlf.length + more) = rest.take stop ++
      (crlf ++ (rest.drop (stop + crlf.length)).take more) := by
  have hbound := findSubslice_bound h
  obtain ⟨_, hsplit⟩ := findCrlf_take h
  have hfirst : rest.take (stop + crlf.length) = rest.take stop ++ crlf := by
    have hlength : (rest.take stop ++ crlf).length = stop + crlf.length := by
      rw [List.length_append, List.length_take]
      omega
    conv_lhs => rw [hsplit, ← List.append_assoc]
    rw [← hlength, List.take_left]
  rw [List.take_add, hfirst, List.append_assoc]

theorem takeBody_takes (rounds : Nat) {framer final : HttpFraming}
    {rest : Bytes} {taken : Nat} {state : ChunkState}
    (hstate : framer.chunkState = some state)
    (h : HttpFraming.takeBody rounds framer rest = .ok (final, taken)) :
    ∃ left, final.chunkState = some left ∧
      Takes state (rest.take taken) left := by
  induction rounds generalizing framer rest taken state with
  | zero =>
      cases h
      exact ⟨state, hstate, .refl state⟩
  | succ rounds ih =>
      have hstop : ∀ {framer' : HttpFraming}, (Except.ok (framer', 0) :
          Except FramingError (HttpFraming × Nat)) = .ok (final, taken) →
          framer'.chunkState = some state →
          ∃ left, final.chunkState = some left ∧
            Takes state (rest.take taken) left := by
        intro framer' hsame hstate'
        cases hsame
        exact ⟨state, hstate', .refl state⟩
      rw [HttpFraming.takeBody] at h
      split at h
      · exact hstop h hstate
      simp only [HttpFraming.chunkState] at hstate
      split at h
      next hphase => exact hstop h (by simpa [HttpFraming.chunkState] using hstate)
      next hphase =>
        rw [hphase] at hstate
        cases hstate
      next hphase =>
        rw [hphase] at hstate
        cases hstate
      next hphase =>
        rw [hphase] at hstate
        cases hstate
        split at h
        next hleft =>
          have hshort := Nat.min_le_left framer.chunkRemaining rest.length
          have hlength : (rest.take (min framer.chunkRemaining
              rest.length)).length = min framer.chunkRemaining rest.length := by
            rw [List.length_take]
            omega
          -- the data that arrived
          have hdata := Takes.octets (rest.take (min framer.chunkRemaining
            rest.length)) (framer.chunkRemaining -
              min framer.chunkRemaining rest.length)
          rw [hlength, Nat.add_sub_cancel' hshort] at hdata
          dsimp only at h
          split at h
          · cases h
            refine ⟨_, ?_, hdata⟩
            simp [HttpFraming.chunkState, hphase]
          · obtain ⟨⟨final', more⟩, hmore, hsame⟩ := except_bind_ok h
            cases hsame
            obtain ⟨left, hleftState, htakes⟩ := ih
              (show HttpFraming.chunkState _ = some (.chunk _) by
                simp only [HttpFraming.chunkState, hphase]
                rfl) hmore
            refine ⟨left, hleftState, ?_⟩
            rw [List.take_add]
            exact hdata.trans htakes (by simp)
        next hnone =>
          have hzero : framer.chunkRemaining = 0 := by omega
          rw [hzero]
          split at h
          · split at h
            · cases h
            · cases h
              exact ⟨.chunk 0, by simp [HttpFraming.chunkState, hphase, hzero],
                .refl _⟩
          next stop hfound =>
            obtain ⟨hline, _⟩ := findCrlf_take hfound
            obtain ⟨size, hsize, h⟩ := except_bind_ok h
            dsimp only at h
            split at h
            next hlast =>
              obtain ⟨⟨final', more⟩, hmore, hsame⟩ := except_bind_ok h
              cases hsame
              obtain ⟨left, hleftState, htakes⟩ := ih
                (show HttpFraming.chunkState _ = some .trailers from rfl) hmore
              refine ⟨left, hleftState, ?_⟩
              rw [take_line hfound]
              subst hlast
              exact .last hline hsize htakes
            next hpositive =>
              split at h
              · cases h
              next hfits =>
                obtain ⟨⟨final', more⟩, hmore, hsame⟩ := except_bind_ok h
                cases hsame
                obtain ⟨left, hleftState, htakes⟩ := ih
                  (show HttpFraming.chunkState _ = some (.chunk _) by
                    simp only [HttpFraming.chunkState, hphase]
                    rfl) hmore
                refine ⟨left, hleftState, ?_⟩
                rw [take_line hfound]
                exact .size hline hsize hpositive (Nat.not_le.mp hfits) htakes
      next hphase =>
        rw [hphase] at hstate
        cases hstate
        split at h
        · split at h
          · cases h
          · exact hstop h (by simp [HttpFraming.chunkState, hphase])
        next stop hfound =>
          obtain ⟨hline, _⟩ := findCrlf_take hfound
          obtain ⟨⟨final', more⟩, hmore, hsame⟩ := except_bind_ok h
          cases hsame
          rw [take_line hfound]
          by_cases hblank : stop = 0
          · subst hblank
            rw [if_pos rfl, takeBody_header rfl] at hmore
            cases hmore
            exact ⟨.done, rfl, by simpa using Takes.blank⟩
          · rw [if_neg hblank] at hmore
            obtain ⟨left, hleftState, htakes⟩ := ih
              (show HttpFraming.chunkState _ = some .trailers by
                simp only [HttpFraming.chunkState, hphase]) hmore
            refine ⟨left, hleftState, .trailer hline ?_ htakes⟩
            have hbound := findSubslice_bound hfound
            rw [← List.length_pos_iff, List.length_take]
            simp only [crlf, List.length_cons, List.length_nil] at hbound
            omega

/-! ## Size lines -/

theorem parseUnsigned_some {radix limit value : Nat} {bytes : Bytes}
    (hhead : bytes.head?.any (isDigit radix) = true)
    (h : parseUnsigned radix limit bytes = some value) :
    bytes ≠ [] ∧ bytes.all (isDigit radix) = true ∧
      digitsValue radix bytes = value ∧ value < limit := by
  have hunsigned : bytes.head? ≠ some 0x2b := by
    intro hsign
    have hdigit : isDigit radix 0x2b = true := by simpa [hsign] using hhead
    exact absurd rfl (digit_plain (isDigit_isSome hdigit)).2.1
  simp only [parseUnsigned, if_neg hunsigned] at h
  split at h
  next hdigits =>
    cases h
    exact ⟨hdigits.1, hdigits.2.1, rfl, hdigits.2.2⟩
  · cases h

theorem parseChunkSize_sizeLine {line : Bytes} {size : Nat}
    (hline : findCrlf line = none) (h : parseChunkSize line = .ok size) :
    ∃ sizeLine : SizeLine, sizeLine.text = line ∧ sizeLine.size = size := by
  simp only [parseChunkSize] at h
  split at h
  · cases h
  next hhead =>
    rw [Bool.not_eq_true, Bool.not_eq_false'] at hhead
    split at h
    next parsed hparsed =>
      cases h
      obtain ⟨hsome, hdigits, hvalue, _⟩ := parseUnsigned_some hhead hparsed
      obtain ⟨lead, trail, hsplit, hlead, htrail⟩ :=
        trimAscii_split (line.takeWhile (· != 0x3b))
      have htext : lead ++ trimAscii (line.takeWhile (· != 0x3b)) ++ trail ++
          line.dropWhile (· != 0x3b) = line := by
        rw [← hsplit, List.takeWhile_append_dropWhile]
      refine ⟨⟨lead, _, trail, line.dropWhile (· != 0x3b), hlead, htrail, hsome,
        hdigits, ?_, by rw [htext]; exact hline⟩, htext, hvalue⟩
      cases hrest : line.dropWhile (· != 0x3b) with
      | nil => rfl
      | cons octet rest =>
          have hstop := List.head?_dropWhile_not (· != 0x3b) line
          rw [hrest] at hstop
          simpa using hstop
    · cases h

/-! ## The grammar -/

/-- Each chunk's data is followed by a CRLF, as far as the size lines go. -/
def dataTerminated : Nat → Bytes → Bool
  | 0, _ => true
  | rounds + 1, body =>
      match findCrlf body with
      | none => true
      | some stop =>
          match parseChunkSize (body.take stop) with
          | .error _ => true
          | .ok size =>
              if size = 0 then true
              else
                let behind := body.drop (stop + crlf.length + size)
                crlf.isPrefixOf behind &&
                  dataTerminated rounds (behind.drop crlf.length)

/-- A body that a chunked coding of RFC 9112 writes, and that ends where every
reader of the coding ends it. -/
def Conforms (body : Bytes) : Prop :=
  (∃ chunked : ChunkedBody, chunked.render = body) ∧
    ∀ (other : ChunkedBody) (rest rest' : Bytes),
      other.render ++ rest' = body ++ rest → other.render = body

theorem ChunkedBody.render_unique (first second : ChunkedBody)
    {rest rest' : Bytes} (h : first.render ++ rest = second.render ++ rest') :
    first.render = second.render := by
  let framer : HttpFraming :=
    ⟨.request, ⟨none, none, none⟩, .bodyChunked, 0, 0⟩
  have hphase : framer.phase = .bodyChunked := rfl
  have hzero : framer.chunkRemaining = 0 := rfl
  have hfirst := takeBody_chunked hphase hzero first rest
    (show _ < first.render.length + second.render.length + 1 by
      have := first.rounds_le
      omega)
  have hsecond := takeBody_chunked hphase hzero second rest'
    (show _ < first.render.length + second.render.length + 1 by
      have := second.rounds_le
      omega)
  rw [h, hsecond] at hfirst
  have hlength : first.render.length = second.render.length := by
    simpa using hfirst.symm
  exact (List.append_inj h hlength).1

theorem dataTerminated_render (chunks : List Chunk) (last : SizeLine)
    (hlast : last.size = 0) (trailers : Bytes) (rounds : Nat) :
    dataTerminated rounds (chunks.flatMap Chunk.render ++
      (last.render ++ trailers)) = true := by
  induction chunks generalizing rounds with
  | nil =>
      cases rounds with
      | zero => rfl
      | succ rounds =>
          have hfits : last.size < usizeLimit := by
            rw [hlast]
            decide
          have hshape : last.render ++ trailers =
              last.text ++ (crlf ++ trailers) := by
            simp [SizeLine.render]
          have hfound : findCrlf (last.text ++ (crlf ++ trailers)) =
              some last.text.length := findCrlf_line last.unbroken trailers
          rw [List.flatMap_nil, List.nil_append, hshape, dataTerminated, hfound]
          simp only [List.take_left, last.parse hfits, hlast, if_true]
  | cons chunk chunks ih =>
      cases rounds with
      | zero => rfl
      | succ rounds =>
          have hbounded := chunk.bounded
          have hannounced := chunk.announced
          have hpositive : chunk.line.size ≠ 0 := by
            rw [hannounced]
            simpa using chunk.nonempty
          have hshape : (chunk :: chunks).flatMap Chunk.render ++
              (last.render ++ trailers) = chunk.line.text ++ (crlf ++
                (chunk.data ++ (crlf ++ (chunks.flatMap Chunk.render ++
                  (last.render ++ trailers))))) := by
            simp [Chunk.render, SizeLine.render]
          have hbehind : (chunk.line.text ++ (crlf ++ (chunk.data ++ (crlf ++
              (chunks.flatMap Chunk.render ++
                (last.render ++ trailers)))))).drop
              (chunk.line.text.length + crlf.length + chunk.line.size) =
              crlf ++ (chunks.flatMap Chunk.render ++
                (last.render ++ trailers)) := by
            rw [← List.drop_drop, drop_line, hannounced, List.drop_left]
          have hfound : findCrlf (chunk.line.text ++ (crlf ++ (chunk.data ++
              (crlf ++ (chunks.flatMap Chunk.render ++
                (last.render ++ trailers)))))) =
              some chunk.line.text.length :=
            findCrlf_line chunk.line.unbroken _
          rw [hshape, dataTerminated, hfound]
          simp only [List.take_left, chunk.line.parse (by omega),
            if_neg hpositive, hbehind, List.drop_left, ih, Bool.and_true]
          exact List.isPrefixOf_iff_prefix.mpr (List.prefix_append ..)

theorem Takes.trailers_lines {bytes : Bytes} (h : Takes .trailers bytes .done) :
    ∃ lines : List Line, renderLines lines = bytes := by
  generalize hstate : ChunkState.trailers = state at h
  generalize hfinal : ChunkState.done = final at h
  induction h with
  | refl state =>
      rw [← hstate] at hfinal
      cases hfinal
  | octet left octet hrest ih => cases hstate
  | size hline hsize hpositive hfits hrest ih => cases hstate
  | last hline hsize hrest ih => cases hstate
  | trailer hline hsome hrest ih =>
      obtain ⟨lines, hlines⟩ := ih rfl hfinal
      refine ⟨⟨_, hsome, hline⟩ :: lines, ?_⟩
      rw [renderLines, Line.render, hlines, List.append_assoc]
  | blank => exact ⟨[], rfl⟩

theorem Takes.data {left : Nat} {bytes : Bytes}
    (h : Takes (.chunk left) bytes .done) : ∃ data rest,
    data.length = left ∧ bytes = data ++ rest ∧ Takes (.chunk 0) rest .done := by
  induction left generalizing bytes with
  | zero => exact ⟨[], bytes, rfl, rfl, h⟩
  | succ left ih =>
      cases h with
      | octet left octet hrest =>
          obtain ⟨data, rest, hlength, hsplit, htakes⟩ := ih hrest
          refine ⟨octet :: data, rest, by rw [List.length_cons, hlength], ?_,
            htakes⟩
          rw [hsplit]
          rfl

theorem Takes.chunked (rounds : Nat) {body : Bytes}
    (hrounds : body.length ≤ rounds) (h : Takes (.chunk 0) body .done)
    (hterminated : dataTerminated rounds body = true) :
    ∃ chunked : ChunkedBody, chunked.render = body := by
  induction rounds generalizing body with
  | zero =>
      have hempty : body = [] := List.length_eq_zero_iff.mp (by omega)
      cases h with
      | size hline hsize hpositive hfits hrest => simp [crlf] at hempty
      | last hline hsize hrest => simp [crlf] at hempty
  | succ rounds ih =>
      cases h with
      | last hline hsize hrest =>
          obtain ⟨sizeLine, htext, hzero⟩ := parseChunkSize_sizeLine hline hsize
          obtain ⟨lines, hlines⟩ := hrest.trailers_lines
          refine ⟨⟨[], sizeLine, lines, hzero⟩, ?_⟩
          rw [ChunkedBody.render, SizeLine.render, htext, hlines]
          simp
      | @size line size rest _ hline hsize hpositive hfits hrest =>
          obtain ⟨sizeLine, htext, hvalue⟩ := parseChunkSize_sizeLine hline hsize
          obtain ⟨data, later, hlength, rfl, hlater⟩ := hrest.data
          rw [dataTerminated, findCrlf_line hline] at hterminated
          simp only [List.take_left, hsize, if_neg hpositive] at hterminated
          rw [← List.drop_drop, drop_line, Bool.and_eq_true] at hterminated
          obtain ⟨hcrlf, hrounds'⟩ := hterminated
          -- the last two of the octets that were counted
          have hbehind : (data ++ later).drop size = data.drop size ++ later :=
            List.drop_append_of_le_length (by omega)
          have htail : data.drop size = crlf := by
            have hprefix := List.isPrefixOf_iff_prefix.mp hcrlf
            rw [hbehind] at hprefix
            refine (List.prefix_of_prefix_length_le hprefix
              (List.prefix_append _ _) ?_).eq_of_length ?_ |>.symm
            · rw [List.length_drop]
              omega
            · rw [List.length_drop]
              omega
          rw [hbehind, htail, List.drop_left] at hrounds'
          have hdata : data.take size ++ crlf = data := by
            rw [← htail, List.take_append_drop]
          have hsized : (data.take size).length = size := by
            rw [List.length_take]
            omega
          obtain ⟨chunked, hchunked⟩ := ih (by
            simp only [List.length_append, crlf, List.length_cons,
              List.length_nil] at hrounds
            omega) hlater hrounds'
          refine ⟨⟨⟨sizeLine, data.take size, ?_, ?_, ?_⟩ :: chunked.chunks,
            chunked.last, chunked.trailers, chunked.final⟩, ?_⟩
          · rw [← List.length_pos_iff]
            omega
          · rw [hvalue, hsized]
          · rw [hsized]
            exact hfits
          · rw [ChunkedBody.render, List.flatMap_cons, List.append_assoc,
              ← ChunkedBody.render, hchunked, Chunk.render, SizeLine.render,
              htext, hdata]
            simp

/-! ## Every segmentation -/

/-- What is forwarded as body from a header block with a chunked body on, over
feeds of any input. -/
inductive Forwarded (start : HttpFraming) : Bytes → HttpFraming → Prop where
  | started {input : Bytes} {stop : Nat} {started next : HttpFraming}
      {header : Bytes} {url : Option SocketAddrV4} {framed : Framed}
      (hphase : start.phase = .header)
      (hstop : findHeaderEnd (input.drop (skipCrlfs input)) = some stop)
      (hscan : start.scanAndRewriteHeader
        ((input.drop (skipCrlfs input)).take stop) =
          .ok (started, header, url))
      (hchunked : started.phase = .bodyChunked)
      (hfeed : start.feed input = .ok (next, framed)) :
      Forwarded start framed.body next
  | more {body input : Bytes} {framer next : HttpFraming} {framed : Framed}
      (hbefore : Forwarded start body framer)
      (hgoing : framer.phase ≠ .header)
      (hfeed : framer.feed input = .ok (next, framed)) :
      Forwarded start (body ++ framed.body) next

theorem setBodyPhase_chunk (framer : HttpFraming) (status : Nat)
    (contentLength : Option Nat) (chunked : Bool) :
    (framer.setBodyPhase status contentLength chunked).chunkRemaining = 0 := by
  simp only [HttpFraming.setBodyPhase]
  split
  · rfl
  split
  · rfl
  split
  · split
    · rfl
    · rfl
  · split
    · rfl
    · rfl

theorem Forwarded.takes {start final : HttpFraming} {body : Bytes}
    (h : Forwarded start body final) : ∃ left,
    final.chunkState = some left ∧ Takes (.chunk 0) body left := by
  induction h with
  | @started input stop started next header url framed hphase hstop hscan
      hchunked hfeed =>
      simp only [HttpFraming.feed, hphase, if_true, hstop] at hfeed
      split at hfeed
      · cases hfeed
      obtain ⟨scanned, hscanned, hrest⟩ := except_bind_ok hfeed
      rw [hscan] at hscanned
      cases hscanned
      obtain ⟨⟨final, taken⟩, hbody, hsame⟩ := except_bind_ok hrest
      cases hsame
      have hzero : started.chunkRemaining = 0 := by
        obtain ⟨scan, _, hset⟩ := except_bind_ok hscan
        split at hset
        · cases hset
        · cases hset
          exact setBodyPhase_chunk ..
      have hstate : started.chunkState = some (.chunk 0) := by
        simp only [HttpFraming.chunkState, hchunked, hzero]
      exact takeBody_takes _ hstate hbody
  | more hbefore hgoing hfeed ih =>
      obtain ⟨state, hstate, htakes⟩ := ih
      simp only [HttpFraming.feed, if_neg hgoing] at hfeed
      obtain ⟨⟨final, taken⟩, hbody, hsame⟩ := except_bind_ok hfeed
      cases hsame
      obtain ⟨left, hleft, hmore⟩ := takeBody_takes _ hstate hbody
      refine ⟨left, hleft, htakes.trans hmore ?_⟩
      rintro rfl
      apply hgoing
      simp only [HttpFraming.chunkState] at hstate
      split at hstate <;> simp_all

theorem ChunkedBody.dataTerminated (chunked : ChunkedBody) (rounds : Nat) :
    Http.dataTerminated rounds chunked.render = true :=
  dataTerminated_render chunked.chunks chunked.last chunked.final _ rounds

/-- Whatever the feeds: what is forwarded up to the next message is a chunked
body exactly where the data of every chunk is followed by a CRLF. -/
theorem forwarded_conforms_iff {start final : HttpFraming} {body : Bytes}
    (h : Forwarded start body final) (hdone : final.phase = .header) :
    Conforms body ↔ dataTerminated body.length body = true := by
  obtain ⟨left, hleft, htakes⟩ := h.takes
  have hend : left = .done := by
    simpa [HttpFraming.chunkState, hdone] using hleft.symm
  subst hend
  constructor
  · rintro ⟨⟨chunked, rfl⟩, _⟩
    exact chunked.dataTerminated _
  · intro hterminated
    obtain ⟨chunked, rfl⟩ := htakes.chunked _ (Nat.le_refl _) hterminated
    exact ⟨⟨chunked, rfl⟩, fun other rest rest' hsame =>
      other.render_unique chunked hsame⟩

def chunkedHeader : Bytes :=
  ascii "HTTP/1.1 200 OK\r\nTransfer-Encoding: chunked\r\n\r\n"

def plainResponses (phase : Phase) : HttpFraming :=
  ⟨.response, ⟨none, none, none⟩, phase, 0, 0⟩

theorem forwarded_started {body : Bytes}
    (hstop : findHeaderEnd ((chunkedHeader ++ body).drop
      (skipCrlfs (chunkedHeader ++ body))) = some 47)
    (hscan : (plainResponses .header).scanAndRewriteHeader
      (((chunkedHeader ++ body).drop
        (skipCrlfs (chunkedHeader ++ body))).take 47) =
        .ok (plainResponses .bodyChunked, chunkedHeader, none))
    (hfeed : (plainResponses .header).feed (chunkedHeader ++ body) =
      .ok (plainResponses .header, ⟨chunkedHeader, body, 47 + body.length,
        none⟩)) :
    Forwarded (plainResponses .header) body (plainResponses .header) :=
  .started rfl hstop hscan rfl hfeed

/-- Two octets that are no CRLF behind the data of a chunk. -/
def unterminatedChunk : Bytes := ascii "1\r\nAXY0\r\n\r\n"

theorem forwarded_unterminated :
    Forwarded (plainResponses .header) unterminatedChunk
      (plainResponses .header) ∧ ¬Conforms unterminatedChunk := by
  constructor
  · exact forwarded_started (by decide) (by decide) (by decide)
  · rintro ⟨⟨chunked, hchunked⟩, _⟩
    have hterminated := chunked.dataTerminated 1
    rw [hchunked] at hterminated
    exact absurd hterminated (by decide)

def helloChunk : Bytes := ascii "5\r\nhello\r\n0\r\n\r\n"

theorem forwarded_conforms_hello :
    Forwarded (plainResponses .header) helloChunk (plainResponses .header) ∧
      Conforms helloChunk := by
  have hforwarded : Forwarded (plainResponses .header) helloChunk
      (plainResponses .header) :=
    forwarded_started (by decide) (by decide) (by decide)
  exact ⟨hforwarded, (forwarded_conforms_iff hforwarded rfl).mpr (by decide)⟩

end Netflector.Net.Http
