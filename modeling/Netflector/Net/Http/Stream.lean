import Netflector.Net.Http.Segmentation

/-!
# A stream through the framer

The owner appends every chunk that arrives to its unconsumed bytes and feeds
the framer until it consumes nothing.
-/

namespace Netflector.Net.Http

open Netflector.Foundation

/-- The owner of one direction.  `output`, `urls` and `consumed` are what it
has seen the framer produce. -/
structure Stream where
  framer : HttpFraming
  pending : Bytes
  output : Bytes
  urls : List SocketAddrV4
  consumed : Nat
  deriving DecidableEq

def Stream.new (kind : Kind) (rewrite : RewritePolicy) : Stream :=
  ⟨HttpFraming.new kind rewrite, [], [], [], 0⟩

/-- Feed until nothing is consumed.  Every round that goes on consumes an
octet, so one more round than there are octets is enough. -/
def Stream.drain : Nat → Stream → Except FramingError Stream
  | 0, stream => .ok stream
  | rounds + 1, stream => do
      let (framer, framed) ← stream.framer.feed stream.pending
      let stream := { stream with
        framer := framer
        urls := stream.urls ++ framed.applicationUrl.toList }
      if framed.consumed = 0 then .ok stream
      else
        drain rounds { stream with
          output := stream.output ++ (framed.header ++ framed.body)
          consumed := stream.consumed + framed.consumed
          pending := stream.pending.drop framed.consumed }

def Stream.arrive (stream : Stream) (chunk : Bytes) :
    Except FramingError Stream :=
  let stream := { stream with pending := stream.pending ++ chunk }
  drain (stream.pending.length + 1) stream

def Stream.run (stream : Stream) (chunks : List Bytes) :
    Except FramingError Stream :=
  chunks.foldlM Stream.arrive stream

/-! ## Runs -/

structure Stream.After (start : HttpFraming) (bytes : Bytes)
    (stream : Stream) : Prop where
  wellFormed : stream.framer.WellFormed
  consumed : stream.consumed + stream.pending.length = bytes.length
  reads : ∃ emits,
    Reads HttpFraming.atom start bytes emits stream.framer stream.pending ∧
      emits.flatMap Piece.bytes = stream.output ∧
      emits.filterMap Piece.url = stream.urls

structure Stream.Settled (stream : Stream) : Prop where
  more : stream.framer.atom stream.pending = .more
  cap : ¬ stream.framer.OverCap stream.pending

def Errs (start : HttpFraming) (bytes : Bytes) : Prop :=
  ∃ emits framer rest,
    Reads HttpFraming.atom start bytes emits framer rest ∧ framer.Stuck rest

theorem after_new (kind : Kind) (rewrite : RewritePolicy) :
    (Stream.new kind rewrite).After (HttpFraming.new kind rewrite) [] := by
  constructor
  · intro hphase
    cases hphase
  · rfl
  · exact ⟨[], .refl, rfl, rfl⟩

theorem settled_new (kind : Kind) (rewrite : RewritePolicy) :
    (Stream.new kind rewrite).Settled :=
  ⟨atom_nil _, not_overCap_nil _⟩

theorem Stream.After.append {start : HttpFraming} {bytes : Bytes}
    {stream : Stream} (h : stream.After start bytes) (chunk : Bytes) :
    Stream.After start (bytes ++ chunk)
      { stream with pending := stream.pending ++ chunk } := by
  obtain ⟨emits, hreads, hbytes, hurls⟩ := h.reads
  constructor
  · exact h.wellFormed
  · have := h.consumed
    simp only [List.length_append]
    omega
  · exact ⟨emits, hreads.append atom_stable chunk, hbytes, hurls⟩

theorem Stream.After.feed {start framer : HttpFraming} {bytes : Bytes}
    {stream : Stream} {framed : Framed} (h : stream.After start bytes)
    (hspec : stream.framer.FeedSpec stream.pending (.ok (framer, framed))) :
    Stream.After start bytes
      { framer := framer
        pending := stream.pending.drop framed.consumed
        output := stream.output ++ (framed.header ++ framed.body)
        urls := stream.urls ++ framed.applicationUrl.toList
        consumed := stream.consumed + framed.consumed } := by
  obtain ⟨hwell, hle, ⟨emits, hreads, hbytes, hurls⟩, _⟩ := hspec
  obtain ⟨emits', hreads', hbytes', hurls'⟩ := h.reads
  constructor
  · exact hwell
  · have := h.consumed
    simp only [List.length_drop]
    omega
  · refine ⟨emits' ++ emits, hreads'.trans hreads, ?_, ?_⟩
    · rw [List.flatMap_append, hbytes, hbytes']
    · rw [List.filterMap_append, hurls, hurls']

theorem drain_ok {start : HttpFraming} {bytes : Bytes} {rounds : Nat}
    {stream stream' : Stream} (hafter : stream.After start bytes)
    (hrounds : stream.pending.length < rounds)
    (h : Stream.drain rounds stream = .ok stream') :
    stream'.After start bytes ∧ stream'.Settled := by
  induction rounds generalizing stream with
  | zero => omega
  | succ rounds ih =>
      have hspec := feed_spec hafter.wellFormed stream.pending
      obtain ⟨⟨framer, framed⟩, hfeed, h⟩ := except_bind_ok h
      rw [hfeed] at hspec
      simp only at h
      split at h
      · rename_i hnone
        obtain ⟨_, _, _, hwaits⟩ := hspec
        obtain ⟨rfl, hurl, hmore, hcap⟩ := hwaits hnone
        cases h
        simp only [hurl, Option.toList_none, List.append_nil]
        exact ⟨hafter, hmore, hcap⟩
      · rename_i hsome
        have hle := hspec.2.1
        apply ih (hafter.feed hspec) _ h
        simp only [List.length_drop]
        omega

theorem drain_error {start : HttpFraming} {bytes : Bytes} {rounds : Nat}
    {stream : Stream} {error : FramingError}
    (hafter : stream.After start bytes)
    (h : Stream.drain rounds stream = .error error) : Errs start bytes := by
  induction rounds generalizing stream with
  | zero => cases h
  | succ rounds ih =>
      have hspec := feed_spec hafter.wellFormed stream.pending
      simp only [Stream.drain] at h
      cases hfeed : stream.framer.feed stream.pending with
      | error error =>
          rw [hfeed] at hspec
          obtain ⟨emits, framer, rest, hreads, hstuck⟩ := hspec
          obtain ⟨emits', hreads', _, _⟩ := hafter.reads
          exact ⟨emits' ++ emits, framer, rest, hreads'.trans hreads, hstuck⟩
      | ok result =>
          obtain ⟨framer, framed⟩ := result
          rw [hfeed] at hspec
          simp only [hfeed, bind, Except.bind] at h
          split at h
          · cases h
          · exact ih (hafter.feed hspec) h

theorem run_ok {start : HttpFraming} {bytes : Bytes} {chunks : List Bytes}
    {stream stream' : Stream} (hafter : stream.After start bytes)
    (hsettled : stream.Settled) (h : stream.run chunks = .ok stream') :
    stream'.After start (bytes ++ chunks.flatten) ∧ stream'.Settled := by
  induction chunks generalizing stream bytes with
  | nil =>
      cases h
      rw [List.flatten_nil, List.append_nil]
      exact ⟨hafter, hsettled⟩
  | cons chunk chunks ih =>
      simp only [Stream.run, List.foldlM_cons] at h
      obtain ⟨next, harrive, h⟩ := except_bind_ok h
      obtain ⟨hnext, hsettled'⟩ :=
        drain_ok (hafter.append chunk) (Nat.lt_succ_self _) harrive
      rw [List.flatten_cons, ← List.append_assoc]
      exact ih hnext hsettled' h

theorem run_error {start : HttpFraming} {bytes : Bytes} {chunks : List Bytes}
    {stream : Stream} {error : FramingError}
    (hafter : stream.After start bytes)
    (h : stream.run chunks = .error error) :
    ∃ arrived later, bytes ++ chunks.flatten = arrived ++ later ∧
      Errs start arrived := by
  induction chunks generalizing stream bytes with
  | nil => cases h
  | cons chunk chunks ih =>
      simp only [Stream.run, List.foldlM_cons] at h
      rw [List.flatten_cons, ← List.append_assoc]
      cases harrive : stream.arrive chunk with
      | error error =>
          exact ⟨_, _, rfl, drain_error (hafter.append chunk) harrive⟩
      | ok next =>
          obtain ⟨hnext, _⟩ :=
            drain_ok (hafter.append chunk) (Nat.lt_succ_self _) harrive
          simp only [harrive, bind, Except.bind] at h
          exact ih hnext h

/-! ## Segmentation -/

/-- Every chunk-size line of the stream has at most 255 octets and every
trailer line at most 1023. -/
def ShortLines (start : HttpFraming) (bytes : Bytes) : Prop :=
  ∀ emits framer rest stop,
    Reads HttpFraming.atom start bytes emits framer rest →
    findCrlf rest = some stop →
    (framer.phase = .bodyChunked → framer.chunkRemaining = 0 → stop ≤ 255) ∧
    (framer.phase = .bodyChunkedTrailers → stop ≤ 1023)

theorem shortLines_of_length_le {start : HttpFraming} {bytes : Bytes}
    (h : bytes.length ≤ 255) : ShortLines start bytes := by
  intro emits framer rest stop hreads hstop
  have hlength := hreads.length_le
  have hbound := findCrlf_bound hstop
  omega

theorem errs_append {start : HttpFraming} {arrived later : Bytes}
    (hshort : ShortLines start (arrived ++ later)) (h : Errs start arrived) :
    Errs start (arrived ++ later) := by
  obtain ⟨emits, framer, rest, hreads, hstuck⟩ := h
  have hreads' := hreads.append atom_stable later
  refine ⟨emits, framer, rest ++ later, hreads', ?_⟩
  rcases hstuck with ⟨error, hfail⟩ | ⟨hcrlf, hcap⟩
  · exact .inl ((atom_stable framer).fail_append hfail later)
  · right
    cases hlater : findCrlf (rest ++ later) with
    | none =>
        refine ⟨hlater, ?_⟩
        rw [List.length_append]
        rcases hcap with ⟨hphase, hleft, hlong⟩ | ⟨hphase, hlong⟩
        · exact .inl ⟨hphase, hleft, Nat.lt_add_right _ hlong⟩
        · exact .inr ⟨hphase, Nat.lt_add_right _ hlong⟩
    | some stop =>
        have hfar : rest.length < stop + 2 :=
          findSubslice_append_of_none hcrlf hlater
        obtain ⟨hchunk, htrailer⟩ := hshort _ _ _ _ hreads' hlater
        simp only [maxChunkLine, maxTrailerLine] at hcap
        rcases hcap with ⟨hphase, hleft, hlong⟩ | ⟨hphase, hlong⟩
        · have := hchunk hphase hleft
          omega
        · have := htrailer hphase
          omega

theorem Stream.Settled.not_take {stream : Stream} (h : stream.Settled)
    (size : Nat) (next : HttpFraming) (emit : Piece) :
    stream.framer.atom stream.pending ≠ .take size next emit := by
  rw [h.more]
  intro htake
  cases htake

theorem not_errs_of_settled {start : HttpFraming} {bytes : Bytes}
    {stream : Stream} (hafter : stream.After start bytes)
    (hsettled : stream.Settled) : ¬ Errs start bytes := by
  rintro ⟨emits, framer, rest, hreads, hstuck⟩
  obtain ⟨emits', hreads', _, _⟩ := hafter.reads
  have hend : ∀ size next emit, framer.atom rest ≠ .take size next emit := by
    intro size next emit htake
    rcases hstuck with ⟨error, hfail⟩ | ⟨hcrlf, hcap⟩
    · rw [hfail] at htake
      cases htake
    · rw [atom_of_overCap ⟨hcrlf, hcap⟩] at htake
      cases htake
  obtain ⟨_, rfl, rfl⟩ := hreads.unique hend hreads' hsettled.not_take
  rcases hstuck with ⟨error, hfail⟩ | hover
  · rw [hsettled.more] at hfail
    cases hfail
  · exact hsettled.cap hover

theorem run_errs_of_errs {kind : Kind} {rewrite : RewritePolicy}
    {chunks chunks' : List Bytes} {error : FramingError}
    (hshort : ShortLines (HttpFraming.new kind rewrite) chunks.flatten)
    (hcut : chunks.flatten = chunks'.flatten)
    (hrun : (Stream.new kind rewrite).run chunks = .error error) :
    ∃ error', (Stream.new kind rewrite).run chunks' = .error error' := by
  obtain ⟨arrived, later, harrived, herrs⟩ :=
    run_error (after_new kind rewrite) hrun
  rw [List.nil_append] at harrived
  rw [harrived] at hshort
  have hall := errs_append hshort herrs
  cases hrun' : (Stream.new kind rewrite).run chunks' with
  | error error' => exact ⟨error', rfl⟩
  | ok stream =>
      obtain ⟨hafter, hsettled⟩ :=
        run_ok (after_new kind rewrite) (settled_new kind rewrite) hrun'
      rw [List.nil_append, ← hcut, harrived] at hafter
      exact absurd hall (not_errs_of_settled hafter hsettled)

/-- The framer's output is a function of the stream: two runs over the same
bytes end alike, and with short lines they err alike. -/
theorem run_segmentation (kind : Kind) (rewrite : RewritePolicy)
    (chunks chunks' : List Bytes) (hcut : chunks.flatten = chunks'.flatten) :
    (∀ stream stream',
      (Stream.new kind rewrite).run chunks = .ok stream →
      (Stream.new kind rewrite).run chunks' = .ok stream' →
        stream.output = stream'.output ∧ stream.urls = stream'.urls ∧
        stream.consumed = stream'.consumed ∧
        stream.pending = stream'.pending ∧ stream.framer = stream'.framer) ∧
    (ShortLines (HttpFraming.new kind rewrite) chunks.flatten →
      ((∃ error, (Stream.new kind rewrite).run chunks = .error error) ↔
        ∃ error, (Stream.new kind rewrite).run chunks' = .error error)) := by
  constructor
  · intro stream stream' hrun hrun'
    obtain ⟨hafter, hsettled⟩ :=
      run_ok (after_new kind rewrite) (settled_new kind rewrite) hrun
    obtain ⟨hafter', hsettled'⟩ :=
      run_ok (after_new kind rewrite) (settled_new kind rewrite) hrun'
    rw [← hcut] at hafter'
    obtain ⟨emits, hreads, hbytes, hurls⟩ := hafter.reads
    obtain ⟨emits', hreads', hbytes', hurls'⟩ := hafter'.reads
    obtain ⟨rfl, hframer, hpending⟩ :=
      hreads.unique hsettled.not_take hreads' hsettled'.not_take
    have hconsumed := hafter.consumed
    have hconsumed' := hafter'.consumed
    rw [hpending] at hconsumed
    refine ⟨?_, ?_, ?_, hpending, hframer⟩
    · rw [← hbytes, hbytes']
    · rw [← hurls, hurls']
    · omega
  · intro hshort
    constructor
    · rintro ⟨error, hrun⟩
      exact run_errs_of_errs hshort hcut hrun
    · rintro ⟨error, hrun⟩
      exact run_errs_of_errs (hcut ▸ hshort) hcut.symm hrun

def plainPolicy : RewritePolicy := ⟨none, none, none⟩

def chunkedResponse : Bytes :=
  ascii "HTTP/1.1 200 OK\r\nTransfer-Encoding: chunked\r\n\r\n" ++
    ascii "3\r\nabc\r\n0\r\n\r\nHTTP/1"

/-- One cut inside the header terminator and one between a chunk and its
CRLF, against no cut at all. -/
theorem run_segmentation_chunkedResponse :
    ((Stream.new .response plainPolicy).run
      [chunkedResponse.take 46, (chunkedResponse.drop 46).take 7,
        chunkedResponse.drop 53]).map Stream.consumed = .ok 60 ∧
    ((Stream.new .response plainPolicy).run [chunkedResponse]).map
      Stream.pending = .ok (ascii "HTTP/1") ∧
    ((∀ stream stream',
      (Stream.new .response plainPolicy).run
        [chunkedResponse.take 46, (chunkedResponse.drop 46).take 7,
          chunkedResponse.drop 53] = .ok stream →
      (Stream.new .response plainPolicy).run [chunkedResponse] = .ok stream' →
        stream.output = stream'.output ∧ stream.urls = stream'.urls ∧
        stream.consumed = stream'.consumed ∧
        stream.pending = stream'.pending ∧ stream.framer = stream'.framer) ∧
    ((∃ error, (Stream.new .response plainPolicy).run
        [chunkedResponse.take 46, (chunkedResponse.drop 46).take 7,
          chunkedResponse.drop 53] = .error error) ↔
      ∃ error, (Stream.new .response plainPolicy).run [chunkedResponse] =
        .error error)) := by
  have hsame := run_segmentation .response plainPolicy
    [chunkedResponse.take 46, (chunkedResponse.drop 46).take 7,
      chunkedResponse.drop 53] [chunkedResponse] (by decide)
  refine ⟨by decide, by decide, hsame.1, hsame.2 ?_⟩
  exact shortLines_of_length_le (by decide)

end Netflector.Net.Http
