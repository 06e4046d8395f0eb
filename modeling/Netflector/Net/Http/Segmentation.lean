import Netflector.Foundation.Incremental
import Netflector.Foundation.Result
import Netflector.Net.Http.Framing

/-!
# Framing does not depend on segmentation

The framer is compared with a reader that takes one header block, one line or
one body octet at a time and has no cap on unterminated lines.  That reader is
prefix-stable, and every feed is a run of it; so the framer's output is a
function of the stream, however the stream was cut.
-/

namespace Netflector.Net.Http

open Netflector.Foundation

/-! ## The reader -/

structure Piece where
  bytes : Bytes
  url : Option SocketAddrV4
  deriving DecidableEq

def HttpFraming.takeOctet (next : HttpFraming) :
    Bytes → Atom HttpFraming Piece FramingError
  | [] => .more
  | octet :: _ => .take 1 next ⟨[octet], none⟩

def HttpFraming.takeHeader (framer : HttpFraming) (rest : Bytes) :
    Atom HttpFraming Piece FramingError :=
  let block := rest.drop (skipCrlfs rest)
  match findHeaderEnd block with
  | none => if block.length > maxHeader then .fail .headerTooLong else .more
  | some stop =>
      if stop > maxHeader then .fail .headerTooLong
      else
        match framer.scanAndRewriteHeader (block.take stop) with
        | .error error => .fail error
        | .ok (framer, header, url) =>
            .take (skipCrlfs rest + stop) framer ⟨header, url⟩

def HttpFraming.takeSizeLine (framer : HttpFraming) (rest : Bytes) :
    Atom HttpFraming Piece FramingError :=
  match findCrlf rest with
  | none => .more
  | some stop =>
      match parseChunkSize (rest.take stop) with
      | .error error => .fail error
      | .ok size =>
          let line : Piece := ⟨rest.take (stop + crlf.length), none⟩
          if size = 0 then
            .take (stop + crlf.length)
              { framer with phase := .bodyChunkedTrailers } line
          else if size + crlf.length ≥ usizeLimit then .fail .chunkSizeTooLarge
          else
            .take (stop + crlf.length)
              { framer with chunkRemaining := size + crlf.length } line

def HttpFraming.takeTrailer (framer : HttpFraming) (rest : Bytes) :
    Atom HttpFraming Piece FramingError :=
  match findCrlf rest with
  | none => .more
  | some stop =>
      .take (stop + crlf.length)
        { framer with phase := if stop = 0 then .header else framer.phase }
        ⟨rest.take (stop + crlf.length), none⟩

def HttpFraming.atom (framer : HttpFraming) (rest : Bytes) :
    Atom HttpFraming Piece FramingError :=
  match framer.phase with
  | .header => framer.takeHeader rest
  | .bodyContentLength =>
      { framer with
        bodyRemaining := framer.bodyRemaining - 1
        phase := if framer.bodyRemaining - 1 = 0 then .header
          else framer.phase }.takeOctet rest
  | .bodyCloseDelimited => framer.takeOctet rest
  | .bodyChunked =>
      if 0 < framer.chunkRemaining then
        { framer with
          chunkRemaining := framer.chunkRemaining - 1 }.takeOctet rest
      else framer.takeSizeLine rest
  | .bodyChunkedTrailers => framer.takeTrailer rest

/-! ## Stability -/

theorem crlf_length : crlf.length = 2 := rfl

theorem findHeaderEnd_bound {block : Bytes} {stop : Nat}
    (h : findHeaderEnd block = some stop) : 4 ≤ stop ∧ stop ≤ block.length := by
  obtain ⟨position, hposition, rfl⟩ := Option.map_eq_some_iff.mp h
  have hbound := findSubslice_bound hposition
  have hfour : headerTerminator.length = 4 := rfl
  omega

theorem findHeaderEnd_append {block : Bytes} {stop : Nat}
    (h : findHeaderEnd block = some stop) (later : Bytes) :
    findHeaderEnd (block ++ later) = some stop := by
  obtain ⟨position, hposition, rfl⟩ := Option.map_eq_some_iff.mp h
  simp [findHeaderEnd, findSubslice_append hposition]

theorem findHeaderEnd_append_of_none {block later : Bytes} {stop : Nat}
    (hnone : findHeaderEnd block = none)
    (h : findHeaderEnd (block ++ later) = some stop) :
    block.length < stop := by
  obtain ⟨position, hposition, rfl⟩ := Option.map_eq_some_iff.mp h
  exact findSubslice_append_of_none (Option.map_eq_none_iff.mp hnone) hposition

theorem skipCrlfs_le (rest : Bytes) : skipCrlfs rest ≤ rest.length := by
  induction rest using skipCrlfs.induct with
  | case1 first second rest hcrlf ih =>
      simp only [skipCrlfs, if_pos hcrlf, crlf_length, List.length_cons]
      omega
  | case2 first second rest hcrlf => simp [skipCrlfs, hcrlf]
  | case3 rest hshort =>
      rw [skipCrlfs.eq_2 rest hshort]
      exact Nat.zero_le _

theorem skipCrlfs_append {rest : Bytes} (later : Bytes)
    (h : 2 ≤ (rest.drop (skipCrlfs rest)).length) :
    skipCrlfs (rest ++ later) = skipCrlfs rest := by
  induction rest using skipCrlfs.induct with
  | case1 first second rest hcrlf ih =>
      simp only [skipCrlfs, if_pos hcrlf, crlf_length, List.cons_append] at h ⊢
      rw [ih]
      simpa [Nat.add_comm 2] using h
  | case2 first second rest hcrlf => simp [skipCrlfs, hcrlf]
  | case3 rest hshort =>
      rw [skipCrlfs.eq_2 rest hshort, List.drop_zero] at h
      match rest, h with
      | first :: second :: rest, _ => exact absurd rfl (hshort first second rest)

theorem takeOctet_stable (next : HttpFraming) :
    StableAt next.takeOctet := by
  constructor
  · intro rest size next' emit h
    cases rest with
    | nil => cases h
    | cons octet rest =>
        cases h
        decide
  · intro rest size next' emit h
    cases rest with
    | nil => cases h
    | cons octet rest =>
        cases h
        simp
  · intro rest size next' emit h later
    cases rest with
    | nil => cases h
    | cons octet rest => exact h
  · intro rest error h
    cases rest with
    | nil => cases h
    | cons octet rest => cases h

theorem drop_skipCrlfs_append {rest : Bytes} (later : Bytes)
    (h : 2 ≤ (rest.drop (skipCrlfs rest)).length) :
    (rest ++ later).drop (skipCrlfs (rest ++ later)) =
      rest.drop (skipCrlfs rest) ++ later := by
  rw [skipCrlfs_append later h,
    List.drop_append_of_le_length (skipCrlfs_le rest)]

theorem takeHeader_stable (framer : HttpFraming) :
    StableAt framer.takeHeader := by
  constructor
  · intro rest size next emit h
    simp only [HttpFraming.takeHeader] at h
    split at h
    · split at h <;> cases h
    · rename_i stop hstop
      split at h
      · cases h
      split at h
      · cases h
      · cases h
        have := findHeaderEnd_bound hstop
        omega
  · intro rest size next emit h
    simp only [HttpFraming.takeHeader] at h
    split at h
    · split at h <;> cases h
    · rename_i stop hstop
      split at h
      · cases h
      split at h
      · cases h
      · cases h
        have hbound := findHeaderEnd_bound hstop
        have hskip := skipCrlfs_le rest
        rw [List.length_drop] at hbound
        omega
  · intro rest size next emit h later
    simp only [HttpFraming.takeHeader] at h ⊢
    split at h
    · split at h <;> cases h
    · rename_i stop hstop
      have hbound := findHeaderEnd_bound hstop
      rw [drop_skipCrlfs_append later (by omega),
        skipCrlfs_append later (by omega)]
      simp only [findHeaderEnd_append hstop later,
        List.take_append_of_le_length hbound.2]
      exact h
  · intro rest error h later
    simp only [HttpFraming.takeHeader] at h ⊢
    split at h
    · rename_i hnone
      split at h
      · rename_i hlong
        have htwo : 2 ≤ (rest.drop (skipCrlfs rest)).length := by
          simp only [maxHeader] at hlong
          omega
        rw [drop_skipCrlfs_append later htwo]
        refine ⟨.headerTooLong, ?_⟩
        split
        · rw [if_pos]
          rw [List.length_append]
          omega
        · rename_i stop hstop
          have := findHeaderEnd_append_of_none hnone hstop
          rw [if_pos (by omega)]
      · cases h
    · rename_i stop hstop
      have hbound := findHeaderEnd_bound hstop
      rw [drop_skipCrlfs_append later (by omega)]
      simp only [findHeaderEnd_append hstop later,
        List.take_append_of_le_length hbound.2]
      split at h
      · rename_i hlong
        exact ⟨error, by rw [if_pos hlong]; exact h⟩
      · rename_i hfits
        rw [if_neg hfits]
        split at h
        · rename_i hscan
          exact ⟨error, by simpa [hscan] using h⟩
        · cases h

theorem findCrlf_bound {rest : Bytes} {stop : Nat}
    (h : findCrlf rest = some stop) : stop + 2 ≤ rest.length :=
  findSubslice_bound h

theorem takeSizeLine_stable (framer : HttpFraming) :
    StableAt framer.takeSizeLine := by
  constructor
  · intro rest size next emit h
    simp only [HttpFraming.takeSizeLine] at h
    split at h
    · cases h
    split at h
    · cases h
    split at h
    · cases h
      simp [crlf_length]
    · split at h
      · cases h
      · cases h
        simp [crlf_length]
  · intro rest size next emit h
    simp only [HttpFraming.takeSizeLine] at h
    split at h
    · cases h
    rename_i stop hstop
    have hbound := findCrlf_bound hstop
    split at h
    · cases h
    split at h
    · cases h
      simpa [crlf_length] using hbound
    · split at h
      · cases h
      · cases h
        simpa [crlf_length] using hbound
  · intro rest size next emit h later
    simp only [HttpFraming.takeSizeLine] at h ⊢
    split at h
    · cases h
    · rename_i stop hstop
      have hbound := findCrlf_bound hstop
      have hlater : findCrlf (rest ++ later) = some stop :=
        findSubslice_append hstop later
      simp only [hlater, crlf_length] at h ⊢
      rw [List.take_append_of_le_length (by omega),
        List.take_append_of_le_length (by omega)]
      exact h
  · intro rest error h later
    simp only [HttpFraming.takeSizeLine] at h ⊢
    split at h
    · cases h
    · rename_i stop hstop
      have hbound := findCrlf_bound hstop
      have hlater : findCrlf (rest ++ later) = some stop :=
        findSubslice_append hstop later
      refine ⟨error, ?_⟩
      simp only [hlater, crlf_length] at h ⊢
      rw [List.take_append_of_le_length (by omega),
        List.take_append_of_le_length (by omega)]
      exact h

theorem takeTrailer_stable (framer : HttpFraming) :
    StableAt framer.takeTrailer := by
  constructor
  · intro rest size next emit h
    simp only [HttpFraming.takeTrailer] at h
    split at h
    · cases h
    · cases h
      simp [crlf_length]
  · intro rest size next emit h
    simp only [HttpFraming.takeTrailer] at h
    split at h
    · cases h
    · rename_i stop hstop
      cases h
      simpa [crlf_length] using findCrlf_bound hstop
  · intro rest size next emit h later
    simp only [HttpFraming.takeTrailer] at h ⊢
    split at h
    · cases h
    · rename_i stop hstop
      have hbound := findCrlf_bound hstop
      have hlater : findCrlf (rest ++ later) = some stop :=
        findSubslice_append hstop later
      simp only [hlater, crlf_length] at h ⊢
      rw [List.take_append_of_le_length (by omega)]
      exact h
  · intro rest error h later
    simp only [HttpFraming.takeTrailer] at h
    split at h <;> cases h

theorem atom_stable : PrefixStable HttpFraming.atom := by
  intro framer
  cases hphase : framer.phase with
  | header =>
      rw [show framer.atom = framer.takeHeader by
        funext rest; simp [HttpFraming.atom, hphase]]
      exact takeHeader_stable framer
  | bodyContentLength =>
      rw [show framer.atom = HttpFraming.takeOctet { framer with
          bodyRemaining := framer.bodyRemaining - 1
          phase := if framer.bodyRemaining - 1 = 0 then .header
            else framer.phase } by
        funext rest; simp [HttpFraming.atom, hphase]]
      exact takeOctet_stable _
  | bodyCloseDelimited =>
      rw [show framer.atom = framer.takeOctet by
        funext rest; simp [HttpFraming.atom, hphase]]
      exact takeOctet_stable framer
  | bodyChunked =>
      by_cases hleft : 0 < framer.chunkRemaining
      · rw [show framer.atom = HttpFraming.takeOctet { framer with
            chunkRemaining := framer.chunkRemaining - 1 } by
          funext rest; simp [HttpFraming.atom, hphase, hleft]]
        exact takeOctet_stable _
      · rw [show framer.atom = framer.takeSizeLine by
          funext rest; simp [HttpFraming.atom, hphase, hleft]]
        exact takeSizeLine_stable framer
  | bodyChunkedTrailers =>
      rw [show framer.atom = framer.takeTrailer by
        funext rest; simp [HttpFraming.atom, hphase]]
      exact takeTrailer_stable framer

/-! ## The body loop is a run of the reader -/

structure Took (framer : HttpFraming) (rest : Bytes) (taken : Nat)
    (framer' : HttpFraming) : Prop where
  le : taken ≤ rest.length
  reads : ∃ emits,
    Reads HttpFraming.atom framer rest emits framer' (rest.drop taken) ∧
      emits.flatMap Piece.bytes = rest.take taken ∧
      emits.filterMap Piece.url = []

theorem Took.zero (framer : HttpFraming) (rest : Bytes) :
    Took framer rest 0 framer :=
  ⟨Nat.zero_le _, [], .refl, rfl, rfl⟩

theorem Took.single {framer : HttpFraming} (next : HttpFraming) {rest : Bytes}
    {size : Nat}
    (htake : framer.atom rest = .take size next ⟨rest.take size, none⟩) :
    Took framer rest size next := by
  constructor
  · exact (atom_stable framer).size_le htake
  · exact ⟨_, .single htake, by simp, rfl⟩

theorem Took.trans {framer next framer' : HttpFraming} {rest : Bytes}
    {size taken : Nat} (hfirst : Took framer rest size next)
    (hrest : Took next (rest.drop size) taken framer') :
    Took framer rest (size + taken) framer' := by
  have hle := hrest.le
  have hsize := hfirst.le
  obtain ⟨emits, hreads, hbytes, hurls⟩ := hfirst.reads
  obtain ⟨emits', hreads', hbytes', hurls'⟩ := hrest.reads
  rw [List.length_drop] at hle
  rw [List.drop_drop] at hreads'
  constructor
  · omega
  · refine ⟨emits ++ emits', hreads.trans hreads', ?_, ?_⟩
    · rw [List.flatMap_append, hbytes, hbytes', ← List.take_add]
    · rw [List.filterMap_append, hurls, hurls', List.append_nil]

theorem took_closeDelimited {framer : HttpFraming}
    (hphase : framer.phase = .bodyCloseDelimited) (rest : Bytes) :
    Took framer rest rest.length framer := by
  induction rest with
  | nil => exact .zero framer []
  | cons octet rest ih =>
      rw [List.length_cons, Nat.add_comm]
      apply Took.trans _ ih
      apply Took.single framer
      simp [HttpFraming.atom, hphase, HttpFraming.takeOctet]

theorem took_chunkData {framer : HttpFraming} {rest : Bytes} {count : Nat}
    (hphase : framer.phase = .bodyChunked)
    (hleft : count ≤ framer.chunkRemaining) (hcount : count ≤ rest.length) :
    Took framer rest count
      { framer with chunkRemaining := framer.chunkRemaining - count } := by
  induction count generalizing framer rest with
  | zero => exact .zero framer rest
  | succ count ih =>
      obtain ⟨octet, rest, rfl⟩ :=
        List.exists_cons_of_length_pos (by omega : 0 < rest.length)
      let next : HttpFraming :=
        { framer with chunkRemaining := framer.chunkRemaining - 1 }
      have hfirst : Took framer (octet :: rest) 1 next := by
        apply Took.single next
        simp [HttpFraming.atom, hphase, HttpFraming.takeOctet, next,
          show 0 < framer.chunkRemaining by omega]
      have hrest : Took next rest count
          { next with chunkRemaining := next.chunkRemaining - count } := by
        apply ih (show next.phase = .bodyChunked from hphase)
        · simp only [next]
          omega
        · simpa using hcount
      rw [Nat.add_comm count 1]
      simpa [next, Nat.sub_sub] using hfirst.trans hrest

theorem took_contentLength {framer : HttpFraming} {rest : Bytes} {count : Nat}
    (hphase : framer.phase = .bodyContentLength)
    (hleft : count + 1 ≤ framer.bodyRemaining)
    (hcount : count + 1 ≤ rest.length) :
    Took framer rest (count + 1) { framer with
      bodyRemaining := framer.bodyRemaining - (count + 1)
      phase := if framer.bodyRemaining - (count + 1) = 0 then .header
        else framer.phase } := by
  induction count generalizing framer rest with
  | zero =>
      obtain ⟨octet, rest, rfl⟩ :=
        List.exists_cons_of_length_pos (by omega : 0 < rest.length)
      apply Took.single
      simp [HttpFraming.atom, hphase, HttpFraming.takeOctet]
  | succ count ih =>
      obtain ⟨octet, rest, rfl⟩ :=
        List.exists_cons_of_length_pos (by omega : 0 < rest.length)
      have hmore : framer.bodyRemaining - 1 ≠ 0 := by omega
      let next : HttpFraming :=
        { framer with bodyRemaining := framer.bodyRemaining - 1 }
      have hfirst : Took framer (octet :: rest) 1 next := by
        apply Took.single next
        simp [HttpFraming.atom, hphase, HttpFraming.takeOctet, next, hmore]
      have hrest := ih (show next.phase = .bodyContentLength from hphase)
        (show count + 1 ≤ next.bodyRemaining by simp only [next]; omega)
        (show count + 1 ≤ rest.length by simpa using hcount)
      rw [Nat.add_comm (count + 1) 1]
      simpa [next, Nat.sub_sub] using hfirst.trans hrest

def HttpFraming.WellFormed (framer : HttpFraming) : Prop :=
  framer.phase = .bodyContentLength → 0 < framer.bodyRemaining

/-- An unterminated line that the framer gives up on and the reader does
not. -/
def HttpFraming.OverCap (framer : HttpFraming) (rest : Bytes) : Prop :=
  findCrlf rest = none ∧
    ((framer.phase = .bodyChunked ∧ framer.chunkRemaining = 0 ∧
        maxChunkLine < rest.length) ∨
      (framer.phase = .bodyChunkedTrailers ∧ maxTrailerLine < rest.length))

def HttpFraming.Stuck (framer : HttpFraming) (rest : Bytes) : Prop :=
  (∃ error, framer.atom rest = .fail error) ∨ framer.OverCap rest

theorem atom_of_overCap {framer : HttpFraming} {rest : Bytes}
    (h : framer.OverCap rest) : framer.atom rest = .more := by
  obtain ⟨hcrlf, ⟨hphase, hleft, _⟩ | ⟨hphase, _⟩⟩ := h
  · simp [HttpFraming.atom, hphase, hleft, HttpFraming.takeSizeLine, hcrlf]
  · simp [HttpFraming.atom, hphase, HttpFraming.takeTrailer, hcrlf]

def HttpFraming.BodySpec (framer : HttpFraming) (rest : Bytes) :
    Except FramingError (HttpFraming × Nat) → Prop
  | .ok (framer', taken) =>
      Took framer rest taken framer' ∧ framer'.WellFormed
  | .error _ =>
      ∃ taken framer', Took framer rest taken framer' ∧
        framer'.Stuck (rest.drop taken)

theorem bodySpec_stuck {framer : HttpFraming} {rest : Bytes}
    (h : framer.Stuck rest) (error : FramingError) :
    framer.BodySpec rest (.error error) :=
  ⟨0, framer, .zero framer rest, h⟩

theorem bodySpec_bind {framer next : HttpFraming} {rest : Bytes} {size : Nat}
    {result : Except FramingError (HttpFraming × Nat)}
    (hfirst : Took framer rest size next)
    (hrest : next.BodySpec (rest.drop size) result) :
    framer.BodySpec rest (do
      let (framer, more) ← result
      .ok (framer, size + more)) := by
  cases result with
  | ok result =>
      constructor
      · exact hfirst.trans hrest.1
      · exact hrest.2
  | error error =>
      obtain ⟨taken, framer', htook, hstuck⟩ := hrest
      rw [List.drop_drop] at hstuck
      exact ⟨size + taken, framer', hfirst.trans htook, hstuck⟩

theorem takeBody_spec (rounds : Nat) {framer : HttpFraming} (rest : Bytes)
    (hwell : framer.WellFormed) :
    framer.BodySpec rest (HttpFraming.takeBody rounds framer rest) := by
  induction rounds generalizing framer rest with
  | zero => exact ⟨.zero _ _, hwell⟩
  | succ rounds ih =>
      simp only [HttpFraming.takeBody]
      split
      · exact ⟨.zero _ _, hwell⟩
      rename_i hrest
      have hlong : 0 < rest.length := List.length_pos_iff.mpr hrest
      split
      · exact ⟨.zero _ _, hwell⟩
      · rename_i hphase
        have hleft := hwell hphase
        obtain ⟨count, hcount⟩ : ∃ count,
            min framer.bodyRemaining rest.length = count + 1 :=
          ⟨min framer.bodyRemaining rest.length - 1, by omega⟩
        rw [hcount]
        refine ⟨took_contentLength hphase (by omega) (by omega), ?_⟩
        intro hstill
        simp only at hstill ⊢
        split at hstill
        · cases hstill
        · omega
      · rename_i hphase
        exact ⟨took_closeDelimited hphase rest, hwell⟩
      · rename_i hphase
        have hnot : ∀ framer' : HttpFraming,
            framer'.phase = .bodyChunked → framer'.WellFormed := by
          intro framer' hphase' hlength
          rw [hphase'] at hlength
          cases hlength
        split
        · rename_i hleft
          have hdata := took_chunkData hphase
            (Nat.min_le_left framer.chunkRemaining rest.length)
            (Nat.min_le_right _ _)
          split
          · exact ⟨hdata, hnot _ hphase⟩
          · exact bodySpec_bind hdata (ih _ (hnot _ hphase))
        · rename_i hnone
          have hatom : framer.atom rest = framer.takeSizeLine rest := by
            simp [HttpFraming.atom, hphase, hnone]
          split
          · rename_i hcrlf
            split
            · rename_i hlong
              apply bodySpec_stuck
              exact .inr ⟨hcrlf, .inl ⟨hphase, by omega, hlong⟩⟩
            · exact ⟨.zero _ _, hwell⟩
          · rename_i stop hstop
            simp only [HttpFraming.takeSizeLine, hstop] at hatom
            cases hsize : parseChunkSize (rest.take stop) with
            | error error =>
                apply bodySpec_stuck
                exact .inl ⟨error, by rw [hatom, hsize]⟩
            | ok size =>
                simp only [hsize] at hatom
                simp only [bind, Except.bind]
                split
                · rename_i hzero
                  rw [if_pos hzero] at hatom
                  apply bodySpec_bind (.single _ hatom)
                  apply ih
                  intro hlength
                  cases hlength
                · rename_i hdata
                  rw [if_neg hdata] at hatom
                  split
                  · rename_i hlarge
                    rw [if_pos hlarge] at hatom
                    apply bodySpec_stuck
                    exact .inl ⟨_, hatom⟩
                  · rename_i hfits
                    rw [if_neg hfits] at hatom
                    exact bodySpec_bind (.single _ hatom) (ih _ (hnot _ hphase))
      · rename_i hphase
        have hatom : framer.atom rest = framer.takeTrailer rest := by
          simp [HttpFraming.atom, hphase]
        split
        · rename_i hcrlf
          split
          · rename_i hlong
            apply bodySpec_stuck
            exact .inr ⟨hcrlf, .inr ⟨hphase, hlong⟩⟩
          · exact ⟨.zero _ _, hwell⟩
        · rename_i stop hstop
          simp only [HttpFraming.takeTrailer, hstop] at hatom
          apply bodySpec_bind (.single _ hatom)
          apply ih
          intro hlength
          simp only at hlength
          split at hlength
          · cases hlength
          · rw [hphase] at hlength
            cases hlength

theorem atom_nil (framer : HttpFraming) : framer.atom [] = .more := by
  cases hphase : framer.phase with
  | bodyChunked =>
      by_cases hleft : 0 < framer.chunkRemaining
      · simp [HttpFraming.atom, hphase, hleft, HttpFraming.takeOctet]
      · simp only [HttpFraming.atom, hphase, hleft]
        rfl
  | _ => simp only [HttpFraming.atom, hphase]; rfl

theorem not_overCap_nil (framer : HttpFraming) : ¬ framer.OverCap [] := by
  rintro ⟨_, ⟨_, _, hlong⟩ | ⟨_, hlong⟩⟩ <;> cases hlong

theorem takeBody_waits {rounds : Nat} {framer framer' : HttpFraming}
    {rest : Bytes}
    (h : HttpFraming.takeBody (rounds + 1) framer rest = .ok (framer', 0))
    (hbody : framer.phase ≠ .header) (hwell : framer.WellFormed) :
    framer' = framer ∧ framer.atom rest = .more ∧ ¬ framer.OverCap rest := by
  simp only [HttpFraming.takeBody] at h
  split at h
  · rename_i hrest
    cases h
    rw [hrest]
    exact ⟨rfl, atom_nil framer, not_overCap_nil framer⟩
  rename_i hrest
  have hlong : 0 < rest.length := List.length_pos_iff.mpr hrest
  split at h
  · rename_i hphase
    exact absurd hphase hbody
  · rename_i hphase
    have hleft := hwell hphase
    simp only [Except.ok.injEq, Prod.mk.injEq] at h
    omega
  · simp only [Except.ok.injEq, Prod.mk.injEq] at h
    omega
  · rename_i hphase
    split at h
    · rename_i hleft
      split at h
      · simp only [Except.ok.injEq, Prod.mk.injEq] at h
        omega
      · obtain ⟨⟨_, more⟩, _, hmore⟩ := except_bind_ok h
        simp only [Except.ok.injEq, Prod.mk.injEq] at hmore
        omega
    · rename_i hnone
      split at h
      · rename_i hcrlf
        split at h
        · cases h
        · rename_i hshort
          cases h
          refine ⟨rfl, ?_, ?_⟩
          · simp [HttpFraming.atom, hphase, hnone, HttpFraming.takeSizeLine,
              hcrlf]
          · rintro ⟨_, ⟨_, _, hover⟩ | ⟨htrailers, _⟩⟩
            · exact hshort hover
            · rw [hphase] at htrailers
              cases htrailers
      · obtain ⟨size, _, h⟩ := except_bind_ok h
        split at h
        · obtain ⟨⟨_, more⟩, _, hmore⟩ := except_bind_ok h
          simp only [crlf_length, Except.ok.injEq, Prod.mk.injEq] at hmore
          omega
        · split at h
          · cases h
          · obtain ⟨⟨_, more⟩, _, hmore⟩ := except_bind_ok h
            simp only [crlf_length, Except.ok.injEq, Prod.mk.injEq] at hmore
            omega
  · rename_i hphase
    split at h
    · rename_i hcrlf
      split at h
      · cases h
      · rename_i hshort
        cases h
        refine ⟨rfl, ?_, ?_⟩
        · simp [HttpFraming.atom, hphase, HttpFraming.takeTrailer, hcrlf]
        · rintro ⟨_, ⟨hchunked, _⟩ | ⟨_, hover⟩⟩
          · rw [hphase] at hchunked
            cases hchunked
          · exact hshort hover
    · obtain ⟨⟨_, more⟩, _, hmore⟩ := except_bind_ok h
      simp only [crlf_length, Except.ok.injEq, Prod.mk.injEq] at hmore
      omega

/-! ## A feed is a run of the reader -/

theorem setBodyPhase_wellFormed (framer : HttpFraming) (status : Nat)
    (contentLength : Option Nat) (chunked : Bool) :
    (framer.setBodyPhase status contentLength chunked).WellFormed := by
  intro hphase
  revert hphase
  simp only [HttpFraming.setBodyPhase]
  split
  · intro hphase
    cases hphase
  split
  · intro hphase
    cases hphase
  split
  · split
    · intro hphase
      cases hphase
    · intro _
      exact Nat.pos_of_ne_zero ‹_›
  · split <;> intro hphase <;> cases hphase

theorem scanAndRewriteHeader_wellFormed {framer framer' : HttpFraming}
    {block header : Bytes} {url : Option SocketAddrV4}
    (h : framer.scanAndRewriteHeader block = .ok (framer', header, url)) :
    framer'.WellFormed := by
  obtain ⟨scan, _, h⟩ := except_bind_ok h
  split at h
  · cases h
  · cases h
    apply setBodyPhase_wellFormed

def HttpFraming.FeedSpec (framer : HttpFraming) (input : Bytes) :
    Except FramingError (HttpFraming × Framed) → Prop
  | .ok (framer', framed) =>
      framer'.WellFormed ∧ framed.consumed ≤ input.length ∧
      (∃ emits,
        Reads HttpFraming.atom framer input emits framer'
          (input.drop framed.consumed) ∧
        emits.flatMap Piece.bytes = framed.header ++ framed.body ∧
        emits.filterMap Piece.url = framed.applicationUrl.toList) ∧
      (framed.consumed = 0 →
        framer' = framer ∧ framed.applicationUrl = none ∧
        framer.atom input = .more ∧ ¬ framer.OverCap input)
  | .error _ =>
      ∃ emits framer' rest,
        Reads HttpFraming.atom framer input emits framer' rest ∧
          framer'.Stuck rest

theorem feedSpec_body {framer : HttpFraming} {input : Bytes}
    (hbody : framer.phase ≠ .header) (hwell : framer.WellFormed) :
    framer.FeedSpec input (framer.feed input) := by
  have hspec := takeBody_spec (input.length + 1) input hwell
  rw [HttpFraming.feed, if_neg hbody]
  cases hresult : HttpFraming.takeBody (input.length + 1) framer input with
  | error error =>
      rw [hresult] at hspec
      obtain ⟨taken, framer', htook, hstuck⟩ := hspec
      obtain ⟨emits, hreads, _, _⟩ := htook.reads
      exact ⟨emits, framer', _, hreads, hstuck⟩
  | ok result =>
      rw [hresult] at hspec
      obtain ⟨framer', taken⟩ := result
      obtain ⟨emits, hreads, hbytes, hurls⟩ := hspec.1.reads
      refine ⟨hspec.2, hspec.1.le, ⟨emits, hreads, hbytes, hurls⟩, ?_⟩
      intro hnone
      cases hnone
      obtain ⟨hframer, hmore, hcap⟩ := takeBody_waits hresult hbody hwell
      exact ⟨hframer, rfl, hmore, hcap⟩

theorem not_overCap_header {framer : HttpFraming} (rest : Bytes)
    (hphase : framer.phase = .header) : ¬ framer.OverCap rest := by
  rintro ⟨_, ⟨hchunked, _⟩ | ⟨htrailers, _⟩⟩
  · rw [hphase] at hchunked
    cases hchunked
  · rw [hphase] at htrailers
    cases htrailers

theorem feedSpec_scanned {framer next : HttpFraming} {input header : Bytes}
    {stop : Nat} {url : Option SocketAddrV4}
    (hend : findHeaderEnd (input.drop (skipCrlfs input)) = some stop)
    (hscan : framer.scanAndRewriteHeader
      ((input.drop (skipCrlfs input)).take stop) = .ok (next, header, url))
    (hatom : framer.atom input =
      .take (skipCrlfs input + stop) next ⟨header, url⟩) :
    let tail := (input.drop (skipCrlfs input)).drop stop
    framer.FeedSpec input (do
      let (framer, taken) ← HttpFraming.takeBody (tail.length + 1) next tail
      .ok (framer, ⟨header, tail.take taken,
        skipCrlfs input + stop + taken, url⟩)) := by
  intro tail
  have hbody := takeBody_spec (tail.length + 1) tail
    (scanAndRewriteHeader_wellFormed hscan)
  have hfirst := Reads.single hatom
  rw [← List.drop_drop] at hfirst
  cases hresult : HttpFraming.takeBody (tail.length + 1) next tail with
  | error error =>
      rw [hresult] at hbody
      obtain ⟨taken, framer', htook, hstuck⟩ := hbody
      obtain ⟨emits, hreads, _, _⟩ := htook.reads
      exact ⟨_, framer', _, hfirst.trans hreads, hstuck⟩
  | ok result =>
      rw [hresult] at hbody
      obtain ⟨framer', taken⟩ := result
      obtain ⟨emits, hreads, hbytes, hurls⟩ := hbody.1.reads
      have hskip := skipCrlfs_le input
      have hbound := findHeaderEnd_bound hend
      have htaken := hbody.1.le
      simp only [tail, List.length_drop] at hbound htaken
      refine ⟨hbody.2, ?_, ⟨⟨header, url⟩ :: emits, ?_, ?_, ?_⟩, ?_⟩
      · show skipCrlfs input + stop + taken ≤ input.length
        omega
      · have hall := hfirst.trans hreads
        rw [List.drop_drop, List.drop_drop, ← Nat.add_assoc] at hall
        exact hall
      · simp only [List.flatMap_cons, hbytes]
      · cases url with
        | none => simpa using hurls
        | some endpoint => simp [hurls]
      · intro hnone
        simp only at hnone
        omega

theorem feedSpec_header {framer : HttpFraming} {input : Bytes}
    (hphase : framer.phase = .header) :
    framer.FeedSpec input (framer.feed input) := by
  have hatom : framer.atom input = framer.takeHeader input := by
    simp [HttpFraming.atom, hphase]
  rw [HttpFraming.takeHeader] at hatom
  rw [HttpFraming.feed, if_pos hphase]
  cases hend : findHeaderEnd (input.drop (skipCrlfs input)) with
  | none =>
      simp only [hend] at hatom ⊢
      split
      · rename_i hlong
        rw [if_pos hlong] at hatom
        exact ⟨[], framer, input, .refl, .inl ⟨_, hatom⟩⟩
      · rename_i hshort
        rw [if_neg hshort] at hatom
        refine ⟨?_, Nat.zero_le _, ⟨[], .refl, rfl, rfl⟩, ?_⟩
        · intro hlength
          rw [hphase] at hlength
          cases hlength
        · intro _
          exact ⟨rfl, rfl, hatom, not_overCap_header input hphase⟩
  | some stop =>
      simp only [hend] at hatom ⊢
      by_cases hlong : stop > maxHeader
      · rw [if_pos hlong] at hatom ⊢
        exact ⟨[], framer, input, .refl, .inl ⟨_, hatom⟩⟩
      rw [if_neg hlong] at hatom ⊢
      cases hscan : framer.scanAndRewriteHeader
          ((input.drop (skipCrlfs input)).take stop) with
      | error error =>
          simp only [hscan] at hatom
          exact ⟨[], framer, input, .refl, .inl ⟨_, hatom⟩⟩
      | ok scanned =>
          obtain ⟨next, header, url⟩ := scanned
          simp only [hscan] at hatom
          exact feedSpec_scanned hend hscan hatom

/-- Every feed is a run of the reader, it waits only where the reader does,
and it errs only where the reader fails or a line is over its cap. -/
theorem feed_spec {framer : HttpFraming} (hwell : framer.WellFormed)
    (input : Bytes) : framer.FeedSpec input (framer.feed input) := by
  by_cases hphase : framer.phase = .header
  · exact feedSpec_header hphase
  · exact feedSpec_body hphase hwell

end Netflector.Net.Http
