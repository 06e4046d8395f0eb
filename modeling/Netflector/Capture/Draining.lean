import Netflector.Capture.Batch

/-!
# Draining a batch

The records of a batch are those of a record format whose length is split
over two fields.  Every batch drains before the next read, whatever it holds;
one made of records yields them one for one, up to a last one too short for
the struct the header is read as.
-/

namespace Netflector.Capture

open Netflector.Foundation
open Netflector.Net

def BpfHeader.format (header : BpfHeader) : Format where
  headerLen := header.size
  fields := header.hdrlenAt + 2
  least := 1
  unit := header.unit
  lengthOf := fun bytes =>
    header.endian.read16 bytes header.hdrlenAt +
      header.endian.read32 bytes header.caplenAt
  least_pos := Nat.one_pos
  unit_pos := header.unit_pos
  lengthOf_append := by
    intro record more h
    have hcaplen := header.caplen_le
    rw [header.endian.read16_append h more,
      header.endian.read32_append (by omega) more]

/-- What a record yields: its captured octets, unless the kernel cut it short
or it exceeds what is forwarded. -/
def BpfHeader.readOf (header : BpfHeader) (record : Bytes) : Read :=
  let caplen := header.endian.read32 record header.caplenAt
  if header.endian.read32 record header.datalenAt > caplen ∨
      caplen > maxFrameLen then .oversized
  else .frame ((record.take (header.format.lengthOf record)).drop
    (header.endian.read16 record header.hdrlenAt))

variable {header : BpfHeader} {wordAlign : Nat → Nat} {batch : Batch}

def Batch.rest (batch : Batch) : Bytes :=
  (batch.buf.drop batch.offset).take (batch.filled - batch.offset)

/-- What a walk relies on: the kernel filled no more than the buffer, which is
a slice, and `BPF_WORDALIGN` rounds the lengths that fit it up. -/
structure Batch.Fits (batch : Batch) (header : BpfHeader)
    (wordAlign : Nat → Nat) : Prop where
  filled_le : batch.filled ≤ batch.buf.length
  length_le : batch.buf.length ≤ Usize.maxLen .bits64
  align_eq : ∀ len, len ≤ batch.buf.length →
    wordAlign len = roundUp header.unit len

theorem Batch.rest_length (h : batch.filled ≤ batch.buf.length) :
    batch.rest.length = batch.filled - batch.offset := by
  unfold Batch.rest
  rw [List.length_take, List.length_drop]
  omega

theorem Batch.Fits.moved (h : batch.Fits header wordAlign) (offset : Nat) :
    Batch.Fits { batch with offset := offset } header wordAlign :=
  ⟨h.filled_le, h.length_le, h.align_eq⟩

theorem Batch.rest_moved (step : Nat) :
    Batch.rest { batch with offset := batch.offset + step } =
      batch.rest.drop step := by
  unfold Batch.rest
  rw [List.drop_take, List.drop_drop, Nat.sub_sub]

theorem Batch.rest_slice (h : batch.filled ≤ batch.buf.length)
    (hoffset : batch.offset ≤ batch.filled) {start stop : Nat}
    (hle : start ≤ stop) (hstop : stop ≤ batch.rest.length) :
    slice? batch.buf (batch.offset + start) (batch.offset + stop) =
      some ((batch.rest.take stop).drop start) := by
  rw [batch.rest_length h] at hstop
  rw [slice?_eq_some_iff]
  refine ⟨by omega, by omega, ?_⟩
  unfold Batch.rest
  rw [List.take_take, List.drop_take, List.drop_drop]
  congr 1
  omega

theorem parseRecord_some {rest record : Bytes}
    (hlength : rest.length ≤ Usize.maxLen .bits64)
    (halign : ∀ len, len ≤ rest.length →
      wordAlign len = roundUp header.unit len)
    (h : header.format.front rest = some record) :
    ∃ parsed, parseRecord header wordAlign rest =
        some (.ok (parsed, roundUp header.unit record.length)) ∧
      ((∃ datalen, parsed = .oversized datalen) ∧
          header.readOf rest = .oversized ∨
        parsed = .frame (header.endian.read16 rest header.hdrlenAt)
            record.length ∧
          header.readOf rest = .frame ((rest.take record.length).drop
            (header.endian.read16 rest header.hdrlenAt))) := by
  obtain ⟨hsize, hlen, hleast, hin, -⟩ := Format.front_eq_some h
  have hsize : header.size ≤ rest.length := hsize
  have hlen : record.length = header.endian.read16 rest header.hdrlenAt +
      header.endian.read32 rest header.caplenAt := hlen
  have hleast : 1 ≤ record.length := hleast
  have hroom := Usize.maxLen_lt_top .bits64
  have hup := le_roundUp header.unit_pos record.length
  unfold parseRecord
  rw [if_neg (Nat.not_lt.mpr hsize)]
  simp only [Usize.add_eq (show header.endian.read16 rest header.hdrlenAt +
    header.endian.read32 rest header.caplenAt < Usize.top .bits64 by omega),
    ← hlen, Option.bind_eq_bind, Option.bind_some]
  rw [if_neg (Nat.not_lt.mpr hin), halign record.length hin,
    if_neg (by omega)]
  split
  · rename_i hover
    refine ⟨_, rfl, .inl ⟨⟨_, rfl⟩, if_pos hover⟩⟩
  · rename_i hwhole
    refine ⟨_, rfl, .inr ⟨rfl, ?_⟩⟩
    unfold BpfHeader.readOf
    rw [if_neg hwhole]
    simp only [BpfHeader.format, ← hlen]

theorem parseRecord_none {rest : Bytes}
    (halign : wordAlign 0 = 0)
    (h : header.format.front rest = none) :
    ∃ error, parseRecord header wordAlign rest = some (.error error) := by
  have hhdrlen := header.endian.read16_lt rest header.hdrlenAt
  have hcaplen := header.endian.read32_lt rest header.caplenAt
  unfold parseRecord
  split
  · exact ⟨_, rfl⟩
  · rename_i hsize
    have htop : Usize.top .bits64 = 18446744073709551616 := rfl
    simp only [Usize.add_eq (show header.endian.read16 rest header.hdrlenAt +
      header.endian.read32 rest header.caplenAt < Usize.top .bits64 by omega),
      Option.bind_eq_bind, Option.bind_some]
    split
    · exact ⟨_, rfl⟩
    · rename_i hpast
      have hzero : header.endian.read16 rest header.hdrlenAt +
          header.endian.read32 rest header.caplenAt = 0 := by
        by_contra hne
        have hfit : ¬(header.format.lengthOf rest < header.format.least ∨
            rest.length < header.format.lengthOf rest) := by
          simp only [BpfHeader.format]
          omega
        have hheader : ¬rest.length < header.format.headerLen := hsize
        rw [Format.front, if_neg hheader, if_neg hfit] at h
        cases h
      rw [hzero, if_pos halign]
      exact ⟨_, rfl⟩

theorem Batch.Fits.rest_length_le (h : batch.Fits header wordAlign) :
    batch.rest.length ≤ batch.buf.length := by
  rw [batch.rest_length h.filled_le]
  have := h.filled_le
  omega

theorem Batch.Fits.rest_eq (h : batch.Fits header wordAlign)
    (hoffset : batch.offset ≤ batch.filled) :
    slice? batch.buf batch.offset batch.filled = some batch.rest := by
  rw [slice?_eq_some_iff]
  exact ⟨hoffset, h.filled_le, rfl⟩

theorem Batch.Fits.align_zero (h : batch.Fits header wordAlign) :
    wordAlign 0 = 0 := by
  rw [h.align_eq 0 (Nat.zero_le _), roundUp, Nat.zero_add,
    Nat.div_eq_of_lt (by have := header.unit_pos; omega), Nat.zero_mul]

theorem Batch.Fits.take_some (h : batch.Fits header wordAlign)
    (hoffset : batch.offset ≤ batch.filled) {record : Bytes}
    (hfront : header.format.front batch.rest = some record) :
    batch.take header wordAlign =
      some (.ok (some (header.readOf batch.rest)),
        { batch with
          offset := batch.offset + roundUp header.unit record.length }) := by
  have hfilled := h.filled_le
  have hlength := h.length_le
  have hroom := Usize.maxLen_lt_top .bits64
  have hrest := h.rest_length_le
  have hunit := header.unit_le
  have hin := (Format.front_eq_some hfront).2.2.2.1
  have hup := roundUp_le header.unit record.length
  rw [batch.rest_length hfilled] at hin
  obtain ⟨parsed, hparse, hkind⟩ :=
    parseRecord_some (Nat.le_trans hrest hlength)
      (fun len hlen => h.align_eq len (Nat.le_trans hlen hrest)) hfront
  unfold Batch.take
  simp only [h.rest_eq hoffset, hparse, Usize.add_eq
    (show batch.offset + roundUp header.unit record.length <
      Usize.top .bits64 by omega), Option.bind_eq_bind, Option.bind_some]
  obtain ⟨⟨datalen, rfl⟩, hread⟩ | ⟨rfl, hread⟩ := hkind
  · simp only [hread]
  · have hlen : record.length = header.endian.read16 batch.rest
        header.hdrlenAt + header.endian.read32 batch.rest header.caplenAt :=
      (Format.front_eq_some hfront).2.1
    simp only [hread, Usize.add_eq (show batch.offset +
        header.endian.read16 batch.rest header.hdrlenAt <
        Usize.top .bits64 by omega),
      Usize.add_eq (show batch.offset + record.length < Usize.top .bits64 by
        omega), Option.bind_some]
    rw [batch.rest_slice hfilled hoffset (by omega)
      (by rw [batch.rest_length hfilled]; exact hin)]
    rfl

theorem Batch.Fits.take_none (h : batch.Fits header wordAlign)
    (hoffset : batch.offset ≤ batch.filled)
    (hfront : header.format.front batch.rest = none) :
    ∃ error, batch.take header wordAlign =
      some (.error (.malformed error),
        { batch with offset := batch.filled }) := by
  obtain ⟨error, hparse⟩ := parseRecord_none h.align_zero hfront
  refine ⟨error, ?_⟩
  unfold Batch.take
  simp only [h.rest_eq hoffset, hparse, Option.bind_eq_bind, Option.bind_some]

theorem Batch.nextFrame_buffered (hbuffered : batch.hasBuffered = true)
    (refill : Refill) :
    batch.nextFrame header wordAlign refill = batch.take header wordAlign := by
  have hlt : batch.offset < batch.filled := of_decide_eq_true hbuffered
  exact if_neg (by omega)

/-! ## Any batch -/

structure Drained (batch : Batch)
    (results : List (Except CaptureError (Option Read))) (after : Batch) :
    Prop where
  same : after.buf = batch.buf ∧ after.filled = batch.filled
  drained : after.hasBuffered = false
  shape : ∃ (reads : List Read) (ending : List _),
    results = reads.map (fun read => .ok (some read)) ++ ending ∧
    (∀ frame, Read.frame frame ∈ reads → ∃ start stop, stop ≤ batch.filled ∧
      slice? batch.buf start stop = some frame) ∧
    (ending = [] ∨ ∃ error, ending = [.error (.malformed error)])

theorem readOf_inside (h : batch.filled ≤ batch.buf.length)
    (hoffset : batch.offset ≤ batch.filled) {record frame : Bytes}
    (hfront : header.format.front batch.rest = some record)
    (hframe : .frame frame = header.readOf batch.rest) :
    ∃ start stop, stop ≤ batch.filled ∧
      slice? batch.buf start stop = some frame := by
  obtain ⟨-, hlen, -, hin, -⟩ := Format.front_eq_some hfront
  simp only [BpfHeader.readOf] at hframe
  split at hframe
  · cases hframe
  · injection hframe with hframe
    subst hframe
    have hlength := batch.rest_length h
    refine ⟨_, _, ?_, batch.rest_slice h hoffset ?_ ?_⟩
    · rw [← hlen]
      omega
    · exact Nat.le_add_right _ _
    · rw [← hlen]
      exact hin

theorem Batch.drain_drained (h : batch.hasBuffered = false) {rounds : Nat}
    (hrounds : 0 < rounds) :
    batch.drain header wordAlign rounds = some ([], batch) := by
  obtain ⟨rounds, rfl⟩ : ∃ more, rounds = more + 1 := ⟨rounds - 1, by omega⟩
  simp only [Batch.drain, h, Bool.false_eq_true, if_false]

theorem Drained.cons {offset : Nat} {read : Read}
    {results : List (Except CaptureError (Option Read))} {after : Batch}
    (h : Drained { batch with offset := offset } results after)
    (hread : ∀ frame, read = .frame frame → ∃ start stop,
      stop ≤ batch.filled ∧ slice? batch.buf start stop = some frame) :
    Drained batch (.ok (some read) :: results) after where
  same := h.same
  drained := h.drained
  shape := by
    obtain ⟨reads, ending, rfl, hinside, hending⟩ := h.shape
    refine ⟨read :: reads, ending, rfl, ?_, hending⟩
    intro frame hmem
    rcases List.mem_cons.mp hmem with hfirst | hmem
    · exact hread frame hfirst.symm
    · exact hinside frame hmem

theorem Batch.Fits.drain (h : batch.Fits header wordAlign) {rounds : Nat}
    (hrounds : batch.filled - batch.offset < rounds) :
    ∃ results after, batch.drain header wordAlign rounds =
      some (results, after) ∧ Drained batch results after := by
  induction rounds generalizing batch with
  | zero => omega
  | succ rounds ih =>
      by_cases hbuffered : batch.hasBuffered = true
      · have hlt : batch.offset < batch.filled := of_decide_eq_true hbuffered
        simp only [Batch.drain, if_pos hbuffered,
          Batch.nextFrame_buffered hbuffered]
        cases hfront : header.format.front batch.rest with
        | none =>
            obtain ⟨error, htake⟩ := h.take_none (Nat.le_of_lt hlt) hfront
            have hquiet : Batch.hasBuffered
                { batch with offset := batch.filled } = false :=
              decide_eq_false (Nat.lt_irrefl _)
            simp only [htake, Batch.drain_drained hquiet (by omega : 0 < rounds),
              Option.bind_eq_bind, Option.bind_some]
            refine ⟨_, _, rfl, ⟨rfl, rfl⟩, hquiet, [], _, rfl, ?_,
              .inr ⟨error, rfl⟩⟩
            intro frame hmem
            cases hmem
        | some record =>
            have hpos := (Format.front_eq_some hfront).2.2.1
            have hpos : 1 ≤ record.length := hpos
            have hup := le_roundUp header.unit_pos record.length
            have htake := h.take_some (Nat.le_of_lt hlt) hfront
            obtain ⟨results, after, hdrain, hdrained⟩ :=
              ih (h.moved (batch.offset + roundUp header.unit record.length))
                (by simp only; omega)
            simp only [htake, hdrain, Option.bind_eq_bind, Option.bind_some]
            refine ⟨_, _, rfl, hdrained.cons fun frame hframe => ?_⟩
            exact readOf_inside h.filled_le (Nat.le_of_lt hlt) hfront
              hframe.symm
      · have hquiet : batch.hasBuffered = false := by simpa using hbuffered
        refine ⟨[], batch, Batch.drain_drained hquiet (Nat.succ_pos rounds),
          ⟨rfl, rfl⟩, hquiet, [], [], rfl, ?_, .inl rfl⟩
        intro frame hmem
        cases hmem

/-! ## A batch of records -/

theorem BpfHeader.readOf_append {record : Bytes}
    (h : header.format.Sized record) (more : Bytes) :
    header.readOf (record ++ more) = header.readOf record := by
  have hfields : header.hdrlenAt + 2 ≤ record.length := h.fields_le
  have hcaplen := header.caplen_le
  have hdatalen := header.datalen_le
  simp only [BpfHeader.readOf, h.length_eq, List.take_length,
    header.format.lengthOf_append record more h.fields_le,
    header.endian.read16_append hfields more,
    header.endian.read32_append
      (by omega : header.caplenAt + 4 ≤ record.length) more,
    header.endian.read32_append
      (by omega : header.datalenAt + 4 ≤ record.length) more,
    List.take_left]

/-- The batch is these records one after another, the last one perhaps without
its padding. -/
structure Batch.Holds (batch : Batch) (header : BpfHeader)
    (records : List Bytes) : Prop where
  packed : Format.Packed header.unit records batch.rest
  sized : ∀ record ∈ records, header.format.Sized record

def BpfHeader.span (header : BpfHeader) : List Bytes → Nat
  | [] => 0
  | record :: records =>
      roundUp header.unit record.length + header.span records

/-- The last of the records, with what padding it has, fills a `bpf_hdr`.  The
kernel's header is shorter than the struct, so it may not. -/
def Batch.Whole (batch : Batch) (header : BpfHeader)
    (records : List Bytes) : Prop :=
  records = [] ∨
    header.span records.dropLast + header.size ≤ batch.rest.length

variable {records : List Bytes}

theorem Batch.Holds.hasBuffered (h : batch.Holds header records)
    (hfilled : batch.filled ≤ batch.buf.length) :
    batch.hasBuffered = decide (0 < records.length) := by
  have hlength := batch.rest_length hfilled
  have hpacked := h.packed
  cases records with
  | nil =>
      generalize batch.rest = rest at hpacked hlength
      cases hpacked
      simp only [List.length_nil] at hlength
      exact decide_eq_decide.mpr (by simp only [List.length_nil]; omega)
  | cons record records =>
      obtain ⟨more, hrest, -⟩ := hpacked.uncons
      have hpos := (h.sized record List.mem_cons_self).least_le
      have hpos : 1 ≤ record.length := hpos
      rw [hrest, List.length_append] at hlength
      exact decide_eq_decide.mpr (by simp only [List.length_cons]; omega)

theorem Batch.Holds.next {record : Bytes}
    (h : batch.Holds header (record :: records))
    (hsize : header.size ≤ batch.rest.length) :
    header.format.front batch.rest = some record ∧
      header.readOf batch.rest = header.readOf record ∧
      Batch.Holds { batch with
        offset := batch.offset + roundUp header.unit record.length } header
        records := by
  have hsized := h.sized record List.mem_cons_self
  obtain ⟨more, hrest, hpacked⟩ := h.packed.uncons
  refine ⟨?_, ?_, ?_, ?_⟩
  · rw [hrest, List.length_append] at hsize
    rw [hrest]
    exact hsized.front hsize
  · rw [hrest]
    exact header.readOf_append hsized more
  · rw [Batch.rest_moved]
    exact hpacked
  · exact fun other hmem => h.sized other (List.mem_cons_of_mem _ hmem)

theorem Batch.Holds.header_le {record : Bytes}
    (h : batch.Holds header (record :: records)) (hmore : records ≠ []) :
    roundUp header.unit record.length ≤ batch.rest.length ∧
      header.size ≤ batch.rest.length := by
  have hfields : header.hdrlenAt + 2 ≤ record.length :=
    (h.sized record List.mem_cons_self).fields_le
  have hsize := header.size_le
  have hmono := roundUp_mono header.unit hfields
  obtain ⟨more, -, hpacked⟩ := h.packed.uncons
  obtain ⟨other, records, rfl⟩ := List.exists_cons_of_ne_nil hmore
  obtain ⟨behind, hbehind, -⟩ := hpacked.uncons
  have hother : 1 ≤ other.length :=
    (h.sized other (List.mem_cons_of_mem _ List.mem_cons_self)).least_le
  have hlength := congrArg List.length hbehind
  rw [List.length_drop, List.length_append] at hlength
  omega

theorem Batch.Whole.next {record : Bytes}
    (hwhole : batch.Whole header (record :: records))
    (h : batch.Holds header (record :: records)) :
    header.size ≤ batch.rest.length ∧
      Batch.Whole { batch with
        offset := batch.offset + roundUp header.unit record.length } header
        records := by
  rcases hwhole with hnil | hwhole
  · cases hnil
  by_cases hmore : records = []
  · subst hmore
    have hspan : header.span ([record] : List Bytes).dropLast = 0 := rfl
    exact ⟨by omega, .inl rfl⟩
  · refine ⟨(h.header_le hmore).2, .inr ?_⟩
    rw [List.dropLast_cons_of_ne_nil hmore] at hwhole
    rw [BpfHeader.span] at hwhole
    rw [Batch.rest_moved, List.length_drop]
    omega

theorem Batch.Holds.calls (h : batch.Holds header records)
    (hfits : batch.Fits header wordAlign)
    (hwhole : batch.Whole header records) (refill : Refill) {count : Nat}
    (hcount : count ≤ records.length) :
    ∃ after, batch.calls header wordAlign refill count =
        some ((records.take count).map fun record =>
          .ok (some (header.readOf record)), after) ∧
      after.hasBuffered = decide (count < records.length) := by
  induction count generalizing batch records with
  | zero => exact ⟨batch, rfl, h.hasBuffered hfits.filled_le⟩
  | succ count ih =>
      cases records with
      | nil => simp at hcount
      | cons record records =>
          have hbuffered : batch.hasBuffered = true := by
            rw [h.hasBuffered hfits.filled_le]
            exact decide_eq_true (Nat.succ_pos _)
          have hlt : batch.offset < batch.filled := of_decide_eq_true hbuffered
          obtain ⟨hsize, hlast⟩ := hwhole.next h
          obtain ⟨hfront, hread, hnext⟩ := h.next hsize
          obtain ⟨after, hcalls, hafter⟩ :=
            ih hnext (hfits.moved _) hlast (Nat.le_of_succ_le_succ hcount)
          refine ⟨after, ?_, ?_⟩
          · simp only [Batch.calls, Batch.nextFrame_buffered hbuffered,
              hfits.take_some (Nat.le_of_lt hlt) hfront, hread, hcalls,
              Option.bind_eq_bind, Option.bind_some, List.take_succ_cons,
              List.map_cons]
          · rw [hafter]
            exact decide_eq_decide.mpr Nat.succ_lt_succ_iff.symm

theorem Batch.Fits.take_short (h : batch.Fits header wordAlign)
    (hoffset : batch.offset ≤ batch.filled)
    (hshort : batch.rest.length < header.size) :
    batch.take header wordAlign =
      some (.error (.malformed .endedMidHeader),
        { batch with offset := batch.filled }) := by
  have hparse : parseRecord header wordAlign batch.rest =
      some (.error .endedMidHeader) := if_pos hshort
  unfold Batch.take
  simp only [h.rest_eq hoffset, hparse, Option.bind_eq_bind, Option.bind_some]

/-- Where the last record does not fill a header, the calls yield the others
and then an error that abandons it. -/
theorem Batch.Holds.calls_cut {last : Bytes}
    (h : batch.Holds header (records ++ [last]))
    (hfits : batch.Fits header wordAlign)
    (hcut : batch.rest.length < header.span records + header.size)
    (refill : Refill) :
    ∃ after, batch.calls header wordAlign refill (records.length + 1) =
        some ((records.map fun record => .ok (some (header.readOf record))) ++
          [.error (.malformed .endedMidHeader)], after) ∧
      after.hasBuffered = false := by
  have hbuffered : batch.hasBuffered = true := by
    rw [h.hasBuffered hfits.filled_le, List.length_append]
    exact decide_eq_true (Nat.succ_pos _)
  have hlt : batch.offset < batch.filled := of_decide_eq_true hbuffered
  induction records generalizing batch with
  | nil =>
      have hshort : batch.rest.length < header.size := by
        simpa only [BpfHeader.span, Nat.zero_add] using hcut
      refine ⟨{ batch with offset := batch.filled }, ?_,
        decide_eq_false (Nat.lt_irrefl _)⟩
      simp only [List.length_nil, Batch.calls,
        Batch.nextFrame_buffered hbuffered,
        hfits.take_short (Nat.le_of_lt hlt) hshort, Option.bind_eq_bind,
        Option.bind_some, List.map_nil, List.nil_append]
  | cons record records ih =>
      have hmore : records ++ [last] ≠ [] := by simp
      obtain ⟨hup, hsize⟩ := Batch.Holds.header_le h hmore
      obtain ⟨hfront, hread, hnext⟩ := Batch.Holds.next h hsize
      have hmoved : Batch.hasBuffered { batch with
          offset := batch.offset + roundUp header.unit record.length } =
          true := by
        rw [hnext.hasBuffered (hfits.moved _).filled_le]
        exact decide_eq_true (List.length_pos_of_ne_nil hmore)
      have hbehind : (Batch.rest { batch with
          offset := batch.offset + roundUp header.unit record.length }).length <
          header.span records + header.size := by
        rw [BpfHeader.span] at hcut
        rw [Batch.rest_moved, List.length_drop]
        omega
      obtain ⟨after, hcalls, hafter⟩ :=
        ih hnext (hfits.moved _) hbehind hmoved (of_decide_eq_true hmoved)
      refine ⟨after, ?_, hafter⟩
      rw [List.length_cons, Batch.calls]
      simp only [Batch.nextFrame_buffered hbuffered,
        hfits.take_some (Nat.le_of_lt hlt) hfront, hread, hcalls,
        Option.bind_eq_bind, Option.bind_some, List.map_cons, List.cons_append]

/-- The walk of a batch: whatever it holds, it drains before the next read;
and of one that is records, each call yields the next one, with `has_buffered`
saying whether there is one.  A last record that does not fill a `bpf_hdr` is
an error instead. -/
structure Batch.Walks (batch : Batch) (header : BpfHeader)
    (wordAlign : Nat → Nat) : Prop where
  drains : ∃ results after,
    batch.drain header wordAlign (batch.filled + 1) = some (results, after) ∧
    Drained batch results after
  yields : ∀ records, batch.Holds header records →
    batch.Whole header records →
    ∀ refill count, count ≤ records.length →
    ∃ after, batch.calls header wordAlign refill count =
        some ((records.take count).map fun record =>
          .ok (some (header.readOf record)), after) ∧
      after.hasBuffered = decide (count < records.length)
  cut : ∀ records last, batch.Holds header (records ++ [last]) →
    ¬batch.Whole header (records ++ [last]) →
    ∀ refill, ∃ after,
      batch.calls header wordAlign refill (records.length + 1) =
        some ((records.map fun record => .ok (some (header.readOf record))) ++
          [.error (.malformed .endedMidHeader)], after) ∧
      after.hasBuffered = false

theorem batch_walks {header : BpfHeader} {wordAlign : Nat → Nat}
    {batch : Batch} (h : batch.Fits header wordAlign) :
    batch.Walks header wordAlign where
  drains := h.drain (by omega)
  yields := fun _ hholds hwhole refill _ hcount =>
    hholds.calls h hwhole refill hcount
  cut := by
    intro records last hholds hwhole refill
    refine hholds.calls_cut h ?_ refill
    unfold Batch.Whole at hwhole
    rw [List.dropLast_concat, not_or] at hwhole
    omega

def shortRecord : Bytes :=
  [0, 0, 0, 0, 0, 0, 0, 0, 1, 0, 0, 0, 1, 0, 0, 0, 18, 0, 0xaa]

def truncatedRecord : Bytes :=
  [0, 0, 0, 0, 0, 0, 0, 0, 2, 0, 0, 0, 9, 0, 0, 0, 18, 0, 0xbb, 0xbb]

def twoRecords : Batch :=
  { buf := shortRecord ++ [0] ++ truncatedRecord
    filled := 40
    offset := 0 }

theorem twoRecords_holds :
    twoRecords.Holds .macos [shortRecord, truncatedRecord] where
  packed := by
    have hlast : Format.Packed 4 [truncatedRecord] (truncatedRecord ++ []) :=
      .last truncatedRecord [] (by decide)
    rw [List.append_nil] at hlast
    exact .cons shortRecord [0] (by decide) hlast
  sized := by
    intro record hmem
    simp only [List.mem_cons, List.not_mem_nil, or_false] at hmem
    rcases hmem with rfl | rfl <;> exact ⟨by decide, by decide, by decide⟩

theorem batch_walks_two :
    twoRecords.Walks .macos (roundUp 4) ∧
      twoRecords.Holds .macos [shortRecord, truncatedRecord] ∧
      twoRecords.Whole .macos [shortRecord, truncatedRecord] :=
  ⟨batch_walks ⟨by decide, by decide, fun _ _ => rfl⟩, twoRecords_holds,
    .inr (by decide)⟩

/-- An unpadded record of one octet behind a header of eighteen is a batch of
one record, and yields an error. -/
theorem short_record_refused :
    Batch.Holds ⟨shortRecord, 19, 0⟩ .macos [shortRecord] ∧
      Batch.calls .macos (roundUp 4) .nothing 1 ⟨shortRecord, 19, 0⟩ =
        some ([.error (.malformed .endedMidHeader)], ⟨shortRecord, 19, 19⟩) ∧
      BpfHeader.macos.readOf shortRecord = .frame [0xaa] := by
  refine ⟨⟨?_, ?_⟩, by decide, by decide⟩
  · have hlast : Format.Packed 4 [shortRecord] (shortRecord ++ []) :=
      .last shortRecord [] (by decide)
    rw [List.append_nil] at hlast
    exact hlast
  · intro record hmem
    rw [List.mem_singleton] at hmem
    subst hmem
    exact ⟨by decide, by decide, by decide⟩

end Netflector.Capture
