import Mathlib.Data.List.Basic
import Mathlib.Tactic.Common
import Netflector.Foundation.Bytes

/-!
# Records laid end to end

A buffer of records, each with its length in its header and padded so that
the next one starts aligned.  A walker steps from offset to offset; what it
does at one offset is a round, and its rounds are compared with the records
the format finds in the buffer.
-/

namespace Netflector.Foundation

/-! ## Alignment -/

def roundUp (unit length : Nat) : Nat := (length + (unit - 1)) / unit * unit

theorem le_roundUp {unit : Nat} (h : 0 < unit) (length : Nat) :
    length ≤ roundUp unit length := by
  have hdiv := Nat.div_add_mod (length + (unit - 1)) unit
  have hmod := Nat.mod_lt (length + (unit - 1)) h
  rw [Nat.mul_comm] at hdiv
  unfold roundUp
  omega

theorem roundUp_mono (unit : Nat) {first second : Nat}
    (h : first ≤ second) : roundUp unit first ≤ roundUp unit second :=
  Nat.mul_le_mul_right unit (Nat.div_le_div_right (Nat.add_le_add_right h _))

theorem roundUp_le (unit length : Nat) :
    roundUp unit length ≤ length + (unit - 1) := by
  have hdiv := Nat.div_add_mod (length + (unit - 1)) unit
  rw [Nat.mul_comm] at hdiv
  unfold roundUp
  omega

@[simp] theorem roundUp_one (length : Nat) : roundUp 1 length = length := by
  simp [roundUp]

/-! ## Native fields -/

inductive Endian where
  | little
  | big
  deriving DecidableEq, Repr

def Endian.nat16 : Endian → UInt8 → UInt8 → Nat
  | .little, first, second => be16 second first
  | .big, first, second => be16 first second

/-- The 16-bit field at `offset`, zero where it does not fit. -/
def Endian.read16 (endian : Endian) (bytes : Bytes) (offset : Nat) : Nat :=
  endian.nat16 (bytes.getD offset 0) (bytes.getD (offset + 1) 0)

def Endian.read32 (endian : Endian) (bytes : Bytes) (offset : Nat) : Nat :=
  match endian with
  | .little =>
      endian.read16 bytes (offset + 2) * 65536 + endian.read16 bytes offset
  | .big =>
      endian.read16 bytes offset * 65536 + endian.read16 bytes (offset + 2)

theorem Endian.read16_lt (endian : Endian) (bytes : Bytes) (offset : Nat) :
    endian.read16 bytes offset < 65536 := by
  cases endian <;> exact be16_lt _ _

theorem Endian.read32_lt (endian : Endian) (bytes : Bytes) (offset : Nat) :
    endian.read32 bytes offset < 4294967296 := by
  have hfirst := endian.read16_lt bytes offset
  have hsecond := endian.read16_lt bytes (offset + 2)
  cases endian <;> simp only [Endian.read32] <;> omega

theorem Endian.read16_append (endian : Endian) {bytes : Bytes} {offset : Nat}
    (h : offset + 2 ≤ bytes.length) (more : Bytes) :
    endian.read16 (bytes ++ more) offset = endian.read16 bytes offset := by
  simp only [Endian.read16, List.getD_eq_getElem?_getD]
  rw [List.getElem?_append_left (by omega),
    List.getElem?_append_left (by omega)]

theorem Endian.read32_append (endian : Endian) {bytes : Bytes} {offset : Nat}
    (h : offset + 4 ≤ bytes.length) (more : Bytes) :
    endian.read32 (bytes ++ more) offset = endian.read32 bytes offset := by
  have hfirst := endian.read16_append (by omega : offset + 2 ≤ bytes.length) more
  have hsecond :=
    endian.read16_append (by omega : offset + 2 + 2 ≤ bytes.length) more
  cases endian <;> simp only [Endian.read32, hfirst, hsecond]

theorem Endian.read16_drop (endian : Endian) (bytes : Bytes)
    (count offset : Nat) :
    endian.read16 (bytes.drop count) offset =
      endian.read16 bytes (count + offset) := by
  simp only [Endian.read16, List.getD_eq_getElem?_getD, List.getElem?_drop,
    Nat.add_assoc]

theorem Endian.read32_drop (endian : Endian) (bytes : Bytes)
    (count offset : Nat) :
    endian.read32 (bytes.drop count) offset =
      endian.read32 bytes (count + offset) := by
  cases endian <;> simp only [Endian.read32, Endian.read16_drop, Nat.add_assoc]

theorem Endian.read16_take (endian : Endian) {bytes : Bytes}
    {offset count : Nat} (hcount : offset + 2 ≤ count)
    (hlength : count ≤ bytes.length) :
    endian.read16 (bytes.take count) offset = endian.read16 bytes offset := by
  have happend := endian.read16_append
    (show offset + 2 ≤ (bytes.take count).length by
      rw [List.length_take]; omega) (bytes.drop count)
  rw [List.take_append_drop] at happend
  exact happend.symm

theorem Endian.read32_take (endian : Endian) {bytes : Bytes}
    {offset count : Nat} (hcount : offset + 4 ≤ count)
    (hlength : count ≤ bytes.length) :
    endian.read32 (bytes.take count) offset = endian.read32 bytes offset := by
  have happend := endian.read32_append
    (show offset + 4 ≤ (bytes.take count).length by
      rw [List.length_take]; omega) (bytes.drop count)
  rw [List.take_append_drop] at happend
  exact happend.symm

/-! ## Formats -/

/-- How a record says its own length: a reader needs `headerLen` octets to
look at one, the length is read from the first `fields` of them, and a
record shorter than `least` is malformed. -/
structure Format where
  headerLen : Nat
  fields : Nat
  least : Nat
  unit : Nat
  lengthOf : Bytes → Nat
  least_pos : 0 < least
  unit_pos : 0 < unit
  lengthOf_append : ∀ record more : Bytes, fields ≤ record.length →
    lengthOf (record ++ more) = lengthOf record

namespace Format

variable (format : Format)

def front (rest : Bytes) : Option Bytes :=
  if rest.length < format.headerLen then none
  else if format.lengthOf rest < format.least ∨
      rest.length < format.lengthOf rest then none
  else some (rest.take (format.lengthOf rest))

def recordAt (buf : Bytes) (offset : Nat) : Option Bytes :=
  format.front (buf.drop offset)

/-- The records of `rest`, each with its offset; `offset` is where `rest`
starts. -/
def records : Nat → Nat → Bytes → List (Nat × Bytes)
  | 0, _, _ => []
  | rounds + 1, offset, rest =>
      match format.front rest with
      | none => []
      | some record =>
          let step := roundUp format.unit record.length
          (offset, record) ::
            records rounds (offset + step) (rest.drop step)

def recordsOf (buf : Bytes) : List (Nat × Bytes) :=
  format.records (buf.length + 1) 0 buf

variable {format}

theorem front_eq_some {rest record : Bytes}
    (h : format.front rest = some record) :
    format.headerLen ≤ rest.length ∧ record.length = format.lengthOf rest ∧
      format.least ≤ record.length ∧ record.length ≤ rest.length ∧
      record = rest.take record.length := by
  unfold front at h
  split at h
  · cases h
  · split at h
    · cases h
    · rename_i hheader hlength
      rw [not_or] at hlength
      cases h
      have hlen : (rest.take (format.lengthOf rest)).length =
          format.lengthOf rest := by
        rw [List.length_take]
        omega
      rw [hlen]
      exact ⟨by omega, rfl, by omega, by omega, rfl⟩

theorem recordAt_eq_some {buf record : Bytes} {offset : Nat}
    (h : format.recordAt buf offset = some record) :
    offset + record.length ≤ buf.length ∧ 0 < record.length ∧
      slice? buf offset (offset + record.length) = some record := by
  obtain ⟨-, -, hleast, hlength, htake⟩ := front_eq_some h
  have hpos := format.least_pos
  rw [List.length_drop] at hlength
  refine ⟨by omega, by omega, ?_⟩
  rw [slice?_eq_some_iff]
  refine ⟨by omega, by omega, ?_⟩
  rw [Nat.add_sub_cancel_left]
  exact htake

theorem recordAt_short {buf : Bytes} {offset : Nat}
    (hpos : 0 < format.headerLen)
    (h : buf.length < offset + format.headerLen) :
    format.recordAt buf offset = none :=
  if_pos (by rw [List.length_drop]; omega)

theorem recordAt_misfit {buf : Bytes} {offset len : Nat}
    (hheader : offset + format.headerLen ≤ buf.length)
    (hlen : format.lengthOf (buf.drop offset) = len)
    (h : len < format.least ∨ buf.length < offset + len) :
    format.recordAt buf offset = none := by
  unfold recordAt front
  rw [List.length_drop, hlen, if_neg (by omega), if_pos (by omega)]

theorem recordAt_fits {buf : Bytes} {offset len : Nat}
    (hheader : offset + format.headerLen ≤ buf.length)
    (hlen : format.lengthOf (buf.drop offset) = len)
    (hleast : format.least ≤ len) (h : offset + len ≤ buf.length) :
    format.recordAt buf offset = some ((buf.drop offset).take len) := by
  unfold recordAt front
  rw [List.length_drop, hlen, if_neg (by omega), if_neg (by omega)]

/-! ## Buffers made of records -/

/-- `buf` is the records one after another, each padded to the unit; the last
one may lack some or all of its padding. -/
inductive Packed (unit : Nat) : List Bytes → Bytes → Prop
  | nil : Packed unit [] []
  | last (record padding : Bytes)
      (hpadding : record.length + padding.length ≤ roundUp unit record.length) :
      Packed unit [record] (record ++ padding)
  | cons (record padding : Bytes) {records : List Bytes} {rest : Bytes}
      (hpadding : record.length + padding.length = roundUp unit record.length)
      (hrest : Packed unit records rest) :
      Packed unit (record :: records) (record ++ padding ++ rest)

theorem Packed.uncons {unit : Nat} {record : Bytes}
    {records : List Bytes} {rest : Bytes}
    (h : Packed unit (record :: records) rest) :
    ∃ more, rest = record ++ more ∧
      Packed unit records (rest.drop (roundUp unit record.length)) := by
  cases h with
  | last _ padding hpadding =>
      refine ⟨padding, rfl, ?_⟩
      rw [List.drop_eq_nil_of_le (by rw [List.length_append]; exact hpadding)]
      exact .nil
  | cons _ padding hpadding hrest =>
      rename_i rest
      refine ⟨padding ++ rest, List.append_assoc _ _ _, ?_⟩
      rw [← hpadding, ← List.length_append, List.drop_left]
      exact hrest

structure Sized (format : Format) (record : Bytes) : Prop where
  length_eq : format.lengthOf record = record.length
  least_le : format.least ≤ record.length
  fields_le : format.fields ≤ record.length

theorem Sized.front {record : Bytes} (h : Sized format record) {more : Bytes}
    (hheader : format.headerLen ≤ record.length + more.length) :
    format.front (record ++ more) = some record := by
  have hlength : format.lengthOf (record ++ more) = record.length := by
    rw [format.lengthOf_append record more h.fields_le, h.length_eq]
  have hleast := h.least_le
  unfold Format.front
  rw [hlength, List.length_append, if_neg (by omega), if_neg (by omega),
    List.take_left]

theorem records_nil (rounds offset : Nat) (hheader : 0 < format.headerLen) :
    format.records rounds offset [] = [] := by
  cases rounds with
  | zero => rfl
  | succ rounds =>
      have hnone : format.front [] = none := by
        unfold Format.front
        rw [List.length_nil, if_pos hheader]
      simp only [records, hnone]

theorem records_packed {messages : List Bytes} {buf : Bytes}
    (h : Packed format.unit messages buf)
    (hsized : ∀ message ∈ messages, Sized format message)
    (hheader : ∀ message ∈ messages, format.headerLen ≤ message.length)
    (hpos : 0 < format.headerLen) {rounds : Nat}
    (hrounds : buf.length < rounds) (offset : Nat) :
    (format.records rounds offset buf).map Prod.snd = messages := by
  induction messages generalizing rounds offset buf with
  | nil =>
      cases h
      rw [records_nil rounds offset hpos, List.map_nil]
  | cons record messages ih =>
      obtain ⟨rounds, rfl⟩ : ∃ more, rounds = more + 1 :=
        ⟨rounds - 1, by omega⟩
      obtain ⟨more, rfl, hrest⟩ := h.uncons
      have hmem : record ∈ record :: messages := List.mem_cons_self
      have hfront : format.front (record ++ more) = some record :=
        (hsized record hmem).front
          (Nat.le_trans (hheader record hmem) (Nat.le_add_right _ _))
      have hshort : ((record ++ more).drop
          (roundUp format.unit record.length)).length < rounds := by
        have hone := (hsized record hmem).least_le
        have hpos := format.least_pos
        have hup := le_roundUp format.unit_pos record.length
        rw [List.length_append] at hrounds
        rw [List.length_drop, List.length_append]
        omega
      simp only [records, hfront, List.map_cons]
      rw [ih hrest (fun message hmessage =>
          hsized message (List.mem_cons_of_mem _ hmessage))
        (fun message hmessage =>
          hheader message (List.mem_cons_of_mem _ hmessage)) hshort]

end Format

/-! ## Walkers -/

/-- What a walker does at one offset: end, or hand out `items` and go on. -/
inductive Round (ε α : Type) where
  | stop (result : ε)
  | go (items : List α) (next : Nat)

/-- A whole walk: the offsets it looked at, what it handed out, and how it
ended. -/
structure Run (ε α : Type) where
  offsets : List Nat
  items : List α
  result : ε
  deriving DecidableEq

section Walker

variable {ε α : Type}

/-- The walker's loop.  `none` is a panic in some round, or a loop that
outlasts its rounds. -/
def walk (round : Nat → Option (Round ε α)) :
    Nat → Nat → Option (Run ε α)
  | 0, _ => none
  | rounds + 1, offset =>
      match round offset with
      | none => none
      | some (.stop result) => some ⟨[offset], [], result⟩
      | some (.go items next) =>
          match walk round rounds next with
          | none => none
          | some run => some ⟨offset :: run.offsets, items ++ run.items,
              run.result⟩

/-- What a walker does with a record: hand something out, or end there. -/
abbrev Action (ε α : Type) := Nat → Bytes → Except ε (List α)

def play (action : Action ε α) (finish : ε) :
    List (Nat × Bytes) → List α × ε
  | [] => ([], finish)
  | (offset, record) :: records =>
      match action offset record with
      | .error result => ([], result)
      | .ok items =>
          let played := play action finish records
          (items ++ played.1, played.2)

theorem play_all (give : Bytes → List α) (finish : ε)
    (records : List (Nat × Bytes)) :
    play (fun _ record => .ok (give record)) finish records =
      ((records.map Prod.snd).flatMap give, finish) := by
  induction records with
  | nil => rfl
  | cons record records ih =>
      obtain ⟨offset, record⟩ := record
      simp only [play, ih, List.map_cons, List.flatMap_cons]

def Format.roundAt (format : Format) (action : Action ε α) (finish : ε)
    (buf : Bytes) (offset : Nat) : Round ε α :=
  match format.recordAt buf offset with
  | none => .stop finish
  | some record =>
      match action offset record with
      | .error result => .stop result
      | .ok items => .go items (offset + roundUp format.unit record.length)

theorem Format.roundAt_none {format : Format} {action : Action ε α}
    {finish : ε} {buf : Bytes} {offset : Nat}
    (h : format.recordAt buf offset = none) :
    format.roundAt action finish buf offset = .stop finish := by
  simp only [Format.roundAt, h]

theorem Format.roundAt_stop {format : Format} {action : Action ε α}
    {finish result : ε} {buf record : Bytes} {offset : Nat}
    (h : format.recordAt buf offset = some record)
    (haction : action offset record = .error result) :
    format.roundAt action finish buf offset = .stop result := by
  simp only [Format.roundAt, h, haction]

theorem Format.roundAt_go {format : Format} {action : Action ε α}
    {finish : ε} {items : List α} {buf record : Bytes} {offset : Nat}
    (h : format.recordAt buf offset = some record)
    (haction : action offset record = .ok items) :
    format.roundAt action finish buf offset =
      .go items (offset + roundUp format.unit record.length) := by
  simp only [Format.roundAt, h, haction]

/-- A walker whose rounds are those of the format, as far as `limit`, never
panics and ends; it looks at ever greater offsets, and hands out what acting
on the records hands out. -/
theorem walk_records {format : Format} {action : Action ε α} {finish : ε}
    {buf : Bytes} {round : Nat → Option (Round ε α)} (limit : Nat)
    (hround : ∀ offset ≤ limit,
      round offset = some (format.roundAt action finish buf offset))
    (hlimit : buf.length + (format.unit - 1) ≤ limit)
    {rounds : Nat} (offset : Nat) (hrounds : buf.length - offset < rounds)
    (hoffset : offset ≤ limit) :
    ∃ run, walk round rounds offset = some run ∧
      run.offsets.Pairwise (· < ·) ∧ (∀ seen ∈ run.offsets, offset ≤ seen) ∧
      (run.items, run.result) =
        play action finish (format.records rounds offset (buf.drop offset)) := by
  induction rounds generalizing offset with
  | zero => omega
  | succ rounds ih =>
      simp only [walk, hround offset hoffset, Format.roundAt, Format.recordAt,
        Format.records]
      cases hfront : format.front (buf.drop offset) with
      | none =>
          exact ⟨_, rfl, List.pairwise_singleton _ _, by simp, rfl⟩
      | some record =>
          obtain ⟨hlength, hpos, -⟩ := Format.recordAt_eq_some hfront
          simp only [play]
          cases action offset record with
          | error result =>
              exact ⟨_, rfl, List.pairwise_singleton _ _, by simp, rfl⟩
          | ok items =>
              have hup := le_roundUp format.unit_pos record.length
              have hle := roundUp_le format.unit record.length
              obtain ⟨run, hrun, hsorted, hfrom, hplayed⟩ :=
                ih (offset + roundUp format.unit record.length) (by omega)
                  (by omega)
              simp only [hrun]
              refine ⟨_, rfl, ?_, ?_, ?_⟩
              · refine List.pairwise_cons.mpr ⟨fun seen hseen => ?_, hsorted⟩
                have := hfrom seen hseen
                omega
              · intro seen hseen
                rcases List.mem_cons.mp hseen with rfl | hseen
                · exact Nat.le_refl _
                · have := hfrom seen hseen
                  omega
              · rw [List.drop_drop, ← hplayed]

end Walker

end Netflector.Foundation
