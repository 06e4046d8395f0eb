import Netflector.Foundation.Bytes
import Netflector.Foundation.Result

/-!
# The stream buffer

A fixed-capacity FIFO of bytes over a store that is allocated on first use and
compacted in place.  Every slice the code takes is checked, so a slice out of
range is a panic here as it is there.  The debug assertions are not part of the
model: the functions behave as in a release build.
-/

namespace Netflector.Net

open Netflector.Foundation

/-- Live bytes are `storage[consumed..filled]`. -/
structure StreamBuffer where
  storage : Option Bytes
  capacity : Nat
  filled : Nat
  consumed : Nat
  deriving DecidableEq

namespace StreamBuffer

def withCapacity (capacity : Nat) : StreamBuffer := ⟨none, capacity, 0, 0⟩

def pending (buffer : StreamBuffer) : Except Panic Bytes :=
  match buffer.storage with
  | none => .ok []
  | some storage =>
      orPanic .outOfRange (slice? storage buffer.consumed buffer.filled)

def len (buffer : StreamBuffer) : Nat := buffer.filled - buffer.consumed

def isEmpty (buffer : StreamBuffer) : Bool := buffer.filled = buffer.consumed

def storageMut (buffer : StreamBuffer) : StreamBuffer × Bytes :=
  let storage := buffer.storage.getD (List.replicate buffer.capacity 0)
  ({ buffer with storage := some storage }, storage)

def compact (buffer : StreamBuffer) : Except Panic StreamBuffer := do
  let storage ←
    match buffer.storage with
    | none => .ok none
    | some storage => do
        let live ← orPanic .outOfRange
          (slice? storage buffer.consumed buffer.filled)
        .ok (some (overwrite storage 0 live))
  .ok { buffer with
    storage := storage
    filled := buffer.filled - buffer.consumed
    consumed := 0 }

/-- The caller has checked that `data` fits. -/
def push (buffer : StreamBuffer) (data : Bytes) :
    Except Panic StreamBuffer :=
  -- No allocation for a no-op.
  if data = [] then .ok buffer
  else do
    let buffer ←
      (if buffer.filled + data.length > buffer.capacity then buffer.compact
      else .ok buffer)
    let filled := buffer.filled
    let (buffer, storage) := buffer.storageMut
    if filled + data.length ≤ storage.length then
      .ok { buffer with
        storage := some (overwrite storage filled data)
        filled := filled + data.length }
    else .error .outOfRange

def append (buffer : StreamBuffer) (data : Bytes) :
    Except Panic (Option StreamBuffer) :=
  if buffer.len + data.length > buffer.capacity then .ok none
  else do
    let buffer ← buffer.push data
    .ok (some buffer)

def freeTailMut (buffer : StreamBuffer) :
    Except Panic (StreamBuffer × Nat) := do
  let buffer ←
    (if buffer.filled = buffer.capacity ∧ 0 < buffer.consumed then
      buffer.compact
    else .ok buffer)
  let filled := buffer.filled
  let (buffer, storage) := buffer.storageMut
  if filled ≤ storage.length then .ok (buffer, storage.length - filled)
  else .error .outOfRange

def fillTail (buffer : StreamBuffer) (data : Bytes) : StreamBuffer :=
  { buffer with
    storage := buffer.storage.map fun storage =>
      overwrite storage buffer.filled data }

def commit (buffer : StreamBuffer) (count : Nat) : StreamBuffer :=
  { buffer with filled := buffer.filled + count }

def consume (buffer : StreamBuffer) (count : Nat) : StreamBuffer :=
  let consumed := buffer.consumed + count
  if consumed ≥ buffer.filled then { buffer with consumed := 0, filled := 0 }
  else { buffer with consumed := consumed }

def clear (buffer : StreamBuffer) : StreamBuffer :=
  { buffer with filled := 0, consumed := 0 }

def write (buffer : StreamBuffer) (data : Bytes) :
    Except Panic (StreamBuffer × Nat) := do
  let count := min data.length (buffer.capacity - buffer.len)
  let buffer ← buffer.push (data.take count)
  .ok (buffer, count)

def writeRounds : Nat → StreamBuffer → Bytes →
    Except Panic (Option StreamBuffer)
  | 0, buffer, data => .ok (if data = [] then some buffer else none)
  | rounds + 1, buffer, data =>
      if data = [] then .ok (some buffer)
      else do
        let (buffer, count) ← buffer.write data
        if count = 0 then .ok none
        else writeRounds rounds buffer (data.drop count)

/-- `none` where a write takes nothing of what is left. -/
def writeAll (buffer : StreamBuffer) (data : Bytes) :
    Except Panic (Option StreamBuffer) :=
  writeRounds data.length buffer data

/-- One part after the other, up to the first that does not fit. -/
def writeParts : StreamBuffer → List Bytes →
    Except Panic (Option StreamBuffer)
  | buffer, [] => .ok (some buffer)
  | buffer, part :: parts => do
      match ← buffer.writeAll part with
      | none => .ok none
      | some buffer => writeParts buffer parts

/-! ## The buffer as a queue -/

structure Holds (buffer : StreamBuffer) (live : Bytes) : Prop where
  consumed_le : buffer.consumed ≤ buffer.filled
  filled_le : buffer.filled ≤ buffer.capacity
  unallocated : buffer.storage = none → buffer.filled = 0 ∧ live = []
  allocated : ∀ storage, buffer.storage = some storage →
    storage.length = buffer.capacity ∧
      slice? storage buffer.consumed buffer.filled = some live

theorem holds_withCapacity (capacity : Nat) :
    (withCapacity capacity).Holds [] := by
  constructor
  · exact Nat.le_refl 0
  · exact Nat.zero_le capacity
  · intro _
    exact ⟨rfl, rfl⟩
  · intro storage hstorage
    cases hstorage

variable {buffer : StreamBuffer} {live : Bytes}

theorem Holds.pending (h : buffer.Holds live) : buffer.pending = .ok live := by
  unfold StreamBuffer.pending
  cases hstorage : buffer.storage with
  | none => rw [(h.unallocated hstorage).2]
  | some storage => simp [(h.allocated storage hstorage).2]

theorem Holds.len_eq (h : buffer.Holds live) : buffer.len = live.length := by
  cases hstorage : buffer.storage with
  | none =>
      obtain ⟨hfilled, rfl⟩ := h.unallocated hstorage
      simp [len, hfilled]
  | some storage =>
      exact (slice?_length (h.allocated storage hstorage).2).symm

theorem Holds.length_le (h : buffer.Holds live) :
    live.length ≤ buffer.capacity := by
  have hlen := h.len_eq
  have hfits := h.filled_le
  simp only [len] at hlen
  omega

theorem Holds.isEmpty_iff (h : buffer.Holds live) :
    buffer.isEmpty = true ↔ live = [] := by
  have hlen := h.len_eq
  have hle := h.consumed_le
  rw [isEmpty, decide_eq_true_iff, ← List.length_eq_zero_iff]
  simp only [len] at hlen
  omega

theorem Holds.compact (h : buffer.Holds live) :
    ∃ buffer', buffer.compact = .ok buffer' ∧ buffer'.Holds live ∧
      buffer'.capacity = buffer.capacity ∧ buffer'.filled = live.length := by
  have hlen := h.len_eq
  have hle := h.consumed_le
  have hfits := h.filled_le
  simp only [len] at hlen
  unfold StreamBuffer.compact
  cases hstorage : buffer.storage with
  | none =>
      obtain ⟨hfilled, rfl⟩ := h.unallocated hstorage
      refine ⟨_, rfl, ?_, rfl, hlen⟩
      constructor
      · exact Nat.zero_le _
      · simp only
        omega
      · intro _
        exact ⟨hlen, rfl⟩
      · intro storage hsome
        cases hsome
  | some storage =>
      obtain ⟨hlength, hlive⟩ := h.allocated storage hstorage
      simp only [hlive, orPanic_some]
      refine ⟨_, rfl, ?_, rfl, hlen⟩
      constructor
      · exact Nat.zero_le _
      · simp only
        omega
      · intro hnone
        cases hnone
      · intro storage' hsome
        cases hsome
        constructor
        · rw [overwrite_length (by omega), hlength]
        · exact slice?_overwrite_front hlive

theorem Holds.storageMut (h : buffer.Holds live) :
    buffer.storageMut.1.Holds live ∧
      buffer.storageMut.1.storage = some buffer.storageMut.2 ∧
      buffer.storageMut.2.length = buffer.capacity := by
  unfold StreamBuffer.storageMut
  cases hstorage : buffer.storage with
  | none =>
      obtain ⟨hfilled, rfl⟩ := h.unallocated hstorage
      refine ⟨?_, rfl, by simp⟩
      constructor
      · exact h.consumed_le
      · exact h.filled_le
      · intro hnone
        cases hnone
      · intro storage hsome
        cases hsome
        have hle := h.consumed_le
        refine ⟨by simp, ?_⟩
        simp only [hfilled, Option.getD_none] at hle ⊢
        rw [slice?_eq_some_iff]
        refine ⟨hle, Nat.zero_le _, ?_⟩
        rw [Nat.zero_sub, List.take_zero]
  | some storage =>
      have hsame : { buffer with storage := some storage } = buffer := by
        rw [← hstorage]
      refine ⟨?_, rfl, (h.allocated storage hstorage).1⟩
      exact hsame ▸ h

theorem Holds.written {storage data : Bytes} (h : buffer.Holds live)
    (hstorage : buffer.storage = some storage)
    (hfits : buffer.filled + data.length ≤ buffer.capacity) :
    Holds { buffer with
      storage := some (overwrite storage buffer.filled data)
      filled := buffer.filled + data.length } (live ++ data) := by
  obtain ⟨hlength, hlive⟩ := h.allocated storage hstorage
  have hle := h.consumed_le
  constructor
  · simp only
    omega
  · exact hfits
  · intro hnone
    cases hnone
  · intro storage' hsome
    cases hsome
    constructor
    · rw [overwrite_length (by omega), hlength]
    · exact slice?_overwrite_behind hlive (by omega)

theorem Holds.push (h : buffer.Holds live) {data : Bytes}
    (hfits : live.length + data.length ≤ buffer.capacity) :
    ∃ buffer', buffer.push data = .ok buffer' ∧
      buffer'.Holds (live ++ data) ∧ buffer'.capacity = buffer.capacity := by
  unfold StreamBuffer.push
  split
  · rename_i hempty
    rw [hempty, List.append_nil]
    exact ⟨buffer, rfl, h, rfl⟩
  obtain ⟨moved, hmoved, hholds, hcapacity, hroom⟩ : ∃ moved,
      (if buffer.filled + data.length > buffer.capacity then buffer.compact
        else .ok buffer) = .ok moved ∧ moved.Holds live ∧
      moved.capacity = buffer.capacity ∧
      moved.filled + data.length ≤ moved.capacity := by
    split
    · obtain ⟨moved, hmoved, hholds, hcapacity, hfilled⟩ := h.compact
      exact ⟨moved, hmoved, hholds, hcapacity, by omega⟩
    · exact ⟨buffer, rfl, h, rfl, by omega⟩
  obtain ⟨hstore, hstorage, hlength⟩ := hholds.storageMut
  simp only [hmoved, bind, Except.bind]
  rw [if_pos (by omega)]
  refine ⟨_, rfl, ?_, hcapacity⟩
  exact hstore.written hstorage hroom

theorem Holds.append (h : buffer.Holds live) (data : Bytes) :
    (buffer.capacity < live.length + data.length ∧
      buffer.append data = .ok none) ∨
    (live.length + data.length ≤ buffer.capacity ∧
      ∃ buffer', buffer.append data = .ok (some buffer') ∧
        buffer'.Holds (live ++ data) ∧
        buffer'.capacity = buffer.capacity) := by
  unfold StreamBuffer.append
  rw [h.len_eq]
  split
  · rename_i hover
    exact .inl ⟨hover, rfl⟩
  · rename_i hfits
    have hroom : live.length + data.length ≤ buffer.capacity := by omega
    obtain ⟨buffer', hpush, hholds, hcapacity⟩ := h.push hroom
    refine .inr ⟨hroom, buffer', ?_, hholds, hcapacity⟩
    rw [hpush]
    rfl

theorem Holds.freeTailMut (h : buffer.Holds live) :
    ∃ buffer' room, buffer.freeTailMut = .ok (buffer', room) ∧
      buffer'.Holds live ∧ buffer'.capacity = buffer.capacity ∧
      buffer'.storage.isSome ∧ buffer'.filled + room = buffer'.capacity ∧
      (room = 0 ↔ live.length = buffer.capacity) := by
  unfold StreamBuffer.freeTailMut
  have hlen := h.len_eq
  have hle := h.consumed_le
  have hfits := h.filled_le
  simp only [len] at hlen
  obtain ⟨moved, hmoved, hholds, hcapacity, hroom⟩ : ∃ moved,
      (if buffer.filled = buffer.capacity ∧ 0 < buffer.consumed then
        buffer.compact else .ok buffer) = .ok moved ∧ moved.Holds live ∧
      moved.capacity = buffer.capacity ∧
      (moved.filled = moved.capacity ↔ live.length = buffer.capacity) := by
    split
    · obtain ⟨moved, hmoved, hholds, hcapacity, hfilled⟩ := h.compact
      exact ⟨moved, hmoved, hholds, hcapacity, by omega⟩
    · exact ⟨buffer, rfl, h, rfl, by omega⟩
  obtain ⟨hstore, hstorage, hlength⟩ := hholds.storageMut
  have hmovedFits := hholds.filled_le
  simp only [hmoved, bind, Except.bind]
  rw [if_pos (by omega)]
  refine ⟨_, _, rfl, hstore, hcapacity, ?_, ?_, ?_⟩
  · rw [hstorage]
    rfl
  · show moved.filled + (moved.storageMut.2.length - moved.filled) =
      moved.capacity
    omega
  · omega

theorem Holds.receive (h : buffer.Holds live) {data : Bytes}
    (hallocated : buffer.storage.isSome)
    (hfits : buffer.filled + data.length ≤ buffer.capacity) :
    ((buffer.fillTail data).commit data.length).Holds (live ++ data) := by
  obtain ⟨storage, hstorage⟩ := Option.isSome_iff_exists.mp hallocated
  have := h.written hstorage hfits
  simpa only [fillTail, commit, hstorage, Option.map_some] using this

theorem Holds.consume (h : buffer.Holds live) (count : Nat) :
    (buffer.consume count).Holds (live.drop count) := by
  have hlen := h.len_eq
  have hle := h.consumed_le
  have hfits := h.filled_le
  simp only [len] at hlen
  simp only [StreamBuffer.consume]
  split
  · rename_i hall
    rw [List.drop_of_length_le (by omega)]
    constructor
    · exact Nat.le_refl 0
    · exact Nat.zero_le _
    · intro _
      exact ⟨rfl, rfl⟩
    · intro storage hstorage
      refine ⟨(h.allocated storage hstorage).1, ?_⟩
      simp [slice?]
  · rename_i hpart
    constructor
    · simp only
      omega
    · exact hfits
    · intro hnone
      have hfilled := (h.unallocated hnone).1
      omega
    · intro storage hstorage
      obtain ⟨hlength, hlive⟩ := h.allocated storage hstorage
      exact ⟨hlength, slice?_drop hlive (by omega)⟩

theorem Holds.clear (h : buffer.Holds live) : buffer.clear.Holds [] := by
  refine ⟨Nat.le_refl 0, Nat.zero_le _, fun _ => ⟨rfl, rfl⟩, ?_⟩
  intro storage hstorage
  refine ⟨(h.allocated storage hstorage).1, ?_⟩
  exact slice?_eq_some_iff.mpr ⟨Nat.le_refl 0, Nat.zero_le _, rfl⟩

theorem Holds.write (h : buffer.Holds live) (data : Bytes) :
    ∃ buffer', buffer.write data =
        .ok (buffer', min data.length (buffer.capacity - live.length)) ∧
      buffer'.Holds (live ++
        data.take (min data.length (buffer.capacity - live.length))) ∧
      buffer'.capacity = buffer.capacity := by
  have hlength := h.length_le
  have hfits : live.length +
      (data.take (min data.length (buffer.capacity - live.length))).length ≤
        buffer.capacity := by
    rw [List.length_take]
    omega
  obtain ⟨buffer', hpush, hholds, hcapacity⟩ := h.push hfits
  refine ⟨buffer', ?_, hholds, hcapacity⟩
  simp only [StreamBuffer.write, h.len_eq, hpush]
  rfl

theorem Holds.writeAll (h : buffer.Holds live) (data : Bytes) :
    (buffer.capacity < live.length + data.length ∧
      buffer.writeAll data = .ok none) ∨
    (live.length + data.length ≤ buffer.capacity ∧
      ∃ buffer', buffer.writeAll data = .ok (some buffer') ∧
        buffer'.Holds (live ++ data) ∧
        buffer'.capacity = buffer.capacity) := by
  have hlength := h.length_le
  cases data with
  | nil =>
      refine .inr ⟨hlength, buffer, rfl, ?_, rfl⟩
      rw [List.append_nil]
      exact h
  | cons octet data =>
      obtain ⟨buffer', hwrite, hholds, hcapacity⟩ := h.write (octet :: data)
      rw [StreamBuffer.writeAll, List.length_cons, writeRounds, if_neg
        (List.cons_ne_nil _ _), hwrite]
      simp only [bind, Except.bind]
      rcases Nat.lt_or_ge buffer.capacity
        (live.length + (octet :: data).length) with hlong | hshort
      · refine .inl ⟨hlong, ?_⟩
        split
        · rfl
        · rename_i hsome
          -- What is left does not fit, and the buffer is full.
          generalize hcount : min (octet :: data).length
            (buffer.capacity - live.length) = count at hholds hsome ⊢
          have hfull : buffer'.capacity - (live ++
              (octet :: data).take count).length = 0 := by
            rw [hcapacity, List.length_append, List.length_take]
            omega
          have hleft : (octet :: data).drop count ≠ [] := by
            rw [ne_eq, List.drop_eq_nil_iff]
            omega
          cases hrounds : data.length with
          | zero => simp only [writeRounds, if_neg hleft]
          | succ rounds =>
              obtain ⟨_, hnext, _⟩ := hholds.write ((octet :: data).drop count)
              rw [hfull, Nat.min_zero] at hnext
              simp only [writeRounds, if_neg hleft, hnext, bind, Except.bind,
                if_true]
      · have hcount : min (octet :: data).length
            (buffer.capacity - live.length) = (octet :: data).length := by
          omega
        refine .inr ⟨hshort, buffer', ?_, ?_, hcapacity⟩
        · rw [hcount, if_neg (by simp), List.drop_length]
          cases data.length <;> simp [writeRounds]
        · rw [hcount, List.take_length] at hholds
          exact hholds

theorem Holds.writeParts (h : buffer.Holds live) (parts : List Bytes) :
    (buffer.capacity < live.length + parts.flatten.length ∧
      buffer.writeParts parts = .ok none) ∨
    (live.length + parts.flatten.length ≤ buffer.capacity ∧
      ∃ buffer', buffer.writeParts parts = .ok (some buffer') ∧
        buffer'.Holds (live ++ parts.flatten)) := by
  induction parts generalizing buffer live with
  | nil =>
      refine .inr ⟨h.length_le, buffer, rfl, ?_⟩
      rw [List.flatten_nil, List.append_nil]
      exact h
  | cons part parts ih =>
      rw [List.flatten_cons, List.length_append]
      rcases h.writeAll part with ⟨hlong, hall⟩ |
        ⟨hshort, buffer', hall, hholds, hcapacity⟩
      · refine .inl ⟨by omega, ?_⟩
        simp only [StreamBuffer.writeParts, hall, bind, Except.bind]
      · have hrest := ih hholds
        rw [hcapacity, List.length_append, Nat.add_assoc, List.append_assoc]
          at hrest
        simp only [StreamBuffer.writeParts, hall, bind, Except.bind]
        exact hrest

@[simp] theorem consume_capacity (buffer : StreamBuffer) (count : Nat) :
    (buffer.consume count).capacity = buffer.capacity := by
  simp only [StreamBuffer.consume]
  split <;> rfl

end StreamBuffer

end Netflector.Net
