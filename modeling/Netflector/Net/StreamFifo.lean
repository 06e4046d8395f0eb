import Mathlib.Data.List.Induction
import Netflector.Foundation.Fifo
import Netflector.Net.StreamBuffer

/-!
# The stream buffer as a bounded queue

Every sequence of its operations is one of a queue of bytes with the same
capacity, in which a receive may put anything into the tail it is offered.
-/

namespace Netflector.Net.StreamBuffer

open Netflector.Foundation

inductive Op where
  | append (data : Bytes)
  | write (data : Bytes)
  /-- `data` goes into the free tail, as far as it reaches, and up to `count`
  bytes of the tail are committed. -/
  | receive (data : Bytes) (count : Nat)
  | consume (count : Nat)
  | clear

inductive Outcome where
  | appended
  | overflow
  | wrote (count : Nat)
  | received (room : Nat) (bytes : Bytes)
  | done
  deriving DecidableEq

structure Session where
  buffer : StreamBuffer
  fifo : Fifo UInt8

def tail (buffer : StreamBuffer) (count : Nat) : Bytes :=
  ((buffer.storage.getD []).drop buffer.filled).take count

namespace Session

def start (capacity : Nat) : Session := ⟨withCapacity capacity, .empty⟩

/-- No more is committed than offered and no more consumed than live. -/
def step (session : Session) : Op → Except Panic (Session × Outcome)
  | .append data => do
      match ← session.buffer.append data with
      | none => .ok (session, .overflow)
      | some buffer => .ok (⟨buffer, session.fifo.push data⟩, .appended)
  | .write data => do
      let (buffer, count) ← session.buffer.write data
      .ok (⟨buffer, session.fifo.push (data.take count)⟩, .wrote count)
  | .receive data count => do
      let (offered, room) ← session.buffer.freeTailMut
      let buffer := offered.fillTail (data.take room)
      let bytes := buffer.tail (min count room)
      .ok (⟨buffer.commit (min count room), session.fifo.push bytes⟩,
        .received room bytes)
  | .consume count =>
      let count := min count session.buffer.len
      .ok (⟨session.buffer.consume count, session.fifo.pull count⟩, .done)
  | .clear => .ok (⟨session.buffer.clear, session.fifo.clear⟩, .done)

def advance (session : Session) (op : Op) : Except Panic Session := do
  let (session, _) ← session.step op
  .ok session

def run (capacity : Nat) (ops : List Op) : Except Panic Session :=
  ops.foldlM advance (start capacity)

structure Sound (capacity : Nat) (session : Session) : Prop where
  capacity_eq : session.buffer.capacity = capacity
  holds : session.buffer.Holds session.fifo.live

end Session

variable {buffer : StreamBuffer} {live : Bytes}

/-! ## A receive -/

theorem Holds.fillTail (h : buffer.Holds live) {data : Bytes}
    (hfits : buffer.filled + data.length ≤ buffer.capacity) :
    (buffer.fillTail data).Holds live := by
  refine ⟨h.consumed_le, h.filled_le, ?_, ?_⟩
  · intro hnone
    exact h.unallocated (Option.map_eq_none_iff.mp hnone)
  · intro storage' hsome
    obtain ⟨storage, hstorage, rfl⟩ := Option.map_eq_some_iff.mp hsome
    obtain ⟨hlength, hlive⟩ := h.allocated storage hstorage
    have hfilled := h.filled_le
    refine ⟨by rw [overwrite_length (by omega), hlength]; rfl, ?_⟩
    rw [← hlive]
    apply slice?_congr
    · exact hlength ▸ hfilled
    · rw [overwrite_length (by omega)]
      exact hlength ▸ hfilled
    · intro index _ hindex
      exact getElem?_overwrite_lt (by omega) hindex

theorem Holds.committed (h : buffer.Holds live) {count : Nat}
    (hallocated : buffer.storage.isSome)
    (hfits : buffer.filled + count ≤ buffer.capacity) :
    (buffer.commit count).Holds (live ++ buffer.tail count) := by
  obtain ⟨storage, hstorage⟩ := Option.isSome_iff_exists.mp hallocated
  obtain ⟨hlength, hlive⟩ := h.allocated storage hstorage
  obtain ⟨hstart, hstop, rfl⟩ := slice?_eq_some_iff.mp hlive
  refine ⟨?_, hfits, ?_, ?_⟩
  · exact Nat.le_add_right_of_le h.consumed_le
  · intro hnone
    rw [commit, hstorage] at hnone
    cases hnone
  · intro storage' hsome
    rw [commit, hstorage] at hsome
    cases hsome
    refine ⟨hlength, ?_⟩
    rw [slice?_eq_some_iff]
    refine ⟨Nat.le_add_right_of_le hstart, hlength ▸ hfits, ?_⟩
    have hsum : buffer.filled + count - buffer.consumed =
        (buffer.filled - buffer.consumed) + count := by omega
    simp only [commit, tail, hstorage, Option.getD_some, hsum, List.take_add,
      List.drop_drop]
    rw [Nat.add_sub_cancel' hstart]

theorem tail_length (hstorage : buffer.storage.isSome) (h : buffer.Holds live)
    {count : Nat} (hfits : buffer.filled + count ≤ buffer.capacity) :
    (buffer.tail count).length = count := by
  obtain ⟨storage, hstorage⟩ := Option.isSome_iff_exists.mp hstorage
  have hlength := (h.allocated storage hstorage).1
  simp only [tail, hstorage, Option.getD_some, List.length_take,
    List.length_drop]
  omega

theorem tail_fillTail {data : Bytes} {count index : Nat}
    (hstorage : buffer.storage.isSome) (h : buffer.Holds live)
    (hfits : buffer.filled + data.length ≤ buffer.capacity)
    (hcount : index < count) (hdata : index < data.length) :
    ((buffer.fillTail data).tail count)[index]? = data[index]? := by
  obtain ⟨storage, hstorage⟩ := Option.isSome_iff_exists.mp hstorage
  have hlength := (h.allocated storage hstorage).1
  simp only [tail, fillTail, hstorage, Option.map_some, Option.getD_some]
  rw [List.getElem?_take_of_lt hcount, List.getElem?_drop, overwrite,
    List.append_assoc, List.getElem?_append_right (by
      rw [List.length_take]
      omega), List.length_take, Nat.min_eq_left (by omega),
    Nat.add_sub_cancel_left, List.getElem?_append_left hdata]

namespace Session

variable {capacity : Nat} {session : Session}

/-! ## The operations -/

def Meets (capacity : Nat) (session session' : Session) :
    Op → Outcome → Prop
  | .append data, outcome =>
      (outcome = .overflow ∧ session' = session ∧
        capacity < session.fifo.live.length + data.length) ∨
      (outcome = .appended ∧ session'.fifo = session.fifo.push data ∧
        session.fifo.live.length + data.length ≤ capacity)
  | .write data, outcome => ∃ count, outcome = .wrote count ∧
      count = min data.length (capacity - session.fifo.live.length) ∧
      session'.fifo = session.fifo.push (data.take count)
  | .receive data count, outcome => ∃ room bytes,
      outcome = .received room bytes ∧
      (room = 0 ↔ session.fifo.live.length = capacity) ∧
      session.fifo.live.length + room ≤ capacity ∧
      bytes.length = min count room ∧
      (∀ index, index < bytes.length → index < data.length →
        bytes[index]? = data[index]?) ∧
      session'.fifo = session.fifo.push bytes
  | .consume count, outcome => outcome = .done ∧
      session'.fifo =
        session.fifo.pull (min count session.fifo.live.length)
  | .clear, outcome => outcome = .done ∧ session'.fifo = session.fifo.clear

def Answers (capacity : Nat) (session : Session) (op : Op) : Prop :=
  ∃ session' outcome, session.step op = .ok (session', outcome) ∧
    session'.Sound capacity ∧ Meets capacity session session' op outcome

theorem answers_append (h : session.Sound capacity) (data : Bytes) :
    session.Answers capacity (.append data) := by
  obtain ⟨rfl, hholds⟩ := h
  rcases hholds.append data with ⟨hover, happend⟩ |
    ⟨hfits, buffer, happend, hholds', hcapacity⟩
  · refine ⟨session, .overflow, ?_, ⟨rfl, hholds⟩, .inl ⟨rfl, rfl, hover⟩⟩
    simp only [step, happend, bind, Except.bind]
  · refine ⟨⟨buffer, session.fifo.push data⟩, .appended, ?_, ⟨hcapacity, ?_⟩,
      .inr ⟨rfl, rfl, hfits⟩⟩
    · simp only [step, happend, bind, Except.bind]
    · rw [Fifo.live_push]
      exact hholds'

theorem answers_write (h : session.Sound capacity) (data : Bytes) :
    session.Answers capacity (.write data) := by
  obtain ⟨rfl, hholds⟩ := h
  obtain ⟨buffer, hwrite, hholds', hcapacity⟩ := hholds.write data
  refine ⟨⟨buffer, session.fifo.push (data.take _)⟩, .wrote _, ?_,
    ⟨hcapacity, ?_⟩, _, rfl, rfl, rfl⟩
  · simp only [step, hwrite, bind, Except.bind]
  · rw [Fifo.live_push]
    exact hholds'

theorem answers_receive (h : session.Sound capacity) (data : Bytes)
    (count : Nat) : session.Answers capacity (.receive data count) := by
  obtain ⟨rfl, hholds⟩ := h
  obtain ⟨offered, room, htail, hoffered, hcapacity, hstorage, hroom, hfull⟩ :=
    hholds.freeTailMut
  have hdata : offered.filled + (data.take room).length ≤ offered.capacity := by
    rw [List.length_take]
    omega
  have hcount : (offered.fillTail (data.take room)).filled + min count room ≤
      (offered.fillTail (data.take room)).capacity := by
    simp only [StreamBuffer.fillTail]
    omega
  have hfilled := hoffered.fillTail hdata
  have hstored : (offered.fillTail (data.take room)).storage.isSome := by
    rw [StreamBuffer.fillTail, Option.isSome_map]
    exact hstorage
  have hlength := tail_length hstored hfilled hcount
  have hcommitted := hfilled.committed hstored hcount
  have hlive := hoffered.len_eq
  simp only [len] at hlive
  refine ⟨⟨(offered.fillTail (data.take room)).commit (min count room),
      session.fifo.push _⟩, .received room _, ?_, ⟨hcapacity, ?_⟩,
    room, _, rfl, hfull, ?_, hlength, ?_, rfl⟩
  · simp only [step, htail, bind, Except.bind]
  · rw [Fifo.live_push]
    exact hcommitted
  · omega
  · intro index hindex hbound
    rw [hlength] at hindex
    rw [tail_fillTail hstorage hoffered hdata hindex (by
      rw [List.length_take]
      omega), List.getElem?_take_of_lt (by omega)]

theorem answers_consume (h : session.Sound capacity) (count : Nat) :
    session.Answers capacity (.consume count) := by
  obtain ⟨rfl, hholds⟩ := h
  refine ⟨_, .done, rfl, ⟨consume_capacity _ _, ?_⟩, rfl, ?_⟩
  · rw [Fifo.live_pull]
    exact hholds.consume _
  · rw [hholds.len_eq]

theorem answers_clear (h : session.Sound capacity) :
    session.Answers capacity .clear := by
  obtain ⟨rfl, hholds⟩ := h
  refine ⟨_, .done, rfl, ⟨rfl, ?_⟩, rfl, rfl⟩
  rw [Fifo.live_clear]
  exact hholds.clear

theorem answers (h : session.Sound capacity) (op : Op) :
    session.Answers capacity op := by
  cases op with
  | append data => exact answers_append h data
  | write data => exact answers_write h data
  | receive data count => exact answers_receive h data count
  | consume count => exact answers_consume h count
  | clear => exact answers_clear h

/-! ## Runs -/

theorem run_sound (capacity : Nat) (ops : List Op) :
    ∃ session, run capacity ops = .ok session ∧ session.Sound capacity := by
  induction ops using List.reverseRecOn with
  | nil =>
      exact ⟨start capacity, rfl, rfl, holds_withCapacity capacity⟩
  | append_singleton ops op ih =>
      obtain ⟨session, hrun, hsound⟩ := ih
      obtain ⟨session', outcome, hstep, hsound', _⟩ := answers hsound op
      refine ⟨session', ?_, hsound'⟩
      unfold run at hrun
      simp only [run, List.foldlM_append, hrun, List.foldlM_cons,
        List.foldlM_nil, bind, Except.bind, advance, hstep]
      rfl

/-- After any run the buffer is a queue of the bytes put in and not yet taken
out, and so it answers the next operation. -/
theorem refines_fifo (capacity : Nat) (ops : List Op) (op : Op) :
    ∃ session, run capacity ops = .ok session ∧
      session.buffer.pending = .ok (session.fifo.put.drop session.fifo.gone) ∧
      session.buffer.consumed ≤ session.buffer.filled ∧
      session.buffer.filled ≤ capacity ∧
      session.buffer.len = session.fifo.live.length ∧
      (session.buffer.isEmpty = true ↔ session.fifo.live = []) ∧
      session.Answers capacity op := by
  obtain ⟨session, hrun, hsound⟩ := run_sound capacity ops
  refine ⟨session, hrun, hsound.holds.pending, hsound.holds.consumed_le, ?_,
    hsound.holds.len_eq, hsound.holds.isEmpty_iff, answers hsound op⟩
  rw [← hsound.capacity_eq]
  exact hsound.holds.filled_le

end Session

end Netflector.Net.StreamBuffer
