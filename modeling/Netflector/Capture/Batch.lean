import Netflector.Foundation.Metered
import Netflector.Foundation.Records
import Netflector.Net.Packet

/-!
# The batches of a BPF capture

One read of a BPF descriptor fills the buffer with a batch of records, each a
header, the captured octets and padding.  Frames are taken from the batch one
by one; only once it is drained does the next call read again.
-/

namespace Netflector.Capture

open Netflector.Foundation
open Netflector.Net

/-- The `bpf_hdr` of a platform: where it holds the captured length, the length
on the wire and its own length, and its size as a struct, which the header
a record starts with need not fill. -/
structure BpfHeader where
  endian : Endian
  caplenAt : Nat
  datalenAt : Nat
  hdrlenAt : Nat
  size : Nat
  unit : Nat
  caplen_le : caplenAt + 4 ≤ hdrlenAt
  datalen_le : datalenAt + 4 ≤ hdrlenAt
  unit_pos : 0 < unit
  unit_le : unit ≤ 8
  size_le : size ≤ roundUp unit (hdrlenAt + 2)
  deriving DecidableEq

def BpfHeader.macos : BpfHeader where
  endian := .little
  caplenAt := 8
  datalenAt := 12
  hdrlenAt := 16
  size := 20
  unit := 4
  caplen_le := by decide
  datalen_le := by decide
  unit_pos := by decide
  unit_le := by decide
  size_le := by decide

def BpfHeader.freebsd : BpfHeader where
  endian := .little
  caplenAt := 16
  datalenAt := 20
  hdrlenAt := 24
  size := 32
  unit := 8
  caplen_le := by decide
  datalen_le := by decide
  unit_pos := by decide
  unit_le := by decide
  size_le := by decide

variable (header : BpfHeader) (wordAlign : Nat → Nat)

inductive BatchError where
  | endedMidHeader
  | pastBatchEnd
  | didNotAdvance
  deriving DecidableEq, Repr

inductive Record where
  | frame (start stop : Nat)
  | oversized (datalen : Nat)
  deriving DecidableEq, Repr

/-- The record at the front of `record`, and how far to advance past it.  The
outer `none` is a panic. -/
def parseRecord (record : Bytes) :
    Option (Except BatchError (Record × Nat)) :=
  if header.size > record.length then some (.error .endedMidHeader)
  else
    let hdrlen := header.endian.read16 record header.hdrlenAt
    let caplen := header.endian.read32 record header.caplenAt
    let datalen := header.endian.read32 record header.datalenAt
    do
      let stop ← Usize.bits64.add hdrlen caplen
      if stop > record.length then some (.error .pastBatchEnd)
      else
        let advance := wordAlign stop
        if advance = 0 then some (.error .didNotAdvance)
        else if datalen > caplen ∨ caplen > maxFrameLen then
          some (.ok (.oversized datalen, advance))
        else some (.ok (.frame hdrlen stop, advance))

structure Batch where
  buf : Bytes
  filled : Nat
  offset : Nat
  deriving DecidableEq

inductive Read where
  | frame (bytes : Bytes)
  | oversized
  deriving DecidableEq, Repr

inductive Refill where
  | failed
  | nothing
  | batch (bytes : Bytes)
  deriving DecidableEq

inductive CaptureError where
  | read
  | malformed (error : BatchError)
  deriving DecidableEq, Repr

def Batch.hasBuffered (batch : Batch) : Bool := batch.offset < batch.filled

def Batch.refill (batch : Batch) (bytes : Bytes) : Batch :=
  ⟨bytes ++ batch.buf.drop bytes.length, bytes.length, 0⟩

def Batch.take (batch : Batch) :
    Option (Except CaptureError (Option Read) × Batch) := do
  let rest ← slice? batch.buf batch.offset batch.filled
  match ← parseRecord header wordAlign rest with
  | .error error =>
      some (.error (.malformed error), { batch with offset := batch.filled })
  | .ok (record, advance) => do
      let next ← Usize.bits64.add batch.offset advance
      let after := { batch with offset := next }
      match record with
      | .frame start stop => do
          let first ← Usize.bits64.add batch.offset start
          let last ← Usize.bits64.add batch.offset stop
          let frame ← slice? batch.buf first last
          some (.ok (some (.frame frame)), after)
      | .oversized _ => some (.ok (some .oversized), after)

/-- `refill` is what a read gives, if it comes to one: only a drained batch
reads again. -/
def Batch.nextFrame (refill : Refill) (batch : Batch) :
    Option (Except CaptureError (Option Read) × Batch) :=
  if batch.offset ≥ batch.filled then
    match refill with
    | .failed => some (.error .read, batch)
    | .nothing => some (.ok none, batch)
    | .batch bytes =>
        if bytes = [] then some (.ok none, batch)
        else (batch.refill bytes).take header wordAlign
  else batch.take header wordAlign

def Batch.drain : Nat → Batch →
    Option (List (Except CaptureError (Option Read)) × Batch)
  | 0, _ => none
  | rounds + 1, batch =>
      if batch.hasBuffered then do
        let (result, batch) ← batch.nextFrame header wordAlign .nothing
        let (results, batch) ← drain rounds batch
        some (result :: results, batch)
      else some ([], batch)

def Batch.calls (refill : Refill) : Nat → Batch →
    Option (List (Except CaptureError (Option Read)) × Batch)
  | 0, batch => some ([], batch)
  | count + 1, batch => do
      let (result, batch) ← batch.nextFrame header wordAlign refill
      let (results, batch) ← calls refill count batch
      some (result :: results, batch)

end Netflector.Capture
