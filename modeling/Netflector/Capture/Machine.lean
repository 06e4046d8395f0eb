import Netflector.Foundation.Bytes
import Netflector.Foundation.Result

/-!
# The classic BPF machine

Loads are big-endian and one past the end drops the frame.  Only the opcodes
that the classifiers use are modelled.
-/

namespace Netflector.Capture

open Netflector.Foundation

structure BpfInsn where
  code : UInt16
  jt : UInt8
  jf : UInt8
  k : UInt32
  deriving DecidableEq, Repr

def insn (code : UInt16) (jt jf : UInt8) (k : UInt32) : BpfInsn :=
  ⟨code, jt, jf, k⟩

/-- Linux `SKF_AD_OFF`: an absolute load at or above it reads metadata. -/
def ancillaryOff : UInt32 := 0xfffff000

def bigEndian (bytes : Bytes) : UInt32 :=
  bytes.foldl (fun word byte => word <<< 8 ||| byte.toUInt32) 0

def load (frame : Bytes) (offset : UInt32) (size : Nat) : Option UInt32 :=
  (slice? frame offset.toNat (offset.toNat + size)).map bigEndian

abbrev Ancillary := UInt32 → Option UInt32

/-- What a load or an operation leaves in the accumulator, or `none` for a load
past the end. -/
inductive Effect where
  | accumulate (loaded : Option UInt32)
  | index (value : UInt32)
  | jump (offset : UInt8)
  | stop (verdict : UInt32)
  | unmodelled

def effect (frame : Bytes) (ancillary : Ancillary) (insn : BpfInsn)
    (a x : UInt32) : Effect :=
  let code := insn.code
  let k := insn.k
  if (code = 0x0020 ∨ code = 0x0028 ∨ code = 0x0030) ∧ ancillaryOff ≤ k then
    .accumulate (ancillary k)
  else if code = 0x0020 then .accumulate (load frame k 4)
  else if code = 0x0028 then .accumulate (load frame k 2)
  else if code = 0x0030 then .accumulate (load frame k 1)
  else if code = 0x0048 then .accumulate (load frame (x + k) 2)
  else if code = 0x0050 then .accumulate (load frame (x + k) 1)
  else if code = 0x0001 then .index k
  else if code = 0x0054 then .accumulate (some (a &&& k))
  else if code = 0x0015 then .jump (if a = k then insn.jt else insn.jf)
  else if code = 0x0045 then .jump (if a &&& k ≠ 0 then insn.jt else insn.jf)
  else if code = 0x0006 then .stop k
  else .unmodelled

/-- Run what is left of a program once `skip` instructions are jumped over.
Every jump is forward, so what is left only shrinks. -/
def runFrom (frame : Bytes) (ancillary : Ancillary) :
    List BpfInsn → Nat → UInt32 → UInt32 → Except Panic UInt32
  | [], _, _, _ => .error .outOfRange
  | _ :: program, skip + 1, a, x => runFrom frame ancillary program skip a x
  | insn :: program, 0, a, x =>
      match effect frame ancillary insn a x with
      | .accumulate (some a) => runFrom frame ancillary program 0 a x
      | .accumulate none => .ok 0
      | .index x => runFrom frame ancillary program 0 a x
      | .jump offset => runFrom frame ancillary program offset.toNat a x
      | .stop verdict => .ok verdict
      | .unmodelled => .error (.expect "opcode is not modeled")

def runWith (program : List BpfInsn) (frame : Bytes) (ancillary : Ancillary) :
    Except Panic UInt32 :=
  runFrom frame ancillary program 0 0 0

/-! ## Running one instruction -/

section Run

variable {frame : Bytes} {ancillary : Ancillary} {program : List BpfInsn}
  {a x : UInt32}

@[simp] theorem runFrom_skip (insn : BpfInsn) (skip : Nat) :
    runFrom frame ancillary (insn :: program) (skip + 1) a x =
      runFrom frame ancillary program skip a x :=
  rfl

def runLoaded (frame : Bytes) (ancillary : Ancillary)
    (program : List BpfInsn) (loaded : Option UInt32) (x : UInt32) :
    Except Panic UInt32 :=
  match loaded with
  | some a => runFrom frame ancillary program 0 a x
  | none => .ok 0

@[simp] theorem runLoaded_some (value : UInt32) :
    runLoaded frame ancillary program (some value) x =
      runFrom frame ancillary program 0 value x :=
  rfl

@[simp] theorem runLoaded_none :
    runLoaded frame ancillary program none x = .ok 0 :=
  rfl

theorem runFrom_accumulate {insn : BpfInsn} {loaded : Option UInt32}
    (h : effect frame ancillary insn a x = .accumulate loaded) :
    runFrom frame ancillary (insn :: program) 0 a x =
      runLoaded frame ancillary program loaded x := by
  rw [runFrom, h]
  cases loaded with
  | none => rfl
  | some value => rfl

theorem runFrom_index {insn : BpfInsn} {value : UInt32}
    (h : effect frame ancillary insn a x = .index value) :
    runFrom frame ancillary (insn :: program) 0 a x =
      runFrom frame ancillary program 0 a value := by
  rw [runFrom, h]

@[simp] theorem runFrom_ldx (k : UInt32) :
    runFrom frame ancillary (insn 0x0001 0 0 k :: program) 0 a x =
      runFrom frame ancillary program 0 a k :=
  runFrom_index (by simp [effect, insn])

@[simp] theorem runFrom_word {k : UInt32} (h : k < ancillaryOff) :
    runFrom frame ancillary (insn 0x0020 0 0 k :: program) 0 a x =
      runLoaded frame ancillary program (load frame k 4) x :=
  runFrom_accumulate (by simp [effect, insn, UInt32.not_le.mpr h])

@[simp] theorem runFrom_half {k : UInt32} (h : k < ancillaryOff) :
    runFrom frame ancillary (insn 0x0028 0 0 k :: program) 0 a x =
      runLoaded frame ancillary program (load frame k 2) x :=
  runFrom_accumulate (by simp [effect, insn, UInt32.not_le.mpr h])

@[simp] theorem runFrom_byte {k : UInt32} (h : k < ancillaryOff) :
    runFrom frame ancillary (insn 0x0030 0 0 k :: program) 0 a x =
      runLoaded frame ancillary program (load frame k 1) x :=
  runFrom_accumulate (by simp [effect, insn, UInt32.not_le.mpr h])

@[simp] theorem runFrom_ancillaryWord {k : UInt32} (h : ancillaryOff ≤ k) :
    runFrom frame ancillary (insn 0x0020 0 0 k :: program) 0 a x =
      runLoaded frame ancillary program (ancillary k) x :=
  runFrom_accumulate (by simp [effect, insn, h])

@[simp] theorem runFrom_ancillaryByte {k : UInt32} (h : ancillaryOff ≤ k) :
    runFrom frame ancillary (insn 0x0030 0 0 k :: program) 0 a x =
      runLoaded frame ancillary program (ancillary k) x :=
  runFrom_accumulate (by simp [effect, insn, h])

@[simp] theorem runFrom_halfIndexed (k : UInt32) :
    runFrom frame ancillary (insn 0x0048 0 0 k :: program) 0 a x =
      runLoaded frame ancillary program (load frame (x + k) 2) x :=
  runFrom_accumulate (by simp [effect, insn])

@[simp] theorem runFrom_byteIndexed (k : UInt32) :
    runFrom frame ancillary (insn 0x0050 0 0 k :: program) 0 a x =
      runLoaded frame ancillary program (load frame (x + k) 1) x :=
  runFrom_accumulate (by simp [effect, insn])

@[simp] theorem runFrom_and (k : UInt32) :
    runFrom frame ancillary (insn 0x0054 0 0 k :: program) 0 a x =
      runFrom frame ancillary program 0 (a &&& k) x := by
  have h : effect frame ancillary (insn 0x0054 0 0 k) a x =
      .accumulate (some (a &&& k)) := by simp [effect, insn]
  exact runFrom_accumulate h

@[simp] theorem runFrom_jeq (jt jf : UInt8) (k : UInt32) :
    runFrom frame ancillary (insn 0x0015 jt jf k :: program) 0 a x =
      if a = k then runFrom frame ancillary program jt.toNat a x
      else runFrom frame ancillary program jf.toNat a x := by
  by_cases h : a = k
  · rw [if_pos h]
    simp [runFrom, effect, insn, h]
  · rw [if_neg h]
    simp [runFrom, effect, insn, h]

@[simp] theorem runFrom_jset (jt jf : UInt8) (k : UInt32) :
    runFrom frame ancillary (insn 0x0045 jt jf k :: program) 0 a x =
      if a &&& k = 0 then runFrom frame ancillary program jf.toNat a x
      else runFrom frame ancillary program jt.toNat a x := by
  by_cases h : a &&& k = 0
  · rw [if_pos h]
    simp [runFrom, effect, insn, h]
  · rw [if_neg h]
    simp [runFrom, effect, insn, h]

@[simp] theorem runFrom_ret (k : UInt32) :
    runFrom frame ancillary (insn 0x0006 0 0 k :: program) 0 a x = .ok k := by
  simp [runFrom, effect, insn]

end Run

/-! ## Loads -/

theorem bigEndian_step {word : UInt32} (byte : UInt8)
    (h : word.toNat < 0x1000000) :
    (word <<< 8 ||| byte.toUInt32).toNat = word.toNat * 256 + byte.toNat := by
  have hbyte := byte.toNat_lt
  rw [UInt32.toNat_or, UInt32.toNat_shiftLeft, UInt8.toNat_toUInt32]
  simp only [UInt32.reduceToNat, Nat.reduceMod]
  rw [Nat.mod_eq_of_lt (by rw [Nat.shiftLeft_eq]; omega),
    ← Nat.shiftLeft_add_eq_or_of_lt (by omega), Nat.shiftLeft_eq]

theorem bigEndian_one (byte : UInt8) :
    (bigEndian [byte]).toNat = byte.toNat := by
  rw [bigEndian, List.foldl_cons, List.foldl_nil,
    bigEndian_step byte (by decide)]
  simp

theorem bigEndian_two (high low : UInt8) :
    (bigEndian [high, low]).toNat = be16 high low := by
  have hone := bigEndian_one high
  simp only [bigEndian, List.foldl_cons, List.foldl_nil] at *
  have hhigh := high.toNat_lt
  rw [bigEndian_step low (by omega), hone, be16]

theorem bigEndian_four (first second third fourth : UInt8) :
    (bigEndian [first, second, third, fourth]).toNat =
      be16 first second * 65536 + be16 third fourth := by
  have htwo := bigEndian_two first second
  have hlt := be16_lt first second
  have hthird := third.toNat_lt
  simp only [bigEndian, List.foldl_cons, List.foldl_nil] at *
  rw [bigEndian_step fourth (by rw [bigEndian_step third (by omega)]; omega),
    bigEndian_step third (by omega), htwo]
  simp only [be16]
  omega

theorem slice?_one {frame : Bytes} {index : Nat} {byte : UInt8}
    (h : frame[index]? = some byte) :
    slice? frame index (index + 1) = some [byte] := by
  obtain ⟨hlength, hget⟩ := List.getElem?_eq_some_iff.mp h
  rw [slice?_eq_some_iff]
  refine ⟨Nat.le_add_right _ _, hlength, ?_⟩
  rw [Nat.add_sub_cancel_left, List.drop_eq_getElem_cons hlength, hget]
  rfl

theorem slice?_two {frame : Bytes} {index : Nat} {high low : UInt8}
    (hhigh : frame[index]? = some high)
    (hlow : frame[index + 1]? = some low) :
    slice? frame index (index + 2) = some [high, low] := by
  obtain ⟨hstart, hgetHigh⟩ := List.getElem?_eq_some_iff.mp hhigh
  obtain ⟨hlength, hgetLow⟩ := List.getElem?_eq_some_iff.mp hlow
  rw [slice?_eq_some_iff]
  refine ⟨Nat.le_add_right _ _, hlength, ?_⟩
  rw [Nat.add_sub_cancel_left, List.drop_eq_getElem_cons hstart, hgetHigh,
    List.drop_eq_getElem_cons hlength, hgetLow]
  rfl

theorem load_byte {frame : Bytes} {offset : UInt32} {index : Nat}
    (hindex : offset.toNat = index) :
    load frame offset 1 = frame[index]?.map UInt8.toUInt32 := by
  rw [load, hindex]
  cases hbyte : frame[index]? with
  | none =>
      have hlength := List.getElem?_eq_none_iff.mp hbyte
      rw [slice?, if_neg (by omega)]
      rfl
  | some byte =>
      rw [slice?_one hbyte]
      simp only [Option.map_some, Option.some.injEq]
      apply UInt32.toNat_inj.mp
      rw [bigEndian_one, UInt8.toNat_toUInt32]

theorem load_half {frame : Bytes} {offset : UInt32} {index : Nat}
    (hindex : offset.toNat = index) :
    load frame offset 2 = (be16At frame index).map UInt32.ofNat := by
  rw [load, hindex]
  cases hhalf : be16At frame index with
  | none =>
      have hlength : ¬ index + 2 ≤ frame.length := by
        intro hlength
        obtain ⟨value, hvalue⟩ := be16At_isSome hlength
        rw [hhalf] at hvalue
        cases hvalue
      rw [slice?, if_neg (by omega)]
      rfl
  | some value =>
      obtain ⟨high, low, hhigh, hlow, rfl⟩ := be16At_eq_some_iff.mp hhalf
      have hlt := be16_lt high low
      rw [slice?_two hhigh hlow]
      simp only [Option.map_some, Option.some.injEq]
      apply UInt32.toNat_inj.mp
      rw [bigEndian_two, UInt32.toNat_ofNat']
      omega

end Netflector.Capture
