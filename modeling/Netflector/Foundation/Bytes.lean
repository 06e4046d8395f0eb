import Mathlib.Data.List.Basic
import Mathlib.Tactic.Common

/-!
# Byte strings

Byte strings are lists of octets.  This file collects what every wire format
needs of them: checked slices, big-endian fields, in-place overwrites, and the
relation saying that two strings agree except at a set of positions.
-/

namespace Netflector.Foundation

abbrev Bytes := List UInt8

/-! ## Checked slices -/

def slice? (bytes : Bytes) (start stop : Nat) : Option Bytes :=
  if start ≤ stop ∧ stop ≤ bytes.length then
    some ((bytes.drop start).take (stop - start))
  else none

theorem slice?_eq_some_iff {bytes part : Bytes} {start stop : Nat} :
    slice? bytes start stop = some part ↔
      start ≤ stop ∧ stop ≤ bytes.length ∧
        part = (bytes.drop start).take (stop - start) := by
  unfold slice?
  split
  · rename_i h
    simp [h.1, h.2, eq_comm]
  · rename_i h
    simp only [reduceCtorEq, false_iff]
    intro hrange
    exact h ⟨hrange.1, hrange.2.1⟩

theorem slice?_length {bytes part : Bytes} {start stop : Nat}
    (h : slice? bytes start stop = some part) :
    part.length = stop - start := by
  obtain ⟨_, hstop, rfl⟩ := slice?_eq_some_iff.mp h
  rw [List.length_take, List.length_drop]
  omega

theorem slice?_isSome (bytes : Bytes) {start stop : Nat}
    (hle : start ≤ stop) (hstop : stop ≤ bytes.length) :
    ∃ part, slice? bytes start stop = some part :=
  ⟨_, slice?_eq_some_iff.mpr ⟨hle, hstop, rfl⟩⟩

theorem getElem?_of_slice? {bytes part : Bytes} {start stop : Nat}
    (h : slice? bytes start stop = some part) (index : Nat)
    (hindex : index < stop - start) :
    part[index]? = bytes[start + index]? := by
  obtain ⟨_, _, rfl⟩ := slice?_eq_some_iff.mp h
  rw [List.getElem?_take_of_lt hindex, List.getElem?_drop]

theorem slice?_congr {first second : Bytes} {start stop : Nat}
    (hfirst : stop ≤ first.length) (hsecond : stop ≤ second.length)
    (h : ∀ index, start ≤ index → index < stop →
      second[index]? = first[index]?) :
    slice? second start stop = slice? first start stop := by
  unfold slice?
  by_cases hle : start ≤ stop
  · rw [if_pos ⟨hle, hsecond⟩, if_pos ⟨hle, hfirst⟩]
    congr 1
    apply List.ext_getElem?
    intro index
    by_cases hindex : index < stop - start
    · rw [List.getElem?_take_of_lt hindex, List.getElem?_take_of_lt hindex,
        List.getElem?_drop, List.getElem?_drop]
      exact h _ (by omega) (by omega)
    · rw [List.getElem?_take_eq_none (by omega),
        List.getElem?_take_eq_none (by omega)]
  · rw [if_neg (by tauto), if_neg (by tauto)]

@[simp] theorem slice?_append_middle (before part after : Bytes) :
    slice? (before ++ part ++ after) before.length
      (before.length + part.length) = some part := by
  rw [slice?_eq_some_iff]
  refine ⟨by omega, by simp, ?_⟩
  simp

/-! ## Big-endian fields -/

def be16 (high low : UInt8) : Nat := high.toNat * 256 + low.toNat

theorem be16_lt (high low : UInt8) : be16 high low < 65536 := by
  have hhigh := high.toNat_lt
  have hlow := low.toNat_lt
  simp only [be16]
  omega

/-- The two octets of a 16-bit value, high first; larger values wrap. -/
def toBe16 (value : Nat) : Bytes :=
  [UInt8.ofNat (value / 256), UInt8.ofNat value]

@[simp] theorem toBe16_length (value : Nat) : (toBe16 value).length = 2 := rfl

theorem be16_toBe16 {value : Nat} (h : value < 65536) :
    be16 (UInt8.ofNat (value / 256)) (UInt8.ofNat value) = value := by
  simp only [be16, UInt8.toNat_ofNat']
  omega

def toBe32 (value : UInt32) : Bytes :=
  toBe16 (value.toNat / 65536) ++ toBe16 value.toNat

def be32 (first second third fourth : UInt8) : UInt32 :=
  UInt32.ofNat (be16 first second * 65536 + be16 third fourth)

def be16At (bytes : Bytes) (offset : Nat) : Option Nat := do
  let high ← bytes[offset]?
  let low ← bytes[offset + 1]?
  some (be16 high low)

theorem be16At_eq_some_iff {bytes : Bytes} {offset value : Nat} :
    be16At bytes offset = some value ↔
      ∃ high low, bytes[offset]? = some high ∧
        bytes[offset + 1]? = some low ∧ be16 high low = value := by
  unfold be16At
  cases hhigh : bytes[offset]? with
  | none => simp
  | some high =>
      cases hlow : bytes[offset + 1]? with
      | none => simp
      | some low => simp

theorem be16At_isSome {bytes : Bytes} {offset : Nat}
    (h : offset + 2 ≤ bytes.length) :
    ∃ value, be16At bytes offset = some value := by
  have hhigh : offset < bytes.length := by omega
  have hlow : offset + 1 < bytes.length := by omega
  exact ⟨_, be16At_eq_some_iff.mpr ⟨_, _,
    List.getElem?_eq_getElem hhigh, List.getElem?_eq_getElem hlow, rfl⟩⟩

theorem be16At_lt {bytes : Bytes} {offset value : Nat}
    (h : be16At bytes offset = some value) : value < 65536 := by
  obtain ⟨high, low, _, _, rfl⟩ := be16At_eq_some_iff.mp h
  exact be16_lt high low

theorem be16At_congr {first second : Bytes} {offset : Nat}
    (hhigh : second[offset]? = first[offset]?)
    (hlow : second[offset + 1]? = first[offset + 1]?) :
    be16At second offset = be16At first offset := by
  unfold be16At
  rw [hhigh, hlow]

theorem be16At_append_middle {before after : Bytes} {value : Nat}
    (h : value < 65536) :
    be16At (before ++ toBe16 value ++ after) before.length = some value := by
  rw [be16At_eq_some_iff]
  exact ⟨_, _, by simp [toBe16], by simp [toBe16], be16_toBe16 h⟩

/-! ## Overwriting in place -/

def overwrite (bytes : Bytes) (offset : Nat) (data : Bytes) : Bytes :=
  bytes.take offset ++ data ++ bytes.drop (offset + data.length)

@[simp] theorem overwrite_length {bytes data : Bytes} {offset : Nat}
    (h : offset + data.length ≤ bytes.length) :
    (overwrite bytes offset data).length = bytes.length := by
  simp [overwrite]
  omega

theorem overwrite_append (before : Bytes) {old : Bytes} (after : Bytes)
    {data : Bytes} (h : data.length = old.length) :
    overwrite (before ++ old ++ after) before.length data =
      before ++ data ++ after := by
  simp [overwrite, h]

theorem getElem?_overwrite_lt {bytes data : Bytes} {offset index : Nat}
    (h : offset + data.length ≤ bytes.length) (hindex : index < offset) :
    (overwrite bytes offset data)[index]? = bytes[index]? := by
  unfold overwrite
  rw [List.append_assoc, List.getElem?_append_left (by simp; omega),
    List.getElem?_take_of_lt hindex]

theorem getElem?_overwrite_ge {bytes data : Bytes} {offset index : Nat}
    (h : offset + data.length ≤ bytes.length)
    (hindex : offset + data.length ≤ index) :
    (overwrite bytes offset data)[index]? = bytes[index]? := by
  unfold overwrite
  have hlength : (bytes.take offset ++ data).length = offset + data.length := by
    simp
    omega
  rw [List.getElem?_append_right (by omega), hlength, List.getElem?_drop]
  congr 1
  omega

theorem getElem?_overwrite_mid {bytes data : Bytes} {offset : Nat}
    (h : offset + data.length ≤ bytes.length) (index : Nat)
    (hindex : index < data.length) :
    (overwrite bytes offset data)[offset + index]? = data[index]? := by
  unfold overwrite
  have htake : (bytes.take offset).length = offset := by
    simp
    omega
  rw [List.append_assoc, List.getElem?_append_right (by omega), htake,
    List.getElem?_append_left (by omega)]
  congr 1
  omega

theorem slice?_overwrite_front {bytes part : Bytes} {start stop : Nat}
    (h : slice? bytes start stop = some part) :
    slice? (overwrite bytes 0 part) 0 (stop - start) = some part := by
  have hlength := slice?_length h
  obtain ⟨_, hstop, _⟩ := slice?_eq_some_iff.mp h
  rw [slice?_eq_some_iff]
  refine ⟨Nat.zero_le _, ?_, ?_⟩
  · rw [overwrite_length (by omega)]
    omega
  · simp [overwrite, ← hlength]

theorem slice?_overwrite_behind {bytes part data : Bytes} {start stop : Nat}
    (h : slice? bytes start stop = some part)
    (hdata : stop + data.length ≤ bytes.length) :
    slice? (overwrite bytes stop data) start (stop + data.length) =
      some (part ++ data) := by
  obtain ⟨hstart, hstop, rfl⟩ := slice?_eq_some_iff.mp h
  rw [slice?_eq_some_iff]
  refine ⟨by omega, ?_, ?_⟩
  · rw [overwrite_length hdata]
    exact hdata
  · have hfront : (bytes.take stop).length = stop := by
      rw [List.length_take]
      omega
    have hpart : ((bytes.take stop).drop start).length = stop - start := by
      rw [List.length_drop]
      omega
    rw [overwrite, List.append_assoc,
      List.drop_append_of_le_length (by omega), ← List.append_assoc,
      ← List.drop_take, List.take_append_of_le_length
        (by rw [List.length_append]; omega)]
    symm
    apply List.take_of_length_le
    rw [List.length_append]
    omega

theorem slice?_drop {bytes part : Bytes} {start stop : Nat}
    (h : slice? bytes start stop = some part) {count : Nat}
    (hcount : start + count ≤ stop) :
    slice? bytes (start + count) stop = some (part.drop count) := by
  obtain ⟨_, hstop, rfl⟩ := slice?_eq_some_iff.mp h
  rw [slice?_eq_some_iff]
  refine ⟨hcount, hstop, ?_⟩
  rw [List.drop_take, List.drop_drop, Nat.sub_add_eq]

theorem be16At_overwrite_self (bytes : Bytes) {offset value : Nat}
    (h : offset + (toBe16 value).length ≤ bytes.length)
    (hvalue : value < 65536) :
    be16At (overwrite bytes offset (toBe16 value)) offset = some value := by
  rw [be16At_eq_some_iff]
  refine ⟨_, _, ?_, ?_, be16_toBe16 hvalue⟩
  · simpa [toBe16] using
      getElem?_overwrite_mid h 0 (by simp)
  · simpa [toBe16] using
      getElem?_overwrite_mid h 1 (by simp)

/-! ## Agreement outside a set of positions -/

/-- `second` is at least as long as `first` and has the same octets at every
position of `first` outside `hole`. -/
structure AgreeOutside (hole : Nat → Prop) (first second : Bytes) : Prop where
  length_le : first.length ≤ second.length
  getElem?_eq : ∀ index, index < first.length → ¬ hole index →
    second[index]? = first[index]?

namespace AgreeOutside

variable {hole : Nat → Prop} {first second third : Bytes}

theorem refl (hole : Nat → Prop) (bytes : Bytes) :
    AgreeOutside hole bytes bytes :=
  ⟨Nat.le_refl _, fun _ _ _ => rfl⟩

theorem trans (h₁ : AgreeOutside hole first second)
    (h₂ : AgreeOutside hole second third) : AgreeOutside hole first third := by
  refine ⟨Nat.le_trans h₁.length_le h₂.length_le, fun index hindex hout => ?_⟩
  have hlength := h₁.length_le
  rw [h₂.getElem?_eq index (by omega) hout, h₁.getElem?_eq index hindex hout]

theorem append (hole : Nat → Prop) (bytes suffix : Bytes) :
    AgreeOutside hole bytes (bytes ++ suffix) :=
  ⟨by simp, fun _ hindex _ => List.getElem?_append_left hindex⟩

theorem of_append {suffix : Bytes}
    (h : AgreeOutside hole (first ++ suffix) second) :
    AgreeOutside hole first second :=
  (append hole first suffix).trans h

theorem narrow {smaller : Nat → Prop}
    (hsub : ∀ index, index < first.length → hole index → smaller index)
    (h : AgreeOutside hole first second) :
    AgreeOutside smaller first second :=
  ⟨h.length_le, fun index hindex hout =>
    h.getElem?_eq index hindex fun hhole => hout (hsub index hindex hhole)⟩

theorem slice? {start stop : Nat} (h : AgreeOutside hole first second)
    (hstop : stop ≤ first.length)
    (hout : ∀ index, start ≤ index → index < stop → ¬ hole index) :
    slice? second start stop = slice? first start stop :=
  slice?_congr hstop (Nat.le_trans hstop h.length_le) fun index hstart hlt =>
    h.getElem?_eq index (by omega) (hout index hstart hlt)

end AgreeOutside

end Netflector.Foundation
