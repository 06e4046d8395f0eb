import Netflector.Interface.Netlink

/-!
# The walks visit exactly the messages

Each of the four walks is the walk of a record format: whatever the buffer,
its rounds are the format's, so it never panics, moves forward and ends; and
on a buffer made of messages those are what it visits.
-/

namespace Netflector.Interface

open Netflector.Foundation
open Netflector.Dispatch

/-! ## The formats -/

def rtattrFormat (endian : Endian) : Format where
  headerLen := rtattrLen
  fields := 2
  least := rtattrLen
  unit := 4
  lengthOf := fun bytes => endian.read16 bytes 0
  least_pos := Nat.succ_pos 3
  unit_pos := Nat.succ_pos 3
  lengthOf_append := fun _ more h => endian.read16_append h more

def nlmsgFormat (endian : Endian) : Format where
  headerLen := nlmsghdrLen
  fields := 4
  least := nlmsghdrLen
  unit := 4
  lengthOf := fun bytes => endian.read32 bytes 0
  least_pos := Nat.succ_pos 15
  unit_pos := Nat.succ_pos 3
  lengthOf_append := fun _ more h => endian.read32_append h more

/-- Routing messages are not padded. -/
def routeFormat (endian : Endian) : Format where
  headerLen := routeHeaderLen
  fields := 2
  least := routeHeaderLen
  unit := 1
  lengthOf := fun bytes => endian.read16 bytes 0
  least_pos := Nat.succ_pos _
  unit_pos := Nat.one_pos
  lengthOf_append := fun _ more h => endian.read16_append h more

/-! ## Reading -/

/-- What the walks rely on: the buffer is a slice, and `NLMSG_ALIGN` rounds
the lengths that fit it up to four. -/
structure Target.Fits (target : Target) (buf : Bytes) : Prop where
  length_le : buf.length ≤ target.usize.maxLen
  align_eq : ∀ len, len ≤ buf.length ∨ len ≤ nlmsghdrLen →
    target.nlmsgAlign len = roundUp 4 len

variable {target : Target} {buf : Bytes}

theorem readAt_some (hfits : buf.length ≤ target.usize.maxLen)
    {offset size : Nat} (h : offset + size ≤ buf.length) :
    readAt target buf offset size = some ((buf.drop offset).take size) := by
  have hroom := target.usize.maxLen_lt_top
  unfold readAt
  rw [Usize.add_eq (by omega)]
  rw [slice?_eq_some_iff]
  exact ⟨by omega, h, by rw [Nat.add_sub_cancel_left]⟩

theorem readAt_none {offset size : Nat} (h : buf.length < offset + size) :
    readAt target buf offset size = none := by
  unfold readAt Usize.add
  split
  · rfl
  · rename_i stop hstop
    split at hstop
    · cases hstop
      exact if_neg (by omega)
    · cases hstop

theorem Target.Fits.nlAlign_eq (h : target.Fits buf) {len : Nat}
    (hlen : len ≤ buf.length ∨ len ≤ nlmsghdrLen) :
    nlAlign target len = some (roundUp 4 len) := by
  unfold nlAlign
  rw [h.align_eq len hlen, if_pos (Int.natCast_nonneg _), Int.toNat_natCast]

theorem Target.Fits.add_step (h : target.Fits buf) {offset len : Nat}
    (hlen : offset + len ≤ buf.length) :
    target.usize.add offset (roundUp 4 len) =
      some (offset + roundUp 4 len) := by
  have hroom := target.usize.maxLen_lt_top
  have hle := roundUp_le 4 len
  have hfits := h.length_le
  exact Usize.add_eq (by omega)

theorem record_length {offset len : Nat} (h : offset + len ≤ buf.length) :
    ((buf.drop offset).take len).length = len := by
  rw [List.length_take, List.length_drop]
  omega

theorem record_tail {offset start len : Nat} (hstart : start ≤ len)
    (h : offset + len ≤ buf.length) :
    slice? buf (offset + start) (offset + len) =
      some (((buf.drop offset).take len).drop start) := by
  rw [slice?_eq_some_iff]
  refine ⟨by omega, h, ?_⟩
  rw [List.drop_take, List.drop_drop]
  congr 1
  omega

/-! ## Attributes -/

def attributeOf (endian : Endian) (record : Bytes) : Attribute :=
  ⟨endian.read16 record 2, record.drop rtattrLen⟩

theorem rtattrsNext_eq (h : target.Fits buf) (offset : Nat) :
    rtattrsNext target buf offset =
      some ((rtattrFormat target.endian).roundAt
        (fun _ record => .ok [attributeOf target.endian record]) () buf
        offset) := by
  have hfits := h.length_le
  have hroom := target.usize.maxLen_lt_top
  unfold rtattrsNext
  by_cases hheader : offset + 4 ≤ buf.length
  · have hlong : 4 ≤ (buf.drop offset).length := by
      rw [List.length_drop]
      omega
    have hread : readAt target buf offset rtattrLen =
        some ((buf.drop offset).take 4) := readAt_some hfits hheader
    have hshort := target.endian.read16_lt (buf.drop offset) 0
    obtain ⟨len, hlen⟩ : ∃ len, target.endian.read16 (buf.drop offset) 0 = len :=
      ⟨_, rfl⟩
    simp only [hread, target.endian.read16_take (by omega : 0 + 2 ≤ 4) hlong,
      target.endian.read16_take (by omega : 2 + 2 ≤ 4) hlong, hlen]
    rw [hlen] at hshort
    by_cases hleast : len < rtattrLen
    · rw [if_pos hleast, Format.roundAt_none
        (Format.recordAt_misfit hheader hlen (.inl hleast))]
    · have hstart := Nat.le_of_not_lt hleast
      simp only [if_neg hleast, Usize.add_eq
        (show offset + len < target.usize.top by omega), Option.bind_eq_bind,
        Option.bind_some]
      by_cases hstop : offset + len > buf.length
      · rw [if_pos hstop, Format.roundAt_none
          (Format.recordAt_misfit hheader hlen (.inr hstop))]
      · have hin := Nat.le_of_not_lt hstop
        have hrecord : (rtattrFormat target.endian).recordAt buf offset =
            some ((buf.drop offset).take len) :=
          Format.recordAt_fits hheader hlen hstart hin
        have hkind : target.endian.read16 ((buf.drop offset).take len) 2 =
            target.endian.read16 (buf.drop offset) 2 :=
          target.endian.read16_take hstart (by rw [List.length_drop]; omega)
        have hdata : slice? buf (offset + 4) (offset + len) =
            some (((buf.drop offset).take len).drop 4) := record_tail hstart hin
        rw [if_neg hstop, Format.roundAt_go hrecord rfl]
        simp only [rtattrLen, attributeOf, hdata, hkind, record_length hin,
          Usize.add_eq (show offset + 4 < target.usize.top by omega),
          h.nlAlign_eq (.inl (by omega : len ≤ buf.length)), h.add_step hin,
          Option.bind_some]
        rfl
  · rw [Format.roundAt_none (Format.recordAt_short (show 0 < 4 by omega)
      (Nat.lt_of_not_le hheader))]
    have hread : readAt target buf offset rtattrLen = none :=
      readAt_none (Nat.lt_of_not_le hheader)
    simp only [hread]

/-! ## Netlink messages -/

inductive Found (target : Target) (buf : Bytes) (offset : Nat) : Prop
  | short (hread : readAt target buf offset nlmsghdrLen = none)
      (hrecord : (nlmsgFormat target.endian).recordAt buf offset = none)
  | misfit (header : Bytes)
      (hread : readAt target buf offset nlmsghdrLen = some header)
      (hmisfits :
        misfits target buf offset (target.endian.read32 header 0) = true)
      (hrecord : (nlmsgFormat target.endian).recordAt buf offset = none)
  | message (header record : Bytes)
      (hread : readAt target buf offset nlmsghdrLen = some header)
      (hlen : target.endian.read32 header 0 = record.length)
      (hkind : target.endian.read16 header 4 = target.endian.read16 record 4)
      (hmisfits : misfits target buf offset record.length = false)
      (hlong : nlmsghdrLen ≤ record.length)
      (hin : offset + record.length ≤ buf.length)
      (htake : record = (buf.drop offset).take record.length)
      (hrecord :
        (nlmsgFormat target.endian).recordAt buf offset = some record)

theorem misfits_eq (hfits : buf.length ≤ target.usize.maxLen)
    (offset len : Nat) :
    misfits target buf offset len =
      decide (len < nlmsghdrLen ∨ buf.length < offset + len) := by
  have hroom := target.usize.maxLen_lt_top
  unfold misfits Usize.add
  by_cases hadd : offset + len < target.usize.top
  · simp only [if_pos hadd, Bool.decide_or]
  · simp only [if_neg hadd, Bool.or_true]
    exact (decide_eq_true (.inr (by omega))).symm

theorem found (hfits : buf.length ≤ target.usize.maxLen) (offset : Nat) :
    Found target buf offset := by
  by_cases hheader : offset + 16 ≤ buf.length
  · have hlong : 16 ≤ (buf.drop offset).length := by
      rw [List.length_drop]
      omega
    have hread : readAt target buf offset nlmsghdrLen =
        some ((buf.drop offset).take 16) := readAt_some hfits hheader
    obtain ⟨len, hlen⟩ :
        ∃ len, target.endian.read32 (buf.drop offset) 0 = len := ⟨_, rfl⟩
    have hfield : target.endian.read32 ((buf.drop offset).take 16) 0 = len :=
      (target.endian.read32_take (by omega) hlong).trans hlen
    by_cases hfit : len < nlmsghdrLen ∨ buf.length < offset + len
    · refine .misfit _ hread ?_ (Format.recordAt_misfit hheader hlen hfit)
      rw [hfield, misfits_eq hfits, decide_eq_true hfit]
    · obtain ⟨hleast, hin⟩ := not_or.mp hfit
      have hleast := Nat.le_of_not_lt hleast
      have hin := Nat.le_of_not_lt hin
      have hsize := record_length hin
      have hmisfits : misfits target buf offset len = false := by
        rw [misfits_eq hfits, decide_eq_false hfit]
      refine .message _ ((buf.drop offset).take len) hread ?_ ?_ ?_ ?_ ?_ ?_
        (Format.recordAt_fits hheader hlen hleast hin)
      · rw [hfield, hsize]
      · rw [target.endian.read16_take (by omega) hlong,
          target.endian.read16_take (show 4 + 2 ≤ len from
            Nat.le_trans (by decide) hleast)
            (by rw [List.length_drop]; omega)]
      · rw [hsize, hmisfits]
      · rw [hsize]
        exact hleast
      · rw [hsize]
        exact hin
      · rw [hsize]
  · exact .short (readAt_none (Nat.lt_of_not_le hheader))
      (Format.recordAt_short (show 0 < 16 by omega) (Nat.lt_of_not_le hheader))

/-- The errno of a failed dump, which the walk reads behind the header even
where the message ends before it. -/
def errnoAt (endian : Endian) (buf : Bytes) (offset : Nat) : Option Int :=
  if offset + 20 ≤ buf.length then
    let errno := cInt (endian.read32 buf (offset + 16))
    if errno = 0 then none else some (saturatingNeg errno)
  else none

def dumpAction (endian : Endian) (replyType : Nat) (buf : Bytes) :
    Action DumpStep Bytes :=
  fun offset record =>
    let kind := endian.read16 record 4
    if kind = nlmsgDone then .error .done
    else if kind = nlmsgError then .error (.failed (errnoAt endian buf offset))
    else .ok (if kind = replyType then [record] else [])

theorem nlmsgErrorAt_eq (h : target.Fits buf) {offset : Nat}
    (hin : offset + 16 ≤ buf.length) :
    nlmsgErrorAt target buf offset =
      some (.failed (errnoAt target.endian buf offset)) := by
  have hfits := h.length_le
  have hroom := target.usize.maxLen_lt_top
  unfold nlmsgErrorAt errnoAt
  rw [h.nlAlign_eq (.inr (Nat.le_refl _))]
  simp only [show roundUp 4 nlmsghdrLen = 16 from rfl, Usize.add_eq
    (show offset + 16 < target.usize.top by omega), Option.bind_eq_bind,
    Option.bind_some]
  by_cases hfield : offset + 20 ≤ buf.length
  · rw [readAt_some hfits (by omega), if_pos hfield]
    simp only [target.endian.read32_take (by omega : 0 + 4 ≤ 4)
      (show 4 ≤ (buf.drop (offset + 16)).length by
        rw [List.length_drop]; omega), target.endian.read32_drop, Nat.add_zero]
  · rw [readAt_none (by omega), if_neg hfield]

theorem fed_eq (hfits : buf.length ≤ target.usize.maxLen)
    {replyType kind offset : Nat} {record : Bytes}
    (hin : offset + record.length ≤ buf.length)
    (htake : record = (buf.drop offset).take record.length) :
    fed target buf replyType kind offset record.length =
      some (if kind = replyType then [record] else []) := by
  have hroom := target.usize.maxLen_lt_top
  unfold fed
  split
  · have hslice : slice? buf offset (offset + record.length) = some record := by
      rw [slice?_eq_some_iff, Nat.add_sub_cancel_left]
      exact ⟨by omega, hin, htake⟩
    simp only [messageAt, Usize.add_eq
      (show offset + record.length < target.usize.top by omega), hslice,
      Option.bind_eq_bind, Option.bind_some, Option.map_some]
  · rfl

theorem dumpRound_eq (h : target.Fits buf) (replyType offset : Nat) :
    dumpRound target replyType buf offset =
      some ((nlmsgFormat target.endian).roundAt
        (dumpAction target.endian replyType buf) .more buf offset) := by
  have hfits := h.length_le
  have hroom := target.usize.maxLen_lt_top
  unfold dumpRound
  cases found hfits offset with
  | short hread hrecord =>
      simp only [hread, Format.roundAt_none hrecord]
  | misfit header hread hmisfits hrecord =>
      simp only [hread, hmisfits, if_true, Format.roundAt_none hrecord]
  | message header record hread hlen hkind hmisfits hlong hin htake hrecord =>
      simp only [hread, hlen, hkind, hmisfits, Bool.false_eq_true, if_false]
      have hsixteen : 16 ≤ record.length := hlong
      by_cases hdone : target.endian.read16 record 4 = nlmsgDone
      · rw [if_pos hdone, Format.roundAt_stop hrecord]
        simp only [dumpAction, hdone, if_true]
      · rw [if_neg hdone]
        by_cases herror : target.endian.read16 record 4 = nlmsgError
        · rw [if_pos herror, nlmsgErrorAt_eq h (by omega),
            Format.roundAt_stop hrecord]
          · rfl
          · simp only [dumpAction, if_neg hdone, if_pos herror]
        · have haction : dumpAction target.endian replyType buf offset record =
              .ok (if target.endian.read16 record 4 = replyType then [record]
                else []) := by
            simp only [dumpAction, if_neg hdone, if_neg herror]
          rw [if_neg herror, Format.roundAt_go hrecord haction, fed_eq hfits hin htake]
          simp only [h.nlAlign_eq (.inl (by omega : record.length ≤ buf.length)),
            h.add_step hin, Option.bind_eq_bind, Option.bind_some]
          rfl

/-! ## Changes over netlink -/

/-- What a message reports: its index, if it holds the whole body the index
is read from. -/
def changesOf (endian : Endian) (record : Bytes) : List InterfaceEvent :=
  let kind := endian.read16 record 4
  if kind = rtmNewaddr ∨ kind = rtmDeladdr then
    if 24 ≤ record.length then report (endian.read32 record 20) .address
    else []
  else if kind = rtmNewlink ∨ kind = rtmDellink then
    if 32 ≤ record.length then
      report (linkIndex (endian.read32 record 20)) .link
    else []
  else []

theorem body_read (hfits : buf.length ≤ target.usize.maxLen) (size : Nat)
    {offset : Nat} {record : Bytes} (hlong : 16 ≤ record.length)
    (hin : offset + record.length ≤ buf.length)
    (htake : record = (buf.drop offset).take record.length) :
    ∃ message, slice? buf 0 (offset + record.length) = some message ∧
      (16 + size ≤ record.length →
        readAt target message (offset + 16) size =
          some ((record.drop 16).take size)) ∧
      (record.length < 16 + size →
        readAt target message (offset + 16) size = none) := by
  have hslice : slice? buf 0 (offset + record.length) =
      some (buf.take (offset + record.length)) := by
    rw [slice?_eq_some_iff]
    exact ⟨by omega, hin, rfl⟩
  have hlength : (buf.take (offset + record.length)).length =
      offset + record.length := by
    rw [List.length_take]
    omega
  refine ⟨_, hslice, fun hsize => ?_, fun hsize => readAt_none (by omega)⟩
  · rw [readAt_some (by omega) (by omega)]
    have hdrop : (buf.take (offset + record.length)).drop (offset + 16) =
        record.drop 16 := by
      rw [List.drop_take, ← List.drop_drop]
      conv_rhs => rw [htake, List.drop_take]
      congr 1
      omega
    rw [hdrop]

theorem index_read (endian : Endian) {record : Bytes} {size : Nat}
    (hsize : 8 ≤ size) (hlong : 16 + size ≤ record.length) :
    endian.read32 ((record.drop 16).take size) bodyIndexAt =
      endian.read32 record 20 := by
  have htake : endian.read32 ((record.drop 16).take size) 4 =
      endian.read32 (record.drop 16) 4 :=
    endian.read32_take hsize (by rw [List.length_drop]; omega)
  rw [endian.read32_drop] at htake
  exact htake

theorem changed_eq (hfits : buf.length ≤ target.usize.maxLen) {offset : Nat}
    {record : Bytes} (hlong : 16 ≤ record.length)
    (hin : offset + record.length ≤ buf.length)
    (htake : record = (buf.drop offset).take record.length) :
    changed target buf (target.endian.read16 record 4) (offset + 16)
      (offset + record.length) = some (changesOf target.endian record) := by
  unfold changed changesOf
  simp only
  split
  · obtain ⟨message, hslice, hwhole, hcut⟩ :=
      body_read hfits ifaddrmsgLen hlong hin htake
    by_cases hbody : 24 ≤ record.length
    · simp only [hslice, hwhole hbody, if_pos hbody, Option.bind_eq_bind,
        Option.bind_some,
        index_read target.endian (by decide : 8 ≤ ifaddrmsgLen) hbody]
    · simp only [hslice, hcut (Nat.lt_of_not_le hbody), if_neg hbody,
        Option.bind_eq_bind, Option.bind_some]
  · split
    · obtain ⟨message, hslice, hwhole, hcut⟩ :=
        body_read hfits ifinfomsgLen hlong hin htake
      by_cases hbody : 32 ≤ record.length
      · simp only [hslice, hwhole hbody, if_pos hbody, Option.bind_eq_bind,
          Option.bind_some,
          index_read target.endian (by decide : 8 ≤ ifinfomsgLen) hbody]
      · simp only [hslice, hcut (Nat.lt_of_not_le hbody), if_neg hbody,
          Option.bind_eq_bind, Option.bind_some]
    · rfl

theorem changeRound_eq (h : target.Fits buf) (offset : Nat) :
    changeRound target buf offset =
      some ((nlmsgFormat target.endian).roundAt
        (fun _ record => .ok (changesOf target.endian record)) () buf
        offset) := by
  have hfits := h.length_le
  have hroom := target.usize.maxLen_lt_top
  unfold changeRound
  cases found hfits offset with
  | short hread hrecord =>
      simp only [hread, Format.roundAt_none hrecord]
  | misfit header hread hmisfits hrecord =>
      simp only [hread, hmisfits, if_true, Format.roundAt_none hrecord]
  | message header record hread hlen hkind hmisfits hlong hin htake hrecord =>
      have hsixteen : 16 ≤ record.length := hlong
      rw [Format.roundAt_go hrecord rfl]
      simp only [hread, hlen, hkind, hmisfits, Bool.false_eq_true, if_false,
        h.nlAlign_eq (.inr (Nat.le_refl _)),
        show roundUp 4 nlmsghdrLen = 16 from rfl,
        Usize.add_eq (show offset + 16 < target.usize.top by omega),
        Usize.add_eq (show offset + record.length < target.usize.top by omega),
        changed_eq hfits hsixteen hin htake,
        h.nlAlign_eq (.inl (by omega : record.length ≤ buf.length)),
        h.add_step hin, Option.bind_eq_bind, Option.bind_some]
      rfl

/-! ## Changes over a routing socket -/

def routeChangesOf (endian : Endian) (os : RouteOs) (record : Bytes) :
    List InterfaceEvent :=
  match routeHit os (record.getD 3 0).toNat with
  | none => []
  | some (place, event) =>
      if place + 2 ≤ record.length then
        report (endian.read16 record place) event
      else []

theorem nativeAt_eq (hfits : buf.length ≤ target.usize.maxLen) {offset : Nat}
    (h : offset + 2 ≤ buf.length) :
    nativeAt target buf offset = some (target.endian.read16 buf offset) := by
  have hroom := target.usize.maxLen_lt_top
  have hfirst : offset < buf.length := by omega
  have hsecond : offset + 1 < buf.length := by omega
  simp only [nativeAt, Usize.add_eq
    (show offset + 1 < target.usize.top by omega), Endian.read16,
    List.getD_eq_getElem?_getD, List.getElem?_eq_getElem hfirst,
    List.getElem?_eq_getElem hsecond, Option.bind_eq_bind, Option.bind_some,
    Option.getD_some]

theorem routeChanged_eq (hfits : buf.length ≤ target.usize.maxLen)
    (os : RouteOs) {offset len : Nat} (hlong : routeHeaderLen ≤ len)
    (hin : offset + len ≤ buf.length) :
    routeChanged target os buf (buf.getD (offset + 3) 0).toNat offset len =
      some (routeChangesOf target.endian os ((buf.drop offset).take len)) := by
  have hroom := target.usize.maxLen_lt_top
  have hfour : 4 ≤ len := hlong
  have hkind : ((buf.drop offset).take len).getD 3 0 = buf.getD (offset + 3) 0 := by
    rw [List.getD_eq_getElem?_getD, List.getElem?_take_of_lt (by omega),
      List.getElem?_drop, List.getD_eq_getElem?_getD]
  unfold routeChanged routeChangesOf
  rw [hkind]
  cases hhit : routeHit os (buf.getD (offset + 3) 0).toNat with
  | none => rfl
  | some hit =>
      obtain ⟨place, event⟩ := hit
      have hplace : place ≤ 12 := by
        unfold routeHit at hhit
        split at hhit
        · cases hhit
          decide
        · split at hhit
          · cases hhit
            decide
          · cases hhit
      simp only [Usize.add_eq (show place + 2 < target.usize.top by omega),
        record_length hin, Option.bind_eq_bind, Option.bind_some]
      by_cases hreach : place + 2 ≤ len
      · rw [if_neg (Nat.not_lt.mpr hreach), if_pos hreach,
          Usize.add_eq (show offset + place < target.usize.top by omega)]
        simp only [Option.bind_some, nativeAt_eq hfits
          (show offset + place + 2 ≤ buf.length by omega),
          target.endian.read16_take hreach
            (by rw [List.length_drop]; omega : len ≤ (buf.drop offset).length),
          target.endian.read16_drop]
      · rw [if_pos (Nat.lt_of_not_le hreach), if_neg hreach]

theorem routeRound_eq (hfits : buf.length ≤ target.usize.maxLen)
    (os : RouteOs) {offset : Nat} (hoffset : offset ≤ buf.length) :
    routeRound target os buf offset =
      some ((routeFormat target.endian).roundAt
        (fun _ record => .ok (routeChangesOf target.endian os record)) () buf
        offset) := by
  have hroom := target.usize.maxLen_lt_top
  unfold routeRound
  rw [Usize.add_eq (show offset + routeHeaderLen < target.usize.top by
    show offset + 4 < _; omega)]
  simp only [Option.bind_eq_bind, Option.bind_some]
  by_cases hheader : offset + routeHeaderLen ≤ buf.length
  · have hfour : offset + 4 ≤ buf.length := hheader
    have hshort := target.endian.read16_lt buf offset
    obtain ⟨len, hlen⟩ : ∃ len, target.endian.read16 buf offset = len := ⟨_, rfl⟩
    have hlength : (routeFormat target.endian).lengthOf (buf.drop offset) =
        len := by
      rw [← hlen]
      exact target.endian.read16_drop buf offset 0
    have hthird : offset + 3 < buf.length := by omega
    rw [if_neg (Nat.not_lt.mpr hheader), nativeAt_eq hfits (by omega), hlen]
    rw [hlen] at hshort
    simp only [Option.bind_some, Usize.add_eq
      (show offset + 3 < target.usize.top by omega),
      List.getElem?_eq_getElem hthird]
    by_cases hleast : len < routeHeaderLen
    · rw [if_pos hleast, Format.roundAt_none
        (Format.recordAt_misfit hheader hlength (.inl hleast))]
    · simp only [if_neg hleast, Usize.add_eq
        (show offset + len < target.usize.top by omega), Option.bind_some]
      by_cases hstop : offset + len > buf.length
      · rw [if_pos hstop, Format.roundAt_none
          (Format.recordAt_misfit hheader hlength (.inr hstop))]
      · have hin := Nat.le_of_not_lt hstop
        have hrecord : (routeFormat target.endian).recordAt buf offset =
            some ((buf.drop offset).take len) :=
          Format.recordAt_fits hheader hlength (Nat.le_of_not_lt hleast) hin
        rw [if_neg hstop, Format.roundAt_go hrecord rfl]
        have hevents := routeChanged_eq hfits os (Nat.le_of_not_lt hleast) hin
        rw [List.getD_eq_getElem?_getD, List.getElem?_eq_getElem hthird,
          Option.getD_some] at hevents
        rw [hevents, record_length hin]
        simp only [Option.bind_some]
        rw [show (routeFormat target.endian).unit = 1 from rfl, roundUp_one]
  · rw [if_pos (Nat.lt_of_not_le hheader), Format.roundAt_none
      (Format.recordAt_short (show 0 < 4 by omega) (Nat.lt_of_not_le hheader))]

/-! ## The walks as a whole -/

def endsDump (endian : Endian) (message : Bytes) : Bool :=
  endian.read16 message 4 = nlmsgDone || endian.read16 message 4 = nlmsgError

def DumpEnds (endian : Endian) (messages : List Bytes) (step : DumpStep) :
    Prop :=
  match messages.find? (endsDump endian) with
  | none => step = .more
  | some message =>
      if endian.read16 message 4 = nlmsgDone then step = .done
      else ∃ errno, step = .failed errno

def beforeEnd (endian : Endian) (messages : List Bytes) : List Bytes :=
  messages.takeWhile fun message => !endsDump endian message

theorem play_dump (endian : Endian) (replyType : Nat) (buf : Bytes)
    (records : List (Nat × Bytes)) :
    (play (dumpAction endian replyType buf) .more records).1 =
        (beforeEnd endian (records.map Prod.snd)).filter
          (endian.read16 · 4 = replyType) ∧
      DumpEnds endian (records.map Prod.snd)
        (play (dumpAction endian replyType buf) .more records).2 := by
  induction records with
  | nil => exact ⟨rfl, rfl⟩
  | cons record records ih =>
      obtain ⟨offset, record⟩ := record
      unfold DumpEnds beforeEnd at ih ⊢
      simp only [play, dumpAction, List.map_cons, List.takeWhile_cons,
        List.find?_cons, endsDump] at ih ⊢
      by_cases hdone : endian.read16 record 4 = nlmsgDone
      · simp [hdone]
      · by_cases herror : endian.read16 record 4 = nlmsgError
        · have hne : nlmsgError ≠ nlmsgDone := by decide
          simp [herror, hne]
        · simp only [hdone, herror, if_false, decide_false, Bool.or_false,
            Bool.not_false, if_true, List.filter_cons]
          refine ⟨?_, ih.2⟩
          rw [ih.1]
          split <;> simp_all

structure Steady {ε α : Type} (walked : Option (Run ε α)) (run : Run ε α) :
    Prop where
  ends : walked = some run
  increasing : run.offsets.Pairwise (· < ·)

structure NetlinkMessages (endian : Endian) (messages : List Bytes)
    (buf : Bytes) : Prop where
  packed : Format.Packed 4 messages buf
  sized : ∀ message ∈ messages, (nlmsgFormat endian).Sized message

theorem NetlinkMessages.recordsOf {endian : Endian} {messages : List Bytes}
    (h : NetlinkMessages endian messages buf) :
    ((nlmsgFormat endian).recordsOf buf).map Prod.snd = messages :=
  Format.records_packed h.packed h.sized
    (fun message hmem => (h.sized message hmem).least_le)
    (show 0 < 16 by omega) (Nat.lt_succ_self _) 0

theorem walkDump_steady (h : target.Fits buf) (replyType : Nat) :
    ∃ run, Steady (walkDump target replyType buf) run ∧
      (run.items, run.result) =
        play (dumpAction target.endian replyType buf) .more
          ((nlmsgFormat target.endian).recordsOf buf) := by
  obtain ⟨run, hrun, hsorted, -, hplayed⟩ :=
    walk_records (buf.length + 3)
      (fun offset _ => dumpRound_eq h replyType offset) (Nat.le_refl _) 0
      (Nat.lt_succ_self buf.length) (Nat.zero_le _)
  exact ⟨run, ⟨hrun, hsorted⟩, hplayed⟩

theorem forEachChange_steady (h : target.Fits buf) :
    ∃ run, Steady (forEachChange target buf) run ∧
      run.items = (((nlmsgFormat target.endian).recordsOf buf).map
        Prod.snd).flatMap (changesOf target.endian) := by
  obtain ⟨run, hrun, hsorted, -, hplayed⟩ :=
    walk_records (buf.length + 3) (fun offset _ => changeRound_eq h offset)
      (Nat.le_refl _) 0 (Nat.lt_succ_self buf.length) (Nat.zero_le _)
  rw [play_all] at hplayed
  exact ⟨run, ⟨hrun, hsorted⟩, (Prod.mk.inj hplayed).1⟩

theorem forEachRouteChange_steady (hfits : buf.length ≤ target.usize.maxLen)
    (os : RouteOs) :
    ∃ run, Steady (forEachRouteChange target os buf) run ∧
      run.items = (((routeFormat target.endian).recordsOf buf).map
        Prod.snd).flatMap (routeChangesOf target.endian os) := by
  obtain ⟨run, hrun, hsorted, -, hplayed⟩ :=
    walk_records buf.length (fun offset => routeRound_eq hfits os)
      (Nat.le_refl _) 0 (Nat.lt_succ_self buf.length) (Nat.zero_le _)
  rw [play_all] at hplayed
  exact ⟨run, ⟨hrun, hsorted⟩, (Prod.mk.inj hplayed).1⟩

/-- The iterator may be set on any offset, inside the message or not. -/
theorem rtattrs_steady (h : target.Fits buf) (offset : Nat) :
    ∃ run, Steady (rtattrs target buf offset) run ∧
      run.items = (((rtattrFormat target.endian).records (buf.length + 1)
        offset (buf.drop offset)).map Prod.snd).map
          (attributeOf target.endian) := by
  obtain ⟨run, hrun, hsorted, -, hplayed⟩ :=
    walk_records (max (buf.length + 3) offset)
      (fun offset _ => rtattrsNext_eq h offset) (Nat.le_max_left _ _) offset
      (show buf.length - offset < buf.length + 1 by omega)
      (Nat.le_max_right _ _)
  rw [play_all (fun record => [attributeOf target.endian record])] at hplayed
  exact ⟨run, ⟨hrun, hsorted⟩,
    (Prod.mk.inj hplayed).1.trans List.map_eq_flatMap.symm⟩

/-- What the four walks make of a buffer: each ends, over ever greater
offsets; and where the buffer is messages or attributes end to end, it visits
those in order.  A netlink change is reported if the message holds its whole
body, a routing change if it holds its index. -/
structure Faithful (target : Target) (buf : Bytes) : Prop where
  dump : ∀ replyType, ∃ run, Steady (walkDump target replyType buf) run ∧
    ∀ messages, NetlinkMessages target.endian messages buf →
      run.items = (beforeEnd target.endian messages).filter
          (target.endian.read16 · 4 = replyType) ∧
        DumpEnds target.endian messages run.result
  attributes : ∀ offset, ∃ run, Steady (rtattrs target buf offset) run ∧
    ∀ attributes, Format.Packed 4 attributes (buf.drop offset) →
      (∀ record ∈ attributes, (rtattrFormat target.endian).Sized record) →
      run.items = attributes.map (attributeOf target.endian)
  changes : ∃ run, Steady (forEachChange target buf) run ∧
    ∀ messages, NetlinkMessages target.endian messages buf →
      run.items = messages.flatMap (changesOf target.endian)
  routeChanges : ∀ os, ∃ run, Steady (forEachRouteChange target os buf) run ∧
    ∀ messages, Format.Packed 1 messages buf →
      (∀ message ∈ messages, (routeFormat target.endian).Sized message) →
      run.items = messages.flatMap (routeChangesOf target.endian os)

/-- No buffer stops a walk short, and none of its messages is missed. -/
theorem walks_faithful {target : Target} {buf : Bytes}
    (h : target.Fits buf) : Faithful target buf where
  dump := by
    intro replyType
    obtain ⟨run, hsteady, hplayed⟩ := walkDump_steady h replyType
    refine ⟨run, hsteady, fun messages hmessages => ?_⟩
    have hspec := play_dump target.endian replyType buf
      ((nlmsgFormat target.endian).recordsOf buf)
    rw [hmessages.recordsOf, ← hplayed] at hspec
    exact hspec
  attributes := by
    intro offset
    obtain ⟨run, hsteady, hitems⟩ := rtattrs_steady h offset
    refine ⟨run, hsteady, fun attributes hpacked hsized => ?_⟩
    rw [hitems, Format.records_packed hpacked hsized
      (fun record hmem => (hsized record hmem).least_le)
      (show 0 < 4 by omega) (by rw [List.length_drop]; omega) offset]
  changes := by
    obtain ⟨run, hsteady, hitems⟩ := forEachChange_steady h
    refine ⟨run, hsteady, fun messages hmessages => ?_⟩
    rw [hitems, hmessages.recordsOf]
  routeChanges := by
    intro os
    obtain ⟨run, hsteady, hitems⟩ :=
      forEachRouteChange_steady h.length_le os
    refine ⟨run, hsteady, fun messages hpacked hsized => ?_⟩
    have hrecords : ((routeFormat target.endian).recordsOf buf).map Prod.snd =
        messages :=
      Format.records_packed hpacked hsized
        (fun message hmem => (hsized message hmem).least_le)
        (show 0 < 4 by omega) (Nat.lt_succ_self _) 0
    rw [hitems, hrecords]

def smallTarget : Target := ⟨.bits32, .little, fun len => roundUp 4 len⟩

/-- The first eight octets of a link message's body, and so its index, but not
the whole of it. -/
def cutLink : Bytes :=
  [24, 0, 0, 0, 16, 0, 0, 0, 0, 0, 0, 0, 0, 0, 0, 0,
   0, 0, 0, 0, 5, 0, 0, 0]

def addressMessage : Bytes :=
  [24, 0, 0, 0, 20, 0, 0, 0, 0, 0, 0, 0, 0, 0, 0, 0,
   2, 24, 0, 0, 3, 0, 0, 0]

def oddMessage : Bytes :=
  [27, 0, 0, 0, 21, 0, 0, 0, 0, 0, 0, 0, 0, 0, 0, 0,
   10, 64, 0, 0, 4, 0, 0, 0, 7, 7, 7]

/-- A datagram of three messages: the first padded, the last not. -/
def changeDump : Bytes := oddMessage ++ [0] ++ (cutLink ++ addressMessage)

theorem walks_faithful_cut :
    Faithful smallTarget (changeDump ++ oddMessage) ∧
      NetlinkMessages .little
        [oddMessage, cutLink, addressMessage, oddMessage]
        (changeDump ++ oddMessage) ∧
      [oddMessage, cutLink, addressMessage, oddMessage].flatMap
        (changesOf .little) = [.address 4, .address 3, .address 4] := by
  refine ⟨walks_faithful ⟨by decide, fun _ _ => rfl⟩, ⟨?_, ?_⟩,
    by decide +kernel⟩
  · have hlast : Format.Packed 4 [oddMessage] (oddMessage ++ []) :=
      .last oddMessage [] (by decide)
    have haddress : Format.Packed 4 [addressMessage, oddMessage]
        (addressMessage ++ [] ++ (oddMessage ++ [])) :=
      .cons addressMessage [] (by decide) hlast
    have hcut : Format.Packed 4 [cutLink, addressMessage, oddMessage]
        (cutLink ++ [] ++ (addressMessage ++ [] ++ (oddMessage ++ []))) :=
      .cons cutLink [] (by decide) haddress
    exact .cons oddMessage [0] (by decide) hcut
  · intro message hmem
    simp only [List.mem_cons, List.not_mem_nil, or_false] at hmem
    rcases hmem with rfl | rfl | rfl | rfl <;>
      exact ⟨by decide, by decide, by decide⟩

def heldChanges (endian : Endian) (record : Bytes) : List InterfaceEvent :=
  let kind := endian.read16 record 4
  if 24 ≤ record.length then
    if kind = rtmNewaddr ∨ kind = rtmDeladdr then
      report (endian.read32 record 20) .address
    else if kind = rtmNewlink ∨ kind = rtmDellink then
      report (linkIndex (endian.read32 record 20)) .link
    else []
  else []

/-- A link message that holds its index goes unreported where its body is cut
short. -/
theorem cut_link_unreported :
    NetlinkMessages .little [cutLink] cutLink ∧
      [cutLink].flatMap (heldChanges .little) = [.link 5] ∧
      ∃ run, forEachChange smallTarget cutLink = some run ∧
        run.items = [] := by
  refine ⟨⟨?_, ?_⟩, by decide +kernel, ⟨[0, 24], [], ()⟩, by decide +kernel,
    rfl⟩
  · have hpacked : Format.Packed 4 [cutLink] (cutLink ++ []) :=
      .last cutLink [] (by decide)
    rw [List.append_nil] at hpacked
    exact hpacked
  · intro message hmem
    rw [List.mem_singleton] at hmem
    subst hmem
    exact ⟨by decide, by decide, by decide⟩

end Netflector.Interface
