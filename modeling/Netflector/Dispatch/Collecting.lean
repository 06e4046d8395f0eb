import Netflector.Dispatch.Reassembly

/-!
# What a slot holds

A slot that took a list of fragments, each at a multiple of the fragment unit,
holds exactly their bytes; when it is complete they tile the datagram.
-/

namespace Netflector.Dispatch

open Netflector.Foundation
open Netflector.Net

/-! ## Fragments as ranges -/

def Fragment.stop (fragment : Fragment) : Nat :=
  fragment.header.offset + fragment.data.length

/-- The fragment carries the datagram's byte at `position`. -/
def Fragment.Covers (fragment : Fragment) (position : Nat) : Prop :=
  fragment.header.offset ≤ position ∧ position < Fragment.stop fragment

def Fragment.Aligned (fragment : Fragment) : Prop :=
  fragment.header.offset % fragmentUnit = 0

/-- The offset is one that the 13 bits of both headers hold. -/
def Fragment.Placed (fragment : Fragment) : Prop :=
  ∃ units, units < 8192 ∧ fragment.header.offset = units * fragmentUnit

theorem Fragment.Placed.aligned {fragment : Fragment}
    (h : Fragment.Placed fragment) : Fragment.Aligned fragment := by
  obtain ⟨units, _, hoffset⟩ := h
  rw [Fragment.Aligned, hoffset, Nat.mul_mod_left]

def Fragment.EndFits (fragment : Fragment) : Prop :=
  fragment.header.offset + min fragment.data.length (Usize.maxLen .bits64) <
    Usize.top .bits64

instance (fragment : Fragment) : Decidable (Fragment.EndFits fragment) :=
  inferInstanceAs (Decidable (_ < _))

theorem fragmentUnit_eq : fragmentUnit = 8 := rfl

theorem maxDatagramLen_eq : maxDatagramLen = 9000 := rfl

theorem Fragment.Placed.endFits {fragment : Fragment}
    (h : Fragment.Placed fragment) : Fragment.EndFits fragment := by
  obtain ⟨units, hunits, hoffset⟩ := h
  have hmin := Nat.min_le_right fragment.data.length (Usize.maxLen .bits64)
  simp only [Fragment.EndFits, hoffset, fragmentUnit_eq, Usize.maxLen,
    Usize.top] at *
  omega

theorem Fragment.checkedStop_ok {fragment : Fragment}
    (h : Fragment.EndFits fragment) :
    Fragment.checkedStop fragment = .ok (Fragment.stop fragment) := if_pos h

theorem blocks_eq : blocks = 1125 := rfl

theorem unitsUpTo_le_blocks {stop : Nat} (h : stop ≤ maxDatagramLen) :
    unitsUpTo stop ≤ blocks := by
  simp only [unitsUpTo, fragmentUnit_eq, blocks_eq, maxDatagramLen_eq] at *
  omega

theorem unit_iff_covers {fragment : Fragment} (h : Fragment.Aligned fragment)
    (unit : Nat) :
    (fragment.header.offset / fragmentUnit ≤ unit ∧
      unit < unitsUpTo (Fragment.stop fragment)) ↔
      Fragment.Covers fragment (fragmentUnit * unit) := by
  simp only [Fragment.Aligned, Fragment.Covers, unitsUpTo, fragmentUnit_eq]
    at *
  omega

theorem covers_unit {fragment : Fragment} {position : Nat}
    (h : Fragment.Aligned fragment) (hcovers : Fragment.Covers fragment position) :
    Fragment.Covers fragment (fragmentUnit * (position / fragmentUnit)) := by
  simp only [Fragment.Aligned, Fragment.Covers, fragmentUnit_eq] at *
  omega

/-! ## Adding a fragment -/

theorem anyReceived_ok {received : List Bool} {start stop : Nat} {any : Bool}
    (h : anyReceived received start stop = .ok any) :
    any = true ↔ ∃ unit, start ≤ unit ∧ unit < stop ∧
      received[unit]? = some true := by
  simp only [anyReceived] at h
  split at h
  · rename_i hrange
    cases h
    rw [List.any_eq_true]
    constructor
    · rintro ⟨value, hmem, hvalue⟩
      obtain ⟨index, hindex⟩ := List.getElem?_of_mem hmem
      have hlt : index < stop - start := by
        have := (List.getElem?_eq_some_iff.mp hindex).1
        rw [List.length_take] at this
        omega
      rw [List.getElem?_take_of_lt hlt, List.getElem?_drop] at hindex
      simp only [id] at hvalue
      subst hvalue
      exact ⟨start + index, by omega, by omega, hindex⟩
    · rintro ⟨unit, hstart, hstop, hunit⟩
      refine ⟨true, ?_, rfl⟩
      apply List.mem_of_getElem? (i := unit - start)
      rw [List.getElem?_take_of_lt (by omega), List.getElem?_drop, ← hunit]
      congr 1
      omega
  · cases h

theorem anyReceived_total (buf : Buffer) {start stop : Nat}
    (hstart : start ≤ stop) (hstop : stop ≤ blocks) :
    ∃ any, anyReceived buf.received start stop = .ok any := by
  simp only [anyReceived, buf.received_length]
  rw [if_pos ⟨hstart, hstop⟩]
  exact ⟨_, rfl⟩

theorem offset_le_unitsUpTo (fragment : Fragment) :
    fragment.header.offset / fragmentUnit ≤
      unitsUpTo (fragment.header.offset + fragment.data.length) := by
  simp only [unitsUpTo, fragmentUnit_eq]
  omega

theorem getElem?_fill {Item : Type} {items : List Item} {first last : Nat}
    (hfirst : first ≤ last) (hlast : last ≤ items.length) (value : Item)
    (index : Nat) :
    (items.take first ++ List.replicate (last - first) value ++
        items.drop last)[index]? =
      if first ≤ index ∧ index < last then some value else items[index]? := by
  have hfront : (items.take first).length = first := by
    rw [List.length_take]
    omega
  rcases Nat.lt_or_ge index first with hbefore | hafter
  · rw [List.append_assoc, List.getElem?_append_left (by omega),
      List.getElem?_take_of_lt hbefore, if_neg (by omega)]
  rcases Nat.lt_or_ge index last with hinside | hbehind
  · rw [List.append_assoc, List.getElem?_append_right (by omega), hfront,
      List.getElem?_append_left (by rw [List.length_replicate]; omega),
      List.getElem?_replicate, if_pos (by omega), if_pos ⟨hafter, hinside⟩]
  · rw [List.getElem?_append_right (by
        rw [List.length_append, List.length_replicate]
        omega), if_neg (by omega), List.getElem?_drop]
    congr 1
    rw [List.length_append, List.length_replicate]
    omega

theorem store_total (buf : Buffer) (fragment : Fragment)
    (hfits : Fragment.stop fragment ≤ maxDatagramLen) :
    ∃ buf', buf.store fragment.header.offset fragment.data = .ok buf' ∧
      buf'.bytes = overwrite buf.bytes fragment.header.offset fragment.data ∧
      ∀ unit, buf'.received[unit]? = some true ↔
        (fragment.header.offset / fragmentUnit ≤ unit ∧
          unit < unitsUpTo (Fragment.stop fragment)) ∨
        buf.received[unit]? = some true := by
  have hunits := unitsUpTo_le_blocks hfits
  have hfirst := offset_le_unitsUpTo fragment
  have hbytes := buf.bytes_length
  have hreceived := buf.received_length
  unfold Fragment.stop at *
  simp only [Buffer.store]
  rw [dif_pos ⟨by omega, hfirst, by omega⟩]
  refine ⟨_, rfl, rfl, ?_⟩
  intro unit
  simp only
  rw [getElem?_fill hfirst (by omega)]
  split
  · rename_i hunit
    simp [hunit]
  · rename_i hunit
    simp [hunit]

def EndsHere (slot : Collecting) (fragment : Fragment) : Prop :=
  match slot.len with
  | some len =>
      if fragment.header.more then Fragment.stop fragment ≤ len
      else Fragment.stop fragment = len
  | none => fragment.header.more = false →
      ∀ unit, unitsUpTo (Fragment.stop fragment) ≤ unit →
        slot.buf.received[unit]? ≠ some true

structure Acceptable (slot : Collecting) (fragment : Fragment) : Prop where
  whole : fragment.header.more = true →
    fragment.data.length % fragmentUnit = 0
  headed : fragment.header.offset = 0 → fragment.headers.isSome
  fits : Fragment.stop fragment ≤ maxDatagramLen
  ends : EndsHere slot fragment
  free : ∀ unit, fragment.header.offset / fragmentUnit ≤ unit →
    unit < unitsUpTo (Fragment.stop fragment) →
    slot.buf.received[unit]? ≠ some true

structure Took (slot : Collecting) (fragment : Fragment)
    (slot' : Collecting) : Prop where
  bytes : slot'.buf.bytes =
    overwrite slot.buf.bytes fragment.header.offset fragment.data
  received : ∀ unit, slot'.buf.received[unit]? = some true ↔
    (fragment.header.offset / fragmentUnit ≤ unit ∧
      unit < unitsUpTo (Fragment.stop fragment)) ∨
    slot.buf.received[unit]? = some true
  started : slot'.started = slot.started
  len : slot'.len =
    if fragment.header.more then slot.len else some (Fragment.stop fragment)
  first : slot'.first =
    if fragment.header.offset = 0 then some fragment.header else slot.first

theorem endsElsewhere_total (slot : Collecting) {fragment : Fragment}
    (hfits : Fragment.stop fragment ≤ maxDatagramLen) :
    ∃ elsewhere,
      slot.endsElsewhere fragment.header.more (Fragment.stop fragment) =
        .ok elsewhere ∧ (elsewhere = true ↔ ¬ EndsHere slot fragment) := by
  unfold Collecting.endsElsewhere EndsHere
  cases hlen : slot.len with
  | some len =>
      cases fragment.header.more with
      | true => exact ⟨_, rfl, by simp⟩
      | false => exact ⟨_, rfl, by simp⟩
  | none =>
      cases fragment.header.more with
      | true => exact ⟨_, rfl, by simp⟩
      | false =>
          have hunits := unitsUpTo_le_blocks hfits
          rw [← slot.buf.received_length] at hunits
          obtain ⟨any, hany⟩ := anyReceived_total slot.buf hunits
            (Nat.le_of_eq slot.buf.received_length)
          refine ⟨any, hany, ?_⟩
          rw [anyReceived_ok hany]
          constructor
          · rintro ⟨unit, hunit, _, hset⟩ hnone
            exact hnone rfl unit hunit hset
          · intro hsome
            by_contra hnone
            apply hsome
            intro _ unit hunit hset
            exact hnone ⟨unit, hunit, (List.getElem?_eq_some_iff.mp hset).1,
              hset⟩

theorem Acceptable.endFits {slot : Collecting} {fragment : Fragment}
    (h : Acceptable slot fragment) : Fragment.EndFits fragment := by
  have hfits := h.fits
  have hmin := Nat.min_le_left fragment.data.length (Usize.maxLen .bits64)
  simp only [Fragment.stop, Fragment.EndFits, maxDatagramLen_eq,
    Usize.top] at *
  omega

theorem add_ok {slot : Collecting} {fragment : Fragment}
    (h : Acceptable slot fragment) :
    ∃ slot', slot.add fragment = .ok slot' ∧ Took slot fragment slot' := by
  have hfits := Nat.not_lt.mpr h.fits
  obtain ⟨elsewhere, helsewhere, hends⟩ := endsElsewhere_total slot h.fits
  obtain ⟨overlap, hoverlap⟩ := anyReceived_total slot.buf
    (offset_le_unitsUpTo fragment) (unitsUpTo_le_blocks h.fits)
  change anyReceived _ _ (unitsUpTo (Fragment.stop fragment)) = _ at hoverlap
  obtain ⟨buf, hbuf, hbytes, hreceived⟩ := store_total slot.buf fragment h.fits
  have hhere : elsewhere = false := by
    rw [Bool.eq_false_iff]
    intro htrue
    exact hends.mp htrue h.ends
  have hfree : overlap = false := by
    rw [Bool.eq_false_iff]
    intro htrue
    obtain ⟨unit, hstart, hstop, hset⟩ := (anyReceived_ok hoverlap).mp htrue
    exact h.free unit hstart hstop hset
  have hformed : ¬ ((fragment.header.more = true ∧
      fragment.data.length % fragmentUnit ≠ 0) ∨
      (fragment.header.offset = 0 ∧ fragment.headers.isNone)) := by
    rintro (⟨hmore, hpart⟩ | ⟨hzero, hnone⟩)
    · exact hpart (h.whole hmore)
    · have := h.headed hzero
      rw [Option.isNone_iff_eq_none] at hnone
      rw [hnone] at this
      cases this
  simp only [Collecting.add, Fragment.checkedStop_ok h.endFits, liftPanic_ok,
    bind, Except.bind]
  rw [if_neg hformed, if_neg hfits]
  simp only [helsewhere, hhere, hoverlap, hfree, hbuf, liftPanic_ok,
    Bool.false_eq_true, if_false]
  exact ⟨_, rfl, hbytes, hreceived, rfl, rfl, rfl⟩

theorem add_faulty {slot : Collecting} {fragment : Fragment}
    (hend : Fragment.EndFits fragment) (h : ¬ Acceptable slot fragment) :
    ∃ loss, slot.add fragment = .error (.error loss) ∧ loss ≠ .expired ∧
      loss ≠ .evicted := by
  simp only [Collecting.add, Fragment.checkedStop_ok hend, liftPanic_ok, bind,
    Except.bind]
  split
  · exact ⟨_, rfl, by simp⟩
  rename_i hformed
  split
  · exact ⟨_, rfl, by simp⟩
  rename_i hlarge
  have hfits : Fragment.stop fragment ≤ maxDatagramLen := Nat.le_of_not_lt hlarge
  obtain ⟨elsewhere, helsewhere, hends⟩ := endsElsewhere_total slot hfits
  obtain ⟨overlap, hoverlap⟩ := anyReceived_total slot.buf
    (offset_le_unitsUpTo fragment) (unitsUpTo_le_blocks hfits)
  change anyReceived _ _ (unitsUpTo (Fragment.stop fragment)) = _ at hoverlap
  simp only [helsewhere, hoverlap, liftPanic_ok]
  split
  · exact ⟨_, rfl, by simp⟩
  rename_i hhere
  split
  · exact ⟨_, rfl, by simp⟩
  rename_i hfree
  exfalso
  apply h
  constructor
  · intro hmore
    by_contra hpart
    exact hformed (.inl ⟨hmore, hpart⟩)
  · intro hzero
    by_contra hnone
    exact hformed (.inr ⟨hzero, by simpa using hnone⟩)
  · exact hfits
  · by_contra hnot
    exact hhere (hends.mpr hnot)
  · intro unit hstart hstop hset
    exact hfree ((anyReceived_ok hoverlap).mpr ⟨unit, hstart, hstop, hset⟩)

theorem add_fails {slot : Collecting} {fragment : Fragment}
    (hend : Fragment.EndFits fragment) (h : ¬ Acceptable slot fragment) :
    ∃ loss, slot.add fragment = .error (.error loss) := by
  obtain ⟨loss, hadd, _⟩ := add_faulty hend h
  exact ⟨loss, hadd⟩

/-! ## The fragments a slot took -/

def Fragment.Apart (first second : Fragment) : Prop :=
  ∀ position, Fragment.Covers first position →
    ¬ Fragment.Covers second position

/-- The slot has taken `pieces`, and nothing else marked its units. -/
structure Assembled (slot : Collecting) (pieces : List Fragment) : Prop where
  aligned : ∀ piece ∈ pieces, Fragment.Aligned piece
  whole : ∀ piece ∈ pieces, piece.header.more = true →
    piece.data.length % fragmentUnit = 0
  headed : ∀ piece ∈ pieces, piece.header.offset = 0 → piece.headers.isSome
  apart : pieces.Pairwise Fragment.Apart
  received : ∀ unit, slot.buf.received[unit]? = some true ↔
    ∃ piece ∈ pieces, Fragment.Covers piece (fragmentUnit * unit)
  bytes : ∀ piece ∈ pieces, ∀ index, index < piece.data.length →
    slot.buf.bytes[piece.header.offset + index]? = piece.data[index]?
  unended : slot.len = none → ∀ piece ∈ pieces, piece.header.more = true
  ended : ∀ len, slot.len = some len →
    (∃ piece ∈ pieces, piece.header.more = false) ∧
    ∀ piece ∈ pieces,
      (piece.header.more = false → Fragment.stop piece = len) ∧
      ∀ position, Fragment.Covers piece position → position < len
  first : ∀ header, slot.first = some header ↔
    ∃ piece ∈ pieces, piece.header = header ∧ header.offset = 0

theorem assembled_new (buf : Buffer) (started : Nat) :
    Assembled (Collecting.new buf started) [] := by
  constructor
  case received =>
    intro unit
    simp [Collecting.new, Buffer.reset, List.getElem?_replicate]
  all_goals simp [Collecting.new]

theorem headers_covers_zero {fragment : Fragment}
    (hzero : fragment.header.offset = 0) (h : fragment.headers.isSome) :
    Fragment.Covers fragment 0 := by
  refine ⟨Nat.le_of_eq hzero, ?_⟩
  unfold Fragment.stop
  cases hdata : fragment.data with
  | nil =>
      simp only [Fragment.headers, hdata] at h
      split at h
      · cases h
      · cases h
  | cons byte data =>
      rw [List.length_cons]
      omega

theorem acceptable_apart {slot : Collecting} {pieces : List Fragment}
    {fragment : Fragment} (hslot : Assembled slot pieces)
    (haligned : Fragment.Aligned fragment) (h : Acceptable slot fragment) :
    ∀ piece ∈ pieces, Fragment.Apart piece fragment := by
  intro piece hpiece position hfirst hsecond
  have hunit := covers_unit haligned hsecond
  have htaken := (hslot.received _).mpr
    ⟨piece, hpiece, covers_unit (hslot.aligned piece hpiece) hfirst⟩
  obtain ⟨hstart, hstop⟩ := (unit_iff_covers haligned _).mpr hunit
  exact h.free _ hstart hstop htaken

theorem covers_lt_stop {slot : Collecting} {pieces : List Fragment}
    {fragment piece : Fragment} {position : Nat}
    (hslot : Assembled slot pieces) (h : Acceptable slot fragment)
    (hnone : slot.len = none)
    (hlast : fragment.header.more = false) (hpiece : piece ∈ pieces)
    (hcovers : Fragment.Covers piece position) :
    position < Fragment.stop fragment := by
  have hends := h.ends
  simp only [EndsHere, hnone] at hends
  have hbehind := hends hlast (position / fragmentUnit)
  have htaken := (hslot.received (position / fragmentUnit)).mpr
    ⟨piece, hpiece, covers_unit (hslot.aligned piece hpiece) hcovers⟩
  have hunit : position / fragmentUnit < unitsUpTo (Fragment.stop fragment) := by
    by_contra hge
    exact hbehind (Nat.le_of_not_lt hge) htaken
  -- The unit of the end is the fragment's own unless the end is aligned.
  have hfree := h.free (position / fragmentUnit)
  by_contra hge
  apply hfree _ hunit htaken
  simp only [Fragment.stop, unitsUpTo, fragmentUnit_eq] at *
  omega

theorem ended_took {slot slot' : Collecting} {pieces : List Fragment}
    {fragment : Fragment} (hslot : Assembled slot pieces)
    (h : Acceptable slot fragment) (htook : Took slot fragment slot')
    (len : Nat) (hlen : slot'.len = some len) :
    (∃ piece ∈ pieces ++ [fragment], piece.header.more = false) ∧
    ∀ piece ∈ pieces ++ [fragment],
      (piece.header.more = false → Fragment.stop piece = len) ∧
      ∀ position, Fragment.Covers piece position → position < len := by
  have hends := h.ends
  rw [htook.len] at hlen
  rw [List.forall_mem_append, List.forall_mem_singleton]
  cases hmore : fragment.header.more with
  | true =>
      rw [hmore, if_pos rfl] at hlen
      obtain ⟨⟨last, hlast, hlastmore⟩, hpieces⟩ := hslot.ended len hlen
      simp only [EndsHere, hlen, hmore, if_true] at hends
      refine ⟨⟨last, List.mem_append_left _ hlast, hlastmore⟩, hpieces, ?_, ?_⟩
      · intro hfalse
        cases hfalse
      · intro position hcovers
        exact Nat.lt_of_lt_of_le hcovers.2 hends
  | false =>
      rw [hmore, if_neg (by decide), Option.some.injEq] at hlen
      subst hlen
      refine ⟨⟨fragment, List.mem_append_right _ (List.mem_singleton_self _),
        hmore⟩, ?_, fun _ => rfl, fun position hcovers => hcovers.2⟩
      cases hold : slot.len with
      | none =>
          intro piece hpiece
          refine ⟨?_, fun position =>
            covers_lt_stop hslot h hold hmore hpiece⟩
          intro hfalse
          rw [hslot.unended hold piece hpiece] at hfalse
          cases hfalse
      | some len =>
          simp only [EndsHere, hold, hmore, Bool.false_eq_true, if_false]
            at hends
          rw [hends]
          exact (hslot.ended len hold).2

theorem first_took {slot slot' : Collecting} {pieces : List Fragment}
    {fragment : Fragment} (hslot : Assembled slot pieces)
    (haligned : Fragment.Aligned fragment) (h : Acceptable slot fragment)
    (htook : Took slot fragment slot') (header : FragmentHeader) :
    slot'.first = some header ↔
      ∃ piece ∈ pieces ++ [fragment],
        piece.header = header ∧ header.offset = 0 := by
  rw [htook.first]
  simp only [List.mem_append, List.mem_singleton, or_and_right, exists_or,
    exists_eq_left]
  by_cases hzero : fragment.header.offset = 0
  · rw [if_pos hzero, Option.some.injEq]
    constructor
    · rintro rfl
      exact .inr ⟨rfl, hzero⟩
    · rintro (⟨piece, hpiece, rfl, hpiecezero⟩ | ⟨rfl, _⟩)
      · -- Two fragments at the front would share the UDP header.
        exact absurd (headers_covers_zero hzero (h.headed hzero))
          (acceptable_apart hslot haligned h piece hpiece 0
            (headers_covers_zero hpiecezero
              (hslot.headed piece hpiece hpiecezero)))
      · rfl
  · rw [if_neg hzero, hslot.first]
    constructor
    · exact .inl
    · rintro (hold | ⟨rfl, hnew⟩)
      · exact hold
      · exact absurd hnew hzero

theorem assembled_took {slot slot' : Collecting} {pieces : List Fragment}
    {fragment : Fragment} (hslot : Assembled slot pieces)
    (haligned : Fragment.Aligned fragment) (h : Acceptable slot fragment)
    (htook : Took slot fragment slot') :
    Assembled slot' (pieces ++ [fragment]) := by
  have hapart := acceptable_apart hslot haligned h
  constructor
  case aligned =>
    exact List.forall_mem_append.mpr
      ⟨hslot.aligned, List.forall_mem_singleton.mpr haligned⟩
  case whole =>
    exact List.forall_mem_append.mpr
      ⟨hslot.whole, List.forall_mem_singleton.mpr h.whole⟩
  case headed =>
    exact List.forall_mem_append.mpr
      ⟨hslot.headed, List.forall_mem_singleton.mpr h.headed⟩
  case apart =>
    rw [List.pairwise_append]
    exact ⟨hslot.apart, List.pairwise_singleton _ _,
      fun piece hpiece => List.forall_mem_singleton.mpr (hapart piece hpiece)⟩
  case received =>
    intro unit
    rw [htook.received, hslot.received, unit_iff_covers haligned]
    simp only [List.mem_append, List.mem_singleton, or_and_right, exists_or,
      exists_eq_left]
    exact or_comm
  case bytes =>
    have hbytes := slot.buf.bytes_length
    have hfits := h.fits
    unfold Fragment.stop at hfits
    rw [htook.bytes]
    refine List.forall_mem_append.mpr ⟨?_, List.forall_mem_singleton.mpr ?_⟩
    · intro piece hpiece index hindex
      have hout : ¬ Fragment.Covers fragment (piece.header.offset + index) :=
        hapart piece hpiece _ ⟨by omega, by unfold Fragment.stop; omega⟩
      simp only [Fragment.Covers, Fragment.stop, not_and, not_lt] at hout
      rw [← hslot.bytes piece hpiece index hindex]
      rcases Nat.lt_or_ge (piece.header.offset + index)
        fragment.header.offset with hbefore | hafter
      · exact getElem?_overwrite_lt (by omega) hbefore
      · exact getElem?_overwrite_ge (by omega) (hout hafter)
    · intro index hindex
      exact getElem?_overwrite_mid (by omega) index hindex
  case unended =>
    intro hnone
    rw [htook.len] at hnone
    cases hmore : fragment.header.more with
    | false => simp [hmore] at hnone
    | true =>
        rw [hmore, if_pos rfl] at hnone
        exact List.forall_mem_append.mpr
          ⟨hslot.unended hnone, List.forall_mem_singleton.mpr hmore⟩
  case ended => exact ended_took hslot h htook
  case first => exact first_took hslot haligned h htook

/-! ## Complete slots -/

structure Tiled (bytes : Bytes) (len : Nat) (pieces : List Fragment) :
    Prop where
  apart : pieces.Pairwise Fragment.Apart
  covered : ∀ position,
    position < len ↔ ∃ piece ∈ pieces, Fragment.Covers piece position
  bytes : ∀ piece ∈ pieces, ∀ index, index < piece.data.length →
    bytes[piece.header.offset + index]? = piece.data[index]?

def Complete (slot : Collecting) (first : FragmentHeader) (len : Nat) : Prop :=
  slot.first = some first ∧ slot.len = some len ∧
    ∀ unit, unit < unitsUpTo len → slot.buf.received[unit]? = some true

theorem all_received {buf : Buffer} {stop : Nat} (h : stop ≤ blocks) :
    (buf.received.take stop).all id = true ↔
      ∀ unit, unit < stop → buf.received[unit]? = some true := by
  have hlength := buf.received_length
  rw [List.all_eq_true]
  constructor
  · intro hall unit hunit
    have hbound : unit < buf.received.length := by omega
    have hmem : buf.received.get ⟨unit, hbound⟩ ∈ buf.received.take stop := by
      apply List.mem_of_getElem? (i := unit)
      rw [List.getElem?_take_of_lt hunit]
      exact List.getElem?_eq_getElem hbound
    have hset := hall _ hmem
    rw [id] at hset
    rw [← hset]
    exact List.getElem?_eq_getElem hbound
  · intro hall value hmem
    obtain ⟨unit, hunit⟩ := List.getElem?_of_mem hmem
    have hbound := (List.getElem?_eq_some_iff.mp hunit).1
    rw [List.length_take] at hbound
    rw [List.getElem?_take_of_lt (by omega), hall unit (by omega)] at hunit
    simpa using hunit.symm

theorem isComplete_total {slot : Collecting}
    (hlen : ∀ len, slot.len = some len → len ≤ maxDatagramLen) :
    ∃ complete, slot.isComplete = .ok complete ∧
      (complete = true ↔ ∃ first len, Complete slot first len) := by
  unfold Collecting.isComplete Complete
  cases hfirst : slot.first with
  | none => exact ⟨_, rfl, by simp⟩
  | some first =>
      cases hlast : slot.len with
      | none => exact ⟨_, rfl, by simp⟩
      | some len =>
          have hunits := unitsUpTo_le_blocks (hlen len hlast)
          simp only
          rw [if_pos (by rw [slot.buf.received_length]; exact hunits)]
          refine ⟨_, rfl, ?_⟩
          rw [all_received hunits]
          simp

theorem finish_complete {slot : Collecting} {first : FragmentHeader}
    {len : Nat} (hcomplete : slot.isComplete = .ok true)
    (h : Complete slot first len) :
    slot.finish = .ok (some ⟨first, slot.buf, len⟩) := by
  simp only [Collecting.finish, hcomplete, bind, Except.bind, Bool.not_true,
    Bool.false_eq_true, if_false, h.1, h.2.1]

/-- Every unit up to the end is in exactly when the fragments reach every
byte. -/
theorem complete_iff {slot : Collecting} {pieces : List Fragment} {len : Nat}
    (hslot : Assembled slot pieces) (hlen : slot.len = some len) :
    (∀ unit, unit < unitsUpTo len → slot.buf.received[unit]? = some true) ↔
      ∀ position, position < len →
        ∃ piece ∈ pieces, Fragment.Covers piece position := by
  constructor
  · intro hunits position hposition
    have hunit : position / fragmentUnit < unitsUpTo len := by
      simp only [unitsUpTo, fragmentUnit_eq]
      omega
    obtain ⟨piece, hpiece, hcovers⟩ :=
      (hslot.received _).mp (hunits _ hunit)
    refine ⟨piece, hpiece, ?_⟩
    have haligned := hslot.aligned piece hpiece
    cases hmore : piece.header.more with
    | true =>
        have hwhole := hslot.whole piece hpiece hmore
        simp only [Fragment.Covers, Fragment.stop, Fragment.Aligned,
          fragmentUnit_eq] at *
        omega
    | false =>
        -- The last fragment can end inside its last unit, but not before the
        -- datagram does.
        have hstop := ((hslot.ended len hlen).2 piece hpiece).1 hmore
        simp only [Fragment.Covers, fragmentUnit_eq] at *
        omega
  · intro hcovered unit hunit
    rw [hslot.received]
    apply hcovered
    simp only [unitsUpTo, fragmentUnit_eq] at *
    omega

theorem complete_tiled {slot : Collecting} {pieces : List Fragment}
    {first : FragmentHeader} {len : Nat} (hslot : Assembled slot pieces)
    (h : Complete slot first len) : Tiled slot.buf.bytes len pieces where
  apart := hslot.apart
  covered := by
    intro position
    constructor
    · exact (complete_iff hslot h.2.1).mp h.2.2 position
    · rintro ⟨piece, hpiece, hcovers⟩
      exact ((hslot.ended len h.2.1).2 piece hpiece).2 position hcovers
  bytes := hslot.bytes

end Netflector.Dispatch
