import Netflector.Dispatch.Slots

/-!
# Completing a datagram

The fragments of one datagram, offered in any order to a reassembler that has
not seen it, complete with the last of them.
-/

namespace Netflector.Dispatch

open Netflector.Foundation
open Netflector.Net

structure Division (datagram : Bytes) (pieces : List Fragment) : Prop where
  fits : datagram.length ≤ maxDatagramLen
  aligned : ∀ piece ∈ pieces, Fragment.Aligned piece
  whole : ∀ piece ∈ pieces, piece.header.more = true →
    piece.data.length % fragmentUnit = 0
  headed : ∀ piece ∈ pieces, piece.header.offset = 0 → piece.headers.isSome
  nonempty : ∀ piece ∈ pieces, Fragment.Covers piece piece.header.offset
  inside : ∀ piece ∈ pieces, Fragment.stop piece ≤ datagram.length
  last : ∀ piece ∈ pieces, piece.header.more = false →
    Fragment.stop piece = datagram.length
  data : ∀ piece ∈ pieces, ∀ index, index < piece.data.length →
    piece.data[index]? = datagram[piece.header.offset + index]?
  apart : pieces.Pairwise Fragment.Apart
  covered : ∀ position, position < datagram.length →
    ∃ piece ∈ pieces, Fragment.Covers piece position
  headedBy : ∃ piece ∈ pieces, piece.header.offset = 0
  endedBy : ∃ piece ∈ pieces, piece.header.more = false

theorem Fragment.Apart.symm {first second : Fragment}
    (h : Fragment.Apart first second) : Fragment.Apart second first :=
  fun position hsecond hfirst => h position hfirst hsecond

theorem Division.perm {datagram : Bytes} {pieces order : List Fragment}
    (h : Division datagram pieces) (hperm : order.Perm pieces) :
    Division datagram order := by
  have hmem : ∀ piece, piece ∈ order ↔ piece ∈ pieces :=
    fun piece => hperm.mem_iff
  constructor
  case fits => exact h.fits
  case apart =>
    exact (hperm.pairwise_iff fun hapart => hapart.symm).mpr h.apart
  case covered =>
    intro position hposition
    obtain ⟨piece, hpiece, hcovers⟩ := h.covered position hposition
    exact ⟨piece, (hmem piece).mpr hpiece, hcovers⟩
  case headedBy =>
    obtain ⟨piece, hpiece, hzero⟩ := h.headedBy
    exact ⟨piece, (hmem piece).mpr hpiece, hzero⟩
  case endedBy =>
    obtain ⟨piece, hpiece, hmore⟩ := h.endedBy
    exact ⟨piece, (hmem piece).mpr hpiece, hmore⟩
  case aligned => exact fun piece hpiece => h.aligned piece ((hmem _).mp hpiece)
  case whole => exact fun piece hpiece => h.whole piece ((hmem _).mp hpiece)
  case headed => exact fun piece hpiece => h.headed piece ((hmem _).mp hpiece)
  case nonempty =>
    exact fun piece hpiece => h.nonempty piece ((hmem _).mp hpiece)
  case inside => exact fun piece hpiece => h.inside piece ((hmem _).mp hpiece)
  case last => exact fun piece hpiece => h.last piece ((hmem _).mp hpiece)
  case data => exact fun piece hpiece => h.data piece ((hmem _).mp hpiece)

/-! ## A slot between the first and the last of them -/

section Slot

variable {datagram : Bytes} {slot : Collecting} {taken left : List Fragment}
  {fragment : Fragment}

theorem len_of_division (h : Division datagram (taken ++ left))
    (hslot : Assembled slot taken) {len : Nat} (hlen : slot.len = some len) :
    len = datagram.length := by
  obtain ⟨⟨piece, hpiece, hmore⟩, hstops⟩ := hslot.ended len hlen
  rw [← (hstops piece hpiece).1 hmore]
  exact h.last piece (List.mem_append_left _ hpiece) hmore

theorem apart_of_division
    (h : Division datagram (taken ++ fragment :: left)) :
    ∀ piece ∈ taken, Fragment.Apart piece fragment := by
  intro piece hpiece
  exact (List.pairwise_append.mp h.apart).2.2 piece hpiece fragment
    (List.mem_cons_self ..)

theorem acceptable_of_division
    (h : Division datagram (taken ++ fragment :: left))
    (hslot : Assembled slot taken) : Acceptable slot fragment := by
  have hmem : fragment ∈ taken ++ fragment :: left := by simp
  have haligned := h.aligned fragment hmem
  have hinside := h.inside fragment hmem
  constructor
  case whole => exact h.whole fragment hmem
  case headed => exact h.headed fragment hmem
  case fits => exact Nat.le_trans hinside h.fits
  case ends =>
    unfold EndsHere
    cases hlen : slot.len with
    | some len =>
        have hsame := len_of_division h hslot hlen
        subst hsame
        simp only
        split
        · exact hinside
        · rename_i hmore
          exact h.last fragment hmem (by simpa using hmore)
    | none =>
        intro hmore unit hunit htaken
        obtain ⟨piece, hpiece, hcovers⟩ := (hslot.received unit).mp htaken
        have hpieceInside := h.inside piece (List.mem_append_left _ hpiece)
        rw [h.last fragment hmem hmore] at hunit
        simp only [Fragment.Covers, unitsUpTo, fragmentUnit_eq] at *
        omega
  case free =>
    intro unit hstart hstop htaken
    obtain ⟨piece, hpiece, hcovers⟩ := (hslot.received unit).mp htaken
    exact apart_of_division h piece hpiece _ hcovers
      ((unit_iff_covers haligned unit).mp ⟨hstart, hstop⟩)

theorem incomplete_of_division
    (h : Division datagram (taken ++ fragment :: left))
    (hslot : Assembled slot taken) :
    ¬ ∃ first len, Complete slot first len := by
  rintro ⟨first, len, hcomplete⟩
  have hmem : fragment ∈ taken ++ fragment :: left := by simp
  have hlen := len_of_division h hslot hcomplete.2.1
  have hcovers := h.nonempty fragment hmem
  have hinside := h.inside fragment hmem
  obtain ⟨piece, hpiece, hpieceCovers⟩ :=
    (complete_iff hslot hcomplete.2.1).mp hcomplete.2.2 fragment.header.offset
      (by rw [hlen]; exact Nat.lt_of_lt_of_le hcovers.2 hinside)
  exact apart_of_division h piece hpiece _ hpieceCovers hcovers

theorem complete_of_division (h : Division datagram taken)
    (hslot : Assembled slot taken) :
    ∃ first, Complete slot first datagram.length ∧
      ∃ piece ∈ taken, piece.header = first := by
  obtain ⟨piece, hpiece, hzero⟩ := h.headedBy
  have hfirst := (hslot.first piece.header).mpr ⟨piece, hpiece, rfl, hzero⟩
  cases hlen : slot.len with
  | none =>
      obtain ⟨last, hlast, hmore⟩ := h.endedBy
      rw [hslot.unended hlen last hlast] at hmore
      cases hmore
  | some len =>
      have hall : Division datagram (taken ++ []) := by
        rwa [List.append_nil]
      have hsame := len_of_division hall hslot hlen
      subst hsame
      exact ⟨piece.header,
        ⟨hfirst, hlen, (complete_iff hslot hlen).mpr h.covered⟩, piece, hpiece,
        rfl⟩

theorem bytes_of_division (h : Division datagram taken)
    (hslot : Assembled slot taken) :
    slot.buf.bytes.take datagram.length = datagram := by
  apply List.ext_getElem?
  intro position
  rcases Nat.lt_or_ge position datagram.length with hinside | hbehind
  · obtain ⟨piece, hpiece, hcovers⟩ := h.covered position hinside
    obtain ⟨index, rfl⟩ := Nat.exists_eq_add_of_le hcovers.1
    have hindex : index < piece.data.length := by
      have hstop := hcovers.2
      unfold Fragment.stop at hstop
      omega
    rw [List.getElem?_take_of_lt hinside,
      hslot.bytes piece hpiece index hindex, h.data piece hpiece index hindex]
  · rw [List.getElem?_take_eq_none hbehind, List.getElem?_eq_none hbehind]

end Slot

namespace Reassembler

/-! ## Offering them in turn -/

def offerAll (reassembler : Reassembler) (ingress : CaptureKey) (now : Nat) :
    List Fragment → Except Panic (Reassembler × List (Option Reassembled))
  | [] => .ok (reassembler, [])
  | fragment :: fragments => do
      let (reassembler, result) ← reassembler.offer ingress fragment true now
      let (reassembler, results) ← reassembler.offerAll ingress now fragments
      .ok (reassembler, result :: results)

/-- The datagram has taken these fragments at `now`, if any. -/
structure Underway (reassembler : Reassembler) (key : DatagramKey)
    (now : Nat) (taken : List Fragment) : Prop where
  sane : reassembler.Sane
  kept : (reassembler.expire now).discarding.get key = none
  slot : (taken = [] ∧ (reassembler.expire now).collecting.get key = none) ∨
    ∃ slot, (key, slot) ∈ reassembler.collecting.entries ∧
      slot.started = now ∧ Assembled slot taken

theorem underway_new (key : DatagramKey) (now : Nat) :
    new.Underway key now [] :=
  ⟨sane_new, rfl, .inl ⟨rfl, rfl⟩⟩

theorem underway_slot {reassembler : Reassembler} {key : DatagramKey}
    {now : Nat} {taken : List Fragment} {slot : Collecting}
    (hsane : reassembler.Sane)
    (hmem : (key, slot) ∈ reassembler.collecting.entries)
    (hstarted : slot.started = now) (hslot : Assembled slot taken) :
    reassembler.Underway key now taken := by
  obtain ⟨hexpired, hlive⟩ := expire_spec hsane now
  refine ⟨hsane, ?_, .inr ⟨slot, hmem, hstarted, hslot⟩⟩
  rw [LinearMap.get_eq_none_iff]
  intro since
  apply hexpired.separate key slot since
  rw [hlive, hstarted, Nat.sub_self]
  exact ⟨hmem, by decide⟩

structure Finds (reassembler : Reassembler) (key : DatagramKey) (now : Nat)
    (taken : List Fragment) : Prop where
  kept : (reassembler.expire now).discarding.get key = none
  slot : (taken = [] ∧ (reassembler.expire now).collecting.get key = none) ∨
    ∃ slot, (key, slot) ∈ reassembler.collecting.entries ∧
      now - slot.started < expiry ∧ Assembled slot taken

theorem Underway.finds {reassembler : Reassembler} {key : DatagramKey}
    {now : Nat} {taken : List Fragment}
    (h : reassembler.Underway key now taken) :
    reassembler.Finds key now taken := by
  refine ⟨h.kept, ?_⟩
  rcases h.slot with hnone | ⟨slot, hmem, hstarted, hslot⟩
  · exact .inl hnone
  · refine .inr ⟨slot, hmem, ?_, hslot⟩
    rw [hstarted, Nat.sub_self]
    decide

def Opened (reassembler : Reassembler) (key : DatagramKey) (now : Nat)
    (slot : Collecting) : Prop :=
  slot.started = now ∨
    ∃ old, (key, old) ∈ (reassembler.expire now).collecting.entries ∧
      slot.started = old.started

theorem finds_open {reassembler : Reassembler} {key : DatagramKey}
    {now : Nat} {taken : List Fragment} (hsane : reassembler.Sane)
    (h : reassembler.Finds key now taken) :
    ∃ slot, ((reassembler.expire now).openSlot key now).collecting.get key =
        some slot ∧ reassembler.Opened key now slot ∧ Assembled slot taken := by
  obtain ⟨hexpired, hlive⟩ := expire_spec hsane now
  obtain ⟨_, _, _, slot, hget, hsource⟩ := openSlot_spec hexpired now h.kept
  refine ⟨slot, hget, ?_⟩
  rcases h.slot with ⟨rfl, hnone⟩ | ⟨old, hmem, hcurrent, hslot⟩
  · rcases hsource with hold | ⟨_, buf, rfl⟩
    · rw [hnone] at hold
      cases hold
    · exact ⟨.inl rfl, assembled_new buf now⟩
  · have hold : (reassembler.expire now).collecting.get key = some old := by
      rw [LinearMap.get_eq_some_iff, hlive]
      exact ⟨hmem, hcurrent⟩
    rw [hold] at hsource
    rcases hsource with hsame | ⟨hnone, _⟩
    · cases hsame
      exact ⟨.inr ⟨slot, LinearMap.get_eq_some_iff.mp hold, rfl⟩, hslot⟩
    · cases hnone

theorem offer_finds {reassembler : Reassembler} {ingress : CaptureKey}
    {fragment : Fragment} {now : Nat} {taken : List Fragment}
    (hsane : reassembler.Sane)
    (h : reassembler.Finds (keyOf ingress fragment) now taken)
    (haligned : Fragment.Aligned fragment)
    (haccept : ∀ slot, Assembled slot taken → Acceptable slot fragment) :
    ∃ slot', Assembled slot' (taken ++ [fragment]) ∧
      reassembler.Opened (keyOf ingress fragment) now slot' ∧
      (((¬ ∃ first len, Complete slot' first len) ∧
        ∃ reassembler',
          reassembler.offer ingress fragment true now =
            .ok (reassembler', none) ∧
          reassembler'.Sane ∧
          (keyOf ingress fragment, slot') ∈ reassembler'.collecting.entries) ∨
      ∃ first len reassembler', Complete slot' first len ∧
        reassembler.offer ingress fragment true now =
          .ok (reassembler', some ⟨first, slot'.buf, len⟩)) := by
  obtain ⟨hexpired, _⟩ := expire_spec hsane now
  obtain ⟨hopened, hfree, _⟩ := openSlot_spec hexpired now h.kept
  obtain ⟨slot, hget, hstarted, hslot⟩ := finds_open hsane h
  have hsized := hopened.sized _ slot (LinearMap.get_eq_some_iff.mp hget)
  have hacceptable := haccept slot hslot
  obtain ⟨slot', htook, hresult⟩ := collect_taken now hget hsized hacceptable
  have hoffer : reassembler.offer ingress fragment true now =
      ((reassembler.expire now).openSlot (keyOf ingress fragment) now).collect
        (keyOf ingress fragment) fragment now := by
    simp only [offer, h.kept]
    rfl
  rw [hoffer]
  refine ⟨slot', assembled_took hslot haligned hacceptable htook, ?_, ?_⟩
  · rw [Opened, htook.started]
    exact hstarted
  rcases hresult with ⟨hincomplete, hcollect⟩ | ⟨first, len, hdone, hcollect⟩
  · refine .inl ⟨hincomplete, _, hcollect, ?_,
      LinearMap.mem_insert.mpr (.inl rfl)⟩
    exact sane_insert hopened hfree (took_sized hsized hacceptable htook) _ _
  · exact .inr ⟨first, len, _, hdone, hcollect⟩

theorem offer_underway {reassembler : Reassembler} {ingress : CaptureKey}
    {fragment : Fragment} {now : Nat} {taken : List Fragment}
    (h : reassembler.Underway (keyOf ingress fragment) now taken)
    (haligned : Fragment.Aligned fragment)
    (haccept : ∀ slot, Assembled slot taken → Acceptable slot fragment) :
    ∃ slot', Assembled slot' (taken ++ [fragment]) ∧
      (((¬ ∃ first len, Complete slot' first len) ∧
        ∃ reassembler',
          reassembler.offer ingress fragment true now =
            .ok (reassembler', none) ∧
          reassembler'.Underway (keyOf ingress fragment) now
            (taken ++ [fragment])) ∨
      ∃ first len reassembler', Complete slot' first len ∧
        reassembler.offer ingress fragment true now =
          .ok (reassembler', some ⟨first, slot'.buf, len⟩)) := by
  obtain ⟨slot', hslot', hopened, hresult⟩ :=
    offer_finds h.sane h.finds haligned haccept
  refine ⟨slot', hslot', ?_⟩
  rcases hresult with ⟨hincomplete, after, hoffer, hsane, hmem⟩ | hdone
  · refine .inl ⟨hincomplete, after, hoffer, underway_slot hsane hmem ?_ hslot'⟩
    rcases hopened with hnow | ⟨old, hold, hsame⟩
    · exact hnow
    rcases h.slot with ⟨_, hnone⟩ | ⟨slot, hslot, hstarted, _⟩
    · exact absurd hold (LinearMap.get_eq_none_iff.mp hnone old)
    · have hget := LinearMap.get_eq_some_iff.mpr
        (((expire_spec h.sane now).2 _).mp hold).1
      rw [LinearMap.get_eq_some_iff.mpr hslot, Option.some.injEq] at hget
      rw [hsame, ← hget]
      exact hstarted
  · exact .inr hdone

/-- The last of the fragments completes the datagram, and none before it. -/
theorem offerAll_complete {reassembler : Reassembler} {ingress : CaptureKey}
    {key : DatagramKey} {now : Nat} {datagram : Bytes}
    {taken left : List Fragment} {fragment : Fragment}
    (h : Division datagram (taken ++ fragment :: left))
    (hkey : ∀ piece ∈ fragment :: left, keyOf ingress piece = key)
    (hunderway : reassembler.Underway key now taken) :
    ∃ after done,
      reassembler.offerAll ingress now (fragment :: left) =
        .ok (after, List.replicate left.length none ++ [some done]) ∧
      done.buf.bytes.take done.len = datagram ∧
      done.len = datagram.length ∧
      ∃ piece ∈ taken ++ fragment :: left, piece.header = done.first := by
  induction left generalizing reassembler taken fragment with
  | nil =>
      obtain rfl := hkey fragment (List.mem_cons_self ..)
      obtain ⟨slot, hslot, hresult⟩ := offer_underway hunderway
        (h.aligned fragment (by simp))
        (fun slot => acceptable_of_division h)
      obtain ⟨first, hcomplete, hfirst⟩ := complete_of_division h hslot
      rcases hresult with ⟨hincomplete, _⟩ | ⟨first', len, after, hdone, hoffer⟩
      · exact absurd ⟨first, _, hcomplete⟩ hincomplete
      have hsame : first' = first := by
        rw [← Option.some.injEq, ← hdone.1, hcomplete.1]
      have hlen : len = datagram.length := by
        rw [← Option.some.injEq, ← hdone.2.1, hcomplete.2.1]
      subst hsame hlen
      refine ⟨after, ⟨first', slot.buf, _⟩, ?_, bytes_of_division h hslot, rfl,
        hfirst⟩
      simp only [offerAll, hoffer, bind, Except.bind]
      rfl
  | cons next left ih =>
      obtain rfl := hkey fragment (List.mem_cons_self ..)
      have hrest : Division datagram ((taken ++ [fragment]) ++ next :: left) := by
        rwa [List.append_assoc]
      obtain ⟨slot, hslot, hresult⟩ := offer_underway hunderway
        (h.aligned fragment (by simp))
        (fun slot => acceptable_of_division h)
      rcases hresult with ⟨_, before, hoffer, hbefore⟩ |
        ⟨first, len, _, hdone, _⟩
      · obtain ⟨after, done, hall, hbytes, hlen, piece, hpiece, hheader⟩ :=
          ih hrest (fun piece hpiece => hkey piece (List.mem_cons_of_mem _ hpiece))
            hbefore
        refine ⟨after, done, ?_, hbytes, hlen, piece, ?_, hheader⟩
        · rw [offerAll, hoffer]
          simp only [hall, bind, Except.bind]
          rfl
        · rwa [List.append_assoc] at hpiece
      · exact absurd ⟨first, len, hdone⟩ (incomplete_of_division hrest hslot)

end Reassembler

end Netflector.Dispatch
