import Netflector.Dispatch.Slots

/-!
# Soundness of reassembly

Over every run of offers, drained losses and recycled buffers, a datagram that
comes out is tiled by the fragments its slot has taken since it was opened.
-/

namespace Netflector.Dispatch.Reassembler

open Netflector.Foundation
open Netflector.Net

/-! ## Runs -/

inductive Op where
  | offer (ingress : CaptureKey) (fragment : Fragment) (wanted : Bool)
      (now : Nat)
  | drainLost
  | recycle (done : Reassembled)

def step (reassembler : Reassembler) : Op → Except Panic Reassembler
  | .offer ingress fragment wanted now => do
      let (reassembler, _) ← reassembler.offer ingress fragment wanted now
      .ok reassembler
  | .drainLost => .ok reassembler.drainLost.1
  | .recycle done => .ok (reassembler.recycle done)

def run (ops : List Op) : Except Panic Reassembler :=
  ops.foldlM step new

theorem run_append (ops : List Op) (op : Op) :
    run (ops ++ [op]) = run ops >>= fun reassembler => reassembler.step op := by
  simp only [run, List.foldlM_append, List.foldlM_cons, List.foldlM_nil,
    bind_pure]

def Op.Offers (key : DatagramKey) : Op → Prop
  | .offer ingress fragment _ _ => keyOf ingress fragment = key
  | _ => False

/-- Every fragment offered has an offset that the headers can hold. -/
def Placed (ops : List Op) : Prop :=
  ∀ ingress fragment wanted now,
    Op.offer ingress fragment wanted now ∈ ops → Fragment.Placed fragment

def Holds (ops : List Op) (key : DatagramKey) (started : Nat) : Prop :=
  ∃ reassembler slot, run ops = .ok reassembler ∧
    reassembler.collecting.get key = some slot ∧ slot.started = started

/-- After `ops` the datagram's slot was opened at `started` and was offered
exactly `pieces` since, all of them wanted and none past its expiry. -/
inductive Since (key : DatagramKey) (started : Nat) :
    List Op → List Fragment → Prop where
  | opened {ops : List Op} {reassembler : Reassembler} {ingress : CaptureKey}
      {fragment : Fragment} (hrun : run ops = .ok reassembler)
      (hnone : (reassembler.expire started).collecting.get key = none)
      (hkey : keyOf ingress fragment = key) :
      Since key started (ops ++ [.offer ingress fragment true started])
        [fragment]
  | passed {ops : List Op} {pieces : List Fragment} {op : Op}
      (hsince : Since key started ops pieces)
      (hholds : Holds ops key started) (hop : ¬ op.Offers key) :
      Since key started (ops ++ [op]) pieces
  | took {ops : List Op} {pieces : List Fragment} {ingress : CaptureKey}
      {fragment : Fragment} {now : Nat}
      (hsince : Since key started ops pieces)
      (hholds : Holds ops key started)
      (hkey : keyOf ingress fragment = key)
      (hlive : now - started < expiry) :
      Since key started (ops ++ [.offer ingress fragment true now])
        (pieces ++ [fragment])

theorem Since.offered {key : DatagramKey} {started : Nat} {ops : List Op}
    {pieces : List Fragment} (h : Since key started ops pieces) :
    ∀ piece ∈ pieces, ∃ ingress now,
      Op.offer ingress piece true now ∈ ops ∧ keyOf ingress piece = key := by
  induction h with
  | @opened ops reassembler ingress fragment hrun hnone hkey =>
      rw [List.forall_mem_singleton]
      exact ⟨ingress, started, by simp, hkey⟩
  | passed hsince hholds hop ih =>
      intro piece hpiece
      obtain ⟨ingress, now, hmem, hkey⟩ := ih piece hpiece
      exact ⟨ingress, now, List.mem_append_left _ hmem, hkey⟩
  | @took ops pieces ingress fragment now hsince hholds hkey hlive ih =>
      refine List.forall_mem_append.mpr ⟨?_, List.forall_mem_singleton.mpr ?_⟩
      · intro piece hpiece
        obtain ⟨ingress, now, hmem, hkey⟩ := ih piece hpiece
        exact ⟨ingress, now, List.mem_append_left _ hmem, hkey⟩
      · exact ⟨ingress, now, by simp, hkey⟩

/-! ## What every run keeps -/

theorem step_total {reassembler : Reassembler} (h : reassembler.Sane)
    {op : Op} (hplaced : Placed [op]) :
    ∃ reassembler', reassembler.step op = .ok reassembler' ∧
      reassembler'.Sane := by
  cases op with
  | offer ingress fragment wanted now =>
      have hplaced :=
        hplaced ingress fragment wanted now (List.mem_singleton_self _)
      obtain ⟨reassembler', result, hoffer, hoffered⟩ :=
        offer_total h ingress (Fragment.Placed.endFits hplaced) wanted now
      refine ⟨reassembler', ?_, hoffered.sane⟩
      simp only [step, hoffer, bind, Except.bind]
  | drainLost => exact ⟨_, rfl, h.separate, h.sized⟩
  | recycle done => exact ⟨_, rfl, h.separate, h.sized⟩

theorem Placed.split {ops more : List Op} (h : Placed (ops ++ more)) :
    Placed ops ∧ Placed more :=
  ⟨fun ingress fragment wanted now hmem =>
      h ingress fragment wanted now (List.mem_append_left _ hmem),
    fun ingress fragment wanted now hmem =>
      h ingress fragment wanted now (List.mem_append_right _ hmem)⟩

theorem run_total {ops : List Op} (hplaced : Placed ops) :
    ∃ reassembler, run ops = .ok reassembler ∧ reassembler.Sane := by
  induction ops using List.reverseRecOn with
  | nil => exact ⟨new, rfl, sane_new⟩
  | append_singleton ops op ih =>
      obtain ⟨hops, hop⟩ := hplaced.split
      obtain ⟨reassembler, hrun, hsane⟩ := ih hops
      rw [run_append, hrun]
      exact step_total hsane hop

def Traced (ops : List Op) (reassembler : Reassembler) : Prop :=
  ∀ key slot, (key, slot) ∈ reassembler.collecting.entries →
    ∃ pieces, Since key slot.started ops pieces ∧ Assembled slot pieces

theorem taken_since {ops : List Op} {reassembler : Reassembler}
    {ingress : CaptureKey} {fragment : Fragment} {wanted : Bool} {now : Nat}
    {slot' : Collecting} (hrun : run ops = .ok reassembler)
    (htraced : Traced ops reassembler) (haligned : Fragment.Aligned fragment)
    (h : reassembler.Taken (keyOf ingress fragment) fragment wanted now slot') :
    wanted = true ∧ now - slot'.started < expiry ∧ ∃ pieces,
      Since (keyOf ingress fragment) slot'.started
        (ops ++ [.offer ingress fragment wanted now]) pieces ∧
      Assembled slot' pieces := by
  obtain ⟨rfl, slot, hsource, haccept, htook⟩ := h
  rw [htook.started]
  refine ⟨rfl, ?_⟩
  rcases hsource with ⟨hmem, hlive⟩ | ⟨hnone, buf, rfl⟩
  · obtain ⟨pieces, hsince, hslot⟩ := htraced _ slot hmem
    refine ⟨hlive, pieces ++ [fragment], ?_,
      assembled_took hslot haligned haccept htook⟩
    exact .took hsince
      ⟨reassembler, slot, hrun, LinearMap.get_eq_some_iff.mpr hmem, rfl⟩ rfl
      hlive
  · refine ⟨?_, [fragment], .opened hrun hnone rfl,
      assembled_took (assembled_new buf now) haligned haccept htook⟩
    simp [Collecting.new, expiry]

theorem step_traced {ops : List Op} {reassembler reassembler' : Reassembler}
    {op : Op} (hrun : run ops = .ok reassembler) (hsane : reassembler.Sane)
    (htraced : Traced ops reassembler) (hplaced : Placed [op])
    (hstep : reassembler.step op = .ok reassembler') :
    Traced (ops ++ [op]) reassembler' := by
  have hpass : ∀ key slot, (key, slot) ∈ reassembler.collecting.entries →
      ¬ op.Offers key → ∃ pieces, Since key slot.started (ops ++ [op]) pieces ∧
        Assembled slot pieces := by
    intro key slot hmem hop
    obtain ⟨pieces, hsince, hslot⟩ := htraced key slot hmem
    exact ⟨pieces, .passed hsince ⟨reassembler, slot, hrun,
      LinearMap.get_eq_some_iff.mpr hmem, rfl⟩ hop, hslot⟩
  cases op with
  | offer ingress fragment wanted now =>
      have hplaced :=
        hplaced ingress fragment wanted now (List.mem_singleton_self _)
      obtain ⟨_, result, hoffer, hoffered⟩ :=
        offer_total hsane ingress (Fragment.Placed.endFits hplaced) wanted now
      simp only [step, hoffer, bind, Except.bind, Except.ok.injEq] at hstep
      subst hstep
      intro key slot hmem
      by_cases hkey : keyOf ingress fragment = key
      · subst hkey
        exact (taken_since hrun htraced (Fragment.Placed.aligned hplaced)
          (hoffered.own slot hmem)).2.2
      · exact hpass key slot (hoffered.others _ hmem (Ne.symm hkey)) hkey
  | drainLost =>
      cases hstep
      exact fun key slot hmem => hpass key slot hmem id
  | recycle done =>
      cases hstep
      exact fun key slot hmem => hpass key slot hmem id

theorem run_traced {ops : List Op} {reassembler : Reassembler}
    (hplaced : Placed ops) (hrun : run ops = .ok reassembler) :
    Traced ops reassembler := by
  induction ops using List.reverseRecOn generalizing reassembler with
  | nil =>
      cases hrun
      intro key slot hmem
      cases hmem
  | append_singleton ops op ih =>
      obtain ⟨hops, hop⟩ := hplaced.split
      obtain ⟨before, hbefore, hsane⟩ := run_total hops
      rw [run_append, hbefore] at hrun
      exact step_traced hbefore hsane (ih hops hbefore) hop hrun

/-! ## What comes out -/

/-- The datagram is what its slot was offered since it was opened. -/
structure Genuine (ops : List Op) (key : DatagramKey) (now : Nat)
    (done : Reassembled) (started : Nat) (pieces : List Fragment) : Prop where
  since : Since key started ops pieces
  live : now - started < expiry
  fits : done.len ≤ done.buf.bytes.length
  tiled : Tiled done.buf.bytes done.len pieces
  ended : ∃ piece ∈ pieces, piece.header.more = false
  stop : ∀ piece ∈ pieces, piece.header.more = false →
    Fragment.stop piece = done.len
  headed : ∃ piece ∈ pieces, piece.header.offset = 0
  first : ∀ piece ∈ pieces, piece.header.offset = 0 →
    piece.header = done.first

theorem offer_sound (ops : List Op) (ingress : CaptureKey)
    (fragment : Fragment) (wanted : Bool) (now : Nat)
    (h : Placed (ops ++ [.offer ingress fragment wanted now])) :
    ∃ before after result, run ops = .ok before ∧
      before.offer ingress fragment wanted now = .ok (after, result) ∧
      ∀ done, result = some done → wanted = true ∧ ∃ started pieces,
        Genuine (ops ++ [.offer ingress fragment wanted now])
          (keyOf ingress fragment) now done started pieces := by
  obtain ⟨hplaced, -⟩ := h.split
  have hfragment := h ingress fragment wanted now (by simp)
  obtain ⟨before, hrun, hsane⟩ := run_total hplaced
  obtain ⟨after, result, hoffer, hoffered⟩ :=
    offer_total hsane ingress (Fragment.Placed.endFits hfragment) wanted now
  refine ⟨before, after, result, hrun, hoffer, ?_⟩
  intro done hdone
  obtain ⟨slot, first, len, htaken, hcomplete, hlen, rfl⟩ :=
    hoffered.completed done hdone
  have haligned := Fragment.Placed.aligned hfragment
  obtain ⟨hwanted, hlive, pieces, hsince, hslot⟩ :=
    taken_since hrun (run_traced hplaced hrun) haligned htaken
  obtain ⟨hended, hpieces⟩ := hslot.ended len hcomplete.2.1
  refine ⟨hwanted, slot.started, pieces, hsince, hlive, ?_,
    complete_tiled hslot hcomplete, hended,
    fun piece hpiece => (hpieces piece hpiece).1, ?_, ?_⟩
  · rw [slot.buf.bytes_length]
    exact hlen
  · obtain ⟨piece, hpiece, hheader, hzero⟩ :=
      (hslot.first first).mp hcomplete.1
    exact ⟨piece, hpiece, by rw [hheader]; exact hzero⟩
  · intro piece hpiece hzero
    have hfirst := (hslot.first piece.header).mpr ⟨piece, hpiece, rfl, hzero⟩
    rw [hcomplete.1, Option.some.injEq] at hfirst
    exact hfirst.symm

/-! ## What the parser offers -/

theorem word_lt {Error : Type} {bytes : Bytes} {index value : Nat}
    (h : (word bytes index : Except (Stop Error) Nat) = .ok value) :
    value < 65536 := by
  obtain ⟨high, _, h⟩ := except_bind_ok h
  obtain ⟨low, _, h⟩ := except_bind_ok h
  cases h
  exact be16_lt high low

theorem datagram_not_fragment {link : ParsedLink} {source dest : IpAddr}
    {ttl : UInt8} {l4 : Bytes} {fragment : Fragment} :
    datagram link source dest ttl l4 ≠ .ok (.fragment fragment) := by
  intro h
  obtain ⟨_, _, h⟩ := except_bind_ok h
  cases h

theorem parseIpv4_placed {link : ParsedLink} {fragment : Fragment}
    (h : parseIpv4 link = .ok (.fragment fragment)) :
    Fragment.Placed fragment := by
  simp only [parseIpv4] at h
  split at h
  · cases h
  obtain ⟨versionIhl, _, h⟩ := except_bind_ok h
  split at h
  · cases h
  obtain ⟨protocol, _, h⟩ := except_bind_ok h
  split at h
  · cases h
  obtain ⟨totalLen, _, h⟩ := except_bind_ok h
  split at h
  · cases h
  obtain ⟨_, _, h⟩ := except_bind_ok h
  obtain ⟨source, _, h⟩ := except_bind_ok h
  obtain ⟨_, _, h⟩ := except_bind_ok h
  obtain ⟨dest, _, h⟩ := except_bind_ok h
  obtain ⟨ttl, _, h⟩ := except_bind_ok h
  obtain ⟨body, _, h⟩ := except_bind_ok h
  obtain ⟨flagsOffset, _, h⟩ := except_bind_ok h
  split at h
  · exact absurd h datagram_not_fragment
  obtain ⟨id, _, h⟩ := except_bind_ok h
  cases h
  exact ⟨flagsOffset &&& 0x1fff,
    Nat.lt_succ_of_le Nat.and_le_right, rfl⟩

theorem parseFragment_placed {link : ParsedLink} {source dest : Ipv6Addr}
    {hopLimit : UInt8} {body : Bytes} {fragment : Fragment}
    (h : parseFragment link source dest hopLimit body =
      .ok (.fragment fragment)) : Fragment.Placed fragment := by
  simp only [parseFragment] at h
  split at h
  · cases h
  obtain ⟨protocol, _, h⟩ := except_bind_ok h
  split at h
  · cases h
  obtain ⟨offsetMore, hword, h⟩ := except_bind_ok h
  split at h
  · exact absurd h datagram_not_fragment
  obtain ⟨_, _, h⟩ := except_bind_ok h
  obtain ⟨_, _, h⟩ := except_bind_ok h
  obtain ⟨_, _, h⟩ := except_bind_ok h
  obtain ⟨_, _, h⟩ := except_bind_ok h
  cases h
  have hlt := word_lt hword
  refine ⟨offsetMore >>> 3, ?_, rfl⟩
  rw [Nat.shiftRight_eq_div_pow]
  omega

theorem parseIpv6_placed {link : ParsedLink} {fragment : Fragment}
    (h : parseIpv6 link = .ok (.fragment fragment)) :
    Fragment.Placed fragment := by
  simp only [parseIpv6] at h
  split at h
  · cases h
  obtain ⟨payloadLen, _, h⟩ := except_bind_ok h
  split at h
  · cases h
  obtain ⟨_, _, h⟩ := except_bind_ok h
  obtain ⟨source, _, h⟩ := except_bind_ok h
  obtain ⟨_, _, h⟩ := except_bind_ok h
  obtain ⟨dest, _, h⟩ := except_bind_ok h
  obtain ⟨hopLimit, _, h⟩ := except_bind_ok h
  obtain ⟨body, _, h⟩ := except_bind_ok h
  obtain ⟨next, _, h⟩ := except_bind_ok h
  split at h
  · exact absurd h datagram_not_fragment
  split at h
  · exact parseFragment_placed h
  · cases h

/-- Every fragment the dispatcher offers comes from the parser. -/
theorem parse_placed {linkType : LinkType} {frame : Bytes}
    {fragment : Fragment}
    (h : Parsed.parse linkType frame = .ok (.fragment fragment)) :
    Fragment.Placed fragment := by
  obtain ⟨link, _, h⟩ := except_bind_ok h
  split at h
  · cases h
  simp only at h
  split at h
  · exact parseIpv4_placed h
  split at h
  · exact parseIpv6_placed h
  · cases h

/-! ## Offsets outside the headers -/

section Pieces

def loopback : IpAddr := .v4 ⟨[127, 0, 0, 1], rfl⟩

def pieceAt (offset : Nat) (more : Bool) (byte : UInt8) : Fragment :=
  ⟨⟨loopback, loopback, 1, offset, more, 64, none, none⟩,
    List.replicate 8 byte⟩

def lenAfter (ops : List Op) (ingress : CaptureKey) (fragment : Fragment)
    (now : Nat) : Except Panic (Option Nat) := do
  let reassembler ← run ops
  let (_, result) ← reassembler.offer ingress fragment true now
  .ok (result.map Reassembled.len)

theorem lenAfter_some {ops : List Op} {ingress : CaptureKey}
    {fragment : Fragment} {now len : Nat}
    (h : lenAfter ops ingress fragment now = .ok (some len)) :
    ∃ before after done, run ops = .ok before ∧
      before.offer ingress fragment true now = .ok (after, some done) ∧
      done.len = len := by
  obtain ⟨before, hrun, h⟩ := except_bind_ok h
  obtain ⟨⟨after, result⟩, hoffer, h⟩ := except_bind_ok h
  cases result with
  | none => cases h
  | some done =>
      cases h
      exact ⟨before, after, done, hrun, hoffer, rfl⟩

def pieceOps : List Op :=
  [.offer ⟨0⟩ (pieceAt 8 false 2) true 0, .drainLost]

theorem offer_sound_pieceOps :
    ∃ before after done, run pieceOps = .ok before ∧
      before.offer ⟨0⟩ (pieceAt 0 true 1) true 1 = .ok (after, some done) ∧
      ∃ started pieces,
        Genuine (pieceOps ++ [.offer ⟨0⟩ (pieceAt 0 true 1) true 1])
          (keyOf ⟨0⟩ (pieceAt 0 true 1)) 1 done started pieces := by
  have hplaced : Placed
      (pieceOps ++ [.offer ⟨0⟩ (pieceAt 0 true 1) true 1]) := by
    intro ingress fragment wanted now hmem
    simp only [pieceOps, List.cons_append, List.nil_append, List.mem_cons,
      List.not_mem_nil, or_false, Op.offer.injEq, reduceCtorEq, false_or]
      at hmem
    rcases hmem with ⟨_, rfl, _⟩ | ⟨_, rfl, _⟩
    · exact ⟨1, by decide, rfl⟩
    · exact ⟨0, by decide, rfl⟩
  have hlen : lenAfter pieceOps ⟨0⟩ (pieceAt 0 true 1) 1 = .ok (some 16) := by
    decide +kernel
  obtain ⟨before, after, done, hrun, hoffer, _⟩ := lenAfter_some hlen
  obtain ⟨_, _, _, hrun', hoffer', hsound⟩ :=
    offer_sound pieceOps ⟨0⟩ (pieceAt 0 true 1) true 1 hplaced
  rw [hrun, Except.ok.injEq] at hrun'
  subst hrun'
  rw [hoffer, Except.ok.injEq, Prod.mk.injEq] at hoffer'
  exact ⟨before, after, done, hrun, hoffer,
    (hsound done hoffer'.2.symm).2⟩

/-- The second of the two starts in the middle of a unit. -/
def gapOps : List Op :=
  [.offer ⟨0⟩ (pieceAt 0 true 1) true 0,
    .offer ⟨0⟩ (pieceAt 12 true 2) true 0]

/-- Units are marked whole, so bytes 8 to 12 come from no fragment. -/
theorem offer_fills_gap :
    ∃ before after done, run gapOps = .ok before ∧
      before.offer ⟨0⟩ (pieceAt 24 false 3) true 0 = .ok (after, some done) ∧
      ¬ ∃ started pieces,
        Genuine (gapOps ++ [.offer ⟨0⟩ (pieceAt 24 false 3) true 0])
          (keyOf ⟨0⟩ (pieceAt 24 false 3)) 0 done started pieces := by
  have hlen : lenAfter gapOps ⟨0⟩ (pieceAt 24 false 3) 0 = .ok (some 32) := by
    decide +kernel
  obtain ⟨before, after, done, hrun, hoffer, hlen⟩ := lenAfter_some hlen
  refine ⟨before, after, done, hrun, hoffer, ?_⟩
  rintro ⟨started, pieces, hgenuine⟩
  obtain ⟨piece, hpiece, hcovers⟩ :=
    (hgenuine.tiled.covered 8).mp (by rw [hlen]; decide)
  obtain ⟨ingress, now, hmem, _⟩ := hgenuine.since.offered piece hpiece
  simp only [gapOps, List.cons_append, List.nil_append, List.mem_cons,
    List.not_mem_nil, or_false, Op.offer.injEq] at hmem
  rcases hmem with ⟨_, rfl, _⟩ | ⟨_, rfl, _⟩ | ⟨_, rfl, _⟩
  · exact absurd hcovers.2 (by decide)
  · exact absurd hcovers.1 (by decide)
  · exact absurd hcovers.1 (by decide)

end Pieces

end Netflector.Dispatch.Reassembler
