import Netflector.Capture.Filter
import Netflector.Net.Parsing

/-!
# The filter and the parser agree

Where the link header names the IP version that the packet has, what the parser
accepts passes the filter, and what passes the filter is UDP to the parser.
-/

namespace Netflector.Capture

open Netflector.Foundation
open Netflector.Net

variable {frame : Bytes} {ancillary : Ancillary} {link : LinkType}
  {host : Host}

/-! ## Prologues -/

inductive Prologue where
  | dropOutgoing
  | dropVlanTagged
  deriving DecidableEq, Repr

def Prologue.program : Prologue → List BpfInsn
  | .dropOutgoing => dropOutgoingPrologue
  | .dropVlanTagged => dropVlanTaggedPrologue

/-- What a prologue drops by the metadata alone.  A load that is not answered
drops too. -/
def Prologue.drops (ancillary : Ancillary) : Prologue → Bool
  | .dropOutgoing =>
      match ancillary skfAdPkttype with
      | none => true
      | some type => type = packetOutgoing
  | .dropVlanTagged =>
      match ancillary skfAdVlanTagPresent with
      | none => true
      | some present =>
          present ≠ 0 &&
            match ancillary skfAdVlanTag with
            | none => true
            | some tci => tci &&& 0x0fff ≠ 0

/-- What is left in the accumulator does not matter to the program. -/
def Restarts (program : List BpfInsn) (frame : Bytes)
    (ancillary : Ancillary) : Prop :=
  ∀ a, runFrom frame ancillary program 0 a 0 =
    runFrom frame ancillary program 0 0 0

theorem dropOutgoing_run {program : List BpfInsn}
    (h : Restarts program frame ancillary) (a : UInt32) :
    runFrom frame ancillary (dropOutgoingPrologue ++ program) 0 a 0 =
      if Prologue.dropOutgoing.drops ancillary then .ok 0
      else runFrom frame ancillary program 0 0 0 := by
  have hoffset : ancillaryOff ≤ skfAdPkttype := by decide
  simp only [dropOutgoingPrologue, List.cons_append, List.nil_append,
    runFrom_ancillaryByte hoffset, Prologue.drops]
  rcases Option.eq_none_or_eq_some (ancillary skfAdPkttype) with
    hnone | ⟨type, htype⟩
  · simp [hnone]
  · by_cases hout : type = packetOutgoing
    · simp [htype, hout]
    · simp [htype, hout, h type]

theorem dropVlanTagged_run (program : List BpfInsn) (a : UInt32) :
    runFrom frame ancillary (dropVlanTaggedPrologue ++ program) 0 a 0 =
      if Prologue.dropVlanTagged.drops ancillary then .ok 0
      else runFrom frame ancillary program 0 0 0 := by
  have hpresent : ancillaryOff ≤ skfAdVlanTagPresent := by decide
  have htag : ancillaryOff ≤ skfAdVlanTag := by decide
  simp only [dropVlanTaggedPrologue, List.cons_append, List.nil_append,
    runFrom_ancillaryWord hpresent, Prologue.drops]
  rcases Option.eq_none_or_eq_some (ancillary skfAdVlanTagPresent) with
    hnone | ⟨present, hsome⟩
  · simp [hnone]
  by_cases huntagged : present = 0
  · simp [hsome, huntagged]
  rcases Option.eq_none_or_eq_some (ancillary skfAdVlanTag) with
    hnone | ⟨tci, htci⟩
  · simp [hsome, huntagged, runFrom_ancillaryWord htag, hnone]
  by_cases hpriority : tci &&& 0x0fff = 0
  · simp [hsome, huntagged, runFrom_ancillaryWord htag, htci, hpriority]
  · simp [hsome, huntagged, runFrom_ancillaryWord htag, htci, hpriority]

theorem classifier_restarts (host : Host) (link : LinkType) (frame : Bytes)
    (ancillary : Ancillary) :
    Restarts (classifier host link) frame ancillary := by
  have hsame : ∀ {first second : Except Panic UInt32} {accepted : Prop},
      Decides first accepted → Decides second accepted → first = second := by
    intro first second accepted hfirst hsecond
    by_cases haccepted : accepted
    · rw [hfirst.accepts haccepted, hsecond.accepts haccepted]
    · rw [hfirst.drops haccepted, hsecond.drops haccepted]
  intro a
  cases link with
  | ethernet => exact hsame ethernet_run ethernet_run
  | dltNull => exact hsame (dltNull_run host) (dltNull_run host)
  | rawIp => exact hsame rawIp_run rawIp_run

theorem prologues_run (host : Host) (link : LinkType) (frame : Bytes)
    (ancillary : Ancillary) (prologues : List Prologue) (a : UInt32) :
    runFrom frame ancillary
        (prologues.flatMap Prologue.program ++ classifier host link) 0 a 0 =
      if prologues.any (Prologue.drops ancillary) then .ok 0
      else runWith (classifier host link) frame ancillary := by
  induction prologues generalizing a with
  | nil => exact classifier_restarts host link frame ancillary a
  | cons prologue prologues ih =>
      have hrestarts : Restarts (prologues.flatMap Prologue.program ++
          classifier host link) frame ancillary := by
        intro a
        rw [ih a, ih 0]
      rw [List.flatMap_cons, List.append_assoc, List.any_cons]
      cases prologue with
      | dropOutgoing =>
          rw [Prologue.program, dropOutgoing_run hrestarts, ih 0]
          cases Prologue.dropOutgoing.drops ancillary <;> rfl
      | dropVlanTagged =>
          rw [Prologue.program, dropVlanTagged_run, ih 0]
          cases Prologue.dropVlanTagged.drops ancillary <;> rfl

/-! ## Agreement -/

def VersionAt (frame : Bytes) (l3 : Nat) (version : UInt8) : Prop :=
  ∃ first, frame[l3]? = some first ∧ first >>> 4 = version

def EthertypeMatches (frame : Bytes) : Prop :=
  ∃ tag, tagLength frame = some tag ∧
    ((be16At frame (tag + 12) = some 0x0800 ∧ VersionAt frame (tag + 14) 4) ∨
      (be16At frame (tag + 12) = some 0x86dd ∧ VersionAt frame (tag + 14) 6))

def FamilyMatches (host : Host) (frame : Bytes) : Prop :=
  (slice? frame 0 4 = some (host.store host.afInet) ∧ VersionAt frame 4 4) ∨
    (slice? frame 0 4 = some (host.store host.afInet6) ∧ VersionAt frame 4 6)

/-- What the link header says of the version is true; a raw link says nothing. -/
def LinkMatches (host : Host) (frame : Bytes) : LinkType → Prop
  | .ethernet => EthertypeMatches frame
  | .dltNull => FamilyMatches host frame
  | .rawIp => True

structure Begins (link : LinkType) (frame : Bytes) (l3 : Nat)
    (parsed : ParsedLink) : Prop where
  l3_eq : parsed.l3 = frame.drop l3
  v4 : VersionAt frame l3 4 → Parsed.parse link frame = parseIpv4 parsed
  v6 : VersionAt frame l3 6 → Parsed.parse link frame = parseIpv6 parsed

theorem begins_of_link {l3 : Nat} {parsed : ParsedLink}
    (hlink : parseLinkHeader link frame = .ok parsed)
    (hl3 : parsed.l3 = frame.drop l3) : Begins link frame l3 parsed := by
  have hfirst : ∀ {first : UInt8}, frame[l3]? = some first →
      ∃ rest, parsed.l3 = first :: rest := by
    intro first hget
    obtain ⟨hlength, hfirst⟩ := List.getElem?_eq_some_iff.mp hget
    exact ⟨_, by rw [hl3, List.drop_eq_getElem_cons hlength, hfirst]⟩
  refine ⟨hl3, ?_, ?_⟩
  · rintro ⟨first, hget, hversion⟩
    obtain ⟨rest, hrest⟩ := hfirst hget
    simp only [Parsed.parse, hlink, bind, Except.bind, hrest, if_pos hversion]
  · rintro ⟨first, hget, hversion⟩
    obtain ⟨rest, hrest⟩ := hfirst hget
    have hother : first >>> 4 ≠ 4 := by
      rw [hversion]
      decide
    simp only [Parsed.parse, hlink, bind, Except.bind, hrest, if_neg hother,
      if_pos hversion]

theorem ethernetL3_tag {tag : Nat} (htag : tagLength frame = some tag)
    (hlength : tag + 14 ≤ frame.length) :
    ethernetL3 frame = .ok (frame.drop (tag + 14)) := by
  have hshort : ¬ frame.length < ethernetHeaderSize := by
    simp only [ethernetHeaderSize]
    omega
  obtain ⟨ethertype, hethertype⟩ :=
    be16At_isSome (show 12 + 2 ≤ frame.length by omega)
  obtain ⟨high, low, hhigh, hlow, rfl⟩ := be16At_eq_some_iff.mp hethertype
  have htype : (bytesAt frame 12 ethernetHeaderSize :
      Except (Stop ParseError) Bytes) = .ok [high, low] := by
    rw [bytesAt, ethernetHeaderSize, slice?_two hhigh hlow]
    rfl
  have hvlan : [high, low] = toBe16 ethertypeVlan ↔
      be16 high low = ethertypeVlan := by
    have hhighLt := high.toNat_lt
    have hlowLt := low.toNat_lt
    simp only [toBe16, ethertypeVlan, be16, List.cons.injEq, and_true,
      ← UInt8.toNat_inj, UInt8.reduceOfNat, UInt8.reduceToNat, Nat.reduceDiv]
    omega
  simp only [tagLength, hethertype, Option.bind_eq_bind, Option.bind_some]
    at htag
  simp only [ethernetL3, if_neg hshort, htype, bind, Except.bind, ne_eq, hvlan]
  by_cases htagged : be16 high low = ethertypeVlan
  case neg =>
    rw [if_neg htagged, Option.some.injEq] at htag
    rw [if_pos htagged, ← htag]
    rfl
  rw [if_pos htagged] at htag
  rw [if_neg (fun h => h htagged)]
  obtain ⟨control, hcontrol, htag⟩ := Option.bind_eq_some_iff.mp htag
  obtain ⟨tciHigh, tciLow, htciHigh, htciLow, rfl⟩ :=
    be16At_eq_some_iff.mp hcontrol
  by_cases hpriority : be16 tciHigh tciLow &&& vlanIdMask = 0
  case neg =>
    rw [if_neg hpriority] at htag
    cases htag
  rw [if_pos hpriority, Option.some.injEq] at htag
  subst htag
  have hrest : frame.drop ethernetHeaderSize =
      tciHigh :: tciLow :: frame[16] :: frame[17] :: frame.drop 18 := by
    obtain ⟨_, hgetHigh⟩ := List.getElem?_eq_some_iff.mp htciHigh
    obtain ⟨_, hgetLow⟩ := List.getElem?_eq_some_iff.mp htciLow
    rw [ethernetHeaderSize, List.drop_eq_getElem_cons (by omega), hgetHigh,
      List.drop_eq_getElem_cons (by omega), hgetLow,
      List.drop_eq_getElem_cons (by omega),
      List.drop_eq_getElem_cons (by omega)]
  simp only [hrest, if_pos hpriority]

theorem readMac_ok {bytes : Bytes} (h : bytes.length = 6) :
    ∃ mac, readMac bytes = .ok mac := by
  simp only [readMac, MacAddr.ofBytes?, h, dif_pos]
  exact ⟨_, rfl⟩

theorem parseLinkHeader_ethernet {tag : Nat}
    (htag : tagLength frame = some tag) (hlength : tag + 14 ≤ frame.length) :
    ∃ parsed, parseLinkHeader .ethernet frame = .ok parsed ∧
      parsed.l3 = frame.drop (tag + 14) := by
  obtain ⟨dst, hdst, hdstSlice⟩ :=
    bytesAt_ok ParseError frame (show 0 ≤ 6 by decide) (by omega)
  obtain ⟨src, hsrc, hsrcSlice⟩ :=
    bytesAt_ok ParseError frame (show 6 ≤ 12 by decide) (by omega)
  obtain ⟨dstMac, hdstMac⟩ := readMac_ok (slice?_length hdstSlice)
  obtain ⟨srcMac, hsrcMac⟩ := readMac_ok (slice?_length hsrcSlice)
  simp only [parseLinkHeader, ethernetL3_tag htag hlength, hdst, hsrc, hdstMac,
    hsrcMac, bind, Except.bind]
  exact ⟨_, rfl, rfl⟩

theorem version_length {l3 : Nat} {version : UInt8}
    (h : VersionAt frame l3 version) : l3 < frame.length := by
  obtain ⟨first, hget, _⟩ := h
  exact (List.getElem?_eq_some_iff.mp hget).1

theorem takesV4_iff {l3 : Nat} {parsed : ParsedLink} (h : parsed.l3 =
    frame.drop l3) : parsed.l3[9]? = some ipProtoUdp ↔ TakesV4 frame l3 := by
  rw [h, List.getElem?_drop, TakesV4]

theorem takesV6_iff {l3 : Nat} {parsed : ParsedLink} (h : parsed.l3 =
    frame.drop l3) :
    (parsed.l3[6]? = some ipProtoUdp ∨
      (parsed.l3[6]? = some ipv6NextFragment ∧
        parsed.l3[40]? = some ipProtoUdp)) ↔ TakesV6 frame l3 := by
  rw [h, List.getElem?_drop, List.getElem?_drop, TakesV6]

/-- The parser takes a packet, but for its lengths, when the filter does. -/
structure Agrees (result : Except (Stop ParseError) Parsed)
    (accepted : Prop) : Prop where
  forward : (∃ parsed, result = .ok parsed) → accepted
  backward : accepted → (∃ parsed, result = .ok parsed) ∨ Malformed result

theorem agrees_of_malformed {result : Except (Stop ParseError) Parsed}
    (h : Malformed result) (accepted : Prop) : Agrees result accepted := by
  refine ⟨?_, fun _ => .inr h⟩
  rintro ⟨parsed, hok⟩
  rcases h with h | h
  · rw [hok] at h
    cases h
  · rw [hok] at h
    cases h

theorem agrees_of_protocol {result : Except (Stop ParseError) Parsed}
    {protocol : UInt8} (h : ParsesProtocol result protocol) :
    Agrees result (protocol = ipProtoUdp) := by
  rcases h with ⟨hudp, hok⟩ | ⟨hother, hfail⟩
  · exact ⟨fun _ => hudp, fun _ => .inl hok⟩
  · refine ⟨?_, fun h => absurd h hother⟩
    rintro ⟨parsed, hok⟩
    rw [hfail] at hok
    cases hok

theorem parseIpv4_agrees {l3 : Nat} {parsed : ParsedLink}
    (h : parsed.l3 = frame.drop l3) :
    Agrees (parseIpv4 parsed) (TakesV4 frame l3) := by
  rcases parseIpv4_total parsed with hmalformed | ⟨protocol, hget, hparses⟩
  · exact agrees_of_malformed hmalformed _
  · rw [← takesV4_iff h, hget, Option.some.injEq]
    exact agrees_of_protocol hparses

theorem parseIpv6_agrees {l3 : Nat} {parsed : ParsedLink}
    (h : parsed.l3 = frame.drop l3) :
    Agrees (parseIpv6 parsed) (TakesV6 frame l3) := by
  have hapart : ipv6NextFragment ≠ ipProtoUdp := by decide
  rcases parseIpv6_total parsed with hmalformed | ⟨next, hget, hparses⟩
  · exact agrees_of_malformed hmalformed _
  rw [← takesV6_iff h]
  rcases hparses with ⟨hfragment, protocol, hinner, hparses⟩ |
    ⟨hother, hparses⟩
  · simp only [hget, hinner, hfragment, Option.some.injEq, hapart, false_or,
      true_and]
    exact agrees_of_protocol hparses
  · simp only [hget, Option.some.injEq, hother, false_and, or_false]
    exact agrees_of_protocol hparses

theorem ethernet_agrees (h : EthertypeMatches frame) :
    Agrees (Parsed.parse .ethernet frame)
      (∃ tag, tagLength frame = some tag ∧ TakesEthernet frame tag) := by
  obtain ⟨tag, htag, hversion⟩ := h
  have hlength : tag + 14 ≤ frame.length := by
    rcases hversion with ⟨_, hversion⟩ | ⟨_, hversion⟩
    · exact Nat.le_of_lt (version_length hversion)
    · exact Nat.le_of_lt (version_length hversion)
  obtain ⟨parsed, hlink, hl3⟩ := parseLinkHeader_ethernet htag hlength
  have hbegins := begins_of_link hlink hl3
  simp only [htag, Option.some.injEq, exists_eq_left', TakesEthernet]
  rcases hversion with ⟨hethertype, hversion⟩ | ⟨hethertype, hversion⟩
  · rw [hbegins.v4 hversion, hethertype]
    simp only [Option.some.injEq, true_and, Nat.reduceEqDiff, false_and,
      or_false]
    exact parseIpv4_agrees hl3
  · rw [hbegins.v6 hversion, hethertype]
    simp only [Option.some.injEq, true_and, Nat.reduceEqDiff, false_and,
      false_or]
    exact parseIpv6_agrees hl3

theorem dltNull_agrees (h : FamilyMatches host frame) :
    Agrees (Parsed.parse .dltNull frame)
      ((slice? frame 0 4 = some (host.store host.afInet) ∧ TakesV4 frame 4) ∨
        (slice? frame 0 4 = some (host.store host.afInet6) ∧
          TakesV6 frame 4)) := by
  have hlength : 4 < frame.length := by
    rcases h with ⟨_, hversion⟩ | ⟨_, hversion⟩
    · exact version_length hversion
    · exact version_length hversion
  have hlink : parseLinkHeader .dltNull frame =
      .ok ⟨none, none, frame.drop 4⟩ := by
    have hshort : ¬ frame.length < dltNullHeaderSize :=
      Nat.not_lt.mpr (Nat.le_of_lt hlength)
    simp only [parseLinkHeader, if_neg hshort]
    rfl
  have hbegins := begins_of_link hlink rfl
  have hdistinct : host.store host.afInet ≠ host.store host.afInet6 :=
    fun hsame => host.distinct (host.store_inj hsame)
  rcases h with ⟨hfamily, hversion⟩ | ⟨hfamily, hversion⟩
  · rw [hbegins.v4 hversion, hfamily]
    simp only [Option.some.injEq, true_and, hdistinct, false_and, or_false]
    exact parseIpv4_agrees rfl
  · rw [hbegins.v6 hversion, hfamily]
    simp only [Option.some.injEq, true_and, hdistinct.symm, false_and, false_or]
    exact parseIpv6_agrees rfl

theorem rawIp_agrees (frame : Bytes) :
    Agrees (Parsed.parse .rawIp frame)
      (∃ first : UInt8, frame[0]? = some first ∧
        ((first >>> 4 = 4 ∧ TakesV4 frame 0) ∨
          (first >>> 4 = 6 ∧ TakesV6 frame 0))) := by
  have hlink : parseLinkHeader .rawIp frame = .ok ⟨none, none, frame⟩ := rfl
  have hl3 : frame = frame.drop 0 := List.drop_zero.symm
  have hbegins := begins_of_link hlink hl3
  cases hfirst : frame[0]? with
  | none =>
      have hnil : frame = [] := by
        rw [List.getElem?_eq_none_iff] at hfirst
        exact List.length_eq_zero_iff.mp (Nat.le_zero.mp hfirst)
      subst hnil
      exact agrees_of_malformed (.inl rfl) _
  | some first =>
      simp only [Option.some.injEq, exists_eq_left']
      by_cases hv4 : first >>> 4 = 4
      · rw [hbegins.v4 ⟨first, hfirst, hv4⟩, hv4]
        simp only [true_and, show (4 : UInt8) ≠ 6 by decide, false_and,
          or_false]
        exact parseIpv4_agrees hl3
      by_cases hv6 : first >>> 4 = 6
      · rw [hbegins.v6 ⟨first, hfirst, hv6⟩, hv6]
        simp only [true_and, show (6 : UInt8) ≠ 4 by decide, false_and,
          false_or]
        exact parseIpv6_agrees hl3
      simp only [hv4, hv6, false_and, or_self]
      obtain ⟨hlength, hget⟩ := List.getElem?_eq_some_iff.mp hfirst
      have hcons : frame = first :: frame.drop 1 := by
        rw [← hget, ← List.drop_eq_getElem_cons hlength, List.drop_zero]
      refine ⟨?_, fun h => absurd h id⟩
      rintro ⟨parsed, hok⟩
      rw [hcons] at hok
      simp only [Parsed.parse, parseLinkHeader, bind, Except.bind, if_neg hv4,
        if_neg hv6] at hok
      cases hok

/-- On every link the filter and the parser agree, and prologues only drop. -/
theorem filter_agrees (host : Host) (link : LinkType) (frame : Bytes)
    (ancillary : Ancillary) (prologues : List Prologue) :
    (LinkMatches host frame link →
      ((∃ parsed, Parsed.parse link frame = .ok parsed) →
        runWith (classifier host link) frame ancillary = .ok accept) ∧
      (runWith (classifier host link) frame ancillary = .ok accept →
        (∃ parsed, Parsed.parse link frame = .ok parsed) ∨
          Parsed.parse link frame = fail .truncated ∨
          Parsed.parse link frame = fail .badLength)) ∧
    runWith (prologues.flatMap Prologue.program ++ classifier host link) frame
        ancillary =
      if prologues.any (Prologue.drops ancillary) then .ok 0
      else runWith (classifier host link) frame ancillary := by
  refine ⟨?_, prologues_run host link frame ancillary prologues 0⟩
  intro hmatches
  cases link with
  | ethernet =>
      have hagrees := ethernet_agrees hmatches
      rw [runWith, classifier, ethernet_run.iff]
      exact ⟨hagrees.forward, hagrees.backward⟩
  | dltNull =>
      have hagrees := dltNull_agrees hmatches
      rw [runWith, classifier, (dltNull_run host).iff]
      exact ⟨hagrees.forward, hagrees.backward⟩
  | rawIp =>
      have hagrees := rawIp_agrees frame
      rw [runWith, classifier, rawIp_run.iff]
      exact ⟨hagrees.forward, hagrees.backward⟩

/-! ## Two frames -/

def littleEndianHost : Host := ⟨2, 30, false, by decide⟩

def emptyDatagram : Bytes :=
  [0x45, 0, 0, 28, 0, 0, 0, 0, 64, 17, 0, 0, 10, 0, 0, 1, 10, 0, 0, 2,
    0x0e, 0x76, 0x0e, 0x76, 0, 8, 0, 0]

def priorityTagged : Bytes :=
  List.replicate 12 0x02 ++ [0x81, 0x00, 0xa0, 0x00, 0x08, 0x00] ++
    emptyDatagram

def incoming : Ancillary := fun offset =>
  if offset = skfAdPkttype then some 0
  else if offset = skfAdVlanTagPresent then some 0
  else some 10

/-- The parser does not read the address family, the filter does. -/
theorem family_ignored :
    ¬ ∀ (host : Host) (link : LinkType) (frame : Bytes)
      (ancillary : Ancillary),
      (∃ parsed, Parsed.parse link frame = .ok parsed) →
      (link = .ethernet → EthertypeMatches frame) →
      runWith (classifier host link) frame ancillary = .ok accept := by
  intro h
  have hparse : (Parsed.parse .dltNull ([0, 0, 0, 0] ++ emptyDatagram)).map
      (fun _ => ()) = .ok () := by decide +kernel
  obtain ⟨parsed, hparsed, _⟩ := except_map_ok hparse
  have hrun := h littleEndianHost .dltNull ([0, 0, 0, 0] ++ emptyDatagram)
    incoming ⟨parsed, hparsed⟩ (fun hlink => by cases hlink)
  have hdrop : runWith (classifier littleEndianHost .dltNull)
      ([0, 0, 0, 0] ++ emptyDatagram) incoming = .ok 0 := by decide +kernel
  rw [hdrop] at hrun
  cases hrun

theorem filter_agrees_priorityTagged :
    (∃ parsed, Parsed.parse .ethernet priorityTagged = .ok parsed) ∧
      runWith (classifier littleEndianHost .ethernet) priorityTagged incoming =
        .ok accept ∧
      runWith (dropOutgoingPrologue ++ (dropVlanTaggedPrologue ++
          ethernetUdpFilter)) priorityTagged incoming = .ok accept := by
  have hparse : (Parsed.parse .ethernet priorityTagged).map (fun _ => ()) =
      .ok () := by decide +kernel
  obtain ⟨parsed, hparsed, _⟩ := except_map_ok hparse
  have hmatches : LinkMatches littleEndianHost priorityTagged .ethernet :=
    ⟨4, by decide, .inl ⟨by decide, 0x45, by decide, by decide⟩⟩
  obtain ⟨hagrees, hprologues⟩ := filter_agrees littleEndianHost .ethernet
    priorityTagged incoming [.dropOutgoing, .dropVlanTagged]
  have haccept := (hagrees hmatches).1 ⟨parsed, hparsed⟩
  refine ⟨⟨parsed, hparsed⟩, haccept, ?_⟩
  have hkept : [Prologue.dropOutgoing, .dropVlanTagged].any
      (Prologue.drops incoming) = false := by decide
  rw [hkept, if_neg (by decide), haccept] at hprologues
  exact hprologues

end Netflector.Capture
