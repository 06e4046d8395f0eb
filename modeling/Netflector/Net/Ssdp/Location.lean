import Netflector.Net.Http.Growth
import Netflector.Net.Http.Host
import Netflector.Net.Ssdp.Dial

/-!
# Splicing a `LOCATION`

Where the authority of the first `LOCATION` stands in a message, and that
another one put in its place changes nothing else: not the lines, not the
values of the other headers, and not whether the message is about DIAL.
-/

namespace Netflector.Net.Ssdp

open Netflector.Foundation
open Netflector.Net.Http

/-! ## Lines -/

theorem stripCarriageReturn_append (front : Bytes) {tail : Bytes}
    (h : tail ≠ []) :
    stripCarriageReturn (front ++ tail) = front ++ stripCarriageReturn tail := by
  unfold stripCarriageReturn
  rw [List.getLast?_append_of_ne_nil front h]
  split
  · exact List.dropLast_append_of_ne_nil h
  · rfl

theorem stripCarriageReturn_authority (front tail : Bytes) {authority : Bytes}
    (hsome : authority ≠ []) (hplain : 0x0d ∉ authority) :
    stripCarriageReturn (front ++ (authority ++ tail)) =
      front ++ (authority ++ stripCarriageReturn tail) := by
  have hwhole : authority ++ tail ≠ [] := by simp [hsome]
  rw [stripCarriageReturn_append front hwhole]
  refine congrArg (front ++ ·) ?_
  by_cases htail : tail = []
  · subst htail
    have hlast : authority.getLast? ≠ some 0x0d := by
      intro hlast
      exact hplain (List.mem_of_getLast? hlast)
    rw [List.append_nil, stripCarriageReturn, if_neg hlast]
    simp [stripCarriageReturn]
  · exact stripCarriageReturn_append authority htail

theorem stripCarriageReturn_cut (line : Bytes) :
    ∃ ending, line = stripCarriageReturn line ++ ending := by
  unfold stripCarriageReturn
  split
  · exact ⟨_, (List.dropLast_append_getLast? _ (by assumption)).symm⟩
  · exact ⟨[], (List.append_nil _).symm⟩

theorem fieldValue_iff {name line value : Bytes} :
    fieldValue name line = some value ↔
      ∃ spelt, line = spelt ++ 0x3a :: value ∧
        eqIgnoreAsciiCase spelt name = true := by
  rw [fieldValue, Option.bind_eq_some_iff]
  constructor
  · rintro ⟨rest, hstrip, hcolon⟩
    obtain ⟨spelt, rfl, hspelt⟩ := strip_iff.mp hstrip
    split at hcolon
    · rename_i hhead
      cases hcolon
      obtain ⟨more, rfl⟩ := List.head?_eq_some_iff.mp hhead
      exact ⟨spelt, rfl, hspelt⟩
    · cases hcolon
  · rintro ⟨spelt, rfl, hspelt⟩
    exact ⟨0x3a :: value, strip_iff.mpr ⟨spelt, rfl, hspelt⟩, rfl⟩

theorem fieldValue_other {name other spelt value : Bytes}
    (hspelt : eqIgnoreAsciiCase spelt name = true) (hname : 0x3a ∉ name)
    (hplain : 0x3a ∉ other) (hother : eqIgnoreAsciiCase other name = false) :
    fieldValue other (spelt ++ 0x3a :: value) = none := by
  have hcolon : ∀ first second : Bytes,
      eqIgnoreAsciiCase first second = true → 0x3a ∉ second →
        0x3a ∉ first := by
    intro first second heq hnot hmem
    have hlower : asciiLower first = asciiLower second := eq_of_beq heq
    have hfound : (0x3a : UInt8) ∈ asciiLower second := by
      rw [← hlower]
      exact List.mem_map.mpr ⟨0x3a, hmem, by decide⟩
    obtain ⟨octet, hoctet, hcolon⟩ := List.mem_map.mp hfound
    have hsame : octet = 0x3a := by
      unfold toAsciiLower at hcolon
      split at hcolon
      · rename_i hupper
        simp only [UInt8.le_iff_toNat_le] at hupper
        have hnat := congrArg UInt8.toNat hcolon
        simp only [UInt8.toNat_add] at hnat
        simp at hnat hupper
        omega
      · exact hcolon
    exact hnot (hsame ▸ hoctet)
  cases hvalue : fieldValue other (spelt ++ 0x3a :: value) with
  | none => rfl
  | some found =>
      obtain ⟨written, heq, hwritten⟩ := fieldValue_iff.mp hvalue
      have hsame : spelt = written := by
        have hfirst := splitOn_word (hcolon spelt name hspelt hname) value
        have hsecond :=
          splitOn_word (hcolon written other hwritten hplain) found
        rw [heq, hsecond] at hfirst
        exact (List.cons.inj hfirst).1.symm
      subst hsame
      have hlower : asciiLower other = asciiLower name :=
        (eq_of_beq hwritten).symm.trans (eq_of_beq hspelt)
      rw [eqIgnoreAsciiCase, hlower, beq_self_eq_true] at hother
      cases hother

/-! ## Header values -/

theorem headerValueFrom_value (name : Bytes) (offset : Nat)
    (lines : List Bytes) :
    (headerValueFrom name offset lines).map Prod.snd =
      (lines.findSome? fun line =>
        fieldValue name (stripCarriageReturn line)).map trimAsciiStart := by
  induction lines generalizing offset with
  | nil => rfl
  | cons line lines ih =>
      rw [headerValueFrom, List.findSome?_cons]
      split
      · rename_i value hvalue
        rw [hvalue]
        rfl
      · rename_i hnone
        rw [hnone]
        exact ih _

theorem headerValueFrom_some {name : Bytes} {offset found : Nat}
    {lines : List Bytes} {value : Bytes}
    (h : headerValueFrom name offset lines = some (found, value)) :
    ∃ before line after rest, lines = before ++ line :: after ∧
      (∀ other ∈ before,
        fieldValue name (stripCarriageReturn other) = none) ∧
      fieldValue name (stripCarriageReturn line) = some rest ∧
      value = trimAsciiStart rest ∧
      found = offset + (before.flatMap (· ++ [0x0a])).length +
        (stripCarriageReturn line).length - value.length := by
  induction lines generalizing offset with
  | nil => cases h
  | cons line lines ih =>
      rw [headerValueFrom] at h
      split at h
      · rename_i rest hrest
        cases h
        exact ⟨[], line, lines, rest, rfl, by simp, hrest, rfl, by simp⟩
      · rename_i hnone
        obtain ⟨before, next, after, rest, rfl, hbefore, hrest, hvalue,
          hfound⟩ := ih h
        refine ⟨line :: before, next, after, rest, rfl, ?_, hrest, hvalue, ?_⟩
        · intro other hmem
          rcases List.mem_cons.mp hmem with rfl | hlater
          · exact hnone
          · exact hbefore other hlater
        · rw [hfound, List.flatMap_cons]
          simp only [List.length_append, List.length_cons, List.length_nil]
          omega

theorem headerValueFrom_of {name : Bytes} {before : List Bytes}
    {line rest : Bytes} (offset : Nat) (after : List Bytes)
    (hbefore : ∀ other ∈ before,
      fieldValue name (stripCarriageReturn other) = none)
    (hrest : fieldValue name (stripCarriageReturn line) = some rest) :
    headerValueFrom name offset (before ++ line :: after) =
      some (offset + (before.flatMap (· ++ [0x0a])).length +
        (stripCarriageReturn line).length - (trimAsciiStart rest).length,
        trimAsciiStart rest) := by
  induction before generalizing offset with
  | nil =>
      rw [List.nil_append, headerValueFrom, hrest]
      rfl
  | cons first before ih =>
      have hlength : offset + first.length + 1 +
          (before.flatMap (· ++ [0x0a])).length =
            offset + ((first :: before).flatMap (· ++ [0x0a])).length := by
        rw [List.flatMap_cons]
        simp only [List.length_append, List.length_cons, List.length_nil]
        omega
      rw [List.cons_append, headerValueFrom,
        hbefore first List.mem_cons_self]
      simp only
      rw [ih _ fun other hmem => hbefore other (List.mem_cons_of_mem _ hmem),
        hlength]

/-! ## Authorities -/

def Plain (octet : UInt8) : Prop :=
  isDigit 10 octet = true ∨ octet ∈ ascii ".:+"

theorem splitLastColon_some {text host port : Bytes}
    (h : splitLastColon text = some (host, port)) :
    text = host ++ 0x3a :: port := by
  rw [splitLastColon] at h
  split at h
  · cases h
  · rename_i behind hbehind
    cases h
    obtain ⟨after, before, hreverse, _, rfl⟩ := findIdx?_split hbehind
    have htext : text = before.reverse ++ 0x3a :: after.reverse := by
      rw [← List.reverse_reverse text, hreverse]
      simp
    have hcolon : text.length - 1 - after.length = before.reverse.length := by
      rw [htext]
      simp
    rw [hcolon, htext, List.take_left, List.drop_length_add_append]
    rfl

theorem parseOctet_plain {text : Bytes} {octet : UInt8}
    (h : parseOctet text = some octet) :
    text ≠ [] ∧ ∀ digit ∈ text, isDigit 10 digit = true := by
  rw [parseOctet] at h
  split at h
  · rename_i hshape
    refine ⟨?_, List.all_eq_true.mp hshape.2.2.1⟩
    rintro rfl
    exact absurd hshape.1 (by decide)
  · cases h

theorem parseIpv4Addr_plain {text : Bytes} {ip : Ipv4Addr}
    (h : parseIpv4Addr text = some ip) :
    (∃ first rest, text = first :: rest ∧ isDigit 10 first = true) ∧
      ∀ octet ∈ text, Plain octet := by
  have hjoin := intercalate_splitOn 0x2e text
  rw [parseIpv4Addr] at h
  split at h
  · rename_i first second third fourth hpieces
    simp only [Option.bind_eq_bind, Option.bind_eq_some_iff] at h
    obtain ⟨_, hfirst, _, hsecond, _, hthird, _, hfourth, _⟩ := h
    rw [hpieces] at hjoin
    simp only [List.intercalate_cons_cons, List.intercalate_singleton]
      at hjoin
    obtain ⟨hsome, hone⟩ := parseOctet_plain hfirst
    refine ⟨?_, ?_⟩
    · obtain ⟨digit, rest, rfl⟩ := List.exists_cons_of_ne_nil hsome
      exact ⟨digit, _, hjoin.symm, hone digit List.mem_cons_self⟩
    · have hdot : Plain 0x2e := .inr (by decide)
      intro octet hmem
      rw [← hjoin] at hmem
      simp only [List.mem_append, List.mem_singleton] at hmem
      rcases hmem with (h | rfl) | (h | rfl) | (h | rfl) | h
      · exact .inl (hone octet h)
      · exact hdot
      · exact .inl ((parseOctet_plain hsecond).2 octet h)
      · exact hdot
      · exact .inl ((parseOctet_plain hthird).2 octet h)
      · exact hdot
      · exact .inl ((parseOctet_plain hfourth).2 octet h)
  · cases h

theorem parseUnsigned_plain {limit value : Nat} {text : Bytes}
    (h : parseUnsigned 10 limit text = some value) :
    ∀ octet ∈ text, Plain octet := by
  intro octet hmem
  by_cases hsign : text.head? = some 0x2b
  · simp only [parseUnsigned, if_pos hsign] at h
    split at h
    · rename_i hdigits
      obtain ⟨rest, rfl⟩ := List.head?_eq_some_iff.mp hsign
      rcases List.mem_cons.mp hmem with rfl | hlater
      · exact .inr (by decide)
      · exact .inl (List.all_eq_true.mp hdigits.2.1 octet hlater)
    · cases h
  · simp only [parseUnsigned, if_neg hsign] at h
    split at h
    · rename_i hdigits
      exact .inl (List.all_eq_true.mp hdigits.2.1 octet hmem)
    · cases h

theorem parseEndpoint_plain {authority : Bytes} {endpoint : SocketAddrV4}
    (h : parseEndpoint authority = some endpoint) :
    (∃ first rest, authority = first :: rest ∧ isDigit 10 first = true) ∧
      ∀ octet ∈ authority, Plain octet := by
  rw [parseEndpoint] at h
  split at h
  · simp only [Option.bind_eq_bind, Option.bind_eq_some_iff] at h
    obtain ⟨ip, hip, _⟩ := h
    exact parseIpv4Addr_plain hip
  · rename_i host port hsplit
    simp only [Option.bind_eq_bind, Option.bind_eq_some_iff] at h
    obtain ⟨number, hnumber, h⟩ := h
    split at h
    · cases h
    · simp only [Option.bind_eq_some_iff] at h
      obtain ⟨ip, hip, _⟩ := h
      obtain ⟨⟨first, rest, rfl, hfirst⟩, hhost⟩ := parseIpv4Addr_plain hip
      rw [splitLastColon_some hsplit]
      refine ⟨⟨first, _, rfl, hfirst⟩, ?_⟩
      intro octet hmem
      rcases List.mem_append.mp hmem with hbefore | hafter
      · exact hhost octet hbefore
      · rcases List.mem_cons.mp hafter with rfl | hport
        · exact .inr (by decide)
        · exact parseUnsigned_plain hnumber octet hport

theorem Plain.lower {octet : UInt8} (h : Plain octet) :
    toAsciiLower octet = octet ∧ octet ≠ 0x0a ∧ octet ≠ 0x0d ∧
      octet ≠ 0x75 := by
  have hbounds : octet.toNat < 0x41 ∧ 0x2b ≤ octet.toNat := by
    rcases h with hdigit | hmark
    · simp only [isDigit, digitValue] at hdigit
      split at hdigit
      · rename_i hrange
        simp only [UInt8.le_iff_toNat_le] at hrange
        simp at hrange
        omega
      · exfalso
        split at hdigit
        · simp only [Option.any_some, decide_eq_true_eq] at hdigit
          omega
        · split at hdigit
          · simp only [Option.any_some, decide_eq_true_eq] at hdigit
            omega
          · cases hdigit
    · have hmarks : ascii ".:+" = [0x2e, 0x3a, 0x2b] := by decide
      rw [hmarks] at hmark
      simp only [List.mem_cons, List.not_mem_nil, or_false] at hmark
      rcases hmark with rfl | rfl | rfl <;> decide
  refine ⟨?_, ?_, ?_, ?_⟩
  · rw [toAsciiLower, if_neg]
    rintro ⟨hlow, _⟩
    simp only [UInt8.le_iff_toNat_le] at hlow
    simp at hlow
    omega
  · rintro rfl
    exact absurd hbounds.2 (by decide)
  · rintro rfl
    exact absurd hbounds.2 (by decide)
  · rintro rfl
    exact absurd hbounds.1 (by decide)

/-! ## Where the authority stands -/

/-- The parts of a message around the authority of its first `LOCATION`: the
lines before that header, its name as it is spelt, blanks and a scheme, what
follows the authority in the line, and the lines after it. -/
structure Surroundings where
  before : List Bytes
  name : Bytes
  blank : Bytes
  scheme : Bytes
  tail : Bytes
  after : List Bytes

namespace Surroundings

def lead (parts : Surroundings) : Bytes :=
  parts.name ++ 0x3a :: (parts.blank ++ parts.scheme)

def front (parts : Surroundings) : Bytes :=
  parts.before.flatMap (· ++ [0x0a]) ++ parts.lead

def back (parts : Surroundings) : Bytes :=
  parts.tail ++ parts.after.flatMap (0x0a :: ·)

def line (parts : Surroundings) (authority : Bytes) : Bytes :=
  parts.lead ++ (authority ++ parts.tail)

end Surroundings

structure LocationAt (payload : Bytes) (location : Authority)
    (parts : Surroundings) (authority : Bytes) : Prop where
  lines : splitOn 0x0a payload =
    parts.before ++ parts.line authority :: parts.after
  others : ∀ line ∈ parts.before,
    fieldValue (ascii "LOCATION") (stripCarriageReturn line) = none
  named : eqIgnoreAsciiCase parts.name (ascii "LOCATION") = true
  blank : parts.blank.all isAsciiWhitespace = true
  scheme : SchemeOf false parts.scheme
  delimited : Delimited authority (stripCarriageReturn parts.tail)
  endpoint : parseEndpoint authority = some location.endpoint
  offset : location.offset = parts.front.length
  len : location.len = authority.length

theorem schemeOf_head {scheme : Bytes} (h : SchemeOf false scheme) :
    ∃ first rest, scheme = first :: rest ∧
      isAsciiWhitespace first = false := by
  obtain ⟨hlength, hequal⟩ := h
  obtain ⟨first, rest, rfl⟩ :=
    List.exists_cons_of_length_pos (by omega : 0 < scheme.length)
  refine ⟨first, rest, rfl, ?_⟩
  have hhttp : asciiLower (ascii "http://") =
      0x68 :: asciiLower (ascii "ttp://") := by decide
  have hlower := eq_of_beq hequal
  rw [hhttp] at hlower
  have hfirst : toAsciiLower first = 0x68 := (List.cons.inj hlower).1
  rw [isAsciiWhitespace, decide_eq_false_iff_not]
  intro hmem
  simp only [List.mem_cons, List.not_mem_nil, or_false] at hmem
  rcases hmem with rfl | rfl | rfl | rfl | rfl <;>
    exact absurd hfirst (by decide)

theorem trimAsciiStart_blank {blank rest : Bytes} {first : UInt8}
    (hblank : blank.all isAsciiWhitespace = true)
    (hfirst : isAsciiWhitespace first = false) :
    trimAsciiStart (blank ++ first :: rest) = first :: rest := by
  rw [trimAsciiStart, List.dropWhile_append_of_pos
    (List.all_eq_true.mp hblank), List.dropWhile_cons, hfirst]
  simp

theorem parseEndpoint_written {authority : Bytes} {endpoint : SocketAddrV4}
    (h : parseEndpoint authority = some endpoint) :
    authority ≠ [] ∧ 0x0d ∉ authority := by
  obtain ⟨⟨first, rest, rfl, _⟩, hplain⟩ := parseEndpoint_plain h
  refine ⟨List.cons_ne_nil _ _, ?_⟩
  intro hmem
  exact (hplain 0x0d hmem).lower.2.2.1 rfl

theorem locationAt_of_parse {payload : Bytes} {location : Authority}
    (h : parseDialLocationAuthority payload = some location) :
    ∃ parts authority, LocationAt payload location parts authority := by
  simp only [parseDialLocationAuthority, Option.bind_eq_bind,
    Option.bind_eq_some_iff, Prod.exists] at h
  obtain ⟨offset, url, hvalue, found, hfound, heq⟩ := h
  cases heq
  have hheader := (Option.filter_eq_some_iff.mp hvalue).1
  obtain ⟨before, line, after, rest, hlines, hothers, hrest, hurl, hoffset⟩ :=
    headerValueFrom_some hheader
  obtain ⟨name, hline, hnamed⟩ := fieldValue_iff.mp hrest
  obtain ⟨scheme, authority, back, hparts, hscheme, hdelimited, hendpoint,
    hat, hlen⟩ := parseAuthority_some hfound
  obtain ⟨blank, hblank, hall⟩ : ∃ blank, rest = blank ++ url ∧
      blank.all isAsciiWhitespace = true :=
    ⟨rest.takeWhile isAsciiWhitespace,
      by rw [hurl, trimAsciiStart, List.takeWhile_append_dropWhile],
      List.all_takeWhile⟩
  obtain ⟨ending, hending⟩ := stripCarriageReturn_cut line
  obtain ⟨hsome, hplain⟩ := parseEndpoint_written hendpoint
  -- The line, cut at the authority; what follows it loses the line's ending.
  have hwhole : line = (name ++ 0x3a :: (blank ++ scheme)) ++
      (authority ++ (back ++ ending)) := by
    rw [hending, hline, hblank, hparts]
    simp
  have hback : stripCarriageReturn (back ++ ending) = back := by
    have hstrip := stripCarriageReturn_authority
      (name ++ 0x3a :: (blank ++ scheme)) (back ++ ending) hsome hplain
    rw [← hwhole, hline, hblank, hparts] at hstrip
    simpa using hstrip.symm
  refine ⟨⟨before, name, blank, scheme, back ++ ending, after⟩, authority,
    ?_, hothers, hnamed, hall, hscheme, ?_, hendpoint, ?_, hlen⟩
  · rw [hlines, hwhole]
    rfl
  · rw [hback]
    exact hdelimited
  · have hstripped : (stripCarriageReturn line).length =
        (name ++ 0x3a :: blank).length + url.length := by
      rw [hline, hblank]
      simp only [List.length_append, List.length_cons]
      omega
    simp only [hat, hoffset, hstripped, Surroundings.front, Surroundings.lead,
      List.length_append, List.length_cons]
    omega

namespace LocationAt

variable {payload authority : Bytes} {location : Authority}
  {parts : Surroundings}

theorem stripped (h : LocationAt payload location parts authority) :
    stripCarriageReturn (parts.line authority) =
      parts.name ++ 0x3a :: (parts.blank ++ (parts.scheme ++
        (authority ++ stripCarriageReturn parts.tail))) := by
  obtain ⟨hsome, hplain⟩ := parseEndpoint_written h.endpoint
  rw [Surroundings.line, stripCarriageReturn_authority _ _ hsome hplain,
    Surroundings.lead]
  simp

theorem parse (h : LocationAt payload location parts authority) :
    parseDialLocationAuthority payload = some location := by
  obtain ⟨first, rest, hscheme, hfirst⟩ := schemeOf_head h.scheme
  have htrim : trimAsciiStart (parts.blank ++ (parts.scheme ++
      (authority ++ stripCarriageReturn parts.tail))) =
        parts.scheme ++ (authority ++ stripCarriageReturn parts.tail) := by
    rw [hscheme]
    exact trimAsciiStart_blank h.blank hfirst
  have hfield : fieldValue (ascii "LOCATION")
      (stripCarriageReturn (parts.line authority)) =
        some (parts.blank ++ (parts.scheme ++
          (authority ++ stripCarriageReturn parts.tail))) :=
    fieldValue_iff.mpr ⟨parts.name, h.stripped, h.named⟩
  have hheader : headerValue payload (ascii "LOCATION") =
      some ((parts.before.flatMap (· ++ [0x0a])).length +
        (parts.name ++ 0x3a :: parts.blank).length,
        parts.scheme ++ (authority ++ stripCarriageReturn parts.tail)) := by
    rw [headerValue, h.lines,
      headerValueFrom_of 0 parts.after h.others hfield, htrim, h.stripped]
    refine congrArg some (Prod.ext ?_ rfl)
    simp only [List.length_append, List.length_cons]
    omega
  have hvalue : dialLocationValue payload =
      some ((parts.before.flatMap (· ++ [0x0a])).length +
        (parts.name ++ 0x3a :: parts.blank).length,
        parts.scheme ++ (authority ++ stripCarriageReturn parts.tail)) := by
    rw [dialLocationValue, hheader, hscheme]
    simp
  have hparse := parseAuthority_span h.scheme h.delimited h.endpoint
  simp only [parseDialLocationAuthority, hvalue, hparse, Option.bind_eq_bind,
    Option.bind_some]
  have hoffset := h.offset
  simp only [Surroundings.front, Surroundings.lead, List.length_append,
    List.length_cons] at hoffset
  cases location with
  | mk endpoint offset len =>
      simp only [List.length_append, List.length_cons] at hoffset ⊢
      have hlen : len = authority.length := h.len
      rw [hlen, hoffset]
      refine congrArg some (congrArg (Authority.mk endpoint · _) ?_)
      omega

theorem payload_eq (h : LocationAt payload location parts authority) :
    payload = parts.front ++ (authority ++ parts.back) := by
  rw [around_of_splitOn h.lines, aroundPiece, Surroundings.front,
    Surroundings.back, Surroundings.line]
  simp

theorem splice (h : LocationAt payload location parts authority)
    (text : Bytes) :
    payload.take location.offset ++ text ++
        payload.drop (location.offset + location.len) =
      parts.front ++ (text ++ parts.back) := by
  rw [h.offset, h.len]
  conv_lhs => rw [h.payload_eq]
  rw [List.take_left, ← List.drop_drop, List.drop_left, List.drop_left,
    List.append_assoc]

theorem replaced (h : LocationAt payload location parts authority)
    {text : Bytes} {endpoint : SocketAddrV4}
    (htext : parseEndpoint text = some endpoint)
    (hends : ∀ octet ∈ text, endsAuthority octet = false) :
    LocationAt (parts.front ++ (text ++ parts.back))
      ⟨endpoint, location.offset, text.length⟩ parts text where
  lines := by
    have haround : parts.front ++ (text ++ parts.back) =
        aroundPiece 0x0a parts.before (parts.line text) parts.after := by
      rw [aroundPiece, Surroundings.front, Surroundings.back,
        Surroundings.line]
      simp
    rw [haround]
    refine splitOn_around ?_
    intro part hmem
    have hold : ∀ other ∈ parts.before ++ parts.line authority ::
        parts.after, 0x0a ∉ other := by
      intro other hother
      rw [← h.lines] at hother
      exact splitOn_pieces hother
    rcases List.mem_append.mp hmem with hbefore | hrest
    · exact hold part (List.mem_append_left _ hbefore)
    · rcases List.mem_cons.mp hrest with rfl | hafter
      · have hline := hold (parts.line authority)
          (List.mem_append_right _ List.mem_cons_self)
        simp only [Surroundings.line, List.mem_append, not_or] at hline ⊢
        refine ⟨hline.1, fun hnew => ?_, hline.2.2⟩
        exact ((parseEndpoint_plain htext).2 0x0a hnew).lower.2.1 rfl
      · exact hold part (List.mem_append_right _
          (List.mem_cons_of_mem _ hafter))
  others := h.others
  named := h.named
  blank := h.blank
  scheme := h.scheme
  delimited := ⟨hends, h.delimited.2⟩
  endpoint := htext
  offset := h.offset
  len := rfl

theorem headerValue_other {changed text : Bytes} {new : Authority}
    (h : LocationAt payload location parts authority)
    (hchanged : LocationAt changed new parts text) {name : Bytes}
    (hplain : 0x3a ∉ name)
    (hother : eqIgnoreAsciiCase name (ascii "LOCATION") = false) :
    (headerValue changed name).map Prod.snd =
      (headerValue payload name).map Prod.snd := by
  have hline : ∀ {message written : Bytes} {found : Authority},
      LocationAt message found parts written →
        fieldValue name (stripCarriageReturn (parts.line written)) =
          none := by
    intro message written found hat
    rw [hat.stripped]
    exact fieldValue_other hat.named (by decide) hplain hother
  rw [headerValue, headerValue, headerValueFrom_value, headerValueFrom_value,
    h.lines, hchanged.lines, List.findSome?_append, List.findSome?_append,
    List.findSome?_cons, List.findSome?_cons, hline h, hline hchanged]

theorem isDial {changed text : Bytes} {new : Authority}
    (h : LocationAt payload location parts authority)
    (hchanged : LocationAt changed new parts text)
    (hdial : isDialServiceMessage payload = true) :
    isDialServiceMessage changed = true := by
  obtain ⟨⟨first, rest, hauthority, hfirst⟩, hplain⟩ :=
    parseEndpoint_plain h.endpoint
  have hlower : asciiLower authority = authority := by
    refine (List.map_congr_left ?_).trans (List.map_id _)
    intro octet hmem
    exact (hplain octet hmem).lower.1
  have hdigits : (asciiLower dialServiceType).any (isDigit 10) = false := by
    decide
  have hhead : (asciiLower authority).head? = some first := by
    rw [hlower, hauthority]
    rfl
  have hlacks : first ∉ asciiLower dialServiceType := by
    intro hmem
    rw [List.any_eq_true.mpr ⟨first, hmem, hfirst⟩] at hdigits
    cases hdigits
  have hstart : (asciiLower dialServiceType).head? = some 0x75 := by decide
  have hnot : 0x75 ∉ asciiLower authority := by
    rw [hlower]
    exact fun hmem => (hplain _ hmem).lower.2.2.2 rfl
  have hinfix := findSubslice_isSome_iff.mp hdial
  rw [h.payload_eq, asciiLower_append, asciiLower_append] at hinfix
  refine findSubslice_isSome_iff.mpr ?_
  rw [hchanged.payload_eq, asciiLower_append, asciiLower_append]
  rcases infix_beside hhead hlacks hstart hnot hinfix with hfront | hback
  · exact hfront.trans (List.prefix_append _ _).isInfix
  · exact hback.trans ((List.suffix_append _ _).isInfix.trans
      (List.suffix_append _ _).isInfix)

end LocationAt

end Netflector.Net.Ssdp
