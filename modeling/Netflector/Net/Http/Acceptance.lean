import Netflector.Net.Http.Messages

/-!
# Every well-formed stream is accepted and cut exactly

The framer is run over a rendered message with anything behind it: first the
line searches, then the header block, then the body, and last the messages of
a stream one after the other.
-/

namespace Netflector.Net.Http

open Netflector.Foundation

/-! ## Searching rendered lines -/

theorem findCrlf_line {text : Bytes} (h : findCrlf text = none)
    (rest : Bytes) : findCrlf (text ++ (crlf ++ rest)) = some text.length := by
  induction text with
  | nil => rfl
  | cons octet text ih =>
      simp only [findCrlf, findSubslice] at h ih ⊢
      split at h
      · cases h
      rename_i hnot
      have hstill : ¬ crlf.isPrefixOf (octet :: (text ++ (crlf ++ rest))) := by
        cases text with
        | nil => simp [crlf, List.isPrefixOf]
        | cons next text => simpa [crlf, List.isPrefixOf] using hnot
      rw [List.cons_append, findSubslice, if_neg hstill,
        ih (Option.map_eq_none_iff.mp h)]
      rfl

theorem findTerminator_line {text : Bytes} (h : findCrlf text = none)
    (rest : Bytes) :
    findSubslice headerTerminator (text ++ (crlf ++ rest)) =
      (findSubslice headerTerminator (crlf ++ rest)).map
        (· + text.length) := by
  induction text with
  | nil => simp
  | cons octet text ih =>
      simp only [findCrlf, findSubslice] at h
      split at h
      · cases h
      rename_i hnot
      have hstill : ¬ headerTerminator.isPrefixOf
          (octet :: (text ++ (crlf ++ rest))) := by
        cases text with
        | nil => simp [crlf, headerTerminator, List.isPrefixOf]
        | cons next text =>
            intro hprefix
            simp only [headerTerminator, List.cons_append, List.isPrefixOf,
              Bool.and_eq_true] at hprefix
            apply hnot
            simp [crlf, List.isPrefixOf, hprefix.1, hprefix.2.1]
      rw [List.cons_append, findSubslice, if_neg hstill,
        ih (Option.map_eq_none_iff.mp h), Option.map_map]
      rfl

theorem no_crlf_opens {text : Bytes} (hnonempty : text ≠ [])
    (h : findCrlf text = none) (rest : Bytes) :
    ¬ crlf.isPrefixOf (text ++ (crlf ++ rest)) := by
  intro hprefix
  have hfound := findCrlf_line h rest
  cases text with
  | nil => exact hnonempty rfl
  | cons octet text =>
      rw [List.cons_append] at hprefix hfound
      rw [findCrlf, findSubslice, if_pos hprefix] at hfound
      cases hfound

/-- A CRLF is skipped by the search for two of them unless another follows. -/
theorem findTerminator_crlf {rest : Bytes} (h : ¬ crlf.isPrefixOf rest) :
    findSubslice headerTerminator (crlf ++ rest) =
      (findSubslice headerTerminator rest).map (· + crlf.length) := by
  have hfirst : ¬ headerTerminator.isPrefixOf (0x0d :: 0x0a :: rest) := by
    intro hprefix
    apply h
    simpa [headerTerminator, crlf, List.isPrefixOf] using hprefix
  have hsecond : ¬ headerTerminator.isPrefixOf (0x0a :: rest) := by
    simp [headerTerminator, List.isPrefixOf]
  have hcons : crlf ++ rest = 0x0d :: 0x0a :: rest := rfl
  rw [hcons, findSubslice, if_neg hfirst, findSubslice, if_neg hsecond,
    Option.map_map]
  rfl

theorem findTerminator_lines (fields : List Line) (rest : Bytes) :
    findSubslice headerTerminator (crlf ++ (renderLines fields ++ rest)) =
      some ((renderLines fields).length - crlf.length) := by
  induction fields with
  | nil =>
      have hhere : headerTerminator.isPrefixOf
          (crlf ++ (crlf ++ rest)) = true := by
        simp [headerTerminator, crlf, List.isPrefixOf]
      rw [renderLines]
      have hcons : crlf ++ (crlf ++ rest) =
          0x0d :: (0x0a :: (crlf ++ rest)) := rfl
      rw [hcons] at hhere ⊢
      rw [findSubslice, if_pos hhere]
      rfl
  | cons field fields ih =>
      have hshape : renderLines (field :: fields) ++ rest =
          field.text ++ (crlf ++ (renderLines fields ++ rest)) := by
        simp [renderLines, Line.render]
      have hlength : 2 ≤ (renderLines fields).length := by
        cases fields with
        | nil => decide
        | cons next fields =>
            simp only [renderLines, Line.render, crlf, List.length_append,
              List.length_cons, List.length_nil]
            omega
      rw [hshape, findTerminator_crlf
          (no_crlf_opens field.nonempty field.unbroken _),
        findTerminator_line field.unbroken, ih]
      simp only [Option.map_some, renderLines, Line.render, crlf,
        List.length_append, List.length_cons, List.length_nil,
        Option.some.injEq]
      omega

theorem renderLines_length (fields : List Line) :
    2 + 2 * fields.length ≤ (renderLines fields).length := by
  induction fields with
  | nil => decide
  | cons field fields ih =>
      simp only [renderLines, Line.render, crlf, List.length_append,
        List.length_cons, List.length_nil]
      omega

theorem Message.findHeaderEnd_block (message : Message kind) (rest : Bytes) :
    findHeaderEnd (message.block ++ rest) = some message.block.length := by
  have hshape : message.block ++ rest = message.startLine.text ++
      (crlf ++ (renderLines message.fields ++ rest)) := by
    simp [Message.block, Line.render]
  have hlength := renderLines_length message.fields
  rw [findHeaderEnd, hshape, findTerminator_line message.startLine.unbroken,
    findTerminator_lines]
  simp only [Option.map_some, Message.block, Line.render, crlf,
    headerTerminator, List.length_append, List.length_cons, List.length_nil,
    Option.some.injEq]
  omega

theorem skipCrlfs_gap (gap : Nat) {rest : Bytes}
    (h : ¬ crlf.isPrefixOf rest) :
    skipCrlfs ((List.replicate gap crlf).flatten ++ rest) = 2 * gap := by
  induction gap with
  | zero =>
      cases rest with
      | nil => rfl
      | cons first rest =>
          cases rest with
          | nil => rfl
          | cons second rest =>
              have hnot : ¬ [first, second] = crlf := by
                intro heq
                apply h
                simp only [crlf, List.cons.injEq] at heq
                simp [crlf, List.isPrefixOf, heq.1, heq.2.1]
              simp [skipCrlfs, hnot]
  | succ gap ih =>
      have hshape : (List.replicate (gap + 1) crlf).flatten ++ rest =
          0x0d :: 0x0a :: ((List.replicate gap crlf).flatten ++ rest) := by
        simp [List.replicate_succ, crlf]
      have hhere : [(0x0d : UInt8), 0x0a] = crlf := rfl
      rw [hshape, skipCrlfs, if_pos hhere, ih]
      simp only [crlf, List.length_cons, List.length_nil]
      omega

/-! ## Numbers -/

theorem isDigit_isSome {radix : Nat} {octet : UInt8}
    (h : isDigit radix octet) : (digitValue octet).isSome := by
  simp only [isDigit, Option.any_eq_true] at h
  obtain ⟨value, hvalue, _⟩ := h
  rw [hvalue]
  rfl

theorem digit_plain {octet : UInt8} (h : (digitValue octet).isSome) :
    isAsciiWhitespace octet = false ∧ octet ≠ 0x2b ∧ octet ≠ 0x3b := by
  have hrange : 0x30 ≤ octet.toNat ∧ octet.toNat ≠ 0x3b := by
    simp only [digitValue, UInt8.le_iff_toNat_le] at h
    split at h
    · rename_i hdecimal
      simp only [UInt8.reduceToNat] at hdecimal
      omega
    · split at h
      · rename_i hlower
        simp only [UInt8.reduceToNat] at hlower
        omega
      · split at h
        · rename_i hupper
          simp only [UInt8.reduceToNat] at hupper
          omega
        · cases h
  have hapart : ∀ other : UInt8,
      other.toNat < 0x30 ∨ other.toNat = 0x3b → octet ≠ other := by
    intro other hother heq
    subst heq
    omega
  refine ⟨?_, hapart _ (.inl (by decide)), hapart _ (.inr rfl)⟩
  simp only [isAsciiWhitespace, decide_eq_false_iff_not, List.mem_cons,
    List.not_mem_nil, or_false, not_or]
  exact ⟨hapart _ (.inl (by decide)), hapart _ (.inl (by decide)),
    hapart _ (.inl (by decide)), hapart _ (.inl (by decide)),
    hapart _ (.inl (by decide))⟩

theorem trimAscii_digits {lead digits trail : Bytes} {radix : Nat}
    (hlead : lead.all isAsciiWhitespace) (htrail : trail.all isAsciiWhitespace)
    (hsome : digits ≠ []) (hdigits : digits.all (isDigit radix)) :
    trimAscii (lead ++ digits ++ trail) = digits := by
  have hplain : ∀ octet ∈ digits, isAsciiWhitespace octet = false := by
    intro octet hmem
    exact (digit_plain (isDigit_isSome
      (List.all_eq_true.mp hdigits octet hmem))).1
  have hstart : trimAsciiStart (lead ++ digits ++ trail) = digits ++ trail := by
    rw [trimAsciiStart, List.append_assoc, List.dropWhile_append_of_pos
      (List.all_eq_true.mp hlead)]
    cases digits with
    | nil => exact absurd rfl hsome
    | cons octet digits =>
        rw [List.cons_append, List.dropWhile_cons_of_neg]
        simp [hplain octet List.mem_cons_self]
  have hblank : ∀ octet ∈ trail.reverse, isAsciiWhitespace octet = true := by
    intro octet hmem
    exact List.all_eq_true.mp htrail octet (List.mem_reverse.mp hmem)
  rw [trimAscii, hstart, trimAsciiEnd, List.reverse_append,
    List.dropWhile_append_of_pos hblank]
  cases hreverse : digits.reverse with
  | nil => exact absurd (List.reverse_eq_nil_iff.mp hreverse) hsome
  | cons octet reversed =>
      have hmem : octet ∈ digits := by
        rw [← List.mem_reverse, hreverse]
        exact List.mem_cons_self
      rw [List.dropWhile_cons_of_neg (by simp [hplain octet hmem]), ← hreverse,
        List.reverse_reverse]

theorem parseUnsigned_digits {radix limit : Nat} {digits : Bytes}
    (hsome : digits ≠ []) (hdigits : digits.all (isDigit radix)) :
    parseUnsigned radix limit digits =
      if digitsValue radix digits < limit then some (digitsValue radix digits)
      else none := by
  have hunsigned : digits.head? ≠ some 0x2b := by
    intro hhead
    have hdigit := List.all_eq_true.mp hdigits _ (List.mem_of_head? hhead)
    exact (digit_plain (isDigit_isSome hdigit)).2.1 rfl
  have hiff : (digits ≠ [] ∧ digits.all (isDigit radix) ∧
      digitsValue radix digits < limit) ↔ digitsValue radix digits < limit :=
    ⟨fun h => h.2.2, fun h => ⟨hsome, hdigits, h⟩⟩
  simp only [parseUnsigned, if_neg hunsigned, hiff]

theorem head_any_digits {radix : Nat} {digits : Bytes} (hsome : digits ≠ [])
    (hdigits : digits.all (isDigit radix)) :
    digits.head?.any (isDigit radix) = true := by
  cases digits with
  | nil => exact absurd rfl hsome
  | cons octet digits =>
      exact List.all_eq_true.mp hdigits octet List.mem_cons_self

theorem WritesLength.value_eq {length : Nat} {value : Bytes}
    (h : WritesLength length value) :
    digitsValue 10 (trimAscii value) = length := by
  obtain ⟨lead, digits, trail, rfl, hlead, htrail, hsome, hdigits, rfl⟩ := h
  rw [trimAscii_digits hlead htrail hsome hdigits]

theorem WritesLength.parse {length : Nat} {value : Bytes}
    (h : WritesLength length value) :
    parseContentLength value =
      if length < usizeLimit then .ok length
      else .error .malformedContentLength := by
  obtain ⟨lead, digits, trail, rfl, hlead, htrail, hsome, hdigits, rfl⟩ := h
  simp only [parseContentLength,
    trimAscii_digits hlead htrail hsome hdigits,
    head_any_digits hsome hdigits, Bool.not_true, Bool.false_eq_true,
    if_false, parseUnsigned_digits hsome hdigits]
  split
  · rename_i hparsed
    split at hparsed
    · rename_i hlimit
      cases hparsed
      rw [if_pos hlimit]
    · cases hparsed
  · rename_i hparsed
    split at hparsed
    · cases hparsed
    · rename_i hlimit
      rw [if_neg hlimit]

theorem parseContentLength_names {length : Nat} {value : Bytes}
    (h : NamesLength length value) : parseContentLength value = .ok length := by
  rw [h.1.parse, if_pos h.2]

theorem SizeLine.takeWhile_text (line : SizeLine) :
    line.text.takeWhile (· != 0x3b) = line.lead ++ line.digits ++ line.trail := by
  have hblank : ∀ {octets : Bytes}, octets.all isAsciiWhitespace →
      ∀ octet ∈ octets, (octet != 0x3b) = true := by
    intro octets hall octet hmem
    have hwhite := List.all_eq_true.mp hall octet hmem
    rw [bne_iff_ne]
    intro heq
    rw [heq] at hwhite
    exact absurd hwhite (by decide)
  have hplain : ∀ octet ∈ line.lead ++ line.digits ++ line.trail,
      (octet != 0x3b) = true := by
    intro octet hmem
    rw [List.mem_append, List.mem_append] at hmem
    rcases hmem with (hlead | hdigits) | htrail
    · exact hblank line.leadBlank octet hlead
    · rw [bne_iff_ne]
      exact (digit_plain (isDigit_isSome
        (List.all_eq_true.mp line.hexadecimal octet hdigits))).2.2
    · exact hblank line.trailBlank octet htrail
  rw [SizeLine.text, List.takeWhile_append_of_pos hplain]
  have hseparated := line.separated
  cases hextensions : line.extensions with
  | nil => simp
  | cons octet rest =>
      rw [hextensions] at hseparated
      simp only [List.head?_cons, Option.all_some, beq_iff_eq] at hseparated
      subst hseparated
      simp

theorem SizeLine.parse (line : SizeLine) (hlimit : line.size < usizeLimit) :
    parseChunkSize line.text = .ok line.size := by
  have hvalue : digitsValue 16 line.digits < usizeLimit := hlimit
  simp only [parseChunkSize, line.takeWhile_text,
    trimAscii_digits line.leadBlank line.trailBlank line.sized
      line.hexadecimal,
    head_any_digits line.sized line.hexadecimal, Bool.not_true,
    Bool.false_eq_true, if_false,
    parseUnsigned_digits line.sized line.hexadecimal, if_pos hvalue]
  rfl

/-! ## Header lines -/

theorem stripPrefix_head {line pattern value : Bytes} {octet : UInt8}
    (h : stripPrefixIgnoreAsciiCase line (octet :: pattern) = some value) :
    line.head?.map toAsciiLower = some (toAsciiLower octet) := by
  simp only [stripPrefixIgnoreAsciiCase] at h
  split at h
  · rename_i hmatch
    obtain ⟨hlength, hequal⟩ := hmatch
    cases line with
    | nil => simp at hlength
    | cons first rest =>
        simp only [eqIgnoreAsciiCase, asciiLower, List.length_cons,
          List.take_succ_cons, List.map_cons, beq_iff_eq,
          List.cons.injEq] at hequal
        simp [hequal.1]
  · cases h

theorem stripPrefix_apart {line value first second : Bytes}
    {octet other : UInt8}
    (h : stripPrefixIgnoreAsciiCase line (octet :: first) = some value)
    (hapart : toAsciiLower octet ≠ toAsciiLower other) :
    stripPrefixIgnoreAsciiCase line (other :: second) = none := by
  cases hother : stripPrefixIgnoreAsciiCase line (other :: second) with
  | none => rfl
  | some value' =>
      have hsame := (stripPrefix_head h).symm.trans (stripPrefix_head hother)
      exact absurd (Option.some.inj hsame) hapart

theorem rewritableAuthority_none {line : Bytes} {kind : Kind}
    (hhost : stripPrefixIgnoreAsciiCase line (ascii "Host:") = none)
    (hurl : stripPrefixIgnoreAsciiCase line (ascii "Application-URL:") = none)
    (hlocation : stripPrefixIgnoreAsciiCase line (ascii "Location:") = none) :
    rewritableAuthority line kind = none := by
  cases kind with
  | request => simp [rewritableAuthority, hhost]
  | response => simp [rewritableAuthority, hurl, hlocation]

theorem rewritableAuthority_framing {line value pattern : Bytes}
    {octet : UInt8} (kind : Kind)
    (h : stripPrefixIgnoreAsciiCase line (octet :: pattern) = some value)
    (hapart : toAsciiLower octet ∉ ascii "hal") :
    rewritableAuthority line kind = none := by
  have hletters : ascii "hal" = [toAsciiLower 0x48, toAsciiLower 0x41,
      toAsciiLower 0x4c] := by decide
  rw [hletters] at hapart
  simp only [List.mem_cons, List.not_mem_nil, or_false, not_or] at hapart
  apply rewritableAuthority_none
  · exact stripPrefix_apart h hapart.1
  · exact stripPrefix_apart h hapart.2.1
  · exact stripPrefix_apart h hapart.2.2

def dialedBy (kind : Kind) (line : Bytes) : Option SocketAddrV4 :=
  match kind with
  | .request => none
  | .response => applicationUrlOf line

def AuthorityHeader.dialed : AuthorityHeader → Option SocketAddrV4
  | .applicationUrl endpoint => some endpoint
  | _ => none

theorem applicationUrlOf_framing {line value pattern : Bytes} {octet : UInt8}
    (h : stripPrefixIgnoreAsciiCase line (octet :: pattern) = some value)
    (hapart : toAsciiLower octet ≠ toAsciiLower 0x41) :
    applicationUrlOf line = none := by
  have hnone : stripPrefixIgnoreAsciiCase line (ascii "Application-URL:") =
      none := stripPrefix_apart h hapart
  simp [applicationUrlOf, hnone]

theorem dialedBy_framing {line value pattern : Bytes} {octet : UInt8}
    (kind : Kind)
    (h : stripPrefixIgnoreAsciiCase line (octet :: pattern) = some value)
    (hapart : toAsciiLower octet ≠ toAsciiLower 0x41) :
    dialedBy kind line = none := by
  cases kind with
  | request => rfl
  | response => exact applicationUrlOf_framing h hapart

theorem dialedBy_authority (kind : Kind) (line : Bytes) :
    dialedBy kind line =
      (rewritableAuthority line kind).bind fun found => found.2.2.dialed := by
  cases kind with
  | request =>
      simp only [dialedBy, rewritableAuthority]
      cases stripPrefixIgnoreAsciiCase line (ascii "Host:") with
      | none => rfl
      | some value =>
          cases h : parseAuthority (trimAsciiStart value) true with
          | none => simp [h]
          | some found => simp [h, AuthorityHeader.dialed]
  | response =>
      simp only [dialedBy, applicationUrlOf, rewritableAuthority]
      cases stripPrefixIgnoreAsciiCase line (ascii "Application-URL:") with
      | none =>
          cases stripPrefixIgnoreAsciiCase line (ascii "Location:") with
          | none => rfl
          | some value =>
              cases h : parseAuthority (trimAsciiStart value) false with
              | none => simp [h]
              | some found => simp [h, AuthorityHeader.dialed]
      | some value =>
          cases h : parseAuthority (trimAsciiStart value) false with
          | none => simp [h]
          | some found => simp [h, AuthorityHeader.dialed]

/-! ## The line loop -/

def HeaderScan.after (kind : Kind) (rewrite : RewritePolicy) (length : Nat)
    (scan : HeaderScan) (field : Line) : HeaderScan where
  header := scan.header ++ (rewriteLine kind rewrite field.text ++ crlf)
  contentLength :=
    if contentLengths [field] = [] then scan.contentLength else some length
  chunked := scan.chunked || saysChunked [field]
  applicationUrl := scan.applicationUrl.or (dialedBy kind field.text)
  status := scan.status
  first := false

structure HeaderScan.Agrees (scan : HeaderScan) (length : Nat)
    (fields : List Line) : Prop where
  read : ∀ known, scan.contentLength = some known → known = length
  named : ∀ value ∈ contentLengths fields, parseContentLength value = .ok length

theorem rewriteLine_of_none {kind : Kind} {line : Bytes}
    (h : rewritableAuthority line kind = none) (rewrite : RewritePolicy) :
    rewriteLine kind rewrite line = line := by
  simp [rewriteLine, h]

theorem HeaderScan.line_plain {kind : Kind} (rewrite : RewritePolicy)
    {scan : HeaderScan} {text : Bytes} (hfirst : scan.first = false)
    (hlength : stripPrefixIgnoreAsciiCase text (ascii "Content-Length:") =
      none)
    (hencoding : stripPrefixIgnoreAsciiCase text
      (ascii "Transfer-Encoding:") = none) :
    scan.line kind rewrite text =
      .ok { scan.copyLine (rewriteLine kind rewrite text) with
        applicationUrl := scan.applicationUrl.or (dialedBy kind text) } := by
  simp only [HeaderScan.line, hfirst, Bool.false_eq_true, if_false,
    HeaderScan.inspectAndEmit, hlength, hencoding, dialedBy_authority,
    rewriteLine]
  cases rewritableAuthority text kind with
  | none => simp [HeaderScan.copyLine, hfirst, bind, Except.bind]
  | some found =>
      obtain ⟨offset, found, header⟩ := found
      cases htarget : rewrite.target header <;> cases header <;>
        simp [htarget, AuthorityHeader.dialed, HeaderScan.copyLine, hfirst, bind,
          Except.bind]

theorem HeaderScan.line_field (kind : Kind) (rewrite : RewritePolicy)
    {scan : HeaderScan} {length : Nat} {field : Line}
    (hfirst : scan.first = false) (hagrees : scan.Agrees length [field]) :
    scan.line kind rewrite field.text =
      .ok (scan.after kind rewrite length field) := by
  have hnamed := hagrees.named
  simp only [contentLengths, List.filterMap_cons, List.filterMap_nil] at hnamed
  cases hlength : stripPrefixIgnoreAsciiCase field.text
      (ascii "Content-Length:") with
  | some value =>
      rw [hlength] at hnamed
      have hparse := hnamed value List.mem_cons_self
      have hsame : scan.contentLength.any (· != length) = false := by
        cases hknown : scan.contentLength with
        | none => rfl
        | some known => simp [hagrees.read known hknown]
      have hauthority := rewritableAuthority_framing kind hlength (by decide)
      have hencoding : stripPrefixIgnoreAsciiCase field.text
          (ascii "Transfer-Encoding:") = none :=
        stripPrefix_apart hlength (by decide)
      simp [HeaderScan.line, HeaderScan.inspectAndEmit, hfirst, hparse, hsame,
        HeaderScan.after, HeaderScan.copyLine, contentLengths, saysChunked,
        hlength, hencoding, rewriteLine_of_none hauthority,
        dialedBy_framing kind hlength (by decide), bind, Except.bind]
  | none =>
      cases hencoding : stripPrefixIgnoreAsciiCase field.text
          (ascii "Transfer-Encoding:") with
      | some value =>
          have hauthority :=
            rewritableAuthority_framing kind hencoding (by decide)
          simp [HeaderScan.line, HeaderScan.inspectAndEmit, hfirst,
            HeaderScan.after, HeaderScan.copyLine, contentLengths,
            saysChunked, hlength, hencoding, rewriteLine_of_none hauthority,
            dialedBy_framing kind hencoding (by decide), bind, Except.bind]
      | none =>
          rw [HeaderScan.line_plain rewrite hfirst hlength hencoding]
          simp [HeaderScan.after, HeaderScan.copyLine, contentLengths,
            saysChunked, hlength, hencoding, hfirst]

theorem HeaderScan.line_blank (kind : Kind) (rewrite : RewritePolicy)
    {scan : HeaderScan} (hfirst : scan.first = false) :
    scan.line kind rewrite [] = .ok (scan.copyLine []) := by
  have hauthority : rewritableAuthority [] kind = none := by
    cases kind <;> decide
  have hlength : stripPrefixIgnoreAsciiCase [] (ascii "Content-Length:") =
      none := by decide
  have hencoding : stripPrefixIgnoreAsciiCase [] (ascii "Transfer-Encoding:") =
      none := by decide
  simp [HeaderScan.line, hfirst, HeaderScan.inspectAndEmit, hlength,
    hencoding, hauthority, bind, Except.bind]

theorem HeaderScan.Agrees.after {scan : HeaderScan} {length : Nat}
    {field : Line} {fields : List Line}
    (h : scan.Agrees length (field :: fields)) (kind : Kind)
    (rewrite : RewritePolicy) :
    (scan.after kind rewrite length field).Agrees length fields := by
  constructor
  · intro known hknown
    simp only [HeaderScan.after] at hknown
    split at hknown
    · exact h.read known hknown
    · exact (Option.some.inj hknown).symm
  · intro value hmem
    apply h.named
    rw [contentLengths, List.filterMap_cons]
    split
    · exact hmem
    · exact List.mem_cons_of_mem _ hmem

theorem HeaderScan.Agrees.head {scan : HeaderScan} {length : Nat}
    {field : Line} {fields : List Line}
    (h : scan.Agrees length (field :: fields)) :
    scan.Agrees length [field] := by
  constructor
  · exact h.read
  · intro value hmem
    apply h.named
    simp only [contentLengths, List.mem_filterMap, List.mem_singleton] at hmem ⊢
    obtain ⟨found, rfl, hstrip⟩ := hmem
    exact ⟨found, List.mem_cons_self, hstrip⟩

theorem HeaderScan.lines_succ (kind : Kind) (rewrite : RewritePolicy)
    (rounds : Nat) (scan : HeaderScan) (text : Bytes)
    (hunbroken : findCrlf text = none) (rest : Bytes) :
    HeaderScan.lines kind rewrite (rounds + 1) (text ++ (crlf ++ rest)) scan =
      (scan.line kind rewrite text).bind
        (HeaderScan.lines kind rewrite rounds rest) := by
  have hsome : text ++ (crlf ++ rest) ≠ [] := by simp [crlf]
  have hdrop : (text ++ (crlf ++ rest)).drop (text.length + crlf.length) =
      rest := by
    rw [← List.drop_drop, List.drop_left, List.drop_left]
  rw [HeaderScan.lines, if_neg hsome]
  simp only [findCrlf_line hunbroken, Option.getD_some, List.take_left, hdrop]
  rfl

theorem contentLengths_cons (field : Line) (fields : List Line) :
    contentLengths (field :: fields) =
      contentLengths [field] ++ contentLengths fields := by
  rw [contentLengths, contentLengths, contentLengths, ← List.filterMap_append]
  rfl

theorem HeaderScan.lines_fields (kind : Kind) (rewrite : RewritePolicy)
    {rounds length : Nat} {scan : HeaderScan} {fields : List Line}
    (hrounds : fields.length < rounds) (hfirst : scan.first = false)
    (hagrees : scan.Agrees length fields) :
    HeaderScan.lines kind rewrite rounds (renderLines fields) scan = .ok
      { header := scan.header ++ (fields.flatMap
          (fun field => rewriteLine kind rewrite field.text ++ crlf) ++ crlf)
        contentLength :=
          if contentLengths fields = [] then scan.contentLength
          else some length
        chunked := scan.chunked || saysChunked fields
        applicationUrl := scan.applicationUrl.or
          (fields.filterMap fun field => dialedBy kind field.text).head?
        status := scan.status
        first := false } := by
  induction fields generalizing rounds scan with
  | nil =>
      obtain ⟨rounds, rfl⟩ := Nat.exists_eq_succ_of_ne_zero
        (Nat.ne_of_gt hrounds)
      have hstep := HeaderScan.lines_succ kind rewrite rounds scan [] rfl []
      rw [HeaderScan.line_blank kind rewrite hfirst] at hstep
      rw [renderLines]
      refine hstep.trans ?_
      cases rounds <;>
        simp [HeaderScan.lines, Except.bind, HeaderScan.copyLine,
          contentLengths, saysChunked, hfirst]
  | cons field fields ih =>
      obtain ⟨rounds, rfl⟩ := Nat.exists_eq_succ_of_ne_zero
        (Nat.ne_of_gt (Nat.zero_lt_of_lt hrounds))
      rw [renderLines, Line.render, List.append_assoc,
        HeaderScan.lines_succ kind rewrite rounds scan _ field.unbroken,
        HeaderScan.line_field kind rewrite hfirst hagrees.head]
      refine (ih (Nat.lt_of_succ_lt_succ hrounds) rfl
        (hagrees.after kind rewrite)).trans ?_
      simp only [HeaderScan.after, Except.ok.injEq, HeaderScan.mk.injEq,
        and_true]
      refine ⟨by simp, ?_, ?_, ?_⟩
      · rw [contentLengths_cons field fields]
        by_cases hfield : contentLengths [field] = []
        · simp [hfield]
        · simp [hfield]
      · rw [Bool.or_assoc]
        simp [saysChunked]
      · rw [List.filterMap_cons, Option.or_assoc]
        cases dialedBy kind field.text with
        | none => simp
        | some endpoint => simp

theorem HeaderScan.lines_overlong (kind : Kind) (rewrite : RewritePolicy)
    {rounds length : Nat} {scan : HeaderScan} {fields : List Line}
    (hrounds : fields.length < rounds) (hfirst : scan.first = false)
    (hnone : scan.contentLength = none) (hlong : usizeLimit ≤ length)
    (hsome : contentLengths fields ≠ [])
    (hwrites : ∀ value ∈ contentLengths fields, WritesLength length value) :
    HeaderScan.lines kind rewrite rounds (renderLines fields) scan =
      .error .malformedContentLength := by
  induction fields generalizing rounds scan with
  | nil => exact absurd rfl hsome
  | cons field fields ih =>
      obtain ⟨rounds, rfl⟩ := Nat.exists_eq_succ_of_ne_zero
        (Nat.ne_of_gt (Nat.zero_lt_of_lt hrounds))
      rw [renderLines, Line.render, List.append_assoc,
        HeaderScan.lines_succ kind rewrite rounds scan _ field.unbroken]
      rw [contentLengths_cons] at hsome hwrites
      by_cases hfield : contentLengths [field] = []
      · -- The field says nothing of the length, and the scan goes on.
        have hagrees : scan.Agrees length [field] := by
          constructor
          · intro known hknown
            rw [hnone] at hknown
            cases hknown
          · intro value hmem
            rw [hfield] at hmem
            cases hmem
        rw [hfield, List.nil_append] at hsome hwrites
        rw [HeaderScan.line_field kind rewrite hfirst hagrees]
        refine ih (Nat.lt_of_succ_lt_succ hrounds) rfl ?_ hsome hwrites
        simp [HeaderScan.after, hfield, hnone]
      · obtain ⟨value, hmem⟩ := List.exists_mem_of_ne_nil _ hfield
        have hparse := (hwrites value (List.mem_append_left _ hmem)).parse
        rw [if_neg (Nat.not_lt.mpr hlong)] at hparse
        simp only [contentLengths, List.mem_filterMap, List.mem_singleton,
          exists_eq_left] at hmem
        simp [HeaderScan.line, HeaderScan.inspectAndEmit, hfirst, hmem, hparse,
          bind, Except.bind]

def statusOf (kind : Kind) (startLine : Line) : Nat :=
  match kind with
  | .request => 0
  | .response => parseStatusCode startLine.text

theorem Message.line_start (rewrite : RewritePolicy)
    (message : Message kind) :
    HeaderScan.start.line kind rewrite message.startLine.text = .ok
      ⟨message.startLine.render, none, false, none,
        statusOf kind message.startLine, false⟩ := by
  cases kind with
  | request =>
      simp [HeaderScan.line, HeaderScan.start, HeaderScan.copyLine,
        message.supported rfl, statusOf, Line.render]
  | response =>
      simp [HeaderScan.line, HeaderScan.start, HeaderScan.copyLine,
        statusOf, Line.render]

theorem Message.applicationUrl_eq (message : Message kind) :
    message.applicationUrl = (message.fields.filterMap
      fun field => dialedBy kind field.text).head? := by
  cases kind with
  | request => simp [Message.applicationUrl, dialedBy]
  | response => rfl

def Message.startScan (message : Message kind) : HeaderScan :=
  ⟨message.startLine.render, none, false, none,
    statusOf kind message.startLine, false⟩

theorem Message.lines_block (rewrite : RewritePolicy)
    (message : Message kind) :
    ∃ rounds, message.fields.length < rounds ∧
      HeaderScan.lines kind rewrite message.block.length message.block .start =
        HeaderScan.lines kind rewrite rounds (renderLines message.fields)
          message.startScan := by
  have hlength : message.fields.length + 2 ≤ message.block.length := by
    have := renderLines_length message.fields
    simp only [Message.block, Line.render, crlf, List.length_append,
      List.length_cons, List.length_nil]
    omega
  obtain ⟨rounds, hrounds⟩ := Nat.exists_eq_succ_of_ne_zero
    (show message.block.length ≠ 0 by omega)
  refine ⟨rounds, by omega, ?_⟩
  rw [hrounds, Message.block, Line.render, List.append_assoc,
    HeaderScan.lines_succ _ _ _ _ _ message.startLine.unbroken,
    message.line_start]
  rfl

theorem Message.scanAndRewriteHeader_block (rewrite : RewritePolicy)
    (message : Message kind) {length : Nat}
    (hlengths : ∀ value ∈ contentLengths message.fields,
      NamesLength length value)
    (hone : contentLengths message.fields = [] ∨
      saysChunked message.fields = false) :
    (HttpFraming.new kind rewrite).scanAndRewriteHeader message.block = .ok
      ((HttpFraming.new kind rewrite).setBodyPhase
          (statusOf kind message.startLine)
          (if contentLengths message.fields = [] then none else some length)
          (saysChunked message.fields),
        message.rewritten rewrite, message.applicationUrl) := by
  obtain ⟨rounds, hrounds, hblock⟩ := message.lines_block rewrite
  have hagrees : message.startScan.Agrees length message.fields := by
    constructor
    · intro known hknown
      cases hknown
    · intro value hmem
      exact parseContentLength_names (hlengths value hmem)
  have hlines : HeaderScan.lines kind rewrite message.block.length
      message.block .start = .ok
        { header := message.rewritten rewrite
          contentLength :=
            if contentLengths message.fields = [] then none else some length
          chunked := saysChunked message.fields
          applicationUrl := message.applicationUrl
          status := statusOf kind message.startLine
          first := false } := by
    rw [hblock]
    refine (HeaderScan.lines_fields kind rewrite hrounds rfl hagrees).trans ?_
    simp [Message.startScan, Message.rewritten, message.applicationUrl_eq]
  have hnot : ¬ ((if contentLengths message.fields = [] then none
      else some length).isSome = true ∧ saysChunked message.fields = true) := by
    intro hboth
    rcases hone with hnone | hplain
    · simp [hnone] at hboth
    · simp [hplain] at hboth
  simp only [HttpFraming.scanAndRewriteHeader, HttpFraming.new, hlines, bind,
    Except.bind]
  rw [if_neg hnot]

/-! ## Bodies -/

theorem takeBody_header {framer : HttpFraming} (hphase : framer.phase = .header)
    (rounds : Nat) (rest : Bytes) :
    HttpFraming.takeBody rounds framer rest = .ok (framer, 0) := by
  cases rounds with
  | zero => rfl
  | succ rounds =>
      rw [HttpFraming.takeBody]
      split
      · rfl
      · simp [hphase]

theorem drop_line (text rest : Bytes) :
    (text ++ (crlf ++ rest)).drop (text.length + crlf.length) = rest := by
  rw [← List.drop_drop, List.drop_left, List.drop_left]

theorem takeBody_trailers {framer : HttpFraming}
    (hphase : framer.phase = .bodyChunkedTrailers) (trailers : List Line)
    (rest : Bytes) {rounds : Nat} (hrounds : trailers.length < rounds) :
    HttpFraming.takeBody rounds framer (renderLines trailers ++ rest) =
      .ok ({ framer with phase := .header }, (renderLines trailers).length) := by
  induction trailers generalizing rounds with
  | nil =>
      obtain ⟨rounds, rfl⟩ := Nat.exists_eq_succ_of_ne_zero
        (Nat.ne_of_gt hrounds)
      have hfound : findCrlf (crlf ++ rest) = some 0 := rfl
      have hsome : crlf ++ rest ≠ [] := by simp [crlf]
      rw [renderLines, HttpFraming.takeBody, if_neg hsome]
      simp [hphase, hfound, takeBody_header, bind, Except.bind]
  | cons trailer trailers ih =>
      obtain ⟨rounds, rfl⟩ := Nat.exists_eq_succ_of_ne_zero
        (Nat.ne_of_gt (Nat.zero_lt_of_lt hrounds))
      have hshape : renderLines (trailer :: trailers) ++ rest =
          trailer.text ++ (crlf ++ (renderLines trailers ++ rest)) := by
        simp [renderLines, Line.render]
      have hsome : trailer.text ++ (crlf ++ (renderLines trailers ++ rest)) ≠
          [] := by simp [crlf]
      have hpositive : trailer.text.length ≠ 0 := by
        simpa using trailer.nonempty
      rw [hshape, HttpFraming.takeBody, if_neg hsome]
      simp only [hphase, findCrlf_line trailer.unbroken, drop_line,
        if_neg hpositive]
      have hsame : { framer with phase := Phase.bodyChunkedTrailers } =
          framer := by
        rw [← hphase]
      rw [hsame, ih (Nat.lt_of_succ_lt_succ hrounds)]
      simp [renderLines, Line.render, bind, Except.bind, Nat.add_assoc]

theorem takeBody_data {framer : HttpFraming}
    (hphase : framer.phase = .bodyChunked) (hzero : framer.chunkRemaining = 0)
    {data : Bytes} (hsome : data ≠ []) (rest : Bytes) (rounds : Nat) :
    HttpFraming.takeBody (rounds + 1)
        { framer with chunkRemaining := data.length } (data ++ rest) =
      (HttpFraming.takeBody rounds framer rest).map fun taken =>
        (taken.1, data.length + taken.2) := by
  have hbytes : data ++ rest ≠ [] := by simp [hsome]
  have hpositive : 0 < data.length := List.length_pos_iff.mpr hsome
  have hall : min data.length (data ++ rest).length = data.length := by
    rw [List.length_append]
    omega
  have hsame : { framer with chunkRemaining := 0 } = framer := by
    rw [← hzero]
  rw [HttpFraming.takeBody, if_neg hbytes]
  simp only [hphase] at hsame ⊢
  rw [if_pos hpositive]
  simp only [hall, Nat.sub_self, Nat.lt_irrefl, if_false, List.drop_left,
    hsame]
  cases HttpFraming.takeBody rounds framer rest <;> rfl

theorem takeBody_sizeLine {framer : HttpFraming}
    (hphase : framer.phase = .bodyChunked) (hzero : framer.chunkRemaining = 0)
    (line : SizeLine) (hfits : line.size + crlf.length < usizeLimit)
    (rest : Bytes) (rounds : Nat) :
    HttpFraming.takeBody (rounds + 1) framer (line.render ++ rest) =
      (HttpFraming.takeBody rounds
        (if line.size = 0 then { framer with phase := .bodyChunkedTrailers }
          else { framer with chunkRemaining := line.size + crlf.length })
        rest).map fun taken => (taken.1, line.render.length + taken.2) := by
  have hshape : line.render ++ rest = line.text ++ (crlf ++ rest) := by
    simp [SizeLine.render]
  have hbytes : line.text ++ (crlf ++ rest) ≠ [] := by simp [crlf]
  have hfound : findCrlf (line.text ++ (crlf ++ rest)) =
      some line.text.length := findCrlf_line line.unbroken rest
  have hparse := line.parse (by omega)
  have hnot : ¬ 0 < framer.chunkRemaining := by omega
  have hlength : line.render.length = line.text.length + crlf.length := by
    rw [SizeLine.render, List.length_append]
  rw [hshape, HttpFraming.takeBody, if_neg hbytes, hlength]
  simp only [hphase, if_neg hnot, hfound, List.take_left, drop_line, hparse,
    bind, Except.bind]
  by_cases hlast : line.size = 0
  · rw [if_pos hlast, if_pos hlast]
    cases HttpFraming.takeBody rounds
        { framer with phase := .bodyChunkedTrailers } rest <;> rfl
  · rw [if_neg hlast, if_neg hlast, if_neg (Nat.not_le.mpr hfits)]
    cases HttpFraming.takeBody rounds
        ⟨framer.kind, framer.rewrite, .bodyChunked, framer.bodyRemaining,
          line.size + crlf.length⟩ rest <;> rfl

theorem takeBody_chunk {framer : HttpFraming}
    (hphase : framer.phase = .bodyChunked) (hzero : framer.chunkRemaining = 0)
    (chunk : Chunk) (rest : Bytes) (rounds : Nat) :
    HttpFraming.takeBody (rounds + 2) framer (chunk.render ++ rest) =
      (HttpFraming.takeBody rounds framer rest).map fun taken =>
        (taken.1, chunk.render.length + taken.2) := by
  have hsize := chunk.announced
  have hbounded := chunk.bounded
  have hpositive : chunk.line.size ≠ 0 := by
    rw [hsize]
    simpa using chunk.nonempty
  have hdata := takeBody_data hphase hzero
    (show chunk.data ++ crlf ≠ [] by simp [crlf]) rest rounds
  rw [List.length_append, ← hsize] at hdata
  rw [Chunk.render, List.append_assoc,
    takeBody_sizeLine hphase hzero chunk.line (by omega), if_neg hpositive,
    hdata]
  cases HttpFraming.takeBody rounds framer rest with
  | error error => rfl
  | ok taken =>
      simp only [Except.map, List.length_append, hsize, Nat.add_assoc]

theorem takeBody_chunks {framer : HttpFraming}
    (hphase : framer.phase = .bodyChunked) (hzero : framer.chunkRemaining = 0)
    (chunks : List Chunk) (rest : Bytes) (rounds : Nat) :
    HttpFraming.takeBody (rounds + 2 * chunks.length) framer
        (chunks.flatMap Chunk.render ++ rest) =
      (HttpFraming.takeBody rounds framer rest).map fun taken =>
        (taken.1, (chunks.flatMap Chunk.render).length + taken.2) := by
  induction chunks with
  | nil =>
      simp only [List.flatMap_nil, List.nil_append, List.length_nil,
        Nat.mul_zero, Nat.add_zero, Nat.zero_add]
      cases HttpFraming.takeBody rounds framer rest <;> rfl
  | cons chunk chunks ih =>
      have hrounds : rounds + 2 * (chunk :: chunks).length =
          rounds + 2 * chunks.length + 2 := by
        rw [List.length_cons]
        omega
      rw [hrounds, List.flatMap_cons, List.append_assoc,
        takeBody_chunk hphase hzero, ih]
      cases HttpFraming.takeBody rounds framer rest with
      | error error => rfl
      | ok taken => simp only [Except.map, List.length_append, Nat.add_assoc]

theorem takeBody_chunked {framer : HttpFraming}
    (hphase : framer.phase = .bodyChunked) (hzero : framer.chunkRemaining = 0)
    (body : ChunkedBody) (rest : Bytes) {rounds : Nat}
    (hrounds : 2 * body.chunks.length + body.trailers.length + 1 < rounds) :
    HttpFraming.takeBody rounds framer (body.render ++ rest) =
      .ok ({ framer with phase := .header }, body.render.length) := by
  obtain ⟨left, rfl⟩ : ∃ left, rounds = left + 1 + 2 * body.chunks.length :=
    ⟨rounds - 1 - 2 * body.chunks.length, by omega⟩
  have hfits : body.last.size + crlf.length < usizeLimit := by
    rw [body.final]
    decide
  have htrailers : HttpFraming.takeBody left
      { framer with phase := .bodyChunkedTrailers }
      (renderLines body.trailers ++ rest) =
        .ok ({ framer with phase := .header },
          (renderLines body.trailers).length) :=
    takeBody_trailers rfl body.trailers rest (by omega)
  rw [ChunkedBody.render, List.append_assoc,
    takeBody_chunks hphase hzero, List.append_assoc,
    takeBody_sizeLine hphase hzero body.last hfits, if_pos body.final,
    htrailers]
  simp [Except.map]

theorem chunks_length (chunks : List Chunk) :
    2 * chunks.length ≤ (chunks.flatMap Chunk.render).length := by
  induction chunks with
  | nil => exact Nat.le_refl 0
  | cons chunk chunks ih =>
      simp only [List.flatMap_cons, Chunk.render, SizeLine.render, crlf,
        List.length_append, List.length_cons, List.length_nil]
      omega

theorem ChunkedBody.rounds_le (body : ChunkedBody) :
    2 * body.chunks.length + body.trailers.length + 1 ≤ body.render.length := by
  have hchunks := chunks_length body.chunks
  have htrailers := renderLines_length body.trailers
  simp only [ChunkedBody.render, SizeLine.render, crlf, List.length_append,
    List.length_cons, List.length_nil]
  omega

def Body.started (kind : Kind) (rewrite : RewritePolicy) : Body → HttpFraming
  | .none => HttpFraming.new kind rewrite
  | .sized bytes =>
      if bytes.length = 0 then HttpFraming.new kind rewrite
      else
        { HttpFraming.new kind rewrite with
          phase := .bodyContentLength
          bodyRemaining := bytes.length }
  | .chunked _ => { HttpFraming.new kind rewrite with phase := .bodyChunked }
  | .untilClose _ =>
      { HttpFraming.new kind rewrite with phase := .bodyCloseDelimited }

theorem hasBodylessStatus_iff (kind : Kind) (startLine : Line) :
    hasBodylessStatus kind startLine = true ↔
      kind = .response ∧ bodylessStatus (statusOf kind startLine) = true := by
  cases kind with
  | request => simp [hasBodylessStatus]
  | response => simp [hasBodylessStatus, statusOf]

theorem Delimits.starts {startLine : Line} {fields : List Line} {body : Body}
    (h : Delimits kind startLine fields body)
    (hfits : hasBodylessStatus kind startLine = true →
      ∀ value ∈ contentLengths fields,
        digitsValue 10 (trimAscii value) < usizeLimit) :
    ∃ length, (∀ value ∈ contentLengths fields, NamesLength length value) ∧
      (contentLengths fields = [] ∨ saysChunked fields = false) ∧
      ∀ rewrite, (HttpFraming.new kind rewrite).setBodyPhase
        (statusOf kind startLine)
        (if contentLengths fields = [] then none else some length)
        (saysChunked fields) = body.started kind rewrite := by
  have hiff := hasBodylessStatus_iff kind startLine
  cases h with
  | bodyless length hstatus hlengths hone =>
      have hnames : ∀ value ∈ contentLengths fields,
          NamesLength length value := by
        intro value hmem
        have hwrites := hlengths value hmem
        exact ⟨hwrites, hwrites.value_eq ▸ hfits hstatus value hmem⟩
      refine ⟨length, hnames, hone, ?_⟩
      intro rewrite
      obtain ⟨rfl, hbodyless⟩ := hiff.mp hstatus
      simp [HttpFraming.setBodyPhase, HttpFraming.new, hbodyless, Body.started]
  | chunked body hstatus hlengths hchunked =>
      refine ⟨0, by simp [hlengths], .inl hlengths, ?_⟩
      intro rewrite
      rw [hstatus] at hiff
      simp [HttpFraming.setBodyPhase, HttpFraming.new, ← hiff, hchunked,
        Body.started]
  | sized bytes hstatus hsome hlengths hchunked =>
      refine ⟨bytes.length, hlengths, .inr hchunked, ?_⟩
      intro rewrite
      rw [hstatus] at hiff
      simp [HttpFraming.setBodyPhase, HttpFraming.new, ← hiff, hchunked, hsome,
        Body.started]
  | request hkind hlengths hchunked =>
      refine ⟨0, by simp [hlengths], .inl hlengths, ?_⟩
      intro rewrite
      subst hkind
      simp [HttpFraming.setBodyPhase, HttpFraming.new, hlengths, hchunked,
        Body.started]
  | response bytes hkind hstatus hlengths hchunked =>
      refine ⟨0, by simp [hlengths], .inl hlengths, ?_⟩
      intro rewrite
      subst hkind
      have hbody : bodylessStatus (statusOf .response startLine) = false := by
        simpa [hstatus] using hiff
      simp [HttpFraming.setBodyPhase, HttpFraming.new, hbody, hlengths,
        hchunked, Body.started]

theorem Delimits.writes {startLine : Line} {fields : List Line} {body : Body}
    (h : Delimits kind startLine fields body)
    (hstatus : hasBodylessStatus kind startLine = true) :
    ∃ length, ∀ value ∈ contentLengths fields, WritesLength length value := by
  cases h with
  | bodyless length _ hlengths _ => exact ⟨length, hlengths⟩
  | chunked _ hbody => simp [hstatus] at hbody
  | sized _ hbody => simp [hstatus] at hbody
  | request hkind => simp [hkind, hasBodylessStatus] at hstatus
  | response _ _ hbody => simp [hstatus] at hbody

theorem Message.takeBody_body (rewrite : RewritePolicy)
    (message : Message kind) (rest : Bytes)
    (hlast : message.closeDelimited → rest = []) :
    HttpFraming.takeBody ((message.body.render ++ rest).length + 1)
        (message.body.started kind rewrite) (message.body.render ++ rest) =
      .ok (message.behind rewrite, message.body.render.length) := by
  cases hbody : message.body with
  | none =>
      rw [Body.started, takeBody_header rfl]
      simp [Message.behind, Message.closeDelimited, hbody, Body.render]
  | sized bytes =>
      have hbehind : message.behind rewrite = HttpFraming.new kind rewrite := by
        simp [Message.behind, Message.closeDelimited, hbody]
      simp only [Body.started, Body.render]
      split
      · rename_i hempty
        rw [takeBody_header rfl, hempty, hbehind]
      · rename_i hsome
        have hbytes : bytes ++ rest ≠ [] := by
          simp [List.length_eq_zero_iff] at hsome
          simp [hsome]
        rw [HttpFraming.takeBody, if_neg hbytes, hbehind]
        simp [HttpFraming.new]
  | chunked body =>
      have hrounds := body.rounds_le
      rw [Body.started, Body.render, takeBody_chunked rfl rfl body rest
        (by rw [List.length_append]; omega)]
      simp [Message.behind, Message.closeDelimited, hbody, HttpFraming.new]
  | untilClose bytes =>
      have hclose : message.closeDelimited = true := by
        simp [Message.closeDelimited, hbody]
      rw [hlast hclose, List.append_nil, HttpFraming.takeBody, Body.render,
        Message.behind, if_pos hclose]
      split
      · rename_i hempty
        simp [Body.started, hempty]
      · simp [Body.started]

/-! ## Messages -/

theorem Message.block_starts (message : Message kind) (rest : Bytes) :
    ¬ crlf.isPrefixOf (message.block ++ rest) := by
  have hshape : message.block ++ rest = message.startLine.text ++
      (crlf ++ (renderLines message.fields ++ rest)) := by
    simp [Message.block, Line.render]
  rw [hshape]
  exact no_crlf_opens message.startLine.nonempty message.startLine.unbroken _

theorem gap_length (gap : Nat) :
    (List.replicate gap crlf).flatten.length = 2 * gap := by
  simp [crlf, Nat.mul_comm]

theorem Message.feed_block (rewrite : RewritePolicy) (message : Message kind)
    (rest : Bytes) :
    (HttpFraming.new kind rewrite).feed (message.render ++ rest) =
      (do
        let (framer, header, url) ←
          (HttpFraming.new kind rewrite).scanAndRewriteHeader message.block
        let tail := message.body.render ++ rest
        let (framer, taken) ← HttpFraming.takeBody (tail.length + 1) framer tail
        .ok (framer, ⟨header, tail.take taken,
          2 * message.gap + message.block.length + taken, url⟩)) := by
  have hshape : message.render ++ rest =
      (List.replicate message.gap crlf).flatten ++
        (message.block ++ (message.body.render ++ rest)) := by
    simp [Message.render]
  have hskip := skipCrlfs_gap message.gap
    (message.block_starts (message.body.render ++ rest))
  have hdrop : ((List.replicate message.gap crlf).flatten ++
      (message.block ++ (message.body.render ++ rest))).drop
        (2 * message.gap) =
      message.block ++ (message.body.render ++ rest) := by
    rw [← gap_length, List.drop_left]
  have hfits : ¬ message.block.length > maxHeader :=
    Nat.not_lt.mpr message.bounded
  have hheader : (HttpFraming.new kind rewrite).phase = .header := rfl
  rw [hshape, HttpFraming.feed, if_pos hheader]
  simp only [hskip, hdrop, message.findHeaderEnd_block, if_neg hfits,
    List.take_left, List.drop_left]

theorem Message.feed (rewrite : RewritePolicy) (message : Message kind)
    (hfits : ¬ message.Overlong) (rest : Bytes)
    (hlast : message.closeDelimited → rest = []) :
    (HttpFraming.new kind rewrite).feed (message.render ++ rest) =
      .ok (message.behind rewrite, message.framed rewrite) := by
  obtain ⟨length, hlengths, hone, hstarts⟩ := message.delimited.starts
    (fun hstatus value hmem => Nat.lt_of_not_le fun hlong =>
      hfits ⟨hstatus, value, hmem, hlong⟩)
  have hscan := message.scanAndRewriteHeader_block rewrite hlengths hone
  rw [hstarts] at hscan
  rw [message.feed_block, hscan]
  simp only [message.takeBody_body rewrite rest hlast, bind, Except.bind,
    List.take_left, Message.framed, Except.ok.injEq, Prod.mk.injEq,
    Framed.mk.injEq, true_and, and_true]
  simp only [Message.render, List.length_append, gap_length, Nat.add_assoc]

theorem Message.Overlong.lengths {message : Message kind}
    (h : message.Overlong) :
    ∃ length, usizeLimit ≤ length ∧ contentLengths message.fields ≠ [] ∧
      ∀ value ∈ contentLengths message.fields, WritesLength length value := by
  obtain ⟨hstatus, value, hmem, hlong⟩ := h
  obtain ⟨length, hwrites⟩ := message.delimited.writes hstatus
  exact ⟨length, (hwrites value hmem).value_eq ▸ hlong,
    List.ne_nil_of_mem hmem, hwrites⟩

/-- Its length is read before its status is looked at. -/
theorem Message.feed_overlong (rewrite : RewritePolicy)
    {message : Message kind} (h : message.Overlong) (rest : Bytes) :
    (HttpFraming.new kind rewrite).feed (message.render ++ rest) =
      .error .malformedContentLength := by
  obtain ⟨length, hlong, hsome, hwrites⟩ := h.lengths
  obtain ⟨rounds, hrounds, hblock⟩ := message.lines_block rewrite
  have hscan : (HttpFraming.new kind rewrite).scanAndRewriteHeader
      message.block = .error .malformedContentLength := by
    have hlines : HeaderScan.lines kind rewrite rounds
        (renderLines message.fields) message.startScan =
          .error .malformedContentLength :=
      HeaderScan.lines_overlong kind rewrite hrounds rfl rfl hlong hsome
        hwrites
    simp only [HttpFraming.scanAndRewriteHeader, HttpFraming.new, hblock,
      hlines, bind, Except.bind]
  rw [message.feed_block, hscan]
  rfl

def renderAll (messages : List (Message kind)) : Bytes :=
  messages.flatMap Message.render

theorem renderAll_cons (message : Message kind)
    (messages : List (Message kind)) :
    renderAll (message :: messages) = message.render ++ renderAll messages := by
  rw [renderAll, List.flatMap_cons]
  rfl

theorem Message.render_pos (message : Message kind) :
    0 < message.render.length := by
  have := renderLines_length message.fields
  simp only [Message.render, Message.block, List.length_append]
  omega

theorem feed_nil (framer : HttpFraming) :
    framer.feed [] = .ok (framer, ⟨[], [], 0, none⟩) := by
  simp only [HttpFraming.feed]
  split
  · simp [skipCrlfs, findHeaderEnd, findSubslice, headerTerminator, maxHeader]
  · simp [HttpFraming.takeBody, bind, Except.bind]

theorem feedAll_nil (framer : HttpFraming) (rounds : Nat) :
    HttpFraming.feedAll rounds framer [] = .ok ([], []) := by
  cases rounds with
  | zero => rfl
  | succ rounds =>
      simp [HttpFraming.feedAll, feed_nil, bind, Except.bind]

theorem closeDelimited_last {message : Message kind}
    {messages : List (Message kind)}
    (hlast : ∀ other ∈ (message :: messages).dropLast,
      other.closeDelimited = false)
    (hclose : message.closeDelimited = true) : messages = [] := by
  cases messages with
  | nil => rfl
  | cons next messages =>
      have hopen := hlast message (by simp)
      rw [hclose] at hopen
      cases hopen

theorem dropLast_tail {message other : Message kind}
    {messages : List (Message kind)} (hmem : other ∈ messages.dropLast) :
    other ∈ (message :: messages).dropLast := by
  cases messages with
  | nil => cases hmem
  | cons next messages => exact List.mem_cons_of_mem _ hmem

theorem feedAll_cons (rewrite : RewritePolicy) {message : Message kind}
    {messages : List (Message kind)} (hfits : ¬ message.Overlong)
    (hlast : ∀ other ∈ (message :: messages).dropLast,
      other.closeDelimited = false) (rounds : Nat) :
    HttpFraming.feedAll (rounds + 1) (HttpFraming.new kind rewrite)
        (renderAll (message :: messages)) =
      (HttpFraming.feedAll rounds (message.behind rewrite)
        (renderAll messages)).map fun result =>
          (result.1, (message.behind rewrite, message.framed rewrite) ::
            result.2) := by
  have hfeed := message.feed rewrite hfits (renderAll messages)
    (by intro hclose; rw [closeDelimited_last hlast hclose]; rfl)
  have hconsumed : (message.framed rewrite).consumed ≠ 0 :=
    Nat.ne_of_gt message.render_pos
  have hdrop : (message.render ++ renderAll messages).drop
      (message.framed rewrite).consumed = renderAll messages :=
    List.drop_left
  rw [renderAll_cons, HttpFraming.feedAll, hfeed]
  simp only [Except.bind, if_neg hconsumed, hdrop, bind]
  cases HttpFraming.feedAll rounds (message.behind rewrite)
    (renderAll messages) <;> rfl

theorem feedAll_messages (rewrite : RewritePolicy)
    (messages : List (Message kind))
    (hlast : ∀ message ∈ messages.dropLast, message.closeDelimited = false)
    (hfits : ∀ message ∈ messages, ¬ message.Overlong)
    {rounds : Nat} (hrounds : messages.length ≤ rounds) :
    HttpFraming.feedAll rounds (HttpFraming.new kind rewrite)
        (renderAll messages) =
      .ok ([], messages.map fun message =>
        (message.behind rewrite, message.framed rewrite)) := by
  induction messages generalizing rounds with
  | nil => exact feedAll_nil _ _
  | cons message messages ih =>
      obtain ⟨rounds, rfl⟩ := Nat.exists_eq_succ_of_ne_zero
        (Nat.ne_of_gt (Nat.lt_of_lt_of_le (Nat.succ_pos _) hrounds))
      have hmore : HttpFraming.feedAll rounds (message.behind rewrite)
          (renderAll messages) =
            .ok ([], messages.map fun message =>
              (message.behind rewrite, message.framed rewrite)) := by
        cases hclose : message.closeDelimited with
        | true =>
            rw [closeDelimited_last hlast hclose]
            exact feedAll_nil _ _
        | false =>
            rw [Message.behind, hclose]
            exact ih (fun other hmem => hlast other (dropLast_tail hmem))
              (fun other hmem => hfits other (List.mem_cons_of_mem _ hmem))
              (by simpa using hrounds)
      rw [feedAll_cons rewrite (hfits message List.mem_cons_self) hlast, hmore]
      rfl

theorem feedAll_overlong (rewrite : RewritePolicy)
    {messages : List (Message kind)}
    (hlast : ∀ message ∈ messages.dropLast, message.closeDelimited = false)
    (hlong : ∃ message ∈ messages, message.Overlong)
    {rounds : Nat} (hrounds : messages.length ≤ rounds) :
    HttpFraming.feedAll rounds (HttpFraming.new kind rewrite)
        (renderAll messages) = .error .malformedContentLength := by
  induction messages generalizing rounds with
  | nil =>
      obtain ⟨message, hmem, _⟩ := hlong
      cases hmem
  | cons message messages ih =>
      obtain ⟨rounds, rfl⟩ := Nat.exists_eq_succ_of_ne_zero
        (Nat.ne_of_gt (Nat.lt_of_lt_of_le (Nat.succ_pos _) hrounds))
      by_cases hhere : message.Overlong
      · rw [renderAll_cons, HttpFraming.feedAll,
          message.feed_overlong rewrite hhere]
        rfl
      · have hlater : ∃ other ∈ messages, other.Overlong := by
          obtain ⟨other, hmem, hother⟩ := hlong
          rcases List.mem_cons.mp hmem with rfl | hmem
          · exact absurd hother hhere
          · exact ⟨other, hmem, hother⟩
        have hopen : message.closeDelimited = false := by
          rw [Bool.eq_false_iff]
          intro hclose
          obtain ⟨other, hmem, _⟩ := hlater
          rw [closeDelimited_last hlast hclose] at hmem
          cases hmem
        have hmore := ih (fun other hmem => hlast other (dropLast_tail hmem))
          hlater (Nat.le_of_succ_le_succ hrounds)
        rw [feedAll_cons rewrite hhere hlast, Message.behind, hopen]
        simp only [Bool.false_eq_true, if_false, hmore]
        rfl

theorem renderAll_length (messages : List (Message kind)) :
    messages.length ≤ (renderAll messages).length := by
  induction messages with
  | nil => exact Nat.le_refl 0
  | cons message messages ih =>
      have := message.render_pos
      simp only [renderAll, List.flatMap_cons, List.length_append,
        List.length_cons] at ih ⊢
      omega

theorem Message.rewritten_nonempty (rewrite : RewritePolicy)
    (message : Message kind) : message.rewritten rewrite ≠ [] := by
  simp [Message.rewritten, crlf]

theorem Message.behind_counters (rewrite : RewritePolicy)
    (message : Message kind) :
    (message.behind rewrite).bodyRemaining = 0 ∧
      (message.behind rewrite).chunkRemaining = 0 := by
  simp only [Message.behind]
  split <;> exact ⟨rfl, rfl⟩

/-- The stream is accepted: one feed for each message hands out its rewritten
header block, its body as it was sent and the endpoint it names, takes exactly
that message and the empty lines in front of it, and leaves no counter
behind. -/
def CutExactly (rewrite : RewritePolicy) (messages : List (Message kind)) :
    Prop :=
  HttpFraming.feedAll ((renderAll messages).length + 1)
      (HttpFraming.new kind rewrite) (renderAll messages) =
    .ok ([], messages.map fun message =>
      (message.behind rewrite, message.framed rewrite)) ∧
  ∀ message ∈ messages,
    (message.framed rewrite).header ≠ [] ∧
    (message.behind rewrite).bodyRemaining = 0 ∧
    (message.behind rewrite).chunkRemaining = 0

theorem not_cutExactly_overlong (rewrite : RewritePolicy)
    {messages : List (Message kind)}
    (hlast : ∀ message ∈ messages.dropLast, message.closeDelimited = false)
    (hlong : ∃ message ∈ messages, message.Overlong) :
    ¬ CutExactly rewrite messages := by
  rintro ⟨hfed, _⟩
  rw [feedAll_overlong rewrite hlast hlong
    (Nat.le_succ_of_le (renderAll_length messages))] at hfed
  cases hfed

/-- Every well-formed stream is accepted, but for one with a message that has
no body and a length for it that no `usize` holds. -/
theorem stream_cut_exactly_iff (kind : Kind) (rewrite : RewritePolicy)
    (messages : List (Message kind))
    (hlast : ∀ message ∈ messages.dropLast, message.closeDelimited = false) :
    CutExactly rewrite messages ↔
      ∀ message ∈ messages, ¬ message.Overlong := by
  constructor
  · intro hcut message hmem hlong
    exact not_cutExactly_overlong rewrite hlast ⟨message, hmem, hlong⟩ hcut
  · intro hfits
    have hrounds : messages.length ≤ (renderAll messages).length + 1 :=
      Nat.le_succ_of_le (renderAll_length messages)
    refine ⟨feedAll_messages rewrite messages hlast hfits hrounds, ?_⟩
    intro message _
    exact ⟨message.rewritten_nonempty rewrite,
      message.behind_counters rewrite⟩

def chunkedAnswer : Message .response where
  gap := 1
  startLine := ⟨ascii "HTTP/1.1 200 OK", by decide, by decide⟩
  fields :=
    [⟨ascii "Application-URL: http://10.0.0.2:8008/apps", by decide, by decide⟩,
      ⟨ascii "Transfer-Encoding: chunked", by decide, by decide⟩]
  body := .chunked
    { chunks :=
        [{ line := ⟨[], ascii "4", [0x20], ascii ";a=b", by decide, by decide,
            by decide, by decide, by decide, by decide⟩
           data := headerTerminator
           nonempty := by decide
           announced := by decide
           bounded := by decide }]
      last := ⟨[], ascii "0", [], [], by decide, by decide, by decide,
        by decide, by decide, by decide⟩
      trailers := [⟨ascii "Expires: 0", by decide, by decide⟩]
      final := by decide }
  supported := by decide
  bounded := by decide
  delimited := .chunked _ (by decide) (by decide) (by decide)

def closingAnswer : Message .response where
  gap := 2
  startLine := ⟨ascii "HTTP/1.1 200 OK", by decide, by decide⟩
  fields := []
  body := .untilClose (ascii "rest")
  supported := by decide
  bounded := by decide
  delimited := .response _ rfl (by decide) (by decide) (by decide)

theorem stream_cut_exactly_two :
    (∀ message ∈ [chunkedAnswer, closingAnswer].dropLast,
      message.closeDelimited = false) ∧
    CutExactly ⟨none, none, none⟩ [chunkedAnswer, closingAnswer] ∧
    chunkedAnswer.applicationUrl = some ⟨⟨[10, 0, 0, 2], rfl⟩, 8008⟩ := by
  have hlast : ∀ message ∈ [chunkedAnswer, closingAnswer].dropLast,
      message.closeDelimited = false := by
    intro message hmem
    rw [List.mem_singleton.mp hmem]
    rfl
  refine ⟨hlast, (stream_cut_exactly_iff .response ⟨none, none, none⟩
    [chunkedAnswer, closingAnswer] hlast).mpr ?_, by decide⟩
  intro message hmem hlong
  have hbody : hasBodylessStatus .response message.startLine = false := by
    rcases List.mem_cons.mp hmem with rfl | hmem
    · decide
    · rw [List.mem_singleton.mp hmem]
      decide
  rw [hlong.1] at hbody
  cases hbody

def notModified : Message .response where
  gap := 0
  startLine := ⟨ascii "HTTP/1.1 304 Not Modified", by decide, by decide⟩
  fields :=
    [⟨ascii "Content-Length: 18446744073709551616", by decide, by decide⟩]
  body := .none
  supported := by decide
  bounded := by decide
  delimited := .bodyless usizeLimit (by decide)
    (fun value hmem => ⟨[0x20], ascii "18446744073709551616", [],
      List.mem_singleton.mp hmem, by decide, by decide, by decide, by decide,
      by decide⟩) (.inr (by decide))

theorem notModified_refused :
    (∀ message ∈ [notModified].dropLast,
      message.closeDelimited = false) ∧
    ¬ CutExactly ⟨none, none, none⟩ [notModified] := by
  have hlast : ∀ message ∈ [notModified].dropLast,
      message.closeDelimited = false := by
    intro message hmem
    cases hmem
  exact ⟨hlast, not_cutExactly_overlong _ hlast
    ⟨notModified, List.mem_singleton_self _, by decide, _,
      List.mem_singleton_self _, by decide⟩⟩

end Netflector.Net.Http
