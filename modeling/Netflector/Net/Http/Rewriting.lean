import Netflector.Foundation.Decimal
import Netflector.Net.Http.Blocks

/-!
# Rewritten header blocks

What a rewrite changes of a header block, and that the text it puts in reads
back as the endpoint it stands for.
-/

namespace Netflector.Net.Http

open Netflector.Foundation

/-! ## The text of an endpoint -/

theorem parseOctet_decimal (octet : UInt8) :
    parseOctet (decimal octet.toNat) = some octet := by
  have hbound : octet.toNat < 256 := octet.toNat_lt
  have hlong : (decimal octet.toNat).length ≤ 3 :=
    decimal_length (Nat.lt_trans hbound (by decide))
  have hshort : 1 ≤ (decimal octet.toNat).length :=
    List.length_pos_iff.mpr (decimal_nonempty _)
  have hvalue : digitsValue 10 (decimal octet.toNat) ≤ 255 := by
    rw [digitsValue_decimal]
    omega
  rw [parseOctet, if_pos ⟨hshort, hlong, decimal_digits _, decimal_head _,
    hvalue⟩, digitsValue_decimal, UInt8.ofNat_toNat]

theorem digit_no_mark {octet : UInt8} {digits : Bytes}
    (hmark : isDigit 10 octet = false) (h : digits.all (isDigit 10) = true) :
    octet ∉ digits := by
  intro hmem
  rw [List.all_eq_true.mp h octet hmem] at hmark
  cases hmark

def addressText (ip : Ipv4Addr) : Bytes :=
  List.intercalate (ascii ".")
    (ip.octets.map fun octet => decimal octet.toNat)

theorem addressText_of {ip : Ipv4Addr} {first second third fourth : UInt8}
    (h : ip.octets = [first, second, third, fourth]) :
    addressText ip = decimal first.toNat ++ (0x2e ::
      (decimal second.toNat ++ (0x2e :: (decimal third.toNat ++
        (0x2e :: decimal fourth.toNat))))) := by
  rw [addressText, h]
  simp [List.intercalate, ascii]

theorem parseIpv4Addr_addressText (ip : Ipv4Addr) :
    parseIpv4Addr (addressText ip) = some ip := by
  obtain ⟨octets, hlength⟩ := ip
  obtain ⟨first, second, third, fourth, rfl⟩ :=
    List.length_eq_four.mp hlength
  have hdot : ∀ octet : UInt8, 0x2e ∉ decimal octet.toNat :=
    fun octet => digit_no_mark (by decide) (decimal_digits _)
  rw [addressText_of rfl, parseIpv4Addr, splitOn_word (hdot _),
    splitOn_word (hdot _), splitOn_word (hdot _), splitOn_last (hdot _)]
  simp [parseOctet_decimal]

theorem splitLastColon_port {host port : Bytes} (h : 0x3a ∉ port) :
    splitLastColon (host ++ (0x3a :: port)) = some (host, port) := by
  have hindex : (host ++ (0x3a :: port)).reverse.findIdx? (· == 0x3a) =
      some port.length := by
    have hnone : port.reverse.findIdx? (· == 0x3a) = none := by
      rw [List.findIdx?_eq_none_iff]
      intro octet hmem
      rw [beq_eq_false_iff_ne]
      rintro rfl
      exact h (List.mem_reverse.mp hmem)
    rw [List.reverse_append, List.reverse_cons, List.append_assoc,
      List.findIdx?_append, hnone]
    simp [List.findIdx?_cons]
  rw [splitLastColon, hindex]
  simp

theorem authorityText_eq (endpoint : SocketAddrV4) :
    authorityText endpoint =
      addressText endpoint.ip ++ (0x3a :: decimal endpoint.port.toNat) := by
  rw [authorityText, List.append_assoc]
  rfl

theorem parseEndpoint_authorityText {endpoint : SocketAddrV4}
    (hport : endpoint.port ≠ 0) :
    parseEndpoint (authorityText endpoint) = some endpoint := by
  have hbound : endpoint.port.toNat < 65536 := endpoint.port.toNat_lt
  have hcolon : 0x3a ∉ decimal endpoint.port.toNat :=
    digit_no_mark (by decide) (decimal_digits _)
  have hparse : parseUnsigned 10 65536 (decimal endpoint.port.toNat) =
      some endpoint.port.toNat := by
    rw [parseUnsigned_digits (decimal_nonempty _) (decimal_digits _),
      digitsValue_decimal, if_pos hbound]
  have hsome : endpoint.port.toNat ≠ 0 := by
    intro hzero
    exact hport (UInt16.toNat_inj.mp hzero)
  rw [authorityText_eq, parseEndpoint, splitLastColon_port hcolon]
  simp [hparse, hsome, parseIpv4Addr_addressText]

/-! ## Spans -/

theorem authorityText_plain (endpoint : SocketAddrV4) {octet : UInt8}
    (h : octet ∈ authorityText endpoint) :
    isDigit 10 octet = true ∨ octet = 0x2e ∨ octet = 0x3a := by
  have hdecimal : ∀ value : Nat, octet ∈ decimal value →
      isDigit 10 octet = true :=
    fun value hmem => List.all_eq_true.mp (decimal_digits value) octet hmem
  obtain ⟨first, second, third, fourth, hoctets⟩ :=
    List.length_eq_four.mp endpoint.ip.length_eq
  rw [authorityText_eq, addressText_of hoctets] at h
  simp only [List.mem_append, List.mem_cons] at h
  rcases h with (h | rfl | h | rfl | h | rfl | h) | rfl | h
  · exact .inl (hdecimal _ h)
  · exact .inr (.inl rfl)
  · exact .inl (hdecimal _ h)
  · exact .inr (.inl rfl)
  · exact .inl (hdecimal _ h)
  · exact .inr (.inl rfl)
  · exact .inl (hdecimal _ h)
  · exact .inr (.inr rfl)
  · exact .inl (hdecimal _ h)

theorem authorityText_head (endpoint : SocketAddrV4) : ∃ octet rest,
    authorityText endpoint = octet :: rest ∧ isDigit 10 octet = true := by
  obtain ⟨first, second, third, fourth, hoctets⟩ :=
    List.length_eq_four.mp endpoint.ip.length_eq
  rw [authorityText_eq, addressText_of hoctets]
  cases hdigits : decimal first.toNat with
  | nil => exact absurd hdigits (decimal_nonempty _)
  | cons octet digits =>
      have hall := decimal_digits first.toNat
      rw [hdigits] at hall
      exact ⟨octet, _, rfl, List.all_eq_true.mp hall _ List.mem_cons_self⟩

theorem isDigit_not_ends {octet : UInt8}
    (h : isDigit 10 octet = true ∨ octet = 0x2e ∨ octet = 0x3a) :
    endsAuthority octet = false := by
  rw [endsAuthority, decide_eq_false_iff_not]
  intro hmem
  have hdelimiters : ascii "/?# \t\r" =
      [0x2f, 0x3f, 0x23, 0x20, 0x09, 0x0d] := by decide
  rw [hdelimiters] at hmem
  simp only [List.mem_cons, List.not_mem_nil, or_false] at hmem
  rcases hmem with rfl | rfl | rfl | rfl | rfl | rfl <;>
    exact absurd h (by decide)

def Delimited (authority back : Bytes) : Prop :=
  (∀ octet ∈ authority, endsAuthority octet = false) ∧
    ∀ octet, back.head? = some octet → endsAuthority octet = true

theorem Delimited.cut {authority back : Bytes} (h : Delimited authority back) :
    ((authority ++ back).findIdx? endsAuthority).getD
      (authority ++ back).length = authority.length := by
  have hnone : authority.findIdx? endsAuthority = none :=
    List.findIdx?_eq_none_iff.mpr h.1
  rw [List.findIdx?_append, hnone, Option.none_or]
  cases back with
  | nil => simp
  | cons octet back => simp [List.findIdx?_cons, h.2 octet rfl]

theorem delimited_cut (rest : Bytes) :
    Delimited (rest.take ((rest.findIdx? endsAuthority).getD rest.length))
      (rest.drop ((rest.findIdx? endsAuthority).getD rest.length)) := by
  induction rest with
  | nil =>
      constructor
      · intro octet hmem
        cases hmem
      · intro octet hhead
        cases hhead
  | cons octet rest ih =>
      by_cases hends : endsAuthority octet = true
      · rw [List.findIdx?_cons, if_pos hends]
        constructor
        · intro other hmem
          cases hmem
        · intro other hhead
          cases hhead
          exact hends
      · have hcut : ((octet :: rest).findIdx? endsAuthority).getD
            (octet :: rest).length =
              (rest.findIdx? endsAuthority).getD rest.length + 1 := by
          rw [List.findIdx?_cons, if_neg hends]
          cases rest.findIdx? endsAuthority <;> simp
        rw [hcut, List.take_succ_cons, List.drop_succ_cons]
        constructor
        · intro other hmem
          rcases List.mem_cons.mp hmem with rfl | hlater
          · exact (Bool.not_eq_true _).mp hends
          · exact ih.1 other hlater
        · exact ih.2

def SchemeOf (bare : Bool) (scheme : Bytes) : Prop :=
  if bare then scheme = []
  else scheme.length = 7 ∧ eqIgnoreAsciiCase scheme (ascii "http://") = true

theorem stripPrefix_of_eq {front pattern : Bytes}
    (h : eqIgnoreAsciiCase front pattern = true)
    (hlength : front.length = pattern.length) (rest : Bytes) :
    stripPrefixIgnoreAsciiCase (front ++ rest) pattern = some rest := by
  rw [stripPrefixIgnoreAsciiCase, ← hlength, List.take_left, List.drop_left,
    if_pos ⟨by simp, h⟩]

theorem stripPrefix_some {line pattern value : Bytes}
    (h : stripPrefixIgnoreAsciiCase line pattern = some value) :
    ∃ front, line = front ++ value ∧ front.length = pattern.length ∧
      eqIgnoreAsciiCase front pattern = true := by
  rw [stripPrefixIgnoreAsciiCase] at h
  split at h
  next hmatch =>
    cases h
    exact ⟨line.take pattern.length, (List.take_append_drop _ _).symm,
      List.length_take_of_le hmatch.1, hmatch.2⟩
  · cases h

theorem parseAuthority_span {bare : Bool} {scheme authority back : Bytes}
    {endpoint : SocketAddrV4} (hscheme : SchemeOf bare scheme)
    (hback : Delimited authority back)
    (hparse : parseEndpoint authority = some endpoint) :
    parseAuthority (scheme ++ (authority ++ back)) bare =
      some ⟨endpoint, scheme.length, authority.length⟩ := by
  have hlength : (scheme ++ (authority ++ back)).length -
      (authority ++ back).length = scheme.length := by
    rw [List.length_append, Nat.add_sub_cancel]
  cases bare with
  | true =>
      have hnone : scheme = [] := hscheme
      subst hnone
      simp only [parseAuthority, if_true, Option.bind_eq_bind,
        Option.bind_some, List.nil_append, hback.cut, List.take_left, hparse,
        Nat.sub_self, List.length_nil]
  | false =>
      have hstrip : stripPrefixIgnoreAsciiCase
          (scheme ++ (authority ++ back)) (ascii "http://") =
            some (authority ++ back) :=
        stripPrefix_of_eq hscheme.2 hscheme.1 _
      simp only [parseAuthority, Bool.false_eq_true, if_false, hstrip,
        Option.bind_eq_bind, Option.bind_some, hback.cut, List.take_left,
        hparse, hlength]

theorem parseAuthority_some {bare : Bool} {value : Bytes} {found : Authority}
    (h : parseAuthority value bare = some found) :
    ∃ scheme authority back, value = scheme ++ (authority ++ back) ∧
      SchemeOf bare scheme ∧ Delimited authority back ∧
      parseEndpoint authority = some found.endpoint ∧
      found.offset = scheme.length ∧ found.len = authority.length := by
  have hrest : ∃ scheme rest endpoint, value = scheme ++ rest ∧
      SchemeOf bare scheme ∧
      parseEndpoint
        (rest.take ((rest.findIdx? endsAuthority).getD rest.length)) =
          some endpoint ∧
      found = ⟨endpoint, value.length - rest.length,
        (rest.findIdx? endsAuthority).getD rest.length⟩ := by
    cases bare with
    | true =>
        simp only [parseAuthority, if_true, Option.bind_eq_bind,
          Option.bind_some, Option.bind_eq_some_iff, Option.some.injEq] at h
        obtain ⟨endpoint, hparse, hfound⟩ := h
        exact ⟨[], value, endpoint, rfl, rfl, hparse, hfound.symm⟩
    | false =>
        simp only [parseAuthority, Bool.false_eq_true, if_false,
          Option.bind_eq_bind, Option.bind_eq_some_iff,
          Option.some.injEq] at h
        obtain ⟨rest, hstrip, endpoint, hparse, hfound⟩ := h
        obtain ⟨scheme, hvalue, hlength, hequal⟩ := stripPrefix_some hstrip
        exact ⟨scheme, rest, endpoint, hvalue, ⟨hlength, hequal⟩, hparse,
          hfound.symm⟩
  obtain ⟨scheme, rest, endpoint, rfl, hscheme, hparse, rfl⟩ := hrest
  have hbound : (rest.findIdx? endsAuthority).getD rest.length ≤
      rest.length := by
    cases hindex : rest.findIdx? endsAuthority with
    | none => exact Nat.le_refl _
    | some index =>
        exact Nat.le_of_lt (List.findIdx?_eq_some_iff_getElem.mp hindex).1
  refine ⟨scheme, _, _, ?_, hscheme, delimited_cut rest, hparse, ?_, ?_⟩
  · rw [List.take_append_drop]
  · simp
  · exact (List.length_take_of_le hbound).symm

/-! ## Authority headers -/

inductive AuthorityName : Kind → Bytes → Bool →
    (SocketAddrV4 → AuthorityHeader) → Prop where
  | host : AuthorityName .request (ascii "Host:") true .host
  | applicationUrl :
      AuthorityName .response (ascii "Application-URL:") false .applicationUrl
  | location : AuthorityName .response (ascii "Location:") false .location

structure AuthorityAt (kind : Kind) (text : Bytes) (start len : Nat)
    (header : AuthorityHeader) : Prop where
  accepted : ∃ name bare wrap value found, AuthorityName kind name bare wrap ∧
    stripPrefixIgnoreAsciiCase text name = some value ∧
    parseAuthority (trimAsciiStart value) bare = some found ∧
    start = text.length - (trimAsciiStart value).length + found.offset ∧
    len = found.len ∧ header = wrap found.endpoint

theorem rewritableAuthority_name {kind : Kind} {name text value : Bytes}
    {bare : Bool} {wrap : SocketAddrV4 → AuthorityHeader}
    (hname : AuthorityName kind name bare wrap)
    (hstrip : stripPrefixIgnoreAsciiCase text name = some value) :
    rewritableAuthority text kind =
      (parseAuthority (trimAsciiStart value) bare).map fun found =>
        (text.length - (trimAsciiStart value).length, found,
          wrap found.endpoint) := by
  cases hname with
  | host =>
      simp only [rewritableAuthority, hstrip]
      cases h : parseAuthority (trimAsciiStart value) true <;> simp [h]
  | applicationUrl =>
      simp only [rewritableAuthority, hstrip]
      cases h : parseAuthority (trimAsciiStart value) false <;> simp [h]
  | location =>
      have hother : stripPrefixIgnoreAsciiCase text
          (ascii "Application-URL:") = none :=
        stripPrefix_apart hstrip (by decide)
      simp only [rewritableAuthority, hstrip, hother]
      cases h : parseAuthority (trimAsciiStart value) false <;> simp [h]

theorem rewritableAuthority_named {kind : Kind} {text : Bytes}
    {result : Nat × Authority × AuthorityHeader}
    (h : rewritableAuthority text kind = some result) :
    ∃ name bare wrap value, AuthorityName kind name bare wrap ∧
      stripPrefixIgnoreAsciiCase text name = some value := by
  cases kind with
  | request =>
      cases hhost : stripPrefixIgnoreAsciiCase text (ascii "Host:") with
      | some value => exact ⟨_, _, _, value, .host, hhost⟩
      | none =>
          simp only [rewritableAuthority, hhost] at h
          cases h
  | response =>
      cases hurl : stripPrefixIgnoreAsciiCase text
          (ascii "Application-URL:") with
      | some value => exact ⟨_, _, _, value, .applicationUrl, hurl⟩
      | none =>
          cases hlocation : stripPrefixIgnoreAsciiCase text
              (ascii "Location:") with
          | some value => exact ⟨_, _, _, value, .location, hlocation⟩
          | none =>
              simp only [rewritableAuthority, hurl, hlocation] at h
              cases h

theorem authorityAt_iff {kind : Kind} {text : Bytes} {start len : Nat}
    {header : AuthorityHeader} :
    AuthorityAt kind text start len header ↔ ∃ offset found,
      rewritableAuthority text kind = some (offset, found, header) ∧
        start = offset + found.offset ∧ len = found.len := by
  constructor
  · rintro ⟨name, bare, wrap, value, found, hname, hstrip, hparse, hstart,
      hlen, hheader⟩
    refine ⟨_, found, ?_, hstart, hlen⟩
    rw [rewritableAuthority_name hname hstrip, hparse, hheader]
    rfl
  · rintro ⟨offset, found, h, hstart, hlen⟩
    obtain ⟨name, bare, wrap, value, hname, hstrip⟩ :=
      rewritableAuthority_named h
    rw [rewritableAuthority_name hname hstrip, Option.map_eq_some_iff] at h
    obtain ⟨_, hparse, heq⟩ := h
    cases heq
    exact ⟨name, bare, wrap, value, found, hname, hstrip, hparse, hstart,
      hlen, rfl⟩

structure AuthorityParts (kind : Kind) where
  pattern : Bytes
  bare : Bool
  wrap : SocketAddrV4 → AuthorityHeader
  name : Bytes
  blanks : Bytes
  scheme : Bytes
  authority : Bytes
  back : Bytes
  endpoint : SocketAddrV4
  known : AuthorityName kind pattern bare wrap
  measured : name.length = pattern.length
  named : eqIgnoreAsciiCase name pattern = true
  blank : ∀ octet ∈ blanks, isAsciiWhitespace octet = true
  schemed : SchemeOf bare scheme
  starts : ∀ octet, (scheme ++ (authority ++ back)).head? = some octet →
    isAsciiWhitespace octet = false
  delimited : Delimited authority back
  parsed : parseEndpoint authority = some endpoint

def AuthorityParts.front (parts : AuthorityParts kind) : Bytes :=
  parts.name ++ (parts.blanks ++ parts.scheme)

def AuthorityParts.text (parts : AuthorityParts kind) : Bytes :=
  parts.front ++ (parts.authority ++ parts.back)

theorem trimAsciiStart_blanks {blanks rest : Bytes}
    (hblank : ∀ octet ∈ blanks, isAsciiWhitespace octet = true)
    (hrest : ∀ octet, rest.head? = some octet →
      isAsciiWhitespace octet = false) :
    trimAsciiStart (blanks ++ rest) = rest := by
  rw [trimAsciiStart, List.dropWhile_append_of_pos hblank]
  cases rest with
  | nil => rfl
  | cons octet rest =>
      rw [List.dropWhile_cons_of_neg]
      simp [hrest octet rfl]

theorem AuthorityParts.authorityAt (parts : AuthorityParts kind) :
    AuthorityAt kind parts.text parts.front.length parts.authority.length
      (parts.wrap parts.endpoint) := by
  have htext : parts.text = parts.name ++ (parts.blanks ++
      (parts.scheme ++ (parts.authority ++ parts.back))) := by
    simp [AuthorityParts.text, AuthorityParts.front]
  have htrim : trimAsciiStart (parts.blanks ++
      (parts.scheme ++ (parts.authority ++ parts.back))) =
        parts.scheme ++ (parts.authority ++ parts.back) :=
    trimAsciiStart_blanks parts.blank parts.starts
  refine ⟨parts.pattern, parts.bare, parts.wrap, parts.blanks ++
    (parts.scheme ++ (parts.authority ++ parts.back)),
    ⟨parts.endpoint, parts.scheme.length, parts.authority.length⟩,
    parts.known, ?_, ?_, ?_, rfl, rfl⟩
  · rw [htext]
    exact stripPrefix_of_eq parts.named parts.measured _
  · rw [htrim]
    exact parseAuthority_span parts.schemed parts.delimited parts.parsed
  · rw [htrim, htext]
    simp only [AuthorityParts.front, List.length_append]
    omega

theorem AuthorityAt.parts {kind : Kind} {text : Bytes} {start len : Nat}
    {header : AuthorityHeader} (h : AuthorityAt kind text start len header) :
    ∃ parts : AuthorityParts kind, text = parts.text ∧
      start = parts.front.length ∧ len = parts.authority.length ∧
      header = parts.wrap parts.endpoint := by
  obtain ⟨pattern, bare, wrap, value, found, hknown, hstrip, hparse, hstart,
    hlen, hheader⟩ := h
  obtain ⟨name, rfl, hmeasured, hnamed⟩ := stripPrefix_some hstrip
  obtain ⟨scheme, authority, back, htrim, hscheme, hdelimited, hparsed,
    hoffset, hlength⟩ := parseAuthority_some hparse
  have hvalue : value = value.takeWhile isAsciiWhitespace ++
      (scheme ++ (authority ++ back)) := by
    rw [← htrim, trimAsciiStart, List.takeWhile_append_dropWhile]
  have hstarts : ∀ octet, (scheme ++ (authority ++ back)).head? =
      some octet → isAsciiWhitespace octet = false := by
    intro octet hhead
    rw [← htrim] at hhead
    have hstop := List.head?_dropWhile_not isAsciiWhitespace value
    rw [trimAsciiStart] at hhead
    rw [hhead] at hstop
    simpa using hstop
  refine ⟨⟨pattern, bare, wrap, name, value.takeWhile isAsciiWhitespace,
    scheme, authority, back, found.endpoint, hknown, hmeasured, hnamed,
    List.all_eq_true.mp List.all_takeWhile, hscheme, hstarts, hdelimited,
    hparsed⟩, ?_, ?_, hlen.trans hlength, hheader⟩
  · simp only [AuthorityParts.text, AuthorityParts.front]
    nth_rewrite 1 [hvalue]
    simp
  · rw [hstart, hoffset, htrim]
    simp only [AuthorityParts.front, List.length_append]
    have hlengths := congrArg List.length hvalue
    simp only [List.length_append] at hlengths
    omega

/-! ## Replaced lines -/

def AuthorityHeader.retarget (target : SocketAddrV4) :
    AuthorityHeader → AuthorityHeader
  | .host _ => .host target
  | .applicationUrl _ => .applicationUrl target
  | .location _ => .location target

theorem AuthorityName.retarget {kind : Kind} {name : Bytes} {bare : Bool}
    {wrap : SocketAddrV4 → AuthorityHeader}
    (h : AuthorityName kind name bare wrap) (endpoint target : SocketAddrV4) :
    (wrap endpoint).retarget target = wrap target := by
  cases h <;> rfl

theorem target_retarget (rewrite : RewritePolicy) (target : SocketAddrV4)
    (header : AuthorityHeader) :
    rewrite.target (header.retarget target) = rewrite.target header := by
  cases header <;> rfl

def replaceSpan (text : Bytes) (start len : Nat) (target : SocketAddrV4) :
    Bytes :=
  text.take start ++ authorityText target ++ text.drop (start + len)

theorem AuthorityParts.replaceSpan_text (parts : AuthorityParts kind)
    (target : SocketAddrV4) :
    replaceSpan parts.text parts.front.length parts.authority.length target =
      parts.front ++ (authorityText target ++ parts.back) := by
  rw [replaceSpan, AuthorityParts.text, List.take_left, List.append_assoc,
    ← List.drop_drop, List.drop_left, List.drop_left]

def AuthorityParts.retarget (parts : AuthorityParts kind)
    (target : SocketAddrV4) (hport : target.port ≠ 0) :
    AuthorityParts kind where
  pattern := parts.pattern
  bare := parts.bare
  wrap := parts.wrap
  name := parts.name
  blanks := parts.blanks
  scheme := parts.scheme
  authority := authorityText target
  back := parts.back
  endpoint := target
  known := parts.known
  measured := parts.measured
  named := parts.named
  blank := parts.blank
  schemed := parts.schemed
  starts := by
    intro octet hhead
    cases hscheme : parts.scheme with
    | nil =>
        obtain ⟨first, rest, htext, hdigit⟩ := authorityText_head target
        rw [hscheme, htext] at hhead
        cases hhead
        exact (digit_plain (isDigit_isSome hdigit)).1
    | cons first rest =>
        apply parts.starts octet
        rw [hscheme] at hhead ⊢
        exact hhead
  delimited := by
    constructor
    · intro octet hmem
      exact isDigit_not_ends (authorityText_plain target hmem)
    · exact parts.delimited.2
  parsed := parseEndpoint_authorityText hport

theorem AuthorityAt.replaced {kind : Kind} {text : Bytes} {start len : Nat}
    {header : AuthorityHeader} (h : AuthorityAt kind text start len header)
    {target : SocketAddrV4} (hport : target.port ≠ 0) :
    AuthorityAt kind (replaceSpan text start len target) start
      (authorityText target).length (header.retarget target) := by
  obtain ⟨parts, rfl, rfl, rfl, rfl⟩ := h.parts
  rw [parts.replaceSpan_text, parts.known.retarget]
  exact (parts.retarget target hport).authorityAt

inductive Emitted (kind : Kind) (rewrite : RewritePolicy) (text : Bytes) :
    Bytes → Prop where
  | replaced {start len : Nat} {header : AuthorityHeader}
      {target : SocketAddrV4} (hat : AuthorityAt kind text start len header)
      (htarget : rewrite.target header = some target) :
      Emitted kind rewrite text (replaceSpan text start len target)
  | copied (hnone : ∀ start len header,
      AuthorityAt kind text start len header → rewrite.target header = none) :
      Emitted kind rewrite text text

theorem rewriteLine_emitted (kind : Kind) (rewrite : RewritePolicy)
    (text : Bytes) : Emitted kind rewrite text (rewriteLine kind rewrite text) := by
  cases hauthority : rewritableAuthority text kind with
  | none =>
      rw [rewriteLine_of_none hauthority]
      refine .copied fun start len header hat => ?_
      obtain ⟨offset, found, hsome, _, _⟩ := authorityAt_iff.mp hat
      rw [hauthority] at hsome
      cases hsome
  | some result =>
      obtain ⟨offset, found, header⟩ := result
      have hat : AuthorityAt kind text (offset + found.offset) found.len
          header := authorityAt_iff.mpr ⟨offset, found, hauthority, rfl, rfl⟩
      cases htarget : rewrite.target header with
      | some target =>
          have heq : rewriteLine kind rewrite text =
              replaceSpan text (offset + found.offset) found.len target := by
            simp only [rewriteLine, hauthority, htarget]
            rfl
          rw [heq]
          exact .replaced hat htarget
      | none =>
          have heq : rewriteLine kind rewrite text = text := by
            simp only [rewriteLine, hauthority, htarget]
          rw [heq]
          refine .copied fun start len header' hat' => ?_
          obtain ⟨_, _, hsome, _, _⟩ := authorityAt_iff.mp hat'
          rw [hauthority] at hsome
          cases hsome
          exact htarget

theorem AuthorityAt.rewriteLine_eq {kind : Kind} {text : Bytes}
    {start len : Nat} {header : AuthorityHeader}
    (h : AuthorityAt kind text start len header) {rewrite : RewritePolicy}
    {target : SocketAddrV4} (htarget : rewrite.target header = some target) :
    rewriteLine kind rewrite text = replaceSpan text start len target := by
  obtain ⟨offset, found, hauthority, rfl, rfl⟩ := authorityAt_iff.mp h
  simp only [rewriteLine, hauthority, htarget]
  rfl

theorem AuthorityAt.framing {kind : Kind} {text : Bytes} {start len : Nat}
    {header : AuthorityHeader} (h : AuthorityAt kind text start len header) :
    stripPrefixIgnoreAsciiCase text (ascii "Content-Length:") = none ∧
      stripPrefixIgnoreAsciiCase text (ascii "Transfer-Encoding:") = none := by
  obtain ⟨offset, found, hauthority, _, _⟩ := authorityAt_iff.mp h
  constructor
  · cases hstrip : stripPrefixIgnoreAsciiCase text
        (ascii "Content-Length:") with
    | none => rfl
    | some value =>
        rw [rewritableAuthority_framing kind hstrip (by decide)] at hauthority
        cases hauthority
  · cases hstrip : stripPrefixIgnoreAsciiCase text
        (ascii "Transfer-Encoding:") with
    | none => rfl
    | some value =>
        rw [rewritableAuthority_framing kind hstrip (by decide)] at hauthority
        cases hauthority

def RewritePolicy.Ported (rewrite : RewritePolicy) : Prop :=
  ∀ header target, rewrite.target header = some target → target.port ≠ 0

theorem rewriteLine_idem {rewrite : RewritePolicy} (hported : rewrite.Ported)
    (kind : Kind) (text : Bytes) :
    rewriteLine kind rewrite (rewriteLine kind rewrite text) =
      rewriteLine kind rewrite text := by
  have hemitted := rewriteLine_emitted kind rewrite text
  generalize hline : rewriteLine kind rewrite text = line at hemitted
  cases hemitted with
  | copied hnone => exact hline
  | @replaced start len header target hat htarget =>
      have hagain := hat.replaced (hported header target htarget)
      rw [hagain.rewriteLine_eq
        ((target_retarget rewrite target header).trans htarget)]
      obtain ⟨parts, rfl, rfl, rfl, rfl⟩ := hat.parts
      rw [parts.replaceSpan_text]
      exact (parts.retarget target
        (hported _ target htarget)).replaceSpan_text target

theorem findCrlf_front {front back : Bytes}
    (h : findCrlf (front ++ back) = none) : findCrlf front = none := by
  cases hfront : findCrlf front with
  | none => rfl
  | some position =>
      have hlater : findCrlf (front ++ back) = some position :=
        findSubslice_append hfront back
      rw [h] at hlater
      cases hlater

theorem findCrlf_cons {octet : UInt8} {rest : Bytes}
    (h : findCrlf (octet :: rest) = none) : findCrlf rest = none := by
  rw [findCrlf, findSubslice] at h
  split at h
  · cases h
  · exact Option.map_eq_none_iff.mp h

theorem findCrlf_back {front back : Bytes}
    (h : findCrlf (front ++ back) = none) : findCrlf back = none := by
  induction front with
  | nil => exact h
  | cons octet front ih => exact ih (findCrlf_cons h)

/-- Two texts put together break only where the second starts with a line
feed. -/
theorem findCrlf_join {front back : Bytes} (hfront : findCrlf front = none)
    (hback : findCrlf back = none) (hhead : back.head? ≠ some 0x0a) :
    findCrlf (front ++ back) = none := by
  induction front with
  | nil => exact hback
  | cons octet front ih =>
      have hrest := ih (findCrlf_cons hfront)
      have hnot : ¬ crlf.isPrefixOf (octet :: (front ++ back)) = true := by
        cases front with
        | nil =>
            cases back with
            | nil => simp [crlf, List.isPrefixOf]
            | cons next back =>
                intro hprefix
                simp only [crlf, List.nil_append, List.isPrefixOf,
                  Bool.and_eq_true, beq_iff_eq] at hprefix
                exact hhead (by rw [← hprefix.2.1]; rfl)
        | cons next front =>
            intro hprefix
            rw [findCrlf, findSubslice, if_pos] at hfront
            · cases hfront
            · simpa [crlf, List.isPrefixOf] using hprefix
      rw [List.cons_append, findCrlf, findSubslice, if_neg hnot]
      exact Option.map_eq_none_iff.mpr hrest

theorem rewriteLine_unbroken (kind : Kind) (rewrite : RewritePolicy)
    {text : Bytes} (h : findCrlf text = none) :
    findCrlf (rewriteLine kind rewrite text) = none := by
  have hemitted := rewriteLine_emitted kind rewrite text
  generalize rewriteLine kind rewrite text = line at hemitted
  cases hemitted with
  | copied hnone => exact h
  | @replaced start len header target hat htarget =>
      obtain ⟨parts, rfl, rfl, rfl, rfl⟩ := hat.parts
      rw [parts.replaceSpan_text]
      have hplain : ∀ octet ∈ authorityText target,
          octet ≠ 0x0a ∧ octet ≠ 0x0d := by
        intro octet hmem
        rcases authorityText_plain target hmem with hdigit | rfl | rfl
        · constructor <;> rintro rfl <;> exact absurd hdigit (by decide)
        · decide
        · decide
      have hback : findCrlf parts.back = none :=
        findCrlf_back (findCrlf_back h)
      apply findCrlf_join (findCrlf_front h)
      · apply findCrlf_join _ hback
        · intro hhead
          exact absurd (parts.delimited.2 _ hhead) (by decide)
        · apply no_crlf_of_no_cr
          intro hmem
          exact (hplain _ hmem).2 rfl
      · obtain ⟨first, rest, htext, _⟩ := authorityText_head target
        intro hhead
        rw [htext] at hhead
        exact (hplain _ (List.mem_of_head? (htext ▸ hhead))).1 rfl

/-! ## A second scan -/

structure HeaderScan.Alike (scan other : HeaderScan) : Prop where
  contentLength : other.contentLength = scan.contentLength
  chunked : other.chunked = scan.chunked
  status : other.status = scan.status
  first : other.first = scan.first

theorem HeaderScan.Alike.line {kind : Kind} {rewrite : RewritePolicy}
    {text : Bytes} {scan other after : HeaderScan} (halike : scan.Alike other)
    (hfirst : scan.first = false) (h : scan.line kind rewrite text = .ok after) :
    ∃ after', other.line kind rewrite text = .ok after' ∧
      after.Alike after' := by
  have hother : other.first = false := halike.first.trans hfirst
  cases hlength : stripPrefixIgnoreAsciiCase text (ascii "Content-Length:") with
  | some value =>
      simp only [HeaderScan.line, hfirst, hother, Bool.false_eq_true, if_false,
        HeaderScan.inspectAndEmit, hlength, halike.contentLength] at h ⊢
      obtain ⟨⟨scan', header⟩, hscan, hsame⟩ := except_bind_ok h
      obtain ⟨length, hparse, hemit⟩ := except_bind_ok hscan
      split at hemit
      · cases hemit
      next hagrees =>
        cases hemit
        cases hsame
        simp only [hparse, bind, Except.bind, if_neg hagrees]
        exact ⟨_, rfl, rfl, halike.chunked, halike.status, rfl⟩
  | none =>
      cases hencoding : stripPrefixIgnoreAsciiCase text
          (ascii "Transfer-Encoding:") with
      | some value =>
          simp only [HeaderScan.line, hfirst, hother, Bool.false_eq_true,
            if_false, HeaderScan.inspectAndEmit, hlength, hencoding,
            halike.chunked] at h ⊢
          cases h
          exact ⟨_, rfl, halike.contentLength, rfl, halike.status, rfl⟩
      | none =>
          rw [HeaderScan.line_plain rewrite hfirst hlength hencoding] at h
          cases h
          exact ⟨_, HeaderScan.line_plain rewrite hother hlength hencoding,
            halike.contentLength, halike.chunked, halike.status, halike.first⟩

theorem HeaderScan.Alike.rewritten {kind : Kind} {rewrite : RewritePolicy}
    (hported : rewrite.Ported) {text : Bytes} {scan other after : HeaderScan}
    (halike : scan.Alike other) (hfirst : scan.first = false)
    (h : scan.line kind rewrite text = .ok after) :
    ∃ after', other.line kind rewrite (rewriteLine kind rewrite text) =
      .ok after' ∧ after.Alike after' := by
  have hemitted := rewriteLine_emitted kind rewrite text
  generalize rewriteLine kind rewrite text = line at hemitted
  cases hemitted with
  | copied hnone => exact halike.line hfirst h
  | @replaced start len header target hat htarget =>
      have hother : other.first = false := halike.first.trans hfirst
      have hagain := hat.replaced (hported header target htarget)
      rw [HeaderScan.line_plain rewrite hfirst hat.framing.1
        hat.framing.2] at h
      cases h
      exact ⟨_, HeaderScan.line_plain rewrite hother hagain.framing.1
        hagain.framing.2, halike.contentLength, halike.chunked, halike.status,
        halike.first⟩

theorem HeaderScan.Alike.foldLines {kind : Kind} {rewrite : RewritePolicy}
    (hported : rewrite.Ported) {texts : List Bytes}
    {scan other after : HeaderScan} (halike : scan.Alike other)
    (hfirst : scan.first = false)
    (h : HeaderScan.foldLines kind rewrite texts scan = .ok after) :
    ∃ after', HeaderScan.foldLines kind rewrite
      (texts.map (rewriteLine kind rewrite)) other = .ok after' ∧
        after.Alike after' := by
  induction texts generalizing scan other with
  | nil =>
      cases h
      exact ⟨other, rfl, halike⟩
  | cons text texts ih =>
      obtain ⟨next, hline, hrest⟩ := except_bind_ok h
      obtain ⟨next', hline', halike'⟩ := halike.rewritten hported hfirst hline
      obtain ⟨after', hrest', hafter⟩ :=
        ih halike' (HeaderScan.line_passed hfirst hline).first hrest
      refine ⟨after', ?_, hafter⟩
      rw [List.map_cons, HeaderScan.foldLines, hline']
      exact hrest'

/-! ## Blocks -/

theorem split_joinLines {block : Bytes} (h : crlf <:+ block) :
    ∃ start texts, block = joinLines (start :: texts) ∧
      Unbroken (start :: texts) := by
  induction hlength : block.length using Nat.strongRecOn
    generalizing block with
  | ind length ih =>
    obtain ⟨front, hfront⟩ := h
    cases hstop : findCrlf block with
    | none =>
        rw [← hfront] at hstop
        exact absurd (findCrlf_back hstop) (by decide)
    | some stop =>
        obtain ⟨hunbroken, hsplit⟩ := findCrlf_take hstop
        generalize block.take stop = text at hunbroken hsplit
        generalize block.drop (stop + crlf.length) = rest at hsplit
        by_cases hrest : rest = []
        · refine ⟨text, [], ?_, ?_⟩
          · rw [hsplit, hrest, joinLines_cons]
            rfl
          · intro line hmem
            rw [List.mem_singleton.mp hmem]
            exact hunbroken
        · have hlast : crlf <:+ 0x0a :: rest := by
            apply List.suffix_of_suffix_length_le ⟨front, hfront⟩
            · exact ⟨text ++ [0x0d], by rw [hsplit]; simp [crlf]⟩
            · have := List.length_pos_iff.mpr hrest
              simp only [crlf, List.length_cons, List.length_nil]
              omega
          rcases List.suffix_cons_iff.mp hlast with heq | hsuffix
          · exact absurd (List.cons.inj heq).1 (by decide)
          · have hless : rest.length < length := by
              rw [← hlength, hsplit]
              simp only [crlf, List.length_append, List.length_cons,
                List.length_nil]
              omega
            obtain ⟨start, texts, hjoin, hlater⟩ := ih _ hless hsuffix rfl
            refine ⟨text, start :: texts, ?_, ?_⟩
            · rw [hsplit, hjoin, ← joinLines_cons]
            · intro line hmem
              rcases List.mem_cons.mp hmem with rfl | hmem
              · exact hunbroken
              · exact hlater line hmem

structure Rewritten (framer framer' : HttpFraming) (block header : Bytes)
    (url : Option SocketAddrV4) (start : Bytes) (texts emitted : List Bytes) :
    Prop where
  read : block = joinLines (start :: texts)
  unbroken : Unbroken (start :: texts)
  written : header = joinLines (start :: emitted)
  emits : List.Forall₂ (Emitted framer.kind framer.rewrite) texts emitted
  retargets : ∀ text ∈ texts, ∀ start len header target,
    AuthorityAt framer.kind text start len header →
      framer.rewrite.target header = some target →
      AuthorityAt framer.kind (replaceSpan text start len target) start
        (authorityText target).length (header.retarget target)
  applicationUrl : url = if framer.kind = .request then none
    else texts.findSome? applicationUrlOf
  again : ∀ other : HttpFraming, other.kind = framer.kind →
    other.rewrite = framer.rewrite → ∃ url',
      other.scanAndRewriteHeader header = .ok (framer', header, url')

theorem setBodyPhase_congr {framer other : HttpFraming}
    (hkind : other.kind = framer.kind)
    (hrewrite : other.rewrite = framer.rewrite) (status : Nat)
    (contentLength : Option Nat) (chunked : Bool) :
    other.setBodyPhase status contentLength chunked =
      framer.setBodyPhase status contentLength chunked := by
  simp only [HttpFraming.setBodyPhase, hkind, hrewrite]

theorem forall₂_map {α β : Type} {relation : α → β → Prop} (f : α → β)
    (h : ∀ item, relation item (f item)) (items : List α) :
    List.Forall₂ relation items (items.map f) := by
  induction items with
  | nil => exact .nil
  | cons item items ih => exact .cons (h item) ih

theorem findSome_dialedBy (kind : Kind) (texts : List Bytes) :
    texts.findSome? (dialedBy kind) =
      if kind = .request then none else texts.findSome? applicationUrlOf := by
  cases kind with
  | request => simp [dialedBy]
  | response => rfl

/-- The emitted header is the block with the authorities replaced; it reads
back as the targets and a second scan leaves it as it is. -/
theorem header_rewritten {framer framer' : HttpFraming}
    {block header : Bytes} {url : Option SocketAddrV4}
    (hported : framer.rewrite.Ported) (hcomplete : headerTerminator <:+ block)
    (h : framer.scanAndRewriteHeader block = .ok (framer', header, url)) :
    ∃ start texts emitted,
      Rewritten framer framer' block header url start texts emitted := by
  have hlast : crlf <:+ headerTerminator := ⟨crlf, rfl⟩
  have hends : crlf <:+ block := hlast.trans hcomplete
  obtain ⟨start, texts, rfl, hunbroken⟩ := split_joinLines hends
  rw [scanAndRewriteHeader_joinLines framer hunbroken] at h
  obtain ⟨scan, hfold, hset⟩ := except_bind_ok h
  obtain ⟨begun, hline, hrest⟩ := except_bind_ok hfold
  rw [HeaderScan.line_start hline] at hrest
  have hfolded := HeaderScan.foldLines_folded rfl hrest
  split at hset
  · cases hset
  next halone =>
    cases hset
    have hheader : scan.header = joinLines
        (start :: texts.map (rewriteLine framer.kind framer.rewrite)) := by
      rw [hfolded.header, joinLines_cons, ← List.append_assoc]
      rfl
    refine ⟨start, texts, texts.map (rewriteLine framer.kind framer.rewrite),
      rfl, hunbroken, hheader, forall₂_map _ (rewriteLine_emitted _ _) texts,
      ?_, ?_, ?_⟩
    · intro text _ start len header target hat htarget
      exact hat.replaced (hported header target htarget)
    · rw [hfolded.applicationUrl, findSome_dialedBy]
      rfl
    · intro other hkind hrewrite
      have hsame : (HeaderScan.started framer.kind start).Alike
          (HeaderScan.started framer.kind start) := ⟨rfl, rfl, rfl, rfl⟩
      obtain ⟨scan', hrest', halike⟩ := hsame.foldLines hported rfl hrest
      have hfolded' := HeaderScan.foldLines_folded rfl hrest'
      have hheader' : scan'.header = scan.header := by
        rw [hfolded'.header, hfolded.header, List.map_map]
        congr 2
        exact List.map_congr_left fun text _ => rewriteLine_idem hported _ _
      have hunbroken' : Unbroken (start :: texts.map
          (rewriteLine framer.kind framer.rewrite)) := by
        intro text hmem
        rcases List.mem_cons.mp hmem with rfl | hmem
        · exact hunbroken text List.mem_cons_self
        · obtain ⟨text, htext, rfl⟩ := List.mem_map.mp hmem
          exact rewriteLine_unbroken _ _
            (hunbroken text (List.mem_cons_of_mem _ htext))
      have hfold' : HeaderScan.foldLines framer.kind framer.rewrite
          (start :: texts.map (rewriteLine framer.kind framer.rewrite))
          .start = .ok scan' := by
        rw [HeaderScan.foldLines, hline, HeaderScan.line_start hline]
        exact hrest'
      refine ⟨scan'.applicationUrl, ?_⟩
      rw [hheader, scanAndRewriteHeader_joinLines other hunbroken', hkind,
        hrewrite, hfold', ← hheader]
      simp only [Except.bind, halike.contentLength, halike.chunked,
        halike.status, hheader', if_neg halone,
        setBodyPhase_congr hkind hrewrite]

def proxyPolicy : RewritePolicy :=
  ⟨none, some ⟨⟨[192, 168, 1, 2], rfl⟩, 4096⟩, none⟩

def appResponse : Bytes :=
  ascii "HTTP/1.1 200 OK\r\nApplication-URL: http://10.0.0.7/apps\r\n\r\n"

def appRewritten : Bytes :=
  ascii "HTTP/1.1 200 OK\r\n" ++
    ascii "Application-URL: http://192.168.1.2:4096/apps\r\n\r\n"

theorem header_rewritten_app : proxyPolicy.Ported ∧
    headerTerminator <:+ appResponse ∧
    ∃ start texts emitted,
      Rewritten ⟨.response, proxyPolicy, .header, 0, 0⟩
        ⟨.response, proxyPolicy, .bodyCloseDelimited, 0, 0⟩ appResponse
        appRewritten (some ⟨⟨[10, 0, 0, 7], rfl⟩, 80⟩) start texts emitted := by
  have hported : proxyPolicy.Ported := by
    intro header target htarget
    cases header <;> cases htarget
    decide
  have hcomplete : headerTerminator <:+ appResponse :=
    List.isSuffixOf_iff_suffix.mp (by decide)
  exact ⟨hported, hcomplete, header_rewritten hported hcomplete (by decide)⟩

end Netflector.Net.Http
