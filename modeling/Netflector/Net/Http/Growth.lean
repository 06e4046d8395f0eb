import Netflector.Net.Http.Rewriting
import Netflector.Net.Http.Segmentation

/-!
# How much the framer hands out

A rewritten line is at most twice as long as the line it replaces, so a feed
hands out at most twice what it takes, and what it leaves is bounded by the
phase it waits in.
-/

namespace Netflector.Net.Http

open Netflector.Foundation

/-! ## Lines -/

theorem parseOctet_length {text : Bytes} {octet : UInt8}
    (h : parseOctet text = some octet) : 1 ≤ text.length := by
  rw [parseOctet] at h
  split at h
  next hshape => exact hshape.1
  · cases h

theorem parseIpv4Addr_length {text : Bytes} {ip : Ipv4Addr}
    (h : parseIpv4Addr text = some ip) : 7 ≤ text.length := by
  have hjoin := intercalate_splitOn 0x2e text
  rw [parseIpv4Addr] at h
  split at h
  next first second third fourth hpieces =>
    simp only [Option.bind_eq_bind, Option.bind_eq_some_iff] at h
    obtain ⟨_, hfirst, _, hsecond, _, hthird, _, hfourth, _⟩ := h
    have hone := parseOctet_length hfirst
    have htwo := parseOctet_length hsecond
    have hthree := parseOctet_length hthird
    have hfour := parseOctet_length hfourth
    rw [hpieces] at hjoin
    rw [← hjoin]
    simp only [List.intercalate_cons_cons, List.intercalate_singleton,
      List.length_append, List.length_singleton]
    omega
  · cases h

theorem parseEndpoint_length {authority : Bytes} {endpoint : SocketAddrV4}
    (h : parseEndpoint authority = some endpoint) : 7 ≤ authority.length := by
  rw [parseEndpoint] at h
  split at h
  · simp only [Option.bind_eq_bind, Option.bind_eq_some_iff] at h
    obtain ⟨ip, hip, _⟩ := h
    exact parseIpv4Addr_length hip
  next host port hsplit =>
    simp only [Option.bind_eq_bind, Option.bind_eq_some_iff] at h
    obtain ⟨_, _, h⟩ := h
    split at h
    · cases h
    · simp only [Option.bind_eq_some_iff] at h
      obtain ⟨ip, hip, _⟩ := h
      have hhost := parseIpv4Addr_length hip
      rw [splitLastColon] at hsplit
      split at hsplit
      · cases hsplit
      · cases hsplit
        exact Nat.le_trans hhost (List.length_take_le' _ _)

theorem authorityText_length (endpoint : SocketAddrV4) :
    (authorityText endpoint).length ≤ 21 := by
  have hoctet : ∀ octet : UInt8, (decimal octet.toNat).length ≤ 3 :=
    fun octet => decimal_length (Nat.lt_trans octet.toNat_lt (by decide))
  have hport : (decimal endpoint.port.toNat).length ≤ 5 :=
    decimal_length (Nat.lt_trans endpoint.port.toNat_lt (by decide))
  obtain ⟨first, second, third, fourth, hoctets⟩ :=
    List.length_eq_four.mp endpoint.ip.length_eq
  have hone := hoctet first
  have htwo := hoctet second
  have hthree := hoctet third
  have hfour := hoctet fourth
  rw [authorityText_eq, addressText_of hoctets]
  simp only [List.length_append, List.length_cons]
  omega

theorem AuthorityName.length_le {kind : Kind} {name : Bytes} {bare : Bool}
    {wrap : SocketAddrV4 → AuthorityHeader}
    (h : AuthorityName kind name bare wrap) : 5 ≤ name.length := by
  cases h <;> decide

/-- The shortest line that grows is `Host:` with seven octets of address. -/
theorem rewriteLine_length (kind : Kind) (rewrite : RewritePolicy)
    (text : Bytes) :
    (rewriteLine kind rewrite text).length + 2 ≤ 2 * (text.length + 2) := by
  have hemitted := rewriteLine_emitted kind rewrite text
  generalize rewriteLine kind rewrite text = line at hemitted
  cases hemitted with
  | copied hnone => omega
  | @replaced start len header target hat htarget =>
      obtain ⟨parts, rfl, rfl, rfl, rfl⟩ := hat.parts
      have hname := parts.known.length_le
      have hauthority := parseEndpoint_length parts.parsed
      have htext := authorityText_length target
      have hmeasured := parts.measured
      rw [parts.replaceSpan_text]
      simp only [AuthorityParts.text, AuthorityParts.front, List.length_append]
      omega

/-! ## Header blocks -/

theorem joinLines_rewriteLine_length (kind : Kind) (rewrite : RewritePolicy)
    (texts : List Bytes) :
    (joinLines (texts.map (rewriteLine kind rewrite))).length ≤
      2 * (joinLines texts).length := by
  induction texts with
  | nil => exact Nat.le_refl 0
  | cons text texts ih =>
      have hline := rewriteLine_length kind rewrite text
      simp only [List.map_cons, joinLines_cons, List.length_append,
        crlf_length]
      omega

theorem scanAndRewriteHeader_length {framer framer' : HttpFraming}
    {block header : Bytes} {url : Option SocketAddrV4}
    (hends : crlf <:+ block)
    (h : framer.scanAndRewriteHeader block = .ok (framer', header, url)) :
    header.length ≤ 2 * block.length := by
  obtain ⟨start, texts, rfl, hunbroken⟩ := split_joinLines hends
  rw [scanAndRewriteHeader_joinLines framer hunbroken] at h
  obtain ⟨scan, hfold, hset⟩ := except_bind_ok h
  obtain ⟨begun, hline, hrest⟩ := except_bind_ok hfold
  rw [HeaderScan.line_start hline] at hrest
  have hfolded := HeaderScan.foldLines_folded rfl hrest
  have hlines :=
    joinLines_rewriteLine_length framer.kind framer.rewrite texts
  split at hset
  · cases hset
  · cases hset
    rw [hfolded.header]
    simp only [HeaderScan.started, joinLines_cons, List.length_append,
      crlf_length]
    omega

theorem findSubslice_ends {pattern bytes : Bytes} {position : Nat}
    (h : findSubslice pattern bytes = some position) :
    pattern <:+ bytes.take (position + pattern.length) := by
  induction bytes generalizing position with
  | nil =>
      rw [findSubslice] at h
      split at h
      next hempty =>
        cases h
        rw [List.isEmpty_iff.mp hempty]
        exact List.nil_suffix
      · cases h
  | cons octet bytes ih =>
      rw [findSubslice] at h
      split at h
      next hhere =>
        cases h
        obtain ⟨later, hlater⟩ := List.isPrefixOf_iff_prefix.mp hhere
        have htake : (octet :: bytes).take (0 + pattern.length) = pattern := by
          rw [← hlater, Nat.zero_add, List.take_left]
        exact ⟨[], htake.symm⟩
      · obtain ⟨next, hnext, rfl⟩ := Option.map_eq_some_iff.mp h
        rw [Nat.add_right_comm, List.take_succ_cons]
        exact (ih hnext).trans (List.suffix_cons _ _)

theorem findHeaderEnd_ends {rest : Bytes} {stop : Nat}
    (h : findHeaderEnd rest = some stop) : crlf <:+ rest.take stop := by
  obtain ⟨position, hposition, rfl⟩ := Option.map_eq_some_iff.mp h
  have hlast : crlf <:+ headerTerminator := ⟨crlf, rfl⟩
  exact hlast.trans (findSubslice_ends hposition)

/-! ## Feeds -/

/-- Whatever the framer's state, twice what a feed takes covers what it hands
out. -/
theorem feed_growth {framer framer' : HttpFraming} {input : Bytes}
    {framed : Framed} (h : framer.feed input = .ok (framer', framed)) :
    framed.header.length + framed.body.length +
      2 * (input.drop framed.consumed).length ≤ 2 * input.length := by
  rw [HttpFraming.feed] at h
  split at h
  · dsimp only at h
    split at h
    · split at h
      · cases h
      · cases h
        simp
    next stop hstop =>
      split at h
      · cases h
      obtain ⟨⟨next, header, url⟩, hscan, h⟩ := except_bind_ok h
      obtain ⟨⟨final, taken⟩, _, h⟩ := except_bind_ok h
      cases h
      have hheader := scanAndRewriteHeader_length
        (findHeaderEnd_ends hstop) hscan
      have hbound := findHeaderEnd_bound hstop
      have hskip := skipCrlfs_le input
      simp only [List.length_drop, List.length_take] at hheader hbound ⊢
      omega
  · obtain ⟨⟨final, taken⟩, _, h⟩ := except_bind_ok h
    cases h
    simp only [List.length_nil, List.length_take, List.length_drop]
    omega

def waitCap : Phase → Nat
  | .header => maxHeader
  | .bodyChunked => maxChunkLine
  | .bodyChunkedTrailers => maxTrailerLine
  | .bodyContentLength | .bodyCloseDelimited => 0

def unframed (phase : Phase) (rest : Bytes) : Bytes :=
  if phase = .header then rest.drop (skipCrlfs rest) else rest

theorem feed_waits {framer framer' : HttpFraming} {input : Bytes}
    {framed : Framed} (hwell : framer.WellFormed)
    (h : framer.feed input = .ok (framer', framed))
    (hnone : framed.consumed = 0) :
    (unframed framer'.phase input).length ≤ waitCap framer'.phase := by
  have hspec := feed_spec hwell input
  rw [h] at hspec
  obtain ⟨_, _, _, hwaits⟩ := hspec
  obtain ⟨rfl, _, hmore, hcap⟩ := hwaits hnone
  have hoctet : ∀ {next : HttpFraming}, next.takeOctet input = .more →
      input.length = 0 := by
    intro next hempty
    cases input with
    | nil => rfl
    | cons octet rest => cases hempty
  rw [HttpFraming.atom] at hmore
  cases hphase : framer'.phase with
  | header =>
      simp only [hphase, HttpFraming.takeHeader] at hmore
      rw [unframed, if_pos rfl]
      split at hmore
      · split at hmore
        · cases hmore
        next hshort => exact Nat.not_lt.mp hshort
      · split at hmore
        · cases hmore
        · split at hmore <;> cases hmore
  | bodyContentLength =>
      simp only [hphase] at hmore
      exact Nat.le_of_eq (hoctet hmore)
  | bodyCloseDelimited =>
      simp only [hphase] at hmore
      exact Nat.le_of_eq (hoctet hmore)
  | bodyChunked =>
      simp only [hphase] at hmore
      split at hmore
      · exact Nat.le_trans (Nat.le_of_eq (hoctet hmore)) (Nat.zero_le _)
      next hline =>
        rw [HttpFraming.takeSizeLine] at hmore
        split at hmore
        next hcrlf =>
          apply Nat.not_lt.mp
          intro hlong
          exact hcap ⟨hcrlf, .inl ⟨hphase, Nat.eq_zero_of_not_pos hline,
            hlong⟩⟩
        · split at hmore
          · cases hmore
          · dsimp only at hmore
            split at hmore
            · cases hmore
            · split at hmore <;> cases hmore
  | bodyChunkedTrailers =>
      simp only [hphase] at hmore
      rw [HttpFraming.takeTrailer] at hmore
      split at hmore
      next hcrlf =>
        apply Nat.not_lt.mp
        intro hlong
        exact hcap ⟨hcrlf, .inr ⟨hphase, hlong⟩⟩
      · cases hmore

inductive HttpFraming.Reached : HttpFraming → Prop where
  | new (kind : Kind) (rewrite : RewritePolicy) :
      Reached (HttpFraming.new kind rewrite)
  | fed {framer framer' : HttpFraming} {input : Bytes} {framed : Framed}
      (hbefore : Reached framer)
      (hfeed : framer.feed input = .ok (framer', framed)) : Reached framer'

theorem HttpFraming.Reached.wellFormed {framer : HttpFraming}
    (h : framer.Reached) : framer.WellFormed := by
  induction h with
  | new kind rewrite =>
      intro hphase
      cases hphase
  | @fed framer framer' input framed hbefore hfeed ih =>
      have hspec := feed_spec ih input
      rw [hfeed] at hspec
      exact hspec.1

end Netflector.Net.Http
