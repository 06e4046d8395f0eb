import Netflector.Net.Http.Chunking

/-!
# Header blocks line by line

The scan of a header block is a fold over its lines; what a line that is
accepted leaves of each accumulator.
-/

namespace Netflector.Net.Http

open Netflector.Foundation

def joinLines (texts : List Bytes) : Bytes := texts.flatMap (· ++ crlf)

theorem joinLines_cons (text : Bytes) (texts : List Bytes) :
    joinLines (text :: texts) = text ++ (crlf ++ joinLines texts) := by
  rw [joinLines, List.flatMap_cons, List.append_assoc]
  rfl

def Unbroken (texts : List Bytes) : Prop :=
  ∀ text ∈ texts, findCrlf text = none

theorem no_crlf_of_no_cr {bytes : Bytes} (h : 0x0d ∉ bytes) :
    findCrlf bytes = none := by
  induction bytes with
  | nil => rfl
  | cons octet bytes ih =>
      rw [List.mem_cons, not_or] at h
      have hnot : ¬ crlf.isPrefixOf (octet :: bytes) = true := by
        intro hprefix
        apply h.1
        cases bytes with
        | nil => simp [crlf, List.isPrefixOf] at hprefix
        | cons next bytes =>
            simp only [crlf, List.isPrefixOf, Bool.and_eq_true,
              beq_iff_eq] at hprefix
            exact hprefix.1
      have hrest : findSubslice crlf bytes = none := ih h.2
      rw [findCrlf, findSubslice, if_neg hnot, hrest]
      rfl

def HeaderScan.foldLines (kind : Kind) (rewrite : RewritePolicy) :
    List Bytes → HeaderScan → Except FramingError HeaderScan
  | [], scan => .ok scan
  | text :: texts, scan =>
      (scan.line kind rewrite text).bind (foldLines kind rewrite texts)

theorem lines_joinLines (kind : Kind) (rewrite : RewritePolicy)
    {texts : List Bytes} (h : Unbroken texts) {rounds : Nat}
    (hrounds : texts.length ≤ rounds) (scan : HeaderScan) :
    HeaderScan.lines kind rewrite rounds (joinLines texts) scan =
      HeaderScan.foldLines kind rewrite texts scan := by
  induction texts generalizing rounds scan with
  | nil =>
      cases rounds with
      | zero => rfl
      | succ rounds => simp [HeaderScan.lines, joinLines, HeaderScan.foldLines]
  | cons text texts ih =>
      obtain ⟨rounds, rfl⟩ := Nat.exists_eq_succ_of_ne_zero
        (Nat.ne_of_gt (Nat.lt_of_lt_of_le (Nat.succ_pos _) hrounds))
      rw [joinLines_cons, HeaderScan.lines_succ kind rewrite rounds scan text
        (h text List.mem_cons_self), HeaderScan.foldLines]
      cases scan.line kind rewrite text with
      | error error => rfl
      | ok next =>
          exact ih (fun later hmem => h later (List.mem_cons_of_mem _ hmem))
            (Nat.le_of_succ_le_succ hrounds) next

theorem joinLines_length (texts : List Bytes) :
    2 * texts.length ≤ (joinLines texts).length := by
  induction texts with
  | nil => exact Nat.le_refl 0
  | cons text texts ih =>
      simp only [joinLines_cons, crlf, List.length_append, List.length_cons,
        List.length_nil]
      omega

theorem scanAndRewriteHeader_joinLines (framer : HttpFraming)
    {texts : List Bytes} (h : Unbroken texts) :
    framer.scanAndRewriteHeader (joinLines texts) =
      (HeaderScan.foldLines framer.kind framer.rewrite texts .start).bind
        fun scan =>
          if scan.contentLength.isSome ∧ scan.chunked then
            .error .contentLengthWithChunked
          else .ok (framer.setBodyPhase scan.status scan.contentLength
            scan.chunked, scan.header, scan.applicationUrl) := by
  have hlength := joinLines_length texts
  rw [HttpFraming.scanAndRewriteHeader, lines_joinLines framer.kind
    framer.rewrite h (by omega)]
  rfl

/-! ## One line -/

def lengthValue (text : Bytes) : Option Bytes :=
  stripPrefixIgnoreAsciiCase text (ascii "Content-Length:")

def listsChunked (text : Bytes) : Bool :=
  (stripPrefixIgnoreAsciiCase text (ascii "Transfer-Encoding:")).any
    valueHasChunked

structure HeaderScan.Passed (kind : Kind) (rewrite : RewritePolicy)
    (text : Bytes) (before after : HeaderScan) : Prop where
  header : after.header = before.header ++ (rewriteLine kind rewrite text ++ crlf)
  chunked : after.chunked = (before.chunked || listsChunked text)
  applicationUrl : after.applicationUrl =
    before.applicationUrl.or (dialedBy kind text)
  status : after.status = before.status
  first : after.first = false
  unsized : lengthValue text = none → after.contentLength = before.contentLength
  sized : ∀ value, lengthValue text = some value → ∃ length,
    parseContentLength value = .ok length ∧
      after.contentLength = some length ∧
      ∀ known, before.contentLength = some known → known = length

theorem HeaderScan.line_passed {kind : Kind} {rewrite : RewritePolicy}
    {text : Bytes} {before after : HeaderScan} (hfirst : before.first = false)
    (hline : before.line kind rewrite text = .ok after) :
    HeaderScan.Passed kind rewrite text before after := by
  have h := hline
  simp only [HeaderScan.line, hfirst, Bool.false_eq_true, if_false,
    HeaderScan.inspectAndEmit] at h
  cases hlength : stripPrefixIgnoreAsciiCase text (ascii "Content-Length:") with
  | some value =>
      have hauthority := rewritableAuthority_framing kind hlength (by decide)
      have hencoding : stripPrefixIgnoreAsciiCase text
          (ascii "Transfer-Encoding:") = none :=
        stripPrefix_apart hlength (by decide)
      simp only [hlength] at h
      obtain ⟨⟨scan, header⟩, hscan, hsame⟩ := except_bind_ok h
      obtain ⟨length, hparse, hemit⟩ := except_bind_ok hscan
      split at hemit
      · cases hemit
      next hagrees =>
        cases hemit
        cases hsame
        constructor
        case sized =>
          intro value' hvalue'
          have hvalue : value' = value := by
            rw [lengthValue, hlength] at hvalue'
            exact (Option.some.inj hvalue').symm
          subst hvalue
          refine ⟨length, hparse, rfl, fun known hknown => ?_⟩
          simpa [hknown] using hagrees
        case unsized =>
          intro hnone
          rw [lengthValue, hlength] at hnone
          cases hnone
        · simp [HeaderScan.copyLine, rewriteLine_of_none hauthority]
        · simp [HeaderScan.copyLine, listsChunked, hencoding]
        · simp [HeaderScan.copyLine,
            dialedBy_framing kind hlength (by decide)]
        · rfl
        · rfl
  | none =>
      have hvacuous : ∀ value, lengthValue text = some value → ∃ length,
          parseContentLength value = .ok length ∧
            after.contentLength = some length ∧
            ∀ known, before.contentLength = some known → known = length := by
        intro value hvalue
        rw [lengthValue, hlength] at hvalue
        cases hvalue
      simp only [hlength] at h
      cases hencoding : stripPrefixIgnoreAsciiCase text
          (ascii "Transfer-Encoding:") with
      | some value =>
          have hauthority :=
            rewritableAuthority_framing kind hencoding (by decide)
          simp only [hencoding] at h
          cases h
          refine ⟨?_, ?_, ?_, rfl, rfl, fun _ => rfl, hvacuous⟩
          · simp [HeaderScan.copyLine, rewriteLine_of_none hauthority]
          · simp [HeaderScan.copyLine, listsChunked, hencoding]
          · simp [HeaderScan.copyLine,
              dialedBy_framing kind hencoding (by decide)]
      | none =>
          have hlists : listsChunked text = false := by
            rw [listsChunked, hencoding]
            rfl
          rw [HeaderScan.line_plain rewrite hfirst hlength hencoding] at hline
          cases hline
          refine ⟨?_, ?_, rfl, rfl, hfirst, fun _ => rfl, hvacuous⟩
          · simp [HeaderScan.copyLine]
          · simp [HeaderScan.copyLine, hlists]

/-! ## All lines behind the first -/

structure HeaderScan.Folded (kind : Kind) (rewrite : RewritePolicy)
    (texts : List Bytes) (before after : HeaderScan) : Prop where
  header : after.header =
    before.header ++ joinLines (texts.map (rewriteLine kind rewrite))
  chunked : after.chunked = (before.chunked || texts.any listsChunked)
  applicationUrl : after.applicationUrl =
    before.applicationUrl.or (texts.findSome? (dialedBy kind))
  status : after.status = before.status
  first : after.first = false
  unsized : texts.filterMap lengthValue = [] →
    after.contentLength = before.contentLength
  sized : texts.filterMap lengthValue ≠ [] → ∃ length,
    after.contentLength = some length ∧
      (∀ value ∈ texts.filterMap lengthValue,
        parseContentLength value = .ok length) ∧
      ∀ known, before.contentLength = some known → known = length

theorem HeaderScan.Passed.folded {kind : Kind} {rewrite : RewritePolicy}
    {text : Bytes} {texts : List Bytes} {before next after : HeaderScan}
    (hhead : HeaderScan.Passed kind rewrite text before next)
    (htail : HeaderScan.Folded kind rewrite texts next after) :
    HeaderScan.Folded kind rewrite (text :: texts) before after := by
  have hurl : (text :: texts).findSome? (dialedBy kind) =
      (dialedBy kind text).or (texts.findSome? (dialedBy kind)) := by
    rw [List.findSome?_cons]
    cases dialedBy kind text <;> rfl
  constructor
  · rw [htail.header, hhead.header, List.map_cons, joinLines_cons,
      List.append_assoc, List.append_assoc]
  · rw [htail.chunked, hhead.chunked, List.any_cons, Bool.or_assoc]
  · rw [htail.applicationUrl, hhead.applicationUrl, hurl, Option.or_assoc]
  · rw [htail.status, hhead.status]
  · exact htail.first
  · intro hnone
    cases hlength : lengthValue text with
    | none =>
        rw [List.filterMap_cons_none hlength] at hnone
        rw [htail.unsized hnone, hhead.unsized hlength]
    | some value =>
        rw [List.filterMap_cons_some hlength] at hnone
        cases hnone
  · intro hsome
    cases hlength : lengthValue text with
    | none =>
        rw [List.filterMap_cons_none hlength] at hsome ⊢
        obtain ⟨length, hafter, hnamed, hknown⟩ := htail.sized hsome
        rw [hhead.unsized hlength] at hknown
        exact ⟨length, hafter, hnamed, hknown⟩
    | some value =>
        rw [List.filterMap_cons_some hlength]
        obtain ⟨length, hparse, hnext, hknown⟩ := hhead.sized value hlength
        by_cases hrest : texts.filterMap lengthValue = []
        · refine ⟨length, (htail.unsized hrest).trans hnext, ?_, hknown⟩
          rw [hrest]
          intro value' hmem
          rw [List.mem_singleton.mp hmem]
          exact hparse
        · obtain ⟨length', hafter, hnamed, hsame⟩ := htail.sized hrest
          -- A later length repeats this one, or its line was refused.
          have heq : length = length' := hsame length hnext
          subst heq
          refine ⟨length, hafter, ?_, hknown⟩
          intro value' hmem
          rcases List.mem_cons.mp hmem with rfl | hlater
          · exact hparse
          · exact hnamed value' hlater

theorem HeaderScan.foldLines_folded {kind : Kind} {rewrite : RewritePolicy}
    {texts : List Bytes} {before after : HeaderScan}
    (hfirst : before.first = false)
    (h : HeaderScan.foldLines kind rewrite texts before = .ok after) :
    HeaderScan.Folded kind rewrite texts before after := by
  induction texts generalizing before with
  | nil =>
      cases h
      constructor
      · simp [joinLines]
      · simp
      · simp
      · rfl
      · exact hfirst
      · intro _
        rfl
      · intro hsome
        exact absurd rfl hsome
  | cons text texts ih =>
      obtain ⟨next, hline, hrest⟩ := except_bind_ok h
      have hpassed := HeaderScan.line_passed hfirst hline
      exact hpassed.folded (ih hpassed.first hrest)

def HeaderScan.started (kind : Kind) (start : Bytes) : HeaderScan where
  header := start ++ crlf
  contentLength := none
  chunked := false
  applicationUrl := none
  status :=
    match kind with
    | .request => 0
    | .response => parseStatusCode start
  first := false

theorem HeaderScan.line_start {kind : Kind} {rewrite : RewritePolicy}
    {start : Bytes} {scan : HeaderScan}
    (h : HeaderScan.start.line kind rewrite start = .ok scan) :
    scan = HeaderScan.started kind start := by
  cases kind with
  | request =>
      simp only [HeaderScan.line, HeaderScan.start, if_true] at h
      split at h
      · cases h
      · cases h
        rfl
  | response =>
      cases h
      rfl

end Netflector.Net.Http
