import Netflector.Foundation.Decimal
import Netflector.Net.Http.Blocks

/-!
# The length of a body

What the headers of a message prescribe for its body, and where the framer
reads them so.
-/

namespace Netflector.Net.Http

open Netflector.Foundation

/-! ## Fields -/

def isTokenOctet (octet : UInt8) : Bool :=
  isDigit 10 octet || (0x41 ≤ octet && octet ≤ 0x5a) ||
    (0x61 ≤ octet && octet ≤ 0x7a) || octet ∈ ascii "!#$%&'*+-.^_|~" ||
    octet = 0x60

def isFieldOctet (octet : UInt8) : Bool :=
  octet = 0x09 || (0x20 ≤ octet && octet ≤ 0x7e) || 0x80 ≤ octet

/-- `value` is what stands behind the colon, blanks included. -/
structure FieldLine where
  name : Bytes
  value : Bytes
  named : name ≠ []
  token : name.all isTokenOctet
  printable : value.all isFieldOctet

def FieldLine.text (field : FieldLine) : Bytes :=
  field.name ++ (0x3a :: field.value)

def FieldLine.is (field : FieldLine) (name : Bytes) : Bool :=
  eqIgnoreAsciiCase field.name name

def headerBlock (start : Bytes) (fields : List FieldLine) : Bytes :=
  joinLines (start :: (fields.map FieldLine.text ++ [[]]))

def valuesOf (name : Bytes) (fields : List FieldLine) : List Bytes :=
  (fields.filter (·.is name)).map FieldLine.value

def lengths (fields : List FieldLine) : List Bytes :=
  valuesOf (ascii "Content-Length") fields

def encodings (fields : List FieldLine) : List Bytes :=
  valuesOf (ascii "Transfer-Encoding") fields

/-! ## Codings -/

/-- Where a parameter of a coding may hold a comma. -/
inductive Quoting where
  | outside
  | inside
  | escaped
  deriving DecidableEq

def Quoting.next : Quoting → UInt8 → Quoting
  | .outside, octet => if octet = 0x22 then .inside else .outside
  | .inside, octet =>
      if octet = 0x22 then .outside
      else if octet = 0x5c then .escaped
      else .inside
  | .escaped, _ => .inside

def splitElements : Quoting → Bytes → List Bytes
  | _, [] => [[]]
  | quoting, octet :: rest =>
      if octet = 0x2c ∧ quoting = .outside then
        [] :: splitElements .outside rest
      else
        match splitElements (quoting.next octet) rest with
        | [] => [[octet]]
        | first :: elements => (octet :: first) :: elements

/-- All codings of the message, the one applied last at the end.  Empty
elements count for nothing. -/
def codings (fields : List FieldLine) : List Bytes :=
  ((encodings fields).flatMap fun value =>
    (splitElements .outside value).map trimAscii).filter (· ≠ [])

def isChunked (coding : Bytes) : Bool :=
  eqIgnoreAsciiCase coding (ascii "chunked")

def finalChunked (fields : List FieldLine) : Bool :=
  (codings fields).getLast?.any isChunked

/-! ## The rules -/

def bodyless (kind : Kind) (start : Bytes) : Bool :=
  kind = .response && bodylessStatus (parseStatusCode start)

/-- RFC 7230, section 3.3.3: the phase behind the header block and the octets
of the body where they are counted. -/
inductive Prescribed (kind : Kind) (start : Bytes) (fields : List FieldLine) :
    Phase → Nat → Prop where
  | bodyless (hstatus : bodyless kind start = true) :
      Prescribed kind start fields .header 0
  | chunked (hstatus : bodyless kind start = false)
      (hfinal : finalChunked fields = true) :
      Prescribed kind start fields .bodyChunked 0
  | coded (hstatus : bodyless kind start = false) (hkind : kind = .response)
      (hcoded : encodings fields ≠ []) (hfinal : finalChunked fields = false) :
      Prescribed kind start fields .bodyCloseDelimited 0
  | sized (length : Nat) (hstatus : bodyless kind start = false)
      (huncoded : encodings fields = []) (hsome : lengths fields ≠ [])
      (hlengths : ∀ value ∈ lengths fields, NamesLength length value)
      (hlength : length ≠ 0) :
      Prescribed kind start fields .bodyContentLength length
  | empty (hstatus : bodyless kind start = false)
      (huncoded : encodings fields = []) (hsome : lengths fields ≠ [])
      (hlengths : ∀ value ∈ lengths fields, NamesLength 0 value) :
      Prescribed kind start fields .header 0
  | request (hkind : kind = .request) (huncoded : encodings fields = [])
      (hnone : lengths fields = []) :
      Prescribed kind start fields .header 0
  | response (hstatus : bodyless kind start = false) (hkind : kind = .response)
      (huncoded : encodings fields = []) (hnone : lengths fields = []) :
      Prescribed kind start fields .bodyCloseDelimited 0

/-- The framer takes `chunked` anywhere between commas for the final coding,
and passes over every other coding. -/
def Misread (kind : Kind) (start : Bytes) (fields : List FieldLine) : Prop :=
  bodyless kind start = false ∧ encodings fields ≠ [] ∧
    finalChunked fields = false ∧
      (kind = .request ∨ (encodings fields).any valueHasChunked ∨
        lengths fields ≠ [])

/-! ## Reading fields -/

theorem FieldLine.unbroken (field : FieldLine) : findCrlf field.text = none := by
  apply no_crlf_of_no_cr
  intro hmem
  rcases List.mem_append.mp hmem with hname | hrest
  · exact absurd (List.all_eq_true.mp field.token _ hname) (by decide)
  · rcases List.mem_cons.mp hrest with hcolon | hvalue
    · exact absurd hcolon (by decide)
    · exact absurd (List.all_eq_true.mp field.printable _ hvalue) (by decide)

theorem stripPrefix_cons (octet other : UInt8) (line pattern : Bytes) :
    stripPrefixIgnoreAsciiCase (octet :: line) (other :: pattern) =
      if toAsciiLower octet = toAsciiLower other then
        stripPrefixIgnoreAsciiCase line pattern
      else none := by
  by_cases hsame : toAsciiLower octet = toAsciiLower other
  · simp [stripPrefixIgnoreAsciiCase, eqIgnoreAsciiCase, asciiLower, hsame]
  · simp [stripPrefixIgnoreAsciiCase, eqIgnoreAsciiCase, asciiLower, hsame]

theorem eqIgnoreAsciiCase_cons (octet other : UInt8) (first second : Bytes) :
    eqIgnoreAsciiCase (octet :: first) (other :: second) =
      (toAsciiLower octet == toAsciiLower other &&
        eqIgnoreAsciiCase first second) := by
  simp [eqIgnoreAsciiCase, asciiLower]

theorem toAsciiLower_colon {octet : UInt8} (h : octet ≠ 0x3a) :
    toAsciiLower octet ≠ toAsciiLower 0x3a := by
  have hcolon : toAsciiLower 0x3a = 0x3a := by decide
  rw [hcolon, toAsciiLower]
  split
  next hupper =>
    intro heq
    have hnat := congrArg UInt8.toNat heq
    simp only [UInt8.le_iff_toNat_le, UInt8.reduceToNat] at hupper
    rw [UInt8.toNat_add] at hnat
    simp only [UInt8.reduceToNat] at hnat
    omega
  · exact h

theorem stripPrefix_name {name header : Bytes} (hname : 0x3a ∉ name)
    (hheader : 0x3a ∉ header) (value : Bytes) :
    stripPrefixIgnoreAsciiCase (name ++ (0x3a :: value)) (header ++ [0x3a]) =
      if eqIgnoreAsciiCase name header then some value else none := by
  induction name generalizing header with
  | nil =>
      cases header with
      | nil => simp [stripPrefixIgnoreAsciiCase, eqIgnoreAsciiCase]
      | cons other header =>
          rw [List.mem_cons, not_or] at hheader
          have hapart := toAsciiLower_colon (Ne.symm hheader.1)
          simp [stripPrefix_cons, Ne.symm hapart, eqIgnoreAsciiCase,
            asciiLower]
  | cons octet name ih =>
      rw [List.mem_cons, not_or] at hname
      cases header with
      | nil =>
          have hapart := toAsciiLower_colon (Ne.symm hname.1)
          simp [stripPrefix_cons, hapart, eqIgnoreAsciiCase, asciiLower]
      | cons other header =>
          rw [List.mem_cons, not_or] at hheader
          rw [List.cons_append, List.cons_append, stripPrefix_cons,
            eqIgnoreAsciiCase_cons, ih hname.2 hheader.2]
          by_cases hsame : toAsciiLower octet = toAsciiLower other <;>
            simp [hsame]

theorem FieldLine.no_colon (field : FieldLine) : 0x3a ∉ field.name := by
  intro hmem
  exact absurd (List.all_eq_true.mp field.token _ hmem) (by decide)

theorem FieldLine.strip_text (field : FieldLine) {name line : Bytes}
    (hname : 0x3a ∉ name) (hline : line = name ++ [0x3a]) :
    stripPrefixIgnoreAsciiCase field.text line =
      if field.is name then some field.value else none := by
  rw [hline]
  exact stripPrefix_name field.no_colon hname field.value

theorem FieldLine.lengthValue_text (field : FieldLine) :
    lengthValue field.text =
      if field.is (ascii "Content-Length") then some field.value else none :=
  field.strip_text (by decide) (by decide)

theorem FieldLine.listsChunked_text (field : FieldLine) :
    listsChunked field.text =
      (field.is (ascii "Transfer-Encoding") && valueHasChunked field.value) := by
  have hname : 0x3a ∉ ascii "Transfer-Encoding" := by decide
  rw [listsChunked, field.strip_text hname (by decide)]
  cases field.is (ascii "Transfer-Encoding") <;> rfl

theorem filterMap_lengthValue (fields : List FieldLine) :
    (fields.map FieldLine.text ++ [[]]).filterMap lengthValue =
      lengths fields := by
  have hblank : lengthValue [] = none := by decide
  induction fields with
  | nil => rfl
  | cons field fields ih =>
      rw [List.map_cons, List.cons_append, List.filterMap_cons, ih,
        field.lengthValue_text, lengths, lengths, valuesOf, valuesOf,
        List.filter_cons]
      cases field.is (ascii "Content-Length") <;> rfl

theorem any_listsChunked (fields : List FieldLine) :
    (fields.map FieldLine.text ++ [[]]).any listsChunked =
      (encodings fields).any valueHasChunked := by
  induction fields with
  | nil => rfl
  | cons field fields ih =>
      rw [List.map_cons, List.cons_append, List.any_cons, ih,
        field.listsChunked_text, encodings, encodings, valuesOf, valuesOf,
        List.filter_cons]
      cases field.is (ascii "Transfer-Encoding") <;> rfl

theorem parseContentLength_ok {value : Bytes} {length : Nat}
    (h : parseContentLength value = .ok length) : NamesLength length value := by
  simp only [parseContentLength] at h
  split at h
  · cases h
  next hhead =>
    rw [Bool.not_eq_true, Bool.not_eq_false'] at hhead
    split at h
    next parsed hparsed =>
      cases h
      obtain ⟨hsome, hdigits, hvalue, hlimit⟩ :=
        parseUnsigned_some hhead hparsed
      obtain ⟨lead, trail, hsplit, hlead, htrail⟩ := trimAscii_split value
      exact ⟨⟨lead, _, trail, hsplit, hlead, htrail, hsome, hdigits, hvalue⟩,
        hlimit⟩
    · cases h

/-! ## The final coding is found -/

theorem splitElements_splitOn (quoting : Quoting) (value : Bytes) :
    ∃ first elements piece pieces,
      splitElements quoting value = first :: elements ∧
        splitOn 0x2c value = piece :: pieces ∧
        (0x2c ∉ first → first = piece) ∧
        ∀ element ∈ elements, 0x2c ∉ element → element ∈ pieces := by
  induction value generalizing quoting with
  | nil =>
      refine ⟨[], [], [], [], rfl, rfl, fun _ => rfl, ?_⟩
      intro element hmem
      cases hmem
  | cons octet rest ih =>
      obtain ⟨first, elements, piece, pieces, hsplit, hon, hfirst, hrest⟩ :=
        ih (if octet = 0x2c ∧ quoting = .outside then .outside
          else quoting.next octet)
      have hlater : ∀ element ∈ first :: elements, 0x2c ∉ element →
          element ∈ piece :: pieces := by
        intro element hmem hplain
        rcases List.mem_cons.mp hmem with rfl | hmem
        · rw [hfirst hplain]
          exact List.mem_cons_self
        · exact List.mem_cons_of_mem _ (hrest element hmem hplain)
      by_cases hcomma : octet = 0x2c
      · by_cases houtside : quoting = .outside
        · rw [if_pos ⟨hcomma, houtside⟩] at hsplit
          refine ⟨[], first :: elements, [], piece :: pieces, ?_, ?_,
            fun _ => rfl, hlater⟩
          · rw [splitElements, if_pos ⟨hcomma, houtside⟩, hsplit]
          · rw [splitOn, if_pos hcomma, hon]
        · have hquoted : ¬ (octet = 0x2c ∧ quoting = .outside) :=
            fun h => houtside h.2
          rw [if_neg hquoted] at hsplit
          refine ⟨octet :: first, elements, [], piece :: pieces, ?_, ?_, ?_,
            ?_⟩
          · rw [splitElements, if_neg hquoted, hsplit]
          · rw [splitOn, if_pos hcomma, hon]
          · intro hplain
            exact absurd (hcomma ▸ List.mem_cons_self) hplain
          · intro element hmem
            exact hlater element (List.mem_cons_of_mem _ hmem)
      · have hplain : ¬ (octet = 0x2c ∧ quoting = .outside) :=
          fun h => hcomma h.1
        rw [if_neg hplain] at hsplit
        refine ⟨octet :: first, elements, octet :: piece, pieces, ?_, ?_, ?_,
          hrest⟩
        · rw [splitElements, if_neg hplain, hsplit]
        · rw [splitOn, if_neg hcomma, hon]
        · intro hnone
          rw [hfirst (fun hmem => hnone (List.mem_cons_of_mem _ hmem))]

theorem isChunked_no_comma {element : Bytes}
    (h : isChunked (trimAscii element) = true) : 0x2c ∉ element := by
  intro hmem
  obtain ⟨lead, trail, hsplit, hlead, htrail⟩ := trimAscii_split element
  have hlower : asciiLower (trimAscii element) = asciiLower (ascii "chunked") :=
    eq_of_beq h
  rw [hsplit, List.mem_append, List.mem_append] at hmem
  rcases hmem with (hmem | hmem) | hmem
  · exact absurd (List.all_eq_true.mp hlead _ hmem) (by decide)
  · have hcomma : toAsciiLower 0x2c ∈ asciiLower (trimAscii element) :=
      List.mem_map_of_mem hmem
    rw [hlower] at hcomma
    exact absurd hcomma (by decide)
  · exact absurd (List.all_eq_true.mp htrail _ hmem) (by decide)

theorem valueHasChunked_of_element {value element : Bytes}
    (hmem : element ∈ splitElements .outside value)
    (h : isChunked (trimAscii element) = true) :
    valueHasChunked value = true := by
  obtain ⟨first, elements, piece, pieces, hsplit, hon, hfirst, hrest⟩ :=
    splitElements_splitOn .outside value
  have hplain := isChunked_no_comma h
  refine List.any_eq_true.mpr ⟨element, ?_, h⟩
  rw [hon]
  rw [hsplit] at hmem
  rcases List.mem_cons.mp hmem with rfl | hmem
  · rw [hfirst hplain]
    exact List.mem_cons_self
  · exact List.mem_cons_of_mem _ (hrest element hmem hplain)

theorem finalChunked_listed {fields : List FieldLine}
    (h : finalChunked fields = true) :
    (encodings fields).any valueHasChunked = true := by
  rw [finalChunked, Option.any_eq_true] at h
  obtain ⟨coding, hlast, hchunked⟩ := h
  have hmem := List.mem_of_getLast? hlast
  obtain ⟨hmem, _⟩ := List.mem_filter.mp hmem
  obtain ⟨value, hvalue, hmem⟩ := List.mem_flatMap.mp hmem
  obtain ⟨element, helement, rfl⟩ := List.mem_map.mp hmem
  exact List.any_eq_true.mpr
    ⟨value, hvalue, valueHasChunked_of_element helement hchunked⟩

/-! ## The phase -/

theorem headerBlock_unbroken {start : Bytes} (hstart : findCrlf start = none)
    (fields : List FieldLine) :
    Unbroken (start :: (fields.map FieldLine.text ++ [[]])) := by
  intro text hmem
  rcases List.mem_cons.mp hmem with rfl | hmem
  · exact hstart
  rcases List.mem_append.mp hmem with hfield | hblank
  · obtain ⟨field, _, rfl⟩ := List.mem_map.mp hfield
    exact field.unbroken
  · rw [List.mem_singleton.mp hblank]
    rfl

structure ReadsBody (framer framer' : HttpFraming) (start : Bytes)
    (fields : List FieldLine) (contentLength : Option Nat) : Prop where
  phase : framer' = framer.setBodyPhase
    (HeaderScan.started framer.kind start).status contentLength
    ((encodings fields).any valueHasChunked)
  unsized : lengths fields = [] → contentLength = none
  sized : lengths fields ≠ [] → ∃ length, contentLength = some length ∧
    ∀ value ∈ lengths fields, NamesLength length value
  alone : contentLength.isSome → (encodings fields).any valueHasChunked = false

theorem scanAndRewriteHeader_reads {framer framer' : HttpFraming}
    {start header : Bytes} {fields : List FieldLine}
    {url : Option SocketAddrV4} (hstart : findCrlf start = none)
    (h : framer.scanAndRewriteHeader (headerBlock start fields) =
      .ok (framer', header, url)) :
    ∃ contentLength, ReadsBody framer framer' start fields contentLength := by
  rw [headerBlock, scanAndRewriteHeader_joinLines framer
    (headerBlock_unbroken hstart fields)] at h
  obtain ⟨scan, hfold, hset⟩ := except_bind_ok h
  obtain ⟨begun, hline, hrest⟩ := except_bind_ok hfold
  rw [HeaderScan.line_start hline] at hrest
  have hfolded := HeaderScan.foldLines_folded rfl hrest
  have hchunked : scan.chunked = (encodings fields).any valueHasChunked := by
    rw [hfolded.chunked, any_listsChunked]
    rfl
  have hunsized := hfolded.unsized
  have hsized := hfolded.sized
  rw [filterMap_lengthValue] at hunsized hsized
  split at hset
  · cases hset
  next halone =>
    cases hset
    refine ⟨scan.contentLength, ?_, hunsized, ?_, ?_⟩
    · rw [hfolded.status, hchunked]
    · intro hsome
      obtain ⟨length, hlength, hparse, _⟩ := hsized hsome
      exact ⟨length, hlength, fun value hmem =>
        parseContentLength_ok (hparse value hmem)⟩
    · intro hsome
      rw [← hchunked]
      by_contra hboth
      exact halone ⟨hsome, (Bool.not_eq_false _).mp hboth⟩

theorem started_bodyless (kind : Kind) (start : Bytes) :
    (kind = .response ∧
      bodylessStatus (HeaderScan.started kind start).status = true) ↔
        bodyless kind start = true := by
  cases kind <;> simp [bodyless, HeaderScan.started]

theorem ReadsBody.phase_eq {framer framer' : HttpFraming} {start : Bytes}
    {fields : List FieldLine} {contentLength : Option Nat}
    (h : ReadsBody framer framer' start fields contentLength) :
    (framer'.phase, framer'.bodyRemaining) =
      if bodyless framer.kind start = true then (.header, 0)
      else if (encodings fields).any valueHasChunked = true then
        (.bodyChunked, 0)
      else
        match contentLength with
        | some length =>
            (if length = 0 then .header else .bodyContentLength, length)
        | none =>
            (if framer.kind = .request then .header
              else .bodyCloseDelimited, 0) := by
  have hiff := started_bodyless framer.kind start
  rw [h.phase]
  simp only [HttpFraming.setBodyPhase]
  by_cases hbodyless : bodyless framer.kind start = true
  · rw [if_pos hbodyless, if_pos (hiff.mpr hbodyless)]
  · rw [if_neg hbodyless, if_neg (fun hstatus => hbodyless (hiff.mp hstatus))]
    by_cases hlisted : (encodings fields).any valueHasChunked = true
    · rw [if_pos hlisted, if_pos hlisted]
    · rw [if_neg hlisted, if_neg hlisted]
      cases contentLength with
      | none => cases framer.kind <;> rfl
      | some length => by_cases hzero : length = 0 <;> simp [hzero]

theorem ReadsBody.uncoded {framer framer' : HttpFraming} {start : Bytes}
    {fields : List FieldLine} {contentLength : Option Nat}
    (h : ReadsBody framer framer' start fields contentLength)
    (hstatus : bodyless framer.kind start = false)
    (hnone : encodings fields = []) :
    Prescribed framer.kind start fields framer'.phase framer'.bodyRemaining := by
  have hphase := h.phase_eq
  simp only [hstatus, hnone, List.any_nil, Bool.false_eq_true,
    if_false] at hphase
  by_cases hlengths : lengths fields = []
  · simp only [h.unsized hlengths] at hphase
    obtain ⟨hphase, hcount⟩ := Prod.mk.inj hphase
    rw [hphase, hcount]
    cases hkind : framer.kind with
    | request => exact .request rfl hnone hlengths
    | response => exact .response (hkind ▸ hstatus) rfl hnone hlengths
  · obtain ⟨length, hlength, hnames⟩ := h.sized hlengths
    simp only [hlength] at hphase
    obtain ⟨hphase, hcount⟩ := Prod.mk.inj hphase
    rw [hphase, hcount]
    by_cases hzero : length = 0
    · subst hzero
      exact .empty hstatus hnone hlengths hnames
    · rw [if_neg hzero]
      exact .sized length hstatus hnone hlengths hnames hzero

theorem Prescribed.of_coded {kind : Kind} {start : Bytes}
    {fields : List FieldLine} {phase : Phase} {count : Nat}
    (h : Prescribed kind start fields phase count)
    (hstatus : Http.bodyless kind start = false)
    (hcoded : encodings fields ≠ []) (hfinal : finalChunked fields = false) :
    kind = .response ∧ phase = .bodyCloseDelimited := by
  cases h with
  | bodyless htrue => rw [hstatus] at htrue; cases htrue
  | chunked _ htrue => rw [hfinal] at htrue; cases htrue
  | coded _ hkind _ _ => exact ⟨hkind, rfl⟩
  | sized _ _ hnone _ _ _ => exact absurd hnone hcoded
  | empty _ hnone _ _ => exact absurd hnone hcoded
  | request _ hnone _ => exact absurd hnone hcoded
  | response _ _ hnone _ => exact absurd hnone hcoded

/-- A block of well-formed fields that is accepted gets the phase that the
rules prescribe exactly where its codings are not misread. -/
theorem body_prescribed_iff {framer framer' : HttpFraming}
    {start header : Bytes} {fields : List FieldLine}
    {url : Option SocketAddrV4} (hstart : findCrlf start = none)
    (h : framer.scanAndRewriteHeader (headerBlock start fields) =
      .ok (framer', header, url)) :
    Prescribed framer.kind start fields framer'.phase framer'.bodyRemaining ↔
      ¬ Misread framer.kind start fields := by
  obtain ⟨contentLength, hreads⟩ := scanAndRewriteHeader_reads hstart h
  have hphase := hreads.phase_eq
  constructor
  · rintro hprescribed ⟨hstatus, hcoded, hfinal, hwhy⟩
    obtain ⟨hkind, hclose⟩ := hprescribed.of_coded hstatus hcoded hfinal
    rw [if_neg (by rw [hstatus]; exact Bool.false_ne_true)] at hphase
    rcases hwhy with hrequest | hlisted | hlengths
    · rw [hkind] at hrequest
      cases hrequest
    · rw [if_pos hlisted, hclose] at hphase
      cases hphase
    · obtain ⟨length, rfl, _⟩ := hreads.sized hlengths
      rw [if_neg (by rw [hreads.alone rfl]; exact Bool.false_ne_true),
        hclose] at hphase
      by_cases hzero : length = 0 <;> simp [hzero] at hphase
  · intro hright
    by_cases hstatus : bodyless framer.kind start = true
    · rw [if_pos hstatus] at hphase
      obtain ⟨hphase, hcount⟩ := Prod.mk.inj hphase
      rw [hphase, hcount]
      exact .bodyless hstatus
    rw [Bool.not_eq_true] at hstatus
    by_cases hcoded : encodings fields = []
    · exact hreads.uncoded hstatus hcoded
    simp only [hstatus, Bool.false_eq_true, if_false] at hphase
    by_cases hfinal : finalChunked fields = true
    · rw [if_pos (finalChunked_listed hfinal)] at hphase
      obtain ⟨hphase, hcount⟩ := Prod.mk.inj hphase
      rw [hphase, hcount]
      exact .chunked hstatus hfinal
    · rw [Bool.not_eq_true] at hfinal
      have hkind : framer.kind = .response := by
        cases hkind : framer.kind with
        | response => rfl
        | request =>
            exact absurd ⟨hstatus, hcoded, hfinal, .inl hkind⟩ hright
      have hlisted : ¬ (encodings fields).any valueHasChunked = true :=
        fun hlisted =>
          hright ⟨hstatus, hcoded, hfinal, .inr (.inl hlisted)⟩
      have hlengths : lengths fields = [] := by
        by_contra hlengths
        exact hright ⟨hstatus, hcoded, hfinal, .inr (.inr hlengths)⟩
      rw [if_neg hlisted, hreads.unsized hlengths] at hphase
      simp only [hkind] at hphase
      obtain ⟨hphase, hcount⟩ := Prod.mk.inj hphase
      rw [hphase, hcount]
      exact .coded hstatus hkind hcoded hfinal

def okLine : Bytes := ascii "HTTP/1.1 200 OK"

def encodingField (value : Bytes) (h : value.all isFieldOctet) : FieldLine :=
  ⟨ascii "Transfer-Encoding", value, by decide, by decide, h⟩

theorem body_prescribed_chunked :
    Prescribed .response okLine
      [encodingField (ascii " gzip, Chunked") (by decide)] .bodyChunked 0 ∧
    ¬ Misread .response okLine
      [encodingField (ascii " gzip, Chunked") (by decide)] := by
  have hscan : (plainResponses .header).scanAndRewriteHeader
      (headerBlock okLine
        [encodingField (ascii " gzip, Chunked") (by decide)]) =
      .ok (plainResponses .bodyChunked, headerBlock okLine
        [encodingField (ascii " gzip, Chunked") (by decide)], none) := by
    decide
  have hright : ¬ Misread .response okLine
      [encodingField (ascii " gzip, Chunked") (by decide)] := by
    rintro ⟨_, _, hfinal, _⟩
    exact absurd hfinal (by decide)
  exact ⟨(body_prescribed_iff (by decide) hscan).mpr hright, hright⟩

/-- A coding behind `chunked`: the peer reads until the connection closes, the
framer reads chunks. -/
theorem body_misread_coded :
    (plainResponses .header).scanAndRewriteHeader
      (headerBlock okLine
        [encodingField (ascii " chunked, gzip") (by decide)]) =
      .ok (plainResponses .bodyChunked, headerBlock okLine
        [encodingField (ascii " chunked, gzip") (by decide)], none) ∧
    ¬ Prescribed .response okLine
      [encodingField (ascii " chunked, gzip") (by decide)]
      (plainResponses .bodyChunked).phase
      (plainResponses .bodyChunked).bodyRemaining := by
  constructor
  · decide
  · intro h
    cases h with
    | chunked _ hfinal => exact absurd hfinal (by decide)

end Netflector.Net.Http
