import Netflector.Net.Wsd.Scanner
import Netflector.Net.Xml

/-!
# Scanning a document

On what a document is written as, the scan of tags finds the elements of the
tree, and the answers are those of the tree.
-/

namespace Netflector.Net.Wsd

open Netflector.Foundation
open Netflector.Net.Http
open Netflector.Net.Xml

/-! ## The last segment -/

/-- `tail` is what follows the last separator of `bytes`, or all of it. -/
def LastSegment (separator : UInt8) (bytes tail : Bytes) : Prop :=
  separator ∉ tail ∧
    (bytes = tail ∨ ∃ head, bytes = head ++ separator :: tail)

theorem splitOn_append (separator : UInt8) (head tail : Bytes) :
    splitOn separator (head ++ separator :: tail) =
      splitOn separator head ++ splitOn separator tail := by
  induction head with
  | nil => simp [splitOn]
  | cons octet head ih =>
      rw [List.cons_append, splitOn, splitOn, ih]
      by_cases hoctet : octet = separator
      · simp [hoctet]
      · cases hhead : splitOn separator head with
        | nil => exact absurd hhead (splitOn_nonempty separator head)
        | cons first pieces => simp [hoctet]

theorem afterLast_of {separator : UInt8} {bytes tail : Bytes}
    (h : LastSegment separator bytes tail) :
    afterLast separator bytes = tail := by
  obtain ⟨hfree, rfl | ⟨head, rfl⟩⟩ := h
  · simp [afterLast, splitOn_last hfree]
  · simp [afterLast, splitOn_append, splitOn_last hfree]

theorem afterLast_iff {separator : UInt8} {bytes tail : Bytes} :
    afterLast separator bytes = tail ↔ LastSegment separator bytes tail := by
  constructor
  · rintro rfl
    by_cases hmem : separator ∈ bytes
    · obtain ⟨tail, head, hsplit, hfree⟩ :=
        List.eq_append_cons_of_mem (List.mem_reverse.mpr hmem)
      have hlast : LastSegment separator bytes tail.reverse := by
        refine ⟨fun h => hfree (List.mem_reverse.mp h), .inr
          ⟨head.reverse, ?_⟩⟩
        have hbytes := congrArg List.reverse hsplit
        simpa using hbytes
      rw [afterLast_of hlast]
      exact hlast
    · have hlast : LastSegment separator bytes bytes := ⟨hmem, .inl rfl⟩
      rw [afterLast_of hlast]
      exact hlast
  · exact afterLast_of

/-! ## Tags -/

section Tags

variable {localName : Bytes}

theorem opens_other {octet : UInt8} (h : octet ∈ [0x2f, 0x3f, 0x21])
    (body : Bytes) : opensElement localName (octet :: body) = false := by
  unfold opensElement
  rw [if_pos]
  simpa using h

theorem opens_empty (tag : Bytes) :
    opensElement localName (tag ++ [0x2f]) = false := by
  unfold opensElement
  split
  · rfl
  · simp

theorem name_takeWhile (tag : Tag) :
    (tag.render.takeWhile fun octet =>
      !(isAsciiWhitespace octet || octet == 0x2f)) = tag.name.render := by
  have hname : ∀ octet ∈ tag.name.render,
      (!(isAsciiWhitespace octet || octet == 0x2f)) = true := by
    intro octet hmem
    obtain ⟨hspace, _, hslash, _⟩ := tag.name.render_octets hmem
    simp [hspace, hslash]
  rw [Tag.render, List.takeWhile_append_of_pos hname]
  have hrest : (tag.rest.takeWhile fun octet =>
      !(isAsciiWhitespace octet || octet == 0x2f)) = [] := by
    cases hcase : tag.rest with
    | nil => rfl
    | cons first rest =>
        have hspace := tag.rest_head first (by rw [hcase]; rfl)
        simp [hspace]
  rw [hrest, List.append_nil]

theorem name_local (name : Name) :
    afterLast 0x3a name.render = name.localName.text := by
  have hfree : (0x3a : UInt8) ∉ name.localName.text := fun hmem =>
    (name_octet (name.localName.octets _ hmem)).2.2.2.2.1 rfl
  refine afterLast_of ⟨hfree, ?_⟩
  unfold Name.render
  split
  · exact .inl rfl
  · rename_i qualifier _
    exact .inr ⟨qualifier.text, rfl⟩

theorem opens_tag (tag : Tag) :
    opensElement localName tag.render =
      eqIgnoreAsciiCase tag.name.localName.text localName := by
  have hhead : tag.render.head? ∉
      [some (0x2f : UInt8), some 0x3f, some 0x21] := by
    cases hname : tag.name.render with
    | nil => exact absurd hname tag.name.render_ne_nil
    | cons first rest =>
        have hfirst : first ∈ tag.name.render := by
          rw [hname]
          exact List.mem_cons_self
        obtain ⟨_, _, hslash, hbang, hquestion⟩ :=
          tag.name.render_octets hfirst
        simp [Tag.render, hname, hslash, hbang, hquestion]
  unfold opensElement
  rw [if_neg hhead, if_neg tag.render_last]
  simp only [name_takeWhile, name_local]

end Tags

/-! ## Contents -/

def textsOf (localName : Bytes) (opened : List (Tag × Bytes)) : List Bytes :=
  (opened.filter fun element =>
    eqIgnoreAsciiCase element.1.name.localName.text localName).map
      fun element => trimAscii element.2

theorem takeWhile_leading (content : Content) (rest : Bytes) :
    (content.render ++ 0x3c :: rest).takeWhile (· != 0x3c) =
      content.leading := by
  have hopen : ∀ rest : Bytes,
      ((0x3c :: rest : Bytes).takeWhile (· != 0x3c)) = [] := fun _ => rfl
  induction content generalizing rest with
  | done => exact hopen rest
  | text data content ih =>
      have hdata : ∀ octet ∈ data.text, (octet != 0x3c) = true := by
        intro octet hmem
        refine bne_iff_ne.mpr ?_
        rintro rfl
        exact data.plain hmem
      rw [Content.render, List.append_assoc,
        List.takeWhile_append_of_pos hdata, ih]
      rfl
  | comment body content ih => exact hopen _
  | empty tag content ih => exact hopen _
  | element tag inner trailing content ih ih' => exact hopen _

theorem elementTexts_content (localName : Bytes) (content : Content)
    (rest : Bytes) :
    elementTexts localName none (content.render ++ rest) =
      textsOf localName content.opened ++
        elementTexts localName none rest := by
  induction content generalizing rest with
  | done => rfl
  | text data content ih =>
      rw [Content.render, List.append_assoc,
        Scanner.elementTexts_skip data.plain, ih]
      rfl
  | comment body content ih =>
      have hplain : (0x3e : UInt8) ∉ ascii "!--" ++ body.text ++ ascii "--" := by
        simp only [List.mem_append, not_or]
        exact ⟨⟨by decide, body.plain.2⟩, by decide⟩
      have hother : opensElement localName (ascii "!--" ++ body.text ++
          ascii "--") = false := opens_other (by decide) _
      rw [Content.render, List.cons_append, List.append_assoc,
        List.cons_append, Scanner.elementTexts_tag hplain, ih, hother]
      rfl
  | empty tag content ih =>
      have hplain : (0x3e : UInt8) ∉ tag.render ++ [0x2f] := by
        simp only [List.mem_append, not_or]
        exact ⟨tag.render_plain, by decide⟩
      rw [Content.render, List.cons_append, List.append_assoc,
        List.cons_append, Scanner.elementTexts_tag hplain, ih, opens_empty]
      rfl
  | element tag inner trailing content ih ih' =>
      have hclosing : (0x3e : UInt8) ∉ 0x2f :: (tag.name.render ++
          trailing.text) := by
        simp only [List.mem_cons, List.mem_append, not_or]
        refine ⟨by decide, fun h => (tag.name.render_octets h).2.1 rfl,
          fun h => (space_octet (trailing.spaces _ h)).2.2 rfl⟩
      have hother : opensElement localName (0x2f :: (tag.name.render ++
          trailing.text)) = false := opens_other (by decide) _
      have hrender : (Content.element tag inner trailing content).render ++
          rest = 0x3c :: (tag.render ++ 0x3e :: (inner.render ++
            0x3c :: ((0x2f :: (tag.name.render ++ trailing.text)) ++
              0x3e :: (content.render ++ rest)))) := by
        simp [Content.render]
      rw [hrender, Scanner.elementTexts_tag tag.render_plain,
        takeWhile_leading, ih, Scanner.elementTexts_tag hclosing, hother, ih',
        opens_tag]
      unfold textsOf
      simp only [Content.opened, List.filter_cons, List.filter_append]
      split <;> simp

/-! ## Words -/

def Listed (text word : Bytes) : Prop :=
  word ≠ [] ∧ (∀ octet ∈ word, isAsciiWhitespace octet = false) ∧
    ∃ before after, text = before ++ word ++ after ∧
      (∀ octet ∈ before.getLast?, isAsciiWhitespace octet = true) ∧
      ∀ octet ∈ after.head?, isAsciiWhitespace octet = true

theorem words_cut {space : UInt8} (h : isAsciiWhitespace space = true)
    (before after : Bytes) :
    words (before ++ space :: after) = words before ++ words after := by
  unfold words
  rw [List.map_append, List.map_cons, if_pos h, splitOn_append,
    List.filter_append]

theorem words_plain {word : Bytes} (hword : word ≠ [])
    (h : ∀ octet ∈ word, isAsciiWhitespace octet = false) :
    words word = [word] := by
  have hmap : (word.map fun octet =>
      if isAsciiWhitespace octet then 0x20 else octet) = word := by
    refine (List.map_congr_left ?_).trans (List.map_id word)
    intro octet hmem
    rw [h octet hmem]
    rfl
  have hfree : (0x20 : UInt8) ∉ word := fun hmem =>
    absurd (h _ hmem) (by decide)
  unfold words
  rw [hmap, splitOn_last hfree]
  simp [hword]

theorem words_spaces {spaces : Bytes}
    (h : spaces.all isAsciiWhitespace = true) : words spaces = [] := by
  induction spaces with
  | nil => rfl
  | cons space spaces ih =>
      rw [List.all_cons, Bool.and_eq_true] at h
      have hcut : words ([] ++ space :: spaces) = _ := words_cut h.1 [] spaces
      rw [List.nil_append] at hcut
      rw [hcut, ih h.2]
      rfl

theorem words_lead {spaces : Bytes}
    (h : spaces.all isAsciiWhitespace = true) (text : Bytes) :
    words (spaces ++ text) = words text := by
  induction spaces with
  | nil => rfl
  | cons space spaces ih =>
      rw [List.all_cons, Bool.and_eq_true] at h
      have hcut : words ([] ++ space :: (spaces ++ text)) = _ :=
        words_cut h.1 [] (spaces ++ text)
      rw [List.nil_append] at hcut
      rw [List.cons_append, hcut, ih h.2]
      rfl

theorem words_trim (text : Bytes) : words (trimAscii text) = words text := by
  obtain ⟨lead, trail, htext, hlead, htrail⟩ := trimAscii_split text
  conv_rhs => rw [htext]
  rw [List.append_assoc, words_lead hlead]
  cases trail with
  | nil => rw [List.append_nil]
  | cons space trail =>
      rw [List.all_cons, Bool.and_eq_true] at htrail
      rw [words_cut htrail.1, words_spaces htrail.2, List.append_nil]

theorem listed_words {text word : Bytes} (h : Listed text word) :
    word ∈ words text := by
  obtain ⟨hword, hplain, before, after, rfl, hbefore, hafter⟩ := h
  have hhere : word ∈ words (word ++ after) := by
    cases after with
    | nil => simp [words_plain hword hplain]
    | cons space after =>
        rw [words_cut (hafter space rfl), words_plain hword hplain]
        exact List.mem_append_left _ List.mem_cons_self
  rcases List.eq_nil_or_concat before with rfl | ⟨front, space, rfl⟩
  · exact hhere
  · have hspace : isAsciiWhitespace space = true := hbefore space (by simp)
    rw [List.concat_eq_append, List.append_assoc, List.append_assoc,
      List.singleton_append, words_cut hspace]
    exact List.mem_append_right _ hhere

theorem words_listed {text word : Bytes} (h : word ∈ words text) :
    Listed text word := by
  induction hlength : text.length using Nat.strong_induction_on
    generalizing text with
  | _ length ih =>
  subst hlength
  obtain ⟨back, htext, hback⟩ :=
    takeWhile_split (fun octet => !isAsciiWhitespace octet) text
  have hplain : ∀ octet ∈ text.takeWhile fun octet =>
      !isAsciiWhitespace octet, isAsciiWhitespace octet = false := by
    intro octet hmem
    simpa using List.mem_takeWhile_imp hmem
  generalize text.takeWhile (fun octet => !isAsciiWhitespace octet) = front
    at htext hplain
  subst htext
  have hfront : word ∈ words front → Listed (front ++ back) word := by
    intro hmem
    by_cases hempty : front = []
    · rw [hempty] at hmem
      cases hmem
    · rw [words_plain hempty hplain, List.mem_singleton] at hmem
      subst hmem
      refine ⟨hempty, hplain, [], back, rfl, by simp, ?_⟩
      intro octet hmem
      simpa using hback octet hmem
  cases back with
  | nil =>
      rw [List.append_nil] at h
      exact hfront h
  | cons space back =>
      have hspace : isAsciiWhitespace space = true := by
        simpa using hback space rfl
      rw [words_cut hspace, List.mem_append] at h
      rcases h with h | h
      · exact hfront h
      · obtain ⟨hword, hfree, before, after, rfl, hbefore, hafter⟩ :=
          ih back.length (by simp; omega) h rfl
        refine ⟨hword, hfree, front ++ space :: before, after, by simp, ?_,
          hafter⟩
        intro octet hlast
        rw [List.getLast?_append, List.getLast?_cons] at hlast
        cases hcase : before.getLast? with
        | none =>
            rw [hcase] at hlast
            cases hlast
            exact hspace
        | some last =>
            rw [hcase] at hlast
            cases hlast
            exact hbefore _ hcase

/-! ## Documents -/

theorem elementTexts_document (localName : Bytes) (document : Document) :
    elementTexts localName none document.render =
      textsOf localName document.content.opened := by
  have hcontent : elementTexts localName none document.content.render =
      textsOf localName document.content.opened := by
    have hscan := elementTexts_content localName document.content []
    rwa [List.append_nil, elementTexts, List.append_nil] at hscan
  unfold Document.render
  split
  · exact hcontent
  · rename_i declaration _
    have hplain : (0x3e : UInt8) ∉ 0x3f :: (declaration.text ++ [0x3f]) := by
      simp only [List.mem_cons, List.mem_append, not_or]
      exact ⟨by decide, declaration.plain.2, by decide⟩
    have hother : opensElement localName (0x3f :: (declaration.text ++
        [0x3f])) = false := opens_other (by decide) _
    rw [Scanner.elementTexts_tag hplain, hother, hcontent]
    rfl

/-- The elements of this local name that have contents of their own, in the
order of the document, and the text each begins with. -/
def elementsNamed (localName : Bytes) (document : Document) :
    List (Tag × Bytes) :=
  document.content.opened.filter fun element =>
    eqIgnoreAsciiCase element.1.name.localName.text localName

inductive Names : Bytes → WsdKind → Prop
  | hello : Names (ascii "Hello") .announcement
  | bye : Names (ascii "Bye") .announcement
  | probe : Names (ascii "Probe") .search
  | resolve : Names (ascii "Resolve") .search

theorem kindNamed_iff {segment : Bytes} {kind : WsdKind} :
    Scanner.kindNamed segment = some kind ↔ Names segment kind := by
  constructor
  · intro h
    unfold Scanner.kindNamed at h
    split at h
    · rename_i hnamed
      cases h
      rcases hnamed with rfl | rfl
      · exact .hello
      · exact .bye
    · split at h
      · rename_i hnamed
        cases h
        rcases hnamed with rfl | rfl
        · exact .probe
        · exact .resolve
      · cases h
  · intro h
    cases h <;> decide

theorem Names.nonempty {segment : Bytes} {kind : WsdKind}
    (h : Names segment kind) : segment ≠ [] := by
  cases h <;> decide

def Says (document : Document) (kind : WsdKind) : Prop :=
  ∃ tag text segment,
    (elementsNamed (ascii "Action") document).head? = some (tag, text) ∧
      LastSegment 0x2f (trimAscii text) segment ∧ Names segment kind

def Advertises (document : Document) (uri : Bytes) : Prop :=
  ∃ element ∈ elementsNamed (ascii "XAddrs") document, Listed element.2 uri

theorem classify_says {document : Document} {kind : WsdKind} :
    Scanner.classify document.render = .ok (some kind) ↔
      Says document kind := by
  have hclassify : classify document.render =
      (actionSegment document.render).bind Scanner.kindNamed := by
    unfold classify
    cases actionSegment document.render <;> rfl
  rw [Scanner.classify_agrees, Except.ok.injEq, hclassify,
    Option.bind_eq_some_iff]
  unfold actionSegment elementText Says
  rw [elementTexts_document, textsOf, List.head?_map]
  change (∃ segment, ((elementsNamed (ascii "Action") document).head?.map
    fun element => trimAscii element.2).bind _ = some segment ∧ _) ↔ _
  cases (elementsNamed (ascii "Action") document).head? with
  | none => simp
  | some element =>
      simp only [Option.map_some, Option.bind_some, Option.some.injEq,
        kindNamed_iff]
      constructor
      · rintro ⟨segment, hsegment, hnames⟩
        split at hsegment
        · cases hsegment
        · cases hsegment
          exact ⟨element.1, element.2, _, rfl, afterLast_iff.mp rfl, hnames⟩
      · rintro ⟨tag, text, segment, rfl, hlast, hnames⟩
        rw [afterLast_of hlast, if_neg hnames.nonempty]
        exact ⟨segment, rfl, hnames⟩

theorem listed_iff {document : Document} {uri : Bytes} :
    uri ∈ (elementTexts (ascii "XAddrs") none document.render).flatMap words ↔
      Advertises document uri := by
  rw [elementTexts_document, textsOf, List.mem_flatMap]
  constructor
  · rintro ⟨text, htext, huri⟩
    obtain ⟨element, helement, rfl⟩ := List.mem_map.mp htext
    rw [words_trim] at huri
    exact ⟨element, helement, words_listed huri⟩
  · rintro ⟨element, helement, huri⟩
    refine ⟨trimAscii element.2, List.mem_map.mpr ⟨element, helement, rfl⟩, ?_⟩
    rw [words_trim]
    exact listed_words huri

theorem unreachable_iff {uri : Bytes} :
    Scanner.unreachable uri = true ↔
      ∃ ip, HostLiteral uri ip ∧
        (isLinkLocal ip = true ∨ isNeverAPeer ip = true) := by
  unfold Scanner.unreachable
  rw [Option.any_eq_true]
  constructor
  · rintro ⟨ip, hip, h⟩
    exact ⟨ip, urlHostIp_iff.mp hip, (Bool.or_eq_true _ _).mp h⟩
  · rintro ⟨ip, hip, h⟩
    exact ⟨ip, urlHostIp_iff.mpr hip, (Bool.or_eq_true _ _).mpr h⟩

theorem unreachable_says {document : Document} :
    Scanner.advertisesOnlyUnreachable document.render = .ok true ↔
      (∃ uri, Advertises document uri) ∧
        ∀ uri, Advertises document uri → ∃ ip, HostLiteral uri ip ∧
          (isLinkLocal ip = true ∨ isNeverAPeer ip = true) := by
  rw [Scanner.unreachable_agrees, Except.ok.injEq]
  unfold advertisesOnlyUnreachable
  simp only [Bool.and_eq_true, List.all_eq_true, listed_iff]
  refine and_congr ?_ (forall₂_congr fun uri _ => unreachable_iff)
  simp only [← listed_iff]
  generalize (elementTexts (ascii "XAddrs") none document.render).flatMap
    words = uris
  cases uris with
  | nil => simp
  | cons uri uris => exact ⟨fun _ => ⟨uri, List.mem_cons_self⟩, fun _ => rfl⟩

/-- On a document the scanner answers for the tree, and on any bytes it
answers. -/
theorem scanner_agrees :
    (∀ (document : Document) (kind : WsdKind),
      Scanner.classify document.render = .ok (some kind) ↔
        Says document kind) ∧
    (∀ document : Document,
      Scanner.advertisesOnlyUnreachable document.render = .ok true ↔
        (∃ uri, Advertises document uri) ∧
          ∀ uri, Advertises document uri → ∃ ip, HostLiteral uri ip ∧
            (isLinkLocal ip = true ∨ isNeverAPeer ip = true)) ∧
    ∀ payload : Bytes,
      (∃ kind, Scanner.classify payload = .ok kind) ∧
        ∃ answer, Scanner.advertisesOnlyUnreachable payload = .ok answer :=
  ⟨fun _ _ => classify_says, fun _ => unreachable_says, fun payload =>
    ⟨⟨_, Scanner.classify_agrees payload⟩,
      ⟨_, Scanner.unreachable_agrees payload⟩⟩⟩

end Netflector.Net.Wsd
