import Netflector.Foundation.Ascii

/-!
# XML documents

Trees of elements, texts and comments, and how they are written.  What is in a
part keeps out the octets that would end it.
-/

namespace Netflector.Net.Xml

open Netflector.Foundation

/-! ## Names and tags -/

structure Spaces where
  text : Bytes
  spaces : ∀ octet ∈ text, octet ∈ [0x20, 0x09, 0x0a, 0x0d]

def isNameOctet (octet : UInt8) : Bool :=
  !isAsciiWhitespace octet &&
    octet ∉ [0x3c, 0x3e, 0x2f, 0x3a, 0x21, 0x3f, 0x3d, 0x22, 0x27]

structure Word where
  text : Bytes
  nonempty : text ≠ []
  octets : ∀ octet ∈ text, isNameOctet octet = true

structure Name where
  qualifier : Option Word
  localName : Word

def Name.render (name : Name) : Bytes :=
  match name.qualifier with
  | none => name.localName.text
  | some qualifier => qualifier.text ++ 0x3a :: name.localName.text

structure Attribute where
  before : Spaces
  apart : before.text ≠ []
  name : Name
  gap : Spaces
  space : Spaces
  quote : UInt8
  quotes : quote = 0x22 ∨ quote = 0x27
  value : Bytes
  plain : 0x3c ∉ value ∧ 0x3e ∉ value ∧ quote ∉ value

def Attribute.render (attr : Attribute) : Bytes :=
  attr.before.text ++ attr.name.render ++ attr.gap.text ++
    0x3d :: (attr.space.text ++
      attr.quote :: (attr.value ++ [attr.quote]))

structure Tag where
  name : Name
  attrs : List Attribute
  trailing : Spaces

def Tag.rest (tag : Tag) : Bytes :=
  tag.attrs.flatMap Attribute.render ++ tag.trailing.text

def Tag.render (tag : Tag) : Bytes := tag.name.render ++ tag.rest

/-! ## Contents -/

structure CharData where
  text : Bytes
  plain : 0x3c ∉ text

structure Remark where
  text : Bytes
  plain : 0x3c ∉ text ∧ 0x3e ∉ text

/-- What stands in a document or in an element, from the front.  An `empty`
element is closed in its own tag. -/
inductive Content where
  | done
  | text (data : CharData) (rest : Content)
  | comment (body : Remark) (rest : Content)
  | empty (tag : Tag) (rest : Content)
  | element (tag : Tag) (content : Content) (trailing : Spaces)
      (rest : Content)

namespace Content

def render : Content → Bytes
  | .done => []
  | .text data rest => data.text ++ rest.render
  | .comment body rest =>
      0x3c :: ((ascii "!--" ++ body.text ++ ascii "--") ++ 0x3e :: rest.render)
  | .empty tag rest => 0x3c :: ((tag.render ++ [0x2f]) ++ 0x3e :: rest.render)
  | .element tag content trailing rest =>
      0x3c :: (tag.render ++ 0x3e :: (content.render ++
        0x3c :: ((0x2f :: (tag.name.render ++ trailing.text)) ++
          0x3e :: rest.render)))

def leading : Content → Bytes
  | .text data rest => data.text ++ rest.leading
  | _ => []

/-- The elements that have contents of their own, in the order of their tags,
and the text each begins with. -/
def opened : Content → List (Tag × Bytes)
  | .done => []
  | .text _ rest => rest.opened
  | .comment _ rest => rest.opened
  | .empty _ rest => rest.opened
  | .element tag content _ rest =>
      (tag, content.leading) :: (content.opened ++ rest.opened)

end Content

structure Document where
  declaration : Option Remark
  content : Content

def Document.render (document : Document) : Bytes :=
  match document.declaration with
  | none => document.content.render
  | some declaration =>
      0x3c :: ((0x3f :: (declaration.text ++ [0x3f])) ++
        0x3e :: document.content.render)

/-! ## Their octets -/

theorem space_octet {octet : UInt8} (h : octet ∈ [0x20, 0x09, 0x0a, 0x0d]) :
    isAsciiWhitespace octet = true ∧ octet ≠ 0x2f ∧ octet ≠ 0x3e := by
  simp only [List.mem_cons, List.not_mem_nil, or_false] at h
  rcases h with rfl | rfl | rfl | rfl <;> decide

theorem name_octet {octet : UInt8} (h : isNameOctet octet = true) :
    isAsciiWhitespace octet = false ∧ octet ≠ 0x3c ∧ octet ≠ 0x3e ∧
      octet ≠ 0x2f ∧ octet ≠ 0x3a ∧ octet ≠ 0x21 ∧ octet ≠ 0x3f := by
  simp only [isNameOctet, Bool.and_eq_true, Bool.not_eq_true',
    decide_eq_true_eq, List.mem_cons, List.not_mem_nil, or_false,
    not_or] at h
  exact ⟨h.1, h.2.1, h.2.2.1, h.2.2.2.1, h.2.2.2.2.1, h.2.2.2.2.2.1,
    h.2.2.2.2.2.2.1⟩

namespace Name

variable (name : Name)

theorem render_octets {octet : UInt8} (h : octet ∈ name.render) :
    isAsciiWhitespace octet = false ∧ octet ≠ 0x3e ∧ octet ≠ 0x2f ∧
      octet ≠ 0x21 ∧ octet ≠ 0x3f := by
  have hword : ∀ word : Word, octet ∈ word.text →
      isAsciiWhitespace octet = false ∧ octet ≠ 0x3e ∧ octet ≠ 0x2f ∧
        octet ≠ 0x21 ∧ octet ≠ 0x3f := by
    intro word hmem
    obtain ⟨hspace, _, hclose, hslash, _, hbang, hquestion⟩ :=
      name_octet (word.octets octet hmem)
    exact ⟨hspace, hclose, hslash, hbang, hquestion⟩
  unfold render at h
  split at h
  · exact hword _ h
  · rcases List.mem_append.mp h with h | h
    · exact hword _ h
    · rcases List.mem_cons.mp h with rfl | h
      · decide
      · exact hword _ h

theorem render_ne_nil : name.render ≠ [] := by
  unfold render
  split
  · exact name.localName.nonempty
  · simp

end Name

theorem Attribute.render_plain (attr : Attribute) :
    0x3e ∉ attr.render := by
  intro h
  have hspaces : ∀ spaces : Spaces, (0x3e : UInt8) ∉ spaces.text :=
    fun spaces hmem => (space_octet (spaces.spaces _ hmem)).2.2 rfl
  simp only [render, List.mem_append, List.mem_cons, List.not_mem_nil,
    or_false] at h
  rcases h with ((h | h) | h) | h | h | h | h | h
  · exact hspaces _ h
  · exact (attr.name.render_octets h).2.1 rfl
  · exact hspaces _ h
  · cases h
  · exact hspaces _ h
  · rcases attr.quotes with hquote | hquote <;>
      · rw [hquote] at h
        cases h
  · exact attr.plain.2.1 h
  · rcases attr.quotes with hquote | hquote <;>
      · rw [hquote] at h
        cases h

theorem Attribute.render_last (attr : Attribute) :
    attr.render.getLast? = some attr.quote := by
  have hconcat : attr.render = (attr.before.text ++ attr.name.render ++
      attr.gap.text ++ 0x3d :: (attr.space.text ++
        attr.quote :: attr.value)) ++ [attr.quote] := by
    simp [render]
  rw [hconcat, List.getLast?_concat]

namespace Tag

variable (tag : Tag)

theorem rest_plain : 0x3e ∉ tag.rest := by
  intro h
  rcases List.mem_append.mp h with h | h
  · obtain ⟨attr, _, hmem⟩ := List.mem_flatMap.mp h
    exact attr.render_plain hmem
  · exact (space_octet (tag.trailing.spaces _ h)).2.2 rfl

theorem render_plain : 0x3e ∉ tag.render := by
  intro h
  rcases List.mem_append.mp h with h | h
  · exact (tag.name.render_octets h).2.1 rfl
  · exact tag.rest_plain h

theorem rest_head : ∀ octet ∈ tag.rest.head?,
    isAsciiWhitespace octet = true := by
  intro octet h
  unfold rest at h
  cases hattributes : tag.attrs with
  | nil =>
      rw [hattributes] at h
      exact (space_octet (tag.trailing.spaces octet
        (List.mem_of_mem_head? h))).1
  | cons attr attrs =>
      rw [hattributes] at h
      cases hbefore : attr.before.text with
      | nil => exact absurd hbefore attr.apart
      | cons first before =>
          simp only [List.flatMap_cons, Attribute.render, hbefore,
            List.cons_append, List.append_assoc, List.head?_cons,
            Option.mem_def, Option.some.injEq] at h
          subst h
          refine (space_octet (attr.before.spaces first ?_)).1
          rw [hbefore]
          exact List.mem_cons_self

theorem render_last : tag.render.getLast? ≠ some 0x2f := by
  intro h
  unfold render rest at h
  rw [← List.append_assoc, List.getLast?_append] at h
  cases htrailing : tag.trailing.text.getLast? with
  | some last =>
      rw [htrailing, Option.some_or] at h
      cases h
      exact (space_octet (tag.trailing.spaces _
        (List.mem_of_getLast? htrailing))).2.1 rfl
  | none =>
      rw [htrailing, Option.none_or, List.getLast?_append] at h
      rcases List.eq_nil_or_concat tag.attrs with hnil |
        ⟨front, attr, hconcat⟩
      · rw [hnil, List.flatMap_nil, List.getLast?_nil, Option.none_or] at h
        exact (tag.name.render_octets (List.mem_of_getLast? h)).2.2.1 rfl
      · have hlast : (tag.attrs.flatMap Attribute.render).getLast? =
            some attr.quote := by
          rw [hconcat, List.concat_eq_append, List.flatMap_append,
            List.getLast?_append]
          simp [attr.render_last]
        rw [hlast, Option.some_or] at h
        rcases attr.quotes with hquote | hquote <;>
          · rw [hquote] at h
            cases h

end Tag

end Netflector.Net.Xml
