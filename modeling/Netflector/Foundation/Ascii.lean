import Netflector.Foundation.Bytes

/-!
# ASCII text in byte strings

Case folding, trimming, splitting and number parsing as the wire protocols use
them.  Only the letters `A` to `Z` fold; every other octet stands for itself.
-/

namespace Netflector.Foundation

def ascii (text : String) : Bytes :=
  text.toList.map fun char => UInt8.ofNat char.toNat

def toAsciiLower (octet : UInt8) : UInt8 :=
  if 0x41 ≤ octet ∧ octet ≤ 0x5a then octet + 0x20 else octet

def asciiLower (bytes : Bytes) : Bytes := bytes.map toAsciiLower

def eqIgnoreAsciiCase (first second : Bytes) : Bool :=
  asciiLower first == asciiLower second

@[simp] theorem asciiLower_length (bytes : Bytes) :
    (asciiLower bytes).length = bytes.length := by
  simp [asciiLower]

theorem asciiLower_append (first second : Bytes) :
    asciiLower (first ++ second) = asciiLower first ++ asciiLower second :=
  List.map_append

theorem toAsciiLower_idem (octet : UInt8) :
    toAsciiLower (toAsciiLower octet) = toAsciiLower octet := by
  unfold toAsciiLower
  by_cases h : 0x41 ≤ octet ∧ octet ≤ 0x5a
  · rw [if_pos h, if_neg]
    simp only [UInt8.le_iff_toNat_le, UInt8.toNat_add] at h ⊢
    simp at h ⊢
    omega
  · rw [if_neg h, if_neg h]

theorem asciiLower_idem (bytes : Bytes) :
    asciiLower (asciiLower bytes) = asciiLower bytes := by
  simp [asciiLower, Function.comp_def, toAsciiLower_idem]

/-! ## Searching and splitting -/

def findSubslice (pattern : Bytes) : Bytes → Option Nat
  | [] => if pattern.isEmpty then some 0 else none
  | octet :: rest =>
      if pattern.isPrefixOf (octet :: rest) then some 0
      else (findSubslice pattern rest).map (· + 1)

theorem findSubslice_bound {pattern bytes : Bytes} {position : Nat}
    (h : findSubslice pattern bytes = some position) :
    position + pattern.length ≤ bytes.length := by
  induction bytes generalizing position with
  | nil =>
      simp only [findSubslice, List.isEmpty_iff] at h
      split at h
      · rename_i hempty
        cases h
        simp [hempty]
      · cases h
  | cons octet rest ih =>
      simp only [findSubslice] at h
      split at h
      · rename_i hhere
        cases h
        have := (List.isPrefixOf_iff_prefix.mp hhere).length_le
        omega
      · obtain ⟨next, hnext, rfl⟩ := Option.map_eq_some_iff.mp h
        have := ih hnext
        simp only [List.length_cons]
        omega

theorem findSubslice_append {pattern bytes : Bytes} {position : Nat}
    (h : findSubslice pattern bytes = some position) (more : Bytes) :
    findSubslice pattern (bytes ++ more) = some position := by
  induction bytes generalizing position with
  | nil =>
      simp only [findSubslice, List.isEmpty_iff] at h
      split at h
      · rename_i hempty
        cases h
        subst hempty
        cases more <;> simp [findSubslice]
      · cases h
  | cons octet rest ih =>
      simp only [findSubslice] at h
      simp only [List.cons_append, findSubslice]
      split at h
      · rename_i hhere
        cases h
        have hprefix := (List.isPrefixOf_iff_prefix.mp hhere).trans
          (List.prefix_append (octet :: rest) more)
        rw [List.cons_append] at hprefix
        rw [if_pos (List.isPrefixOf_iff_prefix.mpr hprefix)]
      · rename_i hnot
        obtain ⟨next, hnext, rfl⟩ := Option.map_eq_some_iff.mp h
        have hbound := findSubslice_bound hnext
        have hstill : ¬ pattern.isPrefixOf (octet :: (rest ++ more)) = true := by
          intro hlater
          apply hnot
          have hprefix := List.isPrefixOf_iff_prefix.mp hlater
          refine List.isPrefixOf_iff_prefix.mpr ?_
          exact List.prefix_of_prefix_length_le hprefix
            (List.prefix_append (octet :: rest) more) (by simp; omega)
        rw [if_neg hstill, ih hnext]
        rfl

/-- An occurrence that appears only with later bytes reaches into them. -/
theorem findSubslice_append_of_none {pattern bytes more : Bytes}
    {position : Nat} (hnone : findSubslice pattern bytes = none)
    (h : findSubslice pattern (bytes ++ more) = some position) :
    bytes.length < position + pattern.length := by
  induction bytes generalizing position with
  | nil =>
      simp only [findSubslice, List.isEmpty_iff] at hnone
      split at hnone
      · cases hnone
      · rename_i hpattern
        have := List.length_pos_iff.mpr hpattern
        simp only [List.length_nil]
        omega
  | cons octet rest ih =>
      simp only [findSubslice] at hnone
      simp only [List.cons_append, findSubslice] at h
      split at hnone
      · cases hnone
      rename_i hnot
      split at h
      · rename_i hhere
        cases h
        rcases Nat.lt_or_ge (octet :: rest).length pattern.length with hlt | hge
        · omega
        · have hprefix := List.isPrefixOf_iff_prefix.mp hhere
          exact absurd (List.isPrefixOf_iff_prefix.mpr
            (List.prefix_of_prefix_length_le hprefix
              (List.prefix_append (octet :: rest) more) hge)) hnot
      · obtain ⟨next, hnext, rfl⟩ := Option.map_eq_some_iff.mp h
        have hlater := ih (Option.map_eq_none_iff.mp hnone) hnext
        simp only [List.length_cons]
        omega

theorem findSubslice_isSome_iff {pattern bytes : Bytes} :
    (findSubslice pattern bytes).isSome = true ↔ pattern <:+: bytes := by
  induction bytes with
  | nil =>
      rw [findSubslice, List.infix_nil, ← List.isEmpty_iff]
      split
      · rename_i hempty
        simp [hempty]
      · rename_i hempty
        simp [hempty]
  | cons octet rest ih =>
      rw [findSubslice, List.infix_cons_iff, ← ih,
        ← List.isPrefixOf_iff_prefix]
      split
      · rename_i hhere
        simp [hhere]
      · rename_i hhere
        simp [hhere]

/-- A pattern found around a middle part lies on one side of it, where the
middle starts with an octet the pattern lacks and lacks its first. -/
theorem infix_beside {pattern front middle back : Bytes} {first start : UInt8}
    (hfirst : middle.head? = some first) (hlacks : first ∉ pattern)
    (hstart : pattern.head? = some start) (hnot : start ∉ middle)
    (h : pattern <:+: front ++ (middle ++ back)) :
    pattern <:+: front ∨ pattern <:+: back := by
  obtain ⟨before, after, heq⟩ := h
  rw [List.append_assoc] at heq
  rcases List.append_eq_append_iff.mp heq with
    ⟨rest, hfront, hrest⟩ | ⟨rest, hbefore, hrest⟩
  · -- It starts in front of the middle.
    left
    rcases List.append_eq_append_iff.mp hrest with
      ⟨more, hmore, hafter⟩ | ⟨more, hmore, hafter⟩
    · rw [hfront, hmore]
      exact ⟨before, more, by simp⟩
    · cases more with
      | nil =>
          rw [List.append_nil] at hmore
          rw [hfront, hmore]
          exact ⟨before, [], by simp⟩
      | cons octet more =>
          have hsame : some octet = some first := by
            have hhead := congrArg List.head? hafter
            rw [List.head?_append, hfirst] at hhead
            exact hhead.symm
          cases hsame
          refine absurd ?_ hlacks
          rw [hmore]
          simp
  · -- It starts in the middle or behind it.
    right
    rcases List.append_eq_append_iff.mp hrest with
      ⟨more, hmore, hback⟩ | ⟨more, hmore, hback⟩
    · exact ⟨more, after, by rw [hback]; simp⟩
    · cases more with
      | nil => exact ⟨[], after, by rw [List.nil_append] at hback; simp [hback]⟩
      | cons octet more =>
          have hsame : some octet = some start := by
            have hhead := congrArg List.head? hback
            rw [List.head?_append, hstart] at hhead
            exact hhead.symm
          cases hsame
          refine absurd ?_ hnot
          rw [hmore]
          simp

theorem findIdx?_split {octet : UInt8} {bytes : Bytes} {index : Nat}
    (h : bytes.findIdx? (· == octet) = some index) :
    ∃ before after, bytes = before ++ octet :: after ∧ octet ∉ before ∧
      index = before.length := by
  induction bytes generalizing index with
  | nil => cases h
  | cons first bytes ih =>
      rw [List.findIdx?_cons] at h
      split at h
      · rename_i hfirst
        cases h
        exact ⟨[], bytes, by rw [eq_of_beq hfirst]; rfl, by simp, rfl⟩
      · rename_i hfirst
        obtain ⟨found, hfound, rfl⟩ := Option.map_eq_some_iff.mp h
        obtain ⟨before, after, rfl, hnot, rfl⟩ := ih hfound
        refine ⟨first :: before, after, rfl, ?_, rfl⟩
        rw [List.mem_cons, not_or]
        exact ⟨fun heq => hfirst (beq_iff_eq.mpr heq.symm), hnot⟩

def splitOn (separator : UInt8) : Bytes → List Bytes
  | [] => [[]]
  | octet :: rest =>
      if octet = separator then [] :: splitOn separator rest
      else
        match splitOn separator rest with
        | [] => [[octet]]
        | first :: pieces => (octet :: first) :: pieces

theorem splitOn_nonempty (separator : UInt8) (text : Bytes) :
    splitOn separator text ≠ [] := by
  cases text with
  | nil => exact List.cons_ne_nil _ _
  | cons octet text =>
      rw [splitOn]
      split
      · exact List.cons_ne_nil _ _
      · split
        · exact List.cons_ne_nil _ _
        · exact List.cons_ne_nil _ _

theorem splitOn_word {separator : UInt8} {word : Bytes}
    (h : separator ∉ word) (rest : Bytes) :
    splitOn separator (word ++ (separator :: rest)) =
      word :: splitOn separator rest := by
  induction word with
  | nil => rw [List.nil_append, splitOn, if_pos rfl]
  | cons octet word ih =>
      rw [List.mem_cons, not_or] at h
      rw [List.cons_append, splitOn, if_neg (Ne.symm h.1), ih h.2]

theorem splitOn_last {separator : UInt8} {word : Bytes}
    (h : separator ∉ word) : splitOn separator word = [word] := by
  induction word with
  | nil => rfl
  | cons octet word ih =>
      rw [List.mem_cons, not_or] at h
      rw [splitOn, if_neg (Ne.symm h.1), ih h.2]

theorem intercalate_splitOn (separator : UInt8) (text : Bytes) :
    List.intercalate [separator] (splitOn separator text) = text := by
  induction text with
  | nil => rfl
  | cons octet text ih =>
      rw [splitOn]
      cases hpieces : splitOn separator text with
      | nil => exact absurd hpieces (splitOn_nonempty separator text)
      | cons piece pieces =>
          rw [hpieces] at ih
          split
          next heq => rw [List.intercalate_cons_cons, ih, heq]; rfl
          · cases pieces with
            | nil =>
                rw [List.intercalate_singleton] at ih ⊢
                rw [ih]
            | cons next pieces =>
                rw [List.intercalate_cons_cons] at ih ⊢
                rw [← ih]
                rfl

theorem splitOn_pieces {separator : UInt8} {text piece : Bytes}
    (h : piece ∈ splitOn separator text) : separator ∉ piece := by
  induction text generalizing piece with
  | nil =>
      rw [List.mem_singleton.mp h]
      exact List.not_mem_nil
  | cons octet text ih =>
      rw [splitOn] at h
      split at h
      · rcases List.mem_cons.mp h with rfl | hlater
        · exact List.not_mem_nil
        · exact ih hlater
      · rename_i hother
        split at h
        · rename_i hnone
          exact absurd hnone (splitOn_nonempty separator text)
        · rename_i first pieces hpieces
          rcases List.mem_cons.mp h with rfl | hlater
          · rw [List.mem_cons, not_or]
            exact ⟨fun heq => hother heq.symm,
              ih (hpieces ▸ List.mem_cons_self)⟩
          · exact ih (hpieces ▸ List.mem_cons_of_mem _ hlater)

def aroundPiece (separator : UInt8) (before : List Bytes) (piece : Bytes)
    (after : List Bytes) : Bytes :=
  before.flatMap (· ++ [separator]) ++
    (piece ++ after.flatMap (separator :: ·))

theorem splitOn_around {separator : UInt8} {before after : List Bytes}
    {piece : Bytes}
    (h : ∀ part ∈ before ++ piece :: after, separator ∉ part) :
    splitOn separator (aroundPiece separator before piece after) =
      before ++ piece :: after := by
  induction before with
  | nil =>
      simp only [aroundPiece, List.flatMap_nil, List.nil_append] at h ⊢
      induction after generalizing piece with
      | nil =>
          rw [List.flatMap_nil, List.append_nil]
          exact splitOn_last (h piece List.mem_cons_self)
      | cons next after ih =>
          rw [List.flatMap_cons, List.cons_append,
            splitOn_word (h piece List.mem_cons_self),
            ih fun part hmem => h part (List.mem_cons_of_mem _ hmem)]
  | cons first before ih =>
      have hsplit : aroundPiece separator (first :: before) piece after =
          first ++ (separator :: aroundPiece separator before piece after) := by
        simp [aroundPiece]
      rw [hsplit, splitOn_word (h first List.mem_cons_self),
        ih fun part hmem => h part (List.mem_cons_of_mem _ hmem)]
      rfl

theorem around_of_splitOn {separator : UInt8} {text piece : Bytes}
    {before after : List Bytes}
    (h : splitOn separator text = before ++ piece :: after) :
    text = aroundPiece separator before piece after := by
  have hpieces : ∀ part ∈ before ++ piece :: after, separator ∉ part := by
    intro part hmem
    rw [← h] at hmem
    exact splitOn_pieces hmem
  rw [← intercalate_splitOn separator text, h, ← splitOn_around hpieces,
    intercalate_splitOn]

/-! ## Trimming and numbers -/

def isAsciiWhitespace (octet : UInt8) : Bool :=
  octet ∈ [0x20, 0x09, 0x0a, 0x0c, 0x0d]

def trimAsciiStart (bytes : Bytes) : Bytes :=
  bytes.dropWhile isAsciiWhitespace

def trimAsciiEnd (bytes : Bytes) : Bytes :=
  (bytes.reverse.dropWhile isAsciiWhitespace).reverse

def trimAscii (bytes : Bytes) : Bytes := trimAsciiEnd (trimAsciiStart bytes)

theorem trimAscii_split (bytes : Bytes) : ∃ lead trail,
    bytes = lead ++ trimAscii bytes ++ trail ∧
      lead.all isAsciiWhitespace ∧ trail.all isAsciiWhitespace := by
  refine ⟨bytes.takeWhile isAsciiWhitespace,
    ((trimAsciiStart bytes).reverse.takeWhile isAsciiWhitespace).reverse,
    ?_, ?_, ?_⟩
  · have hend : trimAscii bytes ++ ((trimAsciiStart bytes).reverse.takeWhile
        isAsciiWhitespace).reverse = trimAsciiStart bytes := by
      rw [trimAscii, trimAsciiEnd, ← List.reverse_append,
        List.takeWhile_append_dropWhile, List.reverse_reverse]
    rw [List.append_assoc, hend, trimAsciiStart,
      List.takeWhile_append_dropWhile]
  · exact List.all_takeWhile
  · rw [List.all_reverse]
    exact List.all_takeWhile

def digitValue (octet : UInt8) : Option Nat :=
  if 0x30 ≤ octet ∧ octet ≤ 0x39 then some (octet.toNat - 0x30)
  else if 0x61 ≤ octet ∧ octet ≤ 0x66 then some (octet.toNat - 0x61 + 10)
  else if 0x41 ≤ octet ∧ octet ≤ 0x46 then some (octet.toNat - 0x41 + 10)
  else none

def isDigit (radix : Nat) (octet : UInt8) : Bool :=
  (digitValue octet).any (· < radix)

def digitsValue (radix : Nat) (digits : Bytes) : Nat :=
  digits.foldl
    (fun value octet => value * radix + (digitValue octet).getD 0) 0

/-- An unsigned number below `limit`, with an optional plus sign. -/
def parseUnsigned (radix limit : Nat) (bytes : Bytes) : Option Nat :=
  let digits := if bytes.head? = some 0x2b then bytes.drop 1 else bytes
  if digits ≠ [] ∧ digits.all (isDigit radix) ∧
      digitsValue radix digits < limit then
    some (digitsValue radix digits)
  else none

/-- Least significant digit first, at most `fuel` digits. -/
def reverseDecimal : Nat → Nat → Bytes
  | 0, _ => []
  | fuel + 1, value =>
      UInt8.ofNat (0x30 + value % 10) ::
        if value < 10 then [] else reverseDecimal fuel (value / 10)

def decimal (value : Nat) : Bytes :=
  (reverseDecimal (value + 1) value).reverse

end Netflector.Foundation
