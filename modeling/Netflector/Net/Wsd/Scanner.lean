import Mathlib.Data.List.TakeWhile
import Netflector.Foundation.Result
import Netflector.Net.Wsd

/-!
# The scan by slices

The scanner as it is written: each search returns a position and every slice
is cut there.  A slice out of range would panic.  `elementTexts` is what it
computes, one octet at a time.
-/

namespace Netflector.Net.Wsd.Scanner

open Netflector.Foundation
open Netflector.Net.Http

def sliceFrom (bytes : Bytes) (start : Nat) : Except Panic Bytes :=
  if start ≤ bytes.length then .ok (bytes.drop start) else .error .outOfRange

def splitAt (bytes : Bytes) (mid : Nat) : Except Panic (Bytes × Bytes) :=
  if mid ≤ bytes.length then .ok (bytes.take mid, bytes.drop mid)
  else .error .outOfRange

theorem sliceFrom_le {bytes part : Bytes} {start : Nat}
    (h : sliceFrom bytes start = .ok part) :
    part.length + start = bytes.length := by
  unfold sliceFrom at h
  split at h
  · cases h
    rw [List.length_drop]
    omega
  · cases h

theorem splitAt_le {bytes : Bytes} {mid : Nat} {parts : Bytes × Bytes}
    (h : splitAt bytes mid = .ok parts) :
    parts.2.length + mid = bytes.length := by
  unfold splitAt at h
  split at h
  · cases h
    rw [List.length_drop]
    omega
  · cases h

/-- The tag behind the first `<`, what it holds and what follows it; `none`
where no tag is left. -/
def nextTag (payload : Bytes) : Except Panic (Option (Bytes × Bytes)) :=
  match payload.findIdx? (· == 0x3c) with
  | none => .ok none
  | some opening => do
      let rest ← sliceFrom payload (opening + 1)
      match rest.findIdx? (· == 0x3e) with
      | none => .ok none
      | some closing => do
          let parts ← splitAt rest closing
          let after ← sliceFrom parts.2 1
          .ok (some (parts.1, after))

theorem nextTag_shorter {payload tag after : Bytes}
    (h : nextTag payload = .ok (some (tag, after))) :
    after.length + 2 ≤ payload.length := by
  unfold nextTag at h
  split at h
  · cases h
  obtain ⟨rest, hrest, h⟩ := except_bind_ok h
  split at h
  · cases h
  obtain ⟨parts, hparts, h⟩ := except_bind_ok h
  obtain ⟨behind, hbehind, h⟩ := except_bind_ok h
  cases h
  have hfirst := sliceFrom_le hrest
  have hsecond := splitAt_le hparts
  have hthird := sliceFrom_le hbehind
  omega

def elementText (localName payload : Bytes) :
    Except Panic (Option (Bytes × Bytes)) :=
  match h : nextTag payload with
  | .error panic => .error panic
  | .ok none => .ok none
  | .ok (some (tag, rest)) =>
      if opensElement localName tag then do
        let stop := (rest.findIdx? (· == 0x3c)).getD rest.length
        let parts ← splitAt rest stop
        .ok (some (trimAscii parts.1, parts.2))
      else elementText localName rest
termination_by payload.length
decreasing_by
  have hshorter := nextTag_shorter h
  omega

theorem elementText_eq (localName payload : Bytes) :
    elementText localName payload = nextTag payload >>= fun next =>
      match next with
      | none => .ok none
      | some (tag, rest) =>
          if opensElement localName tag then do
            let stop := (rest.findIdx? (· == 0x3c)).getD rest.length
            let parts ← splitAt rest stop
            .ok (some (trimAscii parts.1, parts.2))
          else elementText localName rest := by
  rw [elementText]
  split
  · rename_i hnext
    rw [hnext]
    rfl
  · rename_i hnext
    rw [hnext]
    rfl
  · rename_i hnext
    rw [hnext]
    rfl

/-! ## No slice is out of range -/

section Texts

variable {localName : Bytes}

theorem elementTexts_skip {before : Bytes} (h : 0x3c ∉ before)
    (rest : Bytes) :
    elementTexts localName none (before ++ rest) =
      elementTexts localName none rest := by
  induction before with
  | nil => rfl
  | cons octet before ih =>
      rw [List.mem_cons, not_or] at h
      rw [List.cons_append, elementTexts, if_neg (Ne.symm h.1), ih h.2]

theorem elementTexts_open {body : Bytes} (h : 0x3e ∉ body)
    (tag rest : Bytes) :
    elementTexts localName (some tag) (body ++ rest) =
      elementTexts localName (some (tag ++ body)) rest := by
  induction body generalizing tag with
  | nil => rw [List.append_nil, List.nil_append]
  | cons octet body ih =>
      rw [List.mem_cons, not_or] at h
      rw [List.cons_append, elementTexts, if_pos (Ne.symm h.1), ih h.2,
        List.append_assoc, List.singleton_append]

theorem elementTexts_tag {body : Bytes} (h : 0x3e ∉ body) (rest : Bytes) :
    elementTexts localName none (0x3c :: (body ++ 0x3e :: rest)) =
      (if opensElement localName body then
        [trimAscii (rest.takeWhile (· != 0x3c))] else []) ++
        elementTexts localName none rest := by
  rw [elementTexts, if_pos rfl, elementTexts_open h, List.nil_append,
    elementTexts]
  simp only [ne_eq, not_true_eq_false, if_false]
  split <;> rfl

theorem elementTexts_unclosed {rest : Bytes} (h : 0x3e ∉ rest)
    (tag : Bytes) : elementTexts localName (some tag) rest = [] := by
  have hopen : elementTexts localName (some tag) (rest ++ []) = _ :=
    elementTexts_open h tag []
  rw [List.append_nil] at hopen
  rw [hopen]
  rfl

theorem nextTag_texts (payload : Bytes) :
    (nextTag payload = .ok none ∧
      elementTexts localName none payload = []) ∨
    ∃ tag after, nextTag payload = .ok (some (tag, after)) ∧
      elementTexts localName none payload =
        (if opensElement localName tag then
          [trimAscii (after.takeWhile (· != 0x3c))] else []) ++
          elementTexts localName none after := by
  unfold nextTag
  cases hopening : payload.findIdx? (· == 0x3c) with
  | none =>
      have hnot : (0x3c : UInt8) ∉ payload := by
        rw [List.findIdx?_eq_none_iff] at hopening
        intro hmem
        simpa using hopening _ hmem
      have hskip : elementTexts localName none (payload ++ []) = _ :=
        elementTexts_skip hnot []
      rw [List.append_nil] at hskip
      exact .inl ⟨rfl, hskip⟩
  | some opening =>
      obtain ⟨before, rest, rfl, hnot, rfl⟩ := findIdx?_split hopening
      have hrest : sliceFrom (before ++ 0x3c :: rest) (before.length + 1) =
          .ok rest := by
        rw [sliceFrom, if_pos (by simp)]
        simp
      simp only [hrest, bind, Except.bind]
      rw [elementTexts_skip hnot]
      cases hclosing : rest.findIdx? (· == 0x3e) with
      | none =>
          have hopen : (0x3e : UInt8) ∉ rest := by
            rw [List.findIdx?_eq_none_iff] at hclosing
            intro hmem
            simpa using hclosing _ hmem
          refine .inl ⟨rfl, ?_⟩
          rw [elementTexts, if_pos rfl, elementTexts_unclosed hopen]
      | some closing =>
          obtain ⟨body, after, rfl, hbody, rfl⟩ := findIdx?_split hclosing
          refine .inr ⟨body, after, ?_, elementTexts_tag hbody after⟩
          simp [splitAt, sliceFrom]

theorem cut_takeWhile (bytes : Bytes) :
    (bytes.findIdx? (· == 0x3c)).getD bytes.length =
      (bytes.takeWhile (· != 0x3c)).length := by
  induction bytes with
  | nil => rfl
  | cons octet bytes ih =>
      rw [List.findIdx?_cons, List.takeWhile_cons]
      by_cases hoctet : octet = 0x3c
      · simp [hoctet]
      · cases hrest : bytes.findIdx? (· == 0x3c) with
        | none =>
            rw [hrest] at ih
            simp [hoctet, ← ih]
        | some index =>
            rw [hrest] at ih
            simp [hoctet, ← ih]

end Texts

theorem elementText_texts (localName payload : Bytes) :
    (elementText localName payload = .ok none ∧
      elementTexts localName none payload = []) ∨
    ∃ text after, elementText localName payload = .ok (some (text, after)) ∧
      elementTexts localName none payload =
        text :: elementTexts localName none after ∧
      after.length < payload.length := by
  rw [elementText_eq]
  rcases nextTag_texts payload with ⟨hnext, htexts⟩ |
    ⟨tag, rest, hnext, htexts⟩
  · rw [hnext]
    exact .inl ⟨rfl, htexts⟩
  have hshorter := nextTag_shorter hnext
  rw [hnext, htexts]
  simp only [bind, Except.bind]
  by_cases hopens : opensElement localName tag = true
  · have hstop := cut_takeWhile rest
    have hparts : rest.takeWhile (· != 0x3c) ++ rest.dropWhile (· != 0x3c) =
        rest := List.takeWhile_append_dropWhile
    have htake : rest.take (rest.takeWhile (· != 0x3c)).length =
        rest.takeWhile (· != 0x3c) :=
      (List.prefix_iff_eq_take.mp (List.takeWhile_prefix _)).symm
    have hdrop : rest.drop (rest.takeWhile (· != 0x3c)).length =
        rest.dropWhile (· != 0x3c) := by
      have hboth := List.take_append_drop
        (rest.takeWhile (· != 0x3c)).length rest
      rw [htake] at hboth
      exact List.append_cancel_left (hboth.trans hparts.symm)
    have hlength := congrArg List.length hparts
    rw [List.length_append] at hlength
    refine .inr ⟨trimAscii (rest.takeWhile (· != 0x3c)),
      rest.dropWhile (· != 0x3c), ?_, ?_, by omega⟩
    · rw [if_pos hopens, hstop, splitAt, if_pos (by omega), htake, hdrop]
    · rw [if_pos hopens, List.singleton_append]
      congr 1
      conv_lhs => rw [← hparts]
      refine elementTexts_skip ?_ _
      intro hmem
      simpa using List.mem_takeWhile_imp hmem
  · rw [if_neg hopens, if_neg hopens, List.nil_append]
    rcases elementText_texts localName rest with hnone | ⟨text, after, htext, hafter,
      hless⟩
    · exact .inl hnone
    · exact .inr ⟨text, after, htext, hafter, by omega⟩
termination_by payload.length

theorem elementText_shorter {localName payload text after : Bytes}
    (h : elementText localName payload = .ok (some (text, after))) :
    after.length < payload.length := by
  rcases elementText_texts localName payload with ⟨hnone, _⟩ |
    ⟨found, rest, hfound, _, hless⟩
  · rw [h] at hnone
    cases hnone
  · rw [h] at hfound
    cases hfound
    exact hless

/-! ## The classifier -/

def kindNamed (segment : Bytes) : Option WsdKind :=
  if segment = ascii "Hello" ∨ segment = ascii "Bye" then some .announcement
  else if segment = ascii "Probe" ∨ segment = ascii "Resolve" then
    some .search
  else none

def actionSegment (payload : Bytes) : Except Panic (Option Bytes) := do
  let found ← elementText (ascii "Action") payload
  .ok (found.bind fun parts =>
    let segment := afterLast 0x2f parts.1
    if segment = [] then none else some segment)

def classify (payload : Bytes) : Except Panic (Option WsdKind) := do
  let segment ← actionSegment payload
  .ok (segment.bind kindNamed)

/-- Whether the URIs leave the answer open; `false` ends the loop. -/
def checkUris (sawIp : Bool) : List Bytes → Option Bool
  | [] => some sawIp
  | uri :: rest =>
      if (urlHostIp uri).any fun ip => isLinkLocal ip || isNeverAPeer ip then
        checkUris true rest
      else none

def unreachableFrom (sawIp : Bool) (payload : Bytes) : Except Panic Bool :=
  match _found : elementText (ascii "XAddrs") payload with
  | .error panic => .error panic
  | .ok none => .ok sawIp
  | .ok (some (text, after)) =>
      match checkUris sawIp (words text) with
      | none => .ok false
      | some sawIp => unreachableFrom sawIp after
termination_by payload.length
decreasing_by exact elementText_shorter _found

def advertisesOnlyUnreachable (payload : Bytes) : Except Panic Bool :=
  unreachableFrom false payload

theorem unreachableFrom_eq (sawIp : Bool) (payload : Bytes) :
    unreachableFrom sawIp payload =
      elementText (ascii "XAddrs") payload >>= fun found =>
        match found with
        | none => .ok sawIp
        | some (text, after) =>
            match checkUris sawIp (words text) with
            | none => .ok false
            | some sawIp => unreachableFrom sawIp after := by
  rw [unreachableFrom]
  split
  · rename_i hfound
    rw [hfound]
    rfl
  · rename_i hfound
    rw [hfound]
    rfl
  · rename_i hfound
    rw [hfound]
    rfl

/-! ## It is the scan by octets -/

theorem classify_agrees (payload : Bytes) :
    classify payload = .ok (Wsd.classify payload) := by
  have hsegment : actionSegment payload = .ok (Wsd.actionSegment payload) := by
    unfold actionSegment Wsd.actionSegment Wsd.elementText
    rcases elementText_texts (ascii "Action") payload with ⟨hfound, htexts⟩ |
      ⟨text, after, hfound, htexts, _⟩
    · rw [hfound, htexts]
      rfl
    · rw [hfound, htexts]
      rfl
  unfold classify Wsd.classify
  rw [hsegment]
  cases Wsd.actionSegment payload with
  | none => rfl
  | some segment => rfl

def unreachable (uri : Bytes) : Bool :=
  (urlHostIp uri).any fun ip => isLinkLocal ip || isNeverAPeer ip

theorem checkUris_eq (sawIp : Bool) (uris : List Bytes) :
    checkUris sawIp uris =
      if uris.all unreachable then some (sawIp || !uris.isEmpty)
      else none := by
  induction uris generalizing sawIp with
  | nil => simp [checkUris]
  | cons uri uris ih =>
      by_cases huri : unreachable uri = true
      · have htest : ((urlHostIp uri).any fun ip =>
            isLinkLocal ip || isNeverAPeer ip) = true := huri
        rw [checkUris, if_pos htest, ih]
        simp [huri]
      · have htest : ¬ ((urlHostIp uri).any fun ip =>
            isLinkLocal ip || isNeverAPeer ip) = true := huri
        rw [checkUris, if_neg htest]
        simp [huri]

theorem unreachableFrom_texts (sawIp : Bool) (payload : Bytes) :
    unreachableFrom sawIp payload =
      .ok (((elementTexts (ascii "XAddrs") none payload).flatMap words).all
        unreachable && (sawIp ||
          !((elementTexts (ascii "XAddrs") none payload).flatMap
            words).isEmpty)) := by
  rw [unreachableFrom_eq]
  rcases elementText_texts (ascii "XAddrs") payload with ⟨hfound, htexts⟩ |
    ⟨text, after, hfound, htexts, hless⟩
  · rw [hfound, htexts]
    simp [bind, Except.bind]
  · rw [hfound, htexts]
    have hempty : ∀ first rest : List Bytes, (first ++ rest).isEmpty =
        (first.isEmpty && rest.isEmpty) := by
      intro first rest
      cases first <;> rfl
    simp only [bind, Except.bind, checkUris_eq, List.flatMap_cons,
      List.all_append, hempty]
    by_cases hall : (words text).all unreachable = true
    · rw [if_pos hall]
      simp only
      rw [unreachableFrom_texts, hall, Bool.true_and, Bool.not_and,
        Bool.or_assoc]
    · rw [if_neg hall]
      simp [hall]
termination_by payload.length

theorem unreachable_agrees (payload : Bytes) :
    advertisesOnlyUnreachable payload =
      .ok (Wsd.advertisesOnlyUnreachable payload) := by
  rw [advertisesOnlyUnreachable, unreachableFrom_texts, Bool.false_or,
    Bool.and_comm]
  rfl

end Netflector.Net.Wsd.Scanner
