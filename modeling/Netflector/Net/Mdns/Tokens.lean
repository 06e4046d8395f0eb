import Netflector.Foundation.Weight
import Netflector.Net.Mdns.Layout

/-!
# The tokens of names

The octets in place of a name are labels and an end: a terminator or a
pointer.  A message is properly compressed when the pointers its names follow
land where a label or an end of some name begins.
-/

namespace Netflector.Net.Mdns

open Netflector.Foundation

/-! ## Where pointers land -/

inductive TokenIn (payload : Bytes) : Nat → Nat → Prop
  | here {offset : Nat} : TokenIn payload offset offset
  | next {offset place : Nat} {len : UInt8} :
      payload[offset]? = some len → labelTag len = .plain →
      TokenIn payload (offset + 1 + len.toNat) place →
      TokenIn payload offset place

def Token (payload : Bytes) (walked : List Entry) (place : Nat) : Prop :=
  ∃ entry ∈ walked, ∃ offset ∈ entry.nameOffsets payload,
    TokenIn payload offset place

/-- Every name of `entry` is walkable, and the pointers it follows land on
tokens of names. -/
structure Entry.Proper (payload : Bytes) (walked : List Entry)
    (entry : Entry) : Prop where
  walkable : ∀ offset ∈ entry.nameOffsets payload,
    ∃ labels, Readable payload offset labels
  lands : ∀ offset ∈ entry.nameOffsets payload, ∀ place len low,
    OnWalk payload offset place → payload[place]? = some len →
    labelTag len = .pointer → payload[place + 1]? = some low →
    Token payload walked (pointerTarget len low)

/-- The octets in place of every name of `entry` end inside it. -/
def Entry.Enclosed (payload : Bytes) (entry : Entry) : Prop :=
  ∀ offset ∈ entry.nameOffsets payload, ∀ stop,
    Inline payload offset stop → stop ≤ entry.stop

section Tokens

variable {payload : Bytes} {walked : List Entry}

theorem TokenIn.onWalk {offset place : Nat}
    (h : TokenIn payload offset place) : OnWalk payload offset place := by
  induction h with
  | here => exact .here
  | next hlen htag _ ih => exact .label hlen htag ih

theorem TokenIn.label {offset place : Nat} {len : UInt8}
    (h : TokenIn payload offset place) (hlen : payload[place]? = some len)
    (htag : labelTag len = .plain) :
    TokenIn payload offset (place + 1 + len.toNat) := by
  induction h with
  | here => exact .next hlen htag .here
  | next hlen' htag' _ ih => exact .next hlen' htag' (ih hlen)

theorem Token.label {place : Nat} {len : UInt8}
    (h : Token payload walked place) (hlen : payload[place]? = some len)
    (htag : labelTag len = .plain) :
    Token payload walked (place + 1 + len.toNat) := by
  obtain ⟨entry, hentry, offset, hoffset, htoken⟩ := h
  exact ⟨entry, hentry, offset, hoffset, htoken.label hlen htag⟩

theorem Token.target {place : Nat} {len low : UInt8}
    (hproper : ∀ entry ∈ walked, entry.Proper payload walked)
    (h : Token payload walked place) (hlen : payload[place]? = some len)
    (htag : labelTag len = .pointer) (hlow : payload[place + 1]? = some low) :
    Token payload walked (pointerTarget len low) := by
  obtain ⟨entry, hentry, offset, hoffset, htoken⟩ := h
  exact (hproper entry hentry).lands offset hoffset place len low
    htoken.onWalk hlen htag hlow

end Tokens

/-! ## The labels of a name -/

/-- `Rooted payload offset stop`: the octets in place of the name at `offset`
end in a terminator just before `stop`. -/
inductive Rooted (payload : Bytes) : Nat → Nat → Prop
  | root {offset : Nat} {len : UInt8} :
      payload[offset]? = some len → labelTag len = .root →
      Rooted payload offset (offset + 1)
  | plain {offset stop : Nat} {len : UInt8} :
      payload[offset]? = some len → labelTag len = .plain →
      Rooted payload (offset + 1 + len.toNat) stop →
      Rooted payload offset stop

def labelsFrom (payload : Bytes) : Nat → Nat → List Nat
  | 0, _ => []
  | rounds + 1, offset =>
      match payload[offset]? with
      | none => []
      | some len =>
          if labelTag len = .plain then
            offset :: labelsFrom payload rounds (offset + 1 + len.toNat)
          else []

def labelsOf (payload : Bytes) (offset : Nat) : List Nat :=
  labelsFrom payload (payload.length + 1) offset

def labelSize (payload : Bytes) (place : Nat) : Nat :=
  1 + (payload[place]?.getD 0).toNat

section Labels

variable {payload : Bytes}

theorem Rooted.inline {offset stop : Nat} (h : Rooted payload offset stop) :
    Inline payload offset stop := by
  induction h with
  | root hlen htag => exact .root hlen htag
  | plain hlen htag _ ih =>
      rw [Nat.add_assoc] at ih
      exact .plain hlen htag ih

theorem Rooted.next {offset stop : Nat} {len : UInt8}
    (h : Rooted payload offset stop) (hlen : payload[offset]? = some len)
    (htag : labelTag len = .plain) :
    Rooted payload (offset + 1 + len.toNat) stop := by
  cases h with
  | root hlen' htag' =>
      rw [hlen] at hlen'
      cases hlen'
      rw [htag] at htag'
      cases htag'
  | plain hlen' _ hrest =>
      rw [hlen] at hlen'
      cases hlen'
      exact hrest

theorem not_rooted_pointer {offset stop : Nat} {len : UInt8}
    (hlen : payload[offset]? = some len) (htag : labelTag len = .pointer) :
    ¬ Rooted payload offset stop := by
  intro h
  cases h with
  | root hlen' htag' =>
      rw [hlen] at hlen'
      cases hlen'
      rw [htag] at htag'
      cases htag'
  | plain hlen' htag' _ =>
      rw [hlen] at hlen'
      cases hlen'
      rw [htag] at htag'
      cases htag'

theorem Inline.weigh_labelsFrom {offset stop : Nat}
    (h : Inline payload offset stop) {rounds : Nat}
    (hrounds : payload.length - offset < rounds) :
    ∃ own, offset + weigh (labelSize payload)
        (labelsFrom payload rounds offset) + own = stop ∧
      (own = 1 ∧ Rooted payload offset stop ∨
        own = 2 ∧ ¬ Rooted payload offset stop) := by
  induction h generalizing rounds with
  | @root offset len hlen htag =>
      obtain ⟨rounds, rfl⟩ :=
        Nat.exists_eq_succ_of_ne_zero (by omega : rounds ≠ 0)
      refine ⟨1, ?_, .inl ⟨rfl, .root hlen htag⟩⟩
      simp only [labelsFrom, hlen, htag, reduceCtorEq, if_false, weigh_nil,
        Nat.add_zero]
  | @plain offset stop len hlen htag _ ih =>
      obtain ⟨rounds, rfl⟩ :=
        Nat.exists_eq_succ_of_ne_zero (by omega : rounds ≠ 0)
      have hlt := (List.getElem?_eq_some_iff.mp hlen).1
      obtain ⟨own, hsum, hown⟩ := ih (show _ < rounds by omega)
      refine ⟨own, ?_, ?_⟩
      · rw [← Nat.add_assoc] at hsum
        simp only [labelsFrom, hlen, htag, if_true, weigh_cons, labelSize,
          Option.getD_some]
        omega
      · rw [← Nat.add_assoc] at hown
        have hsame : Rooted payload offset stop ↔
            Rooted payload (offset + 1 + len.toNat) stop :=
          ⟨fun h => h.next hlen htag, fun h => .plain hlen htag h⟩
        rwa [hsame]
  | @pointer offset len low hlen htag hlow =>
      obtain ⟨rounds, rfl⟩ :=
        Nat.exists_eq_succ_of_ne_zero (by omega : rounds ≠ 0)
      refine ⟨2, ?_, .inr ⟨rfl, not_rooted_pointer hlen htag⟩⟩
      simp only [labelsFrom, hlen, htag, reduceCtorEq, if_false, weigh_nil,
        Nat.add_zero]

theorem TokenIn.mem_labelsFrom {offset place : Nat} {len : UInt8}
    (h : TokenIn payload offset place) (hlen : payload[place]? = some len)
    (htag : labelTag len = .plain) {rounds : Nat}
    (hrounds : payload.length - offset < rounds) :
    place ∈ labelsFrom payload rounds offset := by
  induction h generalizing rounds with
  | here =>
      obtain ⟨rounds, rfl⟩ :=
        Nat.exists_eq_succ_of_ne_zero (by omega : rounds ≠ 0)
      simp only [labelsFrom, hlen, htag, if_true]
      exact List.mem_cons_self
  | next hlen' htag' _ ih =>
      obtain ⟨rounds, rfl⟩ :=
        Nat.exists_eq_succ_of_ne_zero (by omega : rounds ≠ 0)
      have hlt := (List.getElem?_eq_some_iff.mp hlen').1
      simp only [labelsFrom, hlen', htag', if_true]
      exact List.mem_cons_of_mem _ (ih hlen (by omega))

end Labels

/-! ## Checking a message -/

def tokensFrom (payload : Bytes) : Nat → Nat → List Nat
  | 0, _ => []
  | rounds + 1, offset =>
      offset :: match payload[offset]? with
        | none => []
        | some len =>
            if labelTag len = .plain then
              tokensFrom payload rounds (offset + 1 + len.toNat)
            else []

def tokens (payload : Bytes) (walked : List Entry) : List Nat :=
  walked.flatMap fun entry => (entry.nameOffsets payload).flatMap
    (tokensFrom payload (payload.length + 1))

def nextPlace (payload : Bytes) (place : Nat) : Option Nat :=
  (payload[place]?).bind fun len =>
    match labelTag len with
    | .plain => some (place + 1 + len.toNat)
    | .pointer => (payload[place + 1]?).map (pointerTarget len)
    | _ => none

def isProper (payload : Bytes) (walked : List Entry) : Bool :=
  ((tokens payload walked).all fun place =>
    (nextPlace payload place).all fun next =>
      (tokens payload walked).contains next) &&
  walked.all fun entry => (entry.nameOffsets payload).all fun offset =>
    (readName payload offset (budgetForMessage payload)).toBool

section Check

variable {payload : Bytes} {walked : List Entry}

theorem tokenIn_of_mem {rounds offset place : Nat}
    (h : place ∈ tokensFrom payload rounds offset) :
    TokenIn payload offset place := by
  induction rounds generalizing offset with
  | zero => cases h
  | succ rounds ih =>
      simp only [tokensFrom] at h
      rcases List.mem_cons.mp h with rfl | h
      · exact .here
      · split at h
        · cases h
        rename_i len hlen
        split at h
        · rename_i htag
          exact .next hlen htag (ih h)
        · cases h

theorem token_of_mem {place : Nat} (h : place ∈ tokens payload walked) :
    Token payload walked place := by
  obtain ⟨entry, hentry, hplace⟩ := List.mem_flatMap.mp h
  obtain ⟨offset, hoffset, hplace⟩ := List.mem_flatMap.mp hplace
  exact ⟨entry, hentry, offset, hoffset, tokenIn_of_mem hplace⟩

theorem OnWalk.mem_of_closed {places : List Nat} {offset place : Nat}
    (hnext : ∀ place ∈ places, ∀ next, nextPlace payload place = some next →
      next ∈ places)
    (h : OnWalk payload offset place) (hmem : offset ∈ places) :
    place ∈ places := by
  induction h with
  | here => exact hmem
  | label hlen htag _ ih =>
      refine ih (hnext _ hmem _ ?_)
      simp only [nextPlace, hlen, Option.bind_some, htag]
  | hop hlen htag hlow _ ih =>
      refine ih (hnext _ hmem _ ?_)
      simp only [nextPlace, hlen, Option.bind_some, htag, hlow,
        Option.map_some]

theorem proper_of_isProper (h : isProper payload walked = true) :
    ∀ entry ∈ walked, entry.Proper payload walked := by
  simp only [isProper, Bool.and_eq_true, List.all_eq_true] at h
  obtain ⟨hclosed, hread⟩ := h
  have hnext : ∀ place ∈ tokens payload walked, ∀ next,
      nextPlace payload place = some next →
      next ∈ tokens payload walked := by
    intro place hplace next hsome
    have hall := hclosed place hplace
    rw [hsome, Option.all_some] at hall
    exact List.contains_iff_mem.mp hall
  intro entry hentry
  constructor
  · intro offset hoffset
    have hok := hread entry hentry offset hoffset
    cases hname : readName payload offset (budgetForMessage payload) with
    | error e =>
        rw [hname] at hok
        cases hok
    | ok result => exact ⟨result.1, readName_readable hname⟩
  · intro offset hoffset place len low hwalk hlen htag hlow
    have hstart : offset ∈ tokens payload walked := by
      refine List.mem_flatMap.mpr ⟨entry, hentry, ?_⟩
      exact List.mem_flatMap.mpr ⟨offset, hoffset, List.mem_cons_self⟩
    have hplace := hwalk.mem_of_closed hnext hstart
    refine token_of_mem (hnext place hplace _ ?_)
    simp only [nextPlace, hlen, Option.bind_some, htag, hlow,
      Option.map_some]

theorem enclosed_of_skipName
    (h : ∀ entry ∈ walked, ∀ offset ∈ entry.nameOffsets payload,
      (skipName payload offset).all (· ≤ entry.stop) = true) :
    ∀ entry ∈ walked, entry.Enclosed payload := by
  intro entry hentry offset hoffset stop hinline
  have hall := h entry hentry offset hoffset
  rw [skipName_eq_some_iff.mpr hinline, Option.all_some] at hall
  exact of_decide_eq_true hall

end Check

end Netflector.Net.Mdns
