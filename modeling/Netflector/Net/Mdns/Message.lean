import Netflector.Foundation.Bytes

/-!
# DNS messages: walking and trimming

A DNS message's questions and records, walked within a budget, and re-encoded
without the entries a filter drops.  Offsets are plain naturals into the
payload; every read is checked, so a malformed message is an error and never
a panic.  The step budget doubles as the recursion measure of every name walk.
-/

namespace Netflector.Net.Mdns

open Netflector.Foundation

def dnsHeaderLen : Nat := 12

/-- The high byte of the flags field; the QR bit is its top bit. -/
def flagsHigh : Nat := 2
def qrBit : UInt8 := 0x80

def qdcountAt : Nat := 4
def ancountAt : Nat := 6
def nscountAt : Nat := 8
def arcountAt : Nat := 10

def maxNameLen : Nat := 255
def maxPointerHops : Nat := maxNameLen / 2

inductive MdnsKind where
  | query
  | response
  deriving DecidableEq, Repr

def classify (payload : Bytes) : Option MdnsKind :=
  if payload.length < dnsHeaderLen then none
  else (payload[flagsHigh]?).map fun flags =>
    if flags &&& qrBit ≠ 0 then .response else .query

/-- A message that cannot be walked: truncated, a reserved label type, a
looping or overlong name, or one over its budget. -/
structure Malformed where
  deriving DecidableEq, Repr

/-! ## Names -/

def stepsPerByte : Nat := 4

/-- Label and pointer steps one pass over a message may cost; a `budget` is
what is left of them. -/
def budgetForMessage (payload : Bytes) : Nat :=
  payload.length * stepsPerByte

/-- What the first octet of a name announces: the top two bits are `00` for a
plain length, `0` ending the name, and `11` for a two-octet pointer. -/
inductive LabelTag where
  | root
  | plain
  | pointer
  | reserved
  deriving DecidableEq, Repr

def labelTag (len : UInt8) : LabelTag :=
  if len = 0 then .root
  else if len ≤ 0x3f then .plain
  else if 0xc0 ≤ len then .pointer
  else .reserved

def pointerTarget (len low : UInt8) : Nat :=
  (len &&& 0x3f).toNat <<< 8 ||| low.toNat

structure Labels where
  offset : Nat
  hops : Nat
  len : Nat
  done : Bool
  deriving DecidableEq, Repr

def Labels.new (offset : Nat) : Labels := ⟨offset, 0, 0, false⟩

def Labels.step (payload : Bytes) :
    Nat → Labels → Except Malformed (Option Bytes) × Labels × Nat
  | 0, labels => (.error ⟨⟩, labels, 0)
  | budget + 1, labels =>
      match payload[labels.offset]? with
      | none => (.error ⟨⟩, labels, budget)
      | some len =>
          match labelTag len with
          | .root => (.ok none, labels, budget)
          | .plain =>
              let start := labels.offset + 1
              match slice? payload start (start + len.toNat) with
              | none => (.error ⟨⟩, labels, budget)
              | some label =>
                  let total := labels.len + (1 + label.length)
                  if total ≥ maxNameLen then
                    (.error ⟨⟩, { labels with len := total }, budget)
                  else
                    (.ok (some label),
                      { labels with len := total, offset := start + label.length },
                      budget)
          | .pointer =>
              match payload[labels.offset + 1]? with
              | none => (.error ⟨⟩, labels, budget)
              | some low =>
                  let hops := labels.hops + 1
                  if hops > maxPointerHops then
                    (.error ⟨⟩, { labels with hops := hops }, budget)
                  else
                    Labels.step payload budget
                      { labels with hops := hops, offset := pointerTarget len low }
          | .reserved => (.error ⟨⟩, labels, budget)

/-- Yields one error and then ends. -/
def Labels.next (payload : Bytes) (labels : Labels) (budget : Nat) :
    Option (Except Malformed Bytes) × Labels × Nat :=
  if labels.done then (none, labels, budget)
  else
    match Labels.step payload budget labels with
    | (.ok (some label), labels, budget) => (some (.ok label), labels, budget)
    | (.ok none, labels, budget) => (none, { labels with done := true }, budget)
    | (.error e, labels, budget) =>
        (some (.error e), { labels with done := true }, budget)

/-- Drain the iterator into a list.  Every label costs a step, so `budget + 1`
calls of `next` reach its end. -/
def Labels.collect (payload : Bytes) :
    Nat → Labels → Nat → Except Malformed (List Bytes × Nat)
  | 0, _, _ => .error ⟨⟩
  | fuel + 1, labels, budget =>
      match Labels.next payload labels budget with
      | (none, _, budget) => .ok ([], budget)
      | (some (.error e), _, _) => .error e
      | (some (.ok label), labels, budget) => do
          let (rest, budget) ← Labels.collect payload fuel labels budget
          .ok (label :: rest, budget)

def readName (payload : Bytes) (offset : Nat) (budget : Nat) :
    Except Malformed (List Bytes × Nat) :=
  Labels.collect payload (budget + 1) (Labels.new offset) budget

def checkName (payload : Bytes) (offset : Nat) (budget : Nat) :
    Except Malformed Nat := do
  let (_, budget) ← readName payload offset budget
  .ok budget

/-- Each round moves past one label, so `payload.length + 1` rounds reach the
end of the name or of the payload. -/
def skipNameFrom (payload : Bytes) : Nat → Nat → Option Nat
  | 0, _ => none
  | rounds + 1, offset =>
      match payload[offset]? with
      | none => none
      | some len =>
          match labelTag len with
          | .root => some (offset + 1)
          | .plain => skipNameFrom payload rounds (offset + (1 + len.toNat))
          | .pointer => (payload[offset + 1]?).map fun _ => offset + 2
          | .reserved => none

def skipName (payload : Bytes) (offset : Nat) : Option Nat :=
  skipNameFrom payload (payload.length + 1) offset

/-! ## Entries -/

inductive Section where
  | question
  | answer
  | authority
  | additional
  deriving DecidableEq, Repr

/-- Where the names sit in a record's rdata: `count` of them back to back,
after `offset` fixed octets. -/
structure RdataNames where
  offset : Nat
  count : Nat
  deriving DecidableEq, Repr

def typeNs : Nat := 2
def typeMd : Nat := 3
def typeMf : Nat := 4
def typeCname : Nat := 5
def typeSoa : Nat := 6
def typeMb : Nat := 7
def typeMg : Nat := 8
def typeMr : Nat := 9
def typePtr : Nat := 12
def typeMinfo : Nat := 14
def typeMx : Nat := 15
def typeRp : Nat := 17
def typeAfsdb : Nat := 18
def typeRt : Nat := 21
def typePx : Nat := 26
def typeSrv : Nat := 33
def typeKx : Nat := 36
def typeDname : Nat := 39
def typeNsec : Nat := 47

/-- Where names sit in the rdata of the types that may compress them.  Any
other rdata is opaque octets. -/
def rdataNames (rtype : Nat) : Option RdataNames :=
  if rtype ∈ [typeNs, typeMd, typeMf, typeCname, typeMb, typeMg, typeMr,
      typePtr, typeDname, typeNsec] then some ⟨0, 1⟩
  else if rtype ∈ [typeSoa, typeMinfo, typeRp] then some ⟨0, 2⟩
  else if rtype ∈ [typeMx, typeAfsdb, typeRt, typeKx] then some ⟨2, 1⟩
  else if rtype = typePx then some ⟨2, 2⟩
  else if rtype = typeSrv then some ⟨6, 1⟩
  else none

/-- One question or resource record, as offsets into the message.  A question
has no rdata: `rdata = stop`. -/
structure Entry where
  sect : Section
  name : Nat
  fixed : Nat
  rtype : Nat
  rdata : Nat
  stop : Nat
  deriving DecidableEq, Repr

def Entry.rdataNames (entry : Entry) : Option RdataNames :=
  (Mdns.rdataNames entry.rtype).filter fun _ => entry.rdata < entry.stop

def checkRdataNames (payload : Bytes) (stop : Nat) :
    Nat → Nat → Nat → Except Malformed Nat
  | 0, _, budget => .ok budget
  | count + 1, offset, budget => do
      let budget ← checkName payload offset budget
      match skipName payload offset with
      | none => .error ⟨⟩
      | some next =>
          if next > stop then .error ⟨⟩
          else checkRdataNames payload stop count next budget

/-- Every name the entry carries is walkable, and each inline part ends inside
its rdata. -/
def Entry.checkNames (entry : Entry) (payload : Bytes) (budget : Nat) :
    Except Malformed Nat := do
  let budget ← checkName payload entry.name budget
  match entry.rdataNames with
  | none => .ok budget
  | some names =>
      checkRdataNames payload entry.stop names.count
        (entry.rdata + names.offset) budget

def entryAt (payload : Bytes) (sect : Section) (offset : Nat) :
    Except Malformed Entry :=
  match skipName payload offset with
  | none => .error ⟨⟩
  | some fixed =>
      if sect = .question then
        match be16At payload fixed, slice? payload fixed (fixed + 4) with
        | some rtype, some _ =>
            .ok ⟨sect, offset, fixed, rtype, fixed + 4, fixed + 4⟩
        | _, _ => .error ⟨⟩
      else
        match be16At payload fixed, slice? payload fixed (fixed + 10),
            be16At payload (fixed + 8) with
        | some rtype, some _, some length =>
            let stop := fixed + 10 + length
            if stop > payload.length then .error ⟨⟩
            else .ok ⟨sect, offset, fixed, rtype, fixed + 10, stop⟩
        | _, _, _ => .error ⟨⟩

def sectionCount (payload : Bytes) (offset : Nat) : Nat :=
  (be16At payload offset).getD 0

def announced (payload : Bytes) : List Section :=
  List.replicate (sectionCount payload qdcountAt) .question ++
  List.replicate (sectionCount payload ancountAt) .answer ++
  List.replicate (sectionCount payload nscountAt) .authority ++
  List.replicate (sectionCount payload arcountAt) .additional

def walkEntries (payload : Bytes) :
    List Section → Nat → Except Malformed (List Entry)
  | [], _ => .ok []
  | sect :: remaining, offset => do
      let entry ← entryAt payload sect offset
      let rest ← walkEntries payload remaining entry.stop
      .ok (entry :: rest)

/-- The message's entries in wire order, questions first.  Every loop over
them gives up at the first error, so the walk is one result. -/
def entries (payload : Bytes) : Except Malformed (List Entry) :=
  if payload.length < dnsHeaderLen then .ok []
  else walkEntries payload (announced payload) dnsHeaderLen

/-! ## Trimming -/

def unplaced : Nat := 0xffff
def maxPointerTarget : Nat := 0x3fff

/-- `placed` maps each original label offset to where the label landed in
`out`. -/
structure Trimmer where
  out : Bytes
  placed : List Nat
  deriving DecidableEq, Repr

def Trimmer.push (trimmer : Trimmer) (bytes : Bytes) : Trimmer :=
  { trimmer with out := trimmer.out ++ bytes }

/-- The loop of `writeName`; `start` is where the name began in `out`. -/
def Trimmer.writeNameFrom (payload : Bytes) (start : Nat) :
    Nat → Nat → Nat → Trimmer → Except Malformed (Trimmer × Nat)
  | 0, _, _, _ => .error ⟨⟩
  | budget + 1, offset, hops, trimmer =>
      let placed := trimmer.placed[offset]?.getD unplaced
      if placed ≠ unplaced then
        -- A pointer into the name being written makes it loop.
        if placed ≥ start then .error ⟨⟩
        else .ok (trimmer.push (toBe16 (0xc000 ||| placed)), budget)
      else
        match payload[offset]? with
        | none => .error ⟨⟩
        | some len =>
            match labelTag len with
            | .root => .ok (trimmer.push [0], budget)
            | .plain =>
                match slice? payload offset (offset + 1 + len.toNat) with
                | none => .error ⟨⟩
                | some label =>
                    let here := trimmer.out.length
                    let placed :=
                      if here ≤ maxPointerTarget then
                        trimmer.placed.set offset here
                      else trimmer.placed
                    writeNameFrom payload start budget (offset + label.length)
                      hops ⟨trimmer.out ++ label, placed⟩
            | .pointer =>
                match payload[offset + 1]? with
                | none => .error ⟨⟩
                | some low =>
                    if hops + 1 > maxPointerHops then .error ⟨⟩
                    else
                      writeNameFrom payload start budget
                        (pointerTarget len low) (hops + 1) trimmer
            | .reserved => .error ⟨⟩

def Trimmer.writeName (payload : Bytes) (offset : Nat) (budget : Nat)
    (trimmer : Trimmer) : Except Malformed (Trimmer × Nat) :=
  writeNameFrom payload trimmer.out.length budget offset 0 trimmer

def Trimmer.writeNames (payload : Bytes) :
    Nat → Nat → Nat → Trimmer → Except Malformed (Trimmer × Nat × Nat)
  | 0, offset, budget, trimmer => .ok (trimmer, offset, budget)
  | count + 1, offset, budget, trimmer => do
      let (trimmer, budget) ← trimmer.writeName payload offset budget
      match skipName payload offset with
      | none => .error ⟨⟩
      | some next => writeNames payload count next budget trimmer

def Trimmer.pushSpan (payload : Bytes) (start stop : Nat)
    (trimmer : Trimmer) : Except Malformed Trimmer :=
  match slice? payload start stop with
  | none => .error ⟨⟩
  | some span => .ok (trimmer.push span)

def Trimmer.writeRdata (payload : Bytes) (entry : Entry) (budget : Nat)
    (trimmer : Trimmer) : Except Malformed (Trimmer × Nat) :=
  match entry.rdataNames with
  | some names => do
      let start := entry.rdata + names.offset
      let trimmer ← trimmer.pushSpan payload entry.rdata start
      let (trimmer, next, budget) ←
        trimmer.writeNames payload names.count start budget
      let trimmer ← trimmer.pushSpan payload next entry.stop
      .ok (trimmer, budget)
  | none => do
      let trimmer ← trimmer.pushSpan payload entry.rdata entry.stop
      .ok (trimmer, budget)

def Trimmer.writeEntry (payload : Bytes) (entry : Entry) (budget : Nat)
    (trimmer : Trimmer) : Except Malformed (Trimmer × Nat) := do
  let (trimmer, budget) ← trimmer.writeName payload entry.name budget
  if entry.sect = .question then
    let trimmer ← trimmer.pushSpan payload entry.fixed entry.stop
    .ok (trimmer, budget)
  else
    let trimmer ← trimmer.pushSpan payload entry.fixed (entry.fixed + 8)
    -- RDLENGTH is patched once the rdata is written.
    let lengthAt := trimmer.out.length
    let (trimmer, budget) ←
      (trimmer.push [0, 0]).writeRdata payload entry budget
    let length := trimmer.out.length - lengthAt - 2
    if length > 0xffff then .error ⟨⟩
    else
      .ok ({ trimmer with
        out := overwrite trimmer.out lengthAt (toBe16 length) }, budget)

structure SectionCounts where
  question : Nat
  answer : Nat
  authority : Nat
  additional : Nat
  deriving DecidableEq, Repr

def SectionCounts.bump (counts : SectionCounts) : Section → SectionCounts
  | .question => { counts with question := counts.question + 1 }
  | .answer => { counts with answer := counts.answer + 1 }
  | .authority => { counts with authority := counts.authority + 1 }
  | .additional => { counts with additional := counts.additional + 1 }

/-- What `trim` carries from entry to entry.  `answered`: the walk is past the
answer section; `refilled`: that section came out empty and took what `refill`
picks. -/
structure TrimState where
  trimmer : Trimmer
  budget : Nat
  counts : SectionCounts
  removed : Nat
  answered : Bool
  refilled : Bool
  deriving DecidableEq, Repr

abbrev Keep := Entry → Nat → Except Malformed (Bool × Nat)

def Section.isLate (sect : Section) : Bool :=
  sect = .authority || sect = .additional

def refills (refill : Entry → Bool) (entry : Entry) : Bool :=
  entry.sect.isLate && refill entry

def TrimState.refillFrom (payload : Bytes) (refill : Entry → Bool) :
    List Entry → TrimState → Except Malformed TrimState
  | [], state => .ok state
  | candidate :: candidates, state =>
      if refills refill candidate then do
        let (trimmer, budget) ←
          state.trimmer.writeEntry payload candidate state.budget
        if state.counts.answer + 1 > 0xffff then .error ⟨⟩
        else
          refillFrom payload refill candidates { state with
            trimmer := trimmer
            budget := budget
            counts := state.counts.bump .answer }
      else refillFrom payload refill candidates state

/-- The first entry past the answer section decides whether to refill it. -/
def TrimState.passAnswers (payload : Bytes) (refill : Entry → Bool)
    (candidates : List Entry) (entry : Entry) (state : TrimState) :
    Except Malformed TrimState :=
  if !state.answered && entry.sect.isLate then
    let refilled := state.counts.answer == 0
    let state := { state with answered := true, refilled := refilled }
    if refilled then refillFrom payload refill candidates state else .ok state
  else .ok state

def TrimState.visit (payload : Bytes) (keep : Keep) (refill : Entry → Bool)
    (candidates : List Entry) (entry : Entry) (state : TrimState) :
    Except Malformed TrimState := do
  let state ← state.passAnswers payload refill candidates entry
  if state.refilled && refills refill entry then .ok state
  else
    let (kept, budget) ← keep entry state.budget
    if kept then
      let (trimmer, budget) ← state.trimmer.writeEntry payload entry budget
      .ok { state with
        trimmer := trimmer
        budget := budget
        counts := state.counts.bump entry.sect }
    else .ok { state with budget := budget, removed := state.removed + 1 }

def TrimState.visitAll (payload : Bytes) (keep : Keep) (refill : Entry → Bool)
    (candidates : List Entry) :
    List Entry → TrimState → Except Malformed TrimState
  | [], state => .ok state
  | entry :: rest, state => do
      let state ← state.visit payload keep refill candidates entry
      visitAll payload keep refill candidates rest state

def patchCounts (counts : SectionCounts) (out : Bytes) : Bytes :=
  overwrite
    (overwrite
      (overwrite
        (overwrite out qdcountAt (toBe16 counts.question))
        ancountAt (toBe16 counts.answer))
      nscountAt (toBe16 counts.authority))
    arcountAt (toBe16 counts.additional)

/-- `payload` without the entries `keep` rejects, and how many those were.
When the trim leaves no answer, the authority and additional entries `refill`
picks move into the answer section without passing `keep`. -/
def trim (payload : Bytes) (keep : Keep) (refill : Entry → Bool) :
    Except Malformed (Bytes × Nat) := do
  match slice? payload 0 dnsHeaderLen with
  | none => .error ⟨⟩
  | some header =>
      let walked ← entries payload
      let state ← TrimState.visitAll payload keep refill walked walked
        { trimmer := ⟨header, List.replicate payload.length unplaced⟩
          budget := budgetForMessage payload
          counts := ⟨0, 0, 0, 0⟩
          removed := 0
          answered := false
          refilled := false }
      -- Growth means names spelled out from bytes no kept name owns.
      if state.trimmer.out.length > payload.length then .error ⟨⟩
      else .ok (patchCounts state.counts state.trimmer.out, state.removed)

end Netflector.Net.Mdns
