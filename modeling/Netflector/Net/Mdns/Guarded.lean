import Netflector.Foundation.Metered
import Netflector.Net.Mdns.Services

/-!
# The DNS walkers with their panics

The walkers once more, now with every place written in where the code would
panic: an index or a slice it does not check, a `usize` or `u16` that would
overflow.  Such a place yields `none`, and so does a loop that outlasts its
rounds.  What the code checks itself is a refusal, as before.
-/

namespace Netflector.Net.Mdns.Guarded

open Netflector.Foundation

variable (usize : Usize) (payload : Bytes)

/-! ## Names -/

def skipNameFrom : Nat → Nat → Option (Option Nat)
  | 0, _ => none
  | rounds + 1, offset =>
      match payload[offset]? with
      | none => some none
      | some len =>
          match labelTag len with
          | .root => do
              let past ← usize.add offset 1
              some (some past)
          | .plain => do
              let size ← usize.add 1 len.toNat
              let next ← usize.add offset size
              skipNameFrom rounds next
          | .pointer => do
              let second ← usize.add offset 1
              match payload[second]? with
              | none => some none
              | some _ => do
                  let past ← usize.add offset 2
                  some (some past)
          | .reserved => some none

def skipName (offset : Nat) : Option (Option Nat) :=
  skipNameFrom usize payload (payload.length + 1) offset

/-- The loop of `Labels::step`; every round spends a step. -/
def labelsStep :
    Nat → Labels → Option (Except Malformed (Option Bytes) × Labels × Nat)
  | 0, labels => some (.error ⟨⟩, labels, 0)
  | budget + 1, labels =>
      match payload[labels.offset]? with
      | none => some (.error ⟨⟩, labels, budget)
      | some len =>
          match labelTag len with
          | .root => some (.ok none, labels, budget)
          | .plain => do
              let start ← usize.add labels.offset 1
              let stop ← usize.add start len.toNat
              match slice? payload start stop with
              | none => some (.error ⟨⟩, labels, budget)
              | some label => do
                  let size ← usize.add 1 label.length
                  let total ← usize.add labels.len size
                  if total ≥ maxNameLen then
                    some (.error ⟨⟩, { labels with len := total }, budget)
                  else do
                    let next ← usize.add start label.length
                    some (.ok (some label),
                      { labels with len := total, offset := next }, budget)
          | .pointer => do
              let second ← usize.add labels.offset 1
              match payload[second]? with
              | none => some (.error ⟨⟩, labels, budget)
              | some low => do
                  let hops ← usize.add labels.hops 1
                  if hops > maxPointerHops then
                    some (.error ⟨⟩, { labels with hops := hops }, budget)
                  else
                    labelsStep budget
                      { labels with
                        hops := hops
                        offset := pointerTarget len low }
          | .reserved => some (.error ⟨⟩, labels, budget)

def labelsNext (labels : Labels) (budget : Nat) :
    Option (Option (Except Malformed Bytes) × Labels × Nat) :=
  if labels.done then some (none, labels, budget)
  else
    match labelsStep usize payload budget labels with
    | none => none
    | some (.ok (some label), labels, budget) =>
        some (some (.ok label), labels, budget)
    | some (.ok none, labels, budget) =>
        some (none, { labels with done := true }, budget)
    | some (.error e, labels, budget) =>
        some (some (.error e), { labels with done := true }, budget)

/-- What `calls` calls of `Labels::next` yield. -/
def yields : Nat → Labels → Nat →
    Option (List (Option (Except Malformed Bytes)) × Labels × Nat)
  | 0, labels, budget => some ([], labels, budget)
  | calls + 1, labels, budget => do
      let (item, labels, budget) ← labelsNext usize payload labels budget
      let (items, labels, budget) ← yields calls labels budget
      some (item :: items, labels, budget)

/-- Take labels for as long as `more` asks for another one after those
`seen`; a label that fails ends the reading. -/
def pull (more : List Bytes → Bool) :
    Nat → Labels → List Bytes → Metered Malformed (List Bytes)
  | 0, _, _, _ => none
  | rounds + 1, labels, seen, budget =>
      if more seen then
        match labelsNext usize payload labels budget with
        | none => none
        | some (none, _, budget) => some (.ok seen, budget)
        | some (some (.error e), _, budget) => some (.error e, budget)
        | some (some (.ok label), labels, budget) =>
            pull more rounds labels (seen ++ [label]) budget
      else some (.ok seen, budget)

def readWhile (more : List Bytes → Bool) (offset : Nat) :
    Metered Malformed (List Bytes) :=
  fun budget =>
    pull usize payload more (budget + 1) (Labels.new offset) [] budget

def readName (offset : Nat) : Metered Malformed (List Bytes) :=
  readWhile usize payload (fun _ => true) offset

def checkName (offset : Nat) : Metered Malformed Unit := do
  let _ ← readName usize payload offset
  return ()

def skipped (offset : Nat) : Metered Malformed Nat := do
  let next ← Metered.access (skipName usize payload offset)
  Metered.demand ⟨⟩ next

/-! ## Entries -/

def checkRdataNames (stop : Nat) : Nat → Nat → Metered Malformed Unit
  | 0, _ => return ()
  | count + 1, offset => do
      checkName usize payload offset
      let next ← skipped usize payload offset
      Metered.require ⟨⟩ (next ≤ stop)
      checkRdataNames stop count next

def checkNames (entry : Entry) : Metered Malformed Unit := do
  checkName usize payload entry.name
  match entry.rdataNames with
  | none => return ()
  | some names => do
      let offset ← Metered.access (usize.add entry.rdata names.offset)
      checkRdataNames usize payload entry.stop names.count offset

/-- `Entries::step`; the type is read at two indices of the payload. -/
def entryAt (sect : Section) (offset : Nat) : Metered Malformed Entry := do
  let fixed ← skipped usize payload offset
  if sect = .question then
    let stop ← Metered.access (usize.add fixed 4)
    let _ ← Metered.demand ⟨⟩ (slice? payload fixed stop)
    let rtype ← Metered.access (be16At payload fixed)
    return ⟨sect, offset, fixed, rtype, stop, stop⟩
  else
    let rdata ← Metered.access (usize.add fixed 10)
    let head ← Metered.demand ⟨⟩ (slice? payload fixed rdata)
    let length ← Metered.access (be16At head 8)
    let stop ← Metered.access (usize.add rdata length)
    Metered.require ⟨⟩ (stop ≤ payload.length)
    let rtype ← Metered.access (be16At payload fixed)
    return ⟨sect, offset, fixed, rtype, rdata, stop⟩

/-- The walk of a message's entries: where the next one starts, and how many
are still to come per section, in wire order. -/
structure Entries where
  offset : Nat
  remaining : List (Section × Nat)
  done : Bool
  deriving DecidableEq, Repr

def Entries.new : Entries :=
  { offset := dnsHeaderLen
    remaining :=
      [(.question, sectionCount payload qdcountAt),
       (.answer, sectionCount payload ancountAt),
       (.authority, sectionCount payload nscountAt),
       (.additional, sectionCount payload arcountAt)]
    done := decide (payload.length < dnsHeaderLen) }

def takeSlot : List (Section × Nat) → Option (Section × List (Section × Nat))
  | [] => none
  | (sect, 0) :: rest =>
      (takeSlot rest).map fun taken => (taken.1, (sect, 0) :: taken.2)
  | (sect, left + 1) :: rest => some (sect, (sect, left) :: rest)

/-- `Entries::next`, its error handed on by the loops' `?`. -/
def Entries.next (walk : Entries) : Metered Malformed (Option (Entry × Entries)) :=
  if walk.done then return none
  else
    match takeSlot walk.remaining with
    | none => return none
    | some (sect, remaining) => do
        let entry ← entryAt usize payload sect walk.offset
        return some (entry, ⟨entry.stop, remaining, false⟩)

def drain : Nat → Entries → Metered Malformed (List Entry)
  | 0, _ => Metered.access none
  | rounds + 1, walk => do
      match ← walk.next usize payload with
      | none => return []
      | some (entry, walk) =>
          let rest ← drain rounds walk
          return entry :: rest

/-- Rounds that reach the end of any walk of `payload`: one more than the
header's counts announce. -/
def walkRounds : Nat := (announced payload).length + 1

/-! ## Trimming -/

def place (placed : List Nat) (offset here : Nat) : Option (List Nat) :=
  if here ≤ maxPointerTarget then
    if offset < placed.length then some (placed.set offset here) else none
  else some placed

def patch (out : Bytes) (offset value : Nat) : Option Bytes :=
  if offset + 2 ≤ out.length then some (overwrite out offset (toBe16 value))
  else none

def writeNameFrom (start : Nat) : Nat → Nat → Nat → Trimmer →
    Option (Except Malformed Trimmer × Nat)
  | 0, _, _, _ => some (.error ⟨⟩, 0)
  | budget + 1, offset, hops, trimmer =>
      let placed := trimmer.placed[offset]?.getD unplaced
      if placed ≠ unplaced then
        if placed ≥ start then some (.error ⟨⟩, budget)
        else some (.ok (trimmer.push (toBe16 (0xc000 ||| placed))), budget)
      else
        match payload[offset]? with
        | none => some (.error ⟨⟩, budget)
        | some len =>
            match labelTag len with
            | .root => some (.ok (trimmer.push [0]), budget)
            | .plain => do
                let second ← usize.add offset 1
                let stop ← usize.add second len.toNat
                match slice? payload offset stop with
                | none => some (.error ⟨⟩, budget)
                | some label => do
                    let placed ←
                      place trimmer.placed offset trimmer.out.length
                    let next ← usize.add offset label.length
                    writeNameFrom start budget next hops
                      ⟨trimmer.out ++ label, placed⟩
            | .pointer => do
                let second ← usize.add offset 1
                match payload[second]? with
                | none => some (.error ⟨⟩, budget)
                | some low => do
                    let hops ← usize.add hops 1
                    if hops > maxPointerHops then some (.error ⟨⟩, budget)
                    else
                      writeNameFrom start budget (pointerTarget len low) hops
                        trimmer
            | .reserved => some (.error ⟨⟩, budget)

def writeName (offset : Nat) (trimmer : Trimmer) :
    Metered Malformed Trimmer :=
  fun budget =>
    writeNameFrom usize payload trimmer.out.length budget offset 0 trimmer

def writeNames : Nat → Nat → Trimmer → Metered Malformed (Trimmer × Nat)
  | 0, offset, trimmer => return (trimmer, offset)
  | count + 1, offset, trimmer => do
      let trimmer ← writeName usize payload offset trimmer
      let next ← skipped usize payload offset
      writeNames count next trimmer

def pushSpan (start stop : Nat) (trimmer : Trimmer) :
    Metered Malformed Trimmer := do
  let span ← Metered.demand ⟨⟩ (slice? payload start stop)
  return trimmer.push span

def writeRdata (entry : Entry) (trimmer : Trimmer) :
    Metered Malformed Trimmer :=
  match entry.rdataNames with
  | some names => do
      let start ← Metered.access (usize.add entry.rdata names.offset)
      let trimmer ← pushSpan payload entry.rdata start trimmer
      let written ← writeNames usize payload names.count start trimmer
      pushSpan payload written.2 entry.stop written.1
  | none => pushSpan payload entry.rdata entry.stop trimmer

def writeEntry (entry : Entry) (trimmer : Trimmer) :
    Metered Malformed Trimmer := do
  let trimmer ← writeName usize payload entry.name trimmer
  if entry.sect = .question then
    pushSpan payload entry.fixed entry.stop trimmer
  else
    let stop ← Metered.access (usize.add entry.fixed 8)
    let trimmer ← pushSpan payload entry.fixed stop trimmer
    let lengthAt := trimmer.out.length
    let trimmer ← writeRdata usize payload entry (trimmer.push [0, 0])
    let grown ← Metered.access (Usize.sub trimmer.out.length lengthAt)
    let length ← Metered.access (Usize.sub grown 2)
    Metered.require ⟨⟩ (length ≤ 0xffff)
    let out ← Metered.access (patch trimmer.out lengthAt length)
    return { trimmer with out := out }

/-- What a filter does with the budget it is handed: read a name, stopping
where it likes, or have the entry's names checked, and go on from what came
of it.  `β` is what it returns. -/
inductive Inspection (β : Type) where
  | verdict (outcome : Except Malformed β)
  | read (offset : Nat) (more : List Bytes → Bool)
      (resume : Except Malformed (List Bytes) → Inspection β)
  | check (resume : Except Malformed Unit → Inspection β)

def Inspection.run {β : Type} (entry : Entry) :
    Inspection β → Metered Malformed β
  | .verdict outcome => fun budget => some (outcome, budget)
  | .read offset more resume => fun budget =>
      match readWhile usize payload more offset budget with
      | none => none
      | some (ending, budget) => (resume ending).run entry budget
  | .check resume => fun budget =>
      match checkNames usize payload entry budget with
      | none => none
      | some (ending, budget) => (resume ending).run entry budget

/-- A filter is a closure with state of its own. -/
abbrev Filter (σ : Type) := σ → Entry → Inspection (Bool × σ)

structure State (σ : Type) where
  trimmer : Trimmer
  counts : SectionCounts
  removed : Nat
  answered : Bool
  refilled : Bool
  filter : σ

def countOf (counts : SectionCounts) : Section → Nat
  | .question => counts.question
  | .answer => counts.answer
  | .authority => counts.authority
  | .additional => counts.additional

def bump (counts : SectionCounts) (sect : Section) : Option SectionCounts :=
  if countOf counts sect + 1 ≤ 0xffff then some (counts.bump sect) else none

variable {σ : Type} (refill : Entry → Bool)

def refillFrom : Nat → Entries → State σ → Metered Malformed (State σ)
  | 0, _, _ => Metered.access none
  | rounds + 1, walk, state => do
      match ← walk.next usize payload with
      | none => return state
      | some (candidate, walk) =>
          if refills refill candidate then
            let trimmer ← writeEntry usize payload candidate state.trimmer
            -- `checked_add`: running over is a refusal here.
            let counts ← Metered.demand ⟨⟩ (bump state.counts .answer)
            refillFrom rounds walk
              { state with
                trimmer := trimmer
                counts := counts }
          else refillFrom rounds walk state

def passAnswers (entry : Entry) (state : State σ) :
    Metered Malformed (State σ) :=
  if !state.answered && entry.sect.isLate then
    let refilled := state.counts.answer == 0
    let state := { state with
      answered := true
      refilled := refilled }
    if refilled then
      refillFrom usize payload refill (walkRounds payload)
        (Entries.new payload) state
    else return state
  else return state

variable (keep : Filter σ)

def visit (entry : Entry) (state : State σ) :
    Metered Malformed (State σ) := do
  let state ← passAnswers usize payload refill entry state
  if state.refilled && refills refill entry then return state
  else
    let kept ← (keep state.filter entry).run usize payload entry
    if kept.1 then
      let trimmer ← writeEntry usize payload entry state.trimmer
      let counts ← Metered.access (bump state.counts entry.sect)
      return { state with
        trimmer := trimmer
        counts := counts
        filter := kept.2 }
    else
      let removed ← Metered.access (usize.add state.removed 1)
      return { state with
        removed := removed
        filter := kept.2 }

def visitAll : Nat → Entries → State σ → Metered Malformed (State σ)
  | 0, _, _ => Metered.access none
  | rounds + 1, walk, state => do
      match ← walk.next usize payload with
      | none => return state
      | some (entry, walk) =>
          let state ← visit usize payload refill keep entry state
          visitAll rounds walk state

def patchCounts (counts : SectionCounts) (out : Bytes) : Option Bytes := do
  let out ← patch out qdcountAt counts.question
  let out ← patch out ancountAt counts.answer
  let out ← patch out nscountAt counts.authority
  patch out arcountAt counts.additional

/-- `Budget::for_message`, the product saturating. -/
def budgetFor : Nat := min (payload.length * stepsPerByte) (usize.top - 1)

def trim (filter : σ) : Metered Malformed (Bytes × Nat) := do
  let header ← Metered.demand ⟨⟩ (slice? payload 0 dnsHeaderLen)
  let state ← visitAll usize payload refill keep (walkRounds payload)
    (Entries.new payload)
    { trimmer := ⟨header, List.replicate payload.length unplaced⟩
      counts := ⟨0, 0, 0, 0⟩
      removed := 0
      answered := false
      refilled := false
      filter := filter }
  Metered.require ⟨⟩ (state.trimmer.out.length ≤ payload.length)
  let out ← Metered.access (patchCounts state.counts state.trimmer.out)
  return (out, state.removed)

/-! ## Assessing -/

def serviceOf (offset : Nat) : Metered Malformed (Option Service) := do
  let labels ← readName usize payload offset
  return serviceOfLabels labels

def entryService (entry : Entry) : Metered Malformed (Option Service) :=
  if entry.rtype = typePtr ∧ entry.rdata < entry.stop then do
    match ← serviceOf usize payload entry.rdata with
    | some service => return some service
    | none => serviceOf usize payload entry.name
  else serviceOf usize payload entry.name

variable (allowed : List ServiceType) (kind : MdnsKind)

def assessEntries : Nat → Entries → Tally → Metered Malformed Tally
  | 0, _, _ => Metered.access none
  | rounds + 1, walk, tally => do
      match ← walk.next usize payload with
      | none => return tally
      | some (entry, walk) =>
          checkNames usize payload entry
          if judged kind entry then
            let service ← entryService usize payload entry
            assessEntries rounds walk
              (tally.note allowed (entry.sect == .answer) service)
          else assessEntries rounds walk tally

def assess : Metered Malformed (Scope × List ServiceType) := do
  let kind ← Metered.demand ⟨⟩ (classify payload)
  let tally ← assessEntries usize payload allowed kind (walkRounds payload)
    (Entries.new payload) .start
  return (tally.scope kind, tally.refused)

end Netflector.Net.Mdns.Guarded
