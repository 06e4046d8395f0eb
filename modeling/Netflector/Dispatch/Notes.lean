import Netflector.Dispatch.Slots

/-!
# The reassembler's log

What offers do to slots, buffers and discard entries, noted beside the code.
The log of a run says who has a slot and who is discarded.
-/

namespace Netflector.Dispatch.Reassembler

open Netflector.Foundation
open Netflector.Net

/-! ## The log -/

inductive Note where
  | pruned (now : Nat)
  | displaced (key : DatagramKey)
  | allocated
  | opened (key : DatagramKey) (now : Nat)
  | completed (key : DatagramKey)
  | lost (key : DatagramKey) (loss : Loss) (now : Nat)
  /-- An unwanted datagram that had a slot. -/
  | refused (key : DatagramKey) (now : Nat)
  /-- One that had none. -/
  | barred (key : DatagramKey) (now : Nat)
  deriving DecidableEq

namespace Note

def opens (key : DatagramKey) : Note → Bool
  | opened other _ => other = key
  | _ => false

def leaves (key : DatagramKey) : Note → Bool
  | completed other | lost other _ _ | refused other _ => other = key
  | _ => false

def isOpening : Note → Bool
  | opened _ _ => true
  | _ => false

def isLeaving : Note → Bool
  | completed _ | lost _ _ _ | refused _ _ => true
  | _ => false

def finishes : Note → Option DatagramKey
  | completed key => some key
  | _ => none

def report : Note → Option Lost
  | lost key loss _ => some (Lost.new key loss)
  | _ => none

def time : Note → Option Nat
  | pruned now | opened _ now | lost _ _ now | refused _ now | barred _ now =>
      some now
  | _ => none

def Bars (key : DatagramKey) (since : Nat) (note : Note) : Prop :=
  (∃ loss, note = lost key loss since) ∨ note = refused key since ∨
    note = barred key since

def starts (key : DatagramKey) (start : Option Nat) : Note → Option Nat
  | opened other now => if other = key then some now else start
  | completed other | lost other _ _ | refused other _ =>
      if other = key then none else start
  | _ => start

def bars (key : DatagramKey) (since : Option Nat) : Note → Option Nat
  | pruned now => since.filter fun since => now - since < expiry
  | displaced other => if other = key then none else since
  | lost other _ now | refused other now | barred other now =>
      if other = key then some now else since
  | _ => since

end Note

def startOf (key : DatagramKey) (log : List Note) : Option Nat :=
  log.foldl (Note.starts key) none

def sinceOf (key : DatagramKey) (log : List Note) : Option Nat :=
  log.foldl (Note.bars key) none

/-- A slot is opened by a datagram that has none and left by one that has one,
and a reported loss has its reason. -/
def Warranted (before : List Note) : Note → Prop
  | .opened key _ => startOf key before = none ∧ sinceOf key before = none
  | .completed key | .refused key _ => (startOf key before).isSome
  | .lost key loss now => ∃ start, startOf key before = some start ∧
      (loss = .expired → expiry ≤ now - start) ∧
      (loss = .evicted → before.countP Note.isOpening =
        before.countP Note.isLeaving + slots)
  | .barred key _ => startOf key before = none
  | .displaced key => (sinceOf key before).isSome
  | .pruned _ | .allocated => True

def Lawful (log : List Note) : Prop :=
  ∀ before note after, log = before ++ note :: after → Warranted before note

theorem lawful_nil : Lawful [] := by
  intro before note after hsplit
  simp at hsplit

theorem Lawful.concat {log : List Note} {note : Note} (h : Lawful log)
    (hnote : Warranted log note) : Lawful (log ++ [note]) := by
  intro before other after hsplit
  rcases List.eq_nil_or_concat after with rfl | ⟨front, last, rfl⟩
  · obtain ⟨rfl, hsame⟩ := List.append_inj' hsplit rfl
    cases hsame
    exact hnote
  · have hfront : log ++ [note] = (before ++ other :: front) ++ [last] := by
      rw [hsplit, List.concat_eq_append, List.append_assoc, List.cons_append]
    exact h before other front (List.append_inj' hfront rfl).1

theorem Lawful.front {log : List Note} {note : Note}
    (h : Lawful (log ++ [note])) : Lawful log := by
  intro before other after hsplit
  apply h before other (after ++ [note])
  rw [hsplit, List.append_assoc, List.cons_append]

theorem Lawful.last {log : List Note} {note : Note}
    (h : Lawful (log ++ [note])) : Warranted log note :=
  h log note [] rfl

theorem startOf_concat (key : DatagramKey) (log : List Note) (note : Note) :
    startOf key (log ++ [note]) = note.starts key (startOf key log) := by
  rw [startOf, List.foldl_append]
  rfl

theorem sinceOf_append (key : DatagramKey) (log more : List Note) :
    sinceOf key (log ++ more) = more.foldl (Note.bars key) (sinceOf key log) := by
  rw [sinceOf, List.foldl_append]
  rfl

theorem Lawful.balanced {log : List Note} (h : Lawful log)
    (key : DatagramKey) :
    log.countP (Note.opens key) = log.countP (Note.leaves key) +
      (startOf key log).isSome.toNat := by
  induction log using List.reverseRecOn with
  | nil => rfl
  | append_singleton log note ih =>
      have hbefore := ih h.front
      have hnote := h.last
      rw [List.countP_append, List.countP_append, startOf_concat, hbefore]
      cases note with
      | opened other now =>
          by_cases hkey : other = key
          · subst hkey
            simp [Note.opens, Note.leaves, Note.starts, hnote.1]
          · simp [Note.opens, Note.leaves, Note.starts, hkey]
      | completed other =>
          by_cases hkey : other = key
          · subst hkey
            have hopen : (startOf other log).isSome = true := hnote
            simp [Note.opens, Note.leaves, Note.starts, hopen]
          · simp [Note.opens, Note.leaves, Note.starts, hkey]
      | refused other now =>
          by_cases hkey : other = key
          · subst hkey
            have hopen : (startOf other log).isSome = true := hnote
            simp [Note.opens, Note.leaves, Note.starts, hopen]
          · simp [Note.opens, Note.leaves, Note.starts, hkey]
      | lost other loss now =>
          by_cases hkey : other = key
          · subst hkey
            obtain ⟨start, hstart, _⟩ := hnote
            simp [Note.opens, Note.leaves, Note.starts, hstart]
          · simp [Note.opens, Note.leaves, Note.starts, hkey]
      | pruned now | displaced other | allocated | barred other now =>
          simp [Note.opens, Note.leaves, Note.starts]

/-! ## What the code does, as notes -/

def displacedBy (reassembler : Reassembler) : Option DatagramKey :=
  if discards ≤ reassembler.discarding.len then
    (reassembler.discarding.entries.argmin Prod.snd).map Prod.fst
  else none

def dropNotes (reassembler : Reassembler) (key : DatagramKey) (now : Nat)
    (left : Note) : List Note :=
  reassembler.displacedBy.toList.map .displaced ++
    [if (reassembler.collecting.get key).isSome then left else .barred key now]

def giveUpNotes (reassembler : Reassembler) (key : DatagramKey) (loss : Loss)
    (now : Nat) : List Note :=
  reassembler.dropNotes key now (.lost key loss now)

def refuseNotes (reassembler : Reassembler) (key : DatagramKey) (now : Nat) :
    List Note :=
  reassembler.dropNotes key now (.refused key now)

def makeRoomNotes (reassembler : Reassembler) (now : Nat) : List Note :=
  if slots ≤ reassembler.collecting.len then
    match reassembler.collecting.entries.argmin (·.2.started) with
    | some oldest => reassembler.giveUpNotes oldest.1 .evicted now
    | none => []
  else []

def expireSlotsNotes : Nat → Reassembler → Nat → List Note
  | 0, _, _ => []
  | rounds + 1, reassembler, now =>
      match reassembler.firstExpired now with
      | some key =>
          reassembler.giveUpNotes key .expired now ++
            expireSlotsNotes rounds (reassembler.giveUp key .expired now) now
      | none => []

/-- The first line of `expire`. -/
def prune (reassembler : Reassembler) (now : Nat) : Reassembler :=
  { reassembler with
    discarding := reassembler.discarding.retain fun _ since =>
      now - since < expiry }

def expireNotes (reassembler : Reassembler) (now : Nat) : List Note :=
  .pruned now ::
    expireSlotsNotes reassembler.collecting.len (reassembler.prune now) now

def openNotes (reassembler : Reassembler) (key : DatagramKey) (now : Nat) :
    List Note :=
  if (reassembler.collecting.get key).isNone then
    reassembler.makeRoomNotes now ++
      ((if (reassembler.makeRoom now).spare.isEmpty then [.allocated] else []) ++
        [.opened key now])
  else []

def collectNotes (reassembler : Reassembler) (key : DatagramKey)
    (fragment : Fragment) (now : Nat) : List Note :=
  match reassembler.collecting.get key with
  | none => []
  | some slot =>
      match slot.add fragment with
      | .error (.panic _) => []
      | .error (.error loss) => reassembler.giveUpNotes key loss now
      | .ok slot =>
          match slot.isComplete with
          | .ok true => [.completed key]
          | _ => []

def offerNotes (reassembler : Reassembler) (ingress : CaptureKey)
    (fragment : Fragment) (wanted : Bool) (now : Nat) : List Note :=
  let expired := reassembler.expire now
  let key := keyOf ingress fragment
  reassembler.expireNotes now ++
    if (expired.discarding.get key).isSome then []
    else if !wanted then expired.refuseNotes key now
    else
      expired.openNotes key now ++
        (expired.openSlot key now).collectNotes key fragment now

variable {log : List Note}

/-! ## Times -/

/-- What happens in one call happens at one time. -/
def AtTime (now : Nat) (notes : List Note) : Prop :=
  ∀ note ∈ notes, ∀ time, note.time = some time → time = now

theorem atTime_append {now : Nat} {first second : List Note}
    (h : AtTime now first) (h' : AtTime now second) :
    AtTime now (first ++ second) := by
  intro note hmem
  rcases List.mem_append.mp hmem with hfirst | hsecond
  · exact h note hfirst
  · exact h' note hsecond

theorem atTime_nil (now : Nat) : AtTime now [] := by
  intro note hmem
  cases hmem

theorem atTime_singleton {now : Nat} {note : Note}
    (h : ∀ time, note.time = some time → time = now) : AtTime now [note] := by
  intro other hmem
  rw [List.mem_singleton.mp hmem]
  exact h

theorem dropNotes_atTime (reassembler : Reassembler) (key : DatagramKey)
    {now : Nat} {left : Note} (hleft : left.time = some now) :
    AtTime now (reassembler.dropNotes key now left) := by
  apply atTime_append
  · intro note hmem time htime
    obtain ⟨oldest, _, rfl⟩ := List.mem_map.mp hmem
    cases htime
  · apply atTime_singleton
    intro time htime
    split at htime
    · rw [hleft] at htime
      exact (Option.some.inj htime).symm
    · exact (Option.some.inj htime).symm

theorem makeRoomNotes_atTime (reassembler : Reassembler) (now : Nat) :
    AtTime now (reassembler.makeRoomNotes now) := by
  unfold makeRoomNotes
  split
  · split
    · exact dropNotes_atTime _ _ rfl
    · exact atTime_nil now
  · exact atTime_nil now

theorem expireSlotsNotes_atTime (now rounds : Nat)
    (reassembler : Reassembler) :
    AtTime now (expireSlotsNotes rounds reassembler now) := by
  induction rounds generalizing reassembler with
  | zero => exact atTime_nil now
  | succ rounds ih =>
      rw [expireSlotsNotes]
      split
      · exact atTime_append (dropNotes_atTime _ _ rfl) (ih _)
      · exact atTime_nil now

theorem expireNotes_atTime (reassembler : Reassembler) (now : Nat) :
    AtTime now (reassembler.expireNotes now) := by
  rw [expireNotes, ← List.singleton_append]
  refine atTime_append ?_ (expireSlotsNotes_atTime now _ _)
  apply atTime_singleton
  intro time htime
  exact (Option.some.inj htime).symm

theorem openNotes_atTime (reassembler : Reassembler) (key : DatagramKey)
    (now : Nat) : AtTime now (reassembler.openNotes key now) := by
  unfold openNotes
  split
  · refine atTime_append (makeRoomNotes_atTime _ now) (atTime_append ?_ ?_)
    · split
      · apply atTime_singleton
        intro time htime
        cases htime
      · exact atTime_nil now
    · apply atTime_singleton
      intro time htime
      exact (Option.some.inj htime).symm
  · exact atTime_nil now

theorem collectNotes_atTime (reassembler : Reassembler) (key : DatagramKey)
    (fragment : Fragment) (now : Nat) :
    AtTime now (reassembler.collectNotes key fragment now) := by
  unfold collectNotes
  split
  · exact atTime_nil now
  · split
    · exact atTime_nil now
    · exact dropNotes_atTime _ _ rfl
    · split
      · apply atTime_singleton
        intro time htime
        cases htime
      · exact atTime_nil now

theorem offerNotes_atTime (reassembler : Reassembler) (ingress : CaptureKey)
    (fragment : Fragment) (wanted : Bool) (now : Nat) :
    AtTime now (reassembler.offerNotes ingress fragment wanted now) := by
  refine atTime_append (expireNotes_atTime _ now) ?_
  split
  · exact atTime_nil now
  · split
    · exact dropNotes_atTime _ _ rfl
    · exact atTime_append (openNotes_atTime _ _ now)
        (collectNotes_atTime _ _ _ now)

structure Timed (now : Nat) (log : List Note) : Prop where
  past : ∀ note ∈ log, ∀ time, note.time = some time → time ≤ now
  sorted : log.Pairwise fun first second => ∀ start stop,
    first.time = some start → second.time = some stop → start ≤ stop

theorem Timed.append {before now : Nat} {notes : List Note}
    (h : Timed before log) (hnow : before ≤ now) (hnotes : AtTime now notes) :
    Timed now (log ++ notes) := by
  constructor
  · intro note hmem time htime
    rcases List.mem_append.mp hmem with hold | hnew
    · exact (h.past note hold time htime).trans hnow
    · exact (hnotes note hnew time htime).le
  · rw [List.pairwise_append]
    refine ⟨h.sorted, ?_, ?_⟩
    · apply List.pairwise_of_forall_mem_list
      intro first hfirst second hsecond start stop hstart hstop
      rw [hnotes first hfirst start hstart, hnotes second hsecond stop hstop]
    · intro first hfirst second hsecond start stop hstart hstop
      rw [hnotes second hsecond stop hstop]
      exact (h.past first hfirst start hstart).trans hnow

theorem bars_stay {key : DatagramKey} {since start now : Nat}
    (hfresh : now - since < expiry) (hstart : since ≤ start) (notes : List Note)
    (hdisplaced : .displaced key ∉ notes)
    (htimes : ∀ note ∈ notes, ∀ time, note.time = some time →
      since ≤ time ∧ time ≤ now) :
    ∃ last, notes.foldl (Note.bars key) (some start) = some last := by
  induction notes generalizing start with
  | nil => exact ⟨start, rfl⟩
  | cons note notes ih =>
      rw [List.mem_cons, not_or] at hdisplaced
      have hrest := fun other hmem => htimes other (List.mem_cons_of_mem _ hmem)
      have hnote := htimes note (List.mem_cons_self ..)
      have hnext : ∃ next, note.bars key (some start) = some next ∧
          since ≤ next := by
        cases note with
        | pruned time =>
            have htime := (hnote time rfl).2
            refine ⟨start, ?_, hstart⟩
            rw [Note.bars, Option.filter_some, if_pos]
            simp only [decide_eq_true_eq]
            omega
        | displaced other =>
            have hother : other ≠ key := by
              rintro rfl
              exact hdisplaced.1 rfl
            exact ⟨start, if_neg hother, hstart⟩
        | lost other _ time | refused other time | barred other time =>
            have htime := (hnote time rfl).1
            by_cases hother : other = key
            · exact ⟨time, if_pos hother, htime⟩
            · exact ⟨start, if_neg hother, hstart⟩
        | allocated | opened _ _ | completed _ => exact ⟨start, rfl, hstart⟩
      obtain ⟨next, hbars, hlater⟩ := hnext
      rw [List.foldl_cons, hbars]
      exact ih hlater hdisplaced.2 hrest

theorem sinceOf_stays {key : DatagramKey} {since now : Nat} {note : Note}
    {before after : List Note} (hbars : note.Bars key since)
    (htimed : Timed now (before ++ note :: after))
    (hdisplaced : .displaced key ∉ after) (hfresh : now - since < expiry) :
    ∃ last, sinceOf key (before ++ note :: after) = some last := by
  have hset : ∀ start, note.bars key start = some since := by
    intro start
    rcases hbars with ⟨loss, rfl⟩ | rfl | rfl
    · exact if_pos rfl
    · exact if_pos rfl
    · exact if_pos rfl
  have htime : note.time = some since := by
    rcases hbars with ⟨loss, rfl⟩ | rfl | rfl
    · rfl
    · rfl
    · rfl
  have hsorted := (List.pairwise_append.mp htimed.sorted).2.1
  rw [sinceOf_append, List.foldl_cons, hset]
  apply bars_stay hfresh (Nat.le_refl since) after hdisplaced
  intro other hmem time hother
  constructor
  · exact List.rel_of_pairwise_cons hsorted hmem since time htime hother
  · exact htimed.past other (by simp [hmem]) time hother

end Netflector.Dispatch.Reassembler
