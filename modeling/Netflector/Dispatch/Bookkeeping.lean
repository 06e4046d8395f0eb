import Netflector.Dispatch.Notes
import Netflector.Dispatch.Soundness

/-!
# The reassembler's books

Replaying the log of a run gives the reassembler's state, so what the log never
says twice never happens twice.
-/

namespace Netflector.Dispatch.Reassembler

open Netflector.Foundation
open Netflector.Net

/-! ## The books -/

structure Books (drained : List Lost) (done : List DatagramKey) (loans : Nat)
    (log : List Note) (reassembler : Reassembler) : Prop where
  sane : reassembler.Sane
  room : reassembler.collecting.len ≤ slots
  crowd : reassembler.discarding.len ≤ discards
  lawful : Lawful log
  started : ∀ key, startOf key log =
    (reassembler.collecting.get key).map Collecting.started
  taken : log.countP Note.isOpening =
    log.countP Note.isLeaving + reassembler.collecting.len
  barred : ∀ key, sinceOf key log = reassembler.discarding.get key
  reports : log.filterMap Note.report = drained ++ reassembler.lost
  finished : log.filterMap Note.finishes = done
  buffers : reassembler.collecting.len + reassembler.spare.length + loans =
    log.count .allocated
  supply : log.count .allocated ≤ slots

theorem books_new : Books [] [] 0 [] new where
  sane := sane_new
  room := Nat.zero_le _
  crowd := Nat.zero_le _
  lawful := lawful_nil
  started _ := rfl
  taken := rfl
  barred _ := rfl
  reports := rfl
  finished := rfl
  buffers := rfl
  supply := Nat.zero_le _

variable {reassembler : Reassembler} {drained : List Lost}
  {done : List DatagramKey} {loans : Nat} {log : List Note}

/-! ### Giving up -/

def madeWay (reassembler : Reassembler) : LinearMap DatagramKey Nat :=
  match reassembler.displacedBy with
  | some key => (reassembler.discarding.remove key).1
  | none => reassembler.discarding

theorem discard_eq (reassembler : Reassembler) (key : DatagramKey)
    (now : Nat) :
    reassembler.discard key now =
      { reassembler with discarding := reassembler.madeWay.insert key now } := by
  unfold discard madeWay displacedBy
  split
  · cases reassembler.discarding.entries.argmin Prod.snd with
    | none => rfl
    | some oldest => rfl
  · rfl

theorem displacedBy_some {key : DatagramKey}
    (h : reassembler.displacedBy = some key) :
    ∃ since, (key, since) ∈ reassembler.discarding.entries := by
  unfold displacedBy at h
  split at h
  · obtain ⟨oldest, holdest, rfl⟩ := Option.map_eq_some_iff.mp h
    exact ⟨oldest.2, List.argmin_mem holdest⟩
  · cases h

theorem displacedBy_none (h : reassembler.displacedBy = none) :
    reassembler.discarding.len < discards := by
  unfold displacedBy at h
  split at h
  · rename_i hfull
    have hempty := List.argmin_eq_none.mp (Option.map_eq_none_iff.mp h)
    rw [LinearMap.len, hempty] at hfull
    cases hfull
  · rename_i hroom
    exact Nat.lt_of_not_le hroom

theorem madeWay_len (hcrowd : reassembler.discarding.len ≤ discards) :
    reassembler.madeWay.len < discards := by
  unfold madeWay
  cases hdisplaced : reassembler.displacedBy with
  | none => exact displacedBy_none hdisplaced
  | some key =>
      obtain ⟨since, hmem⟩ := displacedBy_some hdisplaced
      have hlen := LinearMap.len_remove hmem
      simp only
      omega

theorem madeWay_get (reassembler : Reassembler) (key : DatagramKey) :
    reassembler.madeWay.get key =
      if reassembler.displacedBy = some key then none
      else reassembler.discarding.get key := by
  unfold madeWay
  cases hdisplaced : reassembler.displacedBy with
  | none => simp
  | some oldest =>
      simp only [LinearMap.get_remove, Option.some.injEq, eq_comm]

theorem Books.displaced (h : Books drained done loans log reassembler) :
    Books drained done loans
      (log ++ reassembler.displacedBy.toList.map .displaced)
      { reassembler with discarding := reassembler.madeWay } := by
  have hlen := madeWay_len h.crowd
  have hsane : Sane { reassembler with discarding := reassembler.madeWay } := by
    refine ⟨?_, h.sane.sized⟩
    intro key slot since hslot hdiscard
    rw [← LinearMap.get_eq_some_iff, madeWay_get] at hdiscard
    split at hdiscard
    · cases hdiscard
    · exact h.sane.separate key slot since hslot
        (LinearMap.get_eq_some_iff.mp hdiscard)
  cases hdisplaced : reassembler.displacedBy with
  | none =>
      simp only [Option.toList_none, List.map_nil, List.append_nil]
      refine { h with sane := hsane, crowd := hlen.le, barred := ?_ }
      intro key
      rw [h.barred, madeWay_get, hdisplaced]
      rfl
  | some oldest =>
      simp only [Option.toList_some, List.map_cons, List.map_nil]
      refine ⟨hsane, h.room, hlen.le, ?_, ?_, ?_, ?_, ?_, ?_, ?_, ?_⟩
      · apply h.lawful.concat
        obtain ⟨since, hmem⟩ := displacedBy_some hdisplaced
        rw [Warranted, h.barred, LinearMap.get_eq_some_iff.mpr hmem]
        rfl
      · intro key
        rw [startOf_concat, h.started]
        rfl
      · simpa [Note.isOpening, Note.isLeaving] using h.taken
      · intro key
        rw [sinceOf_append, h.barred, madeWay_get, hdisplaced]
        simp [Note.bars]
      · simpa [List.filterMap_cons, Note.report] using h.reports
      · simpa [List.filterMap_cons, Note.finishes] using h.finished
      · simpa using h.buffers
      · simpa using h.supply

theorem Books.dropped (h : Books drained done loans log reassembler)
    (hroom : reassembler.discarding.len < discards) {key : DatagramKey}
    {slot : Collecting} (hslot : (key, slot) ∈ reassembler.collecting.entries)
    {now : Nat} {note : Note}
    (hnote : (∃ loss, note = .lost key loss now) ∨ note = .refused key now)
    (hwarranted : Warranted log note) :
    Books drained done loans (log ++ [note])
      ⟨(reassembler.collecting.remove key).1,
        reassembler.discarding.insert key now, slot.buf :: reassembler.spare,
        reassembler.lost ++ note.report.toList⟩ := by
  have hlen := LinearMap.len_remove hslot
  have hfree : reassembler.discarding.get key = none := by
    rw [LinearMap.get_eq_none_iff]
    intro since
    exact h.sane.separate key slot since hslot
  have hopening : note.isOpening = false ∧ note.isLeaving = true ∧
      note.finishes = none ∧ note ≠ .allocated := by
    rcases hnote with ⟨loss, rfl⟩ | rfl
    · simp [Note.isOpening, Note.isLeaving, Note.finishes]
    · simp [Note.isOpening, Note.isLeaving, Note.finishes]
  obtain ⟨hopens, hleaves, hfinishes, hallocates⟩ := hopening
  have hstarts : ∀ other start, note.starts other start =
      if key = other then none else start := by
    rcases hnote with ⟨loss, rfl⟩ | rfl
    · exact fun _ _ => rfl
    · exact fun _ _ => rfl
  have hbars : ∀ other since, note.bars other since =
      if key = other then some now else since := by
    rcases hnote with ⟨loss, rfl⟩ | rfl
    · exact fun _ _ => rfl
    · exact fun _ _ => rfl
  refine ⟨?_, ?_, ?_, h.lawful.concat hwarranted, ?_, ?_, ?_, ?_, ?_, ?_, ?_⟩
  · refine sane_dropped now h.sane rfl ?_
    intro entry hmem
    rcases LinearMap.mem_insert.mp hmem with hnew | ⟨hold, _⟩
    · exact .inl hnew
    · exact .inr hold
  · have hslots := h.room
    simp only
    omega
  · simp only [LinearMap.len_insert_of_none hfree]
    omega
  · intro other
    rw [startOf_concat, hstarts, h.started, LinearMap.get_remove]
    by_cases hother : key = other
    · simp [hother]
    · simp [hother, Ne.symm hother]
  · have htaken := h.taken
    simp only [List.countP_append, List.countP_singleton, hopens, hleaves]
    simp only [Bool.false_eq_true, if_false, if_true]
    omega
  · intro other
    rw [sinceOf_append, List.foldl_cons, List.foldl_nil, hbars, h.barred]
    by_cases hother : key = other
    · rw [if_pos hother, hother, LinearMap.get_insert]
    · rw [if_neg hother, LinearMap.get_insert_ne (Ne.symm hother)]
  · rw [List.filterMap_append, h.reports, List.append_assoc]
    cases hreport : note.report <;> simp [List.filterMap_cons, hreport]
  · simpa [List.filterMap_cons, hfinishes] using h.finished
  · have hbuffers := h.buffers
    rw [List.count_append, List.count_singleton, List.length_cons]
    simp only [beq_iff_eq, hallocates, if_false]
    omega
  · have hsupply := h.supply
    rw [List.count_append, List.count_singleton]
    simpa [hallocates] using hsupply

theorem Books.bar (h : Books drained done loans log reassembler)
    (hroom : reassembler.discarding.len < discards) {key : DatagramKey}
    (hslot : reassembler.collecting.get key = none)
    (hfree : reassembler.discarding.get key = none) (now : Nat) :
    Books drained done loans (log ++ [.barred key now])
      { reassembler with
        discarding := reassembler.discarding.insert key now } := by
  refine ⟨⟨?_, h.sane.sized⟩, h.room, ?_, ?_, ?_, ?_, ?_, ?_, ?_, ?_, ?_⟩
  · intro other slot since hmem hdiscard
    rcases LinearMap.mem_insert.mp hdiscard with hnew | ⟨hold, _⟩
    · cases hnew
      exact LinearMap.get_eq_none_iff.mp hslot slot hmem
    · exact h.sane.separate other slot since hmem hold
  · simp only [LinearMap.len_insert_of_none hfree]
    omega
  · apply h.lawful.concat
    rw [Warranted, h.started, hslot]
    rfl
  · intro other
    rw [startOf_concat, h.started]
    rfl
  · simpa [Note.isOpening, Note.isLeaving] using h.taken
  · intro other
    rw [sinceOf_append, List.foldl_cons, List.foldl_nil, Note.bars, h.barred]
    by_cases hother : key = other
    · rw [if_pos hother, hother, LinearMap.get_insert]
    · rw [if_neg hother, LinearMap.get_insert_ne (Ne.symm hother)]
  · simpa [List.filterMap_cons, Note.report] using h.reports
  · simpa [List.filterMap_cons, Note.finishes] using h.finished
  · simpa using h.buffers
  · simpa using h.supply

theorem remove_eq {key : DatagramKey} {slot : Collecting}
    (hslot : (key, slot) ∈ reassembler.collecting.entries) :
    reassembler.collecting.remove key =
      ((reassembler.collecting.remove key).1, some slot) := by
  rw [← LinearMap.get_eq_some_iff, ← LinearMap.remove_value] at hslot
  rw [← hslot]

/-- A reason stands when the oldest discard entry is forgotten. -/
theorem warranted_displaced {key : DatagramKey} {loss : Loss} {now : Nat}
    (displaced : Option DatagramKey)
    (h : Warranted log (.lost key loss now)) :
    Warranted (log ++ displaced.toList.map .displaced)
      (.lost key loss now) := by
  cases displaced with
  | none => simpa using h
  | some oldest =>
      obtain ⟨start, hstart, hexpired, hevicted⟩ := h
      refine ⟨start, ?_, hexpired, ?_⟩
      · rw [Option.toList_some, List.map_singleton, startOf_concat, hstart]
        rfl
      · simpa [Note.isOpening, Note.isLeaving] using hevicted

theorem Books.giveUp (h : Books drained done loans log reassembler)
    {key : DatagramKey} {slot : Collecting}
    (hslot : (key, slot) ∈ reassembler.collecting.entries) {loss : Loss}
    {now : Nat} (hwarranted : Warranted log (.lost key loss now)) :
    Books drained done loans (log ++ reassembler.giveUpNotes key loss now)
      (reassembler.giveUp key loss now) := by
  have hnotes : reassembler.giveUpNotes key loss now =
      reassembler.displacedBy.toList.map .displaced ++
        [.lost key loss now] := by
    rw [giveUpNotes, dropNotes, LinearMap.get_eq_some_iff.mpr hslot]
    rfl
  have hstate : reassembler.giveUp key loss now =
      ⟨(reassembler.collecting.remove key).1,
        reassembler.madeWay.insert key now, slot.buf :: reassembler.spare,
        reassembler.lost ++ [Lost.new key loss]⟩ := by
    unfold Reassembler.giveUp
    rw [remove_eq hslot]
    simp only [discard_eq]
    rfl
  rw [hnotes, hstate, ← List.append_assoc]
  exact h.displaced.dropped (madeWay_len h.crowd) hslot (.inl ⟨loss, rfl⟩)
    (warranted_displaced _ hwarranted)

theorem Books.refuse (h : Books drained done loans log reassembler)
    {key : DatagramKey} (hfree : reassembler.discarding.get key = none)
    (now : Nat) :
    Books drained done loans (log ++ reassembler.refuseNotes key now)
      (reassembler.refuse key now) := by
  have hroom := madeWay_len h.crowd
  unfold refuseNotes dropNotes Reassembler.refuse
  rw [← List.append_assoc]
  cases hget : reassembler.collecting.get key with
  | none =>
      have hremove : reassembler.collecting.remove key =
          ((reassembler.collecting.remove key).1, none) := by
        rw [← hget, ← LinearMap.remove_value]
      rw [hremove]
      simp only [Option.isSome_none, Bool.false_eq_true, if_false, discard_eq]
      refine h.displaced.bar hroom hget ?_ now
      rw [madeWay_get, hfree]
      split <;> rfl
  | some slot =>
      have hslot := LinearMap.get_eq_some_iff.mp hget
      have hwarranted : Warranted
          (log ++ reassembler.displacedBy.toList.map .displaced)
          (.refused key now) := by
        rw [Warranted, h.displaced.started, hget]
        rfl
      have hbooks := h.displaced.dropped hroom hslot (.inr rfl) hwarranted
      have hunreported : reassembler.lost ++
          (Note.refused key now).report.toList = reassembler.lost :=
        List.append_nil _
      rw [hunreported] at hbooks
      rw [remove_eq hslot]
      simp only [Option.isSome_some, if_true, discard_eq]
      exact hbooks

/-! ### Expiry and eviction -/

theorem Books.prune (h : Books drained done loans log reassembler)
    (now : Nat) :
    Books drained done loans (log ++ [.pruned now])
      (reassembler.prune now) := by
  unfold Reassembler.prune
  refine ⟨⟨?_, h.sane.sized⟩, h.room, ?_, ?_, ?_, ?_, ?_, ?_, ?_, ?_, ?_⟩
  · intro key slot since hslot hdiscard
    exact h.sane.separate key slot since hslot (LinearMap.mem_retain.mp hdiscard).1
  · exact (LinearMap.len_retain_le _ _).trans h.crowd
  · exact h.lawful.concat trivial
  · intro key
    rw [startOf_concat, h.started]
    rfl
  · simpa [Note.isOpening, Note.isLeaving] using h.taken
  · intro key
    rw [sinceOf_append, List.foldl_cons, List.foldl_nil, Note.bars, h.barred,
      LinearMap.get_retain]
  · simpa [List.filterMap_cons, Note.report] using h.reports
  · simpa [List.filterMap_cons, Note.finishes] using h.finished
  · simpa using h.buffers
  · simpa using h.supply

theorem firstExpired_some {key : DatagramKey} {now : Nat}
    (h : reassembler.firstExpired now = some key) :
    ∃ slot, (key, slot) ∈ reassembler.collecting.entries ∧
      expiry ≤ now - slot.started := by
  obtain ⟨entry, hfind, rfl⟩ := Option.map_eq_some_iff.mp h
  refine ⟨entry.2, List.mem_of_find?_eq_some hfind, ?_⟩
  simpa using List.find?_some hfind

theorem Books.expireSlots (now rounds : Nat)
    (h : Books drained done loans log reassembler) :
    Books drained done loans (log ++ expireSlotsNotes rounds reassembler now)
      (expireSlots rounds reassembler now) := by
  induction rounds generalizing log reassembler with
  | zero => simpa [expireSlotsNotes, Reassembler.expireSlots] using h
  | succ rounds ih =>
      rw [expireSlotsNotes, Reassembler.expireSlots]
      cases hfirst : reassembler.firstExpired now with
      | none => simpa using h
      | some key =>
          obtain ⟨slot, hslot, hlate⟩ := firstExpired_some hfirst
          have hstart : startOf key log = some slot.started := by
            rw [h.started, LinearMap.get_eq_some_iff.mpr hslot]
            rfl
          have hwarranted : Warranted log (.lost key .expired now) := by
            refine ⟨slot.started, hstart, fun _ => hlate, ?_⟩
            intro hloss
            cases hloss
          have hnext := ih (h.giveUp hslot hwarranted)
          rw [List.append_assoc] at hnext
          exact hnext

theorem Books.expire (h : Books drained done loans log reassembler)
    (now : Nat) :
    Books drained done loans (log ++ reassembler.expireNotes now)
      (reassembler.expire now) := by
  have hslots := (h.prune now).expireSlots now reassembler.collecting.len
  rw [List.append_assoc] at hslots
  exact hslots

theorem Books.makeRoom (h : Books drained done loans log reassembler)
    (now : Nat) :
    Books drained done loans (log ++ reassembler.makeRoomNotes now)
        (reassembler.makeRoom now) ∧
      (reassembler.makeRoom now).collecting.len < slots := by
  unfold makeRoomNotes Reassembler.makeRoom
  split
  · rename_i hfull
    cases holdest : reassembler.collecting.entries.argmin (·.2.started) with
    | none =>
        have hempty := List.argmin_eq_none.mp holdest
        rw [LinearMap.len, hempty] at hfull
        cases hfull
    | some oldest =>
        have hslot := List.argmin_mem holdest
        have hstart : startOf oldest.1 log = some oldest.2.started := by
          rw [h.started, LinearMap.get_eq_some_iff.mpr hslot]
          rfl
        have hall : reassembler.collecting.len = slots :=
          Nat.le_antisymm h.room hfull
        have hwarranted : Warranted log (.lost oldest.1 .evicted now) := by
          refine ⟨oldest.2.started, hstart, ?_, fun _ => ?_⟩
          · intro hloss
            cases hloss
          · rw [h.taken, hall]
        refine ⟨h.giveUp hslot hwarranted, ?_⟩
        have hlen := LinearMap.len_remove hslot
        simp only [giveUp_collecting]
        omega
  · rename_i hroom
    rw [List.append_nil]
    exact ⟨h, Nat.lt_of_not_le hroom⟩

/-! ### A slot -/

/-- A buffer is made only when no spare one is left, so there are no more of
them than slots. -/
theorem Books.allocate (h : Books drained done 0 log reassembler)
    (hroom : reassembler.collecting.len < slots) :
    Books drained done 1
      (log ++ if reassembler.spare.isEmpty then [.allocated] else [])
      { reassembler with spare := reassembler.spare.tail } := by
  have hbuffers := h.buffers
  have hsupply := h.supply
  cases hspare : reassembler.spare with
  | cons buf spare =>
      simp only [List.isEmpty_cons, Bool.false_eq_true, if_false,
        List.append_nil, List.tail_cons]
      refine { h with sane := ⟨h.sane.separate, h.sane.sized⟩, buffers := ?_ }
      rw [hspare, List.length_cons] at hbuffers
      simp only
      omega
  | nil =>
      simp only [List.isEmpty_nil, if_true, List.tail_nil]
      rw [hspare, List.length_nil] at hbuffers
      refine ⟨⟨h.sane.separate, h.sane.sized⟩, h.room, h.crowd,
        h.lawful.concat trivial, ?_, ?_, ?_, ?_, ?_, ?_, ?_⟩
      · intro key
        rw [startOf_concat, h.started]
        rfl
      · simpa [Note.isOpening, Note.isLeaving] using h.taken
      · intro key
        rw [sinceOf_append, h.barred]
        rfl
      · simpa [List.filterMap_cons, Note.report] using h.reports
      · simpa [List.filterMap_cons, Note.finishes] using h.finished
      · simp only [List.count_append, List.count_singleton_self,
          List.length_nil]
        omega
      · simp only [List.count_append, List.count_singleton_self]
        omega

theorem Books.opened (h : Books drained done 1 log reassembler)
    (hroom : reassembler.collecting.len < slots) {key : DatagramKey}
    (hnew : reassembler.collecting.get key = none)
    (hfree : reassembler.discarding.get key = none) (buf : Buffer)
    (now : Nat) :
    Books drained done 0 (log ++ [.opened key now])
      { reassembler with
        collecting :=
          reassembler.collecting.insert key (Collecting.new buf now) } := by
  have hlen := LinearMap.len_insert_of_none hnew (Collecting.new buf now)
  have htaken := h.taken
  have hbuffers := h.buffers
  refine ⟨?_, ?_, h.crowd, ?_, ?_, ?_, ?_, ?_, ?_, ?_, ?_⟩
  · refine sane_insert h.sane hfree ?_ _ _
    intro len hlen
    cases hlen
  · simp only [hlen]
    omega
  · apply h.lawful.concat
    rw [Warranted, h.started, h.barred, hnew, hfree]
    exact ⟨rfl, rfl⟩
  · intro other
    rw [startOf_concat, Note.starts, h.started]
    by_cases hother : key = other
    · rw [if_pos hother, hother, LinearMap.get_insert]
      rfl
    · rw [if_neg hother, LinearMap.get_insert_ne (Ne.symm hother)]
  · simp only [List.countP_append, List.countP_singleton, Note.isOpening,
      Note.isLeaving, hlen]
    simp only [Bool.false_eq_true, if_false, if_true]
    omega
  · intro other
    rw [sinceOf_append, h.barred]
    rfl
  · simpa [List.filterMap_cons, Note.report] using h.reports
  · simpa [List.filterMap_cons, Note.finishes] using h.finished
  · simp only [hlen, List.count_append, List.count_singleton]
    simp
    omega
  · simpa using h.supply

/-- Room is made at the cost of another datagram: this one has no slot. -/
theorem makeRoom_free (hsane : reassembler.Sane) {key : DatagramKey}
    (hnew : reassembler.collecting.get key = none)
    (hfree : reassembler.discarding.get key = none) (now : Nat) :
    (reassembler.makeRoom now).collecting.get key = none ∧
      (reassembler.makeRoom now).discarding.get key = none := by
  obtain ⟨_, hslots, hdiscards⟩ := makeRoom_spec hsane now
  rw [LinearMap.get_eq_none_iff] at hnew hfree
  constructor
  · rw [LinearMap.get_eq_none_iff]
    intro slot hmem
    exact hnew slot (hslots _ hmem)
  · rw [LinearMap.get_eq_none_iff]
    intro since hmem
    rcases hdiscards _ hmem with hold | ⟨slot, hslot⟩
    · exact hfree since hold
    · exact hnew slot hslot

theorem Books.openSlot (h : Books drained done 0 log reassembler)
    {key : DatagramKey} (hfree : reassembler.discarding.get key = none)
    (now : Nat) :
    Books drained done 0 (log ++ reassembler.openNotes key now)
      (reassembler.openSlot key now) := by
  unfold openNotes Reassembler.openSlot
  split
  · rename_i hnone
    rw [Option.isNone_iff_eq_none] at hnone
    obtain ⟨hmade, hroom⟩ := h.makeRoom now
    obtain ⟨hnew, hfree'⟩ := makeRoom_free h.sane hnone hfree now
    have hopened := (hmade.allocate hroom).opened hroom hnew hfree'
      ((reassembler.makeRoom now).spare.headD Buffer.new) now
    rw [List.append_assoc, List.append_assoc] at hopened
    exact hopened
  · rw [List.append_nil]
    exact h

/-! ### A fragment -/

theorem Books.kept (h : Books drained done 0 log reassembler)
    {key : DatagramKey} {slot slot' : Collecting}
    (hget : reassembler.collecting.get key = some slot)
    (hfree : reassembler.discarding.get key = none)
    (hstarted : slot'.started = slot.started)
    (hsized : ∀ len, slot'.len = some len → len ≤ maxDatagramLen) :
    Books drained done 0 log
      { reassembler with
        collecting := reassembler.collecting.insert key slot' } := by
  have hlen := LinearMap.len_insert_of_some hget slot'
  refine { h with
    sane := sane_insert h.sane hfree hsized _ _, room := ?_, started := ?_
    taken := ?_, buffers := ?_ }
  · rw [hlen]
    exact h.room
  · intro other
    rw [h.started]
    by_cases hother : other = key
    · rw [hother, hget, LinearMap.get_insert]
      simp [hstarted]
    · rw [LinearMap.get_insert_ne hother]
  · simp only [hlen]
    exact h.taken
  · simp only [hlen]
    exact h.buffers

theorem Books.completed (h : Books drained done 0 log reassembler)
    {key : DatagramKey} {slot : Collecting}
    (hslot : (key, slot) ∈ reassembler.collecting.entries) :
    Books drained (done ++ [key]) 1 (log ++ [.completed key])
      { reassembler with
        collecting := (reassembler.collecting.remove key).1 } := by
  have hlen := LinearMap.len_remove hslot
  have htaken := h.taken
  have hbuffers := h.buffers
  have hroom := h.room
  refine ⟨?_, ?_, h.crowd, ?_, ?_, ?_, ?_, ?_, ?_, ?_, ?_⟩
  · exact sane_dropped 0 h.sane rfl (fun _ => .inr)
  · simp only
    omega
  · apply h.lawful.concat
    rw [Warranted, h.started, LinearMap.get_eq_some_iff.mpr hslot]
    rfl
  · intro other
    rw [startOf_concat, Note.starts, h.started, LinearMap.get_remove]
    by_cases hother : key = other
    · simp [hother]
    · simp [hother, Ne.symm hother]
  · simp only [List.countP_append, List.countP_singleton, Note.isOpening,
      Note.isLeaving]
    simp only [Bool.false_eq_true, if_false, if_true]
    omega
  · intro other
    rw [sinceOf_append, h.barred]
    rfl
  · simpa [List.filterMap_cons, Note.report] using h.reports
  · simp [List.filterMap_cons, Note.finishes, h.finished]
  · simp only [List.count_append, List.count_singleton]
    simp
    omega
  · simpa using h.supply

theorem Books.collect (h : Books drained done 0 log reassembler)
    {key : DatagramKey} {slot : Collecting}
    (hget : reassembler.collecting.get key = some slot)
    (hfree : reassembler.discarding.get key = none) {fragment : Fragment}
    (hend : Fragment.EndFits fragment) (now : Nat) :
    ∃ reassembler' result,
      reassembler.collect key fragment now = .ok (reassembler', result) ∧
      Books drained (done ++ result.toList.map fun _ => key)
        result.toList.length (log ++ reassembler.collectNotes key fragment now)
        reassembler' := by
  have hslot := LinearMap.get_eq_some_iff.mp hget
  have hstart : startOf key log = some slot.started := by
    rw [h.started, hget]
    rfl
  by_cases haccept : Acceptable slot fragment
  case neg =>
    obtain ⟨loss, hadd, hexpired, hevicted⟩ := add_faulty hend haccept
    have hwarranted : Warranted log (.lost key loss now) :=
      ⟨slot.started, hstart, fun hloss => absurd hloss hexpired,
        fun hloss => absurd hloss hevicted⟩
    refine ⟨reassembler.giveUp key loss now, none, ?_, ?_⟩
    · simp only [Reassembler.collect, hget, hadd]
    · simp only [collectNotes, hget, hadd, Option.toList_none, List.map_nil,
        List.append_nil, List.length_nil]
      exact h.giveUp hslot hwarranted
  obtain ⟨slot', hadd, htook⟩ := add_ok haccept
  have hsized' := took_sized (h.sane.sized key slot hslot) haccept htook
  obtain ⟨complete, hcomplete, hiff⟩ := isComplete_total hsized'
  have hkept := h.kept hget hfree htook.started hsized'
  cases complete with
  | false =>
      refine ⟨_, none, collect_kept now hget hadd hcomplete, ?_⟩
      simp only [collectNotes, hget, hadd, hcomplete, Option.toList_none,
        List.map_nil, List.append_nil, List.length_nil]
      exact hkept
  | true =>
      obtain ⟨first, len, hdone⟩ := hiff.mp rfl
      refine ⟨_, _, collect_completed now hget hadd hcomplete hdone, ?_⟩
      simp only [collectNotes, hget, hadd, hcomplete, Option.toList_some,
        List.map_singleton, List.length_singleton]
      exact hkept.completed (LinearMap.get_eq_some_iff.mp
        (LinearMap.get_insert _ _ _))

theorem Books.recycle (h : Books drained done 1 log reassembler)
    (result : Reassembled) :
    Books drained done 0 log (reassembler.recycle result) := by
  have hbuffers := h.buffers
  refine { h with sane := ⟨h.sane.separate, h.sane.sized⟩, buffers := ?_ }
  simp only [Reassembler.recycle, List.length_cons]
  omega

theorem Books.offer (h : Books drained done 0 log reassembler)
    (ingress : CaptureKey) {fragment : Fragment}
    (hend : Fragment.EndFits fragment) (wanted : Bool) (now : Nat) :
    ∃ reassembler' result,
      reassembler.offer ingress fragment wanted now =
        .ok (reassembler', result) ∧
      Books drained
        (done ++ result.toList.map fun _ => keyOf ingress fragment)
        result.toList.length
        (log ++ reassembler.offerNotes ingress fragment wanted now)
        reassembler' := by
  have hexpired := h.expire now
  simp only [Reassembler.offer, offerNotes]
  generalize keyOf ingress fragment = key
  split
  · refine ⟨_, none, rfl, ?_⟩
    simpa using hexpired
  rename_i hkept
  rw [Option.not_isSome_iff_eq_none] at hkept
  rw [← List.append_assoc]
  cases wanted with
  | false =>
      refine ⟨_, none, rfl, ?_⟩
      simpa using hexpired.refuse hkept now
  | true =>
      obtain ⟨_, hfree, _, slot, hget, _⟩ :=
        openSlot_spec hexpired.sane now hkept
      obtain ⟨reassembler', result, hcollect, hbooks⟩ :=
        (hexpired.openSlot hkept now).collect hget hfree hend now
      refine ⟨reassembler', result, hcollect, ?_⟩
      rw [List.append_assoc] at hbooks
      exact hbooks

/-! ## The loop of `expire` -/

theorem expireSlots_settled (now : Nat) {rounds more : Nat}
    (hrounds : reassembler.collecting.len ≤ rounds) :
    expireSlots (rounds + more) reassembler now =
      expireSlots rounds reassembler now := by
  induction rounds generalizing reassembler with
  | zero =>
      have hempty : reassembler.collecting.entries = [] :=
        List.length_eq_zero_iff.mp (Nat.le_zero.mp hrounds)
      have hfirst : reassembler.firstExpired now = none := by
        rw [firstExpired, hempty]
        rfl
      cases more with
      | zero => rfl
      | succ more => simp only [Nat.zero_add, expireSlots, hfirst]
  | succ rounds ih =>
      rw [Nat.succ_add, expireSlots, expireSlots]
      cases hfirst : reassembler.firstExpired now with
      | none => rfl
      | some key =>
          obtain ⟨slot, hslot, _⟩ := firstExpired_some hfirst
          have hlen := LinearMap.len_remove hslot
          apply ih
          rw [giveUp_collecting]
          omega

theorem expire_done (h : reassembler.Sane) (now : Nat) :
    (reassembler.expire now).firstExpired now = none := by
  rw [firstExpired, Option.map_eq_none_iff, List.find?_eq_none]
  intro entry hmem
  have hlive := (((expire_spec h now).2 entry).mp hmem).2
  simp only [decide_eq_true_eq]
  omega

/-! ## Runs -/

structure Offering where
  ingress : CaptureKey
  fragment : Fragment
  wanted : Bool
  now : Nat
  /-- Whether the losses are drained afterwards. -/
  drain : Bool

def Offering.key (offering : Offering) : DatagramKey :=
  keyOf offering.ingress offering.fragment

structure Course where
  reassembler : Reassembler
  log : List Note
  drained : List Lost
  done : List (DatagramKey × Reassembled)

namespace Course

def start : Course := ⟨.new, [], [], []⟩

def recycled (reassembler : Reassembler) (result : Option Reassembled) :
    Reassembler :=
  match result with
  | some done => reassembler.recycle done
  | none => reassembler

def next (course : Course) (offering : Offering) (reassembler : Reassembler)
    (result : Option Reassembled) : Course where
  reassembler :=
    if offering.drain then (recycled reassembler result).drainLost.1
    else recycled reassembler result
  log := course.log ++ course.reassembler.offerNotes offering.ingress
    offering.fragment offering.wanted offering.now
  drained := course.drained ++
    if offering.drain then (recycled reassembler result).drainLost.2 else []
  done := course.done ++ result.toList.map fun done => (offering.key, done)

def offer (course : Course) (offering : Offering) : Except Panic Course := do
  let offered ← course.reassembler.offer offering.ingress offering.fragment
    offering.wanted offering.now
  .ok (course.next offering offered.1 offered.2)

def run (offerings : List Offering) : Except Panic Course :=
  offerings.foldlM offer start

structure Kept (now : Nat) (course : Course) : Prop where
  books : Books course.drained (course.done.map Prod.fst) 0 course.log
    course.reassembler
  timed : Timed now course.log

theorem kept_start : start.Kept 0 := by
  refine ⟨books_new, ?_, List.Pairwise.nil⟩
  intro note hmem
  cases hmem

theorem recycled_books {result : Option Reassembled}
    (h : Books drained done result.toList.length log reassembler) :
    Books drained done 0 log (recycled reassembler result) := by
  cases result with
  | none => exact h
  | some complete => exact h.recycle complete

theorem drained_books (h : Books drained done 0 log reassembler) :
    Books (drained ++ reassembler.drainLost.2) done 0 log
      reassembler.drainLost.1 := by
  refine { h with sane := ⟨h.sane.separate, h.sane.sized⟩, reports := ?_ }
  rw [h.reports]
  exact (List.append_nil _).symm

theorem kept_offer {now : Nat} {course : Course} (h : course.Kept now)
    {offering : Offering} (hend : Fragment.EndFits offering.fragment)
    (hnow : now ≤ offering.now) :
    ∃ course', course.offer offering = .ok course' ∧
      course'.Kept offering.now := by
  obtain ⟨reassembler, result, hoffer, hbooks⟩ := h.books.offer
    offering.ingress hend offering.wanted offering.now
  refine ⟨course.next offering reassembler result, ?_, ?_, ?_⟩
  · simp only [offer, hoffer, bind, Except.bind]
  · have hrecycled := recycled_books hbooks
    have hdone : (course.next offering reassembler result).done.map Prod.fst =
        course.done.map Prod.fst ++ result.toList.map fun _ => offering.key := by
      simp [next, Function.comp_def]
    rw [hdone]
    unfold next
    cases offering.drain with
    | true => exact drained_books hrecycled
    | false =>
        simp only [Bool.false_eq_true, if_false, List.append_nil]
        exact hrecycled
  · exact h.timed.append hnow (offerNotes_atTime _ _ _ _ _)

theorem kept_run (offerings : List Offering)
    (hends : ∀ offering ∈ offerings, Fragment.EndFits offering.fragment)
    (h : (offerings.map Offering.now).Pairwise (· ≤ ·)) :
    ∃ course now, run offerings = .ok course ∧ course.Kept now ∧
      ∀ later, (∀ earlier ∈ offerings, earlier.now ≤ later) → now ≤ later := by
  induction offerings using List.reverseRecOn with
  | nil => exact ⟨start, 0, rfl, kept_start, fun _ _ => Nat.zero_le _⟩
  | append_singleton offerings offering ih =>
      rw [List.map_append, List.pairwise_append] at h
      rw [List.forall_mem_append] at hends
      obtain ⟨course, now, hrun, hkept, hlatest⟩ := ih hends.1 h.1
      have hnow : now ≤ offering.now := by
        apply hlatest
        intro earlier hearlier
        exact h.2.2 _ (List.mem_map_of_mem hearlier) _ (by simp)
      obtain ⟨course', hoffer, hkept'⟩ := kept_offer hkept
        (hends.2 offering (List.mem_singleton_self _)) hnow
      refine ⟨course', offering.now, ?_, hkept', ?_⟩
      · unfold run at hrun
        simp only [run, List.foldlM_append, hrun, List.foldlM_cons,
          List.foldlM_nil, bind, Except.bind, hoffer]
        rfl
      · intro later hlater
        exact hlater offering (by simp)

structure Balanced (course : Course) : Prop where
  room : course.reassembler.collecting.len ≤ slots
  crowd : course.reassembler.discarding.len ≤ discards
  unique : (course.reassembler.collecting.entries.map Prod.fst).Nodup ∧
    (course.reassembler.discarding.entries.map Prod.fst).Nodup
  separate : ∀ key slot since,
    (key, slot) ∈ course.reassembler.collecting.entries →
    (key, since) ∉ course.reassembler.discarding.entries
  supply : course.log.count .allocated ≤ slots
  buffers : course.reassembler.collecting.len +
    course.reassembler.spare.length = course.log.count .allocated
  lawful : Lawful course.log
  once : ∀ key, course.log.countP (Note.opens key) =
    course.log.countP (Note.leaves key) +
      (course.reassembler.collecting.get key).isSome.toNat
  finished : course.log.filterMap Note.finishes = course.done.map Prod.fst
  reported : course.log.filterMap Note.report =
    course.drained ++ course.reassembler.lost
  started : ∀ key, startOf key course.log =
    (course.reassembler.collecting.get key).map Collecting.started
  barred : ∀ key, sinceOf key course.log =
    course.reassembler.discarding.get key

theorem Kept.balanced {now : Nat} {course : Course} (h : course.Kept now) :
    course.Balanced where
  room := h.books.room
  crowd := h.books.crowd
  unique := ⟨course.reassembler.collecting.nodup,
    course.reassembler.discarding.nodup⟩
  separate := h.books.sane.separate
  supply := h.books.supply
  buffers := h.books.buffers
  lawful := h.books.lawful
  once key := by
    rw [h.books.lawful.balanced key, h.books.started, Option.isSome_map]
  finished := h.books.finished
  reported := h.books.reports
  started := h.books.started
  barred := h.books.barred

/-- The offering finds its datagram given up or unwanted, and its discard entry
neither old nor displaced. -/
def Discards (course : Course) (offering : Offering) : Prop :=
  ∃ before note after since,
    course.log ++ course.reassembler.expireNotes offering.now =
      before ++ note :: after ∧
    note.Bars offering.key since ∧ .displaced offering.key ∉ after ∧
    offering.now - since < expiry

theorem Kept.ignores {now : Nat} {course : Course} (h : course.Kept now)
    {offering : Offering} (hnow : now ≤ offering.now)
    (hdiscards : course.Discards offering) :
    course.reassembler.offer offering.ingress offering.fragment
      offering.wanted offering.now =
        .ok (course.reassembler.expire offering.now, none) := by
  obtain ⟨before, note, after, since, hsplit, hbars, hdisplaced, hfresh⟩ :=
    hdiscards
  have htimed := h.timed.append hnow
    (expireNotes_atTime course.reassembler offering.now)
  have hbarred := (h.books.expire offering.now).barred offering.key
  rw [hsplit] at htimed hbarred
  obtain ⟨last, hlast⟩ := sinceOf_stays hbars htimed hdisplaced hfresh
  rw [hlast] at hbarred
  simp only [Reassembler.offer]
  rw [if_pos]
  exact Option.isSome_iff_exists.mpr ⟨last, hbarred.symm⟩

/-- The reassembler keeps its books over every run of fragments whose ends
are `usize`s. -/
theorem books_balance (offerings : List Offering)
    (hends : ∀ offering ∈ offerings, Fragment.EndFits offering.fragment)
    (h : (offerings.map Offering.now).Pairwise (· ≤ ·)) :
    ∃ course, run offerings = .ok course ∧ course.Balanced ∧
      (∀ offering, (∀ earlier ∈ offerings, earlier.now ≤ offering.now) →
        course.Discards offering →
        course.reassembler.offer offering.ingress offering.fragment
          offering.wanted offering.now =
            .ok (course.reassembler.expire offering.now, none)) ∧
      ∀ now rounds, course.reassembler.collecting.len ≤ rounds →
        expireSlots rounds (course.reassembler.prune now) now =
          course.reassembler.expire now ∧
        (course.reassembler.expire now).firstExpired now = none := by
  obtain ⟨course, now, hrun, hkept, hlatest⟩ := kept_run offerings hends h
  refine ⟨course, hrun, hkept.balanced, ?_, ?_⟩
  · intro offering hlater
    exact hkept.ignores (hlatest offering.now hlater)
  · intro now rounds hrounds
    obtain ⟨more, rfl⟩ := Nat.exists_eq_add_of_le hrounds
    exact ⟨expireSlots_settled now (Nat.le_refl _),
      expire_done hkept.books.sane now⟩

def pieceOffering (ident : UInt32) (offset : Nat) (more wanted : Bool)
    (now : Nat) : Offering :=
  ⟨⟨0⟩, ⟨⟨loopback, loopback, ident, offset, more, 64, none, none⟩,
    List.replicate 8 1⟩, wanted, now, true⟩

/-- First pieces of as many datagrams as there are slots and one more; then
the last piece of the second, and an unwanted one when the others are old. -/
def crowdedOfferings : List Offering :=
  (List.range 17).map (fun ident =>
      pieceOffering (UInt32.ofNat ident) 0 true true ident) ++
    [pieceOffering 1 8 false true 20,
      pieceOffering 30 0 true false 2000000010]

/-- What the run comes to: one datagram evicted, one completed, nine expired,
and one unwanted, whose later pieces are still to come. -/
structure Crowded (course : Course) : Prop where
  completed : course.done.map Prod.fst = [(pieceOffering 1 0 true true 0).key]
  losses : course.drained.map Lost.loss = .evicted :: List.replicate 9 .expired
  supply : course.log.count .allocated = slots
  unwanted : course.log.getLast? =
    some (.barred (pieceOffering 30 0 true true 0).key 2000000010)
  kept : .displaced (pieceOffering 30 0 true true 0).key ∉
    course.reassembler.expireNotes 2000000011

theorem crowded_run {course : Course} (h : run crowdedOfferings = .ok course) :
    course.Crowded := by
  have hall : (run crowdedOfferings).map (fun course =>
      (course.done.map Prod.fst, course.drained.map Lost.loss,
        course.log.count .allocated, course.log.getLast?,
        decide (.displaced (pieceOffering 30 0 true true 0).key ∈
          course.reassembler.expireNotes 2000000011))) =
      .ok ([(pieceOffering 1 0 true true 0).key],
        .evicted :: List.replicate 9 .expired, slots,
        some (.barred (pieceOffering 30 0 true true 0).key 2000000010),
        false) := by decide +kernel
  rw [h] at hall
  have hfacts := Except.ok.inj hall
  simp only [Prod.mk.injEq] at hfacts
  obtain ⟨hdone, hlosses, hsupply, hlast, hkept⟩ := hfacts
  exact ⟨hdone, hlosses, hsupply, hlast, of_decide_eq_false hkept⟩

theorem crowded_balanced :
    ∃ course, run crowdedOfferings = .ok course ∧ course.Balanced ∧
      course.Crowded ∧
      course.reassembler.offer ⟨0⟩ (pieceOffering 30 8 false true 0).fragment
        true 2000000011 =
          .ok (course.reassembler.expire 2000000011, none) := by
  obtain ⟨course, hrun, hbalanced, hignores, _⟩ :=
    books_balance crowdedOfferings (by decide +kernel) (by decide +kernel)
  have hcrowded := crowded_run hrun
  refine ⟨course, hrun, hbalanced, hcrowded,
    hignores (pieceOffering 30 8 false true 2000000011) (by decide +kernel) ?_⟩
  obtain ⟨before, hlog⟩ := List.getLast?_eq_some_iff.mp hcrowded.unwanted
  refine ⟨before, _, course.reassembler.expireNotes 2000000011, 2000000010,
    ?_, .inr (.inr rfl), hcrowded.kept, by decide⟩
  rw [hlog, List.append_assoc]
  rfl

def overflowOffering : Offering :=
  pieceOffering 1 18446744073709551612 true true 5

theorem overflow_panics :
    ([overflowOffering].map Offering.now).Pairwise (· ≤ ·) ∧
      run [overflowOffering] = .error .overflow :=
  ⟨List.pairwise_singleton _ _, rfl⟩

end Course

end Netflector.Dispatch.Reassembler
