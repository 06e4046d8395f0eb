import Netflector.Net.Mdns.Guarded
import Netflector.Net.Mdns.Sections

/-!
# The DNS walkers never panic

Whatever the payload, the walkers with their panics written in end as the
walkers without them: no access leaves its range, nothing overflows, and
every loop ends within its rounds.  A slice is at most `isize::MAX` octets
long, so an offset into one has room to spare.
-/

namespace Netflector.Net.Mdns.Guarded

open Netflector.Foundation

variable {usize : Usize} {payload : Bytes}

/-! ## Names -/

theorem add_short (hfits : payload.length ≤ usize.maxLen) {offset : Nat}
    {octet : UInt8} (h : payload[offset]? = some octet) {by_ : Nat}
    (hshort : by_ ≤ 100000) : usize.add offset by_ = some (offset + by_) := by
  have hlt : offset < payload.length := (List.getElem?_eq_some_iff.mp h).1
  have hroom := usize.maxLen_lt_top
  exact Usize.add_eq (by omega)

theorem add_small (usize : Usize) {first second : Nat}
    (hfirst : first ≤ 100000) (hsecond : second ≤ 100000) :
    usize.add first second = some (first + second) := by
  have hroom := usize.maxLen_lt_top
  exact Usize.add_eq (by omega)

theorem label_short {len : UInt8} (h : labelTag len = .plain) :
    len.toNat ≤ 63 := by
  unfold labelTag at h
  split at h
  · cases h
  · split at h
    · rename_i hle
      exact UInt8.le_iff_toNat_le.mp hle
    · split at h <;> cases h

theorem skipNameFrom_eq (hfits : payload.length ≤ usize.maxLen)
    {rounds offset : Nat} (h : payload.length - offset < rounds) :
    skipNameFrom usize payload rounds offset =
      some (Mdns.skipNameFrom payload rounds offset) := by
  induction rounds generalizing offset with
  | zero => omega
  | succ rounds ih =>
      simp only [skipNameFrom, Mdns.skipNameFrom]
      cases hlen : payload[offset]? with
      | none => rfl
      | some len =>
          have hlt : offset < payload.length :=
            (List.getElem?_eq_some_iff.mp hlen).1
          cases htag : labelTag len with
          | root =>
              simp only [htag, add_short hfits hlen (by omega : 1 ≤ 100000)]
              rfl
          | plain =>
              have hshort := label_short htag
              simp only [htag, add_small usize (by omega : 1 ≤ 100000)
                  (by omega : len.toNat ≤ 100000),
                add_short hfits hlen (by omega : 1 + len.toNat ≤ 100000),
                Option.bind_eq_bind, Option.bind_some]
              exact ih (by omega)
          | pointer =>
              simp only [htag, add_short hfits hlen (by omega : 1 ≤ 100000),
                add_short hfits hlen (by omega : 2 ≤ 100000),
                Option.bind_eq_bind, Option.bind_some]
              cases payload[offset + 1]? <;> rfl
          | reserved => simp only [htag]

theorem skipName_eq (hfits : payload.length ≤ usize.maxLen) (offset : Nat) :
    skipName usize payload offset = some (Mdns.skipName payload offset) :=
  skipNameFrom_eq hfits (by omega)

structure Going (labels : Labels) : Prop where
  len_lt : labels.len < maxNameLen
  hops_le : labels.hops ≤ maxPointerHops
  going : labels.done = false

theorem Going.new (offset : Nat) : Going (Labels.new offset) :=
  ⟨by simp only [Labels.new]; decide, by simp only [Labels.new]; decide, rfl⟩

theorem labelsStep_eq (hfits : payload.length ≤ usize.maxLen) {budget : Nat}
    {labels : Labels} (h : Going labels) :
    labelsStep usize payload budget labels =
      some (Labels.step payload budget labels) := by
  induction budget generalizing labels with
  | zero => rfl
  | succ budget ih =>
      have hlen : labels.len < 255 := h.len_lt
      have hhops : labels.hops ≤ 127 := h.hops_le
      simp only [labelsStep, Labels.step]
      cases hoctet : payload[labels.offset]? with
      | none => rfl
      | some len =>
          cases htag : labelTag len with
          | root => simp only [htag]
          | plain =>
              have hshort := label_short htag
              have hstart : labels.offset < payload.length :=
                (List.getElem?_eq_some_iff.mp hoctet).1
              have hroom := usize.maxLen_lt_top
              simp only [htag, add_short hfits hoctet (by omega : 1 ≤ 100000),
                Usize.add_eq (show labels.offset + 1 + len.toNat < usize.top by
                  omega), Option.bind_eq_bind, Option.bind_some]
              cases hslice : slice? payload (labels.offset + 1)
                  (labels.offset + 1 + len.toNat) with
              | none => rfl
              | some label =>
                  have hlabel : label.length = len.toNat := by
                    rw [slice?_length hslice]
                    omega
                  simp only [hlabel, add_small usize (by omega : 1 ≤ 100000)
                      (by omega : len.toNat ≤ 100000),
                    add_small usize (by omega : labels.len ≤ 100000)
                      (by omega : 1 + len.toNat ≤ 100000),
                    Usize.add_eq (show labels.offset + 1 + len.toNat <
                      usize.top by omega), Option.bind_some]
                  split <;> rfl
          | pointer =>
              simp only [htag, add_short hfits hoctet (by omega : 1 ≤ 100000),
                add_small usize (by omega : labels.hops ≤ 100000)
                  (by omega : 1 ≤ 100000), Option.bind_eq_bind,
                Option.bind_some]
              cases payload[labels.offset + 1]? with
              | none => rfl
              | some low =>
                  simp only
                  split
                  · rfl
                  · rename_i hhop
                    exact ih ⟨h.len_lt, Nat.le_of_not_lt hhop, h.going⟩
          | reserved => simp only [htag]

inductive Stepped (labels : Labels) (budget : Nat) :
    Except Malformed (Option Bytes) × Labels × Nat → Prop
  | label (label : Bytes) (after : Labels) (left : Nat) (hleft : left < budget)
      (hlen : after.len = labels.len + (1 + label.length))
      (hgoing : Going after) : Stepped labels budget (.ok (some label), after, left)
  | root (after : Labels) (left : Nat) (hleft : left ≤ budget)
      (hlen : after.len = labels.len) (hgoing : Going after) :
      Stepped labels budget (.ok none, after, left)
  | failed (after : Labels) (left : Nat) (hleft : left ≤ budget) :
      Stepped labels budget (.error ⟨⟩, after, left)

theorem Stepped.more {labels labels' : Labels} {budget more : Nat}
    {result : Except Malformed (Option Bytes) × Labels × Nat}
    (h : Stepped labels budget result) (hle : budget ≤ more)
    (hlen : labels.len = labels'.len) : Stepped labels' more result := by
  cases h with
  | label label after left hleft hlabel hgoing =>
      exact .label label after left (by omega) (by omega) hgoing
  | root after left hleft hroot hgoing =>
      exact .root after left (by omega) (by omega) hgoing
  | failed after left hleft => exact .failed after left (by omega)

theorem stepped (payload : Bytes) (budget : Nat) {labels : Labels}
    (h : Going labels) :
    Stepped labels budget (Labels.step payload budget labels) := by
  induction budget generalizing labels with
  | zero => exact .failed labels 0 (Nat.le_refl 0)
  | succ budget ih =>
      simp only [Labels.step]
      cases payload[labels.offset]? with
      | none => exact .failed labels budget (by omega)
      | some len =>
          cases htag : labelTag len with
          | root =>
              simp only [htag]
              exact .root labels budget (by omega) rfl h
          | plain =>
              simp only [htag]
              cases slice? payload (labels.offset + 1)
                  (labels.offset + 1 + len.toNat) with
              | none => exact .failed labels budget (by omega)
              | some label =>
                  simp only
                  split
                  · exact .failed _ budget (by omega)
                  · rename_i hshort
                    exact .label label _ budget (by omega) rfl
                      ⟨Nat.lt_of_not_le hshort, h.hops_le, h.going⟩
          | pointer =>
              simp only [htag]
              cases payload[labels.offset + 1]? with
              | none => exact .failed labels budget (by omega)
              | some low =>
                  simp only
                  split
                  · exact .failed _ budget (by omega)
                  · rename_i hhop
                    have hnext : Going { labels with
                        hops := labels.hops + 1
                        offset := pointerTarget len low } :=
                      ⟨h.len_lt, Nat.le_of_not_lt hhop, h.going⟩
                    exact (ih hnext).more (Nat.le_succ budget) rfl
          | reserved =>
              simp only [htag]
              exact .failed labels budget (by omega)

theorem labelsNext_eq (hfits : payload.length ≤ usize.maxLen)
    {labels : Labels} (h : Going labels) (budget : Nat) :
    labelsNext usize payload labels budget =
      some (Labels.next payload labels budget) := by
  simp only [labelsNext, Labels.next, h.going, labelsStep_eq hfits h]
  rcases Labels.step payload budget labels with ⟨_ | _ | _, _, _⟩ <;> rfl

inductive Yielded (labels : Labels) (budget : Nat) :
    Option (Except Malformed Bytes) × Labels × Nat → Prop
  | label (label : Bytes) (after : Labels) (left : Nat) (hleft : left < budget)
      (hlen : after.len = labels.len + (1 + label.length))
      (hgoing : Going after) :
      Yielded labels budget (some (.ok label), after, left)
  | ended (after : Labels) (left : Nat) (hleft : left ≤ budget)
      (hhops : after.hops ≤ maxPointerHops) (hdone : after.done = true) :
      Yielded labels budget (none, after, left)
  | failed (after : Labels) (left : Nat) (hleft : left ≤ budget)
      (hdone : after.done = true) :
      Yielded labels budget (some (.error ⟨⟩), after, left)

theorem yielded (payload : Bytes) {labels : Labels} (h : Going labels)
    (budget : Nat) :
    Yielded labels budget (Labels.next payload labels budget) := by
  have hstep := stepped payload budget h
  simp only [Labels.next, h.going, Bool.false_eq_true, if_false]
  generalize Labels.step payload budget labels = result at hstep
  cases hstep with
  | label label after left hleft hlen hgoing =>
      exact .label label after left hleft hlen hgoing
  | root after left hleft hlen hgoing =>
      exact .ended _ left hleft hgoing.hops_le rfl
  | failed after left hleft => exact .failed _ left hleft rfl

def nameOctets : List Bytes → Nat
  | [] => 0
  | label :: labels => 1 + label.length + nameOctets labels

theorem yields_done {labels : Labels} (h : labels.done = true)
    (calls budget : Nat) :
    yields usize payload calls labels budget =
      some (List.replicate calls none, labels, budget) := by
  induction calls with
  | zero => rfl
  | succ calls ih =>
      simp only [yields, labelsNext, h, if_true, ih, Option.bind_eq_bind,
        Option.bind_some, List.replicate_succ]

/-- How a label walk stands once it has yielded its labels: quiet from then
on, at most 127 pointers followed, or with one error behind it. -/
def Ends (after : Labels) (ending : List (Option (Except Malformed Bytes))) :
    Prop :=
  (∃ quiet, ending = List.replicate quiet none ∧
    after.hops ≤ maxPointerHops) ∨
  ∃ quiet, ending = some (.error ⟨⟩) :: List.replicate quiet none

theorem yields_going (hfits : payload.length ≤ usize.maxLen)
    {labels : Labels} (h : Going labels) (calls budget : Nat) :
    ∃ names ending after left, yields usize payload calls labels budget =
        some (names.map (fun label => some (.ok label)) ++ ending, after, left) ∧
      left ≤ budget ∧ labels.len + nameOctets names < maxNameLen ∧
      Ends after ending := by
  induction calls generalizing labels budget with
  | zero =>
      exact ⟨[], [], labels, budget, rfl, Nat.le_refl budget, h.len_lt,
        .inl ⟨0, rfl, h.hops_le⟩⟩
  | succ calls ih =>
      simp only [yields, labelsNext_eq hfits h, Option.bind_eq_bind,
        Option.bind_some]
      have hnext := yielded payload h budget
      generalize Labels.next payload labels budget = result at hnext
      cases hnext with
      | label label after left hleft hlen hgoing =>
          obtain ⟨names, ending, last, rest, hyields, hle, hoctets, hends⟩ :=
            ih hgoing left
          simp only [hyields, Option.bind_some]
          refine ⟨label :: names, ending, last, rest, rfl, by omega, ?_, hends⟩
          simp only [nameOctets]
          omega
      | ended after left hleft hhops hdone =>
          simp only [yields_done hdone, Option.bind_some]
          exact ⟨[], _, after, left, rfl, hleft, h.len_lt,
            .inl ⟨calls + 1, rfl, hhops⟩⟩
      | failed after left hleft hdone =>
          simp only [yields_done hdone, Option.bind_some]
          exact ⟨[], _, after, left, rfl, hleft, h.len_lt,
            .inr ⟨calls, rfl⟩⟩

theorem pull_safe (hfits : payload.length ≤ usize.maxLen)
    (more : List Bytes → Bool) {rounds budget : Nat} {labels : Labels}
    (seen : List Bytes) (h : Going labels) (hrounds : budget < rounds) :
    ∃ ending left, pull usize payload more rounds labels seen budget =
      some (ending, left) ∧ left ≤ budget := by
  induction rounds generalizing labels seen budget with
  | zero => omega
  | succ rounds ih =>
      simp only [pull]
      split
      · rw [labelsNext_eq hfits h]
        have hnext := yielded payload h budget
        generalize Labels.next payload labels budget = result at hnext
        cases hnext with
        | label label after left hleft hlen hgoing =>
            obtain ⟨ending, rest, hpull, hle⟩ :=
              ih (seen ++ [label]) hgoing (by omega : left < rounds)
            exact ⟨ending, rest, hpull, by omega⟩
        | ended after left hleft hhops hdone =>
            exact ⟨.ok seen, left, rfl, hleft⟩
        | failed after left hleft hdone =>
            exact ⟨.error ⟨⟩, left, rfl, hleft⟩
      · exact ⟨.ok seen, budget, rfl, Nat.le_refl budget⟩

theorem readWhile_safe (hfits : payload.length ≤ usize.maxLen)
    (more : List Bytes → Bool) (offset : Nat) :
    (readWhile usize payload more offset).Safe fun _ => True := by
  intro budget
  obtain ⟨ending, left, hpull, hle⟩ :=
    pull_safe hfits more [] (Going.new offset)
      (Nat.lt_succ_self budget)
  exact ⟨ending, left, hpull, hle, fun _ _ => trivial⟩

theorem pull_alike (hfits : payload.length ≤ usize.maxLen)
    {rounds budget : Nat} {labels : Labels} (seen : List Bytes)
    (h : Going labels) (hrounds : budget < rounds) :
    Metered.Alike budget (fun _ => True)
      (pull usize payload (fun _ => true) rounds labels seen budget)
      ((Labels.collect payload rounds labels budget).map fun read =>
        (seen ++ read.1, read.2)) := by
  induction rounds generalizing labels seen budget with
  | zero => omega
  | succ rounds ih =>
      simp only [pull, if_true, Labels.collect]
      rw [labelsNext_eq hfits h]
      have hnext := yielded payload h budget
      generalize Labels.next payload labels budget = result at hnext
      cases hnext with
      | label label after left hleft hlen hgoing =>
          have hrest := ih (seen ++ [label]) hgoing
            (by omega : left < rounds)
          refine (hrest.mono (Nat.le_of_lt hleft)).congr ?_
          cases hcollect : Labels.collect payload rounds after left with
          | error reason => simp [hcollect, Except.map, bind, Except.bind]
          | ok read => simp [hcollect, Except.map, bind, Except.bind]
      | ended after left hleft hhops hdone =>
          simp only [Except.map, List.append_nil]
          exact .ok seen left hleft trivial
      | failed after left hleft hdone => exact .error _ left hleft

theorem readName_agrees (hfits : payload.length ≤ usize.maxLen)
    (offset : Nat) :
    (readName usize payload offset).Agrees (Mdns.readName payload offset)
      fun _ => True := by
  intro budget
  refine (pull_alike hfits [] (Going.new offset)
    (Nat.lt_succ_self budget)).congr ?_
  simp only [Mdns.readName, List.nil_append]
  cases Labels.collect payload (budget + 1) (Labels.new offset) budget <;> rfl

theorem checkName_spends (hfits : payload.length ≤ usize.maxLen)
    (offset : Nat) :
    (checkName usize payload offset).Spends (Mdns.checkName payload offset) := by
  intro budget
  unfold checkName Mdns.checkName
  obtain ⟨read, left, hrun, hmodel, hle, -⟩ | ⟨reason, left, hrun, hmodel, hle⟩ :=
    (readName_agrees hfits offset budget).cases
  · rw [Metered.bind_ok hrun, hmodel]
    exact .inl ⟨left, rfl, rfl, hle⟩
  · rw [Metered.bind_error hrun, hmodel]
    exact .inr ⟨reason, left, rfl, rfl, hle⟩

theorem skipped_eq (hfits : payload.length ≤ usize.maxLen) (offset : Nat) :
    skipped usize payload offset =
      Metered.demand ⟨⟩ (Mdns.skipName payload offset) := by
  unfold skipped
  rw [skipName_eq hfits, Metered.access_bind]

/-! ## Entries -/

theorem names_in_range {entry : Entry}
    (hfits : payload.length ≤ usize.maxLen) (h : entry.WellPlaced payload)
    {names : RdataNames} (hnames : entry.rdataNames = some names) :
    usize.add entry.rdata names.offset = some (entry.rdata + names.offset) := by
  have hoffset : names.offset ≤ 6 := by
    have hkind := (Option.filter_eq_some_iff.mp hnames).1
    unfold Mdns.rdataNames at hkind
    repeat' split at hkind
    all_goals first
      | cases hkind; decide
      | cases hkind
  have hroom := usize.maxLen_lt_top
  have hrdata := h.rdata_le
  have hstop := h.stop_le
  exact Usize.add_eq (by omega)

theorem checkRdataNames_spends (hfits : payload.length ≤ usize.maxLen)
    (stop count offset : Nat) :
    (checkRdataNames usize payload stop count offset).Spends
      (Mdns.checkRdataNames payload stop count offset) := by
  induction count generalizing offset with
  | zero => exact fun budget => .inl ⟨budget, rfl, rfl, Nat.le_refl budget⟩
  | succ count ih =>
      intro budget
      simp only [checkRdataNames, skipped_eq hfits, Mdns.checkRdataNames]
      obtain ⟨left, hrun, hmodel, hle⟩ | ⟨reason, left, hrun, hmodel, hle⟩ :=
        checkName_spends hfits offset budget
      · rw [Metered.bind_ok hrun, hmodel]
        simp only [bind, Except.bind]
        cases Mdns.skipName payload offset with
        | none => exact .inr ⟨_, left, rfl, rfl, hle⟩
        | some next =>
            by_cases hstop : next ≤ stop
            · simp only [if_neg (Nat.not_lt.mpr hstop)]
              obtain ⟨rest, hrun, hmodel, hless⟩ |
                  ⟨reason, rest, hrun, hmodel, hless⟩ := ih next left
              · refine .inl ⟨rest, ?_, hmodel, Nat.le_trans hless hle⟩
                show (Metered.require _ _ >>= _) left = _
                rw [Metered.require_bind hstop]
                exact hrun
              · refine .inr ⟨reason, rest, ?_, hmodel, Nat.le_trans hless hle⟩
                show (Metered.require _ _ >>= _) left = _
                rw [Metered.require_bind hstop]
                exact hrun
            · refine .inr ⟨⟨⟩, left, ?_, if_pos (Nat.lt_of_not_le hstop), hle⟩
              show (Metered.require _ _ >>= _) left = _
              rw [Metered.require_not_bind hstop]
              rfl
      · rw [Metered.bind_error hrun, hmodel]
        exact .inr ⟨reason, left, rfl, rfl, hle⟩

theorem checkNames_spends (hfits : payload.length ≤ usize.maxLen)
    {entry : Entry} (h : entry.WellPlaced payload) :
    (checkNames usize payload entry).Spends (entry.checkNames payload) := by
  intro budget
  simp only [checkNames, Entry.checkNames]
  obtain ⟨left, hrun, hmodel, hle⟩ | ⟨reason, left, hrun, hmodel, hle⟩ :=
    checkName_spends hfits entry.name budget
  · rw [Metered.bind_ok hrun, hmodel]
    simp only [bind, Except.bind]
    cases hnames : entry.rdataNames with
    | none => exact .inl ⟨left, rfl, rfl, hle⟩
    | some names =>
        simp only [names_in_range hfits h hnames]
        obtain ⟨rest, hrun, hmodel, hless⟩ |
            ⟨reason, rest, hrun, hmodel, hless⟩ :=
          checkRdataNames_spends hfits entry.stop names.count
            (entry.rdata + names.offset) left
        · exact .inl ⟨rest, hrun, hmodel, Nat.le_trans hless hle⟩
        · exact .inr ⟨reason, rest, hrun, hmodel, Nat.le_trans hless hle⟩
  · rw [Metered.bind_error hrun, hmodel]
    exact .inr ⟨reason, left, rfl, rfl, hle⟩

theorem skipName_le {offset next : Nat}
    (h : Mdns.skipName payload offset = some next) : next ≤ payload.length :=
  (skipName_eq_some_iff.mp h).bounds.2

/-- The octets of the type lie in the fixed part just sliced, and so do those
of the length. -/
theorem entryAt_eq (hfits : payload.length ≤ usize.maxLen) (sect : Section)
    (offset : Nat) :
    entryAt usize payload sect offset =
      Metered.ofExcept (Mdns.entryAt payload sect offset) := by
  have hroom := usize.maxLen_lt_top
  simp only [entryAt, skipped_eq hfits, Mdns.entryAt]
  cases hskip : Mdns.skipName payload offset with
  | none => rfl
  | some fixed =>
      have hfixed := skipName_le hskip
      simp only [Metered.demand_some_bind]
      split
      · rw [Usize.add_eq (by omega), Metered.access_bind]
        cases hslice : slice? payload fixed (fixed + 4) with
        | none =>
            cases be16At payload fixed <;> rfl
        | some head =>
            have hstop := (slice?_eq_some_iff.mp hslice).2.1
            obtain ⟨rtype, hrtype⟩ :=
              be16At_isSome (show fixed + 2 ≤ payload.length by omega)
            simp only [hrtype]
            rfl
      · rw [Usize.add_eq (by omega), Metered.access_bind]
        cases hslice : slice? payload fixed (fixed + 10) with
        | none =>
            cases be16At payload fixed <;>
              cases be16At payload (fixed + 8) <;> rfl
        | some head =>
            have hstop := (slice?_eq_some_iff.mp hslice).2.1
            have hhead : head.length = 10 := by
              rw [slice?_length hslice]
              omega
            obtain ⟨rtype, hrtype⟩ :=
              be16At_isSome (show fixed + 2 ≤ payload.length by omega)
            obtain ⟨length, hlength⟩ :=
              be16At_isSome (show 8 + 2 ≤ head.length by omega)
            have hsame : be16At payload (fixed + 8) = some length := by
              rw [← hlength]
              simp only [be16At, Nat.add_assoc,
                getElem?_of_slice? hslice 8 (by omega),
                getElem?_of_slice? hslice (8 + 1) (by omega)]
            have hshort := be16At_lt hlength
            rw [Metered.demand_some_bind, hlength, Metered.access_bind,
              Usize.add_eq (by omega), Metered.access_bind]
            simp only [hrtype, hsame]
            by_cases hend : fixed + 10 + length ≤ payload.length
            · rw [Metered.require_bind hend, if_neg (by omega)]
              rfl
            · rw [Metered.require_not_bind hend, if_pos (by omega)]
              rfl

def upcoming : List (Section × Nat) → List Section
  | [] => []
  | (sect, left) :: rest => List.replicate left sect ++ upcoming rest

theorem takeSlot_none {remaining : List (Section × Nat)}
    (h : takeSlot remaining = none) : upcoming remaining = [] := by
  induction remaining with
  | nil => rfl
  | cons slot rest ih =>
      obtain ⟨sect, left⟩ := slot
      cases left with
      | zero =>
          simp only [takeSlot, Option.map_eq_none_iff] at h
          simpa [upcoming] using ih h
      | succ left => simp [takeSlot] at h

theorem takeSlot_some {remaining rest : List (Section × Nat)} {sect : Section}
    (h : takeSlot remaining = some (sect, rest)) :
    upcoming remaining = sect :: upcoming rest := by
  induction remaining generalizing rest with
  | nil => cases h
  | cons slot others ih =>
      obtain ⟨first, left⟩ := slot
      cases left with
      | zero =>
          simp only [takeSlot, Option.map_eq_some_iff] at h
          obtain ⟨taken, htaken, heq⟩ := h
          cases heq
          simpa [upcoming] using ih htaken
      | succ left =>
          simp only [takeSlot, Option.some.injEq, Prod.mk.injEq] at h
          obtain ⟨rfl, rfl⟩ := h
          rfl

theorem upcoming_new (payload : Bytes) :
    upcoming (Entries.new payload).remaining = announced payload := by
  simp [Entries.new, upcoming, announced]

structure Facing (walk : Entries) (sects : List Section) : Prop where
  going : walk.done = false
  upcoming_eq : upcoming walk.remaining = sects

theorem Facing.new (h : dnsHeaderLen ≤ payload.length) :
    Facing (Entries.new payload) (announced payload) := by
  refine ⟨?_, upcoming_new payload⟩
  simp only [Entries.new, decide_eq_false_iff_not]
  omega

theorem Facing.next_nil {walk : Entries} (h : Facing walk []) :
    walk.next usize payload = pure none := by
  simp only [Entries.next, h.going, Bool.false_eq_true, if_false]
  cases htake : takeSlot walk.remaining with
  | none => rfl
  | some taken =>
      have hsome := takeSlot_some htake
      rw [h.upcoming_eq] at hsome
      cases hsome

theorem Facing.next_cons (hfits : payload.length ≤ usize.maxLen)
    {walk : Entries} {sect : Section} {sects : List Section}
    (h : Facing walk (sect :: sects)) :
    ∃ remaining, upcoming remaining = sects ∧
      walk.next usize payload =
        (Metered.ofExcept (Mdns.entryAt payload sect walk.offset) >>=
          fun entry => pure (some (entry, ⟨entry.stop, remaining, false⟩))) := by
  simp only [Entries.next, h.going, Bool.false_eq_true, if_false]
  cases htake : takeSlot walk.remaining with
  | none =>
      have hnone := takeSlot_none htake
      rw [h.upcoming_eq] at hnone
      cases hnone
  | some taken =>
      have hsome := takeSlot_some htake
      rw [h.upcoming_eq] at hsome
      cases hsome
      exact ⟨taken.2, rfl, by simp only [entryAt_eq hfits]⟩

theorem drain_facing (hfits : payload.length ≤ usize.maxLen)
    {sects : List Section} {rounds : Nat} {walk : Entries}
    (h : Facing walk sects) (hrounds : sects.length < rounds) :
    drain usize payload rounds walk =
      Metered.ofExcept (walkEntries payload sects walk.offset) := by
  induction sects generalizing rounds walk with
  | nil =>
      obtain ⟨rounds, rfl⟩ := Nat.exists_eq_add_of_lt hrounds
      simp only [drain, h.next_nil, Metered.pure_bind]
      rfl
  | cons sect sects ih =>
      obtain ⟨rounds, rfl⟩ : ∃ more, rounds = more + 1 :=
        ⟨rounds - 1, by omega⟩
      have hless : sects.length < rounds := by
        simp only [List.length_cons] at hrounds
        omega
      obtain ⟨remaining, hupcoming, hnext⟩ := h.next_cons hfits
      simp only [drain, hnext, walkEntries]
      cases Mdns.entryAt payload sect walk.offset with
      | error reason => rfl
      | ok entry =>
          have hfacing : Facing ⟨entry.stop, remaining, false⟩ sects :=
            ⟨rfl, hupcoming⟩
          show (drain usize payload rounds ⟨entry.stop, remaining, false⟩ >>=
            fun rest => pure (entry :: rest)) = _
          rw [ih hfacing hless]
          cases hwalked : walkEntries payload sects entry.stop with
          | error reason => simp only [except_ok_bind, hwalked]; rfl
          | ok rest => simp only [except_ok_bind, hwalked]; rfl

theorem drain_eq (hfits : payload.length ≤ usize.maxLen) :
    drain usize payload (walkRounds payload) (Entries.new payload) =
      Metered.ofExcept (entries payload) := by
  unfold entries
  split
  · rename_i hshort
    simp only [walkRounds, drain, Entries.next, Entries.new, hshort,
      decide_true, if_true]
    rfl
  · rename_i hlong
    exact drain_facing hfits (Facing.new (Nat.le_of_not_lt hlong))
      (Nat.lt_succ_self _)

end Netflector.Net.Mdns.Guarded
