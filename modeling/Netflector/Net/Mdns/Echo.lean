import Netflector.Net.Mdns.Layout
import Netflector.Net.Mdns.Progress

/-!
# Trimming a trimmed message again

A message laid out by a trim is a fixed point: written again with every entry
kept, each label lands where it was, so each pointer goes where it went, and
the octets of every name, field and length come out as they are.
-/

namespace Netflector.Net.Mdns

open Netflector.Foundation

/-! ## Slices put back together -/

theorem slice?_join {bytes first second : Bytes} {start middle stop : Nat}
    (h : slice? bytes start middle = some first)
    (h' : slice? bytes middle stop = some second) :
    slice? bytes start stop = some (first ++ second) := by
  obtain ⟨hle, _, rfl⟩ := slice?_eq_some_iff.mp h
  obtain ⟨hle', hstop, rfl⟩ := slice?_eq_some_iff.mp h'
  refine slice?_eq_some_iff.mpr ⟨by omega, hstop, ?_⟩
  have hsplit : stop - start = (middle - start) + (stop - middle) := by omega
  have hdrop : bytes.drop middle = (bytes.drop start).drop (middle - start) := by
    rw [List.drop_drop, Nat.add_sub_cancel' hle]
  rw [hsplit, List.take_add, hdrop]

theorem slice?_be16 {bytes : Bytes} {offset value : Nat}
    (h : be16At bytes offset = some value) :
    slice? bytes offset (offset + 2) = some (toBe16 value) := by
  obtain ⟨high, low, hhigh, hlow, rfl⟩ := be16At_eq_some_iff.mp h
  have hbound := (List.getElem?_eq_some_iff.mp hlow).1
  obtain ⟨part, hpart⟩ := slice?_isSome bytes
    (Nat.le_add_right offset 2) (by omega)
  have hlength := slice?_length hpart
  have hzero := getElem?_of_slice? hpart 0 (by omega)
  have hone := getElem?_of_slice? hpart 1 (by omega)
  rw [Nat.add_zero, hhigh] at hzero
  rw [hlow] at hone
  have hhigh' : UInt8.ofNat (be16 high low / 256) = high := by
    have hlt := low.toNat_lt
    have hsame : be16 high low / 256 = high.toNat := by
      simp only [be16]
      omega
    rw [hsame, UInt8.ofNat_toNat]
  have hlow' : UInt8.ofNat (be16 high low) = low := by
    apply UInt8.toNat_inj.mp
    have hlt := low.toNat_lt
    rw [UInt8.toNat_ofNat']
    simp only [be16]
    omega
  rw [hpart, toBe16, hhigh', hlow']
  congr 1
  apply List.ext_getElem?
  rintro (_ | _ | index)
  · exact hzero
  · exact hone
  · rw [List.getElem?_eq_none (by omega)]
    rfl

/-! ## Names -/

/-- The second trim has placed every marked label where it was, and nothing
else. -/
structure Mirrors (final : Bytes) (mark : Nat → Prop) (trimmer : Trimmer) :
    Prop where
  size : trimmer.placed.length = final.length
  marked : ∀ position, mark position →
    trimmer.placed[position]? = some position
  unmarked : ∀ position, ¬ mark position →
    trimmer.placed[position]?.getD unplaced = unplaced
  below : ∀ position, mark position →
    position < trimmer.out.length ∧ position ≤ maxPointerTarget

theorem Mirrors.congr {final : Bytes} {mark mark' : Nat → Prop}
    {trimmer : Trimmer} (h : Mirrors final mark trimmer)
    (hsame : ∀ position, mark' position ↔ mark position) :
    Mirrors final mark' trimmer := by
  rwa [show mark' = mark from funext fun position => propext (hsame position)]

theorem Mirrors.push {final : Bytes} {mark : Nat → Prop} {trimmer : Trimmer}
    (h : Mirrors final mark trimmer) (bytes : Bytes) :
    Mirrors final mark (trimmer.push bytes) := by
  refine ⟨h.size, h.marked, h.unmarked, ?_⟩
  intro position hmark
  obtain ⟨hlt, hle⟩ := h.below position hmark
  simp only [Trimmer.push, List.length_append]
  exact ⟨by omega, hle⟩

theorem Mirrors.fresh {final : Bytes} {mark : Nat → Prop} {trimmer : Trimmer}
    (h : Mirrors final mark trimmer) :
    trimmer.placed[trimmer.out.length]?.getD unplaced = unplaced := by
  refine h.unmarked _ ?_
  intro hmark
  exact absurd (h.below _ hmark).1 (Nat.lt_irrefl _)

theorem Mirrors.label {final : Bytes} {mark : Nat → Prop} {trimmer : Trimmer}
    (h : Mirrors final mark trimmer) {label : Bytes}
    (hlabel : 0 < label.length) (hbound : trimmer.out.length < final.length) :
    Mirrors final (fun position => mark position ∨
      position = trimmer.out.length ∧ position ≤ maxPointerTarget)
      (trimmer.label trimmer.out.length label) := by
  have hsize := h.size
  refine ⟨?_, ?_, ?_, ?_⟩
  · simp only [Trimmer.label]
    split
    · rw [List.length_set, hsize]
    · exact hsize
  · rintro position (hmark | ⟨rfl, hle⟩)
    · have hne : trimmer.out.length ≠ position := by
        have := (h.below position hmark).1
        omega
      simp only [Trimmer.label]
      split
      · rw [List.getElem?_set_ne hne]
        exact h.marked position hmark
      · exact h.marked position hmark
    · simp only [Trimmer.label, if_pos hle]
      rw [List.getElem?_set_self (by omega)]
  · intro position hnot
    rw [not_or, not_and] at hnot
    simp only [Trimmer.label]
    split
    · rename_i hle
      rw [List.getElem?_set_ne (by
        rintro rfl
        exact hnot.2 rfl hle)]
      exact h.unmarked position hnot.1
    · exact h.unmarked position hnot.1
  · rintro position (hmark | ⟨rfl, hle⟩)
    · obtain ⟨hlt, hle⟩ := h.below position hmark
      simp only [Trimmer.label, List.length_append]
      exact ⟨by omega, hle⟩
    · simp only [Trimmer.label, List.length_append]
      exact ⟨by omega, hle⟩

/-- A write that copies the octets of `final` from `offset` up to `stop`, at
no more than a step for each. -/
structure Echoes (final : Bytes) (mark : Nat → Prop) (offset stop : Nat)
    (before after : Trimmer)
    (write : Nat → Except Malformed (Trimmer × Nat)) : Prop where
  runs : ∃ cost, cost ≤ stop - offset ∧
    ∀ extra, write (extra + cost) = .ok (after, extra)
  copies : ∃ span, slice? final offset stop = some span ∧
    after.out = before.out ++ span
  mirrors : Mirrors final mark after

theorem labelIn_plain {final : Bytes} {offset target : Nat} {len : UInt8}
    (hlen : final[offset]? = some len) (htag : labelTag len = .plain) :
    LabelIn final offset target ↔
      target = offset ∨ LabelIn final (offset + 1 + len.toNat) target := by
  constructor
  · intro h
    cases h with
    | here _ _ => exact .inl rfl
    | next hlen' _ hrest =>
        rw [hlen] at hlen'
        cases hlen'
        exact .inr hrest
  · rintro (rfl | hrest)
    · exact .here hlen htag
    · exact .next hlen htag hrest

theorem not_labelIn {final : Bytes} {offset target : Nat} {len : UInt8}
    (hlen : final[offset]? = some len) (htag : labelTag len ≠ .plain) :
    ¬ LabelIn final offset target := by
  intro h
  cases h with
  | here hlen' htag' =>
      rw [hlen] at hlen'
      cases hlen'
      exact htag htag'
  | next hlen' htag' _ =>
      rw [hlen] at hlen'
      cases hlen'
      exact htag htag'

theorem markName_bare {final : Bytes} {offset : Nat} {len : UInt8}
    {mark : Nat → Prop} (hlen : final[offset]? = some len)
    (htag : labelTag len ≠ .plain) (position : Nat) :
    markName final offset mark position ↔ mark position := by
  unfold markName
  rw [or_iff_left]
  rintro ⟨hin, _⟩
  exact not_labelIn hlen htag hin

section Name

variable {final : Bytes} {mark now : Nat → Prop} {start : Nat}

theorem Laid.echoes {offset stop : Nat}
    (h : Laid final mark start offset stop)
    (hnow : ∀ position, mark position → now position) {trimmer : Trimmer}
    (hmirrors : Mirrors final now trimmer)
    (hlength : trimmer.out.length = offset) :
    ∃ after, Echoes final (markName final offset now) offset stop trimmer
      after fun budget =>
        Trimmer.writeNameFrom final start budget offset 0 trimmer := by
  induction h generalizing now trimmer with
  | @root offset hroot =>
      have hlen := laid_root hroot
      have hfresh := hmirrors.fresh
      rw [hlength] at hfresh
      refine ⟨trimmer.push [0], ⟨1, by omega, ?_⟩, ⟨[0], hroot, rfl⟩,
        (hmirrors.push [0]).congr (markName_bare hlen (by decide))⟩
      intro extra
      have htag : labelTag 0 = .root := rfl
      simp only [Trimmer.writeNameFrom, hfresh, hlen, htag, ne_eq,
        not_true_eq_false, if_false]
  | @plain offset stop len label hlen htag hlabel _ ih =>
      subst hlength
      have hsize := slice?_length hlabel
      have hbound := (List.getElem?_eq_some_iff.mp hlen).1
      have hfresh := hmirrors.fresh
      have hlabelled := hmirrors.label (show 0 < label.length by omega) hbound
      have hnext : trimmer.out.length + 1 + len.toNat =
          trimmer.out.length + label.length := by omega
      obtain ⟨after, ⟨cost, hcost, hruns⟩, ⟨span, hspan, hout⟩, hafter⟩ :=
        ih (fun position hmark => .inl (hnow position hmark)) hlabelled (by
          simp only [Trimmer.label, List.length_append]
          omega)
      rw [hnext] at hruns
      have hstop := (slice?_eq_some_iff.mp hspan).1
      refine ⟨after, ⟨cost + 1, by omega, ?_⟩,
        ⟨label ++ span, slice?_join hlabel hspan, ?_⟩, hafter.congr ?_⟩
      · intro extra
        have hrest := hruns extra
        rw [← Nat.add_assoc]
        simp only [Trimmer.writeNameFrom, hfresh, hlen, htag, hlabel, ne_eq,
          not_true_eq_false, if_false]
        exact hrest
      · rw [hout]
        exact List.append_assoc ..
      · intro position
        unfold markName
        rw [labelIn_plain hlen htag, or_and_right, or_assoc]
  | @pointer offset target hmark hle hlt hslice =>
      obtain ⟨len, low, hlen, htag, hlow, htarget⟩ := laid_pointer hle hslice
      have hfresh := hmirrors.fresh
      rw [hlength] at hfresh
      have hplaced := hmirrors.marked target (hnow target hmark)
      refine ⟨trimmer.push (toBe16 (0xc000 ||| target)),
        ⟨2, by omega, ?_⟩, ⟨_, hslice, rfl⟩,
        (hmirrors.push _).congr (markName_bare hlen (by
          rw [htag]
          decide))⟩
      intro extra
      have hne : target ≠ unplaced := by
        simp only [maxPointerTarget] at hle
        simp only [unplaced]
        omega
      have hlow' : ¬ target ≥ start := by omega
      have hhops : ¬ 0 + 1 > maxPointerHops := by decide
      show Trimmer.writeNameFrom final start (extra + 1 + 1) offset 0 trimmer
        = _
      simp only [Trimmer.writeNameFrom, hfresh, hlen, htag, hlow, htarget,
        hplaced, if_neg hhops, if_neg hlow', if_pos hne, ne_eq,
        not_true_eq_false, if_false, Option.getD_some]

end Name

/-! ## Entries -/

section Entries

variable {final : Bytes}

theorem Echoes.append {mark mark' : Nat → Prop} {offset middle stop : Nat}
    {before between after : Trimmer}
    {first : Nat → Except Malformed (Trimmer × Nat)}
    (second : Trimmer → Nat → Except Malformed (Trimmer × Nat))
    (h : Echoes final mark offset middle before between first)
    (h' : Echoes final mark' middle stop between after (second between)) :
    Echoes final mark' offset stop before after fun budget =>
      (first budget).bind fun written => second written.1 written.2 := by
  obtain ⟨⟨cost, hcost, hruns⟩, ⟨span, hspan, hout⟩, _⟩ := h
  obtain ⟨⟨cost', hcost', hruns'⟩, ⟨span', hspan', hout'⟩, hafter⟩ := h'
  have hfirst := (slice?_eq_some_iff.mp hspan).1
  have hsecond := (slice?_eq_some_iff.mp hspan').1
  refine ⟨⟨cost' + cost, by omega, ?_⟩,
    ⟨span ++ span', slice?_join hspan hspan', ?_⟩, hafter⟩
  · intro extra
    rw [← Nat.add_assoc, hruns]
    exact hruns' extra
  · rw [hout', hout, List.append_assoc]

theorem Mirrors.echoes {mark : Nat → Prop} {offset stop : Nat} {span : Bytes}
    {trimmer : Trimmer} (h : Mirrors final mark trimmer)
    (hspan : slice? final offset stop = some span) :
    Echoes final mark offset stop trimmer (trimmer.push span) fun budget =>
      (trimmer.pushSpan final offset stop).map fun pushed =>
        (pushed, budget) := by
  refine ⟨⟨0, Nat.zero_le _, ?_⟩, ⟨span, hspan, rfl⟩, h.push span⟩
  intro extra
  simp only [Trimmer.pushSpan, hspan]
  rfl

theorem Echoes.length {mark : Nat → Prop} {offset stop : Nat}
    {before after : Trimmer}
    {write : Nat → Except Malformed (Trimmer × Nat)}
    (h : Echoes final mark offset stop before after write)
    (hlength : before.out.length = offset) : after.out.length = stop := by
  obtain ⟨span, hspan, hout⟩ := h.copies
  have hsize := slice?_length hspan
  have hle := (slice?_eq_some_iff.mp hspan).1
  rw [hout, List.length_append]
  omega

theorem Echoes.congr {mark : Nat → Prop} {offset stop : Nat}
    {before after : Trimmer}
    {write write' : Nat → Except Malformed (Trimmer × Nat)}
    (h : Echoes final mark offset stop before after write)
    (hsame : ∀ budget, write' budget = write budget) :
    Echoes final mark offset stop before after write' := by
  rwa [show write' = write from funext hsame]

theorem LaidNames.echoes {mark after : Nat → Prop}
    {count offset stop limit : Nat}
    (h : LaidNames final mark count offset stop after) {trimmer : Trimmer}
    (hmirrors : Mirrors final mark trimmer)
    (hlength : trimmer.out.length = offset) (hstop : stop ≤ limit)
    (hlimit : limit ≤ final.length) :
    ∃ written, Echoes final after offset limit trimmer written fun budget =>
      (trimmer.writeNames final count offset budget).bind fun result =>
        (result.1.pushSpan final result.2.1 limit).map fun pushed =>
          (pushed, result.2.2) := by
  induction h generalizing trimmer with
  | nil =>
      obtain ⟨span, hspan⟩ := slice?_isSome final hstop hlimit
      exact ⟨_, hmirrors.echoes hspan⟩
  | @cons mark after count offset next stop hname hrest ih =>
      obtain ⟨named, hnamed⟩ := hname.echoes (fun _ hmark => hmark) hmirrors
        hlength
      have hnext := hnamed.length hlength
      obtain ⟨written, hwritten⟩ := ih hnamed.mirrors hnext hstop
      refine ⟨written, ?_⟩
      have hskip := skipName_eq_some_iff.mpr hname.inline
      have hboth := hnamed.append (fun trimmer budget =>
        (trimmer.writeNames final count next budget).bind fun result =>
          (result.1.pushSpan final result.2.1 limit).map fun pushed =>
            (pushed, result.2.2)) hwritten
      refine hboth.congr ?_
      intro budget
      simp only [Trimmer.writeNames, Trimmer.writeName, hskip, hlength, bind]
      cases Trimmer.writeNameFrom final offset budget offset 0 trimmer with
      | error e => rfl
      | ok result => rfl

theorem LaidRdata.echoes {mark after : Nat → Prop} {copy : Entry}
    (h : LaidRdata final mark copy after) {trimmer : Trimmer}
    (hmirrors : Mirrors final mark trimmer)
    (hlength : trimmer.out.length = copy.rdata)
    (hrdata : copy.rdata ≤ copy.stop) (hstop : copy.stop ≤ final.length) :
    ∃ written, Echoes final after copy.rdata copy.stop trimmer written
      fun budget => trimmer.writeRdata final copy budget := by
  unfold LaidRdata at h
  cases hnames : copy.rdataNames with
  | none =>
      simp only [hnames] at h
      subst h
      obtain ⟨span, hspan⟩ := slice?_isSome final hrdata hstop
      refine ⟨_, (hmirrors.echoes hspan).congr ?_⟩
      intro budget
      simp only [Trimmer.writeRdata, hnames, Trimmer.pushSpan, hspan]
      rfl
  | some names =>
      simp only [hnames] at h
      obtain ⟨next, hnext, hlaid⟩ := h
      have hbounds := hlaid.bounds.1
      obtain ⟨lead, hlead⟩ := slice?_isSome final
        (Nat.le_add_right copy.rdata names.offset) (by omega)
      have hled := hmirrors.echoes hlead
      obtain ⟨written, hwritten⟩ := hlaid.echoes hled.mirrors
        (hled.length hlength) hnext hstop
      refine ⟨written, ?_⟩
      have hboth := hled.append (fun trimmer budget =>
        (trimmer.writeNames final names.count (copy.rdata + names.offset)
          budget).bind fun result =>
            (result.1.pushSpan final result.2.1 copy.stop).map fun pushed =>
              (pushed, result.2.2)) hwritten
      refine hboth.congr ?_
      intro budget
      simp only [Trimmer.writeRdata, hnames, Trimmer.pushSpan, hlead, bind,
        Except.bind, Except.map]

def Trimmer.writeBody (payload : Bytes) (entry : Entry) (trimmer : Trimmer)
    (budget : Nat) : Except Malformed (Trimmer × Nat) :=
  ((trimmer.push [0, 0]).writeRdata payload entry budget).bind fun result =>
    let length := result.1.out.length - trimmer.out.length - 2
    if length > 0xffff then .error ⟨⟩
    else .ok ({ result.1 with
      out := overwrite result.1.out trimmer.out.length
        (toBe16 length) }, result.2)

theorem LaidRdata.echoes_body {mark after : Nat → Prop} {copy : Entry}
    (h : LaidRdata final mark copy after) {trimmer : Trimmer}
    (hmirrors : Mirrors final mark trimmer)
    (hlength : trimmer.out.length = copy.fixed + 8)
    (hplaced : copy.WellPlaced final) (hsect : copy.sect ≠ .question) :
    ∃ written, Echoes final after (copy.fixed + 8) copy.stop trimmer written
      (trimmer.writeBody final copy) := by
  obtain ⟨hrdata, hfield⟩ := hplaced.record hsect
  have hpushed : (trimmer.push [0, 0]).out.length = copy.rdata := by
    simp only [Trimmer.push, List.length_append, List.length_cons,
      List.length_nil]
    omega
  obtain ⟨filled, ⟨cost, hcost, hruns⟩, ⟨span, hspan, hout⟩, hafter⟩ :=
    h.echoes (hmirrors.push [0, 0]) hpushed hplaced.rdata_le hplaced.stop_le
  have hspanLength := slice?_length hspan
  have hlimit := be16At_lt hfield
  have hsize : filled.out.length - trimmer.out.length - 2 =
      copy.stop - copy.rdata := by
    rw [hout, List.length_append, hpushed]
    omega
  have hpatched : overwrite filled.out trimmer.out.length
      (toBe16 (copy.stop - copy.rdata)) =
      trimmer.out ++ toBe16 (copy.stop - copy.rdata) ++ span := by
    rw [hout]
    exact overwrite_append trimmer.out span rfl
  have hlen : slice? final (copy.fixed + 8) copy.rdata =
      some (toBe16 (copy.stop - copy.rdata)) := by
    have hslice := slice?_be16 hfield
    rwa [show copy.fixed + 8 + 2 = copy.rdata by omega] at hslice
  refine ⟨{ filled with
      out := trimmer.out ++ toBe16 (copy.stop - copy.rdata) ++ span },
    ⟨cost, by omega, ?_⟩, ⟨_, slice?_join hlen hspan, ?_⟩, ?_⟩
  · intro extra
    rw [Trimmer.writeBody, hruns]
    show (if filled.out.length - trimmer.out.length - 2 > 0xffff then _
      else _) = _
    rw [hsize, if_neg (by omega), hpatched]
  · exact List.append_assoc ..
  · refine ⟨hafter.size, hafter.marked, hafter.unmarked, ?_⟩
    intro position hmark
    have hbelow := hafter.below position hmark
    rw [hout] at hbelow
    simpa only [Trimmer.push, List.length_append, toBe16_length,
      List.length_cons, List.length_nil] using hbelow

theorem LaidEntry.echoes {mark after : Nat → Prop} {copy : Entry}
    (h : LaidEntry final mark copy after) {trimmer : Trimmer}
    (hmirrors : Mirrors final mark trimmer)
    (hlength : trimmer.out.length = copy.name)
    (hplaced : copy.WellPlaced final) :
    ∃ written, Echoes final after copy.name copy.stop trimmer written
      fun budget => trimmer.writeEntry final copy budget := by
  obtain ⟨named, hnamed⟩ := h.owner.echoes (fun _ hmark => hmark) hmirrors
    hlength
  have hfixed := hnamed.length hlength
  have hstop := hplaced.stop_le
  have hrdata := h.rdata
  by_cases hsect : copy.sect = .question
  · obtain ⟨hempty, hend⟩ := hplaced.question hsect
    obtain ⟨span, hspan⟩ := slice?_isSome final
      (show copy.fixed ≤ copy.stop by omega) hstop
    have hnone := Entry.rdataNames_of_empty (show copy.rdata = copy.stop by
      omega)
    simp only [LaidRdata, hnone] at hrdata
    subst hrdata
    refine ⟨_, (hnamed.append (fun trimmer budget =>
      (trimmer.pushSpan final copy.fixed copy.stop).map fun pushed =>
        (pushed, budget)) (hnamed.mirrors.echoes hspan)).congr ?_⟩
    intro budget
    simp only [Trimmer.writeEntry, Trimmer.writeName, hlength, hsect, bind,
      if_true]
    congr 1
  · obtain ⟨hafter, hfield⟩ := hplaced.record hsect
    have hle := hplaced.rdata_le
    obtain ⟨span, hspan⟩ := slice?_isSome final
      (Nat.le_add_right copy.fixed 8) (by omega)
    have hfielded := hnamed.mirrors.echoes hspan
    obtain ⟨written, hwritten⟩ := hrdata.echoes_body hfielded.mirrors
      (hfielded.length hfixed) hplaced hsect
    refine ⟨written, ?_⟩
    have hboth := hnamed.append (fun trimmer budget =>
      ((trimmer.pushSpan final copy.fixed (copy.fixed + 8)).map
        fun pushed => (pushed, budget)).bind fun written =>
          written.1.writeBody final copy written.2)
      (hfielded.append (Trimmer.writeBody final copy) hwritten)
    refine hboth.congr ?_
    intro budget
    simp only [Trimmer.writeEntry, Trimmer.writeName, hlength, if_neg hsect,
      Trimmer.pushSpan, hspan]
    rfl

end Entries

/-! ## The whole message -/

def keepAll : Keep := fun _ budget => .ok (true, budget)

/-- What a second trim has when it has copied `final` up to `offset`. -/
structure Halfway (final : Bytes) (mark : Nat → Prop) (offset : Nat)
    (sects : List Section) (state : TrimState) : Prop where
  out : state.trimmer.out = final.take offset
  mirrors : Mirrors final mark state.trimmer
  counts : state.counts = countSections sects
  removed : state.removed = 0

theorem take_of_slice? {bytes span : Bytes} {start stop : Nat}
    (h : slice? bytes start stop = some span) :
    bytes.take start ++ span = bytes.take stop := by
  obtain ⟨hle, _, rfl⟩ := slice?_eq_some_iff.mp h
  rw [← List.take_add, Nat.add_sub_cancel' hle]

theorem LaidEntry.visit {final : Bytes} {mark after : Nat → Prop}
    {copy : Entry} (h : LaidEntry final mark copy after)
    (hplaced : copy.WellPlaced final) (candidates : List Entry)
    {sects : List Section} {state : TrimState}
    (hhalfway : Halfway final mark copy.name sects state)
    (hbudget : copy.stop - copy.name ≤ state.budget) :
    ∃ state', state.visit final keepAll (fun _ => false) candidates copy =
        .ok state' ∧
      Halfway final after copy.stop (sects ++ [copy.sect]) state' ∧
      state.budget - (copy.stop - copy.name) ≤ state'.budget := by
  have hbounds := hplaced.name_lt_stop
  have hstop := hplaced.stop_le
  obtain ⟨written, ⟨cost, hcost, hruns⟩, ⟨span, hspan, hout⟩, hafter⟩ :=
    h.echoes hhalfway.mirrors (by
      rw [hhalfway.out, List.length_take]
      omega) hplaced
  have hwrite := hruns (state.budget - cost)
  rw [Nat.sub_add_cancel (by omega)] at hwrite
  obtain ⟨answered, refilled, hvisit⟩ :=
    visit_noRefill final candidates copy keepAll state
  rw [keepAll, Except.bind] at hvisit
  simp only [if_true, hwrite, Except.bind] at hvisit
  refine ⟨_, hvisit, ⟨?_, hafter, ?_, hhalfway.removed⟩, ?_⟩
  · simp only [hout, hhalfway.out]
    exact take_of_slice? hspan
  · simp only [hhalfway.counts, countSections_concat]
  · simp only
    omega

theorem walkEntries_le_stop {payload : Bytes} {sects : List Section}
    {offset : Nat} {walked : List Entry}
    (h : walkEntries payload sects offset = .ok walked) :
    offset ≤ walkStop offset walked := by
  induction sects generalizing offset walked with
  | nil =>
      cases h
      exact Nat.le_refl _
  | cons sect sects ih =>
      obtain ⟨entry, rest, hentry, hrest, rfl⟩ :=
        walkEntries_cons_eq_ok_iff.mp h
      obtain ⟨hplaced, rfl, _⟩ := entryAt_eq_ok_iff.mp hentry
      have hlt := hplaced.name_lt_stop
      have hle := ih hrest
      simp only [walkStop]
      omega

theorem LaidAll.visitAll {final : Bytes} {mark after : Nat → Prop}
    {copies : List Entry} (h : LaidAll final mark copies after)
    {offset : Nat} {sects : List Section}
    (hwalk : walkEntries final sects offset = .ok copies)
    (candidates : List Entry) {done : List Section} {state : TrimState}
    (hhalfway : Halfway final mark offset done state)
    (hbudget : walkStop offset copies - offset ≤ state.budget) :
    ∃ state', state.visitAll final keepAll (fun _ => false) candidates copies
        = .ok state' ∧
      Halfway final after (walkStop offset copies) (done ++ sects) state' := by
  induction h generalizing offset sects done state with
  | nil =>
      have hsects := walkEntries_sects hwalk
      subst hsects
      exact ⟨state, rfl, by simpa [walkStop] using hhalfway⟩
  | @cons mark middle after copy rest hcopy _ ih =>
      cases sects with
      | nil => cases hwalk
      | cons sect sects =>
          obtain ⟨entry, others, hentry, hrest, hsame⟩ :=
            walkEntries_cons_eq_ok_iff.mp hwalk
          cases hsame
          obtain ⟨hplaced, rfl, rfl⟩ := entryAt_eq_ok_iff.mp hentry
          have hlt := hplaced.name_lt_stop
          have hle := walkEntries_le_stop hrest
          simp only [walkStop] at hbudget ⊢
          obtain ⟨next, hvisit, hnext, hleft⟩ := hcopy.visit hplaced
            candidates hhalfway (by omega)
          obtain ⟨last, hvisits, hlast⟩ := ih hrest hnext (by omega)
          refine ⟨last, ?_, ?_⟩
          · simp only [TrimState.visitAll, hvisit, bind, Except.bind, hvisits]
          · rwa [List.append_assoc] at hlast

theorem Halfway.opening (final : Bytes) :
    Halfway final (fun _ => False) dnsHeaderLen []
      (TrimState.opening final) := by
  refine ⟨rfl, ⟨List.length_replicate .., fun _ => False.elim, ?_,
    fun _ => False.elim⟩, rfl, rfl⟩
  intro position _
  simp only [TrimState.opening, Trimmer.opening, List.getElem?_replicate]
  split <;> rfl

theorem sectionCount_slice {out : Bytes} {offset : Nat}
    (h : offset + 2 ≤ out.length) :
    slice? out offset (offset + 2) =
      some (toBe16 (sectionCount out offset)) := by
  obtain ⟨value, hvalue⟩ := be16At_isSome h
  rw [slice?_be16 hvalue, sectionCount, hvalue, Option.getD_some]

theorem patchCounts_self {out : Bytes} (h : dnsHeaderLen ≤ out.length) :
    patchCounts (headerCounts out) out = out := by
  have hfield : ∀ offset, offset + 2 ≤ 12 →
      out.take offset ++ toBe16 (sectionCount out offset) =
        out.take (offset + 2) := by
    intro offset hoffset
    simp only [dnsHeaderLen] at h
    exact take_of_slice? (sectionCount_slice (by omega))
  rw [patchCounts_eq _ h]
  simp only [headerCounts, qdcountAt, ancountAt, nscountAt, arcountAt]
  rw [hfield 4 (by omega), hfield 6 (by omega), hfield 8 (by omega),
    hfield 10 (by omega), List.take_append_drop]

theorem LaidAll.trim {final : Bytes} {copies : List Entry}
    {mark : Nat → Prop} (hlong : dnsHeaderLen ≤ final.length)
    (hwalk : entries final = .ok copies)
    (hstop : walkStop dnsHeaderLen copies = final.length)
    (h : LaidAll final (fun _ => False) copies mark) :
    Mdns.trim final keepAll (fun _ => false) = .ok (final, 0) := by
  have hwalked := hwalk
  rw [entries, if_neg (by omega)] at hwalked
  have hbudget : walkStop dnsHeaderLen copies - dnsHeaderLen ≤
      budgetForMessage final := by
    simp only [budgetForMessage, stepsPerByte]
    omega
  obtain ⟨last, hvisits, hlast⟩ := h.visitAll hwalked copies
    (Halfway.opening final) hbudget
  have hout := hlast.out
  rw [hstop, List.take_length] at hout
  have hcounts := hlast.counts
  rw [List.nil_append, countSections_announced] at hcounts
  have hheader : slice? final 0 dnsHeaderLen =
      some (final.take dnsHeaderLen) :=
    slice?_eq_some_iff.mpr ⟨Nat.zero_le _, hlong, rfl⟩
  simp only [Mdns.trim, hheader, hwalk, bind, Except.bind]
  simp only [TrimState.opening, Trimmer.opening] at hvisits
  rw [hvisits]
  simp only [hout, hcounts, hlast.removed, patchCounts_self hlong,
    gt_iff_lt, Nat.lt_irrefl, if_false]

/-! ## The limits on names -/

def RdataPart.labels? : RdataPart → Option (List Bytes)
  | .raw _ => none
  | .name labels => some labels

def Record.names (record : Record) : List (List Bytes) :=
  record.owner :: record.rdata.filterMap RdataPart.labels?

section Names

variable {reads : Nat → List Bytes → Prop} {payload out : Bytes}

theorem NamesWith.offsets {offset stop : Nat} {names : List (List Bytes)}
    (h : NamesWith reads payload offset names stop) :
    List.Forall₂ reads (namesFrom payload names.length offset) names := by
  induction h with
  | nil => exact .nil
  | cons hname hinline _ ih =>
      have hskip := skipName_eq_some_iff.mpr hinline
      simp only [List.length_cons, namesFrom, hskip, Option.elim_some]
      exact .cons hname ih

theorem DecodesWith.offsets {entry : Entry} {record : Record}
    (h : DecodesWith reads payload entry record) :
    List.Forall₂ reads (entry.nameOffsets payload) record.names := by
  refine .cons h.owner ?_
  have hrdata := h.rdata
  unfold RdataWith at hrdata
  cases hnames : entry.rdataNames with
  | none =>
      simp only [hnames] at hrdata
      obtain ⟨bytes, _, hparts⟩ := hrdata
      rw [hparts]
      exact .nil
  | some names =>
      simp only [hnames] at hrdata
      obtain ⟨lead, labels, next, tail, _, hcount, hoffsets, _, hparts⟩ :=
        hrdata
      have hlabels : (labels.map RdataPart.name).filterMap
          RdataPart.labels? = labels := by
        rw [List.filterMap_map]
        exact List.filterMap_some
      rw [hparts, List.filterMap_cons_none rfl, List.filterMap_append, hlabels,
        List.filterMap_cons_none rfl, List.filterMap_nil, List.append_nil,
        Option.elim_some, ← hcount]
      exact hoffsets.offsets

def KeepsLimits (payload out : Bytes) (source target : Nat) : Prop :=
  ∀ labels, Readable payload source labels → Readable out target labels

theorem keepsLimits_of_same {sources targets : List Nat}
    {names : List (List Bytes)}
    (h : List.Forall₂ (NameAt payload) sources names)
    (h' : List.Forall₂ (Canonical out) targets names) :
    List.Forall₂ (KeepsLimits payload out) sources targets := by
  induction h generalizing targets with
  | nil =>
      cases h'
      exact .nil
  | cons hname _ ih =>
      cases h' with
      | cons hcanonical hrest =>
          refine .cons ?_ (ih hrest)
          intro labels hreadable
          cases hreadable.nameAt.unique hname
          exact hreadable.canonical hcanonical

end Names

theorem Trimmed.keepsLimits {payload out : Bytes} {plan : List Placement}
    {copies : List Entry} {records : List Record}
    (h : Trimmed payload out plan copies records) :
    List.Forall₂ (fun placement copy =>
      List.Forall₂ (KeepsLimits payload out)
        (placement.entry.nameOffsets payload) (copy.nameOffsets out))
      plan copies := by
  refine h.pairs.flip.imp ?_
  rintro placement copy ⟨_, record, hsource, hcopied⟩
  exact keepsLimits_of_same hsource.offsets hcopied.offsets

theorem Trimmed.canonical {payload out : Bytes} {plan : List Placement}
    {copies : List Entry} {records : List Record}
    (h : Trimmed payload out plan copies records) :
    ∀ copy ∈ copies, ∀ offset ∈ copy.nameOffsets out,
      ∃ labels, Canonical out offset labels := by
  intro copy hcopy offset hoffset
  obtain ⟨_, _, _, record, _, hcopied⟩ := h.origin copy hcopy
  have hoffsets := hcopied.offsets
  generalize copy.nameOffsets out = offsets at hoffset hoffsets
  generalize record.names = names at hoffsets
  induction hoffsets with
  | nil => cases hoffset
  | cons hname _ ih =>
      rcases List.mem_cons.mp hoffset with rfl | hmem
      · exact ⟨_, hname⟩
      · exact ih hmem

/-! ## The result -/

theorem trim_laid {payload out : Bytes} {keep : Keep}
    {refill : Entry → Bool} {removed : Nat}
    (h : trim payload keep refill = .ok (out, removed)) :
    ∃ walked accept copies records mark, entries payload = .ok walked ∧
      (∀ entry ∈ walked,
        asked (refilledBy accept walked) refill entry = true →
        Verdict keep entry (accept entry)) ∧
      Trimmed payload out (planned accept refill walked) copies records ∧
      dnsHeaderLen ≤ out.length ∧
      LaidAll out (fun _ => False) copies mark := by
  obtain ⟨walked, accept, state, hentries, hfollowed, _, rfl, _, hsects⟩ :=
    trim_followed h
  obtain ⟨copies, records, htrimmed⟩ := hfollowed.trimmed hsects
  obtain ⟨hlong, _, hlays⟩ :=
    hfollowed.carries.wrote.laysOut hfollowed.carries.header_le
  obtain ⟨copies', mark, hlaid⟩ :=
    hlays _ (patchCounts_grows state.counts hlong)
  have hlength := patchCounts_length state.counts hlong
  refine ⟨walked, accept, copies, records, mark, hentries, hfollowed.verdict,
    htrimmed, by omega, ?_⟩
  have hwalk := htrimmed.walk
  rw [entries, if_neg (by omega)] at hwalk
  have hsame := walkEntries_sects hwalk
  rw [htrimmed.sects] at hsame
  rw [← hsame, hlaid.walk] at hwalk
  cases hwalk
  exact hlaid.laid

/-- The output of a trim is safe to walk and to trim again.  Its pointers go
back to labels a pointer can name, its names keep to the limits they kept to
in the entries they were written from, and trimming it again without dropping
anything returns it as it is. -/
theorem trim_canonical {payload out : Bytes} {keep : Keep}
    {refill : Entry → Bool} {removed : Nat}
    (h : trim payload keep refill = .ok (out, removed)) :
    ∃ walked accept copies records, entries payload = .ok walked ∧
      (∀ entry ∈ walked,
        asked (refilledBy accept walked) refill entry = true →
        Verdict keep entry (accept entry)) ∧
      Trimmed payload out (planned accept refill walked) copies records ∧
      (∀ copy ∈ copies, ∀ offset ∈ copy.nameOffsets out,
        PointsBack out copies offset ∧
          ∃ labels, Canonical out offset labels) ∧
      List.Forall₂ (fun placement copy =>
        List.Forall₂ (KeepsLimits payload out)
          (placement.entry.nameOffsets payload) (copy.nameOffsets out))
        (planned accept refill walked) copies ∧
      trim out keepAll (fun _ => false) = .ok (out, 0) := by
  obtain ⟨walked, accept, copies, records, mark, hentries, hverdict, htrimmed,
    hlong, hlaid⟩ := trim_laid h
  refine ⟨walked, accept, copies, records, hentries, hverdict, htrimmed, ?_,
    htrimmed.keepsLimits, hlaid.trim hlong htrimmed.walk htrimmed.stop⟩
  intro copy hcopy offset hoffset
  exact ⟨hlaid.pointsBack copy hcopy offset hoffset,
    htrimmed.canonical copy hcopy offset hoffset⟩

theorem trim_canonical_mixed :
    ∃ walked accept copies records, entries mixedResponse = .ok walked ∧
      (∀ entry ∈ walked,
        asked (refilledBy accept walked) (fun _ => false) entry = true →
        Verdict (keepAllowed mixedResponse firstServiceOnly.allowed) entry
          (accept entry)) ∧
      Trimmed mixedResponse trimmedResponse
        (planned accept (fun _ => false) walked) copies records ∧
      (∀ copy ∈ copies, ∀ offset ∈ copy.nameOffsets trimmedResponse,
        PointsBack trimmedResponse copies offset ∧
          ∃ labels, Canonical trimmedResponse offset labels) ∧
      List.Forall₂ (fun placement copy =>
        List.Forall₂ (KeepsLimits mixedResponse trimmedResponse)
          (placement.entry.nameOffsets mixedResponse)
          (copy.nameOffsets trimmedResponse))
        (planned accept (fun _ => false) walked) copies ∧
      trim trimmedResponse keepAll (fun _ => false) =
        .ok (trimmedResponse, 0) :=
  have h : trim mixedResponse (keepAllowed mixedResponse
      firstServiceOnly.allowed) (fun _ => false) =
      .ok (trimmedResponse, 1) := by decide +kernel
  trim_canonical h

end Netflector.Net.Mdns
