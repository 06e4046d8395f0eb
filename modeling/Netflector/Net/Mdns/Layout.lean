import Netflector.Net.Mdns.AllowList

/-!
# How a trimmed message is laid out

Every pointer of a trimmed message goes to a label that an earlier name spells
in place, low enough for a pointer to name it.  The labels that pointers may go
to are marked as the message is read.
-/

namespace Netflector.Net.Mdns

open Netflector.Foundation

/-! ## Names -/

/-- `LabelIn final offset target`: the name at `offset` spells a label in place
at `target`. -/
inductive LabelIn (final : Bytes) : Nat → Nat → Prop
  | here {offset : Nat} {len : UInt8} :
      final[offset]? = some len → labelTag len = .plain →
      LabelIn final offset offset
  | next {offset target : Nat} {len : UInt8} :
      final[offset]? = some len → labelTag len = .plain →
      LabelIn final (offset + 1 + len.toNat) target →
      LabelIn final offset target

def markName (final : Bytes) (offset : Nat) (mark : Nat → Prop)
    (target : Nat) : Prop :=
  mark target ∨ LabelIn final offset target ∧ target ≤ maxPointerTarget

/-- `Laid final mark start offset stop`: the octets up to `stop` are labels and
a terminator, or a pointer to a marked label before `start`. -/
inductive Laid (final : Bytes) (mark : Nat → Prop) (start : Nat) :
    Nat → Nat → Prop
  | root {offset : Nat} :
      slice? final offset (offset + 1) = some [0] →
      Laid final mark start offset (offset + 1)
  | plain {offset stop : Nat} {len : UInt8} {label : Bytes} :
      final[offset]? = some len → labelTag len = .plain →
      slice? final offset (offset + 1 + len.toNat) = some label →
      Laid final mark start (offset + 1 + len.toNat) stop →
      Laid final mark start offset stop
  | pointer {offset target : Nat} :
      mark target → target ≤ maxPointerTarget → target < start →
      slice? final offset (offset + 2) =
        some (toBe16 (0xc000 ||| target)) →
      Laid final mark start offset (offset + 2)

theorem laid_pointer {final : Bytes} {offset target : Nat}
    (hle : target ≤ maxPointerTarget)
    (h : slice? final offset (offset + 2) =
      some (toBe16 (0xc000 ||| target))) :
    ∃ len low, final[offset]? = some len ∧ labelTag len = .pointer ∧
      final[offset + 1]? = some low ∧ pointerTarget len low = target := by
  have hhigh := getElem?_of_slice? h 0 (by omega)
  have hlow := getElem?_of_slice? h 1 (by omega)
  simp only [toBe16, List.getElem?_cons_zero, List.getElem?_cons_succ,
    Nat.add_zero] at hhigh hlow
  exact ⟨_, _, hhigh.symm, labelTag_toBe16_pointer hle, hlow.symm,
    pointerTarget_toBe16 hle⟩

theorem laid_root {final : Bytes} {offset : Nat}
    (h : slice? final offset (offset + 1) = some [0]) :
    final[offset]? = some 0 := by
  have hzero := getElem?_of_slice? h 0 (by omega)
  simpa using hzero.symm

theorem Laid.inline {final : Bytes} {mark : Nat → Prop}
    {start offset stop : Nat} (h : Laid final mark start offset stop) :
    Inline final offset stop := by
  induction h with
  | root hroot => exact .root (laid_root hroot) rfl
  | plain hlen htag _ _ ih =>
      rw [Nat.add_assoc] at ih
      exact .plain hlen htag ih
  | pointer _ hle _ hslice =>
      obtain ⟨len, low, hlen, htag, hlow, _⟩ := laid_pointer hle hslice
      exact .pointer hlen htag hlow

/-! ## What a write lays out -/

def Covers (mark : Nat → Prop) (trimmer : Trimmer) : Prop :=
  ∀ source position : Nat, trimmer.placed[source]? = some position →
    position ≠ unplaced → mark position

section WriteName

variable {hole : Nat → Prop} {payload final : Bytes} {mark : Nat → Prop}
  {start : Nat}

structure LaysName (final : Bytes) (mark : Nat → Prop) (start : Nat)
    (before after : Trimmer) : Prop where
  laid : Laid final mark start before.out.length after.out.length
  placed : ∀ source position : Nat, after.placed[source]? = some position →
    position ≠ unplaced → before.placed[source]? = some position ∨
      LabelIn final before.out.length position ∧
        position ≤ maxPointerTarget

theorem LaysName.label {before after : Trimmer} {offset : Nat} {len : UInt8}
    {label : Bytes} (hlen : final[before.out.length]? = some len)
    (htag : labelTag len = .plain)
    (hslice : slice? final before.out.length
      (before.out.length + 1 + len.toNat) = some label)
    {placed : List Nat}
    (hplaced : placed = if before.out.length ≤ maxPointerTarget then
      before.placed.set offset before.out.length else before.placed)
    (hrest : LaysName final mark start ⟨before.out ++ label, placed⟩ after) :
    LaysName final mark start before after := by
  have hlength : (before.out ++ label).length =
      before.out.length + 1 + len.toNat := by
    have := slice?_length hslice
    rw [List.length_append]
    omega
  have hlaid := hrest.laid
  simp only [hlength] at hlaid
  refine ⟨.plain hlen htag hslice hlaid, ?_⟩
  intro source position hget hne
  rcases hrest.placed source position hget hne with hold | ⟨hin, hle⟩
  · simp only at hold
    rw [hplaced] at hold
    split at hold
    · rename_i hle
      rw [List.getElem?_set] at hold
      split at hold
      · split at hold
        · cases hold
          exact .inr ⟨.here hlen htag, hle⟩
        · cases hold
      · exact .inl hold
    · exact .inl hold
  · simp only [hlength] at hin
    exact .inr ⟨.next hlen htag hin, hle⟩

theorem writeNameFrom_grows {budget left offset hops : Nat}
    {before after : Trimmer}
    (h : Trimmer.writeNameFrom payload start budget offset hops before =
      .ok (after, left)) :
    ∃ suffix, after.out = before.out ++ suffix := by
  induction budget generalizing offset hops before with
  | zero => cases h
  | succ budget ih =>
      simp only [Trimmer.writeNameFrom] at h
      split at h
      · split at h
        · cases h
        cases h
        exact ⟨_, rfl⟩
      · split at h
        · cases h
        split at h
        · cases h
          exact ⟨_, rfl⟩
        · split at h
          · cases h
          obtain ⟨suffix, hout⟩ := ih h
          exact ⟨_, hout.trans (List.append_assoc ..)⟩
        · split at h
          · cases h
          split at h
          · cases h
          exact ih h
        · cases h

/-- The write loop lays the name out, given that all that was placed before it
began is marked. -/
theorem writeNameFrom_lays {budget left offset hops : Nat}
    {before after : Trimmer}
    (h : Trimmer.writeNameFrom payload start budget offset hops before =
      .ok (after, left))
    (hhole : ∀ position, hole position → position < start)
    (hstart : start ≤ before.out.length)
    (hmarked : ∀ source position : Nat,
      before.placed[source]? = some position → position ≠ unplaced →
      position < start → mark position ∧ position ≤ maxPointerTarget)
    (hgrow : Grows hole after.out final) :
    LaysName final mark start before after := by
  induction budget generalizing offset hops before with
  | zero => cases h
  | succ budget ih =>
      have hbelow : ∀ position, hole position →
          position < before.out.length :=
        fun position hp => Nat.lt_of_lt_of_le (hhole position hp) hstart
      simp only [Trimmer.writeNameFrom] at h
      split at h
      · rename_i hne
        split at h
        · cases h
        rename_i hlt
        cases h
        cases hget : before.placed[offset]? with
        | none => simp [hget] at hne
        | some position =>
            simp only [hget, Option.getD_some] at hne hlt hgrow ⊢
            obtain ⟨hmark, hle⟩ := hmarked offset position hget hne (by omega)
            have hslice := Grows.slice?_concat hgrow hbelow
            refine ⟨?_, fun _ _ hold _ => .inl hold⟩
            have hpointer : Laid final mark start before.out.length
                (before.out.length + 2) :=
              .pointer hmark hle (by omega) hslice
            simpa [Trimmer.push] using hpointer
      · split at h
        · cases h
        rename_i len hlen
        split at h
        · rename_i htag
          cases h
          have hslice := Grows.slice?_concat hgrow hbelow
          refine ⟨?_, fun _ _ hold _ => .inl hold⟩
          have hroot : Laid final mark start before.out.length
              (before.out.length + 1) := .root hslice
          simpa [Trimmer.push] using hroot
        · rename_i htag
          split at h
          · cases h
          rename_i label hlabel
          obtain ⟨suffix, hout⟩ := writeNameFrom_grows h
          have hlength := slice?_length hlabel
          have hslice : slice? final before.out.length
              (before.out.length + label.length) = some label := by
            rw [hout] at hgrow
            exact hgrow.slice?_appended hbelow
          have hsize : before.out.length + label.length =
              before.out.length + 1 + len.toNat := by omega
          rw [hsize] at hslice
          have hfirst : final[before.out.length]? = some len := by
            have hcopy := getElem?_of_slice? hslice 0 (by omega)
            have hsource := getElem?_of_slice? hlabel 0 (by omega)
            rw [Nat.add_zero] at hcopy hsource
            rw [← hcopy, hsource, hlen]
          refine LaysName.label hfirst htag hslice rfl
            (ih h (by simp only [List.length_append]; omega) ?_)
          -- The offset just placed is not below `start`.
          intro source position hget hne hlt
          simp only at hget
          split at hget
          · rw [List.getElem?_set] at hget
            split at hget
            · split at hget
              · cases hget
                omega
              · cases hget
            · exact hmarked source position hget hne hlt
          · exact hmarked source position hget hne hlt
        · rename_i htag
          split at h
          · cases h
          rename_i low hlow
          split at h
          · cases h
          exact ih h hstart hmarked
        · cases h

theorem writeName_lays {budget left offset : Nat} {before after : Trimmer}
    (h : before.writeName payload offset budget = .ok (after, left))
    (hhole : ∀ position, hole position → position < before.out.length)
    (hcovers : Covers mark before)
    (hlow : ∀ position, mark position → position ≤ maxPointerTarget)
    (hgrow : Grows hole after.out final) :
    Laid final mark before.out.length before.out.length after.out.length ∧
      Covers (markName final before.out.length mark) after := by
  have hlays := writeNameFrom_lays h hhole (Nat.le_refl _)
    (fun source position hget hne _ =>
      ⟨hcovers source position hget hne,
        hlow position (hcovers source position hget hne)⟩) hgrow
  refine ⟨hlays.laid, ?_⟩
  intro source position hget hne
  rcases hlays.placed source position hget hne with hold | hnew
  · exact .inl (hcovers source position hold hne)
  · exact .inr hnew

end WriteName

/-! ## Entries -/

theorem markName_low {final : Bytes} {offset : Nat} {mark : Nat → Prop}
    (h : ∀ position, mark position → position ≤ maxPointerTarget) :
    ∀ position, markName final offset mark position →
      position ≤ maxPointerTarget := by
  rintro position (hmark | ⟨_, hle⟩)
  · exact h position hmark
  · exact hle

inductive LaidNames (final : Bytes) :
    (Nat → Prop) → Nat → Nat → Nat → (Nat → Prop) → Prop
  | nil {mark : Nat → Prop} {offset : Nat} :
      LaidNames final mark 0 offset offset mark
  | cons {mark after : Nat → Prop} {count offset next stop : Nat} :
      Laid final mark offset offset next →
      LaidNames final (markName final offset mark) count next stop after →
      LaidNames final mark (count + 1) offset stop after

def LaidRdata (final : Bytes) (mark : Nat → Prop) (copy : Entry)
    (after : Nat → Prop) : Prop :=
  match copy.rdataNames with
  | none => after = mark
  | some names => ∃ next, next ≤ copy.stop ∧
      LaidNames final mark names.count (copy.rdata + names.offset) next after

structure LaidEntry (final : Bytes) (mark : Nat → Prop) (copy : Entry)
    (after : Nat → Prop) : Prop where
  owner : Laid final mark copy.name copy.name copy.fixed
  rdata : LaidRdata final (markName final copy.name mark) copy after

inductive LaidAll (final : Bytes) :
    (Nat → Prop) → List Entry → (Nat → Prop) → Prop
  | nil {mark : Nat → Prop} : LaidAll final mark [] mark
  | cons {mark middle after : Nat → Prop} {copy : Entry}
      {rest : List Entry} :
      LaidEntry final mark copy middle → LaidAll final middle rest after →
      LaidAll final mark (copy :: rest) after

theorem LaidNames.bounds {final : Bytes} {mark after : Nat → Prop}
    {count offset stop : Nat}
    (h : LaidNames final mark count offset stop after) :
    offset ≤ stop ∧ (0 < count → offset < stop) := by
  induction h with
  | nil => exact ⟨Nat.le_refl _, fun hpos => absurd hpos (by omega)⟩
  | cons hname _ ih =>
      have hbounds := hname.inline.bounds
      omega

section WriteEntry

variable {hole : Nat → Prop} {payload final : Bytes} {mark : Nat → Prop}

structure Marked (mark : Nat → Prop) (trimmer : Trimmer) : Prop where
  covers : Covers mark trimmer
  low : ∀ position, mark position → position ≤ maxPointerTarget

theorem Marked.push {trimmer : Trimmer} (h : Marked mark trimmer)
    (bytes : Bytes) : Marked mark (trimmer.push bytes) :=
  ⟨h.covers, h.low⟩

theorem writeNames_grows {count budget left offset next : Nat}
    {before after : Trimmer}
    (h : before.writeNames payload count offset budget =
      .ok (after, next, left)) :
    ∃ suffix, after.out = before.out ++ suffix := by
  induction count generalizing offset budget before with
  | zero =>
      cases h
      exact ⟨[], (List.append_nil _).symm⟩
  | succ count ih =>
      simp only [Trimmer.writeNames, bind, Except.bind] at h
      split at h
      · cases h
      rename_i result hname
      split at h
      · cases h
      obtain ⟨suffix, hout⟩ := writeNameFrom_grows hname
      obtain ⟨suffix', hout'⟩ := ih h
      exact ⟨suffix ++ suffix', by rw [hout', hout, List.append_assoc]⟩

theorem writeNames_lays {count budget left offset next : Nat}
    {before after : Trimmer}
    (h : before.writeNames payload count offset budget =
      .ok (after, next, left))
    (hhole : ∀ position, hole position → position < before.out.length)
    (hmarked : Marked mark before) (hgrow : Grows hole after.out final) :
    ∃ mark', LaidNames final mark count before.out.length after.out.length
      mark' ∧ Marked mark' after := by
  induction count generalizing offset budget before mark with
  | zero =>
      cases h
      exact ⟨mark, .nil, hmarked⟩
  | succ count ih =>
      simp only [Trimmer.writeNames, bind, Except.bind] at h
      split at h
      · cases h
      rename_i result hname
      split at h
      · cases h
      obtain ⟨named, spent⟩ := result
      obtain ⟨suffix, hout⟩ := writeNames_grows h
      obtain ⟨octets, hnamed⟩ := writeNameFrom_grows hname
      have hgrow' : Grows hole named.out final := by
        rw [hout] at hgrow
        exact hgrow.of_append
      obtain ⟨hlaid, hcovers⟩ := writeName_lays hname hhole hmarked.covers
        hmarked.low hgrow'
      obtain ⟨mark', hrest, hmarked'⟩ := ih h (by
        intro position hp
        have hlt := hhole position hp
        simp only [hnamed, List.length_append]
        omega) ⟨hcovers, markName_low hmarked.low⟩
      exact ⟨mark', .cons hlaid hrest, hmarked'⟩

theorem writeRdata_lays {entry copy : Entry} {budget left : Nat}
    {before after : Trimmer}
    (h : before.writeRdata payload entry budget = .ok (after, left))
    (hhole : ∀ position, hole position → position < before.out.length)
    (hmarked : Marked mark before) (hgrow : Grows hole after.out final)
    (hrtype : copy.rtype = entry.rtype)
    (hrdata : copy.rdata = before.out.length)
    (hstop : copy.stop = after.out.length) :
    ∃ mark', LaidRdata final mark copy mark' ∧ Marked mark' after := by
  unfold Trimmer.writeRdata at h
  split at h
  · rename_i names hsome
    obtain ⟨htable, hlt⟩ := Entry.rdataNames_eq_some_iff.mp hsome
    simp only [bind, Except.bind] at h
    split at h
    · cases h
    rename_i led hlead
    obtain ⟨lead, hslice, rfl⟩ := pushSpan_eq_ok_iff.mp hlead
    split at h
    · cases h
    rename_i result hnames
    obtain ⟨named, next, spent⟩ := result
    simp only at h
    split at h
    · cases h
    rename_i last htail
    obtain ⟨tail, hslice', rfl⟩ := pushSpan_eq_ok_iff.mp htail
    cases h
    have hgrow' : Grows hole named.out final := hgrow.of_append
    obtain ⟨mark', hlaid, hmarked'⟩ := writeNames_lays hnames (by
      intro position hp
      have hlt := hhole position hp
      simp only [Trimmer.push, List.length_append]
      omega) (hmarked.push lead) hgrow'
    have hbounds := hlaid.bounds.2 (rdataNames_count_pos htable)
    have hleadLength := slice?_length hslice
    simp only [Trimmer.push, List.length_append] at hlaid hbounds hstop
    have hcopy : copy.rdataNames = some names := by
      rw [Entry.rdataNames_eq_some_iff, hrtype, hrdata, hstop]
      exact ⟨htable, by omega⟩
    refine ⟨mark', ?_, hmarked'.push tail⟩
    simp only [LaidRdata, hcopy]
    refine ⟨named.out.length, by omega, ?_⟩
    rw [hrdata]
    rwa [show before.out.length + names.offset =
      before.out.length + lead.length by omega]
  · rename_i hnone
    simp only [bind, Except.bind] at h
    split at h
    · cases h
    rename_i last hspan
    obtain ⟨span, hslice, rfl⟩ := pushSpan_eq_ok_iff.mp hspan
    cases h
    refine ⟨mark, ?_, hmarked.push span⟩
    have hlength := slice?_length hslice
    have hcopy : copy.rdataNames = none := by
      cases hnames : copy.rdataNames with
      | none => rfl
      | some names =>
          obtain ⟨htable, hlt⟩ := Entry.rdataNames_eq_some_iff.mp hnames
          rw [hrdata, hstop] at hlt
          simp only [Trimmer.push, List.length_append] at hlt
          have hentry : entry.rdataNames = some names :=
            Entry.rdataNames_eq_some_iff.mpr ⟨hrtype ▸ htable, by omega⟩
          rw [hnone] at hentry
          cases hentry
    simp only [LaidRdata, hcopy]

theorem Laid.fixed {copy : Entry} {stop : Nat}
    (h : Laid final mark copy.name copy.name stop)
    (hplaced : copy.WellPlaced final) : copy.fixed = stop :=
  hplaced.inline.unique h.inline

theorem writeRdata_grows {entry : Entry} {budget left : Nat}
    {before after : Trimmer}
    (h : before.writeRdata payload entry budget = .ok (after, left)) :
    ∃ suffix, after.out = before.out ++ suffix := by
  unfold Trimmer.writeRdata at h
  split at h
  · simp only [bind, Except.bind] at h
    split at h
    · cases h
    rename_i led hlead
    obtain ⟨lead, _, rfl⟩ := pushSpan_eq_ok_iff.mp hlead
    split at h
    · cases h
    rename_i result hnames
    obtain ⟨named, next, spent⟩ := result
    obtain ⟨suffix, hout⟩ := writeNames_grows hnames
    simp only at h
    split at h
    · cases h
    rename_i last htail
    obtain ⟨tail, _, rfl⟩ := pushSpan_eq_ok_iff.mp htail
    cases h
    refine ⟨lead ++ suffix ++ tail, ?_⟩
    simp only [Trimmer.push] at hout ⊢
    rw [hout]
    simp only [List.append_assoc]
  · simp only [bind, Except.bind] at h
    split at h
    · cases h
    rename_i last hspan
    obtain ⟨span, _, rfl⟩ := pushSpan_eq_ok_iff.mp hspan
    cases h
    exact ⟨span, rfl⟩

/-- What writing an entry lays out: any string the output grows into has the
entry there, its names laid out over the marks. -/
theorem writeEntry_lays {entry : Entry} {sect : Section} {budget left : Nat}
    {before after : Trimmer}
    (h : before.writeEntry payload entry budget = .ok (after, left))
    (hentry : entry.WellPlaced payload)
    (hheader : dnsHeaderLen ≤ before.out.length)
    (hplaced : PlacedOk inHeader payload before)
    (hkind : sect = .question ↔ entry.sect = .question)
    (hmarked : Marked mark before)
    (hgrow : Grows inHeader after.out final) :
    ∃ copy mark', entryAt final sect before.out.length = .ok copy ∧
      copy.stop = after.out.length ∧ LaidEntry final mark copy mark' ∧
      Marked mark' after := by
  have hwrote := writeEntry_spec h hentry hheader hplaced
  obtain ⟨record, hsource, hread⟩ := hwrote.record
  obtain ⟨copy, hcopy, hstop, hdecodes⟩ := hread final hgrow sect hkind
  obtain ⟨hcopyPlaced, hname, hsect⟩ := entryAt_eq_ok_iff.mp hcopy
  have hrtype : copy.rtype = entry.rtype := by
    have hfields := hsource.rtype hentry
    rw [hdecodes.rtype hcopyPlaced] at hfields
    exact Option.some.inj hfields
  have hbelow : ∀ position, inHeader position →
      position < before.out.length :=
    fun position hp => Nat.lt_of_lt_of_le hp hheader
  simp only [Trimmer.writeEntry, bind, Except.bind] at h
  split at h
  · cases h
  rename_i result hnamed
  obtain ⟨named, spent⟩ := result
  obtain ⟨octets, hout⟩ := writeNameFrom_grows hnamed
  split at h
  · rename_i hquestion
    split at h
    · cases h
    rename_i last hlast
    obtain ⟨span, hspan, rfl⟩ := pushSpan_eq_ok_iff.mp hlast
    cases h
    obtain ⟨hlaid, hcovers⟩ := writeName_lays hnamed hbelow hmarked.covers
      hmarked.low hgrow.of_append
    rw [← hname] at hlaid hcovers
    obtain ⟨hempty, _⟩ := hcopyPlaced.question (hsect.trans
      (hkind.mpr hquestion))
    refine ⟨copy, _, hcopy, hstop, ⟨?_, ?_⟩,
      Marked.push ⟨hcovers, markName_low hmarked.low⟩ span⟩
    · rwa [hlaid.fixed hcopyPlaced]
    · have hnone := Entry.rdataNames_of_empty (show copy.rdata = copy.stop by
        omega)
      simp only [LaidRdata, hnone]
  · rename_i hrecord
    split at h
    · cases h
    rename_i fielded hfielded
    obtain ⟨span, hspan, rfl⟩ := pushSpan_eq_ok_iff.mp hfielded
    split at h
    · cases h
    rename_i result hrdata
    obtain ⟨filled, spent'⟩ := result
    simp only at h
    split at h
    · cases h
    cases h
    obtain ⟨rdataOctets, hfilled⟩ := writeRdata_grows hrdata
    have height : span.length = 8 := by
      have := slice?_length hspan
      omega
    -- Any growth of the patched output is a growth of the unpatched one.
    have hroom : (named.push span).out.length + (toBe16 (filled.out.length -
        (named.push span).out.length - 2)).length ≤ filled.out.length := by
      rw [hfilled, toBe16_length]
      simp only [Trimmer.push, List.length_append, List.length_cons]
      omega
    have hunpatched := Grows.into_patched hroom hgrow
    have hnarrow : Grows inHeader named.out final := by
      rw [hfilled] at hunpatched
      refine hunpatched.of_append.of_append.of_append.narrow ?_
      rintro index hindex (hhead | ⟨hge, _⟩)
      · exact hhead
      · simp only [Trimmer.push, List.length_append] at hge hindex
        omega
    obtain ⟨hlaid, hcovers⟩ := writeName_lays hnamed hbelow hmarked.covers
      hmarked.low hnarrow
    have hfixed : copy.fixed = named.out.length := by
      rw [← hname] at hlaid
      exact hlaid.fixed hcopyPlaced
    obtain ⟨hcopyRdata, _⟩ := hcopyPlaced.record fun hquestion =>
      hrecord (hkind.mp (hsect.symm.trans hquestion))
    obtain ⟨mark', hlaidRdata, hmarked'⟩ := writeRdata_lays hrdata (by
        rintro index (hhead | ⟨_, hlt⟩)
        · have hlt : index < dnsHeaderLen := hhead
          simp only [Trimmer.push, hout, List.length_append]
          omega
        · rw [toBe16_length] at hlt
          simp only [Trimmer.push, List.length_append,
            List.length_cons] at hlt ⊢
          omega)
      (Marked.push (Marked.push ⟨hcovers, markName_low hmarked.low⟩ span)
        [0, 0]) hunpatched hrtype
      (by
        rw [hcopyRdata, hfixed]
        simp only [Trimmer.push, List.length_append, height,
          List.length_cons, List.length_nil])
      (hstop.trans (overwrite_length hroom))
    rw [← hname] at hlaid hlaidRdata
    refine ⟨copy, mark', hcopy, hstop, ⟨?_, hlaidRdata⟩,
      ⟨hmarked'.covers, hmarked'.low⟩⟩
    rwa [hfixed]

end WriteEntry

/-! ## The whole message -/

theorem LaidAll.concat {final : Bytes} {mark middle after : Nat → Prop}
    {copies : List Entry} {copy : Entry}
    (h : LaidAll final mark copies middle)
    (hcopy : LaidEntry final middle copy after) :
    LaidAll final mark (copies ++ [copy]) after := by
  induction h with
  | nil => exact .cons hcopy .nil
  | cons hfirst _ ih => exact .cons hfirst (ih hcopy)

structure LaysOut (final : Bytes) (sects : List Section)
    (trimmer : Trimmer) (copies : List Entry) (mark : Nat → Prop) :
    Prop where
  walk : walkEntries final sects dnsHeaderLen = .ok copies
  stop : walkStop dnsHeaderLen copies = trimmer.out.length
  laid : LaidAll final (fun _ => False) copies mark
  marked : Marked mark trimmer

theorem LaysOut.concat {payload final : Bytes} {plan : List Placement}
    {placement : Placement} {before after : Trimmer} {copies : List Entry}
    {mark : Nat → Prop} {budget left : Nat}
    (h : LaysOut final (plan.map Placement.sect) before copies mark)
    (hwrite : before.writeEntry payload placement.entry budget =
      .ok (after, left))
    (hentry : placement.entry.WellPlaced payload)
    (hkind : placement.sect = .question ↔ placement.entry.sect = .question)
    (hheader : dnsHeaderLen ≤ before.out.length)
    (hplaced : PlacedOk inHeader payload before)
    (hgrow : Grows inHeader after.out final) :
    ∃ copies' mark', LaysOut final
      ((plan ++ [placement]).map Placement.sect) after copies' mark' := by
  obtain ⟨copy, mark', hcopy, hstop, hlaid, hmarked⟩ := writeEntry_lays
    hwrite hentry hheader hplaced hkind h.marked hgrow
  refine ⟨copies ++ [copy], mark', ?_, ?_, h.laid.concat hlaid, hmarked⟩
  · rw [List.map_append, List.map_singleton]
    refine walkEntries_append h.walk ?_
    rw [h.stop]
    exact walkEntries_cons_eq_ok_iff.mpr ⟨copy, [], hcopy, rfl, rfl⟩
  · rw [walkStop_append]
    exact hstop

theorem opening_marked (payload : Bytes) :
    Marked (fun _ => False) (Trimmer.opening payload) := by
  refine ⟨?_, fun _ => False.elim⟩
  intro source position hget hne
  simp only [Trimmer.opening, List.getElem?_replicate] at hget
  split at hget
  · exact absurd (Option.some.inj hget).symm hne
  · cases hget

theorem Wrote.laysOut {payload : Bytes} {plan : List Placement}
    {trimmer : Trimmer} (hlong : dnsHeaderLen ≤ payload.length)
    (h : Wrote payload (Trimmer.opening payload) plan trimmer) :
    dnsHeaderLen ≤ trimmer.out.length ∧ PlacedOk inHeader payload trimmer ∧
      ∀ final, Grows inHeader trimmer.out final →
        ∃ copies mark, LaysOut final (plan.map Placement.sect) trimmer
          copies mark := by
  have hopening : (Trimmer.opening payload).out.length = dnsHeaderLen :=
    (List.length_take ..).trans (Nat.min_eq_left hlong)
  induction h with
  | nil =>
      refine ⟨Nat.le_of_eq hopening.symm, opening_placedOk payload, ?_⟩
      intro final _
      exact ⟨[], _, rfl, hopening.symm, .nil, opening_marked payload⟩
  | concat _ hentry hkind hwrite ih =>
      obtain ⟨hheader, hplaced, hlays⟩ := ih
      have hwrote := writeEntry_spec hwrite hentry hheader hplaced
      obtain ⟨octets, hout⟩ := hwrote.grows
      refine ⟨?_, hwrote.placed, ?_⟩
      · rw [hout, List.length_append]
        omega
      · intro final hgrow
        have hbefore := hgrow
        rw [hout] at hbefore
        obtain ⟨copies, mark, hbefore⟩ := hlays final hbefore.of_append
        exact hbefore.concat hwrite hentry hkind hheader hplaced hgrow

/-! ## The names of a laid out message -/

def namesFrom (payload : Bytes) : Nat → Nat → List Nat
  | 0, _ => []
  | count + 1, offset =>
      offset :: ((skipName payload offset).elim []
        (namesFrom payload count))

def Entry.nameOffsets (entry : Entry) (payload : Bytes) : List Nat :=
  entry.name :: entry.rdataNames.elim [] fun names =>
    namesFrom payload names.count (entry.rdata + names.offset)

def StartsLabel (out : Bytes) (copies : List Entry) (target : Nat) : Prop :=
  ∃ copy ∈ copies, ∃ offset ∈ copy.nameOffsets out,
    LabelIn out offset target

inductive OnWalk (out : Bytes) : Nat → Nat → Prop
  | here {offset : Nat} : OnWalk out offset offset
  | label {offset place : Nat} {len : UInt8} :
      out[offset]? = some len → labelTag len = .plain →
      OnWalk out (offset + 1 + len.toNat) place → OnWalk out offset place
  | hop {offset place : Nat} {len low : UInt8} :
      out[offset]? = some len → labelTag len = .pointer →
      out[offset + 1]? = some low →
      OnWalk out (pointerTarget len low) place → OnWalk out offset place

/-- Every pointer on the walk of the name at `offset` goes back to the start
of a label. -/
def PointsBack (out : Bytes) (copies : List Entry) (offset : Nat) : Prop :=
  ∀ place len low, OnWalk out offset place → out[place]? = some len →
    labelTag len = .pointer → out[place + 1]? = some low →
    pointerTarget len low < place ∧
      pointerTarget len low ≤ maxPointerTarget ∧
      StartsLabel out copies (pointerTarget len low)

section Names

variable {out : Bytes} {copies : List Entry}

def LaidIn (out : Bytes) (copies : List Entry) (offset : Nat) : Prop :=
  ∃ mark start stop, Laid out mark start offset stop ∧ start ≤ offset ∧
    ∀ position, mark position → StartsLabel out copies position

theorem LaidIn.step {offset : Nat} {len : UInt8}
    (h : LaidIn out copies offset) (hlen : out[offset]? = some len)
    (htag : labelTag len = .plain) :
    LaidIn out copies (offset + 1 + len.toNat) := by
  obtain ⟨mark, start, stop, hlaid, hstart, hmark⟩ := h
  cases hlaid with
  | root hroot =>
      rw [laid_root hroot] at hlen
      cases hlen
      cases htag
  | plain hlen' _ _ hrest =>
      rw [hlen] at hlen'
      cases hlen'
      exact ⟨mark, start, stop, hrest, by omega, hmark⟩
  | pointer _ hle _ hslice =>
      obtain ⟨len', low, hlen', htag', _⟩ := laid_pointer hle hslice
      rw [hlen] at hlen'
      cases hlen'
      rw [htag] at htag'
      cases htag'

theorem LaidIn.labels {offset target : Nat} (h : LaidIn out copies offset)
    (hin : LabelIn out offset target) : LaidIn out copies target := by
  induction hin with
  | here _ _ => exact h
  | next hlen htag _ ih => exact ih (h.step hlen htag)

theorem LaidIn.target {offset : Nat} {len low : UInt8}
    (h : LaidIn out copies offset) (hlen : out[offset]? = some len)
    (htag : labelTag len = .pointer) (hlow : out[offset + 1]? = some low) :
    pointerTarget len low < offset ∧
      pointerTarget len low ≤ maxPointerTarget ∧
      StartsLabel out copies (pointerTarget len low) := by
  obtain ⟨mark, start, stop, hlaid, hstart, hmark⟩ := h
  cases hlaid with
  | root hroot =>
      rw [laid_root hroot] at hlen
      cases hlen
      cases htag
  | plain hlen' htag' _ _ =>
      rw [hlen] at hlen'
      cases hlen'
      rw [htag] at htag'
      cases htag'
  | pointer hmarked hle hlt hslice =>
      obtain ⟨len', low', hlen', _, hlow', htarget⟩ :=
        laid_pointer hle hslice
      rw [hlen] at hlen'
      rw [hlow] at hlow'
      cases hlen'
      cases hlow'
      rw [htarget]
      exact ⟨by omega, hle, hmark _ hmarked⟩

theorem LaidIn.pointsBack {offset : Nat}
    (hall : ∀ copy ∈ copies, ∀ offset ∈ copy.nameOffsets out,
      LaidIn out copies offset)
    (h : LaidIn out copies offset) : PointsBack out copies offset := by
  intro place len low hwalk
  induction hwalk with
  | here => exact h.target
  | label hlen htag _ ih => exact ih (h.step hlen htag)
  | hop hlen htag hlow _ ih =>
      obtain ⟨_, _, copy, hcopy, other, hother, hin⟩ :=
        h.target hlen htag hlow
      exact ih ((hall copy hcopy other hother).labels hin)

theorem LaidNames.laidIn {mark after : Nat → Prop} {count offset stop : Nat}
    (h : LaidNames out mark count offset stop after)
    (hmark : ∀ position, mark position → StartsLabel out copies position)
    (hnames : ∀ other ∈ namesFrom out count offset, ∀ target,
      LabelIn out other target → StartsLabel out copies target) :
    (∀ other ∈ namesFrom out count offset, LaidIn out copies other) ∧
      ∀ position, after position → StartsLabel out copies position := by
  induction h with
  | nil => exact ⟨fun _ hmem => absurd hmem List.not_mem_nil, hmark⟩
  | @cons mark after count offset next stop hname _ ih =>
      have hskip := skipName_eq_some_iff.mpr hname.inline
      simp only [namesFrom, hskip, Option.elim_some,
        List.forall_mem_cons] at hnames ⊢
      obtain ⟨hrest, hafter⟩ := ih (by
        rintro position (hold | ⟨hin, _⟩)
        · exact hmark position hold
        · exact hnames.1 position hin) hnames.2
      exact ⟨⟨⟨mark, offset, next, hname, Nat.le_refl _, hmark⟩, hrest⟩,
        hafter⟩

theorem LaidEntry.laidIn {mark after : Nat → Prop} {copy : Entry}
    (h : LaidEntry out mark copy after)
    (hmark : ∀ position, mark position → StartsLabel out copies position)
    (hcopy : copy ∈ copies) :
    (∀ offset ∈ copy.nameOffsets out, LaidIn out copies offset) ∧
      ∀ position, after position → StartsLabel out copies position := by
  have howner : ∀ position, markName out copy.name mark position →
      StartsLabel out copies position := by
    rintro position (hold | ⟨hin, _⟩)
    · exact hmark position hold
    · exact ⟨copy, hcopy, copy.name, List.mem_cons_self, hin⟩
  have hfirst : LaidIn out copies copy.name :=
    ⟨mark, copy.name, copy.fixed, h.owner, Nat.le_refl _, hmark⟩
  have hrdata := h.rdata
  unfold LaidRdata at hrdata
  cases hnames : copy.rdataNames with
  | none =>
      simp only [hnames] at hrdata
      subst hrdata
      simp only [Entry.nameOffsets, hnames, Option.elim_none,
        List.forall_mem_singleton]
      exact ⟨hfirst, howner⟩
  | some names =>
      simp only [hnames] at hrdata
      obtain ⟨next, _, hlaid⟩ := hrdata
      obtain ⟨hrest, hafter⟩ := hlaid.laidIn howner (by
        intro other hother target hin
        refine ⟨copy, hcopy, other, ?_, hin⟩
        simp only [Entry.nameOffsets, hnames, Option.elim_some]
        exact List.mem_cons_of_mem _ hother)
      simp only [Entry.nameOffsets, hnames, Option.elim_some,
        List.forall_mem_cons]
      exact ⟨⟨hfirst, hrest⟩, hafter⟩

theorem LaidAll.laidIn {mark after : Nat → Prop} {rest : List Entry}
    (h : LaidAll out mark rest after) (hsub : ∀ copy ∈ rest, copy ∈ copies)
    (hmark : ∀ position, mark position → StartsLabel out copies position) :
    ∀ copy ∈ rest, ∀ offset ∈ copy.nameOffsets out,
      LaidIn out copies offset := by
  induction h with
  | nil => exact fun _ hmem => absurd hmem List.not_mem_nil
  | cons hcopy _ ih =>
      obtain ⟨hfirst, hsub'⟩ := List.forall_mem_cons.mp hsub
      obtain ⟨hnames, hafter⟩ := hcopy.laidIn hmark hfirst
      exact List.forall_mem_cons.mpr ⟨hnames, ih hsub' hafter⟩

theorem LaidAll.pointsBack {mark : Nat → Prop}
    (h : LaidAll out (fun _ => False) copies mark) :
    ∀ copy ∈ copies, ∀ offset ∈ copy.nameOffsets out,
      PointsBack out copies offset := by
  have hall := h.laidIn (fun _ hmem => hmem) (fun _ => False.elim)
  intro copy hcopy offset hoffset
  exact (hall copy hcopy offset hoffset).pointsBack hall

end Names

end Netflector.Net.Mdns
