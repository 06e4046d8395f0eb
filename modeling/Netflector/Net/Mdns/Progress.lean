import Netflector.Net.Mdns.AllowList

/-!
# A trim that was assessed comes to its end

What an assessment reads of each entry costs at least what writing it costs, so
that within the same budget the trim can fail for the length of what it writes
and for nothing else.
-/

namespace Netflector.Net.Mdns

open Netflector.Foundation

/-! ## What reading a name costs -/

structure Walked (payload : Bytes) (offset steps : Nat)
    (labels : List Bytes) : Prop where
  spells : ∃ hops, Spells payload offset hops labels ∧
    hops ≤ maxPointerHops ∧ steps = labels.length + hops + 1
  short : octets labels < maxNameLen

theorem Labels.collect_cost {payload : Bytes} {fuel budget left : Nat}
    {labels : Labels} {names : List Bytes} {hops : Nat}
    (h : Labels.collect payload fuel labels budget = .ok (names, left))
    (hdone : labels.done = false)
    (hspells : Spells payload labels.offset hops names) :
    budget = left + (names.length + hops + 1) := by
  induction budget generalizing fuel labels names hops with
  | zero =>
      cases fuel with
      | zero => simp [Labels.collect] at h
      | succ fuel => simp [Labels.collect_zero payload fuel hdone] at h
  | succ budget ih =>
      cases fuel with
      | zero => simp [Labels.collect] at h
      | succ fuel =>
          rw [Labels.collect_succ payload fuel budget hdone] at h
          cases hspells with
          | root hoctet htag =>
              simp only [hoctet, htag] at h
              cases h
              simp
          | plain hoctet htag hlabel hrest =>
              simp only [hoctet, htag, hlabel] at h
              split at h
              · cases h
              · have hlength := slice?_length hlabel
                simp only [bind, Except.bind] at h
                split at h
                · cases h
                · rename_i result hresult
                  obtain ⟨rest, spent⟩ := result
                  cases h
                  have hoffset : labels.offset + 1 + _ =
                      labels.offset + 1 + _ :=
                    congrArg (labels.offset + 1 + ·) hlength
                  rw [Nat.add_sub_cancel_left] at hoffset
                  rw [← hoffset] at hrest
                  have hcost := ih hresult hdone hrest
                  simp only [List.length_cons]
                  omega
          | pointer hoctet htag hlow hrest =>
              simp only [hoctet, htag, hlow] at h
              split at h
              · cases h
              · have hcost := ih h hdone hrest
                omega

theorem readName_walked {payload : Bytes} {offset budget left : Nat}
    {labels : List Bytes}
    (h : readName payload offset budget = .ok (labels, left)) :
    ∃ steps, Walked payload offset steps labels ∧ budget = left + steps := by
  obtain ⟨hops, hspells, hhops, hshort⟩ := readName_readable h
  have hcost := Labels.collect_cost h rfl hspells
  exact ⟨_, ⟨⟨hops, hspells, hhops, rfl⟩, hshort⟩, hcost⟩

theorem Walked.readName {payload : Bytes} {offset steps : Nat}
    {labels : List Bytes} (h : Walked payload offset steps labels)
    (extra : Nat) :
    Mdns.readName payload offset (extra + steps) = .ok (labels, extra) := by
  obtain ⟨hops, hspells, hhops, rfl⟩ := h.spells
  have hread : Labels.collect payload (extra + (labels.length + hops + 1) + 1)
      (Labels.new offset) (extra + (labels.length + hops + 1)) =
        .ok (labels, _) :=
    hspells.collect rfl rfl (by simpa [Labels.new] using hhops)
      (by simpa [Labels.new] using h.short) (by omega) (by omega)
  rw [Mdns.readName, hread, Nat.add_sub_cancel]

theorem serviceOf_walked {payload : Bytes} {offset budget left : Nat}
    {service : Option Service}
    (h : serviceOf payload offset budget = .ok (service, left)) :
    ∃ steps, budget = left + steps ∧
      ∀ extra, serviceOf payload offset (extra + steps) =
        .ok (service, extra) := by
  simp only [serviceOf, bind, Except.bind] at h
  split at h
  · cases h
  · rename_i result hread
    obtain ⟨labels, spent⟩ := result
    cases h
    obtain ⟨steps, hwalked, hcost⟩ := readName_walked hread
    refine ⟨steps, hcost, ?_⟩
    intro extra
    simp only [serviceOf, hwalked.readName, bind, Except.bind]

theorem entryService_walked {payload : Bytes} {entry : Entry}
    {budget left : Nat} {service : Option Service}
    (h : entryService entry payload budget = .ok (service, left)) :
    ∃ steps, budget = left + steps ∧
      ∀ extra, entryService entry payload (extra + steps) =
        .ok (service, extra) := by
  simp only [entryService] at h ⊢
  split at h
  · rename_i hptr
    simp only [if_pos hptr, bind, Except.bind] at h ⊢
    split at h
    · cases h
    · rename_i result htarget
      obtain ⟨found, spent⟩ := result
      obtain ⟨steps, hcost, hagain⟩ := serviceOf_walked htarget
      cases found with
      | some found =>
          cases h
          refine ⟨steps, hcost, ?_⟩
          intro extra
          rw [hagain]
      | none =>
          obtain ⟨more, hmore, hagain'⟩ := serviceOf_walked h
          refine ⟨more + steps, by omega, ?_⟩
          intro extra
          rw [← Nat.add_assoc, hagain]
          exact hagain' extra
  · rename_i hptr
    simp only [if_neg hptr]
    exact serviceOf_walked h

/-! ## Writing a name -/

/-- What was placed at `start` or behind is further from the end of its name
than `steps`. -/
def Behind (payload : Bytes) (start steps : Nat) (trimmer : Trimmer) : Prop :=
  ∀ source position : Nat, trimmer.placed[source]? = some position →
    position ≠ unplaced → start ≤ position →
    ∃ hops labels, Spells payload source hops labels ∧
      steps < labels.length + hops + 1

def Within (trimmer : Trimmer) : Prop :=
  ∀ source position : Nat, trimmer.placed[source]? = some position →
    position ≠ unplaced → position < trimmer.out.length

theorem Within.push {trimmer : Trimmer} (h : Within trimmer) (bytes : Bytes) :
    Within (trimmer.push bytes) := by
  intro source position hget hne
  have hlt := h source position hget hne
  simp only [Trimmer.push, List.length_append]
  omega

def Trimmer.label (trimmer : Trimmer) (offset : Nat) (label : Bytes) :
    Trimmer :=
  ⟨trimmer.out ++ label,
    if trimmer.out.length ≤ maxPointerTarget then
      trimmer.placed.set offset trimmer.out.length
    else trimmer.placed⟩

theorem Trimmer.label_placed {trimmer : Trimmer} {offset source : Nat}
    {label : Bytes} {position : Nat}
    (h : (trimmer.label offset label).placed[source]? = some position) :
    trimmer.placed[source]? = some position ∨
      source = offset ∧ position = trimmer.out.length ∧
        position ≤ maxPointerTarget := by
  simp only [Trimmer.label] at h
  split at h
  · rename_i hle
    rw [List.getElem?_set] at h
    split at h
    · rename_i hsame
      split at h
      · cases h
        exact .inr ⟨hsame.symm, rfl, hle⟩
      · cases h
    · exact .inl h
  · exact .inl h

structure Writes (payload : Bytes) (steps : Nat) (before after : Trimmer)
    (write : Nat → Except Malformed (Trimmer × Nat)) : Prop where
  runs : ∃ cost, cost ≤ steps ∧
    ∀ extra, write (extra + cost) = .ok (after, extra)
  grows : before.out.length ≤ after.out.length
  within : Within after

theorem writeNameFrom_placed {payload : Bytes} {offset start hops left : Nat}
    {labels : List Bytes} {trimmer : Trimmer}
    (h : Spells payload offset left labels)
    (hplaced : trimmer.placed[offset]?.getD unplaced ≠ unplaced)
    (hbehind : Behind payload start (labels.length + left + 1) trimmer)
    (hwithin : Within trimmer) :
    ∃ after, Writes payload (labels.length + left + 1) trimmer after
      fun budget =>
        Trimmer.writeNameFrom payload start budget offset hops trimmer := by
  cases hget : trimmer.placed[offset]? with
  | none =>
      rw [hget] at hplaced
      exact absurd rfl hplaced
  | some position =>
      rw [hget, Option.getD_some] at hplaced
      have hlt : ¬ position ≥ start := by
        intro hge
        obtain ⟨hops', labels', hspells, hmore⟩ :=
          hbehind offset position hget hplaced hge
        obtain ⟨rfl, rfl⟩ := h.unique hspells
        omega
      refine ⟨trimmer.push (toBe16 (0xc000 ||| position)), ⟨1, by omega, ?_⟩,
        ?_, hwithin.push _⟩
      · intro extra
        simp only [Trimmer.writeNameFrom, hget, Option.getD_some, if_neg hlt,
          if_pos hplaced]
      · simp [Trimmer.push]

theorem whole_label {payload label : Bytes} {offset : Nat} {len : UInt8}
    (h : slice? payload (offset + 1) (offset + 1 + len.toNat) = some label) :
    ∃ whole, slice? payload offset (offset + 1 + len.toNat) = some whole ∧
      whole.length = 1 + len.toNat := by
  have hbounds := (slice?_eq_some_iff.mp h).2.1
  obtain ⟨whole, hwhole⟩ := slice?_isSome payload
    (by omega : offset ≤ offset + 1 + len.toNat) hbounds
  have hlength := slice?_length hwhole
  exact ⟨whole, hwhole, by omega⟩

theorem label_behind {payload whole label : Bytes} {offset start left : Nat}
    {labels : List Bytes} {trimmer : Trimmer}
    (h : Spells payload offset left (label :: labels))
    (hbehind : Behind payload start ((label :: labels).length + left + 1)
      trimmer)
    (hwithin : Within trimmer) (hwhole : 0 < whole.length) :
    Behind payload start (labels.length + left + 1)
        (trimmer.label offset whole) ∧
      Within (trimmer.label offset whole) := by
  constructor
  · intro source position hget hne hge
    rcases Trimmer.label_placed hget with hold | ⟨rfl, _, _⟩
    · obtain ⟨hops', labels', hspells', hmore⟩ :=
        hbehind source position hold hne hge
      rw [List.length_cons] at hmore
      exact ⟨hops', labels', hspells', by omega⟩
    · exact ⟨left, label :: labels, h, by rw [List.length_cons]; omega⟩
  · intro source position hget hne
    simp only [Trimmer.label, List.length_append]
    rcases Trimmer.label_placed hget with hold | ⟨_, rfl, _⟩
    · have hlt := hwithin source position hold hne
      omega
    · omega

theorem writeNameFrom_progress {payload : Bytes} {offset left : Nat}
    {labels : List Bytes} (h : Spells payload offset left labels)
    {start hops : Nat} {trimmer : Trimmer}
    (hhops : hops + left ≤ maxPointerHops)
    (hbehind : Behind payload start (labels.length + left + 1) trimmer)
    (hwithin : Within trimmer) :
    ∃ after, Writes payload (labels.length + left + 1) trimmer after
      fun budget =>
        Trimmer.writeNameFrom payload start budget offset hops trimmer := by
  induction h generalizing hops trimmer with
  | @root offset len hoctet htag =>
      by_cases hplaced : trimmer.placed[offset]?.getD unplaced = unplaced
      · refine ⟨trimmer.push [0], ⟨1, by simp, ?_⟩, by simp [Trimmer.push],
          hwithin.push _⟩
        intro extra
        simp only [Trimmer.writeNameFrom, hplaced, hoctet, htag, ne_eq,
          not_true_eq_false, if_false]
      · exact writeNameFrom_placed (.root hoctet htag) hplaced hbehind hwithin
  | @plain offset left len label labels hoctet htag hlabel hrest ih =>
      have hspells := Spells.plain hoctet htag hlabel hrest
      by_cases hplaced : trimmer.placed[offset]?.getD unplaced = unplaced
      · obtain ⟨whole, hwhole, hlength⟩ := whole_label hlabel
        obtain ⟨hbehind', hwithin'⟩ :=
          label_behind hspells hbehind hwithin (by omega : 0 < whole.length)
        obtain ⟨after, ⟨cost, hcost, hruns⟩, hgrows, hafter⟩ :=
          ih hhops hbehind' hwithin'
        refine ⟨after, ⟨cost + 1, by simp only [List.length_cons]; omega, ?_⟩,
          ?_, hafter⟩
        · intro extra
          have hnext := hruns extra
          rw [← Nat.add_assoc]
          simp only [Trimmer.writeNameFrom, hplaced, hoctet, htag, hwhole,
            ne_eq, not_true_eq_false, if_false]
          rw [Nat.add_assoc offset, ← hlength] at hnext
          exact hnext
        · simp only [Trimmer.label, List.length_append] at hgrows
          omega
      · exact writeNameFrom_placed hspells hplaced hbehind hwithin
  | @pointer offset left len low labels hoctet htag hlow hrest ih =>
      have hspells := Spells.pointer hoctet htag hlow hrest
      by_cases hplaced : trimmer.placed[offset]?.getD unplaced = unplaced
      · have hbehind' : Behind payload start (labels.length + left + 1)
            trimmer := by
          intro source position hget hne hge
          obtain ⟨hops', labels', hspells', hmore⟩ :=
            hbehind source position hget hne hge
          exact ⟨hops', labels', hspells', by omega⟩
        have hlimit : ¬ hops + 1 > maxPointerHops := by omega
        obtain ⟨after, ⟨cost, hcost, hruns⟩, hgrows, hafter⟩ :=
          ih (by omega : hops + 1 + left ≤ maxPointerHops) hbehind' hwithin
        refine ⟨after, ⟨cost + 1, by omega, ?_⟩, hgrows, hafter⟩
        intro extra
        rw [← Nat.add_assoc]
        simp only [Trimmer.writeNameFrom, hplaced, hoctet, htag, hlow, ne_eq,
          not_true_eq_false, if_false, if_neg hlimit]
        exact hruns extra
      · exact writeNameFrom_placed hspells hplaced hbehind hwithin

theorem writeName_progress {payload : Bytes} {offset steps : Nat}
    {labels : List Bytes} (h : Walked payload offset steps labels)
    {trimmer : Trimmer} (hwithin : Within trimmer) :
    ∃ after, Writes payload steps trimmer after fun budget =>
      trimmer.writeName payload offset budget := by
  obtain ⟨hops, hspells, hhops, rfl⟩ := h.spells
  refine writeNameFrom_progress hspells (by omega) ?_ hwithin
  intro source position hget hne hge
  have hlt := hwithin source position hget hne
  omega

theorem checkName_walked {payload : Bytes} {offset budget left : Nat}
    (h : checkName payload offset budget = .ok left) :
    ∃ steps labels, Walked payload offset steps labels ∧
      budget = left + steps := by
  simp only [checkName, bind, Except.bind] at h
  split at h
  · cases h
  · rename_i result hread
    obtain ⟨labels, spent⟩ := result
    cases h
    obtain ⟨steps, hwalked, hcost⟩ := readName_walked hread
    exact ⟨steps, labels, hwalked, hcost⟩

/-! ## Writing an entry -/

theorem writeNames_progress {payload : Bytes} {stop count offset : Nat}
    {budget left : Nat}
    (h : checkRdataNames payload stop count offset budget = .ok left)
    (hstop : offset ≤ stop ∨ 0 < count) :
    ∃ steps, budget = left + steps ∧ ∀ trimmer, Within trimmer →
      ∃ after next, offset ≤ next ∧ next ≤ stop ∧
        (∃ cost, cost ≤ steps ∧ ∀ extra,
          trimmer.writeNames payload count offset (extra + cost) =
            .ok (after, next, extra)) ∧
        trimmer.out.length ≤ after.out.length ∧ Within after := by
  induction count generalizing offset budget with
  | zero =>
      cases h
      refine ⟨0, rfl, ?_⟩
      intro trimmer hwithin
      refine ⟨trimmer, offset, Nat.le_refl _, ?_, ⟨0, Nat.le_refl _, ?_⟩,
        Nat.le_refl _, hwithin⟩
      · rcases hstop with hle | hpos
        · exact hle
        · omega
      · intro extra
        rfl
  | succ count ih =>
      simp only [checkRdataNames, bind, Except.bind] at h
      split at h
      · cases h
      · rename_i spent hcheck
        obtain ⟨steps, labels, hwalked, hcost⟩ := checkName_walked hcheck
        split at h
        · cases h
        · rename_i next hskip
          split at h
          · cases h
          · rename_i hnext
            obtain ⟨more, hmore, hrest⟩ := ih h (.inl (by omega))
            refine ⟨more + steps, by omega, ?_⟩
            intro trimmer hwithin
            obtain ⟨named, ⟨cost, hle, hruns⟩, hgrows, hnamed⟩ :=
              writeName_progress hwalked hwithin
            obtain ⟨after, last, hlast, hbelow, ⟨cost', hle', hruns'⟩, hgrows',
              hafter⟩ := hrest named hnamed
            have hbounds := (skipName_eq_some_iff.mp hskip).bounds
            refine ⟨after, last, by omega, hbelow,
              ⟨cost' + cost, by omega, ?_⟩, by omega, hafter⟩
            intro extra
            rw [← Nat.add_assoc]
            simp only [Trimmer.writeNames, hruns, hskip, bind, Except.bind]
            exact hruns' extra

/-- `writeEntry`, whatever the length of the rdata. -/
def Trimmer.writeWhole (payload : Bytes) (entry : Entry) (budget : Nat)
    (trimmer : Trimmer) : Except Malformed (Trimmer × Nat) := do
  let (trimmer, budget) ← trimmer.writeName payload entry.name budget
  if entry.sect = .question then
    let trimmer ← trimmer.pushSpan payload entry.fixed entry.stop
    .ok (trimmer, budget)
  else
    let trimmer ← trimmer.pushSpan payload entry.fixed (entry.fixed + 8)
    let lengthAt := trimmer.out.length
    let (trimmer, budget) ←
      (trimmer.push [0, 0]).writeRdata payload entry budget
    let length := trimmer.out.length - lengthAt - 2
    .ok ({ trimmer with
      out := overwrite trimmer.out lengthAt (toBe16 length) }, budget)

theorem pushSpan_ok {payload : Bytes} {start stop : Nat}
    (hle : start ≤ stop) (hstop : stop ≤ payload.length) :
    ∃ span, ∀ trimmer : Trimmer,
      trimmer.pushSpan payload start stop = .ok (trimmer.push span) := by
  obtain ⟨span, hspan⟩ := slice?_isSome payload hle hstop
  refine ⟨span, ?_⟩
  intro trimmer
  rw [Trimmer.pushSpan, hspan]

def RdataWrites (payload : Bytes) (entry : Entry) (steps : Nat) : Prop :=
  ∀ trimmer, Within trimmer → ∃ after, Writes payload steps trimmer after
    fun budget => trimmer.writeRdata payload entry budget

theorem writeRdata_raw_progress {payload : Bytes} {entry : Entry}
    (hplaced : entry.WellPlaced payload) (hnone : entry.rdataNames = none) :
    RdataWrites payload entry 0 := by
  intro trimmer hwithin
  obtain ⟨span, hspan⟩ := pushSpan_ok hplaced.rdata_le hplaced.stop_le
  refine ⟨trimmer.push span, ⟨0, Nat.le_refl _, ?_⟩, ?_, hwithin.push _⟩
  · intro extra
    simp only [Trimmer.writeRdata, hnone, hspan, bind, Except.bind,
      Nat.add_zero]
  · simp [Trimmer.push]

theorem writeRdata_names_progress {payload : Bytes} {entry : Entry}
    {names : RdataNames} {budget left : Nat}
    (hplaced : entry.WellPlaced payload)
    (hsome : entry.rdataNames = some names)
    (h : checkRdataNames payload entry.stop names.count
      (entry.rdata + names.offset) budget = .ok left) :
    ∃ steps, budget = left + steps ∧ RdataWrites payload entry steps := by
  have hcount := rdataNames_count_pos
    (Entry.rdataNames_eq_some_iff.mp hsome).1
  obtain ⟨steps, hcost, hnames⟩ := writeNames_progress h (.inr hcount)
  refine ⟨steps, hcost, ?_⟩
  intro trimmer hwithin
  -- The first name ends inside the rdata, and so it starts there.
  have hstart : entry.rdata + names.offset ≤ entry.stop := by
    obtain ⟨_, next, hoffset, hnext, _⟩ := hnames trimmer hwithin
    omega
  have hstop := hplaced.stop_le
  obtain ⟨lead, hlead⟩ := pushSpan_ok
    (by omega : entry.rdata ≤ entry.rdata + names.offset)
    (by omega : entry.rdata + names.offset ≤ payload.length)
  obtain ⟨named, next, _, hnext, ⟨cost, hle, hruns⟩, hgrows, hnamed⟩ :=
    hnames (trimmer.push lead) (hwithin.push lead)
  obtain ⟨tail, htail⟩ := pushSpan_ok hnext hstop
  refine ⟨named.push tail, ⟨cost, hle, ?_⟩, ?_, hnamed.push _⟩
  · intro extra
    simp only [Trimmer.writeRdata, hsome, hlead, hruns, htail, bind,
      Except.bind]
  · simp only [Trimmer.push, List.length_append] at hgrows ⊢
    omega

/-- What the check of an entry's names costs, writing it does not exceed. -/
theorem writeWhole_progress {payload : Bytes} {entry : Entry}
    {budget left : Nat} (hplaced : entry.WellPlaced payload)
    (h : entry.checkNames payload budget = .ok left) :
    ∃ steps, budget = left + steps ∧ ∀ trimmer, Within trimmer →
      ∃ after, Writes payload steps trimmer after fun budget =>
        trimmer.writeWhole payload entry budget := by
  simp only [Entry.checkNames, bind, Except.bind] at h
  split at h
  · cases h
  · rename_i spent hcheck
    obtain ⟨steps, labels, hwalked, hcost⟩ := checkName_walked hcheck
    have hrdata : ∃ more, spent = left + more ∧
        RdataWrites payload entry more := by
      split at h
      · rename_i hnone
        cases h
        exact ⟨0, rfl, writeRdata_raw_progress hplaced hnone⟩
      · rename_i names hsome
        exact writeRdata_names_progress hplaced hsome h
    obtain ⟨more, hmore, hwrites⟩ := hrdata
    refine ⟨more + steps, by omega, ?_⟩
    intro trimmer hwithin
    obtain ⟨named, ⟨cost, hle, hruns⟩, hgrows, hnamed⟩ :=
      writeName_progress hwalked hwithin
    have hbounds := hplaced.inline.bounds
    have hstop := hplaced.stop_le
    have hrdata := hplaced.rdata_le
    by_cases hsect : entry.sect = .question
    · have hquestion := hplaced.question hsect
      obtain ⟨span, hspan⟩ := pushSpan_ok
        (by omega : entry.fixed ≤ entry.stop) hstop
      refine ⟨named.push span, ⟨cost, by omega, ?_⟩, ?_, hnamed.push _⟩
      · intro extra
        simp only [Trimmer.writeWhole, hruns, if_pos hsect, hspan, bind,
          Except.bind]
      · simp only [Trimmer.push, List.length_append]
        omega
    · have hrecord := (hplaced.record hsect).1
      obtain ⟨span, hspan⟩ := pushSpan_ok
        (by omega : entry.fixed ≤ entry.fixed + 8)
        (by omega : entry.fixed + 8 ≤ payload.length)
      obtain ⟨filled, ⟨cost', hle', hruns'⟩, hgrows', hfilled⟩ :=
        hwrites ((named.push span).push [0, 0])
          ((hnamed.push span).push [0, 0])
      have hroom : (named.push span).out.length +
          (toBe16 (filled.out.length - (named.push span).out.length -
            2)).length ≤ filled.out.length := by
        rw [toBe16_length]
        simpa [Trimmer.push, Nat.add_assoc] using hgrows'
      have hlength := overwrite_length hroom
      refine ⟨⟨overwrite filled.out (named.push span).out.length
        (toBe16 (filled.out.length - (named.push span).out.length - 2)),
        filled.placed⟩, ⟨cost' + cost, by omega, ?_⟩, ?_, ?_⟩
      · intro extra
        rw [← Nat.add_assoc]
        simp only [Trimmer.writeWhole, hruns, if_neg hsect, hspan, hruns',
          bind, Except.bind]
      · simp only [hlength]
        simp only [Trimmer.push, List.length_append] at hgrows'
        omega
      · intro source position hget hne
        simp only [hlength]
        exact hfilled source position hget hne

/-- The length of the rdata is all that may still be wrong. -/
theorem writeEntry_whole {payload : Bytes} {entry : Entry}
    {budget left : Nat} {trimmer after : Trimmer}
    (h : trimmer.writeWhole payload entry budget = .ok (after, left)) :
    trimmer.writeEntry payload entry budget = .ok (after, left) ∨
      trimmer.writeEntry payload entry budget = .error ⟨⟩ ∧
        0xffff < after.out.length := by
  simp only [Trimmer.writeWhole, bind, Except.bind] at h
  simp only [Trimmer.writeEntry, bind, Except.bind]
  split at h
  · cases h
  · by_cases hsect : entry.sect = .question
    · rw [if_pos hsect] at h ⊢
      exact .inl h
    · rw [if_neg hsect] at h ⊢
      split at h
      · cases h
      · rename_i fielded hfielded
        split at h
        · cases h
        · rename_i result hrdata
          obtain ⟨filled, spent⟩ := result
          cases h
          simp only
          by_cases hlong :
              filled.out.length - fielded.out.length - 2 > 0xffff
          · right
            rw [if_pos hlong]
            refine ⟨rfl, ?_⟩
            have hroom : fielded.out.length + (toBe16 (filled.out.length -
                fielded.out.length - 2)).length ≤ filled.out.length := by
              rw [toBe16_length]
              omega
            simp only [overwrite_length hroom]
            omega
          · left
            rw [if_neg hlong]

/-! ## Re-encoding the kept entries -/

def Trimmer.writeAll (payload : Bytes) :
    List Entry → Trimmer → Except Malformed Trimmer
  | [], trimmer => .ok trimmer
  | entry :: rest, trimmer => do
      let (trimmer, _) ←
        trimmer.writeWhole payload entry (budgetForMessage payload)
      trimmer.writeAll payload rest

section Trim

variable {payload : Bytes} {allowed : List ServiceType}

theorem passAnswers_noRefill (payload : Bytes) (candidates : List Entry)
    (entry : Entry) (state : TrimState) :
    ∃ answered refilled,
      state.passAnswers payload (fun _ => false) candidates entry =
        .ok { state with answered := answered, refilled := refilled } := by
  have hnone : ∀ (candidates : List Entry) (state : TrimState),
      state.refillFrom payload (fun _ => false) candidates = .ok state := by
    intro candidates state
    induction candidates with
    | nil => rfl
    | cons candidate candidates ih =>
        have hskip : refills (fun _ => false) candidate = false :=
          Bool.and_false _
        simp only [TrimState.refillFrom, hskip, Bool.false_eq_true, if_false]
        exact ih
  simp only [TrimState.passAnswers, hnone, ite_self]
  split
  · exact ⟨_, _, rfl⟩
  · exact ⟨state.answered, state.refilled, rfl⟩

theorem keepAllowed_progress {entry : Entry} {budget left : Nat}
    {service : Option Service} (hsect : entry.sect ≠ .question)
    (h : entryService entry payload budget = .ok (service, left)) :
    ∃ steps, budget = left + steps ∧
      ∀ extra, keepAllowed payload allowed entry (extra + steps) =
        .ok (keeps allowed payload entry, extra) := by
  obtain ⟨steps, hcost, hagain⟩ := entryService_walked h
  refine ⟨steps, hcost, ?_⟩
  intro extra
  rw [(entryService_spelled h).keeps hsect]
  simp only [keepAllowed, if_neg hsect, hagain, bind, Except.bind]

theorem visit_noRefill (payload : Bytes) (candidates : List Entry)
    (entry : Entry) (keep : Keep) (state : TrimState) :
    ∃ answered refilled,
      state.visit payload keep (fun _ => false) candidates entry =
        (keep entry state.budget).bind fun verdict =>
          if verdict.1 then
            (state.trimmer.writeEntry payload entry verdict.2).bind
              fun written => .ok { state with
                trimmer := written.1
                budget := written.2
                counts := state.counts.bump entry.sect
                answered := answered
                refilled := refilled }
          else .ok { state with
            budget := verdict.2
            removed := state.removed + 1
            answered := answered
            refilled := refilled } := by
  obtain ⟨answered, refilled, hpassed⟩ :=
    passAnswers_noRefill payload candidates entry state
  refine ⟨answered, refilled, ?_⟩
  have hskip : refills (fun _ => false) entry = false := Bool.and_false _
  simp only [TrimState.visit, hpassed, hskip, Bool.and_false,
    Bool.false_eq_true, if_false, bind]
  rfl

/-- What is left of a trim once the entries `kept` are written: done, or given
up for an rdata over 0xffff octets. -/
structure Finishes (payload : Bytes) (kept : List Entry) (before : Trimmer)
    (result : Except Malformed TrimState) : Prop where
  whole : ∃ whole, before.writeAll payload kept = .ok whole ∧
    before.out.length ≤ whole.out.length ∧
    ((∃ last, result = .ok last ∧ last.trimmer = whole) ∨
      result = .error ⟨⟩ ∧ 0xffff < whole.out.length)

theorem keep_after_check {entry : Entry} {rest : List Entry}
    {budget left steps limit : Nat} {before after : Tally}
    (hcost : budget = left + steps) (hlimit : budget ≤ limit)
    (h : (if judged .response entry = true then
        (entryService entry payload left).bind fun result =>
          assessEntries payload allowed .response rest result.2
            (before.note allowed (entry.sect == .answer) result.1)
      else assessEntries payload allowed .response rest left before) =
        .ok after) :
    ∃ spent left' tally, left' ≤ left ∧ left' + steps ≤ spent ∧
      spent ≤ limit ∧
      keepAllowed payload allowed entry limit =
        .ok (keeps allowed payload entry, spent) ∧
      assessEntries payload allowed .response rest left' tally =
        .ok after := by
  by_cases hsect : entry.sect = .question
  · have hjudged : ¬ judged .response entry = true := by
      simp [judged, hsect]
    rw [if_neg hjudged] at h
    refine ⟨limit, left, before, Nat.le_refl _, by omega, Nat.le_refl _, ?_,
      h⟩
    simp [keepAllowed, keeps, hsect]
  · have hjudged : judged .response entry = true := by
      simp [judged, hsect]
    simp only [if_pos hjudged, Except.bind] at h
    split at h
    · cases h
    · rename_i result hservice
      obtain ⟨service, left'⟩ := result
      obtain ⟨more, hmore, hkeep⟩ := keepAllowed_progress hsect hservice
      refine ⟨limit - more, left', _, by omega, by omega, by omega, ?_, h⟩
      have hagain := hkeep (limit - more)
      rwa [Nat.sub_add_cancel (by omega)] at hagain

/-- What an assessment got through, the trim gets through, but for the length
of an rdata. -/
theorem visitAll_progress {walked candidates : List Entry} {budget : Nat}
    {before after : Tally}
    (hwell : ∀ entry ∈ walked, entry.WellPlaced payload)
    (h : assessEntries payload allowed .response walked budget before =
      .ok after)
    (hlimit : budget ≤ budgetForMessage payload) (state : TrimState)
    (hbudget : budget ≤ state.budget) (hwithin : Within state.trimmer) :
    Finishes payload (walked.filter (keeps allowed payload)) state.trimmer
      (state.visitAll payload (keepAllowed payload allowed) (fun _ => false)
        candidates walked) := by
  induction walked generalizing budget before state with
  | nil => exact ⟨state.trimmer, rfl, Nat.le_refl _, .inl ⟨state, rfl, rfl⟩⟩
  | cons entry walked ih =>
      rw [assessEntries] at h
      simp only [bind, Except.bind] at h
      split at h
      · cases h
      · rename_i left hcheck
        have hentry := hwell entry List.mem_cons_self
        have hrest : ∀ entry ∈ walked, entry.WellPlaced payload :=
          fun other hmem => hwell other (List.mem_cons_of_mem _ hmem)
        obtain ⟨steps, hcost, hwrites⟩ := writeWhole_progress hentry hcheck
        obtain ⟨spent, left', tally, hless, hle, hspent, hkeep, hagain⟩ :=
          keep_after_check hcost hbudget h
        obtain ⟨answered, refilled, hvisit⟩ := visit_noRefill payload
          candidates entry (keepAllowed payload allowed) state
        simp only [hkeep, Except.bind] at hvisit
        rw [TrimState.visitAll, hvisit, List.filter_cons]
        cases hkept : keeps allowed payload entry with
        | false =>
            simp only [Bool.false_eq_true, if_false]
            exact ih hrest hagain (by omega) { state with
              budget := spent
              removed := state.removed + 1
              answered := answered
              refilled := refilled } (by simp only; omega) hwithin
        | true =>
            obtain ⟨next, ⟨cost, hcheap, hruns⟩, hgrows, hnext⟩ :=
              hwrites state.trimmer hwithin
            have hwhole := hruns (budgetForMessage payload - cost)
            rw [Nat.sub_add_cancel (by omega)] at hwhole
            have hspend := hruns (spent - cost)
            rw [Nat.sub_add_cancel (by omega)] at hspend
            obtain ⟨whole, hall, hlonger, hends⟩ := (ih hrest hagain
              (by omega) { state with
                trimmer := next
                budget := spent - cost
                counts := state.counts.bump entry.sect
                answered := answered
                refilled := refilled } (by simp only; omega) hnext).whole
            have hwritten : state.trimmer.writeAll payload
                (entry :: walked.filter (keeps allowed payload)) =
                  .ok whole := by
              simp only [Trimmer.writeAll, hwhole, bind, Except.bind]
              exact hall
            simp only at hlonger
            refine ⟨whole, hwritten, by omega, ?_⟩
            simp only [if_true]
            rcases writeEntry_whole hspend with hok | ⟨herror, hlong⟩
            · rw [hok]
              exact hends
            · rw [herror]
              exact .inr ⟨rfl, by omega⟩

theorem kept_fits {walked : List Entry} (keep : Entry → Bool)
    (h : walked.map Entry.sect = announced payload) :
    (countSections ((walked.filter keep).map Entry.sect)).Fits := by
  have hheader := headerCounts_fits payload
  rw [← countSections_announced, ← h] at hheader
  exact ⟨Nat.lt_of_le_of_lt (count_filter_le keep .question) hheader.question,
    Nat.lt_of_le_of_lt (count_filter_le keep .answer) hheader.answer,
    Nat.lt_of_le_of_lt (count_filter_le keep .authority) hheader.authority,
    Nat.lt_of_le_of_lt (count_filter_le keep .additional)
      hheader.additional⟩

end Trim

/-- A message that is assessed to be trimmed is trimmed, unless what it keeps
outgrows it. -/
theorem trim_fails_only_longer (payload : Bytes)
    (allowed : List ServiceType) (refused : List ServiceType)
    (hlength : payload.length ≤ 65535)
    (h : assess payload allowed = .ok (.trim, refused)) :
    ∃ header walked whole,
      slice? payload 0 dnsHeaderLen = some header ∧
      entries payload = .ok walked ∧
      Trimmer.writeAll payload (walked.filter (keeps allowed payload))
        ⟨header, List.replicate payload.length unplaced⟩ = .ok whole ∧
      (trim payload (keepAllowed payload allowed) (fun _ => false) =
        .error ⟨⟩ ↔ payload.length < whole.out.length) ∧
      (countSections
        ((walked.filter (keeps allowed payload)).map Entry.sect)).Fits := by
  obtain ⟨kind, walked, hassessed⟩ := assess_assessed h
  obtain ⟨_, rfl, _⟩ := hassessed.trim_iff.mp rfl
  have hlong : dnsHeaderLen ≤ payload.length := by
    by_contra hshort
    have hnone : classify payload = none := by
      rw [classify, if_pos (by omega)]
    rw [hassessed.classified] at hnone
    cases hnone
  have hwalk := hassessed.walk
  rw [entries, if_neg (by omega)] at hwalk
  obtain ⟨header, hheader⟩ := slice?_isSome payload (Nat.zero_le _) hlong
  obtain ⟨tally, htally⟩ : ∃ tally, assessEntries payload allowed .response
      walked (budgetForMessage payload) .start = .ok tally := by
    simp only [assess, hassessed.classified, hassessed.walk, bind,
      Except.bind] at h
    split at h
    · cases h
    · exact ⟨_, ‹_›⟩
  have hwithin : Within ⟨header, List.replicate payload.length unplaced⟩ := by
    intro source position hget hne
    rw [List.getElem?_replicate] at hget
    split at hget
    · cases hget
      exact absurd rfl hne
    · cases hget
  obtain ⟨whole, hall, hlonger, hends⟩ := (visitAll_progress
    (fun entry hmem => (walkEntries_wellPlaced hwalk entry hmem).1) htally
    (Nat.le_refl _)
    { trimmer := ⟨header, List.replicate payload.length unplaced⟩
      budget := budgetForMessage payload
      counts := ⟨0, 0, 0, 0⟩
      removed := 0
      answered := false
      refilled := false } (Nat.le_refl _) hwithin).whole
  refine ⟨header, walked, whole, hheader, hassessed.walk, hall, ?_,
    kept_fits _ (walkEntries_sects hwalk)⟩
  simp only [trim, hheader, hassessed.walk, bind, Except.bind]
  rcases hends with ⟨last, hlast, rfl⟩ | ⟨herror, hover⟩
  · rw [hlast]
    simp only
    split
    · rename_i houtgrows
      exact ⟨fun _ => houtgrows, fun _ => rfl⟩
    · rename_i hfits
      constructor
      · intro hsame
        cases hsame
      · exact fun houtgrows => absurd houtgrows hfits
  · rw [herror]
    exact ⟨fun _ => by omega, fun _ => rfl⟩

theorem trim_fails_only_longer_mixed :
    ∃ header walked whole,
      slice? mixedResponse 0 dnsHeaderLen = some header ∧
      entries mixedResponse = .ok walked ∧
      Trimmer.writeAll mixedResponse
        (walked.filter (keeps firstServiceOnly.allowed mixedResponse))
        ⟨header, List.replicate mixedResponse.length unplaced⟩ = .ok whole ∧
      (trim mixedResponse (keepAllowed mixedResponse firstServiceOnly.allowed)
        (fun _ => false) = .error ⟨⟩ ↔
          mixedResponse.length < whole.out.length) ∧
      (countSections ((walked.filter (keeps firstServiceOnly.allowed
        mixedResponse)).map Entry.sect)).Fits :=
  trim_fails_only_longer mixedResponse firstServiceOnly.allowed
    [secondService] (by decide) (by decide +kernel)

end Netflector.Net.Mdns
