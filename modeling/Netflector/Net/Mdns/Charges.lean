import Mathlib.Data.Finset.Card
import Netflector.Net.Mdns.Progress
import Netflector.Net.Mdns.Tokens

/-!
# A trim does not outgrow its message

Every label is written at most once, and paid for by its own octets.  What
remains is the end of each name.  A name that ends in a pointer has two octets
of its own to pay for either end.  A name that ends in a terminator has one,
and takes a pointer only if another name has spelled one of its labels before:
the first such name came here through a pointer of its own, wrote a terminator
for it, and so has an octet to spare.
-/

namespace Netflector.Net.Mdns

open Netflector.Foundation

/-! ## Writing a name -/

structure WalkClosed (payload : Bytes) (token : Nat → Prop)
    (labels : List Nat) : Prop where
  label : ∀ place len, token place → payload[place]? = some len →
    labelTag len = .plain →
    token (place + 1 + len.toNat) ∧ place ∈ labels
  target : ∀ place len low, token place → payload[place]? = some len →
    labelTag len = .pointer → payload[place + 1]? = some low →
    token (pointerTarget len low)

structure Spelled (payload : Bytes) (labels spelled : List Nat)
    (trimmer : Trimmer) : Prop where
  nodup : spelled.Nodup
  sub : spelled ⊆ labels
  placed : ∀ place, trimmer.placed[place]?.getD unplaced ≠ unplaced ↔
    place ∈ spelled
  size : trimmer.placed.length = payload.length

section WriteName

variable {payload : Bytes} {token : Nat → Prop} {labels : List Nat}

theorem Spelled.push {spelled : List Nat} {trimmer : Trimmer}
    (h : Spelled payload labels spelled trimmer) (bytes : Bytes) :
    Spelled payload labels spelled (trimmer.push bytes) :=
  ⟨h.nodup, h.sub, h.placed, h.size⟩

theorem Spelled.label {spelled : List Nat} {trimmer : Trimmer}
    {offset : Nat} (label : Bytes)
    (h : Spelled payload labels spelled trimmer)
    (hfresh : ¬ trimmer.placed[offset]?.getD unplaced ≠ unplaced)
    (hlabel : offset ∈ labels) (hbound : offset < payload.length)
    (hlow : trimmer.out.length ≤ maxPointerTarget) :
    Spelled payload labels (offset :: spelled)
      (trimmer.label offset label) := by
  have hsize := h.size
  refine ⟨List.nodup_cons.mpr ⟨?_, h.nodup⟩,
    List.cons_subset.mpr ⟨hlabel, h.sub⟩, ?_, ?_⟩
  · rwa [← h.placed]
  · intro place
    simp only [Trimmer.label, if_pos hlow, List.mem_cons]
    by_cases hsame : place = offset
    · subst hsame
      rw [List.getElem?_set_self (by omega), Option.getD_some]
      simp only [true_or, iff_true, unplaced]
      simp only [maxPointerTarget] at hlow
      omega
    · rw [List.getElem?_set_ne (Ne.symm hsame), h.placed, or_iff_right hsame]
  · simp only [Trimmer.label, if_pos hlow, List.length_set]
    exact hsize

inductive EndsAt (payload : Bytes) (old : List Nat) : Nat → Nat → Prop
  | root {last : Nat} : Rooted payload last (last + 1) →
      EndsAt payload old last 1
  | pointer {last : Nat} : last ∈ old → EndsAt payload old last 2

structure NameSpelled (payload : Bytes) (labels old now : List Nat)
    (offset : Nat) (before after : Trimmer) : Prop where
  spells : ∃ fresh last tail, Spelled payload labels (fresh ++ now) after ∧
    after.out.length =
      before.out.length + weigh (labelSize payload) fresh + tail ∧
    EndsAt payload old last tail ∧
    (∀ place ∈ fresh, ∀ stop, Rooted payload place stop →
      Rooted payload last stop) ∧
    ∀ stop, Rooted payload offset stop → Rooted payload last stop

theorem writeNameFrom_charges (hclosed : WalkClosed payload token labels)
    {room start : Nat}
    (hroom : room + weigh (labelSize payload) labels ≤ maxPointerTarget + 1)
    {old : List Nat} {budget left offset hops : Nat}
    {before after : Trimmer}
    (h : Trimmer.writeNameFrom payload start budget offset hops before =
      .ok (after, left))
    {now : List Nat} (htoken : token offset)
    (hnow : Spelled payload labels now before)
    (hold : ∀ place position, before.placed[place]? = some position →
      position ≠ unplaced → position < start → place ∈ old)
    (hstart : start ≤ before.out.length)
    (hspent : before.out.length ≤ room + weigh (labelSize payload) now) :
    NameSpelled payload labels old now offset before after := by
  induction budget generalizing offset hops before now with
  | zero => cases h
  | succ budget ih =>
      simp only [Trimmer.writeNameFrom] at h
      split at h
      · rename_i hne
        split at h
        · cases h
        rename_i hlt
        cases h
        refine ⟨[], offset, 2, hnow.push _, List.length_append, .pointer ?_,
          fun _ hmem => absurd hmem List.not_mem_nil, fun _ hrooted => hrooted⟩
        cases hget : before.placed[offset]? with
        | none => simp [hget] at hne
        | some position =>
            simp only [hget, Option.getD_some] at hne hlt
            exact hold offset position hget hne (by omega)
      · rename_i hfresh
        split at h
        · cases h
        rename_i len hlen
        split at h
        · rename_i htag
          cases h
          exact ⟨[], offset, 1, hnow.push _, List.length_append,
            .root (.root hlen htag),
            fun _ hmem => absurd hmem List.not_mem_nil,
            fun _ hrooted => hrooted⟩
        · rename_i htag
          split at h
          · cases h
          rename_i label hlabel
          have hsize := slice?_length hlabel
          have hbound := (List.getElem?_eq_some_iff.mp hlen).1
          obtain ⟨htoken', hmem⟩ := hclosed.label offset len htoken hlen htag
          have hweight : labelSize payload offset = label.length := by
            simp only [labelSize, hlen, Option.getD_some]
            omega
          have hnotin : offset ∉ now := by
            rwa [← hnow.placed]
          have hlow : before.out.length ≤ maxPointerTarget := by
            have hsub := weigh_subset (labelSize payload)
              (List.nodup_cons.mpr ⟨hnotin, hnow.nodup⟩)
              (List.cons_subset.mpr ⟨hmem, hnow.sub⟩)
            rw [weigh_cons] at hsub
            omega
          have hnext := hnow.label label hfresh hmem hbound hlow
          rw [show offset + label.length = offset + 1 + len.toNat by omega]
            at h
          obtain ⟨fresh, last, tail, hspelled, hlength, hends, hrooted,
            hoffset⟩ := (ih h htoken' hnext (by
              intro place position hget hne hlt
              rcases Trimmer.label_placed hget with hget | ⟨_, rfl, _⟩
              · exact hold place position hget hne hlt
              · omega) (by
              simp only [List.length_append]
              omega) (by
              simp only [List.length_append, weigh_cons]
              omega)).spells
          refine ⟨fresh ++ [offset], last, tail, ?_, ?_, hends, ?_, ?_⟩
          · rwa [List.append_assoc]
          · simp only [List.length_append] at hlength
            rw [hlength, weigh_append, weigh_cons, weigh_nil]
            omega
          · intro place hplace stop hstop
            rcases List.mem_append.mp hplace with hplace | hplace
            · exact hrooted place hplace stop hstop
            · cases List.mem_singleton.mp hplace
              exact hoffset stop (hstop.next hlen htag)
          · intro stop hstop
            exact hoffset stop (hstop.next hlen htag)
        · rename_i htag
          split at h
          · cases h
          rename_i low hlow
          split at h
          · cases h
          obtain ⟨fresh, last, tail, hspelled, hlength, hends, hrooted, _⟩ :=
            (ih h (hclosed.target offset len low htoken hlen htag hlow) hnow
              hold hstart hspent).spells
          exact ⟨fresh, last, tail, hspelled, hlength, hends, hrooted,
            fun _ hrooted => absurd hrooted (not_rooted_pointer hlen htag)⟩
        · cases h

end WriteName

/-! ## The account -/

/-- What is written has been paid for, and so have the octets owed to the
names in `owed`: `paid` octets beside the labels spelled out.  A terminated
name with a label spelled out is owed an octet, unless it is `closed`. -/
def Ledger (payload : Bytes) (labels : List Nat) (closed : Finset Nat)
    (paid : Nat) (trimmer : Trimmer) : Prop :=
  ∃ (spelled : List Nat) (owed : Finset Nat),
    Spelled payload labels spelled trimmer ∧
    trimmer.out.length + owed.card ≤
      paid + weigh (labelSize payload) spelled ∧
    ∀ place ∈ spelled, ∀ stop, Rooted payload place stop →
      stop ∈ owed ∨ stop ∈ closed

def nameOwn (payload : Bytes) (offset : Nat) : Nat :=
  (skipName payload offset).elim 0 fun stop =>
    stop - offset - weigh (labelSize payload) (labelsOf payload offset)

theorem Inline.nameOwn {payload : Bytes} {offset stop : Nat}
    (h : Inline payload offset stop) :
    offset + weigh (labelSize payload) (labelsOf payload offset) +
        Mdns.nameOwn payload offset = stop ∧
      (Mdns.nameOwn payload offset = 1 ∧ Rooted payload offset stop ∨
        Mdns.nameOwn payload offset = 2 ∧ ¬ Rooted payload offset stop) := by
  obtain ⟨own, hsum, hown⟩ := h.weigh_labelsFrom
    (show _ < payload.length + 1 by omega)
  have hsame : Mdns.nameOwn payload offset = own := by
    simp only [Mdns.nameOwn, skipName_eq_some_iff.mpr h, Option.elim_some,
      labelsOf]
    omega
  rw [hsame]
  exact ⟨hsum, hown⟩

section Account

variable {payload : Bytes} {token : Nat → Prop} {labels : List Nat}
  {closed : Finset Nat} {paid : Nat}

theorem Ledger.push {trimmer : Trimmer}
    (h : Ledger payload labels closed paid trimmer) (bytes : Bytes) :
    Ledger payload labels closed (paid + bytes.length)
      (trimmer.push bytes) := by
  obtain ⟨spelled, owed, hspelled, hspent, howes⟩ := h
  refine ⟨spelled, owed, hspelled.push bytes, ?_, howes⟩
  simp only [Trimmer.push, List.length_append]
  omega

theorem Ledger.writeName (hclosed : WalkClosed payload token labels)
    {offset stop budget left : Nat} {before after : Trimmer}
    (h : Ledger payload labels closed paid before)
    (hroom : paid + weigh (labelSize payload) labels ≤ maxPointerTarget + 1)
    (hwrite : before.writeName payload offset budget = .ok (after, left))
    (htoken : token offset) (hinline : Inline payload offset stop)
    (hopen : stop ∉ closed) :
    Ledger payload labels (insert stop closed)
      (paid + nameOwn payload offset) after := by
  obtain ⟨spelled, owed, hspelled, hspent, howes⟩ := h
  obtain ⟨_, hown⟩ := hinline.nameOwn
  obtain ⟨fresh, last, tail, hspelled', hlength, hends, hfresh, hoffset⟩ :=
    (writeNameFrom_charges hclosed hroom hwrite htoken hspelled (by
      intro place position hget hne _
      rw [← hspelled.placed, hget]
      exact hne) (Nat.le_refl _) (by omega)).spells
  have hweight := weigh_append (labelSize payload) fresh spelled
  rcases hown with ⟨hone, hrooted⟩ | ⟨htwo, _⟩
  · -- The name ends in a terminator, so it never leaves its own octets.
    have hlast := hoffset stop hrooted
    refine ⟨fresh ++ spelled, owed.erase stop, hspelled', ?_, ?_⟩
    · cases hends with
      | root hend =>
          have hle := Finset.card_erase_le (a := stop) (s := owed)
          omega
      | pointer hold =>
          have hmem : stop ∈ owed :=
            (howes last hold stop hlast).resolve_right hopen
          have hcard := Finset.card_erase_add_one hmem
          omega
    · intro place hplace other hother
      by_cases hsame : other = stop
      · exact .inr (hsame ▸ Finset.mem_insert_self stop closed)
      · rcases List.mem_append.mp hplace with hplace | hplace
        · exact absurd ((hfresh place hplace other hother).inline.unique
            hlast.inline) hsame
        · rcases howes place hplace other hother with howed | hpaid
          · exact .inl (Finset.mem_erase.mpr ⟨hsame, howed⟩)
          · exact .inr (Finset.mem_insert_of_mem hpaid)
  · cases hends with
    | root hend =>
        refine ⟨fresh ++ spelled, insert (last + 1) owed, hspelled', ?_, ?_⟩
        · have hle := Finset.card_insert_le (last + 1) owed
          omega
        · intro place hplace other hother
          rcases List.mem_append.mp hplace with hplace | hplace
          · have hsame := (hfresh place hplace other hother).inline.unique
              hend.inline
            exact .inl (hsame ▸ Finset.mem_insert_self _ _)
          · rcases howes place hplace other hother with howed | hpaid
            · exact .inl (Finset.mem_insert_of_mem howed)
            · exact .inr (Finset.mem_insert_of_mem hpaid)
    | pointer hold =>
        refine ⟨fresh ++ spelled, owed, hspelled', by omega, ?_⟩
        intro place hplace other hother
        have howes' : other ∈ owed ∨ other ∈ closed := by
          rcases List.mem_append.mp hplace with hplace | hplace
          · exact howes last hold other (hfresh place hplace other hother)
          · exact howes place hplace other hother
        exact howes'.imp_right fun hpaid => Finset.mem_insert_of_mem hpaid

theorem writeNames_extent {count offset next budget left : Nat}
    {before after : Trimmer}
    (h : before.writeNames payload count offset budget =
      .ok (after, next, left)) :
    offset + weigh (labelSize payload)
        ((namesFrom payload count offset).flatMap (labelsOf payload)) +
      weigh (nameOwn payload) (namesFrom payload count offset) = next := by
  induction count generalizing offset budget before with
  | zero =>
      cases h
      rfl
  | succ count ih =>
      simp only [Trimmer.writeNames, bind, Except.bind] at h
      split at h
      · cases h
      split at h
      · cases h
      rename_i middle hskip
      have hname := (skipName_eq_some_iff.mp hskip).nameOwn.1
      have hrest := ih h
      simp only [namesFrom, hskip, Option.elim_some, List.flatMap_cons,
        weigh_append, weigh_cons]
      omega

def Open (closed : Finset Nat) (offset limit : Nat) : Prop :=
  ∀ stop ∈ closed, stop ≤ offset ∨ limit < stop

theorem Ledger.writeNames (hclosed : WalkClosed payload token labels)
    {count offset next limit budget left : Nat} {before after : Trimmer}
    (h : Ledger payload labels closed paid before)
    (hroom : paid + weigh (nameOwn payload) (namesFrom payload count offset) +
      weigh (labelSize payload) labels ≤ maxPointerTarget + 1)
    (hwrite : before.writeNames payload count offset budget =
      .ok (after, next, left))
    (htokens : ∀ place ∈ namesFrom payload count offset, token place)
    (hlimit : next ≤ limit) (hopen : Open closed offset limit) :
    ∃ closed', Ledger payload labels closed'
        (paid + weigh (nameOwn payload) (namesFrom payload count offset))
        after ∧
      ∀ stop ∈ closed', stop ∈ closed ∨ offset < stop ∧ stop ≤ next := by
  induction count generalizing offset budget before closed paid with
  | zero =>
      cases hwrite
      exact ⟨closed, h, fun _ hstop => .inl hstop⟩
  | succ count ih =>
      simp only [Trimmer.writeNames, bind, Except.bind] at hwrite
      split at hwrite
      · cases hwrite
      rename_i result hname
      obtain ⟨named, spent⟩ := result
      split at hwrite
      · cases hwrite
      rename_i middle hskip
      have hinline := skipName_eq_some_iff.mp hskip
      have hbounds := hinline.bounds
      have hextent := writeNames_extent hwrite
      simp only [namesFrom, hskip, Option.elim_some, weigh_cons,
        List.forall_mem_cons] at hroom htokens ⊢
      have hfirst := h.writeName hclosed (by omega) hname htokens.1 hinline
        (fun hmem => by
          have := hopen middle hmem
          omega)
      obtain ⟨closed', hledger, hclosed'⟩ := ih hfirst (by omega) hwrite
        htokens.2 (by
          intro stop hstop
          rcases Finset.mem_insert.mp hstop with rfl | hstop
          · exact .inl (Nat.le_refl _)
          · have := hopen stop hstop
            omega)
      refine ⟨closed', ?_, ?_⟩
      · rwa [Nat.add_assoc] at hledger
      · intro stop hstop
        rcases hclosed' stop hstop with hstop | hstop
        · rcases Finset.mem_insert.mp hstop with rfl | hstop
          · exact .inr ⟨by omega, by omega⟩
          · exact .inl hstop
        · exact .inr ⟨by omega, by omega⟩

end Account

/-! ## Writing an entry -/

def Entry.rdataOffsets (entry : Entry) (payload : Bytes) : List Nat :=
  entry.rdataNames.elim [] fun names =>
    namesFrom payload names.count (entry.rdata + names.offset)

def Entry.labels (entry : Entry) (payload : Bytes) : List Nat :=
  (entry.nameOffsets payload).flatMap (labelsOf payload)

def Entry.own (entry : Entry) (payload : Bytes) : Nat :=
  entry.stop - entry.name -
    weigh (labelSize payload) (entry.labels payload)

section Entries

variable {payload : Bytes} {token : Nat → Prop} {labels : List Nat}
  {closed : Finset Nat} {paid : Nat}

theorem Ledger.congr {trimmer trimmer' : Trimmer}
    (h : Ledger payload labels closed paid trimmer)
    (hplaced : trimmer'.placed = trimmer.placed)
    (hlength : trimmer'.out.length = trimmer.out.length) :
    Ledger payload labels closed paid trimmer' := by
  obtain ⟨spelled, owed, hspelled, hspent, howes⟩ := h
  refine ⟨spelled, owed, ⟨hspelled.nodup, hspelled.sub, ?_, ?_⟩, ?_, howes⟩
  · rw [hplaced]
    exact hspelled.placed
  · rw [hplaced]
    exact hspelled.size
  · rw [hlength]
    exact hspent

theorem Ledger.writeRdata (hclosed : WalkClosed payload token labels)
    {entry : Entry} {own budget left : Nat} {before after : Trimmer}
    (h : Ledger payload labels closed paid before)
    (hwrite : before.writeRdata payload entry budget = .ok (after, left))
    (htokens : ∀ place ∈ entry.rdataOffsets payload, token place)
    (hown : entry.rdata + weigh (labelSize payload)
      ((entry.rdataOffsets payload).flatMap (labelsOf payload)) + own =
        entry.stop)
    (hroom : paid + own + weigh (labelSize payload) labels ≤
      maxPointerTarget + 1)
    (hopen : Open closed entry.rdata entry.stop) :
    ∃ closed', Ledger payload labels closed' (paid + own) after ∧
      ∀ stop ∈ closed', stop ∈ closed ∨
        entry.rdata < stop ∧ stop ≤ entry.stop := by
  unfold Trimmer.writeRdata at hwrite
  split at hwrite
  · rename_i names hsome
    simp only [bind, Except.bind] at hwrite
    split at hwrite
    · cases hwrite
    rename_i led hlead
    obtain ⟨lead, hslice, rfl⟩ := pushSpan_eq_ok_iff.mp hlead
    split at hwrite
    · cases hwrite
    rename_i result hnames
    obtain ⟨named, next, spent⟩ := result
    simp only at hwrite
    split at hwrite
    · cases hwrite
    rename_i last htail
    obtain ⟨tail, hslice', rfl⟩ := pushSpan_eq_ok_iff.mp htail
    cases hwrite
    have hled := slice?_length hslice
    have htailed := slice?_length hslice'
    have hnext := (slice?_eq_some_iff.mp hslice').1
    have hextent := writeNames_extent hnames
    simp only [Entry.rdataOffsets, hsome, Option.elim_some] at htokens hown
    obtain ⟨closed', hledger, hsub⟩ := (h.push lead).writeNames hclosed
      (by omega) hnames htokens hnext (by
        intro stop hstop
        have := hopen stop hstop
        omega)
    refine ⟨closed', ?_, ?_⟩
    · have hpushed := hledger.push tail
      rwa [show paid + lead.length + weigh (nameOwn payload) (namesFrom
        payload names.count (entry.rdata + names.offset)) + tail.length =
          paid + own by omega] at hpushed
    · intro stop hstop
      exact (hsub stop hstop).imp_right fun hbetween =>
        ⟨by omega, by omega⟩
  · rename_i hnone
    simp only [bind, Except.bind] at hwrite
    split at hwrite
    · cases hwrite
    rename_i last hspan
    obtain ⟨span, hslice, rfl⟩ := pushSpan_eq_ok_iff.mp hspan
    cases hwrite
    have hlength := slice?_length hslice
    simp only [Entry.rdataOffsets, hnone, Option.elim_none, List.flatMap_nil,
      weigh_nil] at hown
    refine ⟨closed, ?_, fun _ hstop => .inl hstop⟩
    have hpushed := h.push span
    rwa [show span.length = own by omega] at hpushed

def Entry.Fits (payload : Bytes) (entry : Entry) : Prop :=
  entry.rdata + weigh (labelSize payload)
    ((entry.rdataOffsets payload).flatMap (labelsOf payload)) ≤ entry.stop

theorem Entry.labels_eq (entry : Entry) (payload : Bytes) :
    entry.labels payload = labelsOf payload entry.name ++
      (entry.rdataOffsets payload).flatMap (labelsOf payload) := rfl

theorem Entry.own_eq {entry : Entry} (hplaced : entry.WellPlaced payload)
    (hfits : entry.Fits payload) :
    entry.name + weigh (labelSize payload) (entry.labels payload) +
        entry.own payload = entry.stop ∧
      entry.fixed + entry.own payload + weigh (labelSize payload)
        ((entry.rdataOffsets payload).flatMap (labelsOf payload)) =
          nameOwn payload entry.name + entry.stop ∧
      nameOwn payload entry.name + (entry.rdata - entry.fixed) ≤
        entry.own payload := by
  have hname := hplaced.inline.nameOwn.1
  have hle : entry.fixed ≤ entry.rdata := by
    by_cases hsect : entry.sect = .question
    · have := hplaced.question hsect
      omega
    · have := (hplaced.record hsect).1
      omega
  unfold Entry.Fits at hfits
  unfold Entry.own
  rw [Entry.labels_eq, weigh_append]
  omega

theorem Ledger.writeEntry (hclosed : WalkClosed payload token labels)
    {entry : Entry} {budget left : Nat} {before after : Trimmer}
    (h : Ledger payload labels closed paid before)
    (hwrite : before.writeEntry payload entry budget = .ok (after, left))
    (hplaced : entry.WellPlaced payload)
    (htokens : ∀ place ∈ entry.nameOffsets payload, token place)
    (hfits : entry.Fits payload)
    (hroom : paid + entry.own payload + weigh (labelSize payload) labels ≤
      maxPointerTarget + 1)
    (hopen : Open closed entry.name entry.stop) :
    ∃ closed', Ledger payload labels closed' (paid + entry.own payload)
        after ∧
      ∀ stop ∈ closed', stop ∈ closed ∨
        entry.name < stop ∧ stop ≤ entry.stop := by
  have hinline := hplaced.inline
  have hbounds := hinline.bounds
  have hle := hplaced.rdata_le
  obtain ⟨_, hown, hleast⟩ := Entry.own_eq hplaced hfits
  obtain ⟨htoken, htokens⟩ := List.forall_mem_cons.mp htokens
  simp only [Trimmer.writeEntry, bind, Except.bind] at hwrite
  split at hwrite
  · cases hwrite
  rename_i result hnamed
  obtain ⟨named, spent⟩ := result
  split at hwrite
  · rename_i hquestion
    split at hwrite
    · cases hwrite
    rename_i last hlast
    obtain ⟨span, hspan, rfl⟩ := pushSpan_eq_ok_iff.mp hlast
    cases hwrite
    obtain ⟨hrdata, hstop⟩ := hplaced.question hquestion
    have hlength := slice?_length hspan
    have hfirst := h.writeName hclosed (by omega) hnamed htoken hinline
      (fun hmem => by
        have := hopen entry.fixed hmem
        omega)
    have hnone : entry.rdataOffsets payload = [] := by
      rw [Entry.rdataOffsets, Entry.rdataNames_of_empty (by omega)]
      rfl
    rw [hnone, List.flatMap_nil, weigh_nil] at hown
    refine ⟨insert entry.fixed closed, ?_, ?_⟩
    · have hpushed := hfirst.push span
      rwa [show paid + nameOwn payload entry.name + span.length =
        paid + entry.own payload by omega] at hpushed
    · intro stop hstop
      rcases Finset.mem_insert.mp hstop with rfl | hstop
      · exact .inr ⟨by omega, by omega⟩
      · exact .inl hstop
  · rename_i hrecord
    split at hwrite
    · cases hwrite
    rename_i fielded hfielded
    obtain ⟨span, hspan, rfl⟩ := pushSpan_eq_ok_iff.mp hfielded
    split at hwrite
    · cases hwrite
    rename_i result hfilled
    obtain ⟨filled, spent'⟩ := result
    simp only at hwrite
    split at hwrite
    · cases hwrite
    cases hwrite
    obtain ⟨hrdata, _⟩ := hplaced.record hrecord
    have hlength := slice?_length hspan
    have hfirst := h.writeName hclosed (by omega) hnamed htoken hinline
      (fun hmem => by
        have := hopen entry.fixed hmem
        omega)
    have hpushed := (hfirst.push span).push [0, 0]
    have hrest : entry.rdata + weigh (labelSize payload)
        ((entry.rdataOffsets payload).flatMap (labelsOf payload)) +
        (entry.own payload - nameOwn payload entry.name - 10) =
          entry.stop := by omega
    obtain ⟨closed', hledger, hsub⟩ := hpushed.writeRdata hclosed hfilled
      htokens hrest (by
        simp only [List.length_cons, List.length_nil]
        omega) (by
        intro stop hstop
        rcases Finset.mem_insert.mp hstop with rfl | hstop
        · exact .inl (by omega)
        · have := hopen stop hstop
          omega)
    obtain ⟨octets, hout⟩ := writeRdata_grows hfilled
    refine ⟨closed', ?_, ?_⟩
    · have hsum : paid + nameOwn payload entry.name + span.length +
          [(0 : UInt8), 0].length +
          (entry.own payload - nameOwn payload entry.name - 10) =
            paid + entry.own payload := by
        simp only [List.length_cons, List.length_nil]
        omega
      rw [hsum] at hledger
      refine hledger.congr rfl (overwrite_length ?_)
      simp only [hout, Trimmer.push, List.length_append, toBe16_length,
        List.length_cons, List.length_nil]
      omega
    · intro stop hstop
      rcases hsub stop hstop with hstop | hstop
      · rcases Finset.mem_insert.mp hstop with rfl | hstop
        · exact .inr ⟨by omega, by omega⟩
        · exact .inl hstop
      · exact .inr ⟨by omega, by omega⟩

end Entries

/-! ## The whole message -/

section Message

variable {payload : Bytes} {walked : List Entry}

theorem Spells.inline {offset hops : Nat} {labels : List Bytes}
    (h : Spells payload offset hops labels) :
    ∃ stop, Inline payload offset stop := by
  induction h with
  | root hlen htag => exact ⟨_, .root hlen htag⟩
  | plain hlen htag _ _ ih =>
      obtain ⟨stop, hstop⟩ := ih
      rw [Nat.add_assoc] at hstop
      exact ⟨stop, .plain hlen htag hstop⟩
  | pointer hlen htag hlow _ _ => exact ⟨_, .pointer hlen htag hlow⟩

theorem namesFrom_fits {count offset limit : Nat}
    (hinline : ∀ place ∈ namesFrom payload count offset,
      ∃ stop, Inline payload place stop)
    (hlimit : ∀ place ∈ namesFrom payload count offset, ∀ stop,
      Inline payload place stop → stop ≤ limit)
    (hnone : count = 0 → offset ≤ limit) :
    offset + weigh (labelSize payload)
      ((namesFrom payload count offset).flatMap (labelsOf payload)) ≤
        limit := by
  induction count generalizing offset with
  | zero => exact hnone rfl
  | succ count ih =>
      obtain ⟨stop, hstop⟩ := hinline offset List.mem_cons_self
      have hskip := skipName_eq_some_iff.mpr hstop
      simp only [namesFrom, hskip, Option.elim_some, List.flatMap_cons,
        weigh_append, List.forall_mem_cons] at hinline hlimit ⊢
      have hrest := ih hinline.2 hlimit.2
        (fun _ => hlimit.1 stop hstop)
      have hname := hstop.nameOwn.1
      omega

theorem Entry.Proper.fits {entry : Entry}
    (hproper : entry.Proper payload walked)
    (henclosed : entry.Enclosed payload)
    (hplaced : entry.WellPlaced payload) : entry.Fits payload := by
  have hinline : ∀ offset ∈ entry.nameOffsets payload,
      ∃ stop, Inline payload offset stop := by
    intro offset hoffset
    obtain ⟨labels, hops, hspells, _⟩ := hproper.walkable offset hoffset
    exact hspells.inline
  obtain ⟨_, hrdata⟩ := List.forall_mem_cons.mp hinline
  obtain ⟨_, hstops⟩ := List.forall_mem_cons.mp henclosed
  unfold Entry.Fits Entry.rdataOffsets
  cases hnames : entry.rdataNames with
  | none => exact hplaced.rdata_le
  | some names =>
      simp only [hnames, Option.elim_some] at hrdata hstops ⊢
      have hcount := rdataNames_count_pos
        (Entry.rdataNames_eq_some_iff.mp hnames).1
      have hfits := namesFrom_fits hrdata hstops (fun hzero => by omega)
      omega

theorem token_walkClosed
    (hproper : ∀ entry ∈ walked, entry.Proper payload walked) :
    WalkClosed payload (Token payload walked)
      (walked.flatMap fun entry => entry.labels payload) := by
  constructor
  · intro place len htoken hlen htag
    refine ⟨htoken.label hlen htag, ?_⟩
    obtain ⟨entry, hentry, offset, hoffset, hin⟩ := htoken
    refine List.mem_flatMap.mpr ⟨entry, hentry, ?_⟩
    exact List.mem_flatMap.mpr ⟨offset, hoffset,
      hin.mem_labelsFrom hlen htag (by omega)⟩
  · intro place len low htoken hlen htag hlow
    exact htoken.target hproper hlen htag hlow

theorem walkEntries_total {sects : List Section} {offset : Nat}
    (h : walkEntries payload sects offset = .ok walked)
    (hfits : ∀ entry ∈ walked, entry.Fits payload)
    (hoffset : offset ≤ payload.length) :
    offset + weigh (fun entry => entry.own payload) walked +
      weigh (labelSize payload)
        (walked.flatMap fun entry => entry.labels payload) ≤
        payload.length := by
  induction sects generalizing offset walked with
  | nil =>
      cases h
      exact hoffset
  | cons sect sects ih =>
      obtain ⟨entry, rest, hentry, hrest, rfl⟩ :=
        walkEntries_cons_eq_ok_iff.mp h
      obtain ⟨hplaced, rfl, _⟩ := entryAt_eq_ok_iff.mp hentry
      obtain ⟨hfirst, hothers⟩ := List.forall_mem_cons.mp hfits
      have hown := (Entry.own_eq hplaced hfirst).1
      have htotal := ih hrest hothers hplaced.stop_le
      simp only [weigh_cons, List.flatMap_cons, weigh_append]
      omega

theorem walkEntries_apart {sects : List Section} {offset : Nat}
    (h : walkEntries payload sects offset = .ok walked) :
    walked.Pairwise fun first second => first.stop ≤ second.name := by
  induction sects generalizing offset walked with
  | nil =>
      cases h
      exact .nil
  | cons sect sects ih =>
      obtain ⟨entry, rest, hentry, hrest, rfl⟩ :=
        walkEntries_cons_eq_ok_iff.mp h
      exact .cons (fun other hother =>
        (walkEntries_wellPlaced hrest other hother).2) (ih hrest)

theorem apart_of_ne {entry other : Entry}
    (h : walked.Pairwise fun first second => first.stop ≤ second.name)
    (hentry : entry ∈ walked) (hother : other ∈ walked)
    (hne : entry ≠ other) :
    entry.stop ≤ other.name ∨ other.stop ≤ entry.name := by
  induction h with
  | nil => cases hentry
  | cons hfirst _ ih =>
      rcases List.mem_cons.mp hentry with rfl | hentry'
      · rcases List.mem_cons.mp hother with rfl | hother'
        · exact absurd rfl hne
        · exact .inl (hfirst other hother')
      · rcases List.mem_cons.mp hother with rfl | hother'
        · exact .inr (hfirst entry hentry')
        · exact ih hentry' hother'

/-- The entries of a plan, each written once, pay for all that is written. -/
theorem Wrote.ledger {plan : List Placement} {trimmer : Trimmer}
    {sects : List Section}
    (hsize : payload.length ≤ maxPointerTarget + 1)
    (hlong : dnsHeaderLen ≤ payload.length)
    (hwalk : walkEntries payload sects dnsHeaderLen = .ok walked)
    (hproper : ∀ entry ∈ walked, entry.Proper payload walked)
    (hfits : ∀ entry ∈ walked, entry.Fits payload)
    (h : Wrote payload (Trimmer.opening payload) plan trimmer)
    (hnodup : (plan.map Placement.entry).Nodup)
    (hsub : plan.map Placement.entry ⊆ walked) :
    ∃ closed, Ledger payload
        (walked.flatMap fun entry => entry.labels payload) closed
        (dnsHeaderLen + weigh (fun entry => entry.own payload)
          (plan.map Placement.entry)) trimmer ∧
      ∀ stop ∈ closed, ∃ entry ∈ plan.map Placement.entry,
        entry.name < stop ∧ stop ≤ entry.stop := by
  induction h with
  | nil =>
      refine ⟨∅, ⟨[], ∅, ⟨List.nodup_nil, List.nil_subset _, ?_, ?_⟩, ?_, ?_⟩,
        ?_⟩
      · intro place
        simp only [Trimmer.opening, List.getElem?_replicate,
          List.not_mem_nil, iff_false]
        split <;> simp
      · exact List.length_replicate
      · simp only [Trimmer.opening, List.length_take, Finset.card_empty,
          List.map_nil, weigh_nil]
        omega
      · exact fun _ hmem => absurd hmem List.not_mem_nil
      · exact fun _ hmem => absurd hmem (Finset.notMem_empty _)
  | @concat plan placement before after budget left _ hentry _ hwrite ih =>
      have htotal := walkEntries_total hwalk hfits hlong
      have hpaid := weigh_subset (fun entry => entry.own payload) hnodup hsub
      simp only [List.map_append, List.map_cons, List.map_nil] at hnodup hsub
      rw [List.map_append, List.map_singleton] at hpaid ⊢
      obtain ⟨hsub', hmem⟩ := List.append_subset.mp hsub
      obtain ⟨hnodup', _, hnew⟩ := List.nodup_append.mp hnodup
      have hmem := hmem List.mem_cons_self
      obtain ⟨closed, hledger, hclosed⟩ := ih hnodup' hsub'
      rw [weigh_append, weigh_cons, weigh_nil] at hpaid ⊢
      obtain ⟨closed', hledger', hclosed'⟩ := hledger.writeEntry
        (token_walkClosed hproper) hwrite hentry (fun offset hoffset =>
          ⟨placement.entry, hmem, offset, hoffset, .here⟩)
        (hfits placement.entry hmem) (by omega) (by
          intro stop hstop
          obtain ⟨other, hother, hlt, hle⟩ := hclosed stop hstop
          have hne : other ≠ placement.entry :=
            hnew other hother placement.entry List.mem_cons_self
          have := apart_of_ne (walkEntries_apart hwalk) (hsub' hother) hmem
            hne
          omega)
      refine ⟨closed', ?_, ?_⟩
      · rwa [← Nat.add_assoc]
      · intro stop hstop
        rcases hclosed' stop hstop with hstop | hstop
        · obtain ⟨other, hother, hbetween⟩ := hclosed stop hstop
          exact ⟨other, List.mem_append_left _ hother, hbetween⟩
        · exact ⟨placement.entry, List.mem_append_right _
            List.mem_cons_self, hstop⟩

end Message

/-! ## The result -/

theorem planned_nodup (accept refill : Entry → Bool) {walked : List Entry}
    (h : walked.Nodup) :
    ((planned accept refill walked).map Placement.entry).Nodup := by
  have hplace : ∀ entries : List Entry,
      (entries.map Entry.inPlace).map Placement.entry = entries := by
    intro entries
    rw [List.map_map]
    exact List.map_id entries
  have hanswer : ∀ entries : List Entry,
      (entries.map Entry.asAnswer).map Placement.entry = entries := by
    intro entries
    rw [List.map_map]
    exact List.map_id entries
  unfold planned
  split
  · rw [List.map_append, List.map_append, hplace, hanswer, hplace]
    have hapart : ∀ {first second : Entry → Bool},
        (∀ entry, first entry = true → second entry = true → False) →
        (walked.filter first).Disjoint (walked.filter second) := by
      intro first second hboth entry hfirst hsecond
      exact hboth entry (List.mem_filter.mp hfirst).2
        (List.mem_filter.mp hsecond).2
    refine List.Nodup.append (List.Nodup.append (h.filter _) (h.filter _)
      (hapart ?_)) (h.filter _) ?_
    · intro entry hearly hrefills
      simp only [refills, Bool.and_eq_true,
        Bool.not_eq_true'] at hearly hrefills
      rw [hearly.1] at hrefills
      cases hrefills.1
    · rw [List.disjoint_append_left]
      refine ⟨hapart ?_, hapart ?_⟩
      · intro entry hearly hlate
        simp only [Bool.and_eq_true, Bool.not_eq_true'] at hearly hlate
        rw [hearly.1] at hlate
        cases hlate.1
      · intro entry hrefills hlate
        simp only [refills, Bool.and_eq_true,
          Bool.not_eq_true'] at hrefills hlate
        rw [hrefills.2] at hlate
        cases hlate.2.1
  · rw [hplace]
    exact h.filter _

/-- A message of no more octets than a pointer can name, whose names end
inside their entries and whose pointers land on names: whatever is kept or
refilled, what is written is no longer than the message, and the trim returns
it. -/
theorem trim_never_outgrows {payload : Bytes} {walked : List Entry}
    (hsize : payload.length ≤ 0x4000) (hwalk : entries payload = .ok walked)
    (hproper : ∀ entry ∈ walked, entry.Proper payload walked)
    (henclosed : ∀ entry ∈ walked, entry.Enclosed payload)
    (keep : Keep) (refill : Entry → Bool) :
    (∀ state, (TrimState.opening payload).visitAll payload keep refill walked
      walked = .ok state → state.trimmer.out.length ≤ payload.length) ∧
    (dnsHeaderLen ≤ payload.length → trim payload keep refill =
      ((TrimState.opening payload).visitAll payload keep refill walked
        walked).map fun state =>
          (patchCounts state.counts state.trimmer.out, state.removed)) := by
  have hfits : ∀ state, (TrimState.opening payload).visitAll payload keep
      refill walked walked = .ok state →
      state.trimmer.out.length ≤ payload.length := by
    intro state h
    by_cases hlong : dnsHeaderLen ≤ payload.length
    · obtain ⟨⟨accept, hfollowed⟩, _⟩ :=
        visitAll_opening_followed hlong hwalk h
      have hwalked := hwalk
      rw [entries, if_neg (by omega)] at hwalked
      have hfit : ∀ entry ∈ walked, entry.Fits payload :=
        fun entry hmem => (hproper entry hmem).fits (henclosed entry hmem)
          (walkEntries_wellPlaced hwalked entry hmem).1
      have hsub : (planned accept refill walked).map Placement.entry ⊆
          walked := by
        intro entry hmem
        obtain ⟨placement, hplan, rfl⟩ := List.mem_map.mp hmem
        exact (mem_planned hplan).1
      have hnodup := planned_nodup accept refill (walkEntries_nodup hwalked)
      obtain ⟨_, ⟨spelled, owed, hspelled, hspent, _⟩, _⟩ :=
        hfollowed.carries.wrote.ledger hsize hlong hwalked hproper hfit
          hnodup hsub
      have htotal := walkEntries_total hwalked hfit hlong
      have hpaid := weigh_subset (fun entry => entry.own payload) hnodup hsub
      have hlabels := weigh_subset (labelSize payload) hspelled.nodup
        hspelled.sub
      omega
    · rw [entries, if_pos (by omega)] at hwalk
      cases hwalk
      cases h
      simp only [TrimState.opening, Trimmer.opening, List.length_take]
      omega
  refine ⟨hfits, ?_⟩
  intro hlong
  have hheader : slice? payload 0 dnsHeaderLen =
      some (payload.take dnsHeaderLen) :=
    slice?_eq_some_iff.mpr ⟨Nat.zero_le _, hlong, rfl⟩
  simp only [TrimState.opening, Trimmer.opening] at hfits ⊢
  simp only [trim, hheader, hwalk, bind, Except.bind, Except.map]
  split
  · rfl
  · rename_i state hvisit
    have hfit := hfits state hvisit
    rw [if_neg (by omega)]

def pairResponse : Bytes :=
  [0, 1, 0x84, 0, 0, 0, 0, 2, 0, 0, 0, 0,
    1, 97, 0, 0, 1, 0, 1, 0, 0, 0, 9, 0, 0,
    0xc0, 12, 0, 1, 0, 1, 0, 0, 0, 9, 0, 0]

def pairEntries : List Entry :=
  [⟨.answer, 12, 15, 1, 25, 25⟩, ⟨.answer, 25, 27, 1, 37, 37⟩]

def dropFirst : Keep := fun entry budget => .ok (entry.name != 12, budget)

theorem trim_never_outgrows_pair :
    (∀ state, (TrimState.opening pairResponse).visitAll pairResponse
      dropFirst (fun _ => false) pairEntries pairEntries = .ok state →
      state.trimmer.out.length ≤ pairResponse.length) ∧
    trim pairResponse dropFirst (fun _ => false) =
      .ok ([0, 1, 0x84, 0, 0, 0, 0, 1, 0, 0, 0, 0,
        1, 97, 0, 0, 1, 0, 1, 0, 0, 0, 9, 0, 0], 1) := by
  have henclosed : ∀ entry ∈ pairEntries, entry.Enclosed pairResponse :=
    enclosed_of_skipName (by decide)
  have hboth := trim_never_outgrows (show pairResponse.length ≤ 0x4000 by
    decide) (show entries pairResponse = .ok pairEntries by decide)
    (proper_of_isProper (by decide +kernel)) henclosed dropFirst
    (fun _ => false)
  exact ⟨hboth.1, (hboth.2 (by decide)).trans (by decide +kernel)⟩

/-- A response whose first PTR has one octet of rdata, a label length that
reaches into the record behind it. -/
def overrunResponse : Bytes :=
  [0, 1, 0x84, 0, 0, 0, 0, 3, 0, 0, 0, 0,
    0, 0, 12, 0, 1, 0, 0, 0, 9, 0, 1, 13,
    0, 0, 1, 0, 1, 0, 0, 0, 9, 0, 3, 1, 1, 0,
    0xc0, 23, 0, 1, 0, 1, 0, 0, 0, 9, 0, 0]

def overrunEntries : List Entry :=
  [⟨.answer, 12, 13, 12, 23, 24⟩, ⟨.answer, 24, 25, 1, 35, 38⟩,
    ⟨.answer, 38, 40, 1, 50, 50⟩]

/-- That the names end inside their entries is needed. -/
theorem overrun_outgrows :
    overrunResponse.length ≤ 0x4000 ∧
      entries overrunResponse = .ok overrunEntries ∧
      (∀ entry ∈ overrunEntries,
        entry.Proper overrunResponse overrunEntries) ∧
      ((TrimState.opening overrunResponse).visitAll overrunResponse dropFirst
        (fun _ => false) overrunEntries overrunEntries).map
          (fun state => state.trimmer.out.length) =
            .ok (overrunResponse.length + 1) ∧
      trim overrunResponse dropFirst (fun _ => false) = .error ⟨⟩ :=
  ⟨by decide, by decide, proper_of_isProper (by decide +kernel),
    by decide +kernel, by decide +kernel⟩

end Netflector.Net.Mdns
