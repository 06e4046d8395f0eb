import Netflector.Net.Mdns.Spelling

/-!
# Recompressing names

Names are recompressed while they are copied.  The invariant that carries the
proof relates `placed` to both messages: whatever label offset of the payload
is placed, the output spells at its new offset what the payload spells at the
old one.  The output is still growing and has two kinds of octets that are
patched later, the header counts and each RDLENGTH, so the invariant speaks of
every string that agrees with the output outside such a hole.
-/

namespace Netflector.Net.Mdns

open Netflector.Foundation

/-! ## Pointers -/

theorem or_pointerMark {position : Nat} (h : position ≤ maxPointerTarget) :
    0xc000 ||| position = 0xc000 + position := by
  have hlt : position < 2 ^ 14 := by
    simp only [maxPointerTarget] at h
    omega
  simpa using (Nat.two_pow_add_eq_or_of_lt hlt 3).symm

theorem labelTag_toBe16_pointer {position : Nat}
    (h : position ≤ maxPointerTarget) :
    labelTag (UInt8.ofNat ((0xc000 ||| position) / 256)) = .pointer := by
  rw [or_pointerMark h]
  simp only [maxPointerTarget] at h
  have hnat : (UInt8.ofNat ((0xc000 + position) / 256)).toNat =
      0xc0 + position / 256 := by
    rw [UInt8.toNat_ofNat']
    omega
  unfold labelTag
  rw [if_neg, if_neg, if_pos]
  · rw [UInt8.le_iff_toNat_le, hnat]
    show 192 ≤ _
    omega
  · rw [UInt8.le_iff_toNat_le, hnat]
    show ¬ _ ≤ 63
    omega
  · intro hzero
    rw [hzero] at hnat
    simp at hnat
    omega

theorem pointerTarget_toBe16 {position : Nat}
    (h : position ≤ maxPointerTarget) :
    pointerTarget (UInt8.ofNat ((0xc000 ||| position) / 256))
      (UInt8.ofNat (0xc000 ||| position)) = position := by
  rw [or_pointerMark h]
  simp only [maxPointerTarget] at h
  unfold pointerTarget
  have hhigh : (UInt8.ofNat ((0xc000 + position) / 256) &&& 0x3f).toNat =
      position / 256 := by
    rw [UInt8.toNat_and, UInt8.toNat_ofNat']
    show _ &&& (2 ^ 6 - 1) = _
    rw [Nat.and_two_pow_sub_one_eq_mod]
    omega
  have hlow : (UInt8.ofNat (0xc000 + position)).toNat = position % 256 := by
    rw [UInt8.toNat_ofNat']
    omega
  rw [hhigh, hlow, Nat.shiftLeft_eq, Nat.mul_comm,
    ← Nat.two_pow_add_eq_or_of_lt (show position % 256 < 2 ^ 8 by omega)]
  omega

/-! ## Writing a name -/

/-- A string the output may still become: it agrees with `out` outside the
positions patched later. -/
abbrev Grows (hole : Nat → Prop) (out final : Bytes) : Prop :=
  AgreeOutside hole out final

/-- The label at `position` of `out` starts `labels`, whatever is appended or
patched later. -/
def Denotes (hole : Nat → Prop) (out : Bytes) (position : Nat)
    (labels : List Bytes) : Prop :=
  ∀ final, Grows hole out final → Canonical final position labels ∧
    ∃ len, final[position]? = some len ∧ labelTag len = .plain

structure PlacedAt (hole : Nat → Prop) (payload out : Bytes)
    (offset position : Nat) : Prop where
  target_le : position ≤ maxPointerTarget
  same : ∃ labels, NameAt payload offset labels ∧
    Denotes hole out position labels

def PlacedBelow (hole : Nat → Prop) (payload : Bytes) (limit : Nat)
    (trimmer : Trimmer) : Prop :=
  ∀ offset position, trimmer.placed[offset]? = some position →
    position ≠ unplaced → position < limit →
    PlacedAt hole payload trimmer.out offset position

def PlacedOk (hole : Nat → Prop) (payload : Bytes) (trimmer : Trimmer) :
    Prop :=
  ∀ offset position, trimmer.placed[offset]? = some position →
    position ≠ unplaced → PlacedAt hole payload trimmer.out offset position

theorem Denotes.grow {hole : Nat → Prop} {out out' : Bytes} {position : Nat}
    {labels : List Bytes} (h : Denotes hole out position labels)
    (hgrow : Grows hole out out') : Denotes hole out' position labels :=
  fun final hfinal => h final (hgrow.trans hfinal)

theorem PlacedAt.grow {hole : Nat → Prop} {payload out out' : Bytes}
    {offset position : Nat} (h : PlacedAt hole payload out offset position)
    (hgrow : Grows hole out out') :
    PlacedAt hole payload out' offset position := by
  obtain ⟨labels, hname, hdenotes⟩ := h.same
  exact ⟨h.target_le, labels, hname, hdenotes.grow hgrow⟩

theorem PlacedAt.lt {hole : Nat → Prop} {payload out : Bytes}
    {offset position : Nat} (h : PlacedAt hole payload out offset position) :
    position < out.length := by
  obtain ⟨labels, _, hdenotes⟩ := h.same
  obtain ⟨_, len, hlen, _⟩ := hdenotes out (AgreeOutside.refl hole out)
  exact (List.getElem?_eq_some_iff.mp hlen).1

/-- The name written from `start` on: it spells `labels` and its inline octets
are exactly the ones written. -/
def Written (hole : Nat → Prop) (out : Bytes) (start : Nat)
    (labels : List Bytes) : Prop :=
  ∀ final, Grows hole out final →
    Canonical final start labels ∧ Inline final start out.length

structure WroteName (hole : Nat → Prop) (payload : Bytes) (offset : Nat)
    (before after : Trimmer) : Prop where
  grows : ∃ suffix, after.out = before.out ++ suffix
  name : ∃ labels, NameAt payload offset labels ∧
    Written hole after.out before.out.length labels
  placed : ∀ source position, after.placed[source]? = some position →
    position ≠ unplaced → before.placed[source]? = some position ∨
      PlacedAt hole payload after.out source position

section WriteName

variable {hole : Nat → Prop} {payload : Bytes} {start : Nat}

theorem Grows.getElem?_appended {out suffix final : Bytes}
    (h : Grows hole (out ++ suffix) final)
    (hhole : ∀ position, hole position → position < out.length)
    (index : Nat) (hindex : index < suffix.length) :
    final[out.length + index]? = suffix[index]? := by
  rw [h.getElem?_eq (out.length + index) (by simp; omega)
    (fun hh => by have := hhole _ hh; omega)]
  rw [List.getElem?_append_right (by omega)]
  simp

theorem writePointer_spec {trimmer : Trimmer} {offset position : Nat}
    (hhole : ∀ position, hole position → position < start)
    (hstart : start ≤ trimmer.out.length)
    (hplaced : PlacedAt hole payload trimmer.out offset position) :
    WroteName hole payload offset trimmer
      (trimmer.push (toBe16 (0xc000 ||| position))) := by
  obtain ⟨labels, hname, hdenotes⟩ := hplaced.same
  refine ⟨⟨_, rfl⟩, ⟨labels, hname, fun final hgrow => ?_⟩,
    fun source position' h _ => .inl h⟩
  have hbelow : ∀ position, hole position → position < trimmer.out.length :=
    fun p hp => Nat.lt_of_lt_of_le (hhole p hp) hstart
  have hhigh := hgrow.getElem?_appended hbelow 0 (by simp)
  have hlow := hgrow.getElem?_appended hbelow 1 (by simp)
  simp only [toBe16, List.getElem?_cons_zero, List.getElem?_cons_succ,
    Nat.add_zero] at hhigh hlow
  have htag := labelTag_toBe16_pointer hplaced.target_le
  obtain ⟨hcanonical, len', hlen', htag'⟩ := hdenotes final hgrow.of_append
  constructor
  · have htarget := pointerTarget_toBe16 hplaced.target_le
    refine .pointer hhigh htag hlow ?_ ?_ htag' ?_
    · rw [htarget]
      exact hplaced.lt
    · rwa [htarget]
    · rwa [htarget]
  · have hinline := Inline.pointer hhigh htag hlow
    simpa [Trimmer.push] using hinline

theorem writeRoot_spec {trimmer : Trimmer} {offset : Nat} {len : UInt8}
    (hhole : ∀ position, hole position → position < start)
    (hstart : start ≤ trimmer.out.length)
    (hlen : payload[offset]? = some len) (htag : labelTag len = .root) :
    WroteName hole payload offset trimmer (trimmer.push [0]) := by
  refine ⟨⟨_, rfl⟩, ⟨[], ⟨0, .root hlen htag⟩, fun final hgrow => ?_⟩,
    fun source position' h _ => .inl h⟩
  have hzero := hgrow.getElem?_appended
    (fun p hp => Nat.lt_of_lt_of_le (hhole p hp) hstart) 0 (by simp)
  simp only [List.getElem?_cons_zero, Nat.add_zero] at hzero
  have hroot : labelTag 0 = .root := rfl
  refine ⟨.root hzero hroot, ?_⟩
  simpa [Trimmer.push] using Inline.root hzero hroot

theorem label_readback {out label suffix final : Bytes} {offset : Nat}
    {len : UInt8} (hlen : payload[offset]? = some len)
    (hlabel : slice? payload offset (offset + 1 + len.toNat) = some label)
    (hbelow : ∀ position, hole position → position < out.length)
    (hgrow : Grows hole (out ++ label ++ suffix) final) :
    final[out.length]? = some len ∧
      slice? final (out.length + 1) (out.length + 1 + len.toNat) =
        slice? payload (offset + 1) (offset + 1 + len.toNat) := by
  have hlength : label.length = 1 + len.toNat := by
    have := slice?_length hlabel
    omega
  have hcopy : ∀ index, index < label.length →
      final[out.length + index]? = payload[offset + index]? := by
    intro index hindex
    rw [List.append_assoc] at hgrow
    rw [hgrow.getElem?_appended hbelow index (by simp; omega),
      List.getElem?_append_left hindex,
      getElem?_of_slice? hlabel index (by omega)]
  have hbound := hgrow.length_le
  simp only [List.length_append] at hbound
  have hpayload := (slice?_eq_some_iff.mp hlabel).2.1
  constructor
  · have := hcopy 0 (by omega)
    simpa [hlen] using this
  · unfold slice?
    rw [if_pos ⟨by omega, by omega⟩, if_pos ⟨by omega, by omega⟩]
    congr 1
    apply List.ext_getElem?
    intro index
    by_cases hindex : index < len.toNat
    · rw [List.getElem?_take_of_lt (by omega),
        List.getElem?_take_of_lt (by omega), List.getElem?_drop,
        List.getElem?_drop, Nat.add_assoc, Nat.add_assoc]
      exact hcopy (1 + index) (by omega)
    · rw [List.getElem?_take_eq_none (by omega),
        List.getElem?_take_eq_none (by omega)]

theorem writeLabel_spec {before after : Trimmer} {offset : Nat} {len : UInt8}
    {label : Bytes} {placed : List Nat}
    (hhole : ∀ position, hole position → position < start)
    (hstart : start ≤ before.out.length)
    (hlen : payload[offset]? = some len) (htag : labelTag len = .plain)
    (hlabel : slice? payload offset (offset + 1 + len.toNat) = some label)
    (hplaced : placed = if before.out.length ≤ maxPointerTarget then
      before.placed.set offset before.out.length else before.placed)
    (hrest : WroteName hole payload (offset + label.length)
      ⟨before.out ++ label, placed⟩ after) :
    WroteName hole payload offset before after := by
  obtain ⟨suffix, hout⟩ := hrest.grows
  obtain ⟨labels, ⟨hops, hspells⟩, hwritten⟩ := hrest.name
  simp only at hout hwritten
  have hlength : label.length = 1 + len.toNat := by
    have := slice?_length hlabel
    omega
  have hbelow : ∀ position, hole position → position < before.out.length :=
    fun p hp => Nat.lt_of_lt_of_le (hhole p hp) hstart
  obtain ⟨part, hpart⟩ := slice?_isSome payload
    (Nat.le_add_right (offset + 1) len.toNat)
    (slice?_eq_some_iff.mp hlabel).2.1
  have hname : Spells payload offset hops (part :: labels) := by
    refine .plain hlen htag hpart ?_
    rwa [show offset + 1 + len.toNat = offset + label.length by omega]
  -- Reading the label back in front of what the rest of the loop wrote.
  have hread : ∀ final, Grows hole after.out final →
      final[before.out.length]? = some len ∧
      Canonical final before.out.length (part :: labels) ∧
      Inline final before.out.length after.out.length := by
    intro final hgrow
    obtain ⟨hcanonical, hinline⟩ := hwritten final hgrow
    rw [hout] at hgrow
    obtain ⟨hfirst, hslice⟩ := label_readback hlen hlabel hbelow hgrow
    have hnext : (before.out ++ label).length =
        before.out.length + 1 + len.toNat := by
      rw [List.length_append]
      omega
    rw [hnext] at hcanonical hinline
    exact ⟨hfirst, .plain hfirst htag (hslice.trans hpart) hcanonical,
      .plain hfirst htag (by rwa [← Nat.add_assoc])⟩
  refine ⟨⟨label ++ suffix, by rw [hout, List.append_assoc]⟩,
    ⟨part :: labels, ⟨hops, hname⟩, fun final hgrow => (hread final hgrow).2⟩,
    ?_⟩
  · intro source position hsource hne
    rcases hrest.placed source position hsource hne with hold | hnew
    · simp only at hold
      rw [hplaced] at hold
      split at hold
      · rename_i htarget
        rw [List.getElem?_set] at hold
        split at hold
        · rename_i heq
          subst heq
          split at hold
          · cases hold
            right
            refine ⟨htarget, part :: labels, ⟨hops, hname⟩,
              fun final hgrow => ?_⟩
            obtain ⟨hfirst, hcanonical, _⟩ := hread final hgrow
            exact ⟨hcanonical, len, hfirst, htag⟩
          · cases hold
        · exact .inl hold
      · exact .inl hold
    · exact .inr hnew

/-- The write loop copies the name at `offset`, given that every offset placed
before the name began is placed right. -/
theorem writeNameFrom_spec {budget budget' offset hops : Nat}
    {before after : Trimmer}
    (h : Trimmer.writeNameFrom payload start budget offset hops before =
      .ok (after, budget'))
    (hhole : ∀ position, hole position → position < start)
    (hstart : start ≤ before.out.length)
    (hplaced : PlacedBelow hole payload start before) :
    WroteName hole payload offset before after := by
  induction budget generalizing offset hops before with
  | zero => cases h
  | succ budget ih =>
      simp only [Trimmer.writeNameFrom] at h
      split at h
      · rename_i hne
        split at h
        · cases h
        rename_i hlt
        cases h
        refine writePointer_spec hhole hstart
          (hplaced offset _ ?_ hne (by omega))
        cases hget : before.placed[offset]? with
        | none => simp [hget] at hne
        | some position => rfl
      · split at h
        · cases h
        rename_i len hlen
        split at h
        · rename_i htag
          cases h
          exact writeRoot_spec hhole hstart hlen htag
        · rename_i htag
          split at h
          · cases h
          rename_i label hlabel
          refine writeLabel_spec hhole hstart hlen htag hlabel rfl
            (ih h (by simp; omega) ?_)
          -- The offset just placed is not below `start`.
          intro source position hsource hne hlt
          simp only at hsource
          have hold : before.placed[source]? = some position := by
            split at hsource
            · rw [List.getElem?_set] at hsource
              split at hsource
              · split at hsource
                · cases hsource
                  omega
                · cases hsource
              · exact hsource
            · exact hsource
          exact (hplaced source position hold hne hlt).grow
            (AgreeOutside.append hole _ _)
        · rename_i htag
          split at h
          · cases h
          rename_i low hlow
          split at h
          · cases h
          have hrest := ih h hstart hplaced
          obtain ⟨labels, ⟨hops', hspells⟩, hwritten⟩ := hrest.name
          exact ⟨hrest.grows, ⟨labels, ⟨hops' + 1,
            .pointer hlen htag hlow hspells⟩, hwritten⟩, hrest.placed⟩
        · cases h

theorem writeName_spec {budget budget' offset : Nat} {before after : Trimmer}
    (h : before.writeName payload offset budget = .ok (after, budget'))
    (hhole : ∀ position, hole position → position < before.out.length)
    (hplaced : PlacedOk hole payload before) :
    WroteName hole payload offset before after ∧
      PlacedOk hole payload after := by
  have hwrote := writeNameFrom_spec h hhole (Nat.le_refl _)
    fun offset position hget hne _ => hplaced offset position hget hne
  refine ⟨hwrote, fun source position hget hne => ?_⟩
  obtain ⟨suffix, hout⟩ := hwrote.grows
  rcases hwrote.placed source position hget hne with hold | hnew
  · have hgrow := (hplaced source position hold hne).grow
      (AgreeOutside.append hole before.out suffix)
    rwa [← hout] at hgrow
  · exact hnew

end WriteName

/-! ## Writing an entry -/

theorem Grows.slice?_appended {hole : Nat → Prop} {out part suffix final : Bytes}
    (h : Grows hole (out ++ part ++ suffix) final)
    (hhole : ∀ position, hole position → position < out.length) :
    slice? final out.length (out.length + part.length) = some part := by
  rw [AgreeOutside.slice? h (by simp)]
  · exact slice?_append_middle out part suffix
  · intro index hindex _ hh
    have := hhole index hh
    omega

theorem Grows.slice?_concat {hole : Nat → Prop} {out part final : Bytes}
    (h : Grows hole (out ++ part) final)
    (hhole : ∀ position, hole position → position < out.length) :
    slice? final out.length (out.length + part.length) = some part := by
  rw [← List.append_nil (out ++ part)] at h
  exact h.slice?_appended hhole

theorem be16At_of_slice? {first second part : Bytes} {start start' size : Nat}
    (hfirst : slice? first start (start + size) = some part)
    (hsecond : slice? second start' (start' + size) = some part)
    (hsize : 2 ≤ size) :
    be16At second start' = be16At first start := by
  have hzero := getElem?_of_slice? hfirst 0 (by omega)
  have hzero' := getElem?_of_slice? hsecond 0 (by omega)
  have hone := getElem?_of_slice? hfirst 1 (by omega)
  have hone' := getElem?_of_slice? hsecond 1 (by omega)
  rw [Nat.add_zero] at hzero hzero'
  unfold be16At
  rw [← hzero, ← hzero', ← hone, ← hone']

theorem rdataNames_count_pos {rtype : Nat} {names : RdataNames}
    (h : rdataNames rtype = some names) : 0 < names.count := by
  unfold rdataNames at h
  repeat' split at h
  all_goals first
    | cases h; decide
    | cases h

theorem Entry.rdataNames_eq_some_iff {entry : Entry} {names : RdataNames} :
    entry.rdataNames = some names ↔
      Mdns.rdataNames entry.rtype = some names ∧ entry.rdata < entry.stop := by
  simp [Entry.rdataNames, Option.filter_eq_some_iff]

section WriteEntry

variable {hole : Nat → Prop} {payload : Bytes}

structure WroteNames (hole : Nat → Prop) (payload : Bytes)
    (count offset next : Nat) (before after : Trimmer) : Prop where
  grows : ∃ suffix, after.out = before.out ++ suffix
  placed : PlacedOk hole payload after
  names : ∃ names, names.length = count ∧
    NamesWith (NameAt payload) payload offset names next ∧
    ∀ final, Grows hole after.out final →
      NamesWith (Canonical final) final before.out.length names
        after.out.length

theorem writeNames_spec {count budget budget' offset next : Nat}
    {before after : Trimmer}
    (h : before.writeNames payload count offset budget =
      .ok (after, next, budget'))
    (hhole : ∀ position, hole position → position < before.out.length)
    (hplaced : PlacedOk hole payload before) :
    WroteNames hole payload count offset next before after := by
  induction count generalizing offset budget before with
  | zero =>
      cases h
      exact ⟨⟨[], by simp⟩, hplaced, [], rfl, .nil, fun _ _ => .nil⟩
  | succ count ih =>
      simp only [Trimmer.writeNames] at h
      cases hname : before.writeName payload offset budget with
      | error e => simp [hname, bind, Except.bind] at h
      | ok result =>
          obtain ⟨middle, budget₁⟩ := result
          simp only [hname, bind, Except.bind] at h
          split at h
          · cases h
          rename_i following hskip
          obtain ⟨hwrote, hplaced'⟩ := writeName_spec hname hhole hplaced
          obtain ⟨suffix, hout⟩ := hwrote.grows
          obtain ⟨labels, hlabels, hwritten⟩ := hwrote.name
          have hrest := ih h (fun p hp => by
            have := hhole p hp
            rw [hout, List.length_append]
            omega) hplaced'
          obtain ⟨suffix', hout'⟩ := hrest.grows
          obtain ⟨names, hcount, hnames, hfinal⟩ := hrest.names
          refine ⟨⟨suffix ++ suffix', by rw [hout', hout, List.append_assoc]⟩,
            hrest.placed, labels :: names, by simp [hcount],
            .cons hlabels (skipName_eq_some_iff.mp hskip) hnames,
            fun final hgrow => ?_⟩
          have hgrow' : Grows hole middle.out final := by
            rw [hout'] at hgrow
            exact hgrow.of_append
          obtain ⟨hcanonical, hinline⟩ := hwritten final hgrow'
          exact .cons hcanonical hinline (hfinal final hgrow)

theorem pushSpan_eq_ok_iff {start stop : Nat} {before after : Trimmer} :
    before.pushSpan payload start stop = .ok after ↔
      ∃ span, slice? payload start stop = some span ∧
        after = before.push span := by
  unfold Trimmer.pushSpan
  cases slice? payload start stop with
  | none => simp
  | some span => simp [eq_comm]

theorem PlacedOk.push {trimmer : Trimmer} (h : PlacedOk hole payload trimmer)
    (bytes : Bytes) : PlacedOk hole payload (trimmer.push bytes) :=
  fun offset position hget hne =>
    (h offset position hget hne).grow (AgreeOutside.append hole _ _)

structure WroteRdata (hole : Nat → Prop) (payload : Bytes) (entry : Entry)
    (before after : Trimmer) : Prop where
  grows : ∃ suffix, after.out = before.out ++ suffix
  placed : PlacedOk hole payload after
  rdata : ∃ parts, RdataWith (NameAt payload) payload entry parts ∧
    ∀ final, Grows hole after.out final →
      ∀ copy : Entry, copy.rtype = entry.rtype →
        copy.rdata = before.out.length → copy.stop = after.out.length →
        RdataWith (Canonical final) final copy parts

theorem writeRdata_raw_spec {entry : Entry} {before : Trimmer} {span : Bytes}
    (hhole : ∀ position, hole position → position < before.out.length)
    (hplaced : PlacedOk hole payload before)
    (hnone : entry.rdataNames = none)
    (hspan : slice? payload entry.rdata entry.stop = some span) :
    WroteRdata hole payload entry before (before.push span) := by
  refine ⟨⟨span, rfl⟩, hplaced.push span, [.raw span], ?_,
    fun final hgrow copy hrtype hrdata hstop => ?_⟩
  · simp only [RdataWith, hnone]
    exact ⟨span, hspan, rfl⟩
  · have hlength := slice?_length hspan
    have hcopy : copy.rdataNames = none := by
      cases hnames : copy.rdataNames with
      | none => rfl
      | some names =>
          obtain ⟨htable, hlt⟩ := Entry.rdataNames_eq_some_iff.mp hnames
          rw [hrdata, hstop] at hlt
          simp only [Trimmer.push, List.length_append] at hlt
          have : entry.rdataNames = some names :=
            Entry.rdataNames_eq_some_iff.mpr
              ⟨hrtype ▸ htable, by omega⟩
          rw [hnone] at this
          cases this
    simp only [RdataWith, hcopy]
    refine ⟨span, ?_, rfl⟩
    have hslice := Grows.slice?_concat hgrow hhole
    rw [hrdata, hstop]
    simpa [Trimmer.push] using hslice

theorem writeRdata_names_spec {entry : Entry} {names : RdataNames}
    {next : Nat} {before middle : Trimmer} {lead tail : Bytes}
    (hhole : ∀ position, hole position → position < before.out.length)
    (hsome : entry.rdataNames = some names)
    (hlead : slice? payload entry.rdata (entry.rdata + names.offset) =
      some lead)
    (hwrote : WroteNames hole payload names.count
      (entry.rdata + names.offset) next (before.push lead) middle)
    (htail : slice? payload next entry.stop = some tail) :
    WroteRdata hole payload entry before (middle.push tail) := by
  obtain ⟨suffix, hout⟩ := hwrote.grows
  obtain ⟨labels, hcount, hnames, hfinal⟩ := hwrote.names
  simp only [Trimmer.push] at hout hfinal
  refine ⟨⟨lead ++ suffix ++ tail, by simp [Trimmer.push, hout]⟩,
    hwrote.placed.push tail, .raw lead :: (labels.map .name ++ [.raw tail]),
    ?_, fun final hgrow copy hrtype hrdata hstop => ?_⟩
  · simp only [RdataWith, hsome]
    exact ⟨lead, labels, next, tail, hlead, hcount, hnames, htail, rfl⟩
  · have hleadLength := slice?_length hlead
    obtain ⟨htable, hlt⟩ := Entry.rdataNames_eq_some_iff.mp hsome
    have hgrow' : Grows hole middle.out final := hgrow.of_append
    have hcopied := hfinal final hgrow'
    -- At least one name was written, so the copy's rdata is not empty.
    have hlong : before.out.length < middle.out.length := by
      have hpos := rdataNames_count_pos htable
      have := hcopied.lt (by omega)
      rw [List.length_append] at this
      omega
    have hcopy : copy.rdataNames = some names := by
      rw [Entry.rdataNames_eq_some_iff, hrtype, hrdata, hstop]
      refine ⟨htable, ?_⟩
      simp only [Trimmer.push, List.length_append]
      omega
    simp only [RdataWith, hcopy]
    have hoffset : copy.rdata + names.offset = (before.out ++ lead).length := by
      rw [hrdata, List.length_append]
      omega
    refine ⟨lead, labels, middle.out.length, tail, ?_, hcount, ?_, ?_, rfl⟩
    · rw [hoffset, hrdata, List.length_append]
      rw [hout] at hgrow'
      exact hgrow'.slice?_appended hhole
    · rw [hoffset]
      exact hcopied
    · rw [hstop]
      have hslice := Grows.slice?_concat hgrow
        (fun p hp => Nat.lt_trans (hhole p hp) hlong)
      simpa [Trimmer.push] using hslice

theorem writeRdata_spec {entry : Entry} {budget budget' : Nat}
    {before after : Trimmer}
    (h : before.writeRdata payload entry budget = .ok (after, budget'))
    (hhole : ∀ position, hole position → position < before.out.length)
    (hplaced : PlacedOk hole payload before) :
    WroteRdata hole payload entry before after := by
  unfold Trimmer.writeRdata at h
  split at h
  · rename_i names hsome
    cases hlead : before.pushSpan payload entry.rdata
        (entry.rdata + names.offset) with
    | error e => simp [hlead, bind, Except.bind] at h
    | ok first =>
        obtain ⟨lead, hslice, rfl⟩ := pushSpan_eq_ok_iff.mp hlead
        simp only [hlead, bind, Except.bind] at h
        split at h
        · cases h
        rename_i result hnames
        obtain ⟨middle, next, budget₁⟩ := result
        simp only at h
        split at h
        · cases h
        rename_i last htail
        obtain ⟨tail, hslice', rfl⟩ := pushSpan_eq_ok_iff.mp htail
        cases h
        refine writeRdata_names_spec hhole hsome hslice
          (writeNames_spec hnames (fun p hp => ?_) (hplaced.push lead)) hslice'
        have := hhole p hp
        simp only [Trimmer.push, List.length_append]
        omega
  · rename_i hnone
    cases hspan : before.pushSpan payload entry.rdata entry.stop with
    | error e => simp [hspan, bind, Except.bind] at h
    | ok last =>
        obtain ⟨span, hslice, rfl⟩ := pushSpan_eq_ok_iff.mp hspan
        simp only [hspan, bind, Except.bind] at h
        cases h
        exact writeRdata_raw_spec hhole hplaced hnone hslice

end WriteEntry

/-- The header counts are patched at the very end. -/
def inHeader (position : Nat) : Prop := position < dnsHeaderLen

/-- What writing an entry leaves behind: any string the output grows into
reads back an entry that says the same, in whatever section of the same kind
the header announces it. -/
structure WroteEntry (payload : Bytes) (entry : Entry)
    (before after : Trimmer) : Prop where
  grows : ∃ suffix, after.out = before.out ++ suffix
  placed : PlacedOk inHeader payload after
  record : ∃ record, Decodes payload entry record ∧
    ∀ final, Grows inHeader after.out final →
      ∀ sect, (sect = .question ↔ entry.sect = .question) →
        ∃ copy, entryAt final sect before.out.length = .ok copy ∧
          copy.stop = after.out.length ∧ DecodesCanonically final copy record

theorem Grows.into_patched {out final : Bytes} {value : Bytes} {offset : Nat}
    (hvalue : offset + value.length ≤ out.length)
    (h : Grows inHeader (overwrite out offset value) final) :
    Grows (fun index => inHeader index ∨
      (offset ≤ index ∧ index < offset + value.length)) out final := by
  have hlength := h.length_le
  rw [overwrite_length hvalue] at hlength
  refine ⟨hlength, fun index hindex hout => ?_⟩
  rw [not_or] at hout
  rw [h.getElem?_eq index (by rwa [overwrite_length hvalue]) hout.1]
  rcases Nat.lt_or_ge index offset with hlt | hge
  · exact getElem?_overwrite_lt hvalue hlt
  · exact getElem?_overwrite_ge hvalue
      (Nat.le_of_not_lt fun hlt => hout.2 ⟨hge, hlt⟩)

theorem PlacedOk.widen {hole wider : Nat → Prop} {payload : Bytes}
    {trimmer : Trimmer} (h : PlacedOk hole payload trimmer)
    (hwider : ∀ index, index < trimmer.out.length → wider index → hole index) :
    PlacedOk wider payload trimmer := by
  intro offset position hget hne
  have hplaced := h offset position hget hne
  obtain ⟨labels, hname, hdenotes⟩ := hplaced.same
  exact ⟨hplaced.target_le, labels, hname,
    fun final hgrow => hdenotes final (hgrow.narrow hwider)⟩

theorem Entry.rdataNames_of_empty {entry : Entry}
    (h : entry.rdata = entry.stop) : entry.rdataNames = none := by
  unfold Entry.rdataNames
  rw [Option.filter_eq_none_iff]
  intro names _
  simp [h]

theorem RdataWith.empty {reads : Nat → List Bytes → Prop} {payload : Bytes}
    {entry : Entry} (hrdata : entry.rdata = entry.stop)
    (hstop : entry.stop ≤ payload.length) :
    RdataWith reads payload entry [.raw []] := by
  simp only [RdataWith, Entry.rdataNames_of_empty hrdata]
  refine ⟨[], ?_, rfl⟩
  rw [slice?_eq_some_iff]
  exact ⟨by omega, hstop, by simp [hrdata]⟩

theorem writeQuestion_spec {payload : Bytes} {entry : Entry}
    {before middle : Trimmer} {span : Bytes} (hsect : entry.sect = .question)
    (hentry : entry.WellPlaced payload)
    (hheader : dnsHeaderLen ≤ before.out.length)
    (hwrote : WroteName inHeader payload entry.name before middle)
    (hplaced : PlacedOk inHeader payload middle)
    (hspan : slice? payload entry.fixed entry.stop = some span) :
    WroteEntry payload entry before (middle.push span) := by
  obtain ⟨suffix, hout⟩ := hwrote.grows
  obtain ⟨labels, hname, hwritten⟩ := hwrote.name
  obtain ⟨hrdata, hstop⟩ := hentry.question hsect
  have hlength := slice?_length hspan
  have hfour : span.length = 4 := by omega
  refine ⟨⟨suffix ++ span, by simp [Trimmer.push, hout]⟩, hplaced.push span,
    ⟨labels, span, [.raw []]⟩, ⟨hname, ?_, ?_⟩, ?_⟩
  · rwa [Entry.fieldsStop, if_pos hsect, ← hstop]
  · exact .empty (by omega) hentry.stop_le
  · intro final hgrow sect hkind
    have hquestion := hkind.mpr hsect
    obtain ⟨hcanonical, hinline⟩ := hwritten final hgrow.of_append
    have hslice := Grows.slice?_concat hgrow (fun p hp => by
        have : p < dnsHeaderLen := hp
        rw [hout, List.length_append]
        omega)
    rw [hfour] at hslice
    have hbound := (slice?_eq_some_iff.mp hslice).2.1
    have hrtype := be16At_of_slice? (hstop ▸ hspan) hslice (by omega)
    rw [hentry.rtype] at hrtype
    refine ⟨⟨sect, before.out.length, middle.out.length, entry.rtype,
      middle.out.length + 4, middle.out.length + 4⟩, ?_, ?_, ?_, ?_, ?_⟩
    · rw [entryAt_eq_ok_iff]
      exact ⟨⟨hinline, hrtype, hbound, Nat.le_refl _, fun _ => ⟨rfl, rfl⟩,
        fun hne => absurd hquestion hne⟩, rfl, rfl⟩
    · simp [Trimmer.push, hfour]
    · exact hcanonical
    · simpa only [Entry.fieldsStop, if_pos hquestion] using hslice
    · exact .empty rfl hbound

def inHeaderOrLength (lengthAt index : Nat) : Prop :=
  inHeader index ∨ (lengthAt ≤ index ∧ index < lengthAt + 2)

theorem writeRecord_spec {payload : Bytes} {entry : Entry}
    {before named filled : Trimmer} {span : Bytes} {length : Nat}
    (hsect : entry.sect ≠ .question) (hentry : entry.WellPlaced payload)
    (hheader : dnsHeaderLen ≤ before.out.length)
    (hwrote : WroteName inHeader payload entry.name before named)
    (hspan : slice? payload entry.fixed (entry.fixed + 8) = some span)
    (hrdata : WroteRdata (inHeaderOrLength (named.push span).out.length)
      payload entry ((named.push span).push [0, 0]) filled)
    (hlength : length =
      filled.out.length - (named.push span).out.length - 2)
    (hlimit : length ≤ 0xffff) :
    WroteEntry payload entry before { filled with
      out := overwrite filled.out (named.push span).out.length
        (toBe16 length) } := by
  obtain ⟨nameOctets, hnamed⟩ := hwrote.grows
  obtain ⟨labels, hname, hwritten⟩ := hwrote.name
  obtain ⟨rdataOctets, hfilled⟩ := hrdata.grows
  obtain ⟨parts, hparts, hcopied⟩ := hrdata.rdata
  have height : span.length = 8 := by
    have := slice?_length hspan
    omega
  generalize hlengthAt : (named.push span).out.length = lengthAt at *
  have hstart : lengthAt = named.out.length + 8 := by
    rw [← hlengthAt, ← height]
    simp [Trimmer.push]
  have hroom : lengthAt + (toBe16 length).length ≤ filled.out.length := by
    rw [hfilled, ← hlengthAt]
    simp [Trimmer.push]
    omega
  have hbase : before.out.length ≤ named.out.length := by
    rw [hnamed, List.length_append]
    omega
  -- Any growth of the patched output is a growth of the unpatched one.
  have hunpatch : ∀ final, Grows inHeader
      (overwrite filled.out lengthAt (toBe16 length)) final →
      Grows (inHeaderOrLength lengthAt) filled.out final :=
    fun final hgrow => Grows.into_patched hroom hgrow
  refine ⟨⟨nameOctets ++ span ++ toBe16 length ++ rdataOctets, ?_⟩, ?_,
    ⟨labels, span, parts⟩, ⟨hname, ?_, hparts⟩, ?_⟩
  · rw [hfilled, ← hlengthAt]
    have hpatched := overwrite_append (named.push span).out rdataOctets
      (show (toBe16 length).length = [0, 0].length from rfl)
    simp only [Trimmer.push] at hpatched ⊢
    rw [hpatched, hnamed]
    simp only [List.append_assoc]
  · intro offset position hget hne
    have hold := hrdata.placed offset position hget hne
    obtain ⟨names, hsource, hdenotes⟩ := hold.same
    exact ⟨hold.target_le, names, hsource,
      fun final hgrow => hdenotes final (hunpatch final hgrow)⟩
  · rwa [Entry.fieldsStop, if_neg hsect]
  · intro final hgrow sect hkind
    simp only at hgrow
    have hrecord : sect ≠ .question := fun h => hsect (hkind.mp h)
    have hunpatched := hunpatch final hgrow
    have hnarrow : Grows inHeader (named.out ++ span) final := by
      rw [hfilled] at hunpatched
      refine hunpatched.of_append.of_append.narrow fun index hindex hhole => ?_
      rcases hhole with hhead | ⟨hge, _⟩
      · exact hhead
      · simp only [Trimmer.push] at hlengthAt hindex
        omega
    obtain ⟨hcanonical, hinline⟩ := hwritten final hnarrow.of_append
    have hslice := Grows.slice?_concat hnarrow (fun p hp => by
        have : p < dnsHeaderLen := hp
        omega)
    rw [height] at hslice
    have hrtype := be16At_of_slice? hspan hslice (by omega)
    rw [hentry.rtype] at hrtype
    have hfield : be16At final lengthAt = some length := by
      rw [← be16At_overwrite_self filled.out hroom
        (Nat.lt_succ_of_le hlimit)]
      have hpatched := overwrite_length hroom
      have htwo := toBe16_length length
      refine be16At_congr (hgrow.getElem?_eq _ (by omega) fun hhead => ?_)
        (hgrow.getElem?_eq _ (by omega) fun hhead => ?_)
      · have : lengthAt < dnsHeaderLen := hhead
        omega
      · have : lengthAt + 1 < dnsHeaderLen := hhead
        omega
    refine ⟨⟨sect, before.out.length, named.out.length, entry.rtype,
      named.out.length + 10, filled.out.length⟩, ?_, ?_, ?_, ?_, ?_⟩
    · rw [entryAt_eq_ok_iff]
      have hbound := hunpatched.length_le
      have htwo := toBe16_length length
      refine ⟨⟨hinline, hrtype, hbound, ?_, fun h => absurd h hrecord,
        fun _ => ⟨rfl, ?_⟩⟩, rfl, rfl⟩
      · simp only
        omega
      · simp only
        rw [show named.out.length + 8 = lengthAt by omega, hfield, hlength]
        congr 1
        omega
    · exact (overwrite_length hroom).symm
    · exact hcanonical
    · simpa only [Entry.fieldsStop, if_neg hrecord] using hslice
    · refine hcopied final hunpatched _ rfl ?_ rfl
      simp [Trimmer.push, height]

theorem writeEntry_spec {payload : Bytes} {entry : Entry}
    {budget budget' : Nat} {before after : Trimmer}
    (h : before.writeEntry payload entry budget = .ok (after, budget'))
    (hentry : entry.WellPlaced payload)
    (hheader : dnsHeaderLen ≤ before.out.length)
    (hplaced : PlacedOk inHeader payload before) :
    WroteEntry payload entry before after := by
  unfold Trimmer.writeEntry at h
  cases hname : before.writeName payload entry.name budget with
  | error e => simp [hname, bind, Except.bind] at h
  | ok result =>
      obtain ⟨named, budget₁⟩ := result
      obtain ⟨hwrote, hplaced'⟩ := writeName_spec hname
        (fun p hp => Nat.lt_of_lt_of_le hp hheader) hplaced
      simp only [hname, bind, Except.bind] at h
      split at h
      · rename_i hsect
        split at h
        · cases h
        rename_i last hlast
        obtain ⟨span, hspan, rfl⟩ := pushSpan_eq_ok_iff.mp hlast
        cases h
        exact writeQuestion_spec hsect hentry hheader hwrote hplaced' hspan
      · rename_i hsect
        split at h
        · cases h
        rename_i fielded hfielded
        obtain ⟨span, hspan, rfl⟩ := pushSpan_eq_ok_iff.mp hfielded
        split at h
        · cases h
        rename_i result hrdata
        obtain ⟨filled, budget₂⟩ := result
        simp only at h
        split at h
        · cases h
        rename_i hlimit
        cases h
        obtain ⟨nameOctets, hnamed⟩ := hwrote.grows
        refine writeRecord_spec hsect hentry hheader hwrote hspan
          (writeRdata_spec hrdata ?_ (PlacedOk.push ?_ _)) rfl (by omega)
        · intro index hhole
          rcases hhole with hhead | ⟨_, hlt⟩
          · have : index < dnsHeaderLen := hhead
            simp only [Trimmer.push, hnamed, List.length_append]
            omega
          · simpa [Trimmer.push, Nat.add_assoc] using hlt
        · refine (hplaced'.push span).widen fun index hindex hhole => ?_
          rcases hhole with hhead | ⟨hge, _⟩
          · exact hhead
          · omega

end Netflector.Net.Mdns
