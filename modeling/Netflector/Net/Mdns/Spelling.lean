import Mathlib.Data.List.Perm.Subperm
import Netflector.Net.Mdns.Message

/-!
# What a DNS message says

The meaning of a message, independent of how its names are compressed.  A name
denotes the labels met by following its octets and pointers; an entry denotes
its owner labels, its fixed fields and its rdata with the known names spelled
out; a message denotes its entries in order.  The budgeted walks of
`Net.Mdns.Message` are related to these denotations.
-/

namespace Netflector.Net.Mdns

open Netflector.Foundation

/-! ## Names -/

/-- `Spells payload offset hops labels`: the name at `offset` spells out
`labels`, following `hops` pointers.  There is no limit on its length. -/
inductive Spells (payload : Bytes) : Nat → Nat → List Bytes → Prop
  | root {offset : Nat} {len : UInt8} :
      payload[offset]? = some len → labelTag len = .root →
      Spells payload offset 0 []
  | plain {offset hops : Nat} {len : UInt8} {label : Bytes}
      {labels : List Bytes} :
      payload[offset]? = some len → labelTag len = .plain →
      slice? payload (offset + 1) (offset + 1 + len.toNat) = some label →
      Spells payload (offset + 1 + len.toNat) hops labels →
      Spells payload offset hops (label :: labels)
  | pointer {offset hops : Nat} {len low : UInt8} {labels : List Bytes} :
      payload[offset]? = some len → labelTag len = .pointer →
      payload[offset + 1]? = some low →
      Spells payload (pointerTarget len low) hops labels →
      Spells payload offset (hops + 1) labels

/-- `Inline payload offset stop`: the octets of the name at `offset` that lie
in place, up to its terminator or first pointer, end at `stop`. -/
inductive Inline (payload : Bytes) : Nat → Nat → Prop
  | root {offset : Nat} {len : UInt8} :
      payload[offset]? = some len → labelTag len = .root →
      Inline payload offset (offset + 1)
  | plain {offset stop : Nat} {len : UInt8} :
      payload[offset]? = some len → labelTag len = .plain →
      Inline payload (offset + (1 + len.toNat)) stop →
      Inline payload offset stop
  | pointer {offset : Nat} {len low : UInt8} :
      payload[offset]? = some len → labelTag len = .pointer →
      payload[offset + 1]? = some low →
      Inline payload offset (offset + 2)

def NameAt (payload : Bytes) (offset : Nat) (labels : List Bytes) : Prop :=
  ∃ hops, Spells payload offset hops labels

/-- `Canonical payload offset labels`: the name at `offset` spells out
`labels`, and each pointer on its way goes back to the start of a label. -/
inductive Canonical (payload : Bytes) : Nat → List Bytes → Prop
  | root {offset : Nat} {len : UInt8} :
      payload[offset]? = some len → labelTag len = .root →
      Canonical payload offset []
  | plain {offset : Nat} {len : UInt8} {label : Bytes}
      {labels : List Bytes} :
      payload[offset]? = some len → labelTag len = .plain →
      slice? payload (offset + 1) (offset + 1 + len.toNat) = some label →
      Canonical payload (offset + 1 + len.toNat) labels →
      Canonical payload offset (label :: labels)
  | pointer {offset : Nat} {len low len' : UInt8} {labels : List Bytes} :
      payload[offset]? = some len → labelTag len = .pointer →
      payload[offset + 1]? = some low →
      pointerTarget len low < offset →
      payload[pointerTarget len low]? = some len' → labelTag len' = .plain →
      Canonical payload (pointerTarget len low) labels →
      Canonical payload offset labels

def octets : List Bytes → Nat
  | [] => 0
  | label :: labels => 1 + label.length + octets labels

@[simp] theorem octets_nil : octets [] = 0 := rfl

@[simp] theorem octets_cons (label : Bytes) (labels : List Bytes) :
    octets (label :: labels) = 1 + label.length + octets labels :=
  rfl

theorem Spells.unique {payload : Bytes} {offset hops hops' : Nat}
    {labels labels' : List Bytes} (h : Spells payload offset hops labels)
    (h' : Spells payload offset hops' labels') :
    hops = hops' ∧ labels = labels' := by
  induction h generalizing hops' labels' with
  | root hlen htag => cases h' <;> simp_all
  | plain hlen htag hlabel _ ih =>
      cases h' with
      | root => simp_all
      | pointer => simp_all
      | plain hlen' _ hlabel' hrest' =>
          rw [hlen] at hlen'
          cases hlen'
          rw [hlabel] at hlabel'
          cases hlabel'
          obtain ⟨rfl, rfl⟩ := ih hrest'
          exact ⟨rfl, rfl⟩
  | pointer hlen htag hlow _ ih =>
      cases h' with
      | root => simp_all
      | plain => simp_all
      | pointer hlen' _ hlow' hrest' =>
          rw [hlen] at hlen'
          cases hlen'
          rw [hlow] at hlow'
          cases hlow'
          obtain ⟨rfl, rfl⟩ := ih hrest'
          exact ⟨rfl, rfl⟩

theorem NameAt.unique {payload : Bytes} {offset : Nat}
    {labels labels' : List Bytes} (h : NameAt payload offset labels)
    (h' : NameAt payload offset labels') : labels = labels' := by
  obtain ⟨_, h⟩ := h
  obtain ⟨_, h'⟩ := h'
  exact (h.unique h').2

theorem Canonical.spells {payload : Bytes} {offset : Nat}
    {labels : List Bytes} (h : Canonical payload offset labels) :
    ∃ hops, Spells payload offset hops labels ∧ hops ≤ labels.length ∧
      ∀ len, payload[offset]? = some len → labelTag len = .plain →
        hops < labels.length := by
  induction h with
  | root hlen htag =>
      refine ⟨0, .root hlen htag, by simp, fun len hlen' htag' => ?_⟩
      rw [hlen] at hlen'
      cases hlen'
      rw [htag] at htag'
      cases htag'
  | plain hlen htag hlabel _ ih =>
      obtain ⟨hops, hspells, hle, _⟩ := ih
      exact ⟨hops, .plain hlen htag hlabel hspells, by simp; omega,
        fun _ _ _ => by simp; omega⟩
  | pointer hlen htag hlow _ hlen' htag' _ ih =>
      obtain ⟨hops, hspells, _, hlt⟩ := ih
      have hfewer := hlt _ hlen' htag'
      refine ⟨hops + 1, .pointer hlen htag hlow hspells, hfewer,
        fun len hlen'' htag'' => ?_⟩
      rw [hlen] at hlen''
      cases hlen''
      rw [htag] at htag''
      cases htag''

theorem Spells.offset_lt {payload : Bytes} {offset hops : Nat}
    {labels : List Bytes} (h : Spells payload offset hops labels) :
    offset < payload.length := by
  cases h with
  | root hlen _ => exact (List.getElem?_eq_some_iff.mp hlen).1
  | plain hlen _ _ _ => exact (List.getElem?_eq_some_iff.mp hlen).1
  | pointer hlen _ _ _ => exact (List.getElem?_eq_some_iff.mp hlen).1

/-! ## The budgeted walk -/

theorem labelTag_plain_pos {len : UInt8} (h : labelTag len = .plain) :
    0 < len.toNat := by
  unfold labelTag at h
  split at h
  · cases h
  · rename_i hne
    rcases Nat.eq_zero_or_pos len.toNat with hzero | hpos
    · exact absurd (UInt8.toNat_inj.mp hzero) hne
    · exact hpos

theorem Labels.collect_zero (payload : Bytes) (fuel : Nat) {labels : Labels}
    (hdone : labels.done = false) :
    Labels.collect payload (fuel + 1) labels 0 = .error ⟨⟩ := by
  simp [Labels.collect, Labels.next, Labels.step, hdone]

/-- The iterator and its consumer's loop, fused: one step of budget at a
time. -/
theorem Labels.collect_succ (payload : Bytes) (fuel budget : Nat)
    {labels : Labels} (hdone : labels.done = false) :
    Labels.collect payload (fuel + 1) labels (budget + 1) =
      match payload[labels.offset]? with
      | none => .error ⟨⟩
      | some len =>
          match labelTag len with
          | .root => .ok ([], budget)
          | .plain =>
              match slice? payload (labels.offset + 1)
                  (labels.offset + 1 + len.toNat) with
              | none => .error ⟨⟩
              | some label =>
                  if labels.len + (1 + label.length) ≥ maxNameLen then
                    .error ⟨⟩
                  else do
                    let (rest, budget) ← Labels.collect payload fuel
                      { labels with
                        len := labels.len + (1 + label.length)
                        offset := labels.offset + 1 + label.length } budget
                    .ok (label :: rest, budget)
          | .pointer =>
              match payload[labels.offset + 1]? with
              | none => .error ⟨⟩
              | some low =>
                  if labels.hops + 1 > maxPointerHops then .error ⟨⟩
                  else
                    Labels.collect payload (fuel + 1)
                      { labels with
                        hops := labels.hops + 1
                        offset := pointerTarget len low } budget
          | .reserved => .error ⟨⟩ := by
  conv => lhs; unfold Labels.collect
  simp only [Labels.next, hdone, Bool.false_eq_true, if_false, Labels.step]
  cases hlen : payload[labels.offset]? with
  | none => rfl
  | some len =>
      cases htag : labelTag len with
      | root => simp only [htag]
      | reserved => simp only [htag]
      | plain =>
          simp only [htag]
          cases hlabel : slice? payload (labels.offset + 1)
              (labels.offset + 1 + len.toNat) with
          | none => rfl
          | some label =>
              by_cases hlimit : labels.len + (1 + label.length) ≥ maxNameLen
              · simp only [if_pos hlimit]
              · simp only [if_neg hlimit]
      | pointer =>
          simp only [htag]
          cases hlow : payload[labels.offset + 1]? with
          | none => rfl
          | some low =>
              by_cases hlimit : labels.hops + 1 > maxPointerHops
              · simp only [if_pos hlimit]
              · simp only [if_neg hlimit, Labels.collect, Labels.next,
                  Bool.false_eq_true, if_false]

theorem Labels.collect_spells {payload : Bytes} {fuel budget budget' : Nat}
    {labels : Labels} {names : List Bytes}
    (h : Labels.collect payload fuel labels budget = .ok (names, budget'))
    (hdone : labels.done = false) (hhops : labels.hops ≤ maxPointerHops)
    (hlen : labels.len < maxNameLen) :
    ∃ hops, Spells payload labels.offset hops names ∧
      labels.hops + hops ≤ maxPointerHops ∧
      labels.len + octets names < maxNameLen := by
  induction budget generalizing fuel labels names with
  | zero =>
      cases fuel with
      | zero => simp [Labels.collect] at h
      | succ fuel => simp [Labels.collect_zero payload fuel hdone] at h
  | succ budget ih =>
      cases fuel with
      | zero => simp [Labels.collect] at h
      | succ fuel =>
          rw [Labels.collect_succ payload fuel budget hdone] at h
          split at h
          · cases h
          rename_i len hoctet
          split at h
          · rename_i htag
            cases h
            exact ⟨0, .root hoctet htag, hhops, by simpa using hlen⟩
          · rename_i htag
            split at h
            · cases h
            rename_i label hlabel
            split at h
            · cases h
            rename_i hlimit
            have hlength : label.length = len.toNat := by
              have := slice?_length hlabel
              omega
            cases hrest : Labels.collect payload fuel
                { labels with
                  len := labels.len + (1 + label.length)
                  offset := labels.offset + 1 + label.length } budget with
            | error e => simp [hrest, bind, Except.bind] at h
            | ok result =>
                simp only [hrest, bind, Except.bind, Except.ok.injEq,
                  Prod.mk.injEq] at h
                obtain ⟨rfl, rfl⟩ := h
                obtain ⟨hops, hspells, hhops', hoctets⟩ :=
                  ih hrest hdone hhops (by simpa using hlimit)
                refine ⟨hops, ?_, hhops', ?_⟩
                · rw [hlength] at hspells
                  exact .plain hoctet htag hlabel hspells
                · simp only [octets_cons] at hoctets ⊢
                  omega
          · rename_i htag
            split at h
            · cases h
            rename_i low hlow
            split at h
            · cases h
            rename_i hlimit
            obtain ⟨hops, hspells, hhops', hoctets⟩ :=
              ih h hdone (by simpa using hlimit) hlen
            refine ⟨hops + 1, .pointer hoctet htag hlow hspells, ?_, hoctets⟩
            simp only at hhops'
            omega
          · cases h

theorem Spells.collect {payload : Bytes} {offset hops : Nat}
    {names : List Bytes} (h : Spells payload offset hops names)
    {fuel budget : Nat} {labels : Labels} (hoffset : labels.offset = offset)
    (hdone : labels.done = false)
    (hhops : labels.hops + hops ≤ maxPointerHops)
    (hlen : labels.len + octets names < maxNameLen)
    (hfuel : names.length < fuel)
    (hbudget : names.length + hops < budget) :
    Labels.collect payload fuel labels budget =
      .ok (names, budget - (names.length + hops + 1)) := by
  induction h generalizing fuel budget labels with
  | root hoctet htag =>
      subst hoffset
      obtain ⟨fuel, rfl⟩ := Nat.exists_eq_succ_of_ne_zero (by omega : fuel ≠ 0)
      obtain ⟨budget, rfl⟩ :=
        Nat.exists_eq_succ_of_ne_zero (by omega : budget ≠ 0)
      simp [Labels.collect_succ payload fuel budget hdone, hoctet, htag]
  | @plain offset hops len label names hoctet htag hlabel _ ih =>
      subst hoffset
      simp only [List.length_cons, octets_cons] at *
      obtain ⟨fuel, rfl⟩ := Nat.exists_eq_succ_of_ne_zero (by omega : fuel ≠ 0)
      obtain ⟨budget, rfl⟩ :=
        Nat.exists_eq_succ_of_ne_zero (by omega : budget ≠ 0)
      have hlength : label.length = len.toNat := by
        have := slice?_length hlabel
        omega
      have hrest := @ih fuel budget
        { labels with
          len := labels.len + (1 + label.length)
          offset := labels.offset + 1 + label.length }
        (by rw [hlength]) hdone hhops (by simp only; omega) (by omega)
        (by omega)
      have hlimit : ¬ labels.len + (1 + label.length) ≥ maxNameLen := by omega
      simp only [Labels.collect_succ payload fuel budget hdone, hoctet, htag,
        hlabel, if_neg hlimit, hrest, bind, Except.bind]
      congr 2
      omega
  | @pointer offset hops len low names hoctet htag hlow _ ih =>
      subst hoffset
      obtain ⟨fuel, rfl⟩ := Nat.exists_eq_succ_of_ne_zero (by omega : fuel ≠ 0)
      obtain ⟨budget, rfl⟩ :=
        Nat.exists_eq_succ_of_ne_zero (by omega : budget ≠ 0)
      have hrest := @ih (fuel + 1) budget
        { labels with
          hops := labels.hops + 1
          offset := pointerTarget len low }
        rfl hdone (by simp only; omega) hlen hfuel (by omega)
      have hlimit : ¬ labels.hops + 1 > maxPointerHops := by omega
      simp only [Labels.collect_succ payload fuel budget hdone, hoctet, htag,
        hlow, if_neg hlimit, hrest]
      congr 2
      omega

/-- The name at `offset` spells out `labels` within the limits every walk
puts on a name. -/
def Readable (payload : Bytes) (offset : Nat) (labels : List Bytes) : Prop :=
  ∃ hops, Spells payload offset hops labels ∧ hops ≤ maxPointerHops ∧
    octets labels < maxNameLen

theorem Readable.nameAt {payload : Bytes} {offset : Nat} {labels : List Bytes}
    (h : Readable payload offset labels) : NameAt payload offset labels := by
  obtain ⟨hops, hspells, _⟩ := h
  exact ⟨hops, hspells⟩

theorem readName_readable {payload : Bytes} {offset : Nat}
    {budget budget' : Nat} {labels : List Bytes}
    (h : readName payload offset budget = .ok (labels, budget')) :
    Readable payload offset labels := by
  unfold Readable
  simpa [Labels.new] using
    Labels.collect_spells h rfl (Nat.zero_le _)
      (show 0 < maxNameLen by decide)

structure Visits (payload : Bytes) (steps : Nat) (visited : List Nat) :
    Prop where
  nodup : visited.Nodup
  length : visited.length = steps + 1
  ends : ∀ offset ∈ visited, ∃ hops labels,
    Spells payload offset hops labels ∧ labels.length + hops ≤ steps

theorem Visits.cons {payload : Bytes} {offset hops steps : Nat}
    {labels : List Bytes} {visited : List Nat}
    (hspells : Spells payload offset hops labels)
    (hsteps : labels.length + hops = steps + 1)
    (h : Visits payload steps visited) :
    Visits payload (steps + 1) (offset :: visited) := by
  refine ⟨List.nodup_cons.mpr ⟨fun hmem => ?_, h.nodup⟩,
    by simp [h.length], fun other hmem => ?_⟩
  · obtain ⟨hops', labels', hspells', hle⟩ := h.ends offset hmem
    obtain ⟨rfl, rfl⟩ := hspells.unique hspells'
    omega
  · rcases List.mem_cons.mp hmem with rfl | hmem
    · exact ⟨hops, labels, hspells, by omega⟩
    · obtain ⟨hops', labels', hspells', hle⟩ := h.ends other hmem
      exact ⟨hops', labels', hspells', by omega⟩

theorem Spells.visits {payload : Bytes} {offset hops : Nat}
    {labels : List Bytes} (h : Spells payload offset hops labels) :
    ∃ visited, Visits payload (labels.length + hops) visited := by
  induction h with
  | @root offset len hlen htag =>
      refine ⟨[offset], by simp, rfl, fun other hmem => ?_⟩
      rw [List.mem_singleton.mp hmem]
      exact ⟨0, [], .root hlen htag, Nat.le_refl _⟩
  | @plain offset hops len label labels hlen htag hlabel hrest ih =>
      obtain ⟨visited, hvisits⟩ := ih
      have hnext := hvisits.cons (.plain hlen htag hlabel hrest) (by simp; omega)
      refine ⟨offset :: visited, ?_⟩
      rwa [show (label :: labels).length + hops = labels.length + hops + 1 by
        simp; omega]
  | pointer hlen htag hlow hrest ih =>
      obtain ⟨visited, hvisits⟩ := ih
      exact ⟨_, hvisits.cons (.pointer hlen htag hlow hrest) rfl⟩

theorem Spells.steps_le {payload : Bytes} {offset hops : Nat}
    {labels : List Bytes} (h : Spells payload offset hops labels) :
    labels.length + hops + 1 ≤ payload.length := by
  obtain ⟨visited, hvisits⟩ := h.visits
  have hsub : visited ⊆ List.range payload.length := by
    intro other hmem
    obtain ⟨_, _, hspells, _⟩ := hvisits.ends other hmem
    exact List.mem_range.mpr hspells.offset_lt
  have hle := (List.subperm_of_subset hvisits.nodup hsub).length_le
  rwa [List.length_range, hvisits.length] at hle

theorem Readable.readName {payload : Bytes} {offset : Nat}
    {labels : List Bytes} (h : Readable payload offset labels) {budget : Nat}
    (hbudget : payload.length ≤ budget) :
    ∃ budget', Mdns.readName payload offset budget = .ok (labels, budget') ∧
      budget ≤ budget' + payload.length := by
  obtain ⟨hops, hspells, hhops, hoctets⟩ := h
  have hsteps := hspells.steps_le
  exact ⟨_, hspells.collect rfl rfl (by simpa [Labels.new] using hhops)
    (by simpa [Labels.new] using hoctets) (by omega) (by omega), by omega⟩

theorem checkName_readable {payload : Bytes} {offset budget budget' : Nat}
    (h : checkName payload offset budget = .ok budget') :
    ∃ labels, Readable payload offset labels := by
  unfold checkName at h
  cases hread : readName payload offset budget with
  | error e => simp [hread, bind, Except.bind] at h
  | ok result => exact ⟨result.1, readName_readable hread⟩

theorem skipNameFrom_inline {payload : Bytes} {rounds offset stop : Nat}
    (h : skipNameFrom payload rounds offset = some stop) :
    Inline payload offset stop := by
  induction rounds generalizing offset with
  | zero => cases h
  | succ rounds ih =>
      simp only [skipNameFrom] at h
      split at h
      · cases h
      rename_i len hlen
      split at h
      · rename_i htag
        cases h
        exact .root hlen htag
      · rename_i htag
        exact .plain hlen htag (ih h)
      · rename_i htag
        obtain ⟨low, hlow, rfl⟩ := Option.map_eq_some_iff.mp h
        exact .pointer hlen htag hlow
      · cases h

theorem Inline.skipNameFrom {payload : Bytes} {offset stop : Nat}
    (h : Inline payload offset stop) {rounds : Nat}
    (hrounds : payload.length - offset < rounds) :
    skipNameFrom payload rounds offset = some stop := by
  induction h generalizing rounds with
  | root hlen htag =>
      obtain ⟨rounds, rfl⟩ :=
        Nat.exists_eq_succ_of_ne_zero (by omega : rounds ≠ 0)
      simp [Mdns.skipNameFrom, hlen, htag]
  | plain hlen htag _ ih =>
      obtain ⟨rounds, rfl⟩ :=
        Nat.exists_eq_succ_of_ne_zero (by omega : rounds ≠ 0)
      have hlt := (List.getElem?_eq_some_iff.mp hlen).1
      simp only [Mdns.skipNameFrom, hlen, htag]
      exact ih (by omega)
  | pointer hlen htag hlow =>
      obtain ⟨rounds, rfl⟩ :=
        Nat.exists_eq_succ_of_ne_zero (by omega : rounds ≠ 0)
      simp [Mdns.skipNameFrom, hlen, htag, hlow]

theorem skipName_eq_some_iff {payload : Bytes} {offset stop : Nat} :
    skipName payload offset = some stop ↔ Inline payload offset stop :=
  ⟨skipNameFrom_inline, fun h => h.skipNameFrom (by omega)⟩

theorem Inline.bounds {payload : Bytes} {offset stop : Nat}
    (h : Inline payload offset stop) :
    offset < stop ∧ stop ≤ payload.length := by
  induction h with
  | root hlen _ =>
      have := (List.getElem?_eq_some_iff.mp hlen).1
      omega
  | plain _ _ _ ih => omega
  | pointer _ _ hlow =>
      have := (List.getElem?_eq_some_iff.mp hlow).1
      omega

/-! ## Entries and messages -/

inductive RdataPart where
  | raw (bytes : Bytes)
  | name (labels : List Bytes)
  deriving DecidableEq, Repr

/-- An entry's meaning.  `fields` holds TYPE and CLASS, and a record's TTL. -/
structure Record where
  owner : List Bytes
  fields : Bytes
  rdata : List RdataPart
  deriving DecidableEq, Repr

def Entry.fieldsStop (entry : Entry) : Nat :=
  if entry.sect = .question then entry.fixed + 4 else entry.fixed + 8

section Reading

variable (reads : Nat → List Bytes → Prop) (payload : Bytes)

/-- The names `names` lie back to back from `offset` up to `stop`, each read
as `reads` says. -/
inductive NamesWith : Nat → List (List Bytes) → Nat → Prop
  | nil {offset : Nat} : NamesWith offset [] offset
  | cons {offset next stop : Nat} {labels : List Bytes}
      {names : List (List Bytes)} :
      reads offset labels → Inline payload offset next →
      NamesWith next names stop →
      NamesWith offset (labels :: names) stop

def RdataWith (entry : Entry) (parts : List RdataPart) : Prop :=
  match entry.rdataNames with
  | none => ∃ bytes, slice? payload entry.rdata entry.stop = some bytes ∧
      parts = [.raw bytes]
  | some names => ∃ lead labels next tail,
      slice? payload entry.rdata (entry.rdata + names.offset) = some lead ∧
      labels.length = names.count ∧
      NamesWith reads payload (entry.rdata + names.offset) labels next ∧
      slice? payload next entry.stop = some tail ∧
      parts = .raw lead :: (labels.map .name ++ [.raw tail])

structure DecodesWith (entry : Entry) (record : Record) : Prop where
  owner : reads entry.name record.owner
  fields : slice? payload entry.fixed entry.fieldsStop = some record.fields
  rdata : RdataWith reads payload entry record.rdata

end Reading

abbrev Decodes (payload : Bytes) : Entry → Record → Prop :=
  DecodesWith (NameAt payload) payload

abbrev DecodesCanonically (payload : Bytes) : Entry → Record → Prop :=
  DecodesWith (Canonical payload) payload

theorem Inline.unique {payload : Bytes} {offset stop stop' : Nat}
    (h : Inline payload offset stop) (h' : Inline payload offset stop') :
    stop = stop' := by
  have hskip := skipName_eq_some_iff.mpr h
  rw [skipName_eq_some_iff.mpr h'] at hskip
  exact (Option.some.inj hskip).symm

theorem NamesWith.unique {payload : Bytes} {offset stop stop' : Nat}
    {names names' : List (List Bytes)}
    (h : NamesWith (NameAt payload) payload offset names stop)
    (h' : NamesWith (NameAt payload) payload offset names' stop')
    (hlength : names.length = names'.length) :
    names = names' ∧ stop = stop' := by
  induction h generalizing names' with
  | nil =>
      cases h' with
      | nil => exact ⟨rfl, rfl⟩
      | cons => simp at hlength
  | cons hname hinline _ ih =>
      cases h' with
      | nil => simp at hlength
      | cons hname' hinline' hrest' =>
          cases hname.unique hname'
          cases hinline.unique hinline'
          obtain ⟨rfl, rfl⟩ := ih hrest' (by simpa using hlength)
          exact ⟨rfl, rfl⟩

theorem NamesWith.le {reads : Nat → List Bytes → Prop} {payload : Bytes}
    {offset stop : Nat} {names : List (List Bytes)}
    (h : NamesWith reads payload offset names stop) : offset ≤ stop := by
  induction h with
  | nil => exact Nat.le_refl _
  | cons _ hinline _ ih =>
      have := hinline.bounds
      omega

theorem NamesWith.lt {reads : Nat → List Bytes → Prop} {payload : Bytes}
    {offset stop : Nat} {names : List (List Bytes)}
    (h : NamesWith reads payload offset names stop)
    (hnames : 0 < names.length) : offset < stop := by
  cases h with
  | nil => simp at hnames
  | cons _ hinline hrest =>
      have hfirst := hinline.bounds
      have hrest := hrest.le
      omega

theorem Decodes.unique {payload : Bytes} {entry : Entry}
    {record record' : Record} (h : Decodes payload entry record)
    (h' : Decodes payload entry record') : record = record' := by
  obtain ⟨owner, fields, rdata⟩ := record
  obtain ⟨owner', fields', rdata'⟩ := record'
  cases h.owner.unique h'.owner
  have hfields := h.fields
  rw [h'.fields] at hfields
  cases hfields
  have hrdata := h.rdata
  have hrdata' := h'.rdata
  unfold RdataWith at hrdata hrdata'
  split at hrdata
  · rename_i hnone
    simp only [hnone] at hrdata'
    obtain ⟨bytes, hbytes, rfl⟩ := hrdata
    obtain ⟨bytes', hbytes', rfl⟩ := hrdata'
    rw [hbytes] at hbytes'
    cases hbytes'
    rfl
  · rename_i names hsome
    simp only [hsome] at hrdata'
    obtain ⟨lead, labels, next, tail, hlead, hcount, hnames, htail, rfl⟩ :=
      hrdata
    obtain ⟨lead', labels', next', tail', hlead', hcount', hnames', htail',
      rfl⟩ := hrdata'
    rw [hlead] at hlead'
    cases hlead'
    obtain ⟨rfl, rfl⟩ := hnames.unique hnames' (hcount.trans hcount'.symm)
    rw [htail] at htail'
    cases htail'
    rfl

structure Entry.WellPlaced (payload : Bytes) (entry : Entry) : Prop where
  inline : Inline payload entry.name entry.fixed
  rtype : be16At payload entry.fixed = some entry.rtype
  stop_le : entry.stop ≤ payload.length
  rdata_le : entry.rdata ≤ entry.stop
  question : entry.sect = .question →
    entry.rdata = entry.fixed + 4 ∧ entry.stop = entry.fixed + 4
  record : entry.sect ≠ .question → entry.rdata = entry.fixed + 10 ∧
    be16At payload (entry.fixed + 8) = some (entry.stop - entry.rdata)

theorem Entry.WellPlaced.name_lt_stop {payload : Bytes} {entry : Entry}
    (h : entry.WellPlaced payload) : entry.name < entry.stop := by
  have hinline := h.inline.bounds
  have hle := h.rdata_le
  by_cases hsect : entry.sect = .question
  · have := h.question hsect
    omega
  · have := (h.record hsect).1
    omega

theorem entryAt_eq_ok_iff {payload : Bytes} {sect : Section} {offset : Nat}
    {entry : Entry} :
    entryAt payload sect offset = .ok entry ↔
      entry.WellPlaced payload ∧ entry.name = offset ∧ entry.sect = sect := by
  constructor
  · intro h
    unfold entryAt at h
    split at h
    · cases h
    rename_i fixed hfixed
    have hinline := skipName_eq_some_iff.mp hfixed
    split at h
    · rename_i hsect
      split at h
      · rename_i rtype _ hrtype hslice
        cases h
        have hbounds := slice?_eq_some_iff.mp hslice
        exact ⟨⟨hinline, hrtype, hbounds.2.1, Nat.le_refl _,
          fun _ => ⟨rfl, rfl⟩, fun hne => absurd hsect hne⟩, rfl, rfl⟩
      · cases h
    · rename_i hsect
      split at h
      · rename_i rtype _ length hrtype hslice hlength
        simp only at h
        split at h
        · cases h
        rename_i hstop
        cases h
        refine ⟨⟨hinline, hrtype, by simpa using hstop, by simp,
          fun heq => absurd heq hsect, fun _ => ⟨rfl, ?_⟩⟩, rfl, rfl⟩
        simpa using hlength
      · cases h
  · rintro ⟨hplaced, rfl, rfl⟩
    obtain ⟨sect, name, fixed, rtype, rdata, stop⟩ := entry
    have hinline := skipName_eq_some_iff.mpr hplaced.inline
    have hrtype := hplaced.rtype
    have hstop := hplaced.stop_le
    have hrdata := hplaced.rdata_le
    simp only at hinline hrtype hstop hrdata
    unfold entryAt
    simp only [hinline, hrtype]
    by_cases hsect : sect = .question
    · have hquestion := hplaced.question hsect
      simp only at hquestion
      obtain ⟨rfl, rfl⟩ := hquestion
      obtain ⟨part, hpart⟩ := slice?_isSome payload (Nat.le_add_right fixed 4) hstop
      simp [hsect, hpart]
    · have hrecord := hplaced.record hsect
      simp only at hrecord
      obtain ⟨rfl, hlength⟩ := hrecord
      obtain ⟨part, hpart⟩ := slice?_isSome payload
        (Nat.le_add_right fixed 10) (by omega)
      have hsum : fixed + 10 + (stop - (fixed + 10)) = stop := by omega
      have hle : ¬ stop > payload.length := by omega
      simp [hsect, hpart, hlength, hsum, hle]

end Netflector.Net.Mdns
