import Netflector.Net.Address
import Netflector.Net.Mdns.AllowList

/-!
# Advertised addresses

The addresses an mDNS response advertises.  One that offers a usable address
and an unreachable one loses the unreachable ones; when that leaves no answer,
the usable addresses move into the answer section.
-/

namespace Netflector.Net.Mdns

open Netflector.Foundation

def typeA : Nat := 1
def typeAaaa : Nat := 28

/-- Link-local, valid only on the link it came from, or never a peer. -/
def isUnreachable (ip : IpAddr) : Bool := isLinkLocal ip || isNeverAPeer ip

def address (payload : Bytes) (entry : Entry) : Option IpAddr :=
  match slice? payload entry.rdata entry.stop with
  | none => none
  | some rdata =>
      if entry.rtype = typeA then (Ipv4Addr.ofBytes? rdata).map .v4
      else if entry.rtype = typeAaaa then (Ipv6Addr.ofBytes? rdata).map .v6
      else none

structure Advertised where
  usable : Bool
  unreachable : Bool
  deriving DecidableEq, Repr

def Advertised.note (payload : Bytes) (advertised : Advertised)
    (entry : Entry) : Advertised :=
  let ip := address payload entry
  let unreachable := ip.any isUnreachable
  { usable := advertised.usable || (ip.isSome && !unreachable)
    unreachable := advertised.unreachable || unreachable }

def advertised (payload : Bytes) : Except Malformed Advertised := do
  let walked ← entries payload
  .ok (walked.foldl (Advertised.note payload) ⟨false, false⟩)

def unreachableAt (payload : Bytes) (entry : Entry) : Bool :=
  (address payload entry).any isUnreachable

def usableAt (payload : Bytes) (entry : Entry) : Bool :=
  (address payload entry).any fun ip => !isUnreachable ip

def keepReachable (payload : Bytes) : Keep := fun entry budget =>
  .ok (!unreachableAt payload entry, budget)

/-- `payload` without its unreachable address records, and how many those
were.  `none` leaves it as it is. -/
def AddressFilter.strip (payload : Bytes) : Option (Bytes × Nat) :=
  match advertised payload with
  | .error _ => none
  | .ok advertised =>
      if !(advertised.usable && advertised.unreachable) then none
      else
        match trim payload (keepReachable payload) (usableAt payload) with
        | .ok stripped => some stripped
        | .error _ => none

/-! ## What an entry advertises -/

theorem foldl_note (payload : Bytes) (walked : List Entry)
    (start : Advertised) :
    walked.foldl (Advertised.note payload) start =
      ⟨start.usable || walked.any (usableAt payload),
        start.unreachable || walked.any (unreachableAt payload)⟩ := by
  induction walked generalizing start with
  | nil => simp
  | cons entry walked ih =>
      rw [List.foldl_cons, ih]
      simp only [Advertised.note, usableAt, unreachableAt, List.any_cons,
        Advertised.mk.injEq, Bool.or_assoc, and_true]
      congr 2
      cases address payload entry <;> simp

theorem advertised_eq_ok {payload : Bytes} {walked : List Entry}
    (h : entries payload = .ok walked) :
    advertised payload = .ok ⟨walked.any (usableAt payload),
      walked.any (unreachableAt payload)⟩ := by
  simp [advertised, h, bind, Except.bind, foldl_note]

theorem strip_eq_some {payload out : Bytes} {removed : Nat}
    (h : AddressFilter.strip payload = some (out, removed)) :
    ∃ walked, entries payload = .ok walked ∧
      walked.any (usableAt payload) = true ∧
      walked.any (unreachableAt payload) = true ∧
      trim payload (keepReachable payload) (usableAt payload) =
        .ok (out, removed) := by
  unfold AddressFilter.strip at h
  cases hwalk : entries payload with
  | error e => simp [advertised, hwalk, bind, Except.bind] at h
  | ok walked =>
      simp only [advertised_eq_ok hwalk] at h
      split at h
      · cases h
      rename_i hboth
      split at h
      · rename_i stripped htrim
        cases h
        simp only [Bool.not_eq_true, Bool.not_eq_false',
          Bool.and_eq_true] at hboth
        exact ⟨walked, rfl, hboth.1, hboth.2, htrim⟩
      · cases h

theorem strip_eq_none_iff {payload : Bytes} :
    AddressFilter.strip payload = none ↔
      entries payload = .error ⟨⟩ ∨
      ∃ walked, entries payload = .ok walked ∧
        ((∀ entry ∈ walked, usableAt payload entry = false) ∨
          (∀ entry ∈ walked, unreachableAt payload entry = false) ∨
          trim payload (keepReachable payload) (usableAt payload) =
            .error ⟨⟩) := by
  unfold AddressFilter.strip
  cases hwalk : entries payload with
  | error e => simp [advertised, hwalk, bind, Except.bind]
  | ok walked =>
      have hnone : ∀ test : Entry → Bool,
          (∀ entry ∈ walked, test entry = false) ↔ walked.any test = false := by
        intro test
        simp
      simp only [advertised_eq_ok hwalk, hnone, reduceCtorEq, Except.ok.injEq,
        exists_eq_left', false_or]
      cases walked.any (usableAt payload) <;>
        cases walked.any (unreachableAt payload) <;>
        cases trim payload (keepReachable payload) (usableAt payload) <;> simp

/-! ## Addresses survive recompression -/

def Record.address (record : Record) : Option IpAddr :=
  match be16At record.fields 0, record.rdata with
  | some rtype, [.raw rdata] =>
      if rtype = typeA then (Ipv4Addr.ofBytes? rdata).map .v4
      else if rtype = typeAaaa then (Ipv6Addr.ofBytes? rdata).map .v6
      else none
  | _, _ => none

theorem DecodesWith.address {reads : Nat → List Bytes → Prop}
    {payload : Bytes} {entry : Entry} {record : Record}
    (h : DecodesWith reads payload entry record)
    (hplaced : entry.WellPlaced payload) :
    Mdns.address payload entry = record.address := by
  have hrtype := h.rtype hplaced
  have hrdata := h.rdata
  obtain ⟨span, hspan⟩ := slice?_isSome payload hplaced.rdata_le hplaced.stop_le
  unfold RdataWith at hrdata
  unfold Mdns.address Record.address
  simp only [hspan, hrtype]
  split at hrdata
  · obtain ⟨bytes, hbytes, hparts⟩ := hrdata
    rw [hspan] at hbytes
    cases hbytes
    simp only [hparts]
  · rename_i names hsome
    obtain ⟨htable, _⟩ := Entry.rdataNames_eq_some_iff.mp hsome
    obtain ⟨lead, labels, next, tail, _, _, _, _, hparts⟩ := hrdata
    -- The types with names in their rdata are not the address types.
    have hA : entry.rtype ≠ typeA := by
      intro heq
      rw [heq] at htable
      cases htable
    have hAaaa : entry.rtype ≠ typeAaaa := by
      intro heq
      rw [heq] at htable
      cases htable
    rw [if_neg hA, if_neg hAaaa]
    split
    · rename_i heq _
      cases heq
      rw [if_neg hA, if_neg hAaaa]
    · rfl

theorem Copied.address {payload out : Bytes} {copy : Entry}
    {placement : Placement} (h : Copied payload out copy placement)
    (hentry : placement.entry.WellPlaced payload)
    (hcopy : copy.WellPlaced out) :
    Mdns.address out copy = Mdns.address payload placement.entry := by
  obtain ⟨record, hdecodes, hcopied⟩ := h.same
  rw [hdecodes.address hentry, hcopied.address hcopy]

theorem usableAt_not_unreachableAt {payload : Bytes} {entry : Entry}
    (h : usableAt payload entry = true) : unreachableAt payload entry = false := by
  unfold usableAt at h
  unfold unreachableAt
  cases haddress : address payload entry with
  | none => rfl
  | some ip => simpa [haddress] using h

theorem usableAt_ne_question {payload : Bytes} {entry : Entry}
    (hplaced : entry.WellPlaced payload)
    (h : usableAt payload entry = true) : entry.sect ≠ .question := by
  intro hsect
  obtain ⟨hrdata, hstop⟩ := hplaced.question hsect
  have hempty : slice? payload entry.rdata entry.stop = some [] := by
    rw [slice?_eq_some_iff]
    exact ⟨by omega, hplaced.stop_le, by simp [hrdata, hstop]⟩
  have hnone : address payload entry = none := by
    simp [address, hempty, Ipv4Addr.ofBytes?, Ipv6Addr.ofBytes?]
  simp [usableAt, hnone] at h

theorem strip_trimmed {payload out : Bytes} {removed : Nat}
    (h : AddressFilter.strip payload = some (out, removed)) :
    ∃ walked copies records, entries payload = .ok walked ∧
      Trimmed payload out
        (planned (fun entry => !unreachableAt payload entry)
          (usableAt payload) walked) copies records ∧
      (∃ copy ∈ copies, copy.sect = .answer) ∧
      (∃ copy ∈ copies, usableAt out copy = true) ∧
      ∀ copy ∈ copies, unreachableAt out copy = false := by
  obtain ⟨walked, hwalk, husable, _, htrim⟩ := strip_eq_some h
  obtain ⟨walked', accept, state, hwalk', hfollowed, _, rfl, _, hsects⟩ :=
    trim_followed htrim
  rw [hwalk] at hwalk'
  cases hwalk'
  have haccept : ∀ entry ∈ walked,
      asked (refilledBy accept walked) (usableAt payload) entry = true →
      accept entry = !unreachableAt payload entry := by
    intro entry hmem hasked
    obtain ⟨budget, budget', hkeep⟩ := hfollowed.verdict entry hmem hasked
    simp only [keepReachable, Except.ok.injEq, Prod.mk.injEq] at hkeep
    exact hkeep.1.symm
  obtain ⟨copies, records, htrimmed⟩ := hfollowed.trimmed hsects
  rw [planned_congr haccept] at htrimmed
  have hplaced := entries_wellPlaced hwalk
  have hcopies := entries_wellPlaced htrimmed.walk
  obtain ⟨entry, hmem, hentry⟩ := List.any_eq_true.mp husable
  obtain ⟨⟨placement, hplan, rfl⟩, ⟨answer, hanswer, hsect⟩⟩ :=
    planned_has_answer (fun entry => !unreachableAt payload entry)
      (usableAt payload) hmem
      (usableAt_ne_question (hplaced entry hmem) hentry)
      (by simp [usableAt_not_unreachableAt hentry]) hentry
  refine ⟨walked, copies, records, hwalk, htrimmed, ?_, ?_, ?_⟩
  · obtain ⟨copy, hcopy, hcopied⟩ := htrimmed.image answer hanswer
    exact ⟨copy, hcopy, hcopied.sect.trans hsect⟩
  · obtain ⟨copy, hcopy, hcopied⟩ := htrimmed.image placement hplan
    refine ⟨copy, hcopy, ?_⟩
    rwa [usableAt, hcopied.address (hplaced _ hmem) (hcopies copy hcopy)]
  · intro copy hcopy
    obtain ⟨origin, horigin, hcopied⟩ := htrimmed.origin copy hcopy
    obtain ⟨hwalked, _, hkept⟩ := mem_planned horigin
    rw [unreachableAt, hcopied.address (hplaced _ hwalked) (hcopies copy hcopy)]
    rcases hkept with hreachable | hrefill
    · simpa [unreachableAt] using hreachable
    · exact usableAt_not_unreachableAt hrefill

end Netflector.Net.Mdns
