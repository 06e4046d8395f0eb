import Netflector.Net.Mdns.AllowList

/-!
# The list sees what a message says, not how

Two encodings of one message, however their names are compressed or cased, get
the same verdict, and no earlier message has a part in it.
-/

namespace Netflector.Net.Mdns

open Netflector.Foundation

/-! ## What a message decodes to -/

def foldedName (payload : Bytes) (offset : Nat) :
    Except Malformed (List Bytes) := do
  let (labels, _) ← readName payload offset (budgetForMessage payload)
  .ok (labels.map asciiLower)

def foldedNames (payload : Bytes) :
    Nat → Nat → Except Malformed (List (List Bytes))
  | 0, _ => .ok []
  | count + 1, offset => do
      let name ← foldedName payload offset
      match skipName payload offset with
      | none => .error ⟨⟩
      | some next => do
          let names ← foldedNames payload count next
          .ok (name :: names)

/-- What an entry says, up to the case of its names. -/
structure Meaning where
  sect : Section
  rtype : Nat
  hasRdata : Bool
  owner : List Bytes
  names : List (List Bytes)
  deriving DecidableEq, Repr

def Entry.knownNames (entry : Entry) (payload : Bytes) :
    Except Malformed (List (List Bytes)) :=
  match entry.rdataNames with
  | none => .ok []
  | some names =>
      foldedNames payload names.count (entry.rdata + names.offset)

def Entry.meaning (entry : Entry) (payload : Bytes) :
    Except Malformed Meaning := do
  let owner ← foldedName payload entry.name
  let names ← entry.knownNames payload
  .ok ⟨entry.sect, entry.rtype, entry.rdata < entry.stop, owner, names⟩

def meanings (payload : Bytes) :
    List Entry → Except Malformed (List Meaning)
  | [] => .ok []
  | entry :: rest => do
      let meaning ← entry.meaning payload
      let others ← meanings payload rest
      .ok (meaning :: others)

def decodedMessage (payload : Bytes) :
    Except Malformed (MdnsKind × List Meaning) :=
  match classify payload with
  | none => .error ⟨⟩
  | some kind => do
      let walked ← entries payload
      let decoded ← meanings payload walked
      .ok (kind, decoded)

/-! ## Names up to case -/

def lowerService (service : Service) : Service :=
  (asciiLower service.1, service.2)

@[simp] theorem eqIgnoreAsciiCase_lower (first second : Bytes) :
    eqIgnoreAsciiCase first (asciiLower second) =
      eqIgnoreAsciiCase first second := by
  simp only [eqIgnoreAsciiCase, asciiLower_idem]

@[simp] theorem lower_eqIgnoreAsciiCase (first second : Bytes) :
    eqIgnoreAsciiCase (asciiLower first) second =
      eqIgnoreAsciiCase first second := by
  simp only [eqIgnoreAsciiCase, asciiLower_idem]

@[simp] theorem fromLabel_lower (label : Bytes) :
    Proto.fromLabel (asciiLower label) = Proto.fromLabel label := by
  simp only [Proto.fromLabel, lower_eqIgnoreAsciiCase]

theorem toAsciiLower_eq_underscore (octet : UInt8) :
    toAsciiLower octet = underscore ↔ octet = underscore := by
  unfold toAsciiLower
  by_cases h : 0x41 ≤ octet ∧ octet ≤ 0x5a
  · rw [if_pos h, underscore]
    simp only [UInt8.le_iff_toNat_le, ← UInt8.toNat_inj,
      UInt8.toNat_add] at h ⊢
    simp at h ⊢
    omega
  · rw [if_neg h]

theorem strippedService_lower (label : Bytes) :
    strippedService (asciiLower label) =
      (strippedService label).map asciiLower := by
  cases label with
  | nil => rfl
  | cons first service =>
      have hlower : asciiLower (first :: service) =
          toAsciiLower first :: asciiLower service := rfl
      rw [hlower]
      simp only [strippedService, toAsciiLower_eq_underscore,
        lower_eqIgnoreAsciiCase]
      split <;> rfl

def ServiceScan.lower (scan : ServiceScan) : ServiceScan :=
  ⟨scan.previous.map asciiLower, scan.found.map lowerService⟩

theorem ServiceScan.step_lower (scan : ServiceScan) (label : Bytes) :
    scan.lower.step (asciiLower label) = (scan.step label).lower := by
  obtain ⟨previous, found⟩ := scan
  cases previous with
  | none => rfl
  | some previous =>
      simp only [ServiceScan.lower, ServiceScan.step, Option.map_some, bind,
        Option.bind_some, fromLabel_lower, strippedService_lower]
      cases Proto.fromLabel label with
      | none => rfl
      | some proto =>
          cases strippedService previous with
          | none => rfl
          | some service => rfl

theorem foldl_step_lower (labels : List Bytes) (scan : ServiceScan) :
    (labels.map asciiLower).foldl ServiceScan.step scan.lower =
      (labels.foldl ServiceScan.step scan).lower := by
  induction labels generalizing scan with
  | nil => rfl
  | cons label labels ih =>
      rw [List.map_cons, List.foldl_cons, ServiceScan.step_lower, ih,
        List.foldl_cons]

theorem serviceOfLabels_lower (labels : List Bytes) :
    serviceOfLabels (labels.map asciiLower) =
      (serviceOfLabels labels).map lowerService := by
  have hstart : (⟨none, none⟩ : ServiceScan) =
      (⟨none, none⟩ : ServiceScan).lower := rfl
  rw [serviceOfLabels, hstart, foldl_step_lower]
  rfl

theorem allows_lower (allowed : List ServiceType) (service : Service) :
    allows allowed (lowerService service) = allows allowed service := by
  simp only [allows, lowerService, eqIgnoreAsciiCase_lower]

theorem fromWire_lower (service : Bytes) (proto : Proto) :
    ServiceType.fromWire (asciiLower service) proto =
      ServiceType.fromWire service proto := by
  simp only [ServiceType.fromWire, asciiLower_length, asciiLower_idem]

theorem noteRefused_lower (refused : List ServiceType) (service : Service) :
    noteRefused refused (lowerService service) =
      noteRefused refused service := by
  simp only [noteRefused, lowerService, fromWire_lower]

theorem Tally.note_lower (allowed : List ServiceType) (answer : Bool)
    (tally : Tally) (service : Option Service) :
    tally.note allowed answer (service.map lowerService) =
      tally.note allowed answer service := by
  cases service with
  | none => rfl
  | some service =>
      simp only [Option.map_some, Tally.note, allows_lower, noteRefused_lower]

/-! ## The verdict as a function of the meaning -/

def Meaning.service (meaning : Meaning) : Option Service :=
  if meaning.rtype = typePtr ∧ meaning.hasRdata then
    (serviceOfLabels (meaning.names.headD [])).or
      (serviceOfLabels meaning.owner)
  else serviceOfLabels meaning.owner

def Meaning.judged (kind : MdnsKind) (meaning : Meaning) : Bool :=
  match kind with
  | .query => meaning.sect == .question
  | .response => meaning.sect != .question

def tallyMeanings (allowed : List ServiceType) (kind : MdnsKind) :
    List Meaning → Tally → Tally
  | [], tally => tally
  | meaning :: rest, tally =>
      tallyMeanings allowed kind rest
        (if meaning.judged kind then
          tally.note allowed (meaning.sect == .answer) meaning.service
        else tally)

def verdictOn (allowed : List ServiceType)
    (decoded : MdnsKind × List Meaning) : Scope × List ServiceType :=
  let tally := tallyMeanings allowed decoded.1 decoded.2 .start
  (tally.scope decoded.1, tally.refused)

theorem Readable.foldedName {payload : Bytes} {offset : Nat}
    {labels : List Bytes} (h : Readable payload offset labels) :
    Mdns.foldedName payload offset = .ok (labels.map asciiLower) := by
  have hbudget : payload.length ≤ budgetForMessage payload := by
    simp only [budgetForMessage, stepsPerByte]
    omega
  obtain ⟨left, hread, _⟩ := h.readName hbudget
  simp only [Mdns.foldedName, hread, bind, Except.bind]

theorem readable_of_checkName {payload : Bytes} {offset budget left : Nat}
    (h : checkName payload offset budget = .ok left) :
    ∃ labels, Readable payload offset labels ∧
      foldedName payload offset = .ok (labels.map asciiLower) := by
  obtain ⟨labels, hreadable⟩ := checkName_readable h
  exact ⟨labels, hreadable, hreadable.foldedName⟩

theorem foldedNames_of_check {payload : Bytes} {stop count : Nat}
    {offset budget left : Nat}
    (h : checkRdataNames payload stop count offset budget = .ok left) :
    ∃ names, foldedNames payload count offset = .ok names := by
  induction count generalizing offset budget with
  | zero => exact ⟨[], rfl⟩
  | succ count ih =>
      simp only [checkRdataNames, bind, Except.bind] at h
      split at h
      · cases h
      · rename_i spent hcheck
        obtain ⟨labels, _, hname⟩ := readable_of_checkName hcheck
        split at h
        · cases h
        · rename_i next hskip
          split at h
          · cases h
          · obtain ⟨names, hnames⟩ := ih h
            refine ⟨labels.map asciiLower :: names, ?_⟩
            simp only [foldedNames, hname, hskip, hnames, bind, Except.bind]

theorem meaning_of_check {payload : Bytes} {entry : Entry}
    {budget left : Nat} (h : entry.checkNames payload budget = .ok left) :
    ∃ owner names, Readable payload entry.name owner ∧
      entry.knownNames payload = .ok names ∧
      entry.meaning payload = .ok ⟨entry.sect, entry.rtype,
        entry.rdata < entry.stop, owner.map asciiLower, names⟩ := by
  simp only [Entry.checkNames, bind, Except.bind] at h
  split at h
  · cases h
  · rename_i spent hcheck
    obtain ⟨owner, hreadable, hname⟩ := readable_of_checkName hcheck
    have hknown : ∃ names, entry.knownNames payload = .ok names := by
      rw [Entry.knownNames]
      split
      · exact ⟨[], rfl⟩
      · rename_i names hnames
        rw [hnames] at h
        exact foldedNames_of_check h
    obtain ⟨names, hknown⟩ := hknown
    refine ⟨owner, names, hreadable, hknown, ?_⟩
    simp only [Entry.meaning, hname, hknown, bind, Except.bind]

theorem Readable.unique {payload : Bytes} {offset : Nat}
    {first second : List Bytes} (h : Readable payload offset first)
    (h' : Readable payload offset second) : first = second :=
  h.nameAt.unique h'.nameAt

theorem knownNames_ptr {payload : Bytes} {entry : Entry}
    {names : List (List Bytes)} {target : List Bytes}
    (hptr : entry.rtype = typePtr ∧ entry.rdata < entry.stop)
    (htarget : Readable payload entry.rdata target)
    (h : entry.knownNames payload = .ok names) :
    names = [target.map asciiLower] := by
  have hnames : entry.rdataNames = some ⟨0, 1⟩ := by
    rw [Entry.rdataNames, hptr.1, Option.filter_eq_some_iff]
    exact ⟨rfl, decide_eq_true hptr.2⟩
  simp only [Entry.knownNames, hnames, Nat.add_zero, foldedNames,
    htarget.foldedName, bind, Except.bind] at h
  split at h
  · cases h
  · cases h
    rfl

theorem service_of_meaning {payload : Bytes} {entry : Entry}
    {budget left : Nat} {service : Option Service} {owner : List Bytes}
    {names : List (List Bytes)}
    (hservice : entryService entry payload budget = .ok (service, left))
    (howner : Readable payload entry.name owner)
    (hknown : entry.knownNames payload = .ok names) :
    (⟨entry.sect, entry.rtype, entry.rdata < entry.stop,
      owner.map asciiLower, names⟩ : Meaning).service =
        service.map lowerService := by
  have hspelled := entryService_spelled hservice
  rw [ServiceSpelled] at hspelled
  simp only [Meaning.service, decide_eq_true_eq]
  split at hspelled
  · rename_i hptr
    rw [if_pos hptr]
    obtain ⟨target, htarget, hcases⟩ := hspelled
    have hnames := knownNames_ptr hptr htarget hknown
    rw [hnames, List.headD_cons, serviceOfLabels_lower, serviceOfLabels_lower]
    rcases hcases with ⟨hfound, hsome⟩ | ⟨hnone, other, hother, hfound⟩
    · obtain ⟨found, rfl⟩ := Option.isSome_iff_exists.mp hsome
      rw [hfound]
      rfl
    · rw [hnone, howner.unique hother, hfound]
      rfl
  · rename_i hptr
    rw [if_neg hptr, serviceOfLabels_lower]
    obtain ⟨other, hother, hfound⟩ := hspelled
    rw [howner.unique hother, hfound]

theorem meanings_cons {payload : Bytes} {entry : Entry} {rest : List Entry}
    {meaning : Meaning} {others : List Meaning}
    (h : entry.meaning payload = .ok meaning)
    (hrest : meanings payload rest = .ok others) :
    meanings payload (entry :: rest) = .ok (meaning :: others) := by
  simp only [meanings, h, hrest, bind, Except.bind]

theorem assessEntries_meanings {payload : Bytes} {allowed : List ServiceType}
    {kind : MdnsKind} {walked : List Entry} {budget : Nat}
    {before after : Tally}
    (h : assessEntries payload allowed kind walked budget before =
      .ok after) :
    ∃ decoded, meanings payload walked = .ok decoded ∧
      after = tallyMeanings allowed kind decoded before := by
  induction walked generalizing budget before with
  | nil =>
      cases h
      exact ⟨[], rfl, rfl⟩
  | cons entry walked ih =>
      simp only [assessEntries, bind, Except.bind] at h
      split at h
      · cases h
      · rename_i left hcheck
        obtain ⟨owner, names, howner, hknown, hmeaning⟩ :=
          meaning_of_check hcheck
        have hjudged : ∀ meaning : Meaning, meaning.sect = entry.sect →
            meaning.judged kind = judged kind entry := by
          intro meaning hsect
          cases kind with
          | query => rw [Meaning.judged, judged, hsect]
          | response => rw [Meaning.judged, judged, hsect]
        split at h
        · rename_i hasked
          split at h
          · cases h
          · rename_i result hservice
            obtain ⟨service, left'⟩ := result
            obtain ⟨decoded, hdecoded, hafter⟩ := ih h
            refine ⟨_, meanings_cons hmeaning hdecoded, ?_⟩
            rw [tallyMeanings, hjudged _ rfl, if_pos hasked,
              service_of_meaning hservice howner hknown, Tally.note_lower]
            exact hafter
        · rename_i hasked
          obtain ⟨decoded, hdecoded, hafter⟩ := ih h
          refine ⟨_, meanings_cons hmeaning hdecoded, ?_⟩
          rw [tallyMeanings, hjudged _ rfl, if_neg hasked]
          exact hafter

theorem assess_verdict {payload : Bytes} {allowed : List ServiceType}
    {verdict : Scope × List ServiceType}
    (h : assess payload allowed = .ok verdict) :
    ∃ decoded, decodedMessage payload = .ok decoded ∧
      verdict = verdictOn allowed decoded := by
  rw [assess] at h
  cases hkind : classify payload with
  | none =>
      rw [hkind] at h
      cases h
  | some kind =>
      simp only [hkind, bind, Except.bind] at h
      split at h
      · cases h
      · rename_i walked hwalk
        split at h
        · cases h
        · rename_i tally htally
          obtain ⟨decoded, hdecoded, rfl⟩ := assessEntries_meanings htally
          refine ⟨(kind, decoded), ?_, ?_⟩
          · simp only [decodedMessage, hkind, hwalk, hdecoded, bind,
              Except.bind]
          · cases h
            rfl

/-! ## Buffers kept between messages -/

/-- A filter with the buffers it reuses. -/
structure KeptFilter where
  allowed : List ServiceType
  trimmer : Trimmer
  refused : List ServiceType

def KeptFilter.new (allowed : List ServiceType) : KeptFilter :=
  ⟨allowed, ⟨[], []⟩, []⟩

def resize (cells : List Nat) (length fill : Nat) : List Nat :=
  cells.take length ++ List.replicate (length - cells.length) fill

def Trimmer.reset (trimmer : Trimmer) (payload header : Bytes) : Trimmer :=
  ⟨trimmer.out.take 0 ++ header,
    resize (trimmer.placed.take 0) payload.length unplaced⟩

def Trimmer.trim (trimmer : Trimmer) (payload : Bytes) (keep : Keep)
    (refill : Entry → Bool) : Except Malformed (Trimmer × Nat) := do
  match slice? payload 0 dnsHeaderLen with
  | none => .error ⟨⟩
  | some header =>
      let walked ← entries payload
      let state ← TrimState.visitAll payload keep refill walked walked
        { trimmer := trimmer.reset payload header
          budget := budgetForMessage payload
          counts := ⟨0, 0, 0, 0⟩
          removed := 0
          answered := false
          refilled := false }
      if state.trimmer.out.length > payload.length then .error ⟨⟩
      else
        .ok ({ state.trimmer with
          out := patchCounts state.counts state.trimmer.out }, state.removed)

def assessInto (payload : Bytes) (allowed refused : List ServiceType) :
    Except Malformed (Scope × List ServiceType) :=
  match classify payload with
  | none => .error ⟨⟩
  | some kind => do
      let walked ← entries payload
      let tally ← assessEntries payload allowed kind walked
        (budgetForMessage payload) { Tally.start with refused := refused }
      .ok (tally.scope kind, tally.refused)

structure Spoiled where
  trimmer : Trimmer
  refused : List ServiceType

def KeptFilter.decide (filter : KeptFilter) (payload : Bytes)
    (spoiled : Spoiled) : Decision × KeptFilter :=
  match assessInto payload filter.allowed (filter.refused.take 0) with
  | .error _ => (.malformed, { filter with refused := spoiled.refused })
  | .ok (.pass, refused) => (.pass, { filter with refused := refused })
  | .ok (.refuse, refused) =>
      (.refuse refused, { filter with refused := refused })
  | .ok (.trim, refused) =>
      match filter.trimmer.trim payload (keepAllowed payload filter.allowed)
          fun _ => false with
      | .ok (trimmer, removed) =>
          (.trim trimmer.out removed refused, ⟨filter.allowed, trimmer, refused⟩)
      | .error _ =>
          (.malformed, ⟨filter.allowed, spoiled.trimmer, refused⟩)

def KeptFilter.after : KeptFilter → List (Bytes × Spoiled) → KeptFilter
  | filter, [] => filter
  | filter, (payload, spoiled) :: history =>
      (filter.decide payload spoiled).2.after history

theorem Trimmer.trim_eq (trimmer : Trimmer) (payload : Bytes) (keep : Keep)
    (refill : Entry → Bool) :
    (trimmer.trim payload keep refill).map
        (fun result => (result.1.out, result.2)) =
      Mdns.trim payload keep refill := by
  simp only [Trimmer.trim, Mdns.trim, Trimmer.reset, resize, List.take_zero,
    List.nil_append, List.take_nil, List.length_nil, Nat.sub_zero]
  cases slice? payload 0 dnsHeaderLen with
  | none => rfl
  | some header =>
      simp only [bind, Except.bind]
      cases entries payload with
      | error fault => rfl
      | ok walked =>
          simp only
          cases TrimState.visitAll payload keep refill walked walked
            ⟨⟨header, List.replicate payload.length unplaced⟩,
              budgetForMessage payload, ⟨0, 0, 0, 0⟩, 0, false, false⟩ with
          | error fault => rfl
          | ok state =>
              simp only
              split <;> rfl

theorem assessInto_eq (payload : Bytes) (allowed refused : List ServiceType) :
    assessInto payload allowed (refused.take 0) = assess payload allowed :=
  rfl

theorem KeptFilter.decide_eq (filter : KeptFilter) (payload : Bytes)
    (spoiled : Spoiled) :
    (filter.decide payload spoiled).1 =
        ServiceFilter.decide ⟨filter.allowed⟩ payload ∧
      (filter.decide payload spoiled).2.allowed = filter.allowed := by
  have htrim := filter.trimmer.trim_eq payload
    (keepAllowed payload filter.allowed) fun _ => false
  rw [KeptFilter.decide, ServiceFilter.decide, assessInto_eq]
  cases assess payload filter.allowed with
  | error fault => exact ⟨rfl, rfl⟩
  | ok verdict =>
      obtain ⟨scope, refused⟩ := verdict
      cases scope with
      | pass => exact ⟨rfl, rfl⟩
      | refuse => exact ⟨rfl, rfl⟩
      | trim =>
          simp only
          rw [← htrim]
          cases filter.trimmer.trim payload
              (keepAllowed payload filter.allowed) fun _ => false with
          | error fault => exact ⟨rfl, rfl⟩
          | ok result => exact ⟨rfl, rfl⟩

theorem KeptFilter.after_allowed (filter : KeptFilter)
    (history : List (Bytes × Spoiled)) :
    (filter.after history).allowed = filter.allowed := by
  induction history generalizing filter with
  | nil => rfl
  | cons item history ih =>
      rw [KeptFilter.after, ih]
      exact (filter.decide_eq item.1 item.2).2

/-- Two payloads that say the same get the same verdict, and a filter decides
every payload as a fresh one would. -/
theorem decide_by_meaning (allowed : List ServiceType) :
    (∀ payload payload' verdict verdict',
      assess payload allowed = .ok verdict →
      assess payload' allowed = .ok verdict' →
      decodedMessage payload = decodedMessage payload' →
      verdict = verdict') ∧
    ∀ history payload spoiled spoiled',
      (((KeptFilter.new allowed).after history).decide payload spoiled).1 =
        ((KeptFilter.new allowed).decide payload spoiled').1 := by
  constructor
  · intro payload payload' verdict verdict' h h' hsame
    obtain ⟨decoded, hdecoded, rfl⟩ := assess_verdict h
    obtain ⟨decoded', hdecoded', rfl⟩ := assess_verdict h'
    rw [hsame, hdecoded', Except.ok.injEq] at hdecoded
    rw [hdecoded]
  · intro history payload spoiled spoiled'
    rw [(KeptFilter.decide_eq _ payload spoiled).1,
      (KeptFilter.decide_eq _ payload spoiled').1, KeptFilter.after_allowed]

/-- The same response, its names spelled out and in capitals. -/
def spelledResponse : Bytes :=
  [0, 1, 0x84, 0, 0, 0, 0, 3, 0, 0, 0, 1,
    2, 0x5f, 0x49, 4, 0x5f, 0x54, 0x43, 0x50, 0,
    0, 12, 0, 1, 0, 0, 0, 9, 0, 11,
    1, 0x58, 2, 0x5f, 0x49, 4, 0x5f, 0x54, 0x43, 0x50, 0,
    2, 0x5f, 0x4a, 4, 0x5f, 0x54, 0x43, 0x50, 0,
    0, 12, 0, 1, 0, 0, 0, 9, 0, 11,
    1, 0x59, 2, 0x5f, 0x4a, 4, 0x5f, 0x54, 0x43, 0x50, 0,
    1, 0x58, 0xc0, 12, 0, 1, 0, 1, 0, 0, 0, 9, 0, 4, 169, 254, 0, 1,
    1, 0x58, 0xc0, 12, 0, 1, 0, 1, 0, 0, 0, 9, 0, 4, 10, 0, 0, 1]

theorem decide_by_meaning_spelled :
    decodedMessage mixedResponse = decodedMessage spelledResponse ∧
      ∃ verdict, assess spelledResponse firstServiceOnly.allowed =
        .ok verdict ∧ (.trim, [secondService]) = verdict := by
  have hsame : decodedMessage mixedResponse =
      decodedMessage spelledResponse := by decide +kernel
  have hmixed : assess mixedResponse firstServiceOnly.allowed =
      .ok (.trim, [secondService]) := by decide +kernel
  have hspelled : assess spelledResponse firstServiceOnly.allowed =
      .ok (.trim, [secondService]) := by decide +kernel
  exact ⟨hsame, _, hspelled, (decide_by_meaning firstServiceOnly.allowed).1
    mixedResponse spelledResponse _ _ hmixed hspelled hsame⟩

end Netflector.Net.Mdns
