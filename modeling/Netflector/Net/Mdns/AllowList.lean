import Netflector.Net.Mdns.Services
import Netflector.Net.Mdns.Trimming

/-!
# The allow-list is enforced

The service of an entry depends on what its names spell, not on how they are
compressed or on the budget left to read them.  So the verdicts on the original
message are verdicts on the trimmed one too, and the flags `assess` gathers are
facts about the entries of the message.
-/

namespace Netflector.Net.Mdns

open Netflector.Foundation

/-! ## The service of an entry, without a budget -/

def ServiceSpelled (payload : Bytes) (entry : Entry)
    (service : Option Service) : Prop :=
  if entry.rtype = typePtr ∧ entry.rdata < entry.stop then
    ∃ target, Readable payload entry.rdata target ∧
      ((serviceOfLabels target = service ∧ service.isSome) ∨
        (serviceOfLabels target = none ∧
          ∃ owner, Readable payload entry.name owner ∧
            serviceOfLabels owner = service))
  else ∃ owner, Readable payload entry.name owner ∧
    serviceOfLabels owner = service

theorem serviceOf_eq_ok {payload : Bytes} {offset budget budget' : Nat}
    {service : Option Service}
    (h : serviceOf payload offset budget = .ok (service, budget')) :
    ∃ labels, Readable payload offset labels ∧
      serviceOfLabels labels = service := by
  unfold serviceOf at h
  cases hread : readName payload offset budget with
  | error e => simp [hread, bind, Except.bind] at h
  | ok result =>
      obtain ⟨labels, left⟩ := result
      simp only [hread, bind, Except.bind, Except.ok.injEq,
        Prod.mk.injEq] at h
      exact ⟨labels, readName_readable hread, h.1⟩

theorem Readable.serviceOf {payload : Bytes} {offset : Nat}
    {labels : List Bytes} (h : Readable payload offset labels) (budget : Nat)
    (hbudget : payload.length ≤ budget) :
    ∃ budget', Mdns.serviceOf payload offset budget =
      .ok (serviceOfLabels labels, budget') ∧
      budget ≤ budget' + payload.length := by
  obtain ⟨budget', hread, hleft⟩ := h.readName hbudget
  exact ⟨budget', by simp [Mdns.serviceOf, hread, bind, Except.bind], hleft⟩

theorem entryService_spelled {payload : Bytes} {entry : Entry}
    {budget budget' : Nat} {service : Option Service}
    (h : entryService entry payload budget = .ok (service, budget')) :
    ServiceSpelled payload entry service := by
  unfold entryService at h
  unfold ServiceSpelled
  split at h
  · rename_i hptr
    rw [if_pos hptr]
    cases htarget : serviceOf payload entry.rdata budget with
    | error e => simp [htarget, bind, Except.bind] at h
    | ok result =>
        obtain ⟨found, left⟩ := result
        obtain ⟨target, hreadable, hfound⟩ := serviceOf_eq_ok htarget
        simp only [htarget, bind, Except.bind] at h
        cases found with
        | some found =>
            cases h
            exact ⟨target, hreadable, .inl ⟨hfound, rfl⟩⟩
        | none => exact ⟨target, hreadable, .inr ⟨hfound, serviceOf_eq_ok h⟩⟩
  · rename_i hptr
    rw [if_neg hptr]
    exact serviceOf_eq_ok h

theorem ServiceSpelled.entryService {payload : Bytes} {entry : Entry}
    {service : Option Service} (h : ServiceSpelled payload entry service)
    (budget : Nat) (hbudget : 2 * payload.length ≤ budget) :
    ∃ budget', Mdns.entryService entry payload budget =
      .ok (service, budget') := by
  unfold ServiceSpelled at h
  unfold Mdns.entryService
  split at h
  · rename_i hptr
    rw [if_pos hptr]
    obtain ⟨target, htarget, hcases⟩ := h
    obtain ⟨left, hservice, hleft⟩ :=
      htarget.serviceOf budget (by omega)
    rcases hcases with ⟨hfound, hsome⟩ | ⟨hnone, owner, howner, hfound⟩
    · obtain ⟨found, rfl⟩ := Option.isSome_iff_exists.mp hsome
      exact ⟨left, by simp [hservice, hfound, bind, Except.bind]⟩
    · obtain ⟨left', hservice', _⟩ :=
        howner.serviceOf left (by omega)
      refine ⟨left', ?_⟩
      simp [hservice, hnone, hservice', hfound, bind, Except.bind]
  · rename_i hptr
    rw [if_neg hptr]
    obtain ⟨owner, howner, hfound⟩ := h
    obtain ⟨left, hservice, _⟩ := howner.serviceOf budget (by omega)
    exact ⟨left, by rw [hservice, hfound]⟩

/-! ## Standing under the list -/

inductive Standing where
  | unscoped
  | granted
  | refused
  deriving DecidableEq, Repr

def Standing.of (allowed : List ServiceType) : Option Service → Standing
  | none => .unscoped
  | some service => if allows allowed service then .granted else .refused

/-- How the list sees `entry`, its service read with the whole budget of the
message; `none` when a name cannot be read. -/
def standing (allowed : List ServiceType) (payload : Bytes) (entry : Entry) :
    Option Standing :=
  match entryService entry payload (budgetForMessage payload) with
  | .ok (service, _) => some (.of allowed service)
  | .error _ => none

theorem ServiceSpelled.standing {payload : Bytes} {entry : Entry}
    {service : Option Service} (h : ServiceSpelled payload entry service)
    (allowed : List ServiceType) :
    Mdns.standing allowed payload entry = some (.of allowed service) := by
  obtain ⟨left, hservice⟩ := h.entryService (budgetForMessage payload)
    (by simp only [budgetForMessage, stepsPerByte]; omega)
  simp only [Mdns.standing, hservice]

/-- What a trim under the list keeps: questions, and records read to be of no
service or of an allowed one. -/
def keeps (allowed : List ServiceType) (payload : Bytes) (entry : Entry) :
    Bool :=
  entry.sect == .question ||
    standing allowed payload entry == some .unscoped ||
    standing allowed payload entry == some .granted

theorem ServiceSpelled.keeps {allowed : List ServiceType} {payload : Bytes}
    {entry : Entry} {service : Option Service}
    (h : ServiceSpelled payload entry service)
    (hsect : entry.sect ≠ .question) :
    Mdns.keeps allowed payload entry = service.all (allows allowed) := by
  simp only [Mdns.keeps, h.standing allowed]
  cases service with
  | none => simp [Standing.of]
  | some service =>
      cases hallows : allows allowed service <;>
        simp [Standing.of, hallows, hsect]

theorem keepAllowed_verdict {allowed : List ServiceType} {payload : Bytes}
    {entry : Entry} {kept : Bool}
    (h : Verdict (keepAllowed payload allowed) entry kept) :
    kept = keeps allowed payload entry := by
  obtain ⟨budget, budget', hkeep⟩ := h
  unfold keepAllowed at hkeep
  split at hkeep
  · rename_i hsect
    cases hkeep
    simp [keeps, hsect]
  · rename_i hsect
    cases hservice : entryService entry payload budget with
    | error e => simp [hservice, bind, Except.bind] at hkeep
    | ok result =>
        obtain ⟨service, left⟩ := result
        simp only [hservice, bind, Except.bind, Except.ok.injEq,
          Prod.mk.injEq] at hkeep
        rw [(entryService_spelled hservice).keeps hsect, hkeep.1]

/-! ## The service survives recompression -/

theorem Spells.two_mul_length_le {payload : Bytes} {offset hops : Nat}
    {labels : List Bytes} (h : Spells payload offset hops labels) :
    2 * labels.length ≤ octets labels := by
  induction h with
  | root => simp
  | plain _ htag hlabel _ ih =>
      have hpos := labelTag_plain_pos htag
      have hlength := slice?_length hlabel
      simp only [List.length_cons, octets_cons]
      omega
  | pointer _ _ _ _ ih => exact ih

theorem Readable.canonical {payload out : Bytes} {offset offset' : Nat}
    {labels : List Bytes} (h : Readable payload offset labels)
    (hcanonical : Canonical out offset' labels) :
    Readable out offset' labels := by
  obtain ⟨_, hspells, _, hoctets⟩ := h
  obtain ⟨hops, hspells', hle, _⟩ := hcanonical.spells
  have hlength := hspells.two_mul_length_le
  simp only [maxNameLen] at hoctets
  exact ⟨hops, hspells', by simp only [maxPointerHops, maxNameLen]; omega,
    hoctets⟩

theorem DecodesWith.rtype {reads : Nat → List Bytes → Prop} {payload : Bytes}
    {entry : Entry} {record : Record}
    (h : DecodesWith reads payload entry record)
    (hplaced : entry.WellPlaced payload) :
    be16At record.fields 0 = some entry.rtype := by
  have hfields := h.fields
  rw [← hplaced.rtype]
  have hstop : entry.fixed + 4 ≤ entry.fieldsStop := by
    unfold Entry.fieldsStop
    split <;> omega
  have hhigh := getElem?_of_slice? hfields 0 (by omega)
  have hlow := getElem?_of_slice? hfields 1 (by omega)
  rw [Nat.add_zero] at hhigh
  unfold be16At
  rw [hhigh, hlow]

theorem DecodesWith.ptr_rdata {reads : Nat → List Bytes → Prop}
    {payload : Bytes} {entry : Entry} {record : Record}
    (h : DecodesWith reads payload entry record)
    (hptr : entry.rtype = typePtr) :
    (entry.rdata < entry.stop ∧ ∃ target tail,
      record.rdata = [.raw [], .name target, .raw tail] ∧
      reads entry.rdata target) ∨
    (¬ entry.rdata < entry.stop ∧ ∃ bytes, record.rdata = [.raw bytes]) := by
  have hrdata := h.rdata
  have htable : Mdns.rdataNames entry.rtype = some ⟨0, 1⟩ := by
    rw [hptr]
    rfl
  unfold RdataWith at hrdata
  split at hrdata
  · rename_i hnone
    obtain ⟨bytes, _, hparts⟩ := hrdata
    refine .inr ⟨fun hlt => ?_, bytes, hparts⟩
    rw [Entry.rdataNames_eq_some_iff.mpr ⟨htable, hlt⟩] at hnone
    cases hnone
  · rename_i names hsome
    obtain ⟨htable', hlt⟩ := Entry.rdataNames_eq_some_iff.mp hsome
    rw [htable] at htable'
    cases htable'
    obtain ⟨lead, labels, next, tail, hlead, hcount, hnames, _, hparts⟩ :=
      hrdata
    obtain ⟨target, rfl⟩ := List.length_eq_one_iff.mp hcount
    have hempty := slice?_length hlead
    simp only [Nat.add_zero, Nat.sub_self, List.length_eq_zero_iff] at hempty
    cases hnames with
    | cons hname _ _ =>
        exact .inl ⟨hlt, target, tail, by simpa [hempty] using hparts,
          by simpa using hname⟩

theorem ServiceSpelled.recompressed {payload out : Bytes} {entry copy : Entry}
    {record : Record} {service : Option Service}
    (h : ServiceSpelled payload entry service)
    (hentry : entry.WellPlaced payload) (hcopy : copy.WellPlaced out)
    (hdecodes : Decodes payload entry record)
    (hcopied : DecodesCanonically out copy record) :
    ServiceSpelled out copy service := by
  have hrtype : copy.rtype = entry.rtype := by
    have hcopyType := hcopied.rtype hcopy
    rw [hdecodes.rtype hentry] at hcopyType
    exact (Option.some.inj hcopyType).symm
  have howner : ∀ owner, Readable payload entry.name owner →
      Readable out copy.name owner := by
    intro owner hreadable
    cases hreadable.nameAt.unique hdecodes.owner
    exact hreadable.canonical hcopied.owner
  unfold ServiceSpelled at h ⊢
  by_cases hptr : entry.rtype = typePtr
  · rcases hdecodes.ptr_rdata hptr with ⟨hlt, target, tail, hrdata, htarget⟩ |
      ⟨hge, bytes, hrdata⟩
    · rcases hcopied.ptr_rdata (hrtype.trans hptr) with
        ⟨hlt', target', tail', hrdata', htarget'⟩ | ⟨_, bytes', hrdata'⟩
      · rw [hrdata] at hrdata'
        cases hrdata'
        rw [if_pos ⟨hptr, hlt⟩] at h
        rw [if_pos ⟨hrtype.trans hptr, hlt'⟩]
        obtain ⟨target', hreadable, hcases⟩ := h
        cases hreadable.nameAt.unique htarget
        refine ⟨target, hreadable.canonical htarget', ?_⟩
        rcases hcases with hfound | ⟨hnone, owner, hreads, hfound⟩
        · exact .inl hfound
        · exact .inr ⟨hnone, owner, howner owner hreads, hfound⟩
      · rw [hrdata] at hrdata'
        cases hrdata'
    · rcases hcopied.ptr_rdata (hrtype.trans hptr) with
        ⟨hlt', target', tail', hrdata', htarget'⟩ | ⟨hge', bytes', hrdata'⟩
      · rw [hrdata] at hrdata'
        cases hrdata'
      · rw [if_neg fun hlt => hge hlt.2] at h
        rw [if_neg fun hlt => hge' hlt.2]
        obtain ⟨owner, hreads, hfound⟩ := h
        exact ⟨owner, howner owner hreads, hfound⟩
  · rw [if_neg fun h => hptr h.1] at h
    rw [if_neg fun h => hptr (hrtype.symm.trans h.1)]
    obtain ⟨owner, hreads, hfound⟩ := h
    exact ⟨owner, howner owner hreads, hfound⟩

/-! ## What `assess` gathers -/

section Assess

variable {payload : Bytes} {allowed : List ServiceType} {kind : MdnsKind}

def anyStanding (allowed : List ServiceType) (payload : Bytes)
    (test : Entry → Bool) (wanted : Standing) (walked : List Entry) : Bool :=
  walked.any fun entry =>
    test entry && (standing allowed payload entry = some wanted : Bool)

def isAnswer (entry : Entry) : Bool := entry.sect == .answer

def judgedAnswer (kind : MdnsKind) (entry : Entry) : Bool :=
  judged kind entry && isAnswer entry

structure Gathered (payload : Bytes) (allowed : List ServiceType)
    (kind : MdnsKind) (walked : List Entry) (before after : Tally) :
    Prop where
  readable : ∀ entry ∈ walked, judged kind entry = true →
    (standing allowed payload entry).isSome
  granted : after.granted = (before.granted ||
    anyStanding allowed payload (judged kind) .granted walked)
  anyRefused : after.anyRefused = (before.anyRefused ||
    anyStanding allowed payload (judged kind) .refused walked)
  unscoped : after.unscoped = (before.unscoped ||
    anyStanding allowed payload (judged kind) .unscoped walked)
  answerScoped : after.answerScoped = (before.answerScoped ||
    (anyStanding allowed payload (judgedAnswer kind) .granted walked ||
      anyStanding allowed payload (judgedAnswer kind) .refused walked))
  answerGranted : after.answerGranted = (before.answerGranted ||
    anyStanding allowed payload (judgedAnswer kind) .granted walked)
  answerUnscoped : after.answerUnscoped = (before.answerUnscoped ||
    anyStanding allowed payload (judgedAnswer kind) .unscoped walked)

theorem anyStanding_cons (test : Entry → Bool) (wanted : Standing)
    (entry : Entry) (walked : List Entry) :
    anyStanding allowed payload test wanted (entry :: walked) =
      ((test entry && (standing allowed payload entry = some wanted : Bool)) ||
        anyStanding allowed payload test wanted walked) := rfl

theorem Gathered.skip {entry : Entry} {walked : List Entry}
    {before after : Tally}
    (h : Gathered payload allowed kind walked before after)
    (hskip : judged kind entry = false) :
    Gathered payload allowed kind (entry :: walked) before after := by
  refine ⟨?_, ?_, ?_, ?_, ?_, ?_, ?_⟩
  · intro other hmem hjudged
    rcases List.mem_cons.mp hmem with rfl | hmem
    · rw [hskip] at hjudged
      cases hjudged
    · exact h.readable other hmem hjudged
  all_goals
    simp only [anyStanding_cons, judgedAnswer, hskip, Bool.false_and,
      Bool.false_or]
  · exact h.granted
  · exact h.anyRefused
  · exact h.unscoped
  · exact h.answerScoped
  · exact h.answerGranted
  · exact h.answerUnscoped

theorem Gathered.note {entry : Entry} {walked : List Entry}
    {before after : Tally} {service : Option Service}
    (hjudged : judged kind entry = true)
    (hservice : ServiceSpelled payload entry service)
    (h : Gathered payload allowed kind walked
      (before.note allowed (entry.sect == .answer) service) after) :
    Gathered payload allowed kind (entry :: walked) before after := by
  have hstanding := hservice.standing allowed
  refine ⟨?_, ?_, ?_, ?_, ?_, ?_, ?_⟩
  · intro other hmem hother
    rcases List.mem_cons.mp hmem with rfl | hmem
    · simp [hstanding]
    · exact h.readable other hmem hother
  all_goals
    simp only [anyStanding_cons, judgedAnswer, hjudged, hstanding, isAnswer,
      Bool.true_and]
    first
      | rw [h.granted]
      | rw [h.anyRefused]
      | rw [h.unscoped]
      | rw [h.answerScoped]
      | rw [h.answerGranted]
      | rw [h.answerUnscoped]
    cases service with
    | none => cases entry.sect == .answer <;> simp [Tally.note, Standing.of]
    | some service =>
        cases hallows : allows allowed service <;>
          cases entry.sect == .answer <;>
          simp [Tally.note, Standing.of, hallows]

theorem assessEntries_gathered {walked : List Entry} {budget : Nat}
    {before after : Tally}
    (h : assessEntries payload allowed kind walked budget before = .ok after) :
    Gathered payload allowed kind walked before after := by
  induction walked generalizing budget before with
  | nil =>
      cases h
      constructor <;> simp [anyStanding]
  | cons entry walked ih =>
      simp only [assessEntries] at h
      cases hcheck : entry.checkNames payload budget with
      | error e => simp [hcheck, bind, Except.bind] at h
      | ok left =>
          simp only [hcheck, bind, Except.bind] at h
          split at h
          · rename_i hjudged
            cases hservice : entryService entry payload left with
            | error e => simp [hservice] at h
            | ok result =>
                simp only [hservice] at h
                exact (ih h).note hjudged (entryService_spelled hservice)
          · rename_i hjudged
            exact (ih h).skip (by simpa using hjudged)

/-! ## The scope of a message -/

def SomeRefused (allowed : List ServiceType) (payload : Bytes)
    (kind : MdnsKind) (walked : List Entry) : Prop :=
  ∃ entry ∈ walked, judged kind entry = true ∧
    standing allowed payload entry = some .refused

def WorthAsking (allowed : List ServiceType) (payload : Bytes)
    (walked : List Entry) : Prop :=
  ∃ entry ∈ walked, entry.sect = .question ∧
    (standing allowed payload entry = some .granted ∨
      standing allowed payload entry = some .unscoped)

/-- An answer naming an allowed service, or answers none of which names a
service. -/
def LeavesAnswer (allowed : List ServiceType) (payload : Bytes)
    (walked : List Entry) : Prop :=
  (∃ entry ∈ walked, entry.sect = .answer ∧
    standing allowed payload entry = some .granted) ∨
  ((∃ entry ∈ walked, entry.sect = .answer) ∧
    ∀ entry ∈ walked, entry.sect = .answer →
      standing allowed payload entry = some .unscoped)

theorem anyStanding_eq_true_iff {test : Entry → Bool} {wanted : Standing}
    {walked : List Entry} :
    anyStanding allowed payload test wanted walked = true ↔
      ∃ entry ∈ walked, test entry = true ∧
        standing allowed payload entry = some wanted := by
  simp [anyStanding]

theorem judged_query {entry : Entry} :
    judged .query entry = true ↔ entry.sect = .question := by
  simp [judged]

theorem judged_response {entry : Entry} :
    judged .response entry = true ↔ entry.sect ≠ .question := by
  simp [judged]

theorem judgedAnswer_response {entry : Entry} :
    judgedAnswer .response entry = true ↔ entry.sect = .answer := by
  unfold judgedAnswer judged isAnswer
  cases entry.sect <;> decide

theorem Gathered.someRefused {walked : List Entry} {after : Tally}
    (h : Gathered payload allowed kind walked .start after) :
    after.anyRefused = true ↔ SomeRefused allowed payload kind walked := by
  rw [h.anyRefused]
  exact anyStanding_eq_true_iff

theorem Gathered.worthAsking {walked : List Entry} {after : Tally}
    (h : Gathered payload allowed .query walked .start after) :
    (after.granted || after.unscoped) = true ↔
      WorthAsking allowed payload walked := by
  rw [h.granted, h.unscoped]
  simp only [Tally.start, Bool.false_or, Bool.or_eq_true,
    anyStanding_eq_true_iff, judged_query, WorthAsking]
  constructor
  · rintro (⟨entry, hmem, hsect, hstanding⟩ | ⟨entry, hmem, hsect, hstanding⟩)
    · exact ⟨entry, hmem, hsect, .inl hstanding⟩
    · exact ⟨entry, hmem, hsect, .inr hstanding⟩
  · rintro ⟨entry, hmem, hsect, hstanding | hstanding⟩
    · exact .inl ⟨entry, hmem, hsect, hstanding⟩
    · exact .inr ⟨entry, hmem, hsect, hstanding⟩

theorem Gathered.leavesAnswer {walked : List Entry} {after : Tally}
    (h : Gathered payload allowed .response walked .start after) :
    (after.answerGranted || (after.answerUnscoped && !after.answerScoped)) =
      true ↔ LeavesAnswer allowed payload walked := by
  rw [h.answerGranted, h.answerUnscoped, h.answerScoped]
  simp only [Tally.start, Bool.false_or, Bool.or_eq_true, Bool.and_eq_true,
    Bool.not_eq_true', ← Bool.not_eq_true, not_or, anyStanding_eq_true_iff,
    judgedAnswer_response, LeavesAnswer]
  refine or_congr_right ⟨?_, ?_⟩
  · rintro ⟨⟨entry, hmem, hsect, _⟩, hgranted, hrefused⟩
    refine ⟨⟨entry, hmem, hsect⟩, fun other hmem hsect => ?_⟩
    have hjudged : judged .response other = true := by
      rw [judged_response, hsect]
      decide
    obtain ⟨found, hfound⟩ :=
      Option.isSome_iff_exists.mp (h.readable other hmem hjudged)
    cases found with
    | unscoped => exact hfound
    | granted => exact absurd ⟨other, hmem, hsect, hfound⟩ hgranted
    | refused => exact absurd ⟨other, hmem, hsect, hfound⟩ hrefused
  · rintro ⟨⟨entry, hmem, hsect⟩, hall⟩
    refine ⟨⟨entry, hmem, hsect, hall entry hmem hsect⟩, ?_, ?_⟩
    · rintro ⟨other, hmem, hsect, hstanding⟩
      rw [hall other hmem hsect] at hstanding
      cases hstanding
    · rintro ⟨other, hmem, hsect, hstanding⟩
      rw [hall other hmem hsect] at hstanding
      cases hstanding

structure Assessed (payload : Bytes) (allowed : List ServiceType)
    (scope : Scope) (kind : MdnsKind) (walked : List Entry) : Prop where
  classified : classify payload = some kind
  walk : entries payload = .ok walked
  readable : ∀ entry ∈ walked, judged kind entry = true →
    (standing allowed payload entry).isSome
  pass_iff : scope = .pass ↔ ¬ SomeRefused allowed payload kind walked ∨
    (kind = .query ∧ WorthAsking allowed payload walked)
  trim_iff : scope = .trim ↔ SomeRefused allowed payload kind walked ∧
    kind = .response ∧ LeavesAnswer allowed payload walked

theorem assess_assessed {scope : Scope} {refused : List ServiceType}
    (h : assess payload allowed = .ok (scope, refused)) :
    ∃ kind walked, Assessed payload allowed scope kind walked := by
  unfold assess at h
  cases hkind : classify payload with
  | none => simp [hkind] at h
  | some kind =>
      cases hwalk : entries payload with
      | error e => simp [hkind, hwalk, bind, Except.bind] at h
      | ok walked =>
          simp only [hkind, hwalk, bind, Except.bind] at h
          split at h
          · cases h
          rename_i tally htally
          cases h
          have hgathered := assessEntries_gathered htally
          have hrefused := hgathered.someRefused
          refine ⟨kind, walked, hkind, hwalk, hgathered.readable, ?_, ?_⟩
          · rw [← hrefused]
            cases kind with
            | query =>
                rw [← hgathered.worthAsking]
                simp only [Tally.scope]
                split <;> [skip; split] <;> simp_all
            | response =>
                simp only [Tally.scope]
                split <;> [skip; split] <;> simp_all
          · rw [← hrefused]
            cases kind with
            | query =>
                simp only [Tally.scope]
                split <;> [skip; split] <;> simp_all
            | response =>
                rw [← hgathered.leavesAnswer]
                simp only [Tally.scope]
                split <;> [skip; split] <;> simp_all

end Assess

/-! ## Enforcement -/

section Enforce

variable {filter : ServiceFilter} {payload out : Bytes}

theorem decide_trim {removed : Nat} {refused : List ServiceType}
    (h : filter.decide payload = .trim out removed refused) :
    assess payload filter.allowed = .ok (.trim, refused) ∧
      trim payload (keepAllowed payload filter.allowed) (fun _ => false) =
        .ok (out, removed) := by
  unfold ServiceFilter.decide at h
  split at h
  · cases h
  · cases h
  · cases h
  · rename_i refused' hassess
    split at h
    · rename_i trimmed removed' htrim
      cases h
      exact ⟨hassess, htrim⟩
    · cases h

theorem decide_pass (h : filter.decide payload = .pass) :
    ∃ refused, assess payload filter.allowed = .ok (.pass, refused) := by
  unfold ServiceFilter.decide at h
  split at h
  · cases h
  · rename_i refused hassess
    exact ⟨refused, hassess⟩
  · cases h
  · split at h <;> cases h

theorem decide_refuse_iff {refused : List ServiceType} :
    filter.decide payload = .refuse refused ↔
      assess payload filter.allowed = .ok (.refuse, refused) := by
  unfold ServiceFilter.decide
  split
  · simp_all
  · simp_all
  · simp_all
  · split <;> simp_all

theorem keeps_of_readable {allowed : List ServiceType} {entry : Entry}
    (hreadable : entry.sect ≠ .question →
      (standing allowed payload entry).isSome)
    (hrefused : entry.sect ≠ .question →
      standing allowed payload entry ≠ some .refused) :
    keeps allowed payload entry = true := by
  by_cases hsect : entry.sect = .question
  · simp [keeps, hsect]
  · obtain ⟨found, hfound⟩ := Option.isSome_iff_exists.mp (hreadable hsect)
    have hne := hrefused hsect
    cases found <;> simp_all [keeps]

theorem Copied.keeps {allowed : List ServiceType} {copy : Entry}
    {placement : Placement} (h : Copied payload out copy placement)
    (hentry : placement.entry.WellPlaced payload)
    (hcopy : copy.WellPlaced out)
    (hkind : placement.sect ≠ .question → placement.entry.sect ≠ .question)
    (hkeeps : Mdns.keeps allowed payload placement.entry = true) :
    Mdns.keeps allowed out copy = true := by
  by_cases hquestion : copy.sect = .question
  · simp [Mdns.keeps, hquestion]
  · have hrecord := hkind (h.sect ▸ hquestion)
    cases hservice : entryService placement.entry payload
        (budgetForMessage payload) with
    | error e => simp [Mdns.keeps, hrecord, standing, hservice] at hkeeps
    | ok result =>
        obtain ⟨record, hdecodes, hcopied⟩ := h.same
        have hspelled := entryService_spelled hservice
        have hcopySpelled :=
          hspelled.recompressed hentry hcopy hdecodes hcopied
        rw [hspelled.keeps hrecord] at hkeeps
        rw [hcopySpelled.keeps hquestion, hkeeps]

theorem LeavesAnswer.kept {allowed : List ServiceType} {walked : List Entry}
    (h : LeavesAnswer allowed payload walked) :
    ∃ entry ∈ walked, entry.sect = .answer ∧
      keeps allowed payload entry = true := by
  rcases h with ⟨entry, hmem, hsect, hstanding⟩ | ⟨⟨entry, hmem, hsect⟩, hall⟩
  · exact ⟨entry, hmem, hsect, by simp [keeps, hstanding]⟩
  · exact ⟨entry, hmem, hsect, by simp [keeps, hall entry hmem hsect]⟩

theorem trim_keepAllowed {allowed : List ServiceType} {walked : List Entry}
    {removed : Nat} (hwalk : entries payload = .ok walked)
    (hanswer : LeavesAnswer allowed payload walked)
    (h : trim payload (keepAllowed payload allowed) (fun _ => false) =
      .ok (out, removed)) :
    ∃ copies records, Trimmed payload out
      ((walked.filter (keeps allowed payload)).map Entry.inPlace)
      copies records := by
  obtain ⟨walked', accept, state, hwalk', hfollowed, _, rfl, _, hsects⟩ :=
    trim_followed h
  rw [hwalk] at hwalk'
  cases hwalk'
  have haccept : ∀ entry ∈ walked,
      accept entry = keeps allowed payload entry := by
    intro entry hmem
    refine keepAllowed_verdict (hfollowed.verdict entry hmem ?_)
    simp [asked, refills]
  obtain ⟨entry, hmem, hsect, hkeeps⟩ := hanswer.kept
  have hrefilled : refilledBy accept walked = false := by
    simp only [refilledBy, Bool.and_eq_false_iff, Bool.not_eq_false']
    refine .inr (List.any_eq_true.mpr ⟨entry, hmem, ?_⟩)
    simp [hsect, haccept entry hmem, hkeeps]
  obtain ⟨copies, records, htrimmed⟩ := hfollowed.trimmed hsects
  refine ⟨copies, records, ?_⟩
  rw [planned, hrefilled, List.filter_congr haccept] at htrimmed
  exact htrimmed

theorem decide_trim_trimmed {removed : Nat} {refused : List ServiceType}
    (h : filter.decide payload = .trim out removed refused) :
    ∃ walked copies records, entries payload = .ok walked ∧
      Trimmed payload out
        ((walked.filter (keeps filter.allowed payload)).map Entry.inPlace)
        copies records ∧
      (∃ copy ∈ copies, copy.sect = .answer) ∧
      ∀ copy ∈ copies, keeps filter.allowed out copy = true := by
  obtain ⟨hassess, htrim⟩ := decide_trim h
  obtain ⟨kind, walked, hassessed⟩ := assess_assessed hassess
  obtain ⟨_, _, hanswer⟩ := hassessed.trim_iff.mp rfl
  obtain ⟨copies, records, htrimmed⟩ :=
    trim_keepAllowed hassessed.walk hanswer htrim
  refine ⟨walked, copies, records, hassessed.walk, htrimmed, ?_, ?_⟩
  · obtain ⟨entry, hmem, hsect, hkeeps⟩ := hanswer.kept
    obtain ⟨copy, hcopy, hcopied⟩ := htrimmed.image entry.inPlace
      (List.mem_map_of_mem (List.mem_filter.mpr ⟨hmem, hkeeps⟩))
    exact ⟨copy, hcopy, hcopied.sect.trans hsect⟩
  · intro copy hcopy
    obtain ⟨placement, hplan, hcopied⟩ := htrimmed.origin copy hcopy
    obtain ⟨entry, hmem, rfl⟩ := List.mem_map.mp hplan
    obtain ⟨hmem, hkeeps⟩ := List.mem_filter.mp hmem
    exact hcopied.keeps (entries_wellPlaced hassessed.walk entry hmem)
      (entries_wellPlaced htrimmed.walk copy hcopy) id hkeeps

theorem decide_pass_keeps (hkind : classify payload = some .response)
    (h : filter.decide payload = .pass) :
    ∃ walked, entries payload = .ok walked ∧
      ∀ entry ∈ walked, keeps filter.allowed payload entry = true := by
  obtain ⟨refused, hassess⟩ := decide_pass h
  obtain ⟨kind, walked, hassessed⟩ := assess_assessed hassess
  rw [hassessed.classified] at hkind
  cases hkind
  refine ⟨walked, hassessed.walk, fun entry hmem => keeps_of_readable ?_ ?_⟩
  · exact fun hsect => hassessed.readable entry hmem (judged_response.mpr hsect)
  · intro hsect hrefused
    rcases hassessed.pass_iff.mp rfl with hnone | ⟨hquery, _⟩
    · exact hnone ⟨entry, hmem, judged_response.mpr hsect, hrefused⟩
    · cases hquery

end Enforce

/-- The allow-list holds: a trimmed response says exactly its allowed records
and keeps an answer, a passed message names nothing refused (or is a query
worth asking), and only a message with nothing to relay is refused. -/
theorem decide_enforces_allowed (filter : ServiceFilter) (payload : Bytes) :
    (∀ out removed refused, classify payload = some .response →
      filter.decide payload = .trim out removed refused →
      ∃ walked copies records, entries payload = .ok walked ∧
        Trimmed payload out
          ((walked.filter (keeps filter.allowed payload)).map Entry.inPlace)
          copies records ∧
        (∃ copy ∈ copies, copy.sect = .answer) ∧
        ∀ copy ∈ copies, keeps filter.allowed out copy = true) ∧
    (classify payload = some .response → filter.decide payload = .pass →
      ∃ walked, entries payload = .ok walked ∧
        ∀ entry ∈ walked, keeps filter.allowed payload entry = true) ∧
    (classify payload = some .query → filter.decide payload = .pass →
      ∃ walked, entries payload = .ok walked ∧
        ((∀ entry ∈ walked, entry.sect = .question →
            standing filter.allowed payload entry ≠ some .refused) ∨
          WorthAsking filter.allowed payload walked)) ∧
    ((∃ refused, filter.decide payload = .refuse refused) ↔
      (∃ result, assess payload filter.allowed = .ok result) ∧
      ∃ kind walked, classify payload = some kind ∧
        entries payload = .ok walked ∧
        SomeRefused filter.allowed payload kind walked ∧
        ¬ (kind = .query ∧ WorthAsking filter.allowed payload walked) ∧
        ¬ (kind = .response ∧ LeavesAnswer filter.allowed payload walked)) := by
  refine ⟨fun out removed refused _ hdecide => decide_trim_trimmed hdecide,
    decide_pass_keeps, ?_, ?_⟩
  · intro hkind hdecide
    obtain ⟨refused, hassess⟩ := decide_pass hdecide
    obtain ⟨kind, walked, hassessed⟩ := assess_assessed hassess
    rw [hassessed.classified] at hkind
    cases hkind
    refine ⟨walked, hassessed.walk, ?_⟩
    rcases hassessed.pass_iff.mp rfl with hnone | ⟨_, hworth⟩
    · exact .inl fun entry hmem hsect hrefused =>
        hnone ⟨entry, hmem, judged_query.mpr hsect, hrefused⟩
    · exact .inr hworth
  · simp only [decide_refuse_iff]
    constructor
    · rintro ⟨refused, hassess⟩
      obtain ⟨kind, walked, hassessed⟩ := assess_assessed hassess
      have hpass := mt hassessed.pass_iff.mpr (by simp)
      have htrim := mt hassessed.trim_iff.mpr (by simp)
      rw [not_or, not_not] at hpass
      exact ⟨⟨_, hassess⟩, kind, walked, hassessed.classified, hassessed.walk,
        hpass.1, hpass.2, fun hleaves => htrim ⟨hpass.1, hleaves⟩⟩
    · rintro ⟨⟨⟨scope, refused⟩, hassess⟩, kind, walked, hkind, hwalk, hrefused,
        hquery, hresponse⟩
      obtain ⟨kind', walked', hassessed⟩ := assess_assessed hassess
      rw [hassessed.classified] at hkind
      rw [hassessed.walk] at hwalk
      cases hkind
      cases hwalk
      cases scope with
      | refuse => exact ⟨refused, hassess⟩
      | pass =>
          rcases hassessed.pass_iff.mp rfl with hnone | hworth
          · exact absurd hrefused hnone
          · exact absurd hworth hquery
      | trim => exact absurd (hassessed.trim_iff.mp rfl).2 hresponse

def mixedResponse : Bytes :=
  [0, 1, 0x84, 0, 0, 0, 0, 3, 0, 0, 0, 1,
    2, 0x5f, 0x69, 4, 0x5f, 0x74, 0x63, 0x70, 0,
    0, 12, 0, 1, 0, 0, 0, 9, 0, 4, 1, 0x78, 0xc0, 12,
    2, 0x5f, 0x6a, 0xc0, 15, 0, 12, 0, 1, 0, 0, 0, 9, 0, 4, 1, 0x79, 0xc0, 35,
    0xc0, 31, 0, 1, 0, 1, 0, 0, 0, 9, 0, 4, 169, 254, 0, 1,
    0xc0, 31, 0, 1, 0, 1, 0, 0, 0, 9, 0, 4, 10, 0, 0, 1]

def firstServiceOnly : ServiceFilter :=
  ⟨[⟨[0x69], .tcp, by decide, by decide, by decide⟩]⟩

def secondService : ServiceType :=
  ⟨[0x6a], .tcp, by decide, by decide, by decide⟩

def trimmedResponse : Bytes :=
  [0, 1, 0x84, 0, 0, 0, 0, 2, 0, 0, 0, 1,
    2, 0x5f, 0x69, 4, 0x5f, 0x74, 0x63, 0x70, 0,
    0, 12, 0, 1, 0, 0, 0, 9, 0, 4, 1, 0x78, 0xc0, 12,
    0xc0, 31, 0, 1, 0, 1, 0, 0, 0, 9, 0, 4, 169, 254, 0, 1,
    0xc0, 31, 0, 1, 0, 1, 0, 0, 0, 9, 0, 4, 10, 0, 0, 1]

theorem decide_enforces_allowed_mixedResponse :
    firstServiceOnly.decide mixedResponse =
        .trim trimmedResponse 1 [secondService] ∧
      ∃ walked copies records, entries mixedResponse = .ok walked ∧
        Trimmed mixedResponse trimmedResponse
          ((walked.filter
            (keeps firstServiceOnly.allowed mixedResponse)).map Entry.inPlace)
          copies records ∧
        (∃ copy ∈ copies, copy.sect = .answer) ∧
        ∀ copy ∈ copies,
          keeps firstServiceOnly.allowed trimmedResponse copy = true :=
  ⟨by decide, (decide_enforces_allowed firstServiceOnly mixedResponse).1
    trimmedResponse 1 [secondService] (by decide) (by decide)⟩

end Netflector.Net.Mdns
