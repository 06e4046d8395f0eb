import Mathlib.Data.List.Forall2
import Netflector.Net.Mdns.Sections

/-!
# Trimming preserves meaning

A trim that succeeds writes a plan: the kept entries in their own sections,
or, when no answer survives, with the picked authority and additional entries
moved up into the answer section.  The output reads back as that plan, entry
by entry, and says of each entry what the payload says.
-/

namespace Netflector.Net.Mdns

open Netflector.Foundation

/-! ## The plan -/

/-- An entry of the payload and the section it comes out in. -/
structure Placement where
  sect : Section
  entry : Entry
  deriving DecidableEq, Repr

def Entry.inPlace (entry : Entry) : Placement := ⟨entry.sect, entry⟩

def Entry.asAnswer (entry : Entry) : Placement := ⟨.answer, entry⟩

def Trimmer.opening (payload : Bytes) : Trimmer :=
  ⟨payload.take dnsHeaderLen, List.replicate payload.length unplaced⟩

inductive Wrote (payload : Bytes) (start : Trimmer) :
    List Placement → Trimmer → Prop
  | nil : Wrote payload start [] start
  | concat {plan : List Placement} {placement : Placement}
      {before after : Trimmer} {budget left : Nat} :
      Wrote payload start plan before →
      placement.entry.WellPlaced payload →
      (placement.sect = .question ↔ placement.entry.sect = .question) →
      before.writeEntry payload placement.entry budget = .ok (after, left) →
      Wrote payload start (plan ++ [placement]) after

def ReadsBack (final : Bytes) (sects : List Section) (records : List Record)
    (stop : Nat) : Prop :=
  ∃ copies, walkEntries final sects dnsHeaderLen = .ok copies ∧
    List.Forall₂ (DecodesCanonically final) copies records ∧
    walkStop dnsHeaderLen copies = stop

structure Carries (payload : Bytes) (plan : List Placement)
    (state : TrimState) : Prop where
  header : ∃ suffix, state.trimmer.out = payload.take dnsHeaderLen ++ suffix
  header_le : dnsHeaderLen ≤ payload.length
  wrote : Wrote payload (Trimmer.opening payload) plan state.trimmer
  placed : PlacedOk inHeader payload state.trimmer
  counts : state.counts = countSections (plan.map Placement.sect)
  records : ∃ records,
    List.Forall₂ (fun placement => Decodes payload placement.entry)
      plan records ∧
    ∀ final, Grows inHeader state.trimmer.out final →
      ReadsBack final (plan.map Placement.sect) records
        state.trimmer.out.length

theorem Carries.header_le_out {payload : Bytes} {plan : List Placement}
    {state : TrimState} (h : Carries payload plan state) :
    dnsHeaderLen ≤ state.trimmer.out.length := by
  obtain ⟨suffix, hout⟩ := h.header
  have := h.header_le
  rw [hout, List.length_append, List.length_take]
  omega

theorem Carries.write {payload : Bytes} {plan : List Placement}
    {state : TrimState} (h : Carries payload plan state)
    (placement : Placement) {trimmer : Trimmer} {budget budget' : Nat}
    {counts : SectionCounts}
    (hentry : placement.entry.WellPlaced payload)
    (hkind : placement.sect = .question ↔ placement.entry.sect = .question)
    (hwrite : state.trimmer.writeEntry payload placement.entry budget =
      .ok (trimmer, budget'))
    (hcounts : counts = state.counts.bump placement.sect) :
    Carries payload (plan ++ [placement]) { state with
      trimmer := trimmer
      budget := budget'
      counts := counts } := by
  obtain ⟨suffix, hout⟩ := h.header
  obtain ⟨records, hrecords, hreads⟩ := h.records
  have hwrote := writeEntry_spec hwrite hentry h.header_le_out h.placed
  obtain ⟨octets, hgrown⟩ := hwrote.grows
  obtain ⟨record, hdecodes, hcopy⟩ := hwrote.record
  refine ⟨⟨suffix ++ octets, by simp [hgrown, hout]⟩, h.header_le,
    h.wrote.concat hentry hkind hwrite, hwrote.placed, ?_, records ++ [record], ?_, fun final hfinal => ?_⟩
  · rw [hcounts, h.counts, List.map_append, List.map_singleton,
      countSections_concat]
  · exact List.rel_append hrecords (.cons hdecodes .nil)
  · have hbefore : Grows inHeader state.trimmer.out final := by
      simp only at hfinal
      rw [hgrown] at hfinal
      exact hfinal.of_append
    obtain ⟨copies, hwalk, hdecoded, hstop⟩ := hreads final hbefore
    obtain ⟨copy, hentryAt, hcopyStop, hcopyDecodes⟩ :=
      hcopy final hfinal placement.sect hkind
    refine ⟨copies ++ [copy], ?_,
      List.rel_append hdecoded (.cons hcopyDecodes .nil), ?_⟩
    · rw [List.map_append, List.map_singleton]
      refine walkEntries_append hwalk ?_
      rw [hstop]
      exact walkEntries_cons_eq_ok_iff.mpr ⟨copy, [], hentryAt, rfl, rfl⟩
    · rw [walkStop_append]
      exact hcopyStop

theorem Carries.congr {payload : Bytes} {plan : List Placement}
    {state state' : TrimState} (h : Carries payload plan state)
    (htrimmer : state'.trimmer = state.trimmer)
    (hcounts : state'.counts = state.counts) :
    Carries payload plan state' := by
  refine ⟨?_, h.header_le, ?_, ?_, ?_, ?_⟩
  · rw [htrimmer]
    exact h.header
  · rw [htrimmer]
    exact h.wrote
  · rw [htrimmer]
    exact h.placed
  · rw [hcounts]
    exact h.counts
  · rw [htrimmer]
    exact h.records

/-! ## The refill -/

theorem refills_isLate {refill : Entry → Bool} {entry : Entry}
    (h : refills refill entry = true) : entry.sect.isLate = true := by
  simp only [refills, Bool.and_eq_true] at h
  exact h.1

theorem Section.isLate_ne_question {sect : Section}
    (h : sect.isLate = true) : sect ≠ .question := by
  rintro rfl
  cases h

theorem refillFrom_spec {payload : Bytes} {refill : Entry → Bool}
    {candidates : List Entry} {plan : List Placement}
    {state state' : TrimState}
    (h : state.refillFrom payload refill candidates = .ok state')
    (hplaced : ∀ entry ∈ candidates, entry.WellPlaced payload)
    (hcarries : Carries payload plan state) :
    Carries payload
        (plan ++ (candidates.filter (refills refill)).map Entry.asAnswer)
        state' ∧
      state'.answered = state.answered ∧ state'.refilled = state.refilled ∧
      state'.removed = state.removed := by
  induction candidates generalizing plan state with
  | nil =>
      cases h
      simpa using hcarries
  | cons candidate candidates ih =>
      simp only [TrimState.refillFrom] at h
      have hrest := fun entry hmem =>
        hplaced entry (List.mem_cons_of_mem candidate hmem)
      split at h
      · rename_i hrefills
        cases hwrite : state.trimmer.writeEntry payload candidate
            state.budget with
        | error e => simp [hwrite, bind, Except.bind] at h
        | ok result =>
            obtain ⟨trimmer, budget⟩ := result
            simp only [hwrite, bind, Except.bind] at h
            split at h
            · cases h
            have hkind : candidate.asAnswer.sect = .question ↔
                candidate.sect = .question := by
              have hlate := Section.isLate_ne_question (refills_isLate hrefills)
              simp [Entry.asAnswer, hlate]
            have hnext := hcarries.write candidate.asAnswer
              (hplaced candidate List.mem_cons_self) hkind hwrite rfl
            obtain ⟨hwritten, hflags⟩ := ih h hrest hnext
            refine ⟨?_, hflags⟩
            simpa [hrefills] using hwritten
      · rename_i hrefills
        simpa [hrefills] using ih h hrest hcarries

theorem refillFrom_fits {payload : Bytes} {refill : Entry → Bool}
    {candidates : List Entry} {state state' : TrimState}
    (h : state.refillFrom payload refill candidates = .ok state')
    (hfits : state.counts.answer ≤ 0xffff) :
    state.counts.answer + candidates.countP (refills refill) ≤ 0xffff := by
  induction candidates generalizing state with
  | nil => simpa using hfits
  | cons candidate candidates ih =>
      simp only [TrimState.refillFrom] at h
      split at h
      · rename_i hrefills
        cases hwrite : state.trimmer.writeEntry payload candidate
            state.budget with
        | error e => simp [hwrite, bind, Except.bind] at h
        | ok result =>
            simp only [hwrite, bind, Except.bind] at h
            split at h
            · cases h
            rename_i hcount
            have hrest := ih h (by simpa [SectionCounts.bump] using hcount)
            simp only [SectionCounts.bump] at hrest
            rw [List.countP_cons_of_pos hrefills]
            omega
      · rename_i hrefills
        rw [List.countP_cons_of_neg hrefills]
        exact ih h hfits

/-! ## The walk -/

/-- Whether `keep` decides on `entry`, or the refill took it. -/
def asked (refilled : Bool) (refill : Entry → Bool) (entry : Entry) : Bool :=
  !(refilled && refills refill entry)

def Verdict (keep : Keep) (entry : Entry) (kept : Bool) : Prop :=
  ∃ budget budget', keep entry budget = .ok (kept, budget')

def Settled (state : TrimState) (entry : Entry) : Prop :=
  state.answered = true ∨ entry.sect.isLate = false

section Walk

variable {payload : Bytes} {keep : Keep} {refill : Entry → Bool}
  {candidates : List Entry}

theorem passAnswers_settled {state : TrimState} {entry : Entry}
    (h : Settled state entry) :
    state.passAnswers payload refill candidates entry = .ok state := by
  unfold TrimState.passAnswers
  rcases h with h | h <;> simp [h]

theorem visit_cases {state state' : TrimState} {entry : Entry}
    (h : state.visit payload keep refill candidates entry = .ok state')
    (hsettled : Settled state entry) :
    (asked state.refilled refill entry = false ∧ state' = state) ∨
    (asked state.refilled refill entry = true ∧ Verdict keep entry true ∧
      ∃ budget trimmer budget',
        state.trimmer.writeEntry payload entry budget = .ok (trimmer, budget') ∧
        state' = { state with
          trimmer := trimmer
          budget := budget'
          counts := state.counts.bump entry.sect }) ∨
    (asked state.refilled refill entry = true ∧ Verdict keep entry false ∧
      ∃ budget, state' = { state with
        budget := budget
        removed := state.removed + 1 }) := by
  simp only [TrimState.visit, passAnswers_settled hsettled, bind,
    Except.bind] at h
  split at h
  · rename_i hskip
    cases h
    exact .inl ⟨by simp only [asked, hskip, Bool.not_true], rfl⟩
  · rename_i hskip
    have hasked : asked state.refilled refill entry = true := by
      simp only [asked, Bool.not_eq_true] at hskip ⊢
      rw [hskip]
      rfl
    cases hkeep : keep entry state.budget with
    | error e => simp [hkeep] at h
    | ok result =>
        obtain ⟨kept, budget⟩ := result
        simp only [hkeep] at h
        cases kept with
        | true =>
            cases hwrite : state.trimmer.writeEntry payload entry budget with
            | error e => simp [hwrite] at h
            | ok result =>
                obtain ⟨trimmer, budget'⟩ := result
                simp only [hwrite] at h
                cases h
                exact .inr (.inl ⟨hasked, ⟨_, _, hkeep⟩, budget, trimmer,
                  budget', hwrite, rfl⟩)
        | false =>
            cases h
            exact .inr (.inr ⟨hasked, ⟨_, _, hkeep⟩, budget, rfl⟩)

/-- The entries a settled walk writes, given `keep`'s verdicts. -/
def keptInPlace (refilled : Bool) (refill accept : Entry → Bool)
    (walked : List Entry) : List Placement :=
  (walked.filter fun entry =>
    asked refilled refill entry && accept entry).map Entry.inPlace

def rejected (refilled : Bool) (refill accept : Entry → Bool)
    (walked : List Entry) : Nat :=
  walked.countP fun entry => asked refilled refill entry && !accept entry

structure Visited (payload : Bytes) (keep : Keep) (refill : Entry → Bool)
    (walked : List Entry) (plan : List Placement) (state state' : TrimState)
    (accept : Entry → Bool) : Prop where
  verdict : ∀ entry ∈ walked, asked state.refilled refill entry = true →
    Verdict keep entry (accept entry)
  carries : Carries payload
    (plan ++ keptInPlace state.refilled refill accept walked) state'
  removed : state'.removed =
    state.removed + rejected state.refilled refill accept walked
  answered : state'.answered = state.answered
  refilled : state'.refilled = state.refilled

theorem keptInPlace_congr {refilled : Bool} {accept accept' : Entry → Bool}
    {walked : List Entry}
    (h : ∀ entry ∈ walked, accept entry = accept' entry) :
    keptInPlace refilled refill accept walked =
      keptInPlace refilled refill accept' walked := by
  unfold keptInPlace
  rw [List.filter_congr]
  intro entry hmem
  rw [h entry hmem]

theorem rejected_congr {refilled : Bool} {accept accept' : Entry → Bool}
    {walked : List Entry}
    (h : ∀ entry ∈ walked, accept entry = accept' entry) :
    rejected refilled refill accept walked =
      rejected refilled refill accept' walked := by
  unfold rejected
  rw [List.countP_congr]
  intro entry hmem
  rw [h entry hmem]

theorem visit_settled {entry : Entry} {plan : List Placement}
    {state state' : TrimState}
    (h : state.visit payload keep refill candidates entry = .ok state')
    (hplaced : entry.WellPlaced payload) (hsettled : Settled state entry)
    (hcarries : Carries payload plan state) :
    ∃ kept, Visited payload keep refill [entry] plan state state'
      fun _ => kept := by
  rcases visit_cases h hsettled with ⟨hasked, rfl⟩ |
    ⟨hasked, hverdict, budget, trimmer, budget', hwrite, rfl⟩ |
    ⟨hasked, hverdict, budget, rfl⟩
  · refine ⟨true, ?_, ?_, ?_, rfl, rfl⟩
    · simp [hasked]
    · simpa [keptInPlace, hasked] using hcarries
    · simp [rejected]
  · refine ⟨true, ?_, ?_, ?_, rfl, rfl⟩
    · simp [hverdict]
    · have hnext := hcarries.write entry.inPlace hplaced
        Iff.rfl hwrite rfl
      simpa [keptInPlace, hasked, Entry.inPlace] using hnext
    · simp [rejected]
  · refine ⟨false, ?_, ?_, ?_, rfl, rfl⟩
    · simp [hverdict]
    · have hnext : Carries payload plan { state with
          budget := budget
          removed := state.removed + 1 } :=
        hcarries.congr rfl rfl
      simpa [keptInPlace] using hnext
    · simp [rejected, hasked]

theorem Visited.cons {entry : Entry} {walked : List Entry}
    {plan : List Placement} {state middle state' : TrimState}
    {accept : Entry → Bool} {kept : Bool} (hfresh : entry ∉ walked)
    (hfirst : Visited payload keep refill [entry] plan state middle
      fun _ => kept)
    (hrest : Visited payload keep refill walked
      (plan ++ keptInPlace state.refilled refill (fun _ => kept) [entry])
      middle state' accept) :
    Visited payload keep refill (entry :: walked) plan state state'
      fun other => if other = entry then kept else accept other := by
  obtain ⟨hverdicts, hcarries, hrejected, hanswered, hrefilled⟩ := hrest
  rw [hfirst.refilled] at hverdicts hcarries hrejected hrefilled
  have hsame : ∀ other ∈ walked,
      accept other = if other = entry then kept else accept other := by
    intro other hmem
    rw [if_neg]
    rintro rfl
    exact hfresh hmem
  refine ⟨?_, ?_, ?_, hanswered.trans hfirst.answered, hrefilled⟩
  · intro other hmem hasked
    by_cases heq : other = entry
    · subst heq
      simpa using hfirst.verdict other List.mem_cons_self hasked
    · rw [if_neg heq]
      exact hverdicts other ((List.mem_cons.mp hmem).resolve_left heq) hasked
  · rw [keptInPlace_congr hsame] at hcarries
    convert hcarries using 1
    simp only [keptInPlace, List.filter_cons, List.filter_nil, if_true]
    split <;> simp
  · rw [hrejected, hfirst.removed, rejected_congr hsame]
    simp only [rejected, List.countP_cons, List.countP_nil, if_true]
    omega

theorem visitAll_settled {walked : List Entry} {plan : List Placement}
    {state state' : TrimState}
    (h : state.visitAll payload keep refill candidates walked = .ok state')
    (hplaced : ∀ entry ∈ walked, entry.WellPlaced payload)
    (hnodup : walked.Nodup)
    (hsettled : ∀ entry ∈ walked, Settled state entry)
    (hcarries : Carries payload plan state) :
    ∃ accept, Visited payload keep refill walked plan state state' accept := by
  induction walked generalizing plan state with
  | nil =>
      cases h
      exact ⟨fun _ => true, by simp, by simpa [keptInPlace] using hcarries,
        by simp [rejected], rfl, rfl⟩
  | cons entry walked ih =>
      obtain ⟨hfresh, hnodup'⟩ := List.nodup_cons.mp hnodup
      simp only [TrimState.visitAll] at h
      cases hvisit : state.visit payload keep refill candidates entry with
      | error e => simp [hvisit, bind, Except.bind] at h
      | ok middle =>
          simp only [hvisit, bind, Except.bind] at h
          obtain ⟨kept, hfirst⟩ := visit_settled hvisit
            (hplaced entry List.mem_cons_self)
            (hsettled entry List.mem_cons_self) hcarries
          obtain ⟨accept, hrest⟩ := ih h
            (fun other hmem => hplaced other (List.mem_cons_of_mem entry hmem))
            hnodup' (fun other hmem => by
              rw [Settled, hfirst.answered]
              exact hsettled other (List.mem_cons_of_mem entry hmem))
            hfirst.carries
          exact ⟨_, Visited.cons hfresh hfirst hrest⟩

def refillPlan (refilled : Bool) (refill : Entry → Bool)
    (candidates : List Entry) : List Placement :=
  if refilled then (candidates.filter (refills refill)).map Entry.asAnswer
  else []

structure PassedAnswers (payload : Bytes) (refill : Entry → Bool)
    (candidates : List Entry) (plan : List Placement)
    (state state' : TrimState) : Prop where
  answered : state'.answered = true
  refilled : state'.refilled = (state.counts.answer == 0)
  removed : state'.removed = state.removed
  fits : state'.refilled = true → candidates.countP (refills refill) ≤ 0xffff
  carries : Carries payload
    (plan ++ refillPlan state'.refilled refill candidates) state'

theorem passAnswers_late {plan : List Placement} {state state' : TrimState}
    {entry : Entry}
    (h : state.passAnswers payload refill candidates entry = .ok state')
    (hlate : entry.sect.isLate = true) (hanswered : state.answered = false)
    (hplaced : ∀ other ∈ candidates, other.WellPlaced payload)
    (hcarries : Carries payload plan state) :
    PassedAnswers payload refill candidates plan state state' := by
  simp only [TrimState.passAnswers, hanswered, hlate, Bool.not_false,
    Bool.and_self, if_true] at h
  have hpassed : Carries payload plan { state with
      answered := true
      refilled := state.counts.answer == 0 } :=
    hcarries.congr rfl rfl
  split at h
  · rename_i hempty
    obtain ⟨hrefill, hflags⟩ := refillFrom_spec h hplaced hpassed
    have hfits := refillFrom_fits h (by simp_all)
    simp only at hfits
    refine ⟨hflags.1, hflags.2.1, hflags.2.2, fun _ => by omega, ?_⟩
    rwa [refillPlan, hflags.2.1, if_pos hempty]
  · rename_i hkept
    cases h
    refine ⟨rfl, rfl, rfl, fun hempty => absurd hempty hkept, ?_⟩
    rwa [refillPlan, if_neg hkept, List.append_nil]

theorem visitAll_passAnswers {plan : List Placement}
    {state state' : TrimState} {entry : Entry} {walked : List Entry}
    (h : state.visitAll payload keep refill candidates (entry :: walked) =
      .ok state')
    (hlate : entry.sect.isLate = true) (hanswered : state.answered = false)
    (hplaced : ∀ other ∈ candidates, other.WellPlaced payload)
    (hcarries : Carries payload plan state) :
    ∃ middle, PassedAnswers payload refill candidates plan state middle ∧
      middle.visitAll payload keep refill candidates (entry :: walked) =
        .ok state' := by
  simp only [TrimState.visitAll, TrimState.visit] at h
  cases hpass : state.passAnswers payload refill candidates entry with
  | error e => simp [hpass, bind, Except.bind] at h
  | ok middle =>
      have hpassed := passAnswers_late hpass hlate hanswered hplaced hcarries
      refine ⟨middle, hpassed, ?_⟩
      have hsettled : Settled middle entry := .inl hpassed.answered
      rw [hpass] at h
      simp only [TrimState.visitAll, TrimState.visit,
        passAnswers_settled hsettled]
      exact h

theorem visitAll_append {state : TrimState} {first second : List Entry} :
    state.visitAll payload keep refill candidates (first ++ second) =
      (state.visitAll payload keep refill candidates first).bind
        (TrimState.visitAll payload keep refill candidates second) := by
  induction first generalizing state with
  | nil => rfl
  | cons entry first ih =>
      simp only [List.cons_append, TrimState.visitAll, bind]
      cases state.visit payload keep refill candidates entry with
      | error e => rfl
      | ok middle => exact ih

end Walk

theorem exists_split_late {walked : List Entry}
    (h : (walked.map Entry.sect).Pairwise
      fun first second => first.rank ≤ second.rank) :
    ∃ early late, walked = early ++ late ∧
      (∀ entry ∈ early, entry.sect.isLate = false) ∧
      ∀ entry ∈ late, entry.sect.isLate = true := by
  induction walked with
  | nil => exact ⟨[], [], rfl, by simp, by simp⟩
  | cons entry walked ih =>
      rw [List.map_cons, List.pairwise_cons] at h
      cases hlate : entry.sect.isLate with
      | false =>
          obtain ⟨early, late, rfl, hearly, hlate'⟩ := ih h.2
          refine ⟨entry :: early, late, rfl, ?_, hlate'⟩
          simpa [hlate] using hearly
      | true =>
          refine ⟨[], entry :: walked, rfl, by simp, fun other hmem => ?_⟩
          rcases List.mem_cons.mp hmem with rfl | hmem
          · exact hlate
          · have hrank := h.1 _ (List.mem_map_of_mem hmem)
            revert hrank hlate
            cases entry.sect <;> cases other.sect <;> decide

/-! ## The whole trim -/

/-- The trim leaves no answer although there are entries behind the answer
section. -/
def refilledBy (accept : Entry → Bool) (walked : List Entry) : Bool :=
  walked.any (fun entry => entry.sect.isLate) &&
    !walked.any fun entry => entry.sect == .answer && accept entry

/-- What comes out of a trim, in order: the entries `accept` keeps, each in its
section, and in a refilled answer section what `refill` picks. -/
def planned (accept refill : Entry → Bool) (walked : List Entry) :
    List Placement :=
  if refilledBy accept walked then
    (walked.filter fun entry =>
      !entry.sect.isLate && accept entry).map Entry.inPlace ++
    (walked.filter (refills refill)).map Entry.asAnswer ++
    (walked.filter fun entry =>
      entry.sect.isLate && (!refill entry && accept entry)).map Entry.inPlace
  else (walked.filter accept).map Entry.inPlace

section Whole

variable {refill accept accept' : Entry → Bool} {early late : List Entry}

def joinVerdicts (accept accept' : Entry → Bool) (entry : Entry) : Bool :=
  if entry.sect.isLate then accept' entry else accept entry

theorem joinVerdicts_early
    (hearly : ∀ entry ∈ early, entry.sect.isLate = false) :
    ∀ entry ∈ early, joinVerdicts accept accept' entry = accept entry :=
  fun entry hmem => by simp [joinVerdicts, hearly entry hmem]

theorem joinVerdicts_late
    (hlate : ∀ entry ∈ late, entry.sect.isLate = true) :
    ∀ entry ∈ late, joinVerdicts accept accept' entry = accept' entry :=
  fun entry hmem => by simp [joinVerdicts, hlate entry hmem]

theorem count_answer_keptInPlace (walked : List Entry) :
    ((countSections ((keptInPlace false refill accept walked).map
        Placement.sect)).answer == 0) =
      !walked.any fun entry => entry.sect == .answer && accept entry := by
  induction walked with
  | nil => rfl
  | cons entry walked ih =>
      simp only [keptInPlace, countSections, List.filter_cons, asked,
        Bool.false_and, Bool.not_false, Bool.true_and] at ih ⊢
      cases haccept : accept entry with
      | false => simpa [haccept] using ih
      | true =>
          cases hsect : entry.sect <;>
            simp_all [Entry.inPlace]

theorem refilledBy_append (hlate : ∀ entry ∈ late, entry.sect.isLate = true)
    (hearly : ∀ entry ∈ early, entry.sect.isLate = false)
    (hne : late ≠ []) :
    refilledBy (joinVerdicts accept accept') (early ++ late) =
      !early.any fun entry => entry.sect == .answer && accept entry := by
  have hany : late.any (fun entry => entry.sect.isLate) = true := by
    obtain ⟨entry, hmem⟩ := List.exists_mem_of_ne_nil late hne
    exact List.any_eq_true.mpr ⟨entry, hmem, hlate entry hmem⟩
  have hnone : (late.any fun entry => entry.sect == .answer &&
      joinVerdicts accept accept' entry) = false := by
    rw [List.any_eq_false]
    intro entry hmem
    have := hlate entry hmem
    revert this
    cases entry.sect <;> simp [Section.isLate]
  have hsame : (early.any fun entry => entry.sect == .answer &&
      joinVerdicts accept accept' entry) =
      early.any fun entry => entry.sect == .answer && accept entry := by
    rw [Bool.eq_iff_iff, List.any_eq_true, List.any_eq_true]
    refine exists_congr fun entry => and_congr_right fun hmem => ?_
    rw [joinVerdicts_early hearly entry hmem]
  rw [refilledBy, List.any_append, List.any_append, hany, hnone, hsame]
  simp

theorem planned_append (refill : Entry → Bool)
    (hlate : ∀ entry ∈ late, entry.sect.isLate = true)
    (hearly : ∀ entry ∈ early, entry.sect.isLate = false)
    {refilled : Bool}
    (hrefilled : refilledBy (joinVerdicts accept accept') (early ++ late) =
      refilled) :
    planned (joinVerdicts accept accept') refill (early ++ late) =
      keptInPlace false refill accept early ++
        refillPlan refilled refill (early ++ late) ++
        keptInPlace refilled refill accept' late := by
  have hfirst : (early.filter fun entry =>
      asked false refill entry && accept entry) =
      early.filter (joinVerdicts accept accept') := by
    refine List.filter_congr fun entry hmem => ?_
    simp [asked, joinVerdicts_early hearly entry hmem]
  rw [planned, hrefilled]
  unfold keptInPlace refillPlan
  rw [hfirst]
  cases refilled with
  | true =>
      have hmine : ((early ++ late).filter fun entry => !entry.sect.isLate &&
          joinVerdicts accept accept' entry) =
          early.filter (joinVerdicts accept accept') := by
        rw [List.filter_append, List.filter_eq_nil_iff (l := late) |>.mpr
          fun entry hmem => by simp [hlate entry hmem], List.append_nil]
        refine List.filter_congr fun entry hmem => ?_
        simp [hearly entry hmem]
      have htheirs : ((early ++ late).filter fun entry => entry.sect.isLate &&
          (!refill entry && joinVerdicts accept accept' entry)) =
          late.filter fun entry =>
            asked true refill entry && accept' entry := by
        rw [List.filter_append, List.filter_eq_nil_iff.mpr
          fun entry hmem => by simp [hearly entry hmem], List.nil_append]
        refine List.filter_congr fun entry hmem => ?_
        simp [asked, refills, hlate entry hmem,
          joinVerdicts_late hlate entry hmem]
      simp only [if_true, hmine, htheirs]
  | false =>
      have hlast : (late.filter fun entry =>
          asked false refill entry && accept' entry) =
          late.filter (joinVerdicts accept accept') := by
        refine List.filter_congr fun entry hmem => ?_
        simp [asked, joinVerdicts_late hlate entry hmem]
      simp [hlast]

theorem rejected_append (hlate : ∀ entry ∈ late, entry.sect.isLate = true)
    (hearly : ∀ entry ∈ early, entry.sect.isLate = false) {refilled : Bool} :
    rejected refilled refill (joinVerdicts accept accept') (early ++ late) =
      rejected false refill accept early +
        rejected refilled refill accept' late := by
  unfold rejected
  rw [List.countP_append]
  congr 1
  · refine List.countP_congr fun entry hmem => ?_
    simp [asked, refills, hearly entry hmem,
      joinVerdicts_early hearly entry hmem]
  · refine List.countP_congr fun entry hmem => ?_
    simp [joinVerdicts_late hlate entry hmem]

structure Followed (payload : Bytes) (keep : Keep) (refill : Entry → Bool)
    (walked : List Entry) (accept : Entry → Bool) (state : TrimState) :
    Prop where
  verdict : ∀ entry ∈ walked,
    asked (refilledBy accept walked) refill entry = true →
    Verdict keep entry (accept entry)
  carries : Carries payload (planned accept refill walked) state
  fits : refilledBy accept walked = true →
    walked.countP (refills refill) ≤ 0xffff
  removed : state.removed =
    rejected (refilledBy accept walked) refill accept walked

theorem visitAll_followed {payload : Bytes} {keep : Keep}
    {walked : List Entry} {state state' : TrimState}
    (h : state.visitAll payload keep refill walked walked = .ok state')
    (hplaced : ∀ entry ∈ walked, entry.WellPlaced payload)
    (hnodup : walked.Nodup)
    (hordered : (walked.map Entry.sect).Pairwise
      fun first second => first.rank ≤ second.rank)
    (hanswered : state.answered = false) (hrefilled : state.refilled = false)
    (hremoved : state.removed = 0) (hcarries : Carries payload [] state) :
    ∃ accept, Followed payload keep refill walked accept state' := by
  obtain ⟨early, late, hsplit, hearly, hlate⟩ := exists_split_late hordered
  nth_rewrite 2 [hsplit] at h
  rw [visitAll_append] at h
  cases hfirst : state.visitAll payload keep refill walked early with
  | error e => simp [hfirst, Except.bind] at h
  | ok middle =>
      simp only [hfirst, Except.bind] at h
      have hmem : ∀ entry ∈ early, entry ∈ walked := fun entry hmem => by
        rw [hsplit]
        exact List.mem_append_left late hmem
      have hmem' : ∀ entry ∈ late, entry ∈ walked := fun entry hmem => by
        rw [hsplit]
        exact List.mem_append_right early hmem
      rw [hsplit] at hnodup
      obtain ⟨accept, hvisited⟩ := visitAll_settled hfirst
        (fun entry hentry => hplaced entry (hmem entry hentry))
        (List.nodup_append.mp hnodup).1 (fun entry hentry => .inr (hearly entry hentry))
        hcarries
      obtain ⟨hverdict, hcarries', hremoved', hanswered', hrefilled'⟩ := hvisited
      rw [hrefilled] at hverdict hcarries' hremoved' hrefilled'
      rw [hanswered] at hanswered'
      rw [hremoved, Nat.zero_add] at hremoved'
      rw [List.nil_append] at hcarries'
      cases late with
      | nil =>
          cases h
          rw [List.append_nil] at hsplit
          subst hsplit
          have hnever : refilledBy accept walked = false := by
            simp only [refilledBy, Bool.and_eq_false_iff, List.any_eq_false]
            exact .inl fun entry hentry => by simp [hearly entry hentry]
          refine ⟨accept, ?_, ?_, by simp [hnever], ?_⟩
          · rwa [hnever]
          · rw [planned, hnever]
            simpa [keptInPlace, asked] using hcarries'
          · rwa [hnever]
      | cons entry rest =>
          obtain ⟨passed, hpassed, hrun⟩ := visitAll_passAnswers h
            (hlate entry List.mem_cons_self) hanswered' hplaced hcarries'
          obtain ⟨accept', hvisited'⟩ := visitAll_settled hrun
            (fun entry hentry => hplaced entry (hmem' entry hentry))
            (List.nodup_append.mp hnodup).2.1
            (fun _ _ => .inl hpassed.answered) hpassed.carries
          have hrefilledBy : refilledBy (joinVerdicts accept accept') walked =
              passed.refilled := by
            rw [hsplit, refilledBy_append hlate hearly (by simp),
              hpassed.refilled, hcarries'.counts, count_answer_keptInPlace]
          refine ⟨joinVerdicts accept accept', ?_, ?_,
            hrefilledBy ▸ hpassed.fits, ?_⟩
          · rw [hrefilledBy]
            intro other hother hasked
            rw [hsplit, List.mem_append] at hother
            rcases hother with hother | hother
            · rw [joinVerdicts_early hearly other hother]
              exact hverdict other hother rfl
            · rw [joinVerdicts_late hlate other hother]
              exact hvisited'.verdict other hother hasked
          · have hplan := planned_append refill hlate hearly
              (hsplit ▸ hrefilledBy)
            rw [← hsplit] at hplan
            rw [hplan]
            exact hvisited'.carries
          · rw [hrefilledBy, hvisited'.removed, hpassed.removed, hremoved']
            rw [hsplit, rejected_append hlate hearly]

end Whole

/-! ## The order of the plan -/

section PlanOrder

variable {accept refill : Entry → Bool} {walked : List Entry}

theorem map_inPlace_sect (kept : List Entry) :
    (kept.map Entry.inPlace).map Placement.sect = kept.map Entry.sect := by
  simp [Entry.inPlace, Function.comp_def]

theorem map_asAnswer_sect (picked : List Entry) :
    (picked.map Entry.asAnswer).map Placement.sect =
      List.replicate picked.length .answer := by
  induction picked with
  | nil => rfl
  | cons entry picked ih =>
      rw [List.map_cons, List.map_cons, ih]
      rfl

theorem early_question (h : refilledBy accept walked = true) :
    ∀ entry ∈ walked.filter fun entry => !entry.sect.isLate && accept entry,
      entry.sect = .question := by
  intro entry hmem
  simp only [refilledBy, Bool.and_eq_true, Bool.not_eq_true',
    List.any_eq_false] at h
  simp only [List.mem_filter, Bool.and_eq_true, Bool.not_eq_true'] at hmem
  have hanswer := h.2 entry hmem.1
  rw [hmem.2.2] at hanswer
  revert hanswer
  have hearly := hmem.2.1
  revert hearly
  cases entry.sect <;> simp [Section.isLate]

theorem planned_ordered (h : (walked.map Entry.sect).Pairwise
      fun first second => first.rank ≤ second.rank) :
    ((planned accept refill walked).map Placement.sect).Pairwise
      fun first second => first.rank ≤ second.rank := by
  have hfilter : ∀ test : Entry → Bool, ((walked.filter test).map
      Entry.sect).Pairwise fun first second => first.rank ≤ second.rank :=
    fun test => h.sublist ((List.filter_sublist).map Entry.sect)
  unfold planned
  split
  · rename_i hrefilled
    simp only [List.map_append, map_inPlace_sect, map_asAnswer_sect,
      List.pairwise_append, List.mem_append]
    refine ⟨⟨hfilter _, by simp [List.pairwise_replicate], ?_⟩, hfilter _, ?_⟩
    · intro first hfirst second _
      obtain ⟨entry, hmem, rfl⟩ := List.mem_map.mp hfirst
      rw [early_question hrefilled entry hmem]
      exact Nat.zero_le _
    · intro first hfirst second hsecond
      obtain ⟨entry, hmem, rfl⟩ := List.mem_map.mp hsecond
      simp only [List.mem_filter, Bool.and_eq_true] at hmem
      have hlow : first.rank ≤ 1 := by
        rcases hfirst with hfirst | hfirst
        · obtain ⟨other, hother, rfl⟩ := List.mem_map.mp hfirst
          rw [early_question hrefilled other hother]
          decide
        · rw [(List.mem_replicate.mp hfirst).2]
          decide
      have hhigh := Section.isLate_iff_rank.mp hmem.2.1
      omega
  · rw [map_inPlace_sect]
    exact hfilter _

theorem count_filter_le (test : Entry → Bool) (sect : Section) :
    ((walked.filter test).map Entry.sect).count sect ≤
      (walked.map Entry.sect).count sect :=
  ((List.filter_sublist).map Entry.sect).count_le sect

theorem count_filter_eq_zero {test : Entry → Bool} (sect : Section)
    (h : ∀ entry ∈ walked.filter test, entry.sect ≠ sect) :
    ((walked.filter test).map Entry.sect).count sect = 0 := by
  rw [List.count_eq_zero, List.mem_map]
  rintro ⟨entry, hmem, rfl⟩
  exact h entry hmem rfl

theorem count_planned_le (accept refill : Entry → Bool) (walked : List Entry)
    (sect : Section) :
    ((planned accept refill walked).map Placement.sect).count sect ≤
      if refilledBy accept walked = true ∧ sect = .answer then
        walked.countP (refills refill)
      else (walked.map Entry.sect).count sect := by
  unfold planned
  split
  · rename_i hrefilled
    have hquestion := early_question hrefilled
    simp only [List.map_append, map_inPlace_sect, map_asAnswer_sect,
      List.count_append, ← List.countP_eq_length_filter]
    rcases Nat.lt_or_ge sect.rank 2 with hlow | hhigh
    · have hlate : ((walked.filter fun entry => entry.sect.isLate &&
          (!refill entry && accept entry)).map Entry.sect).count sect = 0 := by
        refine count_filter_eq_zero sect fun entry hmem heq => ?_
        simp only [List.mem_filter, Bool.and_eq_true] at hmem
        have := Section.isLate_iff_rank.mp hmem.2.1
        rw [heq] at this
        omega
      rw [hlate, Nat.add_zero]
      by_cases hanswer : sect = .answer
      · rw [if_pos ⟨hrefilled, hanswer⟩, hanswer, List.count_replicate_self,
          count_filter_eq_zero .answer fun entry hmem => by
            rw [hquestion entry hmem]
            decide]
        omega
      · rw [if_neg fun h => hanswer h.2, List.count_replicate,
          if_neg (by simpa using Ne.symm hanswer), Nat.add_zero]
        exact count_filter_le _ sect
    · have hne : sect ≠ .answer := by
        rintro rfl
        exact absurd hhigh (by decide)
      rw [if_neg fun h => hne h.2, List.count_replicate,
        if_neg (by simpa using Ne.symm hne),
        count_filter_eq_zero sect fun entry hmem => by
          rw [hquestion entry hmem]
          rintro rfl
          exact absurd hhigh (by decide)]
      simpa using count_filter_le _ sect
  · rename_i hkept
    rw [if_neg fun h => hkept h.1, map_inPlace_sect]
    exact count_filter_le _ sect

theorem planned_fits {payload : Bytes}
    (hwalked : walked.map Entry.sect = announced payload)
    (hpicked : refilledBy accept walked = true →
      walked.countP (refills refill) ≤ 0xffff) :
    (countSections
      ((planned accept refill walked).map Placement.sect)).Fits := by
  have hheader := headerCounts_fits payload
  rw [← countSections_announced, ← hwalked] at hheader
  have hcount := count_planned_le accept refill walked
  refine ⟨?_, ?_, ?_, ?_⟩
  · exact Nat.lt_of_le_of_lt (by simpa [countSections] using hcount .question)
      hheader.question
  · have hle := hcount .answer
    split at hle
    · rename_i hrefilled
      have hpicks := hpicked hrefilled.1
      exact Nat.lt_of_le_of_lt hle (by omega)
    · exact Nat.lt_of_le_of_lt hle hheader.answer
  · exact Nat.lt_of_le_of_lt (by simpa [countSections] using hcount .authority)
      hheader.authority
  · exact Nat.lt_of_le_of_lt (by simpa [countSections] using hcount .additional)
      hheader.additional

end PlanOrder

/-! ## What is in the plan -/

section PlanMembers

variable {accept accept' refill : Entry → Bool} {walked : List Entry}

theorem planned_congr
    (h : ∀ entry ∈ walked, asked (refilledBy accept walked) refill entry = true →
      accept entry = accept' entry) :
    planned accept refill walked = planned accept' refill walked := by
  have hearly : ∀ entry ∈ walked, entry.sect.isLate = false →
      accept entry = accept' entry := by
    intro entry hmem hsect
    exact h entry hmem (by simp [asked, refills, hsect])
  have hrefilled : refilledBy accept walked = refilledBy accept' walked := by
    unfold refilledBy
    congr 2
    rw [Bool.eq_iff_iff, List.any_eq_true, List.any_eq_true]
    refine exists_congr fun entry => and_congr_right fun hmem => ?_
    cases hsect : entry.sect with
    | answer => rw [hearly entry hmem (by rw [hsect]; rfl)]
    | question => simp
    | authority => simp
    | additional => simp
  unfold planned
  rw [← hrefilled]
  split
  · have hfirst : (walked.filter fun entry =>
        !entry.sect.isLate && accept entry) =
        walked.filter fun entry => !entry.sect.isLate && accept' entry := by
      refine List.filter_congr fun entry hmem => ?_
      cases hsect : entry.sect.isLate with
      | false => rw [hearly entry hmem hsect]
      | true => rfl
    have hlast : (walked.filter fun entry =>
        entry.sect.isLate && (!refill entry && accept entry)) =
        walked.filter fun entry =>
          entry.sect.isLate && (!refill entry && accept' entry) := by
      refine List.filter_congr fun entry hmem => ?_
      cases hrefill : refill entry with
      | true => simp
      | false => rw [h entry hmem (by simp [asked, refills, hrefill])]
    rw [hfirst, hlast]
  · rename_i hmoved
    rw [List.filter_congr fun entry hmem =>
      h entry hmem (by simp [asked, hmoved])]

theorem mem_planned {placement : Placement}
    (h : placement ∈ planned accept refill walked) :
    placement.entry ∈ walked ∧
      (placement.sect ≠ .question → placement.entry.sect ≠ .question) ∧
      (accept placement.entry = true ∨ refill placement.entry = true) := by
  have hinPlace : ∀ test : Entry → Bool,
      (∀ entry, test entry = true → accept entry = true) →
      placement ∈ (walked.filter test).map Entry.inPlace →
      placement.entry ∈ walked ∧
        (placement.sect ≠ .question → placement.entry.sect ≠ .question) ∧
        (accept placement.entry = true ∨ refill placement.entry = true) := by
    intro test htest hmem
    obtain ⟨entry, hentry, rfl⟩ := List.mem_map.mp hmem
    obtain ⟨hwalked, hkept⟩ := List.mem_filter.mp hentry
    exact ⟨hwalked, id, .inl (htest entry hkept)⟩
  unfold planned at h
  split at h
  · rw [List.mem_append, List.mem_append] at h
    rcases h with (h | h) | h
    · exact hinPlace _ (fun entry htest => by simp_all) h
    · obtain ⟨entry, hentry, rfl⟩ := List.mem_map.mp h
      obtain ⟨hwalked, hrefills⟩ := List.mem_filter.mp hentry
      simp only [refills, Bool.and_eq_true] at hrefills
      exact ⟨hwalked, fun _ => Section.isLate_ne_question hrefills.1,
        .inr hrefills.2⟩
    · exact hinPlace _ (fun entry htest => by simp_all) h
  · exact hinPlace _ (fun _ htest => htest) h

theorem planned_has_answer (accept refill : Entry → Bool) {entry : Entry}
    (hmem : entry ∈ walked)
    (hsect : entry.sect ≠ .question) (haccept : accept entry = true)
    (hrefill : refill entry = true) :
    (∃ placement ∈ planned accept refill walked, placement.entry = entry) ∧
      ∃ placement ∈ planned accept refill walked,
        placement.sect = .answer := by
  unfold planned
  cases hrefilled : refilledBy accept walked with
  | true =>
      have hlate : entry.sect.isLate = true := by
        simp only [refilledBy, Bool.and_eq_true, Bool.not_eq_true',
          List.any_eq_false] at hrefilled
        have hanswer := hrefilled.2 entry hmem
        rw [haccept] at hanswer
        revert hanswer hsect
        cases entry.sect <;> simp [Section.isLate]
      have hpicked : entry.asAnswer ∈
          (walked.filter (refills refill)).map Entry.asAnswer := by
        refine List.mem_map_of_mem (List.mem_filter.mpr ⟨hmem, ?_⟩)
        simp [refills, hlate, hrefill]
      rw [if_pos rfl]
      exact ⟨⟨entry.asAnswer, by simp [hpicked], rfl⟩,
        ⟨entry.asAnswer, by simp [hpicked], rfl⟩⟩
  | false =>
      rw [if_neg (by simp)]
      refine ⟨⟨entry.inPlace, List.mem_map_of_mem
        (List.mem_filter.mpr ⟨hmem, haccept⟩), rfl⟩, ?_⟩
      -- Without a refill, the entry is an answer or another answer was kept.
      have hanswer : ∃ other ∈ walked, other.sect = .answer ∧
          accept other = true := by
        by_cases hown : entry.sect = .answer
        · exact ⟨entry, hmem, hown, haccept⟩
        · simp only [refilledBy, Bool.and_eq_false_iff, List.any_eq_false,
            Bool.not_eq_false', List.any_eq_true] at hrefilled
          rcases hrefilled with hnone | ⟨other, hother, hkept⟩
          · refine absurd ?_ (hnone entry hmem)
            revert hsect hown
            cases entry.sect <;> simp [Section.isLate]
          · exact ⟨other, hother, by simpa using hkept⟩
      obtain ⟨other, hother, hown, hkept⟩ := hanswer
      exact ⟨other.inPlace, List.mem_map_of_mem
        (List.mem_filter.mpr ⟨hother, hkept⟩), hown⟩

end PlanMembers

/-! ## The result -/

/-- `out` says of its entries `copies` what `payload` says of the entries of
`plan`, and is a complete message. -/
structure Trimmed (payload out : Bytes) (plan : List Placement)
    (copies : List Entry) (records : List Record) : Prop where
  walk : entries out = .ok copies
  sects : copies.map Entry.sect = plan.map Placement.sect
  source : List.Forall₂ (fun placement => Decodes payload placement.entry)
    plan records
  copied : List.Forall₂ (DecodesCanonically out) copies records
  opening : out.take 4 = payload.take 4
  counts : headerCounts out = countSections (copies.map Entry.sect)
  stop : walkStop dnsHeaderLen copies = out.length

structure Copied (payload out : Bytes) (copy : Entry)
    (placement : Placement) : Prop where
  sect : copy.sect = placement.sect
  same : ∃ record, Decodes payload placement.entry record ∧
    DecodesCanonically out copy record

theorem Trimmed.pairs {payload out : Bytes} {plan : List Placement}
    {copies : List Entry} {records : List Record}
    (h : Trimmed payload out plan copies records) :
    List.Forall₂ (Copied payload out) copies plan := by
  have hsource := h.source
  have hcopied := h.copied
  have hsects := h.sects
  clear h
  induction hsource generalizing copies with
  | nil =>
      cases hcopied
      exact .nil
  | cons hdecodes _ ih =>
      cases hcopied with
      | cons hcopy hrest =>
          rw [List.map_cons, List.map_cons, List.cons.injEq] at hsects
          exact .cons ⟨hsects.1, _, hdecodes, hcopy⟩ (ih hrest hsects.2)

theorem Trimmed.origin {payload out : Bytes} {plan : List Placement}
    {copies : List Entry} {records : List Record}
    (h : Trimmed payload out plan copies records) :
    ∀ copy ∈ copies, ∃ placement ∈ plan, Copied payload out copy placement := by
  have hpairs := h.pairs
  clear h
  induction hpairs with
  | nil => simp
  | cons hfirst _ ih =>
      intro copy hmem
      rcases List.mem_cons.mp hmem with rfl | hmem
      · exact ⟨_, List.mem_cons_self, hfirst⟩
      · obtain ⟨placement, hplan, hcopied⟩ := ih copy hmem
        exact ⟨placement, List.mem_cons_of_mem _ hplan, hcopied⟩

theorem Trimmed.image {payload out : Bytes} {plan : List Placement}
    {copies : List Entry} {records : List Record}
    (h : Trimmed payload out plan copies records) :
    ∀ placement ∈ plan, ∃ copy ∈ copies,
      Copied payload out copy placement := by
  have hpairs := h.pairs
  clear h
  induction hpairs with
  | nil => simp
  | cons hfirst _ ih =>
      intro placement hmem
      rcases List.mem_cons.mp hmem with rfl | hmem
      · exact ⟨_, List.mem_cons_self, hfirst⟩
      · obtain ⟨copy, hcopy, hcopied⟩ := ih placement hmem
        exact ⟨copy, List.mem_cons_of_mem _ hcopy, hcopied⟩

theorem Carries.trimmed {payload : Bytes} {plan : List Placement}
    {state : TrimState} (h : Carries payload plan state)
    (hordered : (plan.map Placement.sect).Pairwise
      fun first second => first.rank ≤ second.rank)
    (hfits : (countSections (plan.map Placement.sect)).Fits) :
    ∃ copies records, Trimmed payload
      (patchCounts state.counts state.trimmer.out) plan copies records := by
  have hlong := h.header_le_out
  obtain ⟨records, hsource, hreads⟩ := h.records
  obtain ⟨copies, hwalk, hcopied, hstop⟩ :=
    hreads _ (patchCounts_grows state.counts hlong)
  have hcounts : headerCounts (patchCounts state.counts state.trimmer.out) =
      countSections (plan.map Placement.sect) := by
    rw [headerCounts_patchCounts hlong (h.counts ▸ hfits), h.counts]
  have hsects := walkEntries_sects hwalk
  refine ⟨copies, records, ?_, hsects, hsource, hcopied, ?_, ?_, ?_⟩
  · have hlength := patchCounts_length state.counts hlong
    rw [entries, if_neg (by omega), announced_eq_sects, hcounts,
      sects_countSections hordered]
    exact hwalk
  · obtain ⟨suffix, hout⟩ := h.header
    have := h.header_le
    simp only [dnsHeaderLen] at this
    rw [patchCounts_take state.counts hlong, hout,
      List.take_append_of_le_length (by simp [dnsHeaderLen]; omega),
      List.take_take]
    rfl
  · rw [hcounts, hsects]
  · rw [hstop, patchCounts_length state.counts hlong]

theorem opening_placedOk (payload : Bytes) :
    PlacedOk inHeader payload (Trimmer.opening payload) := by
  intro offset position hget hne
  simp only [Trimmer.opening, List.getElem?_replicate] at hget
  split at hget
  · exact absurd (Option.some.inj hget).symm hne
  · cases hget

def TrimState.opening (payload : Bytes) : TrimState :=
  { trimmer := Trimmer.opening payload
    budget := budgetForMessage payload
    counts := ⟨0, 0, 0, 0⟩
    removed := 0
    answered := false
    refilled := false }

theorem visitAll_opening_followed {payload : Bytes} {keep : Keep}
    {refill : Entry → Bool} {walked : List Entry} {state : TrimState}
    (hlong : dnsHeaderLen ≤ payload.length)
    (hwalk : entries payload = .ok walked)
    (h : (TrimState.opening payload).visitAll payload keep refill walked
      walked = .ok state) :
    (∃ accept, Followed payload keep refill walked accept state) ∧
      walked.map Entry.sect = announced payload := by
  rw [entries, if_neg (by omega)] at hwalk
  have hsects := walkEntries_sects hwalk
  refine ⟨visitAll_followed h
    (fun entry hmem => (walkEntries_wellPlaced hwalk entry hmem).1)
    (walkEntries_nodup hwalk) (hsects ▸ announced_ordered payload)
    rfl rfl rfl ?_, hsects⟩
  refine ⟨⟨[], (List.append_nil _).symm⟩, hlong, .nil,
    opening_placedOk payload, rfl, [], .nil, fun final _ => ⟨[], rfl, .nil, ?_⟩⟩
  exact (List.length_take_of_le hlong).symm

theorem trim_followed {payload out : Bytes} {keep : Keep}
    {refill : Entry → Bool} {removed : Nat}
    (h : trim payload keep refill = .ok (out, removed)) :
    ∃ walked accept state, entries payload = .ok walked ∧
      Followed payload keep refill walked accept state ∧
      state.trimmer.out.length ≤ payload.length ∧
      out = patchCounts state.counts state.trimmer.out ∧
      removed = state.removed ∧
      walked.map Entry.sect = announced payload := by
  unfold trim at h
  split at h
  · cases h
  rename_i header hheader
  obtain ⟨_, hlong, rfl⟩ := slice?_eq_some_iff.mp hheader
  cases hwalk : entries payload with
  | error e => simp [hwalk, bind, Except.bind] at h
  | ok walked =>
      simp only [hwalk, bind, Except.bind] at h
      split at h
      · cases h
      rename_i state hvisit
      split at h
      · cases h
      rename_i hshort
      cases h
      obtain ⟨⟨accept, hfollowed⟩, hsects⟩ :=
        visitAll_opening_followed hlong hwalk hvisit
      exact ⟨walked, accept, state, rfl, hfollowed, by omega, rfl, rfl, hsects⟩

theorem Followed.trimmed {payload : Bytes} {keep : Keep}
    {refill accept : Entry → Bool} {walked : List Entry} {state : TrimState}
    (h : Followed payload keep refill walked accept state)
    (hsects : walked.map Entry.sect = announced payload) :
    ∃ copies records, Trimmed payload
      (patchCounts state.counts state.trimmer.out)
      (planned accept refill walked) copies records :=
  h.carries.trimmed (planned_ordered (hsects ▸ announced_ordered payload))
    (planned_fits hsects h.fits)

/-- Whenever a trim succeeds, its output says exactly what the kept entries of
the payload say, in order and in their sections; when no answer is kept, what
`refill` picks comes out as the answer section and nowhere else. -/
theorem trim_preserves_meaning {payload out : Bytes} {keep : Keep}
    {refill : Entry → Bool} {removed : Nat}
    (h : trim payload keep refill = .ok (out, removed)) :
    ∃ walked accept copies records, entries payload = .ok walked ∧
      (∀ entry ∈ walked,
        asked (refilledBy accept walked) refill entry = true →
        Verdict keep entry (accept entry)) ∧
      removed = rejected (refilledBy accept walked) refill accept walked ∧
      Trimmed payload out (planned accept refill walked) copies records := by
  obtain ⟨walked, accept, state, hwalk, hfollowed, _, rfl, rfl, hsects⟩ :=
    trim_followed h
  obtain ⟨copies, records, htrimmed⟩ := hfollowed.trimmed hsects
  exact ⟨walked, accept, copies, records, hwalk, hfollowed.verdict,
    hfollowed.removed, htrimmed⟩

/-- A response with one PTR answer, and in the additional section an address
whose owner is spelled inside that answer's rdata. -/
def ptrResponse : Bytes :=
  [0, 1, 0x84, 0, 0, 0, 0, 1, 0, 0, 0, 1,
    1, 97, 0, 0, 12, 0, 1, 0, 0, 0, 9, 0, 4, 1, 98, 0xc0, 12,
    0xc0, 25, 0, 1, 0, 1, 0, 0, 0, 9, 0, 4, 10, 0, 0, 1]

def dropPtr : Keep := fun entry budget => .ok (entry.rtype != typePtr, budget)

theorem trim_preserves_meaning_ptrResponse :
    ∃ walked accept copies records, entries ptrResponse = .ok walked ∧
      (∀ entry ∈ walked,
        asked (refilledBy accept walked) (fun entry => entry.rtype == 1)
          entry = true → Verdict dropPtr entry (accept entry)) ∧
      1 = rejected (refilledBy accept walked) (fun entry => entry.rtype == 1)
        accept walked ∧
      Trimmed ptrResponse
        [0, 1, 0x84, 0, 0, 0, 0, 1, 0, 0, 0, 0,
          1, 98, 1, 97, 0, 0, 1, 0, 1, 0, 0, 0, 9, 0, 4, 10, 0, 0, 1]
        (planned accept (fun entry => entry.rtype == 1) walked)
        copies records :=
  trim_preserves_meaning (by decide)

end Netflector.Net.Mdns
