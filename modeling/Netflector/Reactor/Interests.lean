import Netflector.Reactor.Poll
import Netflector.Reactor.Refinement

/-!
# Interest in the kernel

Both backends keep, for each descriptor, the key that it is read under and the
key that it is written under, and change them in one way.
-/

set_option linter.dupNamespace false

namespace Netflector.Reactor

open Netflector.Foundation

/-- Under which keys a descriptor is read and written.  A key can be there
without being armed for reading. -/
@[ext] structure Interest where
  read : Option (Key × Bool)
  write : Option Key

def Interest.none : Interest := ⟨Option.none, Option.none⟩

inductive Interest.Holds (interest : Interest) (key : Key) : Prop where
  | read (armed : Bool) (h : interest.read = some (key, armed))
  | write (h : interest.write = some key)

def Interest.Shrinks (before after : Interest) : Prop :=
  ∀ key, after.Holds key → before.Holds key

theorem Interest.not_holds_none (key : Key) : ¬ Interest.none.Holds key := by
  intro h
  cases h with
  | read armed h => cases h
  | write h => cases h

/-- What the kernel holds, and how each operation changes it. -/
class LawfulPoller (P : Type) [Poller P] where
  interest : P → RawFd → Interest
  /-- The two interests are changed by system calls of their own. -/
  Tears : Prop
  interest_new : ∀ fd, interest (Poller.new : P) fd = .none
  add_ok : ∀ (poll : P) fd key refuses,
    (Poller.add poll fd key refuses).2 = none →
    interest (Poller.add poll fd key refuses).1 fd =
      ⟨some (key, true), (interest poll fd).write⟩
  add_failed : ∀ (poll : P) fd key refuses error,
    (Poller.add poll fd key refuses).2 = some error →
    interest (Poller.add poll fd key refuses).1 = interest poll
  add_served : ∀ (poll : P) fd key refuses,
    refuses 0 = none → (interest poll fd).read = none →
    (Poller.add poll fd key refuses).2 = none
  setInterest_ok : ∀ (poll : P) fd key read write refuses,
    (Poller.setInterest poll fd key read write refuses).2 = none →
    (interest poll fd).read ≠ none ∧
    interest (Poller.setInterest poll fd key read write refuses).1 fd =
      ⟨some (key, read), if write then some key else none⟩
  setInterest_failed : ∀ (poll : P) fd key read write refuses error,
    (Poller.setInterest poll fd key read write refuses).2 = some error →
    (interest (Poller.setInterest poll fd key read write refuses).1 fd =
        interest poll fd ∧
      (refuses 0 = none → (interest poll fd).read = none)) ∨
      (Tears ∧ refuses 0 = none ∧ (interest poll fd).read ≠ none ∧
        interest (Poller.setInterest poll fd key read write refuses).1 fd =
          ⟨some (key, read), (interest poll fd).write⟩)
  setInterest_served : ∀ (poll : P) fd key read write refuses,
    refuses 0 = none → refuses 1 = none → (interest poll fd).read ≠ none →
    (Poller.setInterest poll fd key read write refuses).2 = none
  remove_ok : ∀ (poll : P) fd refuses,
    (Poller.remove poll fd refuses).2 = none →
    interest (Poller.remove poll fd refuses).1 fd = .none
  remove_shrinks : ∀ (poll : P) fd refuses,
    (interest poll fd).Shrinks
      (interest (Poller.remove poll fd refuses).1 fd)
  remove_served : ∀ (poll : P) fd refuses,
    refuses 0 = none → refuses 1 = none →
    (Poller.remove poll fd refuses).2 = none
  closed_eq : ∀ (poll : P) fd, interest (Poller.closed poll fd) fd = .none
  add_frame : ∀ (poll : P) fd key refuses other, other ≠ fd →
    interest (Poller.add poll fd key refuses).1 other = interest poll other
  setInterest_frame : ∀ (poll : P) fd key read write refuses other,
    other ≠ fd →
    interest (Poller.setInterest poll fd key read write refuses).1 other =
      interest poll other
  remove_frame : ∀ (poll : P) fd refuses other, other ≠ fd →
    interest (Poller.remove poll fd refuses).1 other = interest poll other
  closed_frame : ∀ (poll : P) fd other, other ≠ fd →
    interest (Poller.closed poll fd) other = interest poll other
  report_read : ∀ (poll : P) fd condition event,
    event ∈ Poller.report poll fd condition →
    event.readiness.readable = true →
    ∃ armed, (interest poll fd).read = some (event.key, armed) ∧
      (armed = true ∨ condition.error = true ∨ condition.hangup = true)
  report_write : ∀ (poll : P) fd condition event,
    event ∈ Poller.report poll fd condition →
    event.readiness.writable = true →
    (interest poll fd).write = some event.key
  report_ready : ∀ (poll : P) fd condition event,
    event ∈ Poller.report poll fd condition →
    event.readiness.readable = true ∨ event.readiness.writable = true
  input_reported : ∀ (poll : P) fd condition key,
    (interest poll fd).read = some (key, true) → condition.input = true →
    ∃ event ∈ Poller.report poll fd condition,
      event.key = key ∧ event.readiness.readable = true
  output_reported : ∀ (poll : P) fd condition key,
    (interest poll fd).write = some key → condition.output = true →
    ∃ event ∈ Poller.report poll fd condition,
      event.key = key ∧ event.readiness.writable = true

/-! ## epoll -/

def EpollEvent.interest (event : EpollEvent) : Interest :=
  ⟨some (Key.fromU64 event.u64, event.events.read),
    if event.events.write then some (Key.fromU64 event.u64) else none⟩

namespace Epoll

def interest (poll : Epoll) (fd : RawFd) : Interest :=
  ((poll.entries fd).map EpollEvent.interest).getD .none

theorem interest_update (poll : Epoll) (fd other : RawFd)
    (entry : Option EpollEvent) :
    interest ⟨Function.update poll.entries fd entry⟩ other =
      if other = fd then (entry.map EpollEvent.interest).getD .none
      else poll.interest other := by
  simp only [interest, Function.update_apply]
  split <;> rfl

theorem entries_eq_none {poll : Epoll} {fd : RawFd}
    (h : (poll.interest fd).read = none) : poll.entries fd = none := by
  cases hentry : poll.entries fd with
  | none => rfl
  | some event =>
      simp only [interest, hentry, Option.map_some, Option.getD_some,
        EpollEvent.interest] at h
      cases h

theorem ctl_cases (poll : Epoll) (op : CtlOp) (fd : RawFd)
    (event : EpollEvent) (refusal : Option Refusal) :
    (∃ code, poll.ctl op fd event refusal = (poll, some code) ∧
      (refusal = none → code = EEXIST ∧ op = .add ∧ poll.entries fd ≠ none ∨
        code = ENOENT ∧ op ≠ .add ∧ poll.entries fd = none)) ∨
    (refusal = none ∧
      (op = .add → poll.entries fd = none) ∧
      (op ≠ .add → poll.entries fd ≠ none) ∧
      poll.ctl op fd event refusal =
        (⟨Function.update poll.entries fd
          (if op = .del then none else some event)⟩, none)) := by
  cases refusal with
  | some refusal => exact .inl ⟨refusal.code, rfl, fun hnone => by cases hnone⟩
  | none =>
      cases hentry : poll.entries fd <;> cases op <;> simp [ctl, hentry]

theorem interest_self (poll : Epoll) (fd : RawFd)
    (entry : Option EpollEvent) :
    interest ⟨Function.update poll.entries fd entry⟩ fd =
      (entry.map EpollEvent.interest).getD .none := by
  rw [interest_update, if_pos rfl]

theorem ctl_frame (poll : Epoll) (op : CtlOp) (fd : RawFd)
    (event : EpollEvent) (refusal : Option Refusal) {other : RawFd}
    (h : other ≠ fd) :
    (poll.ctl op fd event refusal).1.interest other = poll.interest other := by
  rcases ctl_cases poll op fd event refusal with ⟨code, hctl, _⟩ |
    ⟨_, _, _, hctl⟩
  · rw [hctl]
  · rw [hctl, interest_update, if_neg h]

theorem remove_cases (poll : Epoll) (fd : RawFd) (refuses : Refusals) :
    ((poll.remove fd refuses).2 = none ∧
      (poll.remove fd refuses).1.interest fd = .none) ∨
    (refuses 0 ≠ none ∧ (poll.remove fd refuses).2 ≠ none ∧
      (poll.remove fd refuses).1 = poll) := by
  rcases ctl_cases poll .del fd ⟨⟨false, false⟩, 0⟩ (refuses 0) with
    ⟨code, hctl, hcode⟩ | ⟨_, _, _, hctl⟩
  · cases hrefusal : refuses 0 with
    | none =>
        left
        rcases hcode hrefusal with ⟨_, hop, _⟩ | ⟨rfl, _, hentry⟩
        · cases hop
        · simp only [remove, hctl, unlessAbsent, if_true]
          exact ⟨trivial, by simp [interest, hentry]⟩
    | some refusal =>
        right
        have hreal := refusal.real
        simp [remove, ctl, hrefusal, unlessAbsent, hreal]
  · left
    simp only [remove, hctl, unlessAbsent, if_true]
    exact ⟨trivial, by rw [interest_self]; rfl⟩

theorem mem_report {poll : Epoll} {fd : RawFd} {condition : Condition}
    {event : PollEvent} (h : event ∈ poll.report fd condition) :
    ∃ entry, poll.entries fd = some entry ∧
      event.key = Key.fromU64 entry.u64 ∧
      event.readiness.readable = (condition.input && entry.events.read ||
        condition.error || condition.hangup) ∧
      event.readiness.writable = (condition.output && entry.events.write) ∧
      (event.readiness.readable = true ∨
        event.readiness.writable = true) := by
  cases hentry : poll.entries fd with
  | none => simp [report, hentry] at h
  | some entry =>
      simp only [report, hentry] at h
      split at h
      · rename_i hready
        rw [List.mem_singleton] at h
        subst h
        refine ⟨entry, rfl, rfl, rfl, rfl, ?_⟩
        simp only [Bool.or_eq_true] at hready ⊢
        tauto
      · cases h

end Epoll

instance : LawfulPoller Epoll where
  interest := Epoll.interest
  Tears := False
  interest_new _ := rfl
  add_ok poll fd key refuses hok := by
    rcases Epoll.ctl_cases poll .add fd ⟨⟨true, false⟩, key.toU64⟩ (refuses 0)
      with ⟨code, hctl, _⟩ | ⟨_, hentry, _, hctl⟩
    · simp [Poller.add, Epoll.add, hctl] at hok
    · have hnone : (poll.interest fd).write = none := by
        simp [Epoll.interest, hentry rfl, Interest.none]
      simp only [Poller.add, Epoll.add, hctl, reduceCtorEq, if_false, hnone]
      rw [Epoll.interest_self]
      simp [EpollEvent.interest, Key.fromU64_toU64]
  add_failed poll fd key refuses error hfailed := by
    rcases Epoll.ctl_cases poll .add fd ⟨⟨true, false⟩, key.toU64⟩ (refuses 0)
      with ⟨code, hctl, _⟩ | ⟨_, _, _, hctl⟩
    · simp only [Poller.add, Epoll.add, hctl]
    · simp [Poller.add, Epoll.add, hctl] at hfailed
  add_served poll fd key refuses hserved hnone := by
    simp [Poller.add, Epoll.add, Epoll.ctl, hserved,
      Epoll.entries_eq_none hnone]
  setInterest_ok poll fd key read write refuses hok := by
    rcases Epoll.ctl_cases poll .mod fd ⟨⟨read, write⟩, key.toU64⟩ (refuses 0)
      with ⟨code, hctl, _⟩ | ⟨_, _, hthere, hctl⟩
    · simp [Poller.setInterest, Epoll.setInterest, hctl] at hok
    · refine ⟨fun hnone =>
        hthere (by simp) (Epoll.entries_eq_none hnone), ?_⟩
      simp only [Poller.setInterest, Epoll.setInterest, hctl, reduceCtorEq,
        if_false]
      rw [Epoll.interest_self]
      simp [EpollEvent.interest, Key.fromU64_toU64]
  setInterest_failed poll fd key read write refuses error hfailed := by
    left
    rcases Epoll.ctl_cases poll .mod fd ⟨⟨read, write⟩, key.toU64⟩ (refuses 0)
      with ⟨code, hctl, habsent⟩ | ⟨_, _, _, hctl⟩
    · simp only [Poller.setInterest, Epoll.setInterest, hctl, true_and]
      intro hserved
      rcases habsent hserved with ⟨_, hop, _⟩ | ⟨_, _, hentry⟩
      · cases hop
      · simp [Epoll.interest, hentry, Interest.none]
    · simp [Poller.setInterest, Epoll.setInterest, hctl] at hfailed
  setInterest_served poll fd key read write refuses hserved _ hthere := by
    have hentry : poll.entries fd ≠ none := by
      intro hnone
      exact hthere (by simp [Epoll.interest, hnone, Interest.none])
    simp [Poller.setInterest, Epoll.setInterest, Epoll.ctl, hserved,
      Option.isSome_iff_ne_none, hentry]
  remove_ok poll fd refuses hok := by
    rcases Epoll.remove_cases poll fd refuses with ⟨_, hnone⟩ | ⟨_, hfailed, _⟩
    · exact hnone
    · exact absurd hok hfailed
  remove_shrinks poll fd refuses := by
    rcases Epoll.remove_cases poll fd refuses with ⟨_, hnone⟩ | ⟨_, _, hsame⟩
    · intro key hholds
      rw [show Poller.remove poll fd refuses = poll.remove fd refuses from rfl,
        hnone] at hholds
      exact absurd hholds (Interest.not_holds_none key)
    · intro key hholds
      rwa [show Poller.remove poll fd refuses = poll.remove fd refuses from rfl,
        hsame] at hholds
  remove_served poll fd refuses hserved _ := by
    rcases Epoll.remove_cases poll fd refuses with ⟨hok, _⟩ | ⟨hrefused, _, _⟩
    · exact hok
    · exact absurd hserved hrefused
  closed_eq poll fd := Epoll.interest_self poll fd none
  add_frame poll fd key refuses other hne :=
    Epoll.ctl_frame poll .add fd ⟨⟨true, false⟩, key.toU64⟩ (refuses 0) hne
  setInterest_frame poll fd key read write refuses other hne :=
    Epoll.ctl_frame poll .mod fd ⟨⟨read, write⟩, key.toU64⟩ (refuses 0) hne
  remove_frame poll fd refuses other hne :=
    Epoll.ctl_frame poll .del fd ⟨⟨false, false⟩, 0⟩ (refuses 0) hne
  closed_frame poll fd other hne := by
    rw [show Poller.closed poll fd =
      (⟨Function.update poll.entries fd none⟩ : Epoll) from rfl,
      Epoll.interest_update, if_neg hne]
  report_read poll fd condition event hmem hreadable := by
    obtain ⟨entry, hentry, hkey, hread, _, _⟩ := Epoll.mem_report hmem
    refine ⟨entry.events.read, ?_, ?_⟩
    · simp [Epoll.interest, hentry, EpollEvent.interest, hkey]
    · rw [hreadable, eq_comm] at hread
      simp only [Bool.or_eq_true, Bool.and_eq_true] at hread
      tauto
  report_write poll fd condition event hmem hwritable := by
    obtain ⟨entry, hentry, hkey, _, hwrite, _⟩ := Epoll.mem_report hmem
    rw [hwritable, eq_comm, Bool.and_eq_true] at hwrite
    simp [Epoll.interest, hentry, EpollEvent.interest, hwrite.2, hkey]
  report_ready poll fd condition event hmem := by
    obtain ⟨_, _, _, _, _, hready⟩ := Epoll.mem_report hmem
    exact hready
  input_reported poll fd condition key hread hinput := by
    cases hentry : poll.entries fd with
    | none => simp [Epoll.interest, hentry, Interest.none] at hread
    | some entry =>
        simp only [Epoll.interest, hentry, Option.map_some, Option.getD_some,
          EpollEvent.interest, Option.some.injEq, Prod.mk.injEq] at hread
        simp [Poller.report, Epoll.report, hentry, hread.1, hread.2, hinput]
  output_reported poll fd condition key hwrite houtput := by
    cases hentry : poll.entries fd with
    | none => simp [Epoll.interest, hentry, Interest.none] at hwrite
    | some entry =>
        simp only [Epoll.interest, hentry, Option.map_some, Option.getD_some,
          EpollEvent.interest] at hwrite
        split at hwrite
        · rename_i harmed
          cases hwrite
          simp [Poller.report, Epoll.report, hentry, harmed, houtput]
        · cases hwrite

/-! ## kqueue -/

def Filters.interest (filters : Filters) : Interest :=
  ⟨filters.read.map fun kevent => (Key.fromU64 kevent.udata, kevent.enabled),
    (filters.write.filter (·.enabled)).map fun kevent =>
      Key.fromU64 kevent.udata⟩

namespace Kqueue

def interest (poll : Kqueue) (fd : RawFd) : Interest :=
  (poll.filters fd).interest

theorem interest_update (poll : Kqueue) (fd other : RawFd)
    (filters : Filters) :
    interest ⟨Function.update poll.filters fd filters⟩ other =
      if other = fd then filters.interest else poll.interest other := by
  simp only [interest, Function.update_apply]
  split <;> rfl

theorem interest_self (poll : Kqueue) (fd : RawFd) (filters : Filters) :
    interest ⟨Function.update poll.filters fd filters⟩ fd =
      filters.interest := by
  rw [interest_update, if_pos rfl]

theorem change_failed {filter : Option Kevent} {flags : Change}
    {token : UInt64} {refusal : Option Refusal} {code : Nat}
    (h : (change filter flags token refusal).2 = some code) :
    (change filter flags token refusal).1 = filter := by
  cases refusal with
  | some refusal => rfl
  | none => cases flags <;> cases filter <;> simp_all [change]

theorem changeRead_failed {poll : Kqueue} {fd : RawFd} {flags : Change}
    {token : UInt64} {refusal : Option Refusal} {code : Nat}
    (h : (poll.changeRead fd flags token refusal).2 = some code) :
    (poll.changeRead fd flags token refusal).1 = poll := by
  have hsame : (change (poll.filters fd).read flags token refusal).1 =
      (poll.filters fd).read := change_failed h
  simp only [changeRead, hsame, Function.update_eq_self]

theorem changeRead_frame (poll : Kqueue) (fd : RawFd) (flags : Change)
    (token : UInt64) (refusal : Option Refusal) {other : RawFd}
    (h : other ≠ fd) :
    (poll.changeRead fd flags token refusal).1.interest other =
      poll.interest other := by
  simp only [changeRead]
  rw [interest_update, if_neg h]

theorem changeWrite_frame (poll : Kqueue) (fd : RawFd) (flags : Change)
    (token : UInt64) (refusal : Option Refusal) {other : RawFd}
    (h : other ≠ fd) :
    (poll.changeWrite fd flags token refusal).1.interest other =
      poll.interest other := by
  simp only [changeWrite]
  rw [interest_update, if_neg h]

theorem delete_cases (filter : Option Kevent) (token : UInt64)
    (refusal : Option Refusal) :
    (unlessAbsent (change filter .delete token refusal).2 = none ∧
      (change filter .delete token refusal).1 = none) ∨
    (refusal ≠ none ∧
      unlessAbsent (change filter .delete token refusal).2 ≠ none ∧
      (change filter .delete token refusal).1 = filter) := by
  cases refusal with
  | some refusal =>
      have hreal := refusal.real
      simp [change, unlessAbsent, hreal]
  | none => cases filter <;> simp [change, unlessAbsent]

theorem switch_cases (filter : Option Kevent) (read : Bool) (token : UInt64)
    (refusal : Option Refusal) :
    (filter ≠ none ∧ refusal = none ∧
      change filter (if read then .enable else .disable) token refusal =
        (some ⟨token, read⟩, none)) ∨
    ∃ code, change filter (if read then .enable else .disable) token refusal =
        (filter, some code) ∧ (refusal = none → filter = none) := by
  cases refusal with
  | some refusal => exact .inr ⟨refusal.code, rfl, fun hnone => by cases hnone⟩
  | none => cases filter <;> cases read <;> simp [change]

theorem arm_cases (filter : Option Kevent) (token : UInt64)
    (refusal : Option Refusal) :
    change filter .add token refusal = (some ⟨token, true⟩, none) ∨
    ∃ code, change filter .add token refusal = (filter, some code) ∧
      refusal ≠ none := by
  cases refusal with
  | some refusal =>
      exact .inr ⟨refusal.code, rfl, fun hnone => by cases hnone⟩
  | none => exact .inl rfl

theorem add_cases (poll : Kqueue) (fd : RawFd) (key : Key)
    (refuses : Refusals) :
    ((poll.add fd key refuses).2 = none ∧
      (poll.add fd key refuses).1.interest fd =
        ⟨some (key, true), (poll.interest fd).write⟩) ∨
    (refuses 0 ≠ none ∧ (poll.add fd key refuses).2 ≠ none ∧
      (poll.add fd key refuses).1 = poll) := by
  rcases arm_cases (poll.filters fd).read key.toU64 (refuses 0) with hadd |
    ⟨code, hadd, hrefused⟩
  · left
    simp only [add, changeRead, hadd, Option.map_none, true_and]
    rw [interest_self]
    simp [Filters.interest, interest, Key.fromU64_toU64]
  · right
    have hcode : (poll.changeRead fd .add key.toU64 (refuses 0)).2 =
        some code := by
      simp only [changeRead, hadd]
    simp only [add, changeRead_failed hcode, hcode]
    exact ⟨hrefused, by simp, trivial⟩

inductive Set (poll : Kqueue) (fd : RawFd) (key : Key) (read write : Bool)
    (refuses : Refusals) : Kqueue × Option IoError → Prop where
  | both (after : Kqueue) (hthere : (poll.interest fd).read ≠ none)
      (h : after.interest fd =
        ⟨some (key, read), if write then some key else none⟩) :
      Set poll fd key read write refuses (after, none)
  | first (after : Kqueue) (error : IoError)
      (hthere : (poll.interest fd).read ≠ none) (hserved : refuses 0 = none)
      (h : after.interest fd =
        ⟨some (key, read), (poll.interest fd).write⟩)
      (hrefused : refuses 1 ≠ none) :
      Set poll fd key read write refuses (after, some error)
  | neither (error : IoError)
      (hrefused : refuses 0 = none → (poll.interest fd).read = none) :
      Set poll fd key read write refuses (poll, some error)

theorem setInterest_cases (poll : Kqueue) (fd : RawFd) (key : Key)
    (read write : Bool) (refuses : Refusals) :
    Set poll fd key read write refuses
      (poll.setInterest fd key read write refuses) := by
  rcases switch_cases (poll.filters fd).read read key.toU64 (refuses 0) with
    ⟨hfilter, hserved, hread⟩ | ⟨code, hread, hnone⟩
  · have hthere : (poll.interest fd).read ≠ none := by
      simpa [interest, Filters.interest] using hfilter
    have hswitched : poll.changeRead fd (if read then .enable else .disable)
        key.toU64 (refuses 0) = (⟨Function.update poll.filters fd
          { poll.filters fd with read := some ⟨key.toU64, read⟩ }⟩, none) := by
      simp only [changeRead, hread]
    simp only [setInterest, hswitched]
    cases write with
    | true =>
        rcases arm_cases (poll.filters fd).write key.toU64 (refuses 1) with
          hwrite | ⟨code, hwrite, hrefused⟩
        · simp only [if_true, changeWrite, Function.update_self, hwrite,
            Option.map_none, Function.update_idem]
          refine .both _ hthere ?_
          rw [interest_self]
          simp [Filters.interest, Key.fromU64_toU64]
        · simp only [if_true, changeWrite, Function.update_self, hwrite,
            Option.map_some, Function.update_idem]
          refine .first _ _ hthere hserved ?_ hrefused
          rw [interest_self]
          simp [Filters.interest, interest, Key.fromU64_toU64]
    | false =>
        rcases delete_cases (poll.filters fd).write key.toU64 (refuses 1) with
          ⟨hfailed, hwrite⟩ | ⟨hrefused, hfailed, hwrite⟩
        · simp only [Bool.false_eq_true, if_false, changeWrite,
            Function.update_self, hfailed, hwrite, Function.update_idem]
          refine .both _ hthere ?_
          rw [interest_self]
          simp [Filters.interest, Key.fromU64_toU64]
        · obtain ⟨error, hfailed⟩ := Option.ne_none_iff_exists'.mp hfailed
          simp only [Bool.false_eq_true, if_false, changeWrite,
            Function.update_self, hfailed, hwrite, Function.update_idem]
          refine .first _ _ hthere hserved ?_ hrefused
          rw [interest_self]
          simp [Filters.interest, interest, Key.fromU64_toU64]
  · have hsame : poll.changeRead fd (if read then .enable else .disable)
        key.toU64 (refuses 0) = (poll, some code) := by
      simp only [changeRead, hread, Function.update_eq_self]
    simp only [setInterest, hsame]
    refine .neither _ ?_
    intro hserved
    simp [interest, Filters.interest, hnone hserved]

theorem remove_cases (poll : Kqueue) (fd : RawFd) (refuses : Refusals) :
    ((poll.remove fd refuses).2 = none ∧
      (poll.remove fd refuses).1.interest fd = .none) ∨
    ((refuses 0 ≠ none ∨ refuses 1 ≠ none) ∧
      (poll.remove fd refuses).2 ≠ none ∧
      (poll.interest fd).Shrinks
        ((poll.remove fd refuses).1.interest fd)) := by
  rcases delete_cases (poll.filters fd).read 0 (refuses 0) with
    ⟨hok, hread⟩ | ⟨hrefused, hfailed, hread⟩
  · rcases delete_cases (poll.filters fd).write 0 (refuses 1) with
      ⟨hok', hwrite⟩ | ⟨hrefused, hfailed, hwrite⟩
    · left
      simp only [remove, changeRead, changeWrite, Function.update_self, hok,
        hread, hok', hwrite, Function.update_idem, true_and]
      rw [interest_self]
      rfl
    · right
      refine ⟨.inr hrefused, ?_, ?_⟩
      · simpa only [remove, changeRead, changeWrite, Function.update_self,
          hok, hread] using hfailed
      · simp only [remove, changeRead, changeWrite, Function.update_self,
          hok, hread, hwrite, Function.update_idem]
        rw [interest_self]
        intro key hholds
        cases hholds with
        | read armed h => cases h
        | write h => exact .write h
  · right
    obtain ⟨error, hfailed⟩ := Option.ne_none_iff_exists'.mp hfailed
    refine ⟨.inl hrefused, ?_, ?_⟩
    · simp [remove, changeRead, hfailed]
    · simp only [remove, changeRead, hfailed, hread, Function.update_eq_self]
      exact fun key hholds => hholds

theorem remove_frame (poll : Kqueue) (fd : RawFd) (refuses : Refusals)
    {other : RawFd} (h : other ≠ fd) :
    (poll.remove fd refuses).1.interest other = poll.interest other := by
  simp only [remove]
  split
  · exact changeRead_frame poll fd .delete 0 (refuses 0) h
  · rw [changeWrite_frame _ fd .delete 0 (refuses 1) h,
      changeRead_frame poll fd .delete 0 (refuses 0) h]

theorem setInterest_frame (poll : Kqueue) (fd : RawFd) (key : Key)
    (read write : Bool) (refuses : Refusals) {other : RawFd}
    (h : other ≠ fd) :
    (poll.setInterest fd key read write refuses).1.interest other =
      poll.interest other := by
  have hread := changeRead_frame poll fd (if read then .enable else .disable)
    key.toU64 (refuses 0) h
  simp only [setInterest]
  split
  · rename_i hsame
    rwa [hsame] at hread
  · rename_i between hsame
    rw [hsame] at hread
    exact (changeWrite_frame between fd (if write then .add else .delete)
      key.toU64 (refuses 1) h).trans hread

theorem mem_report {poll : Kqueue} {fd : RawFd} {condition : Condition}
    {event : PollEvent} :
    event ∈ poll.report fd condition ↔
      (∃ kevent, (poll.filters fd).read = some kevent ∧
        kevent.enabled = true ∧ (condition.input = true ∨
          condition.error = true ∨ condition.hangup = true) ∧
        event = ⟨Key.fromU64 kevent.udata, ⟨true, false⟩⟩) ∨
      (∃ kevent, (poll.filters fd).write = some kevent ∧
        kevent.enabled = true ∧ (condition.output = true ∨
          condition.error = true ∨ condition.hangup = true) ∧
        event = ⟨Key.fromU64 kevent.udata, ⟨false, true⟩⟩) := by
  simp only [report, List.mem_append, Option.mem_toList, Option.map_map,
    Option.map_eq_some_iff, Option.filter_eq_some_iff, Function.comp_apply,
    Bool.and_eq_true, Bool.or_eq_true, or_assoc, and_assoc,
    @eq_comm _ event]

end Kqueue

instance : LawfulPoller Kqueue where
  interest := Kqueue.interest
  Tears := True
  interest_new _ := rfl
  add_ok poll fd key refuses hok := by
    rcases Kqueue.add_cases poll fd key refuses with ⟨_, hadded⟩ |
      ⟨_, hfailed, _⟩
    · exact hadded
    · exact absurd hok hfailed
  add_failed poll fd key refuses error hfailed := by
    rcases Kqueue.add_cases poll fd key refuses with ⟨hok, _⟩ | ⟨_, _, hsame⟩
    · exact absurd (hfailed.symm.trans hok) (by simp)
    · exact congrArg Kqueue.interest hsame
  add_served poll fd key refuses hserved _ := by
    rcases Kqueue.add_cases poll fd key refuses with ⟨hok, _⟩ |
      ⟨hrefused, _, _⟩
    · exact hok
    · exact absurd hserved hrefused
  setInterest_ok poll fd key read write refuses hok := by
    have hcases := Kqueue.setInterest_cases poll fd key read write refuses
    simp only [Poller.setInterest] at hok ⊢
    generalize poll.setInterest fd key read write refuses = result at *
    cases hcases with
    | both after hthere h => exact ⟨hthere, h⟩
    | first after error _ _ _ _ => cases hok
    | neither error _ => cases hok
  setInterest_failed poll fd key read write refuses error hfailed := by
    have hcases := Kqueue.setInterest_cases poll fd key read write refuses
    simp only [Poller.setInterest] at hfailed ⊢
    generalize poll.setInterest fd key read write refuses = result at *
    cases hcases with
    | both after _ _ => cases hfailed
    | first after error hthere hserved h _ =>
        exact .inr ⟨trivial, hserved, hthere, h⟩
    | neither error hrefused => exact .inl ⟨rfl, hrefused⟩
  setInterest_served poll fd key read write refuses hread hwrite hthere := by
    have hcases := Kqueue.setInterest_cases poll fd key read write refuses
    simp only [Poller.setInterest]
    generalize poll.setInterest fd key read write refuses = result at *
    cases hcases with
    | both after _ _ => rfl
    | first after error _ _ _ hrefused => exact absurd hwrite hrefused
    | neither error hrefused => exact absurd (hrefused hread) hthere
  remove_ok poll fd refuses hok := by
    rcases Kqueue.remove_cases poll fd refuses with ⟨_, hnone⟩ |
      ⟨_, hfailed, _⟩
    · exact hnone
    · exact absurd hok hfailed
  remove_shrinks poll fd refuses := by
    rcases Kqueue.remove_cases poll fd refuses with ⟨_, hnone⟩ |
      ⟨_, _, hshrinks⟩
    · intro key hholds
      rw [show Poller.remove poll fd refuses = poll.remove fd refuses from rfl,
        hnone] at hholds
      exact absurd hholds (Interest.not_holds_none key)
    · exact hshrinks
  remove_served poll fd refuses hread hwrite := by
    rcases Kqueue.remove_cases poll fd refuses with ⟨hok, _⟩ |
      ⟨hrefused, _, _⟩
    · exact hok
    · exact hrefused.elim (absurd hread) (absurd hwrite)
  closed_eq poll fd := Kqueue.interest_self poll fd ⟨none, none⟩
  add_frame poll fd key refuses other hne :=
    Kqueue.changeRead_frame poll fd .add key.toU64 (refuses 0) hne
  setInterest_frame poll fd key read write refuses other hne :=
    Kqueue.setInterest_frame poll fd key read write refuses hne
  remove_frame poll fd refuses other hne :=
    Kqueue.remove_frame poll fd refuses hne
  closed_frame poll fd other hne := by
    rw [show Poller.closed poll fd =
      (⟨Function.update poll.filters fd ⟨none, none⟩⟩ : Kqueue) from rfl,
      Kqueue.interest_update, if_neg hne]
  report_read poll fd condition event hmem hreadable := by
    rcases Kqueue.mem_report.mp hmem with ⟨kevent, hread, henabled, _, rfl⟩ |
      ⟨kevent, _, _, _, rfl⟩
    · exact ⟨true, by simp [Kqueue.interest, Filters.interest, hread,
        henabled], .inl rfl⟩
    · cases hreadable
  report_write poll fd condition event hmem hwritable := by
    rcases Kqueue.mem_report.mp hmem with ⟨kevent, _, _, _, rfl⟩ |
      ⟨kevent, hwrite, henabled, _, rfl⟩
    · cases hwritable
    · simp [Kqueue.interest, Filters.interest, hwrite, henabled]
  report_ready poll fd condition event hmem := by
    rcases Kqueue.mem_report.mp hmem with ⟨_, _, _, _, rfl⟩ |
      ⟨_, _, _, _, rfl⟩
    · exact .inl rfl
    · exact .inr rfl
  input_reported poll fd condition key hread hinput := by
    simp only [Kqueue.interest, Filters.interest, Option.map_eq_some_iff,
      Prod.mk.injEq] at hread
    obtain ⟨kevent, hfilter, hkey, henabled⟩ := hread
    exact ⟨⟨key, ⟨true, false⟩⟩, Kqueue.mem_report.mpr (.inl ⟨kevent, hfilter,
      henabled, .inl hinput, by rw [hkey]⟩), rfl, rfl⟩
  output_reported poll fd condition key hwrite houtput := by
    simp only [Kqueue.interest, Filters.interest, Option.map_eq_some_iff,
      Option.filter_eq_some_iff] at hwrite
    obtain ⟨kevent, ⟨hfilter, henabled⟩, hkey⟩ := hwrite
    exact ⟨⟨key, ⟨false, true⟩⟩, Kqueue.mem_report.mpr (.inr ⟨kevent, hfilter,
      henabled, .inl houtput, by rw [hkey]⟩), rfl, rfl⟩

end Netflector.Reactor
