import Netflector.Dispatch.Inert
import Netflector.Dispatch.Lifecycle

/-!
# What the lifecycle reports

An operation on one interface leaves the entries of the others and the places
of the captures as they are.  Every change of the index an interface is bound
to, or of one of its source addresses, is reported with its captures: by a
drain or a re-read as moved, by the reconcile as rebuilt.
-/

namespace Netflector.Dispatch

open Netflector.Net

/-! ## One interface at a time -/

def CaptureEntry.place (entry : CaptureEntry) : InterfaceKey × Bool :=
  (entry.interface, entry.capture.isSome)

namespace InterfaceTable

structure Confined (interface : InterfaceKey) (before after : InterfaceTable) :
    Prop where
  length : after.entries.length = before.entries.length
  others : ∀ other, other ≠ interface → after.entry other = before.entry other
  places : after.captures.map CaptureEntry.place =
    before.captures.map CaptureEntry.place

theorem Confined.refl (interface : InterfaceKey) (table : InterfaceTable) :
    Confined interface table table :=
  ⟨rfl, fun _ _ => rfl, rfl⟩

theorem Confined.trans {interface : InterfaceKey}
    {first second third : InterfaceTable}
    (h : Confined interface first second)
    (h' : Confined interface second third) : Confined interface first third :=
  ⟨h'.length.trans h.length,
    fun other hother => (h'.others other hother).trans (h.others other hother),
    h'.places.trans h.places⟩

theorem confined_setEntry (table : InterfaceTable) (interface : InterfaceKey)
    (entry : InterfaceEntry) :
    Confined interface table (table.setEntry interface entry) := by
  refine ⟨List.length_set, fun other hother => ?_, rfl⟩
  have hindex : interface.index ≠ other.index := by
    intro hsame
    exact hother (by cases other; cases interface; simp_all)
  exact List.getElem?_set_ne hindex

theorem confined_converge (platform : Platform) (calls : ConvergeCalls)
    (table : InterfaceTable) (interface : InterfaceKey) (now : Nat) :
    Confined interface table
      (table.converge platform calls interface now).1 := by
  simp only [converge]
  split
  · exact .refl ..
  split
  · exact .refl ..
  · exact confined_setEntry ..

theorem confined_refresh (table : InterfaceTable) (interface : InterfaceKey)
    (read : Except Errno Reading) :
    Confined interface table (table.refresh interface read).1 := by
  simp only [refresh]
  split
  · exact .refl ..
  · exact confined_setEntry ..

theorem rebindFrom_places (rebind : CaptureKey → Except Errno LinkType)
    (interface : InterfaceKey) (index : Nat) (captures : List CaptureEntry) :
    (rebindFrom rebind interface index captures).1.map CaptureEntry.place =
      captures.map CaptureEntry.place := by
  induction captures generalizing index with
  | nil => rfl
  | cons capture captures ih =>
      simp only [rebindFrom]
      split
      · simp only [List.map_cons, ih]
      next hplace =>
        have hpresent : capture.capture.isSome = true := by
          rw [Option.isSome_iff_ne_none]
          exact fun habsent => hplace (.inr habsent)
        split
        · rfl
        · simp only [List.map_cons, ih, CaptureEntry.place, hpresent,
            Option.isSome_some]

theorem confined_rebindCaptures (table : InterfaceTable)
    (rebind : CaptureKey → Except Errno LinkType) (interface : InterfaceKey) :
    Confined interface table (table.rebindCaptures rebind interface).1 :=
  ⟨rfl, fun _ _ => rfl, rebindFrom_places rebind interface 0 table.captures⟩

theorem confined_settleBind (platform : Platform) (calls : ConvergeCalls)
    (table : InterfaceTable) (interface : InterfaceKey)
    (entry : InterfaceEntry) (ifindex : Nat) (was : Presence)
    (bound : Except Errno Unit) (now : Nat) :
    Confined interface table (table.settleBind platform calls interface entry
      ifindex was bound now).1 := by
  cases bound with
  | error error => exact confined_setEntry ..
  | ok done =>
      exact (confined_setEntry table interface _).trans
        (confined_converge platform calls _ interface now)

theorem confined_bind (platform : Platform) (calls : StepCalls)
    (table : InterfaceTable) (interface : InterfaceKey)
    (entry : InterfaceEntry) (ifindex now : Nat) :
    Confined interface table
      (table.bind platform calls interface entry ifindex now).1 := by
  have hrebound := confined_rebindCaptures table calls.rebind interface
  simp only [bind]
  split
  · exact confined_settleBind ..
  split
  next heq =>
    rw [heq] at hrebound
    exact hrebound.trans (confined_settleBind ..)
  next heq =>
    rw [heq] at hrebound
    exact hrebound.trans (confined_settleBind ..)

theorem confined_step (platform : Platform) (calls : StepCalls)
    (table : InterfaceTable) (interface : InterfaceKey) (now : Nat) :
    Confined interface table
      (table.step platform calls interface now).1 := by
  simp only [step]
  split
  · exact .refl ..
  split
  · exact .refl ..
  · split
    · exact .refl ..
    · exact confined_setEntry ..
    · exact confined_setEntry ..
  · split
    · split
      · exact .refl ..
      · exact confined_bind ..
    · split
      · exact .refl ..
      · exact confined_bind ..
    · exact confined_bind ..

/-! ### Places -/

theorem interfaceOf_places {before after : InterfaceTable}
    (h : after.captures.map CaptureEntry.place =
      before.captures.map CaptureEntry.place) (capture : CaptureKey) :
    after.interfaceOf capture = before.interfaceOf capture := by
  have hplace := congrArg (·[capture.index.toNat]?) h
  simp only [List.getElem?_map] at hplace
  have hfirst := congrArg (Option.map Prod.fst) hplace
  rw [Option.map_map, Option.map_map] at hfirst
  exact hfirst

theorem mem_capturesOf {table : InterfaceTable} {capture : CaptureKey}
    {interface : InterfaceKey}
    (h : table.interfaceOf capture = some interface) :
    capture ∈ table.capturesOf interface := by
  obtain ⟨entry, hentry, hinterface⟩ := Option.map_eq_some_iff.mp h
  have hmem : (entry, capture.index.toNat) ∈ table.captures.zipIdx :=
    List.mem_zipIdx_iff_getElem?.mpr hentry
  have hkey : (⟨UInt32.ofNat capture.index.toNat⟩ : CaptureKey) = capture := by
    cases capture
    simp
  exact List.mem_filterMap.mpr
    ⟨_, hmem, by simp only [hinterface, if_true, hkey]⟩

end InterfaceTable

/-! ## Footings -/

/-- What sessions and proxies rest on: the index an interface is bound to, and
its source addresses. -/
structure Footing where
  ifindex : Option Nat
  v4 : Option Ipv4Addr
  v6Any : Option Ipv6Addr
  v6Routable : Option Ipv6Addr
  deriving DecidableEq

def InterfaceEntry.footing (entry : InterfaceEntry) : Footing :=
  ⟨entry.ifindex, entry.interface.addrs.v4, entry.interface.addrs.v6Any,
    entry.interface.addrs.v6Routable⟩

namespace InterfaceTable

def footing (table : InterfaceTable) (interface : InterfaceKey) :
    Option Footing :=
  (table.entry interface).map (·.footing)

def footingOf (table : InterfaceTable) (capture : CaptureKey) :
    Option Footing :=
  (table.interfaceOf capture).bind table.footing

/-- No interface changed the index it is bound to, only those in `v4Moved`
their IPv4 address, and only those in `touched` their footing at all. -/
structure Tracks (before after : InterfaceTable)
    (v4Moved touched : List InterfaceKey) : Prop where
  places : after.captures.map CaptureEntry.place =
    before.captures.map CaptureEntry.place
  bound : ∀ interface, (after.footing interface).map (·.ifindex) =
    (before.footing interface).map (·.ifindex)
  v4 : ∀ interface, interface ∉ v4Moved →
    (after.footing interface).map (·.v4) =
      (before.footing interface).map (·.v4)
  kept : ∀ interface, interface ∉ touched →
    after.footing interface = before.footing interface

theorem tracks_of_footing {before after : InterfaceTable}
    (hplaces : after.captures.map CaptureEntry.place =
      before.captures.map CaptureEntry.place)
    (hfooting : ∀ interface,
      after.footing interface = before.footing interface) :
    Tracks before after [] [] :=
  ⟨hplaces, fun interface => by rw [hfooting],
    fun interface _ => by rw [hfooting], fun interface _ => hfooting interface⟩

theorem Tracks.trans {first second third : InterfaceTable}
    {v4Moved v4Moved' touched touched' : List InterfaceKey}
    (h : Tracks first second v4Moved touched)
    (h' : Tracks second third v4Moved' touched') :
    Tracks first third (v4Moved ++ v4Moved') (touched ++ touched') where
  places := h'.places.trans h.places
  bound interface := (h'.bound interface).trans (h.bound interface)
  v4 interface hnot := by
    rw [List.mem_append, not_or] at hnot
    exact (h'.v4 interface hnot.2).trans (h.v4 interface hnot.1)
  kept interface hnot := by
    rw [List.mem_append, not_or] at hnot
    exact (h'.kept interface hnot.2).trans (h.kept interface hnot.1)

theorem Confined.tracks {interface : InterfaceKey}
    {before after : InterfaceTable} (h : Confined interface before after)
    (hfooting : after.footing interface = before.footing interface) :
    Tracks before after [] [] := by
  refine tracks_of_footing h.places fun other => ?_
  by_cases hsame : other = interface
  · rw [hsame, hfooting]
  · rw [footing, footing, h.others other hsame]

theorem entry_setEntry {table : InterfaceTable} {interface : InterfaceKey}
    {entry : InterfaceEntry} (h : table.entry interface = some entry)
    (stored : InterfaceEntry) :
    (table.setEntry interface stored).entry interface = some stored := by
  have hlt : interface.index < table.entries.length :=
    (List.getElem?_eq_some_iff.mp h).1
  exact List.getElem?_set_self hlt

theorem converge_footing (platform : Platform) (calls : Nat → JoinCalls)
    (entry : InterfaceEntry) (now : Nat) :
    (entry.converge platform calls now).1.footing = entry.footing := by
  simp only [InterfaceEntry.converge]
  split
  next hpresence _ =>
    simp only [InterfaceEntry.footing, InterfaceEntry.ifindex]
  · rfl

theorem tracks_converge (platform : Platform) (calls : ConvergeCalls)
    (table : InterfaceTable) (interface : InterfaceKey) (now : Nat) :
    Tracks table (table.converge platform calls interface now).1 [] [] := by
  refine (confined_converge platform calls table interface now).tracks ?_
  simp only [converge]
  split
  · rfl
  split
  · rfl
  next entry hentry =>
    simp only [footing, entry_setEntry hentry, hentry, Option.map_some,
      converge_footing]

theorem tracks_convergeEach (platform : Platform)
    (calls : InterfaceKey → ConvergeCalls) (now : Nat)
    (interfaces : List InterfaceKey) (table : InterfaceTable) :
    Tracks table (convergeEach platform calls now interfaces table).1
      [] [] := by
  induction interfaces generalizing table with
  | nil => exact tracks_of_footing rfl fun _ => rfl
  | cons interface rest ih =>
      exact (tracks_converge platform (calls interface) table interface
        now).trans (ih _)

theorem wake_footing (now : Nat) (waits : Unbound → Bool)
    (entry : InterfaceEntry) :
    (entry.wake now waits).footing = entry.footing := by
  simp only [InterfaceEntry.wake]
  split
  next unbound hpresence =>
    split
    · simp only [InterfaceEntry.footing, InterfaceEntry.ifindex, hpresence]
    · rfl
  · rfl

theorem tracks_wake (table : InterfaceTable) (now : Nat)
    (waits : Unbound → Bool) :
    Tracks table { table with
      entries := table.entries.map (InterfaceEntry.wake now waits) } [] [] := by
  refine tracks_of_footing rfl fun interface => ?_
  simp only [footing, entry, List.getElem?_map, Option.map_map,
    Function.comp_def, wake_footing]

/-! ### Re-reading -/

theorem refresh_footing (entry : InterfaceEntry)
    (read : Except Errno Reading) (unread : Bool) :
    (entry.refresh read).1.ifindex = entry.ifindex ∧
      (v4MovedBy unread (entry.refresh read).2 = false →
        (entry.refresh read).1.footing.v4 = entry.footing.v4) ∧
      (touchedBy unread (entry.refresh read).2 = false →
        (entry.refresh read).1.footing = entry.footing) := by
  simp only [InterfaceEntry.refresh]
  split
  next ifindex hpresence =>
    cases read with
    | error error => exact ⟨rfl, fun _ => rfl, fun _ => rfl⟩
    | ok reading =>
        simp only [Interface.refresh, Interface.adopt, Interface.replaceAddrs,
          v4MovedBy, touchedBy, InterfaceEntry.footing,
          InterfaceEntry.ifindex, hpresence]
        refine ⟨trivial, ?_, ?_⟩
        · intro hv4
          simp only [ne_eq, decide_eq_false_iff_not, Decidable.not_not] at hv4
          exact hv4.symm
        · intro htouched
          simp only [ne_eq, Bool.or_eq_false_iff, decide_eq_false_iff_not,
            Decidable.not_not, not_or] at htouched
          obtain ⟨hv4, hany, hroutable⟩ := htouched
          rw [hv4, hany, hroutable]
  · exact ⟨rfl, fun _ => rfl, fun _ => rfl⟩
  · exact ⟨rfl, fun _ => rfl, fun _ => rfl⟩

theorem tracks_refresh {table : InterfaceTable} {interface : InterfaceKey}
    {read : Except Errno Reading} {after : InterfaceTable}
    {result : Except Errno AddressChange}
    (h : table.refresh interface read = (after, result)) (unread : Bool) :
    Tracks table after (if v4MovedBy unread result then [interface] else [])
      (if touchedBy unread result then [interface] else []) := by
  have hconfined := confined_refresh table interface read
  rw [h] at hconfined
  simp only [refresh] at h
  split at h
  next hentry =>
    cases h
    exact ⟨rfl, fun _ => rfl, fun _ _ => rfl, fun _ _ => rfl⟩
  next entry hentry =>
    cases h
    obtain ⟨hindex, hv4, hkept⟩ := refresh_footing entry read unread
    have hother : ∀ other, other ≠ interface →
        (table.setEntry interface (entry.refresh read).1).footing other =
          table.footing other := by
      intro other hne
      rw [footing, footing, hconfined.others other hne]
    have hself : (table.setEntry interface (entry.refresh read).1).footing
        interface = some (entry.refresh read).1.footing := by
      rw [footing, entry_setEntry hentry]
      rfl
    have hwas : table.footing interface = some entry.footing := by
      rw [footing, hentry]
      rfl
    refine ⟨rfl, fun other => ?_, fun other hnot => ?_, fun other hnot => ?_⟩
    · by_cases hsame : other = interface
      · rw [hsame, hself, hwas]
        exact congrArg some hindex
      · rw [hother other hsame]
    · by_cases hsame : other = interface
      · rw [hsame, hself, hwas]
        refine congrArg some (hv4 ?_)
        by_contra hmoved
        rw [Bool.not_eq_false] at hmoved
        simp [hmoved, hsame] at hnot
      · rw [hother other hsame]
    · by_cases hsame : other = interface
      · rw [hsame, hself, hwas]
        refine congrArg some (hkept ?_)
        by_contra htouched
        rw [Bool.not_eq_false] at htouched
        simp [htouched, hsame] at hnot
      · rw [hother other hsame]

theorem test_of_not_mem_keysWhere {table : InterfaceTable}
    {interface : InterfaceKey} {entry : InterfaceEntry}
    (h : table.entry interface = some entry) (hbound : entry.ifindex ≠ none)
    {read : InterfaceKey → Except Errno Reading}
    {test : Except Errno AddressChange → Bool}
    (hnot : interface ∉ keysWhere test (table.refreshAll read).2) :
    test (entry.refresh (read interface)).2 = false := by
  rw [← Bool.not_eq_true]
  intro htest
  obtain ⟨ifindex, hifindex⟩ := Option.ne_none_iff_exists'.mp hbound
  have hmem : (entry, interface.index) ∈ table.entries.zipIdx :=
    List.mem_zipIdx_iff_getElem?.mpr h
  have hresult : (interface, (entry.refresh (read interface)).2) ∈
      (table.refreshAll read).2 :=
    List.mem_filterMap.mpr ⟨_, hmem, by simp [hifindex]⟩
  exact hnot (List.mem_map.mpr
    ⟨_, List.mem_filter.mpr ⟨hresult, htest⟩, rfl⟩)

theorem refresh_unbound {entry : InterfaceEntry} (h : entry.ifindex = none)
    (read : Except Errno Reading) : (entry.refresh read).1 = entry := by
  simp only [InterfaceEntry.ifindex] at h
  simp only [InterfaceEntry.refresh]
  split
  next hpresence => simp [hpresence] at h
  · rfl
  · rfl

theorem tracks_refreshAll (table : InterfaceTable)
    (read : InterfaceKey → Except Errno Reading) (unread : Bool) :
    Tracks table (table.refreshAll read).1
      (keysWhere (v4MovedBy unread) (table.refreshAll read).2)
      (keysWhere (touchedBy unread) (table.refreshAll read).2) := by
  have hfooting : ∀ interface, (table.refreshAll read).1.footing interface =
      (table.entry interface).map fun entry =>
        (entry.refresh (read interface)).1.footing := by
    intro interface
    simp only [footing, entry, refreshAll, List.getElem?_map,
      List.getElem?_zipIdx, Option.map_map]
    cases interface
    simp [Function.comp_def]
  refine ⟨rfl, fun interface => ?_, fun interface hnot => ?_,
    fun interface hnot => ?_⟩
  · rw [hfooting, footing]
    cases hentry : table.entry interface with
    | none => rfl
    | some entry =>
        exact congrArg some
          (refresh_footing entry (read interface) unread).1
  · rw [hfooting, footing]
    cases hentry : table.entry interface with
    | none => rfl
    | some entry =>
        by_cases hbound : entry.ifindex = none
        · simp only [Option.map_some, refresh_unbound hbound]
        · exact congrArg some
            ((refresh_footing entry (read interface) unread).2.1
              (test_of_not_mem_keysWhere hentry hbound hnot))
  · rw [hfooting, footing]
    cases hentry : table.entry interface with
    | none => rfl
    | some entry =>
        by_cases hbound : entry.ifindex = none
        · simp only [Option.map_some, refresh_unbound hbound]
        · exact congrArg some
            ((refresh_footing entry (read interface) unread).2.2
              (test_of_not_mem_keysWhere hentry hbound hnot))

/-! ### Draining the monitor -/

theorem tracks_drainIndex {before : InterfaceTable} (platform : Platform)
    (calls : RefreshCalls) (priorCeiling : Option Nat) (now : Nat)
    {draining : Draining}
    (h : Tracks before draining.table draining.v4Moved draining.touched)
    (ifindex : Nat) (isLink : Bool) :
    Tracks before
      (drainIndex platform calls priorCeiling now draining ifindex
        isLink).table
      (drainIndex platform calls priorCeiling now draining ifindex
        isLink).v4Moved
      (drainIndex platform calls priorCeiling now draining ifindex
        isLink).touched := by
  simp only [drainIndex]
  split
  · have hwoken := h.trans (tracks_wake draining.table now (·.ifindex = ifindex))
    rw [List.append_nil, List.append_nil] at hwoken
    exact hwoken
  next key hkey =>
    split
    next table change hrefresh =>
      have hread := (h.trans (tracks_refresh hrefresh true)).trans
        (tracks_converge platform (calls.converge key) table key now)
      rw [List.append_nil, List.append_nil] at hread
      exact hread
    next table error hrefresh =>
      exact h.trans (tracks_refresh hrefresh true)

theorem tracks_drainEach {before : InterfaceTable} (platform : Platform)
    (calls : RefreshCalls) (priorCeiling : Option Nat) (now : Nat)
    (changed : List (Nat × Bool)) {draining : Draining}
    (h : Tracks before draining.table draining.v4Moved draining.touched) :
    Tracks before
      (changed.foldl (fun draining entry => drainIndex platform calls
        priorCeiling now draining entry.1 entry.2) draining).table
      (changed.foldl (fun draining entry => drainIndex platform calls
        priorCeiling now draining entry.1 entry.2) draining).v4Moved
      (changed.foldl (fun draining entry => drainIndex platform calls
        priorCeiling now draining entry.1 entry.2) draining).touched := by
  induction changed generalizing draining with
  | nil => exact h
  | cons entry changed ih =>
      exact ih (tracks_drainIndex platform calls priorCeiling now h entry.1
        entry.2)

end InterfaceTable

/-! ## Steps -/

namespace InterfaceTable

inductive Stepped (platform : Platform) (calls : StepCalls)
    (table : InterfaceTable) (interface : InterfaceKey)
    (entry : InterfaceEntry) (now : Nat) : InterfaceTable → Step → Prop where
  | kept : Stepped platform calls table interface entry now table .kept
  | lookupFailed (error : Errno) (hlookup : calls.lookup = .error error) :
      Stepped platform calls table interface entry now table
        (.lookupFailed error)
  /-- It was not bound before either. -/
  | stillUnbound (hunbound : entry.ifindex = none) :
      Stepped platform calls table interface entry now
        (table.setEntry interface { entry with presence := .parked })
        (.parked none)
  | parked (was : Nat) (hpresence : entry.presence = .present was) :
      Stepped platform calls table interface entry now
        (table.setEntry interface (entry.release .parked)) (.parked (some was))
  | bindFailed (rebound : InterfaceTable)
      (hentries : rebound.entries = table.entries) (before : InterfaceEntry)
      (unbound : Unbound) (ifindex : Nat) (error : Errno) (retryIn : Nat)
      (first : Bool) :
      Stepped platform calls table interface entry now
        (rebound.setEntry interface (before.release (.unbound unbound)))
        (.bindFailed entry.presence ifindex error retryIn first)
  | bound (rebound : InterfaceTable)
      (hentries : rebound.entries = table.entries) (fresh : Interface)
      (ifindex : Nat) :
      Stepped platform calls table interface entry now
        ((rebound.setEntry interface ⟨fresh, .present ifindex,
          entry.memberships.map Memberships.rebase⟩).converge platform
            calls.converge interface now).1
        (.bound entry.presence ifindex
          ((rebound.setEntry interface ⟨fresh, .present ifindex,
            entry.memberships.map Memberships.rebase⟩).converge platform
              calls.converge interface now).2)

theorem bind_stepped (platform : Platform) (calls : StepCalls)
    (table : InterfaceTable) (interface : InterfaceKey)
    (entry : InterfaceEntry) (ifindex now : Nat) :
    Stepped platform calls table interface entry now
      (table.bind platform calls interface entry ifindex now).1
      (table.bind platform calls interface entry ifindex now).2 := by
  have hentries : (table.rebindCaptures calls.rebind interface).1.entries =
      table.entries := rfl
  simp only [bind]
  split
  · exact .bindFailed table rfl _ _ ifindex _ _ _
  split
  next rebound error heq =>
    rw [heq] at hentries
    exact .bindFailed rebound hentries _ _ ifindex _ _ _
  next rebound heq =>
    rw [heq] at hentries
    exact .bound rebound hentries _ ifindex

theorem step_stepped {table : InterfaceTable} {interface : InterfaceKey}
    {entry : InterfaceEntry} (h : table.entry interface = some entry)
    (platform : Platform) (calls : StepCalls) (now : Nat) :
    Stepped platform calls table interface entry now
      (table.step platform calls interface now).1
      (table.step platform calls interface now).2 := by
  simp only [step, h]
  split
  next error hlookup => exact .lookupFailed error hlookup
  · split
    · exact .kept
    next was hpresence => exact .parked was hpresence
    next unbound hpresence =>
      exact .stillUnbound (by simp only [InterfaceEntry.ifindex, hpresence])
  · split
    · split
      · exact .kept
      · exact bind_stepped ..
    · split
      · exact .kept
      · exact bind_stepped ..
    · exact bind_stepped ..

theorem step_unknown {table : InterfaceTable} {interface : InterfaceKey}
    (h : table.entry interface = none) (platform : Platform)
    (calls : StepCalls) (now : Nat) :
    table.step platform calls interface now = (table, .kept) := by
  simp only [step, h]

theorem setEntry_footing {table : InterfaceTable} {interface : InterfaceKey}
    {entry : InterfaceEntry} (h : table.entry interface = some entry)
    {rebound : InterfaceTable} (hentries : rebound.entries = table.entries)
    (stored : InterfaceEntry) :
    (rebound.setEntry interface stored).footing interface =
      some stored.footing := by
  have hrebound : rebound.entry interface = some entry := by
    rw [InterfaceTable.entry, hentries]
    exact h
  rw [footing, entry_setEntry hrebound]
  rfl

theorem inert_footing {entry : InterfaceEntry} (h : entry.Inert)
    (hunbound : entry.ifindex = none) :
    entry.footing = ⟨none, none, none, none⟩ := by
  simp only [InterfaceEntry.footing, hunbound, h.addrs,
    InterfaceAddresses.default]

theorem step_unmoved {table : InterfaceTable} (hsettled : table.Settled)
    (platform : Platform) (calls : StepCalls) (interface : InterfaceKey)
    (now : Nat)
    (h : moved (table.step platform calls interface now).2 = none) :
    (table.step platform calls interface now).1.footing interface =
      table.footing interface := by
  cases hentry : table.entry interface with
  | none => rw [step_unknown hentry]
  | some entry =>
      have hwas : table.footing interface = some entry.footing := by
        rw [footing, hentry]
        rfl
      have hstepped := step_stepped hentry platform calls now
      generalize (table.step platform calls interface now).1 = after at *
      generalize (table.step platform calls interface now).2 = taken at *
      cases hstepped with
      | kept => rfl
      | lookupFailed error hlookup => rfl
      | stillUnbound hunbound =>
          rw [setEntry_footing hentry rfl, hwas]
          simp only [InterfaceEntry.footing, InterfaceEntry.ifindex] at *
          rw [hunbound]
      | parked was hpresence => simp [moved] at h
      | bindFailed rebound hentries before unbound ifindex error retryIn
          first =>
          have hunbound : entry.ifindex = none := by
            cases hpresence : entry.presence with
            | present bound => simp [moved, hpresence] at h
            | parked => simp only [InterfaceEntry.ifindex, hpresence]
            | unbound unbound => simp only [InterfaceEntry.ifindex, hpresence]
          rw [setEntry_footing hentry hentries, hwas,
            inert_footing (before.release_inert _) rfl,
            inert_footing (hsettled.entry hentry hunbound) hunbound]
      | bound rebound hentries fresh ifindex => simp [moved] at h

end InterfaceTable

/-! ## Reports -/

/-- What a capture stands on is unchanged unless it is among `touched`, and its
IPv4 address and index unless it is among `v4Moved`. -/
structure Changes.Reports (changes : Changes) (before after : InterfaceTable) :
    Prop where
  places : after.captures.map CaptureEntry.place =
    before.captures.map CaptureEntry.place
  v4 : ∀ capture, capture ∉ changes.v4Moved →
    (after.footingOf capture).map (fun footing =>
        (footing.ifindex, footing.v4)) =
      (before.footingOf capture).map fun footing =>
        (footing.ifindex, footing.v4)
  kept : ∀ capture, capture ∉ changes.touched →
    after.footingOf capture = before.footingOf capture

theorem not_mem_of_capturesFor {table : InterfaceTable}
    {capture : CaptureKey} {interface : InterfaceKey}
    {interfaces : List InterfaceKey}
    (hcapture : table.interfaceOf capture = some interface)
    (h : capture ∉ capturesFor table interfaces) : interface ∉ interfaces := by
  intro hmem
  exact h (List.mem_flatMap.mpr
    ⟨interface, hmem, InterfaceTable.mem_capturesOf hcapture⟩)

theorem InterfaceTable.Tracks.reports {before after : InterfaceTable}
    {v4Moved touched : List InterfaceKey}
    (h : before.Tracks after v4Moved touched) (reconcile : Bool) :
    Changes.Reports ⟨capturesFor after v4Moved, capturesFor after touched,
      reconcile⟩ before after := by
  have hinterface := InterfaceTable.interfaceOf_places h.places
  refine ⟨h.places, fun capture hnot => ?_, fun capture hnot => ?_⟩
  · rw [InterfaceTable.footingOf, InterfaceTable.footingOf,
      ← hinterface capture]
    cases hcapture : after.interfaceOf capture with
    | none => rfl
    | some interface =>
        have hv4 := h.v4 interface (not_mem_of_capturesFor hcapture hnot)
        have hbound := h.bound interface
        simp only [Option.bind_some]
        cases hafter : after.footing interface <;>
          cases hbefore : before.footing interface <;>
            simp_all
  · rw [InterfaceTable.footingOf, InterfaceTable.footingOf,
      ← hinterface capture]
    cases hcapture : after.interfaceOf capture with
    | none => rfl
    | some interface =>
        exact h.kept interface (not_mem_of_capturesFor hcapture hnot)

theorem recheck_reports (platform : Platform) (calls : RefreshCalls)
    (lifecycle : InterfaceLifecycle) (table : InterfaceTable) (now : Nat) :
    (lifecycle.recheck platform calls table now).2.2.Reports table
      (lifecycle.recheck platform calls table now).2.1 := by
  have htracks := (InterfaceTable.tracks_refreshAll table calls.read
    false).trans (InterfaceTable.tracks_convergeEach platform calls.converge
      now (table.refreshAll calls.read).1.interfaces _)
  rw [List.append_nil, List.append_nil] at htracks
  exact htracks.reports _

theorem drain_reports (platform : Platform) (calls : RefreshCalls)
    (lifecycle : InterfaceLifecycle) (events : List InterfaceEvent)
    (table : InterfaceTable) (now : Nat) :
    (lifecycle.drain platform calls events table now).2.2.Reports table
      (lifecycle.drain platform calls events table now).2.1 := by
  simp only [InterfaceLifecycle.drain]
  split
  · exact ⟨rfl, fun _ _ => rfl, fun _ _ => rfl⟩
  split
  · exact ((InterfaceTable.tracks_wake table now fun _ => true).trans
      (InterfaceTable.tracks_refreshAll _ calls.read true)).reports _
  · exact (InterfaceTable.tracks_drainEach platform calls _ now _
      (InterfaceTable.tracks_of_footing rfl fun _ => rfl)).reports _

structure Reconciled (before after : InterfaceTable) (rebuilt : List Rebuilt) :
    Prop where
  settled : after.Settled
  length : after.entries.length = before.entries.length
  places : after.captures.map CaptureEntry.place =
    before.captures.map CaptureEntry.place
  kept : ∀ capture, (∀ moved ∈ rebuilt, capture ∉ moved.captures) →
    after.footingOf capture = before.footingOf capture

theorem Reconciled.trans {first second third : InterfaceTable}
    {rebuilt more : List Rebuilt} (h : Reconciled first second rebuilt)
    (h' : Reconciled second third more) :
    Reconciled first third (rebuilt ++ more) where
  settled := h'.settled
  length := h'.length.trans h.length
  places := h'.places.trans h.places
  kept capture hnot := by
    have hfirst : ∀ moved ∈ rebuilt, capture ∉ moved.captures :=
      fun moved hmem => hnot moved (List.mem_append_left _ hmem)
    have hrest : ∀ moved ∈ more, capture ∉ moved.captures :=
      fun moved hmem => hnot moved (List.mem_append_right _ hmem)
    exact (h'.kept capture hrest).trans (h.kept capture hfirst)

theorem InterfaceTable.Confined.footingOf {interface : InterfaceKey}
    {before after : InterfaceTable} (h : before.Confined interface after)
    {capture : CaptureKey}
    (hother : after.interfaceOf capture ≠ some interface) :
    after.footingOf capture = before.footingOf capture := by
  rw [InterfaceTable.footingOf, InterfaceTable.footingOf,
    ← InterfaceTable.interfaceOf_places h.places capture]
  cases hcapture : after.interfaceOf capture with
  | none => rfl
  | some other =>
      have hne : other ≠ interface := by
        intro hsame
        rw [hcapture, hsame] at hother
        exact hother rfl
      simp only [Option.bind_some, InterfaceTable.footing, h.others other hne]

theorem reconcileOne_table (platform : Platform) (calls : ReconcileCalls)
    (now : Nat) (interface : InterfaceKey) (table : InterfaceTable) :
    (reconcileOne platform calls now interface table).1 =
      if (table.step platform (calls.step interface) interface now).2 = .kept
      then ((table.step platform (calls.step interface) interface now).1.converge
        platform (calls.converge interface) interface now).1
      else (table.step platform (calls.step interface) interface now).1 := by
  simp only [reconcileOne]
  split
  · rfl
  · rfl

theorem reconcileOne_confined (platform : Platform) (calls : ReconcileCalls)
    (now : Nat) (interface : InterfaceKey) (table : InterfaceTable) :
    table.Confined interface
      (reconcileOne platform calls now interface table).1 := by
  have hstep := InterfaceTable.confined_step platform (calls.step interface)
    table interface now
  rw [reconcileOne_table]
  split
  · exact hstep.trans (InterfaceTable.confined_converge ..)
  · exact hstep

theorem reconcileOne_reconciled (platform : Platform) (calls : ReconcileCalls)
    (now : Nat) (interface : InterfaceKey) {table : InterfaceTable}
    (h : table.Settled) :
    Reconciled table (reconcileOne platform calls now interface table).1
      (reconcileOne platform calls now interface table).2.2 := by
  have hstep := InterfaceTable.confined_step platform (calls.step interface)
    table interface now
  have hsettled := h.step platform (calls.step interface) interface now
  have hconfined :=
    reconcileOne_confined platform calls now interface table
  refine ⟨?_, hconfined.length, hconfined.places, fun capture hnot => ?_⟩
  · rw [reconcileOne_table]
    split
    · exact hsettled.converge _ _ _ _
    · exact hsettled
  · cases hmoved : moved
        (table.step platform (calls.step interface) interface now).2 with
    | none =>
        have hunmoved := InterfaceTable.step_unmoved h platform
          (calls.step interface) interface now hmoved
        have htracks : table.Tracks
            (reconcileOne platform calls now interface table).1 [] [] := by
          rw [reconcileOne_table]
          split
          · exact (hstep.tracks hunmoved).trans
              (InterfaceTable.tracks_converge ..)
          · exact hstep.tracks hunmoved
        exact (htracks.reports false).kept capture (by simp [capturesFor])
    | some how =>
        -- A step that moves its interface reports every capture on it.
        apply hconfined.footingOf
        intro hinterface
        have hrebuilt : (reconcileOne platform calls now interface table).2.2 =
            [⟨(reconcileOne platform calls now interface
              table).1.capturesOf interface, how = .removed⟩] := by
          simp only [reconcileOne, hmoved]
        rw [hrebuilt] at hnot
        exact hnot _ List.mem_cons_self
          (InterfaceTable.mem_capturesOf hinterface)

theorem reconcileEach_reconciled (platform : Platform)
    (calls : ReconcileCalls) (now : Nat) (interfaces : List InterfaceKey)
    {table : InterfaceTable} (h : table.Settled) :
    Reconciled table (reconcileEach platform calls now interfaces table).1
      (reconcileEach platform calls now interfaces table).2.2 := by
  induction interfaces generalizing table with
  | nil => exact ⟨h, rfl, rfl, fun _ _ => rfl⟩
  | cons interface rest ih =>
      have hfirst := reconcileOne_reconciled platform calls now interface h
      exact hfirst.trans (ih hfirst.settled)

theorem reconcile_reconciled (platform : Platform) (calls : ReconcileCalls)
    (lifecycle : InterfaceLifecycle) {table : InterfaceTable}
    (h : table.Settled) (now : Nat) :
    Reconciled table (lifecycle.reconcile platform calls table now).2.1
      (lifecycle.reconcile platform calls table now).2.2 :=
  reconcileEach_reconciled platform calls now table.interfaces h

end Netflector.Dispatch
