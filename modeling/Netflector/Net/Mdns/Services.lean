import Netflector.Foundation.Ascii
import Netflector.Net.Mdns.Message

/-!
# The service-type allow-list

The DNS-SD service types an mDNS entry may carry, and what an allow-list makes
of one message: pass it, refuse it, or trim the records of refused services.
-/

namespace Netflector.Net.Mdns

open Netflector.Foundation

/-! ## Service types -/

/-- The longest service label: a DNS label less its underscore. -/
def maxServiceLen : Nat := 62

inductive Proto where
  | tcp
  | udp
  deriving DecidableEq, Repr

def underscore : UInt8 := 0x5f

def Proto.fromLabel (label : Bytes) : Option Proto :=
  if eqIgnoreAsciiCase label (ascii "_tcp") then some .tcp
  else if eqIgnoreAsciiCase label (ascii "_udp") then some .udp
  else none

/-- A DNS-SD service type, stored lowercased and without the underscore of its
service label, so equality is DNS's case-insensitive identity. -/
structure ServiceType where
  service : Bytes
  proto : Proto
  length_pos : 1 ≤ service.length
  length_le : service.length ≤ maxServiceLen
  lowercase : asciiLower service = service
  deriving DecidableEq

def ServiceType.fromWire (service : Bytes) (proto : Proto) :
    Option ServiceType :=
  if h : 1 ≤ service.length ∧ service.length ≤ maxServiceLen then
    some
      { service := asciiLower service
        proto := proto
        length_pos := by simpa using h.1
        length_le := by simpa using h.2
        lowercase := asciiLower_idem service }
  else none

abbrev Service := Bytes × Proto

def allows (allowed : List ServiceType) (service : Service) : Bool :=
  allowed.any fun candidate =>
    candidate.proto = service.2 ∧ eqIgnoreAsciiCase candidate.service service.1

/-! ## The service of an entry -/

structure ServiceScan where
  previous : Option Bytes
  found : Option Service
  deriving DecidableEq, Repr

/-- The service label a pair starts with, its underscore stripped; DNS-SD's
own label does not count. -/
def strippedService (label : Bytes) : Option Bytes :=
  match label with
  | [] => none
  | first :: service =>
      if first = underscore ∧ !eqIgnoreAsciiCase service (ascii "dns-sd") then
        some service
      else none

def ServiceScan.step (scan : ServiceScan) (label : Bytes) : ServiceScan :=
  let pair := do
    let previous ← scan.previous
    let proto ← Proto.fromLabel label
    let service ← strippedService previous
    some (service, proto)
  ⟨some label, pair.or scan.found⟩

/-- The `_<service>._<proto>` pair nearest the domain. -/
def serviceOfLabels (labels : List Bytes) : Option Service :=
  (labels.foldl ServiceScan.step ⟨none, none⟩).found

def serviceOf (payload : Bytes) (offset budget : Nat) :
    Except Malformed (Option Service × Nat) := do
  let (labels, budget) ← readName payload offset budget
  .ok (serviceOfLabels labels, budget)

/-- The service type `entry` falls under: a PTR's by its target, else by its
owner. -/
def entryService (entry : Entry) (payload : Bytes) (budget : Nat) :
    Except Malformed (Option Service × Nat) :=
  if entry.rtype = typePtr ∧ entry.rdata < entry.stop then do
    let (service, budget) ← serviceOf payload entry.rdata budget
    match service with
    | some service => .ok (some service, budget)
    | none => serviceOf payload entry.name budget
  else serviceOf payload entry.name budget

/-! ## Assessing a message -/

/-- A log line names this many refused types at most. -/
def maxNamedRefusals : Nat := 8

inductive Scope where
  | pass
  | refuse
  | trim
  deriving DecidableEq, Repr

/-- What `assess` notes of the entries so far.  The last three flags are about
answers: one names a service, one names an allowed service, one names none. -/
structure Tally where
  granted : Bool
  anyRefused : Bool
  unscoped : Bool
  answerScoped : Bool
  answerGranted : Bool
  answerUnscoped : Bool
  refused : List ServiceType
  deriving DecidableEq

def Tally.start : Tally := ⟨false, false, false, false, false, false, []⟩

def noteRefused (refused : List ServiceType) (service : Service) :
    List ServiceType :=
  match ServiceType.fromWire service.1 service.2 with
  | none => refused
  | some service =>
      if refused.length < maxNamedRefusals ∧ service ∉ refused then
        refused ++ [service]
      else refused

def Tally.note (allowed : List ServiceType) (answer : Bool) (tally : Tally) :
    Option Service → Tally
  | none =>
      { tally with
        unscoped := true
        answerUnscoped := tally.answerUnscoped || answer }
  | some service =>
      if allows allowed service then
        { tally with
          granted := true
          answerScoped := tally.answerScoped || answer
          answerGranted := tally.answerGranted || answer }
      else
        { tally with
          anyRefused := true
          answerScoped := tally.answerScoped || answer
          refused := noteRefused tally.refused service }

/-- Whether the list judges entries of this section: a query's questions, a
response's records. -/
def judged (kind : MdnsKind) (entry : Entry) : Bool :=
  match kind with
  | .query => entry.sect == .question
  | .response => entry.sect != .question

def assessEntries (payload : Bytes) (allowed : List ServiceType)
    (kind : MdnsKind) : List Entry → Nat → Tally → Except Malformed Tally
  | [], _, tally => .ok tally
  | entry :: rest, budget, tally => do
      let budget ← entry.checkNames payload budget
      if judged kind entry then
        let (service, budget) ← entryService entry payload budget
        assessEntries payload allowed kind rest budget
          (tally.note allowed (entry.sect == .answer) service)
      else assessEntries payload allowed kind rest budget tally

def Tally.scope (kind : MdnsKind) (tally : Tally) : Scope :=
  if !tally.anyRefused then .pass
  else match kind with
    -- Any question worth asking keeps the query whole.
    | .query => if tally.granted || tally.unscoped then .pass else .refuse
    | .response =>
        if tally.answerGranted || (tally.answerUnscoped && !tally.answerScoped)
        then .trim
        else .refuse

def assess (payload : Bytes) (allowed : List ServiceType) :
    Except Malformed (Scope × List ServiceType) :=
  match classify payload with
  | none => .error ⟨⟩
  | some kind => do
      let walked ← entries payload
      let tally ← assessEntries payload allowed kind walked
        (budgetForMessage payload) .start
      .ok (tally.scope kind, tally.refused)

/-! ## Deciding -/

inductive Decision where
  | pass
  | refuse (refused : List ServiceType)
  | trim (payload : Bytes) (removed : Nat) (refused : List ServiceType)
  | malformed
  deriving DecidableEq

/-- Questions stay, and so does every record of no service or an allowed
one. -/
def keepAllowed (payload : Bytes) (allowed : List ServiceType) : Keep :=
  fun entry budget =>
    if entry.sect = .question then .ok (true, budget)
    else do
      let (service, budget) ← entryService entry payload budget
      .ok (service.all (allows allowed), budget)

structure ServiceFilter where
  allowed : List ServiceType
  deriving DecidableEq

def ServiceFilter.decide (filter : ServiceFilter) (payload : Bytes) :
    Decision :=
  match assess payload filter.allowed with
  | .error _ => .malformed
  | .ok (.pass, _) => .pass
  | .ok (.refuse, refused) => .refuse refused
  | .ok (.trim, refused) =>
      match trim payload (keepAllowed payload filter.allowed)
          fun _ => false with
      | .ok (trimmed, removed) => .trim trimmed removed refused
      | .error _ => .malformed

end Netflector.Net.Mdns
