import Netflector.Reflector.Leg

/-!
# Folding the outcomes of one packet

A packet can match several handlers; their outcomes are folded into the one
that is recorded.
-/

namespace Netflector.Reflector

/-- The relay's type yields to a protocol's on the same packet. -/
def MessageType.isSpecific (type : MessageType) : Bool := type ≠ .udpDatagram

/-- Worst to best. -/
inductive Disposition where
  | filtered
  | skipped
  | refused
  | stalled
  | dropped
  | reflected
  deriving DecidableEq, Repr

def Disposition.rank : Disposition → Nat
  | .filtered => 0
  | .skipped => 1
  | .refused => 2
  | .stalled => 3
  | .dropped => 4
  | .reflected => 5

/-- Two handlers classified one packet to different protocols. -/
structure Anomalies where
  typeMismatch : Bool
  deriving DecidableEq, Repr

namespace Outcome

def disposition : Outcome → Disposition
  | .reflected _ => .reflected
  | .dropped _ => .dropped
  | .stalled _ => .stalled
  | .refused _ => .refused
  | .skipped _ => .skipped
  | .filtered => .filtered

def messageType : Outcome → Option MessageType
  | .reflected type | .skipped type | .refused type | .dropped type
  | .stalled type => some type
  | .filtered => none

def withType (type : MessageType) : Outcome → Outcome
  | .reflected _ => .reflected type
  | .skipped _ => .skipped type
  | .refused _ => .refused type
  | .dropped _ => .dropped type
  | .stalled _ => .stalled type
  | .filtered => .filtered

/-- The higher disposition wins, under the protocol's type where one side is
the relay. -/
def combine (outcome other : Outcome) : Outcome × Anomalies :=
  let mismatch :=
    match outcome.messageType, other.messageType with
    | some first, some second =>
        first ≠ second && first.isSpecific && second.isSpecific
    | _, _ => false
  let merged :=
    if other.disposition.rank > outcome.disposition.rank then other
    else outcome
  let merged :=
    match outcome.messageType, other.messageType with
    | some first, some second =>
        if first.isSpecific ≠ second.isSpecific then
          merged.withType (if first.isSpecific then first else second)
        else merged
    | _, _ => merged
  (merged, ⟨mismatch⟩)

end Outcome

end Netflector.Reflector
