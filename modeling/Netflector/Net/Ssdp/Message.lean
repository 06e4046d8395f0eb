import Netflector.Net.Groups
import Netflector.Net.Http.Host
import Netflector.Net.Ssdp.Dial

/-!
# SSDP messages

Searches and advertisements, told apart by their request line.
-/

namespace Netflector.Net.Ssdp

open Netflector.Foundation
open Netflector.Net.Http

inductive SsdpKind where
  | search
  | advertisement
  deriving DecidableEq, Repr

def msearchPrefix : Bytes := ascii "M-SEARCH "
def notifyPrefix : Bytes := ascii "NOTIFY "

def classify (payload : Bytes) : Option SsdpKind :=
  if msearchPrefix.isPrefixOf payload then some .search
  else if notifyPrefix.isPrefixOf payload then some .advertisement
  else none

/-- Whether the `LOCATION` names a link-local address or one that is never a
peer. -/
def advertisesOnlyUnreachable (payload : Bytes) : Bool :=
  ((dialLocationValue payload).bind fun found => urlHostIp found.2).any
    fun ip => isLinkLocal ip || isNeverAPeer ip

def msearchMxDefault : Nat := 3
def mxMin : Nat := 1
def mxMax : Nat := 5

/-- The searcher's longest wait in seconds; what follows the number does not
void it. -/
def parseMsearchMx (payload : Bytes) : Option Nat := do
  let (_, value) ← headerValue payload (ascii "MX")
  let mx ← parseUnsigned 10 0x100000000 (value.takeWhile (isDigit 10))
  some (min (max mx mxMin) mxMax)

end Netflector.Net.Ssdp
