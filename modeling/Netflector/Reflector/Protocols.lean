import Netflector.Config.Validation
import Netflector.Net.Ssdp.Message
import Netflector.Net.Wsd
import Netflector.Reflector.Leg

/-!
# The protocols' classifiers

What each protocol makes of a captured packet.  The discovery protocols have a
leg for each direction: its own kind of message is reflected and the other
skipped.
-/

namespace Netflector.Reflector

open Netflector.Foundation
open Netflector.Net
open Netflector.Config
open Netflector.Dispatch

def directionalVerdict {Kind : Type} [DecidableEq Kind]
    (typeOf : Kind → MessageType) (kind : Option Kind) (reflect : Kind) :
    Verdict :=
  match kind with
  | some kind =>
      if kind = reflect then .reflect (typeOf kind) else .skip (typeOf kind)
  | none => .junk

/-! ## Wake-on-LAN -/

namespace Wol

def prefixLen : Nat := 6
def macLen : Nat := 6
def macReps : Nat := 16
def magicLen : Nat := prefixLen + macReps * macLen

def chunk (magic : Bytes) (index : Nat) : Bytes :=
  (magic.drop (prefixLen + index * macLen)).take macLen

/-- The target of the magic packet that opens `payload`; what trails it is not
looked at. -/
def magicPacketMac (payload : Bytes) : Option MacAddr :=
  if payload.length < magicLen then none
  else
    let magic := payload.take magicLen
    if magic.take prefixLen ≠ List.replicate prefixLen 0xff then none
    else if (List.range macReps).any fun index =>
        chunk magic index ≠ chunk magic 0 then none
    else MacAddr.ofBytes? (chunk magic 0)

def wakeAllowed (mac : MacAddr) (targets : Option MacSet) : Bool :=
  match targets with
  | some targets => targets.items.contains mac
  | none => true

/-- The filter pins only the port, so that the family is left to check. -/
structure WakeClassifier where
  targetMacs : Option MacSet
  family : AddressFamily

def WakeClassifier.classify (classifier : WakeClassifier) (packet : Packet) :
    Verdict :=
  match magicPacketMac packet.payload with
  | none => .junk
  | some mac =>
      if !wakeAllowed mac classifier.targetMacs then .excluded
      else if !classifier.family.uses packet.dest.ip then .excluded
      else .reflect .wakeOnLan

end Wol

/-! ## mDNS -/

def mdnsType : Mdns.MdnsKind → MessageType
  | .query => .mdnsQuery
  | .response => .mdnsResponse

def mdnsDirection (kind : Mdns.MdnsKind) (payload : Bytes) : Verdict :=
  directionalVerdict mdnsType (Mdns.classify payload) kind

/-- At least one address, and every one unreachable. -/
def mdnsAdvertisesOnlyUnreachable (payload : Bytes) : Bool :=
  match Mdns.advertised payload with
  | .ok advertised => advertised.unreachable && !advertised.usable
  | .error _ => false

/-! ## SSDP -/

def ssdpType : Ssdp.SsdpKind → MessageType
  | .advertisement => .ssdpAdvertisement
  | .search => .ssdpSearch

/-- Slack past the searcher's wait, for a late answer. -/
def sessionGrace : Nat := 2 * second

def ssdpWindow (payload : Bytes) : Nat :=
  (Ssdp.parseMsearchMx payload).getD Ssdp.msearchMxDefault * second +
    sessionGrace

def SSDP : SearchProtocol where
  port := Ssdp.ssdpPort
  ttl := Ssdp.ssdpTtl
  groupV4 := Ssdp.ssdpGroupV4
  groupsV6 := [Ssdp.ssdpGroupV6LinkLocal, Ssdp.ssdpGroupV6SiteLocal]
  responseType := .ssdpResponse
  announcementVerdict := fun payload =>
    directionalVerdict ssdpType (Ssdp.classify payload) .advertisement
  searchVerdict := fun payload =>
    directionalVerdict ssdpType (Ssdp.classify payload) .search
  window := ssdpWindow
  suppress := Ssdp.advertisesOnlyUnreachable

/-! ## WS-Discovery -/

def wsdType : Wsd.WsdKind → MessageType
  | .announcement => .wsdAnnouncement
  | .search => .wsdSearch

def sessionWindow : Nat := 5 * second

def WSD : SearchProtocol where
  port := Wsd.wsdPort
  ttl := Wsd.wsdTtl
  groupV4 := Wsd.wsdGroupV4
  groupsV6 := [Wsd.wsdGroupV6]
  responseType := .wsdResponse
  announcementVerdict := fun payload =>
    directionalVerdict wsdType (Wsd.classify payload) .announcement
  searchVerdict := fun payload =>
    directionalVerdict wsdType (Wsd.classify payload) .search
  window := fun _ => sessionWindow
  suppress := Wsd.advertisesOnlyUnreachable

/-! ## The relay -/

/-- It knows no protocol; its filter alone decides. -/
def relay : Packet → Verdict := fun _ => .reflect .udpDatagram

end Netflector.Reflector
