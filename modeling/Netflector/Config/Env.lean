import Netflector.Config.Validation

/-!
# The environment

Variables `NETFLECTOR_<tag>_<param>` set the parameters of entries one at a
time, and some others the globals.  What they make is merged into the
configuration of the file.
-/

namespace Netflector.Config

open Netflector.Foundation
open Netflector.Net
open Netflector.Net.Mdns
open Netflector.Dispatch

def asciiLowercase (text : Text) : Text := text.map Char.toLower

/-! ## Values -/

inductive LogLevel where
  | off
  | error
  | warn
  | info
  | debug
  | trace
  deriving DecidableEq

def LogLevel.fromStr (text : Text) : Option LogLevel :=
  [("off".toList, off), ("error".toList, error), ("warn".toList, warn),
    ("info".toList, info), ("debug".toList, debug),
    ("trace".toList, trace)].lookup (asciiLowercase text)

inductive LogTarget where
  | stderr
  | syslog
  deriving DecidableEq

def LogTarget.fromStr (text : Text) : Option LogTarget :=
  [("stderr".toList, stderr), ("syslog".toList, syslog)].lookup
    (asciiLowercase text)

def AddressFamily.fromStr (text : Text) : Option AddressFamily :=
  [("default".toList, default), ("dual".toList, dual),
    ("ipv4".toList, ipv4), ("ipv6".toList, ipv6)].lookup
    (asciiLowercase text)

structure ValueParsers where
  runAs : Text → Option RunAs
  seconds : Text → Option Nat
  interface : Text → Option InterfaceName
  peers : Text → Option PeerList
  macs : Text → Option MacSet
  ports : Text → Option PortList
  groups : Text → Option GroupList
  services : Text → Option (List ServiceType)

def envValue {Value : Type} (parse : Text → Option Value)
    (source : ParseValueError) (value var : Text) :
    Except ConfigError Value :=
  match parse value with
  | some value => .ok value
  | none => .error (.envBadValue var value source)

def envBool (value var : Text) : Except ConfigError Bool :=
  let folded := asciiLowercase value
  if folded = "true".toList ∨ folded = "1".toList then .ok true
  else if folded = "false".toList ∨ folded = "0".toList then .ok false
  else .error (.envBadValue var value .bool)

/-! ## Parameters -/

inductive Param where
  | name
  | sourceIf
  | targetIf
  | sourcePeers
  | targetPeers
  | macs
  | wolPorts
  | addressFamily
  | wol
  | mdns
  | mdnsServices
  | ssdp
  | dial
  | wsd
  | bidirectional
  | udpPorts
  | udpGroups
  | udpBroadcast
  deriving DecidableEq

namespace Param

abbrev Value : Param → Type
  | .name => ReflectorName
  | .sourceIf | .targetIf => InterfaceName
  | .sourcePeers | .targetPeers => PeerList
  | .macs => MacSet
  | .wolPorts | .udpPorts => PortList
  | .addressFamily => AddressFamily
  | .mdnsServices => List ServiceType
  | .udpGroups => GroupList
  | .wol | .mdns | .ssdp | .dial | .wsd | .bidirectional | .udpBroadcast =>
      Bool

def all : List (Text × Param) :=
  [("name".toList, .name), ("source_if".toList, .sourceIf),
    ("target_if".toList, .targetIf), ("source_peers".toList, .sourcePeers),
    ("target_peers".toList, .targetPeers), ("macs".toList, .macs),
    ("wol_ports".toList, .wolPorts),
    ("address_family".toList, .addressFamily), ("wol".toList, .wol),
    ("mdns".toList, .mdns), ("mdns_services".toList, .mdnsServices),
    ("ssdp".toList, .ssdp), ("dial".toList, .dial), ("wsd".toList, .wsd),
    ("bidirectional".toList, .bidirectional),
    ("udp_ports".toList, .udpPorts), ("udp_groups".toList, .udpGroups),
    ("udp_broadcast".toList, .udpBroadcast)]

def ofText (text : Text) : Option Param := all.lookup text

def parse (parsers : ValueParsers) (param : Param) (value var : Text) :
    Except ConfigError param.Value :=
  match param with
  | .name => envValue ReflectorName.fromStr .reflectorName value var
  | .sourceIf => envValue parsers.interface .interface value var
  | .targetIf => envValue parsers.interface .interface value var
  | .sourcePeers => envValue parsers.peers .addresses value var
  | .targetPeers => envValue parsers.peers .addresses value var
  | .macs => envValue parsers.macs .macs value var
  | .wolPorts => envValue parsers.ports .ports value var
  | .addressFamily => envValue AddressFamily.fromStr .addressFamily value var
  | .wol => envBool value var
  | .mdns => envBool value var
  | .mdnsServices => envValue parsers.services .services value var
  | .ssdp => envBool value var
  | .dial => envBool value var
  | .wsd => envBool value var
  | .bidirectional => envBool value var
  | .udpPorts => envValue parsers.ports .ports value var
  | .udpGroups => envValue parsers.groups .addresses value var
  | .udpBroadcast => envBool value var

end Param

/-- The parameters of an entry as they arrive: a slot for each, which is
written once. -/
abbrev PartialReflector : Type := (param : Param) → Option param.Value

namespace PartialReflector

def default : PartialReflector := fun _ => none

/-- Parameters fold case, so that two variables may meet in one slot, and
their order must not pick one. -/
def set (parsers : ValueParsers) (partially : PartialReflector)
    (param value var : Text) : Except ConfigError PartialReflector :=
  match Param.ofText param with
  | none => .error (.envUnknownParam var param)
  | some slot => do
      let parsed ← slot.parse parsers value var
      if (partially slot).isSome then .error (.envDuplicateParam var param)
      else .ok (Function.update partially slot (some parsed))

def intoRaw (partially : PartialReflector) (name : Text) :
    Except ConfigError RawReflector :=
  match partially .sourceIf with
  | none => .error (.envMissingField name .sourceIf)
  | some sourceIf =>
      match partially .targetIf with
      | none => .error (.envMissingField name .targetIf)
      | some targetIf => .ok
          { name := partially .name
            sourceIf := sourceIf
            targetIf := targetIf
            sourcePeers := partially .sourcePeers
            targetPeers := partially .targetPeers
            macs := partially .macs
            addressFamily := (partially .addressFamily).getD .default
            wol := (partially .wol).getD false
            wolPorts := partially .wolPorts
            mdns := (partially .mdns).getD false
            mdnsServices := partially .mdnsServices
            ssdp := (partially .ssdp).getD false
            dial := (partially .dial).getD false
            wsd := (partially .wsd).getD false
            bidirectional := (partially .bidirectional).getD false
            udpPorts := partially .udpPorts
            udpGroups := partially .udpGroups
            udpBroadcast := (partially .udpBroadcast).getD false }

end PartialReflector

/-! ## Variables -/

structure EnvState where
  user : Option RunAs
  debugMemoryIntervalSecs : Option Nat
  countersIntervalSecs : Option Nat
  partials : SortedMap Text PartialReflector

def EnvState.new : EnvState := ⟨none, none, none, .new⟩

def stripText (opening text : Text) : Option Text :=
  if opening.isPrefixOf text then some (text.drop opening.length) else none

def splitOnce (separator : Char) : Text → Option (Text × Text)
  | [] => none
  | char :: rest =>
      if char = separator then some ([], rest)
      else (splitOnce separator rest).map fun parts =>
        (char :: parts.1, parts.2)

def reservedTag (tag : Text) : Bool :=
  tag = "log".toList || tag = "debug".toList || tag = "counters".toList

/-- A variable behind the project's prefix that is no global. -/
def parseParam (parsers : ValueParsers) (state : EnvState)
    (rest key value : Text) : Except ConfigError EnvState :=
  match splitOnce '_' rest with
  | none => .error (.envMalformedVar key)
  | some (tag, param) =>
      if tag.isEmpty || !tag.all Char.isAlphanum then
        .error (.envInvalidTag key tag)
      else if reservedTag (asciiLowercase tag) then
        .error (.envReservedTag key)
      else do
        let partially ←
          ((state.partials.get (asciiLowercase tag)).getD .default).set
            parsers (asciiLowercase param) value key
        .ok { state with
          partials := state.partials.insert (asciiLowercase tag) partially }

def parseVar (parsers : ValueParsers) (state : EnvState) (key value : Text) :
    Except ConfigError EnvState :=
  match stripText "NETFLECTOR_".toList key with
  | none => .ok state
  | some rest =>
      -- The level and the target are read before the full parse; here they
      -- are only checked.
      if rest = "LOG_LEVEL".toList then do
        let _ ← envValue LogLevel.fromStr .logLevel value key
        .ok state
      else if rest = "LOG_TARGET".toList then do
        let _ ← envValue LogTarget.fromStr .logTarget value key
        .ok state
      else if rest = "USER".toList then do
        let user ← envValue parsers.runAs .runAs value key
        .ok { state with user := some user }
      else if rest = "DEBUG_MEMORY_INTERVAL_SECS".toList then do
        let secs ← envValue parsers.seconds .integer value key
        .ok { state with debugMemoryIntervalSecs := some secs }
      else if rest = "COUNTERS_INTERVAL_SECS".toList then do
        let secs ← envValue parsers.seconds .integer value key
        .ok { state with countersIntervalSecs := some secs }
      else parseParam parsers state rest key value

def parseVars (parsers : ValueParsers) (state : EnvState) :
    List (Text × Text) → Except ConfigError EnvState
  | [] => .ok state
  | (key, value) :: rest => do
      let state ← parseVar parsers state key value
      parseVars parsers state rest

def rawReflectors : List (Text × PartialReflector) →
    SortedMap Text RawReflector →
    Except ConfigError (SortedMap Text RawReflector)
  | [], reflectors => .ok reflectors
  | (name, partially) :: rest, reflectors => do
      let raw ← partially.intoRaw name
      rawReflectors rest (reflectors.insert name raw)

def parseEnv (parsers : ValueParsers) (vars : List (Text × Text)) :
    Except ConfigError RawConfig := do
  let state ← parseVars parsers .new vars
  let reflectors ← rawReflectors state.partials.entries .new
  .ok ⟨state.user, state.debugMemoryIntervalSecs, state.countersIntervalSecs,
    reflectors⟩

/-! ## Merging -/

def eqIgnoreCase (first second : Text) : Bool :=
  asciiLowercase first = asciiLowercase second

/-- A tag is lowercase and unpadded already, but the key of a file's table is
taken as it is written. -/
def mergeReflectors : List (Text × RawReflector) →
    SortedMap Text RawReflector →
    Except ConfigError (SortedMap Text RawReflector)
  | [], reflectors => .ok reflectors
  | (name, reflector) :: rest, reflectors =>
      if reflectors.keys.any fun key => eqIgnoreCase (trim key) name then
        .error (.duplicateReflector name)
      else mergeReflectors rest (reflectors.insert name reflector)

def RawConfig.mergeEnv (file env : RawConfig) :
    Except ConfigError RawConfig := do
  let reflectors ← mergeReflectors env.reflectors.entries file.reflectors
  .ok
    { user := env.user.or file.user
      debugMemoryIntervalSecs :=
        env.debugMemoryIntervalSecs.or file.debugMemoryIntervalSecs
      countersIntervalSecs :=
        env.countersIntervalSecs.or file.countersIntervalSecs
      reflectors := reflectors }

end Netflector.Config
