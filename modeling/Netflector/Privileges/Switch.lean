import Netflector.Config.Validation
import Netflector.Foundation.Result
import Netflector.Privileges.Process
import Netflector.Reactor.Registry

/-!
# The switch to an unprivileged account

Dropping root once the captures are open, and settling the capabilities.  Every
system call may be refused for a reason of the kernel's own; an error ends the
program, so what is left of the process then is not kept.
-/

namespace Netflector.Privileges

open Netflector.Config
open Netflector.Foundation
open Netflector.Dispatch (InterfaceName)
open Netflector.Reactor (IoError)

structure Credentials where
  uid : UInt32
  gid : UInt32
  deriving DecidableEq, Repr

inductive PrivilegeError where
  | unknownUser (name : Text)
  | unknownGroup (name : Text)
  | noPrimaryGroup (uid : UInt32)
  | privileged
  | notRoot (uid : UInt32)
  | lookup (source : IoError)
  | drop (step : String) (source : IoError)
  | stillPrivileged
  | newPrivilegesAllowed
  | capabilitiesSurvived
  | withheld (capability : String)
  deriving DecidableEq

inductive Switch where
  | dropped
  | alreadyThatAccount
  deriving DecidableEq, Repr

inductive DialPin where
  | noDial
  | unprivileged
  | keptNetRaw
  | notHeld
  deriving DecidableEq, Repr

structure Outcome where
  switch : Switch
  dialPin : DialPin
  deriving DecidableEq, Repr

/-! ## The account -/

def EPERM : Nat := 1

def ENOENT : Nat := 2

def ESRCH : Nat := 3

def EBADF : Nat := 9

def ERANGE : Nat := 34

/-- What the account database answers to a lookup with a buffer of some length:
the code it returns, and the entry it found. -/
abbrev Answers (Entry : Type) := Nat → Nat × Option Entry

structure Database where
  byName : Text → Answers Credentials
  byId : UInt32 → Answers Credentials
  group : Text → Answers UInt32

def maxLookupBuffer : Nat := 1 <<< 20

/-- Some systems say that there is no such entry by a code. -/
def answered {Entry : Type} (answer : Nat × Option Entry) :
    Except PrivilegeError (Option Entry) :=
  if answer.1 = 0 then .ok answer.2
  else if answer.1 ∈ [ENOENT, ESRCH, EBADF, EPERM] then .ok none
  else .error (.lookup (.os answer.1))

/-- The buffer may be doubled as often as `maxLookupBuffer` is not reached. -/
def lookupFrom {Entry : Type} (call : Answers Entry) :
    Nat → Nat → Except PrivilegeError (Option Entry)
  | 0, len => answered (call len)
  | doublings + 1, len =>
      if (call len).1 = ERANGE then lookupFrom call doublings (len * 2)
      else answered (call len)

def lookup {Entry : Type} (call : Answers Entry) :
    Except PrivilegeError (Option Entry) :=
  lookupFrom call 10 1024

/-- A name with a zero in it is nobody's. -/
def userByName (database : Database) (name : Text) :
    Except PrivilegeError (Option Credentials) :=
  if Char.ofNat 0 ∈ name then .ok none else lookup (database.byName name)

def userById (database : Database) (uid : UInt32) :
    Except PrivilegeError (Option Credentials) :=
  lookup (database.byId uid)

def groupByName (database : Database) (name : Text) :
    Except PrivilegeError (Option UInt32) :=
  if Char.ofNat 0 ∈ name then .ok none else lookup (database.group name)

def okOr {Value : Type} (error : PrivilegeError) :
    Option Value → Except PrivilegeError Value
  | some value => .ok value
  | none => .error error

def resolveUser (database : Database) :
    Principal → Except PrivilegeError (UInt32 × Option UInt32)
  | .id uid => .ok (uid, none)
  | .name name => do
      let account ← okOr (.unknownUser name) (← userByName database name)
      .ok (account.uid, some account.gid)

def resolveGroup (database : Database) (uid : UInt32) :
    Option Principal → Option UInt32 → Except PrivilegeError UInt32
  | some (.id gid), _ => .ok gid
  | some (.name name), _ => do
      okOr (.unknownGroup name) (← groupByName database name)
  | none, some gid => .ok gid
  | none, none => do
      let account ← okOr (.noPrimaryGroup uid) (← userById database uid)
      .ok account.gid

def resolve (database : Database) (runAs : RunAs) :
    Except PrivilegeError Credentials := do
  let (uid, primary) ← resolveUser database runAs.user
  let gid ← resolveGroup database uid runAs.group primary
  if uid = 0 ∨ gid = 0 then .error .privileged
  else .ok ⟨uid, gid⟩

def Found {Entry : Type} (call : Answers Entry) (entry : Entry) : Prop :=
  ∃ len ≤ maxLookupBuffer, call len = (0, some entry)

theorem answered_found {Entry : Type} {answer : Nat × Option Entry}
    {entry : Entry} (h : answered answer = .ok (some entry)) :
    answer = (0, some entry) := by
  unfold answered at h
  split at h
  · rename_i hcode
    rw [Except.ok.injEq] at h
    exact Prod.ext hcode h
  · split at h <;> cases h

theorem lookupFrom_found {Entry : Type} {call : Answers Entry}
    {doublings len : Nat} {entry : Entry}
    (hlen : len <<< doublings ≤ maxLookupBuffer)
    (h : lookupFrom call doublings len = .ok (some entry)) :
    Found call entry := by
  induction doublings generalizing len with
  | zero => exact ⟨len, hlen, answered_found h⟩
  | succ doublings ih =>
      unfold lookupFrom at h
      split at h
      · refine ih ?_ h
        rw [Nat.mul_comm, ← Nat.shiftLeft_succ_inside]
        exact hlen
      · refine ⟨len, ?_, answered_found h⟩
        rw [Nat.shiftLeft_eq] at hlen
        exact Nat.le_trans (Nat.le_mul_of_pos_right len (Nat.two_pow_pos _))
          hlen

theorem lookup_found {Entry : Type} {call : Answers Entry} {entry : Entry}
    (h : lookup call = .ok (some entry)) : Found call entry :=
  lookupFrom_found (by decide) h

theorem okOr_ok {Value : Type} {error : PrivilegeError}
    {found : Option Value} {value : Value}
    (h : okOr error found = .ok value) : found = some value := by
  cases found with
  | none => cases h
  | some found =>
      cases h
      rfl

theorem groupByName_found {database : Database} {name : Text} {gid : UInt32}
    (h : groupByName database name = .ok (some gid)) :
    Found (database.group name) gid := by
  unfold groupByName at h
  split at h
  · cases h
  · exact lookup_found h

theorem userByName_found {database : Database} {name : Text}
    {account : Credentials}
    (h : userByName database name = .ok (some account)) :
    Found (database.byName name) account := by
  unfold userByName at h
  split at h
  · cases h
  · exact lookup_found h

/-- The credentials are the account's that the setting names, and not root's. -/
structure Named (database : Database) (runAs : RunAs)
    (credentials : Credentials) : Prop where
  userId : ∀ uid, runAs.user = .id uid → credentials.uid = uid
  userName : ∀ name, runAs.user = .name name →
    ∃ account, Found (database.byName name) account ∧
      account.uid = credentials.uid ∧
      (runAs.group = none → account.gid = credentials.gid)
  primary : ∀ uid, runAs.user = .id uid → runAs.group = none →
    ∃ account, Found (database.byId uid) account ∧
      account.gid = credentials.gid
  groupId : ∀ gid, runAs.group = some (.id gid) → credentials.gid = gid
  groupName : ∀ name, runAs.group = some (.name name) →
    Found (database.group name) credentials.gid
  unprivileged : credentials.uid ≠ 0 ∧ credentials.gid ≠ 0

theorem resolveGroup_id {database : Database} {uid gid result : UInt32}
    {primary : Option UInt32}
    (h : resolveGroup database uid (some (.id gid)) primary = .ok result) :
    result = gid := by
  cases h
  rfl

theorem resolveGroup_name {database : Database} {uid result : UInt32}
    {name : Text} {primary : Option UInt32}
    (h : resolveGroup database uid (some (.name name)) primary = .ok result) :
    Found (database.group name) result := by
  obtain ⟨found, hfound, h⟩ := except_bind_ok h
  rw [okOr_ok h] at hfound
  exact groupByName_found hfound

theorem resolveGroup_none {database : Database} {uid result : UInt32}
    (h : resolveGroup database uid none none = .ok result) :
    ∃ account, Found (database.byId uid) account ∧ account.gid = result := by
  obtain ⟨found, hfound, h⟩ := except_bind_ok h
  obtain ⟨account, haccount, h⟩ := except_bind_ok h
  cases h
  rw [okOr_ok haccount] at hfound
  exact ⟨account, lookup_found hfound, rfl⟩

theorem resolve_named {database : Database} {runAs : RunAs}
    {credentials : Credentials}
    (h : resolve database runAs = .ok credentials) :
    Named database runAs credentials := by
  obtain ⟨user, group⟩ := runAs
  obtain ⟨⟨uid, primary⟩, huser, h⟩ := except_bind_ok h
  obtain ⟨gid, hgroup, h⟩ := except_bind_ok h
  split at h
  · cases h
  rename_i hids
  cases h
  dsimp only at huser hgroup
  have hnamed : ∀ name, user = .name name →
      ∃ account, Found (database.byName name) account ∧ account.uid = uid ∧
        some account.gid = primary := by
    rintro name rfl
    obtain ⟨found, hfound, huser⟩ := except_bind_ok huser
    obtain ⟨account, haccount, huser⟩ := except_bind_ok huser
    cases huser
    rw [okOr_ok haccount] at hfound
    exact ⟨account, userByName_found hfound, rfl, rfl⟩
  have hnumber : ∀ number, user = .id number →
      uid = number ∧ primary = none := by
    rintro number rfl
    cases huser
    exact ⟨rfl, rfl⟩
  constructor
  · exact fun number hnum => (hnumber number hnum).1
  · intro name hname
    obtain ⟨account, hfound, hsame, rfl⟩ := hnamed name hname
    refine ⟨account, hfound, hsame, ?_⟩
    intro hnone
    dsimp only at hnone
    subst hnone
    cases hgroup
    rfl
  · intro number hnum hnone
    obtain ⟨rfl, rfl⟩ := hnumber number hnum
    dsimp only at hnone
    subst hnone
    exact resolveGroup_none hgroup
  · intro number hnum
    dsimp only at hnum
    subst hnum
    exact resolveGroup_id hgroup
  · intro name hname
    dsimp only at hname
    subst hname
    exact resolveGroup_name hgroup
  · exact not_or.mp hids

/-! ## System calls -/

inductive Call where
  | narrowGet
  | narrowSet
  | narrowKeep
  | setgroups
  | setgid
  | setuid
  | settleGet
  | settleNone
  | probeSocket
  | probePin (iface : InterfaceName)
  | settleSet
  | settleKeep
  | settleCheck
  | forbid
  | forbidden
  | regainGid
  | regainEgid
  | regainUid
  | regainEuid
  deriving DecidableEq

/-- How the kernel refuses a call that it could serve. -/
abbrev Refusals := Call → Option IoError

def attempt {Value : Type} (step : String) (refused : Option IoError)
    (served : Option Value) : Except PrivilegeError Value :=
  match refused with
  | some source => .error (.drop step source)
  | none => okOr (.drop step (.os EPERM)) served

theorem attempt_ok {Value : Type} {step : String} {refused : Option IoError}
    {served : Option Value} {value : Value}
    (h : attempt step refused served = .ok value) : served = some value := by
  cases refused with
  | some source => cases h
  | none => exact okOr_ok h

def get (refused : Option IoError) (process : Process) :
    Except PrivilegeError Sets := do
  let (low, high) ← attempt "capget" refused
    (some (process.sets.halves 0, process.sets.halves 32))
  .ok (.joined low high)

def set (kernel : Kernel) (refused : Option IoError) (sets : Sets)
    (process : Process) : Except PrivilegeError Process :=
  attempt "capset" refused
    (kernel.call process (.capset (.joined (sets.halves 0) (sets.halves 32))))

def keepCaps (kernel : Kernel) (refused : Option IoError) (keep : Bool)
    (process : Process) : Except PrivilegeError Process :=
  attempt "prctl(PR_SET_KEEPCAPS)" refused
    (kernel.call process (.setKeepCaps keep))

theorem get_ok {refused : Option IoError} {process : Process} {sets : Sets}
    (h : get refused process = .ok sets) : process.sets = sets := by
  obtain ⟨⟨low, high⟩, hhalves, h⟩ := except_bind_ok h
  have hhalves := attempt_ok hhalves
  rw [Option.some.injEq, Prod.mk.injEq] at hhalves
  obtain ⟨rfl, rfl⟩ := hhalves
  cases h
  exact (Sets.joined_halves process.sets).symm

theorem set_ok {kernel : Kernel} (hkernel : kernel.Serves)
    {refused : Option IoError} {sets : Sets} {process after : Process}
    (h : set kernel refused sets process = .ok after) :
    process.sets.permitted.contains sets.permitted = true ∧
      after = { process with sets := sets } := by
  have hcapset := attempt_ok h
  rw [Sets.joined_halves] at hcapset
  exact hkernel.lowers hcapset

theorem keepCaps_ok {kernel : Kernel} (hkernel : kernel.Serves)
    {refused : Option IoError} {keep : Bool} {process after : Process}
    (h : keepCaps kernel refused keep process = .ok after) :
    after = { process with keepCaps := keep } := by
  have hkeep := attempt_ok h
  rw [hkernel.setKeepCaps] at hkeep
  exact (Option.some.inj hkeep).symm

/-! ## Capabilities -/

/-- While still root, only what the switch needs is held, and it is carried
across the change of the ids. -/
def narrowForSwitch (kernel : Kernel) (refuses : Refusals) (dial : Bool)
    (process : Process) : Except PrivilegeError Process := do
  let held := (← get (refuses .narrowGet) process).permitted
  let needed := [(capSetuid, "CAP_SETUID"), (capSetgid, "CAP_SETGID")]
  match needed.find? fun (capability, _) => !held.contains (.of capability) with
  | some (_, name) => .error (.withheld name)
  | none =>
      let both := (CapSet.of capSetuid).«with» (.of capSetgid)
      let wanted := if dial then both.«with» (.of capNetRaw) else both
      let process ←
        set kernel (refuses .narrowSet) (.only (wanted.within held)) process
      keepCaps kernel (refuses .narrowKeep) true process

inductive Pin where
  | unprivileged
  | needsNetRaw
  | unknown (error : IoError)
  deriving DecidableEq

def probe (refuses : Refusals) (iface : InterfaceName) : Pin :=
  match refuses .probeSocket with
  | some error => .unknown error
  | none =>
      match refuses (.probePin iface) with
      | none => .unprivileged
      | some error =>
          if error = .os EPERM then .needsNetRaw else .unknown error

def DialPin.decide (held : CapSet) : Option Pin → DialPin
  | none => .noDial
  | some .unprivileged => .unprivileged
  | some .needsNetRaw | some (.unknown _) =>
      if held.contains (.of capNetRaw) then .keptNetRaw else .notHeld

def DialPin.keep (decision : DialPin) : CapSet :=
  if decision = .keptNetRaw then .of capNetRaw else .empty

def settle (kernel : Kernel) (refuses : Refusals)
    (dial : Option InterfaceName) (process : Process) :
    Except PrivilegeError (Process × DialPin) := do
  let held := (← get (refuses .settleGet) process).permitted
  let process ← set kernel (refuses .settleNone) ⟨.empty, held, .empty⟩ process
  let decision := DialPin.decide held (dial.map (probe refuses))
  let keep := decision.keep
  let process ← set kernel (refuses .settleSet) (.only keep) process
  let process ← keepCaps kernel (refuses .settleKeep) false process
  let sets ← get (refuses .settleCheck) process
  if sets ≠ .only keep then .error .capabilitiesSurvived
  else .ok (process, decision)

/-! ## The switch -/

/-- Groups first: once the user id is gone, so is the right to change them. -/
def switchTo (kernel : Kernel) (refuses : Refusals)
    (credentials : Credentials) (process : Process) :
    Except PrivilegeError Process := do
  let process ← attempt "setgroups" (refuses .setgroups)
    (kernel.call process (.setgroups [credentials.gid]))
  let process ← attempt "setgid" (refuses .setgid)
    (kernel.setgid process credentials.gid)
  attempt "setuid" (refuses .setuid) (kernel.setuid process credentials.uid)

def effectiveIds (process : Process) : Credentials :=
  ⟨process.user.effective, process.group.effective⟩

def realIds (process : Process) : Credentials :=
  ⟨process.user.real, process.group.real⟩

def served (refused : Option IoError) (result : Option Process) : Bool :=
  refused.isNone && result.isSome

/-- Each call is made only where those before it failed, and a call that fails
changes nothing. -/
def rootRegainable (kernel : Kernel) (refuses : Refusals) (process : Process) :
    Bool :=
  served (refuses .regainGid) (kernel.setgid process 0) ||
    served (refuses .regainEgid) (kernel.setegid process 0) ||
    served (refuses .regainUid) (kernel.setuid process 0) ||
    served (refuses .regainEuid) (kernel.seteuid process 0)

def forbidNewPrivileges (kernel : Kernel) (refuses : Refusals)
    (process : Process) : Except PrivilegeError Process :=
  attempt "prctl(PR_SET_NO_NEW_PRIVS)" (refuses .forbid)
    (kernel.call process .setNoNewPrivs)

def newPrivilegesForbidden (refuses : Refusals) (process : Process) :
    Except PrivilegeError Bool :=
  attempt "prctl(PR_GET_NO_NEW_PRIVS)" (refuses .forbidden)
    (some process.noNewPrivs)

def switchFrom (kernel : Kernel) (refuses : Refusals)
    (credentials : Credentials) (dial : Bool) (process : Process) :
    Except PrivilegeError (Process × Switch) :=
  let effective := effectiveIds process
  if effective.uid = 0 then do
    let process ← narrowForSwitch kernel refuses dial process
    let process ← switchTo kernel refuses credentials process
    .ok (process, .dropped)
  else if effective = credentials ∧ realIds process = credentials then
    .ok (process, .alreadyThatAccount)
  else .error (.notRoot effective.uid)

def dropTo (kernel : Kernel) (refuses : Refusals) (credentials : Credentials)
    (dial : Option InterfaceName) (process : Process) :
    Except PrivilegeError (Process × Outcome) := do
  let (process, switch) ←
    switchFrom kernel refuses credentials dial.isSome process
  let (process, dialPin) ← settle kernel refuses dial process
  let process ← forbidNewPrivileges kernel refuses process
  if !(← newPrivilegesForbidden refuses process) then
    .error .newPrivilegesAllowed
  else if effectiveIds process ≠ credentials ∨ realIds process ≠ credentials ∨
      rootRegainable kernel refuses process = true then
    .error .stillPrivileged
  else .ok (process, ⟨switch, dialPin⟩)

def dialTarget (config : Config) : Option InterfaceName :=
  (config.reflectors.find? fun reflector => reflector.ssdp.any (·.dial)).map
    (·.targetIf)

def dropPrivileges (kernel : Kernel) (refuses : Refusals)
    (credentials : Credentials) (config : Config) (process : Process) :
    Except PrivilegeError (Process × Outcome) :=
  dropTo kernel refuses credentials (dialTarget config) process

/-! ## What the switch leaves -/

def Wholly (credentials : Credentials) (process : Process) : Prop :=
  process.user = .all credentials.uid ∧ process.group = .all credentials.gid ∧
    process.groups = [credentials.gid]

section Leaves

variable {kernel : Kernel} {refuses : Refusals}

theorem narrowForSwitch_held {dial : Bool} {process after : Process}
    (h : narrowForSwitch kernel refuses dial process = .ok after) :
    process.sets.permitted.contains (.of capSetuid) = true ∧
      process.sets.permitted.contains (.of capSetgid) = true := by
  obtain ⟨sets, hget, h⟩ := except_bind_ok h
  have hsets := get_ok hget
  subst hsets
  dsimp only at h
  split at h
  · cases h
  · rename_i hneeded
    have hheld := List.find?_eq_none.mp hneeded
    simpa only [List.mem_cons, List.not_mem_nil, or_false, forall_eq_or_imp,
      forall_eq, Bool.not_eq_true, Bool.not_eq_false'] using hheld

theorem narrowForSwitch_may (hkernel : kernel.Serves) {dial : Bool}
    {process after : Process}
    (h : narrowForSwitch kernel refuses dial process = .ok after) :
    after.may capSetuid = true ∧ after.may capSetgid = true ∧
      process.sets.permitted.contains after.sets.permitted = true := by
  obtain ⟨huid, hgid⟩ := narrowForSwitch_held h
  obtain ⟨sets, hget, h⟩ := except_bind_ok h
  have hsets := get_ok hget
  subst hsets
  dsimp only at h
  split at h
  · cases h
  · obtain ⟨between, hset, h⟩ := except_bind_ok h
    have hkeep := keepCaps_ok hkernel h
    obtain ⟨hshrinks, rfl⟩ := set_ok hkernel hset
    subst hkeep
    refine ⟨CapSet.within_contains ?_ huid, CapSet.within_contains ?_ hgid,
      hshrinks⟩
    · cases dial <;> decide
    · cases dial <;> decide

theorem switchTo_wholly (hkernel : kernel.Serves)
    {credentials : Credentials} {process after : Process}
    (huser : process.may capSetuid = true)
    (hgroup : process.may capSetgid = true)
    (h : switchTo kernel refuses credentials process = .ok after) :
    Wholly credentials after ∧
      process.sets.permitted.contains after.sets.permitted = true := by
  obtain ⟨grouped, hgroups, h⟩ := except_bind_ok h
  have hgroups := attempt_ok hgroups
  rw [hkernel.setgroups _ _ hgroup] at hgroups
  cases hgroups
  obtain ⟨switched, hgid, h⟩ := except_bind_ok h
  have hgid := attempt_ok hgid
  rw [hkernel.setgid { process with groups := [credentials.gid] } _ hgroup]
    at hgid
  cases hgid
  obtain ⟨sets, huid, hshrinks⟩ := hkernel.setuid
    { process with
      groups := [credentials.gid], group := .all credentials.gid }
    credentials.uid huser
  have hswitched := attempt_ok h
  rw [huid] at hswitched
  cases hswitched
  exact ⟨⟨rfl, rfl, rfl⟩, hshrinks⟩

theorem switchFrom_cases (hkernel : kernel.Serves)
    {credentials : Credentials} {dial : Bool} {process after : Process}
    {switch : Switch}
    (h : switchFrom kernel refuses credentials dial process =
      .ok (after, switch)) :
    process.sets.permitted.contains after.sets.permitted = true ∧
      (process.user.effective = 0 ∧ switch = .dropped ∧
          Wholly credentials after ∧
          process.sets.permitted.contains (.of capSetuid) = true ∧
          process.sets.permitted.contains (.of capSetgid) = true ∨
        process.user.effective ≠ 0 ∧ switch = .alreadyThatAccount ∧
          after = process ∧ effectiveIds process = credentials ∧
          realIds process = credentials) := by
  unfold switchFrom at h
  dsimp only at h
  split at h
  · rename_i hroot
    obtain ⟨narrowed, hnarrow, h⟩ := except_bind_ok h
    obtain ⟨switched, hswitched, h⟩ := except_bind_ok h
    cases h
    obtain ⟨huser, hgroup, hnarrowed⟩ := narrowForSwitch_may hkernel hnarrow
    obtain ⟨hwholly, hshrinks⟩ :=
      switchTo_wholly hkernel huser hgroup hswitched
    exact ⟨CapSet.contains_trans hnarrowed hshrinks,
      .inl ⟨hroot, rfl, hwholly, narrowForSwitch_held hnarrow⟩⟩
  · rename_i hroot
    split at h
    · rename_i hids
      cases h
      exact ⟨CapSet.contains_self _, .inr ⟨hroot, rfl, rfl, hids⟩⟩
    · cases h

structure Settled (refuses : Refusals) (dial : Option InterfaceName)
    (before after : Process) (decision : DialPin) : Prop where
  user : after.user = before.user
  group : after.group = before.group
  groups : after.groups = before.groups
  sets : after.sets = .only decision.keep
  shrinks : before.sets.permitted.contains after.sets.permitted = true
  needed : decision = .keptNetRaw →
    ∃ iface, dial = some iface ∧ probe refuses iface ≠ .unprivileged

theorem settle_settled (hkernel : kernel.Serves)
    {dial : Option InterfaceName} {process after : Process}
    {decision : DialPin}
    (h : settle kernel refuses dial process = .ok (after, decision)) :
    Settled refuses dial process after decision := by
  obtain ⟨sets, hget, h⟩ := except_bind_ok h
  have hsets := get_ok hget
  subst hsets
  obtain ⟨cleared, hcleared, h⟩ := except_bind_ok h
  obtain ⟨_, rfl⟩ := set_ok hkernel hcleared
  obtain ⟨kept, hkept, h⟩ := except_bind_ok h
  obtain ⟨hshrinks, rfl⟩ := set_ok hkernel hkept
  obtain ⟨last, hlast, h⟩ := except_bind_ok h
  have hlast := keepCaps_ok hkernel hlast
  subst hlast
  obtain ⟨read, hread, h⟩ := except_bind_ok h
  dsimp only at h
  split at h
  · cases h
  · cases h
    refine ⟨rfl, rfl, rfl, rfl, hshrinks, ?_⟩
    intro hdecision
    cases dial with
    | none => cases hdecision
    | some iface =>
        refine ⟨iface, rfl, ?_⟩
        intro hprobe
        rw [Option.map_some, hprobe] at hdecision
        cases hdecision

theorem keep_harmless (decision : DialPin) : Harmless decision.keep := by
  cases decision <;> exact ⟨by decide, by decide⟩

/-- A saved root id would have been regained, unless the kernel refuses for a
reason of its own. -/
theorem saved_of_rootRegainable (hkernel : kernel.Serves) {process : Process}
    (h : rootRegainable kernel refuses process = false)
    (hgid : refuses .regainGid = none) (huid : refuses .regainUid = none) :
    process.user.saved ≠ 0 ∧ process.group.saved ≠ 0 := by
  simp only [rootRegainable, Bool.or_eq_false_iff, served, hgid, huid,
    Option.isNone_none, Bool.true_and] at h
  obtain ⟨⟨⟨hgid, _⟩, huid⟩, _⟩ := h
  constructor
  · intro hsaved
    have hserved := hkernel.uidHeld process 0 (.inr hsaved.symm)
    rw [huid] at hserved
    cases hserved
  · intro hsaved
    have hserved := hkernel.gidHeld process 0 (.inr hsaved.symm)
    rw [hgid] at hserved
    cases hserved

end Leaves

structure Dropped (refuses : Refusals) (credentials : Credentials)
    (dial : Option InterfaceName) (before after : Process) (outcome : Outcome) :
    Prop where
  effective : effectiveIds after = credentials
  real : realIds after = credentials
  wholly : outcome.switch = .dropped → Wholly credentials after
  stays : outcome.switch = .alreadyThatAccount →
    after.user = before.user ∧ after.group = before.group ∧
      after.groups = before.groups
  saved : outcome.switch = .alreadyThatAccount →
    refuses .regainGid = none → refuses .regainUid = none →
    after.user.saved ≠ 0 ∧ after.group.saved ≠ 0
  sets : after.sets = .only outcome.dialPin.keep
  shrinks : before.sets.permitted.contains after.sets.permitted = true
  needed : outcome.dialPin = .keptNetRaw →
    ∃ iface, dial = some iface ∧ probe refuses iface ≠ .unprivileged
  noNewPrivs : after.noNewPrivs = true

theorem dropTo_dropped {kernel : Kernel} (hkernel : kernel.Serves)
    {refuses : Refusals} {credentials : Credentials}
    {dial : Option InterfaceName} {before after : Process} {outcome : Outcome}
    (h : dropTo kernel refuses credentials dial before =
      .ok (after, outcome)) :
    Dropped refuses credentials dial before after outcome := by
  obtain ⟨⟨switched, switch⟩, hswitch, h⟩ := except_bind_ok h
  obtain ⟨hswitched, hcases⟩ := switchFrom_cases hkernel hswitch
  obtain ⟨⟨settled, dialPin⟩, hsettle, h⟩ := except_bind_ok h
  have hsettled := settle_settled hkernel hsettle
  obtain ⟨forbid, hforbid, h⟩ := except_bind_ok h
  have hforbid := attempt_ok hforbid
  rw [hkernel.setNoNewPrivs, Option.some.injEq] at hforbid
  obtain ⟨forbidden, hforbidden, h⟩ := except_bind_ok h
  split at h
  · cases h
  split at h
  · cases h
  rename_i hchecked
  cases h
  subst hforbid
  simp only [not_or, not_not, Bool.not_eq_true] at hchecked
  obtain ⟨heffective, hreal, hregain⟩ := hchecked
  exact
    { effective := heffective
      real := hreal
      wholly := by
        rintro rfl
        rcases hcases with ⟨_, _, ⟨huser, hgroup, hgroups⟩, _⟩ | ⟨_, hno, _⟩
        · exact ⟨hsettled.user.trans huser, hsettled.group.trans hgroup,
            hsettled.groups.trans hgroups⟩
        · cases hno
      stays := by
        rintro rfl
        rcases hcases with ⟨_, hno, _⟩ | ⟨_, _, rfl, _⟩
        · cases hno
        · exact ⟨hsettled.user, hsettled.group, hsettled.groups⟩
      saved := fun _ hgid huid => saved_of_rootRegainable hkernel hregain hgid huid
      sets := hsettled.sets
      shrinks := CapSet.contains_trans hswitched hsettled.shrinks
      needed := hsettled.needed
      noNewPrivs := rfl }

/-- Neither an id of root's, nor a capability but what was kept. -/
structure Unprivileged (kept : CapSet) (process : Process) : Prop where
  user : process.user.holds 0 = false
  group : process.group.holds 0 = false
  permitted : kept.contains process.sets.permitted = true
  effective : process.sets.permitted.contains process.sets.effective = true
  noNewPrivs : process.noNewPrivs = true

theorem holds_zero {credentials : Credentials} {process : Process}
    (heffective : effectiveIds process = credentials)
    (hreal : realIds process = credentials)
    (hids : credentials.uid ≠ 0 ∧ credentials.gid ≠ 0)
    (hsaved : process.user.saved ≠ 0 ∧ process.group.saved ≠ 0) :
    process.user.holds 0 = false ∧ process.group.holds 0 = false := by
  unfold effectiveIds at heffective
  unfold realIds at hreal
  subst heffective
  rw [Credentials.mk.injEq] at hreal
  constructor
  · simp [Ids.holds, hreal.1, hids.1.symm, hsaved.1.symm]
  · simp [Ids.holds, hreal.2, hids.2.symm, hsaved.2.symm]

namespace Dropped

variable {refuses : Refusals} {credentials : Credentials}
  {dial : Option InterfaceName} {before after : Process} {outcome : Outcome}

theorem confined
    (h : Dropped refuses credentials dial before after outcome) :
    Confined after outcome.dialPin.keep after :=
  { user := .refl _
    group := .refl _
    groups := rfl
    permitted := by rw [h.sets]; exact CapSet.contains_self _
    effective := by rw [h.sets]; exact CapSet.contains_self _
    noNewPrivs := h.noNewPrivs }

theorem rootless (h : Dropped refuses credentials dial before after outcome)
    (hids : credentials.uid ≠ 0 ∧ credentials.gid ≠ 0)
    (hprobes : outcome.switch = .alreadyThatAccount →
      refuses .regainGid = none ∧ refuses .regainUid = none) :
    after.user.holds 0 = false ∧ after.group.holds 0 = false := by
  have hsaved : after.user.saved ≠ 0 ∧ after.group.saved ≠ 0 := by
    cases hswitch : outcome.switch with
    | dropped =>
        obtain ⟨huser, hgroup, _⟩ := h.wholly hswitch
        rw [huser, hgroup]
        exact hids
    | alreadyThatAccount =>
        obtain ⟨hgid, huid⟩ := hprobes hswitch
        exact h.saved hswitch hgid huid
  exact holds_zero h.effective h.real hids hsaved

end Dropped

/-- Once the switch has succeeded, no call that the process makes, nor any
program that it runs, brings root or a capability back, on any kernel that goes
by the rules. -/
theorem root_cannot_return {kernel : Kernel} (hkernel : kernel.Documented)
    {database : Database} {runAs : RunAs} {refuses : Refusals}
    {credentials : Credentials} {config : Config} {before after : Process}
    {outcome : Outcome}
    (hresolve : resolve database runAs = .ok credentials)
    (hdrop : dropPrivileges kernel refuses credentials config before =
      .ok (after, outcome))
    (hprobes : outcome.switch = .alreadyThatAccount →
      refuses .regainGid = none ∧ refuses .regainUid = none) :
    Named database runAs credentials ∧
      Dropped refuses credentials (dialTarget config) before after outcome ∧
      ∀ syscalls : List Syscall,
        Unprivileged outcome.dialPin.keep (kernel.run after syscalls) ∧
        (outcome.switch = .dropped →
          Wholly credentials (kernel.run after syscalls)) := by
  have hnamed := resolve_named hresolve
  have hdropped := dropTo_dropped hkernel.serves hdrop
  obtain ⟨huser, hgroup⟩ := hdropped.rootless hnamed.unprivileged hprobes
  refine ⟨hnamed, hdropped, ?_⟩
  intro syscalls
  have hconfined := hdropped.confined.run hkernel.confines
    (keep_harmless outcome.dialPin) syscalls
  constructor
  · exact
      { user := hconfined.user.holds_false huser
        group := hconfined.group.holds_false hgroup
        permitted := hconfined.permitted
        effective := hconfined.effective
        noNewPrivs := hconfined.noNewPrivs }
  · intro hswitch
    obtain ⟨hall, hallGroups, hgroups⟩ := hdropped.wholly hswitch
    have hwithin := hconfined.user
    have hwithinGroup := hconfined.group
    rw [hall] at hwithin
    rw [hallGroups] at hwithinGroup
    exact ⟨Ids.within_all hwithin, Ids.within_all hwithinGroup,
      hconfined.groups.trans hgroups⟩

def nobody : Credentials := ⟨65534, 65534⟩

def nobodyOnly : Database :=
  ⟨fun _ _ => (ENOENT, none),
    fun uid len =>
      if uid ≠ nobody.uid then (0, none)
      else if len < 4096 then (ERANGE, none)
      else (0, some nobody),
    fun _ _ => (ENOENT, none)⟩

/-- An old kernel, which pins for those with `CAP_NET_RAW` only. -/
def pinRefused : Refusals
  | .probePin _ => some (.os EPERM)
  | _ => none

def root : Process :=
  ⟨.all 0, .all 0, [0], ⟨⟨0x3fff⟩, ⟨0x3fff⟩, .empty⟩, false, false, false⟩

theorem dialEntry_distinct : ([97] : Bytes) ≠ [98] := by
  decide

def dialEntry : Reflector :=
  { name := ⟨"tv".toList⟩
    sourceIf := [97]
    targetIf := [98]
    sourcePeers := none
    targetPeers := none
    macs := none
    addressFamily := .default
    wol := none
    mdns := none
    ssdp := some ⟨true⟩
    wsd := false
    bidirectional := false
    udp := none
    distinct := dialEntry_distinct }

def dialConfig : Config :=
  ⟨some ⟨.id 65534, none⟩, none, none, [dialEntry]⟩

theorem root_cannot_return_nobody :
    ∃ (after : Process) (outcome : Outcome),
      resolve nobodyOnly ⟨.id 65534, none⟩ = .ok nobody ∧
      dropPrivileges linux pinRefused nobody dialConfig root =
        .ok (after, outcome) ∧
      outcome = ⟨.dropped, .keptNetRaw⟩ ∧
      Named nobodyOnly ⟨.id 65534, none⟩ nobody ∧
      Dropped pinRefused nobody (dialTarget dialConfig) root after outcome ∧
      ∀ syscalls : List Syscall,
        Unprivileged outcome.dialPin.keep (linux.run after syscalls) ∧
        (outcome.switch = .dropped →
          Wholly nobody (linux.run after syscalls)) := by
  have hresolve : resolve nobodyOnly ⟨.id 65534, none⟩ = .ok nobody := by
    decide +kernel
  have hdrop : dropPrivileges linux pinRefused nobody dialConfig root =
      .ok (⟨.all 65534, .all 65534, [65534], .only (.of capNetRaw), false,
        false, true⟩, ⟨.dropped, .keptNetRaw⟩) := by
    decide +kernel
  obtain ⟨hnamed, hdropped, hlater⟩ := root_cannot_return linux_documented
    hresolve hdrop fun hswitch => by cases hswitch
  exact ⟨_, _, hresolve, hdrop, rfl, hnamed, hdropped, hlater⟩

/-! ## When the switch succeeds -/

/-- The process may become the account, or is it already and may not be root
again. -/
def Ready (credentials : Credentials) (process : Process) : Prop :=
  process.user.effective = 0 ∧
      process.sets.permitted.contains (.of capSetuid) = true ∧
      process.sets.permitted.contains (.of capSetgid) = true ∨
    effectiveIds process = credentials ∧ realIds process = credentials ∧
      process.user.saved ≠ 0 ∧ process.group.saved ≠ 0

section Served

variable {kernel : Kernel} {refuses : Refusals}

end Served

end Netflector.Privileges
