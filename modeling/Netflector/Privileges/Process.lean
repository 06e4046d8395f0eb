import Mathlib.Data.List.Basic

/-!
# The identity and the capabilities of a process

A process holds three user ids, three group ids, its supplementary groups and
three sets of capabilities.  What a kernel lets it make of them goes by rules
that are named here, and that the calls of Linux keep.  User namespaces, the
ids for file access, the other security bits and the ambient set are left out;
so is the bounding set, without which more is allowed.
-/

namespace Netflector.Privileges

/-- A set of capabilities, bit `n` for capability `n`. -/
structure CapSet where
  bits : UInt64
  deriving DecidableEq, Repr

namespace CapSet

def empty : CapSet := ⟨0⟩

def of (capability : UInt64) : CapSet := ⟨1 <<< capability⟩

def «with» (set other : CapSet) : CapSet := ⟨set.bits ||| other.bits⟩

def within (set other : CapSet) : CapSet := ⟨set.bits &&& other.bits⟩

def contains (set other : CapSet) : Bool :=
  set.bits &&& other.bits = other.bits

theorem contains_iff {set other : CapSet} :
    set.contains other = true ↔ set.bits &&& other.bits = other.bits := by
  simp [contains]

@[simp] theorem contains_self (set : CapSet) : set.contains set = true := by
  simp [contains]

@[simp] theorem contains_empty (set : CapSet) : set.contains empty = true := by
  simp [contains, empty]

theorem contains_trans {set between other : CapSet}
    (h : set.contains between = true) (h' : between.contains other = true) :
    set.contains other = true := by
  rw [contains_iff] at *
  calc set.bits &&& other.bits
      = set.bits &&& (between.bits &&& other.bits) := by rw [h']
    _ = (set.bits &&& between.bits) &&& other.bits := by
        rw [UInt64.and_assoc]
    _ = other.bits := by rw [h, h']

theorem contains_within (set other : CapSet) :
    other.contains (set.within other) = true := by
  rw [contains_iff]
  change other.bits &&& (set.bits &&& other.bits) = set.bits &&& other.bits
  rw [UInt64.and_comm, UInt64.and_assoc, UInt64.and_self]

theorem within_contains {set other wanted : CapSet}
    (h : set.contains wanted = true) (h' : other.contains wanted = true) :
    (set.within other).contains wanted = true := by
  rw [contains_iff] at *
  change (set.bits &&& other.bits) &&& wanted.bits = wanted.bits
  rw [UInt64.and_assoc, h', h]

def half (set : CapSet) (shift : UInt64) : UInt32 :=
  (set.bits >>> shift).toUInt32

def join (low high : UInt32) : CapSet :=
  ⟨(high.toUInt64 <<< 32) ||| low.toUInt64⟩

theorem half_toNat (set : CapSet) :
    (set.half 0).toNat = set.bits.toNat % 0x100000000 ∧
      (set.half 32).toNat = set.bits.toNat / 0x100000000 := by
  have hbound := UInt64.toNat_lt set.bits
  simp only [half, UInt64.toNat_toUInt32, UInt64.toNat_shiftRight,
    Nat.shiftRight_eq_div_pow]
  change set.bits.toNat / 2 ^ 0 % 2 ^ 32 = _ ∧
    set.bits.toNat / 2 ^ 32 % 2 ^ 32 = _
  constructor <;> omega

theorem join_half (set : CapSet) :
    join (set.half 0) (set.half 32) = set := by
  obtain ⟨hlow, hhigh⟩ := half_toNat set
  have hbits : (join (set.half 0) (set.half 32)).bits.toNat =
      set.bits.toNat := by
    have hbound := UInt64.toNat_lt set.bits
    have hrest : set.bits.toNat % 0x100000000 < 2 ^ 32 :=
      Nat.mod_lt _ (by decide)
    have hshift : (set.bits.toNat / 0x100000000) <<< 32 % 2 ^ 64 =
        (set.bits.toNat / 0x100000000) <<< 32 := by
      rw [Nat.shiftLeft_eq]
      omega
    simp only [join, UInt64.toNat_or, UInt64.toNat_shiftLeft,
      UInt32.toNat_toUInt64, hlow, hhigh]
    change (set.bits.toNat / 0x100000000) <<< 32 % 2 ^ 64 ||| _ = _
    rw [hshift, ← Nat.shiftLeft_add_eq_or_of_lt hrest, Nat.shiftLeft_eq]
    omega
  exact congrArg CapSet.mk (UInt64.toNat_inj.mp hbits)

end CapSet

def capSetgid : UInt64 := 6

def capSetuid : UInt64 := 7

def capSetpcap : UInt64 := 8

def capNetRaw : UInt64 := 13

structure Sets where
  effective : CapSet
  permitted : CapSet
  inheritable : CapSet
  deriving DecidableEq, Repr

def Sets.only (set : CapSet) : Sets := ⟨set, set, .empty⟩

/-- The three sets as the kernel takes and gives them, half of each at once. -/
structure Data where
  effective : UInt32
  permitted : UInt32
  inheritable : UInt32

def Sets.halves (sets : Sets) (shift : UInt64) : Data :=
  ⟨sets.effective.half shift, sets.permitted.half shift,
    sets.inheritable.half shift⟩

def Sets.joined (low high : Data) : Sets :=
  ⟨.join low.effective high.effective, .join low.permitted high.permitted,
    .join low.inheritable high.inheritable⟩

@[simp] theorem Sets.joined_halves (sets : Sets) :
    joined (sets.halves 0) (sets.halves 32) = sets := by
  simp only [joined, halves, CapSet.join_half]

structure Ids where
  real : UInt32
  effective : UInt32
  saved : UInt32
  deriving DecidableEq, Repr

namespace Ids

def holds (ids : Ids) (id : UInt32) : Bool :=
  id = ids.real || id = ids.effective || id = ids.saved

def all (id : UInt32) : Ids := ⟨id, id, id⟩

/-- `setuid` or `setgid`: who may set any id sets all three. -/
def set (mayAny : Bool) (id : UInt32) (ids : Ids) : Option Ids :=
  if mayAny then some (all id)
  else if id = ids.real ∨ id = ids.saved then
    some { ids with effective := id }
  else none

/-- `setresuid` or `setresgid`; an id that is not given stays. -/
def setRes (mayAny : Bool) (real effective saved : Option UInt32) (ids : Ids) :
    Option Ids :=
  if mayAny || (real.all ids.holds && effective.all ids.holds &&
      saved.all ids.holds) then
    some ⟨real.getD ids.real, effective.getD ids.effective,
      saved.getD ids.saved⟩
  else none

/-- `setreuid` or `setregid`: the saved id follows the effective one. -/
def setRe (mayAny : Bool) (real effective : Option UInt32) (ids : Ids) :
    Option Ids :=
  if mayAny || (real.all (fun id => id = ids.real || id = ids.effective) &&
      effective.all ids.holds) then
    let next := effective.getD ids.effective
    some ⟨real.getD ids.real, next,
      if real.isSome || effective.any (· ≠ ids.real) then next else ids.saved⟩
  else none

/-- What running a program makes of the ids.  Where new privileges are
forbidden it brings none; kernels differ in whether it then resets the
effective one. -/
def executed (forbidden resets : Bool) (brought : Option UInt32) (ids : Ids) :
    Ids :=
  let effective :=
    if forbidden then if resets then ids.real else ids.effective
    else brought.getD ids.effective
  ⟨ids.real, effective, effective⟩

def Within (ids held : Ids) : Prop :=
  ∀ id, ids.holds id = true → held.holds id = true

theorem Within.refl (ids : Ids) : ids.Within ids :=
  fun _ h => h

theorem Within.trans {ids between held : Ids} (h : ids.Within between)
    (h' : between.Within held) : ids.Within held :=
  fun id hid => h' id (h id hid)

theorem holds_iff {ids : Ids} {id : UInt32} : ids.holds id = true ↔
    id = ids.real ∨ id = ids.effective ∨ id = ids.saved := by
  simp [holds, or_assoc]

theorem within_of {ids held : Ids} (hreal : held.holds ids.real = true)
    (heffective : held.holds ids.effective = true)
    (hsaved : held.holds ids.saved = true) : ids.Within held := by
  intro id hid
  rcases holds_iff.mp hid with rfl | rfl | rfl
  · exact hreal
  · exact heffective
  · exact hsaved

@[simp] theorem holds_real (ids : Ids) : ids.holds ids.real = true := by
  simp [holds]

@[simp] theorem holds_effective (ids : Ids) :
    ids.holds ids.effective = true := by
  simp [holds]

@[simp] theorem holds_saved (ids : Ids) : ids.holds ids.saved = true := by
  simp [holds]

theorem holds_getD {ids : Ids} {given : Option UInt32} {id : UInt32}
    (h : given.all ids.holds = true) (hid : ids.holds id = true) :
    ids.holds (given.getD id) = true := by
  cases given with
  | none => exact hid
  | some new => exact h

theorem within_all {ids : Ids} {id : UInt32} (h : ids.Within (.all id)) :
    ids = .all id := by
  have hall : ∀ other, ids.holds other = true → other = id := by
    intro other hother
    rcases holds_iff.mp (h other hother) with hid | hid | hid <;> exact hid
  cases ids with
  | mk real effective saved =>
      have hreal := hall real (by simp [Ids.holds])
      have heffective := hall effective (by simp [Ids.holds])
      have hsaved := hall saved (by simp [Ids.holds])
      rw [hreal, heffective, hsaved]
      rfl

theorem Within.holds_false {ids held : Ids} {id : UInt32}
    (h : ids.Within held) (hid : held.holds id = false) :
    ids.holds id = false := by
  rw [Bool.eq_false_iff]
  intro hholds
  rw [h id hholds] at hid
  cases hid

theorem set_within {ids after : Ids} {id : UInt32}
    (h : ids.set false id = some after) : after.Within ids := by
  simp only [set, Bool.false_eq_true, if_false] at h
  split at h
  · rename_i hheld
    cases h
    refine within_of (holds_real ids) ?_ (holds_saved ids)
    rcases hheld with rfl | rfl
    · exact holds_real ids
    · exact holds_saved ids
  · cases h

theorem setRes_within {ids after : Ids} {real effective saved : Option UInt32}
    (h : ids.setRes false real effective saved = some after) :
    after.Within ids := by
  simp only [setRes, Bool.false_or, Bool.and_eq_true] at h
  split at h
  · rename_i hheld
    cases h
    exact within_of (holds_getD hheld.1.1 (holds_real ids))
      (holds_getD hheld.1.2 (holds_effective ids))
      (holds_getD hheld.2 (holds_saved ids))
  · cases h

theorem executed_within (resets : Bool) (brought : Option UInt32) (ids : Ids) :
    (ids.executed true resets brought).Within ids := by
  have heffective : ids.holds (ids.executed true resets brought).effective =
      true := by
    cases resets with
    | true => exact holds_real ids
    | false => exact holds_effective ids
  exact within_of (holds_real ids) heffective heffective

theorem setRe_within {ids after : Ids} {real effective : Option UInt32}
    (h : ids.setRe false real effective = some after) : after.Within ids := by
  simp only [setRe, Bool.false_or, Bool.and_eq_true] at h
  split at h
  · rename_i hheld
    cases h
    have hnext := holds_getD hheld.2 (holds_effective ids)
    refine within_of ?_ hnext ?_
    · cases real with
      | none => exact holds_real ids
      | some id =>
          rw [Option.getD_some, holds_iff]
          have hid := hheld.1
          simp only [Option.all_some, Bool.or_eq_true, decide_eq_true_eq] at hid
          exact hid.imp_right .inl
    · dsimp only
      split
      · exact hnext
      · exact holds_saved ids
  · cases h

theorem set_effective {ids after : Ids} {mayAny : Bool} {id : UInt32}
    (h : ids.set mayAny id = some after) : after.effective = id := by
  unfold set at h
  split at h
  · cases h
    rfl
  · split at h
    · cases h
      rfl
    · cases h

theorem setRes_effective {ids after : Ids} {mayAny : Bool} {id : UInt32}
    (h : ids.setRes mayAny none (some id) none = some after) :
    after.effective = id := by
  unfold setRes at h
  split at h
  · cases h
    rfl
  · cases h

end Ids

structure Process where
  user : Ids
  group : Ids
  groups : List UInt32
  sets : Sets
  keepCaps : Bool
  noSetuidFixup : Bool
  noNewPrivs : Bool
  deriving DecidableEq, Repr

/-- A program to be run, with what its file would bring: the owner and the group
whose ids it takes on, and the capabilities it would be permitted and have in
effect. -/
structure Program where
  owner : Option UInt32
  group : Option UInt32
  permitted : CapSet
  effective : CapSet

inductive Syscall where
  | setuid (id : UInt32)
  | setresuid (real effective saved : Option UInt32)
  | setreuid (real effective : Option UInt32)
  | setgid (id : UInt32)
  | setresgid (real effective saved : Option UInt32)
  | setregid (real effective : Option UInt32)
  | setgroups (groups : List UInt32)
  | capset (sets : Sets)
  | setKeepCaps (keep : Bool)
  | setNoNewPrivs
  | execve (program : Program) (resets : Bool)

namespace Process

def may (process : Process) (capability : UInt64) : Bool :=
  process.sets.effective.contains (.of capability)

/-- What becomes of the capabilities when the user ids change. -/
def fixup (process : Process) (user : Ids) : Sets :=
  let sets := process.sets
  if process.noSetuidFixup then sets
  else
    let sets :=
      if process.user.holds 0 && !user.holds 0 && !process.keepCaps then
        { sets with effective := .empty, permitted := .empty }
      else sets
    if process.user.effective = 0 ∧ user.effective ≠ 0 then
      { sets with effective := .empty }
    else if process.user.effective ≠ 0 ∧ user.effective = 0 then
      { sets with effective := sets.permitted }
    else sets

def withUser (process : Process) (user : Ids) : Process :=
  { process with user := user, sets := process.fixup user }

def withGroup (process : Process) (group : Ids) : Process :=
  { process with group := group }

def setuid (process : Process) (id : UInt32) : Option Process :=
  (process.user.set (process.may capSetuid) id).map process.withUser

def setresuid (process : Process) (real effective saved : Option UInt32) :
    Option Process :=
  (process.user.setRes (process.may capSetuid) real effective saved).map
    process.withUser

def setgid (process : Process) (id : UInt32) : Option Process :=
  (process.group.set (process.may capSetgid) id).map process.withGroup

def setresgid (process : Process) (real effective saved : Option UInt32) :
    Option Process :=
  (process.group.setRes (process.may capSetgid) real effective saved).map
    process.withGroup

def setgroups (process : Process) (groups : List UInt32) : Option Process :=
  if process.may capSetgid then some { process with groups := groups }
  else none

def capset (process : Process) (sets : Sets) : Option Process :=
  if (process.may capSetpcap ||
        (process.sets.inheritable.«with» process.sets.permitted).contains
          sets.inheritable) &&
      process.sets.permitted.contains sets.permitted &&
      sets.permitted.contains sets.effective then
    some { process with sets := sets }
  else none

/-- Where new privileges are forbidden, no capability is brought. -/
def execve (process : Process) (program : Program) (resets : Bool) : Process :=
  let permitted :=
    if process.noNewPrivs then program.permitted.within process.sets.permitted
    else program.permitted
  { process with
    user := process.user.executed process.noNewPrivs resets program.owner
    group := process.group.executed process.noNewPrivs resets program.group
    sets := ⟨program.effective.within permitted, permitted,
      process.sets.inheritable⟩
    keepCaps := false }

def call (process : Process) : Syscall → Option Process
  | .setuid id => process.setuid id
  | .setresuid real effective saved => process.setresuid real effective saved
  | .setreuid real effective =>
      (process.user.setRe (process.may capSetuid) real effective).map
        process.withUser
  | .setgid id => process.setgid id
  | .setresgid real effective saved => process.setresgid real effective saved
  | .setregid real effective =>
      (process.group.setRe (process.may capSetgid) real effective).map
        process.withGroup
  | .setgroups groups => process.setgroups groups
  | .capset sets => process.capset sets
  | .setKeepCaps keep => some { process with keepCaps := keep }
  | .setNoNewPrivs => some { process with noNewPrivs := true }
  | .execve program resets => some (process.execve program resets)

end Process

/-! ## Kernels -/

/-- What a kernel makes of a process that calls it; it may refuse. -/
structure Kernel where
  call : Process → Syscall → Option Process

namespace Kernel

/-- A call that is refused changes nothing. -/
def step (kernel : Kernel) (process : Process) (syscall : Syscall) : Process :=
  (kernel.call process syscall).getD process

def run (kernel : Kernel) (process : Process) (syscalls : List Syscall) :
    Process :=
  syscalls.foldl kernel.step process

def setuid (kernel : Kernel) (process : Process) (id : UInt32) :
    Option Process :=
  kernel.call process (.setuid id)

def seteuid (kernel : Kernel) (process : Process) (id : UInt32) :
    Option Process :=
  kernel.call process (.setresuid none (some id) none)

def setgid (kernel : Kernel) (process : Process) (id : UInt32) :
    Option Process :=
  kernel.call process (.setgid id)

def setegid (kernel : Kernel) (process : Process) (id : UInt32) :
    Option Process :=
  kernel.call process (.setresgid none (some id) none)

/-- What no call gains a process that may not set its ids and to which new
privileges are forbidden. -/
structure Confines (kernel : Kernel) : Prop where
  user : ∀ {process after syscall}, process.noNewPrivs = true →
    process.may capSetuid = false →
    kernel.call process syscall = some after →
    after.user.Within process.user
  group : ∀ {process after syscall}, process.noNewPrivs = true →
    process.may capSetgid = false →
    kernel.call process syscall = some after →
    after.group.Within process.group
  groups : ∀ {process after syscall}, process.may capSetgid = false →
    kernel.call process syscall = some after → after.groups = process.groups
  permitted : ∀ {process after syscall}, process.noNewPrivs = true →
    kernel.call process syscall = some after →
    process.sets.permitted.contains after.sets.permitted = true
  effective : ∀ {process after syscall},
    process.sets.permitted.contains process.sets.effective = true →
    kernel.call process syscall = some after →
    after.sets.permitted.contains after.sets.effective = true
  noNewPrivs : ∀ {process after syscall}, process.noNewPrivs = true →
    kernel.call process syscall = some after → after.noNewPrivs = true

/-- What the calls of the switch do for a process that may make them, and that
an id is taken on where it is the real or the saved one. -/
structure Serves (kernel : Kernel) : Prop where
  setuid : ∀ process id, process.may capSetuid = true →
    ∃ sets, kernel.setuid process id =
        some { process with user := .all id, sets := sets } ∧
      process.sets.permitted.contains sets.permitted = true
  setgid : ∀ process id, process.may capSetgid = true →
    kernel.setgid process id = some { process with group := .all id }
  setgroups : ∀ process groups, process.may capSetgid = true →
    kernel.call process (.setgroups groups) =
      some { process with groups := groups }
  lowers : ∀ {process after sets},
    kernel.call process (.capset sets) = some after →
    process.sets.permitted.contains sets.permitted = true ∧
      after = { process with sets := sets }
  capset : ∀ {process sets},
    process.sets.permitted.contains sets.permitted = true →
    sets.permitted.contains sets.effective = true →
    sets.inheritable = .empty →
    kernel.call process (.capset sets) = some { process with sets := sets }
  setKeepCaps : ∀ process keep, kernel.call process (.setKeepCaps keep) =
    some { process with keepCaps := keep }
  setNoNewPrivs : ∀ process, kernel.call process .setNoNewPrivs =
    some { process with noNewPrivs := true }
  uidHeld : ∀ process id, id = process.user.real ∨ id = process.user.saved →
    (kernel.setuid process id).isSome = true
  gidHeld : ∀ process id,
    id = process.group.real ∨ id = process.group.saved →
    (kernel.setgid process id).isSome = true
  uidTaken : ∀ {process after id}, kernel.setuid process id = some after ∨
    kernel.seteuid process id = some after → after.user.effective = id
  gidTaken : ∀ {process after id}, kernel.setgid process id = some after ∨
    kernel.setegid process id = some after → after.group.effective = id

/-- The rules of credentials and capabilities, as far as the switch rests on
them. -/
structure Documented (kernel : Kernel) : Prop where
  confines : kernel.Confines
  serves : kernel.Serves

end Kernel

/-! ## Confinement -/

structure Confined (start : Process) (kept : CapSet) (process : Process) :
    Prop where
  user : process.user.Within start.user
  group : process.group.Within start.group
  groups : process.groups = start.groups
  permitted : kept.contains process.sets.permitted = true
  effective : process.sets.permitted.contains process.sets.effective = true
  noNewPrivs : process.noNewPrivs = true

def Harmless (kept : CapSet) : Prop :=
  kept.contains (.of capSetuid) = false ∧
    kept.contains (.of capSetgid) = false

namespace Confined

variable {kernel : Kernel} {start process after : Process} {kept : CapSet}

theorem may_false (h : Confined start kept process) {capability : UInt64}
    (hkept : kept.contains (.of capability) = false) :
    process.may capability = false := by
  rw [Bool.eq_false_iff]
  intro hmay
  have hheld := CapSet.contains_trans h.permitted
    (CapSet.contains_trans h.effective hmay)
  rw [hkept] at hheld
  cases hheld

theorem call (h : Confined start kept process) (hkernel : kernel.Confines)
    (hkept : Harmless kept) {syscall : Syscall}
    (hcall : kernel.call process syscall = some after) :
    Confined start kept after := by
  have huser := h.may_false hkept.1
  have hgroup := h.may_false hkept.2
  exact
    { user := (hkernel.user h.noNewPrivs huser hcall).trans h.user
      group := (hkernel.group h.noNewPrivs hgroup hcall).trans h.group
      groups := (hkernel.groups hgroup hcall).trans h.groups
      permitted := CapSet.contains_trans h.permitted
        (hkernel.permitted h.noNewPrivs hcall)
      effective := hkernel.effective h.effective hcall
      noNewPrivs := hkernel.noNewPrivs h.noNewPrivs hcall }

theorem step (h : Confined start kept process) (hkernel : kernel.Confines)
    (hkept : Harmless kept) (syscall : Syscall) :
    Confined start kept (kernel.step process syscall) := by
  unfold Kernel.step
  cases hcall : kernel.call process syscall with
  | none => exact h
  | some after => exact h.call hkernel hkept hcall

theorem run (h : Confined start kept process) (hkernel : kernel.Confines)
    (hkept : Harmless kept) (syscalls : List Syscall) :
    Confined start kept (kernel.run process syscalls) := by
  induction syscalls generalizing process with
  | nil => exact h
  | cons syscall syscalls ih => exact ih (h.step hkernel hkept syscall)

end Confined

/-! ## Linux -/

def linux : Kernel := ⟨Process.call⟩

theorem fixup_permitted (process : Process) (user : Ids) :
    process.sets.permitted.contains (process.fixup user).permitted = true := by
  unfold Process.fixup
  dsimp only
  split_ifs <;> simp

theorem fixup_effective {process : Process} (user : Ids)
    (h : process.sets.permitted.contains process.sets.effective = true) :
    (process.fixup user).permitted.contains
      (process.fixup user).effective = true := by
  unfold Process.fixup
  dsimp only
  split_ifs <;> simp [h]

inductive Process.Called (process : Process) : Process → Prop
  | user (ids : Ids) (h : process.may capSetuid = false →
      ids.Within process.user) : Called process (process.withUser ids)
  | group (ids : Ids) (h : process.may capSetgid = false →
      ids.Within process.group) : Called process (process.withGroup ids)
  | groups (groups : List UInt32) (h : process.may capSetgid = true) :
      Called process { process with groups := groups }
  | sets (sets : Sets)
      (hpermitted : process.sets.permitted.contains sets.permitted = true)
      (heffective : sets.permitted.contains sets.effective = true) :
      Called process { process with sets := sets }
  | keepCaps (keep : Bool) : Called process { process with keepCaps := keep }
  | noNewPrivs : Called process { process with noNewPrivs := true }
  | execve (program : Program) (resets : Bool) :
      Called process (process.execve program resets)

theorem Process.called {process after : Process} {syscall : Syscall}
    (hcall : process.call syscall = some after) : process.Called after := by
  cases syscall with
  | setuid id =>
      obtain ⟨user, hset, rfl⟩ := Option.map_eq_some_iff.mp hcall
      exact .user user fun hmay => Ids.set_within (hmay ▸ hset)
  | setresuid real effective saved =>
      obtain ⟨user, hset, rfl⟩ := Option.map_eq_some_iff.mp hcall
      exact .user user fun hmay => Ids.setRes_within (hmay ▸ hset)
  | setreuid real effective =>
      obtain ⟨user, hset, rfl⟩ := Option.map_eq_some_iff.mp hcall
      exact .user user fun hmay => Ids.setRe_within (hmay ▸ hset)
  | setgid id =>
      obtain ⟨group, hset, rfl⟩ := Option.map_eq_some_iff.mp hcall
      exact .group group fun hmay => Ids.set_within (hmay ▸ hset)
  | setresgid real effective saved =>
      obtain ⟨group, hset, rfl⟩ := Option.map_eq_some_iff.mp hcall
      exact .group group fun hmay => Ids.setRes_within (hmay ▸ hset)
  | setregid real effective =>
      obtain ⟨group, hset, rfl⟩ := Option.map_eq_some_iff.mp hcall
      exact .group group fun hmay => Ids.setRe_within (hmay ▸ hset)
  | setgroups groups =>
      simp only [Process.call, Process.setgroups] at hcall
      split at hcall
      · rename_i hmay
        cases hcall
        exact .groups groups hmay
      · cases hcall
  | capset sets =>
      simp only [Process.call, Process.capset] at hcall
      split at hcall
      · rename_i hallowed
        simp only [Bool.and_eq_true] at hallowed
        cases hcall
        exact .sets sets hallowed.1.2 hallowed.2
      · cases hcall
  | setKeepCaps keep =>
      cases hcall
      exact .keepCaps keep
  | setNoNewPrivs =>
      cases hcall
      exact .noNewPrivs
  | execve program resets =>
      cases hcall
      exact .execve program resets

theorem linux_confines : linux.Confines where
  user hforbidden hmay hcall := by
    cases Process.called hcall with
    | user ids h => exact h hmay
    | execve program resets =>
        simp only [Process.execve, hforbidden]
        exact Ids.executed_within resets program.owner _
    | _ => exact .refl _
  group hforbidden hmay hcall := by
    cases Process.called hcall with
    | group ids h => exact h hmay
    | execve program resets =>
        simp only [Process.execve, hforbidden]
        exact Ids.executed_within resets program.group _
    | _ => exact .refl _
  groups hmay hcall := by
    cases Process.called hcall with
    | groups groups h =>
        rw [hmay] at h
        cases h
    | _ => rfl
  permitted hforbidden hcall := by
    cases Process.called hcall with
    | user ids h => exact fixup_permitted _ ids
    | sets sets hpermitted heffective => exact hpermitted
    | execve program resets =>
        simp only [Process.execve, hforbidden, if_true]
        exact CapSet.contains_within _ _
    | _ => exact CapSet.contains_self _
  effective hheld hcall := by
    cases Process.called hcall with
    | user ids h => exact fixup_effective ids hheld
    | sets sets hpermitted heffective => exact heffective
    | execve program resets => exact CapSet.contains_within _ _
    | _ => exact hheld
  noNewPrivs hforbidden hcall := by
    cases Process.called hcall with
    | noNewPrivs => rfl
    | _ => exact hforbidden

theorem linux_serves : linux.Serves where
  setuid process id hmay := by
    refine ⟨process.fixup (.all id), ?_, fixup_permitted process _⟩
    change (process.user.set (process.may capSetuid) id).map _ = _
    simp [Ids.set, hmay, Process.withUser]
  setgid process id hmay := by
    change (process.group.set (process.may capSetgid) id).map _ = _
    simp [Ids.set, hmay, Process.withGroup]
  setgroups process groups hmay := by
    change process.setgroups groups = _
    rw [Process.setgroups, if_pos hmay]
  lowers {process after sets} hcall := by
    change process.capset sets = some after at hcall
    unfold Process.capset at hcall
    split at hcall
    · rename_i hallowed
      simp only [Bool.and_eq_true] at hallowed
      exact ⟨hallowed.1.2, (Option.some.inj hcall).symm⟩
    · cases hcall
  capset {process sets} hpermitted heffective hinheritable := by
    change process.capset sets = _
    rw [Process.capset, hpermitted, heffective, hinheritable,
      CapSet.contains_empty]
    simp
  setKeepCaps process keep := rfl
  setNoNewPrivs process := rfl
  uidHeld process id hheld := by
    change ((process.user.set (process.may capSetuid) id).map _).isSome = true
    simp only [Ids.set, if_pos hheld, Option.isSome_map]
    split <;> rfl
  gidHeld process id hheld := by
    change ((process.group.set (process.may capSetgid) id).map _).isSome = true
    simp only [Ids.set, if_pos hheld, Option.isSome_map]
    split <;> rfl
  uidTaken {process after id} hcall := by
    rcases hcall with hcall | hcall
    · obtain ⟨user, hset, rfl⟩ := Option.map_eq_some_iff.mp hcall
      exact Ids.set_effective hset
    · obtain ⟨user, hset, rfl⟩ := Option.map_eq_some_iff.mp hcall
      exact Ids.setRes_effective hset
  gidTaken {process after id} hcall := by
    rcases hcall with hcall | hcall
    · obtain ⟨group, hset, rfl⟩ := Option.map_eq_some_iff.mp hcall
      exact Ids.set_effective hset
    · obtain ⟨group, hset, rfl⟩ := Option.map_eq_some_iff.mp hcall
      exact Ids.setRes_effective hset

theorem linux_documented : linux.Documented :=
  ⟨linux_confines, linux_serves⟩

end Netflector.Privileges
