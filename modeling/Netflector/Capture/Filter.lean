import Netflector.Capture.Machine
import Netflector.Net.Packet

/-!
# Classic BPF filter programs

The classifiers that the kernel runs on every captured frame, the prologues that
are put in front of them, and what each of them accepts.
-/

namespace Netflector.Capture

open Netflector.Foundation
open Netflector.Net

/-! ## The programs -/

/-- IPv4 UDP or IPv6 UDP on an Ethernet link.  The index register holds the
length of a priority tag. -/
def ethernetUdpFilter : List BpfInsn :=
  [ insn 0x0001 0 0 0x00000000,
    insn 0x0028 0 0 0x0000000c,
    insn 0x0015 0 3 0x00008100,
    insn 0x0028 0 0 0x0000000e,
    insn 0x0045 12 0 0x00000fff,
    insn 0x0001 0 0 0x00000004,
    insn 0x0048 0 0 0x0000000c,
    insn 0x0015 6 0 0x00000800,
    insn 0x0015 0 8 0x000086dd,
    insn 0x0050 0 0 0x00000014,
    insn 0x0015 5 0 0x00000011,
    insn 0x0015 0 5 0x0000002c,
    insn 0x0050 0 0 0x00000036,
    insn 0x0015 2 3 0x00000011,
    insn 0x0050 0 0 0x00000017,
    insn 0x0015 0 1 0x00000011,
    insn 0x0006 0 0 0xffffffff,
    insn 0x0006 0 0 0x00000000 ]

def skfAdPkttype : UInt32 := ancillaryOff + 4
def skfAdVlanTag : UInt32 := ancillaryOff + 44
def skfAdVlanTagPresent : UInt32 := ancillaryOff + 48
def packetOutgoing : UInt32 := 4

def dropOutgoingPrologue : List BpfInsn :=
  [ insn 0x0030 0 0 skfAdPkttype,
    insn 0x0015 0 1 packetOutgoing,
    insn 0x0006 0 0 0x00000000 ]

def dropVlanTaggedPrologue : List BpfInsn :=
  [ insn 0x0020 0 0 skfAdVlanTagPresent,
    insn 0x0015 4 0 0x00000000,
    insn 0x0020 0 0 skfAdVlanTag,
    insn 0x0054 0 0 0x00000fff,
    insn 0x0015 1 0 0x00000000,
    insn 0x0006 0 0 0x00000000 ]

def rawIpUdpFilter : List BpfInsn :=
  [ insn 0x0030 0 0 0x00000000,
    insn 0x0054 0 0 0x000000f0,
    insn 0x0015 6 0 0x00000040,
    insn 0x0015 0 8 0x00000060,
    insn 0x0030 0 0 0x00000006,
    insn 0x0015 5 0 0x00000011,
    insn 0x0015 0 5 0x0000002c,
    insn 0x0030 0 0 0x00000028,
    insn 0x0015 2 3 0x00000011,
    insn 0x0030 0 0 0x00000009,
    insn 0x0015 0 1 0x00000011,
    insn 0x0006 0 0 0xffffffff,
    insn 0x0006 0 0 0x00000000 ]

structure Host where
  afInet : UInt32
  afInet6 : UInt32
  isBigEndian : Bool
  distinct : afInet ≠ afInet6

def Host.store (host : Host) (value : UInt32) : Bytes :=
  let bytes := [value.toUInt8, (value >>> 8).toUInt8, (value >>> 16).toUInt8,
    (value >>> 24).toUInt8]
  if host.isBigEndian then bytes.reverse else bytes

/-- A word load is big-endian on every host. -/
def hostAfToBpfBe (host : Host) (af : UInt32) : UInt32 :=
  bigEndian (host.store af)

def dltNullUdpFilter (host : Host) : List BpfInsn :=
  [ insn 0x0020 0 0 0x00000000,
    insn 0x0015 6 0 (hostAfToBpfBe host host.afInet),
    insn 0x0015 0 8 (hostAfToBpfBe host host.afInet6),
    insn 0x0030 0 0 0x0000000a,
    insn 0x0015 5 0 0x00000011,
    insn 0x0015 0 5 0x0000002c,
    insn 0x0030 0 0 0x0000002c,
    insn 0x0015 2 3 0x00000011,
    insn 0x0030 0 0 0x0000000d,
    insn 0x0015 0 1 0x00000011,
    insn 0x0006 0 0 0xffffffff,
    insn 0x0006 0 0 0x00000000 ]

def classifier (host : Host) : LinkType → List BpfInsn
  | .ethernet => ethernetUdpFilter
  | .dltNull => dltNullUdpFilter host
  | .rawIp => rawIpUdpFilter

/-! ## What they have in common -/

def accept : UInt32 := 0xffffffff

structure Decides (run : Except Panic UInt32) (accepted : Prop) : Prop where
  accepts : accepted → run = .ok accept
  drops : ¬ accepted → run = .ok 0

theorem Decides.iff {run : Except Panic UInt32} {accepted : Prop}
    (h : Decides run accepted) : run = .ok accept ↔ accepted := by
  refine ⟨?_, h.accepts⟩
  intro haccept
  by_contra hnot
  rw [h.drops hnot] at haccept
  cases haccept

def TakesV4 (frame : Bytes) (l3 : Nat) : Prop :=
  frame[l3 + 9]? = some ipProtoUdp

/-- UDP over IPv6, perhaps behind a fragment header. -/
def TakesV6 (frame : Bytes) (l3 : Nat) : Prop :=
  frame[l3 + 6]? = some ipProtoUdp ∨
    (frame[l3 + 6]? = some ipv6NextFragment ∧
      frame[l3 + 40]? = some ipProtoUdp)

def protocolTests (code : UInt16) (v4 v6 next fragment protocol : UInt32) :
    List BpfInsn :=
  [ insn 0x0015 6 0 v4,
    insn 0x0015 0 8 v6,
    insn code 0 0 next,
    insn 0x0015 5 0 0x00000011,
    insn 0x0015 0 5 0x0000002c,
    insn code 0 0 fragment,
    insn 0x0015 2 3 0x00000011,
    insn code 0 0 protocol,
    insn 0x0015 0 1 0x00000011,
    insn 0x0006 0 0 0xffffffff,
    insn 0x0006 0 0 0x00000000 ]

section Tests

variable {frame : Bytes} {ancillary : Ancillary} {a x : UInt32}

theorem widen_eq (byte value : UInt8) :
    byte.toUInt32 = value.toUInt32 ↔ byte = value := by
  rw [← UInt32.toNat_inj, UInt8.toNat_toUInt32, UInt8.toNat_toUInt32,
    UInt8.toNat_inj]

def LoadsByte (frame : Bytes) (ancillary : Ancillary) (x : UInt32)
    (insn : BpfInsn) (index : Nat) : Prop :=
  ∀ program a, runFrom frame ancillary (insn :: program) 0 a x =
    runLoaded frame ancillary program (frame[index]?.map UInt8.toUInt32) x

theorem protocolTests_run {code : UInt16}
    {v4 v6 next fragment protocol : UInt32} {l3 : Nat} (hne : v4 ≠ v6)
    (hnext : LoadsByte frame ancillary x (insn code 0 0 next) (l3 + 6))
    (hfragment :
      LoadsByte frame ancillary x (insn code 0 0 fragment) (l3 + 40))
    (hprotocol :
      LoadsByte frame ancillary x (insn code 0 0 protocol) (l3 + 9)) :
    Decides (runFrom frame ancillary
        (protocolTests code v4 v6 next fragment protocol) 0 a x)
      ((a = v4 ∧ TakesV4 frame l3) ∨ (a = v6 ∧ TakesV6 frame l3)) := by
  have hudp : ∀ byte : UInt8, byte.toUInt32 = 17 ↔ byte = ipProtoUdp :=
    fun byte => widen_eq byte 17
  have hfrag : ∀ byte : UInt8, byte.toUInt32 = 44 ↔ byte = ipv6NextFragment :=
    fun byte => widen_eq byte 44
  have hapart : ipv6NextFragment ≠ ipProtoUdp := by decide
  simp only [protocolTests, runFrom_jeq, UInt8.reduceToNat, runFrom_skip,
    hnext _ _, hprotocol _ _, TakesV4, TakesV6]
  by_cases hv4 : a = v4
  · have hv6 : a ≠ v6 := fun h => hne (hv4.symm.trans h)
    rw [if_pos hv4]
    cases hbyte : frame[l3 + 9]? with
    | none => constructor <;> simp [hv6]
    | some byte =>
        by_cases hsome : byte = ipProtoUdp
        · constructor <;> simp [hv4, hudp, hsome, accept]
        · constructor <;> simp [hv6, hudp, hsome]
  rw [if_neg hv4]
  by_cases hv6 : a = v6
  case neg => constructor <;> simp [hv4, hv6]
  rw [if_pos hv6]
  cases hbyte : frame[l3 + 6]? with
  | none => constructor <;> simp [hv4]
  | some byte =>
      by_cases hsome : byte = ipProtoUdp
      · constructor <;> simp [hv6, hudp, hsome, accept]
      by_cases hbehind : byte = ipv6NextFragment
      case neg => constructor <;> simp [hv4, hudp, hfrag, hsome, hbehind]
      cases hinner : frame[l3 + 40]? with
      | none =>
          constructor <;>
            simp [hv4, hudp, hfrag, hbehind, hapart, hfragment _ _, hinner]
      | some inner =>
          by_cases hudp' : inner = ipProtoUdp
          · constructor <;>
              simp [hv6, hudp, hfrag, hbehind, hapart, hfragment _ _, hinner,
                hudp', accept]
          · constructor <;>
              simp [hv4, hudp, hfrag, hbehind, hapart, hfragment _ _, hinner,
                hudp']

theorem loadsByte_absolute {k : UInt32} {index : Nat} (hk : k.toNat = index)
    (hframe : k < ancillaryOff) :
    LoadsByte frame ancillary x (insn 0x0030 0 0 k) index := by
  intro program a
  rw [runFrom_byte hframe, load_byte hk]

theorem loadsByte_indexed {k : UInt32} {index : Nat}
    (hk : (x + k).toNat = index) :
    LoadsByte frame ancillary x (insn 0x0050 0 0 k) index := by
  intro program a
  rw [runFrom_byteIndexed, load_byte hk]

/-! ## The classifiers -/

theorem nibble_eq (first : UInt8) :
    (first.toUInt32 &&& 0xf0 = 0x40 ↔ first >>> 4 = 4) ∧
      (first.toUInt32 &&& 0xf0 = 0x60 ↔ first >>> 4 = 6) := by
  have h : ∀ value, value < 256 →
      ((UInt8.ofNat value).toUInt32 &&& 0xf0 = 0x40 ↔
        (UInt8.ofNat value) >>> 4 = 4) ∧
      ((UInt8.ofNat value).toUInt32 &&& 0xf0 = 0x60 ↔
        (UInt8.ofNat value) >>> 4 = 6) := by
    decide +kernel
  have hfirst := h first.toNat first.toNat_lt
  rwa [UInt8.ofNat_toNat] at hfirst

theorem rawIp_run :
    Decides (runFrom frame ancillary rawIpUdpFilter 0 a 0)
      (∃ first : UInt8, frame[0]? = some first ∧
        ((first >>> 4 = 4 ∧ TakesV4 frame 0) ∨
          (first >>> 4 = 6 ∧ TakesV6 frame 0))) := by
  have htests : rawIpUdpFilter = insn 0x0030 0 0 0 :: insn 0x0054 0 0 0xf0 ::
      protocolTests 0x0030 0x40 0x60 6 40 9 := rfl
  have hzero : (0 : UInt32).toNat = 0 := rfl
  rw [htests, runFrom_byte (by decide), load_byte hzero]
  cases hfirst : frame[0]? with
  | none => constructor <;> simp
  | some first =>
      rw [Option.map_some, runLoaded_some, runFrom_and]
      obtain ⟨hv4, hv6⟩ := nibble_eq first
      simp only [Option.some.injEq, exists_eq_left', ← hv4, ← hv6]
      exact protocolTests_run (by decide)
        (loadsByte_absolute rfl (by decide))
        (loadsByte_absolute rfl (by decide))
        (loadsByte_absolute rfl (by decide))

theorem bigEndian_inj {first second : Bytes} (hfirst : first.length = 4)
    (hsecond : second.length = 4) (h : bigEndian first = bigEndian second) :
    first = second := by
  obtain ⟨a0, a1, a2, a3, rfl⟩ := List.length_eq_four.mp hfirst
  obtain ⟨b0, b1, b2, b3, rfl⟩ := List.length_eq_four.mp hsecond
  have hnat := congrArg UInt32.toNat h
  rw [bigEndian_four, bigEndian_four] at hnat
  simp only [be16] at hnat
  have hbounds := fun byte : UInt8 => byte.toNat_lt
  have ha1 := hbounds a1
  have ha2 := hbounds a2
  have ha3 := hbounds a3
  have hb1 := hbounds b1
  have hb2 := hbounds b2
  have hb3 := hbounds b3
  simp only [List.cons.injEq, and_true, ← UInt8.toNat_inj]
  omega

theorem Host.store_length (host : Host) (value : UInt32) :
    (host.store value).length = 4 := by
  simp only [Host.store]
  split <;> rfl

theorem Host.store_inj {host : Host} {first second : UInt32}
    (h : host.store first = host.store second) : first = second := by
  have hbytes : [first.toUInt8, (first >>> 8).toUInt8, (first >>> 16).toUInt8,
      (first >>> 24).toUInt8] = [second.toUInt8, (second >>> 8).toUInt8,
      (second >>> 16).toUInt8, (second >>> 24).toUInt8] := by
    simp only [Host.store] at h
    split at h
    · exact List.reverse_injective h
    · exact h
  simp only [List.cons.injEq, and_true, ← UInt8.toNat_inj,
    UInt32.toNat_toUInt8, UInt32.toNat_shiftRight, UInt32.reduceToNat,
    Nat.reduceMod, Nat.shiftRight_eq_div_pow] at hbytes
  have hfirst := first.toNat_lt
  have hsecond := second.toNat_lt
  apply UInt32.toNat_inj.mp
  omega

theorem dltNull_run (host : Host) :
    Decides (runFrom frame ancillary (dltNullUdpFilter host) 0 a 0)
      ((slice? frame 0 4 = some (host.store host.afInet) ∧ TakesV4 frame 4) ∨
        (slice? frame 0 4 = some (host.store host.afInet6) ∧
          TakesV6 frame 4)) := by
  have htests : dltNullUdpFilter host = insn 0x0020 0 0 0 ::
      protocolTests 0x0030 (hostAfToBpfBe host host.afInet)
        (hostAfToBpfBe host host.afInet6) 10 44 13 := rfl
  have hload : load frame 0 4 = (slice? frame 0 4).map bigEndian := rfl
  rw [htests, runFrom_word (by decide), hload]
  cases hfamily : slice? frame 0 4 with
  | none => constructor <;> simp
  | some family =>
      have hlength : family.length = 4 := slice?_length hfamily
      have heq : ∀ af, bigEndian family = hostAfToBpfBe host af ↔
          family = host.store af := by
        intro af
        refine ⟨?_, fun h => congrArg bigEndian h⟩
        exact bigEndian_inj hlength (host.store_length af)
      rw [Option.map_some, runLoaded_some]
      simp only [Option.some.injEq, ← heq]
      apply protocolTests_run
      · intro hsame
        apply host.distinct
        apply host.store_inj
        exact bigEndian_inj (host.store_length _) (host.store_length _) hsame
      · exact loadsByte_absolute rfl (by decide)
      · exact loadsByte_absolute rfl (by decide)
      · exact loadsByte_absolute rfl (by decide)

/-- How long the tag behind the addresses is: a priority tag is read past, a
VLAN's is not. -/
def tagLength (frame : Bytes) : Option Nat := do
  let ethertype ← be16At frame 12
  if ethertype = ethertypeVlan then
    let control ← be16At frame 14
    if control &&& vlanIdMask = 0 then some 4 else none
  else some 0

def TakesEthernet (frame : Bytes) (tag : Nat) : Prop :=
  (be16At frame (tag + 12) = some 0x0800 ∧ TakesV4 frame (tag + 14)) ∨
    (be16At frame (tag + 12) = some 0x86dd ∧ TakesV6 frame (tag + 14))

theorem half_eq {value constant : Nat} (hvalue : value < 65536)
    (hconstant : constant < 65536) :
    UInt32.ofNat value = UInt32.ofNat constant ↔ value = constant := by
  rw [← UInt32.toNat_inj, UInt32.toNat_ofNat', UInt32.toNat_ofNat',
    Nat.mod_eq_of_lt (by omega), Nat.mod_eq_of_lt (by omega)]

theorem half_masked {value : Nat} (hvalue : value < 65536) :
    UInt32.ofNat value &&& 0x0fff = 0 ↔ value &&& vlanIdMask = 0 := by
  have hmask : (0x0fff : UInt32).toNat = vlanIdMask := rfl
  rw [← UInt32.toNat_inj, UInt32.toNat_and, UInt32.toNat_ofNat',
    Nat.mod_eq_of_lt (by omega), hmask]
  rfl

theorem ethernet_tail (tag : Nat) (htag : x.toNat = tag) (hle : tag ≤ 4) :
    Decides (runFrom frame ancillary (insn 0x0048 0 0 0x0c ::
        protocolTests 0x0050 0x0800 0x86dd 0x14 0x36 0x17) 0 a x)
      (TakesEthernet frame tag) := by
  have hadd : ∀ k : UInt32, k.toNat ≤ 100 → (x + k).toNat = tag + k.toNat := by
    intro k hk
    rw [UInt32.toNat_add, htag]
    omega
  rw [runFrom_halfIndexed, load_half (hadd 0x0c (by decide))]
  have hindex : (0x0c : UInt32).toNat = 12 := rfl
  rw [hindex, TakesEthernet]
  cases hhalf : be16At frame (tag + 12) with
  | none => constructor <;> simp
  | some ethertype =>
      have hlt := be16At_lt hhalf
      rw [Option.map_some, runLoaded_some]
      simp only [Option.some.injEq]
      rw [← half_eq hlt (show 0x0800 < 65536 by decide),
        ← half_eq hlt (show 0x86dd < 65536 by decide)]
      exact protocolTests_run (by decide)
        (loadsByte_indexed (hadd 0x14 (by decide)))
        (loadsByte_indexed (hadd 0x36 (by decide)))
        (loadsByte_indexed (hadd 0x17 (by decide)))

theorem ethernet_run :
    Decides (runFrom frame ancillary ethernetUdpFilter 0 a x)
      (∃ tag, tagLength frame = some tag ∧ TakesEthernet frame tag) := by
  have htests : ethernetUdpFilter = insn 0x0001 0 0 0 ::
      insn 0x0028 0 0 0x0c :: insn 0x0015 0 3 0x8100 :: insn 0x0028 0 0 0x0e ::
      insn 0x0045 12 0 0x0fff :: insn 0x0001 0 0 4 :: insn 0x0048 0 0 0x0c ::
      protocolTests 0x0050 0x0800 0x86dd 0x14 0x36 0x17 := rfl
  have hethertype : (0x0c : UInt32).toNat = 12 := rfl
  have hcontrol : (0x0e : UInt32).toNat = 14 := rfl
  rw [htests, runFrom_ldx, runFrom_half (by decide), load_half hethertype,
    tagLength]
  cases hhalf : be16At frame 12 with
  | none => constructor <;> simp
  | some ethertype =>
      have hlt := be16At_lt hhalf
      have hvlan : UInt32.ofNat ethertype = 0x8100 ↔
          ethertype = ethertypeVlan := half_eq hlt (by decide)
      simp only [Option.map_some, runLoaded_some, runFrom_jeq, hvlan,
        UInt8.reduceToNat, runFrom_skip, Option.bind_eq_bind, Option.bind_some]
      by_cases htagged : ethertype = ethertypeVlan
      case neg =>
        simp only [if_neg htagged, Option.some.injEq, exists_eq_left']
        exact ethernet_tail 0 rfl (by decide)
      simp only [if_pos htagged]
      rw [runFrom_half (by decide), load_half hcontrol]
      cases htci : be16At frame 14 with
      | none => constructor <;> simp
      | some control =>
          simp only [Option.map_some, runLoaded_some, runFrom_jset,
            half_masked (be16At_lt htci), UInt8.reduceToNat, runFrom_skip,
            Option.bind_some]
          by_cases hpriority : control &&& vlanIdMask = 0
          · simp only [if_pos hpriority, Option.some.injEq, exists_eq_left',
              runFrom_ldx]
            exact ethernet_tail 4 rfl (by decide)
          · simp only [if_neg hpriority]
            constructor <;> simp [protocolTests]

end Tests

end Netflector.Capture
