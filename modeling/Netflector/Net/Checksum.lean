import Netflector.Foundation.Result
import Netflector.Net.Address

/-!
# Internet checksums

The accumulator is a natural number here; the conversions that the code expects
to succeed panic when they do not.
-/

namespace Netflector.Net

open Netflector.Foundation

def ipProtoUdp : UInt8 := 17
def udpHeaderSize : Nat := 8

namespace Checksum

/-- A trailing odd byte is the high byte of a final word. -/
def sumWords : Bytes → Nat → Nat
  | high :: low :: rest, sum => sumWords rest (sum + be16 high low)
  | [tail], sum => sum + tail.toNat * 256
  | [], sum => sum

def foldOnce (sum : Nat) : Nat := sum % 65536 + sum / 65536

def fold (sum : Nat) : Except Panic Nat :=
  let sum := foldOnce (foldOnce sum)
  if sum < 65536 then .ok (0xffff - sum)
  else .error (.expect "two folds reduce the accumulator below 2^16")

/-- The checksum field, bytes 10 and 11, is summed as zero. -/
def ipv4Header (header : Bytes) : Except Panic Nat := do
  let front ← orPanic .outOfRange (slice? header 0 10)
  let back ← orPanic .outOfRange (slice? header 12 header.length)
  fold (sumWords back (sumWords front 0))

def udpLength (payload : Bytes) : Except Panic Nat :=
  let length := udpHeaderSize + payload.length
  if length < 65536 then .ok length
  else .error (.expect "UDP datagram length fits in u16")

/-- The header's checksum field, bytes 6 and 7, is summed as zero.  A computed
zero is returned as all ones. -/
def udpChecksum (pseudo header payload : Bytes) : Except Panic Nat := do
  let sum := sumWords pseudo 0
  let sum := sumWords (header.take 6) sum
  let sum := sumWords payload sum
  let checksum ← fold sum
  .ok (if checksum = 0 then 0xffff else checksum)

def udpV4 (src dst : Ipv4Addr) (header payload : Bytes) :
    Except Panic Nat := do
  let length ← udpLength payload
  udpChecksum (src.octets ++ dst.octets ++ [0, ipProtoUdp] ++ toBe16 length)
    header payload

def udpV6 (src dst : Ipv6Addr) (header payload : Bytes) :
    Except Panic Nat := do
  let length ← udpLength payload
  udpChecksum (src.octets ++ dst.octets ++ toBe32 (UInt32.ofNat length) ++
    [0, 0, 0, ipProtoUdp]) header payload

/-- Two folds are enough for the 32 bits of the accumulator. -/
theorem fold_total {sum : Nat} (h : sum < 4294967296) :
    ∃ checksum, fold sum = .ok checksum := by
  have hfolded : foldOnce (foldOnce sum) < 65536 := by
    unfold foldOnce
    omega
  simp only [fold]
  rw [if_pos hfolded]
  exact ⟨_, rfl⟩

theorem sumWords_le (bytes : Bytes) (sum : Nat) :
    sumWords bytes sum ≤ sum + 65535 * ((bytes.length + 1) / 2) := by
  fun_induction sumWords bytes sum with
  | case1 high low rest sum ih =>
      have hlt := be16_lt high low
      simp only [List.length_cons]
      omega
  | case2 tail sum =>
      have hlt := tail.toNat_lt
      simp only [List.length_cons, List.length_nil]
      omega
  | case3 sum => exact Nat.le_add_right _ _

theorem ipv4Header_total {header : Bytes} (h : header.length = 20) :
    ∃ checksum, ipv4Header header = .ok checksum := by
  obtain ⟨front, hfront⟩ :=
    slice?_isSome header (Nat.zero_le 10) (by omega)
  have hheader : 12 ≤ header.length := by omega
  obtain ⟨back, hback⟩ := slice?_isSome header hheader (Nat.le_refl _)
  have hfrontLength := slice?_length hfront
  have hbackLength := slice?_length hback
  have hsum := sumWords_le back (sumWords front 0)
  have hsum0 := sumWords_le front 0
  simp only [ipv4Header, hfront, hback, orPanic_some, bind, Except.bind]
  apply fold_total
  omega

theorem udpChecksum_range {pseudo header payload : Bytes} {checksum : Nat}
    (h : udpChecksum pseudo header payload = .ok checksum) :
    0 < checksum ∧ checksum < 65536 := by
  obtain ⟨folded, hfold, h⟩ := except_bind_ok h
  cases h
  simp only [fold] at hfold
  split at hfold
  · cases hfold
    split
    · decide
    · omega
  · cases hfold

theorem udpChecksum_total {pseudo header payload : Bytes}
    (hpseudo : pseudo.length ≤ 40) (hpayload : payload.length < 65536) :
    ∃ checksum, udpChecksum pseudo header payload = .ok checksum := by
  have hsum := sumWords_le pseudo 0
  have hsum' := sumWords_le (header.take 6) (sumWords pseudo 0)
  have hsum'' := sumWords_le payload
    (sumWords (header.take 6) (sumWords pseudo 0))
  rw [List.length_take] at hsum'
  have hlt : sumWords payload (sumWords (header.take 6) (sumWords pseudo 0)) <
      4294967296 := by omega
  obtain ⟨folded, hfold⟩ := fold_total hlt
  simp only [udpChecksum, hfold, bind, Except.bind]
  exact ⟨_, rfl⟩

theorem udpV4_total (src dst : Ipv4Addr) (header : Bytes) {payload : Bytes}
    (h : udpHeaderSize + payload.length < 65536) :
    ∃ checksum, udpV4 src dst header payload = .ok checksum := by
  simp only [udpV4, udpLength]
  rw [if_pos h]
  apply udpChecksum_total
  · simp [src.length_eq, dst.length_eq]
  · omega

theorem udpV6_total (src dst : Ipv6Addr) (header : Bytes) {payload : Bytes}
    (h : udpHeaderSize + payload.length < 65536) :
    ∃ checksum, udpV6 src dst header payload = .ok checksum := by
  simp only [udpV6, udpLength]
  rw [if_pos h]
  apply udpChecksum_total
  · simp [src.length_eq, dst.length_eq, toBe32]
  · omega

theorem udpV4_congr {src dst : Ipv4Addr} {header header' payload : Bytes}
    (h : header.take 6 = header'.take 6) :
    udpV4 src dst header payload = udpV4 src dst header' payload := by
  simp only [udpV4, udpChecksum, h]

theorem udpV6_congr {src dst : Ipv6Addr} {header header' payload : Bytes}
    (h : header.take 6 = header'.take 6) :
    udpV6 src dst header payload = udpV6 src dst header' payload := by
  simp only [udpV6, udpChecksum, h]

theorem udpV4_range {src dst : Ipv4Addr} {header payload : Bytes}
    {checksum : Nat} (h : udpV4 src dst header payload = .ok checksum) :
    0 < checksum ∧ checksum < 65536 := by
  obtain ⟨_, _, h⟩ := except_bind_ok h
  exact udpChecksum_range h

theorem udpV6_range {src dst : Ipv6Addr} {header payload : Bytes}
    {checksum : Nat} (h : udpV6 src dst header payload = .ok checksum) :
    0 < checksum ∧ checksum < 65536 := by
  obtain ⟨_, _, h⟩ := except_bind_ok h
  exact udpChecksum_range h

end Checksum

end Netflector.Net
