import Netflector.Foundation.OnesComplement
import Netflector.Net.Fragmentation

/-!
# Checksums and the sums they complete

The code adds words in 32 bits and folds twice; the wire format asks for a
ones'-complement sum of 16-bit words that comes to all ones.
-/

namespace Netflector.Net.Checksum

open Netflector.Foundation

/-! ## Words -/

/-- An odd byte at the end is padded with a zero byte. -/
def words : Bytes → List Nat
  | high :: low :: rest => be16 high low :: words rest
  | [tail] => [be16 tail 0]
  | [] => []

def internetSum (bytes : Bytes) : Nat := onesSum 0xffff (words bytes)

theorem words_le (bytes : Bytes) : ∀ word ∈ words bytes, word ≤ 0xffff := by
  fun_induction words bytes with
  | case1 high low rest ih =>
      intro word hmem
      rcases List.mem_cons.mp hmem with rfl | hrest
      · exact Nat.le_of_lt_succ (be16_lt high low)
      · exact ih word hrest
  | case2 tail =>
      intro word hmem
      rw [List.mem_singleton.mp hmem]
      exact Nat.le_of_lt_succ (be16_lt tail 0)
  | case3 =>
      intro word hmem
      cases hmem

theorem sumWords_eq (bytes : Bytes) (sum : Nat) :
    sumWords bytes sum = plainSum (words bytes) sum := by
  fun_induction sumWords bytes sum with
  | case1 high low rest sum ih => exact ih
  | case2 tail sum => simp [words, plainSum, be16]
  | case3 sum => rfl

theorem words_append {first : Bytes} (second : Bytes)
    (heven : first.length % 2 = 0) :
    words (first ++ second) = words first ++ words second := by
  fun_induction words first with
  | case1 high low rest ih =>
      rw [List.length_cons, List.length_cons] at heven
      exact congrArg _ (ih (by omega))
  | case2 tail => simp at heven
  | case3 => rfl

theorem plainSum_start (terms : List Nat) (start : Nat) :
    plainSum terms start = start + plainSum terms 0 := by
  induction terms generalizing start with
  | nil => rfl
  | cons term terms ih =>
      have hfirst := ih (start + term)
      have hzero := ih (0 + term)
      simp only [plainSum, List.foldl_cons] at hfirst hzero ⊢
      omega

theorem plainSum_append (first second : List Nat) (start : Nat) :
    plainSum (first ++ second) start =
      plainSum second (plainSum first start) := by
  rw [plainSum, List.foldl_append]
  rfl

theorem words_toBe16 {value : Nat} (h : value < 65536) :
    words (toBe16 value) = [value] := by
  rw [toBe16, words, be16_toBe16 h, words]

/-! ## The accumulator -/

def addU32 (sum : UInt32) (word : Nat) : Option UInt32 :=
  if sum.toNat + word < 0x100000000 then
    some (UInt32.ofNat (sum.toNat + word))
  else none

def sumWordsU32 : Bytes → UInt32 → Option UInt32
  | high :: low :: rest, sum => do
      let sum ← addU32 sum (be16 high low)
      sumWordsU32 rest sum
  | [tail], sum => addU32 sum (tail.toNat * 256)
  | [], sum => some sum

def foldU32 (sum : UInt32) : UInt32 :=
  (sum &&& (0xffff : UInt32)) + (sum >>> (16 : UInt32))

/-- `fold` in 32 bits, `none` when two rounds leave more than 16. -/
def foldU16 (sum : UInt32) : Option UInt16 :=
  let sum := foldU32 (foldU32 sum)
  if sum.toNat < 65536 then some (~~~ sum.toUInt16) else none

theorem addU32_ok {sum : UInt32} {word : Nat}
    (h : sum.toNat + word < 0x100000000) :
    ∃ total, addU32 sum word = some total ∧
      total.toNat = sum.toNat + word := by
  refine ⟨UInt32.ofNat (sum.toNat + word), if_pos h, ?_⟩
  rw [UInt32.toNat_ofNat', Nat.mod_eq_of_lt h]

theorem sumWords_ge (bytes : Bytes) (sum : Nat) : sum ≤ sumWords bytes sum := by
  rw [sumWords_eq, plainSum_start]
  exact Nat.le_add_right _ _

theorem sumWordsU32_ok {bytes : Bytes} {sum : UInt32}
    (h : sumWords bytes sum.toNat < 0x100000000) :
    ∃ total, sumWordsU32 bytes sum = some total ∧
      total.toNat = sumWords bytes sum.toNat := by
  fun_induction sumWordsU32 bytes sum with
  | case1 high low rest sum ih =>
      rw [sumWords] at h ⊢
      have hge := sumWords_ge rest (sum.toNat + be16 high low)
      obtain ⟨next, hadd, hnext⟩ :=
        addU32_ok (Nat.lt_of_le_of_lt hge h)
      obtain ⟨total, hrest, htotal⟩ := ih next (by rw [hnext]; exact h)
      refine ⟨total, ?_, by rw [htotal, hnext]⟩
      rw [hadd]
      exact hrest
  | case2 tail sum => exact addU32_ok h
  | case3 sum => exact ⟨sum, rfl, rfl⟩

theorem foldU32_toNat (sum : UInt32) :
    (foldU32 sum).toNat = foldOnce sum.toNat := by
  have hlt := sum.toNat_lt
  have hmask : sum.toNat &&& 65535 = sum.toNat % 65536 :=
    Nat.and_two_pow_sub_one_eq_mod _ 16
  simp only [foldU32, UInt32.toNat_add, UInt32.toNat_and,
    UInt32.toNat_shiftRight]
  rw [foldOnce]
  have hshift : UInt32.toNat 16 % 32 = 16 := rfl
  have hlow : UInt32.toNat 0xffff = 65535 := rfl
  rw [hshift, hlow, hmask, Nat.shiftRight_eq_div_pow]
  omega

theorem foldOnce_form {sum : Nat} (h : sum < 0x100000000) :
    OnesForm 0xffff sum (foldOnce (foldOnce sum)) := by
  refine ⟨?_, ?_, ?_⟩
  · unfold foldOnce
    omega
  · rw [Nat.ModEq]
    unfold foldOnce
    omega
  · unfold foldOnce
    omega

theorem fold_eq {sum : Nat} (h : sum < 0x100000000) :
    fold sum = .ok (0xffff - foldOnce (foldOnce sum)) := by
  have hle := (foldOnce_form h).le
  rw [fold, if_pos (by omega)]

theorem foldU16_ok (sum : UInt32) :
    ∃ checksum, foldU16 sum = some checksum ∧
      fold sum.toNat = .ok checksum.toNat := by
  have hle := (foldOnce_form sum.toNat_lt).le
  have hfolded : (foldU32 (foldU32 sum)).toNat =
      foldOnce (foldOnce sum.toNat) := by
    rw [foldU32_toNat, foldU32_toNat]
  refine ⟨~~~ (foldU32 (foldU32 sum)).toUInt16, ?_, ?_⟩
  · simp only [foldU16]
    rw [if_pos (by omega)]
  · have hsize : UInt16.size = 65536 := rfl
    rw [fold_eq sum.toNat_lt, UInt16.toNat_not, UInt32.toNat_toUInt16, hfolded,
      hsize]
    congr 1
    omega

def accumulate : List Bytes → UInt32 → Option UInt32
  | [], sum => some sum
  | part :: parts, sum => do
      let sum ← sumWordsU32 part sum
      accumulate parts sum

def Computes (parts : List Bytes) (checksum : UInt16) : Prop :=
  ∃ sum, accumulate parts 0 = some sum ∧ foldU16 sum = some checksum

def sumParts (parts : List Bytes) (sum : Nat) : Nat :=
  parts.foldl (fun sum part => sumWords part sum) sum

theorem sumParts_ge (parts : List Bytes) (sum : Nat) :
    sum ≤ sumParts parts sum := by
  induction parts generalizing sum with
  | nil => exact Nat.le_refl sum
  | cons part parts ih => exact (sumWords_ge part sum).trans (ih _)

theorem accumulate_ok {parts : List Bytes} {sum : UInt32}
    (h : sumParts parts sum.toNat < 0x100000000) :
    ∃ total, accumulate parts sum = some total ∧
      total.toNat = sumParts parts sum.toNat := by
  induction parts generalizing sum with
  | nil => exact ⟨sum, rfl, rfl⟩
  | cons part parts ih =>
      have hge := sumParts_ge parts (sumWords part sum.toNat)
      obtain ⟨next, hpart, hnext⟩ :=
        sumWordsU32_ok (Nat.lt_of_le_of_lt hge h)
      have hleft : sumParts parts next.toNat < 0x100000000 := by
        rw [hnext]
        exact h
      obtain ⟨total, hrest, htotal⟩ := ih hleft
      refine ⟨total, ?_, ?_⟩
      · rw [accumulate, hpart]
        exact hrest
      · rw [htotal, hnext]
        rfl

theorem computes_ok {parts : List Bytes}
    (h : sumParts parts 0 < 0x100000000) :
    ∃ checksum, Computes parts checksum ∧
      fold (sumParts parts 0) = .ok checksum.toNat := by
  have hzero : sumParts parts (0 : UInt32).toNat < 0x100000000 := h
  obtain ⟨sum, haccumulate, hsum⟩ := accumulate_ok hzero
  obtain ⟨checksum, hfold, hchecksum⟩ := foldU16_ok sum
  rw [hsum] at hchecksum
  exact ⟨checksum, ⟨sum, haccumulate, hfold⟩, hchecksum⟩

/-! ## UDP checksums -/

def pseudoV4 (src dst : Ipv4Addr) (length : Nat) : Bytes :=
  src.octets ++ dst.octets ++ [0, ipProtoUdp] ++ toBe16 length

def pseudoV6 (src dst : Ipv6Addr) (length : Nat) : Bytes :=
  src.octets ++ dst.octets ++ toBe32 (UInt32.ofNat length) ++
    [0, 0, 0, ipProtoUdp]

theorem plainSum_pos {terms : List Nat} {term : Nat} (hmem : term ∈ terms)
    (hpos : 0 < term) : 0 < plainSum terms 0 := by
  induction terms with
  | nil => cases hmem
  | cons first terms ih =>
      have hstart := plainSum_start terms (0 + first)
      rw [plainSum, List.foldl_cons]
      rw [plainSum] at hstart
      rcases List.mem_cons.mp hmem with rfl | hrest
      · omega
      · have := ih hrest
        omega

/-- A pseudo-header keeps words aligned and is never all zeros. -/
structure Pseudo (pseudo : Bytes) : Prop where
  short : pseudo.length ≤ 40
  even : pseudo.length % 2 = 0
  pos : 0 < plainSum (words pseudo) 0

theorem pseudo_v4 (src dst : Ipv4Addr) (length : Nat) :
    Pseudo (pseudoV4 src dst length) := by
  have hlength : (src.octets ++ dst.octets).length = 8 := by
    rw [List.length_append, src.length_eq, dst.length_eq]
  have htotal : (pseudoV4 src dst length).length = 12 := by
    simp [pseudoV4, src.length_eq, dst.length_eq]
  refine ⟨by omega, by omega, ?_⟩
  have hmem : 17 ∈ words (pseudoV4 src dst length) := by
    rw [pseudoV4, List.append_assoc, words_append _ (by omega)]
    exact List.mem_append_right _ (List.mem_cons_self ..)
  exact plainSum_pos hmem (by decide)

theorem pseudo_v6 (src dst : Ipv6Addr) (length : Nat) :
    Pseudo (pseudoV6 src dst length) := by
  have hlength : (src.octets ++ dst.octets ++
      toBe32 (UInt32.ofNat length)).length = 36 := by
    simp [src.length_eq, dst.length_eq, toBe32]
  have htotal : (pseudoV6 src dst length).length = 40 := by
    rw [pseudoV6, List.length_append, hlength]
    rfl
  refine ⟨by omega, by omega, ?_⟩
  have hmem : 17 ∈ words (pseudoV6 src dst length) := by
    rw [pseudoV6, words_append _ (by omega)]
    exact List.mem_append_right _ (List.mem_cons_of_mem _
      (List.mem_cons_self ..))
  exact plainSum_pos hmem (by decide)

/-- The computed value: it is found without overflow, and it is the one
non-zero field with which the datagram sums to all ones. -/
structure Exact (pseudo header payload : Bytes) (checksum : Nat) : Prop where
  computed : ∃ folded, Computes [pseudo, header.take 6, payload] folded ∧
    checksum = if folded = 0 then 0xffff else folded.toNat
  pos : 0 < checksum
  lt : checksum < 65536
  only : ∀ stored, stored < 65536 → (checksum = stored ↔ stored ≠ 0 ∧
    internetSum (pseudo ++ (header.take 6 ++ toBe16 stored) ++ payload) =
      0xffff)

theorem plainSum_datagram {pseudo header payload : Bytes}
    (hpseudo : Pseudo pseudo) (hheader : header.length = udpHeaderSize)
    {stored : Nat} (hstored : stored < 65536) :
    plainSum (words (pseudo ++ (header.take 6 ++ toBe16 stored) ++ payload))
        0 =
      sumParts [pseudo, header.take 6, payload] 0 + stored := by
  have htake : (header.take 6).length = 6 := by
    rw [List.length_take, hheader]
    rfl
  have heven := hpseudo.even
  have hfield : (header.take 6 ++ toBe16 stored).length = 8 := by
    rw [List.length_append, htake, toBe16_length]
  rw [words_append _ (by rw [List.length_append]; omega),
    words_append _ heven, words_append _ (by omega), words_toBe16 hstored]
  simp only [plainSum_append, sumParts, List.foldl_cons, List.foldl_nil,
    sumWords_eq]
  rw [plainSum_start (words payload), plainSum_start (words payload)
    (plainSum (words (header.take 6)) _), plainSum_start [stored]]
  have hone : plainSum [stored] 0 = stored := Nat.zero_add stored
  omega

theorem complement_only {total value stored : Nat} (hle : value ≤ 0xffff)
    (hmod : value % 0xffff = total % 0xffff) (hpos : 0 < value)
    (hstored : stored < 65536) :
    (if 0xffff - value = 0 then 0xffff else 0xffff - value) = stored ↔
      stored ≠ 0 ∧ 0 < total + stored ∧ (total + stored) % 0xffff = 0 := by
  split
  · omega
  · omega

theorem udpChecksum_exact {pseudo header payload : Bytes}
    (hpseudo : Pseudo pseudo) (hheader : header.length = udpHeaderSize)
    (hpayload : udpHeaderSize + payload.length < 65536) :
    ∃ checksum, udpChecksum pseudo header payload = .ok checksum ∧
      Exact pseudo header payload checksum := by
  have hshort := hpseudo.short
  have htake : (header.take 6).length = 6 := by
    rw [List.length_take, hheader]
    rfl
  have hsum := sumWords_le pseudo 0
  have hsum' := sumWords_le (header.take 6) (sumWords pseudo 0)
  have hsum'' := sumWords_le payload
    (sumWords (header.take 6) (sumWords pseudo 0))
  have hlt : sumParts [pseudo, header.take 6, payload] 0 < 0x100000000 := by
    simp only [sumParts, List.foldl_cons, List.foldl_nil]
    omega
  have hpos : 0 < sumParts [pseudo, header.take 6, payload] 0 := by
    have hge := sumParts_ge [header.take 6, payload] (sumWords pseudo 0)
    have hnonzero := hpseudo.pos
    rw [← sumWords_eq] at hnonzero
    exact Nat.lt_of_lt_of_le hnonzero hge
  obtain ⟨folded, hcomputes, hfold⟩ := computes_ok hlt
  have hform := foldOnce_form hlt
  have hfolded : folded.toNat = 0xffff - foldOnce (foldOnce
      (sumParts [pseudo, header.take 6, payload] 0)) := by
    rw [fold_eq hlt, Except.ok.injEq] at hfold
    exact hfold.symm
  have hle := hform.le
  have hnonzero := hform.zero_iff
  have hzero : folded = 0 ↔ folded.toNat = 0 := by
    rw [← UInt16.toNat_inj]
    rfl
  refine ⟨if folded = 0 then 0xffff else folded.toNat, ?_, ⟨folded, hcomputes,
    rfl⟩, ?_, ?_, ?_⟩
  · have hparts : sumWords payload (sumWords (header.take 6)
        (sumWords pseudo 0)) =
        sumParts [pseudo, header.take 6, payload] 0 := rfl
    simp only [udpChecksum, hparts, hfold, bind, Except.bind, hzero]
  · split
    · decide
    · rename_i hsome
      exact Nat.pos_of_ne_zero (fun hnone => hsome (hzero.mpr hnone))
  · have hlast := folded.toNat_lt
    split
    · decide
    · omega
  · intro stored hstored
    have hterms := onesSum_form (words_le
      (pseudo ++ (header.take 6 ++ toBe16 stored) ++ payload))
    have hall := hterms.all_ones_iff (by decide)
    rw [plainSum_datagram hpseudo hheader hstored] at hall
    rw [internetSum, hall]
    simp only [hzero, hfolded]
    exact complement_only hle hform.modEq (by omega) hstored

theorem udpV4_exact (src dst : Ipv4Addr) {header payload : Bytes}
    (hheader : header.length = udpHeaderSize)
    (hpayload : udpHeaderSize + payload.length < 65536) :
    ∃ checksum, udpV4 src dst header payload = .ok checksum ∧
      Exact (pseudoV4 src dst (udpHeaderSize + payload.length)) header payload
        checksum := by
  simp only [udpV4, udpLength]
  rw [if_pos hpayload]
  exact udpChecksum_exact (pseudo_v4 src dst _) hheader hpayload

theorem udpV6_exact (src dst : Ipv6Addr) {header payload : Bytes}
    (hheader : header.length = udpHeaderSize)
    (hpayload : udpHeaderSize + payload.length < 65536) :
    ∃ checksum, udpV6 src dst header payload = .ok checksum ∧
      Exact (pseudoV6 src dst (udpHeaderSize + payload.length)) header payload
        checksum := by
  simp only [udpV6, udpLength]
  rw [if_pos hpayload]
  exact udpChecksum_exact (pseudo_v6 src dst _) hheader hpayload

theorem toBe16_be16 (high low : UInt8) :
    toBe16 (be16 high low) = [high, low] := by
  have hlow := low.toNat_lt
  simp only [toBe16, be16, List.cons.injEq, ← UInt8.toNat_inj,
    UInt8.toNat_ofNat', and_true]
  have hhigh := high.toNat_lt
  omega

theorem header_eq {header : Bytes} (hheader : header.length = udpHeaderSize)
    {stored : Nat} (hstored : be16At header 6 = some stored) :
    header.take 6 ++ toBe16 stored = header := by
  obtain ⟨high, low, hhigh, hlow, rfl⟩ := be16At_eq_some_iff.mp hstored
  obtain ⟨hbound, hhigh⟩ := List.getElem?_eq_some_iff.mp hhigh
  obtain ⟨hbound', hlow⟩ := List.getElem?_eq_some_iff.mp hlow
  have hrest : header.drop 6 = [high, low] := by
    rw [List.drop_eq_getElem_cons hbound, List.drop_eq_getElem_cons hbound',
      hhigh, hlow, List.drop_of_length_le (by rw [hheader]; decide)]
  rw [toBe16_be16, ← hrest, List.take_append_drop]

/-! ## What the frames store -/

def pseudo (ip : IpHeader) (length : Nat) : Bytes :=
  match ip with
  | .v4 src dst _ _ => pseudoV4 src dst length
  | .v6 src dst _ _ => pseudoV6 src dst length

theorem checks_exact {ip : IpHeader} {header payload : Bytes}
    {checksum : Nat} (hheader : header.length = udpHeaderSize)
    (hpayload : udpHeaderSize + payload.length < 65536)
    (h : ip.Checks header payload checksum) :
    Exact (pseudo ip (udpHeaderSize + payload.length)) header payload
      checksum := by
  cases ip with
  | v4 src dst ttl id =>
      obtain ⟨computed, hcomputed, hexact⟩ :=
        udpV4_exact src dst hheader hpayload
      have hsame := h.symm.trans hcomputed
      cases hsame
      exact hexact
  | v6 src dst hopLimit id =>
      obtain ⟨computed, hcomputed, hexact⟩ :=
        udpV6_exact src dst hheader hpayload
      have hsame := h.symm.trans hcomputed
      cases hsame
      exact hexact

def Stores (ip : IpHeader) (frames : UdpFrames) : Prop :=
  ∃ stored, be16At frames.udp 6 = some stored ∧ stored ≠ 0 ∧
    internetSum (pseudo ip frames.datagramLen ++ frames.udp ++ frames.payload) =
      0xffff

theorem laid_stores {frames : UdpFrames} {link : LinkHeader} {ip : IpHeader}
    {srcPort dstPort : UInt16} {payload : Bytes} {mtu : Nat}
    (h : frames.Laid link ip srcPort dstPort payload mtu) :
    Stores ip frames := by
  obtain ⟨checksum, hudp, hpos, hlt, hchecks⟩ := h.udp
  have hbound : udpHeaderSize + payload.length < 65536 := by
    rw [← h.payload_eq]
    exact UdpFrames.fits_lt h.cut.bound
  have hheader : frames.udp.length = udpHeaderSize := by
    rw [hudp]
    rfl
  have hfield : be16At frames.udp 6 = some checksum := by
    rw [hudp, be16At_eq_some_iff]
    exact ⟨_, _, rfl, rfl, be16_toBe16 hlt⟩
  have hsum := (((checks_exact hheader hbound hchecks).only checksum hlt).mp
    rfl).2
  rw [header_eq hheader hfield, ← h.payload_eq] at hsum
  exact ⟨checksum, hfield, Nat.pos_iff_ne_zero.mp hpos, hsum⟩

/-! ## What reassembly accepts -/

theorem checksumValid_iff {first : FragmentHeader} {header payload : Bytes}
    {stored : Nat} (hheader : header.length = udpHeaderSize)
    (hpayload : udpHeaderSize + payload.length < 65536)
    (hstored : be16At header 6 = some stored) :
    (∀ src dst, first.source = .v4 src → first.dest = .v4 dst →
      ∃ valid, checksumValid first stored header payload = .ok valid ∧
        (valid = true ↔ stored = 0 ∨
          internetSum (pseudoV4 src dst (udpHeaderSize + payload.length) ++
            header ++ payload) = 0xffff)) ∧
    ∀ src dst, first.source = .v6 src → first.dest = .v6 dst →
      ∃ valid, checksumValid first stored header payload = .ok valid ∧
        (valid = true ↔ stored ≠ 0 ∧
          internetSum (pseudoV6 src dst (udpHeaderSize + payload.length) ++
            header ++ payload) = 0xffff) := by
  have hlt := be16At_lt hstored
  constructor
  · intro src dst hsource hdest
    obtain ⟨checksum, hchecksum, hexact⟩ := udpV4_exact src dst hheader hpayload
    have honly := hexact.only stored hlt
    rw [header_eq hheader hstored] at honly
    simp only [checksumValid, hsource, hdest, hchecksum, liftPanic_ok, bind,
      Except.bind]
    split
    · rename_i hzero
      exact ⟨true, rfl, by simp [hzero]⟩
    · rename_i hsome
      refine ⟨_, rfl, ?_⟩
      rw [decide_eq_true_iff, honly]
      simp [hsome]
  · intro src dst hsource hdest
    obtain ⟨checksum, hchecksum, hexact⟩ := udpV6_exact src dst hheader hpayload
    have honly := hexact.only stored hlt
    rw [header_eq hheader hstored] at honly
    simp only [checksumValid, hsource, hdest, hchecksum, liftPanic_ok, bind,
      Except.bind]
    refine ⟨_, rfl, ?_⟩
    rw [decide_eq_true_iff, honly]

/-! ## The IPv4 header -/

theorem ipv4Header_exact {header : Bytes} (heven : header.length % 2 = 0)
    (hlong : 12 ≤ header.length) (hshort : header.length ≤ 60) :
    ∃ checksum folded, ipv4Header header = .ok checksum ∧
      Computes [header.take 10, header.drop 12] folded ∧
      checksum = folded.toNat ∧
      internetSum (overwrite header 10 (toBe16 checksum)) = 0xffff := by
  have hfront : slice? header 0 10 = some (header.take 10) :=
    slice?_eq_some_iff.mpr ⟨Nat.zero_le _, by omega, rfl⟩
  have hback : slice? header 12 header.length = some (header.drop 12) := by
    rw [slice?_eq_some_iff]
    refine ⟨hlong, Nat.le_refl _, ?_⟩
    rw [List.take_of_length_le (by rw [List.length_drop])]
  have htake : (header.take 10).length = 10 := by
    rw [List.length_take]
    omega
  have hdrop : (header.drop 12).length = header.length - 12 := List.length_drop
  have hsum := sumWords_le (header.take 10) 0
  have hsum' := sumWords_le (header.drop 12) (sumWords (header.take 10) 0)
  have hlt : sumParts [header.take 10, header.drop 12] 0 < 0x100000000 := by
    simp only [sumParts, List.foldl_cons, List.foldl_nil]
    omega
  obtain ⟨folded, hcomputes, hfold⟩ := computes_ok hlt
  have hform := foldOnce_form hlt
  have hvalue := hfold
  rw [fold_eq hlt, Except.ok.injEq] at hvalue
  refine ⟨folded.toNat, folded, ?_, hcomputes, rfl, ?_⟩
  · simp only [ipv4Header, hfront, hback, orPanic_some, bind, Except.bind]
    exact hfold
  · have hplain : plainSum (words (overwrite header 10
        (toBe16 folded.toNat))) 0 =
        sumParts [header.take 10, header.drop 12] 0 + folded.toNat := by
      rw [overwrite, words_append _ (by
        rw [List.length_append, htake, toBe16_length]),
        words_append _ (by omega), words_toBe16 folded.toNat_lt]
      simp only [plainSum_append, sumParts, List.foldl_cons, List.foldl_nil,
        sumWords_eq, toBe16_length]
      rw [plainSum_start (words (header.drop 12)), plainSum_start
        (words (header.drop 12)) (plainSum (words (header.take 10)) 0),
        plainSum_start [folded.toNat]]
      have hone : plainSum [folded.toNat] 0 = folded.toNat := Nat.zero_add _
      omega
    have hall := (onesSum_form (words_le
      (overwrite header 10 (toBe16 folded.toNat)))).all_ones_iff (by decide)
    have hle := hform.le
    have hzero := hform.zero_iff
    have hmod : foldOnce (foldOnce
        (sumParts [header.take 10, header.drop 12] 0)) % 0xffff =
        sumParts [header.take 10, header.drop 12] 0 % 0xffff := hform.modEq
    rw [internetSum, hall, hplain]
    omega

/-- The sums come out for every header and payload. -/
theorem checksums_exact :
    (∀ src dst header payload, header.length = udpHeaderSize →
      udpHeaderSize + payload.length < 65536 →
      ∃ checksum, udpV4 src dst header payload = .ok checksum ∧
        Exact (pseudoV4 src dst (udpHeaderSize + payload.length)) header
          payload checksum) ∧
    (∀ src dst header payload, header.length = udpHeaderSize →
      udpHeaderSize + payload.length < 65536 →
      ∃ checksum, udpV6 src dst header payload = .ok checksum ∧
        Exact (pseudoV6 src dst (udpHeaderSize + payload.length)) header
          payload checksum) ∧
    (∀ link src dst ttl id payload mtu frames,
      UdpFrames.ipv4 link src dst ttl id payload mtu = .ok frames →
      Stores (.v4 src.ip dst.ip ttl id) frames) ∧
    (∀ link src dst hopLimit id payload mtu frames,
      UdpFrames.ipv6 link src dst hopLimit id payload mtu = .ok frames →
      Stores (.v6 src.ip dst.ip hopLimit id) frames) ∧
    (∀ (first : FragmentHeader) header payload stored,
      header.length = udpHeaderSize →
      udpHeaderSize + payload.length < 65536 →
      be16At header 6 = some stored →
      (∀ src dst, first.source = .v4 src → first.dest = .v4 dst →
        ∃ valid, checksumValid first stored header payload = .ok valid ∧
          (valid = true ↔ stored = 0 ∨
            internetSum (pseudoV4 src dst (udpHeaderSize + payload.length) ++
              header ++ payload) = 0xffff)) ∧
      ∀ src dst, first.source = .v6 src → first.dest = .v6 dst →
        ∃ valid, checksumValid first stored header payload = .ok valid ∧
          (valid = true ↔ stored ≠ 0 ∧
            internetSum (pseudoV6 src dst (udpHeaderSize + payload.length) ++
              header ++ payload) = 0xffff)) ∧
    ∀ header : Bytes, header.length % 2 = 0 → 12 ≤ header.length →
      header.length ≤ 60 →
      ∃ checksum folded, ipv4Header header = .ok checksum ∧
        Computes [header.take 10, header.drop 12] folded ∧
        checksum = folded.toNat ∧
        internetSum (overwrite header 10 (toBe16 checksum)) = 0xffff := by
  refine ⟨?_, ?_, ?_, ?_, ?_, ?_⟩
  · intro src dst header payload hheader hpayload
    exact udpV4_exact src dst hheader hpayload
  · intro src dst header payload hheader hpayload
    exact udpV6_exact src dst hheader hpayload
  · intro link src dst ttl id payload mtu frames h
    exact laid_stores (UdpFrames.ipv4_laid h)
  · intro link src dst hopLimit id payload mtu frames h
    exact laid_stores (UdpFrames.ipv6_laid h)
  · intro first header payload stored hheader hpayload hstored
    exact checksumValid_iff hheader hpayload hstored
  · intro header heven hlong hshort
    exact ipv4Header_exact heven hlong hshort

end Netflector.Net.Checksum
