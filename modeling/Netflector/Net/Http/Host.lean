import Mathlib.Data.List.TakeWhile
import Netflector.Net.Http

/-!
# The host of a URL

The IP literal that an `http` or `https` URL names, if it names one.  An
address is read from the front of the text, as the standard library reads it,
and must then be all of it.
-/

namespace Netflector.Net.Http

open Netflector.Foundation

/-! ## Reading an address from the front -/

def readNumber (radix maxDigits limit : Nat) (allowZeroPrefix : Bool)
    (text : Bytes) : Option (Nat × Bytes) :=
  let digits := text.takeWhile (isDigit radix)
  if digits.length = 0 ∨ digits.length > maxDigits then none
  else if !allowZeroPrefix && digits.head? = some 0x30 &&
      decide (digits.length > 1) then none
  else if digitsValue radix digits < limit then
    some (digitsValue radix digits, text.drop digits.length)
  else none

/-- What `read` finds behind the separator, which only the first of a sequence
goes without. -/
def readSeparator {Value : Type} (separator : UInt8) (index : Nat)
    (read : Bytes → Option (Value × Bytes)) (text : Bytes) :
    Option (Value × Bytes) :=
  if index = 0 then read text
  else if text.head? = some separator then read (text.drop 1)
  else none

def readOctet (index : Nat) (text : Bytes) : Option (Nat × Bytes) :=
  readSeparator 0x2e index (readNumber 10 3 256 false) text

def readIpv4Addr (text : Bytes) : Option (Ipv4Addr × Bytes) := do
  let (first, text) ← readOctet 0 text
  let (second, text) ← readOctet 1 text
  let (third, text) ← readOctet 2 text
  let (fourth, text) ← readOctet 3 text
  some (⟨[UInt8.ofNat first, UInt8.ofNat second, UInt8.ofNat third,
    UInt8.ofNat fourth], rfl⟩, text)

/-- Up to `left` groups, `index` of them being read already, and whether they
end in an embedded IPv4 address.  It needs room for two groups. -/
def readGroups (index : Nat) : Nat → Bytes → List Bytes × Bool × Bytes
  | 0, text => ([], false, text)
  | left + 1, text =>
      let embedded :=
        if 1 ≤ left then readSeparator 0x3a index readIpv4Addr text else none
      match embedded with
      | some (addr, rest) =>
          ([addr.octets.take 2, addr.octets.drop 2], true, rest)
      | none =>
          match readSeparator 0x3a index (readNumber 16 4 65536 true) text with
          | none => ([], false, text)
          | some (group, rest) =>
              let (groups, ipv4, rest) := readGroups (index + 1) left rest
              (toBe16 group :: groups, ipv4, rest)

/-- Either all eight groups or those around a `::`, which stands for at least
one. -/
def readIpv6Addr (text : Bytes) : Option (Ipv6Addr × Bytes) :=
  let (head, headIpv4, rest) := readGroups 0 8 text
  if head.length = 8 then
    (Ipv6Addr.ofBytes? head.flatten).map fun addr => (addr, rest)
  else if headIpv4 then none
  else if rest.take 2 = [0x3a, 0x3a] then
    let (tail, _, rest) := readGroups 0 (8 - (head.length + 1)) (rest.drop 2)
    let zeros : List Bytes :=
      List.replicate (8 - head.length - tail.length) [0, 0]
    (Ipv6Addr.ofBytes? (head ++ zeros ++ tail).flatten).map fun addr =>
      (addr, rest)
  else none

def parseIpv6Addr (text : Bytes) : Option Ipv6Addr :=
  match readIpv6Addr text with
  | some (addr, []) => some addr
  | _ => none

/-! ## The host -/

def endsHost (octet : UInt8) : Bool :=
  octet ∈ ascii ":/?# \t\r"

/-- `none` for a hostname.  A bracketed host may carry a zone, which is cut
off. -/
def urlHostIp (url : Bytes) : Option IpAddr := do
  let rest ← (stripPrefixIgnoreAsciiCase url (ascii "http://")).or
    (stripPrefixIgnoreAsciiCase url (ascii "https://"))
  if rest.head? = some 0x5b then
    let close ← (rest.drop 1).findIdx? (· == 0x5d)
    let host := ((rest.drop 1).take close).takeWhile (· != 0x25)
    (parseIpv6Addr host).map .v6
  else
    (parseIpv4Addr (rest.takeWhile fun octet => !endsHost octet)).map .v4

/-! ## What it reads -/

/-- The IP literal that stands in front, where the scheme of a URL is cut off:
up to what ends a host, or in brackets with an optional zone. -/
inductive HostAt : Bytes → IpAddr → Prop
  | v4 {host tail : Bytes} {addr : Ipv4Addr}
      (hhost : ∀ octet ∈ host, endsHost octet = false)
      (htail : ∀ octet ∈ tail.head?, endsHost octet = true)
      (hplain : (host ++ tail).head? ≠ some 0x5b)
      (haddr : parseIpv4Addr host = some addr) : HostAt (host ++ tail) (.v4 addr)
  | v6 {host zone tail : Bytes} {addr : Ipv6Addr}
      (hhost : 0x5d ∉ host ∧ 0x25 ∉ host) (hzone : 0x5d ∉ zone)
      (hmark : ∀ octet ∈ zone.head?, octet = 0x25)
      (haddr : parseIpv6Addr host = some addr) :
      HostAt (0x5b :: (host ++ zone ++ 0x5d :: tail)) (.v6 addr)

def HostLiteral (url : Bytes) (ip : IpAddr) : Prop :=
  ∃ scheme rest, url = scheme ++ rest ∧
    (eqIgnoreAsciiCase scheme (ascii "http://") = true ∨
      eqIgnoreAsciiCase scheme (ascii "https://") = true) ∧ HostAt rest ip

theorem strip_iff {line pattern rest : Bytes} :
    stripPrefixIgnoreAsciiCase line pattern = some rest ↔
      ∃ head, line = head ++ rest ∧
        eqIgnoreAsciiCase head pattern = true := by
  unfold stripPrefixIgnoreAsciiCase
  constructor
  · intro h
    split at h
    · rename_i hmatch
      cases h
      exact ⟨line.take pattern.length, (List.take_append_drop _ _).symm,
        hmatch.2⟩
    · cases h
  · rintro ⟨head, rfl, hmatch⟩
    have hlength : head.length = pattern.length := by
      have hlower := congrArg List.length (eq_of_beq hmatch)
      simpa using hlower
    rw [← hlength, List.take_left, List.drop_left, if_pos]
    exact ⟨by simp, hmatch⟩

theorem scheme_cut {url rest : Bytes} :
    (stripPrefixIgnoreAsciiCase url (ascii "http://")).or
        (stripPrefixIgnoreAsciiCase url (ascii "https://")) = some rest ↔
      ∃ scheme, url = scheme ++ rest ∧
        (eqIgnoreAsciiCase scheme (ascii "http://") = true ∨
          eqIgnoreAsciiCase scheme (ascii "https://") = true) := by
  rw [Option.or_eq_some_iff]
  constructor
  · rintro (h | ⟨_, h⟩)
    · obtain ⟨scheme, hurl, hscheme⟩ := strip_iff.mp h
      exact ⟨scheme, hurl, .inl hscheme⟩
    · obtain ⟨scheme, hurl, hscheme⟩ := strip_iff.mp h
      exact ⟨scheme, hurl, .inr hscheme⟩
  · rintro ⟨scheme, rfl, hscheme | hscheme⟩
    · exact .inl (strip_iff.mpr ⟨scheme, rfl, hscheme⟩)
    · refine .inr ⟨?_, strip_iff.mpr ⟨scheme, rfl, hscheme⟩⟩
      -- The two schemes part at the fifth octet.
      have hlower : asciiLower scheme = asciiLower (ascii "https://") :=
        eq_of_beq hscheme
      have hlength : scheme.length = (ascii "https://").length := by
        simpa using congrArg List.length hlower
      have height : (ascii "https://").length = 8 := by decide
      unfold stripPrefixIgnoreAsciiCase
      rw [if_neg]
      rintro ⟨_, hmatch⟩
      have hfront : asciiLower ((scheme ++ rest).take 7) =
          asciiLower (ascii "http://") := eq_of_beq hmatch
      rw [List.take_append_of_le_length (by omega), asciiLower, List.map_take,
        ← asciiLower, hlower] at hfront
      exact absurd hfront (by decide)

theorem takeWhile_cut {keeps : UInt8 → Bool} {front back : Bytes}
    (hfront : ∀ octet ∈ front, keeps octet = true)
    (hback : ∀ octet ∈ back.head?, keeps octet = false) :
    (front ++ back).takeWhile keeps = front := by
  rw [List.takeWhile_append_of_pos hfront]
  cases back with
  | nil => simp
  | cons octet back =>
      rw [List.takeWhile_cons, hback octet rfl]
      simp

theorem takeWhile_split (keeps : UInt8 → Bool) (bytes : Bytes) :
    ∃ back, bytes = bytes.takeWhile keeps ++ back ∧
      ∀ octet ∈ back.head?, keeps octet = false := by
  refine ⟨bytes.dropWhile keeps, List.takeWhile_append_dropWhile.symm, ?_⟩
  intro octet hoctet
  have hnot := List.head?_dropWhile_not keeps bytes
  rw [Option.mem_def.mp hoctet] at hnot
  exact hnot

theorem hostAt_v4 {rest : Bytes} {addr : Ipv4Addr} :
    HostAt rest (.v4 addr) ↔ rest.head? ≠ some 0x5b ∧
      parseIpv4Addr (rest.takeWhile fun octet => !endsHost octet) =
        some addr := by
  constructor
  · intro h
    cases h with
    | v4 hhost htail hplain haddr =>
        refine ⟨hplain, ?_⟩
        rw [takeWhile_cut, haddr]
        · exact fun octet hmem => by simp [hhost octet hmem]
        · exact fun octet hmem => by simp [htail octet hmem]
  · rintro ⟨hplain, haddr⟩
    obtain ⟨tail, hrest, htail⟩ :=
      takeWhile_split (fun octet => !endsHost octet) rest
    rw [hrest] at hplain ⊢
    refine .v4 ?_ ?_ hplain haddr
    · intro octet hmem
      simpa using List.mem_takeWhile_imp hmem
    · intro octet hmem
      simpa using htail octet hmem

theorem hostAt_v6 {rest : Bytes} {addr : Ipv6Addr} :
    HostAt (0x5b :: rest) (.v6 addr) ↔
      ∃ close, rest.findIdx? (· == 0x5d) = some close ∧
        parseIpv6Addr ((rest.take close).takeWhile (· != 0x25)) =
          some addr := by
  constructor
  · generalize hwhole : (0x5b :: rest : Bytes) = whole
    generalize hip : IpAddr.v6 addr = ip
    intro h
    cases h with
    | v4 => cases hip
    | @v6 host zone tail _ hhost hzone hmark haddr =>
        cases hip
        cases hwhole
        refine ⟨(host ++ zone).length, ?_, ?_⟩
        · have hfree : (host ++ zone).findIdx? (· == 0x5d) = none := by
            rw [List.findIdx?_eq_none_iff]
            intro octet hmem
            refine beq_eq_false_iff_ne.mpr ?_
            rintro rfl
            exact (List.mem_append.mp hmem).elim hhost.1 hzone
          rw [List.findIdx?_append, hfree]
          simp [List.findIdx?_cons]
        · rw [List.take_left, takeWhile_cut, haddr]
          · intro octet hmem
            refine bne_iff_ne.mpr ?_
            rintro rfl
            exact hhost.2 hmem
          · intro octet hmem
            simp [hmark octet hmem]
  · rintro ⟨close, hclose, haddr⟩
    obtain ⟨inner, tail, rfl, hfree, rfl⟩ := findIdx?_split hclose
    rw [List.take_left] at haddr
    obtain ⟨zone, hinner, hmark⟩ := takeWhile_split (· != 0x25) inner
    rw [hinner] at hfree ⊢
    rw [List.mem_append, not_or] at hfree
    refine .v6 ⟨hfree.1, ?_⟩ hfree.2 ?_ haddr
    · intro hmem
      simpa using List.mem_takeWhile_imp hmem
    · intro octet hmem
      simpa using hmark octet hmem

theorem urlHostIp_iff {url : Bytes} {ip : IpAddr} :
    urlHostIp url = some ip ↔ HostLiteral url ip := by
  have hrest : ∀ rest : Bytes, HostAt rest ip ↔
      (if rest.head? = some 0x5b then do
        let close ← (rest.drop 1).findIdx? (· == 0x5d)
        let host := ((rest.drop 1).take close).takeWhile (· != 0x25)
        (parseIpv6Addr host).map .v6
      else (parseIpv4Addr (rest.takeWhile fun octet => !endsHost octet)).map
        .v4) = some ip := by
    intro rest
    split
    · rename_i hbracket
      cases rest with
      | nil => cases hbracket
      | cons octet rest =>
          cases hbracket
          cases ip with
          | v4 addr =>
              rw [hostAt_v4]
              simp [Option.bind_eq_some_iff]
          | v6 addr =>
              rw [hostAt_v6]
              simp [Option.bind_eq_some_iff]
    · rename_i hplain
      cases ip with
      | v4 addr =>
          rw [hostAt_v4]
          simp [hplain]
      | v6 addr =>
          simp only [Option.map_eq_some_iff, reduceCtorEq, and_false,
            exists_false, iff_false]
          intro h
          cases h
          exact hplain rfl
  unfold urlHostIp HostLiteral
  simp only [bind, Option.bind_eq_some_iff, scheme_cut]
  constructor
  · rintro ⟨rest, ⟨scheme, hurl, hscheme⟩, hhost⟩
    exact ⟨scheme, rest, hurl, hscheme, (hrest rest).mpr hhost⟩
  · rintro ⟨scheme, rest, hurl, hscheme, hhost⟩
    exact ⟨rest, ⟨scheme, hurl, hscheme⟩, (hrest rest).mp hhost⟩

end Netflector.Net.Http
