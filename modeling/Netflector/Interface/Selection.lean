import Netflector.Foundation.Earliest
import Netflector.Interface.Scan
import Netflector.Interface.Walking

/-!
# Which source addresses a scan selects

A scan of address messages ends with the first usable IPv4 address and the
earliest of the best usable IPv6 addresses, overall and among those that are
not link-local.
-/

namespace Netflector.Interface

open Netflector.Foundation
open Netflector.Net

/-! ## What a message says -/

structure AddrMessage where
  index : Nat
  family : Nat
  prefixLen : UInt8
  flags : Nat
  bytes : Option Bytes
  deriving DecidableEq

def attributesOf (endian : Endian) (msg : Bytes) : List Attribute :=
  (((rtattrFormat endian).records (msg.length + 1) 24 (msg.drop 24)).map
    Prod.snd).map (attributeOf endian)

def addrParts (endian : Endian) (msg : Bytes) : AddrParts :=
  (attributesOf endian msg).foldl (AddrParts.note endian)
    ⟨none, none, (msg.getD 18 0).toNat⟩

/-- `none` where the message is too short for its body. -/
def addrMessage (endian : Endian) (msg : Bytes) : Option AddrMessage :=
  if 24 ≤ msg.length then
    let parts := addrParts endian msg
    some
      { index := endian.read32 msg 20
        family := (msg.getD 16 0).toNat
        prefixLen := msg.getD 17 0
        flags := parts.flags
        bytes := parts.localAddr.or parts.address }
  else none

/-- Tentative, deprecated, or failed. -/
def AddrMessage.flagged (message : AddrMessage) : Bool :=
  message.flags &&& ifaFUnusable != 0

def foundIn (endian : Endian) (ifindex : Nat) (msg : Bytes) :
    Option Finding := do
  let message ← addrMessage endian msg
  if message.index ≠ ifindex ∨
      (message.family ≠ afInet ∧ message.family ≠ afInet6) then none
  else do
    let bytes ← message.bytes
    usableAddr message.family message.prefixLen message.flags bytes

variable {target : Target}

theorem body_getD {msg : Bytes} {index : Nat} (h : index < 8)
    (hlong : 24 ≤ msg.length) :
    ((msg.drop 16).take 8).getD index 0 = msg.getD (16 + index) 0 := by
  rw [List.getD_eq_getElem?_getD, List.getElem?_take_of_lt h,
    List.getElem?_drop, List.getD_eq_getElem?_getD]

theorem scanAddr_eq {msg : Bytes} (h : target.Fits msg) (ifindex : Nat)
    (state : V6Pick × InterfaceAddresses) :
    scanAddr target ifindex msg state =
      some (record state (foundIn target.endian ifindex msg)) := by
  have hfits := h.length_le
  have hroom := target.usize.maxLen_lt_top
  unfold scanAddr foundIn addrMessage
  rw [h.nlAlign_eq (.inr (Nat.le_refl _))]
  simp only [show roundUp 4 nlmsghdrLen = 16 from rfl, Option.bind_eq_bind,
    Option.bind_some]
  by_cases hlong : 24 ≤ msg.length
  · have hread : readAt target msg 16 ifaddrmsgLen =
        some ((msg.drop 16).take 8) := readAt_some hfits hlong
    have hindex : target.endian.read32 ((msg.drop 16).take 8) bodyIndexAt =
        target.endian.read32 msg 20 :=
      index_read target.endian (Nat.le_refl 8) hlong
    simp only [hread, hindex, body_getD (by omega : 0 < 8) hlong,
      body_getD (by omega : 1 < 8) hlong, body_getD (by omega : 2 < 8) hlong,
      if_pos hlong, Option.bind_some]
    split
    · rfl
    · obtain ⟨run, hsteady, hitems⟩ := rtattrs_steady h 24
      have halign : nlAlign target ifaddrmsgLen = some 8 :=
        h.nlAlign_eq (.inr (by decide))
      simp only [halign, Option.bind_some, Usize.add_eq
        (show 16 + 8 < target.usize.top by omega), hsteady.ends]
      have hparts : run.items.foldl (AddrParts.note target.endian)
          ⟨none, none, (msg.getD (16 + 2) 0).toNat⟩ =
          addrParts target.endian msg := by
        rw [hitems]
        rfl
      rw [hparts]
      cases (addrParts target.endian msg).localAddr.or
        (addrParts target.endian msg).address <;> rfl
  · have hread : readAt target msg 16 ifaddrmsgLen = none :=
      readAt_none (Nat.lt_of_not_le hlong)
    simp only [hread, if_neg hlong, Option.bind_none]
    rfl

def foundAll (endian : Endian) (ifindex : Nat) (msgs : List Bytes) :
    List Finding :=
  msgs.filterMap (foundIn endian ifindex)

theorem scanAddrs_eq {msgs : List Bytes}
    (h : ∀ msg ∈ msgs, target.Fits msg) (ifindex : Nat)
    (state : V6Pick × InterfaceAddresses) :
    scanAddrs target ifindex msgs state =
      some ((foundAll target.endian ifindex msgs).foldl scanOne state) := by
  induction msgs generalizing state with
  | nil => rfl
  | cons msg msgs ih =>
      have hfirst := h msg List.mem_cons_self
      have hrest := fun other hmem => h other (List.mem_cons_of_mem msg hmem)
      simp only [scanAddrs, scanAddr_eq hfirst, Option.bind_eq_bind,
        Option.bind_some, ih hrest, foundAll, List.filterMap_cons]
      cases foundIn target.endian ifindex msg <;> rfl

/-! ## What the findings select -/

def v4sOf (found : List Finding) : List (Ipv4Addr × Option UInt8) :=
  found.filterMap fun
    | .v4 addr length => some (addr, length)
    | _ => none

def v6sOf (found : List Finding) : List Ipv6Addr :=
  found.filterMap fun
    | .v6 addr => some addr
    | _ => none

def sourcesOf (found : List Finding) : List Ipv6Addr :=
  (v6sOf found).filter fun addr => v6Rank addr ≠ .notASource

def routableOf (found : List Finding) : List Ipv6Addr :=
  (sourcesOf found).filter fun addr => v6Rank addr ≠ .linkLocal

def addrLevel (addr : Ipv6Addr) : Nat := (v6Rank addr).level

/-- What a scan has selected of the findings seen so far, and that it still
knows the ranks of its picks. -/
structure Tracks (seen : List Finding) (state : V6Pick × InterfaceAddresses) :
    Prop where
  v4 : state.2.v4 = (v4sOf seen).head?.map Prod.fst
  v4Length : state.2.v4Prefix = (v4sOf seen).head?.bind Prod.snd
  any : Earliest addrLevel (sourcesOf seen) state.2.v6Any
  anyRank : ∀ addr, state.2.v6Any = some addr →
    state.1.bestRank = v6Rank addr
  routable : Earliest addrLevel (routableOf seen) state.2.v6Routable
  routableRank : ∀ addr, state.2.v6Routable = some addr →
    state.1.bestRoutableRank = v6Rank addr

theorem Tracks.start :
    Tracks [] (V6Pick.default, InterfaceAddresses.default) where
  v4 := rfl
  v4Length := rfl
  any := .empty
  anyRank := by
    intro addr h
    cases h
  routable := .empty
  routableRank := by
    intro addr h
    cases h

theorem level_lt_linkLocal_iff {rank : V6Rank} :
    rank.level < V6Rank.linkLocal.level ↔ rank ≠ .linkLocal := by
  cases rank <;> decide

theorem considerAny_v6Any {pick : V6Pick} {addrs : InterfaceAddresses}
    (h : ∀ addr, addrs.v6Any = some addr → pick.bestRank = v6Rank addr)
    (addr : Ipv6Addr) :
    (pick.considerAny addrs addr).2.v6Any =
        improve addrLevel addrs.v6Any addr ∧
      ∀ held, (pick.considerAny addrs addr).2.v6Any = some held →
        (pick.considerAny addrs addr).1.bestRank = v6Rank held := by
  unfold V6Pick.considerAny
  split
  · rename_i hbetter
    refine ⟨?_, ?_⟩
    · cases hany : addrs.v6Any with
      | none => rfl
      | some winner =>
          rw [h winner hany] at hbetter
          exact (if_pos (hbetter.resolve_left (by simp [hany]))).symm
    · rintro held ⟨⟩
      rfl
  · rename_i hkept
    rw [not_or] at hkept
    refine ⟨?_, h⟩
    cases hany : addrs.v6Any with
    | none => exact absurd hany hkept.1
    | some winner =>
        rw [h winner hany] at hkept
        exact (if_neg hkept.2).symm

theorem considerRoutable_v6Routable {pick : V6Pick}
    {addrs : InterfaceAddresses}
    (h : ∀ addr, addrs.v6Routable = some addr →
      pick.bestRoutableRank = v6Rank addr)
    {addr : Ipv6Addr} (hrank : v6Rank addr ≠ .linkLocal) :
    (pick.considerRoutable addrs addr).2.v6Routable =
        improve addrLevel addrs.v6Routable addr ∧
      ∀ held, (pick.considerRoutable addrs addr).2.v6Routable = some held →
        (pick.considerRoutable addrs addr).1.bestRoutableRank =
          v6Rank held := by
  have hbelow := level_lt_linkLocal_iff.mpr hrank
  unfold V6Pick.considerRoutable
  split
  · rename_i hbetter
    refine ⟨?_, ?_⟩
    · cases hroutable : addrs.v6Routable with
      | none => rfl
      | some winner =>
          rw [h winner hroutable] at hbetter
          exact (if_pos (hbetter.2.resolve_left (by simp [hroutable]))).symm
    · rintro held ⟨⟩
      rfl
  · rename_i hkept
    rw [not_and, not_or] at hkept
    have hkept := hkept hbelow
    refine ⟨?_, h⟩
    cases hroutable : addrs.v6Routable with
    | none => exact absurd hroutable hkept.1
    | some winner =>
        rw [h winner hroutable] at hkept
        exact (if_neg hkept.2).symm

theorem considerAny_frame (pick : V6Pick) (addrs : InterfaceAddresses)
    (addr : Ipv6Addr) :
    (pick.considerAny addrs addr).2.v4 = addrs.v4 ∧
      (pick.considerAny addrs addr).2.v4Prefix = addrs.v4Prefix ∧
      (pick.considerAny addrs addr).2.v6Routable = addrs.v6Routable ∧
      (pick.considerAny addrs addr).1.bestRoutableRank =
        pick.bestRoutableRank := by
  unfold V6Pick.considerAny
  split <;> exact ⟨rfl, rfl, rfl, rfl⟩

theorem considerRoutable_frame (pick : V6Pick) (addrs : InterfaceAddresses)
    (addr : Ipv6Addr) :
    (pick.considerRoutable addrs addr).2.v4 = addrs.v4 ∧
      (pick.considerRoutable addrs addr).2.v4Prefix = addrs.v4Prefix ∧
      (pick.considerRoutable addrs addr).2.v6Any = addrs.v6Any ∧
      (pick.considerRoutable addrs addr).1.bestRank = pick.bestRank := by
  unfold V6Pick.considerRoutable
  split <;> exact ⟨rfl, rfl, rfl, rfl⟩

theorem considerRoutable_linkLocal (pick : V6Pick)
    (addrs : InterfaceAddresses) {addr : Ipv6Addr}
    (h : v6Rank addr = .linkLocal) :
    pick.considerRoutable addrs addr = (pick, addrs) := by
  unfold V6Pick.considerRoutable
  rw [if_neg]
  rw [h]
  exact fun hbetter => Nat.lt_irrefl _ hbetter.1

theorem v4sOf_append (found found' : List Finding) :
    v4sOf (found ++ found') = v4sOf found ++ v4sOf found' :=
  List.filterMap_append

theorem sourcesOf_append (found found' : List Finding) :
    sourcesOf (found ++ found') = sourcesOf found ++ sourcesOf found' := by
  unfold sourcesOf v6sOf
  rw [List.filterMap_append, List.filter_append]

theorem routableOf_append (found found' : List Finding) :
    routableOf (found ++ found') = routableOf found ++ routableOf found' := by
  unfold routableOf
  rw [sourcesOf_append, List.filter_append]

theorem Tracks.scan_v4 {seen : List Finding} {pick : V6Pick}
    {addrs : InterfaceAddresses} (h : Tracks seen (pick, addrs))
    (addr : Ipv4Addr) (length : Option UInt8) :
    Tracks (seen ++ [.v4 addr length])
      (scanOne (pick, addrs) (.v4 addr length)) := by
  have hsources : sourcesOf (seen ++ [.v4 addr length]) = sourcesOf seen := by
    rw [sourcesOf_append]
    exact List.append_nil _
  have hroutable :
      routableOf (seen ++ [.v4 addr length]) = routableOf seen := by
    rw [routableOf_append]
    exact List.append_nil _
  have hv4s : v4sOf (seen ++ [.v4 addr length]) =
      v4sOf seen ++ [(addr, length)] := v4sOf_append seen _
  have hv4 : addrs.v4 = (v4sOf seen).head?.map Prod.fst := h.v4
  have hlength : addrs.v4Prefix = (v4sOf seen).head?.bind Prod.snd :=
    h.v4Length
  simp only [scanOne]
  cases hseen : v4sOf seen with
  | nil =>
      rw [hseen] at hv4 hv4s
      have hnone : addrs.v4 = none := hv4
      rw [if_pos hnone]
      exact ⟨by rw [hv4s]; rfl, by rw [hv4s]; rfl, hsources ▸ h.any,
        h.anyRank, hroutable ▸ h.routable, h.routableRank⟩
  | cons first rest =>
      rw [hseen] at hv4 hlength hv4s
      have hsome : addrs.v4 ≠ none := by
        rw [hv4]
        exact Option.some_ne_none _
      rw [if_neg hsome]
      exact ⟨by rw [hv4s]; exact hv4, by rw [hv4s]; exact hlength,
        hsources ▸ h.any, h.anyRank, hroutable ▸ h.routable, h.routableRank⟩

theorem Tracks.scan_v6 {seen : List Finding} {pick : V6Pick}
    {addrs : InterfaceAddresses} (h : Tracks seen (pick, addrs))
    (addr : Ipv6Addr) :
    Tracks (seen ++ [.v6 addr]) (scanOne (pick, addrs) (.v6 addr)) := by
  have hv4s : v4sOf (seen ++ [.v6 addr]) = v4sOf seen := by
    rw [v4sOf_append]
    exact List.append_nil _
  simp only [scanOne, V6Pick.consider]
  by_cases hsource : v6Rank addr = .notASource
  · have hnone : sourcesOf [.v6 addr] = [] := by
      simp [sourcesOf, v6sOf, hsource]
    have hsources : sourcesOf (seen ++ [.v6 addr]) = sourcesOf seen := by
      rw [sourcesOf_append, hnone, List.append_nil]
    have hroutable : routableOf (seen ++ [.v6 addr]) = routableOf seen := by
      unfold routableOf
      rw [hsources]
    rw [if_pos hsource]
    exact ⟨hv4s ▸ h.v4, hv4s ▸ h.v4Length, hsources ▸ h.any, h.anyRank,
      hroutable ▸ h.routable, h.routableRank⟩
  · have hone : sourcesOf [.v6 addr] = [addr] := by
      simp [sourcesOf, v6sOf, hsource]
    have hsources : sourcesOf (seen ++ [.v6 addr]) =
        sourcesOf seen ++ [addr] := by
      rw [sourcesOf_append, hone]
    rw [if_neg hsource]
    obtain ⟨hany, hanyRank⟩ := considerAny_v6Any h.anyRank addr
    obtain ⟨hv4, hlength, hkept, hkeptRank⟩ :=
      considerAny_frame pick addrs addr
    have hbest : Earliest addrLevel (sourcesOf (seen ++ [.v6 addr]))
        (pick.considerAny addrs addr).2.v6Any := by
      rw [hsources, hany]
      exact h.any.snoc addr
    by_cases hlocal : v6Rank addr = .linkLocal
    · have hroutable : routableOf (seen ++ [.v6 addr]) = routableOf seen := by
        unfold routableOf
        rw [hsources, List.filter_append]
        simp [hlocal]
      simp only [considerRoutable_linkLocal _ _ hlocal]
      refine ⟨?_, ?_, hbest, hanyRank, ?_, ?_⟩
      · rw [hv4s]
        exact hv4.trans h.v4
      · rw [hv4s]
        exact hlength.trans h.v4Length
      · rw [hroutable, hkept]
        exact h.routable
      · rw [hkept, hkeptRank]
        exact h.routableRank
    · have hroutable : routableOf (seen ++ [.v6 addr]) =
          routableOf seen ++ [addr] := by
        unfold routableOf
        rw [hsources, List.filter_append]
        simp [hlocal]
      have hstart : ∀ held,
          (pick.considerAny addrs addr).2.v6Routable = some held →
            (pick.considerAny addrs addr).1.bestRoutableRank =
              v6Rank held := by
        rw [hkept, hkeptRank]
        exact h.routableRank
      obtain ⟨hpicked, hpickedRank⟩ :=
        considerRoutable_v6Routable hstart hlocal
      obtain ⟨hv4', hlength', hany', hanyRank'⟩ := considerRoutable_frame
        (pick.considerAny addrs addr).1 (pick.considerAny addrs addr).2 addr
      refine ⟨?_, ?_, ?_, ?_, ?_, hpickedRank⟩
      · rw [hv4s]
        exact (hv4'.trans hv4).trans h.v4
      · rw [hv4s]
        exact (hlength'.trans hlength).trans h.v4Length
      · simp only [hany']
        exact hbest
      · simp only [hany', hanyRank']
        exact hanyRank
      · simp only [hpicked, hkept, hroutable]
        exact h.routable.snoc addr

theorem Tracks.step {seen : List Finding}
    {state : V6Pick × InterfaceAddresses} (h : Tracks seen state)
    (finding : Finding) :
    Tracks (seen ++ [finding]) (scanOne state finding) := by
  obtain ⟨pick, addrs⟩ := state
  cases finding with
  | v4 addr length => exact h.scan_v4 addr length
  | v6 addr => exact h.scan_v6 addr
  | link mac =>
      have hv4s : v4sOf (seen ++ [.link mac]) = v4sOf seen := by
        rw [v4sOf_append]
        exact List.append_nil _
      have hsources : sourcesOf (seen ++ [.link mac]) = sourcesOf seen := by
        rw [sourcesOf_append]
        exact List.append_nil _
      have hroutable : routableOf (seen ++ [.link mac]) = routableOf seen := by
        unfold routableOf
        rw [hsources]
      exact ⟨hv4s ▸ h.v4, hv4s ▸ h.v4Length, hsources ▸ h.any, h.anyRank,
        hroutable ▸ h.routable, h.routableRank⟩

theorem Tracks.run {seen : List Finding}
    {state : V6Pick × InterfaceAddresses} (h : Tracks seen state)
    (found : List Finding) :
    Tracks (seen ++ found) (found.foldl scanOne state) := by
  induction found generalizing seen state with
  | nil =>
      rw [List.append_nil]
      exact h
  | cons finding found ih =>
      have hrest := ih (h.step finding)
      rw [List.append_assoc] at hrest
      exact hrest

/-! ## What the messages select -/

def scanDump (target : Target) (ifindex : Nat) (msgs : List Bytes) :
    Option InterfaceAddresses :=
  (scanAddrs target ifindex msgs (V6Pick.default, .default)).map Prod.snd

theorem scanDump_eq {msgs : List Bytes}
    (h : ∀ msg ∈ msgs, target.Fits msg) (ifindex : Nat) :
    scanDump target ifindex msgs =
      some (resolve (foundAll target.endian ifindex msgs)) := by
  unfold scanDump
  rw [scanAddrs_eq h]
  rfl

/-- A message of another interface, or of an address that is flagged. -/
def Disregarded (endian : Endian) (ifindex : Nat) (msg : Bytes) : Prop :=
  ∃ message, addrMessage endian msg = some message ∧
    (message.index ≠ ifindex ∨ message.flagged = true)

theorem Disregarded.foundIn_eq {endian : Endian} {ifindex : Nat} {msg : Bytes}
    (h : Disregarded endian ifindex msg) :
    foundIn endian ifindex msg = none := by
  obtain ⟨message, hmessage, hindex | hflagged⟩ := h
  · simp [foundIn, hmessage, hindex]
  · have hflags : message.flags &&& ifaFUnusable ≠ 0 := by
      simpa [AddrMessage.flagged] using hflagged
    simp only [foundIn, hmessage, Option.bind_eq_bind, Option.bind_some]
    split
    · rfl
    · cases message.bytes with
      | none => rfl
      | some bytes => exact if_pos hflags

theorem level_injective {rank rank' : V6Rank} (h : rank.level = rank'.level) :
    rank = rank' := by
  cases rank <;> cases rank' <;> first | rfl | cases h

theorem rank_perm {candidates candidates' : List Ipv6Addr}
    {winner winner' : Option Ipv6Addr}
    (h : Earliest addrLevel candidates winner)
    (h' : Earliest addrLevel candidates' winner')
    (hperm : candidates.Perm candidates') :
    winner.map v6Rank = winner'.map v6Rank := by
  have hscore := h.score_perm h' hperm
  cases winner with
  | none =>
      cases winner' with
      | none => rfl
      | some addr' => cases hscore
  | some addr =>
      cases winner' with
      | none => cases hscore
      | some addr' =>
          exact congrArg some (level_injective (Option.some.inj hscore))

theorem resolve_tracks (found : List Finding) :
    ∃ pick, Tracks found (pick, resolve found) :=
  ⟨_, Tracks.start.run found⟩

structure Selects (target : Target) (ifindex : Nat) (msgs : List Bytes)
    (addrs : InterfaceAddresses) : Prop where
  v4 : addrs.v4 =
    (v4sOf (foundAll target.endian ifindex msgs)).head?.map Prod.fst
  v4Length : addrs.v4Prefix =
    (v4sOf (foundAll target.endian ifindex msgs)).head?.bind Prod.snd
  any : Earliest addrLevel
    (sourcesOf (foundAll target.endian ifindex msgs)) addrs.v6Any
  routable : Earliest addrLevel
    (routableOf (foundAll target.endian ifindex msgs)) addrs.v6Routable
  hasV6_iff : addrs.hasV6 = true ↔
    sourcesOf (foundAll target.endian ifindex msgs) ≠ []
  any_of_routable : addrs.v6Routable.isSome = true →
    addrs.v6Any.isSome = true
  covers : ∀ scope, (addrs.v6 scope).isSome = addrs.hasV6
  disregards : ∀ before msg after, msgs = before ++ msg :: after →
    Disregarded target.endian ifindex msg →
      scanDump target ifindex (before ++ after) = some addrs
  ranks : ∀ msgs', msgs.Perm msgs' →
    ∃ addrs', scanDump target ifindex msgs' = some addrs' ∧
      addrs'.v6Any.map v6Rank = addrs.v6Any.map v6Rank ∧
      addrs'.v6Routable.map v6Rank = addrs.v6Routable.map v6Rank

/-- Every scan of a dump ends with the first usable IPv4 address and the
earliest IPv6 addresses of the best ranks. -/
theorem scan_selects {target : Target} {msgs : List Bytes}
    (h : ∀ msg ∈ msgs, target.Fits msg) (ifindex : Nat) :
    ∃ addrs, scanDump target ifindex msgs = some addrs ∧
      Selects target ifindex msgs addrs := by
  obtain ⟨pick, htracks⟩ :=
    resolve_tracks (foundAll target.endian ifindex msgs)
  have hscanned : InterfaceAddresses.Scanned
      (resolve (foundAll target.endian ifindex msgs)) := ⟨_, rfl⟩
  refine ⟨_, scanDump_eq h ifindex, htracks.v4, htracks.v4Length,
    htracks.any, htracks.routable, htracks.any.isSome_iff, ?_,
    hscanned.v6_isSome, ?_, ?_⟩
  · intro hroutable
    cases hany : (resolve (foundAll target.endian ifindex msgs)).v6Any with
    | none =>
        rw [hscanned.covered hany] at hroutable
        cases hroutable
    | some addr => rfl
  · rintro before msg after rfl hmsg
    have hfits : ∀ other ∈ before ++ after, target.Fits other := by
      intro other hmem
      refine h other ?_
      rw [List.mem_append] at hmem ⊢
      exact hmem.imp_right (List.mem_cons_of_mem msg)
    have hfound : foundAll target.endian ifindex (before ++ msg :: after) =
        foundAll target.endian ifindex (before ++ after) := by
      simp only [foundAll, List.filterMap_append, List.filterMap_cons,
        hmsg.foundIn_eq]
    rw [scanDump_eq hfits, hfound]
  · intro msgs' hperm
    have hfits : ∀ other ∈ msgs', target.Fits other :=
      fun other hmem => h other (hperm.mem_iff.mpr hmem)
    obtain ⟨pick', htracks'⟩ :=
      resolve_tracks (foundAll target.endian ifindex msgs')
    have hfound := hperm.symm.filterMap (foundIn target.endian ifindex)
    have hsources : (sourcesOf (foundAll target.endian ifindex msgs')).Perm
        (sourcesOf (foundAll target.endian ifindex msgs)) :=
      (hfound.filterMap _).filter _
    refine ⟨_, scanDump_eq hfits ifindex, ?_, ?_⟩
    · exact rank_perm htracks'.any htracks.any hsources
    · exact rank_perm htracks'.routable htracks.routable (hsources.filter _)

def v6Message (flags : UInt8) (addr : Bytes) : Bytes :=
  [44, 0, 0, 0, 20, 0, 0, 0, 0, 0, 0, 0, 0, 0, 0, 0,
   10, 64, flags, 0, 5, 0, 0, 0, 20, 0, 1, 0] ++ addr

/-- A global address, a link-local one that is tentative, and one that is
not. -/
def v6Dump : List Bytes :=
  [v6Message 0x80 [0x20, 1, 0xd, 0xb8, 0, 0, 0, 0, 0, 0, 0, 0, 0, 0, 0, 1],
   v6Message 0x40 [0xfe, 0x80, 0, 0, 0, 0, 0, 0, 0, 0, 0, 0, 0, 0, 0, 2],
   v6Message 0x80 [0xfe, 0x80, 0, 0, 0, 0, 0, 0, 0, 0, 0, 0, 0, 0, 0, 3]]

theorem scan_selects_v6Dump :
    (scanDump smallTarget 5 v6Dump).map (fun addrs =>
        (addrs.v6Any.map v6Rank, addrs.v6Routable.map v6Rank)) =
      some (some .linkLocal, some .global) ∧
    ∃ addrs, scanDump smallTarget 5 v6Dump = some addrs ∧
      Selects smallTarget 5 v6Dump addrs := by
  refine ⟨by decide +kernel, scan_selects ?_ 5⟩
  intro msg hmem
  have hshort : msg.length = 44 := by
    revert msg
    decide +kernel
  exact ⟨by rw [hshort]; decide, fun _ _ => rfl⟩

end Netflector.Interface
