import Netflector.Dispatch.Egress

/-!
# Each datagram once for a packet

Two entries whose legs coincide both relay a packet.  What was sent for the
packet being routed is recorded at the capture it went out on, and the record
is reset when the next packet comes by; here the record is compared with the
sends themselves, over whole runs of the dispatcher.
-/

namespace Netflector.Dispatch

open Netflector.Foundation
open Netflector.Net

/-! ## Sends and runs -/

inductive Call where
  | udp (inject : Nat → Except Errno Unit) (key : CaptureKey)
      (dstMac : MacAddr) (datagram : Datagram)
  | group (inject : Nat → Except Errno Unit) (key : CaptureKey)
      (datagram : Datagram)
  | peers (inject : Nat → Nat → Except Errno Unit) (key : CaptureKey)
      (peers : List IpAddr) (datagram : Datagram)

structure Sender where
  egress : Egress
  table : InterfaceTable

section Runs

variable (digest : MacAddr → Datagram → UInt64)

def Sender.call (sender : Sender) : Call → SendResult
  | .udp inject key dstMac datagram =>
      sender.egress.sendUdp digest inject sender.table key dstMac datagram
  | .group inject key datagram =>
      sender.egress.sendUdpGroup digest inject sender.table key datagram
  | .peers inject key peers datagram =>
      sender.egress.sendUdpToPeers digest inject sender.table key peers
        datagram

def Sender.calls (sender : Sender) : List Call → Sender × List Sending
  | [] => (sender, [])
  | call :: calls =>
      let sent := sender.call digest call
      let (sender, more) := Sender.calls ⟨sent.egress, sent.table⟩ calls
      (sender, sent.sendings ++ more)

/-- What happens to the sender: a packet is routed and its handlers send, a
send is made outside of routing, or the table changes. -/
inductive Moment where
  | route (calls : List Call)
  | send (call : Call)
  | change (platform : Platform) (op : InterfaceTable.Op)
  | take (capture : CaptureKey)
  | restore (capture : CaptureKey) (value : Capture)

def Sender.moment (sender : Sender) : Moment → Sender × List Sending
  | .route calls =>
      let (after, sendings) := Sender.calls digest
        { sender with egress := sender.egress.beginPacket } calls
      ({ after with egress := after.egress.endPacket }, sendings)
  | .send call =>
      let sent := sender.call digest call
      (⟨sent.egress, sent.table⟩, sent.sendings)
  | .change platform op =>
      ({ sender with table := sender.table.apply platform op }, [])
  | .take capture =>
      ({ sender with table := (sender.table.take capture).1 }, [])
  | .restore capture value =>
      ({ sender with table := sender.table.restore capture value }, [])

def Sender.run (sender : Sender) : List Moment → List (Moment × List Sending)
  | [] => []
  | moment :: moments =>
      let (sender, sendings) := sender.moment digest moment
      (moment, sendings) :: Sender.run sender moments

end Runs

/-! ## The record -/

def Fate.complete : Fate → Bool
  | .transmitted _ complete => complete
  | _ => false

def Sending.key (sending : Sending) : CaptureKey × MacAddr × Datagram :=
  (sending.egress, sending.dstMac, sending.datagram)

def InterfaceTable.Numbered (table : InterfaceTable) (packet : Nat) : Prop :=
  ∀ entry ∈ table.captures, entry.sentPacket ≤ packet

theorem InterfaceTable.Numbered.wasSent_later {table : InterfaceTable}
    {packet later : Nat} (h : table.Numbered packet) (hlater : packet < later)
    (key : CaptureKey) (digest : UInt64) :
    table.wasSent key later digest = false := by
  simp only [InterfaceTable.wasSent]
  cases hentry : table.captureEntry key with
  | none => rfl
  | some entry =>
      have hle := h entry (List.mem_of_getElem? hentry)
      have hne : ¬ entry.sentPacket = later := by omega
      simp [hne]

theorem recordSent_captures (table : InterfaceTable) (key other : CaptureKey)
    (packet : Nat) (digest : UInt64) :
    (table.recordSent key packet digest).captureEntry other =
      if other = key then
        (table.captureEntry key).map (·.recordSent packet digest)
      else table.captureEntry other := by
  simp only [InterfaceTable.recordSent, InterfaceTable.captureEntry,
    List.getElem?_modify]
  by_cases hsame : other = key
  · subst hsame
    simp
  · have hindex : key.index.toNat ≠ other.index.toNat := by
      intro heq
      apply hsame
      cases other
      cases key
      simp only [CaptureKey.mk.injEq]
      exact (UInt32.toNat_inj.mp heq).symm
    simp [hsame, hindex]

theorem wasSent_recordSent (table : InterfaceTable) (key other : CaptureKey)
    (packet : Nat) (digest later : UInt64)
    (hentry : (table.captureEntry key).isSome) :
    (table.recordSent key packet digest).wasSent other packet later = true ↔
      table.wasSent other packet later = true ∨
        (other = key ∧ later = digest) := by
  simp only [InterfaceTable.wasSent, recordSent_captures]
  by_cases hsame : other = key
  · subst hsame
    obtain ⟨entry, hentry⟩ := Option.isSome_iff_exists.mp hentry
    simp only [hentry, if_true, Option.map_some, Option.any_some,
      CaptureEntry.recordSent]
    by_cases hpacket : entry.sentPacket = packet
    · simp [hpacket]
    · simp [hpacket]
  · simp [hsame]

theorem InterfaceTable.Numbered.recordSent {table : InterfaceTable}
    {packet : Nat} (h : table.Numbered packet) (key : CaptureKey)
    (digest : UInt64) : (table.recordSent key packet digest).Numbered packet := by
  intro entry hmem
  obtain ⟨index, hindex⟩ := List.mem_iff_getElem?.mp hmem
  simp only [InterfaceTable.recordSent, List.getElem?_modify] at hindex
  obtain ⟨was, hwas, rfl⟩ := Option.map_eq_some_iff.mp hindex
  have hle := h was (List.mem_of_getElem? hwas)
  split
  · simp only [CaptureEntry.recordSent]
    split
    · exact Nat.le_refl _
    · exact hle
  · exact hle

/-! ## One datagram -/

theorem plan_state (egress : Egress) (table : InterfaceTable)
    (key : CaptureKey) (dstMac : MacAddr) (datagram : Datagram) :
    (egress.plan table key dstMac datagram).1.packet = egress.packet ∧
      (egress.plan table key dstMac datagram).1.routing = egress.routing := by
  simp only [Egress.plan]
  split
  · split
    · exact ⟨rfl, rfl⟩
    · exact ⟨rfl, rfl⟩
  · exact ⟨rfl, rfl⟩

theorem plan_capture {egress egress' : Egress} {table : InterfaceTable}
    {key : CaptureKey} {dstMac : MacAddr} {datagram : Datagram}
    {frames : UdpFrames}
    (h : egress.plan table key dstMac datagram = (egress', .ok (some frames))) :
    (table.captureEntry key).isSome := by
  simp only [Egress.plan] at h
  split at h
  · rename_i addrs capture haddrs hcapture
    obtain ⟨entry, hentry, _⟩ := Option.bind_eq_some_iff.mp hcapture
    rw [hentry]
    rfl
  · cases h

theorem transmit_ok {digest : MacAddr → Datagram → UInt64}
    {egress : Egress} {table table' : InterfaceTable} {key : CaptureKey}
    {dstMac : MacAddr} {datagram : Datagram} {frames : UdpFrames}
    {inject : Nat → Except Errno Unit} {handed : List Bytes}
    (h : egress.transmit digest table key dstMac datagram frames inject =
      (table', handed, .ok ())) :
    table' = if egress.routing then
        table.recordSent key egress.packet (digest dstMac datagram)
      else table := by
  simp only [Egress.transmit] at h
  split at h
  · cases h
  · simp only [Prod.mk.injEq] at h
    exact h.1.symm

theorem transmit_error {digest : MacAddr → Datagram → UInt64}
    {egress : Egress} {table table' : InterfaceTable} {key : CaptureKey}
    {dstMac : MacAddr} {datagram : Datagram} {frames : UdpFrames}
    {inject : Nat → Except Errno Unit} {handed : List Bytes}
    {error : Stop SendError}
    (h : egress.transmit digest table key dstMac datagram frames inject =
      (table', handed, .error error)) : table' = table := by
  simp only [Egress.transmit] at h
  split at h
  · simp only [Prod.mk.injEq] at h
    exact h.1.symm
  · cases h

section Packet

variable {digest : MacAddr → Datagram → UInt64}

/-- While a packet is routed and `done` was sent for it, the record is what
went out whole, nothing went out whole twice, and what was suppressed has an
equal digest before it. -/
structure Sender.Routing (digest : MacAddr → Datagram → UInt64)
    (sender : Sender) (done : List Sending) : Prop where
  routing : sender.egress.routing = true
  numbered : sender.table.Numbered sender.egress.packet
  known : ∀ key value,
    sender.table.wasSent key sender.egress.packet value = true ↔
      ∃ sending ∈ done, sending.fate.complete = true ∧ sending.egress = key ∧
        digest sending.dstMac sending.datagram = value
  once : ((done.filter (·.fate.complete)).map Sending.key).Nodup
  earned : ∀ before sending after, done = before ++ sending :: after →
    sending.fate = .suppressed →
      ∃ earlier ∈ before, earlier.fate.complete = true ∧
        earlier.egress = sending.egress ∧
        digest earlier.dstMac earlier.datagram =
          digest sending.dstMac sending.datagram

theorem append_singleton_split {Item : Type} {done before after : List Item}
    {last item : Item} (h : done ++ [last] = before ++ item :: after) :
    (before = done ∧ item = last) ∨
      ∃ rest, done = before ++ item :: rest := by
  rcases List.eq_nil_or_concat after with rfl | ⟨front, final, rfl⟩
  · have := List.append_inj' h rfl
    exact .inl ⟨this.1.symm, (List.cons.inj this.2).1.symm⟩
  · rw [List.concat_eq_append, ← List.cons_append, ← List.append_assoc] at h
    have := List.append_inj' h rfl
    exact .inr ⟨front, this.1⟩

theorem Sender.Routing.suppress {sender : Sender} {done : List Sending}
    (h : sender.Routing digest done) {key : CaptureKey} {dstMac : MacAddr}
    {datagram : Datagram}
    (hsent : sender.egress.alreadySent digest sender.table key dstMac
      datagram = true) :
    sender.Routing digest
      (done ++ [⟨key, dstMac, datagram, .suppressed⟩]) := by
  have hknown : sender.table.wasSent key sender.egress.packet
      (digest dstMac datagram) = true := by
    simpa [Egress.alreadySent, h.routing] using hsent
  constructor
  · exact h.routing
  · exact h.numbered
  · intro other value
    rw [h.known]
    constructor
    · rintro ⟨sending, hmem, hfacts⟩
      exact ⟨sending, List.mem_append_left _ hmem, hfacts⟩
    · rintro ⟨sending, hmem, hcomplete, hfacts⟩
      rcases List.mem_append.mp hmem with hold | hnew
      · exact ⟨sending, hold, hcomplete, hfacts⟩
      · rw [List.mem_singleton.mp hnew] at hcomplete
        cases hcomplete
  · simpa [List.filter_append, Fate.complete] using h.once
  · intro before sending after hsplit hsuppressed
    rcases append_singleton_split hsplit with ⟨rfl, rfl⟩ | ⟨rest, hrest⟩
    · exact (h.known _ _).mp hknown
    · exact h.earned before sending rest hrest hsuppressed

theorem Sender.Routing.skip {sender : Sender} {done : List Sending}
    (h : sender.Routing digest done) {egress : Egress} (sending : Sending)
    (hpacket : egress.packet = sender.egress.packet)
    (hrouting : egress.routing = sender.egress.routing)
    (hfate : sending.fate.complete = false)
    (hkept : sending.fate ≠ .suppressed) :
    Sender.Routing digest ⟨egress, sender.table⟩ (done ++ [sending]) := by
  constructor
  · exact hrouting.trans h.routing
  · intro entry hmem
    rw [hpacket]
    exact h.numbered entry hmem
  · intro key value
    simp only [hpacket]
    rw [h.known]
    constructor
    · rintro ⟨sent, hmem, hfacts⟩
      exact ⟨sent, List.mem_append_left _ hmem, hfacts⟩
    · rintro ⟨sent, hmem, hcomplete, hfacts⟩
      rcases List.mem_append.mp hmem with hold | hnew
      · exact ⟨sent, hold, hcomplete, hfacts⟩
      · rw [List.mem_singleton.mp hnew, hfate] at hcomplete
        cases hcomplete
  · simpa [List.filter_append, hfate] using h.once
  · intro before sent after hsplit hsuppressed
    rcases append_singleton_split hsplit with ⟨rfl, rfl⟩ | ⟨rest, hrest⟩
    · exact absurd hsuppressed hkept
    · exact h.earned before sent rest hrest hsuppressed

theorem Sender.Routing.record {sender : Sender} {done : List Sending}
    (h : sender.Routing digest done) {egress : Egress} {key : CaptureKey}
    {dstMac : MacAddr} {datagram : Datagram} (frames : List Bytes)
    (hpacket : egress.packet = sender.egress.packet)
    (hrouting : egress.routing = sender.egress.routing)
    (hentry : (sender.table.captureEntry key).isSome)
    (hsent : sender.egress.alreadySent digest sender.table key dstMac
      datagram = false) :
    Sender.Routing digest
      ⟨egress, sender.table.recordSent key egress.packet
        (digest dstMac datagram)⟩
      (done ++ [⟨key, dstMac, datagram, .transmitted frames true⟩]) := by
  have hfresh : ¬ sender.table.wasSent key sender.egress.packet
      (digest dstMac datagram) = true := by
    simpa [Egress.alreadySent, h.routing] using hsent
  constructor
  · exact hrouting.trans h.routing
  · simp only [hpacket]
    exact h.numbered.recordSent key _
  · intro other value
    simp only [hpacket]
    rw [wasSent_recordSent _ _ _ _ _ _ hentry, h.known]
    constructor
    · rintro (⟨sent, hmem, hfacts⟩ | ⟨rfl, rfl⟩)
      · exact ⟨sent, List.mem_append_left _ hmem, hfacts⟩
      · exact ⟨_, List.mem_append_right _ (List.mem_singleton.mpr rfl), rfl,
          rfl, rfl⟩
    · rintro ⟨sent, hmem, hcomplete, hkey, hvalue⟩
      rcases List.mem_append.mp hmem with hold | hnew
      · exact .inl ⟨sent, hold, hcomplete, hkey, hvalue⟩
      · rw [List.mem_singleton.mp hnew] at hkey hvalue
        exact .inr ⟨hkey.symm, hvalue.symm⟩
  · have hnew : (key, dstMac, datagram) ∉
        (done.filter (·.fate.complete)).map Sending.key := by
      intro hmem
      obtain ⟨sent, hsent, hkey⟩ := List.mem_map.mp hmem
      obtain ⟨hdone, hcomplete⟩ := List.mem_filter.mp hsent
      simp only [Sending.key, Prod.mk.injEq] at hkey
      apply hfresh
      rw [h.known]
      exact ⟨sent, hdone, hcomplete, hkey.1, by rw [hkey.2.1, hkey.2.2]⟩
    rw [List.filter_append, List.map_append, List.nodup_append]
    refine ⟨h.once, by simp [Fate.complete], ?_⟩
    intro first hfirst last hlast heq
    simp only [Fate.complete, List.filter_cons_of_pos, List.filter_nil,
      List.map_cons, List.map_nil, List.mem_singleton] at hlast
    subst hlast
    subst heq
    exact hnew hfirst
  · intro before sent after hsplit hsuppressed
    rcases append_singleton_split hsplit with ⟨rfl, rfl⟩ | ⟨rest, hrest⟩
    · cases hsuppressed
    · exact h.earned before sent rest hrest hsuppressed

/-! ## Sends while a packet is routed -/

def SendResult.Extends (digest : MacAddr → Datagram → UInt64)
    (sent : SendResult) (done : List Sending) : Prop :=
  Sender.Routing digest ⟨sent.egress, sent.table⟩ (done ++ sent.sendings)

theorem SendResult.Extends.cons {sent : SendResult} {done : List Sending}
    {sending : Sending} (h : sent.Extends digest (done ++ [sending])) :
    SendResult.Extends digest
      { sent with sendings := sending :: sent.sendings } done := by
  rw [SendResult.Extends, List.append_assoc] at h
  exact h

theorem Sender.Routing.sendUdp {sender : Sender} {done : List Sending}
    (h : sender.Routing digest done) (inject : Nat → Except Errno Unit)
    (key : CaptureKey) (dstMac : MacAddr) (datagram : Datagram) :
    (sender.egress.sendUdp digest inject sender.table key dstMac
      datagram).Extends digest done := by
  obtain ⟨hpacket, hrouting⟩ :=
    plan_state sender.egress sender.table key dstMac datagram
  simp only [Egress.sendUdp]
  split
  · rename_i hsent
    exact h.suppress hsent
  rename_i hsent
  split
  · rename_i egress error hplan
    rw [hplan] at hpacket hrouting
    exact h.skip _ hpacket hrouting rfl (by simp)
  · rename_i egress hplan
    rw [hplan] at hpacket hrouting
    exact h.skip _ hpacket hrouting rfl (by simp)
  · rename_i egress frames hplan
    rw [hplan] at hpacket hrouting
    rcases htransmit : egress.transmit digest sender.table key dstMac datagram
        frames inject with ⟨table, handed, result⟩
    cases result with
    | error error =>
        rw [transmit_error htransmit]
        exact h.skip _ hpacket hrouting rfl (by simp)
    | ok done =>
        have htable := transmit_ok htransmit
        rw [if_pos (hrouting.trans h.routing)] at htable
        rw [htable]
        exact h.record handed hpacket hrouting (plan_capture hplan)
          (by simpa using hsent)

theorem Sender.Routing.sendToEach {sender : Sender} {done : List Sending}
    (h : sender.Routing digest done)
    (inject : Nat → Nat → Except Errno Unit) (key : CaptureKey)
    (datagram : Datagram) (position : Nat) (peers : List IpAddr)
    (delivered : Bool) (failure : Option (Stop SendError)) :
    (Egress.sendToEach digest inject key datagram position peers delivered
      failure sender.egress sender.table).Extends digest done := by
  induction peers generalizing sender done position delivered failure with
  | nil =>
      simp only [Egress.sendToEach, SendResult.Extends, List.append_nil]
      exact h
  | cons peer peers ih =>
      obtain ⟨hpacket, hrouting⟩ := plan_state sender.egress sender.table key
        .broadcast { datagram with dst := ⟨peer, datagram.dst.port⟩ }
      simp only [Egress.sendToEach]
      split
      · rename_i hsent
        exact (ih (h.suppress hsent) (position + 1) true failure).cons
      rename_i hsent
      split
      · rename_i egress error hplan
        rw [hplan] at hpacket hrouting
        exact h.skip _ hpacket hrouting rfl (by simp)
      · rename_i egress hplan
        rw [hplan] at hpacket hrouting
        exact h.skip _ hpacket hrouting rfl (by simp)
      · rename_i egress frames hplan
        rw [hplan] at hpacket hrouting
        split
        · rename_i table handed htransmit
          have htable := transmit_ok htransmit
          rw [if_pos (hrouting.trans h.routing)] at htable
          have hnext := h.record handed hpacket hrouting (plan_capture hplan)
            (by simpa using hsent)
          rw [← htable] at hnext
          exact (ih hnext (position + 1) true failure).cons
        · rename_i table handed panic htransmit
          rw [transmit_error htransmit]
          exact h.skip _ hpacket hrouting rfl (by simp)
        · rename_i table handed error htransmit
          have hnext := h.skip
            ⟨key, .broadcast, { datagram with dst := ⟨peer, datagram.dst.port⟩ },
              .transmitted handed false⟩ hpacket hrouting rfl (by simp)
          rw [← transmit_error htransmit] at hnext
          exact (ih hnext (position + 1) delivered
            (some (.error error))).cons

theorem Sender.Routing.call {sender : Sender} {done : List Sending}
    (h : sender.Routing digest done) (call : Call) :
    (sender.call digest call).Extends digest done := by
  cases call with
  | udp inject key dstMac datagram =>
      exact h.sendUdp inject key dstMac datagram
  | group inject key datagram =>
      simp only [Sender.call, Egress.sendUdpGroup]
      split
      · simp only [SendResult.Extends, List.append_nil]
        exact h
      · exact h.sendUdp inject key _ datagram
  | peers inject key peers datagram =>
      exact h.sendToEach inject key datagram 0 _ false none

theorem Sender.Routing.calls {sender : Sender} {done : List Sending}
    (h : sender.Routing digest done) (calls : List Call) :
    (sender.calls digest calls).1.Routing digest
      (done ++ (sender.calls digest calls).2) := by
  induction calls generalizing sender done with
  | nil => simpa [Sender.calls] using h
  | cons call calls ih =>
      have hrest := ih (h.call call)
      rw [List.append_assoc] at hrest
      exact hrest

theorem routing_beginPacket (digest : MacAddr → Datagram → UInt64)
    {sender : Sender}
    (h : sender.table.Numbered sender.egress.packet) :
    Sender.Routing digest
      { sender with egress := sender.egress.beginPacket } [] := by
  constructor
  · rfl
  · intro entry hmem
    exact Nat.le_succ_of_le (h entry hmem)
  · intro key value
    simp only [Egress.beginPacket,
      h.wasSent_later (Nat.lt_succ_self _) key value]
    simp
  · exact List.nodup_nil
  · intro before sending after hsplit
    simp at hsplit

end Packet

/-! ## Sends outside of routing -/

structure SendResult.Free (sent : SendResult) (sender : Sender) : Prop where
  table : sent.table = sender.table
  packet : sent.egress.packet = sender.egress.packet
  routing : sent.egress.routing = false
  attempted : ∀ sending ∈ sent.sendings, sending.fate ≠ .suppressed

section Outside

variable {digest : MacAddr → Datagram → UInt64}

theorem alreadySent_outside {egress : Egress} (h : egress.routing = false)
    (table : InterfaceTable) (key : CaptureKey) (dstMac : MacAddr)
    (datagram : Datagram) :
    egress.alreadySent digest table key dstMac datagram = false := by
  simp [Egress.alreadySent, h]

theorem transmit_outside (digest : MacAddr → Datagram → UInt64)
    {egress : Egress} (h : egress.routing = false) (table : InterfaceTable)
    (key : CaptureKey) (dstMac : MacAddr) (datagram : Datagram)
    (frames : UdpFrames)
    (inject : Nat → Except Errno Unit) :
    (egress.transmit digest table key dstMac datagram frames inject).1 =
      table := by
  simp only [Egress.transmit]
  split
  · rfl
  · simp [h]

theorem sendUdp_outside {sender : Sender}
    (h : sender.egress.routing = false) (inject : Nat → Except Errno Unit)
    (key : CaptureKey) (dstMac : MacAddr) (datagram : Datagram) :
    (sender.egress.sendUdp digest inject sender.table key dstMac
      datagram).Free sender := by
  obtain ⟨hpacket, hrouting⟩ :=
    plan_state sender.egress sender.table key dstMac datagram
  simp only [Egress.sendUdp, alreadySent_outside h, Bool.false_eq_true,
    if_false]
  split
  · rename_i hplan
    rw [hplan] at hpacket hrouting
    exact ⟨rfl, hpacket, hrouting.trans h, by simp⟩
  · rename_i hplan
    rw [hplan] at hpacket hrouting
    exact ⟨rfl, hpacket, hrouting.trans h, by simp⟩
  · rename_i hplan
    rw [hplan] at hpacket hrouting
    exact ⟨transmit_outside digest (hrouting.trans h) _ _ _ _ _ _, hpacket,
      hrouting.trans h, by simp⟩

theorem SendResult.Free.cons {sent : SendResult} {sender : Sender}
    {egress : Egress} {sending : Sending}
    (h : sent.Free ⟨egress, sender.table⟩)
    (hpacket : egress.packet = sender.egress.packet)
    (hkept : sending.fate ≠ .suppressed) :
    SendResult.Free { sent with sendings := sending :: sent.sendings }
      sender := by
  refine ⟨h.table, h.packet.trans hpacket, h.routing, ?_⟩
  intro found hmem
  rcases List.mem_cons.mp hmem with rfl | hrest
  · exact hkept
  · exact h.attempted found hrest

theorem sendToEach_outside {sender : Sender}
    (h : sender.egress.routing = false)
    (inject : Nat → Nat → Except Errno Unit) (key : CaptureKey)
    (datagram : Datagram) (position : Nat) (peers : List IpAddr)
    (delivered : Bool) (failure : Option (Stop SendError)) :
    (Egress.sendToEach digest inject key datagram position peers delivered
      failure sender.egress sender.table).Free sender := by
  induction peers generalizing sender position delivered failure with
  | nil => exact ⟨rfl, rfl, h, by simp [Egress.sendToEach]⟩
  | cons peer peers ih =>
      obtain ⟨hpacket, hrouting⟩ := plan_state sender.egress sender.table key
        .broadcast { datagram with dst := ⟨peer, datagram.dst.port⟩ }
      simp only [Egress.sendToEach, alreadySent_outside h,
        Bool.false_eq_true, if_false]
      split
      · rename_i hplan
        rw [hplan] at hpacket hrouting
        exact ⟨rfl, hpacket, hrouting.trans h, by simp⟩
      · rename_i hplan
        rw [hplan] at hpacket hrouting
        exact ⟨rfl, hpacket, hrouting.trans h, by simp⟩
      · rename_i egress frames hplan
        rw [hplan] at hpacket hrouting
        have htable := transmit_outside digest (hrouting.trans h)
          sender.table key .broadcast
          { datagram with dst := ⟨peer, datagram.dst.port⟩ } frames
          (inject position)
        have hrest : ∀ delivered failure, SendResult.Free
            (Egress.sendToEach digest inject key datagram (position + 1) peers
              delivered failure egress sender.table)
            ⟨egress, sender.table⟩ := by
          intro delivered failure
          have hnext : (⟨egress, sender.table⟩ : Sender).egress.routing =
              false := hrouting.trans h
          exact ih hnext (position + 1) delivered failure
        split
        · rename_i htransmit
          simp only [htransmit] at htable
          rw [htable]
          exact (hrest true failure).cons hpacket (by simp)
        · rename_i htransmit
          rw [htransmit] at htable
          exact ⟨htable, hpacket, hrouting.trans h, by simp⟩
        · rename_i error htransmit
          simp only [htransmit] at htable
          rw [htable]
          exact (hrest delivered (some (.error error))).cons hpacket (by simp)

theorem call_outside (digest : MacAddr → Datagram → UInt64)
    {sender : Sender} (h : sender.egress.routing = false) (call : Call) : (sender.call digest call).Free sender := by
  cases call with
  | udp inject key dstMac datagram =>
      exact sendUdp_outside h inject key dstMac datagram
  | group inject key datagram =>
      simp only [Sender.call, Egress.sendUdpGroup]
      split
      · exact ⟨rfl, rfl, h, by simp⟩
      · exact sendUdp_outside h inject key _ datagram
  | peers inject key peers datagram =>
      exact sendToEach_outside h inject key datagram 0 _ false none

end Outside

/-! ## Changes of the table -/

theorem converge_captures (platform : Platform) (calls : ConvergeCalls)
    (table : InterfaceTable) (interface : InterfaceKey) (now : Nat) :
    (table.converge platform calls interface now).1.captures =
      table.captures := by
  simp only [InterfaceTable.converge]
  split
  · rfl
  split
  · rfl
  · rfl

theorem convergeEach_captures (platform : Platform)
    (calls : InterfaceKey → ConvergeCalls) (now : Nat)
    (interfaces : List InterfaceKey) (table : InterfaceTable) :
    (InterfaceTable.convergeEach platform calls now interfaces
      table).1.captures = table.captures := by
  induction interfaces generalizing table with
  | nil => rfl
  | cons interface rest ih =>
      simp only [InterfaceTable.convergeEach]
      rw [ih, converge_captures]

theorem settleBind_captures (platform : Platform) (calls : ConvergeCalls)
    (table : InterfaceTable) (interface : InterfaceKey)
    (entry : InterfaceEntry) (ifindex : Nat) (was : Presence)
    (bound : Except Errno Unit) (now : Nat) :
    (table.settleBind platform calls interface entry ifindex was bound
      now).1.captures = table.captures := by
  cases bound with
  | error error => rfl
  | ok done =>
      simp only [InterfaceTable.settleBind]
      rw [converge_captures]
      rfl

theorem rebindFrom_sent (rebind : CaptureKey → Except Errno LinkType)
    (interface : InterfaceKey) (index : Nat) (captures : List CaptureEntry) :
    ∀ entry ∈ (InterfaceTable.rebindFrom rebind interface index captures).1,
      ∃ was ∈ captures, entry.sentPacket = was.sentPacket := by
  induction captures generalizing index with
  | nil =>
      intro entry hmem
      cases hmem
  | cons capture captures ih =>
      have hrest : ∀ entry ∈ (InterfaceTable.rebindFrom rebind interface
          (index + 1) captures).1,
          ∃ was ∈ capture :: captures, entry.sentPacket = was.sentPacket := by
        intro entry hmem
        obtain ⟨was, hwas, hsent⟩ := ih (index + 1) entry hmem
        exact ⟨was, List.mem_cons_of_mem _ hwas, hsent⟩
      intro entry hmem
      simp only [InterfaceTable.rebindFrom] at hmem
      split at hmem
      · rcases List.mem_cons.mp hmem with rfl | hlater
        · exact ⟨entry, List.mem_cons_self, rfl⟩
        · exact hrest entry hlater
      split at hmem
      · exact ⟨entry, hmem, rfl⟩
      · rcases List.mem_cons.mp hmem with rfl | hlater
        · exact ⟨capture, List.mem_cons_self, rfl⟩
        · exact hrest entry hlater

theorem InterfaceTable.Numbered.captures {table after : InterfaceTable}
    {packet : Nat} (h : table.Numbered packet)
    (hsame : after.captures = table.captures) : after.Numbered packet := by
  intro entry hmem
  rw [hsame] at hmem
  exact h entry hmem

theorem InterfaceTable.Numbered.step {table : InterfaceTable} {packet : Nat}
    (h : table.Numbered packet) (platform : Platform) (calls : StepCalls)
    (interface : InterfaceKey) (now : Nat) :
    (table.step platform calls interface now).1.Numbered packet := by
  have hbind : ∀ entry ifindex, (table.bind platform calls interface entry
      ifindex now).1.Numbered packet := by
    intro entry ifindex
    have hrebound : (table.rebindCaptures calls.rebind
        interface).1.Numbered packet := by
      intro capture hmem
      obtain ⟨was, hwas, hsent⟩ := rebindFrom_sent _ _ _ _ capture hmem
      rw [hsent]
      exact h was hwas
    simp only [InterfaceTable.bind]
    split
    · exact h.captures (settleBind_captures _ _ _ _ _ _ _ _ _)
    split
    · rename_i heq
      rw [heq] at hrebound
      exact hrebound.captures (settleBind_captures _ _ _ _ _ _ _ _ _)
    · rename_i heq
      rw [heq] at hrebound
      exact hrebound.captures (settleBind_captures _ _ _ _ _ _ _ _ _)
  simp only [InterfaceTable.step]
  split
  · exact h
  split
  · exact h
  · split <;> exact h
  · split
    · split
      · exact h
      · exact hbind _ _
    · split
      · exact h
      · exact hbind _ _
    · exact hbind _ _

theorem findOrAddInterface_captures (table : InterfaceTable)
    (name : InterfaceName) (lookup : Except Errno (Option Nat))
    (read : Except Errno Reading) :
    (table.findOrAddInterface name lookup read).1.captures =
      table.captures := by
  simp only [InterfaceTable.findOrAddInterface]
  split
  · rfl
  split
  · rfl
  · rfl
  split
  · rfl
  · rfl

theorem InterfaceTable.Numbered.openCapture {table : InterfaceTable}
    {packet : Nat} (h : table.Numbered packet) (name : InterfaceName)
    (lookup : Except Errno (Option Nat)) (read : Except Errno Reading)
    (attach : Except Errno LinkType) :
    (table.openCapture name lookup read attach).1.Numbered packet := by
  have hfound := h.captures (findOrAddInterface_captures table name lookup read)
  simp only [InterfaceTable.openCapture]
  split
  · rename_i heq
    rw [heq] at hfound
    exact hfound
  · rename_i heq
    rw [heq] at hfound
    split
    · exact hfound
    split
    · exact hfound
    · intro entry hmem
      rcases List.mem_append.mp hmem with hold | hnew
      · exact hfound entry hold
      · rw [List.mem_singleton.mp hnew]
        exact Nat.zero_le _

theorem InterfaceTable.Numbered.apply {table : InterfaceTable} {packet : Nat}
    (h : table.Numbered packet) (platform : Platform) (op : InterfaceTable.Op) :
    (table.apply platform op).Numbered packet := by
  cases op with
  | findOrAddInterface name lookup read =>
      exact h.captures (findOrAddInterface_captures table name lookup read)
  | openCapture name lookup read attach =>
      exact h.openCapture name lookup read attach
  | joinOn calls interface group wanted now =>
      apply h.captures
      simp only [InterfaceTable.apply, InterfaceTable.joinOn]
      split
      · rfl
      split
      · rfl
      split <;> rfl
  | step calls interface now => exact h.step platform calls interface now
  | refresh interface read =>
      apply h.captures
      simp only [InterfaceTable.apply, InterfaceTable.refresh]
      split <;> rfl
  | refreshAll read => exact h
  | converge calls interface now =>
      exact h.captures (converge_captures platform calls table interface now)
  | convergeAll calls now =>
      exact h.captures (convergeEach_captures platform calls now _ table)
  | wakeUnbound ifindex now => exact h
  | wakeAllUnbound now => exact h

theorem InterfaceTable.Numbered.modify {table : InterfaceTable} {packet : Nat}
    (h : table.Numbered packet) (index : Nat) (capture : Option Capture) :
    InterfaceTable.Numbered
      { table with
        captures := table.captures.modify index
          ({ · with capture := capture }) } packet := by
  intro entry hmem
  obtain ⟨position, hposition⟩ := List.mem_iff_getElem?.mp hmem
  simp only [List.getElem?_modify] at hposition
  obtain ⟨was, hwas, rfl⟩ := Option.map_eq_some_iff.mp hposition
  have hle := h was (List.mem_of_getElem? hwas)
  split <;> exact hle

/-! ## Runs -/

/-- The digest tells the datagrams of these sends apart. -/
def Collisionless (digest : MacAddr → Datagram → UInt64)
    (sendings : List Sending) : Prop :=
  ∀ first ∈ sendings, ∀ second ∈ sendings,
    digest first.dstMac first.datagram =
      digest second.dstMac second.datagram →
    first.dstMac = second.dstMac ∧ first.datagram = second.datagram

/-- For a routed packet no datagram goes out whole twice, and what is not
attempted equals one that went out whole for the same packet.  Outside of
routing everything is attempted. -/
def Deduped (digest : MacAddr → Datagram → UInt64) :
    Moment × List Sending → Prop
  | (.route _, sendings) =>
      ((sendings.filter (·.fate.complete)).map Sending.key).Nodup ∧
      (Collisionless digest sendings →
        ∀ before sending after, sendings = before ++ sending :: after →
          sending.fate = .suppressed →
            ∃ earlier ∈ before, earlier.fate.complete = true ∧
              earlier.key = sending.key)
  | (_, sendings) => ∀ sending ∈ sendings, sending.fate ≠ .suppressed

structure Sender.Between (sender : Sender) : Prop where
  routing : sender.egress.routing = false
  numbered : sender.table.Numbered sender.egress.packet

theorem Sender.Between.moment (digest : MacAddr → Datagram → UInt64)
    {sender : Sender} (h : sender.Between) (moment : Moment) :
    (sender.moment digest moment).1.Between ∧
      Deduped digest (moment, (sender.moment digest moment).2) := by
  cases moment with
  | route calls =>
      have hrouting := (routing_beginPacket digest h.numbered).calls calls
      rw [List.nil_append] at hrouting
      refine ⟨⟨rfl, hrouting.numbered⟩, hrouting.once, ?_⟩
      intro hapart before sending after hsplit hsuppressed
      obtain ⟨earlier, hmem, hcomplete, hegress, hdigest⟩ :=
        hrouting.earned before sending after hsplit hsuppressed
      have hearlier : earlier ∈ (sender.moment digest (.route calls)).2 := by
        rw [hsplit]
        exact List.mem_append_left _ hmem
      have hsending : sending ∈ (sender.moment digest (.route calls)).2 := by
        rw [hsplit]
        exact List.mem_append_right _ List.mem_cons_self
      obtain ⟨hmac, hdatagram⟩ :=
        hapart earlier hearlier sending hsending hdigest
      exact ⟨earlier, hmem, hcomplete,
        by rw [Sending.key, Sending.key, hegress, hmac, hdatagram]⟩
  | send call =>
      have hfree := call_outside digest h.routing call
      refine ⟨⟨hfree.routing, ?_⟩, hfree.attempted⟩
      simp only [Sender.moment, hfree.table, hfree.packet]
      exact h.numbered
  | change platform op =>
      exact ⟨⟨h.routing, h.numbered.apply platform op⟩, by simp [Deduped, Sender.moment]⟩
  | take capture =>
      exact ⟨⟨h.routing, h.numbered.modify _ none⟩, by simp [Deduped, Sender.moment]⟩
  | restore capture value =>
      exact ⟨⟨h.routing, h.numbered.modify _ (some value)⟩,
        by simp [Deduped, Sender.moment]⟩

theorem Sender.Between.run (digest : MacAddr → Datagram → UInt64)
    {sender : Sender} (h : sender.Between) (moments : List Moment) :
    ∀ step ∈ sender.run digest moments, Deduped digest step := by
  induction moments generalizing sender with
  | nil =>
      intro step hmem
      cases hmem
  | cons moment moments ih =>
      obtain ⟨hbetween, hdeduped⟩ := h.moment digest moment
      intro step hmem
      rcases List.mem_cons.mp hmem with rfl | hlater
      · exact hdeduped
      · exact ih hbetween step hlater

/-- Over every run of the dispatcher, with any injection failing: each distinct
datagram completes at most once for a packet, one that failed is attempted
again, and nothing is suppressed for another packet's sake or outside of
routing. -/
theorem sent_once_per_packet (digest : MacAddr → Datagram → UInt64)
    (seed : UInt32) (joinGroups : Bool) (moments : List Moment)
    (step : Moment × List Sending)
    (hstep : step ∈ Sender.run digest
      ⟨Egress.new seed, ⟨[], [], joinGroups⟩⟩ moments) :
    Deduped digest step := by
  have hbetween : Sender.Between
      ⟨Egress.new seed, ⟨[], [], joinGroups⟩⟩ := by
    refine ⟨rfl, ?_⟩
    intro entry hmem
    cases hmem
  exact hbetween.run digest moments step hstep

def wakeDatagram : Datagram :=
  ⟨⟨.v4 ⟨[255, 255, 255, 255], rfl⟩, 9⟩, .egress 9, 1, [0xff]⟩

def relayMoments : List Moment :=
  [.change .linux (.openCapture [0x61] (.ok (some 2))
      (.ok ⟨{ InterfaceAddresses.default with
        mac := some .broadcast, v4 := some ⟨[10, 0, 0, 2], rfl⟩ }, none⟩)
      (.ok .ethernet)),
    .route [.group (fun _ => .error .noBufs) ⟨0⟩ wakeDatagram,
      .group (fun _ => .ok ()) ⟨0⟩ wakeDatagram,
      .group (fun _ => .ok ()) ⟨0⟩ wakeDatagram]]

theorem sent_once_per_packet_retried :
    ∃ step ∈ Sender.run (fun _ _ => 0) ⟨Egress.new 0, ⟨[], [], true⟩⟩
        relayMoments,
      step.2.map (·.fate.complete) = [false, true, false] ∧
      Deduped (fun _ _ => 0) step := by
  have hfates : (Sender.run (fun _ _ => 0) ⟨Egress.new 0, ⟨[], [], true⟩⟩
      relayMoments).map (fun step => step.2.map (·.fate.complete)) =
        [[], [false, true, false]] := by decide +kernel
  have hmem : [false, true, false] ∈ (Sender.run (fun _ _ => 0)
      ⟨Egress.new 0, ⟨[], [], true⟩⟩ relayMoments).map
        (fun step => step.2.map (·.fate.complete)) := by
    rw [hfates]
    exact List.mem_cons_of_mem _ List.mem_cons_self
  obtain ⟨step, hstep, hcomplete⟩ := List.mem_map.mp hmem
  exact ⟨step, hstep, hcomplete,
    sent_once_per_packet (fun _ _ => 0) 0 true relayMoments step hstep⟩

end Netflector.Dispatch
