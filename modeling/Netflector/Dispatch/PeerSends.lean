import Netflector.Dispatch.Dedupe
import Netflector.Dispatch.Planning
import Netflector.Dispatch.Scanning

/-!
# Copies to peers

A call that sends to peers gives up where a copy cannot be planned.  It never
gives up halfway: what can be planned for one peer can be for every other of
the family, so that the call fails only where nothing went out.
-/

namespace Netflector.Dispatch

open Netflector.Foundation
open Netflector.Net

/-! ## The kind of a plan -/

inductive PlanKind where
  | ready
  | unavailable
  | failed
  deriving DecidableEq, Repr

def planKind : Except (Stop SendError) (Option UdpFrames) → PlanKind
  | .ok (some _) => .ready
  | .ok none => .unavailable
  | .error _ => .failed

def kindFor (table : InterfaceTable) (key : CaptureKey) (ipv6 : Bool)
    (source : DatagramSource) (length : Nat) : PlanKind :=
  match table.egressAddrs key, table.capture key with
  | some addrs, some capture =>
      if (table.ifindexOf key).isNone then .failed
      else if (datagramFault addrs capture.linkType ipv6 source length
          (frameMtu (table.mtuOf key))).isSome then .failed
      else .ready
  | _, _ => .unavailable

def InterfaceTable.kindOf (table : InterfaceTable) (key : CaptureKey)
    (datagram : Datagram) : PlanKind :=
  kindFor table key (isIpv6 datagram.dst.ip) datagram.source
    datagram.payload.length

theorem plan_kind {table : InterfaceTable} (h : table.Scanned)
    (egress : Egress) (key : CaptureKey) (dstMac : MacAddr)
    (datagram : Datagram) :
    planKind (egress.plan table key dstMac datagram).2 =
        table.kindOf key datagram ∧
      ∀ panic, (egress.plan table key dstMac datagram).2 ≠
        .error (.panic panic) := by
  unfold InterfaceTable.kindOf kindFor Egress.plan
  cases haddrs : table.egressAddrs key with
  | none => exact ⟨rfl, by simp⟩
  | some addrs =>
      cases hcapture : table.capture key with
      | none => exact ⟨rfl, by simp⟩
      | some capture =>
          cases hifindex : table.ifindexOf key with
          | none => exact ⟨rfl, by simp⟩
          | some ifindex =>
              have hmeets := buildUdp_meets (h.egressAddrs haddrs)
                capture.linkType datagram.dst dstMac datagram.source
                datagram.ttl egress.nextId datagram.payload
                (frameMtu (table.mtuOf key))
              simp only [Option.isNone_some, Bool.false_eq_true, if_false]
              cases hfault : datagramFault addrs capture.linkType
                  (isIpv6 datagram.dst.ip) datagram.source
                  datagram.payload.length (frameMtu (table.mtuOf key)) with
              | some error =>
                  rw [hmeets.1 error hfault]
                  exact ⟨rfl, by simp⟩
              | none =>
                  obtain ⟨frames, hframes⟩ := hmeets.2 hfault
                  rw [hframes]
                  exact ⟨rfl, by simp⟩

/-! ## What a plan reads of the table -/

structure InterfaceTable.SameLinks (table after : InterfaceTable) : Prop where
  addrs : ∀ key, after.egressAddrs key = table.egressAddrs key
  capture : ∀ key, after.capture key = table.capture key
  ifindex : ∀ key, after.ifindexOf key = table.ifindexOf key
  mtu : ∀ key, after.mtuOf key = table.mtuOf key
  scanned : table.Scanned → after.Scanned

namespace InterfaceTable.SameLinks

theorem refl (table : InterfaceTable) : table.SameLinks table :=
  ⟨fun _ => rfl, fun _ => rfl, fun _ => rfl, fun _ => rfl, id⟩

theorem trans {first second third : InterfaceTable}
    (h : first.SameLinks second) (h' : second.SameLinks third) :
    first.SameLinks third :=
  ⟨fun key => (h'.addrs key).trans (h.addrs key),
    fun key => (h'.capture key).trans (h.capture key),
    fun key => (h'.ifindex key).trans (h.ifindex key),
    fun key => (h'.mtu key).trans (h.mtu key),
    fun hscanned => h'.scanned (h.scanned hscanned)⟩

theorem kindOf {table after : InterfaceTable} (h : table.SameLinks after)
    (key : CaptureKey) (datagram : Datagram) :
    after.kindOf key datagram = table.kindOf key datagram := by
  unfold InterfaceTable.kindOf kindFor
  rw [h.addrs, h.capture, h.ifindex, h.mtu]

theorem recordSent (table : InterfaceTable) (key : CaptureKey) (packet : Nat)
    (digest : UInt64) :
    table.SameLinks (table.recordSent key packet digest) := by
  have hentry : ∀ other, ((table.recordSent key packet digest).captureEntry
      other).map (fun entry => (entry.capture, entry.interface)) =
      (table.captureEntry other).map
        fun entry => (entry.capture, entry.interface) := by
    intro other
    rw [recordSent_captures]
    split
    · rename_i hsame
      subst hsame
      rw [Option.map_map]
      refine Option.map_congr ?_
      intro entry _
      simp only [Function.comp, CaptureEntry.recordSent]
      split <;> rfl
    · rfl
  have hinterface : ∀ other,
      (table.recordSent key packet digest).interfaceOf other =
        table.interfaceOf other := by
    intro other
    have hboth := congrArg (Option.map Prod.snd) (hentry other)
    simpa [InterfaceTable.interfaceOf, Function.comp_def] using hboth
  have hcapture : ∀ other,
      (table.recordSent key packet digest).capture other =
        table.capture other := by
    intro other
    have hboth := congrArg (fun found => found.bind Prod.fst) (hentry other)
    simpa [InterfaceTable.capture, Option.bind_map, Function.comp_def]
      using hboth
  refine ⟨?_, hcapture, ?_, ?_, id⟩
  · intro other
    unfold egressAddrs
    rw [hinterface]
    rfl
  · intro other
    unfold ifindexOf
    rw [hinterface]
    rfl
  · intro other
    unfold mtuOf
    rw [hinterface]
    rfl

end InterfaceTable.SameLinks

/-! ## Transmitting what was planned -/

section Transmits

variable {digest : MacAddr → Datagram → UInt64} {egress egress' : Egress}
  {table : InterfaceTable} {key : CaptureKey} {dstMac : MacAddr}
  {datagram : Datagram} {frames : UdpFrames}

theorem plan_laid
    (h : egress.plan table key dstMac datagram = (egress', .ok (some frames))) :
    ∃ header ip srcPort, frames.Laid header ip srcPort datagram.dst.port
      datagram.payload (frameMtu (table.mtuOf key)) := by
  unfold Egress.plan at h
  split at h
  · split at h
    · cases h
    · obtain ⟨_, hbuilt⟩ := Prod.mk.inj h
      split at hbuilt
      · rename_i built hbuild
        cases hbuilt
        exact buildUdp_laid hbuild
      · cases hbuilt
      · cases hbuilt
  · cases h

theorem transmitFrom_panicless (table : InterfaceTable) (key : CaptureKey)
    (inject : Nat → Except Errno Unit)
    (hwrite : ∀ index, index < frames.count →
      ∃ frame, frames.write index maxFrameLen = .ok frame)
    (left index : Nat) (hleft : index + left = frames.count) (panic : Panic) :
    (Egress.transmitFrom table key frames inject left index).2 ≠
      .error (.panic panic) := by
  induction left generalizing index with
  | zero => simp [Egress.transmitFrom]
  | succ left ih =>
      obtain ⟨frame, hframe⟩ := hwrite index (by omega)
      have hsend : ∀ stop handed, Egress.send table key frame (inject index) =
          (handed, .error stop) → stop ≠ .panic panic := by
        intro stop handed hsent
        unfold Egress.send at hsent
        split at hsent
        · cases hsent
        · split at hsent
          · cases hsent
          · cases hsent
            simp
      rw [Egress.transmitFrom, hframe]
      simp only
      split
      · rename_i handed stop hsent
        simpa using hsend stop handed hsent
      · exact ih (index + 1) (by omega)

theorem transmit_panicless (digest : MacAddr → Datagram → UInt64)
    (inject : Nat → Except Errno Unit)
    (h : egress.plan table key dstMac datagram = (egress', .ok (some frames)))
    (panic : Panic) :
    (egress'.transmit digest table key dstMac datagram frames inject).2.2 ≠
      .error (.panic panic) := by
  obtain ⟨header, ip, srcPort, hlaid⟩ := plan_laid h
  have hfrom := transmitFrom_panicless table key inject
    (fun index hindex => write_fits hlaid (frameMtu_le _) hindex)
    frames.count 0 (Nat.zero_add _) panic
  unfold Egress.transmit
  split
  · rename_i handed stop htransmit
    rw [htransmit] at hfrom
    exact hfrom
  · simp

theorem transmit_same {inject : Nat → Except Errno Unit}
    {table' : InterfaceTable} {handed : List Bytes}
    {result : Except (Stop SendError) Unit}
    (h : egress.transmit digest table key dstMac datagram frames inject =
      (table', handed, result)) : table.SameLinks table' := by
  cases result with
  | error stop =>
      rw [transmit_error h]
      exact .refl table
  | ok done =>
      rw [transmit_ok h]
      split
      · exact .recordSent table key _ _
      · exact .refl table

end Transmits

/-! ## What goes out can be planned -/

structure SendResult.Linked (sent : SendResult) (table : InterfaceTable) :
    Prop where
  same : table.SameLinks sent.table
  ready : ∀ sending ∈ sent.sendings, sending.fate.complete = true →
    table.kindOf sending.egress sending.datagram = .ready

section Links

variable {digest : MacAddr → Datagram → UInt64}

theorem plan_ready {table : InterfaceTable} (h : table.Scanned)
    {egress egress' : Egress} {key : CaptureKey} {dstMac : MacAddr}
    {datagram : Datagram} {frames : UdpFrames}
    (hplan : egress.plan table key dstMac datagram =
      (egress', .ok (some frames))) :
    table.kindOf key datagram = .ready := by
  rw [← (plan_kind h egress key dstMac datagram).1, hplan]
  rfl

theorem sendUdp_linked {table : InterfaceTable} (h : table.Scanned)
    (inject : Nat → Except Errno Unit) (egress : Egress) (key : CaptureKey)
    (dstMac : MacAddr) (datagram : Datagram) :
    (egress.sendUdp digest inject table key dstMac datagram).Linked table := by
  unfold Egress.sendUdp
  split
  · exact ⟨.refl table, by simp [Fate.complete]⟩
  split
  · exact ⟨.refl table, by simp [Fate.complete]⟩
  · exact ⟨.refl table, by simp [Fate.complete]⟩
  · rename_i egress' frames hplan
    refine ⟨transmit_same rfl, ?_⟩
    intro sending hmem _
    rw [List.mem_singleton.mp hmem]
    exact plan_ready h hplan

theorem SendResult.Linked.cons {rest : SendResult}
    {table table' : InterfaceTable} (h : rest.Linked table')
    (hsame : table.SameLinks table') {sending : Sending}
    (hready : sending.fate.complete = true →
      table.kindOf sending.egress sending.datagram = .ready) :
    SendResult.Linked { rest with sendings := sending :: rest.sendings }
      table := by
  refine ⟨hsame.trans h.same, ?_⟩
  intro found hmem hcomplete
  rcases List.mem_cons.mp hmem with rfl | hlater
  · exact hready hcomplete
  · rw [← hsame.kindOf]
    exact h.ready found hlater hcomplete

theorem sendToEach_linked {table : InterfaceTable} (h : table.Scanned)
    (inject : Nat → Nat → Except Errno Unit) (key : CaptureKey)
    (datagram : Datagram) (position : Nat) (peers : List IpAddr)
    (delivered : Bool) (failure : Option (Stop SendError))
    (egress : Egress) :
    (Egress.sendToEach digest inject key datagram position peers delivered
      failure egress table).Linked table := by
  induction peers generalizing table position delivered failure egress with
  | nil => exact ⟨.refl table, by simp [Egress.sendToEach]⟩
  | cons peer peers ih =>
      simp only [Egress.sendToEach]
      split
      · exact (ih h (position + 1) true failure egress).cons (.refl table)
          (by simp [Fate.complete])
      split
      · exact ⟨.refl table, by simp [Fate.complete]⟩
      · exact ⟨.refl table, by simp [Fate.complete]⟩
      · rename_i egress' frames hplan
        split
        · rename_i table' handed htransmit
          have hsame := transmit_same htransmit
          exact (ih (hsame.scanned h) (position + 1) true failure
            egress').cons hsame fun _ => plan_ready h hplan
        · rename_i table' handed panic htransmit
          exact ⟨transmit_same htransmit, by simp [Fate.complete]⟩
        · rename_i table' handed error htransmit
          have hsame := transmit_same htransmit
          exact (ih (hsame.scanned h) (position + 1) delivered _
            egress').cons hsame (by simp [Fate.complete])

theorem call_linked (digest : MacAddr → Datagram → UInt64) {sender : Sender}
    (h : sender.table.Scanned) (call : Call) :
    (sender.call digest call).Linked sender.table := by
  cases call with
  | udp inject key dstMac datagram =>
      exact sendUdp_linked h inject sender.egress key dstMac datagram
  | group inject key datagram =>
      simp only [Sender.call, Egress.sendUdpGroup]
      split
      · exact ⟨.refl _, by simp⟩
      · exact sendUdp_linked h inject sender.egress key _ datagram
  | peers inject key peers datagram =>
      exact sendToEach_linked h inject key datagram 0 _ false none
        sender.egress

structure Sender.Planning (digest : MacAddr → Datagram → UInt64)
    (sender : Sender) (done : List Sending) : Prop where
  routing : sender.Routing digest done
  scanned : sender.table.Scanned
  ready : ∀ sending ∈ done, sending.fate.complete = true →
    sender.table.kindOf sending.egress sending.datagram = .ready

theorem Sender.Planning.call {sender : Sender} {done : List Sending}
    (h : sender.Planning digest done) (call : Call) :
    Sender.Planning digest
      ⟨(sender.call digest call).egress, (sender.call digest call).table⟩
      (done ++ (sender.call digest call).sendings) := by
  have hlinked := call_linked digest h.scanned call
  refine ⟨h.routing.call call, hlinked.same.scanned h.scanned, ?_⟩
  intro sending hmem hcomplete
  rw [hlinked.same.kindOf]
  rcases List.mem_append.mp hmem with hold | hnew
  · exact h.ready sending hold hcomplete
  · exact hlinked.ready sending hnew hcomplete

theorem Sender.Planning.calls {sender : Sender} {done : List Sending}
    (h : sender.Planning digest done) (calls : List Call) :
    (sender.calls digest calls).1.Planning digest
      (done ++ (sender.calls digest calls).2) := by
  induction calls generalizing sender done with
  | nil => simpa [Sender.calls] using h
  | cons call calls ih =>
      have hrest := ih (h.call call)
      rw [List.append_assoc] at hrest
      exact hrest

end Links

/-! ## One call -/

def copyFor (datagram : Datagram) (peer : IpAddr) : Datagram :=
  { datagram with dst := ⟨peer, datagram.dst.port⟩ }

def Fate.settled (fate : Fate) : Bool :=
  fate.complete || fate = .suppressed

structure SendResult.TookTurns (sent : SendResult) (key : CaptureKey)
    (datagram : Datagram) (peers : List IpAddr) : Prop where
  copies : sent.sendings.map (·.datagram) = peers.map (copyFor datagram)
  attempts : ∀ sending ∈ sent.sendings, sending.egress = key ∧
    sending.dstMac = .broadcast ∧ sending.fate ≠ .unplanned

theorem SendResult.TookTurns.cons {rest : SendResult} {key : CaptureKey}
    {datagram : Datagram} {peers : List IpAddr}
    (h : rest.TookTurns key datagram peers) (peer : IpAddr) {fate : Fate}
    (hfate : fate ≠ .unplanned) :
    SendResult.TookTurns
      { rest with sendings :=
        ⟨key, .broadcast, copyFor datagram peer, fate⟩ :: rest.sendings }
      key datagram (peer :: peers) := by
  refine ⟨?_, ?_⟩
  · rw [List.map_cons, List.map_cons, h.copies]
  · intro sending hmem
    rcases List.mem_cons.mp hmem with rfl | hlater
    · exact ⟨rfl, rfl, hfate⟩
    · exact h.attempts sending hlater

/-- What a call returns that planned every copy, when `delivered` and `failed`
say what became of the copies before. -/
structure SendResult.Answers (sent : SendResult) (delivered failed : Bool) :
    Prop where
  succeeds : delivered = true ∨ sent.sendings.any (·.fate.settled) = true →
    sent.result = .ok ()
  fails : delivered = false → sent.sendings.any (·.fate.settled) = false →
    failed = true ∨ sent.sendings ≠ [] →
      ∃ error, sent.result = .error (.error error)
  idle : failed = false → sent.sendings = [] → sent.result = .ok ()

theorem SendResult.Answers.settle {rest : SendResult} {delivered failed : Bool}
    (h : rest.Answers true failed) {sending : Sending}
    (hsettled : sending.fate.settled = true) :
    SendResult.Answers { rest with sendings := sending :: rest.sendings }
      delivered failed := by
  refine ⟨fun _ => h.succeeds (.inl rfl), ?_, ?_⟩
  · intro _ hnone
    rw [List.any_cons, hsettled] at hnone
    cases hnone
  · intro _ hnil
    cases hnil

theorem SendResult.Answers.miss {rest : SendResult} {delivered failed : Bool}
    (h : rest.Answers delivered true) {sending : Sending}
    (hmissed : sending.fate.settled = false) :
    SendResult.Answers { rest with sendings := sending :: rest.sendings }
      delivered failed := by
  refine ⟨?_, ?_, ?_⟩
  · intro hsome
    rw [List.any_cons, hmissed, Bool.false_or] at hsome
    exact h.succeeds hsome
  · intro hdelivered hnone _
    rw [List.any_cons, hmissed, Bool.false_or] at hnone
    exact h.fails hdelivered hnone (.inl rfl)
  · intro _ hnil
    cases hnil

section Calls

variable {digest : MacAddr → Datagram → UInt64}

theorem sendToEach_ready (digest : MacAddr → Datagram → UInt64)
    {table : InterfaceTable} (h : table.Scanned)
    (inject : Nat → Nat → Except Errno Unit) (key : CaptureKey)
    (datagram : Datagram) (position : Nat) (peers : List IpAddr)
    (hready : ∀ peer ∈ peers,
      table.kindOf key (copyFor datagram peer) = .ready)
    (delivered : Bool) (failure : Option SendError) (egress : Egress) :
    (Egress.sendToEach digest inject key datagram position peers delivered
      (failure.map Stop.error) egress table).TookTurns key datagram peers ∧
    (Egress.sendToEach digest inject key datagram position peers delivered
      (failure.map Stop.error) egress table).Answers delivered
        failure.isSome := by
  induction peers generalizing table position delivered failure egress with
  | nil =>
      refine ⟨⟨rfl, by simp [Egress.sendToEach]⟩, ?_, ?_, ?_⟩
      · rintro (rfl | hsome)
        · cases failure <;> rfl
        · cases hsome
      · rintro rfl _ (hfailed | hnil)
        · cases failure with
          | none => cases hfailed
          | some error => exact ⟨error, rfl⟩
        · exact absurd rfl hnil
      · intro hnone _
        cases failure with
        | none => rfl
        | some error => cases hnone
  | cons peer peers ih =>
      have hplanned : planKind (egress.plan table key .broadcast
          { datagram with dst := ⟨peer, datagram.dst.port⟩ }).2 = .ready :=
        (plan_kind h egress key .broadcast (copyFor datagram peer)).1.trans
          (hready peer List.mem_cons_self)
      have hlater : ∀ {after : InterfaceTable}, table.SameLinks after →
          ∀ peer ∈ peers, after.kindOf key (copyFor datagram peer) =
            .ready := by
        intro after hsame peer hmem
        rw [hsame.kindOf]
        exact hready peer (List.mem_cons_of_mem _ hmem)
      simp only [Egress.sendToEach]
      split
      · obtain ⟨hturns, hanswers⟩ := ih h (position + 1)
          (hlater (.refl table)) true failure egress
        exact ⟨hturns.cons peer (by simp), hanswers.settle rfl⟩
      split
      · rename_i egress' stop hplan
        rw [hplan] at hplanned
        cases hplanned
      · rename_i egress' hplan
        rw [hplan] at hplanned
        cases hplanned
      · rename_i egress' frames hplan
        split
        · rename_i table' handed htransmit
          have hsame := transmit_same htransmit
          obtain ⟨hturns, hanswers⟩ := ih (hsame.scanned h) (position + 1)
            (hlater hsame) true failure egress'
          exact ⟨hturns.cons peer (by simp), hanswers.settle rfl⟩
        · rename_i table' handed panic htransmit
          have hnot := transmit_panicless digest (inject position) hplan
            panic
          rw [htransmit] at hnot
          exact absurd rfl hnot
        · rename_i table' handed error htransmit
          have hsame := transmit_same htransmit
          obtain ⟨hturns, hanswers⟩ := ih (hsame.scanned h) (position + 1)
            (hlater hsame) delivered (some error) egress'
          exact ⟨hturns.cons peer (by simp), hanswers.miss rfl⟩

theorem sendToEach_suppresses (inject : Nat → Nat → Except Errno Unit)
    (key : CaptureKey) (datagram : Datagram) (position : Nat)
    (peers : List IpAddr) (delivered : Bool)
    (failure : Option (Stop SendError)) {egress : Egress}
    {table : InterfaceTable} {value : UInt64} (hrouting : egress.routing = true)
    (hsent : table.wasSent key egress.packet value = true)
    {sending : Sending}
    (hmem : sending ∈ (Egress.sendToEach digest inject key datagram position
      peers delivered failure egress table).sendings)
    (hdigest : digest sending.dstMac sending.datagram = value) :
    sending.fate = .suppressed := by
  induction peers generalizing table position delivered failure egress with
  | nil => cases hmem
  | cons peer peers ih =>
      obtain ⟨hpacket, hstill⟩ := plan_state egress table key .broadcast
        { datagram with dst := ⟨peer, datagram.dst.port⟩ }
      simp only [Egress.sendToEach] at hmem
      split at hmem
      · rcases List.mem_cons.mp hmem with rfl | hlater
        · rfl
        · exact ih (position + 1) true failure hrouting hsent hlater
      rename_i hfresh
      have hother : ∀ {fate : Fate}, sending = ⟨key, .broadcast,
          { datagram with dst := ⟨peer, datagram.dst.port⟩ }, fate⟩ →
          sending.fate = .suppressed := by
        rintro fate rfl
        refine absurd ?_ hfresh
        unfold Egress.alreadySent
        rw [hrouting, hdigest, hsent]
        rfl
      split at hmem
      · exact hother (List.mem_singleton.mp hmem)
      · exact hother (List.mem_singleton.mp hmem)
      · rename_i egress' frames hplan
        rw [hplan] at hpacket hstill
        split at hmem
        · rename_i table' handed htransmit
          rcases List.mem_cons.mp hmem with heq | hlater
          · exact hother heq
          · refine ih (position + 1) true failure (hstill.trans hrouting) ?_
              hlater
            rw [transmit_ok htransmit, if_pos (hstill.trans hrouting),
              wasSent_recordSent _ _ _ _ _ _ (plan_capture hplan)]
            rw [hpacket]
            exact .inl hsent
        · exact hother (List.mem_singleton.mp hmem)
        · rename_i table' handed error htransmit
          rcases List.mem_cons.mp hmem with heq | hlater
          · exact hother heq
          · refine ih (position + 1) delivered _ (hstill.trans hrouting) ?_
              hlater
            rw [transmit_error htransmit, hpacket]
            exact hsent

/-- A copy that cannot be planned had no equal, so that it is the only one. -/
theorem sendToEach_unready {sender : Sender} {done : List Sending}
    (h : sender.Planning digest done)
    (inject : Nat → Nat → Except Errno Unit) (key : CaptureKey)
    (datagram : Datagram) (peer : IpAddr) (peers : List IpAddr)
    (hdigest : Collisionless digest (done ++
      (Egress.sendToEach digest inject key datagram 0 (peer :: peers) false
        none sender.egress sender.table).sendings))
    (hunready : sender.table.kindOf key (copyFor datagram peer) ≠ .ready) :
    (Egress.sendToEach digest inject key datagram 0 (peer :: peers) false none
      sender.egress sender.table).sendings =
        [⟨key, .broadcast, copyFor datagram peer, .unplanned⟩] ∧
    ((sender.table.kindOf key (copyFor datagram peer) = .failed ∧ ∃ error,
      (Egress.sendToEach digest inject key datagram 0 (peer :: peers) false
        none sender.egress sender.table).result = .error (.error error)) ∨
    (sender.table.kindOf key (copyFor datagram peer) = .unavailable ∧
      (Egress.sendToEach digest inject key datagram 0 (peer :: peers) false
        none sender.egress sender.table).result = .ok ())) := by
  obtain ⟨hkind, hpanicless⟩ := plan_kind h.scanned sender.egress key
    .broadcast (copyFor datagram peer)
  rw [← hkind] at hunready ⊢
  unfold copyFor at *
  simp only [Egress.sendToEach] at hdigest ⊢
  split
  · rename_i hsent
    refine absurd ?_ hunready
    rw [if_pos hsent] at hdigest
    have hknown : sender.table.wasSent key sender.egress.packet
        (digest .broadcast { datagram with
          dst := ⟨peer, datagram.dst.port⟩ }) = true := by
      simpa [Egress.alreadySent, h.routing.routing] using hsent
    obtain ⟨earlier, hmem, hcomplete, rfl, hsame⟩ :=
      (h.routing.known _ _).mp hknown
    have hequal := (hdigest earlier (List.mem_append_left _ hmem)
      ⟨earlier.egress, .broadcast, _, .suppressed⟩
      (List.mem_append_right _ List.mem_cons_self) hsame).2
    rw [hkind]
    have hready := h.ready earlier hmem hcomplete
    rw [hequal] at hready
    exact hready
  · split
    · rename_i egress' stop hplan
      rw [hplan] at hpanicless ⊢
      refine ⟨rfl, .inl ⟨rfl, ?_⟩⟩
      cases stop with
      | panic panic => exact absurd rfl (hpanicless panic)
      | error error => exact ⟨error, rfl⟩
    · rename_i egress' hplan
      rw [hplan]
      exact ⟨rfl, .inr ⟨rfl, rfl⟩⟩
    · rename_i egress' frames hplan
      rw [hplan] at hunready
      exact absurd rfl hunready

/-- What a call that sends to peers has done, when `done` was sent for the
packet before it. -/
structure SendResult.PeersSent (sent : SendResult) (sender : Sender)
    (done : List Sending) (key : CaptureKey) (peers : List IpAddr)
    (datagram : Datagram) (kind : PlanKind) : Prop where
  same : sender.table.SameLinks sent.table
  alike : ∀ (egress : Egress) (table : InterfaceTable),
    sender.table.SameLinks table → ∀ peer ∈ peers,
    isIpv6 peer = isIpv6 datagram.dst.ip →
      planKind (egress.plan table key .broadcast
        (copyFor datagram peer)).2 = kind
  family : ∀ sending ∈ sent.sendings,
    isIpv6 sending.datagram.dst.ip = isIpv6 datagram.dst.ip
  turns : kind = .ready → sent.TookTurns key datagram
    (peers.filter fun peer => isIpv6 peer = isIpv6 datagram.dst.ip)
  skipped : ∀ before sending after, sent.sendings = before ++ sending :: after →
    sending.fate = .suppressed →
      ∃ earlier ∈ done ++ before, earlier.fate.complete = true ∧
        earlier.key = sending.key
  fails : (∃ error, sent.result = .error (.error error)) ↔
    (∃ peer ∈ peers, isIpv6 peer = isIpv6 datagram.dst.ip) ∧
      kind ≠ .unavailable ∧
      (∀ sending ∈ sent.sendings, sending.fate.complete = false) ∧
      ∀ peer ∈ peers, isIpv6 peer = isIpv6 datagram.dst.ip →
        ¬ ∃ earlier ∈ done, earlier.fate.complete = true ∧
          earlier.key = (key, .broadcast, copyFor datagram peer)
  panicless : ∀ panic, sent.result ≠ .error (.panic panic)

theorem kindOf_copyFor (table : InterfaceTable) (key : CaptureKey)
    (datagram : Datagram) {peer : IpAddr}
    (h : isIpv6 peer = isIpv6 datagram.dst.ip) :
    table.kindOf key (copyFor datagram peer) = table.kindOf key datagram := by
  simp only [InterfaceTable.kindOf, copyFor, h]

theorem Sender.Planning.earned {sender : Sender} {done : List Sending}
    (h : sender.Planning digest done) (call : Call)
    (hdigest : Collisionless digest
      (done ++ (sender.call digest call).sendings)) :
    ∀ before sending after,
      (sender.call digest call).sendings = before ++ sending :: after →
      sending.fate = .suppressed →
        ∃ earlier ∈ done ++ before, earlier.fate.complete = true ∧
          earlier.key = sending.key := by
  intro before sending after hsplit hsuppressed
  have hwhole : done ++ (sender.call digest call).sendings =
      (done ++ before) ++ sending :: after := by
    rw [hsplit, List.append_assoc]
  obtain ⟨earlier, hmem, hcomplete, hegress, hequal⟩ :=
    (h.call call).routing.earned _ sending after hwhole hsuppressed
  rw [hwhole] at hdigest
  obtain ⟨hmac, hdatagram⟩ := hdigest earlier (List.mem_append_left _ hmem)
    sending (List.mem_append_right _ List.mem_cons_self) hequal
  exact ⟨earlier, hmem, hcomplete, by
    rw [Sending.key, Sending.key, hegress, hmac, hdatagram]⟩

theorem Sender.Planning.fails_ready {sender : Sender} {done : List Sending}
    (h : sender.Planning digest done)
    (inject : Nat → Nat → Except Errno Unit) (key : CaptureKey)
    (datagram : Datagram) (same : List IpAddr) {sent : SendResult}
    (hsent : sent = Egress.sendToEach digest inject key datagram 0 same false
      none sender.egress sender.table)
    (hskipped : ∀ before sending after,
      sent.sendings = before ++ sending :: after →
      sending.fate = .suppressed →
        ∃ earlier ∈ done ++ before, earlier.fate.complete = true ∧
          earlier.key = sending.key)
    (hturns : sent.TookTurns key datagram same)
    (hanswers : sent.Answers false false) :
    (∃ error, sent.result = .error (.error error)) ↔
      same ≠ [] ∧ (∀ sending ∈ sent.sendings, sending.fate.complete = false) ∧
        ∀ peer ∈ same, ¬ ∃ earlier ∈ done, earlier.fate.complete = true ∧
          earlier.key = (key, .broadcast, copyFor datagram peer) := by
  have hempty : sent.sendings = [] ↔ same = [] := by
    have hlength := congrArg List.length hturns.copies
    rw [List.length_map, List.length_map] at hlength
    rw [← List.length_eq_zero_iff, ← List.length_eq_zero_iff, hlength]
  constructor
  · rintro ⟨error, herror⟩
    have hnone : sent.sendings.any (·.fate.settled) = false := by
      by_contra hsome
      rw [Bool.not_eq_false] at hsome
      rw [hanswers.succeeds (.inr hsome)] at herror
      cases herror
    rw [List.any_eq_false] at hnone
    have hmissed : ∀ sending ∈ sent.sendings, sending.fate.complete = false ∧
        sending.fate ≠ .suppressed := by
      intro sending hmem
      have hnot := hnone sending hmem
      unfold Fate.settled at hnot
      rw [Bool.or_eq_true, not_or, decide_eq_true_eq, Bool.not_eq_true]
        at hnot
      exact hnot
    refine ⟨?_, fun sending hmem => (hmissed sending hmem).1, ?_⟩
    · intro hnil
      rw [hanswers.idle rfl (hempty.mpr hnil)] at herror
      cases herror
    · rintro peer hpeer ⟨earlier, hearlier, hcomplete, hkey⟩
      -- The copy for this peer would have been suppressed.
      have hcopy : copyFor datagram peer ∈ sent.sendings.map (·.datagram) := by
        rw [hturns.copies]
        exact List.mem_map_of_mem hpeer
      obtain ⟨sending, hmem, hdatagram⟩ := List.mem_map.mp hcopy
      simp only [Sending.key, Prod.mk.injEq] at hkey
      have hknown : sender.table.wasSent key sender.egress.packet
          (digest .broadcast (copyFor datagram peer)) = true := by
        rw [h.routing.known]
        exact ⟨earlier, hearlier, hcomplete, hkey.1, by
          rw [hkey.2.1, hkey.2.2]⟩
      refine (hmissed sending hmem).2 ?_
      rw [hsent] at hmem
      refine sendToEach_suppresses inject key datagram 0 same false none
        h.routing.routing hknown hmem ?_
      rw [← hsent] at hmem
      rw [(hturns.attempts sending hmem).2.1, hdatagram]
  · rintro ⟨hpeers, hmissed, hunsent⟩
    refine hanswers.fails rfl ?_ (.inr fun hnil => hpeers (hempty.mp hnil))
    rw [List.any_eq_false]
    intro sending hmem hsettled
    unfold Fate.settled at hsettled
    rw [hmissed sending hmem, Bool.false_or, decide_eq_true_eq] at hsettled
    obtain ⟨before, after, hsplit⟩ := List.append_of_mem hmem
    obtain ⟨earlier, hearlier, hcomplete, hkey⟩ :=
      hskipped before sending after hsplit hsettled
    rcases List.mem_append.mp hearlier with hdone | hbefore
    · have hcopy : sending.datagram ∈ same.map (copyFor datagram) := by
        rw [← hturns.copies]
        exact List.mem_map_of_mem hmem
      obtain ⟨peer, hpeer, hdatagram⟩ := List.mem_map.mp hcopy
      refine hunsent peer hpeer ⟨earlier, hdone, hcomplete, ?_⟩
      rw [hkey, Sending.key, (hturns.attempts sending hmem).1,
        (hturns.attempts sending hmem).2.1, hdatagram]
    · have hnot := hmissed earlier (by
        rw [hsplit]
        exact List.mem_append_left _ hbefore)
      rw [hnot] at hcomplete
      cases hcomplete

theorem Sender.Planning.peersSent {sender : Sender} {done : List Sending}
    (h : sender.Planning digest done)
    (inject : Nat → Nat → Except Errno Unit) (key : CaptureKey)
    (peers : List IpAddr) (datagram : Datagram)
    (hdigest : Collisionless digest (done ++
      (sender.call digest (.peers inject key peers datagram)).sendings)) :
    (sender.call digest (.peers inject key peers datagram)).PeersSent sender
      done key peers datagram (sender.table.kindOf key datagram) := by
  have hsame := (call_linked digest h.scanned
    (.peers inject key peers datagram)).same
  have hskipped := h.earned (.peers inject key peers datagram) hdigest
  have halike : ∀ (egress : Egress) (table : InterfaceTable),
      sender.table.SameLinks table → ∀ peer ∈ peers,
      isIpv6 peer = isIpv6 datagram.dst.ip →
        planKind (egress.plan table key .broadcast
          (copyFor datagram peer)).2 = sender.table.kindOf key datagram := by
    intro egress table hlinks peer _ hfamily
    rw [(plan_kind (hlinks.scanned h.scanned) egress key .broadcast
      (copyFor datagram peer)).1, hlinks.kindOf, kindOf_copyFor _ _ _ hfamily]
  have hmember : ∀ peer, peer ∈ (peers.filter fun peer =>
      isIpv6 peer = isIpv6 datagram.dst.ip) ↔
        peer ∈ peers ∧ isIpv6 peer = isIpv6 datagram.dst.ip := by
    intro peer
    rw [List.mem_filter, decide_eq_true_eq]
  generalize hcall : sender.call digest (.peers inject key peers datagram) =
    sent at *
  have hsent : sent = Egress.sendToEach digest inject key datagram 0
      (peers.filter fun peer => isIpv6 peer = isIpv6 datagram.dst.ip) false
      none sender.egress sender.table := hcall.symm
  generalize hfilter : (peers.filter fun peer =>
    isIpv6 peer = isIpv6 datagram.dst.ip) = same at hmember hsent
  have hkinds : ∀ peer ∈ same, sender.table.kindOf key
      (copyFor datagram peer) = sender.table.kindOf key datagram :=
    fun peer hpeer => kindOf_copyFor _ _ _ ((hmember peer).mp hpeer).2
  have hexists : (∃ peer ∈ peers, isIpv6 peer = isIpv6 datagram.dst.ip) ↔
      same ≠ [] := by
    constructor
    · rintro ⟨peer, hpeer⟩
      exact List.ne_nil_of_mem ((hmember peer).mpr hpeer)
    · intro hsome
      obtain ⟨peer, hpeer⟩ := List.exists_mem_of_ne_nil same hsome
      exact ⟨peer, (hmember peer).mp hpeer⟩
  have hforall : ∀ {P : IpAddr → Prop}, (∀ peer ∈ peers,
      isIpv6 peer = isIpv6 datagram.dst.ip → P peer) ↔
        ∀ peer ∈ same, P peer := by
    intro P
    simp only [hmember, and_imp]
  by_cases hready : sender.table.kindOf key datagram = .ready
  · obtain ⟨hturns, hanswers⟩ := sendToEach_ready digest h.scanned inject key
      datagram 0 same (fun peer hpeer => (hkinds peer hpeer).trans hready)
      false none sender.egress
    rw [Option.map_none, ← hsent] at hturns hanswers
    rw [Option.isSome_none] at hanswers
    refine ⟨hsame, halike, ?_, fun _ => hfilter ▸ hturns, hskipped, ?_, ?_⟩
    · intro sending hmem
      have hcopy : sending.datagram ∈ same.map (copyFor datagram) := by
        rw [← hturns.copies]
        exact List.mem_map_of_mem hmem
      obtain ⟨peer, hpeer, hdatagram⟩ := List.mem_map.mp hcopy
      rw [← hdatagram]
      exact ((hmember peer).mp hpeer).2
    · rw [h.fails_ready inject key datagram same hsent hskipped hturns
        hanswers, hexists, hforall, hready]
      simp
    · intro panic hpanic
      by_cases hsettled : sent.sendings.any (·.fate.settled) = true
      · rw [hanswers.succeeds (.inr hsettled)] at hpanic
        cases hpanic
      · by_cases hnil : sent.sendings = []
        · rw [hanswers.idle rfl hnil] at hpanic
          cases hpanic
        · obtain ⟨error, herror⟩ := hanswers.fails rfl
            (Bool.not_eq_true _ ▸ hsettled) (.inr hnil)
          rw [herror] at hpanic
          cases hpanic
  · cases hcase : same with
    | nil =>
        rw [hcase] at hsent
        have hempty : sent.sendings = [] := by rw [hsent]; rfl
        have hok : sent.result = .ok () := by rw [hsent]; rfl
        refine ⟨hsame, halike, ?_, fun hkind => absurd hkind hready,
          hskipped, ?_, ?_⟩
        · rw [hempty]
          simp
        · rw [hok, hexists, hcase]
          simp
        · rw [hok]
          simp
    | cons peer rest =>
        have hpeer : peer ∈ same := by
          rw [hcase]
          exact List.mem_cons_self
        rw [hcase] at hsent
        rw [hsent] at hdigest
        obtain ⟨hsendings, hresult⟩ := sendToEach_unready h inject key
          datagram peer rest hdigest (by rwa [hkinds peer hpeer])
        rw [← hsent, hkinds peer hpeer] at hresult
        rw [← hsent] at hsendings
        have hunsent : ∀ peer ∈ same, ¬ ∃ earlier ∈ done,
            earlier.fate.complete = true ∧
              earlier.key = (key, .broadcast, copyFor datagram peer) := by
          rintro other hother ⟨earlier, hmem, hcomplete, hkey⟩
          simp only [Sending.key, Prod.mk.injEq] at hkey
          have hwas := h.ready earlier hmem hcomplete
          rw [hkey.1, hkey.2.2, hkinds other hother] at hwas
          exact hready hwas
        refine ⟨hsame, halike, ?_, fun hkind => absurd hkind hready,
          hskipped, ?_, ?_⟩
        · rw [hsendings]
          intro sending hmem
          rw [List.mem_singleton.mp hmem]
          exact ((hmember peer).mp hpeer).2
        · rw [hexists, hforall, hsendings]
          rcases hresult with ⟨hfailed, error, herror⟩ | ⟨hnone, hok⟩
          · rw [herror, hfailed]
            refine ⟨fun _ => ⟨List.ne_nil_of_mem hpeer, by decide, ?_,
              hunsent⟩, fun _ => ⟨error, rfl⟩⟩
            simp [Fate.complete]
          · rw [hok, hnone]
            simp
        · intro panic hpanic
          rcases hresult with ⟨_, error, herror⟩ | ⟨_, hok⟩
          · rw [herror] at hpanic
            cases hpanic
          · rw [hok] at hpanic
            cases hpanic

end Calls

/-! ## Runs -/

/-- What the system calls of a moment read was found by scans. -/
def Moment.Scanned : Moment → Prop
  | .change _ op => op.Scanned
  | _ => True

def Sender.after (digest : MacAddr → Datagram → UInt64) (sender : Sender)
    (moments : List Moment) : Sender :=
  moments.foldl (fun sender moment => (sender.moment digest moment).1) sender

def Sender.during (digest : MacAddr → Datagram → UInt64) (sender : Sender)
    (calls : List Call) : Sender × List Sending :=
  Sender.calls digest { sender with egress := sender.egress.beginPacket } calls

section Runs

variable (digest : MacAddr → Datagram → UInt64)

theorem planning_during {sender : Sender} (h : sender.Between)
    (hscanned : sender.table.Scanned) (calls : List Call) :
    (sender.during digest calls).1.Planning digest
      (sender.during digest calls).2 := by
  have hbegun : Sender.Planning digest
      { sender with egress := sender.egress.beginPacket } [] :=
    ⟨routing_beginPacket digest h.numbered, hscanned, by simp⟩
  have hcalls := hbegun.calls calls
  rw [List.nil_append] at hcalls
  exact hcalls

theorem moment_scanned {sender : Sender} (h : sender.Between)
    (hscanned : sender.table.Scanned) {moment : Moment}
    (hmoment : moment.Scanned) :
    (sender.moment digest moment).1.table.Scanned := by
  cases moment with
  | route calls => exact (planning_during digest h hscanned calls).scanned
  | send call => exact (call_linked digest hscanned call).same.scanned hscanned
  | change platform op => exact hscanned.apply platform hmoment
  | take capture => exact hscanned
  | restore capture value => exact hscanned

theorem after_between {sender : Sender} (h : sender.Between)
    (hscanned : sender.table.Scanned) {moments : List Moment}
    (hmoments : ∀ moment ∈ moments, moment.Scanned) :
    (sender.after digest moments).Between ∧
      (sender.after digest moments).table.Scanned := by
  induction moments generalizing sender with
  | nil => exact ⟨h, hscanned⟩
  | cons moment moments ih =>
      exact ih (h.moment digest moment).1
        (moment_scanned digest h hscanned
          (hmoments moment List.mem_cons_self))
        fun later hlater => hmoments later (List.mem_cons_of_mem _ hlater)

/-- In every run, whatever the handlers sent for the packet before and however
the injections answer: all copies of a call to peers can be planned or none,
each peer has its turn, and the call fails only where no copy of it went
out. -/
theorem peers_fail_unsent (seed : UInt32) (joinGroups : Bool)
    (moments : List Moment) (hmoments : ∀ moment ∈ moments, moment.Scanned)
    (calls : List Call) (inject : Nat → Nat → Except Errno Unit)
    (key : CaptureKey) (peers : List IpAddr) (datagram : Datagram)
    {sender : Sender} {done : List Sending} {sent : SendResult}
    (hsender : (Sender.after digest ⟨Egress.new seed, ⟨[], [], joinGroups⟩⟩
      moments).during digest calls = (sender, done))
    (hsent : sender.egress.sendUdpToPeers digest inject sender.table key peers
      datagram = sent)
    (hdigest : Collisionless digest (done ++ sent.sendings)) :
    ∃ kind, sent.PeersSent sender done key peers datagram kind := by
  have hnew : Sender.Between ⟨Egress.new seed, ⟨[], [], joinGroups⟩⟩ := by
    refine ⟨rfl, ?_⟩
    intro entry hmem
    cases hmem
  have hempty : InterfaceTable.Scanned ⟨[], [], joinGroups⟩ := by
    intro entry hmem
    cases hmem
  obtain ⟨hbetween, hscanned⟩ := after_between digest hnew hempty hmoments
  have hplanning := planning_during digest hbetween hscanned calls
  rw [hsender] at hplanning
  subst hsent
  exact ⟨_, hplanning.peersSent inject key peers datagram hdigest⟩

end Runs

def hostReading : Reading where
  addrs := resolve
    [.v4 ⟨[10, 0, 0, 23], rfl⟩ (some 24), .link (some .broadcast)]
  mtu := none

def lastOctet (_ : MacAddr) (datagram : Datagram) : UInt64 :=
  match datagram.dst.ip with
  | .v4 addr => (addr.octets.getD 3 0).toUInt64
  | .v6 addr => (addr.octets.getD 15 0).toUInt64

def peerMoments : List Moment :=
  [.change .linux (.openCapture [0x61] (.ok (some 2)) (.ok hostReading)
    (.ok .ethernet))]

def peerAddrs : List IpAddr :=
  [.v4 ⟨[10, 0, 0, 7], rfl⟩,
    .v6 ⟨[0xfe, 0x80, 0, 0, 0, 0, 0, 0, 0, 0, 0, 0, 0, 0, 0, 9], rfl⟩,
    .v4 ⟨[10, 0, 0, 8], rfl⟩]

def peerSender : Sender × List Sending :=
  (Sender.after lastOctet ⟨Egress.new 0, ⟨[], [], true⟩⟩ peerMoments).during
    lastOctet []

def peerSent : SendResult :=
  peerSender.1.egress.sendUdpToPeers lastOctet
    (fun position _ => if position = 0 then .error .noBufs else .ok ())
    peerSender.1.table ⟨0⟩ peerAddrs wakeDatagram

theorem peers_fail_unsent_one_fails :
    peerSent.sendings.map (·.fate.complete) = [false, true] ∧
      ∃ kind, peerSent.PeersSent peerSender.1 peerSender.2 ⟨0⟩ peerAddrs
        wakeDatagram kind := by
  have hmoments : ∀ moment ∈ peerMoments, moment.Scanned := by
    intro moment hmem
    rw [List.mem_singleton.mp hmem]
    intro reading hreading
    cases hreading
    exact ⟨_, rfl⟩
  have hdigest : Collisionless lastOctet
      (peerSender.2 ++ peerSent.sendings) := by
    unfold Collisionless
    decide +kernel
  exact ⟨by decide +kernel, peers_fail_unsent lastOctet 0 true peerMoments
    hmoments [] _ ⟨0⟩ peerAddrs wakeDatagram rfl rfl hdigest⟩

end Netflector.Dispatch
