import Netflector.Dispatch.Daemon
import Netflector.Dispatch.Reporting
import Netflector.Reactor.Generations

/-!
# What handlers do to the dispatcher

Sends change the records of the captures and the egress state only; a leg that
rewrites may also mint a proxy.  Nothing that a handler does for a packet
changes an interface.
-/

namespace Netflector.Dispatch

open Netflector.Foundation
open Netflector.Net
open Netflector.Reactor
open Netflector.Reflector

/-! ## The table at rest -/

structure InterfaceTable.Resting (before after : InterfaceTable) : Prop where
  entries : after.entries = before.entries
  interfaces : after.captures.map (·.interface) =
    before.captures.map (·.interface)

namespace InterfaceTable

theorem Resting.refl (table : InterfaceTable) : Resting table table :=
  ⟨rfl, rfl⟩

theorem Resting.trans {first second third : InterfaceTable}
    (h : Resting first second) (h' : Resting second third) :
    Resting first third :=
  ⟨h'.entries.trans h.entries, h'.interfaces.trans h.interfaces⟩

theorem Resting.settled {before after : InterfaceTable}
    (h : Resting before after) (hsettled : before.Settled) :
    after.Settled := by
  rw [Settled, h.entries]
  exact hsettled

theorem Resting.interfaceOf {before after : InterfaceTable}
    (h : Resting before after) (capture : CaptureKey) :
    after.interfaceOf capture = before.interfaceOf capture := by
  have hinterface := congrArg (·[capture.index.toNat]?) h.interfaces
  simpa only [List.getElem?_map, InterfaceTable.interfaceOf, captureEntry]
    using hinterface

theorem Resting.entry {before after : InterfaceTable}
    (h : Resting before after) (interface : InterfaceKey) :
    after.entry interface = before.entry interface := by
  rw [InterfaceTable.entry, InterfaceTable.entry, h.entries]

theorem Resting.footingOf {before after : InterfaceTable}
    (h : Resting before after) (capture : CaptureKey) :
    after.footingOf capture = before.footingOf capture := by
  rw [InterfaceTable.footingOf, InterfaceTable.footingOf, h.interfaceOf]
  refine congrArg _ (funext fun interface => ?_)
  rw [footing, footing, h.entry]

theorem resting_modify (table : InterfaceTable) (index : Nat)
    {change : CaptureEntry → CaptureEntry}
    (hchange : ∀ entry, (change entry).interface = entry.interface) :
    Resting table
      { table with captures := table.captures.modify index change } := by
  refine ⟨rfl, List.ext_getElem? fun position => ?_⟩
  simp only [List.getElem?_map, List.getElem?_modify]
  cases table.captures[position]? with
  | none => rfl
  | some entry =>
      by_cases hsame : index = position
      · simp [hsame, hchange]
      · simp [hsame]

theorem resting_recordSent (table : InterfaceTable) (egress : CaptureKey)
    (packet : Nat) (digest : UInt64) :
    Resting table (table.recordSent egress packet digest) := by
  apply resting_modify
  intro entry
  simp only [CaptureEntry.recordSent]
  split
  · rfl
  · rfl

theorem resting_take (table : InterfaceTable) (key : CaptureKey) :
    Resting table (table.take key).1 :=
  resting_modify table key.index.toNat fun _ => rfl

theorem resting_restore (table : InterfaceTable) (key : CaptureKey)
    (capture : Capture) : Resting table (table.restore key capture) :=
  resting_modify table key.index.toNat fun _ => rfl

end InterfaceTable

/-! ## Sends -/

section Sends

variable (digest : MacAddr → Datagram → UInt64)

theorem transmit_resting (egress : Egress) (table : InterfaceTable)
    (key : CaptureKey) (dstMac : MacAddr) (datagram : Datagram)
    (frames : UdpFrames) (inject : Nat → Except Errno Unit) :
    table.Resting (egress.transmit digest table key dstMac datagram frames
      inject).1 := by
  simp only [Egress.transmit]
  split
  · exact .refl _
  · dsimp only
    split
    · exact InterfaceTable.resting_recordSent ..
    · exact .refl _

theorem sendUdp_resting (inject : Nat → Except Errno Unit) (egress : Egress)
    (table : InterfaceTable) (key : CaptureKey) (dstMac : MacAddr)
    (datagram : Datagram) :
    table.Resting
      (egress.sendUdp digest inject table key dstMac datagram).table := by
  simp only [Egress.sendUdp]
  split
  · exact .refl _
  split
  · exact .refl _
  · exact .refl _
  · exact transmit_resting ..

theorem sendUdpGroup_resting (inject : Nat → Except Errno Unit)
    (egress : Egress) (table : InterfaceTable) (key : CaptureKey)
    (datagram : Datagram) :
    table.Resting
      (egress.sendUdpGroup digest inject table key datagram).table := by
  simp only [Egress.sendUdpGroup]
  split
  · exact .refl _
  · exact sendUdp_resting ..

theorem sendToEach_resting (inject : Nat → Nat → Except Errno Unit)
    (key : CaptureKey) (datagram : Datagram) (position : Nat)
    (peers : List IpAddr) (delivered : Bool)
    (failure : Option (Stop SendError)) (egress : Egress)
    (table : InterfaceTable) :
    table.Resting (Egress.sendToEach digest inject key datagram position peers
      delivered failure egress table).table := by
  induction peers generalizing position delivered failure egress table with
  | nil => exact .refl _
  | cons peer peers ih =>
      simp only [Egress.sendToEach]
      split
      · exact ih ..
      split
      · exact .refl _
      · exact .refl _
      next planned frames _ =>
        have hsent := transmit_resting digest planned table key .broadcast
          { datagram with dst := ⟨peer, datagram.dst.port⟩ } frames
          (inject position)
        split
        next heq =>
          rw [heq] at hsent
          exact hsent.trans (ih ..)
        next heq =>
          rw [heq] at hsent
          exact hsent
        next heq =>
          rw [heq] at hsent
          exact hsent.trans (ih ..)

end Sends

structure PacketDispatcher.Sent (before after : PacketDispatcher) :
    Prop where
  table : before.table.Resting after.table
  rest : after = { before with egress := after.egress, table := after.table }

theorem afterSend_sent {dispatcher after : PacketDispatcher}
    {sent : SendResult} {result : Except SendError Unit}
    (hresting : dispatcher.table.Resting sent.table)
    (h : dispatcher.afterSend sent = .ok (after, result)) :
    dispatcher.Sent after := by
  simp only [PacketDispatcher.afterSend] at h
  split at h
  · cases h
    exact ⟨hresting, rfl⟩
  · cases h
    exact ⟨hresting, rfl⟩
  · cases h

theorem delivery_sent (digest : MacAddr → Datagram → UInt64)
    (inject : Nat → Nat → Except Errno Unit) {delivery : Delivery}
    {dispatcher after : PacketDispatcher} {egress : CaptureKey}
    {dst : SocketAddr} {source : DatagramSource} {ttl : UInt8}
    {payload : Bytes} {result : Except SendError Unit}
    (h : delivery.send digest inject dispatcher egress dst source ttl
      payload = .ok (after, result)) : dispatcher.Sent after := by
  cases delivery with
  | link => exact afterSend_sent (sendUdpGroup_resting ..) h
  | peers addrs => exact afterSend_sent (sendToEach_resting ..) h
  | unicast searcher mac => exact afterSend_sent (sendUdp_resting ..) h

theorem PacketDispatcher.Sent.refl (dispatcher : PacketDispatcher) :
    dispatcher.Sent dispatcher :=
  ⟨.refl _, rfl⟩

theorem PacketDispatcher.Sent.registrations
    {before after : PacketDispatcher} (h : before.Sent after) :
    after.registrations = before.registrations := by
  rw [h.rest]

/-! ## The simple reflector -/

/-- What a leg can leave behind: sends, and a proxy minted. -/
structure PacketDispatcher.Handled (before after : PacketDispatcher) :
    Prop where
  table : before.table.Resting after.table
  rest : after = { before with
    egress := after.egress, table := after.table, dial := after.dial }

theorem PacketDispatcher.Handled.refl (dispatcher : PacketDispatcher) :
    dispatcher.Handled dispatcher :=
  ⟨.refl _, rfl⟩

theorem PacketDispatcher.Handled.sent
    {first second third : PacketDispatcher} (h : first.Handled second)
    (h' : second.Sent third) : first.Handled third := by
  refine ⟨h.table.trans h'.table, ?_⟩
  rw [h'.rest, h.rest]

theorem PacketDispatcher.Handled.registrations
    {before after : PacketDispatcher} (h : before.Handled after) :
    after.registrations = before.registrations := by
  rw [h.rest]

theorem rewrite_handled {calls : PacketCalls} {rewrite : ReplyRewrite}
    {packet : Packet} {egress : CaptureKey} {daemon after : Daemon}
    {made : Rewrite}
    (h : rewrite.rewrite calls packet egress daemon = .ok (after, made)) :
    daemon.dispatcher.Handled after.dispatcher := by
  cases rewrite with
  | noRewrite =>
      cases h
      exact .refl _
  | services filter =>
      cases h
      exact .refl _
  | responses gate =>
      cases h
      exact .refl _
  | dial target =>
      simp only [ReplyRewrite.rewrite] at h
      split at h
      · cases h
        exact .refl _
      · obtain ⟨⟨context, reactor, rewritten⟩, _, hafter⟩ := except_bind_ok h
        cases hafter
        exact ⟨.refl _, rfl⟩

theorem emitTo_sent {digest : MacAddr → Datagram → UInt64}
    {calls : PacketCalls} {reflector : SimpleReflector} {packet : Packet}
    {type : MessageType} {dest : SocketAddr} {payload : Bytes}
    {checked : Bool} {daemon after : Daemon} {outcome : Reflector.Outcome}
    (h : reflector.emitTo digest calls packet type dest payload checked
      daemon = .ok (after, outcome)) :
    daemon.dispatcher.Sent after.dispatcher ∧
      after.reactor = daemon.reactor := by
  simp only [SimpleReflector.emitTo] at h
  split at h
  · cases h
    exact ⟨.refl _, rfl⟩
  · obtain ⟨⟨dispatcher, sent⟩, hsend, hafter⟩ := except_bind_ok h
    cases hafter
    exact ⟨delivery_sent digest calls.inject hsend, rfl⟩

theorem simple_onPacket_cases {digest : MacAddr → Datagram → UInt64}
    {calls : PacketCalls} {reflector : SimpleReflector} {packet : Packet}
    {daemon after : Daemon} {outcome : Reflector.Outcome}
    (h : reflector.onPacket digest calls packet daemon =
      .ok (after, outcome)) :
    after = daemon ∨ ∃ rewritten made,
      reflector.rewrite.rewrite calls packet reflector.egress daemon =
        .ok (rewritten, made) ∧
      rewritten.dispatcher.Sent after.dispatcher ∧
      after.reactor = rewritten.reactor := by
  simp only [SimpleReflector.onPacket] at h
  split at h
  · cases h
    exact .inl rfl
  · cases h
    exact .inl rfl
  · cases h
    exact .inl rfl
  split at h
  · cases h
    exact .inl rfl
  split at h
  · cases h
    exact .inl rfl
  split at h
  · obtain ⟨⟨rewritten, made⟩, hrewrite, hemit⟩ := except_bind_ok h
    refine .inr ⟨rewritten, made, hrewrite, ?_⟩
    cases made with
    | verbatim => exact emitTo_sent hemit
    | replaced payload => exact emitTo_sent hemit
    | refused =>
        cases hemit
        exact ⟨.refl _, rfl⟩
    | unreadable =>
        cases hemit
        exact ⟨.refl _, rfl⟩
  · cases h
    exact .inl rfl

theorem simple_onPacket_handled {digest : MacAddr → Datagram → UInt64}
    {calls : PacketCalls} {reflector : SimpleReflector} {packet : Packet}
    {daemon after : Daemon} {outcome : Reflector.Outcome}
    (h : reflector.onPacket digest calls packet daemon =
      .ok (after, outcome)) :
    daemon.dispatcher.Handled after.dispatcher := by
  obtain rfl | ⟨rewritten, made, hrewrite, hsent, _⟩ :=
    simple_onPacket_cases h
  · exact .refl _
  · exact (rewrite_handled hrewrite).sent hsent

/-! ## The search reflector -/

inductive Acted (digest : MacAddr → Datagram → UInt64) (own : Key)
    (calls : PacketCalls) (reflector : SearchReflector) (packet : Packet)
    (dispatcher : PacketDispatcher) :
    SearchReflector → PacketDispatcher → Prop where
  | passed (after : PacketDispatcher) (hsent : dispatcher.Sent after) :
      Acted digest own calls reflector packet dispatcher reflector after
  | extended (after : PacketDispatcher) (session : Session) (expiry : Nat)
      (hsession : reflector.sessions.get ⟨packet.source, packet.dest⟩ =
        some session)
      (hsent : dispatcher.Sent after) :
      Acted digest own calls reflector packet dispatcher
        { reflector with
          sessions := reflector.sessions.insert ⟨packet.source, packet.dest⟩
            { session with expiry := max session.expiry expiry } } after
  | opened (made after : PacketDispatcher) (destination ourAddr : IpAddr)
      (port : UInt16) (responseKey : Key) (expiry : Nat)
      (hnone : reflector.sessions.get ⟨packet.source, packet.dest⟩ = none)
      (hroom : reflector.sessions.len < maxSessions)
      (hdestination : reflector.delivery.destination packet.dest.ip =
        some destination)
      (haddr : dispatcher.replySource reflector.target destination =
        some ourAddr)
      (hport : calls.reserve = .ok port)
      (hmade : dispatcher.register reflector.target
        (reflector.responseFilter ⟨ourAddr, port⟩)
        ⟨.simple (reflector.responseLeg packet), some own⟩ =
          .ok (made, responseKey))
      (hfirst : reflector.reflectFrom digest calls packet
        ⟨expiry, ⟨ourAddr, port⟩, responseKey,
          dispatcher.table.ifindexOf reflector.target⟩ made =
          .ok (after, .ok ())) :
      Acted digest own calls reflector packet dispatcher
        { reflector with
          sessions := reflector.sessions.insert ⟨packet.source, packet.dest⟩
            ⟨expiry, ⟨ourAddr, port⟩, responseKey,
              dispatcher.table.ifindexOf reflector.target⟩ } after
  | rolledBack (made after : PacketDispatcher) (filter : Filter)
      (handler : PacketHandler) (responseKey : Key)
      (hmade : dispatcher.register reflector.target filter handler =
        .ok (made, responseKey))
      (hsent : made.Sent after) :
      Acted digest own calls reflector packet dispatcher reflector
        (after.unregister responseKey)

theorem reuse_acted {digest : MacAddr → Datagram → UInt64}
    {calls : PacketCalls} {reflector after : SearchReflector}
    {packet : Packet} {session : Session} {expiry : Nat}
    {type : MessageType} {dispatcher left : PacketDispatcher}
    {outcome : Reflector.Outcome} (own : Key)
    (hsession : reflector.sessions.get ⟨packet.source, packet.dest⟩ =
      some session)
    (h : reflector.reuse digest calls packet ⟨packet.source, packet.dest⟩
      session expiry type dispatcher = .ok (after, left, outcome)) :
    Acted digest own calls reflector packet dispatcher after left := by
  obtain ⟨⟨dispatcher', sent⟩, hsend, hafter⟩ := except_bind_ok h
  have hsent := delivery_sent digest calls.inject hsend
  cases sent with
  | ok done =>
      cases hafter
      exact .extended _ session expiry hsession hsent
  | error error =>
      cases hafter
      exact .passed _ hsent

theorem open_acted {digest : MacAddr → Datagram → UInt64}
    {calls : PacketCalls} {own : Key} {reflector after : SearchReflector}
    {packet : Packet} {destination : IpAddr} {expiry : Nat}
    {type : MessageType} {dispatcher left : PacketDispatcher}
    {outcome : Reflector.Outcome}
    (hnone : reflector.sessions.get ⟨packet.source, packet.dest⟩ = none)
    (hdestination : reflector.delivery.destination packet.dest.ip =
      some destination)
    (h : reflector.open digest calls own packet destination
      ⟨packet.source, packet.dest⟩ expiry type dispatcher =
        .ok (after, left, outcome)) :
    Acted digest own calls reflector packet dispatcher after left := by
  obtain ⟨⟨made, result⟩, hmake, hrest⟩ := except_bind_ok h
  simp only [SearchReflector.makeSession] at hmake
  split at hmake
  · cases hmake
    cases hrest
    exact .passed _ (.refl _)
  next hroom =>
    rw [Nat.not_le] at hroom
    split at hmake
    · cases hmake
      cases hrest
      exact .passed _ (.refl _)
    next ourAddr haddr =>
      split at hmake
      · cases hmake
        cases hrest
        exact .passed _ (.refl _)
      next port hport =>
        obtain ⟨⟨registered, responseKey⟩, hregister, hmade⟩ :=
          except_bind_ok hmake
        cases hmade
        obtain ⟨⟨dispatcher', sent⟩, hsend, hafter⟩ := except_bind_ok hrest
        cases sent with
        | ok done =>
            cases hafter
            exact .opened _ _ destination ourAddr port responseKey expiry hnone
              hroom hdestination haddr hport hregister hsend
        | error error =>
            cases hafter
            exact .rolledBack _ _ _ _ responseKey hregister
              (delivery_sent digest calls.inject hsend)

theorem search_onPacket_acted {digest : MacAddr → Datagram → UInt64}
    {calls : PacketCalls} {own : Key} {reflector after : SearchReflector}
    {packet : Packet} {dispatcher left : PacketDispatcher}
    {outcome : Reflector.Outcome}
    (h : reflector.onPacket digest calls own packet dispatcher =
      .ok (after, left, outcome)) :
    Acted digest own calls reflector packet dispatcher after left := by
  simp only [SearchReflector.onPacket] at h
  split at h
  · cases h
    exact .passed _ (.refl _)
  · cases h
    exact .passed _ (.refl _)
  · cases h
    exact .passed _ (.refl _)
  split at h
  · cases h
    exact .passed _ (.refl _)
  next destination hdestination =>
    split at h
    next session hsession => exact reuse_acted own hsession h
    next hnone => exact open_acted hnone hdestination h

end Netflector.Dispatch
