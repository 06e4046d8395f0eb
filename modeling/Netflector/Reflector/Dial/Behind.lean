import Netflector.Reflector.Dial.Connection

/-!
# What was logged before

An edge reads nothing of what its world has logged.  So each turn of a proxy
may begin with an empty log, and a connection's whole life is the turns' logs
one after another.
-/

namespace Netflector.Reflector.Dial

open Netflector.Foundation
open Netflector.Net
open Netflector.Net.Http

def Kernel.delayed (kernel : Kernel) (count : Nat) : Kernel where
  recv position := kernel.recv (position - count)
  send position := kernel.send (position - count)
  accepts position := kernel.accepts (position - count)
  now position := kernel.now (position - count)

namespace World

def behind (world : World) (past : List Event) : World :=
  ⟨world.kernel.delayed past.length, past ++ world.log⟩

variable (world : World) (past : List Event)

theorem record_behind (event : Event) :
    (world.behind past).record event = (world.record event).behind past := by
  simp only [record, behind, List.append_assoc]

theorem position_behind :
    (world.behind past).log.length - past.length = world.log.length := by
  simp only [behind, List.length_append, Nat.add_sub_cancel_left]

theorem now_behind : (world.behind past).now = world.now :=
  congrArg world.kernel.now (world.position_behind past)

theorem recv_behind (socket : TcpSocket) (room : Nat) :
    (world.behind past).recv socket room =
      ((world.recv socket room).1.behind past,
        (world.recv socket room).2) := by
  have hanswer : (world.behind past).kernel.recv
      (world.behind past).log.length = world.kernel.recv world.log.length :=
    congrArg world.kernel.recv (world.position_behind past)
  simp only [recv, hanswer, record_behind]

theorem send_behind (socket : TcpSocket) (offered : Bytes) :
    (world.behind past).send socket offered =
      ((world.send socket offered).1.behind past,
        (world.send socket offered).2) := by
  have hanswer : (world.behind past).kernel.send
      (world.behind past).log.length = world.kernel.send world.log.length :=
    congrArg world.kernel.send (world.position_behind past)
  simp only [send, hanswer, record_behind]

theorem shutdownWrite_behind (socket : TcpSocket) :
    (world.behind past).shutdownWrite socket =
      (world.shutdownWrite socket).behind past :=
  world.record_behind past _

theorem ask_behind (event : Bool → Event) :
    (world.behind past).ask event =
      ((world.ask event).1.behind past, (world.ask event).2) := by
  have hanswer : (world.behind past).kernel.accepts
      (world.behind past).log.length =
        world.kernel.accepts world.log.length :=
    congrArg world.kernel.accepts (world.position_behind past)
  simp only [ask, hanswer, record_behind]

end World

def later {Value Answer : Type} (past : List Event)
    (answer : Value × World × Answer) : Value × World × Answer :=
  (answer.1, answer.2.1.behind past, answer.2.2)

namespace DirectionContext

variable (ctx : DirectionContext) (world : World) (past : List Event)

theorem sendFramed_behind (header body : Bytes) :
    ctx.sendFramed (world.behind past) header body =
      (ctx.sendFramed world header body).map (later past) := by
  unfold sendFramed
  split
  · cases bufferTail ctx.flow.send header body <;> rfl
  · rw [World.send_behind]
    cases hsent : (world.send ctx.dest (header ++ body)).2.sent with
    | none =>
        simp only [hsent]
        rfl
    | some sent =>
        simp only [hsent, World.now_behind]
        split
        · rfl
        · cases splitRemainder header body sent with
          | error panic => rfl
          | ok tails =>
              simp only [bind, Except.bind]
              split <;> rfl

theorem forwardFramed_behind (rounds : Nat) :
    ctx.forwardFramed rounds (world.behind past) =
      (ctx.forwardFramed rounds world).map (later past) := by
  induction rounds generalizing ctx world with
  | zero => rfl
  | succ rounds ih =>
      simp only [forwardFramed]
      cases ctx.flow.recv.pending with
      | error panic => rfl
      | ok pending =>
          simp only [bind, Except.bind]
          cases ctx.flow.framer.feed pending with
          | error error => rfl
          | ok answer =>
              obtain ⟨framer, framed⟩ := answer
              simp only [World.record_behind, sendFramed_behind]
              split
              · rfl
              · generalize sendFramed _ _ framed.header framed.body = sent
                cases sent with
                | error panic => rfl
                | ok sent =>
                    obtain ⟨after, middle, outcome⟩ := sent
                    simp only [Except.map, later, ih]
                    split <;> rfl

theorem forward_behind :
    ctx.forward (world.behind past) =
      (ctx.forward world).map (later past) := by
  unfold forward
  cases ctx.flow.recv.freeTailMut with
  | error panic => rfl
  | ok free =>
      obtain ⟨recv, room⟩ := free
      simp only [bind, Except.bind, World.recv_behind]
      split
      · rfl
      · obtain ⟨middle, answer⟩ := world.recv ctx.source room
        cases answer with
        | failed => rfl
        | wouldBlock => rfl
        | ready bytes =>
            simp only [forwardFramed_behind]
            split <;> rfl

theorem syncWriteInterest_behind :
    ctx.syncWriteInterest (world.behind past) =
      (ctx.syncWriteInterest world).map fun answer =>
        (answer.1.behind past, answer.2) := by
  unfold syncWriteInterest
  cases ctx.destReg with
  | none => rfl
  | some reg =>
      simp only [orPanic, bind, Except.bind, World.ask_behind]
      rfl

theorem settle_behind :
    ctx.settle (world.behind past) =
      (ctx.settle world).map (later past) := by
  unfold settle
  simp only [World.shutdownWrite_behind]
  split <;>
    · simp only [syncWriteInterest_behind]
      generalize syncWriteInterest _ _ = synced
      cases synced <;> rfl

theorem halfClose_behind :
    ctx.halfClose (world.behind past) =
      (ctx.halfClose world).map (later past) := by
  unfold halfClose
  cases ctx.sourceReg with
  | none => rfl
  | some reg =>
      simp only [orPanic, bind, Except.bind, World.ask_behind, settle_behind]
      split <;> rfl

theorem drain_behind :
    ctx.drain (world.behind past) = (ctx.drain world).map (later past) := by
  unfold drain
  split
  · rfl
  · cases ctx.flow.send.pending with
    | error panic => rfl
    | ok pending =>
        simp only [bind, Except.bind, World.send_behind]
        obtain ⟨middle, answer⟩ := world.send ctx.dest pending
        cases answer with
        | failed => rfl
        | wouldBlock => rfl
        | ready count =>
            simp only [World.now_behind]
            rfl

end DirectionContext

namespace Connection

variable (connection : Connection) (world : World) (past : List Event)

theorem finishDeviceConnect_behind :
    connection.finishDeviceConnect (world.behind past) =
      later past (connection.finishDeviceConnect world) := by
  simp only [finishDeviceConnect, World.ask_behind]
  obtain ⟨middle, answer⟩ :=
    world.ask (Event.finishConnect connection.device.fd)
  cases answer with
  | false => rfl
  | true =>
      simp only [World.now_behind]
      rfl

theorem peerGone_behind (direction : Direction) :
    connection.peerGone direction (world.behind past) =
      (connection.peerGone direction world).map (later past) := by
  simp only [peerGone]
  cases (connection.context direction).destReg with
  | none => rfl
  | some disarmReg =>
      cases (connection.context direction).sourceReg with
      | none => rfl
      | some unwatchReg =>
          simp only [orPanic, bind, Except.bind, World.ask_behind,
            DirectionContext.settle_behind]
          split
          · split
            · generalize DirectionContext.settle _ _ = settled
              cases settled with
              | error panic => rfl
              | ok settled =>
                  simp only [Except.map, later]
                  split <;> rfl
            · rfl
          · rfl

theorem forwardOpened_behind (direction : Direction) :
    connection.forwardOpened direction (world.behind past) =
      (connection.forwardOpened direction world).map (later past) := by
  unfold forwardOpened
  simp only [DirectionContext.forward_behind]
  generalize (connection.context direction).forward world = forwarded
  cases forwarded with
  | error panic => rfl
  | ok forwarded =>
      obtain ⟨ctx, middle, answer⟩ := forwarded
      cases answer with
      | failed => rfl
      | sourceEof =>
          simp only [Except.map, later, bind, Except.bind,
            DirectionContext.halfClose_behind]
          generalize ctx.halfClose middle = closed
          cases closed <;> rfl
      | opened =>
          simp only [Except.map, later, bind, Except.bind,
            DirectionContext.syncWriteInterest_behind]
          generalize ctx.syncWriteInterest middle = synced
          cases synced <;> rfl

theorem connected_behind (edge : Prop) [Decidable edge] :
    (if edge then connection.finishDeviceConnect (world.behind past)
      else (connection, world.behind past, .keep)) =
      later past (if edge then connection.finishDeviceConnect world
        else (connection, world, .keep)) := by
  split
  · exact connection.finishDeviceConnect_behind world past
  · rfl

theorem forward_behind (direction : Direction) :
    connection.forward direction (world.behind past) =
      (connection.forward direction world).map (later past) := by
  simp only [forward, connected_behind]
  generalize (if direction = .deviceToClient ∧ connection.device.connecting
    then connection.finishDeviceConnect world
    else (connection, world, .keep)) = connected
  obtain ⟨opened, middle, outcome⟩ := connected
  simp only [later, peerGone_behind, forwardOpened_behind]
  cases outcome with
  | close => rfl
  | keep =>
      simp only [reduceCtorEq, if_false]
      split
      · split <;> rfl
      · rfl

theorem onWritable_behind (direction : Direction) :
    connection.onWritable direction (world.behind past) =
      (connection.onWritable direction world).map (later past) := by
  simp only [onWritable, connected_behind]
  generalize (if direction = .clientToDevice ∧ connection.device.connecting
    then connection.finishDeviceConnect world
    else (connection, world, .keep)) = connected
  obtain ⟨opened, middle, outcome⟩ := connected
  simp only [later, DirectionContext.drain_behind]
  cases outcome with
  | close => rfl
  | keep =>
      simp only [reduceCtorEq, if_false]
      generalize (opened.context direction).drain middle = drained
      cases drained with
      | error panic => rfl
      | ok drained =>
          obtain ⟨ctx, flushed, answer⟩ := drained
          simp only [Except.map, later, bind, Except.bind,
            DirectionContext.settle_behind]
          cases answer with
          | close => rfl
          | keep =>
              simp only [reduceCtorEq, if_false]
              generalize ctx.settle flushed = settled
              cases settled <;> rfl

/-- An edge is the same edge, whatever was logged before it. -/
theorem readable_behind (fd : Nat) :
    connection.readable fd (world.behind past) =
      (connection.readable fd world).map (later past) :=
  connection.forward_behind world past _

theorem writable_behind (fd : Nat) :
    connection.writable fd (world.behind past) =
      (connection.writable fd world).map (later past) :=
  connection.onWritable_behind world past _

end Connection

end Netflector.Reflector.Dial
