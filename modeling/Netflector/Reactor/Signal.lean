import Mathlib.Data.List.Basic

/-!
# Signals through the self-pipe

A signal's handler may interrupt the program, or another handler, between any
two of its steps: it sets a flag and writes a byte to a pipe, and the reactor,
which watches the pipe, does the rest.  What a system call of the program
answers is an argument of its step; the threads are one.
-/

namespace Netflector.Reactor.Signal

inductive Signum where
  | sigint
  | sigterm
  | sigusr1
  deriving DecidableEq, Repr

def dumpSignal : Signum := .sigusr1

def handledSignals : List Signum := [.sigint, .sigterm, dumpSignal]

/-- The kernel's side of the self-pipe: how many bytes wait in it, and which of
its ends are open. -/
structure Pipe where
  held : Nat
  readEnd : Bool
  writeEnd : Bool
  deriving DecidableEq, Repr

/-! ## The handler -/

/-- Where a call of the handler stands, with the `errno` it saved. -/
inductive Stage where
  | called
  | saved (errno : Int)
  | flagged (errno : Int)
  | loaded (errno : Int) (writeFd : Bool)
  | written (errno : Int)
  deriving DecidableEq, Repr

structure Frame where
  signum : Signum
  stage : Stage
  deriving DecidableEq, Repr

/-! ## The program -/

inductive Main where
  | piping
  | publishing
  | clearingShutdown
  | clearingDump
  | installing (rest : List Signum)
  -- A handler could not be installed: those before it are restored.
  | undoing (rest : List Signum)
  | withdrawing
  | abandoning
  | registering
  -- The pipe's registration failed, and drops the read end it was given.
  | refused
  | resetting
  | looping
  | waiting
  | dispatching (reported : Bool)
  | draining
  | swappingShutdown
  | swappingDump
  | polled
  | restoring (rest : List Signum) (registered : Bool)
  | unpublishing (registered : Bool)
  | closing (registered : Bool)
  | unregistering
  | finished
  deriving DecidableEq, Repr

/-- `writeFd` says whether `WRITE_FD` names the pipe's write end, `installed`
which signals have the handler, and `frames` which calls of it run, the
innermost first.  `shutdown` and `dumpPending` are the reactor's, and `dumps`
counts the broadcasts. -/
structure State where
  errno : Int
  writeFd : Bool
  shutdownRequested : Bool
  dumpRequested : Bool
  installed : List Signum
  pipe : Pipe
  frames : List Frame
  main : Main
  shutdown : Bool
  dumpPending : Bool
  dumps : Nat
  deriving DecidableEq, Repr

/-- `run` is called: whatever an earlier guard left of the flags. -/
def State.start (errno : Int) (shutdownRequested dumpRequested shutdown
    dumpPending : Bool) : State where
  errno := errno
  writeFd := false
  shutdownRequested := shutdownRequested
  dumpRequested := dumpRequested
  installed := []
  pipe := ⟨0, false, false⟩
  frames := []
  main := .piping
  shutdown := shutdown
  dumpPending := dumpPending
  dumps := 0

/-- What answers a step of the program: whether its system call succeeds, the
`errno` it leaves, and whether a wait reports the pipe. -/
structure Answer where
  ok : Bool
  errno : Int
  reported : Bool
  deriving DecidableEq, Repr

/-- One byte into the pipe, which is dropped where it does not fit; `failure` is
the `errno` of a write that fails. -/
def State.write (capacity : Nat) (failure : Int) (state : State) : State :=
  if state.pipe.writeEnd && state.pipe.readEnd &&
      decide (state.pipe.held < capacity) then
    { state with pipe := { state.pipe with held := state.pipe.held + 1 } }
  else { state with errno := failure }

def Frame.step (capacity : Nat) (failure : Int) (frame : Frame)
    (rest : List Frame) (state : State) : State :=
  let goOn (state : State) (stage : Stage) : State :=
    { state with frames := { frame with stage := stage } :: rest }
  match frame.stage with
  | .called => goOn state (.saved state.errno)
  | .saved errno =>
      if frame.signum = dumpSignal then
        goOn { state with dumpRequested := true } (.flagged errno)
      else goOn { state with shutdownRequested := true } (.flagged errno)
  | .flagged errno => goOn state (.loaded errno state.writeFd)
  | .loaded errno writeFd =>
      if writeFd then goOn (state.write capacity failure) (.written errno)
      else goOn state (.written errno)
  | .written errno => { state with errno := errno, frames := rest }

/-- A read of the drain takes sixteen bytes at most. -/
def readLen : Nat := 16

def Pipe.dropRead (pipe : Pipe) : Pipe := { pipe with readEnd := false }

def Pipe.dropWrite (pipe : Pipe) : Pipe := { pipe with writeEnd := false }

def State.mainStep (answer : Answer) (state : State) : State :=
  let goTo (state : State) (main : Main) : State :=
    { state with main := main, errno := answer.errno }
  match state.main with
  | .piping =>
      if answer.ok then
        goTo { state with pipe := ⟨0, true, true⟩ } .publishing
      else goTo state .finished
  | .publishing =>
      -- `compare_exchange`: another guard may be installed.
      if state.writeFd then goTo state .abandoning
      else goTo { state with writeFd := true } .clearingShutdown
  | .clearingShutdown =>
      goTo { state with shutdownRequested := false } .clearingDump
  | .clearingDump =>
      goTo { state with dumpRequested := false } (.installing handledSignals)
  | .installing [] => goTo state .registering
  | .installing (signum :: rest) =>
      if answer.ok then
        goTo { state with installed := state.installed ++ [signum] }
          (.installing rest)
      else goTo state (.undoing state.installed)
  | .undoing [] => goTo state .withdrawing
  | .undoing (signum :: rest) =>
      goTo { state with installed := state.installed.erase signum }
        (.undoing rest)
  | .withdrawing => goTo { state with writeFd := false } .abandoning
  | .abandoning =>
      goTo { state with pipe := state.pipe.dropRead.dropWrite } .finished
  | .registering =>
      if answer.ok then goTo state .resetting else goTo state .refused
  | .refused =>
      goTo { state with pipe := state.pipe.dropRead }
        (.restoring handledSignals false)
  | .resetting =>
      goTo { state with shutdown := false, dumpPending := false } .looping
  | .looping =>
      if state.shutdown then goTo state (.restoring handledSignals true)
      else goTo state .waiting
  | .waiting =>
      -- The wait is level-triggered; an interrupted one reports nothing.
      if answer.ok then
        goTo state
          (.dispatching (answer.reported && decide (0 < state.pipe.held)))
      else goTo state (.restoring handledSignals true)
  | .dispatching reported =>
      if reported then goTo state .draining else goTo state .polled
  | .draining =>
      if state.pipe.held = 0 then goTo state .swappingShutdown
      else
        goTo { state with pipe :=
          { state.pipe with held := state.pipe.held - readLen } } .draining
  | .swappingShutdown =>
      goTo { state with
        shutdownRequested := false
        shutdown := state.shutdown || state.shutdownRequested } .swappingDump
  | .swappingDump =>
      goTo { state with
        dumpRequested := false
        dumpPending := state.dumpPending || state.dumpRequested } .polled
  | .polled =>
      if state.dumpPending then
        goTo { state with dumpPending := false, dumps := state.dumps + 1 }
          .looping
      else goTo state .looping
  | .restoring [] registered => goTo state (.unpublishing registered)
  | .restoring (signum :: rest) registered =>
      goTo { state with installed := state.installed.erase signum }
        (.restoring rest registered)
  | .unpublishing registered =>
      goTo { state with writeFd := false } (.closing registered)
  | .closing registered =>
      let state := { state with pipe := state.pipe.dropWrite }
      if registered then goTo state .unregistering else goTo state .finished
  | .unregistering =>
      goTo { state with pipe := state.pipe.dropRead } .finished
  | .finished => state

/-! ## Runs -/

inductive Action where
  | signal (signum : Signum)
  | handler (failure : Int)
  | main (answer : Answer)
  deriving DecidableEq, Repr

/-- A signal is held back while its own handler runs, and the program while any
does. -/
def State.step (capacity : Nat) (state : State) : Action → Option State
  | .signal signum =>
      if signum ∈ state.installed ∧
          signum ∉ state.frames.map Frame.signum then
        some { state with frames := ⟨signum, .called⟩ :: state.frames }
      else none
  | .handler failure =>
      match state.frames with
      | [] => none
      | frame :: rest => some (frame.step capacity failure rest state)
  | .main answer =>
      match state.frames with
      | [] => some (state.mainStep answer)
      | _ :: _ => none

def State.run (capacity : Nat) : State → List Action → Option State
  | state, [] => some state
  | state, action :: actions => do
      let state ← state.step capacity action
      state.run capacity actions

end Netflector.Reactor.Signal
