import Netflector.Reactor.Signal

/-!
# No signal is lost

Whatever interrupts what, a flag that is set comes with a byte in the pipe, or
one about to be written, or the program is about to look at the flag.  So a wait
with nothing to read has nothing to answer.
-/

namespace Netflector.Reactor.Signal

/-! ## What the program holds at each point -/

def Main.early : Main → Bool
  | .piping | .publishing | .clearingShutdown | .clearingDump => true
  | _ => false

def Main.serving : Main → Bool
  | .looping | .waiting | .dispatching _ | .draining | .swappingShutdown
  | .swappingDump | .polled => true
  | _ => false

def Main.listening : Main → Bool
  | .installing _ | .registering | .resetting => true
  | main => main.serving

def Main.ended (main : Main) : Bool := !main.early && !main.listening

def Main.published : Main → Bool
  | .piping | .publishing | .abandoning | .closing _ | .unregistering
  | .finished => false
  | _ => true

def Main.writeEnd : Main → Bool
  | .piping | .unregistering | .finished => false
  | _ => true

def Main.readEnd : Main → Bool
  | .piping | .finished => false
  | .restoring _ registered | .unpublishing registered
  | .closing registered => registered
  | _ => true

def Main.Installs : Main → List Signum → Prop
  | .installing rest, installed => installed ++ rest = handledSignals
  | .undoing rest, installed | .restoring rest _, installed => installed = rest
  | .registering, installed | .refused, installed | .resetting, installed
  | .looping, installed | .waiting, installed | .dispatching _, installed
  | .draining, installed | .swappingShutdown, installed
  | .swappingDump, installed | .polled, installed => installed = handledSignals
  | _, installed => installed = []

/-! ## Requests -/

inductive Request where
  | shutdown
  | dump
  deriving DecidableEq, Repr

def Signum.request (signum : Signum) : Request :=
  if signum = dumpSignal then .dump else .shutdown

def State.flag (state : State) : Request → Bool
  | .shutdown => state.shutdownRequested
  | .dump => state.dumpRequested

def State.noted (state : State) : Request → Bool
  | .shutdown => state.shutdown
  | .dump => state.dumpPending

def Frame.raises (request : Request) (frame : Frame) : Bool :=
  match frame.stage with
  | .called | .saved _ => decide (frame.signum.request = request)
  | _ => false

def Action.asks (request : Request) : Action → Bool
  | .signal signum => decide (signum.request = request)
  | .handler _ | .main _ => false

def Frame.writes (frame : Frame) : Bool :=
  match frame.stage with
  | .written _ => false
  | _ => true

def Main.looks (request : Request) : Main → Bool
  | .draining | .swappingShutdown => true
  | .swappingDump => decide (request = .dump)
  | _ => false

def State.Heard (request : Request) (state : State) : Prop :=
  0 < state.pipe.held ∨ (∃ frame ∈ state.frames, frame.writes = true) ∨
    state.main.looks request = true

def Main.unnoted (request : Request) : Main → Bool
  | .waiting | .dispatching _ | .draining | .swappingShutdown => true
  | .looping | .swappingDump => decide (request = .dump)
  | _ => false

structure Sound (state : State) : Prop where
  installs : state.main.Installs state.installed
  published : state.writeFd = state.main.published
  writeEnd : state.pipe.writeEnd = state.main.writeEnd
  readEnd : state.pipe.readEnd = state.main.readEnd
  interrupted : state.frames ≠ [] → state.installed ≠ []
  loaded : ∀ frame ∈ state.frames, ∀ errno,
    frame.stage ≠ .loaded errno false
  unnoted : ∀ request, state.main.unnoted request = true →
    state.noted request = false
  cleared : state.main = .clearingDump → state.shutdownRequested = false
  heard : ∀ request, state.main.listening = true →
    state.flag request = true → state.Heard request

section Steps

variable {capacity : Nat} {state state' : State}

theorem Main.Installs.published {main : Main} {installed : List Signum}
    (h : main.Installs installed) (hsome : installed ≠ []) :
    main.published = true ∧ main.writeEnd = true ∧ main.early = false := by
  cases main <;> first
    | exact ⟨rfl, rfl, rfl⟩
    | exact absurd h hsome

theorem Main.readEnd_of_listening {main : Main} (h : main.listening = true) :
    main.readEnd = true := by
  cases main <;> first
    | rfl
    | cases h

theorem sound_start (errno : Int) (shutdownRequested dumpRequested shutdown
    dumpPending : Bool) :
    Sound (.start errno shutdownRequested dumpRequested shutdown
      dumpPending) := by
  refine ⟨rfl, rfl, rfl, rfl, ?_, ?_, ?_, ?_, ?_⟩
  · exact fun h => absurd rfl h
  · intro frame hmem
    cases hmem
  · intro request h
    cases h
  · intro h
    cases h
  · intro request h
    cases h

theorem Sound.signal (h : Sound state) {signum : Signum}
    (hstep : state.step capacity (.signal signum) = some state') :
    Sound state' := by
  simp only [State.step, Option.ite_none_right_eq_some,
    Option.some.injEq] at hstep
  obtain ⟨⟨hinstalled, _⟩, rfl⟩ := hstep
  refine ⟨h.installs, h.published, h.writeEnd, h.readEnd, ?_, ?_, h.unnoted,
    h.cleared, ?_⟩
  · exact fun _ => List.ne_nil_of_mem hinstalled
  · intro frame hmem errno
    rcases List.mem_cons.mp hmem with rfl | hold
    · exact Stage.noConfusion
    · exact h.loaded frame hold errno
  · intro request _ _
    exact .inr (.inl ⟨_, List.mem_cons_self, rfl⟩)

theorem State.write_held (hcapacity : 0 < capacity) {failure : Int}
    (hread : state.pipe.readEnd = true) (hwrite : state.pipe.writeEnd = true) :
    0 < (state.write capacity failure).pipe.held := by
  simp only [State.write, hread, hwrite, Bool.and_self, Bool.true_and,
    decide_eq_true_eq]
  split
  · exact Nat.succ_pos _
  · rename_i hfull
    exact Nat.lt_of_lt_of_le hcapacity (Nat.le_of_not_lt hfull)

theorem State.write_rest (capacity : Nat) (failure : Int) (state : State) :
    ∃ held errno, state.write capacity failure =
      { state with pipe := { state.pipe with held := held }, errno := errno } ∧
      state.pipe.held ≤ held := by
  simp only [State.write]
  split
  · exact ⟨_, _, rfl, Nat.le_succ _⟩
  · exact ⟨state.pipe.held, failure, rfl, Nat.le_refl _⟩

theorem Sound.goOn (h : Sound state) {frame : Frame} {rest : List Frame}
    (hframes : state.frames = frame :: rest) {next : State} {stage : Stage}
    (hframe : next.frames = ⟨frame.signum, stage⟩ :: rest)
    (hmain : next.main = state.main)
    (hinstalled : next.installed = state.installed)
    (hwriteFd : next.writeFd = state.writeFd)
    (hwriteEnd : next.pipe.writeEnd = state.pipe.writeEnd)
    (hreadEnd : next.pipe.readEnd = state.pipe.readEnd)
    (hnoted : ∀ request, next.noted request = state.noted request)
    (hloaded : ∀ errno, stage ≠ .loaded errno false)
    (hheard : ∀ request, state.main.listening = true →
      next.flag request = true → next.Heard request) : Sound next := by
  have hsome : state.frames ≠ [] := by
    rw [hframes]
    exact List.cons_ne_nil _ _
  have hlate : state.main.early = false :=
    (h.installs.published (h.interrupted hsome)).2.2
  refine ⟨?_, ?_, ?_, ?_, ?_, ?_, ?_, ?_, ?_⟩
  · rw [hmain, hinstalled]
    exact h.installs
  · rw [hmain, hwriteFd]
    exact h.published
  · rw [hmain, hwriteEnd]
    exact h.writeEnd
  · rw [hmain, hreadEnd]
    exact h.readEnd
  · intro _
    rw [hinstalled]
    exact h.interrupted hsome
  · intro found hmem
    rw [hframe] at hmem
    rcases List.mem_cons.mp hmem with rfl | hold
    · exact hloaded
    · refine h.loaded found ?_
      rw [hframes]
      exact List.mem_cons_of_mem _ hold
  · intro request
    rw [hmain, hnoted]
    exact h.unnoted request
  · intro hclearing
    rw [← hmain, hclearing] at hlate
    cases hlate
  · intro request
    rw [hmain]
    exact hheard request

theorem Sound.handler (hcapacity : 0 < capacity) (h : Sound state)
    {failure : Int}
    (hstep : state.step capacity (.handler failure) = some state') :
    Sound state' := by
  simp only [State.step] at hstep
  split at hstep
  · cases hstep
  rename_i frame rest hframes
  cases hstep
  have hsome : state.frames ≠ [] := by
    rw [hframes]
    exact List.cons_ne_nil _ _
  obtain ⟨hpublished, hwrites, hearly⟩ :=
    h.installs.published (h.interrupted hsome)
  -- the byte that this call is still to write answers for every flag
  have hawake : ∀ {next : State} {stage : Stage} {request : Request},
      next.frames = ⟨frame.signum, stage⟩ :: rest →
      Frame.writes ⟨frame.signum, stage⟩ = true → next.Heard request := by
    intro next stage request hnext hwrite
    refine .inr (.inl ⟨_, ?_, hwrite⟩)
    rw [hnext]
    exact List.mem_cons_self
  unfold Frame.step
  cases hstage : frame.stage with
  | called =>
      refine h.goOn hframes rfl rfl rfl rfl rfl rfl (fun request => ?_) ?_
        fun _ _ _ => hawake rfl rfl
      · cases request <;> rfl
      · exact fun _ => Stage.noConfusion
  | saved errno =>
      dsimp only
      split
      · refine h.goOn hframes rfl rfl rfl rfl rfl rfl (fun request => ?_) ?_
          fun _ _ _ => hawake rfl rfl
        · cases request <;> rfl
        · exact fun _ => Stage.noConfusion
      · refine h.goOn hframes rfl rfl rfl rfl rfl rfl (fun request => ?_) ?_
          fun _ _ _ => hawake rfl rfl
        · cases request <;> rfl
        · exact fun _ => Stage.noConfusion
  | flagged errno =>
      refine h.goOn hframes rfl rfl rfl rfl rfl rfl (fun request => ?_) ?_
        fun _ _ _ => hawake rfl rfl
      · cases request <;> rfl
      · intro other hloaded
        have hfd := (Stage.loaded.inj hloaded).2
        rw [h.published, hpublished] at hfd
        cases hfd
  | loaded errno writeFd =>
      have hfd : writeFd = true := by
        cases writeFd with
        | true => rfl
        | false =>
            exact absurd hstage (h.loaded frame
              (by rw [hframes]; exact List.mem_cons_self) errno)
      subst hfd
      dsimp only
      rw [if_pos rfl]
      have hend : state.pipe.writeEnd = true := h.writeEnd.trans hwrites
      obtain ⟨held, left, hwrite, hle⟩ := state.write_rest capacity failure
      refine h.goOn hframes rfl ?_ ?_ ?_ ?_ ?_ ?_ ?_ ?_
      · rw [hwrite]
      · rw [hwrite]
      · rw [hwrite]
      · rw [hwrite]
      · rw [hwrite]
      · intro request
        rw [hwrite]
        cases request <;> rfl
      · exact fun _ => Stage.noConfusion
      · intro request hlistening _
        have hread : state.pipe.readEnd = true :=
          h.readEnd.trans (Main.readEnd_of_listening hlistening)
        exact .inl (State.write_held hcapacity hread hend)
  | written errno =>
      refine ⟨h.installs, h.published, h.writeEnd, h.readEnd, ?_, ?_, ?_,
        h.cleared, ?_⟩
      · exact fun _ => h.interrupted hsome
      · intro found hmem
        refine h.loaded found ?_
        rw [hframes]
        exact List.mem_cons_of_mem _ hmem
      · intro request
        cases request
        · exact h.unnoted .shutdown
        · exact h.unnoted .dump
      · intro request hlistening hflag
        have hold : state.flag request = true := by
          cases request
          · exact hflag
          · exact hflag
        obtain hheld | ⟨found, hmem, hwrite⟩ | hlooks :=
          h.heard request hlistening hold
        · exact .inl hheld
        · rw [hframes] at hmem
          rcases List.mem_cons.mp hmem with rfl | hrest
          · rw [Frame.writes, hstage] at hwrite
            cases hwrite
          · exact .inr (.inl ⟨found, hrest, hwrite⟩)
        · exact .inr (.inr hlooks)

theorem sound_idle {next : State} (hframes : next.frames = [])
    (hinstalls : next.main.Installs next.installed)
    (hpublished : next.writeFd = next.main.published)
    (hwriteEnd : next.pipe.writeEnd = next.main.writeEnd)
    (hreadEnd : next.pipe.readEnd = next.main.readEnd)
    (hunnoted : ∀ request, next.main.unnoted request = true →
      next.noted request = false)
    (hheard : ∀ request, next.main.listening = true →
      next.flag request = true →
      0 < next.pipe.held ∨ next.main.looks request = true)
    (hcleared : next.main = .clearingDump →
      next.shutdownRequested = false) : Sound next := by
  refine ⟨hinstalls, hpublished, hwriteEnd, hreadEnd, ?_, ?_, hunnoted,
    hcleared, ?_⟩
  · exact fun h => absurd hframes h
  · intro frame hmem
    rw [hframes] at hmem
    cases hmem
  · intro request hlistening hflag
    exact (hheard request hlistening hflag).imp id .inr

theorem Sound.mainStep (h : Sound state) (hframes : state.frames = [])
    (answer : Answer) : Sound (state.mainStep answer) := by
  have hheard : ∀ request, state.main.listening = true →
      state.flag request = true →
      0 < state.pipe.held ∨ state.main.looks request = true := by
    intro request hlistening hflag
    refine (h.heard request hlistening hflag).imp id fun hrest => ?_
    refine hrest.resolve_left ?_
    rw [hframes]
    rintro ⟨_, hmem, _⟩
    cases hmem
  have hno : ∀ {claim : Request → Prop} (request : Request),
      false = true → claim request :=
    fun _ h => absurd h Bool.false_ne_true
  obtain ⟨hinstalls, hpublished, hwriteEnd, hreadEnd, _, _, hunnoted,
    hcleared, _⟩ := h
  unfold State.mainStep
  cases hmain : state.main with
  | piping =>
      rw [hmain] at hinstalls hpublished hwriteEnd hreadEnd
      dsimp only
      split
      · exact sound_idle hframes hinstalls hpublished rfl rfl hno hno
          Main.noConfusion
      · exact sound_idle hframes hinstalls hpublished hwriteEnd hreadEnd hno
          hno Main.noConfusion
  | publishing =>
      rw [hmain] at hinstalls hpublished hwriteEnd hreadEnd
      dsimp only
      split
      · rename_i hbusy
        rw [hpublished] at hbusy
        cases hbusy
      · exact sound_idle hframes hinstalls rfl hwriteEnd hreadEnd hno hno
          Main.noConfusion
  | clearingShutdown =>
      rw [hmain] at hinstalls hpublished hwriteEnd hreadEnd
      exact sound_idle hframes hinstalls hpublished hwriteEnd hreadEnd hno hno
        fun _ => rfl
  | clearingDump =>
      rw [hmain] at hinstalls hpublished hwriteEnd hreadEnd
      refine sound_idle hframes ?_ hpublished hwriteEnd hreadEnd hno ?_
        Main.noConfusion
      · exact congrArg (· ++ handledSignals) hinstalls
      · intro request _ hflag
        cases request with
        | shutdown =>
            have hset : state.shutdownRequested = true := hflag
            rw [hcleared hmain] at hset
            cases hset
        | dump => cases hflag
  | installing rest =>
      rw [hmain] at hinstalls hpublished hwriteEnd hreadEnd hheard
      cases rest with
      | nil =>
          refine sound_idle hframes ?_ hpublished hwriteEnd hreadEnd hno hheard
            Main.noConfusion
          exact (List.append_nil _).symm.trans hinstalls
      | cons signum rest =>
          dsimp only
          split
          · refine sound_idle hframes ?_ hpublished hwriteEnd hreadEnd hno
              hheard Main.noConfusion
            exact (List.append_assoc _ _ _).trans hinstalls
          · exact sound_idle hframes rfl hpublished hwriteEnd hreadEnd hno hno
              Main.noConfusion
  | undoing rest =>
      rw [hmain] at hinstalls hpublished hwriteEnd hreadEnd
      cases rest with
      | nil =>
          exact sound_idle hframes hinstalls hpublished hwriteEnd hreadEnd hno
            hno Main.noConfusion
      | cons signum rest =>
          refine sound_idle hframes ?_ hpublished hwriteEnd hreadEnd hno hno
            Main.noConfusion
          exact (congrArg (List.erase · signum) hinstalls).trans
            (List.erase_cons_head _ _)
  | withdrawing =>
      rw [hmain] at hinstalls hwriteEnd hreadEnd
      exact sound_idle hframes hinstalls rfl hwriteEnd hreadEnd hno hno
        Main.noConfusion
  | abandoning =>
      rw [hmain] at hinstalls hpublished
      exact sound_idle hframes hinstalls hpublished rfl rfl hno hno
        Main.noConfusion
  | registering =>
      rw [hmain] at hinstalls hpublished hwriteEnd hreadEnd hheard
      dsimp only
      split
      · exact sound_idle hframes hinstalls hpublished hwriteEnd hreadEnd hno
          hheard Main.noConfusion
      · exact sound_idle hframes hinstalls hpublished hwriteEnd hreadEnd hno
          hno Main.noConfusion
  | refused =>
      rw [hmain] at hinstalls hpublished hwriteEnd
      exact sound_idle hframes hinstalls hpublished hwriteEnd rfl hno hno
        Main.noConfusion
  | resetting =>
      rw [hmain] at hinstalls hpublished hwriteEnd hreadEnd hheard
      refine sound_idle hframes hinstalls hpublished hwriteEnd hreadEnd ?_
        hheard Main.noConfusion
      intro request _
      cases request with
      | shutdown => rfl
      | dump => rfl
  | looping =>
      rw [hmain] at hinstalls hpublished hwriteEnd hreadEnd hunnoted hheard
      dsimp only
      split
      · exact sound_idle hframes hinstalls hpublished hwriteEnd hreadEnd hno
          hno Main.noConfusion
      · rename_i hgoing
        refine sound_idle hframes hinstalls hpublished hwriteEnd hreadEnd ?_
          hheard Main.noConfusion
        intro request _
        cases request with
        | shutdown => exact Bool.eq_false_iff.mpr hgoing
        | dump => exact hunnoted .dump rfl
  | waiting =>
      rw [hmain] at hinstalls hpublished hwriteEnd hreadEnd hunnoted hheard
      dsimp only
      split
      · exact sound_idle hframes hinstalls hpublished hwriteEnd hreadEnd
          hunnoted hheard Main.noConfusion
      · exact sound_idle hframes hinstalls hpublished hwriteEnd hreadEnd hno
          hno Main.noConfusion
  | dispatching reported =>
      rw [hmain] at hinstalls hpublished hwriteEnd hreadEnd hunnoted hheard
      dsimp only
      split
      · exact sound_idle hframes hinstalls hpublished hwriteEnd hreadEnd
          hunnoted (fun _ _ _ => .inr rfl) Main.noConfusion
      · exact sound_idle hframes hinstalls hpublished hwriteEnd hreadEnd hno
          hheard Main.noConfusion
  | draining =>
      rw [hmain] at hinstalls hpublished hwriteEnd hreadEnd hunnoted
      dsimp only
      split
      · exact sound_idle hframes hinstalls hpublished hwriteEnd hreadEnd
          hunnoted (fun _ _ _ => .inr rfl) Main.noConfusion
      · exact sound_idle hframes hinstalls hpublished hwriteEnd hreadEnd
          hunnoted (fun _ _ _ => .inr rfl) Main.noConfusion
  | swappingShutdown =>
      rw [hmain] at hinstalls hpublished hwriteEnd hreadEnd hunnoted
      refine sound_idle hframes hinstalls hpublished hwriteEnd hreadEnd ?_ ?_
        Main.noConfusion
      · intro request hdump
        cases request with
        | shutdown => cases hdump
        | dump => exact hunnoted .dump rfl
      · intro request _ hflag
        cases request with
        | shutdown => cases hflag
        | dump => exact .inr rfl
  | swappingDump =>
      rw [hmain] at hinstalls hpublished hwriteEnd hreadEnd hheard
      refine sound_idle hframes hinstalls hpublished hwriteEnd hreadEnd hno ?_
        Main.noConfusion
      intro request _ hflag
      cases request with
      | shutdown =>
          refine (hheard .shutdown rfl hflag).imp id fun hlooks => ?_
          cases hlooks
      | dump => cases hflag
  | polled =>
      rw [hmain] at hinstalls hpublished hwriteEnd hreadEnd hheard
      dsimp only
      split
      · refine sound_idle hframes hinstalls hpublished hwriteEnd hreadEnd ?_
          hheard Main.noConfusion
        intro request hdump
        cases request with
        | shutdown => cases hdump
        | dump => rfl
      · rename_i hidle
        refine sound_idle hframes hinstalls hpublished hwriteEnd hreadEnd ?_
          hheard Main.noConfusion
        intro request hdump
        cases request with
        | shutdown => cases hdump
        | dump => exact Bool.eq_false_iff.mpr hidle
  | restoring rest registered =>
      rw [hmain] at hinstalls hpublished hwriteEnd hreadEnd
      cases rest with
      | nil =>
          exact sound_idle hframes hinstalls hpublished hwriteEnd hreadEnd hno
            hno Main.noConfusion
      | cons signum rest =>
          refine sound_idle hframes ?_ hpublished hwriteEnd hreadEnd hno hno
            Main.noConfusion
          exact (congrArg (List.erase · signum) hinstalls).trans
            (List.erase_cons_head _ _)
  | unpublishing registered =>
      rw [hmain] at hinstalls hwriteEnd hreadEnd
      exact sound_idle hframes hinstalls rfl hwriteEnd hreadEnd hno hno
        Main.noConfusion
  | closing registered =>
      rw [hmain] at hinstalls hpublished hreadEnd
      cases registered with
      | true =>
          exact sound_idle hframes hinstalls hpublished rfl hreadEnd hno hno
            Main.noConfusion
      | false =>
          exact sound_idle hframes hinstalls hpublished rfl hreadEnd hno hno
            Main.noConfusion
  | unregistering =>
      rw [hmain] at hinstalls hpublished hwriteEnd
      exact sound_idle hframes hinstalls hpublished hwriteEnd rfl hno hno
        Main.noConfusion
  | finished =>
      exact sound_idle hframes hinstalls hpublished hwriteEnd hreadEnd hunnoted
        hheard hcleared

theorem Sound.step (hcapacity : 0 < capacity) (h : Sound state)
    {action : Action} (hstep : state.step capacity action = some state') :
    Sound state' := by
  cases action with
  | signal signum => exact h.signal hstep
  | handler failure => exact h.handler hcapacity hstep
  | main answer =>
      simp only [State.step] at hstep
      split at hstep
      · rename_i hframes
        cases hstep
        exact h.mainStep hframes answer
      · cases hstep

/-! ## Requests from step to step -/

/-- How often the reactor answered it; a shutdown is not counted. -/
def State.answers (state : State) : Request → Nat
  | .shutdown => 0
  | .dump => state.dumps

inductive Moved (request : Request) (state state' : State) : Prop where
  | ended (hended : state'.main.ended = true)
      (hanswers : state'.answers request = state.answers request)
  | kept (hearly : state'.main.early = state.main.early)
      (hserving : state'.main.serving = state.main.serving)
      (hlistening : state'.main.listening = state.main.listening)
      (hflag : state.main.early = false →
        state'.flag request = state.flag request)
      (hnoted : state'.noted request = state.noted request)
      (hanswers : state'.answers request = state.answers request)
  | began (hearly : state.main.early = true)
      (hlistening : state'.main.listening = true)
      (hserving : state'.main.serving = false)
      (hflag : state'.flag request = false)
      (hanswers : state'.answers request = state.answers request)
  | reset (hlistening : state.main.listening = true)
      (hserved : state.main.serving = false)
      (hserving : state'.main.serving = true)
      (hflag : state'.flag request = state.flag request)
      (hnoted : state'.noted request = false)
      (hanswers : state'.answers request = state.answers request)
  | noted (hserved : state.main.serving = true)
      (hserving : state'.main.serving = true)
      (hflag : state'.flag request = false)
      (hnoted : state'.noted request =
        (state.noted request || state.flag request))
      (hanswers : state'.answers request = state.answers request)
  | dumped (hdump : request = .dump) (hserved : state.main.serving = true)
      (hserving : state'.main.serving = true)
      (hflag : state'.flag request = state.flag request)
      (hwas : state.noted request = true)
      (hnoted : state'.noted request = false)
      (hanswers : state'.answers request = state.answers request + 1)

theorem moved_kept {next : State} {request : Request}
    (hearly : next.main.early = state.main.early)
    (hserving : next.main.serving = state.main.serving)
    (hlistening : next.main.listening = state.main.listening)
    (hshutdownRequested : next.shutdownRequested = state.shutdownRequested)
    (hdumpRequested : next.dumpRequested = state.dumpRequested)
    (hshutdown : next.shutdown = state.shutdown)
    (hdumpPending : next.dumpPending = state.dumpPending)
    (hdumps : next.dumps = state.dumps) : Moved request state next := by
  cases request with
  | shutdown =>
      exact .kept hearly hserving hlistening (fun _ => hshutdownRequested)
        hshutdown rfl
  | dump =>
      exact .kept hearly hserving hlistening (fun _ => hdumpRequested)
        hdumpPending hdumps

theorem moved_over {next : State} {request : Request}
    (hended : next.main.ended = true) (hdumps : next.dumps = state.dumps) :
    Moved request state next := by
  cases request with
  | shutdown => exact .ended hended rfl
  | dump => exact .ended hended hdumps

theorem mainStep_moved (h : Sound state) (answer : Answer)
    (request : Request) : Moved request state (state.mainStep answer) := by
  have hcleared := h.cleared
  clear h
  obtain ⟨errno, writeFd, shutdownRequested, dumpRequested, installed, pipe,
    frames, main, shutdown, dumpPending, dumps⟩ := state
  unfold State.mainStep
  cases main with
  | piping =>
      dsimp only
      split
      · exact moved_kept rfl rfl rfl rfl rfl rfl rfl rfl
      · exact moved_over rfl rfl
  | publishing =>
      dsimp only
      split
      · exact moved_over rfl rfl
      · exact moved_kept rfl rfl rfl rfl rfl rfl rfl rfl
  | clearingShutdown =>
      cases request with
      | shutdown => exact .kept rfl rfl rfl Bool.noConfusion rfl rfl
      | dump => exact .kept rfl rfl rfl Bool.noConfusion rfl rfl
  | clearingDump =>
      cases request with
      | shutdown => exact .began rfl rfl rfl (hcleared rfl) rfl
      | dump => exact .began rfl rfl rfl rfl rfl
  | installing rest =>
      cases rest with
      | nil => exact moved_kept rfl rfl rfl rfl rfl rfl rfl rfl
      | cons signum rest =>
          dsimp only
          split
          · exact moved_kept rfl rfl rfl rfl rfl rfl rfl rfl
          · exact moved_over rfl rfl
  | registering =>
      dsimp only
      split
      · exact moved_kept rfl rfl rfl rfl rfl rfl rfl rfl
      · exact moved_over rfl rfl
  | resetting =>
      cases request with
      | shutdown => exact .reset rfl rfl rfl rfl rfl rfl
      | dump => exact .reset rfl rfl rfl rfl rfl rfl
  | looping =>
      dsimp only
      split
      · exact moved_over rfl rfl
      · exact moved_kept rfl rfl rfl rfl rfl rfl rfl rfl
  | waiting =>
      dsimp only
      split
      · exact moved_kept rfl rfl rfl rfl rfl rfl rfl rfl
      · exact moved_over rfl rfl
  | dispatching reported =>
      dsimp only
      split
      · exact moved_kept rfl rfl rfl rfl rfl rfl rfl rfl
      · exact moved_kept rfl rfl rfl rfl rfl rfl rfl rfl
  | draining =>
      dsimp only
      split
      · exact moved_kept rfl rfl rfl rfl rfl rfl rfl rfl
      · exact moved_kept rfl rfl rfl rfl rfl rfl rfl rfl
  | swappingShutdown =>
      cases request with
      | shutdown => exact .noted rfl rfl rfl rfl rfl
      | dump => exact .kept rfl rfl rfl (fun _ => rfl) rfl rfl
  | swappingDump =>
      cases request with
      | shutdown => exact .kept rfl rfl rfl (fun _ => rfl) rfl rfl
      | dump => exact .noted rfl rfl rfl rfl rfl
  | polled =>
      dsimp only
      split
      · rename_i hpending
        cases request with
        | shutdown => exact .kept rfl rfl rfl (fun _ => rfl) rfl rfl
        | dump => exact .dumped rfl rfl rfl rfl hpending rfl rfl
      · exact moved_kept rfl rfl rfl rfl rfl rfl rfl rfl
  | undoing rest =>
      cases rest with
      | nil => exact moved_over rfl rfl
      | cons signum rest => exact moved_over rfl rfl
  | restoring rest registered =>
      cases rest with
      | nil => exact moved_over rfl rfl
      | cons signum rest => exact moved_over rfl rfl
  | closing registered =>
      cases registered with
      | true => exact moved_over rfl rfl
      | false => exact moved_over rfl rfl
  | withdrawing => exact moved_over rfl rfl
  | abandoning => exact moved_over rfl rfl
  | refused => exact moved_over rfl rfl
  | unpublishing registered => exact moved_over rfl rfl
  | unregistering => exact moved_over rfl rfl
  | finished => exact moved_over rfl rfl

def State.raising (state : State) (request : Request) : Nat :=
  state.frames.countP (Frame.raises request)

structure Handled (request : Request) (state state' : State) : Prop where
  main : state'.main = state.main
  noted : state'.noted request = state.noted request
  answers : state'.answers request = state.answers request
  flag : (state'.flag request = state.flag request ∧
      state'.raising request = state.raising request) ∨
    (state'.flag request = true ∧
      state.raising request = state'.raising request + 1)

theorem handled_stage {frame : Frame} {rest : List Frame} {next : State}
    {request : Request} {stage : Stage}
    (hframes : state.frames = frame :: rest)
    (hnext : next.frames = ⟨frame.signum, stage⟩ :: rest)
    (hmain : next.main = state.main)
    (hnoted : next.noted request = state.noted request)
    (hanswers : next.answers request = state.answers request)
    (hflag : next.flag request = state.flag request)
    (hraises : Frame.raises request ⟨frame.signum, stage⟩ =
      Frame.raises request frame) : Handled request state next := by
  refine ⟨hmain, hnoted, hanswers, .inl ⟨hflag, ?_⟩⟩
  rw [State.raising, State.raising, hnext, hframes, List.countP_cons,
    List.countP_cons, hraises]

theorem handler_handled {failure : Int}
    (hstep : state.step capacity (.handler failure) = some state')
    (request : Request) : Handled request state state' := by
  simp only [State.step] at hstep
  split at hstep
  · cases hstep
  rename_i frame rest hframes
  cases hstep
  have hsame : ∀ {next : State}, next.shutdown = state.shutdown →
      next.dumpPending = state.dumpPending → next.dumps = state.dumps →
      next.noted request = state.noted request ∧
        next.answers request = state.answers request := by
    intro next hshutdown hdumpPending hdumps
    cases request with
    | shutdown => exact ⟨hshutdown, rfl⟩
    | dump => exact ⟨hdumpPending, hdumps⟩
  unfold Frame.step
  cases hstage : frame.stage with
  | called =>
      refine handled_stage hframes rfl rfl (hsame rfl rfl rfl).1
        (hsame rfl rfl rfl).2 (by cases request <;> rfl) ?_
      simp only [Frame.raises, hstage]
  | saved errno =>
      have hraised : ∀ {next : State},
          next.frames = ⟨frame.signum, .flagged errno⟩ :: rest →
          frame.signum.request = request →
          state.raising request = next.raising request + 1 := by
        intro next hnext hrequest
        simp [State.raising, hnext, hframes, Frame.raises,
          hstage, hrequest]
      have hother : ∀ {next : State},
          next.frames = ⟨frame.signum, .flagged errno⟩ :: rest →
          frame.signum.request ≠ request →
          next.raising request = state.raising request := by
        intro next hnext hrequest
        simp [State.raising, hnext, hframes, Frame.raises,
          hstage, hrequest]
      dsimp only
      split
      · rename_i hdump
        have hrequest : frame.signum.request = .dump := if_pos hdump
        cases request with
        | shutdown =>
            refine ⟨rfl, rfl, rfl, .inl ⟨rfl, hother rfl ?_⟩⟩
            rw [hrequest]
            exact Request.noConfusion
        | dump => exact ⟨rfl, rfl, rfl, .inr ⟨rfl, hraised rfl hrequest⟩⟩
      · rename_i hstop
        have hrequest : frame.signum.request = .shutdown := if_neg hstop
        cases request with
        | shutdown => exact ⟨rfl, rfl, rfl, .inr ⟨rfl, hraised rfl hrequest⟩⟩
        | dump =>
            refine ⟨rfl, rfl, rfl, .inl ⟨rfl, hother rfl ?_⟩⟩
            rw [hrequest]
            exact Request.noConfusion
  | flagged errno =>
      refine handled_stage hframes rfl rfl (hsame rfl rfl rfl).1
        (hsame rfl rfl rfl).2 (by cases request <;> rfl) ?_
      simp only [Frame.raises, hstage]
  | loaded errno writeFd =>
      dsimp only
      split
      · obtain ⟨held, left, hwrite, _⟩ := state.write_rest capacity failure
        rw [hwrite]
        refine handled_stage hframes rfl rfl (hsame rfl rfl rfl).1
          (hsame rfl rfl rfl).2 (by cases request <;> rfl) ?_
        simp only [Frame.raises, hstage]
      · refine handled_stage hframes rfl rfl (hsame rfl rfl rfl).1
          (hsame rfl rfl rfl).2 (by cases request <;> rfl) ?_
        simp only [Frame.raises, hstage]
  | written errno =>
      refine ⟨rfl, (hsame rfl rfl rfl).1, (hsame rfl rfl rfl).2,
        .inl ⟨by cases request <;> rfl, ?_⟩⟩
      rw [State.raising, State.raising, hframes, List.countP_cons]
      simp only [Frame.raises, hstage, Bool.false_eq_true, if_false,
        Nat.add_zero]

/-! ## Requests over a run -/

theorem Main.listening_of_serving {main : Main} (h : main.serving = true) :
    main.listening = true := by
  cases main <;> first
    | rfl
    | cases h

theorem Main.late_of_listening {main : Main} (h : main.listening = true) :
    main.early = false := by
  cases main <;> first
    | rfl
    | cases h

theorem Main.over_iff {main : Main} :
    main.ended = true ↔ main.early = false ∧ main.listening = false := by
  simp [Main.ended]

theorem mainStep_frames (answer : Answer) (state : State) :
    (state.mainStep answer).frames = state.frames := by
  unfold State.mainStep
  split <;> first
    | rfl
    | (split <;> rfl)

theorem mainStep_raising (answer : Answer) (state : State)
    (request : Request) :
    (state.mainStep answer).raising request = state.raising request := by
  rw [State.raising, mainStep_frames, ← State.raising]

theorem step_main {answer : Answer}
    (hstep : state.step capacity (.main answer) = some state') :
    state' = state.mainStep answer := by
  simp only [State.step] at hstep
  split at hstep
  · exact (Option.some.inj hstep).symm
  · cases hstep

theorem step_signal {signum : Signum}
    (hstep : state.step capacity (.signal signum) = some state') :
    signum ∈ state.installed ∧
      state' = { state with frames := ⟨signum, .called⟩ :: state.frames } := by
  simp only [State.step, Option.ite_none_right_eq_some,
    Option.some.injEq] at hstep
  exact ⟨hstep.1.1, hstep.2.symm⟩

theorem signal_raising (signum : Signum) (request : Request) :
    State.raising { state with frames := ⟨signum, .called⟩ :: state.frames }
        request =
      state.raising request +
        (Action.asks request (.signal signum)).toNat := by
  rw [State.raising, State.raising, List.countP_cons]
  simp only [Frame.raises, Action.asks, decide_eq_true_eq]
  by_cases hrequest : signum.request = request
  · simp [hrequest]
  · simp [hrequest]

/-- The request was made and is not answered yet, or `run` is on its way out. -/
structure Pending (request : Request) (state : State) : Prop where
  late : state.main.early = false
  pends : state.main.ended = true ∨ state.flag request = true ∨
    0 < state.raising request ∨
    (state.main.serving = true ∧ state.noted request = true)

theorem Pending.step (hsound : Sound state) {request : Request}
    (h : Pending request state) {action : Action}
    (hstep : state.step capacity action = some state') :
    Pending request state' ∨
      state'.answers request = state.answers request + 1 := by
  cases action with
  | signal signum =>
      obtain ⟨_, rfl⟩ := step_signal hstep
      refine .inl ⟨h.late, ?_⟩
      obtain hended | hflag | hraising | hnoted := h.pends
      · exact .inl hended
      · refine .inr (.inl ?_)
        cases request
        · exact hflag
        · exact hflag
      · refine .inr (.inr (.inl ?_))
        rw [signal_raising]
        exact Nat.add_pos_left hraising _
      · refine .inr (.inr (.inr ⟨hnoted.1, ?_⟩))
        cases request
        · exact hnoted.2
        · exact hnoted.2
  | handler failure =>
      have hhandled := handler_handled hstep request
      refine .inl ⟨by rw [hhandled.main]; exact h.late, ?_⟩
      rw [hhandled.main, hhandled.noted]
      obtain ⟨hflag, hraising⟩ | ⟨hflag, _⟩ := hhandled.flag
      · rw [hflag, hraising]
        exact h.pends
      · exact .inr (.inl hflag)
  | main answer =>
      obtain rfl := step_main hstep
      have hraising := mainStep_raising answer state request
      cases mainStep_moved hsound answer request with
      | ended hended =>
          exact .inl ⟨(Main.over_iff.mp hended).1, .inl hended⟩
      | kept hearly hserving hlistening hflag hnoted =>
          refine .inl ⟨hearly.trans h.late, ?_⟩
          rw [Main.over_iff, hearly, hlistening, ← Main.over_iff,
            hflag h.late, hraising, hserving, hnoted]
          exact h.pends
      | began hearly =>
          rw [h.late] at hearly
          cases hearly
      | reset hlistening hserved hserving hflag hnoted =>
          have hlate :=
            Main.late_of_listening (Main.listening_of_serving hserving)
          refine .inl ⟨hlate, ?_⟩
          rw [hflag, hraising]
          obtain hended | hset | hcalled | hold := h.pends
          · rw [Main.over_iff, hlistening] at hended
            cases hended.2
          · exact .inr (.inl hset)
          · exact .inr (.inr (.inl hcalled))
          · rw [hserved] at hold
            cases hold.1
      | noted hserved hserving hflag hnoted =>
          have hlate :=
            Main.late_of_listening (Main.listening_of_serving hserving)
          refine .inl ⟨hlate, ?_⟩
          rw [hraising, hnoted]
          obtain hended | hset | hcalled | hold := h.pends
          · rw [Main.over_iff, Main.listening_of_serving hserved] at hended
            cases hended.2
          · exact .inr (.inr (.inr ⟨hserving, by rw [hset, Bool.or_true]⟩))
          · exact .inr (.inr (.inl hcalled))
          · exact .inr (.inr (.inr ⟨hserving, by rw [hold.2, Bool.true_or]⟩))
      | dumped _ _ _ _ _ _ hanswers => exact .inr hanswers

def State.weight (state : State) (request : Request) : Nat :=
  (if state.main.listening then (state.flag request).toNat else 0) +
    (if state.main.serving then (state.noted request).toNat else 0) +
    state.raising request + state.answers request

theorem weight_step (hsound : Sound state) (request : Request)
    {action : Action} (hstep : state.step capacity action = some state') :
    state'.weight request ≤
      state.weight request + (action.asks request).toNat := by
  cases action with
  | signal signum =>
      obtain ⟨_, rfl⟩ := step_signal hstep
      simp only [State.weight, signal_raising]
      cases request
      · simp only [State.flag, State.noted, State.answers]
        omega
      · simp only [State.flag, State.noted, State.answers]
        omega
  | handler failure =>
      have hhandled := handler_handled hstep request
      simp only [State.weight, hhandled.main, hhandled.noted,
        hhandled.answers]
      obtain ⟨hflag, hraising⟩ | ⟨hflag, hraising⟩ := hhandled.flag
      · rw [hflag, hraising]
        exact Nat.le_add_right _ _
      · rw [hflag, hraising, Bool.toNat_true]
        split <;> omega
  | main answer =>
      obtain rfl := step_main hstep
      simp only [State.weight, mainStep_raising]
      cases mainStep_moved hsound answer request with
      | ended hended hanswers =>
          have hdeaf := (Main.over_iff.mp hended).2
          have hidle : (state.mainStep answer).main.serving = false := by
            by_contra hserving
            rw [Main.listening_of_serving (by simpa using hserving)] at hdeaf
            cases hdeaf
          rw [hdeaf, hidle, hanswers]
          simp only [Bool.false_eq_true, if_false]
          omega
      | kept hearly hserving hlistening hflag hnoted hanswers =>
          rw [hserving, hlistening, hnoted, hanswers]
          by_cases hlistens : state.main.listening = true
          · rw [hflag (Main.late_of_listening hlistens)]
            exact Nat.le_add_right _ _
          · simp only [hlistens, if_false, Bool.false_eq_true]
            exact Nat.le_add_right _ _
      | began hearly hlistening hserving hflag hanswers =>
          rw [hserving, hflag, hanswers]
          simp only [Bool.false_eq_true, if_false, Bool.toNat_false, ite_self]
          omega
      | reset hlistening hserved hserving hflag hnoted hanswers =>
          rw [Main.listening_of_serving hserving, hflag, hnoted, hanswers,
            hlistening, Bool.toNat_false, ite_self]
          omega
      | noted hserved hserving hflag hnoted hanswers =>
          have hjoined : (state.noted request || state.flag request).toNat ≤
              (state.flag request).toNat + (state.noted request).toNat := by
            cases state.noted request <;> cases state.flag request <;> decide
          rw [hflag, hnoted, hanswers, hserved, hserving,
            Main.listening_of_serving hserved, Bool.toNat_false, ite_self]
          simp only [if_true]
          omega
      | dumped _ hserved hserving hflag hwas hnoted hanswers =>
          rw [hflag, hnoted, hanswers, hserved, hserving, hwas,
            Main.listening_of_serving hserved,
            Main.listening_of_serving hserving, Bool.toNat_false,
            Bool.toNat_true, ite_self]
          simp only [if_true]
          omega

end Steps

/-! ## Runs -/

section Runs

variable {capacity : Nat} {state state' : State}

theorem run_cons {action : Action} {actions : List Action}
    (h : state.run capacity (action :: actions) = some state') :
    ∃ between, state.step capacity action = some between ∧
      between.run capacity actions = some state' :=
  Option.bind_eq_some_iff.mp h

theorem run_append {before after : List Action}
    (h : state.run capacity (before ++ after) = some state') :
    ∃ between, state.run capacity before = some between ∧
      between.run capacity after = some state' := by
  induction before generalizing state with
  | nil => exact ⟨state, rfl, h⟩
  | cons action before ih =>
      obtain ⟨next, hstep, hrest⟩ := run_cons h
      obtain ⟨between, hbefore, hafter⟩ := ih hrest
      exact ⟨between, Option.bind_eq_some_iff.mpr ⟨next, hstep, hbefore⟩,
        hafter⟩

theorem Sound.run (hcapacity : 0 < capacity) (h : Sound state)
    {actions : List Action} (hrun : state.run capacity actions = some state') :
    Sound state' := by
  induction actions generalizing state with
  | nil =>
      cases hrun
      exact h
  | cons action actions ih =>
      obtain ⟨next, hstep, hrest⟩ := run_cons hrun
      exact ih (h.step hcapacity hstep) hrest

theorem answers_step (hsound : Sound state) (request : Request)
    {action : Action} (hstep : state.step capacity action = some state') :
    state.answers request ≤ state'.answers request := by
  cases action with
  | signal signum =>
      obtain ⟨_, rfl⟩ := step_signal hstep
      cases request
      · exact Nat.le_refl _
      · exact Nat.le_refl _
  | handler failure =>
      exact Nat.le_of_eq (handler_handled hstep request).answers.symm
  | main answer =>
      obtain rfl := step_main hstep
      cases mainStep_moved hsound answer request <;> omega

theorem weight_run (hcapacity : 0 < capacity) (h : Sound state)
    (request : Request) {actions : List Action}
    (hrun : state.run capacity actions = some state') :
    state'.weight request ≤
      state.weight request + actions.countP (Action.asks request) := by
  induction actions generalizing state with
  | nil =>
      cases hrun
      exact Nat.le_add_right _ _
  | cons action actions ih =>
      obtain ⟨next, hstep, hrest⟩ := run_cons hrun
      have hfirst := weight_step h request hstep
      have hlater := ih (h.step hcapacity hstep) hrest
      rw [List.countP_cons]
      cases hasks : action.asks request
      · simp only [hasks, Bool.toNat_false] at hfirst
        simp only [Bool.false_eq_true, if_false]
        omega
      · simp only [hasks, Bool.toNat_true] at hfirst
        simp only [if_true]
        omega

theorem answers_run (hcapacity : 0 < capacity) (hsound : Sound state)
    (request : Request) {actions : List Action}
    (hrun : state.run capacity actions = some state') :
    state.answers request ≤ state'.answers request := by
  induction actions generalizing state with
  | nil =>
      cases hrun
      exact Nat.le_refl _
  | cons action actions ih =>
      obtain ⟨next, hstep, hrest⟩ := run_cons hrun
      exact Nat.le_trans (answers_step hsound request hstep)
        (ih (hsound.step hcapacity hstep) hrest)

theorem Pending.run (hcapacity : 0 < capacity) (hsound : Sound state)
    {request : Request} (h : Pending request state) {actions : List Action}
    (hrun : state.run capacity actions = some state') :
    Pending request state' ∨
      state.answers request < state'.answers request := by
  induction actions generalizing state with
  | nil =>
      cases hrun
      exact .inl h
  | cons action actions ih =>
      obtain ⟨next, hstep, hrest⟩ := run_cons hrun
      have hnext := hsound.step hcapacity hstep
      obtain hpends | hanswered := h.step hsound hstep
      · refine (ih hnext hpends hrest).imp id fun hlater => ?_
        exact Nat.lt_of_le_of_lt (answers_step hsound request hstep) hlater
      · have hlater := answers_run hcapacity hnext request hrest
        right
        omega

theorem Sound.idle (h : Sound state) (hmain : state.main = .waiting)
    (hframes : state.frames = []) (hheld : state.pipe.held = 0)
    (request : Request) : ¬Pending request state := by
  intro hpending
  have hraising : state.raising request = 0 := by
    rw [State.raising, hframes]
    rfl
  obtain hended | hflag | hraised | ⟨_, hnoted⟩ := hpending.pends
  · rw [hmain] at hended
    cases hended
  · obtain hsome | ⟨frame, hmem, _⟩ | hlooks :=
      h.heard request (by rw [hmain]; rfl) hflag
    · omega
    · rw [hframes] at hmem
      cases hmem
    · rw [hmain] at hlooks
      cases hlooks
  · omega
  · rw [h.unnoted request (by rw [hmain]; rfl)] at hnoted
    cases hnoted

theorem pending_signal (h : Sound state) {signum : Signum}
    (hstep : state.step capacity (.signal signum) = some state') :
    Pending signum.request state' := by
  obtain ⟨hinstalled, rfl⟩ := step_signal hstep
  refine ⟨(h.installs.published (List.ne_nil_of_mem hinstalled)).2.2, ?_⟩
  refine .inr (.inr (.inl ?_))
  rw [signal_raising]
  simp [Action.asks]

theorem signal_pends (hcapacity : 0 < capacity) (h : Sound state)
    {before after : List Action} {signum : Signum} {earlier : State}
    (hearlier : state.run capacity before = some earlier)
    (hrun : state.run capacity (before ++ .signal signum :: after) =
      some state') :
    Pending signum.request state' ∨
      earlier.answers signum.request < state'.answers signum.request := by
  obtain ⟨between, hbefore, hrest⟩ := run_append hrun
  rw [hearlier, Option.some.injEq] at hbefore
  subst hbefore
  obtain ⟨next, hstep, hafter⟩ := run_cons hrest
  have hsound := h.run hcapacity hearlier
  refine ((pending_signal hsound hstep).run hcapacity
    (hsound.step hcapacity hstep) hafter).imp id fun hlater => ?_
  exact Nat.lt_of_le_of_lt (answers_step hsound _ hstep) hlater

theorem weight_start (errno : Int) (shutdownRequested dumpRequested shutdown
    dumpPending : Bool) (request : Request) :
    (State.start errno shutdownRequested dumpRequested shutdown
      dumpPending).weight request = 0 := by
  cases request with
  | shutdown => rfl
  | dump => rfl

/-- Over every run, from whatever an earlier guard left, and however signals
interrupt the program and each other: where the reactor waits with nothing to
read and no handler is under way, no signal to stop was ever delivered, and
each request for a dump was followed by one.  The reactor is to stop only if
such a signal was delivered, and dumps at most once for each request. -/
theorem signals_answered (hcapacity : 0 < capacity) (errno : Int)
    (shutdownRequested dumpRequested shutdown dumpPending : Bool)
    {actions : List Action}
    (hrun : (State.start errno shutdownRequested dumpRequested shutdown
      dumpPending).run capacity actions = some state) :
    (state.main = .waiting → state.frames = [] → state.pipe.held = 0 →
      (∀ signum, .signal signum ∈ actions → signum = dumpSignal) ∧
      ∀ before after earlier,
        actions = before ++ .signal dumpSignal :: after →
        (State.start errno shutdownRequested dumpRequested shutdown
          dumpPending).run capacity before = some earlier →
        earlier.dumps < state.dumps) ∧
    (state.main.serving = true → state.shutdown = true →
      ∃ signum, .signal signum ∈ actions ∧ signum ≠ dumpSignal) ∧
    state.dumps ≤ actions.count (.signal dumpSignal) := by
  have hstart := sound_start errno shutdownRequested dumpRequested shutdown
    dumpPending
  have hend := hstart.run hcapacity hrun
  have hweight := fun request => weight_run hcapacity hstart request hrun
  simp only [weight_start, Nat.zero_add] at hweight
  refine ⟨fun hmain hframes hheld => ⟨?_, ?_⟩, ?_, ?_⟩
  · intro signum hmem
    obtain ⟨before, after, rfl⟩ := List.append_of_mem hmem
    obtain ⟨earlier, hearlier, _⟩ := run_append hrun
    by_contra hstop
    have hrequest : signum.request = .shutdown := if_neg hstop
    obtain hpends | hanswered := signal_pends hcapacity hstart hearlier hrun
    · exact hend.idle hmain hframes hheld _ hpends
    · rw [hrequest] at hanswered
      exact absurd hanswered (Nat.lt_irrefl 0)
  · intro before after earlier hsplit hearlier
    subst hsplit
    exact (signal_pends hcapacity hstart hearlier hrun).resolve_left
      (hend.idle hmain hframes hheld _)
  · intro hserving hshutdown
    have hcount := hweight .shutdown
    simp only [State.weight, hserving, State.noted, hshutdown,
      Bool.toNat_true, if_true] at hcount
    obtain ⟨action, hmem, hasks⟩ := List.countP_pos_iff.mp
      (show 0 < actions.countP (Action.asks .shutdown) by omega)
    cases action with
    | signal signum =>
        refine ⟨signum, hmem, ?_⟩
        rintro rfl
        cases hasks
    | handler failure => cases hasks
    | main answer => cases hasks
  · have hcount := hweight .dump
    have hsame : actions.countP (Action.asks .dump) =
        actions.count (.signal dumpSignal) := by
      refine List.countP_congr fun action _ => ?_
      cases action with
      | signal signum => cases signum <;> decide
      | handler failure => simp [Action.asks]
      | main answer => simp [Action.asks]
    rw [hsame] at hcount
    simp only [State.weight, State.answers] at hcount
    omega

end Runs

/-- A dump is asked for, and its handler interrupted by SIGTERM's. -/
def nestedSignals : List Action :=
  List.replicate 11 (.main ⟨true, 0, true⟩) ++
    [.signal .sigusr1, .handler 11, .signal .sigterm] ++
    List.replicate 9 (.handler 11) ++ List.replicate 7 (.main ⟨true, 0, true⟩)

/-- A dump is asked for, and another once the first is on its way. -/
def dumpSignals : List Action :=
  List.replicate 11 (.main ⟨true, 0, true⟩) ++ [.signal .sigusr1] ++
    List.replicate 5 (.handler 11) ++
    List.replicate 6 (.main ⟨true, 0, true⟩) ++ [.signal .sigusr1] ++
    List.replicate 5 (.handler 11) ++ List.replicate 10 (.main ⟨true, 0, true⟩)

theorem signals_answered_nested :
    (∃ state, (State.start 7 true true true true).run 65536 nestedSignals =
        some state ∧
      state.main = .looping ∧ state.shutdown = true ∧ state.dumps = 1 ∧
      (∃ signum, .signal signum ∈ nestedSignals ∧ signum ≠ dumpSignal) ∧
      state.dumps ≤ nestedSignals.count (.signal dumpSignal)) ∧
    ∃ state, (State.start 7 true true true true).run 65536 dumpSignals =
        some state ∧
      state.main = .waiting ∧ state.frames = [] ∧ state.pipe.held = 0 ∧
      state.dumps = 2 ∧
      (∀ signum, .signal signum ∈ dumpSignals → signum = dumpSignal) ∧
      ∀ before after earlier,
        dumpSignals = before ++ .signal dumpSignal :: after →
        (State.start 7 true true true true).run 65536 before = some earlier →
        earlier.dumps < state.dumps := by
  constructor
  · have hrun : ∃ state, (State.start 7 true true true true).run 65536
        nestedSignals = some state ∧ state.main = .looping ∧
        state.shutdown = true ∧ state.dumps = 1 :=
      ⟨_, rfl, rfl, rfl, rfl⟩
    obtain ⟨state, hrun, hmain, hshutdown, hdumps⟩ := hrun
    obtain ⟨_, hstop, hcount⟩ := signals_answered (by decide) 7 true true true
      true hrun
    exact ⟨state, hrun, hmain, hshutdown, hdumps,
      hstop (by rw [hmain]; rfl) hshutdown, hcount⟩
  · have hrun : ∃ state, (State.start 7 true true true true).run 65536
        dumpSignals = some state ∧ state.main = .waiting ∧
        state.frames = [] ∧ state.pipe.held = 0 ∧ state.dumps = 2 :=
      ⟨_, rfl, rfl, rfl, rfl, rfl⟩
    obtain ⟨state, hrun, hmain, hframes, hheld, hdumps⟩ := hrun
    obtain ⟨hidle, _⟩ := signals_answered (by decide) 7 true true true true
      hrun
    exact ⟨state, hrun, hmain, hframes, hheld, hdumps,
      hidle hmain hframes hheld⟩

/-! ## What a handler leaves behind -/

def Frame.restores (errno : Int) (frame : Frame) : Int :=
  match frame.stage with
  | .called => errno
  | .saved saved | .flagged saved | .loaded saved _ | .written saved => saved

def State.settled (state : State) : Int :=
  state.frames.foldl Frame.restores state.errno

def Action.interrupts : Action → Bool
  | .signal _ | .handler _ => true
  | .main _ => false

/-- The flags and the bytes are all that differs. -/
structure Interrupted (state state' : State) : Prop where
  rest : ∃ errno shutdownRequested dumpRequested held frames, state' =
    { state with
      errno := errno
      shutdownRequested := shutdownRequested
      dumpRequested := dumpRequested
      pipe := { state.pipe with held := held }
      frames := frames }
  held : state.pipe.held ≤ state'.pipe.held
  settled : state'.settled = state.settled

section Traces

variable {capacity : Nat} {state state' : State}

theorem Interrupted.trans {state'' : State} (h : Interrupted state state')
    (h' : Interrupted state' state'') : Interrupted state state'' := by
  obtain ⟨errno, shutdownRequested, dumpRequested, held, frames, rfl⟩ := h.rest
  obtain ⟨errno', shutdownRequested', dumpRequested', held', frames', rfl⟩ :=
    h'.rest
  exact ⟨⟨_, _, _, _, _, rfl⟩, Nat.le_trans h.held h'.held,
    h'.settled.trans h.settled⟩

theorem handler_interrupted {failure : Int}
    (hstep : state.step capacity (.handler failure) = some state') :
    Interrupted state state' := by
  simp only [State.step] at hstep
  split at hstep
  · cases hstep
  rename_i frame rest hframes
  cases hstep
  have hsettled : ∀ {next : State} {stage : Stage},
      next.frames = ⟨frame.signum, stage⟩ :: rest →
      Frame.restores next.errno ⟨frame.signum, stage⟩ =
        Frame.restores state.errno frame → next.settled = state.settled := by
    intro next stage hnext hsame
    rw [State.settled, State.settled, hnext, hframes, List.foldl_cons,
      List.foldl_cons, hsame]
  unfold Frame.step
  cases hstage : frame.stage with
  | called =>
      refine ⟨⟨_, _, _, _, _, rfl⟩, Nat.le_refl _, hsettled rfl ?_⟩
      simp only [Frame.restores, hstage]
  | saved errno =>
      dsimp only
      split
      · refine ⟨⟨_, _, _, _, _, rfl⟩, Nat.le_refl _, hsettled rfl ?_⟩
        simp only [Frame.restores, hstage]
      · refine ⟨⟨_, _, _, _, _, rfl⟩, Nat.le_refl _, hsettled rfl ?_⟩
        simp only [Frame.restores, hstage]
  | flagged errno =>
      refine ⟨⟨_, _, _, _, _, rfl⟩, Nat.le_refl _, hsettled rfl ?_⟩
      simp only [Frame.restores, hstage]
  | loaded errno writeFd =>
      dsimp only
      split
      · obtain ⟨held, left, hwrite, hle⟩ := state.write_rest capacity failure
        rw [hwrite]
        refine ⟨⟨_, _, _, _, _, rfl⟩, hle, hsettled rfl ?_⟩
        simp only [Frame.restores, hstage]
      · refine ⟨⟨_, _, _, _, _, rfl⟩, Nat.le_refl _, hsettled rfl ?_⟩
        simp only [Frame.restores, hstage]
  | written errno =>
      refine ⟨⟨_, _, _, _, _, rfl⟩, Nat.le_refl _, ?_⟩
      rw [State.settled, State.settled, hframes, List.foldl_cons]
      simp only [Frame.restores, hstage]

theorem run_interrupted {actions : List Action}
    (hothers : ∀ action ∈ actions, action.interrupts = true)
    (hrun : state.run capacity actions = some state') :
    Interrupted state state' := by
  induction actions generalizing state with
  | nil =>
      cases hrun
      exact ⟨⟨_, _, _, _, _, rfl⟩, Nat.le_refl _, rfl⟩
  | cons action actions ih =>
      obtain ⟨next, hstep, hrest⟩ := run_cons hrun
      have hlater := ih
        (fun later hmem => hothers later (List.mem_cons_of_mem _ hmem)) hrest
      refine Interrupted.trans ?_ hlater
      cases action with
      | signal signum =>
          obtain ⟨_, rfl⟩ := step_signal hstep
          exact ⟨⟨_, _, _, _, _, rfl⟩, Nat.le_refl _, rfl⟩
      | handler failure => exact handler_interrupted hstep
      | main answer =>
          cases hothers _ List.mem_cons_self

theorem readEnd_of_installs {main : Main} {installed : List Signum}
    (h : main.Installs installed) (hsome : installed ≠ []) :
    main.readEnd = true ∨ ∃ rest, main = .restoring rest false := by
  cases main with
  | restoring rest registered =>
      cases registered with
      | true => exact .inl rfl
      | false => exact .inr ⟨rest, rfl⟩
  | _ =>
      first
      | exact .inl rfl
      | exact absurd h hsome

/-- Over every run, a call of the handler that is about to write has the pipe's
write end open, and its read end too unless the pipe's registration failed.
However many handlers ran between two steps of the program, and however they
were nested, it finds its `errno` and all else as it left them, but for the
flags and for bytes added to the pipe. -/
theorem handlers_traceless (hcapacity : 0 < capacity) (errno : Int)
    (shutdownRequested dumpRequested shutdown dumpPending : Bool)
    {actions : List Action}
    (hrun : (State.start errno shutdownRequested dumpRequested shutdown
      dumpPending).run capacity actions = some state) :
    (∀ frame ∈ state.frames, ∀ saved writeFd,
      frame.stage = .loaded saved writeFd →
      writeFd = true ∧ state.pipe.writeEnd = true ∧
      (state.pipe.readEnd = true ∨
        ∃ rest, state.main = .restoring rest false)) ∧
    ∀ more later, (∀ action ∈ more, action.interrupts = true) →
      state.run capacity more = some later → state.frames = [] →
      later.frames = [] →
      ∃ shutdownRequested dumpRequested held, state.pipe.held ≤ held ∧
        later = { state with
          shutdownRequested := shutdownRequested
          dumpRequested := dumpRequested
          pipe := { state.pipe with held := held } } := by
  have hend := (sound_start errno shutdownRequested dumpRequested shutdown
    dumpPending).run hcapacity hrun
  constructor
  · intro frame hmem saved writeFd hstage
    have hsome := hend.interrupted (List.ne_nil_of_mem hmem)
    refine ⟨?_, ?_, ?_⟩
    · cases writeFd with
      | true => rfl
      | false => exact absurd hstage (hend.loaded frame hmem saved)
    · rw [hend.writeEnd]
      exact (hend.installs.published hsome).2.1
    · rw [hend.readEnd]
      exact readEnd_of_installs hend.installs hsome
  · intro more later hothers hmore hframes hreturned
    have hinterrupted := run_interrupted hothers hmore
    obtain ⟨left, shutdownRequested, dumpRequested, held, frames, rfl⟩ :=
      hinterrupted.rest
    have hleft : left = state.errno := by
      have hsettled := hinterrupted.settled
      have hnone : frames = [] := hreturned
      rw [State.settled, State.settled, hframes] at hsettled
      simpa [hnone] using hsettled
    refine ⟨shutdownRequested, dumpRequested, held, hinterrupted.held, ?_⟩
    have hnone : frames = state.frames := hreturned.trans hframes.symm
    rw [hleft, hnone]

theorem handlers_traceless_nested :
    ∃ state later, (State.start 7 true true true true).run 65536
        (List.replicate 11 (.main ⟨true, 5, true⟩)) = some state ∧
      state.run 65536 ([.signal .sigusr1, .handler 11, .signal .sigterm] ++
        List.replicate 9 (.handler 11)) = some later ∧
      later.errno = 5 ∧ later.pipe.held = 2 := by
  have hruns : ∃ state later, (State.start 7 true true true true).run 65536
        (List.replicate 11 (.main ⟨true, 5, true⟩)) = some state ∧
      state.run 65536 ([.signal .sigusr1, .handler 11, .signal .sigterm] ++
        List.replicate 9 (.handler 11)) = some later ∧
      state.errno = 5 ∧ state.frames = [] ∧ later.frames = [] ∧
      later.pipe.held = 2 :=
    ⟨_, _, rfl, rfl, rfl, rfl, rfl, rfl⟩
  obtain ⟨state, later, hrun, hmore, herrno, hframes, hreturned, hheld⟩ :=
    hruns
  obtain ⟨_, _, _, _, hsame⟩ := (handlers_traceless (by decide) 7 true true
    true true hrun).2 _ later (by decide) hmore hframes hreturned
  refine ⟨state, later, hrun, hmore, ?_, hheld⟩
  rw [hsame]
  exact herrno

end Traces

end Netflector.Reactor.Signal
