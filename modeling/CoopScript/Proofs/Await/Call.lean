import CoopScript.Proofs.Await.Wait

set_option autoImplicit false
namespace CoopScript

-- A function as a script declares it.
structure Declaration where
  position : Position
  name : String
  parameters : List String
  body : List Node

-- A call of a function by its name: where it stands, and what it is given.
structure Application where
  position : Position
  callee : Position
  arguments : List Node

namespace Declaration
variable (declared : Declaration) (application : Application)

def node (isAsync : Bool) : Node :=
  .function "fn" declared.position declared.name declared.parameters isAsync declared.body

def content (isAsync : Bool) : Function Value :=
  ⟨declared.name, .named declared.parameters, .script declared.body, isAsync⟩

def call : Node :=
  .call "call" application.position (.reference declared.name application.callee) application.arguments

-- The arguments of a call and then the body, without anything between them.
def applied (engine : Engine) (frame : FrameId) : Exec Value := do
  let bound ← engine.bindArguments declared.name (.named declared.parameters) application.arguments frame
  engine.invokeScript declared.name declared.body bound frame

def before {α : Type} (isAsync : Bool) (engine : Engine) (frame : FrameId) (next : Exec α) : Exec α := do
  let _ ← engine.execute (declared.node isAsync) frame
  next

-- The function is declared as asynchronous in one frame, and its call is awaited in another, or the same.
def awaits (position : Position) (engine : Engine) (home frame : FrameId) : Exec Value :=
  declared.before true engine home (engine.evaluate (.await "await" position (declared.call application)) frame)

-- The function is declared as one that is not asynchronous, and called.
def calls (engine : Engine) (home frame : FrameId) : Exec Value :=
  declared.before false engine home (engine.evaluate (declared.call application) frame)

theorem declares_live (frame : FrameId) (machine : Machine) (live : machine.frames.isLive frame = true)
    (content : Function Value) : ∃ frames, machine.frames.setVariable frame declared.name
      (machine.classes.function machine.nextIdentity content) = .ok frames := by
  obtain ⟨found, here⟩ := (Arena.live_found machine.frames frame).mp live
  exact ⟨_, by simp only [Arena.setVariable, Arena.update, here]; rfl⟩

theorem declares_done (isAsync : Bool) (fuel : Nat) (home : FrameId) (machine : Machine) (frames : Arena)
    (bound : machine.frames.setVariable home declared.name
      (machine.classes.function machine.nextIdentity (declared.content isAsync)) = .ok frames) :
    (RuleSet.standard.engine (fuel + 1)).execute (declared.node isAsync) home machine = .done none (machine.declares frames) := by
  show (Exec.function (declared.content isAsync) >>= fun function => Exec.setVariable home declared.name function >>=
    fun _ => Pure.pure none) machine = _
  refine Exec.bind_done _ _ _ ({ machine with nextIdentity := machine.nextIdentity + 1 }) _ rfl |>.trans ?_
  refine Exec.bind_done _ _ _ (machine.declares frames) () ?_
  simp only [Exec.setVariable, Exec.updateFrames, bound]
  rfl

theorem declares_done_cases (isAsync : Bool) (fuel : Nat) (home : FrameId) (machine ready : Machine)
    (declares : (RuleSet.standard.engine fuel).execute (declared.node isAsync) home machine = .done none ready) :
    ∃ frames, machine.frames.setVariable home declared.name
      (machine.classes.function machine.nextIdentity (declared.content isAsync)) = .ok frames ∧ ready = machine.declares frames := by
  cases fuel with
  | zero => cases declares
  | succ fuel =>
    cases bound : machine.frames.setVariable home declared.name
      (machine.classes.function machine.nextIdentity (declared.content isAsync)) with
    | ok frames =>
      cases (declared.declares_done isAsync fuel home machine frames bound).symm.trans declares
      exact ⟨frames, rfl, rfl⟩
    | error cause =>
      have refused : (RuleSet.standard.engine (fuel + 1)).execute (declared.node isAsync) home machine =
          .failed (.of cause) { machine with nextIdentity := machine.nextIdentity + 1 } := by
        show (Exec.function (declared.content isAsync) >>= fun function => Exec.setVariable home declared.name function >>=
          fun _ => Pure.pure none) machine = _
        refine (Exec.bind_done _ _ _ { machine with nextIdentity := machine.nextIdentity + 1 } _ rfl).trans ?_
        refine Exec.bind_failed _ _ _ _ _ ?_
        simp only [Exec.setVariable, Exec.updateFrames, bound]
      cases refused.symm.trans declares

theorem finds_declared (frame : FrameId) (arena frames : Arena) (name : String) (value : Value)
    (bound : arena.setVariable frame name value = .ok frames) : frames.lookUp frame name = .ok value := by
  obtain ⟨old, found, rfl⟩ := Arena.update_done arena frames frame _ bound
  have now := Arena.frame_set arena frame frame old { old with bindings := old.bindings.insert name value } found
  rw [if_pos rfl] at now
  simp only [Arena.lookUp, Arena.search, Arena.reach, Arena.searchChain, now, NameMap.find?_insert, if_pos]

theorem call_runs (isAsync : Bool) (engine : Engine) (arguments : List Node) (frame : FrameId) (function : Value)
    (machine : Machine) (known : machine.classes.isFunction function = true)
    (data : function.function? = some (declared.content isAsync))
    (hook : function.hidden? callHook = some (.hook .standard)) :
    engine.call function function arguments frame machine =
      (engine.bindArguments declared.name (.named declared.parameters) arguments frame >>= fun bound =>
        if isAsync then Exec.spawnAsync declared.name declared.body bound frame
        else engine.invokeScript declared.name declared.body bound frame : Exec Value) machine := by
  unfold Engine.call
  show (Exec.read (·.classes.nameOf function) >>= _) machine = _
  rw [Exec.read_then, Exec.read_then, known, data]
  refine Exec.bind_next _ _ _ _ fun bound after _ => ?_
  unfold Engine.invoke Engine.callFunction
  simp only [hook, data, content]

theorem evaluate_call (isAsync : Bool) (fuel identity : Nat) (frame : FrameId) (machine : Machine)
    (classes : machine.classes = .intrinsic) (found : machine.frames.lookUp frame declared.name =
      .ok (machine.classes.function identity (declared.content isAsync))) :
    (RuleSet.standard.engine (fuel + 2)).evaluate (declared.call application) frame machine =
      ((RuleSet.standard.engine (fuel + 1)).bindArguments declared.name (.named declared.parameters) application.arguments
          frame >>= fun bound =>
        if isAsync then Exec.spawnAsync declared.name declared.body bound frame
        else (RuleSet.standard.engine (fuel + 1)).invokeScript declared.name declared.body bound frame : Exec Value).mapFailure
          (·.orPosition (some application.position)) machine := by
  have looked : (RuleSet.standard.engine (fuel + 1)).evaluate (.reference declared.name application.callee) frame machine =
      .done (machine.classes.function identity (declared.content isAsync)) machine := by
    show ((Exec.lookUp frame declared.name).mapFailure _) machine = _
    simp only [Exec.mapFailure, Exec.lookUp, Exec.askFrames, found]
  have runs := declared.call_runs isAsync (RuleSet.standard.engine (fuel + 1)) application.arguments frame
    (machine.classes.function identity (declared.content isAsync)) machine (by rw [classes]; rfl) (by rw [classes]; rfl)
    (by rw [classes]; rfl)
  show (ExpressionRule.runBracket (RuleSet.standard.engine (fuel + 1)) (declared.call application) frame).mapFailure _ machine = _
  unfold Exec.mapFailure
  rw [← runs, ← Exec.bind_done _ (fun function => (RuleSet.standard.engine (fuel + 1)).call function function
    application.arguments frame) _ _ _ looked]
  rfl

end Declaration

namespace Engine
variable (lens : Lens) (engine twin : Engine) (sharp : lens.blurs = false) (through : engine.Through lens twin)
include sharp through

theorem binds_through (name : String) (parameters : Parameters) (arguments : List Node) (frame : FrameId) :
    (engine.bindArguments name parameters arguments frame).Through lens (fun _ => True)
      (twin.bindArguments name parameters arguments frame) lens.bindings Bindings.Fits := by
  have bind : (engine.bindArguments name parameters arguments frame).Through lens (fun _ => True)
      (twin.bindArguments name parameters (lens.lines arguments) frame) lens.bindings Bindings.Fits :=
    bind_arguments_through through name parameters arguments frame
  rwa [lens.lines_sharp sharp] at bind

theorem invokes_through (name : String) (lines : List Node) (bound : Bindings) (caller : FrameId) :
    (engine.invokeScript name lines bound caller).Through lens (fun few => bound.Fits few)
      (twin.invokeScript name lines (lens.bindings bound) caller) lens.value Value.Fits := by
  have invoke : (engine.invokeScript name lines bound caller).Through lens (fun few => bound.Fits few)
      (twin.invokeScript name (lens.lines lines) (lens.bindings bound) caller) lens.value Value.Fits :=
    invoke_script_through through name lines bound caller fun _ fine => fine
  rwa [lens.lines_sharp sharp] at invoke

end Engine

namespace Declaration
variable (declared : Declaration) (application : Application)

theorem applied_through (lens : Lens) (engine twin : Engine) (sharp : lens.blurs = false) (through : engine.Through lens twin)
    (frame : FrameId) : (declared.applied application engine frame).Through lens (fun _ => True)
      (declared.applied application twin frame) lens.value Value.Fits := by
  refine Exec.through_bind (engine.binds_through lens twin sharp through declared.name (.named declared.parameters)
    application.arguments frame) fun bound => ?_
  exact Exec.through_given (engine.invokes_through lens twin sharp through declared.name declared.body bound frame)
    fun _ both => both.2

end Declaration

-- An outcome that differs in the state of tasks, and in how a failure is told.
inductive Outcome.Aside : Outcome Value → Outcome Value → Prop
  | done (value : Value) (machine : Machine) (tasks : TaskTable) :
      Aside (.done value machine) (.done value { machine with tasks := tasks })
  | failed (failure other : Failure) (machine : Machine) (tasks : TaskTable)
      (causes : ∀ cause, failure.HasCause cause ↔ other.HasCause cause) :
      Aside (.failed failure machine) (.failed other { machine with tasks := tasks })

namespace Engine

def receive (engine : Engine) (value : Value) : Exec Value :=
  match value.task? with
  | some task => engine.await task
  | none => Pure.pure value

theorem received (engine : Engine) (change : Failure → Failure) (spawn : Exec Value) (machine opened : Machine)
    (task : TaskId) (classes : machine.classes = .intrinsic)
    (spawned : spawn machine = .done (machine.classes.promise task) opened) :
    (spawn.mapFailure change >>= engine.receive) machine = engine.await task opened := by
  refine (Exec.bind_done _ _ _ opened (machine.classes.promise task) ?_).trans ?_
  · simp only [Exec.mapFailure, spawned]
  · rw [classes]
    rfl

-- A body that is waited for at once is run as in a call, beside a task that nobody knows of.
theorem await_aside (engine twin : Engine) (machine after : Machine)
    (through : engine.Through (.beside machine.tasks.count) twin) (enough : 2 ≤ twin.fuel)
    (change : Failure → Failure) (same : ∀ failure cause, failure.HasCause cause ↔ (change failure).HasCause cause)
    (name : String) (lines : List Node) (arguments : Bindings) (caller : FrameId)
    (fits : machine.Fits none) (beside : machine.Fits (some ⟨machine.tasks.count, machine.tasks.count, 0⟩))
    (argumentsFit : arguments.Fits none)
    (argumentsBeside : arguments.Fits (some ⟨machine.tasks.count, machine.tasks.count, 0⟩))
    (running : machine.halted = false) (idle : machine.asyncFrames = []) (classes : machine.classes = .intrinsic)
    (left : (engine.invokeScript name lines arguments caller machine).Leaves after)
    (single : after.tasks.count ≤ machine.tasks.count) :
    (engine.invokeScript name lines arguments caller machine).Aside
      (((Exec.spawnAsync name lines arguments caller).mapFailure change >>= twin.receive) machine) := by
  have seen := (engine.invokes_through _ twin rfl through name lines arguments caller).seen argumentsFit argumentsBeside
    machine fits beside
  rw [Lens.beside_bindings, Lens.beside_machine _ _ rfl] at seen
  obtain ⟨ended, afterFits, _⟩ := Outcome.seen_ending seen after left fun bound bounded => by
    cases bounded
    exact single
  have counted : after.tasks.count = machine.tasks.count := afterFits.suits.1.1
  have task : after.tasks.create.1 = machine.tasks.create.1 := congrArg (fun size => TaskId.mk (size + 1)) counted
  have besideAfter := Lens.beside_machine machine.tasks.count after counted
  rcases left with ⟨value, ran⟩ | ⟨failure, ran⟩
  · rw [ran, Lens.ending, Lens.beside_value, besideAfter] at ended
    have quiet : ∀ other later, twin.invokeScript name lines arguments caller { machine with tasks := machine.tasks.create.2 } =
        .done other later → later.Awaiting machine.tasks.create.1 := by
      intro other later done
      cases ended.symm.trans done
      refine ⟨afterFits.suits.2.1, afterFits.suits.2.2.1, ?_⟩
      rw [TaskTable.state_created, if_pos task.symm]
    rcases twin.await_called enough name lines arguments caller machine beside.suits.2.1 idle running quiet with
      ⟨_, _, refused⟩ | ⟨opened, spawned, awaited⟩
    · cases ended.symm.trans refused
    · rw [twin.received change _ machine opened _ classes spawned, awaited, ended, ran]
      exact .done value after _
  · rw [ran, Lens.ending, Lens.failure_sharp _ rfl, besideAfter] at ended
    have never : ∀ other later, twin.invokeScript name lines arguments caller { machine with tasks := machine.tasks.create.2 } ≠
        .done other later := fun other later done => by cases ended.symm.trans done
    rcases twin.await_called enough name lines arguments caller machine beside.suits.2.1 idle running
        (fun other later done => absurd done (never other later)) with
      ⟨refusal, spawned, refused⟩ | ⟨opened, spawned, awaited⟩
    · have refusedHere : ((Exec.spawnAsync name lines arguments caller).mapFailure change >>= twin.receive) machine =
          .failed (change refusal) { machine with tasks := machine.tasks.create.2 } := by
        refine Exec.bind_failed _ _ _ _ _ ?_
        simp only [Exec.mapFailure, spawned]
      injection ended.symm.trans refused with failures machines
      rw [refusedHere, ran, ← failures, ← machines]
      exact .failed failure _ after _ (same failure)
    · rw [twin.received change _ machine opened _ classes spawned, awaited, ended, ran]
      exact .failed failure failure after _ fun _ => Iff.rfl

end Engine

theorem Failure.told_cause (failure : Failure) (position : Option Position) (cause : Cause) :
    failure.HasCause cause ↔ (failure.orPosition position).HasCause cause :=
  ⟨cause_placed position failure cause, placed_cause position failure cause⟩

theorem Outcome.aside_told (outcome : Outcome Value) (step : Exec Value) (machine : Machine) (position : Option Position)
    (aside : outcome.Aside (step machine)) : outcome.Aside (step.mapFailure (·.orPosition position) machine) := by
  unfold Exec.mapFailure
  generalize step machine = other at aside ⊢
  cases aside with
  | done value machine tasks => exact .done value machine tasks
  | failed failure told machine tasks causes =>
    exact .failed failure _ machine tasks fun cause => (causes cause).trans (told.told_cause position cause)

namespace Declaration
variable (declared : Declaration) (application : Application)

section Bound
variable (stage : Stage) (sound : stage.Sound) (frame : FrameId) (fuel : Nat) (bound : Bindings) (ready : Machine)
  (bind : (RuleSet.standard.engine fuel).bindArguments declared.name (.named declared.parameters) application.arguments frame
    stage.machine = .done bound ready)
include sound bind

theorem bound_sound : (stage.put ready).Sound ∧ ready.setting = stage.machine.setting ∧ bound.Fits none := by
  have follows := (Engine.tied_bind_arguments False _ _ (RuleSet.lawful_engine fuel).tied declared.name
    (.named declared.parameters) application.arguments frame).lawful stage sound
  refine ⟨stage.follows_sound _ _ ready sound follows (.inl ⟨bound, bind⟩),
    stage.follows_setting _ _ ready follows (.inl ⟨bound, bind⟩), ?_⟩
  unfold Stage.Follows at follows
  rw [bind] at follows
  exact follows.2

-- No task has been made on the way.
theorem bound_beside (beside : stage.machine.Fits (some ⟨stage.machine.tasks.count, stage.machine.tasks.count, 0⟩))
    (few : ready.tasks.count ≤ stage.machine.tasks.count) :
    ready.Fits (some ⟨ready.tasks.count, ready.tasks.count, 0⟩) ∧
      bound.Fits (some ⟨ready.tasks.count, ready.tasks.count, 0⟩) := by
  have through := RuleSet.through_engine (.beside stage.machine.tasks.count) fuel fuel (Nat.le_refl _) fun _ => rfl
  have seen := (Engine.binds_through _ _ _ rfl through declared.name (.named declared.parameters) application.arguments
    frame).seen trivial trivial stage.machine sound.fits beside
  obtain ⟨_, fits, fine⟩ := Outcome.seen_ending seen ready (.inl ⟨bound, bind⟩) fun bounded same => by
    cases same
    exact few
  have counted : ready.tasks.count = stage.machine.tasks.count := fits.suits.1.1
  rw [counted]
  exact ⟨fits, fine bound bind⟩

end Bound

-- Awaiting the call of an asynchronous function does what the arguments and the body do.
theorem awaits_applied (stage : Stage) (sound : stage.Sound) (classes : stage.machine.classes = .intrinsic)
    (beside : stage.machine.Fits (some ⟨stage.machine.tasks.count, stage.machine.tasks.count, 0⟩)) (identity : Nat)
    (frame : FrameId) (found : stage.machine.frames.lookUp frame declared.name =
      .ok (stage.machine.classes.function identity (declared.content true)))
    (fuel more : Nat) (fewer : fuel ≤ more + 1) (after : Machine)
    (left : (declared.applied application (RuleSet.standard.engine fuel) frame stage.machine).Leaves after)
    (single : after.tasks.count ≤ stage.machine.tasks.count)
    (running : ∀ bound ready, (RuleSet.standard.engine fuel).bindArguments declared.name (.named declared.parameters)
      application.arguments frame stage.machine = .done bound ready → ready.halted = false) (position : Position) :
    (declared.applied application (RuleSet.standard.engine fuel) frame stage.machine).Aside
      ((RuleSet.standard.engine (more + 3)).evaluate (.await "await" position (declared.call application)) frame
        stage.machine) := by
  have called := declared.evaluate_call application true more identity frame stage.machine classes found
  show Outcome.Aside _ (((RuleSet.standard.engine (more + 2)).evaluate (declared.call application) frame >>=
    (RuleSet.standard.engine (more + 2)).receive).mapFailure (·.orPosition (some position)) stage.machine)
  refine Outcome.aside_told _ _ _ _ ?_
  have whole := Engine.binds_through _ _ _ rfl (RuleSet.through_engine .whole fuel (more + 1) fewer False.elim)
    declared.name (.named declared.parameters) application.arguments frame
  have same (after : Machine) := Lens.more_fuel whole Lens.whole_bindings trivial stage.machine after sound.fits
  cases bind : (RuleSet.standard.engine fuel).bindArguments declared.name (.named declared.parameters)
    application.arguments frame stage.machine with
  | outOfFuel =>
    rw [applied, Exec.bind_exhausted _ _ _ bind] at left
    rcases left with ⟨_, none⟩ | ⟨_, none⟩ <;> cases none
  | failed failure ready =>
    have twin := (same ready (.inr ⟨failure, bind⟩)).trans bind
    have refused : (RuleSet.standard.engine (more + 2)).evaluate (declared.call application) frame stage.machine =
        .failed (failure.orPosition (some application.position)) ready := by
      rw [called, Exec.mapFailure, Exec.bind_failed _ _ _ _ _ twin]
    rw [applied, Exec.bind_failed _ _ _ _ _ bind, Exec.bind_failed _ _ _ _ _ refused]
    exact .failed failure _ ready ready.tasks (failure.told_cause _)
  | done bound ready =>
    have twin := (same ready (.inl ⟨bound, bind⟩)).trans bind
    have invoked : declared.applied application (RuleSet.standard.engine fuel) frame stage.machine =
        (RuleSet.standard.engine fuel).invokeScript declared.name declared.body bound frame ready :=
      Exec.bind_done _ _ _ _ _ bind
    have spawned : (RuleSet.standard.engine (more + 2)).evaluate (declared.call application) frame stage.machine =
        (Exec.spawnAsync declared.name declared.body bound frame).mapFailure (·.orPosition (some application.position))
          ready := by
      rw [called]
      unfold Exec.mapFailure
      rw [Exec.bind_done _ _ _ _ _ twin]
      rfl
    rw [invoked] at left ⊢
    rw [Exec.bind_same _ _ _ _ _ spawned]
    obtain ⟨readySound, setting, plain⟩ := declared.bound_sound application stage sound frame fuel bound ready bind
    have through := Engine.invokes_through _ _ _ rfl (RuleSet.through_engine .whole fuel fuel (Nat.le_refl _) fun _ => rfl)
      declared.name declared.body bound frame
    have kept : ready.tasks.count ≤ after.tasks.count :=
      (Outcome.kept_left (through.kept plain ready readySound.fits) after left).2
    obtain ⟨readyBeside, boundBeside⟩ := declared.bound_beside application stage sound frame fuel bound ready bind beside
      (kept.trans single)
    have idle : ready.asyncFrames = [] := by
      have waiting : ready.asyncFrames = ready.microtasks.filterMap Microtask.frame? := readySound.waiting
      rw [waiting, readyBeside.suits.2.1]
      rfl
    refine Engine.await_aside _ (RuleSet.standard.engine (more + 2)) ready after
      (RuleSet.through_engine (.beside ready.tasks.count) fuel (more + 2) (by omega) False.elim) (Nat.le_add_left 2 more) _
      (fun failure => failure.told_cause _) declared.name declared.body bound frame readySound.fits readyBeside plain
      boundBeside (running bound ready bind) idle ((congrArg Prod.snd setting).trans classes) left ?_
    exact single.trans (Outcome.kept_left (whole.kept trivial stage.machine sound.fits) ready (.inl ⟨bound, bind⟩)).2

end Declaration

end CoopScript
