import CoopScript.Proofs.Stage.Language

set_option autoImplicit false
namespace CoopScript

-- What a host, or a native on its behalf, asks a machine to run.
inductive Operation where
  | evaluate (node : Node) (frame : FrameId)
  | executeLine (node : Node) (frame : FrameId)
  | runBlock (lines : List Node) (frame : FrameId)
  | invokeScript (name : String) (lines : List Node) (arguments : Bindings) (caller : FrameId)
  | call (target function : Value) (arguments : List Node) (frame : FrameId)
  | await (task : TaskId)
  | tick
  | run

namespace Operation

def perform (engine : Engine) : Operation → Exec Unit
  | evaluate node frame => do let _ ← engine.evaluate node frame
  | executeLine node frame => do let _ ← engine.executeLine node frame
  | runBlock lines frame => do let _ ← engine.runBlock lines frame
  | invokeScript name lines arguments caller => do let _ ← engine.invokeScript name lines arguments caller
  | call target function arguments frame => do let _ ← engine.call target function arguments frame
  | await task => do let _ ← engine.await task
  | tick => do let _ ← engine.tick
  | run => engine.run

-- The values that are handed over are plain ones.
def Plain : Operation → Prop
  | invokeScript _ _ arguments _ => arguments.All Value.Plain
  | call target function _ _ => target.Plain ∧ function.Plain
  | _ => True

theorem lawful_perform (operation : Operation) (engine : Engine) (lawful : engine.Lawful)
    (plain : operation.Plain) : (operation.perform engine).Lawful fun _ => True := by
  have dropped : ∀ {α : Type} (good : α → Prop) (step : Exec α), step.Lawful good →
      Exec.Lawful (do let _ ← step) fun _ => True := fun good step lawfulStep =>
    Exec.lawful_bind good _ _ _ lawfulStep fun _ _ => Exec.lawful_pure _ _ trivial
  cases operation with
  | evaluate node frame => exact dropped _ _ (lawful.evaluate node frame)
  | executeLine node frame => exact dropped _ _ (engine.lawful_execute_line lawful node frame)
  | runBlock lines frame => exact dropped _ _ (engine.lawful_run_block lawful lines frame)
  | invokeScript name lines arguments caller =>
    exact dropped _ _ (engine.lawful_invoke_script lawful name lines arguments caller plain)
  | call target function arguments frame =>
    exact dropped _ _ (engine.lawful_call lawful target function arguments frame plain.1 plain.2)
  | await task => exact dropped _ _ (engine.lawful_await lawful task)
  | tick => exact dropped _ _ (engine.lawful_tick lawful)
  | run => exact engine.lawful_run lawful

end Operation

def Stage.start (config : Config) : Stage := ⟨[], [], Machine.start config⟩

/-- Runs are taken as wholes and step by step, so that the stages in the middle of them are reached too,
and hosts may act there. Only a whole program is run, and work is only dropped, outside of calls. -/
inductive Reachable (config : Config) : Stage → Prop where
  | start : Reachable config (.start config)
  | step (stage after : Stage) (reached : Reachable config stage) (step : Step stage after) :
      Reachable config after
  | unwind (stage after : Stage) (reached : Reachable config stage) (unwind : Unwind stage after) :
      Reachable config after
  | perform (stage : Stage) (operation : Operation) (fuel : Nat) (after : Machine)
      (reached : Reachable config stage) (plain : operation.Plain)
      (ran : (operation.perform (RuleSet.standard.engine fuel) stage.machine).Leaves after) :
      Reachable config (stage.put after)
  | program (stage : Stage) (lines : List Node) (fuel : Nat) (after : Machine)
      (reached : Reachable config stage) (outside : stage.calls = [])
      (ran : ((RuleSet.standard.engine fuel).evalProgram lines stage.machine).Leaves after) :
      Reachable config (stage.put after)
  | load (stage : Stage) (lines : List Node) (frame : FrameId) (id : RunnerId) (after : Machine)
      (reached : Reachable config stage)
      (loaded : Exec.loadProgram lines frame stage.machine = .done id after) :
      Reachable config (stage.put after)
  | finish (stage : Stage) (id : RunnerId) (last : Option Value) (after : Machine)
      (reached : Reachable config stage)
      (finished : Exec.finishRunner id stage.machine = .done last after) :
      Reachable config (stage.put after)
  | reset (stage : Stage) (after : Machine) (reached : Reachable config stage)
      (outside : stage.calls = []) (dropped : Exec.reset stage.machine = .done () after) :
      Reachable config (stage.put after)
  | push (stage : Stage) (parent id : FrameId) (isFunction : Bool) (bindings : Bindings)
      (after : Machine) (reached : Reachable config stage) (plain : bindings.All Value.Plain)
      (pushed : Exec.pushFrame parent isFunction bindings stage.machine = .done id after) :
      Reachable config ⟨stage.calls, id :: stage.held, after⟩
  | retain (stage : Stage) (id : FrameId) (after : Machine) (reached : Reachable config stage)
      (retained : Exec.retainFrame id stage.machine = .done () after) :
      Reachable config ⟨stage.calls, id :: stage.held, after⟩
  | release (stage : Stage) (id : FrameId) (after : Machine) (reached : Reachable config stage)
      (owned : id ∈ stage.held) (released : Exec.releaseFrame id stage.machine = .done () after) :
      Reachable config ⟨stage.calls, stage.held.erase id, after⟩

namespace Machine

-- The frames once the outermost one has got the names of a list.
def named (names : List (String × Value)) (frames : Arena) : Arena :=
  names.foldl (fun arena entry =>
    match arena.setVariable Arena.root entry.1 entry.2 with
    | .ok arena => arena
    | .error _ => arena) frames

theorem named_kept (names : List (String × Value)) (frames : Arena) (owners : List FrameId)
    (plainNames : ∀ entry ∈ names, entry.2.Plain) (kept : frames.Kept owners) (plain : frames.Plain) :
    (named names frames).Kept owners ∧ (named names frames).Plain := by
  induction names generalizing frames with
  | nil => exact ⟨kept, plain⟩
  | cons entry rest ih =>
    have later := fun other member => plainNames other (List.mem_cons_of_mem entry member)
    unfold named
    rw [List.foldl_cons]
    cases bound : frames.setVariable Arena.root entry.1 entry.2 with
    | error cause => exact ih frames later kept plain
    | ok after =>
      apply ih after later
      · exact Arena.kept_update frames after owners Arena.root
          (fun frame => { frame with bindings := frame.bindings.insert entry.1 entry.2 }) kept
          (fun _ => rfl) (fun _ => rfl) bound
      · obtain ⟨id, old, frame, found, rfl, _, _, _, framePlain⟩ :=
          (Arena.set_variable_rewrites frames after Arena.root entry.1 entry.2
            (plainNames entry (by simp)) bound).changed
        exact Arena.plain_set frames id old frame plain found (framePlain plain)

def givenNames (machine : Machine) : List (String × Value) :=
  let classes := machine.classes
  let identity := machine.nextIdentity
  [("print", classes.builtin identity "print" .variadic .print),
   ("exit", classes.builtin (identity + 1) "exit" (.named []) .exit),
   ("sleep", classes.builtin (identity + 2) "sleep" (.named ["ms"]) .sleep),
   ("true", classes.flag true),
   ("false", classes.flag false)]

theorem prelude_frames (machine : Machine) :
    machine.prelude.frames = named machine.givenNames machine.frames := by
  unfold prelude
  dsimp only
  unfold named givenNames
  congr 1

theorem given_plain (machine : Machine) (classes : machine.classes.Plain) :
    ∀ entry ∈ machine.givenNames, entry.2.Plain := by
  intro entry member
  simp only [givenNames, List.mem_cons, List.not_mem_nil, or_false] at member
  rcases member with rfl | rfl | rfl | rfl | rfl
  · exact ClassTable.plain_builtin _ classes _ _ _ _
  · exact ClassTable.plain_builtin _ classes _ _ _ _
  · exact ClassTable.plain_builtin _ classes _ _ _ _
  · exact ClassTable.plain_flag _ classes _
  · exact ClassTable.plain_flag _ classes _

theorem prelude_kept (machine : Machine) (owners : List FrameId) (kept : machine.frames.Kept owners)
    (classes : machine.classes.Plain) (plain : machine.frames.Plain) :
    machine.prelude.frames.Kept owners ∧ machine.prelude.frames.Plain := by
  rw [prelude_frames]
  exact named_kept _ machine.frames owners (machine.given_plain classes) kept plain

end Machine

theorem Arena.plain_initial : initial.Plain := by
  intro id frame found
  obtain rfl : frame = .fresh none false .empty := (initial_found id frame found).2
  exact ⟨NameMap.all_empty Value.Plain, fun _ none => by cases none⟩

theorem Stage.start_sound (config : Config) : (Stage.start config).Sound := by
  have classes : (Machine.initial config).classes.Plain := ClassTable.plain_intrinsic
  obtain ⟨kept, plain⟩ := (Machine.initial config).prelude_kept [Arena.root] Arena.kept_initial classes
    Arena.plain_initial
  exact
    { ledger := kept
      depth := rfl
      waiting := rfl
      distinct := List.nodup_nil
      bodies := fun _ member => nomatch member
      numbered := ⟨List.nodup_nil, fun _ member => nomatch member⟩
      plain :=
        { classes := classes
          frames := plain
          tasks := fun task value ready => absurd ((TaskTable.state_empty task).symm.trans ready) (by simp)
          microtasks := fun _ member => nomatch member
          jobs := fun _ member => nomatch member }
      served := ⟨rfl, fun busy => absurd rfl busy⟩ }

namespace Stage

theorem load_leads (stage : Stage) (lines : List Node) (frame : FrameId) (id : RunnerId)
    (after : Machine) (sound : stage.Sound)
    (loaded : Exec.loadProgram lines frame stage.machine = .done id after) :
    stage.Leads stage (stage.put after) ∧ (Exec.loadProgram lines frame).Takes stage (stage.put after) ∧
      after.registered.Perm ((id, frame) :: stage.machine.registered) := by
  obtain ⟨opened, runner, created, rest⟩ := Exec.done_of_bind _ _ _ after id loaded
  obtain ⟨advanced, _, moved, last⟩ := Exec.done_of_bind _ _ _ after id rest
  cases last
  have step : Step stage (stage.put opened) := .openBlock stage lines frame id opened created
  have registered := Exec.registered_opened lines frame id stage.machine opened created
  have within : stage.Within (stage.put opened) := by
    refine ⟨List.suffix_refl _, rfl, fun entry member => ?_⟩
    rw [put, registered]
    exact List.mem_append_left _ member
  have first : stage.Leads stage (stage.put opened) := .single ⟨step, within⟩
  have follows := Exec.lawful_advance id _ (step_sound stage _ sound step)
  unfold Follows at follows
  rw [show Exec.advance id (stage.put opened).machine = _ from moved] at follows
  refine ⟨first.trans (leads_within _ stage _ _ within follows.1.leads), ?_, ?_⟩
  · refine .done _ _ stage (stage.put opened) _ id created
      (.stroke _ stage (stage.put opened) (.inl ⟨id, created⟩) (.inr (.inl step))) ?_
    exact .done _ _ _ (stage.put after) _ () moved follows.1.takes (.stroke _ _ _ (.inl ⟨id, rfl⟩) (.inl rfl))
  · refine follows.1.registered.trans ?_
    rw [put, registered]
    exact List.perm_append_singleton _ _

theorem load_live (stage : Stage) (lines : List Node) (frame : FrameId) (sound : stage.Sound)
    (live : stage.machine.frames.isLive frame = true) :
    ∃ id loaded, Exec.loadProgram lines frame stage.machine = .done id loaded := by
  obtain ⟨content, found⟩ := (Arena.live_found stage.machine.frames frame).mp live
  obtain ⟨frames, retained⟩ : ∃ frames, stage.machine.frames.retain frame = .ok frames :=
    ⟨_, by simp only [Arena.retain, Arena.update, found]; rfl⟩
  have kept := Arena.kept_retain _ frames _ frame sound.ledger retained
  obtain ⟨answer, asked⟩ := Arena.function_frame_answers frames _ frame kept (kept.live frame (by simp))
  obtain ⟨id, opened, created⟩ : ∃ id opened, Exec.createRunner lines frame stage.machine = .done id opened :=
    ⟨_, _, Exec.create_runner_creates lines frame answer stage.machine frames retained asked⟩
  obtain ⟨advanced, moved, _⟩ := Exec.advance_total id opened
  refine ⟨id, advanced, ?_⟩
  unfold Exec.loadProgram
  rw [Exec.bind_done _ _ _ opened id created, Exec.bind_done _ _ _ advanced () moved]
  rfl

theorem push_sound (stage : Stage) (parent id : FrameId) (isFunction : Bool) (bindings : Bindings)
    (after : Machine) (plain : bindings.All Value.Plain) (sound : stage.Sound)
    (pushed : Exec.pushFrame parent isFunction bindings stage.machine = .done id after) :
    (Stage.mk stage.calls (id :: stage.held) after).Sound := by
  obtain ⟨calls, held, machine⟩ := stage
  obtain ⟨frames, framesPushed, rfl⟩ :=
    Exec.push_frame_done parent id isFunction bindings machine after pushed
  have bodies := bodies_lasting calls held machine frames sound
    (Arena.lasting_push machine.frames frames _ parent id isFunction bindings sound.ledger framesPushed)
  refine ⟨?_, sound.depth, sound.waiting, sound.distinct, bodies, ⟨sound.numbered.1, sound.numbered.2⟩,
    Machine.plain_frames machine frames sound.plain (Arena.plain_push machine.frames frames _ parent id
      isFunction bindings sound.ledger sound.plain.frames plain framesPushed),
    ⟨sound.served.1, sound.served.2⟩⟩
  refine Arena.kept_counts _ _ _ (Arena.kept_push machine.frames frames _ parent id isFunction bindings
    sound.ledger framesPushed) fun other => ?_
  have registered : Machine.registered { machine with frames := frames } = machine.registered := rfl
  simp only [count_owners, List.count_cons, registered]
  omega

theorem retain_sound (stage : Stage) (id : FrameId) (after : Machine) (sound : stage.Sound)
    (retained : Exec.retainFrame id stage.machine = .done () after) :
    (Stage.mk stage.calls (id :: stage.held) after).Sound := by
  obtain ⟨calls, held, machine⟩ := stage
  unfold Exec.retainFrame Exec.updateFrames at retained
  split at retained
  next frames framesRetained =>
    cases retained
    have bodies := bodies_lasting calls held machine frames sound
      (Arena.lasting_retain machine.frames frames id framesRetained)
    refine ⟨?_, sound.depth, sound.waiting, sound.distinct, bodies, ⟨sound.numbered.1, sound.numbered.2⟩,
      Machine.plain_frames machine frames sound.plain
        (Arena.plain_retain machine.frames frames id sound.plain.frames framesRetained),
      ⟨sound.served.1, sound.served.2⟩⟩
    refine Arena.kept_counts _ _ _
      (Arena.kept_retain machine.frames frames _ id sound.ledger framesRetained) fun other => ?_
    have registered : Machine.registered { machine with frames := frames } = machine.registered := rfl
    simp only [count_owners, List.count_cons, registered]
    omega
  next => cases retained

theorem release_sound (stage : Stage) (id : FrameId) (after : Machine) (sound : stage.Sound)
    (owned : id ∈ stage.held) (released : Exec.releaseFrame id stage.machine = .done () after) :
    (Stage.mk stage.calls (stage.held.erase id) after).Sound := by
  obtain ⟨calls, held, machine⟩ := stage
  have ledger : machine.frames.Kept (id :: (Stage.mk calls (held.erase id) machine).owners) := by
    refine Arena.kept_counts _ _ _ sound.ledger fun other => ?_
    have counted := (List.perm_cons_erase owned).count_eq other
    simp only [List.count_cons] at counted
    simp only [count_owners, List.count_cons]
    omega
  obtain ⟨frames, rfl, kept, shrinks⟩ := Exec.released_kept id _ machine after ledger released
  have bodies := bodies_lasting calls held machine frames sound (Arena.lasting_shrinks machine.frames frames shrinks)
  exact ⟨kept, sound.depth, sound.waiting, sound.distinct, bodies, ⟨sound.numbered.1, sound.numbered.2⟩,
    Machine.plain_frames machine frames sound.plain
      (Arena.plain_shrinks machine.frames frames sound.plain.frames shrinks),
    ⟨sound.served.1, sound.served.2⟩⟩

theorem finish_runner_total (stage : Stage) (id : RunnerId) (sound : stage.Sound) :
    ∃ last after, Exec.finishRunner id stage.machine = .done last after := by
  cases known : stage.machine.runner? id with
  | none => exact ⟨none, stage.machine, by simp [Exec.finishRunner, Exec.read_then, known]; rfl⟩
  | some runner =>
    have member := List.mem_of_find?_eq_some (Machine.runner_found stage.machine id runner known)
    obtain ⟨last, after, finished, _⟩ := Exec.finish_runner_registered id runner.frame stage sound
      (List.mem_map.mpr ⟨(id, runner), member, rfl⟩)
    exact ⟨last, after, finished⟩

theorem finish_all_sound (ids : List RunnerId) (stage : Stage) (sound : stage.Sound) :
    ∃ after, Exec.each (fun id => do let _ ← Exec.finishRunner id) ids stage.machine = .done () after ∧
      (stage.put after).Sound := by
  induction ids generalizing stage with
  | nil => exact ⟨stage.machine, rfl, sound⟩
  | cons id rest ih =>
    obtain ⟨last, middle, finished⟩ := finish_runner_total stage id sound
    obtain ⟨after, done, afterSound⟩ := ih (stage.put middle) (finish_runner_sound stage id last middle sound finished)
    refine ⟨after, ?_, afterSound⟩
    have first : (do let _ ← Exec.finishRunner id : Exec Unit) stage.machine = .done () middle :=
      Exec.bind_done _ _ _ middle last finished
    exact (Exec.bind_done _ _ _ middle () first).trans done

theorem release_all_kept (frames owners : List FrameId) (machine : Machine)
    (kept : machine.frames.Kept (frames ++ owners)) (plain : machine.frames.Plain) :
    ∃ arena, Exec.each Exec.releaseFrame frames machine = .done () { machine with frames := arena } ∧
      arena.Kept owners ∧ arena.Plain := by
  induction frames generalizing machine with
  | nil => exact ⟨machine.frames, rfl, kept, plain⟩
  | cons frame rest ih =>
    obtain ⟨arena, released, arenaKept, shrinks⟩ := Exec.release_frame_kept frame (rest ++ owners) machine kept
    obtain ⟨after, done, afterKept, afterPlain⟩ := ih { machine with frames := arena } arenaKept
      (Arena.plain_shrinks machine.frames arena plain shrinks)
    exact ⟨after, (Exec.bind_done _ _ _ _ () released).trans done, afterKept, afterPlain⟩

theorem reset_sound (stage : Stage) (sound : stage.Sound) (outside : stage.calls = []) :
    ∃ after, Exec.reset stage.machine = .done () after ∧ (stage.put after).Sound := by
  obtain ⟨calls, held, machine⟩ := stage
  obtain rfl : calls = [] := outside
  have plain := sound.plain
  have ledger : machine.frames.Kept (machine.asyncFrames ++
      (Stage.mk [] held { machine with ready := [], microtasks := [], asyncFrames := [] }).owners) := by
    refine Arena.kept_counts _ _ _ sound.ledger fun other => ?_
    have registered : Machine.registered { machine with ready := [], microtasks := [], asyncFrames := [] } =
        machine.registered := rfl
    simp only [List.count_append, count_owners, registered, List.count_nil]
    omega
  obtain ⟨arena, released, kept, arenaPlain⟩ := release_all_kept machine.asyncFrames _
    { machine with ready := [], microtasks := [], asyncFrames := [] } ledger plain.frames
  have releasedSound : (Stage.mk [] held { machine with
      ready := [], microtasks := [], asyncFrames := [], frames := arena }).Sound :=
    ⟨kept, sound.depth, rfl, List.nodup_nil, (fun _ member => nomatch member), ⟨sound.numbered.1, sound.numbered.2⟩,
      ⟨plain.classes, arenaPlain, plain.tasks, (fun _ member => nomatch member), plain.jobs⟩,
      ⟨sound.served.1, sound.served.2⟩⟩
  obtain ⟨after, finished, afterSound⟩ :=
    finish_all_sound (machine.runners.map Prod.fst) _ releasedSound
  have events : after.events.filter (fun entry => some entry.1 = after.poolEvent) = after.events := by
    have listed : after.events = after.poolEvent.toList.map fun id => (id, some .pollPool) :=
      afterSound.served.events
    cases event : after.poolEvent <;> simp [listed, event]
  have afterPlain := afterSound.plain
  refine ⟨{ after with
      events := after.events.filter fun entry => some entry.1 = after.poolEvent, depth := 0 }, ?_, ?_⟩
  · unfold Exec.reset
    rw [Exec.modify_then, Exec.read_then, Exec.modify_then, Exec.bind_done _ _ _ _ () released,
      Exec.read_then, Exec.bind_done _ _ _ _ () finished]
    rfl
  · rw [events]
    exact ⟨afterSound.ledger, rfl, afterSound.waiting, afterSound.distinct, afterSound.bodies,
      ⟨afterSound.numbered.1, afterSound.numbered.2⟩,
      ⟨afterPlain.classes, afterPlain.frames, afterPlain.tasks, afterPlain.microtasks, afterPlain.jobs⟩,
      ⟨afterSound.served.1, afterSound.served.2⟩⟩

-- What comes of a program that has been loaded: it is run, and then its runner is finished, or all waiting work is
-- dropped after a failure.
def ProgramEnds (stage : Stage) (lines : List Node) (engine : Engine) (runner : RunnerId) (loaded : Machine) : Prop :=
  (∃ value last finished after, engine.run loaded = .done () finished ∧ (stage.put loaded).Reaches engine.run finished ∧
      Exec.finishRunner runner finished = .done last after ∧
      engine.evalProgram lines stage.machine = .done value after) ∨
    ∃ failure broken after, engine.run loaded = .failed failure broken ∧ (stage.put loaded).Breaks engine.run failure broken ∧
      Exec.reset broken = .done () after ∧ engine.evalProgram lines stage.machine = .failed failure after

theorem program_runs (stage : Stage) (lines : List Node) (engine : Engine) (lawful : engine.Lawful)
    (sound : stage.Sound) (outside : stage.calls = []) :
    engine.evalProgram lines stage.machine = .outOfFuel ∨
      ∃ runner loaded,
        Exec.loadProgram lines Arena.root { stage.machine with halted := false } = .done runner loaded ∧
        stage.Leads stage (stage.put loaded) ∧
        loaded.registered.Perm ((runner, Arena.root) :: stage.machine.registered) ∧
        stage.ProgramEnds lines engine runner loaded := by
  have clear : Step stage (stage.put { stage.machine with halted := false }) :=
    .quiet stage stage.machine.output false stage.machine.nextIdentity stage.machine.clock stage.machine.ready
  have here := within_put stage stage { stage.machine with halted := false } (.refl _) (within_refl stage)
  have same : Machine.registered { stage.machine with halted := false } = stage.machine.registered := rfl
  unfold ProgramEnds Engine.evalProgram Exec.clearHalt
  rw [Exec.modify_then]
  generalize ({ stage.machine with halted := false } : Machine) = cleared at clear here same ⊢
  have clearedSound := step_sound stage _ sound clear
  obtain ⟨runner, loaded, load⟩ := load_live (stage.put cleared) lines Arena.root clearedSound
    (clearedSound.ledger.live Arena.root (by simp [owners]))
  obtain ⟨loads, _, registered⟩ := load_leads _ lines Arena.root runner loaded clearedSound load
  have loadedSound : (stage.put loaded).Sound := leads_sound _ _ _ clearedSound loads
  have leads : stage.Leads stage (stage.put loaded) :=
    (Relation.ReflTransGen.single ⟨clear, here⟩).trans (leads_within _ stage _ _ here loads)
  rw [Exec.bind_done _ _ cleared loaded runner load]
  rcases Exec.follows_cases _ _ engine.run (engine.lawful_run lawful (stage.put loaded) loadedSound) with
    ⟨_, finished, run, reaches, _⟩ | ⟨failure, broken, run, breaks⟩ | exhausted
  · have finishedSound := reaches_sound _ _ finished loadedSound reaches
    obtain ⟨last, dropped, finish⟩ := finish_runner_total (stage.put finished) runner finishedSound
    rw [Exec.bind_done _ _ loaded finished (.ok ()) (by simp [Exec.attempt, show engine.run loaded = _ from run])]
    simp only
    rw [Exec.bind_done _ _ finished dropped last finish]
    refine .inr ⟨runner, loaded, load, leads, same ▸ registered, .inl ?_⟩
    cases last <;> exact ⟨_, _, finished, dropped, run, reaches, finish, rfl⟩
  · have brokenSound := breaks_sound _ _ failure broken loadedSound breaks
    obtain ⟨clean, dropped, _⟩ := reset_sound (stage.put broken) brokenSound outside
    rw [Exec.bind_done _ _ loaded broken (.error failure)
      (by simp [Exec.attempt, show engine.run loaded = _ from run])]
    simp only
    rw [Exec.bind_done _ _ broken clean () dropped]
    exact .inr ⟨runner, loaded, load, leads, same ▸ registered,
      .inr ⟨failure, broken, clean, run, breaks, dropped, rfl⟩⟩
  · exact .inl (Exec.bind_exhausted _ _ _
      (by simp [Exec.attempt, show engine.run loaded = _ from exhausted]))

theorem program_cases (stage : Stage) (lines : List Node) (engine : Engine) (lawful : engine.Lawful)
    (sound : stage.Sound) (outside : stage.calls = []) :
    engine.evalProgram lines stage.machine = .outOfFuel ∨
      ∃ runner loaded, stage.Leads stage (stage.put loaded) ∧
        loaded.registered.Perm ((runner, Arena.root) :: stage.machine.registered) ∧
        stage.ProgramEnds lines engine runner loaded := by
  rcases stage.program_runs lines engine lawful sound outside with exhausted | ⟨runner, loaded, _, ended⟩
  · exact .inl exhausted
  · exact .inr ⟨runner, loaded, ended⟩

theorem program_sound (stage : Stage) (lines : List Node) (engine : Engine) (after : Machine)
    (lawful : engine.Lawful) (sound : stage.Sound) (outside : stage.calls = [])
    (left : (engine.evalProgram lines stage.machine).Leaves after) : (stage.put after).Sound := by
  rcases stage.program_cases lines engine lawful sound outside with exhausted | ⟨runner, loaded, leads, _, ended⟩
  · rw [exhausted] at left
    exact absurd left (Outcome.exhausted_leaves after)
  have loadedSound := leads_sound stage stage _ sound leads
  rcases ended with ⟨value, last, finished, _, _, reaches, finish, done⟩ | ⟨failure, broken, _, _, breaks, dropped, failed⟩
  · rw [done] at left
    obtain rfl := (Outcome.done_leaves _ _ after).mp left
    have finishedSound := reaches_sound _ _ finished loadedSound reaches
    exact finish_runner_sound (stage.put finished) runner last after finishedSound finish
  · rw [failed] at left
    obtain rfl := (Outcome.failed_leaves _ _ after).mp left
    have brokenSound := breaks_sound _ _ failure broken loadedSound breaks
    obtain ⟨clean, cleaned, cleanSound⟩ := reset_sound (stage.put broken) brokenSound outside
    cases dropped.symm.trans cleaned
    exact cleanSound

theorem program_comes (stage : Stage) (lines : List Node) (engine : Engine) (runner : RunnerId) (loaded : Machine)
    (sound : stage.Sound)
    (load : Exec.loadProgram lines Arena.root { stage.machine with halted := false } = .done runner loaded) :
    (engine.evalProgram lines).Comes stage engine.run (stage.put loaded) := by
  have clear : Step stage (stage.put { stage.machine with halted := false }) :=
    .quiet stage stage.machine.output false stage.machine.nextIdentity stage.machine.clock stage.machine.ready
  have takes := (load_leads (stage.put { stage.machine with halted := false }) lines Arena.root runner loaded
    (step_sound stage _ sound clear) load).2.1
  refine .next _ _ stage (stage.put { stage.machine with halted := false }) () rfl
    (.stroke _ stage _ (.inl ⟨(), rfl⟩) (.inr (.inl clear))) _ _ ?_
  exact .next _ _ _ (stage.put loaded) runner load takes _ _ (.first _ _ _ _ _ (.attempt _ _ _ _ (.here _ _)))

section Strands
variable (stage : Stage) (failure : Failure) (after : Machine) (cause : Cause) (has : failure.HasCause cause)
  (stranding : cause.isStranding = true)
include has stranding

-- A run only fails so where it has come to something that it cannot go on with. From there it closes what is in
-- progress.
theorem follows_strands {α : Type} (good : α → Prop) (step : Exec α) (follows : stage.Follows good step)
    (failed : step stage.machine = .failed failure after) :
    ∃ middle, step.Strands stage cause middle ∧ stage.Leads stage middle ∧ stage.Leaves middle (stage.put after) := by
  unfold Follows at follows
  rw [failed] at follows
  obtain ⟨middle, leads, strands, leaves⟩ := follows.raised
  exact ⟨middle, strands cause has stranding, leads, leaves⟩

theorem program_strands (lines : List Node) (engine : Engine) (lawful : engine.Lawful) (sound : stage.Sound)
    (outside : stage.calls = []) (failed : engine.evalProgram lines stage.machine = .failed failure after) :
    ∃ middle broken, (engine.evalProgram lines).Strands stage cause middle ∧ stage.Leads stage middle ∧
      stage.Leaves middle (stage.put broken) ∧ Exec.reset broken = .done () after := by
  rcases stage.program_runs lines engine lawful sound outside with exhausted | ⟨runner, loaded, load, leads, _, ended⟩
  · cases exhausted.symm.trans failed
  rcases ended with ⟨_, _, _, _, _, _, _, done⟩ | ⟨_, broken, _, _, breaks, dropped, ended⟩
  · cases done.symm.trans failed
  · cases ended.symm.trans failed
    obtain ⟨middle, further, strands, leaves⟩ := breaks.raised
    have within := leads_here stage stage (stage.put loaded) (within_refl stage) leads
    obtain ⟨α, inner, place, comes, impasse⟩ := strands cause has stranding
    refine ⟨middle, broken, ⟨α, inner, place, ?_, impasse⟩, leads.trans (leads_within _ stage _ _ within further),
      leaves_within _ stage _ _ within leaves, dropped⟩
    exact Exec.comes_further _ _ _ _ _ _ (stage.program_comes lines engine runner loaded sound load) comes

end Strands

end Stage

theorem reachable_sound (config : Config) (stage : Stage) (reached : Reachable config stage) : stage.Sound := by
  induction reached with
  | start => exact Stage.start_sound config
  | step stage after _ step sound => exact step_sound stage after sound step
  | unwind stage after _ unwind sound => exact unwind_sound stage after sound unwind
  | perform stage operation fuel after _ plain ran sound =>
    exact stage.follows_sound _ _ after sound
      (operation.lawful_perform _ (RuleSet.lawful_engine fuel) plain stage sound) ran
  | program stage lines fuel after _ outside ran sound =>
    exact stage.program_sound lines _ after (RuleSet.lawful_engine fuel) sound outside ran
  | load stage lines frame id after _ loaded sound => 
    exact Stage.leads_sound stage stage _ sound (stage.load_leads lines frame id after sound loaded).1
  | finish stage id last after _ finished sound =>
    exact Stage.finish_runner_sound stage id last after sound finished
  | reset stage after _ outside dropped sound =>
    obtain ⟨reached, done, afterSound⟩ := stage.reset_sound sound outside
    rw [done] at dropped
    cases dropped
    exact afterSound
  | push stage parent id isFunction bindings after _ plain pushed sound =>
    exact stage.push_sound parent id isFunction bindings after plain sound pushed
  | retain stage id after _ retained sound => exact stage.retain_sound id after sound retained
  | release stage id after _ owned released sound => exact stage.release_sound id after sound owned released

end CoopScript
