import CoopScript.Proofs.Conduct.Schedule
import CoopScript.Proofs.Work.Primitive

set_option autoImplicit false
namespace CoopScript

namespace TaskTable
variable (table after : TaskTable) (holds : Value → Prop)
  (kept : ∀ task value, table.state? task = some (.ready value) → holds value)
include kept

theorem ready_created (task : TaskId) (value : Value) (ready : table.create.2.state? task = some (.ready value)) :
    holds value := by
  rw [state_created] at ready
  by_cases fresh : task = table.create.1
  · simp [fresh] at ready
  · exact kept task value (by simpa [fresh] using ready)

theorem ready_settled (settled task : TaskId) (result value : Value) (fine : holds result)
    (done : table.settle settled result = .ok after) (ready : after.state? task = some (.ready value)) : holds value := by
  obtain ⟨_, states⟩ := settle_done table after settled result done
  rw [states] at ready
  by_cases same : task = settled
  · rw [if_pos same] at ready
    cases ready
    exact fine
  · rw [if_neg same] at ready
    exact kept task value ready

theorem ready_consumed (consumed task : TaskId) (result value : Value)
    (done : table.consume consumed = .ok (some result, after)) (ready : after.state? task = some (.ready value)) :
    holds value := by
  obtain ⟨_, states⟩ := consume_done table after consumed result done
  rw [states] at ready
  by_cases same : task = consumed
  · simp [same] at ready
  · rw [if_neg same] at ready
    exact kept task value ready

end TaskTable

namespace Machine
variable (machine : Machine) (tidy : machine.Tidy)
include tidy

theorem tidy_polled (status : EventStatus) (polled : Machine) (asked : Exec.Polled machine status polled) (id : EventId)
    (known : machine.poolEvent = some id) : Tidy { polled with
      events := if status = .done then machine.events.filter fun entry => entry.1 ≠ id else machine.events } := by
  have waiting : ∀ microtasks : List Microtask, (∀ microtask ∈ microtasks, microtask.Mild) → ∀ clock (pool : Option Pool),
      Tidy { machine with clock := clock, pool := pool, microtasks := microtasks } := fun microtasks mild clock pool =>
    ⟨{ tidy.mild with microtasks := mild }, { tidy.polling with busy := fun _ => known ▸ by simp }⟩
  cases asked with
  | forgotten clock pool idle stillIdle =>
    have ended := machine.polling_ended tidy.polling idle id known
    -- Only a pool without jobs is forgotten.
    have left : ∀ entry ∈ machine.events.filter fun entry => entry.1 ≠ id,
        ∀ event, entry.2 = some event → event.Mild := fun entry member =>
      tidy.mild.events entry (List.mem_filter.mp member).1
    refine ⟨{ tidy.mild with events := left }, { ended with busy := fun busy => ?_ }⟩
    cases content : pool with
    | none => simp [content, Machine.jobs] at busy
    | some pool => exact absurd (stillIdle pool content) (by simpa [content, Machine.jobs] using busy)
  | waiting clock pool same busy => exact waiting _ tidy.mild.microtasks clock (some pool)
  | ended clock pool jobs nonempty split =>
    refine waiting _ (fun microtask member => ?_) clock (some pool)
    rcases List.mem_append.mp member with queued | new
    · exact tidy.mild.microtasks microtask queued
    · obtain ⟨job, _, rfl⟩ := List.mem_map.mp new
      unfold Job.microtask
      cases job.outcome <;> exact fun _ same => by cases same

end Machine

namespace Exec

theorem created_goes (machine : Machine) (tidy : machine.Tidy) :
    machine.Goes { machine with tasks := machine.tasks.create.2 } :=
  ⟨machine.tidy_tasks tidy _ (machine.tasks.ready_created _ tidy.mild.tasks), machine.later_kept _ rfl rfl⟩

theorem told_create : createTask.Told fun _ => True := fun moment fine =>
  done_tells moment _ _ _ _ rfl (.create moment.machine (created_goes _ fine.tidy)) trivial

theorem told_spawn_async (name : String) (lines : List Node) (arguments : Bindings) (caller : FrameId)
    (mild : arguments.All Value.Mild) : (spawnAsync name lines arguments caller).Told Value.Mild := by
  intro moment fine
  have created := created_goes moment.machine fine.tidy
  rcases spawn_async_cases name lines arguments caller moment.machine with
    ⟨frame, frames, pushed, done⟩ | ⟨cause, refused, failed⟩
  · have framesMild := moment.machine.frames.mild_push frames fine.tidy.mild.frames caller frame true arguments mild pushed
    have opened := Machine.tidy_frames _ created.tidy frames framesMild
    have queued := Machine.tidy_queued _ opened (.asyncBody moment.machine.tasks.create.1 name lines frame)
      fun _ same => by cases same
    refine done_tells moment _ _ _ [.made moment.machine.tasks.create.1 (.called name lines frame)] done ?_
      (ClassTable.mild_promise _ fine.tidy.mild.classes _)
    refine .call name lines arguments caller frame frames moment.machine _ pushed rfl ⟨?_, Machine.later_kept _ _ rfl rfl⟩
    exact ⟨{ queued.mild with }, { queued.polling with }⟩
  · have stale := moment.machine.frames.push_fault caller true arguments cause refused
    exact failed_tells moment _ _ _ _ failed (.refused name lines arguments caller cause moment.machine refused created)
      (Failure.once_of cause (stale ▸ rfl))

theorem submit_marks (machine : Machine) (tidy : machine.Tidy) (outcome : Option Scalar) (milliseconds : Nat)
    (promise : Value) (after : Machine) (done : spawnBlocking outcome milliseconds machine = .done promise after) :
    (spawnBlocking outcome milliseconds).Marks machine [.made machine.tasks.create.1 (.submitted outcome)] after := by
  have created := (created_goes machine tidy).tidy
  refine .submit outcome milliseconds promise machine after done ?_
  obtain ⟨pool, _, _, ⟨event, asked, same⟩ | ⟨unasked, same⟩⟩ := spawn_blocking_cases outcome milliseconds machine
  · cases same.symm.trans done
    exact ⟨Machine.tidy_pool _ created (some pool) (by simp [asked]), Machine.later_kept _ _ rfl rfl⟩
  · cases same.symm.trans done
    refine ⟨Machine.tidy_pool _ (Machine.tidy_begun _ created unasked) (some pool) (by simp), Nat.le_succ _, ?_⟩
    intro id same
    cases same
    exact .inr (Nat.lt_succ_self _)

theorem told_spawn_blocking (outcome : Option Scalar) (milliseconds : Nat) :
    (spawnBlocking outcome milliseconds).Told Value.Mild := by
  intro moment fine
  obtain ⟨promise, after, done⟩ := spawn_blocking_total outcome milliseconds moment.machine
  obtain ⟨_, _, _, _, _, rfl, _⟩ := spawn_blocking_done outcome milliseconds promise moment.machine after done
  have made := submit_marks moment.machine fine.tidy outcome milliseconds _ after done
  exact done_tells moment _ _ after _ done made (ClassTable.mild_promise _ fine.tidy.mild.classes _)

theorem consumed_goes (machine after : Machine) (tidy : machine.Tidy) (task : TaskId) (value : Value)
    (taken : consumeTask task machine = .done (some value) after) : machine.Goes after := by
  obtain ⟨tasks, consumed, rfl⟩ := consume_task_done task (some value) machine after taken
  refine ⟨machine.tidy_tasks tidy tasks fun other result => ?_, machine.later_kept _ rfl rfl⟩
  exact machine.tasks.ready_consumed tasks _ tidy.mild.tasks task other value result consumed

theorem told_consume (task : TaskId) : (consumeTask task).Told fun result => ∀ value, result = some value → value.Mild := by
  intro moment fine
  cases consumed : moment.machine.tasks.consume task with
  | error cause =>
    have once : cause.isTwice = false := by
      rcases moment.machine.tasks.consume_fault task cause consumed with rfl | rfl <;> rfl
    have failed : consumeTask task moment.machine = .failed (.of cause) moment.machine := by
      simp only [consumeTask, consumed]
    exact failed_tells moment _ _ _ _ failed (.untaken task moment.machine (.inr ⟨_, failed⟩)) (Failure.once_of cause once)
  | ok result =>
    obtain ⟨given, tasks⟩ := result
    have done : consumeTask task moment.machine = .done given { moment.machine with tasks := tasks } := by
      simp only [consumeTask, consumed]
    cases given with
    | none =>
      have unchanged : tasks = moment.machine.tasks := by
        unfold TaskTable.consume at consumed
        split at consumed <;> cases consumed
        rfl
      subst unchanged
      exact done_tells moment _ _ _ _ done (.untaken task moment.machine (.inl ⟨_, done⟩)) fun _ none => by cases none
    | some value =>
      obtain ⟨ready, _⟩ := moment.machine.tasks.consume_done tasks task value consumed
      have goes := consumed_goes moment.machine _ fine.tidy task value done
      refine done_tells moment _ _ _ _ done (.take task value moment.machine _ done goes) fun other same => ?_
      exact Option.some.inj same ▸ fine.tidy.mild.tasks task value ready

section Events
variable (id : EventId)

theorem told_register (name : String) (turns : List Turn) (mild : Turn.allMild turns = true) :
    Told (do Exec.nameEvent name (← Exec.registerEvent (.host turns 0))) fun _ => True := by
  refine told_aside (fun machine after _ tidy done => ?_) fun _ _ _ _ failed => by cases failed
  cases done
  have polling := Machine.polling_named _ (machine.polling_fresh tidy.polling (.host turns 0) (by simp)) name
    ⟨machine.eventCount + 1⟩ (Nat.le_refl _) (machine.unknown_fresh tidy.polling)
  have events := machine.mild_registered tidy ⟨machine.eventCount + 1⟩ (.host turns 0) fun _ _ same => by
    cases same
    exact mild
  exact ⟨⟨rfl, rfl, rfl, ⟨{ tidy.mild with events := events }, polling⟩, Nat.le_succ _, fun _ same => .inl same⟩, trivial⟩

-- That an event is changed or removed has nothing to do with tasks, whatever event it is.
theorem calm_set_event (event : Option Microevent) : (setEvent id event).Calm := fun _ _ _ left => by
  obtain rfl := (Outcome.done_leaves _ _ _).mp left
  exact ⟨rfl, rfl, rfl⟩

theorem calm_remove_event : (removeEvent id).Calm := fun _ _ _ left => by
  obtain rfl := (Outcome.done_leaves _ _ _).mp left
  exact ⟨rfl, rfl, rfl⟩

variable (moment : Moment) (fine : moment.Fine) (other : moment.machine.poolEvent ≠ some id)
include fine other

theorem set_event_tells (event : Option Microevent) (mild : ∀ content, event = some content → content.Mild)
    (plain : event ≠ some .pollPool) : (setEvent id event).Tells (fun _ => True) moment := by
  refine done_tells moment _ () _ [] rfl (aside_marks _ (calm_set_event id event) _ _ (.inl ⟨_, rfl⟩) ?_) trivial
  refine moment.machine.aside_events fine.tidy _ (fun entry member content same => ?_)
    (moment.machine.polling_set fine.tidy.polling id event other plain)
  obtain ⟨old, known, rfl⟩ := List.mem_map.mp member
  by_cases here : old.1 = id
  · rw [if_pos here] at same
    exact mild content same
  · rw [if_neg here] at same
    exact fine.tidy.mild.events old known content same

theorem remove_event_tells : (removeEvent id).Tells (fun _ => True) moment := by
  refine done_tells moment _ _ _ [] rfl (aside_marks _ (calm_remove_event id) _ _ (.inl ⟨_, rfl⟩) ?_) trivial
  refine moment.machine.aside_events fine.tidy _
    (fun entry member => fine.tidy.mild.events entry (List.mem_filter.mp member).1)
    (moment.machine.polling_filtered fine.tidy.polling _ fun poll same => ?_)
  exact decide_eq_true fun is => other (is ▸ same)

end Events

-- Besides dropping what waits, a reset has nothing to do with tasks, and the pool is still asked for what it has.
theorem clear_clean : Clean (do
    let frames ← read (·.asyncFrames)
    modify fun machine => { machine with asyncFrames := [] }
    each releaseFrame frames
    let ids ← read fun machine => machine.runners.map Prod.fst
    each (fun id => do let _ ← finishRunner id) ids
    modify fun machine =>
      { machine with
        events := machine.events.filter fun entry => some entry.1 = machine.poolEvent
        depth := 0 }) := by
  refine clean_bind _ (clean_read _) fun frames => ?_
  refine clean_bind _ (clean_modify _ fun machine tidy => machine.aside_quiet tidy _ _ _ _ _ _ _) fun _ => ?_
  refine clean_bind _ (clean_each _ frames clean_release) fun _ => clean_bind _ (clean_read _) fun ids => ?_
  have finishes : ∀ id, Clean (do let _ ← finishRunner id) := fun id =>
    clean_bind _ (finish_runner_clean id) fun _ => clean_read fun _ => ()
  refine clean_bind _ (clean_each _ ids finishes) fun _ => clean_modify _ fun machine tidy => ?_
  have kept := machine.aside_events tidy (machine.events.filter fun entry => some entry.1 = machine.poolEvent)
    (fun entry member => tidy.mild.events entry (List.mem_filter.mp member).1)
    (machine.polling_filtered tidy.polling _ fun id same => by simp [same])
  exact ⟨rfl, rfl, rfl, ⟨{ kept.tidy.mild with }, { kept.tidy.polling with }⟩, Machine.later_kept _ _ rfl rfl⟩

section Reset
variable (machine after : Machine) (tidy : machine.Tidy)
include tidy

theorem reset_aside (left : (reset machine).Leaves after) :
    Machine.Aside { machine with ready := [], microtasks := [] } after := by
  have emptied := machine.tidy_microtasks tidy [] fun _ none => by cases none
  exact clean_left clear_clean _ after ⟨{ emptied.mild with }, { emptied.polling with }⟩ left

theorem reset_goes (left : (reset machine).Leaves after) : machine.Goes after := by
  have aside := reset_aside machine after tidy left
  refine ⟨aside.tidy, machine.later_trans { machine with ready := [], microtasks := [] } after ?_ aside.later⟩
  exact machine.later_kept _ rfl rfl

theorem reset_once (failure : Failure) (failed : reset machine = .failed failure after) : failure.Once := by
  have emptied := machine.tidy_microtasks tidy [] fun _ none => by cases none
  exact clean_once clear_clean { machine with ready := [], microtasks := [] } after failure ⟨{ emptied.mild with }, { emptied.polling with }⟩ failed

theorem reset_unmoved (left : (reset machine).Leaves after) :
    Machine.Unmoved { machine with ready := [], microtasks := [] } after := by
  have aside := reset_aside machine after tidy left
  exact ⟨aside.tasks, aside.queued, aside.jobs⟩

end Reset

theorem told_give_up {good : Value → Prop} (failure : Failure) (once : failure.Once) :
    Told (do reset; raise failure : Exec Value) good := by
  intro moment fine
  have made : ∀ after, (reset moment.machine).Leaves after → _ := fun after left =>
    Marks.giveUp failure moment.machine after left (reset_unmoved _ after fine.tidy left) (reset_goes _ after fine.tidy left)
  cases ran : reset moment.machine with
  | done value after =>
    exact failed_tells moment _ failure after _ (bind_done reset _ _ after value ran) (made after (.inl ⟨value, ran⟩)) once
  | failed other after =>
    exact failed_tells moment _ other after _ (bind_failed reset _ _ after other ran) (made after (.inr ⟨other, ran⟩))
      (reset_once _ after fine.tidy other ran)
  | outOfFuel => exact exhausted_tells moment _ (bind_exhausted reset _ _ ran)

theorem told_empty : Told (do reset; return .nothing : Exec Answer) fun _ => True := by
  intro moment fine
  have made : ∀ after, (reset moment.machine).Leaves after → _ := fun after left =>
    Marks.empty moment.machine after left (reset_unmoved _ after fine.tidy left) (reset_goes _ after fine.tidy left)
  cases ran : reset moment.machine with
  | done value after =>
    exact done_tells moment _ .nothing after _ (bind_done reset _ _ after value ran) (made after (.inl ⟨value, ran⟩)) trivial
  | failed other after =>
    exact failed_tells moment _ other after _ (bind_failed reset _ _ after other ran) (made after (.inr ⟨other, ran⟩))
      (reset_once _ after fine.tidy other ran)
  | outOfFuel => exact exhausted_tells moment _ (bind_exhausted reset _ _ ran)

end Exec

theorem Cause.ordinary_once (cause : Cause) (ordinary : cause.isOrdinary = true) : cause.isTwice = false := by
  cases cause <;> first | rfl | cases ordinary

theorem Exec.told_refuse {α : Type} {good : α → Prop} (cause : Cause) (place : Option Position)
    (ordinary : cause.isOrdinary = true) : (raise (.fault ⟨cause, place, []⟩) : Exec α).Told good := by
  refine told_raise _ ?_
  rintro _ ⟨_, same, rfl⟩
  cases same
  exact cause.ordinary_once ordinary

namespace Conduct

def told : Conduct where
  World := Unit
  Grows _ _ := True
  still _ := trivial
  grow _ _ := trivial
  Good _ := Value.Mild
  Admits := Native.Mild
  more _ mild := mild
  member mild := Value.mild_member _ mild
  items mild := Value.mild_items _ mild
  native mild := Value.mild_native _ mild
  hook mild code hook _ same := Native.behaviour.inj same ▸ Value.mild_hook _ mild callHook code hook
  constant mild _ := (mild _ rfl).constant _ rfl
  Keeps _ _ step _ := step.Told (Valued.All Value.Mild)
  pure := Exec.told_pure
  bind next _ step later := Exec.told_bind next step fun value good => later () value trivial good
  exhausted := Exec.told_exhausted
  refuse := Exec.told_refuse
  misplaced engine _ _ _ binding argument _ cause refused := by
    rw [engine.bind_all_refused _ _ _ _ _ _ cause refused]
    exact Exec.told_refuse cause _ (binding.place_ordinary _ _ argument cause refused)
  placed _ _ _ _ _ _ position _ evaluates _ told := by
    rw [evaluates]
    exact Exec.told_map_failure _ (Failure.placed_cause (some position)) told
  look view next _ later := Exec.told_bind next (Exec.told_seen _) fun answer _ => later answer
  scalar content := Exec.told_class_value (·.scalar content) fun table mild => table.mild_scalar mild content
  array := Exec.told_array
  lookUp := Exec.told_look_up _
  assign name value := Exec.told_assign _ name value
  writeLine := Exec.told_write_line
  halt := Exec.told_halt
  spawnBlocking outcome := Exec.told_spawn_blocking (some outcome)
  spawnAsync name lines arguments := Exec.told_spawn_async name lines arguments _

theorem told_machinery : told.Machinery where
  seen _ next _ later := Exec.told_bind next (Exec.told_seen _) fun answer _ => later answer
  tooDeep limit name := Exec.told_fail (.depthExceeded limit name) rfl
  unsettled := Exec.told_fail .neverSettled rfl
  guard cleanup next reraises told cleanups laters := by
    refine Exec.told_bind _ (Exec.told_attempt told) fun outcome known => ?_
    refine Exec.told_bind _ (cleanups ()) fun result good => ?_
    cases outcome with
    | ok value => exact laters () result value good (known.1 value rfl)
    | error failure =>
      rw [reraises]
      exact Exec.told_raise failure (known.2 failure rfl)
  quiet change quiet := Exec.told_quiet change fun machine => by
    obtain ⟨clock, ready, depth, same⟩ := quiet machine
    exact ⟨clock, ready, _, depth, _, _, _, same⟩
  push caller := Exec.told_push caller true
  release := Exec.told_release
  takeReturn := Exec.told_take_return
  createRunner := Exec.told_create_runner
  updateRunner id change kept := Exec.told_update_runner id change fun runner mild value last => mild value (kept runner ▸ last)
  record := Exec.told_record
  advance := Exec.told_advance
  finishRunner := Exec.told_finish_runner
  consume := Exec.told_consume

end Conduct

structure Invocation.Mild (invocation : Invocation) : Prop where
  target : invocation.target.Mild
  function : invocation.function.Mild
  arguments : invocation.arguments.All Value.Mild

def GivenMild (value : Option Value) : Prop := ∀ content, value = some content → content.Mild

-- An engine of the standard rules, all of whose steps are told by deeds if what they are given is mild.
structure Engine.Told (engine : Engine) : Prop where
  standard : ∃ fuel, engine = RuleSet.standard.engine fuel
  parse : ∀ source, (engine.parse source).Told fun _ => True
  evaluate : ∀ node frame, (engine.evaluate node frame).Told Value.Mild
  execute : ∀ node frame, (engine.execute node frame).Told GivenMild
  native : ∀ code invocation, code.Mild → invocation.Mild → (engine.native code invocation).Told Value.Mild
  perform : ∀ action, action.mild = true → (engine.perform action).Told fun _ => True
  body : ∀ lines frame, (engine.body lines frame).Told GivenMild

namespace Engine
variable (engine : Engine) (told : engine.Told)
include told

theorem told_perform_all (actions : List Action) (mild : Action.allMild actions = true) :
    (engine.performAll actions).Told fun _ => True :=
  Exec.told_each _ actions fun action member =>
    Exec.told_bind _ (told.perform action ((Action.all_mild_iff actions).mp mild action member)) fun _ _ =>
      Exec.told_pure () trivial

theorem told_execute_line (node : Node) (frame : FrameId) : (engine.executeLine node frame).Told GivenMild :=
  Exec.told_map_failure (trace node) (Failure.traced_cause node) (told.execute node frame)

theorem drives_told : Conduct.told.Drives engine engine where
  fuel := rfl
  line := engine.told_execute_line told
  body := told.body

theorem told_run_block (lines : List Node) (frame : FrameId) : (engine.runBlock lines frame).Told GivenMild :=
  (engine.drives_told told).run_block Conduct.told_machinery () frame lines frame

theorem told_run_body (lines : List Node) (frame : FrameId) : (engine.runBody lines frame).Told GivenMild :=
  (engine.drives_told told).run_body Conduct.told_machinery () frame lines frame

theorem told_run_frame (name : String) (lines : List Node) (frame : FrameId) :
    (engine.runFrame name lines frame).Told Value.Mild :=
  (engine.drives_told told).run_frame Conduct.told_machinery () frame name lines frame

theorem told_invoke_script (name : String) (lines : List Node) (arguments : Bindings) (caller : FrameId)
    (mild : arguments.All Value.Mild) : (engine.invokeScript name lines arguments caller).Told Value.Mild :=
  (engine.drives_told told).invoke_script Conduct.told_machinery () caller name lines arguments caller mild

end Engine

end CoopScript
