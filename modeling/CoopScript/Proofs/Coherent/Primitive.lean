import CoopScript.Machine.Scheduler
import CoopScript.Proofs.Coherent.Step
import CoopScript.Rule.Operation

set_option autoImplicit false
namespace CoopScript

namespace Machine
variable {law : ValueLaw} (machine : Machine) (abides : machine.Abides law)
include abides

theorem abides_aside (after : Machine) (classes : after.classes = machine.classes) (frames : after.frames = machine.frames)
    (tasks : after.tasks = machine.tasks) (runners : after.runners = machine.runners)
    (microtasks : after.microtasks = machine.microtasks) (events : after.events = machine.events)
    (identities : after.nextIdentity = machine.nextIdentity) : after.Abides law ∧ after.extent = machine.extent := by
  have same : after.extent = machine.extent := by rw [extent, tasks, identities, extent]
  refine ⟨⟨classes ▸ abides.classes, identities ▸ abides.begun, ?_, ?_, ?_, ?_, ?_⟩, same⟩
  · rw [same, frames]
    exact abides.frames
  · rw [same, tasks]
    exact abides.tasks
  · rw [same, runners]
    exact abides.runners
  · rw [microtasks]
    exact abides.microtasks
  · rw [events]
    exact abides.events

theorem abides_frames (frames : Arena) (kept : frames.Keeps (law.Holds machine.extent)) :
    { machine with frames := frames }.Abides law :=
  ⟨abides.classes, abides.begun, kept, abides.tasks, abides.runners, abides.microtasks, abides.events⟩

theorem abides_tasks (tasks : TaskTable) (count : tasks.count = machine.tasks.count)
    (kept : ∀ task value, tasks.state? task = some (.ready value) → law.Holds machine.extent value) :
    { machine with tasks := tasks }.Abides law ∧ { machine with tasks := tasks }.extent = machine.extent := by
  have same : { machine with tasks := tasks }.extent = machine.extent := by simp only [extent, count]
  exact ⟨⟨abides.classes, abides.begun, same ▸ abides.frames, same ▸ kept, same ▸ abides.runners, abides.microtasks,
    abides.events⟩, same⟩

theorem abides_runners (runners : List (RunnerId × Runner))
    (kept : ∀ entry ∈ runners, ∀ value, entry.2.last = some value → law.Holds machine.extent value) :
    { machine with runners := runners }.Abides law :=
  ⟨abides.classes, abides.begun, abides.frames, abides.tasks, kept, abides.microtasks, abides.events⟩

theorem abides_microtasks (microtasks : List Microtask) (kept : ∀ microtask ∈ microtasks, ∀ actions, microtask ≠ .host actions) :
    { machine with microtasks := microtasks }.Abides law :=
  ⟨abides.classes, abides.begun, abides.frames, abides.tasks, abides.runners, kept, abides.events⟩

theorem abides_events (events : List (EventId × Option Microevent))
    (kept : ∀ entry ∈ events, ∀ turns next, entry.2 ≠ some (.host turns next)) :
    { machine with events := events }.Abides law :=
  ⟨abides.classes, abides.begun, abides.frames, abides.tasks, abides.runners, abides.microtasks, kept⟩

theorem abides_more (tasks : TaskTable) (identities : Nat) (count : machine.tasks.count ≤ tasks.count)
    (given : machine.nextIdentity ≤ identities)
    (kept : ∀ task value, tasks.state? task = some (.ready value) → law.Holds machine.extent value) :
    { machine with tasks := tasks, nextIdentity := identities }.Abides law := by
  have fewer : machine.extent ≤ { machine with tasks := tasks, nextIdentity := identities }.extent := ⟨count, given⟩
  exact ⟨abides.classes, Nat.le_trans abides.begun given,
    Arena.keeps_weaken abides.frames fun _ => law.more fewer,
    fun task value ready => law.more fewer (kept task value ready),
    fun entry listed value last => law.more fewer (abides.runners entry listed value last),
    abides.microtasks, abides.events⟩

end Machine

namespace Exec
variable {law : ValueLaw} {α β : Type} {extent : Extent} {good : Extent → α → Prop}

section Memory
variable (frame : FrameId)

theorem abides_ask (ask : Arena → Except Cause α)
    (fine : ∀ (arena : Arena) (answer : α), arena.Keeps (law.Holds extent) → ask arena = .ok answer → good extent answer) :
    (askFrames ask).Abides law extent good := by
  rintro machine abides rfl
  unfold askFrames
  split
  next answer asked => exact ⟨abides, le_refl _, fine machine.frames answer abides.frames asked⟩
  next => exact ⟨abides, le_refl _⟩

theorem abides_change (change : Arena → Except Cause (α × Arena))
    (fine : ∀ (arena after : Arena) (answer : α), arena.Keeps (law.Holds extent) → change arena = .ok (answer, after) →
      good extent answer ∧ after.Keeps (law.Holds extent)) : (changeFrames change).Abides law extent good := by
  rintro machine abides rfl
  unfold changeFrames
  split
  next answer frames changed =>
    obtain ⟨fineAnswer, kept⟩ := fine machine.frames frames answer abides.frames changed
    exact ⟨machine.abides_frames abides frames kept, le_refl _, fineAnswer⟩
  next => exact ⟨abides, le_refl _⟩

theorem abides_update (change : Arena → Except Cause Arena)
    (fine : ∀ arena after : Arena, arena.Keeps (law.Holds extent) → change arena = .ok after →
      after.Keeps (law.Holds extent)) : (updateFrames change).Abides law extent fun _ _ => True := by
  rintro machine abides rfl
  unfold updateFrames
  split
  next frames changed =>
    exact ⟨machine.abides_frames abides frames (fine machine.frames frames abides.frames changed), le_refl _, trivial⟩
  next => exact ⟨abides, le_refl _⟩

theorem abides_retain : (retainFrame frame).Abides law extent fun _ _ => True :=
  abides_update _ fun _ _ kept done => Arena.keeps_retain kept frame done

theorem abides_release : (releaseFrame frame).Abides law extent fun _ _ => True := by
  rintro machine abides rfl
  have kept := Arena.keeps_release abides.frames frame
  unfold releaseFrame
  split
  next frames done =>
    rw [done] at kept
    exact ⟨machine.abides_frames abides frames kept, le_refl _, trivial⟩
  next frames cause done =>
    rw [done] at kept
    exact ⟨machine.abides_frames abides frames kept, le_refl _⟩

theorem abides_push (isFunction : Bool) (bindings : Bindings) (known : bindings.All (law.Holds extent)) :
    (pushFrame frame isFunction bindings).Abides law extent fun _ _ => True :=
  abides_change _ fun _ _ id kept done => ⟨trivial, Arena.keeps_push kept frame id isFunction bindings known done⟩

theorem abides_look_up (name : String) : (lookUp frame name).Abides law extent law.Holds :=
  abides_ask _ fun _ value kept done => Arena.keeps_look_up kept frame name value done

theorem abides_set_variable (name : String) (value : Value) (known : law.Holds extent value) :
    (setVariable frame name value).Abides law extent fun _ _ => True :=
  abides_update _ fun _ _ kept done => Arena.keeps_set_variable kept frame name value known done

theorem abides_assign (name : String) (value : Value) (known : law.Holds extent value) :
    (assign frame name value).Abides law extent fun _ _ => True :=
  abides_update _ fun _ _ kept done => Arena.keeps_assign kept frame name value known done

theorem abides_set_return (value : Value) (known : law.Holds extent value) :
    (setReturn frame value).Abides law extent fun _ _ => True :=
  abides_update _ fun _ _ kept done => Arena.keeps_set_return kept frame value known done

theorem abides_take_return : (takeReturn frame).Abides law extent
    fun more result => ∀ value, result = some value → law.Holds more value :=
  abides_change _ fun _ _ result kept done => Arena.keeps_take_return kept frame result done

theorem abides_function_frame : (askFrames (·.functionFrame frame)).Abides law extent fun _ _ => True :=
  abides_ask _ fun _ _ _ _ => trivial

theorem abides_is_unwinding : (isUnwinding frame).Abides law extent fun _ _ => True := by
  refine abides_bind _ (abides_seen _) fun _ halted _ _ => ?_
  cases halted with
  | true => exact abides_pure true trivial
  | false =>
    refine abides_bind _ (abides_function_frame frame) fun _ function _ _ => ?_
    cases function with
    | some function => exact abides_seen _
    | none => exact abides_pure false trivial

end Memory

section Tasks
variable (task : TaskId)

theorem abides_create_task : createTask.Abides law extent fun more task => 0 < task.number ∧ task.number ≤ more.tasks := by
  rintro machine abides rfl
  have kept := machine.abides_more abides machine.tasks.create.2 machine.nextIdentity machine.tasks.count_created
    (Nat.le_refl _) (Stage.ready_created _ machine.tasks abides.tasks)
  exact ⟨kept, ⟨machine.tasks.count_created, Nat.le_refl _⟩, machine.tasks.created_within⟩

theorem abides_settle_task (value : Value) (known : law.Holds extent value) :
    (settleTask task value).Abides law extent fun _ _ => True := by
  rintro machine abides rfl
  unfold settleTask
  split
  next tasks settled =>
    obtain ⟨_, changed⟩ := TaskTable.settle_done machine.tasks tasks task value settled
    obtain ⟨kept, same⟩ := machine.abides_tasks abides tasks (machine.tasks.count_settled tasks task value settled)
      (Stage.ready_changed _ machine.tasks tasks task (.ready value) abides.tasks (fun _ here => by cases here; exact known)
        changed)
    exact ⟨kept, same ▸ le_refl _, trivial⟩
  next => exact ⟨abides, le_refl _⟩

theorem abides_consume_task : (consumeTask task).Abides law extent
    fun more result => ∀ value, result = some value → law.Holds more value := by
  rintro machine abides rfl
  unfold consumeTask
  split
  next result tasks consumed =>
    have count := machine.tasks.count_consumed tasks task result consumed
    cases result with
    | none =>
      obtain ⟨_, rfl⟩ := TaskTable.consume_waits machine.tasks tasks task consumed
      exact ⟨abides, le_refl _, fun _ none => by cases none⟩
    | some value =>
      obtain ⟨ready, changed⟩ := TaskTable.consume_done machine.tasks tasks task value consumed
      obtain ⟨kept, same⟩ := machine.abides_tasks abides tasks count
        (Stage.ready_changed _ machine.tasks tasks task .consumed abides.tasks (fun _ here => by cases here) changed)
      refine ⟨kept, same ▸ le_refl _, fun other given => ?_⟩
      cases given
      exact same ▸ abides.tasks task value ready
  next => exact ⟨abides, le_refl _⟩

end Tasks

section Values
variable (value : Value)

theorem abides_value (build : ClassTable → Value)
    (known : ClassTable.firstIdentity ≤ extent.identities → law.Holds extent (build .intrinsic)) :
    (read fun machine => build machine.classes).Abides law extent law.Holds :=
  abides_read _ fun _ abides reaches => abides.classes ▸ known (reaches ▸ abides.begun)

theorem abides_scalar (scalar : Scalar) :
    (read fun machine => machine.classes.scalar scalar).Abides law extent law.Holds :=
  abides_value (fun table => table.scalar scalar) fun begun => law.scalar begun scalar

theorem abides_void : void.Abides law extent law.Holds := abides_scalar .void

theorem abides_promise (task : TaskId) (positive : 0 < task.number) (within : task.number ≤ extent.tasks) :
    (promise task).Abides law extent law.Holds :=
  abides_value (fun table => table.promise task) fun begun => law.promise begun task positive within

theorem abides_next_identity : nextIdentity.Abides law extent fun more identity => identity < more.identities := by
  rintro machine abides rfl
  have kept := machine.abides_more abides machine.tasks (machine.nextIdentity + 1) (Nat.le_refl _) (Nat.le_succ _)
    abides.tasks
  exact ⟨kept, ⟨Nat.le_refl _, Nat.le_succ _⟩, Nat.lt_succ_self _⟩

theorem abides_array (items : List Value) (known : ∀ item ∈ items, law.Holds extent item) :
    (array items).Abides law extent law.Holds :=
  abides_bind _ abides_next_identity fun _ identity fewer _ =>
    abides_value (fun table => table.array identity items) fun begun =>
      law.array begun identity items fun item listed => law.more fewer (known item listed)

theorem abides_function (content : Function Value) (ordinary : content.Ordinary) :
    (function content).Abides law extent law.Holds :=
  abides_bind _ abides_next_identity fun _ identity _ given =>
    abides_value (fun table => table.function identity content) fun begun =>
      law.function begun identity content given ordinary

end Values

section Rest

theorem abides_quiet (change : Machine → Machine) (quiet : ∀ machine : Machine, ∃ config clock ready eventCount runnerCount
      halted depth pool poolEvent asyncFrames output handles, change machine = { machine with
        config := config, clock := clock, ready := ready, eventCount := eventCount, runnerCount := runnerCount
        halted := halted, depth := depth, pool := pool, poolEvent := poolEvent, asyncFrames := asyncFrames
        output := output, handles := handles }) : (modify change).Abides law extent fun _ _ => True :=
  abides_modify _ fun machine abides => by
    obtain ⟨config, clock, ready, eventCount, runnerCount, halted, depth, pool, poolEvent, asyncFrames, output, handles, same⟩ :=
      quiet machine
    rw [same]
    exact machine.abides_aside abides _ rfl rfl rfl rfl rfl rfl rfl

theorem abides_enqueue (task : Microtask) (other : ∀ actions, task ≠ .host actions) :
    (enqueueMicrotask task).Abides law extent fun _ _ => True :=
  abides_modify _ fun machine abides => by
    refine ⟨machine.abides_microtasks abides _ fun microtask listed => ?_, rfl⟩
    rcases List.mem_append.mp listed with old | new
    · exact abides.microtasks microtask old
    · exact List.mem_singleton.mp new ▸ other

theorem abides_register_event (event : Microevent) (other : ∀ turns next, event ≠ .host turns next) :
    (registerEvent event).Abides law extent fun _ _ => True := by
  rintro machine abides rfl
  have counted := (machine.abides_aside abides { machine with eventCount := machine.eventCount + 1 }
    rfl rfl rfl rfl rfl rfl rfl).1
  refine ⟨Machine.abides_events _ counted _ fun entry listed turns next => ?_, le_refl _, trivial⟩
  rcases List.mem_append.mp listed with old | new
  · exact abides.events entry old turns next
  · cases List.mem_singleton.mp new
    exact fun same => other turns next (Option.some.inj same)

theorem abides_remove_event (id : EventId) : (removeEvent id).Abides law extent fun _ _ => True := by
  rintro machine abides rfl
  exact ⟨machine.abides_events abides _ fun entry listed => abides.events entry (List.mem_of_mem_filter listed),
    le_refl _, trivial⟩

theorem abides_set_event (id : EventId) (event : Option Microevent) (other : ∀ turns next, event ≠ some (.host turns next)) :
    (setEvent id event).Abides law extent fun _ _ => True :=
  abides_modify _ fun machine abides => by
    refine ⟨machine.abides_events abides _ fun entry listed turns next => ?_, rfl⟩
    obtain ⟨old, member, rfl⟩ := List.mem_map.mp listed
    split
    · exact other turns next
    · exact abides.events old member turns next

theorem abides_update_runner (id : RunnerId) (change : Runner → Runner)
    (kept : ∀ runner : Runner, ∀ value, (change runner).last = some value → runner.last = some value ∨ law.Holds extent value) :
    (modify (·.updateRunner id change)).Abides law extent fun _ _ => True := by
  rintro machine abides rfl
  refine ⟨machine.abides_runners abides _ fun entry listed value last => ?_, le_refl _, trivial⟩
  obtain ⟨old, member, rfl⟩ := List.mem_map.mp listed
  split at last
  · exact (kept old.2 value last).elim (abides.runners old member value) fun known => known
  · exact abides.runners old member value last

theorem abides_record (id : RunnerId) (value : Option Value) (known : ∀ result, value = some result → law.Holds extent result) :
    (record id value).Abides law extent fun _ _ => True := by
  cases value with
  | none => exact abides_pure () trivial
  | some value =>
    refine abides_update_runner id _ fun runner other last => .inr ?_
    cases last
    exact known value rfl

theorem abides_advance (id : RunnerId) : (advance id).Abides law extent fun _ _ => True := by
  refine abides_bind _ (abides_seen _) fun _ returned _ _ => ?_
  refine abides_bind _ (abides_seen _) fun _ runner _ _ => ?_
  cases runner with
  | none => exact abides_pure () trivial
  | some runner =>
    simp only
    split
    · exact abides_update_runner id _ fun _ _ last => .inl last
    · refine abides_bind _ (abides_update_runner id _ fun _ _ last => .inl last) fun _ _ _ _ => ?_
      exact abides_quiet _ fun _ => ⟨_, _, _, _, _, _, _, _, _, _, _, _, rfl⟩

theorem abides_create_runner (lines : List Node) (frame : FrameId) :
    (createRunner lines frame).Abides law extent fun _ _ => True := by
  refine abides_bind _ (abides_retain frame) fun _ _ _ _ => ?_
  refine abides_bind _ (abides_function_frame frame) fun _ functionFrame _ _ => ?_
  rintro machine abides rfl
  let begun : Machine := { machine.pass Machine.blockTime with runnerCount := machine.runnerCount + 1 }
  have begunAbides : begun.Abides law := (machine.abides_aside abides begun rfl rfl rfl rfl rfl rfl rfl).1
  refine ⟨begun.abides_runners begunAbides _ fun entry listed value last => ?_, le_refl _, trivial⟩
  rcases List.mem_append.mp listed with old | new
  · exact abides.runners entry old value last
  · cases List.mem_singleton.mp new
    cases last

theorem abides_finish_runner (id : RunnerId) : (finishRunner id).Abides law extent
    fun more result => ∀ value, result = some value → law.Holds more value := by
  refine abides_look _ _ fun machine abides reaches => ?_
  cases known : machine.runner? id with
  | none => exact abides_pure none (fun _ none => by cases none) machine abides reaches
  | some runner =>
    have listed := List.mem_of_find?_eq_some (machine.runner_found id runner known)
    have drops : (modify fun machine => { machine with runners := Machine.swapErase id machine.runners }).Abides law extent
        fun _ _ => True :=
      abides_modify _ fun machine abides =>
        ⟨machine.abides_runners abides _ fun entry member =>
          abides.runners entry (Machine.swap_erase_subset id machine.runners member), rfl⟩
    refine abides_bind _ drops (fun more _ fewer _ => ?_) machine abides reaches
    refine abides_bind _ (abides_release runner.frame) fun most _ fewerStill _ => ?_
    refine abides_pure runner.last fun value last => ?_
    exact law.more (fewer.trans fewerStill) (reaches ▸ abides.runners (id, runner) listed value last)

theorem abides_load (lines : List Node) (frame : FrameId) : (loadProgram lines frame).Abides law extent fun _ _ => True :=
  abides_bind _ (abides_create_runner lines frame) fun _ id _ _ =>
    abides_bind _ (abides_advance id) fun _ _ _ _ => abides_pure id trivial

theorem abides_spawn_async (name : String) (lines : List Node) (arguments : Bindings) (caller : FrameId)
    (known : arguments.All (law.Holds extent)) :
    (spawnAsync name lines arguments caller).Abides law extent law.Holds := by
  refine abides_bind _ abides_create_task fun more task fewer made => ?_
  refine abides_bind _ (abides_push caller true arguments fun entry listed => law.more fewer (known entry listed))
    fun most frame fewerStill _ => ?_
  refine abides_bind _ (abides_quiet _ fun _ => ⟨_, _, _, _, _, _, _, _, _, _, _, _, rfl⟩) fun last _ still _ => ?_
  refine abides_bind _ (abides_enqueue _ fun _ same => by cases same) fun final _ further _ => ?_
  exact abides_promise task made.1 (Nat.le_trans made.2 ((fewerStill.trans still).trans further).1)

theorem abides_spawn_blocking (outcome : Option Scalar) (milliseconds : Nat) :
    (spawnBlocking outcome milliseconds).Abides law extent law.Holds := by
  refine abides_bind _ abides_create_task fun more task _ made => ?_
  refine abides_bind _ (abides_quiet _ fun _ => ⟨_, _, _, _, _, _, _, _, _, _, _, _, rfl⟩) fun most _ fewer _ => ?_
  refine abides_bind _ (abides_seen _) fun last event fewerStill _ => ?_
  have within := Nat.le_trans made.2 (fewer.trans fewerStill).1
  split
  · refine abides_bind _ (abides_register_event _ fun _ _ same => by cases same) fun final id further _ => ?_
    refine abides_bind _ (abides_quiet _ fun _ => ⟨_, _, _, _, _, _, _, _, _, _, _, _, rfl⟩) fun _ _ furthest _ => ?_
    exact abides_promise task made.1 (Nat.le_trans within (further.trans furthest).1)
  · exact abides_promise task made.1 within

end Rest

end Exec

end CoopScript
