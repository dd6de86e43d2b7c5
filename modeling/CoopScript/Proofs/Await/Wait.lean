import CoopScript.Proofs.Machine.Registry
import CoopScript.Proofs.Machine.Primitive
import CoopScript.Proofs.Coherent.Step
import CoopScript.Proofs.Lens.Ends
import CoopScript.Proofs.Stage.Setting

set_option autoImplicit false
namespace CoopScript

namespace TaskTable

theorem consume_ready (table : TaskTable) (task : TaskId) (value : Value) (pending : table.state? task = some .pending) :
    (table.setState task (.ready value)).consume task = .ok (some value, table.setState task .consumed) := by
  have ready : (table.setState task (.ready value)).state? task = some (.ready value) := by
    rw [state_set table task task .pending (.ready value) pending, if_pos rfl]
  have again : (table.setState task (.ready value)).setState task .consumed = table.setState task .consumed := by
    simp only [setState, Array.setIfInBounds_setIfInBounds]
  simp only [consume, ready, again]

end TaskTable

def Outcome.handed (task : TaskId) : Outcome Value → Outcome Value
  | .done value machine => .done value { machine with tasks := machine.tasks.setState task .consumed }
  | .failed failure machine => .failed failure machine
  | .outOfFuel => .outOfFuel

-- Nothing waits, and the promise is not settled.
structure Machine.Awaiting (machine : Machine) (task : TaskId) : Prop where
  microtasks : machine.microtasks = []
  events : machine.events = []
  pending : machine.tasks.state? task = some .pending

namespace Engine
variable (engine : Engine)

theorem drain_one (enough : 2 ≤ engine.fuel) (microtask : Microtask) (machine : Machine)
    (only : machine.microtasks = [microtask])
    (quiet : ∀ after, engine.runMicrotask microtask { machine with microtasks := [] } = .done () after →
      after.microtasks = []) :
    engine.drainMicrotasks .empty machine =
      (engine.runMicrotask microtask >>= fun _ => Pure.pure ⟨0, 1, 0, false⟩ : Exec TickReport)
        { machine with microtasks := [] } := by
  obtain ⟨fuel, more⟩ : ∃ fuel, engine.fuel = fuel + 2 := ⟨engine.fuel - 2, by omega⟩
  unfold drainMicrotasks
  rw [more, Exec.iterate_unrolled]
  have first : engine.drainStep .empty machine = (engine.runMicrotask microtask >>= fun _ => Exec.isHalted >>= fun halted =>
      Pure.pure (if halted then .inr ⟨0, 1, 0, false⟩ else .inl ⟨0, 1, 0, false⟩) : Exec (TickReport ⊕ TickReport))
        { machine with microtasks := [] } := by
    unfold drainStep
    rw [Exec.read_then, only]
    simp only
    rw [Exec.modify_then]
    refine Exec.bind_next _ _ _ _ fun _ after _ => ?_
    rw [Exec.halted_then, Exec.halted_then]
    cases after.halted <;> rfl
  cases ran : engine.runMicrotask microtask { machine with microtasks := [] } with
  | outOfFuel =>
    rw [Exec.bind_exhausted _ _ _ (first.trans (Exec.bind_exhausted _ _ _ ran)), Exec.bind_exhausted _ _ _ ran]
  | failed failure after =>
    rw [Exec.bind_failed _ _ _ _ _ (first.trans (Exec.bind_failed _ _ _ _ _ ran)), Exec.bind_failed _ _ _ _ _ ran]
  | done value after =>
    have stepped : engine.drainStep .empty machine =
        .done (if after.halted then .inr ⟨0, 1, 0, false⟩ else .inl ⟨0, 1, 0, false⟩) after :=
      first.trans (Exec.bind_done _ _ _ _ _ ran)
    rw [Exec.bind_done _ _ _ _ _ stepped, Exec.bind_done _ _ _ _ _ ran]
    cases after.halted with
    | true => rfl
    | false =>
      refine Exec.iterate_ended engine.drainStep fuel _ _ after after ?_
      unfold drainStep
      rw [Exec.read_then, quiet after ran]
      rfl

theorem serve_none (report : TickReport) (machine : Machine) (none : machine.events = []) :
    engine.serviceEvents report machine = .done report machine := by
  unfold serviceEvents
  rw [Exec.read_then, none]
  rfl

theorem body_called (task : TaskId) (name : String) (lines : List Node) (arguments : Bindings) (caller frame : FrameId)
    (frames : Arena) (machine : Machine) (idle : machine.asyncFrames = [])
    (pushed : machine.frames.push caller true arguments = .ok (frame, frames)) :
    engine.runMicrotask (.asyncBody task name lines frame) { machine with frames := frames, asyncFrames := [frame] } =
      (engine.invokeScript name lines arguments caller >>= fun value => Exec.settleTask task value) machine := by
  have opened : Exec.pushFrame caller true arguments machine = .done frame { machine with frames := frames } := by
    simp only [Exec.pushFrame, Exec.changeFrames, pushed]
  have alone : [frame].filter (fun other => other ≠ frame) = machine.asyncFrames := by simp [idle]
  show engine.runAsyncBody task name lines frame _ = _
  unfold runAsyncBody invokeScript
  rw [Exec.modify_then, Exec.bind_assoc, Exec.bind_done _ _ _ _ _ opened, Exec.bind_assoc]
  simp only [alone, Exec.bind_assoc]

-- The first asking for a promise runs the only microtask that waits.
theorem await_runs (enough : 2 ≤ engine.fuel) (task : TaskId) (microtask : Microtask) (machine : Machine)
    (only : machine.microtasks = [microtask]) (running : machine.halted = false)
    (waits : machine.tasks.state? task = some .pending)
    (quiet : ∀ after, engine.runMicrotask microtask { machine with microtasks := [] } = .done () after →
      after.microtasks = [] ∧ after.events = []) :
    engine.awaitStep task 0 machine =
      (engine.runMicrotask microtask >>= fun _ => Pure.pure (.inl 0) : Exec (Nat ⊕ Value)) { machine with microtasks := [] } := by
  have missing : Exec.consumeTask task machine = .done none machine := by
    simp only [Exec.consumeTask, TaskTable.consume, waits]
  unfold awaitStep
  rw [Exec.bind_done _ _ _ _ _ missing]
  simp only
  rw [Exec.halted_then, if_neg (by simp [running])]
  refine (Exec.bind_same _ _ _ _ _ (engine.drain_one enough microtask machine only fun after ran => (quiet after ran).1)).trans ?_
  rw [Exec.bind_assoc]
  refine Exec.bind_next _ _ _ _ fun _ after ran => ?_
  exact Exec.bind_done _ _ _ _ _ (engine.serve_none ⟨0, 1, 0, false⟩ after (quiet after ran).2)

theorem await_settled (enough : 2 ≤ engine.fuel) (task : TaskId) (microtask : Microtask) (machine before : Machine)
    (call : Exec Value) (only : machine.microtasks = [microtask]) (running : machine.halted = false)
    (waits : machine.tasks.state? task = some .pending)
    (runs : engine.runMicrotask microtask { machine with microtasks := [] } =
      (call >>= fun value => Exec.settleTask task value) before)
    (quiet : ∀ value after, call before = .done value after → after.Awaiting task) :
    engine.await task machine = (call before).handed task := by
  obtain ⟨fuel, more⟩ : ∃ fuel, engine.fuel = fuel + 2 := ⟨engine.fuel - 2, by omega⟩
  have settled (value : Value) (after : Machine) (done : call before = .done value after) :
      engine.runMicrotask microtask { machine with microtasks := [] } =
        .done () { after with tasks := after.tasks.setState task (.ready value) } := by
    rw [runs, Exec.bind_done _ _ _ _ _ done, Exec.settleTask, TaskTable.settle_pending _ _ _ (quiet value after done).pending]
  have asked := engine.await_runs enough task microtask machine only running waits fun after ran => by
    obtain ⟨middle, value, done, _⟩ := Exec.done_of_bind _ _ before after () (runs.symm.trans ran)
    cases (settled value middle done).symm.trans ran
    exact ⟨(quiet value middle done).microtasks, (quiet value middle done).events⟩
  unfold await
  rw [more, Exec.iterate_unrolled, Exec.bind_same _ _ _ _ _ asked, Exec.bind_assoc]
  cases called : call before with
  | outOfFuel => exact Exec.bind_exhausted _ _ _ (runs.trans (Exec.bind_exhausted _ _ _ called))
  | failed failure after => exact Exec.bind_failed _ _ _ _ _ (runs.trans (Exec.bind_failed _ _ _ _ _ called))
  | done value after =>
    rw [Exec.bind_done _ _ _ _ _ (settled value after called)]
    refine Exec.iterate_ended _ fuel 0 value _ _ (Exec.bind_done _ _ _ _ (some value) ?_)
    simp only [Exec.consumeTask, TaskTable.consume_ready _ _ _ (quiet value after called).pending]

theorem await_called (enough : 2 ≤ engine.fuel) (name : String) (lines : List Node) (arguments : Bindings)
    (caller : FrameId) (machine : Machine) (microtasks : machine.microtasks = [])
    (idle : machine.asyncFrames = []) (running : machine.halted = false)
    (quiet : ∀ value after, engine.invokeScript name lines arguments caller { machine with tasks := machine.tasks.create.2 } =
      .done value after → after.Awaiting machine.tasks.create.1) :
    (∃ failure, Exec.spawnAsync name lines arguments caller machine =
        .failed failure { machine with tasks := machine.tasks.create.2 } ∧
      engine.invokeScript name lines arguments caller { machine with tasks := machine.tasks.create.2 } =
        .failed failure { machine with tasks := machine.tasks.create.2 }) ∨
    ∃ spawned, Exec.spawnAsync name lines arguments caller machine =
        .done (machine.classes.promise machine.tasks.create.1) spawned ∧
      engine.await machine.tasks.create.1 spawned =
        (engine.invokeScript name lines arguments caller { machine with tasks := machine.tasks.create.2 }).handed
          machine.tasks.create.1 := by
  rcases Exec.spawn_async_cases name lines arguments caller machine with ⟨frame, frames, pushed, done⟩ |
    ⟨cause, refused, failed⟩
  swap
  · refine .inl ⟨.of cause, failed, Exec.bind_failed _ _ _ _ _ ?_⟩
    simp only [Exec.pushFrame, Exec.changeFrames, refused]
  refine .inr ⟨_, done, ?_⟩
  let opened : Machine := { machine with
    tasks := machine.tasks.create.2
    frames := frames
    asyncFrames := machine.asyncFrames ++ [frame]
    microtasks := machine.microtasks ++ [.asyncBody machine.tasks.create.1 name lines frame] }
  show engine.await machine.tasks.create.1 opened = _
  have waits : opened.tasks.state? machine.tasks.create.1 = some .pending := by
    rw [show opened.tasks = machine.tasks.create.2 from rfl, TaskTable.state_created, if_pos rfl]
  have only : opened.microtasks = [.asyncBody machine.tasks.create.1 name lines frame] := by
    simp only [opened, microtasks, List.nil_append]
  have begun : { opened with microtasks := [] } =
      { ({ machine with tasks := machine.tasks.create.2 } : Machine) with frames := frames, asyncFrames := [frame] } := by
    simp only [opened, idle, microtasks, List.nil_append]
  have body := engine.body_called machine.tasks.create.1 name lines arguments caller frame frames
    { machine with tasks := machine.tasks.create.2 } idle pushed
  rw [← begun] at body
  exact engine.await_settled enough _ _ opened _ _ only running waits body quiet

end Engine

namespace Lens

-- A function of one identity is not seen to be asynchronous, as long as no task is made.
def unmarked (identity count : Nat) : Lens where
  blurs := false
  deaf other := other = identity
  offset := 0
  outer := []
  bound := some ⟨count, count, identity + 1⟩
  extra := []
  exact := False
  outside := none_outside
  hears _ same := ⟨_, rfl, Nat.lt_succ_of_le (Nat.le_of_eq (of_decide_eq_true same))⟩

-- All is seen as it is, beside one task more, as long as no task is made.
def beside (count : Nat) : Lens where
  blurs := false
  deaf _ := false
  offset := 0
  outer := []
  bound := some ⟨count, count, 0⟩
  extra := [.pending]
  exact := False
  outside := none_outside
  hears _ deaf := absurd deaf Bool.false_ne_true

@[simp] theorem beside_value (count : Nat) (value : Value) : (beside count).value value = value :=
  (beside count).value_same rfl value (value.bears_all _ fun _ => rfl)

@[simp] theorem beside_bindings (count : Nat) (bindings : Bindings) : (beside count).bindings bindings = bindings :=
  (beside count).bindings_same bindings fun entry _ => beside_value count entry.2

theorem beside_machine (count : Nat) (machine : Machine) (counted : machine.tasks.count = count) :
    (beside count).machine machine = { machine with tasks := machine.tasks.create.2 } := by
  have kept : machine.Keeps fun value => (beside count).value value = value := machine.keeps_all (beside_value count)
  have tasks : (beside count).tasks machine.tasks = machine.tasks.create.2 := by
    rw [(beside count).tasks_same _ kept.tasks _ rfl counted.symm]
    simp [beside, TaskTable.create]
  rw [(beside count).machine_same rfl rfl rfl machine kept, tasks]

end Lens

namespace Machine

-- The lens for the function that a machine makes next.
def unmarking (machine : Machine) : Lens := .unmarked machine.nextIdentity machine.tasks.count

def declares (machine : Machine) (frames : Arena) : Machine :=
  { machine with frames := frames, nextIdentity := machine.nextIdentity + 1 }

section
variable (machine : Machine) (coherent : machine.Coherent)
include coherent

theorem coherent_keeps : machine.Keeps (Value.Known machine.extent) where
  classes := by
    rw [coherent.classes]
    exact ClassTable.intrinsic_known coherent.begun
  frames := coherent.frames
  tasks := coherent.tasks
  runners := coherent.runners

-- Functions that are there already have other identities.
theorem coherent_unmarked : machine.Keeps fun value => machine.unmarking.value value = value := by
  refine machine.keeps_weaken (machine.coherent_keeps coherent) fun value known => machine.unmarking.value_same rfl value ?_
  refine value.bears_weaken _ _ (fun identity known => ?_) known.born
  have less : identity < machine.nextIdentity := of_decide_eq_true known
  simp [unmarking, Lens.unmarked, Nat.ne_of_lt less]

theorem function_unmarked (content : Function Value) :
    machine.unmarking.value (machine.classes.function machine.nextIdentity content) =
      machine.classes.function machine.nextIdentity { content with isAsync := false } := by
  have classes := machine.unmarking.classes_same _ (machine.coherent_unmarked coherent).classes
  have made := machine.unmarking.instantiate_classes machine.classes .function (.function machine.nextIdentity content)
  have unmarked : machine.unmarking.function (machine.unmarking.deaf machine.nextIdentity) content =
      { content with isAsync := false } := by
    obtain ⟨name, parameters, body, isAsync⟩ := content
    have deaf : machine.unmarking.deaf machine.nextIdentity = true := by simp [unmarking, Lens.unmarked]
    cases body <;> simp [Lens.function, Lens.body, deaf, machine.unmarking.lines_sharp rfl]
  rw [classes] at made
  exact made.symm.trans (congrArg (fun content => machine.classes.instantiate .function (.function machine.nextIdentity content)) unmarked)

theorem variable_unmarked (frame : FrameId) (name : String) (content : Function Value) :
    machine.frames.setVariable frame name (machine.classes.function machine.nextIdentity { content with isAsync := false }) =
      (machine.frames.setVariable frame name (machine.classes.function machine.nextIdentity content)).map
        machine.unmarking.arena := by
  have frames := machine.unmarking.arena_same _ (machine.coherent_unmarked coherent).frames
  have bound := machine.unmarking.set_variable_arena machine.frames frame name
    (machine.classes.function machine.nextIdentity content)
  rw [machine.function_unmarked coherent, frames] at bound
  exact bound

theorem declares_unmarked (frames : Arena) :
    machine.unmarking.machine (machine.declares frames) = machine.declares (machine.unmarking.arena frames) := by
  have kept := machine.coherent_unmarked coherent
  have tasks : machine.unmarking.tasks machine.tasks = machine.tasks := by
    rw [machine.unmarking.tasks_same _ kept.tasks _ rfl rfl]
    simp [unmarking, Lens.unmarked]
  have same := machine.unmarking.machine_same rfl rfl rfl machine kept
  rw [tasks] at same
  show { machine.unmarking.machine machine with
    frames := machine.unmarking.arena frames, nextIdentity := machine.nextIdentity + 1 } = _
  rw [same]
  rfl

theorem declares_fits (identities : Nat) (given : identities ≤ machine.nextIdentity + 1) (frame : FrameId) (name : String)
    (content : Function Value) (frames : Arena) (microtasks : machine.microtasks = []) (events : machine.events = [])
    (bound : machine.frames.setVariable frame name (machine.classes.function machine.nextIdentity content) = .ok frames) :
    (machine.declares frames).Fits (some ⟨machine.tasks.count, machine.tasks.count, identities⟩) := by
  have within := machine.keeps_weaken (machine.coherent_keeps coherent) fun _ known => known.within
  have fits := Machine.keeps_fits { machine with nextIdentity := machine.nextIdentity + 1 } machine.tasks.count
    ⟨within.classes, within.frames, within.tasks, within.runners⟩ rfl microtasks events identities given
  have function := Machine.fits_instantiate fits .function (.function machine.nextIdentity content)
    ⟨fun _ _ same => (by cases same), fun _ same => by cases same⟩
  exact Machine.fits_frames fits frames (Arena.fits_set_variable fits.frames frame name _ function bound)

end

end Machine

end CoopScript
