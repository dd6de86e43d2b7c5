import CoopScript.Machine.Scheduler

set_option autoImplicit false
namespace CoopScript

-- What a step leaves behind, whether it is done or has failed.
def Outcome.Leaves {α : Type} (outcome : Outcome α) (machine : Machine) : Prop :=
  (∃ value, outcome = .done value machine) ∨ ∃ failure, outcome = .failed failure machine

namespace Outcome
variable {α : Type}

@[simp]
theorem done_leaves (value : α) (machine after : Machine) : (done value machine).Leaves after ↔ after = machine :=
  ⟨fun left => by rcases left with ⟨_, same⟩ | ⟨_, same⟩ <;> cases same; rfl, fun same => same ▸ .inl ⟨value, rfl⟩⟩

@[simp]
theorem failed_leaves (failure : Failure) (machine after : Machine) :
    (failed failure machine : Outcome α).Leaves after ↔ after = machine :=
  ⟨fun left => by rcases left with ⟨_, same⟩ | ⟨_, same⟩ <;> cases same; rfl, fun same => same ▸ .inr ⟨failure, rfl⟩⟩

@[simp]
theorem exhausted_leaves (after : Machine) : ¬ (outOfFuel : Outcome α).Leaves after := by
  rintro (⟨_, same⟩ | ⟨_, same⟩) <;> cases same

-- Checks on where a run ends, by which runs of fixed programs are computed.
def endsWith (test : Machine → Bool) : Outcome α → Bool
  | .done _ machine => test machine
  | _ => false

def failsWith (test : Failure → Machine → Bool) : Outcome α → Bool
  | .failed failure machine => test failure machine
  | _ => false

def gives (test : α → Machine → Bool) : Outcome α → Bool
  | .done value machine => test value machine
  | _ => false

theorem gives_done (outcome : Outcome α) (test : α → Machine → Bool) (passed : outcome.gives test = true) :
    ∃ value machine, outcome = .done value machine ∧ test value machine = true := by
  cases outcome with
  | done value machine => exact ⟨value, machine, rfl, passed⟩
  | failed | outOfFuel => cases passed

theorem ends_with_done (outcome : Outcome α) (test : Machine → Bool) (passed : outcome.endsWith test = true) :
    ∃ value machine, outcome = .done value machine ∧ test machine = true := by
  cases outcome with
  | done value machine => exact ⟨value, machine, rfl, passed⟩
  | failed | outOfFuel => cases passed

theorem fails_with_failed (outcome : Outcome α) (test : Failure → Machine → Bool)
    (passed : outcome.failsWith test = true) :
    ∃ failure machine, outcome = .failed failure machine ∧ test failure machine = true := by
  cases outcome with
  | failed failure machine => exact ⟨failure, machine, rfl, passed⟩
  | done | outOfFuel => cases passed

end Outcome

namespace Exec
variable {α β : Type}

theorem bind_done (first : Exec α) (next : α → Exec β) (machine middle : Machine) (value : α)
    (done : first machine = .done value middle) : (first >>= next) machine = next value middle := by
  simp [Bind.bind, bind, done]

theorem bind_failed (first : Exec α) (next : α → Exec β) (machine after : Machine) (failure : Failure)
    (failed : first machine = .failed failure after) :
    (first >>= next) machine = .failed failure after := by
  simp [Bind.bind, bind, failed]

theorem bind_exhausted (first : Exec α) (next : α → Exec β) (machine : Machine)
    (exhausted : first machine = .outOfFuel) : (first >>= next) machine = .outOfFuel := by
  simp [Bind.bind, bind, exhausted]

theorem read_then (view : Machine → α) (next : α → Exec β) (machine : Machine) :
    (read view >>= next) machine = next (view machine) machine := rfl

theorem modify_then (change : Machine → Machine) (next : Unit → Exec β) (machine : Machine) :
    (modify change >>= next) machine = next () (change machine) := rfl

theorem halted_then (next : Bool → Exec β) (machine : Machine) :
    (isHalted >>= next) machine = next machine.halted machine := rfl

theorem modify_assoc (change : Machine → Machine) (step : Exec α) (next : α → Exec β) :
    (modify change >>= fun _ => step >>= next) = (modify change >>= fun _ => step) >>= next := rfl

theorem done_of_bind (first : Exec α) (next : α → Exec β) (machine after : Machine) (value : β)
    (done : (first >>= next) machine = .done value after) :
    ∃ middle result, first machine = .done result middle ∧ next result middle = .done value after := by
  simp only [Bind.bind, bind] at done
  split at done
  next result middle finished => exact ⟨middle, result, finished, done⟩
  next => cases done
  next => cases done

-- What comes after a step does not ask how its outcome came about.
theorem bind_same (first second : Exec α) (next : α → Exec β) (machine other : Machine)
    (same : first machine = second other) : (first >>= next) machine = (second >>= next) other := by
  simp only [Bind.bind, bind, same]

-- Nor does it matter what would come after an outcome that is not there.
theorem bind_next (first : Exec α) (next later : α → Exec β) (machine : Machine)
    (same : ∀ value after, first machine = .done value after → next value after = later value after) :
    (first >>= next) machine = (first >>= later) machine := by
  simp only [Bind.bind, bind]
  cases ran : first machine with
  | done value after => exact same value after ran
  | failed | outOfFuel => rfl

theorem bind_assoc {γ : Type} (step : Exec α) (next : α → Exec β) (last : β → Exec γ) :
    step >>= next >>= last = step >>= fun value => next value >>= last := by
  funext machine
  cases ran : step machine with
  | done value after =>
    have both := bind_done step next _ _ value ran
    rw [bind_done step _ _ _ value ran]
    show bind (step >>= next) last machine = bind (next value) last after
    simp only [bind, both]
  | failed failure after =>
    rw [bind_failed step _ _ _ failure ran, bind_failed _ _ _ _ failure (bind_failed step next _ _ failure ran)]
  | outOfFuel => rw [bind_exhausted step _ _ ran, bind_exhausted _ _ _ (bind_exhausted step next _ ran)]

theorem iterate_unrolled {σ : Type} (step : σ → Exec (σ ⊕ α)) (fuel : Nat) (state : σ) :
    iterate step (fuel + 1) state = (step state >>= fun result =>
      match result with
      | .inl state => iterate step fuel state
      | .inr value => Pure.pure value) := by
  funext machine
  simp only [iterate, Bind.bind, bind]
  cases step state machine with
  | done result after => cases result <;> rfl
  | failed failure after => rfl
  | outOfFuel => rfl

theorem iterate_ended {σ : Type} (step : σ → Exec (σ ⊕ α)) (fuel : Nat) (state : σ) (value : α)
    (machine after : Machine) (done : step state machine = .done (.inr value) after) :
    iterate step (fuel + 1) state machine = .done value after := by
  simp only [iterate, done]

theorem iterate_again {σ : Type} (step : σ → Exec (σ ⊕ α)) (fuel : Nat) (state next : σ) (machine after : Machine)
    (done : step state machine = .done (.inl next) after) :
    iterate step (fuel + 1) state machine = iterate step fuel next after := by
  simp only [iterate, done]

theorem leaves_bind (first : Exec α) (next : α → Exec β) (machine after : Machine)
    (left : ((first >>= next) machine).Leaves after) :
    (first machine).Leaves after ∨
      ∃ value middle, first machine = .done value middle ∧ (next value middle).Leaves after := by
  cases ran : first machine with
  | outOfFuel =>
    rw [bind_exhausted first next machine ran] at left
    rcases left with ⟨_, same⟩ | ⟨_, same⟩ <;> cases same
  | failed failure middle =>
    rw [bind_failed first next machine middle failure ran] at left
    rcases left with ⟨_, same⟩ | ⟨_, same⟩ <;> cases same
    exact .inl (.inr ⟨failure, rfl⟩)
  | done value middle =>
    rw [bind_done first next machine middle value ran] at left
    exact .inr ⟨value, middle, rfl, left⟩

theorem leaves_attempt (step : Exec α) (machine after : Machine) (left : (step.attempt machine).Leaves after) :
    (step machine).Leaves after := by
  unfold attempt at left
  cases ran : step machine <;> simp [ran] at left ⊢ <;> exact left

theorem leaves_map_failure (step : Exec α) (machine after : Machine) (change : Failure → Failure)
    (left : (step.mapFailure change machine).Leaves after) : (step machine).Leaves after := by
  unfold mapFailure at left
  cases ran : step machine <;> simp [ran] at left ⊢ <;> exact left

theorem release_frame_done (frame : FrameId) (machine after : Machine)
    (released : releaseFrame frame machine = .done () after) :
    ∃ frames, machine.frames.release frame = (frames, none) ∧ after = { machine with frames := frames } := by
  unfold releaseFrame at released
  split at released
  next frames same =>
    cases released
    exact ⟨frames, same, rfl⟩
  next => cases released

theorem push_frame_done (caller id : FrameId) (isFunction : Bool) (bindings : Bindings)
    (machine after : Machine) (pushed : pushFrame caller isFunction bindings machine = .done id after) :
    ∃ frames, machine.frames.push caller isFunction bindings = .ok (id, frames) ∧
      after = { machine with frames := frames } := by
  unfold pushFrame changeFrames at pushed
  split at pushed
  next frames same =>
    cases pushed
    exact ⟨frames, same, rfl⟩
  next => cases pushed

theorem settle_task_done (task : TaskId) (value : Value) (machine after : Machine)
    (settled : settleTask task value machine = .done () after) :
    ∃ tasks, machine.tasks.settle task value = .ok tasks ∧ after = { machine with tasks := tasks } := by
  unfold settleTask at settled
  split at settled
  next tasks same =>
    cases settled
    exact ⟨tasks, same, rfl⟩
  next => cases settled

theorem consume_task_done (task : TaskId) (value : Option Value) (machine after : Machine)
    (consumed : consumeTask task machine = .done value after) :
    ∃ tasks, machine.tasks.consume task = .ok (value, tasks) ∧ after = { machine with tasks := tasks } := by
  unfold consumeTask at consumed
  split at consumed
  next tasks same =>
    cases consumed
    exact ⟨tasks, same, rfl⟩
  next => cases consumed

theorem retain_frame_retains (frame : FrameId) (machine : Machine) (frames : Arena)
    (retained : machine.frames.retain frame = .ok frames) :
    retainFrame frame machine = .done () { machine with frames := frames } := by
  simp only [retainFrame, updateFrames, retained]

theorem create_runner_creates (lines : List Node) (frame : FrameId) (functionFrame : Option FrameId)
    (machine : Machine) (frames : Arena) (retained : machine.frames.retain frame = .ok frames)
    (asked : frames.functionFrame frame = .ok functionFrame) :
    createRunner lines frame machine = .done ⟨machine.runnerCount + 1⟩ { machine with
      clock := machine.clock + Machine.blockTime
      frames := frames
      runnerCount := machine.runnerCount + 1
      runners := machine.runners ++ [(⟨machine.runnerCount + 1⟩, ⟨frame, functionFrame, lines, none, false⟩)] } := by
  have found : askFrames (·.functionFrame frame) { machine with frames := frames } =
      .done functionFrame { machine with frames := frames } := by
    simp only [askFrames, asked]
  exact (bind_done _ _ _ _ () (retain_frame_retains frame machine frames retained)).trans
    (bind_done _ _ _ _ functionFrame found)

theorem create_runner_done (lines : List Node) (frame : FrameId) (id : RunnerId) (machine after : Machine)
    (created : createRunner lines frame machine = .done id after) :
    ∃ frames functionFrame, machine.frames.retain frame = .ok frames ∧
      frames.functionFrame frame = .ok functionFrame ∧ id = ⟨machine.runnerCount + 1⟩ ∧
      after = { machine with
        clock := machine.clock + Machine.blockTime
        frames := frames
        runnerCount := machine.runnerCount + 1
        runners := machine.runners ++ [(id, ⟨frame, functionFrame, lines, none, false⟩)] } := by
  unfold createRunner at created
  obtain ⟨middle, _, retained, rest⟩ := done_of_bind _ _ machine after id created
  obtain ⟨asked, functionFrame, found, last⟩ := done_of_bind _ _ middle after id rest
  unfold retainFrame updateFrames at retained
  split at retained
  next frames retainedFrames =>
    cases retained
    unfold askFrames at found
    split at found
    next answer answered =>
      cases found
      cases last
      exact ⟨frames, functionFrame, retainedFrames, answered, rfl, rfl⟩
    next => cases found
  next => cases retained

-- A call for later fails only if its frame cannot be made; its task is there all the same.
theorem spawn_async_cases (name : String) (lines : List Node) (arguments : Bindings) (caller : FrameId)
    (machine : Machine) :
    (∃ frame frames, machine.frames.push caller true arguments = .ok (frame, frames) ∧
        spawnAsync name lines arguments caller machine =
          .done (machine.classes.promise machine.tasks.create.1) { machine with
            tasks := machine.tasks.create.2
            frames := frames
            asyncFrames := machine.asyncFrames ++ [frame]
            microtasks := machine.microtasks ++ [.asyncBody machine.tasks.create.1 name lines frame] }) ∨
      ∃ cause, machine.frames.push caller true arguments = .error cause ∧
        spawnAsync name lines arguments caller machine =
          .failed (.of cause) { machine with tasks := machine.tasks.create.2 } := by
  cases pushed : machine.frames.push caller true arguments with
  | ok result =>
    refine .inl ⟨result.1, result.2, rfl, ?_⟩
    simp [spawnAsync, Bind.bind, bind, createTask, pushFrame, changeFrames, pushed, modify, enqueueMicrotask,
      promise, read]
  | error cause =>
    refine .inr ⟨cause, rfl, ?_⟩
    simp [spawnAsync, Bind.bind, bind, createTask, pushFrame, changeFrames, pushed]

theorem spawn_async_done (name : String) (lines : List Node) (arguments : Bindings) (caller : FrameId)
    (promise : Value) (machine after : Machine)
    (spawned : spawnAsync name lines arguments caller machine = .done promise after) :
    ∃ frame frames, machine.frames.push caller true arguments = .ok (frame, frames) ∧
      promise = machine.classes.promise machine.tasks.create.1 ∧
      after = { machine with
        tasks := machine.tasks.create.2
        frames := frames
        asyncFrames := machine.asyncFrames ++ [frame]
        microtasks := machine.microtasks ++ [.asyncBody machine.tasks.create.1 name lines frame] } := by
  rcases spawn_async_cases name lines arguments caller machine with ⟨frame, frames, pushed, done⟩ | ⟨_, _, failed⟩
  · cases done.symm.trans spawned
    exact ⟨frame, frames, pushed, rfl, rfl⟩
  · cases failed.symm.trans spawned

-- A call for later that fails has made its task before.
theorem spawn_async_leaves (name : String) (lines : List Node) (arguments : Bindings) (caller : FrameId)
    (machine after : Machine) (left : (spawnAsync name lines arguments caller machine).Leaves after) :
    after = { machine with tasks := machine.tasks.create.2 } ∨
      ∃ promise, spawnAsync name lines arguments caller machine = .done promise after := by
  rcases spawn_async_cases name lines arguments caller machine with ⟨_, _, _, done⟩ | ⟨_, _, failed⟩
  · rw [done] at left ⊢
    rcases left with ⟨_, same⟩ | ⟨_, same⟩ <;> cases same
    exact .inr ⟨_, rfl⟩
  · rw [failed] at left
    rcases left with ⟨_, same⟩ | ⟨_, same⟩ <;> cases same
    exact .inl rfl

theorem finish_runner_done (id : RunnerId) (last : Option Value) (machine after : Machine)
    (finished : finishRunner id machine = .done last after) :
    (machine.runner? id = none ∧ after = machine) ∨
      ∃ runner frames, machine.runner? id = some runner ∧
        machine.frames.release runner.frame = (frames, none) ∧
        after = { machine with runners := Machine.swapErase id machine.runners, frames := frames } := by
  unfold finishRunner at finished
  rw [read_then] at finished
  cases known : machine.runner? id with
  | none =>
    simp only [known] at finished
    cases finished
    exact .inl ⟨rfl, rfl⟩
  | some runner =>
    simp only [known, modify_then] at finished
    obtain ⟨middle, _, released, done⟩ := done_of_bind _ _ _ after last finished
    obtain ⟨frames, framesReleased, rfl⟩ := release_frame_done runner.frame _ middle released
    cases done
    exact .inr ⟨runner, frames, rfl, framesReleased, rfl⟩

theorem record_total (id : RunnerId) (value : Option Value) (machine : Machine) :
    ∃ after, record id value machine = .done () after ∧ after.halted = machine.halted := by
  cases value with
  | none => exact ⟨machine, rfl, rfl⟩
  | some value => exact ⟨_, rfl, rfl⟩

theorem advance_total (id : RunnerId) (machine : Machine) :
    ∃ after, advance id machine = .done () after ∧ after.halted = machine.halted := by
  unfold advance
  rw [read_then, read_then]
  cases machine.runner? id with
  | none => exact ⟨machine, rfl, rfl⟩
  | some runner =>
    cases machine.runnerReturned id <;> cases lines : runner.lines <;> simp only [lines] <;> exact ⟨_, rfl, rfl⟩

theorem advance_queues (id : RunnerId) (machine after : Machine) (done : advance id machine = .done () after) :
    machine.ready <+: after.ready ∧ after.microtasks = machine.microtasks ∧ after.halted = machine.halted := by
  unfold advance at done
  rw [read_then, read_then] at done
  cases known : machine.runner? id with
  | none =>
    rw [known] at done
    cases done
    exact ⟨List.prefix_refl _, rfl, rfl⟩
  | some runner =>
    rw [known] at done
    cases returned : machine.runnerReturned id <;> cases lines : runner.lines <;>
      simp only [returned, lines, if_true, Bool.false_eq_true, if_false] at done <;> cases done
    case some.false.cons.refl => exact ⟨List.prefix_append _ _, rfl, rfl⟩
    all_goals exact ⟨List.prefix_refl _, rfl, rfl⟩

end Exec

end CoopScript
