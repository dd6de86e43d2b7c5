import CoopScript.Proofs.Lens.Primitive

set_option autoImplicit false
namespace CoopScript.Exec
variable {α β : Type} {lens : Lens} {given : Option Bound → Prop}

section Tasks

theorem fills_fits (machine : Machine) (fits : machine.Fits lens.bound) : lens.Fills machine.tasks := by
  intro few bounded
  have suits := fits.suits
  rw [bounded] at suits
  exact suits.1

theorem through_consume_task (task : TaskId) (known : ∀ bound, given bound → task.Known bound) :
    (consumeTask task).Through lens given (consumeTask task) (Option.map lens.value) GivenFits := by
  refine through_natural _ _ (fun machine early late fine _ fit => ?_) fun bound machine _ fit => ?_
  · have seen := lens.consume_tasks machine.tasks task (fills_fits machine fit) (known lens.bound fine)
    rw [show lens.tasks machine.tasks = ((lens.machine machine).pass late).tasks from rfl] at seen
    have here : (machine.pass early).tasks = machine.tasks := rfl
    unfold consumeTask
    rw [seen, here]
    cases machine.tasks.consume task <;> exact ⟨rfl, rfl⟩
  · unfold consumeTask
    split
    next value tasks done =>
      have count := TaskTable.count_consumed machine.tasks tasks task value done
      cases value with
      | none =>
        obtain ⟨_, rfl⟩ := TaskTable.consume_waits machine.tasks tasks task done
        exact ⟨fit, .same rfl fun _ => rfl, fun _ none => by cases none⟩
      | some value =>
        obtain ⟨ready, changed⟩ := TaskTable.consume_done machine.tasks tasks task value done
        have kept := Stage.ready_changed _ machine.tasks tasks task .consumed fit.tasks (fun _ here => by cases here) changed
        refine ⟨machine.fits_tasks fit tasks kept count, ⟨count.symm.le, fun _ => rfl⟩, ?_⟩
        rintro result ⟨⟩
        exact fit.tasks task value ready
    next => exact ⟨fit, .same rfl fun _ => rfl⟩

theorem through_settle_task (task : TaskId) (value : Value) (all : given lens.bound → lens.bound = none)
    (fine : ∀ bound, given bound → value.Fits bound) :
    (settleTask task value).Through lens given (settleTask task (lens.value value)) id fun _ _ => True := by
  refine through_natural _ _ (fun machine early late plain _ fit => ?_) fun bound machine plain fit => ?_
  · have seen := lens.settle_tasks machine.tasks task value (fills_fits machine fit) (lens.all_known (all plain) task)
    rw [show lens.tasks machine.tasks = ((lens.machine machine).pass late).tasks from rfl] at seen
    have here : (machine.pass early).tasks = machine.tasks := rfl
    unfold settleTask
    rw [seen, here]
    cases machine.tasks.settle task value <;> exact ⟨rfl, rfl⟩
  · unfold settleTask
    split
    next tasks done =>
      have count := TaskTable.count_settled machine.tasks tasks task value done
      obtain ⟨_, changed⟩ := TaskTable.settle_done machine.tasks tasks task value done
      have kept := Stage.ready_changed _ machine.tasks tasks task (.ready value) fit.tasks
        (fun _ here => by cases here; exact fine bound plain) changed
      exact ⟨machine.fits_tasks fit tasks kept count, ⟨count.symm.le, fun _ => rfl⟩, trivial⟩
    next => exact ⟨fit, .same rfl fun _ => rfl⟩

theorem through_create_task (all : ∀ bound, given bound → bound = none) :
    createTask.Through lens given createTask id fun _ _ => True := by
  refine through_natural _ _ (fun machine early late plain _ _ => ⟨rfl, ?_⟩) fun bound machine plain fit => ?_
  · show Outcome.done (lens.tasks machine.tasks).create.1 { (lens.machine machine).pass late with
      tasks := (lens.tasks machine.tasks).create.2 } = _
    rw [lens.create_tasks machine.tasks (all lens.bound plain)]
    rfl
  · obtain rfl := all bound plain
    exact ⟨⟨fit.classes, fit.frames, Stage.ready_created _ machine.tasks fit.tasks, fit.suits⟩,
      ⟨machine.tasks.count_created, fun _ => rfl⟩, trivial⟩

theorem through_promise (task : TaskId) (all : ∀ bound, given bound → bound = none) :
    (promise task).Through lens given (promise task) lens.value Value.Fits := by
  refine through_class_value (·.promise task) (·.promise task) (fun _ table => lens.promise_classes table task) ?_
  intro bound machine plain fit
  obtain rfl := all bound plain
  exact machine.fits_instantiate fit _ _ (Data.fits_promise task fun _ some => by cases some)

theorem through_enqueue_microtask (microtask : Microtask) (all : ∀ bound, given bound → bound = none)
    (scripted : ∀ actions, microtask ≠ .host actions) :
    (enqueueMicrotask microtask).Through lens given (enqueueMicrotask (lens.microtask microtask)) id fun _ _ => True := by
  refine through_modify _ _ (fun machine _ _ _ _ _ => ⟨rfl, by simp [Lens.machine, Machine.pass]⟩) (fun bound machine plain fit => ?_)
    (fun _ => rfl) fun _ _ => rfl
  obtain rfl := all bound plain
  refine ⟨fit.classes, fit.frames, fit.tasks, fit.suits.1, fun task listed => ?_, fit.suits.2.2⟩
  rcases List.mem_append.mp listed with old | new
  · exact fit.suits.2.1 task old
  · exact List.mem_singleton.mp new ▸ scripted

theorem through_register_event (all : ∀ bound, given bound → bound = none) :
    (registerEvent .pollPool).Through lens given (registerEvent .pollPool) id fun _ _ => True := by
  refine through_natural _ _ (fun _ _ _ _ _ _ => ⟨rfl, rfl⟩) fun bound machine plain fit => ?_
  obtain rfl := all bound plain
  refine ⟨⟨fit.classes, fit.frames, fit.tasks, fit.suits.1, fit.suits.2.1, fun entry listed => ?_⟩,
    .same rfl fun _ => rfl, trivial⟩
  rcases List.mem_append.mp listed with old | new
  · exact fit.suits.2.2 entry old
  · obtain rfl := List.mem_singleton.mp new
    exact fun _ _ same => by cases same

-- A step that makes a task need not be the same if only some tasks are looked at.
theorem through_escape {see : α → β} {good : Option Bound → α → Prop} (step : Exec α) (twin other : Exec β)
    (natural : step.Through lens (fun bound => given bound ∧ bound = none) twin see good)
    (same : lens.bound = none → other = twin)
    (more : ∀ machine after : Machine, (step machine).Leaves after → machine.tasks.count < after.tasks.count) :
    step.Through lens given other see good := by
  refine ⟨fun plain => natural.kept ⟨plain, rfl⟩, fun plain fine machine early late shifts tame fit => ?_⟩
  cases bounded : lens.bound with
  | none =>
    rw [same bounded]
    have seen := natural.timed ⟨plain, rfl⟩ ⟨fine, bounded⟩ machine early late shifts tame fit
    rw [bounded] at seen
    exact seen
  | some few =>
    rw [bounded] at fit
    refine .escaped _ _ few bounded fun after left => ?_
    have grown := more (machine.pass early) after left
    rw [show (machine.pass early).tasks = machine.tasks from rfl, fit.suits.1.1] at grown
    exact grown

theorem through_spawn_async (name : String) (lines : List Node) (arguments : Bindings) (caller : FrameId)
    (other : Exec Value) (fine : ∀ bound, given bound → arguments.Fits bound)
    (same : lens.bound = none → other = spawnAsync name (lens.lines lines) (lens.bindings arguments) caller) :
    (spawnAsync name lines arguments caller).Through lens given other lens.value Value.Fits := by
  refine through_escape _ (spawnAsync name (lens.lines lines) (lens.bindings arguments) caller) _ ?_ same ?_
  · refine through_bind (through_create_task fun _ both => both.2) fun task => ?_
    refine through_bind (through_push_frame caller true arguments fun bound both => fine bound both.1.1) fun frame => ?_
    refine through_bind (through_aside _ _ (fun _ _ _ => ⟨rfl, rfl⟩) fun _ => ⟨rfl, rfl, rfl, rfl, rfl, rfl, fun _ => rfl⟩) fun _ => ?_
    refine through_bind (through_enqueue_microtask (.asyncBody task name lines frame) (fun _ both => both.1.1.1.2)
      fun _ same => by cases same) fun _ => ?_
    exact through_promise task fun _ both => both.1.1.1.1.2
  · intro machine after left
    have grown : machine.tasks.count < machine.tasks.create.2.count := by simp [TaskTable.create, TaskTable.count]
    rcases spawn_async_leaves name lines arguments caller machine after left with rfl | ⟨promise, spawned⟩
    · exact grown
    · obtain ⟨_, _, _, _, rfl⟩ := spawn_async_done name lines arguments caller promise machine after spawned
      exact grown

theorem through_spawn_blocking (outcome : Option Scalar) (milliseconds : Nat) :
    (spawnBlocking outcome milliseconds).Through lens given (spawnBlocking outcome milliseconds) lens.value
      Value.Fits := by
  refine through_escape _ (spawnBlocking outcome milliseconds) _ ?_ (fun _ => rfl) ?_
  · refine through_bind (through_create_task fun _ both => both.2) fun task => ?_
    refine through_bind (through_timed _ (fun both => both.1.2) (fun _ => rfl) fun _ => ⟨rfl, rfl, rfl, rfl, rfl, rfl, fun _ => rfl⟩) fun _ => ?_
    refine through_bind (through_look (·.poolEvent) fun _ _ _ => rfl) fun event => ?_
    have last := fun bound (both : (((given bound ∧ bound = none) ∧ True) ∧ True) ∧ True) => both.1.1.1.2
    cases event with
    | some event => exact through_promise task last
    | none =>
      refine through_bind (through_register_event last) fun id => ?_
      refine through_bind (through_aside _ _ (fun _ _ _ => ⟨rfl, rfl⟩) fun _ => ⟨rfl, rfl, rfl, rfl, rfl, rfl, fun _ => rfl⟩) fun _ => ?_
      exact through_promise task fun bound both => last bound both.1.1
  · intro machine after left
    obtain ⟨promise, reached, spawned⟩ := spawn_blocking_total outcome milliseconds machine
    rw [spawned] at left
    rcases left with ⟨_, same⟩ | ⟨_, same⟩ <;> cases same
    obtain ⟨_, _, _, _, _, _, rfl, _⟩ := spawn_blocking_done outcome milliseconds promise machine after spawned
    simp [TaskTable.create, TaskTable.count]

end Tasks

section Runners

theorem through_create_runner (lines : List Node) (frame : FrameId) :
    (createRunner lines frame).Through lens given (createRunner (lens.lines lines) frame) lens.shift
      fun _ id => lens.Own id := by
  refine through_bind (through_retain_frame frame) fun _ => through_bind (through_function_frame frame) fun function => ?_
  refine through_natural _ _ (fun machine early late _ _ _ => ?_) fun bound machine _ fit => ?_
  · show Outcome.done _ _ = Outcome.done _ _ ∧ Outcome.done _ _ = Outcome.done _ _
    simp only [Lens.machine, Lens.shift, List.map_append, List.append_assoc, List.map_cons, List.map_nil, Lens.entry,
      Lens.runner, Option.map_none, Machine.pass, id_eq, Nat.add_right_comm _ lens.offset 1, Nat.add_right_comm _ early,
      Nat.add_right_comm _ late, and_self]
  · exact ⟨machine.fits_same fit _ rfl rfl rfl rfl rfl (Nat.le_refl _), .same rfl fun _ => rfl, lens.own_created _⟩

variable (key : RunnerId)

theorem through_runner (own : given lens.bound → lens.Own key) :
    (read (·.runner? key)).Through lens given (read (·.runner? (lens.shift key))) (Option.map lens.runner) fun _ _ => True :=
  through_read _ _ (fun machine _ _ plain _ _ => lens.runner_machine machine key (own plain)) fun _ _ _ _ => trivial

theorem through_runner_returned (own : given lens.bound → lens.Own key) :
    (read (·.runnerReturned key)).Through lens given (read (·.runnerReturned (lens.shift key))) id fun _ _ => True :=
  through_read _ _ (fun machine _ _ plain _ _ => lens.runner_returned_machine machine key (own plain)) fun _ _ _ _ => trivial

theorem through_set_runners (change other : Machine → Machine)
    (natural : given lens.bound → ∀ (machine : Machine) (early late : Nat),
      change (machine.pass early) = (change machine).pass early ∧
        other ((lens.machine machine).pass late) = (lens.machine (change machine)).pass late)
    (aside : ∀ machine : Machine, ∃ runners, change machine = { machine with runners := runners }) :
    (modify change).Through lens given (modify other) id fun _ _ => True := by
  refine through_modify change other (fun machine early late plain _ _ => natural plain machine early late) (fun bound machine _ fit => ?_)
    (fun machine => ?_) fun _ machine => ?_
  all_goals
    obtain ⟨runners, same⟩ := aside machine
    rw [same]
  exact machine.fits_same fit _ rfl rfl rfl rfl rfl (Nat.le_refl _)

theorem through_update_runner (own : given lens.bound → lens.Own key) (change twin : Runner → Runner)
    (natural : ∀ runner, twin (lens.runner runner) = lens.runner (change runner)) :
    (modify (·.updateRunner key change)).Through lens given (modify (·.updateRunner (lens.shift key) twin)) id
      fun _ _ => True :=
  through_set_runners _ _ (fun plain machine _ late =>
    ⟨rfl, congrArg (·.pass late) (lens.update_runner_machine machine key (own plain) change twin natural)⟩)
    fun _ => ⟨_, rfl⟩

theorem through_finish_runner (own : given lens.bound → lens.Own key) :
    (finishRunner key).Through lens given (finishRunner (lens.shift key)) (Option.map lens.value) fun _ _ => True := by
  refine through_bind (through_runner key own) fun found => ?_
  cases found with
  | none => exact through_pure none _ rfl fun _ _ => trivial
  | some runner =>
    refine through_bind (through_set_runners _ _ (fun plain machine _ _ => ⟨rfl, ?_⟩) fun _ => ⟨_, rfl⟩) fun _ => ?_
    · simp only [Lens.machine, Machine.pass, lens.swap_erase_machine key (own plain.1)]
    · refine through_bind (through_release_frame runner.frame) fun _ => ?_
      exact through_pure runner.last _ rfl fun _ _ => trivial

theorem through_record (own : given lens.bound → lens.Own key) (value : Option Value) :
    (record key value).Through lens given (record (lens.shift key) (value.map lens.value)) id fun _ _ => True := by
  cases value with
  | none => exact through_pure () () rfl fun _ _ => trivial
  | some value => exact through_update_runner key own _ _ fun _ => rfl

theorem through_advance (own : given lens.bound → lens.Own key) (alone : ¬ lens.Inside) :
    (advance key).Through lens given (advance (lens.shift key)) id fun _ _ => True := by
  refine through_bind (through_runner_returned key own) fun returned => ?_
  refine through_bind (through_runner key fun both => own both.1) fun found => ?_
  cases found with
  | none => exact through_pure () () rfl fun _ _ => trivial
  | some runner =>
    have lines : (if id returned = true then [] else (lens.runner runner).lines) =
        lens.lines (if returned = true then [] else runner.lines) := by
      cases returned <;> rfl
    simp only [Option.map_some, lines]
    cases (if returned = true then [] else runner.lines) with
    | nil => exact through_update_runner key (fun both => own both.1.1) _ _ fun _ => rfl
    | cons node rest =>
      refine through_bind (through_update_runner key (fun both => own both.1.1) _ _ fun _ => rfl) fun _ => ?_
      exact through_enqueue_line ⟨node, key, runner.frame⟩ alone

theorem through_load_program (lines : List Node) (frame : FrameId) (alone : ¬ lens.Inside) :
    (loadProgram lines frame).Through lens given (loadProgram (lens.lines lines) frame) lens.shift fun _ key => lens.Own key := by
  refine through_bind (through_create_runner lines frame) fun key => ?_
  refine through_bind (through_advance key (fun both => both.2) alone) fun _ => ?_
  exact through_pure key _ rfl fun _ both => both.1.2

end Runners

end CoopScript.Exec
