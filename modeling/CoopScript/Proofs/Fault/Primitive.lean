import CoopScript.Proofs.Fault.Clears

set_option autoImplicit false
namespace CoopScript.Exec
variable {α β : Type} {count : Nat} {frame : FrameId} {good : Nat → α → Prop} {step : Exec α}

theorem clears_tends {fine : α → Prop} (tends : step.Tends .full frame Anyhow Anyhow fine)
    (ends : ∀ stage : Stage, stage.Clear → frame ∈ stage.firm → stage.count = count → ∀ value machine,
      step stage.machine = .done value machine → fine value →
      machine.Within ∧ count ≤ machine.tasks.count ∧ good machine.tasks.count value)
    (breaks : ∀ stage : Stage, stage.Clear → frame ∈ stage.firm → stage.count = count → ∀ failure machine,
      step stage.machine = .failed failure machine → machine.Within ∧ failure.Clean) :
    step.Clears count frame good := by
  intro stage clear held counted
  obtain ⟨follows, outcome⟩ := tends stage clear.fit held trivial
  refine ⟨follows, ?_⟩
  cases ran : step stage.machine with
  | done value machine =>
    rw [ran] at outcome
    obtain ⟨within, more, fineValue⟩ := ends stage clear held counted value machine ran outcome.2.2
    exact ⟨outcome.1, within, counted ▸ more, fineValue⟩
  | failed failure machine =>
    rw [ran] at outcome
    exact ⟨outcome.1, breaks stage clear held counted failure machine ran⟩
  | outOfFuel => trivial

-- Whatever is risked can be begun anyhow.
theorem tends_risking {start last : Bool → Prop} {fine : α → Prop} (tends : step.Tends .full frame start last fine)
    (begins : ∀ halted, start halted) : step.Tends .full frame Anyhow Anyhow fine :=
  tends_weaken tends (fun halted _ => begins halted) (fun _ _ => trivial) fun _ fineValue => fineValue

theorem full_operates (halted : Bool) : Leeway.full.Operates halted := fun _ => rfl

theorem clears_modify (change : Machine → Machine)
    (tends : (modify change).Tends .full frame Anyhow Anyhow fun _ => True)
    (frames : ∀ machine, (change machine).frames = machine.frames)
    (tasks : ∀ machine, (change machine).tasks = machine.tasks) :
    (modify change).Clears count frame fun _ _ => True := by
  refine clears_tends tends (fun stage clear _ counted value machine done _ => ?_) fun _ _ _ _ _ _ failed => by cases failed
  cases done
  refine ⟨⟨?_, ?_⟩, ?_, trivial⟩
  · rw [frames, tasks]
    exact clear.within.frames
  · rw [tasks]
    exact clear.within.tasks
  · rw [tasks]
    exact counted.symm.le

theorem clears_class_value {fine : Value → Prop} (build : ClassTable → Value) (tame : (build .intrinsic).Tame .full)
    (within : (build .intrinsic).Within count) (fits : fine (build .intrinsic)) :
    (read fun machine => build machine.classes).Clears count frame fun more value => value.Sure more ∧ fine value :=
  clears_lawful (lawful_seen _) fun stage clear _ counted => by
    have sure : (build stage.machine.classes).Sure stage.count ∧ fine (build stage.machine.classes) := by
      rw [clear.fit.tame.classes, counted]
      exact ⟨⟨tame, within⟩, fits⟩
    exact ⟨clear.fit.tame, clear.within, Nat.le_refl _, sure⟩

theorem clears_sure {fine : Value → Prop} {step : Exec Value}
    (clears : step.Clears count frame fun more value => value.Sure more ∧ fine value) :
    step.Clears count frame fun more value => value.Sure more :=
  clears_weaken clears fun _ _ _ both => both.1

theorem clears_value (build : ClassTable → Value) (tame : (build .intrinsic).Tame .full)
    (within : (build .intrinsic).Within count) :
    (read fun machine => build machine.classes).Clears count frame fun more value => value.Sure more := by
  have both : (read fun machine => build machine.classes).Clears count frame fun more value => value.Sure more ∧ True :=
    clears_class_value build tame within trivial
  exact clears_sure both

theorem clears_void : void.Clears count frame fun more value => value.Sure more :=
  clears_value _ (ClassTable.tame_void .full) (ClassTable.within_scalar count .void)

theorem clears_number (x : Float) : (number x).Clears count frame fun more value => value.Sure more :=
  clears_value (fun table => table.number x) (ClassTable.tame_number .full x)
    (ClassTable.within_scalar count (.number x))

theorem clears_text (content : String) :
    (text content).Clears count frame fun more value => value.Sure more ∧ value.text?.isSome = true := by
  refine clears_class_value (fun table => table.text content) (ClassTable.tame_text .full content)
    (ClassTable.within_scalar count (.text content)) ?_
  unfold ClassTable.text ClassTable.instantiate
  split <;> rfl

theorem clears_flag (truth : Bool) :
    (flag truth).Clears count frame fun more value => value.Sure more ∧ value.flag?.isSome = true := by
  refine clears_class_value (fun table => table.flag truth) (ClassTable.tame_flag .full truth)
    (ClassTable.within_scalar count (.flag truth)) ?_
  unfold ClassTable.flag ClassTable.instantiate
  split <;> rfl

theorem clears_name_of (value : Value) : (nameOf value).Clears count frame fun _ _ => True := clears_seen _

theorem clears_next_identity : nextIdentity.Clears count frame fun _ _ => True := by
  have tends : nextIdentity.Tends .full frame Anyhow Anyhow fun _ => True := tends_next_identity
  refine clears_tends tends (fun stage clear _ counted value machine done _ => ?_)
    fun _ _ _ _ _ _ failed => by cases failed
  cases done
  exact ⟨⟨clear.within.frames, clear.within.tasks⟩, counted.symm.le, trivial⟩

theorem clears_array (items : List Value) (sure : ∀ item ∈ items, item.Sure count) :
    (array items).Clears count frame fun more value => value.Sure more :=
  clears_bind _ clears_next_identity fun more identity fewer _ =>
    clears_value (fun table => table.array identity items)
      (ClassTable.tame_array .full identity items fun item member => (sure item member).tame)
      (ClassTable.within_array more identity items fun item member =>
        item.within_more count more fewer (sure item member).within)

theorem clears_function (content : Function Value) (ordinary : content.Ordinary) (prudent : content.Prudent .full) :
    (function content).Clears count frame fun more value => value.Sure more :=
  clears_bind _ clears_next_identity fun more identity _ _ =>
    clears_value (fun table => table.function identity content)
      (ClassTable.tame_function .full identity content ordinary prudent)
      (ClassTable.within_function more identity content)

theorem clears_write_line (content : String) : (writeLine content).Clears count frame fun _ _ => True :=
  clears_modify _ (tends_write_line content) (fun _ => rfl) fun _ => rfl

theorem clears_wait : wait.Clears count frame fun _ _ => True :=
  clears_modify _ tends_wait (fun _ => rfl) fun _ => rfl

theorem clears_halt : halt.Clears count frame fun _ _ => True :=
  clears_modify _ tends_halt (fun _ => rfl) fun _ => rfl

theorem clears_look_up (name : String) : (lookUp frame name).Clears count frame fun more value => value.Sure more := by
  refine clears_tends (tends_risking (tends_look_up name) full_operates) (fun stage clear held counted value machine done tame => ?_)
    fun stage clear held _ failure machine failed => ?_
  all_goals
    obtain ⟨answer, searched⟩ := stage.machine.frames.search_live _ clear.fit.sound.ledger frame
      (stage.firm_live clear.fit.sound frame held) fun _ content => content.bindings.find? name
    cases answer
  · simp [lookUp, askFrames, Arena.lookUp, searched] at done
  · next found =>
      simp only [lookUp, askFrames, Arena.lookUp, searched] at done
      cases done
      obtain ⟨place, content, known, bound⟩ :=
        Arena.search_found stage.machine.frames _ stage.machine.frames.reach frame value searched
      exact ⟨clear.within, counted.symm.le, tame,
        NameMap.all_found _ content.bindings (clear.within.frames place content known).bindings name value bound⟩
  · simp only [lookUp, askFrames, Arena.lookUp, searched] at failed
    cases failed
    exact ⟨clear.within, Failure.clean_of _ rfl⟩
  · simp [lookUp, askFrames, Arena.lookUp, searched] at failed

theorem clears_update (change : Arena → Except Cause Arena)
    (tends : (updateFrames change).Tends .full frame Anyhow Anyhow fun _ => True)
    (carried : ∀ arena after, (arena.Holds fun _ content => content.Within count) → change arena = .ok after →
      after.Holds fun _ content => content.Within count)
    (refused : ∀ stage : Stage, stage.Clear → frame ∈ stage.firm → ∀ cause,
      change stage.machine.frames = .error cause → cause.isInternal = false) :
    (updateFrames change).Clears count frame fun _ _ => True := by
  refine clears_tends tends (fun stage clear held counted value machine done _ => ?_)
    fun stage clear held _ failure machine failed => ?_
  · unfold updateFrames at done
    split at done
    next frames changed =>
      cases done
      obtain rfl : stage.machine.tasks.count = count := counted
      exact ⟨stage.machine.within_frames clear.within frames (carried _ frames clear.within.frames changed), Nat.le_refl _,
        trivial⟩
    next => cases done
  · unfold updateFrames at failed
    split at failed
    next => cases failed
    next cause changed =>
      cases failed
      exact ⟨clear.within, Failure.clean_of cause (refused stage clear held cause changed)⟩

theorem clears_set_variable (name : String) (value : Value) (sure : value.Sure count) :
    (setVariable frame name value).Clears count frame fun _ _ => True := by
  refine clears_update _ (tends_set_variable name value sure.tame)
    (fun arena after within bound => arena.within_set_variable count after within frame name value sure.within bound)
    fun stage clear held cause refused => ?_
  obtain ⟨after, changed⟩ := stage.machine.frames.update_live frame (stage.firm_live clear.fit.sound frame held)
    fun content => { content with bindings := content.bindings.insert name value }
  exact nomatch (show stage.machine.frames.setVariable frame name value = _ from changed).symm.trans refused

theorem clears_assign (name : String) (value : Value) (sure : value.Sure count) :
    (assign frame name value).Clears count frame fun _ _ => True := by
  refine clears_update _ (tends_assign name value sure.tame)
    (fun arena after within bound => ?_) fun stage clear held cause refused => ?_
  · unfold Arena.assign at bound
    split at bound
    next target _ => exact arena.within_set_variable count after within target name value sure.within bound
    next => cases bound
  · obtain ⟨after, changed⟩ := stage.machine.frames.assign_live _ clear.fit.sound.ledger frame
      (stage.firm_live clear.fit.sound frame held) name value
    exact nomatch changed.symm.trans refused

theorem clears_set_return (value : Value) (sure : value.Sure count) :
    (setReturn frame value).Clears count frame fun _ _ => True := by
  refine clears_update _ (tends_risking (tends_set_return value sure.tame) full_operates)
    (fun arena after within returned => arena.within_set_return count after within frame value sure.within returned)
    fun stage clear held cause refused => ?_
  rcases stage.machine.frames.set_return_live _ clear.fit.sound.ledger frame
      (stage.firm_live clear.fit.sound frame held) value with ⟨after, changed⟩ | outside
  · exact nomatch changed.symm.trans refused
  · cases outside.symm.trans refused
    rfl

theorem clears_take_return : (takeReturn frame).Clears count frame
    fun more result => ∀ value, result = some value → value.Sure more := by
  refine clears_tends tends_take_return
    (fun stage clear held counted result machine done tame => ?_) fun stage clear held _ failure machine failed => ?_
  all_goals
    have taken := stage.machine.frames.take_return_cleared frame (stage.firm_live clear.fit.sound frame held)
  · simp only [takeReturn, changeFrames, taken] at done
    cases done
    exact ⟨stage.machine.within_frames clear.within _ (stage.machine.frames.within_cleared _ clear.within.frames frame),
      counted.symm.le, fun value same =>
        ⟨tame value same, stage.machine.frames.within_result _ clear.within.frames frame value same⟩⟩
  · simp only [takeReturn, changeFrames, taken] at failed
    cases failed

theorem clears_spawn_async (name : String) (lines : List Node) (arguments : Bindings)
    (sure : arguments.All (Value.Sure count)) (prudent : Node.allPrudent .full true lines = true) :
    (spawnAsync name lines arguments frame).Clears count frame fun more value => value.Sure more := by
  have tame : arguments.All (Value.Tame .full) := fun entry member => (sure entry member).tame
  refine clears_tends (tends_spawn_async name lines arguments tame prudent)
    (fun stage clear held counted promise machine done promiseTame => ?_) fun stage clear held _ failure machine failed => ?_
  · obtain rfl : stage.machine.tasks.count = count := counted
    obtain ⟨within, promised⟩ := stage.machine.within_spawned clear.within _ name lines arguments frame promise machine
      clear.fit.sound.ledger clear.fit.tame.classes (fun entry member => (sure entry member).within) done
    obtain ⟨_, _, _, _, rfl⟩ := spawn_async_done name lines arguments frame promise stage.machine machine done
    exact ⟨within, stage.machine.tasks.count_created, promiseTame, promised⟩
  · obtain ⟨id, opened, pushed⟩ := stage.push_frame_live clear.fit frame arguments held
    obtain ⟨frames, framesPushed, _⟩ := push_frame_done frame id true arguments _ opened pushed
    simp [spawnAsync, Bind.bind, bind, createTask, pushFrame, changeFrames, framesPushed, modify, enqueueMicrotask,
      promise, read] at failed

theorem clears_spawn_blocking (outcome : Scalar) (milliseconds : Nat) :
    (spawnBlocking (some outcome) milliseconds).Clears count frame fun more value => value.Sure more := by
  refine clears_tends (tends_spawn_blocking outcome milliseconds)
    (fun stage clear held counted promise machine done promiseTame => ?_) fun stage clear held _ failure machine failed => ?_
  · obtain rfl : stage.machine.tasks.count = count := counted
    obtain ⟨within, promised⟩ := stage.machine.within_submitted clear.within outcome milliseconds promise machine
      clear.fit.tame.classes done
    obtain ⟨_, _, _, _, _, _, rfl, _⟩ := spawn_blocking_done (some outcome) milliseconds promise stage.machine machine done
    exact ⟨within, stage.machine.tasks.count_created, promiseTame, promised⟩
  · cases polled : stage.machine.poolEvent <;>
      simp [spawnBlocking, Bind.bind, bind, createTask, modify, read, polled, registerEvent, promise] at failed

theorem clears_consume (task : TaskId) (positive : 0 < task.number) (bound : task.number ≤ count) :
    (consumeTask task).Clears count frame fun more result => ∀ value, result = some value → value.Sure more := by
  refine clears_tends (tends_consume rfl task)
    (fun stage clear _ counted result machine done tame => ?_) fun stage clear _ counted failure machine failed => ?_
  · obtain ⟨within, same, fine⟩ := stage.machine.within_consumed clear.within task result machine done
    obtain rfl : stage.machine.tasks.count = count := counted
    exact ⟨within, same.symm.le, fun value given => ⟨tame value given, same ▸ fine value given⟩⟩
  · unfold consumeTask at failed
    split at failed
    next => cases failed
    next cause refused =>
      cases failed
      have known := stage.machine.tasks.consume_known task positive (bound.trans counted.symm.le) cause refused
      exact ⟨clear.within, Failure.clean_of cause (known ▸ rfl)⟩

theorem clears_record (id : RunnerId) (value : Option Value) : (record id value).Clears count frame fun _ _ => True := by
  cases value with
  | none => exact clears_pure _ trivial
  | some value =>
    exact clears_modify _ (tends_record id (some value)) (fun _ => rfl) fun _ => rfl

theorem clears_is_unwinding : (isUnwinding frame).Clears count frame fun _ _ => True := by
  have unmoved : ∀ stage : Stage, stage.Clear → frame ∈ stage.firm →
      ∃ answer, isUnwinding frame stage.machine = .done answer stage.machine := by
    intro stage clear held
    obtain ⟨answer, asked⟩ := Arena.function_frame_answers stage.machine.frames _ frame clear.fit.sound.ledger
      (stage.firm_live clear.fit.sound frame held)
    unfold isUnwinding
    rw [halted_then]
    split
    · exact ⟨true, rfl⟩
    · rw [bind_done _ _ stage.machine stage.machine answer (by simp only [askFrames, asked])]
      cases answer <;> exact ⟨_, rfl⟩
  refine clears_tends tends_is_unwinding (fun stage clear held counted value machine done _ => ?_)
    fun stage clear held _ failure machine failed => ?_
  all_goals obtain ⟨answer, same⟩ := unmoved stage clear held
  · cases same.symm.trans done
    exact ⟨clear.within, counted.symm.le, trivial⟩
  · cases same.symm.trans failed

end CoopScript.Exec
