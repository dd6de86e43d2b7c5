import CoopScript.Proofs.Exit.Tends

set_option autoImplicit false
namespace CoopScript

namespace Arena
variable (arena : Arena) (owners : List FrameId) (kept : arena.Kept owners) (id : FrameId) (live : arena.isLive id = true)
include live

theorem update_live (change : Frame → Frame) : ∃ after, arena.update id change = .ok after := by
  obtain ⟨frame, found⟩ := (arena.live_found id).mp live
  exact ⟨arena.setFrame id.index (change frame), by simp only [update, found]⟩

include kept

theorem search_live {α : Type} (ask : FrameId → Frame → Option α) : ∃ answer, arena.search ask id = .ok answer := by
  obtain ⟨depth, anchored⟩ := kept.anchored id live
  have bound := anchored_depth_bound arena depth id anchored
  exact search_answers arena ask depth id anchored arena.reach (by unfold reach; omega)

theorem assign_live (name : String) (value : Value) : ∃ after, arena.assign id name value = .ok after := by
  obtain ⟨answer, searched⟩ := arena.search_live owners kept id live fun candidate frame =>
    if frame.bindings.contains name then some candidate else if frame.isFunction then some id else none
  have aimed : arena.target id name = .ok (answer.getD id) := by
    simp only [target, searched, Except.map]
  unfold assign
  rw [aimed]
  apply update_live
  cases answer with
  | none => exact live
  | some place =>
    obtain ⟨found, frame, known, asked⟩ := search_found arena _ arena.reach id place searched
    split at asked
    · cases asked
      exact (arena.live_found place).mpr ⟨frame, known⟩
    · split at asked
      · cases asked
        exact live
      · cases asked

theorem set_return_live (value : Value) :
    (∃ after, arena.setReturn id value = .ok after) ∨ arena.setReturn id value = .error .returnOutside := by
  obtain ⟨answer, searched⟩ := arena.search_live owners kept id live fun candidate frame =>
    if frame.isFunction then some candidate else none
  unfold setReturn functionFrame
  rw [searched]
  cases answer with
  | none => exact .inr rfl
  | some function =>
    obtain ⟨found, frame, known, asked⟩ := search_found arena _ arena.reach id function searched
    split at asked
    · cases asked
      exact .inl (arena.update_live function ((arena.live_found function).mpr ⟨frame, known⟩) _)
    · cases asked

end Arena

namespace Exec
variable {α β : Type} {leeway : Leeway} {frame : FrameId} {start last level : Bool → Prop} {good : α → Prop}

theorem bears_running (failure : Failure) (machine : Machine) (tame : machine.Tame leeway)
    (running : Running machine.halted) : (Outcome.failed failure machine : Outcome α).Bears leeway last good :=
  ⟨tame, running_not_halted _ running⟩

theorem bears_refused (cause : Cause) (refusal : cause.isRefusal = true) (machine : Machine) (tame : machine.Tame leeway)
    (operates : leeway.Operates machine.halted) :
    (Outcome.failed (.of cause) machine : Outcome α).Bears leeway last good :=
  ⟨tame, fun halted => ⟨cause, Failure.has_cause_of cause, .inr (.inr ⟨operates halted, refusal⟩)⟩⟩

theorem tends_class_value {fine : Value → Prop} (build : ClassTable → Value) (fits : fine (build .intrinsic)) :
    (read fun machine => build machine.classes).Tends leeway frame level level fine :=
  tends_read _ fun _ tame => tame.classes ▸ fits

theorem tends_void : void.Tends leeway frame level level (Value.Tame leeway) :=
  tends_class_value _ (ClassTable.tame_void leeway)

theorem tends_number (x : Float) : (number x).Tends leeway frame level level (Value.Tame leeway) :=
  tends_class_value (fun table => table.number x) (ClassTable.tame_number leeway x)

theorem tends_text (content : String) :
    (text content).Tends leeway frame level level fun value => value.Tame leeway ∧ value.text?.isSome = true := by
  refine tends_class_value (fun table => table.text content) ⟨ClassTable.tame_text leeway content, ?_⟩
  unfold ClassTable.text ClassTable.instantiate
  split <;> rfl

theorem tends_flag (truth : Bool) :
    (flag truth).Tends leeway frame level level fun value => value.Tame leeway ∧ value.flag?.isSome = true := by
  refine tends_class_value (fun table => table.flag truth) ⟨ClassTable.tame_flag leeway truth, ?_⟩
  unfold ClassTable.flag ClassTable.instantiate
  split <;> rfl

theorem tends_name_of (value : Value) : (nameOf value).Tends leeway frame level level fun _ => True := tends_seen _

theorem tends_next_identity : nextIdentity.Tends leeway frame level level fun _ => True :=
  tends_lawful lawful_next_identity fun _ fit _ begun =>
    ⟨⟨fit.tame.classes, fit.tame.frames, fit.tame.tasks, fit.tame.microtasks, fit.tame.runners, fit.tame.ready⟩, begun,
      trivial⟩

theorem tends_array (items : List Value) (tame : ∀ item ∈ items, item.Tame leeway) :
    (array items).Tends leeway frame level level (Value.Tame leeway) :=
  tends_bind _ tends_next_identity fun identity _ =>
    tends_class_value (fun table => table.array identity items) (ClassTable.tame_array leeway identity items tame)

theorem tends_function (content : Function Value) (ordinary : content.Ordinary) (prudent : content.Prudent leeway) :
    (function content).Tends leeway frame level level (Value.Tame leeway) :=
  tends_bind _ tends_next_identity fun identity _ =>
    tends_class_value (fun table => table.function identity content)
      (ClassTable.tame_function leeway identity content ordinary prudent)

theorem tends_write_line (content : String) : (writeLine content).Tends leeway frame level level fun _ => True :=
  tends_lawful (lawful_write_line content) fun _ fit _ begun =>
    ⟨⟨fit.tame.classes, fit.tame.frames, fit.tame.tasks, fit.tame.microtasks, fit.tame.runners, fit.tame.ready⟩, begun,
      trivial⟩

theorem tends_wait : wait.Tends leeway frame level level fun _ => True :=
  tends_lawful lawful_wait fun _ fit _ begun =>
    ⟨⟨fit.tame.classes, fit.tame.frames, fit.tame.tasks, fit.tame.microtasks, fit.tame.runners, fit.tame.ready⟩, begun,
      trivial⟩

theorem tends_halt : halt.Tends leeway frame start Anyhow fun _ => True :=
  tends_lawful lawful_halt fun _ fit _ _ =>
    ⟨⟨fit.tame.classes, fit.tame.frames, fit.tame.tasks, fit.tame.microtasks, fit.tame.runners, fit.tame.ready⟩, trivial,
      trivial⟩

theorem tends_look_up (name : String) :
    (lookUp frame name).Tends leeway frame leeway.Operates leeway.Operates (Value.Tame leeway) := by
  apply tends_lawful (lawful_look_up frame name)
  intro stage fit held operates
  obtain ⟨answer, searched⟩ := stage.machine.frames.search_live _ fit.sound.ledger frame
    (stage.firm_live fit.sound frame held) fun _ content => content.bindings.find? name
  cases answer with
  | none =>
    have failed : lookUp frame name stage.machine = .failed (.of (.unknownVariable name)) stage.machine := by
      simp only [lookUp, askFrames, Arena.lookUp, searched]
    rw [failed]
    exact bears_refused _ rfl stage.machine fit.tame operates
  | some value =>
    have done : lookUp frame name stage.machine = .done value stage.machine := by
      simp only [lookUp, askFrames, Arena.lookUp, searched]
    rw [done]
    obtain ⟨place, content, known, bound⟩ :=
      Arena.search_found stage.machine.frames _ stage.machine.frames.reach frame value searched
    exact ⟨fit.tame, operates,
      NameMap.all_found _ content.bindings (fit.tame.frames place content known).bindings name value bound⟩

-- A change of the frames that keeps them tame is refused at most.
theorem tends_update (change : Arena → Except Cause Arena) (lawful : (updateFrames change).Lawful fun _ => True)
    (carried : ∀ arena after, arena.Holds (Frame.Tame leeway) → change arena = .ok after →
      after.Holds (Frame.Tame leeway))
    (total : ∀ stage : Stage, stage.Fit leeway → frame ∈ stage.firm → level stage.machine.halted →
      (∃ after, change stage.machine.frames = .ok after) ∨
        ∃ cause, change stage.machine.frames = .error cause ∧ cause.isRefusal = true ∧
          leeway.Operates stage.machine.halted) :
    (updateFrames change).Tends leeway frame level level fun _ => True := by
  apply tends_lawful lawful
  intro stage fit held begun
  rcases total stage fit held begun with ⟨after, changed⟩ | ⟨cause, refused, refusal, operates⟩
  · have done : updateFrames change stage.machine = .done () { stage.machine with frames := after } := by
      simp only [updateFrames, changed]
    rw [done]
    exact ⟨stage.machine.tame_frames leeway fit.tame after (carried _ after fit.tame.frames changed), begun, trivial⟩
  · have failed : updateFrames change stage.machine = .failed (.of cause) stage.machine := by
      simp only [updateFrames, refused]
    rw [failed]
    exact bears_refused cause refusal stage.machine fit.tame operates

theorem tends_set_variable (name : String) (value : Value) (tame : value.Tame leeway) :
    (setVariable frame name value).Tends leeway frame level level fun _ => True :=
  tends_update _ (lawful_set_variable frame name value (value.tame_plain leeway tame))
    (fun arena after holds => arena.tame_set_variable leeway after holds frame name value tame)
    fun stage fit held _ => .inl (stage.machine.frames.update_live frame (stage.firm_live fit.sound frame held) _)

theorem tends_assign (name : String) (value : Value) (tame : value.Tame leeway) :
    (assign frame name value).Tends leeway frame level level fun _ => True := by
  refine tends_update _ (lawful_assign frame name value (value.tame_plain leeway tame))
    (fun arena after holds bound => ?_) fun stage fit held _ => .inl (stage.machine.frames.assign_live _
      fit.sound.ledger frame (stage.firm_live fit.sound frame held) name value)
  unfold Arena.assign at bound
  split at bound
  next target _ => exact arena.tame_set_variable leeway after holds target name value tame bound
  next => cases bound

theorem tends_set_return (value : Value) (tame : value.Tame leeway) :
    (setReturn frame value).Tends leeway frame leeway.Operates leeway.Operates fun _ => True :=
  tends_update _ (lawful_set_return frame value (value.tame_plain leeway tame))
    (fun arena after holds => arena.tame_set_return leeway after holds frame value tame)
    fun stage fit held operates => (stage.machine.frames.set_return_live _ fit.sound.ledger frame
      (stage.firm_live fit.sound frame held) value).imp_right fun refused => ⟨.returnOutside, refused, rfl, operates⟩

theorem tends_set_return_inner (inner : frame.isInner = true) (value : Value) (tame : value.Tame leeway) :
    (setReturn frame value).Tends leeway frame level level fun _ => True := by
  refine tends_update _ (lawful_set_return frame value (value.tame_plain leeway tame))
    (fun arena after holds => arena.tame_set_return leeway after holds frame value tame) fun stage fit held _ => ?_
  have live := stage.firm_live fit.sound frame held
  obtain ⟨content, found⟩ := (Arena.live_found stage.machine.frames frame).mp live
  have own := stage.machine.frames.function_frame_own frame content found
    ((fit.tame.frames frame content found).function inner)
  obtain ⟨after, updated⟩ := stage.machine.frames.update_live frame live
    fun content => { content with returned := some value }
  refine .inl ⟨after, ?_⟩
  unfold Arena.setReturn
  rw [own]
  exact updated

theorem tends_take_return :
    (takeReturn frame).Tends leeway frame level level fun value => ∀ result, value = some result → result.Tame leeway := by
  apply tends_lawful (lawful_take_return frame)
  intro stage fit held begun
  have taken := stage.machine.frames.take_return_cleared frame (stage.firm_live fit.sound frame held)
  unfold takeReturn changeFrames
  simp only [taken]
  exact ⟨stage.machine.tame_frames leeway fit.tame _ (stage.machine.frames.tame_cleared leeway fit.tame.frames frame),
    begun, fun result same => stage.machine.frames.tame_result leeway fit.tame.frames frame result same⟩

theorem tends_spawn_async (name : String) (lines : List Node) (arguments : Bindings)
    (tame : arguments.All (Value.Tame leeway)) (prudent : Node.allPrudent leeway true lines = true) :
    (spawnAsync name lines arguments frame).Tends leeway frame level level (Value.Tame leeway) := by
  have plain : arguments.All Value.Plain := fun entry member => entry.2.tame_plain leeway (tame entry member)
  apply tends_lawful (lawful_spawn_async name lines arguments frame plain)
  intro stage fit held begun
  obtain ⟨promise, after, spawned⟩ : ∃ promise after,
      spawnAsync name lines arguments frame stage.machine = .done promise after := by
    obtain ⟨retained, retains⟩ := stage.machine.frames.update_live frame (stage.firm_live fit.sound frame held)
      fun content => { content with holds := content.holds + 1 }
    have pushed : stage.machine.frames.push frame true arguments =
        .ok (retained.allocate (.fresh (some frame) true arguments)) := by
      unfold Arena.push Arena.retain
      rw [retains]
      rfl
    simp [spawnAsync, Bind.bind, bind, createTask, pushFrame, changeFrames, pushed, modify, enqueueMicrotask,
      promise, read]
  have rooted := fit.sound.ledger.live Arena.root (by simp [Stage.owners])
  obtain ⟨afterTame, same, promiseTame⟩ := stage.machine.tame_spawned leeway fit.tame _ name lines arguments frame
    promise after fit.sound.ledger rooted tame prudent spawned
  rw [spawned]
  exact ⟨afterTame, same ▸ begun, promiseTame⟩

theorem tends_spawn_blocking (outcome : Scalar) (milliseconds : Nat) :
    (spawnBlocking (some outcome) milliseconds).Tends leeway frame level level (Value.Tame leeway) := by
  apply tends_lawful (lawful_spawn_blocking outcome milliseconds)
  intro stage fit _ begun
  have follows := lawful_spawn_blocking outcome milliseconds stage fit.sound
  rcases follows_cases stage _ _ follows with ⟨promise, after, spawned, _, _⟩ | ⟨failure, after, failed, _⟩ | exhausted
  · obtain ⟨afterTame, same, promiseTame⟩ := stage.machine.tame_submitted leeway fit.tame outcome milliseconds promise
      after spawned
    rw [spawned]
    exact ⟨afterTame, same ▸ begun, promiseTame⟩
  · cases polled : stage.machine.poolEvent <;>
      simp [spawnBlocking, Bind.bind, bind, createTask, modify, read, polled, registerEvent, promise] at failed
  · rw [exhausted]
    trivial

theorem tends_consume (awaits : leeway.awaits = true) (task : TaskId) : (consumeTask task).Tends leeway frame level level
    fun value => ∀ result, value = some result → result.Tame leeway := by
  apply tends_lawful (lawful_consume task)
  intro stage fit _ begun
  cases consumed : stage.machine.tasks.consume task with
  | error cause =>
    unfold consumeTask
    simp only [consumed]
    refine ⟨fit.tame, fun _ => ⟨cause, Failure.has_cause_of cause, .inl ⟨awaits, .inr ⟨task.number, ?_⟩⟩⟩⟩
    exact TaskTable.consume_fault stage.machine.tasks task cause consumed
  | ok result =>
    obtain ⟨value, tasks⟩ := result
    have taken : consumeTask task stage.machine = .done value { stage.machine with tasks := tasks } := by
      simp only [consumeTask, consumed]
    obtain ⟨afterTame, fine⟩ := stage.machine.tame_consumed leeway fit.tame task value _ taken
    rw [taken]
    exact ⟨afterTame, begun, fine⟩

theorem bears_update_runner (stage : Stage) (fit : stage.Fit leeway) (begun : level stage.machine.halted) (id : RunnerId)
    (change : Runner → Runner) (same : ∀ runner, (change runner).frame = runner.frame)
    (prudent : ∀ runner, stage.machine.runner? id = some runner → (change runner).Prudent leeway) :
    stage.Bears leeway level (fun _ => True) (modify (·.updateRunner id change)) :=
  ⟨lawful_update_runner id change same stage fit.sound,
    stage.machine.tame_updated leeway fit.tame id change same prudent fit.sound.numbered.distinct, begun, trivial⟩

theorem tends_record (id : RunnerId) (value : Option Value) :
    (record id value).Tends leeway frame level level fun _ => True := by
  intro stage fit held begun
  cases value with
  | none => exact tends_pure _ trivial stage fit held begun
  | some value =>
    refine bears_update_runner stage fit begun id _ (fun _ => rfl) fun runner known => ?_
    exact fit.tame.runners (id, runner) (List.mem_of_find?_eq_some (stage.machine.runner_found id runner known))

-- Code that is not to stop is not halted either.
theorem tends_is_unwinding :
    (isUnwinding frame).Tends leeway frame Anyhow Anyhow fun _ => True := by
  apply tends_lawful (lawful_is_unwinding frame)
  intro stage fit held _
  obtain ⟨answer, asked⟩ := Arena.function_frame_answers stage.machine.frames _ frame fit.sound.ledger
    (stage.firm_live fit.sound frame held)
  unfold isUnwinding
  rw [halted_then]
  split
  · exact ⟨fit.tame, trivial, trivial⟩
  · rw [bind_done _ _ stage.machine stage.machine answer (by simp only [askFrames, asked])]
    cases answer <;> exact ⟨fit.tame, trivial, trivial⟩

theorem unwinding_running (machine after : Machine) (asked : isUnwinding frame machine = .done false after) :
    Running after.halted := by
  unfold isUnwinding at asked
  rw [halted_then] at asked
  cases halted : machine.halted with
  | true =>
    rw [halted, if_pos rfl] at asked
    cases asked
  | false =>
    rw [halted, if_neg Bool.false_ne_true] at asked
    obtain ⟨middle, function, first, later⟩ := done_of_bind _ _ machine after false asked
    unfold askFrames at first
    split at first
    next =>
      cases first
      cases function with
      | none =>
        cases later
        exact halted
      | some function =>
        obtain ⟨rfl⟩ : after = machine := by
          unfold read at later
          injection later with _ same
          exact same.symm
        exact halted
    next => cases first

end Exec

end CoopScript
