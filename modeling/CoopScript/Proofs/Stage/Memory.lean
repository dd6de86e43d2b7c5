import CoopScript.Proofs.Stage.Lawful

set_option autoImplicit false
namespace CoopScript

namespace Arena

theorem search_found {α : Type} (arena : Arena) (ask : FrameId → Frame → Option α) (fuel : Nat)
    (id : FrameId) (answer : α) (found : arena.searchChain ask fuel id = .ok (some answer)) :
    ∃ place frame, arena.frame? place = some frame ∧ ask place frame = some answer := by
  induction fuel generalizing id with
  | zero => simp [searchChain] at found
  | succ fuel ih =>
    unfold searchChain at found
    split at found
    next => cases found
    next frame known =>
      split at found
      next result asked =>
        cases found
        exact ⟨id, frame, known, asked⟩
      next =>
        split at found
        next parent inside => exact ih parent found
        next => cases found

theorem search_fault {α : Type} (arena : Arena) (ask : FrameId → Frame → Option α) (fuel : Nat)
    (id : FrameId) (cause : Cause) (fault : arena.searchChain ask fuel id = .error cause) :
    ∃ index, cause = .staleFrame index := by
  induction fuel generalizing id with
  | zero => simp [searchChain] at fault
  | succ fuel ih =>
    unfold searchChain at fault
    split at fault
    next =>
      cases fault
      exact ⟨id.index, rfl⟩
    next frame known =>
      split at fault
      next => cases fault
      next =>
        split at fault
        next parent inside => exact ih parent fault
        next => cases fault

theorem update_done (arena after : Arena) (id : FrameId) (change : Frame → Frame)
    (updated : arena.update id change = .ok after) :
    ∃ frame, arena.frame? id = some frame ∧ after = arena.setFrame id.index (change frame) := by
  unfold update at updated
  split at updated
  next frame found =>
    cases updated
    exact ⟨frame, found, rfl⟩
  next => cases updated

theorem update_fault (arena : Arena) (id : FrameId) (change : Frame → Frame) (cause : Cause)
    (fault : arena.update id change = .error cause) : cause = .staleFrame id.index := by
  unfold update at fault
  split at fault
  next => cases fault
  next =>
    cases fault
    rfl

-- Bindings and a result are all that a script may change about a frame.
structure Rewrites (arena after : Arena) : Prop where
  changed : ∃ id old frame, arena.frame? id = some old ∧ after = arena.setFrame id.index frame ∧
    frame.parent = old.parent ∧ frame.isFunction = old.isFunction ∧ frame.holds = old.holds ∧
    (arena.Plain → frame.Plain)

theorem set_variable_rewrites (arena after : Arena) (id : FrameId) (name : String) (value : Value)
    (plain : value.Plain) (done : arena.setVariable id name value = .ok after) :
    arena.Rewrites after := by
  obtain ⟨frame, found, rfl⟩ := update_done arena after id _ done
  refine ⟨id, frame, _, found, rfl, rfl, rfl, rfl, fun arenaPlain => ?_⟩
  have framePlain := arenaPlain id frame found
  exact ⟨NameMap.all_insert Value.Plain frame.bindings framePlain.bindings name value plain,
    framePlain.returned⟩

theorem assign_rewrites (arena after : Arena) (id : FrameId) (name : String) (value : Value)
    (plain : value.Plain) (done : arena.assign id name value = .ok after) : arena.Rewrites after := by
  unfold assign at done
  split at done
  next target _ => exact set_variable_rewrites arena after target name value plain done
  next => cases done

theorem set_return_rewrites (arena after : Arena) (id : FrameId) (value : Value) (plain : value.Plain)
    (done : arena.setReturn id value = .ok after) : arena.Rewrites after := by
  unfold setReturn at done
  split at done
  next function _ =>
    obtain ⟨frame, found, rfl⟩ := update_done arena after function _ done
    refine ⟨function, frame, _, found, rfl, rfl, rfl, rfl, fun arenaPlain => ?_⟩
    exact ⟨(arenaPlain function frame found).bindings, fun other same => Option.some.inj same ▸ plain⟩
  next => cases done
  next => cases done

theorem take_return_rewrites (arena after : Arena) (id : FrameId) (value : Option Value)
    (done : arena.takeReturn id = .ok (value, after)) :
    arena.Rewrites after ∧ ∃ frame, arena.frame? id = some frame ∧ value = frame.returned := by
  unfold takeReturn at done
  split at done
  next frame found =>
    cases done
    refine ⟨⟨id, frame, _, found, rfl, rfl, rfl, rfl, fun arenaPlain => ?_⟩, frame, found, rfl⟩
    exact ⟨(arenaPlain id frame found).bindings, fun other same => by cases same⟩
  next => cases done

theorem function_frame_fault (arena : Arena) (id : FrameId) (cause : Cause)
    (fault : arena.functionFrame id = .error cause) : ∃ index, cause = .staleFrame index := by
  unfold functionFrame search at fault
  exact search_fault arena _ arena.reach id cause fault

theorem set_return_fault (arena : Arena) (id : FrameId) (value : Value) (cause : Cause)
    (fault : arena.setReturn id value = .error cause) :
    cause = .returnOutside ∨ ∃ index, cause = .staleFrame index := by
  unfold setReturn at fault
  split at fault
  next function _ => exact .inr ⟨function.index, update_fault arena function _ cause fault⟩
  next =>
    cases fault
    exact .inl rfl
  next asked =>
    cases fault
    exact .inr (function_frame_fault arena id cause asked)

theorem assign_fault (arena : Arena) (id : FrameId) (name : String) (value : Value) (cause : Cause)
    (fault : arena.assign id name value = .error cause) : ∃ index, cause = .staleFrame index := by
  unfold assign at fault
  split at fault
  next target _ => exact ⟨target.index, update_fault arena target _ cause fault⟩
  next other asked =>
    cases fault
    unfold target at asked
    cases searched : arena.search
        (fun candidate frame => if frame.bindings.contains name then some candidate
          else if frame.isFunction then some id else none) id with
    | ok answer => simp [searched, Except.map] at asked
    | error found =>
      simp only [searched, Except.map, Except.error.injEq] at asked
      exact asked ▸ search_fault arena _ arena.reach id found searched

theorem look_up_fault (arena : Arena) (id : FrameId) (name : String) (cause : Cause)
    (fault : arena.lookUp id name = .error cause) :
    cause = .unknownVariable name ∨ ∃ index, cause = .staleFrame index := by
  unfold lookUp at fault
  split at fault
  next => cases fault
  next =>
    cases fault
    exact .inl rfl
  next searched =>
    cases fault
    exact .inr (search_fault arena _ arena.reach id cause searched)

theorem push_fault (arena : Arena) (parent : FrameId) (isFunction : Bool) (bindings : Bindings)
    (cause : Cause) (fault : arena.push parent isFunction bindings = .error cause) :
    cause = .staleFrame parent.index := by
  unfold push at fault
  cases retained : arena.retain parent with
  | ok held => simp [retained, Except.map] at fault
  | error found =>
    simp only [retained, Except.map, Except.error.injEq] at fault
    exact fault ▸ update_fault arena parent _ found retained

end Arena

theorem TaskTable.consume_fault (table : TaskTable) (task : TaskId) (cause : Cause)
    (fault : table.consume task = .error cause) :
    cause = .alreadyAwaited task.number ∨ cause = .unknownTask task.number := by
  unfold consume at fault
  split at fault
  next => cases fault
  next => cases fault
  next =>
    cases fault
    exact .inl rfl
  next =>
    cases fault
    exact .inr rfl

namespace Exec

theorem lawful_ask {α : Type} (good : α → Prop) (ask : Arena → Except Cause α)
    (fine : ∀ arena answer, arena.Plain → ask arena = .ok answer → good answer)
    (fault : ∀ arena cause, ask arena = .error cause → cause.isStranding = false) :
    (askFrames ask).Lawful good := by
  intro stage sound
  cases asked : ask stage.machine.frames with
  | ok answer =>
    exact follows_here stage good _ answer (by simp [askFrames, asked]) (fine _ answer sound.plain.frames asked)
  | error cause =>
    exact follows_refused stage good _ (.of cause) (by simp [askFrames, asked])
      (not_stranding cause (fault _ cause asked))

theorem lawful_update (change : Arena → Except Cause Arena)
    (rewrites : ∀ arena after, change arena = .ok after → arena.Rewrites after)
    (fault : ∀ arena cause, change arena = .error cause → cause.isStranding = false) :
    (updateFrames change).Lawful fun _ => True := by
  intro stage sound
  cases changed : change stage.machine.frames with
  | ok after =>
    obtain ⟨id, old, frame, found, rfl, sameParent, sameKind, sameHolds, plain⟩ :=
      (rewrites _ after changed).changed
    exact follows_step stage _ _ () _ (by simp only [updateFrames, changed])
      (.alter stage id old frame found sameParent sameKind sameHolds (plain sound.plain.frames)) (.refl _) trivial
  | error cause =>
    exact follows_refused stage _ _ (.of cause) (by simp [updateFrames, changed])
      (not_stranding cause (fault _ cause changed))

theorem lawful_look_up (frame : FrameId) (name : String) : (lookUp frame name).Lawful Value.Plain := by
  apply lawful_ask
  · intro arena value plain found
    unfold Arena.lookUp at found
    split at found
    next searched =>
      cases found
      obtain ⟨place, content, known, bound⟩ := Arena.search_found arena _ arena.reach frame value searched
      exact NameMap.all_found Value.Plain content.bindings (plain place content known).bindings name value bound
    next => cases found
    next => cases found
  · intro arena cause fault
    rcases Arena.look_up_fault arena frame name _ fault with rfl | ⟨index, rfl⟩ <;> rfl

theorem lawful_set_variable (frame : FrameId) (name : String) (value : Value) (plain : value.Plain) :
    (setVariable frame name value).Lawful fun _ => True := by
  apply lawful_update
  · exact fun arena after => Arena.set_variable_rewrites arena after frame name value plain
  · intro arena cause fault
    obtain rfl := Arena.update_fault arena frame _ _ fault
    rfl

theorem lawful_assign (frame : FrameId) (name : String) (value : Value) (plain : value.Plain) :
    (assign frame name value).Lawful fun _ => True := by
  apply lawful_update
  · exact fun arena after => Arena.assign_rewrites arena after frame name value plain
  · intro arena cause fault
    obtain ⟨index, rfl⟩ := Arena.assign_fault arena frame name value _ fault
    rfl

theorem lawful_set_return (frame : FrameId) (value : Value) (plain : value.Plain) :
    (setReturn frame value).Lawful fun _ => True := by
  apply lawful_update
  · exact fun arena after => Arena.set_return_rewrites arena after frame value plain
  · intro arena cause fault
    rcases Arena.set_return_fault arena frame value _ fault with rfl | ⟨index, rfl⟩ <;> rfl

theorem lawful_take_return (frame : FrameId) :
    (takeReturn frame).Lawful fun value => ∀ result, value = some result → result.Plain := by
  intro stage sound
  cases taken : stage.machine.frames.takeReturn frame with
  | ok result =>
    obtain ⟨value, after⟩ := result
    obtain ⟨⟨id, old, content, found, rfl, sameParent, sameKind, sameHolds, plain⟩, known, knownFound, rfl⟩ :=
      Arena.take_return_rewrites _ after frame value taken
    exact follows_step stage _ _ known.returned _ (by simp only [takeReturn, changeFrames, taken])
      (.alter stage id old content found sameParent sameKind sameHolds (plain sound.plain.frames)) (.refl _)
      (sound.plain.frames frame known knownFound).returned
  | error cause =>
    refine follows_refused stage _ _ (.of cause) (by simp [takeReturn, changeFrames, taken]) (not_stranding cause ?_)
    unfold Arena.takeReturn at taken
    split at taken <;> cases taken
    rfl

theorem lawful_class_value (build : ClassTable → Value)
    (plain : ∀ table : ClassTable, table.Plain → (build table).Plain) :
    (read fun machine => build machine.classes).Lawful Value.Plain :=
  lawful_read Value.Plain _ fun stage sound => plain stage.machine.classes sound.plain.classes

theorem lawful_seen {α : Type} (view : Machine → α) : (read view).Lawful fun _ => True :=
  lawful_read _ view fun _ _ => trivial

theorem lawful_next_identity : nextIdentity.Lawful fun _ => True := by
  intro stage _
  exact follows_step stage _ _ stage.machine.nextIdentity _ rfl
    (.quiet stage stage.machine.output stage.machine.halted (stage.machine.nextIdentity + 1) stage.machine.clock
      stage.machine.ready) (.refl _) trivial

theorem lawful_array (items : List Value) (plain : ∀ item ∈ items, item.Plain) :
    (array items).Lawful Value.Plain := by
  apply lawful_bind (fun _ => True) _ _ _ lawful_next_identity
  exact fun identity _ => lawful_class_value _ fun table tablePlain =>
    table.plain_array tablePlain identity items plain

theorem lawful_function (content : Function Value) (ordinary : content.Ordinary) :
    (function content).Lawful Value.Plain := by
  apply lawful_bind (fun _ => True) _ _ _ lawful_next_identity
  exact fun identity _ => lawful_class_value _ fun table tablePlain =>
    table.plain_function tablePlain identity content ordinary

theorem lawful_write_line (content : String) : (writeLine content).Lawful fun _ => True :=
  lawful_quiet _ fun machine =>
    ⟨machine.output.push content, machine.halted, machine.nextIdentity, machine.clock, machine.ready, rfl⟩

theorem lawful_halt : halt.Lawful fun _ => True :=
  lawful_quiet _ fun machine =>
    ⟨machine.output, true, machine.nextIdentity, machine.clock, machine.ready, rfl⟩

theorem lawful_wait : wait.Lawful fun _ => True :=
  lawful_quiet _ fun machine =>
    ⟨machine.output, machine.halted, machine.nextIdentity,
      machine.clock + 1000 * machine.config.pollInterval, machine.ready, rfl⟩

theorem lawful_enqueue_line (line : Line) : (enqueueLine line).Lawful fun _ => True :=
  lawful_quiet _ fun machine =>
    ⟨machine.output, machine.halted, machine.nextIdentity, machine.clock, machine.ready ++ [line], rfl⟩

theorem lawful_update_runner (id : RunnerId) (change : Runner → Runner)
    (same : ∀ runner, (change runner).frame = runner.frame) :
    (modify (·.updateRunner id change)).Lawful fun _ => True := by
  intro stage _
  refine follows_step stage _ _ () _ rfl (.adjust stage id change same) ?_ trivial
  rw [Machine.registered_updated stage.machine id change same]

theorem lawful_record (id : RunnerId) (value : Option Value) : (record id value).Lawful fun _ => True := by
  cases value with
  | none => exact lawful_pure _ () trivial
  | some value => exact lawful_update_runner id _ fun _ => rfl

theorem lawful_advance (id : RunnerId) : (advance id).Lawful fun _ => True := by
  apply lawful_bind (fun _ => True) _ _ _ (lawful_seen _)
  intro returned _
  apply lawful_bind (fun _ => True) _ _ _ (lawful_seen _)
  intro known _
  cases known with
  | none => exact lawful_pure _ () trivial
  | some runner =>
    simp only
    split
    next => exact lawful_update_runner id _ fun _ => rfl
    next node rest _ =>
      refine lawful_bind (fun _ => True) _ _ _
        (lawful_update_runner id (fun runner => { runner with lines := rest }) fun _ => rfl) ?_
      exact fun _ _ => lawful_enqueue_line _

theorem lawful_is_unwinding (frame : FrameId) : (isUnwinding frame).Lawful fun _ => True := by
  apply lawful_bind (fun _ => True) _ _ _ (lawful_seen _)
  intro halted _
  split
  · exact lawful_pure _ true trivial
  · have asked : (askFrames (·.functionFrame frame)).Lawful fun _ => True := by
      apply lawful_ask
      · exact fun _ _ _ _ => trivial
      · intro arena cause fault
        obtain ⟨index, rfl⟩ := Arena.function_frame_fault arena frame _ fault
        rfl
    apply lawful_bind (fun _ => True) _ _ _ asked
    intro function _
    cases function with
    | none => exact lawful_pure _ false trivial
    | some function => exact lawful_seen _

theorem lawful_consume (task : TaskId) :
    (consumeTask task).Lawful fun value => ∀ result, value = some result → result.Plain := by
  intro stage sound
  cases consumed : stage.machine.tasks.consume task with
  | error cause =>
    refine follows_refused stage _ _ (.of cause) (by simp [consumeTask, consumed]) (not_stranding cause ?_)
    rcases TaskTable.consume_fault _ task _ consumed with rfl | rfl <;> rfl
  | ok result =>
    obtain ⟨value, tasks⟩ := result
    have done : consumeTask task stage.machine = .done value { stage.machine with tasks := tasks } := by
      simp [consumeTask, consumed]
    cases value with
    | some value =>
      refine follows_step stage _ _ (some value) _ done (.consume stage task value _ done) (.refl _) ?_
      rintro result ⟨⟩
      exact sound.plain.tasks task value
        (TaskTable.consume_done stage.machine.tasks tasks task value consumed).1
    | none =>
      obtain ⟨_, rfl⟩ := TaskTable.consume_waits stage.machine.tasks tasks task consumed
      exact follows_here stage _ _ none done fun _ same => by cases same

theorem lawful_spawn_async (name : String) (lines : List Node) (arguments : Bindings)
    (caller : FrameId) (plain : arguments.All Value.Plain) :
    (spawnAsync name lines arguments caller).Lawful Value.Plain := by
  intro stage sound
  cases pushed : stage.machine.frames.push caller true arguments with
  | ok result =>
    obtain ⟨frame, frames⟩ := result
    have done : spawnAsync name lines arguments caller stage.machine =
        .done (stage.machine.classes.promise stage.machine.tasks.create.1) { stage.machine with
          tasks := stage.machine.tasks.create.2
          frames := frames
          asyncFrames := stage.machine.asyncFrames ++ [frame]
          microtasks := stage.machine.microtasks ++
            [.asyncBody stage.machine.tasks.create.1 name lines frame] } := by
      simp [spawnAsync, Bind.bind, bind, createTask, pushFrame, changeFrames, pushed, modify,
        enqueueMicrotask, promise, read]
    exact follows_step stage _ _ _ _ done (.spawn stage name lines arguments caller _ _ plain done) (.refl _)
      (stage.machine.classes.plain_promise sound.plain.classes _)
  | error cause =>
    have failed : spawnAsync name lines arguments caller stage.machine =
        .failed (.of cause) { stage.machine with tasks := stage.machine.tasks.create.2 } := by
      simp [spawnAsync, Bind.bind, bind, createTask, pushFrame, changeFrames, pushed]
    refine follows_unwound stage _ _ _ _ failed (.strand stage _ _ rfl) (.refl _) (not_stranding cause ?_)
    obtain rfl := Arena.push_fault _ caller true arguments _ pushed
    rfl

end Exec
end CoopScript
