import CoopScript.Proofs.Work.Told

set_option autoImplicit false
namespace CoopScript

namespace Machine
variable (machine : Machine) (tidy : machine.Tidy)
include tidy

-- Nothing of this is anything that tasks depend on.
theorem aside_quiet (clock : Nat) (ready : List Line) (halted : Bool) (depth : Nat) (asyncFrames : List FrameId)
    (output : Array String) (nextIdentity : Nat) : machine.Aside { machine with
      clock := clock, ready := ready, halted := halted, depth := depth, asyncFrames := asyncFrames, output := output
      nextIdentity := nextIdentity } :=
  ⟨rfl, rfl, rfl, ⟨{ tidy.mild with }, { tidy.polling with }⟩, machine.later_kept _ rfl rfl⟩

theorem aside_frames (frames : Arena) (mild : frames.Mild) : machine.Aside { machine with frames := frames } :=
  ⟨rfl, rfl, rfl, machine.tidy_frames tidy frames mild, machine.later_kept _ rfl rfl⟩

theorem aside_runners (runners : List (RunnerId × Runner))
    (mild : ∀ entry ∈ runners, ∀ value, entry.2.last = some value → value.Mild) :
    machine.Aside { machine with runners := runners } :=
  ⟨rfl, rfl, rfl, ⟨{ tidy.mild with runners := mild }, { tidy.polling with }⟩, machine.later_kept _ rfl rfl⟩

theorem aside_updated (id : RunnerId) (change : Runner → Runner)
    (mild : ∀ runner : Runner, (∀ value, runner.last = some value → value.Mild) →
      ∀ value, (change runner).last = some value → value.Mild) : machine.Aside (machine.updateRunner id change) := by
  refine machine.aside_runners tidy _ fun entry member => ?_
  obtain ⟨old, known, rfl⟩ := List.mem_map.mp member
  by_cases same : old.1 = id
  · simp only [if_pos same]
    exact mild old.2 (tidy.mild.runners old known)
  · simp only [if_neg same]
    exact tidy.mild.runners old known

-- Names that are not for values or events.
theorem aside_handles (handles : Handles) (slots : handles.slots = machine.handles.slots)
    (events : handles.events = machine.handles.events) : machine.Aside { machine with handles := handles } := by
  have mild : handles.slots.All Value.Mild := slots ▸ tidy.mild.slots
  have named := events.symm ▸ tidy.polling.named
  exact ⟨rfl, rfl, rfl, ⟨{ tidy.mild with slots := mild }, { tidy.polling with named := named }⟩,
    machine.later_kept _ rfl rfl⟩

theorem aside_slots (slots : NameMap Value) (mild : slots.All Value.Mild) :
    machine.Aside { machine with handles := { machine.handles with slots := slots } } :=
  ⟨rfl, rfl, rfl, machine.tidy_slots tidy slots mild, machine.later_kept _ rfl rfl⟩

theorem aside_classes (classes : ClassTable) (mild : classes.Mild) : machine.Aside { machine with classes := classes } :=
  ⟨rfl, rfl, rfl, machine.tidy_classes tidy classes mild, machine.later_kept _ rfl rfl⟩

theorem aside_host (actions : List Action) (mild : Action.allMild actions = true) :
    machine.Aside { machine with microtasks := machine.microtasks ++ [.host actions] } := by
  have queued : Machine.queued { machine with microtasks := machine.microtasks ++ [.host actions] } = machine.queued := by
    simp [Machine.queued, Microtask.settler?]
  have tidyAfter := machine.tidy_queued tidy (.host actions) fun other same => Microtask.host.inj same ▸ mild
  exact ⟨rfl, queued, rfl, tidyAfter, machine.later_kept _ rfl rfl⟩

theorem aside_events (events : List (EventId × Option Microevent))
    (mild : ∀ entry ∈ events, ∀ event, entry.2 = some event → event.Mild)
    (polling : Polling { machine with events := events }) : machine.Aside { machine with events := events } :=
  ⟨rfl, rfl, rfl, ⟨{ tidy.mild with events := mild }, polling⟩, machine.later_kept _ rfl rfl⟩

end Machine

namespace Exec
variable {α : Type}

theorem told_quiet (change : Machine → Machine)
    (quiet : ∀ machine, ∃ clock ready halted depth asyncFrames output nextIdentity, change machine = { machine with
      clock := clock, ready := ready, halted := halted, depth := depth, asyncFrames := asyncFrames, output := output
      nextIdentity := nextIdentity }) : (modify change).Told fun _ => True := by
  refine told_modify change fun machine tidy => ?_
  obtain ⟨clock, ready, halted, depth, asyncFrames, output, nextIdentity, same⟩ := quiet machine
  rw [same]
  exact machine.aside_quiet tidy _ _ _ _ _ _ _

theorem told_write_line (content : String) : (writeLine content).Told fun _ => True :=
  told_quiet _ fun _ => ⟨_, _, _, _, _, _, _, rfl⟩

theorem told_halt : halt.Told fun _ => True := told_quiet _ fun _ => ⟨_, _, _, _, _, _, _, rfl⟩

theorem told_clear_halt : clearHalt.Told fun _ => True := told_quiet _ fun _ => ⟨_, _, _, _, _, _, _, rfl⟩

theorem told_enqueue_line (line : Line) : (enqueueLine line).Told fun _ => True :=
  told_quiet _ fun _ => ⟨_, _, _, _, _, _, _, rfl⟩

theorem told_next_identity : nextIdentity.Told fun _ => True :=
  told_aside (fun machine _ _ tidy done => by
      cases done
      exact ⟨machine.aside_quiet tidy _ _ _ _ _ _ _, trivial⟩)
    fun _ _ _ _ failed => by cases failed

section Values

theorem told_class_value (build : ClassTable → Value) (mild : ∀ table : ClassTable, table.Mild → (build table).Mild) :
    (read fun machine => build machine.classes).Told Value.Mild :=
  told_read _ fun machine tidy => mild machine.classes tidy.mild.classes

theorem told_void : void.Told Value.Mild := told_class_value _ fun table mild => table.mild_scalar mild .void

theorem told_number (x : Float) : (number x).Told Value.Mild :=
  told_class_value (·.number x) fun table mild => table.mild_scalar mild (.number x)

theorem told_text (content : String) : (text content).Told Value.Mild :=
  told_class_value (·.text content) fun table mild => table.mild_scalar mild (.text content)

theorem told_flag (truth : Bool) : (flag truth).Told Value.Mild :=
  told_class_value (·.flag truth) fun table mild => table.mild_scalar mild (.flag truth)

theorem told_promise (task : TaskId) : (promise task).Told Value.Mild :=
  told_class_value (·.promise task) fun table mild => table.mild_promise mild task

theorem told_array (items : List Value) (mild : ∀ item ∈ items, item.Mild) : (array items).Told Value.Mild :=
  told_bind _ told_next_identity fun identity _ =>
    told_class_value (·.array identity items) fun table tableMild => table.mild_array tableMild identity items mild

theorem told_function (content : Function Value) (native : ∀ code, content.body = .native code → code.Mild) :
    (function content).Told Value.Mild :=
  told_bind _ told_next_identity fun identity _ =>
    told_class_value (·.function identity content) fun table mild => table.mild_function mild identity content native

end Values

section Frames

theorem told_ask {good : α → Prop} (ask : Arena → Except Cause α)
    (goodAnswer : ∀ arena answer, arena.Mild → ask arena = .ok answer → good answer)
    (once : ∀ arena cause, ask arena = .error cause → cause.isTwice = false) : (askFrames ask).Told good := by
  refine told_aside (fun machine after answer tidy done => ?_) fun machine after failure tidy failed => ?_
  · unfold askFrames at done
    split at done <;> cases done
    exact ⟨machine.aside_refl tidy, goodAnswer _ answer tidy.mild.frames ‹_›⟩
  · unfold askFrames at failed
    split at failed <;> cases failed
    exact ⟨machine.aside_refl tidy, Failure.once_of _ (once _ _ ‹_›)⟩

theorem told_change {good : α → Prop} (change : Arena → Except Cause (α × Arena))
    (mild : ∀ arena answer after, arena.Mild → change arena = .ok (answer, after) → after.Mild ∧ good answer)
    (once : ∀ arena cause, change arena = .error cause → cause.isTwice = false) : (changeFrames change).Told good := by
  refine told_aside (fun machine after answer tidy done => ?_) fun machine after failure tidy failed => ?_
  · unfold changeFrames at done
    split at done <;> cases done
    obtain ⟨framesMild, goodAnswer⟩ := mild _ _ _ tidy.mild.frames ‹_›
    exact ⟨machine.aside_frames tidy _ framesMild, goodAnswer⟩
  · unfold changeFrames at failed
    split at failed <;> cases failed
    exact ⟨machine.aside_refl tidy, Failure.once_of _ (once _ _ ‹_›)⟩

theorem told_update (change : Arena → Except Cause Arena)
    (mild : ∀ arena after, arena.Mild → change arena = .ok after → after.Mild)
    (once : ∀ arena cause, change arena = .error cause → cause.isTwice = false) :
    (updateFrames change).Told fun _ => True := by
  refine told_aside (fun machine after _ tidy done => ?_) fun machine after failure tidy failed => ?_
  · unfold updateFrames at done
    split at done <;> cases done
    exact ⟨machine.aside_frames tidy _ (mild _ _ tidy.mild.frames ‹_›), trivial⟩
  · unfold updateFrames at failed
    split at failed <;> cases failed
    exact ⟨machine.aside_refl tidy, Failure.once_of _ (once _ _ ‹_›)⟩

variable (frame : FrameId) (name : String) (value : Value)

theorem told_look_up : (lookUp frame name).Told Value.Mild := by
  refine told_ask _ (fun arena answer mild => arena.mild_look_up mild frame name answer) fun arena cause fault => ?_
  rcases arena.look_up_fault frame name cause fault with rfl | ⟨_, rfl⟩ <;> rfl

theorem told_set_variable (mild : value.Mild) : (setVariable frame name value).Told fun _ => True :=
  told_update _ (fun arena after arenaMild => arena.mild_set_variable after arenaMild frame name value mild)
    fun arena cause fault => arena.update_fault frame _ cause fault ▸ rfl

theorem told_assign (mild : value.Mild) : (assign frame name value).Told fun _ => True := by
  refine told_update _ (fun arena after arenaMild => arena.mild_assign after arenaMild frame name value mild)
    fun arena cause fault => ?_
  obtain ⟨_, rfl⟩ := arena.assign_fault frame name value cause fault
  rfl

theorem told_set_return (mild : value.Mild) : (setReturn frame value).Told fun _ => True := by
  refine told_update _ (fun arena after arenaMild => arena.mild_set_return after arenaMild frame value mild)
    fun arena cause fault => ?_
  rcases arena.set_return_fault frame value cause fault with rfl | ⟨_, rfl⟩ <;> rfl

theorem told_take_return : (takeReturn frame).Told fun result => ∀ value, result = some value → value.Mild := by
  refine told_change _ (fun arena answer after mild => arena.mild_take_return after mild frame answer)
    fun arena cause fault => ?_
  unfold Arena.takeReturn at fault
  split at fault
  next => cases fault
  next =>
    cases fault
    rfl

theorem told_retain : (retainFrame frame).Told fun _ => True :=
  told_update _ (fun arena after mild => arena.mild_retain after mild frame)
    fun arena cause fault => arena.update_fault frame _ cause fault ▸ rfl

theorem told_push (isFunction : Bool) (bindings : Bindings) (mild : bindings.All Value.Mild) :
    (pushFrame frame isFunction bindings).Told fun _ => True :=
  told_change _ (fun arena id after arenaMild pushed =>
      ⟨arena.mild_push after arenaMild frame id isFunction bindings mild pushed, trivial⟩)
    fun arena cause fault => arena.push_fault frame isFunction bindings cause fault ▸ rfl

theorem told_function_frame : (askFrames (·.functionFrame frame)).Told fun _ => True := by
  refine told_ask _ (fun _ _ _ _ => trivial) fun arena cause fault => ?_
  obtain ⟨_, rfl⟩ := arena.function_frame_fault frame cause fault
  rfl

theorem release_fault (arena : Arena) (fuel : Nat) (cause : Cause)
    (fault : (arena.releaseChain fuel frame).2 = some cause) : cause.isTwice = false := by
  induction fuel generalizing arena frame with
  | zero => cases fault
  | succ fuel ih =>
    unfold Arena.releaseChain at fault
    split at fault
    next =>
      cases fault
      rfl
    next =>
      split at fault
      · cases fault
      · split at fault
        · exact ih _ _ fault
        · cases fault

theorem clean_release : (releaseFrame frame).Clean := by
  intro machine tidy
  have mild := machine.frames.mild_release_chain tidy.mild.frames machine.frames.reach frame
  have once := release_fault frame machine.frames machine.frames.reach
  unfold releaseFrame Arena.release
  generalize machine.frames.releaseChain machine.frames.reach frame = released at mild once
  obtain ⟨frames, fault⟩ := released
  have aside := machine.aside_frames tidy frames mild
  cases fault with
  | none => exact aside
  | some cause => exact ⟨aside, Failure.once_of cause (once cause rfl)⟩

theorem told_release : (releaseFrame frame).Told fun _ => True := told_clean (clean_release frame) fun _ _ _ _ _ => trivial

theorem told_is_unwinding : (isUnwinding frame).Told fun _ => True := by
  refine told_bind _ (told_seen _) fun halted _ => ?_
  split
  · exact told_pure _ trivial
  · refine told_bind _ (told_function_frame frame) fun found _ => ?_
    split
    · exact told_seen _
    · exact told_pure _ trivial

end Frames

section Runners
variable (id : RunnerId)

theorem told_update_runner (change : Runner → Runner)
    (mild : ∀ runner : Runner, (∀ value, runner.last = some value → value.Mild) →
      ∀ value, (change runner).last = some value → value.Mild) :
    (modify (·.updateRunner id change)).Told fun _ => True :=
  told_modify _ fun machine tidy => machine.aside_updated tidy id change mild

theorem told_record (value : Option Value) (mild : ∀ content, value = some content → content.Mild) :
    (record id value).Told fun _ => True := by
  cases value with
  | none => exact told_pure () trivial
  | some value =>
    exact told_update_runner id _ fun _ _ other same => Option.some.inj same ▸ mild value rfl

theorem told_runner : (read (·.runner? id)).Told fun known =>
    ∀ runner, known = some runner → ∀ value, runner.last = some value → value.Mild := by
  refine told_read _ fun machine tidy runner known => ?_
  exact tidy.mild.runners (id, runner) (List.mem_of_find?_eq_some (machine.runner_found id runner known))

theorem told_advance : (advance id).Told fun _ => True := by
  refine told_bind _ (told_seen _) fun returned _ => ?_
  refine told_bind _ (told_seen _) fun known _ => ?_
  cases known with
  | none => exact told_pure () trivial
  | some runner =>
    simp only
    split
    next => exact told_update_runner id _ fun _ kept => kept
    next node rest _ =>
      exact told_bind _ (told_update_runner id _ fun _ kept => kept) fun _ _ => told_enqueue_line _

theorem told_create_runner (lines : List Node) (frame : FrameId) : (createRunner lines frame).Told fun _ => True := by
  refine told_bind _ (told_retain frame) fun _ _ => ?_
  refine told_bind _ (told_function_frame frame) fun functionFrame _ => ?_
  refine told_aside (fun machine after id tidy done => ?_) fun _ _ _ _ failed => by cases failed
  cases done
  refine ⟨⟨rfl, rfl, rfl, ⟨{ tidy.mild with runners := fun entry member value last => ?_ }, { tidy.polling with }⟩,
    machine.later_kept _ rfl rfl⟩, trivial⟩
  rcases List.mem_append.mp member with known | new
  · exact tidy.mild.runners entry known value last
  · rw [List.mem_singleton.mp new] at last
    cases last

theorem finish_runner_clean : (finishRunner id).Clean := by
  refine clean_bind _ (clean_read _) fun known => ?_
  cases known with
  | none => exact clean_read fun _ => none
  | some runner =>
    refine clean_bind _ (clean_modify _ fun machine tidy => machine.aside_runners tidy _ fun entry member =>
      tidy.mild.runners entry (Machine.swap_erase_subset id _ member)) fun _ => ?_
    exact clean_bind _ (clean_release runner.frame) fun _ => clean_read fun _ => _

theorem told_finish_runner : (finishRunner id).Told fun last => ∀ value, last = some value → value.Mild := by
  refine told_bind _ (told_runner id) fun known mild => ?_
  cases known with
  | none => exact told_pure none fun _ none => by cases none
  | some runner =>
    refine told_bind _ (told_modify _ fun machine tidy => machine.aside_runners tidy _ fun entry member =>
      tidy.mild.runners entry (Machine.swap_erase_subset id _ member)) fun _ _ => ?_
    exact told_bind _ (told_release runner.frame) fun _ _ => told_pure runner.last (mild runner rfl)

theorem told_load (lines : List Node) (frame : FrameId) : (loadProgram lines frame).Told fun _ => True :=
  told_bind _ (told_create_runner lines frame) fun id _ =>
    told_bind _ (told_advance id) fun _ _ => told_pure id trivial

end Runners

end Exec

end CoopScript
