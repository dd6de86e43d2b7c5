import CoopScript.Proofs.Work.Language

set_option autoImplicit false
namespace CoopScript

namespace Exec
variable {α : Type} {good : α → Prop}

theorem told_known (what name : String) (answer : Option α) (fine : ∀ found, answer = some found → good found) :
    (known what name answer).Told good := by
  cases answer with
  | some found => exact told_pure found (fine found rfl)
  | none => exact told_fail _ rfl

theorem told_frame_named (name : String) : (frameNamed name).Told fun _ => True := by
  refine told_bind _ (told_seen _) fun known _ => ?_
  cases known with
  | some frame => exact told_pure frame trivial
  | none =>
    simp only
    split
    · exact told_pure _ trivial
    · exact told_known "frame" name none fun _ _ => trivial

theorem told_task_labelled (label : Label) : (taskLabelled label).Told fun _ => True := by
  cases label with
  | numbered number => exact told_pure _ trivial
  | named name => exact told_bind _ (told_seen _) fun known _ => told_known "task" name known fun _ _ => trivial

theorem told_class_named (name : String) : (classNamed name).Told fun _ => True :=
  told_bind _ (told_seen _) fun known _ => told_known "class" name known fun _ _ => trivial

theorem told_class_labelled (label : Label) : (classLabelled label).Told fun _ => True := by
  cases label with
  | numbered number => exact told_pure _ trivial
  | named name => exact told_class_named name

theorem told_runner_named (name : String) : (runnerNamed name).Told fun _ => True :=
  told_bind _ (told_seen _) fun known _ => told_known "runner" name known fun _ _ => trivial

theorem told_slot_named (name : String) : (slotNamed name).Told Value.Mild := by
  have found : (read (·.handles.slots.find? name)).Told GivenMild := told_read _ fun machine tidy value known =>
    NameMap.all_found Value.Mild machine.handles.slots tidy.mild.slots name value known
  exact told_bind _ found fun known mild => told_known "slot" name known mild

theorem told_name_frame (name : String) (frame : FrameId) : (nameFrame name frame).Told fun _ => True :=
  told_modify _ fun machine tidy => machine.aside_handles tidy _ rfl rfl

theorem told_name_task (name : String) (task : TaskId) : (nameTask name task).Told fun _ => True :=
  told_modify _ fun machine tidy => machine.aside_handles tidy _ rfl rfl

theorem told_name_runner (name : String) (runner : RunnerId) : (nameRunner name runner).Told fun _ => True :=
  told_modify _ fun machine tidy => machine.aside_handles tidy _ rfl rfl

theorem told_store (name : String) (value : Value) (mild : value.Mild) : (store name value).Told fun _ => True :=
  told_modify _ fun machine tidy => machine.aside_slots tidy _
    (NameMap.all_insert Value.Mild machine.handles.slots tidy.mild.slots name value mild)

end Exec

section Operands

theorem Exec.told_instance (id : ClassId) (data : Data Value) (mild : data.Mild) :
    (Exec.read (·.classes.instantiate id data)).Told Value.Mild :=
  told_read _ fun machine tidy => machine.classes.mild_instance tidy.mild.classes id data mild

mutual

theorem Operand.told_build (operand : Operand) (mild : operand.mild = true) : operand.build.Told Value.Mild := by
  cases operand with
  | void => exact Exec.told_void
  | flag value => exact Exec.told_flag value
  | number value => exact Exec.told_number value
  | text value => exact Exec.told_text value
  | array items =>
    exact Exec.told_bind _ (Operand.told_build_all items mild) fun values valuesMild => Exec.told_array values valuesMild
  | binding frame name => exact Exec.told_bind _ (Exec.told_frame_named frame) fun frame _ => Exec.told_look_up frame name
  | slot name => exact Exec.told_slot_named name
  | promise task => exact Exec.told_bind _ (Exec.told_task_labelled task) fun task _ => Exec.told_promise task
  | plain className =>
    refine Exec.told_bind _ (Exec.told_class_named className) fun id _ => ?_
    exact Exec.told_instance id .none ⟨fun _ _ same => (by cases same), fun _ _ _ same => by cases same⟩
  | carrying className data =>
    refine Exec.told_bind _ (Operand.told_build data mild) fun value valueMild => ?_
    refine Exec.told_bind _ (Exec.told_class_named className) fun id _ => ?_
    exact Exec.told_instance id value.data (value.mild_data valueMild)
  | native name parameters recipe =>
    refine Exec.told_bind _ (Recipe.told_build recipe mild) fun code codeMild => ?_
    refine Exec.told_function _ fun native same => ?_
    cases same
    exact fun other same => Native.behaviour.inj same ▸ codeMild

theorem Operand.told_build_all (items : List Operand) (mild : Operand.allMild items = true) :
    (Operand.buildAll items).Told fun values => ∀ value ∈ values, value.Mild := by
  cases items with
  | nil => exact Exec.told_pure [] fun _ member => by cases member
  | cons item rest =>
    simp only [Operand.allMild, Bool.and_eq_true] at mild
    refine Exec.told_bind _ (Operand.told_build item mild.1) fun value valueMild => ?_
    refine Exec.told_bind _ (Operand.told_build_all rest mild.2) fun values valuesMild => ?_
    exact Exec.told_pure _ (List.forall_mem_cons.mpr ⟨valueMild, valuesMild⟩)

theorem Recipe.told_build (recipe : Recipe) (mild : recipe.mild = true) : recipe.build.Told Behaviour.Mild := by
  cases recipe with
  | const value =>
    refine Exec.told_bind _ (Operand.told_build value mild) fun value valueMild => Exec.told_pure _ ⟨?_, ?_⟩
    · exact fun other same => Behaviour.const.inj same ▸ valueMild
    · exact fun _ same => by cases same
  | perform actions =>
    refine Exec.told_pure _ ⟨fun _ same => (by cases same), fun other same => ?_⟩
    cases same
    exact mild
  | _ => exact Exec.told_pure _ ⟨fun _ same => (by cases same), fun _ same => by cases same⟩

end

theorem Operand.named_mild_iff (entries : List (String × Operand)) :
    Operand.namedMild entries = true ↔ ∀ entry ∈ entries, entry.2.mild = true := by
  induction entries with
  | nil => simp [namedMild]
  | cons entry rest ih => simp [namedMild, ih]

theorem Recipe.named_mild_iff (entries : List (String × Recipe)) :
    Recipe.namedMild entries = true ↔ ∀ entry ∈ entries, entry.2.mild = true := by
  induction entries with
  | nil => simp [namedMild]
  | cons entry rest ih => simp [namedMild, ih]

theorem Operand.told_build_named (entries : List (String × Operand)) (mild : Operand.namedMild entries = true) :
    (Operand.buildNamed entries).Told fun values => ∀ entry ∈ values, entry.2.Mild :=
  Exec.told_collect _ entries fun entry member =>
    Exec.told_bind _ (entry.2.told_build ((Operand.named_mild_iff entries).mp mild entry member)) fun _ valueMild =>
      Exec.told_pure _ valueMild

-- A function that is called without a target is its own.
theorem Operand.told_given {β : Type} {fine : β → Prop} (given : Option Operand) (function : Value)
    (mild : Operand.givenMild given = true) (functionMild : function.Mild) (next : Value → Exec β)
    (later : ∀ target : Value, target.Mild → (next target).Told fine) : Exec.Told (match given with
      | some target => do
        let target ← target.build
        next target
      | none => do
        let target ← pure function
        next target) fine := by
  cases given with
  | some target => exact Exec.told_bind _ (target.told_build mild) later
  | none => exact later function functionMild

end Operands

namespace Engine

theorem told_define (draft : ClassDraft) (members : draft.members.All Value.Mild)
    (hidden : draft.hidden.All Member.Mild) : (defineClass draft).Told fun _ => True := by
  refine Exec.told_aside (fun machine after _ tidy done => ?_) fun machine after failure tidy failed => ?_
  · unfold defineClass at done
    split at done <;> cases done
    exact ⟨machine.aside_classes tidy _ (machine.classes.mild_define tidy.mild.classes draft members hidden _ _ ‹_›), trivial⟩
  · unfold defineClass at failed
    split at failed <;> cases failed
    rename_i cause defined
    refine ⟨machine.aside_refl tidy, Failure.once_of cause ?_⟩
    unfold ClassTable.define at defined
    split at defined
    next =>
      cases defined
      rfl
    next =>
      split at defined
      next =>
        cases defined
        rfl
      next => cases defined

variable (engine : Engine) (action : Action) (mild : action.mild = true)

section Scripts
variable (told : engine.Told)
include told

theorem told_arguments_of (text : String) : (engine.argumentsOf text).Told fun _ => True := by
  refine Exec.told_bind _ (told.parse _) fun lines _ => ?_
  split
  · exact Exec.told_pure _ trivial
  · exact Exec.told_fail _ rfl

theorem told_perform_runner : (engine.performRunner action).Told fun _ => True := by
  have named : ∀ (name : String) (opens : FrameId → Exec RunnerId) (frame : String),
      (∀ id, (opens id).Told fun _ => True) → Exec.Told (do
        Exec.nameRunner name (← opens (← Exec.frameNamed frame))
        return .nothing : Exec Answer) fun _ => True := fun name opens frame opensTold =>
    Exec.told_bind _ (Exec.told_frame_named frame) fun id _ => Exec.told_bind _ (opensTold id) fun runner _ =>
      Exec.told_bind _ (Exec.told_name_runner name runner) fun _ _ => Exec.told_pure _ trivial
  cases action with
  | load name source frame =>
    exact Exec.told_bind _ (told.parse source) fun lines _ => named name _ frame fun id => Exec.told_load lines id
  | loadNodes name nodes frame => exact named name _ frame fun id => Exec.told_load nodes id
  | createRunner name source frame =>
    exact Exec.told_bind _ (told.parse source) fun lines _ => named name _ frame fun id => Exec.told_create_runner lines id
  | isFinished name =>
    exact Exec.told_bind _ (Exec.told_runner_named name) fun _ _ => Exec.told_bind _ (Exec.told_seen _) fun _ _ =>
      Exec.told_pure _ trivial
  | finish name =>
    exact Exec.told_bind _ (Exec.told_runner_named name) fun id _ => Exec.told_bind _ (Exec.told_finish_runner id) fun _ _ =>
      Exec.told_pure _ trivial
  | enqueue source index name frame =>
    refine Exec.told_bind _ (told.parse source) fun lines _ => ?_
    split
    · exact Exec.told_pure _ trivial
    · refine Exec.told_bind _ (Exec.told_runner_named name) fun _ _ => ?_
      refine Exec.told_bind _ (Exec.told_frame_named frame) fun _ _ => ?_
      exact Exec.told_bind _ (Exec.told_enqueue_line _) fun _ _ => Exec.told_pure _ trivial
  | execute source index frame =>
    refine Exec.told_bind _ (told.parse source) fun lines _ => ?_
    split
    · exact Exec.told_pure _ trivial
    · refine Exec.told_bind _ (Exec.told_frame_named frame) fun _ _ => ?_
      exact Exec.told_bind _ (engine.told_execute_line told _ _) fun _ _ => Exec.told_pure _ trivial
  | runBlock source frame =>
    refine Exec.told_bind _ (told.parse source) fun lines _ => ?_
    refine Exec.told_bind _ (Exec.told_frame_named frame) fun _ _ => ?_
    exact Exec.told_bind _ (engine.told_run_block told _ _) fun _ _ => Exec.told_pure _ trivial
  | _ => exact Exec.told_pure _ trivial

include mild

theorem told_perform_scheduler : (engine.performScheduler action).Told fun _ => True := by
  have quietly : ∀ step : Exec Unit, (step.Told fun _ => True) →
      Exec.Told (do step; return .nothing : Exec Answer) fun _ => True := fun step stepTold =>
    Exec.told_bind _ stepTold fun _ _ => Exec.told_pure _ trivial
  cases action with
  | mark text => exact quietly _ (Exec.told_write_line text)
  | fail kind message => exact Exec.told_fail (.raised kind message) rfl
  | halt => exact quietly _ Exec.told_halt
  | clearHalt => exact quietly _ Exec.told_clear_halt
  | tick => exact Exec.told_bind _ (engine.told_tick told) fun _ _ => Exec.told_pure _ trivial
  | run => exact quietly _ (engine.told_run told)
  | reset => exact Exec.told_empty
  | isUnwinding frame =>
    exact Exec.told_bind _ (Exec.told_frame_named frame) fun id _ => Exec.told_bind _ (Exec.told_is_unwinding id) fun _ _ =>
      Exec.told_pure _ trivial
  | enqueueMicrotask actions =>
    simp only [Action.mild] at mild
    exact quietly _ (Exec.told_modify _ fun machine tidy => machine.aside_host tidy actions mild)
  | registerEvent name turns =>
    simp only [Action.mild] at mild
    exact quietly _ (Exec.told_register name turns mild)
  | removeEvent name =>
    intro moment fine
    refine Exec.tells_look moment fine _ _ ?_
    cases found : moment.machine.handles.events.find? name with
    | none => exact Exec.told_pure _ trivial moment fine
    | some id =>
      have named := NameMap.all_found _ moment.machine.handles.events fine.tidy.polling.named name id found
      exact Exec.tells_bind moment _ _ fine (Exec.remove_event_tells id moment fine named.2)
        fun _ _ _ _ _ afterFine _ => Exec.told_pure _ trivial _ afterFine
  | _ => exact Exec.told_pure _ trivial

theorem told_perform_task : (engine.performTask action).Told fun _ => True := by
  cases action with
  | spawn name outcome milliseconds =>
    refine Exec.told_bind _ (Exec.told_spawn_blocking outcome milliseconds) fun promise promiseMild => ?_
    refine Exec.told_bind _ (Exec.told_store name promise promiseMild) fun _ _ => ?_
    cases promise.task? with
    | some task => exact Exec.told_bind _ (Exec.told_name_task name task) fun _ _ => Exec.told_pure _ trivial
    | none => exact Exec.told_pure _ trivial
  | await label =>
    exact Exec.told_bind _ (Exec.told_task_labelled label) fun task _ =>
      Exec.told_bind _ (engine.told_await told task) fun _ _ => Exec.told_pure _ trivial
  | createTask name =>
    exact Exec.told_bind _ Exec.told_create fun task _ => Exec.told_bind _ (Exec.told_name_task name task) fun _ _ =>
      Exec.told_pure _ trivial
  | settleTask => cases mild
  | consumeTask label =>
    exact Exec.told_bind _ (Exec.told_task_labelled label) fun task _ =>
      Exec.told_bind _ (Exec.told_consume task) fun _ _ => Exec.told_pure _ trivial
  | taskState label => exact Exec.told_bind _ (Exec.told_task_labelled label) fun task _ => Exec.told_seen _
  | _ => exact Exec.told_pure _ trivial

theorem told_perform_value : (engine.performValue action).Told fun _ => True := by
  have changed : ∀ (slot : String) (change : Value → Value), (∀ value : Value, value.Mild → (change value).Mild) →
      Exec.Told (do Exec.store slot (change (← Exec.slotNamed slot)); return .nothing : Exec Answer) fun _ => True :=
    fun slot change kept => Exec.told_bind _ (Exec.told_slot_named slot) fun value valueMild =>
      Exec.told_bind _ (Exec.told_store slot _ (kept value valueMild)) fun _ _ => Exec.told_pure _ trivial
  cases action with
  | store name value =>
    refine Exec.told_bind _ (value.told_build mild) fun value valueMild => ?_
    exact Exec.told_bind _ (Exec.told_store name value valueMild) fun _ _ => Exec.told_pure _ trivial
  | setMember slot name value =>
    exact Exec.told_bind _ (value.told_build mild) fun member memberMild =>
      changed slot (·.setMember name member) fun value valueMild => value.mild_set_member valueMild name member memberMild
  | setHidden slot name value =>
    exact Exec.told_bind _ (value.told_build mild) fun member _ =>
      changed slot (·.setHidden name (.value member)) fun value valueMild => value.mild_set_hidden valueMild name member
  | memberOf value name | membersOf value | isVoid value =>
    exact Exec.told_bind _ (value.told_build mild) fun _ _ => Exec.told_pure _ trivial
  | isFunction value =>
    exact Exec.told_bind _ (value.told_build mild) fun _ _ => Exec.told_bind _ (Exec.told_seen _) fun _ _ =>
      Exec.told_pure _ trivial
  | textOf value frame =>
    refine Exec.told_bind _ (value.told_build mild) fun value valueMild => ?_
    refine Exec.told_bind _ (Exec.told_frame_named frame) fun id _ => ?_
    exact Exec.told_bind _ (engine.told_stringify told value id valueMild) fun _ _ => Exec.told_pure _ trivial
  | truthOf value frame =>
    refine Exec.told_bind _ (value.told_build mild) fun value valueMild => ?_
    refine Exec.told_bind _ (Exec.told_frame_named frame) fun id _ => ?_
    exact Exec.told_bind _ (engine.told_truthy told value id valueMild) fun _ _ => Exec.told_pure _ trivial
  | areEqual left right =>
    simp only [Action.mild, Bool.and_eq_true] at mild
    exact Exec.told_bind _ (left.told_build mild.1) fun _ _ => Exec.told_bind _ (right.told_build mild.2) fun _ _ =>
      Exec.told_pure _ trivial
  | operate op left right =>
    simp only [Action.mild, Bool.and_eq_true] at mild
    refine Exec.told_bind _ (left.told_build mild.1) fun left leftMild => ?_
    refine Exec.told_bind _ (right.told_build mild.2) fun right rightMild => ?_
    cases op with
    | some op =>
      exact Exec.told_bind _ (Exec.told_operate op left right leftMild rightMild) fun _ _ => Exec.told_pure _ trivial
    | none => exact Exec.told_pure _ trivial
  | _ => exact Exec.told_pure _ trivial

theorem told_perform_call : (engine.performCall action).Told fun _ => True := by
  cases action with
  | bindArguments function parameters text frame =>
    refine Exec.told_bind _ (engine.told_arguments_of told text) fun arguments _ => ?_
    refine Exec.told_bind _ (Exec.told_frame_named frame) fun id _ => ?_
    exact Exec.told_bind _ (engine.told_bind_arguments told function parameters arguments id) fun _ _ =>
      Exec.told_pure _ trivial
  | call function target text frame =>
    simp only [Action.mild, Bool.and_eq_true] at mild
    refine Exec.told_bind _ (function.told_build mild.1) fun function functionMild => ?_
    refine Operand.told_given target function mild.2 functionMild _ fun target targetMild => ?_
    refine Exec.told_bind _ (engine.told_arguments_of told text) fun arguments _ => ?_
    refine Exec.told_bind _ (Exec.told_frame_named frame) fun id _ => ?_
    exact Exec.told_bind _ (engine.told_call told target function arguments id targetMild functionMild) fun _ _ =>
      Exec.told_pure _ trivial
  | invoke function target bindings frame =>
    simp only [Action.mild, Bool.and_eq_true] at mild
    refine Exec.told_bind _ (function.told_build mild.1.1) fun function functionMild => ?_
    refine Operand.told_given target function mild.1.2 functionMild _ fun target targetMild => ?_
    refine Exec.told_bind _ (Operand.told_build_named bindings mild.2) fun bindings bindingsMild => ?_
    refine Exec.told_bind _ (Exec.told_frame_named frame) fun id _ => ?_
    exact Exec.told_bind _ (engine.told_invoke told target function _ id targetMild functionMild
      (NameMap.all_listed Value.Mild bindings bindingsMild)) fun _ _ => Exec.told_pure _ trivial
  | _ => exact Exec.told_pure _ trivial

end Scripts

section Frames

theorem told_frame_asked {α : Type} (frame : String) (view : FrameId → Exec α) (answer : α → Answer)
    (told : ∀ id, (view id).Told fun _ => True) :
    Exec.Told (do return answer (← view (← Exec.frameNamed frame)) : Exec Answer) fun _ => True :=
  Exec.told_bind _ (Exec.told_frame_named frame) fun id _ => Exec.told_bind _ (told id) fun _ _ => Exec.told_pure _ trivial

theorem told_frame_found (id : FrameId) : (Exec.askFrames (·.frame id)).Told fun _ => True := by
  refine Exec.told_ask _ (fun _ _ _ _ => trivial) fun arena cause fault => ?_
  unfold Arena.frame at fault
  split at fault
  next => cases fault
  next =>
    cases fault
    rfl

include mild

omit engine in
theorem told_perform_frame : (performFrame action).Told fun _ => True := by
  have quietly : ∀ (frame : String) (step : FrameId → Exec Unit), (∀ id, (step id).Told fun _ => True) →
      Exec.Told (do step (← Exec.frameNamed frame); return .nothing : Exec Answer) fun _ => True :=
    fun frame step stepTold =>
    Exec.told_bind _ (Exec.told_frame_named frame) fun id _ => Exec.told_bind _ (stepTold id) fun _ _ =>
      Exec.told_pure _ trivial
  have opened : ∀ (name parent : String) (isFunction : Bool) (bindings : Bindings), bindings.All Value.Mild →
      Exec.Told (do
        let frame ← Exec.pushFrame (← Exec.frameNamed parent) isFunction bindings
        Exec.nameFrame name frame
        return .frame frame : Exec Answer) fun _ => True := fun name parent isFunction bindings bindingsMild =>
    Exec.told_bind _ (Exec.told_frame_named parent) fun id _ =>
      Exec.told_bind _ (Exec.told_push id isFunction bindings bindingsMild) fun frame _ =>
        Exec.told_bind _ (Exec.told_name_frame name frame) fun _ _ => Exec.told_pure _ trivial
  cases action with
  | pushFrame name parent isFunction => exact opened name parent isFunction .empty (NameMap.all_empty _)
  | pushFunctionFrame name parent bindings =>
    exact Exec.told_bind _ (Operand.told_build_named bindings mild) fun bindings bindingsMild =>
      opened name parent true _ (NameMap.all_listed Value.Mild bindings bindingsMild)
  | retainFrame frame => exact quietly frame _ Exec.told_retain
  | releaseFrame frame => exact quietly frame _ Exec.told_release
  | isLive frame => exact told_frame_asked frame _ .flag fun _ => Exec.told_seen _
  | parentOf frame =>
    exact Exec.told_bind _ (Exec.told_frame_named frame) fun id _ => Exec.told_bind _ (told_frame_found id) fun _ _ =>
      Exec.told_pure _ trivial
  | isFunctionFrame frame =>
    exact Exec.told_bind _ (Exec.told_frame_named frame) fun id _ => Exec.told_bind _ (told_frame_found id) fun _ _ =>
      Exec.told_pure _ trivial
  | functionFrameOf frame => exact told_frame_asked frame _ .frame? Exec.told_function_frame
  | lookUp frame name =>
    exact told_frame_asked frame _ .value fun id => Exec.told_weaken (Exec.told_look_up id name) fun _ _ => trivial
  | setVariable frame name value =>
    exact Exec.told_bind _ (value.told_build mild) fun value valueMild =>
      quietly frame _ fun id => Exec.told_set_variable id name value valueMild
  | assignVariable frame name value =>
    exact Exec.told_bind _ (value.told_build mild) fun value valueMild =>
      quietly frame _ fun id => Exec.told_assign id name value valueMild
  | bindingsOf frame =>
    exact Exec.told_bind _ (Exec.told_frame_named frame) fun id _ => Exec.told_bind _ (told_frame_found id) fun _ _ =>
      Exec.told_pure _ trivial
  | setReturn frame value =>
    exact Exec.told_bind _ (value.told_build mild) fun value valueMild =>
      quietly frame _ fun id => Exec.told_set_return id value valueMild
  | hasReturned frame => exact told_frame_asked frame _ .flag fun _ => Exec.told_seen _
  | takeReturn frame =>
    exact told_frame_asked frame _ .value? fun id => Exec.told_weaken (Exec.told_take_return id) fun _ _ => trivial
  | _ => exact Exec.told_pure _ trivial

theorem told_perform_class : (performClass action).Told fun _ => True := by
  cases action with
  | defineClass name kind ancestors members hidden hooks =>
    simp only [Action.mild, Bool.and_eq_true] at mild
    refine Exec.told_bind _ (Operand.told_build_named members mild.1.1) fun members membersMild => ?_
    refine Exec.told_bind _ (Operand.told_build_named hidden mild.1.2) fun hidden hiddenMild => ?_
    have built : (Exec.collect (fun entry : String × Recipe => do
        return (entry.1, Member.hook (.behaviour (← entry.2.build)))) hooks).Told
          fun entries : List (String × Member Value) => ∀ entry ∈ entries, entry.2.Mild := by
      refine Exec.told_collect _ hooks fun entry member => ?_
      have recipeMild := (Recipe.named_mild_iff hooks).mp mild.2 entry member
      refine Exec.told_bind _ (entry.2.told_build recipeMild) fun code codeMild => ?_
      exact Exec.told_pure _ fun other same => (by cases same; exact codeMild)
    refine Exec.told_bind _ built fun hooks hooksMild => ?_
    refine Exec.told_bind _ (Exec.told_collect _ ancestors fun label _ => Exec.told_class_labelled label)
      fun ancestors _ => ?_
    refine Exec.told_bind _ (told_define _ (NameMap.all_listed Value.Mild members membersMild)
      (NameMap.all_listed Member.Mild _ fun entry member => ?_)) fun _ _ => Exec.told_pure _ trivial
    rcases List.mem_append.mp member with values | hooked
    · obtain ⟨_, _, rfl⟩ := List.mem_map.mp values
      exact fun _ same => by cases same
    · exact hooksMild entry hooked
  | describeClass name => exact Exec.told_bind _ (Exec.told_seen _) fun _ _ => Exec.told_pure _ trivial
  | inheritsFrom name ancestor =>
    refine Exec.told_bind _ (Exec.told_class_named name) fun _ _ => ?_
    refine Exec.told_bind _ (Exec.told_class_named ancestor) fun _ _ => ?_
    exact Exec.told_bind _ (Exec.told_seen _) fun _ _ => Exec.told_pure _ trivial
  | _ => exact Exec.told_pure _ trivial

end Frames

theorem told_perform (told : engine.Told) (mild : action.mild = true) :
    (engine.performAction action).Told fun _ => True := by
  have runner := engine.told_perform_runner action told
  have scheduler := engine.told_perform_scheduler action mild told
  have task := engine.told_perform_task action mild told
  have frame := told_perform_frame action mild
  have ofClass := told_perform_class action mild
  have value := engine.told_perform_value action mild told
  have call := engine.told_perform_call action mild told
  cases action <;> assumption

end Engine

theorem RuleSet.told_engine (fuel : Nat) : (standard.engine fuel).Told := by
  induction fuel with
  | zero => constructor <;> intros <;> first | exact ⟨0, rfl⟩ | exact Exec.told_exhausted
  | succ fuel ih =>
    exact {
      standard := ⟨fuel + 1, rfl⟩
      parse := fun source => told_load source none
      evaluate := fun node frame => told_evaluate (standard.engine fuel) ih node frame
      execute := fun node frame => told_execute (standard.engine fuel) ih node frame
      native := fun code invocation => (standard.engine fuel).told_run_native ih code invocation
      perform := fun action mild => (standard.engine fuel).told_perform action ih mild
      body := fun lines frame => (standard.engine fuel).told_run_body ih lines frame }

end CoopScript
