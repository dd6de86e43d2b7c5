import CoopScript.Machine.Builtin
import CoopScript.Proofs.Lens.Work

set_option autoImplicit false
namespace CoopScript

namespace Lens
variable (lens : Lens)

def invocation (invocation : Invocation) : Invocation :=
  ⟨lens.value invocation.target, lens.value invocation.function, lens.bindings invocation.arguments, invocation.frame⟩

def binding (binding : Binding) : Binding := { binding with bound := lens.bindings binding.bound }

end Lens

structure Invocation.Fits (bound : Option Bound) (invocation : Invocation) : Prop where
  target : invocation.target.Fits bound
  function : invocation.function.Fits bound
  arguments : invocation.arguments.Fits bound

-- A twin engine does what is seen of what the engine does, with no less fuel.
structure Engine.Through (lens : Lens) (engine twin : Engine) : Prop where
  fewer : engine.fuel ≤ twin.fuel
  same : lens.exact → engine.fuel = twin.fuel
  evaluate : ∀ node frame, (engine.evaluate node frame).Through lens (fun _ => True) (twin.evaluate (lens.node node) frame)
    lens.value Value.Fits
  execute : ∀ node frame, (engine.execute node frame).Through lens (fun _ => True) (twin.execute (lens.node node) frame)
    (Option.map lens.value) fun _ _ => True
  native : ∀ code invocation, (engine.native (.builtin code) invocation).Through lens (fun bound => invocation.Fits bound)
    (twin.native (.builtin code) (lens.invocation invocation)) lens.value Value.Fits
  body : ∀ lines frame, (engine.body lines frame).Through lens (fun _ => True) (twin.body (lens.lines lines) frame)
    (Option.map lens.value) GivenFits

namespace Binding
variable (lens : Lens) (binding : Binding)

@[simp] theorem bound_seen : (lens.binding binding).bound = lens.bindings binding.bound := rfl

@[simp] theorem position_seen : (lens.binding binding).position = binding.position := rfl

@[simp] theorem keyword_seen : (lens.binding binding).keywordSeen = binding.keywordSeen := rfl

theorem place_seen (function : String) (parameters : Parameters) (argument : Node) :
    (lens.binding binding).place function parameters (lens.node argument) =
      (binding.place function parameters argument).map fun placed => (placed.1, lens.node placed.2) := by
  unfold place
  rw [lens.assignment_node]
  cases argument.assignment? with
  | none =>
    rw [Option.map_none, keyword_seen, position_seen]
    cases binding.keywordSeen with
    | true => rfl
    | false =>
      cases parameters with
      | variadic => rfl
      | named names =>
        simp only [Bool.false_eq_true, if_false]
        cases names[binding.position]? <;> rfl
  | some found =>
    dsimp only [Option.map_some]
    rw [bound_seen, Lens.bindings, NameMap.contains_map]
    cases binding.bound.contains found.1 <;> cases parameters with
    | variadic => rfl
    | named names =>
      show (if !names.contains found.1 then _ else _) = Except.map _ (if !names.contains found.1 then _ else _)
      cases names.contains found.1 <;> rfl

theorem add_seen (argument : Node) (name : String) (value : Value) :
    (lens.binding binding).add (lens.node argument) name (lens.value value) = lens.binding (binding.add argument name value) := by
  unfold add
  rw [lens.assignment_node]
  cases argument.assignment? <;> simp [Lens.binding, Lens.bindings]

theorem fill_seen (void : Value) (parameters : Parameters) (bound : Bindings) :
    fill (lens.value void) parameters (lens.bindings bound) = lens.bindings (fill void parameters bound) := by
  cases parameters with
  | variadic => rfl
  | named names =>
    simp only [fill]
    induction names generalizing bound with
    | nil => rfl
    | cons name rest ih =>
      simp only [List.foldl_cons]
      rw [← ih, Lens.bindings, NameMap.contains_map, bound.insert_map lens.value name void]
      cases bound.contains name <;> rfl

theorem fits_added {few : Option Bound} (argument : Node) (name : String) (value : Value)
    (fits : binding.bound.Fits few) (fine : value.Fits few) : (binding.add argument name value).bound.Fits few := by
  unfold add
  split <;> exact NameMap.all_insert _ binding.bound fits name value fine

theorem fits_filled {few : Option Bound} (void : Value) (parameters : Parameters) (bound : Bindings)
    (fits : bound.Fits few) (fine : void.Fits few) : Bindings.Fits few (fill void parameters bound) := by
  cases parameters with
  | variadic => exact fits
  | named names =>
    simp only [fill]
    induction names generalizing bound with
    | nil => exact fits
    | cons name rest ih =>
      refine ih (if bound.contains name then bound else bound.insert name void) ?_
      split
      · exact fits
      · exact NameMap.all_insert _ bound fits name void fine

end Binding

namespace Engine
variable {lens : Lens} {given : Option Bound → Prop} {engine twin : Engine} (through : engine.Through lens twin)
include through

theorem evaluate_through (node : Node) (frame : FrameId) :
    (engine.evaluate node frame).Through lens given (twin.evaluate (lens.node node) frame) lens.value Value.Fits :=
  Exec.through_given (through.evaluate node frame) fun _ _ => trivial

section Blocks

theorem execute_line_through (node : Node) (frame : FrameId) :
    (engine.executeLine node frame).Through lens given (twin.executeLine (lens.node node) frame) (Option.map lens.value)
      fun _ _ => True :=
  Exec.through_map_failure _ _ (fun failure => lens.failure_traced failure node)
    (Exec.through_given (through.execute node frame) fun _ _ => trivial)

theorem step_through (key : RunnerId) (own : given lens.bound → lens.Own key) :
    (engine.step key).Through lens given (twin.step (lens.shift key)) (Exec.seeRound id id) fun _ _ => True := by
  refine Exec.through_bind Exec.through_is_halted fun halted => ?_
  refine Exec.through_bind (Exec.through_runner_returned key fun both => own both.1) fun returned => ?_
  dsimp only [id]
  split
  · exact Exec.through_pure _ _ rfl fun _ _ => trivial
  · refine Exec.through_bind (Exec.through_runner key fun both => own both.1.1) fun found => ?_
    cases found with
    | none => exact Exec.through_pure _ _ rfl fun _ _ => trivial
    | some runner =>
      simp only [Option.map_some, Lens.runner]
      cases runner.lines with
      | nil =>
        refine Exec.through_bind (Exec.through_update_runner key (fun both => own both.1.1.1) _ _ fun _ => rfl) fun _ => ?_
        · exact Exec.through_pure _ _ rfl fun _ _ => trivial
      | cons node rest =>
        refine Exec.through_bind (Exec.through_update_runner key (fun both => own both.1.1.1) _ _ fun _ => rfl) fun _ => ?_
        · refine Exec.through_bind (execute_line_through through node runner.frame) fun value => ?_
          refine Exec.through_bind (Exec.through_record key (fun both => own both.1.1.1.1.1) value) fun _ => ?_
          exact Exec.through_pure _ _ rfl fun _ _ => trivial

theorem drive_through (key : RunnerId) (own : given lens.bound → lens.Own key) :
    (engine.drive key).Through lens given (twin.drive (lens.shift key)) id fun _ _ => True :=
  Exec.through_given (Exec.through_iterate (fun _ => engine.step key) (fun _ => twin.step (lens.shift key)) id
    (fun _ _ => True) (fun _ => Exec.through_weaken (step_through through key fun both => own both.1)
      fun _ result _ _ => by cases result <;> trivial) engine.fuel twin.fuel through.fewer through.same ())
    fun _ plain => ⟨plain, trivial⟩

theorem run_block_through (lines : List Node) (frame : FrameId) :
    (engine.runBlock lines frame).Through lens given (twin.runBlock (lens.lines lines) frame) (Option.map lens.value)
      fun _ _ => True := by
  refine Exec.through_bind (Exec.through_create_runner lines frame) fun key => ?_
  refine Exec.through_bind (Exec.through_attempt (drive_through through key fun both => both.2)) fun outcome => ?_
  refine Exec.through_bind (Exec.through_finish_runner key fun both => both.1.2) fun last => ?_
  refine Exec.through_bind (Exec.through_of_outcome outcome fun _ _ _ _ => trivial) fun _ => ?_
  exact Exec.through_pure last _ rfl fun _ _ => trivial

theorem run_body_through (lines : List Node) (frame : FrameId) :
    (engine.runBody lines frame).Through lens given (twin.runBody (lens.lines lines) frame) (Option.map lens.value)
      GivenFits :=
  Exec.through_bind (run_block_through through lines frame) fun _ => Exec.through_take_return frame

theorem run_frame_through (name : String) (lines : List Node) (frame : FrameId) :
    (engine.runFrame name lines frame).Through lens given (twin.runFrame name (lens.lines lines) frame) lens.value
      Value.Fits := by
  refine Exec.through_bind (Exec.through_look (·.config.depthLimit) fun _ _ _ => rfl) fun deepest => ?_
  refine Exec.through_bind (Exec.through_look (·.depth) fun _ _ _ => rfl) fun depth => ?_
  refine Exec.through_guard _ _ _ _ _ (Exec.through_fail _) ?_
  refine Exec.through_bind (Exec.through_aside _ _ (fun _ _ _ => ⟨rfl, rfl⟩) fun _ => ⟨rfl, rfl, rfl, rfl, rfl, rfl, fun _ => rfl⟩) fun _ => ?_
  refine Exec.through_bind (Exec.through_attempt (Exec.through_given (through.body lines frame) fun _ _ => trivial))
    fun outcome => ?_
  refine Exec.through_bind (Exec.through_aside _ _ (fun _ _ _ => ⟨rfl, rfl⟩) fun _ => ⟨rfl, rfl, rfl, rfl, rfl, rfl, fun _ => rfl⟩) fun _ => ?_
  refine Exec.through_bind (Exec.through_of_outcome outcome fun bound both value same => both.1.2 value same) fun result => ?_
  cases result with
  | none => exact Exec.through_void
  | some value => exact Exec.through_pure value _ rfl fun bound both => both.2 value rfl

theorem invoke_script_through (name : String) (lines : List Node) (arguments : Bindings) (caller : FrameId)
    (fine : ∀ bound, given bound → arguments.Fits bound) :
    (engine.invokeScript name lines arguments caller).Through lens given
      (twin.invokeScript name (lens.lines lines) (lens.bindings arguments) caller) lens.value Value.Fits := by
  refine Exec.through_bind (Exec.through_push_frame caller true arguments fine) fun frame => ?_
  refine Exec.through_bind (Exec.through_attempt (run_frame_through through name lines frame)) fun outcome => ?_
  refine Exec.through_bind (Exec.through_release_frame frame) fun _ => ?_
  exact Exec.through_of_outcome outcome fun bound both value same => both.1.2 value same

end Blocks

section Calls

theorem call_function_through (invocation : Invocation) (fine : ∀ bound, given bound → invocation.Fits bound) :
    (engine.callFunction invocation).Through lens given (twin.callFunction (lens.invocation invocation)) lens.value
      Value.Fits := by
  unfold callFunction
  rw [show (lens.invocation invocation).function = lens.value invocation.function from rfl]
  rcases lens.function_value invocation.function with ⟨unknown, unseen⟩ | ⟨deaf, content, known, seen, heard⟩
  · rw [unknown, unseen]
    exact Exec.through_fail _
  · rw [known, seen]
    obtain ⟨name, parameters, body, isAsync⟩ := content
    have arguments := fun bound plain => (fine bound plain).arguments
    cases body with
    | native code =>
      cases code with
      | builtin code => exact Exec.through_given (through.native code invocation) fine
      | behaviour code =>
        -- Scripts never get hold of a function with such a body.
        refine Exec.through_never _ _ fun plain => ?_
        obtain ⟨builtin, same⟩ := invocation.function.plain_function (fine none plain).function _ known _ rfl
        cases same
    | script lines =>
      cases isAsync with
      | false => exact invoke_script_through through name lines invocation.arguments invocation.frame arguments
      | true =>
        refine Exec.through_spawn_async name lines invocation.arguments invocation.frame _ arguments fun all => ?_
        rw [heard all]
        rfl

theorem invoke_through (target function : Value) (arguments : Bindings) (frame : FrameId)
    (targetFine : ∀ bound, given bound → target.Fits bound) (fine : ∀ bound, given bound → function.Fits bound)
    (argumentsFine : ∀ bound, given bound → arguments.Fits bound) :
    (engine.invoke target function arguments frame).Through lens given
      (twin.invoke (lens.value target) (lens.value function) (lens.bindings arguments) frame) lens.value Value.Fits := by
  unfold invoke
  rw [lens.hidden_value]
  cases hidden : function.hidden? callHook with
  | none => exact Exec.through_bind (Exec.through_name_of function) fun className => Exec.through_fail _
  | some member =>
    cases member with
    | value content => exact Exec.through_bind (Exec.through_name_of function) fun className => Exec.through_fail _
    | hook hook =>
      cases hook with
      | standard =>
        exact call_function_through through ⟨target, function, arguments, frame⟩ fun bound plain =>
          ⟨targetFine bound plain, fine bound plain, argumentsFine bound plain⟩
      | behaviour code =>
        exact Exec.through_never _ _ fun plain => function.plain_hook (fine none plain) callHook code hidden

theorem bind_all_through (function : String) (parameters : Parameters) (frame : FrameId) (binding : Binding)
    (arguments : List Node) (fine : ∀ bound, given bound → binding.bound.Fits bound) :
    (engine.bindAll function parameters frame binding arguments).Through lens given
      (twin.bindAll function parameters frame (lens.binding binding) (lens.lines arguments)) lens.bindings
      Bindings.Fits := by
  induction arguments generalizing binding given with
  | nil => exact Exec.through_pure binding.bound _ rfl fine
  | cons argument rest ih =>
    rw [lens.lines_cons]
    unfold bindAll
    rw [binding.place_seen, lens.position_node]
    cases binding.place function parameters argument with
    | error cause =>
      simp only [Except.map]
      cases argument.position? with
      | none => exact Exec.through_fail cause
      | some position => exact Exec.through_fail_at cause position
    | ok placed =>
      obtain ⟨name, node⟩ := placed
      refine Exec.through_bind (evaluate_through through node frame) fun value => ?_
      rw [binding.add_seen]
      exact ih (binding.add argument name value) fun bound both =>
        binding.fits_added argument name value (fine bound both.1) both.2

theorem bind_arguments_through (function : String) (parameters : Parameters) (arguments : List Node) (frame : FrameId) :
    (engine.bindArguments function parameters arguments frame).Through lens given
      (twin.bindArguments function parameters (lens.lines arguments) frame) lens.bindings Bindings.Fits := by
  refine Exec.through_bind (bind_all_through through function parameters frame .start arguments
    fun bound _ => NameMap.all_empty _) fun bindings => ?_
  refine Exec.through_bind Exec.through_void fun void => ?_
  exact Exec.through_pure _ _ (Binding.fill_seen lens void parameters bindings) fun bound both =>
    Binding.fits_filled void parameters bindings both.1.2 both.2

theorem call_through (target function : Value) (arguments : List Node) (frame : FrameId)
    (targetFine : ∀ bound, given bound → target.Fits bound) (fine : ∀ bound, given bound → function.Fits bound) :
    (engine.call target function arguments frame).Through lens given
      (twin.call (lens.value target) (lens.value function) (lens.lines arguments) frame) lens.value Value.Fits := by
  refine Exec.through_bind (Exec.through_name_of function) fun className => ?_
  refine Exec.through_bind (Exec.through_is_function function) fun isFunction => ?_
  refine Exec.through_guard _ _ _ _ _ (Exec.through_fail _) ?_
  have bound (name : String) (parameters : Parameters) :
      (engine.bindArguments name parameters arguments frame >>= fun bindings =>
        engine.invoke target function bindings frame).Through lens (fun bound => (given bound ∧ True) ∧ True)
      (twin.bindArguments name parameters (lens.lines arguments) frame >>= fun bindings =>
        twin.invoke (lens.value target) (lens.value function) bindings frame) lens.value Value.Fits :=
    Exec.through_bind (bind_arguments_through through name parameters arguments frame) fun bindings =>
      invoke_through through target function bindings frame (fun bound both => targetFine bound both.1.1.1)
        (fun bound both => fine bound both.1.1.1) fun _ both => both.2
  rcases lens.function_value function with ⟨unknown, unseen⟩ | ⟨deaf, content, known, seen, _⟩
  · rw [unknown, unseen]
    exact bound className .variadic
  · rw [known, seen]
    exact bound content.name content.parameters

theorem stringify_through (value : Value) (frame : FrameId) (fine : ∀ bound, given bound → value.Fits bound) :
    (engine.stringify value frame).Through lens given (twin.stringify (lens.value value) frame) id fun _ _ => True := by
  unfold stringify
  rw [lens.member_value]
  cases found : value.member? "__str__" with
  | none => exact Exec.through_bind (Exec.through_name_of value) fun name => Exec.through_pure _ _ rfl fun _ _ => trivial
  | some method =>
    refine Exec.through_bind (invoke_through through value method .empty frame fine
      (fun bound plain => Value.fits_member (fine bound plain) _ method found) fun _ _ => NameMap.all_empty _) fun result => ?_
    rw [lens.text_value]
    cases result.text? with
    | some text => exact Exec.through_pure text _ rfl fun _ _ => trivial
    | none =>
      exact Exec.through_bind (Exec.through_name_of value) fun name =>
        Exec.through_bind (Exec.through_name_of result) fun other => Exec.through_fail _

theorem truthy_through (value : Value) (frame : FrameId) (fine : ∀ bound, given bound → value.Fits bound) :
    (engine.truthy value frame).Through lens given (twin.truthy (lens.value value) frame) id fun _ _ => True := by
  unfold truthy
  rw [lens.flag_value, lens.member_value]
  cases value.flag? with
  | some flag => exact Exec.through_pure flag _ rfl fun _ _ => trivial
  | none =>
    cases found : value.member? "__bool__" with
    | none => exact Exec.through_pure true _ rfl fun _ _ => trivial
    | some method =>
      refine Exec.through_bind (invoke_through through value method .empty frame fine
        (fun bound plain => Value.fits_member (fine bound plain) _ method found) fun _ _ => NameMap.all_empty _) fun result => ?_
      rw [lens.flag_value]
      cases result.flag? with
      | some flag => exact Exec.through_pure flag _ rfl fun _ _ => trivial
      | none =>
        exact Exec.through_bind (Exec.through_name_of value) fun name =>
          Exec.through_bind (Exec.through_name_of result) fun other => Exec.through_fail _

end Calls

section Natives

theorem texts_through (values : List Value) (frame : FrameId) (fine : ∀ bound, given bound → ∀ value ∈ values, value.Fits bound) :
    (engine.texts values frame).Through lens given (twin.texts (values.map lens.value) frame) id fun _ _ => True := by
  have collected := Exec.through_collect (fun value => engine.stringify value frame) (fun value => twin.stringify value frame)
    lens.value values fun value listed => stringify_through through value frame fun bound plain => fine bound plain value listed
  rw [List.map_id_fun] at collected
  exact Exec.through_weaken collected fun _ _ _ _ => trivial

theorem print_through (invocation : Invocation) (fine : ∀ bound, given bound → invocation.Fits bound) :
    (engine.print invocation).Through lens given (twin.print (lens.invocation invocation)) lens.value Value.Fits := by
  unfold print
  simp only [Lens.invocation, Lens.bindings, NameMap.values_map]
  refine Exec.through_bind (texts_through through invocation.arguments.values invocation.frame fun bound plain value listed => ?_)
    fun words => ?_
  · obtain ⟨entry, member, rfl⟩ := List.mem_map.mp listed
    exact (fine bound plain).arguments entry member
  · exact Exec.through_bind (Exec.through_write_line _) fun _ => Exec.through_void

omit through in
theorem sleep_through (invocation : Invocation) :
    (sleep invocation).Through lens given (sleep (lens.invocation invocation)) lens.value Value.Fits := by
  have asked : ((lens.invocation invocation).arguments.find? "ms").bind Value.number? =
      (invocation.arguments.find? "ms").bind Value.number? := by
    simp only [Lens.invocation, Lens.bindings, NameMap.find_map]
    cases invocation.arguments.find? "ms" <;> simp
  unfold sleep
  rw [asked]
  cases ((invocation.arguments.find? "ms").bind Value.number?).bind Number.floor? with
  | none => exact Exec.through_fail _
  | some milliseconds => exact Exec.through_spawn_blocking _ _

omit through in
theorem promise_text_through (invocation : Invocation) (fine : ∀ bound, given bound → invocation.Fits bound) :
    (promiseText invocation).Through lens given (promiseText (lens.invocation invocation)) lens.value Value.Fits := by
  have asks : (Exec.read fun machine => invocation.target.task?.bind machine.tasks.state?).Through lens given
      (Exec.read fun machine => (lens.value invocation.target).task?.bind machine.tasks.state?) (Option.map lens.state)
      fun _ _ => True := by
    refine Exec.through_read _ _ (fun machine _ _ plain _ fit => ?_) fun _ _ _ _ => trivial
    rw [lens.task_value]
    cases asked : invocation.target.task? with
    | none => rfl
    | some task =>
      have known := Value.fits_task (fine lens.bound plain).target task asked
      exact lens.state_tasks machine.tasks task (Exec.fills_fits machine fit) known
  refine Exec.through_bind asks fun state => ?_
  have word : TaskState.word (state.map lens.state) = TaskState.word state := by
    cases state with
    | none => rfl
    | some state => cases state <;> rfl
  rw [word]
  exact Exec.through_text _

theorem run_builtin_through (code : Builtin) (invocation : Invocation) (fine : ∀ bound, given bound → invocation.Fits bound) :
    (engine.runBuiltin code invocation).Through lens given (twin.runBuiltin code (lens.invocation invocation)) lens.value
      Value.Fits := by
  have items : ((lens.value invocation.target).items?).getD [] = ((invocation.target.items?).getD []).map lens.value := by
    rw [lens.items_value]
    cases invocation.target.items? <;> rfl
  cases code with
  | objectText => exact Exec.through_bind (Exec.through_name_of invocation.target) fun name => Exec.through_text _
  | objectTruth => exact Exec.through_flag _
  | functionText =>
    unfold runBuiltin
    simp only [Lens.invocation]
    rcases lens.function_value invocation.target with ⟨unknown, unseen⟩ | ⟨deaf, content, known, seen, _⟩
    · simp only [unknown, unseen]
      exact Exec.through_text _
    · simp only [known, seen]
      exact Exec.through_text _
  | voidText => exact Exec.through_text _
  | voidTruth => exact Exec.through_flag _
  | numberText =>
    unfold runBuiltin
    simp only [Lens.invocation, lens.number_value]
    exact Exec.through_text _
  | stringText => exact Exec.through_pure invocation.target _ rfl fun bound plain => (fine bound plain).target
  | stringLength =>
    unfold runBuiltin
    simp only [Lens.invocation, lens.text_value]
    exact Exec.through_number _
  | booleanText =>
    unfold runBuiltin
    simp only [Lens.invocation, lens.flag_value]
    exact Exec.through_text _
  | booleanTruth =>
    unfold runBuiltin
    simp only [Lens.invocation, lens.flag_value]
    exact Exec.through_flag _
  | arrayText =>
    unfold runBuiltin
    simp only [Lens.invocation, items]
    refine Exec.through_bind (texts_through through _ invocation.frame fun bound plain => ?_) fun words => Exec.through_text _
    cases asked : invocation.target.items? with
    | none => exact fun value listed => by cases listed
    | some items => exact Value.fits_items (fine bound plain).target items asked
  | arrayTruth =>
    unfold runBuiltin
    simp only [Lens.invocation, items, List.isEmpty_map]
    exact Exec.through_flag _
  | arrayLength =>
    unfold runBuiltin
    simp only [Lens.invocation, items, List.length_map]
    exact Exec.through_number _
  | promiseText => exact promise_text_through invocation fine
  | print => exact print_through through invocation fine
  | exit => exact Exec.through_bind Exec.through_halt fun _ => Exec.through_void
  | sleep => exact sleep_through invocation

end Natives
end Engine
end CoopScript
