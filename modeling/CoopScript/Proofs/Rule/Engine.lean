import CoopScript.Proofs.Conduct.Language
import CoopScript.Proofs.Conduct.Schedule
import CoopScript.Proofs.Rule.Steady

set_option autoImplicit false
namespace CoopScript

namespace Conduct

-- As a conduct this asks nothing of values: the second engine comes to whatever the first one comes to.
def below : Conduct where
  World := Unit
  Grows _ _ := True
  still _ := trivial
  grow _ _ := trivial
  Good _ _ := True
  Admits _ := True
  more _ _ := trivial
  member _ _ _ _ := trivial
  items _ _ _ _ _ := trivial
  native _ _ _ _ _ := trivial
  hook _ _ _ := trivial
  constant _ _ := trivial
  Keeps _ _ step twin := step.Below twin
  pure _ _ := Exec.below_refl _
  bind next later below further := Exec.below_bind _ _ next later below fun value => further () value trivial (Valued.always value)
  exhausted := Exec.below_refl _
  refuse _ _ _ := Exec.below_refl _
  misplaced engine twin _ _ _ _ _ cause refused := by
    rw [engine.bind_all_refused _ _ _ _ _ _ cause refused, twin.bind_all_refused _ _ _ _ _ _ cause refused]
    exact Exec.below_refl _
  placed _ _ _ _ _ _ _ _ evaluates evaluatesTwin below := by
    rw [evaluates, evaluatesTwin]
    exact Exec.below_map_failure _ _ _ below
  look _ next later further := Exec.below_then _ next later further
  scalar _ := Exec.below_refl _
  array _ _ := Exec.below_refl _
  lookUp _ := Exec.below_refl _
  assign _ _ _ := Exec.below_refl _
  writeLine _ := Exec.below_refl _
  halt := Exec.below_refl _
  spawnBlocking _ _ := Exec.below_refl _
  spawnAsync _ _ _ _ := Exec.below_refl _

theorem below_writes : below.Writes where
  function _ _ _ _ := Exec.below_refl _
  setVariable _ _ _ := Exec.below_refl _
  setReturn _ _ := Exec.below_refl _
  isUnwinding := Exec.below_refl _

theorem below_machinery : below.Machinery where
  seen _ next later further := Exec.below_then _ next later further
  tooDeep _ _ := Exec.below_refl _
  unsettled := Exec.below_refl _
  guard _ _ _ below _ _ := Exec.below_last _ _ _ (Exec.below_attempt _ _ below)
  quiet _ _ := Exec.below_refl _
  push _ _ _ := Exec.below_refl _
  release _ := Exec.below_refl _
  takeReturn _ := Exec.below_refl _
  createRunner _ _ := Exec.below_refl _
  updateRunner _ _ _ := Exec.below_refl _
  record _ _ _ := Exec.below_refl _
  advance _ := Exec.below_refl _
  finishRunner _ := Exec.below_refl _
  consume _ := Exec.below_refl _

end Conduct

namespace Engine

theorem exhausted_below (other : Engine) (same : other.fuel = 0) : exhausted.Below other where
  fuel := same
  parse _ := Exec.below_exhausted _
  evaluate _ _ := Exec.below_exhausted _
  execute _ _ := Exec.below_exhausted _
  native _ _ := Exec.below_exhausted _
  perform _ := Exec.below_exhausted _
  body _ _ := Exec.below_exhausted _

variable (engine other : Engine) (below : engine.Below other)
include below

theorem perform_all_below (actions : List Action) : (engine.performAll actions).Below (other.performAll actions) :=
  Exec.below_each _ _ (fun action => Exec.below_last _ _ _ (below.perform action)) actions

theorem execute_line_below (node : Node) (frame : FrameId) :
    (engine.executeLine node frame).Below (other.executeLine node frame) :=
  Exec.below_map_failure _ _ _ (below.execute node frame)

theorem below_drives : Conduct.below.Drives engine other where
  fuel := below.fuel
  line := engine.execute_line_below other below
  body := below.body

theorem run_block_below (lines : List Node) (frame : FrameId) :
    (engine.runBlock lines frame).Below (other.runBlock lines frame) :=
  (engine.below_drives other below).run_block Conduct.below_machinery () frame lines frame

theorem run_body_below (lines : List Node) (frame : FrameId) :
    (engine.runBody lines frame).Below (other.runBody lines frame) :=
  (engine.below_drives other below).run_body Conduct.below_machinery () frame lines frame

theorem run_frame_below (name : String) (lines : List Node) (frame : FrameId) :
    (engine.runFrame name lines frame).Below (other.runFrame name lines frame) :=
  (engine.below_drives other below).run_frame Conduct.below_machinery () frame name lines frame

section Scheduler

theorem run_microtask_below (task : Microtask) : (engine.runMicrotask task).Below (other.runMicrotask task) := by
  cases task with
  | asyncBody task name lines frame =>
    exact Exec.below_then _ _ _ fun _ => Exec.below_last _ _ _ (Exec.below_attempt _ _
      (engine.run_frame_below other below name lines frame))
  | host actions => exact engine.perform_all_below other below actions
  | _ => exact Exec.below_refl _

theorem drain_step_below (report : TickReport) : (engine.drainStep report).Below (other.drainStep report) := by
  refine Exec.below_then _ _ _ fun queue => ?_
  cases queue with
  | nil => exact Exec.below_refl _
  | cons task rest =>
    exact Exec.below_then _ _ _ fun _ => Exec.below_last _ _ _ (engine.run_microtask_below other below task)

theorem run_event_below (event : Microevent) : (engine.runEvent event).Below (other.runEvent event) := by
  cases event with
  | pollPool => exact Exec.below_refl _
  | host turns next =>
    simp only [runEvent]
    cases Microevent.turn turns next with
    | mk actions status => exact Exec.below_last _ _ _ (engine.perform_all_below other below actions)

theorem service_all_below (ids : List EventId) (report : TickReport) :
    (engine.serviceAll ids report).Below (other.serviceAll ids report) := by
  induction ids generalizing report with
  | nil => exact Exec.below_refl _
  | cons id rest ih =>
    refine Exec.below_then _ _ _ fun known => ?_
    cases known with
    | none => exact ih report
    | some event =>
      have served : (engine.serviceEvent id event).Below (other.serviceEvent id event) := Exec.below_then _ _ _ fun _ =>
        Exec.below_last _ _ _ (Exec.below_attempt _ _ (engine.run_event_below other below event))
      refine Exec.below_bind _ _ _ _ served fun status => Exec.below_then _ _ _ fun halted => ?_
      exact Exec.below_if _ _ _ _ _ (Exec.below_refl _) (ih _)

theorem service_events_below (report : TickReport) : (engine.serviceEvents report).Below (other.serviceEvents report) :=
  Exec.below_then _ _ _ fun ids => engine.service_all_below other below ids report

theorem below_serves : Conduct.below.Serves engine other where
  toDrives := engine.below_drives other below
  drain := engine.drain_step_below other below
  events := engine.service_events_below other below

theorem tick_below : engine.tick.Below other.tick :=
  (engine.below_serves other below).tick Conduct.below_machinery () Arena.root

theorem run_below : engine.run.Below other.run :=
  (engine.below_serves other below).run Conduct.below_machinery () Arena.root

theorem await_below (task : TaskId) : (engine.await task).Below (other.await task) :=
  (engine.below_serves other below).await Conduct.below_machinery () Arena.root task

end Scheduler

section Calls

theorem below_guides : Conduct.below.Guides engine other where
  fuel := below.fuel
  evaluate _ := below.evaluate
  native _ code invocation _ _ := below.native code invocation
  actions _ _ actions _ := engine.perform_all_below other below actions
  script _ := (engine.below_drives other below).invoke_script Conduct.below_machinery () Arena.root
  await _ _ := engine.await_below other below

theorem below_blocks : Conduct.below.Blocks engine other := fun _ => engine.run_block_below other below

theorem bind_arguments_below (function : String) (parameters : Parameters) (arguments : List Node) (frame : FrameId) :
    (engine.bindArguments function parameters arguments frame).Below
      (other.bindArguments function parameters arguments frame) := by
  have keeps : Conduct.below.Keeps () frame _ _ :=
    (engine.below_guides other below).bind_arguments function parameters arguments
  exact keeps

theorem invoke_below (target function : Value) (arguments : Bindings) (frame : FrameId) :
    (engine.invoke target function arguments frame).Below (other.invoke target function arguments frame) := by
  have keeps : Conduct.below.Keeps () frame _ _ :=
    (engine.below_guides other below).invoke target function arguments trivial trivial fun _ _ => trivial
  exact keeps

theorem call_below (target function : Value) (arguments : List Node) (frame : FrameId) :
    (engine.call target function arguments frame).Below (other.call target function arguments frame) := by
  have keeps : Conduct.below.Keeps () frame _ _ :=
    (engine.below_guides other below).call target function arguments trivial trivial
  exact keeps

theorem stringify_below (value : Value) (frame : FrameId) :
    (engine.stringify value frame).Below (other.stringify value frame) := by
  have keeps : Conduct.below.Keeps () frame _ _ := (engine.below_guides other below).stringify value trivial
  exact keeps

theorem truthy_below (value : Value) (frame : FrameId) : (engine.truthy value frame).Below (other.truthy value frame) := by
  have keeps : Conduct.below.Keeps () frame _ _ := (engine.below_guides other below).truthy value trivial
  exact keeps

theorem run_native_below (code : Native Value) (invocation : Invocation) :
    (engine.runNative code invocation).Below (other.runNative code invocation) := by
  have suits : Conduct.below.Suits () invocation := ⟨trivial, trivial, fun _ _ => trivial⟩
  exact (engine.below_guides other below).run_native code invocation trivial suits

end Calls

section Actions

theorem arguments_of_below (text : String) : (engine.argumentsOf text).Below (other.argumentsOf text) :=
  Exec.below_last _ _ _ (below.parse _)

theorem perform_runner_below (action : Action) : (engine.performRunner action).Below (other.performRunner action) := by
  cases action with
  | load name source frame | createRunner name source frame | enqueue source index name frame =>
    exact Exec.below_last _ _ _ (below.parse source)
  | execute source index frame =>
    refine Exec.below_bind _ _ _ _ (below.parse source) fun lines => ?_
    cases lines[index]? with
    | none => exact Exec.below_refl _
    | some node =>
      exact Exec.below_then _ _ _ fun frame => Exec.below_last _ _ _ (engine.execute_line_below other below node frame)
  | runBlock source frame =>
    exact Exec.below_bind _ _ _ _ (below.parse source) fun lines => Exec.below_then _ _ _ fun frame =>
      Exec.below_last _ _ _ (engine.run_block_below other below lines frame)
  | _ => exact Exec.below_refl _

theorem perform_scheduler_below (action : Action) :
    (engine.performScheduler action).Below (other.performScheduler action) := by
  cases action with
  | tick => exact Exec.below_last _ _ _ (engine.tick_below other below)
  | run => exact Exec.below_last _ _ _ (engine.run_below other below)
  | _ => exact Exec.below_refl _

theorem perform_task_below (action : Action) : (engine.performTask action).Below (other.performTask action) := by
  cases action with
  | await task => exact Exec.below_then _ _ _ fun task => Exec.below_last _ _ _ (engine.await_below other below task)
  | _ => exact Exec.below_refl _

theorem perform_value_below (action : Action) : (engine.performValue action).Below (other.performValue action) := by
  cases action with
  | textOf value frame =>
    exact Exec.below_then _ _ _ fun value => Exec.below_then _ _ _ fun frame =>
      Exec.below_last _ _ _ (engine.stringify_below other below value frame)
  | truthOf value frame =>
    exact Exec.below_then _ _ _ fun value => Exec.below_then _ _ _ fun frame =>
      Exec.below_last _ _ _ (engine.truthy_below other below value frame)
  | _ => exact Exec.below_refl _

theorem perform_call_below (action : Action) : (engine.performCall action).Below (other.performCall action) := by
  cases action with
  | bindArguments function parameters text frame =>
    exact Exec.below_bind _ _ _ _ (engine.arguments_of_below other below text) fun arguments => Exec.below_then _ _ _
      fun frame => Exec.below_last _ _ _ (engine.bind_arguments_below other below function parameters arguments frame)
  | call function target text frame =>
    have called (function target : Value) := Exec.below_bind _ _ _ _ (engine.arguments_of_below other below text)
      fun arguments => Exec.below_then (Exec.frameNamed frame) _ _ fun frame => Exec.below_last _ _
        (fun value => pure (.value value) : Value → Exec Answer) (engine.call_below other below target function arguments frame)
    refine Exec.below_then _ _ _ fun function => ?_
    cases target with
    | none => exact Exec.below_then _ _ _ (called function)
    | some target => exact Exec.below_then _ _ _ (called function)
  | invoke function target bindings frame =>
    refine Exec.below_then _ _ _ fun function => ?_
    have invoked (target : Value) := Exec.below_then (Operand.buildNamed bindings) _ _ fun bindings =>
      Exec.below_then (Exec.frameNamed frame) _ _ fun frame => Exec.below_last _ _
        (fun value => pure (.value value) : Value → Exec Answer)
        (engine.invoke_below other below target function (.ofList bindings) frame)
    cases target with
    | none => exact Exec.below_then _ _ _ invoked
    | some target => exact Exec.below_then _ _ _ invoked
  | _ => exact Exec.below_refl _

theorem perform_action_below (action : Action) : (engine.performAction action).Below (other.performAction action) := by
  have runner := engine.perform_runner_below other below action
  have scheduler := engine.perform_scheduler_below other below action
  have task := engine.perform_task_below other below action
  have frame := Exec.below_refl (performFrame action)
  have ofClass := Exec.below_refl (performClass action)
  have value := engine.perform_value_below other below action
  have call := engine.perform_call_below other below action
  cases action <;> assumption

end Actions

theorem eval_program_below (lines : List Node) : (engine.evalProgram lines).Below (other.evalProgram lines) :=
  Exec.below_then _ _ _ fun _ => Exec.below_then _ _ _ fun _ =>
    Exec.below_last _ _ _ (Exec.below_attempt _ _ (engine.run_below other below))

end Engine

namespace Extension
variable (engine other : Engine) (below : engine.Below other) (node : Node) (frame : FrameId)
include below

theorem unless_below : (runUnless engine node frame).Below (runUnless other node frame) := by
  have keeps : Conduct.below.Keeps () frame _ _ :=
    Conduct.keeps_unless (engine.below_guides other below) node frame (engine.below_blocks other below).nests
  exact keeps

theorem once_below : (runOnce engine node frame).Below (runOnce other node frame) := by
  have keeps : Conduct.below.Keeps () frame _ _ :=
    Conduct.keeps_once (engine.below_guides other below) node frame (engine.below_blocks other below)
  exact keeps

theorem concat_below : (runConcat engine node frame).Below (runConcat other node frame) := by
  have keeps : Conduct.below.Keeps () frame _ _ := Conduct.keeps_concat (engine.below_guides other below) node frame
  exact keeps

end Extension

namespace RuleSet

theorem standard_steady : standard.Steady where
  statement rule member := by
    change rule ∈ StatementRule.standard at member
    have form : rule.toStatementForm.Steady := by
      refine StatementForm.standard_steady _ ?_
      simp only [StatementRule.standard, List.mem_cons, List.not_mem_nil, or_false] at member
      rcases member with rfl | rfl | rfl | rfl | rfl <;> simp [StatementForm.standard]
    exact ⟨form, fun engine other below node frame => Conduct.standard_executes (engine.below_guides other below)
      Conduct.below_writes (engine.below_blocks other below).nests rule member () node frame⟩
  expression rule member := by
    change rule ∈ ExpressionRule.standard at member
    have form : rule.toExpressionForm.Steady := by
      refine ExpressionForm.standard_steady _ ?_
      simp only [ExpressionRule.standard, List.mem_cons, List.not_mem_nil, or_false] at member
      rcases member with rfl | rfl | rfl | rfl | rfl | rfl | rfl | rfl | rfl | rfl | rfl | rfl | rfl | rfl | rfl <;>
        simp [ExpressionForm.standard, ExpressionRule.silent, ExpressionRule.running, ExpressionRule.binary]
    exact ⟨form, fun run runs engine other below node frame =>
      Conduct.standard_evaluates (engine.below_guides other below) rule member run runs () node frame⟩

section Registering
variable (rules : RuleSet) (steady : rules.Steady)
include steady

theorem statement_rule_steady (rule : StatementRule) (ruleSteady : rule.Steady) : (rules.registerStatement rule).Steady :=
  ⟨List.forall_mem_cons.mpr ⟨ruleSteady, steady.statement⟩, steady.expression⟩

theorem expression_rule_steady (rule : ExpressionRule) (ruleSteady : rule.Steady) : (rules.registerExpression rule).Steady :=
  ⟨steady.statement, List.forall_mem_cons.mpr ⟨ruleSteady, steady.expression⟩⟩

-- A rule that only reads.
theorem silent_rule_steady (form : ExpressionForm) (formSteady : form.Steady) :
    (rules.registerExpression (.silent form)).Steady :=
  rules.expression_rule_steady steady _ ⟨formSteady, nofun⟩

-- An expression that begins with a word of its own.
theorem worded_rule_steady (word : String) (start : Reader → Nat → Parse Node) (starts : ∀ reader other : Reader,
    reader.Below other → ∀ precedence, (start reader precedence).Below (start other precedence)) :
    (rules.registerExpression (Extension.worded word start)).Steady := by
  refine rules.silent_rule_steady steady _ ⟨fun own same => ?_, nofun⟩
  cases same
  exact starts

theorem extend_steady (name : String) : (rules.extend name).Steady := by
  unfold extend
  split
  · refine rules.statement_rule_steady steady _ ⟨⟨fun reader other below => ?_⟩, Extension.unless_below⟩
    exact Parse.below_then _ _ _ fun _ => Parse.below_bind _ _ _ _ (StatementForm.condition_below reader other below)
      fun _ => Parse.below_bind _ _ _ _ (reader.body_below other below) fun _ => Parse.below_refl _
  · exact rules.statement_rule_steady steady _ ⟨⟨StatementForm.loop_below⟩, Extension.once_below⟩
  · have lexed : (rules.registerLexRule Extension.dotsRule).Steady := ⟨steady.statement, steady.expression⟩
    refine expression_rule_steady _ lexed _
      ⟨⟨fun _ starts => absurd starts nofun, fun extend same => ?_⟩, fun run same => ?_⟩
    · cases same
      exact fun reader other below left _ => Parse.below_then _ _ _ fun _ =>
        Parse.below_bind _ _ _ _ (below.expression _) fun _ => Parse.below_refl _
    · cases same
      exact Extension.concat_below
  · refine rules.silent_rule_steady steady _ ⟨nofun, fun extend same => ?_⟩
    cases same
    exact fun reader other below left precedence => Parse.below_then _ _ _ fun _ =>
      Parse.below_bind _ _ _ _ (below.expression precedence) fun _ => Parse.below_refl _
  · exact rules.worded_rule_steady steady "do" _ fun reader other below _ => Parse.below_then _ _ _ fun _ => below.statement
  · exact rules.worded_rule_steady steady "ghost" _ fun _ _ _ _ => Parse.below_refl _
  · exact rules.worded_rule_steady steady "void" _ fun _ _ _ _ => Parse.below_refl _
  · exact rules.worded_rule_steady steady "minus" _ fun reader other below precedence =>
      Parse.below_operand reader other below precedence fun token => .unary "unary" token.position .negate
  · exact steady

end Registering

theorem customised_steady (extensions : List String) (lexRules : List LexRule) : (customised extensions lexRules).Steady := by
  have extended : (extensions.foldl extend standard).Steady :=
    List.foldlRecOn extensions extend standard_steady fun rules steady name _ => rules.extend_steady steady name
  exact List.foldlRecOn lexRules registerLexRule extended fun rules steady _ _ => ⟨steady.statement, steady.expression⟩

end RuleSet

end CoopScript
