import CoopScript.Proofs.Trait.Language
import CoopScript.Proofs.Work.Session

set_option autoImplicit false
namespace CoopScript

namespace Trait
variable (trait : Trait) {α : Type}

section Handles

theorem known (what name : String) (answer : Option α) : trait.Holds (Exec.known what name answer) := by
  cases answer with
  | some found => exact trait.pure found
  | none => exact trait.fail _

theorem frame_named (name : String) : trait.Holds (Exec.frameNamed name) := by
  refine trait.given _ _ fun frame => ?_
  cases frame with
  | some frame => exact trait.pure frame
  | none =>
    simp only
    split
    · exact trait.pure _
    · exact trait.known "frame" name none

theorem task_labelled (label : Label) : trait.Holds (Exec.taskLabelled label) := by
  cases label with
  | numbered number => exact trait.pure _
  | named name => exact trait.given _ _ fun task => trait.known "task" name task

theorem class_named (name : String) : trait.Holds (Exec.classNamed name) :=
  trait.given _ _ fun id => trait.known "class" name id

theorem class_labelled (label : Label) : trait.Holds (Exec.classLabelled label) := by
  cases label with
  | numbered number => exact trait.pure _
  | named name => exact trait.class_named name

theorem runner_named (name : String) : trait.Holds (Exec.runnerNamed name) :=
  trait.given _ _ fun id => trait.known "runner" name id

theorem slot_named (name : String) : trait.Holds (Exec.slotNamed name) :=
  trait.given _ _ fun value => trait.known "slot" name value

theorem handles (change : Handles → Handles) : trait.Holds (Exec.updateHandles change) :=
  trait.modify _ fun _ => ⟨rfl, Nat.le_refl _⟩

end Handles

section Operands

mutual

theorem build (operand : Operand) : trait.Holds operand.build := by
  cases operand with
  | void | flag | number | text => exact trait.read _
  | array items => exact trait.bind _ (build_all items) fun values => trait.array values
  | binding frame name => exact trait.bind _ (trait.frame_named frame) fun id => trait.ask _
  | slot name => exact trait.slot_named name
  | promise task => exact trait.bind _ (trait.task_labelled task) fun task => trait.read _
  | plain className => exact trait.bind _ (trait.class_named className) fun id => trait.read _
  | carrying className data =>
    refine trait.bind _ (build data) fun value => ?_
    exact trait.bind _ (trait.class_named className) fun id => trait.read _
  | native name parameters recipe =>
    exact trait.bind _ (build_recipe recipe) fun code => trait.function _

theorem build_all (items : List Operand) : trait.Holds (Operand.buildAll items) := by
  cases items with
  | nil => exact trait.pure []
  | cons item rest =>
    exact trait.bind _ (build item) fun value =>
      trait.put _ (value :: ·) (build_all rest)

theorem build_recipe (recipe : Recipe) : trait.Holds recipe.build := by
  cases recipe with
  | const value => exact trait.put _ Behaviour.const (build value)
  | _ => exact trait.pure _

end

theorem build_named (entries : List (String × Operand)) : trait.Holds (Operand.buildNamed entries) :=
  trait.collect _ entries fun entry => trait.put _ (entry.1, ·) (trait.build entry.2)

end Operands

section Actions
variable (engine : Engine) (has : engine.Has trait) (action : Action)

-- What goes on in a frame that the host has named.
theorem framed (frame : String) (next : FrameId → Exec α) (later : ∀ id, trait.Holds (next id)) :
    trait.Holds (Exec.frameNamed frame >>= next) := trait.bind next (trait.frame_named frame) later

-- What is done with a value that the host has described.
theorem built (operand : Operand) (next : Value → Exec α) (later : ∀ value, trait.Holds (next value)) :
    trait.Holds (operand.build >>= next) := trait.bind next (trait.build operand) later

theorem acted (step : Exec Unit) (acts : trait.Holds step) :
    trait.Holds (do step; return .nothing : Exec Answer) := trait.bind _ acts fun _ => trait.pure _

section Scripts
include has

theorem arguments_of (text : String) : trait.Holds (engine.argumentsOf text) := by
  refine trait.bind _ (has.parse _) fun lines => ?_
  split
  · exact trait.pure _
  · exact trait.fail _

theorem perform_runner : trait.Holds (engine.performRunner action) := by
  have named : ∀ (name : String) (opens : FrameId → Exec RunnerId) (frame : String), (∀ id, trait.Holds (opens id)) →
      trait.Holds (do
        Exec.nameRunner name (← opens (← Exec.frameNamed frame))
        return .nothing : Exec Answer) := fun name opens frame opening =>
    trait.framed frame _ fun id => trait.bind _ (opening id) fun runner =>
      trait.acted _ (trait.handles _)
  cases action with
  | load name source frame =>
    exact trait.bind _ (has.parse source) fun lines => named name _ frame fun id => trait.load_program lines id
  | loadNodes name nodes frame => exact named name _ frame fun id => trait.load_program nodes id
  | createRunner name source frame =>
    exact trait.bind _ (has.parse source) fun lines =>
      named name _ frame fun id => trait.create_runner lines id
  | isFinished name =>
    exact trait.bind _ (trait.runner_named name) fun id => trait.put _ _ (trait.read _)
  | finish name =>
    exact trait.bind _ (trait.runner_named name) fun id =>
      trait.put _ _ (trait.finish_runner id)
  | enqueue source index name frame =>
    refine trait.bind _ (has.parse source) fun lines => ?_
    split
    · exact trait.pure _
    · refine trait.bind _ (trait.runner_named name) fun runner => trait.framed frame _ fun id => ?_
      exact trait.bind _ (trait.modify _ fun _ => ⟨rfl, Nat.le_refl _⟩) fun _ => trait.pure _
  | execute source index frame =>
    refine trait.bind _ (has.parse source) fun lines => ?_
    split
    · exact trait.pure _
    · exact trait.framed frame _ fun id => trait.put _ _ (trait.execute_line engine has _ id)
  | runBlock source frame =>
    refine trait.bind _ (has.parse source) fun lines => trait.framed frame _ fun id => ?_
    exact trait.put _ _ (trait.run_block engine has lines id)
  | _ => exact trait.pure _

theorem perform_scheduler : trait.Holds (engine.performScheduler action) := by
  cases action with
  | mark | halt | clearHalt => exact trait.acted _ (trait.modify _ fun _ => ⟨rfl, Nat.le_refl _⟩)
  | fail kind message => exact trait.fail _
  | tick => exact trait.put _ _ (trait.tick engine has)
  | run => exact trait.acted _ (trait.run engine has)
  | reset => exact trait.acted _ trait.reset
  | isUnwinding frame => exact trait.framed frame _ fun id => trait.put _ _ (trait.is_unwinding id)
  | enqueueMicrotask actions => exact trait.acted _ (trait.enqueue (.host actions) rfl)
  | registerEvent name turns =>
    exact trait.bind _ (trait.register _) fun id => trait.acted _ (trait.handles _)
  | removeEvent name =>
    refine trait.given _ _ fun known => ?_
    cases known with
    | none => exact trait.pure _
    | some id => exact trait.put _ _ (trait.remove id)
  | _ => exact trait.pure _

theorem perform_task : trait.Holds (engine.performTask action) := by
  have labelled : ∀ (label : Label) (next : TaskId → Exec Answer), (∀ task, trait.Holds (next task)) →
      trait.Holds (Exec.taskLabelled label >>= next) := fun label next later =>
    trait.bind next (trait.task_labelled label) later
  cases action with
  | spawn name outcome milliseconds =>
    refine trait.bind _ (trait.spawn_blocking outcome milliseconds) fun promise => ?_
    refine trait.bind _ (trait.handles _) fun _ => ?_
    cases promise.task? with
    | some task => exact trait.bind _ (trait.handles _) fun _ => trait.pure _
    | none => exact trait.pure _
  | await label => exact labelled label _ fun task => trait.put _ _ (trait.await engine has task)
  | createTask name =>
    refine trait.bind _ trait.create_task fun task => ?_
    exact trait.bind _ (trait.handles _) fun _ => trait.pure _
  | settleTask label value =>
    exact trait.built value _ fun value => labelled label _ fun task =>
      trait.acted _ (trait.settle_task task value)
  | consumeTask label => exact labelled label _ fun task => trait.put _ _ (trait.consume_task task)
  | taskState label => exact labelled label _ fun task => trait.read _
  | _ => exact trait.pure _

theorem perform_value : trait.Holds (engine.performValue action) := by
  have changed : ∀ (slot : String) (change : Value → Value),
      trait.Holds (do Exec.store slot (change (← Exec.slotNamed slot)); return .nothing : Exec Answer) :=
    fun slot change => trait.bind _ (trait.slot_named slot) fun value =>
      trait.acted _ (trait.handles _)
  cases action with
  | store name value =>
    exact trait.built value _ fun value => trait.bind _ (trait.handles _) fun _ => trait.pure _
  | setMember slot name value => exact trait.built value _ fun member => changed slot (·.setMember name member)
  | setHidden slot name value => exact trait.built value _ fun member => changed slot (·.setHidden name (.value member))
  | memberOf value | membersOf value | isVoid value => exact trait.built value _ fun _ => trait.pure _
  | isFunction value => exact trait.built value _ fun _ => trait.put _ _ (trait.read _)
  | textOf value frame =>
    exact trait.built value _ fun value => trait.framed frame _ fun id =>
      trait.put _ _ (trait.stringify engine has value id)
  | truthOf value frame =>
    exact trait.built value _ fun value => trait.framed frame _ fun id =>
      trait.put _ _ (trait.truthy engine has value id)
  | areEqual left right =>
    exact trait.built left _ fun _ => trait.put _ _ (trait.build right)
  | operate op left right =>
    refine trait.built left _ fun left => trait.built right _ fun right => ?_
    cases op with
    | some op => exact trait.put _ _ (trait.operate left op right)
    | none => exact trait.pure _
  | _ => exact trait.pure _

theorem perform_call : trait.Holds (engine.performCall action) := by
  cases action with
  | bindArguments function parameters text frame =>
    refine trait.bind _ (trait.arguments_of engine has text) fun arguments => ?_
    exact trait.framed frame _ fun id =>
      trait.put _ _ (trait.bind_arguments engine has function parameters arguments id)
  | call function target text frame =>
    refine trait.built function _ fun function => ?_
    have called (target : Value) : trait.Holds (do
        let arguments ← engine.argumentsOf text
        return .value (← engine.call target function arguments (← Exec.frameNamed frame)) : Exec Answer) := by
      refine trait.bind _ (trait.arguments_of engine has text) fun arguments => ?_
      exact trait.framed frame _ fun id => trait.put _ _ (trait.call engine has target function arguments id)
    -- A function that is called without a target is its own.
    cases target with
    | some target => exact trait.built target _ called
    | none => exact called function
  | invoke function target bindings frame =>
    refine trait.built function _ fun function => ?_
    have invoked (target : Value) : trait.Holds (do
        let bindings ← Operand.buildNamed bindings
        let frame ← Exec.frameNamed frame
        return .value (← engine.invoke target function (.ofList bindings) frame) : Exec Answer) := by
      refine trait.bind _ (trait.build_named bindings) fun bindings => ?_
      exact trait.framed frame _ fun id => trait.put _ _ (trait.invoke engine has target function _ id)
    cases target with
    | some target => exact trait.built target _ invoked
    | none => exact invoked function
  | _ => exact trait.pure _

end Scripts

theorem perform_frame : trait.Holds (Engine.performFrame action) := by
  have opened : ∀ (name parent : String) (isFunction : Bool) (bindings : Bindings), trait.Holds (do
      let frame ← Exec.pushFrame (← Exec.frameNamed parent) isFunction bindings
      Exec.nameFrame name frame
      return .frame frame : Exec Answer) := fun name parent isFunction bindings =>
    trait.framed parent _ fun id => trait.bind _ (trait.change _) fun frame =>
      trait.bind _ (trait.handles _) fun _ => trait.pure _
  cases action with
  | pushFrame name parent isFunction => exact opened name parent isFunction .empty
  | pushFunctionFrame name parent bindings =>
    exact trait.bind _ (trait.build_named bindings) fun bindings => opened name parent true _
  | retainFrame frame => exact trait.framed frame _ fun id => trait.acted _ (trait.update _)
  | releaseFrame frame => exact trait.framed frame _ fun id => trait.acted _ (trait.release id)
  | isLive frame | hasReturned frame => exact trait.framed frame _ fun id => trait.put _ _ (trait.read _)
  | parentOf frame | isFunctionFrame frame | functionFrameOf frame | lookUp frame | bindingsOf frame =>
    exact trait.framed frame _ fun id => trait.put _ _ (trait.ask _)
  | takeReturn frame => exact trait.framed frame _ fun id => trait.put _ _ (trait.change _)
  | setVariable frame name value | assignVariable frame name value | setReturn frame value =>
    exact trait.built value _ fun value => trait.framed frame _ fun id => trait.acted _ (trait.update _)
  | _ => exact trait.pure _

theorem define (draft : ClassDraft) : trait.Holds (Engine.defineClass draft) :=
  trait.small (Exec.small_define draft)

theorem perform_class : trait.Holds (Engine.performClass action) := by
  cases action with
  | defineClass name kind ancestors members hidden hooks =>
    refine trait.bind _ (trait.build_named members) fun members => ?_
    refine trait.bind _ (trait.build_named hidden) fun hidden => ?_
    refine trait.bind _ (trait.collect _ hooks fun entry =>
      trait.put _ _ (trait.build_recipe entry.2)) fun hooks => ?_
    refine trait.bind _ (trait.collect _ ancestors trait.class_labelled) fun ancestors => ?_
    exact trait.put _ _ (trait.define _)
  | describeClass name => exact trait.put _ _ (trait.read _)
  | inheritsFrom name ancestor =>
    refine trait.bind _ (trait.class_named name) fun id => ?_
    refine trait.bind _ (trait.class_named ancestor) fun ancestor => ?_
    exact trait.put _ _ (trait.read _)
  | _ => exact trait.pure _

include has in
theorem perform : trait.Holds (engine.performAction action) := by
  have runner := trait.perform_runner engine has action
  have scheduler := trait.perform_scheduler engine has action
  have task := trait.perform_task engine has action
  have frame := trait.perform_frame action
  have ofClass := trait.perform_class action
  have value := trait.perform_value engine has action
  have call := trait.perform_call engine has action
  cases action <;> assumption

end Actions

end Trait

theorem RuleSet.engine_has (trait : Trait) (rules : RuleSet) (has : rules.Has trait) (fuel : Nat) :
    (rules.engine fuel).Has trait := by
  induction fuel with
  | zero => exact trait.exhausted_has
  | succ fuel ih =>
    exact {
      parse := fun source => trait.load rules source none
      evaluate := rules.evaluate_has trait has (rules.engine fuel) ih
      execute := rules.execute_has trait has (rules.engine fuel) ih
      native := trait.run_native (rules.engine fuel) ih
      perform := fun action => trait.perform (rules.engine fuel) ih action
      body := trait.run_body (rules.engine fuel) ih }

def Script.under (rules : RuleSet) (fuel : Nat) : Script → Exec Value
  | text source => (rules.engine fuel).evalSource source
  | file name content => rules.evalFile fuel name content

def Request.under (rules : RuleSet) (fuel : Nat) : Request → Exec Unit
  | action content => do let _ ← (rules.engine fuel).performAction content
  | operation content => content.perform (rules.engine fuel)
  | program lines => do let _ ← (rules.engine fuel).evalProgram lines
  | script content => do let _ ← content.under rules fuel
  | line text => do let _ ← Repl.evalLine (rules.engine fuel) text

section Requests
variable (trait : Trait)

section Programs
variable (engine : Engine) (has : engine.Has trait)
include has

-- A program that fails is told of only when its work has been dropped.
theorem Trait.program (lines : List Node) : trait.Holds (engine.evalProgram lines) := by
  refine trait.bind _ (trait.modify _ fun _ => ⟨rfl, Nat.le_refl _⟩) fun _ => ?_
  refine trait.bind _ (trait.load_program lines Arena.root) fun runner => ?_
  let cleanup (outcome : Except Failure Unit) : Exec Unit := if outcome.isOk then Pure.pure () else Exec.reset
  let next (_ : Unit) (outcome : Except Failure Unit) : Exec Value := do
    Exec.ofOutcome outcome
    (← Exec.finishRunner runner).elim Exec.void Pure.pure
  have guarded : trait.Holds
      (engine.run.attempt >>= fun outcome => cleanup outcome >>= fun result => next result outcome) := by
    refine trait.guard cleanup next (fun _ _ => rfl) (trait.run engine has) (fun outcome => ?_) fun _ _ => ?_
    · cases outcome with
      | error => exact trait.reset
      | ok => exact trait.pure ()
    · refine trait.bind _ (trait.pure ()) fun _ => trait.bind _ (trait.finish_runner runner) fun last => ?_
      cases last with
      | some value => exact trait.pure value
      | none => exact trait.read _
  refine (congrArg trait.Holds ?_).mp guarded
  refine congrArg (engine.run.attempt >>= ·) (funext fun outcome => ?_)
  cases outcome with
  | error => rfl
  | ok =>
    refine congrArg (Exec.finishRunner runner >>= ·) (funext fun last => ?_)
    cases last <;> rfl

theorem Trait.source (text : String) : trait.Holds (engine.evalSource text) :=
  trait.bind _ (has.parse text) fun lines => trait.program engine has lines

theorem Trait.operation (operation : Operation) : trait.Holds (operation.perform engine) := by
  have dropped : ∀ {α : Type} (step : Exec α), trait.Holds step → trait.Holds (do let _ ← step) := fun _ holds =>
    trait.bind _ holds fun _ => trait.pure ()
  cases operation with
  | evaluate node frame => exact dropped _ (has.evaluate node frame)
  | executeLine node frame => exact dropped _ (trait.execute_line engine has node frame)
  | runBlock lines frame => exact dropped _ (trait.run_block engine has lines frame)
  | invokeScript name lines arguments caller => exact dropped _ (trait.invoke_script engine has name lines arguments caller)
  | call target function arguments frame => exact dropped _ (trait.call engine has target function arguments frame)
  | await task => exact dropped _ (trait.await engine has task)
  | tick => exact dropped _ (trait.tick engine has)
  | run => exact trait.run engine has

theorem Trait.shown (text : String) : trait.Holds (Repl.evalLine engine text) := by
  refine trait.bind _ (trait.source engine has text) fun value => ?_
  split
  · exact trait.pure _
  · exact trait.put _ some (trait.stringify engine has value Arena.root)

end Programs

variable (rules : RuleSet) (has : rules.Has trait) (fuel : Nat)
include has

theorem Script.under_has (script : Script) : trait.Holds (script.under rules fuel) := by
  have engineHas := rules.engine_has trait has fuel
  cases script with
  | text source => exact trait.source _ engineHas source
  | file name content =>
    cases content with
    | none => exact trait.missing
    | some source => exact trait.bind _ (trait.load rules source (some name)) fun lines => trait.program _ engineHas lines

theorem Request.under_has (request : Request) : trait.Holds (request.under rules fuel) := by
  have engineHas := rules.engine_has trait has fuel
  have dropped : ∀ {α : Type} (step : Exec α), trait.Holds step → trait.Holds (do let _ ← step) := fun _ holds =>
    trait.bind _ holds fun _ => trait.pure ()
  cases request with
  | action content => exact dropped _ (trait.perform _ engineHas content)
  | operation content => exact trait.operation _ engineHas content
  | program lines => exact dropped _ (trait.program _ engineHas lines)
  | script content => exact dropped _ (content.under_has trait rules has fuel)
  | line text => exact dropped _ (trait.shown _ engineHas text)

end Requests
end CoopScript
