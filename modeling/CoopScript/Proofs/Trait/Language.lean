import CoopScript.Proofs.Conduct.Language
import CoopScript.Proofs.Conduct.Schedule
import CoopScript.Proofs.Trait.Basic

set_option autoImplicit false
namespace CoopScript

structure Engine.Has (engine : Engine) (trait : Trait) : Prop where
  parse : ∀ source, trait.Holds (engine.parse source)
  evaluate : ∀ node frame, trait.Holds (engine.evaluate node frame)
  execute : ∀ node frame, trait.Holds (engine.execute node frame)
  native : ∀ code invocation, trait.Holds (engine.native code invocation)
  perform : ∀ action, trait.Holds (engine.perform action)
  body : ∀ lines frame, trait.Holds (engine.body lines frame)

namespace Trait
variable (trait : Trait)

-- As a conduct a trait asks nothing of values and looks at one engine only.
def conduct : Conduct where
  World := Unit
  Grows _ _ := True
  still _ := trivial
  grow _ _ := trivial
  Good _ _ := True
  Admits _ := True
  more _ _ := trivial
  member _ _ _ _ := trivial
  items _ _ _ _ _ := trivial
  native _ _ _ _ _ := trivial
  hook _ _ _ := trivial
  constant _ _ := trivial
  Keeps _ _ step _ := trait.Holds step
  pure value _ := trait.pure value
  bind next _ holds later := trait.bind next holds fun value => later () value trivial (Valued.always value)
  exhausted := trait.exhausted
  refuse cause place _ := by
    cases place with
    | none => exact trait.fail cause
    | some position => exact trait.failAt cause position
  misplaced engine _ function parameters binding argument rest cause :=
    trait.misplaced engine function parameters _ binding argument rest cause
  placed rules engine _ node step _ position here evaluates _ := trait.placed rules engine node _ step position here evaluates
  look view next _ later := trait.given _ next later
  scalar _ := trait.read _
  array items _ := trait.array items
  lookUp _ := trait.ask _
  assign _ _ _ := trait.update _
  writeLine _ := trait.modify _ fun _ => ⟨rfl, Nat.le_refl _⟩
  halt := trait.modify _ fun _ => ⟨rfl, Nat.le_refl _⟩
  spawnBlocking outcome := trait.spawn_blocking (some outcome)
  spawnAsync name lines arguments _ := trait.spawn name lines arguments _

theorem writes : trait.conduct.Writes where
  function _ _ _ _ := trait.function _
  setVariable _ _ _ := trait.update _
  setReturn _ _ := trait.update _
  isUnwinding := trait.is_unwinding _

theorem machinery : trait.conduct.Machinery where
  seen view next _ later := trait.given view next later
  tooDeep _ _ := trait.fail _
  unsettled := trait.fail _
  guard _ next reraises holds cleanups laters := trait.guard _ next reraises holds (fun _ => cleanups ()) fun result value =>
    laters () result value (Valued.always result) (Valued.always value)
  quiet change quiet := trait.modify change fun machine => by
    obtain ⟨_, _, _, same⟩ := quiet machine
    rw [same]
    exact ⟨rfl, Nat.le_refl _⟩
  push _ _ _ := trait.change _
  release := trait.release
  takeReturn _ := trait.change _
  createRunner := trait.create_runner
  updateRunner id change _ := trait.update_runner id change
  record id value _ := trait.record id value
  advance := trait.advance
  finishRunner := trait.finish_runner
  consume := trait.consume_task

theorem operate (left : Value) (op : BinaryOp) (right : Value) : trait.Holds (Exec.operate op left right) := by
  have keeps : trait.conduct.Keeps () Arena.root (Exec.operate op left right) _ := trait.conduct.operate trivial trivial op
  exact keeps

theorem exhausted_has : Engine.exhausted.Has trait := by
  constructor <;> intros <;> exact trait.exhausted

section Engines
variable (engine : Engine) (has : engine.Has trait)
include has

theorem perform_all (actions : List Action) : trait.Holds (engine.performAll actions) :=
  trait.each _ actions fun action =>
    trait.bind _ (has.perform action) fun _ => trait.pure ()

theorem execute_line (node : Node) (frame : FrameId) : trait.Holds (engine.executeLine node frame) :=
  trait.line engine node frame (has.execute node frame)

theorem drives : trait.conduct.Drives engine engine where
  fuel := rfl
  line := trait.execute_line engine has
  body := has.body

theorem run_block (lines : List Node) (frame : FrameId) : trait.Holds (engine.runBlock lines frame) :=
  (trait.drives engine has).run_block trait.machinery () frame lines frame

theorem run_body (lines : List Node) (frame : FrameId) : trait.Holds (engine.runBody lines frame) :=
  (trait.drives engine has).run_body trait.machinery () frame lines frame

theorem run_frame (name : String) (lines : List Node) (frame : FrameId) :
    trait.Holds (engine.runFrame name lines frame) :=
  (trait.drives engine has).run_frame trait.machinery () frame name lines frame

theorem invoke_script (name : String) (lines : List Node) (arguments : Bindings) (caller : FrameId) :
    trait.Holds (engine.invokeScript name lines arguments caller) :=
  (trait.drives engine has).invoke_script trait.machinery () caller name lines arguments caller fun _ _ => trivial

section Scheduler

theorem run_microtask (task : Microtask) : trait.Holds (engine.runMicrotask task) := by
  cases task with
  | asyncBody task name lines frame =>
    refine trait.bind _ (trait.modify _ fun _ => ⟨rfl, Nat.le_refl _⟩) fun _ => ?_
    exact trait.guard _ _ (fun _ _ => rfl) (trait.run_frame engine has name lines frame) (fun _ => trait.release frame)
      fun _ value => trait.settle_task task value
  | settle task value => exact trait.given _ _ fun value => trait.settle_task task value
  | panicked task => exact trait.fail _
  | host actions => exact trait.perform_all engine has actions

theorem run_event (event : Microevent) : trait.Holds (engine.runEvent event) := by
  cases event with
  | pollPool => exact trait.poll_pool
  | host turns next =>
    simp only [Engine.runEvent]
    split
    exact trait.bind _ (trait.perform_all engine has _) fun _ => trait.pure _

theorem service_events (report : TickReport) : trait.Holds (engine.serviceEvents report) :=
  trait.serve engine (trait.run_event engine has) report

theorem serves : trait.conduct.Serves engine engine where
  toDrives := trait.drives engine has
  drain := trait.drain engine (trait.run_microtask engine has)
  events := trait.service_events engine has

theorem drain_microtasks (report : TickReport) : trait.Holds (engine.drainMicrotasks report) :=
  (trait.serves engine has).drain_microtasks () Arena.root report

theorem tick : trait.Holds engine.tick := (trait.serves engine has).tick trait.machinery () Arena.root

theorem run : trait.Holds engine.run := (trait.serves engine has).run trait.machinery () Arena.root

theorem await (task : TaskId) : trait.Holds (engine.await task) :=
  (trait.serves engine has).await trait.machinery () Arena.root task

end Scheduler

theorem guides : trait.conduct.Guides engine engine where
  fuel := rfl
  evaluate _ := has.evaluate
  native _ code invocation _ _ := has.native code invocation
  actions _ _ actions _ := trait.perform_all engine has actions
  script _ name lines arguments caller _ := trait.invoke_script engine has name lines arguments caller
  await _ _ := trait.await engine has

theorem blocks : trait.conduct.Blocks engine engine := fun _ => trait.run_block engine has

theorem run_native (code : Native Value) (invocation : Invocation) : trait.Holds (engine.runNative code invocation) := by
  have suits : trait.conduct.Suits () invocation := ⟨trivial, trivial, fun _ _ => trivial⟩
  exact (trait.guides engine has).run_native code invocation trivial suits

theorem invoke (target function : Value) (arguments : Bindings) (frame : FrameId) :
    trait.Holds (engine.invoke target function arguments frame) := by
  have keeps : trait.conduct.Keeps () frame _ _ :=
    (trait.guides engine has).invoke target function arguments trivial trivial fun _ _ => trivial
  exact keeps

theorem call (target function : Value) (arguments : List Node) (frame : FrameId) :
    trait.Holds (engine.call target function arguments frame) := by
  have keeps : trait.conduct.Keeps () frame _ _ := (trait.guides engine has).call target function arguments trivial trivial
  exact keeps

theorem bind_arguments (function : String) (parameters : Parameters) (arguments : List Node) (frame : FrameId) :
    trait.Holds (engine.bindArguments function parameters arguments frame) := by
  have keeps : trait.conduct.Keeps () frame _ _ := (trait.guides engine has).bind_arguments function parameters arguments
  exact keeps

theorem stringify (value : Value) (frame : FrameId) : trait.Holds (engine.stringify value frame) := by
  have keeps : trait.conduct.Keeps () frame _ _ := (trait.guides engine has).stringify value trivial
  exact keeps

theorem truthy (value : Value) (frame : FrameId) : trait.Holds (engine.truthy value frame) := by
  have keeps : trait.conduct.Keeps () frame _ _ := (trait.guides engine has).truthy value trivial
  exact keeps

end Engines

end Trait

namespace RuleSet

-- Rules that run nodes in steps that have the trait, on engines that have it.
structure Has (rules : RuleSet) (trait : Trait) : Prop where
  statement : ∀ rule ∈ rules.statements, ∀ engine : Engine, engine.Has trait → ∀ node frame,
    trait.Holds (rule.run engine node frame)
  expression : ∀ rule ∈ rules.expressions, ∀ run, rule.run? = some run → ∀ engine : Engine, engine.Has trait →
    ∀ node frame, trait.Holds (run engine node frame)

variable (trait : Trait)

theorem customised_has (extensions : List String) (lexRules : List LexRule) :
    (customised extensions lexRules).Has trait where
  statement rule listed engine has node frame :=
    Conduct.customised_executes (trait.guides engine has) extensions lexRules trait.writes (trait.blocks engine has)
      rule listed () node frame
  expression rule listed run runs engine has node frame :=
    Conduct.customised_evaluates (trait.guides engine has) extensions lexRules rule listed run runs () node frame

section Engines
variable (rules : RuleSet) (has : rules.Has trait) (engine : Engine) (engineHas : engine.Has trait)
include has engineHas

theorem evaluate_has (node : Node) (frame : FrameId) : trait.Holds (rules.evaluate engine node frame) := by
  have evaluates : trait.conduct.Evaluates rules engine engine := fun rule listed run runs _ =>
    has.expression rule listed run runs engine engineHas
  exact evaluates.keeps () node frame

theorem execute_has (node : Node) (frame : FrameId) : trait.Holds (rules.execute engine node frame) := by
  have evaluates : trait.conduct.Evaluates rules engine engine := fun rule listed run runs _ =>
    has.expression rule listed run runs engine engineHas
  have executes : trait.conduct.Executes rules engine engine := fun rule listed _ =>
    has.statement rule listed engine engineHas
  exact executes.keeps evaluates () node frame

end Engines

end RuleSet
end CoopScript
