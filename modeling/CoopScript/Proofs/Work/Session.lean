import CoopScript.Proofs.Fault.Session
import CoopScript.Proofs.Stage.Waiting
import CoopScript.Proofs.Work.Host
import CoopScript.Repl

set_option autoImplicit false
namespace CoopScript

theorem Engine.told_program (engine : Engine) (told : engine.Told) (lines : List Node) :
    (engine.evalProgram lines).Told Value.Mild := by
  refine Exec.told_bind _ Exec.told_clear_halt fun _ _ => ?_
  refine Exec.told_bind _ (Exec.told_load lines Arena.root) fun runner _ => ?_
  refine Exec.told_bind _ (Exec.told_attempt (engine.told_run told)) fun outcome known => ?_
  cases outcome with
  | error failure => exact Exec.told_give_up failure (known.2 failure rfl)
  | ok =>
    refine Exec.told_bind _ (Exec.told_finish_runner runner) fun last mild => ?_
    cases last with
    | some value => exact Exec.told_pure value (mild value rfl)
    | none => exact Exec.told_void

theorem Engine.told_source (engine : Engine) (told : engine.Told) (source : String) :
    (engine.evalSource source).Told Value.Mild :=
  Exec.told_bind _ (told.parse source) fun lines _ => engine.told_program told lines

theorem Script.told_run (fuel : Nat) (script : Script) : (script.run fuel).Told Value.Mild := by
  have told := RuleSet.told_engine fuel
  cases script with
  | text source => exact Engine.told_source _ told source
  | file name content =>
    cases content with
    | none => exact Exec.told_raise .missingFile fun cause ⟨_, same, _⟩ => by cases same
    | some source =>
      exact Exec.told_bind _ (RuleSet.told_load source (some name)) fun lines _ => Engine.told_program _ told lines

-- What can be asked of a machine.
inductive Request where
  | action (action : Action)
  | operation (operation : Operation)
  | program (lines : List Node)
  | script (script : Script)
  | line (text : String)

namespace Operation

-- The values that are handed over are mild ones.
def Mild : Operation → Prop
  | invokeScript _ _ arguments _ => arguments.All Value.Mild
  | call target function _ _ => target.Mild ∧ function.Mild
  | _ => True

theorem told_perform (operation : Operation) (engine : Engine) (told : engine.Told) (mild : operation.Mild) :
    (operation.perform engine).Told fun _ => True := by
  have dropped : ∀ {α : Type} {good : α → Prop} (step : Exec α), step.Told good →
      Exec.Told (do let _ ← step) fun _ => True := fun step stepTold =>
    Exec.told_bind _ stepTold fun _ _ => Exec.told_pure _ trivial
  cases operation with
  | evaluate node frame => exact dropped _ (told.evaluate node frame)
  | executeLine node frame => exact dropped _ (engine.told_execute_line told node frame)
  | runBlock lines frame => exact dropped _ (engine.told_run_block told lines frame)
  | invokeScript name lines arguments caller =>
    exact dropped _ (engine.told_invoke_script told name lines arguments caller mild)
  | call target function arguments frame =>
    exact dropped _ (engine.told_call told target function arguments frame mild.1 mild.2)
  | await task => exact dropped _ (engine.told_await told task)
  | tick => exact dropped _ (engine.told_tick told)
  | run => exact engine.told_run told

end Operation

namespace Request

def run (fuel : Nat) : Request → Exec Unit
  | action content => do let _ ← (RuleSet.standard.engine fuel).performAction content
  | operation content => content.perform (RuleSet.standard.engine fuel)
  | program lines => do let _ ← (RuleSet.standard.engine fuel).evalProgram lines
  | script content => do let _ ← content.run fuel
  | line text => do let _ ← Repl.evalLine (RuleSet.standard.engine fuel) text

-- No task is settled in the host's own name.
def Mild : Request → Prop
  | action content => content.mild = true
  | operation content => content.Mild
  | _ => True

theorem told_run (fuel : Nat) (request : Request) (mild : request.Mild) : (request.run fuel).Told fun _ => True := by
  have told := RuleSet.told_engine fuel
  cases request with
  | action content =>
    exact Exec.told_bind _ (Engine.told_perform _ content told mild) fun _ _ => Exec.told_pure _ trivial
  | operation content => exact content.told_perform _ told mild
  | program lines => exact Exec.told_bind _ (Engine.told_program _ told lines) fun _ _ => Exec.told_pure _ trivial
  | script content => exact Exec.told_bind _ (content.told_run fuel) fun _ _ => Exec.told_pure _ trivial
  | line text =>
    have shown : (Repl.evalLine (RuleSet.standard.engine fuel) text).Told fun _ => True := by
      refine Exec.told_bind _ (Engine.told_source _ told text) fun value valueMild => ?_
      split
      · exact Exec.told_pure _ trivial
      · exact Exec.told_bind _ (Engine.told_stringify _ told value Arena.root valueMild) fun _ _ =>
          Exec.told_pure _ trivial
    exact Exec.told_bind _ shown fun _ _ => Exec.told_pure _ trivial

end Request

/-- All that a machine can have come to since it was started, by one step after the other, in the middle of them too. -/
inductive Chronicle (config : Config) : Moment → Prop where
  | start : Chronicle config ⟨[], [], Machine.start config⟩
  | visit {α : Type} (moment : Moment) (step : Exec α) (place : Moment) (reached : Chronicle config moment)
      (visits : step.Visits moment.machine place) : Chronicle config (moment.since place)

namespace Chronicle
variable (config : Config) (moment : Moment) (reached : Chronicle config moment)
include reached

theorem fine : moment.Fine := by
  induction reached with
  | start => exact Moment.start_fine config
  | visit moment step place _ visits ih => exact moment.visits_fine step place visits ih

theorem ended {α : Type} (step : Exec α) (marks : List Mark) (after : Machine)
    (made : step.Marks moment.machine marks after) : Chronicle config ⟨moment.bodies, moment.log ++ marks, after⟩ :=
  .visit moment step ⟨[], marks, after⟩ reached (.inl ⟨rfl, made⟩)

-- Whatever is asked of the machine, its chronicle goes on.
theorem requested (fuel : Nat) (request : Request) (mild : request.Mild) (after : Machine)
    (left : (request.run fuel moment.machine).Leaves after) :
    ∃ marks, (request.run fuel).Marks moment.machine marks after :=
  Exec.tells_left moment _ after left (request.told_run fuel mild moment (fine config moment reached))

end Chronicle

end CoopScript
