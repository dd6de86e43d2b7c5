import CoopScript.Proofs.Conduct.Language
import CoopScript.Proofs.Fault.Reading
import CoopScript.Proofs.Work.Schedule

set_option autoImplicit false
namespace CoopScript

theorem Cause.own_once (cause : Cause) (own : cause.isInternal = false) : cause.isTwice = false := by
  cases cause <;> first | rfl | cases own

namespace Conduct

theorem told_writes : told.Writes where
  function _ _ _ _ := Exec.told_function _ fun _ native => by cases native
  setVariable := Exec.told_set_variable _
  setReturn := Exec.told_set_return _
  isUnwinding := Exec.told_is_unwinding _

end Conduct

theorem Exec.told_operate (op : BinaryOp) (left right : Value) (leftMild : left.Mild) (rightMild : right.Mild) :
    (operate op left right).Told Value.Mild := by
  have keeps : Conduct.told.Keeps () Arena.root (operate op left right) _ := Conduct.told.operate leftMild rightMild op
  exact keeps

namespace Engine
variable (engine : Engine) (told : engine.Told)
include told

theorem guided : Conduct.told.Guides engine engine where
  fuel := rfl
  evaluate _ := told.evaluate
  native _ code invocation mild suits := told.native code invocation mild ⟨suits.target, suits.function, suits.arguments⟩
  actions _ _ actions mild := engine.told_perform_all told actions ((mild _ rfl).actions actions rfl)
  script _ := engine.told_invoke_script told
  await _ _ := engine.told_await told

theorem told_blocks : Conduct.told.Blocks engine engine := fun _ => engine.told_run_block told

theorem told_invoke (target function : Value) (arguments : Bindings) (frame : FrameId) (targetMild : target.Mild)
    (mild : function.Mild) (argumentsMild : arguments.All Value.Mild) :
    (engine.invoke target function arguments frame).Told Value.Mild := by
  have keeps : Conduct.told.Keeps () frame _ _ :=
    (engine.guided told).invoke target function arguments targetMild mild argumentsMild
  exact keeps

theorem told_run_native (code : Native Value) (invocation : Invocation) (codeMild : code.Mild) (mild : invocation.Mild) :
    (engine.runNative code invocation).Told Value.Mild := by
  have suits : Conduct.told.Suits () invocation := ⟨mild.target, mild.function, mild.arguments⟩
  exact (engine.guided told).run_native code invocation codeMild suits

theorem told_bind_arguments (function : String) (parameters : Parameters) (arguments : List Node) (frame : FrameId) :
    (engine.bindArguments function parameters arguments frame).Told fun bindings => bindings.All Value.Mild := by
  have keeps : Conduct.told.Keeps () frame _ _ := (engine.guided told).bind_arguments function parameters arguments
  exact keeps

theorem told_call (target function : Value) (arguments : List Node) (frame : FrameId) (targetMild : target.Mild)
    (mild : function.Mild) : (engine.call target function arguments frame).Told Value.Mild := by
  have keeps : Conduct.told.Keeps () frame _ _ := (engine.guided told).call target function arguments targetMild mild
  exact keeps

theorem told_stringify (value : Value) (frame : FrameId) (mild : value.Mild) :
    (engine.stringify value frame).Told fun _ => True := by
  have keeps : Conduct.told.Keeps () frame _ _ := (engine.guided told).stringify value mild
  exact keeps

theorem told_truthy (value : Value) (frame : FrameId) (mild : value.Mild) :
    (engine.truthy value frame).Told fun _ => True := by
  have keeps : Conduct.told.Keeps () frame _ _ := (engine.guided told).truthy value mild
  exact keeps

end Engine

namespace RuleSet
variable (engine : Engine) (told : engine.Told) (node : Node) (frame : FrameId)

section Nodes
include told

theorem told_evaluate : (standard.evaluate engine node frame).Told Value.Mild :=
  (Conduct.standard_evaluates (engine.guided told)).keeps () node frame

theorem told_execute : (standard.execute engine node frame).Told GivenMild :=
  (Conduct.standard_executes (engine.guided told) Conduct.told_writes (engine.told_blocks told).nests).keeps
    (Conduct.standard_evaluates (engine.guided told)) () node frame

end Nodes

theorem told_load (source : String) (file : Option String) : (standard.load source file).Told fun _ => True := by
  unfold load
  cases read : standard.parse source file with
  | none => exact Exec.told_exhausted
  | some program =>
    cases program with
    | ok nodes => exact Exec.told_pure nodes trivial
    | error diagnostic =>
      refine Exec.told_raise (.fault diagnostic) ?_
      rintro cause ⟨_, same, rfl⟩
      cases same
      exact diagnostic.cause.own_once (refused_fair source file diagnostic read)

end RuleSet
end CoopScript
