import CoopScript.Grammar.Statement
import CoopScript.Rule.Basic

set_option autoImplicit false
namespace CoopScript.StatementRule

def runFunction (_ : Engine) (node : Node) (frame : FrameId) : Exec (Option Value) :=
  match node with
  | .function _ _ name parameters isAsync body => do
    let function ← Exec.function ⟨name, .named parameters, .script body, isAsync⟩
    Exec.setVariable frame name function
    return none
  | other => Exec.unexpectedShape other

def runReturn (engine : Engine) (node : Node) (frame : FrameId) : Exec (Option Value) :=
  match node with
  | .giveBack _ _ value => do
    let value ← match value with
      | some value => engine.evaluate value frame
      | none => Exec.void
    Exec.setReturn frame value
    return none
  | other => Exec.unexpectedShape other

def runIf (engine : Engine) (node : Node) (frame : FrameId) : Exec (Option Value) :=
  match node with
  | .branch _ _ condition whenTrue whenFalse => do
    let value ← engine.evaluate condition frame
    if ← engine.truthy value frame then
      let _ ← engine.runBlock whenTrue frame
    else
      match whenFalse with
      | some lines => let _ ← engine.runBlock lines frame
      | none => pure ()
    return none
  | other => Exec.unexpectedShape other

def loopStep (engine : Engine) (condition : Node) (body : List Node) (frame : FrameId) :
    Exec (Unit ⊕ Option Value) := do
  if ← Exec.isUnwinding frame then return .inr none
  let value ← engine.evaluate condition frame
  if !(← engine.truthy value frame) then return .inr none
  let _ ← engine.runBlock body frame
  return .inl ()

def runWhile (engine : Engine) (node : Node) (frame : FrameId) : Exec (Option Value) :=
  match node with
  | .loop _ _ condition body =>
    Exec.iterate (fun _ => loopStep engine condition body frame) engine.fuel ()
  | other => Exec.unexpectedShape other

def runBlock (engine : Engine) (node : Node) (frame : FrameId) : Exec (Option Value) :=
  match node with
  | .block _ _ body => do
    let _ ← engine.runBlock body frame
    return none
  | _ => pure none

def standard : List StatementRule :=
  [{ StatementForm.function with run := runFunction },
   { StatementForm.giveBack with run := runReturn },
   { StatementForm.branch with run := runIf },
   { StatementForm.loop with run := runWhile },
   { StatementForm.block with run := runBlock }]

end CoopScript.StatementRule
