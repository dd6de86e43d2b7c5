import CoopScript.Grammar.Expression
import CoopScript.Machine.Scheduler
import CoopScript.Rule.Basic
import CoopScript.Rule.Operation

set_option autoImplicit false
namespace CoopScript.ExpressionRule

-- Waiting for anything but a promise gives it back.
def runAwait (engine : Engine) (node : Node) (frame : FrameId) : Exec Value :=
  match node with
  | .await _ _ operand => do
    let value ← engine.evaluate operand frame
    match value.task? with
    | some task => engine.await task
    | none => return value
  | other => Exec.unexpectedShape other

-- A member that is called at once has the value it was taken from as its target.
def runBracket (engine : Engine) (node : Node) (frame : FrameId) : Exec Value :=
  match node with
  | .group _ _ inner => engine.evaluate inner frame
  | .call _ _ (.access _ _ object member) arguments => do
    let target ← engine.evaluate object frame
    let function ← Exec.memberOf target member
    engine.call target function arguments frame
  | .call _ _ callee arguments => do
    let function ← engine.evaluate callee frame
    engine.call function function arguments frame
  | other => Exec.unexpectedShape other

def runArray (engine : Engine) (node : Node) (frame : FrameId) : Exec Value :=
  match node with
  | .array _ _ items => do
    Exec.array (← Exec.collect (fun item => engine.evaluate item frame) items)
  | .index _ _ object place => do
    let object ← engine.evaluate object frame
    let place ← engine.evaluate place frame
    Exec.itemAt object place
  | other => Exec.unexpectedShape other

def runAccess (engine : Engine) (node : Node) (frame : FrameId) : Exec Value :=
  match node with
  | .access _ _ object member => do
    Exec.memberOf (← engine.evaluate object frame) member
  | other => Exec.unexpectedShape other

def runUnary (engine : Engine) (node : Node) (frame : FrameId) : Exec Value :=
  match node with
  | .unary _ _ op operand => do
    let value ← engine.evaluate operand frame
    match op with
    | .not => Exec.flag !(← engine.truthy value frame)
    | .negate =>
      match value.number? with
      | some x => Exec.number (-x)
      | none => Exec.fail (.notNegatable (← Exec.nameOf value))
  | other => Exec.unexpectedShape other

-- Operators that a left operand may decide give that operand, or else the right one.
def runBinary (engine : Engine) (node : Node) (frame : FrameId) : Exec Value :=
  match node with
  | .binary _ _ op left right => do
    let left ← engine.evaluate left frame
    match op with
    | .both => if ← engine.truthy left frame then engine.evaluate right frame else return left
    | .either => if ← engine.truthy left frame then return left else engine.evaluate right frame
    | _ =>
      let right ← engine.evaluate right frame
      Exec.operate op left right
  | other => Exec.unexpectedShape other

def runAssign (engine : Engine) (node : Node) (frame : FrameId) : Exec Value :=
  match node with
  | .assign _ _ target value => do
    let value ← engine.evaluate value frame
    Exec.assign frame target value
    return value
  | other => Exec.unexpectedShape other

def silent (form : ExpressionForm) : ExpressionRule := { form with runs := [], run? := none }

def running (form : ExpressionForm) (runs : List String)
    (run : Engine → Node → FrameId → Exec Value) : ExpressionRule :=
  { form with runs := runs, run? := some run }

def binary (form : ExpressionForm) : ExpressionRule := running form ["binary"] runBinary

def standard : List ExpressionRule :=
  [silent .text,
   silent .number,
   running .await ["await"] runAwait,
   silent .reference,
   running .bracket ["group", "call"] runBracket,
   running .array ["array", "index"] runArray,
   running .access ["access"] runAccess,
   running .unary ["unary"] runUnary,
   binary .either,
   binary .both,
   binary .equality,
   binary .comparison,
   binary .term,
   binary .factor,
   running .assign ["assign"] runAssign]

end CoopScript.ExpressionRule
