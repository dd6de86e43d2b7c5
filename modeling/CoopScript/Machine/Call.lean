import CoopScript.Machine.Engine

set_option autoImplicit false
namespace CoopScript

structure Binding where
  bound : Bindings
  position : Nat
  keywordSeen : Bool

namespace Binding

def start : Binding := ⟨.empty, 0, false⟩

-- The name under which the next argument goes, and the node of its value.
def place (binding : Binding) (function : String) (parameters : Parameters) (argument : Node) :
    Except Cause (String × Node) :=
  match argument.assignment? with
  | some (name, value) =>
    let known := match parameters with
      | .named names => names.contains name
      | .variadic => true
    if !known then .error (.unknownArgument name function)
    else if binding.bound.contains name then .error (.repeatedArgument name function)
    else .ok (name, value)
  | none =>
    if binding.keywordSeen then .error (.positionalAfterKeyword function)
    else
      match parameters with
      | .named names =>
        match names[binding.position]? with
        | some name => .ok (name, argument)
        | none => .error (.tooManyArguments function names.length)
      | .variadic => .ok (toString binding.position, argument)

def add (binding : Binding) (argument : Node) (name : String) (value : Value) : Binding :=
  match argument.assignment? with
  | some _ => { binding with bound := binding.bound.insert name value, keywordSeen := true }
  | none =>
    { binding with bound := binding.bound.insert name value, position := binding.position + 1 }

-- Parameters without an argument are bound to void, so that no outer variable shows through.
def fill (void : Value) (parameters : Parameters) (bound : Bindings) : Bindings :=
  match parameters with
  | .named names =>
    names.foldl (fun bound name => if bound.contains name then bound else bound.insert name void)
      bound
  | .variadic => bound

end Binding

namespace Engine

def bindAll (engine : Engine) (function : String) (parameters : Parameters) (frame : FrameId) :
    Binding → List Node → Exec Bindings
  | binding, [] => pure binding.bound
  | binding, argument :: rest =>
    match binding.place function parameters argument with
    | .error cause =>
      match argument.position? with
      | some position => Exec.failAt cause position
      | none => Exec.fail cause
    | .ok (name, node) => do
      let value ← engine.evaluate node frame
      engine.bindAll function parameters frame (binding.add argument name value) rest

def bindArguments (engine : Engine) (function : String) (parameters : Parameters)
    (arguments : List Node) (frame : FrameId) : Exec Bindings := do
  let bound ← engine.bindAll function parameters frame .start arguments
  let void ← Exec.void
  return Binding.fill void parameters bound

-- What the function class's own hook does: the code of a native, the body of a script function.
def callFunction (engine : Engine) (invocation : Invocation) : Exec Value :=
  match invocation.function.function? with
  | none => Exec.fail .noBody
  | some function =>
    match function.body with
    | .native code => engine.native code invocation
    | .script lines =>
      if function.isAsync then
        Exec.spawnAsync function.name lines invocation.arguments invocation.frame
      else engine.invokeScript function.name lines invocation.arguments invocation.frame

def invoke (engine : Engine) (target function : Value) (arguments : Bindings) (frame : FrameId) :
    Exec Value :=
  match function.hidden? callHook with
  | some (.hook .standard) => engine.callFunction ⟨target, function, arguments, frame⟩
  | some (.hook (.behaviour code)) =>
    engine.native (.behaviour code) ⟨target, function, arguments, frame⟩
  | _ => do Exec.fail (.noCallHook (← Exec.nameOf function))

def call (engine : Engine) (target function : Value) (arguments : List Node) (frame : FrameId) :
    Exec Value := do
  let className ← Exec.nameOf function
  if !(← Exec.read (·.classes.isFunction function)) then Exec.fail (.notCallable className)
  let (name, parameters) := match function.function? with
    | some data => (data.name, data.parameters)
    | none => (className, .variadic)
  let bindings ← engine.bindArguments name parameters arguments frame
  engine.invoke target function bindings frame

def stringify (engine : Engine) (value : Value) (frame : FrameId) : Exec String := do
  match value.member? "__str__" with
  | none => return "<" ++ (← Exec.nameOf value) ++ ">"
  | some method =>
    let result ← engine.invoke value method .empty frame
    match result.text? with
    | some text => return text
    | none => Exec.fail (.badText (← Exec.nameOf value) (← Exec.nameOf result))

def truthy (engine : Engine) (value : Value) (frame : FrameId) : Exec Bool := do
  match value.flag?, value.member? "__bool__" with
  | some flag, _ => return flag
  | none, none => return true
  | none, some method =>
    let result ← engine.invoke value method .empty frame
    match result.flag? with
    | some flag => return flag
    | none => Exec.fail (.badTruth (← Exec.nameOf value) (← Exec.nameOf result))

end Engine
end CoopScript
