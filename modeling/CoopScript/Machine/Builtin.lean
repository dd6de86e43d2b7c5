import CoopScript.Machine.Call
import CoopScript.Number.Binary64

set_option autoImplicit false
namespace CoopScript

def TaskState.word : Option TaskState → String
  | some .pending => "pending"
  | some (.ready _) => "ready"
  | some .consumed => "consumed"
  | none => "consumed"

namespace Engine

def promiseText (invocation : Invocation) : Exec Value := do
  let state ← Exec.read fun machine => invocation.target.task?.bind machine.tasks.state?
  Exec.text ("<promise " ++ TaskState.word state ++ ">")

def texts (engine : Engine) (values : List Value) (frame : FrameId) : Exec (List String) :=
  Exec.collect (fun value => engine.stringify value frame) values

def print (engine : Engine) (invocation : Invocation) : Exec Value := do
  let words ← engine.texts invocation.arguments.values invocation.frame
  Exec.writeLine (String.intercalate " " words)
  Exec.void

def sleep (invocation : Invocation) : Exec Value :=
  match ((invocation.arguments.find? "ms").bind Value.number?).bind Number.floor? with
  | some milliseconds => Exec.spawnBlocking (some .void) milliseconds
  | none => Exec.fail .badDuration

def runBuiltin (engine : Engine) (code : Builtin) (invocation : Invocation) : Exec Value :=
  let target := invocation.target
  let items := target.items?.getD []
  match code with
  | .objectText => do Exec.text ("<" ++ (← Exec.nameOf target) ++ ">")
  | .objectTruth => Exec.flag true
  | .functionText =>
    match target.function? with
    | some function => Exec.text ("<fn " ++ function.name ++ ">")
    | none => Exec.text "<fn>"
  | .voidText => Exec.text "void"
  | .voidTruth => Exec.flag false
  | .numberText => Exec.text ((target.number?.map Number.text).getD "")
  | .stringText => pure target
  | .stringLength => Exec.number (Float.ofNat (target.text?.getD "").length)
  | .booleanText => Exec.text (if target.flag?.getD false then "true" else "false")
  | .booleanTruth => Exec.flag (target.flag?.getD false)
  | .arrayText => do
    let words ← engine.texts items invocation.frame
    Exec.text ("[" ++ String.intercalate ", " words ++ "]")
  | .arrayTruth => Exec.flag !items.isEmpty
  | .arrayLength => Exec.number (Float.ofNat items.length)
  | .promiseText => promiseText invocation
  | .print => engine.print invocation
  | .exit => do
    Exec.halt
    Exec.void
  | .sleep => sleep invocation

def echoEntry (engine : Engine) (frame : FrameId) (entry : String × Value) : Exec String := do
  return entry.1 ++ "=" ++ (← engine.stringify entry.2 frame)

def runBehaviour (engine : Engine) (code : Behaviour Value) (invocation : Invocation) :
    Exec Value :=
  match code with
  | .const value => pure value
  | .target => pure invocation.target
  | .function => pure invocation.function
  | .argument name =>
    match invocation.arguments.find? name with
    | some value => pure value
    | none => Exec.void
  | .arguments => Exec.array invocation.arguments.values
  | .echo => do
    let words ← Exec.collect (engine.echoEntry invocation.frame) invocation.arguments.entries
    Exec.text (String.intercalate "," words)
  | .apply name =>
    match invocation.arguments.find? name with
    | some function => engine.invoke function function .empty invocation.frame
    | none => Exec.void
  | .perform actions => do
    engine.performAll actions
    Exec.void
  | .fail kind message => Exec.fail (.raised kind message)

def runNative (engine : Engine) (code : Native Value) (invocation : Invocation) : Exec Value :=
  match code with
  | .builtin code => engine.runBuiltin code invocation
  | .behaviour code => engine.runBehaviour code invocation

end Engine

def Machine.prelude (machine : Machine) : Machine :=
  let classes := machine.classes
  let identity := machine.nextIdentity
  let names :=
    [("print", classes.builtin identity "print" .variadic .print),
     ("exit", classes.builtin (identity + 1) "exit" (.named []) .exit),
     ("sleep", classes.builtin (identity + 2) "sleep" (.named ["ms"]) .sleep),
     ("true", classes.flag true),
     ("false", classes.flag false)]
  let bind (arena : Arena) (entry : String × Value) : Arena :=
    match arena.setVariable Arena.root entry.1 entry.2 with
    | .ok arena => arena
    | .error _ => arena
  { machine with frames := names.foldl bind machine.frames, nextIdentity := identity + 3 }

end CoopScript
