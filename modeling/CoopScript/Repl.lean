import CoopScript.Interpreter
import CoopScript.Text.Blank

set_option autoImplicit false
namespace CoopScript.Repl

def evalLine (engine : Engine) (line : String) : Exec (Option String) := do
  let value ← engine.evalSource line
  if value.isVoid then return none
  return some (← engine.render value)

structure Transcript where
  output : Array String
  errors : Array String

def isFarewell (line : String) : Bool := line = ":quit" || line = ":exit"

def printed (machine : Machine) (size : Nat) : Array String := machine.output.extract size

-- What the reader of lines makes of a line that was typed is `edited`.
def runLines (edited : List Char → List Char) (engine : Engine) : List String → Transcript → Machine → Transcript
  | [], shown, _ => shown
  | line :: rest, shown, machine =>
    let line := String.ofList (Text.trim (edited line.toList))
    if isFarewell line then shown
    else if line.isEmpty then runLines edited engine rest shown machine
    else
      let size := machine.output.size
      match evalLine engine line machine with
      | .outOfFuel => shown
      | .failed failure machine =>
        let shown : Transcript :=
          ⟨shown.output ++ printed machine size, shown.errors.push failure.text⟩
        if machine.halted then shown else runLines edited engine rest shown machine
      | .done value machine =>
        let shown : Transcript :=
          ⟨shown.output ++ printed machine size ++ value.toArray, shown.errors⟩
        if machine.halted then shown else runLines edited engine rest shown machine

end CoopScript.Repl
