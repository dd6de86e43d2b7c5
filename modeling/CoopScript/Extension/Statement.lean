import CoopScript.Rule.Statement

set_option autoImplicit false
namespace CoopScript.Extension

def parseUnless (reader : Reader) : Parse Node := do
  let position := (← Parse.take).position
  let condition ← StatementForm.condition reader
  return .branch "unless" position condition (← reader.body) none

def runUnless (engine : Engine) (node : Node) (frame : FrameId) : Exec (Option Value) :=
  match node with
  | .branch _ _ condition lines _ => do
    let value ← engine.evaluate condition frame
    if !(← engine.truthy value frame) then
      let _ ← engine.runBlock lines frame
    return none
  | _ => pure none

def unlessRule : StatementRule :=
  { name := "unless", applies := (·.isWord "unless"), parse := parseUnless, run := runUnless }

-- Takes over the running of `while`; the value of the body is the value of the line.
def runOnce (engine : Engine) (node : Node) (frame : FrameId) : Exec (Option Value) :=
  match node with
  | .loop _ _ condition body => do
    let value ← engine.evaluate condition frame
    if ← engine.truthy value frame then engine.runBlock body frame else return none
  | _ => pure none

def whileOnceRule : StatementRule :=
  { name := "while", applies := fun _ => false, parse := StatementForm.parseWhile, run := runOnce }

end CoopScript.Extension
