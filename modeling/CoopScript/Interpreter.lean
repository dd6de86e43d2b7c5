import CoopScript.Host.Perform
import CoopScript.Machine.Builtin
import CoopScript.Rule.Standard

set_option autoImplicit false
namespace CoopScript

namespace RuleSet

def engine (rules : RuleSet) : Nat → Engine
  | 0 => .exhausted
  | fuel + 1 =>
    { fuel := fuel + 1
      parse := fun source => rules.load source none
      evaluate := fun node frame machine => rules.evaluate (rules.engine fuel) node frame machine
      execute := fun node frame machine => rules.execute (rules.engine fuel) node frame machine
      native := fun code invocation machine =>
        (rules.engine fuel).runNative code invocation machine
      perform := fun action machine => (rules.engine fuel).performAction action machine
      body := fun lines frame machine => (rules.engine fuel).runBody lines frame machine }

end RuleSet

namespace Engine

-- Runs a program in the outermost frame and gives the value of its last line that had one. A failed run leaves no
-- work behind.
def evalProgram (engine : Engine) (lines : List Node) : Exec Value := do
  Exec.clearHalt
  let runner ← Exec.loadProgram lines Arena.root
  match ← engine.run.attempt with
  | .error failure =>
    Exec.reset
    Exec.raise failure
  | .ok () =>
    match ← Exec.finishRunner runner with
    | some value => return value
    | none => Exec.void

def evalSource (engine : Engine) (source : String) : Exec Value := do
  engine.evalProgram (← engine.parse source)

def render (engine : Engine) (value : Value) : Exec String := engine.stringify value Arena.root

end Engine

def RuleSet.evalFile (rules : RuleSet) (fuel : Nat) (name : String) (content : Option String) :
    Exec Value := do
  match content with
  | none => Exec.raise .missingFile
  | some source => (rules.engine fuel).evalProgram (← rules.load source (some name))

def Machine.start (config : Config) : Machine := (Machine.initial config).prelude

end CoopScript
