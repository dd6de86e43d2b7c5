import CoopScript.Machine.Memory

set_option autoImplicit false
namespace CoopScript

namespace Machine

def runner? (machine : Machine) (id : RunnerId) : Option Runner :=
  (machine.runners.find? fun entry => entry.1 = id).map Prod.snd

def updateRunner (machine : Machine) (id : RunnerId) (change : Runner → Runner) : Machine :=
  { machine with
    runners := machine.runners.map fun entry =>
      if entry.1 = id then (entry.1, change entry.2) else entry }

-- Takes an entry out and puts the last one into its place.
def swapErase (id : RunnerId) (runners : List (RunnerId × Runner)) : List (RunnerId × Runner) :=
  match runners.findIdx? fun entry => entry.1 = id, runners.getLast? with
  | some place, some last => (runners.set place last).dropLast
  | _, _ => runners

def runnerReturned (machine : Machine) (id : RunnerId) : Bool :=
  match (machine.runner? id).bind Runner.functionFrame with
  | some frame => machine.frames.hasReturned frame
  | none => false

def isFinished (machine : Machine) (id : RunnerId) : Bool :=
  match machine.runner? id with
  | some runner => runner.finished
  | none => true

end Machine

namespace Exec

def createRunner (lines : List Node) (frame : FrameId) : Exec RunnerId := do
  retainFrame frame
  let functionFrame ← askFrames (·.functionFrame frame)
  fun machine =>
    let id : RunnerId := ⟨machine.runnerCount + 1⟩
    .done id
      { machine.pass Machine.blockTime with
        runnerCount := machine.runnerCount + 1
        runners := machine.runners ++ [(id, ⟨frame, functionFrame, lines, none, false⟩)] }

-- Drops a runner and gives the value of its last line that had one.
def finishRunner (id : RunnerId) : Exec (Option Value) := do
  match ← read (·.runner? id) with
  | none => return none
  | some runner =>
    modify fun machine => { machine with runners := Machine.swapErase id machine.runners }
    releaseFrame runner.frame
    return runner.last

def record (id : RunnerId) : Option Value → Exec Unit
  | some value => modify (·.updateRunner id fun runner => { runner with last := some value })
  | none => pure ()

-- Queues a runner's next line; a runner with none left, or whose function has its result, is marked as finished.
def advance (id : RunnerId) : Exec Unit := do
  let returned ← read (·.runnerReturned id)
  match ← read (·.runner? id) with
  | none => return
  | some runner =>
    match if returned then [] else runner.lines with
    | [] => modify (·.updateRunner id fun runner => { runner with lines := [], finished := true })
    | node :: rest =>
      modify (·.updateRunner id fun runner => { runner with lines := rest })
      enqueueLine ⟨node, id, runner.frame⟩

def loadProgram (lines : List Node) (frame : FrameId) : Exec RunnerId := do
  let id ← createRunner lines frame
  advance id
  return id

end Exec
end CoopScript
