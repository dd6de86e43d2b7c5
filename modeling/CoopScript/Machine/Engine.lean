import CoopScript.Host.Answer
import CoopScript.Machine.Runner

set_option autoImplicit false
namespace CoopScript

structure Invocation where
  target : Value
  function : Value
  arguments : Bindings
  frame : FrameId

structure Engine where
  fuel : Nat
  parse : String → Exec (List Node)
  evaluate : Node → FrameId → Exec Value
  execute : Node → FrameId → Exec (Option Value)
  native : Native Value → Invocation → Exec Value
  perform : Action → Exec Answer
  body : List Node → FrameId → Exec (Option Value)

namespace Engine

def exhausted : Engine :=
  { fuel := 0
    parse := fun _ => Exec.exhausted
    evaluate := fun _ _ => Exec.exhausted
    execute := fun _ _ => Exec.exhausted
    native := fun _ _ => Exec.exhausted
    perform := fun _ => Exec.exhausted
    body := fun _ _ => Exec.exhausted }

def performAll (engine : Engine) (actions : List Action) : Exec Unit :=
  Exec.each (fun action => do let _ ← engine.perform action) actions

-- Adds to a failure where it passed through: the place, unless it has one, and a note.
def trace (node : Node) (failure : Failure) : Failure :=
  (failure.orPosition node.position?).withNote (.whileExecuting node.describe node.position?)

def executeLine (engine : Engine) (node : Node) (frame : FrameId) : Exec (Option Value) :=
  (engine.execute node frame).mapFailure (trace node)

def step (engine : Engine) (id : RunnerId) : Exec (Unit ⊕ Unit) := do
  if (← Exec.isHalted) || (← Exec.read (·.runnerReturned id)) then return .inr ()
  match ← Exec.read (·.runner? id) with
  | none => return .inr ()
  | some runner =>
    match runner.lines with
    | [] =>
      Exec.modify (·.updateRunner id fun runner => { runner with finished := true })
      return .inr ()
    | node :: rest =>
      Exec.modify (·.updateRunner id fun runner => { runner with lines := rest })
      let value ← engine.executeLine node runner.frame
      Exec.record id value
      return .inl ()

def drive (engine : Engine) (id : RunnerId) : Exec Unit :=
  Exec.iterate (fun _ => engine.step id) engine.fuel ()

-- Runs a block from its first line to its last, to a halt or to its function's result.
def runBlock (engine : Engine) (lines : List Node) (frame : FrameId) : Exec (Option Value) := do
  let id ← Exec.createRunner lines frame
  let outcome ← (engine.drive id).attempt
  let last ← Exec.finishRunner id
  Exec.ofOutcome outcome
  return last

def runBody (engine : Engine) (lines : List Node) (frame : FrameId) : Exec (Option Value) := do
  let _ ← engine.runBlock lines frame
  Exec.takeReturn frame

def runFrame (engine : Engine) (name : String) (lines : List Node) (frame : FrameId) :
    Exec Value := do
  let limit ← Exec.read (·.config.depthLimit)
  if limit ≤ (← Exec.read (·.depth)) then Exec.fail (.depthExceeded limit name)
  Exec.modify fun machine => { machine with depth := machine.depth + 1 }
  let outcome ← (engine.body lines frame).attempt
  Exec.modify fun machine => { machine with depth := machine.depth - 1 }
  match ← Exec.ofOutcome outcome with
  | some value => return value
  | none => Exec.void

def invokeScript (engine : Engine) (name : String) (lines : List Node) (arguments : Bindings)
    (caller : FrameId) : Exec Value := do
  let frame ← Exec.pushFrame caller true arguments
  let outcome ← (engine.runFrame name lines frame).attempt
  Exec.releaseFrame frame
  Exec.ofOutcome outcome

end Engine

-- Calls a script function later: its body waits as a microtask that settles the promise.
def Exec.spawnAsync (name : String) (lines : List Node) (arguments : Bindings) (caller : FrameId) :
    Exec Value := do
  let task ← Exec.createTask
  let frame ← Exec.pushFrame caller true arguments
  Exec.modify fun machine => { machine with asyncFrames := machine.asyncFrames ++ [frame] }
  Exec.enqueueMicrotask (.asyncBody task name lines frame)
  Exec.promise task

-- Hands a job to the pool, which is made when it is first needed, and sees to it that it is asked for what has ended.
-- A job without an outcome panics.
def Exec.spawnBlocking (outcome : Option Scalar) (milliseconds : Nat) : Exec Value := do
  let task ← Exec.createTask
  Exec.modify fun machine =>
    let pool := machine.pool.getD (.ofWorkers machine.config.workers)
    let duration := 1000 * milliseconds + machine.config.latency pool.submitted
    { machine with pool := some (pool.submit machine.clock task outcome duration) }
  if (← Exec.read (·.poolEvent)).isNone then
    let id ← Exec.registerEvent .pollPool
    Exec.modify fun machine => { machine with poolEvent := some id }
  Exec.promise task

end CoopScript
