import CoopScript.Proofs.Frame.Kept
import CoopScript.Proofs.Machine.Background
import CoopScript.Proofs.Machine.Registry
import CoopScript.Proofs.Value.Plain
import Mathlib.Logic.Relation

set_option autoImplicit false
namespace CoopScript

/-- A call that is not over. `task` is what its result settles, if it is asynchronous, and `running` is
whether its lines are being run. -/
structure Call where
  frame : FrameId
  task : Option TaskId
  running : Bool

def Call.owner (call : Call) : FrameId × Option TaskId := (call.frame, call.task)

-- `calls` has the innermost call first, and `held` the frames that the host holds, once for each hold.
structure Stage where
  calls : List Call
  held : List FrameId
  machine : Machine

def Microtask.frame? : Microtask → Option FrameId
  | .asyncBody _ _ _ frame => some frame
  | _ => none

namespace Stage

def put (stage : Stage) (machine : Machine) : Stage := { stage with machine := machine }

def owners (stage : Stage) : List FrameId :=
  Arena.root :: (stage.machine.registered.map Prod.snd ++ stage.machine.asyncFrames ++
    stage.calls.map Call.frame ++ stage.held)

end Stage

-- How a block, the run of a function's lines and a call come to their end.
inductive Closing : Stage → Stage → Prop where
  | endRun (frame : FrameId) (task : Option TaskId) (calls : List Call) (held : List FrameId)
      (machine : Machine) :
      Closing ⟨⟨frame, task, true⟩ :: calls, held, machine⟩
        ⟨⟨frame, task, false⟩ :: calls, held, { machine with depth := machine.depth - 1 }⟩
  | closeCall (frame : FrameId) (calls : List Call) (held : List FrameId) (machine after : Machine)
      (released : Exec.releaseFrame frame machine = .done () after) :
      Closing ⟨⟨frame, none, false⟩ :: calls, held, machine⟩ ⟨calls, held, after⟩
  | closeBlock (stage : Stage) (id : RunnerId) (last : Option Value) (after : Machine)
      (finished : Exec.finishRunner id stage.machine = .done last after) :
      Closing stage (stage.put after)

inductive Step : Stage → Stage → Prop where
  | quiet (stage : Stage) (output : Array String) (halted : Bool) (identity clock : Nat)
      (ready : List Line) :
      Step stage (stage.put { stage.machine with
        output := output, halted := halted, nextIdentity := identity, clock := clock, ready := ready })
  | adjust (stage : Stage) (id : RunnerId) (change : Runner → Runner)
      (same : ∀ runner, (change runner).frame = runner.frame) :
      Step stage (stage.put (stage.machine.updateRunner id change))
  | alter (stage : Stage) (id : FrameId) (old frame : Frame)
      (found : stage.machine.frames.frame? id = some old) (sameParent : frame.parent = old.parent)
      (sameKind : frame.isFunction = old.isFunction) (sameHolds : frame.holds = old.holds)
      (plain : frame.Plain) :
      Step stage (stage.put
        { stage.machine with frames := stage.machine.frames.setFrame id.index frame })
  | openCall (stage : Stage) (caller id : FrameId) (arguments : Bindings) (after : Machine)
      (plain : arguments.All Value.Plain)
      (opened : Exec.pushFrame caller true arguments stage.machine = .done id after) :
      Step stage ⟨⟨id, none, false⟩ :: stage.calls, stage.held, after⟩
  | beginRun (frame : FrameId) (task : Option TaskId) (calls : List Call) (held : List FrameId)
      (machine : Machine) :
      Step ⟨⟨frame, task, false⟩ :: calls, held, machine⟩
        ⟨⟨frame, task, true⟩ :: calls, held, { machine with depth := machine.depth + 1 }⟩
  | openBlock (stage : Stage) (lines : List Node) (frame : FrameId) (id : RunnerId) (after : Machine)
      (opened : Exec.createRunner lines frame stage.machine = .done id after) :
      Step stage (stage.put after)
  | spawn (stage : Stage) (name : String) (lines : List Node) (arguments : Bindings) (caller : FrameId)
      (promise : Value) (after : Machine) (plain : arguments.All Value.Plain)
      (spawned : Exec.spawnAsync name lines arguments caller stage.machine = .done promise after) :
      Step stage (stage.put after)
  | startBody (calls : List Call) (held : List FrameId) (machine : Machine) (task : TaskId)
      (name : String) (lines : List Node) (frame : FrameId) (rest : List Microtask)
      (next : machine.microtasks = .asyncBody task name lines frame :: rest) :
      Step ⟨calls, held, machine⟩ ⟨⟨frame, some task, false⟩ :: calls, held,
        { machine with
          microtasks := rest
          asyncFrames := machine.asyncFrames.filter (· ≠ frame) }⟩
  | settleBody (frame : FrameId) (task : TaskId) (calls : List Call) (held : List FrameId)
      (value : Value) (machine middle after : Machine) (plain : value.Plain)
      (released : Exec.releaseFrame frame machine = .done () middle)
      (settled : Exec.settleTask task value middle = .done () after) :
      Step ⟨⟨frame, some task, false⟩ :: calls, held, machine⟩ ⟨calls, held, after⟩
  | settle (stage : Stage) (task : TaskId) (value : Scalar) (rest : List Microtask) (after : Machine)
      (next : stage.machine.microtasks = .settle task value :: rest)
      (settled : Exec.settleTask task (stage.machine.classes.scalar value)
        { stage.machine with microtasks := rest } = .done () after) :
      Step stage (stage.put after)
  | consume (stage : Stage) (task : TaskId) (value : Value) (after : Machine)
      (consumed : Exec.consumeTask task stage.machine = .done (some value) after) :
      Step stage (stage.put after)
  | submit (stage : Stage) (outcome : Scalar) (milliseconds : Nat) (promise : Value) (after : Machine)
      (spawned : Exec.spawnBlocking (some outcome) milliseconds stage.machine = .done promise after) :
      Step stage (stage.put after)
  | poll (stage : Stage) (engine : Engine) (id : EventId) (status : EventStatus) (after : Machine)
      (only : stage.machine.events = [(id, some .pollPool)])
      (served : engine.serviceEvent id .pollPool stage.machine = .done status after) :
      Step stage (stage.put after)
  | closing (stage after : Stage) (closed : Closing stage after) : Step stage after

-- What a failure does on its way out. A body that it passes through is dropped, and its task stays unsettled.
inductive Unwind : Stage → Stage → Prop where
  | closing (stage after : Stage) (closed : Closing stage after) : Unwind stage after
  | dropBody (frame : FrameId) (task : TaskId) (calls : List Call) (held : List FrameId)
      (machine after : Machine) (released : Exec.releaseFrame frame machine = .done () after) :
      Unwind ⟨⟨frame, some task, false⟩ :: calls, held, machine⟩ ⟨calls, held, after⟩
  | strand (stage : Stage) (task : TaskId) (after : Machine)
      (created : Exec.createTask stage.machine = .done task after) :
      Unwind stage (stage.put after)
  | discard (stage : Stage) (task : TaskId) (value : Scalar) (rest : List Microtask)
      (next : stage.machine.microtasks = .settle task value :: rest) :
      Unwind stage (stage.put { stage.machine with microtasks := rest })

namespace Machine

-- Nothing of a host's own waits in a machine or can be called in it.
structure Plain (machine : Machine) : Prop where
  classes : machine.classes.Plain
  frames : machine.frames.Plain
  tasks : ∀ task value, machine.tasks.state? task = some (.ready value) → value.Plain
  microtasks : ∀ microtask ∈ machine.microtasks,
    (∃ task name lines frame, microtask = .asyncBody task name lines frame) ∨
      ∃ task value, microtask = .settle task value
  jobs : ∀ job ∈ machine.jobs, job.outcome ≠ none

-- The pool has an event of its own as long as a job is in it, and there are no others.
structure Served (machine : Machine) : Prop where
  events : machine.events = machine.poolEvent.toList.map fun id => (id, some .pollPool)
  busy : machine.jobs ≠ [] → machine.poolEvent ≠ none

end Machine

-- What holds at every stage that scripts and hosts can bring about.
structure Stage.Sound (stage : Stage) : Prop where
  ledger : stage.machine.frames.Kept stage.owners
  depth : stage.machine.depth = stage.calls.countP Call.running
  waiting : stage.machine.asyncFrames = stage.machine.microtasks.filterMap Microtask.frame?
  distinct : stage.machine.asyncFrames.Nodup
  bodies : ∀ id ∈ stage.machine.asyncFrames, ∀ frame, stage.machine.frames.frame? id = some frame →
    frame.isFunction = true
  numbered : stage.machine.Numbered
  plain : stage.machine.Plain
  served : stage.machine.Served

end CoopScript
