import CoopScript.Machine.Exec

set_option autoImplicit false
namespace CoopScript.Exec

def updateFrames (change : Arena → Except Cause Arena) : Exec Unit := fun machine =>
  match change machine.frames with
  | .ok frames => .done () { machine with frames := frames }
  | .error cause => .failed (.of cause) machine

def askFrames {α : Type} (ask : Arena → Except Cause α) : Exec α := fun machine =>
  match ask machine.frames with
  | .ok answer => .done answer machine
  | .error cause => .failed (.of cause) machine

def changeFrames {α : Type} (change : Arena → Except Cause (α × Arena)) : Exec α := fun machine =>
  match change machine.frames with
  | .ok (answer, frames) => .done answer { machine with frames := frames }
  | .error cause => .failed (.of cause) machine

def retainFrame (id : FrameId) : Exec Unit := updateFrames (·.retain id)

def releaseFrame (id : FrameId) : Exec Unit := fun machine =>
  match machine.frames.release id with
  | (frames, none) => .done () { machine with frames := frames }
  | (frames, some cause) => .failed (.of cause) { machine with frames := frames }

def pushFrame (parent : FrameId) (isFunction : Bool) (bindings : Bindings) : Exec FrameId :=
  changeFrames (·.push parent isFunction bindings)

def lookUp (frame : FrameId) (name : String) : Exec Value := askFrames (·.lookUp frame name)

def setVariable (frame : FrameId) (name : String) (value : Value) : Exec Unit :=
  updateFrames (·.setVariable frame name value)

def assign (frame : FrameId) (name : String) (value : Value) : Exec Unit :=
  updateFrames (·.assign frame name value)

def setReturn (frame : FrameId) (value : Value) : Exec Unit :=
  updateFrames (·.setReturn frame value)

def takeReturn (frame : FrameId) : Exec (Option Value) := changeFrames (·.takeReturn frame)

def createTask : Exec TaskId := fun machine =>
  let (task, tasks) := machine.tasks.create
  .done task { machine with tasks := tasks }

def settleTask (task : TaskId) (value : Value) : Exec Unit := fun machine =>
  match machine.tasks.settle task value with
  | .ok tasks => .done () { machine with tasks := tasks }
  | .error cause => .failed (.of cause) machine

def consumeTask (task : TaskId) : Exec (Option Value) := fun machine =>
  match machine.tasks.consume task with
  | .ok (value, tasks) => .done value { machine with tasks := tasks }
  | .error cause => .failed (.of cause) machine

def nextIdentity : Exec Nat := fun machine =>
  .done machine.nextIdentity { machine with nextIdentity := machine.nextIdentity + 1 }

def void : Exec Value := read (·.classes.void)

def number (x : Float) : Exec Value := read (·.classes.number x)

def text (text : String) : Exec Value := read (·.classes.text text)

def flag (flag : Bool) : Exec Value := read (·.classes.flag flag)

def promise (task : TaskId) : Exec Value := read (·.classes.promise task)

def array (items : List Value) : Exec Value := do
  let identity ← nextIdentity
  read (·.classes.array identity items)

def function (function : Function Value) : Exec Value := do
  let identity ← nextIdentity
  read (·.classes.function identity function)

def nameOf (value : Value) : Exec String := read (·.classes.nameOf value)

def writeLine (text : String) : Exec Unit :=
  modify fun machine => { machine with output := machine.output.push text }

def isHalted : Exec Bool := read (·.halted)

def halt : Exec Unit := modify fun machine => { machine with halted := true }

def clearHalt : Exec Unit := modify fun machine => { machine with halted := false }

def enqueueLine (line : Line) : Exec Unit :=
  modify fun machine => { machine with ready := machine.ready ++ [line] }

def enqueueMicrotask (task : Microtask) : Exec Unit :=
  modify fun machine => { machine with microtasks := machine.microtasks ++ [task] }

def registerEvent (event : Microevent) : Exec EventId := fun machine =>
  let id : EventId := ⟨machine.eventCount + 1⟩
  .done id
    { machine with
      eventCount := machine.eventCount + 1
      events := machine.events ++ [(id, some event)] }

def removeEvent (id : EventId) : Exec Bool := fun machine =>
  .done (machine.events.any fun entry => entry.1 = id)
    { machine with events := machine.events.filter fun entry => entry.1 ≠ id }

-- Whether code in this frame should stop: the machine is halted, or the frame's function has a result.
def isUnwinding (frame : FrameId) : Exec Bool := do
  if ← isHalted then return true
  match ← askFrames (·.functionFrame frame) with
  | some function => read (·.frames.hasReturned function)
  | none => return false

end CoopScript.Exec
