import CoopScript.Machine.Memory

set_option autoImplicit false
namespace CoopScript

namespace Exec

def known {α : Type} (what name : String) : Option α → Exec α
  | some found => pure found
  | none => fail (.raised .runtime ("unknown " ++ what ++ " " ++ Cause.ticked name))

-- The outermost frame is called `global` until the host gives that name to another.
def frameNamed (name : String) : Exec FrameId := do
  match ← read (·.handles.frames.find? name) with
  | some frame => return frame
  | none => if name = "global" then return Arena.root else known "frame" name none

def taskLabelled : Label → Exec TaskId
  | .numbered number => pure ⟨number⟩
  | .named name => do known "task" name (← read (·.handles.tasks.find? name))

def classNamed (name : String) : Exec ClassId := do
  known "class" name (← read (·.classes.find? name))

def classLabelled : Label → Exec ClassId
  | .numbered number => pure ⟨number⟩
  | .named name => classNamed name

def runnerNamed (name : String) : Exec RunnerId := do
  known "runner" name (← read (·.handles.runners.find? name))

def slotNamed (name : String) : Exec Value := do
  known "slot" name (← read (·.handles.slots.find? name))

def updateHandles (change : Handles → Handles) : Exec Unit :=
  modify fun machine => { machine with handles := change machine.handles }

def nameFrame (name : String) (frame : FrameId) : Exec Unit :=
  updateHandles fun handles => { handles with frames := handles.frames.insert name frame }

def nameTask (name : String) (task : TaskId) : Exec Unit :=
  updateHandles fun handles => { handles with tasks := handles.tasks.insert name task }

def nameRunner (name : String) (runner : RunnerId) : Exec Unit :=
  updateHandles fun handles => { handles with runners := handles.runners.insert name runner }

def nameEvent (name : String) (event : EventId) : Exec Unit :=
  updateHandles fun handles => { handles with events := handles.events.insert name event }

def store (name : String) (value : Value) : Exec Unit :=
  updateHandles fun handles => { handles with slots := handles.slots.insert name value }

end Exec

mutual

def Operand.build : Operand → Exec Value
  | .void => Exec.void
  | .flag value => Exec.flag value
  | .number value => Exec.number value
  | .text value => Exec.text value
  | .array items => do Exec.array (← Operand.buildAll items)
  | .binding frame name => do Exec.lookUp (← Exec.frameNamed frame) name
  | .slot name => Exec.slotNamed name
  | .promise task => do Exec.promise (← Exec.taskLabelled task)
  | .plain className => do
    let id ← Exec.classNamed className
    Exec.read (·.classes.instantiate id .none)
  | .carrying className data => do
    let value ← Operand.build data
    let id ← Exec.classNamed className
    Exec.read (·.classes.instantiate id value.data)
  | .native name parameters recipe => do
    let code ← Recipe.build recipe
    Exec.function ⟨name, parameters, .native (.behaviour code), false⟩

def Operand.buildAll : List Operand → Exec (List Value)
  | [] => pure []
  | item :: rest => do
    let value ← Operand.build item
    return value :: (← Operand.buildAll rest)

-- A constant is built once, when its function is.
def Recipe.build : Recipe → Exec (Behaviour Value)
  | .const value => do return .const (← Operand.build value)
  | .target => pure .target
  | .function => pure .function
  | .argument name => pure (.argument name)
  | .arguments => pure .arguments
  | .echo => pure .echo
  | .apply name => pure (.apply name)
  | .perform actions => pure (.perform actions)
  | .fail kind message => pure (.fail kind message)

end

def Operand.buildNamed (entries : List (String × Operand)) : Exec (List (String × Value)) :=
  Exec.collect (fun entry => do return (entry.1, ← entry.2.build)) entries

end CoopScript
