import CoopScript.Host.Operand
import CoopScript.Machine.Call
import CoopScript.Machine.Scheduler
import CoopScript.Rule.Operation

set_option autoImplicit false
namespace CoopScript

namespace Engine

def argumentsOf (engine : Engine) (text : String) : Exec (List Node) := do
  match ← engine.parse ("f(" ++ text ++ ")") with
  | [.call _ _ _ arguments] => return arguments
  | _ => Exec.fail (.raised .runtime "these are no arguments")

def performRunner (engine : Engine) : Action → Exec Answer
  | .load name source frame => do
    let lines ← engine.parse source
    Exec.nameRunner name (← Exec.loadProgram lines (← Exec.frameNamed frame))
    return .nothing
  | .loadNodes name nodes frame => do
    Exec.nameRunner name (← Exec.loadProgram nodes (← Exec.frameNamed frame))
    return .nothing
  | .createRunner name source frame => do
    let lines ← engine.parse source
    Exec.nameRunner name (← Exec.createRunner lines (← Exec.frameNamed frame))
    return .nothing
  | .isFinished name => do
    let id ← Exec.runnerNamed name
    return .flag (← Exec.read (·.isFinished id))
  | .finish name => do return .value? (← Exec.finishRunner (← Exec.runnerNamed name))
  | .enqueue source index name frame => do
    let lines ← engine.parse source
    match lines[index]? with
    | none => return .flag false
    | some node =>
      let runner ← Exec.runnerNamed name
      Exec.enqueueLine ⟨node, runner, ← Exec.frameNamed frame⟩
      return .flag true
  | .execute source index frame => do
    let lines ← engine.parse source
    match lines[index]? with
    | none => return .flag false
    | some node => return .line (← engine.executeLine node (← Exec.frameNamed frame))
  | .runBlock source frame => do
    let lines ← engine.parse source
    return .value? (← engine.runBlock lines (← Exec.frameNamed frame))
  | _ => pure .nothing

def performScheduler (engine : Engine) : Action → Exec Answer
  | .mark text => do
    Exec.writeLine text
    return .nothing
  | .fail kind message => Exec.fail (.raised kind message)
  | .halt => do
    Exec.halt
    return .nothing
  | .clearHalt => do
    Exec.clearHalt
    return .nothing
  | .tick => do return .report (← engine.tick)
  | .run => do
    engine.run
    return .nothing
  | .reset => do
    Exec.reset
    return .nothing
  | .isUnwinding frame => do return .flag (← Exec.isUnwinding (← Exec.frameNamed frame))
  | .enqueueMicrotask actions => do
    Exec.enqueueMicrotask (.host actions)
    return .nothing
  | .registerEvent name turns => do
    Exec.nameEvent name (← Exec.registerEvent (.host turns 0))
    return .nothing
  | .removeEvent name => do
    match ← Exec.read (·.handles.events.find? name) with
    | none => return .nothing
    | some id => return .flag (← Exec.removeEvent id)
  | _ => pure .nothing

def performTask (engine : Engine) : Action → Exec Answer
  | .spawn name outcome milliseconds => do
    let promise ← Exec.spawnBlocking outcome milliseconds
    Exec.store name promise
    match promise.task? with
    | some task => Exec.nameTask name task
    | none => pure ()
    return .value promise
  | .await task => do return .value (← engine.await (← Exec.taskLabelled task))
  | .createTask name => do
    let task ← Exec.createTask
    Exec.nameTask name task
    return .count task.number
  | .settleTask task value => do
    let value ← value.build
    Exec.settleTask (← Exec.taskLabelled task) value
    return .nothing
  | .consumeTask task => do return .value? (← Exec.consumeTask (← Exec.taskLabelled task))
  | .taskState task => do
    let task ← Exec.taskLabelled task
    Exec.read fun machine => .task (machine.tasks.state? task) (machine.tasks.isSettled task)
  | _ => pure .nothing

def performFrame : Action → Exec Answer
  | .pushFrame name parent isFunction => do
    let frame ← Exec.pushFrame (← Exec.frameNamed parent) isFunction .empty
    Exec.nameFrame name frame
    return .frame frame
  | .pushFunctionFrame name parent bindings => do
    let bindings ← Operand.buildNamed bindings
    let frame ← Exec.pushFrame (← Exec.frameNamed parent) true (.ofList bindings)
    Exec.nameFrame name frame
    return .frame frame
  | .retainFrame frame => do
    Exec.retainFrame (← Exec.frameNamed frame)
    return .nothing
  | .releaseFrame frame => do
    Exec.releaseFrame (← Exec.frameNamed frame)
    return .nothing
  | .isLive frame => do
    let id ← Exec.frameNamed frame
    return .flag (← Exec.read (·.frames.isLive id))
  | .parentOf frame => do
    let id ← Exec.frameNamed frame
    return .frame? (← Exec.askFrames (·.frame id)).parent
  | .isFunctionFrame frame => do
    let id ← Exec.frameNamed frame
    return .flag (← Exec.askFrames (·.frame id)).isFunction
  | .functionFrameOf frame => do
    let id ← Exec.frameNamed frame
    return .frame? (← Exec.askFrames (·.functionFrame id))
  | .lookUp frame name => do return .value (← Exec.lookUp (← Exec.frameNamed frame) name)
  | .setVariable frame name value => do
    let value ← value.build
    Exec.setVariable (← Exec.frameNamed frame) name value
    return .nothing
  | .assignVariable frame name value => do
    let value ← value.build
    Exec.assign (← Exec.frameNamed frame) name value
    return .nothing
  | .bindingsOf frame => do
    let id ← Exec.frameNamed frame
    return .bindings (← Exec.askFrames (·.frame id)).bindings
  | .setReturn frame value => do
    let value ← value.build
    Exec.setReturn (← Exec.frameNamed frame) value
    return .nothing
  | .hasReturned frame => do
    let id ← Exec.frameNamed frame
    return .flag (← Exec.read (·.frames.hasReturned id))
  | .takeReturn frame => do return .value? (← Exec.takeReturn (← Exec.frameNamed frame))
  | _ => pure .nothing

def defineClass (draft : ClassDraft) : Exec ClassId := fun machine =>
  match machine.classes.define draft with
  | .ok (id, classes) => .done id { machine with classes := classes }
  | .error cause => .failed (.of cause) machine

def classReport? (machine : Machine) (name : String) : Option ClassReport :=
  (machine.classes.find? name).bind fun id => (machine.classes.get? id).map (ClassReport.mk id)

def performClass : Action → Exec Answer
  | .defineClass name kind ancestors members hidden hooks => do
    let members ← Operand.buildNamed members
    let hidden ← Operand.buildNamed hidden
    let hooks ← Exec.collect (fun entry : String × Recipe => do
      return (entry.1, Member.hook (.behaviour (← entry.2.build)))) hooks
    let ancestors ← Exec.collect Exec.classLabelled ancestors
    let values := hidden.map fun entry => (entry.1, Member.value entry.2)
    let id ← defineClass ⟨name, kind, ancestors, .ofList members, .ofList (values ++ hooks)⟩
    return .count id.index
  | .describeClass name => do return .class? (← Exec.read (classReport? · name))
  | .inheritsFrom name ancestor => do
    let id ← Exec.classNamed name
    let ancestor ← Exec.classNamed ancestor
    return .flag (← Exec.read (·.classes.inherits id ancestor))
  | _ => pure .nothing

def performValue (engine : Engine) : Action → Exec Answer
  | .store name value => do
    let value ← value.build
    Exec.store name value
    return .value value
  | .setMember slot name value => do
    let value ← value.build
    Exec.store slot ((← Exec.slotNamed slot).setMember name value)
    return .nothing
  | .setHidden slot name value => do
    let value ← value.build
    Exec.store slot ((← Exec.slotNamed slot).setHidden name (.value value))
    return .nothing
  | .memberOf value name => do
    let value ← value.build
    return .member (value.member? name) (value.hidden? name)
  | .membersOf value => do return .bindings (← value.build).members
  | .isFunction value => do
    let value ← value.build
    return .flag (← Exec.read (·.classes.isFunction value))
  | .isVoid value => do return .flag (← value.build).isVoid
  | .textOf value frame => do
    let value ← value.build
    return .text (← engine.stringify value (← Exec.frameNamed frame))
  | .truthOf value frame => do
    let value ← value.build
    return .flag (← engine.truthy value (← Exec.frameNamed frame))
  | .areEqual left right => do
    let left ← left.build
    return .flag (left.equals (← right.build))
  | .operate op left right => do
    let left ← left.build
    let right ← right.build
    match op with
    | some op => return .value (← Exec.operate op left right)
    | none => return .nothing
  | _ => pure .nothing

def performCall (engine : Engine) : Action → Exec Answer
  | .bindArguments function parameters text frame => do
    let arguments ← engine.argumentsOf text
    let frame ← Exec.frameNamed frame
    return .bindings (← engine.bindArguments function parameters arguments frame)
  | .call function target text frame => do
    let function ← function.build
    let target ← match target with
      | some target => target.build
      | none => pure function
    let arguments ← engine.argumentsOf text
    return .value (← engine.call target function arguments (← Exec.frameNamed frame))
  | .invoke function target bindings frame => do
    let function ← function.build
    let target ← match target with
      | some target => target.build
      | none => pure function
    let bindings ← Operand.buildNamed bindings
    let frame ← Exec.frameNamed frame
    return .value (← engine.invoke target function (.ofList bindings) frame)
  | _ => pure .nothing

def performAction (engine : Engine) (action : Action) : Exec Answer :=
  match action with
  | .load .. | .loadNodes .. | .createRunner .. | .isFinished _ | .finish _ | .enqueue ..
  | .execute .. | .runBlock .. => engine.performRunner action
  | .mark _ | .fail .. | .halt | .clearHalt | .tick | .run | .reset | .isUnwinding _
  | .enqueueMicrotask _ | .registerEvent .. | .removeEvent _ => engine.performScheduler action
  | .spawn .. | .await _ | .createTask _ | .settleTask .. | .consumeTask _ | .taskState _ =>
    engine.performTask action
  | .pushFrame .. | .pushFunctionFrame .. | .retainFrame _ | .releaseFrame _ | .isLive _
  | .parentOf _ | .isFunctionFrame _ | .functionFrameOf _ | .lookUp .. | .setVariable ..
  | .assignVariable .. | .bindingsOf _ | .setReturn .. | .hasReturned _ | .takeReturn _ =>
    performFrame action
  | .defineClass .. | .describeClass _ | .inheritsFrom .. => performClass action
  | .store .. | .setMember .. | .setHidden .. | .memberOf .. | .membersOf _ | .isFunction _
  | .isVoid _ | .textOf .. | .truthOf .. | .areEqual .. | .operate .. =>
    engine.performValue action
  | .bindArguments .. | .call .. | .invoke .. => engine.performCall action

end Engine
end CoopScript
