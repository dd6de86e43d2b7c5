import CoopScript.Machine.Engine

/-!
The scheduler. A tick runs the ready lines, then the microtasks, then every event once; nothing is
ever interrupted. Once the machine is halted, no tier is begun and none is gone on with.
-/
set_option autoImplicit false
namespace CoopScript

namespace Engine

def runAsyncBody (engine : Engine) (task : TaskId) (name : String) (lines : List Node)
    (frame : FrameId) : Exec Unit := do
  Exec.modify fun machine =>
    { machine with asyncFrames := machine.asyncFrames.filter (· ≠ frame) }
  let outcome ← (engine.runFrame name lines frame).attempt
  Exec.releaseFrame frame
  let value ← Exec.ofOutcome outcome
  Exec.settleTask task value

def runMicrotask (engine : Engine) : Microtask → Exec Unit
  | .asyncBody task name lines frame => engine.runAsyncBody task name lines frame
  | .settle task value => do Exec.settleTask task (← Exec.read (·.classes.scalar value))
  | .panicked task => Exec.fail (.jobPanicked task.number)
  | .host actions => engine.performAll actions

def drainStep (engine : Engine) (report : TickReport) : Exec (TickReport ⊕ TickReport) := do
  match ← Exec.read (·.microtasks) with
  | [] => return .inr report
  | task :: rest =>
    Exec.modify fun machine => { machine with microtasks := rest }
    let report := { report with microtasks := report.microtasks + 1 }
    engine.runMicrotask task
    if ← Exec.isHalted then return .inr report
    return .inl report

-- Runs microtasks, also those that come up meanwhile, until none is left or the machine halts.
def drainMicrotasks (engine : Engine) (report : TickReport) : Exec TickReport :=
  Exec.iterate engine.drainStep engine.fuel report

end Engine

def Job.microtask (job : Job) : Microtask :=
  match job.outcome with
  | some value => .settle job.task value
  | none => .panicked job.task

namespace Exec

def forgetPool : Exec EventStatus := do
  modify fun machine => { machine with poolEvent := none }
  return .done

-- Asks the pool for the jobs that ended; each becomes a microtask.
def pollPool : Exec EventStatus := do
  match ← read (·.pool) with
  | none => forgetPool
  | some pool =>
    modify (·.pass Machine.pollTime)
    let (ended, pool) := pool.collect (← read (·.clock))
    modify fun machine => { machine with pool := some pool }
    if ended.isEmpty then
      if pool.outstanding = 0 then forgetPool else return .busy
    else
      each (fun job => enqueueMicrotask job.microtask) ended
      return .progress

def wait : Exec Unit := modify fun machine => machine.pass (1000 * machine.config.pollInterval)

def setEvent (id : EventId) (event : Option Microevent) : Exec Unit :=
  modify fun machine =>
    { machine with
      events := machine.events.map fun entry => if entry.1 = id then (id, event) else entry }

end Exec

def Machine.event? (machine : Machine) (id : EventId) : Option Microevent :=
  (machine.events.find? fun entry => entry.1 = id).bind Prod.snd

namespace Microevent

def advanced : Microevent → Microevent
  | .pollPool => .pollPool
  | .host turns next => .host turns (next + 1)

-- The turn of a host event's next run; the last one repeats.
def turn (turns : List Turn) (next : Nat) : Turn :=
  match turns[next]? with
  | some turn => turn
  | none => turns.getLast?.getD ⟨[], .idle⟩

end Microevent

namespace Engine

def runEvent (engine : Engine) : Microevent → Exec EventStatus
  | .pollPool => Exec.pollPool
  | .host turns next =>
    match Microevent.turn turns next with
    | .mk actions status => do
      engine.performAll actions
      return status

-- Runs one event and puts it back, unless it is done or was removed meanwhile.
def serviceEvent (engine : Engine) (id : EventId) (event : Microevent) : Exec EventStatus := do
  Exec.setEvent id none
  let outcome ← (engine.runEvent event).attempt
  match outcome with
  | .ok .done => let _ ← Exec.removeEvent id
  | _ => Exec.setEvent id (some event.advanced)
  Exec.ofOutcome outcome

def serviceAll (engine : Engine) : List EventId → TickReport → Exec TickReport
  | [], report => pure report
  | id :: rest, report => do
    match ← Exec.read (·.event? id) with
    | none => engine.serviceAll rest report
    | some event =>
      let report := report.note (← engine.serviceEvent id event)
      if ← Exec.isHalted then return report
      engine.serviceAll rest report

-- Runs every event that is registered now and not running already, once, in order.
def serviceEvents (engine : Engine) (report : TickReport) : Exec TickReport := do
  let ids ← Exec.read fun machine => machine.events.map Prod.fst
  engine.serviceAll ids report

def runLines (engine : Engine) (report : TickReport) : Exec TickReport :=
  let step (report : TickReport) : Exec (TickReport ⊕ TickReport) := do
    match ← Exec.read (·.ready) with
    | [] => return .inr report
    | line :: rest =>
      if ← Exec.isHalted then return .inr report
      Exec.modify fun machine => { machine with ready := rest }
      let value ← engine.executeLine line.node line.frame
      Exec.record line.runner value
      Exec.advance line.runner
      return .inl { report with lines := report.lines + 1 }
  Exec.iterate step engine.fuel report

def unlessHalted (phase : TickReport → Exec TickReport) (report : TickReport) :
    Exec TickReport := do
  if ← Exec.isHalted then return report
  phase report

def tick (engine : Engine) : Exec TickReport := do
  let report ← engine.runLines .empty
  let report ← unlessHalted engine.drainMicrotasks report
  unlessHalted engine.serviceEvents report

-- Ticks until the machine halts or has been idle for as many ticks as it is configured to wait.
def run (engine : Engine) : Exec Unit :=
  let step (idle : Nat) : Exec (Nat ⊕ Unit) := do
    let report ← engine.tick
    if ← Exec.isHalted then return .inr ()
    if report.isOnlyWaiting then Exec.wait
    if !report.isIdle then return .inl 0
    if (← Exec.read (·.config.idleLimit)) ≤ idle + 1 then return .inr ()
    return .inl (idle + 1)
  Exec.iterate step engine.fuel 0

def awaitStep (engine : Engine) (task : TaskId) (idle : Nat) : Exec (Nat ⊕ Value) := do
  match ← Exec.consumeTask task with
  | some value => return .inr value
  | none =>
    if ← Exec.isHalted then Exec.fail .interrupted
    let report ← engine.drainMicrotasks .empty
    let report ← engine.serviceEvents report
    if report.isOnlyWaiting then Exec.wait
    if !report.isIdle then return .inl 0
    if (← Exec.read (·.config.idleLimit)) < idle + 1 then Exec.fail .neverSettled
    return .inl (idle + 1)

-- Waits for a task by running microtasks and events. Ready lines are left alone.
def await (engine : Engine) (task : TaskId) : Exec Value :=
  Exec.iterate (engine.awaitStep task) engine.fuel 0

end Engine

-- Drops all work that is still waiting. Jobs in the pool go on and settle their promises.
def Exec.reset : Exec Unit := do
  Exec.modify fun machine => { machine with ready := [], microtasks := [] }
  let frames ← Exec.read (·.asyncFrames)
  Exec.modify fun machine => { machine with asyncFrames := [] }
  Exec.each Exec.releaseFrame frames
  let ids ← Exec.read fun machine => machine.runners.map Prod.fst
  Exec.each (fun id => do let _ ← Exec.finishRunner id) ids
  Exec.modify fun machine =>
    { machine with
      events := machine.events.filter fun entry => some entry.1 = machine.poolEvent
      depth := 0 }

end CoopScript
