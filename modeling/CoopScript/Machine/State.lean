import CoopScript.Class.Intrinsic
import CoopScript.Frame.Arena
import CoopScript.Task.Pool
import CoopScript.Task.Table

/-!
The whole state of an interpreter. Three tiers of work wait in it: lines ready to be run, microtasks,
and microevents, which are asked again and again until they say that they are done. A clock, by which the
jobs in the background end, goes on as the machine works and waits.
-/
set_option autoImplicit false
namespace CoopScript

-- `pollInterval` is how many milliseconds the machine waits when there is nothing else to do, and `latency` gives the
-- microseconds that it takes to hand over the n-th background job.
structure Config where
  idleLimit : Nat
  depthLimit : Nat
  workers : Nat
  pollInterval : Nat
  latency : Nat → Nat

def Config.standard : Config := ⟨3, 256, 2, 1, fun _ => 50⟩

structure RunnerId where
  number : Nat
deriving DecidableEq

structure EventId where
  number : Nat
deriving DecidableEq

structure Line where
  node : Node
  runner : RunnerId
  frame : FrameId

-- A block being run line by line. It ends early when its function's frame has a result.
structure Runner where
  frame : FrameId
  functionFrame : Option FrameId
  lines : List Node
  last : Option Value
  finished : Bool

inductive Microtask where
  | asyncBody (task : TaskId) (name : String) (lines : List Node) (frame : FrameId)
  | settle (task : TaskId) (value : Scalar)
  | panicked (task : TaskId)
  | host (actions : List Action)

inductive Microevent where
  | pollPool
  | host (turns : List Turn) (next : Nat)

structure Handles where
  frames : NameMap FrameId
  tasks : NameMap TaskId
  runners : NameMap RunnerId
  events : NameMap EventId
  slots : NameMap Value

def Handles.empty : Handles := ⟨.empty, .empty, .empty, .empty, .empty⟩

-- An event is absent from its entry while it runs. The clock counts microseconds.
structure Machine where
  config : Config
  clock : Nat
  classes : ClassTable
  frames : Arena
  tasks : TaskTable
  ready : List Line
  microtasks : List Microtask
  events : List (EventId × Option Microevent)
  eventCount : Nat
  runners : List (RunnerId × Runner)
  runnerCount : Nat
  halted : Bool
  depth : Nat
  pool : Option Pool
  poolEvent : Option EventId
  asyncFrames : List FrameId
  output : Array String
  nextIdentity : Nat
  handles : Handles

def Machine.initial (config : Config) : Machine :=
  { config := config
    clock := 0
    classes := .intrinsic
    frames := .initial
    tasks := .empty
    ready := []
    microtasks := []
    events := []
    eventCount := 0
    runners := []
    runnerCount := 0
    halted := false
    depth := 0
    pool := none
    poolEvent := none
    asyncFrames := []
    output := #[]
    nextIdentity := ClassTable.firstIdentity
    handles := .empty }

namespace Machine

def blockTime : Nat := 1

def pollTime : Nat := 2

def pass (machine : Machine) (microseconds : Nat) : Machine :=
  { machine with clock := machine.clock + microseconds }

end Machine

structure TickReport where
  lines : Nat
  microtasks : Nat
  events : Nat
  busy : Bool
deriving DecidableEq

namespace TickReport

def empty : TickReport := ⟨0, 0, 0, false⟩

def isIdle (report : TickReport) : Bool :=
  report.lines = 0 && report.microtasks = 0 && report.events = 0 && !report.busy

-- Whether all that a pass found was work that somebody else has to finish.
def isOnlyWaiting (report : TickReport) : Bool :=
  report.lines = 0 && report.microtasks = 0 && report.events = 0 && report.busy

def note (report : TickReport) : EventStatus → TickReport
  | .progress => { report with events := report.events + 1 }
  | .busy => { report with busy := true }
  | .idle | .done => report

end TickReport
end CoopScript
