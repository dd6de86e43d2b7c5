import CoopScript.Value.Basic

set_option autoImplicit false
namespace CoopScript

inductive TaskState where
  | pending
  | ready (value : Value)
  | consumed

def TaskState.isPending : TaskState → Bool
  | .pending => true
  | _ => false

structure TaskTable where
  states : Array TaskState

namespace TaskTable

def empty : TaskTable := ⟨#[]⟩

def create (table : TaskTable) : TaskId × TaskTable :=
  (⟨table.states.size + 1⟩, ⟨table.states.push .pending⟩)

def state? (table : TaskTable) (task : TaskId) : Option TaskState :=
  if task.number = 0 then none else table.states[task.number - 1]?

def setState (table : TaskTable) (task : TaskId) (state : TaskState) : TaskTable :=
  ⟨table.states.setIfInBounds (task.number - 1) state⟩

-- A task that is not waiting; one that does not exist counts.
def isSettled (table : TaskTable) (task : TaskId) : Bool :=
  match table.state? task with
  | some state => !state.isPending
  | none => true

def settle (table : TaskTable) (task : TaskId) (value : Value) : Except Cause TaskTable :=
  match table.state? task with
  | some .pending => .ok (table.setState task (.ready value))
  | some _ => .error (.settledTwice task.number)
  | none => .error (.unknownTask task.number)

def consume (table : TaskTable) (task : TaskId) : Except Cause (Option Value × TaskTable) :=
  match table.state? task with
  | some .pending => .ok (none, table)
  | some (.ready value) => .ok (some value, table.setState task .consumed)
  | some .consumed => .error (.alreadyAwaited task.number)
  | none => .error (.unknownTask task.number)

def pendingCount (table : TaskTable) : Nat := table.states.countP TaskState.isPending

end TaskTable
end CoopScript
