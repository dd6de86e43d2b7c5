import CoopScript.Proofs.Stage.Ledger
import CoopScript.Proofs.Stage.Settler

set_option autoImplicit false
namespace CoopScript

/-- A run gives up waiting for a task: it comes to a pass of waiting that leaves nothing which could settle the task, and
from that moment on it only closes what is in progress. -/
structure Exec.GivesUp {α : Type} (step : Exec α) (stage : Stage) (task : TaskId) (moment : Stage) (left : Machine) :
    Prop where
  comes : ∃ fuel idle place after, step.Comes stage ((RuleSet.standard.engine fuel).awaitStep task idle) place ∧
    (RuleSet.standard.engine fuel).awaitStep task idle place.machine = .failed (.of .neverSettled) after ∧
    moment = place.put after
  unanswered : moment.Unanswered task
  leads : stage.Leads stage moment
  leaves : stage.Leaves moment (stage.put left)

namespace Stage

theorem unanswered_suspended (stage : Stage) (task : TaskId) (unanswered : stage.Unanswered task) :
    stage.Suspended task ∨ stage.Stuck task := by
  by_cases suspended : stage.Suspended task
  · exact .inl suspended
  · refine .inr ⟨unanswered.pending, fun member => ?_⟩
    simp only [settlers, unanswered.quiet, unanswered.jobless, List.filterMap_nil, List.map_nil,
      List.nil_append] at member
    obtain ⟨call, listed, same⟩ := List.mem_filterMap.mp member
    exact suspended ⟨call, listed, same⟩

theorem strands_give_up {α : Type} (stage moment : Stage) (step : Exec α) (left : Machine)
    (strands : step.Strands stage .neverSettled moment) (leads : stage.Leads stage moment)
    (leaves : stage.Leaves moment (stage.put left)) :
    ∃ task, step.GivesUp stage task moment left ∧ (moment.Suspended task ∨ stage.Stuck task) := by
  obtain ⟨β, inner, place, comes, impasse⟩ := strands
  cases impasse with
  | unanswered fuel task idle _ after failed unanswered =>
    refine ⟨task, ⟨⟨fuel, idle, place, after, comes, failed, rfl⟩, unanswered, leads, leaves⟩, ?_⟩
    exact (unanswered_suspended _ task unanswered).imp_right (leads_stuck stage stage _ task leads)

theorem start_stuck (config : Config) (task : TaskId) : ¬ (start config).Stuck task := by
  intro stuck
  obtain ⟨number⟩ := task
  cases number <;> cases stuck.pending

end Stage

/-- Asynchronous functions without parameters, in the order in which they are started. Each may wait for the
promise of one of them before it returns; the program itself waits for `last`. -/
structure WaitPlan where
  awaits : List (Option Nat)
  last : Nat

namespace WaitPlan

def function (number : Nat) : String := "f" ++ toString number

def promise (number : Nat) : String := "p" ++ toString number

def await (number : Nat) : Node :=
  .await "await" (.start none) (.reference (promise number) (.start none))

def declare (entry : Option Nat × Nat) : Node :=
  .function "fn" (.start none) (function entry.2) [] true
    [.giveBack "return" (.start none) (entry.1.map await)]

def begin (number : Nat) : Node :=
  .assign "assign" (.start none) (promise number)
    (.call "call" (.start none) (.reference (function number) (.start none)) [])

def program (plan : WaitPlan) : List Node :=
  plan.awaits.zipIdx.map declare ++ (List.range plan.awaits.length).map begin ++ [await plan.last]

-- No body waits for itself, be it by way of others.
def Acyclic (plan : WaitPlan) : Prop :=
  ∃ rank : Nat → Nat, ∀ task awaited : Nat, plan.awaits[task]? = some (some awaited) → rank awaited < rank task

-- Nobody waits for what is not there, and nothing is waited for twice.
structure Fair (plan : WaitPlan) : Prop where
  once : (plan.last :: plan.awaits.filterMap id).Nodup
  there : ∀ task ∈ plan.last :: plan.awaits.filterMap id, task < plan.awaits.length

-- The first body waits for the second, and the third, which starts on top of the first, waits for it.
def crossed : WaitPlan := ⟨[some 1, none, some 0], 2⟩

end WaitPlan

def Outcome.givesUp {α : Type} : Outcome α → Bool
  | .failed (.fault diagnostic) _ =>
    match diagnostic.cause with
    | .neverSettled => true
    | _ => false
  | _ => false

theorem Outcome.gives_up_failed {α : Type} (outcome : Outcome α) (gives : outcome.givesUp = true) :
    ∃ failure machine, outcome = .failed failure machine ∧ failure.HasCause .neverSettled := by
  unfold givesUp at gives
  split at gives
  next diagnostic machine =>
    split at gives
    next same => exact ⟨_, machine, rfl, diagnostic, rfl, same⟩
    next => cases gives
  next => cases gives

theorem WaitPlan.crossed_gives_up :
    ((RuleSet.standard.engine 20).evalProgram crossed.program (Machine.start .standard)).givesUp = true := by
  decide +kernel

end CoopScript
