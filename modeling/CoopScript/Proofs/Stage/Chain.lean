import CoopScript.Proofs.Exit.Session
import CoopScript.Proofs.Stage.Setting
import Mathlib.Algebra.GroupWithZero.Nat
import Mathlib.Algebra.Order.BigOperators.Group.List
import Mathlib.Algebra.Order.Group.Nat

set_option autoImplicit false
namespace CoopScript

-- The chains of calls in progress, the innermost first. A chain goes on with a call in the body of another; an
-- asynchronous body begins a chain of its own.
def Call.chains : List Call → List (List Call)
  | [] => []
  | call :: rest =>
    match call.task, chains rest with
    | none, first :: others => (call :: first) :: others
    | _, others => [call] :: others

def Call.bodies (calls : List Call) : Nat := calls.countP fun call => call.task.isSome

namespace Call

theorem chains_joined (calls : List Call) : (chains calls).flatten = calls := by
  induction calls with
  | nil => rfl
  | cons call rest ih =>
    unfold chains
    split
    next first others _ broken =>
      rw [broken] at ih
      rw [← ih]
      rfl
    next => rw [List.flatten_cons, ih]; rfl

-- Only the outermost chain is begun by no body.
theorem chains_begun (calls : List Call) : (chains calls).length ≤ bodies calls + 1 := by
  induction calls with
  | nil => exact Nat.zero_le _
  | cons call rest ih =>
    have begun : bodies (call :: rest) = bodies rest + if call.task.isSome = true then 1 else 0 := List.countP_cons
    unfold chains
    split
    next first others none broken =>
      rw [broken] at ih
      rw [begun, none]
      exact ih
    next others own =>
      cases task : call.task with
      | some =>
        rw [begun, task, List.length_cons]
        exact Nat.succ_le_succ ih
      | none =>
        cases broken : chains rest with
        | nil => simp
        | cons first others => exact absurd broken (own _ _ task)

theorem chains_long (calls : List Call) (most longest : Nat) (few : bodies calls ≤ most)
    (short : ∀ chain ∈ chains calls, chain.length ≤ longest) : calls.length ≤ (most + 1) * longest := by
  have joined := congrArg List.length (chains_joined calls)
  rw [List.length_flatten] at joined
  have bounded : ((chains calls).map List.length).sum ≤ (chains calls).length * longest := by
    have all : ∀ length ∈ (chains calls).map List.length, length ≤ longest := by
      intro length member
      obtain ⟨chain, listed, rfl⟩ := List.mem_map.mp member
      exact short chain listed
    simpa using List.sum_le_card_nsmul _ longest all
  have begun := chains_begun calls
  calc calls.length = ((chains calls).map List.length).sum := joined.symm
    _ ≤ (chains calls).length * longest := bounded
    _ ≤ (most + 1) * longest := Nat.mul_le_mul_right longest (by omega)

end Call

/-- A run comes to lines that are refused, on top of as many others as the limit allows, and with them all the chains of
calls in progress are together longer than the limit. From there it only closes what is in progress. -/
structure Exec.Overflows {α : Type} (step : Exec α) (stage : Stage) (limit : Nat) (moment : Stage) (left : Machine) :
    Prop where
  comes : ∃ fuel name lines frame,
    step.Comes stage ((RuleSet.standard.engine fuel).runFrame name lines frame) moment ∧
    (RuleSet.standard.engine fuel).runFrame name lines frame moment.machine =
      .failed (.of (.depthExceeded limit name)) moment.machine
  refuses : moment.Refuses limit
  charged : limit < ((Call.chains moment.calls).map List.length).sum
  bounded : ∀ most longest, Call.bodies moment.calls ≤ most →
    (∀ chain ∈ Call.chains moment.calls, chain.length ≤ longest) → limit < (most + 1) * longest
  leads : stage.Leads stage moment
  leaves : stage.Leaves moment (stage.put left)

theorem Stage.strands_overflow {α : Type} (stage moment : Stage) (step : Exec α) (left : Machine) (limit : Nat)
    (name : String) (strands : step.Strands stage (.depthExceeded limit name) moment)
    (leads : stage.Leads stage moment) (leaves : stage.Leaves moment (stage.put left)) :
    limit = stage.machine.config.depthLimit ∧ step.Overflows stage limit moment left := by
  obtain ⟨β, inner, place, comes, impasse⟩ := strands
  cases impasse with
  | refused fuel _ lines frame _ _ failed refuses =>
    have same : moment.machine.config = stage.machine.config := congrArg Prod.fst (leads_setting stage stage moment leads)
    obtain ⟨call, rest, calls, _, running⟩ := refuses.piled
    have deep : limit < moment.calls.length := by
      rw [calls, List.length_cons]
      exact Nat.lt_succ_of_le (running.trans List.countP_le_length)
    refine ⟨by rw [← refuses.limit, same], ⟨fuel, name, lines, frame, comes, failed⟩, refuses, ?_,
      fun most longest few short => ?_, leads, leaves⟩
    · rw [← List.length_flatten, Call.chains_joined]
      exact deep
    · exact deep.trans_le (Call.chains_long moment.calls most longest few short)

-- A function that waits for a nap, and calls of it.
def naps (count : Nat) : String :=
  "async fn nap() \x7b await sleep(1) \x7d " ++ String.join (List.replicate count "nap() ; ")

def Failure.isDeep : Failure → Bool
  | .fault ⟨.depthExceeded .., _, _⟩ => true
  | _ => false

theorem Failure.deep_cause (failure : Failure) (deep : failure.isDeep = true) :
    ∃ limit name, failure.HasCause (.depthExceeded limit name) := by
  cases failure with
  | missingFile => cases deep
  | fault diagnostic =>
    obtain ⟨cause, position, notes⟩ := diagnostic
    cases cause <;> cases deep
    exact ⟨_, _, _, rfl, rfl⟩

theorem naps_deep : ((RuleSet.standard.engine 30).evalSource (naps 2)
    (Machine.start { Config.standard with depthLimit := 1 })).failsWith (fun failure _ => failure.isDeep) = true := by
  decide +kernel

end CoopScript
