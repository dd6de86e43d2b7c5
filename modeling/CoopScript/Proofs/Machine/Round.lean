import CoopScript.Proofs.Machine.Primitive

set_option autoImplicit false
namespace CoopScript

namespace Exec
variable {α σ : Type}

theorem iterate_last (step : σ → Exec (σ ⊕ α)) (inv : σ → Machine → Prop) (fuel : Nat) (state : σ)
    (value : α) (machine after : Machine) (start : inv state machine)
    (kept : ∀ state machine next middle, inv state machine →
      step state machine = .done (.inl next) middle → inv next middle)
    (done : iterate step fuel state machine = .done value after) :
    ∃ last middle, inv last middle ∧ step last middle = .done (.inr value) after := by
  induction fuel generalizing state machine with
  | zero => cases done
  | succ fuel ih =>
    unfold iterate at done
    cases ran : step state machine with
    | failed | outOfFuel =>
      rw [ran] at done
      cases done
    | done result middle =>
      rw [ran] at done
      cases result with
      | inl next => exact ih next middle (kept state machine next middle start ran) done
      | inr last =>
        cases done
        exact ⟨state, machine, start, ran⟩

theorem iterate_same (step other : σ → Exec (σ ⊕ α)) (inv : Machine → Prop)
    (same : ∀ state machine, inv machine → step state machine = other state machine)
    (kept : ∀ state machine next after, inv machine → step state machine = .done (.inl next) after → inv after)
    (fuel : Nat) (state : σ) (machine : Machine) (start : inv machine) :
    iterate step fuel state machine = iterate other fuel state machine := by
  induction fuel generalizing state machine with
  | zero => rfl
  | succ fuel ih =>
    have here := same state machine start
    cases ran : step state machine with
    | failed | outOfFuel =>
      rw [ran] at here
      simp only [iterate, ran, ← here]
    | done result after =>
      rw [ran] at here
      cases result with
      | inl next => simpa only [iterate, ran, ← here] using ih next after (kept state machine next after start ran)
      | inr value => simp only [iterate, ran, ← here]

end Exec

-- The machine as the next pass finds it, after a rest if there was nothing to do but to wait.
def Machine.rested (machine : Machine) (report : TickReport) : Machine :=
  if report.isOnlyWaiting then machine.pass (1000 * machine.config.pollInterval) else machine

theorem Machine.rested_config (machine : Machine) (report : TickReport) :
    (machine.rested report).config = machine.config := by
  unfold rested
  split <;> rfl

theorem Machine.rested_halted (machine : Machine) (report : TickReport) :
    (machine.rested report).halted = machine.halted := by
  unfold rested
  split <;> rfl

theorem TickReport.idle_calm (report : TickReport) (idle : report.isIdle = true) : report.isOnlyWaiting = false := by
  simp only [isIdle, Bool.and_eq_true, Bool.not_eq_true'] at idle
  simp only [isOnlyWaiting, idle.2, Bool.and_false]

theorem Machine.rested_idle (machine : Machine) (report : TickReport) (idle : report.isIdle = true) :
    machine.rested report = machine := by
  simp only [rested, report.idle_calm idle, Bool.false_eq_true, if_false]

namespace Engine

def lineStep (engine : Engine) (report : TickReport) : Exec (TickReport ⊕ TickReport) := do
  match ← Exec.read (·.ready) with
  | [] => return .inr report
  | line :: rest =>
    if ← Exec.isHalted then return .inr report
    Exec.modify fun machine => { machine with ready := rest }
    let value ← engine.executeLine line.node line.frame
    Exec.record line.runner value
    Exec.advance line.runner
    return .inl { report with lines := report.lines + 1 }

theorem run_lines_rounds (engine : Engine) (report : TickReport) :
    engine.runLines report = Exec.iterate engine.lineStep engine.fuel report := rfl

def runStep (engine : Engine) (idle : Nat) : Exec (Nat ⊕ Unit) := do
  let report ← engine.tick
  if ← Exec.isHalted then return .inr ()
  if report.isOnlyWaiting then Exec.wait
  if !report.isIdle then return .inl 0
  if (← Exec.read (·.config.idleLimit)) ≤ idle + 1 then return .inr ()
  return .inl (idle + 1)

theorem run_rounds (engine : Engine) : engine.run = Exec.iterate engine.runStep engine.fuel 0 := rfl

def laterTiers (engine : Engine) (report : TickReport) : Exec TickReport := do
  let report ← unlessHalted engine.drainMicrotasks report
  unlessHalted engine.serviceEvents report

def endRound (idle : Nat) (report : TickReport) : Exec (Nat ⊕ Unit) := do
  if ← Exec.isHalted then return .inr ()
  if report.isOnlyWaiting then Exec.wait
  if !report.isIdle then return .inl 0
  if (← Exec.read (·.config.idleLimit)) ≤ idle + 1 then return .inr ()
  return .inl (idle + 1)

theorem tick_parts (engine : Engine) : engine.tick = engine.runLines .empty >>= engine.laterTiers := rfl

theorem run_step_parts (engine : Engine) (idle : Nat) : engine.runStep idle = engine.tick >>= endRound idle := rfl

-- What is left of a run after the lines of its first tick.
def afterLines (engine : Engine) (fuel : Nat) (report : TickReport) : Exec Unit := do
  let report ← engine.laterTiers report
  match ← endRound 0 report with
  | .inl idle => Exec.iterate engine.runStep fuel idle
  | .inr ended => return ended

theorem run_parts (engine : Engine) (fuel : Nat) (same : engine.fuel = fuel + 1) :
    engine.run = engine.runLines .empty >>= engine.afterLines fuel := by
  rw [run_rounds, same, Exec.iterate_unrolled, run_step_parts, tick_parts, Exec.bind_assoc, Exec.bind_assoc]
  refine congrArg _ (funext fun report => ?_)
  unfold afterLines
  refine congrArg _ (funext fun report => congrArg _ (funext fun result => ?_))
  cases result <;> rfl

-- Takes the value of a task, or makes a pass over the microtasks and events while it is pending.
def awaitPass (engine : Engine) (task : TaskId) : Exec (TickReport ⊕ Value) := do
  match ← Exec.consumeTask task with
  | some value => return .inr value
  | none =>
    if ← Exec.isHalted then Exec.fail .interrupted
    let report ← engine.drainMicrotasks .empty
    return .inl (← engine.serviceEvents report)

section Rounds
variable (engine : Engine) (task : TaskId) (idle : Nat) (report : TickReport) (machine : Machine)

-- What comes after a pass in which a task has been waited for.
def endWait (idle : Nat) (report : TickReport) : Exec (Nat ⊕ Value) := do
  if report.isOnlyWaiting then Exec.wait
  if !report.isIdle then return .inl 0
  if (← Exec.read (·.config.idleLimit)) < idle + 1 then Exec.fail .neverSettled
  return .inl (idle + 1)

theorem await_step_parts : engine.awaitStep task idle =
    (engine.awaitPass task >>= fun result =>
      match result with
      | .inl report => endWait idle report
      | .inr value => Pure.pure (.inr value)) := by
  unfold awaitStep awaitPass
  rw [Exec.bind_assoc]
  refine congrArg _ (funext fun given => ?_)
  cases given with
  | some value => rfl
  | none =>
    show (Exec.isHalted >>= _) = (Exec.isHalted >>= _) >>= _
    rw [Exec.bind_assoc]
    refine congrArg _ (funext fun halted => ?_)
    cases halted with
    | true => rfl
    | false =>
      show (Exec.iterate _ _ _ >>= _) = (Exec.iterate _ _ _ >>= _) >>= _
      rw [Exec.bind_assoc]
      refine congrArg _ (funext fun report => ?_)
      rw [Exec.bind_assoc]
      rfl

theorem end_round_running (running : machine.halted = false) :
    endRound idle report machine =
      if report.isIdle then
        if machine.config.idleLimit ≤ idle + 1 then .done (.inr ()) machine else .done (.inl (idle + 1)) machine
      else .done (.inl 0) (machine.rested report) := by
  unfold endRound
  rw [Exec.halted_then, running]
  cases idles : report.isIdle with
  | true =>
    rw [report.idle_calm idles]
    show (if machine.config.idleLimit ≤ idle + 1 then _ else _ : Exec (Nat ⊕ Unit)) machine = _
    split <;> rfl
  | false =>
    unfold Machine.rested
    cases report.isOnlyWaiting <;> rfl

theorem end_wait_pending :
    endWait idle report machine =
      if report.isIdle then
        if machine.config.idleLimit < idle + 1 then .failed (.of .neverSettled) machine
        else .done (.inl (idle + 1)) machine
      else .done (.inl 0) (machine.rested report) := by
  unfold endWait
  cases idles : report.isIdle with
  | true =>
    rw [report.idle_calm idles]
    show (if machine.config.idleLimit < idle + 1 then _ else _ : Exec (Nat ⊕ Value)) machine = _
    split <;> rfl
  | false =>
    unfold Machine.rested
    cases report.isOnlyWaiting <;> rfl

-- A task that has been waited for gives its value at once or in a later round.
theorem await_step_found (value : Value) (after : Machine) (done : engine.awaitStep task idle machine = .done (.inr value) after) :
    Exec.consumeTask task machine = .done (some value) after := by
  rw [await_step_parts] at done
  obtain ⟨middle, result, passed, ended⟩ := Exec.done_of_bind _ _ machine after _ done
  cases result with
  | inl report =>
    simp only [end_wait_pending] at ended
    split at ended
    · split at ended <;> cases ended
    · cases ended
  | inr found =>
    cases ended
    obtain ⟨taken, given, consumed, rest⟩ := Exec.done_of_bind _ _ machine after _ passed
    cases given with
    | some found =>
      cases rest
      exact consumed
    | none =>
      obtain ⟨_, halted, _, goesOn⟩ := Exec.done_of_bind _ _ taken after _ rest
      cases halted with
      | true => cases goesOn
      | false =>
        obtain ⟨drained, report, _, serves⟩ := Exec.done_of_bind _ _ _ after _ goesOn
        obtain ⟨_, _, _, same⟩ := Exec.done_of_bind _ _ drained after _ serves
        cases same

end Rounds

end Engine

end CoopScript
