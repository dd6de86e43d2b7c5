import CoopScript.Machine.State
import CoopScript.Proofs.Machine.Registry
import CoopScript.Proofs.Machine.Round

/-!
What happens to the queue of microtasks. Microtasks join it at its end and leave it at its front when they are begun, and
a reset clears it. A log of this leads from the queue as it was to the queue as it is.
-/
set_option autoImplicit false
namespace CoopScript

def Microtask.call? : Microtask → Option Nat
  | asyncBody task _ _ _ => some task.number
  | _ => none

def Microtask.calls (tasks : List Microtask) : List Nat := tasks.filterMap call?

inductive Movement where
  | joined (task : Microtask)
  | begun (task : Microtask)
  | cleared

namespace Movement

def joined? : Movement → Option Microtask
  | joined task => some task
  | _ => none

def begun? : Movement → Option Microtask
  | begun task => some task
  | _ => none

def isCleared : Movement → Bool
  | cleared => true
  | _ => false

def allJoined (log : List Movement) : List Microtask := log.filterMap joined?

def allBegun (log : List Movement) : List Microtask := log.filterMap begun?

def uncleared (log : List Movement) : Bool := !log.any isCleared

def recent : List Movement → List Movement
  | [] => []
  | movement :: log => if uncleared (movement :: log) then movement :: log else recent log

theorem recent_uncleared (log : List Movement) (kept : uncleared log = true) : recent log = log := by
  cases log with
  | nil => rfl
  | cons movement log => rw [recent, if_pos kept]

theorem recent_after (movement : Movement) (log : List Movement) (cleared : uncleared log = false) :
    recent (movement :: log) = recent log := by
  rw [recent, if_neg]
  simp only [uncleared, Bool.not_eq_false'] at cleared
  simp [uncleared, cleared]

-- How a log leads from one queue to another.
inductive Moves : List Microtask → List Movement → List Microtask → Prop where
  | none (queue : List Microtask) : Moves queue [] queue
  | join (queue after : List Microtask) (task : Microtask) (log : List Movement)
      (rest : Moves (queue ++ [task]) log after) : Moves queue (.joined task :: log) after
  | begin (queue after : List Microtask) (task : Microtask) (log : List Movement) (rest : Moves queue log after) :
      Moves (task :: queue) (.begun task :: log) after
  | clear (queue after : List Microtask) (log : List Movement) (rest : Moves [] log after) :
      Moves queue (.cleared :: log) after

theorem moves_append (queue middle after : List Microtask) (log more : List Movement) (first : Moves queue log middle)
    (second : Moves middle more after) : Moves queue (log ++ more) after := by
  induction first with
  | none => exact second
  | join queue middle task log _ ih => exact .join queue after task _ (ih second)
  | begin queue middle task log _ ih => exact .begin queue after task _ (ih second)
  | clear queue middle log _ ih => exact .clear queue after _ (ih second)

-- What was begun and what is left in the queue, one after the other, is what there was and what has joined it.
theorem moves_fifo (queue after : List Microtask) (log : List Movement) (moves : Moves queue log after) :
    allBegun (recent log) ++ after = (if uncleared log then queue else []) ++ allJoined (recent log) := by
  induction moves with
  | none queue => simp [recent, uncleared, allBegun, allJoined]
  | join queue after task log _ ih =>
    cases kept : uncleared log with
    | false =>
      have still : uncleared (.joined task :: log) = false := kept
      rw [recent_after _ log kept, still, ih, kept]
      rfl
    | true =>
      have still : uncleared (.joined task :: log) = true := kept
      rw [recent_uncleared log kept, kept, if_pos rfl] at ih
      rw [recent_uncleared _ still, still, if_pos rfl]
      show allBegun log ++ after = queue ++ task :: allJoined log
      rw [ih, List.append_assoc]
      rfl
  | begin queue after task log _ ih =>
    cases kept : uncleared log with
    | false =>
      have still : uncleared (.begun task :: log) = false := kept
      rw [recent_after _ log kept, still, ih, kept]
      rfl
    | true =>
      have still : uncleared (.begun task :: log) = true := kept
      rw [recent_uncleared log kept, kept, if_pos rfl] at ih
      rw [recent_uncleared _ still, still, if_pos rfl]
      show task :: (allBegun log ++ after) = task :: (queue ++ allJoined log)
      rw [ih]
  | clear queue after log _ ih =>
    have dropped : recent (.cleared :: log) = recent log := by rw [recent, if_neg (by simp [uncleared, isCleared])]
    have gone : uncleared (.cleared :: log) = false := rfl
    rw [dropped, gone, ih]
    simp

-- Also when the queue has been cleared meanwhile, nothing is begun that was not in it, or more than once.
theorem moves_once (queue after : List Microtask) (log : List Movement) (moves : Moves queue log after) :
    (allBegun log).Sublist (queue ++ allJoined log) := by
  induction moves with
  | none queue => exact List.nil_sublist _
  | join queue after task log _ ih =>
    rw [List.append_assoc] at ih
    exact ih
  | begin queue after task log _ ih => exact ih.cons_cons task
  | clear queue after log _ ih => exact ih.trans (List.sublist_append_right queue _)

end Movement

-- What a log tells of two machines. The bodies that have joined the queue belong to tasks made meanwhile.
structure Tally (before : Machine) (log : List Movement) (after : Machine) : Prop where
  moves : Movement.Moves before.microtasks log after.microtasks
  counted : before.tasks.count ≤ after.tasks.count
  ascending : (Microtask.calls (Movement.allJoined log)).Pairwise (· < ·)
  fresh : ∀ number ∈ Microtask.calls (Movement.allJoined log), before.tasks.count < number ∧ number ≤ after.tasks.count

namespace Tally
variable (before middle after : Machine) (log more : List Movement)

theorem none (same : after.microtasks = before.microtasks) (counted : before.tasks.count ≤ after.tasks.count) :
    Tally before [] after :=
  ⟨same ▸ .none _, counted, .nil, fun _ member => by cases member⟩

theorem trans (first : Tally before log middle) (second : Tally middle more after) : Tally before (log ++ more) after := by
  have split : Microtask.calls (Movement.allJoined (log ++ more)) =
      Microtask.calls (Movement.allJoined log) ++ Microtask.calls (Movement.allJoined more) := by
    simp only [Movement.allJoined, Microtask.calls, List.filterMap_append]
  refine ⟨Movement.moves_append _ _ _ _ _ first.moves second.moves, Nat.le_trans first.counted second.counted, ?_, ?_⟩
  · rw [split, List.pairwise_append]
    refine ⟨first.ascending, second.ascending, fun earlier early later late => ?_⟩
    exact Nat.lt_of_le_of_lt (first.fresh earlier early).2 (second.fresh later late).1
  · intro number member
    rw [split] at member
    rcases List.mem_append.mp member with early | late
    · exact ⟨(first.fresh number early).1, Nat.le_trans (first.fresh number early).2 second.counted⟩
    · exact ⟨Nat.lt_of_le_of_lt first.counted (second.fresh number late).1, (second.fresh number late).2⟩

theorem begun (task : Microtask) (rest : List Microtask) (next : before.microtasks = task :: rest)
    (tally : Tally { before with microtasks := rest } log after) : Tally before (.begun task :: log) after :=
  ⟨next ▸ .begin rest _ task log tally.moves, tally.counted, tally.ascending, tally.fresh⟩

end Tally

-- The same microtasks wait, and no task is lost.
structure Machine.Waiting (before after : Machine) : Prop where
  microtasks : after.microtasks = before.microtasks
  tasks : before.tasks.count ≤ after.tasks.count

-- All that a drain does with the microtask that comes next: it takes it out of the queue and runs it, once.
def Engine.begin (engine : Engine) (report : TickReport) (task : Microtask) (rest : List Microtask) :
    Exec (TickReport ⊕ TickReport) := do
  Exec.modify fun machine => { machine with microtasks := rest }
  let report := { report with microtasks := report.microtasks + 1 }
  engine.runMicrotask task
  if ← Exec.isHalted then return .inr report
  return .inl report

section Begin
variable (engine : Engine) (report : TickReport) (task : Microtask) (rest : List Microtask) (machine after : Machine)

theorem Engine.begin_leaves (left : (engine.begin report task rest machine).Leaves after) :
    (engine.runMicrotask task { machine with microtasks := rest }).Leaves after := by
  unfold begin at left
  rw [Exec.modify_then] at left
  rcases Exec.leaves_bind _ _ _ after left with failed | ⟨_, middle, done, halts⟩
  · exact failed
  · rw [Exec.halted_then] at halts
    have same : after = middle := by
      split at halts <;> exact (Outcome.done_leaves _ _ after).mp halts
    exact same ▸ .inl ⟨_, done⟩

end Begin

namespace Exec

def Quiet {α : Type} (step : Exec α) : Prop :=
  ∀ machine after, (step machine).Leaves after → machine.Waiting after

-- What a run that comes to an end, done or failed, has done to the queue.
inductive Logs : {α : Type} → Exec α → Machine → List Movement → Prop where
  | quiet {α : Type} (step : Exec α) (machine : Machine) (quiet : step.Quiet) : Logs step machine []
  | done {α β : Type} (step : Exec α) (next : α → Exec β) (machine middle : Machine) (value : α)
      (log more : List Movement) (ran : step machine = .done value middle) (first : Logs step machine log)
      (second : Logs (next value) middle more) : Logs (step >>= next) machine (log ++ more)
  | failed {α β : Type} (step : Exec α) (next : α → Exec β) (machine middle : Machine) (failure : Failure)
      (log : List Movement) (ran : step machine = .failed failure middle) (first : Logs step machine log) :
      Logs (step >>= next) machine log
  | attempt {α : Type} (step : Exec α) (machine : Machine) (log : List Movement) (first : Logs step machine log) :
      Logs step.attempt machine log
  | mapFailure {α : Type} (change : Failure → Failure) (step : Exec α) (machine : Machine) (log : List Movement)
      (first : Logs step machine log) : Logs (step.mapFailure change) machine log
  | enqueue (task : Microtask) (machine : Machine) (other : task.call? = none) :
      Logs (enqueueMicrotask task) machine [.joined task]
  | call (name : String) (lines : List Node) (arguments : Bindings) (caller frame : FrameId) (frames : Arena)
      (machine : Machine) (pushed : machine.frames.push caller true arguments = .ok (frame, frames)) :
      Logs (spawnAsync name lines arguments caller) machine
        [.joined (.asyncBody machine.tasks.create.1 name lines frame)]
  | begin (engine : Engine) (report : TickReport) (task : Microtask) (rest : List Microtask) (machine : Machine)
      (log : List Movement) (next : machine.microtasks = task :: rest)
      (runs : Logs (engine.runMicrotask task) { machine with microtasks := rest } log) :
      Logs (engine.begin report task rest) machine (.begun task :: log)
  | clear (machine : Machine) :
      Logs (modify fun machine => { machine with ready := [], microtasks := [] }) machine [.cleared]

/-- What a run, which need not come to an end, has done to the queue by the time that it passes through a machine. -/
inductive Passes : {α : Type} → Exec α → Machine → List Movement → Machine → Prop where
  | here {α : Type} (step : Exec α) (machine : Machine) : Passes step machine [] machine
  | ended {α : Type} (step : Exec α) (machine after : Machine) (log : List Movement) (logs : Logs step machine log)
      (left : (step machine).Leaves after) : Passes step machine log after
  | first {α β : Type} (step : Exec α) (next : α → Exec β) (machine middle : Machine) (log : List Movement)
      (passes : Passes step machine log middle) : Passes (step >>= next) machine log middle
  | next {α β : Type} (step : Exec α) (next : α → Exec β) (machine between middle : Machine) (value : α)
      (log more : List Movement) (ran : step machine = .done value between) (logs : Logs step machine log)
      (passes : Passes (next value) between more middle) : Passes (step >>= next) machine (log ++ more) middle
  | attempt {α : Type} (step : Exec α) (machine middle : Machine) (log : List Movement)
      (passes : Passes step machine log middle) : Passes step.attempt machine log middle
  | mapFailure {α : Type} (change : Failure → Failure) (step : Exec α) (machine middle : Machine)
      (log : List Movement) (passes : Passes step machine log middle) : Passes (step.mapFailure change) machine log middle
  | begin (engine : Engine) (report : TickReport) (task : Microtask) (rest : List Microtask) (machine middle : Machine)
      (log : List Movement) (next : machine.microtasks = task :: rest)
      (passes : Passes (engine.runMicrotask task) { machine with microtasks := rest } log middle) :
      Passes (engine.begin report task rest) machine (.begun task :: log) middle

section Tallies

theorem logs_tally {α : Type} (step : Exec α) (machine after : Machine) (log : List Movement)
    (logs : step.Logs machine log) (left : (step machine).Leaves after) : Tally machine log after := by
  induction logs generalizing after with
  | quiet step machine quiet =>
    have waiting := quiet machine after left
    exact .none machine after waiting.microtasks waiting.tasks
  | done step next machine middle value log more ran _ _ first second =>
    rw [bind_done step next _ _ value ran] at left
    exact .trans machine middle after log more (first middle (.inl ⟨value, ran⟩)) (second after left)
  | failed step next machine middle failure log ran _ first =>
    rw [bind_failed step next _ _ failure ran, Outcome.failed_leaves] at left
    subst left
    exact first after (.inr ⟨failure, ran⟩)
  | attempt step machine log _ ih => exact ih after (leaves_attempt step machine after left)
  | mapFailure change step machine log _ ih => exact ih after (leaves_map_failure step machine after change left)
  | enqueue task machine other =>
    obtain rfl := (Outcome.done_leaves _ _ after).mp left
    have alone : Microtask.calls (Movement.allJoined [.joined task]) = [] := by
      simp [Microtask.calls, Movement.allJoined, Movement.joined?, other]
    exact ⟨.join _ _ task [] (.none _), Nat.le_refl _, alone ▸ .nil, fun number member => by simp [alone] at member⟩
  | call name lines arguments caller frame frames machine pushed =>
    rcases spawn_async_cases name lines arguments caller machine with ⟨_, _, again, done⟩ | ⟨_, refused, _⟩
    · cases pushed.symm.trans again
      rw [done, Outcome.done_leaves] at left
      subst left
      refine ⟨.join _ _ _ [] (.none _), machine.tasks.count_created, List.pairwise_singleton _ _, ?_⟩
      intro number member
      obtain rfl := List.mem_singleton.mp member
      exact ⟨Nat.lt_succ_self _, machine.tasks.created_within.2⟩
    · cases pushed.symm.trans refused
  | begin engine report task rest machine log next _ ih =>
    exact .begun machine after log task rest next (ih after (engine.begin_leaves report task rest machine after left))
  | clear machine =>
    obtain rfl := (Outcome.done_leaves _ _ after).mp left
    exact ⟨.clear _ _ [] (.none _), Nat.le_refl _, .nil, fun _ member => by cases member⟩

theorem passes_tally {α : Type} (step : Exec α) (machine middle : Machine) (log : List Movement)
    (passes : step.Passes machine log middle) : Tally machine log middle := by
  induction passes with
  | here step machine => exact .none machine machine rfl (Nat.le_refl _)
  | ended step machine after log logs left => exact logs_tally step machine after log logs left
  | first step next machine middle log _ ih => exact ih
  | next step next machine between middle value log more ran logs _ ih =>
    exact .trans machine between middle log more (logs_tally step machine between log logs (.inl ⟨value, ran⟩)) ih
  | attempt step machine middle log _ ih => exact ih
  | mapFailure change step machine middle log _ ih => exact ih
  | begin engine report task rest machine middle log next _ ih => exact .begun machine middle log task rest next ih

-- A run passes through all that its log tells of.
theorem logs_pass {α : Type} (step : Exec α) (machine after : Machine) (log front back : List Movement)
    (logs : step.Logs machine log) (left : (step machine).Leaves after) (split : log = front ++ back) :
    ∃ middle, step.Passes machine front middle := by
  induction logs generalizing after front back with
  | quiet step machine quiet =>
    obtain ⟨rfl, rfl⟩ := List.nil_eq_append_iff.mp split
    exact ⟨machine, .here step machine⟩
  | done step next machine middle value log more ran firstLogs _ first second =>
    rw [bind_done step next _ _ value ran] at left
    rcases List.append_eq_append_iff.mp split with ⟨rest, rfl, same⟩ | ⟨rest, rfl, _⟩
    · obtain ⟨between, passes⟩ := second after rest back left same
      exact ⟨between, .next step next machine middle between value log rest ran firstLogs passes⟩
    · obtain ⟨between, passes⟩ := first middle front rest (.inl ⟨value, ran⟩) rfl
      exact ⟨between, .first step next machine between front passes⟩
  | failed step next machine middle failure log ran _ first =>
    obtain ⟨between, passes⟩ := first middle front back (.inr ⟨failure, ran⟩) split
    exact ⟨between, .first step next machine between front passes⟩
  | attempt step machine log _ ih =>
    obtain ⟨between, passes⟩ := ih after front back (leaves_attempt step machine after left) split
    exact ⟨between, .attempt step machine between front passes⟩
  | mapFailure change step machine log _ ih =>
    obtain ⟨between, passes⟩ := ih after front back (leaves_map_failure step machine after change left) split
    exact ⟨between, .mapFailure change step machine between front passes⟩
  | begin engine report task rest machine log next _ ih =>
    cases front with
    | nil => exact ⟨machine, .here _ machine⟩
    | cons movement front =>
      obtain ⟨rfl, same⟩ := List.cons.inj split
      have ran := engine.begin_leaves report task rest machine after left
      obtain ⟨between, passes⟩ := ih after front back ran same
      exact ⟨between, .begin engine report task rest machine between front next passes⟩
  | enqueue | call | clear =>
    -- A single movement has been made or not.
    cases front with
    | nil => exact ⟨_, .here _ _⟩
    | cons movement front =>
      obtain ⟨rfl, same⟩ := List.cons.inj split
      obtain ⟨rfl, rfl⟩ := List.nil_eq_append_iff.mp same
      refine ⟨after, .ended _ _ after _ ?_ left⟩
      first
        | exact .enqueue _ _ ‹_›
        | exact .call _ _ _ _ _ _ _ ‹_›
        | exact .clear _

end Tallies

end Exec

end CoopScript
