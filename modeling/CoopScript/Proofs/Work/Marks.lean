import CoopScript.Proofs.Queue.Log
import CoopScript.Proofs.Work.Moment
import Mathlib.Logic.Relation

set_option autoImplicit false
namespace CoopScript

def Exec.Calm {α : Type} (step : Exec α) : Prop :=
  ∀ machine after : Machine, machine.Tidy → (step machine).Leaves after → machine.Unmoved after

-- The machine is tidy still, and a host's event is one still.
structure Machine.Goes (machine after : Machine) : Prop where
  tidy : after.Tidy
  later : machine.Later after

namespace Exec

inductive Marks : {α : Type} → Exec α → Machine → List Mark → Machine → Prop where
  | aside {α : Type} (step : Exec α) (machine after : Machine) (calm : step.Calm) (left : (step machine).Leaves after)
      (goes : machine.Goes after) : Marks step machine [] after
  | done {α β : Type} (step : Exec α) (next : α → Exec β) (machine middle after : Machine) (value : α)
      (marks more : List Mark) (ran : step machine = .done value middle) (first : Marks step machine marks middle)
      (second : Marks (next value) middle more after) : Marks (step >>= next) machine (marks ++ more) after
  | failed {α β : Type} (step : Exec α) (next : α → Exec β) (machine after : Machine) (failure : Failure)
      (marks : List Mark) (ran : step machine = .failed failure after) (first : Marks step machine marks after) :
      Marks (step >>= next) machine marks after
  | attempt {α : Type} (step : Exec α) (machine after : Machine) (marks : List Mark)
      (first : Marks step machine marks after) : Marks step.attempt machine marks after
  | mapFailure {α : Type} (change : Failure → Failure) (step : Exec α) (machine after : Machine) (marks : List Mark)
      (first : Marks step machine marks after) : Marks (step.mapFailure change) machine marks after
  | create (machine : Machine) (goes : machine.Goes { machine with tasks := machine.tasks.create.2 }) :
      Marks createTask machine [.made machine.tasks.create.1 .bare] { machine with tasks := machine.tasks.create.2 }
  | call (name : String) (lines : List Node) (arguments : Bindings) (caller frame : FrameId) (frames : Arena)
      (machine after : Machine) (pushed : machine.frames.push caller true arguments = .ok (frame, frames))
      (called : after = { machine with
        tasks := machine.tasks.create.2
        frames := frames
        asyncFrames := machine.asyncFrames ++ [frame]
        microtasks := machine.microtasks ++ [.asyncBody machine.tasks.create.1 name lines frame] })
      (goes : machine.Goes after) :
      Marks (spawnAsync name lines arguments caller) machine
        [.made machine.tasks.create.1 (.called name lines frame)] after
  | refused (name : String) (lines : List Node) (arguments : Bindings) (caller : FrameId) (cause : Cause)
      (machine : Machine) (refused : machine.frames.push caller true arguments = .error cause)
      (goes : machine.Goes { machine with tasks := machine.tasks.create.2 }) :
      Marks (spawnAsync name lines arguments caller) machine [.made machine.tasks.create.1 .bare]
        { machine with tasks := machine.tasks.create.2 }
  | submit (outcome : Option Scalar) (milliseconds : Nat) (promise : Value) (machine after : Machine)
      (submitted : spawnBlocking outcome milliseconds machine = .done promise after) (goes : machine.Goes after) :
      Marks (spawnBlocking outcome milliseconds) machine [.made machine.tasks.create.1 (.submitted outcome)] after
  | poll (engine : Engine) (id : EventId) (machine polled : Machine) (status : EventStatus)
      (events : List (EventId × Option Microevent)) (asked : Polled machine status polled)
      (served : engine.serviceEvent id .pollPool machine = .done status { polled with events := events })
      (goes : machine.Goes { polled with events := events }) :
      Marks (engine.serviceEvent id .pollPool) machine [] { polled with events := events }
  | take (task : TaskId) (value : Value) (machine after : Machine)
      (taken : consumeTask task machine = .done (some value) after) (goes : machine.Goes after) :
      Marks (consumeTask task) machine [.taken task value] after
  | untaken (task : TaskId) (machine : Machine) (left : (consumeTask task machine).Leaves machine) :
      Marks (consumeTask task) machine [] machine
  | settle (engine : Engine) (report : TickReport) (task : TaskId) (outcome : Scalar) (rest : List Microtask)
      (machine after : Machine) (next : machine.microtasks = .settle task outcome :: rest)
      (settled : settleTask task (machine.classes.scalar outcome) { machine with microtasks := rest } = .done () after)
      (goes : machine.Goes after) :
      Marks (engine.begin report (.settle task outcome) rest) machine
        [.settled task (machine.classes.scalar outcome) (.produced outcome)] after
  | panic (engine : Engine) (report : TickReport) (task : TaskId) (rest : List Microtask) (machine : Machine)
      (next : machine.microtasks = .panicked task :: rest) :
      Marks (engine.begin report (.panicked task) rest) machine [.dropped task .panicked]
        { machine with microtasks := rest }
  | host (engine : Engine) (report : TickReport) (actions : List Action) (rest : List Microtask)
      (machine after : Machine) (marks : List Mark) (next : machine.microtasks = .host actions :: rest)
      (performs : Marks (engine.performAll actions) { machine with microtasks := rest } marks after) :
      Marks (engine.begin report (.host actions) rest) machine marks after
  | returned (fuel : Nat) (report : TickReport) (body : Activation) (rest : List Microtask) (value : Value)
      (machine left middle after : Machine) (marks : List Mark)
      (next : machine.microtasks = .asyncBody body.task body.name body.lines body.frame :: rest)
      (begun : body.begun = machine.entered rest body.frame)
      (runs : Marks ((RuleSet.standard.engine fuel).runFrame body.name body.lines body.frame) body.begun marks left)
      (ran : (RuleSet.standard.engine fuel).runFrame body.name body.lines body.frame body.begun = .done value left)
      (released : releaseFrame body.frame left = .done () middle)
      (settled : settleTask body.task value middle = .done () after) (goes : machine.Goes after) :
      Marks ((RuleSet.standard.engine fuel).begin report (.asyncBody body.task body.name body.lines body.frame) rest)
        machine (marks ++ [.settled body.task value (.returned body)]) after
  | broken (fuel : Nat) (report : TickReport) (body : Activation) (rest : List Microtask) (failure : Failure)
      (machine left after : Machine) (marks : List Mark)
      (next : machine.microtasks = .asyncBody body.task body.name body.lines body.frame :: rest)
      (begun : body.begun = machine.entered rest body.frame)
      (runs : Marks ((RuleSet.standard.engine fuel).runFrame body.name body.lines body.frame) body.begun marks left)
      (released : (releaseFrame body.frame left).Leaves after)
      (failed : (RuleSet.standard.engine fuel).begin report (.asyncBody body.task body.name body.lines body.frame) rest
        machine = .failed failure after) (goes : machine.Goes after) :
      Marks ((RuleSet.standard.engine fuel).begin report (.asyncBody body.task body.name body.lines body.frame) rest)
        machine (marks ++ [.dropped body.task .broken]) after
  | giveUp (failure : Failure) (machine after : Machine) (left : (reset machine).Leaves after)
      (unmoved : Machine.Unmoved { machine with ready := [], microtasks := [] } after) (goes : machine.Goes after) :
      Marks (do reset; raise failure : Exec Value) machine (Moment.dropped machine) after
  | empty (machine after : Machine) (left : (reset machine).Leaves after)
      (unmoved : Machine.Unmoved { machine with ready := [], microtasks := [] } after) (goes : machine.Goes after) :
      Marks (do reset; return .nothing : Exec Answer) machine (Moment.dropped machine) after

-- What a run, which need not come to an end, comes to: another run that is part of it, with the bodies begun and the
-- marks made meanwhile.
inductive Meets : {α β : Type} → Exec α → Machine → Exec β → Moment → Prop where
  | here {α : Type} (step : Exec α) (machine : Machine) : Meets step machine step ⟨[], [], machine⟩
  | first {α β γ : Type} (step : Exec α) (next : α → Exec β) (machine : Machine) (inner : Exec γ) (place : Moment)
      (meets : Meets step machine inner place) : Meets (step >>= next) machine inner place
  | next {α β γ : Type} (step : Exec α) (next : α → Exec β) (machine middle : Machine) (value : α) (marks : List Mark)
      (ran : step machine = .done value middle) (first : Marks step machine marks middle) (inner : Exec γ)
      (place : Moment) (meets : Meets (next value) middle inner place) :
      Meets (step >>= next) machine inner { place with log := marks ++ place.log }
  | attempt {α β : Type} (step : Exec α) (machine : Machine) (inner : Exec β) (place : Moment)
      (meets : Meets step machine inner place) : Meets step.attempt machine inner place
  | mapFailure {α β : Type} (change : Failure → Failure) (step : Exec α) (machine : Machine) (inner : Exec β)
      (place : Moment) (meets : Meets step machine inner place) : Meets (step.mapFailure change) machine inner place
  | host {α : Type} (engine : Engine) (report : TickReport) (actions : List Action) (rest : List Microtask)
      (machine : Machine) (next : machine.microtasks = .host actions :: rest) (inner : Exec α) (place : Moment)
      (meets : Meets (engine.performAll actions) { machine with microtasks := rest } inner place) :
      Meets (engine.begin report (.host actions) rest) machine inner place
  | body {α : Type} (fuel : Nat) (report : TickReport) (body : Activation) (rest : List Microtask) (machine : Machine)
      (next : machine.microtasks = .asyncBody body.task body.name body.lines body.frame :: rest)
      (begun : body.begun = machine.entered rest body.frame) (inner : Exec α) (place : Moment)
      (meets : Meets ((RuleSet.standard.engine fuel).runFrame body.name body.lines body.frame) body.begun inner place) :
      Meets ((RuleSet.standard.engine fuel).begin report (.asyncBody body.task body.name body.lines body.frame) rest)
        machine inner ⟨place.bodies ++ [body], place.log, place.machine⟩

-- A run passes through the moment at which it comes to an end, and through those at which it comes to others.
def Visits {α : Type} (step : Exec α) (machine : Machine) (place : Moment) : Prop :=
  place.bodies = [] ∧ step.Marks machine place.log place.machine ∨ ∃ (β : Type) (inner : Exec β), step.Meets machine inner place

end Exec

theorem Engine.leaves_begin (engine : Engine) (report : TickReport) (task : Microtask) (rest : List Microtask)
    (machine after : Machine) (left : (engine.runMicrotask task { machine with microtasks := rest }).Leaves after) :
    (engine.begin report task rest machine).Leaves after := by
  unfold begin
  rw [Exec.modify_then]
  rcases left with ⟨_, done⟩ | ⟨failure, failed⟩
  · rw [Exec.bind_done _ _ _ after () done, Exec.halted_then]
    split <;> exact .inl ⟨_, rfl⟩
  · exact .inr ⟨failure, Exec.bind_failed _ _ _ after failure failed⟩

-- A body that has returned settles its task as soon as its frame is let go of.
theorem Engine.run_body_returned (engine : Engine) (body : Activation) (rest : List Microtask) (value : Value)
    (machine left middle after : Machine) (begun : body.begun = machine.entered rest body.frame)
    (ran : engine.runFrame body.name body.lines body.frame body.begun = .done value left)
    (released : Exec.releaseFrame body.frame left = .done () middle)
    (settled : Exec.settleTask body.task value middle = .done () after) :
    engine.runMicrotask (.asyncBody body.task body.name body.lines body.frame) { machine with microtasks := rest } =
      .done () after := by
  have attempted : (engine.runFrame body.name body.lines body.frame).attempt (machine.entered rest body.frame) =
      .done (.ok value) left := by
    rw [← begun]
    simp only [Exec.attempt, ran]
  show engine.runAsyncBody _ _ _ _ _ = _
  unfold runAsyncBody
  rw [Exec.modify_then]
  show (((engine.runFrame body.name body.lines body.frame).attempt >>= _) (machine.entered rest body.frame)) = _
  rw [Exec.bind_done _ _ _ left _ attempted, Exec.bind_done _ _ _ middle () released]
  exact settled

namespace Exec

theorem marks_leaves {α : Type} (step : Exec α) (machine after : Machine) (marks : List Mark)
    (made : step.Marks machine marks after) : (step machine).Leaves after := by
  induction made with
  | aside _ _ _ _ left => exact left
  | done step next machine middle after value _ _ ran _ _ _ second =>
    rw [bind_done step next _ _ value ran]
    exact second
  | failed step next machine after failure _ ran =>
    exact .inr ⟨failure, bind_failed step next _ _ failure ran⟩
  | attempt step machine after _ _ left =>
    rcases left with ⟨value, ran⟩ | ⟨failure, ran⟩
    · exact .inl ⟨.ok value, by simp only [attempt, ran]⟩
    · exact .inl ⟨.error failure, by simp only [attempt, ran]⟩
  | mapFailure change step machine after _ _ left =>
    rcases left with ⟨value, ran⟩ | ⟨failure, ran⟩
    · exact .inl ⟨value, by simp only [mapFailure, ran]⟩
    · exact .inr ⟨change failure, by simp only [mapFailure, ran]⟩
  | create => exact .inl ⟨_, rfl⟩
  | call name lines arguments caller frame frames machine after pushed called =>
    rcases spawn_async_cases name lines arguments caller machine with ⟨_, _, again, done⟩ | ⟨_, refused, _⟩
    · cases pushed.symm.trans again
      exact .inl ⟨_, called ▸ done⟩
    · cases pushed.symm.trans refused
  | refused name lines arguments caller cause machine refused =>
    rcases spawn_async_cases name lines arguments caller machine with ⟨_, _, pushed, _⟩ | ⟨other, _, failed⟩
    · cases pushed.symm.trans refused
    · exact .inr ⟨_, failed⟩
  | submit _ _ promise _ _ submitted => exact .inl ⟨promise, submitted⟩
  | poll _ _ _ _ status _ _ served => exact .inl ⟨status, served⟩
  | take _ value _ _ taken => exact .inl ⟨some value, taken⟩
  | untaken _ _ left => exact left
  | settle engine report task outcome rest machine after _ settled =>
    exact engine.leaves_begin report _ rest machine after (.inl ⟨(), settled⟩)
  | panic engine report task rest machine => exact engine.leaves_begin report _ rest machine _ (.inr ⟨_, rfl⟩)
  | host engine report actions rest machine after _ _ _ left => exact engine.leaves_begin report _ rest machine after left
  | returned fuel report body rest value machine left middle after _ _ begun _ ran released settled =>
    have done := Engine.run_body_returned _ body rest value machine left middle after begun ran released settled
    exact Engine.leaves_begin _ report _ rest machine after (.inl ⟨(), done⟩)
  | broken _ _ _ _ failure _ _ _ _ _ _ _ _ failed => exact .inr ⟨failure, failed⟩
  | giveUp failure machine after left =>
    rcases left with ⟨_, done⟩ | ⟨other, failed⟩
    · exact .inr ⟨failure, bind_done reset _ _ after () done⟩
    · exact .inr ⟨other, bind_failed reset _ _ after other failed⟩
  | empty machine after left =>
    rcases left with ⟨_, done⟩ | ⟨other, failed⟩
    · exact .inl ⟨.nothing, bind_done reset _ _ after () done⟩
    · exact .inr ⟨other, bind_failed reset _ _ after other failed⟩

theorem marks_later {α : Type} (step : Exec α) (machine after : Machine) (marks : List Mark)
    (made : step.Marks machine marks after) : machine.Later after := by
  induction made with
  | done _ _ machine middle after _ _ _ _ _ _ first second => exact machine.later_trans middle after first second
  | failed _ _ _ _ _ _ _ _ later | attempt _ _ _ _ _ later | mapFailure _ _ _ _ _ _ later => exact later
  | host _ _ _ rest machine after _ _ _ later =>
    exact machine.later_trans { machine with microtasks := rest } after (machine.later_kept _ rfl rfl) later
  | untaken _ machine => exact machine.later_refl
  | panic _ _ _ _ machine => exact machine.later_kept _ rfl rfl
  | _ => exact Machine.Goes.later ‹_›

theorem release_unmoved (frame : FrameId) (machine after : Machine) (left : (releaseFrame frame machine).Leaves after) :
    machine.Unmoved after := by
  unfold releaseFrame at left
  split at left <;> rcases left with ⟨_, same⟩ | ⟨_, same⟩ <;> cases same <;> exact ⟨rfl, rfl, rfl⟩

end Exec

namespace Moment
variable {α β : Type}

-- What a place that a run passes through is when the run was begun at a moment.
def since (moment place : Moment) : Moment := ⟨place.bodies ++ moment.bodies, moment.log ++ place.log, place.machine⟩

-- A host's own microtask settles nothing.
theorem host_fine (bodies : List Activation) (log : List Mark) (machine : Machine) (actions : List Action)
    (rest : List Microtask) (next : machine.microtasks = .host actions :: rest) (fine : Fine ⟨bodies, log, machine⟩) :
    Fine ⟨bodies, log, { machine with microtasks := rest }⟩ := by
  have queued : Machine.queued { machine with microtasks := rest } = machine.queued := by
    simp only [Machine.queued, next]
    rfl
  exact ⟨unmoved_ordered bodies log machine _ fine.course ⟨rfl, queued, rfl⟩, machine.tidy_taken fine.tidy _ rest next⟩

theorem entered_fine (bodies : List Activation) (log : List Mark) (machine : Machine) (body : Activation)
    (rest : List Microtask) (next : machine.microtasks = .asyncBody body.task body.name body.lines body.frame :: rest)
    (begun : body.begun = machine.entered rest body.frame) (fine : Fine ⟨bodies, log, machine⟩) :
    Fine ⟨body :: bodies, log, body.begun⟩ := by
  have taken := machine.tidy_taken fine.tidy _ rest next
  rw [begun]
  exact ⟨entered_ordered bodies log machine fine.course body rest next, { taken.mild with }, { taken.polling with }⟩

-- Whatever the marks tell of, all tasks keep to their courses.
theorem marks_fine (step : Exec α) (machine after : Machine) (marks : List Mark) (made : step.Marks machine marks after)
    (bodies : List Activation) (log : List Mark) (fine : Fine ⟨bodies, log, machine⟩) :
    Fine ⟨bodies, log ++ marks, after⟩ := by
  induction made generalizing bodies log with
  | aside step machine after calm left goes =>
    rw [List.append_nil]
    exact ⟨unmoved_ordered bodies log machine after fine.course (calm machine after fine.tidy left), goes.tidy⟩
  | done step next machine middle after value marks more _ _ _ first second =>
    rw [← List.append_assoc]
    exact second bodies _ (first bodies log fine)
  | failed _ _ _ _ _ _ _ _ ih | attempt _ _ _ _ _ ih | mapFailure _ _ _ _ _ _ ih => exact ih bodies log fine
  | create machine goes => exact ⟨created_ordered bodies log machine fine.course, goes.tidy⟩
  | call name lines arguments caller frame frames machine after _ called goes =>
    subst called
    exact ⟨called_ordered bodies log machine fine.course name lines frame frames _, goes.tidy⟩
  | refused _ _ _ _ _ machine _ goes => exact ⟨created_ordered bodies log machine fine.course, goes.tidy⟩
  | submit outcome milliseconds promise machine after submitted goes =>
    exact ⟨submitted_ordered bodies log machine after fine.course outcome milliseconds promise submitted, goes.tidy⟩
  | poll _ _ machine polled status events asked _ goes =>
    rw [List.append_nil]
    exact ⟨polled_ordered bodies log machine fine.course polled status events asked, goes.tidy⟩
  | take task value machine after taken goes =>
    exact ⟨taken_ordered bodies log machine after fine.course task value taken, goes.tidy⟩
  | untaken =>
    rw [List.append_nil]
    exact fine
  | settle _ _ task outcome rest machine after next settled goes =>
    exact ⟨produced_ordered bodies log machine after fine.course task outcome rest next settled, goes.tidy⟩
  | panic _ _ task rest machine next =>
    exact ⟨panicked_ordered bodies log machine fine.course task rest next, machine.tidy_taken fine.tidy _ rest next⟩
  | host _ _ actions rest machine after marks next _ ih =>
    exact ih bodies log (host_fine bodies log machine actions rest next fine)
  | returned fuel _ body rest value machine left middle after marks next begun _ ran released settled goes ih =>
    have inside := ih (body :: bodies) log (entered_fine bodies log machine body rest next begun fine)
    rw [← List.append_assoc]
    exact ⟨returned_ordered bodies _ body left after inside.course fuel value middle ran released settled, goes.tidy⟩
  | broken _ _ body rest _ machine left after marks next begun _ released _ goes ih =>
    have inside := ih (body :: bodies) log (entered_fine bodies log machine body rest next begun fine)
    rw [← List.append_assoc]
    have unmoved := Exec.release_unmoved body.frame left after released
    exact ⟨broken_ordered bodies _ body left after inside.course unmoved, goes.tidy⟩
  | giveUp _ machine after _ unmoved goes | empty machine after _ unmoved goes =>
    exact ⟨cleared_ordered bodies log machine after fine.course unmoved, goes.tidy⟩

-- Also in the middle of runs, and of those that never end, all tasks are on their courses.
theorem meets_fine (step : Exec α) (machine : Machine) (inner : Exec β) (place : Moment)
    (meets : step.Meets machine inner place) (bodies : List Activation) (log : List Mark)
    (fine : Fine ⟨bodies, log, machine⟩) : (since ⟨bodies, log, machine⟩ place).Fine := by
  induction meets generalizing bodies log with
  | here step machine => simpa only [since, List.nil_append, List.append_nil] using fine
  | first _ _ _ _ _ _ ih | attempt _ _ _ _ _ ih | mapFailure _ _ _ _ _ _ ih => exact ih bodies log fine
  | next step next machine middle value marks _ first inner place _ ih =>
    have later := ih bodies _ (marks_fine step machine middle marks first bodies log fine)
    simpa only [since, List.append_assoc] using later
  | host _ _ actions rest machine next _ _ _ ih => exact ih bodies log (host_fine bodies log machine actions rest next fine)
  | body _ _ body rest machine next begun _ place _ ih =>
    have later := ih (body :: bodies) log (entered_fine bodies log machine body rest next begun fine)
    simpa only [since, List.append_assoc, List.singleton_append] using later

theorem visits_fine (moment : Moment) (step : Exec α) (place : Moment) (visits : step.Visits moment.machine place)
    (fine : moment.Fine) : (moment.since place).Fine := by
  obtain ⟨bodies, log, machine⟩ := moment
  rcases visits with ⟨none, made⟩ | ⟨_, inner, meets⟩
  · have ended := marks_fine step machine place.machine place.log made bodies log fine
    simpa only [since, none, List.nil_append] using ended
  · exact meets_fine step machine inner place meets bodies log fine

end Moment

end CoopScript
