import CoopScript.Proofs.Await.Call
import CoopScript.Proofs.Coherent.Request
import CoopScript.Proofs.Stage.Lawful

/-!
Runs in which nothing is left for later: no microtask joins the queue, and no event is registered. As a script makes a promise
whenever it leaves something for later, these are the runs in which no promise is made.
-/
set_option autoImplicit false
namespace CoopScript

namespace Stage

-- From one stage to the next no microtask has joined the queue, and no event has been registered.
structure Calm (before after : Stage) : Prop where
  microtasks : after.machine.microtasks <:+ before.machine.microtasks
  events : after.machine.eventCount = before.machine.eventCount

def CalmStep (before after : Stage) : Prop := Step before after ∧ Calm before after

-- On the way out of a failure no promise is left behind either. Only a call that gets no frame would do so, as its
-- promise is made before the frame; in a live frame there is no such call.
def CalmUnwind (before after : Stage) : Prop :=
  Unwind before after ∧ after.machine.tasks.count = before.machine.tasks.count

-- A run with an end, of calm steps and the way out of a failure.
inductive Calmly {α : Type} (stage : Stage) : Outcome α → Prop where
  | done (value : α) (machine : Machine) (steps : Relation.ReflTransGen CalmStep stage (stage.put machine)) :
      Calmly stage (.done value machine)
  | failed (failure : Failure) (machine : Machine) (middle : Stage) (steps : Relation.ReflTransGen CalmStep stage middle)
      (unwinds : Relation.ReflTransGen CalmUnwind middle (stage.put machine)) : Calmly stage (.failed failure machine)

variable (before after : Stage)

theorem closing_kept (closed : Closing before after) : after.machine.tasks = before.machine.tasks ∧
    after.machine.microtasks = before.machine.microtasks ∧ after.machine.events = before.machine.events ∧
    after.machine.eventCount = before.machine.eventCount := by
  cases closed with
  | endRun => exact ⟨rfl, rfl, rfl, rfl⟩
  | closeCall frame calls held machine after released =>
    obtain ⟨_, _, rfl⟩ := Exec.release_frame_done frame machine after released
    exact ⟨rfl, rfl, rfl, rfl⟩
  | closeBlock _ id last after finished =>
    rcases Exec.finish_runner_done id last before.machine after finished with ⟨_, rfl⟩ | ⟨_, _, _, _, rfl⟩ <;>
      exact ⟨rfl, rfl, rfl, rfl⟩

-- What a step does: it takes no promise back, and while no event is registered, it makes a promise or is calm.
structure Promises : Prop where
  counted : before.machine.tasks.count ≤ after.machine.tasks.count
  cases : before.machine.events = [] →
    (after.machine.tasks.count = before.machine.tasks.count + 1 ∧ ¬ Calm before after) ∨
      (after.machine.tasks.count = before.machine.tasks.count ∧ Calm before after ∧ after.machine.events = [])

theorem promises_nothing (tasks : after.machine.tasks.count = before.machine.tasks.count)
    (microtasks : after.machine.microtasks <:+ before.machine.microtasks) (events : after.machine.events = before.machine.events)
    (count : after.machine.eventCount = before.machine.eventCount) : Promises before after :=
  ⟨Nat.le_of_eq tasks.symm, fun none => .inr ⟨tasks, ⟨microtasks, count⟩, events.trans none⟩⟩

theorem step_promises (sound : before.Sound) (step : Step before after) : Promises before after := by
  cases step with
  | quiet | adjust | alter | beginRun => exact promises_nothing _ _ rfl (List.suffix_refl _) rfl rfl
  | openCall _ caller id arguments after _ opened =>
    obtain ⟨_, _, rfl⟩ := Exec.push_frame_done caller id true arguments before.machine after opened
    exact promises_nothing _ _ rfl (List.suffix_refl _) rfl rfl
  | openBlock _ lines frame id after opened =>
    obtain ⟨_, _, _, _, _, rfl⟩ := Exec.create_runner_done lines frame id before.machine after opened
    exact promises_nothing _ _ rfl (List.suffix_refl _) rfl rfl
  | spawn _ name lines arguments caller promise after _ spawned =>
    obtain ⟨_, _, _, _, rfl⟩ := Exec.spawn_async_done name lines arguments caller promise before.machine after spawned
    refine ⟨before.machine.tasks.count_created, fun _ => .inl ⟨Array.size_push _, fun calm => ?_⟩⟩
    have shorter := calm.microtasks.length_le
    rw [put, List.length_append] at shorter
    exact Nat.not_succ_le_self _ shorter
  | startBody calls held machine task name lines frame rest next =>
    exact promises_nothing _ _ rfl (next ▸ List.suffix_cons _ rest) rfl rfl
  | settleBody frame task calls held value machine middle after _ released settled =>
    obtain ⟨_, _, rfl⟩ := Exec.release_frame_done frame machine middle released
    obtain ⟨tasks, changed, rfl⟩ := Exec.settle_task_done task value _ after settled
    exact promises_nothing _ _ (TaskTable.count_settled _ tasks task value changed) (List.suffix_refl _) rfl rfl
  | settle _ task value rest after next settled =>
    obtain ⟨tasks, changed, rfl⟩ := Exec.settle_task_done task _ _ after settled
    have shorter : rest <:+ before.machine.microtasks := next ▸ List.suffix_cons _ rest
    exact promises_nothing _ _ (TaskTable.count_settled _ tasks task _ changed) shorter rfl rfl
  | consume _ task value after consumed =>
    obtain ⟨tasks, changed, rfl⟩ := Exec.consume_task_done task (some value) before.machine after consumed
    exact promises_nothing _ _ (TaskTable.count_consumed _ tasks task _ changed) (List.suffix_refl _) rfl rfl
  | submit _ outcome milliseconds promise after spawned =>
    obtain ⟨_, _, _, ⟨event, asked, done⟩ | ⟨unasked, done⟩⟩ :=
      Exec.spawn_blocking_cases (some outcome) milliseconds before.machine
    · cases done.symm.trans spawned
      refine ⟨before.machine.tasks.count_created, fun none => ?_⟩
      -- Whoever asks the pool does so by an event.
      have served := sound.served.events
      rw [none, asked] at served
      cases served
    · cases done.symm.trans spawned
      exact ⟨before.machine.tasks.count_created, fun _ => .inl ⟨Array.size_push _, fun calm =>
        Nat.succ_ne_self _ calm.events⟩⟩
  | poll _ engine id status after only served =>
    obtain ⟨known, polled, same, polledHere, _⟩ := Exec.service_poll_done engine id before.machine only
    rw [served] at same
    cases same
    refine ⟨?_, fun none => by cases only.symm.trans none⟩
    cases polledHere <;> exact Nat.le_refl _
  | closing _ _ closed =>
    obtain ⟨tasks, microtasks, events, count⟩ := closing_kept before after closed
    exact promises_nothing _ _ (congrArg TaskTable.count tasks) (microtasks ▸ List.suffix_refl _) events count

theorem unwind_counted (unwind : Unwind before after) : before.machine.tasks.count ≤ after.machine.tasks.count := by
  cases unwind with
  | closing _ _ closed => exact Nat.le_of_eq (congrArg TaskTable.count (closing_kept before after closed).1).symm
  | dropBody frame task calls held machine after released =>
    obtain ⟨_, _, rfl⟩ := Exec.release_frame_done frame machine after released
    exact Nat.le_refl _
  | strand _ task after created =>
    cases created
    exact before.machine.tasks.count_created
  | discard => exact Nat.le_refl _

section Runs
variable {start finish : Stage}

theorem calm_run (sound : start.Sound) (none : start.machine.events = []) (steps : Relation.ReflTransGen CalmStep start finish) :
    finish.machine.tasks.count = start.machine.tasks.count := by
  suffices held : finish.Sound ∧ finish.machine.events = [] ∧ finish.machine.tasks.count = start.machine.tasks.count from held.2.2
  induction steps with
  | refl => exact ⟨sound, none, rfl⟩
  | tail _ stride ih =>
    obtain ⟨middleSound, noneStill, same⟩ := ih
    rcases (step_promises _ _ middleSound stride.1).cases noneStill with ⟨_, other⟩ | ⟨counted, _, noneLater⟩
    · exact absurd stride.2 other
    · exact ⟨step_sound _ _ middleSound stride.1, noneLater, counted.trans same⟩

theorem unwinds_kept (unwinds : Relation.ReflTransGen CalmUnwind start finish) :
    finish.machine.tasks.count = start.machine.tasks.count := by
  induction unwinds with
  | refl => rfl
  | tail _ stride same => exact stride.2.trans same

theorem run_calm (base : Stage) (sound : start.Sound) (none : start.machine.events = []) (leads : base.Leads start finish) :
    (Relation.ReflTransGen CalmStep start finish ∧ finish.machine.tasks.count = start.machine.tasks.count ∧
      finish.machine.events = []) ∨ start.machine.tasks.count < finish.machine.tasks.count := by
  induction leads with
  | refl => exact .inl ⟨.refl, rfl, none⟩
  | tail before stride ih =>
    have promises := step_promises _ _ (leads_sound base start _ sound before) stride.1
    rcases ih with ⟨steps, same, noneStill⟩ | more
    · rcases promises.cases noneStill with ⟨counted, _⟩ | ⟨counted, calm, noneLater⟩
      · exact .inr (by omega)
      · exact .inl ⟨steps.tail ⟨stride.1, calm⟩, counted.trans same, noneLater⟩
    · exact .inr (Nat.lt_of_lt_of_le more promises.counted)

theorem unwind_calm (base : Stage) (leaves : base.Leaves start finish) :
    (Relation.ReflTransGen CalmUnwind start finish ∧ finish.machine.tasks.count = start.machine.tasks.count) ∨
      start.machine.tasks.count < finish.machine.tasks.count := by
  induction leaves with
  | refl => exact .inl ⟨.refl, rfl⟩
  | tail _ stride ih =>
    have counted := unwind_counted _ _ stride.1
    rcases ih with ⟨unwinds, same⟩ | more
    · rcases Nat.eq_or_lt_of_le counted with equal | less
      · exact .inl ⟨unwinds.tail ⟨stride.1, equal.symm⟩, equal.symm.trans same⟩
      · exact .inr (by omega)
    · exact .inr (Nat.lt_of_lt_of_le more counted)

end Runs

variable {α : Type} (stage : Stage)

theorem calmly_left (outcome : Outcome α) (calmly : stage.Calmly outcome) : ∃ after, outcome.Leaves after := by
  cases calmly with
  | done value after => exact ⟨after, .inl ⟨value, rfl⟩⟩
  | failed failure after => exact ⟨after, .inr ⟨failure, rfl⟩⟩

variable (sound : stage.Sound) (none : stage.machine.events = [])
include sound none

theorem calmly_kept (outcome : Outcome α) (calmly : stage.Calmly outcome) (after : Machine) (left : outcome.Leaves after) :
    after.tasks.count = stage.machine.tasks.count := by
  cases calmly with
  | done value machine steps =>
    obtain rfl := (Outcome.done_leaves value machine after).mp left
    exact calm_run sound none steps
  | failed failure machine middle steps unwinds =>
    obtain rfl := (Outcome.failed_leaves failure machine after).mp left
    exact (unwinds_kept unwinds).trans (calm_run sound none steps)

theorem calmly_counted (good : α → Prop) (step : Exec α) (follows : stage.Follows good step) (after : Machine)
    (left : (step stage.machine).Leaves after) (few : after.tasks.count ≤ stage.machine.tasks.count) :
    stage.Calmly (step stage.machine) := by
  rcases Exec.follows_cases stage good step follows with ⟨value, machine, done, reaches, _⟩ | ⟨failure, machine, failed, breaks⟩ |
    exhausted
  · rw [done] at left ⊢
    obtain rfl := (Outcome.done_leaves value machine after).mp left
    rcases run_calm stage sound none reaches.leads with ⟨steps, _⟩ | more
    · exact .done value after steps
    · exact absurd few (Nat.not_le.mpr more)
  · rw [failed] at left ⊢
    obtain rfl := (Outcome.failed_leaves failure machine after).mp left
    obtain ⟨middle, leads, _, leaves⟩ := breaks.raised
    have later := unwind_calm stage leaves
    rcases run_calm stage sound none leads with ⟨steps, same, _⟩ | more
    · rcases later with ⟨unwinds, _⟩ | more
      · exact .failed failure after middle steps unwinds
      · exact absurd few (Nat.not_le.mpr (same ▸ more))
    · rcases later with ⟨_, same⟩ | less
      · exact absurd few (Nat.not_le.mpr (same.symm ▸ more))
      · exact absurd few (Nat.not_le.mpr (more.trans less))
  · rw [exhausted] at left
    exact absurd left (Outcome.exhausted_leaves after)

end Stage

-- What can be told of two machines of which the second has a function without its mark.
structure Machine.Unmarked (unmark : Lens) (machine other : Machine) : Prop where
  output : other.output = machine.output
  frames : ∀ id, other.frames.frame? id = (machine.frames.frame? id).map unmark.frame
  live : other.frames.liveCount = machine.frames.liveCount
  depth : other.depth = machine.depth

-- The same value, or a failure of the same cause, but for the mark of a function.
inductive Outcome.Unmarked (unmark : Lens) : Outcome Value → Outcome Value → Prop
  | done (value : Value) (machine other : Machine) (same : machine.Unmarked unmark other) :
      Unmarked unmark (.done value machine) (.done (unmark.value value) other)
  | failed (failure told : Failure) (machine other : Machine) (same : machine.Unmarked unmark other)
      (causes : ∀ cause, failure.HasCause cause ↔ told.HasCause cause) :
      Unmarked unmark (.failed failure machine) (.failed told other)

namespace Lens
variable (lens : Lens)

theorem live_arena (arena : Arena) : (lens.arena arena).liveCount = arena.liveCount := by
  have same : (fun slot : Slot => slot.frame.isSome) ∘ lens.slot = fun slot => slot.frame.isSome :=
    funext fun slot => by simp [Lens.slot]
  simp only [Arena.liveCount, Lens.arena, Array.countP_map, same]

-- Tasks are not told of.
theorem machine_unmarked (machine : Machine) (tasks : TaskTable) :
    { machine with tasks := tasks }.Unmarked lens (lens.machine machine) :=
  ⟨rfl, lens.frame_arena machine.frames, lens.live_arena machine.frames, rfl⟩

theorem ending_unmarked (outcome other : Outcome Value) (aside : outcome.Aside other) (step : Exec Value) (machine : Machine)
    (position : Option Position) (ended : step machine = lens.ending lens.value outcome) :
    other.Unmarked lens (step.mapFailure (·.orPosition position) machine) := by
  unfold Exec.mapFailure
  rw [ended]
  cases aside with
  | done value machine tasks => exact .done value _ _ (lens.machine_unmarked machine tasks)
  | failed failure told machine tasks causes =>
    refine .failed told _ _ _ (lens.machine_unmarked machine tasks) fun cause => ?_
    exact (causes cause).symm.trans ((lens.cause_failure failure cause).symm.trans (Failure.told_cause _ position cause))

end Lens

namespace Declaration
variable (declared : Declaration) (application : Application)

-- What is bound to the function's name in one frame is found by that name from another.
def Seen (arena : Arena) (home frame : FrameId) : Prop :=
  ∀ function frames, arena.setVariable home declared.name function = .ok frames → frames.lookUp frame declared.name = .ok function

theorem seen_home (arena : Arena) (home : FrameId) : declared.Seen arena home home := fun function frames bound =>
  finds_declared home arena frames declared.name function bound

theorem applied_lawful (engine : Engine) (lawful : engine.Lawful) (frame : FrameId) :
    (declared.applied application engine frame).Lawful Value.Plain :=
  Exec.lawful_bind _ _ _ _ (Engine.tied_bind_arguments False _ _ lawful.tied declared.name (.named declared.parameters)
    application.arguments frame).lawful fun bound plain =>
      engine.lawful_invoke_script lawful declared.name declared.body bound frame plain

section Ready
variable (stage : Stage) (sound : stage.Sound) (coherent : stage.machine.Coherent) (home frame : FrameId)
  (seen : declared.Seen stage.machine.frames home frame) (frames : Arena)
  (bound : stage.machine.frames.setVariable home declared.name
    (stage.machine.classes.function stage.machine.nextIdentity (declared.content true)) = .ok frames)
include coherent seen bound

theorem calls_applied (more : Nat) : declared.calls application (RuleSet.standard.engine (more + 2)) home frame stage.machine =
    (declared.applied application (RuleSet.standard.engine (more + 1)) frame).mapFailure (·.orPosition (some application.position))
      (stage.machine.unmarking.machine (stage.machine.declares frames)) := by
  have plainly := stage.machine.variable_unmarked coherent home declared.name (declared.content true)
  rw [bound] at plainly
  have done := declared.declares_done false (more + 1) home stage.machine (stage.machine.unmarking.arena frames) plainly
  rw [stage.machine.declares_unmarked coherent frames]
  refine (Exec.bind_done _ _ _ _ _ done).trans ?_
  exact declared.evaluate_call application false more stage.machine.nextIdentity frame
    (stage.machine.declares (stage.machine.unmarking.arena frames)) coherent.classes (seen _ _ plainly)

end Ready

/-- Awaiting the call of an asynchronous function comes to the same as calling it, if its arguments and its body leave nothing
for later and the machine is not halted in between. -/
theorem awaited_as_called (config : Config) (stage : Stage) (attained : Attained config stage)
    (microtasks : stage.machine.microtasks = []) (events : stage.machine.events = []) (home frame : FrameId)
    (seen : declared.Seen stage.machine.frames home frame) (fuel : Nat) (ready : Machine)
    (declares : (RuleSet.standard.engine fuel).execute (declared.node true) home stage.machine = .done none ready)
    (calmly : (stage.put ready).Calmly (declared.applied application (RuleSet.standard.engine fuel) frame ready))
    (running : ∀ bound before, (RuleSet.standard.engine fuel).bindArguments declared.name (.named declared.parameters)
      application.arguments frame ready = .done bound before → before.halted = false)
    (position : Position) (more : Nat) (fewer : fuel ≤ more + 1) :
    (declared.awaits application position (RuleSet.standard.engine (more + 3)) home frame stage.machine).Unmarked
      stage.machine.unmarking (declared.calls application (RuleSet.standard.engine (more + 3)) home frame stage.machine) := by
  have coherent := attained_coherent config stage attained
  have sound := reachable_sound config stage (attained_reachable config stage attained)
  obtain ⟨frames, bound, rfl⟩ := declared.declares_done_cases true fuel home stage.machine ready declares
  have readySound : (stage.put (stage.machine.declares frames)).Sound :=
    stage.follows_sound _ _ _ sound ((RuleSet.lawful_engine fuel).execute (declared.node true) home stage sound)
      (.inl ⟨none, declares⟩)
  obtain ⟨after, left⟩ := Stage.calmly_left _ _ calmly
  have kept := Stage.calmly_kept (stage.put (stage.machine.declares frames)) readySound events _ calmly after left
  have fits (identities : Nat) (given : identities ≤ stage.machine.nextIdentity + 1) :=
    stage.machine.declares_fits coherent identities given home declared.name _ frames microtasks events bound
  -- The call that is awaited, beside the promise that is made for it.
  have aside := declared.awaits_applied application (stage.put (stage.machine.declares frames)) readySound coherent.classes
    (fits 0 (Nat.zero_le _)) stage.machine.nextIdentity frame (seen _ _ bound) fuel more fewer after left (Nat.le_of_eq kept)
    running position
  -- The other call, seen through the lens.
  have through := declared.applied_through application stage.machine.unmarking _ _ rfl
    (RuleSet.through_engine stage.machine.unmarking fuel (more + 2) (by omega) False.elim) frame
  obtain ⟨ended, _⟩ := Outcome.seen_ending (through.seen trivial trivial _ readySound.fits (fits _ (Nat.le_refl _))) after left
    fun few same => by cases same; exact Nat.le_of_eq kept
  have awaited : declared.awaits application position (RuleSet.standard.engine (more + 3)) home frame stage.machine =
      (RuleSet.standard.engine (more + 3)).evaluate (.await "await" position (declared.call application)) frame
        (stage.machine.declares frames) :=
    Exec.bind_done _ _ _ _ _ (declared.declares_done true (more + 2) home stage.machine frames bound)
  rw [awaited, declared.calls_applied application stage coherent home frame seen frames bound (more + 1)]
  exact Lens.ending_unmarked _ _ _ aside _ _ _ ended

-- A function that prints a name and gives it back.
theorem greeting_awaited_as_called : ∃ ready : Machine,
    let here : Position := .start none
    let declared : Declaration := ⟨here, "greet", ["name"], [.call "call" here (.reference "print" here) [.reference "name" here],
      .giveBack "return" here (some (.reference "name" here))]⟩
    let application : Application := ⟨here, here, [.text "ada"]⟩
    let stage := Stage.start .standard
    (RuleSet.standard.engine 9).execute (declared.node true) Arena.root stage.machine = .done none ready ∧
      (stage.put ready).Calmly (declared.applied application (RuleSet.standard.engine 9) Arena.root ready) ∧
      (declared.awaits application here (RuleSet.standard.engine 11) Arena.root Arena.root stage.machine).endsWith
        (fun after => after.output == #["ada"]) = true ∧
      (declared.awaits application here (RuleSet.standard.engine 11) Arena.root Arena.root stage.machine).Unmarked
        stage.machine.unmarking (declared.calls application (RuleSet.standard.engine 11) Arena.root Arena.root stage.machine) := by
  let here : Position := .start none
  let declared : Declaration := ⟨here, "greet", ["name"], [.call "call" here (.reference "print" here) [.reference "name" here],
    .giveBack "return" here (some (.reference "name" here))]⟩
  let application : Application := ⟨here, here, [.text "ada"]⟩
  let stage := Stage.start .standard
  obtain ⟨result, ready, ran, tested⟩ := Outcome.ends_with_done
    ((RuleSet.standard.engine 9).execute (declared.node true) Arena.root stage.machine)
    (fun ready => (declared.applied application (RuleSet.standard.engine 9) Arena.root ready).endsWith
        (fun after => after.tasks.count ≤ ready.tasks.count) &&
      ((RuleSet.standard.engine 9).bindArguments "greet" (.named ["name"]) application.arguments Arena.root ready).endsWith
        fun before => !before.halted) (by decide +kernel)
  obtain ⟨calm, awake⟩ := Bool.and_eq_true_iff.mp tested
  obtain ⟨frames, bound⟩ := declared.declares_live Arena.root stage.machine (by decide +kernel) (declared.content true)
  have declares := declared.declares_done true 8 Arena.root stage.machine frames bound
  cases declares.symm.trans ran
  have sound : (stage.put (stage.machine.declares frames)).Sound := stage.follows_sound _ _ _ (Stage.start_sound .standard)
    ((RuleSet.lawful_engine 9).execute (declared.node true) Arena.root stage (Stage.start_sound .standard)) (.inl ⟨none, ran⟩)
  obtain ⟨value, after, applied, few⟩ := Outcome.ends_with_done _ _ calm
  have calmly := Stage.calmly_counted (stage.put (stage.machine.declares frames)) sound rfl _ _
    (declared.applied_lawful application _ (RuleSet.lawful_engine 9) Arena.root _ sound) after (.inl ⟨value, applied⟩)
    (of_decide_eq_true few)
  refine ⟨_, ran, calmly, by decide +kernel, ?_⟩
  refine declared.awaited_as_called application .standard stage .start rfl rfl Arena.root Arena.root
    (declared.seen_home _ Arena.root) 9 _ ran calmly (fun bound before binds => ?_) here 8 (Nat.le_refl 9)
  obtain ⟨_, _, same, up⟩ := Outcome.ends_with_done _ _ awake
  cases same.symm.trans binds
  exact Bool.not_eq_true' _ |>.mp up

end Declaration

end CoopScript
