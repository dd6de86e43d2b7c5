import CoopScript.Proofs.Stage.Tied

set_option autoImplicit false
namespace CoopScript

namespace Stage

theorem keeps_pushed (stage : Stage) (caller id : FrameId) (arguments : Bindings) (frames : Arena)
    (after : Machine) (sound : stage.Sound)
    (pushed : stage.machine.frames.push caller true arguments = .ok (id, frames))
    (sameFrames : after.frames = frames) (sameRunners : after.runners = stage.machine.runners) :
    stage.Keeps after := by
  obtain ⟨fresh, old, oldFound, read⟩ :=
    Arena.push_found stage.machine.frames frames _ caller id true arguments sound.ledger pushed
  have reread : ∀ other, stage.machine.frames.isLive other = true →
      frames.isLive other = true ∧ frames.hasReturned other = stage.machine.frames.hasReturned other := by
    intro other live
    obtain ⟨content, found⟩ := (Arena.live_found _ other).mp live
    have elsewhere : other ≠ id := by
      rintro rfl
      rw [fresh] at found
      cases found
    have here := read other
    rw [if_neg elsewhere] at here
    split at here
    next same =>
      subst same
      obtain rfl := Option.some.inj (oldFound.symm.trans found)
      exact ⟨(Arena.live_found _ other).mpr ⟨_, here⟩, by simp only [Arena.hasReturned, here, found]⟩
    next =>
      exact ⟨(Arena.live_found _ other).mpr ⟨content, here.trans found⟩, by simp only [Arena.hasReturned, here]⟩
  subst sameFrames
  exact keeps_still stage after sound
    ⟨sameRunners, fun other live => (reread other live).1, fun other live => (reread other live).2⟩

theorem keeps_quiet (stage : Stage) (after : Machine) (sameFrames : after.frames = stage.machine.frames)
    (sameRunners : after.runners = stage.machine.runners) : stage.Keeps after := by
  refine ⟨fun id _ none => ?_, fun id runner known => ?_⟩
  · rw [sameFrames]
    exact none
  · rw [Machine.runner?, sameRunners]
    exact known

end Stage

namespace Exec
variable {α β : Type}

theorem inert_attempt (step : Exec α) (inert : step.Inert) : step.attempt.Inert := by
  constructor
  · intro machine runners count
    have blind := inert.blind machine runners count
    unfold attempt
    rw [blind]
    cases step machine <;> rfl
  · intro machine after left
    apply inert.still machine after
    unfold attempt at left
    generalize step machine = outcome at left ⊢
    cases outcome with
    | done value middle =>
      rcases left with ⟨_, same⟩ | ⟨_, same⟩ <;> cases same
      exact .inl ⟨value, rfl⟩
    | failed failure middle =>
      rcases left with ⟨_, same⟩ | ⟨_, same⟩ <;> cases same
      exact .inr ⟨failure, rfl⟩
    | outOfFuel => rcases left with ⟨_, same⟩ | ⟨_, same⟩ <;> cases same

theorem inert_of_outcome (outcome : Except Failure α) : (ofOutcome outcome).Inert := by
  cases outcome with
  | ok value => exact inert_pure value
  | error failure => exact inert_raise failure

theorem inert_set_event (id : EventId) (event : Option Microevent) : (setEvent id event).Inert :=
  inert_quiet _ (fun _ _ _ => rfl) fun _ => ⟨rfl, rfl⟩

theorem inert_remove_event (id : EventId) : (removeEvent id).Inert := by
  refine ⟨fun _ _ _ => rfl, fun machine after left => ?_⟩
  rcases left with ⟨_, same⟩ | ⟨_, same⟩ <;> cases same
  exact ⟨rfl, fun _ live => live, fun _ _ => rfl⟩

-- Twins show the same to whoever does not look at runners.
theorem agrees_look (stage : Stage) (view : Machine → α) (next later : α → Exec β) (machine : Machine)
    (same : view machine = view stage.machine)
    (agrees : stage.Agrees (next (view stage.machine) stage.machine) (later (view stage.machine) machine)) :
    stage.Agrees ((read view >>= next) stage.machine) ((read view >>= later) machine) := by
  rw [read_then, read_then, same]
  exact agrees

theorem spawn_async_agrees (name : String) (lines : List Node) (arguments : Bindings) (caller : FrameId) :
    (spawnAsync name lines arguments caller).Agree (spawnAsync name lines arguments caller) := by
  rintro stage _ sound ⟨runners, count, rfl⟩
  cases pushed : stage.machine.frames.push caller true arguments with
  | error cause =>
    have failed : ∀ machine : Machine, machine.frames = stage.machine.frames →
        spawnAsync name lines arguments caller machine =
          .failed (.of cause) { machine with tasks := machine.tasks.create.2 } := by
      intro machine same
      simp [spawnAsync, Bind.bind, bind, createTask, pushFrame, changeFrames, same, pushed]
    rw [failed _ rfl, failed (stage.machine.enlisted runners count) rfl]
    exact .failed _ _ _ ⟨runners, count, rfl⟩ (stage.keeps_quiet _ rfl rfl)
  | ok result =>
    obtain ⟨frame, frames⟩ := result
    have done : ∀ machine : Machine, machine.frames = stage.machine.frames →
        spawnAsync name lines arguments caller machine =
          .done (machine.classes.promise machine.tasks.create.1) { machine with
            tasks := machine.tasks.create.2
            frames := frames
            asyncFrames := machine.asyncFrames ++ [frame]
            microtasks := machine.microtasks ++ [.asyncBody machine.tasks.create.1 name lines frame] } := by
      intro machine same
      simp [spawnAsync, Bind.bind, bind, createTask, pushFrame, changeFrames, same, pushed, modify,
        enqueueMicrotask, promise, read]
    rw [done _ rfl, done (stage.machine.enlisted runners count) rfl]
    exact .done _ _ _ ⟨runners, count, rfl⟩
      (stage.keeps_pushed caller frame arguments frames _ sound pushed rfl rfl)

theorem settle_agrees (stage : Stage) (task : TaskId) (step other : Exec Value) (machine twin : Machine)
    (agrees : stage.Agrees (step machine) (other twin)) :
    stage.Agrees ((step >>= settleTask task) machine) ((other >>= settleTask task) twin) := by
  generalize ran : step machine = left at agrees
  generalize ranOther : other twin = right at agrees
  cases agrees with
  | done value after afterTwin twins keeps =>
    obtain ⟨runners, count, rfl⟩ := twins
    rw [bind_done step _ _ _ value ran, bind_done other _ _ _ value ranOther]
    cases settled : after.tasks.settle task value with
    | ok tasks =>
      have done : ∀ machine : Machine, machine.tasks = after.tasks →
          settleTask task value machine = .done () { machine with tasks := tasks } := by
        intro machine same
        simp only [settleTask, same, settled]
      rw [done _ rfl, done (after.enlisted runners count) rfl]
      exact .done () _ _ ⟨runners, count, rfl⟩ ⟨keeps.results, keeps.runners⟩
    | error cause =>
      have failed : ∀ machine : Machine, machine.tasks = after.tasks →
          settleTask task value machine = .failed (.of cause) machine := by
        intro machine same
        simp only [settleTask, same, settled]
      rw [failed _ rfl, failed (after.enlisted runners count) rfl]
      exact .failed _ _ _ ⟨runners, count, rfl⟩ keeps
  | failed failure after afterTwin twins keeps =>
    rw [bind_failed step _ _ _ failure ran, bind_failed other _ _ _ failure ranOther]
    exact .failed failure after afterTwin twins keeps
  | outOfFuel =>
    rw [bind_exhausted step _ _ ran, bind_exhausted other _ _ ranOther]
    exact .outOfFuel

end Exec

namespace Engine

-- With only the pool's event registered, servicing the events is servicing that one.
theorem service_pool (engine : Engine) (report : TickReport) (machine : Machine) (id : EventId)
    (only : machine.events = [(id, some .pollPool)]) : engine.serviceEvents report machine =
      (engine.serviceEvent id .pollPool >>= fun status => Pure.pure (report.note status)) machine := by
  have known : machine.event? id = some .pollPool := by simp [Machine.event?, only]
  unfold serviceEvents
  rw [Exec.read_then, only]
  show engine.serviceAll [id] report machine = _
  unfold serviceAll
  rw [Exec.read_then, known]
  simp only
  cases served : engine.serviceEvent id .pollPool machine with
  | done status after =>
    rw [Exec.bind_done _ _ _ _ status served, Exec.bind_done _ _ _ _ status served, Exec.halted_then]
    split <;> rfl
  | failed failure after => rw [Exec.bind_failed _ _ _ _ _ served, Exec.bind_failed _ _ _ _ _ served]
  | outOfFuel => rw [Exec.bind_exhausted _ _ _ served, Exec.bind_exhausted _ _ _ served]

theorem inert_service_pool (engine : Engine) (id : EventId) : (engine.serviceEvent id .pollPool).Inert := by
  refine Exec.inert_bind _ _ (Exec.inert_set_event id none) fun _ => ?_
  refine Exec.inert_bind _ _ (Exec.inert_attempt _ Exec.inert_poll_pool) fun outcome => ?_
  have isOver := Exec.inert_of_outcome outcome
  split
  · exact Exec.inert_bind _ _ (Exec.inert_remove_event id) fun _ => isOver
  · exact Exec.inert_bind _ _ (Exec.inert_set_event id _) fun _ => isOver

theorem service_events_agrees (engine other : Engine) (report : TickReport) :
    (engine.serviceEvents report).Agree (other.serviceEvents report) := by
  rintro stage _ sound ⟨runners, count, rfl⟩
  have listed := sound.served.events
  cases event : stage.machine.poolEvent with
  | none =>
    rw [event] at listed
    have quiet : ∀ (engine : Engine) (machine : Machine), machine.events = [] →
        engine.serviceEvents report machine = .done report machine := by
      intro engine machine empty
      unfold serviceEvents
      rw [Exec.read_then, empty]
      rfl
    rw [quiet engine _ listed, quiet other (stage.machine.enlisted runners count) listed]
    exact .done report _ _ ⟨runners, count, rfl⟩ (Stage.keeps_here stage)
  | some id =>
    rw [event] at listed
    rw [engine.service_pool report _ id listed,
      other.service_pool report (stage.machine.enlisted runners count) id listed]
    have inert := Exec.inert_bind _ _ (engine.inert_service_pool id) fun status =>
      Exec.inert_pure (report.note status)
    exact Exec.agree_inert _ inert stage _ sound ⟨runners, count, rfl⟩

section Tandem
variable (same : Prop) (engine other : Engine) (tied : Engine.Tied same engine other)
include tied

theorem invoke_script_agrees (given : same) (name : String) (lines : List Node) (arguments : Bindings)
    (caller : FrameId) (plain : arguments.All Value.Plain) :
    (engine.invokeScript name lines arguments caller).Agree
      (other.invokeScript name lines arguments caller) := by
  rintro stage _ sound ⟨runners, count, rfl⟩
  unfold invokeScript
  cases pushed : stage.machine.frames.push caller true arguments with
  | error cause =>
    have failed : ∀ machine : Machine, machine.frames = stage.machine.frames →
        Exec.pushFrame caller true arguments machine = .failed (.of cause) machine := by
      intro machine sameFrames
      simp only [Exec.pushFrame, Exec.changeFrames, sameFrames, pushed]
    rw [Exec.bind_failed _ _ _ _ _ (failed _ rfl),
      Exec.bind_failed _ _ _ _ _ (failed (stage.machine.enlisted runners count) rfl)]
    exact .failed _ _ _ ⟨runners, count, rfl⟩ (Stage.keeps_here stage)
  | ok result =>
    obtain ⟨frame, frames⟩ := result
    have opened : ∀ machine : Machine, machine.frames = stage.machine.frames →
        Exec.pushFrame caller true arguments machine = .done frame { machine with frames := frames } := by
      intro machine sameFrames
      simp only [Exec.pushFrame, Exec.changeFrames, sameFrames, pushed]
    rw [Exec.bind_done _ _ _ _ _ (opened _ rfl),
      Exec.bind_done _ _ _ _ _ (opened (stage.machine.enlisted runners count) rfl)]
    have innerSound := step_sound _ _ sound (.openCall stage caller frame arguments _ plain (opened _ rfl))
    have function : frames.OfFunction frame := by
      obtain ⟨_, old, _, read⟩ :=
        Arena.push_found stage.machine.frames frames _ caller frame true arguments sound.ledger pushed
      intro content found
      rw [read, if_pos rfl] at found
      cases found
      rfl
    exact Exec.enclosed_agrees stage ⟨frame, none, false⟩ _ _ Value.Plain _ _ innerSound rfl
      (stage.keeps_pushed caller frame arguments frames _ sound pushed rfl rfl)
      (engine.run_frame_follows tied.lawful name lines frame frame none stage.calls stage.held _ innerSound)
      (run_frame_agrees same engine other tied given name lines frame none stage.calls stage.held _ _ innerSound
        function ⟨runners, count, rfl⟩)

theorem start_body_agrees (given : same) (stage : Stage) (sound : stage.Sound) (machine : Machine)
    (twins : stage.machine.Twin machine) (task : TaskId) (name : String) (lines : List Node) (frame : FrameId)
    (rest : List Microtask) (next : stage.machine.microtasks = .asyncBody task name lines frame :: rest) :
    stage.Agrees (engine.runAsyncBody task name lines frame { stage.machine with microtasks := rest })
      (other.runAsyncBody task name lines frame { machine with microtasks := rest }) := by
  obtain ⟨calls, held, here⟩ := stage
  obtain ⟨runners, count, rfl⟩ := twins
  have innerSound := step_sound _ _ sound (.startBody calls held here task name lines frame rest next)
  have waiting : frame ∈ here.asyncFrames := by
    rw [sound.waiting]
    exact List.mem_filterMap.mpr ⟨_, next ▸ List.mem_cons_self, rfl⟩
  have enclosed := Exec.enclosed_agrees (Stage.mk calls held here) ⟨frame, some task, false⟩ _ _ Value.Plain _ _
    innerSound rfl (Stage.keeps_quiet (Stage.mk calls held here) _ rfl rfl)
    (engine.run_frame_follows tied.lawful name lines frame frame (some task) calls held _ innerSound)
    (run_frame_agrees same engine other tied given name lines frame (some task) calls held _ _ innerSound
      (sound.bodies frame waiting) ⟨runners, count, rfl⟩)
  have settled := Exec.settle_agrees _ task _ _ _ _ enclosed
  simp only [Exec.bind_assoc] at settled
  exact settled

theorem next_microtask_agrees (given : same) (stage : Stage) (sound : stage.Sound) (machine : Machine)
    (twins : stage.machine.Twin machine) (microtask : Microtask) (rest : List Microtask)
    (next : stage.machine.microtasks = microtask :: rest) :
    stage.Agrees (engine.runMicrotask microtask { stage.machine with microtasks := rest })
      (other.runMicrotask microtask { machine with microtasks := rest }) := by
  rcases sound.plain.microtasks microtask (next ▸ List.mem_cons_self) with
    ⟨task, name, lines, frame, rfl⟩ | ⟨task, value, rfl⟩
  · exact start_body_agrees same engine other tied given stage sound machine twins task name lines frame rest next
  · obtain ⟨runners, count, rfl⟩ := twins
    exact Exec.settle_agrees stage task (Exec.read (·.classes.scalar value)) (Exec.read (·.classes.scalar value))
      { stage.machine with microtasks := rest }
      { stage.machine.enlisted runners count with microtasks := rest }
      (.done _ _ _ ⟨runners, count, rfl⟩ (stage.keeps_quiet _ rfl rfl))

theorem drain_step_agrees (given : same) (report : TickReport) :
    (engine.drainStep report).Agree (other.drainStep report) := by
  intro stage machine sound twins
  have sameQueue : machine.microtasks = stage.machine.microtasks := by
    obtain ⟨_, _, rfl⟩ := twins
    rfl
  refine Exec.agrees_look stage (·.microtasks) _ _ machine sameQueue ?_
  cases queue : stage.machine.microtasks with
  | nil => exact Exec.agree_inert _ (Exec.inert_pure _) stage machine sound twins
  | cons microtask rest =>
    simp only
    rw [Exec.modify_assoc, Exec.modify_assoc]
    have taken := next_microtask_agrees same engine other tied given stage sound machine twins microtask rest queue
    refine Exec.agrees_bind stage sound (fun _ => True) _ _ _ _ machine
      (engine.next_microtask_follows tied.lawful stage sound microtask rest queue) taken ?_
    intro _ after afterTwin _ _ _ afterSound afterTwins
    have inert : Exec.Inert (do
        if ← Exec.isHalted then return .inr { report with microtasks := report.microtasks + 1 }
        return .inl { report with microtasks := report.microtasks + 1 } : Exec (TickReport ⊕ TickReport)) := by
      refine Exec.inert_bind _ _ (Exec.inert_read _ fun _ _ _ => rfl) fun halted => ?_
      split <;> exact Exec.inert_pure _
    exact Exec.agree_inert _ inert _ afterTwin afterSound afterTwins

theorem drain_microtasks_agrees (given : same) (report : TickReport) :
    (engine.drainMicrotasks report).Agree (other.drainMicrotasks report) := by
  unfold drainMicrotasks
  rw [tied.fuel]
  exact Exec.agree_iterate (fun _ => True) (fun _ => True) _ _
    (fun report _ => ⟨engine.lawful_drain_step tied.lawful report,
      drain_step_agrees same engine other tied given report⟩) _ report trivial

omit tied in
theorem inert_idle (report : TickReport) (idle : Nat) : Exec.Inert (do
    if report.isOnlyWaiting then Exec.wait
    if !report.isIdle then return .inl 0
    if (← Exec.read (·.config.idleLimit)) < idle + 1 then Exec.fail .neverSettled
    return .inl (idle + 1) : Exec (Nat ⊕ Value)) := by
  have counted : Exec.Inert (do
      if !report.isIdle then return .inl 0
      if (← Exec.read (·.config.idleLimit)) < idle + 1 then Exec.fail .neverSettled
      return .inl (idle + 1) : Exec (Nat ⊕ Value)) := by
    split
    · exact Exec.inert_pure _
    · refine Exec.inert_bind _ _ (Exec.inert_read _ fun _ _ _ => rfl) fun limit => ?_
      split
      · exact Exec.inert_bind _ _ (Exec.inert_raise _) fun _ => Exec.inert_pure _
      · exact Exec.inert_pure _
  by_cases waiting : report.isOnlyWaiting = true
  · simp only [waiting, if_true]
    exact Exec.inert_bind _ _ Exec.inert_wait fun _ => counted
  · simp only [waiting]
    exact counted

theorem await_step_agrees (given : same) (task : TaskId) (idle : Nat) :
    (engine.awaitStep task idle).Agree (other.awaitStep task idle) := by
  refine Exec.agree_bind _ _ _ _ _ (Exec.lawful_consume task) (Exec.agree_inert _ (Exec.inert_consume task)) ?_
  intro value _
  cases value with
  | some value => exact Exec.agree_inert _ (Exec.inert_pure _)
  | none =>
    have pass : Exec.Agree (do
        let report ← engine.drainMicrotasks .empty
        let report ← engine.serviceEvents report
        if report.isOnlyWaiting then Exec.wait
        if !report.isIdle then return .inl 0
        if (← Exec.read (·.config.idleLimit)) < idle + 1 then Exec.fail .neverSettled
        return .inl (idle + 1) : Exec (Nat ⊕ Value)) (do
        let report ← other.drainMicrotasks .empty
        let report ← other.serviceEvents report
        if report.isOnlyWaiting then Exec.wait
        if !report.isIdle then return .inl 0
        if (← Exec.read (·.config.idleLimit)) < idle + 1 then Exec.fail .neverSettled
        return .inl (idle + 1)) := by
      refine Exec.agree_bind (fun _ => True) _ _ _ _ (engine.lawful_drain_microtasks tied.lawful .empty)
        (drain_microtasks_agrees same engine other tied given .empty) fun drained _ => ?_
      refine Exec.agree_bind (fun _ => True) _ _ _ _ (engine.lawful_service_events drained)
        (engine.service_events_agrees other drained) fun serviced _ => ?_
      exact Exec.agree_inert _ (inert_idle serviced idle)
    refine Exec.agree_bind (fun _ => True) _ _ _ _ (Exec.lawful_seen _)
      (Exec.agree_inert _ (Exec.inert_read _ fun _ _ _ => rfl)) fun halted _ => ?_
    split
    · exact Exec.agree_bind (fun _ => False) _ _ _ _ (Exec.lawful_fail _ _ (by simp))
        (Exec.agree_inert _ (Exec.inert_raise _)) fun _ impossible => impossible.elim
    · exact pass

theorem tied_await (task : TaskId) : (engine.await task).Tied same (other.await task) Value.Plain := by
  refine ⟨engine.lawful_await tied.lawful task, fun given => ?_⟩
  unfold await
  rw [tied.fuel]
  exact Exec.agree_iterate (fun _ => True) Value.Plain _ _
    (fun idle _ => ⟨engine.lawful_await_step tied.lawful task idle,
      await_step_agrees same engine other tied given task idle⟩) _ 0 trivial

end Tandem

end Engine

end CoopScript
