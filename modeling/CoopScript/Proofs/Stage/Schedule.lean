import CoopScript.Proofs.Round.Report
import CoopScript.Proofs.Stage.Block

set_option autoImplicit false
namespace CoopScript

theorem TaskTable.settle_fault (table : TaskTable) (task : TaskId) (value : Value) (cause : Cause)
    (fault : table.settle task value = .error cause) :
    cause = .settledTwice task.number ∨ cause = .unknownTask task.number := by
  unfold settle at fault
  split at fault
  next => cases fault
  next =>
    cases fault
    exact .inl rfl
  next =>
    cases fault
    exact .inr rfl

theorem Exec.settle_task_cases (task : TaskId) (value : Value) (machine : Machine) :
    (∃ after, settleTask task value machine = .done () after) ∨
      ∃ cause, settleTask task value machine = .failed (.of cause) machine ∧ cause.isStranding = false := by
  cases settled : machine.tasks.settle task value with
  | ok tasks => exact .inl ⟨{ machine with tasks := tasks }, by simp only [settleTask, settled]⟩
  | error cause =>
    refine .inr ⟨cause, by simp only [settleTask, settled], ?_⟩
    rcases TaskTable.settle_fault machine.tasks task value _ settled with rfl | rfl <;> rfl

namespace Engine

section Tiers
variable (engine : Engine) (lawful : engine.Lawful)
include lawful

theorem start_body_follows (stage : Stage) (sound : stage.Sound) (task : TaskId) (name : String)
    (lines : List Node) (frame : FrameId) (rest : List Microtask)
    (next : stage.machine.microtasks = .asyncBody task name lines frame :: rest) :
    stage.Follows (fun _ => True) (do
      Exec.modify fun machine => { machine with microtasks := rest }
      engine.runAsyncBody task name lines frame) := by
  obtain ⟨calls, held, machine⟩ := stage
  have opened := Step.startBody calls held machine task name lines frame rest next
  have innerSound := step_sound _ _ sound opened
  have releases : ∀ middle, (Stage.mk (⟨frame, some task, false⟩ :: calls) held middle).Sound →
      ∃ frames, Exec.releaseFrame frame middle = .done () { middle with frames := frames } := by
    intro middle middleSound
    obtain ⟨frames, released, _, _⟩ := Exec.release_frame_kept frame _ middle
      (Stage.call_ledger ⟨frame, some task, false⟩ calls held middle middleSound)
    exact ⟨frames, released⟩
  -- Taking the body off the queue and its frame off the list of those that wait is one step.
  apply Stage.follows_enclosed ⟨calls, held, machine⟩ _ Value.Plain (fun _ => True)
    (Exec.modify (fun machine => { machine with microtasks := rest }) >>= fun _ => Exec.modify fun machine =>
      { machine with asyncFrames := machine.asyncFrames.filter (· ≠ frame) }) ()
    (fun _ => engine.runFrame name lines frame)
    (fun _ outcome => do
      Exec.releaseFrame frame
      let value ← Exec.ofOutcome outcome
      Exec.settleTask task value) rfl opened ⟨List.suffix_cons _ _, rfl, fun _ member => member⟩ innerSound
    (engine.run_frame_follows lawful name lines frame frame (some task) calls held _ innerSound)
  · intro value middle middleSound registered plain
    obtain ⟨frames, released⟩ := releases middle middleSound
    have closes : ∀ outcome, Exec.settleTask task value { middle with frames := frames } = outcome →
        (Exec.releaseFrame frame >>= fun _ => Exec.ofOutcome (.ok value) >>= Exec.settleTask task) middle = outcome :=
      fun outcome ran => (Exec.bind_done _ _ _ _ () released).trans ran
    rcases Exec.settle_task_cases task value { middle with frames := frames } with
      ⟨after, settled⟩ | ⟨cause, refused, other⟩
    · obtain ⟨tasks, _, rfl⟩ := Exec.settle_task_done task value _ after settled
      exact .inl ⟨(), _, closes _ settled, trivial,
        .settleBody frame task calls held value middle _ _ plain released settled, registered⟩
    · exact .inr ⟨_, _, closes _ refused, Exec.not_stranding cause other,
        .dropBody frame task calls held middle _ released, registered⟩
  · intro failure middle middleSound registered
    obtain ⟨frames, released⟩ := releases middle middleSound
    exact ⟨_, (Exec.bind_done _ _ _ _ () released).trans rfl, .dropBody frame task calls held middle _ released, registered⟩

theorem next_microtask_follows (stage : Stage) (sound : stage.Sound) (microtask : Microtask)
    (rest : List Microtask) (next : stage.machine.microtasks = microtask :: rest) :
    stage.Follows (fun _ => True)
      (Exec.modify (fun machine => { machine with microtasks := rest }) >>= fun _ =>
        engine.runMicrotask microtask) := by
  rcases sound.plain.microtasks microtask (next ▸ List.mem_cons_self) with
    ⟨task, name, lines, frame, rfl⟩ | ⟨task, value, rfl⟩
  · exact engine.start_body_follows lawful stage sound task name lines frame rest next
  · have runs : ∀ outcome, Exec.settleTask task (stage.machine.classes.scalar value)
        { stage.machine with microtasks := rest } = outcome →
        (Exec.modify (fun machine => { machine with microtasks := rest }) >>= fun _ =>
          engine.runMicrotask (.settle task value)) stage.machine = outcome := fun _ ran => ran
    rcases Exec.settle_task_cases task (stage.machine.classes.scalar value)
        { stage.machine with microtasks := rest } with ⟨after, settled⟩ | ⟨cause, refused, other⟩
    · obtain ⟨tasks, _, rfl⟩ := Exec.settle_task_done task _ _ after settled
      exact Exec.follows_step stage _ _ () _ (runs _ settled) (.settle stage task value rest _ next settled) (.refl _)
        trivial
    · exact Exec.follows_unwound stage _ _ _ _ (runs _ refused) (.discard stage task value rest next) (.refl _)
        (Exec.not_stranding cause other)

theorem lawful_drain_step (report : TickReport) :
    (engine.drainStep report).Lawful (Sum.elim (fun _ => True) fun _ => True) := by
  apply Exec.lawful_look
  intro stage sound
  cases queue : stage.machine.microtasks with
  | nil => exact Exec.lawful_pure _ _ trivial stage sound
  | cons microtask rest =>
    simp only
    rw [Exec.modify_assoc]
    have taken := engine.next_microtask_follows lawful stage sound microtask rest queue
    refine Exec.follows_bind stage sound (fun _ => True) _ _ _ taken fun _ machine _ _ _ machineSound => ?_
    refine Exec.follows_look _ machineSound _ _ _ ?_
    split <;> exact Exec.lawful_pure _ _ trivial _ machineSound

theorem lawful_drain_microtasks (report : TickReport) :
    (engine.drainMicrotasks report).Lawful fun _ => True :=
  Exec.lawful_iterate (fun _ => True) (fun _ => True) _
    (fun report _ => engine.lawful_drain_step lawful report) _ report trivial

theorem lawful_line_step (report : TickReport) :
    (engine.lineStep report).Lawful (Sum.elim (fun _ => True) fun _ => True) := by
  apply Exec.lawful_look
  intro stage sound
  cases queue : stage.machine.ready with
  | nil => exact Exec.lawful_pure _ _ trivial stage sound
  | cons line rest =>
    simp only
    refine Exec.follows_look _ sound _ _ _ ?_
    split
    · exact Exec.lawful_pure _ _ trivial stage sound
    · have dequeued : (Exec.modify fun machine => { machine with ready := rest }).Lawful fun _ => True :=
        Exec.lawful_quiet _ fun machine =>
          ⟨machine.output, machine.halted, machine.nextIdentity, machine.clock, rest, rfl⟩
      refine Exec.lawful_bind (fun _ => True) _ _ _ dequeued (fun _ _ => ?_) stage sound
      refine Exec.lawful_bind (fun _ => True) _ _ _
        (engine.lawful_execute_line lawful line.node line.frame) fun value _ => ?_
      refine Exec.lawful_bind (fun _ => True) _ _ _ (Exec.lawful_record line.runner value) fun _ _ => ?_
      refine Exec.lawful_bind (fun _ => True) _ _ _ (Exec.lawful_advance line.runner) fun _ _ => ?_
      exact Exec.lawful_pure _ _ trivial

theorem lawful_run_lines (report : TickReport) : (engine.runLines report).Lawful fun _ => True :=
  Exec.lawful_iterate (fun _ => True) (fun _ => True) _
    (fun report _ => engine.lawful_line_step lawful report) _ report trivial

end Tiers

theorem service_events_cases (engine : Engine) (stage : Stage) (sound : stage.Sound)
    (report : TickReport) :
    (stage.machine.events = [] ∧ stage.machine.jobs = [] ∧
        engine.serviceEvents report stage.machine = .done report stage.machine) ∨
      ∃ id status after, stage.machine.events = [(id, some .pollPool)] ∧
        engine.serviceEvent id .pollPool stage.machine = .done status after ∧
        engine.serviceEvents report stage.machine = .done (report.note status) after := by
  have listed := sound.served.events
  cases event : stage.machine.poolEvent with
  | none =>
    rw [event] at listed
    have idle : stage.machine.jobs = [] := by
      by_contra busy
      exact sound.served.busy busy event
    refine .inl ⟨listed, idle, ?_⟩
    unfold serviceEvents
    rw [Exec.read_then, listed]
    rfl
  | some id =>
    rw [event] at listed
    obtain ⟨status, polled, done, _, _⟩ := Exec.service_poll_done engine id stage.machine listed
    generalize { polled with
      events := if status = EventStatus.done then [] else stage.machine.events } = after at done
    refine .inr ⟨id, status, after, listed, done, ?_⟩
    have known : stage.machine.event? id = some .pollPool := by simp [Machine.event?, listed]
    unfold serviceEvents
    rw [Exec.read_then, listed]
    show engine.serviceAll [id] report stage.machine = _
    unfold serviceAll
    rw [Exec.read_then, known]
    simp only
    rw [Exec.bind_done _ _ _ _ status done, Exec.halted_then]
    split <;> rfl

theorem lawful_service_events (engine : Engine) (report : TickReport) :
    (engine.serviceEvents report).Lawful fun _ => True := by
  intro stage sound
  rcases engine.service_events_cases stage sound report with ⟨_, _, done⟩ | ⟨id, status, after, only, served, done⟩
  · exact Exec.follows_here stage _ _ report done trivial
  · refine Exec.follows_step stage _ _ _ after done (.poll stage engine id status after only served) ?_ trivial
    obtain ⟨known, polled, same, polledHere, _⟩ := Exec.service_poll_done engine id stage.machine only
    rw [served] at same
    cases same
    cases polledHere <;> exact .refl _

-- A pass that is idle has found nothing that could still settle a task.
theorem pass_idle (engine : Engine) (machine : Machine) (middle : Stage) (sound : middle.Sound)
    (drained serviced : TickReport) (after : Machine)
    (drain : engine.drainMicrotasks .empty machine = .done drained middle.machine)
    (service : engine.serviceEvents drained middle.machine = .done serviced after)
    (idle : serviced.isIdle = true) :
    after.tasks = machine.tasks ∧ after.microtasks = [] ∧ after.jobs = [] ∧ after.events = [] ∧
      after.ready = machine.ready := by
  obtain ⟨_, _, _, _, untouched⟩ := engine.drain_idle machine middle.machine .empty drained drain
  rcases engine.service_events_cases middle sound drained with
    ⟨noEvents, noJobs, done⟩ | ⟨id, status, polledAfter, only, served, done⟩
  · rw [service] at done
    cases done
    obtain ⟨same, empty⟩ := untouched (drained.idle_microtasks idle)
    exact ⟨by rw [same], by rw [same, empty], noJobs, noEvents, by rw [same]⟩
  · rw [service] at done
    cases done
    obtain ⟨drainedIdle, notBusy, noProgress⟩ := drained.idle_noted status idle
    obtain ⟨same, empty⟩ := untouched (drained.idle_microtasks drainedIdle)
    obtain ⟨known, polled, ran, polledHere, _⟩ := Exec.service_poll_done engine id middle.machine only
    rw [served] at ran
    cases ran
    cases polledHere with
    | waiting => exact absurd rfl notBusy
    | ended => exact absurd rfl noProgress
    | forgotten clock pool _ stillIdle =>
      refine ⟨by rw [same], by rw [same, empty], ?_, rfl, by rw [same]⟩
      cases content : pool with
      | none => rfl
      | some jobs => exact stillIdle jobs content

section Waiting
variable (engine : Engine) (lawful : engine.Lawful)
include lawful

theorem lawful_await_pass (task : TaskId) :
    (engine.awaitPass task).Lawful (Sum.elim (fun _ => True) Value.Plain) := by
  apply Exec.lawful_bind _ _ _ _ (Exec.lawful_consume task)
  intro value plain
  cases value with
  | some value => exact Exec.lawful_pure _ _ (plain value rfl)
  | none =>
    apply Exec.lawful_bind (fun _ => True) _ _ _ (Exec.lawful_seen _)
    intro halted _
    split
    · exact Exec.lawful_stop _ _ _ (by simp)
    · apply Exec.lawful_bind (fun _ => True) _ _ _ (engine.lawful_drain_microtasks lawful .empty)
      intro drained _
      exact Exec.lawful_map (fun _ => True) _ Sum.inl _ (engine.lawful_service_events drained) fun _ _ => trivial

-- A task that has been waited for in an idle pass has nothing left that could settle it.
theorem idle_unanswered (task : TaskId) (stage : Stage) (sound : stage.Sound) (report : TickReport) (after : Machine)
    (passed : engine.awaitPass task stage.machine = .done (.inl report) after) (idle : report.isIdle = true) :
    (stage.put after).Unanswered task := by
  obtain ⟨machine, value, consumed, waited⟩ := Exec.done_of_bind _ _ stage.machine after _ passed
  cases value with
  | some value => cases waited
  | none =>
    obtain ⟨tasks, done, rfl⟩ := Exec.consume_task_done task none stage.machine machine consumed
    obtain ⟨pending, rfl⟩ := TaskTable.consume_waits stage.machine.tasks tasks task done
    simp only at waited
    rw [Exec.halted_then] at waited
    split at waited
    · cases waited
    · obtain ⟨middle, drained, drain, rest⟩ := Exec.done_of_bind _ _ _ after _ waited
      obtain ⟨last, serviced, service, same⟩ := Exec.done_of_bind _ _ middle after _ rest
      cases same
      have middleSound := stage.follows_sound _ _ middle sound (engine.lawful_drain_microtasks lawful .empty stage sound)
        (.inl ⟨drained, drain⟩)
      obtain ⟨sameTasks, quiet, jobless, _⟩ :=
        engine.pass_idle stage.machine _ middleSound drained report after drain service idle
      exact ⟨by rw [← sameTasks] at pending; exact pending, quiet, jobless⟩

theorem lawful_await_step (task : TaskId) (idle : Nat) :
    (engine.awaitStep task idle).Lawful (Sum.elim (fun _ => True) Value.Plain) := by
  intro stage sound
  have pass := engine.lawful_await_pass lawful task stage sound
  by_cases gives : ∃ report after, engine.awaitPass task stage.machine = .done (.inl report) after ∧
      report.isIdle = true ∧ after.config.idleLimit < idle + 1
  · obtain ⟨report, after, passed, idles, spent⟩ := gives
    have ended : endWait idle report after = .failed (.of .neverSettled) after := by
      rw [end_wait_pending, if_pos idles, if_pos spent]
    have failed : engine.awaitStep task idle stage.machine = .failed (.of .neverSettled) after := by
      rw [await_step_parts]
      exact (Exec.bind_done _ _ _ after _ passed).trans ended
    have reaches : stage.Reaches (engine.awaitPass task) after := by
      unfold Stage.Follows at pass
      rw [passed] at pass
      exact pass.1
    have takes : (engine.awaitStep task idle).Takes stage (stage.put after) := by
      rw [await_step_parts]
      exact .done _ _ stage (stage.put after) _ _ passed reaches.takes (.stroke _ _ _ (.inr ⟨_, ended⟩) (.inl rfl))
    refine Exec.follows_failed stage _ _ _ after failed
      ⟨reaches.registered, takes, stage.put after, reaches.leads, fun cause has _ => ?_, .refl⟩
    obtain rfl := Exec.cause_of _ cause has
    have unanswered := engine.idle_unanswered lawful task stage sound report after passed idles
    obtain ⟨fuel, rfl⟩ := lawful.standard
    exact ⟨_, _, stage, .here _ _, .unanswered fuel task idle stage after failed unanswered⟩
  · rw [await_step_parts]
    apply Exec.follows_bind stage sound _ _ _ _ pass
    intro result after passed _ plain afterSound
    cases result with
    | inr value => exact Exec.follows_here _ _ _ (Sum.inr value) rfl plain
    | inl report =>
      cases waiting : report.isOnlyWaiting with
      | true =>
        simp only [endWait, waiting, report.waiting_busy waiting, Bool.not_false, if_true]
        apply Exec.lawful_bind (fun _ => True) _ _ _ Exec.lawful_wait _ _ afterSound
        exact fun _ _ => Exec.lawful_pure _ _ trivial
      | false =>
        cases found : report.isIdle with
        | false =>
          simp only [endWait, waiting, found, Bool.not_false, if_true]
          exact Exec.lawful_pure _ _ trivial _ afterSound
        | true =>
          simp only [endWait, waiting, found, Bool.not_true, Bool.false_eq_true, if_false]
          refine Exec.follows_look _ afterSound _ _ _ ?_
          have patient : ¬ (stage.put after).machine.config.idleLimit < idle + 1 :=
            fun spent => gives ⟨report, after, passed, found, spent⟩
          rw [if_neg patient]
          exact Exec.lawful_pure _ _ trivial _ afterSound

theorem lawful_await (task : TaskId) : (engine.await task).Lawful Value.Plain :=
  Exec.lawful_iterate (fun _ => True) Value.Plain _
    (fun idle _ => engine.lawful_await_step lawful task idle) _ 0 trivial

omit lawful in
theorem lawful_unless_halted (phase : TickReport → Exec TickReport) (report : TickReport)
    (lawfulPhase : (phase report).Lawful fun _ => True) :
    (unlessHalted phase report).Lawful fun _ => True := by
  apply Exec.lawful_bind (fun _ => True) _ _ _ (Exec.lawful_seen _)
  intro halted _
  split
  · exact Exec.lawful_pure _ _ trivial
  · exact lawfulPhase

theorem lawful_tick : engine.tick.Lawful fun _ => True := by
  apply Exec.lawful_bind (fun _ => True) _ _ _ (engine.lawful_run_lines lawful .empty)
  intro report _
  apply Exec.lawful_bind (fun _ => True) _ _ _
    (lawful_unless_halted _ report (engine.lawful_drain_microtasks lawful report))
  intro report _
  exact lawful_unless_halted _ report (engine.lawful_service_events report)

theorem lawful_run_step (idle : Nat) :
    (engine.runStep idle).Lawful (Sum.elim (fun _ => True) fun _ => True) := by
  apply Exec.lawful_bind (fun _ => True) _ _ _ (engine.lawful_tick lawful)
  intro report _
  apply Exec.lawful_bind (fun _ => True) _ _ _ (Exec.lawful_seen _)
  intro halted _
  split
  · exact Exec.lawful_pure _ _ trivial
  · have rest : Exec.Lawful (do
        if !report.isIdle then return .inl 0
        if (← Exec.read (·.config.idleLimit)) ≤ idle + 1 then return .inr ()
        return .inl (idle + 1) : Exec (Nat ⊕ Unit)) (Sum.elim (fun _ => True) fun _ => True) := by
      split
      · exact Exec.lawful_pure _ _ trivial
      · apply Exec.lawful_bind (fun _ => True) _ _ _ (Exec.lawful_seen _)
        intro limit _
        split <;> exact Exec.lawful_pure _ _ trivial
    cases report.isOnlyWaiting with
    | true => exact Exec.lawful_bind (fun _ => True) _ _ _ Exec.lawful_wait fun _ _ => rest
    | false => exact rest

theorem lawful_run : engine.run.Lawful fun _ => True :=
  Exec.lawful_iterate (fun _ => True) (fun _ => True) _
    (fun idle _ => engine.lawful_run_step lawful idle) _ 0 trivial

end Waiting

end Engine

end CoopScript
