import CoopScript.Proofs.Exit.Block

set_option autoImplicit false
namespace CoopScript

namespace Engine

section Tiers
variable {leeway : Leeway} (engine : Engine) (prudent : engine.Prudent leeway)
include prudent

-- A body that is over finds its promise still waiting, whatever has happened meanwhile.
theorem start_body_bears (stage : Stage) (fit : stage.Fit leeway) (running : Running stage.machine.halted)
    (task : TaskId) (name : String) (lines : List Node) (frame : FrameId) (rest : List Microtask)
    (next : stage.machine.microtasks = .asyncBody task name lines frame :: rest) :
    (engine.runAsyncBody task name lines frame { stage.machine with microtasks := rest }).Bears leeway Anyhow
      fun _ => True := by
  obtain ⟨calls, held, machine⟩ := stage
  have tame := fit.tame
  have waits : (Microtask.asyncBody task name lines frame).Prudent leeway :=
    tame.microtasks _ (next ▸ List.mem_cons_self)
  obtain ⟨inner, fits⟩ := waits task name lines frame rfl
  have later : ∀ microtask ∈ rest, microtask.Prudent leeway := fun microtask member =>
    tame.microtasks microtask (next ▸ List.mem_cons_of_mem _ member)
  have started := (Stage.mk calls held machine).step_fit fit _
    (.startBody calls held machine task name lines frame rest next)
    ⟨tame.classes, tame.frames, tame.tasks, later, tame.runners, tame.ready⟩
  have runs := engine.run_frame_bears prudent name lines frame (some task) calls held _ started fits
    (Exec.running_not_halted _ running)
  unfold runAsyncBody
  rw [Exec.modify_then]
  apply Exec.bears_enclosed (engine.runFrame name lines frame) (Exec.releaseFrame frame)
    (fun outcome _ => do let value ← Exec.ofOutcome outcome; Exec.settleTask task value)
    (fun after => after.tasks.state? task = some .pending) _ runs.2
  · intro left leaves leftTame
    have leftFit := Stage.bears_fit _ started runs left leaves
    have pending : left.tasks.state? task = some .pending :=
      leftFit.due.pending task (by simp [Stage.settlers, Stage.put])
    obtain ⟨frames, released, _, _⟩ := Exec.release_frame_kept frame _ left
      (Stage.call_ledger ⟨frame, some task, false⟩ calls held left leftFit.sound)
    obtain ⟨afterTame, sameHalt⟩ := left.tame_released leeway leftTame frame _ released
    exact ⟨(), _, released, afterTame, sameHalt, pending⟩
  · exact fun _ _ _ => rfl
  · intro value _ after fine pending afterTame _
    have settled : Exec.settleTask task value after =
        .done () { after with tasks := after.tasks.setState task (.ready value) } := by
      simp only [Exec.settleTask, TaskTable.settle, pending]
    show (Exec.settleTask task value after).Bears leeway Anyhow fun _ => True
    rw [settled]
    exact ⟨after.tame_settled leeway afterTame task value _ fine settled, trivial, trivial⟩

theorem next_microtask_bears (stage : Stage) (fit : stage.Fit leeway) (running : Running stage.machine.halted)
    (microtask : Microtask) (rest : List Microtask) (next : stage.machine.microtasks = microtask :: rest) :
    stage.Bears leeway Anyhow (fun _ => True)
      (Exec.modify (fun machine => { machine with microtasks := rest }) >>= fun _ => engine.runMicrotask microtask) := by
  refine ⟨engine.next_microtask_follows prudent.lawful stage fit.sound microtask rest next, ?_⟩
  rw [Exec.modify_then]
  rcases fit.sound.plain.microtasks microtask (next ▸ List.mem_cons_self) with
    ⟨task, name, lines, frame, rfl⟩ | ⟨task, value, rfl⟩
  · exact engine.start_body_bears prudent stage fit running task name lines frame rest next
  · have tame := fit.tame
    have takenTame : { stage.machine with microtasks := rest }.Tame leeway :=
      ⟨tame.classes, tame.frames, tame.tasks,
        fun other member => tame.microtasks other (next ▸ List.mem_cons_of_mem _ member), tame.runners, tame.ready⟩
    have valueTame : (stage.machine.classes.scalar value).Tame leeway := by
      rw [tame.classes]
      exact ClassTable.tame_scalar leeway value
    show (Exec.settleTask task (stage.machine.classes.scalar value) { stage.machine with microtasks := rest }).Bears
      leeway Anyhow fun _ => True
    rcases Exec.settle_task_cases task (stage.machine.classes.scalar value)
        { stage.machine with microtasks := rest } with ⟨after, settled⟩ | ⟨cause, refused, _⟩
    · rw [settled]
      exact ⟨Machine.tame_settled leeway _ takenTame task _ after valueTame settled, trivial, trivial⟩
    · rw [refused]
      exact Exec.bears_running _ _ takenTame running

theorem tends_drain_step (report : TickReport) : (engine.drainStep report).Tends leeway Arena.root Running Anyhow
    (Sum.elim (fun _ => True) fun _ => True) := by
  intro stage fit held running
  apply stage.bears_look fit
  cases queue : stage.machine.microtasks with
  | nil => exact Exec.tends_anyhow (Exec.tends_pure _ trivial) stage fit held running
  | cons microtask rest =>
    simp only
    rw [Exec.modify_assoc]
    refine stage.bears_bind fit _ (engine.next_microtask_bears prudent stage fit running microtask rest queue) ?_
    intro _ machine _ _ machineFit _ _
    apply Stage.bears_look _ machineFit
    split <;> exact Exec.tends_pure _ trivial _ machineFit (stage.put machine).root_firm trivial

omit prudent in
theorem drain_step_again (report next : TickReport) (machine after : Machine)
    (done : engine.drainStep report machine = .done (.inl next) after) : Running after.halted := by
  unfold drainStep at done
  rw [Exec.read_then] at done
  cases queue : machine.microtasks with
  | nil =>
    rw [queue] at done
    cases done
  | cons microtask rest =>
    rw [queue] at done
    simp only [Exec.modify_then] at done
    obtain ⟨middle, _, _, later⟩ := Exec.done_of_bind _ _ _ after _ done
    rw [Exec.halted_then] at later
    split at later
    next => cases later
    next running =>
      cases later
      exact Bool.eq_false_iff.mpr running

theorem tends_drain_microtasks (report : TickReport) :
    (engine.drainMicrotasks report).Tends leeway Arena.root Running Anyhow fun _ => True :=
  Exec.tends_iterate engine.drainStep (engine.tends_drain_step prudent)
    (fun report machine next after => engine.drain_step_again report next machine after) engine.fuel report

omit prudent in
theorem tends_service_events (report : TickReport) {level : Bool → Prop} :
    (engine.serviceEvents report).Tends leeway Arena.root level level fun _ => True := by
  apply Exec.tends_lawful (engine.lawful_service_events report)
  intro stage fit _ begun
  rcases engine.service_events_cases stage fit.sound report with
    ⟨_, _, done⟩ | ⟨id, status, after, only, served, done⟩
  · rw [done]
    exact ⟨fit.tame, begun, trivial⟩
  · rw [done]
    obtain ⟨known, polled, same, polledHere, _⟩ := Exec.service_poll_done engine id stage.machine only
    rw [served] at same
    cases same
    obtain ⟨polledTame, sameHalt⟩ := stage.machine.tame_polled leeway fit.tame _ polled polledHere
      (if status = EventStatus.done then [] else stage.machine.events)
    exact ⟨polledTame, sameHalt ▸ begun, trivial⟩

theorem tends_line_step (report : TickReport) : (engine.lineStep report).Tends leeway Arena.root Anyhow Anyhow
    (Sum.elim (fun _ => True) fun _ => True) := by
  apply Exec.tends_lawful (engine.lawful_line_step prudent.lawful report)
  intro stage fit _ _
  unfold lineStep
  rw [Exec.read_then]
  cases queue : stage.machine.ready with
  | nil => exact ⟨fit.tame, trivial, trivial⟩
  | cons line rest =>
    simp only
    rw [Exec.halted_then]
    split
    next => exact ⟨fit.tame, trivial, trivial⟩
    next running =>
      have tame := fit.tame
      have fits := tame.ready line (queue ▸ List.mem_cons_self)
      have takenFit := stage.step_fit fit _ (.quiet stage stage.machine.output stage.machine.halted
          stage.machine.nextIdentity stage.machine.clock rest)
        ⟨tame.classes, tame.frames, tame.tasks, tame.microtasks, tame.runners,
          fun other member => tame.ready other (queue ▸ List.mem_cons_of_mem _ member)⟩
      rw [Exec.modify_then]
      refine Stage.outcome_bind _ takenFit _ (engine.tends_execute_line prudent line.node line.frame fits.node _ takenFit
        (fits.frame ▸ Stage.root_firm _) (Bool.eq_false_iff.mpr running)) ?_
      intro value executed _ executes executedFit _ _
      have record : (Exec.record line.runner value).Tends leeway Arena.root Anyhow Anyhow fun _ => True :=
        Exec.tends_record line.runner value
      refine Stage.outcome_bind _ executedFit _ (record _ executedFit (Stage.root_firm _) trivial) ?_
      intro _ recorded _ records recordedFit _ _
      -- The runners that are registered have changed nothing but their lines.
      have registered : recorded.registered.Perm stage.machine.registered :=
        records.registered.trans executes.registered
      have rooted : ∀ runner, recorded.runner? line.runner = some runner → runner.frame = Arena.root := by
        intro runner known
        have listed := List.mem_of_find?_eq_some (recorded.runner_found line.runner runner known)
        obtain ⟨entry, member, same⟩ := List.mem_map.mp (registered.subset (List.mem_map.mpr ⟨_, listed, rfl⟩))
        exact (congrArg Prod.snd same).symm.trans (fits.runner entry member (congrArg Prod.fst same))
      obtain ⟨advanced, moved, _⟩ := Exec.advance_total line.runner recorded
      rw [Exec.bind_done _ _ _ advanced () moved]
      exact ⟨recorded.tame_advanced leeway recordedFit.tame line.runner advanced recordedFit.sound.numbered rooted moved,
        trivial, trivial⟩

theorem tends_run_lines (report : TickReport) :
    (engine.runLines report).Tends leeway Arena.root Anyhow Anyhow fun _ => True := by
  rw [run_lines_rounds]
  exact Exec.tends_iterate engine.lineStep (engine.tends_line_step prudent) (fun _ _ _ _ _ => trivial) _ report

omit prudent in
theorem tends_unless_halted (phase : TickReport → Exec TickReport) (report : TickReport)
    (tends : (phase report).Tends leeway Arena.root Running Anyhow fun _ => True) :
    (unlessHalted phase report).Tends leeway Arena.root Anyhow Anyhow fun _ => True := by
  intro stage fit held _
  apply stage.bears_look fit
  split
  next => exact Exec.tends_pure _ trivial stage fit held trivial
  next running => exact tends stage fit held (Bool.eq_false_iff.mpr running)

theorem tends_tick : engine.tick.Tends leeway Arena.root Anyhow Anyhow fun _ => True :=
  Exec.tends_bind _ (engine.tends_run_lines prudent .empty) fun report _ =>
    Exec.tends_bind _ (tends_unless_halted _ report (engine.tends_drain_microtasks prudent report)) fun report _ =>
      tends_unless_halted _ report (Exec.tends_anyhow (engine.tends_service_events report))

theorem tends_run_step (idle : Nat) : (engine.runStep idle).Tends leeway Arena.root Anyhow Anyhow
    (Sum.elim (fun _ => True) fun _ => True) := by
  apply Exec.tends_bind _ (engine.tends_tick prudent)
  intro report _
  apply Exec.tends_bind _ (Exec.tends_seen _)
  intro halted _
  split
  · exact Exec.tends_pure _ trivial
  · have rest : Exec.Tends leeway Arena.root Anyhow Anyhow (Sum.elim (fun _ => True) fun _ => True) (do
        if !report.isIdle then return .inl 0
        if (← Exec.read (·.config.idleLimit)) ≤ idle + 1 then return .inr ()
        return .inl (idle + 1) : Exec (Nat ⊕ Unit)) := by
      split
      · exact Exec.tends_pure _ trivial
      · apply Exec.tends_bind _ (Exec.tends_seen _)
        intro limit _
        split <;> exact Exec.tends_pure _ trivial
    cases report.isOnlyWaiting with
    | true => exact Exec.tends_bind _ Exec.tends_wait fun _ _ => rest
    | false => exact rest

theorem tends_run : engine.run.Tends leeway Arena.root Anyhow Anyhow fun _ => True :=
  Exec.tends_iterate engine.runStep (engine.tends_run_step prudent) (fun _ _ _ _ _ => trivial) engine.fuel 0

theorem tends_await_step (awaits : leeway.awaits = true) (task : TaskId) (idle : Nat) :
    (engine.awaitStep task idle).Tends leeway Arena.root Anyhow Anyhow
      (Sum.elim (fun _ => True) (Value.Tame leeway)) := by
  apply Exec.tends_lawful (engine.lawful_await_step prudent.lawful task idle)
  intro stage fit held _
  have consume : (Exec.consumeTask task).Tends leeway Arena.root Anyhow Anyhow
      fun value => ∀ result, value = some result → result.Tame leeway := Exec.tends_consume awaits task
  refine stage.outcome_bind fit _ (consume stage fit held trivial) ?_
  intro value machine _ _ machineFit _ fine
  cases value with
  | some value => exact ⟨machineFit.tame, trivial, fine value rfl⟩
  | none =>
    simp only
    rw [Exec.halted_then]
    split
    next =>
      have interrupted : leeway.Allows (.of .interrupted) :=
        ⟨.interrupted, Failure.has_cause_of _, .inl ⟨awaits, .inl rfl⟩⟩
      exact ⟨machineFit.tame, fun _ => interrupted⟩
    next going =>
      have running : Running machine.halted := Bool.eq_false_iff.mpr going
      refine (stage.put machine).outcome_bind machineFit _
        (engine.tends_drain_microtasks prudent .empty _ machineFit (stage.put machine).root_firm running) ?_
      intro drained middle drain _ middleFit _ _
      have serve : (engine.serviceEvents drained).Tends leeway Arena.root (fun halted => halted = middle.halted)
          (fun halted => halted = middle.halted) fun _ => True := engine.tends_service_events drained
      refine Stage.outcome_bind _ middleFit _ (serve _ middleFit (Stage.root_firm _) rfl) ?_
      intro serviced after service _ afterFit sameHalt _
      cases waiting : serviced.isOnlyWaiting with
      | true =>
        simp only [serviced.waiting_busy waiting, Bool.not_false, if_true]
        have waits : Exec.Tends leeway Arena.root Anyhow Anyhow (Sum.elim (fun _ => True) (Value.Tame leeway))
            (do Exec.wait; return .inl 0 : Exec (Nat ⊕ Value)) :=
          Exec.tends_bind _ Exec.tends_wait fun _ _ => Exec.tends_pure _ trivial
        exact (waits _ afterFit (Stage.root_firm _) trivial).2
      | false =>
        cases found : serviced.isIdle with
        | false => exact ⟨afterFit.tame, trivial, trivial⟩
        | true =>
          -- A pass that did nothing has not halted the machine.
          have drainedIdle := engine.service_idle _ middleFit.sound drained serviced after service found
          obtain ⟨_, _, _, _, untouched⟩ := engine.drain_idle machine middle .empty drained drain
          obtain ⟨rfl, _⟩ := untouched (drained.idle_microtasks drainedIdle)
          simp only [Bool.not_true, Bool.false_eq_true, if_false]
          rw [Exec.read_then]
          split
          · exact Exec.bears_running _ after afterFit.tame (sameHalt.trans running)
          · exact ⟨afterFit.tame, trivial, trivial⟩

theorem tends_await (awaits : leeway.awaits = true) (task : TaskId) :
    (engine.await task).Tends leeway Arena.root Anyhow Anyhow (Value.Tame leeway) :=
  Exec.tends_iterate (engine.awaitStep task) (engine.tends_await_step prudent awaits task) (fun _ _ _ _ _ => trivial)
    engine.fuel 0

end Tiers

end Engine

end CoopScript
