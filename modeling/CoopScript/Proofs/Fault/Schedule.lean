import CoopScript.Proofs.Fault.Call

set_option autoImplicit false
namespace CoopScript

theorem Exec.settle_clears (task : TaskId) (value : Value) (machine : Machine) (tame : machine.Tame .full)
    (within : machine.Within) (sure : value.Sure machine.tasks.count)
    (pending : machine.tasks.state? task = some .pending) :
    (Exec.settleTask task value machine).Clears machine.tasks.count fun _ _ => True := by
  have settled : Exec.settleTask task value machine =
      .done () { machine with tasks := machine.tasks.setState task (.ready value) } := by
    simp only [Exec.settleTask, machine.tasks.settle_pending task value pending]
  obtain ⟨afterWithin, same⟩ := machine.within_settled within task value _ sure.within settled
  rw [settled]
  exact ⟨machine.tame_settled .full tame task value _ sure.tame settled, afterWithin, same.symm.le, trivial⟩

namespace Engine

section Tiers
variable (engine : Engine) (clear : engine.Clear)
include clear

theorem start_body_clears (stage : Stage) (stageClear : stage.Clear) (task : TaskId) (name : String) (lines : List Node)
    (frame : FrameId) (rest : List Microtask)
    (next : stage.machine.microtasks = .asyncBody task name lines frame :: rest) :
    (engine.runAsyncBody task name lines frame { stage.machine with microtasks := rest }).Clears stage.count
      fun _ _ => True := by
  obtain ⟨calls, held, machine⟩ := stage
  have fit := stageClear.fit
  have tame := fit.tame
  have waits : (Microtask.asyncBody task name lines frame).Prudent .full :=
    tame.microtasks _ (next ▸ List.mem_cons_self)
  obtain ⟨_, fits⟩ := waits task name lines frame rfl
  have later : ∀ microtask ∈ rest, microtask.Prudent .full := fun microtask member =>
    tame.microtasks microtask (next ▸ List.mem_cons_of_mem _ member)
  have startedFit := (Stage.mk calls held machine).step_fit fit _
    (.startBody calls held machine task name lines frame rest next)
    ⟨tame.classes, tame.frames, tame.tasks, later, tame.runners, tame.ready⟩
  have started : Stage.Clear _ := ⟨startedFit, stageClear.within.frames, stageClear.within.tasks⟩
  have runs := engine.run_frame_clears clear name lines frame (some task) calls held _ started fits
  unfold runAsyncBody
  rw [Exec.modify_then]
  apply Exec.clears_enclosed (engine.runFrame name lines frame) (Exec.releaseFrame frame)
    (fun outcome _ => do let value ← Exec.ofOutcome outcome; Exec.settleTask task value)
    (fun after => after.tasks.state? task = some .pending) _ runs.2
  · intro left leaves leftTame leftWithin
    have leftFit := (Stage.clears_left _ started runs left leaves).fit
    have pending : left.tasks.state? task = some .pending :=
      leftFit.due.pending task (by simp [Stage.settlers, Stage.put])
    obtain ⟨frames, released, _, _⟩ := Exec.release_frame_kept frame _ left
      (Stage.call_ledger ⟨frame, some task, false⟩ calls held left leftFit.sound)
    obtain ⟨afterTame, _⟩ := left.tame_released .full leftTame frame _ released
    obtain ⟨afterWithin, same⟩ := left.within_released leftWithin frame _ released
    exact ⟨(), _, released, afterTame, afterWithin, same, pending⟩
  · exact fun _ _ _ => rfl
  · intro value _ after afterTame afterWithin pending more sure
    have settles := Exec.settle_clears task value after afterTame afterWithin sure pending
    show (Exec.settleTask task value after).Clears machine.tasks.count fun _ _ => True
    rw [Exec.settleTask, after.tasks.settle_pending task value pending] at settles ⊢
    exact ⟨settles.1, settles.2.1, more.trans settles.2.2.1, trivial⟩

theorem next_microtask_clears (stage : Stage) (stageClear : stage.Clear) (microtask : Microtask) (rest : List Microtask)
    (next : stage.machine.microtasks = microtask :: rest) :
    stage.Clears (fun _ _ => True)
      (Exec.modify (fun machine => { machine with microtasks := rest }) >>= fun _ => engine.runMicrotask microtask) := by
  have fit := stageClear.fit
  refine ⟨engine.next_microtask_follows clear.prudent.lawful stage fit.sound microtask rest next, ?_⟩
  rw [Exec.modify_then]
  rcases fit.sound.plain.microtasks microtask (next ▸ List.mem_cons_self) with
    ⟨task, name, lines, frame, rfl⟩ | ⟨task, value, rfl⟩
  · exact engine.start_body_clears clear stage stageClear task name lines frame rest next
  · have tame := fit.tame
    have takenTame : { stage.machine with microtasks := rest }.Tame .full :=
      ⟨tame.classes, tame.frames, tame.tasks,
        fun other member => tame.microtasks other (next ▸ List.mem_cons_of_mem _ member), tame.runners, tame.ready⟩
    have sure : (stage.machine.classes.scalar value).Sure stage.machine.tasks.count := by
      rw [tame.classes]
      exact ⟨ClassTable.tame_scalar .full value, ClassTable.within_scalar _ value⟩
    have pending : stage.machine.tasks.state? task = some .pending :=
      fit.due.pending task (by simp [Stage.settlers, next, Microtask.task?])
    exact Exec.settle_clears task _ { stage.machine with microtasks := rest } takenTame
      ⟨stageClear.within.frames, stageClear.within.tasks⟩ sure pending

variable {count : Nat}

theorem clears_drain_step (report : TickReport) : (engine.drainStep report).Clears count Arena.root
    fun _ => Sum.elim (fun _ => True) fun _ => True := by
  intro stage stageClear held counted
  apply stage.clears_look stageClear
  cases queue : stage.machine.microtasks with
  | nil => exact Exec.clears_pure _ trivial stage stageClear held counted
  | cons microtask rest =>
    simp only
    rw [Exec.modify_assoc]
    refine stage.clears_bind stageClear _
      (engine.next_microtask_clears clear stage stageClear microtask rest queue) ?_
    intro _ machine _ _ machineClear _ _
    apply Stage.clears_look _ machineClear
    split <;> exact Exec.clears_pure _ trivial _ machineClear (stage.put machine).root_firm rfl

theorem clears_drain_microtasks (report : TickReport) :
    (engine.drainMicrotasks report).Clears count Arena.root fun _ _ => True :=
  Exec.clears_iterate engine.drainStep (fun _ report _ => engine.clears_drain_step clear report) engine.fuel report

omit clear in
theorem clears_service_events (report : TickReport) :
    (engine.serviceEvents report).Clears count Arena.root fun _ _ => True := by
  apply Exec.clears_lawful (engine.lawful_service_events report)
  intro stage stageClear _ _
  have fit := stageClear.fit
  rcases engine.service_events_cases stage fit.sound report with
    ⟨_, _, done⟩ | ⟨id, status, after, only, served, done⟩
  · rw [done]
    exact ⟨fit.tame, stageClear.within, Nat.le_refl _, trivial⟩
  · rw [done]
    obtain ⟨known, polled, same, polledHere, _⟩ := Exec.service_poll_done engine id stage.machine only
    rw [served] at same
    cases same
    obtain ⟨polledTame, _⟩ := stage.machine.tame_polled .full fit.tame _ polled polledHere
      (if status = EventStatus.done then [] else stage.machine.events)
    have sameFrames : polled.frames = stage.machine.frames := by cases polledHere <;> rfl
    have sameTasks : polled.tasks = stage.machine.tasks := by cases polledHere <;> rfl
    refine ⟨polledTame, ⟨?_, ?_⟩, ?_, trivial⟩
    · show polled.frames.Holds fun _ frame => frame.Within polled.tasks.count
      rw [sameFrames, sameTasks]
      exact stageClear.within.frames
    · show ∀ task value, polled.tasks.state? task = some (.ready value) → value.Within polled.tasks.count
      rw [sameTasks]
      exact stageClear.within.tasks
    · exact (congrArg TaskTable.count sameTasks).symm.le

theorem clears_line_step (report : TickReport) : (engine.lineStep report).Clears count Arena.root
    fun _ => Sum.elim (fun _ => True) fun _ => True := by
  apply Exec.clears_lawful (engine.lawful_line_step clear.prudent.lawful report)
  intro stage stageClear _ _
  have fit := stageClear.fit
  have idle : (Outcome.done (Sum.inr report : TickReport ⊕ TickReport) stage.machine).Clears stage.count
      fun _ => Sum.elim (fun _ => True) fun _ => True :=
    ⟨fit.tame, stageClear.within, Nat.le_refl _, trivial⟩
  unfold lineStep
  rw [Exec.read_then]
  cases queue : stage.machine.ready with
  | nil => exact idle
  | cons line rest =>
    simp only
    rw [Exec.halted_then]
    split
    next => exact idle
    next running =>
      have tame := fit.tame
      have fits := tame.ready line (queue ▸ List.mem_cons_self)
      have takenFit := stage.step_fit fit _ (.quiet stage stage.machine.output stage.machine.halted
          stage.machine.nextIdentity stage.machine.clock rest)
        ⟨tame.classes, tame.frames, tame.tasks, tame.microtasks, tame.runners,
          fun other member => tame.ready other (queue ▸ List.mem_cons_of_mem _ member)⟩
      have taken : (stage.put { stage.machine with ready := rest }).Clear :=
        ⟨takenFit, stageClear.within.frames, stageClear.within.tasks⟩
      rw [Exec.modify_then]
      refine Stage.outcome_clears_bind _ taken _ (engine.clears_execute_line clear line.node line.frame fits.node _ taken
        (fits.frame ▸ Stage.root_firm _) rfl) ?_
      intro value executed _ executes executedClear _ _
      have record : (Exec.record line.runner value).Clears executed.tasks.count Arena.root fun _ _ => True :=
        Exec.clears_record line.runner value
      refine Stage.outcome_clears_bind _ executedClear _ (record _ executedClear (Stage.root_firm _) rfl) ?_
      intro _ recorded _ records recordedClear _ _
      -- The runners that are registered have changed nothing but their lines.
      have registered : recorded.registered.Perm stage.machine.registered :=
        records.registered.trans executes.registered
      have rooted : ∀ runner, recorded.runner? line.runner = some runner → runner.frame = Arena.root := by
        intro runner known
        have listed := List.mem_of_find?_eq_some (recorded.runner_found line.runner runner known)
        obtain ⟨entry, member, same⟩ := List.mem_map.mp (registered.subset (List.mem_map.mpr ⟨_, listed, rfl⟩))
        exact (congrArg Prod.snd same).symm.trans (fits.runner entry member (congrArg Prod.fst same))
      obtain ⟨advanced, moved, _⟩ := Exec.advance_total line.runner recorded
      obtain ⟨advancedWithin, sameTasks⟩ := recorded.within_advanced recordedClear.within line.runner advanced moved
      rw [Exec.bind_done _ _ _ advanced () moved]
      exact ⟨recorded.tame_advanced .full recordedClear.fit.tame line.runner advanced
          recordedClear.fit.sound.numbered rooted moved,
        advancedWithin, (congrArg TaskTable.count sameTasks).symm.le, trivial⟩

theorem clears_run_lines (report : TickReport) : (engine.runLines report).Clears count Arena.root fun _ _ => True := by
  rw [run_lines_rounds]
  exact Exec.clears_iterate engine.lineStep (fun _ report _ => engine.clears_line_step clear report) _ report

omit clear in
theorem clears_unless_halted (phase : TickReport → Exec TickReport) (report : TickReport)
    (clears : (phase report).Clears count Arena.root fun _ _ => True) :
    (unlessHalted phase report).Clears count Arena.root fun _ _ => True := by
  intro stage stageClear held counted
  apply stage.clears_look stageClear
  split
  next => exact Exec.clears_pure _ trivial stage stageClear held counted
  next => exact clears stage stageClear held counted

theorem clears_tick : engine.tick.Clears count Arena.root fun _ _ => True :=
  Exec.clears_bind _ (engine.clears_run_lines clear .empty) fun _ report _ _ =>
    Exec.clears_bind _ (clears_unless_halted _ report (engine.clears_drain_microtasks clear report))
      fun _ report _ _ => clears_unless_halted _ report (engine.clears_service_events report)

theorem clears_run_step (idle : Nat) : (engine.runStep idle).Clears count Arena.root
    fun _ => Sum.elim (fun _ => True) fun _ => True := by
  refine Exec.clears_bind _ (engine.clears_tick clear) fun _ report _ _ => ?_
  refine Exec.clears_bind _ (Exec.clears_seen _) fun _ halted _ _ => ?_
  split
  · exact Exec.clears_pure _ trivial
  · have rest : ∀ {more : Nat}, Exec.Clears more Arena.root (fun _ => Sum.elim (fun _ => True) fun _ => True) (do
        if !report.isIdle then return .inl 0
        if (← Exec.read (·.config.idleLimit)) ≤ idle + 1 then return .inr ()
        return .inl (idle + 1) : Exec (Nat ⊕ Unit)) := by
      intro more
      split
      · exact Exec.clears_pure _ trivial
      · refine Exec.clears_bind _ (Exec.clears_seen _) fun _ limit _ _ => ?_
        split <;> exact Exec.clears_pure _ trivial
    cases report.isOnlyWaiting with
    | true => exact Exec.clears_bind _ Exec.clears_wait fun _ _ _ _ => rest
    | false => exact rest

theorem clears_run : engine.run.Clears count Arena.root fun _ _ => True :=
  Exec.clears_iterate engine.runStep (fun _ idle _ => engine.clears_run_step clear idle) engine.fuel 0

theorem clears_await_step (task : TaskId) (positive : 0 < task.number) (bound : task.number ≤ count) (idle : Nat) :
    (engine.awaitStep task idle).Clears count Arena.root
      fun more => Sum.elim (fun _ => True) (Value.Sure more) := by
  apply Exec.clears_lawful (engine.lawful_await_step clear.prudent.lawful task idle)
  intro stage stageClear held counted
  refine stage.outcome_clears_bind stageClear _
    (Exec.clears_consume task positive bound stage stageClear held counted) ?_
  intro value machine _ _ machineClear _ fine
  cases value with
  | some value => exact ⟨machineClear.fit.tame, machineClear.within, Nat.le_refl _, fine value rfl⟩
  | none =>
    simp only
    rw [Exec.halted_then]
    split
    next => exact ⟨machineClear.fit.tame, machineClear.within, Failure.clean_of _ rfl⟩
    next =>
      refine (stage.put machine).outcome_clears_bind machineClear _
        (engine.clears_drain_microtasks clear .empty _ machineClear (stage.put machine).root_firm rfl) ?_
      intro drained middle _ _ middleClear _ _
      refine Stage.outcome_clears_bind _ middleClear _
        (engine.clears_service_events drained _ middleClear (Stage.root_firm _) rfl) ?_
      intro serviced after _ _ afterClear _ _
      have ending : ∀ last : Machine, last.Tame .full → last.Within →
          ((do
            if !serviced.isIdle then return .inl 0
            if (← Exec.read (·.config.idleLimit)) < idle + 1 then Exec.fail .neverSettled
            return .inl (idle + 1) : Exec (Nat ⊕ Value)) last).Clears last.tasks.count
              fun more => Sum.elim (fun _ => True) (Value.Sure more) := by
        intro last tame within
        split
        · exact ⟨tame, within, Nat.le_refl _, trivial⟩
        · rw [Exec.read_then]
          split
          · exact ⟨tame, within, Failure.clean_of _ rfl⟩
          · exact ⟨tame, within, Nat.le_refl _, trivial⟩
      cases waiting : serviced.isOnlyWaiting with
      | false => exact ending after afterClear.fit.tame afterClear.within
      | true =>
        refine Stage.outcome_clears_bind _ afterClear _ (Exec.clears_wait _ afterClear (Stage.root_firm _) rfl) ?_
        exact fun _ left _ _ leftClear _ _ => ending left leftClear.fit.tame leftClear.within

theorem clears_await (task : TaskId) (positive : 0 < task.number) (bound : task.number ≤ count) :
    (engine.await task).Clears count Arena.root fun more value => value.Sure more :=
  Exec.clears_iterate (engine.awaitStep task)
    (fun _ idle fewer => engine.clears_await_step clear task positive (bound.trans fewer) idle) engine.fuel 0

end Tiers

end Engine

end CoopScript
