import CoopScript.Proofs.Stage.Settler

set_option autoImplicit false
namespace CoopScript

namespace Stage

structure Due (stage : Stage) : Prop where
  once : ∀ task, stage.settlers.count task ≤ 1
  pending : ∀ task ∈ stage.settlers, stage.machine.tasks.state? task = some .pending

theorem count_settlers (stage : Stage) (task : TaskId) :
    stage.settlers.count task = (stage.machine.microtasks.filterMap Microtask.task?).count task +
      (stage.machine.jobs.map Job.task).count task + (stage.calls.filterMap Call.task).count task := by
  simp only [settlers, List.count_append]

variable (before after : Stage) (due : before.Due)
include due

theorem due_fewer (tasks : after.machine.tasks = before.machine.tasks)
    (fewer : ∀ task, after.settlers.count task ≤ before.settlers.count task) : after.Due := by
  refine ⟨fun task => (fewer task).trans (due.once task), fun task member => ?_⟩
  have known : 0 < before.settlers.count task := (List.count_pos_iff.mpr member).trans_le (fewer task)
  exact tasks ▸ due.pending task (List.count_pos_iff.mp known)

-- One more task, and something that is going to settle it.
theorem due_created (tasks : after.machine.tasks = before.machine.tasks.create.2)
    (settlers : ∀ task, after.settlers.count task ≤
      before.settlers.count task + if task = before.machine.tasks.create.1 then 1 else 0) : after.Due := by
  have unknown : before.settlers.count before.machine.tasks.create.1 = 0 := by
    refine List.count_eq_zero_of_not_mem fun member => ?_
    have pending := due.pending _ member
    simp [TaskTable.state?, TaskTable.create] at pending
  constructor
  · intro task
    have bound := settlers task
    have once := due.once task
    by_cases fresh : task = before.machine.tasks.create.1
    · subst fresh
      rw [if_pos rfl, unknown] at bound
      exact bound
    · rw [if_neg fresh] at bound
      exact bound.trans once
  · intro task member
    rw [tasks, TaskTable.state_created]
    by_cases fresh : task = before.machine.tasks.create.1
    · exact if_pos fresh
    · have bound := settlers task
      rw [if_neg fresh] at bound
      have known : 0 < before.settlers.count task := (List.count_pos_iff.mpr member).trans_le bound
      exact (if_neg fresh).trans (due.pending task (List.count_pos_iff.mp known))

-- A task that has got its value, and what has settled it is gone.
theorem due_settled (settled : TaskId) (value : Value)
    (tasks : ∀ task, after.machine.tasks.state? task =
      if task = settled then some (.ready value) else before.machine.tasks.state? task)
    (settlers : ∀ task, before.settlers.count task = after.settlers.count task + if task = settled then 1 else 0) :
    after.Due := by
  constructor
  · intro task
    have bound := due.once task
    rw [settlers] at bound
    exact (Nat.le_add_right _ _).trans bound
  · intro task member
    have here := List.count_pos_iff.mpr member
    have bound := due.once task
    rw [settlers] at bound
    have other : task ≠ settled := by
      rintro rfl
      rw [if_pos rfl] at bound
      omega
    have known : 0 < before.settlers.count task := by
      rw [settlers]
      omega
    rw [tasks, if_neg other]
    exact due.pending task (List.count_pos_iff.mp known)

theorem due_consumed (consumed : TaskId) (value : Value)
    (ready : before.machine.tasks.state? consumed = some (.ready value))
    (tasks : ∀ task, after.machine.tasks.state? task =
      if task = consumed then some .consumed else before.machine.tasks.state? task)
    (settlers : after.settlers = before.settlers) : after.Due := by
  refine ⟨settlers ▸ due.once, fun task member => ?_⟩
  have pending := due.pending task (settlers ▸ member)
  have other : task ≠ consumed := by
    rintro rfl
    rw [ready] at pending
    cases pending
  rw [tasks, if_neg other]
  exact pending

theorem closing_due (closed : Closing before after) : after.Due := by
  have counted : ∀ task, after.settlers.count task = before.settlers.count task := by
    intro task
    cases closed with
    | endRun => rfl
    | closeCall frame calls held machine after released =>
      obtain ⟨frames, _, rfl⟩ := Exec.release_frame_done frame machine after released
      rfl
    | closeBlock _ id last after finished =>
      rcases Exec.finish_runner_done id last before.machine after finished with ⟨_, rfl⟩ | found
      · rfl
      · obtain ⟨runner, frames, _, _, rfl⟩ := found
        rfl
  exact due_fewer before after due (closing_settlers before after ⟨0⟩ closed).1 fun task => (counted task).le

theorem poll_due (status : EventStatus) (polled last : Machine)
    (done : Exec.Polled before.machine status polled) (tasks : last.tasks = polled.tasks)
    (microtasks : last.microtasks = polled.microtasks) (samePool : last.pool = polled.pool) :
    (before.put last).Due := by
  have jobs : last.jobs = polled.jobs := by simp only [Machine.jobs, samePool]
  have sameTasks : polled.tasks = before.machine.tasks := by cases done <;> rfl
  refine due_fewer before _ due (tasks.trans sameTasks) fun task => ?_
  simp only [put, count_settlers, microtasks, jobs]
  cases done with
  | forgotten clock pool idle stillIdle =>
    have empty : Machine.jobs { before.machine with clock := clock, pool := pool, poolEvent := none } = [] := by
      cases content : pool with
      | none => simp [Machine.jobs]
      | some pool => exact stillIdle pool content
    rw [empty]
    simp
  | waiting clock pool same _ =>
    have counted := (same.map Job.task).count_eq task
    have listed : Machine.jobs { before.machine with clock := clock, pool := some pool } = pool.jobs := rfl
    simp only [listed]
    omega
  | ended clock pool ended _ split =>
    have counted := (split.map Job.task).count_eq task
    rw [List.map_append, List.count_append] at counted
    have listed : Machine.jobs { before.machine with
      clock := clock
      pool := some pool
      microtasks := before.machine.microtasks ++ ended.map Job.microtask } = pool.jobs := rfl
    have queued : (ended.map Job.microtask).filterMap Microtask.task? = ended.map Job.task := by
      rw [List.filterMap_map]
      refine List.filterMap_eq_map_iff_forall_eq_some.mpr fun job _ => ?_
      simp only [Function.comp, Job.microtask]
      cases job.outcome <;> rfl
    rw [listed, List.filterMap_append, List.count_append, queued]
    omega

theorem step_due (step : Step before after) : after.Due := by
  cases step with
  | quiet | adjust | alter | beginRun => exact ⟨due.once, due.pending⟩
  | openCall _ caller frame arguments after _ opened =>
    obtain ⟨frames, _, rfl⟩ := Exec.push_frame_done caller frame true arguments before.machine after opened
    exact ⟨due.once, due.pending⟩
  | openBlock _ lines frame id after opened =>
    obtain ⟨frames, functionFrame, _, _, _, rfl⟩ :=
      Exec.create_runner_done lines frame id before.machine after opened
    exact ⟨due.once, due.pending⟩
  | spawn _ name lines arguments caller promise after _ spawned =>
    obtain ⟨calls, held, machine⟩ := before
    obtain ⟨frame, frames, _, _, rfl⟩ :=
      Exec.spawn_async_done name lines arguments caller promise machine after spawned
    refine due_created _ _ due rfl fun task => ?_
    have jobs : Machine.jobs { machine with
      tasks := machine.tasks.create.2
      frames := frames
      asyncFrames := machine.asyncFrames ++ [frame]
      microtasks := machine.microtasks ++ [.asyncBody machine.tasks.create.1 name lines frame] } = machine.jobs := rfl
    simp only [put, count_settlers, jobs, List.filterMap_append, List.count_append, List.filterMap_cons,
      List.filterMap_nil, Microtask.task?, List.count_cons, List.count_nil, beq_iff_eq,
      @eq_comm _ task machine.tasks.create.1]
    omega
  | startBody calls held machine waiting name lines frame rest next =>
    refine due_fewer _ _ due rfl fun task => ?_
    have jobs : Machine.jobs { machine with
      microtasks := rest, asyncFrames := machine.asyncFrames.filter (· ≠ frame) } = machine.jobs := rfl
    simp only [count_settlers, jobs, next, List.filterMap_cons, Microtask.task?, List.count_cons]
    omega
  | settleBody frame settled calls held value machine middle after _ released settling =>
    obtain ⟨frames, _, rfl⟩ := Exec.release_frame_done frame machine middle released
    obtain ⟨tasks, done, rfl⟩ := Exec.settle_task_done settled value _ after settling
    obtain ⟨_, states⟩ := TaskTable.settle_done machine.tasks tasks settled value done
    refine due_settled _ _ due settled value states fun task => ?_
    have jobs : Machine.jobs { machine with frames := frames, tasks := tasks } = machine.jobs := rfl
    simp only [count_settlers, jobs, List.filterMap_cons, List.count_cons, beq_iff_eq, @eq_comm _ task settled]
    omega
  | settle _ settled value rest after next settling =>
    obtain ⟨calls, held, machine⟩ := before
    obtain ⟨tasks, done, rfl⟩ := Exec.settle_task_done settled _ _ after settling
    obtain ⟨_, states⟩ := TaskTable.settle_done machine.tasks tasks settled _ done
    refine due_settled _ _ due settled _ states fun task => ?_
    have jobs : Machine.jobs { machine with microtasks := rest, tasks := tasks } = machine.jobs := rfl
    have queue : machine.microtasks = .settle settled value :: rest := next
    simp only [put, count_settlers, jobs, queue, List.filterMap_cons, Microtask.task?, List.count_cons, beq_iff_eq,
      @eq_comm _ task settled]
    omega
  | consume _ consumed value after taken =>
    obtain ⟨tasks, done, rfl⟩ := Exec.consume_task_done consumed (some value) before.machine after taken
    obtain ⟨ready, states⟩ := TaskTable.consume_done before.machine.tasks tasks consumed value done
    exact due_consumed _ _ due consumed value ready states rfl
  | submit _ outcome milliseconds promise after spawned =>
    obtain ⟨calls, held, machine⟩ := before
    obtain ⟨pool, due_at, events, eventCount, event, _, rfl, queued, _⟩ :=
      Exec.spawn_blocking_done (some outcome) milliseconds promise machine after spawned
    refine due_created _ _ due rfl fun task => ?_
    have jobs : Machine.jobs { machine with
      tasks := machine.tasks.create.2
      pool := some pool
      events := events
      eventCount := eventCount
      poolEvent := some event } = pool.jobs := rfl
    simp only [put, count_settlers, jobs, queued, List.map_append, List.count_append, List.map_cons, List.map_nil,
      List.count_cons, List.count_nil, beq_iff_eq, @eq_comm _ task machine.tasks.create.1]
    omega
  | poll _ engine id status after only served =>
    obtain ⟨known, polled, done, polledHere, _⟩ := Exec.service_poll_done engine id before.machine only
    rw [served] at done
    cases done
    exact poll_due before due status polled _ polledHere rfl rfl rfl
  | closing _ _ closed => exact closing_due before after due closed

theorem unwind_due (unwind : Unwind before after) : after.Due := by
  cases unwind with
  | closing _ _ closed => exact closing_due before after due closed
  | dropBody frame task calls held machine after released =>
    obtain ⟨frames, _, rfl⟩ := Exec.release_frame_done frame machine after released
    refine due_fewer _ _ due rfl fun other => ?_
    have jobs : Machine.jobs { machine with frames := frames } = machine.jobs := rfl
    simp only [count_settlers, jobs, List.filterMap_cons, List.count_cons]
    omega
  | strand _ task after created =>
    cases created
    exact due_created _ _ due rfl fun other => Nat.le_add_right _ _
  | discard _ task value rest next =>
    obtain ⟨calls, held, machine⟩ := before
    refine due_fewer _ _ due rfl fun other => ?_
    have jobs : Machine.jobs { machine with microtasks := rest } = machine.jobs := rfl
    have queue : machine.microtasks = .settle task value :: rest := next
    simp only [put, count_settlers, jobs, queue, List.filterMap_cons, Microtask.task?, List.count_cons]
    omega

omit due in
theorem leads_due (base start finish : Stage) (due : start.Due) (leads : base.Leads start finish) : finish.Due := by
  induction leads with
  | refl => exact due
  | tail _ stride ih => exact step_due _ _ ih stride.1

omit due in
theorem leaves_due (base start finish : Stage) (due : start.Due) (leaves : base.Leaves start finish) : finish.Due := by
  induction leaves with
  | refl => exact due
  | tail _ stride ih => exact unwind_due _ _ ih stride.1

end Stage

end CoopScript
