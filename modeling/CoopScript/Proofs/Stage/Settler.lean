import CoopScript.Proofs.Stage.Run

set_option autoImplicit false
namespace CoopScript

def Microtask.task? : Microtask → Option TaskId
  | .asyncBody task _ _ _ => some task
  | .settle task _ => some task
  | .panicked task => some task
  | .host _ => none

namespace Stage

-- The tasks that something is going to settle, once for each such thing.
def settlers (stage : Stage) : List TaskId :=
  stage.machine.microtasks.filterMap Microtask.task? ++ stage.machine.jobs.map Job.task ++
    stage.calls.filterMap Call.task

-- A task waits although nothing is going to settle it.
structure Stuck (stage : Stage) (task : TaskId) : Prop where
  pending : stage.machine.tasks.state? task = some .pending
  stranded : task ∉ stage.settlers

-- The body of a task has been started and is not over.
def Suspended (stage : Stage) (task : TaskId) : Prop := ∃ call ∈ stage.calls, call.task = some task

theorem stuck_kept (before after : Stage) (task : TaskId) (stuck : after.Stuck task)
    (tasks : after.machine.tasks.state? task = before.machine.tasks.state? task)
    (settlers : task ∈ before.settlers → task ∈ after.settlers) : before.Stuck task :=
  ⟨tasks ▸ stuck.pending, fun member => stuck.stranded (settlers member)⟩

theorem stuck_created (before after : Stage) (task : TaskId) (stuck : after.Stuck task)
    (tasks : after.machine.tasks = before.machine.tasks.create.2)
    (settlers : ∀ other, other = before.machine.tasks.create.1 ∨ other ∈ before.settlers →
      other ∈ after.settlers) : before.Stuck task := by
  refine stuck_kept before after task stuck ?_ fun member => settlers task (.inr member)
  have other : task ≠ before.machine.tasks.create.1 := fun new => stuck.stranded (settlers task (.inl new))
  rw [tasks, TaskTable.state_created, if_neg other]

theorem stuck_updated (before after : Stage) (task updated : TaskId) (state : TaskState)
    (stuck : after.Stuck task) (isOver : state ≠ .pending)
    (tasks : ∀ other, after.machine.tasks.state? other =
      if other = updated then some state else before.machine.tasks.state? other)
    (settlers : ∀ other ≠ updated, other ∈ before.settlers → other ∈ after.settlers) :
    before.Stuck task := by
  have other : task ≠ updated := by
    rintro rfl
    have pending := stuck.pending
    rw [tasks, if_pos rfl] at pending
    exact isOver (Option.some.inj pending)
  exact stuck_kept before after task stuck (by rw [tasks, if_neg other]) (settlers task other)

theorem closing_settlers (before after : Stage) (task : TaskId) (closed : Closing before after) :
    after.machine.tasks = before.machine.tasks ∧ (task ∈ after.settlers ↔ task ∈ before.settlers) := by
  cases closed with
  | endRun => exact ⟨rfl, Iff.rfl⟩
  | closeCall frame calls held machine after released =>
    obtain ⟨frames, _, rfl⟩ := Exec.release_frame_done frame machine after released
    exact ⟨rfl, Iff.rfl⟩
  | closeBlock _ id last after finished =>
    rcases Exec.finish_runner_done id last before.machine after finished with ⟨_, rfl⟩ | found
    · exact ⟨rfl, Iff.rfl⟩
    · obtain ⟨runner, frames, _, _, rfl⟩ := found
      exact ⟨rfl, Iff.rfl⟩

theorem poll_settlers (stage : Stage) (status : EventStatus) (polled after : Machine)
    (done : Exec.Polled stage.machine status polled) (microtasks : after.microtasks = polled.microtasks)
    (samePool : after.pool = polled.pool) (task : TaskId) (member : task ∈ stage.settlers) :
    task ∈ (stage.put after).settlers := by
  have jobs : after.jobs = polled.jobs := by simp only [Machine.jobs, samePool]
  simp only [settlers, put, List.mem_append, microtasks, jobs] at member ⊢
  cases done with
  | forgotten clock pool idle _ =>
    rw [idle] at member
    simp only [List.map_nil, List.not_mem_nil, or_false] at member
    tauto
  | waiting clock pool same _ =>
    have listed : task ∈ pool.jobs.map Job.task ↔ task ∈ stage.machine.jobs.map Job.task :=
      (same.map Job.task).mem_iff
    rw [← listed] at member
    exact member
  | ended clock pool ended _ split =>
    have listed : task ∈ ended.map Job.task ∨ task ∈ pool.jobs.map Job.task ↔
        task ∈ stage.machine.jobs.map Job.task := by
      rw [← List.mem_append, ← List.map_append]
      exact (split.map Job.task).mem_iff
    have queued : task ∈ ended.map Job.task →
        task ∈ (ended.map Job.microtask).filterMap Microtask.task? := by
      rintro member
      obtain ⟨job, found, rfl⟩ := List.mem_map.mp member
      refine List.mem_filterMap.mpr ⟨job.microtask, List.mem_map_of_mem found, ?_⟩
      unfold Job.microtask
      split <;> rfl
    rw [← listed] at member
    rw [List.filterMap_append, List.mem_append]
    exact member.imp_left fun waits => waits.elim (fun here => .inl (.inl here)) fun inJobs =>
      inJobs.elim (fun isOver => .inl (.inr (queued isOver))) .inr

theorem step_stuck (before after : Stage) (task : TaskId) (step : Step before after)
    (stuck : after.Stuck task) : before.Stuck task := by
  cases step with
  | quiet | adjust | alter | beginRun => exact ⟨stuck.pending, stuck.stranded⟩
  | openCall _ caller frame arguments after _ opened =>
    obtain ⟨frames, _, rfl⟩ := Exec.push_frame_done caller frame true arguments before.machine after opened
    exact ⟨stuck.pending, stuck.stranded⟩
  | openBlock _ lines frame id after opened =>
    obtain ⟨frames, functionFrame, _, _, _, rfl⟩ :=
      Exec.create_runner_done lines frame id before.machine after opened
    exact ⟨stuck.pending, stuck.stranded⟩
  | spawn _ name lines arguments caller promise after _ spawned =>
    obtain ⟨frame, frames, _, _, rfl⟩ :=
      Exec.spawn_async_done name lines arguments caller promise before.machine after spawned
    refine stuck_created before _ task stuck rfl fun other known => ?_
    simp only [settlers, put, List.mem_append, List.filterMap_append] at known ⊢
    rcases known with rfl | known
    · exact .inl (.inl (.inr (by simp [Microtask.task?])))
    · tauto
  | startBody calls held machine waiting name lines frame rest next =>
    refine stuck_kept _ _ task stuck rfl fun member => ?_
    simp only [settlers, next, List.filterMap_cons, Microtask.task?, List.mem_append, List.mem_cons] at member ⊢
    tauto
  | settleBody frame settled calls held value machine middle after _ released settling =>
    obtain ⟨frames, _, rfl⟩ := Exec.release_frame_done frame machine middle released
    obtain ⟨tasks, done, rfl⟩ := Exec.settle_task_done settled value _ after settling
    obtain ⟨_, states⟩ := TaskTable.settle_done machine.tasks tasks settled value done
    refine stuck_updated _ _ task settled (.ready value) stuck (by simp) states fun other differs member => ?_
    simp only [settlers, List.filterMap_cons, List.mem_append, List.mem_cons] at member ⊢
    tauto
  | settle _ settled value rest after next settling =>
    obtain ⟨tasks, done, rfl⟩ := Exec.settle_task_done settled _ _ after settling
    obtain ⟨_, states⟩ := TaskTable.settle_done before.machine.tasks tasks settled _ done
    refine stuck_updated _ _ task settled (.ready _) stuck (by simp) states fun other differs member => ?_
    simp only [settlers, put, next, List.filterMap_cons, Microtask.task?, List.mem_append, List.mem_cons]
      at member ⊢
    tauto
  | consume _ consumed value after taken =>
    obtain ⟨tasks, done, rfl⟩ := Exec.consume_task_done consumed (some value) before.machine after taken
    obtain ⟨_, states⟩ := TaskTable.consume_done before.machine.tasks tasks consumed value done
    exact stuck_updated before _ task consumed .consumed stuck (by simp) states fun _ _ member => member
  | submit _ outcome milliseconds promise after spawned =>
    obtain ⟨pool, due, events, eventCount, event, _, rfl, queued, _⟩ :=
      Exec.spawn_blocking_done (some outcome) milliseconds promise before.machine after spawned
    refine stuck_created before _ task stuck rfl fun other known => ?_
    have jobs : Machine.jobs { before.machine with
        tasks := before.machine.tasks.create.2, pool := some pool, events := events,
        eventCount := eventCount, poolEvent := some event } = pool.jobs := rfl
    simp only [settlers, put, List.mem_append, jobs, queued, List.map_append] at known ⊢
    rcases known with rfl | known
    · exact .inl (.inr (.inr (by simp)))
    · tauto
  | poll _ engine id status after only served =>
    obtain ⟨known, polled, done, polledHere, _⟩ := Exec.service_poll_done engine id before.machine only
    rw [served] at done
    cases done
    refine stuck_kept before _ task stuck ?_ fun member => ?_
    · cases polledHere <;> rfl
    · exact poll_settlers before status polled _ polledHere rfl rfl task member
  | closing _ _ closed =>
    obtain ⟨tasks, settlers⟩ := closing_settlers before after task closed
    exact stuck_kept before after task stuck (by rw [tasks]) settlers.mpr

-- As long as nothing fails, a task that waits is going to be settled, unless it never was.
theorem leads_stuck (base start finish : Stage) (task : TaskId) (leads : base.Leads start finish)
    (stuck : finish.Stuck task) : start.Stuck task := by
  induction leads with
  | refl => exact stuck
  | tail _ stride ih => exact ih (step_stuck _ _ task stride.1 stuck)

end Stage

end CoopScript
