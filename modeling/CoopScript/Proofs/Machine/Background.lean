import CoopScript.Proofs.Machine.Primitive
import Mathlib.Data.List.Nodup
import Mathlib.Data.List.Perm.Basic

set_option autoImplicit false
namespace CoopScript

namespace Pool

theorem insert_by_end_perm (job : Job) (jobs : List Job) : (insertByEnd job jobs).Perm (job :: jobs) := by
  induction jobs with
  | nil => exact .refl _
  | cons first rest ih =>
    unfold insertByEnd
    split
    · exact (ih.cons first).trans (.swap job first rest)
    · exact .refl _

theorem by_end_perm (jobs : List Job) : (byEnd jobs).Perm jobs := by
  have gathered : ∀ sorted : List Job,
      (jobs.foldl (fun sorted job => insertByEnd job sorted) sorted).Perm (jobs ++ sorted) := by
    induction jobs with
    | nil => exact fun sorted => .refl sorted
    | cons job rest ih =>
      intro sorted
      exact (ih _).trans (((insert_by_end_perm job sorted).append_left rest).trans List.perm_middle)
  simpa [byEnd] using gathered []

theorem collected (pool : Pool) (now : Nat) :
    ((pool.collect now).1 ++ (pool.collect now).2.jobs).Perm pool.jobs := by
  unfold collect
  have parted := List.filter_append_perm (fun job : Job => decide (job.due ≤ now)) pool.jobs
  simp only [List.partition_eq_filter_filter]
  exact ((by_end_perm _).append_right _).trans parted

end Pool

-- The jobs in the background that nobody was told about yet.
def Machine.jobs (machine : Machine) : List Job :=
  match machine.pool with
  | some pool => pool.jobs
  | none => []

namespace Exec

theorem enqueue_each_done (jobs : List Job) (machine : Machine) :
    each (fun job => enqueueMicrotask job.microtask) jobs machine =
      .done () { machine with microtasks := machine.microtasks ++ jobs.map Job.microtask } := by
  induction jobs generalizing machine with
  | nil => simp [each, pure]
  | cons job rest ih =>
    unfold each
    rw [enqueueMicrotask, modify_then, ih]
    simp

-- What a question to the pool does: jobs that ended become microtasks, and the pool is asked again later unless it
-- has nothing more to tell.
inductive Polled (machine : Machine) : EventStatus → Machine → Prop where
  | forgotten (clock : Nat) (pool : Option Pool) (idle : machine.jobs = [])
      (stillIdle : ∀ content, pool = some content → content.jobs = []) :
      Polled machine .done { machine with clock := clock, pool := pool, poolEvent := none }
  | waiting (clock : Nat) (pool : Pool) (same : pool.jobs.Perm machine.jobs) (busy : pool.jobs ≠ []) :
      Polled machine .busy { machine with clock := clock, pool := some pool }
  | ended (clock : Nat) (pool : Pool) (jobs : List Job) (some : jobs ≠ [])
      (split : (jobs ++ pool.jobs).Perm machine.jobs) :
      Polled machine .progress
        { machine with
          clock := clock
          pool := .some pool
          microtasks := machine.microtasks ++ jobs.map Job.microtask }

theorem poll_pool_done (machine : Machine) :
    ∃ status after, pollPool machine = .done status after ∧ Polled machine status after := by
  unfold pollPool
  rw [read_then]
  cases content : machine.pool with
  | none =>
    exact ⟨_, _, rfl, .forgotten machine.clock machine.pool (by simp [Machine.jobs, content]) (by simp [content])⟩
  | some pool =>
    have split := Pool.collected pool (machine.clock + Machine.pollTime)
    have known : machine.jobs = pool.jobs := by simp [Machine.jobs, content]
    simp only
    rw [modify_then, read_then]
    have late : (machine.pass Machine.pollTime).clock = machine.clock + Machine.pollTime := rfl
    rw [late]
    generalize pool.collect (machine.clock + Machine.pollTime) = result at split
    obtain ⟨jobs, rest⟩ := result
    simp only at split ⊢
    rw [← known] at split
    rw [modify_then]
    by_cases none_ended : jobs = []
    · subst none_ended
      simp only [List.isEmpty_nil, if_true]
      by_cases idle : rest.jobs = []
      · rw [idle] at split
        simp only [Pool.outstanding, idle, List.length_nil, if_true]
        exact ⟨_, _, rfl, .forgotten _ (some rest) (List.Perm.eq_nil split.symm) (by simp [idle])⟩
      · have counted : rest.outstanding ≠ 0 := by simpa [Pool.outstanding] using idle
        simp only [counted, if_false]
        exact ⟨_, _, rfl, .waiting _ rest (by simpa using split) idle⟩
    · have nonempty : jobs.isEmpty = false := by simpa using none_ended
      simp only [nonempty, Bool.false_eq_true, if_false]
      rw [bind_done _ _ _ _ () (enqueue_each_done jobs _)]
      exact ⟨_, _, rfl, .ended _ rest jobs none_ended split⟩

theorem polled_events (machine after : Machine) (events : List (EventId × Option Microevent))
    (status : EventStatus) (polled : Polled { machine with events := events } status after) :
    after.events = events ∧ Polled machine status { after with events := machine.events } := by
  cases polled with
  | forgotten clock pool idle stillIdle => exact ⟨rfl, .forgotten clock pool idle stillIdle⟩
  | waiting clock pool same busy => exact ⟨rfl, .waiting clock pool same busy⟩
  | ended clock pool jobs nonempty split => exact ⟨rfl, .ended clock pool jobs nonempty split⟩

theorem set_twice (id : EventId) (event : Option Microevent) (events : List (EventId × Option Microevent))
    (distinct : (events.map Prod.fst).Nodup) (known : (id, event) ∈ events) :
    (events.map fun entry => if entry.1 = id then (id, none) else entry).map
      (fun entry => if entry.1 = id then (id, event) else entry) = events := by
  rw [List.map_map]
  conv_rhs => rw [← List.map_id events]
  refine List.map_congr_left fun entry member => ?_
  by_cases same : entry.1 = id
  · have here : entry = (id, event) := List.inj_on_of_nodup_map distinct member known same
    simp [here]
  · simp [same]

theorem set_removed (id : EventId) (events : List (EventId × Option Microevent)) :
    (events.map fun entry => if entry.1 = id then (id, none) else entry).filter (fun entry => entry.1 ≠ id) =
      events.filter fun entry => entry.1 ≠ id := by
  induction events with
  | nil => rfl
  | cons entry rest ih =>
    rw [List.map_cons, List.filter_cons, List.filter_cons, ih]
    by_cases same : entry.1 = id <;> simp [same]

theorem service_pool_done (engine : Engine) (id : EventId) (machine : Machine)
    (distinct : (machine.events.map Prod.fst).Nodup) (known : (id, some .pollPool) ∈ machine.events) :
    ∃ status polled, engine.serviceEvent id .pollPool machine = .done status { polled with
        events := if status = .done then machine.events.filter fun entry => entry.1 ≠ id else machine.events } ∧
      Polled machine status polled ∧ polled.events = machine.events := by
  obtain ⟨status, after, done, polled⟩ := poll_pool_done { machine with
    events := machine.events.map fun entry => if entry.1 = id then (id, none) else entry }
  obtain ⟨sameEvents, polledHere⟩ := polled_events machine after _ status polled
  refine ⟨status, _, ?_, polledHere, rfl⟩
  have attempted : (engine.runEvent .pollPool).attempt { machine with
      events := machine.events.map fun entry => if entry.1 = id then (id, none) else entry } = .done (.ok status) after := by
    simp only [Engine.runEvent, attempt, done]
  have taken : setEvent id none machine = .done () { machine with
      events := machine.events.map fun entry => if entry.1 = id then (id, none) else entry } := rfl
  unfold Engine.serviceEvent
  rw [bind_done _ _ _ _ () taken, bind_done _ _ _ _ (.ok status) attempted]
  have back := set_twice id (some .pollPool) machine.events distinct known
  cases status with
  | done =>
    show Outcome.done _ { after with events := after.events.filter fun entry => entry.1 ≠ id } = _
    rw [sameEvents, set_removed]
    rfl
  | idle | busy | progress =>
    show Outcome.done _ { after with
      events := after.events.map fun entry => if entry.1 = id then (id, some .pollPool) else entry } = _
    rw [sameEvents, back]
    rfl

theorem service_poll_done (engine : Engine) (id : EventId) (machine : Machine)
    (only : machine.events = [(id, some .pollPool)]) :
    ∃ status polled, engine.serviceEvent id .pollPool machine =
        .done status { polled with events := if status = .done then [] else machine.events } ∧
      Polled machine status polled ∧ polled.events = machine.events := by
  obtain ⟨status, polled, done, polledHere, same⟩ :=
    service_pool_done engine id machine (by simp [only]) (by simp [only])
  refine ⟨status, polled, ?_, polledHere, same⟩
  rw [done, show machine.events.filter (fun entry => entry.1 ≠ id) = [] by simp [only]]

theorem submitted_jobs (machine : Machine) (task : TaskId) (outcome : Option Scalar) (duration : Nat) :
    ∃ due, ((machine.pool.getD (.ofWorkers machine.config.workers)).submit machine.clock task outcome
      duration).jobs = machine.jobs ++ [⟨task, outcome, due⟩] := by
  cases content : machine.pool with
  | none => exact ⟨_, by simp only [Pool.submit, Machine.jobs, content]; rfl⟩
  | some pool => exact ⟨_, by simp only [Pool.submit, Machine.jobs, content]; rfl⟩

theorem spawn_blocking_cases (outcome : Option Scalar) (milliseconds : Nat) (machine : Machine) :
    ∃ pool due, pool.jobs = machine.jobs ++ [⟨machine.tasks.create.1, outcome, due⟩] ∧
      ((∃ event, machine.poolEvent = some event ∧ spawnBlocking outcome milliseconds machine =
          .done (machine.classes.promise machine.tasks.create.1)
            { machine with tasks := machine.tasks.create.2, pool := some pool }) ∨
        machine.poolEvent = none ∧ spawnBlocking outcome milliseconds machine =
          .done (machine.classes.promise machine.tasks.create.1) { machine with
            tasks := machine.tasks.create.2
            pool := some pool
            eventCount := machine.eventCount + 1
            events := machine.events ++ [(⟨machine.eventCount + 1⟩, some .pollPool)]
            poolEvent := some ⟨machine.eventCount + 1⟩ }) := by
  let pool := machine.pool.getD (.ofWorkers machine.config.workers)
  obtain ⟨due, queued⟩ := submitted_jobs machine machine.tasks.create.1 outcome
    (1000 * milliseconds + machine.config.latency pool.submitted)
  refine ⟨_, due, queued, ?_⟩
  cases polled : machine.poolEvent with
  | some event =>
    refine .inl ⟨event, rfl, ?_⟩
    simp [spawnBlocking, Bind.bind, bind, createTask, modify, read, polled, promise, pool]
  | none =>
    refine .inr ⟨rfl, ?_⟩
    simp [spawnBlocking, Bind.bind, bind, createTask, modify, read, polled, registerEvent, promise, pool]

theorem spawn_blocking_done (outcome : Option Scalar) (milliseconds : Nat) (promise : Value)
    (machine after : Machine)
    (spawned : spawnBlocking outcome milliseconds machine = .done promise after) :
    ∃ pool due events eventCount event, promise = machine.classes.promise machine.tasks.create.1 ∧
      after = { machine with
        tasks := machine.tasks.create.2
        pool := some pool
        events := events
        eventCount := eventCount
        poolEvent := some event } ∧
      pool.jobs = machine.jobs ++ [⟨machine.tasks.create.1, outcome, due⟩] ∧
      (machine.poolEvent = some event ∧ events = machine.events ∨
        machine.poolEvent = none ∧ events = machine.events ++ [(event, some .pollPool)]) := by
  obtain ⟨pool, due, queued, ⟨event, asked, done⟩ | ⟨unasked, done⟩⟩ :=
    spawn_blocking_cases outcome milliseconds machine
  · cases done.symm.trans spawned
    exact ⟨pool, due, machine.events, machine.eventCount, event, rfl, by rw [asked], queued, .inl ⟨asked, rfl⟩⟩
  · cases done.symm.trans spawned
    exact ⟨pool, due, _, _, _, rfl, rfl, queued, .inr ⟨unasked, rfl⟩⟩

theorem spawn_blocking_total (outcome : Option Scalar) (milliseconds : Nat) (machine : Machine) :
    ∃ promise after, spawnBlocking outcome milliseconds machine = .done promise after := by
  obtain ⟨_, _, _, ⟨_, _, done⟩ | ⟨_, done⟩⟩ := spawn_blocking_cases outcome milliseconds machine
  · exact ⟨_, _, done⟩
  · exact ⟨_, _, done⟩

end Exec

end CoopScript
