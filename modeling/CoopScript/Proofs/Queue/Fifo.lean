import CoopScript.Proofs.Queue.Log
import CoopScript.Proofs.Trait.Host

set_option autoImplicit false
namespace CoopScript

namespace Exec
variable {α β : Type}

def OrderlyOn (step : Exec α) (machine : Machine) : Prop :=
  ∀ after, (step machine).Leaves after → ∃ log, step.Logs machine log

def Orderly (step : Exec α) : Prop := ∀ machine, step.OrderlyOn machine

section Combinators
variable {step : Exec α}

theorem orderly_quiet (quiet : step.Quiet) : step.Orderly := fun machine _ _ => ⟨[], .quiet step machine quiet⟩

theorem orderly_on_bind (next : α → Exec β) (machine : Machine) (first : step.OrderlyOn machine)
    (later : ∀ value middle, step machine = .done value middle → (next value).OrderlyOn middle) :
    (step >>= next).OrderlyOn machine := by
  intro after left
  cases ran : step machine with
  | done value middle =>
    rw [bind_done step next _ _ value ran] at left
    obtain ⟨log, firstLogs⟩ := first middle (.inl ⟨value, ran⟩)
    obtain ⟨more, laterLogs⟩ := later value middle ran after left
    exact ⟨log ++ more, .done step next machine middle value log more ran firstLogs laterLogs⟩
  | failed failure middle =>
    obtain ⟨log, firstLogs⟩ := first middle (.inr ⟨failure, ran⟩)
    exact ⟨log, .failed step next machine middle failure log ran firstLogs⟩
  | outOfFuel =>
    rw [bind_exhausted step next _ ran] at left
    exact absurd left (Outcome.exhausted_leaves after)

theorem orderly_bind (next : α → Exec β) (first : step.Orderly) (later : ∀ value, (next value).Orderly) :
    (step >>= next).Orderly := fun machine =>
  orderly_on_bind next machine (first machine) fun value middle _ => later value middle

theorem orderly_attempt (orderly : step.Orderly) : step.attempt.Orderly := fun machine after left =>
  (orderly machine after (leaves_attempt step machine after left)).imp fun log => .attempt step machine log

theorem orderly_map_failure (change : Failure → Failure) (orderly : step.Orderly) : (step.mapFailure change).Orderly :=
  fun machine after left =>
    (orderly machine after (leaves_map_failure step machine after change left)).imp fun log =>
      .mapFailure change step machine log

theorem orderly_small (small : step.Small) : step.Orderly :=
  orderly_quiet fun machine after left =>
    have intact := small_leaves small machine after left
    ⟨intact.microtasks, intact.tasks⟩

-- A step that leaves behind the machine that it is given.
theorem orderly_still (still : ∀ machine after, (step machine).Leaves after → after = machine) : step.Orderly :=
  orderly_quiet fun machine after left => still machine after left ▸ ⟨rfl, Nat.le_refl _⟩

theorem orderly_raise (failure : Failure) : (raise failure : Exec α).Orderly :=
  orderly_still fun machine after left => (Outcome.failed_leaves failure machine after).mp left

theorem orderly_modify (change : Machine → Machine) (waiting : ∀ machine : Machine, machine.Waiting (change machine)) :
    (modify change).Orderly :=
  orderly_quiet fun machine after left => (Outcome.done_leaves () (change machine) after).mp left ▸ waiting machine

theorem orderly_blind : Blind Exec.Orderly where
  small := orderly_small
  bind := orderly_bind
  raise := orderly_raise
  attempt := orderly_attempt
  mapFailure := orderly_map_failure

end Combinators

section Work

theorem orderly_enqueue (task : Microtask) (other : task.call? = none) : (enqueueMicrotask task).Orderly :=
  fun machine _ _ => ⟨[.joined task], .enqueue task machine other⟩

theorem orderly_register_event (event : Microevent) : (registerEvent event).Orderly :=
  orderly_quiet fun _ after left => (Outcome.done_leaves _ _ after).mp left ▸ ⟨rfl, Nat.le_refl _⟩

theorem orderly_remove_event (id : EventId) : (removeEvent id).Orderly :=
  orderly_quiet fun _ after left => (Outcome.done_leaves _ _ after).mp left ▸ ⟨rfl, Nat.le_refl _⟩

theorem orderly_spawn_async (name : String) (lines : List Node) (arguments : Bindings) (caller : FrameId) :
    (spawnAsync name lines arguments caller).Orderly := by
  intro machine after left
  rcases spawn_async_cases name lines arguments caller machine with ⟨frame, frames, pushed, _⟩ | ⟨cause, refused, _⟩
  · exact ⟨_, .call name lines arguments caller frame frames machine pushed⟩
  · have created : createTask machine = .done machine.tasks.create.1 { machine with tasks := machine.tasks.create.2 } := rfl
    have stuck : pushFrame caller true arguments { machine with tasks := machine.tasks.create.2 } =
        .failed (.of cause) { machine with tasks := machine.tasks.create.2 } := by
      simp only [pushFrame, changeFrames, refused]
    obtain ⟨log, makes⟩ := orderly_small small_create_task machine _ (.inl ⟨_, created⟩)
    obtain ⟨more, pushes⟩ := orderly_small (small_change (·.push caller true arguments)) _ _ (.inr ⟨_, stuck⟩)
    exact ⟨log ++ more, .done _ _ machine _ _ log more created makes (.failed _ _ _ _ _ more stuck pushes)⟩

end Work

end Exec

namespace Engine
variable (engine : Engine) (microtasks : ∀ task, (engine.runMicrotask task).Orderly)
include microtasks

theorem orderly_begin (report : TickReport) (task : Microtask) (rest : List Microtask) (machine : Machine)
    (next : machine.microtasks = task :: rest) : (engine.begin report task rest).OrderlyOn machine := by
  intro after left
  have ran := engine.begin_leaves report task rest machine after left
  obtain ⟨log, runs⟩ := microtasks task { machine with microtasks := rest } after ran
  exact ⟨.begun task :: log, .begin engine report task rest machine log next runs⟩

theorem orderly_drain_step (report : TickReport) : (engine.drainStep report).Orderly := by
  intro machine
  have reads : ∀ {α : Type} (view : Machine → α), (Exec.read view).Orderly := Exec.orderly_blind.reads
  refine Exec.orderly_on_bind _ machine (reads _ machine) fun queue middle seen => ?_
  cases seen
  simp only
  cases next : machine.microtasks with
  | nil => exact reads _ machine
  | cons task rest => exact engine.orderly_begin microtasks report task rest machine next

end Engine

def Trait.orderly : Trait :=
  have modify := @Exec.orderly_modify
  .ofBlind Exec.Orderly Exec.orderly_blind Exec.orderly_enqueue Exec.orderly_spawn_async Engine.orderly_drain_step
    (fun machine _ _ => ⟨[.cleared], .clear machine⟩) Exec.orderly_register_event Exec.orderly_remove_event
    (Exec.orderly_blind.serve (fun _ _ => modify _ fun _ => ⟨rfl, Nat.le_refl _⟩) Exec.orderly_remove_event)
    (modify _ fun _ => ⟨rfl, Nat.le_refl _⟩)

theorem RuleSet.customised_orderly (extensions : List String) (lexRules : List LexRule) :
    (customised extensions lexRules).Has .orderly := customised_has _ extensions lexRules

theorem Request.orderly_under (rules : RuleSet) (orderly : rules.Has .orderly) (fuel : Nat) (request : Request) :
    (request.under rules fuel).Orderly := request.under_has _ rules orderly fuel

/-- What has become of a machine since it was started, by one request after the other, and what they have done to the queue
of microtasks. The rules may be changed from request to request. -/
inductive Recorded (config : Config) : List Movement → Machine → Prop where
  | start : Recorded config [] (Machine.start config)
  | request (log more : List Movement) (machine after : Machine) (recorded : Recorded config log machine)
      (rules : RuleSet) (fuel : Nat) (request : Request) (logs : (request.under rules fuel).Logs machine more)
      (left : (request.under rules fuel machine).Leaves after) : Recorded config (log ++ more) after

/-- The queue is what has joined it and has not been begun. Bodies are begun in the order of their calls, none of them
before another one that was called earlier, and none twice. -/
structure Fifo (log : List Movement) (queue : List Microtask) : Prop where
  whole : Movement.uncleared log = true → Movement.allBegun log ++ queue = Movement.allJoined log
  recent : Movement.allBegun (Movement.recent log) ++ queue = Movement.allJoined (Movement.recent log)
  called : (Microtask.calls (Movement.allJoined log)).Pairwise (· < ·)
  once : (Microtask.calls (Movement.allBegun log)).Pairwise (· < ·)
  none_skipped : Microtask.calls (Movement.allBegun (Movement.recent log)) <+:
    Microtask.calls (Movement.allJoined (Movement.recent log))

theorem Recorded.tally (config : Config) (log : List Movement) (machine : Machine) (recorded : Recorded config log machine) :
    Tally (Machine.start config) log machine := by
  induction recorded with
  | start => exact .none _ _ rfl (Nat.le_refl _)
  | request log more machine after _ rules fuel request logs left ih =>
    exact ih.trans _ machine after log more (Exec.logs_tally _ machine after more logs left)

theorem Tally.fifo (config : Config) (log : List Movement) (machine : Machine)
    (tally : Tally (Machine.start config) log machine) : Fifo log machine.microtasks := by
  have recent := Movement.moves_fifo _ _ log tally.moves
  rw [show (Machine.start config).microtasks = [] from rfl, ite_self, List.nil_append] at recent
  have begun := Movement.moves_once _ _ log tally.moves
  refine ⟨fun kept => ?_, recent, tally.ascending, ?_, ?_⟩
  · rwa [Movement.recent_uncleared log kept] at recent
  · exact tally.ascending.sublist (begun.filterMap Microtask.call?)
  · exact ⟨Microtask.calls machine.microtasks, by simp only [← recent, Microtask.calls, List.filterMap_append]⟩

end CoopScript
