import CoopScript.Interpreter
import CoopScript.Proofs.Lens.Call

set_option autoImplicit false
namespace CoopScript

namespace Exec
variable {lens : Lens} {given : Option Bound → Prop}

theorem through_microtasks : (read (·.microtasks)).Through lens given (read (·.microtasks)) (List.map lens.microtask)
    fun bound tasks => tasks ≠ [] → bound = none ∧ ∀ task ∈ tasks, ∀ actions, task ≠ .host actions := by
  refine through_read _ _ (fun _ _ _ _ _ _ => rfl) fun bound machine _ fit waiting => ?_
  cases bound with
  | none => exact ⟨rfl, fit.suits.2.1⟩
  | some few => exact absurd fit.suits.2.1 waiting

theorem through_set_microtasks (tasks : List Microtask)
    (fine : ∀ bound, given bound → bound = none ∧ ∀ task ∈ tasks, ∀ actions, task ≠ .host actions) :
    (modify fun machine => { machine with microtasks := tasks }).Through lens given
      (modify fun machine => { machine with microtasks := tasks.map lens.microtask }) id fun _ _ => True := by
  refine through_modify _ _ (fun _ _ _ _ _ _ => ⟨rfl, rfl⟩) (fun bound machine plain fit => ?_) (fun _ => rfl)
    fun _ _ => rfl
  obtain ⟨rfl, scripted⟩ := fine bound plain
  exact ⟨fit.classes, fit.frames, fit.tasks, fit.suits.1, scripted, fit.suits.2.2⟩

theorem through_drop_work (all : ∀ bound, given bound → bound = none) (alone : ¬ lens.Inside) :
    (modify fun machine => { machine with ready := [], microtasks := [] }).Through lens given
      (modify fun machine => { machine with ready := [], microtasks := [] }) id fun _ _ => True := by
  refine through_modify _ _ (fun _ _ _ _ _ _ => ⟨rfl, rfl⟩) (fun bound machine plain fit => ?_) (fun _ => rfl)
    fun inside => absurd inside alone
  obtain rfl := all bound plain
  exact ⟨fit.classes, fit.frames, fit.tasks, fit.suits.1, fun _ listed => (by cases listed), fit.suits.2.2⟩

theorem through_set_events (change : Machine → Machine) (all : ∀ bound, given bound → bound = none)
    (natural : ∀ (machine : Machine) (early late : Nat), change (machine.pass early) = (change machine).pass early ∧
      change ((lens.machine machine).pass late) = (lens.machine (change machine)).pass late)
    (aside : ∀ machine : Machine, (change machine).classes = machine.classes ∧ (change machine).frames = machine.frames ∧
      (change machine).tasks = machine.tasks ∧ (change machine).microtasks = machine.microtasks ∧
      (lens.Inside → (change machine).ready = machine.ready))
    (fine : ∀ machine : Machine, (∀ entry ∈ machine.events, ∀ turns next, entry.2 ≠ some (.host turns next)) →
      ∀ entry ∈ (change machine).events, ∀ turns next, entry.2 ≠ some (.host turns next)) :
    (modify change).Through lens given (modify change) id fun _ _ => True := by
  refine through_modify _ _ (fun machine early late _ _ _ => natural machine early late) (fun bound machine plain fit => ?_)
    (fun machine => (aside machine).2.2.1) fun inside machine => (aside machine).2.2.2.2 inside
  obtain rfl := all bound plain
  obtain ⟨classes, frames, tasks, microtasks, _⟩ := aside machine
  exact ⟨classes ▸ fit.classes, frames ▸ fit.frames, tasks ▸ fit.tasks, classes ▸ fit.suits.1,
    microtasks ▸ fit.suits.2.1, fine machine fit.suits.2.2⟩

theorem through_set_event (key : EventId) (event : Option Microevent) (all : ∀ bound, given bound → bound = none)
    (scripted : ∀ turns next, event ≠ some (.host turns next)) :
    (setEvent key event).Through lens given (setEvent key event) id fun _ _ => True := by
  refine through_set_events _ all (fun _ _ _ => ⟨rfl, rfl⟩) (fun _ => ⟨rfl, rfl, rfl, rfl, fun _ => rfl⟩) fun machine old entry listed => ?_
  obtain ⟨earlier, member, rfl⟩ := List.mem_map.mp listed
  split
  · exact scripted
  · exact old earlier member

theorem through_remove_event (key : EventId) (all : ∀ bound, given bound → bound = none) :
    (removeEvent key).Through lens given (removeEvent key) id fun _ _ => True := by
  refine through_natural _ _ (fun _ _ _ _ _ _ => ⟨rfl, rfl⟩) fun bound machine plain fit => ?_
  obtain rfl := all bound plain
  refine ⟨⟨fit.classes, fit.frames, fit.tasks, fit.suits.1, fit.suits.2.1, fun entry listed => ?_⟩,
    .same rfl fun _ => rfl, trivial⟩
  exact fit.suits.2.2 entry (List.mem_of_mem_filter listed)

theorem through_event (key : EventId) : (read (·.event? key)).Through lens given (read (·.event? key)) id
    fun _ found => ∀ turns next, found ≠ some (.host turns next) := by
  refine through_read _ _ (fun _ _ _ _ _ _ => rfl) fun bound machine _ fit turns next found => ?_
  unfold Machine.event? at found
  obtain ⟨entry, listed, event⟩ := Option.bind_eq_some_iff.mp found
  have member := List.mem_of_find?_eq_some listed
  cases bound with
  | none => exact fit.suits.2.2 entry member turns next event
  | some few =>
    rw [fit.suits.2.2.1] at member
    cases member

theorem through_forget_pool : forgetPool.Through lens given forgetPool id fun _ _ => True :=
  through_bind (through_aside _ _ (fun _ _ _ => ⟨rfl, rfl⟩) fun _ => ⟨rfl, rfl, rfl, rfl, rfl, rfl, fun _ => rfl⟩) fun _ =>
    through_pure _ _ rfl fun _ _ => trivial

theorem through_queue_job (job : Job) (all : ∀ bound, given bound → bound = none) :
    (enqueueMicrotask job.microtask).Through lens given (enqueueMicrotask job.microtask) id fun _ _ => True := by
  obtain ⟨task, outcome, due⟩ := job
  cases outcome with
  | none => exact through_enqueue_microtask (.panicked task) all fun _ same => by cases same
  | some value => exact through_enqueue_microtask (.settle task value) all fun _ same => by cases same

theorem through_queue_jobs (jobs : List Job) (all : ∀ bound, given bound → bound = none) :
    (each (fun job => enqueueMicrotask job.microtask) jobs).Through lens given
      (each (fun job => enqueueMicrotask job.microtask) jobs) id fun _ _ => True :=
  through_each_same _ _ jobs fun job _ => through_queue_job job all

theorem through_clock (all : given lens.bound → lens.bound = none) :
    (read (·.clock)).Through lens given (read (·.clock)) id fun _ _ => True := by
  refine through_read _ _ (fun machine early late fine shifts _ => ?_) fun _ _ _ _ => trivial
  obtain ⟨rfl, rfl⟩ := shifts (all fine)
  rfl

theorem through_poll_pool (all : ∀ bound, given bound → bound = none) :
    pollPool.Through lens given pollPool id fun _ _ => True := by
  refine through_bind (through_look (·.pool) fun _ _ _ => rfl) fun pool => ?_
  cases pool with
  | none => exact through_forget_pool
  | some pool =>
    refine through_bind (through_pass fun _ => Machine.pollTime) fun _ => ?_
    refine through_bind (through_clock fun both => all _ both.1.1) fun clock => ?_
    dsimp only [id]
    refine through_bind (through_aside _ _ (fun _ _ _ => ⟨rfl, rfl⟩) fun _ => ⟨rfl, rfl, rfl, rfl, rfl, rfl, fun _ => rfl⟩) fun _ => ?_
    split
    · split
      · exact through_forget_pool
      · exact through_pure _ _ rfl fun _ _ => trivial
    · exact through_bind (through_queue_jobs _ fun bound both => all bound both.1.1.1.1) fun _ =>
        through_pure _ _ rfl fun _ _ => trivial

end Exec

namespace Engine

def finishing (id : RunnerId) : Except Failure Unit → Exec Value
  | .error failure => do
    Exec.reset
    Exec.raise failure
  | .ok () => do
    match ← Exec.finishRunner id with
    | some value => return value
    | none => Exec.void

theorem eval_program_parts (engine : Engine) (lines : List Node) : engine.evalProgram lines =
    (Exec.clearHalt >>= fun _ => Exec.loadProgram lines Arena.root) >>= fun id => engine.run.attempt >>= finishing id := by
  rw [Exec.bind_assoc]
  unfold evalProgram
  refine congrArg _ (funext fun _ => congrArg _ (funext fun id => congrArg _ (funext fun outcome => ?_)))
  cases outcome <;> rfl

variable {lens : Lens} {given : Option Bound → Prop} {engine twin : Engine} (through : engine.Through lens twin)
include through

theorem run_async_body_through (task : TaskId) (name : String) (lines : List Node) (frame : FrameId)
    (all : ∀ bound, given bound → bound = none) :
    (engine.runAsyncBody task name lines frame).Through lens given (twin.runAsyncBody task name (lens.lines lines) frame) id
      fun _ _ => True := by
  refine Exec.through_bind (Exec.through_aside _ _ (fun _ _ _ => ⟨rfl, rfl⟩) fun _ => ⟨rfl, rfl, rfl, rfl, rfl, rfl, fun _ => rfl⟩) fun _ => ?_
  refine Exec.through_bind (Exec.through_attempt (run_frame_through through name lines frame)) fun outcome => ?_
  refine Exec.through_bind (Exec.through_release_frame frame) fun _ => ?_
  refine Exec.through_bind (Exec.through_of_outcome outcome fun bound both value same => both.1.2 value same) fun value => ?_
  exact Exec.through_settle_task task value (fun both => all _ both.1.1.1.1) fun bound both => both.2

theorem run_microtask_through (microtask : Microtask) (all : ∀ bound, given bound → bound = none)
    (scripted : ∀ bound, given bound → ∀ actions, microtask ≠ .host actions) :
    (engine.runMicrotask microtask).Through lens given (twin.runMicrotask (lens.microtask microtask)) id
      fun _ _ => True := by
  cases microtask with
  | asyncBody task name lines frame => exact run_async_body_through through task name lines frame all
  | settle task value =>
    refine Exec.through_bind (Exec.through_scalar value) fun result => ?_
    exact Exec.through_settle_task task result (fun both => all _ both.1) fun bound both => both.2
  | panicked task => exact Exec.through_fail _
  | host actions => exact Exec.through_never _ _ fun plain => scripted none plain actions rfl

theorem drain_step_through (report : TickReport) :
    (engine.drainStep report).Through lens given (twin.drainStep report) (Exec.seeRound id id) fun _ _ => True := by
  refine Exec.through_bind Exec.through_microtasks fun tasks => ?_
  cases tasks with
  | nil => exact Exec.through_pure _ _ rfl fun _ _ => trivial
  | cons task rest =>
    have waiting := fun bound (both : given bound ∧ (task :: rest ≠ [] → bound = none ∧
      ∀ other ∈ task :: rest, ∀ actions, other ≠ .host actions)) => both.2 (List.cons_ne_nil _ _)
    refine Exec.through_bind (Exec.through_set_microtasks rest fun bound both =>
      ⟨(waiting bound both).1, fun other listed => (waiting bound both).2 other (List.mem_cons_of_mem _ listed)⟩) fun _ => ?_
    refine Exec.through_bind (run_microtask_through through task (fun bound both => (waiting bound both.1).1)
      fun bound both => (waiting bound both.1).2 task List.mem_cons_self) fun _ => ?_
    refine Exec.through_bind Exec.through_is_halted fun halted => ?_
    dsimp only [id]
    split <;> exact Exec.through_pure _ _ rfl fun _ _ => trivial

theorem drain_microtasks_through (report : TickReport) :
    (engine.drainMicrotasks report).Through lens given (twin.drainMicrotasks report) id fun _ _ => True :=
  Exec.through_given (Exec.through_iterate engine.drainStep twin.drainStep id (fun _ _ => True)
    (fun report => Exec.through_weaken (drain_step_through through report) fun _ result _ _ => by cases result <;> trivial)
    engine.fuel twin.fuel through.fewer through.same report) fun _ plain => ⟨plain, trivial⟩

omit through in
theorem service_event_through (key : EventId) (event : Microevent) (all : ∀ bound, given bound → bound = none)
    (scripted : ∀ bound, given bound → ∀ turns next, event ≠ .host turns next) :
    (engine.serviceEvent key event).Through lens given (twin.serviceEvent key event) id fun _ _ => True := by
  cases event with
  | host turns next => exact Exec.through_never _ _ fun plain => scripted none plain turns next rfl
  | pollPool =>
    refine Exec.through_bind (Exec.through_set_event key none all fun _ _ same => by cases same) fun _ => ?_
    refine Exec.through_bind (Exec.through_attempt (Exec.through_poll_pool fun bound both => all bound both.1))
      fun outcome => ?_
    cases outcome with
    | error failure =>
      exact Exec.through_bind (Exec.through_set_event key _ (fun bound both => all bound both.1.1)
        fun _ _ same => by cases same) fun _ => Exec.through_raise failure _ rfl
    | ok status =>
      cases status with
      | done =>
        exact Exec.through_bind (Exec.through_remove_event key fun bound both => all bound both.1.1) fun _ =>
          Exec.through_pure _ _ rfl fun _ _ => trivial
      | progress | busy | idle =>
        exact Exec.through_bind (Exec.through_set_event key _ (fun bound both => all bound both.1.1)
          fun _ _ same => by cases same) fun _ => Exec.through_pure _ _ rfl fun _ _ => trivial

omit through in
theorem service_all_through (ids : List EventId) (report : TickReport)
    (all : ∀ bound, given bound → ids ≠ [] → bound = none) :
    (engine.serviceAll ids report).Through lens given (twin.serviceAll ids report) id fun _ _ => True := by
  induction ids generalizing report given with
  | nil => exact Exec.through_pure _ _ rfl fun _ _ => trivial
  | cons key rest ih =>
    have none := fun bound (plain : given bound) => all bound plain (List.cons_ne_nil _ _)
    refine Exec.through_bind (Exec.through_event key) fun event => ?_
    cases event with
    | none => exact ih report fun bound both _ => none bound both.1
    | some event =>
      refine Exec.through_bind (service_event_through key event (fun bound both => none bound both.1)
        fun _ both turns next same => both.2 turns next (congrArg some same)) fun status => ?_
      refine Exec.through_bind Exec.through_is_halted fun halted => ?_
      dsimp only [id]
      split
      · exact Exec.through_pure _ _ rfl fun _ _ => trivial
      · exact ih _ fun bound both _ => none bound both.1.1.1

omit through in
theorem service_events_through (report : TickReport) :
    (engine.serviceEvents report).Through lens given (twin.serviceEvents report) id fun _ _ => True := by
  have ids : (Exec.read fun machine => machine.events.map Prod.fst).Through lens given
      (Exec.read fun machine => machine.events.map Prod.fst) id fun bound ids => ids ≠ [] → bound = none := by
    refine Exec.through_read _ _ (fun _ _ _ _ _ _ => rfl) fun bound machine _ fit waiting => ?_
    cases bound with
    | none => rfl
    | some few => exact absurd (congrArg (List.map Prod.fst) fit.suits.2.2.1) waiting
  exact Exec.through_bind ids fun found => service_all_through found report fun _ both => both.2

theorem await_step_through (task : TaskId) (idle : Nat) (known : ∀ bound, given bound → task.Known bound) :
    (engine.awaitStep task idle).Through lens given (twin.awaitStep task idle) (Exec.seeRound id lens.value)
      fun bound => Sum.elim (fun _ => True) (Value.Fits bound) := by
  refine Exec.through_bind (Exec.through_consume_task task known) fun result => ?_
  cases result with
  | some value => exact Exec.through_pure _ _ rfl fun bound both => both.2 value rfl
  | none =>
    refine Exec.through_bind Exec.through_is_halted fun halted => ?_
    refine Exec.through_guard _ _ _ _ _ (Exec.through_fail _) ?_
    refine Exec.through_bind (drain_microtasks_through through .empty) fun drained => ?_
    refine Exec.through_bind (service_events_through drained) fun report => ?_
    refine Exec.through_guard _ _ _ _ _ Exec.through_wait ?_
    dsimp only [id]
    split
    · exact Exec.through_pure _ _ rfl fun _ _ => trivial
    · refine Exec.through_bind (Exec.through_look (·.config.idleLimit) fun _ _ _ => rfl) fun patience => ?_
      refine Exec.through_guard _ _ _ _ _ (Exec.through_fail _) ?_
      exact Exec.through_pure _ _ rfl fun _ _ => trivial

theorem await_through (task : TaskId) (known : ∀ bound, given bound → task.Known bound) :
    (engine.await task).Through lens given (twin.await task) lens.value Value.Fits :=
  Exec.through_given (Exec.through_iterate (engine.awaitStep task) (twin.awaitStep task) id (fun _ _ => True)
    (fun idle => await_step_through through task idle fun bound both => known bound both.1)
    engine.fuel twin.fuel through.fewer through.same 0) fun _ plain => ⟨plain, trivial⟩

/- Ready lines are run by the scheduler alone, for runners of all kinds; so nothing is left out of what is seen of them. -/
section Programs
variable (alone : lens.outer = [])
include alone

omit through in
theorem alone_outside : ¬ lens.Inside := fun inside => inside alone

omit through in
theorem alone_own (key : RunnerId) : lens.Own key := by
  intro entry listed
  rw [alone] at listed
  cases listed

theorem run_lines_through (report : TickReport) :
    (engine.runLines report).Through lens given (twin.runLines report) id fun _ _ => True := by
  refine Exec.through_given (Exec.through_iterate _ _ id (fun _ _ => True) (fun report => ?_) engine.fuel twin.fuel
    through.fewer through.same report) fun _ plain => ⟨plain, trivial⟩
  have ready : (Exec.read (·.ready)).Through lens (fun bound => given bound ∧ True) (Exec.read (·.ready))
      (List.map lens.line) fun _ _ => True := Exec.through_read _ _ (fun _ _ _ _ _ _ => rfl) fun _ _ _ _ => trivial
  refine Exec.through_bind ready fun lines => ?_
  cases lines with
  | nil => exact Exec.through_pure _ _ rfl fun _ _ => trivial
  | cons line rest =>
    refine Exec.through_bind Exec.through_is_halted fun halted => ?_
    dsimp only [id, List.map_cons]
    split
    · exact Exec.through_pure _ _ rfl fun _ _ => trivial
    · refine Exec.through_bind (Exec.through_aside _ _ (fun _ _ _ => ⟨rfl, rfl⟩) fun _ =>
        ⟨rfl, rfl, rfl, rfl, rfl, rfl, fun inside => absurd inside (alone_outside alone)⟩) fun _ => ?_
      refine Exec.through_bind (execute_line_through through line.node line.frame) fun value => ?_
      have own := alone_own alone line.runner
      refine Exec.through_bind (Exec.through_record line.runner (fun _ => own) value) fun _ => ?_
      refine Exec.through_bind (Exec.through_advance line.runner (fun _ => own) (alone_outside alone)) fun _ => ?_
      exact Exec.through_pure _ _ rfl fun _ _ => trivial

omit through alone in
theorem unless_halted_through (phase other : TickReport → Exec TickReport) (report : TickReport)
    (same : (phase report).Through lens given (other report) id fun _ _ => True) :
    (unlessHalted phase report).Through lens given (unlessHalted other report) id fun _ _ => True := by
  refine Exec.through_bind Exec.through_is_halted fun halted => ?_
  dsimp only [id]
  split
  · exact Exec.through_pure _ _ rfl fun _ _ => trivial
  · exact Exec.through_given same fun _ both => both.1

omit alone in
theorem later_tiers_through (report : TickReport) :
    (engine.laterTiers report).Through lens given (twin.laterTiers report) id fun _ _ => True := by
  refine Exec.through_bind (unless_halted_through _ _ report (drain_microtasks_through through report)) fun drained => ?_
  exact unless_halted_through _ _ drained (service_events_through drained)

theorem tick_through : engine.tick.Through lens given twin.tick id fun _ _ => True :=
  Exec.through_bind (run_lines_through through alone .empty) fun ran => later_tiers_through through ran

omit through alone in
theorem end_round_through (idle : Nat) (report : TickReport) :
    (endRound idle report).Through lens given (endRound idle report) (Exec.seeRound id id)
      fun _ => Sum.elim (fun _ => True) fun _ => True := by
  refine Exec.through_bind Exec.through_is_halted fun halted => ?_
  dsimp only [id]
  split
  · exact Exec.through_pure _ _ rfl fun _ _ => trivial
  · refine Exec.through_guard _ _ _ _ _ Exec.through_wait ?_
    split
    · exact Exec.through_pure _ _ rfl fun _ _ => trivial
    · refine Exec.through_bind (Exec.through_look (·.config.idleLimit) fun _ _ _ => rfl) fun patience => ?_
      dsimp only [id]
      split <;> exact Exec.through_pure _ _ rfl fun _ _ => trivial

theorem rounds_through (fuel more idle : Nat) (fewer : fuel ≤ more) (same : lens.exact → fuel = more) :
    (Exec.iterate engine.runStep fuel idle).Through lens given (Exec.iterate twin.runStep more idle) id fun _ _ => True :=
  Exec.through_given (Exec.through_iterate _ _ id (fun _ _ => True)
    (fun idle => Exec.through_bind (tick_through through alone) fun report => end_round_through idle report)
    fuel more fewer same idle) fun _ plain => ⟨plain, trivial⟩

theorem run_through : engine.run.Through lens given twin.run id fun _ _ => True :=
  rounds_through through alone engine.fuel twin.fuel 0 through.fewer through.same

theorem after_lines_through (fuel : Nat) (report : TickReport) :
    (engine.afterLines fuel report).Through lens given (twin.afterLines fuel report) id fun _ _ => True := by
  refine Exec.through_bind (later_tiers_through through report) fun report => ?_
  refine Exec.through_bind (end_round_through 0 report) fun result => ?_
  cases result with
  | inl idle => exact rounds_through through alone fuel fuel idle (Nat.le_refl _) fun _ => rfl
  | inr ended => exact Exec.through_pure _ _ rfl fun _ _ => trivial

omit through in
theorem reset_through (all : ∀ bound, given bound → bound = none) : Exec.reset.Through lens given Exec.reset id fun _ _ => True := by
  refine Exec.through_bind (Exec.through_drop_work all (alone_outside alone)) fun _ => ?_
  refine Exec.through_bind (Exec.through_look (·.asyncFrames) fun _ _ _ => rfl) fun frames => ?_
  refine Exec.through_bind (Exec.through_aside _ _ (fun _ _ _ => ⟨rfl, rfl⟩) fun _ => ⟨rfl, rfl, rfl, rfl, rfl, rfl, fun _ => rfl⟩) fun _ => ?_
  refine Exec.through_bind (Exec.through_each_same _ _ frames fun frame _ => Exec.through_release_frame frame) fun _ => ?_
  have keys {less : Option Bound → Prop} : (Exec.read fun machine => machine.runners.map Prod.fst).Through lens less
      (Exec.read fun machine => machine.runners.map Prod.fst) (List.map lens.shift) fun _ _ => True := by
    refine Exec.through_read _ _ (fun machine _ _ _ _ _ => ?_) fun _ _ _ _ => trivial
    simp [Lens.machine, Machine.pass, alone, Lens.entry]
  refine Exec.through_bind keys fun keys => ?_
  refine Exec.through_bind (Exec.through_each _ _ lens.shift keys fun key _ => ?_) fun _ => ?_
  · exact Exec.through_bind (Exec.through_finish_runner key fun _ => alone_own alone key) fun _ =>
      Exec.through_pure _ _ rfl fun _ _ => trivial
  · refine Exec.through_set_events _ (fun bound both => all bound both.1.1.1.1.1.1) (fun _ _ _ => ⟨rfl, rfl⟩)
      (fun _ => ⟨rfl, rfl, rfl, rfl, fun _ => rfl⟩) fun machine old entry listed => ?_
    exact old entry (List.mem_of_mem_filter listed)

omit through in
theorem finishing_through (key : RunnerId) (outcome : Except Failure Unit) (all : ∀ bound, given bound → bound = none) :
    (finishing key outcome).Through lens given (finishing (lens.shift key) (lens.outcome id outcome)) lens.value
      fun _ _ => True := by
  cases outcome with
  | error failure =>
    exact Exec.through_bind (reset_through alone all) fun _ => Exec.through_raise failure _ rfl
  | ok done =>
    refine Exec.through_bind (Exec.through_finish_runner key fun _ => alone_own alone key) fun last => ?_
    cases last with
    | none => exact Exec.through_weaken Exec.through_void fun _ _ _ _ => trivial
    | some value => exact Exec.through_pure value _ rfl fun _ _ => trivial

theorem eval_program_through (lines : List Node) (all : ∀ bound, given bound → bound = none) :
    (engine.evalProgram lines).Through lens given (twin.evalProgram (lens.lines lines)) lens.value fun _ _ => True := by
  rw [eval_program_parts, eval_program_parts]
  refine Exec.through_bind (Exec.through_bind Exec.through_clear_halt fun _ =>
    Exec.through_load_program lines Arena.root (alone_outside alone)) fun key => ?_
  refine Exec.through_bind (Exec.through_attempt (run_through through alone)) fun outcome => ?_
  exact finishing_through alone key outcome fun bound both => all bound both.1.1

end Programs

end Engine
end CoopScript
