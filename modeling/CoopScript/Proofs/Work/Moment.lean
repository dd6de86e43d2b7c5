import CoopScript.Proofs.Work.Course
import CoopScript.Proofs.Work.Tidy

set_option autoImplicit false
namespace CoopScript

def Microtask.settler? : Microtask → Option (TaskId × Settler)
  | .asyncBody task name lines frame => some (task, .waiting name lines frame)
  | .settle task outcome => some (task, .ended (some outcome))
  | .panicked task => some (task, .ended none)
  | .host _ => none

def Job.settler (job : Job) : TaskId × Settler := (job.task, .working job.outcome)

def Job.ended (job : Job) : TaskId × Settler := (job.task, .ended job.outcome)

theorem Job.ended_queued (jobs : List Job) :
    (jobs.map Job.microtask).filterMap Microtask.settler? = jobs.map Job.ended := by
  rw [List.filterMap_map]
  refine List.filterMap_eq_map_iff_forall_eq_some.mpr fun job _ => ?_
  obtain ⟨task, outcome, due⟩ := job
  cases outcome <;> rfl

namespace Machine

def queued (machine : Machine) : List (TaskId × Settler) := machine.microtasks.filterMap Microtask.settler?

def settlers (machine : Machine) : List (TaskId × Settler) := machine.queued ++ machine.jobs.map Job.settler

-- Tasks, and what is going to settle them, are as they were.
structure Unmoved (machine after : Machine) : Prop where
  tasks : after.tasks = machine.tasks
  queued : after.queued = machine.queued
  jobs : after.jobs = machine.jobs

-- A body has been taken out of the queue and is about to be run.
def entered (machine : Machine) (rest : List Microtask) (frame : FrameId) : Machine :=
  { machine with microtasks := rest, asyncFrames := machine.asyncFrames.filter (· ≠ frame) }

theorem queued_next (machine : Machine) (microtask : Microtask) (rest : List Microtask) (entry : TaskId × Settler)
    (next : machine.microtasks = microtask :: rest) (settles : microtask.settler? = some entry) :
    machine.queued = entry :: rest.filterMap Microtask.settler? := by
  rw [queued, next, List.filterMap_cons_some settles]

end Machine

/-- A machine at work, with the bodies in progress, the innermost first, and the log of what became of its tasks. -/
structure Moment where
  bodies : List Activation
  log : List Mark
  machine : Machine

def Activation.settler (body : Activation) : TaskId × Settler := (body.task, .running body)

namespace Moment

def settlers (moment : Moment) : List (TaskId × Settler) :=
  moment.machine.settlers ++ moment.bodies.map Activation.settler

def Ordered (moment : Moment) : Prop := OnCourse moment.log moment.machine.tasks moment.settlers

-- All tasks are on their courses, on a tidy machine.
structure Fine (moment : Moment) : Prop where
  course : moment.Ordered
  tidy : moment.machine.Tidy

theorem start_fine (config : Config) : (Moment.mk [] [] (Machine.start config)).Fine := by
  refine ⟨fun task => ?_, Machine.start_tidy config⟩
  rw [show (Moment.mk [] [] (Machine.start config)).machine.tasks.state? task = none from TaskTable.state_empty task]
  exact .unmade

section Courses
variable (bodies : List Activation) (log : List Mark) (machine after : Machine)
  (course : Ordered ⟨bodies, log, machine⟩)
include course

theorem unmoved_ordered (unmoved : machine.Unmoved after) : Ordered ⟨bodies, log, after⟩ := by
  simp only [Ordered, Moment.settlers, Machine.settlers, unmoved.tasks, unmoved.queued, unmoved.jobs]
  exact course

theorem created_ordered : Ordered
    ⟨bodies, log ++ [.made machine.tasks.create.1 .bare], { machine with tasks := machine.tasks.create.2 }⟩ :=
  course.created log machine.tasks _ _ [] .bare (.inl ⟨rfl, rfl⟩) (.refl _)

theorem called_ordered (name : String) (lines : List Node) (frame : FrameId) (frames : Arena) (asyncFrames : List FrameId) :
    Ordered ⟨bodies, log ++ [.made machine.tasks.create.1 (.called name lines frame)], { machine with
      tasks := machine.tasks.create.2
      frames := frames
      asyncFrames := asyncFrames
      microtasks := machine.microtasks ++ [.asyncBody machine.tasks.create.1 name lines frame] }⟩ := by
  refine course.created log machine.tasks _ _ [.waiting name lines frame] _ (.inr ⟨_, rfl, rfl⟩) ?_
  simp only [Moment.settlers, Machine.settlers, Machine.queued, List.filterMap_append, List.append_assoc]
  exact List.perm_middle

theorem submitted_ordered (outcome : Option Scalar) (milliseconds : Nat) (promise : Value)
    (submitted : Exec.spawnBlocking outcome milliseconds machine = .done promise after) :
    Ordered ⟨bodies, log ++ [.made machine.tasks.create.1 (.submitted outcome)], after⟩ := by
  obtain ⟨pool, due, events, eventCount, event, _, rfl, queued, _⟩ :=
    Exec.spawn_blocking_done outcome milliseconds promise machine after submitted
  have jobs : Machine.jobs { machine with
      tasks := machine.tasks.create.2
      pool := some pool
      events := events
      eventCount := eventCount
      poolEvent := some event } = machine.jobs ++ [⟨machine.tasks.create.1, outcome, due⟩] := queued
  refine course.created log machine.tasks _ _ [.working outcome] _ (.inr ⟨_, rfl, rfl⟩) ?_
  simp only [Moment.settlers, Machine.settlers, jobs, List.map_append, List.append_assoc]
  exact (List.perm_middle.append_left _).trans List.perm_middle

theorem entered_ordered (body : Activation) (rest : List Microtask)
    (next : machine.microtasks = .asyncBody body.task body.name body.lines body.frame :: rest) :
    Ordered ⟨body :: bodies, log, machine.entered rest body.frame⟩ := by
  have first := machine.queued_next _ rest _ next rfl
  refine course.passed log machine.tasks _ (rest.filterMap Microtask.settler? ++ machine.jobs.map Job.settler ++
    bodies.map Activation.settler) _ body.task (.waiting body.name body.lines body.frame) (.running body) ?_
    List.perm_middle fun making suits => ⟨rfl, suits⟩
  simp only [Moment.settlers, Machine.settlers, first]
  exact .refl _

theorem produced_ordered (task : TaskId) (outcome : Scalar) (rest : List Microtask)
    (next : machine.microtasks = .settle task outcome :: rest)
    (settled : Exec.settleTask task (machine.classes.scalar outcome) { machine with microtasks := rest } = .done () after) :
    Ordered ⟨bodies, log ++ [.settled task (machine.classes.scalar outcome) (.produced outcome)], after⟩ := by
  obtain ⟨tasks, done, rfl⟩ := Exec.settle_task_done task _ _ after settled
  have first := machine.queued_next _ rest _ next rfl
  refine course.settled log machine.tasks tasks _ _ task (.ended (some outcome)) ?_ _ _ done
    fun making suits => ⟨suits, machine.classes, rfl⟩
  simp only [Moment.settlers, Machine.settlers, first]
  exact .refl _

theorem panicked_ordered (task : TaskId) (rest : List Microtask) (next : machine.microtasks = .panicked task :: rest) :
    Ordered ⟨bodies, log ++ [.dropped task .panicked], { machine with microtasks := rest }⟩ := by
  have first := machine.queued_next _ rest _ next rfl
  refine course.dropped log machine.tasks _ _ task (.ended none) ?_ .panicked fun making suits => suits
  simp only [Moment.settlers, Machine.settlers, first]
  exact .refl _

theorem taken_ordered (task : TaskId) (value : Value) (taken : Exec.consumeTask task machine = .done (some value) after) :
    Ordered ⟨bodies, log ++ [.taken task value], after⟩ := by
  obtain ⟨tasks, done, rfl⟩ := Exec.consume_task_done task (some value) machine after taken
  exact course.taken log machine.tasks tasks _ task value done

-- Jobs that have ended, one after the other.
omit course in
theorem ended_ordered (tasks : TaskTable) (settlers rest : List (TaskId × Settler)) (jobs : List Job)
    (course : OnCourse log tasks settlers) (perm : settlers.Perm (jobs.map Job.settler ++ rest)) :
    OnCourse log tasks (jobs.map Job.ended ++ rest) := by
  induction jobs generalizing settlers rest with
  | nil => exact course.reordered log tasks settlers _ perm.symm
  | cons job jobs ih =>
    have others := ih settlers (job.settler :: rest) course (perm.trans List.perm_middle.symm)
    exact others.passed log tasks _ (jobs.map Job.ended ++ rest) _ job.task (.working job.outcome) (.ended job.outcome)
      List.perm_middle (.refl _) fun _ suits => suits

theorem polled_ordered (polled : Machine) (status : EventStatus) (events : List (EventId × Option Microevent))
    (asked : Exec.Polled machine status polled) : Ordered ⟨bodies, log, { polled with events := events }⟩ := by
  cases asked with
  | forgotten clock pool idle stillIdle =>
    have jobs : Machine.jobs { machine with clock := clock, pool := pool, poolEvent := none, events := events } =
        machine.jobs := by
      rw [idle]
      cases content : pool with
      | none => simp [Machine.jobs]
      | some pool => exact stillIdle pool content
    exact unmoved_ordered bodies log machine _ course ⟨rfl, rfl, jobs⟩
  | waiting clock pool same busy =>
    exact course.reordered log machine.tasks _ _ (((same.map _).append_left _).append_right _)
  | ended clock pool jobs nonempty split =>
    -- The jobs that have ended go from the pool to the microtasks, each with its task.
    have listed : (Moment.settlers ⟨bodies, log, machine⟩).Perm (jobs.map Job.settler ++
        (machine.queued ++ pool.jobs.map Job.settler ++ bodies.map Activation.settler)) := by
      have parted := (split.map Job.settler).symm
      rw [List.map_append] at parted
      refine ((parted.append_left _).append_right _).trans ?_
      simp only [List.append_assoc]
      exact List.perm_append_comm_assoc ..
    have moved := ended_ordered log machine.tasks _ _ jobs course listed
    refine moved.reordered log machine.tasks _ _ ?_
    simp only [Moment.settlers, Machine.settlers, Machine.queued, List.filterMap_append, Job.ended_queued,
      List.append_assoc]
    exact List.perm_append_comm_assoc ..

def dropped (machine : Machine) : List Mark := machine.queued.map fun entry => .dropped entry.1 .cleared

theorem cleared_ordered (unmoved : Machine.Unmoved { machine with ready := [], microtasks := [] } after) :
    Ordered ⟨bodies, log ++ dropped machine, after⟩ := by
  refine unmoved_ordered bodies _ _ after ?_ unmoved
  refine course.cleared log machine.tasks _ _ machine.queued ?_ fun entry member making suits => ?_
  · simp only [Moment.settlers, Machine.settlers, List.append_assoc]
    exact .refl _
  · obtain ⟨microtask, _, same⟩ := List.mem_filterMap.mp member
    cases microtask <;> cases same <;> rintro rfl <;> cases suits

end Courses

section Bodies
variable (bodies : List Activation) (log : List Mark) (body : Activation) (machine after : Machine)
  (course : Ordered ⟨body :: bodies, log, machine⟩)
include course

theorem returned_ordered (fuel : Nat) (value : Value) (middle : Machine)
    (ran : (RuleSet.standard.engine fuel).runFrame body.name body.lines body.frame body.begun = .done value machine)
    (released : Exec.releaseFrame body.frame machine = .done () middle)
    (settled : Exec.settleTask body.task value middle = .done () after) :
    Ordered ⟨bodies, log ++ [.settled body.task value (.returned body)], after⟩ := by
  obtain ⟨frames, _, rfl⟩ := Exec.release_frame_done body.frame machine middle released
  obtain ⟨tasks, done, rfl⟩ := Exec.settle_task_done body.task value _ after settled
  exact course.settled log machine.tasks tasks _ _ body.task (.running body) List.perm_middle value (.returned body) done
    fun making suits => ⟨suits.1, suits.2, fuel, machine, ran⟩

theorem broken_ordered (unmoved : machine.Unmoved after) :
    Ordered ⟨bodies, log ++ [.dropped body.task .broken], after⟩ := by
  refine unmoved_ordered bodies _ machine after ?_ unmoved
  exact course.dropped log machine.tasks _ _ body.task (.running body) List.perm_middle .broken
    fun making suits => ⟨_, _, _, suits.2⟩

end Bodies

end Moment

end CoopScript
