import CoopScript.Proofs.Work.Session

set_option autoImplicit false
namespace CoopScript

-- A task waits, is given its value, and has it taken.
inductive TaskState.Moves : Option TaskState → Option TaskState → Prop where
  | made : Moves none (some .pending)
  | settled (value : Value) : Moves (some .pending) (some (.ready value))
  | taken (value : Value) : Moves (some (.ready value)) (some .consumed)

def TaskState.Leads : Option TaskState → Option TaskState → Prop := Relation.ReflTransGen TaskState.Moves

namespace TaskTable
variable (table after : TaskTable) (task other : TaskId) (value : Value)

theorem created_leads : TaskState.Leads (table.state? other) (table.create.2.state? other) := by
  rw [state_created]
  by_cases fresh : other = table.create.1
  · have unknown : table.state? other = none := by simp [fresh, state?, create]
    rw [unknown, if_pos fresh]
    exact .single .made
  · rw [if_neg fresh]
    exact .refl

theorem settled_leads (done : table.settle task value = .ok after) :
    TaskState.Leads (table.state? other) (after.state? other) := by
  obtain ⟨pending, states⟩ := settle_done table after task value done
  rw [states]
  by_cases same : other = task
  · rw [if_pos same, same, pending]
    exact .single (.settled value)
  · rw [if_neg same]
    exact .refl

theorem consumed_leads (done : table.consume task = .ok (some value, after)) :
    TaskState.Leads (table.state? other) (after.state? other) := by
  obtain ⟨ready, states⟩ := consume_done table after task value done
  rw [states]
  by_cases same : other = task
  · rw [if_pos same, same, ready]
    exact .single (.taken value)
  · rw [if_neg same]
    exact .refl

end TaskTable

theorem Exec.settle_task_leads (task other : TaskId) (value : Value) (machine after : Machine)
    (settled : settleTask task value machine = .done () after) :
    TaskState.Leads (machine.tasks.state? other) (after.tasks.state? other) := by
  obtain ⟨tasks, done, rfl⟩ := settle_task_done task value machine after settled
  exact machine.tasks.settled_leads tasks task other value done

namespace Moment
variable {α β : Type} (task : TaskId)

theorem marks_lead (step : Exec α) (machine after : Machine) (marks : List Mark) (made : step.Marks machine marks after)
    (bodies : List Activation) (log : List Mark) (fine : Fine ⟨bodies, log, machine⟩) :
    TaskState.Leads (machine.tasks.state? task) (after.tasks.state? task) := by
  induction made generalizing bodies log with
  | aside step machine after calm left =>
    rw [(calm machine after fine.tidy left).tasks]
    exact .refl
  | done step next machine middle after value marks more _ made _ first second =>
    exact (first bodies log fine).trans (second bodies _ (marks_fine step machine middle marks made bodies log fine))
  | failed _ _ _ _ _ _ _ _ ih | attempt _ _ _ _ _ ih | mapFailure _ _ _ _ _ _ ih => exact ih bodies log fine
  | create machine | refused _ _ _ _ _ machine => exact machine.tasks.created_leads task
  | call _ _ _ _ _ _ machine _ _ called =>
    subst called
    exact machine.tasks.created_leads task
  | submit outcome milliseconds promise machine after submitted =>
    obtain ⟨_, _, _, _, _, _, rfl, _⟩ := Exec.spawn_blocking_done outcome milliseconds promise machine after submitted
    exact machine.tasks.created_leads task
  | poll _ _ _ _ _ _ asked => cases asked <;> exact .refl
  | take taken value machine after consumed =>
    obtain ⟨tasks, done, rfl⟩ := Exec.consume_task_done taken (some value) machine after consumed
    exact machine.tasks.consumed_leads tasks taken task value done
  | untaken | panic => exact .refl
  | settle _ _ settled outcome rest machine after _ done =>
    exact Exec.settle_task_leads settled task _ { machine with microtasks := rest } after done
  | host _ _ actions rest machine _ _ next _ ih => exact ih bodies log (host_fine bodies log machine actions rest next fine)
  | returned _ _ body rest value machine left middle after marks next begun _ _ released settled _ ih =>
    have inside := ih (body :: bodies) log (entered_fine bodies log machine body rest next begun fine)
    have unmoved := Exec.release_unmoved body.frame left middle (.inl ⟨(), released⟩)
    rw [begun] at inside
    have last := Exec.settle_task_leads body.task task value middle after settled
    rw [unmoved.tasks] at last
    exact inside.trans last
  | broken _ _ body rest _ machine left after marks next begun _ released _ _ ih =>
    have inside := ih (body :: bodies) log (entered_fine bodies log machine body rest next begun fine)
    rw [(Exec.release_unmoved body.frame left after released).tasks]
    rw [begun] at inside
    exact inside
  | giveUp _ machine after _ unmoved | empty machine after _ unmoved =>
    rw [show after.tasks = machine.tasks from unmoved.tasks]
    exact .refl

theorem meets_lead (step : Exec α) (machine : Machine) (inner : Exec β) (place : Moment)
    (meets : step.Meets machine inner place) (bodies : List Activation) (log : List Mark)
    (fine : Fine ⟨bodies, log, machine⟩) :
    TaskState.Leads (machine.tasks.state? task) (place.machine.tasks.state? task) := by
  induction meets generalizing bodies log with
  | here => exact .refl
  | first _ _ _ _ _ _ ih | attempt _ _ _ _ _ ih | mapFailure _ _ _ _ _ _ ih => exact ih bodies log fine
  | next step next machine middle value marks _ made _ _ _ ih =>
    have first := marks_lead task step machine middle marks made bodies log fine
    exact first.trans (ih bodies _ (marks_fine step machine middle marks made bodies log fine))
  | host _ _ actions rest machine next _ _ _ ih => exact ih bodies log (host_fine bodies log machine actions rest next fine)
  | body _ _ body rest machine next begun _ _ _ ih =>
    have inside := ih (body :: bodies) log (entered_fine bodies log machine body rest next begun fine)
    rw [begun] at inside
    exact inside

theorem visits_lead (moment : Moment) (fine : moment.Fine) (step : Exec α) (place : Moment)
    (visits : step.Visits moment.machine place) :
    TaskState.Leads (moment.machine.tasks.state? task) (place.machine.tasks.state? task) := by
  rcases visits with ⟨_, made⟩ | ⟨_, inner, meets⟩
  · exact marks_lead task step _ _ place.log made moment.bodies moment.log fine
  · exact meets_lead task step _ inner place meets moment.bodies moment.log fine

end Moment

theorem history_member (log : List Mark) (mark : Mark) (member : mark ∈ log) : mark ∈ historyOf log mark.task :=
  List.mem_filter.mpr ⟨member, decide_eq_true rfl⟩

-- A value that was taken is the one that the task was settled with, and it was there to be taken.
theorem OnCourse.taken_last (log : List Mark) (tasks : TaskTable) (settlers : List (TaskId × Settler)) (task : TaskId)
    (value : Value) (course : OnCourse (log ++ [.taken task value]) tasks settlers) :
    (∃ source, .settled task value source ∈ log) ∧ ∀ other, .taken task other ∉ log := by
  have known := course task
  rw [history_same log (.taken task value) task rfl] at known
  obtain ⟨making, source, history⟩ := known.of_taken
  refine ⟨⟨source, ?_⟩, fun other member => ?_⟩
  · exact (List.mem_filter.mp (history ▸ by simp : Mark.settled task value source ∈ historyOf log task)).1
  · have listed : Mark.taken task other ∈ historyOf log task := history_member log (.taken task other) member
    simp [history] at listed

section Jobs
variable (task : TaskId)

theorem Settler.suits_job (outcome : Option Scalar) (settler : Settler)
    (suits : settler.Suits task (.submitted outcome)) : settler = .working outcome ∨ settler = .ended outcome := by
  cases settler with
  | waiting name lines frame => cases suits
  | running body => cases suits.2
  | working own =>
    cases suits
    exact .inl rfl
  | ended own =>
    cases suits
    exact .inr rfl

theorem Source.gives_job (outcome : Scalar) (value : Value) (source : Source)
    (gives : source.Gives task (.submitted (some outcome)) value) :
    ∃ classes : ClassTable, source = .produced outcome ∧ value = classes.scalar outcome := by
  cases source with
  | returned body => cases gives.2.1
  | produced own =>
    obtain ⟨same, classes, rfl⟩ := gives
    cases same
    exact ⟨classes, rfl, rfl⟩

-- A job that does not panic is lost in one way only.
theorem Loss.befalls_job (outcome : Scalar) (loss : Loss) (befalls : loss.Befalls (.submitted (some outcome))) :
    loss = .cleared := by
  cases loss with
  | broken =>
    obtain ⟨_, _, _, same⟩ := befalls
    cases same
  | panicked => cases befalls
  | cleared => rfl

end Jobs

-- What a job has produced is the value of its task.
def Moment.Settled (moment : Moment) (task : TaskId) (outcome : Scalar) : Prop :=
  ∃ classes : ClassTable, .settled task (classes.scalar outcome) (.produced outcome) ∈ moment.log ∧
    (moment.machine.tasks.state? task = some (.ready (classes.scalar outcome)) ∨
      moment.machine.tasks.state? task = some .consumed)

-- The job is among the outstanding ones of a pool that is going to be asked for it.
structure Moment.InPool (moment : Moment) (task : TaskId) (outcome : Scalar) : Prop where
  alone : settlersOf moment.settlers task = [.working (some outcome)]
  outstanding : ∃ pool, moment.machine.pool = some pool ∧ pool.outstanding = moment.machine.jobs.length ∧
    ∃ job ∈ pool.jobs, job.task = task ∧ job.outcome = some outcome
  asked : ∃ id, moment.machine.poolEvent = some id ∧ (id, some .pollPool) ∈ moment.machine.events

structure Moment.InQueue (moment : Moment) (task : TaskId) (outcome : Scalar) : Prop where
  alone : settlersOf moment.settlers task = [.ended (some outcome)]
  queued : .settle task outcome ∈ moment.machine.microtasks

namespace Moment
variable (moment : Moment) (fine : moment.Fine) (task : TaskId) (outcome : Scalar)

theorem settler_known (settler : Settler) (listed : settler ∈ settlersOf moment.settlers task) :
    (task, settler) ∈ moment.machine.queued ∨ (task, settler) ∈ moment.machine.jobs.map Job.settler ∨
      (task, settler) ∈ moment.bodies.map Activation.settler := by
  obtain ⟨entry, member, rfl⟩ := List.mem_map.mp listed
  obtain ⟨known, about⟩ := List.mem_filter.mp member
  obtain rfl : entry.1 = task := by simpa using about
  rcases List.mem_append.mp known with here | body
  · rcases List.mem_append.mp here with queued | job
    · exact .inl queued
    · exact .inr (.inl job)
  · exact .inr (.inr body)

theorem queued_settles (queued : (task, .ended (some outcome)) ∈ moment.machine.queued) :
    .settle task outcome ∈ moment.machine.microtasks := by
  obtain ⟨microtask, member, same⟩ := List.mem_filterMap.mp queued
  cases microtask <;> cases same
  exact member

include fine

theorem working_pooled (alone : settlersOf moment.settlers task = [.working (some outcome)]) :
    moment.InPool task outcome := by
  have listed : .working (some outcome) ∈ settlersOf moment.settlers task := by simp [alone]
  rcases moment.settler_known task _ listed with queued | job | body
  · obtain ⟨microtask, _, same⟩ := List.mem_filterMap.mp queued
    cases microtask <;> cases same
  · obtain ⟨job, member, same⟩ := List.mem_map.mp job
    simp only [Job.settler, Prod.mk.injEq, Settler.working.injEq] at same
    -- A pool with jobs is always going to be asked.
    have busy : moment.machine.jobs ≠ [] := List.ne_nil_of_mem member
    obtain ⟨id, asked⟩ := Option.ne_none_iff_exists'.mp (fine.tidy.polling.busy busy)
    refine ⟨alone, ?_, id, asked, fine.tidy.polling.registered id asked⟩
    cases content : moment.machine.pool with
    | none => simp [Machine.jobs, content] at busy
    | some pool =>
      have jobs : moment.machine.jobs = pool.jobs := by simp only [Machine.jobs, content]
      exact ⟨pool, rfl, congrArg List.length jobs.symm, job, jobs ▸ member, same⟩
  · obtain ⟨body, _, same⟩ := List.mem_map.mp body
    cases same

omit fine in
theorem ended_queued (alone : settlersOf moment.settlers task = [.ended (some outcome)]) :
    moment.InQueue task outcome := by
  have listed : .ended (some outcome) ∈ settlersOf moment.settlers task := by simp [alone]
  refine ⟨alone, ?_⟩
  rcases moment.settler_known task _ listed with queued | job | body
  · exact moment.queued_settles task outcome queued
  · obtain ⟨job, _, same⟩ := List.mem_map.mp job
    cases same
  · obtain ⟨body, _, same⟩ := List.mem_map.mp body
    cases same

-- A job settles its task sooner or later, unless what it has produced was dropped.
theorem job_kept (submitted : .made task (.submitted (some outcome)) ∈ moment.log) :
    moment.Settled task outcome ∨ moment.machine.tasks.state? task = some .pending ∧
      (moment.InPool task outcome ∨ moment.InQueue task outcome ∨
        settlersOf moment.settlers task = [] ∧ .dropped task .cleared ∈ moment.log) := by
  have made : .made task (.submitted (some outcome)) ∈ historyOf moment.log task := history_member moment.log _ submitted
  have known := fine.course task
  have back : ∀ mark ∈ historyOf moment.log task, mark ∈ moment.log := fun mark member => (List.mem_filter.mp member).1
  generalize historyOf moment.log task = history at known made back
  generalize state : moment.machine.tasks.state? task = reached at known
  generalize alone : settlersOf moment.settlers task = listed at known
  -- Of the courses that a task can be on, those that do not begin with the job are ruled out by its mark.
  cases known with
  | unmade | bare => simp at made
  | pending making settler suits =>
    obtain rfl : .submitted (some outcome) = making := by simpa using made
    rcases settler.suits_job task (some outcome) suits with rfl | rfl
    · exact .inr ⟨rfl, .inl (moment.working_pooled fine task outcome alone)⟩
    · exact .inr ⟨rfl, .inr (.inl (moment.ended_queued task outcome alone))⟩
  | dropped making loss befalls =>
    obtain rfl : .submitted (some outcome) = making := by simpa using made
    obtain rfl := loss.befalls_job outcome befalls
    exact .inr ⟨rfl, .inr (.inr ⟨rfl, back _ (by simp)⟩)⟩
  | settled making value source gives =>
    obtain rfl : .submitted (some outcome) = making := by simpa using made
    obtain ⟨classes, rfl, rfl⟩ := source.gives_job task outcome value gives
    exact .inl ⟨classes, back _ (by simp), .inl state⟩
  | taken making value source gives =>
    obtain rfl : .submitted (some outcome) = making := by simpa using made
    obtain ⟨classes, rfl, rfl⟩ := source.gives_job task outcome value gives
    exact .inl ⟨classes, back _ (by simp), .inr state⟩

theorem made_once (one another : Making) (known : .made task one ∈ moment.log) (again : .made task another ∈ moment.log) :
    one = another := by
  have first : .made task one ∈ historyOf moment.log task := history_member moment.log _ known
  have second : .made task another ∈ historyOf moment.log task := history_member moment.log _ again
  have course := fine.course task
  generalize historyOf moment.log task = history at course first second
  generalize moment.machine.tasks.state? task = state at course
  generalize settlersOf moment.settlers task = listed at course
  cases course <;> simp_all

-- What is dropped with the queue waited there as the microtask that was going to settle the task.
theorem queued_waits (submitted : .made task (.submitted (some outcome)) ∈ moment.log) (settler : Settler)
    (queued : (task, settler) ∈ moment.machine.queued) : .settle task outcome ∈ moment.machine.microtasks := by
  have known : (task, settler) ∈ moment.settlers := List.mem_append_left _ (List.mem_append_left _ queued)
  have pending := moment.settler_pending fine task settler known
  have listed : settler ∈ settlersOf moment.settlers task :=
    List.mem_map.mpr ⟨(task, settler), List.mem_filter.mpr ⟨known, by simp⟩, rfl⟩
  rcases moment.job_kept fine task outcome submitted with
    ⟨_, _, ready | consumed⟩ | ⟨_, pooled | inQueue | ⟨lost, _⟩⟩
  · cases pending.symm.trans ready
  · cases pending.symm.trans consumed
  · rw [pooled.alone, List.mem_singleton] at listed
    subst listed
    obtain ⟨microtask, _, other⟩ := List.mem_filterMap.mp queued
    cases microtask <;> cases other
  · exact inQueue.queued
  · simp [lost] at listed

-- What the log says of a task that something waits for was said already by then.
theorem waits_known (settler : Settler) (queued : (task, settler) ∈ moment.machine.queued) :
    ∃ making, .made task making ∈ moment.log := by
  have known : (task, settler) ∈ moment.settlers := List.mem_append_left _ (List.mem_append_left _ queued)
  obtain ⟨front, back, split⟩ := List.append_of_mem known
  obtain ⟨_, _, making, _, history⟩ := fine.course.of_settler _ _ _ (front ++ back) task settler
    (split ▸ List.perm_middle)
  exact ⟨making, (List.mem_filter.mp (history ▸ by simp : Mark.made task making ∈ historyOf moment.log task)).1⟩

end Moment

-- The run comes to a reset, after a program that has failed or because the host asks for one, while the microtask
-- waits that is going to settle the task.
def Exec.Resets {α : Type} (step : Exec α) (machine : Machine) (marks : List Mark) (task : TaskId) (outcome : Scalar) : Prop :=
  ∃ place, ((∃ failure, step.Meets machine (do reset; raise failure : Exec Value) place) ∨
      step.Meets machine (do reset; return .nothing : Exec Answer) place) ∧
    place.log <+: marks ∧ .settle task outcome ∈ place.machine.microtasks

-- Only what waited as a microtask can be dropped, and only by a reset.
theorem Moment.job_cleared {α : Type} (moment : Moment) (fine : moment.Fine) (step : Exec α) (place : Moment)
    (visits : step.Visits moment.machine place) (task : TaskId) (outcome : Scalar)
    (submitted : .made task (.submitted (some outcome)) ∈ moment.log ++ place.log)
    (cleared : .dropped task .cleared ∈ place.log) : step.Resets moment.machine place.log task outcome := by
  have waited : ∀ (β : Type) (inner : Exec β) (earlier : Moment) (settler : Settler), step.Meets moment.machine inner earlier →
      earlier.log <+: place.log → (task, settler) ∈ earlier.machine.queued →
      .settle task outcome ∈ earlier.machine.microtasks := by
    intro β inner earlier settler meets behind queued
    have earlierFine := moment.visits_fine step earlier (.inr ⟨β, inner, meets⟩) fine
    obtain ⟨making, known⟩ := (moment.since earlier).waits_known earlierFine task settler queued
    have within := ((List.prefix_append_right_inj moment.log).mpr behind).subset known
    obtain rfl := (moment.since place).made_once (moment.visits_fine step place visits fine) task making _ within submitted
    exact (moment.since earlier).queued_waits earlierFine task outcome known settler queued
  obtain ⟨β, inner, earlier, meets, behind, stems⟩ := step.visits_explained moment.machine place visits _ cleared
  cases stems with
  | giveUp failure _ settler _ queued =>
    exact ⟨earlier, .inl ⟨failure, meets⟩, behind, waited _ _ earlier settler meets behind queued⟩
  | empty _ settler _ queued => exact ⟨earlier, .inr meets, behind, waited _ _ earlier settler meets behind queued⟩

end CoopScript
