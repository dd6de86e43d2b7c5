import CoopScript.Interpreter
import CoopScript.Proofs.Machine.Registry

/-!
The course of a task: how it is made, what is going to settle it, the value it gets, and who takes that. A log has a mark
for each of these; what it says about a task, the state of the task and what is going to settle it always go together.
-/
set_option autoImplicit false
namespace CoopScript

-- A body in progress, with the machine as it was when the body was begun.
structure Activation where
  task : TaskId
  name : String
  lines : List Node
  frame : FrameId
  begun : Machine

-- A task is made by a host for itself, by an asynchronous call, or for a job in the background. A job without an
-- outcome panics.
inductive Making where
  | bare
  | called (name : String) (lines : List Node) (frame : FrameId)
  | submitted (outcome : Option Scalar)

/-- What is going to settle a task: a call whose body waits or is in progress, or a job in the pool, or one that has ended
and waits as a microtask. -/
inductive Settler where
  | waiting (name : String) (lines : List Node) (frame : FrameId)
  | running (body : Activation)
  | working (outcome : Option Scalar)
  | ended (outcome : Option Scalar)

inductive Source where
  | returned (body : Activation)
  | produced (outcome : Scalar)

-- Why nothing is going to settle a task any more: its body failed, its job panicked, or waiting work was dropped.
inductive Loss where
  | broken
  | panicked
  | cleared

inductive Mark where
  | made (task : TaskId) (making : Making)
  | settled (task : TaskId) (value : Value) (source : Source)
  | taken (task : TaskId) (value : Value)
  | dropped (task : TaskId) (loss : Loss)

def Mark.task : Mark → TaskId
  | made task _ | settled task _ _ | taken task _ | dropped task _ => task

def Settler.Suits (task : TaskId) (making : Making) : Settler → Prop
  | waiting name lines frame => making = .called name lines frame
  | running body => body.task = task ∧ making = .called body.name body.lines body.frame
  | working outcome | ended outcome => making = .submitted outcome

-- The value is what the body has returned, or what the job has produced.
def Source.Gives (task : TaskId) (making : Making) (value : Value) : Source → Prop
  | returned body =>
    body.task = task ∧ making = .called body.name body.lines body.frame ∧
      ∃ fuel after,
        (RuleSet.standard.engine fuel).runFrame body.name body.lines body.frame body.begun = .done value after
  | produced outcome => making = .submitted (some outcome) ∧ ∃ classes : ClassTable, value = classes.scalar outcome

def Loss.Befalls (making : Making) : Loss → Prop
  | broken => ∃ name lines frame, making = .called name lines frame
  | panicked => making = .submitted none
  | cleared => making ≠ .bare

-- What the log says about a task, with the state of the task and all that is going to settle it.
inductive Course (task : TaskId) : List Mark → Option TaskState → List Settler → Prop where
  | unmade : Course task [] none []
  | bare : Course task [.made task .bare] (some .pending) []
  | pending (making : Making) (settler : Settler) (suits : settler.Suits task making) :
      Course task [.made task making] (some .pending) [settler]
  | dropped (making : Making) (loss : Loss) (befalls : loss.Befalls making) :
      Course task [.made task making, .dropped task loss] (some .pending) []
  | settled (making : Making) (value : Value) (source : Source) (gives : source.Gives task making value) :
      Course task [.made task making, .settled task value source] (some (.ready value)) []
  | taken (making : Making) (value : Value) (source : Source) (gives : source.Gives task making value) :
      Course task [.made task making, .settled task value source, .taken task value] (some .consumed) []

def historyOf (log : List Mark) (task : TaskId) : List Mark := log.filter (·.task = task)

def settlersOf (settlers : List (TaskId × Settler)) (task : TaskId) : List Settler :=
  (settlers.filter (·.1 = task)).map Prod.snd

-- Every task is on its course.
def OnCourse (log : List Mark) (tasks : TaskTable) (settlers : List (TaskId × Settler)) : Prop :=
  ∀ task, Course task (historyOf log task) (tasks.state? task) (settlersOf settlers task)

theorem history_same (log : List Mark) (mark : Mark) (task : TaskId) (about : mark.task = task) :
    historyOf (log ++ [mark]) task = historyOf log task ++ [mark] := by
  simp [historyOf, about]

theorem history_other (log : List Mark) (mark : Mark) (task : TaskId) (other : task ≠ mark.task) :
    historyOf (log ++ [mark]) task = historyOf log task := by
  simp [historyOf, other.symm]

theorem settlers_perm (settlers after : List (TaskId × Settler)) (perm : after.Perm settlers) (task : TaskId) :
    (settlersOf after task).Perm (settlersOf settlers task) :=
  (perm.filter _).map _

theorem settlers_same (task : TaskId) (settler : Settler) (rest : List (TaskId × Settler)) :
    settlersOf ((task, settler) :: rest) task = settler :: settlersOf rest task := by
  simp [settlersOf]

theorem settlers_other (task other : TaskId) (settler : Settler) (rest : List (TaskId × Settler))
    (different : other ≠ task) : settlersOf ((task, settler) :: rest) other = settlersOf rest other := by
  simp [settlersOf, different.symm]

namespace Course
variable (task : TaskId) (history : List Mark) (state : Option TaskState) (settlers others : List Settler)

theorem of_unmade (course : Course task history none settlers) : history = [] ∧ settlers = [] := by
  cases course
  exact ⟨rfl, rfl⟩

-- What is going to settle a task finds it waiting, and is alone.
theorem of_settler (settler : Settler) (course : Course task history state (settler :: others)) :
    state = some .pending ∧ others = [] ∧ ∃ making, settler.Suits task making ∧ history = [.made task making] := by
  cases course with
  | pending making _ suits => exact ⟨rfl, rfl, making, suits, rfl⟩

theorem of_ready (value : Value) (course : Course task history (some (.ready value)) settlers) :
    settlers = [] ∧ ∃ making source, source.Gives task making value ∧
      history = [.made task making, .settled task value source] := by
  cases course with
  | settled making _ source gives => exact ⟨rfl, making, source, gives, rfl⟩

theorem of_taken (value : Value) (course : Course task (history ++ [.taken task value]) state settlers) :
    ∃ making source, history = [.made task making, .settled task value source] := by
  -- The course is read off the whole history, whose last mark is known.
  generalize marks : history ++ [Mark.taken task value] = all at course
  have ended : ∀ front last, history ++ [Mark.taken task value] = front ++ [last] →
      history = front ∧ Mark.taken task value = last := fun front last same => by
    simpa using List.append_inj' same rfl
  cases course with
  | unmade => simp at marks
  | bare | pending => cases (ended [] _ marks).2
  | dropped making loss => cases (ended [.made task making] _ marks).2
  | settled making given source => cases (ended [.made task making] _ marks).2
  | taken making given source =>
    obtain ⟨before, same⟩ := ended [.made task making, .settled task given source] _ marks
    cases same
    exact ⟨making, source, before⟩

-- The order in which the settlers are listed does not matter, as no task has two.
theorem reordered (after : List Settler) (perm : after.Perm settlers) (course : Course task history state settlers) :
    Course task history state after := by
  cases settlers with
  | nil => exact List.perm_nil.mp perm ▸ course
  | cons settler others =>
    obtain ⟨_, rfl, _⟩ := of_settler task history state others settler course
    exact List.perm_singleton.mp perm ▸ course

end Course

namespace OnCourse
variable (log : List Mark) (tasks after : TaskTable) (settlers rest later : List (TaskId × Settler)) (task : TaskId)
  (course : OnCourse log tasks settlers)
include course

theorem reordered (perm : later.Perm settlers) : OnCourse log tasks later := fun other =>
  (course other).reordered _ _ _ _ _ (settlers_perm settlers later perm other)

theorem created (new : List Settler) (making : Making)
    (fresh : new = [] ∧ making = .bare ∨ ∃ settler, new = [settler] ∧ settler.Suits tasks.create.1 making)
    (perm : later.Perm (new.map (tasks.create.1, ·) ++ settlers)) :
    OnCourse (log ++ [.made tasks.create.1 making]) tasks.create.2 later := by
  intro other
  have listed := settlers_perm _ later perm other
  have old := course other
  rw [TaskTable.state_created]
  by_cases same : other = tasks.create.1
  · subst same
    have unknown : tasks.state? tasks.create.1 = none := by simp [TaskTable.state?, TaskTable.create]
    rw [unknown] at old
    obtain ⟨unmarked, unsettled⟩ := old.of_unmade
    rw [history_same log (.made tasks.create.1 making) tasks.create.1 rfl, unmarked, if_pos rfl, List.nil_append]
    rcases fresh with ⟨rfl, rfl⟩ | ⟨settler, rfl, suits⟩
    · rw [List.map_nil, List.nil_append, unsettled] at listed
      exact Course.bare.reordered _ _ _ _ _ listed
    · rw [List.map_singleton, List.singleton_append, settlers_same, unsettled] at listed
      exact (Course.pending making settler suits).reordered _ _ _ _ _ listed
  · rw [history_other log (.made tasks.create.1 making) other same, if_neg same]
    refine old.reordered _ _ _ _ _ ?_
    rcases fresh with ⟨rfl, rfl⟩ | ⟨settler, rfl, suits⟩
    · exact listed
    · rwa [List.map_singleton, List.singleton_append, settlers_other _ _ _ _ same] at listed

theorem of_settler (settler : Settler) (perm : settlers.Perm ((task, settler) :: rest)) :
    tasks.state? task = some .pending ∧ settlersOf rest task = [] ∧
      ∃ making, settler.Suits task making ∧ historyOf log task = [.made task making] := by
  have known := reordered log tasks settlers _ course perm.symm task
  rw [settlers_same] at known
  exact known.of_settler

-- What is said of the other tasks stays, with the settlers that are left.
theorem of_others (settler : Settler) (perm : settlers.Perm ((task, settler) :: rest)) (other : TaskId)
    (different : other ≠ task) : Course other (historyOf log other) (tasks.state? other) (settlersOf rest other) := by
  have known := reordered log tasks settlers _ course perm.symm other
  rwa [settlers_other _ _ _ _ different] at known

variable (settler next : Settler)

-- What is going to settle a task is passed on.
theorem passed (perm : settlers.Perm ((task, settler) :: rest)) (perms : later.Perm ((task, next) :: rest))
    (suits : ∀ making, settler.Suits task making → next.Suits task making) : OnCourse log tasks later := by
  refine reordered log tasks ((task, next) :: rest) later (fun other => ?_) perms
  by_cases same : other = task
  · subst same
    obtain ⟨pending, alone, making, fits, history⟩ := of_settler log tasks settlers rest other course settler perm
    rw [settlers_same, pending, alone, history]
    exact .pending making next (suits making fits)
  · rw [settlers_other _ _ _ _ same]
    exact of_others log tasks settlers rest task course settler perm other same

-- The one thing that was going to settle the task is gone, and so the task goes on.
theorem resolved (perm : settlers.Perm ((task, settler) :: later)) (mark : Mark) (about : mark.task = task)
    (states : ∀ other, other ≠ task → after.state? other = tasks.state? other)
    (goes : ∀ making, settler.Suits task making → Course task [.made task making, mark] (after.state? task) []) :
    OnCourse (log ++ [mark]) after later := by
  intro other
  by_cases same : other = task
  · subst same
    obtain ⟨_, alone, making, suits, history⟩ := of_settler log tasks settlers later other course settler perm
    rw [history_same log mark other about, history, alone]
    exact goes making suits
  · rw [history_other log mark other fun is => same (is.trans about), states other same]
    exact of_others log tasks settlers later task course settler perm other same

theorem settled (perm : settlers.Perm ((task, settler) :: later)) (value : Value) (source : Source)
    (done : tasks.settle task value = .ok after)
    (gives : ∀ making, settler.Suits task making → source.Gives task making value) :
    OnCourse (log ++ [.settled task value source]) after later := by
  obtain ⟨_, states⟩ := TaskTable.settle_done tasks after task value done
  refine resolved log tasks after settlers later task course settler perm _ rfl (fun other different => ?_)
    fun making suits => ?_
  · rw [states, if_neg different]
  · rw [states, if_pos rfl]
    exact .settled making value source (gives making suits)

theorem dropped (perm : settlers.Perm ((task, settler) :: later)) (loss : Loss)
    (befalls : ∀ making, settler.Suits task making → loss.Befalls making) :
    OnCourse (log ++ [.dropped task loss]) tasks later := by
  obtain ⟨pending, _⟩ := of_settler log tasks settlers later task course settler perm
  refine resolved log tasks tasks settlers later task course settler perm _ rfl (fun _ _ => rfl) fun making suits => ?_
  rw [pending]
  exact .dropped making loss (befalls making suits)

omit settler next in
theorem taken (value : Value) (done : tasks.consume task = .ok (some value, after)) :
    OnCourse (log ++ [.taken task value]) after settlers := by
  obtain ⟨ready, states⟩ := TaskTable.consume_done tasks after task value done
  intro other
  have known := course other
  rw [states]
  by_cases same : other = task
  · subst same
    rw [ready] at known
    obtain ⟨alone, making, source, gives, history⟩ := known.of_ready
    rw [history_same log (.taken other value) other rfl, history, alone, if_pos rfl]
    exact .taken making value source gives
  · rw [history_other log (.taken task value) other same, if_neg same]
    exact known

omit settler next task in
-- All of a part of what is going to settle tasks is dropped at once.
theorem cleared (part : List (TaskId × Settler)) (perm : settlers.Perm (part ++ later))
    (befalls : ∀ entry ∈ part, ∀ making, entry.2.Suits entry.1 making → making ≠ .bare) :
    OnCourse (log ++ part.map fun entry => .dropped entry.1 .cleared) tasks later := by
  induction part generalizing log settlers with
  | nil =>
    rw [List.map_nil, List.append_nil]
    exact reordered log tasks settlers later course perm.symm
  | cons entry part ih =>
    obtain ⟨task, settler⟩ := entry
    have one := dropped log tasks settlers (part ++ later) task course settler perm .cleared
      (befalls (task, settler) List.mem_cons_self)
    have all := ih (log ++ [.dropped task .cleared]) (part ++ later) one (.refl _)
      fun entry member => befalls entry (List.mem_cons_of_mem _ member)
    rwa [List.append_assoc] at all

omit settler next in
-- Whatever is going to settle a task finds it waiting.
theorem settler_waits (settler : Settler) (member : (task, settler) ∈ settlers) : tasks.state? task = some .pending := by
  obtain ⟨front, back, rfl⟩ := List.append_of_mem member
  exact (of_settler log tasks _ (front ++ back) task course settler List.perm_middle).1

end OnCourse

end CoopScript
