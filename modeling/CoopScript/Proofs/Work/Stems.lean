import CoopScript.Proofs.Work.Marks

set_option autoImplicit false
namespace CoopScript

namespace Exec
variable {α β γ : Type}

theorem meets_further (step : Exec α) (machine : Machine) (middle : Exec β) (between : Moment) (inner : Exec γ)
    (place : Moment) (meets : step.Meets machine middle between) (further : middle.Meets between.machine inner place) :
    step.Meets machine inner (between.since place) := by
  induction meets with
  | here => simpa only [Moment.since, List.nil_append, List.append_nil] using further
  | first _ _ _ _ _ _ ih => exact .first _ _ _ _ _ (ih further)
  | next _ _ _ _ _ _ ran made _ _ _ ih =>
    have later := Meets.next _ _ _ _ _ _ ran made _ _ (ih further)
    simpa only [Moment.since, List.append_assoc] using later
  | attempt _ _ _ _ _ ih => exact .attempt _ _ _ _ (ih further)
  | mapFailure _ _ _ _ _ _ ih => exact .mapFailure _ _ _ _ _ (ih further)
  | host _ _ _ _ _ next _ _ _ ih => exact .host _ _ _ _ _ next _ _ (ih further)
  | body fuel report _ _ _ next begun _ _ _ ih =>
    have later := Meets.body fuel report _ _ _ next begun _ _ (ih further)
    simpa only [Moment.since, List.append_assoc] using later

end Exec

-- What is run at the place where a mark is made.
inductive Mark.Stems : {α : Type} → Mark → Exec α → Moment → Prop where
  | create (place : Moment) : Stems (.made place.machine.tasks.create.1 .bare) Exec.createTask place
  | call (name : String) (lines : List Node) (arguments : Bindings) (caller frame : FrameId) (frames : Arena)
      (place : Moment) (pushed : place.machine.frames.push caller true arguments = .ok (frame, frames)) :
      Stems (.made place.machine.tasks.create.1 (.called name lines frame)) (Exec.spawnAsync name lines arguments caller) place
  | refused (name : String) (lines : List Node) (arguments : Bindings) (caller : FrameId) (cause : Cause) (place : Moment)
      (refused : place.machine.frames.push caller true arguments = .error cause) :
      Stems (.made place.machine.tasks.create.1 .bare) (Exec.spawnAsync name lines arguments caller) place
  | submit (outcome : Option Scalar) (milliseconds : Nat) (promise : Value) (place : Moment) (after : Machine)
      (submitted : Exec.spawnBlocking outcome milliseconds place.machine = .done promise after) :
      Stems (.made place.machine.tasks.create.1 (.submitted outcome)) (Exec.spawnBlocking outcome milliseconds) place
  | take (task : TaskId) (value : Value) (place : Moment) (after : Machine)
      (taken : Exec.consumeTask task place.machine = .done (some value) after) :
      Stems (.taken task value) (Exec.consumeTask task) place
  | settle (engine : Engine) (report : TickReport) (task : TaskId) (outcome : Scalar) (rest : List Microtask)
      (place : Moment) (next : place.machine.microtasks = .settle task outcome :: rest) :
      Stems (.settled task (place.machine.classes.scalar outcome) (.produced outcome))
        (engine.begin report (.settle task outcome) rest) place
  | panic (engine : Engine) (report : TickReport) (task : TaskId) (rest : List Microtask) (place : Moment)
      (next : place.machine.microtasks = .panicked task :: rest) :
      Stems (.dropped task .panicked) (engine.begin report (.panicked task) rest) place
  | returned (fuel : Nat) (body : Activation) (value : Value) (place : Moment) (left : Machine)
      (innermost : place.bodies.head? = some body) (begun : place.machine = body.begun)
      (ran : (RuleSet.standard.engine fuel).runFrame body.name body.lines body.frame place.machine = .done value left) :
      Stems (.settled body.task value (.returned body))
        ((RuleSet.standard.engine fuel).runFrame body.name body.lines body.frame) place
  | broken (fuel : Nat) (report : TickReport) (body : Activation) (rest : List Microtask) (failure : Failure)
      (place : Moment) (after : Machine) (begun : body.begun = place.machine.entered rest body.frame)
      (failed : (RuleSet.standard.engine fuel).begin report (.asyncBody body.task body.name body.lines body.frame) rest
        place.machine = .failed failure after) :
      Stems (.dropped body.task .broken)
        ((RuleSet.standard.engine fuel).begin report (.asyncBody body.task body.name body.lines body.frame) rest) place
  | giveUp (failure : Failure) (task : TaskId) (settler : Settler) (place : Moment)
      (queued : (task, settler) ∈ place.machine.queued) :
      Stems (.dropped task .cleared) (do Exec.reset; Exec.raise failure : Exec Value) place
  | empty (task : TaskId) (settler : Settler) (place : Moment) (queued : (task, settler) ∈ place.machine.queued) :
      Stems (.dropped task .cleared) (do Exec.reset; return .nothing : Exec Answer) place

namespace Exec
variable {α β γ : Type}

-- The run comes to the place at which the mark is made, no later than all these marks are.
def Explains (step : Exec α) (machine : Machine) (marks : List Mark) (mark : Mark) : Prop :=
  ∃ (β : Type) (inner : Exec β) (place : Moment),
    step.Meets machine inner place ∧ place.log <+: marks ∧ mark.Stems inner place

theorem stems_since (mark : Mark) (inner : Exec α) (before place : Moment) (stems : mark.Stems inner place) :
    mark.Stems inner (before.since place) := by
  have here : (before.since place).machine = place.machine := rfl
  cases stems with
  | create => exact .create (before.since place)
  | call name lines arguments caller frame frames _ pushed =>
    exact .call name lines arguments caller frame frames (before.since place) pushed
  | refused name lines arguments caller cause _ refused =>
    exact .refused name lines arguments caller cause (before.since place) refused
  | submit outcome milliseconds promise _ after submitted =>
    exact .submit outcome milliseconds promise (before.since place) after submitted
  | take task value _ after taken => exact .take task value (before.since place) after taken
  | settle engine report task outcome rest _ next => exact .settle engine report task outcome rest (before.since place) next
  | panic engine report task rest _ next => exact .panic engine report task rest (before.since place) next
  | returned fuel body value _ left innermost begun ran =>
    refine .returned fuel body value (before.since place) left ?_ begun ran
    simp only [Moment.since, List.head?_append, innermost, Option.some_or]
  | broken fuel report body rest failure _ after begun failed =>
    exact .broken fuel report body rest failure (before.since place) after begun failed
  | giveUp failure task settler _ queued => exact .giveUp failure task settler (before.since place) queued
  | empty task settler _ queued => exact .empty task settler (before.since place) queued

section Tells
variable (step : Exec α) (machine : Machine)

-- What is explained by a run that this one comes to.
theorem explains_further (inner : Exec β) (place : Moment) (marks more : List Mark) (mark : Mark)
    (meets : step.Meets machine inner place) (explains : inner.Explains place.machine marks mark)
    (within : place.log ++ marks <+: more) : step.Explains machine more mark := by
  obtain ⟨_, innermost, between, further, behind, stems⟩ := explains
  refine ⟨_, innermost, place.since between, meets_further step machine inner place innermost between meets further, ?_,
    stems_since mark innermost place between stems⟩
  exact ((List.prefix_append_right_inj place.log).mpr behind).trans within

theorem explains_here (marks : List Mark) (mark : Mark) (stems : mark.Stems step ⟨[], [], machine⟩) :
    step.Explains machine marks mark := ⟨α, step, _, .here step machine, List.nil_prefix, stems⟩

variable (next : α → Exec β)

theorem meets_first : (step >>= next).Meets machine step ⟨[], [], machine⟩ := .first step next machine step _ (.here step machine)

theorem meets_next (middle : Machine) (value : α) (marks : List Mark) (ran : step machine = .done value middle)
    (made : step.Marks machine marks middle) : (step >>= next).Meets machine (next value) ⟨[], marks, middle⟩ := by
  have later := Meets.next step next machine middle value marks ran made (next value) _ (.here (next value) middle)
  simpa only [List.append_nil] using later

end Tells

-- Every mark is made somewhere on the way.
theorem marks_explained (step : Exec α) (machine after : Machine) (marks : List Mark)
    (made : step.Marks machine marks after) (mark : Mark) (member : mark ∈ marks) : step.Explains machine marks mark := by
  induction made with
  | aside | poll | untaken => cases member
  | done step next machine middle after value marks more ran first _ ihFirst ihSecond =>
    rcases List.mem_append.mp member with early | late
    · exact explains_further _ machine step _ marks _ mark (meets_first step machine next) (ihFirst early)
        (List.prefix_append marks more)
    · exact explains_further _ machine _ _ more _ mark (meets_next step machine next middle value marks ran first)
        (ihSecond late) (List.prefix_refl _)
  | failed step next machine after failure marks _ _ ih =>
    exact explains_further _ machine step _ marks _ mark (meets_first step machine next) (ih member) (List.prefix_refl _)
  | attempt step machine after marks _ ih =>
    exact explains_further _ machine step _ marks _ mark (.attempt step machine step _ (.here step machine)) (ih member)
      (List.prefix_refl _)
  | mapFailure change step machine after marks _ ih =>
    exact explains_further _ machine step _ marks _ mark (.mapFailure change step machine step _ (.here step machine))
      (ih member) (List.prefix_refl _)
  | create machine =>
    obtain rfl := List.mem_singleton.mp member
    exact explains_here _ machine _ _ (.create ⟨[], [], machine⟩)
  | call name lines arguments caller frame frames machine after pushed =>
    obtain rfl := List.mem_singleton.mp member
    exact explains_here _ machine _ _ (.call name lines arguments caller frame frames ⟨[], [], machine⟩ pushed)
  | refused name lines arguments caller cause machine refused =>
    obtain rfl := List.mem_singleton.mp member
    exact explains_here _ machine _ _ (.refused name lines arguments caller cause ⟨[], [], machine⟩ refused)
  | submit outcome milliseconds promise machine after submitted =>
    obtain rfl := List.mem_singleton.mp member
    exact explains_here _ machine _ _ (.submit outcome milliseconds promise ⟨[], [], machine⟩ after submitted)
  | take task value machine after taken =>
    obtain rfl := List.mem_singleton.mp member
    exact explains_here _ machine _ _ (.take task value ⟨[], [], machine⟩ after taken)
  | settle engine report task outcome rest machine after next =>
    obtain rfl := List.mem_singleton.mp member
    exact explains_here _ machine _ _ (.settle engine report task outcome rest ⟨[], [], machine⟩ next)
  | panic engine report task rest machine next =>
    obtain rfl := List.mem_singleton.mp member
    exact explains_here _ machine _ _ (.panic engine report task rest ⟨[], [], machine⟩ next)
  | host engine report actions rest machine after marks next _ ih =>
    exact explains_further _ machine _ _ marks _ mark (.host engine report actions rest machine next _ _ (.here _ _))
      (ih member) (List.prefix_refl _)
  | returned fuel report body rest value machine left middle after marks next begun _ ran _ _ _ ih =>
    have enters := Meets.body fuel report body rest machine next begun _ _ (.here _ body.begun)
    rcases List.mem_append.mp member with inside | last
    · exact explains_further _ machine _ _ marks _ mark enters (ih inside) (List.prefix_append marks _)
    · obtain rfl := List.mem_singleton.mp last
      exact ⟨_, _, _, enters, List.nil_prefix, .returned fuel body value _ left rfl rfl ran⟩
  | broken fuel report body rest failure machine left after marks next begun _ _ failed _ ih =>
    have enters := Meets.body fuel report body rest machine next begun _ _ (.here _ body.begun)
    rcases List.mem_append.mp member with inside | last
    · exact explains_further _ machine _ _ marks _ mark enters (ih inside) (List.prefix_append marks _)
    · obtain rfl := List.mem_singleton.mp last
      exact explains_here _ machine _ _ (.broken fuel report body rest failure ⟨[], [], machine⟩ after begun failed)
  | giveUp failure machine =>
    obtain ⟨⟨task, settler⟩, queued, rfl⟩ := List.mem_map.mp member
    exact explains_here _ machine _ _ (.giveUp failure task settler ⟨[], [], machine⟩ queued)
  | empty machine =>
    obtain ⟨⟨task, settler⟩, queued, rfl⟩ := List.mem_map.mp member
    exact explains_here _ machine _ _ (.empty task settler ⟨[], [], machine⟩ queued)

theorem meets_explained (step : Exec α) (machine : Machine) (inner : Exec β) (place : Moment)
    (meets : step.Meets machine inner place) (mark : Mark) (member : mark ∈ place.log) :
    step.Explains machine place.log mark := by
  induction meets with
  | here => cases member
  | first step next machine inner place _ ih =>
    exact explains_further _ machine step _ place.log _ mark (meets_first step machine next) (ih member) (List.prefix_refl _)
  | next step next machine middle value marks ran first inner place _ ih =>
    rcases List.mem_append.mp member with early | late
    · have earlier := marks_explained step machine middle marks first mark early
      exact explains_further _ machine step _ marks _ mark (meets_first step machine next) earlier (List.prefix_append _ _)
    · exact explains_further _ machine _ _ place.log _ mark (meets_next step machine next middle value marks ran first)
        (ih late) (List.prefix_refl _)
  | attempt step machine inner place _ ih =>
    exact explains_further _ machine step _ place.log _ mark (.attempt step machine step _ (.here step machine)) (ih member)
      (List.prefix_refl _)
  | mapFailure change step machine inner place _ ih =>
    exact explains_further _ machine step _ place.log _ mark (.mapFailure change step machine step _ (.here step machine))
      (ih member) (List.prefix_refl _)
  | host engine report actions rest machine next inner place _ ih =>
    exact explains_further _ machine _ _ place.log _ mark (.host engine report actions rest machine next _ _ (.here _ _))
      (ih member) (List.prefix_refl _)
  | body fuel report body rest machine next begun inner place _ ih =>
    exact explains_further _ machine _ _ place.log _ mark (.body fuel report body rest machine next begun _ _ (.here _ _))
      (ih member) (List.prefix_refl _)

theorem visits_explained (step : Exec α) (machine : Machine) (place : Moment) (visits : step.Visits machine place)
    (mark : Mark) (member : mark ∈ place.log) : step.Explains machine place.log mark := by
  rcases visits with ⟨_, made⟩ | ⟨_, inner, meets⟩
  · exact marks_explained step machine place.machine place.log made mark member
  · exact meets_explained step machine inner place meets mark member

end Exec

end CoopScript
