import CoopScript.Proofs.Conduct.Basic
import CoopScript.Proofs.Queue.Log

/-!
Traits: properties of steps that a step has when its parts do. It is enough to know of a trait that the smallest steps have
it and how it passes through the few places at which waiting work is touched and failures are told on; then everything
that can be asked of a machine has it.
-/
set_option autoImplicit false
namespace CoopScript

def Machine.standing (machine : Machine) : Config × List Microtask × List (EventId × Option Microevent) × Nat :=
  (machine.config, machine.microtasks, machine.events, machine.eventCount)

-- How the machine is configured and what is registered or waits is left as it was, and no task is lost. Ready lines
-- and the jobs of the pool do not count.
structure Machine.Intact (before after : Machine) : Prop where
  standing : after.standing = before.standing
  tasks : before.tasks.count ≤ after.tasks.count

namespace Machine.Intact
variable {before after : Machine} (intact : before.Intact after)
include intact

theorem config : after.config = before.config := congrArg Prod.fst intact.standing

theorem microtasks : after.microtasks = before.microtasks := congrArg (·.2.1) intact.standing

theorem events : after.events = before.events := congrArg (·.2.2.1) intact.standing

theorem eventCount : after.eventCount = before.eventCount := congrArg (·.2.2.2) intact.standing

end Machine.Intact

namespace Exec
variable {α β γ : Type}

-- A step that disturbs nothing and whose failures have neither a place nor notes.
def Small (step : Exec α) : Prop :=
  ∀ machine, match step machine with
    | .done _ after => machine.Intact after
    | .failed failure after => machine.Intact after ∧ ∃ cause, failure = .of cause
    | .outOfFuel => True

def dropWork : Exec Unit := modify fun machine => { machine with ready := [], microtasks := [] }

def dropEvents : Exec Unit :=
  modify fun machine =>
    { machine with
      events := machine.events.filter fun entry => some entry.1 = machine.poolEvent
      depth := 0 }

end Exec

-- A property of steps, with all that has to be known of it.
structure Trait where
  Holds : {α : Type} → Exec α → Prop
  small : ∀ {α : Type} {step : Exec α}, step.Small → Holds step
  bind : ∀ {α β : Type} {step : Exec α} (next : α → Exec β), Holds step → (∀ value, Holds (next value)) →
    Holds (step >>= next)
  -- A failure that is held back until something else has been done.
  guard : ∀ {α β γ : Type} {step : Exec α} (cleanup : Except Failure α → Exec β) (next : β → Except Failure α → Exec γ),
    (∀ result failure, next result (.error failure) = Exec.raise failure) → Holds step →
    (∀ outcome, Holds (cleanup outcome)) → (∀ result value, Holds (next result (.ok value))) →
    Holds (step.attempt >>= fun outcome => cleanup outcome >>= fun result => next result outcome)
  missing : ∀ {α : Type}, Holds (Exec.raise .missingFile : Exec α)
  failAt : ∀ {α : Type} (cause : Cause) (position : Position), Holds (Exec.failAt cause position : Exec α)
  -- An argument that has no place among the parameters.
  misplaced : ∀ (engine : Engine) (function : String) (parameters : Parameters) (frame : FrameId) (binding : Binding)
    (argument : Node) (rest : List Node) (cause : Cause), binding.place function parameters argument = .error cause →
    Holds (engine.bindAll function parameters frame binding (argument :: rest))
  load : ∀ (rules : RuleSet) (source : String) (file : Option String), Holds (rules.load source file)
  -- The value of a node that has a position.
  placed : ∀ (rules : RuleSet) (engine : Engine) (node : Node) (frame : FrameId) (step : Exec Value) (position : Position),
    node.position? = some position →
    rules.evaluate engine node frame = step.mapFailure (·.orPosition (some position)) → Holds step →
    Holds (rules.evaluate engine node frame)
  line : ∀ (engine : Engine) (node : Node) (frame : FrameId), Holds (engine.execute node frame) →
    Holds (engine.executeLine node frame)
  enqueue : ∀ task : Microtask, task.call? = none → Holds (Exec.enqueueMicrotask task)
  spawn : ∀ (name : String) (lines : List Node) (arguments : Bindings) (caller : FrameId),
    Holds (Exec.spawnAsync name lines arguments caller)
  drain : ∀ engine : Engine, (∀ task, Holds (engine.runMicrotask task)) → ∀ report, Holds (engine.drainStep report)
  dropWork : Holds Exec.dropWork
  register : ∀ event : Microevent, Holds (Exec.registerEvent event)
  remove : ∀ id : EventId, Holds (Exec.removeEvent id)
  serve : ∀ engine : Engine, (∀ event, Holds (engine.runEvent event)) → ∀ report, Holds (engine.serviceEvents report)
  dropEvents : Holds Exec.dropEvents

section Services
variable (Holds : {α : Type} → Exec α → Prop) (engine : Engine)
variable (reads : ∀ {α : Type} (view : Machine → α), Holds (Exec.read view))
variable (bind : ∀ {α β : Type} {step : Exec α} (next : α → Exec β), Holds step → (∀ value, Holds (next value)) →
  Holds (step >>= next))
include reads bind

-- To take the next microtask out of the queue is all that a drain does besides running it.
theorem Engine.drain_holds (takes : ∀ rest, Holds (Exec.modify fun machine => { machine with microtasks := rest }))
    (microtasks : ∀ task, Holds (engine.runMicrotask task)) (report : TickReport) : Holds (engine.drainStep report) := by
  refine bind _ (reads _) fun queue => ?_
  cases queue with
  | nil => exact reads _
  | cons task rest =>
    refine bind _ (takes rest) fun _ => bind _ (microtasks task) fun _ => bind _ (reads _) fun halted => ?_
    split <;> exact reads _

variable (guard : ∀ {α β γ : Type} {step : Exec α} (cleanup : Except Failure α → Exec β)
  (next : β → Except Failure α → Exec γ), (∀ result failure, next result (.error failure) = Exec.raise failure) →
  Holds step → (∀ outcome, Holds (cleanup outcome)) → (∀ result value, Holds (next result (.ok value))) →
  Holds (step.attempt >>= fun outcome => cleanup outcome >>= fun result => next result outcome))
variable (sets : ∀ id event, Holds (Exec.setEvent id event)) (removes : ∀ id, Holds (Exec.removeEvent id))
variable (events : ∀ event, Holds (engine.runEvent event))
include guard sets removes events

theorem Engine.service_event_holds (id : EventId) (event : Microevent) : Holds (engine.serviceEvent id event) := by
  let cleanup (outcome : Except Failure EventStatus) : Exec Unit :=
    if outcome.toOption = some .done then do let _ ← Exec.removeEvent id else Exec.setEvent id (some event.advanced)
  have guarded : Holds ((engine.runEvent event).attempt >>= fun outcome =>
      cleanup outcome >>= fun _ => Exec.ofOutcome outcome) := by
    refine guard cleanup (fun _ => Exec.ofOutcome) (fun _ _ => rfl) (events event) (fun outcome => ?_) fun _ value =>
      reads fun _ => value
    unfold cleanup
    split
    · exact bind _ (removes id) fun _ => reads fun _ => ()
    · exact sets id _
  refine bind _ (sets id none) fun _ => (congrArg Holds ?_).mp guarded
  refine congrArg ((engine.runEvent event).attempt >>= ·) (funext fun outcome => ?_)
  rcases outcome with failure | status
  · rfl
  · cases status <;> rfl

-- To put events aside and back is all that a service of them does besides running them.
theorem Engine.service_holds (report : TickReport) : Holds (engine.serviceEvents report) := by
  refine bind _ (reads _) fun ids => ?_
  induction ids generalizing report with
  | nil => exact reads fun _ => report
  | cons id rest ih =>
    refine bind _ (reads _) fun known => ?_
    cases known with
    | none => exact ih report
    | some event =>
      refine bind _ (engine.service_event_holds Holds reads bind guard sets removes events id event) fun status => ?_
      refine bind _ (reads _) fun halted => ?_
      cases halted with
      | true => exact reads fun _ => _
      | false => exact ih _

end Services

namespace Exec
variable {α β : Type}

section Small
variable {step : Exec α}

theorem small_leaves (small : step.Small) (machine after : Machine) (left : (step machine).Leaves after) :
    machine.Intact after := by
  have here := small machine
  rcases left with ⟨_, ran⟩ | ⟨_, ran⟩ <;> rw [ran] at here
  · exact here
  · exact here.1

theorem small_fault (small : step.Small) (machine after : Machine) (failure : Failure)
    (ran : step machine = .failed failure after) : ∃ cause, failure = .of cause := by
  have here := small machine
  rw [ran] at here
  exact here.2

theorem small_read (view : Machine → α) : (read view).Small := fun _ => ⟨rfl, Nat.le_refl _⟩

theorem small_fail (cause : Cause) : (fail cause : Exec α).Small := fun _ => ⟨⟨rfl, Nat.le_refl _⟩, cause, rfl⟩

theorem small_modify (change : Machine → Machine) (intact : ∀ machine : Machine, machine.Intact (change machine)) :
    (modify change).Small := intact

theorem small_ask (ask : Arena → Except Cause α) : (askFrames ask).Small := by
  intro machine
  unfold askFrames
  cases ask machine.frames with
  | ok answer => exact ⟨rfl, Nat.le_refl _⟩
  | error cause => exact ⟨⟨rfl, Nat.le_refl _⟩, cause, rfl⟩

theorem small_update (change : Arena → Except Cause Arena) : (updateFrames change).Small := by
  intro machine
  unfold updateFrames
  cases change machine.frames with
  | ok frames => exact ⟨rfl, Nat.le_refl _⟩
  | error cause => exact ⟨⟨rfl, Nat.le_refl _⟩, cause, rfl⟩

theorem small_change (change : Arena → Except Cause (α × Arena)) : (changeFrames change).Small := by
  intro machine
  unfold changeFrames
  cases change machine.frames with
  | ok result => exact ⟨rfl, Nat.le_refl _⟩
  | error cause => exact ⟨⟨rfl, Nat.le_refl _⟩, cause, rfl⟩

theorem small_release (frame : FrameId) : (releaseFrame frame).Small := by
  intro machine
  unfold releaseFrame
  cases machine.frames.release frame with
  | mk frames fault =>
    cases fault with
    | none => exact ⟨rfl, Nat.le_refl _⟩
    | some cause => exact ⟨⟨rfl, Nat.le_refl _⟩, cause, rfl⟩

theorem small_create_task : createTask.Small := fun machine => ⟨rfl, machine.tasks.count_created⟩

theorem small_settle_task (task : TaskId) (value : Value) : (settleTask task value).Small := by
  intro machine
  unfold settleTask
  cases settled : machine.tasks.settle task value with
  | ok tasks => exact ⟨rfl, Nat.le_of_eq (machine.tasks.count_settled tasks task value settled).symm⟩
  | error cause => exact ⟨⟨rfl, Nat.le_refl _⟩, cause, rfl⟩

theorem small_consume_task (task : TaskId) : (consumeTask task).Small := by
  intro machine
  unfold consumeTask
  cases consumed : machine.tasks.consume task with
  | ok result => exact ⟨rfl, Nat.le_of_eq (machine.tasks.count_consumed result.2 task result.1 consumed).symm⟩
  | error cause => exact ⟨⟨rfl, Nat.le_refl _⟩, cause, rfl⟩

theorem small_define (draft : ClassDraft) : (Engine.defineClass draft).Small := by
  intro machine
  unfold Engine.defineClass
  cases machine.classes.define draft with
  | ok result => exact ⟨rfl, Nat.le_refl _⟩
  | error cause => exact ⟨⟨rfl, Nat.le_refl _⟩, cause, rfl⟩

end Small

section Through
variable {Holds : {α : Type} → Exec α → Prop}

theorem spawn_holds (small : ∀ {α : Type} {step : Exec α}, step.Small → Holds step)
    (bind : ∀ {α β : Type} {step : Exec α} (next : α → Exec β), Holds step → (∀ value, Holds (next value)) →
      Holds (step >>= next))
    (enqueue : ∀ task, Holds (enqueueMicrotask task)) (name : String) (lines : List Node) (arguments : Bindings)
    (caller : FrameId) : Holds (spawnAsync name lines arguments caller) := by
  refine bind _ (small small_create_task) fun task => ?_
  refine bind _ (small (small_change _)) fun frame => ?_
  refine bind _ (small fun _ => ⟨rfl, Nat.le_refl _⟩) fun _ => ?_
  exact bind _ (enqueue _) fun _ => small (small_read _)

end Through

-- Properties of steps that do not tell one failure from another.
structure Blind (Holds : {α : Type} → Exec α → Prop) : Prop where
  small : ∀ {α : Type} {step : Exec α}, step.Small → Holds step
  bind : ∀ {α β : Type} {step : Exec α} (next : α → Exec β), Holds step → (∀ value, Holds (next value)) →
    Holds (step >>= next)
  raise : ∀ {α : Type} (failure : Failure), Holds (raise failure : Exec α)
  attempt : ∀ {α : Type} {step : Exec α}, Holds step → Holds step.attempt
  mapFailure : ∀ {α : Type} {step : Exec α} (change : Failure → Failure), Holds step → Holds (step.mapFailure change)

namespace Blind
variable {Holds : {α : Type} → Exec α → Prop} (blind : Blind Holds)
include blind

theorem reads (view : Machine → α) : Holds (read view) := blind.small (small_read view)

theorem guard {γ : Type} {step : Exec α} (cleanup : Except Failure α → Exec β) (next : β → Except Failure α → Exec γ)
    (reraises : ∀ result failure, next result (.error failure) = Exec.raise failure) (holds : Holds step)
    (cleanups : ∀ outcome, Holds (cleanup outcome)) (laters : ∀ result value, Holds (next result (.ok value))) :
    Holds (step.attempt >>= fun outcome => cleanup outcome >>= fun result => next result outcome) := by
  refine blind.bind _ (blind.attempt holds) fun outcome => blind.bind _ (cleanups outcome) fun result => ?_
  cases outcome with
  | ok value => exact laters result value
  | error failure =>
    rw [reraises]
    exact blind.raise failure

theorem load (rules : RuleSet) (source : String) (file : Option String) : Holds (rules.load source file) := by
  unfold RuleSet.load
  split
  · exact blind.reads fun _ => _
  · exact blind.raise _
  · exact blind.small fun _ => trivial

theorem misplaced (engine : Engine) (function : String) (parameters : Parameters) (frame : FrameId) (binding : Binding)
    (argument : Node) (rest : List Node) (cause : Cause)
    (refused : binding.place function parameters argument = .error cause) :
    Holds (engine.bindAll function parameters frame binding (argument :: rest)) := by
  rw [engine.bind_all_refused function parameters frame binding argument rest cause refused]
  exact blind.raise _

theorem spawn (enqueue : ∀ task, Holds (enqueueMicrotask task)) (name : String) (lines : List Node)
    (arguments : Bindings) (caller : FrameId) : Holds (spawnAsync name lines arguments caller) :=
  spawn_holds blind.small blind.bind enqueue name lines arguments caller

theorem serve (sets : ∀ id event, Holds (setEvent id event)) (removes : ∀ id, Holds (removeEvent id)) (engine : Engine)
    (events : ∀ event, Holds (engine.runEvent event)) (report : TickReport) : Holds (engine.serviceEvents report) :=
  engine.service_holds Holds blind.reads blind.bind blind.guard sets removes events report

end Blind

end Exec

-- A property that is blind to failures is a trait if the steps have it by which queues and events are changed.
def Trait.ofBlind (Holds : {α : Type} → Exec α → Prop) (blind : Exec.Blind Holds)
    (enqueue : ∀ task : Microtask, task.call? = none → Holds (Exec.enqueueMicrotask task))
    (spawn : ∀ name lines arguments caller, Holds (Exec.spawnAsync name lines arguments caller))
    (drain : ∀ engine : Engine, (∀ task, Holds (engine.runMicrotask task)) → ∀ report, Holds (engine.drainStep report))
    (dropWork : Holds Exec.dropWork) (register : ∀ event, Holds (Exec.registerEvent event))
    (remove : ∀ id, Holds (Exec.removeEvent id))
    (serve : ∀ engine : Engine, (∀ event, Holds (engine.runEvent event)) → ∀ report, Holds (engine.serviceEvents report))
    (dropEvents : Holds Exec.dropEvents) : Trait where
  Holds := Holds
  small := blind.small
  bind := blind.bind
  guard := blind.guard
  missing := blind.raise _
  failAt _ _ := blind.raise _
  misplaced := blind.misplaced
  load := blind.load
  placed _ _ _ _ _ _ _ evaluates holds := (congrArg Holds evaluates).mpr (blind.mapFailure _ holds)
  line _ _ _ holds := blind.mapFailure _ holds
  enqueue := enqueue
  spawn := spawn
  drain := drain
  dropWork := dropWork
  register := register
  remove := remove
  serve := serve
  dropEvents := dropEvents

namespace Trait
variable (trait : Trait) {α β : Type}

section Combinators

theorem pure (value : α) : trait.Holds (Pure.pure value : Exec α) := trait.small (Exec.small_read fun _ => value)

theorem read (view : Machine → α) : trait.Holds (Exec.read view) := trait.small (Exec.small_read view)

theorem fail (cause : Cause) : trait.Holds (Exec.fail cause : Exec α) := trait.small (Exec.small_fail cause)

theorem exhausted : trait.Holds (Exec.exhausted : Exec α) := trait.small fun _ => trivial

theorem modify (change : Machine → Machine) (intact : ∀ machine : Machine, machine.Intact (change machine)) :
    trait.Holds (Exec.modify change) := trait.small (Exec.small_modify change intact)

theorem each (action : β → Exec Unit) (items : List β) (holds : ∀ item, trait.Holds (action item)) :
    trait.Holds (Exec.each action items) := by
  induction items with
  | nil => exact trait.pure ()
  | cons first rest ih => exact trait.bind _ (holds first) fun _ => ih

theorem collect (action : β → Exec α) (items : List β) (holds : ∀ item, trait.Holds (action item)) :
    trait.Holds (Exec.collect action items) := by
  induction items with
  | nil => exact trait.pure []
  | cons first rest ih =>
    refine trait.bind _ (holds first) fun value => ?_
    exact trait.bind _ ih fun values => trait.pure _

-- The rest of a step, when it does not matter what has been read before.
theorem given (view : Machine → α) (next : α → Exec β) (later : ∀ value, trait.Holds (next value)) :
    trait.Holds (Exec.read view >>= next) := trait.bind next (trait.read view) later

-- Nothing comes after a failure.
theorem stop (cause : Cause) (next : α → Exec β) : trait.Holds ((Exec.fail cause : Exec α) >>= next) :=
  trait.small (Exec.small_fail (α := β) cause)

-- What a step gives, put into another form.
theorem put (step : Exec α) (form : α → β) (holds : trait.Holds step) :
    trait.Holds (do return form (← step) : Exec β) := trait.bind _ holds fun _ => trait.pure _

end Combinators

section Frames
variable (frame : FrameId)

theorem ask (ask : Arena → Except Cause α) : trait.Holds (Exec.askFrames ask) := trait.small (Exec.small_ask ask)

theorem update (change : Arena → Except Cause Arena) : trait.Holds (Exec.updateFrames change) :=
  trait.small (Exec.small_update change)

theorem change (change : Arena → Except Cause (α × Arena)) : trait.Holds (Exec.changeFrames change) :=
  trait.small (Exec.small_change change)

theorem release : trait.Holds (Exec.releaseFrame frame) := trait.small (Exec.small_release frame)

theorem is_unwinding : trait.Holds (Exec.isUnwinding frame) := by
  refine trait.given _ _ fun halted => ?_
  cases halted with
  | true => exact trait.pure true
  | false =>
    refine trait.bind _ (trait.ask _) fun function => ?_
    cases function with
    | some function => exact trait.read _
    | none => exact trait.pure false

end Frames

section Values
variable (value : Value)

theorem next_identity : trait.Holds Exec.nextIdentity := trait.small fun _ => ⟨rfl, Nat.le_refl _⟩

theorem array (items : List Value) : trait.Holds (Exec.array items) :=
  trait.bind _ trait.next_identity fun _ => trait.read _

theorem function (content : Function Value) : trait.Holds (Exec.function content) :=
  trait.bind _ trait.next_identity fun _ => trait.read _

end Values

section Runners
variable (id : RunnerId)

theorem update_runner (change : Runner → Runner) : trait.Holds (Exec.modify (·.updateRunner id change)) :=
  trait.modify _ fun _ => ⟨rfl, Nat.le_refl _⟩

theorem record (value : Option Value) : trait.Holds (Exec.record id value) := by
  cases value with
  | none => exact trait.pure ()
  | some value => exact trait.update_runner id _

theorem advance : trait.Holds (Exec.advance id) := by
  refine trait.given _ _ fun returned => trait.given _ _ fun known => ?_
  cases known with
  | none => exact trait.pure ()
  | some runner =>
    simp only
    split
    · exact trait.update_runner id _
    · exact trait.bind _ (trait.update_runner id _) fun _ => trait.modify _ fun _ => ⟨rfl, Nat.le_refl _⟩

theorem create_runner (lines : List Node) (frame : FrameId) : trait.Holds (Exec.createRunner lines frame) := by
  refine trait.bind _ (trait.update _) fun _ => ?_
  refine trait.bind _ (trait.ask _) fun functionFrame => ?_
  exact trait.small fun _ => ⟨rfl, Nat.le_refl _⟩

theorem finish_runner : trait.Holds (Exec.finishRunner id) := by
  refine trait.given _ _ fun known => ?_
  cases known with
  | none => exact trait.pure none
  | some runner =>
    refine trait.bind _ (trait.modify _ fun _ => ⟨rfl, Nat.le_refl _⟩) fun _ => ?_
    exact trait.bind _ (trait.release runner.frame) fun _ => trait.pure runner.last

theorem load_program (lines : List Node) (frame : FrameId) : trait.Holds (Exec.loadProgram lines frame) :=
  trait.bind _ (trait.create_runner lines frame) fun id => trait.bind _ (trait.advance id) fun _ => trait.pure id

end Runners

section Work

theorem create_task : trait.Holds Exec.createTask := trait.small Exec.small_create_task

theorem settle_task (task : TaskId) (value : Value) : trait.Holds (Exec.settleTask task value) :=
  trait.small (Exec.small_settle_task task value)

theorem consume_task (task : TaskId) : trait.Holds (Exec.consumeTask task) := trait.small (Exec.small_consume_task task)

theorem spawn_blocking (outcome : Option Scalar) (milliseconds : Nat) :
    trait.Holds (Exec.spawnBlocking outcome milliseconds) := by
  refine trait.bind _ trait.create_task fun task => ?_
  refine trait.bind _ (trait.modify _ fun _ => ⟨rfl, Nat.le_refl _⟩) fun _ => trait.given _ _ fun event => ?_
  split
  · refine trait.bind _ (trait.register _) fun id => ?_
    exact trait.bind _ (trait.modify _ fun _ => ⟨rfl, Nat.le_refl _⟩) fun _ => trait.read _
  · exact trait.read _

theorem poll_pool : trait.Holds Exec.pollPool := by
  have forgets : trait.Holds Exec.forgetPool :=
    trait.bind _ (trait.modify _ fun _ => ⟨rfl, Nat.le_refl _⟩) fun _ => trait.pure _
  refine trait.given _ _ fun known => ?_
  cases known with
  | none => exact forgets
  | some pool =>
    refine trait.bind _ (trait.modify _ fun _ => ⟨rfl, Nat.le_refl _⟩) fun _ => trait.given _ _ fun clock => ?_
    refine trait.bind _ (trait.modify _ fun _ => ⟨rfl, Nat.le_refl _⟩) fun _ => ?_
    split
    · split
      · exact forgets
      · exact trait.pure _
    · have settles : ∀ job : Job, trait.Holds (Exec.enqueueMicrotask job.microtask) := fun job => by
        refine trait.enqueue job.microtask ?_
        unfold Job.microtask
        split <;> rfl
      exact trait.bind _ (trait.each _ _ settles) fun _ => trait.pure _

theorem reset : trait.Holds Exec.reset := by
  refine trait.bind _ trait.dropWork fun _ => trait.given _ _ fun frames => ?_
  refine trait.bind _ (trait.modify _ fun _ => ⟨rfl, Nat.le_refl _⟩) fun _ => ?_
  refine trait.bind _ (trait.each _ frames trait.release) fun _ => trait.given _ _ fun ids => ?_
  have finishes : ∀ id, trait.Holds (do let _ ← Exec.finishRunner id) := fun id =>
    trait.bind _ (trait.finish_runner id) fun _ => trait.pure ()
  exact trait.bind _ (trait.each _ ids finishes) fun _ => trait.dropEvents

end Work

end Trait
end CoopScript
