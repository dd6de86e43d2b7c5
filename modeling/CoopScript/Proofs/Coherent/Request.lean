import CoopScript.Proofs.Coherent.Language
import CoopScript.Proofs.Stage.Reachable
import CoopScript.Proofs.Fault.Session

set_option autoImplicit false
namespace CoopScript

namespace Operation

def Known (extent : Extent) : Operation → Prop
  | invokeScript _ _ arguments _ => arguments.All (Value.Known extent)
  | call target function _ _ => target.Known extent ∧ function.Known extent
  | _ => True

def handed : Operation → List Value
  | invokeScript _ _ arguments _ => arguments.values
  | call target function _ _ => [target, function]
  | _ => []

variable (operation : Operation) {law : ValueLaw} {extent : Extent}

theorem known_plain (known : operation.Known extent) : operation.Plain := by
  cases operation with
  | invokeScript name lines arguments caller => exact fun entry listed => (known entry listed).plain
  | call target function arguments frame => exact ⟨known.1.plain, known.2.plain⟩
  | _ => trivial

theorem known_handed (known : operation.Known extent) : ∀ value ∈ operation.handed, value.Known extent := by
  cases operation with
  | invokeScript name lines arguments caller =>
    intro value listed
    obtain ⟨entry, there, rfl⟩ := List.mem_map.mp listed
    exact known entry there
  | call target function arguments frame => exact List.forall_mem_cons.mpr ⟨known.1, List.forall_mem_singleton.mpr known.2⟩
  | _ => exact List.forall_mem_nil _

theorem abides_perform (handed : ∀ value ∈ operation.handed, law.Holds extent value) (engine : Engine)
    (abides : engine.Abides law) : (operation.perform engine).Abides law extent fun _ _ => True := by
  have dropped : ∀ {α : Type} {good : Extent → α → Prop} (step : Exec α), step.Abides law extent good →
      Exec.Abides law extent (fun _ _ => True) (do let _ ← step) := fun _ abidesStep =>
    Exec.abides_bind _ abidesStep fun _ _ _ _ => Exec.abides_pure () trivial
  cases operation with
  | evaluate node frame => exact dropped _ (abides.evaluate extent node frame)
  | executeLine node frame => exact dropped _ (engine.abides_execute_line abides node frame)
  | runBlock lines frame => exact dropped _ (engine.abides_run_block abides lines frame)
  | invokeScript name lines arguments caller =>
    refine dropped _ (engine.abides_invoke_script abides name lines arguments caller fun entry listed => ?_)
    exact handed entry.2 (List.mem_map_of_mem listed)
  | call target function arguments frame =>
    obtain ⟨targetHolds, functionHolds⟩ := List.forall_mem_cons.mp handed
    exact dropped _ (engine.abides_call abides target function arguments frame targetHolds
      (List.forall_mem_singleton.mp functionHolds))
  | await task => exact dropped _ (engine.abides_await abides task)
  | tick => exact dropped _ (engine.abides_tick abides)
  | run => exact engine.abides_run abides

end Operation

theorem Engine.abides_program {law : ValueLaw} (engine : Engine) (abides : engine.Abides law) (lines : List Node) {extent : Extent} :
    (engine.evalProgram lines).Abides law extent law.Holds := by
  refine Exec.abides_bind _ (Exec.abides_quiet _ fun _ => ⟨_, _, _, _, _, _, _, _, _, _, _, _, rfl⟩) fun _ _ _ _ => ?_
  refine Exec.abides_bind _ (Exec.abides_load lines Arena.root) fun _ runner _ _ => ?_
  refine Exec.abides_bind _ (Exec.abides_attempt (engine.abides_run abides)) fun _ outcome _ _ => ?_
  cases outcome with
  | error failure => exact Exec.abides_bind _ Exec.abides_reset fun _ _ _ _ => Exec.abides_raise failure
  | ok =>
    refine Exec.abides_bind _ (Exec.abides_finish_runner runner) fun _ last _ holds => ?_
    cases last with
    | some value => exact Exec.abides_pure value (holds value rfl)
    | none => exact Exec.abides_void

section Start

theorem Arena.keeps_initial (holds : Value → Prop) : initial.Keeps holds := by
  intro id frame found
  obtain rfl : frame = .fresh none false .empty := (initial_found id frame found).2
  exact ⟨NameMap.all_empty holds, fun _ none => by cases none⟩

theorem Arena.keeps_named (holds : Value → Prop) (names : List (String × Value)) (frames : Arena)
    (fine : ∀ entry ∈ names, holds entry.2) (kept : frames.Keeps holds) : (Machine.named names frames).Keeps holds := by
  refine List.foldlRecOn names _ kept fun arena before entry listed => ?_
  cases bound : arena.setVariable Arena.root entry.1 entry.2 with
  | error cause => exact before
  | ok after => exact Arena.keeps_set_variable before Arena.root entry.1 entry.2 (fine entry listed) bound

theorem Machine.given_abides (law : ValueLaw) (config : Config) :
    ∀ entry ∈ (Machine.initial config).givenNames, law.Holds (Machine.start config).extent entry.2 := by
  have begun : ClassTable.firstIdentity ≤ (Machine.start config).extent.identities := Nat.le_add_right _ 3
  have builtin (identity : Nat) (given : identity < ClassTable.firstIdentity + 3) (name : String) (parameters : Parameters)
      (code : Builtin) : law.Holds (Machine.start config).extent (ClassTable.intrinsic.builtin identity name parameters code) :=
    law.function begun identity _ given fun code same => by cases same; exact ⟨_, rfl⟩
  intro entry listed
  simp only [givenNames, List.mem_cons, List.not_mem_nil, or_false] at listed
  rcases listed with rfl | rfl | rfl | rfl | rfl
  · exact builtin _ (Nat.lt_add_of_pos_right (by decide)) _ _ _
  · exact builtin _ (Nat.add_lt_add_left (by decide) _) _ _ _
  · exact builtin _ (Nat.add_lt_add_left (by decide) _) _ _ _
  · exact law.scalar begun (.flag true)
  · exact law.scalar begun (.flag false)

theorem Machine.start_abides (law : ValueLaw) (config : Config) : (Machine.start config).Abides law where
  classes := rfl
  begun := Nat.le_add_right _ 3
  frames := by
    rw [show (Machine.start config).frames = _ from (Machine.initial config).prelude_frames]
    exact Arena.keeps_named _ _ _ (Machine.given_abides law config) (Arena.keeps_initial _)
  tasks task value ready := absurd ((TaskTable.state_empty task).symm.trans ready) (by simp)
  runners := List.forall_mem_nil _
  microtasks := List.forall_mem_nil _
  events := List.forall_mem_nil _

end Start

/-- The reachable stages in which no value has been made up. What a script does to a machine, step by step, keeps it coherent,
and so it is asked of single steps; of whole runs it need not be, as it follows. -/
inductive Attained (config : Config) : Stage → Prop where
  | start : Attained config (.start config)
  | step (stage after : Stage) (attained : Attained config stage) (step : Step stage after) (coherent : after.machine.Coherent) :
      Attained config after
  | unwind (stage after : Stage) (attained : Attained config stage) (unwind : Unwind stage after)
      (coherent : after.machine.Coherent) : Attained config after
  | perform (stage : Stage) (operation : Operation) (fuel : Nat) (after : Machine) (attained : Attained config stage)
      (known : operation.Known stage.machine.extent)
      (ran : (operation.perform (RuleSet.standard.engine fuel) stage.machine).Leaves after) : Attained config (stage.put after)
  | program (stage : Stage) (lines : List Node) (fuel : Nat) (after : Machine) (attained : Attained config stage)
      (outside : stage.calls = []) (ran : ((RuleSet.standard.engine fuel).evalProgram lines stage.machine).Leaves after) :
      Attained config (stage.put after)
  | load (stage : Stage) (lines : List Node) (frame : FrameId) (id : RunnerId) (after : Machine)
      (attained : Attained config stage) (loaded : Exec.loadProgram lines frame stage.machine = .done id after) :
      Attained config (stage.put after)
  | finish (stage : Stage) (id : RunnerId) (last : Option Value) (after : Machine) (attained : Attained config stage)
      (finished : Exec.finishRunner id stage.machine = .done last after) : Attained config (stage.put after)
  | reset (stage : Stage) (after : Machine) (attained : Attained config stage) (outside : stage.calls = [])
      (dropped : Exec.reset stage.machine = .done () after) : Attained config (stage.put after)
  | push (stage : Stage) (parent id : FrameId) (isFunction : Bool) (bindings : Bindings) (after : Machine)
      (attained : Attained config stage) (known : bindings.All (Value.Known stage.machine.extent))
      (pushed : Exec.pushFrame parent isFunction bindings stage.machine = .done id after) :
      Attained config ⟨stage.calls, id :: stage.held, after⟩
  | retain (stage : Stage) (id : FrameId) (after : Machine) (attained : Attained config stage)
      (retained : Exec.retainFrame id stage.machine = .done () after) :
      Attained config ⟨stage.calls, id :: stage.held, after⟩
  | release (stage : Stage) (id : FrameId) (after : Machine) (attained : Attained config stage) (owned : id ∈ stage.held)
      (released : Exec.releaseFrame id stage.machine = .done () after) :
      Attained config ⟨stage.calls, stage.held.erase id, after⟩

theorem attained_reachable (config : Config) (stage : Stage) (attained : Attained config stage) : Reachable config stage := by
  induction attained with
  | start => exact .start
  | step stage after _ step _ reached => exact .step stage after reached step
  | unwind stage after _ unwind _ reached => exact .unwind stage after reached unwind
  | perform stage operation fuel after _ known ran reached =>
    exact .perform stage operation fuel after reached (operation.known_plain known) ran
  | program stage lines fuel after _ outside ran reached => exact .program stage lines fuel after reached outside ran
  | load stage lines frame id after _ loaded reached => exact .load stage lines frame id after reached loaded
  | finish stage id last after _ finished reached => exact .finish stage id last after reached finished
  | reset stage after _ outside dropped reached => exact .reset stage after reached outside dropped
  | push stage parent id isFunction bindings after _ known pushed reached =>
    exact .push stage parent id isFunction bindings after reached (fun entry listed => (known entry listed).plain) pushed
  | retain stage id after _ retained reached => exact .retain stage id after reached retained
  | release stage id after _ owned released reached => exact .release stage id after reached owned released

theorem Exec.abides_after {law : ValueLaw} {α : Type} {good : Extent → α → Prop} (step : Exec α) (machine after : Machine)
    (abides : machine.Abides law) (stepAbides : step.Abides law machine.extent good) (left : (step machine).Leaves after) :
    after.Abides law :=
  (Outcome.abides_left _ (stepAbides machine abides rfl) after left).1

theorem attained_abides (config : Config) (stage : Stage) (attained : Attained config stage) : stage.machine.Abides .known := by
  induction attained with
  | start => exact Machine.start_abides _ config
  | step _ _ _ _ coherent | unwind _ _ _ _ coherent => exact (Machine.coherent_iff _).mp coherent
  | perform stage operation fuel after _ known ran abides =>
    exact Exec.abides_after _ _ after abides
      (operation.abides_perform (operation.known_handed known) _ (RuleSet.abides_engine fuel)) ran
  | program stage lines fuel after _ _ ran abides =>
    exact Exec.abides_after _ _ after abides (Engine.abides_program _ (RuleSet.abides_engine fuel) lines) ran
  | load stage lines frame id after _ loaded abides =>
    exact Exec.abides_after _ _ after abides (Exec.abides_load lines frame) (.inl ⟨id, loaded⟩)
  | finish stage id last after _ finished abides =>
    exact Exec.abides_after _ _ after abides (Exec.abides_finish_runner id) (.inl ⟨last, finished⟩)
  | reset stage after _ _ dropped abides => exact Exec.abides_after _ _ after abides Exec.abides_reset (.inl ⟨(), dropped⟩)
  | push stage parent id isFunction bindings after _ known pushed abides =>
    exact Exec.abides_after _ _ after abides (Exec.abides_push parent isFunction bindings known) (.inl ⟨id, pushed⟩)
  | retain stage id after _ retained abides =>
    exact Exec.abides_after _ _ after abides (Exec.abides_retain id) (.inl ⟨(), retained⟩)
  | release stage id after _ _ released abides =>
    exact Exec.abides_after _ _ after abides (Exec.abides_release id) (.inl ⟨(), released⟩)

theorem attained_coherent (config : Config) (stage : Stage) (attained : Attained config stage) : stage.machine.Coherent :=
  (Machine.coherent_iff _).mpr (attained_abides config stage attained)

-- What can be done next in the middle of a run.
inductive Stroke where
  | perform (operation : Operation) (fuel : Nat)
  | run (script : Script) (fuel : Nat)
  | evaluate (node : Node) (frame : FrameId) (fuel : Nat)
  | enter (caller : FrameId) (isFunction : Bool) (bindings : Bindings)
  | leave (frame : FrameId)
  | takeReturn (frame : FrameId)
  | begin (lines : List Node) (frame : FrameId)
  | proceed (runner : RunnerId) (fuel : Nat)
  | record (runner : RunnerId) (value : Value)
  | advance (runner : RunnerId)
  | finish (runner : RunnerId)
  | dequeue
  | serve (fuel : Nat)
  | settle (task : TaskId) (value : Value)
  | consume (task : TaskId)
  | aside (ready : List Line) (halted : Bool) (depth clock : Nat) (asyncFrames : List FrameId)

namespace Stroke

def handed : Stroke → List Value
  | perform operation _ => operation.handed
  | enter _ _ bindings => bindings.values
  | record _ value | settle _ value => [value]
  | _ => []

-- Does it, and gives the values that come up.
def step : Stroke → Exec (List Value)
  | perform operation fuel => do
    operation.perform (RuleSet.standard.engine fuel)
    return []
  | run script fuel => do return [← script.run fuel]
  | evaluate node frame fuel => do return [← (RuleSet.standard.engine fuel).evaluate node frame]
  | enter caller isFunction bindings => do
    let _ ← Exec.pushFrame caller isFunction bindings
    return []
  | leave frame => do
    Exec.releaseFrame frame
    return []
  | takeReturn frame => do return (← Exec.takeReturn frame).toList
  | begin lines frame => do
    let _ ← Exec.createRunner lines frame
    return []
  | proceed runner fuel => do
    let _ ← (RuleSet.standard.engine fuel).step runner
    return []
  | record runner value => do
    Exec.record runner (some value)
    return []
  | advance runner => do
    Exec.advance runner
    return []
  | finish runner => do return (← Exec.finishRunner runner).toList
  | dequeue => do
    Exec.modify fun machine => { machine with microtasks := machine.microtasks.tail }
    return []
  | serve fuel => do
    let _ ← (RuleSet.standard.engine fuel).serviceEvents .empty
    return []
  | settle task value => do
    Exec.settleTask task value
    return []
  | consume task => do return (← Exec.consumeTask task).toList
  | aside ready halted depth clock asyncFrames => do
    Exec.modify fun machine => { machine with
      ready := ready, halted := halted, depth := depth, clock := clock, asyncFrames := asyncFrames }
    return []

end Stroke

/-- A machine that programs are or have been run on, and the values that they have come by. What is in progress goes on with any
of these. -/
inductive Underway (config : Config) : List Value → Machine → Prop where
  | start : Underway config [] (Machine.start config)
  | done (hand values : List Value) (machine after : Machine) (underway : Underway config hand machine) (stroke : Stroke)
      (handed : ∀ value ∈ stroke.handed, value ∈ hand) (ran : stroke.step machine = .done values after) :
      Underway config (values ++ hand) after
  | failed (hand : List Value) (machine after : Machine) (underway : Underway config hand machine) (stroke : Stroke)
      (handed : ∀ value ∈ stroke.handed, value ∈ hand) (failure : Failure)
      (ran : stroke.step machine = .failed failure after) : Underway config hand after

variable {law : ValueLaw} {extent : Extent}

theorem Script.abides_run (script : Script) (fuel : Nat) : (script.run fuel).Abides law extent law.Holds := by
  intro machine abides same
  rcases script.run_cases fuel machine with ran | ⟨lines, _, ran⟩ | ⟨failure, ran, _⟩ <;> rw [ran]
  · trivial
  · exact Engine.abides_program _ (RuleSet.abides_engine fuel) lines machine abides same
  · exact ⟨abides, same ▸ le_refl _⟩

namespace Exec
variable {α : Type} {good : Extent → α → Prop} {step : Exec α}

theorem abides_giving_none (abides : step.Abides law extent good) :
    Exec.Abides law extent (fun more values => ∀ value ∈ values, law.Holds more value) (do let _ ← step; return []) :=
  abides_bind _ abides fun _ _ _ _ => abides_pure [] (List.forall_mem_nil _)

theorem abides_giving_one {step : Exec Value} (abides : step.Abides law extent law.Holds) :
    Exec.Abides law extent (fun more values => ∀ value ∈ values, law.Holds more value) (do return [← step]) :=
  abides_bind _ abides fun _ value _ holds => abides_pure [value] fun _ listed => List.mem_singleton.mp listed ▸ holds

theorem abides_giving_some {step : Exec (Option Value)}
    (abides : step.Abides law extent fun more result => ∀ value, result = some value → law.Holds more value) :
    Exec.Abides law extent (fun more values => ∀ value ∈ values, law.Holds more value) (do return (← step).toList) :=
  abides_bind _ abides fun _ result _ holds =>
    abides_pure result.toList fun value listed => holds value (Option.mem_toList.mp listed)

end Exec

theorem Stroke.abides_step (stroke : Stroke) (handed : ∀ value ∈ stroke.handed, law.Holds extent value) :
    stroke.step.Abides law extent fun more values => ∀ value ∈ values, law.Holds more value := by
  cases stroke with
  | perform operation fuel =>
    exact Exec.abides_giving_none (operation.abides_perform handed _ (RuleSet.abides_engine fuel))
  | run script fuel => exact Exec.abides_giving_one (script.abides_run fuel)
  | evaluate node frame fuel => exact Exec.abides_giving_one ((RuleSet.abides_engine fuel).evaluate extent node frame)
  | enter caller isFunction bindings =>
    exact Exec.abides_giving_none (Exec.abides_push caller isFunction bindings fun entry listed =>
      handed entry.2 (List.mem_map_of_mem listed))
  | leave frame => exact Exec.abides_giving_none (Exec.abides_release frame)
  | takeReturn frame => exact Exec.abides_giving_some (Exec.abides_take_return frame)
  | begin lines frame => exact Exec.abides_giving_none (Exec.abides_create_runner lines frame)
  | proceed runner fuel =>
    have drives : law.conduct.Drives _ _ := Engine.abides_drives _ (RuleSet.abides_engine fuel)
    exact Exec.abides_giving_none (drives.step law.machinery extent Arena.root runner)
  | record runner value =>
    refine Exec.abides_giving_none (Exec.abides_record runner (some value) fun result same => ?_)
    exact Option.some.inj same ▸ handed value (List.mem_singleton_self value)
  | advance runner => exact Exec.abides_giving_none (Exec.abides_advance runner)
  | finish runner => exact Exec.abides_giving_some (Exec.abides_finish_runner runner)
  | dequeue =>
    refine Exec.abides_giving_none (Exec.abides_modify _ fun machine abides => ⟨?_, rfl⟩)
    exact machine.abides_microtasks abides _ fun microtask listed => abides.microtasks microtask (List.mem_of_mem_tail listed)
  | serve fuel => exact Exec.abides_giving_none (Engine.abides_service_events _ .empty)
  | settle task value =>
    exact Exec.abides_giving_none (Exec.abides_settle_task task value (handed value (List.mem_singleton_self value)))
  | consume task => exact Exec.abides_giving_some (Exec.abides_consume_task task)
  | aside ready halted depth clock asyncFrames =>
    exact Exec.abides_giving_none (Exec.abides_quiet _ fun _ => ⟨_, _, _, _, _, _, _, _, _, _, _, _, rfl⟩)

theorem Underway.abides (law : ValueLaw) {config : Config} {hand : List Value} {machine : Machine}
    (underway : Underway config hand machine) :
    machine.Abides law ∧ ∀ value ∈ hand, law.Holds machine.extent value := by
  induction underway with
  | start => exact ⟨Machine.start_abides law config, List.forall_mem_nil _⟩
  | done hand values machine after _ stroke handed ran ih =>
    have keeps := stroke.abides_step (fun value given => ih.2 value (handed value given)) machine ih.1 rfl
    rw [ran] at keeps
    obtain ⟨kept, more, holds⟩ := keeps
    refine ⟨kept, fun value listed => ?_⟩
    rcases List.mem_append.mp listed with new | old
    · exact holds value new
    · exact law.more more (ih.2 value old)
  | failed hand machine after _ stroke handed failure ran ih =>
    have keeps := stroke.abides_step (fun value given => ih.2 value (handed value given)) machine ih.1 rfl
    rw [ran] at keeps
    exact ⟨keeps.1, fun value listed => law.more keeps.2 (ih.2 value listed)⟩

end CoopScript
