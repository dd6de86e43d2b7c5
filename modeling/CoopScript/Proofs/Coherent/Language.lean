import CoopScript.Machine.Builtin
import CoopScript.Proofs.Coherent.Primitive
import CoopScript.Proofs.Conduct.Language
import CoopScript.Proofs.Conduct.Schedule

set_option autoImplicit false
namespace CoopScript

-- As a conduct a law looks at one engine, which runs no native code but the interpreter's own.
def ValueLaw.conduct (law : ValueLaw) : Conduct where
  World := Extent
  Grows fewer more := fewer ≤ more
  still := le_refl
  grow := le_trans
  Good := law.Holds
  Admits code := ∃ builtin, code = .builtin builtin
  more := law.more
  member := law.member
  items := law.items_found
  native holds function code known body :=
    Value.plain_function _ (law.plain holds) function known code body
  hook holds code hook := Value.plain_call_foreign _ (law.plain holds) code hook
  constant admits _ := absurd admits (Native.behaviour_foreign _)
  Keeps extent _ step _ := step.Abides law extent fun more => Valued.All (law.Holds more)
  pure value good := Exec.abides_pure value good
  bind next _ abides later := Exec.abides_bind next abides later
  exhausted := Exec.abides_exhausted
  refuse _ _ _ := Exec.abides_raise _
  misplaced engine _ _ _ _ _ _ cause refused := by
    rw [engine.bind_all_refused _ _ _ _ _ _ cause refused]
    exact Exec.abides_raise _
  placed _ _ _ _ _ _ _ _ evaluates _ abides := evaluates ▸ Exec.abides_map_failure _ abides
  look _ next _ later := Exec.abides_look _ next fun machine abides reaches => later _ machine abides reaches
  scalar := Exec.abides_scalar
  array := Exec.abides_array
  lookUp := Exec.abides_look_up _
  assign := Exec.abides_assign _
  writeLine _ := Exec.abides_quiet _ fun _ => ⟨_, _, _, _, _, _, _, _, _, _, _, _, rfl⟩
  halt := Exec.abides_quiet _ fun _ => ⟨_, _, _, _, _, _, _, _, _, _, _, _, rfl⟩
  spawnBlocking outcome := Exec.abides_spawn_blocking (some outcome)
  spawnAsync name lines arguments := Exec.abides_spawn_async name lines arguments _

variable {law : ValueLaw}

theorem ValueLaw.writes (law : ValueLaw) : law.conduct.Writes where
  function _ _ _ _ := Exec.abides_function _ fun _ native => by cases native
  setVariable := Exec.abides_set_variable _
  setReturn := Exec.abides_set_return _
  isUnwinding := Exec.abides_is_unwinding _

theorem ValueLaw.machinery (law : ValueLaw) : law.conduct.Machinery where
  seen _ next _ later := Exec.abides_look _ next fun machine abides reaches => later _ machine abides reaches
  tooDeep _ _ := Exec.abides_fail _
  unsettled := Exec.abides_fail _
  guard cleanup next reraises abides cleanups laters := by
    refine Exec.abides_bind _ (Exec.abides_attempt abides) fun more outcome _ known => ?_
    refine Exec.abides_bind _ (cleanups more) fun most result fewer good => ?_
    cases outcome with
    | ok value => exact laters most result value good (Valued.mono (fun _ => law.more fewer) (known value rfl))
    | error failure =>
      rw [reraises]
      exact Exec.abides_raise failure
  quiet change quiet := Exec.abides_quiet change fun machine => by
    obtain ⟨clock, ready, depth, same⟩ := quiet machine
    exact ⟨_, clock, ready, _, _, _, depth, _, _, _, _, _, same⟩
  push caller := Exec.abides_push caller true
  release := Exec.abides_release
  takeReturn := Exec.abides_take_return
  createRunner := Exec.abides_create_runner
  updateRunner id change kept := Exec.abides_update_runner id change fun runner _ last => .inl (kept runner ▸ last)
  record := Exec.abides_record
  advance := Exec.abides_advance
  finishRunner := Exec.abides_finish_runner
  consume := Exec.abides_consume_task

namespace Exec
variable {extent : Extent}

theorem abides_poll_pool : pollPool.Abides law extent fun _ _ => True := by
  have forgets : ∀ more : Extent, forgetPool.Abides law more fun _ _ => True := fun more =>
    abides_bind _ (abides_quiet _ fun _ => ⟨_, _, _, _, _, _, _, _, _, _, _, _, rfl⟩) fun _ _ _ _ => abides_pure _ trivial
  refine abides_bind _ (abides_seen _) fun _ known _ _ => ?_
  cases known with
  | none => exact forgets _
  | some pool =>
    refine abides_bind _ (abides_quiet _ fun _ => ⟨_, _, _, _, _, _, _, _, _, _, _, _, rfl⟩) fun _ _ _ _ => ?_
    refine abides_bind _ (abides_seen _) fun _ clock _ _ => ?_
    refine abides_bind _ (abides_quiet _ fun _ => ⟨_, _, _, _, _, _, _, _, _, _, _, _, rfl⟩) fun _ _ _ _ => ?_
    split
    · split
      · exact forgets _
      · exact abides_pure _ trivial
    · have settles (more : Extent) (job : Job) : (enqueueMicrotask job.microtask).Abides law more fun _ _ => True := by
        refine abides_enqueue job.microtask fun actions same => ?_
        unfold Job.microtask at same
        split at same <;> cases same
      exact abides_bind _ (abides_each _ _ fun more job _ _ => settles more job) fun _ _ _ _ => abides_pure _ trivial

end Exec

structure Invocation.Abides (law : ValueLaw) (extent : Extent) (invocation : Invocation) : Prop where
  target : law.Holds extent invocation.target
  function : law.Holds extent invocation.function
  arguments : invocation.arguments.All (law.Holds extent)

structure Engine.Abides (law : ValueLaw) (engine : Engine) : Prop where
  evaluate : ∀ extent node frame, (engine.evaluate node frame).Abides law extent law.Holds
  execute : ∀ extent node frame, (engine.execute node frame).Abides law extent
    fun more result => ∀ value, result = some value → law.Holds more value
  native : ∀ extent code invocation, invocation.Abides law extent →
    (engine.native (.builtin code) invocation).Abides law extent law.Holds
  body : ∀ extent lines frame, (engine.body lines frame).Abides law extent
    fun more result => ∀ value, result = some value → law.Holds more value

namespace Engine
variable (engine : Engine) (abides : engine.Abides law) {extent : Extent}
include abides

theorem abides_execute_line (node : Node) (frame : FrameId) : (engine.executeLine node frame).Abides law extent
    fun more result => ∀ value, result = some value → law.Holds more value :=
  Exec.abides_map_failure (trace node) (abides.execute extent node frame)

theorem abides_drives : law.conduct.Drives engine engine where
  fuel := rfl
  line := engine.abides_execute_line abides
  body := abides.body _

theorem abides_run_block (lines : List Node) (frame : FrameId) : (engine.runBlock lines frame).Abides law extent
    fun more result => ∀ value, result = some value → law.Holds more value :=
  (engine.abides_drives abides).run_block law.machinery extent frame lines frame

theorem abides_run_body (lines : List Node) (frame : FrameId) : (engine.runBody lines frame).Abides law extent
    fun more result => ∀ value, result = some value → law.Holds more value :=
  (engine.abides_drives abides).run_body law.machinery extent frame lines frame

theorem abides_run_frame (name : String) (lines : List Node) (frame : FrameId) :
    (engine.runFrame name lines frame).Abides law extent law.Holds :=
  (engine.abides_drives abides).run_frame law.machinery extent frame name lines frame

theorem abides_invoke_script (name : String) (lines : List Node) (arguments : Bindings) (caller : FrameId)
    (known : arguments.All (law.Holds extent)) :
    (engine.invokeScript name lines arguments caller).Abides law extent law.Holds :=
  (engine.abides_drives abides).invoke_script law.machinery extent caller name lines arguments caller known

theorem abides_run_microtask (task : Microtask) (scripted : ∀ actions, task ≠ .host actions) :
    (engine.runMicrotask task).Abides law extent fun _ _ => True := by
  cases task with
  | asyncBody task name lines frame =>
    refine Exec.abides_bind _ (Exec.abides_quiet _ fun _ => ⟨_, _, _, _, _, _, _, _, _, _, _, _, rfl⟩) fun _ _ _ _ => ?_
    refine Exec.abides_bind _ (Exec.abides_attempt (engine.abides_run_frame abides name lines frame))
      fun _ outcome _ known => ?_
    refine Exec.abides_bind _ (Exec.abides_release frame) fun more _ fewer _ => ?_
    have gives : (Exec.ofOutcome outcome).Abides law more law.Holds :=
      Exec.abides_of_outcome outcome fun value same => law.more fewer (known value same)
    exact Exec.abides_bind _ gives fun _ value _ valueHolds => Exec.abides_settle_task task value valueHolds
  | settle task value =>
    exact Exec.abides_bind _ (Exec.abides_scalar value) fun _ value _ known => Exec.abides_settle_task task value known
  | panicked task => exact Exec.abides_fail _
  | host actions => exact absurd rfl (scripted actions)

theorem abides_drain_step (report : TickReport) : (engine.drainStep report).Abides law extent
    fun _ => Sum.elim (fun _ => True) fun _ => True := by
  refine Exec.abides_look _ _ fun machine machineAbides reaches => ?_
  cases next : machine.microtasks with
  | nil => exact Exec.abides_pure _ trivial machine machineAbides reaches
  | cons task rest =>
    have waiting := machineAbides.microtasks
    rw [next] at waiting
    simp only
    rw [Exec.modify_then]
    have taken := machine.abides_microtasks machineAbides rest fun other listed => waiting other (List.mem_cons_of_mem _ listed)
    refine Exec.abides_bind _ (engine.abides_run_microtask abides task (waiting task List.mem_cons_self)) (fun _ _ _ _ => ?_)
      { machine with microtasks := rest } taken reaches
    refine Exec.abides_bind _ (Exec.abides_seen _) fun _ halted _ _ => ?_
    split <;> exact Exec.abides_pure _ trivial

omit abides in
theorem abides_service_event (id : EventId) (event : Microevent) (scripted : ∀ turns next, event ≠ .host turns next) :
    (engine.serviceEvent id event).Abides law extent fun _ _ => True := by
  have polls : event = .pollPool := by
    cases event with
    | pollPool => rfl
    | host turns next => exact absurd rfl (scripted turns next)
  rw [polls]
  refine Exec.abides_bind _ (Exec.abides_set_event id none fun _ _ same => by cases same) fun _ _ _ _ => ?_
  refine Exec.abides_bind _ (Exec.abides_attempt Exec.abides_poll_pool) fun _ outcome _ _ => ?_
  have ends (more : Extent) : (Exec.ofOutcome outcome).Abides law more fun _ _ => True :=
    Exec.abides_of_outcome outcome fun _ _ => trivial
  split
  · exact Exec.abides_bind _ (Exec.abides_remove_event id) fun _ _ _ _ => ends _
  · exact Exec.abides_bind _ (Exec.abides_set_event id _ fun _ _ same => by cases same) fun _ _ _ _ => ends _

omit abides in
theorem abides_service_all (ids : List EventId) (report : TickReport) :
    (engine.serviceAll ids report).Abides law extent fun _ _ => True := by
  induction ids generalizing report extent with
  | nil => exact Exec.abides_pure report trivial
  | cons id rest ih =>
    have known : (Exec.read (·.event? id)).Abides law extent fun _ found =>
        ∀ event, found = some event → ∀ turns next, event ≠ .host turns next := by
      refine Exec.abides_read _ fun machine machineAbides _ event found turns next same => ?_
      obtain ⟨entry, listed, holds⟩ := Option.bind_eq_some_iff.mp found
      exact machineAbides.events entry (List.mem_of_find?_eq_some listed) turns next (same ▸ holds)
    refine Exec.abides_bind _ known fun _ found _ scripted => ?_
    cases found with
    | none => exact ih report
    | some event =>
      refine Exec.abides_bind _ (engine.abides_service_event id event (scripted event rfl)) fun _ status _ _ => ?_
      refine Exec.abides_bind _ (Exec.abides_seen _) fun _ halted _ _ => ?_
      cases halted with
      | true => exact Exec.abides_pure _ trivial
      | false => exact ih _

omit abides in
theorem abides_service_events (report : TickReport) : (engine.serviceEvents report).Abides law extent fun _ _ => True :=
  Exec.abides_bind _ (Exec.abides_seen _) fun _ ids _ _ => engine.abides_service_all ids report

theorem abides_serves : law.conduct.Serves engine engine where
  toDrives := engine.abides_drives abides
  drain := engine.abides_drain_step abides
  events := engine.abides_service_events

theorem abides_tick : engine.tick.Abides law extent fun _ _ => True :=
  (engine.abides_serves abides).tick law.machinery extent Arena.root

theorem abides_run : engine.run.Abides law extent fun _ _ => True :=
  (engine.abides_serves abides).run law.machinery extent Arena.root

theorem abides_await (task : TaskId) : (engine.await task).Abides law extent law.Holds :=
  (engine.abides_serves abides).await law.machinery extent Arena.root task

end Engine

theorem Exec.abides_reset {extent : Extent} : Exec.reset.Abides law extent fun _ _ => True := by
  have cleared : (modify fun machine => { machine with ready := [], microtasks := [] }).Abides law extent fun _ _ => True :=
    abides_modify _ fun machine abides => by
      obtain ⟨kept, same⟩ := machine.abides_aside abides { machine with ready := [] } rfl rfl rfl rfl rfl rfl rfl
      exact ⟨Machine.abides_microtasks _ kept [] (List.forall_mem_nil _), same⟩
  have dropped (more : Extent) : (modify fun machine => { machine with
      events := machine.events.filter fun entry => some entry.1 = machine.poolEvent, depth := 0 }).Abides law more fun _ _ => True :=
    abides_modify _ fun machine abides => by
      obtain ⟨kept, same⟩ := machine.abides_aside abides { machine with depth := 0 } rfl rfl rfl rfl rfl rfl rfl
      exact ⟨Machine.abides_events _ kept _ fun entry listed => abides.events entry (List.mem_filter.mp listed).1, same⟩
  refine abides_bind _ cleared fun _ _ _ _ => abides_bind _ (abides_seen _) fun _ frames _ _ => ?_
  refine abides_bind _ (abides_quiet _ fun _ => ⟨_, _, _, _, _, _, _, _, _, _, _, _, rfl⟩) fun _ _ _ _ => ?_
  refine abides_bind _ (abides_each _ frames fun _ frame _ _ => abides_release frame) fun _ _ _ _ => ?_
  refine abides_bind _ (abides_seen _) fun _ ids _ _ => ?_
  refine abides_bind _ (abides_each _ ids fun _ id _ _ => ?_) fun more _ _ _ => dropped more
  exact abides_bind _ (abides_finish_runner id) fun _ _ _ _ => abides_pure () trivial

namespace Engine
variable (engine : Engine) (abides : engine.Abides law) {extent : Extent}
include abides

theorem abides_guides : law.conduct.Guides engine engine where
  fuel := rfl
  evaluate := abides.evaluate
  native extent code invocation admits suits := by
    obtain ⟨builtin, rfl⟩ := admits
    exact abides.native extent builtin invocation ⟨suits.target, suits.function, suits.arguments⟩
  actions _ _ _ admits := absurd admits (Native.behaviour_foreign _)
  script _ := engine.abides_invoke_script abides
  await _ _ := engine.abides_await abides

theorem abides_blocks : law.conduct.Blocks engine engine := fun _ => engine.abides_run_block abides

theorem abides_call (target function : Value) (arguments : List Node) (frame : FrameId) (targetHolds : law.Holds extent target)
    (holds : law.Holds extent function) :
    (engine.call target function arguments frame).Abides law extent law.Holds := by
  have keeps : law.conduct.Keeps extent frame _ _ :=
    (engine.abides_guides abides).call target function arguments targetHolds holds
  exact keeps

theorem abides_run_builtin (code : Builtin) (invocation : Invocation) (known : invocation.Abides law extent) :
    (engine.runBuiltin code invocation).Abides law extent law.Holds := by
  have suits : law.conduct.Suits extent invocation := ⟨known.target, known.function, known.arguments⟩
  exact (engine.abides_guides abides).run_builtin code invocation suits

end Engine

-- An engine with more fuel abides by the law when the one that runs the parts does.
theorem RuleSet.abides_engine (fuel : Nat) : (standard.engine fuel).Abides law := by
  induction fuel with
  | zero => exact ⟨fun _ _ _ => Exec.abides_exhausted, fun _ _ _ => Exec.abides_exhausted,
      fun _ _ _ _ => Exec.abides_exhausted, fun _ _ _ => Exec.abides_exhausted⟩
  | succ fuel ih =>
    have guides := (standard.engine fuel).abides_guides ih
    have evaluates := Conduct.standard_evaluates guides
    have executes := Conduct.standard_executes guides law.writes ((standard.engine fuel).abides_blocks ih).nests
    exact
      { evaluate := evaluates.keeps
        execute := executes.keeps evaluates
        native := fun _ code invocation known => (standard.engine fuel).abides_run_builtin ih code invocation known
        body := fun _ lines frame => (standard.engine fuel).abides_run_body ih lines frame }

end CoopScript
