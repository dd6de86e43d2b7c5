import CoopScript.Proofs.Stage.Memory

set_option autoImplicit false
namespace CoopScript

structure Invocation.Plain (invocation : Invocation) : Prop where
  target : invocation.target.Plain
  function : invocation.function.Plain
  arguments : invocation.arguments.All Value.Plain

-- An engine of the standard rules that runs nodes, the usual natives and the lines of functions by lawful steps.
structure Engine.Lawful (engine : Engine) : Prop where
  standard : ∃ fuel, engine = RuleSet.standard.engine fuel
  evaluate : ∀ node frame, (engine.evaluate node frame).Lawful Value.Plain
  execute : ∀ node frame, (engine.execute node frame).Lawful fun _ => True
  native : ∀ code invocation, (∃ builtin, code = .builtin builtin) → invocation.Plain →
    (engine.native code invocation).Lawful Value.Plain
  body : ∀ lines frame, (engine.body lines frame).Lawful
    fun result => ∀ value, result = some value → value.Plain

namespace Stage

section Enclosed
variable {α β γ : Type} (stage inner : Stage) (good : α → Prop) (fine : β → Prop) (opening : Exec γ) (key : γ)
  (body : γ → Exec α) (rest : γ → Except Failure α → Exec β)
  (opens : opening stage.machine = .done key inner.machine) (opened : Step stage inner) (within : stage.Within inner)
include opens opened within

omit within in
theorem takes_opened (middle machine : Machine) (outcome : Except Failure α)
    (ran : (body key).attempt inner.machine = .done outcome middle) (takes : (body key).Takes inner (inner.put middle))
    (left : (rest key outcome middle).Leaves machine) (closed : (inner.put middle).Stroke (stage.put machine)) :
    Exec.Takes (do
      let key ← opening
      let outcome ← (body key).attempt
      rest key outcome) stage (stage.put machine) := by
  refine .done opening _ stage inner _ key opens (.stroke opening stage inner (.inl ⟨key, opens⟩) (.inr (.inl opened))) ?_
  refine .done (body key).attempt (rest key) inner (inner.put middle) _ outcome ran (.attempt _ _ _ takes) ?_
  exact .stroke (rest key outcome) _ _ left closed

omit within in
theorem comes_opened {δ : Type} (step : Exec δ) (place : Stage) (comes : (body key).Comes inner step place) :
    Exec.Comes (do
      let key ← opening
      let outcome ← (body key).attempt
      rest key outcome) stage step place := by
  refine .next opening _ stage inner key opens (.stroke opening stage inner (.inl ⟨key, opens⟩) (.inr (.inl opened))) _ _ ?_
  exact .first _ (rest key) inner step place (.attempt _ _ _ _ comes)

theorem follows_enclosed (sound : inner.Sound) (follows : inner.Follows good (body key))
    (closes : ∀ value middle, (inner.put middle).Sound → middle.registered.Perm inner.machine.registered → good value →
      (∃ answer machine, rest key (.ok value) middle = .done answer machine ∧ fine answer ∧
          Step (inner.put middle) (stage.put machine) ∧ machine.registered.Perm stage.machine.registered) ∨
        ∃ failure machine, rest key (.ok value) middle = .failed failure machine ∧ ¬ failure.IsStranding ∧
          Unwind (inner.put middle) (stage.put machine) ∧ machine.registered.Perm stage.machine.registered)
    (passes : ∀ failure middle, (inner.put middle).Sound → middle.registered.Perm inner.machine.registered →
      ∃ machine, rest key (.error failure) middle = .failed failure machine ∧
        Unwind (inner.put middle) (stage.put machine) ∧ machine.registered.Perm stage.machine.registered) :
    stage.Follows fine (do
      let key ← opening
      let outcome ← (body key).attempt
      rest key outcome) := by
  have entered : stage.Leads stage inner := .single ⟨opened, within⟩
  have last : ∀ machine, machine.registered.Perm stage.machine.registered → stage.Within (stage.put machine) :=
    fun machine registered => within_put stage stage machine registered (within_refl stage)
  have runs : ∀ outcome middle, (body key).attempt inner.machine = .done outcome middle →
      (opening >>= fun key => (body key).attempt >>= rest key) stage.machine = rest key outcome middle :=
    fun outcome middle ran => (Exec.bind_done _ _ _ _ key opens).trans (Exec.bind_done _ _ _ middle outcome ran)
  rcases Exec.follows_cases inner good (body key) follows with
    ⟨value, middle, done, reaches, fineValue⟩ | ⟨failure, middle, failed, breaks⟩ | exhausted
  · have ran : (body key).attempt inner.machine = .done (.ok value) middle := by simp [Exec.attempt, done]
    have run := entered.trans (leads_within inner stage _ _ within reaches.leads)
    have takes := fun machine => stage.takes_opened inner _ key body rest opens opened middle machine _ ran
      reaches.takes
    rcases closes value middle (reaches_sound inner _ middle sound reaches) reaches.registered fineValue with
      ⟨answer, machine, given, fineAnswer, closed, registered⟩ | ⟨failure, machine, refused, other, unwound, registered⟩
    · exact Exec.follows_done stage fine _ answer machine ((runs _ _ ran).trans given)
        ⟨registered, takes machine (.inl ⟨answer, given⟩) (.inr (.inl closed)),
          run.tail ⟨closed, last machine registered⟩⟩ fineAnswer
    · exact Exec.follows_failed stage fine _ failure machine ((runs _ _ ran).trans refused)
        ⟨registered, takes machine (.inr ⟨failure, refused⟩) (.inr (.inr unwound)), inner.put middle, run,
          fun cause has stranding => absurd ⟨cause, has, stranding⟩ other,
          .single ⟨unwound, last machine registered⟩⟩
  · have ran : (body key).attempt inner.machine = .done (.error failure) middle := by simp [Exec.attempt, failed]
    obtain ⟨raising, leads, strands, leaves⟩ := breaks.raised
    obtain ⟨machine, passed, unwound, registered⟩ :=
      passes failure middle (breaks_sound inner _ failure middle sound breaks) breaks.registered
    refine Exec.follows_failed stage fine _ failure machine ((runs _ _ ran).trans passed) ⟨registered,
      stage.takes_opened inner _ key body rest opens opened middle machine _ ran breaks.takes
        (.inr ⟨failure, passed⟩) (.inr (.inr unwound)),
      raising, entered.trans (leads_within inner stage _ _ within leads), fun cause has stranding => ?_,
      (leaves_within inner stage _ _ within leaves).tail ⟨unwound, last machine registered⟩⟩
    obtain ⟨δ, step, place, comes, impasse⟩ := strands cause has stranding
    exact ⟨δ, step, place, stage.comes_opened inner _ key body rest opens opened step place comes, impasse⟩
  · have ran : (body key).attempt inner.machine = .outOfFuel := by simp [Exec.attempt, exhausted]
    exact Exec.follows_exhausted stage fine _
      ((Exec.bind_done _ _ _ _ key opens).trans (Exec.bind_exhausted _ _ _ ran))

theorem follows_closed {δ : Type} (close : γ → Exec δ) (give : Except Failure α → δ → Exec β) (sound : inner.Sound)
    (follows : inner.Follows good (body key))
    (closes : ∀ middle, (inner.put middle).Sound → middle.registered.Perm inner.machine.registered →
      ∃ result machine, close key middle = .done result machine ∧ Closing (inner.put middle) (stage.put machine) ∧
        machine.registered.Perm stage.machine.registered)
    (passes : ∀ failure result machine, give (.error failure) result machine = .failed failure machine)
    (gives : ∀ value result machine, good value → (stage.put machine).Sound → ∃ answer,
      give (.ok value) result machine = .done answer machine ∧ fine answer) :
    stage.Follows fine (do
      let key ← opening
      let outcome ← (body key).attempt
      let result ← close key
      give outcome result) := by
  refine stage.follows_enclosed inner good fine opening key body (fun key outcome => close key >>= give outcome) opens
    opened within sound follows (fun value middle middleSound same fineValue => .inl ?_) fun failure middle middleSound same => ?_
  · obtain ⟨result, machine, closing, closed, registered⟩ := closes middle middleSound same
    obtain ⟨answer, given, fineAnswer⟩ := gives value result machine fineValue (closing_sound _ _ middleSound closed)
    exact ⟨answer, machine, (Exec.bind_done _ _ _ _ result closing).trans given, fineAnswer, .closing _ _ closed, registered⟩
  · obtain ⟨result, machine, closing, closed, registered⟩ := closes middle middleSound same
    exact ⟨machine, (Exec.bind_done _ _ _ _ result closing).trans (passes failure result machine), .closing _ _ closed,
      registered⟩

end Enclosed

end Stage

namespace Exec

theorem create_runner_cases (lines : List Node) (frame : FrameId) (stage : Stage) (sound : stage.Sound) :
    (∃ id opened, createRunner lines frame stage.machine = .done id opened) ∨
      createRunner lines frame stage.machine = .failed (.of (.staleFrame frame.index)) stage.machine := by
  cases retained : stage.machine.frames.retain frame with
  | error cause =>
    have stale := Arena.update_fault stage.machine.frames frame _ cause retained
    exact .inr (by simp [createRunner, Bind.bind, bind, retainFrame, updateFrames, retained, stale])
  | ok frames =>
    have kept := Arena.kept_retain _ frames _ frame sound.ledger retained
    obtain ⟨answer, asked⟩ :=
      Arena.function_frame_answers frames _ frame kept (kept.live frame (by simp))
    exact .inl ⟨_, _, create_runner_creates lines frame answer stage.machine frames retained asked⟩

theorem registered_opened (lines : List Node) (frame : FrameId) (id : RunnerId) (machine opened : Machine)
    (created : createRunner lines frame machine = .done id opened) :
    opened.registered = machine.registered ++ [(id, frame)] := by
  obtain ⟨frames, functionFrame, _, _, rfl, rfl⟩ := create_runner_done lines frame id machine opened created
  simp [Machine.registered]

theorem finish_runner_registered (id : RunnerId) (frame : FrameId) (stage : Stage) (sound : stage.Sound)
    (registered : (id, frame) ∈ stage.machine.registered) :
    ∃ last after, finishRunner id stage.machine = .done last after ∧
      ((id, frame) :: after.registered).Perm stage.machine.registered := by
  obtain ⟨calls, held, machine⟩ := stage
  obtain ⟨entry, member, same⟩ := List.mem_map.mp registered
  obtain ⟨name, runner⟩ := entry
  obtain ⟨rfl, rfl⟩ := Prod.mk.inj same
  have known : machine.runner? name = some runner :=
    Machine.runner_listed machine name runner sound.numbered.distinct member
  obtain ⟨frames, released, _, _⟩ :=
    Arena.kept_release machine.frames _ runner.frame
      (Stage.runner_ledger calls held machine name runner known sound)
  refine ⟨runner.last, { machine with runners := Machine.swapErase name machine.runners, frames := frames },
    ?_, Machine.registered_erased machine name runner known⟩
  simp [finishRunner, Bind.bind, bind, read, known, modify, releaseFrame, released, Pure.pure, pure]

end Exec

namespace Engine

section Lines
variable (engine : Engine) (lawful : engine.Lawful)
include lawful

theorem lawful_execute_line (node : Node) (frame : FrameId) :
    (engine.executeLine node frame).Lawful fun _ => True := by
  apply Exec.lawful_map_failure _ (trace node) _ _ (lawful.execute node frame)
  intro failure cause same
  exact Failure.traced_cause node failure cause same

theorem lawful_step (id : RunnerId) : (engine.step id).Lawful fun _ => True := by
  apply Exec.lawful_bind (fun _ => True) _ _ _ (Exec.lawful_seen _)
  intro halted _
  apply Exec.lawful_bind (fun _ => True) _ _ _ (Exec.lawful_seen _)
  intro returned _
  split
  · exact Exec.lawful_pure _ _ trivial
  · apply Exec.lawful_bind (fun _ => True) _ _ _ (Exec.lawful_seen _)
    intro known _
    cases known with
    | none => exact Exec.lawful_pure _ _ trivial
    | some runner =>
      cases lines : runner.lines with
      | nil =>
        simp only [lines]
        refine Exec.lawful_bind (fun _ => True) _ _ _
          (Exec.lawful_update_runner id (fun runner => { runner with finished := true }) fun _ => rfl) ?_
        exact fun _ _ => Exec.lawful_pure _ _ trivial
      | cons node rest =>
        simp only [lines]
        refine Exec.lawful_bind (fun _ => True) _ _ _
          (Exec.lawful_update_runner id (fun runner => { runner with lines := rest }) fun _ => rfl) ?_
        intro _ _
        apply Exec.lawful_bind (fun _ => True) _ _ _ (engine.lawful_execute_line lawful node runner.frame)
        intro value _
        apply Exec.lawful_bind (fun _ => True) _ _ _ (Exec.lawful_record id value)
        exact fun _ _ => Exec.lawful_pure _ _ trivial

theorem lawful_drive (id : RunnerId) : (engine.drive id).Lawful fun _ => True := by
  apply Exec.lawful_iterate (fun _ => True) (fun _ => True)
  · intro _ _
    apply Exec.lawful_weaken _ _ _ (engine.lawful_step lawful id)
    intro result _
    cases result <;> trivial
  · trivial

theorem lawful_run_block (lines : List Node) (frame : FrameId) :
    (engine.runBlock lines frame).Lawful fun _ => True := by
  intro stage sound
  rcases Exec.create_runner_cases lines frame stage sound with ⟨id, opened, created⟩ | failed
  · have step : Step stage (stage.put opened) := .openBlock stage lines frame id opened created
    have innerSound := step_sound stage _ sound step
    have registered := Exec.registered_opened lines frame id stage.machine opened created
    have within : stage.Within (stage.put opened) := by
      refine ⟨List.suffix_refl _, rfl, fun entry member => ?_⟩
      rw [Stage.put, registered]
      exact List.mem_append_left _ member
    apply Stage.follows_closed stage (stage.put opened) (fun _ => True) _ (Exec.createRunner lines frame) id engine.drive
      created step within Exec.finishRunner _ innerSound (engine.lawful_drive lawful id _ innerSound)
    · intro middle middleSound same
      have listed : (id, frame) ∈ middle.registered := by
        refine same.symm.subset ?_
        simp [Stage.put, registered]
      obtain ⟨last, after, finished, left⟩ :=
        Exec.finish_runner_registered id frame (stage.put middle) middleSound listed
      refine ⟨last, after, finished, .closeBlock (stage.put middle) id last after finished, ?_⟩
      have whole : ((id, frame) :: after.registered).Perm ((id, frame) :: stage.machine.registered) := by
        refine left.trans (same.trans ?_)
        simp only [Stage.put, registered]
        exact List.perm_append_singleton _ _
      exact (List.perm_cons _).mp whole
    · exact fun _ _ _ => rfl
    · exact fun _ last machine _ _ => ⟨last, rfl, trivial⟩
  · exact Exec.follows_refused stage _ _ _ (Exec.bind_failed _ _ _ _ _ failed) (Exec.not_stranding _ rfl)

theorem lawful_run_body (lines : List Node) (frame : FrameId) :
    (engine.runBody lines frame).Lawful fun result => ∀ value, result = some value → value.Plain := by
  apply Exec.lawful_bind (fun _ => True) _ _ _ (engine.lawful_run_block lawful lines frame)
  exact fun _ _ => Exec.lawful_take_return frame

omit lawful in
theorem run_frame_refused (name : String) (lines : List Node) (frame : FrameId) (machine : Machine)
    (deep : machine.config.depthLimit ≤ machine.depth) :
    engine.runFrame name lines frame machine =
      .failed (.of (.depthExceeded machine.config.depthLimit name)) machine := by
  unfold runFrame
  rw [Exec.read_then, Exec.read_then, if_pos deep]
  rfl

theorem run_frame_follows (name : String) (lines : List Node) (frame place : FrameId)
    (task : Option TaskId) (calls : List Call) (held : List FrameId) (machine : Machine)
    (sound : (Stage.mk (⟨place, task, false⟩ :: calls) held machine).Sound) :
    (Stage.mk (⟨place, task, false⟩ :: calls) held machine).Follows Value.Plain
      (engine.runFrame name lines frame) := by
  by_cases deep : machine.config.depthLimit ≤ machine.depth
  · have refused := engine.run_frame_refused name lines frame machine deep
    have refuses : (Stage.mk (⟨place, task, false⟩ :: calls) held machine).Refuses machine.config.depthLimit :=
      ⟨rfl, _, calls, rfl, rfl, deep.trans (Nat.le_of_eq (by simpa using sound.depth))⟩
    refine Exec.follows_failed _ _ _ _ machine refused ⟨.refl _,
      .stroke _ _ _ (.inr ⟨_, refused⟩) (.inl rfl), _, .refl, fun cause has _ => ?_, .refl⟩
    obtain rfl := Exec.cause_of _ cause has
    obtain ⟨fuel, rfl⟩ := lawful.standard
    exact ⟨_, _, _, .here _ _, .refused fuel name lines frame _ _ refused refuses⟩
  · refine Exec.follows_look _ sound _ _ _ (Exec.follows_look _ sound _ _ _ ?_)
    rw [if_neg deep]
    have step : Step ⟨⟨place, task, false⟩ :: calls, held, machine⟩ ⟨⟨place, task, true⟩ :: calls, held,
        { machine with depth := machine.depth + 1 }⟩ := .beginRun place task calls held machine
    have innerSound := step_sound _ _ sound step
    apply Stage.follows_closed _ _ (fun result => ∀ value, result = some value → value.Plain) Value.Plain
      (Exec.modify fun machine => { machine with depth := machine.depth + 1 }) () (fun _ => engine.body lines frame) rfl
      step ⟨List.suffix_refl _, rfl, fun _ member => member⟩
      (fun _ => Exec.modify fun machine => { machine with depth := machine.depth - 1 }) _ innerSound
      (lawful.body lines frame _ innerSound)
    · intro middle _ registered
      exact ⟨(), _, rfl, .endRun place task calls held middle, registered⟩
    · exact fun _ _ _ => rfl
    · intro result _ after fine afterSound
      cases result with
      | some value => exact ⟨value, rfl, fine value rfl⟩
      | none => exact ⟨_, rfl, after.classes.plain_void afterSound.plain.classes⟩

theorem lawful_invoke_script (name : String) (lines : List Node) (arguments : Bindings)
    (caller : FrameId) (plain : arguments.All Value.Plain) :
    (engine.invokeScript name lines arguments caller).Lawful Value.Plain := by
  intro stage sound
  cases pushed : stage.machine.frames.push caller true arguments with
  | error cause =>
    have failed : Exec.pushFrame caller true arguments stage.machine = .failed (.of cause) stage.machine := by
      simp [Exec.pushFrame, Exec.changeFrames, pushed]
    refine Exec.follows_refused stage _ _ _ (Exec.bind_failed _ _ _ _ _ failed) (Exec.not_stranding cause ?_)
    obtain rfl := Arena.push_fault _ caller true arguments _ pushed
    rfl
  | ok result =>
    obtain ⟨frame, frames⟩ := result
    have opened : Exec.pushFrame caller true arguments stage.machine =
        .done frame { stage.machine with frames := frames } := by
      simp [Exec.pushFrame, Exec.changeFrames, pushed]
    have step := Step.openCall stage caller frame arguments _ plain opened
    have innerSound := step_sound _ _ sound step
    apply Stage.follows_closed stage _ Value.Plain Value.Plain (Exec.pushFrame caller true arguments) frame
      (engine.runFrame name lines) opened step ⟨List.suffix_cons _ _, rfl, fun _ member => member⟩
      Exec.releaseFrame (fun outcome _ => Exec.ofOutcome outcome) innerSound
      (engine.run_frame_follows lawful name lines frame frame none stage.calls stage.held _ innerSound)
    · intro middle middleSound registered
      obtain ⟨frames, released, _, _⟩ := Exec.release_frame_kept frame _ middle
        (Stage.call_ledger ⟨frame, none, false⟩ stage.calls stage.held middle middleSound)
      exact ⟨(), _, released, .closeCall frame stage.calls stage.held middle _ released, registered⟩
    · exact fun _ _ _ => rfl
    · exact fun value _ _ fine _ => ⟨value, rfl, fine⟩

end Lines

end Engine

end CoopScript
