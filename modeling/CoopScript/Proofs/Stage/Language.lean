import CoopScript.Proofs.Conduct.Language
import CoopScript.Proofs.Stage.Tandem

set_option autoImplicit false
namespace CoopScript

theorem Exec.lawful_spawn_blocking (outcome : Scalar) (milliseconds : Nat) :
    (spawnBlocking (some outcome) milliseconds).Lawful Value.Plain := by
  intro stage sound
  obtain ⟨promise, after, spawned⟩ : ∃ promise after,
      spawnBlocking (some outcome) milliseconds stage.machine = .done promise after := by
    cases polled : stage.machine.poolEvent with
    | none => simp [spawnBlocking, Bind.bind, bind, createTask, modify, read, polled, registerEvent, promise]
    | some event => simp [spawnBlocking, Bind.bind, bind, createTask, modify, read, polled, promise]
  obtain ⟨pool, due, events, eventCount, event, rfl, same, _⟩ :=
    spawn_blocking_done (some outcome) milliseconds promise stage.machine after spawned
  refine follows_step stage _ _ _ after spawned (.submit stage outcome milliseconds _ after spawned) ?_
    (stage.machine.classes.plain_promise sound.plain.classes _)
  rw [same]
  exact .refl _

theorem Cause.ordinary_goes_on (cause : Cause) (ordinary : cause.isOrdinary = true) : cause.isStranding = false := by
  cases cause <;> first | rfl | cases ordinary

theorem Engine.Lawful.tied (engine : Engine) (lawful : engine.Lawful) : Engine.Tied False engine engine :=
  ⟨lawful, rfl, False.elim, False.elim, False.elim⟩

namespace Exec
variable (same : Prop)

theorem tied_refuse {α : Type} (good : α → Prop) (cause : Cause) (place : Option Position)
    (ordinary : cause.isOrdinary = true) :
    (raise (.fault ⟨cause, place, []⟩) : Exec α).Tied same (raise (.fault ⟨cause, place, []⟩)) good := by
  have goesOn := cause.ordinary_goes_on ordinary
  cases place with
  | none => exact tied_inert same good _ (lawful_fail good cause goesOn) (inert_raise _)
  | some position => exact tied_inert same good _ (lawful_fail_at good cause position goesOn) (inert_raise _)

theorem tied_class_value (build : ClassTable → Value)
    (plain : ∀ table : ClassTable, table.Plain → (build table).Plain) :
    (read fun machine => build machine.classes).Tied same (read fun machine => build machine.classes)
      Value.Plain :=
  tied_inert same _ _ (lawful_class_value build plain) (inert_read _ fun _ _ _ => rfl)

theorem tied_void : void.Tied same void Value.Plain := tied_class_value same _ ClassTable.plain_void

end Exec

namespace Conduct
variable (same : Prop)

def tied : Conduct where
  World := Unit
  Grows _ _ := True
  still _ := trivial
  grow _ _ := trivial
  Good _ := Value.Plain
  Admits code := ∃ builtin, code = .builtin builtin
  more _ plain := plain
  member := Value.plain_member _
  items := Value.plain_items _
  native plain function code known body := Value.plain_function _ plain function known code body
  hook plain code hook := Value.plain_call_foreign _ plain code hook
  constant admits _ := Value.constant_plain _ admits
  Keeps _ _ step twin := step.Tied same twin (Valued.All Value.Plain)
  pure value plain := Exec.tied_pure same _ value plain
  bind next later tied further := Exec.tied_bind same _ _ _ _ next later tied fun value plain => further () value trivial plain
  exhausted := Exec.tied_inert same _ _ (Exec.lawful_exhausted _) Exec.inert_exhausted
  refuse := Exec.tied_refuse same _
  misplaced engine twin _ _ binding argument _ cause refused := by
    rw [engine.bind_all_refused _ _ _ _ _ _ cause refused, twin.bind_all_refused _ _ _ _ _ _ cause refused]
    exact Exec.tied_refuse same _ cause _ (binding.place_ordinary _ _ argument cause refused)
  placed _ _ _ _ _ _ position _ evaluates evaluatesTwin tied := by
    rw [evaluates, evaluatesTwin]
    exact Exec.tied_map_failure same _ _ _ _ (Failure.placed_cause (some position)) tied
  look view next later further := Exec.tied_bind same (fun _ => True) _ _ _ next later
    (Exec.tied_seen same _ fun _ _ _ => rfl) fun answer _ => further answer
  scalar content := Exec.tied_class_value same _ fun table plain => table.plain_scalar plain content
  array items plain := Exec.tied_inert same _ _ (Exec.lawful_array items plain) (Exec.inert_array items)
  lookUp name := Exec.tied_inert same _ _ (Exec.lawful_look_up _ name) (Exec.inert_look_up _ name)
  assign name value plain := Exec.tied_inert same _ _ (Exec.lawful_assign _ name value plain) (Exec.inert_assign _ name value)
  writeLine text := Exec.tied_inert same _ _ (Exec.lawful_write_line text) (Exec.inert_write_line text)
  halt := Exec.tied_inert same _ _ Exec.lawful_halt Exec.inert_halt
  spawnBlocking outcome milliseconds := Exec.tied_inert same _ _ (Exec.lawful_spawn_blocking outcome milliseconds)
    (Exec.inert_spawn_blocking _ milliseconds)
  spawnAsync name lines arguments plain :=
    ⟨Exec.lawful_spawn_async name lines arguments _ plain, fun _ => Exec.spawn_async_agrees name lines arguments _⟩

-- What is given back is known of one engine only: twins do not agree on the runners that give it.
theorem tied_writes : (tied False).Writes where
  function _ _ _ _ := ⟨Exec.lawful_function _ fun _ native => (by cases native), False.elim⟩
  setVariable name value plain := ⟨Exec.lawful_set_variable _ name value plain, False.elim⟩
  setReturn value plain := ⟨Exec.lawful_set_return _ value plain, False.elim⟩
  isUnwinding := ⟨Exec.lawful_is_unwinding _, False.elim⟩

theorem tied_nests (engine : Engine) (lawful : engine.Lawful) : (tied False).Nests engine engine :=
  fun _ lines frame _ _ keeps => Exec.tied_bind False (fun _ => True) _ _ _ _ _
    ⟨engine.lawful_run_block lawful lines frame, False.elim⟩ fun _ _ => keeps () trivial

end Conduct

namespace Engine
variable (same : Prop) (engine other : Engine) (tied : Engine.Tied same engine other)
include tied

theorem tied_evaluate (node : Node) (frame : FrameId) :
    (engine.evaluate node frame).Tied same (other.evaluate node frame) Value.Plain :=
  ⟨tied.lawful.evaluate node frame, fun given => tied.evaluate given node frame⟩

theorem tied_guides : (Conduct.tied same).Guides engine other where
  fuel := tied.fuel
  evaluate _ := engine.tied_evaluate same other tied
  native _ code invocation admits suits := by
    have plain : invocation.Plain := ⟨suits.target, suits.function, suits.arguments⟩
    exact ⟨tied.lawful.native code invocation admits plain, fun given => tied.native given code invocation admits plain⟩
  actions _ _ _ admits := absurd admits (Native.behaviour_foreign _)
  script _ name lines arguments caller plain :=
    ⟨engine.lawful_invoke_script tied.lawful name lines arguments caller plain,
      fun given => engine.invoke_script_agrees same other tied given name lines arguments caller plain⟩
  await _ _ := engine.tied_await same other tied

theorem tied_bind_arguments (function : String) (parameters : Parameters) (arguments : List Node)
    (frame : FrameId) : (engine.bindArguments function parameters arguments frame).Tied same
      (other.bindArguments function parameters arguments frame) fun bindings => bindings.All Value.Plain := by
  have keeps : (Conduct.tied same).Keeps () frame _ _ :=
    (engine.tied_guides same other tied).bind_arguments function parameters arguments
  exact keeps

theorem tied_truthy (value : Value) (frame : FrameId) (plain : value.Plain) :
    (engine.truthy value frame).Tied same (other.truthy value frame) fun _ => True := by
  have keeps : (Conduct.tied same).Keeps () frame _ _ := (engine.tied_guides same other tied).truthy value plain
  exact keeps

theorem tied_run_native (code : Native Value) (invocation : Invocation)
    (ordinary : ∃ builtin, code = .builtin builtin) (plain : invocation.Plain) :
    (engine.runNative code invocation).Tied same (other.runNative code invocation) Value.Plain := by
  have suits : (Conduct.tied same).Suits () invocation := ⟨plain.target, plain.function, plain.arguments⟩
  exact (engine.tied_guides same other tied).run_native code invocation ordinary suits

omit tied in
theorem lawful_call (lawful : engine.Lawful) (target function : Value) (arguments : List Node)
    (frame : FrameId) (targetPlain : target.Plain) (plain : function.Plain) :
    (engine.call target function arguments frame).Lawful Value.Plain := by
  have keeps : (Conduct.tied False).Keeps () frame _ _ :=
    (engine.tied_guides False engine lawful.tied).call target function arguments targetPlain plain
  exact keeps.lawful

end Engine

namespace RuleSet

theorem tied_evaluate (same : Prop) (engine other : Engine) (tied : Engine.Tied same engine other) (node : Node)
    (frame : FrameId) :
    (standard.evaluate engine node frame).Tied same (standard.evaluate other node frame) Value.Plain :=
  (Conduct.standard_evaluates (engine.tied_guides same other tied)).keeps () node frame

theorem lawful_execute (engine : Engine) (lawful : engine.Lawful) (node : Node) (frame : FrameId) :
    (standard.execute engine node frame).Lawful fun _ => True := by
  have guides := engine.tied_guides False engine lawful.tied
  have executes := Conduct.standard_executes guides Conduct.tied_writes (Conduct.tied_nests engine lawful)
  have keeps := executes.keeps (Conduct.standard_evaluates guides) () node frame
  exact Exec.lawful_weaken _ _ _ keeps.lawful fun _ _ => trivial

theorem lawful_engine (fuel : Nat) : (standard.engine fuel).Lawful := by
  induction fuel with
  | zero =>
    exact ⟨⟨0, rfl⟩, fun _ _ => Exec.lawful_exhausted _, fun _ _ => Exec.lawful_exhausted _,
      fun _ _ _ _ => Exec.lawful_exhausted _, fun _ _ => Exec.lawful_exhausted _⟩
  | succ fuel ih =>
    have tied := ih.tied
    exact ⟨⟨fuel + 1, rfl⟩, fun node frame => (tied_evaluate False (standard.engine fuel) _ tied node frame).lawful,
      fun node frame => lawful_execute (standard.engine fuel) ih node frame,
      fun code invocation ordinary plain =>
        ((standard.engine fuel).tied_run_native False _ tied code invocation ordinary plain).lawful,
      fun lines frame => (standard.engine fuel).lawful_run_body ih lines frame⟩

end RuleSet
end CoopScript
