import CoopScript.Proofs.Scope.Call
import CoopScript.Proofs.Stage.Reachable

set_option autoImplicit false
namespace CoopScript

theorem Exec.discreet_refuse {α : Type} {frame : FrameId} {good : α → Prop} (cause : Cause) (place : Option Position)
    (ordinary : cause.isOrdinary = true) : (raise (.fault ⟨cause, place, []⟩) : Exec α).Discreet frame good := by
  have goesOn := cause.ordinary_goes_on ordinary
  cases place with
  | none => exact discreet_fail cause goesOn
  | some position => exact discreet_fail_at cause position goesOn

namespace Conduct

-- Steps are taken in a frame and write nowhere else.
def discreet : Conduct where
  World := Unit
  Grows _ _ := True
  still _ := trivial
  grow _ _ := trivial
  Good _ := Value.Plain
  Admits code := ∃ builtin, code = .builtin builtin
  more _ plain := plain
  member := Value.plain_member _
  items := Value.plain_items _
  native plain function code known body := Value.plain_function _ plain function known code body
  hook plain code hook := Value.plain_call_foreign _ plain code hook
  constant admits _ := Value.constant_plain _ admits
  Keeps _ frame step _ := step.Discreet frame (Valued.All Value.Plain)
  pure value plain := Exec.discreet_pure value plain
  bind next _ discreet later := Exec.discreet_bind _ next discreet fun value plain => later () value trivial plain
  exhausted := Exec.discreet_exhausted
  refuse := Exec.discreet_refuse
  misplaced engine _ _ _ binding argument _ cause refused := by
    rw [engine.bind_all_refused _ _ _ _ _ _ cause refused]
    exact Exec.discreet_refuse cause _ (binding.place_ordinary _ _ argument cause refused)
  placed _ _ _ _ _ _ position _ evaluates _ discreet := by
    rw [evaluates]
    exact Exec.discreet_map_failure _ _ (Failure.placed_cause (some position)) discreet
  look _ next _ later := Exec.discreet_bind _ next (Exec.discreet_seen _) fun answer _ => later answer
  scalar content := Exec.discreet_class_value _ fun table plain => table.plain_scalar plain content
  array := Exec.discreet_array
  lookUp := Exec.discreet_look_up
  assign := Exec.discreet_assign
  writeLine := Exec.discreet_write_line
  halt := Exec.discreet_halt
  spawnBlocking := Exec.discreet_spawn_blocking
  spawnAsync name lines arguments := Exec.discreet_spawn_async name lines arguments _

theorem discreet_writes : discreet.Writes where
  function _ _ _ _ := Exec.discreet_function _ fun _ native => by cases native
  setVariable := Exec.discreet_set_variable
  setReturn := Exec.discreet_set_return
  isUnwinding := Exec.discreet_is_unwinding

end Conduct

namespace Engine
variable (engine : Engine) (discreet : engine.Discreet)
include discreet

theorem discreet_guides : Conduct.discreet.Guides engine engine where
  fuel := rfl
  evaluate _ := discreet.evaluate
  native _ code invocation admits suits :=
    discreet.native code invocation admits ⟨suits.target, suits.function, suits.arguments⟩
  actions _ _ _ admits := absurd admits (Native.behaviour_foreign _)
  script _ name lines arguments caller plain :=
    engine.discreet_invoke_script discreet name lines arguments caller plain
  await _ _ := engine.discreet_await discreet

theorem discreet_nests : Conduct.discreet.Nests engine engine := fun _ lines _ _ _ keeps =>
  Exec.discreet_bind _ _ (engine.discreet_run_block discreet lines) fun _ _ => keeps () trivial

end Engine

theorem RuleSet.discreet_engine (fuel : Nat) : (standard.engine fuel).Discreet := by
  induction fuel with
  | zero =>
    refine ⟨lawful_engine 0, ?_, ?_, ?_, ?_⟩ <;> intros <;> exact Exec.discreet_exhausted
  | succ fuel ih =>
    have guides := (standard.engine fuel).discreet_guides ih
    have evaluates := Conduct.standard_evaluates guides
    have executes := Conduct.standard_executes guides Conduct.discreet_writes ((standard.engine fuel).discreet_nests ih)
    refine ⟨lawful_engine (fuel + 1), evaluates.keeps (), fun node frame => ?_, fun code invocation admits plain => ?_,
      fun lines frame => (standard.engine fuel).discreet_run_body ih lines⟩
    · exact Exec.discreet_weaken _ (executes.keeps evaluates () node frame) fun _ _ => trivial
    · have suits : Conduct.discreet.Suits () invocation := ⟨plain.target, plain.function, plain.arguments⟩
      exact guides.run_native code invocation admits suits

namespace Stage

/-- Nothing around a caller has been written to. A frame that was made for a call whose body is yet to be started is
left out: nobody calls from there, and the body will write in it. -/
structure CallerKept (stage : Stage) (caller : FrameId) (after : Machine) : Prop where
  ready : after.ready = stage.machine.ready
  bindings : ∀ id frame later, stage.machine.frames.Encloses id caller → id ∉ stage.machine.asyncFrames →
    stage.machine.frames.frame? id = some frame → after.frames.frame? id = some later →
    later.bindings = frame.bindings
  lives : ∀ owner ∈ stage.firm, ∀ id, stage.machine.frames.Encloses id owner → after.frames.isLive id = true

-- The frame of a call is within all that is around its caller.
theorem encloses_callee (stage : Stage) (sound : stage.Sound) (caller callee : FrameId) (arguments : Bindings)
    (opened : Machine) (plain : arguments.All Value.Plain)
    (pushed : Exec.pushFrame caller true arguments stage.machine = .done callee opened) (id : FrameId)
    (encloses : stage.machine.frames.Encloses id caller) : opened.frames.Encloses id callee := by
  have ledger := (step_sound stage _ sound (.openCall stage caller callee arguments opened plain pushed)).ledger
  obtain ⟨frames, framesPushed, rfl⟩ := Exec.push_frame_done caller callee true arguments _ opened pushed
  have lasting := Arena.lasting_push _ frames _ caller callee true arguments sound.ledger framesPushed
  obtain ⟨_, _, _, read⟩ := Arena.push_found _ frames _ caller callee true arguments sound.ledger framesPushed
  have found : frames.frame? callee = some (.fresh (some caller) true arguments) := by rw [read, if_pos rfl]
  have live : frames.isLive callee = true := (Arena.live_found frames callee).mpr ⟨_, found⟩
  obtain ⟨depth, anchored⟩ := ledger.anchored callee live
  have callerLive := Arena.parent_live frames depth callee caller _ anchored found rfl
  exact .around callee caller _ found rfl
    (Arena.encloses_lasting _ frames _ id caller lasting ledger callerLive encloses)

end Stage

/-- A script function, whatever it runs and waits for and however it ends, writes nothing outside of its own frame:
what is bound in its caller's frame and in all frames around that one, out to the outermost, stays as it was. -/
theorem caller_kept (config : Config) (stage : Stage) (reached : Reachable config stage) (name : String)
    (lines : List Node) (arguments : Bindings) (caller : FrameId) (fuel : Nat) (after : Machine)
    (plain : arguments.All Value.Plain)
    (ran : ((RuleSet.standard.engine fuel).invokeScript name lines arguments caller stage.machine).Leaves after) :
    stage.CallerKept caller after := by
  have sound := reachable_sound config stage reached
  have discreet := RuleSet.discreet_engine fuel
  have spares : stage.machine.Spares
      (fun id => stage.machine.frames.Encloses id caller ∧ id ∉ stage.machine.asyncFrames) after :=
    (RuleSet.standard.engine fuel).invoke_script_spares discreet name lines arguments caller plain stage sound
    (fun _ isSpared => (Arena.encloses_live _ _ _ isSpared.1).1)
    (fun callee opened pushed id isSpared => ⟨callee, by simp [Stage.firm],
      stage.encloses_callee sound caller callee arguments opened plain pushed id isSpared.1⟩)
    (fun _ waits isSpared => isSpared.2 waits) after ran
  have follows := (RuleSet.standard.engine fuel).lawful_invoke_script discreet.lawful name lines arguments caller plain
    stage sound
  have steady := stage.follows_steady _ _ after sound follows ran
  refine ⟨spares.ready, fun id frame later encloses idle found again => ?_, fun owner firm id encloses => ?_⟩
  · exact spares.frames id frame later ⟨encloses, idle⟩ found again
  · exact (Arena.encloses_live _ _ _ ((steady.around owner firm id).mp encloses)).1

-- The function gives two names of the outermost frame to values of its own, one of them in a body that it waits for;
-- out there they are bound as before.
theorem outermost_names_kept : ∃ frame after later,
    (Stage.start .standard).machine.frames.frame? Arena.root = some frame ∧
      after.frames.frame? Arena.root = some later ∧ later.bindings = frame.bindings ∧
      (Stage.start .standard).CallerKept Arena.root after := by
  let here : Position := .start none
  let lines : List Node :=
    [.assign "assign" here "true" (.text "mine"),
     .function "fn" here "later" [] true [.assign "assign" here "false" (.text "mine")],
     .await "await" here (.call "call" here (.reference "later" here) [])]
  obtain ⟨value, after, outcome, live⟩ := Outcome.ends_with_done
    ((RuleSet.standard.engine 9).invokeScript "caller" lines .empty Arena.root (Stage.start .standard).machine)
    (fun after => after.frames.isLive Arena.root) (by decide +kernel)
  have kept := caller_kept .standard (.start .standard) .start "caller" lines .empty Arena.root 9 after
    (NameMap.all_empty Value.Plain) (.inl ⟨value, outcome⟩)
  have rooted : (Stage.start .standard).machine.frames.isLive Arena.root = true := by decide +kernel
  obtain ⟨frame, found⟩ := (Arena.live_found _ Arena.root).mp rooted
  obtain ⟨later, again⟩ := (Arena.live_found _ Arena.root).mp live
  exact ⟨frame, after, later, found, again,
    kept.bindings Arena.root frame later (.self rooted) (by decide +kernel) found again, kept⟩

end CoopScript
