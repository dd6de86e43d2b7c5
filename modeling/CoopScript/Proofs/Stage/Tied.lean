import CoopScript.Proofs.Stage.Twin

set_option autoImplicit false
namespace CoopScript

structure Exec.Tied {α : Type} (same : Prop) (step other : Exec α) (good : α → Prop) : Prop where
  lawful : step.Lawful good
  agree : same → step.Agree other

-- The frame is that of a function.
def Arena.OfFunction (arena : Arena) (id : FrameId) : Prop :=
  ∀ frame, arena.frame? id = some frame → frame.isFunction = true

-- With `same` false this says no more than that the first engine is lawful.
structure Engine.Tied (same : Prop) (engine other : Engine) : Prop where
  lawful : engine.Lawful
  fuel : other.fuel = engine.fuel
  evaluate : same → ∀ node frame, (engine.evaluate node frame).Agree (other.evaluate node frame)
  native : same → ∀ code invocation, (∃ builtin, code = .builtin builtin) → invocation.Plain →
    (engine.native code invocation).Agree (other.native code invocation)
  body : same → ∀ lines frame task calls held machine twin,
    (Stage.mk (⟨frame, task, true⟩ :: calls) held machine).Sound → machine.frames.OfFunction frame →
    machine.Twin twin → (Stage.mk (⟨frame, task, true⟩ :: calls) held machine).Agrees
      (engine.body lines frame machine) (other.body lines frame twin)

namespace Exec
variable {α β : Type} (same : Prop)

theorem tied_bind (good : α → Prop) (fine : β → Prop) (step other : Exec α) (next later : α → Exec β)
    (tied : step.Tied same other good) (further : ∀ value, good value → (next value).Tied same (later value) fine) :
    (step >>= next).Tied same (other >>= later) fine :=
  ⟨lawful_bind good fine step next tied.lawful fun value fineValue => (further value fineValue).lawful,
    fun given => agree_bind good step other next later tied.lawful (tied.agree given)
      fun value fineValue => (further value fineValue).agree given⟩

theorem tied_inert (good : α → Prop) (step : Exec α) (lawful : step.Lawful good) (inert : step.Inert) :
    step.Tied same step good :=
  ⟨lawful, fun _ => agree_inert step inert⟩

theorem tied_pure (good : α → Prop) (value : α) (fine : good value) :
    (Pure.pure value : Exec α).Tied same (Pure.pure value) good :=
  tied_inert same good _ (lawful_pure good value fine) (inert_pure value)

theorem tied_seen (view : Machine → α)
    (blind : ∀ machine runners count, view (machine.enlisted runners count) = view machine) :
    (read view).Tied same (read view) fun _ => True :=
  tied_inert same _ _ (lawful_seen view) (inert_read view blind)

theorem tied_map_failure (good : α → Prop) (change : Failure → Failure) (step other : Exec α)
    (sameCause : ∀ failure cause, (change failure).HasCause cause → failure.HasCause cause)
    (tied : step.Tied same other good) : (step.mapFailure change).Tied same (other.mapFailure change) good :=
  ⟨lawful_map_failure good change step sameCause tied.lawful,
    fun given => agree_map_failure change step other (tied.agree given)⟩

theorem agree_iterate {σ : Type} (inv : σ → Prop) (good : α → Prop) (step other : σ → Exec (σ ⊕ α))
    (tied : ∀ state, inv state → (step state).Lawful (Sum.elim inv good) ∧ (step state).Agree (other state))
    (fuel : Nat) (state : σ) (start : inv state) : (iterate step fuel state).Agree (iterate other fuel state) := by
  induction fuel generalizing state with
  | zero => exact agree_inert _ inert_exhausted
  | succ fuel ih =>
    rw [iterate_unrolled, iterate_unrolled]
    obtain ⟨lawful, agree⟩ := tied state start
    apply agree_bind (Sum.elim inv good) _ _ _ _ lawful agree
    intro result fine
    cases result with
    | inl state => exact ih state fine
    | inr value => exact agree_inert _ (inert_pure value)

-- Giving a call's frame back is the same for twins.
theorem release_twin (stage : Stage) (call : Call) (after twin : Machine)
    (sound : (Stage.mk (call :: stage.calls) stage.held after).Sound) (keeps : stage.Keeps after)
    (twins : after.Twin twin) : ∃ left leftTwin, releaseFrame call.frame after = .done () left ∧
      releaseFrame call.frame twin = .done () leftTwin ∧ left.Twin leftTwin ∧ stage.Keeps left := by
  obtain ⟨runners, count, rfl⟩ := twins
  obtain ⟨frames, released, _, shrinks⟩ := Arena.kept_release after.frames _ call.frame
    (Stage.call_ledger call stage.calls stage.held after sound)
  have releasedTwin : (after.enlisted runners count).frames.release call.frame = (frames, none) := released
  refine ⟨{ after with frames := frames }, _, by simp only [releaseFrame, released],
    by simp only [releaseFrame, releasedTwin]; rfl, ⟨runners, count, rfl⟩, fun id member none => ?_,
    keeps.runners⟩
  have before := keeps.results id member none
  unfold Arena.hasReturned at before ⊢
  cases found : frames.frame? id with
  | none => rfl
  | some content =>
    obtain ⟨earlier, earlierFound, _, _, _, returned⟩ := shrinks id content found
    rw [earlierFound] at before
    simp only
    rw [returned]
    exact before

theorem enclosed_agrees {α : Type} (stage : Stage) (call : Call) (machine twin : Machine)
    (good : α → Prop) (step other : Exec α)
    (sound : (Stage.mk (call :: stage.calls) stage.held machine).Sound)
    (registered : machine.registered = stage.machine.registered) (keeps : stage.Keeps machine)
    (follows : (Stage.mk (call :: stage.calls) stage.held machine).Follows good step)
    (agrees : (Stage.mk (call :: stage.calls) stage.held machine).Agrees (step machine) (other twin)) :
    stage.Agrees ((do let outcome ← step.attempt; releaseFrame call.frame; ofOutcome outcome) machine)
      ((do let outcome ← other.attempt; releaseFrame call.frame; ofOutcome outcome) twin) := by
  have firm : ∀ id ∈ stage.firm, id ∈ (Stage.mk (call :: stage.calls) stage.held machine).firm := by
    intro id member
    simp only [Stage.firm, registered, List.map_cons, List.mem_cons, List.mem_append] at member ⊢
    tauto
  have carried := Stage.agrees_within stage _ _ _ firm keeps agrees
  have after := fun left => Stage.follows_sound _ good step left sound follows
  generalize ran : step machine = outcome at carried after
  generalize ranOther : other twin = outcomeOther at carried
  cases carried with
  | done value left leftTwin twins kept =>
    obtain ⟨last, lastTwin, released, releasedTwin, same, lastKept⟩ :=
      release_twin stage call left leftTwin (after left (.inl ⟨value, rfl⟩)) kept twins
    rw [bind_done _ _ _ left (.ok value) (by simp only [attempt, ran]), bind_done _ _ _ _ () released,
      bind_done _ _ _ leftTwin (.ok value) (by simp only [attempt, ranOther]),
      bind_done _ _ _ _ () releasedTwin]
    exact .done value last lastTwin same lastKept
  | failed failure left leftTwin twins kept =>
    obtain ⟨last, lastTwin, released, releasedTwin, same, lastKept⟩ :=
      release_twin stage call left leftTwin (after left (.inr ⟨failure, rfl⟩)) kept twins
    rw [bind_done _ _ _ left (.error failure) (by simp only [attempt, ran]), bind_done _ _ _ _ () released,
      bind_done _ _ _ leftTwin (.error failure) (by simp only [attempt, ranOther]),
      bind_done _ _ _ _ () releasedTwin]
    exact .failed failure last lastTwin same lastKept
  | outOfFuel =>
    rw [bind_exhausted _ _ _ (by simp only [attempt, ran]), bind_exhausted _ _ _ (by simp only [attempt, ranOther])]
    exact .outOfFuel

end Exec

namespace Engine

-- What is left of a frame's run once the body is over.
theorem run_frame_runs (engine : Engine) (name : String) (lines : List Node) (frame : FrameId)
    (machine : Machine) (shallow : machine.depth < machine.config.depthLimit) :
    engine.runFrame name lines frame machine =
      match engine.body lines frame { machine with depth := machine.depth + 1 } with
      | .done result after =>
        .done (result.getD after.classes.void) { after with depth := after.depth - 1 }
      | .failed failure after => .failed failure { after with depth := after.depth - 1 }
      | .outOfFuel => .outOfFuel := by
  unfold runFrame
  rw [Exec.read_then, Exec.read_then, if_neg (Nat.not_le.mpr shallow)]
  refine (Exec.modify_then _ _ machine).trans ?_
  cases ran : engine.body lines frame { machine with depth := machine.depth + 1 } with
  | done result after =>
    rw [Exec.bind_done _ _ _ after (.ok result) (by simp only [Exec.attempt, ran]), Exec.modify_then]
    cases result <;> rfl
  | failed failure after =>
    rw [Exec.bind_done _ _ _ after (.error failure) (by simp only [Exec.attempt, ran]), Exec.modify_then]
    rfl
  | outOfFuel => exact Exec.bind_exhausted _ _ _ (by simp only [Exec.attempt, ran])

section Calls
variable (same : Prop) (engine other : Engine) (tied : Engine.Tied same engine other)
include tied

theorem run_frame_agrees (given : same) (name : String) (lines : List Node) (frame : FrameId)
    (task : Option TaskId) (calls : List Call) (held : List FrameId) (machine twin : Machine)
    (sound : (Stage.mk (⟨frame, task, false⟩ :: calls) held machine).Sound)
    (function : machine.frames.OfFunction frame) (twins : machine.Twin twin) :
    (Stage.mk (⟨frame, task, false⟩ :: calls) held machine).Agrees
      (engine.runFrame name lines frame machine) (other.runFrame name lines frame twin) := by
  obtain ⟨runners, count, rfl⟩ := twins
  by_cases deep : machine.config.depthLimit ≤ machine.depth
  · rw [engine.run_frame_refused name lines frame machine deep,
      other.run_frame_refused name lines frame (machine.enlisted runners count) deep]
    exact .failed _ machine _ ⟨runners, count, rfl⟩ (Stage.keeps_here _)
  · have shallow := Nat.lt_of_not_le deep
    rw [engine.run_frame_runs name lines frame machine shallow,
      other.run_frame_runs name lines frame (machine.enlisted runners count) shallow]
    have innerSound := step_sound _ _ sound (.beginRun frame task calls held machine)
    have agrees := tied.body given lines frame task calls held { machine with depth := machine.depth + 1 }
      { machine.enlisted runners count with depth := machine.depth + 1 } innerSound function
      ⟨runners, count, rfl⟩
    have keeps : ∀ after, (Stage.mk (⟨frame, task, true⟩ :: calls) held
          { machine with depth := machine.depth + 1 }).Keeps after →
        (Stage.mk (⟨frame, task, false⟩ :: calls) held machine).Keeps { after with depth := after.depth - 1 } :=
      fun after kept => ⟨kept.results, kept.runners⟩
    show Stage.Agrees _ _ (match other.body lines frame
      { machine.enlisted runners count with depth := machine.depth + 1 } with
      | .done result after => _
      | .failed failure after => _
      | .outOfFuel => _)
    generalize engine.body lines frame { machine with depth := machine.depth + 1 } = left at agrees ⊢
    generalize other.body lines frame
      { machine.enlisted runners count with depth := machine.depth + 1 } = right at agrees ⊢
    cases agrees with
    | done result after twin twins kept =>
      obtain ⟨runners, count, rfl⟩ := twins
      exact .done _ _ _ ⟨runners, count, rfl⟩ (keeps after kept)
    | failed failure after twin twins kept =>
      obtain ⟨runners, count, rfl⟩ := twins
      exact .failed failure _ _ ⟨runners, count, rfl⟩ (keeps after kept)
    | outOfFuel => exact .outOfFuel

end Calls

end Engine

end CoopScript
