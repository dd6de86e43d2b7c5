import CoopScript.Proofs.Conduct.Basic

/-!
Blocks, functions, rounds and waiting: what a conduct says of the lines and bodies that are run, and of the little that the
machinery does besides, it says of the whole machinery.
-/
set_option autoImplicit false
namespace CoopScript

namespace Valued

instance : Valued Nat := idle

instance : Valued RunnerId := idle

instance : Valued FrameId := idle

instance : Valued TickReport := idle

end Valued

namespace Conduct

-- A step that both engines take alike.
abbrev Allows (conduct : Conduct) {α : Type} [Valued α] (world : conduct.World) (place : FrameId) (step : Exec α) : Prop :=
  conduct.Keeps world place step step

-- The machinery's own steps, which a conduct allows in whatever frame they are taken.
structure Machinery (conduct : Conduct) : Prop where
  seen : ∀ {α β : Type} [Valued β] {world place} (view : Machine → α) (next later : α → Exec β),
    (∀ answer, conduct.Keeps world place (next answer) (later answer)) →
    conduct.Keeps world place (Exec.read view >>= next) (Exec.read view >>= later)
  tooDeep : ∀ {α : Type} [Valued α] {world place} (limit : Nat) (name : String),
    conduct.Allows world place (Exec.fail (.depthExceeded limit name) : Exec α)
  unsettled : ∀ {α : Type} [Valued α] {world place}, conduct.Allows world place (Exec.fail .neverSettled : Exec α)
  -- A failure that is held back until something else has been done.
  guard : ∀ {α β γ : Type} [Valued α] [Valued β] [Valued γ] {world place} {step twin : Exec α} (cleanup : Exec β)
    (next : β → Except Failure α → Exec γ), (∀ result failure, next result (.error failure) = Exec.raise failure) →
    conduct.Keeps world place step twin → (∀ more, conduct.Allows more place cleanup) →
    (∀ more result value, Valued.All (conduct.Good more) result → Valued.All (conduct.Good more) value →
      conduct.Allows more place (next result (.ok value))) →
    conduct.Keeps world place (step.attempt >>= fun outcome => cleanup >>= fun result => next result outcome)
      (twin.attempt >>= fun outcome => cleanup >>= fun result => next result outcome)
  quiet : ∀ {world place} (change : Machine → Machine), (∀ machine, ∃ clock ready depth, change machine = { machine with
    clock := clock, ready := ready, depth := depth }) → conduct.Allows world place (Exec.modify change)
  push : ∀ {world place} (caller : FrameId) (arguments : Bindings), arguments.All (conduct.Good world) →
    conduct.Allows world place (Exec.pushFrame caller true arguments)
  release : ∀ {world place} (frame : FrameId), conduct.Allows world place (Exec.releaseFrame frame)
  takeReturn : ∀ {world place} (frame : FrameId), conduct.Allows world place (Exec.takeReturn frame)
  createRunner : ∀ {world place} (lines : List Node) (frame : FrameId),
    conduct.Allows world place (Exec.createRunner lines frame)
  updateRunner : ∀ {world place} (id : RunnerId) (change : Runner → Runner), (∀ runner, (change runner).last = runner.last) →
    conduct.Allows world place (Exec.modify (·.updateRunner id change))
  record : ∀ {world place} (id : RunnerId) (value : Option Value), Valued.All (conduct.Good world) value →
    conduct.Allows world place (Exec.record id value)
  advance : ∀ {world place} (id : RunnerId), conduct.Allows world place (Exec.advance id)
  finishRunner : ∀ {world place} (id : RunnerId), conduct.Allows world place (Exec.finishRunner id)
  consume : ∀ {world place} (task : TaskId), conduct.Allows world place (Exec.consumeTask task)

-- Engines that run lines and bodies as the conduct asks.
structure Drives (conduct : Conduct) (engine twin : Engine) : Prop where
  fuel : twin.fuel = engine.fuel
  line : ∀ {world place} (node : Node) (frame : FrameId),
    conduct.Keeps world place (engine.executeLine node frame) (twin.executeLine node frame)
  body : ∀ {world place} (lines : List Node) (frame : FrameId),
    conduct.Keeps world place (engine.body lines frame) (twin.body lines frame)

variable {conduct : Conduct} (machinery : conduct.Machinery) {engine twin : Engine} (world : conduct.World)
  (place : FrameId)
include machinery

namespace Machinery

theorem wait : conduct.Allows world place Exec.wait := machinery.quiet _ fun _ => ⟨_, _, _, rfl⟩

section Ends
variable (idle : Nat) (report : TickReport)

theorem end_round : conduct.Allows world place (Engine.endRound idle report) := by
  refine machinery.seen _ _ _ fun halted => ?_
  split
  · exact conduct.pure _ trivial
  have counts : ∀ more, conduct.Allows more place (do
      if !report.isIdle then return .inl 0
      if (← Exec.read (·.config.idleLimit)) ≤ idle + 1 then return .inr ()
      return .inl (idle + 1) : Exec (Nat ⊕ Unit)) := by
    intro more
    split
    · exact conduct.pure _ trivial
    · refine machinery.seen _ _ _ fun limit => ?_
      split <;> exact conduct.pure _ trivial
  cases report.isOnlyWaiting with
  | true => exact conduct.bind _ _ (machinery.wait _ _) fun more _ _ _ => counts more
  | false => exact counts _

theorem end_wait : conduct.Allows world place (Engine.endWait idle report) := by
  have counts : ∀ more, conduct.Allows more place (do
      if !report.isIdle then return .inl 0
      if (← Exec.read (·.config.idleLimit)) < idle + 1 then Exec.fail .neverSettled
      return .inl (idle + 1) : Exec (Nat ⊕ Value)) := by
    intro more
    split
    · exact conduct.pure _ trivial
    · refine machinery.seen _ _ _ fun limit => ?_
      split
      · exact machinery.unsettled
      · exact conduct.pure _ trivial
  unfold Engine.endWait
  cases report.isOnlyWaiting with
  | true => exact conduct.bind _ _ (machinery.wait _ _) fun more _ _ _ => counts more
  | false => exact counts _

end Ends

end Machinery

namespace Drives
variable (drives : conduct.Drives engine twin)
include drives

theorem step (id : RunnerId) : conduct.Keeps world place (engine.step id) (twin.step id) := by
  refine machinery.seen _ _ _ fun halted => machinery.seen _ _ _ fun returned => ?_
  split
  · exact conduct.pure _ trivial
  refine machinery.seen _ _ _ fun known => ?_
  cases known with
  | none => exact conduct.pure _ trivial
  | some runner =>
    cases lines : runner.lines with
    | nil =>
      simp only [lines]
      exact conduct.bind _ _ (machinery.updateRunner id _ fun _ => rfl) fun _ _ _ _ => conduct.pure _ trivial
    | cons node rest =>
      simp only [lines]
      refine conduct.bind _ _ (machinery.updateRunner id _ fun _ => rfl) fun _ _ _ _ => ?_
      refine conduct.bind _ _ (drives.line node runner.frame) fun _ value _ good => ?_
      exact conduct.bind _ _ (machinery.record id value good) fun _ _ _ _ => conduct.pure _ trivial

theorem drive (id : RunnerId) : conduct.Keeps world place (engine.drive id) (twin.drive id) := by
  unfold Engine.drive
  rw [drives.fuel]
  exact conduct.iterate _ _ (fun _ _ => drives.step machinery _ _ id) engine.fuel ()

theorem run_block (lines : List Node) (frame : FrameId) :
    conduct.Keeps world place (engine.runBlock lines frame) (twin.runBlock lines frame) := by
  refine conduct.bind _ _ (machinery.createRunner lines frame) fun _ id _ _ => ?_
  exact machinery.guard _ _ (fun _ _ => rfl) (drives.drive machinery _ _ id) (fun _ => machinery.finishRunner id)
    fun _ last _ good _ => conduct.pure last good

theorem run_body (lines : List Node) (frame : FrameId) :
    conduct.Keeps world place (engine.runBody lines frame) (twin.runBody lines frame) :=
  conduct.bind _ _ (drives.run_block machinery _ _ lines frame) fun _ _ _ _ => machinery.takeReturn frame

theorem run_frame (name : String) (lines : List Node) (frame : FrameId) :
    conduct.Keeps world place (engine.runFrame name lines frame) (twin.runFrame name lines frame) := by
  refine machinery.seen _ _ _ fun limit => machinery.seen _ _ _ fun depth => ?_
  split
  · exact machinery.tooDeep limit name
  refine conduct.bind _ _ (machinery.quiet _ fun _ => ⟨_, _, _, rfl⟩) fun _ _ _ _ => ?_
  refine machinery.guard _ _ (fun _ _ => rfl) (drives.body lines frame)
    (fun _ => machinery.quiet _ fun _ => ⟨_, _, _, rfl⟩) fun _ _ result _ good => ?_
  cases result with
  | some value => exact conduct.pure value (good value rfl)
  | none => exact conduct.void

theorem invoke_script (name : String) (lines : List Node) (arguments : Bindings) (caller : FrameId)
    (good : arguments.All (conduct.Good world)) :
    conduct.Keeps world place (engine.invokeScript name lines arguments caller)
      (twin.invokeScript name lines arguments caller) := by
  refine conduct.bind _ _ (machinery.push caller arguments good) fun _ frame _ _ => ?_
  exact machinery.guard _ _ (fun _ _ => rfl) (drives.run_frame machinery _ _ name lines frame)
    (fun _ => machinery.release frame) fun _ _ value _ good => conduct.pure value good

theorem line_step (report : TickReport) : conduct.Keeps world place (engine.lineStep report) (twin.lineStep report) := by
  refine machinery.seen _ _ _ fun ready => ?_
  cases ready with
  | nil => exact conduct.pure _ trivial
  | cons line rest =>
    refine machinery.seen _ _ _ fun halted => ?_
    split
    · exact conduct.pure _ trivial
    refine conduct.bind _ _ (machinery.quiet _ fun _ => ⟨_, _, _, rfl⟩) fun _ _ _ _ => ?_
    refine conduct.bind _ _ (drives.line line.node line.frame) fun _ value _ good => ?_
    refine conduct.bind _ _ (machinery.record line.runner value good) fun _ _ _ _ => ?_
    exact conduct.bind _ _ (machinery.advance line.runner) fun _ _ _ _ => conduct.pure _ trivial

theorem run_lines (report : TickReport) : conduct.Keeps world place (engine.runLines report) (twin.runLines report) := by
  rw [Engine.run_lines_rounds, Engine.run_lines_rounds, drives.fuel]
  exact conduct.iterate _ _ (fun _ report => drives.line_step machinery _ _ report) engine.fuel report

end Drives

-- Engines that also run microtasks and events as the conduct asks.
structure Serves (conduct : Conduct) (engine twin : Engine) : Prop extends conduct.Drives engine twin where
  drain : ∀ {world place} (report : TickReport), conduct.Keeps world place (engine.drainStep report) (twin.drainStep report)
  events : ∀ {world place} (report : TickReport),
    conduct.Keeps world place (engine.serviceEvents report) (twin.serviceEvents report)

theorem unless_halted (phase later : TickReport → Exec TickReport) (report : TickReport)
    (keeps : conduct.Keeps world place (phase report) (later report)) :
    conduct.Keeps world place (Engine.unlessHalted phase report) (Engine.unlessHalted later report) := by
  refine machinery.seen _ _ _ fun halted => ?_
  split
  · exact conduct.pure report trivial
  · exact keeps

namespace Serves
variable (serves : conduct.Serves engine twin)
include serves

omit machinery in
theorem drain_microtasks (report : TickReport) :
    conduct.Keeps world place (engine.drainMicrotasks report) (twin.drainMicrotasks report) := by
  unfold Engine.drainMicrotasks
  rw [serves.fuel]
  exact conduct.iterate _ _ (fun _ report => serves.drain report) engine.fuel report

theorem tick : conduct.Keeps world place engine.tick twin.tick := by
  refine conduct.bind _ _ (serves.run_lines machinery _ _ .empty) fun _ report _ _ => ?_
  refine conduct.bind _ _ (unless_halted machinery _ _ _ _ report (serves.drain_microtasks _ _ report)) fun _ report _ _ => ?_
  exact unless_halted machinery _ _ _ _ report (serves.events report)

theorem run_step (idle : Nat) : conduct.Keeps world place (engine.runStep idle) (twin.runStep idle) := by
  rw [Engine.run_step_parts, Engine.run_step_parts]
  exact conduct.bind _ _ (serves.tick machinery _ _) fun _ report _ _ => machinery.end_round _ _ idle report

theorem run : conduct.Keeps world place engine.run twin.run := by
  rw [Engine.run_rounds, Engine.run_rounds, serves.fuel]
  exact conduct.iterate _ _ (fun _ idle => serves.run_step machinery _ _ idle) engine.fuel 0

theorem await_pass (task : TaskId) : conduct.Keeps world place (engine.awaitPass task) (twin.awaitPass task) := by
  refine conduct.bind _ _ (machinery.consume task) fun _ given _ good => ?_
  cases given with
  | some value => exact conduct.pure _ (good value rfl)
  | none =>
    refine machinery.seen _ _ _ fun halted => ?_
    cases halted with
    | true => exact conduct.stop .interrupted _ _ rfl
    | false =>
      refine conduct.bind _ _ (serves.drain_microtasks _ _ .empty) fun _ report _ _ => ?_
      exact conduct.bind _ _ (serves.events report) fun _ _ _ _ => conduct.pure _ trivial

theorem await_step (task : TaskId) (idle : Nat) :
    conduct.Keeps world place (engine.awaitStep task idle) (twin.awaitStep task idle) := by
  rw [Engine.await_step_parts, Engine.await_step_parts]
  refine conduct.bind _ _ (serves.await_pass machinery _ _ task) fun _ result _ good => ?_
  cases result with
  | inl report => exact machinery.end_wait _ _ idle report
  | inr value => exact conduct.pure _ good

theorem await (task : TaskId) : conduct.Keeps world place (engine.await task) (twin.await task) := by
  unfold Engine.await
  rw [serves.fuel]
  exact conduct.iterate _ _ (fun _ idle => serves.await_step machinery _ _ task idle) engine.fuel 0

end Serves

end Conduct
end CoopScript
