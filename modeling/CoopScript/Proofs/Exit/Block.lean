import CoopScript.Proofs.Exit.Primitive

set_option autoImplicit false
namespace CoopScript

structure Invocation.Tame (leeway : Leeway) (invocation : Invocation) : Prop where
  target : invocation.target.Tame leeway
  function : invocation.function.Tame leeway
  arguments : invocation.arguments.All (Value.Tame leeway)

-- What a builtin function gives.
structure Builtin.Gives (leeway : Leeway) (code : Builtin) (target result : Value) : Prop where
  tame : result.Tame leeway
  text : code.GivesText target → result.text?.isSome = true
  truth : code.truthful = true → result.flag?.isSome = true

-- An engine that runs nodes, builtin functions and the lines of functions as far as the leeway goes.
structure Engine.Prudent (leeway : Leeway) (engine : Engine) : Prop where
  lawful : engine.Lawful
  literal : ∀ node frame level, node.literal = true →
    (engine.evaluate node frame).Tends leeway frame level level (Value.Tame leeway)
  still : ∀ node frame, node.still leeway = true →
    (engine.evaluate node frame).Tends leeway frame leeway.Operates leeway.Operates (Value.Tame leeway)
  tolerant : ∀ node frame, node.tolerant leeway = true →
    (engine.evaluate node frame).Tends leeway frame leeway.Operates Anyhow (Value.Tame leeway)
  execute : ∀ node frame, node.prudent leeway frame.isInner = true →
    (engine.execute node frame).Tends leeway frame leeway.Operates Anyhow fun _ => True
  quiet : ∀ code invocation level, code.quiet = true → invocation.Tame leeway →
    (engine.native (.builtin code) invocation).Tends leeway invocation.frame level level
      (code.Gives leeway invocation.target)
  native : ∀ code invocation, invocation.Tame leeway →
    (engine.native (.builtin code) invocation).Tends leeway invocation.frame leeway.Calls Anyhow (Value.Tame leeway)
  body : ∀ lines frame, Node.allPrudent leeway frame.isInner lines = true →
    (engine.body lines frame).Tends leeway frame Anyhow Anyhow fun result => ∀ value, result = some value →
      value.Tame leeway

namespace Stage
variable {leeway : Leeway} (stage : Stage) (fit : stage.Fit leeway)
include fit

theorem step_fit (after : Stage) (step : Step stage after) (tame : after.machine.Tame leeway) : after.Fit leeway :=
  ⟨step_sound stage after fit.sound step, step_due stage after fit.due step, tame⟩

theorem create_runner_live (lines : List Node) (frame : FrameId) (held : frame ∈ stage.firm) :
    ∃ id opened, Exec.createRunner lines frame stage.machine = .done id opened := by
  obtain ⟨id, loaded, load⟩ := stage.load_live lines frame fit.sound (stage.firm_live fit.sound frame held)
  obtain ⟨opened, runner, created, _⟩ := Exec.done_of_bind _ _ _ loaded id load
  exact ⟨runner, opened, created⟩

theorem push_frame_live (caller : FrameId) (arguments : Bindings) (held : caller ∈ stage.firm) :
    ∃ id opened, Exec.pushFrame caller true arguments stage.machine = .done id opened := by
  obtain ⟨retained, retains⟩ := stage.machine.frames.update_live caller (stage.firm_live fit.sound caller held)
    fun content => { content with holds := content.holds + 1 }
  have pushed : stage.machine.frames.push caller true arguments =
      .ok (retained.allocate (.fresh (some caller) true arguments)) := by
    unfold Arena.push Arena.retain
    rw [retains]
    rfl
  exact ⟨_, _, by simp only [Exec.pushFrame, Exec.changeFrames, pushed]; rfl⟩

omit fit in
theorem pushed_inner (sound : stage.Sound) (caller frame : FrameId) (arguments : Bindings) (opened : Machine)
    (pushed : Exec.pushFrame caller true arguments stage.machine = .done frame opened) : frame.isInner = true := by
  apply frame.other_inner
  rintro rfl
  obtain ⟨frames, framesPushed, _⟩ := Exec.push_frame_done caller Arena.root true arguments _ opened pushed
  obtain ⟨fresh, _⟩ := Arena.push_found _ frames _ caller Arena.root true arguments sound.ledger framesPushed
  have live := sound.ledger.live Arena.root (by simp [Stage.owners])
  simp [Arena.isLive, fresh] at live

end Stage

theorem Exec.bears_enclosed {α β γ : Type} {leeway : Leeway} {middle last : Bool → Prop} {good : α → Prop}
    {fine : γ → Prop} (body : Exec α) (close : Exec β) (rest : Except Failure α → β → Exec γ) (closed : Machine → Prop)
    (machine : Machine) (bears : (body machine).Bears leeway middle good)
    (closes : ∀ left, (body machine).Leaves left → left.Tame leeway → ∃ result after,
      close left = .done result after ∧ after.Tame leeway ∧ after.halted = left.halted ∧ closed after)
    (passes : ∀ failure result machine, rest (.error failure) result machine = .failed failure machine)
    (gives : ∀ value result after, good value → closed after → after.Tame leeway → middle after.halted →
      (rest (.ok value) result after).Bears leeway last fine) :
    ((do let outcome ← body.attempt; let result ← close; rest outcome result) machine).Bears leeway last fine := by
  cases ran : body machine with
  | done value left =>
    rw [ran] at bears
    obtain ⟨result, after, closing, tame, same, isClosed⟩ := closes left (.inl ⟨value, ran⟩) bears.1
    rw [Exec.bind_done _ _ _ left (.ok value) (by simp only [attempt, ran]), Exec.bind_done _ _ _ after result closing]
    exact gives value result after bears.2.2 isClosed tame (same ▸ bears.2.1)
  | failed failure left =>
    rw [ran] at bears
    obtain ⟨result, after, closing, tame, same, _⟩ := closes left (.inr ⟨failure, ran⟩) bears.1
    rw [Exec.bind_done _ _ _ left (.error failure) (by simp only [attempt, ran]),
      Exec.bind_done _ _ _ after result closing, passes]
    exact ⟨tame, fun halted => bears.2 (same ▸ halted)⟩
  | outOfFuel =>
    rw [Exec.bind_exhausted _ _ _ (by simp only [attempt, ran])]
    trivial

namespace Engine
variable {leeway : Leeway} (engine : Engine) (prudent : engine.Prudent leeway)
include prudent

theorem tends_execute_line (node : Node) (frame : FrameId) (fits : node.prudent leeway frame.isInner = true) :
    (engine.executeLine node frame).Tends leeway frame Running Anyhow fun _ => True :=
  Exec.tends_weaken (Exec.tends_map_failure (trace node) (Failure.traced_cause node) (Failure.cause_traced node)
    (prudent.execute node frame fits)) Exec.running_operates (fun _ ended => ended) fun _ fine => fine

theorem tends_step (id : RunnerId) :
    (engine.step id).Tends leeway Arena.root Anyhow Anyhow (Sum.elim (fun _ => True) fun _ => True) := by
  intro stage fit held _
  apply stage.bears_look fit
  apply stage.bears_look fit
  split
  next => exact Exec.tends_pure _ trivial stage fit held trivial
  next going =>
    have running : Running stage.machine.halted := by
      simp only [Bool.or_eq_true, not_or, Bool.not_eq_true] at going
      exact going.1
    apply stage.bears_look fit
    cases known : stage.machine.runner? id with
    | none => exact Exec.tends_pure _ trivial stage fit held trivial
    | some runner =>
      have listed := List.mem_of_find?_eq_some (stage.machine.runner_found id runner known)
      have own : runner.Prudent leeway := fit.tame.runners (id, runner) listed
      have frameHeld : runner.frame ∈ stage.firm := by
        have registered : runner.frame ∈ stage.machine.registered.map Prod.snd :=
          List.mem_map.mpr ⟨(id, runner.frame), List.mem_map.mpr ⟨(id, runner), listed, rfl⟩, rfl⟩
        simp only [Stage.firm, List.mem_cons, List.mem_append]
        exact .inr (.inl (.inl registered))
      have updated : ∀ change : Runner → Runner, (∀ other, (change other).frame = other.frame) →
          (change runner).Prudent leeway →
          stage.Bears leeway Running (fun _ => True) (Exec.modify (·.updateRunner id change)) := by
        intro change sameFrame fits
        refine Exec.bears_update_runner stage fit running id change sameFrame fun other found => ?_
        obtain rfl := Option.some.inj (known.symm.trans found)
        exact fits
      cases lines : runner.lines with
      | nil =>
        simp only [lines]
        refine stage.bears_bind fit _ (updated (fun runner => { runner with finished := true }) (fun _ => rfl) own) ?_
        exact fun _ machine _ reaches machineFit _ _ =>
          Exec.tends_pure _ trivial _ machineFit (stage.put machine).root_firm trivial
      | cons node rest =>
        simp only [lines]
        rw [Runner.Prudent, lines, Node.allPrudent, Bool.and_eq_true] at own
        refine stage.bears_bind fit _ (updated (fun runner => { runner with lines := rest }) (fun _ => rfl) own.2) ?_
        intro _ machine _ reaches machineFit stillRunning _
        -- What remains of the step is done in the frame of the runner.
        have remaining : Exec.Tends leeway runner.frame Running Anyhow (Sum.elim (fun _ => True) fun _ => True)
            (do let value ← engine.executeLine node runner.frame; Exec.record id value; return .inl () :
              Exec (Unit ⊕ Unit)) :=
          Exec.tends_bind _ (engine.tends_execute_line prudent node runner.frame own.1) fun value _ =>
            Exec.tends_bind _ (Exec.tends_record id value) fun _ _ => Exec.tends_pure _ trivial
        exact remaining _ machineFit ((stage.firm_put machine reaches.registered runner.frame).mpr frameHeld) stillRunning

theorem tends_drive (id : RunnerId) : (engine.drive id).Tends leeway Arena.root Anyhow Anyhow fun _ => True :=
  Exec.tends_iterate (fun _ => engine.step id) (fun _ => engine.tends_step prudent id) (fun _ _ _ _ _ => trivial)
    engine.fuel ()

theorem tends_run_block (lines : List Node) (frame : FrameId)
    (fits : Node.allPrudent leeway frame.isInner lines = true) :
    (engine.runBlock lines frame).Tends leeway frame Anyhow Anyhow fun _ => True := by
  apply Exec.tends_lawful (engine.lawful_run_block prudent.lawful lines frame)
  intro stage fit held _
  obtain ⟨id, opened, created⟩ := stage.create_runner_live fit lines frame held
  obtain ⟨openedTame, _⟩ := stage.machine.tame_opened leeway fit.tame lines frame id opened fits created
  have openedFit := stage.step_fit fit _ (.openBlock stage lines frame id opened created) openedTame
  have drives := engine.tends_drive prudent id _ openedFit (stage.put opened).root_firm trivial
  unfold runBlock
  rw [Exec.bind_done _ _ _ opened id created]
  apply Exec.bears_enclosed (engine.drive id) (Exec.finishRunner id) _ (fun _ => True) opened drives.2
  · intro left leaves leftTame
    have leftFit := (stage.put opened).bears_fit openedFit drives left leaves
    obtain ⟨last, after, finished⟩ := (stage.put left).finish_runner_total id leftFit.sound
    obtain ⟨afterTame, same⟩ := left.tame_finished leeway leftTame id last after finished
    exact ⟨last, after, finished, afterTame, same, trivial⟩
  · exact fun _ _ _ => rfl
  · exact fun _ _ _ _ _ afterTame _ => ⟨afterTame, trivial, trivial⟩

theorem tends_run_body (lines : List Node) (frame : FrameId)
    (fits : Node.allPrudent leeway frame.isInner lines = true) :
    (engine.runBody lines frame).Tends leeway frame Anyhow Anyhow
      fun result => ∀ value, result = some value → value.Tame leeway :=
  Exec.tends_bind _ (engine.tends_run_block prudent lines frame fits) fun _ _ => Exec.tends_take_return

theorem run_frame_bears (name : String) (lines : List Node) (frame : FrameId) (task : Option TaskId)
    (calls : List Call) (held : List FrameId) (machine : Machine)
    (fit : (Stage.mk (⟨frame, task, false⟩ :: calls) held machine).Fit leeway)
    (fits : Node.allPrudent leeway frame.isInner lines = true) (begun : leeway.Calls machine.halted) :
    (Stage.mk (⟨frame, task, false⟩ :: calls) held machine).Bears leeway Anyhow (Value.Tame leeway)
      (engine.runFrame name lines frame) := by
  have follows :=
    engine.run_frame_follows prudent.lawful name lines frame frame task calls held machine fit.sound
  refine ⟨?_, ?_⟩
  · rcases Exec.follows_cases _ _ _ follows with ⟨value, after, done, reaches, _⟩ | ⟨failure, after, failed, breaks⟩ | none
    · exact Exec.follows_done _ _ _ value after done reaches trivial
    · exact Exec.follows_failed _ _ _ failure after failed breaks
    · exact Exec.follows_exhausted _ _ _ none
  · show (engine.runFrame name lines frame machine).Bears leeway Anyhow (Value.Tame leeway)
    by_cases deep : machine.config.depthLimit ≤ machine.depth
    · rw [engine.run_frame_refused name lines frame machine deep]
      refine ⟨fit.tame, fun halted => ⟨_, Failure.has_cause_of _, .inr (.inl ⟨begun halted, .inr ⟨_, _, rfl⟩⟩)⟩⟩
    · rw [engine.run_frame_runs name lines frame machine (Nat.lt_of_not_le deep)]
      have tame := fit.tame
      have inner := (Stage.mk (⟨frame, task, false⟩ :: calls) held machine).step_fit fit _
        (.beginRun frame task calls held machine)
        ⟨tame.classes, tame.frames, tame.tasks, tame.microtasks, tame.runners, tame.ready⟩
      have runs := (prudent.body lines frame fits _ inner (by simp [Stage.firm]) trivial).2
      cases ran : engine.body lines frame { machine with depth := machine.depth + 1 } with
      | done result after =>
        rw [show engine.body lines frame (Stage.machine _) = _ from ran] at runs
        obtain ⟨afterTame, _, fine⟩ := runs
        refine ⟨⟨afterTame.classes, afterTame.frames, afterTame.tasks, afterTame.microtasks, afterTame.runners,
          afterTame.ready⟩, trivial, ?_⟩
        cases result with
        | none =>
          show after.classes.void.Tame leeway
          rw [afterTame.classes]
          exact ClassTable.tame_void leeway
        | some value => exact fine value rfl
      | failed failure after =>
        rw [show engine.body lines frame (Stage.machine _) = _ from ran] at runs
        obtain ⟨afterTame, allows⟩ := runs
        exact ⟨⟨afterTame.classes, afterTame.frames, afterTame.tasks, afterTame.microtasks, afterTame.runners,
          afterTame.ready⟩, allows⟩
      | outOfFuel => trivial

theorem tends_invoke_script (name : String) (lines : List Node) (arguments : Bindings) (caller : FrameId)
    (tame : arguments.All (Value.Tame leeway)) (fits : Node.allPrudent leeway true lines = true) :
    (engine.invokeScript name lines arguments caller).Tends leeway caller leeway.Calls Anyhow (Value.Tame leeway) := by
  have plain : arguments.All Value.Plain := fun entry member => entry.2.tame_plain leeway (tame entry member)
  apply Exec.tends_lawful (engine.lawful_invoke_script prudent.lawful name lines arguments caller plain)
  intro stage fit held begun
  obtain ⟨frame, opened, pushed⟩ := stage.push_frame_live fit caller arguments held
  obtain ⟨openedTame, same⟩ := stage.machine.tame_pushed leeway fit.tame _ caller frame arguments opened
    fit.sound.ledger tame pushed
  have openedFit := stage.step_fit fit _ (.openCall stage caller frame arguments opened plain pushed) openedTame
  have inner := stage.pushed_inner fit.sound caller frame arguments opened pushed
  have runs := engine.run_frame_bears prudent name lines frame none stage.calls stage.held opened openedFit
    (inner ▸ fits) (same ▸ begun)
  unfold invokeScript
  rw [Exec.bind_done _ _ _ opened frame pushed]
  apply Exec.bears_enclosed (engine.runFrame name lines frame) (Exec.releaseFrame frame)
    (fun outcome _ => Exec.ofOutcome outcome) (fun _ => True) opened runs.2
  · intro left leaves leftTame
    have leftFit := Stage.bears_fit _ openedFit runs left leaves
    obtain ⟨frames, released, _, _⟩ := Exec.release_frame_kept frame _ left
      (Stage.call_ledger ⟨frame, none, false⟩ stage.calls stage.held left leftFit.sound)
    obtain ⟨afterTame, sameHalt⟩ := left.tame_released leeway leftTame frame _ released
    exact ⟨(), _, released, afterTame, sameHalt, trivial⟩
  · exact fun _ _ _ => rfl
  · exact fun _ _ _ fine _ afterTame _ => ⟨afterTame, trivial, fine⟩

end Engine

end CoopScript
