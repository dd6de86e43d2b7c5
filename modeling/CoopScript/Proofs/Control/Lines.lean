import CoopScript.Proofs.Control.Mirror
import CoopScript.Proofs.Stage.Tandem

set_option autoImplicit false
namespace CoopScript

def Signal.Gives (signal : Signal) (value : Option Value) : Prop := ∀ last, signal = .normal last → value = last

namespace Signal

theorem of_result_result (value : Option Value) : (ofResult value).result? = value := by cases value <;> rfl

theorem of_result_going (value : Option Value) : ofResult value ≠ .halted := by cases value <;> exact nofun

theorem of_result_gives (value : Option Value) : (ofResult value).Gives none := by
  cases value with
  | some value => exact fun _ same => nomatch same
  | none => exact fun _ same => by cases same; rfl

end Signal

structure Structured.Mirrored (engine : Engine) (inner : Structured) : Prop where
  tied : Engine.Tied True engine inner.engine
  line : ∀ (stage : Stage) frame last machine node, stage.Inside frame →
    stage.machine.Meets frame (.normal last) machine →
    stage.Mirrors frame (fun value _ signal => signal.Gives value) (engine.executeLine node frame stage.machine)
      (inner.line node frame machine)

theorem Machine.meets_release (machine twin : Machine) (frame : FrameId) (signal : Signal) (content : Frame)
    (found : machine.frames.frame? frame = some content) (several : 1 < content.holds)
    (meets : machine.Meets frame signal twin) :
    ∃ frames left, machine.frames.release frame = (frames, none) ∧ Exec.releaseFrame frame twin = .done () left ∧
      { machine with frames := frames }.Meets frame signal left ∧
      ∀ other, other ≠ frame → frames.hasReturned other = machine.frames.hasReturned other := by
  obtain ⟨runners, count, rfl⟩ := meets.twins
  have released := machine.frames.release_held frame content found several
  have releasedTwin : ((machine.cleared frame).enlisted runners count).frames.release frame = _ :=
    (machine.frames.cleared frame).release_held frame _ (machine.frames.frame_cleared frame content found) several
  have read := machine.frames.frame_set frame frame content { content with holds := content.holds - 1 } found
  rw [if_pos rfl] at read
  refine ⟨_, _, released, by simp only [Exec.releaseFrame, releasedTwin]; rfl, ⟨?_, meets.halted, runners, count, ?_⟩,
    fun other elsewhere => machine.frames.returned_set frame other content _ found elsewhere⟩
  · have before := meets.result
    simp only [Arena.result?, found, read] at before ⊢
    exact before
  · have left := machine.frames.cleared_set frame content { content with holds := content.holds - 1 } found
    simp only [Machine.cleared, left]
    unfold Arena.cleared Machine.enlisted
    simp only [found, Arena.set_frame_twice]

namespace Stage

theorem spares_updated (base : Stage) (frame : FrameId) (machine : Machine) (id : RunnerId)
    (change : Runner → Runner) (unknown : base.machine.runner? id = none) (spares : base.Spares frame machine) :
    base.Spares frame (machine.updateRunner id change) := by
  refine ⟨spares.results, fun other runner known => ?_⟩
  have elsewhere : other ≠ id := by
    rintro rfl
    rw [unknown] at known
    cases known
  rw [machine.runner_updated, spares.runners other runner known]
  simp only [elsewhere, if_false, Option.map_some]

theorem inside_updated (stage : Stage) (frame : FrameId) (machine : Machine) (id : RunnerId)
    (change : Runner → Runner) (same : ∀ runner, (change runner).frame = runner.frame)
    (inside : (stage.put machine).Inside frame) :
    (stage.put (machine.updateRunner id change)).Inside frame := by
  have registered := Machine.registered_updated machine id change same
  exact ⟨step_sound _ _ inside.sound (.adjust (stage.put machine) id change same),
    (firm_put (stage.put machine) _ (by rw [registered]; exact .refl _) frame).mpr inside.member,
    inside.function⟩

-- The runner of a block holds the frame besides those who held it before.
theorem held_twice (base : Stage) (frame : FrameId) (id : RunnerId) (machine : Machine) (content : Frame)
    (sound : (base.put machine).Sound) (member : frame ∈ base.firm)
    (registered : machine.registered.Perm ((id, frame) :: base.machine.registered))
    (found : machine.frames.frame? frame = some content) : 1 < content.holds := by
  have balance : content.holds = (base.put machine).owners.count frame + machine.frames.children frame :=
    sound.ledger.balance frame content found
  have counted := (registered.map Prod.snd).count_eq frame
  rw [List.map_cons, List.count_cons_self] at counted
  have owners := count_owners base.calls base.held machine frame
  have outside : 0 < (if Arena.root = frame then 1 else 0) + (base.machine.registered.map Prod.snd).count frame +
      (base.calls.map Call.frame).count frame + base.held.count frame := by
    simp only [firm, List.mem_cons, List.mem_append] at member
    rcases member with root | (there | there) | there
    · rw [if_pos root.symm]
      omega
    · have := List.count_pos_iff.mpr there
      omega
    · have := List.count_pos_iff.mpr there
      omega
    · have := List.count_pos_iff.mpr there
      omega
  have whole : (base.put machine).owners.count frame = (Stage.mk base.calls base.held machine).owners.count frame :=
    rfl
  omega

theorem finish_meets (base : Stage) (frame : FrameId) (id : RunnerId) (machine twin : Machine) (signal : Signal)
    (sound : (base.put machine).Sound) (member : frame ∈ base.firm)
    (registered : machine.registered.Perm ((id, frame) :: base.machine.registered))
    (unknown : base.machine.runner? id = none) (meets : machine.Meets frame signal twin)
    (spares : base.Spares frame machine) :
    ∃ runner after left, machine.runner? id = some runner ∧
      Exec.finishRunner id machine = .done runner.last after ∧ Exec.releaseFrame frame twin = .done () left ∧
      after.Meets frame signal left ∧ base.Spares frame after := by
  obtain ⟨⟨name, runner⟩, listed, same⟩ := List.mem_map.mp (registered.symm.subset List.mem_cons_self)
  simp only [Prod.mk.injEq] at same
  obtain ⟨rfl, rfl⟩ := same
  have numbered : machine.Numbered := sound.numbered
  have known := machine.runner_listed name runner numbered.distinct listed
  have owned : runner.frame ∈ (base.put machine).owners :=
    within_owners (base.put machine) _ (within_refl _) runner.frame (by
      simp only [firm, put, List.mem_cons, List.mem_append]
      exact .inr (.inl (.inl (List.mem_map_of_mem (registered.symm.subset List.mem_cons_self)))))
  obtain ⟨content, found⟩ := (Arena.live_found machine.frames runner.frame).mp (sound.ledger.live _ owned)
  have several := held_twice base runner.frame name machine content sound member registered found
  obtain ⟨frames, left, released, releasedTwin, afterMeets, elsewhere⟩ :=
    machine.meets_release twin runner.frame signal content found several meets
  refine ⟨runner, { machine with runners := Machine.swapErase name machine.runners, frames := frames }, left, known,
    ?_, releasedTwin, Machine.meets_runners _ left _ signal _ machine.runnerCount afterMeets, ?_, ?_⟩
  · simp only [Exec.finishRunner, Bind.bind, Exec.bind, Exec.read, known, Exec.modify, Exec.releaseFrame, released]
    rfl
  · intro other otherMember apart none
    simp only [elsewhere other apart]
    exact spares.results other otherMember apart none
  · intro other later there
    have apart : other ≠ name := by
      rintro rfl
      rw [unknown] at there
      cases there
    exact machine.runner_erased name other runner later frames numbered known apart
      (spares.runners other later there)

-- A runner over the lines of `nodes` that are left, on top of all that `base` has in progress.
structure Driven (base : Stage) (frame : FrameId) (id : RunnerId) (nodes : List Node) (signal : Signal)
    (machine twin : Machine) : Prop where
  inside : (base.put machine).Inside frame
  known : ∃ runner, machine.runner? id = some runner ∧ runner.frame = frame ∧
    runner.functionFrame = some frame ∧ signal.Gives runner.last ∧ ∀ last, signal = .normal last → runner.lines = nodes
  meets : machine.Meets frame signal twin
  spares : base.Spares frame machine
  firm : ∀ other ∈ base.firm, other ∈ (base.put machine).firm

end Stage

namespace Engine

theorem step_over (engine : Engine) (id : RunnerId) (machine : Machine)
    (isOver : (machine.halted || machine.runnerReturned id) = true) :
    engine.step id machine = .done (.inr ()) machine := by
  unfold step
  rw [Exec.halted_then, Exec.read_then, isOver]
  rfl

theorem step_last (engine : Engine) (id : RunnerId) (machine : Machine) (runner : Runner)
    (going : (machine.halted || machine.runnerReturned id) = false) (known : machine.runner? id = some runner)
    (empty : runner.lines = []) : engine.step id machine =
      .done (.inr ()) (machine.updateRunner id fun runner => { runner with finished := true }) := by
  unfold step
  rw [Exec.halted_then, Exec.read_then, going, if_neg Bool.false_ne_true, Exec.read_then, known]
  simp only [empty]
  rfl

theorem step_next (engine : Engine) (id : RunnerId) (machine : Machine) (runner : Runner) (node : Node)
    (rest : List Node) (going : (machine.halted || machine.runnerReturned id) = false)
    (known : machine.runner? id = some runner) (next : runner.lines = node :: rest) :
    engine.step id machine = (do
      let value ← engine.executeLine node runner.frame
      Exec.record id value
      return .inl () : Exec (Unit ⊕ Unit)) (machine.updateRunner id fun runner => { runner with lines := rest }) := by
  unfold step
  rw [Exec.halted_then, Exec.read_then, going, if_neg Bool.false_ne_true, Exec.read_then, known]
  simp only [next]
  rfl

variable (engine : Engine) (nodes : List Node) (frame : FrameId) (id : RunnerId)
  (machine opened after left : Machine)

theorem run_block_done (value : Unit) (last : Option Value)
    (created : Exec.createRunner nodes frame machine = .done id opened)
    (drove : engine.drive id opened = .done value after) (finished : Exec.finishRunner id after = .done last left) :
    engine.runBlock nodes frame machine = .done last left := by
  unfold runBlock
  rw [Exec.bind_done _ _ _ _ id created, Exec.bind_done _ _ _ after (.ok value) (by simp only [Exec.attempt, drove]),
    Exec.bind_done _ _ _ left last finished]
  rfl

theorem run_block_failed (failure : Failure) (last : Option Value)
    (created : Exec.createRunner nodes frame machine = .done id opened)
    (drove : engine.drive id opened = .failed failure after)
    (finished : Exec.finishRunner id after = .done last left) :
    engine.runBlock nodes frame machine = .failed failure left := by
  unfold runBlock
  rw [Exec.bind_done _ _ _ _ id created,
    Exec.bind_done _ _ _ after (.error failure) (by simp only [Exec.attempt, drove]),
    Exec.bind_done _ _ _ left last finished]
  rfl

theorem run_block_exhausted (created : Exec.createRunner nodes frame machine = .done id opened)
    (drove : engine.drive id opened = .outOfFuel) : engine.runBlock nodes frame machine = .outOfFuel := by
  unfold runBlock
  rw [Exec.bind_done _ _ _ _ id created]
  exact Exec.bind_exhausted _ _ _ (by simp only [Exec.attempt, drove])

end Engine

namespace Signal

theorem after_result (signal : Signal) (last : Option Value) : (signal.after last).result? = signal.result? := by
  cases signal with
  | normal value => cases value <;> rfl
  | _ => rfl

theorem after_halted (signal : Signal) (last : Option Value) (halted : signal.after last = .halted) :
    signal = .halted := by
  cases signal with
  | normal value => cases value <;> cases halted
  | returned value => cases halted
  | halted => rfl

theorem after_gives (signal : Signal) (value last : Option Value) (gives : signal.Gives value) :
    (signal.after last).Gives (value.or last) := by
  cases signal with
  | normal given =>
    obtain rfl := gives given rfl
    cases value with
    | none => exact fun other same => by cases same; rfl
    | some value => exact fun other same => by cases same; rfl
  | returned given => exact fun other same => nomatch same
  | halted => exact fun other same => nomatch same

end Signal

-- A block is begun on both sides: one makes a runner, the other only holds the frame.
theorem Stage.begin_driven (stage : Stage) (frame : FrameId) (inside : stage.Inside frame) (nodes : List Node)
    (twin : Machine) (twins : (stage.machine.cleared frame).Twin twin) :
    ∃ opened frames, Exec.createRunner nodes frame stage.machine = .done ⟨stage.machine.runnerCount + 1⟩ opened ∧
      twin.frames.retain frame = .ok frames ∧
      opened.registered = stage.machine.registered ++ [(⟨stage.machine.runnerCount + 1⟩, frame)] ∧
      stage.Driven frame ⟨stage.machine.runnerCount + 1⟩ nodes (.ofResult (stage.machine.frames.result? frame))
        opened { twin with frames := frames, clock := twin.clock + Machine.blockTime } := by
  obtain ⟨content, found, function⟩ := inside_found stage frame inside
  obtain ⟨runners, count, rfl⟩ := twins
  obtain ⟨frames, retained, retainedTwin, read, sameResult, elsewhere⟩ :=
    stage.machine.frames.retain_cleared frame content found
  have asked := Arena.function_frame_own frames frame _ read function
  have opened := Exec.create_runner_creates nodes frame (some frame) stage.machine frames retained asked
  have registered := Exec.registered_opened nodes frame _ stage.machine _ opened
  have sound := step_sound stage _ inside.sound (.openBlock stage nodes frame _ _ opened)
  have unknown := stage.machine.runner_fresh inside.sound.numbered
  refine ⟨_, _, opened, retainedTwin, registered, ?_⟩
  generalize created : ({ stage.machine with
    clock := stage.machine.clock + Machine.blockTime
    frames := frames
    runnerCount := stage.machine.runnerCount + 1
    runners := stage.machine.runners ++
      [(⟨stage.machine.runnerCount + 1⟩, ⟨frame, some frame, nodes, none, false⟩)] } : Machine) = machine at *
  have sameFrames : machine.frames = frames := by rw [← created]
  have appended := fun other => stage.machine.runner_appended ⟨stage.machine.runnerCount + 1⟩ other
    ⟨frame, some frame, nodes, none, false⟩ unknown machine (by rw [← created])
  have own := appended ⟨stage.machine.runnerCount + 1⟩
  rw [if_pos rfl] at own
  have firm : ∀ other ∈ stage.firm, other ∈ (stage.put machine).firm := by
    intro other member
    simp only [firm, put, registered, List.map_append, List.mem_cons, List.mem_append] at member ⊢
    tauto
  refine ⟨⟨sound, firm frame inside.member, fun later laterFound => ?_⟩,
    ⟨_, own, rfl, rfl, Signal.of_result_gives _, fun _ _ => rfl⟩,
    ⟨?_, fun same => absurd same (Signal.of_result_going _), runners, count, by rw [← created]; rfl⟩,
    ⟨fun other _ apart none => ?_, fun other runner known => ?_⟩, firm⟩
  · rw [Stage.put, sameFrames, read] at laterFound
    cases laterFound
    exact function
  · rw [sameFrames, sameResult, Signal.of_result_result]
  · rw [sameFrames, elsewhere other apart]
    exact none
  · rw [appended other, if_neg]
    · exact known
    · rintro rfl
      rw [unknown] at known
      cases known

namespace Structured

theorem line_step_halted (inner : Structured) (frame : FrameId) (last : Option Value) (nodes : List Node)
    (machine : Machine) (halted : machine.halted = true) :
    inner.lineStep frame (.normal last, nodes) machine = .done (.inr .halted) machine := by
  simp only [lineStep]
  rw [Exec.halted_then, halted]
  rfl

theorem line_step_last (inner : Structured) (frame : FrameId) (last : Option Value) (machine : Machine)
    (going : machine.halted = false) :
    inner.lineStep frame (.normal last, []) machine = .done (.inr (.normal last)) machine := by
  simp only [lineStep]
  rw [Exec.halted_then, going]
  rfl

theorem line_step_next (inner : Structured) (frame : FrameId) (last : Option Value) (node : Node)
    (rest : List Node) (machine : Machine) (going : machine.halted = false) :
    inner.lineStep frame (.normal last, node :: rest) machine =
      (do return .inl ((← inner.line node frame).after last, rest) : Exec ((Signal × List Node) ⊕ Signal))
        machine := by
  simp only [lineStep]
  rw [Exec.halted_then, going]
  rfl

section Block
variable (inner : Structured) (start : Signal) (nodes : List Node) (frame : FrameId) (machine : Machine)
  (frames : Arena) (after left : Machine) (retained : machine.frames.retain frame = .ok frames)
include retained

theorem block_done (signal : Signal)
    (ran : inner.lines frame start nodes
      { machine with frames := frames, clock := machine.clock + Machine.blockTime } = .done signal after)
    (released : Exec.releaseFrame frame after = .done () left) :
    inner.block start nodes frame machine = .done signal left := by
  unfold block
  rw [Exec.bind_done _ _ _ _ () (Exec.retain_frame_retains frame machine frames retained), Exec.modify_then]
  refine (Exec.bind_done _ _ _ after (.ok signal) (by simp only [Exec.attempt, Machine.pass, ran])).trans ?_
  rw [Exec.bind_done _ _ _ left () released]
  rfl

theorem block_failed (failure : Failure)
    (ran : inner.lines frame start nodes
      { machine with frames := frames, clock := machine.clock + Machine.blockTime } = .failed failure after)
    (released : Exec.releaseFrame frame after = .done () left) :
    inner.block start nodes frame machine = .failed failure left := by
  unfold block
  rw [Exec.bind_done _ _ _ _ () (Exec.retain_frame_retains frame machine frames retained), Exec.modify_then]
  refine (Exec.bind_done _ _ _ after (.error failure) (by simp only [Exec.attempt, Machine.pass, ran])).trans ?_
  rw [Exec.bind_done _ _ _ left () released]
  rfl

theorem block_exhausted (ran : inner.lines frame start nodes
      { machine with frames := frames, clock := machine.clock + Machine.blockTime } = .outOfFuel) :
    inner.block start nodes frame machine = .outOfFuel := by
  unfold block
  rw [Exec.bind_done _ _ _ _ () (Exec.retain_frame_retains frame machine frames retained), Exec.modify_then]
  exact Exec.bind_exhausted _ _ _ (by simp only [Exec.attempt, Machine.pass, ran])

end Block

section Mirrored
variable (engine : Engine) (inner : Structured) (mirrored : inner.Mirrored engine)
include mirrored

-- One line of a runner, with what is left of the runner's way behind it.
theorem next_line_mirrors {α : Type} (base : Stage) (frame : FrameId) (id : RunnerId) (node : Node)
    (rest : List Node) (last : Option Value) (machine twin : Machine) (runner : Runner)
    (unknown : base.machine.runner? id = none)
    (driven : base.Driven frame id (node :: rest) (.normal last) machine twin)
    (known : machine.runner? id = some runner) (own : runner.frame = frame)
    (function : runner.functionFrame = some frame) (held : runner.last = last)
    (fine : α → Machine → Signal → Prop) (next : Exec α) (later : Signal × List Node → Exec Signal)
    (further : ∀ signal after twin, base.Driven frame id rest signal after twin →
      base.Mirrors frame fine (next after) (later (signal, rest) twin)) :
    base.Mirrors frame fine ((do
        let value ← engine.executeLine node runner.frame
        Exec.record id value
        next : Exec α) (machine.updateRunner id fun runner => { runner with lines := rest }))
      ((do
        let signal ← inner.line node frame
        later (signal.after last, rest) : Exec Signal) twin) := by
  have inside := Stage.inside_updated base frame machine id (fun runner => { runner with lines := rest })
    (fun _ => rfl) driven.inside
  have spares := Stage.spares_updated base frame machine id (fun runner => { runner with lines := rest })
    unknown driven.spares
  have meets : (machine.updateRunner id fun runner => { runner with lines := rest }).Meets frame (.normal last) twin :=
    Machine.meets_runners machine twin frame _ _ machine.runnerCount driven.meets
  have taken := machine.runner_updated id id fun runner => { runner with lines := rest }
  rw [known] at taken
  simp only [if_true, Option.map_some] at taken
  have registered := Machine.registered_updated machine id (fun runner => { runner with lines := rest }) fun _ => rfl
  have firm : ∀ other ∈ base.firm,
      other ∈ (base.put (machine.updateRunner id fun runner => { runner with lines := rest })).firm :=
    fun other member => (Stage.firm_put (base.put machine) _ (by rw [registered]; exact .refl _) other).mpr
      (driven.firm other member)
  generalize machine.updateRunner id (fun runner => { runner with lines := rest }) = here at *
  rw [own]
  refine Exec.mirrors_bind base (base.put here) frame firm spares (fun _ => True) _ fine _ _ _ _ twin
    (engine.lawful_execute_line mirrored.tied.lawful node frame _ inside.sound)
    (mirrored.line (base.put here) frame last twin node inside meets) ?_
  intro value after signal twin reaches gives afterMeets afterSpares
  have afterInside := Stage.inside_reaches (base.put here) frame _ after inside reaches
  have afterFirm := fun other member =>
    (Stage.firm_put (base.put here) after reaches.registered other).mpr (firm other member)
  rw [Exec.bind_done _ _ _ _ () (Exec.record_done id value after)]
  apply further
  have recorded := after.runner_updated id id fun runner => { runner with last := value.or runner.last }
  rw [afterSpares.runners id _ taken] at recorded
  simp only [if_true, Option.map_some, held] at recorded
  have sameRegistered := Machine.registered_updated after id
    (fun runner => { runner with last := value.or runner.last }) fun _ => rfl
  refine ⟨Stage.inside_updated base frame after id _ (fun _ => rfl) afterInside, ⟨_, recorded, own, function,
      signal.after_gives value last gives, fun _ _ => rfl⟩, ?_, Stage.spares_updated base frame after id _ unknown ?_,
    fun other member => ?_⟩
  · exact Machine.meets_runners _ twin frame _ _ after.runnerCount
      (after.meets_signal twin frame signal _ afterMeets (signal.after_result last) (signal.after_halted last))
  · exact Stage.spares_trans base (base.put here) frame after firm spares afterSpares
  · exact (Stage.firm_put (base.put after) _ (by rw [sameRegistered]; exact .refl _) other).mpr
      (afterFirm other member)

theorem drive_mirrors (base : Stage) (frame : FrameId) (id : RunnerId)
    (unknown : base.machine.runner? id = none) (fuel : Nat) (nodes : List Node) (signal : Signal)
    (machine twin : Machine) (driven : base.Driven frame id nodes signal machine twin) :
    base.Mirrors frame (fun _ after signal => ∃ runner, after.runner? id = some runner ∧ signal.Gives runner.last)
      (Exec.iterate (fun _ => engine.step id) fuel () machine)
      (Exec.iterate (inner.lineStep frame) fuel (signal, nodes) twin) := by
  induction fuel generalizing nodes signal machine twin with
  | zero => exact .outOfFuel
  | succ fuel ih =>
    obtain ⟨runner, known, own, function, gives, lines⟩ := driven.known
    have returned := machine.returned_known id runner frame known function
    have halting := machine.meets_halted twin frame signal driven.meets
    -- A signal that is not normal, or a halt, ends both.
    have isOver : ∀ last, (machine.halted || machine.runnerReturned id) = true → last.Gives runner.last →
        machine.Meets frame last twin → inner.lineStep frame (signal, nodes) twin = .done (.inr last) twin →
        base.Mirrors frame (fun _ after signal => ∃ runner, after.runner? id = some runner ∧ signal.Gives runner.last)
          (Exec.iterate (fun _ => engine.step id) (fuel + 1) () machine)
          (Exec.iterate (inner.lineStep frame) (fuel + 1) (signal, nodes) twin) := by
      intro last stopped lastGives meets ended
      rw [Exec.iterate_ended _ fuel () () machine machine (engine.step_over id machine stopped),
        Exec.iterate_ended _ fuel _ last twin twin ended]
      exact .done () machine last twin ⟨runner, known, lastGives⟩ meets driven.spares
    cases signal with
    | returned value =>
      refine isOver (.returned value) ?_ gives driven.meets rfl
      rw [returned, Arena.returned_result, driven.meets.result, Bool.or_eq_true]
      exact .inr rfl
    | halted =>
      refine isOver .halted ?_ gives driven.meets rfl
      rw [driven.meets.halted rfl]
      rfl
    | normal last =>
      have blank := (machine.meets_normal twin frame last driven.meets).1
      cases halted : machine.halted with
      | true =>
        exact isOver .halted (by rw [halted]; rfl) (fun _ same => nomatch same)
          ⟨driven.meets.result, fun _ => halted, driven.meets.twins⟩
          (inner.line_step_halted frame last nodes twin (halting.trans halted))
      | false =>
        have going : (machine.halted || machine.runnerReturned id) = false := by rw [halted, returned, blank]; rfl
        have goingTwin := halting.trans halted
        cases nodes with
        | nil =>
          rw [Exec.iterate_ended _ fuel () () machine _ (engine.step_last id machine runner going known (lines last rfl)),
            Exec.iterate_ended _ fuel _ _ twin twin (inner.line_step_last frame last twin goingTwin)]
          have marked := machine.runner_updated id id fun runner => { runner with finished := true }
          rw [known] at marked
          simp only [if_true, Option.map_some] at marked
          exact .done () _ _ twin ⟨_, marked, gives⟩
            (Machine.meets_runners machine twin frame _ _ machine.runnerCount driven.meets)
            (Stage.spares_updated base frame machine id _ unknown driven.spares)
        | cons node rest =>
          rw [Exec.iterate_unrolled, Exec.iterate_unrolled,
            Exec.bind_same _ _ _ machine _ (engine.step_next id machine runner node rest going known (lines last rfl)),
            Exec.bind_same _ _ _ twin _ (inner.line_step_next frame last node rest twin goingTwin)]
          simp only [Exec.bind_assoc]
          exact next_line_mirrors engine inner mirrored base frame id node rest last machine twin runner unknown
            driven known own function (gives last rfl) _ _ _
            fun signal after afterTwin later => ih rest signal after afterTwin later

theorem block_mirrors (stage : Stage) (frame : FrameId) (inside : stage.Inside frame) (nodes : List Node)
    (twin : Machine) (twins : (stage.machine.cleared frame).Twin twin) :
    stage.Mirrors frame (fun value _ signal => signal.Gives value) (engine.runBlock nodes frame stage.machine)
      (inner.block (.ofResult (stage.machine.frames.result? frame)) nodes frame twin) := by
  obtain ⟨opened, frames, created, retained, registered, driven⟩ :=
    Stage.begin_driven stage frame inside nodes twin twins
  have unknown := stage.machine.runner_fresh inside.sound.numbered
  have follows := engine.lawful_drive mirrored.tied.lawful ⟨stage.machine.runnerCount + 1⟩ _ driven.inside.sound
  have mirrors : stage.Mirrors frame
      (fun _ after signal => ∃ runner, after.runner? ⟨stage.machine.runnerCount + 1⟩ = some runner ∧
        signal.Gives runner.last)
      (engine.drive ⟨stage.machine.runnerCount + 1⟩ opened)
      (inner.lines frame (.ofResult (stage.machine.frames.result? frame)) nodes
        { twin with frames := frames, clock := twin.clock + Machine.blockTime }) := by
    unfold Engine.drive lines
    rw [mirrored.tied.fuel]
    exact drive_mirrors engine inner mirrored stage frame _ unknown engine.fuel nodes _ opened _ driven
  -- However the lines end, the runner is finished where the frame is let go.
  have closes : ∀ after last left, (engine.drive ⟨stage.machine.runnerCount + 1⟩ opened).Leaves after →
      after.Meets frame last left → stage.Spares frame after → _ := fun after last left isOver meets spares =>
    stage.finish_meets frame ⟨stage.machine.runnerCount + 1⟩ after left last
      (Stage.follows_sound (stage.put opened) _ _ after driven.inside.sound follows isOver) inside.member
      ((Stage.follows_registered (stage.put opened) _ _ after follows isOver).trans
        (registered ▸ List.perm_append_singleton _ _)) unknown meets spares
  generalize driving : engine.drive ⟨stage.machine.runnerCount + 1⟩ opened = left at mirrors closes
  generalize running : inner.lines frame (.ofResult (stage.machine.frames.result? frame)) nodes
    { twin with frames := frames, clock := twin.clock + Machine.blockTime } = right at mirrors
  cases mirrors with
  | done value after signal afterTwin fit meets spares =>
    obtain ⟨runner, last, left, known, finished, released, lastMeets, lastSpares⟩ :=
      closes after signal afterTwin (.inl ⟨value, rfl⟩) meets spares
    obtain ⟨other, otherKnown, gives⟩ := fit
    obtain rfl := Option.some.inj (known.symm.trans otherKnown)
    rw [engine.run_block_done nodes frame _ _ opened after last value _ created driving finished,
      inner.block_done _ nodes frame twin frames afterTwin left retained signal running released]
    exact .done runner.last last signal left gives lastMeets lastSpares
  | failed failure after afterTwin meets spares =>
    obtain ⟨runner, last, left, _, finished, released, lastMeets, lastSpares⟩ :=
      closes after (.normal none) afterTwin (.inr ⟨failure, rfl⟩) meets spares
    rw [engine.run_block_failed nodes frame _ _ opened after last failure _ created driving finished,
      inner.block_failed _ nodes frame twin frames afterTwin left retained failure running released]
    exact .failed failure last left lastMeets lastSpares
  | outOfFuel =>
    rw [engine.run_block_exhausted nodes frame _ _ opened created driving,
      inner.block_exhausted _ nodes frame twin frames retained running]
    exact .outOfFuel

end Mirrored

end Structured

end CoopScript
