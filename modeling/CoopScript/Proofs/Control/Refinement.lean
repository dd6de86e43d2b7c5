import CoopScript.Proofs.Control.Lines
import CoopScript.Proofs.Stage.Reachable

set_option autoImplicit false
namespace CoopScript

theorem RuleSet.execute_statement (engine : Engine) (node : Node) (frame : FrameId) (keyword : String)
    (position : Position) (run : Engine → Node → FrameId → Exec (Option Value))
    (head : node.head = .statement keyword position) (found : standard.statementRun? keyword = some run) :
    standard.execute engine node frame = run engine node frame := by
  unfold execute
  rw [head]
  simp only [found]

theorem Exec.unwinding_inside (stage : Stage) (frame : FrameId) (inside : stage.Inside frame) :
    isUnwinding frame stage.machine =
      .done (stage.machine.halted || stage.machine.frames.hasReturned frame) stage.machine := by
  obtain ⟨content, found, function⟩ := Stage.inside_found stage frame inside
  have asked : askFrames (·.functionFrame frame) stage.machine = .done (some frame) stage.machine := by
    simp only [askFrames, stage.machine.frames.function_frame_own frame content found function]
  unfold isUnwinding
  rw [halted_then]
  cases stage.machine.halted with
  | true => rfl
  | false =>
    rw [if_neg Bool.false_ne_true, bind_done _ _ _ _ _ asked]
    rfl

theorem StatementRule.loop_step_over (engine : Engine) (condition : Node) (body : List Node) (frame : FrameId)
    (machine : Machine) (unwinding : Exec.isUnwinding frame machine = .done true machine) :
    loopStep engine condition body frame machine = .done (.inr none) machine := by
  unfold loopStep
  rw [Exec.bind_done _ _ _ _ _ unwinding]
  rfl

theorem StatementRule.loop_step_on (engine : Engine) (condition : Node) (body : List Node) (frame : FrameId)
    (machine : Machine) (going : Exec.isUnwinding frame machine = .done false machine) :
    loopStep engine condition body frame machine = (do
      let value ← engine.evaluate condition frame
      if !(← engine.truthy value frame) then return .inr none
      let _ ← engine.runBlock body frame
      return .inl () : Exec (Unit ⊕ Option Value)) machine := by
  unfold loopStep
  rw [Exec.bind_done _ _ _ _ _ going]
  rfl

namespace Structured

theorem loop_step_halted (inner : Structured) (condition : Node) (body : List Node) (frame : FrameId)
    (last : Option Value) (machine : Machine) (halted : machine.halted = true) :
    inner.loopStep condition body frame (.normal last) machine = .done (.inr .halted) machine := by
  simp only [loopStep]
  rw [Exec.halted_then, halted]
  rfl

theorem loop_step_on (inner : Structured) (condition : Node) (body : List Node) (frame : FrameId)
    (last : Option Value) (machine : Machine) (going : machine.halted = false) :
    inner.loopStep condition body frame (.normal last) machine = (do
      let value ← inner.engine.evaluate condition frame
      if !(← inner.engine.truthy value frame) then return .inr (.normal none)
      return .inl (← inner.block (.normal none) body frame) : Exec (Signal ⊕ Signal)) machine := by
  simp only [loopStep]
  rw [Exec.halted_then, going]
  rfl

variable (engine : Engine) (inner : Structured) (mirrored : inner.Mirrored engine) (stage : Stage)
  (frame : FrameId) (inside : stage.Inside frame) (last : Option Value) (machine : Machine)
  (meets : stage.machine.Meets frame (.normal last) machine)
include inside meets

theorem set_return_mirrors (value : Value) :
    stage.Mirrors frame (fun value _ signal => signal.Gives value)
      ((do Exec.setReturn frame value; return none : Exec (Option Value)) stage.machine)
      ((Pure.pure (.returned value) : Exec Signal) machine) := by
  obtain ⟨content, found, function⟩ := Stage.inside_found stage frame inside
  have asked := stage.machine.frames.function_frame_own frame content found function
  have done : Exec.setReturn frame value stage.machine = .done () { stage.machine with
      frames := stage.machine.frames.setFrame frame.index { content with returned := some value } } := by
    simp only [Exec.setReturn, Exec.updateFrames, Arena.setReturn, asked, Arena.update, found]
  have read := stage.machine.frames.frame_set frame frame content { content with returned := some value } found
  rw [if_pos rfl] at read
  rw [Exec.bind_done _ _ _ _ () done]
  refine .done none _ (.returned value) machine (by rintro _ ⟨⟩) ⟨?_, by rintro ⟨⟩, ?_⟩
    ⟨fun id _ elsewhere none => ?_, fun _ _ known => known⟩
  · simp only [Arena.result?, read, Option.bind_some, Signal.result?]
  · have same := stage.machine.frames.cleared_set frame content { content with returned := some value } found
    have twins := meets.twins
    unfold Machine.cleared Arena.cleared at twins
    simp only [found] at twins
    simp only [Machine.cleared, same]
    exact twins
  · simp only [stage.machine.frames.returned_set frame id content _ found elsewhere]
    exact none

include mirrored

theorem normal_block_mirrors (nodes : List Node) :
    stage.Mirrors frame (fun value _ signal => signal.Gives value) (engine.runBlock nodes frame stage.machine)
      (inner.block (.normal none) nodes frame machine) := by
  have blank : stage.machine.frames.result? frame = none := meets.result
  have mirrors := block_mirrors engine inner mirrored stage frame inside nodes machine meets.twins
  rw [blank] at mirrors
  exact mirrors

theorem nested_mirrors (nodes : List Node) :
    stage.Mirrors frame (fun value _ signal => signal.Gives value)
      ((do let _ ← engine.runBlock nodes frame; return none : Exec (Option Value)) stage.machine)
      ((do return (← inner.block (.normal none) nodes frame).silent : Exec Signal) machine) := by
  refine Exec.mirrors_bind stage stage frame (fun _ member => member) (stage.spares_here frame) (fun _ => True) _ _ _ _
    _ _ machine (engine.lawful_run_block mirrored.tied.lawful nodes frame stage inside.sound)
    (normal_block_mirrors engine inner mirrored stage frame inside last machine meets nodes) ?_
  intro value after signal twin _ _ afterMeets spares
  refine .done none after signal.silent twin ?_ (after.meets_signal twin frame signal _ afterMeets ?_ ?_) spares
  · cases signal with
    | normal value => exact fun other same => by cases same; rfl
    | returned value => exact fun _ same => nomatch same
    | halted => exact fun _ same => nomatch same
  · cases signal <;> rfl
  · cases signal with
    | normal value => exact fun same => nomatch same
    | returned value => exact fun same => nomatch same
    | halted => exact fun _ => rfl

theorem return_mirrors (value : Option Node) (position : Position) :
    stage.Mirrors frame (fun value _ signal => signal.Gives value)
      (RuleSet.standard.execute engine (.giveBack "return" position value) frame stage.machine)
      (inner.statement (.giveBack "return" position value) frame machine) := by
  rw [RuleSet.execute_statement engine _ frame "return" position StatementRule.runReturn rfl rfl]
  have given : ∀ value after twin, Value.Plain value → (stage.put after).Inside frame →
      after.Meets frame (.normal none) twin → _ := fun value after twin _ afterInside afterMeets =>
    set_return_mirrors (stage.put after) frame afterInside none twin afterMeets value
  cases value with
  | some value =>
    exact Exec.mirrors_after stage frame inside last machine meets Value.Plain _ _ _ _ _
      (engine.tied_evaluate True inner.engine mirrored.tied value frame) given
  | none =>
    exact Exec.mirrors_after stage frame inside last machine meets Value.Plain _ _ _ _ _
      (Exec.tied_void True) given

theorem branch_mirrors (condition : Node) (whenTrue : List Node) (whenFalse : Option (List Node))
    (position : Position) :
    stage.Mirrors frame (fun value _ signal => signal.Gives value)
      (RuleSet.standard.execute engine (.branch "if" position condition whenTrue whenFalse) frame stage.machine)
      (inner.statement (.branch "if" position condition whenTrue whenFalse) frame machine) := by
  rw [RuleSet.execute_statement engine _ frame "if" position StatementRule.runIf rfl rfl]
  refine Exec.mirrors_after stage frame inside last machine meets Value.Plain _ _ _ _ _
    (engine.tied_evaluate True inner.engine mirrored.tied condition frame) ?_
  intro value after twin plain afterInside afterMeets
  refine Exec.mirrors_after (stage.put after) frame afterInside none twin afterMeets (fun _ => True) _ _ _ _ _
    (engine.tied_truthy True inner.engine mirrored.tied value frame plain) ?_
  intro truth later laterTwin _ laterInside laterMeets
  cases truth with
  | true =>
    exact nested_mirrors engine inner mirrored (stage.put later) frame laterInside none laterTwin laterMeets whenTrue
  | false =>
    cases whenFalse with
    | some nodes =>
      exact nested_mirrors engine inner mirrored (stage.put later) frame laterInside none laterTwin laterMeets nodes
    | none =>
      exact .done none later (.normal none) laterTwin (fun other same => by cases same; rfl) laterMeets
        (Stage.spares_here (stage.put later) frame)

omit meets in
-- What a loop goes on from is a signal too: its last round may have ended in any way.
theorem rounds_mirror (condition : Node) (body : List Node) (fuel : Nat) (signal : Signal)
    (meets : stage.machine.Meets frame signal machine) :
    stage.Mirrors frame (fun value _ signal => value = none ∧ signal.Gives none)
      (Exec.iterate (fun _ => StatementRule.loopStep engine condition body frame) fuel () stage.machine)
      (Exec.iterate (inner.loopStep condition body frame) fuel signal machine) := by
  induction fuel generalizing stage signal machine with
  | zero => exact .outOfFuel
  | succ fuel ih =>
    have asked := Exec.unwinding_inside stage frame inside
    have halting := stage.machine.meets_halted machine frame signal meets
    have isOver : ∀ last, (stage.machine.halted || stage.machine.frames.hasReturned frame) = true → last.Gives none →
        stage.machine.Meets frame last machine → inner.loopStep condition body frame signal machine =
          .done (.inr last) machine → stage.Mirrors frame (fun value _ signal => value = none ∧ signal.Gives none)
          (Exec.iterate (fun _ => StatementRule.loopStep engine condition body frame) (fuel + 1) () stage.machine)
          (Exec.iterate (inner.loopStep condition body frame) (fuel + 1) signal machine) := by
      intro last unwinding gives lastMeets ended
      rw [unwinding] at asked
      rw [Exec.iterate_ended _ fuel () none stage.machine stage.machine
          (StatementRule.loop_step_over engine condition body frame stage.machine asked),
        Exec.iterate_ended _ fuel _ last machine machine ended]
      exact .done none _ last machine ⟨rfl, gives⟩ lastMeets (stage.spares_here frame)
    cases signal with
    | returned value =>
      refine isOver (.returned value) ?_ (fun _ same => nomatch same) meets rfl
      rw [Arena.returned_result, meets.result, Bool.or_eq_true]
      exact .inr rfl
    | halted =>
      refine isOver .halted ?_ (fun _ same => nomatch same) meets rfl
      rw [meets.halted rfl]
      rfl
    | normal last =>
      cases halted : stage.machine.halted with
      | true =>
        exact isOver .halted (by rw [halted]; rfl) (fun _ same => nomatch same)
          ⟨meets.result, fun _ => halted, meets.twins⟩
          (inner.loop_step_halted condition body frame last machine (halting.trans halted))
      | false =>
        rw [halted, (stage.machine.meets_normal machine frame last meets).1] at asked
        rw [Exec.iterate_unrolled, Exec.iterate_unrolled,
          Exec.bind_same _ _ _ stage.machine _
            (StatementRule.loop_step_on engine condition body frame stage.machine asked),
          Exec.bind_same _ _ _ machine _
            (inner.loop_step_on condition body frame last machine (halting.trans halted))]
        simp only [Exec.bind_assoc]
        refine Exec.mirrors_after stage frame inside last machine meets Value.Plain _ _ _ _ _
          (engine.tied_evaluate True inner.engine mirrored.tied condition frame) ?_
        intro value after twin plain afterInside afterMeets
        refine Exec.mirrors_after (stage.put after) frame afterInside none twin afterMeets (fun _ => True) _ _ _ _ _
          (engine.tied_truthy True inner.engine mirrored.tied value frame plain) ?_
        intro truth here hereTwin _ hereInside hereMeets
        cases truth with
        | false =>
          exact .done none here (.normal none) hereTwin ⟨rfl, fun other same => by cases same; rfl⟩ hereMeets
            (Stage.spares_here (stage.put here) frame)
        | true =>
          simp only [Bool.not_true, Bool.false_eq_true, if_false, Exec.bind_assoc]
          refine Exec.mirrors_bind (stage.put here) (stage.put here) frame (fun _ member => member)
            (Stage.spares_here (stage.put here) frame) (fun _ => True) _ _ _ _ _ _ hereTwin
            (engine.lawful_run_block mirrored.tied.lawful body frame (stage.put here) hereInside.sound)
            (normal_block_mirrors engine inner mirrored (stage.put here) frame hereInside none hereTwin hereMeets body)
            ?_
          intro given later signal laterTwin reaches _ laterMeets spares
          have onward := ih (stage.put later)
            (Stage.inside_reaches (stage.put here) frame _ later hereInside reaches) laterTwin signal laterMeets
          exact Stage.mirrors_within (stage.put here) (stage.put later) frame _ _ _
            (fun id => (Stage.firm_put (stage.put here) later reaches.registered id).mpr) spares onward

theorem while_mirrors (condition : Node) (body : List Node) (position : Position) :
    stage.Mirrors frame (fun value _ signal => signal.Gives value)
      (RuleSet.standard.execute engine (.loop "while" position condition body) frame stage.machine)
      (inner.statement (.loop "while" position condition body) frame machine) := by
  rw [RuleSet.execute_statement engine _ frame "while" position StatementRule.runWhile rfl rfl]
  have rounds := rounds_mirror engine inner mirrored stage frame inside machine condition body engine.fuel (.normal none)
    (stage.machine.meets_signal machine frame _ _ meets rfl fun same => nomatch same)
  show stage.Mirrors frame _ (Exec.iterate (fun _ => StatementRule.loopStep engine condition body frame) engine.fuel ()
    stage.machine) (Exec.iterate (inner.loopStep condition body frame) inner.engine.fuel (.normal none) machine)
  rw [mirrored.tied.fuel]
  generalize Exec.iterate (fun _ => StatementRule.loopStep engine condition body frame) engine.fuel ()
    stage.machine = left at rounds ⊢
  generalize Exec.iterate (inner.loopStep condition body frame) engine.fuel (.normal none) machine = right at rounds ⊢
  cases rounds with
  | done value after signal twin fit afterMeets spares =>
    obtain ⟨rfl, gives⟩ := fit
    exact .done none after signal twin gives afterMeets spares
  | failed failure after twin afterMeets spares => exact .failed failure after twin afterMeets spares
  | outOfFuel => exact .outOfFuel

theorem block_statement_mirrors (nodes : List Node) (position : Position) :
    stage.Mirrors frame (fun value _ signal => signal.Gives value)
      (RuleSet.standard.execute engine (.block "block" position nodes) frame stage.machine)
      (inner.statement (.block "block" position nodes) frame machine) := by
  rw [RuleSet.execute_statement engine _ frame "block" position StatementRule.runBlock rfl rfl]
  exact nested_mirrors engine inner mirrored stage frame inside last machine meets nodes

omit inside meets mirrored in
-- Statements that pass on no signal are run by their rules on both sides.
theorem agree_other_rule (other : Engine) (node : Node) (keyword : String) (position : Position)
    (run : Engine → Node → FrameId → Exec (Option Value)) (head : node.head = .statement keyword position)
    (found : RuleSet.standard.statementRun? keyword = some run)
    (notReturn : ∀ position value, node ≠ .giveBack "return" position value)
    (notIf : ∀ position condition whenTrue whenFalse, node ≠ .branch "if" position condition whenTrue whenFalse)
    (notWhile : ∀ position condition body, node ≠ .loop "while" position condition body)
    (notBlock : ∀ position body, node ≠ .block "block" position body) :
    (run engine node frame).Agree (run other node frame) := by
  obtain ⟨rule, listed, runs⟩ := Option.map_eq_some_iff.mp found
  have named : rule.name = keyword := by simpa using List.find?_some listed
  have member : rule ∈ StatementRule.standard := List.mem_of_find?_eq_some listed
  simp only [StatementRule.standard, List.mem_cons, List.not_mem_nil, or_false] at member
  have odd := Exec.agree_inert (Exec.unexpectedShape node : Exec (Option Value)) (Exec.inert_raise _)
  rcases member with rfl | rfl | rfl | rfl | rfl <;> cases runs
  · apply Exec.agree_inert
    cases node with
    | function keyword position name parameters isAsync body =>
      exact Exec.inert_bind _ _ (Exec.inert_function _) fun function =>
        Exec.inert_bind _ _ (Exec.inert_set_variable frame name function) fun _ => Exec.inert_pure _
    | _ => exact Exec.inert_raise _
  · cases node with
    | giveBack name place value =>
      obtain ⟨rfl, rfl⟩ := Head.statement.inj head
      exact absurd (named ▸ rfl) (notReturn place value)
    | _ => exact odd
  · cases node with
    | branch name place condition whenTrue whenFalse =>
      obtain ⟨rfl, rfl⟩ := Head.statement.inj head
      exact absurd (named ▸ rfl) (notIf place condition whenTrue whenFalse)
    | _ => exact odd
  · cases node with
    | loop name place condition body =>
      obtain ⟨rfl, rfl⟩ := Head.statement.inj head
      exact absurd (named ▸ rfl) (notWhile place condition body)
    | _ => exact odd
  · cases node with
    | block name place body =>
      obtain ⟨rfl, rfl⟩ := Head.statement.inj head
      exact absurd (named ▸ rfl) (notBlock place body)
    | _ => exact Exec.agree_inert _ (Exec.inert_pure _)

omit mirrored in
theorem other_mirrors (node : Node)
    (agree : (RuleSet.standard.execute engine node frame).Agree (RuleSet.standard.execute inner.engine node frame)) :
    stage.Mirrors frame (fun value _ signal => signal.Gives value)
      (RuleSet.standard.execute engine node frame stage.machine)
      ((do return .normal (← RuleSet.standard.execute inner.engine node frame) : Exec Signal) machine) := by
  obtain ⟨blank, twins⟩ := Machine.meets_normal _ machine frame last meets
  have agrees := agree stage machine inside.sound twins
  generalize RuleSet.standard.execute engine node frame stage.machine = left at agrees ⊢
  generalize ran : RuleSet.standard.execute inner.engine node frame machine = right at agrees
  cases agrees with
  | done value after twin twinsAfter keeps =>
    rw [Exec.bind_done _ _ _ _ value ran]
    exact .done value after (.normal value) twin (fun other same => by cases same; rfl)
      (Machine.meets_blank after twin frame value (keeps.results frame inside.member blank) twinsAfter)
      (Stage.spares_keeps stage frame after keeps)
  | failed failure after twin twinsAfter keeps =>
    rw [Exec.bind_failed _ _ _ _ failure ran]
    exact .failed failure after twin
      (Machine.meets_blank after twin frame none (keeps.results frame inside.member blank) twinsAfter)
      (Stage.spares_keeps stage frame after keeps)
  | outOfFuel =>
    rw [Exec.bind_exhausted _ _ _ ran]
    exact .outOfFuel

theorem statement_mirrors (node : Node) :
    stage.Mirrors frame (fun value _ signal => signal.Gives value)
      (RuleSet.standard.execute engine node frame stage.machine) (inner.statement node frame machine) := by
  unfold statement
  split
  next position value =>
    exact return_mirrors engine inner mirrored stage frame inside last machine meets (some value) position
  next position => exact return_mirrors engine inner mirrored stage frame inside last machine meets none position
  next position condition whenTrue whenFalse =>
    exact branch_mirrors engine inner mirrored stage frame inside last machine meets condition whenTrue whenFalse
      position
  next position condition body =>
    exact while_mirrors engine inner mirrored stage frame inside last machine meets condition body position
  next position body =>
    exact block_statement_mirrors engine inner mirrored stage frame inside last machine meets body position
  next notValue notVoid notIf notWhile notBlock =>
    refine other_mirrors engine inner stage frame inside last machine meets node ?_
    have valued := (RuleSet.tied_evaluate True engine inner.engine mirrored.tied node frame).agree trivial
    unfold RuleSet.execute
    cases head : node.head with
    | statement keyword position =>
      simp only
      cases found : RuleSet.standard.statementRun? keyword with
      | none => exact Exec.agree_inert _ (Exec.inert_raise _)
      | some run =>
        refine agree_other_rule engine frame inner.engine node keyword position run head found ?_
          (fun _ _ _ _ same => notIf _ _ _ _ same) (fun _ _ _ same => notWhile _ _ _ same)
          (fun _ _ same => notBlock _ _ same)
        rintro place (_ | value) same
        · exact notVoid place same
        · exact notValue place value same
    | _ =>
      exact Exec.agree_bind Value.Plain _ _ _ _
        (RuleSet.tied_evaluate True engine inner.engine mirrored.tied node frame).lawful valued
        fun _ _ => Exec.agree_inert _ (Exec.inert_pure _)

omit inside meets in
-- A body gives its result out of the frame, which has none when the body begins but for what others put there.
theorem body_agrees (nodes : List Node) (task : Option TaskId) (calls : List Call) (held : List FrameId)
    (here twin : Machine) (sound : (Stage.mk (⟨frame, task, true⟩ :: calls) held here).Sound)
    (function : here.frames.OfFunction frame) (twins : here.Twin twin) :
    (Stage.mk (⟨frame, task, true⟩ :: calls) held here).Agrees (engine.runBody nodes frame here)
      (inner.body nodes frame twin) := by
  generalize stageSame : Stage.mk (⟨frame, task, true⟩ :: calls) held here = stage at sound ⊢
  have inside : stage.Inside frame := by
    refine ⟨sound, ?_, by rw [← stageSame]; exact function⟩
    rw [← stageSame]
    simp [Stage.firm]
  obtain rfl : stage.machine = here := by rw [← stageSame]
  have taken : ∀ machine : Machine, machine.frames.isLive frame = true → Exec.takeReturn frame machine =
      .done (machine.frames.result? frame) (machine.cleared frame) := by
    intro machine live
    simp only [Exec.takeReturn, Exec.changeFrames, machine.frames.take_return_cleared frame live]
    rfl
  have live := Stage.firm_live stage sound frame inside.member
  obtain ⟨runners, count, rfl⟩ := twins
  have mirrors := block_mirrors engine inner mirrored stage frame inside nodes
    ((stage.machine.cleared frame).enlisted runners count) ⟨runners, count, rfl⟩
  have follows := engine.lawful_run_block mirrored.tied.lawful nodes frame stage sound
  have stays := fun after left => Stage.firm_live (stage.put after)
    (stage.follows_sound _ _ after sound follows left) frame
    ((stage.firm_put after (stage.follows_registered _ _ after follows left) frame).mpr inside.member)
  unfold Engine.runBody body
  rw [Exec.bind_done _ _ (stage.machine.enlisted runners count) _ _ (taken _ live)]
  show stage.Agrees _ ((inner.block (.ofResult (stage.machine.frames.result? frame)) nodes frame >>= _)
    ((stage.machine.cleared frame).enlisted runners count))
  generalize ran : engine.runBlock nodes frame stage.machine = left at mirrors stays
  generalize ranTwin : inner.block (.ofResult (stage.machine.frames.result? frame)) nodes frame
    ((stage.machine.cleared frame).enlisted runners count) = right at mirrors
  cases mirrors with
  | done value after signal afterTwin _ meets spares =>
    rw [Exec.bind_done _ _ _ _ value ran, Exec.bind_done _ _ _ _ signal ranTwin,
      taken after (stays after (.inl ⟨value, rfl⟩)), meets.result]
    refine .done signal.result? (after.cleared frame) afterTwin meets.twins ⟨fun id member none => ?_, spares.runners⟩
    by_cases same : id = frame
    · subst same
      obtain ⟨content, found⟩ := (Arena.live_found after.frames id).mp (stays after (.inl ⟨value, rfl⟩))
      simp only [Machine.cleared, Arena.hasReturned, after.frames.frame_cleared id content found, Option.isSome_none]
    · simp only [Machine.cleared, after.frames.returned_cleared frame id same]
      exact spares.results id member same none
  | failed failure after afterTwin meets spares =>
    rw [Exec.bind_failed _ _ _ _ failure ran, Exec.bind_failed _ _ _ _ failure ranTwin]
    obtain ⟨blank, twinsAfter⟩ := after.meets_normal afterTwin frame none meets
    exact .failed failure after afterTwin twinsAfter (stage.keeps_spares frame after spares blank)
  | outOfFuel =>
    rw [Exec.bind_exhausted _ _ _ ran, Exec.bind_exhausted _ _ _ ranTwin]
    exact .outOfFuel

omit inside meets mirrored in
theorem mirrored_standard (fuel : Nat) : (ofFuel fuel).Mirrored (RuleSet.standard.engine fuel) := by
  induction fuel with
  | zero =>
    have idle : ∀ {α : Type}, (Exec.exhausted : Exec α).Agree Exec.exhausted :=
      Exec.agree_inert _ Exec.inert_exhausted
    exact ⟨⟨RuleSet.lawful_engine 0, rfl, fun _ _ _ => idle, fun _ _ _ _ _ => idle,
      fun _ _ _ _ _ _ _ _ _ _ _ => .outOfFuel⟩, fun _ _ _ _ _ _ _ => .outOfFuel⟩
  | succ fuel ih =>
    refine ⟨⟨RuleSet.lawful_engine (fuel + 1), rfl, fun _ node frame => ?_, fun _ code invocation ordinary plain => ?_,
      fun _ nodes frame task calls held machine twin sound function twins => ?_⟩,
      fun stage frame last machine node inside meets => ?_⟩
    · exact (RuleSet.tied_evaluate True _ _ ih.tied node frame).agree trivial
    · exact ((RuleSet.standard.engine fuel).tied_run_native True _ ih.tied code invocation ordinary plain).agree trivial
    · exact body_agrees (RuleSet.standard.engine fuel) (ofFuel fuel) ih frame nodes task calls held machine twin
        sound function twins
    · exact Exec.mirrors_map_failure stage frame _ (Engine.trace node) _ _ machine
        (statement_mirrors (RuleSet.standard.engine fuel) (ofFuel fuel) ih stage frame inside last machine meets node)

end Structured

-- A `return` that is executed leaves its value in the frame of the function that it stands in.
theorem return_returns (fuel : Nat) (position : Position) (value : Option Node) (frame : FrameId)
    (machine after : Machine) (last : Option Value)
    (done : (RuleSet.standard.engine (fuel + 1)).executeLine (.giveBack "return" position value) frame machine =
      .done last after) :
    ∃ function, after.frames.functionFrame frame = .ok (some function) ∧
      after.frames.hasReturned function = true := by
  have ran : (RuleSet.standard.engine (fuel + 1)).execute (.giveBack "return" position value) frame machine =
      .done last after := by
    unfold Engine.executeLine Exec.mapFailure at done
    generalize (RuleSet.standard.engine (fuel + 1)).execute (.giveBack "return" position value) frame machine =
      outcome at done ⊢
    cases outcome with
    | done => exact done
    | failed => cases done
    | outOfFuel => cases done
  change RuleSet.standard.execute (RuleSet.standard.engine fuel) (.giveBack "return" position value) frame machine =
    .done last after at ran
  rw [RuleSet.execute_statement _ _ frame "return" position StatementRule.runReturn rfl rfl] at ran
  have stored : ∃ given middle, (do Exec.setReturn frame given; return none : Exec (Option Value)) middle =
      .done last after := by
    cases value with
    | some value =>
      obtain ⟨middle, given, _, set⟩ := Exec.done_of_bind (Engine.evaluate _ value frame) _ machine after last ran
      exact ⟨given, middle, set⟩
    | none =>
      obtain ⟨middle, given, _, set⟩ := Exec.done_of_bind Exec.void _ machine after last ran
      exact ⟨given, middle, set⟩
  obtain ⟨given, middle, set⟩ := stored
  obtain ⟨left, _, kept, ended⟩ := Exec.done_of_bind _ _ middle after last set
  cases ended
  unfold Exec.setReturn Exec.updateFrames at kept
  split at kept
  next frames same =>
    cases kept
    exact Arena.set_return_done middle.frames frames frame given same
  next => cases kept

-- Runners and loops of a function that has its result ask no engine for anything.
theorem returned_over (machine : Machine) (function : FrameId) (returned : machine.frames.hasReturned function = true)
    (engine : Engine) :
    (∀ id runner, machine.runner? id = some runner → runner.functionFrame = some function → 0 < engine.fuel →
      engine.drive id machine = .done () machine) ∧
    (∀ condition body frame rounds, machine.frames.functionFrame frame = .ok (some function) →
      Exec.iterate (fun _ => StatementRule.loopStep engine condition body frame) (rounds + 1) () machine =
        .done none machine) := by
  constructor
  · intro id runner known own positive
    have isOver : (machine.halted || machine.runnerReturned id) = true := by
      rw [machine.returned_known id runner function known own, returned, Bool.or_true]
    obtain ⟨fuel, same⟩ : ∃ fuel, engine.fuel = fuel + 1 := ⟨engine.fuel - 1, by omega⟩
    unfold Engine.drive
    rw [same]
    exact Exec.iterate_ended _ fuel () () machine machine (engine.step_over id machine isOver)
  · intro condition body frame rounds asked
    have answered : Exec.askFrames (·.functionFrame frame) machine = .done (some function) machine := by
      simp only [Exec.askFrames, asked]
    have unwinding : Exec.isUnwinding frame machine = .done true machine := by
      unfold Exec.isUnwinding
      rw [Exec.halted_then]
      cases machine.halted with
      | true => rfl
      | false =>
        rw [if_neg Bool.false_ne_true, Exec.bind_done _ _ _ _ _ answered, ← returned]
        rfl
    exact Exec.iterate_ended _ rounds () none machine machine
      (StatementRule.loop_step_over engine condition body frame machine unwinding)

-- Finishing a block does not take the result away.
theorem finished_returned (stage : Stage) (sound : stage.Sound) (id : RunnerId) (last : Option Value)
    (after : Machine) (function : FrameId) (finished : Exec.finishRunner id stage.machine = .done last after)
    (returned : stage.machine.frames.hasReturned function = true) (live : after.frames.isLive function = true) :
    after.frames.hasReturned function = true := by
  rcases Exec.finish_runner_done id last stage.machine after finished with ⟨_, rfl⟩ | found
  · exact returned
  · obtain ⟨runner, frames, known, released, rfl⟩ := found
    obtain ⟨left, done, _, shrinks⟩ := Arena.kept_release stage.machine.frames _ runner.frame
      (Stage.runner_ledger stage.calls stage.held stage.machine id runner known sound)
    rw [released] at done
    cases done
    obtain ⟨content, found⟩ := (Arena.live_found frames function).mp live
    obtain ⟨earlier, earlierFound, _, _, _, same⟩ := shrinks function content found
    simp only [Arena.hasReturned, earlierFound, found] at returned ⊢
    rw [same]
    exact returned

theorem script_calls_structured (config : Config) (stage : Stage) (reached : Reachable config stage) (fuel : Nat) :
    (∀ name lines arguments caller, arguments.All Value.Plain →
      stage.Agrees ((RuleSet.standard.engine fuel).invokeScript name lines arguments caller stage.machine)
        ((Structured.ofFuel fuel).engine.invokeScript name lines arguments caller stage.machine)) ∧
    (∀ position value frame last after,
      (RuleSet.standard.engine (fuel + 1)).executeLine (.giveBack "return" position value) frame stage.machine =
          .done last after →
        ∃ function, after.frames.functionFrame frame = .ok (some function) ∧
          after.frames.hasReturned function = true) ∧
    ∀ function, stage.machine.frames.hasReturned function = true →
      (∀ (engine : Engine) id runner, stage.machine.runner? id = some runner →
        runner.functionFrame = some function → 0 < engine.fuel →
          engine.drive id stage.machine = .done () stage.machine) ∧
      (∀ (engine : Engine) condition body frame rounds,
        stage.machine.frames.functionFrame frame = .ok (some function) →
          Exec.iterate (fun _ => StatementRule.loopStep engine condition body frame) (rounds + 1) () stage.machine =
            .done none stage.machine) ∧
      ∀ id last after, Exec.finishRunner id stage.machine = .done last after →
        after.frames.isLive function = true → after.frames.hasReturned function = true := by
  have sound := reachable_sound config stage reached
  have mirrored := Structured.mirrored_standard fuel
  refine ⟨fun name lines arguments caller plain => ?_, ?_, fun function returned => ⟨?_, ?_, ?_⟩⟩
  · exact Engine.invoke_script_agrees True _ _ mirrored.tied trivial name lines arguments caller plain stage
      stage.machine sound stage.machine.twin_refl
  · exact fun position value frame last after => return_returns fuel position value frame stage.machine after last
  · exact fun engine => (returned_over stage.machine function returned engine).1
  · exact fun engine => (returned_over stage.machine function returned engine).2
  · exact fun id last after finished live =>
      finished_returned stage sound id last after function finished returned live

-- A loop without end that is left from two blocks inside it.
def endlessSearch : List Node :=
  [.loop "while" (.start none) (.reference "true" (.start none))
    [.branch "if" (.start none) (.reference "true" (.start none))
      [.block "block" (.start none) [.giveBack "return" (.start none) (some (.text "found"))]] none]]

def Outcome.text? : Outcome Value → Option String
  | .done value _ => value.text?
  | _ => none

theorem endless_search_returns : ∃ value after twin,
    (RuleSet.standard.engine 12).invokeScript "search" endlessSearch .empty Arena.root (Machine.start .standard) =
      .done value after ∧
    (Structured.ofFuel 12).engine.invokeScript "search" endlessSearch .empty Arena.root (Machine.start .standard) =
      .done value twin ∧
    after.Twin twin ∧ value.text? = some "found" := by
  have agrees := (script_calls_structured .standard (.start .standard) .start 12).1 "search" endlessSearch .empty
    Arena.root (NameMap.all_empty Value.Plain)
  have ran : ((RuleSet.standard.engine 12).invokeScript "search" endlessSearch .empty Arena.root
      (Stage.start .standard).machine).text? = some "found" := by decide +kernel
  cases outcome : (RuleSet.standard.engine 12).invokeScript "search" endlessSearch .empty Arena.root
    (Stage.start .standard).machine with
  | done value after =>
    rw [outcome] at ran agrees
    generalize same : (Structured.ofFuel 12).engine.invokeScript "search" endlessSearch .empty Arena.root
      (Stage.start .standard).machine = other at agrees
    cases agrees with
    | done _ _ twin twins _ => exact ⟨value, after, twin, outcome, same, twins, ran⟩
  | failed | outOfFuel =>
    rw [outcome] at ran
    cases ran

end CoopScript
