import CoopScript.Proofs.Lens.Schedule

set_option autoImplicit false
namespace CoopScript

section Rules
variable {lens : Lens} {given : Option Bound → Prop} {engine twin : Engine}

theorem Exec.through_shape {α β : Type} {see : α → β} {good : Option Bound → α → Prop} (step : Exec α) (other : Exec β)
    (node : Node) (same : step = unexpectedShape node) (seen : other = unexpectedShape (lens.node node)) :
    step.Through lens given other see good := by
  rw [same, seen]
  unfold unexpectedShape
  rw [lens.label_node]
  exact through_fail _

namespace ExpressionRule
variable (through : engine.Through lens twin) (node : Node) (frame : FrameId)
include through

theorem through_await : (runAwait engine node frame).Through lens given (runAwait twin (lens.node node) frame) lens.value
    Value.Fits := by
  cases node with
  | await name position operand =>
    rw [lens.node_await]
    refine Exec.through_bind (Engine.evaluate_through through operand frame) fun value => ?_
    rw [lens.task_value]
    cases found : value.task? with
    | none => exact Exec.through_pure value _ rfl fun bound both => both.2
    | some task => exact Engine.await_through through task fun bound both => Value.fits_task both.2 task found
  | _ => exact Exec.through_shape _ _ _ rfl (by simp [runAwait])

theorem through_bracket : (runBracket engine node frame).Through lens given (runBracket twin (lens.node node) frame)
    lens.value Value.Fits := by
  cases node with
  | group name position inner =>
    rw [lens.node_group]
    exact Engine.evaluate_through through inner frame
  | call name position callee arguments =>
    rw [lens.node_call]
    have plainly : Exec.Through lens given
        (do let function ← engine.evaluate callee frame; engine.call function function arguments frame)
        (do let function ← twin.evaluate (lens.node callee) frame
            twin.call function function (lens.lines arguments) frame) lens.value Value.Fits :=
      Exec.through_bind (Engine.evaluate_through through callee frame) fun function =>
        Engine.call_through through function function arguments frame (fun _ both => both.2) fun _ both => both.2
    cases callee with
    | access name position object member =>
      rw [lens.node_access]
      refine Exec.through_bind (Engine.evaluate_through through object frame) fun target => ?_
      refine Exec.through_bind (Exec.through_member_of target member fun _ both => both.2) fun function => ?_
      exact Engine.call_through through target function arguments frame (fun _ both => both.1.2) fun _ both => both.2
    | _ =>
      have seen : ∀ callee : Node, (∀ name position object member, callee ≠ .access name position object member) →
          runBracket twin (.call name (lens.spot position) callee (lens.lines arguments)) frame = (do
            let function ← twin.evaluate callee frame
            twin.call function function (lens.lines arguments) frame) := by
        intro callee other
        cases callee with
        | access name position object member => exact absurd rfl (other name position object member)
        | _ => rfl
      rw [seen _ (by simp)]
      exact plainly
  | _ => exact Exec.through_shape _ _ _ rfl (by simp [runBracket])

theorem through_array : (runArray engine node frame).Through lens given (runArray twin (lens.node node) frame) lens.value
    Value.Fits := by
  cases node with
  | array name position items =>
    rw [lens.node_array]
    refine Exec.through_bind (Exec.through_collect (fun item => engine.evaluate item frame)
      (fun item => twin.evaluate item frame) lens.node items fun item _ => Engine.evaluate_through through item frame)
      fun values => Exec.through_array values fun bound both => both.2
  | index name position object place =>
    rw [lens.node_index]
    refine Exec.through_bind (Engine.evaluate_through through object frame) fun object => ?_
    refine Exec.through_bind (Engine.evaluate_through through place frame) fun place => ?_
    exact Exec.through_item_at object place fun bound both => both.1.2
  | _ => exact Exec.through_shape _ _ _ rfl (by simp [runArray])

theorem through_access : (runAccess engine node frame).Through lens given (runAccess twin (lens.node node) frame) lens.value
    Value.Fits := by
  cases node with
  | access name position object member =>
    rw [lens.node_access]
    refine Exec.through_bind (Engine.evaluate_through through object frame) fun object => ?_
    exact Exec.through_member_of object member fun bound both => both.2
  | _ => exact Exec.through_shape _ _ _ rfl (by simp [runAccess])

theorem through_unary : (runUnary engine node frame).Through lens given (runUnary twin (lens.node node) frame) lens.value
    Value.Fits := by
  cases node with
  | unary name position op operand =>
    rw [lens.node_unary]
    refine Exec.through_bind (Engine.evaluate_through through operand frame) fun value => ?_
    cases op with
    | not =>
      exact Exec.through_bind (Engine.truthy_through through value frame fun _ both => both.2) fun truth =>
        Exec.through_flag _
    | negate =>
      simp only [lens.number_value]
      cases value.number? with
      | some x => exact Exec.through_number _
      | none => exact Exec.through_bind (Exec.through_name_of value) fun className => Exec.through_fail _
  | _ => exact Exec.through_shape _ _ _ rfl (by simp [runUnary])

theorem through_binary : (runBinary engine node frame).Through lens given (runBinary twin (lens.node node) frame) lens.value
    Value.Fits := by
  cases node with
  | binary name position op left right =>
    rw [lens.node_binary]
    refine Exec.through_bind (Engine.evaluate_through through left frame) fun value => ?_
    have strict : Exec.Through lens (fun bound => given bound ∧ value.Fits bound)
        (do let right ← engine.evaluate right frame; Exec.operate op value right)
        (do let right ← twin.evaluate (lens.node right) frame; Exec.operate op (lens.value value) right) lens.value
        Value.Fits :=
      Exec.through_bind (Engine.evaluate_through through right frame) fun later =>
        Exec.through_operate op value later (fun _ both => both.1.2) fun _ both => both.2
    cases op with
    | both =>
      refine Exec.through_bind (Engine.truthy_through through value frame fun _ both => both.2) fun truth => ?_
      cases truth with
      | true => exact Engine.evaluate_through through right frame
      | false => exact Exec.through_pure value _ rfl fun bound both => both.1.2
    | either =>
      refine Exec.through_bind (Engine.truthy_through through value frame fun _ both => both.2) fun truth => ?_
      cases truth with
      | true => exact Exec.through_pure value _ rfl fun bound both => both.1.2
      | false => exact Engine.evaluate_through through right frame
    | _ => exact strict
  | _ => exact Exec.through_shape _ _ _ rfl (by simp [runBinary])

theorem through_assign : (runAssign engine node frame).Through lens given (runAssign twin (lens.node node) frame) lens.value
    Value.Fits := by
  cases node with
  | assign name position target content =>
    rw [lens.node_assign]
    refine Exec.through_bind (Engine.evaluate_through through content frame) fun value => ?_
    refine Exec.through_bind (Exec.through_assign frame target value fun _ both => both.2) fun _ => ?_
    exact Exec.through_pure value _ rfl fun bound both => both.1.2
  | _ => exact Exec.through_shape _ _ _ rfl (by simp [runAssign])

end ExpressionRule

namespace StatementRule
variable (through : engine.Through lens twin) (node : Node) (frame : FrameId)

theorem through_function (engine twin : Engine) : (runFunction engine node frame).Through lens given
    (runFunction twin (lens.node node) frame)
    (Option.map lens.value) fun _ _ => True := by
  cases node with
  | function name position function parameters isAsync body =>
    rw [lens.node_function]
    refine Exec.through_bind (Exec.through_function _ _ (by simp [Lens.function, Lens.body]) fun _ _ _ same => by cases same)
      fun value => ?_
    refine Exec.through_bind (Exec.through_set_variable frame function value fun _ both => both.2) fun _ => ?_
    exact Exec.through_pure none _ rfl fun _ _ => trivial
  | _ => exact Exec.through_shape _ _ _ rfl (by simp [runFunction])

include through

theorem through_return : (runReturn engine node frame).Through lens given (runReturn twin (lens.node node) frame)
    (Option.map lens.value) fun _ _ => True := by
  cases node with
  | giveBack name position content =>
    rw [lens.node_give_back]
    have given_back (value : Value) {less : Option Bound → Prop} : Exec.Through lens (fun bound => less bound ∧ value.Fits bound)
        (do Exec.setReturn frame value; return none : Exec (Option Value))
        (do Exec.setReturn frame (lens.value value); return none : Exec (Option Value)) (Option.map lens.value) fun _ _ => True :=
      Exec.through_bind (Exec.through_set_return frame value fun _ both => both.2) fun _ =>
        Exec.through_pure none _ rfl fun _ _ => trivial
    cases content with
    | none => exact Exec.through_bind Exec.through_void fun value => given_back value
    | some content => exact Exec.through_bind (Engine.evaluate_through through content frame) fun value => given_back value
  | _ => exact Exec.through_shape _ _ _ rfl (by simp [runReturn])

theorem through_nested (lines : List Node) : Exec.Through lens given
    (do let _ ← engine.runBlock lines frame; return none : Exec (Option Value))
    (do let _ ← twin.runBlock (lens.lines lines) frame; return none : Exec (Option Value)) (Option.map lens.value)
    fun _ _ => True :=
  Exec.through_bind (Engine.run_block_through through lines frame) fun _ =>
    Exec.through_pure none _ rfl fun _ _ => trivial

theorem through_if : (runIf engine node frame).Through lens given (runIf twin (lens.node node) frame)
    (Option.map lens.value) fun _ _ => True := by
  cases node with
  | branch name position condition whenTrue whenFalse =>
    rw [lens.node_branch]
    refine Exec.through_bind (Engine.evaluate_through through condition frame) fun value => ?_
    refine Exec.through_bind (Engine.truthy_through through value frame fun _ both => both.2) fun truth => ?_
    dsimp only [id]
    split
    · exact through_nested through frame whenTrue
    · cases whenFalse with
      | some lines => exact through_nested through frame lines
      | none => exact Exec.through_pure none _ rfl fun _ _ => trivial
  | _ => exact Exec.through_shape _ _ _ rfl (by simp [runIf])

theorem through_loop_step (condition : Node) (body : List Node) :
    (loopStep engine condition body frame).Through lens given (loopStep twin (lens.node condition) (lens.lines body) frame)
      (Exec.seeRound id (Option.map lens.value)) fun _ => Sum.elim (fun _ => True) fun _ => True := by
  refine Exec.through_bind (Exec.through_is_unwinding frame) fun unwinding => ?_
  dsimp only [id]
  split
  · exact Exec.through_pure _ _ rfl fun _ _ => trivial
  · refine Exec.through_bind (Engine.evaluate_through through condition frame) fun value => ?_
    refine Exec.through_bind (Engine.truthy_through through value frame fun _ both => both.2) fun truth => ?_
    dsimp only [id]
    split
    · exact Exec.through_pure _ _ rfl fun _ _ => trivial
    · exact Exec.through_bind (Engine.run_block_through through body frame) fun _ =>
        Exec.through_pure _ _ rfl fun _ _ => trivial

theorem through_while : (runWhile engine node frame).Through lens given (runWhile twin (lens.node node) frame)
    (Option.map lens.value) fun _ _ => True := by
  cases node with
  | loop name position condition body =>
    rw [lens.node_loop]
    exact Exec.through_given (Exec.through_iterate _ _ id (fun _ _ => True)
      (fun _ => through_loop_step through frame condition body) engine.fuel twin.fuel through.fewer through.same ())
      fun _ plain => ⟨plain, trivial⟩
  | _ => exact Exec.through_shape _ _ _ rfl (by simp [runWhile])

theorem through_block : (runBlock engine node frame).Through lens given (runBlock twin (lens.node node) frame)
    (Option.map lens.value) fun _ _ => True := by
  cases node with
  | block name position body =>
    rw [lens.node_block]
    exact through_nested through frame body
  | _ =>
    have none (other : Exec (Option Value)) (same : other = pure none) :
        Exec.Through lens given (pure none : Exec (Option Value)) other (Option.map lens.value) fun _ _ => True := by
      rw [same]
      exact Exec.through_pure none _ rfl fun _ _ => trivial
    exact none _ (by simp [runBlock])

end StatementRule

namespace RuleSet
variable (through : engine.Through lens twin)
include through

theorem through_evaluate (node : Node) (frame : FrameId) :
    (standard.evaluate engine node frame).Through lens given (standard.evaluate twin (lens.node node) frame) lens.value
      Value.Fits := by
  have placed (position : Position) (step other : Exec Value) (same : step.Through lens given other lens.value Value.Fits) :
      (step.mapFailure (·.orPosition (some position))).Through lens given
        (other.mapFailure (·.orPosition (some (lens.spot position)))) lens.value Value.Fits :=
    Exec.through_map_failure _ _ (fun failure => lens.failure_or_position failure (some position)) same
  unfold evaluate
  rw [lens.head_node]
  cases node.head with
  | number value => exact Exec.through_number value
  | text value => exact Exec.through_text value
  | void => exact Exec.through_void
  | reference name position => exact placed position _ _ (Exec.through_look_up frame name)
  | expression name position =>
    simp only [Lens.head]
    cases found : standard.expressionRun? name with
    | none => exact Exec.through_fail_at _ position
    | some run =>
      refine placed position _ _ ?_
      obtain ⟨rule, listed, runs⟩ := List.exists_of_findSome?_eq_some found
      have member : rule ∈ ExpressionRule.standard := (List.mem_filter.mp listed).1
      simp only [ExpressionRule.standard, List.mem_cons, List.not_mem_nil, or_false] at member
      rcases member with rfl | rfl | rfl | rfl | rfl | rfl | rfl | rfl | rfl | rfl | rfl | rfl | rfl | rfl | rfl <;>
        cases runs
      · exact ExpressionRule.through_await through node frame
      · exact ExpressionRule.through_bracket through node frame
      · exact ExpressionRule.through_array through node frame
      · exact ExpressionRule.through_access through node frame
      · exact ExpressionRule.through_unary through node frame
      iterate 6 exact ExpressionRule.through_binary through node frame
      exact ExpressionRule.through_assign through node frame
  | statement keyword position => exact Exec.through_fail_at _ position

theorem through_execute (node : Node) (frame : FrameId) :
    (standard.execute engine node frame).Through lens given (standard.execute twin (lens.node node) frame)
      (Option.map lens.value) fun _ _ => True := by
  have valued : Exec.Through lens given (some <$> standard.evaluate engine node frame)
      (some <$> standard.evaluate twin (lens.node node) frame) (Option.map lens.value) fun _ _ => True :=
    Exec.through_bind (through_evaluate through node frame) fun value =>
      Exec.through_pure (some value) _ rfl fun _ _ => trivial
  unfold execute
  rw [lens.head_node]
  cases node.head with
  | statement keyword position =>
    simp only [Lens.head]
    cases found : standard.statementRun? keyword with
    | none => exact Exec.through_fail_at _ position
    | some run =>
      obtain ⟨rule, listed, runs⟩ := Option.map_eq_some_iff.mp found
      have member : rule ∈ StatementRule.standard := List.mem_of_find?_eq_some listed
      simp only [StatementRule.standard, List.mem_cons, List.not_mem_nil, or_false] at member
      rcases member with rfl | rfl | rfl | rfl | rfl <;> cases runs
      · exact StatementRule.through_function node frame engine twin
      · exact StatementRule.through_return through node frame
      · exact StatementRule.through_if through node frame
      · exact StatementRule.through_while through node frame
      · exact StatementRule.through_block through node frame
  | _ => exact valued

end RuleSet

-- What scripts do is seen alike, with more fuel if runs that do not end need not be told from those that do.
theorem RuleSet.through_engine (lens : Lens) (fuel more : Nat) (fewer : fuel ≤ more) (same : lens.exact → fuel = more) :
    (standard.engine fuel).Through lens (standard.engine more) := by
  induction fuel generalizing more with
  | zero =>
    by_cases exactly : lens.exact
    · rw [← same exactly]
      exact ⟨Nat.le_refl _, fun _ => rfl, fun _ _ => Exec.through_exhausted, fun _ _ => Exec.through_exhausted,
        fun _ _ => Exec.through_exhausted, fun _ _ => Exec.through_exhausted⟩
    · exact ⟨Nat.zero_le _, fun known => absurd known exactly, fun _ _ => Exec.through_short _ exactly,
        fun _ _ => Exec.through_short _ exactly, fun _ _ => Exec.through_short _ exactly,
        fun _ _ => Exec.through_short _ exactly⟩
  | succ fuel ih =>
    obtain ⟨more, rfl⟩ : ∃ less, more = less + 1 := ⟨more - 1, by omega⟩
    have through := ih more (by omega) fun known => by have := same known; omega
    exact ⟨fewer, same, fun node frame => through_evaluate through node frame,
      fun node frame => through_execute through node frame,
      fun code invocation => Engine.run_builtin_through through code invocation fun _ fine => fine,
      fun lines frame => Engine.run_body_through through lines frame⟩

end Rules

end CoopScript
