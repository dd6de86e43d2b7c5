import CoopScript.Proofs.Exit.Leeway
import CoopScript.Proofs.Fault.Schedule
import CoopScript.Proofs.Grammar.Image
import CoopScript.Rule.Standard

set_option autoImplicit false
namespace CoopScript.Node

theorem literal_still (leeway : Leeway) (node : Node) (literal : node.literal = true) : node.still leeway = true := by
  cases node <;> first | rfl | cases literal

theorem literals_still (leeway : Leeway) (nodes : List Node) (literals : nodes.all literal = true) :
    allStill leeway nodes = true :=
  (all_still_iff leeway nodes).mpr fun node member => literal_still leeway node (List.all_eq_true.mp literals node member)

mutual

theorem tolerant_still (node : Node) (tolerant : node.tolerant .full = true) : node.still .full = true := by
  cases node with
  | number | text | void | reference => rfl
  | binary name position op left right =>
    have first := tolerant_still left
    have second := tolerant_still right
    have literal := literal_still .full right
    cases op <;> simp only [Node.tolerant, Node.still, Bool.and_eq_true, Bool.or_eq_true] at tolerant ⊢ <;> tauto
  | unary name position op operand =>
    have inner := tolerant_still operand
    cases op <;> simp only [Node.tolerant, Node.still, Bool.and_eq_true] at tolerant ⊢ <;> tauto
  | group name position operand | assign name position target operand | await name position operand =>
    have inner := tolerant_still operand
    simp only [Node.tolerant, Node.still, Bool.and_eq_true] at tolerant ⊢
    tauto
  | access | index => simpa only [Node.tolerant, Node.still] using tolerant
  | array name position items =>
    have inner := tolerant_items_still items
    simp only [Node.tolerant, Node.still, Bool.and_eq_true] at tolerant ⊢
    tauto
  | call name position callee arguments =>
    have inner := tolerant_arguments_still arguments
    simp only [Node.tolerant, Node.still, Bool.and_eq_true] at tolerant ⊢
    exact ⟨⟨⟨rfl, tolerant.1.1⟩, tolerant.1.2⟩, inner tolerant.2⟩
  | function | giveBack | branch | loop | block => simp only [Node.tolerant, Bool.false_eq_true] at tolerant

theorem tolerant_items_still (items : List Node) (tolerant : tolerantItems .full items = true) :
    allStill .full items = true := by
  cases items with
  | nil => rfl
  | cons item rest =>
    have first := tolerant_still item
    have later := tolerant_items_still rest
    have literals := literals_still .full rest
    simp only [tolerantItems, allStill, Bool.and_eq_true, Bool.or_eq_true] at tolerant ⊢
    tauto

theorem tolerant_arguments_still (arguments : List Node) (tolerant : tolerantArguments .full arguments = true) :
    allStill .full arguments = true := by
  cases arguments with
  | nil => rfl
  | cons argument rest =>
    have first := tolerant_still argument
    have later := tolerant_arguments_still rest
    simp only [tolerantArguments, allStill, Bool.and_eq_true, Bool.or_eq_true, List.isEmpty_iff] at tolerant ⊢
    rcases tolerant with ⟨still, more⟩ | ⟨⟨_, fits⟩, rfl⟩
    · exact ⟨still, later more⟩
    · exact ⟨first fits, rfl⟩

end

theorem still_items (items : List Node) (still : ∀ item ∈ items, item.still .full = true) :
    tolerantItems .full items = true := by
  induction items with
  | nil => rfl
  | cons item rest ih =>
    have later := ih fun other member => still other (List.mem_cons_of_mem _ member)
    simp only [tolerantItems, still item List.mem_cons_self, later, Bool.true_and, Bool.true_or]

theorem expression_full (node : Node) (expression : node.Expression) :
    node.still .full = true ∧ node.tolerant .full = true := by
  induction expression with
  | number | text | reference => exact ⟨rfl, rfl⟩
  | binary position op left right _ _ _ _ first second =>
    cases op <;> simp [Node.still, Node.tolerant, first.1, second.1, second.2]
  | unary position op operand _ _ inner => cases op <;> simp [Node.still, Node.tolerant, inner.1, inner.2]
  | await position operand _ _ inner =>
    simp only [Node.still, Node.tolerant, inner.1, inner.2, beq_self_eq_true, Bool.and_true]
    exact ⟨rfl, rfl⟩
  | group position operand _ inner => simp [Node.still, Node.tolerant, inner.1, inner.2]
  | array position items _ all =>
    have each := (all_still_iff .full items).mpr fun item member => (all item member).1
    simp [Node.still, Node.tolerant, each, still_items items fun item member => (all item member).1]
  | call position callee arguments _ _ _ first all =>
    have each := fun argument member => (all argument member).1
    simp only [Node.still, Node.tolerant, beq_self_eq_true, Bool.true_and, first.1, (all_still_iff .full arguments).mpr each,
      still_arguments .full arguments each]
    exact ⟨rfl, trivial⟩
  | index position object place _ _ _ first second => simp [Node.still, Node.tolerant, first.1, second.1]
  | access position object member _ _ _ first => simp [Node.still, Node.tolerant, first.1]
  | assign position target value _ _ inner => simp [Node.still, Node.tolerant, inner.1, inner.2]

theorem statement_full (node : Node) (statement : node.Statement) (inside : Bool) :
    node.prudent .full inside = true := by
  induction statement generalizing inside with
  | expression node expression =>
    have fits := (expression_full node expression).2
    cases expression <;> simpa only [Node.prudent] using fits
  | function position name parameters isAsync body _ _ _ _ lines =>
    simp only [Node.prudent, beq_self_eq_true, Bool.true_and]
    exact (all_prudent_iff .full true body).mpr fun line member => lines line member true
  | giveBack position value given =>
    cases value with
    | none => rfl
    | some value => simp [Node.prudent, (expression_full value (given value rfl)).1]
  | branch position condition whenTrue whenFalse question _ _ lines otherLines =>
    have first := (all_prudent_iff .full inside whenTrue).mpr fun line member => lines line member inside
    cases whenFalse with
    | none => simp [Node.prudent, (expression_full condition question).2, first]
    | some body =>
      have second := (all_prudent_iff .full inside body).mpr fun line member => otherLines body rfl line member inside
      simp [Node.prudent, (expression_full condition question).2, first, second]
  | loop position condition body question _ lines =>
    have all := (all_prudent_iff .full inside body).mpr fun line member => lines line member inside
    simp [Node.prudent, (expression_full condition question).2, all]
  | block position body _ lines =>
    have all := (all_prudent_iff .full inside body).mpr fun line member => lines line member inside
    simp [Node.prudent, all]

end CoopScript.Node

namespace CoopScript

theorem RuleSet.parsed_full (source : String) (file : Option String) (lines : List Node)
    (parsed : standard.parse source file = some (.ok lines)) : Node.allPrudent .full false lines = true := by
  unfold parse at parsed
  split at parsed
  next => cases parsed
  next tokens _ =>
    split at parsed
    next nodes rest read =>
      cases parsed
      exact (Node.all_prudent_iff .full false lines).mpr fun line member =>
        Node.statement_full line (Grammar.parsed_statements tokens lines rest read line member) false
    next => cases parsed
    next => cases parsed

namespace Exec
variable {α : Type} {count : Nat} {frame : FrameId} {good : Nat → α → Prop}

theorem clears_on_data (op : BinaryOp) (left right : Value) (result : Exec Value) (leftSure : left.Sure count)
    (rightSure : right.Sure count) (computed : onData op left.data right.data = some result) :
    result.Clears count frame fun more value => value.Sure more := by
  have text : ∀ content, (Exec.text content).Clears count frame fun more value => value.Sure more :=
    fun content => clears_sure (clears_text content)
  have flag : ∀ truth, (Exec.flag truth).Clears count frame fun more value => value.Sure more :=
    fun truth => clears_sure (clears_flag truth)
  unfold onData at computed
  split at computed
  next =>
    unfold onNumbers at computed
    split at computed
    · cases computed
      exact clears_number _
    · cases computed
      exact flag _
    · cases computed
  next =>
    unfold onTexts at computed
    split at computed
    · cases computed
      exact text _
    · cases computed
      exact flag _
    · cases computed
  next identity leftItems other rightItems leftShape rightShape =>
    split at computed
    · cases computed
      apply clears_array
      intro item member
      rcases List.mem_append.mp member with first | second
      · exact ⟨left.tame_data_items .full leftSure.tame _ _ leftShape item first,
          left.within_data_items count leftSure.within _ _ leftShape item first⟩
      · exact ⟨right.tame_data_items .full rightSure.tame _ _ rightShape item second,
          right.within_data_items count rightSure.within _ _ rightShape item second⟩
    · cases computed
  next => cases computed

theorem clears_operate (op : BinaryOp) (left right : Value) (leftSure : left.Sure count) (rightSure : right.Sure count) :
    (operate op left right).Clears count frame fun more value => value.Sure more := by
  unfold operate
  split
  · exact clears_sure (clears_flag _)
  · exact clears_sure (clears_flag _)
  · cases computed : onData op left.data right.data with
    | some result => exact clears_on_data op left right result leftSure rightSure computed
    | none =>
      refine clears_bind _ (clears_name_of left) fun _ name _ _ => ?_
      exact clears_fail_named right (.unsupportedOperands op.symbol name) fun _ => rfl

theorem clears_item_at (object place : Value) (sure : object.Sure count) :
    (itemAt object place).Clears count frame fun more value => value.Sure more := by
  unfold itemAt
  cases place.number? with
  | none => exact clears_fail_named place .indexNotNumber fun _ => rfl
  | some position =>
    simp only
    cases shape : object.data with
    | array identity items =>
      simp only
      cases found : (Number.natural? position).bind (items[·]?) with
      | some item =>
        obtain ⟨slot, _, read⟩ := Option.bind_eq_some_iff.mp found
        have member := List.mem_of_getElem? read
        exact clears_pure item ⟨object.tame_data_items .full sure.tame identity items shape item member,
          object.within_data_items count sure.within identity items shape item member⟩
      | none => exact clears_fail (.outOfBounds position _) rfl
    | text content =>
      simp only
      cases (Number.natural? position).bind (content.toList[·]?) with
      | some c => exact clears_sure (clears_text _)
      | none => exact clears_fail (.outOfBounds position _) rfl
    | _ => exact clears_fail_named object .notIndexable fun _ => rfl

theorem clears_member_of (object : Value) (name : String) (sure : object.Sure count) :
    (memberOf object name).Clears count frame fun more value => value.Sure more := by
  unfold memberOf
  cases found : object.member? name with
  | some member => exact clears_pure member ⟨object.tame_member .full sure.tame name member found,
      object.within_member count sure.within name member found⟩
  | none => exact clears_fail_named object (.missingMember · name) fun _ => rfl

end Exec

namespace ExpressionRule
variable (engine : Engine) (clear : engine.Clear) (name : String) (position : Position) (frame : FrameId) {count : Nat}
include clear

theorem clears_await (operand : Node) (still : operand.still .full = true) :
    (runAwait engine (.await name position operand) frame).Clears count frame fun more value => value.Sure more := by
  refine Exec.clears_bind _ (clear.evaluate count operand frame still) fun more value _ sure => ?_
  cases promised : value.task? with
  | none => exact Exec.clears_pure value sure
  | some task =>
    obtain ⟨positive, bound⟩ := value.within_task more sure.within task promised
    exact Exec.clears_here (engine.clears_await clear task positive bound)

theorem clears_bracket_call (callee : Node) (arguments : List Node) (calleeStill : callee.still .full = true)
    (still : Node.allStill .full arguments = true) :
    (runBracket engine (.call name position callee arguments) frame).Clears count frame
      fun more value => value.Sure more := by
  have plainly : Exec.Clears count frame (fun more value => value.Sure more) (do
      let function ← engine.evaluate callee frame
      engine.call function function arguments frame) :=
    Exec.clears_bind _ (clear.evaluate count callee frame calleeStill) fun _ function _ sure =>
      engine.clears_call clear frame function function arguments sure sure still
  cases callee with
  | access label place object member =>
    simp only [Node.still, Bool.and_eq_true] at calleeStill
    refine Exec.clears_bind _ (clear.evaluate count object frame calleeStill.2) fun more target _ targetSure => ?_
    refine Exec.clears_bind _ (Exec.clears_member_of target member targetSure) fun most function fewer sure => ?_
    exact engine.clears_call clear frame target function arguments (target.sure_more more most fewer targetSure) sure still
  | _ => exact plainly

theorem clears_items (items : List Node) (still : ∀ item ∈ items, item.still .full = true) :
    (Exec.collect (fun item => engine.evaluate item frame) items).Clears count frame
      fun more values => ∀ value ∈ values, value.Sure more :=
  Exec.clears_collect _ items Exec.sure_keeps fun more item _ member =>
    clear.evaluate more item frame (still item member)

theorem clears_unary (op : UnaryOp) (operand : Node) (still : operand.still .full = true) :
    (runUnary engine (.unary name position op operand) frame).Clears count frame fun more value => value.Sure more := by
  refine Exec.clears_bind _ (clear.evaluate count operand frame still) fun more value _ sure => ?_
  cases op with
  | not =>
    exact Exec.clears_bind _ (engine.clears_truthy clear frame value sure) fun _ _ _ _ =>
      Exec.clears_sure (Exec.clears_flag _)
  | negate =>
    simp only
    cases value.number? with
    | some x => exact Exec.clears_number _
    | none => exact Exec.clears_fail_named value .notNegatable fun _ => rfl

theorem clears_binary (op : BinaryOp) (left right : Node) (leftStill : left.still .full = true)
    (rightStill : right.still .full = true) :
    (runBinary engine (.binary name position op left right) frame).Clears count frame
      fun more value => value.Sure more := by
  refine Exec.clears_bind _ (clear.evaluate count left frame leftStill) fun more value _ sure => ?_
  have second := fun most => clear.evaluate most right frame rightStill
  have applied : Exec.Clears more frame (fun most value => value.Sure most) (do
      let later ← engine.evaluate right frame
      Exec.operate op value later) :=
    Exec.clears_bind _ (second more) fun most later fewer laterSure =>
      Exec.clears_operate op value later (value.sure_more more most fewer sure) laterSure
  cases op with
  | both | either =>
    refine Exec.clears_bind _ (engine.clears_truthy clear frame value sure) fun most truth fewer _ => ?_
    have decided : (pure value : Exec Value).Clears most frame fun most value => value.Sure most :=
      Exec.clears_pure value (value.sure_more more most fewer sure)
    cases truth <;> first | exact decided | exact second most
  | _ => exact applied

theorem clears_assign (target : String) (value : Node) (still : value.still .full = true) :
    (runAssign engine (.assign name position target value) frame).Clears count frame
      fun more value => value.Sure more := by
  refine Exec.clears_bind _ (clear.evaluate count value frame still) fun more value _ sure => ?_
  exact Exec.clears_bind _ (Exec.clears_assign target value sure) fun most _ fewer _ =>
    Exec.clears_pure value (value.sure_more more most fewer sure)

end ExpressionRule

namespace StatementRule
variable (engine : Engine) (keyword : String) (position : Position) (frame : FrameId) {count : Nat}

theorem clears_function (name : String) (parameters : List String) (isAsync : Bool) (body : List Node)
    (fits : Node.allPrudent .full true body = true) :
    (runFunction engine (.function keyword position name parameters isAsync body) frame).Clears count frame
      fun _ _ => True := by
  have ordinary : Function.Ordinary ⟨name, .named parameters, .script body, isAsync⟩ := fun _ native => by
    cases native
  have bodyFits : Function.Prudent .full ⟨name, .named parameters, .script body, isAsync⟩ := fun _ same => by
    cases same
    exact fits
  refine Exec.clears_bind _ (Exec.clears_function _ ordinary bodyFits) fun _ function _ sure => ?_
  exact Exec.clears_bind _ (Exec.clears_set_variable name function sure) fun _ _ _ _ => Exec.clears_pure none trivial

variable (clear : engine.Clear)
include clear

theorem clears_return (value : Option Node) (still : ∀ node, value = some node → node.still .full = true) :
    (runReturn engine (.giveBack keyword position value) frame).Clears count frame fun _ _ => True := by
  have gives : ∀ more (value : Value), value.Sure more → Exec.Clears more frame (fun _ _ => True)
      (do Exec.setReturn frame value; return none : Exec (Option Value)) := fun more value sure =>
    Exec.clears_bind _ (Exec.clears_set_return value sure) fun _ _ _ _ => Exec.clears_pure none trivial
  cases value with
  | none => exact Exec.clears_bind _ Exec.clears_void fun more value _ sure => gives more value sure
  | some node =>
    exact Exec.clears_bind _ (clear.evaluate count node frame (still node rfl)) fun more value _ sure =>
      gives more value sure

theorem clears_nested (lines : List Node) (fits : Node.allPrudent .full frame.isInner lines = true) :
    Exec.Clears count frame (fun _ _ => True)
      (do let _ ← engine.runBlock lines frame; return none : Exec (Option Value)) :=
  Exec.clears_bind _ (engine.clears_run_block clear lines frame fits) fun _ _ _ _ => Exec.clears_pure none trivial

theorem clears_if (condition : Node) (whenTrue : List Node) (whenFalse : Option (List Node))
    (fits : (Node.branch keyword position condition whenTrue whenFalse).prudent .full frame.isInner = true) :
    (runIf engine (.branch keyword position condition whenTrue whenFalse) frame).Clears count frame
      fun _ _ => True := by
  obtain ⟨conditionFits, trueFits, falseFits⟩ : condition.tolerant .full = true ∧
      Node.allPrudent .full frame.isInner whenTrue = true ∧
      ∀ lines, whenFalse = some lines → Node.allPrudent .full frame.isInner lines = true := by
    cases whenFalse <;> simp_all [Node.prudent]
  refine Exec.clears_bind _ (clear.evaluate count condition frame (condition.tolerant_still conditionFits))
    fun _ value _ sure => ?_
  refine Exec.clears_bind _ (engine.clears_truthy clear frame value sure) fun _ truth _ _ => ?_
  split
  · exact clears_nested engine frame clear whenTrue trueFits
  · cases whenFalse with
    | some lines => exact clears_nested engine frame clear lines (falseFits lines rfl)
    | none => exact Exec.clears_pure none trivial

theorem clears_loop_step (condition : Node) (body : List Node) (still : condition.still .full = true)
    (fits : Node.allPrudent .full frame.isInner body = true) :
    (loopStep engine condition body frame).Clears count frame fun _ => Sum.elim (fun _ => True) fun _ => True := by
  refine Exec.clears_bind _ Exec.clears_is_unwinding fun more unwinding _ _ => ?_
  split
  · exact Exec.clears_pure _ trivial
  · refine Exec.clears_bind _ (clear.evaluate more condition frame still) fun _ value _ sure => ?_
    refine Exec.clears_bind _ (engine.clears_truthy clear frame value sure) fun _ truth _ _ => ?_
    split
    · exact Exec.clears_pure _ trivial
    · exact Exec.clears_bind _ (engine.clears_run_block clear body frame fits) fun _ _ _ _ => Exec.clears_pure _ trivial

theorem clears_while (condition : Node) (body : List Node)
    (fits : (Node.loop keyword position condition body).prudent .full frame.isInner = true) :
    (runWhile engine (.loop keyword position condition body) frame).Clears count frame fun _ _ => True := by
  simp only [Node.prudent, Bool.and_eq_true] at fits
  exact Exec.clears_iterate (fun _ => loopStep engine condition body frame)
    (fun _ _ _ => clears_loop_step engine frame clear condition body (condition.tolerant_still fits.1.2) fits.2) _ ()

end StatementRule

namespace RuleSet

section Dispatch
variable (engine : Engine) (node : Node) (frame : FrameId) (position : Position) {count : Nat}

theorem clears_expression (run : Engine → Node → FrameId → Exec Value)
    (head : node.head = .expression node.label position) (named : node.label = node.shape)
    (found : standard.expressionRun? node.shape = some run)
    (clears : (run engine node frame).Clears count frame fun more value => value.Sure more) :
    (standard.evaluate engine node frame).Clears count frame fun more value => value.Sure more := by
  unfold evaluate
  rw [head, named]
  simp only [found]
  exact Exec.clears_map_failure _ (Failure.placed_cause (some position)) clears

theorem clears_statement (run : Engine → Node → FrameId → Exec (Option Value))
    (head : node.head = .statement node.label position) (named : node.label = node.shape)
    (found : standard.statementRun? node.shape = some run)
    (clears : (run engine node frame).Clears count frame fun _ _ => True) :
    (standard.execute engine node frame).Clears count frame fun _ _ => True := by
  unfold execute
  rw [head, named]
  simp only [found]
  exact clears

end Dispatch

variable (engine : Engine) (clear : engine.Clear) (node : Node) (frame : FrameId) {count : Nat}
include clear

theorem clears_evaluate (still : node.still .full = true) :
    (standard.evaluate engine node frame).Clears count frame fun more value => value.Sure more := by
  have named := node.still_named .full still
  cases node with
  | number value => exact Exec.clears_number value
  | text value => exact Exec.clears_sure (Exec.clears_text value)
  | void => exact Exec.clears_void
  | reference name position =>
    exact Exec.clears_map_failure _ (Failure.placed_cause (some position)) (Exec.clears_look_up name)
  | binary name position op left right =>
    simp only [Node.still, Bool.and_eq_true] at still
    exact clears_expression engine _ frame position _ rfl named rfl
      (ExpressionRule.clears_binary engine clear name position frame op left right still.1.2 still.2)
  | unary name position op operand =>
    simp only [Node.still, Bool.and_eq_true] at still
    exact clears_expression engine _ frame position _ rfl named rfl
      (ExpressionRule.clears_unary engine clear name position frame op operand still.2)
  | group name position inner =>
    simp only [Node.still, Bool.and_eq_true] at still
    exact clears_expression engine _ frame position _ rfl named rfl (clear.evaluate count inner frame still.2)
  | call name position callee arguments =>
    simp only [Node.still, Bool.and_eq_true] at still
    exact clears_expression engine _ frame position _ rfl named rfl
      (ExpressionRule.clears_bracket_call engine clear name position frame callee arguments still.1.2 still.2)
  | assign name position target value =>
    simp only [Node.still, Bool.and_eq_true] at still
    exact clears_expression engine _ frame position _ rfl named rfl
      (ExpressionRule.clears_assign engine clear name position frame target value still.2)
  | access name position object member =>
    simp only [Node.still, Bool.and_eq_true] at still
    exact clears_expression engine _ frame position _ rfl named rfl
      (Exec.clears_bind _ (clear.evaluate count object frame still.2) fun _ value _ sure =>
        Exec.clears_member_of value member sure)
  | array name position items =>
    simp only [Node.still, Bool.and_eq_true] at still
    exact clears_expression engine _ frame position _ rfl named rfl
      (Exec.clears_bind _ (ExpressionRule.clears_items engine clear frame items
        ((Node.all_still_iff .full items).mp still.2)) fun _ values _ sure => Exec.clears_array values sure)
  | index name position object place =>
    simp only [Node.still, Bool.and_eq_true] at still
    exact clears_expression engine _ frame position _ rfl named rfl
      (Exec.clears_bind _ (clear.evaluate count object frame still.1.2) fun more target _ sure =>
        Exec.clears_bind _ (clear.evaluate more place frame still.2) fun most slot fewer _ =>
          Exec.clears_item_at target slot (target.sure_more more most fewer sure))
  | await name position operand =>
    simp only [Node.still, Bool.and_eq_true] at still
    exact clears_expression engine _ frame position _ rfl named rfl
      (ExpressionRule.clears_await engine clear name position frame operand still.2)
  | function | giveBack | branch | loop | block => simp [Node.still] at still

theorem clears_execute (fits : node.prudent .full frame.isInner = true) :
    (standard.execute engine node frame).Clears count frame fun _ _ => True := by
  have named := node.prudent_named .full frame.isInner fits
  have valued : node.tolerant .full = true →
      (some <$> standard.evaluate engine node frame).Clears count frame fun _ _ => True := fun tolerant =>
    Exec.clears_bind _ (clears_evaluate engine clear node frame (node.tolerant_still tolerant)) fun _ _ _ _ =>
      Exec.clears_pure _ trivial
  cases node with
  | function keyword position name parameters isAsync body =>
    simp only [Node.prudent, Bool.and_eq_true] at fits
    exact clears_statement engine _ frame position _ rfl named rfl
      (StatementRule.clears_function engine keyword position frame name parameters isAsync body fits.2)
  | giveBack keyword position value =>
    have still : ∀ node, value = some node → node.still .full = true := by
      rintro node rfl
      simp only [Node.prudent, Bool.or_eq_true, Bool.and_eq_true] at fits
      exact fits.2.elim id fun inside => node.tolerant_still inside.2
    exact clears_statement engine _ frame position _ rfl named rfl
      (StatementRule.clears_return engine keyword position frame clear value still)
  | branch keyword position condition whenTrue whenFalse =>
    exact clears_statement engine _ frame position _ rfl named rfl
      (StatementRule.clears_if engine keyword position frame clear condition whenTrue whenFalse fits)
  | loop keyword position condition body =>
    exact clears_statement engine _ frame position _ rfl named rfl
      (StatementRule.clears_while engine keyword position frame clear condition body fits)
  | block keyword position body =>
    simp only [Node.prudent, Bool.and_eq_true] at fits
    exact clears_statement engine _ frame position _ rfl named rfl
      (StatementRule.clears_nested engine frame clear body fits.2)
  | _ => exact valued (by simpa [Node.prudent] using fits)

omit clear in
theorem clear_engine (fuel : Nat) : (standard.engine fuel).Clear := by
  induction fuel with
  | zero => constructor <;> intros <;> first | exact prudent_engine .full 0 | exact Exec.clears_exhausted
  | succ fuel ih =>
    exact {
      prudent := prudent_engine .full (fuel + 1)
      evaluate := fun _ node frame => clears_evaluate (standard.engine fuel) ih node frame
      execute := fun _ node frame => clears_execute (standard.engine fuel) ih node frame
      native := fun _ => (standard.engine fuel).clears_run_builtin ih
      body := fun _ => (standard.engine fuel).clears_run_body ih }

end RuleSet

end CoopScript
