import CoopScript.Extension.Catalogue
import CoopScript.Interpreter
import CoopScript.Proofs.Grammar.Climb
import CoopScript.Proofs.Machine.Round

set_option autoImplicit false
namespace CoopScript

section Orders
variable {α β σ : Type}

-- The second comes to whatever the first comes to.
def Parsed.Below (first second : Parsed α) : Prop := first ≠ .stalled → second = first

def Parse.Below (first second : Parse α) : Prop := ∀ cursor, (first cursor).Below (second cursor)

def Outcome.Below (first second : Outcome α) : Prop := first ≠ .outOfFuel → second = first

def Exec.Below (first second : Exec α) : Prop := ∀ machine, (first machine).Below (second machine)

namespace Parse

theorem below_refl (step : Parse α) : step.Below step := fun _ _ => rfl

theorem below_stalled (step : Parse α) : Below (fun _ => .stalled) step := fun _ ended => absurd rfl ended

theorem bind_below (first second : Parse α) (next other : α → Parse β) (cursor : Cursor)
    (below : (first cursor).Below (second cursor)) (later : ∀ value, (next value).Below (other value)) :
    ((first >>= next) cursor).Below ((second >>= other) cursor) := by
  intro ended
  simp only [Bind.bind, bind] at ended ⊢
  have here : first cursor ≠ .stalled := fun stalled => ended (by rw [stalled])
  rw [below here]
  cases ran : first cursor with
  | ok value rest =>
    rw [ran] at ended
    exact later value rest ended
  | failed | stalled => rfl

theorem below_bind (first second : Parse α) (next other : α → Parse β) (below : first.Below second)
    (later : ∀ value, (next value).Below (other value)) : (first >>= next).Below (second >>= other) :=
  fun cursor => bind_below first second next other cursor (below cursor) later

theorem below_if (condition : Prop) [Decidable condition] (first second third fourth : Parse α) (yes : first.Below second)
    (no : third.Below fourth) : (if condition then first else third).Below (if condition then second else fourth) := by
  by_cases holds : condition
  · rw [if_pos holds, if_pos holds]
    exact yes
  · rw [if_neg holds, if_neg holds]
    exact no

theorem below_then (step : Parse α) (next other : α → Parse β) (later : ∀ value, (next value).Below (other value)) :
    (step >>= next).Below (step >>= other) := below_bind step step next other (below_refl step) later

theorem below_iterate (step other : σ → Parse (σ ⊕ α)) (rounds : ∀ state, (step state).Below (other state)) (fuel more : Nat)
    (same : more = fuel) (state : σ) : (iterate step fuel state).Below (iterate other more state) := by
  subst same
  induction more generalizing state with
  | zero => exact below_stalled _
  | succ fuel ih =>
    intro cursor ended
    simp only [iterate] at ended ⊢
    have here : step state cursor ≠ .stalled := fun stalled => ended (by rw [stalled])
    rw [rounds state cursor here]
    cases ran : step state cursor with
    | failed | stalled => rfl
    | ok result rest =>
      rw [ran] at ended
      cases result with
      | inl next => exact ih next rest ended
      | inr value => rfl

end Parse

namespace Exec

theorem below_refl (step : Exec α) : step.Below step := fun _ _ => rfl

theorem below_exhausted (step : Exec α) : exhausted.Below step := fun _ ended => absurd rfl ended

theorem below_bind (first second : Exec α) (next other : α → Exec β) (below : first.Below second)
    (later : ∀ value, (next value).Below (other value)) : (first >>= next).Below (second >>= other) := by
  intro machine ended
  simp only [Bind.bind, bind] at ended ⊢
  have here : first machine ≠ .outOfFuel := fun exhausted => ended (by rw [exhausted])
  rw [below machine here]
  cases ran : first machine with
  | done value after =>
    rw [ran] at ended
    exact later value after ended
  | failed | outOfFuel => rfl

theorem below_if (condition : Prop) [Decidable condition] (first second third fourth : Exec α) (yes : first.Below second)
    (no : third.Below fourth) : (if condition then first else third).Below (if condition then second else fourth) := by
  by_cases holds : condition
  · rw [if_pos holds, if_pos holds]
    exact yes
  · rw [if_neg holds, if_neg holds]
    exact no

theorem below_then (step : Exec α) (next other : α → Exec β) (later : ∀ value, (next value).Below (other value)) :
    (step >>= next).Below (step >>= other) := below_bind step step next other (below_refl step) later

theorem below_last (first second : Exec α) (next : α → Exec β) (below : first.Below second) :
    (first >>= next).Below (second >>= next) := below_bind first second next next below fun value => below_refl (next value)

theorem below_attempt (first second : Exec α) (below : first.Below second) : first.attempt.Below second.attempt := by
  intro machine ended
  have here : first machine ≠ .outOfFuel := fun exhausted => ended (by simp only [attempt, exhausted])
  simp only [attempt, below machine here]

theorem below_map_failure (change : Failure → Failure) (first second : Exec α) (below : first.Below second) :
    (first.mapFailure change).Below (second.mapFailure change) := by
  intro machine ended
  have here : first machine ≠ .outOfFuel := fun exhausted => ended (by simp only [mapFailure, exhausted])
  simp only [mapFailure, below machine here]

theorem below_each (action other : α → Exec Unit) (below : ∀ item, (action item).Below (other item)) (items : List α) :
    (each action items).Below (each other items) := by
  induction items with
  | nil => exact below_refl _
  | cons item rest ih => exact below_bind _ _ _ _ (below item) fun _ => ih

end Exec
end Orders

structure Reader.Below (reader other : Reader) : Prop where
  fuel : other.fuel = reader.fuel
  statement : reader.statement.Below other.statement
  expression : ∀ minimum, (reader.expression minimum).Below (other.expression minimum)

structure Engine.Below (engine other : Engine) : Prop where
  fuel : other.fuel = engine.fuel
  parse : ∀ source, (engine.parse source).Below (other.parse source)
  evaluate : ∀ node frame, (engine.evaluate node frame).Below (other.evaluate node frame)
  execute : ∀ node frame, (engine.execute node frame).Below (other.execute node frame)
  native : ∀ code invocation, (engine.native code invocation).Below (other.native code invocation)
  perform : ∀ action, (engine.perform action).Below (other.perform action)
  body : ∀ lines frame, (engine.body lines frame).Below (other.body lines frame)

structure StatementForm.Steady (form : StatementForm) : Prop where
  parse : ∀ reader other : Reader, reader.Below other → (form.parse reader).Below (form.parse other)

structure ExpressionForm.Steady (form : ExpressionForm) : Prop where
  start : ∀ start, form.start? = some start → ∀ reader other : Reader, reader.Below other →
    ∀ precedence, (start reader precedence).Below (start other precedence)
  extend : ∀ extend, form.extend? = some extend → ∀ reader other : Reader, reader.Below other →
    ∀ left precedence, (extend reader left precedence).Below (extend other left precedence)

structure StatementRule.Steady (rule : StatementRule) : Prop where
  form : rule.toStatementForm.Steady
  run : ∀ engine other : Engine, engine.Below other → ∀ node frame, (rule.run engine node frame).Below (rule.run other node frame)

structure ExpressionRule.Steady (rule : ExpressionRule) : Prop where
  form : rule.toExpressionForm.Steady
  run : ∀ run, rule.run? = some run → ∀ engine other : Engine, engine.Below other →
    ∀ node frame, (run engine node frame).Below (run other node frame)

structure RuleSet.Steady (rules : RuleSet) : Prop where
  statement : ∀ rule ∈ rules.statements, rule.Steady
  expression : ∀ rule ∈ rules.expressions, rule.Steady

section Readers
variable (reader other : Reader) (below : reader.Below other)
include below

namespace Reader

theorem block_below : reader.block.Below other.block := by
  rw [block_rounds, block_rounds]
  refine Parse.below_then _ _ _ fun opening => Parse.below_iterate _ _ (fun items => ?_) _ _ below.fuel []
  refine Parse.below_then _ _ _ fun _ => Parse.below_then _ _ _ fun closed => ?_
  refine Parse.below_if _ _ _ _ _ (Parse.below_refl _) (Parse.below_then _ _ _ fun ended => ?_)
  have line := Parse.below_bind _ _ _ _ below.statement fun node =>
    Parse.below_refl (pure (.inl (node :: items)) : Parse (List Node ⊕ List Node))
  exact Parse.below_if _ _ _ _ _ (Parse.below_then _ _ _ fun _ => line) line

theorem body_below : reader.body.Below other.body :=
  Parse.below_then _ _ _ fun _ => Parse.below_if _ _ _ _ _ (reader.block_below other below)
    (Parse.below_bind _ _ _ _ below.statement fun _ => Parse.below_refl _)

theorem list_below (opening : Token) (closing : String) : (reader.list opening closing).Below (other.list opening closing) := by
  rw [list_rounds, list_rounds]
  refine Parse.below_then _ _ _ fun empty => Parse.below_if _ _ _ _ _ (Parse.below_refl _) ?_
  refine Parse.below_iterate _ _ (fun items => ?_) _ _ below.fuel []
  exact Parse.below_bind _ _ _ _ (below.expression 0) fun _ => Parse.below_refl _

theorem parameters_below (function : String) (opening : Token) :
    (StatementForm.parameters reader function opening).Below (StatementForm.parameters other function opening) := by
  rw [parameter_rounds, parameter_rounds, below.fuel]
  exact Parse.below_refl _

end Reader

-- What stands behind the first token of many forms.
theorem Parse.below_operand (minimum : Nat) (build : Token → Node → Node) :
    (do let token ← Parse.take; return build token (← reader.expression minimum) : Parse Node).Below
      (do let token ← Parse.take; return build token (← other.expression minimum)) :=
  below_then _ _ _ fun _ => below_bind _ _ _ _ (below.expression minimum) fun _ => below_refl _

namespace ExpressionForm

theorem group_below (precedence : Nat) : (readGroup reader precedence).Below (readGroup other precedence) :=
  Parse.below_then _ _ _ fun _ => Parse.below_bind _ _ _ _ (below.expression 0) fun _ => Parse.below_refl _

theorem array_below (precedence : Nat) : (readArray reader precedence).Below (readArray other precedence) :=
  Parse.below_then _ _ _ fun opening => Parse.below_bind _ _ _ _ (reader.list_below other below opening "]") fun _ =>
    Parse.below_refl _

theorem call_below (callee : Node) (precedence : Nat) :
    (readCall reader callee precedence).Below (readCall other callee precedence) :=
  Parse.below_then _ _ _ fun opening => Parse.below_bind _ _ _ _ (reader.list_below other below opening ")") fun _ =>
    Parse.below_refl _

theorem index_below (object : Node) (precedence : Nat) :
    (readIndex reader object precedence).Below (readIndex other object precedence) :=
  Parse.below_then _ _ _ fun _ => Parse.below_bind _ _ _ _ (below.expression 0) fun _ => Parse.below_refl _

theorem binary_below (left : Node) (precedence : Nat) :
    (readBinary reader left precedence).Below (readBinary other left precedence) := by
  refine Parse.below_then _ _ _ fun token => ?_
  cases BinaryOp.ofSymbol? token.text with
  | none => exact Parse.below_refl _
  | some op => exact Parse.below_bind _ _ _ _ (below.expression precedence) fun _ => Parse.below_refl _

theorem assign_below (target : Node) (precedence : Nat) :
    (readAssign reader target precedence).Below (readAssign other target precedence) := by
  refine Parse.below_then _ _ _ fun token => ?_
  cases target with
  | reference name position => exact Parse.below_bind _ _ _ _ (below.expression 0) fun _ => Parse.below_refl _
  | _ => exact Parse.below_refl _

omit below in
theorem standard_steady (form : ExpressionForm) (member : form ∈ standard) : form.Steady := by
  simp only [standard, List.mem_cons, List.not_mem_nil, or_false] at member
  refine ⟨fun start starts reader other below precedence => ?_, fun extend extends_ reader other below left precedence => ?_⟩
  · rcases member with rfl | rfl | rfl | rfl | rfl | rfl | rfl | rfl | rfl | rfl | rfl | rfl | rfl | rfl | rfl
    all_goals cases starts
    · exact Parse.below_refl _
    · exact Parse.below_refl _
    · exact Parse.below_operand reader other below precedence fun token => .await "await" token.position
    · exact Parse.below_refl _
    · exact group_below reader other below precedence
    · exact array_below reader other below precedence
    · exact Parse.below_operand reader other below precedence fun token =>
        .unary "unary" token.position (if token.text = "-" then .negate else .not)
  · rcases member with rfl | rfl | rfl | rfl | rfl | rfl | rfl | rfl | rfl | rfl | rfl | rfl | rfl | rfl | rfl
    all_goals cases extends_
    any_goals exact binary_below reader other below left precedence
    · exact call_below reader other below left precedence
    · exact index_below reader other below left precedence
    · exact Parse.below_refl _
    · exact assign_below reader other below left precedence

end ExpressionForm

namespace StatementForm

theorem condition_below : (condition reader).Below (condition other) :=
  Parse.below_then _ _ _ fun _ => Parse.below_bind _ _ _ _ (below.expression 0) fun _ => Parse.below_refl _

theorem function_below : (parseFunction reader).Below (parseFunction other) :=
  Parse.below_then _ _ _ fun _ => Parse.below_then _ _ _ fun _ => Parse.below_then _ _ _ fun _ =>
    Parse.below_then _ _ _ fun name => Parse.below_then _ _ _ fun opening =>
      Parse.below_bind _ _ _ _ (reader.parameters_below other below name.text opening) fun _ =>
        Parse.below_bind _ _ _ _ (reader.block_below other below) fun _ => Parse.below_refl _

theorem return_below : (parseReturn reader).Below (parseReturn other) := by
  refine Parse.below_then _ _ _ fun _ => Parse.below_then _ _ _ fun bare => ?_
  exact Parse.below_if _ _ _ _ _ (Parse.below_refl _)
    (Parse.below_bind _ _ _ _ (below.expression 0) fun _ => Parse.below_refl _)

theorem branch_below : (parseIf reader).Below (parseIf other) := by
  refine Parse.below_then _ _ _ fun _ => Parse.below_bind _ _ _ _ (condition_below reader other below) fun _ => ?_
  refine Parse.below_bind _ _ _ _ (reader.body_below other below) fun _ => Parse.below_then _ _ _ fun otherwise => ?_
  refine Parse.below_if _ _ _ _ _ ?_ (Parse.below_refl _)
  exact Parse.below_bind _ _ _ _ (Parse.below_bind _ _ _ _ (reader.body_below other below) fun _ => Parse.below_refl _)
    fun _ => Parse.below_refl _

theorem loop_below : (parseWhile reader).Below (parseWhile other) :=
  Parse.below_then _ _ _ fun _ => Parse.below_bind _ _ _ _ (condition_below reader other below) fun _ =>
    Parse.below_bind _ _ _ _ (reader.body_below other below) fun _ => Parse.below_refl _

theorem block_below : (parseBlock reader).Below (parseBlock other) :=
  Parse.below_then _ _ _ fun _ => Parse.below_bind _ _ _ _ (reader.block_below other below) fun _ => Parse.below_refl _

omit below in
theorem standard_steady (form : StatementForm) (member : form ∈ standard) : form.Steady := by
  refine ⟨fun reader other below => ?_⟩
  simp only [standard, List.mem_cons, List.not_mem_nil, or_false] at member
  rcases member with rfl | rfl | rfl | rfl | rfl
  · exact function_below reader other below
  · exact return_below reader other below
  · exact branch_below reader other below
  · exact loop_below reader other below
  · exact block_below reader other below

end StatementForm
end Readers

end CoopScript
