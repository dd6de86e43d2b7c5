import CoopScript.Proofs.Fault.Source

set_option autoImplicit false
namespace CoopScript

def Cursor.Readable (cursor : Cursor) : Prop := ∀ token ∈ cursor.current :: cursor.rest, token.Readable

namespace Cursor
variable (cursor : Cursor) (readable : cursor.Readable)
include readable

theorem advance_readable : cursor.advance.Readable := by
  unfold advance
  split
  next => exact readable
  next current rest same =>
    split
    next => exact readable
    next => exact fun token member => readable token (List.mem_cons_of_mem _ (same ▸ member))

theorem skip_readable : cursor.skipSeparators.Readable := by
  have skipped : ∀ (tokens : List Token) (current : Token), (∀ token ∈ current :: tokens, token.Readable) →
      (skipFrom current tokens).Readable := by
    intro tokens
    induction tokens with
    | nil => exact fun current all => all
    | cons next rest ih =>
      intro current all
      unfold skipFrom
      split
      next => exact ih next fun token member => all token (List.mem_cons_of_mem _ member)
      next => exact all
  exact skipped cursor.rest cursor.current readable

end Cursor

-- What a text may come to: something, with the rest still readable, or a fault of its own.
def Parsed.Fair {α : Type} : Parsed α → Prop
  | .ok _ rest => rest.Readable
  | .failed diagnostic => diagnostic.cause.isInternal = false
  | .stalled => True

theorem Parsed.fair_ends {α : Type} (parsed : Parsed α) : parsed.Fair ↔
    parsed.Ends (fun _ rest => rest.Readable) fun diagnostic => diagnostic.cause.isInternal = false := by
  cases parsed <;> exact Iff.rfl

def Parse.Fair {α : Type} (step : Parse α) : Prop := ∀ cursor : Cursor, cursor.Readable → (step cursor).Fair

namespace Parse
variable {α β σ : Type}

theorem bind_fair (first : Parse α) (next : α → Parse β) (cursor : Cursor) (fair : (first cursor).Fair)
    (later : ∀ value, (next value).Fair) : ((first >>= next) cursor).Fair :=
  (Parsed.fair_ends _).mpr <| bind_ends _ _ _ first next cursor ((Parsed.fair_ends _).mp fair) fun value rest readable =>
    (Parsed.fair_ends _).mp (later value rest readable)

theorem fair_bind (first : Parse α) (next : α → Parse β) (fair : first.Fair) (later : ∀ value, (next value).Fair) :
    (first >>= next).Fair :=
  fun cursor readable => bind_fair first next cursor (fair cursor readable) later

theorem fair_pure (value : α) : (Pure.pure value : Parse α).Fair := fun _ readable => readable

theorem fair_fail (diagnostic : Diagnostic) (fair : diagnostic.cause.isInternal = false) :
    (fail diagnostic : Parse α).Fair := fun _ _ => fair

theorem fair_stalled : Fair (fun _ => .stalled : Parse α) := fun _ _ => trivial

theorem fair_iterate (step : σ → Parse (σ ⊕ α)) (fair : ∀ state, (step state).Fair) (fuel : Nat) (state : σ) :
    (iterate step fuel state).Fair := by
  intro cursor readable
  refine (Parsed.fair_ends _).mpr (iterate_ends (fun _ place => place.Readable) _ _ step (fun state place readable => ?_) fuel
    state cursor readable)
  have round := (Parsed.fair_ends _).mp (fair state place readable)
  exact Parsed.ends_weaken _ _ _ _ round fun result rest known => by cases result <;> exact known

theorem fair_current : current.Fair := fun _ readable => readable

theorem fair_ask (question : Cursor → Bool) : (ask question).Fair := fun _ readable => readable

theorem fair_take : take.Fair := fun cursor readable => cursor.advance_readable readable

theorem fair_skip : skipSeparators.Fair := fun cursor readable => cursor.skip_readable readable

theorem fair_take_if (question : Cursor → Bool) : (takeIf question).Fair := by
  intro cursor readable
  unfold takeIf
  split
  · exact cursor.advance_readable readable
  · exact readable

theorem fair_unexpected (what : String) : (unexpected what : Parse α).Fair := fun _ _ => rfl

theorem fair_expect (kind : TokenKind) (text : String) : (expect kind text).Fair := by
  intro cursor readable
  unfold expect
  split
  · exact fair_take cursor readable
  · exact fair_unexpected _ cursor readable

theorem fair_expect_name (what : String) : (expectName what).Fair := by
  intro cursor readable
  unfold expectName
  split
  · exact fair_take cursor readable
  · exact fair_unexpected _ cursor readable

theorem fair_expect_closing (opening : Token) (closing : String) : (expectClosing opening closing).Fair := by
  intro cursor readable
  unfold expectClosing
  split
  · exact fair_take cursor readable
  · split
    · rfl
    · exact fair_unexpected _ cursor readable

end Parse

structure Reader.Fair (reader : Reader) : Prop where
  statement : reader.statement.Fair
  expression : ∀ minimum, (reader.expression minimum).Fair

section Reading
variable (reader : Reader) (fair : reader.Fair)
include fair

namespace Reader

theorem block_fair : reader.block.Fair := by
  rw [block_rounds]
  refine Parse.fair_bind _ _ (Parse.fair_expect _ _) fun opening => Parse.fair_iterate _ (fun items => ?_) _ _
  refine Parse.fair_bind _ _ Parse.fair_skip fun _ => Parse.fair_bind _ _ (Parse.fair_take_if _) fun closed => ?_
  split
  · exact Parse.fair_pure _
  refine Parse.fair_bind _ _ (Parse.fair_ask _) fun ended => ?_
  have line : Parse.Fair (do return .inl ((← reader.statement) :: items) : Parse (List Node ⊕ List Node)) :=
    Parse.fair_bind _ _ fair.statement fun _ => Parse.fair_pure _
  split
  · exact Parse.fair_bind _ _ (Parse.fair_fail _ rfl) fun _ => line
  · exact line

theorem body_fair : reader.body.Fair := by
  refine Parse.fair_bind _ _ (Parse.fair_ask _) fun braced => ?_
  split
  · exact reader.block_fair fair
  · exact Parse.fair_bind _ _ fair.statement fun _ => Parse.fair_pure _

theorem list_fair (opening : Token) (closing : String) : (reader.list opening closing).Fair := by
  rw [list_rounds]
  refine Parse.fair_bind _ _ (Parse.fair_take_if _) fun empty => ?_
  split
  · exact Parse.fair_pure _
  refine Parse.fair_iterate _ (fun items => ?_) _ _
  refine Parse.fair_bind _ _ (fair.expression 0) fun item => Parse.fair_bind _ _ (Parse.fair_take_if _) fun more => ?_
  split
  · exact Parse.fair_pure _
  · exact Parse.fair_bind _ _ (Parse.fair_expect_closing _ _) fun _ => Parse.fair_pure _

theorem program_fair : reader.program.Fair := by
  rw [program_rounds]
  refine Parse.fair_bind _ _ Parse.fair_skip fun _ => Parse.fair_iterate _ (fun items => ?_) _ _
  refine Parse.fair_bind _ _ (Parse.fair_ask _) fun ended => ?_
  split
  · exact Parse.fair_pure _
  · exact Parse.fair_bind _ _ fair.statement fun _ => Parse.fair_bind _ _ Parse.fair_skip fun _ => Parse.fair_pure _

omit fair in
theorem parameters_fair (function : String) (opening : Token) :
    (StatementForm.parameters reader function opening).Fair := by
  rw [parameter_rounds]
  refine Parse.fair_bind _ _ (Parse.fair_take_if _) fun empty => ?_
  split
  · exact Parse.fair_pure _
  refine Parse.fair_iterate _ (fun names => ?_) _ _
  refine Parse.fair_bind _ _ (Parse.fair_expect_name _) fun parameter => ?_
  have listed : Parse.Fair (do
      let names := names ++ [parameter.text]
      if ← Parse.takeIf (·.isSymbol ",") then return .inl names
      let _ ← Parse.expectClosing opening ")"
      return .inr names : Parse (List String ⊕ List String)) := by
    refine Parse.fair_bind _ _ (Parse.fair_take_if _) fun more => ?_
    split
    · exact Parse.fair_pure _
    · exact Parse.fair_bind _ _ (Parse.fair_expect_closing _ _) fun _ => Parse.fair_pure _
  split
  · exact Parse.fair_bind _ _ (Parse.fair_fail _ rfl) fun _ => listed
  · exact listed

end Reader

namespace ExpressionForm

omit fair in
theorem number_fair (precedence : Nat) (cursor : Cursor) (readable : cursor.Readable)
    (numeric : cursor.isKind .number = true) : (readNumber reader precedence cursor).Fair := by
  obtain ⟨value, read⟩ := Option.isSome_iff_exists.mp
    (readable cursor.current List.mem_cons_self (by simpa [Cursor.isKind] using numeric))
  have same : readNumber reader precedence cursor = .ok (.number value) cursor.advance := by
    unfold readNumber
    rw [Parse.bind_ok _ _ cursor cursor.advance cursor.current rfl, read]
    rfl
  rw [same]
  exact cursor.advance_readable readable

theorem start_fair (form : ExpressionForm) (member : form ∈ standard) (cursor : Cursor) (readable : cursor.Readable)
    (applies : form.applies cursor = true) (start : Reader → Nat → Parse Node) (starts : form.start? = some start)
    (precedence : Nat) : (start reader precedence cursor).Fair := by
  have operand : ∀ (minimum : Nat) (build : Token → Node → Node), Parse.Fair (do
      let token ← Parse.take
      return build token (← reader.expression minimum)) := fun minimum build =>
    Parse.fair_bind _ _ Parse.fair_take fun _ =>
      Parse.fair_bind _ _ (fair.expression minimum) fun _ => Parse.fair_pure _
  simp only [standard, List.mem_cons, List.not_mem_nil, or_false] at member
  rcases member with rfl | rfl | rfl | rfl | rfl | rfl | rfl | rfl | rfl | rfl | rfl | rfl | rfl | rfl | rfl
  all_goals cases starts
  · exact Parse.fair_bind _ _ Parse.fair_take (fun _ => Parse.fair_pure _) cursor readable
  · exact number_fair reader precedence cursor readable applies
  · exact operand precedence (fun token => .await "await" token.position) cursor readable
  · exact Parse.fair_bind _ _ Parse.fair_take (fun _ => Parse.fair_pure _) cursor readable
  · exact Parse.fair_bind _ _ Parse.fair_take (fun _ => Parse.fair_bind _ _ (fair.expression 0) fun _ =>
      Parse.fair_bind _ _ (Parse.fair_expect_closing _ _) fun _ => Parse.fair_pure _) cursor readable
  · exact Parse.fair_bind _ _ Parse.fair_take (fun _ => Parse.fair_bind _ _ (reader.list_fair fair _ _) fun _ =>
      Parse.fair_pure _) cursor readable
  · exact operand precedence (fun token => .unary "unary" token.position (if token.text = "-" then .negate else .not))
      cursor readable

theorem binary_fair (left : Node) (precedence : Nat) (cursor : Cursor) (readable : cursor.Readable) (op : BinaryOp)
    (known : BinaryOp.ofSymbol? cursor.current.text = some op) : (readBinary reader left precedence cursor).Fair := by
  unfold readBinary
  rw [Parse.bind_ok _ _ cursor cursor.advance cursor.current rfl]
  simp only [known]
  exact Parse.fair_bind _ _ (fair.expression precedence) (fun _ => Parse.fair_pure _) _
    (cursor.advance_readable readable)

theorem extend_fair (form : ExpressionForm) (member : form ∈ standard) (cursor : Cursor) (readable : cursor.Readable)
    (applies : form.applies cursor = true) (extend : Reader → Node → Nat → Parse Node)
    (extends_ : form.extend? = some extend) (left : Node) (precedence : Nat) :
    (extend reader left precedence cursor).Fair := by
  rcases extend_cases form member cursor applies extend extends_ with
    ⟨rfl, _⟩ | ⟨rfl, _⟩ | ⟨rfl, _⟩ | ⟨rfl, _⟩ | ⟨rfl, _, op, known, _⟩
  · exact Parse.fair_bind _ _ Parse.fair_take (fun _ => Parse.fair_bind _ _ (reader.list_fair fair _ _) fun _ =>
      Parse.fair_pure _) cursor readable
  · exact Parse.fair_bind _ _ Parse.fair_take (fun _ => Parse.fair_bind _ _ (fair.expression 0) fun _ =>
      Parse.fair_bind _ _ (Parse.fair_expect_closing _ _) fun _ => Parse.fair_pure _) cursor readable
  · exact Parse.fair_bind _ _ Parse.fair_take (fun _ => Parse.fair_bind _ _ (Parse.fair_expect_name _) fun _ =>
      Parse.fair_pure _) cursor readable
  · refine Parse.fair_bind _ _ Parse.fair_take (fun token => ?_) cursor readable
    split
    · exact Parse.fair_bind _ _ (fair.expression 0) fun _ => Parse.fair_pure _
    · exact Parse.fair_fail _ rfl
  · exact binary_fair reader fair left precedence cursor readable op known

end ExpressionForm

namespace StatementForm

theorem condition_fair : (condition reader).Fair :=
  Parse.fair_bind _ _ (Parse.fair_expect _ _) fun _ => Parse.fair_bind _ _ (fair.expression 0) fun _ =>
    Parse.fair_bind _ _ (Parse.fair_expect_closing _ _) fun _ => Parse.fair_pure _

theorem function_fair : (parseFunction reader).Fair :=
  Parse.fair_bind _ _ Parse.fair_current fun _ => Parse.fair_bind _ _ (Parse.fair_take_if _) fun _ =>
    Parse.fair_bind _ _ (Parse.fair_expect _ _) fun _ => Parse.fair_bind _ _ (Parse.fair_expect_name _) fun _ =>
      Parse.fair_bind _ _ (Parse.fair_expect _ _) fun _ =>
        Parse.fair_bind _ _ (reader.parameters_fair _ _) fun _ =>
          Parse.fair_bind _ _ (reader.block_fair fair) fun _ => Parse.fair_pure _

theorem return_fair : (parseReturn reader).Fair := by
  refine Parse.fair_bind _ _ Parse.fair_take fun _ => Parse.fair_bind _ _ (Parse.fair_ask _) fun bare => ?_
  split
  · exact Parse.fair_pure _
  · exact Parse.fair_bind _ _ (fair.expression 0) fun _ => Parse.fair_pure _

theorem branch_fair : (parseIf reader).Fair := by
  refine Parse.fair_bind _ _ Parse.fair_take fun _ => Parse.fair_bind _ _ (condition_fair reader fair) fun _ =>
    Parse.fair_bind _ _ (reader.body_fair fair) fun _ => Parse.fair_bind _ _ (Parse.fair_take_if _) fun other => ?_
  split
  · exact Parse.fair_bind _ _ (Parse.fair_bind _ _ (reader.body_fair fair) fun _ => Parse.fair_pure _) fun _ =>
      Parse.fair_pure _
  · exact Parse.fair_bind _ _ (Parse.fair_pure _) fun _ => Parse.fair_pure _

theorem loop_fair : (parseWhile reader).Fair :=
  Parse.fair_bind _ _ Parse.fair_take fun _ => Parse.fair_bind _ _ (condition_fair reader fair) fun _ =>
    Parse.fair_bind _ _ (reader.body_fair fair) fun _ => Parse.fair_pure _

theorem block_fair : (parseBlock reader).Fair :=
  Parse.fair_bind _ _ Parse.fair_current fun _ => Parse.fair_bind _ _ (reader.block_fair fair) fun _ =>
    Parse.fair_pure _

end StatementForm

namespace Grammar

theorem statement_fair : (standard.statement reader).Fair := by
  intro cursor readable
  refine Parse.fair_bind _ _ Parse.fair_skip (fun _ place placed => ?_) cursor readable
  rw [Parse.cursor_then]
  cases found : standard.statements.find? fun form => form.applies place with
  | none => exact fair.expression 0 place placed
  | some form =>
    have member := List.mem_of_find?_eq_some found
    simp only [standard, StatementForm.standard, List.mem_cons, List.not_mem_nil, or_false] at member
    rcases member with rfl | rfl | rfl | rfl | rfl
    · exact StatementForm.function_fair reader fair place placed
    · exact StatementForm.return_fair reader fair place placed
    · exact StatementForm.branch_fair reader fair place placed
    · exact StatementForm.loop_fair reader fair place placed
    · exact StatementForm.block_fair reader fair place placed

theorem expression_fair (minimum : Nat) : (standard.expression reader minimum).Fair := by
  intro cursor readable
  unfold expression
  rw [Parse.cursor_then]
  cases started : starting? cursor standard.expressions with
  | none => exact Parse.fair_unexpected _ cursor readable
  | some begun =>
    obtain ⟨precedence, start⟩ := begun
    obtain ⟨form, member, starts, _, applies⟩ := starting_found cursor _ precedence start started
    refine Parse.bind_fair _ _ cursor
      (ExpressionForm.start_fair reader fair form member cursor readable applies start starts precedence) fun first => ?_
    refine Parse.fair_iterate _ (fun left place placed => ?_) _ _
    unfold extension
    rw [Parse.cursor_then]
    cases further : extending? minimum place standard.expressions with
    | none => exact placed
    | some found =>
      obtain ⟨tightness, extend⟩ := found
      obtain ⟨form, member, extends_, _, _, applies⟩ := extending_found minimum place _ tightness extend further
      exact Parse.bind_fair _ _ place
        (ExpressionForm.extend_fair reader fair form member place placed applies extend extends_ left tightness)
        fun _ => Parse.fair_pure _

end Grammar

end Reading

theorem Reader.of_fuel_fair (fuel : Nat) : (Reader.ofFuel Grammar.standard fuel).Fair := by
  induction fuel with
  | zero => exact ⟨Parse.fair_stalled, fun _ => Parse.fair_stalled⟩
  | succ fuel ih => exact ⟨Grammar.statement_fair _ ih, Grammar.expression_fair _ ih⟩

theorem RuleSet.refused_fair (source : String) (file : Option String) (diagnostic : Diagnostic)
    (refused : standard.parse source file = some (.error diagnostic)) : diagnostic.cause.isInternal = false := by
  have tokens := Token.read_fair 0 (.start file) source.toList
  have same : tokenize LexRule.standard source file = Token.readFrom LexRule.standard 0 (.start file) source.toList := rfl
  have grammar : standard.grammar = Grammar.standard := rfl
  unfold parse at refused
  rw [show standard.lexRules = LexRule.standard from rfl, same, grammar] at refused
  cases read : Token.readFrom LexRule.standard 0 (.start file) source.toList with
  | error own =>
    rw [read] at tokens refused
    cases refused
    exact tokens
  | ok cut =>
    rw [read] at tokens refused
    simp only at refused
    cases first : Cursor.ofTokens? cut with
    | none =>
      rw [Grammar.parse, first] at refused
      cases refused
    | some cursor =>
      have readable : cursor.Readable := by
        cases cut with
        | nil => cases first
        | cons current rest =>
          cases first
          exact tokens
      have program := (Reader.ofFuel Grammar.standard (Grammar.allowance cut)).program_fair (Reader.of_fuel_fair _)
        cursor readable
      rw [Grammar.parse, first] at refused
      simp only at refused
      cases ran : (Reader.ofFuel Grammar.standard (Grammar.allowance cut)).program cursor with
      | failed own =>
        rw [ran] at program refused
        cases refused
        exact program
      | ok | stalled =>
        rw [ran] at refused
        cases refused

end CoopScript
