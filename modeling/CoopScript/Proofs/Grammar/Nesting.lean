import CoopScript.Proofs.Grammar.Bracket

set_option autoImplicit false
namespace CoopScript

-- A missing bracket is told of the innermost one that is open where the tokens end.
def Diagnostic.Blames (left : Option (List Token)) (diagnostic : Diagnostic) : Prop :=
  ∀ bracket, diagnostic.cause = .unmatched bracket →
    ∃ opening outer, left = some (opening :: outer) ∧ opening.text = bracket ∧ diagnostic.position = some opening.position

-- Whatever has been read, the same brackets are left open where the tokens end.
def Parsed.Nests {α : Type} (left : Option (List Token)) (after : α → List Token) (parsed : Parsed α) : Prop :=
  parsed.Ends (fun value rest => rest.open? (after value) = left) (Diagnostic.Blames left)

-- The step takes tokens that open and close brackets as the stacks before and after it say.
def Parse.Nests {α : Type} (before : List Token) (after : α → List Token) (step : Parse α) : Prop :=
  ∀ cursor, (step cursor).Nests (cursor.open? before) after

def Parse.Even {α : Type} (step : Parse α) : Prop := ∀ stack, step.Nests stack fun _ => stack

namespace Parse
variable {α β σ : Type} {before : List Token}

section Bind
variable (mid : α → List Token) (after : β → List Token) (first : Parse α) (next : α → Parse β)

theorem bind_nests (left : Option (List Token)) (cursor : Cursor) (nests : (first cursor).Nests left mid)
    (later : ∀ value, (next value).Nests (mid value) after) : ((first >>= next) cursor).Nests left after :=
  bind_ends _ _ _ first next cursor nests fun value rest same => same ▸ later value rest

theorem nests_bind (nests : first.Nests before mid) (later : ∀ value, (next value).Nests (mid value) after) :
    (first >>= next).Nests before after := fun cursor => bind_nests mid after first next _ cursor (nests cursor) later

theorem nests_then (even : first.Even) (later : ∀ value, (next value).Nests before after) :
    (first >>= next).Nests before after := nests_bind _ after first next (even before) later

end Bind

theorem even_bind (first : Parse α) (next : α → Parse β) (even : first.Even) (later : ∀ value, (next value).Even) :
    (first >>= next).Even := fun stack => nests_then _ first next even fun value => later value stack

theorem nests_pure (after : α → List Token) (value : α) (same : after value = before) :
    (Pure.pure value : Parse α).Nests before after := fun _ => by rw [← same]; exact rfl

theorem even_pure (value : α) : (Pure.pure value : Parse α).Even := fun _ => nests_pure _ value rfl

theorem nests_fail (after : α → List Token) (diagnostic : Diagnostic)
    (other : ∀ bracket, diagnostic.cause ≠ .unmatched bracket) : (fail diagnostic : Parse α).Nests before after :=
  fun _ bracket same => absurd same (other bracket)

theorem nests_unexpected (after : α → List Token) (what : String) : (unexpected what : Parse α).Nests before after :=
  fun _ _ same => nomatch same

theorem nests_iterate (inner outer : List Token) (step : σ → Parse (σ ⊕ α))
    (nests : ∀ state, (step state).Nests inner (Sum.elim (fun _ => inner) fun _ => outer)) (fuel : Nat) (state : σ) :
    (iterate step fuel state).Nests inner fun _ => outer := by
  intro cursor
  refine iterate_ends (fun _ place => place.open? inner = cursor.open? inner) _ _ step (fun state place same => ?_) fuel
    state cursor rfl
  have round := nests state place
  rw [same] at round
  exact Parsed.ends_weaken _ _ _ _ round fun result rest known => by cases result <;> exact known

theorem even_current : current.Even := fun _ _ => rfl

theorem even_ask (question : Cursor → Bool) : (ask question).Even := fun _ _ => rfl

theorem even_skip : skipSeparators.Even := fun stack cursor => cursor.skip_open stack

theorem nests_plain (cursor : Cursor) (plain : cursor.current.kind ≠ .bracket) (next : Token → Parse α)
    (after : α → List Token) (later : ∀ token, (next token).Nests before after) :
    ((take >>= next) cursor).Nests (cursor.open? before) after :=
  bind_nests (fun _ => before) after take next _ cursor (cursor.advance_plain before plain) later

theorem even_take_if (kind : TokenKind) (text : String) (other : kind ≠ .bracket) :
    (takeIf fun cursor => cursor.current.is kind text).Even := by
  intro stack cursor
  unfold takeIf
  split
  next shown => exact cursor.advance_plain stack (cursor.plain_is kind text shown other)
  next => exact rfl

theorem even_expect (kind : TokenKind) (text : String) (other : kind ≠ .bracket) : (expect kind text).Even := by
  intro stack cursor
  unfold expect
  split
  next shown => exact cursor.advance_plain stack (cursor.plain_is kind text shown other)
  next => exact nests_unexpected _ _ cursor

theorem even_expect_name (what : String) : (expectName what).Even := by
  intro stack cursor
  unfold expectName
  split
  next named => exact cursor.advance_plain stack (cursor.plain_name named)
  next => exact nests_unexpected _ _ cursor

section Brackets
variable (opening : Token) (text closing : String)

theorem nests_take (partners : Token.partner? text = some closing) (cursor : Cursor) (shown : cursor.isBracket text = true)
    (next : Token → Parse α) (after : α → List Token) (later : ∀ opening, Token.partner? opening.text = some closing →
      (next opening).Nests (opening :: before) after) : ((take >>= next) cursor).Nests (cursor.open? before) after := by
  rw [← cursor.advance_opening before text closing shown partners]
  refine later cursor.current ?_ cursor.advance
  simp only [Cursor.isBracket, Token.is, Bool.and_eq_true, decide_eq_true_eq] at shown
  rw [shown.2, partners]

theorem nests_expect (partners : Token.partner? text = some closing) (next : Token → Parse α) (after : α → List Token)
    (later : ∀ opening, Token.partner? opening.text = some closing → (next opening).Nests (opening :: before) after) :
    (expect .bracket text >>= next).Nests before after := by
  intro cursor
  by_cases shown : cursor.current.is .bracket text = true
  · have taken : (expect .bracket text >>= next) cursor = (take >>= next) cursor :=
      bind_ok _ _ cursor _ _ (if_pos shown)
    rw [taken]
    exact nests_take text closing partners cursor shown next after later
  · have refused : expect .bracket text cursor = unexpected (Cause.ticked text) cursor := if_neg shown
    simp only [Bind.bind, bind, refused]
    exact nests_unexpected after (Cause.ticked text) cursor

variable (partners : Token.partner? opening.text = some closing)
include partners

theorem nests_take_closing : (takeIf (·.isBracket closing)).Nests (opening :: before) fun closed =>
    if closed then before else opening :: before := by
  intro cursor
  unfold takeIf
  split
  next shown => exact cursor.advance_closing before opening closing shown partners
  next => exact rfl

theorem nests_expect_closing : (expectClosing opening closing).Nests (opening :: before) fun _ => before := by
  intro cursor
  unfold expectClosing
  split
  next shown => exact cursor.advance_closing before opening closing shown partners
  next =>
    split
    next ended =>
      rintro _ ⟨⟩
      exact ⟨opening, before, cursor.open_end _ ended, rfl, rfl⟩
    next => exact nests_unexpected _ _ cursor

end Brackets

end Parse

structure Reader.Even (reader : Reader) : Prop where
  statement : reader.statement.Even
  expression : ∀ minimum, (reader.expression minimum).Even

section Reading
variable (reader : Reader) (even : reader.Even)
include even

namespace Reader

theorem block_step_nests (stack : List Token) (opening : Token) (partners : Token.partner? opening.text = some "\x7d")
    (items : List Node) : (reader.blockStep opening items).Nests (opening :: stack) (Sum.elim (fun _ => opening :: stack) fun _ => stack) := by
  refine Parse.nests_then _ _ _ Parse.even_skip fun _ =>
    Parse.nests_bind _ _ _ _ (Parse.nests_take_closing opening "\x7d" partners) fun closed => ?_
  cases closed with
  | true => exact Parse.nests_pure _ _ rfl
  | false =>
    have line : Parse.Nests (opening :: stack) (Sum.elim (fun _ => opening :: stack) fun _ => stack)
        (do return .inl ((← reader.statement) :: items) : Parse (List Node ⊕ List Node)) :=
      Parse.nests_then _ _ _ even.statement fun _ => Parse.nests_pure _ _ rfl
    intro cursor
    cases ended : cursor.atEnd with
    | true =>
      -- All lines so far were balanced, so the brace is on top of the stack.
      have asked : Parse.ask Cursor.atEnd cursor = .ok true cursor := congrArg (Parsed.ok · cursor) ended
      refine (congrArg (Parsed.Nests _ _) (Parse.bind_ok _ _ cursor cursor true asked)).mpr ?_
      rintro _ ⟨⟩
      exact ⟨opening, stack, cursor.open_end _ ended, rfl, rfl⟩
    | false =>
      have asked : Parse.ask Cursor.atEnd cursor = .ok false cursor := congrArg (Parsed.ok · cursor) ended
      exact (congrArg (Parsed.Nests _ _) (Parse.bind_ok _ _ cursor cursor false asked)).mpr (line cursor)

theorem block_even : reader.block.Even := by
  intro stack
  rw [block_rounds]
  exact Parse.nests_expect "\x7b" "\x7d" rfl _ _ fun opening partners =>
    Parse.nests_iterate _ stack _ (reader.block_step_nests even stack opening partners) _ _

theorem body_even : reader.body.Even := by
  refine Parse.even_bind _ _ (Parse.even_ask _) fun braced => ?_
  split
  · exact reader.block_even even
  · exact Parse.even_bind _ _ even.statement fun _ => Parse.even_pure _

theorem list_nests (stack : List Token) (opening : Token) (closing : String)
    (partners : Token.partner? opening.text = some closing) :
    (reader.list opening closing).Nests (opening :: stack) fun _ => stack := by
  rw [list_rounds]
  refine Parse.nests_bind _ _ _ _ (Parse.nests_take_closing opening closing partners) fun empty => ?_
  cases empty with
  | true => exact Parse.nests_pure _ _ rfl
  | false =>
    refine Parse.nests_iterate _ stack _ (fun items => ?_) _ _
    refine Parse.nests_then _ _ _ (even.expression 0) fun item =>
      Parse.nests_then _ _ _ (Parse.even_take_if .symbol "," (by decide)) fun more => ?_
    cases more with
    | true => exact Parse.nests_pure _ _ rfl
    | false =>
      exact Parse.nests_bind _ _ _ _ (Parse.nests_expect_closing opening closing partners) fun _ =>
        Parse.nests_pure _ _ rfl

omit even in
theorem parameters_nests (stack : List Token) (function : String) (opening : Token)
    (partners : Token.partner? opening.text = some ")") :
    (StatementForm.parameters reader function opening).Nests (opening :: stack) fun _ => stack := by
  rw [parameter_rounds]
  refine Parse.nests_bind _ _ _ _ (Parse.nests_take_closing opening ")" partners) fun empty => ?_
  cases empty with
  | true => exact Parse.nests_pure _ _ rfl
  | false =>
    refine Parse.nests_iterate _ stack _ (fun names => ?_) _ _
    refine Parse.nests_then _ _ _ (Parse.even_expect_name _) fun parameter => ?_
    have listed : Parse.Nests (opening :: stack) (Sum.elim (fun _ => opening :: stack) fun _ => stack) (do
        let names := names ++ [parameter.text]
        if ← Parse.takeIf (·.isSymbol ",") then return .inl names
        let _ ← Parse.expectClosing opening ")"
        return .inr names : Parse (List String ⊕ List String)) := by
      refine Parse.nests_then _ _ _ (Parse.even_take_if .symbol "," (by decide)) fun more => ?_
      cases more with
      | true => exact Parse.nests_pure _ _ rfl
      | false =>
        exact Parse.nests_bind _ _ _ _ (Parse.nests_expect_closing opening ")" partners) fun _ => Parse.nests_pure _ _ rfl
    cases names.contains parameter.text with
    | true => exact Parse.nests_bind _ _ _ _ (Parse.nests_fail (fun _ => opening :: stack) _ fun _ same => by cases same) fun _ => listed
    | false => exact listed

theorem program_even : reader.program.Even := by
  intro stack
  rw [program_rounds]
  refine Parse.nests_then _ _ _ Parse.even_skip fun _ => Parse.nests_iterate _ stack _ (fun items => ?_) _ _
  refine Parse.nests_then _ _ _ (Parse.even_ask _) fun ended => ?_
  split
  · exact Parse.nests_pure _ _ rfl
  · exact Parse.nests_then _ _ _ even.statement fun _ => Parse.nests_then _ _ _ Parse.even_skip fun _ =>
      Parse.nests_pure _ _ rfl

omit even in
theorem program_ends (cursor rest : Cursor) (lines : List Node) (ok : reader.program cursor = .ok lines rest) :
    rest.atEnd = true := by
  rw [program_rounds] at ok
  obtain ⟨middle, _, _, further⟩ := Parse.ok_of_bind _ _ cursor rest lines ok
  refine Parse.iterate_ok (fun _ _ => True) (fun _ rest => rest.atEnd = true) _ (fun _ _ _ _ _ _ => trivial) ?_ _ []
    middle rest lines trivial further
  intro items cursor value rest _ round
  obtain ⟨_, _, asked, last⟩ := Parse.ok_of_bind _ _ _ _ _ round
  cases asked
  cases ended : cursor.atEnd with
  | true =>
    rw [ended] at last
    cases last
    exact ended
  | false =>
    rw [ended] at last
    obtain ⟨_, _, _, skipped⟩ := Parse.ok_of_bind _ _ _ _ _ last
    obtain ⟨_, _, _, again⟩ := Parse.ok_of_bind _ _ _ _ _ skipped
    cases again

end Reader

namespace StatementForm

theorem condition_even : (condition reader).Even := by
  intro stack
  exact Parse.nests_expect "(" ")" rfl _ _ fun opening partners => Parse.nests_then _ _ _ (even.expression 0) fun _ =>
    Parse.nests_bind _ _ _ _ (Parse.nests_expect_closing opening ")" partners) fun _ => Parse.nests_pure _ _ rfl

theorem function_even : (parseFunction reader).Even := by
  intro stack
  refine Parse.nests_then _ _ _ Parse.even_current fun _ =>
    Parse.nests_then _ _ _ (Parse.even_take_if .word "async" (by decide)) fun _ =>
      Parse.nests_then _ _ _ (Parse.even_expect .word "fn" (by decide)) fun _ =>
        Parse.nests_then _ _ _ (Parse.even_expect_name _) fun _ => ?_
  refine Parse.nests_expect "(" ")" rfl _ _ fun opening partners => ?_
  exact Parse.nests_bind _ _ _ _ (reader.parameters_nests stack _ opening partners) fun _ =>
    Parse.nests_then _ _ _ (reader.block_even even) fun _ => Parse.nests_pure _ _ rfl

-- The statements that begin with a word.
section Word
variable (stack : List Token) (cursor : Cursor) (plain : cursor.current.kind ≠ .bracket)
include plain

theorem return_nests : (parseReturn reader cursor).Nests (cursor.open? stack) fun _ => stack := by
  refine Parse.nests_plain cursor plain _ _ fun _ =>
    Parse.nests_then _ _ _ (Parse.even_ask _) fun bare => ?_
  split
  · exact Parse.nests_pure _ _ rfl
  · exact Parse.nests_then _ _ _ (even.expression 0) fun _ => Parse.nests_pure _ _ rfl

theorem branch_nests : (parseIf reader cursor).Nests (cursor.open? stack) fun _ => stack := by
  refine Parse.nests_plain cursor plain _ _ fun _ =>
    Parse.nests_then _ _ _ (condition_even reader even) fun _ => Parse.nests_then _ _ _ (reader.body_even even) fun _ =>
      Parse.nests_then _ _ _ (Parse.even_take_if .word "else" (by decide)) fun other => ?_
  split
  · exact Parse.nests_then _ _ _ (Parse.even_bind _ _ (reader.body_even even) fun _ => Parse.even_pure _) fun _ =>
      Parse.nests_pure _ _ rfl
  · exact Parse.nests_then _ _ _ (Parse.even_pure _) fun _ => Parse.nests_pure _ _ rfl

theorem loop_nests : (parseWhile reader cursor).Nests (cursor.open? stack) fun _ => stack :=
  Parse.nests_plain cursor plain _ _ fun _ =>
    Parse.nests_then _ _ _ (condition_even reader even) fun _ => Parse.nests_then _ _ _ (reader.body_even even) fun _ =>
      Parse.nests_pure _ _ rfl

end Word

theorem block_even : (parseBlock reader).Even :=
  Parse.even_bind _ _ Parse.even_current fun _ => Parse.even_bind _ _ (reader.block_even even) fun _ => Parse.even_pure _

end StatementForm

namespace ExpressionForm

theorem start_nests (form : ExpressionForm) (member : form ∈ standard) (cursor : Cursor)
    (applies : form.applies cursor = true) (start : Reader → Nat → Parse Node) (starts : form.start? = some start)
    (precedence : Nat) (stack : List Token) : (start reader precedence cursor).Nests (cursor.open? stack) fun _ => stack := by
  have operand (plain : cursor.current.kind ≠ .bracket) (minimum : Nat) (build : Token → Node → Node) :
      Parsed.Nests (cursor.open? stack) (fun _ => stack) ((do
        let token ← Parse.take
        return build token (← reader.expression minimum) : Parse Node) cursor) :=
    Parse.nests_plain cursor plain _ _ fun _ =>
      Parse.nests_then _ _ _ (even.expression minimum) fun _ => Parse.nests_pure _ _ rfl
  simp only [standard, List.mem_cons, List.not_mem_nil, or_false] at member
  rcases member with rfl | rfl | rfl | rfl | rfl | rfl | rfl | rfl | rfl | rfl | rfl | rfl | rfl | rfl | rfl
  all_goals cases starts
  · exact Parse.nests_plain cursor (cursor.plain_kind .text applies (by decide)) _ _ fun _ => Parse.nests_pure _ _ rfl
  · refine Parse.nests_plain cursor (cursor.plain_kind .number applies (by decide)) _ _ fun token => ?_
    split
    · exact Parse.nests_pure _ _ rfl
    · exact Parse.nests_fail _ _ fun _ same => by cases same
  · exact operand (cursor.plain_is .word "await" applies (by decide)) precedence fun token => .await "await" token.position
  · exact Parse.nests_plain cursor (cursor.plain_name applies) _ _ fun _ => Parse.nests_pure _ _ rfl
  · exact Parse.nests_take "(" ")" rfl cursor applies _ _ fun opening partners =>
      Parse.nests_then _ _ _ (even.expression 0) fun _ =>
        Parse.nests_bind _ _ _ _ (Parse.nests_expect_closing opening ")" partners) fun _ => Parse.nests_pure _ _ rfl
  · exact Parse.nests_take "[" "]" rfl cursor applies _ _ fun opening partners =>
      Parse.nests_bind _ _ _ _ (reader.list_nests even stack opening "]" partners) fun _ => Parse.nests_pure _ _ rfl
  · exact operand (cursor.plain_symbol _ applies) precedence fun token =>
      .unary "unary" token.position (if token.text = "-" then .negate else .not)

theorem extend_nests (form : ExpressionForm) (member : form ∈ standard) (cursor : Cursor)
    (applies : form.applies cursor = true) (extend : Reader → Node → Nat → Parse Node) (extends_ : form.extend? = some extend)
    (left : Node) (precedence : Nat) (stack : List Token) :
    (extend reader left precedence cursor).Nests (cursor.open? stack) fun _ => stack := by
  rcases extend_cases form member cursor applies extend extends_ with
    ⟨rfl, _, opens⟩ | ⟨rfl, _, opens⟩ | ⟨rfl, _, point⟩ | ⟨rfl, _, assigns⟩ | ⟨rfl, symbol, _⟩
  · exact Parse.nests_take "(" ")" rfl cursor opens _ _ fun opening partners =>
      Parse.nests_bind _ _ _ _ (reader.list_nests even stack opening ")" partners) fun _ => Parse.nests_pure _ _ rfl
  · exact Parse.nests_take "[" "]" rfl cursor opens _ _ fun opening partners =>
      Parse.nests_then _ _ _ (even.expression 0) fun _ =>
        Parse.nests_bind _ _ _ _ (Parse.nests_expect_closing opening "]" partners) fun _ => Parse.nests_pure _ _ rfl
  · exact Parse.nests_plain cursor (cursor.plain_is .symbol "." point (by decide)) _ _ fun _ =>
      Parse.nests_then _ _ _ (Parse.even_expect_name _) fun _ => Parse.nests_pure _ _ rfl
  · refine Parse.nests_plain cursor (cursor.plain_is .symbol "=" assigns (by decide)) _ _ fun token => ?_
    split
    · exact Parse.nests_then _ _ _ (even.expression 0) fun _ => Parse.nests_pure _ _ rfl
    · exact Parse.nests_fail _ _ fun _ same => by cases same
  · refine Parse.nests_plain cursor (cursor.plain_kind .symbol symbol (by decide)) _ _ fun token => ?_
    split
    · exact Parse.nests_fail _ _ fun _ same => by cases same
    · exact Parse.nests_then _ _ _ (even.expression precedence) fun _ => Parse.nests_pure _ _ rfl

end ExpressionForm

namespace Grammar

theorem statement_even : (standard.statement reader).Even := by
  intro stack
  refine Parse.nests_then _ _ _ Parse.even_skip fun _ cursor => ?_
  rw [Parse.cursor_then]
  cases found : standard.statements.find? fun form => form.applies cursor with
  | none => exact even.expression 0 stack cursor
  | some form =>
    have member := List.mem_of_find?_eq_some found
    have applies := List.find?_some found
    simp only [standard, StatementForm.standard, List.mem_cons, List.not_mem_nil, or_false] at member
    rcases member with rfl | rfl | rfl | rfl | rfl
    · exact StatementForm.function_even reader even stack cursor
    · exact StatementForm.return_nests reader even stack cursor (cursor.plain_is .word "return" applies (by decide))
    · exact StatementForm.branch_nests reader even stack cursor (cursor.plain_is .word "if" applies (by decide))
    · exact StatementForm.loop_nests reader even stack cursor (cursor.plain_is .word "while" applies (by decide))
    · exact StatementForm.block_even reader even stack cursor

theorem expression_even (minimum : Nat) : (standard.expression reader minimum).Even := by
  intro stack cursor
  unfold expression
  rw [Parse.cursor_then]
  cases started : starting? cursor standard.expressions with
  | none => exact Parse.nests_unexpected _ _ cursor
  | some begun =>
    obtain ⟨precedence, start⟩ := begun
    obtain ⟨form, member, starts, _, applies⟩ := starting_found cursor _ precedence start started
    refine Parse.bind_nests _ _ _ _ _ cursor
      (ExpressionForm.start_nests reader even form member cursor applies start starts precedence stack) fun first => ?_
    refine Parse.nests_iterate stack stack _ (fun left place => ?_) _ _
    unfold extension
    rw [Parse.cursor_then]
    cases further : extending? minimum place standard.expressions with
    | none => exact rfl
    | some found =>
      obtain ⟨tightness, extend⟩ := found
      obtain ⟨form, member, extends_, _, _, applies⟩ := extending_found minimum place _ tightness extend further
      exact Parse.bind_nests _ _ _ _ _ place
        (ExpressionForm.extend_nests reader even form member place applies extend extends_ left tightness stack)
        fun _ => Parse.nests_pure _ _ rfl

end Grammar

end Reading

theorem Reader.of_fuel_even (fuel : Nat) : (Reader.ofFuel Grammar.standard fuel).Even := by
  induction fuel with
  | zero => exact ⟨fun _ _ => trivial, fun _ _ _ => trivial⟩
  | succ fuel ih => exact ⟨Grammar.statement_even _ ih, Grammar.expression_even _ ih⟩

theorem Grammar.parse_nests (tokens : List Token) :
    (∀ nodes rest, standard.parse tokens = .ok nodes rest → Token.open? [] tokens = some []) ∧
      ∀ diagnostic, standard.parse tokens = .failed diagnostic → diagnostic.Blames (Token.open? [] tokens) := by
  cases tokens with
  | nil => exact ⟨nofun, nofun⟩
  | cons current rest =>
    have nests := (Reader.ofFuel standard (allowance (current :: rest))).program_even (Reader.of_fuel_even _) [] ⟨current, rest⟩
    have same : standard.parse (current :: rest) =
        (Reader.ofFuel standard (allowance (current :: rest))).program ⟨current, rest⟩ := rfl
    refine ⟨fun nodes last ok => ?_, fun diagnostic failed => ?_⟩
    · have ended := Reader.program_ends _ _ last nodes (same ▸ ok)
      rw [← same, ok] at nests
      exact nests.symm.trans (last.open_end [] ended)
    · rwa [← same, failed] at nests

/-- What the standard grammar accepts is balanced before the end mark. When it misses what closes a bracket, it names the one
bracket that is left open with nothing but balanced tokens behind it; so it misses none in balanced tokens. -/
theorem brackets_told (tokens : List Token) :
    (∀ nodes rest, Grammar.standard.parse tokens = .ok nodes rest → Token.Balanced (Token.body tokens)) ∧
    (∀ diagnostic bracket, Grammar.standard.parse tokens = .failed diagnostic → diagnostic.cause = .unmatched bracket →
      ∃ front opening back, Token.Unclosed (Token.body tokens) front opening back ∧ opening.text = bracket ∧
        diagnostic.position = some opening.position ∧
          ∀ start other rest, Token.Unclosed (Token.body tokens) start other rest → other = opening) ∧
    (Token.Balanced (Token.body tokens) → ∀ diagnostic bracket, Grammar.standard.parse tokens = .failed diagnostic →
      diagnostic.cause ≠ .unmatched bracket) := by
  have inside := Token.body_inside tokens
  obtain ⟨accepted, refused⟩ := Grammar.parse_nests tokens
  have seen (left : List Token) (known : Token.open? [] tokens = some left) : Token.Pending left (Token.body tokens) :=
    Token.Pending.read tokens [] [] left known (.even [] .nothing)
  have told (diagnostic : Diagnostic) (bracket : String) (failed : Grammar.standard.parse tokens = .failed diagnostic)
      (cause : diagnostic.cause = .unmatched bracket) : ∃ front opening back,
        Token.Unclosed (Token.body tokens) front opening back ∧ opening.text = bracket ∧
          diagnostic.position = some opening.position := by
    obtain ⟨opening, outer, left, text, place⟩ := refused diagnostic failed bracket cause
    have pending := seen _ left
    generalize Token.body tokens = body at pending ⊢
    cases pending with
    | opened _ _ front back bracket opens _ balanced =>
      exact ⟨front, opening, back, ⟨rfl, bracket, opens, balanced⟩, text, place⟩
  refine ⟨fun nodes rest ok => ?_, fun diagnostic bracket failed cause => ?_, fun balanced diagnostic bracket failed cause => ?_⟩
  · have pending := seen [] (accepted nodes rest ok)
    generalize Token.body tokens = body at pending ⊢
    cases pending with
    | even _ balanced => exact balanced
  · obtain ⟨front, opening, back, unclosed, text, place⟩ := told diagnostic bracket failed cause
    exact ⟨front, opening, back, unclosed, text, place, unclosed.alone _ _ _ _ inside⟩
  · obtain ⟨front, opening, back, unclosed, _⟩ := told diagnostic bracket failed cause
    exact unclosed.not_balanced _ _ _ _ inside balanced

-- A call that is closed, one that is not and holds a list that is not either, and brackets with nothing between them.
theorem brackets_told_nested :
    Token.Balanced (Token.body [.word "f", .bracket "(", .word "a", .bracket ")", .finish]) ∧
    (∃ cut diagnostic front opening back,
      cut = [.word "f", .bracket "(", .word "a", .symbol ",", ⟨.bracket, "[", ⟨1, 6, 5, none⟩⟩, .word "b", .finish] ∧
        Grammar.standard.parse cut = .failed diagnostic ∧ Token.Unclosed (Token.body cut) front opening back ∧
          opening.text = "[" ∧ diagnostic.position = some opening.position ∧ diagnostic.position = some ⟨1, 6, 5, none⟩) ∧
    ∃ diagnostic, Grammar.standard.parse [.bracket "(", .bracket ")", .finish] = .failed diagnostic ∧
      ∀ bracket, diagnostic.cause ≠ .unmatched bracket := by
  have closed : Grammar.standard.parse [.word "f", .bracket "(", .word "a", .bracket ")", .finish] =
      .ok [.call "call" default (.reference "f" default) [.reference "a" default]] ⟨.finish, []⟩ := by rfl
  have cut : Grammar.standard.parse [.word "f", .bracket "(", .word "a", .symbol ",", ⟨.bracket, "[", ⟨1, 6, 5, none⟩⟩,
      .word "b", .finish] = .failed ⟨.unmatched "[", some ⟨1, 6, 5, none⟩, [.expectedClosing "]"]⟩ := by rfl
  have empty : Grammar.standard.parse [.bracket "(", .bracket ")", .finish] =
      .failed ⟨.expected "expression" "`)`", some default, []⟩ := by rfl
  obtain ⟨front, opening, back, unclosed, text, place, _⟩ := (brackets_told _).2.1 _ "[" cut rfl
  have balanced : Token.Balanced (Token.body [.bracket "(", .bracket ")", .finish]) :=
    .pair (.bracket "(") (.bracket ")") [] [] rfl rfl rfl .nothing .nothing
  exact ⟨(brackets_told _).1 _ _ closed, ⟨_, _, front, opening, back, rfl, cut, unclosed, text, place, rfl⟩, _, empty,
    fun bracket => (brackets_told _).2.2 balanced _ bracket empty⟩

end CoopScript
