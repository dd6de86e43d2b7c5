import CoopScript.Proofs.Layout.Reading
import CoopScript.Proofs.Grammar.Climb
import CoopScript.Proofs.Grammar.Image
import Mathlib.Data.List.Find

set_option autoImplicit false
namespace CoopScript

open Lens (placeless)

-- The other reader echoes the first one. At the end of the tokens no expression is read.
structure Reader.Echoes (sequel : Sequel) (reader other : Reader) : Prop where
  fewer : reader.fuel ≤ other.fuel
  same : sequel.exact → reader.fuel = other.fuel
  statement : reader.statement.Echoes sequel placeless.node 1 other.statement
  expression : ∀ minimum, (reader.expression minimum).Echoes sequel placeless.node 1 (other.expression minimum)
  blank : ∀ minimum, (reader.expression minimum).Blank

namespace Parse
variable (sequel : Sequel)

theorem echoes_node (node other : Node) (same : placeless.node node = other) :
    (Pure.pure node : Parse Node).Echoes sequel placeless.node 0 (Pure.pure other) := same ▸ echoes_pure sequel _ node

theorem echoes_built {α β : Type} (see : α → β) (least : Nat) (step : Parse α) (other : Parse β) (build : α → Node)
    (alike : β → Node) (echoes : step.Echoes sequel see least other)
    (same : ∀ value, placeless.node (build value) = alike (see value)) :
    (do return build (← step) : Parse Node).Echoes sequel placeless.node least (do return alike (← other)) :=
  echoes_bind sequel _ _ _ _ _ _ least echoes fun value => echoes_node sequel _ _ (same value)

theorem echoes_ended (items : List Node) : (Pure.pure (.inr items.reverse) : Parse (List Node ⊕ List Node)).Echoes sequel
    (Sum.map placeless.lines placeless.lines) 0 (Pure.pure (.inr (placeless.lines items).reverse)) := by
  have same : Sum.map placeless.lines placeless.lines (.inr items.reverse) = .inr (placeless.lines items).reverse :=
    congrArg Sum.inr List.map_reverse
  exact same ▸ echoes_pure sequel _ _

end Parse

section Reading
variable (sequel : Sequel) (reader other : Reader) (echoes : reader.Echoes sequel other)
include echoes

namespace Reader

theorem block_step_echoes (opening : Token) (items : List Node) :
    (reader.blockStep opening items).Echoes sequel (Sum.map placeless.lines placeless.lines) 0
      (other.blockStep opening.unplaced (placeless.lines items)) := by
  have closing := sequel.asks_bracket "\x7d"
  have line : Parse.Echoes sequel (Sum.map placeless.lines placeless.lines) 0
      (do return .inl ((← reader.statement) :: items) : Parse (List Node ⊕ List Node))
      (do return .inl ((← other.statement) :: placeless.lines items)) :=
    Parse.echoes_bind sequel placeless.node _ _ _ _ _ 0 echoes.statement.any fun _ => Parse.echoes_pure sequel _ _
  refine Parse.echoes_skip sequel _ 0 _ _ (fun cursor value rest ended => ?_) ?_
  · -- Where the tokens have ended there is no closing brace, and the block is at fault.
    have unclosed : cursor.isBracket "\x7d" = false := by
      cases closed : cursor.isBracket "\x7d" with
      | false => rfl
      | true => exact absurd (closing.inside cursor closed) (by simp [ended])
    simp [Bind.bind, Parse.bind, Parse.takeIf, unclosed, Parse.ask, ended, Parse.fail]
  · refine Parse.echoes_bind sequel id _ _ _ _ _ 0 (Parse.echoes_take_if sequel _ closing) fun closed => ?_
    cases closed with
    | true => exact Parse.echoes_ended sequel items
    | false => exact Parse.echoes_before_end sequel _ _ _ _ line

theorem block_echoes : reader.block.Echoes sequel placeless.lines 1 other.block := by
  rw [block_rounds, block_rounds]
  exact Parse.echoes_bind sequel Token.unplaced _ _ _ _ _ 1 (Parse.echoes_expect sequel _ _ nofun nofun) fun opening =>
    Parse.echoes_iterate sequel _ placeless.lines _ _ (reader.block_step_echoes sequel other echoes opening) _ _
      echoes.fewer echoes.same []

theorem body_echoes : reader.body.Echoes sequel placeless.lines 1 other.body := by
  have braced := sequel.asks_bracket "\x7b"
  intro cursor ends
  have block := reader.block_echoes sequel other echoes cursor ends
  have line := Parse.echoes_bind sequel placeless.node placeless.lines _ _ (fun node => pure [node])
    (fun node => pure [node]) 1 echoes.statement (fun node => Parse.echoes_pure sequel placeless.lines [node]) cursor ends
  simp only [body, Bind.bind, Parse.bind, Parse.ask, braced.same]
  cases cursor.isBracket "\x7b" with
  | true => exact block
  | false => exact line

theorem list_echoes (opening : Token) (closing : String) : (reader.list opening closing).Echoes sequel placeless.lines 0
    (other.list opening.unplaced closing) := by
  rw [list_rounds, list_rounds]
  refine Parse.echoes_bind sequel id _ _ _ _ _ 0 (Parse.echoes_take_if sequel _ (sequel.asks_bracket closing))
    fun empty => ?_
  cases empty with
  | true => exact Parse.echoes_pure sequel _ []
  | false =>
    refine Parse.echoes_iterate sequel _ placeless.lines _ _ (fun items => ?_) _ _ echoes.fewer echoes.same []
    refine Parse.echoes_bind sequel placeless.node _ _ _ _ _ 0 (echoes.expression 0).any fun item => ?_
    refine Parse.echoes_bind sequel id _ _ _ _ _ 0 (Parse.echoes_take_if sequel _ (sequel.asks_symbol ","))
      fun more => ?_
    cases more with
    | true => exact Parse.echoes_pure sequel _ (Sum.inl (item :: items))
    | false =>
      exact Parse.echoes_bind sequel _ _ _ _ _ _ 0 (Parse.echoes_expect_closing sequel opening closing).any
        fun _ => Parse.echoes_ended sequel (item :: items)

omit echoes in
theorem parameters_echoes (function : String) (opening : Token) (fewer : reader.fuel ≤ other.fuel)
    (same : sequel.exact → reader.fuel = other.fuel) : (StatementForm.parameters reader function opening).Echoes sequel id
      0 (StatementForm.parameters other function opening.unplaced) := by
  rw [parameter_rounds, parameter_rounds]
  refine Parse.echoes_bind sequel id _ _ _ _ _ 0 (Parse.echoes_take_if sequel _ (sequel.asks_bracket ")"))
    fun empty => ?_
  cases empty with
  | true => exact Parse.echoes_pure sequel _ []
  | false =>
    refine Parse.echoes_iterate sequel _ id _ _ (fun names => ?_) _ _ fewer same []
    refine Parse.echoes_bind sequel Token.unplaced _ _ _ _ _ 0 (Parse.echoes_expect_name sequel _).any
      fun parameter => ?_
    have listed : Parse.Echoes sequel (Sum.map id id) 0
        (do
          let names := names ++ [parameter.text]
          if ← Parse.takeIf (·.isSymbol ",") then return .inl names
          let _ ← Parse.expectClosing opening ")"
          return .inr names : Parse (List String ⊕ List String))
        (do
          let names := names ++ [parameter.text]
          if ← Parse.takeIf (·.isSymbol ",") then return .inl names
          let _ ← Parse.expectClosing opening.unplaced ")"
          return .inr names : Parse (List String ⊕ List String)) := by
      refine Parse.echoes_bind sequel id _ _ _ _ _ 0 (Parse.echoes_take_if sequel _ (sequel.asks_symbol ","))
        fun more => ?_
      cases more with
      | true => exact Parse.echoes_pure sequel _ (Sum.inl _)
      | false =>
        exact Parse.echoes_bind sequel _ _ _ _ _ _ 0 (Parse.echoes_expect_closing sequel opening ")").any
          fun _ => Parse.echoes_pure sequel _ (Sum.inr _)
    rw [show parameter.unplaced.text = parameter.text from rfl]
    simp only [id]
    split
    · exact Parse.echoes_bind sequel id _ _ _ _ _ 0 (Parse.echoes_fail sequel _ 0 _) fun _ => listed
    · exact listed

-- What was read before the first program is no more than there before it.
theorem program_step_echoes (closed : sequel.next = none) (before items : List Node) :
    (reader.programStep items).Echoes sequel
      (Sum.map (fun items => placeless.lines items ++ before) fun lines => before.reverse ++ placeless.lines lines) 0
      (other.programStep (placeless.lines items ++ before)) := by
  refine Parse.echoes_bind sequel id _ _ _ _ _ 0
    (Parse.echoes_ask sequel _ fun cursor => sequel.end_cursor cursor (.inl closed)) fun ended => ?_
  cases ended with
  | true =>
    have same : (placeless.lines items ++ before).reverse = before.reverse ++ placeless.lines items.reverse := by
      rw [List.reverse_append, Lens.lines, Lens.lines, List.map_reverse]
    have given := Parse.echoes_pure sequel (Sum.map (fun items => placeless.lines items ++ before) fun lines =>
      before.reverse ++ placeless.lines lines) (.inr items.reverse)
    rw [show Sum.map _ _ (.inr items.reverse : List Node ⊕ List Node) = .inr _ from congrArg Sum.inr same.symm] at given
    exact given
  | false =>
    refine Parse.echoes_bind sequel placeless.node _ _ _ _ _ 0 echoes.statement.any fun item cursor ends => ?_
    obtain ⟨further, fewer⟩ := cursor.ends_skip ends
    show Parsed.Echoes sequel _ _ (.ok (Sum.inl (item :: items)) cursor.skipSeparators)
      (.ok (Sum.inl (placeless.node item :: (placeless.lines items ++ before))) (sequel.cursor cursor).skipSeparators)
    exact ⟨by rw [sequel.skip_cursor cursor (.inl closed)]; rfl, further, fewer⟩

theorem program_echoes (closed : sequel.next = none) : reader.program.Echoes sequel placeless.lines 0 other.program := by
  rw [program_rounds, program_rounds]
  intro cursor ends
  obtain ⟨further, fewer⟩ := cursor.ends_skip ends
  have rounds := Parse.echoes_iterate sequel placeless.lines placeless.lines _ _
    (fun items => by simpa using reader.program_step_echoes sequel other echoes closed [] items) _ _ echoes.fewer
    echoes.same [] cursor.skipSeparators further
  rw [← sequel.skip_cursor cursor (.inl closed)] at rounds
  exact rounds.within _ fewer

end Reader

namespace ExpressionForm

omit echoes in
theorem standard_asks (form : ExpressionForm) (member : form ∈ standard) : sequel.Asks form.applies := by
  simp only [standard, List.mem_cons, List.not_mem_nil, or_false] at member
  rcases member with rfl | rfl | rfl | rfl | rfl | rfl | rfl | rfl | rfl | rfl | rfl | rfl | rfl | rfl | rfl
  · exact sequel.asks_kind .text (by decide) (by decide)
  · exact sequel.asks_kind .number (by decide) (by decide)
  · exact sequel.asks_word _
  · exact sequel.asks_name
  · exact sequel.asks_bracket _
  · exact sequel.asks_bracket _
  · exact sequel.asks_symbol _
  · exact sequel.asks_any _
  · exact sequel.asks_any _
  · exact sequel.asks_any _
  · exact sequel.asks_any _
  · exact sequel.asks_any _
  · exact sequel.asks_any _
  · exact sequel.asks_any _
  · exact sequel.asks_symbol _

theorem start_echoes (form : ExpressionForm) (member : form ∈ standard) (cursor : Cursor) (ends : cursor.Ends)
    (applies : form.applies cursor = true) (start : Reader → Nat → Parse Node) (starts : form.start? = some start)
    (precedence : Nat) : (start reader precedence cursor).Echoes sequel placeless.node (cursor.rest.length - 1)
      (start other precedence (sequel.cursor cursor)) := by
  have token := Parse.take_echoes sequel cursor ends ((standard_asks sequel form member).inside cursor applies)
  have operand := (echoes.expression precedence).any
  rcases start_cases form member cursor applies start starts with
    rfl | rfl | ⟨rfl, _⟩ | ⟨rfl, _⟩ | rfl | rfl | ⟨rfl, _⟩
  · exact Parse.bind_echoes sequel _ _ _ _ _ _ _ cursor token fun token =>
      Parse.echoes_node sequel _ _ (placeless.node_text _)
  · refine Parse.bind_echoes sequel _ _ _ _ _ _ _ cursor token fun token => ?_
    rw [show token.unplaced.text = token.text from rfl]
    cases Number.read? token.text with
    | some value => exact Parse.echoes_node sequel _ _ (placeless.node_number value)
    | none => exact Parse.echoes_fail sequel _ 0 _
  · exact Parse.bind_echoes sequel _ _ _ _ _ _ _ cursor token fun token =>
      Parse.echoes_built sequel _ 0 _ _ _ _ operand fun _ => placeless.node_await _ _ _
  · exact Parse.bind_echoes sequel _ _ _ _ _ _ _ cursor token fun token =>
      Parse.echoes_node sequel _ _ (placeless.node_reference _ _)
  · exact Parse.bind_echoes sequel _ _ _ _ _ _ _ cursor token fun token =>
      Parse.echoes_bind sequel _ _ _ _ _ _ 0 (echoes.expression 0).any fun inner =>
        Parse.echoes_bind sequel _ _ _ _ _ _ 0 (Parse.echoes_expect_closing sequel token ")").any fun _ =>
          Parse.echoes_node sequel _ _ (placeless.node_group _ _ _)
  · exact Parse.bind_echoes sequel _ _ _ _ _ _ _ cursor token fun token =>
      Parse.echoes_built sequel _ 0 _ _ _ _ (reader.list_echoes sequel other echoes token "]") fun _ =>
        placeless.node_array _ _ _
  · exact Parse.bind_echoes sequel _ _ _ _ _ _ _ cursor token fun token =>
      Parse.echoes_built sequel _ 0 _ _ _ _ operand fun _ => placeless.node_unary _ _ _ _

theorem assign_echoes (target : Node) (token : Token) : Parse.Echoes sequel placeless.node 0
    (match target with
      | .reference name _ => do return .assign "assign" token.position name (← reader.expression 0)
      | other => Parse.fail (.located (.notAssignable other.describe) token.position) : Parse Node)
    (match placeless.node target with
      | .reference name _ => do return .assign "assign" token.unplaced.position name (← other.expression 0)
      | other => Parse.fail (.located (.notAssignable other.describe) token.unplaced.position)) := by
  have refused := Parse.echoes_fail sequel placeless.node 0
    (.located (.notAssignable target.describe) token.position)
  rw [← placeless.describe_node target] at refused
  cases target with
  | reference name position =>
    rw [placeless.node_reference]
    exact Parse.echoes_built sequel _ 0 _ _ _ _ (echoes.expression 0).any fun _ => placeless.node_assign _ _ _ _
  | giveBack =>
    rw [placeless.node_give_back] at refused ⊢
    exact refused
  | branch =>
    rw [placeless.node_branch] at refused ⊢
    exact refused
  | _ => exact refused

theorem extend_echoes (form : ExpressionForm) (member : form ∈ standard) (cursor : Cursor) (ends : cursor.Ends)
    (applies : form.applies cursor = true) (extend : Reader → Node → Nat → Parse Node)
    (extending : form.extend? = some extend) (left : Node) (precedence : Nat) :
    (extend reader left precedence cursor).Echoes sequel placeless.node (cursor.rest.length - 1)
      (extend other (placeless.node left) precedence (sequel.cursor cursor)) := by
  have token := Parse.take_echoes sequel cursor ends ((standard_asks sequel form member).inside cursor applies)
  rcases extend_cases form member cursor applies extend extending with
    ⟨rfl, _⟩ | ⟨rfl, _⟩ | ⟨rfl, _⟩ | ⟨rfl, _⟩ | ⟨rfl, _⟩
  · exact Parse.bind_echoes sequel _ _ _ _ _ _ _ cursor token fun token =>
      Parse.echoes_built sequel _ 0 _ _ _ _ (reader.list_echoes sequel other echoes token ")") fun _ =>
        placeless.node_call _ _ _ _
  · exact Parse.bind_echoes sequel _ _ _ _ _ _ _ cursor token fun token =>
      Parse.echoes_bind sequel _ _ _ _ _ _ 0 (echoes.expression 0).any fun place =>
        Parse.echoes_bind sequel _ _ _ _ _ _ 0 (Parse.echoes_expect_closing sequel token "]").any fun _ =>
          Parse.echoes_node sequel _ _ (placeless.node_index _ _ _ _)
  · exact Parse.bind_echoes sequel _ _ _ _ _ _ _ cursor token fun token =>
      Parse.echoes_built sequel _ 0 _ _ _ _ (Parse.echoes_expect_name sequel _).any fun _ =>
        placeless.node_access _ _ _ _
  · exact Parse.bind_echoes sequel _ _ _ _ _ _ _ cursor token fun token =>
      assign_echoes sequel reader other echoes left token
  · refine Parse.bind_echoes sequel _ _ _ _ _ _ _ cursor token fun token => ?_
    rw [show token.unplaced.text = token.text from rfl]
    cases BinaryOp.ofSymbol? token.text with
    | none => exact Parse.echoes_fail sequel _ 0 _
    | some op => exact Parse.echoes_built sequel _ 0 _ _ _ _ (echoes.expression precedence).any fun _ =>
        placeless.node_binary _ _ _ _ _

end ExpressionForm

namespace StatementForm

theorem condition_echoes : (condition reader).Echoes sequel placeless.node 1 (condition other) :=
  Parse.echoes_bind sequel _ _ _ _ _ _ 1 (Parse.echoes_expect sequel _ _ nofun nofun) fun opening =>
    Parse.echoes_bind sequel _ _ _ _ _ _ 0 (echoes.expression 0).any fun inner =>
      Parse.echoes_bind sequel _ _ _ _ _ _ 0 (Parse.echoes_expect_closing sequel opening ")").any fun _ =>
        Parse.echoes_pure sequel _ inner

theorem function_echoes (cursor : Cursor) (ends : cursor.Ends) (inside : cursor.atEnd = false) :
    (parseFunction reader cursor).Echoes sequel placeless.node (cursor.rest.length - 1)
      (parseFunction other (sequel.cursor cursor)) := by
  have declared : ∀ (first : Token) (isAsync : Bool), Parse.Echoes sequel placeless.node 1
      (do
        let _ ← Parse.expect .word "fn"
        let name := (← Parse.expectName "function name").text
        let opening ← Parse.expect .bracket "("
        let names ← parameters reader name opening
        let body ← reader.block
        return .function "fn" first.position name names isAsync body : Parse Node)
      (do
        let _ ← Parse.expect .word "fn"
        let name := (← Parse.expectName "function name").text
        let opening ← Parse.expect .bracket "("
        let names ← parameters other name opening
        let body ← other.block
        return .function "fn" first.unplaced.position name names isAsync body) := fun first isAsync =>
    Parse.echoes_bind sequel _ _ _ _ _ _ 1 (Parse.echoes_expect sequel .word "fn" nofun nofun) fun _ =>
      Parse.echoes_bind sequel _ _ _ _ _ _ 0 (Parse.echoes_expect_name sequel _).any fun name =>
        Parse.echoes_bind sequel _ _ _ _ _ _ 0 (Parse.echoes_expect sequel .bracket "(" nofun nofun).any fun opening =>
          Parse.echoes_bind sequel _ _ _ _ _ _ 0
            (reader.parameters_echoes sequel other name.text opening echoes.fewer echoes.same) fun names =>
            Parse.echoes_built sequel _ 0 _ _ _ _ (reader.block_echoes sequel other echoes).any fun _ =>
              placeless.node_function _ _ _ _ _ _
  exact Parse.current_echoes sequel _ _ _ _ cursor inside
    (Parse.echoes_then sequel id _ _ _ _ _ 1 (Parse.echoes_take_if sequel _ (sequel.asks_word "async"))
      (fun isAsync => declared cursor.current isAsync) cursor ends)

omit echoes in
theorem bare_cursor (cursor : Cursor) :
    ((sequel.cursor cursor).isKind .separator || (sequel.cursor cursor).isBracket "\x7d" || (sequel.cursor cursor).atEnd) =
      (cursor.isKind .separator || cursor.isBracket "\x7d" || cursor.atEnd) := by
  have seen (same : (sequel.cursor cursor).current = cursor.current.unplaced) :
      ((sequel.cursor cursor).isKind .separator || (sequel.cursor cursor).isBracket "\x7d" ||
        (sequel.cursor cursor).atEnd) = (cursor.isKind .separator || cursor.isBracket "\x7d" || cursor.atEnd) := by
    simp only [Cursor.isKind, Cursor.isBracket, Cursor.atEnd, same]
    rfl
  cases known : sequel.next with
  | none => exact seen (sequel.current_closed cursor known)
  | some found =>
    cases ended : cursor.atEnd with
    | false => exact ended ▸ seen (sequel.current_inside cursor ended)
    | true =>
      have separator : (sequel.cursor cursor).isKind .separator = true := by
        simp only [Cursor.isKind, Sequel.cursor, Sequel.first, known, of_decide_eq_true ended, if_true,
          sequel.separated found.1 found.2 known, decide_true]
      simp [separator]

theorem return_echoes (cursor : Cursor) (ends : cursor.Ends) (inside : cursor.atEnd = false) :
    (parseReturn reader cursor).Echoes sequel placeless.node (cursor.rest.length - 1)
      (parseReturn other (sequel.cursor cursor)) := by
  refine Parse.bind_echoes sequel _ _ _ _ _ _ _ cursor (Parse.take_echoes sequel cursor ends inside) fun token => ?_
  refine Parse.echoes_bind sequel id _ _ _ _ _ 0 (Parse.echoes_ask sequel _ (bare_cursor sequel)) fun bare => ?_
  cases bare with
  | true => exact Parse.echoes_node sequel _ _ (placeless.node_give_back _ _ _)
  | false =>
    exact Parse.echoes_built sequel _ 0 _ _ _ _ (echoes.expression 0).any fun _ => placeless.node_give_back _ _ _

theorem branch_echoes (cursor : Cursor) (ends : cursor.Ends) (inside : cursor.atEnd = false) :
    (parseIf reader cursor).Echoes sequel placeless.node (cursor.rest.length - 1)
      (parseIf other (sequel.cursor cursor)) := by
  refine Parse.bind_echoes sequel _ _ _ _ _ _ _ cursor (Parse.take_echoes sequel cursor ends inside) fun token => ?_
  refine Parse.echoes_bind sequel _ _ _ _ _ _ 0 (condition_echoes sequel reader other echoes).any fun question => ?_
  refine Parse.echoes_bind sequel _ _ _ _ _ _ 0 (reader.body_echoes sequel other echoes).any fun whenTrue => ?_
  refine Parse.echoes_bind sequel id _ _ _ _ _ 0 (Parse.echoes_take_if sequel _ (sequel.asks_word "else"))
    fun further => ?_
  cases further with
  | true =>
    refine Parse.echoes_bind sequel (Option.map placeless.lines) _ _ _ _ _ 0 ?_ fun whenFalse =>
      Parse.echoes_node sequel _ _ (placeless.node_branch _ _ _ _ _)
    exact Parse.echoes_bind sequel _ _ _ _ _ _ 0 (reader.body_echoes sequel other echoes).any fun whenFalse =>
      Parse.echoes_pure sequel _ (some whenFalse)
  | false =>
    exact Parse.echoes_bind sequel (Option.map placeless.lines) _ _ _ _ _ 0 (Parse.echoes_pure sequel _ none) fun _ =>
      Parse.echoes_node sequel _ _ (placeless.node_branch _ _ _ _ _)

theorem loop_echoes (cursor : Cursor) (ends : cursor.Ends) (inside : cursor.atEnd = false) :
    (parseWhile reader cursor).Echoes sequel placeless.node (cursor.rest.length - 1)
      (parseWhile other (sequel.cursor cursor)) :=
  Parse.bind_echoes sequel _ _ _ _ _ _ _ cursor (Parse.take_echoes sequel cursor ends inside) fun _ =>
    Parse.echoes_bind sequel _ _ _ _ _ _ 0 (condition_echoes sequel reader other echoes).any fun _ =>
      Parse.echoes_built sequel _ 0 _ _ _ _ (reader.body_echoes sequel other echoes).any fun _ =>
        placeless.node_loop _ _ _ _

theorem block_echoes (cursor : Cursor) (ends : cursor.Ends) (inside : cursor.atEnd = false) :
    (parseBlock reader cursor).Echoes sequel placeless.node (cursor.rest.length - 1)
      (parseBlock other (sequel.cursor cursor)) := by
  have body (first : Token) := Parse.echoes_built sequel _ 1 _ _ (fun lines => .block "block" first.position lines)
    (fun lines => .block "block" first.unplaced.position lines) (reader.block_echoes sequel other echoes)
    (fun _ => placeless.node_block _ _ _)
  exact Parse.current_echoes sequel _ _ _ _ cursor inside (body cursor.current cursor ends)

omit echoes in
theorem standard_same (form : StatementForm) (member : form ∈ standard) (cursor : Cursor) (ends : cursor.Ends) :
    form.applies (sequel.cursor cursor) = form.applies cursor := by
  simp only [standard, List.mem_cons, List.not_mem_nil, or_false] at member
  rcases member with rfl | rfl | rfl | rfl | rfl
  · have waits := sequel.asks_word "async"
    show startsFunction _ = startsFunction _
    unfold startsFunction
    rw [(sequel.asks_word "fn").same, waits.same]
    cases async : cursor.isWord "async" with
    | true => rw [sequel.next_inside cursor ends (waits.inside cursor async) "fn"]
    | false => rfl
  · exact (sequel.asks_word _).same cursor
  · exact (sequel.asks_word _).same cursor
  · exact (sequel.asks_word _).same cursor
  · exact (sequel.asks_bracket _).same cursor

omit echoes in
theorem standard_inside (form : StatementForm) (member : form ∈ standard) (cursor : Cursor)
    (applies : form.applies cursor = true) : cursor.atEnd = false := by
  have word (text : String) := ((Sequel.ending True).asks_word text).inside cursor
  simp only [standard, List.mem_cons, List.not_mem_nil, or_false] at member
  rcases member with rfl | rfl | rfl | rfl | rfl
  · rcases (Bool.or_eq_true _ _).mp applies with plain | async
    · exact word _ plain
    · exact word _ ((Bool.and_eq_true _ _).mp async).1
  · exact word _ applies
  · exact word _ applies
  · exact word _ applies
  · exact ((Sequel.ending True).asks_bracket _).inside cursor applies

end StatementForm

namespace Grammar

omit echoes in
theorem starting_same (cursor : Cursor) (forms : List ExpressionForm)
    (asks : ∀ form ∈ forms, sequel.Asks form.applies) :
    starting? (sequel.cursor cursor) forms = starting? cursor forms := by
  induction forms with
  | nil => rfl
  | cons form rest ih =>
    have later := ih fun other member => asks other (List.mem_cons_of_mem form member)
    simp only [starting?, (asks form List.mem_cons_self).same, later]

omit echoes in
theorem extending_same (minimum : Nat) (cursor : Cursor) (forms : List ExpressionForm)
    (asks : ∀ form ∈ forms, sequel.Asks form.applies) :
    extending? minimum (sequel.cursor cursor) forms = extending? minimum cursor forms := by
  induction forms with
  | nil => rfl
  | cons form rest ih =>
    have later := ih fun other member => asks other (List.mem_cons_of_mem form member)
    simp only [extending?, (asks form List.mem_cons_self).same, later]

theorem extension_echoes (minimum : Nat) (left : Node) :
    (standard.extension reader minimum left).Echoes sequel (Sum.map placeless.node placeless.node) 0
      (standard.extension other minimum (placeless.node left)) := by
  intro cursor ends
  unfold extension
  rw [Parse.cursor_then, Parse.cursor_then, show extending? minimum (sequel.cursor cursor) standard.expressions = _ from
    extending_same sequel minimum cursor _ (ExpressionForm.standard_asks sequel)]
  cases further : extending? minimum cursor standard.expressions with
  | none => exact Parse.echoes_pure sequel _ (Sum.inr left) cursor ends
  | some found =>
    obtain ⟨tightness, extend⟩ := found
    obtain ⟨form, member, extending, _, _, applies⟩ := extending_found minimum cursor _ tightness extend further
    exact (Parse.bind_echoes sequel _ _ _ _ _ _ _ cursor
      (ExpressionForm.extend_echoes sequel reader other echoes form member cursor ends applies extend extending left
        tightness) fun node => Parse.echoes_pure sequel _ (Sum.inl node)).within _ (Nat.sub_le _ _)

theorem expression_echoes (minimum : Nat) : (standard.expression reader minimum).Echoes sequel placeless.node 1
    (standard.expression other minimum) := by
  intro cursor ends
  unfold expression
  rw [Parse.cursor_then, Parse.cursor_then, show starting? (sequel.cursor cursor) standard.expressions = _ from
    starting_same sequel cursor _ (ExpressionForm.standard_asks sequel)]
  cases started : starting? cursor standard.expressions with
  | none => exact Parse.echoes_unexpected sequel _ 1 _ cursor ends
  | some begun =>
    obtain ⟨precedence, start⟩ := begun
    obtain ⟨form, member, starts, _, applies⟩ := starting_found cursor _ precedence start started
    exact Parse.bind_echoes sequel _ _ _ _ _ _ _ cursor
      (ExpressionForm.start_echoes sequel reader other echoes form member cursor ends applies start starts precedence)
      fun first => Parse.echoes_iterate sequel _ placeless.node _ _
        (extension_echoes sequel reader other echoes minimum) _ _ echoes.fewer echoes.same first

omit echoes in
theorem expression_blank (minimum : Nat) : (standard.expression reader minimum).Blank := by
  intro cursor value rest ended
  unfold expression
  rw [Parse.cursor_then]
  cases started : starting? cursor standard.expressions with
  | none => nofun
  | some begun =>
    obtain ⟨form, member, _, _, applies⟩ := starting_found cursor _ begun.1 begun.2 started
    have inside := (ExpressionForm.standard_asks (.ending True) form member).inside cursor applies
    rw [ended] at inside
    cases inside

theorem statement_echoes : (standard.statement reader).Echoes sequel placeless.node 1 (standard.statement other) := by
  refine Parse.echoes_skip sequel _ 1 _ _ (fun cursor value rest ended => ?_) fun cursor ends => ?_
  · rw [Parse.cursor_then]
    cases found : standard.statements.find? fun form => form.applies cursor with
    | none => exact echoes.blank 0 cursor value rest ended
    | some form =>
      have applies := List.find?_some found
      have inside := StatementForm.standard_inside form (List.mem_of_find?_eq_some found) cursor applies
      rw [ended] at inside
      cases inside
  · have same : (standard.statements.find? fun form => form.applies (sequel.cursor cursor)) =
        standard.statements.find? fun form => form.applies cursor :=
      List.find?_congr fun form member => StatementForm.standard_same sequel form member cursor ends
    rw [Parse.cursor_then, Parse.cursor_then, same]
    cases found : standard.statements.find? fun form => form.applies cursor with
    | none => exact echoes.expression 0 cursor ends
    | some form =>
      have member := List.mem_of_find?_eq_some found
      have applies := List.find?_some found
      have inside := StatementForm.standard_inside form member cursor applies
      simp only [standard, StatementForm.standard, List.mem_cons, List.not_mem_nil, or_false] at member
      rcases member with rfl | rfl | rfl | rfl | rfl
      · exact StatementForm.function_echoes sequel reader other echoes cursor ends inside
      · exact StatementForm.return_echoes sequel reader other echoes cursor ends inside
      · exact StatementForm.branch_echoes sequel reader other echoes cursor ends inside
      · exact StatementForm.loop_echoes sequel reader other echoes cursor ends inside
      · exact StatementForm.block_echoes sequel reader other echoes cursor ends inside

end Grammar
end Reading

theorem Reader.of_fuel_echoes (sequel : Sequel) (fuel more : Nat) (fewer : fuel ≤ more)
    (same : sequel.exact → fuel = more) :
    (Reader.ofFuel Grammar.standard fuel).Echoes sequel (Reader.ofFuel Grammar.standard more) := by
  induction fuel generalizing more with
  | zero =>
    rw [← Reader.of_fuel_fuel Grammar.standard more] at fewer same
    refine ⟨fewer, same, fun cursor _ exact => ?_, fun minimum cursor _ exact => ?_, fun minimum cursor _ _ _ => nofun⟩
    all_goals
      rw [Reader.of_fuel_fuel] at same
      rw [← same exact]
      rfl
  | succ fuel ih =>
    obtain ⟨more, rfl⟩ := Nat.exists_eq_add_of_le' (Nat.lt_of_lt_of_le (Nat.succ_pos fuel) fewer)
    have smaller := ih more (by omega) (fun exact => by have := same exact; omega)
    exact ⟨fewer, same, Grammar.statement_echoes sequel _ _ smaller, Grammar.expression_echoes sequel _ _ smaller,
      Grammar.expression_blank _⟩

end CoopScript
