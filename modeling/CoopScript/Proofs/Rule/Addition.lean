import CoopScript.Proofs.Grammar.Climb
import CoopScript.Proofs.Trait.Host

/-!
Rules that are put in front of others and never come into play. What a reading visits and what an evaluation asks for is told
by the rules that were there before; where none of the new ones would be taken, everything is as it was.
-/
set_option autoImplicit false
namespace CoopScript

inductive Addition where
  | statement (rule : StatementRule)
  | expression (rule : ExpressionRule)

-- What a grammar is looked up for: the next line of a program, a statement, an expression that binds more tightly than the
-- minimum, and what such an expression goes on with to the right of what has been read of it.
inductive Place where
  | line
  | statement
  | expression (minimum : Nat)
  | further (minimum : Nat) (left : Node)

-- What rules ask an engine for.
inductive Inquiry where
  | parse (source : String)
  | evaluate (node : Node) (frame : FrameId)
  | execute (node : Node) (frame : FrameId)
  | native (code : Native Value) (invocation : Invocation)
  | perform (action : Action)
  | body (lines : List Node) (frame : FrameId)

namespace Inquiry

def Result : Inquiry → Type
  | parse _ => List Node
  | evaluate .. => Value
  | execute .. => Option Value
  | native .. => Value
  | perform _ => Answer
  | body .. => Option Value

end Inquiry

namespace Grammar

-- What reads on in a place: the first form of those that are looked at there that applies.
def chosen? (grammar : Grammar) : Place → Cursor → Option (Reader → Parse Node)
  | .line, _ => none
  | .statement, cursor =>
    (grammar.statements.find? fun form => form.applies cursor.skipSeparators).map StatementForm.parse
  | .expression _, cursor =>
    (starting? cursor grammar.expressions).map fun found reader => found.2 reader found.1
  | .further minimum left, cursor =>
    (extending? minimum cursor grammar.expressions).map fun found reader => found.2 reader left found.1

section Chosen
variable (grammar : Grammar) (reader : Reader) (cursor : Cursor)

theorem statement_chosen : grammar.statement reader cursor =
    ((grammar.chosen? .statement cursor).elim (reader.expression 0) fun step => step reader) cursor.skipSeparators := by
  unfold statement
  rw [Parse.bind_ok _ _ cursor cursor.skipSeparators () rfl, Parse.cursor_then]
  simp only [chosen?]
  cases grammar.statements.find? fun form => form.applies cursor.skipSeparators <;> rfl

theorem expression_chosen (minimum : Nat) : grammar.expression reader minimum cursor =
    ((grammar.chosen? (.expression minimum) cursor).elim (Parse.unexpected "expression") fun step =>
      step reader >>= Parse.iterate (grammar.extension reader minimum) reader.fuel) cursor := by
  unfold expression
  rw [Parse.cursor_then]
  simp only [chosen?]
  cases starting? cursor grammar.expressions <;> rfl

theorem extension_chosen (minimum : Nat) (left : Node) : grammar.extension reader minimum left cursor =
    ((grammar.chosen? (.further minimum left) cursor).elim (pure (.inr left)) fun step =>
      step reader >>= fun next => pure (.inl next)) cursor := by
  unfold extension
  rw [Parse.cursor_then]
  simp only [chosen?]
  cases extending? minimum cursor grammar.expressions <;> rfl

end Chosen
end Grammar

namespace Addition

def register (rules : RuleSet) : Addition → RuleSet
  | statement rule => rules.registerStatement rule
  | expression rule => rules.registerExpression rule

-- The rule is one of those that are looked at in this place, and it applies.
def Takes : Addition → Place → Cursor → Prop
  | statement rule, .statement, cursor => rule.applies cursor.skipSeparators = true
  | expression rule, .expression _, cursor => rule.start?.isSome = true ∧ rule.applies cursor = true
  | expression rule, .further minimum _, cursor =>
    rule.extend?.isSome = true ∧ minimum < rule.precedence ∧ rule.applies cursor = true
  | _, _, _ => False

def Runs : Addition → Head → Prop
  | statement rule, .statement keyword _ => rule.name = keyword
  | expression rule, .expression name _ => name ∈ rule.runs ∧ rule.run?.isSome = true
  | _, _ => False

section Registered
variable (rules : RuleSet) (addition : Addition)

theorem chosen_registered (place : Place) (cursor : Cursor) (refused : ¬ addition.Takes place cursor) :
    (addition.register rules).grammar.chosen? place cursor = rules.grammar.chosen? place cursor := by
  cases addition with
  | statement rule =>
    cases place with
    | statement => exact congrArg (Option.map StatementForm.parse) (List.find?_cons_of_neg refused)
    | _ => rfl
  | expression rule =>
    cases place with
    | line | statement => rfl
    | expression minimum =>
      refine congrArg (Option.map _) ?_
      show Grammar.starting? cursor (rule.toExpressionForm :: rules.grammar.expressions) = _
      rw [Grammar.starting?]
      cases starts : rule.start? with
      | none => rfl
      | some start => exact if_neg fun applies => refused ⟨by rw [starts]; rfl, applies⟩
    | further minimum left =>
      refine congrArg (Option.map _) ?_
      show Grammar.extending? minimum cursor (rule.toExpressionForm :: rules.grammar.expressions) = _
      rw [Grammar.extending?]
      cases extends_ : rule.extend? with
      | none => rfl
      | some extend =>
        refine if_neg fun taken => refused ?_
        simp only [Bool.and_eq_true, decide_eq_true_eq] at taken
        exact ⟨by rw [extends_]; rfl, taken⟩

theorem statement_run_registered (keyword : String) (position : Position)
    (refused : ¬ addition.Runs (.statement keyword position)) :
    (addition.register rules).statementRun? keyword = rules.statementRun? keyword := by
  cases addition with
  | statement rule =>
    have other : rule.name ≠ keyword := refused
    exact congrArg (Option.map StatementRule.run) (List.find?_cons_of_neg (by simpa using other))
  | expression rule => rfl

theorem expression_run_registered (name : String) (position : Position)
    (refused : ¬ addition.Runs (.expression name position)) :
    (addition.register rules).expressionRun? name = rules.expressionRun? name := by
  cases addition with
  | statement rule => rfl
  | expression rule =>
    show ((rule :: rules.expressions).filter fun rule => rule.runs.contains name).findSome? ExpressionRule.run? = _
    by_cases listed : name ∈ rule.runs
    · have idle : rule.run? = none := Option.not_isSome_iff_eq_none.mp fun runs => refused ⟨listed, runs⟩
      rw [List.filter_cons_of_pos (by simpa using listed), List.findSome?_cons_of_isNone (by rw [idle]; rfl)]
      rfl
    · rw [List.filter_cons_of_neg (by simpa using listed)]
      rfl

end Registered
end Addition

namespace RuleSet

-- The rules with others in front of them, which are registered one after the other.
def extendedBy (rules : RuleSet) (added : List Addition) : RuleSet := added.foldl Addition.register rules

section Tables
variable (rules : RuleSet) (added : List Addition)

-- What none of the added rules changes is as it was.
theorem view_extended {β : Type} (view : RuleSet → β)
    (passes : ∀ addition ∈ added, ∀ more, view (addition.register more) = view more) :
    view (rules.extendedBy added) = view rules :=
  List.foldlRecOn (motive := fun more => view more = view rules) added Addition.register rfl
    fun more same addition member => (passes addition member more).trans same

theorem extended_rules : (rules.extendedBy added).lexRules = rules.lexRules :=
  rules.view_extended added RuleSet.lexRules fun addition _ _ => by cases addition <;> rfl

theorem chosen_extended (place : Place) (cursor : Cursor) (none : ∀ addition ∈ added, ¬ addition.Takes place cursor) :
    (rules.extendedBy added).grammar.chosen? place cursor = rules.grammar.chosen? place cursor :=
  rules.view_extended added (fun more => more.grammar.chosen? place cursor) fun addition member more =>
    addition.chosen_registered more place cursor (none addition member)

theorem statement_run_extended (keyword : String) (position : Position)
    (none : ∀ addition ∈ added, ¬ addition.Runs (.statement keyword position)) :
    (rules.extendedBy added).statementRun? keyword = rules.statementRun? keyword :=
  rules.view_extended added (fun more => more.statementRun? keyword) fun addition member more =>
    addition.statement_run_registered more keyword position (none addition member)

theorem expression_run_extended (name : String) (position : Position)
    (none : ∀ addition ∈ added, ¬ addition.Runs (.expression name position)) :
    (rules.extendedBy added).expressionRun? name = rules.expressionRun? name :=
  rules.view_extended added (fun more => more.expressionRun? name) fun addition member more =>
    addition.expression_run_registered more name position (none addition member)

end Tables

end RuleSet

-- The other reader has the same allowance of steps, and it reads alike wherever it is needed.
structure Reader.Alike (needed : Place → Cursor → Prop) (reader other : Reader) : Prop where
  fuel : other.fuel = reader.fuel
  statement : ∀ cursor, needed .statement cursor → other.statement cursor = reader.statement cursor
  expression : ∀ minimum cursor, needed (.expression minimum) cursor →
    other.expression minimum cursor = reader.expression minimum cursor

-- Where the form that is chosen in a place begins to read.
def Place.start : Place → Cursor → Cursor
  | .statement, cursor => cursor.skipSeparators
  | _, cursor => cursor

namespace Grammar

-- Of what reads on from a cursor, no more is needed than is visited.
def Needs (grammar : Grammar) (visited : Nat → Place → Cursor → Prop) (fuel : Nat) (step : Reader → Parse Node)
    (cursor : Cursor) : Prop :=
  ∀ reader, (Reader.ofFuel grammar fuel).Alike (visited fuel) reader →
    step reader cursor = step (Reader.ofFuel grammar fuel) cursor

/-- The places in which a grammar looks for a form, with some steps left: what is needed by the form that is chosen is
visited, and where it has ended the grammar goes on. -/
structure Visits (grammar : Grammar) (visited : Nat → Place → Cursor → Prop) : Prop where
  line : ∀ fuel cursor, visited fuel .line cursor → cursor.atEnd = false → visited fuel .statement cursor ∧
    ∀ node rest, (Reader.ofFuel grammar fuel).statement cursor = .ok node rest → visited fuel .line rest.skipSeparators
  plain : ∀ fuel cursor, visited (fuel + 1) .statement cursor → grammar.chosen? .statement cursor = none →
    visited fuel (.expression 0) cursor.skipSeparators
  chosen : ∀ fuel place cursor step, visited (fuel + 1) place cursor → grammar.chosen? place cursor = some step →
    grammar.Needs visited fuel step (place.start cursor)
  begun : ∀ fuel minimum cursor step left rest, visited (fuel + 1) (.expression minimum) cursor →
    grammar.chosen? (.expression minimum) cursor = some step → step (Reader.ofFuel grammar fuel) cursor = .ok left rest →
      visited (fuel + 1) (.further minimum left) rest
  further : ∀ fuel minimum left cursor step next rest, visited (fuel + 1) (.further minimum left) cursor →
    grammar.chosen? (.further minimum left) cursor = some step → step (Reader.ofFuel grammar fuel) cursor = .ok next rest →
      visited (fuel + 1) (.further minimum next) rest

end Grammar

namespace RuleSet
variable (rules : RuleSet) (added : List Addition)

-- None of the added rules would be taken in any place that is visited when a source is read.
def Overlooks (source : String) (file : Option String) : Prop :=
  ∀ tokens cursor, tokenize rules.lexRules source file = .ok tokens → Cursor.ofTokens? tokens = some cursor →
    ∃ visited, rules.grammar.Visits visited ∧ visited (Grammar.allowance tokens) .line cursor.skipSeparators ∧
      ∀ fuel place cursor, visited fuel place cursor → ∀ addition ∈ added, ¬ addition.Takes place cursor

section Visited
variable (visited : Nat → Place → Cursor → Prop) (visits : rules.grammar.Visits visited)
  (none : ∀ fuel place cursor, visited fuel place cursor → ∀ addition ∈ added, ¬ addition.Takes place cursor)
include visits none

theorem further_alike (fuel minimum rounds : Nat) (left : Node) (cursor : Cursor)
    (alike : (Reader.ofFuel rules.grammar fuel).Alike (visited fuel) (Reader.ofFuel (rules.extendedBy added).grammar fuel))
    (here : visited (fuel + 1) (.further minimum left) cursor) :
    Parse.iterate ((rules.extendedBy added).grammar.extension (Reader.ofFuel (rules.extendedBy added).grammar fuel) minimum)
        rounds left cursor =
      Parse.iterate (rules.grammar.extension (Reader.ofFuel rules.grammar fuel) minimum) rounds left cursor := by
  induction rounds generalizing left cursor with
  | zero => rfl
  | succ rounds ih =>
    simp only [Parse.iterate, Grammar.extension_chosen, rules.chosen_extended added _ cursor (none _ _ cursor here)]
    cases chosen : rules.grammar.chosen? (.further minimum left) cursor with
    | none => rfl
    | some step =>
      have same : step _ cursor = step (Reader.ofFuel rules.grammar fuel) cursor :=
        visits.chosen fuel _ cursor step here chosen _ alike
      simp only [Option.elim, Bind.bind, Parse.bind, same]
      cases read : step (Reader.ofFuel rules.grammar fuel) cursor with
      | failed | stalled => rfl
      | ok next rest => exact ih next rest (visits.further fuel minimum left cursor step next rest here chosen read)

theorem readers_alike (fuel : Nat) :
    (Reader.ofFuel rules.grammar fuel).Alike (visited fuel) (Reader.ofFuel (rules.extendedBy added).grammar fuel) := by
  induction fuel with
  | zero => exact ⟨rfl, fun _ _ => rfl, fun _ _ _ => rfl⟩
  | succ fuel ih =>
    refine ⟨rfl, fun cursor here => ?_, fun minimum cursor here => ?_⟩
    · show (rules.extendedBy added).grammar.statement _ cursor = rules.grammar.statement _ cursor
      rw [Grammar.statement_chosen, Grammar.statement_chosen, rules.chosen_extended added _ cursor (none _ _ cursor here)]
      cases chosen : rules.grammar.chosen? .statement cursor with
      | none => exact ih.expression 0 _ (visits.plain fuel cursor here chosen)
      | some step => exact visits.chosen fuel .statement cursor step here chosen _ ih
    · show (rules.extendedBy added).grammar.expression _ minimum cursor = rules.grammar.expression _ minimum cursor
      rw [Grammar.expression_chosen, Grammar.expression_chosen, rules.chosen_extended added _ cursor (none _ _ cursor here)]
      cases chosen : rules.grammar.chosen? (.expression minimum) cursor with
      | none => rfl
      | some step =>
        have same : step _ cursor = step (Reader.ofFuel rules.grammar fuel) cursor :=
          visits.chosen fuel _ cursor step here chosen _ ih
        simp only [Option.elim, Bind.bind, Parse.bind, same, ih.fuel]
        cases read : step (Reader.ofFuel rules.grammar fuel) cursor with
        | failed | stalled => rfl
        | ok left rest =>
          have later := visits.begun fuel minimum cursor step left rest here chosen read
          exact rules.further_alike added visited visits none fuel minimum _ left rest ih later

theorem lines_alike (fuel rounds : Nat) (lines : List Node) (cursor : Cursor) (here : visited fuel .line cursor) :
    Parse.iterate (Reader.ofFuel (rules.extendedBy added).grammar fuel).programStep rounds lines cursor =
      Parse.iterate (Reader.ofFuel rules.grammar fuel).programStep rounds lines cursor := by
  have alike := rules.readers_alike added visited visits none fuel
  induction rounds generalizing lines cursor with
  | zero => rfl
  | succ rounds ih =>
    cases ended : cursor.atEnd with
    | true => simp only [Parse.iterate, Reader.program_step_ended _ lines cursor ended]
    | false =>
      obtain ⟨asked, later⟩ := visits.line fuel cursor here ended
      simp only [Parse.iterate, Reader.program_step_inside _ lines cursor ended,
        alike.statement cursor asked]
      cases read : (Reader.ofFuel rules.grammar fuel).statement cursor with
      | failed | stalled => rfl
      | ok node rest => exact ih (node :: lines) rest.skipSeparators (later node rest read)

theorem grammar_alike (tokens : List Token) (cursor : Cursor) (starts : Cursor.ofTokens? tokens = some cursor)
    (here : visited (Grammar.allowance tokens) .line cursor.skipSeparators) :
    (rules.extendedBy added).grammar.parse tokens = rules.grammar.parse tokens := by
  unfold Grammar.parse
  rw [starts]
  have lines := rules.lines_alike added visited visits none _ (Grammar.allowance tokens) [] _ here
  simp only [Reader.program_rounds, Reader.of_fuel_fuel]
  exact lines

end Visited

theorem parse_overlooked (source : String) (file : Option String) (overlooks : rules.Overlooks added source file) :
    (rules.extendedBy added).parse source file = rules.parse source file := by
  unfold parse
  rw [rules.extended_rules added]
  cases read : tokenize rules.lexRules source file with
  | error diagnostic => rfl
  | ok tokens =>
    cases starts : Cursor.ofTokens? tokens with
    | none => simp only [Grammar.parse, starts]
    | some cursor =>
      obtain ⟨visited, visits, here, none⟩ := overlooks tokens cursor read starts
      simp only [rules.grammar_alike added visited visits none tokens cursor starts here]

end RuleSet

namespace Engine

def answer (engine : Engine) : (inquiry : Inquiry) → Exec inquiry.Result
  | .parse source => engine.parse source
  | .evaluate node frame => engine.evaluate node frame
  | .execute node frame => engine.execute node frame
  | .native code invocation => engine.native code invocation
  | .perform action => engine.perform action
  | .body lines frame => engine.body lines frame

-- The other engine has the same fuel, and it answers alike whatever is asked.
structure Alike (asked : Inquiry → Machine → Prop) (engine other : Engine) : Prop where
  fuel : other.fuel = engine.fuel
  answer : ∀ inquiry machine, asked inquiry machine → other.answer inquiry machine = engine.answer inquiry machine

end Engine

namespace RuleSet
variable (rules : RuleSet) (added : List Addition)

def answer (rules : RuleSet) (engine : Engine) : (inquiry : Inquiry) → Exec inquiry.Result
  | .parse source => rules.load source none
  | .evaluate node frame => rules.evaluate engine node frame
  | .execute node frame => rules.execute engine node frame
  | .native code invocation => engine.runNative code invocation
  | .perform action => engine.performAction action
  | .body lines frame => engine.runBody lines frame

-- Of what is done with the help of an engine, no more is needed than is asked.
def Needs {α : Type} (rules : RuleSet) (asked : Nat → Inquiry → Machine → Prop) (fuel : Nat) (step : Engine → Exec α)
    (machine : Machine) : Prop :=
  ∀ engine, (rules.engine fuel).Alike (asked fuel) engine → step engine machine = step (rules.engine fuel) machine

-- What is asked for by the answers to what has been asked is asked as well, with less fuel.
def Asks (rules : RuleSet) (asked : Nat → Inquiry → Machine → Prop) : Prop :=
  ∀ fuel inquiry machine, asked (fuel + 1) inquiry machine →
    rules.Needs asked fuel (fun engine => rules.answer engine inquiry) machine

-- None of the added rules has anything to do with an inquiry: it would not be taken by what is to be parsed, and it
-- does not run what is to be run.
def Passes : Inquiry → Prop
  | .parse source => rules.Overlooks added source none
  | .evaluate node _ => ∀ name position, node.head = .expression name position →
    ∀ addition ∈ added, ¬ addition.Runs (.expression name position)
  | .execute node _ => ∀ addition ∈ added, ¬ addition.Runs node.head
  | .native .. | .perform _ | .body .. => True

theorem engine_fuel (fuel : Nat) : (rules.engine fuel).fuel = fuel := by cases fuel <;> rfl

theorem engine_answer (fuel : Nat) (inquiry : Inquiry) :
    (rules.engine (fuel + 1)).answer inquiry = rules.answer (rules.engine fuel) inquiry := by
  cases inquiry <;> rfl

theorem load_overlooked (source : String) (file : Option String) (overlooks : rules.Overlooks added source file) :
    (rules.extendedBy added).load source file = rules.load source file := by
  unfold load
  rw [rules.parse_overlooked added source file overlooks]

theorem evaluate_passed (engine : Engine) (node : Node) (frame : FrameId)
    (none : ∀ name position, node.head = .expression name position →
      ∀ addition ∈ added, ¬ addition.Runs (.expression name position)) :
    (rules.extendedBy added).evaluate engine node frame = rules.evaluate engine node frame := by
  unfold evaluate
  cases head : node.head with
  | expression name position => simp only [rules.expression_run_extended added name position (none name position head)]
  | _ => rfl

theorem execute_passed (engine : Engine) (node : Node) (frame : FrameId)
    (none : ∀ addition ∈ added, ¬ addition.Runs node.head) :
    (rules.extendedBy added).execute engine node frame = rules.execute engine node frame := by
  have evaluated := rules.evaluate_passed added engine node frame fun name position head => head ▸ none
  unfold execute
  cases head : node.head with
  | statement keyword position => simp only [rules.statement_run_extended added keyword position (head ▸ none)]
  | _ => exact congrArg (some <$> ·) evaluated

theorem answer_passed (engine : Engine) (inquiry : Inquiry) (passes : rules.Passes added inquiry) :
    (rules.extendedBy added).answer engine inquiry = rules.answer engine inquiry := by
  cases inquiry with
  | parse source => exact rules.load_overlooked added source none passes
  | evaluate node frame => exact rules.evaluate_passed added engine node frame passes
  | execute node frame => exact rules.execute_passed added engine node frame passes
  | native | perform | body => rfl

section Asked
variable (asked : Nat → Inquiry → Machine → Prop) (asks : rules.Asks asked)
  (passes : ∀ fuel inquiry machine, asked fuel inquiry machine → rules.Passes added inquiry)
include asks passes

theorem engines_alike (fuel : Nat) : (rules.engine fuel).Alike (asked fuel) ((rules.extendedBy added).engine fuel) := by
  induction fuel with
  | zero => exact ⟨rfl, fun _ _ _ => rfl⟩
  | succ fuel ih =>
    refine ⟨(engine_fuel _ _).trans (engine_fuel _ _).symm, fun inquiry machine here => ?_⟩
    rw [engine_answer, engine_answer, rules.answer_passed added _ inquiry (passes _ inquiry machine here)]
    exact asks fuel inquiry machine here _ ih

end Asked

end RuleSet

-- The text of a script and the name of the file that it comes from, if it is there.
def Script.source? : Script → Option (String × Option String)
  | text source => some (source, none)
  | file name content => content.map fun source => (source, some name)

/-- What keeps a script from the added rules: none of them would be taken where it is read, and when it is evaluated none
of them has anything to do with what is asked, whoever asks. -/
structure RuleSet.Bypasses (rules : RuleSet) (added : List Addition) (script : Script) (fuel : Nat) (machine : Machine) : Prop where
  reads : ∀ source file, script.source? = some (source, file) → rules.Overlooks added source file
  evaluates : ∀ source file lines, script.source? = some (source, file) → rules.parse source file = some (.ok lines) →
    ∃ asked, rules.Asks asked ∧ rules.Needs asked fuel (fun engine => engine.evalProgram lines) machine ∧
      ∀ fuel inquiry machine, asked fuel inquiry machine → rules.Passes added inquiry

namespace RuleSet
variable (rules : RuleSet) (added : List Addition)

theorem loaded_alike (source : String) (file : Option String) (fuel : Nat) (machine : Machine)
    (evaluates : ∀ lines, rules.parse source file = some (.ok lines) → ((rules.extendedBy added).engine fuel).evalProgram lines
      machine = (rules.engine fuel).evalProgram lines machine) :
    (do ((rules.extendedBy added).engine fuel).evalProgram (← rules.load source file) : Exec Value) machine =
      (do (rules.engine fuel).evalProgram (← rules.load source file) : Exec Value) machine := by
  simp only [Bind.bind, Exec.bind, load]
  cases parsed : rules.parse source file with
  | none => rfl
  | some ended =>
    cases ended with
    | error diagnostic => rfl
    | ok lines => exact evaluates lines parsed

end RuleSet

end CoopScript
