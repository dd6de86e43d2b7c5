import CoopScript.Grammar.Form
import CoopScript.Machine.Call
import CoopScript.Source.Lexer

set_option autoImplicit false
namespace CoopScript

structure StatementRule extends StatementForm where
  run : Engine → Node → FrameId → Exec (Option Value)

-- `runs` are the names of the expressions that the rule evaluates.
structure ExpressionRule extends ExpressionForm where
  runs : List String
  run? : Option (Engine → Node → FrameId → Exec Value)

structure RuleSet where
  lexRules : List LexRule
  statements : List StatementRule
  expressions : List ExpressionRule

namespace RuleSet

def registerLexRule (rules : RuleSet) (rule : LexRule) : RuleSet :=
  { rules with lexRules := rule :: rules.lexRules }

def registerStatement (rules : RuleSet) (rule : StatementRule) : RuleSet :=
  { rules with statements := rule :: rules.statements }

def registerExpression (rules : RuleSet) (rule : ExpressionRule) : RuleSet :=
  { rules with expressions := rule :: rules.expressions }

def grammar (rules : RuleSet) : Grammar :=
  { statements := rules.statements.map StatementRule.toStatementForm
    expressions := rules.expressions.map ExpressionRule.toExpressionForm }

-- The program that a source spells; no answer when a form reads on without taking a token.
def parse (rules : RuleSet) (source : String) (file : Option String) :
    Option (Except Diagnostic (List Node)) :=
  match tokenize rules.lexRules source file with
  | .error diagnostic => some (.error diagnostic)
  | .ok tokens =>
    match rules.grammar.parse tokens with
    | .ok nodes _ => some (.ok nodes)
    | .failed diagnostic => some (.error diagnostic)
    | .stalled => none

def load (rules : RuleSet) (source : String) (file : Option String) : Exec (List Node) :=
  match rules.parse source file with
  | some (.ok nodes) => pure nodes
  | some (.error diagnostic) => Exec.raise (.fault diagnostic)
  | none => Exec.exhausted

def statementRun? (rules : RuleSet) (keyword : String) :
    Option (Engine → Node → FrameId → Exec (Option Value)) :=
  (rules.statements.find? fun rule => rule.name = keyword).map StatementRule.run

def expressionRun? (rules : RuleSet) (name : String) :
    Option (Engine → Node → FrameId → Exec Value) :=
  (rules.expressions.filter fun rule => rule.runs.contains name).findSome? ExpressionRule.run?

-- The value of a node. Whatever fails on the way gets the node's place, if it has none yet.
def evaluate (rules : RuleSet) (engine : Engine) (node : Node) (frame : FrameId) : Exec Value :=
  match node.head with
  | .number value => Exec.number value
  | .text value => Exec.text value
  | .void => Exec.void
  | .reference name position =>
    (Exec.lookUp frame name).mapFailure (·.orPosition (some position))
  | .expression name position =>
    match rules.expressionRun? name with
    | some run => (run engine node frame).mapFailure (·.orPosition (some position))
    | none => Exec.failAt (.noExpressionRule name) position
  | .statement keyword position => Exec.failAt (.statementAsValue keyword) position

def execute (rules : RuleSet) (engine : Engine) (node : Node) (frame : FrameId) :
    Exec (Option Value) :=
  match node.head with
  | .statement keyword position =>
    match rules.statementRun? keyword with
    | some run => run engine node frame
    | none => Exec.failAt (.noStatementRule keyword) position
  | _ => some <$> rules.evaluate engine node frame

end RuleSet

def Exec.unexpectedShape {α : Type} (node : Node) : Exec α :=
  Exec.fail (.unexpectedShape node.label)

end CoopScript
