import CoopScript.Number.Shortest

set_option autoImplicit false
namespace CoopScript

inductive Kind where
  | lexer
  | parser
  | binding
  | type
  | runtime
deriving DecidableEq

def Kind.label : Kind → String
  | .lexer => "LexError"
  | .parser => "ParseError"
  | .binding => "BindingError"
  | .type => "TypeError"
  | .runtime => "RuntimeError"

inductive Cause where
  | unexpectedCharacter (c : Char)
  | unterminatedComment
  | unterminatedText
  | expected (what found : String)
  | unmatched (bracket : String)
  | duplicateParameter (parameter function : String)
  | invalidNumber (text : String)
  | notAnOperator (text : String)
  | notAssignable (what : String)
  | unknownVariable (name : String)
  | unknownArgument (name function : String)
  | repeatedArgument (name function : String)
  | positionalAfterKeyword (function : String)
  | tooManyArguments (function : String) (count : Nat)
  | indexNotNumber (className : String)
  | notIndexable (className : String)
  | missingMember (className member : String)
  | notNegatable (className : String)
  | unsupportedOperands (operator left right : String)
  | badText (className result : String)
  | badTruth (className result : String)
  | badDuration
  | outOfBounds (position : Float) (length : Nat)
  | unexpectedShape (name : String)
  | noStatementRule (keyword : String)
  | noExpressionRule (name : String)
  | statementAsValue (keyword : String)
  | notCallable (className : String)
  | noCallHook (className : String)
  | noBody
  | returnOutside
  | staleFrame (index : Nat)
  | settledTwice (task : Nat)
  | unknownTask (task : Nat)
  | alreadyAwaited (task : Nat)
  | interrupted
  | neverSettled
  | depthExceeded (limit : Nat) (function : String)
  | jobPanicked (task : Nat)
  | classTaken (name : String)
  | unknownAncestor (name : String) (index : Nat)
  | raised (kind : Kind) (message : String)

namespace Cause

def kind : Cause → Kind
  | unexpectedCharacter _ | unterminatedComment | unterminatedText => .lexer
  | expected .. | unmatched _ | duplicateParameter .. | invalidNumber _ | notAnOperator _
  | notAssignable _ => .parser
  | unknownVariable _ | unknownArgument .. | repeatedArgument .. | positionalAfterKeyword _
  | tooManyArguments .. => .binding
  | indexNotNumber _ | notIndexable _ | missingMember .. | notNegatable _ | unsupportedOperands ..
  | badText .. | badTruth .. | badDuration => .type
  | outOfBounds .. | unexpectedShape _ | noStatementRule _ | noExpressionRule _
  | statementAsValue _ | notCallable _ | noCallHook _ | noBody | returnOutside | staleFrame _
  | settledTwice _ | unknownTask _ | alreadyAwaited _ | interrupted | neverSettled
  | depthExceeded .. | jobPanicked _ | classTaken _ | unknownAncestor .. => .runtime
  | raised kind _ => kind

def ticked (text : String) : String := "`" ++ text ++ "`"

def message : Cause → String
  | unexpectedCharacter c => "unexpected character " ++ ticked (String.singleton c)
  | unterminatedComment => "unterminated block comment"
  | unterminatedText => "unterminated string literal"
  | expected what found => "expected " ++ what ++ ", found " ++ found
  | unmatched bracket => "unmatched " ++ ticked bracket
  | duplicateParameter parameter function =>
    "duplicate parameter " ++ ticked parameter ++ " in " ++ ticked function
  | invalidNumber text => "invalid number literal " ++ ticked text
  | notAnOperator text => ticked text ++ " is not a binary operator"
  | notAssignable what => "cannot assign to " ++ what
  | unknownVariable name => "unknown variable " ++ ticked name
  | unknownArgument name function => "unknown argument " ++ ticked name ++ " for " ++ ticked function
  | repeatedArgument name function =>
    "overriding argument " ++ ticked name ++ " for " ++ ticked function
  | positionalAfterKeyword function => "argument after keyword in call to " ++ ticked function
  | tooManyArguments function count =>
    "too many arguments: " ++ ticked function ++ " takes " ++ toString count
  | indexNotNumber className => "index must be a number, not " ++ ticked className
  | notIndexable className => "value of class " ++ ticked className ++ " cannot be indexed"
  | missingMember className member =>
    "value of class " ++ ticked className ++ " has no member " ++ ticked member
  | notNegatable className => "cannot negate a value of class " ++ ticked className
  | unsupportedOperands operator left right =>
    "unsupported operand classes for " ++ ticked operator ++ ": " ++ ticked left ++ " and " ++
      ticked right
  | badText className result =>
    ticked "__str__" ++ " of " ++ ticked className ++ " returned " ++ ticked result ++
      ", not a string"
  | badTruth className result =>
    ticked "__bool__" ++ " of " ++ ticked className ++ " returned " ++ ticked result ++
      ", not a boolean"
  | badDuration => ticked "sleep" ++ " expects a non-negative number of milliseconds"
  | outOfBounds position length =>
    "index " ++ Number.shortestText position ++ " out of bounds for length " ++ toString length
  | unexpectedShape name => ticked name ++ " node has an unexpected shape"
  | noStatementRule keyword => "no rule runs " ++ ticked keyword ++ " statements"
  | noExpressionRule name => "no rule runs " ++ ticked name ++ " expressions"
  | statementAsValue keyword => ticked keyword ++ " statement used as a value"
  | notCallable className => "value of class " ++ ticked className ++ " is not callable"
  | noCallHook className => "value of class " ++ ticked className ++ " has no call hook"
  | noBody => "function instance carries no body"
  | returnOutside => ticked "return" ++ " outside of a function"
  | staleFrame index => "context #" ++ toString index ++ " is no longer live"
  | settledTwice task => "task #" ++ toString task ++ " settled twice"
  | unknownTask task => "unknown task #" ++ toString task
  | alreadyAwaited task => "promise #" ++ toString task ++ " was already awaited"
  | interrupted => "interrupted while awaiting a promise"
  | neverSettled => "awaited promise never settled"
  | depthExceeded limit function =>
    "maximum call depth of " ++ toString limit ++ " exceeded in " ++ ticked function
  | jobPanicked task => "background job for task #" ++ toString task ++ " panicked"
  | classTaken name => "class " ++ ticked name ++ " is already registered"
  | unknownAncestor name index =>
    "class " ++ ticked name ++ " inherits from unknown class #" ++ toString index
  | raised _ message => message

end Cause
end CoopScript
