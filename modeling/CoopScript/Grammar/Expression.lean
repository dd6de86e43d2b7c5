import CoopScript.Grammar.Form
import CoopScript.Number.Numeral
import CoopScript.Source.Literal

set_option autoImplicit false
namespace CoopScript

namespace Precedence

def either : Nat := 4
def both : Nat := 5
def equality : Nat := 10
def comparison : Nat := 15
def term : Nat := 20
def factor : Nat := 30
def unary : Nat := 40
def postfixed : Nat := 1000
def assignment : Nat := 100000

end Precedence

namespace ExpressionForm

def starting (name : String) (precedence : Nat) (applies : Cursor → Bool)
    (start : Reader → Nat → Parse Node) : ExpressionForm :=
  ⟨name, precedence, applies, some start, none⟩

def extending (name : String) (precedence : Nat) (applies : Cursor → Bool)
    (extend : Reader → Node → Nat → Parse Node) : ExpressionForm :=
  ⟨name, precedence, applies, none, some extend⟩

def readText (_ : Reader) (_ : Nat) : Parse Node := do
  return .text (Literal.unescape (← Parse.take).text)

def readNumber (_ : Reader) (_ : Nat) : Parse Node := do
  let token ← Parse.take
  match Number.read? token.text with
  | some value => return .number value
  | none => Parse.fail (.located (.invalidNumber token.text) token.position)

def readAwait (reader : Reader) (precedence : Nat) : Parse Node := do
  let position := (← Parse.take).position
  return .await "await" position (← reader.expression precedence)

def readReference (_ : Reader) (_ : Nat) : Parse Node := do
  let token ← Parse.take
  return .reference token.text token.position

def readGroup (reader : Reader) (_ : Nat) : Parse Node := do
  let opening ← Parse.take
  let inner ← reader.expression 0
  let _ ← Parse.expectClosing opening ")"
  return .group "group" opening.position inner

def readCall (reader : Reader) (callee : Node) (_ : Nat) : Parse Node := do
  let opening ← Parse.take
  return .call "call" opening.position callee (← reader.list opening ")")

def readArray (reader : Reader) (_ : Nat) : Parse Node := do
  let opening ← Parse.take
  return .array "array" opening.position (← reader.list opening "]")

def readIndex (reader : Reader) (object : Node) (_ : Nat) : Parse Node := do
  let opening ← Parse.take
  let place ← reader.expression 0
  let _ ← Parse.expectClosing opening "]"
  return .index "index" opening.position object place

def readAccess (_ : Reader) (object : Node) (_ : Nat) : Parse Node := do
  let position := (← Parse.take).position
  let member ← Parse.expectName "member name"
  return .access "access" position object member.text

def readUnary (reader : Reader) (precedence : Nat) : Parse Node := do
  let token ← Parse.take
  let op := if token.text = "-" then .negate else .not
  return .unary "unary" token.position op (← reader.expression precedence)

-- The right operand takes only what binds more tightly, so equal operators group to the left.
def readBinary (reader : Reader) (left : Node) (precedence : Nat) : Parse Node := do
  let token ← Parse.take
  match BinaryOp.ofSymbol? token.text with
  | none => Parse.fail (.located (.notAnOperator token.text) token.position)
  | some op => return .binary "binary" token.position op left (← reader.expression precedence)

-- The value takes all that follows, so assignments group to the right.
def readAssign (reader : Reader) (target : Node) (_ : Nat) : Parse Node := do
  let token ← Parse.take
  match target with
  | .reference name _ => return .assign "assign" token.position name (← reader.expression 0)
  | other => Parse.fail (.located (.notAssignable other.describe) token.position)

def isAnySymbol (symbols : List String) (cursor : Cursor) : Bool := symbols.any cursor.isSymbol

def text : ExpressionForm := starting "string" Precedence.postfixed (·.isKind .text) readText

def number : ExpressionForm := starting "number" Precedence.postfixed (·.isKind .number) readNumber

def await : ExpressionForm := starting "await" Precedence.unary (·.isWord "await") readAwait

def reference : ExpressionForm := starting "variable" Precedence.postfixed Cursor.isName readReference

def bracket : ExpressionForm :=
  ⟨"bracket", Precedence.postfixed, (·.isBracket "("), some readGroup, some readCall⟩

def array : ExpressionForm :=
  ⟨"array", Precedence.postfixed, (·.isBracket "["), some readArray, some readIndex⟩

def access : ExpressionForm := extending "access" Precedence.postfixed (·.isSymbol ".") readAccess

def unary : ExpressionForm := starting "unary" Precedence.unary (isAnySymbol ["-", "!"]) readUnary

def operators (name : String) (precedence : Nat) (symbols : List String) : ExpressionForm :=
  extending name precedence (isAnySymbol symbols) readBinary

def either : ExpressionForm := operators "or" Precedence.either ["||"]

def both : ExpressionForm := operators "and" Precedence.both ["&&"]

def equality : ExpressionForm := operators "equality" Precedence.equality ["==", "!="]

def comparison : ExpressionForm :=
  operators "comparison" Precedence.comparison ["<", "<=", ">", ">="]

def term : ExpressionForm := operators "term" Precedence.term ["+", "-"]

def factor : ExpressionForm := operators "factor" Precedence.factor ["*", "/", "%"]

def assign : ExpressionForm := extending "assign" Precedence.assignment (·.isSymbol "=") readAssign

def standard : List ExpressionForm :=
  [text, number, await, reference, bracket, array, access, unary, either, both, equality,
   comparison, term, factor, assign]

end ExpressionForm

end CoopScript
