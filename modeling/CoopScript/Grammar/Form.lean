import CoopScript.Grammar.Parse
import CoopScript.Program.Node

/-!
Grammars as two tables of forms. A statement form is chosen by what the cursor shows; an expression
form starts an expression or extends the one to its left, and binds as tightly as its precedence says.
In both tables the first form that applies is taken.
-/
set_option autoImplicit false
namespace CoopScript

structure Reader where
  fuel : Nat
  statement : Parse Node
  expression : Nat → Parse Node

structure StatementForm where
  name : String
  applies : Cursor → Bool
  parse : Reader → Parse Node

structure ExpressionForm where
  name : String
  precedence : Nat
  applies : Cursor → Bool
  start? : Option (Reader → Nat → Parse Node)
  extend? : Option (Reader → Node → Nat → Parse Node)

structure Grammar where
  statements : List StatementForm
  expressions : List ExpressionForm

namespace Grammar

def starting? (cursor : Cursor) : List ExpressionForm → Option (Nat × (Reader → Nat → Parse Node))
  | [] => none
  | form :: rest =>
    match form.start? with
    | some start => if form.applies cursor then some (form.precedence, start) else starting? cursor rest
    | none => starting? cursor rest

def extending? (minimum : Nat) (cursor : Cursor) :
    List ExpressionForm → Option (Nat × (Reader → Node → Nat → Parse Node))
  | [] => none
  | form :: rest =>
    match form.extend? with
    | some extend =>
      if minimum < form.precedence && form.applies cursor then some (form.precedence, extend)
      else extending? minimum cursor rest
    | none => extending? minimum cursor rest

def statement (grammar : Grammar) (reader : Reader) : Parse Node := do
  Parse.skipSeparators
  let cursor ← Parse.cursor
  match grammar.statements.find? fun form => form.applies cursor with
  | some form => form.parse reader
  | none => reader.expression 0

-- One extension of the expression on the left, if any binds more tightly than `minimum`.
def extension (grammar : Grammar) (reader : Reader) (minimum : Nat) (left : Node) :
    Parse (Node ⊕ Node) := do
  let cursor ← Parse.cursor
  match extending? minimum cursor grammar.expressions with
  | some (precedence, extend) => return .inl (← extend reader left precedence)
  | none => return .inr left

def expression (grammar : Grammar) (reader : Reader) (minimum : Nat) : Parse Node := do
  let cursor ← Parse.cursor
  match starting? cursor grammar.expressions with
  | none => Parse.unexpected "expression"
  | some (precedence, start) =>
    let first ← start reader precedence
    Parse.iterate (grammar.extension reader minimum) reader.fuel first

end Grammar

namespace Reader

def stalled : Reader := ⟨0, fun _ => .stalled, fun _ _ => .stalled⟩

def ofFuel (grammar : Grammar) : Nat → Reader
  | 0 => stalled
  | fuel + 1 =>
    { fuel := fuel + 1
      statement := fun cursor => grammar.statement (ofFuel grammar fuel) cursor
      expression := fun minimum cursor => grammar.expression (ofFuel grammar fuel) minimum cursor }

def block (reader : Reader) : Parse (List Node) := do
  let opening ← Parse.expect .bracket "\x7b"
  let step (items : List Node) : Parse (List Node ⊕ List Node) := do
    Parse.skipSeparators
    if ← Parse.takeIf (·.isBracket "\x7d") then return .inr items.reverse
    if ← Parse.ask Cursor.atEnd then Parse.fail (Parse.unmatched opening)
    return .inl ((← reader.statement) :: items)
  Parse.iterate step reader.fuel []

-- A block in braces, or one statement in its place.
def body (reader : Reader) : Parse (List Node) := do
  if ← Parse.ask (·.isBracket "\x7b") then reader.block
  else return [← reader.statement]

def list (reader : Reader) (opening : Token) (closing : String) : Parse (List Node) := do
  if ← Parse.takeIf (·.isBracket closing) then return []
  let step (items : List Node) : Parse (List Node ⊕ List Node) := do
    let items := (← reader.expression 0) :: items
    if ← Parse.takeIf (·.isSymbol ",") then return .inl items
    let _ ← Parse.expectClosing opening closing
    return .inr items.reverse
  Parse.iterate step reader.fuel []

def program (reader : Reader) : Parse (List Node) := do
  Parse.skipSeparators
  let step (items : List Node) : Parse (List Node ⊕ List Node) := do
    if ← Parse.ask Cursor.atEnd then return .inr items.reverse
    let item ← reader.statement
    Parse.skipSeparators
    return .inl (item :: items)
  Parse.iterate step reader.fuel []

end Reader

namespace Grammar

-- Steps enough for a grammar whose forms each take a token before they read on.
def allowance (tokens : List Token) : Nat := 2 * tokens.length + 4

def parse (grammar : Grammar) (tokens : List Token) : Parsed (List Node) :=
  match Cursor.ofTokens? tokens with
  | some cursor => (Reader.ofFuel grammar (allowance tokens)).program cursor
  | none => .stalled

end Grammar
end CoopScript
