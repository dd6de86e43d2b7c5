import CoopScript.Rule.Expression

set_option autoImplicit false
namespace CoopScript.Extension

def readConcat (reader : Reader) (left : Node) (_ : Nat) : Parse Node := do
  let position := (← Parse.take).position
  return .binary "concat" position .add left (← reader.expression (Precedence.term - 1))

-- The texts of both operands, the left one's taken before the right one is evaluated. A node without two operands has
-- the empty text.
def runConcat (engine : Engine) (node : Node) (frame : FrameId) : Exec Value :=
  match node with
  | .binary _ _ _ left right => do
    let left ← engine.stringify (← engine.evaluate left frame) frame
    let right ← engine.stringify (← engine.evaluate right frame) frame
    Exec.text (left ++ right)
  | _ => Exec.text ""

def dotsRule : LexRule := ⟨"dots", .symbol, .fixed ".."⟩

def concatRule : ExpressionRule :=
  .running (.extending "concat" Precedence.term (·.isSymbol "..") readConcat) ["concat"] runConcat

def readPair (reader : Reader) (left : Node) (precedence : Nat) : Parse Node := do
  let position := (← Parse.take).position
  return .array "array" position [left, ← reader.expression precedence]

def pairRule : ExpressionRule := .silent (.extending "pair" 3 (·.isSymbol ":") readPair)

def worded (word : String) (start : Reader → Nat → Parse Node) : ExpressionRule :=
  .silent (.starting word 1 (·.isWord word) start)

def readDo (reader : Reader) (_ : Nat) : Parse Node := do
  let _ ← Parse.take
  reader.statement

def doRule : ExpressionRule := worded "do" readDo

def readGhost (_ : Reader) (_ : Nat) : Parse Node := do
  return .group "ghost" (← Parse.take).position .void

def ghostRule : ExpressionRule := worded "ghost" readGhost

def readVoid (_ : Reader) (_ : Nat) : Parse Node := do
  let _ ← Parse.take
  return .void

def voidRule : ExpressionRule := worded "void" readVoid

def readMinus (reader : Reader) (precedence : Nat) : Parse Node := do
  let position := (← Parse.take).position
  return .unary "unary" position .negate (← reader.expression precedence)

def minusRule : ExpressionRule := worded "minus" readMinus

end CoopScript.Extension
