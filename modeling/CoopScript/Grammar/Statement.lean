import CoopScript.Grammar.Form

set_option autoImplicit false
namespace CoopScript.StatementForm

def startsFunction (cursor : Cursor) : Bool :=
  cursor.isWord "fn" || (cursor.isWord "async" && cursor.next.is .word "fn")

def parameters (reader : Reader) (function : String) (opening : Token) : Parse (List String) := do
  if ← Parse.takeIf (·.isBracket ")") then return []
  let step (names : List String) : Parse (List String ⊕ List String) := do
    let parameter ← Parse.expectName "parameter name"
    if names.contains parameter.text then
      Parse.fail (.located (.duplicateParameter parameter.text function) parameter.position)
    let names := names ++ [parameter.text]
    if ← Parse.takeIf (·.isSymbol ",") then return .inl names
    let _ ← Parse.expectClosing opening ")"
    return .inr names
  Parse.iterate step reader.fuel []

def parseFunction (reader : Reader) : Parse Node := do
  let first ← Parse.current
  let isAsync ← Parse.takeIf (·.isWord "async")
  let _ ← Parse.expect .word "fn"
  let name := (← Parse.expectName "function name").text
  let opening ← Parse.expect .bracket "("
  let names ← parameters reader name opening
  let body ← reader.block
  return .function "fn" first.position name names isAsync body

def parseReturn (reader : Reader) : Parse Node := do
  let position := (← Parse.take).position
  let endsHere (cursor : Cursor) : Bool :=
    cursor.isKind .separator || cursor.isBracket "\x7d" || cursor.atEnd
  if ← Parse.ask endsHere then return .giveBack "return" position none
  return .giveBack "return" position (some (← reader.expression 0))

def condition (reader : Reader) : Parse Node := do
  let opening ← Parse.expect .bracket "("
  let inner ← reader.expression 0
  let _ ← Parse.expectClosing opening ")"
  return inner

def parseIf (reader : Reader) : Parse Node := do
  let position := (← Parse.take).position
  let question ← condition reader
  let whenTrue ← reader.body
  let whenFalse ←
    if ← Parse.takeIf (·.isWord "else") then some <$> reader.body else pure none
  return .branch "if" position question whenTrue whenFalse

def parseWhile (reader : Reader) : Parse Node := do
  let position := (← Parse.take).position
  let question ← condition reader
  return .loop "while" position question (← reader.body)

def parseBlock (reader : Reader) : Parse Node := do
  let first ← Parse.current
  return .block "block" first.position (← reader.block)

def function : StatementForm := ⟨"fn", startsFunction, parseFunction⟩

def giveBack : StatementForm := ⟨"return", (·.isWord "return"), parseReturn⟩

def branch : StatementForm := ⟨"if", (·.isWord "if"), parseIf⟩

def loop : StatementForm := ⟨"while", (·.isWord "while"), parseWhile⟩

def block : StatementForm := ⟨"block", (·.isBracket "\x7b"), parseBlock⟩

def standard : List StatementForm := [function, giveBack, branch, loop, block]

end CoopScript.StatementForm
