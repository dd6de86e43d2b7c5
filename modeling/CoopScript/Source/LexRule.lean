import CoopScript.Source.Recognizer
import CoopScript.Source.Token

set_option autoImplicit false
namespace CoopScript

inductive Pattern where
  | fixed (text : String)
  | oneOf (options : List String)
  | custom (recognize : Recognizer)

namespace Pattern

def fixedLength (text : String) (input : List Char) : Option Nat :=
  if text.toList.isPrefixOf input then some text.toList.length else none

def longer : Option Nat → Option Nat → Option Nat
  | some left, some right => some (max left right)
  | some left, none => some left
  | none, right => right

def recognize : Pattern → Recognizer
  | fixed text, input => .ok (fixedLength text input)
  | oneOf options, input =>
    .ok (options.foldl (fun best option => longer best (fixedLength option input)) none)
  | custom recognizer, input => recognizer input

end Pattern

structure LexRule where
  name : String
  kind : TokenKind
  pattern : Pattern

namespace LexRule

def standard : List LexRule :=
  [⟨"comment", .comment, .custom Recognizer.comment⟩,
   ⟨"number", .number, .custom Recognizer.number⟩,
   ⟨"ident", .word, .custom Recognizer.word⟩,
   ⟨"string", .text, .custom Recognizer.text⟩,
   ⟨"compound", .symbol, .oneOf ["==", "!=", "<=", ">=", "&&", "||"]⟩,
   ⟨"symbol", .symbol,
    .oneOf ["+", "-", "*", "/", "%", "<", ">", "=", "!", ",", ".", ":"]⟩,
   ⟨"bracket", .bracket, .oneOf ["(", ")", "\x7b", "\x7d", "[", "]"]⟩,
   ⟨"separator", .separator, .fixed ";"⟩]

end LexRule
end CoopScript
