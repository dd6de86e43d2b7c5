import CoopScript.Source.Token

set_option autoImplicit false
namespace CoopScript

structure Cursor where
  current : Token
  rest : List Token

namespace Cursor

def ofTokens? : List Token → Option Cursor
  | [] => none
  | current :: rest => some ⟨current, rest⟩

def next (cursor : Cursor) : Token := cursor.rest.headD cursor.current

def advance (cursor : Cursor) : Cursor :=
  match cursor.rest with
  | [] => cursor
  | current :: rest => if cursor.current.kind = .finish then cursor else ⟨current, rest⟩

def isKind (cursor : Cursor) (kind : TokenKind) : Bool := cursor.current.kind = kind

def atEnd (cursor : Cursor) : Bool := cursor.isKind .finish

def isSymbol (cursor : Cursor) (text : String) : Bool := cursor.current.is .symbol text

def isBracket (cursor : Cursor) (text : String) : Bool := cursor.current.is .bracket text

def isWord (cursor : Cursor) (text : String) : Bool := cursor.current.is .word text

def skipFrom (current : Token) : List Token → Cursor
  | [] => ⟨current, []⟩
  | next :: rest => if current.kind = .separator then skipFrom next rest else ⟨current, next :: rest⟩

def skipSeparators (cursor : Cursor) : Cursor := skipFrom cursor.current cursor.rest

end Cursor

def keywords : List String := ["fn", "async", "return", "if", "else", "while", "await"]

def Cursor.isName (cursor : Cursor) : Bool :=
  cursor.isKind .word && !keywords.contains cursor.current.text

end CoopScript
