import CoopScript.Source.Position

set_option autoImplicit false
namespace CoopScript

inductive TokenKind where
  | number
  | word
  | symbol
  | bracket
  | text
  | separator
  | comment
  | finish
deriving DecidableEq

-- Comments are recognised like every other token, but no reader of a program sees them.
def TokenKind.isTrivia (kind : TokenKind) : Bool := kind = .comment

structure Token where
  kind : TokenKind
  text : String
  position : Position
deriving DecidableEq

namespace Token

def is (token : Token) (kind : TokenKind) (text : String) : Bool :=
  token.kind = kind && token.text = text

def describe (token : Token) : String :=
  match token.kind with
  | .finish => "end of input"
  | _ => "`" ++ token.text ++ "`"

end Token
end CoopScript
