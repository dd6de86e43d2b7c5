import CoopScript.Diagnostic.Basic
import CoopScript.Grammar.Cursor

set_option autoImplicit false
namespace CoopScript

inductive Parsed (α : Type) where
  | ok (value : α) (rest : Cursor)
  | failed (diagnostic : Diagnostic)
  | stalled

def Parse (α : Type) := Cursor → Parsed α

namespace Parse
variable {α β σ : Type}

@[inline] def pure (value : α) : Parse α := fun cursor => .ok value cursor

@[inline] def bind (first : Parse α) (next : α → Parse β) : Parse β := fun cursor =>
  match first cursor with
  | .ok value rest => next value rest
  | .failed diagnostic => .failed diagnostic
  | .stalled => .stalled

instance : Monad Parse where
  pure := pure
  bind := bind

def fail (diagnostic : Diagnostic) : Parse α := fun _ => .failed diagnostic

def iterate (step : σ → Parse (σ ⊕ α)) : Nat → σ → Parse α
  | 0, _, _ => .stalled
  | fuel + 1, state, cursor =>
    match step state cursor with
    | .ok (.inl state) rest => iterate step fuel state rest
    | .ok (.inr value) rest => .ok value rest
    | .failed diagnostic => .failed diagnostic
    | .stalled => .stalled

def cursor : Parse Cursor := fun cursor => .ok cursor cursor

def current : Parse Token := fun cursor => .ok cursor.current cursor

def ask (question : Cursor → Bool) : Parse Bool := fun cursor => .ok (question cursor) cursor

def take : Parse Token := fun cursor => .ok cursor.current cursor.advance

def skipSeparators : Parse Unit := fun cursor => .ok () cursor.skipSeparators

def takeIf (question : Cursor → Bool) : Parse Bool := fun cursor =>
  if question cursor then .ok true cursor.advance else .ok false cursor

def unexpected (what : String) : Parse α := fun cursor =>
  .failed (.located (.expected what cursor.current.describe) cursor.current.position)

def expect (kind : TokenKind) (text : String) : Parse Token := fun cursor =>
  if cursor.current.is kind text then take cursor else unexpected (Cause.ticked text) cursor

def expectName (what : String) : Parse Token := fun cursor =>
  if cursor.isName then take cursor else unexpected what cursor

def unmatched (opening : Token) : Diagnostic := .located (.unmatched opening.text) opening.position

-- Takes the bracket that closes `opening`; when the tokens end first, `opening` is to blame.
def expectClosing (opening : Token) (closing : String) : Parse Token := fun cursor =>
  if cursor.isBracket closing then take cursor
  else if cursor.atEnd then .failed ((unmatched opening).withNote (.expectedClosing closing))
  else unexpected (Cause.ticked closing) cursor

end Parse
end CoopScript
