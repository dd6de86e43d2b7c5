import CoopScript.Diagnostic.Cause

set_option autoImplicit false
namespace CoopScript

abbrev Recognizer := List Char → Except Cause (Option Nat)

namespace Recognizer

def quoteMarks : List Char := ['\x22', '\x27', '\x60']

def isWordStart (c : Char) : Bool := c.isAlpha || c = '_'

def isWordPart (c : Char) : Bool := c.isAlphanum || c = '_'

def commentLength : List Char → Option Nat
  | [] => none
  | '*' :: '/' :: _ => some 2
  | _ :: rest => (commentLength rest).map (· + 1)

def comment : Recognizer
  | '/' :: '/' :: rest => .ok (some (2 + (rest.takeWhile (· ≠ '\n')).length))
  | '/' :: '*' :: rest =>
    match commentLength rest with
    | some length => .ok (some (2 + length))
    | none => .error .unterminatedComment
  | _ => .ok none

def digitsLength (input : List Char) : Nat := (input.takeWhile Char.isDigit).length

def number : Recognizer := fun input =>
  let whole := digitsLength input
  if whole = 0 then .ok none
  else
    match input.drop whole with
    | '.' :: rest =>
      let fraction := digitsLength rest
      .ok (some (if fraction = 0 then whole else whole + 1 + fraction))
    | _ => .ok (some whole)

def word : Recognizer
  | [] => .ok none
  | first :: rest =>
    if isWordStart first then .ok (some (1 + (rest.takeWhile isWordPart).length)) else .ok none

-- The characters up to and including the closing quote; a backslash hides the one after it.
def textLength (quote : Char) : List Char → Option Nat
  | [] => none
  | ['\x5c'] => none
  | '\x5c' :: _ :: rest => (textLength quote rest).map (· + 2)
  | c :: rest => if c = quote then some 1 else (textLength quote rest).map (· + 1)

def text : Recognizer
  | [] => .ok none
  | quote :: rest =>
    if quote ∈ quoteMarks then
      match textLength quote rest with
      | some length => .ok (some (1 + length))
      | none => .error .unterminatedText
    else .ok none

end Recognizer
end CoopScript
