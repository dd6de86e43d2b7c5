import CoopScript.Source.LexRule

set_option autoImplicit false
namespace CoopScript.Recognizer

def hashComment : Recognizer
  | '#' :: rest => .ok (some (1 + (rest.takeWhile (· ≠ '\n')).length))
  | _ => .ok none

def atError : Recognizer
  | '@' :: _ => .error (.raised .lexer "stray at sign")
  | _ => .ok none

def zero : Recognizer := fun _ => .ok (some 0)

def isLoosePart (c : Char) : Bool := c.isAlphanum || c = '.' || c = '+' || c = '-'

def looseNumber : Recognizer
  | first :: rest =>
    if first.isDigit then .ok (some (1 + (rest.takeWhile isLoosePart).length)) else .ok none
  | [] => .ok none

def anyChar : Recognizer
  | _ :: _ => .ok (some 1)
  | [] => .ok none

def named (name : String) : Recognizer :=
  match name with
  | "hash_comment" => hashComment
  | "at_error" => atError
  | "zero" => zero
  | "loose_number" => looseNumber
  | _ => anyChar

end CoopScript.Recognizer
